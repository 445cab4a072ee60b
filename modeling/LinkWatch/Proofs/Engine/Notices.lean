import LinkWatch.Proofs.Engine.Submitted

/-!
When a target that leads elsewhere is notified. The first event of a batch that concerns the target re-points it, and
whether that notifies depends on what the event means to the old resolution: a change of a link or of the file does, a
change of the missing component does not. Later events find the target re-pointed already, so only a change of the
file notifies then. A change of a link is therefore *absorbed* if an event of the missing component comes before
it (`Reachable.relinked_notices`): the target is re-pointed, and nobody is told.
-/

namespace LinkWatch.Engine

variable {σ : Type} {sys : System σ} {f : Snapshot} {e : Engine σ} {id : TargetId}

/-- What an event means to a resolution. -/
def means (r : Resolution) (event : Event) : Match := r.classify event.entry.dir event.entry.name

/-- The first event of the batch that concerns the old resolution is one of its missing component, and no event after
it is one of the file that the new resolution leads to. -/
def Absorbed (old new : Resolution) (batch : List Event) : Prop :=
  ∃ before first rest, batch = before ++ first :: rest ∧ (∀ event ∈ before, means old event = .none) ∧
    means old first = .pending ∧ ∀ event ∈ rest, means new event ≠ .leaf

/-! ### One target -/

variable {p : Path} {r : Resolution}

/-- Once a target leads where its path resolves to, only a change of the file notifies. -/
lemma foldl_react_settled (h : f.resolve p = .ok r) (told : Bool) (batch : List Event) :
    (batch.foldl (react f p) ⟨r, told⟩).told = (told || batch.any fun event => means r event == .leaf) := by
  have hrenewed : renewed f p r = r := by rw [renewed, h]; simp [Resolution.same_refl]
  have hreplaced : replaced f p r = none := by rw [replaced, h]; simp [Resolution.same_refl]
  induction batch generalizing told with
  | nil => simp
  | cons event rest ih =>
    have hstep : react f p ⟨r, told⟩ event = ⟨r, told || means r event == .leaf⟩ := by
      by_cases hm : r.classify event.entry.dir event.entry.name = .none
      · rw [react_of_none hm, means, hm]
        simp
      · rw [react_of_ne_none hm, hrenewed, hreplaced, means]
        cases r.classify event.entry.dir event.entry.name <;> simp [notifies]
    rw [List.foldl_cons, hstep, ih, List.any_cons, Bool.or_assoc]

/-- The first event that concerns a target decides, and after it a change of the file. -/
lemma foldl_react_first {old : Resolution} (h : f.resolve p = .ok r) (hne : old.same r = false)
    {before rest : List Event} {first : Event} (hbefore : ∀ event ∈ before, means old event = .none)
    (hfirst : means old first ≠ .none) :
    ((before ++ first :: rest).foldl (react f p) ⟨old, false⟩).told =
      (means old first != .pending || rest.any fun event => means r event == .leaf) := by
  have hidle : before.foldl (react f p) ⟨old, false⟩ = ⟨old, false⟩ := by
    induction before with
    | nil => rfl
    | cons event before ih =>
      have hstep : react f p ⟨old, false⟩ event = ⟨old, false⟩ := react_of_none (hbefore event (by simp))
      rw [List.foldl_cons, hstep]
      exact ih fun event' h' => hbefore event' (by simp [h'])
  have hrenewed : renewed f p old = r := by rw [renewed, h]; simp [hne]
  have hreplaced : replaced f p old = some old := by rw [replaced, h]; simp [hne]
  have hstep : react f p ⟨old, false⟩ first = ⟨r, notifies (means old first) (some old)⟩ := by
    have hreact : react f p ⟨old, false⟩ first =
        ⟨renewed f p old, false || notifies (means old first) (replaced f p old)⟩ := react_of_ne_none hfirst
    rw [hreact, hrenewed, hreplaced, Bool.false_or]
  rw [List.foldl_append, hidle, List.foldl_cons, hstep, foldl_react_settled h]
  cases hm : means old first with
  | none => exact absurd hm hfirst
  | leaf => rfl
  | hop => rfl
  | pending => rfl

/-- A batch that concerns a target has a first event that does. -/
lemma exists_first {old : Resolution} {batch : List Event} (h : ∃ event ∈ batch, means old event ≠ .none) :
    ∃ before first rest, batch = before ++ first :: rest ∧ (∀ event ∈ before, means old event = .none) ∧
      means old first ≠ .none := by
  induction batch with
  | nil =>
    obtain ⟨event, hmem, -⟩ := h
    cases hmem
  | cons event rest ih =>
    by_cases hm : means old event = .none
    · obtain ⟨event', hmem, hne⟩ := h
      rcases List.mem_cons.mp hmem with rfl | hmem
      · exact absurd hm hne
      · obtain ⟨before, first, rest', rfl, hbefore, hfirst⟩ := ih ⟨event', hmem, hne⟩
        refine ⟨event :: before, first, rest', rfl, ?_, hfirst⟩
        intro x hx
        rcases List.mem_cons.mp hx with rfl | hx
        · exact hm
        · exact hbefore x hx
    · exact ⟨[], event, rest, rfl, by simp, hm⟩

lemma told_iff_not_absorbed {old : Resolution} {batch : List Event} (h : f.resolve p = .ok r)
    (hne : old.same r = false) (hc : ∃ event ∈ batch, means old event ≠ .none) :
    (batch.foldl (react f p) ⟨old, false⟩).told = true ↔ ¬ Absorbed old r batch := by
  constructor
  · rintro htold ⟨before, first, rest, rfl, hbefore, hfirst, hrest⟩
    rw [foldl_react_first h hne hbefore (by simp [hfirst]), hfirst] at htold
    obtain ⟨event, hmem, hleaf⟩ : ∃ event ∈ rest, means r event = .leaf := by simpa using htold
    exact hrest event hmem hleaf
  · intro hnot
    obtain ⟨before, first, rest, rfl, hbefore, hfirst⟩ := exists_first hc
    rw [foldl_react_first h hne hbefore hfirst]
    by_contra htold
    obtain ⟨hpending, hrest⟩ : means old first = .pending ∧ ∀ event ∈ rest, means r event ≠ .leaf := by
      simpa using htold
    exact hnot ⟨before, first, rest, rfl, hbefore, hpending, hrest⟩

/-! ### The table -/

/-- The batch notifies the target so many times, and hands each own listener of the target its path as often. -/
structure NotifiedTimes (sys : System σ) (batch : List Event) (e : Engine σ) (id : TargetId) (n : Nat) : Prop where
  notices : timesTold e.table (notices sys batch e) id = n
  handed : ∀ k, Hears e.table id k →
    handed k (e.table.target id).requested (process sys batch e) = handed k (e.table.target id).requested e + n

lemma notifiedTimes_of_course (h : Reachable e) (hs : sys.Steady f) (hid : id ∈ e.table.targets)
    {batch : List Event} {b : Bool} (hc : (courseOf f e.table [] batch id).told = b) :
    NotifiedTimes sys batch e id (if b then 1 else 0) := by
  have htimes := (process_course h hs batch hid).2
  rw [hc] at htimes
  exact ⟨htimes, fun k hears => by rw [handed_process h hid hears, htimes]⟩

/-- **A changed link notifies, unless it is absorbed.** Let a batch hold an event of a link of a target, and let the
target lead elsewhere now. The target is notified exactly once, except where the change is absorbed: then it is not
notified at all. -/
theorem Reachable.relinked_notices (h : Reachable e) (hs : sys.Steady f) (hid : id ∈ e.table.targets)
    {batch : List Event} (hlink : ∃ event ∈ batch, means (e.table.target id).resolution event = .hop)
    {new : Resolution} (hnew : f.resolve (e.table.target id).requested = .ok new)
    (hne : (e.table.target id).resolution.same new = false) :
    (Absorbed (e.table.target id).resolution new batch → NotifiedTimes sys batch e id 0) ∧
      (¬ Absorbed (e.table.target id).resolution new batch → NotifiedTimes sys batch e id 1) := by
  have hc : ∃ event ∈ batch, means (e.table.target id).resolution event ≠ .none := by
    obtain ⟨event, hmem, hm⟩ := hlink
    exact ⟨event, hmem, by simp [hm]⟩
  have htold := told_iff_not_absorbed hnew hne hc
  constructor
  · intro habsorbed
    refine notifiedTimes_of_course h hs hid (b := false) ?_
    rw [← Bool.not_eq_true]
    exact fun ht => htold.mp ht habsorbed
  · intro hnot
    exact notifiedTimes_of_course h hs hid (b := true) (htold.mpr hnot)

/-- A tree with a link `/l` and the directories `/a` and `/b`. -/
def linkAndDirs (target : Path) : Snapshot where
  entryKind q :=
    if q.components = [.root, .name [0x6c]] then .ok .symlink
    else if q.components = [.root, .name [0x61]] ∨ q.components = [.root, .name [0x62]] then .ok .dir
    else .error (.os .noEntry)
  readLink _ := .ok target
  currentDir := .ok .root

/-- The system of such a tree. -/
def linkAndDirsSystem (target : Path) : System Unit where
  toFilesystem := (linkAndDirs target).filesystem
  watch _ _ := (.ok (), ())
  unwatch _ _ := (.ok (), ())

/-- `/l/s/x` is watched while the link points to `a`, where `s` is missing; a listener is registered for it. -/
def missingWatched : Engine Unit :=
  let e : Engine Unit := { dispatcher := { workers := [{}] }, world := () }
  let e := (e.register (linkAndDirsSystem .root).toNativeWatches ⟨[0x2f, 0x6c, 0x2f, 0x73, 0x2f, 0x78]⟩
    ⟨⟨[0x2f, 0x61, 0x2f, 0x73, 0x2f, 0x78]⟩, [⟨⟨[0x2f, 0x6c]⟩, .root, [0x6c], ⟨[0x61]⟩⟩],
      some ⟨⟨[0x2f, 0x61]⟩, [0x73]⟩⟩).2
  (e.addListener (.only 0) .strong 7).2

/-- The link comes to point to `b`. If the event of the missing component comes first, nobody is told; if the event
of the link comes first, the listener is. -/
theorem relinked_notices_missingWatched :
    let sys := linkAndDirsSystem ⟨[0x62]⟩
    let missing : Event := ⟨⟨⟨[0x2f, 0x61]⟩, [0x73]⟩, .other⟩
    let link : Event := ⟨⟨.root, [0x6c]⟩, .other⟩
    NotifiedTimes sys [missing, link] missingWatched 0 0 ∧ NotifiedTimes sys [link, missing] missingWatched 0 1 ∧
      Hears missingWatched.table 0 7 := by
  intro sys missing link
  have hr : Reachable missingWatched :=
    .elsewhere (alike_addListener (.only 0) .strong 7 _) (.register _ _ _ (.start rfl))
  have hs : sys.Steady (linkAndDirs ⟨[0x62]⟩) := ⟨(linkAndDirs _).answers, fun _ => rfl, fun _ => rfl⟩
  have hlink : means (missingWatched.table.target 0).resolution link = .hop := by decide +kernel
  refine ⟨?_, ?_, ⟨by decide +kernel, by decide +kernel⟩⟩
  · exact (hr.relinked_notices hs (by decide +kernel) ⟨link, by simp, hlink⟩ rfl (by decide +kernel)).1
      ⟨[], missing, [link], rfl, by simp, by decide +kernel, by decide +kernel⟩
  · refine (hr.relinked_notices hs (by decide +kernel) ⟨link, by simp, hlink⟩ rfl (by decide +kernel)).2 ?_
    rintro ⟨before, first, rest, hsplit, hbefore, hfirst, -⟩
    cases before with
    | nil =>
      have heq : link = first := (List.cons.inj hsplit).1
      rw [← heq, hlink] at hfirst
      cases hfirst
    | cons event before =>
      have heq : link = event := (List.cons.inj hsplit).1
      have hnone := hbefore event (by simp)
      rw [← heq, hlink] at hnone
      cases hnone

end LinkWatch.Engine
