import LinkWatch.Proofs.Walk.Coverage

/-!
How far the interests of a resolution determine it. The walk looks at its interests and, besides, at plain entries
on the way, which are no interests: a directory that goes away, or becomes a link, can change the result with
no interest of it changing. It is all that can: where another tree shows the same at every interest, the result is
the same exactly if the entries that were plain on the way are plain there too.
-/

namespace LinkWatch.Resolution

variable {f g : Snapshot} {asked : Path} {p q : Path} {r : Resolution}

/-! ### Entries -/

lemma Run.clean_seen {n left w seen out} (h : Run f asked n left w seen out) (hw : Footing left w) :
    ∀ q ∈ seen, Path.Clean q := by
  induction h with
  | done => exact List.forall_mem_nil _
  | root _ ih => exact ih hw.root
  | up _ ih => exact ih hw.up
  | beyond _ _ ih => exact ih hw.enter
  | plain _ _ _ ih => exact List.forall_mem_cons.mpr ⟨hw.clean.child hw.isName, ih hw.enter⟩
  | missing _ _ _ ih => exact List.forall_mem_cons.mpr ⟨hw.clean.child hw.isName, ih hw.lose⟩
  | crossed _ _ _ ih => exact List.forall_mem_cons.mpr ⟨hw.clean.child hw.isName, ih (hw.cross _)⟩
  | failed | unreadable | exhausted =>
    exact List.forall_mem_cons.mpr ⟨hw.clean.child hw.isName, List.forall_mem_nil _⟩

lemma clean_of_inspected (hp : p.isRooted = true) (h : f.resolve p = .ok r) (hq : q ∈ f.inspected p) :
    Path.Clean q := by
  obtain ⟨v, hrun, -⟩ := run_of_resolve hp h
  exact hrun.clean_seen (footing_start (Path.isRooted_tidy hp)) q hq

/-- The interests are entries of clean directories. -/
lemma clean_of_interest (hp : p.isRooted = true) (h : f.resolve p = .ok r) {e : Entry} (he : e ∈ r.interests) :
    Path.Clean e.dir ∧ Path.IsName e.name := by
  obtain ⟨v, hrun, rfl⟩ := run_of_resolve hp h
  obtain ⟨hclean, hfaithful⟩ := hrun.faithful (footing_start (Path.isRooted_tidy hp)) Place.faithful_start
  rcases mem_of_mem_interests he with hhop | hpending | hleaf
  · obtain ⟨x, hx, rfl⟩ := List.mem_map.mp hhop
    obtain ⟨hdir, hname, -⟩ := hfaithful.hop x hx
    exact ⟨hdir, hname⟩
  · obtain ⟨hdir, hname, -⟩ := hfaithful.missing e (Option.eq_some_of_filter_eq_some hpending)
    exact ⟨hdir, hname⟩
  · obtain ⟨hdir, hname, -⟩ := hclean.of_entry hleaf
    exact ⟨hdir, hname⟩

/-- What was inspected and is not plain is an interest, spelled as it was inspected. -/
lemma interest_of_inspected (hp : p.isRooted = true) (h : f.resolve p = .ok r) (hq : q ∈ f.inspected p)
    (hlook : f.look q ≠ .plain) : ∃ e ∈ r.interests, e.dir.child e.name = q := by
  obtain ⟨e', hentry, hkey⟩ := mem_interests_of_inspected hp h hq (Or.inl hlook)
  obtain ⟨e, he, hsame⟩ := Sorted.mem_keys.mp hkey
  obtain ⟨hdir, hname⟩ := clean_of_interest hp h he
  refine ⟨e, he, (hdir.child hname).eq (clean_of_inspected hp h hq) ?_⟩
  obtain ⟨hdirs, hnames⟩ := Prod.mk.inj hsame
  rw [Path.components_child hdir.isRooted hname, Path.components_of_entry hentry, hdirs, hnames]

/-! ### Two trees -/

/-- The second tree shows the same as the first at every interest. -/
def Concurs (f g : Snapshot) (r : Resolution) : Prop :=
  ∀ e ∈ r.interests, f.look (e.dir.child e.name) = g.look (e.dir.child e.name)

lemma look_eq_of_concurs (hp : p.isRooted = true) (h : f.resolve p = .ok r) (hagree : Concurs f g r)
    (hq : q ∈ f.inspected p) (hlook : f.look q ≠ .plain) : f.look q = g.look q := by
  obtain ⟨e, he, rfl⟩ := interest_of_inspected hp h hq hlook
  exact hagree e he

/-- **What keeps a resolution.** In a tree that shows the same at every interest, a path resolves as before exactly
if the entries that were plain on the way are plain there too. -/
theorem resolve_eq_iff_plain {f g : Snapshot} {p : Path} {r : Resolution} (hp : p.isRooted = true)
    (h : f.resolve p = .ok r) (hagree : Concurs f g r) :
    g.resolve p = .ok r ↔ ∀ q ∈ f.inspected p, f.look q = .plain → g.look q = .plain := by
  obtain ⟨v, hrun, rfl⟩ := run_of_resolve hp h
  constructor
  · intro h' q hq hplain
    obtain ⟨v', hrun', hv'⟩ := run_of_resolve hp h'
    rcases hrun.agree hrun' with hsame | ⟨q', hq', hseen, hne⟩
    · exact (hsame q hq).symm.trans hplain
    · -- where the two walks part, one of them sees something that is not plain, and both have it as an interest
      exfalso
      by_cases hlook : f.look q' = .plain
      · have hlook' : g.look q' ≠ .plain := fun he => hne (hlook.trans he.symm)
        have hback : Concurs g f v.resolution := fun e he => (hagree e he).symm
        exact hne (look_eq_of_concurs hp h' hback hseen hlook').symm
      · exact hne (look_eq_of_concurs hp h hagree hq' hlook)
  · intro hplain
    have hsame : ∀ q ∈ f.inspected p, f.look q = g.look q := by
      intro q hq
      by_cases hlook : f.look q = .plain
      · rw [hlook, hplain q hq hlook]
      · exact look_eq_of_concurs hp h hagree hq hlook
    exact resolve_of_run hp (hrun.congr hsame)

/-- A tree with a link `/l` to `srv`, the directory `/srv` if it is there, and perhaps a file `/x`. -/
def linked (there other : Bool) : Snapshot where
  entryKind q :=
    if q.components = [.root, .name [0x6c]] then .ok .symlink
    else if q.components = [.root, .name [0x73, 0x72, 0x76]] ∧ there then .ok .dir
    else if q.components = [.root, .name [0x78]] ∧ other then .ok .file
    else .error (.os .noEntry)
  readLink _ := .ok ⟨[0x73, 0x72, 0x76]⟩
  currentDir := .ok .root

/-- Where `/l/f` leads with `/srv` there. -/
def throughLink : Resolution where
  resolved := ⟨[0x2f, 0x73, 0x72, 0x76, 0x2f, 0x66]⟩
  hops := [⟨⟨[0x2f, 0x6c]⟩, ⟨[0x2f]⟩, [0x6c], ⟨[0x73, 0x72, 0x76]⟩⟩]
  pending := none

lemma resolve_linked : (linked true false).resolve ⟨[0x2f, 0x6c, 0x2f, 0x66]⟩ = .ok throughLink := rfl

/-- `/l/f` still leads to `/srv/f` when `/x` appears. -/
theorem resolve_eq_iff_plain_linked : (linked true true).resolve ⟨[0x2f, 0x6c, 0x2f, 0x66]⟩ = .ok throughLink := by
  have hagree : Concurs (linked true false) (linked true true) throughLink :=
    List.forall_mem_cons.mpr ⟨rfl, List.forall_mem_cons.mpr ⟨rfl, List.forall_mem_nil _⟩⟩
  refine (resolve_eq_iff_plain rfl resolve_linked hagree).mpr ?_
  refine List.forall_mem_cons.mpr ⟨fun hl => hl, List.forall_mem_cons.mpr ⟨fun hl => hl, ?_⟩⟩
  exact List.forall_mem_cons.mpr ⟨fun hl => hl, List.forall_mem_nil _⟩

/-- The interests alone do not determine the resolution: without `/srv` the link and the entry `f` are as before, but
what is missing first is `/srv`, which was no interest. -/
theorem not_determined_by_interests :
    ¬ ∀ (f g : Snapshot) (p : Path) (r : Resolution), f.currentDir = g.currentDir → p.isRooted = true →
      f.resolve p = .ok r →
      (∀ e ∈ r.interests, f.entryKind (e.dir.child e.name) = g.entryKind (e.dir.child e.name) ∧
        f.readLink (e.dir.child e.name) = g.readLink (e.dir.child e.name)) →
      g.resolve p = .ok r := by
  intro h
  have hsame : ∀ e ∈ throughLink.interests,
      (linked true false).entryKind (e.dir.child e.name) = (linked false false).entryKind (e.dir.child e.name) ∧
      (linked true false).readLink (e.dir.child e.name) = (linked false false).readLink (e.dir.child e.name) :=
    List.forall_mem_cons.mpr ⟨⟨rfl, rfl⟩, List.forall_mem_cons.mpr ⟨⟨rfl, rfl⟩, List.forall_mem_nil _⟩⟩
  cases h (linked true false) (linked false false) _ _ rfl rfl resolve_linked hsame

end LinkWatch.Resolution
