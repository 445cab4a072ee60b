import LinkWatch.Proofs.Engine.Batch
import LinkWatch.Proofs.Walk.Coverage

/-!
Convergence of the event loop. A target that leads where its path resolves to in one tree is brought to where it
resolves to in the next by any batch that reports the change, whatever else the batch holds and in whatever order
(`Reachable.converges`). Where the two resolutions differ, the trees differ at an interest of the target
(`exists_reported`), so some event of the batch concerns the target; the first one that does resolves it anew.

The directories on the way are no interests. So they are asked to stay: an entry that was inspected as a file or a
directory, other than the resolved file itself, is still one.
-/

namespace LinkWatch.Engine

variable {σ : Type} {sys : System σ} {f g : Snapshot} {e : Engine σ} {id : TargetId}

/-- Every registered target leads where its path resolves to. -/
def Current (f : Snapshot) (t : Table) : Prop :=
  ∀ id ∈ t.targets, ∃ r, f.resolve (t.target id).requested = .ok r ∧ (t.target id).resolution.same r = true

/-- Every registered target was requested by a rooted path. -/
def Rooted (t : Table) : Prop := ∀ id ∈ t.targets, (t.target id).requested.isRooted = true

/-- A batch that reports the change from one tree to another. -/
structure Reports (f g : Snapshot) (t : Table) (batch : List Event) : Prop where
  /-- Plain entries on the way of a target stay plain. -/
  kept : ∀ id ∈ t.targets, ∀ q ∈ f.inspected (t.target id).requested, f.look q = .plain →
    q.same (t.target id).resolution.resolved = false → g.look q = .plain
  /-- Each entry that can be read in both trees and is not the same in both has an event. -/
  reported : ∀ q entry, Path.entry? q = some entry → Resolution.Readable f q → Resolution.Readable g q →
    f.look q ≠ g.look q → ∃ event ∈ batch, event.entry.same entry = true

/-! ### One target -/

variable {p : Path} {r : Resolution}

lemma renewed_same (h : g.resolve p = .ok r) (s : Resolution) : (renewed g p s).same r = true := by
  rw [renewed, h]
  dsimp only
  split
  · assumption
  · exact Resolution.same_refl r

lemma react_same (h : g.resolve p = .ok r) {c : Course} (hc : c.resolution.same r = true) (event : Event) :
    (react g p c event).resolution.same r = true := by
  by_cases hm : c.resolution.classify event.entry.dir event.entry.name = .none
  · rw [react_of_none hm, hc]
  · rw [react_of_ne_none hm, renewed_same h]

lemma foldl_react_same (h : g.resolve p = .ok r) {c : Course} (hc : c.resolution.same r = true)
    (batch : List Event) : (batch.foldl (react g p) c).resolution.same r = true := by
  induction batch generalizing c with
  | nil => exact hc
  | cons event rest ih => exact ih (react_same h hc event)

/-- A target that some event concerns ends where its path resolves to. -/
lemma foldl_react_concerned (h : g.resolve p = .ok r) {c : Course} {batch : List Event}
    (hc : ∃ event ∈ batch, c.resolution.classify event.entry.dir event.entry.name ≠ .none) :
    (batch.foldl (react g p) c).resolution.same r = true := by
  induction batch generalizing c with
  | nil =>
    obtain ⟨event, hmem, -⟩ := hc
    cases hmem
  | cons event rest ih =>
    rw [List.foldl_cons]
    by_cases hm : c.resolution.classify event.entry.dir event.entry.name = .none
    · obtain ⟨event', hmem, hne⟩ := hc
      rw [react_of_none hm]
      rcases List.mem_cons.mp hmem with rfl | hmem
      · exact absurd hm hne
      · exact ih ⟨event', hmem, hne⟩
    · rw [react_of_ne_none hm]
      exact foldl_react_same h (renewed_same h _) rest

/-- A target that leads elsewhere in the new tree is concerned by an event of the batch. -/
lemma exists_reported {t : Table} {batch : List Event} (hrep : Reports f g t batch) (hid : id ∈ t.targets)
    (hrooted : (t.target id).requested.isRooted = true) {r₀ r₁ : Resolution}
    (h₀ : f.resolve (t.target id).requested = .ok r₀) (hs : (t.target id).resolution.same r₀ = true)
    (h₁ : g.resolve (t.target id).requested = .ok r₁) (hne : r₁ ≠ r₀) :
    ∃ event ∈ batch, (t.target id).resolution.classify event.entry.dir event.entry.name ≠ .none := by
  have hview := Resolution.same_iff.mp hs
  have hresolved : (t.target id).resolution.resolved.components = r₀.resolved.components := (Prod.mk.inj hview).1
  obtain ⟨q, hq, hdiffer, hread⟩ := (Resolution.resolve_parts hrooted h₀ h₁).resolve_left hne
  -- a plain entry on the way would have stayed as it was
  have hwhere : f.look q ≠ .plain ∨ q.same r₀.resolved = true := by
    by_contra hnot
    obtain ⟨hplain, hoff⟩ := not_or.mp hnot
    have hplain := not_not.mp hplain
    have hoff : q.same (t.target id).resolution.resolved = false := by
      rw [← Bool.not_eq_true, Path.same_iff, hresolved, ← Path.same_iff]
      exact hoff
    exact hdiffer (hplain.trans (hrep.kept id hid q hq hplain hoff).symm)
  obtain ⟨entry, hentry, hint⟩ := Resolution.mem_interests_of_inspected hrooted h₀ hq hwhere
  obtain ⟨event, hmem, hsame⟩ :=
    hrep.reported q entry hentry (Resolution.readable_of_inspected hrooted h₀ hq) hread hdiffer
  refine ⟨event, hmem, Resolution.classify_ne_none.mpr ?_⟩
  rw [Resolution.keys_interests_congr hview, ← Entry.key_eq event.entry, Entry.same_iff.mp hsame]
  exact hint

/-! ### The table -/

lemma process_current (h : Reachable e) (hs : sys.Steady g) (hrooted : Rooted e.table) (hcur : Current f e.table)
    {batch : List Event} (hrep : Reports f g e.table batch) (hid : id ∈ e.table.targets)
    (hr : g.resolve (e.table.target id).requested = .ok r) :
    ((process sys batch e).table.target id).resolution.same r = true := by
  rw [(process_course h hs batch hid).1, courseOf]
  obtain ⟨r₀, h₀, hsame⟩ := hcur id hid
  by_cases hne : r = r₀
  · subst hne
    exact foldl_react_same hr hsame batch
  · exact foldl_react_concerned hr (exists_reported hrep hid (hrooted id hid) h₀ hsame hr hne)

/-- Rounds in which the tree changes, a batch reports the change and is handled, and every path resolves. -/
inductive Rounds (f : Snapshot) (e : Engine σ) : Snapshot → Engine σ → Prop
  | start : Rounds f e f e
  | next {g g' : Snapshot} {e' : Engine σ} {sys : System σ} {batch : List Event} :
      Rounds f e g e' → sys.Steady g' → Reports g g' e'.table batch →
      (∀ id ∈ e'.table.targets, ∃ r, g'.resolve (e'.table.target id).requested = .ok r) →
      Rounds f e g' (process sys batch e')

lemma Rounds.current {e' : Engine σ} (hrounds : Rounds f e g e') (h : Reachable e) (hrooted : Rooted e.table)
    (hcur : Current f e.table) : Reachable e' ∧ Rooted e'.table ∧ Current g e'.table := by
  induction hrounds with
  | start => exact ⟨h, hrooted, hcur⟩
  | @next g g' e' sys batch _ hs hrep hall ih =>
    obtain ⟨h', hrooted', hcur'⟩ := ih
    obtain ⟨htargets, hreq⟩ := process_registered h' hs batch
    refine ⟨h'.process sys batch, fun id hid => ?_, fun id hid => ?_⟩
    · rw [hreq]
      exact hrooted' id (htargets ▸ hid)
    · have hid : id ∈ e'.table.targets := htargets ▸ hid
      obtain ⟨r, hr⟩ := hall id hid
      exact ⟨r, by rw [hreq, hr], process_current h' hs hrooted' hcur' hrep hid hr⟩

/-- **Convergence.** If every target leads where its path resolves to, then after a batch that reports a change of
the tree every target whose path still resolves leads where it resolves to now; and so over any number of rounds. -/
theorem Reachable.converges (h : Reachable e) (hrooted : Rooted e.table) (hcur : Current f e.table) :
    (∀ (sys : System σ) (g : Snapshot) (batch : List Event), sys.Steady g → Reports f g e.table batch →
      ∀ id ∈ e.table.targets, ∀ r, g.resolve (e.table.target id).requested = .ok r →
        ((Engine.process sys batch e).table.target id).resolution.same r = true) ∧
    ∀ (g : Snapshot) (e' : Engine σ), Rounds f e g e' → Current g e'.table :=
  ⟨fun _ _ _ hs hrep _ hid _ hr => process_current h hs hrooted hcur hrep hid hr,
    fun _ _ hrounds => (hrounds.current h hrooted hcur).2.2⟩

/-- A tree with a link `/l` and nothing else. -/
def oneLink (target : Path) : Snapshot where
  entryKind q := if q.components = [.root, .name [0x6c]] then .ok .symlink else .error (.os .noEntry)
  readLink _ := .ok target
  currentDir := .ok .root

/-- The system of such a tree. -/
def oneLinkSystem (target : Path) : System Unit where
  toFilesystem := (oneLink target).filesystem
  watch _ _ := (.ok (), ())
  unwatch _ _ := (.ok (), ())

/-- The link is watched while it points to `a`. -/
def linkWatched : Engine Unit :=
  (({ dispatcher := { workers := [{}] }, world := () } : Engine Unit).register (oneLinkSystem .root).toNativeWatches
    ⟨[0x2f, 0x6c]⟩ ⟨⟨[0x2f, 0x61]⟩, [⟨⟨[0x2f, 0x6c]⟩, .root, [0x6c], ⟨[0x61]⟩⟩], none⟩).2

lemma look_oneLink (target q : Path) : (oneLink target).look q =
    if q.components = [.root, .name [0x6c]] then .link (.ok target) else .missing := by
  unfold Snapshot.look oneLink
  by_cases hq : q.components = [.root, .name [0x6c]] <;> simp [hq, IoError.isMissing, IoError.kind, Errno.kind]

lemma steady_oneLink (target : Path) : (oneLinkSystem target).Steady (oneLink target) :=
  ⟨(oneLink target).answers, fun _ => rfl, fun _ => rfl⟩

lemma reports_oneLink : Reports (oneLink ⟨[0x61]⟩) (oneLink ⟨[0x62]⟩) linkWatched.table
    [⟨⟨.root, [0x6c]⟩, .other⟩] where
  kept id _ q _ hplain := by
    rw [look_oneLink] at hplain
    split at hplain <;> cases hplain
  reported q entry hentry _ _ hdiffer := by
    refine ⟨_, List.mem_singleton.mpr rfl, Entry.same_iff.mpr ?_⟩
    by_cases hq : q.components = [.root, .name [0x6c]]
    · have hparts : entry.dir.components ++ [.name entry.name] = [Component.root] ++ [.name [0x6c]] :=
        (Path.components_of_entry hentry).symm.trans hq
      obtain ⟨hdir, hname⟩ := List.append_inj' hparts rfl
      rw [Entry.key_eq, Entry.key_eq, hdir, Component.name.inj (List.head_eq_of_cons_eq hname)]
      rfl
    · exact absurd (by rw [look_oneLink, look_oneLink, if_neg hq, if_neg hq]) hdiffer

lemma eq_zero_of_mem_targets (h : id ∈ linkWatched.table.targets) : id = 0 := by
  have htargets : linkWatched.table.targets = [0] := by decide +kernel
  simpa [htargets] using h

/-- The link comes to point to `b`, and the target follows. -/
theorem converges_linkWatched :
    ((process (oneLinkSystem ⟨[0x62]⟩) [⟨⟨.root, [0x6c]⟩, .other⟩] linkWatched).table.target 0).resolution.same
      ⟨⟨[0x2f, 0x62]⟩, [⟨⟨[0x2f, 0x6c]⟩, .root, [0x6c], ⟨[0x62]⟩⟩], none⟩ = true := by
  have hrooted : Rooted linkWatched.table := fun id hid => by
    rw [eq_zero_of_mem_targets hid]
    decide +kernel
  have hcur : Current (oneLink ⟨[0x61]⟩) linkWatched.table := fun id hid => by
    rw [eq_zero_of_mem_targets hid]
    exact ⟨_, rfl, by decide +kernel⟩
  exact (Reachable.converges (.register _ _ _ (.start rfl)) hrooted hcur).1
    _ _ _ (steady_oneLink _) reports_oneLink 0 (by decide +kernel) _ rfl

end LinkWatch.Engine
