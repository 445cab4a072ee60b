import LinkWatch.Proofs.Walk.WellFormed

/-!
Resolving the result of a resolution. What comes after a missing component is appended without being inspected, and steps
upwards in it can lead back into what is there. Only then can a link be left on the way to the resolved path: as long as
that is below the missing component, it resolves to itself (`resolve_resolved`). In general it does so exactly if the
way down to it is `Passable`.
-/

namespace LinkWatch

/-! ### Names -/

def Component.name? : Component → Option FileName
  | .name n => some n
  | _ => none

namespace Path

/-- The names in a path. -/
def names (p : Path) : List FileName := p.components.filterMap Component.name?

variable {p q : Path} {n : FileName}

lemma names_child (hp : Clean p) (hn : IsName n) : (p.child n).names = p.names ++ [n] := by
  rw [names, components_child hp.isRooted hn, List.filterMap_append]
  rfl

/-- A clean path is what its names lead to from the root. -/
lemma Clean.foldl_names (hp : Clean p) : p.names.foldl Path.child root = p := by
  refine Clean.induction (motive := fun p => p.names.foldl Path.child root = p) rfl (fun d n hd hn ih => ?_) hp
  rw [names_child hd hn, List.foldl_append, ih]
  rfl

/-- A place on the way is followed by the names that are left. -/
lemma OnWay.exists_names (h : OnWay q p) : ∃ ns, p.names = q.names ++ ns := by
  obtain ⟨ns, hns⟩ := h.below.filterMap Component.name?
  exact ⟨ns, hns.symm⟩

end Path

namespace Resolution

variable {f : Snapshot} {asked : Path}

lemma steps_child {d : Path} {c : FileName} (hd : Path.Clean d) (hc : Path.IsName c) :
    steps (d.child c) = steps d ++ [.name c] := by
  rw [steps, Path.components_child hd.isRooted hc, List.filterMap_append]
  rfl

lemma steps_clean {p : Path} (hp : Path.Clean p) : steps p = .root :: p.names.map .name := by
  refine Path.Clean.induction (motive := fun p => steps p = .root :: p.names.map .name) rfl (fun d n hd hn ih => ?_) hp
  rw [steps_child hd hn, ih, Path.names_child hd hn, List.map_append]
  rfl

/-! ### The way down -/

/-- Down from `d` by these names, no link and nothing that cannot be inspected comes before the first missing entry. -/
def Passable (f : Snapshot) : Path → List FileName → Prop
  | _, [] => True
  | d, n :: ns => f.look (d.child n) = .missing ∨ f.look (d.child n) = .plain ∧ Passable f (d.child n) ns

/-- After a missing component names are appended. -/
lemma run_beyond {n : Nat} (ns : List FileName) {w : Place} (hm : w.missing.isSome = true) :
    Run f asked n (ns.map .name) w [] (.ok { w with current := ns.foldl Path.child w.current }) := by
  induction ns generalizing w with
  | nil => exact .done
  | cons c ns ih => exact .beyond hm (ih (w := w.enter c) hm)

lemma Passable.run {d : Path} {ns : List FileName} (h : Passable f d ns) (asked : Path) (n : Nat) :
    ∃ seen m, Run f asked n (ns.map .name) ⟨d, [], none⟩ seen (.ok ⟨ns.foldl Path.child d, [], m⟩) := by
  induction ns generalizing d with
  | nil => exact ⟨_, _, .done⟩
  | cons c ns ih =>
    rcases h with hl | ⟨hl, h⟩
    · exact ⟨_, _, .missing rfl hl (run_beyond ns rfl)⟩
    · obtain ⟨seen, m, hrun⟩ := ih h
      exact ⟨_, m, .plain rfl hl hrun⟩

/-- A walk down that crosses no link shows that there is none. -/
lemma Run.passable {n : Nat} {ns : List FileName} {w : Place} {seen : List Path} {v : Place}
    (h : Run f asked n (ns.map .name) w seen (.ok v)) (hm : w.missing = none) (hv : v.hops = []) :
    Passable f w.current ns := by
  induction ns generalizing w seen with
  | nil => trivial
  | cons c ns ih =>
    generalize hout : (Except.ok v : Except WatchError Place) = out at h
    cases h with
    | beyond hsome => simp [hm] at hsome
    | plain _ hl hrun => exact Or.inr ⟨hl, ih (w := w.enter c) (hout ▸ hrun) hm⟩
    | missing _ hl => exact Or.inl hl
    | crossed _ hl hrun =>
      have hop := (hout ▸ hrun).hops_subset (List.mem_append_right w.hops (List.mem_singleton.mpr rfl))
      rw [hv] at hop
      cases hop
    | failed => cases hout
    | unreadable => cases hout
    | exhausted => cases hout

/-! ### Walking again -/

/-- A place without links is walked to without crossing any. -/
lemma Solid.run {d : Path} (h : Solid f d) {n : Nat} {left : List Step} {seen : List Path}
    {out : Except WatchError Place} (hrun : Run f asked n left ⟨d, [], none⟩ seen out) :
    ∃ seen', Run f asked n (steps d ++ left) .start seen' out := by
  obtain ⟨hops, hlinks, hon⟩ := h.self.run (w := .start) (fun c hc => Path.isName_of_mem_components hc) rfl
  obtain rfl := List.map_eq_nil_iff.mp hlinks
  exact hon hrun

lemma Solid.run_self {d : Path} (h : Solid f d) (asked : Path) (n : Nat) :
    ∃ seen, Run f asked n (steps d) .start seen (.ok ⟨d, [], none⟩) := by
  have hdone : Run f asked n [] ⟨d, [], none⟩ [] (.ok ⟨d, [], none⟩) := .done
  obtain ⟨seen, hrun⟩ := h.run hdone
  rw [List.append_nil] at hrun
  exact ⟨seen, hrun⟩

/-- Where a walk ended below its missing component, or missed nothing, it ends again when it goes there directly. -/
theorem Arrives.again {p : Path} {v : Place} (h : Arrives f p v) {n : Nat}
    (hbelow : ∀ e ∈ v.missing, Path.OnWay (e.dir.child e.name) v.current) :
    ∃ seen, Run f asked n (steps v.current) .start seen (.ok ⟨v.current, [], v.missing⟩) := by
  cases hm : v.missing with
  | none =>
    have hsolid := (h.firm.stands hm).resolve_right (by simp)
    exact hsolid.run_self asked n
  | some e =>
    obtain ⟨hdir, hname, hlook⟩ := h.faithful.missing e hm
    obtain ⟨ns, hns⟩ := (hbelow e hm).exists_names
    have hcurrent : ns.foldl Path.child (e.dir.child e.name) = v.current := by
      rw [← h.clean.foldl_names, hns, List.foldl_append, (hdir.child hname).foldl_names]
    have hsteps : steps v.current = steps e.dir ++ .name e.name :: ns.map .name := by
      rw [steps_clean h.clean, hns, Path.names_child hdir hname, steps_clean hdir]
      simp
    have hrest : Run f asked n (.name e.name :: ns.map .name) ⟨e.dir, [], none⟩ [e.dir.child e.name]
        (.ok ⟨v.current, [], some e⟩) := by
      rw [← hcurrent]
      exact .missing rfl hlook (run_beyond ns rfl)
    rw [hsteps]
    exact (h.firm.missing e hm).run hrest

/-- A resolution of a clean path without links on the way leads to it. -/
lemma resolve_clean_iff {d : Path} (hd : Path.Clean d) :
    (∃ r, f.resolve d = .ok r ∧ r.resolved = d ∧ r.hops = []) ↔ Passable f .root d.names := by
  have hsteps : steps d = .root :: d.names.map .name := steps_clean hd
  constructor
  · rintro ⟨r, hr, -, hhops⟩
    obtain ⟨v, hrun, rfl⟩ := run_of_resolve hd.isRooted hr
    rw [steps_tidy hd.isRooted, hsteps] at hrun
    generalize hout : (Except.ok v : Except WatchError Place) = out at hrun
    cases hrun with
    | root hrun =>
      have hpass := (hout ▸ hrun).passable rfl hhops
      rwa [Path.join_root] at hpass
  · intro hpass
    obtain ⟨seen, m, hrun⟩ := hpass.run d.tidy maxHops
    rw [hd.foldl_names] at hrun
    have hall : Run f d.tidy maxHops (steps d.tidy) .start seen (.ok ⟨d, [], m⟩) := by
      rw [steps_tidy hd.isRooted, hsteps]
      exact .root hrun
    exact ⟨_, resolve_of_run hd.isRooted hall, rfl, rfl⟩

/-- **When a resolved path resolves to itself.** It does so without links exactly if the way down to it is passable.
This is so whenever nothing is pending or the resolved path lies below what is pending, and then
the same is pending again. -/
theorem resolve_resolved {f : Snapshot} (hf : f.Grounded) {p : Path} {r : Resolution} (h : f.resolve p = .ok r) :
    ((∃ r', f.resolve r.resolved = .ok r' ∧ r'.resolved = r.resolved ∧ r'.hops = []) ↔
      Passable f .root r.resolved.names) ∧
    ((∀ e ∈ r.pending, (e.dir.child e.name).components <+: r.resolved.components) →
      f.resolve r.resolved = .ok ⟨r.resolved, [], r.pending⟩) := by
  obtain ⟨p', hp, hsame, -⟩ := exists_rooted hf h
  obtain ⟨v, harr, rfl⟩ := exists_arrives hp hsame
  refine ⟨resolve_clean_iff harr.clean, fun hpending => ?_⟩
  have hbelow : ∀ e ∈ v.missing, Path.OnWay (e.dir.child e.name) v.current := by
    intro e hm
    obtain ⟨hdir, hname, -⟩ := harr.faithful.missing e hm
    refine ⟨hdir.child hname, Path.child_ne_root hdir hname, ?_⟩
    have heq := pending_eq harr.clean hdir hname hm
    by_cases hleaf : e.dir.child e.name = v.current
    · simp only [hleaf, List.prefix_refl]
    · rw [if_neg hleaf] at heq
      exact hpending e heq
  obtain ⟨seen, hrun⟩ := harr.again hbelow
  exact resolve_of_run harr.clean.isRooted (steps_tidy harr.clean.isRooted ▸ hrun)

/-- Where the link led, the path resolves to itself, still waiting for `/b/m`. -/
theorem resolve_resolved_dangling :
    dangling.resolve toMissing.resolved = .ok ⟨toMissing.resolved, [], toMissing.pending⟩ ∧
      Passable dangling .root toMissing.resolved.names := by
  obtain ⟨hiff, hbelow⟩ := resolve_resolved grounded_dangling resolve_dangling
  have hagain := hbelow fun e he => by
    obtain rfl := Option.some.inj he
    decide
  exact ⟨hagain, hiff.mp ⟨_, hagain, rfl, rfl⟩⟩

/-- A step upwards after a missing component can lead to a link: `/m/../l` resolves to `/l`, and that further on. -/
theorem not_idempotent :
    ¬ ∀ (f : Snapshot) (p : Path) (r : Resolution), f.Grounded → f.resolve p = .ok r →
      ∃ r', f.resolve r.resolved = .ok r' ∧ r'.resolved = r.resolved ∧ r'.hops = [] := by
  intro h
  have hgrounded : (linked true false).Grounded := by
    rintro dir hdir
    obtain rfl := Except.ok.inj hdir
    rfl
  have hthere : (linked true false).resolve ⟨[0x2f, 0x6d, 0x2f, 0x2e, 0x2e, 0x2f, 0x6c]⟩ =
      .ok ⟨⟨[0x2f, 0x6c]⟩, [], some ⟨.root, [0x6d]⟩⟩ := rfl
  obtain ⟨r', hr', hresolved, -⟩ := h _ _ _ hgrounded hthere
  have hagain : (linked true false).resolve ⟨[0x2f, 0x6c]⟩ = .ok ⟨⟨[0x2f, 0x73, 0x72, 0x76]⟩, throughLink.hops, none⟩ :=
    rfl
  obtain rfl := Except.ok.inj (hr'.symm.trans hagain)
  cases hresolved

end Resolution

end LinkWatch
