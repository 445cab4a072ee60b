import LinkWatch.Proofs.Walk.Coverage
import LinkWatch.Proofs.Walk.Limit
import Mathlib.Data.List.Induction

/-!
Resolution against the recursive reading of a path. `Lookup` reads a path from its last component: a plain entry
is where its name says, and a link leads where its target does, read from the directory that holds the link.
A walk takes a list of steps instead and puts the steps of a target in front of those that are left.

The two agree. From a walk to a reading the induction is on the links that may be crossed,
since the steps of a target come on top of those that are left. The other way a reading is a walk whatever steps are
left after it (`Lookup.run`). Beyond the limit on links, `Comes` follows the walk without one.
-/

namespace LinkWatch.Resolution

variable {f : Snapshot} {asked : Path}

/-! ### Reading a path recursively -/

/-- What a path leads to, and the links crossed on the way, in order. -/
inductive Lookup (f : Snapshot) : List Component → Path → List Path → Prop
  | root : Lookup f [.root] .root []
  | plain {cs d ls c} : Lookup f cs d ls → f.look (d.child c) = .plain → Lookup f (cs ++ [.name c]) (d.child c) ls
  | link {cs d ls c t r ls'} : Lookup f cs d ls → f.look (d.child c) = .link (.ok t) →
      Lookup f (d.join t).components r ls' → Lookup f (cs ++ [.name c]) r (ls ++ d.child c :: ls')
  | up {cs d ls} : Lookup f cs d ls → Lookup f (cs ++ [.up]) d.pop ls

/-- One component more, from a directory. -/
inductive Onward (f : Snapshot) (d : Path) : Component → Path → List Path → Prop
  | plain {c} : f.look (d.child c) = .plain → Onward f d (.name c) (d.child c) []
  | link {c t r ls} : f.look (d.child c) = .link (.ok t) → Lookup f (d.join t).components r ls →
      Onward f d (.name c) r (d.child c :: ls)
  | up : Onward f d .up d.pop []

lemma Lookup.concat {cs d ls c r ls'} (h : Lookup f cs d ls) (hc : Onward f d c r ls') :
    Lookup f (cs ++ [c]) r (ls ++ ls') := by
  cases hc with
  | plain hl =>
    rw [List.append_nil]
    exact .plain h hl
  | link hl ht => exact .link h hl ht
  | up =>
    rw [List.append_nil]
    exact .up h

lemma Lookup.of_concat {cs c r ls} (h : Lookup f (cs ++ [c]) r ls) (hcs : cs ≠ []) :
    ∃ d ls₁ ls₂, Lookup f cs d ls₁ ∧ Onward f d c r ls₂ ∧ ls = ls₁ ++ ls₂ := by
  generalize hall : cs ++ [c] = all at h
  cases h with
  | root => exact absurd (List.append_eq_singleton_iff.mp hall) (by simp [hcs])
  | plain h hl =>
    obtain ⟨rfl, hc⟩ := List.append_inj' hall rfl
    obtain rfl := List.singleton_inj.mp hc
    exact ⟨_, _, _, h, .plain hl, (List.append_nil _).symm⟩
  | link h hl ht =>
    obtain ⟨rfl, hc⟩ := List.append_inj' hall rfl
    obtain rfl := List.singleton_inj.mp hc
    exact ⟨_, _, _, h, .link hl ht, rfl⟩
  | up h =>
    obtain ⟨rfl, hc⟩ := List.append_inj' hall rfl
    obtain rfl := List.singleton_inj.mp hc
    exact ⟨_, _, _, h, .up, (List.append_nil _).symm⟩

/-- What comes after a front end depends on nothing but where the front end leads. -/
lemma Lookup.cut {cs left r ls} (h : Lookup f (cs ++ left) r ls) (hcs : cs ≠ []) :
    ∃ d ls₁ ls₂, Lookup f cs d ls₁ ∧ ls = ls₁ ++ ls₂ ∧
      ∀ {cs' ls'}, Lookup f cs' d ls' → Lookup f (cs' ++ left) r (ls' ++ ls₂) := by
  induction left using List.reverseRecOn generalizing r ls with
  | nil =>
    rw [List.append_nil] at h
    refine ⟨r, ls, [], h, (List.append_nil _).symm, fun h' => ?_⟩
    rw [List.append_nil, List.append_nil]
    exact h'
  | append_singleton left c ih =>
    rw [← List.append_assoc] at h
    obtain ⟨d', ls₁, ls₂, hfront, hc, rfl⟩ := h.of_concat (by simp [hcs])
    obtain ⟨d, ls₃, ls₄, hd, rfl, hon⟩ := ih hfront
    refine ⟨d, ls₃, ls₄ ++ ls₂, hd, List.append_assoc .., fun h' => ?_⟩
    rw [← List.append_assoc, ← List.append_assoc]
    exact (hon h').concat hc

/-! ### Places that lead to themselves -/

/-- A clean path without links on the way. -/
structure Solid (f : Snapshot) (d : Path) : Prop where
  clean : Path.Clean d
  self : Lookup f d.components d []

lemma solid_root : Solid f .root := ⟨Path.clean_root, .root⟩

lemma Solid.child {d : Path} {c : FileName} (h : Solid f d) (hc : Path.IsName c) (hl : f.look (d.child c) = .plain) :
    Solid f (d.child c) := by
  refine ⟨h.clean.child hc, ?_⟩
  rw [Path.components_child h.clean.isRooted hc]
  exact h.self.plain hl

/-- What leads to a clean path ends at a clean path. -/
lemma Lookup.clean {cs r ls} (h : Lookup f cs r ls) (hcs : ∀ c, .name c ∈ cs → Path.IsName c) : Path.Clean r := by
  induction h with
  | root => exact Path.clean_root
  | @plain _ _ _ c _ _ ih => exact (ih fun c hc => hcs c (by simp [hc])).child (hcs c (by simp))
  | link _ _ _ _ ih => exact ih fun c hc => Path.isName_of_mem_components hc
  | up _ ih => exact (ih fun c hc => hcs c (by simp [hc])).pop

/-- A clean path without links on the way is the root or a plain entry of another. -/
lemma Solid.root_or_child {d : Path} (h : Solid f d) :
    d = .root ∨ ∃ d' c, Solid f d' ∧ Path.IsName c ∧ d = d'.child c ∧ f.look d = .plain := by
  rcases h.clean.root_or_child with rfl | ⟨d', c, hclean, hc, rfl⟩
  · exact Or.inl rfl
  · right
    have hself := h.self
    rw [Path.components_child hclean.isRooted hc] at hself
    have hne : d'.components ≠ [] := by
      obtain ⟨rest, hrest, -⟩ := Path.components_of_isRooted hclean.isRooted
      simp [hrest]
    obtain ⟨d, ls₁, ls₂, hd, hon, hls⟩ := hself.of_concat hne
    obtain ⟨rfl, rfl⟩ := List.append_eq_nil_iff.mp hls.symm
    -- without a link the last component is an entry of the directory
    generalize hr : d'.child c = r at hon
    cases hon with
    | plain hl =>
      have hdc : Path.Clean d := hd.clean fun c hc => Path.isName_of_mem_components hc
      have hentry := congrArg Path.entry? hr
      rw [hclean.entry?_child hc, hdc.entry?_child hc] at hentry
      obtain rfl := (Entry.mk.inj (Option.some.inj hentry)).1
      exact ⟨_, _, ⟨hclean, hd⟩, hc, rfl, hl⟩

lemma Solid.pop {d : Path} (h : Solid f d) : Solid f d.pop := by
  rcases h.root_or_child with rfl | ⟨d', c, hd', hc, rfl, -⟩
  · rw [Path.pop, show Path.root.parent = none by decide]
    exact h
  · rw [hd'.clean.pop_child hc]
    exact hd'

/-- Where a path leads, no link is left on the way. -/
theorem Lookup.solid {cs r ls} (h : Lookup f cs r ls) (hcs : ∀ c, .name c ∈ cs → Path.IsName c) : Solid f r := by
  induction h with
  | root => exact solid_root
  | @plain _ _ _ c _ hl ih => exact (ih fun c hc => hcs c (by simp [hc])).child (hcs c (by simp)) hl
  | link _ _ _ _ ih => exact ih fun c hc => Path.isName_of_mem_components hc
  | up _ ih => exact (ih fun c hc => hcs c (by simp [hc])).pop

/-! ### Steps and components -/

/-- The component of a step. -/
def Step.component : Step → Component
  | .root => .root
  | .up => .up
  | .name n => .name n

lemma map_component_steps (p : Path) : (steps p).map Step.component = p.said := by
  unfold steps Path.said
  induction p.components with
  | nil => rfl
  | cons c cs ih => cases c <;> simpa [List.filterMap_cons, Step.ofComponent?, Step.component] using ih

lemma said_of_isRooted {p : Path} (h : p.isRooted = true) : p.said = p.components := by
  obtain ⟨cs, hcs, hinner⟩ := Path.components_of_isRooted h
  rw [Path.said, hcs, List.filter_eq_self]
  intro c hc
  rcases List.mem_cons.mp hc with rfl | hc
  · rfl
  · cases hinner c hc <;> rfl

lemma steps_of_isRooted {p : Path} (h : p.isRooted = true) : ∃ left, steps p = .root :: left ∧ .root ∉ left := by
  obtain ⟨cs, hcs, hinner⟩ := Path.components_of_isRooted h
  refine ⟨cs.filterMap Step.ofComponent?, by rw [steps, hcs]; rfl, fun hroot => ?_⟩
  obtain ⟨c, hc, hstep⟩ := List.mem_filterMap.mp hroot
  cases hinner c hc <;> cases hstep

lemma root_notMem_steps {p : Path} (h : p.isRooted = false) : .root ∉ steps p := by
  intro hroot
  have hsaid : Component.root ∈ p.said := by
    rw [← map_component_steps]
    exact List.mem_map_of_mem (f := Step.component) hroot
  rw [Path.said_eq h] at hsaid
  obtain ⟨s, -, hs⟩ := List.mem_filterMap.mp hsaid
  exact (Path.component?_inner hs).1 rfl

lemma steps_join {d t : Path} (hd : d.isRooted = true) (ht : t.isRooted = false) :
    steps (d.join t) = steps d ++ steps t := by
  have hsaid : t.said.filterMap Step.ofComponent? = steps t := by
    unfold steps Path.said
    induction t.components with
    | nil => rfl
    | cons c cs ih => cases c <;> simpa [List.filterMap_cons, Step.ofComponent?] using ih
  rw [steps, Path.components_join hd ht, List.filterMap_append, hsaid]
  rfl

/-! ### From a walk to a reading -/

lemma Run.not_missing {n left w seen v} (h : Run f asked n left w seen (.ok v)) (hv : v.missing = none) :
    w.missing = none := by
  cases hw : w.missing with
  | none => rfl
  | some e =>
    rw [h.missing_eq hw] at hv
    cases hv

/-- The components `cs` lead, over the links `ls`, to where a walk stands with these steps left. -/
inductive Reads (f : Snapshot) (left : List Step) (w : Place) : List Component → List Path → Prop
  | afresh {rest} : left = .root :: rest → .root ∉ rest → (∀ c, .name c ∈ rest → Path.IsName c) → Reads f left w [] []
  | on {cs ls} : .root ∉ left → (∀ c, .name c ∈ left → Path.IsName c) → Solid f w.current →
      Lookup f cs w.current ls → Reads f left w cs ls

section Reads

variable {left : List Step} {w : Place} {c : FileName} {cs : List Component} {ls : List Path}

lemma Reads.root (h : Reads f (.root :: left) w cs ls) :
    cs = [] ∧ ls = [] ∧ Reads f left { w with current := w.current.join .root } [.root] [] := by
  cases h with
  | afresh hleft hroot hnames =>
    obtain rfl := (List.cons.inj hleft).2
    refine ⟨rfl, rfl, .on hroot hnames ?_ ?_⟩ <;> rw [Path.join_root]
    · exact solid_root
    · exact .root
  | on hroot => exact absurd (List.mem_cons_self ..) hroot

lemma Reads.up (h : Reads f (.up :: left) w cs ls) :
    Reads f left { w with current := w.current.pop } (cs ++ [.up]) ls := by
  cases h with
  | afresh hleft => cases hleft
  | on hroot hnames hw hcs =>
    exact .on (fun h => hroot (by simp [h])) (fun c hc => hnames c (by simp [hc])) hw.pop hcs.up

lemma Reads.here (h : Reads f (.name c :: left) w cs ls) :
    .root ∉ left ∧ (∀ d, .name d ∈ left → Path.IsName d) ∧ Path.IsName c ∧ Solid f w.current ∧
      Lookup f cs w.current ls := by
  cases h with
  | afresh hleft => cases hleft
  | on hroot hnames hw hcs =>
    exact ⟨fun h => hroot (by simp [h]), fun d hd => hnames d (by simp [hd]), hnames c (by simp), hw, hcs⟩

lemma Reads.enter (h : Reads f (.name c :: left) w cs ls) (hl : f.look (w.current.child c) = .plain) :
    Reads f left (w.enter c) (cs ++ [.name c]) ls := by
  obtain ⟨hroot, hnames, hc, hw, hcs⟩ := h.here
  exact .on hroot hnames (hw.child hc hl) (hcs.plain hl)

/-- After a link, the target is read from the directory that holds the link. -/
lemma Reads.cross (h : Reads f (.name c :: left) w cs ls) (t : Path) :
    ∃ cs', Reads f (steps t ++ left) (w.cross c t) cs' [] ∧
      cs' ++ (steps t).map Step.component = (w.current.join t).components := by
  obtain ⟨hroot, hnames, -, hw, -⟩ := h.here
  have hall : ∀ d, .name d ∈ steps t ++ left → Path.IsName d := by
    intro d hd
    rcases List.mem_append.mp hd with hd | hd
    · exact isName_of_mem_steps hd
    · exact hnames d hd
  rw [map_component_steps]
  cases ht : t.isRooted with
  | true =>
    obtain ⟨rest, hsteps, hrest⟩ := steps_of_isRooted ht
    rw [hsteps] at hall
    have hafresh : steps t ++ left = .root :: (rest ++ left) := by rw [hsteps, List.cons_append]
    refine ⟨[], .afresh hafresh ?_ fun d hd => hall d (by simp [hd]), ?_⟩
    · simp [hrest, hroot]
    · rw [Path.join, if_pos ht, said_of_isRooted ht]
      rfl
  | false =>
    have hcross : (w.cross c t).current = w.current := by simp [Place.cross, ht]
    refine ⟨w.current.components, .on ?_ hall ?_ ?_, (Path.components_join hw.clean.isRooted ht).symm⟩
    · simp [root_notMem_steps ht, hroot]
    · exact hcross ▸ hw
    · exact hcross ▸ hw.self

end Reads

/-- A walk reads the steps that are left. -/
theorem Run.lookup {n left w seen v} (h : Run f asked n left w seen (.ok v)) (hv : v.missing = none) :
    ∃ ls, v.hops.map Hop.link = w.hops.map Hop.link ++ ls ∧
      ∀ {cs ls₀}, Reads f left w cs ls₀ → Lookup f (cs ++ left.map Step.component) v.current (ls₀ ++ ls) := by
  generalize hout : (Except.ok v : Except WatchError Place) = out at h
  induction h with
  | done =>
    cases hout
    refine ⟨[], (List.append_nil _).symm, fun hread => ?_⟩
    cases hread with
    | afresh hleft => cases hleft
    | on _ _ _ hcs => simpa using hcs
  | root _ ih =>
    obtain ⟨ls, hlinks, hon⟩ := ih hout
    refine ⟨ls, hlinks, fun hread => ?_⟩
    obtain ⟨rfl, rfl, hroot⟩ := hread.root
    exact hon hroot
  | up _ ih =>
    obtain ⟨ls, hlinks, hon⟩ := ih hout
    refine ⟨ls, hlinks, fun hread => ?_⟩
    simpa [Step.component] using hon hread.up
  | @beyond _ _ w _ _ _ hm hrun =>
    have hnone : w.missing = none := (hout ▸ hrun).not_missing hv
    simp [hnone] at hm
  | plain _ hl _ ih =>
    obtain ⟨ls, hlinks, hon⟩ := ih hout
    refine ⟨ls, hlinks, fun hread => ?_⟩
    simpa [Step.component] using hon (hread.enter hl)
  | missing _ _ hrun => cases (hout ▸ hrun).not_missing hv
  | @crossed _ left w c t _ _ _ hl _ ih =>
    obtain ⟨ls, hlinks, hon⟩ := ih hout
    refine ⟨w.current.child c :: ls, by simpa [Place.cross] using hlinks, fun {cs ls₀} hread => ?_⟩
    -- the target and what is left after it are read in one go, so the reading is cut between them
    obtain ⟨cs', hcross, htarget⟩ := hread.cross t
    have hall := hon hcross
    rw [List.map_append, ← List.append_assoc, htarget, List.nil_append] at hall
    have hne : (w.current.join t).components ≠ [] := by
      obtain ⟨-, -, -, hw, -⟩ := hread.here
      obtain ⟨rest, hrest, -⟩ := Path.components_of_isRooted (Path.isRooted_join hw.clean.isRooted t)
      simp [hrest]
    obtain ⟨r, ls₁, ls₂, hr, rfl, hcut⟩ := hall.cut hne
    obtain ⟨-, -, -, -, hcs⟩ := hread.here
    simpa [Step.component] using hcut (hcs.link hl hr)
  | failed => cases hout
  | unreadable => cases hout
  | exhausted => cases hout

/-! ### From a reading to a walk -/

/-- Names of plain entries and steps upwards are walked again as they were read. -/
lemma Lookup.rewalk {cs d} (h : Lookup f cs d []) {n left w seen out} (hw : w.missing = none)
    (hrun : Run f asked n (cs.filterMap Step.ofComponent? ++ left) w seen out) :
    ∃ seen', Run f asked n left { w with current := d } seen' out := by
  generalize hls : ([] : List Path) = ls at h
  induction h generalizing left seen with
  | root =>
    cases hrun with
    | root hrun =>
      rw [Path.join_root] at hrun
      exact ⟨_, hrun⟩
  | plain _ hl ih =>
    rw [List.filterMap_append, List.append_assoc] at hrun
    obtain ⟨_, hrun⟩ := ih hrun hls
    obtain ⟨rest, -, hrun⟩ := hrun.of_plain hw hl
    exact ⟨rest, hrun⟩
  | link => simp at hls
  | up _ ih =>
    rw [List.filterMap_append, List.append_assoc] at hrun
    obtain ⟨_, hrun⟩ := ih hrun hls
    cases hrun with
    | up hrun => exact ⟨_, hrun⟩

/-- A reading is a walk, whatever is left after it, if as many more links may be crossed. -/
theorem Lookup.run {cs r ls} (h : Lookup f cs r ls) (hcs : ∀ c, .name c ∈ cs → Path.IsName c) {w : Place}
    (hw : w.missing = none) :
    ∃ hops, hops.map Hop.link = ls ∧ ∀ {n left seen out}, Run f asked n left ⟨r, w.hops ++ hops, none⟩ seen out →
      ∃ seen', Run f asked (n + ls.length) (cs.filterMap Step.ofComponent? ++ left) w seen' out := by
  induction h generalizing w with
  | root =>
    refine ⟨[], rfl, fun hrun => ?_⟩
    have hplace : (⟨.root, w.hops ++ [], none⟩ : Place) = { w with current := w.current.join .root } := by
      rw [Path.join_root, List.append_nil, ← hw]
    rw [hplace] at hrun
    exact ⟨_, .root hrun⟩
  | plain _ hl ih =>
    obtain ⟨hops, hlinks, hon⟩ := ih (fun c hc => hcs c (by simp [hc])) hw
    refine ⟨hops, hlinks, fun hrun => ?_⟩
    rw [List.filterMap_append, List.append_assoc]
    exact hon (.plain rfl hl hrun)
  | @link cs d ls c t r ls' hd hl ht ih iht =>
    obtain ⟨hops, hlinks, hon⟩ := ih (fun c hc => hcs c (by simp [hc])) hw
    have hsolid := hd.solid fun c hc => hcs c (by simp [hc])
    obtain ⟨hops', hlinks', hon'⟩ := iht (fun c hc => Path.isName_of_mem_components hc)
      (w := Place.cross ⟨d, w.hops ++ hops, none⟩ c t) rfl
    refine ⟨hops ++ ⟨d.child c, d, c, t⟩ :: hops', by simp [hlinks, hlinks'], fun {n left seen out} hrun => ?_⟩
    have hplace : (⟨r, w.hops ++ hops ++ ⟨d.child c, d, c, t⟩ :: hops', none⟩ : Place) =
        ⟨r, (Place.cross ⟨d, w.hops ++ hops, none⟩ c t).hops ++ hops', none⟩ := by simp [Place.cross]
    rw [← List.append_assoc, hplace] at hrun
    obtain ⟨seen', htarget⟩ := hon' hrun
    -- the directory that holds the link is not walked again
    obtain ⟨_, hsteps⟩ : ∃ seen', Run f asked (n + ls'.length) (steps t ++ left)
        (Place.cross ⟨d, w.hops ++ hops, none⟩ c t) seen' out := by
      cases hrooted : t.isRooted with
      | true =>
        rw [Path.join, if_pos hrooted] at htarget
        exact ⟨_, htarget⟩
      | false =>
        rw [show (d.join t).components.filterMap Step.ofComponent? = steps (d.join t) from rfl,
          steps_join hsolid.clean.isRooted hrooted, List.append_assoc] at htarget
        obtain ⟨_, hsteps⟩ := hsolid.self.rewalk rfl htarget
        have hcross : { Place.cross ⟨d, w.hops ++ hops, none⟩ c t with current := d } =
            Place.cross ⟨d, w.hops ++ hops, none⟩ c t := by simp [Place.cross, hrooted]
        exact ⟨_, hcross ▸ hsteps⟩
    obtain ⟨_, hall⟩ := hon (.crossed rfl hl hsteps)
    have hlength : n + (ls ++ d.child c :: ls').length = n + ls'.length + 1 + ls.length := by
      simp only [List.length_append, List.length_cons]
      omega
    rw [List.filterMap_append, List.append_assoc, hlength]
    exact ⟨_, hall⟩
  | up _ ih =>
    obtain ⟨hops, hlinks, hon⟩ := ih (fun c hc => hcs c (by simp [hc])) hw
    refine ⟨hops, hlinks, fun hrun => ?_⟩
    rw [List.filterMap_append, List.append_assoc]
    exact hon (.up hrun)

/-! ### The limit on links -/

/-- How the walk of a path goes on over plain entries and links, however many: the steps left, where it stands, and the
links it has crossed. -/
inductive Comes (f : Snapshot) (p : Path) : List Step → Path → List Path → Prop
  | start : Comes f p (steps p) .empty []
  | root {left d ls} : Comes f p (.root :: left) d ls → Comes f p left .root ls
  | up {left d ls} : Comes f p (.up :: left) d ls → Comes f p left d.pop ls
  | plain {left c d ls} : Comes f p (.name c :: left) d ls → f.look (d.child c) = .plain → Comes f p left (d.child c) ls
  | link {left c d ls t} : Comes f p (.name c :: left) d ls → f.look (d.child c) = .link (.ok t) →
      Comes f p (steps t ++ left) (if t.isRooted then .empty else d) (ls ++ [d.child c])

/-- The walk of a path meets a link after `k` others, before any missing component and any that cannot be read. -/
def Meets (f : Snapshot) (p : Path) (k : Nat) : Prop :=
  ∃ c left d ls t, Comes f p (.name c :: left) d ls ∧ ls.length = k ∧ f.look (d.child c) = .link t

lemma Comes.run {p : Path} {left d ls} (h : Comes f p left d ls) :
    ∃ hops, hops.map Hop.link = ls ∧ ∀ {n seen out}, Run f asked n left ⟨d, hops, none⟩ seen out →
      ∃ seen', Run f asked (n + ls.length) (steps p) .start seen' out := by
  induction h with
  | start => exact ⟨[], rfl, fun hrun => ⟨_, hrun⟩⟩
  | root _ ih =>
    obtain ⟨hops, hlinks, hon⟩ := ih
    exact ⟨hops, hlinks, fun hrun => hon (.root (by simpa [Path.join_root] using hrun))⟩
  | up _ ih =>
    obtain ⟨hops, hlinks, hon⟩ := ih
    exact ⟨hops, hlinks, fun hrun => hon (.up hrun)⟩
  | plain _ hl ih =>
    obtain ⟨hops, hlinks, hon⟩ := ih
    exact ⟨hops, hlinks, fun hrun => hon (.plain rfl hl hrun)⟩
  | @link left c d ls t _ hl ih =>
    obtain ⟨hops, hlinks, hon⟩ := ih
    refine ⟨hops ++ [⟨d.child c, d, c, t⟩], by simp [hlinks], fun {n seen out} hrun => ?_⟩
    obtain ⟨seen', hall⟩ := hon (.crossed rfl hl hrun)
    have hlength : n + (ls ++ [d.child c]).length = n + 1 + ls.length := by
      simp only [List.length_append, List.length_singleton]
      omega
    exact ⟨seen', hlength ▸ hall⟩

/-- After a missing component nothing can fail. -/
lemma Run.ok_of_missing {n left w seen out} (h : Run f asked n left w seen out) (hw : w.missing.isSome = true) :
    ∃ v, out = .ok v := by
  induction h with
  | done => exact ⟨_, rfl⟩
  | root _ ih => exact ih hw
  | up _ ih => exact ih hw
  | beyond _ _ ih => exact ih hw
  | plain hm => simp [hm] at hw
  | missing hm => simp [hm] at hw
  | failed hm => simp [hm] at hw
  | crossed hm => simp [hm] at hw
  | unreadable hm => simp [hm] at hw
  | exhausted hm => simp [hm] at hw

lemma Run.meets {p : Path} {n left w seen q} (h : Run f asked n left w seen (.error (.linkLoop q)))
    (hw : w.missing = none) (hcomes : Comes f p left w.current (w.hops.map Hop.link)) :
    Meets f p (w.hops.length + n) := by
  generalize hout : (Except.error (.linkLoop q) : Except WatchError Place) = out at h
  induction h with
  | done => cases hout
  | root _ ih => exact ih hw (by rw [Path.join_root]; exact hcomes.root) hout
  | up _ ih => exact ih hw hcomes.up hout
  | beyond hm => simp [hw] at hm
  | plain _ hl _ ih => exact ih hw (hcomes.plain hl) hout
  | missing _ _ hrun =>
    obtain ⟨v, hv⟩ := hrun.ok_of_missing rfl
    rw [hv] at hout
    cases hout
  | @crossed n left w c t _ _ _ hl _ ih =>
    have hlinks : (w.cross c t).hops.map Hop.link = w.hops.map Hop.link ++ [w.current.child c] := by simp [Place.cross]
    have hnext := hcomes.link hl
    rw [← hlinks] at hnext
    have hlength : w.hops.length + (n + 1) = (w.cross c t).hops.length + n := by
      simp only [Place.cross, List.length_append, List.length_singleton]
      omega
    exact hlength ▸ ih hw hnext hout
  | failed => cases hout
  | unreadable => cases hout
  | exhausted _ hl => exact ⟨_, _, _, _, _, hcomes, by simp, hl⟩

/-! ### Resolution -/

lemma steps_tidy {p : Path} (hp : p.isRooted = true) : steps p.tidy = steps p := by
  rw [steps, steps, Path.components_tidy hp]

/-- A resolution without a pending component that leads to something has missed nothing. -/
lemma missing_eq_none {v : Place} (hclean : Path.Clean v.current) (hv : v.Faithful f)
    (hpending : v.resolution.pending = none)
    (hthere : v.current = .root ∨ ∃ kind, f.entryKind v.current = .ok kind) : v.missing = none := by
  cases hm : v.missing with
  | none => rfl
  | some e =>
    obtain ⟨hdir, hname, hlook⟩ := hv.missing e hm
    rcases pending_or_leaf hm with hsome | ⟨-, d, hleaf, hd⟩
    · rw [hpending] at hsome
      cases hsome
    · obtain ⟨hclean', -, hcurrent⟩ := hclean.of_entry hleaf
      obtain rfl : d = e.dir := hclean'.eq hdir hd
      obtain ⟨err, herr, -⟩ := entryKind_of_missing hlook
      rcases hthere with hroot | ⟨kind, hkind⟩
      · have hentry := hdir.entry?_child hname
        rw [← hcurrent, hroot] at hentry
        cases hentry
      · rw [hcurrent, herr] at hkind
        cases hkind

lemma exists_of_solid {d : Path} (h : Solid f d) : d = .root ∨ ∃ kind, f.entryKind d = .ok kind := by
  rcases h.root_or_child with rfl | ⟨-, -, -, -, -, hlook⟩
  · exact Or.inl rfl
  · obtain ⟨kind, hkind, -⟩ := entryKind_of_plain hlook
    exact Or.inr ⟨kind, hkind⟩

/-- A resolution that has missed nothing reads the path. -/
lemma lookup_of_resolve {p : Path} (hp : p.isRooted = true) {a : Resolution} (h : f.resolve p = .ok a)
    (hpending : a.pending = none) (hthere : a.resolved = .root ∨ ∃ kind, f.entryKind a.resolved = .ok kind) :
    Lookup f p.components a.resolved (a.hops.map Hop.link) ∧ a.hops.length ≤ maxHops := by
  obtain ⟨v, hrun, rfl⟩ := run_of_resolve hp h
  obtain ⟨hclean, hfaithful⟩ := hrun.faithful (footing_start (Path.isRooted_tidy hp)) Place.faithful_start
  have hmissing := missing_eq_none hclean hfaithful hpending hthere
  have hlength := hrun.length_hops
  rw [steps_tidy hp] at hrun
  obtain ⟨ls, hlinks, hon⟩ := hrun.lookup hmissing
  obtain ⟨left, hleft, hroot⟩ := steps_of_isRooted hp
  have hread : Reads f (steps p) .start [] [] :=
    .afresh hleft hroot fun c hc => isName_of_mem_steps (p := p) (by rw [hleft]; exact List.mem_cons_of_mem _ hc)
  have hlookup := hon hread
  rw [map_component_steps, said_of_isRooted hp, List.nil_append, List.nil_append] at hlookup
  have hls : v.resolution.hops.map Hop.link = ls := hlinks
  have hle : v.hops.length ≤ maxHops := by simpa [Place.start] using hlength
  exact ⟨hls ▸ hlookup, hle⟩

/-- A reading is a walk to where it leads, if enough links may be crossed. -/
lemma exists_run_of_lookup {p : Path} {r ls} (h : Lookup f p.components r ls) :
    ∃ hops, hops.map Hop.link = ls ∧
      ∀ n, ls.length ≤ n → ∃ seen, Run f asked n (steps p) .start seen (.ok ⟨r, hops, none⟩) := by
  have hnames : ∀ c, .name c ∈ p.components → Path.IsName c := fun c hc => Path.isName_of_mem_components hc
  obtain ⟨hops, hlinks, hon⟩ := h.run (w := .start) hnames rfl
  refine ⟨hops, hlinks, fun n hn => ?_⟩
  have hdone : Run f asked (n - ls.length) [] ⟨r, hops, none⟩ [] (.ok ⟨r, hops, none⟩) := .done
  obtain ⟨seen, hrun⟩ := hon hdone
  rw [Nat.sub_add_cancel hn, List.append_nil] at hrun
  exact ⟨seen, hrun⟩

lemma resolve_of_lookup {p : Path} (hp : p.isRooted = true) {r ls} (h : Lookup f p.components r ls)
    (hls : ls.length ≤ maxHops) :
    ∃ a : Resolution, f.resolve p = .ok a ∧ a.pending = none ∧ a.resolved = r ∧ a.hops.map Hop.link = ls := by
  obtain ⟨hops, hlinks, hruns⟩ := exists_run_of_lookup h
  obtain ⟨seen, hrun⟩ := hruns maxHops hls
  exact ⟨_, resolve_of_run hp (steps_tidy hp ▸ hrun), rfl, rfl, hlinks⟩

/-- A path that is read over more links than are followed is a loop. -/
lemma loop_of_lookup {p : Path} (hp : p.isRooted = true) {r ls} (h : Lookup f p.components r ls)
    (hls : maxHops < ls.length) : f.resolve p = .error (.linkLoop p.tidy) := by
  obtain ⟨hops, rfl, hruns⟩ := exists_run_of_lookup h
  obtain ⟨seen, hrun⟩ : ∃ seen, Run f p.tidy _ (steps p) .start seen (.ok ⟨r, hops, none⟩) := hruns _ le_rfl
  have htally : hops.length = 0 + found f seen := hrun.tally
  rw [List.length_map, htally, Nat.zero_add] at hls
  obtain ⟨seen', hloop⟩ := hrun.short [] p.tidy hls
  exact resolve_of_run hp (steps_tidy hp ▸ hloop)

/-- The walk of a path ends in a loop exactly if it meets one link more than are followed. -/
lemma loop_iff_meets {p : Path} (hp : p.isRooted = true) :
    f.resolve p = .error (.linkLoop p.tidy) ↔ Meets f p maxHops := by
  constructor
  · intro h
    obtain ⟨out, hrun, hres⟩ := exists_run_resolve f hp
    rw [steps_tidy hp] at hrun
    rw [h] at hres
    cases out with
    | ok v => cases hres
    | error err =>
      obtain rfl := Except.error.inj hres
      have hmeets := hrun.meets rfl .start
      simpa [Place.start] using hmeets
  · rintro ⟨c, left, d, ls, t, hcomes, hlength, hl⟩
    obtain ⟨hops, hlinks, hon⟩ := hcomes.run
    have hexhausted : Run f p.tidy 0 (.name c :: left) ⟨d, hops, none⟩ [d.child c] (.error (.linkLoop p.tidy)) :=
      .exhausted rfl hl
    obtain ⟨seen, hloop⟩ := hon hexhausted
    rw [Nat.zero_add, hlength] at hloop
    exact resolve_of_run hp (steps_tidy hp ▸ hloop)

/-- **Resolution agrees with the recursive reading.** A path resolves with nothing missing exactly as it is read over
at most 40 links. If the walk meets one more, before any missing component and any that cannot be read,
the answer is a loop, and so it is for every path that is read over more links. -/
theorem resolve_agrees_lookup (f : Snapshot) {p : Path} (hp : p.isRooted = true) :
    (∀ r ls, (∃ a : Resolution, f.resolve p = .ok a ∧ a.pending = none ∧
        (a.resolved = .root ∨ ∃ kind, f.entryKind a.resolved = .ok kind) ∧
        a.resolved = r ∧ a.hops.map Hop.link = ls) ↔ Lookup f p.components r ls ∧ ls.length ≤ 40) ∧
    ∃ asked, (absolutize (f.filesystem : Filesystem Unit) p ()).1 = .ok asked ∧
      (f.resolve p = .error (.linkLoop asked) ↔ Meets f p 40) ∧
      ∀ r ls, Lookup f p.components r ls → 40 < ls.length → f.resolve p = .error (.linkLoop asked) := by
  refine ⟨fun r ls => ⟨?_, ?_⟩, p.tidy, ?_, loop_iff_meets hp, fun r ls h hls => loop_of_lookup hp h hls⟩
  · rintro ⟨a, hres, hpending, hthere, rfl, rfl⟩
    have hlookup := lookup_of_resolve hp hres hpending hthere
    rw [List.length_map]
    exact hlookup
  · rintro ⟨h, hls⟩
    obtain ⟨a, hres, hpending, rfl, hlinks⟩ := resolve_of_lookup hp h hls
    exact ⟨a, hres, hpending, exists_of_solid (h.solid fun c hc => Path.isName_of_mem_components hc), rfl, hlinks⟩
  · unfold absolutize
    rw [if_pos hp]

/-- A tree with the file `/b/f`, a link `/a/l` to `../b`, and a link `/o` to itself. -/
def detour : Snapshot where
  entryKind q :=
    if q.components = [.root, .name [0x61]] ∨ q.components = [.root, .name [0x62]] then .ok .dir
    else if q.components = [.root, .name [0x62], .name [0x66]] then .ok .file
    else if q.components = [.root, .name [0x61], .name [0x6c]] ∨ q.components = [.root, .name [0x6f]] then .ok .symlink
    else .error (.os .noEntry)
  readLink q := if q.components = [.root, .name [0x6f]] then .ok ⟨[0x6f]⟩ else .ok ⟨[0x2e, 0x2e, 0x2f, 0x62]⟩
  currentDir := .ok .root

/-- `/a/l/./f` is read as `/b/f`, and `/o` is a loop. -/
theorem resolve_agrees_lookup_detour :
    Lookup detour [.root, .name [0x61], .name [0x6c], .name [0x66]] ⟨[0x2f, 0x62, 0x2f, 0x66]⟩
      [⟨[0x2f, 0x61, 0x2f, 0x6c]⟩] ∧
    Meets detour ⟨[0x2f, 0x6f]⟩ 40 := by
  have hread := (resolve_agrees_lookup detour (p := ⟨[0x2f, 0x61, 0x2f, 0x6c, 0x2f, 0x2e, 0x2f, 0x66]⟩) rfl).1
    ⟨[0x2f, 0x62, 0x2f, 0x66]⟩ [⟨[0x2f, 0x61, 0x2f, 0x6c]⟩]
  obtain ⟨asked, hasked, hloop, -⟩ := (resolve_agrees_lookup detour (p := ⟨[0x2f, 0x6f]⟩) rfl).2
  obtain rfl : ⟨[0x2f, 0x6f]⟩ = asked := Except.ok.inj hasked
  exact ⟨(hread.mp ⟨_, rfl, rfl, Or.inr ⟨.file, rfl⟩, rfl, rfl⟩).1, hloop.mp rfl⟩

end LinkWatch.Resolution
