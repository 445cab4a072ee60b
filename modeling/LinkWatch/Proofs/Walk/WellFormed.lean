import LinkWatch.Proofs.Walk.Interests
import LinkWatch.Proofs.Walk.Lookup

/-!
What a resolution says of the tree. As long as nothing is missing, a walk stands at a place without links on the way
to it (`Firm`); so do the directories of the links that it crosses, and the directory of the first missing component.
With what the walk has recorded this gives the form of every resolution (`resolve_wellFormed`): its links and its missing
component are where it says, and it observes the missing component, pending or as the resolved file itself.
-/

namespace LinkWatch

/-- Relative paths start from a rooted directory, if there is one to start from. -/
def Snapshot.Grounded (f : Snapshot) : Prop := ∀ dir, f.currentDir = .ok dir → dir.isRooted = true

/-! ### Places on the way -/

namespace Path

/-- Rooted, with no lone dot and no step upwards. -/
structure Direct (p : Path) : Prop where
  rooted : p.isRooted = true
  here : .here ∉ p.components
  up : .up ∉ p.components

/-- A place on the way from the root down to `p`, the root left out and `p` included. -/
structure OnWay (q p : Path) : Prop where
  clean : Clean q
  ne_root : q ≠ root
  below : q.components <+: p.components

variable {p q : Path} {n : FileName}

lemma Clean.direct (hp : Clean p) : Direct p := by
  obtain ⟨ns, hns, rfl⟩ := hp
  refine ⟨isRooted_of_lead (lead_ofNames ns), ?_, ?_⟩ <;> simp [components_ofNames hns]

lemma entry?_eq_some {e : Entry} : p.entry? = some e ↔ p.parent = some e.dir ∧ p.fileName = some e.name := by
  obtain ⟨dir, name⟩ := e
  unfold entry?
  cases p.parent <;> cases p.fileName <;> simp

/-- Every clean path is built from the root, name by name. -/
theorem Clean.induction {motive : Path → Prop} (hroot : motive root)
    (hchild : ∀ d n, Clean d → IsName n → motive d → motive (d.child n)) (hp : Clean p) : motive p := by
  obtain ⟨ns, hns, rfl⟩ := hp
  induction ns using List.reverseRecOn with
  | nil => exact hroot
  | append_singleton ns n ih =>
    have hns' : ∀ m ∈ ns, IsName m := fun m hm => hns m (by simp [hm])
    rw [← child_ofNames hns]
    exact hchild _ n ⟨ns, hns', rfl⟩ (hns n (by simp)) (ih hns')

lemma not_onWay_root : ¬ OnWay q root := by
  intro h
  obtain ⟨cs, hcs, -⟩ := components_of_isRooted h.clean.isRooted
  have hroot : root.components = [.root] := rfl
  have hbelow := h.below
  rw [hcs, hroot, List.cons_prefix_cons] at hbelow
  refine h.ne_root (h.clean.eq clean_root ?_)
  rw [hcs, hroot, List.prefix_nil.mp hbelow.2]

lemma child_ne_root (hp : Clean p) (hn : IsName n) : p.child n ≠ root := by
  intro h
  have hentry := hp.entry?_child hn
  rw [h] at hentry
  cases hentry

lemma onWay_child (hp : Clean p) (hn : IsName n) : OnWay q (p.child n) ↔ q = p.child n ∨ OnWay q p := by
  have hcomponents := components_child hp.isRooted hn
  constructor
  · intro h
    have hbelow := h.below
    rw [hcomponents, List.prefix_concat_iff] at hbelow
    rcases hbelow with hsame | hbelow
    · exact Or.inl (h.clean.eq (hp.child hn) (hsame.trans hcomponents.symm))
    · exact Or.inr ⟨h.clean, h.ne_root, hbelow⟩
  · rintro (rfl | h)
    · exact ⟨hp.child hn, child_ne_root hp hn, List.prefix_refl _⟩
    · exact ⟨h.clean, h.ne_root, h.below.trans (by rw [hcomponents]; exact List.prefix_append ..)⟩

end Path

namespace Resolution

variable {f : Snapshot} {asked : Path}

/-- Everything on the way to a place without links is there and is no link. -/
theorem Solid.look_eq_plain {d q : Path} (h : Solid f d) (hq : Path.OnWay q d) : f.look q = .plain := by
  refine Path.Clean.induction (motive := fun d => Solid f d → Path.OnWay q d → f.look q = .plain) ?_ ?_ h.clean h hq
  · exact fun _ hq => absurd hq Path.not_onWay_root
  · intro d n hd hn ih h hq
    rcases (Path.onWay_child hd hn).mp hq with rfl | hq
    · obtain ⟨-, -, -, -, -, hlook⟩ := h.root_or_child.resolve_left (Path.child_ne_root hd hn)
      exact hlook
    · exact ih (hd.pop_child hn ▸ h.pop) hq

/-! ### Relative paths -/

lemma resolve_congr {σ : Type} {fs : Filesystem σ} {p q : Path} {s : σ} (h : absolutize fs p s = absolutize fs q s) :
    LinkWatch.resolve fs p s = LinkWatch.resolve fs q s := by
  unfold LinkWatch.resolve
  rw [h]

lemma absolutize_join {σ : Type} (fs : Filesystem σ) {p dir : Path} {s : σ} (hp : ¬ p.isRooted = true)
    (hdir : fs.currentDir s = (.ok dir, s)) (hrooted : dir.isRooted = true) :
    absolutize fs (dir.join p) s = absolutize fs p s := by
  unfold absolutize
  rw [if_pos (Path.isRooted_join hrooted p), if_neg hp, hdir]

/-- A path that resolves does so as a rooted one. -/
lemma exists_rooted (hf : f.Grounded) {p : Path} {r : Resolution} (h : f.resolve p = .ok r) :
    ∃ p' : Path, p'.isRooted = true ∧ f.resolve p' = .ok r ∧ f.inspected p' = f.inspected p := by
  by_cases hp : p.isRooted = true
  · exact ⟨p, hp, h, rfl⟩
  · cases hd : f.currentDir with
    | error e =>
      have habs : absolutize (f.filesystem : Filesystem Unit) p () = (.error (.io e), ()) := by
        rw [absolutize, if_neg hp]
        dsimp only [Snapshot.filesystem]
        rw [hd]
      rw [Snapshot.resolve, LinkWatch.resolve, habs] at h
      cases h
    | ok dir =>
      have hrooted := hf dir hd
      refine ⟨dir.join p, Path.isRooted_join hrooted p, ?_, ?_⟩
      · rw [← h]
        exact congrArg Prod.fst (resolve_congr (absolutize_join f.filesystem hp (Prod.ext hd rfl) hrooted))
      · exact congrArg Prod.snd (resolve_congr (absolutize_join f.recording hp (Prod.ext hd rfl) hrooted))

/-! ### Where a walk stands -/

/-- A walk with these steps left stands at a place without links on the way, if nothing was missing so far, and so do the
links and the missing component that it has recorded. -/
structure Firm (f : Snapshot) (left : List Step) (w : Place) : Prop where
  footing : Footing left w
  stands : w.missing = none → Solid f w.current ∨ left.head? = some .root
  hop : ∀ h ∈ w.hops, Solid f h.dir
  missing : ∀ e ∈ w.missing, Solid f e.dir

lemma firm_start {p : Path} (hp : p.isRooted = true) : Firm f (steps p) .start where
  footing := footing_start hp
  stands _ := Or.inr (head?_steps hp)
  hop := List.forall_mem_nil _
  missing e he := by cases he

section Firm

variable {left : List Step} {w : Place} {c : FileName}

lemma Firm.solid (h : Firm f (.name c :: left) w) (hm : w.missing = none) : Solid f w.current :=
  (h.stands hm).resolve_right (by simp)

lemma Firm.root (h : Firm f (.root :: left) w) : Firm f left { w with current := w.current.join .root } where
  footing := h.footing.root
  stands _ := Or.inl (by rw [Path.join_root]; exact solid_root)
  hop := h.hop
  missing := h.missing

lemma Firm.up (h : Firm f (.up :: left) w) : Firm f left { w with current := w.current.pop } where
  footing := h.footing.up
  stands hm := Or.inl ((h.stands hm).resolve_right (by simp)).pop
  hop := h.hop
  missing := h.missing

lemma Firm.beyond (h : Firm f (.name c :: left) w) (hm : w.missing.isSome = true) : Firm f left (w.enter c) where
  footing := h.footing.enter
  stands hnone := by
    rw [show w.missing = none from hnone] at hm
    cases hm
  hop := h.hop
  missing := h.missing

lemma Firm.enter (h : Firm f (.name c :: left) w) (hm : w.missing = none)
    (hl : f.look (w.current.child c) = .plain) : Firm f left (w.enter c) where
  footing := h.footing.enter
  stands _ := Or.inl ((h.solid hm).child h.footing.isName hl)
  hop := h.hop
  missing := h.missing

lemma Firm.lose (h : Firm f (.name c :: left) w) (hm : w.missing = none) : Firm f left (w.lose c) where
  footing := h.footing.lose
  stands hnone := by cases hnone
  hop := h.hop
  missing e he := by
    obtain rfl := Option.some.inj he
    exact h.solid hm

lemma Firm.cross (h : Firm f (.name c :: left) w) (hm : w.missing = none) (t : Path) :
    Firm f (steps t ++ left) (w.cross c t) where
  footing := h.footing.cross t
  stands _ := by
    by_cases ht : t.isRooted = true
    · right
      rw [List.head?_append, head?_steps ht]
      rfl
    · left
      rw [Place.cross, if_neg ht]
      exact h.solid hm
  hop x hx := by
    rcases List.mem_append.mp hx with hx | hx
    · exact h.hop x hx
    · obtain rfl := List.mem_singleton.mp hx
      exact h.solid hm
  missing := h.missing

end Firm

/-- A walk keeps its footing up to its end. -/
theorem Run.firm {n left w seen v} (h : Run f asked n left w seen (.ok v)) (hw : Firm f left w) : Firm f [] v := by
  generalize hout : (Except.ok v : Except WatchError Place) = out at h
  induction h with
  | done =>
    cases hout
    exact hw
  | root _ ih => exact ih hw.root hout
  | up _ ih => exact ih hw.up hout
  | beyond hm _ ih => exact ih (hw.beyond hm) hout
  | plain hm hl _ ih => exact ih (hw.enter hm hl) hout
  | missing hm _ _ ih => exact ih (hw.lose hm) hout
  | crossed hm _ _ ih => exact ih (hw.cross hm _) hout
  | failed => cases hout
  | unreadable => cases hout
  | exhausted => cases hout

/-! ### The missing component -/

/-- The missing component was inspected. -/
lemma Run.mem_seen_of_missing {n left w seen v} (h : Run f asked n left w seen (.ok v)) (hw : w.missing = none)
    {e : Entry} (he : v.missing = some e) : e.dir.child e.name ∈ seen := by
  generalize hout : (Except.ok v : Except WatchError Place) = out at h
  induction h with
  | done =>
    cases hout
    rw [hw] at he
    cases he
  | root _ ih => exact ih hw hout
  | up _ ih => exact ih hw hout
  | beyond hm => simp [hw] at hm
  | plain hm _ _ ih => exact List.mem_cons_of_mem _ (ih hm hout)
  | missing _ _ hrun =>
    have hfirst := (hout ▸ hrun).missing_eq rfl
    rw [he] at hfirst
    obtain rfl := Option.some.inj hfirst
    exact List.mem_cons_self ..
  | crossed hm _ _ ih => exact List.mem_cons_of_mem _ (ih hm hout)
  | failed => cases hout
  | unreadable => cases hout
  | exhausted => cases hout

/-- The missing component is pending unless it is where the walk ends. -/
lemma pending_eq {v : Place} {e : Entry} (hv : Path.Clean v.current) (hdir : Path.Clean e.dir)
    (hname : Path.IsName e.name) (hm : v.missing = some e) :
    v.resolution.pending = if e.dir.child e.name = v.current then none else some e := by
  by_cases hsame : e.dir.child e.name = v.current
  · rw [if_pos hsame]
    obtain ⟨hparent, hfile⟩ := Path.entry?_eq_some.mp (hsame ▸ hdir.entry?_child hname)
    simp [Place.resolution, hm, hparent, hfile, Path.same]
  · rw [if_neg hsame]
    rcases pending_or_leaf hm with hsome | ⟨-, d, hleaf, hd⟩
    · exact hsome
    · obtain ⟨hclean, -, hcurrent⟩ := hv.of_entry hleaf
      obtain rfl : d = e.dir := hclean.eq hdir hd
      exact absurd hcurrent.symm hsame

/-- The walk of a rooted path comes to its end at `v`. -/
structure Arrives (f : Snapshot) (p : Path) (v : Place) : Prop where
  run : Run f p.tidy maxHops (steps p.tidy) .start (f.inspected p) (.ok v)
  clean : Path.Clean v.current
  faithful : v.Faithful f
  firm : Firm f [] v

lemma exists_arrives {p : Path} {r : Resolution} (hp : p.isRooted = true) (h : f.resolve p = .ok r) :
    ∃ v, Arrives f p v ∧ r = v.resolution := by
  obtain ⟨v, hrun, hr⟩ := run_of_resolve hp h
  have hrooted := Path.isRooted_tidy hp
  obtain ⟨hclean, hfaithful⟩ := hrun.faithful (footing_start hrooted) Place.faithful_start
  exact ⟨v, ⟨hrun, hclean, hfaithful, hrun.firm (firm_start hrooted)⟩, hr⟩

section Arrives

variable {p q : Path} {v : Place} {e : Entry}

/-- What was inspected and is missing is the missing component that was recorded. -/
lemma Arrives.missing (h : Arrives f p v) (hp : p.isRooted = true) (hq : q ∈ f.inspected p)
    (hlook : f.look q = .missing) : ∃ e, v.missing = some e ∧ q = e.dir.child e.name := by
  have hfoot := footing_start (Path.isRooted_tidy hp)
  obtain ⟨e, hrec⟩ := h.run.recorded hfoot q hq
  obtain ⟨-, -, hchild⟩ := (h.run.clean_seen hfoot q hq).of_entry hrec.entry
  exact ⟨e, hrec.missing hlook, hchild⟩

/-- The missing component is no link, so it counts as the resolved file or as pending. -/
lemma Arrives.classify (h : Arrives f p v) (hm : v.missing = some e) :
    v.resolution.classify e.dir e.name = if e.dir.child e.name = v.current then .leaf else .pending := by
  obtain ⟨hdir, hname, hlook⟩ := h.faithful.missing e hm
  have hhop : (v.resolution.hops.any fun x => x.entry.same ⟨e.dir, e.name⟩) = false := by
    rw [List.any_eq_false]
    intro x hx hsame
    obtain ⟨hxdir, -, hlink, hxlook⟩ := h.faithful.hop x hx
    obtain ⟨hdirs, hnames⟩ := Prod.mk.inj (Entry.same_iff.mp hsame)
    rw [hlink, hxdir.eq hdir hdirs, show x.name = e.name from hnames, hlook] at hxlook
    cases hxlook
  rw [Resolution.classify, hhop, pending_eq h.clean hdir hname hm]
  by_cases hsame : e.dir.child e.name = v.current
  · have hleaf : v.resolution.leaf = some e := (congrArg Path.entry? hsame).symm.trans (hdir.entry?_child hname)
    simp [hsame, hleaf, Entry.same_iff]
  · simp [hsame, Entry.same_iff]

/-- The missing component is observed, spelled as it was inspected. -/
lemma Arrives.mem_interests (h : Arrives f p v) (hp : p.isRooted = true) (hm : v.missing = some e) :
    e ∈ v.resolution.interests := by
  obtain ⟨hdir, hname, -⟩ := h.faithful.missing e hm
  obtain ⟨e', he', hkey⟩ := Sorted.mem_keys.mp (mem_interests_of_missing hm)
  obtain ⟨hdir', -⟩ := clean_of_interest hp (resolve_of_run hp h.run) he'
  obtain ⟨hdirs, hnames⟩ := Prod.mk.inj hkey
  obtain ⟨dir, name⟩ := e'
  obtain rfl : dir = e.dir := hdir'.eq hdir hdirs
  obtain rfl : name = e.name := hnames
  exact he'

end Arrives

/-! ### Well-formed resolutions -/

/-- What a resolution of `p` says is so in the tree. -/
structure WellFormed (f : Snapshot) (p : Path) (r : Resolution) : Prop where
  resolved : r.resolved.Direct
  hops_le : r.hops.length ≤ 40
  /-- Each hop is a link with its target, in a directory that is reached without links. -/
  hop : ∀ h ∈ r.hops, h.link = h.dir.child h.name ∧ f.look h.link = .link (.ok h.target) ∧ h.dir.Direct ∧
    ∀ q, q.OnWay h.link → q ≠ h.link → f.look q = .plain
  /-- A component that was found missing is an entry of a directory that is reached without links, and it is observed. -/
  missing : ∀ q ∈ f.inspected p, f.look q = .missing → ∃ dir name, q = dir.child name ∧
    (∀ q', q'.OnWay dir → f.look q' = .plain) ∧ ⟨dir, name⟩ ∈ r.interests ∧
    r.classify dir name = if q = r.resolved then .leaf else .pending
  /-- If nothing was missing, no link is left on the way. -/
  found : (∀ q ∈ f.inspected p, f.look q ≠ .missing) → ∀ q, q.OnWay r.resolved → ∀ t, f.look q ≠ .link t

/-- **Every resolution is well formed.** -/
theorem resolve_wellFormed {f : Snapshot} (hf : f.Grounded) {p : Path} {r : Resolution} (h : f.resolve p = .ok r) :
    WellFormed f p r := by
  obtain ⟨p', hp, hsame, hseen⟩ := exists_rooted hf h
  obtain ⟨v, harr, rfl⟩ := exists_arrives hp hsame
  have hlength := harr.run.length_hops
  constructor
  · exact harr.clean.direct
  · exact hlength.trans_eq (Nat.zero_add 40)
  · intro x hx
    obtain ⟨hdir, hname, hlink, hlook⟩ := harr.faithful.hop x hx
    refine ⟨hlink, hlook, hdir.direct, fun q hq hne => ?_⟩
    rw [hlink] at hq hne
    exact (harr.firm.hop x hx).look_eq_plain (((Path.onWay_child hdir hname).mp hq).resolve_left hne)
  · intro q hq hlook
    obtain ⟨e, hm, rfl⟩ := harr.missing hp (hseen ▸ hq) hlook
    exact ⟨e.dir, e.name, rfl, fun q' hq' => (harr.firm.missing e hm).look_eq_plain hq', harr.mem_interests hp hm,
      harr.classify hm⟩
  · intro hall q hq t hlink
    have hnone : v.missing = none := by
      cases hm : v.missing with
      | none => rfl
      | some e =>
        obtain ⟨-, -, hlook⟩ := harr.faithful.missing e hm
        exact absurd hlook (hall _ (hseen ▸ harr.run.mem_seen_of_missing rfl hm))
    have hsolid := (harr.firm.stands hnone).resolve_right (by simp)
    rw [hsolid.look_eq_plain hq] at hlink
    cases hlink

/-- A tree with the directories `/a` and `/b` and a link `/a/l` to `../b/m/f`, where `m` is missing. -/
def dangling : Snapshot where
  entryKind q :=
    if q.components = [.root, .name [0x61]] ∨ q.components = [.root, .name [0x62]] then .ok .dir
    else if q.components = [.root, .name [0x61], .name [0x6c]] then .ok .symlink
    else .error (.os .noEntry)
  readLink _ := .ok ⟨[0x2e, 0x2e, 0x2f, 0x62, 0x2f, 0x6d, 0x2f, 0x66]⟩
  currentDir := .ok ⟨[0x2f, 0x61]⟩

/-- Where `l` leads from `/a`. -/
def toMissing : Resolution where
  resolved := ⟨[0x2f, 0x62, 0x2f, 0x6d, 0x2f, 0x66]⟩
  hops := [⟨⟨[0x2f, 0x61, 0x2f, 0x6c]⟩, ⟨[0x2f, 0x61]⟩, [0x6c], ⟨[0x2e, 0x2e, 0x2f, 0x62, 0x2f, 0x6d, 0x2f, 0x66]⟩⟩]
  pending := some ⟨⟨[0x2f, 0x62]⟩, [0x6d]⟩

lemma grounded_dangling : dangling.Grounded := by
  rintro dir hdir
  obtain rfl := Except.ok.inj hdir
  rfl

lemma resolve_dangling : dangling.resolve ⟨[0x6c]⟩ = .ok toMissing := rfl

/-- From `/a` the path `l` leads to `/b/m/f`, and `/b/m` is pending. -/
theorem resolve_wellFormed_dangling :
    dangling.resolve ⟨[0x6c]⟩ = .ok toMissing ∧ WellFormed dangling ⟨[0x6c]⟩ toMissing ∧
      toMissing.classify ⟨[0x2f, 0x62]⟩ [0x6d] = .pending :=
  ⟨resolve_dangling, resolve_wellFormed grounded_dangling resolve_dangling, rfl⟩

end Resolution

end LinkWatch
