import LinkWatch.Proofs.Path.Tidy
import LinkWatch.Proofs.Walk.Stages

/-!
Retracing a walk. The walk of a tree whose links are retargeted meanwhile can be retraced: wherever the entries are the
same and the links that were read point where they pointed then, a walk from the start comes by the same stage
(`Stage.Traced`), but for the spelling of the targets, which does not matter to a walk (`Stage.Alike.ask`).

So what such a walk finds in the end is the resolution in each of these trees, though perhaps in none that there ever
was (`Resolution.Retraced`). In a tree with the same entries it is out of date exactly if one of its links points
elsewhere (`Retraced.resolves_iff`).
-/

namespace LinkWatch

variable {f g : Snapshot} {x y : Hop}

/-! ### Links -/

/-- The link points where it was read to point. -/
def Hop.stands (f : Snapshot) (h : Hop) : Bool :=
  match f.readLink h.link with
  | .ok target => target.same h.target
  | .error _ => false

/-- The link is an entry of a clean directory. -/
structure Hop.Sound (h : Hop) : Prop where
  dir : Path.Clean h.dir
  name : Path.IsName h.name
  link : h.link = h.dir.child h.name

lemma Hop.stands_iff {h : Hop} : h.stands f = true ↔
    (f.readLink h.link).map Path.components = .ok h.target.components := by
  unfold Hop.stands
  cases f.readLink h.link <;> simp [Except.map, Path.same_iff]

lemma Hop.stands_of_read {h : Hop} (hread : f.readLink h.link = .ok h.target) : h.stands f = true := by
  rw [stands_iff, hread]
  rfl

lemma Hop.Sound.entry?_link (h : x.Sound) : x.link.entry? = some x.entry := by
  rw [h.link]
  exact h.dir.entry?_child h.name

lemma Hop.same_refl (h : Hop) : h.same h = true := Resolution.hop_same_iff.mpr rfl

lemma Hop.same_symm (h : x.same y = true) : y.same x = true :=
  Resolution.hop_same_iff.mpr (Resolution.hop_same_iff.mp h).symm

lemma Hop.entry_same (h : x.same y = true) : x.entry.same y.entry = true := by
  simp only [Hop.same, Bool.and_eq_true] at h
  simp [Entry.same, Hop.entry, h]

/-- Two hops over one link with one target stand together. -/
lemma Hop.Sound.stands_congr (hx : x.Sound) (hy : y.Sound) (h : x.same y = true) : x.stands f = y.stands f := by
  simp only [Hop.same, Bool.and_eq_true, beq_iff_eq, Path.same_iff] at h
  obtain ⟨⟨⟨-, hdir⟩, hname⟩, htarget⟩ := h
  have hlink : x.link = y.link := by rw [hx.link, hy.link, hx.dir.eq hy.dir hdir, hname]
  rw [Bool.eq_iff_iff, stands_iff, stands_iff, hlink, htarget]

namespace Resolution

variable {asked p : Path} {r : Resolution}

/-! ### Spellings of targets -/

/-- Two places that differ only in how the targets of links are spelled. -/
structure Place.Alike (a b : Place) : Prop where
  current : a.current = b.current
  hops : a.hops.map hopView = b.hops.map hopView
  missing : a.missing = b.missing

lemma Place.Alike.exists_hops {a b : Place} (h : a.Alike b) :
    ∃ hops, b = { a with hops } ∧ a.hops.map hopView = hops.map hopView := by
  obtain ⟨hcurrent, hhops, hmissing⟩ := h
  refine ⟨b.hops, ?_, hhops⟩
  rw [hcurrent, hmissing]

lemma Place.Alike.same {a b : Place} (h : a.Alike b) : a.resolution.same b.resolution = true := by
  obtain ⟨hcurrent, hhops, hmissing⟩ := h
  rw [same_iff, view, view, Place.resolution, Place.resolution]
  dsimp only
  rw [hcurrent, hhops, hmissing]

lemma steps_congr {t t' : Path} (h : t.components = t'.components) : steps t = steps t' := by rw [steps, steps, h]

namespace Stage

variable {st st' st'' : Stage}

inductive Alike : Stage → Stage → Prop
  | going {n left a b} : a.Alike b → Alike (.going n left a) (.going n left b)
  | reading {n c left a b} : a.Alike b → Alike (.reading n c left a) (.reading n c left b)
  | ended {a b} : a.Alike b → Alike (.ended (.ok a)) (.ended (.ok b))
  | failed {err} : Alike (.ended (.error err)) (.ended (.error err))

lemma Alike.refl (st : Stage) : Alike st st := by
  rcases st with _ | _ | _ | _
  · exact .going ⟨rfl, rfl, rfl⟩
  · exact .reading ⟨rfl, rfl, rfl⟩
  · exact .failed
  · exact .ended ⟨rfl, rfl, rfl⟩

lemma Alike.trans (h : Alike st st') (h' : Alike st' st'') : Alike st st'' := by
  have htrans : ∀ {a b c : Place}, a.Alike b → b.Alike c → a.Alike c := fun hab hbc =>
    ⟨hab.current.trans hbc.current, hab.hops.trans hbc.hops, hab.missing.trans hbc.missing⟩
  cases h with
  | going h =>
    cases h' with
    | going h' => exact .going (htrans h h')
  | reading h =>
    cases h' with
    | reading h' => exact .reading (htrans h h')
  | ended h =>
    cases h' with
    | ended h' => exact .ended (htrans h h')
  | failed => exact h'

/-- In trees with the same entries, a step comes to the same, up to spelling, if the link that it reads points to the
same. -/
lemma Alike.ask (h : Alike st st') (hkind : g.entryKind = f.entryKind)
    (hread : ∀ n c left w, st = .reading (n + 1) c left w →
      (f.readLink (w.current.child c)).map Path.components = (g.readLink (w.current.child c)).map Path.components) :
    Alike (st.ask f asked) (st'.ask g asked) := by
  cases h with
  | @going n left a b halike =>
    obtain ⟨hops, rfl, hhops⟩ := halike.exists_hops
    rcases left with _ | ⟨_ | _ | c, left⟩
    · exact .ended ⟨rfl, hhops, rfl⟩
    · exact .going ⟨rfl, hhops, rfl⟩
    · exact .going ⟨rfl, hhops, rfl⟩
    · simp only [Stage.ask, next, Snapshot.filesystem, hkind]
      split
      · exact .going ⟨rfl, hhops, rfl⟩
      · cases f.entryKind (a.current.child c) with
        | error e =>
          dsimp only
          split
          · exact .going ⟨rfl, hhops, rfl⟩
          · exact .failed
        | ok kind =>
          cases kind with
          | symlink => exact .reading ⟨rfl, hhops, rfl⟩
          | file => exact .going ⟨rfl, hhops, rfl⟩
          | dir => exact .going ⟨rfl, hhops, rfl⟩
  | @reading n c left a b halike =>
    cases n with
    | zero => exact .failed
    | succ n =>
      have hread := hread n c left a rfl
      obtain ⟨hops, rfl, hhops⟩ := halike.exists_hops
      simp only [Stage.ask, next, Snapshot.filesystem]
      cases hf : f.readLink (a.current.child c) with
      | error e =>
        cases hg : g.readLink (a.current.child c) with
        | error e' =>
          rw [hf, hg] at hread
          obtain rfl : e = e' := Except.error.inj hread
          exact .failed
        | ok t' =>
          rw [hf, hg] at hread
          cases hread
      | ok t =>
        cases hg : g.readLink (a.current.child c) with
        | error e' =>
          rw [hf, hg] at hread
          cases hread
        | ok t' =>
          rw [hf, hg] at hread
          have htarget : t.components = t'.components := Except.ok.inj hread
          dsimp only
          rw [steps_congr htarget]
          refine .going ⟨?_, ?_, rfl⟩
          · simp only [Place.cross, Path.isRooted_congr htarget]
          · simp only [Place.cross, List.map_append, hhops, List.map_cons, List.map_nil, hopView, htarget, Hop.entry]
  | ended h => exact .ended h
  | failed => exact .failed

/-- Walks that stand alike come to the same, up to spelling. -/
lemma Alike.outcome (h : Alike st st') (f : Snapshot) (asked : Path) :
    Alike (.ended (st.outcome f asked)) (.ended (st'.outcome f asked)) := by
  obtain ⟨k, hk⟩ := exists_iterate_ask f asked st
  generalize st.outcome f asked = out at hk ⊢
  induction k generalizing st st' with
  | zero =>
    obtain rfl : st = .ended out := hk
    cases h with
    | ended h => exact .ended h
    | failed => exact .failed
  | succ k ih =>
    rw [← outcome_ask f asked st']
    exact ih (h.ask rfl fun _ _ _ _ _ => rfl) hk

/-! ### Retracing -/

/-- The walk stands where it can go on. -/
def Stands : Stage → Prop
  | .going _ left w => Footing left w
  | .reading _ c left w => Footing (.name c :: left) w
  | .ended _ => True

/-- The second tree has the entries of the first, and these links point where they were read to point. -/
structure Upholds (f g : Snapshot) (hops : List Hop) : Prop where
  entryKind : g.entryKind = f.entryKind
  stands : ∀ h ∈ hops, h.stands g = true

/-- The stage of a walk of `p` through trees with the entries of `f`. -/
structure Traced (f : Snapshot) (p : Path) (st : Stage) : Prop where
  stands : st.Stands
  sound : ∀ h ∈ st.hops, h.Sound
  /-- Where the links point as they were read, the walk comes by here. -/
  retraced : st.failed = false → ∀ g, Upholds f g st.hops →
    Alike (.ended ((start p).outcome g p.tidy)) (.ended (st.outcome g p.tidy))

lemma traced_start (f : Snapshot) (hp : p.isRooted = true) : Traced f p (start p) where
  stands := footing_start (Path.isRooted_tidy hp)
  sound _ hh := by cases hh
  retraced _ _ _ := .refl _

lemma Stands.ask (h : st.Stands) (f : Snapshot) (asked : Path) : (st.ask f asked).Stands := by
  have hasked := asked_ask f asked st
  generalize st.ask f asked = st' at hasked
  cases hasked with
  | done => trivial
  | root => exact Footing.root h
  | up => exact Footing.up h
  | enter => exact Footing.enter h
  | lose => exact Footing.lose h
  | find => exact h
  | cross => exact Footing.cross h _
  | fail => trivial
  | stay => trivial

/-- What is read next is an entry of a clean directory as well. -/
lemma sound_ask (hstands : st.Stands) (h : ∀ x ∈ st.hops, x.Sound) : ∀ x ∈ (st.ask f asked).hops, x.Sound := by
  have hasked := asked_ask f asked st
  generalize st.ask f asked = st' at hasked
  cases hasked with
  | cross =>
    intro x hx
    rcases List.mem_append.mp hx with hx | hx
    · exact h x hx
    · obtain rfl := List.mem_singleton.mp hx
      exact ⟨Footing.clean hstands, Footing.isName hstands, rfl⟩
  | fail => exact List.forall_mem_nil _
  | done | root | up | enter | lose | find | stay => exact h

theorem Traced.ask (h : Traced f p st) : Traced f p (st.ask f p.tidy) := by
  refine ⟨h.stands.ask f p.tidy, sound_ask h.stands h.sound, fun hno g hg => ?_⟩
  have hearlier : Upholds f g st.hops := ⟨hg.entryKind, fun x hx => hg.stands x (hops_subset_ask hno hx)⟩
  -- the same step is taken in the other tree: a link that is read now is a hop from now on
  have halike : Alike (st.ask g p.tidy) (st.ask f p.tidy) := by
    refine (Alike.refl st).ask hg.entryKind.symm fun n c left w hst => ?_
    subst hst
    have hasked := asked_ask f p.tidy (.reading (n + 1) c left w)
    have hstands := hg.stands
    generalize Stage.ask f p.tidy (.reading (n + 1) c left w) = st' at hasked hno hstands
    cases hasked with
    | cross hr =>
      rw [Hop.stands_iff.mp (hstands _ (List.mem_append_right _ (List.mem_singleton.mpr rfl))), hr]
      rfl
    | fail => cases hno
  have hretraced := h.retraced (failed_of_ask hno) g hearlier
  rw [← outcome_ask g p.tidy st] at hretraced
  exact hretraced.trans (halike.outcome g p.tidy)

/-- Only what the entries are matters, not where links point now. -/
lemma Traced.congr (h : Traced f p st) (hkind : g.entryKind = f.entryKind) : Traced g p st where
  stands := h.stands
  sound := h.sound
  retraced hno g' hg := h.retraced hno g' ⟨hg.entryKind.trans hkind, hg.stands⟩

end Stage

open Stage (Upholds Traced)

/-- The path resolves to this in every tree with the entries of `f` in which these links point as they were read. -/
structure Retraced (f : Snapshot) (p : Path) (r : Resolution) : Prop where
  sound : ∀ h ∈ r.hops, h.Sound
  resolves : ∀ g, Upholds f g r.hops → ∃ r', g.resolve p = .ok r' ∧ r.same r' = true

/-- **Retracing.** What a walk found in a tree that changed meanwhile is the resolution in every tree with the same
entries in which the links that it crossed point where it read them to point. -/
theorem Stage.Traced.resolution {w : Place} (h : Traced f p (.ended (.ok w))) (hp : p.isRooted = true) :
    Retraced f p w.resolution where
  sound := h.sound
  resolves g hg := by
    have hretraced := h.retraced rfl g hg
    rw [Stage.resolve_eq_outcome g hp]
    generalize (Stage.start p).outcome g p.tidy = out at hretraced ⊢
    cases hretraced with
    | @ended w' _ halike =>
      exact ⟨w'.resolution, rfl, same_symm halike.same⟩

lemma Retraced.congr (h : Retraced f p r) (hkind : g.entryKind = f.entryKind) : Retraced g p r where
  sound := h.sound
  resolves g' hg := h.resolves g' ⟨hg.entryKind.trans hkind, hg.stands⟩

/-- The links of a resolution point where it says. -/
lemma stands_of_resolve (hp : p.isRooted = true) (h : f.resolve p = .ok r) :
    ∀ x ∈ r.hops, x.Sound ∧ x.stands f = true := by
  obtain ⟨v, hrun, rfl⟩ := run_of_resolve hp h
  obtain ⟨-, hfaithful⟩ := hrun.faithful (footing_start (Path.isRooted_tidy hp)) Place.faithful_start
  intro x hx
  obtain ⟨hdir, hname, hlink, hlook⟩ := hfaithful.hop x hx
  exact ⟨⟨hdir, hname, hlink⟩, Hop.stands_of_read (entryKind_of_link hlook).2⟩

/-- A resolution that was retraced is up to date exactly if its links point where they were read to point. -/
theorem Retraced.resolves_iff (h : Retraced f p r) (hp : p.isRooted = true) :
    (∃ r', f.resolve p = .ok r' ∧ r.same r' = true) ↔ ∀ x ∈ r.hops, x.stands f = true := by
  refine ⟨?_, fun hstands => h.resolves f ⟨rfl, hstands⟩⟩
  rintro ⟨r', hr', hsame⟩ x hx
  obtain ⟨y, hy, hxy⟩ := exists_hop_of_same hsame hx
  obtain ⟨hsound, hstands⟩ := stands_of_resolve hp hr' y hy
  rw [(h.sound x hx).stands_congr hsound hxy]
  exact hstands

end Resolution

end LinkWatch
