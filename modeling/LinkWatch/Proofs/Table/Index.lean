import LinkWatch.Proofs.Resolution
import LinkWatch.Table.Index
import Mathlib.Data.Finset.Card

/-!
The directory index as a relation. `Index.Concerns` says which requested paths an entry concerns: noting
an interest puts one pair in, forgetting it takes one out.

The counts beside the names are right only up to a surplus: noting an interest that is already there
counts once more, and nothing ever takes that back. `Index.Sound extra` keeps the books with the surplus
`extra`; an index is *exact* if there is none, and then it holds what the relation says and no more.
-/

namespace LinkWatch

/-- A count, unless it is zero. -/
def tally (n : Nat) : Option Nat := if n = 0 then none else some n

@[simp] lemma tally_zero : tally 0 = none := rfl
@[simp] lemma tally_succ (n : Nat) : tally (n + 1) = some (n + 1) := rfl
@[simp] lemma getD_tally (n : Nat) : (tally n).getD 0 = n := by cases n <;> rfl
@[simp] lemma tally_eq_none {n : Nat} : tally n = none ↔ n = 0 := by cases n <;> simp

namespace Registration

open Sorted (keys Ordered)

/-- The requested paths that a name concerns. -/
def paths (reg : Registration) (n : FileName) : List Path := (Sorted.find? n reg.names).getD []

/-- The names that a requested path holds. -/
def namesOf (reg : Registration) (p : List Component) : Finset FileName :=
  (keys reg.names).toFinset.filter fun n => p ∈ keys (reg.paths n)

/-- A registration with one interest more. -/
def add (q : Path) (n : FileName) (reg : Registration) : Registration where
  names := Sorted.alter n (fun ps => Sorted.insert q (ps.getD [])) reg.names
  holders := Sorted.alter q (fun c => c.getD 0 + 1) reg.holders

/-- A registration with one interest less. -/
def drop (q : Path) (n : FileName) (reg : Registration) : Registration where
  names := Sorted.revise n (fun ps =>
    let ps := Sorted.erase q.components ps
    if ps.isEmpty then none else some ps) reg.names
  holders :=
    if (reg.paths n).any q.same then
      Sorted.revise q.components (fun c => if c = 1 then none else some (c - 1)) reg.holders
    else reg.holders

lemma mem_namesOf {reg : Registration} {p : List Component} {n : FileName} :
    n ∈ reg.namesOf p ↔ p ∈ keys (reg.paths n) := by
  rw [namesOf, Finset.mem_filter, List.mem_toFinset, and_iff_right_iff_imp]
  intro h
  by_contra hn
  simp [paths, Sorted.find?_eq_none.mpr hn] at h

lemma paths_add {reg : Registration} (h : Ordered reg.names) (q : Path) (n m : FileName) :
    (reg.add q n).paths m = if m = n then Sorted.insert q (reg.paths n) else reg.paths m := by
  by_cases hm : m = n
  · subst hm
    rw [if_pos rfl, paths, add, Sorted.find?_alter_self (show Keyed.key m = m from rfl) h]
    rfl
  · rw [if_neg hm, paths, add, Sorted.find?_alter_ne (show Keyed.key n ≠ m from Ne.symm hm), paths]

lemma paths_drop {reg : Registration} (h : Ordered reg.names) (q : Path) (n m : FileName) :
    (reg.drop q n).paths m = if m = n then Sorted.erase q.components (reg.paths n) else reg.paths m := by
  by_cases hm : m = n
  · subst hm
    rw [if_pos rfl, paths, drop, Sorted.find?_revise_self h, paths]
    cases Sorted.find? m reg.names with
    | none => rfl
    | some ps =>
      simp only [Option.bind_some, Option.getD_some]
      split
      · rename_i h0
        simp [List.isEmpty_iff.mp h0]
      · rfl
  · rw [if_neg hm, paths, drop, Sorted.find?_revise_ne hm, paths]

lemma mem_keys_paths_add {reg : Registration} (h : Ordered reg.names) {q : Path} {n m : FileName}
    {p : List Component} :
    p ∈ keys ((reg.add q n).paths m) ↔ (m = n ∧ p = q.components) ∨ p ∈ keys (reg.paths m) := by
  rw [paths_add h]
  by_cases hm : m = n
  · subst hm
    simp [Sorted.mem_keys_insert]
  · simp [hm]

lemma mem_keys_paths_drop {reg : Registration} (h : Ordered reg.names) {q : Path} {n m : FileName}
    {p : List Component} :
    p ∈ keys ((reg.drop q n).paths m) ↔ ¬ (m = n ∧ p = q.components) ∧ p ∈ keys (reg.paths m) := by
  rw [paths_drop h]
  by_cases hm : m = n
  · subst hm
    simp [Sorted.mem_keys_erase]
  · simp [hm]

lemma namesOf_add {reg : Registration} (h : Ordered reg.names) (q : Path) (n : FileName) (p : List Component) :
    (reg.add q n).namesOf p = if p = q.components then insert n (reg.namesOf p) else reg.namesOf p := by
  ext m
  rw [mem_namesOf, mem_keys_paths_add h]
  by_cases hp : p = q.components <;> simp [hp, mem_namesOf]

lemma namesOf_drop {reg : Registration} (h : Ordered reg.names) (q : Path) (n : FileName) (p : List Component) :
    (reg.drop q n).namesOf p = if p = q.components then (reg.namesOf p).erase n else reg.namesOf p := by
  ext m
  rw [mem_namesOf, mem_keys_paths_drop h]
  by_cases hp : p = q.components <;> simp [hp, mem_namesOf]

lemma any_same_iff {reg : Registration} {q : Path} {n : FileName} :
    (reg.paths n).any q.same = true ↔ n ∈ reg.namesOf q.components := by
  rw [mem_namesOf, Sorted.mem_keys, List.any_eq_true]
  simp only [Path.same_iff, Path.key_eq, @eq_comm _ q.components]

/-- The books of a directory: lists in order, no name without a path, and for each path as many names as it
holds and a surplus. -/
structure Sound (extra : List Component → Nat) (reg : Registration) : Prop where
  names : Ordered reg.names
  paths : ∀ n, Ordered (reg.paths n)
  paths_ne : ∀ n ∈ keys reg.names, reg.paths n ≠ []
  holders : Ordered reg.holders
  count : ∀ p, Sorted.find? p reg.holders = tally ((reg.namesOf p).card + extra p)

lemma sound_empty : Sound (fun _ => 0) {} where
  names := Sorted.ordered_nil
  paths _ := Sorted.ordered_nil
  paths_ne := by simp
  holders := Sorted.ordered_nil
  count _ := rfl

variable {extra : List Component → Nat} {reg : Registration}

/-- Without holders there is neither an interest nor a surplus. -/
lemma Sound.eq_zero_of_holders (h : Sound extra reg) (h0 : reg.holders = []) (p : List Component) :
    reg.namesOf p = ∅ ∧ extra p = 0 := by
  have := (h.count p).symm
  rw [h0, Sorted.find?_nil, tally_eq_none, Nat.add_eq_zero_iff, Finset.card_eq_zero] at this
  exact this

lemma Sound.mem_keys_holders (h : Sound extra reg) {p : List Component} :
    p ∈ keys reg.holders ↔ (∃ n, p ∈ keys (reg.paths n)) ∨ 0 < extra p := by
  rw [← Sorted.isSome_find?, h.count, ← not_iff_not, Bool.not_eq_true, Option.isSome_eq_false_iff,
    Option.isNone_iff_eq_none, tally_eq_none, Nat.add_eq_zero_iff, Finset.card_eq_zero]
  simp [Finset.eq_empty_iff_forall_notMem, mem_namesOf]

/-- An interest that is already there adds to the surplus. -/
theorem Sound.add (h : Sound extra reg) (q : Path) (n : FileName) :
    Sound (fun p => extra p + if p = q.components ∧ n ∈ reg.namesOf p then 1 else 0) (reg.add q n) where
  names := h.names.alter
  paths m := by
    rw [paths_add h.names]
    split
    · exact (h.paths n).insert
    · exact h.paths m
  paths_ne m hm h0 := by
    have hnone : ∀ p, p ∉ keys ((reg.add q n).paths m) := by simp [h0]
    rcases Sorted.mem_keys_alter.mp hm with rfl | hm
    · exact hnone q.components ((mem_keys_paths_add h.names).mpr (Or.inl ⟨rfl, rfl⟩))
    · obtain ⟨p, ps, hps⟩ := List.exists_cons_of_ne_nil (h.paths_ne m hm)
      exact hnone p.components ((mem_keys_paths_add h.names).mpr (Or.inr (by simp [hps])))
  holders := h.holders.alter
  count p := by
    rw [namesOf_add h.names]
    by_cases hp : p = q.components
    · subst hp
      rw [Registration.add, Sorted.find?_alter_self (Path.key_eq q) h.holders, h.count, getD_tally, if_pos rfl]
      by_cases hn : n ∈ reg.namesOf q.components
      · simp [hn, ← Nat.add_assoc]
      · simp only [hn, and_false, if_false, Finset.card_insert_of_notMem hn, Nat.add_zero]
        rw [← tally_succ, Nat.add_right_comm]
    · rw [if_neg hp, Registration.add, Sorted.find?_alter_ne (show Keyed.key q ≠ p from Ne.symm hp), h.count]
      simp [hp]

/-- Forgetting an interest leaves the surplus. -/
theorem Sound.drop (h : Sound extra reg) (q : Path) (n : FileName) : Sound extra (reg.drop q n) where
  names := by
    rw [Registration.drop]
    dsimp only
    exact Sorted.Ordered.revise (k := n) h.names
  paths m := by
    rw [paths_drop h.names]
    split
    · exact (h.paths n).erase _
    · exact h.paths m
  paths_ne m hm h0 := by
    obtain ⟨ps, hps⟩ := Option.isSome_iff_exists.mp (Sorted.isSome_find?.mpr hm)
    rw [Registration.paths, hps, Option.getD_some] at h0
    subst h0
    by_cases hmn : m = n
    · subst hmn
      rw [Registration.drop, Sorted.find?_revise_self h.names] at hps
      obtain ⟨ps, -, hps⟩ := Option.bind_eq_some_iff.mp hps
      by_cases hne : (Sorted.erase q.components ps).isEmpty = true
      · simp [hne] at hps
      · simp only [hne, Bool.false_eq_true, if_false, Option.some.injEq] at hps
        exact hne (by simp [hps])
    · rw [Registration.drop, Sorted.find?_revise_ne hmn] at hps
      exact h.paths_ne m (Sorted.isSome_find?.mp (by simp [hps])) (by simp [Registration.paths, hps])
  holders := by
    rw [Registration.drop]
    dsimp only
    split
    · exact Sorted.Ordered.revise (k := q.components) h.holders
    · exact h.holders
  count p := by
    rw [namesOf_drop h.names, Registration.drop]
    simp only [any_same_iff]
    by_cases hn : n ∈ reg.namesOf q.components
    · rw [if_pos hn]
      by_cases hp : p = q.components
      · subst hp
        have hcard : (reg.namesOf q.components).card ≠ 0 := Finset.card_ne_zero_of_mem hn
        obtain ⟨c, hc⟩ := Nat.exists_eq_succ_of_ne_zero hcard
        have hcount : c.succ + extra q.components = c + extra q.components + 1 := by omega
        rw [if_pos rfl, Sorted.find?_revise_self h.holders, h.count, Finset.card_erase_of_mem hn, hc, hcount,
          tally_succ, Nat.succ_sub_one]
        cases c + extra q.components <;> simp
      · rw [if_neg hp, Sorted.find?_revise_ne hp, h.count]
    · rw [if_neg hn, h.count]
      by_cases hp : p = q.components
      · subst hp
        rw [if_pos rfl, Finset.erase_eq_of_notMem hn]
      · rw [if_neg hp]

/-- A registration with one interest less; none if nobody holds the directory any more. -/
def remove (q : Path) (n : FileName) (reg : Registration) : Option Registration :=
  if (reg.paths n).any q.same ∧ (reg.drop q n).holders = [] then none else some (reg.drop q n)

lemma Sound.remove (h : Sound extra reg) (q : Path) (n : FileName) : Sound extra ((reg.remove q n).getD {}) := by
  have hd := h.drop q n
  rw [Registration.remove]
  split
  · rename_i h0
    obtain rfl : extra = fun _ => 0 := funext fun p => (hd.eq_zero_of_holders h0.2 p).2
    exact sound_empty
  · exact hd

lemma mem_keys_paths_remove (h : Sound extra reg) {q : Path} {n m : FileName} {p : List Component} :
    p ∈ keys (((reg.remove q n).getD {}).paths m) ↔
      ¬ (m = n ∧ p = q.components) ∧ p ∈ keys (reg.paths m) := by
  rw [remove]
  split
  · rename_i h0
    have hnone : m ∉ (reg.drop q n).namesOf p := by simp [((h.drop q n).eq_zero_of_holders h0.2 p).1]
    rw [mem_namesOf] at hnone
    rw [← mem_keys_paths_drop h.names, iff_false_intro hnone]
    simp [paths]
  · exact mem_keys_paths_drop h.names

lemma holders_of_remove {q : Path} {n : FileName} {r : Registration} (h : reg.holders ≠ [])
    (hr : reg.remove q n = some r) : r.holders ≠ [] := by
  rw [remove] at hr
  split at hr
  · cases hr
  · rename_i hne
    obtain rfl := Option.some.inj hr
    intro h0
    by_cases hheld : (reg.paths n).any q.same = true
    · exact hne ⟨hheld, h0⟩
    · rw [drop] at h0
      exact h (by simpa [hheld] using h0)

end Registration

namespace Index

open Sorted (keys Ordered)

/-- What is known of a directory, by its components; nothing if it is not in use. -/
def registration (x : Index) (d : List Component) : Registration := (Sorted.find? d x.directories).getD {}

/-- A requested path has an interest in an entry. -/
def Concerns (x : Index) (p : List Component) (k : EntryKey) : Prop := p ∈ keys ((x.registration k.1).paths k.2)

lemma lookup_eq (x : Index) (e : Entry) : x.lookup e = (x.registration e.dir.components).paths e.name := by
  unfold lookup find? registration Registration.paths
  cases Sorted.find? e.dir.components x.directories <;> rfl

lemma registration_of_find? {x : Index} {d : List Component} {reg : Registration}
    (h : Sorted.find? d x.directories = some reg) : x.registration d = reg := by
  rw [registration, h, Option.getD_some]

lemma refcount_eq (x : Index) (dir : Path) :
    x.refcount dir = (x.registration dir.components).holders.length := by
  unfold refcount find? registration
  cases Sorted.find? dir.components x.directories <;> rfl

/-- The books of all directories: a directory is there as long as somebody holds it. -/
structure Sound (extra : List Component → List Component → Nat) (x : Index) : Prop where
  directories : Ordered x.directories
  registration : ∀ d, (x.registration d).Sound (extra d)
  held : ∀ d ∈ keys x.directories, (x.registration d).holders ≠ []

lemma sound_empty : Sound (fun _ _ => 0) {} where
  directories := Sorted.ordered_nil
  registration _ := Registration.sound_empty
  held := by simp

variable {extra : List Component → List Component → Nat} {x : Index}

lemma Sound.mem_keys_directories (h : Sound extra x) {d : List Component} :
    d ∈ keys x.directories ↔ ∃ p, p ∈ keys (x.registration d).holders := by
  constructor
  · intro hd
    obtain ⟨e, es, he⟩ := List.exists_cons_of_ne_nil (h.held d hd)
    exact ⟨Keyed.key e, by simp [he]⟩
  · rintro ⟨p, hp⟩
    by_contra hd
    simp [Index.registration, Sorted.find?_eq_none.mpr hd] at hp

/-! ### Noting an interest -/

lemma registration_add (h : Ordered x.directories) (q : Path) (e : Entry) (d : List Component) :
    (x.add q e).registration d =
      if d = e.dir.components then (x.registration d).add q e.name else x.registration d := by
  by_cases hd : d = e.dir.components
  · subst hd
    rw [if_pos rfl, Index.registration, add, Sorted.find?_alter_self (Path.key_eq e.dir) h]
    rfl
  · rw [if_neg hd, Index.registration, add, Sorted.find?_alter_ne (show Keyed.key e.dir ≠ d from Ne.symm hd),
      Index.registration]

theorem concerns_add (h : Sound extra x) {q : Path} {e : Entry} {p : List Component} {k : EntryKey} :
    (x.add q e).Concerns p k ↔ (p = q.components ∧ k = Keyed.key e) ∨ x.Concerns p k := by
  obtain ⟨d, n⟩ := k
  simp only [Concerns, registration_add h.directories, Entry.key_eq, Prod.mk.injEq]
  by_cases hd : d = e.dir.components
  · rw [if_pos hd, Registration.mem_keys_paths_add (h.registration d).names]
    tauto
  · rw [if_neg hd]
    tauto

/-- Noting an interest that is already there adds to the surplus. -/
theorem Sound.add (h : Sound extra x) (q : Path) (e : Entry) [Decidable (x.Concerns q.components (Keyed.key e))] :
    Sound (fun d p => extra d p + if d = e.dir.components ∧ p = q.components ∧
      x.Concerns q.components (Keyed.key e) then 1 else 0) (x.add q e) where
  directories := h.directories.alter
  registration d := by
    rw [registration_add h.directories]
    by_cases hd : d = e.dir.components
    · subst hd
      have hextra : (fun p => extra e.dir.components p + if e.dir.components = e.dir.components ∧
            p = q.components ∧ x.Concerns q.components (Keyed.key e) then 1 else 0) =
          fun p => extra e.dir.components p + if p = q.components ∧
            e.name ∈ (x.registration e.dir.components).namesOf p then 1 else 0 := by
        funext p
        by_cases hp : p = q.components <;> simp [hp, Registration.mem_namesOf, Concerns, Entry.key_eq]
      rw [if_pos rfl, hextra]
      exact (h.registration e.dir.components).add q e.name
    · simpa [hd] using h.registration d
  held d hd := by
    rw [registration_add h.directories]
    by_cases hde : d = e.dir.components
    · rw [if_pos hde]
      intro h0
      have : q.components ∈ keys ((x.registration d).add q e.name).holders :=
        Sorted.mem_keys_alter.mpr (Or.inl rfl)
      simp [h0] at this
    · rw [if_neg hde]
      exact h.held d ((Sorted.mem_keys_alter.mp hd).resolve_left hde)

theorem Sound.add_fresh (h : Sound extra x) {q : Path} {e : Entry} (hf : ¬ x.Concerns q.components (Keyed.key e)) :
    Sound extra (x.add q e) := by
  classical
  simpa [hf] using h.add q e

/-! ### Forgetting an interest -/

lemma remove_eq (x : Index) (q : Path) (e : Entry) :
    x.remove q e = ⟨Sorted.revise e.dir.components (Registration.remove q e.name) x.directories⟩ := by
  have hf : (fun reg : Registration => Registration.remove q e.name reg) = fun reg =>
      if ((Sorted.find? e.name reg.names).getD []).any q.same then
        if (reg.drop q e.name).holders.isEmpty then none else some (reg.drop q e.name)
      else some (reg.drop q e.name) := by
    funext reg
    rw [Registration.remove, Registration.paths]
    by_cases hh : ((Sorted.find? e.name reg.names).getD []).any q.same = true
    · simp [hh, List.isEmpty_iff]
    · simp [hh]
  rw [show Registration.remove q e.name = _ from hf, remove]
  congr 2
  funext reg
  by_cases hh : ((Sorted.find? e.name reg.names).getD []).any q.same = true
  · simp [hh, Registration.drop, Registration.paths]
  · simp [hh, Registration.drop, Registration.paths]

lemma registration_remove (h : Ordered x.directories) (q : Path) (e : Entry) (d : List Component) :
    (x.remove q e).registration d =
      if d = e.dir.components then ((x.registration d).remove q e.name).getD {} else x.registration d := by
  rw [remove_eq]
  by_cases hd : d = e.dir.components
  · subst hd
    rw [if_pos rfl, registration, Sorted.find?_revise_self h, registration]
    cases Sorted.find? e.dir.components x.directories <;> rfl
  · rw [if_neg hd, registration, Sorted.find?_revise_ne hd, registration]

theorem concerns_remove (h : Sound extra x) {q : Path} {e : Entry} {p : List Component} {k : EntryKey} :
    (x.remove q e).Concerns p k ↔ ¬ (p = q.components ∧ k = Keyed.key e) ∧ x.Concerns p k := by
  obtain ⟨d, n⟩ := k
  simp only [Concerns, registration_remove h.directories, Entry.key_eq, Prod.mk.injEq]
  by_cases hd : d = e.dir.components
  · rw [if_pos hd, Registration.mem_keys_paths_remove (h.registration d)]
    tauto
  · rw [if_neg hd]
    tauto

/-- Forgetting an interest leaves the surplus. -/
theorem Sound.remove (h : Sound extra x) (q : Path) (e : Entry) : Sound extra (x.remove q e) where
  directories := by
    rw [remove_eq]
    exact Sorted.Ordered.revise (k := e.dir.components) h.directories
  registration d := by
    rw [registration_remove h.directories]
    split
    · exact (h.registration d).remove q e.name
    · exact h.registration d
  held d hd := by
    rw [remove_eq] at hd
    obtain ⟨r, hr⟩ := Option.isSome_iff_exists.mp (Sorted.isSome_find?.mpr hd)
    by_cases hde : d = e.dir.components
    · subst hde
      rw [Sorted.find?_revise_self h.directories] at hr
      obtain ⟨reg, hreg, hrem⟩ := Option.bind_eq_some_iff.mp hr
      have hheld := h.held e.dir.components (Sorted.isSome_find?.mp (by simp [hreg]))
      rw [registration_of_find? hreg] at hheld
      rw [registration_remove h.directories, if_pos rfl, registration_of_find? hreg, hrem]
      exact Registration.holders_of_remove hheld hrem
    · rw [Sorted.find?_revise_ne hde] at hr
      rw [registration_remove h.directories, if_neg hde]
      exact h.held d (Sorted.isSome_find?.mp (by simp [hr]))

/-! ### Several interests of one path -/

variable {q : Path} {es : List Entry}

theorem concerns_addAll (h : Sound extra x) {p : List Component} {k : EntryKey} :
    (es.foldl (fun x e => x.add q e) x).Concerns p k ↔ (p = q.components ∧ k ∈ keys es) ∨ x.Concerns p k := by
  classical
  induction es generalizing x extra with
  | nil => simp
  | cons e es ih =>
    rw [List.foldl_cons, ih (h.add q e), concerns_add h, Sorted.keys_cons, List.mem_cons]
    tauto

/-- Whatever is noted, some surplus keeps the books. -/
theorem Sound.addAll (h : Sound extra x) (q : Path) (es : List Entry) :
    ∃ more, Sound more (es.foldl (fun x e => x.add q e) x) ∧ ∀ d p, extra d p ≤ more d p := by
  classical
  induction es generalizing x extra with
  | nil => exact ⟨extra, h, fun _ _ => le_rfl⟩
  | cons e es ih =>
    obtain ⟨more, hm, hle⟩ := ih (h.add q e)
    exact ⟨more, hm, fun d p => le_trans (Nat.le_add_right _ _) (hle d p)⟩

/-- Noting an interest that is already there leaves a surplus. -/
theorem Sound.addAll_noted (h : Sound extra x) {k : EntryKey} (hk : k ∈ keys es) (hc : x.Concerns q.components k) :
    ∃ more, Sound more (es.foldl (fun x e => x.add q e) x) ∧ 0 < more k.1 q.components := by
  classical
  induction es generalizing x extra with
  | nil => cases hk
  | cons e es ih =>
    rw [Sorted.keys_cons, List.mem_cons] at hk
    rw [List.foldl_cons]
    rcases hk with rfl | hk
    · obtain ⟨more, hmore, hle⟩ := (h.add q e).addAll q es
      refine ⟨more, hmore, Nat.lt_of_lt_of_le ?_ (hle _ _)⟩
      rw [if_pos ⟨rfl, rfl, hc⟩]
      exact Nat.succ_pos _
    · exact ih (h.add q e) hk ((concerns_add h).mpr (Or.inr hc))

theorem Sound.addAll_fresh (h : Sound extra x) (hes : (keys es).Nodup)
    (hf : ∀ k ∈ keys es, ¬ x.Concerns q.components k) : Sound extra (es.foldl (fun x e => x.add q e) x) := by
  induction es generalizing x with
  | nil => exact h
  | cons e es ih =>
    rw [Sorted.keys_cons, List.nodup_cons] at hes
    rw [List.foldl_cons]
    refine ih (h.add_fresh (hf _ (by simp))) hes.2 fun k hk hc => ?_
    rcases (concerns_add h).mp hc with ⟨-, rfl⟩ | hc
    · exact hes.1 hk
    · exact hf k (by simp [hk]) hc

theorem concerns_removeAll (h : Sound extra x) {p : List Component} {k : EntryKey} :
    (es.foldl (fun x e => x.remove q e) x).Concerns p k ↔ ¬ (p = q.components ∧ k ∈ keys es) ∧ x.Concerns p k := by
  induction es generalizing x with
  | nil => simp
  | cons e es ih =>
    rw [List.foldl_cons, ih (h.remove q e), concerns_remove h, Sorted.keys_cons, List.mem_cons]
    tauto

theorem Sound.removeAll (h : Sound extra x) (q : Path) (es : List Entry) :
    Sound extra (es.foldl (fun x e => x.remove q e) x) := by
  induction es generalizing x with
  | nil => exact h
  | cons e es ih => exact ih (h.remove q e)

end Index

end LinkWatch
