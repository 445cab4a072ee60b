import LinkWatch.Sorted
import Mathlib.Data.List.Nodup
import Mathlib.Tactic.Lemma
import Mathlib.Tactic.Tauto

/-!
Sorted lists by their keys. A list is `Ordered` if its keys grow; every operation keeps that, and says
with `keys` what it does to the elements and with `find?` what it does to a dictionary. An ordered list
is determined by the set of its keys (`keys_ext`), whatever the spelling of its elements.
-/

namespace LinkWatch.Sorted

variable {α κ : Type} [Keyed α κ]

/-- The keys of a list, in its order. -/
def keys (as : List α) : List κ := as.map Keyed.key

@[simp] lemma keys_nil : keys ([] : List α) = [] := rfl
@[simp] lemma keys_cons (a : α) (as : List α) : keys (a :: as) = Keyed.key a :: keys as := rfl

lemma mem_keys {as : List α} {k : κ} : k ∈ keys as ↔ ∃ a ∈ as, Keyed.key a = k := List.mem_map

lemma key_mem_keys {as : List α} {a : α} (h : a ∈ as) : Keyed.key a ∈ keys as :=
  mem_keys.mpr ⟨a, h, rfl⟩

lemma filterMap_keys {γ : Type} {as : List α} {g : κ → Option γ} {f : α → γ}
    (h : ∀ a ∈ as, g (Keyed.key a) = some (f a)) : (keys as).filterMap g = as.map f := by
  induction as with
  | nil => rfl
  | cons a as ih =>
    rw [keys_cons, List.filterMap_cons_some (h a (by simp)), List.map_cons, ih fun b hb => h b (by simp [hb])]

/-! ### Elements by their keys -/

section Equality

variable [BEq κ] [LawfulBEq κ]

lemma contains_iff {as : List α} {k : κ} : contains as k = true ↔ k ∈ keys as := by
  simp [contains, mem_keys]

lemma mem_keys_erase {as : List α} {k k' : κ} : k ∈ keys (erase k' as) ↔ k ≠ k' ∧ k ∈ keys as := by
  rw [mem_keys, mem_keys, erase]
  simp only [List.mem_filter, Bool.not_eq_true', beq_eq_false_iff_ne]
  constructor
  · rintro ⟨a, ⟨ha, hne⟩, rfl⟩
    exact ⟨hne, a, ha, rfl⟩
  · rintro ⟨hne, a, ha, rfl⟩
    exact ⟨a, ⟨ha, hne⟩, rfl⟩

lemma erase_of_not_mem {as : List α} {k : κ} (h : k ∉ keys as) : erase k as = as := by
  refine List.filter_eq_self.mpr fun a ha => ?_
  have hne : Keyed.key a ≠ k := fun he => h (mem_keys.mpr ⟨a, ha, he⟩)
  simpa using hne

lemma mem_keys_diff {as bs : List α} {k : κ} : k ∈ keys (diff as bs) ↔ k ∈ keys as ∧ k ∉ keys bs := by
  rw [mem_keys, mem_keys, diff]
  simp only [List.mem_filter, Bool.not_eq_true', ← Bool.not_eq_true, contains_iff]
  constructor
  · rintro ⟨a, ⟨ha, hne⟩, rfl⟩
    exact ⟨⟨a, ha, rfl⟩, hne⟩
  · rintro ⟨⟨a, ha, rfl⟩, hne⟩
    exact ⟨a, ⟨ha, hne⟩, rfl⟩

end Equality

/-! ### Order -/

section Order

variable [Ord κ]

/-- The keys grow from each element to those after it. -/
def Ordered (as : List α) : Prop := (keys as).Pairwise fun a b => compare a b = .lt

@[simp] lemma ordered_nil : Ordered ([] : List α) := List.Pairwise.nil

lemma ordered_cons {a : α} {as : List α} :
    Ordered (a :: as) ↔ (∀ k ∈ keys as, compare (Keyed.key a) k = .lt) ∧ Ordered as :=
  List.pairwise_cons

lemma Ordered.sublist {as bs : List α} (h : Ordered bs) (hs : (keys as).Sublist (keys bs)) : Ordered as :=
  List.Pairwise.sublist hs h

lemma mem_of_mem_insert {a b : α} {as : List α} (h : b ∈ insert a as) : b = a ∨ b ∈ as := by
  induction as with
  | nil => exact Or.inl (List.mem_singleton.mp h)
  | cons c cs ih =>
    rw [insert] at h
    split at h
    case h_1 => exact List.mem_cons.mp h
    case h_2 => exact Or.inr h
    case h_3 =>
      rcases List.mem_cons.mp h with rfl | h
      · exact Or.inr (List.mem_cons_self ..)
      · exact (ih h).imp_right (List.mem_cons_of_mem c)

lemma mem_of_mem_put {a b : α} {as : List α} (h : b ∈ put a as) : b = a ∨ b ∈ as := by
  induction as with
  | nil => exact Or.inl (List.mem_singleton.mp h)
  | cons c cs ih =>
    rw [put] at h
    split at h
    case h_1 => exact List.mem_cons.mp h
    case h_2 => exact (List.mem_cons.mp h).imp_right (List.mem_cons_of_mem c)
    case h_3 =>
      rcases List.mem_cons.mp h with rfl | h
      · exact Or.inr (List.mem_cons_self ..)
      · exact (ih h).imp_right (List.mem_cons_of_mem c)

lemma mem_of_mem_ofList {as : List α} {b : α} (h : b ∈ ofList as) : b ∈ as := by
  suffices ∀ acc : List α, b ∈ as.foldl (fun s a => put a s) acc → b ∈ as ∨ b ∈ acc from
    (this [] h).resolve_right List.not_mem_nil
  clear h
  induction as with
  | nil => exact fun _ h => Or.inr h
  | cons a as ih =>
    intro acc h
    rcases ih _ h with h | h
    · exact Or.inl (List.mem_cons_of_mem a h)
    · rcases mem_of_mem_put h with rfl | h
      · exact Or.inl (List.mem_cons_self ..)
      · exact Or.inr h

section Transitive

variable [Std.TransOrd κ]

lemma ne_of_lt {a b : κ} (h : compare a b = .lt) : a ≠ b := by
  rintro rfl
  rw [Std.compare_self] at h
  cases h

lemma Ordered.nodup {as : List α} (h : Ordered as) : (keys as).Nodup := h.imp ne_of_lt

/-- Ordered lists with the same keys have them in the same order. -/
theorem keys_ext {α' : Type} [Keyed α' κ] {as : List α} {bs : List α'} (ha : Ordered as) (hb : Ordered bs)
    (h : ∀ k, k ∈ keys as ↔ k ∈ keys bs) : keys as = keys bs :=
  List.Perm.eq_of_pairwise (fun _ _ _ _ hab hba => absurd rfl (ne_of_lt (Std.TransCmp.lt_trans hab hba)))
    ha hb ((List.perm_ext_iff_of_nodup ha.nodup hb.nodup).mpr h)

/-- What comes before the first element of an ordered list comes before all. -/
lemma Ordered.lt_of_lt_head {k : κ} {b : α} {bs : List α} (h : Ordered (b :: bs))
    (hk : compare k (Keyed.key b) = .lt) : ∀ k' ∈ keys (b :: bs), compare k k' = .lt := by
  intro k' hk'
  rcases List.mem_cons.mp hk' with rfl | hk'
  · exact hk
  · exact Std.TransCmp.lt_trans hk ((ordered_cons.mp h).1 k' hk')

end Transitive

section Lawful

variable [Std.LawfulEqOrd κ]

lemma mem_keys_insert {a : α} {as : List α} {k : κ} :
    k ∈ keys (insert a as) ↔ k = Keyed.key a ∨ k ∈ keys as := by
  induction as with
  | nil => simp [insert]
  | cons b bs ih =>
    rw [insert]
    split
    case h_1 => simp
    case h_2 he => simp [Std.LawfulEqCmp.compare_eq_iff_eq.mp he]
    case h_3 => simp [ih]; tauto

lemma mem_keys_put {a : α} {as : List α} {k : κ} :
    k ∈ keys (put a as) ↔ k = Keyed.key a ∨ k ∈ keys as := by
  induction as with
  | nil => simp [put]
  | cons b bs ih =>
    rw [put]
    split
    case h_1 => simp
    case h_2 he => simp [Std.LawfulEqCmp.compare_eq_iff_eq.mp he]
    case h_3 => simp [ih]; tauto

lemma mem_keys_ofList {as : List α} {k : κ} : k ∈ keys (ofList as) ↔ k ∈ keys as := by
  suffices ∀ acc : List α, k ∈ keys (as.foldl (fun s a => put a s) acc) ↔ k ∈ keys as ∨ k ∈ keys acc by
    rw [ofList, this]
    simp
  induction as with
  | nil => simp
  | cons a as ih =>
    intro acc
    rw [List.foldl_cons, ih, mem_keys_put]
    simp only [keys_cons, List.mem_cons]
    tauto

variable [Std.TransOrd κ]

lemma Ordered.insert {a : α} {as : List α} (h : Ordered as) : Ordered (Sorted.insert a as) := by
  induction as with
  | nil => simp [Sorted.insert, ordered_cons]
  | cons b bs ih =>
    rw [Sorted.insert]
    split
    case h_1 hlt => exact ordered_cons.mpr ⟨h.lt_of_lt_head hlt, h⟩
    case h_2 => exact h
    case h_3 hgt =>
      refine ordered_cons.mpr ⟨fun k hk => ?_, ih (ordered_cons.mp h).2⟩
      rcases mem_keys_insert.mp hk with rfl | hk
      · exact Std.OrientedCmp.lt_of_gt hgt
      · exact (ordered_cons.mp h).1 k hk

lemma Ordered.put {a : α} {as : List α} (h : Ordered as) : Ordered (Sorted.put a as) := by
  induction as with
  | nil => simp [Sorted.put, ordered_cons]
  | cons b bs ih =>
    rw [Sorted.put]
    split
    case h_1 hlt => exact ordered_cons.mpr ⟨h.lt_of_lt_head hlt, h⟩
    case h_2 he =>
      have he := Std.LawfulEqCmp.compare_eq_iff_eq.mp he
      exact ordered_cons.mpr ⟨he ▸ (ordered_cons.mp h).1, (ordered_cons.mp h).2⟩
    case h_3 hgt =>
      refine ordered_cons.mpr ⟨fun k hk => ?_, ih (ordered_cons.mp h).2⟩
      rcases mem_keys_put.mp hk with rfl | hk
      · exact Std.OrientedCmp.lt_of_gt hgt
      · exact (ordered_cons.mp h).1 k hk

lemma ordered_ofList (as : List α) : Ordered (ofList as) := by
  suffices ∀ acc : List α, Ordered acc → Ordered (as.foldl (fun s a => Sorted.put a s) acc) from
    this [] ordered_nil
  induction as with
  | nil => exact fun _ h => h
  | cons a as ih => exact fun acc h => ih _ h.put

end Lawful

section Filtered

variable [BEq κ]

lemma Ordered.erase {as : List α} (h : Ordered as) (k : κ) : Ordered (Sorted.erase k as) :=
  h.sublist (List.filter_sublist.map _)

lemma Ordered.diff {as : List α} (h : Ordered as) (bs : List α) : Ordered (Sorted.diff as bs) :=
  h.sublist (List.filter_sublist.map _)

end Filtered

end Order

/-! ### Dictionaries -/

section Dictionary

variable {β : Type}

section Equality

variable [BEq κ]

@[simp] lemma find?_nil (k : κ) : find? k ([] : List (α × β)) = none := rfl

variable [LawfulBEq κ]

lemma find?_cons_self {k : κ} {a : α} {b : β} (d : List (α × β)) (h : Keyed.key a = k) :
    find? k ((a, b) :: d) = some b := by
  simp [find?, h]

lemma find?_cons_ne {k : κ} {a : α} {b : β} (d : List (α × β)) (h : Keyed.key a ≠ k) :
    find? k ((a, b) :: d) = find? k d := by
  simp [find?, h]

lemma find?_eq_none {d : List (α × β)} {k : κ} : find? k d = none ↔ k ∉ keys d := by
  induction d with
  | nil => simp
  | cons e d ih =>
    rw [keys_cons, List.mem_cons, not_or, ← ih]
    by_cases h : Keyed.key e.1 = k
    · simp [find?_cons_self d h, show Keyed.key e = k from h]
    · simp [find?_cons_ne d h, show ¬ k = Keyed.key e from Ne.symm h]

lemma isSome_find? {d : List (α × β)} {k : κ} : (find? k d).isSome = true ↔ k ∈ keys d := by
  rw [← not_iff_not, Bool.not_eq_true, Option.isSome_eq_false_iff, Option.isNone_iff_eq_none, find?_eq_none]

lemma mem_of_find? {d : List (α × β)} {k : κ} {b : β} (h : find? k d = some b) :
    ∃ a, (a, b) ∈ d ∧ Keyed.key a = k := by
  induction d with
  | nil => simp at h
  | cons e d ih =>
    by_cases he : Keyed.key e.1 = k
    · rw [find?_cons_self d he, Option.some.injEq] at h
      exact ⟨e.1, by simp [← h], he⟩
    · rw [find?_cons_ne d he] at h
      obtain ⟨a, ha, hk⟩ := ih h
      exact ⟨a, List.mem_cons_of_mem _ ha, hk⟩

lemma find?_erase {d : List (α × β)} {k k' : κ} {b : β} :
    find? k (erase k' d) = some b ↔ k ≠ k' ∧ find? k d = some b := by
  induction d with
  | nil => simp [erase]
  | cons e d ih =>
    by_cases he : Keyed.key e.1 = k'
    · have hd : erase k' (e :: d) = erase k' d := by simp [erase, Keyed.key, he]
      rw [hd, ih]
      refine and_congr_right fun hk => ?_
      rw [find?_cons_ne d fun h => hk (h.symm.trans he)]
    · have hd : erase k' (e :: d) = e :: erase k' d := by simp [erase, Keyed.key, he]
      rw [hd]
      by_cases hk : Keyed.key e.1 = k
      · rw [find?_cons_self _ hk, find?_cons_self _ hk]
        exact (and_iff_right fun h => he (hk.trans h)).symm
      · rw [find?_cons_ne _ hk, find?_cons_ne _ hk, ih]

lemma revise_cons_self {k : κ} {f : β → Option β} {e : α × β} (d : List (α × β)) (h : Keyed.key e.1 = k) :
    revise k f (e :: d) = ((f e.2).map (e.1, ·)).toList ++ revise k f d := by
  cases hf : f e.2 <;> simp [revise, h, hf]

lemma revise_cons_ne {k : κ} {f : β → Option β} {e : α × β} (d : List (α × β)) (h : Keyed.key e.1 ≠ k) :
    revise k f (e :: d) = e :: revise k f d := by
  simp [revise, h]

lemma keys_revise_sublist (k : κ) (f : β → Option β) (d : List (α × β)) :
    (keys (revise k f d)).Sublist (keys d) := by
  induction d with
  | nil => simp [revise]
  | cons e d ih =>
    by_cases he : Keyed.key e.1 = k
    · rw [revise_cons_self d he]
      cases f e.2 with
      | none => exact ih.cons _
      | some b => exact ih.cons_cons _
    · rw [revise_cons_ne d he]
      exact ih.cons_cons _

lemma find?_revise_ne {k k' : κ} {f : β → Option β} {d : List (α × β)} (hk : k ≠ k') :
    find? k (revise k' f d) = find? k d := by
  induction d with
  | nil => rfl
  | cons e d ih =>
    by_cases he : Keyed.key e.1 = k'
    · have hne : Keyed.key e.1 ≠ k := fun h => hk (h.symm.trans he)
      rw [revise_cons_self d he, find?_cons_ne _ hne, ← ih]
      cases f e.2 with
      | none => rfl
      | some b => exact find?_cons_ne _ hne
    · rw [revise_cons_ne d he]
      by_cases hk : Keyed.key e.1 = k
      · rw [find?_cons_self _ hk, find?_cons_self _ hk]
      · rw [find?_cons_ne _ hk, find?_cons_ne _ hk, ih]

end Equality

section Order

variable [Ord κ] [BEq κ] [LawfulBEq κ]

lemma Ordered.revise {k : κ} {f : β → Option β} {d : List (α × β)} (h : Ordered d) :
    Ordered (Sorted.revise k f d) := h.sublist (keys_revise_sublist k f d)

variable [Std.TransOrd κ]

lemma Ordered.find?_of_mem {d : List (α × β)} (hd : Ordered d) {a : α} {b : β} (h : (a, b) ∈ d) :
    find? (Keyed.key a) d = some b := by
  induction d with
  | nil => cases h
  | cons e d ih =>
    rcases List.mem_cons.mp h with rfl | h
    · exact find?_cons_self d rfl
    · have hne : Keyed.key e.1 ≠ Keyed.key a := fun he =>
        (List.nodup_cons.mp hd.nodup).1 (mem_keys.mpr ⟨_, h, he.symm⟩)
      rw [find?_cons_ne d hne]
      exact ih (ordered_cons.mp hd).2 h

/-- Ordered dictionaries with equal values at every key are equal, up to the spelling of the keys. -/
theorem map_eq_of_find? {α' β' γ : Type} [Keyed α' κ] {d : List (α × β)} {d' : List (α' × β')}
    {f : β → γ} {g : β' → γ} (hd : Ordered d) (hd' : Ordered d') (h : ∀ k, (find? k d).map f = (find? k d').map g) :
    (d.map fun e => (Keyed.key e.1, f e.2)) = d'.map fun e => (Keyed.key e.1, g e.2) := by
  have hkeys : keys d = keys d' := keys_ext hd hd' fun k => by
    have := congrArg Option.isSome (h k)
    rw [Option.isSome_map, Option.isSome_map] at this
    rw [← isSome_find?, ← isSome_find?, this]
  have hl : (keys d).filterMap (fun k => ((find? k d).map f).map (k, ·)) = d.map fun e => (Keyed.key e.1, f e.2) :=
    filterMap_keys fun e he => by
      rw [show find? (Keyed.key e) d = some e.2 from hd.find?_of_mem he]
      rfl
  have hr : (keys d').filterMap (fun k => ((find? k d').map g).map (k, ·)) = d'.map fun e => (Keyed.key e.1, g e.2) :=
    filterMap_keys fun e he => by
      rw [show find? (Keyed.key e) d' = some e.2 from hd'.find?_of_mem he]
      rfl
  rw [← hl, ← hr, hkeys]
  simp only [h]

lemma find?_revise_self {k : κ} {f : β → Option β} {d : List (α × β)} (h : Ordered d) :
    find? k (revise k f d) = (find? k d).bind f := by
  induction d with
  | nil => rfl
  | cons e d ih =>
    by_cases he : Keyed.key e.1 = k
    · -- the key does not occur again after its own element
      have hnone : find? k (revise k f d) = none := by
        rw [find?_eq_none, ← he]
        exact fun hmem => (List.nodup_cons.mp h.nodup).1 ((keys_revise_sublist _ f d).subset hmem)
      rw [revise_cons_self d he, find?_cons_self d he]
      cases hf : f e.2 with
      | none => simpa [hf] using hnone
      | some b => simpa [hf] using find?_cons_self _ he
    · rw [revise_cons_ne d he, find?_cons_ne _ he, find?_cons_ne _ he]
      exact ih (ordered_cons.mp h).2

end Order

section Altered

variable [Ord κ] [Std.LawfulEqOrd κ]

lemma mem_keys_alter {a : α} {f : Option β → β} {d : List (α × β)} {k : κ} :
    k ∈ keys (alter a f d) ↔ k = Keyed.key a ∨ k ∈ keys d := by
  induction d with
  | nil => simp [alter, Keyed.key]
  | cons e d ih =>
    rw [alter]
    split
    case h_1 => simp [Keyed.key]
    case h_2 he => simp [Keyed.key, Std.LawfulEqCmp.compare_eq_iff_eq.mp he]
    case h_3 => simp [ih]; tauto

section Transitive

variable [Std.TransOrd κ]

lemma Ordered.alter {a : α} {f : Option β → β} {d : List (α × β)} (h : Ordered d) :
    Ordered (Sorted.alter a f d) := by
  induction d with
  | nil => simp [Sorted.alter, ordered_cons]
  | cons e d ih =>
    rw [Sorted.alter]
    split
    case h_1 hlt => exact ordered_cons.mpr ⟨h.lt_of_lt_head hlt, h⟩
    case h_2 => exact ordered_cons.mpr (ordered_cons.mp h)
    case h_3 hgt =>
      refine ordered_cons.mpr ⟨fun k hk => ?_, ih (ordered_cons.mp h).2⟩
      rcases mem_keys_alter.mp hk with rfl | hk
      · exact Std.OrientedCmp.lt_of_gt hgt
      · exact (ordered_cons.mp h).1 k hk

end Transitive

variable [BEq κ] [LawfulBEq κ]

lemma find?_alter_ne {a : α} {f : Option β → β} {d : List (α × β)} {k : κ} (hk : Keyed.key a ≠ k) :
    find? k (alter a f d) = find? k d := by
  induction d with
  | nil => exact find?_cons_ne [] hk
  | cons e d ih =>
    rw [alter]
    split
    case h_1 => exact find?_cons_ne _ hk
    case h_2 he =>
      have hne : Keyed.key e.1 ≠ k := Std.LawfulEqCmp.compare_eq_iff_eq.mp he ▸ hk
      rw [find?_cons_ne _ hne, find?_cons_ne _ hne]
    case h_3 =>
      by_cases he : Keyed.key e.1 = k
      · rw [find?_cons_self _ he, find?_cons_self _ he]
      · rw [find?_cons_ne _ he, find?_cons_ne _ he, ih]

/-- A key that is set and dropped again leaves no trace. -/
lemma erase_alter {a : α} {f : Option β → β} {d : List (α × β)} (h : Keyed.key a ∉ keys d) :
    erase (Keyed.key a) (alter a f d) = d := by
  induction d with
  | nil => simp [alter, erase, Keyed.key]
  | cons e d ih =>
    have hne : Keyed.key e.1 ≠ Keyed.key a := fun he => h (mem_keys.mpr ⟨e, List.mem_cons_self, he⟩)
    have hcons : ∀ d', erase (Keyed.key a) (e :: d') = e :: erase (Keyed.key a) d' := fun d' => by
      simp [erase, Keyed.key, hne]
    rw [alter]
    split
    case h_1 =>
      have hfirst : erase (Keyed.key a) ((a, f none) :: e :: d) = erase (Keyed.key a) (e :: d) := by
        simp [erase, Keyed.key]
      rw [hfirst, erase_of_not_mem h]
    case h_2 he => exact absurd (Std.LawfulEqCmp.compare_eq_iff_eq.mp he).symm hne
    case h_3 => rw [hcons, ih fun hk => h (List.mem_cons_of_mem _ hk)]

variable [Std.TransOrd κ]

lemma find?_alter_self {a : α} {f : Option β → β} {d : List (α × β)} {k : κ} (hk : Keyed.key a = k)
    (h : Ordered d) : find? k (alter a f d) = some (f (find? k d)) := by
  subst hk
  induction d with
  | nil => exact find?_cons_self [] rfl
  | cons e d ih =>
    rw [alter]
    split
    case h_1 hlt =>
      have hnone : find? (Keyed.key a) (e :: d) = none :=
        find?_eq_none.mpr fun hmem => ne_of_lt (h.lt_of_lt_head hlt _ hmem) rfl
      rw [find?_cons_self _ rfl, hnone]
    case h_2 he =>
      have he := Std.LawfulEqCmp.compare_eq_iff_eq.mp he
      rw [find?_cons_self _ he.symm, find?_cons_self _ he.symm]
    case h_3 hgt =>
      have hne : Keyed.key e.1 ≠ Keyed.key a := ne_of_lt (Std.OrientedCmp.lt_of_gt hgt)
      rw [find?_cons_ne _ hne, find?_cons_ne _ hne]
      exact ih (ordered_cons.mp h).2

end Altered

end Dictionary

end LinkWatch.Sorted
