import LinkWatch.Listener.Set
import Mathlib.Data.List.Basic

/-!
What the operations of a listener set do to its entries.
-/

namespace LinkWatch.ListenerSet

variable {s : ListenerSet} {alive : ListenerKey → Bool} {k k' : ListenerKey} {hold : Hold}

/-- The listeners that have an entry, in order. -/
abbrev keys (s : ListenerSet) : List ListenerKey := s.entries.map Prod.fst

lemma owns_iff : s.owns k = true ↔ (k, .strong) ∈ s.entries := by
  rw [owns, List.any_eq_true]
  constructor
  · rintro ⟨⟨k', hold⟩, hmem, hx⟩
    obtain ⟨rfl, rfl⟩ : k' = k ∧ hold = .strong := by simpa using hx
    exact hmem
  · exact fun hmem => ⟨_, hmem, by simp⟩

lemma contains_iff : s.contains k = true ↔ k ∈ s.keys := by
  rw [contains, List.any_eq_true, List.mem_map]
  exact exists_congr fun x => and_congr_right fun _ => beq_iff_eq

lemma contains_of_owns (h : s.owns k = true) : s.contains k = true :=
  contains_iff.mpr (List.mem_map_of_mem (owns_iff.mp h))

/-! ### Dropping the dead -/

lemma sublist_prune (alive : ListenerKey → Bool) (s : ListenerSet) : (s.prune alive).entries.Sublist s.entries :=
  List.filter_sublist ..

/-- A set owns whom it owned before the dead were dropped. -/
@[simp]
lemma owns_prune (alive : ListenerKey → Bool) (s : ListenerSet) (k : ListenerKey) :
    (s.prune alive).owns k = s.owns k := by
  rw [owns, owns, prune, List.any_filter]
  congr 1
  funext x
  obtain ⟨k', hold⟩ := x
  cases hold <;> simp

/-- Where whom the set owns is alive, whoever is dropped is dead. -/
lemma entries_prune (h : ∀ k, s.owns k = true → alive k = true) :
    (s.prune alive).entries = s.entries.filter fun x => alive x.1 := by
  refine List.filter_congr fun x hx => ?_
  obtain ⟨k, hold⟩ := x
  cases hold with
  | weak => rfl
  | strong => simp [h k (owns_iff.mpr hx)]

/-- The living keep their entries. -/
lemma contains_prune_of_alive (h : alive k = true) : (s.prune alive).contains k = s.contains k := by
  rw [contains, contains, prune, List.any_filter]
  congr 1
  funext x
  by_cases hx : x.1 = k
  · simp [hx, h]
  · simp [hx]

/-! ### Operations -/

lemma add_of_contains (h : (s.prune alive).contains k = true) : s.add alive hold k = (false, s.prune alive) := by
  rw [add, if_pos h]

lemma add_of_not_contains (h : (s.prune alive).contains k = false) :
    s.add alive hold k = (true, ⟨(s.prune alive).entries ++ [(k, hold)]⟩) := by
  rw [add, if_neg (by simp [h])]

lemma owns_add (h : s.owns k = true) (hold : Hold) (k' : ListenerKey) : (s.add alive hold k').2.owns k = true := by
  cases hc : (s.prune alive).contains k' with
  | true => simpa [add_of_contains hc] using h
  | false =>
    have hmem := owns_iff.mp ((owns_prune alive s k).trans h)
    rw [add_of_not_contains hc]
    exact owns_iff.mpr (List.mem_append_left _ hmem)

lemma owns_remove (h : s.owns k = true) (hne : k ≠ k') : (s.remove alive k').2.owns k = true := by
  have hmem := owns_iff.mp ((owns_prune alive s k).trans h)
  exact owns_iff.mpr (List.mem_filter.mpr ⟨hmem, by simpa using hne⟩)

section Alive

variable (h : ∀ k, s.owns k = true → alive k = true)

include h

lemma entries_remove (k : ListenerKey) :
    (s.remove alive k).2.entries = s.entries.filter fun x => alive x.1 && !(x.1 == k) := by
  rw [remove]
  dsimp only
  rw [entries_prune h, List.filter_filter]
  exact List.filter_congr fun x _ => Bool.and_comm ..

lemma remove_fst_iff : (s.remove alive k).1 = true ↔ alive k = true ∧ k ∈ s.keys := by
  have hkeys : (s.remove alive k).1 = (s.prune alive).contains k := rfl
  rw [hkeys]
  constructor
  · intro hc
    obtain ⟨x, hx, rfl⟩ := List.mem_map.mp (contains_iff.mp hc)
    rw [entries_prune h] at hx
    exact ⟨(List.mem_filter.mp hx).2, List.mem_map_of_mem (List.mem_filter.mp hx).1⟩
  · rintro ⟨halive, hmem⟩
    rw [contains_prune_of_alive halive]
    exact contains_iff.mpr hmem

end Alive

end LinkWatch.ListenerSet
