import LinkWatch.Proofs.Table.Exact

/-!
What a table owes its targets (`Table.Kept`), and what is left behind when a step spoils its index. Noting an interest
again leaves a surplus in the books, which no step works off (`Surplus`); forgetting an interest of
another target leaves that target without it (`Missed`). Either way the table cannot keep what it owes.
-/

namespace LinkWatch.Table

open Sorted (keys)

variable {t : Table} {joining leaving : TargetId → Prop} {extra : List Component → List Component → Nat}

/-- What a table at rest owes its targets: each is found under all its interests, a directory counts those with an
interest in it, and nobody else holds a directory. -/
structure Kept (t : Table) : Prop where
  found : ∀ id ∈ t.targets, ∀ entry : Entry, (Keyed.key entry : EntryKey) ∈ t.interestsOf id → id ∈ t.targetsFor entry
  refcount : ∀ d, t.index.refcount d = (t.targets.filter (t.interestedIn d)).length
  holders : ∀ d p, p ∈ keys (t.index.registration d).holders → ∃ id ∈ t.targets, t.pathOf id = p

theorem Settled.kept (h : t.Settled) : t.Kept where
  found id hid entry hk := by
    rw [h.targetsFor_eq, List.mem_filter, decide_eq_true_iff, Resolution.classify_ne_none]
    exact ⟨hid, hk⟩
  refcount := h.refcount_eq
  holders d p hp := by
    rw [(h.index.registration d).mem_keys_holders, or_iff_left (Nat.lt_irrefl 0)] at hp
    obtain ⟨n, hc⟩ := hp
    obtain ⟨id, hat, -⟩ := h.at_of_concerns (k := (d, n)) hc
    exact ⟨id, (mem_targets h.ordered).mpr ⟨p, hat⟩, (h.known hat).2.1⟩

/-! ### What a clash leaves behind -/

/-- The books of the index are in order but for a surplus, which is so large for a path in a directory. -/
def Surplus (n : Nat) (d p : List Component) (t : Table) : Prop := ∃ extra, t.index.Sound extra ∧ n ≤ extra d p

variable {n : Nat} {d p : List Component}

lemma Surplus.enlist (h : t.Surplus n d p) (id : TargetId) : (t.enlist id).2.Surplus n d p := by
  obtain ⟨extra, hsound, hn⟩ := h
  by_cases hret : (t.target id).retired = true
  · rw [enlist_of_retired hret]
    exact ⟨extra, hsound, hn⟩
  · rw [enlist_of_active (by simpa using hret)]
    obtain ⟨more, hmore, hle⟩ := hsound.addAll (t.target id).requested (t.target id).resolution.interests
    exact ⟨more, hmore, hn.trans (hle d p)⟩

lemma Surplus.retire (h : t.Surplus n d p) (id : TargetId) : (t.retire id).2.Surplus n d p := by
  obtain ⟨extra, hsound, hn⟩ := h
  exact ⟨extra, hsound.removeAll _ _, hn⟩

lemma Surplus.repoint (h : t.Surplus n d p) (id : TargetId) (r : Resolution) :
    (t.repoint id r).2.Surplus n d p := by
  rcases t.repoint_cases id r with heq | ⟨-, -, heq⟩ <;> rw [heq]
  · exact h
  · obtain ⟨extra, hsound, hn⟩ := h
    obtain ⟨more, hmore, hle⟩ := hsound.addAll (t.target id).requested
      (Sorted.diff r.interests (t.target id).resolution.interests)
    exact ⟨more, hmore.removeAll _ _, hn.trans (hle d p)⟩

lemma Surplus.of_alike {t' : Table} (h : t.Surplus n d p) (ha : Alike t t') : t'.Surplus n d p := by
  obtain ⟨extra, hsound, hn⟩ := h
  exact ⟨extra, ha.index ▸ hsound, hn⟩

/-- Noting an interest again leaves a surplus. -/
lemma surplus_enlist (h : t.index.Sound extra) {id : TargetId}
    (hact : (t.target id).retired = false) (hdouble : t.Doubles id (t.interestsOf id)) :
    ∃ d, (t.enlist id).2.Surplus 1 d (t.pathOf id) := by
  obtain ⟨k, hk, hc⟩ := hdouble
  obtain ⟨more, hmore, hpos⟩ := h.addAll_noted hk hc
  rw [enlist_of_active hact]
  exact ⟨k.1, more, hmore, hpos⟩

lemma interestsOf_of_same {id : TargetId} {r : Resolution} (h : (t.target id).resolution.same r = true) :
    t.interestsOf id = keys r.interests := Resolution.keys_interests_congr (Resolution.same_iff.mp h)

/-- A resolution that brings or costs an interest leads elsewhere. -/
lemma same_of_mem {id : TargetId} {r : Resolution} {k : EntryKey} (hk : k ∈ t.gained id r ∨ k ∈ t.lost id r) :
    (t.target id).resolution.same r = false := by
  by_contra hsame
  rw [Bool.not_eq_false] at hsame
  rw [mem_gained, mem_lost, interestsOf_of_same hsame] at hk
  rcases hk with hk | hk <;> exact hk.2 hk.1

lemma surplus_repoint (h : t.index.Sound extra) {id : TargetId}
    {r : Resolution} (hact : (t.target id).retired = false) (hdouble : t.Doubles id (t.gained id r)) :
    ∃ d, (t.repoint id r).2.Surplus 1 d (t.pathOf id) := by
  obtain ⟨k, hk, hc⟩ := hdouble
  obtain ⟨more, hmore, hpos⟩ := h.addAll_noted hk hc
  rw [repoint_of_changed hact (same_of_mem (Or.inl hk))]
  exact ⟨k.1, more, hmore.removeAll _ _, hpos⟩

/-- A registered target has an interest that is not noted. -/
structure Missed (p : List Component) (k : EntryKey) (t : Table) (id : TargetId) : Prop where
  registered : t.At p id
  interest : k ∈ t.interestsOf id
  unnoted : ¬ t.index.Concerns p k

variable {k : EntryKey} {id : TargetId}

lemma Missed.retire (h : t.Missed p k id) (hsound : t.index.Sound extra)
    (j : TargetId) : (t.retire j).2.Missed p k id where
  registered := h.registered
  interest := (interestsOf_retire t j id).symm ▸ h.interest
  unnoted hc := h.unnoted ((concerns_retire hsound).mp hc).2

lemma Missed.enlist (h : t.Missed p k id) (hsound : t.index.Sound extra)
    {j : TargetId} (hj : (t.target j).retired = false → t.pathOf j ≠ p) : (t.enlist j).2.Missed p k id := by
  by_cases hret : (t.target j).retired = true
  · rw [enlist_of_retired hret]
    exact h
  · have hact : (t.target j).retired = false := by simpa using hret
    rw [enlist_of_active hact]
    refine ⟨h.registered, h.interest, fun hc => ?_⟩
    rcases (concerns_enlisted hsound).mp hc with ⟨hp, -⟩ | hc
    · exact hj hact hp.symm
    · exact h.unnoted hc

lemma Missed.of_alike {t' : Table} (h : t.Missed p k id) (ha : Alike t t') : t'.Missed p k id where
  registered := by
    rw [At, ha.registered]
    exact h.registered
  interest := (ha.interestsOf id).symm ▸ h.interest
  unnoted := ha.index ▸ h.unnoted

/-- Forgetting an interest of another target leaves that target without it. -/
lemma missed_retire (h : t.index.Sound extra)
    (hrob : t.Robs joining id (t.interestsOf id)) :
    ∃ k j, ¬ joining j ∧ (t.retire id).2.Missed (t.pathOf id) k j := by
  obtain ⟨j, hat, -, hj, k, hk, hkj⟩ := hrob
  refine ⟨k, j, hj, hat, (interestsOf_retire t id j).symm ▸ hkj, fun hc => ?_⟩
  exact ((concerns_retire h).mp hc).1 ⟨rfl, hk⟩

lemma missed_repoint (h : t.index.Sound extra)
    (hid : id < t.created.length) (hact : (t.target id).retired = false) {r : Resolution}
    (hrob : t.Robs joining id (t.lost id r)) :
    ∃ k j, ¬ joining j ∧ (t.repoint id r).2.Missed (t.pathOf id) k j := by
  obtain ⟨j, hat, hne, hj, k, hk, hkj⟩ := hrob
  rw [repoint_of_changed hact (same_of_mem (Or.inr hk))]
  refine ⟨k, j, hj, hat, ?_, fun hc => ?_⟩
  · rw [interestsOf_repointed t hid, if_neg hne]
    exact hkj
  · exact ((concerns_repointed h).mp hc).1 ⟨rfl, hk⟩

lemma Missed.not_kept (h : t.Missed p k id) (hf : Filed joining leaving t) : ¬ t.Kept := by
  intro hkept
  obtain ⟨entry, -, hentry⟩ := Sorted.mem_keys.mp h.interest
  have hid : id ∈ t.targets := (mem_targets hf.ordered).mpr ⟨p, h.registered⟩
  have hfound := hkept.found id hid entry (hentry.symm ▸ h.interest)
  obtain ⟨q, hq, hat⟩ := List.mem_filterMap.mp hfound
  have hqp : q.components = p := (hf.known hat).2.1.symm.trans (hf.known h.registered).2.1
  rw [Index.lookup_eq] at hq
  refine h.unnoted ?_
  rw [← hentry, ← hqp]
  exact Sorted.key_mem_keys hq

lemma Surplus.not_kept (h : t.Surplus 1 d p) (hf : Filed joining leaving t) (hno : ∀ id, ¬ t.At p id) : ¬ t.Kept := by
  intro hkept
  obtain ⟨extra, hsound, hpos⟩ := h
  have hheld : p ∈ keys (t.index.registration d).holders :=
    (hsound.registration d).mem_keys_holders.mpr (Or.inr hpos)
  obtain ⟨id, hid, rfl⟩ := hkept.holders d p hheld
  obtain ⟨q, hat⟩ := (mem_targets hf.ordered).mp hid
  exact hno id ((hf.known hat).2.1.symm ▸ hat)

end LinkWatch.Table
