import LinkWatch.Proofs.Path
import LinkWatch.Resolution.Basic

/-!
What a resolution says. Spellings do not count: two resolutions lead the same way if they have the same
`view`, and then they have the same interests (`keys_interests_congr`). An entry is an interest exactly if a
change of it matters (`classify_ne_none`).
-/

namespace LinkWatch

/-- The spelling of an entry does not count. -/
abbrev EntryKey := List Component × FileName

instance : Std.TransOrd EntryKey := Std.instTransOrdProd
instance : Std.LawfulEqOrd EntryKey := Std.instLawfulEqOrdProd

lemma Entry.key_eq (e : Entry) : Keyed.key e = (e.dir.components, e.name) := rfl

lemma Entry.same_iff {a b : Entry} : a.same b = true ↔ (Keyed.key a : EntryKey) = Keyed.key b := by
  simp [Entry.same, Path.same_iff, Entry.key_eq]

lemma Entry.same_congr {a b : Entry} (h : a.same b = true) (e : Entry) : a.same e = b.same e := by
  rw [Bool.eq_iff_iff, same_iff, same_iff, same_iff.mp h]

namespace Resolution

open Sorted (keys Ordered)

/-! ### Interests -/

lemma ordered_elim_insert {o : Option Entry} {es : List Entry} (h : Ordered es) :
    Ordered (o.elim es fun e => Sorted.insert e es) := by
  cases o with
  | none => exact h
  | some e => exact h.insert

lemma mem_keys_elim_insert {o : Option Entry} {es : List Entry} {k : EntryKey} :
    k ∈ keys (o.elim es fun e => Sorted.insert e es) ↔ k ∈ keys es ∨ ∃ e ∈ o, Keyed.key e = k := by
  cases o with
  | none => simp
  | some e => simp [Sorted.mem_keys_insert, eq_comm, or_comm]

lemma ordered_interests (r : Resolution) : Ordered r.interests :=
  ordered_elim_insert (ordered_elim_insert (Sorted.ordered_ofList _))

/-- The interests are the links on the way, the missing component, and the resolved file. -/
theorem mem_keys_interests {r : Resolution} {k : EntryKey} :
    k ∈ keys r.interests ↔ (∃ h ∈ r.hops, Keyed.key h.entry = k) ∨
      (∃ e ∈ r.pending, Keyed.key e = k) ∨ ∃ e ∈ r.leaf, Keyed.key e = k := by
  have hops : k ∈ keys (Sorted.ofList (r.hops.map Hop.entry)) ↔ ∃ h ∈ r.hops, Keyed.key h.entry = k := by
    rw [Sorted.mem_keys_ofList, Sorted.mem_keys]
    simp
  rw [interests, mem_keys_elim_insert, mem_keys_elim_insert, hops, or_assoc]

/-- The interests are spelled as they were found. -/
lemma mem_of_mem_interests {r : Resolution} {e : Entry} (h : e ∈ r.interests) :
    e ∈ r.hops.map Hop.entry ∨ e ∈ r.pending ∨ e ∈ r.leaf := by
  have helim : ∀ {o : Option Entry} {es : List Entry},
      e ∈ o.elim es (fun x => Sorted.insert x es) → e ∈ es ∨ e ∈ o := by
    intro o es he
    cases o with
    | none => exact Or.inl he
    | some x =>
      rcases Sorted.mem_of_mem_insert he with rfl | he
      · exact Or.inr rfl
      · exact Or.inl he
  rcases helim h with h | h
  · rcases helim h with h | h
    · exact Or.inl (Sorted.mem_of_mem_ofList h)
    · exact Or.inr (Or.inl h)
  · exact Or.inr (Or.inr h)

/-- Each link on the way is observed, however its entry is spelled. -/
lemma key_mem_interests_of_hop {r : Resolution} {x : Hop} {e : Entry} (hx : x ∈ r.hops)
    (hsame : x.entry.same e = true) : ((e.dir.components, e.name) : EntryKey) ∈ keys r.interests := by
  rw [← Entry.key_eq e]
  exact mem_keys_interests.mpr (Or.inl ⟨x, hx, Entry.same_iff.mp hsame⟩)

/-- An entry is an interest exactly if a change of it matters. -/
theorem classify_ne_none {r : Resolution} {dir : Path} {name : FileName} :
    r.classify dir name ≠ .none ↔ ((dir.components, name) : EntryKey) ∈ keys r.interests := by
  rw [mem_keys_interests, ← Entry.key_eq ⟨dir, name⟩]
  unfold classify
  split
  · rename_i h
    obtain ⟨x, hx, hk⟩ := List.any_eq_true.mp h
    exact iff_of_true (by decide) (Or.inl ⟨x, hx, Entry.same_iff.mp hk⟩)
  · rename_i hhop
    split
    · rename_i h
      obtain ⟨x, hx, hk⟩ := (Option.any_eq_true _ _).mp h
      exact iff_of_true (by decide) (Or.inr (Or.inl ⟨x, hx, Entry.same_iff.mp hk⟩))
    · rename_i hpending
      split
      · rename_i h
        obtain ⟨x, hx, hk⟩ := (Option.any_eq_true _ _).mp h
        exact iff_of_true (by decide) (Or.inr (Or.inr ⟨x, hx, Entry.same_iff.mp hk⟩))
      · rename_i hleaf
        refine iff_of_false (by decide) ?_
        rintro (⟨x, hx, hk⟩ | ⟨x, hx, hk⟩ | ⟨x, hx, hk⟩)
        · exact hhop (List.any_eq_true.mpr ⟨x, hx, Entry.same_iff.mpr hk⟩)
        · exact hpending ((Option.any_eq_true _ _).mpr ⟨x, hx, Entry.same_iff.mpr hk⟩)
        · exact hleaf ((Option.any_eq_true _ _).mpr ⟨x, hx, Entry.same_iff.mpr hk⟩)

/-! ### Spellings -/

/-- What a hop says, however it is written. -/
def hopView (h : Hop) : List Component × EntryKey × List Component :=
  (h.link.components, Keyed.key h.entry, h.target.components)

/-- What a resolution says, however it is written. -/
def view (r : Resolution) :
    List Component × List (List Component × EntryKey × List Component) × Option EntryKey :=
  (r.resolved.components, r.hops.map hopView, r.pending.map Keyed.key)

lemma hop_same_iff {a b : Hop} : a.same b = true ↔ hopView a = hopView b := by
  simp [Hop.same, hopView, Path.same_iff, Entry.key_eq, Hop.entry, and_assoc]

lemma hops_same_iff {as bs : List Hop} :
    (as.length == bs.length && (as.zip bs).all fun (x, y) => x.same y) = true ↔ as.map hopView = bs.map hopView := by
  induction as generalizing bs with
  | nil => cases bs <;> simp
  | cons a as ih =>
    cases bs with
    | nil => simp
    | cons b bs =>
      have := @ih bs
      simp only [Bool.and_eq_true, beq_iff_eq] at this
      simp [hop_same_iff, ← this]
      tauto

theorem same_iff {a b : Resolution} : a.same b = true ↔ a.view = b.view := by
  rw [same, Bool.and_eq_true, Bool.and_eq_true, hops_same_iff, Path.same_iff]
  obtain ⟨_, _, p⟩ := a
  obtain ⟨_, _, q⟩ := b
  cases p <;> cases q <;> simp [view, Entry.same_iff, and_assoc]

lemma same_refl (r : Resolution) : r.same r = true := same_iff.mpr rfl

lemma same_symm {a b : Resolution} (h : a.same b = true) : b.same a = true := same_iff.mpr (same_iff.mp h).symm

/-- A link of one is a link of the other. -/
lemma exists_hop_of_same {a b : Resolution} (h : a.same b = true) {x : Hop} (hx : x ∈ a.hops) :
    ∃ y ∈ b.hops, x.same y = true := by
  obtain ⟨-, hhops, -⟩ : _ ∧ _ ∧ _ := by simpa [view] using same_iff.mp h
  have hmem : hopView x ∈ b.hops.map hopView := hhops ▸ List.mem_map_of_mem hx
  obtain ⟨y, hy, hview⟩ := List.mem_map.mp hmem
  exact ⟨y, hy, hop_same_iff.mpr hview.symm⟩

lemma leaf_congr {a b : Resolution} (h : a.view = b.view) :
    a.leaf.map (Keyed.key : Entry → EntryKey) = b.leaf.map Keyed.key :=
  Path.entry?_congr (Prod.mk.inj h).1

lemma exists_key_congr {a b : Option Entry} {k : EntryKey}
    (h : a.map (Keyed.key : Entry → EntryKey) = b.map Keyed.key) :
    (∃ e ∈ a, Keyed.key e = k) ↔ ∃ e ∈ b, Keyed.key e = k := by
  have := congrArg (k ∈ ·) h
  simpa [Option.map_eq_some_iff] using this

lemma exists_hop_congr {a b : List Hop} {k : EntryKey} (h : a.map hopView = b.map hopView) :
    (∃ x ∈ a, Keyed.key x.entry = k) ↔ ∃ x ∈ b, Keyed.key x.entry = k := by
  have hk : ∀ hs : List Hop, (∃ x ∈ hs, Keyed.key x.entry = k) ↔ ∃ v ∈ hs.map hopView, v.2.1 = k := by
    intro hs
    simp [hopView]
  rw [hk, hk, h]

/-- Resolutions that lead the same way have the same interests. -/
theorem keys_interests_congr {a b : Resolution} (h : a.view = b.view) : keys a.interests = keys b.interests := by
  refine Sorted.keys_ext a.ordered_interests b.ordered_interests fun k => ?_
  obtain ⟨-, hhops, hpending⟩ : _ ∧ _ ∧ _ := by simpa [view] using h
  rw [mem_keys_interests, mem_keys_interests, exists_hop_congr hhops, exists_key_congr hpending,
    exists_key_congr (leaf_congr h)]

end Resolution

end LinkWatch
