import LinkWatch.Proofs.Path.Join

/-!
How a tidy path is written. Tidying a rooted path puts what it says, one word for each component, between single
slashes (`tidy_eq`), so the bytes fall apart into the same words again (`tidied_tidy`). A path is tidied by its
components alone, so tidying twice changes nothing, and two spellings of a path are rooted and empty alike.
-/

namespace LinkWatch.Path

variable {p q : Path}

/-- Rooted, without a lone dot, and with single slashes before the words alone. -/
structure Tidied (p : Path) : Prop where
  rooted : p.isRooted = true
  dotless : [dot] ∉ p.bytes.splitOn slash
  single : ¬ [slash, slash] <:+: p.bytes
  trailing : p.bytes.getLast? = some slash → p = root

/-! ### Words -/

/-- How a component is written. -/
def word (c : Component) : List UInt8 := (ofComponent c).bytes

lemma Inner.word {c : Component} (h : Inner c) : slash ∉ word c ∧ ¬ blank (word c) = true := by
  cases h with
  | up => exact ⟨by decide, by decide⟩
  | name hn => exact ⟨hn.slash_not_mem, hn.not_blank⟩

lemma ne_nil_of_not_blank {s : List UInt8} (h : ¬ blank s = true) : s ≠ [] := fun h0 => h (by rw [h0]; rfl)

lemma join_words {ss : List (List UInt8)} {cs : List Component} (hss : ∀ s ∈ ss, slash ∉ s ∧ s ≠ [])
    (hcs : ∀ c ∈ cs, Inner c) :
    cs.foldl (fun p c => p.join (ofComponent c)) (assemble .root ss) = assemble .root (ss ++ cs.map word) := by
  induction cs generalizing ss with
  | nil => simp
  | cons c cs ih =>
    obtain ⟨hslash, hblank⟩ := (hcs c (by simp)).word
    have hall : ∀ s ∈ ss ++ [word c], slash ∉ s ∧ s ≠ [] := by
      intro s hs
      rcases List.mem_append.mp hs with hs | hs
      · exact hss s hs
      · rw [List.mem_singleton.mp hs]
        exact ⟨hslash, ne_nil_of_not_blank hblank⟩
    have hone : (assemble .root ss).join (ofComponent c) = assemble .root (ss ++ [word c]) := join_assemble hall
    rw [List.foldl_cons, hone, ih hall fun d hd => hcs d (by simp [hd]), List.append_assoc, List.map_cons,
      List.singleton_append]

/-- A tidy path is its words between slashes. -/
theorem tidy_eq (h : p.isRooted = true) :
    ∃ cs, p.components = .root :: cs ∧ (∀ c ∈ cs, Inner c) ∧ p.tidy = assemble .root (cs.map word) := by
  obtain ⟨cs, hcs, hinner⟩ := components_of_isRooted h
  refine ⟨cs, hcs, hinner, ?_⟩
  have hstart : p.tidy = cs.foldl (fun p c => p.join (ofComponent c)) (assemble .root []) := by
    rw [tidy, hcs]
    exact congrArg (fun q => cs.foldl (fun p c => p.join (ofComponent c)) q) (join_root empty)
  rw [hstart, join_words (by simp) hinner, List.nil_append]

lemma splitOn_assemble {ss : List (List UInt8)} (h : ∀ s ∈ ss, slash ∉ s) :
    (assemble .root ss).bytes.splitOn slash = [] :: if ss = [] then [[]] else ss := by
  have hbytes : (assemble .root ss).bytes = [] ++ slash :: [slash].intercalate ss := rfl
  rw [hbytes, List.splitOn_append_cons_self, splitOn_intercalate h]
  rfl

/-- Between two slashes is an empty piece. -/
lemma splitOn_of_double {bs : List UInt8} (h : [slash, slash] <:+: bs) :
    ∃ s ss t ts, bs.splitOn slash = s :: (ss ++ [] :: t :: ts) := by
  obtain ⟨before, after, rfl⟩ := h
  obtain ⟨s, ss, hs⟩ := List.exists_cons_of_ne_nil (List.splitOn_ne_nil slash before)
  obtain ⟨t, ts, ht⟩ := List.exists_cons_of_ne_nil (List.splitOn_ne_nil slash after)
  refine ⟨s, ss, t, ts, ?_⟩
  rw [show before ++ [slash, slash] ++ after = before ++ slash :: ([] ++ slash :: after) by simp,
    List.splitOn_append_cons_self, List.splitOn_append_cons_self, hs, ht]
  rfl

/-- After the last slash is an empty piece. -/
lemma splitOn_of_trailing {bs : List UInt8} (h : bs.getLast? = some slash) :
    ∃ s ss, bs.splitOn slash = s :: (ss ++ [[]]) := by
  obtain ⟨before, rfl⟩ := List.getLast?_eq_some_iff.mp h
  obtain ⟨s, ss, hs⟩ := List.exists_cons_of_ne_nil (List.splitOn_ne_nil slash before)
  refine ⟨s, ss, ?_⟩
  rw [List.splitOn_append_cons_self, hs]
  rfl

/-- A tidied path is tidy. -/
theorem tidied_tidy (h : p.isRooted = true) : p.tidy.Tidied := by
  obtain ⟨cs, -, hinner, htidy⟩ := tidy_eq h
  have hwords : ∀ s ∈ cs.map word, slash ∉ s ∧ ¬ blank s = true := by
    intro s hs
    obtain ⟨c, hc, rfl⟩ := List.mem_map.mp hs
    exact (hinner c hc).word
  have hsplit : p.tidy.bytes.splitOn slash = [] :: if cs.map word = [] then [[]] else cs.map word := by
    rw [htidy, splitOn_assemble fun s hs => (hwords s hs).1]
  have hnil : [] ∉ cs.map word := fun hs => (hwords _ hs).2 rfl
  refine ⟨isRooted_tidy h, fun hdot => ?_, fun hdouble => ?_, fun hlast => ?_⟩
  · rw [hsplit] at hdot
    rcases List.mem_cons.mp hdot with hdot | hdot
    · cases hdot
    · split at hdot
      · cases List.mem_singleton.mp hdot
      · exact (hwords _ hdot).2 rfl
  · obtain ⟨s, ss, t, ts, hpieces⟩ := splitOn_of_double hdouble
    rw [hsplit, List.cons.injEq] at hpieces
    split at hpieces
    · have hlength := congrArg List.length hpieces.2
      simp only [List.length_cons, List.length_nil, List.length_append] at hlength
      omega
    · exact hnil (hpieces.2 ▸ List.mem_append_right _ List.mem_cons_self)
  · obtain ⟨s, ss, hpieces⟩ := splitOn_of_trailing hlast
    rw [hsplit, List.cons.injEq] at hpieces
    split at hpieces
    · rename_i hnone
      rw [htidy, hnone]
      rfl
    · exact absurd (hpieces.2 ▸ List.mem_append_right _ (List.mem_singleton.mpr rfl)) hnil

/-! ### Spellings -/

lemma tidy_congr (h : p.components = q.components) : p.tidy = q.tidy := by
  rw [tidy, tidy, h]

/-- Tidying twice changes nothing more. -/
theorem tidy_tidy (h : p.isRooted = true) : p.tidy.tidy = p.tidy := tidy_congr (components_tidy h)

lemma isRooted_iff : p.isRooted = true ↔ p.components.head? = some .root := by
  constructor
  · intro h
    obtain ⟨cs, hcs, -⟩ := components_of_isRooted h
    rw [hcs]
    rfl
  · intro h
    cases hl : p.lead with
    | root => exact isRooted_of_lead hl
    | here => simp [components_eq, hl, Lead.components] at h
    | plain =>
      rw [components_eq, hl] at h
      obtain ⟨s, -, hs⟩ := List.mem_filterMap.mp (List.mem_of_head? h)
      exact absurd rfl (component?_inner hs).1

lemma isRooted_congr (h : p.components = q.components) : p.isRooted = q.isRooted := by
  rw [Bool.eq_iff_iff, isRooted_iff, isRooted_iff, h]

/-- The empty path alone says nothing. -/
lemma isEmpty_iff : p.isEmpty = true ↔ p.components = [] := by
  constructor
  · intro h
    obtain ⟨bs⟩ := p
    obtain rfl : bs = [] := by simpa [isEmpty] using h
    rfl
  · intro h
    by_contra hne
    have hbytes : p.bytes ≠ [] := fun h0 => hne (by simp [isEmpty, h0])
    cases hl : p.lead with
    | root => simp [components_eq, hl, Lead.components] at h
    | here => simp [components_eq, hl, Lead.components] at h
    | plain =>
      obtain ⟨s, ss, hpieces, hs⟩ := head_not_blank hl hbytes
      rw [components_eq, hpieces, List.filterMap_cons_some (component?_of_ne hs)] at h
      simp [hl, Lead.components] at h

lemma isEmpty_congr (h : p.components = q.components) : p.isEmpty = q.isEmpty := by
  rw [Bool.eq_iff_iff, isEmpty_iff, isEmpty_iff, h]

/-- After a rooted path, two spellings of a path say the same. -/
lemma components_join_congr {c : Path} (hc : c.isRooted = true) (h : p.components = q.components) :
    (c.join p).components = (c.join q).components := by
  by_cases hp : p.isRooted = true
  · rw [join, if_pos hp, join, if_pos (isRooted_congr h ▸ hp), h]
  · rw [Bool.not_eq_true] at hp
    rw [components_join hc hp, components_join hc (isRooted_congr h ▸ hp), said, said, h]

end LinkWatch.Path
