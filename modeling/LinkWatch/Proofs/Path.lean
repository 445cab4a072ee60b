import LinkWatch.Proofs.Sorted
import LinkWatch.Resolution.Basic
import Mathlib.Data.List.TakeWhile

/-!
What the parts of a path say. The components of the parent are those of the path without the last, and
the file name is the last one (`components_of_entry`), so two spellings of a path name the same entry.
A *clean* path is rooted and written from names alone; the places of a walk are clean, and there
`child`, `pop` and `entry?` are exact inverses of each other, spelling included.
-/

namespace LinkWatch

/-! ### The order of keys -/

theorem Component.code_injective : Function.Injective Component.code := by
  intro a b h
  cases a <;> cases b <;> simp_all [Component.code]

instance : Std.TransOrd Component := inferInstanceAs (Std.TransCmp (compareOn Component.code))

instance : Std.LawfulEqOrd Component where
  eq_of_compare {a b} h :=
    Component.code_injective (Std.LawfulEqCmp.compare_eq_iff_eq.mp (show compare a.code b.code = .eq from h))

namespace Path

@[simp] lemma key_eq (p : Path) : Keyed.key p = p.components := rfl

lemma same_iff {p q : Path} : p.same q = true ↔ p.components = q.components := by simp [same]

/-! ### Pieces -/

/-- What a lead says. -/
def Lead.components : Lead → List Component
  | .root => [.root]
  | .here => [.here]
  | .plain => []

lemma components_eq (p : Path) : p.components = p.lead.components ++ p.pieces.filterMap component? := by
  unfold components
  cases p.lead <;> simp [Lead.components]

lemma slash_not_mem_splitOn {bs s : List UInt8} (h : s ∈ bs.splitOn slash) : slash ∉ s := by
  induction bs generalizing s with
  | nil => simp_all
  | cons b bs ih =>
    rw [List.splitOn_cons_eq_if_modifyHead] at h
    by_cases hb : b = slash
    · simp only [hb, beq_self_eq_true, if_true, List.mem_cons] at h
      rcases h with rfl | h
      · simp
      · exact ih h
    · rw [if_neg (by simpa using hb)] at h
      obtain ⟨t, ts, hts⟩ := List.exists_cons_of_ne_nil (List.splitOn_ne_nil slash bs)
      rw [hts, List.modifyHead_cons, List.mem_cons] at h
      rcases h with rfl | h
      · have := ih (s := t) (by simp [hts])
        simp [Ne.symm hb, this]
      · exact ih (by simp [hts, h])

lemma slash_not_mem_pieces {p : Path} {s : List UInt8} (h : s ∈ p.pieces) : slash ∉ s := by
  unfold pieces at h
  split at h <;> exact slash_not_mem_splitOn h

lemma component?_eq_none {s : List UInt8} : component? s = none ↔ blank s = true := by
  unfold component?
  by_cases h : blank s = true
  · simp [h]
  · by_cases hd : s = [dot, dot] <;> simp [h, hd]

lemma component?_of_ne {s : List UInt8} (h : ¬ blank s = true) :
    component? s = some (if s = [dot, dot] then .up else .name s) := by
  unfold component?
  rw [if_neg h]
  split <;> rfl

/-- Pieces that say nothing do not count. -/
lemma filterMap_dropWhile_blank (ss : List (List UInt8)) :
    (ss.dropWhile blank).filterMap component? = ss.filterMap component? := by
  induction ss with
  | nil => rfl
  | cons s ss ih =>
    by_cases h : blank s = true
    · simp [h, component?_eq_none.mpr h, ih]
    · simp [h]

/-- A path without a lead of its own starts with a piece that says something. -/
lemma head_not_blank {p : Path} (hp : p.lead = .plain) (hs : p.bytes ≠ []) :
    ∃ s ss, p.pieces = s :: ss ∧ ¬ blank s = true := by
  obtain ⟨bs⟩ := p
  cases bs with
  | nil => exact absurd rfl hs
  | cons b bs =>
    simp only [lead] at hp
    split at hp
    · cases hp
    · split at hp
      · cases hp
      · rename_i hb hd
        obtain ⟨t, ts, hts⟩ := List.exists_cons_of_ne_nil (List.splitOn_ne_nil slash bs)
        refine ⟨b :: t, ts, ?_, ?_⟩
        · simp [pieces, lead, hb, hd, List.splitOn_cons_eq_if_modifyHead, hts]
        · -- a lone dot before a slash or the end would be a lead
          intro hblank
          obtain ⟨rfl, rfl⟩ : b = dot ∧ t = [] := by simpa [blank] using hblank
          refine hd ⟨rfl, ?_⟩
          cases bs with
          | nil => exact Or.inl rfl
          | cons c cs =>
            right
            rw [List.splitOn_cons_eq_if_modifyHead] at hts
            by_cases hc : c = slash
            · simp [hc]
            · rw [if_neg (by simpa using hc)] at hts
              obtain ⟨u, us, hus⟩ := List.exists_cons_of_ne_nil (List.splitOn_ne_nil slash cs)
              simp [hus] at hts

/-! ### Assembling -/

lemma splitOn_intercalate {ss : List (List UInt8)} (h : ∀ s ∈ ss, slash ∉ s) :
    ([slash].intercalate ss).splitOn slash = if ss = [] then [[]] else ss := by
  by_cases hs : ss = []
  · simp [hs]
  · rw [if_neg hs, List.splitOn_intercalate slash h hs]

lemma lead_assemble_plain {s : List UInt8} (ss : List (List UInt8)) (hs : slash ∉ s) (hb : ¬ blank s = true) :
    (assemble .plain (s :: ss)).lead = .plain := by
  cases s with
  | nil => exact absurd rfl hb
  | cons b bs =>
    have hne : b ≠ slash := fun he => hs (by simp [he])
    obtain ⟨rest, hr⟩ : ∃ rest, (assemble .plain ((b :: bs) :: ss)).bytes = b :: (bs ++ rest) := by
      cases ss with
      | nil => exact ⟨[], by simp [assemble]⟩
      | cons t ts => exact ⟨slash :: [slash].intercalate (t :: ts), by simp [assemble]⟩
    rw [lead, hr]
    simp only [if_neg hne]
    rw [if_neg]
    rintro ⟨rfl, hd⟩
    cases bs with
    | nil => exact hb rfl
    | cons c cs =>
      have hc : c ≠ slash := fun he => hs (by simp [he])
      simp [hc] at hd

/-- What is assembled has the lead and says the pieces, if a path without a lead of its own starts with a
piece that says something. -/
lemma components_assemble {l : Lead} {ss : List (List UInt8)} (h : ∀ s ∈ ss, slash ∉ s)
    (hl : l = .plain → ∀ s ∈ ss.head?, ¬ blank s = true) :
    (assemble l ss).components = l.components ++ ss.filterMap component? := by
  cases l with
  | root =>
    have hfm : (if ss = [] then [[]] else ss).filterMap component? = ss.filterMap component? := by
      by_cases hs : ss = []
      · simp [hs, component?, blank]
      · rw [if_neg hs]
    have hlead : (assemble .root ss).lead = .root := by simp [assemble, lead]
    have hpieces : (assemble .root ss).pieces = if ss = [] then [[]] else ss := by
      rw [pieces, hlead]
      simpa [assemble] using splitOn_intercalate h
    rw [components_eq, hlead, hpieces, hfm]
  | here =>
    cases ss with
    | nil => rfl
    | cons s ss =>
      have hlead : (assemble .here (s :: ss)).lead = .here := by
        simp [assemble, lead, show dot ≠ slash by decide]
      have hpieces : (assemble .here (s :: ss)).pieces = s :: ss := by
        rw [pieces, hlead]
        simpa [assemble] using splitOn_intercalate h
      rw [components_eq, hlead, hpieces]
  | plain =>
    cases ss with
    | nil => rfl
    | cons s ss =>
      have hlead := lead_assemble_plain ss (h s (by simp)) (hl rfl s (by simp))
      have hpieces : (assemble .plain (s :: ss)).pieces = s :: ss := by
        rw [pieces, hlead]
        simpa [assemble] using splitOn_intercalate h
      rw [components_eq, hlead, hpieces]

/-! ### Parts -/

/-- The last piece that says something, and what is before it. -/
lemma pieces_of_spoken {p : Path} {s : List UInt8} {before : List (List UInt8)}
    (h : p.spoken = s :: before) :
    ¬ blank s = true ∧ ∃ blanks, p.pieces = before.reverse ++ s :: blanks ∧ ∀ b ∈ blanks, blank b = true := by
  have hsplit := List.takeWhile_append_dropWhile (p := blank) (l := p.pieces.reverse)
  rw [show p.pieces.reverse.dropWhile blank = s :: before from h] at hsplit
  refine ⟨?_, (p.pieces.reverse.takeWhile blank).reverse, ?_, ?_⟩
  · have := List.head?_dropWhile_not blank p.pieces.reverse
    rw [show p.pieces.reverse.dropWhile blank = s :: before from h] at this
    simpa using this
  · have := congrArg List.reverse hsplit
    simpa using this.symm
  · intro b hb
    exact List.mem_takeWhile_imp (List.mem_reverse.mp hb)

lemma components_of_spoken {p : Path} {s : List UInt8} {before : List (List UInt8)}
    (h : p.spoken = s :: before) :
    p.components = p.lead.components ++ before.reverse.filterMap component? ++
      [if s = [dot, dot] then .up else .name s] := by
  obtain ⟨hs, blanks, hp, hb⟩ := pieces_of_spoken h
  have hnone : blanks.filterMap component? = [] :=
    List.filterMap_eq_nil_iff.mpr fun b hb' => component?_eq_none.mpr (hb b hb')
  rw [components_eq, hp, List.filterMap_append, List.filterMap_cons_some (component?_of_ne hs), hnone,
    List.append_assoc]

lemma components_of_spoken_nil {p : Path} (h : p.spoken = []) : p.components = p.lead.components := by
  have hall : ∀ s ∈ p.pieces, blank s = true := by
    intro s hs
    exact List.dropWhile_eq_nil_iff.mp h s (List.mem_reverse.mpr hs)
  rw [components_eq, List.filterMap_eq_nil_iff.mpr fun s hs => component?_eq_none.mpr (hall s hs),
    List.append_nil]

/-- The parent says what the path says, without its last component. -/
lemma components_parent {p : Path} {s : List UInt8} {before : List (List UInt8)}
    (h : p.spoken = s :: before) : ∃ q, p.parent = some q ∧
      q.components = p.lead.components ++ before.reverse.filterMap component? := by
  obtain ⟨-, blanks, hp, -⟩ := pieces_of_spoken h
  refine ⟨_, by rw [parent, h], ?_⟩
  have hsub : ∀ t ∈ (before.dropWhile blank).reverse, t ∈ before.reverse := fun t ht =>
    List.mem_reverse.mpr ((List.dropWhile_sublist blank).subset (List.mem_reverse.mp ht))
  rw [components_assemble, List.filterMap_reverse, filterMap_dropWhile_blank, ← List.filterMap_reverse]
  · exact fun t ht => slash_not_mem_pieces (p := p) (by rw [hp]; simp [List.mem_reverse.mp (hsub t ht)])
  · -- the first piece is still there if any piece before the last is
    intro hl t ht
    have hbytes : p.bytes ≠ [] := by
      intro h0
      have hempty : p = ⟨[]⟩ := congrArg mk h0
      rw [hempty] at h
      cases h
    obtain ⟨u, us, hu, hub⟩ := head_not_blank hl hbytes
    have hne : before.reverse ≠ [] := by
      intro h0
      have : before = [] := by simpa using h0
      simp [this] at ht
    obtain ⟨v, vs, hv⟩ := List.exists_cons_of_ne_nil hne
    have huv : u = v := by
      rw [hp, hv] at hu
      simpa using (List.cons.inj hu).1.symm
    have hdrop : (before.dropWhile blank).reverse.head? = some v := by
      have hbefore : before = vs.reverse ++ [v] := by
        rw [← List.reverse_reverse before, hv]
        simp
      have hvb : ¬ blank v = true := huv ▸ hub
      rw [hbefore, List.dropWhile_append]
      split
      · simp [hvb]
      · simp
    rw [hdrop] at ht
    cases ht
    exact huv ▸ hub

/-- A path that ends with a name says what its parent says, and then the name. -/
theorem components_of_entry {p : Path} {e : Entry} (h : p.entry? = some e) :
    p.components = e.dir.components ++ [.name e.name] := by
  cases hs : p.spoken with
  | nil =>
    have : p.fileName = none := by rw [fileName, hs]
    simp [this, entry?] at h
  | cons s before =>
    obtain ⟨q, hq, hqc⟩ := components_parent hs
    by_cases hd : s = [dot, dot]
    · have : p.fileName = none := by rw [fileName, hs]; simp [hd]
      simp [this, entry?] at h
    · have hn : p.fileName = some s := by rw [fileName, hs]; simp [hd]
      obtain rfl : (⟨q, s⟩ : Entry) = e := by simpa [hq, hn, entry?] using h
      rw [components_of_spoken hs, hqc, if_neg hd]

/-- A path whose last component is a name has an entry. -/
lemma entry?_isSome {p : Path} {cs : List Component} {n : FileName} (h : p.components = cs ++ [.name n]) :
    p.entry?.isSome = true := by
  cases hs : p.spoken with
  | nil =>
    have hc := components_of_spoken_nil hs
    rw [h] at hc
    cases hl : p.lead <;> simp [hl, Lead.components, List.append_eq_cons_iff] at hc
  | cons s before =>
    obtain ⟨q, hq, -⟩ := components_parent hs
    have hd : s ≠ [dot, dot] := by
      intro hd
      rw [components_of_spoken hs, if_pos hd] at h
      have := (List.append_inj' h rfl).2
      simp at this
    simp [hq, fileName, hs, hd, entry?]

/-- Two spellings of a path name the same entry. -/
theorem entry?_congr {p q : Path} (h : p.components = q.components) :
    p.entry?.map Keyed.key = q.entry?.map Keyed.key := by
  cases hp : p.entry? with
  | none =>
    cases hq : q.entry? with
    | none => rfl
    | some f =>
      have := entry?_isSome (h.trans (components_of_entry hq))
      simp [hp] at this
  | some e =>
    obtain ⟨f, hf⟩ := Option.isSome_iff_exists.mp (entry?_isSome (h.symm.trans (components_of_entry hp)))
    have hc : e.dir.components ++ [.name e.name] = f.dir.components ++ [.name f.name] := by
      rw [← components_of_entry hp, ← components_of_entry hf, h]
    obtain ⟨hdir, hname⟩ := List.append_inj' hc rfl
    obtain hname : e.name = f.name := by simpa using hname
    simp [hf, Keyed.key, hdir, hname]

/-! ### Clean paths -/

/-- A name that stands for itself in a path. -/
structure IsName (n : FileName) : Prop where
  slash_not_mem : slash ∉ n
  component : component? n = some (.name n)

lemma isName_of_mem_components {p : Path} {n : FileName} (h : .name n ∈ p.components) : IsName n := by
  rw [components_eq, List.mem_append] at h
  rcases h with h | h
  · cases hl : p.lead <;> simp [hl, Lead.components] at h
  · obtain ⟨s, hs, hc⟩ := List.mem_filterMap.mp h
    have hs' : s = n := by
      unfold component? at hc
      split at hc
      · cases hc
      · split at hc <;> simp_all
    exact hs' ▸ ⟨slash_not_mem_pieces hs, hs' ▸ hc⟩

lemma IsName.not_blank {n : FileName} (h : IsName n) : ¬ blank n = true := fun hb => by
  have := h.component
  rw [component?_eq_none.mpr hb] at this
  cases this

lemma IsName.ne_nil {n : FileName} (h : IsName n) : n ≠ [] := fun h0 => h.not_blank (by simp [h0, blank])

/-- The rooted path of these names. -/
def ofNames (ns : List FileName) : Path := assemble .root ns

variable {ns : List FileName}

lemma lead_ofNames (ns : List FileName) : (ofNames ns).lead = .root := by simp [ofNames, assemble, lead]

lemma spoken_ofNames (h : ∀ n ∈ ns, IsName n) : (ofNames ns).spoken = ns.reverse := by
  have hp : (ofNames ns).pieces = if ns = [] then [[]] else ns := by
    rw [pieces, lead_ofNames]
    simpa [ofNames, assemble] using splitOn_intercalate fun n hn => (h n hn).slash_not_mem
  rw [spoken, hp]
  by_cases hns : ns = []
  · simp [hns, blank]
  · rw [if_neg hns, List.dropWhile_eq_self_iff]
    intro hl hb
    exact (h _ (List.mem_reverse.mp (List.getElem_mem hl))).not_blank hb

lemma parent_ofNames_concat {n : FileName} (h : ∀ m ∈ ns ++ [n], IsName m) :
    (ofNames (ns ++ [n])).parent = some (ofNames ns) := by
  have hns : ns.reverse.dropWhile blank = ns.reverse := by
    rw [List.dropWhile_eq_self_iff]
    intro hl hb
    have := List.mem_reverse.mp (List.getElem_mem hl)
    exact (h _ (List.mem_append_left _ this)).not_blank hb
  rw [parent, spoken_ofNames h, List.reverse_append, lead_ofNames]
  simp [hns, ofNames]

lemma parent_ofNames_nil : (ofNames []).parent = none := by
  rw [parent, spoken_ofNames (by simp), lead_ofNames]
  rfl

lemma fileName_ofNames_concat {n : FileName} (h : ∀ m ∈ ns ++ [n], IsName m) :
    (ofNames (ns ++ [n])).fileName = some n := by
  have hd : n ≠ [dot, dot] := by
    intro hd
    have := (h n (by simp)).component
    simp [hd, component?, blank] at this
  rw [fileName, spoken_ofNames h, List.reverse_append]
  simp [hd]

lemma intercalate_concat {ss : List (List UInt8)} (h : ss ≠ []) (s : List UInt8) :
    [slash].intercalate (ss ++ [s]) = [slash].intercalate ss ++ slash :: s := by
  induction ss with
  | nil => exact absurd rfl h
  | cons t ts ih =>
    cases ts with
    | nil => simp
    | cons u us => simpa using ih (by simp)

/-- A piece that says something is put after the others. -/
lemma join_assemble {ss : List (List UInt8)} {s : List UInt8} (h : ∀ t ∈ ss ++ [s], slash ∉ t ∧ t ≠ []) :
    (assemble .root ss).join ⟨s⟩ = assemble .root (ss ++ [s]) := by
  obtain ⟨hslash, hne⟩ := h s (by simp)
  obtain ⟨b, bs, rfl⟩ := List.exists_cons_of_ne_nil hne
  have hb : b ≠ slash := fun he => hslash (by simp [he])
  rw [join, if_neg (by simp [isRooted, hb])]
  by_cases hss : ss = []
  · rw [if_pos (by simp [hss, assemble])]
    simp [hss, assemble]
  · -- the last byte is that of the last piece
    obtain ⟨ts, t, rfl⟩ := (List.eq_nil_or_concat' ss).resolve_left hss
    obtain ⟨htslash, htne⟩ := h t (by simp)
    have hlast : (assemble .root (ts ++ [t])).bytes.getLast? = t.getLast? := by
      have : ∃ pre, (assemble .root (ts ++ [t])).bytes = pre ++ t := by
        by_cases hts : ts = []
        · exact ⟨[slash], by simp [hts, assemble]⟩
        · refine ⟨slash :: ([slash].intercalate ts ++ [slash]), ?_⟩
          simp [assemble, intercalate_concat hts]
      obtain ⟨pre, hpre⟩ := this
      rw [hpre, List.getLast?_append_of_ne_nil _ htne]
    rw [if_neg]
    · simp only [assemble]
      rw [intercalate_concat (by simp : ts ++ [t] ≠ [])]
      rfl
    · rintro (h0 | h0)
      · simp [assemble] at h0
      · rw [hlast] at h0
        exact htslash (List.mem_of_getLast? h0)

lemma child_ofNames {n : FileName} (h : ∀ m ∈ ns ++ [n], IsName m) : (ofNames ns).child n = ofNames (ns ++ [n]) :=
  join_assemble fun m hm => ⟨(h m hm).slash_not_mem, (h m hm).ne_nil⟩

/-- Rooted, and written from names alone. -/
def Clean (p : Path) : Prop := ∃ ns, (∀ n ∈ ns, IsName n) ∧ p = ofNames ns

lemma clean_root : Clean root := ⟨[], by simp, rfl⟩

variable {p q : Path} {n : FileName}

lemma forall_mem_concat {ns : List FileName} (h : ∀ m ∈ ns, IsName m) (hn : IsName n) :
    ∀ m ∈ ns ++ [n], IsName m := by
  intro m hm
  rcases List.mem_append.mp hm with hm | hm
  · exact h m hm
  · exact List.mem_singleton.mp hm ▸ hn

lemma Clean.child (hp : Clean p) (hn : IsName n) : Clean (p.child n) := by
  obtain ⟨ns, h, rfl⟩ := hp
  exact ⟨ns ++ [n], forall_mem_concat h hn, child_ofNames (forall_mem_concat h hn)⟩

/-- An entry of a clean path is named by that path and its own name. -/
theorem Clean.entry?_child (hp : Clean p) (hn : IsName n) : Path.entry? (p.child n) = some ⟨p, n⟩ := by
  obtain ⟨ns, h, rfl⟩ := hp
  have h' := forall_mem_concat h hn
  rw [child_ofNames h', entry?, parent_ofNames_concat h', fileName_ofNames_concat h']

lemma Clean.pop (hp : Clean p) : Clean p.pop := by
  obtain ⟨ns, h, rfl⟩ := hp
  rcases List.eq_nil_or_concat' ns with rfl | ⟨ms, m, rfl⟩
  · rw [Path.pop, parent_ofNames_nil]
    exact clean_root
  · rw [Path.pop, parent_ofNames_concat (by simpa using h)]
    exact ⟨ms, fun k hk => h k (by simp [hk]), rfl⟩

end Path

end LinkWatch
