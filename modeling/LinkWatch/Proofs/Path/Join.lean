import LinkWatch.Proofs.Path

/-!
What a path says after another. After a rooted path, a path that is not rooted adds its own components, and a
leading dot of it no longer counts (`components_join`). So a rooted path says the same when it is written out
again (`components_tidy`), and clean paths that say the same are the same (`Clean.eq`).
-/

namespace LinkWatch.Path

/-! ### Leads -/

lemma exists_bytes_of_isRooted {p : Path} (h : p.isRooted = true) : ∃ bs, p.bytes = slash :: bs := by
  cases hp : p.bytes with
  | nil => simp [isRooted, hp] at h
  | cons b bs =>
    have hb : b = slash := by simpa [isRooted, hp] using h
    exact ⟨bs, by rw [hb]⟩

lemma isRooted_of_bytes {p : Path} {bs : List UInt8} (h : p.bytes = slash :: bs) : p.isRooted = true := by
  simp [isRooted, h]

lemma isRooted_of_lead {p : Path} (h : p.lead = .root) : p.isRooted = true := by
  unfold lead at h
  split at h
  · cases h
  · rename_i b bs hp
    split at h
    · rename_i hb
      rw [hb] at hp
      exact isRooted_of_bytes hp
    · split at h <;> cases h

lemma bytes_of_here {p : Path} (h : p.lead = .here) : p.bytes = [dot] ∨ ∃ bs, p.bytes = dot :: slash :: bs := by
  unfold lead at h
  split at h
  · cases h
  · rename_i b bs hp
    split at h
    · cases h
    · split at h
      · rename_i hd
        obtain ⟨rfl, rfl | hbs⟩ := hd
        · exact Or.inl hp
        · right
          cases bs with
          | nil => cases hbs
          | cons c cs =>
            obtain rfl : c = slash := Option.some.inj hbs
            exact ⟨cs, hp⟩
      · cases h

/-! ### Joining -/

lemma components_of_bytes {p : Path} {bs : List UInt8} (h : p.bytes = slash :: bs) :
    p.components = .root :: (bs.splitOn slash).filterMap component? := by
  have hlead : p.lead = .root := by simp [lead, h]
  have hpieces : p.pieces = bs.splitOn slash := by simp [pieces, hlead, h]
  rw [components_eq, hlead, hpieces]
  rfl

lemma component?_inner {s : List UInt8} {c : Component} (h : component? s = some c) : c ≠ .root ∧ c ≠ .here := by
  unfold component? at h
  split at h
  · cases h
  · split at h <;> cases h <;> simp

/-- What a path says apart from a dot that it starts with. -/
def said (p : Path) : List Component := p.components.filter (· ≠ .here)

lemma filter_pieces (ss : List (List UInt8)) :
    (ss.filterMap component?).filter (· ≠ .here) = ss.filterMap component? := by
  rw [List.filter_eq_self]
  intro c hc
  obtain ⟨s, -, hs⟩ := List.mem_filterMap.mp hc
  simpa using (component?_inner hs).2

/-- A path that is not rooted says its pieces; a dot that it starts with is a piece that says nothing. -/
lemma said_eq {p : Path} (h : p.isRooted = false) : p.said = (p.bytes.splitOn slash).filterMap component? := by
  cases hl : p.lead with
  | root => simp [isRooted_of_lead hl] at h
  | plain =>
    have hpieces : p.pieces = p.bytes.splitOn slash := by rw [pieces, hl]
    rw [said, components_eq, hl, hpieces]
    exact filter_pieces _
  | here =>
    have hpieces : p.pieces = (p.bytes.drop 2).splitOn slash := by rw [pieces, hl]
    have hsplit : (p.bytes.splitOn slash).filterMap component? = p.pieces.filterMap component? := by
      rw [hpieces]
      rcases bytes_of_here hl with hp | ⟨bs, hp⟩
      · rw [hp]
        decide
      · rw [hp, show dot :: slash :: bs = [dot] ++ slash :: bs from rfl, List.splitOn_append_cons_self,
          List.filterMap_append]
        rfl
    rw [said, components_eq, hl, List.filter_append, filter_pieces, hsplit]
    rfl

/-- After a rooted path, a path that is not rooted adds what it says. -/
theorem components_join {p q : Path} (hp : p.isRooted = true) (hq : q.isRooted = false) :
    (p.join q).components = p.components ++ q.said := by
  obtain ⟨bs, hbs⟩ := exists_bytes_of_isRooted hp
  rw [components_of_bytes hbs, said_eq hq]
  unfold join
  rw [if_neg (by simp [hq])]
  split
  · rename_i hlast
    have hlast := hlast.resolve_left (by simp [hbs])
    rcases List.eq_nil_or_concat' bs with rfl | ⟨cs, c, rfl⟩
    · have hbytes : (⟨p.bytes ++ q.bytes⟩ : Path).bytes = slash :: q.bytes := by simp [hbs]
      rw [components_of_bytes hbytes]
      rfl
    · obtain rfl : c = slash := by
        rw [hbs, ← List.cons_append, List.getLast?_concat] at hlast
        exact Option.some.inj hlast
      have hbytes : (⟨p.bytes ++ q.bytes⟩ : Path).bytes = slash :: (cs ++ slash :: q.bytes) := by simp [hbs]
      rw [components_of_bytes hbytes, List.splitOn_append_cons_self, List.splitOn_append_cons_self]
      simp [component?, blank]
  · have hbytes : (⟨p.bytes ++ slash :: q.bytes⟩ : Path).bytes = slash :: (bs ++ slash :: q.bytes) := by simp [hbs]
    rw [components_of_bytes hbytes, List.splitOn_append_cons_self]
    simp

lemma said_ofName {n : FileName} (hn : IsName n) : (ofName n).isRooted = false ∧ (ofName n).said = [.name n] := by
  have hroot : (ofName n).isRooted = false := by
    obtain ⟨b, bs, rfl⟩ := List.exists_cons_of_ne_nil hn.ne_nil
    have hb : b ≠ slash := fun he => hn.slash_not_mem (by simp [he])
    simp [ofName, isRooted, hb]
  refine ⟨hroot, ?_⟩
  rw [said_eq hroot, show (ofName n).bytes = n from rfl, List.splitOn_eq_singleton hn.slash_not_mem]
  simp [hn.component]

lemma components_child {p : Path} {n : FileName} (hp : p.isRooted = true) (hn : IsName n) :
    (p.child n).components = p.components ++ [.name n] := by
  obtain ⟨hroot, hsaid⟩ := said_ofName hn
  rw [child, components_join hp hroot, hsaid]

/-! ### Writing out -/

lemma isRooted_root : root.isRooted = true := by decide

lemma join_root (p : Path) : p.join root = root := by rw [join, if_pos isRooted_root]

lemma isRooted_join {p : Path} (h : p.isRooted = true) (q : Path) : (p.join q).isRooted = true := by
  obtain ⟨bs, hbs⟩ := exists_bytes_of_isRooted h
  unfold join
  split
  · assumption
  · split
    all_goals simp [isRooted, hbs]

/-- What a rooted path can say after its root. -/
inductive Inner : Component → Prop
  | up : Inner .up
  | name {n : FileName} : IsName n → Inner (.name n)

lemma components_of_isRooted {p : Path} (h : p.isRooted = true) :
    ∃ cs, p.components = .root :: cs ∧ ∀ c ∈ cs, Inner c := by
  obtain ⟨bs, hbs⟩ := exists_bytes_of_isRooted h
  have hcomponents := components_of_bytes hbs
  refine ⟨_, hcomponents, fun c hc => ?_⟩
  obtain ⟨s, -, hs⟩ := List.mem_filterMap.mp hc
  cases c with
  | root => exact absurd rfl (component?_inner hs).1
  | here => exact absurd rfl (component?_inner hs).2
  | up => exact .up
  | name n => exact .name (isName_of_mem_components (p := p) (by rw [hcomponents]; exact List.mem_cons_of_mem _ hc))

lemma components_join_inner {p : Path} (hp : p.isRooted = true) {c : Component} (hc : Inner c) :
    (p.join (ofComponent c)).components = p.components ++ [c] := by
  cases hc with
  | up => exact components_join hp (by decide)
  | name hn => exact components_child hp hn

lemma components_joinAll {cs : List Component} (hcs : ∀ c ∈ cs, Inner c) {p : Path} (hp : p.isRooted = true) :
    (cs.foldl (fun p c => p.join (ofComponent c)) p).isRooted = true ∧
      (cs.foldl (fun p c => p.join (ofComponent c)) p).components = p.components ++ cs := by
  induction cs generalizing p with
  | nil => simp [hp]
  | cons c cs ih =>
    obtain ⟨hrooted, hcomponents⟩ := ih (fun d hd => hcs d (by simp [hd])) (isRooted_join hp (ofComponent c))
    refine ⟨hrooted, ?_⟩
    rw [List.foldl_cons, hcomponents, components_join_inner hp (hcs c (by simp)), List.append_assoc]
    rfl

lemma tidy_spec {p : Path} (h : p.isRooted = true) : p.tidy.isRooted = true ∧ p.tidy.components = p.components := by
  obtain ⟨cs, hcs, hinner⟩ := components_of_isRooted h
  obtain ⟨hrooted, hcomponents⟩ := components_joinAll hinner isRooted_root
  have htidy : p.tidy = cs.foldl (fun p c => p.join (ofComponent c)) root := by
    rw [tidy, hcs]
    exact congrArg (fun q => cs.foldl (fun p c => p.join (ofComponent c)) q) (join_root empty)
  rw [htidy, hcs]
  exact ⟨hrooted, hcomponents⟩

lemma isRooted_tidy {p : Path} (h : p.isRooted = true) : p.tidy.isRooted = true := (tidy_spec h).1

/-- A rooted path says the same when it is written out again. -/
theorem components_tidy {p : Path} (h : p.isRooted = true) : p.tidy.components = p.components := (tidy_spec h).2

/-! ### Clean paths -/

lemma components_ofNames {ns : List FileName} (h : ∀ n ∈ ns, IsName n) :
    (ofNames ns).components = .root :: ns.map .name := by
  have hslash : ∀ n ∈ ns, slash ∉ n := fun n hn => (h n hn).slash_not_mem
  have hnames : ns.filterMap component? = ns.map .name := by
    induction ns with
    | nil => rfl
    | cons n ns ih =>
      rw [List.filterMap_cons_some (h n (by simp)).component, List.map_cons,
        ih (fun m hm => h m (by simp [hm])) fun m hm => hslash m (by simp [hm])]
  rw [ofNames, components_assemble hslash (by simp), hnames]
  rfl

lemma Clean.isRooted {p : Path} (hp : Clean p) : p.isRooted = true := by
  obtain ⟨ns, -, rfl⟩ := hp
  exact isRooted_of_lead (lead_ofNames ns)

lemma Clean.pop_child {p : Path} {n : FileName} (hp : Clean p) (hn : IsName n) : (p.child n).pop = p := by
  obtain ⟨ns, hns, rfl⟩ := hp
  have hall := forall_mem_concat hns hn
  rw [child_ofNames hall, Path.pop, parent_ofNames_concat hall, Option.getD_some]

lemma Clean.root_or_child {p : Path} (hp : Clean p) : p = root ∨ ∃ d n, Clean d ∧ IsName n ∧ p = d.child n := by
  obtain ⟨ns, hns, rfl⟩ := hp
  rcases List.eq_nil_or_concat' ns with rfl | ⟨ms, m, rfl⟩
  · exact Or.inl rfl
  · exact Or.inr ⟨ofNames ms, m, ⟨ms, fun n hn => hns n (by simp [hn]), rfl⟩, hns m (by simp), (child_ofNames hns).symm⟩

lemma Clean.of_entry {p : Path} {e : Entry} (hp : Clean p) (he : entry? p = some e) :
    Clean e.dir ∧ IsName e.name ∧ p = e.dir.child e.name := by
  rcases hp.root_or_child with rfl | ⟨d, n, hd, hn, rfl⟩
  · cases he
  · rw [hd.entry?_child hn] at he
    obtain rfl := Option.some.inj he
    exact ⟨hd, hn, rfl⟩

/-- Clean paths that say the same are the same. -/
theorem Clean.eq {p q : Path} (hp : Clean p) (hq : Clean q) (h : p.components = q.components) : p = q := by
  obtain ⟨ms, hms, rfl⟩ := hp
  obtain ⟨ns, hns, rfl⟩ := hq
  rw [components_ofNames hms, components_ofNames hns, List.cons_inj_right] at h
  rw [List.map_injective_iff.mpr (fun _ _ => Component.name.inj) h]

end LinkWatch.Path
