import LinkWatch.Proofs.Listener.Company

/-!
A register of listeners: every registration in order, and none is struck out because its listener has died. It tells
listeners apart that had the same key, and answers a request by the registrations of those that are alive.

A listener set drops the dead whenever it is used, and until then keeps them. Nobody who asks can tell the one from the
other: along every run the set gives the answers of the register (`run_register`).
-/

namespace LinkWatch.ListenerSet

/-- A listener, told from those that had its key before it. -/
structure Bearer where
  key : ListenerKey
  number : Nat
deriving DecidableEq

/-- The listener that has a key now. -/
def Outdoors.bearer (o : Outdoors) (k : ListenerKey) : Bearer := ⟨k, o.former k⟩

/-- The registrations that were not taken back, in order. -/
structure Register where
  entries : List (Bearer × Hold) := []

namespace Register

/-- A listener is alive as long as it is held outside or registered strongly. -/
def alive (o : Outdoors) (r : Register) (b : Bearer) : Bool :=
  b == o.bearer b.key && (o.held b.key || r.entries.contains (b, .strong))

/-- The registrations of live listeners, by key. -/
def present (o : Outdoors) (r : Register) : List (ListenerKey × Hold) :=
  (r.entries.filter fun x => r.alive o x.1).map fun x => (x.1.key, x.2)

/-- The keys of the live listeners, in the order of their registrations. -/
def live (o : Outdoors) (r : Register) : List ListenerKey := (r.present o).map Prod.fst

/-- Who is not live is registered, who is live can be taken out. -/
def request (o : Outdoors) (r : Register) : Request → Answer × Register
  | .add hold k =>
    if k ∈ r.live o then (.flag false, r) else (.flag true, ⟨r.entries ++ [(o.bearer k, hold)]⟩)
  | .remove k =>
    if k ∈ r.live o then (.flag true, ⟨r.entries.filter fun x => x.1 != o.bearer k⟩) else (.flag false, r)
  | .live => (.keys (r.live o), r)
  | .size => (.number (r.live o).length, r)
  | .isEmpty => (.flag (r.live o).isEmpty, r)

def keeper : Keeper Register where
  alive o r k := r.alive o (o.bearer k)
  isFree _ _ := true
  ask o q r := r.request o q

variable {o : Outdoors} {r : Register} {b : Bearer} {k : ListenerKey} {hold : Hold}

lemma alive_iff : r.alive o b = true ↔ b = o.bearer b.key ∧ (o.held b.key = true ∨ (b, .strong) ∈ r.entries) := by
  simp [alive]

lemma mem_present : (k, hold) ∈ r.present o ↔ (o.bearer k, hold) ∈ r.entries ∧ r.alive o (o.bearer k) = true := by
  rw [present, List.mem_map]
  constructor
  · rintro ⟨⟨b, hold'⟩, hmem, heq⟩
    obtain ⟨rfl, rfl⟩ : b.key = k ∧ hold' = hold := by simpa using heq
    obtain ⟨hmem, halive⟩ := List.mem_filter.mp hmem
    have hb : b = o.bearer b.key := (alive_iff.mp halive).1
    exact ⟨hb ▸ hmem, hb ▸ halive⟩
  · exact fun ⟨hmem, halive⟩ => ⟨_, List.mem_filter.mpr ⟨hmem, halive⟩, rfl⟩

/-- Who is registered strongly is alive. -/
lemma mem_present_strong : (k, .strong) ∈ r.present o ↔ (o.bearer k, .strong) ∈ r.entries :=
  mem_present.trans (and_iff_left_of_imp fun h => alive_iff.mpr ⟨rfl, .inr h⟩)

end Register

/-! ### The two agree -/

/-- A set and a register that have had the same requests. -/
structure Agree (o : Outdoors) (s : ListenerSet) (r : Register) : Prop where
  /-- Nobody is registered twice in the set. -/
  distinct : s.keys.Nodup
  /-- The register knows no listener that is still to come. -/
  known : ∀ x ∈ r.entries, x.1.number ≤ o.former x.1.key
  /-- The set has the registrations of the living. -/
  present : (s.entries.filter fun x => o.alive s x.1) = r.present o

variable {o o' : Outdoors} {s s' : ListenerSet} {r r' : Register} {k : ListenerKey} {hold : Hold} {q : Request}
  {m : ListenerStep} {answer : Option Answer}

namespace Agree

lemma live_eq (h : Agree o s r) : o.live s = r.live o := by
  rw [ListenerSet.live_eq, h.present, Register.live]

/-- The set owns whom the register has registered strongly. -/
lemma owns_iff (h : Agree o s r) (k : ListenerKey) : s.owns k = true ↔ (o.bearer k, .strong) ∈ r.entries := by
  rw [← Register.mem_present_strong, ← h.present, List.mem_filter, ListenerSet.owns_iff]
  exact (and_iff_left_of_imp fun hk => alive_of_owns (ListenerSet.owns_iff.mpr hk)).symm

lemma alive_eq (h : Agree o s r) (k : ListenerKey) : o.alive s k = r.alive o (o.bearer k) := by
  rw [Bool.eq_iff_iff, Register.alive_iff, Outdoors.alive, Bool.or_eq_true, h.owns_iff]
  exact (and_iff_right rfl).symm

lemma nodup_live (h : Agree o s r) : (r.live o).Nodup := by
  rw [← h.live_eq, ListenerSet.live_eq]
  exact h.distinct.sublist (List.filter_sublist.map _)

/-! Outside -/

/-- Listeners are dropped, or others that are alive come to be held. -/
lemma held (h : Agree o s r) (hformer : o'.former = o.former) (hle : ∀ k, o'.held k = true → o.alive s k = true) :
    Agree o' s r := by
  have hbearer : ∀ k, o'.bearer k = o.bearer k := fun k => by rw [Outdoors.bearer, hformer, Outdoors.bearer]
  have hset : ∀ k, o'.alive s k = true → o.alive s k = true := fun k hk => by
    rcases Bool.or_eq_true_iff.mp hk with hk | hk
    · exact hle k hk
    · exact alive_of_owns hk
  -- who is alive in the register now was alive before
  have hregister : ∀ b, r.alive o' b = (r.alive o b && o'.alive s b.key) := fun b => by
    rw [Bool.eq_iff_iff, Bool.and_eq_true, Register.alive_iff, hbearer]
    constructor
    · rintro ⟨hb, hwhy⟩
      have hkey : o'.alive s b.key = true := by
        rw [Outdoors.alive, Bool.or_eq_true, h.owns_iff, ← hb]
        exact hwhy
      refine ⟨?_, hkey⟩
      rw [hb, ← h.alive_eq]
      exact hset _ hkey
    · rintro ⟨hold, hkey⟩
      have hb := (Register.alive_iff.mp hold).1
      rw [Outdoors.alive, Bool.or_eq_true, h.owns_iff, ← hb] at hkey
      exact ⟨hb, hkey⟩
  refine ⟨h.distinct, fun x hx => hformer ▸ h.known x hx, ?_⟩
  calc s.entries.filter (fun x => o'.alive s x.1)
      = (s.entries.filter fun x => o.alive s x.1).filter fun x => o'.alive s x.1 := by
        rw [List.filter_filter]
        refine List.filter_congr fun x _ => ?_
        rw [Bool.eq_iff_iff, Bool.and_eq_true]
        exact ⟨fun hx => ⟨hx, hset _ hx⟩, And.left⟩
    _ = (r.present o).filter fun x => o'.alive s x.1 := by rw [h.present]
    _ = r.present o' := by
        rw [Register.present, Register.present, List.filter_map, List.filter_filter]
        congr 1
        refine List.filter_congr fun x _ => ?_
        rw [hregister, Bool.and_comm]
        rfl

/-- A key of which the set knows nothing is given to another listener. -/
lemma create (h : Agree o s r) (hdead : o.alive s k = false) (hfree : s.contains k = false) :
    Agree (o.create k) s r := by
  have hne : ∀ x ∈ s.entries, x.1 ≠ k := by
    rintro x hx rfl
    have hc := contains_iff.mpr (List.mem_map_of_mem hx)
    rw [hfree] at hc
    cases hc
  have hformer : ∀ k', (o.create k).former k' = if k' = k then o.former k + 1 else o.former k' := fun k' =>
    Function.update_apply ..
  have hheld : ∀ {k'}, k' ≠ k → (o.create k).held k' = o.held k' := fun hk => Function.update_of_ne hk ..
  refine ⟨h.distinct, fun x hx => ?_, ?_⟩
  · have hx := h.known x hx
    rw [hformer]
    split
    · rename_i hk
      exact Nat.le_succ_of_le (hk ▸ hx)
    · exact hx
  · have hset : (s.entries.filter fun x => (o.create k).alive s x.1) = s.entries.filter fun x => o.alive s x.1 :=
      List.filter_congr fun x hx => by rw [Outdoors.alive, hheld (hne x hx), Outdoors.alive]
    have hregister : (r.entries.filter fun x => r.alive (o.create k) x.1) = r.entries.filter fun x => r.alive o x.1 :=
      List.filter_congr fun x hx => by
        by_cases hk : x.1.key = k
        · -- who had the key before is dead
          have hold : r.alive o x.1 = false := by
            rw [← Bool.not_eq_true]
            intro hx
            rw [(Register.alive_iff.mp hx).1, hk, ← h.alive_eq, hdead] at hx
            cases hx
          have hnew : r.alive (o.create k) x.1 = false := by
            rw [← Bool.not_eq_true]
            intro halive
            have hnumber : x.1.number = (o.create k).former x.1.key :=
              congrArg Bearer.number (Register.alive_iff.mp halive).1
            have hknown := h.known x hx
            rw [hformer, if_pos hk] at hnumber
            rw [hk] at hknown
            omega
          rw [hold, hnew]
        · rw [Register.alive, Register.alive, hheld hk, Outdoors.bearer, hformer, if_neg hk]
          rfl
    rw [hset, h.present, Register.present, Register.present, hregister]

/-! Requests -/

lemma entries_prune (h : Agree o s r) : (s.prune (o.alive s)).entries = r.present o :=
  (ListenerSet.entries_prune fun _ hk => alive_of_owns hk).trans h.present

lemma keys_prune (h : Agree o s r) : (s.prune (o.alive s)).keys = r.live o := by
  rw [keys, h.entries_prune, Register.live]

lemma contains_prune (h : Agree o s r) (k : ListenerKey) :
    (s.prune (o.alive s)).contains k = decide (k ∈ r.live o) := by
  rw [Bool.eq_iff_iff, contains_iff, h.keys_prune, decide_eq_true_iff]

/-- The set drops the dead. -/
lemma prune (h : Agree o s r) : Agree o (s.prune (o.alive s)) r := by
  refine ⟨h.distinct.sublist ((sublist_prune ..).map _), h.known, ?_⟩
  have halive : o.alive (s.prune (o.alive s)) = o.alive s := funext fun k => by
    rw [Outdoors.alive, owns_prune, Outdoors.alive]
  rw [halive, h.entries_prune, ← h.present, List.filter_filter]
  simp

/-- A listener that is held outside and not live is registered. -/
lemma add (h : Agree o s r) (hheld : o.held k = true) (hnew : k ∉ r.live o) (hold : Hold) :
    Agree o ⟨(s.prune (o.alive s)).entries ++ [(k, hold)]⟩ ⟨r.entries ++ [(o.bearer k, hold)]⟩ := by
  refine ⟨?_, fun x hx => ?_, ?_⟩
  · rw [keys, List.map_append]
    refine List.nodup_append.mpr ⟨h.prune.distinct, by simp, fun a ha b hb => ?_⟩
    obtain rfl : b = k := by simpa using hb
    rintro rfl
    exact hnew (h.keys_prune ▸ ha)
  · rcases List.mem_append.mp hx with hx | hx
    · exact h.known x hx
    · obtain rfl : x = (o.bearer k, hold) := by simpa using hx
      exact Nat.le_refl _
  · -- who is registered strongly now was alive before
    have hset : ∀ k', o.alive ⟨(s.prune (o.alive s)).entries ++ [(k, hold)]⟩ k' = o.alive s k' := fun k' => by
      rw [Bool.eq_iff_iff, Outdoors.alive, Outdoors.alive, Bool.or_eq_true, Bool.or_eq_true, ListenerSet.owns_iff,
        List.mem_append, ← ListenerSet.owns_iff, owns_prune]
      constructor
      · rintro (hk | hk | hk)
        · exact .inl hk
        · exact .inr hk
        · obtain ⟨rfl, -⟩ : k' = k ∧ _ := by simpa using hk
          exact .inl hheld
      · exact Or.imp_right .inl
    have hregister : ∀ b, Register.alive o ⟨r.entries ++ [(o.bearer k, hold)]⟩ b = r.alive o b := fun b => by
      rw [Bool.eq_iff_iff, Register.alive_iff, Register.alive_iff]
      refine and_congr_right fun _ => ?_
      constructor
      · rintro (hb | hb)
        · exact .inl hb
        · rcases List.mem_append.mp hb with hb | hb
          · exact .inr hb
          · obtain ⟨rfl, -⟩ : b = o.bearer k ∧ _ := by simpa using hb
            exact .inl hheld
      · exact Or.imp_right (List.mem_append_left _)
    simp only [hset, Register.present, hregister]
    rw [List.filter_append, List.filter_append, List.map_append, ← Register.present, h.entries_prune, ← h.present,
      List.filter_filter]
    have hk : o.alive s k = true := alive_of_held hheld
    have hbearer : r.alive o (o.bearer k) = true := (h.alive_eq k).symm.trans hk
    simp [hk, hbearer]
    rfl

/-- A live listener is taken out. -/
lemma remove (h : Agree o s r) (k : ListenerKey) :
    Agree o ⟨(s.prune (o.alive s)).entries.filter fun x => !(x.1 == k)⟩
      ⟨r.entries.filter fun x => x.1 != o.bearer k⟩ := by
  refine ⟨h.prune.distinct.sublist (List.filter_sublist.map _), fun x hx => h.known x (List.mem_filter.mp hx).1, ?_⟩
  have hset : ∀ x ∈ (s.prune (o.alive s)).entries.filter fun x => !(x.1 == k),
      o.alive ⟨(s.prune (o.alive s)).entries.filter fun x => !(x.1 == k)⟩ x.1 = true := by
    intro x hx
    obtain ⟨hmem, hne⟩ := List.mem_filter.mp hx
    rw [h.entries_prune, ← h.present] at hmem
    have halive := (List.mem_filter.mp hmem).2
    rw [Outdoors.alive, Bool.or_eq_true] at halive ⊢
    refine halive.imp_right fun howns => ListenerSet.owns_iff.mpr (List.mem_filter.mpr ⟨?_, hne⟩)
    rw [← owns_prune (o.alive s)] at howns
    exact ListenerSet.owns_iff.mp howns
  have hregister : ∀ b, b ≠ o.bearer k →
      Register.alive o ⟨r.entries.filter fun x => x.1 != o.bearer k⟩ b = r.alive o b := fun b hb => by
    rw [Bool.eq_iff_iff, Register.alive_iff, Register.alive_iff, List.mem_filter]
    simp [hb]
  rw [List.filter_eq_self.mpr hset, h.entries_prune, Register.present, Register.present, List.filter_map,
    List.filter_filter, List.filter_filter]
  congr 1
  refine List.filter_congr fun x _ => ?_
  by_cases hb : x.1 = o.bearer k
  · simp [hb, Outdoors.bearer]
  · rw [hregister _ hb]
    cases halive : r.alive o x.1 with
    | false => simp
    | true =>
      have hkey : x.1.key ≠ k := fun hk => hb (hk ▸ (Register.alive_iff.mp halive).1)
      have hb' : (x.1 == o.bearer k) = false := beq_eq_false_iff_ne.mpr hb
      have hkey' : (x.1.key == k) = false := beq_eq_false_iff_ne.mpr hkey
      simp [bne, hb', hkey']

/-- Both answer a request alike. -/
lemma request (h : Agree o s r) (hq : o.permits q = true) :
    (s.request o q).1 = (r.request o q).1 ∧ Agree o (s.request o q).2 (r.request o q).2 := by
  cases q with
  | add hold k =>
    have hc := h.contains_prune k
    by_cases hk : k ∈ r.live o
    · rw [ListenerSet.request, add_of_contains (hc.trans (decide_eq_true hk)), Register.request, if_pos hk]
      exact ⟨rfl, h.prune⟩
    · rw [ListenerSet.request, add_of_not_contains (hc.trans (decide_eq_false hk)), Register.request, if_neg hk]
      exact ⟨rfl, h.add hq hk hold⟩
  | remove k =>
    have hc := h.contains_prune k
    by_cases hk : k ∈ r.live o
    · rw [Register.request, if_pos hk]
      exact ⟨congrArg Answer.flag (hc.trans (decide_eq_true hk)), h.remove k⟩
    · rw [Register.request, if_neg hk]
      refine ⟨congrArg Answer.flag (hc.trans (decide_eq_false hk)), ?_⟩
      have hself : ((s.prune (o.alive s)).entries.filter fun x => !(x.1 == k)) = (s.prune (o.alive s)).entries :=
        List.filter_eq_self.mpr fun x hx => by
          have hne : x.1 ≠ k := by
            rintro rfl
            exact hk (h.keys_prune ▸ List.mem_map_of_mem hx)
          simpa using hne
      have hsame : (s.request o (.remove k)).2 = s.prune (o.alive s) := congrArg ListenerSet.mk hself
      exact hsame ▸ h.prune
  | live => exact ⟨congrArg Answer.keys h.keys_prune, h.prune⟩
  | size =>
    have hlength : (s.prune (o.alive s)).entries.length = (r.live o).length := by
      rw [← h.keys_prune, List.length_map]
    exact ⟨congrArg Answer.number hlength, h.prune⟩
  | isEmpty =>
    have hlength : (s.prune (o.alive s)).entries.length = (r.live o).length := by
      rw [← h.keys_prune, List.length_map]
    refine ⟨congrArg Answer.flag ?_, h.prune⟩
    rw [hlength, Bool.eq_iff_iff, beq_iff_eq, List.length_eq_zero_iff, List.isEmpty_iff]

/-- A step of the set is one of the register, with the same answer. -/
lemma step (h : Agree o s r) (hstep : ListenerSet.keeper.step (o, s) m = some (answer, o', s')) :
    ∃ r', Register.keeper.step (o, r) m = some (answer, o', r') ∧ Agree o' s' r' := by
  rcases step_cases hstep with
    ⟨q, rfl, hq, rfl, rfl, rfl⟩ | ⟨rfl, rfl, ⟨k, rfl, rfl⟩ | ⟨k, rfl, hk, rfl⟩ | ⟨k, rfl, hdead, hfree, rfl⟩⟩
  · obtain ⟨hanswer, hagree⟩ := h.request hq
    refine ⟨_, ?_, hagree⟩
    rw [Keeper.step, if_pos hq, hanswer]
    rfl
  · exact ⟨r, rfl, h.held rfl fun k' hk' => alive_of_held (Outdoors.held_drop.mp hk').1⟩
  · refine ⟨r, if_pos ((h.alive_eq k).symm.trans hk), h.held rfl fun k' hk' => ?_⟩
    rcases Outdoors.held_hold.mp hk' with hk' | rfl
    · exact alive_of_held hk'
    · exact hk
  · have hregister : (!Register.keeper.alive o r k && Register.keeper.isFree r k) = true := by
      have halive : Register.keeper.alive o r k = false := (h.alive_eq k).symm.trans hdead
      rw [halive]
      rfl
    exact ⟨r, if_pos hregister, h.create hdead hfree⟩

lemma run {moves : List ListenerStep} {answers : List Answer} (h : Agree o s r)
    (hrun : ListenerSet.keeper.run moves (o, s) = some (answers, o', s')) :
    ∃ r', Register.keeper.run moves (o, r) = some (answers, o', r') ∧ Agree o' s' r' := by
  induction moves generalizing o s r answers with
  | nil =>
    obtain ⟨rfl, rfl, rfl⟩ : [] = answers ∧ o = o' ∧ s = s' := by simpa [Keeper.run] using hrun
    exact ⟨r, rfl, h⟩
  | cons m moves ih =>
    obtain ⟨a, ⟨o₁, s₁⟩, as, hstep, hrest, rfl⟩ := Keeper.run_cons.mp hrun
    obtain ⟨r₁, hstep', h₁⟩ := h.step hstep
    obtain ⟨r', hrest', h'⟩ := ih h₁ hrest
    exact ⟨r', Keeper.run_cons.mpr ⟨a, (o₁, r₁), as, hstep', hrest', rfl⟩, h'⟩

end Agree

lemma agree_empty (o : Outdoors) : Agree o {} {} := ⟨List.nodup_nil, by simp, rfl⟩

/-- **A set answers as a register does.** Whatever is asked of it, and whatever becomes of the listeners outside between
two requests, a register that strikes out nobody gives the same answers by the registrations of the living. The
listeners that are live then come in the order in which they were registered, each once. -/
theorem run_register {o : Outdoors} {moves : List ListenerStep} {answers : List Answer}
    (h : keeper.run moves (o, {}) = some (answers, o', s)) :
    ∃ r : Register, Register.keeper.run moves (o, {}) = some (answers, o', r) ∧ o'.live s = r.live o' ∧
      (r.live o').Nodup ∧ ∀ k, o'.alive s k = r.alive o' (o'.bearer k) := by
  obtain ⟨r, hrun, hagree⟩ := (agree_empty o).run h
  exact ⟨r, hrun, hagree.live_eq, hagree.nodup_live, hagree.alive_eq⟩

/-- Two listeners are registered, the first dies unnoticed, and once a look has dropped it a third one gets its key. -/
def succession : List ListenerStep :=
  [.create 0, .create 1, .request (.add .weak 0), .request (.add .strong 1), .drop 0, .drop 1, .request .live,
    .create 0, .request (.remove 0), .request (.add .weak 0), .request .size, .request .live]

theorem run_register_succession : ∃ o s,
    keeper.run succession ({}, {}) = some
      ([.flag true, .flag true, .keys [1], .flag false, .flag true, .number 2, .keys [1, 0]], o, s) ∧
    ∃ r : Register, Register.keeper.run succession ({}, {}) = some
        ([.flag true, .flag true, .keys [1], .flag false, .flag true, .number 2, .keys [1, 0]], o, r) ∧
      o.live s = r.live o ∧ (r.live o).Nodup ∧ ∀ k, o.alive s k = r.alive o (o.bearer k) :=
  ⟨_, _, rfl, run_register rfl⟩

end LinkWatch.ListenerSet
