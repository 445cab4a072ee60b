import LinkWatch.Proofs.Table.Index
import LinkWatch.Table.Basic

/-!
What the steps of a table keep. Between the steps of its operations a table has targets that are *joining*
(entered, but not yet enlisted) and targets that are *leaving* (taken out, but not yet retired).
`Table.Filed` says how the targets are filed meanwhile, and every step keeps it. `Table.Indexed` also says what
the index holds: every interest that is noted is one of a target that is not retired, and every
target that stays is found under all its interests.

The index goes by requested paths, and two targets can have one path: an old one that is leaving and a new one.
So a step can spoil the index in two ways, and only in these: it notes an interest that is noted
already, and the directory is then counted twice (`Doubles`), or it forgets an interest of another
target that stays (`Robs`). A step that does neither keeps `Indexed`.
-/

namespace LinkWatch.Table

open Sorted (keys Ordered)

variable {t : Table}

/-! ### Targets -/

/-- The entries a target has an interest in. -/
def interestsOf (t : Table) (id : TargetId) : List EntryKey := keys (t.target id).resolution.interests

/-- What a target was requested as, however it is written. -/
def pathOf (t : Table) (id : TargetId) : List Component := (t.target id).requested.components

/-- The registered target of a path. -/
def At (t : Table) (p : List Component) (id : TargetId) : Prop := Sorted.find? p t.registered = some id

lemma find?_eq_some {p : Path} {id : TargetId} : t.find? p = some id ↔ t.At p.components id := Iff.rfl

lemma At.unique {p : List Component} {a b : TargetId} (ha : t.At p a) (hb : t.At p b) : a = b :=
  Option.some.inj (ha.symm.trans hb)

lemma mem_targets (h : Ordered t.registered) {id : TargetId} : id ∈ t.targets ↔ ∃ p, t.At p id := by
  rw [targets, List.mem_map]
  constructor
  · rintro ⟨⟨p, i⟩, hmem, rfl⟩
    exact ⟨_, h.find?_of_mem hmem⟩
  · rintro ⟨p, hp⟩
    obtain ⟨q, hq, -⟩ := Sorted.mem_of_find? hp
    exact ⟨(q, id), hq, rfl⟩

lemma target_modify (t : Table) (id : TargetId) (f : Target → Target) (j : TargetId) :
    (t.modify id f).target j = if j = id ∧ id < t.created.length then f (t.target j) else t.target j := by
  unfold target modify
  simp only [List.getElem?_modify]
  by_cases hj : j < t.created.length
  · rw [List.getElem?_eq_getElem hj]
    by_cases h : id = j
    · subst h
      simp [hj]
    · simp [h, Ne.symm h]
  · rw [List.getElem?_eq_none (Nat.le_of_not_lt hj)]
    have h : ¬ (j = id ∧ id < t.created.length) := fun h => hj (h.1 ▸ h.2)
    rw [if_neg h]
    rfl

/-- The table with one target more. -/
def entered (requested : Path) (r : Resolution) (t : Table) : Table :=
  { t with
    created := t.created ++ [{ requested, resolution := r }]
    registered := Sorted.alter requested (fun _ => t.created.length) t.registered }

lemma enter_of_some {p : Path} {r : Resolution} {id : TargetId} (h : t.find? p = some id) :
    t.enter p r = ((id, false), t) := by
  rw [enter, h]

lemma enter_of_none {p : Path} {r : Resolution} (h : t.find? p = none) :
    t.enter p r = ((t.created.length, true), t.entered p r) := by
  rw [enter, h]
  rfl

lemma target_entered (t : Table) (p : Path) (r : Resolution) (id : TargetId) :
    (t.entered p r).target id =
      if id = t.created.length then { requested := p, resolution := r } else t.target id := by
  unfold target entered
  rcases Nat.lt_trichotomy id t.created.length with h | rfl | h
  · simp [List.getElem?_append_left h, Nat.ne_of_lt h]
  · simp
  · rw [if_neg (Nat.ne_of_gt h), List.getElem?_eq_none (by simp; omega), List.getElem?_eq_none (by omega)]

/-! ### The law -/

variable {joining leaving : TargetId → Prop}

/-- How the targets are filed between the steps of a table. -/
structure Filed (joining leaving : TargetId → Prop) (t : Table) : Prop where
  ordered : Ordered t.registered
  known : ∀ {p id}, t.At p id → id < t.created.length ∧ t.pathOf id = p ∧ (t.target id).retired = false
  entered : ∀ {id}, joining id → id < t.created.length
  takenOut : ∀ {id}, leaving id → id < t.created.length ∧ (t.target id).retired = false ∧ ∀ p, ¬ t.At p id
  accounted : ∀ {id}, id < t.created.length → (t.target id).retired = false → (∃ p, t.At p id) ∨ leaving id

/-- What the index holds between the steps of a table. -/
structure Indexed (joining leaving : TargetId → Prop) (t : Table) : Prop extends Filed joining leaving t where
  index : t.index.Sound fun _ _ => 0
  held : ∀ {p k}, t.index.Concerns p k →
    ∃ id < t.created.length, (t.target id).retired = false ∧ t.pathOf id = p ∧ k ∈ t.interestsOf id
  found : ∀ {p id}, t.At p id → ¬ joining id → ∀ k ∈ t.interestsOf id, t.index.Concerns p k

/-- Noting the entries for a target notes one of them again. -/
def Doubles (t : Table) (id : TargetId) (ks : List EntryKey) : Prop := ∃ k ∈ ks, t.index.Concerns (t.pathOf id) k

/-- Forgetting the entries for a target takes one from another target, which is registered and enlisted. -/
def Robs (joining : TargetId → Prop) (t : Table) (id : TargetId) (ks : List EntryKey) : Prop :=
  ∃ j, t.At (t.pathOf id) j ∧ j ≠ id ∧ ¬ joining j ∧ ∃ k ∈ ks, k ∈ t.interestsOf j

lemma filed_empty : Filed (fun _ => False) (fun _ => False) {} where
  ordered := Sorted.ordered_nil
  known h := by simp [At] at h
  entered := False.elim
  takenOut := False.elim
  accounted h := by simp at h

lemma indexed_empty : Indexed (fun _ => False) (fun _ => False) {} where
  toFiled := filed_empty
  index := Index.sound_empty
  held h := by simp [Index.Concerns, Index.registration, Registration.paths] at h
  found h := by simp [At] at h

/-- How targets are filed depends on their paths and on who is registered and retired alone. -/
lemma Filed.congr {t' : Table} (h : Filed joining leaving t) (hlen : t'.created.length = t.created.length)
    (hreg : t'.registered = t.registered)
    (htarget : ∀ id, t'.pathOf id = t.pathOf id ∧ (t'.target id).retired = (t.target id).retired) :
    Filed joining leaving t' := by
  have hat : ∀ p id, t'.At p id ↔ t.At p id := fun p id => by rw [At, At, hreg]
  have hpath : ∀ id, t'.pathOf id = t.pathOf id := fun id => (htarget id).1
  have hret : ∀ id, (t'.target id).retired = (t.target id).retired := fun id => (htarget id).2
  constructor
  case ordered => exact hreg ▸ h.ordered
  all_goals simp only [hat, hpath, hret, hlen]
  · exact h.known
  · exact h.entered
  · exact h.takenOut
  · exact h.accounted

/-- Two tables that differ in their listeners and native watches alone. -/
structure Alike (t t' : Table) : Prop where
  length : t'.created.length = t.created.length
  registered : t'.registered = t.registered
  index : t'.index = t.index
  target : ∀ id, (t'.target id).requested = (t.target id).requested ∧
    (t'.target id).resolution = (t.target id).resolution ∧ (t'.target id).retired = (t.target id).retired

lemma Alike.refl (t : Table) : Alike t t := ⟨rfl, rfl, rfl, fun _ => ⟨rfl, rfl, rfl⟩⟩

lemma Alike.trans {t t' t'' : Table} (h : Alike t t') (h' : Alike t' t'') : Alike t t'' where
  length := h'.length.trans h.length
  registered := h'.registered.trans h.registered
  index := h'.index.trans h.index
  target id := ⟨(h'.target id).1.trans (h.target id).1, (h'.target id).2.1.trans (h.target id).2.1,
    (h'.target id).2.2.trans (h.target id).2.2⟩

lemma Alike.symm {t t' : Table} (h : Alike t t') : Alike t' t where
  length := h.length.symm
  registered := h.registered.symm
  index := h.index.symm
  target id := ⟨(h.target id).1.symm, (h.target id).2.1.symm, (h.target id).2.2.symm⟩

lemma Alike.targets {t t' : Table} (h : Alike t t') : t'.targets = t.targets :=
  congrArg (List.map Prod.snd) h.registered

lemma Alike.pathOf {t t' : Table} (h : Alike t t') (id : TargetId) : t'.pathOf id = t.pathOf id := by
  rw [Table.pathOf, Table.pathOf, (h.target id).1]

lemma Alike.interestsOf {t t' : Table} (h : Alike t t') (id : TargetId) : t'.interestsOf id = t.interestsOf id := by
  rw [Table.interestsOf, Table.interestsOf, (h.target id).2.1]

lemma alike_arm (t : Table) (dir : Path) : Alike t (t.arm dir) := ⟨rfl, rfl, rfl, fun _ => ⟨rfl, rfl, rfl⟩⟩

lemma alike_disarm (t : Table) (dir : Path) : Alike t (t.disarm dir) := ⟨rfl, rfl, rfl, fun _ => ⟨rfl, rfl, rfl⟩⟩

lemma alike_setListeners (scope : Scope) (s : ListenerSet) (t : Table) : Alike t (t.setListeners scope s) := by
  cases scope with
  | all => exact ⟨rfl, rfl, rfl, fun _ => ⟨rfl, rfl, rfl⟩⟩
  | only id =>
    refine ⟨List.length_modify .., rfl, rfl, fun j => ?_⟩
    rw [setListeners, target_modify]
    split <;> exact ⟨rfl, rfl, rfl⟩

lemma Filed.of_alike {t' : Table} (h : Filed joining leaving t) (ha : Alike t t') : Filed joining leaving t' :=
  h.congr ha.length ha.registered fun id => ⟨ha.pathOf id, (ha.target id).2.2⟩

/-- The law does not depend on listeners and native watches. -/
theorem Indexed.congr {t' : Table} (h : Indexed joining leaving t) (ha : Alike t t') : Indexed joining leaving t' where
  toFiled := h.toFiled.of_alike ha
  index := ha.index ▸ h.index
  held hc := by
    obtain ⟨id, hid, hret, hp, hk⟩ := h.held (ha.index ▸ hc)
    exact ⟨id, ha.length ▸ hid, (ha.target id).2.2.trans hret, (ha.pathOf id).trans hp, ha.interestsOf id ▸ hk⟩
  found hp hj k hk := by
    rw [At, ha.registered] at hp
    rw [ha.interestsOf] at hk
    exact ha.index ▸ h.found hp hj k hk

/-! ### Registration -/

lemma at_entered (h : Ordered t.registered) {p : Path} (hp : t.find? p = none) (r : Resolution)
    {q : List Component} {id : TargetId} :
    (t.entered p r).At q id ↔ (q = p.components ∧ id = t.created.length) ∨ t.At q id := by
  unfold At entered
  by_cases hq : q = p.components
  · subst hq
    have hnone : Sorted.find? p.components t.registered = none := hp
    rw [Sorted.find?_alter_self (Path.key_eq p) h, hnone]
    simp [eq_comm]
  · rw [Sorted.find?_alter_ne (show Keyed.key p ≠ q from Ne.symm hq)]
    simp [hq]

lemma length_entered (t : Table) (p : Path) (r : Resolution) :
    (t.entered p r).created.length = t.created.length + 1 := by
  simp [entered]

lemma target_entered_old (p : Path) (r : Resolution) {id : TargetId} (hid : id < t.created.length) :
    (t.entered p r).target id = t.target id := by
  rw [target_entered, if_neg (Nat.ne_of_lt hid)]

lemma target_entered_new (t : Table) (p : Path) (r : Resolution) :
    (t.entered p r).target t.created.length = { requested := p, resolution := r } := by
  rw [target_entered, if_pos rfl]

lemma Filed.enter (h : Filed joining leaving t) {p : Path} (hp : t.find? p = none) (r : Resolution) :
    Filed (fun j => joining j ∨ j = t.created.length) leaving (t.entered p r) := by
  have hlt : ∀ {id}, id < t.created.length → id < (t.entered p r).created.length := fun hid => by
    rw [length_entered]
    exact Nat.lt_succ_of_lt hid
  have hnew : t.created.length < (t.entered p r).created.length := by
    rw [length_entered]
    exact Nat.lt_succ_self _
  constructor
  case ordered => exact h.ordered.alter
  case known =>
    intro q id hq
    rcases (at_entered h.ordered hp r).mp hq with ⟨rfl, rfl⟩ | hq
    · exact ⟨hnew, by rw [pathOf, target_entered_new], by rw [target_entered_new]⟩
    · obtain ⟨hid, hpath, hret⟩ := h.known hq
      rw [pathOf, target_entered_old p r hid]
      exact ⟨hlt hid, hpath, hret⟩
  case entered =>
    rintro id (hj | rfl)
    · exact hlt (h.entered hj)
    · exact hnew
  case takenOut =>
    intro id hl
    obtain ⟨hid, hret, hno⟩ := h.takenOut hl
    rw [target_entered_old p r hid]
    refine ⟨hlt hid, hret, fun q hq => ?_⟩
    rcases (at_entered h.ordered hp r).mp hq with ⟨-, rfl⟩ | hq
    · exact Nat.lt_irrefl _ hid
    · exact hno q hq
  case accounted =>
    intro id hid hret
    by_cases hnewid : id = t.created.length
    · exact Or.inl ⟨p.components, (at_entered h.ordered hp r).mpr (Or.inl ⟨rfl, hnewid⟩)⟩
    · rw [length_entered] at hid
      have hid : id < t.created.length := Nat.lt_of_le_of_ne (Nat.le_of_lt_succ hid) hnewid
      rw [target_entered_old p r hid] at hret
      rcases h.accounted hid hret with ⟨q, hq⟩ | hl
      · exact Or.inl ⟨q, (at_entered h.ordered hp r).mpr (Or.inr hq)⟩
      · exact Or.inr hl

/-- A new target is joining. -/
theorem Indexed.enter (h : Indexed joining leaving t) {p : Path} (hp : t.find? p = none) (r : Resolution) :
    Indexed (fun j => joining j ∨ j = t.created.length) leaving (t.entered p r) where
  toFiled := h.toFiled.enter hp r
  index := h.index
  held hc := by
    obtain ⟨id, hid, hret, hpath, hk⟩ := h.held hc
    refine ⟨id, ?_, ?_⟩
    · rw [length_entered]
      exact Nat.lt_succ_of_lt hid
    · rw [pathOf, interestsOf, target_entered_old p r hid]
      exact ⟨hret, hpath, hk⟩
  found hq hj k hk := by
    rcases (at_entered h.ordered hp r).mp hq with ⟨-, rfl⟩ | hq
    · exact absurd (Or.inr rfl) hj
    · rw [interestsOf, target_entered_old p r (h.known hq).1] at hk
      exact h.found hq (fun hjj => hj (Or.inl hjj)) k hk

lemma enlist_of_retired {id : TargetId} (h : (t.target id).retired = true) : t.enlist id = ([], t) := by
  simp [enlist, h]

/-- The table with the interests of a target noted. -/
def enlisted (id : TargetId) (t : Table) : Table :=
  { t with
    index := (t.target id).resolution.interests.foldl (fun x e => x.add (t.target id).requested e) t.index }

lemma enlist_of_active {id : TargetId} (h : (t.target id).retired = false) :
    t.enlist id = ((t.target id).resolution.directories, t.enlisted id) := by
  simp [enlist, h, enlisted]

lemma concerns_enlisted {extra : List Component → List Component → Nat} (h : t.index.Sound extra) {id : TargetId}
    {p : List Component} {k : EntryKey} :
    (t.enlisted id).index.Concerns p k ↔ (p = t.pathOf id ∧ k ∈ t.interestsOf id) ∨ t.index.Concerns p k :=
  Index.concerns_addAll h

lemma Filed.enlist (h : Filed joining leaving t) (id : TargetId) :
    Filed (fun j => joining j ∧ j ≠ id) leaving (t.enlist id).2 := by
  have hless : Filed (fun j => joining j ∧ j ≠ id) leaving t := { h with entered := fun hj => h.entered hj.1 }
  refine hless.congr ?_ ?_ ?_ <;> unfold Table.enlist <;> dsimp only <;> split
  all_goals first | rfl | exact fun _ => ⟨rfl, rfl⟩

/-- A target that is enlisted stays, if none of its interests is noted yet. -/
theorem Indexed.enlist (h : Indexed joining leaving t) {id : TargetId} (hj : joining id)
    (hfresh : (t.target id).retired = false → ¬ t.Doubles id (t.interestsOf id)) :
    Indexed (fun j => joining j ∧ j ≠ id) leaving (t.enlist id).2 := by
  have hfiled := h.toFiled.enlist id
  by_cases hret : (t.target id).retired = true
  · rw [enlist_of_retired hret] at hfiled ⊢
    refine { toFiled := hfiled, index := h.index, held := h.held, found := ?_ }
    intro p j hp hjj
    refine h.found hp fun hj' => hjj ⟨hj', ?_⟩
    rintro rfl
    rw [(h.known hp).2.2] at hret
    cases hret
  · have hact : (t.target id).retired = false := by simpa using hret
    rw [enlist_of_active hact] at hfiled ⊢
    constructor
    case toFiled => exact hfiled
    case index =>
      exact h.index.addAll_fresh (Resolution.ordered_interests _).nodup fun k hk hc => hfresh hact ⟨k, hk, hc⟩
    case held =>
      intro p k hc
      rcases (concerns_enlisted h.index).mp hc with ⟨rfl, hk⟩ | hc
      · exact ⟨id, h.entered hj, hact, rfl, hk⟩
      · exact h.held hc
    case found =>
      intro p j hp hjj k hk
      refine (concerns_enlisted h.index).mpr ?_
      by_cases he : j = id
      · subst he
        exact Or.inl ⟨(h.known hp).2.1.symm, hk⟩
      · exact Or.inr (h.found hp (fun hj' => hjj ⟨hj', he⟩) k hk)

/-! ### Removal -/

/-- The table without the target of a path. -/
def takenOut (p : Path) (t : Table) : Table := { t with registered := Sorted.erase p.components t.registered }

lemma takeOut_of_some {p : Path} {id : TargetId} (h : t.find? p = some id) :
    t.takeOut p = (some id, t.takenOut p) := by
  rw [takeOut, h]
  rfl

lemma takeOut_of_none {p : Path} (h : t.find? p = none) : t.takeOut p = (none, t) := by
  rw [takeOut, h]

lemma at_takenOut {p : Path} {q : List Component} {id : TargetId} :
    (t.takenOut p).At q id ↔ q ≠ p.components ∧ t.At q id := Sorted.find?_erase

lemma Filed.takeOut (h : Filed joining leaving t) {p : Path} {id : TargetId} (hp : t.find? p = some id) :
    Filed joining (fun j => leaving j ∨ j = id) (t.takenOut p) where
  ordered := h.ordered.erase _
  known hq := h.known (at_takenOut.mp hq).2
  entered := h.entered
  takenOut := by
    rintro j (hl | rfl)
    · obtain ⟨hj, hret, hno⟩ := h.takenOut hl
      exact ⟨hj, hret, fun q hq => hno q (at_takenOut.mp hq).2⟩
    · obtain ⟨hj, hpath, hret⟩ := h.known hp
      refine ⟨hj, hret, fun q hq => ?_⟩
      obtain ⟨hne, hq⟩ := at_takenOut.mp hq
      exact hne ((h.known hq).2.1.symm.trans hpath)
  accounted := by
    intro j hj hret
    rcases h.accounted hj hret with ⟨q, hq⟩ | hl
    · by_cases he : q = p.components
      · subst he
        exact Or.inr (Or.inr (hq.unique hp))
      · exact Or.inl ⟨q, at_takenOut.mpr ⟨he, hq⟩⟩
    · exact Or.inr (Or.inl hl)

/-- A target that is taken out is leaving. -/
theorem Indexed.takeOut (h : Indexed joining leaving t) {p : Path} {id : TargetId} (hp : t.find? p = some id) :
    Indexed joining (fun j => leaving j ∨ j = id) (t.takenOut p) where
  toFiled := h.toFiled.takeOut hp
  index := h.index
  held := h.held
  found hq := h.found (at_takenOut.mp hq).2

lemma target_retire (t : Table) (id j : TargetId) :
    ((t.retire id).2.target j).requested = (t.target j).requested ∧
      ((t.retire id).2.target j).resolution = (t.target j).resolution := by
  have : (t.retire id).2.target j = (t.modify id fun x => { x with retired := true }).target j := rfl
  rw [this, target_modify]
  split <;> exact ⟨rfl, rfl⟩

lemma pathOf_retire (t : Table) (id j : TargetId) : (t.retire id).2.pathOf j = t.pathOf j := by
  rw [pathOf, pathOf, (target_retire t id j).1]

lemma interestsOf_retire (t : Table) (id j : TargetId) : (t.retire id).2.interestsOf j = t.interestsOf j := by
  rw [interestsOf, interestsOf, (target_retire t id j).2]

lemma active_retire (t : Table) {id j : TargetId} (hid : id < t.created.length) :
    ((t.retire id).2.target j).retired = false ↔ j ≠ id ∧ (t.target j).retired = false := by
  have : (t.retire id).2.target j = (t.modify id fun x => { x with retired := true }).target j := rfl
  rw [this, target_modify]
  by_cases hj : j = id <;> simp [hj, hid]

lemma length_modify (t : Table) (id : TargetId) (f : Target → Target) :
    (t.modify id f).created.length = t.created.length := List.length_modify ..

lemma length_retire (t : Table) (id : TargetId) : (t.retire id).2.created.length = t.created.length :=
  length_modify ..

lemma concerns_retire {extra : List Component → List Component → Nat} (h : t.index.Sound extra) {id : TargetId}
    {p : List Component} {k : EntryKey} :
    (t.retire id).2.index.Concerns p k ↔ ¬ (p = t.pathOf id ∧ k ∈ t.interestsOf id) ∧ t.index.Concerns p k :=
  Index.concerns_removeAll h

lemma Filed.retire (h : Filed joining leaving t) {id : TargetId} (hid : leaving id) :
    Filed joining (fun j => leaving j ∧ j ≠ id) (t.retire id).2 := by
  obtain ⟨hlt, -, hno⟩ := h.takenOut hid
  have hlen := length_retire t id
  have hactive : ∀ {j}, ((t.retire id).2.target j).retired = false ↔ j ≠ id ∧ (t.target j).retired = false :=
    active_retire t hlt
  constructor
  case ordered => exact h.ordered
  case known =>
    intro p j hp
    obtain ⟨hj, hpath, hret⟩ := h.known hp
    refine ⟨hlen ▸ hj, (pathOf_retire t id j).trans hpath, hactive.mpr ⟨?_, hret⟩⟩
    rintro rfl
    exact hno p hp
  case entered => exact fun hj => hlen ▸ h.entered hj
  case takenOut =>
    rintro j ⟨hl, hne⟩
    obtain ⟨hj, hret, hnoj⟩ := h.takenOut hl
    exact ⟨hlen ▸ hj, hactive.mpr ⟨hne, hret⟩, hnoj⟩
  case accounted =>
    intro j hj hret
    obtain ⟨hne, hret⟩ := hactive.mp hret
    exact (h.accounted (hlen ▸ hj) hret).imp_right fun hl => ⟨hl, hne⟩

/-- A leaving target is retired, unless that takes an interest from a target that stays. -/
theorem Indexed.retire (h : Indexed joining leaving t) {id : TargetId} (hid : leaving id)
    (hrob : ¬ t.Robs joining id (t.interestsOf id)) :
    Indexed joining (fun j => leaving j ∧ j ≠ id) (t.retire id).2 where
  toFiled := h.toFiled.retire hid
  index := h.index.removeAll _ _
  held := by
    intro p k hc
    obtain ⟨hnot, hc⟩ := (concerns_retire h.index).mp hc
    obtain ⟨j, hj, hret, hp, hk⟩ := h.held hc
    have hne : j ≠ id := by
      rintro rfl
      exact hnot ⟨hp.symm, hk⟩
    exact ⟨j, length_retire t id ▸ hj, (active_retire t (h.takenOut hid).1).mpr ⟨hne, hret⟩,
      (pathOf_retire t id j).trans hp, interestsOf_retire t id j ▸ hk⟩
  found := by
    intro p j hp hj k hk
    rw [interestsOf_retire] at hk
    refine (concerns_retire h.index).mpr ⟨?_, h.found hp hj k hk⟩
    rintro ⟨rfl, hkid⟩
    refine hrob ⟨j, hp, ?_, hj, k, hkid, hk⟩
    rintro rfl
    exact (h.takenOut hid).2.2 _ hp

/-! ### A change of where a target leads -/

lemma repoint_of_unchanged {id : TargetId} {r : Resolution}
    (h : (t.target id).retired = true ∨ (t.target id).resolution.same r = true) : t.repoint id r = (none, t) := by
  unfold repoint
  rw [if_pos (by simpa using h)]

/-- The index after a change of interests. -/
def moved (p : Path) (before after : List Entry) (x : Index) : Index :=
  (Sorted.diff before after).foldl (fun x e => x.remove p e)
    ((Sorted.diff after before).foldl (fun x e => x.add p e) x)

/-- The table with a new resolution of a target. -/
def repointed (id : TargetId) (r : Resolution) (t : Table) : Table :=
  { t.modify id fun target => { target with resolution := r } with
    index := moved (t.target id).requested (t.target id).resolution.interests r.interests t.index }

lemma repoint_of_changed {id : TargetId} {r : Resolution} (hact : (t.target id).retired = false)
    (hne : (t.target id).resolution.same r = false) :
    t.repoint id r = (some ((t.target id).resolution,
      Sorted.ofList (((t.target id).resolution.interests ++ r.interests).map Entry.dir)), t.repointed id r) := by
  unfold repoint
  rw [if_neg (by simp [hact, hne])]
  rfl

/-- A table is re-pointed, or it stays as it is. -/
lemma repoint_cases (t : Table) (id : TargetId) (r : Resolution) :
    t.repoint id r = (none, t) ∨
      (t.target id).retired = false ∧ (t.target id).resolution.same r = false ∧
        t.repoint id r = (some ((t.target id).resolution,
          Sorted.ofList (((t.target id).resolution.interests ++ r.interests).map Entry.dir)), t.repointed id r) := by
  by_cases hsame : (t.target id).retired = true ∨ (t.target id).resolution.same r = true
  · exact Or.inl (repoint_of_unchanged hsame)
  · obtain ⟨hact, hne⟩ := not_or.mp hsame
    rw [Bool.not_eq_true] at hact hne
    exact Or.inr ⟨hact, hne, repoint_of_changed hact hne⟩

lemma frame_repointed (t : Table) (id : TargetId) (r : Resolution) (j : TargetId) :
    ((t.repointed id r).target j).requested = (t.target j).requested ∧
      ((t.repointed id r).target j).retired = (t.target j).retired ∧
      ((t.repointed id r).target j).listeners = (t.target j).listeners := by
  have : (t.repointed id r).target j = (t.modify id fun x => { x with resolution := r }).target j := rfl
  rw [this, target_modify]
  split <;> exact ⟨rfl, rfl, rfl⟩

lemma pathOf_repointed (t : Table) (id : TargetId) (r : Resolution) (j : TargetId) :
    (t.repointed id r).pathOf j = t.pathOf j := by
  rw [pathOf, pathOf, (frame_repointed t id r j).1]

lemma target_repointed (t : Table) {id : TargetId} (hid : id < t.created.length) (r : Resolution) (j : TargetId) :
    (t.repointed id r).target j =
      if j = id then { t.target j with resolution := r } else t.target j := by
  have : (t.repointed id r).target j = (t.modify id fun x => { x with resolution := r }).target j := rfl
  rw [this, target_modify]
  simp [hid]

/-- The interests that a new resolution brings a target. -/
def gained (t : Table) (id : TargetId) (r : Resolution) : List EntryKey :=
  keys (Sorted.diff r.interests (t.target id).resolution.interests)

/-- The interests that a new resolution costs a target. -/
def lost (t : Table) (id : TargetId) (r : Resolution) : List EntryKey :=
  keys (Sorted.diff (t.target id).resolution.interests r.interests)

lemma mem_gained {id : TargetId} {r : Resolution} {k : EntryKey} :
    k ∈ t.gained id r ↔ k ∈ keys r.interests ∧ k ∉ t.interestsOf id := Sorted.mem_keys_diff

lemma mem_lost {id : TargetId} {r : Resolution} {k : EntryKey} :
    k ∈ t.lost id r ↔ k ∈ t.interestsOf id ∧ k ∉ keys r.interests := Sorted.mem_keys_diff

lemma Filed.repoint (h : Filed joining leaving t) (id : TargetId) (r : Resolution) :
    Filed joining leaving (t.repoint id r).2 := by
  rcases t.repoint_cases id r with heq | ⟨-, -, heq⟩ <;> rw [heq]
  · exact h
  · exact h.congr (length_modify ..) rfl fun j => ⟨pathOf_repointed t id r j, (frame_repointed t id r j).2.1⟩

lemma concerns_repointed {extra : List Component → List Component → Nat} (h : t.index.Sound extra) {id : TargetId}
    {r : Resolution} {p : List Component} {k : EntryKey} :
    (t.repointed id r).index.Concerns p k ↔ ¬ (p = t.pathOf id ∧ k ∈ t.lost id r) ∧
      ((p = t.pathOf id ∧ k ∈ t.gained id r) ∨ t.index.Concerns p k) := by
  obtain ⟨more, hmore, -⟩ := h.addAll (t.target id).requested
    (Sorted.diff r.interests (t.target id).resolution.interests)
  refine (Index.concerns_removeAll hmore).trans ?_
  rw [Index.concerns_addAll h]
  rfl

lemma interestsOf_repointed (t : Table) {id : TargetId} (hid : id < t.created.length) (r : Resolution) (j : TargetId) :
    (t.repointed id r).interestsOf j = if j = id then keys r.interests else t.interestsOf j := by
  rw [interestsOf, target_repointed t hid]
  split <;> rfl

/-- A target leads elsewhere, unless that notes an interest again or takes one from a target that stays. -/
theorem Indexed.repoint (h : Indexed joining leaving t) {id : TargetId} (hid : id < t.created.length) {r : Resolution}
    (hdouble : (t.target id).retired = false → ¬ t.Doubles id (t.gained id r))
    (hrob : (t.target id).retired = false → ¬ t.Robs joining id (t.lost id r)) :
    Indexed joining leaving (t.repoint id r).2 := by
  have hfiled := h.toFiled.repoint id r
  rcases t.repoint_cases id r with heq | ⟨hact, -, heq⟩
  · rw [heq]
    exact h
  rw [heq] at hfiled ⊢
  constructor
  case toFiled => exact hfiled
  case index =>
    refine (h.index.addAll_fresh ((Resolution.ordered_interests r).diff _).nodup fun k hk hc => ?_).removeAll _ _
    exact hdouble hact ⟨k, hk, hc⟩
  case held =>
    intro p k hc
    obtain ⟨hnot, hc⟩ := (concerns_repointed h.index).mp hc
    obtain ⟨j, hj, hactj, hp, hk⟩ : ∃ j < t.created.length, (t.target j).retired = false ∧ t.pathOf j = p ∧
        k ∈ (t.repointed id r).interestsOf j := by
      rcases hc with ⟨rfl, hk⟩ | hc
      · refine ⟨id, hid, hact, rfl, ?_⟩
        rw [interestsOf_repointed t hid, if_pos rfl]
        exact (mem_gained.mp hk).1
      · obtain ⟨j, hj, hactj, hp, hk⟩ := h.held hc
        refine ⟨j, hj, hactj, hp, ?_⟩
        rw [interestsOf_repointed t hid]
        split
        · rename_i he
          subst he
          by_contra hafter
          exact hnot ⟨hp.symm, mem_lost.mpr ⟨hk, hafter⟩⟩
        · exact hk
    exact ⟨j, (length_modify ..).symm ▸ hj, (frame_repointed t id r j).2.1.trans hactj,
      (pathOf_repointed t id r j).trans hp, hk⟩
  case found =>
    intro p j hp hj k hk
    rw [interestsOf_repointed t hid] at hk
    refine (concerns_repointed h.index).mpr ?_
    split at hk
    · rename_i he
      subst he
      refine ⟨fun hnot => (mem_lost.mp hnot.2).2 hk, ?_⟩
      by_cases hbefore : k ∈ t.interestsOf j
      · exact Or.inr (h.found hp hj k hbefore)
      · exact Or.inl ⟨(h.known hp).2.1.symm, mem_gained.mpr ⟨hk, hbefore⟩⟩
    · rename_i hne
      refine ⟨?_, Or.inr (h.found hp hj k hk)⟩
      rintro ⟨rfl, hlost⟩
      exact hrob hact ⟨j, hp, hne, hj, k, hlost, hk⟩

end LinkWatch.Table
