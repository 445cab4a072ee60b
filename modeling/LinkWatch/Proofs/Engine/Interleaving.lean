import LinkWatch.Proofs.Engine.Reachable
import LinkWatch.Proofs.Table.Kept

/-!
Calls that run at the same time. A registration takes three steps that cannot be divided (`enter`, `enlist`,
`sync`), a removal three (`takeOut`, `retire`, `sync`) and a change of where a target leads two (`repoint`,
`sync`); the steps of different calls come in any order.

The index goes by requested paths, and two targets can have one path while one of them is leaving. A step
*clashes* if it notes an interest that is noted already, or forgets one of another target that stays. As long as
no step clashes, every table at rest keeps what it owes its targets. After a clash the calls can return so that a
target is not found, or a directory is held for nobody (`Smooth.kept_unless_clash`).
-/

namespace LinkWatch.Engine

variable {σ : Type}

/-! ### Steps of calls -/

/-- An engine with calls under way. -/
structure Busy (σ : Type) where
  engine : Engine σ
  /-- Targets that were entered and are still to be enlisted. -/
  joining : List TargetId := []
  /-- Targets that were taken out and are still to be retired. -/
  leaving : List TargetId := []
  /-- The directories that calls have touched and are still to bring in line. -/
  touched : List (List Path) := []

/-- A step of a call. -/
inductive CallStep where
  | enter (p : Path) (r : Resolution)
  | enlist (id : TargetId)
  | takeOut (p : Path)
  | retire (id : TargetId)
  | repoint (id : TargetId) (r : Resolution)
  | sync (dirs : List Path)

/-- The engine with another table. -/
def withTable (e : Engine σ) (t : Table) : Engine σ := { e with table := t }

/-- Takes a step, if a call is there to take it. -/
def Busy.step (native : NativeWatches σ) (s : Busy σ) : CallStep → Option (Busy σ)
  | .enter p r =>
    let (found, t) := s.engine.table.enter p r
    some { s with engine := s.engine.withTable t, joining := if found.2 then found.1 :: s.joining else s.joining }
  | .enlist id =>
    let (dirs, t) := s.engine.table.enlist id
    if id ∈ s.joining then
      some { s with engine := s.engine.withTable t, joining := s.joining.erase id, touched := dirs :: s.touched }
    else none
  | .takeOut p =>
    let (found, t) := s.engine.table.takeOut p
    some { s with engine := s.engine.withTable t, leaving := found.toList ++ s.leaving }
  | .retire id =>
    let (dirs, t) := s.engine.table.retire id
    if id ∈ s.leaving then
      some { s with engine := s.engine.withTable t, leaving := s.leaving.erase id, touched := dirs :: s.touched }
    else none
  | .repoint id r =>
    let (changed, t) := s.engine.table.repoint id r
    if id < s.engine.table.created.length then
      some { s with engine := s.engine.withTable t, touched := (changed.map Prod.snd).toList ++ s.touched }
    else none
  | .sync dirs =>
    if dirs ∈ s.touched then
      some { s with engine := s.engine.sync native dirs, touched := s.touched.erase dirs }
    else none

/-- Every call that was started has returned. -/
structure Busy.AtRest (s : Busy σ) : Prop where
  joining : s.joining = []
  leaving : s.leaving = []
  touched : s.touched = []

/-- The step notes an interest that is noted already, or forgets one of another target that stays. -/
def Busy.Clashes (s : Busy σ) : CallStep → Prop
  | .enlist id =>
    (s.engine.table.target id).retired = false ∧ s.engine.table.Doubles id (s.engine.table.interestsOf id)
  | .retire id => s.engine.table.Robs (· ∈ s.joining) id (s.engine.table.interestsOf id)
  | .repoint id r =>
    (s.engine.table.target id).retired = false ∧
      (s.engine.table.Doubles id (s.engine.table.gained id r) ∨
        s.engine.table.Robs (· ∈ s.joining) id (s.engine.table.lost id r))
  | _ => False

/-- What calls can lead to as long as no step of theirs clashes. -/
inductive Smooth (native : NativeWatches σ) : Busy σ → Prop
  | start {e : Engine σ} : e.table = {} → Smooth native { engine := e }
  | step {s s' : Busy σ} {m : CallStep} : Smooth native s → ¬ s.Clashes m → s.step native m = some s' → Smooth native s'

/-- Steps of calls lead from one state to the other, whether they clash or not. -/
abbrev Leads (native : NativeWatches σ) : Busy σ → Busy σ → Prop :=
  Relation.ReflTransGen fun s s' => ∃ m, s.step native m = some s'

/-- What a step can do. -/
inductive Busy.Stepped (native : NativeWatches σ) (s : Busy σ) : CallStep → Busy σ → Prop
  | known {p : Path} {r : Resolution} {id : TargetId} : s.engine.table.find? p = some id →
      Stepped native s (.enter p r) s
  | enter {p : Path} {r : Resolution} : s.engine.table.find? p = none →
      Stepped native s (.enter p r)
        { s with
          engine := s.engine.withTable (s.engine.table.entered p r)
          joining := s.engine.table.created.length :: s.joining }
  | enlist {id : TargetId} {dirs : List Path} : id ∈ s.joining →
      Stepped native s (.enlist id)
        { s with
          engine := s.engine.withTable (s.engine.table.enlist id).2
          joining := s.joining.erase id
          touched := dirs :: s.touched }
  | absent {p : Path} : s.engine.table.find? p = none → Stepped native s (.takeOut p) s
  | takeOut {p : Path} {id : TargetId} : s.engine.table.find? p = some id →
      Stepped native s (.takeOut p)
        { s with engine := s.engine.withTable (s.engine.table.takenOut p), leaving := id :: s.leaving }
  | retire {id : TargetId} {dirs : List Path} : id ∈ s.leaving →
      Stepped native s (.retire id)
        { s with
          engine := s.engine.withTable (s.engine.table.retire id).2
          leaving := s.leaving.erase id
          touched := dirs :: s.touched }
  | repoint {id : TargetId} {r : Resolution} {dirs : List (List Path)} : id < s.engine.table.created.length →
      Stepped native s (.repoint id r)
        { s with engine := s.engine.withTable (s.engine.table.repoint id r).2, touched := dirs ++ s.touched }
  | sync {dirs : List Path} : dirs ∈ s.touched →
      Stepped native s (.sync dirs)
        { s with engine := s.engine.sync native dirs, touched := s.touched.erase dirs }

variable {native : NativeWatches σ} {s s' : Busy σ} {m : CallStep}

lemma step_enlist {id : TargetId} (hid : id ∈ s.joining) : s.step native (.enlist id) = some
    { s with
      engine := s.engine.withTable (s.engine.table.enlist id).2
      joining := s.joining.erase id
      touched := (s.engine.table.enlist id).1 :: s.touched } := if_pos hid

lemma step_retire {id : TargetId} (hid : id ∈ s.leaving) : s.step native (.retire id) = some
    { s with
      engine := s.engine.withTable (s.engine.table.retire id).2
      leaving := s.leaving.erase id
      touched := (s.engine.table.retire id).1 :: s.touched } := if_pos hid

lemma step_sync {dirs : List Path} (hdirs : dirs ∈ s.touched) : s.step native (.sync dirs) = some
    { s with engine := s.engine.sync native dirs, touched := s.touched.erase dirs } := if_pos hdirs

lemma Busy.stepped (h : s.step native m = some s') : s.Stepped native m s' := by
  cases m with
  | enter p r =>
    cases hp : s.engine.table.find? p with
    | some id =>
      simp only [Busy.step, Table.enter_of_some hp, Bool.false_eq_true, if_false, Option.some.injEq] at h
      exact h ▸ .known hp
    | none =>
      simp only [Busy.step, Table.enter_of_none hp, if_true, Option.some.injEq] at h
      exact h ▸ .enter hp
  | enlist id =>
    simp only [Busy.step, Option.ite_none_right_eq_some, Option.some.injEq] at h
    exact h.2 ▸ .enlist h.1
  | takeOut p =>
    cases hp : s.engine.table.find? p with
    | none =>
      simp only [Busy.step, Table.takeOut_of_none hp, Option.some.injEq] at h
      exact h ▸ .absent hp
    | some id =>
      simp only [Busy.step, Table.takeOut_of_some hp, Option.some.injEq] at h
      exact h ▸ .takeOut hp
  | retire id =>
    simp only [Busy.step, Option.ite_none_right_eq_some, Option.some.injEq] at h
    exact h.2 ▸ .retire h.1
  | repoint id r =>
    simp only [Busy.step, Option.ite_none_right_eq_some, Option.some.injEq] at h
    exact h.2 ▸ .repoint h.1
  | sync dirs =>
    simp only [Busy.step, Option.ite_none_right_eq_some, Option.some.injEq] at h
    exact h.2 ▸ .sync h.1

/-! ### Calls on their own -/

/-- A registration on its own takes its steps one after the other. -/
theorem leads_register (native : NativeWatches σ) (p : Path) (r : Resolution) (e : Engine σ) :
    ∃ s, Leads native { engine := e } s ∧ s.AtRest ∧ s.engine.table = (e.register native p r).2.table := by
  cases hp : e.table.find? p with
  | some id =>
    refine ⟨{ engine := e }, .refl, ⟨rfl, rfl, rfl⟩, ?_⟩
    rw [register_of_some native r hp]
  | none =>
    let id := e.table.created.length
    let entered : Busy σ := { engine := e.withTable (e.table.entered p r), joining := [id] }
    let dirs := ((e.table.entered p r).enlist id).1
    let enlisted : Busy σ := { engine := e.withTable ((e.table.entered p r).enlist id).2, touched := [dirs] }
    have henter : Busy.step native { engine := e } (.enter p r) = some entered := by
      simp [Busy.step, Table.enter_of_none hp, entered, id]
    have henlist : Busy.step native entered (.enlist id) = some enlisted := by
      rw [step_enlist (List.mem_singleton.mpr rfl)]
      simp [entered, enlisted, dirs, withTable]
    have hsync : Busy.step native enlisted (.sync dirs) = some { engine := enlisted.engine.sync native dirs } := by
      rw [step_sync (List.mem_singleton.mpr rfl)]
      simp [enlisted]
    refine ⟨_, .head ⟨_, henter⟩ (.head ⟨_, henlist⟩ (.single ⟨_, hsync⟩)), ⟨rfl, rfl, rfl⟩, ?_⟩
    simp [register, enroll, Table.enter_of_none hp, enlisted, withTable, dirs, id]

theorem leads_remove (native : NativeWatches σ) (p : Path) (e : Engine σ) :
    ∃ s, Leads native { engine := e } s ∧ s.AtRest ∧ s.engine.table = (e.remove native p).2.table := by
  cases hp : e.table.find? p with
  | none =>
    refine ⟨{ engine := e }, .refl, ⟨rfl, rfl, rfl⟩, ?_⟩
    rw [remove_of_none native hp]
  | some id =>
    let takenOut : Busy σ := { engine := e.withTable (e.table.takenOut p), leaving := [id] }
    let dirs := ((e.table.takenOut p).retire id).1
    let retired : Busy σ := { engine := e.withTable ((e.table.takenOut p).retire id).2, touched := [dirs] }
    have htakeOut : Busy.step native { engine := e } (.takeOut p) = some takenOut := by
      simp [Busy.step, Table.takeOut_of_some hp, takenOut]
    have hretire : Busy.step native takenOut (.retire id) = some retired := by
      rw [step_retire (List.mem_singleton.mpr rfl)]
      simp [takenOut, retired, dirs, withTable]
    have hsync : Busy.step native retired (.sync dirs) = some { engine := retired.engine.sync native dirs } := by
      rw [step_sync (List.mem_singleton.mpr rfl)]
      simp [retired]
    refine ⟨_, .head ⟨_, htakeOut⟩ (.head ⟨_, hretire⟩ (.single ⟨_, hsync⟩)), ⟨rfl, rfl, rfl⟩, ?_⟩
    simp [remove, Table.takeOut_of_some hp, retired, withTable, dirs]

theorem leads_repoint (native : NativeWatches σ) {id : TargetId} (r : Resolution) {e : Engine σ}
    (hid : id < e.table.created.length) :
    ∃ s, Leads native { engine := e } s ∧ s.AtRest ∧ s.engine.table = (e.repoint native id r).2.table := by
  unfold repoint
  rcases hout : e.table.repoint id r with ⟨_ | ⟨previous, dirs⟩, t⟩
  · exact ⟨{ engine := e }, .refl, ⟨rfl, rfl, rfl⟩, rfl⟩
  · let repointed : Busy σ := { engine := e.withTable t, touched := [dirs] }
    have hrepoint : Busy.step native { engine := e } (.repoint id r) = some repointed := by
      simp [Busy.step, hout, hid, repointed]
    have hsync : Busy.step native repointed (.sync dirs) = some { engine := repointed.engine.sync native dirs } := by
      rw [step_sync (List.mem_singleton.mpr rfl)]
      simp [repointed]
    exact ⟨_, .head ⟨_, hrepoint⟩ (.single ⟨_, hsync⟩), ⟨rfl, rfl, rfl⟩, rfl⟩

/-! ### What steps keep -/

/-- The targets are filed, and no call waits twice. -/
structure Busy.Filed (s : Busy σ) : Prop where
  filed : Table.Filed (· ∈ s.joining) (· ∈ s.leaving) s.engine.table
  joining : s.joining.Nodup
  leaving : s.leaving.Nodup

lemma mem_nil_eq : (fun j => j ∈ ([] : List TargetId)) = fun _ => False := funext fun _ => by simp

lemma mem_cons_eq (id : TargetId) (ids : List TargetId) : (fun j => j ∈ ids ∨ j = id) = fun j => j ∈ id :: ids :=
  funext fun _ => by rw [List.mem_cons, or_comm]

lemma mem_erase_eq (id : TargetId) {ids : List TargetId} (h : ids.Nodup) :
    (fun j => j ∈ ids ∧ j ≠ id) = fun j => j ∈ ids.erase id :=
  funext fun _ => by rw [h.mem_erase_iff, and_comm]

lemma Busy.Filed.step (h : s.Filed) (hstep : s.step native m = some s') : s'.Filed := by
  obtain ⟨hfiled, hjoin, hleave⟩ := h
  cases Busy.stepped hstep with
  | known | absent => exact ⟨hfiled, hjoin, hleave⟩
  | @enter p r hp =>
    have hentered := hfiled.enter hp r
    rw [mem_cons_eq] at hentered
    have hfresh : s.engine.table.created.length ∉ s.joining := fun hmem => Nat.lt_irrefl _ (hfiled.entered hmem)
    exact ⟨hentered, List.nodup_cons.mpr ⟨hfresh, hjoin⟩, hleave⟩
  | @enlist id =>
    have henlisted := hfiled.enlist id
    rw [mem_erase_eq id hjoin] at henlisted
    exact ⟨henlisted, hjoin.erase id, hleave⟩
  | @takeOut p id hp =>
    have htaken := hfiled.takeOut hp
    rw [mem_cons_eq] at htaken
    have hfresh : id ∉ s.leaving := fun hmem => (hfiled.takenOut hmem).2.2 _ hp
    exact ⟨htaken, hjoin, List.nodup_cons.mpr ⟨hfresh, hleave⟩⟩
  | @retire id dirs hid =>
    have hretired := hfiled.retire hid
    rw [mem_erase_eq id hleave] at hretired
    exact ⟨hretired, hjoin, hleave.erase id⟩
  | repoint => exact ⟨hfiled.repoint _ _, hjoin, hleave⟩
  | sync => exact ⟨hfiled.of_alike (alike_sync native _ s.engine), hjoin, hleave⟩

lemma surplus_step {n : Nat} {d p : List Component} (h : s.engine.table.Surplus n d p)
    (hstep : s.step native m = some s') : s'.engine.table.Surplus n d p := by
  cases Busy.stepped hstep with
  | known | absent => exact h
  | enter | takeOut => exact h
  | enlist => exact h.enlist _
  | retire => exact h.retire _
  | repoint => exact h.repoint _ _
  | sync => exact h.of_alike (alike_sync native _ s.engine)

/-- A step that does not clash keeps the index. -/
lemma indexed_step (hf : s.Filed) (h : Table.Indexed (· ∈ s.joining) (· ∈ s.leaving) s.engine.table)
    (hm : ¬ s.Clashes m) (hstep : s.step native m = some s') :
    Table.Indexed (· ∈ s'.joining) (· ∈ s'.leaving) s'.engine.table := by
  cases Busy.stepped hstep with
  | known | absent => exact h
  | @enter p r hp =>
    have hentered := h.enter hp r
    rw [mem_cons_eq] at hentered
    exact hentered
  | @enlist id dirs hid =>
    have henlisted := h.enlist hid fun hact hdouble => hm ⟨hact, hdouble⟩
    rw [mem_erase_eq id hf.joining] at henlisted
    exact henlisted
  | @takeOut p id hp =>
    have htaken := h.takeOut hp
    rw [mem_cons_eq] at htaken
    exact htaken
  | @retire id dirs hid =>
    have hretired := h.retire hid hm
    rw [mem_erase_eq id hf.leaving] at hretired
    exact hretired
  | repoint hid =>
    exact h.repoint hid (fun hact hdouble => hm ⟨hact, Or.inl hdouble⟩) fun hact hrob => hm ⟨hact, Or.inr hrob⟩
  | sync => exact h.congr (alike_sync native _ s.engine)

lemma Smooth.indexed (h : Smooth native s) :
    s.Filed ∧ Table.Indexed (· ∈ s.joining) (· ∈ s.leaving) s.engine.table := by
  induction h with
  | @start e h0 =>
    have hempty : Table.Indexed (· ∈ ([] : List TargetId)) (· ∈ ([] : List TargetId)) e.table := by
      rw [h0, mem_nil_eq]
      exact Table.indexed_empty
    exact ⟨⟨hempty.toFiled, List.nodup_nil, List.nodup_nil⟩, hempty⟩
  | step _ hm hstep ih =>
    obtain ⟨hfiled, hindexed⟩ := ih
    exact ⟨hfiled.step hstep, indexed_step hfiled hindexed hm hstep⟩

/-- At rest a table without clashes is settled. -/
lemma Smooth.settled (h : Smooth native s) (hrest : s.AtRest) : s.engine.table.Settled := by
  have hindexed := h.indexed.2
  rw [hrest.joining, hrest.leaving, mem_nil_eq] at hindexed
  exact hindexed

/-! ### Letting calls return -/

/-- The step lets a call go on: first those that remove, then those that register, then the rest. -/
def Busy.Finishes (s : Busy σ) : CallStep → Prop
  | .retire _ => True
  | .enlist _ => s.leaving = []
  | .sync _ => True
  | _ => False

/-- How much calls have still to do. -/
def Busy.owed (s : Busy σ) : Nat := 2 * (s.leaving.length + s.joining.length) + s.touched.length

/-- All calls can return, and what their steps keep holds then. -/
lemma exists_rest {P : Busy σ → Prop}
    (hkeep : ∀ {s s' m}, P s → s.Finishes m → s.step native m = some s' → P s') (h : P s) :
    ∃ s', Leads native s s' ∧ s'.AtRest ∧ P s' := by
  induction hn : s.owed using Nat.strong_induction_on generalizing s with
  | _ n ih =>
    subst hn
    have hgo : ∀ {m s₁}, s.Finishes m → s.step native m = some s₁ → s₁.owed < s.owed →
        ∃ s', Leads native s s' ∧ s'.AtRest ∧ P s' := by
      intro m s₁ hm hstep hless
      obtain ⟨s', hleads, hrest⟩ := ih _ hless (hkeep h hm hstep) rfl
      exact ⟨s', .head ⟨m, hstep⟩ hleads, hrest⟩
    cases hl : s.leaving with
    | cons id ids =>
      have hid : id ∈ s.leaving := hl ▸ List.mem_cons_self ..
      have hlength := List.length_erase_add_one hid
      refine hgo (m := .retire id) trivial (step_retire hid) ?_
      simp only [Busy.owed, List.length_cons]
      omega
    | nil =>
      cases hj : s.joining with
      | cons id ids =>
        have hid : id ∈ s.joining := hj ▸ List.mem_cons_self ..
        have hlength := List.length_erase_add_one hid
        refine hgo (m := .enlist id) hl (step_enlist hid) ?_
        simp only [Busy.owed, List.length_cons]
        omega
      | nil =>
        cases ht : s.touched with
        | cons dirs rest =>
          have hdirs : dirs ∈ s.touched := ht ▸ List.mem_cons_self ..
          have hlength := List.length_erase_add_one hdirs
          refine hgo (m := .sync dirs) trivial (step_sync hdirs) ?_
          simp only [Busy.owed]
          omega
        | nil => exact ⟨s, .refl, ⟨hj, hl, ht⟩, h⟩

lemma registered_finish (hm : s.Finishes m) (hstep : s.step native m = some s') :
    s'.engine.table.registered = s.engine.table.registered := by
  cases Busy.stepped hstep with
  | known | absent => rfl
  | enter | takeOut | repoint => exact hm.elim
  | enlist =>
    simp only [withTable, Table.enlist]
    split <;> rfl
  | retire => rfl
  | sync => exact (alike_sync native _ s.engine).registered

/-- Once a path has a surplus, its target can be removed, and the directory is still held for it. -/
lemma exists_rest_of_surplus (hf : s.Filed) {d : List Component} {q : Path}
    (h : s.engine.table.Surplus 1 d q.components) (native : NativeWatches σ) :
    ∃ s', Leads native s s' ∧ s'.AtRest ∧ ¬ s'.engine.table.Kept := by
  obtain ⟨s₁, hstep⟩ : ∃ s₁, s.step native (.takeOut q) = some s₁ := ⟨_, rfl⟩
  have hgone : ∀ id, ¬ s₁.engine.table.At q.components id := by
    intro id hat
    cases Busy.stepped hstep with
    | absent hq =>
      rw [Table.At, show Sorted.find? q.components s.engine.table.registered = none from hq] at hat
      cases hat
    | takeOut => exact (Table.at_takenOut.mp hat).1 rfl
  let P : Busy σ → Prop := fun s =>
    s.Filed ∧ s.engine.table.Surplus 1 d q.components ∧ ∀ id, ¬ s.engine.table.At q.components id
  have hkeep : ∀ {s s' m}, P s → s.Finishes m → s.step native m = some s' → P s' := by
    rintro s s' m ⟨hfiled, hsurplus, hno⟩ hm hstep
    refine ⟨hfiled.step hstep, surplus_step hsurplus hstep, fun id hat => hno id ?_⟩
    rw [Table.At, ← registered_finish hm hstep]
    exact hat
  obtain ⟨s', hleads, hrest, hfiled, hsurplus, hno⟩ :=
    exists_rest hkeep ⟨hf.step hstep, surplus_step h hstep, hgone⟩
  exact ⟨s', .head ⟨_, hstep⟩ hleads, hrest, hsurplus.not_kept hfiled.filed hno⟩

/-- A registered target that misses an interest still misses it when the calls have returned. -/
lemma exists_rest_of_missed (hf : s.Filed) {d p : List Component} {k : EntryKey} {id : TargetId}
    (hbooks : s.engine.table.Surplus 0 d p) (h : s.engine.table.Missed p k id) (hid : id ∉ s.joining)
    (native : NativeWatches σ) : ∃ s', Leads native s s' ∧ s'.AtRest ∧ ¬ s'.engine.table.Kept := by
  let P : Busy σ → Prop := fun s =>
    s.Filed ∧ s.engine.table.Surplus 0 d p ∧ s.engine.table.Missed p k id ∧ id ∉ s.joining
  have hkeep : ∀ {s s' m}, P s → s.Finishes m → s.step native m = some s' → P s' := by
    rintro s s' m ⟨hfiled, hbooks, hmissed, hid⟩ hm hstep
    have ⟨extra, hsound, _⟩ := hbooks
    refine ⟨hfiled.step hstep, surplus_step hbooks hstep, ?_⟩
    cases Busy.stepped hstep with
    | known | absent => exact ⟨hmissed, hid⟩
    | enter | takeOut | repoint => exact hm.elim
    | retire => exact ⟨hmissed.retire hsound _, hid⟩
    | sync => exact ⟨hmissed.of_alike (alike_sync native _ s.engine), hid⟩
    | @enlist j dirs hj =>
      refine ⟨hmissed.enlist hsound fun hact hpath => ?_, fun hmem => hid (List.mem_of_mem_erase hmem)⟩
      -- nobody is leaving any more, so the other target would be registered for the same path
      have hleaving : s.leaving = [] := hm
      rcases hfiled.filed.accounted (hfiled.filed.entered hj) hact with ⟨q, hat⟩ | hl
      · have hqp : q = p := (hfiled.filed.known hat).2.1.symm.trans hpath
        have hsame : j = id := Table.At.unique (hqp ▸ hat) hmissed.registered
        exact hid (hsame ▸ hj)
      · rw [hleaving] at hl
        cases hl
  obtain ⟨s', hleads, hrest, hfiled, -, hmissed, -⟩ := exists_rest hkeep ⟨hf, hbooks, h, hid⟩
  exact ⟨s', hleads, hrest, hmissed.not_kept hfiled.filed⟩

/-- After a clash the calls can return so that the table does not know its targets. -/
lemma exists_rest_of_clash (hf : s.Filed) {extra : List Component → List Component → Nat}
    (hsound : s.engine.table.index.Sound extra) (hm : s.Clashes m) (hstep : s.step native m = some s') :
    ∃ s'', Leads native s' s'' ∧ s''.AtRest ∧ ¬ s''.engine.table.Kept := by
  have hf' := hf.step hstep
  have hbooks : ∀ d p, s'.engine.table.Surplus 0 d p := fun d p =>
    surplus_step ⟨extra, hsound, Nat.zero_le _⟩ hstep
  cases Busy.stepped hstep with
  | known | absent | enter | takeOut | sync => exact hm.elim
  | enlist hid =>
    obtain ⟨hact, hdouble⟩ := hm
    obtain ⟨d, hsurplus⟩ := Table.surplus_enlist hsound hact hdouble
    exact exists_rest_of_surplus hf' hsurplus native
  | retire hid =>
    obtain ⟨k, j, hj, hmissed⟩ := Table.missed_retire hsound hm
    exact exists_rest_of_missed hf' (hbooks [] _) hmissed hj native
  | repoint hid =>
    obtain ⟨hact, hdouble | hrob⟩ := hm
    · obtain ⟨d, hsurplus⟩ := Table.surplus_repoint hsound hact hdouble
      exact exists_rest_of_surplus hf' hsurplus native
    · obtain ⟨k, j, hj, hmissed⟩ := Table.missed_repoint hsound hid hact hrob
      exact exists_rest_of_missed hf' (hbooks [] _) hmissed hj native

/-- **Concurrent calls keep the index exactly as long as no step clashes.** Whatever calls run and however their steps
come, a table at rest keeps what it owes its targets if no step has clashed. Every clash puts an end to that:
after it the calls, with one more removal at most, can return so that the table does not. -/
theorem Smooth.kept_unless_clash (h : Smooth native s) :
    (s.AtRest → s.engine.table.Kept) ∧
    ∀ m s', s.Clashes m → s.step native m = some s' →
      ∃ s'', Leads native s' s'' ∧ s''.AtRest ∧ ¬ s''.engine.table.Kept := by
  obtain ⟨hfiled, hindexed⟩ := h.indexed
  exact ⟨fun hrest => (h.settled hrest).kept, fun m s' hm hstep =>
    exists_rest_of_clash hfiled hindexed.index hm hstep⟩

/-- The state after a step, if there is a call to take it. -/
def Busy.take (native : NativeWatches σ) (s : Busy σ) (m : CallStep) : Busy σ := (s.step native m).getD s

lemma Smooth.take (h : Smooth native s) (hm : ¬ s.Clashes m) : Smooth native (s.take native m) := by
  unfold Busy.take
  cases hstep : s.step native m with
  | none => exact h
  | some s' => exact h.step hm hstep

/-- Native watches that are never refused. -/
def granting : NativeWatches Unit := ⟨fun _ _ => (.ok (), ()), fun _ _ => (.ok (), ())⟩

/-- `/a` is registered. -/
def once : Busy Unit :=
  let s : Busy Unit := { engine := { dispatcher := { workers := [{}] }, world := () } }
  ((s.take granting (.enter ⟨[0x2f, 0x61]⟩ (.plain ⟨[0x2f, 0x61]⟩))).take granting (.enlist 0)).take granting
    (.sync [.root])

/-- While the removal of `/a` goes on, it is registered again. -/
def again : Busy Unit :=
  (once.take granting (.takeOut ⟨[0x2f, 0x61]⟩)).take granting (.enter ⟨[0x2f, 0x61]⟩ (.plain ⟨[0x2f, 0x61]⟩))

lemma smooth_once : Smooth granting once := by
  refine Smooth.take (Smooth.take (Smooth.take (.start rfl) not_false) ?_) not_false
  rintro ⟨-, k, -, hc⟩
  have hindex : ((Busy.take granting { engine := { dispatcher := { workers := [{}] }, world := () } }
    (.enter ⟨[0x2f, 0x61]⟩ (.plain ⟨[0x2f, 0x61]⟩))).engine.table.index) = {} := rfl
  rw [hindex] at hc
  cases hc

lemma smooth_again : Smooth granting again := Smooth.take (Smooth.take smooth_once not_false) not_false

/-- The new target is enlisted before the old one is retired, and both calls return. -/
def raced : Busy Unit :=
  (((again.take granting (.enlist 1)).take granting (.retire 0)).take granting (.sync [.root])).take granting
    (.sync [.root])

/-- In the end the table does not find the new target. -/
theorem kept_unless_clash_again :
    once.engine.table.Kept ∧
    (∃ s s', again.step granting (.enlist 1) = some s ∧ Leads granting s s' ∧ s'.AtRest ∧ ¬ s'.engine.table.Kept) ∧
    raced.AtRest ∧ raced.engine.table.targets = [1] ∧ raced.engine.table.targetsFor ⟨.root, [0x61]⟩ = [] := by
  refine ⟨smooth_once.kept_unless_clash.1 ⟨by decide +kernel, by decide +kernel, by decide +kernel⟩, ?_,
    ⟨by decide +kernel, by decide +kernel, by decide +kernel⟩, by decide +kernel, by decide +kernel⟩
  obtain ⟨s, hstep⟩ := Option.isSome_iff_exists.mp
    (show (again.step granting (.enlist 1)).isSome = true by decide +kernel)
  have hclash : again.Clashes (.enlist 1) :=
    ⟨by decide +kernel, ([.root], [0x61]), by decide +kernel, by unfold Index.Concerns; decide +kernel⟩
  obtain ⟨s', hleads, hrest, hnot⟩ := smooth_again.kept_unless_clash.2 _ s hclash hstep
  exact ⟨s, s', hstep, hleads, hrest, hnot⟩

end LinkWatch.Engine
