import LinkWatch.Proofs.Engine.Mirror
import Mathlib.Logic.Relation

/-!
Native watches under concurrent calls. A call changes the targets, then the index, one interest at a time, and then
takes the lock of the native watches; under the lock it looks at one directory after the other, and what a directory
was found to need is done in a step of its own. So other calls can change the index between a look and what follows
from it, and what is done can be wrong when it is done.

It does not stay wrong: a call that changes the index owes a look at the directory until it has taken the lock and
come to it. A directory that nobody owes a look is as it will be when the call under the lock has acted
(`ConcurrentSync.Steady`), and when all calls have returned nobody owes anything.
-/

namespace LinkWatch.Engine

open Sorted (keys)
open Scripted (Source)

variable {σ : Type} {native : NativeWatches σ} {source : σ → Source}

/-! ### Steps of calls -/

/-- Does what a directory was found to need. -/
def meet (native : NativeWatches σ) (d : Path) (e : Engine σ) : Table.Need → Engine σ
  | .watch => e.watch native d
  | .unwatch => e.unwatch native d
  | .nothing => e

/-- The call that holds the lock. -/
inductive Holder where
  /-- It has still to look at these directories. -/
  | looking (todo : List Path)
  /-- It has found what a directory needs and still to do it, and has still to look at the others. -/
  | acting (d : Path) (need : Table.Need) (todo : List Path)

/-- The directories that it has still to look at. -/
def Holder.todo : Holder → List Path
  | .looking ds => ds
  | .acting _ _ ds => ds

/-- An engine with calls under way. -/
structure ConcurrentSync (σ : Type) where
  engine : Engine σ
  /-- Targets that were entered, and whose index work is still to be taken up. -/
  joining : List TargetId := []
  /-- Targets that were taken out, and whose index work is still to be taken up. -/
  leaving : List TargetId := []
  /-- Calls that change the index, or have done so and wait for the lock. -/
  jobs : List Job := []
  holder : Option Holder := none

/-- A step of a call. A registration of a path that is taken, a removal of one that is not, and a change that changes
nothing return at once. -/
inductive ConcurrentSync.Step (native : NativeWatches σ) : ConcurrentSync σ → ConcurrentSync σ → Prop
  | enter {s : ConcurrentSync σ} (p : Path) (r : Resolution) : s.engine.table.find? p = none → Step native s
      { s with
        engine := { s.engine with table := s.engine.table.entered p r }
        joining := s.engine.table.created.length :: s.joining }
  | enlist {s : ConcurrentSync σ} (id : TargetId) : id ∈ s.joining → Step native s
      { s with joining := s.joining.erase id, jobs := s.engine.table.enlisting id :: s.jobs }
  | takeOut {s : ConcurrentSync σ} (p : Path) (id : TargetId) : s.engine.table.find? p = some id → Step native s
      { s with
        engine := { s.engine with table := s.engine.table.takenOut p }
        leaving := id :: s.leaving }
  | retire {s : ConcurrentSync σ} (id : TargetId) : id ∈ s.leaving → Step native s
      { s with
        engine := { s.engine with table := s.engine.table.marked id }
        leaving := s.leaving.erase id
        jobs := s.engine.table.retiring id :: s.jobs }
  | repoint {s : ConcurrentSync σ} (id : TargetId) (r : Resolution) : id < s.engine.table.created.length →
      (s.engine.table.target id).retired = false → (s.engine.table.target id).resolution.same r = false →
      Step native s
        { s with
          engine := { s.engine with table := s.engine.table.turned id r }
          jobs := s.engine.table.repointing id r :: s.jobs }
  /-- One interest is noted or forgotten. -/
  | update {s : ConcurrentSync σ} (u : Index.Update) (us : List Index.Update) (dirs : List Path) :
      ⟨u :: us, dirs⟩ ∈ s.jobs → Step native s
        { s with
          engine := { s.engine with table := s.engine.table.applied [u] }
          jobs := ⟨us, dirs⟩ :: s.jobs.erase ⟨u :: us, dirs⟩ }
  | acquire {s : ConcurrentSync σ} (dirs : List Path) : ⟨[], dirs⟩ ∈ s.jobs → s.holder = none → Step native s
      { s with jobs := s.jobs.erase ⟨[], dirs⟩, holder := some (.looking dirs) }
  /-- The call under the lock looks at a directory. -/
  | look {s : ConcurrentSync σ} {d : Path} {ds : List Path} : s.holder = some (.looking (d :: ds)) → Step native s
      { s with holder := some (.acting d (s.engine.table.need d) ds) }
  /-- It does what it has found necessary. -/
  | act {s : ConcurrentSync σ} {d : Path} {need : Table.Need} {ds : List Path} : s.holder = some (.acting d need ds) →
      Step native s { s with engine := s.engine.meet native d need, holder := some (.looking ds) }
  | release {s : ConcurrentSync σ} : s.holder = some (.looking []) → Step native s { s with holder := none }

/-- Steps of calls lead from one state to the other. -/
abbrev ConcurrentSync.Leads (native : NativeWatches σ) : ConcurrentSync σ → ConcurrentSync σ → Prop :=
  Relation.ReflTransGen (Step native)

/-- Every call that was started has returned. -/
structure ConcurrentSync.AtRest (s : ConcurrentSync σ) : Prop where
  joining : s.joining = []
  leaving : s.leaving = []
  jobs : s.jobs = []
  holder : s.holder = none

/-! ### Calls on their own -/

/-- Under the lock a call can bring its directories in line without others between. -/
lemma leads_sync (native : NativeWatches σ) {dirs : List Path} {s : ConcurrentSync σ}
    (hh : s.holder = some (.looking dirs)) :
    ConcurrentSync.Leads native s { s with engine := s.engine.sync native dirs, holder := none } := by
  induction dirs generalizing s with
  | nil => exact .single (.release hh)
  | cons d ds ih =>
    refine .head (.look hh) (.head (.act rfl) ?_)
    exact ih (s := { s with engine := s.engine.syncOne native d, holder := some (.looking ds) }) rfl

/-- A call can do its index work, and bring the directories that it touched in line, without others between. -/
lemma leads_job (native : NativeWatches σ) {j : Job} {s : ConcurrentSync σ} (hj : j ∈ s.jobs)
    (hfree : s.holder = none) : ConcurrentSync.Leads native s
      { s with
        engine := { s.engine with table := s.engine.table.applied j.updates }.sync native j.touched
        jobs := s.jobs.erase j } := by
  obtain ⟨us, dirs⟩ := j
  induction us generalizing s with
  | nil =>
    have hsync : ConcurrentSync.Leads native
        { s with jobs := s.jobs.erase ⟨[], dirs⟩, holder := some (.looking dirs) } _ := leads_sync native rfl
    refine .head (.acquire dirs hj hfree) ?_
    rw [← hfree] at hsync
    exact hsync
  | cons u us ih =>
    have hrest := ih (s := { s with
      engine := { s.engine with table := s.engine.table.applied [u] }
      jobs := ⟨us, dirs⟩ :: s.jobs.erase ⟨u :: us, dirs⟩ }) hfree (List.mem_cons_self ..)
    rw [List.erase_cons_head] at hrest
    exact .head (.update u us dirs hj) hrest

/-- A call that is alone with its index work does it and brings the directories that it touched in line. -/
lemma leads_alone (native : NativeWatches σ) (j : Job) (e : Engine σ) :
    ConcurrentSync.Leads native { engine := e, jobs := [j] }
      { engine := { e with table := e.table.applied j.updates }.sync native j.touched } := by
  have hjob := leads_job native (s := { engine := e, jobs := [j] }) (List.mem_singleton.mpr rfl) rfl
  rwa [List.erase_cons_head] at hjob

/-- Every call can run on its own, and then does what it does in one go, apart from what it logs at the end. -/
theorem leads_run (native : NativeWatches σ) (c : Call) (e : Engine σ) (hc : c.Valid e.table) :
    ∃ e' effects, ConcurrentSync.Leads native { engine := e } { engine := e' } ∧
      c.run native e = { e' with effects } := by
  cases c with
  | register p r =>
    cases hp : e.table.find? p with
    | some id => exact ⟨e, e.effects, .refl, by rw [Call.run, register_of_some native r hp]⟩
    | none =>
      let id := e.table.created.length
      let entered : ConcurrentSync σ := { engine := { e with table := e.table.entered p r }, joining := [id] }
      have henlist : ConcurrentSync.Step native entered _ := .enlist id (List.mem_singleton.mpr rfl)
      have hleads := leads_alone native (entered.engine.table.enlisting id) entered.engine
      rw [List.erase_cons_head] at henlist
      exact ⟨_, _, .head (.enter p r hp) (.head henlist hleads), register_of_none native r hp⟩
  | remove p =>
    cases hp : e.table.find? p with
    | none => exact ⟨e, e.effects, .refl, by rw [Call.run, remove_of_none native hp]⟩
    | some id =>
      let taken : ConcurrentSync σ := { engine := { e with table := e.table.takenOut p }, leaving := [id] }
      have hretire : ConcurrentSync.Step native taken _ := .retire id (List.mem_singleton.mpr rfl)
      have hleads := leads_alone native (taken.engine.table.retiring id)
        { e with table := (e.table.takenOut p).marked id }
      rw [List.erase_cons_head] at hretire
      exact ⟨_, _, .head (.takeOut p id hp) (.head hretire hleads), remove_of_some native hp⟩
  | repoint id r =>
    by_cases hsame : (e.table.target id).retired = true ∨ (e.table.target id).resolution.same r = true
    · exact ⟨e, e.effects, .refl, by rw [Call.run, repoint, Table.repoint_of_unchanged hsame]⟩
    · obtain ⟨hact, hne⟩ := not_or.mp hsame
      rw [Bool.not_eq_true] at hact hne
      have hleads := leads_alone native (e.table.repointing id r) { e with table := e.table.turned id r }
      exact ⟨_, _, .head (.repoint id r hc hact hne) hleads, repoint_of_changed native hact hne⟩

/-! ### Letting calls return -/

/-- How much calls have still to do, apart from the one under the lock. -/
def ConcurrentSync.owed (s : ConcurrentSync σ) : Nat := 2 * (s.joining.length + s.leaving.length) + s.jobs.length

lemma ConcurrentSync.exists_rest_of_free (native : NativeWatches σ) {s : ConcurrentSync σ} (hfree : s.holder = none) :
    ∃ s', Leads native s s' ∧ s'.AtRest := by
  induction hn : s.owed using Nat.strong_induction_on generalizing s with
  | _ n ih =>
    subst hn
    have hgo : ∀ {s₁}, Leads native s s₁ → s₁.holder = none → s₁.owed < s.owed →
        ∃ s', Leads native s s' ∧ s'.AtRest := by
      intro s₁ hleads hfree₁ hless
      obtain ⟨s', hleads', hrest⟩ := ih _ hless hfree₁ rfl
      exact ⟨s', hleads.trans hleads', hrest⟩
    cases hj : s.joining with
    | cons id ids =>
      have hid : id ∈ s.joining := hj ▸ List.mem_cons_self ..
      have hlength := List.length_erase_add_one hid
      refine hgo (.single (.enlist id hid)) hfree ?_
      simp only [ConcurrentSync.owed, List.length_cons]
      omega
    | nil =>
      cases hl : s.leaving with
      | cons id ids =>
        have hid : id ∈ s.leaving := hl ▸ List.mem_cons_self ..
        have hlength := List.length_erase_add_one hid
        refine hgo (.single (.retire id hid)) hfree ?_
        simp only [ConcurrentSync.owed, List.length_cons]
        omega
      | nil =>
        cases hjobs : s.jobs with
        | cons j js =>
          have hmem : j ∈ s.jobs := hjobs ▸ List.mem_cons_self ..
          have hlength := List.length_erase_add_one hmem
          refine hgo (leads_job native hmem hfree) hfree ?_
          simp only [ConcurrentSync.owed]
          omega
        | nil => exact ⟨s, .refl, ⟨hj, hl, hjobs, hfree⟩⟩

/-- Whatever calls are under way, all can return. -/
theorem ConcurrentSync.exists_rest (native : NativeWatches σ) (s : ConcurrentSync σ) :
    ∃ s', Leads native s s' ∧ s'.AtRest := by
  have hgo : ∀ {s₁ : ConcurrentSync σ}, Leads native s s₁ → s₁.holder = none → ∃ s', Leads native s s' ∧ s'.AtRest := by
    intro s₁ hleads hfree
    obtain ⟨s', hleads', hrest⟩ := ConcurrentSync.exists_rest_of_free native hfree
    exact ⟨s', hleads.trans hleads', hrest⟩
  cases hh : s.holder with
  | none => exact hgo .refl hh
  | some h =>
    cases h with
    | looking ds => exact hgo (leads_sync native hh) rfl
    | acting d need ds =>
      have hsync : Leads native { s with engine := s.engine.meet native d need, holder := some (.looking ds) } _ :=
        leads_sync native rfl
      exact hgo (.head (.act hh) hsync) rfl

/-! ### What steps keep -/

/-- Whether a directory is meant to be armed once what it was found to need is done. -/
def meant (armed : Bool) : Table.Need → Bool
  | .watch => true
  | .unwatch => false
  | .nothing => armed

/-- Whether a directory is armed once the call under the lock has done what it has found necessary. -/
def ConcurrentSync.armedSoon (s : ConcurrentSync σ) (d : Path) : Bool :=
  match s.holder with
  | some (.acting d' need _) =>
    if d'.components = d.components then meant (s.engine.table.isArmed d) need else s.engine.table.isArmed d
  | _ => s.engine.table.isArmed d

/-- Some call has still to look at the directory. -/
def ConcurrentSync.Owes (s : ConcurrentSync σ) (d : Path) : Prop :=
  (∃ j ∈ s.jobs, d.components ∈ keys j.touched) ∨ ∃ h ∈ s.holder, d.components ∈ keys h.todo

/-- What holds while calls are under way. -/
structure ConcurrentSync.Steady (source : σ → Source) (s : ConcurrentSync σ) : Prop where
  covered : ∀ j ∈ s.jobs, j.Covered
  mirrored : Mirrored source s.engine
  found : ∀ d need ds, s.holder = some (.acting d need ds) →
    (need = .watch → s.engine.table.isArmed d = false) ∧ (need = .unwatch → s.engine.table.isArmed d = true)
  inLine : ∀ d, s.Owes d ∨ s.engine.table.index.contains d = s.armedSoon d

/-- No watch was refused. -/
def Unrefused (e : Engine σ) : Prop := ∀ d, ¬ Refused d e.effects

variable {s s' : ConcurrentSync σ}

lemma armedSoon_of_acting {d : Path} {need : Table.Need} {ds : List Path} (hh : s.holder = some (.acting d need ds))
    (d' : Path) : s.armedSoon d' =
      if d.components = d'.components then meant (s.engine.table.isArmed d') need else s.engine.table.isArmed d' := by
  rw [ConcurrentSync.armedSoon, hh]

lemma armedSoon_of_not_acting (hh : ∀ d need ds, s.holder ≠ some (.acting d need ds)) (d : Path) :
    s.armedSoon d = s.engine.table.isArmed d := by
  unfold ConcurrentSync.armedSoon
  split
  · rename_i hacting
    exact absurd hacting (hh _ _ _)
  · rfl

lemma Unrefused.of_append {e e' : Engine σ} {es : List Effect} (h : Unrefused e') (he : e'.effects = e.effects ++ es) :
    Unrefused e := by
  intro d hd
  refine h d (hd.mono ?_)
  rw [he]
  exact List.subset_append_left ..

section Meet

variable {e : Engine σ} {d : Path} {need : Table.Need}

lemma index_meet (native : NativeWatches σ) (d : Path) (e : Engine σ) (need : Table.Need) :
    (e.meet native d need).table.index = e.table.index := by
  cases need with
  | watch => exact (alike_watch native d e).index
  | unwatch => exact (alike_unwatch native d e).index
  | nothing => rfl

lemma exists_effects_meet (native : NativeWatches σ) (d : Path) (e : Engine σ) (need : Table.Need) :
    ∃ es, (e.meet native d need).effects = e.effects ++ es := by
  cases need with
  | watch =>
    rw [meet]
    cases hout : (native.watch d e.world).1 with
    | ok u => exact ⟨_, by rw [watch_of_ok hout]⟩
    | error err => exact ⟨_, by rw [watch_of_error hout]⟩
  | unwatch =>
    obtain ⟨logs, -, hunwatch⟩ := unwatch_eq native d e
    exact ⟨_, by rw [meet, hunwatch]⟩
  | nothing => exact ⟨[], (List.append_nil _).symm⟩

/-- Unless it is refused, what is done comes out as it was meant. -/
lemma isArmed_meet (hno : Unrefused (e.meet native d need)) (d' : Path) : (e.meet native d need).table.isArmed d' =
    if d.components = d'.components then meant (e.table.isArmed d') need else e.table.isArmed d' := by
  cases need with
  | watch =>
    cases hout : (native.watch d e.world).1 with
    | error err =>
      rw [meet, watch_of_error hout] at hno
      exact absurd ⟨d, err, rfl, by simp⟩ (hno d)
    | ok u =>
      rw [meet, watch_of_ok hout, Bool.eq_iff_iff, Table.isArmed_arm]
      split
      · simp_all [meant]
      · rename_i hd
        exact or_iff_right (Ne.symm hd)
  | unwatch =>
    obtain ⟨logs, -, hunwatch⟩ := unwatch_eq native d e
    rw [meet, hunwatch, Bool.eq_iff_iff, Table.isArmed_disarm]
    split
    · simp_all [meant]
    · rename_i hd
      exact and_iff_right (Ne.symm hd)
  | nothing => simp [meet, meant]

/-- What a directory was found to need brings it in line with the index as it was then. -/
lemma meant_need (t : Table) {d d' : Path} (hd : d.components = d'.components) :
    meant (t.isArmed d') (t.need d) = t.index.contains d' := by
  rw [Table.need, t.index.contains_congr hd, t.isArmed_congr hd]
  cases t.index.contains d' <;> cases t.isArmed d' <;> rfl

end Meet

lemma unrefused_of_all {e : Engine σ}
    (h : (e.effects.all fun | .watch _ (.error _) => false | _ => true) = true) : Unrefused e := by
  rintro d ⟨d', err, -, hmem⟩
  cases List.all_eq_true.mp h _ hmem

lemma steady_start {e : Engine σ} (ht : e.table = {}) (hw : (source e.world).watched = []) :
    ConcurrentSync.Steady source { engine := e } where
  covered := List.forall_mem_nil _
  mirrored := by
    unfold Mirrored
    rw [ht]
    exact mirrors_empty hw
  found _ _ _ h := by cases h
  inLine d := by
    rw [armedSoon_of_not_acting (by simp), ht]
    exact Or.inr rfl

/-- Calls that join in, leave directories and native watches alone. -/
lemma ConcurrentSync.Steady.grow (h : s.Steady source) (hjobs : ∀ j ∈ s.jobs, j ∈ s'.jobs)
    (hcovered : ∀ j ∈ s'.jobs, j.Covered) (hholder : s'.holder = s.holder)
    (hindex : s'.engine.table.index = s.engine.table.index) (harmed : s'.engine.table.armed = s.engine.table.armed)
    (hworld : s'.engine.world = s.engine.world) : s'.Steady source := by
  have hsame : ∀ d, s'.engine.table.isArmed d = s.engine.table.isArmed d := Table.isArmed_eq harmed
  refine ⟨hcovered, ?_, fun d need ds hh => ?_, fun d => ?_⟩
  · unfold Mirrored
    rw [harmed, hworld]
    exact h.mirrored
  · rw [hsame]
    exact h.found d need ds (hholder ▸ hh)
  · rcases h.inLine d with (⟨j, hj, hd⟩ | hd) | hd
    · exact Or.inl (Or.inl ⟨j, hjobs j hj, hd⟩)
    · exact Or.inl (Or.inr (hholder ▸ hd))
    · right
      rw [hindex, hd, armedSoon, armedSoon, hholder]
      simp only [hsame]

lemma ConcurrentSync.Steady.update (h : s.Steady source) {u : Index.Update} {us : List Index.Update} {dirs : List Path}
    (hj : ⟨u :: us, dirs⟩ ∈ s.jobs) : ConcurrentSync.Steady source
      { s with
        engine := { s.engine with table := s.engine.table.applied [u] }
        jobs := ⟨us, dirs⟩ :: s.jobs.erase ⟨u :: us, dirs⟩ } := by
  have hcovered := h.covered _ hj
  refine ⟨?_, h.mirrored, h.found, fun d => ?_⟩
  · intro j hmem
    rcases List.mem_cons.mp hmem with rfl | hmem
    · exact fun v hv => hcovered v (List.mem_cons_of_mem _ hv)
    · exact h.covered j (List.mem_of_mem_erase hmem)
  · by_cases hd : d.components ∈ keys dirs
    · -- the call itself still owes a look at every directory that it touches
      exact Or.inl (Or.inl ⟨_, List.mem_cons_self .., hd⟩)
    · have hcontains : (s.engine.table.applied [u]).index.contains d = s.engine.table.index.contains d := by
        refine Table.contains_applied fun v hv he => hd ?_
        rw [he]
        exact hcovered v (List.mem_cons.mpr (Or.inl (List.mem_singleton.mp hv)))
      rcases h.inLine d with (⟨j, hmem, hjd⟩ | hholder) | hline
      · have hne : j ≠ ⟨u :: us, dirs⟩ := by
          rintro rfl
          exact hd hjd
        exact Or.inl (Or.inl ⟨j, List.mem_cons_of_mem _ ((List.mem_erase_of_ne hne).mpr hmem), hjd⟩)
      · exact Or.inl (Or.inr hholder)
      · exact Or.inr (hcontains.trans hline)

lemma ConcurrentSync.Steady.acquire (h : s.Steady source) {dirs : List Path} (hfree : s.holder = none) :
    ConcurrentSync.Steady source { s with jobs := s.jobs.erase ⟨[], dirs⟩, holder := some (.looking dirs) } := by
  refine ⟨fun j hmem => h.covered j (List.mem_of_mem_erase hmem), h.mirrored, fun _ _ _ hh => by simp at hh,
    fun d => ?_⟩
  rcases h.inLine d with (⟨j, hmem, hjd⟩ | ⟨x, hx, -⟩) | hline
  · by_cases hj : j = ⟨[], dirs⟩
    · subst hj
      exact Or.inl (Or.inr ⟨_, rfl, hjd⟩)
    · exact Or.inl (Or.inl ⟨j, (List.mem_erase_of_ne hj).mpr hmem, hjd⟩)
  · rw [hfree] at hx
    cases hx
  · rw [armedSoon_of_not_acting (by simp [hfree])] at hline
    rw [armedSoon_of_not_acting (by simp)]
    exact Or.inr hline

lemma ConcurrentSync.Steady.look (h : s.Steady source) {d : Path} {ds : List Path}
    (hh : s.holder = some (.looking (d :: ds))) :
    ConcurrentSync.Steady source { s with holder := some (.acting d (s.engine.table.need d) ds) } := by
  refine ⟨h.covered, h.mirrored, fun d' need ds' hneed => ?_, fun d' => ?_⟩
  · obtain ⟨rfl, rfl, rfl⟩ : d = d' ∧ s.engine.table.need d = need ∧ ds = ds' := by simpa using hneed
    rw [Table.need]
    cases s.engine.table.index.contains d <;> cases s.engine.table.isArmed d <;> simp
  · rw [armedSoon_of_acting rfl]
    by_cases hd : d.components = d'.components
    · right
      rw [if_pos hd, meant_need _ hd]
    · rcases h.inLine d' with (hjob | ⟨x, hx, hmem⟩) | hline
      · exact Or.inl (Or.inl hjob)
      · obtain rfl : Holder.looking (d :: ds) = x := Option.some.inj (hh.symm.trans hx)
        have hlater : d'.components ∈ keys ds := (List.mem_cons.mp hmem).resolve_left (Ne.symm hd)
        exact Or.inl (Or.inr ⟨_, rfl, hlater⟩)
      · rw [armedSoon_of_not_acting (by simp [hh])] at hline
        rw [if_neg hd]
        exact Or.inr hline

lemma ConcurrentSync.Steady.act (h : s.Steady source) (hx : Exclusive native source) {d : Path} {need : Table.Need}
    {ds : List Path} (hh : s.holder = some (.acting d need ds)) (hno : Unrefused (s.engine.meet native d need)) :
    ConcurrentSync.Steady source { s with engine := s.engine.meet native d need, holder := some (.looking ds) } := by
  obtain ⟨hunarmed, harmed⟩ := h.found d need ds hh
  refine ⟨h.covered, ?_, fun _ _ _ hnew => by simp at hnew, fun d' => ?_⟩
  · cases need with
    | watch => exact h.mirrored.watch hx (hunarmed rfl)
    | unwatch => exact h.mirrored.unwatch hx (harmed rfl)
    | nothing => exact h.mirrored
  · rcases h.inLine d' with (hjob | ⟨x, hmem, hd'⟩) | hline
    · exact Or.inl (Or.inl hjob)
    · obtain rfl : Holder.acting d need ds = x := Option.some.inj (hh.symm.trans hmem)
      exact Or.inl (Or.inr ⟨_, rfl, hd'⟩)
    · rw [armedSoon_of_acting hh] at hline
      rw [armedSoon_of_not_acting (by simp), index_meet, isArmed_meet hno]
      exact Or.inr hline

lemma ConcurrentSync.Steady.release (h : s.Steady source) (hh : s.holder = some (.looking [])) :
    ConcurrentSync.Steady source { s with holder := none } := by
  refine ⟨h.covered, h.mirrored, fun _ _ _ hnew => by simp at hnew, fun d => ?_⟩
  rcases h.inLine d with (hjob | ⟨x, hmem, hd⟩) | hline
  · exact Or.inl (Or.inl hjob)
  · obtain rfl : Holder.looking [] = x := Option.some.inj (hh.symm.trans hmem)
    cases hd
  · rw [armedSoon_of_not_acting (by simp [hh])] at hline
    rw [armedSoon_of_not_acting (by simp)]
    exact Or.inr hline

lemma ConcurrentSync.Step.exists_effects (h : Step native s s') : ∃ es, s'.engine.effects = s.engine.effects ++ es := by
  cases h with
  | act => exact exists_effects_meet ..
  | enter | enlist | takeOut | retire | repoint | update | acquire | look | release =>
    exact ⟨[], (List.append_nil _).symm⟩

theorem ConcurrentSync.Steady.step (h : s.Steady source) (hx : Exclusive native source) (hno : Unrefused s'.engine)
    (hstep : Step native s s') : s'.Steady source := by
  have hqueue : ∀ {j : Job}, j.Covered → ∀ j' ∈ j :: s.jobs, j'.Covered := fun hj =>
    List.forall_mem_cons.mpr ⟨hj, h.covered⟩
  have hmore : ∀ {j : Job}, ∀ j' ∈ s.jobs, j' ∈ j :: s.jobs := fun _ => List.mem_cons_of_mem _
  cases hstep with
  | enter | takeOut => exact h.grow (fun _ hj => hj) h.covered rfl rfl rfl rfl
  | enlist => exact h.grow hmore (hqueue (Table.covered_enlisting _ _)) rfl rfl rfl rfl
  | retire => exact h.grow hmore (hqueue (Table.covered_retiring _ _)) rfl rfl rfl rfl
  | repoint => exact h.grow hmore (hqueue (Table.covered_repointing _ _ _)) rfl rfl rfl rfl
  | update _ _ _ hj => exact h.update hj
  | acquire _ _ hfree => exact h.acquire hfree
  | look hh => exact h.look hh
  | act hh => exact h.act hx hh hno
  | release hh => exact h.release hh

theorem ConcurrentSync.Steady.leads (h : s.Steady source) (hx : Exclusive native source)
    (hleads : ConcurrentSync.Leads native s s') (hno : Unrefused s'.engine) : s'.Steady source := by
  induction hleads with
  | refl => exact h
  | tail _ hstep ih =>
    obtain ⟨es, heffects⟩ := hstep.exists_effects
    exact (ih (hno.of_append heffects)).step hx hno hstep

/-! ### At rest -/

/-- What calls can lead to from an empty table and a source that watches nothing. -/
def ConcurrentSync.Reached (native : NativeWatches σ) (source : σ → Source) (s : ConcurrentSync σ) : Prop :=
  ∃ e : Engine σ, e.table = {} ∧ (source e.world).watched = [] ∧ ConcurrentSync.Leads native { engine := e } s

/-- **Native watches converge.** However the steps of registrations, removals and changes of where targets lead come,
when all calls have returned and no watch was refused, the armed directories and those that the source watches
are the directories of the index, and each is watched once. -/
theorem ConcurrentSync.Reached.synchronised (h : s.Reached native source) (hx : Exclusive native source)
    (hrest : s.AtRest) (hno : Unrefused s.engine) (d : Path) :
    s.engine.table.isArmed d = s.engine.table.index.contains d ∧
      (source s.engine.world).isWatching d = s.engine.table.index.contains d ∧
      (source s.engine.world).timesWatched d = if s.engine.table.index.contains d then 1 else 0 := by
  obtain ⟨e, ht, hw, hleads⟩ := h
  have hsteady := (steady_start ht hw).leads hx hleads hno
  have howes : ¬ s.Owes d := by
    rintro (⟨j, hj, -⟩ | ⟨x, hmem, -⟩)
    · rw [hrest.jobs] at hj
      cases hj
    · rw [hrest.holder] at hmem
      cases hmem
  have hline := (hsteady.inLine d).resolve_left howes
  rw [armedSoon_of_not_acting (by simp [hrest.holder])] at hline
  refine ⟨hline.symm, ?_, ?_⟩
  · rw [hsteady.mirrored.isWatching_eq, hline]
    rfl
  · rw [hsteady.mirrored.timesWatched_eq, hline]
    rfl

/-- `/a` is removed, and `/b` is registered after the removal has looked at their directory: the watch is ended while
the directory is held, and asked for again by the registration. -/
theorem synchronised_crossed : ∃ s : ConcurrentSync Scripted.World,
    s.Reached Scripted.World.system.toNativeWatches Scripted.World.source ∧ s.AtRest ∧ s.engine.requests.length = 3 ∧
      s.engine.table.index.contains .root = true ∧ s.engine.world.source.timesWatched .root = 1 := by
  let a : Path := ⟨[0x2f, 0x61]⟩
  let b : Path := ⟨[0x2f, 0x62]⟩
  let start : Engine Scripted.World := { dispatcher := { workers := [{}] }, world := {} }
  have h₁ : ConcurrentSync.Leads Scripted.World.system.toNativeWatches { engine := start } _ :=
    .single (.enter a (.plain a) rfl)
  have h₂ := h₁.tail (.enlist 0 (by decide +kernel))
  have h₃ := h₂.tail (.update (.add a ⟨.root, [0x61]⟩) [] [.root] (by decide +kernel))
  have h₄ := h₃.tail (.acquire [.root] (by decide +kernel) rfl)
  have h₅ := ((h₄.tail (.look rfl)).tail (.act rfl)).tail (.release rfl)
  -- the removal looks while nobody holds the directory
  have h₆ := (h₅.tail (.takeOut a 0 (by decide +kernel))).tail (.retire 0 (by decide +kernel))
  have h₇ := h₆.tail (.update (.remove a ⟨.root, [0x61]⟩) [] [.root] (by decide +kernel))
  have h₈ := (h₇.tail (.acquire [.root] (by decide +kernel) rfl)).tail (.look rfl)
  -- the registration changes the index before the removal acts
  have h₉ := (h₈.tail (.enter b (.plain b) (by decide +kernel))).tail (.enlist 1 (by decide +kernel))
  have h₁₀ := h₉.tail (.update (.add b ⟨.root, [0x62]⟩) [] [.root] (by decide +kernel))
  have h₁₁ := ((h₁₀.tail (.act rfl)).tail (.release rfl)).tail (.acquire [.root] (by decide +kernel) rfl)
  have h₁₂ := ((h₁₁.tail (.look rfl)).tail (.act rfl)).tail (.release rfl)
  obtain ⟨s, hleads, hrest, hno, hlength, hused⟩ : ∃ s,
      ConcurrentSync.Leads Scripted.World.system.toNativeWatches { engine := start } s ∧ s.AtRest ∧ Unrefused s.engine ∧
        s.engine.requests.length = 3 ∧ s.engine.table.index.contains .root = true :=
    ⟨_, h₁₂, ⟨by decide +kernel, by decide +kernel, by decide +kernel, rfl⟩,
      unrefused_of_all (by decide +kernel), by decide +kernel, by decide +kernel⟩
  have hreached : s.Reached Scripted.World.system.toNativeWatches Scripted.World.source := ⟨start, rfl, rfl, hleads⟩
  obtain ⟨-, -, htimes⟩ := hreached.synchronised exclusive_world hrest hno .root
  rw [hused] at htimes
  exact ⟨s, hreached, hrest, hlength, hused, htimes⟩

end LinkWatch.Engine
