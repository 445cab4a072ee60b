import LinkWatch.Proofs.Engine.Native

/-!
The native source over a whole run. A run is a sequence of registrations, removals and changes of where targets
lead, made on a table that nobody else arms; in between anything else may happen, and the source may begin or cease to
refuse directories or be closed. Every call brings the directories that it touched in line with the index
(`Turn.Served`), and that carries the invariant of a run: the source watches each armed directory once, an armed
directory is held, and one that is held and not armed was refused by the last call that touched it.
-/

namespace LinkWatch.Engine

open Sorted (keys)
open Scripted (Source)
open Table (Alike)

variable {σ : Type} {native : NativeWatches σ} {source : σ → Source} {e : Engine σ}

/-! ### Calls -/

/-- A call that can change the table. -/
inductive Call where
  | register (p : Path) (r : Resolution)
  | remove (p : Path)
  | repoint (id : TargetId) (r : Resolution)

def Call.run (native : NativeWatches σ) (e : Engine σ) : Call → Engine σ
  | .register p r => (e.register native p r).2
  | .remove p => (e.remove native p).2
  | .repoint id r => (e.repoint native id r).2

/-- A target that is re-pointed was created before; it may have been removed. -/
def Call.Valid (t : Table) : Call → Prop
  | .repoint id _ => id < t.created.length
  | _ => True

/-- The directories of the old and the new resolution of the target that a call creates, removes or re-points. -/
def Call.touched (t : Table) : Call → List Path
  | .register p r => if (t.find? p).isSome then [] else r.directories
  | .remove p => ((t.find? p).map fun id => (t.target id).resolution.directories).getD []
  | .repoint id r =>
    if (t.target id).retired || (t.target id).resolution.same r then []
    else (t.target id).resolution.directories ++ r.directories

/-- A call of a run. -/
structure Turn (σ : Type) where
  call : Call
  before : Engine σ
  after : Engine σ

/-- What was done during the call. -/
def Turn.effects (turn : Turn σ) : List Effect := turn.after.effects.drop turn.before.effects.length

def Turn.touches (turn : Turn σ) (d : Path) : Bool :=
  Sorted.contains (turn.call.touched turn.before.table) d.components

/-- The requests for native watches so far. -/
def requests (e : Engine σ) : List Effect :=
  e.effects.filter fun | .watch .. => true | .unwatch .. => true | _ => false

/-- An engine after a run of calls, the last one first. -/
inductive Ran (native : NativeWatches σ) (source : σ → Source) : List (Turn σ) → Engine σ → Prop
  | start {e : Engine σ} : e.table = {} → (source e.world).watched = [] → Ran native source [] e
  | call {turns : List (Turn σ)} {e : Engine σ} (c : Call) : c.Valid e.table → Ran native source turns e →
      Ran native source (⟨c, e, c.run native e⟩ :: turns) (c.run native e)
  /-- Whatever happens to listeners, the dispatcher and the world, what the source refuses included. -/
  | elsewhere {turns : List (Turn σ)} {e e' : Engine σ} : Alike e.table e'.table → e'.table.armed = e.table.armed →
      (source e'.world).watched = (source e.world).watched → e'.requests = e.requests →
      Ran native source turns e → Ran native source turns e'

lemma Ran.reachable {turns : List (Turn σ)} (h : Ran native source turns e) : Reachable e := by
  induction h with
  | start ht _ => exact .start ht
  | @call turns e c hc _ ih =>
    cases c with
    | register p r => exact ih.register native p r
    | remove p => exact ih.remove native p
    | repoint id r => exact ih.repoint native id r hc
  | elsewhere ha _ _ _ _ ih => exact ih.elsewhere ha

lemma Ran.reachable_after {turns : List (Turn σ)} (h : Ran native source turns e) {turn : Turn σ} (ht : turn ∈ turns) :
    Reachable turn.after := by
  induction h with
  | start => cases ht
  | @call turns e c hc hran ih =>
    rcases List.mem_cons.mp ht with rfl | ht
    · exact (Ran.call c hc hran).reachable
    · exact ih ht
  | elsewhere _ _ _ _ _ ih => exact ih ht

/-! ### What a call does -/

lemma register_of_none (native : NativeWatches σ) {p : Path} (r : Resolution) (hp : e.table.find? p = none) :
    let entered := e.table.entered p r
    let j := entered.enlisting e.table.created.length
    (e.register native p r).2 = ({ e with table := entered.applied j.updates }.sync native j.touched).say
      (targetRecord "watch target registered" p) := by
  simp [register, enroll, Table.enter_of_none hp, Table.enlist_eq]

lemma remove_of_some (native : NativeWatches σ) {p : Path} {id : TargetId} (hp : e.table.find? p = some id) :
    let j := (e.table.takenOut p).retiring id
    let t := ((e.table.takenOut p).marked id).applied j.updates
    (e.remove native p).2 = ({ e with table := t }.sync native j.touched).say
      (targetRecord "watch target removed" (t.target id).requested) := by
  simp [remove, Table.takeOut_of_some hp, Table.retire_eq]

lemma repoint_of_changed (native : NativeWatches σ) {id : TargetId} {r : Resolution}
    (hact : (e.table.target id).retired = false) (hne : (e.table.target id).resolution.same r = false) :
    let j := e.table.repointing id r
    (e.repoint native id r).2 = { e with table := (e.table.turned id r).applied j.updates }.sync native j.touched := by
  rw [repoint, Table.repoint_of_changed hact hne, Table.repointed_eq]
  rfl

/-- A call does the work of a job on the index, brings the directories that it touched in line, and may log. -/
structure Call.Course (native : NativeWatches σ) (c : Call) (e e' : Engine σ) (t : Table) (j : Job)
    (logs : List Effect) : Prop where
  armed : t.armed = e.table.armed
  index : t.index = e.table.index
  covered : j.Covered
  touched : ∀ k, k ∈ keys j.touched ↔ k ∈ keys (c.touched e.table)
  table : e'.table = ({ e with table := t.applied j.updates }.sync native j.touched).table
  world : e'.world = ({ e with table := t.applied j.updates }.sync native j.touched).world
  effects : e'.effects = ({ e with table := t.applied j.updates }.sync native j.touched).effects ++ logs
  logged : ∀ x ∈ logs, ∃ actor r, x = .log actor r

lemma course_of_nothing {c : Call} (h : c.touched e.table = []) : c.Course native e e e.table ⟨[], []⟩ [] where
  armed := rfl
  index := rfl
  covered := List.forall_mem_nil _
  touched k := by rw [h]
  table := rfl
  world := rfl
  effects := (List.append_nil _).symm
  logged := List.forall_mem_nil _

lemma course_register (native : NativeWatches σ) {p : Path} (r : Resolution) (hp : e.table.find? p = none) :
    ∃ t j logs, (Call.register p r).Course native e (e.register native p r).2 t j logs := by
  let id := e.table.created.length
  let entered := e.table.entered p r
  have htarget : entered.target id = { requested := p, resolution := r } := Table.target_entered_new ..
  have htouched : (entered.enlisting id).touched = r.directories := by
    rw [Table.enlisting, htarget]
    rfl
  rw [register_of_none native r hp]
  refine ⟨entered, entered.enlisting id, [.log _ _], rfl, rfl, Table.covered_enlisting entered id, ?_, rfl, rfl, rfl,
    ?_⟩
  · intro k
    rw [htouched, Call.touched, hp]
    rfl
  · simp

lemma course_remove (native : NativeWatches σ) {p : Path} {id : TargetId} (hp : e.table.find? p = some id) :
    ∃ t j logs, (Call.remove p).Course native e (e.remove native p).2 t j logs := by
  let taken := e.table.takenOut p
  rw [remove_of_some native hp]
  refine ⟨taken.marked id, taken.retiring id, [.log _ _], rfl, rfl, Table.covered_retiring taken id, ?_, rfl, rfl, rfl,
    ?_⟩
  · intro k
    rw [Call.touched, hp]
    rfl
  · simp

lemma course_repoint (native : NativeWatches σ) {id : TargetId} {r : Resolution}
    (hact : (e.table.target id).retired = false) (hne : (e.table.target id).resolution.same r = false) :
    ∃ t j logs, (Call.repoint id r).Course native e (e.repoint native id r).2 t j logs := by
  rw [repoint_of_changed native hact hne]
  refine ⟨e.table.turned id r, e.table.repointing id r, [], rfl, rfl, Table.covered_repointing e.table id r, ?_, rfl,
    rfl, (List.append_nil _).symm, List.forall_mem_nil _⟩
  intro k
  rw [Table.keys_touched_repointing, Call.touched, if_neg (by simp [hact, hne]), keys, keys, keys, List.map_append,
    List.mem_append]

theorem exists_course (native : NativeWatches σ) (c : Call) (e : Engine σ) :
    ∃ t j logs, c.Course native e (c.run native e) t j logs := by
  cases c with
  | register p r =>
    cases hp : e.table.find? p with
    | none => exact course_register native r hp
    | some id =>
      rw [Call.run, register_of_some native r hp]
      exact ⟨_, _, _, course_of_nothing (by simp [Call.touched, hp])⟩
  | remove p =>
    cases hp : e.table.find? p with
    | some id => exact course_remove native hp
    | none =>
      rw [Call.run, remove_of_none native hp]
      exact ⟨_, _, _, course_of_nothing (by simp [Call.touched, hp])⟩
  | repoint id r =>
    by_cases hsame : (e.table.target id).retired = true ∨ (e.table.target id).resolution.same r = true
    · have hrun : (e.repoint native id r).2 = e := by
        rw [repoint, Table.repoint_of_unchanged hsame]
      rw [Call.run, hrun]
      exact ⟨_, _, _, course_of_nothing (by rw [Call.touched, if_pos (by simpa using hsame)])⟩
    · obtain ⟨hact, hne⟩ := not_or.mp hsame
      rw [Bool.not_eq_true] at hact hne
      exact course_repoint native hact hne

/-- What a call does to native watches. Directories that it does not touch stay as they were; of the others those in use
are armed or were refused just now, and the rest are not armed. -/
structure Turn.Served (turn : Turn σ) : Prop where
  orderly : Orderly (fun d => turn.after.table.index.contains d = true) turn.before.table.armed turn.effects
    turn.after.table.armed
  untouched : ∀ d, turn.touches d = false → turn.after.table.isArmed d = turn.before.table.isArmed d ∧
    turn.after.table.index.contains d = turn.before.table.index.contains d
  unused : ∀ d, turn.touches d = true → turn.after.table.index.contains d = false →
    turn.after.table.isArmed d = false
  used : ∀ d, turn.touches d = true → turn.after.table.index.contains d = true →
    turn.after.table.isArmed d = true ∨ Refused d turn.effects

theorem served_run (native : NativeWatches σ) (c : Call) (e : Engine σ) : Turn.Served ⟨c, e, c.run native e⟩ := by
  obtain ⟨t, j, logs, hcourse⟩ := exists_course native c e
  obtain ⟨es, hsynced⟩ := synced_sync native j.touched { e with table := t.applied j.updates }
  have htouches : ∀ d, Turn.touches ⟨c, e, c.run native e⟩ d = true ↔ d.components ∈ keys j.touched := by
    intro d
    rw [Turn.touches, Sorted.contains_iff, hcourse.touched]
  have heffects : Turn.effects ⟨c, e, c.run native e⟩ = es ++ logs := by
    rw [Turn.effects, hcourse.effects, hsynced.effects, List.append_assoc, List.drop_left]
  have hindex : (c.run native e).table.index = (t.applied j.updates).index := by
    rw [hcourse.table]
    exact hsynced.alike.index
  have harmed : (t.applied j.updates).armed = e.table.armed := hcourse.armed
  refine ⟨?_, fun d hd => ?_, fun d hd hunused => ?_, fun d hd hused => ?_⟩
  · have horderly := hsynced.orderly.append (orderly_logs hcourse.logged)
    rw [harmed] at horderly
    rw [heffects, hindex, hcourse.table]
    exact horderly
  · have hnot : d.components ∉ keys j.touched := fun hmem => by simp [(htouches d).mpr hmem] at hd
    refine ⟨?_, ?_⟩
    · rw [hcourse.table, hsynced.untouched d hnot]
      exact Table.isArmed_eq harmed d
    · rw [hindex, Table.contains_of_covered hcourse.covered hnot, hcourse.index]
  · rw [hindex] at hunused
    rw [hcourse.table]
    exact hsynced.unused d ((htouches d).mp hd) hunused
  · rw [hindex] at hused
    rw [hcourse.table, heffects]
    have hlast := hsynced.used d ((htouches d).mp hd) hused
    exact hlast.imp_right fun hr => hr.mono (List.subset_append_left ..)

lemma Mirrored.run (h : Mirrored source e) (hx : Exclusive native source) (c : Call) :
    Mirrored source (c.run native e) := by
  obtain ⟨t, j, logs, hcourse⟩ := exists_course native c e
  have hprepared : Mirrored source { e with table := t.applied j.updates } := by
    unfold Mirrored
    rw [show (t.applied j.updates).armed = e.table.armed from hcourse.armed]
    exact h
  unfold Mirrored
  rw [hcourse.table, hcourse.world]
  exact hprepared.sync hx j.touched

/-! ### Runs -/

/-- What holds after every call of a run. -/
structure Abreast (source : σ → Source) (turns : List (Turn σ)) (e : Engine σ) : Prop where
  mirrored : Mirrored source e
  used : ∀ d, e.table.isArmed d = true → e.table.index.contains d = true
  refused : ∀ d, e.table.index.contains d = true → e.table.isArmed d = false →
    ∃ turn ∈ turns.find? (·.touches d), Refused d turn.effects

lemma Ran.served {turns : List (Turn σ)} (h : Ran native source turns e) {turn : Turn σ} (ht : turn ∈ turns) :
    turn.Served := by
  induction h with
  | start => cases ht
  | @call turns e c _ _ ih =>
    rcases List.mem_cons.mp ht with rfl | ht
    · exact served_run native c e
    · exact ih ht
  | elsewhere _ _ _ _ _ ih => exact ih ht

lemma Abreast.call {turns : List (Turn σ)} (h : Abreast source turns e) (hx : Exclusive native source) (c : Call) :
    Abreast source (⟨c, e, c.run native e⟩ :: turns) (c.run native e) := by
  have hserved := served_run native c e
  refine ⟨h.mirrored.run hx c, fun d harmed => ?_, fun d hused hunarmed => ?_⟩
  · cases htouches : Turn.touches ⟨c, e, c.run native e⟩ d with
    | true =>
      by_contra hunused
      rw [hserved.unused d htouches (by simpa using hunused)] at harmed
      cases harmed
    | false =>
      obtain ⟨hsame, hcontains⟩ := hserved.untouched d htouches
      rw [hcontains]
      exact h.used d (hsame ▸ harmed)
  · cases htouches : Turn.touches ⟨c, e, c.run native e⟩ d with
    | true =>
      refine ⟨_, List.find?_cons_of_pos htouches, ?_⟩
      refine (hserved.used d htouches hused).resolve_left ?_
      simp [hunarmed]
    | false =>
      obtain ⟨hsame, hcontains⟩ := hserved.untouched d htouches
      rw [List.find?_cons_of_neg (by simp [htouches])]
      exact h.refused d (hcontains ▸ hused) (hsame ▸ hunarmed)

theorem Ran.abreast {turns : List (Turn σ)} (h : Ran native source turns e) (hx : Exclusive native source) :
    Abreast source turns e := by
  induction h with
  | start ht hw =>
    refine ⟨?_, ?_, ?_⟩
    · unfold Mirrored
      rw [ht]
      exact mirrors_empty hw
    · rw [ht]
      intro d harmed
      cases harmed
    · rw [ht]
      intro d hused
      cases hused
  | call c _ _ ih => exact ih.call hx c
  | @elsewhere turns e e' ha harmed hw _ _ ih =>
    have hsame : ∀ d, e'.table.isArmed d = e.table.isArmed d := Table.isArmed_eq harmed
    refine ⟨?_, fun d hd => ?_, fun d hused hunarmed => ?_⟩
    · unfold Mirrored
      rw [harmed]
      exact ih.mirrored.congr hw
    · rw [ha.index]
      exact ih.used d ((hsame d).symm.trans hd)
    · rw [ha.index] at hused
      exact ih.refused d hused ((hsame d).symm.trans hunarmed)

/-- The directories that the registered targets ask for. -/
def wanted (e : Engine σ) : List Path := e.table.targets.flatMap fun id => (e.table.target id).resolution.directories

lemma interestedIn_iff_directories {t : Table} {d : Path} {id : TargetId} :
    t.interestedIn d id = true ↔ d.components ∈ keys (t.target id).resolution.directories := by
  rw [Table.mem_keys_directories, Table.interestedIn, List.any_eq_true, keys, List.map_map, List.mem_map]
  exact exists_congr fun x => and_congr_right fun _ => Path.same_iff

lemma contains_wanted (h : e.table.Settled) (d : Path) :
    Sorted.contains e.wanted d.components = e.table.index.contains d := by
  rw [Bool.eq_iff_iff, h.contains_iff, h.refcount_eq, List.length_pos_iff_exists_mem, Sorted.contains_iff,
    Sorted.mem_keys]
  simp only [List.mem_filter, interestedIn_iff_directories]
  constructor
  · rintro ⟨d', hd', hkey⟩
    obtain ⟨id, hid, hdir⟩ := List.mem_flatMap.mp hd'
    exact ⟨id, hid, hkey ▸ Sorted.key_mem_keys hdir⟩
  · rintro ⟨id, hid, hdir⟩
    obtain ⟨d', hd', hkey⟩ := Sorted.mem_keys.mp hdir
    exact ⟨d', List.mem_flatMap.mpr ⟨id, hid, hd'⟩, hkey⟩

/-- **The native source mirrors the table.** After any run of calls the source watches each armed directory once and no
other; an armed directory is held; one that is held and not armed was refused by the last call that touched it. During
a call no watch of a held directory is ended, and none of an armed one is asked for. Without a refusal the source
watches exactly the directories that the registered targets ask for. -/
theorem Ran.mirrors {turns : List (Turn σ)} (h : Ran native source turns e) (hx : Exclusive native source) :
    (∀ d, (source e.world).timesWatched d = if e.table.isArmed d then 1 else 0) ∧
    (∀ d, e.table.isArmed d = true → 0 < e.table.index.refcount d) ∧
    (∀ d, 0 < e.table.index.refcount d → e.table.isArmed d = false →
      ∃ turn ∈ turns.find? (·.touches d), Refused d turn.effects) ∧
    (∀ turn ∈ turns, Orderly (fun d => 0 < turn.after.table.index.refcount d) turn.before.table.armed turn.effects
      turn.after.table.armed) ∧
    ((∀ turn ∈ turns, ∀ d, ¬ Refused d turn.effects) →
      ∀ d, (source e.world).timesWatched d = if Sorted.contains e.wanted d.components then 1 else 0) := by
  have hsettled := h.reachable.settled
  have habreast := h.abreast hx
  have htimes : ∀ d, (source e.world).timesWatched d = if e.table.isArmed d then 1 else 0 :=
    habreast.mirrored.timesWatched_eq
  refine ⟨htimes, fun d hd => ?_, fun d hheld hunarmed => ?_, fun turn hturn => ?_, fun hnone d => ?_⟩
  · exact (hsettled.contains_iff d).mp (habreast.used d hd)
  · exact habreast.refused d ((hsettled.contains_iff d).mpr hheld) hunarmed
  · have hheld : (fun d => turn.after.table.index.contains d = true) =
        fun d => 0 < turn.after.table.index.refcount d :=
      funext fun d => propext ((h.reachable_after hturn).settled.contains_iff d)
    exact hheld ▸ (h.served hturn).orderly
  · have hsame : e.table.isArmed d = e.table.index.contains d := by
      rw [Bool.eq_iff_iff]
      refine ⟨habreast.used d, fun hused => ?_⟩
      by_contra hunarmed
      obtain ⟨turn, hturn, hrefused⟩ := habreast.refused d hused (by simpa using hunarmed)
      exact hnone turn (List.mem_of_find?_eq_some hturn) d hrefused
    rw [htimes, hsame, contains_wanted hsettled]

/-- `/a` is registered while the source refuses its directory. -/
def refusedTurn : Turn Scripted.World :=
  let e : Engine Scripted.World :=
    { dispatcher := { workers := [{}] }, world := { source := { refused := [.root] } } }
  let c : Call := .register ⟨[0x2f, 0x61]⟩ (.plain ⟨[0x2f, 0x61]⟩)
  ⟨c, e, c.run Scripted.World.system.toNativeWatches e⟩

/-- Then `/b` is registered, and the source does not refuse the directory any more. -/
def grantedTurn : Turn Scripted.World :=
  let w := refusedTurn.after.world
  let e := { refusedTurn.after with world := { w with source := w.source.allow .root } }
  let c : Call := .register ⟨[0x2f, 0x62]⟩ (.plain ⟨[0x2f, 0x62]⟩)
  ⟨c, e, c.run Scripted.World.system.toNativeWatches e⟩

/-- The first call leaves the directory without a watch, the second retries. -/
theorem mirrors_grantedTurn :
    (∃ turn ∈ [refusedTurn].find? (·.touches .root), Refused .root turn.effects) ∧
      grantedTurn.after.world.source.timesWatched .root = 1 := by
  have hrefused : Ran Scripted.World.system.toNativeWatches Scripted.World.source [refusedTurn] refusedTurn.after :=
    .call _ trivial (.start rfl rfl)
  have hallowed : Ran Scripted.World.system.toNativeWatches Scripted.World.source [refusedTurn] grantedTurn.before :=
    .elsewhere (Alike.refl refusedTurn.after.table) rfl rfl rfl hrefused
  have hgranted : Ran Scripted.World.system.toNativeWatches Scripted.World.source [grantedTurn, refusedTurn]
      grantedTurn.after := .call _ trivial hallowed
  have harmed : grantedTurn.after.table.isArmed .root = true := by decide +kernel
  obtain ⟨-, -, hlast, -⟩ := hrefused.mirrors exclusive_world
  obtain ⟨htimes, -⟩ := hgranted.mirrors exclusive_world
  refine ⟨hlast .root (by decide +kernel) (by decide +kernel), ?_⟩
  have honce := htimes .root
  rwa [harmed] at honce

end LinkWatch.Engine
