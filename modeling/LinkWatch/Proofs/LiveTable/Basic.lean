import LinkWatch.Proofs.Engine.ConcurrentSync
import LinkWatch.Proofs.Walk.Retracing

/-!
Registrations and the event loop in a tree that changes meanwhile. A registration resolves its path one question at
a time, then notes the target with its interests, and then brings its directories in line one by one. The event loop
takes the queued events in order; each target that the index finds for an event is resolved anew, re-pointed, and its
directories are brought in line. Between any two of these steps a link may be retargeted, and an event comes of it if
the source watches the directory of the link just then.

A link that was read can come to point elsewhere without any event telling it: it is retargeted before its directory is
watched, or its event is handled before the target is noted, or a target is left as it was because its resolution
failed. Each state keeps account of what was missed so (`Walker.missed`, `LiveTable.astray`); a link that comes to point
where it was read to point is not missed any more, and neither is one that an event is to tell of.

What the loop logs and hands to listeners leaves targets and native watches alone, and is left out.
-/

namespace LinkWatch

open Resolution (Stage Place)
open Scripted (Source)

/-- The tree after the link came to point elsewhere. -/
def Snapshot.retarget (link target : Path) (f : Snapshot) : Snapshot :=
  { f with readLink := fun p => if p.same link then .ok target else f.readLink p }

/-- The link points elsewhere than it was read to point, and no event of it waits. -/
def Hop.lost (f : Snapshot) (queue : List Event) (h : Hop) : Bool :=
  !h.stands f && !queue.any fun event => h.entry.same event.entry

/-- What is missed among links that were read, when the link of one entry is looked at again. -/
def reckon (f : Snapshot) (queue : List Event) (e : Entry) (hops missed : List Hop) : List Hop :=
  missed.filter (fun h => !h.entry.same e) ++ hops.filter fun h => h.entry.same e && h.lost f queue

/-- A resolution under way. -/
structure Walker where
  asked : Path
  stage : Stage
  /-- Links that it has read and that point elsewhere by now, of which no event waits. -/
  missed : List Hop

namespace Walker

def start (asked : Path) : Walker := ⟨asked, .start asked, []⟩

/-- The walker one step further. -/
def ask (f : Snapshot) (w : Walker) : Walker := { w with stage := w.stage.ask f w.asked.tidy }

def reckon (f : Snapshot) (queue : List Event) (e : Entry) (w : Walker) : Walker :=
  { w with missed := LinkWatch.reckon f queue e w.stage.hops w.missed }

end Walker

/-- A registration. -/
inductive Caller where
  | resolving (walker : Walker)
  /-- The target is new, and these directories are still to be brought in line. -/
  | arming (id : TargetId) (dirs : List Path)
  | returned

/-- The event loop: an event, and the targets that are still to be handled for it. -/
inductive Duty where
  | idle
  | sorting (event : Event) (ids : List TargetId)
  | resolving (event : Event) (ids : List TargetId) (id : TargetId) (walker : Walker)
  | arming (event : Event) (ids : List TargetId) (id : TargetId) (dirs : List Path)

namespace Caller

def walkers : Caller → List Walker
  | .resolving w => [w]
  | _ => []

/-- The directories that are owed to a target. -/
def armings : Caller → List (TargetId × List Path)
  | .arming id dirs => [(id, dirs)]
  | _ => []

def reckon (f : Snapshot) (queue : List Event) (e : Entry) : Caller → Caller
  | .resolving w => .resolving (w.reckon f queue e)
  | c => c

end Caller

namespace Duty

/-- The resolution of a target anew. -/
def renewals : Duty → List (TargetId × Walker)
  | .resolving _ _ id w => [(id, w)]
  | _ => []

def armings : Duty → List (TargetId × List Path)
  | .arming _ _ id dirs => [(id, dirs)]
  | _ => []

/-- The targets that are still to be handled for an event. -/
def owed : Duty → List (Event × TargetId)
  | .idle => []
  | .sorting event ids => ids.map (event, ·)
  | .resolving event ids _ _ => ids.map (event, ·)
  | .arming event ids _ _ => ids.map (event, ·)

def reckon (f : Snapshot) (queue : List Event) (e : Entry) : Duty → Duty
  | .resolving event ids id w => .resolving event ids id (w.reckon f queue e)
  | d => d

end Duty

/-- A table with registrations and events under way, in a tree that changes. -/
structure LiveTable (σ : Type) where
  engine : Engine σ
  tree : Snapshot
  /-- The events that the loop has not taken yet. -/
  queue : List Event := []
  callers : List Caller := []
  loop : Duty := .idle
  /-- What was missed of the links that registered targets lead through. -/
  astray : List (TargetId × Hop) := []

namespace LiveTable

variable {σ : Type}

/-- The resolutions under way. -/
def walkers (v : LiveTable σ) : List Walker := v.callers.flatMap Caller.walkers ++ v.loop.renewals.map Prod.snd

/-- The directories that calls still owe to targets. -/
def armings (v : LiveTable σ) : List (TargetId × List Path) := v.callers.flatMap Caller.armings ++ v.loop.armings

/-- What was missed of all targets, when this is what was missed of one. -/
def miss (id : TargetId) (hops : List Hop) (v : LiveTable σ) : List (TargetId × Hop) :=
  (v.astray.filter fun x => x.1 ≠ id) ++ hops.map (id, ·)

/-- The links of a target that point elsewhere than it says, and of which no event waits. -/
def lostHops (id : TargetId) (v : LiveTable σ) : List Hop :=
  (v.engine.table.target id).resolution.hops.filter (Hop.lost v.tree v.queue)

/-- What targets miss of the link of an entry while calls owe them a look at its directory. -/
def exposed (e : Entry) (v : LiveTable σ) : List (TargetId × Hop) :=
  (v.armings.filter fun x => x.2.any (·.same e.dir)).flatMap fun x =>
    ((v.lostHops x.1).filter fun h => h.entry.same e).map (x.1, ·)

/-- The link of an entry has changed: what was missed of it is counted anew. -/
def reckon (e : Entry) (v : LiveTable σ) : LiveTable σ :=
  { v with
    callers := v.callers.map (Caller.reckon v.tree v.queue e)
    loop := v.loop.reckon v.tree v.queue e
    astray := (v.astray.filter fun x => !x.2.entry.same e) ++ v.exposed e }

/-! ### Steps -/

inductive WatchStep where
  /-- A registration is asked for. -/
  | ask (p : Path)
  | caller (i : Nat)
  | loop
  | retarget (link target : Path)

/-- A path that is not watched yet is to be resolved; any other call returns at once. -/
def ask (p : Path) (v : LiveTable σ) : LiveTable σ :=
  if p.isEmpty then v
  else
    match (absolutize v.tree.filesystem p ()).1 with
    | .error _ => v
    | .ok asked =>
      if (v.engine.table.find? asked).isSome then v
      else { v with callers := v.callers ++ [.resolving (.start asked)] }

/-- A registration goes on. -/
def advance (native : NativeWatches σ) (i : Nat) (v : LiveTable σ) : Option (LiveTable σ) :=
  match v.callers[i]? with
  | some (.resolving w) =>
    match w.stage with
    | .ended (.error _) => some { v with callers := v.callers.set i .returned }
    | .ended (.ok place) =>
      let ((id, new), dirs, engine) := v.engine.enroll w.asked place.resolution
      if new then
        some { v with engine, callers := v.callers.set i (.arming id dirs), astray := v.miss id w.missed }
      else some { v with callers := v.callers.set i .returned }
    | _ => some { v with callers := v.callers.set i (.resolving (w.ask v.tree)) }
  | some (.arming id (d :: dirs)) =>
    some { v with engine := v.engine.syncOne native d, callers := v.callers.set i (.arming id dirs) }
  | some (.arming id []) =>
    let requested := (v.engine.table.target id).requested
    some { v with
      engine := v.engine.say (Engine.targetRecord "watch target registered" requested)
      callers := v.callers.set i .returned }
  | _ => none

/-- The loop goes on. An event that it takes is missed by a registration that has read the link of the event before and
has not noted its target yet, unless the link points there again or another event of it waits. -/
def turn (native : NativeWatches σ) (v : LiveTable σ) : Option (LiveTable σ) :=
  match v.loop with
  | .idle =>
    match v.queue with
    | [] => none
    | event :: queue =>
      some { v with
        queue
        callers := v.callers.map (Caller.reckon v.tree queue event.entry)
        loop := .sorting event (v.engine.table.targetsFor event.entry) }
  | .sorting _ [] => some { v with loop := .idle }
  | .sorting event (id :: ids) =>
    let target := v.engine.table.target id
    if target.resolution.classify event.entry.dir event.entry.name = .none then
      some { v with loop := .sorting event ids }
    else some { v with loop := .resolving event ids id (.start target.requested) }
  | .resolving event ids id w =>
    match w.stage with
    | .ended (.error _) => some { v with loop := .sorting event ids, astray := v.miss id (v.lostHops id) }
    | .ended (.ok place) =>
      let astray := v.miss id w.missed
      match v.engine.table.repoint id place.resolution with
      | (none, _) => some { v with loop := .sorting event ids, astray }
      | (some (_, dirs), table) =>
        some { v with engine := { v.engine with table }, loop := .arming event ids id dirs, astray }
    | _ => some { v with loop := .resolving event ids id (w.ask v.tree) }
  | .arming event ids id (d :: dirs) =>
    some { v with engine := v.engine.syncOne native d, loop := .arming event ids id dirs }
  | .arming event ids _ [] => some { v with loop := .sorting event ids }

/-- A link comes to point elsewhere, or where it pointed before. -/
def retarget (source : σ → Source) (link target : Path) (v : LiveTable σ) : Option (LiveTable σ) :=
  match v.tree.entryKind link, link.entry? with
  | .ok .symlink, some entry =>
    let queue := if (source v.engine.world).isWatching entry.dir then v.queue ++ [⟨entry, .modify⟩] else v.queue
    some ({ v with tree := v.tree.retarget link target, queue }.reckon entry)
  | _, _ => none

/-- Takes a step, if it can be taken. -/
def step (native : NativeWatches σ) (source : σ → Source) (v : LiveTable σ) : WatchStep → Option (LiveTable σ)
  | .ask p => some (v.ask p)
  | .caller i => v.advance native i
  | .loop => v.turn native
  | .retarget link target => v.retarget source link target

/-- Steps lead from one state to the other. -/
abbrev Leads (native : NativeWatches σ) (source : σ → Source) : LiveTable σ → LiveTable σ → Prop :=
  Relation.ReflTransGen fun v v' => ∃ m, v.step native source m = some v'

/-- Takes one step after the other, if all of them can be taken. -/
def run (native : NativeWatches σ) (source : σ → Source) (v : LiveTable σ) (moves : List WatchStep) :
    Option (LiveTable σ) := moves.foldlM (step native source) v

variable {native : NativeWatches σ} {source : σ → Source} {v v' : LiveTable σ}

lemma run_cons (m : WatchStep) (moves : List WatchStep) :
    v.run native source (m :: moves) = (v.step native source m).bind fun u => u.run native source moves := by
  rw [run, List.foldlM_cons]
  rfl

lemma Leads.of_run : ∀ {moves : List WatchStep} {v v' : LiveTable σ}, v.run native source moves = some v' →
    Leads native source v v'
  | [], v, v', h => by
    obtain rfl : v = v' := by simpa [run] using h
    exact .refl
  | m :: moves, v, v', h => by
    obtain ⟨u, hu, hrest⟩ : ∃ u, v.step native source m = some u ∧ u.run native source moves = some v' := by
      simpa [run_cons, Option.bind_eq_some_iff] using h
    exact .head ⟨m, hu⟩ (of_run hrest)

/-- All events are handled and all calls have returned. -/
structure AtRest (v : LiveTable σ) : Prop where
  queue : v.queue = []
  loop : v.loop = .idle
  callers : ∀ c ∈ v.callers, c = .returned

/-! ### What a step can do -/

/-- The engine with a target more and its interests noted. -/
def joined (asked : Path) (r : Resolution) (e : Engine σ) : Engine σ :=
  { e with table := (e.table.entered asked r).enlisted e.table.created.length }

inductive Stepped (native : NativeWatches σ) (source : σ → Source) (v : LiveTable σ) : LiveTable σ → Prop
  | stay : Stepped native source v v
  | ask {p asked : Path} : (absolutize v.tree.filesystem p ()).1 = .ok asked →
      Stepped native source v { v with callers := v.callers ++ [.resolving (.start asked)] }
  /-- The path cannot be resolved, or is registered meanwhile. -/
  | leave {i : Nat} {w : Walker} : v.callers[i]? = some (.resolving w) →
      Stepped native source v { v with callers := v.callers.set i .returned }
  | walk {i : Nat} {w : Walker} : v.callers[i]? = some (.resolving w) →
      Stepped native source v { v with callers := v.callers.set i (.resolving (w.ask v.tree)) }
  | join {i : Nat} {w : Walker} {place : Place} : v.callers[i]? = some (.resolving w) →
      w.stage = .ended (.ok place) → v.engine.table.find? w.asked = none →
      Stepped native source v
        { v with
          engine := joined w.asked place.resolution v.engine
          callers := v.callers.set i (.arming v.engine.table.created.length place.resolution.directories)
          astray := v.miss v.engine.table.created.length w.missed }
  | arm {i : Nat} {id : TargetId} {d : Path} {dirs : List Path} : v.callers[i]? = some (.arming id (d :: dirs)) →
      Stepped native source v
        { v with engine := v.engine.syncOne native d, callers := v.callers.set i (.arming id dirs) }
  | complete {i : Nat} {id : TargetId} {r : Log.Record} : v.callers[i]? = some (.arming id []) →
      Stepped native source v { v with engine := v.engine.say r, callers := v.callers.set i .returned }
  | take {event : Event} {queue : List Event} : v.loop = .idle → v.queue = event :: queue →
      Stepped native source v
        { v with
          queue
          callers := v.callers.map (Caller.reckon v.tree queue event.entry)
          loop := .sorting event (v.engine.table.targetsFor event.entry) }
  | finish {event : Event} : v.loop = .sorting event [] → Stepped native source v { v with loop := .idle }
  | skip {event : Event} {id : TargetId} {ids : List TargetId} : v.loop = .sorting event (id :: ids) →
      (v.engine.table.target id).resolution.classify event.entry.dir event.entry.name = .none →
      Stepped native source v { v with loop := .sorting event ids }
  | renew {event : Event} {id : TargetId} {ids : List TargetId} : v.loop = .sorting event (id :: ids) →
      Stepped native source v
        { v with loop := .resolving event ids id (.start (v.engine.table.target id).requested) }
  | rewalk {event : Event} {id : TargetId} {ids : List TargetId} {w : Walker} : v.loop = .resolving event ids id w →
      Stepped native source v { v with loop := .resolving event ids id (w.ask v.tree) }
  | fail {event : Event} {id : TargetId} {ids : List TargetId} {w : Walker} : v.loop = .resolving event ids id w →
      Stepped native source v { v with loop := .sorting event ids, astray := v.miss id (v.lostHops id) }
  /-- The target leads there already, or was retired. -/
  | confirm {event : Event} {id : TargetId} {ids : List TargetId} {w : Walker} {place : Place} :
      v.loop = .resolving event ids id w → w.stage = .ended (.ok place) →
      (v.engine.table.target id).retired = true ∨
        (v.engine.table.target id).resolution.same place.resolution = true →
      Stepped native source v { v with loop := .sorting event ids, astray := v.miss id w.missed }
  | repoint {event : Event} {id : TargetId} {ids : List TargetId} {w : Walker} {place : Place} {dirs : List Path} :
      v.loop = .resolving event ids id w → w.stage = .ended (.ok place) →
      (v.engine.table.repoint id place.resolution).2 = v.engine.table.repointed id place.resolution →
      (∀ d ∈ place.resolution.directories, d.components ∈ Sorted.keys dirs) →
      Stepped native source v
        { v with
          engine := { v.engine with table := v.engine.table.repointed id place.resolution }
          loop := .arming event ids id dirs
          astray := v.miss id w.missed }
  | rearm {event : Event} {id : TargetId} {ids : List TargetId} {d : Path} {dirs : List Path} :
      v.loop = .arming event ids id (d :: dirs) →
      Stepped native source v { v with engine := v.engine.syncOne native d, loop := .arming event ids id dirs }
  | handled {event : Event} {id : TargetId} {ids : List TargetId} : v.loop = .arming event ids id [] →
      Stepped native source v { v with loop := .sorting event ids }
  /-- A link is retargeted, and the queue tells it if its directory is watched. -/
  | retarget {link target : Path} {entry : Entry} {queue : List Event} : link.entry? = some entry →
      queue = (if (source v.engine.world).isWatching entry.dir then v.queue ++ [⟨entry, .modify⟩] else v.queue) →
      Stepped native source v ({ v with tree := v.tree.retarget link target, queue }.reckon entry)

lemma stepped_ask (p : Path) (v : LiveTable σ) : v.Stepped native source (v.ask p) := by
  unfold ask
  split
  · exact .stay
  · split
    · exact .stay
    · rename_i asked hasked
      split
      · exact .stay
      · exact .ask hasked

lemma active_entered (t : Table) (asked : Path) (r : Resolution) :
    ((t.entered asked r).target t.created.length).retired = false := by
  rw [Table.target_entered_new]

lemma enroll_of_none {e : Engine σ} {asked : Path} {r : Resolution} (h : e.table.find? asked = none) :
    e.enroll asked r = ((e.table.created.length, true), r.directories, joined asked r e) := by
  rw [Engine.enroll, Table.enter_of_none h]
  dsimp only
  rw [if_pos rfl, Table.enlist_of_active (active_entered e.table asked r), Table.target_entered_new]
  rfl

lemma stepped_advance {i : Nat} (h : v.advance native i = some v') : v.Stepped native source v' := by
  unfold advance at h
  split at h
  · rename_i w hc
    split at h
    · obtain rfl := Option.some.inj h
      exact .leave hc
    · rename_i place hover
      cases hp : v.engine.table.find? w.asked with
      | none =>
        rw [enroll_of_none hp] at h
        obtain rfl := Option.some.inj h
        exact .join hc hover hp
      | some id =>
        rw [Engine.enroll, Table.enter_of_some hp] at h
        obtain rfl := Option.some.inj h
        exact .leave hc
    · obtain rfl := Option.some.inj h
      exact .walk hc
  · rename_i hc
    obtain rfl := Option.some.inj h
    exact .arm hc
  · rename_i hc
    obtain rfl := Option.some.inj h
    exact .complete hc
  · cases h

/-- A renewal touches all directories of the new resolution. -/
lemma mem_keys_repoint (t : Table) (id : TargetId) (r : Resolution) : ∀ d ∈ r.directories, d.components ∈
    Sorted.keys (Sorted.ofList (((t.target id).resolution.interests ++ r.interests).map Entry.dir)) := by
  intro d hd
  exact Table.keys_touched_repointing.mpr (Or.inr (Sorted.key_mem_keys hd))

lemma stepped_turn (h : v.turn native = some v') : v.Stepped native source v' := by
  unfold turn at h
  split at h
  · rename_i hloop
    split at h
    · cases h
    · rename_i hqueue
      obtain rfl := Option.some.inj h
      exact .take hloop hqueue
  · rename_i hloop
    obtain rfl := Option.some.inj h
    exact .finish hloop
  · rename_i hloop
    dsimp only at h
    split at h
    · rename_i hnone
      obtain rfl := Option.some.inj h
      exact .skip hloop hnone
    · obtain rfl := Option.some.inj h
      exact .renew hloop
  · rename_i event ids id w hloop
    split at h
    · obtain rfl := Option.some.inj h
      exact .fail hloop
    · rename_i place hover
      by_cases hsame : (v.engine.table.target id).retired = true ∨
          (v.engine.table.target id).resolution.same place.resolution = true
      · rw [Table.repoint_of_unchanged hsame] at h
        obtain rfl := Option.some.inj h
        exact .confirm hloop hover hsame
      · obtain ⟨hact, hne⟩ := not_or.mp hsame
        rw [Bool.not_eq_true] at hact hne
        have hchanged := Table.repoint_of_changed hact hne
        rw [hchanged] at h
        obtain rfl := Option.some.inj h
        exact .repoint hloop hover (congrArg Prod.snd hchanged)
          (mem_keys_repoint v.engine.table id place.resolution)
    · obtain rfl := Option.some.inj h
      exact .rewalk hloop
  · rename_i hloop
    obtain rfl := Option.some.inj h
    exact .rearm hloop
  · rename_i hloop
    obtain rfl := Option.some.inj h
    exact .handled hloop

lemma stepped_retarget {link target : Path} (h : v.retarget source link target = some v') :
    v.Stepped native source v' := by
  unfold retarget at h
  split at h
  · rename_i entry _ hentry
    obtain rfl := Option.some.inj h
    exact .retarget hentry rfl
  · cases h

lemma stepped {m : WatchStep} (h : v.step native source m = some v') : v.Stepped native source v' := by
  cases m with
  | ask p =>
    obtain rfl : v.ask p = v' := Option.some.inj h
    exact stepped_ask p v
  | caller i => exact stepped_advance h
  | loop => exact stepped_turn h
  | retarget link target => exact stepped_retarget h

end LiveTable

end LinkWatch
