import LinkWatch.Listener.Dispatcher
import LinkWatch.System
import LinkWatch.Table.Basic

/-!
A table at work: the table, the dispatcher, the state of the system around them, and what was done so far, in
order. Here the operations of the table are put together from their indivisible steps, and
after each the native watches are brought in line with the index.
-/

namespace LinkWatch

/-- Who does something. -/
inductive Actor where
  | caller
  | eventLoop
  | worker
deriving DecidableEq, Inhabited

/-- Something done that can be seen from outside. -/
inductive Effect where
  /-- A native watch was asked for. -/
  | watch (dir : Path) (answer : Except WatchError Unit)
  /-- The end of a native watch was asked for. -/
  | unwatch (dir : Path) (answer : Except WatchError Unit)
  /-- A notification was handed to the dispatcher. -/
  | submit (n : Notification) (accepted : Bool)
  | log (actor : Actor) (r : Log.Record)

structure Engine (σ : Type) where
  table : Table := {}
  dispatcher : Dispatcher
  world : σ
  effects : List Effect := []
  /-- Who is at work. -/
  actor : Actor := .caller
  /-- The listeners that somebody outside the table owns. -/
  held : List ListenerKey := []

namespace Engine

variable {σ : Type}

/-- Somebody outside the table owns the listener. -/
def outside (e : Engine σ) (k : ListenerKey) : Bool := e.held.contains k || e.dispatcher.holds k

def say (r : Log.Record) (e : Engine σ) : Engine σ := { e with effects := e.effects ++ [Effect.log e.actor r] }

/-! ### Native watches -/

/-- What is logged of a refused native watch. -/
def refusedRecord (dir : Path) (err : WatchError) : Log.Record where
  level := .warn
  origin := .table
  message := "failed to register directory watch"
  fields := [("dir", dir.quoted), ("error", err.message)]

/-- What is logged of a native watch that did not end. -/
def unreleasedRecord (dir : Path) (err : WatchError) : Log.Record where
  level := .debug
  origin := .table
  message := "failed to release directory watch"
  fields := [("dir", dir.quoted), ("error", err.message)]

/-- Asks for a native watch; a refused one is asked for again when the directory is touched again. -/
def watch (sys : NativeWatches σ) (dir : Path) (e : Engine σ) : Engine σ :=
  let (answer, world) := sys.watch dir e.world
  let e := { e with world, effects := e.effects ++ [Effect.watch dir answer] }
  match answer with
  | .ok _ => { e with table := e.table.arm dir }
  | .error err => e.say (refusedRecord dir err)

/-- Ends a native watch, whatever the system says to it. -/
def unwatch (sys : NativeWatches σ) (dir : Path) (e : Engine σ) : Engine σ :=
  let (answer, world) := sys.unwatch dir e.world
  let e := { e with world, effects := e.effects ++ [Effect.unwatch dir answer], table := e.table.disarm dir }
  match answer with
  | .ok _ => e
  | .error err => e.say (unreleasedRecord dir err)

/-- Brings one directory in line with the index. -/
def syncOne (sys : NativeWatches σ) (e : Engine σ) (dir : Path) : Engine σ :=
  match e.table.need dir with
  | .watch => e.watch sys dir
  | .unwatch => e.unwatch sys dir
  | .nothing => e

/-- Brings directories in line with the index. -/
def sync (sys : NativeWatches σ) (dirs : List Path) (e : Engine σ) : Engine σ := dirs.foldl (syncOne sys) e

/-! ### Targets -/

/-- The part of a registration that comes before native watches: the target, whether it is new, and the directories
it touched. -/
def enroll (requested : Path) (r : Resolution) (e : Engine σ) : (TargetId × Bool) × List Path × Engine σ :=
  let (found, table) := e.table.enter requested r
  if found.2 then
    let (touched, table) := table.enlist found.1
    (found, touched, { e with table })
  else (found, [], { e with table })

/-- What is logged of a target of the table. -/
def targetRecord (message : String) (requested : Path) : Log.Record where
  level := .debug
  origin := .table
  message := message
  fields := [("requested", requested.quoted)]

/-- Finds the target of a path or creates it; says whether it did. The resolution counts only for a new
target. -/
def register (sys : NativeWatches σ) (requested : Path) (r : Resolution) (e : Engine σ) :
    (TargetId × Bool) × Engine σ :=
  let (found, touched, e) := e.enroll requested r
  if found.2 then (found, (e.sync sys touched).say (targetRecord "watch target registered" requested))
  else (found, e)

/-- Takes the target of a path out. -/
def remove (sys : NativeWatches σ) (requested : Path) (e : Engine σ) : Option TargetId × Engine σ :=
  match e.table.takeOut requested with
  | (none, _) => (none, e)
  | (some id, table) =>
    let (touched, table) := table.retire id
    let e := { e with table }.sync sys touched
    (some id, e.say (targetRecord "watch target removed" (table.target id).requested))

/-- Gives a target a new resolution; the previous one, if it changed. -/
def repoint (sys : NativeWatches σ) (id : TargetId) (r : Resolution) (e : Engine σ) : Option Resolution × Engine σ :=
  match e.table.repoint id r with
  | (none, _) => (none, e)
  | (some (previous, touched), table) => (some previous, { e with table }.sync sys touched)

/-! ### Listeners -/

def addListener (scope : Table.Scope) (hold : Hold) (k : ListenerKey) (e : Engine σ) : Bool × Engine σ :=
  let (new, table) := e.table.addListener e.outside scope hold k
  (new, { e with table })

def removeFrom (k : ListenerKey) (scope : Table.Scope) (e : Engine σ) : Bool × Engine σ :=
  let (found, table) := e.table.removeFrom e.outside k scope
  (found, { e with table })

def removeListener (k : ListenerKey) (e : Engine σ) : Bool × Engine σ :=
  let (found, table) := e.table.removeListener e.outside k
  (found, { e with table })

/-- The live listeners of a scope, in order; dead ones are dropped. -/
def live (scope : Table.Scope) (e : Engine σ) : List ListenerKey × Engine σ :=
  let (ks, table) := e.table.live e.outside scope
  (ks, { e with table })

/-- Hands a notification to the dispatcher. -/
def submit (n : Notification) (e : Engine σ) : Engine σ :=
  let (accepted, dispatcher) := e.dispatcher.submit n
  let e := { e with dispatcher, effects := e.effects ++ [Effect.submit n accepted] }
  if accepted then e
  else e.say (Dispatcher.dropRecord n.path)

end Engine

end LinkWatch
