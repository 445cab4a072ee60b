import LinkWatch.Loop.Batch
import LinkWatch.Scripted.Roster
import LinkWatch.Scripted.World

/-!
A bench for an engine in scripted surroundings. Its event loop is never started: batches are handled where they
are handed in, and the workers then empty their queues. The bench remembers the target last registered for a
path, also after that target was taken out of the table.
-/

namespace LinkWatch.Scripted

/-- What was seen since the last report. -/
structure Report where
  /-- Calls of listeners, by name. -/
  calls : List (String × Path) := []
  /-- Directories whose native watch was asked for. -/
  watch : List Path := []
  /-- Directories whose native watch was to end. -/
  unwatch : List Path := []
  log : List String := []
deriving DecidableEq, Inhabited

namespace Report

/-- Records at level INFO and above are shown. -/
def shows (r : Log.Record) : Bool := r.level.rank ≤ Log.Level.info.rank

/-- The shown records of one actor. -/
def linesOf {σ : Type} (e : Engine σ) (actor : Actor) : List String :=
  e.effects.filterMap fun
    | .log a r => if a = actor && shows r then some r.text else none
    | _ => none

/-- Texts in order. -/
def sorted (ls : List String) : List String := ls.mergeSort fun a b => decide (a ≤ b)

/-- The shown records: those of the caller first, those of the workers last, in order where several workers
ran. -/
def linesAll {σ : Type} (threads : Nat) (e : Engine σ) : List String :=
  let workers := linesOf e .worker
  linesOf e .caller ++ linesOf e .eventLoop ++ if threads > 1 then sorted workers else workers

/-- Calls in the order of the listeners' names where several workers ran. -/
def arrange (threads : Nat) (calls : List (String × Path)) : List (String × Path) :=
  if threads > 1 then calls.mergeSort fun a b => decide (a.1 ≤ b.1) else calls

end Report

structure Bench where
  engine : Engine World
  roster : Roster := {}
  /-- The target last registered for a path. -/
  handles : List (Path × TargetId) := []
  threads : Nat := 1
  /-- Calls since the last report. -/
  calls : List (String × Path) := []

namespace Bench

/-- How long the idle event loop would wait for events. -/
def pollInterval : Duration := .ofMillis 10

/-- A bench with so many workers. -/
def start (threads : Nat) (tree : Tree) : Bench where
  engine := { dispatcher := .start threads, world := { tree } }
  threads := threads

/-! ### Handles and listeners -/

def handle? (b : Bench) (p : Path) : Option TargetId := Sorted.find? p.components b.handles

/-- Drops a handle; says whether there was one. -/
def forget (p : Path) (b : Bench) : Bool × Bench :=
  ((b.handle? p).isSome, { b with handles := Sorted.erase p.components b.handles })

/-- The owners outside the table: the script, and the targets of the handles. -/
def own (b : Bench) : Bench :=
  let handled := b.handles.flatMap fun h =>
    ((b.engine.table.target h.2).listeners.entries.filter fun e => e.2 == .strong).map Prod.fst
  { b with engine := { b.engine with held := b.roster.held ++ handled } }

/-- The listener of a name. -/
def meet (name : String) (b : Bench) : ListenerKey × Bench :=
  let (k, roster) := b.roster.meet name
  (k, { b with roster }.own)

/-- The listener of a name, unless nobody owns it any more. -/
def reach (name : String) (b : Bench) : Option ListenerKey × Bench :=
  let (k, b) := b.meet name
  (if b.engine.table.alive b.engine.outside k then some k else none, b)

/-- The script drops a listener; says whether it owned it. -/
def drop (name : String) (b : Bench) : Bool × Bench :=
  let (was, roster) := b.roster.drop name
  (was, { b with roster })

/-- Registers a listener in a scope, unless it is gone; says whether it was new there. -/
def add (scope : Table.Scope) (hold : Hold) (name : String) (b : Bench) : Option Bool × Bench :=
  match b.reach name with
  | (none, b) => (none, b)
  | (some k, b) =>
    let (new, engine) := b.engine.addListener scope hold k
    (some new, { b with engine })

/-- Takes a listener out of a scope. -/
def removeFrom (scope : Table.Scope) (name : String) (b : Bench) : Bool × Bench :=
  let (k, b) := b.meet name
  let (found, engine) := b.engine.removeFrom k scope
  (found, { b with engine })

/-- Takes a listener out everywhere. -/
def removeListener (name : String) (b : Bench) : Bool × Bench :=
  let (k, b) := b.meet name
  let (found, engine) := b.engine.removeListener k
  (found, { b with engine })

/-- The names of the live listeners of a scope. -/
def live (scope : Table.Scope) (b : Bench) : List String × Bench :=
  let b := b.own
  let (ks, engine) := b.engine.live scope
  (ks.map b.roster.name, { b with engine })

/-! ### Targets -/

/-- A target as others see it: the path as requested, and where it leads. -/
def view (b : Bench) (id : TargetId) : Path × Path :=
  let target := b.engine.table.target id
  (target.requested, target.resolution.resolved)

/-- The answer to a registration. -/
structure Registered where
  created : Bool
  /-- The target is the one of the handle. -/
  same : Bool
  target : TargetId

/-- Registers a path with a resolution, and keeps the target as its handle. -/
def register (p : Path) (r : Resolution) (b : Bench) : Registered × Bench :=
  let ((target, created), engine) := b.engine.register World.system.toNativeWatches p r
  (⟨created, b.handle? p == some target, target⟩,
    { b with engine, handles := Sorted.alter p (fun _ => target) b.handles })

/-- Resolves a path in the tree. -/
def resolve (p : Path) (b : Bench) : Except WatchError Resolution × Bench :=
  let (answer, world) := LinkWatch.resolve World.system.toFilesystem p b.engine.world
  (answer, { b with engine := { b.engine with world } })

def repoint (id : TargetId) (r : Resolution) (b : Bench) : Option Resolution × Bench :=
  let (previous, engine) := b.engine.repoint World.system.toNativeWatches id r
  (previous, { b with engine })

def remove (p : Path) (b : Bench) : Option TargetId × Bench :=
  let (id, engine) := b.engine.remove World.system.toNativeWatches p
  (id, { b with engine })

/-- What others see while the native watches of a registration are under way. -/
structure Meanwhile where
  target : Option TargetId
  targetsFor : List TargetId
  refcount : Nat
  watching : Bool
  count : Nat

def meanwhile (p q : Path) (e : Engine World) : Meanwhile where
  target := e.table.find? p
  targetsFor := (q.entry?.map e.table.targetsFor).getD []
  refcount := (q.parent.map e.table.index.refcount).getD 0
  watching := q.parent.any fun dir => e.world.source.isWatching dir
  count := e.table.registered.length

/-- Registers a path as leading to `q`, and looks at the table before native watches are asked for. -/
def registerHeld (p q : Path) (b : Bench) : Meanwhile × Registered × Bench :=
  let ((_, _), _, enrolled) := b.engine.enroll p (.plain q)
  let (answer, b) := b.register p (.plain q)
  (meanwhile p q enrolled, answer, b)

/-! ### The event loop -/

/-- The workers empty their queues, and exit if they may. -/
def settle (b : Bench) : Bench :=
  let (ns, dispatcher) := b.engine.dispatcher.drain b.roster.ready
  let records := ns.flatMap fun n => (b.roster.outcome n.key).records n.path
  { b with
    engine := { b.engine with
      dispatcher := dispatcher.leaveAll
      effects := b.engine.effects ++ records.map (Effect.log .worker) }
    calls := b.calls ++ ns.map fun n => (b.roster.name n.key, n.path) }

/-- Handles a batch; says whether the workers still take notifications, as far as there are listeners to ask. -/
def batch (events : List Event) (b : Bench) : Bool × Bench :=
  let b := b.own
  let b := { b with engine := b.engine.process World.system.toSystem events }.settle
  (b.engine.dispatcher.accepting || b.roster.members.isEmpty, b)

def modifyWorld (f : World → World) (b : Bench) : Bench :=
  { b with engine := { b.engine with world := f b.engine.world } }

/-- Changes the tree. -/
def change (c : Change) (b : Bench) : Bench := b.modifyWorld fun w => { w with tree := w.tree.apply c }

/-- Asks the loop to drain; says whether it was running. -/
def drain (timeout : Duration) (b : Bench) : Bool × Bench :=
  let w := b.engine.world
  match w.control.beginDrain w.now timeout with
  | some (running, control) => (running, b.modifyWorld fun w => { w with control })
  | none => (false, b)

/-- Stops the workers. -/
def stopWorkers (b : Bench) : Bench :=
  { b with engine := { b.engine with dispatcher := b.engine.dispatcher.shutdown } }.settle

/-- What was seen since the last report. -/
def report (b : Bench) : Report × Bench :=
  let source := b.engine.world.source
  ({ calls := Report.arrange b.threads b.calls
     watch := source.watchCalls
     unwatch := source.unwatchCalls
     log := Report.linesAll b.threads b.engine },
    { b.modifyWorld (fun w => { w with source := { w.source with watchCalls := [], unwatchCalls := [] } }) with
      calls := []
      engine.effects := [] })

end Bench

end LinkWatch.Scripted
