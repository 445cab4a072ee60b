import LinkWatch.Scripted.Bench
import LinkWatch.Watcher

/-!
A watcher at work in scripted surroundings, with the thread of its event loop. Time is the script's: it passes only
where the script waits, and between two steps of the script the thread goes on until it waits for a batch.
-/

namespace LinkWatch.Scripted

structure Session where
  watcher : Watcher World
  thread : LoopThread := .starting
  roster : Roster := {}
  /-- The number of workers. -/
  threads : Nat := 1
  /-- Calls since the last report. -/
  calls : List (String × Path) := []
  /-- How long the thread waits for a batch. -/
  pollInterval : Duration
  /-- When the thread no longer waits for a batch. -/
  wakes : Instant := ⟨0⟩
  /-- How long a batch may still be handled after the loop was asked to stop. -/
  drainTimeout : Duration
  shutdownRequested : Bool := false
  /-- Somebody has learnt how the thread ended. -/
  joined : Bool := false
  /-- The clock could not show a deadline. -/
  broken : Bool := false

namespace Session

def engine (s : Session) : Engine World := s.watcher.engine

def world (s : Session) : World := s.watcher.engine.world

def setEngine (e : Engine World) (s : Session) : Session := { s with watcher := { s.watcher with engine := e } }

def modifyWorld (f : World → World) (s : Session) : Session :=
  s.setEngine { s.engine with world := f s.engine.world }

def modifySource (f : Source → Source) (s : Session) : Session :=
  s.modifyWorld fun w => { w with source := f w.source }

/-- Listeners that the script owns are owned outside the table. -/
def own (s : Session) : Session := s.setEngine { s.engine with held := s.roster.held }

/-! ### Threads -/

/-- One step of the event loop's thread. -/
def stepThread (s : Session) : Session :=
  let s := s.own.modifyWorld fun w => { w with onLoop := true }
  let (thread, e) := s.thread.step World.system { s.engine with actor := .eventLoop }
  let s := { s with thread }.setEngine { e with actor := .caller, world := { e.world with onLoop := false } }
  if thread = .reading then { s with wakes := ⟨s.world.now.nanos + s.pollInterval.nanos⟩ } else s

/-- The thread waits for a batch, and there is none. -/
def isWaiting (s : Session) : Bool :=
  let source := s.world.source
  s.thread == .reading && source.batches.isEmpty && source.readFailures.isEmpty && !source.closed

/-- At most `n` steps, until the thread waits or has ended. -/
def steps : Nat → Session → Session
  | 0, s => s
  | n + 1, s => if s.thread.isOver || s.isWaiting then s else steps n s.stepThread

/-- More steps than the thread can make without waiting. -/
def bound (s : Session) : Nat :=
  let source := s.world.source
  let busy := match s.thread with
    | .busy events _ => events.length
    | _ => 0
  10 + busy + source.batches.flatten.length + 4 * source.batches.length + 4 * source.readFailures.length

/-- The workers empty their queues, and exit if they may. -/
def settle (s : Session) : Session :=
  let (ns, dispatcher) := s.engine.dispatcher.drain s.roster.ready
  let records := ns.flatMap fun n => (s.roster.outcome n.key).records n.path
  { s with calls := s.calls ++ ns.map fun (n : Notification) => (s.roster.name n.key, n.path) }.setEngine
    { s.engine with
      dispatcher := dispatcher.leaveAll
      effects := s.engine.effects ++ records.map (Effect.log .worker) }

/-- The thread goes on until it waits or has ended, and the workers finish. -/
def run (s : Session) : Session := (steps s.bound s).settle

/-- Time passes, at most until `limit` and no longer than the thread lives. -/
def advance (limit : Instant) (s : Session) : Session :=
  let s := s.run
  if s.thread.isOver then s
  else if s.wakes.nanos ≤ limit.nanos then
    if s.world.control.state = .running then
      let late := limit.nanos - s.wakes.nanos
      let poll := max 1 s.pollInterval.nanos
      { s with wakes := ⟨s.wakes.nanos + (late / poll + 1) * poll⟩ }.modifyWorld fun w => { w with now := limit }
    else (s.modifyWorld fun w => { w with now := s.wakes }).stepThread.run
  else s.modifyWorld fun w => { w with now := limit }

/-- Time passes until the thread has ended, if it will end. -/
def finish (s : Session) : Session :=
  let s := s.run
  if s.thread.isOver || s.world.control.state = .running then s else s.advance s.wakes

/-! ### Executors -/

def shutdownLoop (s : Session) : Session :=
  let s := { s with shutdownRequested := true }
  match s.world.control.beginDrain s.world.now s.drainTimeout with
  | none => { s with broken := true }
  | some (running, control) =>
    let s := s.modifyWorld fun w => { w with control }
    if running then s.setEngine (s.engine.say LoopThread.drainRecord) else s

def awaitLoop (timeout : Duration) (s : Session) : Except TerminationError Bool × Session :=
  match s.world.now.add? timeout with
  | none => (.ok false, { s with broken := true })
  | some limit =>
    let s := s.advance limit
    if !s.thread.isOver then (.ok false, s)
    else if s.thread == .dead && !s.joined then (.error ⟨"watch loop thread panicked"⟩, { s with joined := true })
    else (.ok true, { s with joined := true })

def shutdownWorkers (s : Session) : Session :=
  let e := s.engine
  let s := s.setEngine { e with dispatcher := e.dispatcher.shutdown }
  if e.dispatcher.accepting then s.setEngine (s.engine.say Dispatcher.stopRecord) else s

def awaitWorkers (timeout : Duration) (s : Session) : Except TerminationError Bool × Session :=
  match s.world.now.add? timeout with
  | none => (.ok false, { s with broken := true })
  | some _ =>
    let s := s.settle
    (.ok (s.engine.dispatcher.alive == 0), s)

def premises : Premises Session where
  closeSource s :=
    let (answer, source) := s.world.source.close
    (answer, s.modifySource fun _ => source)
  executor
    | .loop =>
      { isShutdown := fun s => s.shutdownRequested
        shutdown := shutdownLoop
        await := awaitLoop }
    | .workers =>
      { isShutdown := fun s => !s.engine.dispatcher.accepting
        shutdown := shutdownWorkers
        await := awaitWorkers }
  say r s := s.setEngine (s.engine.say r)
  halted s := s.broken

/-- Closes the watcher. -/
def close (s : Session) : Session :=
  let (lifecycle, s) := Lifecycle.close premises (s.watcher.lifecycle, s)
  { s with watcher := { s.watcher with lifecycle } }

/-! ### Requests -/

/-- A watcher with so many workers. -/
def create (threads : Nat) (timeout poll drain : Duration) (tree : Tree) (source : Source) : Session where
  watcher := { engine := { dispatcher := .start threads, world := { tree, source } }, lifecycle := { timeout } }
  threads := threads
  pollInterval := poll
  drainTimeout := drain

/-- The same, with its event loop waiting for the first batch. -/
def start (threads : Nat) (timeout poll drain : Duration) (tree : Tree) (source : Source) : Session :=
  (create threads timeout poll drain tree source).run

/-- A request to the watcher. -/
def ask {α : Type} (f : Watcher World → α × Watcher World) (s : Session) : α × Session :=
  let s := s.own
  let (a, watcher) := f s.watcher
  (a, { s with watcher })

/-- The listener of a name. -/
def meet (name : String) (s : Session) : ListenerKey × Session :=
  let (k, roster) := s.roster.meet name
  (k, { s with roster }.own)

/-- A request with a listener, unless nobody owns it any more. -/
def askWith {α : Type} (name : String) (f : ListenerKey → Watcher World → α × Watcher World) (s : Session) :
    Option α × Session :=
  let (k, s) := s.meet name
  if s.engine.table.alive s.engine.outside k then
    let (a, s) := s.ask (f k)
    (some a, s)
  else (none, s)

/-- Resolves a path as it is and registers it, with a listener for it; says whether the target was new. -/
def watch (p : Path) (k : ListenerKey) (w : Watcher World) : Except WatchError Bool × Watcher World :=
  match resolve World.system.toFilesystem p w.engine.world with
  | (.error e, world) => (.error e, { w with engine := { w.engine with world } })
  | (.ok r, world) =>
    let ((id, created), engine) := { w.engine with world }.register World.system.toNativeWatches p r
    (.ok created, { w with engine := (engine.addListener (.only id) .strong k).2 })

/-- The script drops a listener; says whether it owned it. -/
def drop (name : String) (s : Session) : Bool × Session :=
  let (was, roster) := s.roster.drop name
  (was, { s with roster })

/-- What was seen since the last report. -/
def report (s : Session) : Report × Session :=
  let source := s.world.source
  let shown : Report :=
    { calls := Report.arrange s.threads s.calls
      watch := source.watchCalls
      unwatch := source.unwatchCalls
      log := Report.linesAll s.threads s.engine }
  let s := s.modifySource fun source => { source with watchCalls := [], unwatchCalls := [] }
  (shown, { s with calls := [] }.setEngine { s.engine with effects := [] })

/-- Calls since the last report. -/
def takeCalls (s : Session) : List (String × Path) × Session :=
  (Report.arrange s.threads s.calls, { s with calls := [] })

end Session

end LinkWatch.Scripted
