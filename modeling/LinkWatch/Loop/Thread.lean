import LinkWatch.Loop.Batch
import LinkWatch.Loop.Control

/-!
The thread of an event loop, as a machine of small steps. While the loop is running it reads a batch and handles
it event by event; it leaves once it is no longer running, or once the event source is closed. However the thread
ends, the loop is then stopped.
-/

namespace LinkWatch

/-- A system with an event source and the state of an event loop. -/
structure LoopSystem (σ : Type) extends System σ where
  /-- The next batch; nothing if none came in time. -/
  next : σ → Except WatchError (Option (List Event)) × σ
  /-- The state of the loop. -/
  state : σ → LoopState
  /-- The loop has ended. -/
  stop : σ → σ

/-- What the thread of an event loop is doing. -/
inductive LoopThread where
  | starting
  /-- About to look at the state of the loop. -/
  | idle
  /-- Waiting for a batch. -/
  | reading
  | busy (events : List Event) (notified : List Path)
  | leaving
  | ended
  /-- Killed by the answer to a question. -/
  | dead
deriving DecidableEq, Inhabited

namespace LoopThread

def record (level : Log.Level) (message : String) : Log.Record := { level, origin := .eventLoop, message }

/-- What is logged when the loop is asked to stop. -/
def drainRecord : Log.Record := record .debug "watch loop draining"

/-- The thread has ended, in one way or the other. -/
def isOver (t : LoopThread) : Bool := t == .ended || t == .dead

variable {σ : Type}

/-- One step of the thread. -/
def step (sys : LoopSystem σ) : LoopThread → Engine σ → LoopThread × Engine σ
  | .starting, e => (.idle, e.say (record .info "watch loop started"))
  | .idle, e => (if sys.state e.world = .running then .reading else .leaving, e)
  | .reading, e =>
    match sys.next e.world with
    | (.ok (some batch), world) => (.busy batch [], { e with world })
    | (.ok none, world) => (.idle, { e with world })
    | (.error .sourceClosed, world) =>
      (.leaving, { e with world }.say (record .debug "native event source closed; leaving watch loop"))
    | (.error err, world) =>
      (.idle, { e with world }.say (record .warn s!"failed to read native events: {err.message}"))
  | .busy [] _, e => (.idle, e)
  | .busy (event :: rest) notified, e =>
    let (late, world) := sys.overdue e.world
    let e := { e with world }
    if late then (.idle, e.say (Engine.droppedRecord (rest.length + 1)))
    else
      let (notified, e) := Engine.handleEvent sys.toSystem event notified e
      if sys.halted e.world then (.dead, { e with world := sys.stop e.world }) else (.busy rest notified, e)
  | .leaving, e =>
    let e := e.say (record .info "watch loop stopped")
    (.ended, { e with world := sys.stop e.world })
  | .ended, e => (.ended, e)
  | .dead, e => (.dead, e)

end LoopThread

end LinkWatch
