import LinkWatch.Path.Basic
import LinkWatch.Listener.Set
import LinkWatch.Log.Record
import LinkWatch.Text.Quoted

/-!
The dispatcher runs listeners on workers. Each worker has a queue of its own, and all notifications of a listener
go to one worker, so that a listener sees them in order. Its steps are `submit`, `take`, `shutdown` and
`leave`; `drain` lets the workers empty their queues.
-/

namespace LinkWatch

/-- A call that a listener is due. -/
structure Notification where
  key : ListenerKey
  path : Path
deriving DecidableEq, Inhabited

structure Worker where
  /-- What it has still to do, next first. -/
  queue : List Notification := []
  exited : Bool := false
deriving DecidableEq, Inhabited

structure Dispatcher where
  workers : List Worker
  accepting : Bool := true
  /-- Which worker a listener goes to, up to the number of workers. -/
  route : ListenerKey → Nat := id

instance : Inhabited Dispatcher := ⟨{ workers := [{}] }⟩

namespace Dispatcher

/-- A dispatcher with so many workers, at least one. -/
def start (threads : Nat) : Dispatcher := { workers := List.replicate (max 1 threads) {} }

/-- The worker of a listener. -/
def workerFor (d : Dispatcher) (k : ListenerKey) : Nat := d.route k % d.workers.length

/-- Puts a notification into its queue; refused after shutdown. -/
def submit (n : Notification) (d : Dispatcher) : Bool × Dispatcher :=
  if d.accepting then
    (true, { d with workers := d.workers.modify (d.workerFor n.key) fun w => { w with queue := w.queue ++ [n] } })
  else (false, d)

/-- The worker `w` takes its next notification. -/
def take (w : Nat) (d : Dispatcher) : Option (Notification × Dispatcher) :=
  match d.workers[w]? with
  | some { queue := n :: rest, exited := false } =>
    some (n, { d with workers := d.workers.set w { queue := rest, exited := false } })
  | _ => none

/-- No notification is accepted any more. What is queued is still done. -/
def shutdown (d : Dispatcher) : Dispatcher := { d with accepting := false }

/-- The worker `w` exits once nothing can come any more. -/
def leave (w : Nat) (d : Dispatcher) : Option Dispatcher :=
  match d.workers[w]? with
  | some { queue := [], exited := false } =>
    if d.accepting then none else some { d with workers := d.workers.set w { queue := [], exited := true } }
  | _ => none

/-- How many workers have not exited. -/
def alive (d : Dispatcher) : Nat := d.workers.countP fun w => !w.exited

/-- How many notifications wait. -/
def queued (d : Dispatcher) : Nat := (d.workers.flatMap Worker.queue).length

/-- A notification of the listener waits. -/
def holds (d : Dispatcher) (k : ListenerKey) : Bool := d.workers.any fun w => w.queue.any fun n => n.key == k

/-- The first worker whose next notification passes a test. -/
def firstReady (ready : Notification → Bool) (d : Dispatcher) : Option Nat :=
  d.workers.findIdx? fun w => w.queue.head?.any ready

/-- The workers take at most `n` notifications that pass a test. -/
def takeSome (ready : Notification → Bool) : (n : Nat) → Dispatcher → List Notification × Dispatcher
  | 0, d => ([], d)
  | n + 1, d =>
    match (d.firstReady ready).bind (d.take ·) with
    | none => ([], d)
    | some (x, d) => ((x :: (takeSome ready n d).1), (takeSome ready n d).2)

/-- The workers empty their queues as far as the notifications pass a test. -/
def drain (ready : Notification → Bool) (d : Dispatcher) : List Notification × Dispatcher :=
  d.takeSome ready d.queued

/-- The workers that can exit do so. -/
def leaveAll (d : Dispatcher) : Dispatcher :=
  (List.range d.workers.length).foldl (fun d w => (d.leave w).getD d) d

/-! ### What is logged -/

def record (level : Log.Level) (message : String) : Log.Record := { level, origin := .dispatch, message }

def startRecord (threads : Nat) : Log.Record :=
  { record .debug "callback dispatcher started" with fields := [("threads", toString threads)] }

def dropRecord (path : Path) : Log.Record :=
  { record .debug "dispatcher shut down; dropping notification" with fields := [("path", path.quoted)] }

def stopRecord : Log.Record := record .debug "callback dispatcher shutting down"

/-- What each worker logs at its end. -/
def exitRecord : Log.Record := record .trace "callback worker exiting"

def summary (d : Dispatcher) : String :=
  s!"CallbackDispatcher \x7b alive: {d.alive}, shut_down: {!d.accepting} \x7d"

end Dispatcher

/-- How a call of a listener ends. -/
inductive Outcome where
  | returned
  /-- It panicked, with a text or with something else. -/
  | panicked (payload : Option String)
deriving DecidableEq, Inhabited

/-- What is logged of a call. -/
def Outcome.records (path : Path) : Outcome → List Log.Record
  | .returned => []
  | .panicked payload =>
    [{ level := .error, origin := .dispatch
       message := "listener panicked: " ++ payload.getD "<non-string panic payload>"
       fields := [("path", path.quoted)] }]

/-- The end of a notification's text, after its listener. -/
def Notification.pathSummary (n : Notification) : String := n.path.quoted ++ " \x7d"

end LinkWatch
