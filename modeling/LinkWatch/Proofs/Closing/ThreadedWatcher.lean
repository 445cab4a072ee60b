import LinkWatch.Lifecycle
import LinkWatch.Loop.Thread
import LinkWatch.Proofs.Engine.Acts
import LinkWatch.Proofs.Listener.Shift

/-!
A watcher with all its threads: the event loop, the workers, callers, and one that closes it. They take their steps in
any order. While the loop handles an event it submits one notification at a time, and the others come between; that
the loop's own steps, which handle an event at once, are made of these is `exists_leads_loop`.

A closing is asked for once. What it waits for may take longer than it wants to wait, and the clock may not be able
to show a deadline: it then dies of the question. Neither depends on a clock here, either can happen at any time.
-/

namespace LinkWatch

open Dispatcher (Shift DispatchEvent)

variable {τ : Type}

/-- What the threads of a watcher share beside the world. -/
structure Surroundings (τ : Type) where
  world : τ
  control : LoopControl := {}
  now : Instant := ⟨0⟩

/-- A question to the world. -/
def Surroundings.ask {α : Type} (f : τ → α × τ) (s : Surroundings τ) : α × Surroundings τ :=
  ((f s.world).1, { s with world := (f s.world).2 })

/-- The world around a watcher, with its event source. -/
structure Outside (τ : Type) extends System τ where
  next : τ → Except WatchError (Option (List Event)) × τ
  closeSource : τ → Except WatchError Unit × τ

def Outside.system (out : Outside τ) : LoopSystem (Surroundings τ) where
  entryKind p := Surroundings.ask (out.entryKind p)
  readLink p := Surroundings.ask (out.readLink p)
  currentDir := Surroundings.ask out.currentDir
  watch dir := Surroundings.ask (out.watch dir)
  unwatch dir := Surroundings.ask (out.unwatch dir)
  overdue s := (s.control.overdue s.now, s)
  halted s := out.halted s.world
  next := Surroundings.ask out.next
  state s := s.control.state
  stop s := { s with control := s.control.stop }

lemma Outside.spares (out : Outside τ) : out.system.Spares Surroundings.control :=
  ⟨fun _ _ => rfl, fun _ _ => rfl, fun _ => rfl, fun _ _ => rfl, fun _ _ => rfl⟩

/-- How a wait ended: with an answer, or nothing if the clock could not show its deadline. -/
abbrev Wait := Option (Except TerminationError Bool)

/-- A watcher with its threads. -/
structure ThreadedWatcher (τ : Type) where
  engine : Engine (Surroundings τ)
  thread : LoopThread := .starting
  /-- The call that a worker is making. -/
  calls : Nat → Option Notification := fun _ => none
  /-- What has happened to the dispatcher, first first. -/
  history : List DispatchEvent := []
  lifecycle : Lifecycle
  /-- What the closing does next. -/
  stage : Lifecycle.Stage := .enter
  /-- The loop was asked to stop. -/
  stopping : Bool := false
  /-- The waits of the closing so far, first first. -/
  waits : List (Party × Wait) := []
  /-- The closing has died. -/
  broken : Bool := false

namespace ThreadedWatcher

/-- The dispatcher and its workers. -/
def shift (s : ThreadedWatcher τ) : Shift := ⟨s.engine.dispatcher, s.calls, s.history⟩

def withShift (s : ThreadedWatcher τ) (x : Shift) : ThreadedWatcher τ :=
  { s with engine := { s.engine with dispatcher := x.dispatcher }, calls := x.calls, history := x.history }

def say (r : Log.Record) (s : ThreadedWatcher τ) : ThreadedWatcher τ := { s with engine := s.engine.say r }

def setWorld (world : Surroundings τ) (s : ThreadedWatcher τ) : ThreadedWatcher τ :=
  { s with engine := { s.engine with world } }

/-- The loop submits a notification. -/
def hand (n : Notification) (s : ThreadedWatcher τ) : ThreadedWatcher τ :=
  { s with
    engine := s.engine.submit n
    history := s.history ++ [.submitted n (s.engine.dispatcher.submit n).1] }

/-- One step of the loop's thread. -/
def loopStep (out : Outside τ) (s : ThreadedWatcher τ) : ThreadedWatcher τ :=
  { s with thread := (s.thread.step out.system s.engine).1, engine := (s.thread.step out.system s.engine).2 }

/-! ### The closing -/

/-- Asks the loop to drain, with the deadline if the clock can show it. -/
def stopLoop (deadline : Option Instant) (s : ThreadedWatcher τ) : ThreadedWatcher τ :=
  let s := { s with stopping := true }
  match deadline with
  | none => { s with broken := true }
  | some deadline =>
    let (running, control) := s.engine.world.control.requestDrain deadline
    let s := s.setWorld { s.engine.world with control }
    if running then s.say LoopThread.drainRecord else s

def stopWorkers (s : ThreadedWatcher τ) : ThreadedWatcher τ :=
  let s' := s.withShift { s.shift with dispatcher := s.engine.dispatcher.shutdown, history := s.history ++ [.shutDown] }
  if s.engine.dispatcher.accepting then s'.say Dispatcher.stopRecord else s'

/-- What a wait answers when it ends. -/
def answer (s : ThreadedWatcher τ) : Party → Except TerminationError Bool
  | .loop =>
    if !s.thread.isOver then .ok false
    else if s.thread = .dead then .error ⟨"watch loop thread panicked"⟩
    else .ok true
  | .workers => .ok (s.engine.dispatcher.alive == 0)

def await (p : Party) (deadline : Option Instant) (s : ThreadedWatcher τ) :
    Except TerminationError Bool × ThreadedWatcher τ :=
  match deadline with
  | none => (.ok false, { s with waits := s.waits ++ [(p, none)], broken := true })
  | some _ => (s.answer p, { s with waits := s.waits ++ [(p, some (s.answer p))] })

def premises (out : Outside τ) (deadline : Option Instant) : Premises (ThreadedWatcher τ) where
  closeSource s :=
    let (answer, world) := Surroundings.ask out.closeSource s.engine.world
    (answer, s.setWorld world)
  executor
    | .loop =>
      { isShutdown := fun s => s.stopping
        shutdown := stopLoop deadline
        await := fun _ => await .loop deadline }
    | .workers =>
      { isShutdown := fun s => !s.engine.dispatcher.accepting
        shutdown := stopWorkers
        await := fun _ => await .workers deadline }
  say := say
  halted s := s.broken

/-- One stage of the closing. A deadline that it asks for is this one, if the clock can show it. -/
def close (out : Outside τ) (deadline : Option Instant) (s : ThreadedWatcher τ) : ThreadedWatcher τ :=
  let (stage, lifecycle, s) := s.stage.step (premises out deadline) (s.lifecycle, s)
  { s with stage, lifecycle }

/-! ### Steps -/

/-- A worker's own move. -/
def IsWork : Shift.DispatchStep → Prop
  | .take _ => True
  | .finish _ _ => True
  | .leave _ => True
  | _ => False

/-- A step of one of the threads. -/
inductive Step (out : Outside τ) : ThreadedWatcher τ → ThreadedWatcher τ → Prop
  /-- A caller or the loop does something that the dispatcher does not see, a listener gets or loses an owner, or time
  passes. -/
  | aside {s : ThreadedWatcher τ} {e : Engine (Surroundings τ)} :
      Engine.Aside Surroundings.control { s.engine with held := e.held } e → Step out s { s with engine := e }
  /-- The loop goes on, except that it handles no event. -/
  | loop {s : ThreadedWatcher τ} :
      (∀ event rest notified, s.thread = .busy (event :: rest) notified →
        (out.system.overdue s.engine.world).1 = true) →
      Step out s (s.loopStep out)
  /-- Handling an event, the loop submits a notification. -/
  | hand {s : ThreadedWatcher τ} {event : Event} {rest : List Event} {notified : List Path} (n : Notification) :
      s.thread = .busy (event :: rest) notified → Step out s (s.hand n)
  /-- The loop is done with an event. -/
  | handled {s : ThreadedWatcher τ} {event : Event} {rest : List Event} {notified : List Path} (notified' : List Path) :
      s.thread = .busy (event :: rest) notified → Step out s { s with thread := .busy rest notified' }
  /-- The loop dies of the answer to a question. -/
  | died {s : ThreadedWatcher τ} {event : Event} {rest : List Event} {notified : List Path} :
      s.thread = .busy (event :: rest) notified →
      Step out s ({ s with thread := .dead }.setWorld (out.system.stop s.engine.world))
  | work {s : ThreadedWatcher τ} {m : Shift.DispatchStep} {x : Shift} : IsWork m → s.shift.step m = some x →
      Step out s (s.withShift x)
  | close {s : ThreadedWatcher τ} (deadline : Option Instant) : Step out s (s.close out deadline)

abbrev Leads (out : Outside τ) : ThreadedWatcher τ → ThreadedWatcher τ → Prop := Relation.ReflTransGen (Step out)

/-- Handling an event, the loop takes these steps. -/
lemma leads_acts (out : Outside τ) {s : ThreadedWatcher τ} {event : Event} {rest : List Event} {notified : List Path}
    {e : Engine (Surroundings τ)} (hthread : s.thread = .busy (event :: rest) notified)
    (h : Engine.Acts Surroundings.control s.engine e) : ∃ history, Leads out s { s with engine := e, history } := by
  induction h with
  | refl => exact ⟨s.history, .refl⟩
  | tail _ hact ih =>
    obtain ⟨history, hleads⟩ := ih
    cases hact with
    | aside ha => exact ⟨history, hleads.tail (.aside ⟨ha.dispatcher, rfl, ha.submitted, ha.part⟩)⟩
    | submit n => exact ⟨_, hleads.tail (.hand n hthread)⟩

/-- Whatever the loop's thread does in one step of its own is made of steps that others can come between. -/
theorem exists_leads_loop (out : Outside τ) (s : ThreadedWatcher τ) :
    ∃ history, Leads out s { s.loopStep out with history } := by
  by_cases hbusy : ∀ event rest notified, s.thread = .busy (event :: rest) notified →
      (out.system.overdue s.engine.world).1 = true
  · exact ⟨s.history, .single (.loop hbusy)⟩
  · push Not at hbusy
    obtain ⟨event, rest, notified, hthread, hlate⟩ := hbusy
    have htime : out.system.overdue s.engine.world = (false, s.engine.world) := Prod.ext (by simpa using hlate) rfl
    have hacts := Engine.acts_handleEvent out.spares event notified s.engine
    obtain ⟨history, hleads⟩ := leads_acts out hthread hacts
    refine ⟨history, ?_⟩
    simp only [loopStep, hthread, LoopThread.step, htime, Bool.false_eq_true, if_false]
    split
    · exact hleads.tail (.died hthread)
    · exact hleads.tail (.handled _ hthread)

/-- A watcher that is open and has just been started. -/
structure Fresh (s : ThreadedWatcher τ) : Prop where
  dispatcher : ∃ threads route, 0 < threads ∧ s.engine.dispatcher = Dispatcher.fresh threads route
  submitted : Engine.submitted s.engine = []
  thread : s.thread = .starting
  calls : s.calls = fun _ => none
  history : s.history = []
  stage : s.stage = .enter
  closed : s.lifecycle.closed = false
  stopping : s.stopping = false
  waits : s.waits = []
  broken : s.broken = false

end ThreadedWatcher

end LinkWatch
