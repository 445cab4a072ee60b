import LinkWatch.Text.Duration

/-!
The state of an event loop as others see it, and its drain deadline. A request to drain notes its deadline first and
only then asks whether the loop is still running.
-/

namespace LinkWatch

/-- A reading of the clock, in nanoseconds. -/
structure Instant where
  nanos : Nat
deriving DecidableEq, Inhabited

namespace Instant

/-- The clock counts seconds in a signed word of 64 bits: the first reading beyond it. -/
def limit : Nat := UInt64.size / 2 * Duration.second

/-- The reading after a span of time, if the clock can show it. -/
def add? (t : Instant) (d : Duration) : Option Instant :=
  if t.nanos + d.nanos < limit then some ⟨t.nanos + d.nanos⟩ else none

end Instant

inductive LoopState where
  | running
  /-- No new batch is taken. -/
  | draining
  | stopped
deriving DecidableEq, Inhabited

def LoopState.name : LoopState → String
  | .running => "Running"
  | .draining => "Draining"
  | .stopped => "Stopped"

/-- What an event loop shares with those who stop it. -/
structure LoopControl where
  state : LoopState := .running
  deadline : Option Instant := none
deriving DecidableEq, Inhabited

namespace LoopControl

/-- Asks a running loop to drain; says whether it was running. -/
def requestDrain (deadline : Instant) (c : LoopControl) : Bool × LoopControl :=
  let c := { c with deadline := some deadline }
  match c.state with
  | .running => (true, { c with state := .draining })
  | _ => (false, c)

/-- The loop drains and its deadline has passed. -/
def overdue (now : Instant) (c : LoopControl) : Bool :=
  c.state == .draining && c.deadline.any fun d => d.nanos ≤ now.nanos

/-- The loop has ended. -/
def stop (c : LoopControl) : LoopControl := { c with state := .stopped }

/-- Asks a running loop to drain within a span of time from now, if the clock can show the deadline. -/
def beginDrain (now : Instant) (timeout : Duration) (c : LoopControl) : Option (Bool × LoopControl) :=
  (now.add? timeout).map fun deadline => c.requestDrain deadline

def summary (pollInterval : Duration) (c : LoopControl) : String :=
  s!"WatchLoop \x7b state: {c.state.name}, poll_interval: {pollInterval.text}, .. \x7d"

def handleSummary (c : LoopControl) : String := s!"WatchLoopHandle \x7b state: {c.state.name}, .. \x7d"

end LoopControl

end LinkWatch
