import LinkWatch.Lifecycle
import LinkWatch.Scripted.Source

/-!
Executors that follow a script: they count what they are asked, and waiting for them ends as the script says.
With a scripted event source they make the premises of a closing, which also keep the log.
-/

namespace LinkWatch.Scripted

/-- How waiting for an executor ends. -/
inductive Ending where
  | terminated
  | timedOut
  | interrupted (reason : String)
deriving DecidableEq, Inhabited

/-- An executor that ends as the script says. -/
structure StubExecutor where
  ending : Ending := .terminated
  shutDown : Bool := false
  shutdownCalls : Nat := 0
  awaitCalls : Nat := 0
  lastTimeout : Option Duration := none
deriving DecidableEq, Inhabited

namespace StubExecutor

def shutdown (e : StubExecutor) : StubExecutor := { e with shutdownCalls := e.shutdownCalls + 1, shutDown := true }

def await (timeout : Duration) (e : StubExecutor) : Except TerminationError Bool × StubExecutor :=
  (match e.ending with
    | .terminated => .ok true
    | .timedOut => .ok false
    | .interrupted reason => .error ⟨reason⟩,
    { e with awaitCalls := e.awaitCalls + 1, lastTimeout := some timeout })

end StubExecutor

/-- A source, two executors and a log. -/
structure StubWatcher where
  source : Source := {}
  loop : StubExecutor := {}
  workers : StubExecutor := {}
  log : List Log.Record := []
deriving Inhabited

namespace StubWatcher

def executor (w : StubWatcher) : Party → StubExecutor
  | .loop => w.loop
  | .workers => w.workers

def setExecutor (p : Party) (e : StubExecutor) (w : StubWatcher) : StubWatcher :=
  match p with
  | .loop => { w with loop := e }
  | .workers => { w with workers := e }

def premises : Premises StubWatcher where
  closeSource w :=
    let (answer, source) := w.source.close
    (answer, { w with source })
  executor p :=
    { isShutdown := fun w => (w.executor p).shutDown
      shutdown := fun w => w.setExecutor p (w.executor p).shutdown
      await := fun timeout w =>
        let (answer, e) := (w.executor p).await timeout
        (answer, w.setExecutor p e) }
  say r w := { w with log := w.log ++ [r] }

end StubWatcher

end LinkWatch.Scripted
