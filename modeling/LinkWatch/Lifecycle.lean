import LinkWatch.Error
import LinkWatch.Log.Record
import LinkWatch.Text.Duration

/-!
Closing a watcher: its event source first, then the event loop, then the workers, each with a bounded wait, and
whatever the ones before answered. A closing goes through stages, one request to its surroundings each; between
two stages others may act on the surroundings.
- `Stage.step`: what a stage asks for and which stage comes next;
- `close`: all stages of one closing without a pause.
-/

namespace LinkWatch

/-- Threads that can be asked to stop and waited for. -/
structure Executor (σ : Type) where
  isShutdown : σ → Bool
  /-- No new work is accepted; accepted work is still done. -/
  shutdown : σ → σ
  /-- Waits at most so long until all threads have ended; says whether they have. -/
  await : Duration → σ → Except TerminationError Bool × σ

/-- The two executors of a watcher. -/
inductive Party where
  | loop
  | workers
deriving DecidableEq, Inhabited

def Party.name : Party → String
  | .loop => "watch loop"
  | .workers => "callback dispatcher"

/-- What is closed. -/
structure Premises (σ : Type) where
  closeSource : σ → Except WatchError Unit × σ
  executor : Party → Executor σ
  say : Log.Record → σ → σ
  /-- The last request killed the thread that made it. -/
  halted : σ → Bool := fun _ => false

/-- What closing needs to know, and whether it was asked for. -/
structure Lifecycle where
  timeout : Duration
  closed : Bool := false
deriving DecidableEq, Inhabited

namespace Lifecycle

/-- What a closing does next. -/
inductive Stage where
  | enter
  | source
  | check (p : Party)
  | stop (p : Party)
  | await (p : Party)
  | report
  | ended
deriving DecidableEq, Inhabited

/-- What comes after an executor. -/
def Stage.after : Party → Stage
  | .loop => .check .workers
  | .workers => .report

/-- As many stages as come before the end at most. -/
def Stage.left : Stage → Nat
  | .enter => 9
  | .source => 8
  | .check .loop => 7
  | .stop .loop => 6
  | .await .loop => 5
  | .check .workers => 4
  | .stop .workers => 3
  | .await .workers => 2
  | .report => 1
  | .ended => 0

def record (level : Log.Level) (message : String) : Log.Record := { level, origin := .lifecycle, message }

/-- What is logged of a wait. -/
def awaitRecord (p : Party) (timeout : Duration) : Except TerminationError Bool → Log.Record
  | .ok true => record .debug s!"{p.name} terminated"
  | .ok false => record .warn s!"{p.name} failed to terminate in {timeout.text}"
  | .error e => record .error s!"{p.name} {e.message}"

variable {σ : Type}

/-- One stage of a closing. -/
def Stage.step (pr : Premises σ) : Stage → Lifecycle × σ → Stage × Lifecycle × σ
  | .enter, (l, s) =>
    if l.closed then (.ended, l, pr.say (record .debug "close() called on already closed watcher") s)
    else (.source, { l with closed := true }, s)
  | .source, (l, s) =>
    match pr.closeSource s with
    | (.ok _, s) => (.check .loop, l, s)
    | (.error e, s) => (.check .loop, l, pr.say (record .error s!"native event source did not close: {e.message}") s)
  | .check p, (l, s) =>
    if (pr.executor p).isShutdown s then
      (.after p, l, pr.say (record .debug s!"{p.name} already shut down") s)
    else (.stop p, l, s)
  | .stop p, (l, s) =>
    let s := (pr.executor p).shutdown s
    (if pr.halted s then .ended else .await p, l, s)
  | .await p, (l, s) =>
    let (answer, s) := (pr.executor p).await l.timeout s
    if pr.halted s then (.ended, l, s) else (.after p, l, pr.say (awaitRecord p l.timeout answer) s)
  | .report, (l, s) => (.ended, l, pr.say (record .info "file watcher closed") s)
  | .ended, x => (.ended, x)

/-- So many stages of a closing. -/
def run (pr : Premises σ) : Nat → Stage → Lifecycle × σ → Lifecycle × σ
  | 0, _, x => x
  | n + 1, stage, x => run pr n (stage.step pr x).1 (stage.step pr x).2

/-- Closes; nothing more happens where that was already asked for. -/
def close (pr : Premises σ) (x : Lifecycle × σ) : Lifecycle × σ := run pr Stage.enter.left .enter x

def summary (l : Lifecycle) : String :=
  s!"ShutdownController \x7b timeout: {l.timeout.text}, closed: {l.closed}, .. \x7d"

end Lifecycle

end LinkWatch
