import LinkWatch.Disk.Station
import LinkWatch.Watcher

/-!
A watcher of real files at work, with its event loop and its workers. After every request and every change of a file
the loop reads on until it waits for events, and the workers finish.
-/

namespace LinkWatch

structure Live where
  watcher : Watcher Station
  thread : LoopThread := .starting
  /-- The event loop was asked to stop. -/
  stopping : Bool := false
  /-- The calls of listeners so far. -/
  calls : List Notification := []

namespace Live

def engine (l : Live) : Engine Station := l.watcher.engine

def station (l : Live) : Station := l.watcher.engine.world

def setEngine (e : Engine Station) (l : Live) : Live := { l with watcher := { l.watcher with engine := e } }

def modifyStation (f : Station → Station) (l : Live) : Live :=
  l.setEngine { l.engine with world := f l.engine.world }

def say (r : Log.Record) (l : Live) : Live := l.setEngine (l.engine.say r)

/-! ### Threads -/

/-- One step of the event loop's thread. -/
def stepThread (l : Live) : Live :=
  let (thread, e) := l.thread.step Station.system { l.engine with actor := .eventLoop }
  { l with thread }.setEngine { e with actor := .caller }

/-- The thread waits for events. -/
def isWaiting (l : Live) : Bool := l.thread == .reading && l.station.events.isEmpty && !l.station.source.closed

/-- At most `n` steps, until the thread waits or has ended. -/
def steps : Nat → Live → Live
  | 0, l => l
  | n + 1, l => if l.thread.isOver || l.isWaiting then l else steps n l.stepThread

/-- More steps than the thread can make without waiting. -/
def bound (l : Live) : Nat := 10 + l.station.events.length

/-- The workers empty their queues, and exit if they may. -/
def settle (l : Live) : Live :=
  let (ns, dispatcher) := l.engine.dispatcher.drain fun _ => true
  let left := dispatcher.leaveAll
  let exits := List.replicate (dispatcher.alive - left.alive) (Effect.log .worker Dispatcher.exitRecord)
  { l with calls := l.calls ++ ns }.setEngine
    { l.engine with dispatcher := left, effects := l.engine.effects ++ exits }

/-- The thread goes on until it waits or has ended, and the workers finish. -/
def run (l : Live) : Live := (steps l.bound l).settle

/-! ### Closing -/

def shutdownLoop (l : Live) : Live :=
  let (running, control) := l.station.control.requestDrain ⟨0⟩
  let l := { l with stopping := true }.modifyStation fun s => { s with control }
  if running then l.say LoopThread.drainRecord else l

def shutdownWorkers (l : Live) : Live :=
  let accepting := l.engine.dispatcher.accepting
  let l := l.setEngine { l.engine with dispatcher := l.engine.dispatcher.shutdown }
  if accepting then l.say Dispatcher.stopRecord else l

def premises : Premises Live where
  closeSource l := (.ok (), l.modifyStation Station.close)
  executor
    | .loop =>
      { isShutdown := fun l => l.stopping
        shutdown := shutdownLoop
        await := fun _ l => let l := l.run; (.ok l.thread.isOver, l) }
    | .workers =>
      { isShutdown := fun l => !l.engine.dispatcher.accepting
        shutdown := shutdownWorkers
        await := fun _ l => let l := l.settle; (.ok (l.engine.dispatcher.alive == 0), l) }
  say := say

/-- Closes the watcher. -/
def close (l : Live) : Live :=
  let (lifecycle, l) := Lifecycle.close premises (l.watcher.lifecycle, l)
  { l with watcher := { l.watcher with lifecycle } }

/-! ### Requests and changes -/

/-- A watcher with so many workers, whose event loop waits for the first events. -/
def start (threads : Nat) (timeout : Duration) (disk : Disk) : Live :=
  let l : Live :=
    { watcher := { engine := { dispatcher := .start threads, world := { disk } }, lifecycle := { timeout } } }
  (l.say (Dispatcher.startRecord threads)).run

/-- A request to the watcher. -/
def ask {α : Type} (f : Watcher Station → α × Watcher Station) (l : Live) : α × Live :=
  let (a, watcher) := f l.watcher
  (a, { l with watcher }.run)

/-- Somebody changes a file. -/
def change (c : FileChange) (l : Live) : Live := (l.modifyStation (Station.change c)).run

/-- What was logged, apart from when. -/
def log (l : Live) : List Log.Record :=
  l.station.log ++ l.engine.effects.filterMap fun
    | .log _ r => some r
    | _ => none

/-- Forgets what was logged and called so far. -/
def forget (l : Live) : Live :=
  { l.modifyStation (fun s => { s with log := [] }) with calls := [] }.setEngine { l.engine with effects := [] }

end Live

end LinkWatch
