import LinkWatch.Engine
import LinkWatch.Lifecycle
import LinkWatch.Resolution.Walk

/-!
The watcher: what a caller can ask. Paths are made rooted before anything else, so that a change of the current
directory never changes the meaning of a request; a path that is already watched is not resolved again. Once
the watcher is closed every registration is refused, and what is registered can still be removed.
-/

namespace LinkWatch

structure Watcher (σ : Type) where
  engine : Engine σ
  lifecycle : Lifecycle

namespace Watcher

variable {σ : Type}

/-- Refuses an operation on a closed watcher. -/
def ensureOpen (operation : String) (w : Watcher σ) : Except WatchError Unit :=
  if w.lifecycle.closed then .error (.closed operation) else .ok ()

/-- The rooted form of a path. -/
def requested (fs : Filesystem σ) (p : Path) (w : Watcher σ) : Except WatchError Path × Watcher σ :=
  if p.isEmpty then (.error (.invalidArgument "empty file argument"), w)
  else
    let (answer, world) := absolutize fs p w.engine.world
    (answer, { w with engine := { w.engine with world } })

/-- The target of a path; a new one if the path is not watched yet. -/
def targetFor (sys : System σ) (p : Path) (w : Watcher σ) : Except WatchError TargetId × Watcher σ :=
  match w.requested sys.toFilesystem p with
  | (.error e, w) => (.error e, w)
  | (.ok asked, w) =>
    match w.engine.table.find? asked with
    | some id => (.ok id, w)
    | none =>
      match resolve sys.toFilesystem asked w.engine.world with
      | (.error e, world) => (.error e, { w with engine := { w.engine with world } })
      | (.ok r, world) =>
        let ((id, _), engine) := { w.engine with world }.register sys.toNativeWatches asked r
        (.ok id, { w with engine })

/-- Watches a path. -/
def start (sys : System σ) (p : Path) (w : Watcher σ) : Except WatchError Unit × Watcher σ :=
  match w.ensureOpen "start watching" with
  | .error e => (.error e, w)
  | .ok _ =>
    let (answer, w) := w.targetFor sys p
    (answer.map fun _ => (), w)

/-- What is logged where a path is not watched. -/
def unwatchedRecord (asked : Path) : Log.Record where
  level := .debug
  origin := .watcher
  message := "stop_watching on path that was not watched"
  fields := [("requested", asked.quoted)]

/-- Stops watching a path, and drops the listeners of this path. -/
def stop (sys : System σ) (p : Path) (w : Watcher σ) : Except WatchError Unit × Watcher σ :=
  match w.requested sys.toFilesystem p with
  | (.error e, w) => (.error e, w)
  | (.ok asked, w) =>
    match w.engine.remove sys.toNativeWatches asked with
    | (some _, engine) => (.ok (), { w with engine })
    | (none, engine) =>
      (.ok (), { w with engine := engine.say (unwatchedRecord asked) })

/-- What a registration of a listener is called. -/
def addName : Hold → String
  | .strong => "add watcher"
  | .weak => "weak add watcher"

/-- Registers a listener for all targets. -/
def add (hold : Hold) (k : ListenerKey) (w : Watcher σ) : Except WatchError Unit × Watcher σ :=
  match w.ensureOpen (addName hold) with
  | .error e => (.error e, w)
  | .ok _ => (.ok (), { w with engine := (w.engine.addListener .all hold k).2 })

/-- Watches a path and registers a listener for it. -/
def addFor (sys : System σ) (hold : Hold) (p : Path) (k : ListenerKey) (w : Watcher σ) :
    Except WatchError Unit × Watcher σ :=
  match w.ensureOpen (addName hold) with
  | .error e => (.error e, w)
  | .ok _ =>
    match w.targetFor sys p with
    | (.error e, w) => (.error e, w)
    | (.ok id, w) => (.ok (), { w with engine := (w.engine.addListener (.only id) hold k).2 })

/-- Takes a listener out everywhere; says whether it was anywhere. -/
def remove (k : ListenerKey) (w : Watcher σ) : Bool × Watcher σ :=
  let (found, engine) := w.engine.removeListener k
  (found, { w with engine })

def summary (w : Watcher σ) : String :=
  s!"FileWatcher \x7b table: {w.engine.table.summary}, lifecycle: {w.lifecycle.summary} \x7d"

end Watcher

end LinkWatch
