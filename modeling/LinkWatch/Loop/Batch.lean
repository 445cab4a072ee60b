import LinkWatch.Engine
import LinkWatch.Event
import LinkWatch.Resolution.Walk

/-!
Handling a batch of events. An event is matched against the targets that the index finds under its entry; every
match resolves the target anew. A change of the file itself notifies, a changed link notifies if the target
leads elsewhere, and a target is notified at most once in a batch. Past a drain deadline the rest of the batch
is dropped.
-/

namespace LinkWatch.Engine

variable {σ : Type}

/-- Notifies the listeners of a target of the path as requested, then those of all targets of the path where it
leads. -/
def notify (id : TargetId) (e : Engine σ) : Engine σ :=
  let target := e.table.target id
  let resolved := target.resolution.resolved
  let e := e.say { level := .debug, origin := .eventLoop, message := "path updated"
                   fields := [("requested", target.requested.quoted), ("resolved", resolved.quoted)] }
  let (own, e) := e.live (.only id)
  let e := own.foldl (fun e k => e.submit ⟨k, target.requested⟩) e
  let (all, e) := e.live .all
  all.foldl (fun e k => e.submit ⟨k, resolved⟩) e

/-- Resolves a target anew. Where that fails, the target stays as it is. Gives the previous resolution if it
changed. -/
def refresh (sys : System σ) (id : TargetId) (e : Engine σ) : Option Resolution × Engine σ :=
  let requested := (e.table.target id).requested
  let (answer, world) := resolve sys.toFilesystem requested e.world
  let e := { e with world }
  if sys.halted e.world then (none, e)
  else
    match answer with
    | .error err =>
      (none, e.say { level := .warn, origin := .eventLoop
                     message := "re-resolution failed; keeping previous state"
                     fields := [("requested", requested.quoted), ("error", err.message)] })
    | .ok r =>
      match e.repoint sys.toNativeWatches id r with
      | (none, e) => (none, e)
      | (some previous, e) =>
        let now := (e.table.target id).resolution.resolved
        (some previous, e.say { level := .info, origin := .eventLoop, message := "watch target re-resolved"
                                fields := [("requested", requested.quoted),
                                  ("from", previous.resolved.quoted), ("to", now.quoted)] })

/-- A match notifies if the file itself changed, or if a link changed and the target leads elsewhere. -/
def notifies (m : Match) (previous : Option Resolution) : Bool :=
  match m with
  | .leaf => true
  | .hop => previous.isSome
  | .pending => false
  | .none => false

/-- Handles an event for one target. `notified` are the requested paths already notified in the batch. -/
def handle (sys : System σ) (event : Event) (state : List Path × Engine σ) (id : TargetId) : List Path × Engine σ :=
  let (notified, e) := state
  if sys.halted e.world then state
  else
    match (e.table.target id).resolution.classify event.entry.dir event.entry.name with
    | .none => state
    | m =>
      let (previous, e) := e.refresh sys id
      let requested := (e.table.target id).requested
      if sys.halted e.world || !notifies m previous || notified.any requested.same then (notified, e)
      else (notified ++ [requested], e.notify id)

/-- Handles an event for every target it concerns. -/
def handleAll (sys : System σ) (event : Event) (notified : List Path) (e : Engine σ) : List Path × Engine σ :=
  (e.table.targetsFor event.entry).foldl (handle sys event) (notified, e)

/-- What is logged of an event. -/
def eventRecord (event : Event) : Log.Record where
  level := .trace
  origin := .eventLoop
  message := "native event"
  fields := [("dir", event.entry.dir.quoted), ("name", Text.quotedBytes event.entry.name), ("kind", event.kind.name)]

/-- Handles one event. -/
def handleEvent (sys : System σ) (event : Event) (notified : List Path) (e : Engine σ) : List Path × Engine σ :=
  handleAll sys event notified (e.say (eventRecord event))

/-- What is logged when the rest of a batch is dropped. -/
def droppedRecord (remaining : Nat) : Log.Record where
  level := .warn
  origin := .eventLoop
  message := "drain deadline passed; dropping rest of event batch"
  fields := [("remaining", toString remaining)]

/-- Handles the events of a batch in order. -/
def handleEvents (sys : System σ) : List Event → List Path → Engine σ → Engine σ
  | [], _, e => e
  | event :: rest, notified, e =>
    let (late, world) := sys.overdue e.world
    let e := { e with world }
    if late then e.say (droppedRecord (rest.length + 1))
    else
      let (notified, e) := handleEvent sys event notified e
      if sys.halted e.world then e else handleEvents sys rest notified e

/-- Handles a batch. -/
def process (sys : System σ) (batch : List Event) (e : Engine σ) : Engine σ := handleEvents sys batch [] e

end LinkWatch.Engine
