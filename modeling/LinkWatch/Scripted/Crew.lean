import LinkWatch.Scripted.Bench

/-!
A dispatcher on its own, with the listeners of a script. Its workers run at once as far as no gate is in their way;
what they did is told once somebody has waited for them.
-/

namespace LinkWatch.Scripted

structure Crew where
  dispatcher : Dispatcher
  roster : Roster := {}
  threads : Nat := 1
  /-- Calls not yet told. -/
  calls : List (String × Path) := []
  /-- What was logged and not yet told. -/
  log : List Log.Record := []

namespace Crew

def start (threads : Nat) : Crew := { dispatcher := .start threads, threads := threads }

/-- The workers go on as far as they can. -/
def work (c : Crew) : Crew :=
  let (ns, dispatcher) := c.dispatcher.drain c.roster.ready
  { c with
    dispatcher := dispatcher.leaveAll
    calls := c.calls ++ ns.map fun (n : Notification) => (c.roster.name n.key, n.path)
    log := c.log ++ ns.flatMap fun (n : Notification) => (c.roster.outcome n.key).records n.path }

/-- Somebody owns the listener: the script, or a notification that waits. -/
def alive (k : ListenerKey) (c : Crew) : Bool := c.roster.holds k || c.dispatcher.holds k

/-- Submits a notification, unless nobody owns the listener any more; says whether it was accepted. -/
def submit (name : String) (p : Path) (c : Crew) : Option Bool × Crew :=
  let (k, roster) := c.roster.meet name
  let c := { c with roster }
  if c.alive k then
    let (accepted, dispatcher) := c.dispatcher.submit ⟨k, p⟩
    (some accepted, { c with dispatcher }.work)
  else (none, c)

/-- Somebody owns the listener of a name. -/
def isAlive (name : String) (c : Crew) : Bool × Crew :=
  let (k, roster) := c.roster.meet name
  let c := { c with roster }.work
  (c.alive k, c)

/-- Waits for the workers; says whether they still take notifications, as far as there are listeners to ask. -/
def flush (c : Crew) : Bool × Crew := (c.dispatcher.accepting || c.roster.members.isEmpty, c.work)

/-- The script drops a listener; says whether it owned it. -/
def drop (name : String) (c : Crew) : Bool × Crew :=
  let (was, roster) := c.roster.drop name
  (was, { c with roster })

def release (name : String) (c : Crew) : Crew := { c with roster := c.roster.release name }.work

def shutdown (c : Crew) : Crew := { c with dispatcher := c.dispatcher.shutdown }.work

/-- All workers have exited. -/
def ended (c : Crew) : Bool := c.dispatcher.alive == 0

/-- What was not yet told. -/
def report (c : Crew) : Report × Crew :=
  let lines := (c.log.filter Report.shows).map Log.Record.text
  ({ calls := Report.arrange c.threads c.calls
     log := if c.threads > 1 then Report.sorted lines else lines },
    { c with calls := [], log := [] })

end Crew

end LinkWatch.Scripted
