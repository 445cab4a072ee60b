import LinkWatch.Listener.Dispatcher
import LinkWatch.Listener.Set

/-!
The listeners of a script. They are known by name, and the script owns each from its first mention until it
drops it. What a listener does when it is called follows from its name.
-/

namespace LinkWatch.Scripted

structure Member where
  name : String
  /-- The script still owns it. -/
  held : Bool := true
deriving DecidableEq, Inhabited

structure Roster where
  /-- A listener's key is its place. -/
  members : List Member := []
  /-- The gates that were released. -/
  opened : List String := []
deriving DecidableEq, Inhabited

namespace Roster

/-- The listener of a name, and a new one at its first mention. -/
def meet (name : String) (r : Roster) : ListenerKey × Roster :=
  match r.members.findIdx? fun m => m.name == name with
  | some k => (k, r)
  | none => (r.members.length, { r with members := r.members ++ [{ name }] })

def name (r : Roster) (k : ListenerKey) : String := (r.members[k]?.map Member.name).getD ""

/-- The script owns the listener. -/
def holds (r : Roster) (k : ListenerKey) : Bool := r.members[k]?.any Member.held

/-- The listeners that the script owns. -/
def held (r : Roster) : List ListenerKey := (List.range r.members.length).filter r.holds

/-- The script no longer owns the listener; says whether it did. -/
def drop (name : String) (r : Roster) : Bool × Roster :=
  let (k, r) := r.meet name
  (r.holds k, { r with members := r.members.modify k fun m => { m with held := false } })

/-- Lets the calls of a gate return. -/
def release (name : String) (r : Roster) : Roster := { r with opened := name :: r.opened }

/-- A call of the listener does not return yet. -/
def blocks (r : Roster) (k : ListenerKey) : Bool :=
  "gate".isPrefixOf (r.name k) && !r.opened.contains (r.name k)

/-- A notification whose call can return. -/
def ready (r : Roster) (n : Notification) : Bool := !r.blocks n.key

/-- How a call of the listener ends. -/
def outcome (r : Roster) (k : ListenerKey) : Outcome :=
  let name := r.name k
  if "panicstr".isPrefixOf name then .panicked (some "static boom")
  else if "panicfmt".isPrefixOf name then .panicked (some ("boom " ++ name))
  else if "panicany".isPrefixOf name then .panicked none
  else .returned

end Roster

/-- One set of listeners, and the script that may own some of them. -/
structure Circle where
  set : ListenerSet := {}
  roster : Roster := {}
deriving DecidableEq, Inhabited

namespace Circle

/-- Somebody owns the listener. -/
def alive (c : Circle) (k : ListenerKey) : Bool := c.roster.holds k || c.set.owns k

/-- The listener of a name, unless nobody owns it any more. -/
def reach (name : String) (c : Circle) : Option ListenerKey × Circle :=
  let (k, roster) := c.roster.meet name
  let c := { c with roster }
  (if c.alive k then some k else none, c)

/-- Registers a listener, unless it is gone; says whether it was new. -/
def add (hold : Hold) (name : String) (c : Circle) : Option Bool × Circle :=
  match c.reach name with
  | (none, c) => (none, c)
  | (some k, c) =>
    let (new, set) := c.set.add c.alive hold k
    (some new, { c with set })

/-- Takes a listener out; says whether it was there. -/
def remove (name : String) (c : Circle) : Bool × Circle :=
  let (k, roster) := c.roster.meet name
  let c := { c with roster }
  let (found, set) := c.set.remove c.alive k
  (found, { c with set })

/-- The script drops a listener; says whether it owned it. -/
def drop (name : String) (c : Circle) : Bool × Circle :=
  let (was, roster) := c.roster.drop name
  (was, { c with roster })

/-- The names of the live listeners, in order. -/
def live (c : Circle) : List String × Circle :=
  let (ks, set) := c.set.live c.alive
  (ks.map c.roster.name, { c with set })

def size (c : Circle) : Nat × Circle :=
  let (n, set) := c.set.size c.alive
  (n, { c with set })

end Circle

end LinkWatch.Scripted
