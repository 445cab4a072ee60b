/-!
Ordered sets of listeners. A strong entry owns its listener, a weak one does not: a listener that nobody owns
any more is dead, and its weak entries are dropped whenever the set is used.

Every operation is told which listeners are alive: `alive k` says that somebody owns `k`.
-/

namespace LinkWatch

/-- The identity of a listener. It is never used again for another one. -/
abbrev ListenerKey := Nat

/-- How an entry holds its listener. -/
inductive Hold where
  | strong
  | weak
deriving DecidableEq, Inhabited

/-- Listeners in the order in which they were registered. -/
structure ListenerSet where
  entries : List (ListenerKey × Hold) := []
deriving DecidableEq, Inhabited

namespace ListenerSet

variable (alive : ListenerKey → Bool)

/-- The set owns the listener. -/
def owns (s : ListenerSet) (k : ListenerKey) : Bool := s.entries.any fun e => e.1 == k && e.2 == .strong

/-- The set has an entry for the listener. -/
def contains (s : ListenerSet) (k : ListenerKey) : Bool := s.entries.any fun e => e.1 == k

/-- Drops the weak entries of dead listeners. -/
def prune (s : ListenerSet) : ListenerSet := ⟨s.entries.filter fun e => e.2 == .strong || alive e.1⟩

/-- Registers a listener, unless it already is; says whether it did. -/
def add (hold : Hold) (k : ListenerKey) (s : ListenerSet) : Bool × ListenerSet :=
  let s := s.prune alive
  if s.contains k then (false, s) else (true, ⟨s.entries ++ [(k, hold)]⟩)

/-- Takes a listener out; says whether it was there, alive. -/
def remove (k : ListenerKey) (s : ListenerSet) : Bool × ListenerSet :=
  let s := s.prune alive
  (s.contains k, ⟨s.entries.filter fun e => !(e.1 == k)⟩)

/-- The live listeners in order. -/
def live (s : ListenerSet) : List ListenerKey × ListenerSet :=
  let s := s.prune alive
  (s.entries.map Prod.fst, s)

/-- The number of live listeners. -/
def size (s : ListenerSet) : Nat × ListenerSet :=
  let s := s.prune alive
  (s.entries.length, s)

/-- There is no live listener. -/
def isEmpty (s : ListenerSet) : Bool × ListenerSet :=
  let (n, s) := s.size alive
  (n == 0, s)

/-- How many entries of each kind there are, dead ones included. -/
def summary (s : ListenerSet) : String :=
  let strong := s.entries.countP fun e => e.2 == .strong
  s!"ListenerSet \x7b strong: {strong}, weak: {s.entries.length - strong} \x7d"

end ListenerSet

end LinkWatch
