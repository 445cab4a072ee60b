import LinkWatch.Event
import LinkWatch.System

/-!
An event source that follows a script: batches are pushed, watches of some directories are refused, and all
requests are recorded. Batches that were pushed before the source was closed are still read.
-/

namespace LinkWatch.Scripted

structure Source where
  batches : List (List Event) := []
  /-- How often a directory is watched, where it is at all. -/
  watched : List (Path × Nat) := []
  watchCalls : List Path := []
  unwatchCalls : List Path := []
  /-- The directories whose watches are refused. -/
  refused : List Path := []
  /-- The next readings fail like this. -/
  readFailures : List IoKind := []
  failClose : Bool := false
  closed : Bool := false
  closeCalls : Nat := 0
deriving DecidableEq, Inhabited

namespace Source

def refuse (dir : Path) (s : Source) : Source := { s with refused := Sorted.insert dir s.refused }
def allow (dir : Path) (s : Source) : Source := { s with refused := Sorted.erase dir.components s.refused }
def push (batch : List Event) (s : Source) : Source := { s with batches := s.batches ++ [batch] }

/-- Pushes a change of the entry that a path names, if it ends with a name. -/
def touch (p : Path) (s : Source) : Source :=
  match Event.ofPath? p .modify with
  | some event => s.push [event]
  | none => s

def isWatching (dir : Path) (s : Source) : Bool := (Sorted.find? dir.components s.watched).isSome

def watch (dir : Path) (s : Source) : Except WatchError Unit × Source :=
  if s.closed then (.error .sourceClosed, s)
  else
    let s := { s with watchCalls := s.watchCalls ++ [dir] }
    if Sorted.contains s.refused dir.components then
      (.error (.io (.custom .other s!"cannot watch {dir.display}")), s)
    else (.ok (), { s with watched := Sorted.alter dir (fun n => n.getD 0 + 1) s.watched })

def unwatch (dir : Path) (s : Source) : Except WatchError Unit × Source :=
  let s := { s with unwatchCalls := s.unwatchCalls ++ [dir] }
  if s.isWatching dir then
    let fewer (n : Nat) : Option Nat := if n ≤ 1 then none else some (n - 1)
    (.ok (), { s with watched := Sorted.revise dir.components fewer s.watched })
  else (.error (.io (.custom .notFound s!"{dir.display} is not watched")), s)

/-- The next batch, or nothing for now. -/
def next (s : Source) : Except WatchError (Option (List Event)) × Source :=
  match s.readFailures, s.batches with
  | kind :: more, _ => (.error (.io (.plain kind)), { s with readFailures := more })
  | [], batch :: more => (.ok (some batch), { s with batches := more })
  | [], [] => (if s.closed then .error .sourceClosed else .ok none, s)

def close (s : Source) : Except WatchError Unit × Source :=
  (if s.failClose then .error (.io (.custom .other "close failed")) else .ok (),
    { s with closed := true, closeCalls := s.closeCalls + 1 })

end Source

end LinkWatch.Scripted
