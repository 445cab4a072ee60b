import LinkWatch.Disk.Change
import LinkWatch.Event

/-!
Native watches of a directory tree, and the events that notices turn into. The system knows a watch by a number, and
a node has at most one; the source remembers a number for each path it was asked for, and the path last asked
for for each number. What is reported as gone or moved away is no longer watched, nor is what was below it.
-/

namespace LinkWatch

/-- A watch, as the system has it. -/
structure Mark where
  number : Nat
  node : NodeId
  /-- The path that events are reported under. -/
  path : Path
deriving DecidableEq, Inhabited

structure NativeSource where
  marks : List Mark := []
  /-- The number of the watch of a path. -/
  watches : List (Path × Nat) := []
  /-- The number of the next watch. -/
  fresh : Nat := 1
  closed : Bool := false
deriving DecidableEq, Inhabited

namespace NativeSource

/-- What is said of a path that holds a zero byte. -/
def zeroByte : IoError := .custom .invalidInput "data provided contains a nul byte"

/-- Why a path cannot be watched. A missing one has a text of its own. -/
def refusal (p : Path) (e : IoError) : WatchError :=
  .native ⟨if p.bytes.contains 0 then .io zeroByte else if e.kind = .notFound then .pathNotFound else .io e, p⟩

def watch (d : Disk) (p : Path) (s : NativeSource) : Except WatchError Unit × NativeSource :=
  if s.closed then (.error .sourceClosed, s)
  else
    match d.find true p with
    | .error e => (.error (refusal p e), s)
    | .ok i =>
      match s.marks.find? fun m => m.node == i with
      | some m =>
        (.ok (), { s with
          marks := s.marks.map fun m' => if m'.number = m.number then { m with path := p } else m'
          watches := Sorted.alter p (fun _ => m.number) s.watches })
      | none =>
        (.ok (), { s with
          marks := s.marks ++ [⟨s.fresh, i, p⟩]
          watches := Sorted.alter p (fun _ => s.fresh) s.watches
          fresh := s.fresh + 1 })

def isMarked (n : Nat) (s : NativeSource) : Bool := s.marks.any fun m => m.number == n

def unmark (n : Nat) (s : NativeSource) : NativeSource :=
  { s with marks := s.marks.filter fun m => !(m.number == n) }

def unwatch (p : Path) (s : NativeSource) : Except WatchError Unit × NativeSource :=
  if s.closed then (.error .sourceClosed, s)
  else
    match Sorted.find? p.components s.watches with
    | none => (.error (.native ⟨.watchNotFound, p⟩), s)
    | some n =>
      let s' := { s with watches := Sorted.erase p.components s.watches }
      if s.isMarked n then (.ok (), s'.unmark n) else (.error (.native ⟨.io (.os .invalid), p⟩), s')

/-- The path is `p` or below it. -/
def isWithin (p q : Path) : Bool := p.components.isPrefixOf q.components

/-- Gives up the watch of a path that is gone, and the watches below it where the system still has one. -/
def abandon (s : NativeSource) (p : Path) : NativeSource :=
  match Sorted.find? p.components s.watches with
  | none => s
  | some n =>
    let s' := { s with watches := Sorted.erase p.components s.watches }
    if s.isMarked n then
      let below := (s'.unmark n).marks.filter fun m => isWithin p m.path
      below.foldl (fun s m => { s.unmark m.number with watches := Sorted.erase m.path.components s.watches })
        (s'.unmark n)
    else s'

/-- The event that is reported of a sign. -/
def eventKind : Disk.Sign → EventKind
  | .appeared => .create
  | .changed => .modify
  | .left => .modify
  | .arrived => .modify
  | .moved => .modify
  | .vanished => .remove
  | .ended => .remove

/-- The path that a notice is about, where its node is watched. -/
def pathOf? (s : NativeSource) (n : Disk.Notice) : Option Path :=
  (s.marks.find? fun m => m.node == n.node).map fun m => n.name.elim m.path m.path.child

/-- A sign that a path is no longer what was watched. -/
def isLoss : Disk.Sign → Bool
  | .left => true
  | .vanished => true
  | .ended => true
  | _ => false

/-- Takes notices, and gives the events that they turn into. -/
def deliver (ns : List Disk.Notice) (s : NativeSource) : List Event × NativeSource :=
  if s.closed then ([], s)
  else
    let seen := ns.filterMap fun n => (s.pathOf? n).map fun p => (p, n.sign)
    let ended := (ns.filter fun n => n.sign == .ended).map Disk.Notice.node
    let s := { s with marks := s.marks.filter fun m => !ended.contains m.node }
    (seen.filterMap fun x => Event.ofPath? x.1 (eventKind x.2),
      ((seen.filter fun x => isLoss x.2).map Prod.fst).foldl abandon s)

/-- Gives up everything; that nothing can be watched afterwards is no failure of closing. -/
def close (s : NativeSource) : NativeSource := { s with marks := [], watches := [], closed := true }

def summary (s : NativeSource) : String := s!"NotifyEventSource \x7b open: {!s.closed} \x7d"

end NativeSource

end LinkWatch
