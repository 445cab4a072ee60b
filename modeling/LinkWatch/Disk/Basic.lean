import LinkWatch.Filesystem

/-!
A directory tree as a system keeps it. Nodes have numbers, so that a directory stays the same one wherever it is
moved to; the names in a directory lead to nodes. `Disk.locate` walks a path and follows links, at most
so many; the last name of a path need not be there.
-/

namespace LinkWatch

/-- The number of a node. -/
abbrev NodeId := Nat

namespace Disk

/-- What a node is. -/
inductive Node where
  | file (content : List UInt8)
  | dir (entries : List (FileName × NodeId))
  | link (target : Path)
deriving DecidableEq, Inhabited

end Disk

/-- A directory tree. A node's number is its place; the first node is the root. -/
structure Disk where
  nodes : List Disk.Node := [.dir []]
  /-- The directory that relative paths start from. -/
  home : Path := .root
deriving Inhabited

/-- The leg that a piece of a path says. -/
def Component.ofPiece (s : List UInt8) : Component :=
  if s = [Path.dot] then .here else if s = [Path.dot, Path.dot] then .up else .name s

/-- The legs of the system on a path: dots count, since a directory must be there to stay in. -/
def Path.legs (p : Path) : List Component :=
  let said := (p.bytes.splitOn Path.slash).filter (· != [])
  let named := said.map Component.ofPiece
  let rooted := if p.isRooted then Component.root :: named else named
  if said != [] && p.bytes.getLast? == some Path.slash then rooted ++ [.here] else rooted

namespace Disk

/-- Where a walk ends. -/
inductive Spot where
  /-- A directory that is not named at the end of the path. -/
  | dir (node : NodeId)
  /-- A name in a directory, and its node if there is one. -/
  | entry (dir : NodeId) (name : FileName) (node : Option NodeId)
deriving DecidableEq, Inhabited

/-- The node at a spot. -/
def Spot.node? : Spot → Option NodeId
  | .dir i => some i
  | .entry _ _ i => i

/-- How a stretch of a walk ends. -/
inductive Stretch where
  | done (spot : Spot)
  | failed (e : Errno)
  /-- A link in the directory `dir`, and the legs that are left after it. -/
  | link (dir : NodeId) (target : Path) (left : List Component)

/-- The node of a number. -/
def node (d : Disk) (i : NodeId) : Node := d.nodes.getD i (.file [])

def entries (d : Disk) (i : NodeId) : List (FileName × NodeId) :=
  match d.node i with
  | .dir es => es
  | _ => []

/-- The directory that holds a node; the root holds itself. -/
def parentOf (d : Disk) (i : NodeId) : NodeId :=
  ((List.range d.nodes.length).find? fun j => (d.entries j).any fun e => e.2 == i).getD 0

/-- The longest name that a directory can hold. -/
def maxName : Nat := 255

/-- The longest path that the system takes. -/
def maxPath : Nat := 4095

/-- As many links as the system follows at most. -/
def maxLinks : Nat := 40

/-- Walks from the directory `i` to the next link that is followed; a link at the end only if `final` says so. -/
def stretch (final : Bool) (d : Disk) : List Component → NodeId → Stretch
  | [], i => .done (.dir i)
  | leg :: left, i =>
    match d.node i, leg with
    | .dir _, .root => stretch final d left 0
    | .dir _, .here => stretch final d left i
    | .dir _, .up => stretch final d left (d.parentOf i)
    | .dir es, .name n =>
      if maxName < n.length then .failed .nameTooLong
      else
        match Sorted.find? n es with
        | none => if left.isEmpty then .done (.entry i n none) else .failed .noEntry
        | some j =>
          match d.node j with
          | .link target => if left.isEmpty && !final then .done (.entry i n (some j)) else .link i target left
          | _ => if left.isEmpty then .done (.entry i n (some j)) else stretch final d left j
    | _, _ => .failed .notADirectory

/-- Walks to the end, following at most `more` links. -/
def follow (final : Bool) (d : Disk) : (more : Nat) → List Component → NodeId → Except Errno Spot
  | more, legs, i =>
    match stretch final d legs i with
    | .done spot => .ok spot
    | .failed e => .error e
    | .link dir target left =>
      match more with
      | 0 => .error .tooManyLinks
      | more + 1 => follow final d more (target.legs ++ left) dir

/-- What is said of a path that holds a zero byte. -/
def zeroByte : IoError := .custom .invalidInput "file name contained an unexpected NUL byte"

/-- Where a path leads. -/
def locate (final : Bool) (p : Path) (d : Disk) : Except IoError Spot :=
  if p.bytes.contains 0 then .error zeroByte
  else if p.isEmpty then .error (.os .noEntry)
  else if maxPath < p.bytes.length then .error (.os .nameTooLong)
  else (follow final d maxLinks (d.home.legs ++ p.legs) 0).mapError .os

/-- The node that a path leads to. -/
def find (final : Bool) (p : Path) (d : Disk) : Except IoError NodeId :=
  match d.locate final p with
  | .error e => .error e
  | .ok spot => spot.node?.elim (.error (.os .noEntry)) .ok

/-! ### Questions -/

def Node.kind : Node → EntryKind
  | .file _ => .file
  | .dir _ => .dir
  | .link _ => .symlink

/-- What a walk of the watcher may ask. -/
def snapshot (d : Disk) : Snapshot where
  entryKind p := (d.find false p).map fun i => (d.node i).kind
  readLink p :=
    match d.find false p with
    | .error e => .error e
    | .ok i =>
      match d.node i with
      | .link target => .ok target
      | _ => .error (.os .invalid)
  currentDir := .ok d.home

/-- The content of the file at a path. -/
def read (p : Path) (d : Disk) : Except IoError (List UInt8) :=
  match d.find true p with
  | .error e => .error e
  | .ok i =>
    match d.node i with
    | .file content => .ok content
    | _ => .error (.os .isADirectory)

/-- Something is at the end of a path. -/
def isPresent (p : Path) (d : Disk) : Bool := (d.find true p).toOption.isSome

end Disk

end LinkWatch
