import LinkWatch.Disk.Basic

/-!
Changes of a directory tree, and what the system gives notice of. A notice is about a node: about itself, or about
one of its entries. A change that cannot be made changes nothing and is not noticed.
-/

namespace LinkWatch

/-- A change that somebody makes to files. -/
inductive FileChange where
  /-- Creates the file or cuts it off, then writes. -/
  | write (p : Path) (text : List UInt8)
  /-- Writes at the end of a file that is there. -/
  | append (p : Path) (text : List UInt8)
  | read (p : Path)
  | mkdir (p : Path)
  | rmdir (p : Path)
  | remove (p : Path)
  | rename (p q : Path)
  | link (p target : Path)
  /-- Makes a link elsewhere and moves it over `p`, so that there is always one or the other. -/
  | relink (p target : Path)
deriving DecidableEq, Inhabited

namespace Disk

/-- What happened to an entry, or to a node itself. -/
inductive Sign where
  | appeared
  | changed
  /-- It is no longer here, but elsewhere. -/
  | left
  | arrived
  /-- It is elsewhere now. -/
  | moved
  | vanished
  /-- It is gone for good. -/
  | ended
deriving DecidableEq, Inhabited

structure Notice where
  node : NodeId
  /-- The entry of the node that it is about, if it is not about the node itself. -/
  name : Option FileName
  sign : Sign
deriving DecidableEq, Inhabited

/-! ### Nodes and entries -/

/-- A new node that no name leads to yet. -/
def addNode (n : Node) (d : Disk) : NodeId × Disk := (d.nodes.length, { d with nodes := d.nodes ++ [n] })

def setNode (i : NodeId) (n : Node) (d : Disk) : Disk := { d with nodes := d.nodes.set i n }

/-- Lets a name in a directory lead to a node. -/
def attach (dir : NodeId) (name : FileName) (i : NodeId) (d : Disk) : Disk :=
  d.setNode dir (.dir (Sorted.alter name (fun _ => i) (d.entries dir)))

/-- Takes a name out of a directory. -/
def detach (dir : NodeId) (name : FileName) (d : Disk) : Disk :=
  d.setNode dir (.dir (Sorted.erase name (d.entries dir)))

def isDir (i : NodeId) (d : Disk) : Bool := (d.node i).kind == .dir

/-- The directory and the name that a path ends with, whether or not something is there. -/
def slot? (p : Path) (d : Disk) : Option (NodeId × FileName × Option NodeId) :=
  match d.locate false p.tidy with
  | .ok (.entry dir name i) => some (dir, name, i)
  | _ => none

/-- A new node at a free name. -/
def create (p : Path) (n : Node) (d : Disk) : Disk × List Notice :=
  match d.slot? p with
  | some (dir, name, none) =>
    let (i, d) := d.addNode n
    (d.attach dir name i, [⟨dir, some name, .appeared⟩])
  | _ => (d, [])

/-! ### Changes -/

/-- Notices of new content; of a file that stays empty there are none. -/
def contentNotices (dir : NodeId) (name : FileName) (i : NodeId) : List Notice :=
  [⟨dir, some name, .changed⟩, ⟨i, none, .changed⟩]

def write (p : Path) (text : List UInt8) (d : Disk) : Disk × List Notice :=
  match d.locate true p with
  | .ok (.entry dir name none) =>
    let (i, d) := d.addNode (.file text)
    (d.attach dir name i,
      ⟨dir, some name, .appeared⟩ :: if text.isEmpty then [] else contentNotices dir name i)
  | .ok (.entry dir name (some i)) =>
    match d.node i with
    | .file _ => (d.setNode i (.file text), contentNotices dir name i)
    | _ => (d, [])
  | _ => (d, [])

def append (p : Path) (text : List UInt8) (d : Disk) : Disk × List Notice :=
  match d.locate true p with
  | .ok (.entry dir name (some i)) =>
    match d.node i with
    | .file content =>
      (d.setNode i (.file (content ++ text)), if text.isEmpty then [] else contentNotices dir name i)
    | _ => (d, [])
  | _ => (d, [])

def rmdir (p : Path) (d : Disk) : Disk × List Notice :=
  match d.slot? p with
  | some (dir, name, some i) =>
    if d.isDir i && (d.entries i).isEmpty then
      (d.detach dir name, [⟨i, none, .ended⟩, ⟨dir, some name, .vanished⟩])
    else (d, [])
  | _ => (d, [])

def remove (p : Path) (d : Disk) : Disk × List Notice :=
  match d.slot? p with
  | some (dir, name, some i) =>
    if d.isDir i then (d, [])
    else (d.detach dir name, [⟨i, none, .changed⟩, ⟨dir, some name, .vanished⟩, ⟨i, none, .ended⟩])
  | _ => (d, [])

/-- The node, the directory that holds it, and so on; at most `n` of them. -/
def lineage (d : Disk) : (n : Nat) → NodeId → List NodeId
  | 0, _ => []
  | n + 1, i => i :: lineage d n (d.parentOf i)

/-- A node can be moved to `dir`, over the node `there`. -/
def canMove (d : Disk) (i dir : NodeId) (there : Option NodeId) : Bool :=
  !(d.lineage d.nodes.length dir).contains i &&
  there.all fun j => d.isDir j == d.isDir i && (d.entries j).isEmpty

def rename (p q : Path) (d : Disk) : Disk × List Notice :=
  match d.slot? p, d.slot? q with
  | some (dir, name, some i), some (dir', name', there) =>
    if there == some i || !d.canMove i dir' there then (d, [])
    else
      let covered := there.elim [] fun j => [Notice.mk j none .changed, ⟨j, none, .ended⟩]
      ((d.detach dir name).attach dir' name' i,
        [⟨dir, some name, .left⟩, ⟨dir', some name', .arrived⟩] ++ covered ++ [⟨i, none, .moved⟩])
  | _, _ => (d, [])

/-- Where a link waits to be moved. -/
def stage : Path := .ofString ".stage"

def relink (p target : Path) (d : Disk) : Disk × List Notice :=
  let (d, dirs) := d.create stage (.dir [])
  let (d, links) := d.create (stage.join (.ofString "l")) (.link target)
  let (d, moves) := d.rename (stage.join (.ofString "l")) p
  (d, dirs ++ links ++ moves)

/-- Makes a change. -/
def apply (c : FileChange) (d : Disk) : Disk × List Notice :=
  match c with
  | .write p text => d.write p text
  | .append p text => d.append p text
  | .read _ => (d, [])
  | .mkdir p => d.create p (.dir [])
  | .rmdir p => d.rmdir p
  | .remove p => d.remove p
  | .rename p q => d.rename p q
  | .link p target => d.create p (.link target)
  | .relink p target => d.relink p target

/-! ### A tree to start with -/

/-- A path and all paths that it starts with, shortest first; `depth` bounds their number. -/
def prefixes : (depth : Nat) → Path → List Path
  | 0, _ => []
  | depth + 1, p =>
    match p.parent with
    | some dir => prefixes depth dir ++ [p]
    | none => [p]

/-- Makes the directories of a path that are missing. -/
def mkdirs (p : Path) (d : Disk) : Disk :=
  (prefixes p.bytes.length p).foldl (fun d dir => if d.isPresent dir then d else (d.create dir (.dir [])).1) d

/-- Makes a change, and before it the directories above what it creates. -/
def plant (p : Path) (c : FileChange) (d : Disk) : Disk := ((p.parent.elim d d.mkdirs).apply c).1

/-- A tree with nothing in it but the directory that relative paths start from. -/
def bare (home : Path) : Disk := { Disk.mkdirs home {} with home }

end Disk

end LinkWatch
