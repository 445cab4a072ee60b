import LinkWatch.Filesystem

/-!
A directory tree in memory that follows a script: entries come and go, inspections fail on request, and an
entry may change right after it was inspected.
-/

namespace LinkWatch.Scripted

/-- What is at a path. -/
inductive Node where
  | file
  | dir
  | link (target : Path)
  /-- Every inspection is refused. -/
  | denied
deriving DecidableEq, Inhabited

/-- A change of the script. -/
inductive Change where
  | set (p : Path) (node : Node)
  | remove (p : Path)
  | enter (dir : Path)
  | failEntry (p : Path) (kind : IoKind)
  | failLink (p : Path) (kind : IoKind)
  | failCurrentDir (kind : IoKind)
  | clearFailures
  /-- The change happens right after the next inspection of `p` that the tree answers. -/
  | race (p : Path) (change : Change)
deriving Inhabited

structure Tree where
  nodes : List (Path × Node)
  currentDir : Path
  entryFailures : List (Path × IoKind) := []
  linkFailures : List (Path × IoKind) := []
  currentDirFailure : Option IoKind := none
  races : List (Path × Change) := []
deriving Inhabited

namespace Tree

/-- A tree of nothing but its root. -/
def empty : Tree where
  nodes := [(.root, .dir)]
  currentDir := .root

/-- The directories above a path, nearest first; `depth` bounds their number. -/
def ancestors : (depth : Nat) → Path → List Path
  | 0, _ => []
  | depth + 1, p =>
    match p.parent with
    | some dir => if dir.isEmpty then [] else dir :: ancestors depth dir
    | none => []

/-- Puts a node at a path, and directories above it where nothing is. -/
def set (t : Tree) (p : Path) (node : Node) : Tree :=
  let above := (ancestors p.bytes.length p).foldl
    (fun nodes dir => Sorted.alter dir (fun old => old.getD .dir) nodes) t.nodes
  { t with nodes := Sorted.alter p (fun _ => node) above }

/-- Applies a change. -/
def apply (t : Tree) : Change → Tree
  | .set p node => t.set p node
  | .remove p => { t with nodes := Sorted.erase p.components t.nodes }
  | .enter dir => { t with currentDir := dir }
  | .failEntry p kind => { t with entryFailures := Sorted.alter p (fun _ => kind) t.entryFailures }
  | .failLink p kind => { t with linkFailures := Sorted.alter p (fun _ => kind) t.linkFailures }
  | .failCurrentDir kind => { t with currentDirFailure := some kind }
  | .clearFailures => { t with entryFailures := [], linkFailures := [], currentDirFailure := none }
  | .race p change => { t with races := t.races ++ [(p, change)] }

/-- The node at a path. A path written like `p` is the same path, so it is looked for first. -/
def node? (t : Tree) (p : Path) : Option Node :=
  ((t.nodes.find? fun e => e.1 == p).map Prod.snd) <|> Sorted.find? p.components t.nodes

/-- What is at a path, unless its inspection is refused. -/
def lookup (t : Tree) (p : Path) : Except IoError Node :=
  match t.node? p with
  | some .denied => .error (.custom .permissionDenied s!"permission denied: {p.quoted}")
  | some node => .ok node
  | none => .error (.custom .notFound s!"not found: {p.quoted}")

def Node.kind : Node → EntryKind
  | .link _ => .symlink
  | .dir => .dir
  | _ => .file

/-- The first race set for a path comes true. -/
def raced (t : Tree) (p : Path) : Tree :=
  match t.races.find? fun r => r.1.same p with
  | some r => { t with races := t.races.eraseP fun r => r.1.same p }.apply r.2
  | none => t

def entryKind (p : Path) (t : Tree) : Except IoError EntryKind × Tree :=
  match Sorted.find? p.components t.entryFailures with
  | some kind => (.error (.plain kind), t)
  | none => ((t.lookup p).map Node.kind, t.raced p)

def readLink (p : Path) (t : Tree) : Except IoError Path × Tree :=
  match Sorted.find? p.components t.linkFailures with
  | some kind => (.error (.plain kind), t)
  | none =>
    match t.lookup p with
    | .ok (.link target) => (.ok target, t)
    | .ok _ => (.error (.custom .invalidInput s!"not a symlink: {p.quoted}"), t)
    | .error e => (.error e, t)

/-- The questions of a walk to the tree. -/
def filesystem : Filesystem Tree where
  entryKind := entryKind
  readLink := readLink
  currentDir t :=
    match t.currentDirFailure with
    | some kind => (.error (.plain kind), t)
    | none => (.ok t.currentDir, t)

end Tree

end LinkWatch.Scripted
