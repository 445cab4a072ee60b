import LinkWatch.Path.Basic

/-!
The result of resolving a path: where it leads, which links were crossed on the way, and which component was
missing. `Resolution.interests` are the directory entries whose change can change the result, and
`Resolution.classify` says what a change of an entry means for it.
-/

namespace LinkWatch

/-- A link crossed on the way. -/
structure Hop where
  /-- The path of the link. -/
  link : Path
  /-- The directory that holds it. -/
  dir : Path
  /-- Its name there. -/
  name : FileName
  /-- Where it points, as stored. -/
  target : Path
deriving DecidableEq, Inhabited

/-- Two hops over one link with one target, however they are written. -/
def Hop.same (a b : Hop) : Bool :=
  a.link.same b.link && a.dir.same b.dir && a.name == b.name && a.target.same b.target

/-- An entry of a directory. -/
structure Entry where
  dir : Path
  name : FileName
deriving DecidableEq, Inhabited

/-- Entries are ordered by their directory first. -/
instance : Keyed Entry (List Component × FileName) := ⟨fun e => (e.dir.components, e.name)⟩

instance : Ord (List Component × FileName) := lexOrd

/-- Two spellings of one entry. -/
def Entry.same (a b : Entry) : Bool := a.dir.same b.dir && a.name == b.name

/-- The entry that a path names, if it ends with a name. -/
def Path.entry? (p : Path) : Option Entry :=
  match p.parent, p.fileName with
  | some dir, some name => some ⟨dir, name⟩
  | _, _ => none

/-- Where a path leads. -/
structure Resolution where
  resolved : Path
  hops : List Hop
  /-- The first missing component, unless it is the last one. -/
  pending : Option Entry
deriving DecidableEq, Inhabited

/-- The entry of the link. -/
def Hop.entry (h : Hop) : Entry := ⟨h.dir, h.name⟩

/-- What a change of an entry means for a resolution. -/
inductive Match where
  /-- The resolved file itself changed. -/
  | leaf
  /-- A link on the way changed and may point elsewhere. -/
  | hop
  /-- The missing component on the way may have appeared. -/
  | pending
  /-- The entry has nothing to do with it. -/
  | none
deriving DecidableEq, Inhabited

namespace Resolution

/-- The resolution of a path without links. -/
def plain (p : Path) : Resolution := ⟨p, [], none⟩

/-- Links were crossed. -/
def isIndirect (r : Resolution) : Bool := !r.hops.isEmpty

/-- Two resolutions that lead the same way, however they are written. -/
def same (a b : Resolution) : Bool :=
  a.resolved.same b.resolved &&
  (a.hops.length == b.hops.length && (a.hops.zip b.hops).all fun (x, y) => x.same y) &&
  match a.pending, b.pending with
  | some x, some y => Entry.same x y
  | none, none => true
  | _, _ => false

/-- The entry of the resolved file. -/
def leaf (r : Resolution) : Option Entry := r.resolved.entry?

/-- The entries to observe: each link on the way, the missing component, and the resolved file. -/
def interests (r : Resolution) : List Entry :=
  let hops := Sorted.ofList (r.hops.map Hop.entry)
  let withPending := r.pending.elim hops fun e => Sorted.insert e hops
  r.leaf.elim withPending fun e => Sorted.insert e withPending

/-- The directories to observe. -/
def directories (r : Resolution) : List Path := Sorted.ofList (r.interests.map Entry.dir)

/-- What a change of the entry `name` of `dir` means. A link counts before the missing component, and that
before the resolved file. -/
def classify (r : Resolution) (dir : Path) (name : FileName) : Match :=
  if r.hops.any fun h => h.entry.same ⟨dir, name⟩ then .hop
  else if r.pending.any fun e => e.same ⟨dir, name⟩ then .pending
  else if r.leaf.any fun e => e.same ⟨dir, name⟩ then .leaf
  else .none

end Resolution

end LinkWatch
