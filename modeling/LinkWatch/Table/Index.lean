import LinkWatch.Resolution.Basic

/-!
The directory index: for each directory in use, which names in it concern which requested paths, and how many names
each requested path holds there. A directory is in the index as long as somebody holds it.
-/

namespace LinkWatch

/-- What the index knows of one directory. -/
structure Registration where
  /-- The requested paths that a name concerns, in order. -/
  names : List (FileName × List Path) := []
  /-- How many names a requested path holds. -/
  holders : List (Path × Nat) := []
deriving DecidableEq, Inhabited

/-- The directories in use. -/
structure Index where
  directories : List (Path × Registration) := []
deriving DecidableEq, Inhabited

namespace Index

/-- What is known of a directory. -/
def find? (x : Index) (dir : Path) : Option Registration := Sorted.find? dir.components x.directories

/-- The directory is in use. -/
def contains (x : Index) (dir : Path) : Bool := (x.find? dir).isSome

/-- The requested paths that an entry concerns, in order. -/
def lookup (x : Index) (e : Entry) : List Path :=
  ((x.find? e.dir).bind fun reg => Sorted.find? e.name reg.names).getD []

/-- How many requested paths hold a directory. -/
def refcount (x : Index) (dir : Path) : Nat := ((x.find? dir).map fun reg => reg.holders.length).getD 0

/-- The directories in use, in order. -/
def inUse (x : Index) : List Path := x.directories.map Prod.fst

/-- Notes that a requested path has an interest in an entry. -/
def add (requested : Path) (e : Entry) (x : Index) : Index where
  directories := Sorted.alter e.dir (fun reg =>
    let reg := reg.getD {}
    { names := Sorted.alter e.name (fun ps => Sorted.insert requested (ps.getD [])) reg.names
      holders := Sorted.alter requested (fun n => n.getD 0 + 1) reg.holders }) x.directories

/-- Forgets the interest of a requested path in an entry, and the directory with its last holder. -/
def remove (requested : Path) (e : Entry) (x : Index) : Index where
  directories := Sorted.revise e.dir.components (fun reg =>
    let held := ((Sorted.find? e.name reg.names).getD []).any requested.same
    let names := Sorted.revise e.name (fun ps =>
      let ps := Sorted.erase requested.components ps
      if ps.isEmpty then none else some ps) reg.names
    if held then
      let holders := Sorted.revise requested.components (fun n => if n = 1 then none else some (n - 1)) reg.holders
      if holders.isEmpty then none else some { names, holders }
    else some { reg with names }) x.directories

end Index

end LinkWatch
