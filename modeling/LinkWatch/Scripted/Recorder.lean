import LinkWatch.Path.Basic

/-!
A record of the paths that listeners were told, shared by any number of listeners.
-/

namespace LinkWatch.Scripted

structure Recorder where
  /-- How many listeners write into it. -/
  listeners : Nat := 0
  paths : List Path := []
deriving DecidableEq, Inhabited

namespace Recorder

/-- A new listener, by its number. -/
def listener (r : Recorder) : Nat × Recorder := (r.listeners, { r with listeners := r.listeners + 1 })

/-- A listener is told a path. -/
def note (p : Path) (r : Recorder) : Recorder := { r with paths := r.paths ++ [p] }

def count (r : Recorder) : Nat := r.paths.length

/-- How often a path was told, in any spelling. -/
def countOf (p : Path) (r : Recorder) : Nat := r.paths.countP p.same

def clear (r : Recorder) : Recorder := { r with paths := [] }

/-- At least so many paths were told. -/
def reached (n : Nat) (r : Recorder) : Bool := n ≤ r.count

/-- The path was told. -/
def saw (p : Path) (r : Recorder) : Bool := r.paths.any p.same

end Recorder

end LinkWatch.Scripted
