/-!
Sorted lists without repetition, ordered by a key of their elements. Two elements with the same
key are two spellings of one element.
- `Sorted.insert` leaves a spelling that is already there, `Sorted.put` replaces it;
- `Sorted.ofList` therefore keeps the last spelling of each element;
- a list of pairs with the key of the first part is a dictionary: `Sorted.find?`, `Sorted.alter`.
-/

namespace LinkWatch

/-- The types whose elements are ordered by a key. -/
class Keyed (α : Type) (κ : outParam Type) where
  key : α → κ

instance {α κ β : Type} [Keyed α κ] : Keyed (α × β) κ := ⟨fun p => Keyed.key p.1⟩

namespace Sorted

variable {α κ β : Type} [Keyed α κ] [Ord κ]

/-- The list holds an element with this key. -/
def contains [BEq κ] (as : List α) (k : κ) : Bool := as.any fun a => Keyed.key a == k

/-- Puts an element at its place; one with the same key stays as it is. -/
def insert (a : α) : List α → List α
  | [] => [a]
  | b :: bs =>
    match compare (Keyed.key a) (Keyed.key b) with
    | .lt => a :: b :: bs
    | .eq => b :: bs
    | .gt => b :: insert a bs

/-- Puts an element at its place, instead of one with the same key. -/
def put (a : α) : List α → List α
  | [] => [a]
  | b :: bs =>
    match compare (Keyed.key a) (Keyed.key b) with
    | .lt => a :: b :: bs
    | .eq => a :: bs
    | .gt => b :: put a bs

/-- The elements of a list in order; of several spellings the last. -/
def ofList (as : List α) : List α := as.foldl (fun s a => put a s) []

/-- Drops the element with this key. -/
def erase [BEq κ] (k : κ) (as : List α) : List α := as.filter fun a => !(Keyed.key a == k)

/-- The elements of the first list whose key the second does not hold. -/
def diff [BEq κ] (as bs : List α) : List α := as.filter fun a => !contains bs (Keyed.key a)

/-- The value of a dictionary at a key. -/
def find? [BEq κ] (k : κ) (d : List (α × β)) : Option β :=
  (d.find? fun e => Keyed.key e.1 == k).map Prod.snd

/-- Sets the value at a key; a spelling of the key that is already there stays. -/
def alter (a : α) (f : Option β → β) : List (α × β) → List (α × β)
  | [] => [(a, f none)]
  | e :: es =>
    match compare (Keyed.key a) (Keyed.key e.1) with
    | .lt => (a, f none) :: e :: es
    | .eq => (e.1, f (some e.2)) :: es
    | .gt => e :: alter a f es

/-- Changes the value at a key that is present, or drops the key. -/
def revise [BEq κ] (k : κ) (f : β → Option β) (d : List (α × β)) : List (α × β) :=
  d.filterMap fun e => if Keyed.key e.1 == k then (f e.2).map (e.1, ·) else some e

end Sorted

end LinkWatch
