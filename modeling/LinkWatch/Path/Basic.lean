import LinkWatch.Sorted

/-!
Paths of a directory tree. A path is the byte string it was written as and is printed as such, but
it is compared by its components: repeated and trailing slashes and inner dots do not count.
- `Path.components`: what a path says; `Path.same` and the order of paths go by it;
- `Path.parent`, `Path.fileName`, `Path.join`, `Path.pop`: the parts of a path, as written;
- `Path.tidy`: the components written out again, without repeated slashes and inner dots.
-/

namespace LinkWatch

/-- The name of a directory entry: bytes, compared one by one. -/
abbrev FileName := List UInt8

/-- A path, as written. -/
structure Path where
  bytes : List UInt8
deriving DecidableEq, Inhabited

/-- One step of a path. A lone dot counts only where it starts a relative path. -/
inductive Component where
  | root
  | here
  | up
  | name (n : FileName)
deriving DecidableEq, Inhabited

/-- Components are ordered by kind, names by their bytes. -/
def Component.code : Component → List UInt8
  | .root => [0]
  | .here => [1]
  | .up => [2]
  | .name n => 3 :: n

instance : Ord Component := ⟨compareOn Component.code⟩

instance : Keyed FileName FileName := ⟨id⟩

namespace Path

def slash : UInt8 := 0x2f
def dot : UInt8 := 0x2e

/-- A path written as text. -/
def ofString (s : String) : Path := ⟨s.toList.flatMap String.utf8EncodeChar⟩

/-- The path of a single name. -/
def ofName (n : FileName) : Path := ⟨n⟩

def empty : Path := ⟨[]⟩
def root : Path := ⟨[slash]⟩

def isEmpty (p : Path) : Bool := p.bytes.isEmpty

/-- The path starts at the root of the tree. -/
def isRooted (p : Path) : Bool := p.bytes.head? == some slash

/-! ### Cutting a path at its slashes -/

/-- What a path starts with: the root, a dot of its own, or its first name. -/
inductive Lead where
  | root
  | here
  | plain
deriving DecidableEq

def lead (p : Path) : Lead :=
  match p.bytes with
  | [] => .plain
  | b :: bs =>
    if b = slash then .root
    else if b = dot ∧ (bs = [] ∨ bs.head? = some slash) then .here
    else .plain

/-- The pieces between the slashes after the lead. -/
def pieces (p : Path) : List (List UInt8) :=
  match p.lead with
  | .root => (p.bytes.drop 1).splitOn slash
  | .here => (p.bytes.drop 2).splitOn slash
  | .plain => p.bytes.splitOn slash

/-- A piece that says nothing: empty, or a dot. -/
def blank (s : List UInt8) : Bool := s == [] || s == [dot]

/-- The component a piece stands for. -/
def component? (s : List UInt8) : Option Component :=
  if blank s then none else if s = [dot, dot] then some .up else some (.name s)

/-- The bytes of a lead and the pieces after it. -/
def assemble (l : Lead) (ss : List (List UInt8)) : Path :=
  match l, ss with
  | .root, _ => ⟨slash :: [slash].intercalate ss⟩
  | .here, [] => ⟨[dot]⟩
  | .here, _ => ⟨dot :: slash :: [slash].intercalate ss⟩
  | .plain, _ => ⟨[slash].intercalate ss⟩

/-- The components of a path. -/
def components (p : Path) : List Component :=
  let named := p.pieces.filterMap component?
  match p.lead with
  | .root => .root :: named
  | .here => .here :: named
  | .plain => named

instance : Keyed Path (List Component) := ⟨components⟩

instance : Ord Path := ⟨compareOn components⟩

/-- Two spellings of one path. -/
def same (p q : Path) : Bool := p.components == q.components

/-! ### Parts of a path -/

/-- The pieces up to the last that says something, last first. -/
def spoken (p : Path) : List (List UInt8) := p.pieces.reverse.dropWhile blank

/-- The path without its last component, as written; the root and the empty path have none. -/
def parent (p : Path) : Option Path :=
  match p.spoken, p.lead with
  | _ :: before, l => some (assemble l (before.dropWhile blank).reverse)
  | [], .here => some empty
  | [], _ => none

/-- The name that a path ends with, if it ends with one. -/
def fileName (p : Path) : Option FileName :=
  match p.spoken with
  | s :: _ => if s = [dot, dot] then none else some s
  | [] => none

/-- One path after another; a rooted one stands alone. -/
def join (p q : Path) : Path :=
  if q.isRooted then q
  else if p.bytes = [] ∨ p.bytes.getLast? = some slash then ⟨p.bytes ++ q.bytes⟩
  else ⟨p.bytes ++ slash :: q.bytes⟩

/-- The entry of this name in the directory `p`. -/
def child (p : Path) (n : FileName) : Path := p.join (ofName n)

/-- The parent, or the path itself where there is none. -/
def pop (p : Path) : Path := p.parent.getD p

/-- The path that a component says on its own. -/
def ofComponent : Component → Path
  | .root => root
  | .here => ⟨[dot]⟩
  | .up => ⟨[dot, dot]⟩
  | .name n => ⟨n⟩

def ofComponents (cs : List Component) : Path := cs.foldl (fun p c => p.join (ofComponent c)) empty

/-- A path written without repeated slashes, inner dots and a slash at the end. -/
def tidy (p : Path) : Path := ofComponents p.components

end Path

end LinkWatch
