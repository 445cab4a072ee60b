/-!
Values of a TOML document, and tables that grow line by line. A table knows how it came to be, since that decides
what may still be added to it:
- one that a header names may get fields below the header, and tables of its own;
- one that a header only passes through may still be named by a header;
- one that a dotted field passes through grows by such fields alone;
- one that was written as a value is complete.
-/

namespace LinkWatch.Toml

/-- How a table came to be. -/
inductive Origin where
  | header
  | passed
  | dotted
  | inline
deriving DecidableEq, Inhabited

inductive Value where
  | text (s : String)
  | whole (n : Int)
  | real
  | flag (b : Bool)
  /-- A date, a time, or both. -/
  | moment
  /-- An array; `tables` says that its elements came from headers. -/
  | array (tables : Bool) (vs : List Value)
  | table (origin : Origin) (fields : List (String × Value))
deriving Inhabited

namespace Value

/-- The value of a field. -/
def find? (fields : List (String × Value)) (k : String) : Option Value :=
  (fields.find? fun f => f.1 == k).map Prod.snd

/-- Replaces the value of a field. -/
def replace (fields : List (String × Value)) (k : String) (v : Value) : List (String × Value) :=
  fields.map fun f => if f.1 == k then (k, v) else f

/-- Changes what is at the end of a path of names. Tables on the way that are not there yet are created with origin
`new`; of an array of tables the last one is meant; `open?` says which tables may be passed. -/
def descend (new : Origin) (open? : Origin → Bool) (f : Value → Option Value) : List String → Value → Option Value
  | [], v => f v
  | k :: ks, .table o fields =>
    match find? fields k with
    | none => (descend new open? f ks (.table new [])).map fun v => .table o (fields ++ [(k, v)])
    | some (.array true vs) =>
      match vs.getLast? with
      | some last =>
        (descend new open? f ks last).map fun v => .table o (replace fields k (.array true (vs.dropLast ++ [v])))
      | none => none
    | some (.table o' fields') =>
      if open? o' then (descend new open? f ks (.table o' fields')).map fun v => .table o (replace fields k v)
      else none
    | some _ => none
  | _ :: _, _ => none

/-- Adds a field to a table. A field without dots belongs to the table itself, one with dots only to tables that
such fields made. -/
def addField (dotted : Bool) (k : String) (added : Value) : Value → Option Value
  | .table o fields =>
    if (o == .dotted) != dotted || (find? fields k).isSome then none else some (.table o (fields ++ [(k, added)]))
  | _ => none

/-- Adds a field with these names, the last of which is `k`. -/
def put (t : Value) (names : List String) (k : String) (v : Value) : Option Value :=
  descend .dotted (fun o => o == .passed || o == .dotted) (addField (!names.isEmpty) k v) names t

/-- A table that was written as a value. -/
def completed : Value → Value
  | .table _ fields => .table .inline fields
  | v => v

/-- A header of a table: the table is new, or headers have only passed it. -/
def openTable (k : String) : Value → Option Value
  | .table o fields =>
    match find? fields k with
    | none => some (.table o (fields ++ [(k, .table .header [])]))
    | some (.table .passed fields') => some (.table o (replace fields k (.table .header fields')))
    | some _ => none
  | _ => none

/-- A header of an array of tables, which gets one more. -/
def openElement (k : String) : Value → Option Value
  | .table o fields =>
    match find? fields k with
    | none => some (.table o (fields ++ [(k, .array true [.table .header []])]))
    | some (.array true vs) => some (.table o (replace fields k (.array true (vs ++ [.table .header []]))))
    | some _ => none
  | _ => none

/-- A header with these names, the last of which is `k`. -/
def openHeader (t : Value) (element : Bool) (names : List String) (k : String) : Option Value :=
  descend .passed (fun o => o != .inline) (if element then openElement k else openTable k) names t

/-- Adds a field below a header. -/
def putBelow (t : Value) (header names : List String) (k : String) (v : Value) : Option Value :=
  descend .passed (fun _ => true) (fun t => t.put names k v) header t

end Value

end LinkWatch.Toml
