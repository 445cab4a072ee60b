import LinkWatch.Toml.Quotation

/-!
Documents: lines that are empty, name a table, or set a field. `Document.read?` reads a text whole or refuses it.
Readers that may meet nesting or long texts take `fuel`, a bound on the steps left; the length of the text is
always enough.
-/

namespace LinkWatch.Toml

/-! ### Between the words -/

def skipBlank (cs : List Char) : List Char := cs.dropWhile isBlank

/-- Skips a comment, if there is one. -/
def comment? : List Char → Option (List Char)
  | '#' :: cs =>
    let rest := cs.dropWhile isPlain
    if rest.isEmpty || (lineEnd? rest).isSome then some rest else none
  | cs => some cs

/-- Skips blanks, line ends and comments. -/
def gap? : (fuel : Nat) → List Char → Option (List Char)
  | 0, cs => some cs
  | fuel + 1, cs =>
    match comment? (skipBlank cs) with
    | some cs =>
      match lineEnd? cs with
      | some cs => gap? fuel cs
      | none => some cs
    | none => none

/-! ### Names -/

/-- Characters of a name without quotes. -/
def isNameChar (c : Char) : Bool :=
  isDigit c || ('a' ≤ c && c ≤ 'z') || ('A' ≤ c && c ≤ 'Z') || c == '_' || c == '-'

/-- One name. -/
def name? (cs : List Char) : Option (String × List Char) :=
  match cs with
  | '"' :: cs => (basic? (cs.length + 1) cs).map fun (s, cs) => (String.ofList s, cs)
  | '\'' :: cs => (literal? cs).map fun (s, cs) => (String.ofList s, cs)
  | cs =>
    let s := cs.takeWhile isNameChar
    if s.isEmpty then none else some (String.ofList s, cs.dropWhile isNameChar)

/-- Names with dots between them: those before the last, the last, and what is left after blanks. -/
def names? : (fuel : Nat) → List Char → Option (List String × String × List Char)
  | 0, _ => none
  | fuel + 1, cs =>
    match name? (skipBlank cs) with
    | none => none
    | some (k, cs) =>
      match skipBlank cs with
      | '.' :: cs => (names? fuel cs).map fun (ks, last, cs) => (k :: ks, last, cs)
      | cs => some ([], k, cs)

/-! ### Values -/

/-- Nested values go no deeper. -/
def maxDepth : Nat := 80

/-- Characters of a word without quotes. -/
def isWordChar (c : Char) : Bool := isNameChar c || c == '+' || c == '.' || c == ':'

/-- A word without quotes. A date may be followed by a blank and a time. -/
def word? (cs : List Char) : Option (Value × List Char) :=
  let w := cs.takeWhile isWordChar
  match cs.dropWhile isWordChar with
  | ' ' :: c :: rest =>
    if date? w == some [] && isDigit c then
      (Value.ofWord? (w ++ ' ' :: (c :: rest).takeWhile isWordChar)).map fun v => (v, (c :: rest).dropWhile isWordChar)
    else (Value.ofWord? w).map fun v => (v, ' ' :: c :: rest)
  | rest => (Value.ofWord? w).map fun v => (v, rest)

mutual

/-- A value; `depth` levels of nesting are left. -/
def value? : (fuel depth : Nat) → List Char → Option (Value × List Char)
  | 0, _, _ => none
  | fuel + 1, depth, cs =>
    match cs with
    | '"' :: '"' :: '"' :: cs => (block? '"' cs).map fun (s, cs) => (.text (String.ofList s), cs)
    | '\'' :: '\'' :: '\'' :: cs => (block? '\'' cs).map fun (s, cs) => (.text (String.ofList s), cs)
    | '"' :: cs => (basic? (cs.length + 1) cs).map fun (s, cs) => (.text (String.ofList s), cs)
    | '\'' :: cs => (literal? cs).map fun (s, cs) => (.text (String.ofList s), cs)
    | '[' :: cs =>
      match depth with
      | 0 => none
      | depth + 1 => (elements? fuel depth cs).map fun (vs, cs) => (.array false vs, cs)
    | '{' :: cs =>
      match depth with
      | 0 => none
      | depth + 1 => fields? fuel depth (.table .header []) cs
    | cs => word? cs

/-- The elements of an array, up to its closing bracket. -/
def elements? : (fuel depth : Nat) → List Char → Option (List Value × List Char)
  | 0, _, _ => none
  | fuel + 1, depth, cs =>
    match gap? cs.length cs with
    | none => none
    | some (']' :: cs) => some ([], cs)
    | some cs =>
      match value? fuel depth cs with
      | none => none
      | some (v, cs) =>
        match gap? cs.length cs with
        | some (',' :: cs) => (elements? fuel depth cs).map fun (vs, cs) => (v :: vs, cs)
        | some (']' :: cs) => some ([v], cs)
        | _ => none

/-- The fields of a table in braces, up to its closing brace. -/
def fields? : (fuel depth : Nat) → Value → List Char → Option (Value × List Char)
  | 0, _, _, _ => none
  | fuel + 1, depth, t, cs =>
    match gap? cs.length cs with
    | none => none
    | some ('}' :: cs) => some (t.completed, cs)
    | some cs =>
      match field? fuel depth cs with
      | none => none
      | some ((names, k, v), cs) =>
        match t.put names k v, gap? cs.length cs with
        | some t, some (',' :: cs) => fields? fuel depth t cs
        | some t, some ('}' :: cs) => some (t.completed, cs)
        | _, _ => none

/-- A field: names, an equals sign, and a value. -/
def field? : (fuel depth : Nat) → List Char → Option ((List String × String × Value) × List Char)
  | 0, _, _ => none
  | fuel + 1, depth, cs =>
    match names? (cs.length + 1) cs with
    | some (names, k, '=' :: cs) =>
      (value? fuel depth (skipBlank cs)).map fun (v, cs) => ((names, k, v), cs)
    | _ => none

end

/-! ### Lines -/

/-- What has been read of a document. -/
structure Draft where
  root : Value := .table .header []
  /-- The names of the table that fields go to. -/
  header : List String := []

/-- A header, after its first bracket. -/
def header? (d : Draft) (cs : List Char) : Option (Draft × List Char) :=
  let (element, cs) := match cs with
    | '[' :: cs => (true, cs)
    | cs => (false, cs)
  match names? (cs.length + 1) cs with
  | none => none
  | some (names, k, cs) =>
    let rest := match element, cs with
      | true, ']' :: ']' :: cs => some cs
      | false, ']' :: cs => some cs
      | _, _ => none
    match rest, d.root.openHeader element names k with
    | some cs, some root => some (⟨root, names ++ [k]⟩, cs)
    | _, _ => none

/-- A line that starts with a name or a bracket. -/
def statement? (d : Draft) (cs : List Char) : Option (Draft × List Char) :=
  match cs with
  | '[' :: cs => header? d cs
  | cs =>
    match field? (3 * cs.length + 3) maxDepth cs with
    | none => none
    | some ((names, k, v), cs) => (d.root.putBelow d.header names k v).map fun root => (⟨root, d.header⟩, cs)

/-- The lines of a document. -/
def lines : (fuel : Nat) → Draft → List Char → Option Draft
  | 0, _, _ => none
  | fuel + 1, d, cs =>
    match gap? cs.length cs with
    | none => none
    | some [] => some d
    | some cs =>
      match statement? d cs with
      | none => none
      | some (d, cs) =>
        match comment? (skipBlank cs) with
        | none => none
        | some [] => some d
        | some cs =>
          match lineEnd? cs with
          | some cs => lines fuel d cs
          | none => none

/-- The table that a text describes. A mark of byte order at its start does not count. -/
def read? (s : String) : Option Value :=
  let cs := match s.toList with
    | '\ufeff' :: cs => cs
    | cs => cs
  (lines (cs.length + 1) {} cs).map Draft.root

end LinkWatch.Toml
