import LinkWatch.Toml.Scalar

/-!
Strings of a TOML document: with or without escapes, on one line or on several. Each reader starts after the opening
quotes and gives the characters and what is left after the closing quotes.
-/

namespace LinkWatch.Toml

/-- Characters that may stand anywhere between quotes and in comments: all but controls, and the tab. -/
def isPlain (c : Char) : Bool := c == '\t' || (0x20 ≤ c.toNat && c.toNat != 0x7f)

/-- What is left after the end of a line. -/
def lineEnd? : List Char → Option (List Char)
  | '\n' :: cs => some cs
  | '\r' :: '\n' :: cs => some cs
  | _ => none

def isBlank (c : Char) : Bool := c == ' ' || c == '\t'

/-- A character by its number in base 16, of exactly so many digits. -/
def numbered? (width : Nat) (cs : List Char) : Option (Char × List Char) :=
  let ds := cs.take width
  let n := numeral 16 ds
  if ds.length == width && ds.all isHexDigit && n.isValidChar then some (.ofNat n, cs.drop width) else none

/-- The character that an escape stands for, after its backslash. -/
def escaped? : List Char → Option (Char × List Char)
  | 'b' :: cs => some ('\x08', cs)
  | 't' :: cs => some ('\t', cs)
  | 'n' :: cs => some ('\n', cs)
  | 'f' :: cs => some ('\x0c', cs)
  | 'r' :: cs => some ('\r', cs)
  | 'e' :: cs => some ('\x1b', cs)
  | '"' :: cs => some ('"', cs)
  | '\\' :: cs => some ('\\', cs)
  | 'x' :: cs => numbered? 2 cs
  | 'u' :: cs => numbered? 4 cs
  | 'U' :: cs => numbered? 8 cs
  | _ => none

/-- A string with escapes, on one line; `fuel` bounds its length. -/
def basic? : (fuel : Nat) → List Char → Option (List Char × List Char)
  | 0, _ => none
  | _ + 1, '"' :: cs => some ([], cs)
  | fuel + 1, '\\' :: cs =>
    match escaped? cs with
    | some (c, cs) => (basic? fuel cs).map fun (s, cs) => (c :: s, cs)
    | none => none
  | fuel + 1, c :: cs => if isPlain c then (basic? fuel cs).map fun (s, cs) => (c :: s, cs) else none
  | _ + 1, [] => none

/-- A string without escapes, on one line. -/
def literal? : List Char → Option (List Char × List Char)
  | '\'' :: cs => some ([], cs)
  | c :: cs => if isPlain c then (literal? cs).map fun (s, cs) => (c :: s, cs) else none
  | [] => none

/-- Quotes inside a string on several lines: fewer than three belong to it, three close it, and up to two before
these still belong to it. -/
def closing (q : Char) (cs : List Char) : Bool × List Char × List Char :=
  let n := min 5 (cs.takeWhile (· == q)).length
  if 3 ≤ n then (true, List.replicate (n - 3) q, cs.drop n) else (false, List.replicate n q, cs.drop n)

/-- A string on several lines; in one with escapes a backslash at the end of a line takes the blanks and line ends
after it away. -/
def lines? (q : Char) : (fuel : Nat) → List Char → Option (List Char × List Char)
  | 0, _ => none
  | _ + 1, [] => none
  | fuel + 1, c :: cs =>
    if c == q then
      match closing q (c :: cs) with
      | (true, s, cs) => some (s, cs)
      | (false, s, cs) => (lines? q fuel cs).map fun (s', cs) => (s ++ s', cs)
    else if c == '\\' && q == '"' then
      match lineEnd? (cs.dropWhile isBlank) with
      | some cs => lines? q fuel (cs.dropWhile fun c => isBlank c || c == '\n' || c == '\r')
      | none =>
        match escaped? cs with
        | some (c, cs) => (lines? q fuel cs).map fun (s, cs) => (c :: s, cs)
        | none => none
    else
      match lineEnd? (c :: cs) with
      | some _ => (lines? q fuel cs).map fun (s, cs) => (c :: s, cs)
      | none =>
        if isPlain c then (lines? q fuel cs).map fun (s, cs) => (c :: s, cs) else none

/-- A string on several lines, without a line end right after the opening quotes. -/
def block? (q : Char) (cs : List Char) : Option (List Char × List Char) :=
  let cs := (lineEnd? cs).getD cs
  lines? q (cs.length + 1) cs

end LinkWatch.Toml
