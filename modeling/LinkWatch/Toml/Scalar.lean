import LinkWatch.Toml.Value

/-!
Words of a TOML document that are no strings: numbers, dates, times and truth values. `Value.ofWord?` reads such a
word whole.
-/

namespace LinkWatch.Toml

/-- A digit of base 10. -/
def isDigit (c : Char) : Bool := '0' ≤ c && c ≤ '9'

/-- A digit of base 16. -/
def isHexDigit (c : Char) : Bool := isDigit c || ('a' ≤ c && c ≤ 'f') || ('A' ≤ c && c ≤ 'F')

/-- What a digit counts. -/
def digitValue (c : Char) : Nat :=
  if isDigit c then c.toNat - 0x30 else if 'a' ≤ c then c.toNat - 0x61 + 10 else c.toNat - 0x41 + 10

/-- What a row of digits counts in a base. -/
def numeral (base : Nat) (cs : List Char) : Nat := cs.foldl (fun n c => n * base + digitValue c) 0

/-- Digits, with single underscores between them. -/
def spaced (digit : Char → Bool) : List Char → Bool
  | [] => false
  | [c] => digit c
  | c :: '_' :: cs => digit c && spaced digit cs
  | c :: cs => digit c && spaced digit cs

/-- The value of digits with underscores. -/
def spacedValue (base : Nat) (cs : List Char) : Int := numeral base (cs.filter (· != '_'))

/-- Digits of base 10 without a needless zero in front. -/
def isDecimal (cs : List Char) : Bool := spaced isDigit cs && (cs.length == 1 || cs.head? != some '0')

/-- The sign of a word, and the rest. -/
def signed : List Char → Bool × List Char
  | '+' :: cs => (false, cs)
  | '-' :: cs => (true, cs)
  | cs => (false, cs)

/-! ### Numbers -/

def whole? (cs : List Char) : Option Int :=
  match cs with
  | '0' :: 'x' :: ds => if spaced isHexDigit ds then some (spacedValue 16 ds) else none
  | '0' :: 'o' :: ds => if spaced (fun c => '0' ≤ c && c ≤ '7') ds then some (spacedValue 8 ds) else none
  | '0' :: 'b' :: ds => if spaced (fun c => c == '0' || c == '1') ds then some (spacedValue 2 ds) else none
  | cs =>
    let (negative, ds) := signed cs
    if isDecimal ds then some (if negative then -(spacedValue 10 ds) else spacedValue 10 ds) else none

/-- An exponent, after its letter. -/
def isExponent (cs : List Char) : Bool := spaced isDigit (signed cs).2

/-- A number with a fraction, an exponent, or both; or one of the words for what is no number. -/
def isReal (cs : List Char) : Bool :=
  let body := (signed cs).2
  if body == ['i', 'n', 'f'] || body == ['n', 'a', 'n'] then true
  else
    let isMark := fun (c : Char) => c == 'e' || c == 'E'
    let mantissa := body.takeWhile fun c => !isMark c
    let exponent := body.dropWhile fun c => !isMark c
    let before := mantissa.takeWhile (· != '.')
    let after := mantissa.dropWhile (· != '.')
    isDecimal before &&
      (match after with
        | [] => !exponent.isEmpty
        | _ :: ds => spaced isDigit ds) &&
      (match exponent with
        | [] => true
        | _ :: ds => isExponent ds)

/-! ### Dates and times -/

/-- A number of exactly so many digits, and the rest. -/
def digits? (width : Nat) (cs : List Char) : Option (Nat × List Char) :=
  let ds := cs.take width
  if ds.length == width && ds.all isDigit then some (numeral 10 ds, cs.drop width) else none

def isLeap (year : Nat) : Bool := year % 4 == 0 && (year % 100 != 0 || year % 400 == 0)

def daysIn (year month : Nat) : Nat :=
  if month == 2 then (if isLeap year then 29 else 28)
  else if month == 4 || month == 6 || month == 9 || month == 11 then 30
  else 31

/-- Reads a date; gives what is left. -/
def date? (cs : List Char) : Option (List Char) :=
  match digits? 4 cs with
  | some (year, '-' :: cs) =>
    match digits? 2 cs with
    | some (month, '-' :: cs) =>
      match digits? 2 cs with
      | some (day, cs) =>
        if 1 ≤ month && month ≤ 12 && 1 ≤ day && day ≤ daysIn year month then some cs else none
      | none => none
    | _ => none
  | _ => none

/-- Reads the seconds of a time, if there are any; gives what is left. -/
def seconds? : List Char → Option (List Char)
  | ':' :: cs =>
    match digits? 2 cs with
    | some (second, cs) =>
      if second ≤ 60 then
        match cs with
        | '.' :: ds => if ds.head?.any isDigit then some (ds.dropWhile isDigit) else none
        | cs => some cs
      else none
    | none => none
  | cs => some cs

/-- Reads hours and minutes; gives what is left. -/
def minutes? (cs : List Char) : Option (List Char) :=
  match digits? 2 cs with
  | some (hour, ':' :: cs) =>
    match digits? 2 cs with
    | some (minute, cs) => if hour ≤ 23 && minute ≤ 59 then some cs else none
    | none => none
  | _ => none

/-- Reads a time of day; gives what is left. -/
def time? (cs : List Char) : Option (List Char) := (minutes? cs).bind seconds?

/-- The end of a date with a time: nothing, or how far it is from universal time. -/
def isOffset : List Char → Bool
  | [] => true
  | ['Z'] => true
  | ['z'] => true
  | '+' :: cs => minutes? cs == some []
  | '-' :: cs => minutes? cs == some []
  | _ => false

/-- A date, a time of day, or both with a letter or a blank between them. -/
def isMoment (cs : List Char) : Bool :=
  match date? cs with
  | some [] => true
  | some (c :: cs) => (c == 'T' || c == 't' || c == ' ') && (time? cs).any isOffset
  | none => time? cs == some []

/-- The value of a word. -/
def Value.ofWord? (cs : List Char) : Option Value :=
  if cs == ['t', 'r', 'u', 'e'] then some (.flag true)
  else if cs == ['f', 'a', 'l', 's', 'e'] then some (.flag false)
  else
    match whole? cs with
    | some n => some (.whole n)
    | none => if isReal cs then some .real else if isMoment cs then some .moment else none

end LinkWatch.Toml
