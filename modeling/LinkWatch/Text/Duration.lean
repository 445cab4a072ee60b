/-!
Spans of time: whole seconds and nanoseconds below a second. Their text takes the largest unit that
gives a whole part and drops zeros at the end of the fraction.
-/

namespace LinkWatch

/-- A span of time in nanoseconds. -/
structure Duration where
  nanos : Nat
deriving DecidableEq, Inhabited

namespace Duration

/-- Nanoseconds in a second. -/
def second : Nat := 1000000000

def ofParts (secs nanos : Nat) : Duration := ⟨secs * second + nanos⟩
def ofSeconds (secs : Nat) : Duration := ⟨secs * second⟩
def ofMillis (ms : Nat) : Duration := ⟨ms * 1000000⟩

/-- Whole seconds. -/
def secs (d : Duration) : Nat := d.nanos / second

/-- Nanoseconds beyond the whole seconds. -/
def subsec (d : Duration) : Nat := d.nanos % second

/-- The fraction `part / unit` as digits after a point, where `unit` is a power of ten; nothing for a whole
number. -/
def fraction (part unit : Nat) : String :=
  let digits := (Nat.toDigits 10 part).leftpad ((Nat.toDigits 10 unit).length - 1) '0'
  let kept := (digits.reverse.dropWhile (· == '0')).reverse
  if kept.isEmpty then "" else String.ofList ('.' :: kept)

/-- A number of nanoseconds in a unit of so many nanoseconds. -/
def inUnit (n unit : Nat) (name : String) : String := toString (n / unit) ++ fraction (n % unit) unit ++ name

/-- The text of a span of time. -/
def text (d : Duration) : String :=
  if second ≤ d.nanos then inUnit d.nanos second "s"
  else if 1000000 ≤ d.nanos then inUnit d.nanos 1000000 "ms"
  else if 1000 ≤ d.nanos then inUnit d.nanos 1000 "µs"
  else inUnit d.nanos 1 "ns"

end Duration

end LinkWatch
