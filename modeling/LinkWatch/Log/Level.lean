import LinkWatch.Text.Blank

/-!
Levels of log records, from the gravest to the most detailed, and their names.
-/

namespace LinkWatch.Log

inductive Level where
  | error
  | warn
  | info
  | debug
  | trace
deriving DecidableEq, Inhabited

namespace Level

def name : Level → String
  | .error => "ERROR"
  | .warn => "WARN"
  | .info => "INFO"
  | .debug => "DEBUG"
  | .trace => "TRACE"

/-- How detailed a level is. -/
def rank : Level → Nat
  | .error => 1
  | .warn => 2
  | .info => 3
  | .debug => 4
  | .trace => 5

/-- The lower-case form of a letter, as far as it can make a level's name: the capitals of ASCII, and no other
character. The only other letters whose lower case is ASCII are the Kelvin sign and the dotted capital I; the
first turns into a letter that no level has, and the second keeps its dot. -/
def lower (c : Char) : Char := c.toLower

/-- The level a text names, whatever the case of its letters and the blanks around it. -/
def ofText? (s : String) : Option Level :=
  match String.ofList ((Text.trim s.toList).map lower) with
  | "error" => some .error
  | "warn" => some .warn
  | "warning" => some .warn
  | "info" => some .info
  | "debug" => some .debug
  | "trace" => some .trace
  | _ => none

end Level

end LinkWatch.Log
