import LinkWatch.Log.Record

/-!
A log as lines of text. Characters that steer a terminal are shown by their number, so that a message cannot
take over the screen it is read on.
-/

namespace LinkWatch.Log

/-- A character of a message. -/
def shownChar (c : Char) : List Char :=
  let digits := Nat.toDigits 16 c.toNat
  if c.toNat ∈ [0x07, 0x08, 0x0c, 0x1b, 0x7f] then ['\\', 'x'] ++ digits.leftpad 2 '0'
  else if 0x80 ≤ c.toNat && c.toNat ≤ 0x9f then ['\\', 'u', '\x7b'] ++ digits ++ ['\x7d']
  else [c]

/-- A message as it is shown. -/
def shown (s : String) : String := String.ofList (s.toList.flatMap shownChar)

/-- The message as it is shown, and the values. -/
def Record.shownBody (r : Record) : String := { r with message := shown r.message }.body

/-- The end of a record's line, after the time: the level takes five columns. -/
def Record.line (r : Record) : String :=
  String.ofList (' ' :: (r.level.name.toList.leftpad 5 ' ')) ++ " " ++ r.shownBody

/-- A record with the name of the part that speaks. -/
def Record.entry (r : Record) : String := r.level.name ++ " " ++ r.origin.target ++ ": " ++ r.shownBody

/-- The characters hold a run of others. -/
def holdsRun (run : List Char) : List Char → Bool
  | [] => run.isEmpty
  | c :: cs => run.isPrefixOf (c :: cs) || holdsRun run cs

/-- The text holds another one. -/
def holds (needle text : String) : Bool := holdsRun needle.toList text.toList

/-- The log as one text. -/
def contents (rs : List Record) : String := String.join (rs.map fun r => r.line ++ "\n")

/-- The lines of a log that hold both texts. -/
def linesWith (level needle : String) (rs : List Record) : List String :=
  ((contents rs).splitOn "\n").dropLast.filter fun l => holds level l && holds needle l

end LinkWatch.Log
