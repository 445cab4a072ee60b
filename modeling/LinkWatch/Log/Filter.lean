import LinkWatch.Log.Record

/-!
Which log records are shown. A filter is a list of directives, most specific first, and the first that is about a
record decides. A directive is about the parts of the program whose name starts like its target; as text it is a
level, a target, or both with an equals sign between them. In brackets it can name a span and fields; since
there are no spans here, a directive that names one is about no record.
-/

namespace LinkWatch.Log

/-- The most detailed level that passes; none does if there is none. -/
abbrev Bound := Option Level

structure Directive where
  target : Option (List Char) := none
  /-- The fields that a record must have. -/
  fields : List (List Char) := []
  bound : Bound
deriving DecidableEq, Inhabited

/-- The directives, most specific first. -/
structure Filter where
  directives : List Directive
deriving DecidableEq, Inhabited

namespace Directive

/-- The name of every record's text among its fields. -/
def messageField : String := "message"

/-- The directive is about the record. -/
def isAbout (d : Directive) (r : Record) : Bool :=
  d.target.all (fun t => t.isPrefixOf r.origin.target.toList) &&
  d.fields.all fun f => String.ofList f == messageField || r.fields.any fun x => x.1.toList == f

/-- Two directives about the same. -/
def same (a b : Directive) : Bool := a.target == b.target && a.fields == b.fields

/-- How specific a directive is: the size of its target, then the number of its fields. -/
def weight (d : Directive) : Nat × Nat :=
  (d.target.elim 0 fun t => (String.ofList t).utf8ByteSize + 1, d.fields.length)

/-- The first directive counts before the second. -/
def before (a b : Directive) : Bool :=
  let (x, y) := (a.weight, b.weight)
  y.1 < x.1 || (x.1 == y.1 && y.2 < x.2)

/-! ### Directives as text -/

/-- The level of a word, whatever the case of its letters, or of a number from `0`. -/
def bound? (cs : List Char) : Option Bound :=
  let digits := match cs with
    | '+' :: rest => rest
    | _ => cs
  if !digits.isEmpty && digits.all Char.isDigit then
    let n := digits.foldl (fun n c => n * 10 + (c.toNat - '0'.toNat)) 0
    [none, some Level.error, some .warn, some .info, some .debug, some .trace][n]?
  else
    match (String.ofList cs).toLower with
    | "" => some (some .error)
    | "off" => some none
    | "error" => some (some .error)
    | "warn" => some (some .warn)
    | "info" => some (some .info)
    | "debug" => some (some .debug)
    | "trace" => some (some .trace)
    | _ => none

/-- The level after an equals sign; everything where nothing follows. -/
def boundAfter? (cs : List Char) : Option Bound := if cs.isEmpty then some (some .trace) else bound? cs

/-- A character that a target can start with. Beyond ASCII every character counts as a letter. -/
def startsTarget (c : Char) : Bool := c.isAlphanum || c == '-' || c == ':' || c == '_' || 0x7f < c.toNat

/-- The end of a directive, after its brackets. -/
def tail? : List Char → Option Bound
  | [] => some (some .trace)
  | '=' :: cs => boundAfter? cs
  | _ => none

/-- The name of a field, and whether a value is asked of it. -/
def field (cs : List Char) : List Char × Bool := (cs.takeWhile (· != '='), cs.contains '=')

/-- What brackets say after a target: a span, or fields in braces. Gives the directive if there can be records that
it is about. -/
def brackets? (target : Option (List Char)) (cs : List Char) : Option (Option Directive) :=
  let span := cs.takeWhile fun c => c != ']' && c != '\x7b'
  match cs.drop span.length with
  | ']' :: rest => (tail? rest).map fun _ => none
  | '\x7b' :: rest =>
    let inner := rest.takeWhile (· != '\x7d')
    match rest.drop inner.length with
    | '\x7d' :: ']' :: rest =>
      if inner.isEmpty then none
      else (tail? rest).map fun bound =>
        let (name, valued) := field inner
        if span.isEmpty && !valued then some { target, fields := [name], bound } else none
    | _ => none
  | _ => none

/-- A directive from its text; nothing inside where no record can be meant. A blank in front is part of a target,
and does not go with an equals sign. -/
def read? (cs : List Char) : Option (Option Directive) :=
  let body := Text.trim cs
  let name := body.takeWhile fun c => c != '=' && c != '['
  let blank := cs.head?.any Text.isBlank
  match body with
  | [] => none
  | '[' :: rest => if blank && rest.contains '=' then none else brackets? none rest
  | c :: _ =>
    if !startsTarget c then none
    else if name.length == body.length then
      match bound? cs with
      | some bound => some (some { bound })
      | none => some (some { target := some cs, bound := some .trace })
    else if blank && body.contains '=' then none
    else
      match cs.drop name.length with
      | '=' :: rest => (boundAfter? rest).map fun bound => some { target := some name, bound }
      | '[' :: rest => brackets? (some name) rest
      | _ => none

end Directive

namespace Filter

/-- Puts a directive at its place, instead of one about the same. -/
def insert (d : Directive) : List Directive → List Directive
  | [] => [d]
  | e :: es =>
    if d.same e then d :: es
    else if d.before e then d :: e :: es
    else e :: insert d es

/-- A filter of directives, of which a later one counts instead of an earlier one about the same. -/
def ofDirectives (ds : List Directive) : Filter := ⟨ds.foldl (fun es d => insert d es) []⟩

/-- A filter for all parts of the program. -/
def ofLevel (l : Level) : Filter := ⟨[{ bound := some l }]⟩

/-- A filter from directives with commas between them. With none there are only errors. -/
def read? (s : String) : Option Filter :=
  let pieces := ((Text.trim s.toList).splitOn ',').filter (· != [])
  (pieces.mapM Directive.read?).map fun ds =>
    if ds.isEmpty then ofLevel .error else ofDirectives (ds.filterMap id)

/-- The record is shown. -/
def passes (f : Filter) (r : Record) : Bool :=
  (f.directives.find? fun d => d.isAbout r).any fun d => d.bound.any fun l => r.level.rank ≤ l.rank

/-- The setting that a filter is read from. -/
def setting : String := "SYMWATCH_LOG"

/-- The filter of a setting, if there is one; and the setting if it cannot be read. -/
def ofSetting : Option String → Filter × Option String
  | none => (ofLevel .info, none)
  | some s =>
    match Level.ofText? s with
    | some l => (ofLevel l, none)
    | none =>
      match read? s with
      | some f => (f, none)
      | none => (ofLevel .info, some s)

/-- The filter of the program: a level that it was asked for counts before a setting. -/
def choose (asked : Option Level) (setting : Option String) : Filter × Option String :=
  match asked with
  | some l => (ofLevel l, none)
  | none => ofSetting setting

end Filter

end LinkWatch.Log
