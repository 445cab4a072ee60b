import LinkWatch.Text.Quoted

/-!
What can go wrong, as causes. Each type of failure has one function that words it.
-/

namespace LinkWatch

/-! ### Failures of the system -/

/-- The kinds of failure of a question to the system. -/
inductive IoKind where
  | notFound
  | notADirectory
  | isADirectory
  | permissionDenied
  | invalidInput
  | invalidData
  | timedOut
  | linkLoop
  | invalidName
  | other
deriving DecidableEq, Inhabited

/-- The text of a failure that says no more than its kind. -/
def IoKind.message : IoKind → String
  | .notFound => "entity not found"
  | .notADirectory => "not a directory"
  | .isADirectory => "is a directory"
  | .permissionDenied => "permission denied"
  | .invalidInput => "invalid input parameter"
  | .invalidData => "invalid data"
  | .timedOut => "timed out"
  | .linkLoop => "filesystem loop or indirection limit (e.g. symlink loop)"
  | .invalidName => "invalid filename"
  | .other => "other error"

/-- The failures that the system reports by number. -/
inductive Errno where
  | noEntry
  | notADirectory
  | isADirectory
  | invalid
  | nameTooLong
  | tooManyLinks
deriving DecidableEq, Inhabited

def Errno.code : Errno → Nat
  | .noEntry => 2
  | .notADirectory => 20
  | .isADirectory => 21
  | .invalid => 22
  | .nameTooLong => 36
  | .tooManyLinks => 40

def Errno.description : Errno → String
  | .noEntry => "No such file or directory"
  | .notADirectory => "Not a directory"
  | .isADirectory => "Is a directory"
  | .invalid => "Invalid argument"
  | .nameTooLong => "File name too long"
  | .tooManyLinks => "Too many levels of symbolic links"

def Errno.kind : Errno → IoKind
  | .noEntry => .notFound
  | .notADirectory => .notADirectory
  | .isADirectory => .isADirectory
  | .invalid => .invalidInput
  | .nameTooLong => .invalidName
  | .tooManyLinks => .linkLoop

/-- A failure of a question to the system: a bare kind, a kind with a text of its own, or a number. -/
inductive IoError where
  | plain (kind : IoKind)
  | custom (kind : IoKind) (text : String)
  | os (code : Errno)
deriving DecidableEq, Inhabited

def IoError.kind : IoError → IoKind
  | .plain k => k
  | .custom k _ => k
  | .os e => e.kind

def IoError.message : IoError → String
  | .plain k => k.message
  | .custom _ text => text
  | .os e => s!"{e.description} (os error {e.code})"

/-- Nothing is there: the entry is missing, or what should hold it is no directory. -/
def IoError.isMissing (e : IoError) : Bool := e.kind == .notFound || e.kind == .notADirectory

/-! ### Failures of native watches -/

inductive NativeCause where
  | pathNotFound
  | watchNotFound
  | io (e : IoError)
deriving DecidableEq, Inhabited

/-- A refused request for a native watch of a path. -/
structure NativeError where
  cause : NativeCause
  path : Path
deriving DecidableEq, Inhabited

def NativeError.message (e : NativeError) : String :=
  let cause := match e.cause with
    | .pathNotFound => "No path was found."
    | .watchNotFound => "No watch was found."
    | .io e => e.message
  s!"{cause} about [{e.path.quoted}]"

/-! ### Failures of a configuration -/

/-- A setting that cannot be used. -/
inductive SettingError where
  | zero (setting : String)
  | emptyPath (index : Nat)
deriving DecidableEq, Inhabited

def SettingError.message : SettingError → String
  | .zero setting => s!"[watcher].{setting} must be >= 1 (got 0)"
  | .emptyPath index => s!"paths[{index}] is empty"

/-- A configuration text that cannot be read: its form is wrong, a value has the wrong type, or a field is
not known. -/
inductive DocumentError where
  | malformed
  | wrongType
  | unknownField (field : String) (known : List String)
deriving DecidableEq, Inhabited

/-- The names of the fields that would do. -/
def knownFields : List String → String
  | [] => "there are no fields"
  | [a] => s!"expected `{a}`"
  | [a, b] => s!"expected `{a}` or `{b}`"
  | fields => "expected one of " ++ ", ".intercalate (fields.map fun f => s!"`{f}`")

/-- The text of a failure, where this library words it. -/
def DocumentError.message? : DocumentError → Option String
  | .unknownField field known => some s!"unknown field `{field}`, {knownFields known}"
  | _ => none

/-! ### Failures of the watcher -/

/-- Why a request to the watcher fails. -/
inductive WatchError where
  /-- The request cannot be meant. -/
  | invalidArgument (reason : String)
  /-- The watcher is closed. -/
  | closed (operation : String)
  /-- An entry on the way cannot be inspected, for another reason than that it is missing. -/
  | resolution (path : Path) (source : IoError)
  /-- More links on the way than are followed. -/
  | linkLoop (path : Path)
  | sourceClosed
  | native (e : NativeError)
  | setting (e : SettingError)
  | io (e : IoError)
  | document (e : DocumentError)
deriving DecidableEq, Inhabited

def WatchError.message : WatchError → String
  | .invalidArgument reason => s!"Invalid argument: {reason}"
  | .closed operation => s!"Illegal state: {operation} on closed file watcher"
  | .resolution path source => s!"Failed to resolve {path.quoted}: {source.message}"
  | .linkLoop path => s!"Too many levels of symbolic links resolving {path.quoted}"
  | .sourceClosed => "Native event source is closed"
  | .native e => s!"Native watch error: {e.message}"
  | .setting e => s!"Configuration error: {e.message}"
  | .io e => s!"IO error: {e.message}"
  | .document e => "TOML parsing error: " ++ e.message?.getD "malformed document"

/-- Why an executor cannot tell that it has ended. -/
structure TerminationError where
  reason : String
deriving DecidableEq, Inhabited

def TerminationError.message (e : TerminationError) : String := s!"termination interrupted: {e.reason}"

end LinkWatch
