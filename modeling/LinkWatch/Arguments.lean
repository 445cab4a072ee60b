import LinkWatch.Log.Level
import LinkWatch.Settings.Basic
import LinkWatch.Text.Utf8

/-!
The arguments of the command. An option's value is checked only once it is complete, that is, at the next option that
is known or at the end; an option that is not known fails at once. So of two faults the one that is noticed first
wins.
-/

namespace LinkWatch

structure Arguments where
  paths : List Path := []
  config : Option Path := none
  callbackThreads : Option Nat := none
  shutdownTimeout : Option Nat := none
  logLevel : Option Log.Level := none
deriving DecidableEq, Inhabited

/-- Why arguments are refused, or what they ask for instead. -/
inductive ArgumentError where
  | unknownArgument
  /-- A value is missing, empty, or none of those that are possible. -/
  | invalidValue
  /-- A number that cannot be read. -/
  | notANumber
  | notText
  /-- An option that is given twice. -/
  | repeated
  /-- A value for an option that takes none. -/
  | unneededValue
  | help
  | version
deriving DecidableEq, Inhabited

/-- The status with which the command ends: a question is no fault. -/
def ArgumentError.status : ArgumentError → Nat
  | .help => 0
  | .version => 0
  | _ => 2

def ArgumentError.message : ArgumentError → String
  | .unknownArgument => "there is no such option"
  | .invalidValue => "an option has no value, or one that is not possible"
  | .notANumber => "an option needs a number"
  | .notText => "an option needs a text"
  | .repeated => "an option is given twice"
  | .unneededValue => "an option takes no value"
  | .help => "symwatch [--config FILE] [--callback-threads N] [--shutdown-timeout SECS] [--log-level LEVEL] [PATH...]"
  | .version => "symwatch 0.1.0"

/-- What the command says of its version. -/
def versionText : String := ArgumentError.version.message ++ "\n"

namespace Arguments

/-- An option with a value. -/
inductive Flag where
  | config
  | callbackThreads
  | shutdownTimeout
  | logLevel
deriving DecidableEq, Inhabited

/-- What can be written after two dashes. -/
inductive Word where
  | flag (f : Flag)
  | help
  | version

def word? : List UInt8 → Option Word
  | bs =>
    match Utf8.decode? bs with
    | some "config" => some (.flag .config)
    | some "callback-threads" => some (.flag .callbackThreads)
    | some "shutdown-timeout" => some (.flag .shutdownTimeout)
    | some "log-level" => some (.flag .logLevel)
    | some "help" => some .help
    | some "version" => some .version
    | _ => none

/-- A number: digits, perhaps after a plus, below `2 ^ 64`. -/
def number? (bs : List UInt8) : Except ArgumentError Nat :=
  match Utf8.decode? bs with
  | none => .error .notText
  | some s =>
    let digits := match s.toList with
      | '+' :: cs => cs
      | cs => cs
    let n := digits.foldl (fun n c => n * 10 + (c.toNat - '0'.toNat)) 0
    if !digits.isEmpty && digits.all Char.isDigit && n < UInt64.size then .ok n else .error .notANumber

def path? (bs : List UInt8) : Except ArgumentError Path :=
  if bs.isEmpty then .error .invalidValue else .ok ⟨bs⟩

def level? (bs : List UInt8) : Except ArgumentError Log.Level :=
  match Utf8.decode? bs with
  | some "error" => .ok .error
  | some "warn" => .ok .warn
  | some "info" => .ok .info
  | some "debug" => .ok .debug
  | some "trace" => .ok .trace
  | _ => .error .invalidValue

/-- Sets an option that must not be set yet. -/
def set (f : Flag) (value : List UInt8) (a : Arguments) : Except ArgumentError Arguments :=
  match f with
  | .config => if a.config.isSome then .error .repeated else (path? value).map fun p => { a with config := some p }
  | .callbackThreads =>
    if a.callbackThreads.isSome then .error .repeated
    else (number? value).map fun n => { a with callbackThreads := some n }
  | .shutdownTimeout =>
    if a.shutdownTimeout.isSome then .error .repeated
    else (number? value).map fun n => { a with shutdownTimeout := some n }
  | .logLevel =>
    if a.logLevel.isSome then .error .repeated else (level? value).map fun l => { a with logLevel := some l }

/-- Values that are not checked yet. -/
inductive Pending where
  | nothing
  | paths (values : List (List UInt8))
  | flag (f : Flag) (value : Option (List UInt8))

/-- The arguments up to some point. -/
structure Draft where
  done : Arguments := {}
  pending : Pending := .nothing
  /-- Two dashes alone were seen: only paths follow. -/
  pathsOnly : Bool := false

namespace Draft

/-- Checks what is pending. -/
def settle (d : Draft) : Except ArgumentError Draft :=
  match d.pending with
  | .nothing => .ok d
  | .paths values =>
    (values.mapM path?).map fun ps =>
      { d with pending := .nothing, done := { d.done with paths := d.done.paths ++ ps } }
  | .flag _ none => .error .invalidValue
  | .flag f (some value) => (d.done.set f value).map fun done => { d with pending := .nothing, done }

/-- A path. -/
def addPath (value : List UInt8) (d : Draft) : Except ArgumentError Draft :=
  match d.pending with
  | .paths values => .ok { d with pending := .paths (values ++ [value]) }
  | _ => d.settle.map fun d => { d with pending := .paths [value] }

/-- An argument with two dashes, after them. -/
def addWord (body : List UInt8) (d : Draft) : Except ArgumentError Draft :=
  let equals : UInt8 := 0x3d
  let name := body.takeWhile (· != equals)
  let value := match body.dropWhile (· != equals) with
    | _ :: value => some value
    | [] => none
  match word? name, value with
  | none, _ => .error .unknownArgument
  | some (.flag f), some value =>
    match d.settle with
    | .error e => .error e
    | .ok d => (d.done.set f value).map fun done => { d with done }
  | some (.flag f), none => d.settle.map fun d => { d with pending := .flag f none }
  | some _, some _ => .error .unneededValue
  | some .help, none => d.settle.bind fun _ => .error .help
  | some .version, none => d.settle.bind fun _ => .error .version

/-- An argument with one dash, after it: letters, of which the first decides. -/
def addLetters (letters : List UInt8) (d : Draft) : Except ArgumentError Draft :=
  match letters with
  | 0x68 :: _ => d.settle.bind fun _ => .error .help
  | 0x56 :: _ => d.settle.bind fun _ => .error .version
  | _ => .error .unknownArgument

/-- The next argument. -/
def add (d : Draft) (arg : List UInt8) : Except ArgumentError Draft :=
  if d.pathsOnly then d.addPath arg
  else
    match arg with
    | [0x2d, 0x2d] => .ok { d with pathsOnly := true }
    | 0x2d :: 0x2d :: body => d.addWord body
    | 0x2d :: letter :: letters => d.addLetters (letter :: letters)
    | value =>
      match d.pending with
      | .flag f none => .ok { d with pending := .flag f (some value) }
      | _ => d.addPath value

end Draft

/-- Reads the arguments of the command. -/
def read (args : List (List UInt8)) : Except ArgumentError Arguments :=
  match args.foldlM Draft.add {} with
  | .error e => .error e
  | .ok d => d.settle.map Draft.done

/-- Why the options of the command cannot be used. -/
inductive OptionError where
  | zeroThreads
  | zeroTimeout
deriving DecidableEq, Inhabited

def OptionError.message : OptionError → String
  | .zeroThreads => "--callback-threads must be >= 1"
  | .zeroTimeout => "--shutdown-timeout must be >= 1"

/-- What a watcher is started with: the command's options before those of a file. -/
def effectiveOptions (settings : Option Settings) (a : Arguments) : Except OptionError Options :=
  let base := (settings.map Settings.options).getD {}
  if a.callbackThreads = some 0 then .error .zeroThreads
  else if a.shutdownTimeout = some 0 then .error .zeroTimeout
  else .ok { base with
    callbackThreads := a.callbackThreads.getD base.callbackThreads
    shutdownTimeout := (a.shutdownTimeout.map Duration.ofSeconds).getD base.shutdownTimeout }

end Arguments

end LinkWatch
