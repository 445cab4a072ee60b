import LinkWatch.Settings.Basic
import LinkWatch.Text.Utf8
import LinkWatch.Toml.Document

/-!
Settings from a document. Fields are read in the order of their names, and the first that is not known or does not
fit is the failure.
-/

namespace LinkWatch

open Toml (Value)

/-- The fields of a table in the order of their names. -/
def inOrder (fields : List (String × Value)) : List (String × Value) :=
  fields.mergeSort fun a b => decide (a.1 ≤ b.1)

/-- The largest number that a setting can hold. -/
def maxNumber : Nat := UInt64.size - 1

def number? : Value → Except DocumentError Nat
  | .whole n => if 0 ≤ n && n ≤ maxNumber then .ok n.toNat else .error .wrongType
  | _ => .error .wrongType

def text? : Value → Except DocumentError String
  | .text s => .ok s
  | _ => .error .wrongType

def texts? : Value → Except DocumentError (List String)
  | .array _ vs => vs.mapM text?
  | _ => .error .wrongType

namespace WatcherSettings

def fieldNames : List String := ["callback_threads", "shutdown_timeout_secs", "poll_interval_ms"]

/-- Sets the number of a name. -/
def set (w : WatcherSettings) (field : String × Value) : Except DocumentError WatcherSettings :=
  match field.1 with
  | "callback_threads" => (number? field.2).map fun n => { w with callbackThreads := n }
  | "shutdown_timeout_secs" => (number? field.2).map fun n => { w with shutdownTimeoutSecs := n }
  | "poll_interval_ms" => (number? field.2).map fun n => { w with pollIntervalMillis := n }
  | name => .error (.unknownField name fieldNames)

/-- The field that a date is read as where a table is expected. -/
def momentField : String := "$__toml_private_datetime"

/-- The numbers of a table, or of an array in the order of their names' list; what is missing keeps its default. -/
def ofValue? : Value → Except DocumentError WatcherSettings
  | .table _ fields => (inOrder fields).foldlM set {}
  | .array _ vs => (fieldNames.zip vs).foldlM set {}
  | .moment => .error (.unknownField momentField fieldNames)
  | _ => .error .wrongType

end WatcherSettings

namespace RawSettings

def fieldNames : List String := ["paths", "watcher"]

def set (raw : RawSettings) (field : String × Value) : Except DocumentError RawSettings :=
  match field.1 with
  | "paths" => (texts? field.2).map fun paths => { raw with paths }
  | "watcher" => (WatcherSettings.ofValue? field.2).map fun watcher => { raw with watcher }
  | name => .error (.unknownField name fieldNames)

/-- The settings of a document. -/
def ofDocument (s : String) : Except DocumentError RawSettings :=
  match Toml.read? s with
  | some (.table _ fields) => (inOrder fields).foldlM set {}
  | _ => .error .malformed

/-- What is said of a file that is no text. -/
def notText : IoError := .custom .invalidData "stream did not contain valid UTF-8"

/-- The settings of a file, from the answer to reading it. -/
def ofFile (answer : Except IoError (List UInt8)) : Except WatchError RawSettings :=
  match answer with
  | .error e => .error (.io e)
  | .ok bytes =>
    match Utf8.decode? bytes with
    | none => .error (.io notText)
    | some s => (ofDocument s).mapError .document

end RawSettings

/-- The settings of a file, if they are accepted. -/
def Settings.ofFile (answer : Except IoError (List UInt8)) : Except WatchError Settings :=
  match RawSettings.ofFile answer with
  | .error e => .error e
  | .ok raw => raw.accept.mapError .setting

end LinkWatch
