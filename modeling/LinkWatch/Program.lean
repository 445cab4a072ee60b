import LinkWatch.Arguments
import LinkWatch.Settings.Document
import LinkWatch.Watcher

/-!
What the command does: it reads its settings, works out what to watch and with which options, and watches the paths
in order. The first failure ends it, and is told with everything behind it.
- `Program.plan`: options and paths, from the arguments and a file of settings;
- `Program.watchAll`: watches the paths, up to the first that cannot be watched;
- `Program.Failure`: why the command gives up.
-/

namespace LinkWatch

/-- The texts of what is behind a failure, nearest first. -/
def WatchError.causes : WatchError → List String
  | .resolution _ source => [source.message]
  | .native e => [e.message]
  | .io e => [e.message]
  | .document e => [e.message?.getD "malformed document"]
  | _ => []

namespace Program

/-- Why the command gives up. -/
inductive Failure where
  | settings (file : Path) (e : WatchError)
  | option (e : Arguments.OptionError)
  | nothingToWatch
  | watch (path : Path) (e : WatchError)
deriving DecidableEq, Inhabited

namespace Failure

def message : Failure → String
  | .settings file _ => s!"failed to load config {file.display}"
  | .option e => e.message
  | .nothingToWatch => "nothing to watch: pass PATH arguments or list `paths` in the config file"
  | .watch path _ => s!"failed to watch {path.display}"

/-- The texts of what is behind it, nearest first. -/
def causes : Failure → List String
  | .settings _ e => e.message :: e.causes
  | .watch _ e => e.message :: e.causes
  | _ => []

/-- The line of a cause, with its number. -/
def causeLine (i : Nat) (cause : String) : String :=
  "\n" ++ String.ofList ((Nat.toDigits 10 i).leftpad 5 ' ') ++ ": " ++ cause

/-- A failure as it is told: causes are numbered where there are several. -/
def report (f : Failure) : String :=
  let head := "symwatch error: " ++ f.message
  match f.causes with
  | [] => head
  | [cause] => head ++ "\n\nCaused by:\n    " ++ cause
  | causes => head ++ "\n\nCaused by:" ++ String.join (causes.mapIdx causeLine)

end Failure

/-! ### Settings -/

/-- The files that the command may ask for. -/
structure Files where
  /-- Something is at the end of a path. -/
  isPresent : Path → Bool
  read : Path → Except IoError (List UInt8)

/-- The file of settings that is read where no other is named. -/
def defaultFile : Path := .ofString "Symwatch.toml"

/-- The settings of a file. -/
def load (files : Files) (file : Path) : Except Failure Settings :=
  (Settings.ofFile (files.read file)).mapError (.settings file)

/-- The settings of the file that is named, which must be there, or of the default file if it is there. -/
def settings? (files : Files) (named : Option Path) : Except Failure (Option Settings) :=
  match named with
  | some file => (load files file).map some
  | none => if files.isPresent defaultFile then (load files defaultFile).map some else .ok none

/-- What the command sets out to do. -/
structure Plan where
  options : Options
  /-- The paths to watch, those of the settings first. -/
  paths : List Path
deriving DecidableEq, Inhabited

def plan (files : Files) (a : Arguments) : Except Failure Plan :=
  match settings? files a.config with
  | .error e => .error e
  | .ok settings =>
    match a.effectiveOptions settings with
    | .error e => .error (.option e)
    | .ok options =>
      let paths := settings.elim [] Settings.paths ++ a.paths
      if paths.isEmpty then .error .nothingToWatch else .ok { options, paths }

/-! ### Watching -/

def record (level : Log.Level) (message : String) : Log.Record := { level, origin := .program, message }

def startRecord : Log.Record := record .debug "file watcher started"

def watchingRecord (p : Path) : Log.Record := { record .info "watching" with fields := [("path", p.display)] }

def stopRecord : Log.Record := record .info "shutdown requested"

variable {σ : Type}

/-- Watches paths in order for one listener, up to the first that cannot be watched. -/
def watchAll (sys : System σ) (k : ListenerKey) : List Path → Watcher σ → Except Failure Unit × Watcher σ
  | [], w => (.ok (), w)
  | p :: ps, w =>
    match w.addFor sys .strong p k with
    | (.error e, w) => (.error (.watch p e), w)
    | (.ok _, w) => watchAll sys k ps { w with engine := w.engine.say (watchingRecord p) }

end Program

end LinkWatch
