import LinkWatch.Disk.Live
import LinkWatch.Log.Capture
import LinkWatch.Log.Filter
import LinkWatch.Program

/-!
The command on a directory tree: it starts, somebody changes files, and it is interrupted. It prints a line for each
notification.
-/

namespace LinkWatch.Command

/-- What the command leaves behind. -/
structure Outcome where
  status : Nat
  /-- What it printed. -/
  printed : String := ""
  /-- What it complained of, without the log. -/
  complaint : String := ""
  /-- The records that were shown. -/
  log : List Log.Record := []
deriving DecidableEq, Inhabited

/-- The files of a tree. -/
def files (d : Disk) : Program.Files where
  isPresent p := d.isPresent p
  read p := d.read p

/-- The command's only listener. -/
def listener : ListenerKey := 0

/-- Carries out a plan on a tree: says whether all paths are watched. -/
def launch (plan : Program.Plan) (d : Disk) : Except Program.Failure Unit × Live :=
  let live := (Live.start plan.options.callbackThreads plan.options.shutdownTimeout d).say Program.startRecord
  live.ask (Program.watchAll Station.system.toSystem listener plan.paths)

/-- Starts the command on a tree with its files. -/
def start (a : Arguments) (d : Disk) : Except Program.Failure (Except Program.Failure Unit × Live) :=
  (Program.plan (files d) a).map fun plan => launch plan d

/-- The line of a notification. -/
def line (n : Notification) : String := n.path.display ++ "\n"

/-- What is complained of a setting for the log that cannot be read. -/
def settingComplaint (s : String) : String := s!"ignoring invalid {Log.Filter.setting}={Text.quoted s}:\n"

/-- The whole run, with changes of files once all paths are watched; then the command is interrupted. -/
def run (a : Arguments) (setting : Option String) (changes : List FileChange) (d : Disk) : Outcome :=
  let (filter, rejected) := Log.Filter.choose a.logLevel setting
  let warned := rejected.elim "" settingComplaint
  match start a d with
  | .error f => { status := 1, complaint := warned ++ f.report ++ "\n" }
  | .ok (.error f, live) =>
    { status := 1
      complaint := warned ++ f.report ++ "\n"
      log := live.close.log.filter filter.passes }
  | .ok (.ok _, live) =>
    let live := changes.foldl (fun l c => l.change c) live
    { status := 0
      printed := String.join (live.calls.map line)
      complaint := warned
      log := (live.say Program.stopRecord).close.log.filter filter.passes }

end LinkWatch.Command
