import LinkWatch.Disk.Command
import LinkWatch.Disk.Line

/-!
The command. Arguments, the file of settings and the setting of the log are those of the system it runs on. The tree
that is watched is told on standard input, one change of a file in each line; it starts out empty.
-/

namespace LinkWatch.Command

/-- The number that a failure comes with. -/
def code? : IO.Error → Option UInt32
  | .noFileOrDirectory _ code _ => some code
  | .inappropriateType _ code _ => some code
  | .invalidArgument _ code _ => some code
  | .resourceExhausted _ code _ => some code
  | _ => none

/-- The number of a failure of the system; some come with its negative. -/
def systemCode (code : UInt32) : Nat := code.toInt32.toInt.natAbs

/-- A failure to read a file. -/
def readError (e : IO.Error) : IoError :=
  let known : List Errno := [.noEntry, .notADirectory, .isADirectory, .invalid, .nameTooLong, .tooManyLinks]
  match (code? e).bind fun code => known.find? fun e => e.code == systemCode code with
  | some e => .os e
  | none => .custom .other (toString e)

/-- The answer to reading a file, as the only file there is. -/
def onlyFile (answer : Except IoError (List UInt8)) : Program.Files where
  isPresent _ :=
    match answer with
    | .error e => !e.isMissing
    | .ok _ => true
  read _ := answer

def readFile (p : Path) : IO (Except IoError (List UInt8)) := do
  try return .ok (← IO.FS.readBinFile p.display).toList
  catch e => return .error (readError e)

/-- Prints what happened since the last time. -/
def tell (filter : Log.Filter) (live : Live) : IO Live := do
  let out ← IO.getStdout
  for n in live.calls do out.putStr (line n)
  out.flush
  for r in live.log.filter filter.passes do IO.eprintln r.entry
  return live.forget

/-- Makes the changes that standard input tells of. -/
partial def attend (filter : Log.Filter) (input : IO.FS.Stream) (live : Live) : IO Live := do
  let told ← input.getLine
  if told.isEmpty then return live
  match FileChange.ofLine? ((told.dropEndWhile (· == '\n')).toString) with
  | some c => attend filter input (← tell filter (live.change c))
  | none => do
    IO.eprintln s!"not a change: {told}"
    attend filter input live

/-- Carries out a plan. -/
def carryOut (plan : Program.Plan) (filter : Log.Filter) : IO UInt32 := do
  let home := Path.ofString (← IO.currentDir).toString
  let (answer, live) := launch plan (.bare home)
  let live ← tell filter live
  match answer with
  | .error f => do
    let _ ← tell filter live.close
    IO.eprintln f.report
    return 1
  | .ok _ => do
    let live ← attend filter (← IO.getStdin) live
    let _ ← tell filter (live.say Program.stopRecord).close
    return 0

/-- Runs the command with its arguments. -/
def runWith (a : Arguments) : IO UInt32 := do
  let (filter, rejected) := Log.Filter.choose a.logLevel (← IO.getEnv Log.Filter.setting)
  if let some s := rejected then IO.eprint (settingComplaint s)
  let file := a.config.getD Program.defaultFile
  match Program.plan (onlyFile (← readFile file)) a with
  | .error f => do
    IO.eprintln f.report
    return 1
  | .ok plan => carryOut plan filter

end LinkWatch.Command

open LinkWatch

def main (args : List String) : IO UInt32 := do
  match Arguments.read (args.map Utf8.encode) with
  | .error e => do
    if e.status = 0 then IO.println e.message else IO.eprintln e.message
    return e.status.toUInt32
  | .ok a => Command.runWith a
