import LinkWatch.Log.Level

/-!
Log records: a level, the part of the watcher that speaks, a message and named values.
-/

namespace LinkWatch.Log

/-- The parts of the watcher that log. -/
inductive Origin where
  | program
  | dispatch
  | lifecycle
  | watcher
  | listener
  | resolver
  | source
  | table
  | eventLoop
deriving DecidableEq, Inhabited

/-- The name of a part, by which filters select. -/
def Origin.target : Origin → String
  | .program => "symwatch"
  | .dispatch => "symwatch::dispatch"
  | .lifecycle => "symwatch::lifecycle"
  | .watcher => "symwatch::watcher"
  | .listener => "symwatch::watch::listener"
  | .resolver => "symwatch::watch::resolver"
  | .source => "symwatch::watch::source"
  | .table => "symwatch::watch::table"
  | .eventLoop => "symwatch::watch::watch_loop"

structure Record where
  level : Level
  origin : Origin
  message : String
  fields : List (String × String) := []
deriving DecidableEq, Inhabited

/-- Message and values. -/
def Record.body (r : Record) : String :=
  r.fields.foldl (fun s f => s ++ " " ++ f.1 ++ "=" ++ f.2) r.message

/-- Level, message and values. -/
def Record.text (r : Record) : String := r.level.name ++ " " ++ r.body

end LinkWatch.Log
