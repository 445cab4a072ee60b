import LinkWatch.Disk.Live
import LinkWatch.Scripted.Roster

/-!
A watcher of real files, with the listeners of a script.
-/

namespace LinkWatch.Scripted

structure LiveSession where
  live : Live
  roster : Roster := {}

namespace LiveSession

/-- Listeners that the script owns are owned outside the table. -/
def own (s : LiveSession) : LiveSession :=
  { s with live := s.live.setEngine { s.live.engine with held := s.roster.held } }

/-- A request to the watcher. -/
def ask {α : Type} (f : Watcher Station → α × Watcher Station) (s : LiveSession) : α × LiveSession :=
  let (a, live) := s.own.live.ask f
  (a, { s with live })

/-- A request with the listener of a name, unless nobody owns it any more. -/
def askWith {α : Type} (name : String) (f : ListenerKey → Watcher Station → α × Watcher Station) (s : LiveSession) :
    Option α × LiveSession :=
  let (k, roster) := s.roster.meet name
  let s := { s with roster }.own
  if s.live.engine.table.alive s.live.engine.outside k then
    let (a, s) := s.ask (f k)
    (some a, s)
  else (none, s)

/-- The script drops a listener; says whether it owned it. -/
def drop (name : String) (s : LiveSession) : Bool × LiveSession :=
  let (was, roster) := s.roster.drop name
  (was, { s with roster }.own)

/-- Somebody changes a file. -/
def change (c : FileChange) (s : LiveSession) : LiveSession := { s with live := s.own.live.change c }

def close (s : LiveSession) : LiveSession := { s with live := s.own.live.close }

/-- Calls since they were last taken. -/
def takeCalls (s : LiveSession) : List (String × Path) × LiveSession :=
  (s.live.calls.map fun (n : Notification) => (s.roster.name n.key, n.path),
    { s with live := { s.live with calls := [] } })

end LiveSession

end LinkWatch.Scripted
