import LinkWatch.Loop.Thread
import LinkWatch.Scripted.Source
import LinkWatch.Scripted.Tree

/-!
The scripted surroundings of a watcher: tree, event source and clock. Inspecting an entry may start a drain, or
kill the event loop.
-/

namespace LinkWatch.Scripted

structure World where
  tree : Tree := .empty
  source : Source := {}
  control : LoopControl := {}
  now : Instant := ⟨0⟩
  /-- Inspecting one of these starts a drain without delay, once. -/
  drainTraps : List Path := []
  /-- Inspecting one of these kills the event loop. -/
  deathTraps : List Path := []
  /-- The event loop is at work. -/
  onLoop : Bool := false
  /-- The event loop has died. -/
  dead : Bool := false
deriving Inhabited

namespace World

/-- Springs the traps at a path. -/
def spring (p : Path) (w : World) : World :=
  let w :=
    if w.drainTraps.any p.same then
      { w with drainTraps := w.drainTraps.eraseP p.same, control := (w.control.requestDrain w.now).2 }
    else w
  if w.onLoop && w.deathTraps.any p.same then
    { w with deathTraps := w.deathTraps.eraseP p.same, dead := true }
  else w

/-- The system of a watcher: tree, source, clock, and the state of the event loop. -/
def system : LoopSystem World where
  entryKind p w :=
    let w := w.spring p
    if w.dead && w.onLoop then (.error (.plain .other), w)
    else
      let (answer, tree) := w.tree.entryKind p
      (answer, { w with tree })
  readLink p w :=
    let (answer, tree) := w.tree.readLink p
    (answer, { w with tree })
  currentDir w :=
    let (answer, tree) := Tree.filesystem.currentDir w.tree
    (answer, { w with tree })
  watch dir w :=
    let (answer, source) := w.source.watch dir
    (answer, { w with source })
  unwatch dir w :=
    let (answer, source) := w.source.unwatch dir
    (answer, { w with source })
  overdue w := (w.control.overdue w.now, w)
  halted w := w.dead && w.onLoop
  next w :=
    let (answer, source) := w.source.next
    (answer, { w with source })
  state w := w.control.state
  stop w := { w with control := w.control.stop }

end World

end LinkWatch.Scripted
