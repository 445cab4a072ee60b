import LinkWatch.Disk.Source
import LinkWatch.Log.Traced
import LinkWatch.Loop.Thread

/-!
The surroundings of a watcher of real files: a directory tree, its native watches, and the events not yet read.
Nothing here waits for time to pass.
-/

namespace LinkWatch

structure Station where
  disk : Disk
  source : NativeSource := {}
  /-- Events that were reported and not yet read. -/
  events : List Event := []
  control : LoopControl := {}
  /-- What was logged of answers. -/
  log : List Log.Record := []
deriving Inhabited

namespace Station

def say (r : Log.Record) (s : Station) : Station := { s with log := s.log ++ [r] }

/-- The questions of a walk to the tree as it is. -/
def files : Filesystem Station where
  entryKind p s := (s.disk.snapshot.entryKind p, s)
  readLink p s := (s.disk.snapshot.readLink p, s)
  currentDir s := (s.disk.snapshot.currentDir, s)

def watches : NativeWatches Station where
  watch dir s :=
    let (answer, source) := s.source.watch s.disk dir
    (answer, { s with source })
  unwatch dir s :=
    let (answer, source) := s.source.unwatch dir
    (answer, { s with source })

/-- The next batch: all events that were reported so far. -/
def next (s : Station) : Except WatchError (Option (List Event)) × Station :=
  if !s.events.isEmpty then (.ok (some s.events), { s with events := [] })
  else (if s.source.closed then .error .sourceClosed else .ok none, s)

/-- The system of a watcher of real files. -/
def system : LoopSystem Station :=
  { files.traced say with
    toNativeWatches := watches.traced say
    next := next
    state := fun s => s.control.state
    stop := fun s => { s with control := s.control.stop } }

/-- Somebody changes a file. -/
def change (c : FileChange) (s : Station) : Station :=
  let (disk, notices) := s.disk.apply c
  let (events, source) := s.source.deliver notices
  { s with disk, source, events := s.events ++ events }

/-- What is logged when the source is closed for the first time. -/
def closeRecord : Log.Record where
  level := .debug
  origin := .source
  message := "native event source closed"

/-- Closes the event source; events already reported can still be read. -/
def close (s : Station) : Station :=
  let s' := { s with source := s.source.close }
  if s.source.closed then s' else s'.say closeRecord

end Station

end LinkWatch
