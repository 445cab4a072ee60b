import LinkWatch.Log.Record
import LinkWatch.System

/-!
Questions to the system whose answers are logged: each link that is followed, each component that is missing, and
each native watch. The answers themselves stay the same.
-/

namespace LinkWatch

variable {σ : Type}

/-- What is logged of a link that is followed. -/
def Filesystem.linkRecord (link target : Path) : Log.Record where
  level := .trace
  origin := .resolver
  message := "following symlink"
  fields := [("link", link.quoted), ("target", target.quoted)]

/-- What is logged of a component that is missing. -/
def Filesystem.missingRecord (p : Path) : Log.Record where
  level := .trace
  origin := .resolver
  message := "component does not exist yet"
  fields := [("path", p.quoted)]

/-- The same tree, with a record of each link that is followed and each component that is missing. -/
def Filesystem.traced (say : Log.Record → σ → σ) (fs : Filesystem σ) : Filesystem σ where
  entryKind p s :=
    match fs.entryKind p s with
    | (.error e, s) => (.error e, if e.isMissing then say (missingRecord p) s else s)
    | answer => answer
  readLink p s :=
    match fs.readLink p s with
    | (.ok target, s) => (.ok target, say (linkRecord p target) s)
    | answer => answer
  currentDir := fs.currentDir

/-- What is logged of a native watch. -/
def NativeWatches.record (message : String) (dir : Path) : Log.Record where
  level := .debug
  origin := .source
  message := message
  fields := [("dir", dir.quoted)]

/-- The same watches, with a record of each that begins or ends. -/
def NativeWatches.traced (say : Log.Record → σ → σ) (w : NativeWatches σ) : NativeWatches σ where
  watch dir s :=
    match w.watch dir s with
    | (.ok _, s) => (.ok (), say (record "native watch registered" dir) s)
    | answer => answer
  unwatch dir s :=
    match w.unwatch dir s with
    | (.ok _, s) => (.ok (), say (record "native watch released" dir) s)
    | answer => answer

end LinkWatch
