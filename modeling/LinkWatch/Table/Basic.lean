import LinkWatch.Listener.Set
import LinkWatch.Table.Index

/-!
The table of watched paths. A target is one request to watch a path; it keeps its identity after it is taken out
of the table, and then counts as retired. The operations come as the steps that cannot be divided:
`enter` and `enlist` for a registration, `takeOut` and `retire` for a removal, `repoint` for a change of
where a target leads. Each step that touches the index says which directories it touched.
-/

namespace LinkWatch

/-- One request to watch a path. -/
structure Target where
  /-- The path as requested. -/
  requested : Path
  resolution : Resolution
  /-- Taken out of the table; no interests may be added for it any more. -/
  retired : Bool := false
  listeners : ListenerSet := {}
deriving DecidableEq, Inhabited

/-- The identity of a target: its place among all targets ever created. -/
abbrev TargetId := Nat

structure Table where
  /-- All targets ever created. -/
  created : List Target := []
  /-- The targets of the table, by requested path. -/
  registered : List (Path × TargetId) := []
  index : Index := {}
  /-- The directories that are natively watched. -/
  armed : List Path := []
  /-- The listeners of all targets. -/
  global : ListenerSet := {}
deriving DecidableEq, Inhabited

namespace Table

/-- The target of an identity. -/
def target (t : Table) (id : TargetId) : Target := t.created[id]?.getD default

/-- Changes a target. -/
def modify (id : TargetId) (f : Target → Target) (t : Table) : Table := { t with created := t.created.modify id f }

/-- The registered target of a requested path. -/
def find? (t : Table) (requested : Path) : Option TargetId := Sorted.find? requested.components t.registered

/-- The registered targets, in the order of their requested paths. -/
def targets (t : Table) : List TargetId := t.registered.map Prod.snd

/-- The registered targets that the index finds under an entry, in the order of their requested paths. -/
def targetsFor (t : Table) (e : Entry) : List TargetId := (t.index.lookup e).filterMap t.find?

/-- The directory is natively watched. -/
def isArmed (t : Table) (dir : Path) : Bool := Sorted.contains t.armed dir.components

/-! ### Targets -/

/-- Finds the target of a path, or creates it with a resolution; says whether it did. -/
def enter (requested : Path) (r : Resolution) (t : Table) : (TargetId × Bool) × Table :=
  match t.find? requested with
  | some id => ((id, false), t)
  | none =>
    let id := t.created.length
    ((id, true), { t with
      created := t.created ++ [{ requested, resolution := r }]
      registered := Sorted.alter requested (fun _ => id) t.registered })

/-- Notes the interests of a target, unless it is retired. -/
def enlist (id : TargetId) (t : Table) : List Path × Table :=
  let target := t.target id
  if target.retired then ([], t)
  else
    (target.resolution.directories,
      { t with index := target.resolution.interests.foldl (fun x e => x.add target.requested e) t.index })

/-- Takes the target of a path out. -/
def takeOut (requested : Path) (t : Table) : Option TargetId × Table :=
  match t.find? requested with
  | some id => (some id, { t with registered := Sorted.erase requested.components t.registered })
  | none => (none, t)

/-- Retires a target and forgets its interests. -/
def retire (id : TargetId) (t : Table) : List Path × Table :=
  let target := t.target id
  let t := t.modify id fun target => { target with retired := true }
  (target.resolution.directories,
    { t with index := target.resolution.interests.foldl (fun x e => x.remove target.requested e) t.index })

/-- Gives a target a new resolution, unless it is retired or leads there already. New interests are noted before
old ones are forgotten, so a directory that both share never goes out of use in between. -/
def repoint (id : TargetId) (r : Resolution) (t : Table) : Option (Resolution × List Path) × Table :=
  let target := t.target id
  if target.retired || target.resolution.same r then (none, t)
  else
    let before := target.resolution.interests
    let after := r.interests
    let added := (Sorted.diff after before).foldl (fun x e => x.add target.requested e) t.index
    let index := (Sorted.diff before after).foldl (fun x e => x.remove target.requested e) added
    (some (target.resolution, Sorted.ofList ((before ++ after).map Entry.dir)),
      { t.modify id fun target => { target with resolution := r } with index })

/-! ### Native watches -/

/-- What a directory needs to be watched natively exactly as long as it is in use. -/
inductive Need where
  | watch
  | unwatch
  | nothing
deriving DecidableEq

def need (dir : Path) (t : Table) : Need :=
  match t.index.contains dir, t.isArmed dir with
  | true, false => .watch
  | false, true => .unwatch
  | _, _ => .nothing

/-- The directory is natively watched from now on. -/
def arm (dir : Path) (t : Table) : Table := { t with armed := Sorted.insert dir t.armed }

/-- The directory is no longer natively watched. -/
def disarm (dir : Path) (t : Table) : Table := { t with armed := Sorted.erase dir.components t.armed }

/-! ### Listeners -/

/-- The listeners of one target, or of all. -/
inductive Scope where
  | all
  | only (id : TargetId)
deriving DecidableEq

def listeners (t : Table) : Scope → ListenerSet
  | .all => t.global
  | .only id => (t.target id).listeners

def setListeners (scope : Scope) (s : ListenerSet) (t : Table) : Table :=
  match scope with
  | .all => { t with global := s }
  | .only id => t.modify id fun target => { target with listeners := s }

/-- A set of the table owns the listener. -/
def owns (t : Table) (k : ListenerKey) : Bool :=
  t.global.owns k || t.targets.any fun id => (t.target id).listeners.owns k

/-- A listener is alive if the table owns it or somebody outside does. -/
def alive (outside : ListenerKey → Bool) (t : Table) (k : ListenerKey) : Bool := outside k || t.owns k

variable (outside : ListenerKey → Bool)

/-- Registers a listener in a scope; says whether it was new there. -/
def addListener (scope : Scope) (hold : Hold) (k : ListenerKey) (t : Table) : Bool × Table :=
  let (new, s) := (t.listeners scope).add (t.alive outside) hold k
  (new, t.setListeners scope s)

/-- Takes a listener out of a scope; says whether it was there. -/
def removeFrom (k : ListenerKey) (scope : Scope) (t : Table) : Bool × Table :=
  let (found, s) := (t.listeners scope).remove (t.alive outside) k
  (found, t.setListeners scope s)

/-- Takes a listener out everywhere; says whether it was anywhere. -/
def removeListener (k : ListenerKey) (t : Table) : Bool × Table :=
  (Scope.all :: t.targets.map .only).foldl (fun (found, t) scope =>
    let (here, t) := t.removeFrom outside k scope
    (found || here, t)) (false, t)

/-- The live listeners of a scope. -/
def live (scope : Scope) (t : Table) : List ListenerKey × Table :=
  let (ks, s) := (t.listeners scope).live (t.alive outside)
  (ks, t.setListeners scope s)

/-- How many targets and directories there are. -/
def summaryOf (targets directories : Nat) : String :=
  s!"WatchTable \x7b targets: {targets}, directories: {directories}, .. \x7d"

def summary (t : Table) : String := summaryOf t.registered.length t.index.directories.length

end Table

end LinkWatch
