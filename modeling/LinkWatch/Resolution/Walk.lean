import LinkWatch.Filesystem
import LinkWatch.Resolution.Basic

/-!
Resolution of a path, one component at a time. A link puts the components of its target in front of those
that are left, and a rooted target starts over at the root. The first missing component ends the
inspection: what is left is appended as it stands.
- `stretch` goes on to the next link or the end, by recursion on the components left;
- `follow` crosses at most so many links, by recursion on that number.
-/

namespace LinkWatch.Resolution

/-- As many links as are followed at most. -/
def maxHops : Nat := 40

/-- A step of a walk: a component that is not a lone dot. -/
inductive Step where
  | root
  | up
  | name (n : FileName)
deriving DecidableEq, Inhabited

def Step.ofComponent? : Component → Option Step
  | .root => some .root
  | .here => none
  | .up => some .up
  | .name n => some (.name n)

/-- The steps that a path says. -/
def steps (p : Path) : List Step := p.components.filterMap Step.ofComponent?

/-- Where a walk stands. -/
structure Place where
  current : Path
  hops : List Hop
  /-- The first missing component. -/
  missing : Option Entry
deriving DecidableEq, Inhabited

/-- How a stretch of a walk ends. -/
inductive Stretch where
  /-- No step is left. -/
  | done (place : Place)
  /-- An entry cannot be inspected. -/
  | failed (path : Path) (e : IoError)
  /-- The entry `name` is a link, and these steps are left after it. -/
  | link (place : Place) (name : FileName) (left : List Step)

variable {σ : Type}

/-- Walks up to the next link. -/
def stretch (fs : Filesystem σ) : List Step → Place → σ → Stretch × σ
  | [], w, s => (.done w, s)
  | .root :: left, w, s => stretch fs left { w with current := w.current.join .root } s
  | .up :: left, w, s => stretch fs left { w with current := w.current.pop } s
  | .name n :: left, w, s =>
    let there := w.current.child n
    if w.missing.isSome then stretch fs left { w with current := there } s
    else
      match fs.entryKind there s with
      | (.ok .symlink, s) => (.link w n left, s)
      | (.ok _, s) => stretch fs left { w with current := there } s
      | (.error e, s) =>
        if e.isMissing then stretch fs left { w with current := there, missing := some ⟨w.current, n⟩ } s
        else (.failed there e, s)

/-- The place after the link `name` with this target. -/
def Place.cross (w : Place) (name : FileName) (target : Path) : Place where
  current := if target.isRooted then .empty else w.current
  hops := w.hops ++ [⟨w.current.child name, w.current, name, target⟩]
  missing := w.missing

/-- Walks to the end, crossing at most `more` links; `asked` is the path that errors name. -/
def follow (fs : Filesystem σ) (asked : Path) : (more : Nat) → List Step → Place → σ → Except WatchError Place × σ
  | more, left, w, s =>
    match stretch fs left w s with
    | (.done w, s) => (.ok w, s)
    | (.failed path e, s) => (.error (.resolution path e), s)
    | (.link w name left, s) =>
      match more with
      | 0 => (.error (.linkLoop asked), s)
      | more + 1 =>
        match fs.readLink (w.current.child name) s with
        | (.error e, s) => (.error (.resolution (w.current.child name) e), s)
        | (.ok target, s) => follow fs asked more (steps target ++ left) (w.cross name target) s

/-- The resolution of a walk that came to its end. A missing component counts only where it is not the
resolved file itself. -/
def Place.resolution (w : Place) : Resolution where
  resolved := w.current
  hops := w.hops
  pending := w.missing.filter fun e =>
    !(w.current.parent.any e.dir.same && w.current.fileName == some e.name)

end LinkWatch.Resolution

namespace LinkWatch

variable {σ : Type}

/-- A path made rooted and tidy. Steps upwards stay: what they mean depends on the links before them. -/
def absolutize (fs : Filesystem σ) (p : Path) (s : σ) : Except WatchError Path × σ :=
  if p.isRooted then (.ok p.tidy, s)
  else
    match fs.currentDir s with
    | (.ok dir, s) => (.ok (dir.join p).tidy, s)
    | (.error e, s) => (.error (.io e), s)

/-- Resolves a path. -/
def resolve (fs : Filesystem σ) (p : Path) (s : σ) : Except WatchError Resolution × σ :=
  match absolutize fs p s with
  | (.error e, s) => (.error e, s)
  | (.ok asked, s) =>
    let (found, s) := Resolution.follow fs asked Resolution.maxHops (Resolution.steps asked) ⟨.empty, [], none⟩ s
    (found.map Resolution.Place.resolution, s)

end LinkWatch
