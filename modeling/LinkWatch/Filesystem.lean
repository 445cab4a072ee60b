import LinkWatch.Error

/-!
What resolution may ask of a directory tree. The answers may differ from question to question and may
change a state, so that trees that change under a walk are covered; a `Snapshot` is a tree that
stays as it is.
-/

namespace LinkWatch

/-- What an entry is, without following it. -/
inductive EntryKind where
  | file
  | dir
  | symlink
deriving DecidableEq, Inhabited

/-- The questions of a walk, over a state that answering may change. -/
structure Filesystem (σ : Type) where
  /-- What the entry at a path is. -/
  entryKind : Path → σ → Except IoError EntryKind × σ
  /-- Where the link at a path points, as stored. -/
  readLink : Path → σ → Except IoError Path × σ
  /-- The directory that relative paths start from. -/
  currentDir : σ → Except IoError Path × σ

/-- A tree that stays as it is: one answer to each question. -/
structure Snapshot where
  entryKind : Path → Except IoError EntryKind
  readLink : Path → Except IoError Path
  currentDir : Except IoError Path

/-- A tree that stays as it is, asked in any state. -/
def Snapshot.filesystem {σ : Type} (f : Snapshot) : Filesystem σ where
  entryKind p s := (f.entryKind p, s)
  readLink p s := (f.readLink p, s)
  currentDir s := (f.currentDir, s)

end LinkWatch
