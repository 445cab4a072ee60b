import LinkWatch.Resolution.Basic

/-!
Events of a directory: an entry, and how it changed.
-/

namespace LinkWatch

inductive EventKind where
  | create
  | modify
  | remove
  | other
deriving DecidableEq, Inhabited

def EventKind.name : EventKind → String
  | .create => "Create"
  | .modify => "Modify"
  | .remove => "Remove"
  | .other => "Other"

/-- A change of a directory entry. The kind is reported, but nothing depends on it. -/
structure Event where
  entry : Entry
  kind : EventKind
deriving DecidableEq, Inhabited

/-- The event of the entry that a path names, if it ends with a name. -/
def Event.ofPath? (p : Path) (kind : EventKind) : Option Event := p.entry?.map (⟨·, kind⟩)

end LinkWatch
