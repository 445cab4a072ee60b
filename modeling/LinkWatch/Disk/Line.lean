import LinkWatch.Disk.Change
import LinkWatch.Text.Utf8

/-!
Changes of files as lines of text: the name of the change and what it is about, with a tab between each two.
-/

namespace LinkWatch.FileChange

/-- The change that a line says. -/
def ofLine? (line : String) : Option FileChange :=
  match line.splitOn "\t" with
  | ["write", p] => some (.write (.ofString p) [])
  | ["write", p, text] => some (.write (.ofString p) (Utf8.encode text))
  | ["append", p, text] => some (.append (.ofString p) (Utf8.encode text))
  | ["read", p] => some (.read (.ofString p))
  | ["mkdir", p] => some (.mkdir (.ofString p))
  | ["rmdir", p] => some (.rmdir (.ofString p))
  | ["remove", p] => some (.remove (.ofString p))
  | ["rename", p, q] => some (.rename (.ofString p) (.ofString q))
  | ["link", p, target] => some (.link (.ofString p) (.ofString target))
  | ["relink", p, target] => some (.relink (.ofString p) (.ofString target))
  | _ => none

end LinkWatch.FileChange
