import LinkWatch.Proofs.Table.Indexed

/-!
The index work of a call, one interest at a time. `enlist`, `retire` and `repoint` change the index by a list of
updates and say which directories these touched. An update of an interest brings its own directory into use or out
of it and leaves the others as they are (`Update.contains_apply`), so every directory that a call can bring into use
or out of it is among those that it touched (`contains_of_covered`).
-/

namespace LinkWatch

open Sorted (keys)

/-! ### Updates -/

namespace Index

/-- A change of one interest of a requested path. -/
inductive Update where
  | add (requested : Path) (e : Entry)
  | remove (requested : Path) (e : Entry)
deriving DecidableEq

/-- The directory whose books are changed. -/
def Update.dir : Update → Path
  | .add _ e => e.dir
  | .remove _ e => e.dir

def Update.apply (x : Index) : Update → Index
  | .add p e => x.add p e
  | .remove p e => x.remove p e

lemma Update.contains_apply (x : Index) {u : Update} {d : Path} (hd : d.components ≠ u.dir.components) :
    (Update.apply x u).contains d = x.contains d := by
  cases u with
  | add p e =>
    have hne : Keyed.key e.dir ≠ d.components := Ne.symm hd
    rw [Update.apply, contains, find?, Index.add, Sorted.find?_alter_ne hne]
    rfl
  | remove p e =>
    have hne : d.components ≠ e.dir.components := hd
    rw [Update.apply, remove_eq, contains, find?, Sorted.find?_revise_ne hne]
    rfl

end Index

/-- What a call does to the index: its updates, and the directories to bring in line afterwards. -/
structure Job where
  updates : List Index.Update
  touched : List Path
deriving DecidableEq

/-- Every update concerns a directory that is brought in line afterwards. -/
def Job.Covered (j : Job) : Prop := ∀ u ∈ j.updates, u.dir.components ∈ keys j.touched

namespace Table

variable {t : Table} {id : TargetId} {r : Resolution}

/-- The table after updates of its index. -/
def applied (us : List Index.Update) (t : Table) : Table := { t with index := us.foldl Index.Update.apply t.index }

/-- A directory that was not touched is in use as before. -/
theorem contains_applied {us : List Index.Update} {d : Path} (hd : ∀ u ∈ us, d.components ≠ u.dir.components) :
    (t.applied us).index.contains d = t.index.contains d := by
  unfold applied
  dsimp only
  generalize t.index = x
  induction us generalizing x with
  | nil => rfl
  | cons u us ih =>
    have hu : (Index.Update.apply x u).contains d = x.contains d := Index.Update.contains_apply x (hd u (by simp))
    rw [List.foldl_cons, ih (fun v hv => hd v (by simp [hv])), hu]

lemma contains_of_covered {j : Job} (hj : j.Covered) {d : Path} (hd : d.components ∉ keys j.touched) :
    (t.applied j.updates).index.contains d = t.index.contains d := by
  refine contains_applied fun u hu he => hd ?_
  rw [he]
  exact hj u hu

/-! ### The index work of each call -/

/-- The index work of a registration. -/
def enlisting (id : TargetId) (t : Table) : Job :=
  if (t.target id).retired then ⟨[], []⟩
  else ⟨(t.target id).resolution.interests.map (.add (t.target id).requested), (t.target id).resolution.directories⟩

/-- The table with a target retired, before its interests are forgotten. -/
def marked (id : TargetId) (t : Table) : Table := t.modify id fun target => { target with retired := true }

/-- The index work of a removal. -/
def retiring (id : TargetId) (t : Table) : Job :=
  ⟨(t.target id).resolution.interests.map (.remove (t.target id).requested), (t.target id).resolution.directories⟩

/-- The table with a new resolution of a target, before its interests are moved. -/
def turned (id : TargetId) (r : Resolution) (t : Table) : Table :=
  t.modify id fun target => { target with resolution := r }

/-- The index work of a change of where a target leads. -/
def repointing (id : TargetId) (r : Resolution) (t : Table) : Job :=
  let before := (t.target id).resolution.interests
  let after := r.interests
  ⟨(Sorted.diff after before).map (.add (t.target id).requested) ++
      (Sorted.diff before after).map (.remove (t.target id).requested),
    Sorted.ofList ((before ++ after).map Entry.dir)⟩

lemma enlist_eq (t : Table) (id : TargetId) :
    t.enlist id = ((t.enlisting id).touched, t.applied (t.enlisting id).updates) := by
  cases hact : (t.target id).retired with
  | true => simp [enlist_of_retired hact, enlisting, hact, applied]
  | false =>
    rw [enlist_of_active hact, enlisting, if_neg (by simp [hact]), applied, List.foldl_map]
    rfl

lemma retire_eq (t : Table) (id : TargetId) :
    t.retire id = ((t.retiring id).touched, (t.marked id).applied (t.retiring id).updates) := by
  unfold retire retiring applied
  rw [List.foldl_map]
  rfl

lemma repointed_eq (t : Table) (id : TargetId) (r : Resolution) :
    t.repointed id r = (t.turned id r).applied (t.repointing id r).updates := by
  unfold repointed repointing applied moved
  rw [List.foldl_append, List.foldl_map, List.foldl_map]
  rfl

/-! ### Touched directories -/

lemma mem_keys_directories {r : Resolution} {k : List Component} :
    k ∈ keys r.directories ↔ k ∈ keys (r.interests.map Entry.dir) := Sorted.mem_keys_ofList

lemma dir_mem_directories {r : Resolution} {e : Entry} (he : e ∈ r.interests) :
    e.dir.components ∈ keys r.directories :=
  mem_keys_directories.mpr (Sorted.key_mem_keys (List.mem_map_of_mem he))

lemma covered_enlisting (t : Table) (id : TargetId) : (t.enlisting id).Covered := by
  intro u hu
  unfold enlisting at hu ⊢
  split at hu
  · cases hu
  · rename_i hact
    obtain ⟨e, he, rfl⟩ := List.mem_map.mp hu
    rw [if_neg hact]
    exact dir_mem_directories he

lemma covered_retiring (t : Table) (id : TargetId) : (t.retiring id).Covered := by
  intro u hu
  obtain ⟨e, he, rfl⟩ := List.mem_map.mp hu
  exact dir_mem_directories he

lemma keys_touched_repointing {k : List Component} : k ∈ keys (t.repointing id r).touched ↔
    k ∈ keys (t.target id).resolution.directories ∨ k ∈ keys r.directories := by
  rw [mem_keys_directories, mem_keys_directories, repointing, Sorted.mem_keys_ofList, List.map_append, keys,
    List.map_append, List.mem_append]
  rfl

lemma covered_repointing (t : Table) (id : TargetId) (r : Resolution) : (t.repointing id r).Covered := by
  intro u hu
  rw [keys_touched_repointing]
  rcases List.mem_append.mp hu with hu | hu
  · obtain ⟨e, he, rfl⟩ := List.mem_map.mp hu
    exact Or.inr (dir_mem_directories (List.mem_filter.mp he).1)
  · obtain ⟨e, he, rfl⟩ := List.mem_map.mp hu
    exact Or.inl (dir_mem_directories (List.mem_filter.mp he).1)

end Table

end LinkWatch
