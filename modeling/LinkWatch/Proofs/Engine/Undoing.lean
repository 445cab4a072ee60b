import LinkWatch.Proofs.Engine.Reachable

/-!
A registration undone. Registering a path that is not watched and removing it again, under any spelling, leaves the
targets as they were and an index that says the same. Only the identity of the target that came and went stays taken
(`restored_remove_register`).
-/

namespace LinkWatch

/-- The targets are the same, and the index says the same of them. -/
structure Table.Restored (t t' : Table) : Prop where
  registered : t'.registered = t.registered
  target : ∀ id < t.created.length, t'.target id = t.target id
  index : t'.index.view = t.index.view

lemma Table.Restored.refl (t : Table) : t.Restored t := ⟨rfl, fun _ _ => rfl, rfl⟩

namespace Engine

variable {σ : Type} {e : Engine σ} {p q : Path}

/-! ### Tables, native watches aside -/

/-- Bringing native watches in line changes nothing of a table but which directories are watched. -/
lemma table_sync (native : NativeWatches σ) (dirs : List Path) (e : Engine σ) :
    ∃ armed, (e.sync native dirs).table = { e.table with armed } := by
  induction dirs generalizing e with
  | nil => exact ⟨_, rfl⟩
  | cons dir dirs ih =>
    have hone : ∃ armed, (e.syncOne native dir).table = { e.table with armed } := by
      unfold syncOne
      split
      · unfold watch
        rcases native.watch dir e.world with ⟨_ | _, _⟩ <;> exact ⟨_, rfl⟩
      · unfold unwatch
        rcases native.unwatch dir e.world with ⟨_ | _, _⟩ <;> exact ⟨_, rfl⟩
      · exact ⟨_, rfl⟩
    obtain ⟨armed, hone⟩ := hone
    obtain ⟨armed', hrest⟩ := ih (e.syncOne native dir)
    refine ⟨armed', ?_⟩
    rw [hone] at hrest
    exact hrest

lemma table_register (native : NativeWatches σ) (r : Resolution) (h : e.table.find? p = none) :
    ∃ armed, (e.register native p r).2.table =
      { (e.table.entered p r).enlisted e.table.created.length with armed } := by
  have hact : ((e.table.entered p r).target e.table.created.length).retired = false := by
    rw [Table.target_entered_new]
  rw [register, enroll, Table.enter_of_none h]
  dsimp only
  rw [if_pos rfl, Table.enlist_of_active hact]
  exact table_sync native _ { e with table := (e.table.entered p r).enlisted e.table.created.length }

lemma table_remove (native : NativeWatches σ) {id : TargetId} (h : e.table.find? p = some id) :
    ∃ armed, (e.remove native p).2.table = { ((e.table.takenOut p).retire id).2 with armed } := by
  rw [remove, Table.takeOut_of_some h]
  exact table_sync native _ { e with table := ((e.table.takenOut p).retire id).2 }

/-! ### There and back -/

lemma find?_register (hr : Reachable e) (native : NativeWatches σ) (r : Resolution) (h : e.table.find? p = none)
    (hq : q.components = p.components) :
    (e.register native p r).2.table.find? q = some e.table.created.length := by
  obtain ⟨armed, htable⟩ := table_register native r h
  rw [Table.find?_eq_some, htable]
  exact (Table.at_entered hr.settled.ordered h r).mpr (Or.inl ⟨hq, rfl⟩)

/-- **A registration undone.** Registered and removed again, a path that was not watched leaves the targets as they
were. In between nothing has happened to the table. -/
theorem restored_remove_register (hr : Reachable e) (native native' : NativeWatches σ) (r : Resolution)
    (h : e.table.find? p = none) (hq : q.components = p.components) {e' : Engine σ}
    (he' : e'.table = (e.register native p r).2.table) : e.table.Restored (e'.remove native' q).2.table := by
  have hr' : Reachable e' := (hr.register native p r).of_table_eq he'
  have hfound : e'.table.find? q = some e.table.created.length := he' ▸ find?_register hr native r h hq
  obtain ⟨armed, hthere⟩ := table_register native r h
  obtain ⟨armed', hback⟩ := table_remove native' hfound
  have hregistered : (e'.remove native' q).2.table.registered = e.table.registered := by
    rw [registered_remove, he', hthere, hq]
    exact Sorted.erase_alter (Sorted.find?_eq_none.mp h)
  have htarget : ∀ id < e.table.created.length, (e'.remove native' q).2.table.target id = e.table.target id := by
    intro id hid
    have hold : (e'.remove native' q).2.table.target id =
        (e'.table.modify e.table.created.length fun t => { t with retired := true }).target id := by
      rw [hback]
      rfl
    rw [hold, Table.target_modify, if_neg fun hnew => Nat.ne_of_lt hid hnew.1, he', hthere]
    exact Table.target_entered_old p r hid
  refine ⟨hregistered, htarget, (hr'.remove native' q).settled.view_eq hr.settled ?_⟩
  rw [Table.scan, Table.scan, Table.targets, hregistered]
  refine List.map_congr_left fun id hid => ?_
  have hid' := (hr.settled.active hid).1
  rw [Table.pathOf, Table.pathOf, htarget id hid']

end Engine

end LinkWatch
