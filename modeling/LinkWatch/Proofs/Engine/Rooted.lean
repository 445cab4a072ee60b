import LinkWatch.Proofs.Engine.Convergence
import LinkWatch.Proofs.Engine.Submitted
import LinkWatch.Proofs.Engine.Undoing
import LinkWatch.Proofs.Walk.Spelling

/-!
Targets of rooted paths. The event loop resolves the paths of registered targets and nothing else, so where all of
these are rooted the current directory never matters to it (`process_currentDir`).
-/

namespace LinkWatch.Engine

variable {σ : Type} {sys : System σ} {e : Engine σ} {id : TargetId}

lemma Rooted.kin {t t' : Table} (h : Rooted t) (hk : Kin t t') : Rooted t' := fun id hid => by
  rw [hk.requested]
  exact h id (hk.targets ▸ hid)

/-- Whoever the event concerned to begin with, handling it for one more target leaves the table kin to what it was. -/
lemma kin_handled (sys : System σ) (t : Table) (event : Event) (notified : List Path) (id : TargetId)
    (e₁ e : Engine σ) (_ : Kin t e₁.table) (_ : id ∈ e₁.table.targetsFor event.entry) (hk : Kin t e.table) :
    Kin t (handle sys event (notified, e) id).2.table :=
  hk.trans (kin_handle sys event notified id e)

lemma kin_handleEvent (sys : System σ) (event : Event) (notified : List Path) (e : Engine σ) :
    Kin e.table (handleEvent sys event notified e).2.table :=
  handleEvent_preserves (P := fun e' => Kin e.table e'.table) (fun _ _ hk => hk) (kin_handled sys e.table) event
    notified (.refl _)

lemma kin_process (sys : System σ) (batch : List Event) (e : Engine σ) : Kin e.table (process sys batch e).table :=
  process_preserves (P := fun e' => Kin e.table e'.table) (fun _ _ hk => hk) (kin_handled sys e.table)
    (fun _ hk => hk) batch (.refl _)

lemma Rooted.register (h : Rooted e.table) (hset : e.table.Settled) (native : NativeWatches σ) {p : Path}
    (hp : p.isRooted = true) (r : Resolution) : Rooted (e.register native p r).2.table := by
  cases hfind : e.table.find? p with
  | some id =>
    rw [register_of_some native r hfind]
    exact h
  | none =>
    obtain ⟨armed, htable⟩ := table_register native r hfind
    have hentered : Rooted (e.table.entered p r) := by
      intro id hid
      have hordered : Sorted.Ordered (e.table.entered p r).registered := hset.ordered.alter
      obtain ⟨k, hk⟩ := (Table.mem_targets hordered).mp hid
      rw [Table.target_entered]
      split
      · exact hp
      · rename_i hne
        have hold := ((Table.at_entered hset.ordered hfind r).mp hk).resolve_left fun hnew => hne hnew.2
        exact h id ((Table.mem_targets hset.ordered).mpr ⟨k, hold⟩)
    rw [htable]
    exact hentered

lemma Rooted.remove (h : Rooted e.table) (native : NativeWatches σ) (p : Path) :
    Rooted (e.remove native p).2.table := by
  cases hfind : e.table.find? p with
  | none =>
    rw [remove_of_none native hfind]
    exact h
  | some id =>
    obtain ⟨armed, htable⟩ := table_remove native hfind
    rw [htable]
    intro j hj
    have hold : j ∈ e.table.targets := (List.filter_sublist.map Prod.snd).subset hj
    have hrequested := (Table.target_retire (e.table.takenOut p) id j).1
    exact hrequested ▸ h j hold

/-! ### The current directory -/

variable (currentDir : σ → Except IoError Path × σ)

lemma refresh_currentDir (h : (e.table.target id).requested.isRooted = true) :
    e.refresh { sys with currentDir } id = e.refresh sys id := by
  have hresolve := resolve_currentDir sys.toFilesystem currentDir h e.world
  unfold refresh
  simp only [hresolve]

lemma handle_currentDir (h : (e.table.target id).requested.isRooted = true) (event : Event) (notified : List Path) :
    handle { sys with currentDir } event (notified, e) id = handle sys event (notified, e) id := by
  unfold handle
  simp only [refresh_currentDir currentDir h]

lemma handleEvent_currentDir (hr : Reachable e) (h : Rooted e.table) (event : Event) (notified : List Path) :
    handleEvent { sys with currentDir } event notified e = handleEvent sys event notified e := by
  have hall : ∀ (ids : List TargetId) (s : List Path × Engine σ),
      (∀ id ∈ ids, (s.2.table.target id).requested.isRooted = true) →
      ids.foldl (handle { sys with currentDir } event) s = ids.foldl (handle sys event) s := by
    intro ids
    induction ids with
    | nil => exact fun _ _ => rfl
    | cons id ids ih =>
      intro s hs
      rw [List.foldl_cons, List.foldl_cons, handle_currentDir currentDir (hs id (by simp))]
      refine ih _ fun j hj => ?_
      rw [(kin_handle sys event s.1 id s.2).requested]
      exact hs j (by simp [hj])
  refine hall _ _ fun id hid => h id ?_
  rw [table_say, hr.settled.targetsFor_eq] at hid
  exact (List.mem_filter.mp hid).1

/-- Where the paths of all targets are rooted, the current directory does not matter to a batch. -/
theorem process_currentDir (hr : Reachable e) (h : Rooted e.table) (batch : List Event) :
    process { sys with currentDir } batch e = process sys batch e := by
  have hevents : ∀ (batch : List Event) (notified : List Path) (e : Engine σ), Reachable e → Rooted e.table →
      handleEvents { sys with currentDir } batch notified e = handleEvents sys batch notified e := by
    intro batch
    induction batch with
    | nil => exact fun _ _ _ _ => rfl
    | cons event rest ih =>
      intro notified e hr h
      let read : Engine σ := { e with world := (sys.overdue e.world).2 }
      have hread : Reachable read := hr.of_table_eq rfl
      have hevent : handleEvent { sys with currentDir } event notified read = handleEvent sys event notified read :=
        handleEvent_currentDir currentDir hread h event notified
      have hrest := ih (handleEvent sys event notified read).1 _ (hread.handleEvent sys event notified)
        (Rooted.kin h (kin_handleEvent sys event notified read))
      rw [handleEvents, handleEvents]
      simp only [read] at hevent hrest
      simp only [hevent, hrest]
  exact hevents batch [] e hr h

end LinkWatch.Engine
