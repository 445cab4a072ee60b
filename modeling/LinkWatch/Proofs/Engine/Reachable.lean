import LinkWatch.Loop.Batch
import LinkWatch.Proofs.Table.Exact

/-!
The states of an engine that work can lead to. An engine starts with an empty table; targets are registered,
removed and re-pointed, whatever the native watches answer, and anything else may happen to listeners, native
watches, the dispatcher and the world. The table is settled in all these states (`Reachable.settled`), so its
index is exact (`Reachable.index_exact`). What handling one event for one target keeps, handling a batch keeps
(`process_preserves`), so a batch is such work too (`Reachable.process`).
-/

namespace LinkWatch.Engine

open Table (Alike)

variable {σ : Type}

/-! ### What leaves the targets alone -/

lemma alike_watch (sys : NativeWatches σ) (dir : Path) (e : Engine σ) : Alike e.table (e.watch sys dir).table := by
  unfold watch
  rcases sys.watch dir e.world with ⟨answer, world⟩
  cases answer with
  | ok u => exact Table.alike_arm e.table dir
  | error err => exact Alike.refl e.table

lemma alike_unwatch (sys : NativeWatches σ) (dir : Path) (e : Engine σ) :
    Alike e.table (e.unwatch sys dir).table := by
  unfold unwatch
  rcases sys.unwatch dir e.world with ⟨answer, world⟩
  cases answer <;> exact Table.alike_disarm e.table dir

lemma alike_syncOne (sys : NativeWatches σ) (e : Engine σ) (dir : Path) : Alike e.table (e.syncOne sys dir).table := by
  unfold syncOne
  split
  · exact alike_watch sys dir e
  · exact alike_unwatch sys dir e
  · exact Alike.refl e.table

lemma alike_sync (sys : NativeWatches σ) (dirs : List Path) (e : Engine σ) : Alike e.table (e.sync sys dirs).table := by
  induction dirs generalizing e with
  | nil => exact Alike.refl _
  | cons dir dirs ih => exact (alike_syncOne sys e dir).trans (ih _)

@[simp] lemma table_say (r : Log.Record) (e : Engine σ) : (e.say r).table = e.table := rfl

@[simp] lemma table_submit (n : Notification) (e : Engine σ) : (e.submit n).table = e.table := by
  unfold submit
  dsimp only
  split <;> rfl

lemma table_submitAll (f : ListenerKey → Notification) (ks : List ListenerKey) (e : Engine σ) :
    (ks.foldl (fun e k => e.submit (f k)) e).table = e.table := by
  induction ks generalizing e with
  | nil => rfl
  | cons k ks ih => rw [List.foldl_cons, ih, table_submit]

lemma alike_live (scope : Table.Scope) (e : Engine σ) : Alike e.table (e.live scope).2.table :=
  Table.alike_setListeners ..

lemma alike_addListener (scope : Table.Scope) (hold : Hold) (k : ListenerKey) (e : Engine σ) :
    Alike e.table (e.addListener scope hold k).2.table := Table.alike_setListeners ..

lemma alike_notify (id : TargetId) (e : Engine σ) : Alike e.table (e.notify id).table := by
  unfold notify
  dsimp only
  rw [table_submitAll]
  refine Alike.trans ?_ (alike_live _ _)
  rw [table_submitAll]
  exact alike_live (.only id) (e.say _)

/-! ### Operations -/

lemma register_of_some (sys : NativeWatches σ) {p : Path} {id : TargetId} {e : Engine σ} (r : Resolution)
    (h : e.table.find? p = some id) : e.register sys p r = ((id, false), e) := by
  simp [register, enroll, Table.enter_of_some h]

lemma alike_register (sys : NativeWatches σ) (p : Path) (r : Resolution) (e : Engine σ) :
    Alike (let out := e.table.enter p r; if out.1.2 then (out.2.enlist out.1.1).2 else out.2)
      (e.register sys p r).2.table := by
  unfold register enroll
  rcases hout : e.table.enter p r with ⟨⟨id, new⟩, t⟩
  cases new with
  | false => simpa using Alike.refl t
  | true => simpa using alike_sync sys (t.enlist id).1 { e with table := (t.enlist id).2 }

lemma remove_of_none (sys : NativeWatches σ) {p : Path} {e : Engine σ} (h : e.table.find? p = none) :
    e.remove sys p = (none, e) := by
  simp [remove, Table.takeOut_of_none h]

lemma alike_remove (sys : NativeWatches σ) {p : Path} {id : TargetId} {e : Engine σ}
    (h : e.table.find? p = some id) :
    Alike ((e.table.takenOut p).retire id).2 (e.remove sys p).2.table := by
  unfold remove
  rw [Table.takeOut_of_some h]
  exact alike_sync sys _ { e with table := ((e.table.takenOut p).retire id).2 }

lemma alike_repoint (sys : NativeWatches σ) (id : TargetId) (r : Resolution) (e : Engine σ) :
    Alike (e.table.repoint id r).2 (e.repoint sys id r).2.table := by
  unfold repoint
  rcases hout : e.table.repoint id r with ⟨_ | ⟨previous, touched⟩, t⟩
  · -- a table that is not re-pointed is not changed
    rcases e.table.repoint_cases id r with heq | ⟨-, -, heq⟩ <;> rw [heq] at hout <;> cases hout
    exact Alike.refl _
  · exact alike_sync sys touched { e with table := t }

/-! ### Reachable engines -/

/-- The engines that work leads to. -/
inductive Reachable : Engine σ → Prop
  | start {e : Engine σ} : e.table = {} → Reachable e
  | register {e : Engine σ} (sys : NativeWatches σ) (p : Path) (r : Resolution) :
      Reachable e → Reachable (e.register sys p r).2
  | remove {e : Engine σ} (sys : NativeWatches σ) (p : Path) : Reachable e → Reachable (e.remove sys p).2
  /-- The target may have been removed. -/
  | repoint {e : Engine σ} (sys : NativeWatches σ) (id : TargetId) (r : Resolution) :
      id < e.table.created.length → Reachable e → Reachable (e.repoint sys id r).2
  /-- Whatever happens to listeners, native watches, the dispatcher and the world. -/
  | elsewhere {e e' : Engine σ} : Alike e.table e'.table → Reachable e → Reachable e'

theorem Reachable.settled {e : Engine σ} (h : Reachable e) : e.table.Settled := by
  induction h with
  | start h => exact h ▸ Table.indexed_empty
  | register sys p r _ ih => exact (ih.register p r).congr (alike_register sys p r _)
  | @remove e sys p _ ih =>
    cases hp : e.table.find? p with
    | none => exact (remove_of_none sys hp).symm ▸ ih
    | some id => exact (ih.remove hp).congr (alike_remove sys hp)
  | repoint sys id r hid _ ih => exact (ih.repoint hid r).congr (alike_repoint sys id r _)
  | elsewhere ha _ ih => exact ih.congr ha

/-! ### Exactness -/

lemma registered_remove (sys : NativeWatches σ) (p : Path) (e : Engine σ) :
    (e.remove sys p).2.table.registered = Sorted.erase p.components e.table.registered := by
  cases hp : e.table.find? p with
  | none =>
    have hnot : p.components ∉ Sorted.keys e.table.registered := Sorted.find?_eq_none.mp hp
    rw [remove_of_none sys hp, Sorted.erase_of_not_mem hnot]
  | some id => exact (alike_remove sys hp).registered

/-- The engine after targets have been removed one by one. -/
def removeAll (sys : NativeWatches σ) (ps : List Path) (e : Engine σ) : Engine σ :=
  ps.foldl (fun e p => (e.remove sys p).2) e

lemma Reachable.removeAll {e : Engine σ} (h : Reachable e) (sys : NativeWatches σ) (ps : List Path) :
    Reachable (e.removeAll sys ps) := by
  induction ps generalizing e with
  | nil => exact h
  | cons p ps ih => exact ih (h.remove sys p)

lemma registered_removeAll (sys : NativeWatches σ) {ps : List Path} {e : Engine σ}
    (h : ∀ k ∈ Sorted.keys e.table.registered, ∃ p ∈ ps, p.components = k) :
    (e.removeAll sys ps).table.registered = [] := by
  induction ps generalizing e with
  | nil =>
    rw [← List.map_eq_nil_iff (f := Keyed.key), List.eq_nil_iff_forall_not_mem]
    intro k hk
    obtain ⟨p, hp, -⟩ := h k hk
    cases hp
  | cons p ps ih =>
    refine ih fun k hk => ?_
    rw [registered_remove, Sorted.mem_keys_erase] at hk
    obtain ⟨q, hq, rfl⟩ := h k hk.2
    rcases List.mem_cons.mp hq with rfl | hq
    · exact absurd rfl hk.1
    · exact ⟨q, hq, rfl⟩

/-- **The index is exact.** In every reachable state a look-up finds, in order and once each, the targets that a
scan finds by classification, and a directory is in use exactly as long as targets have an interest in it. The
index depends on the registered targets and where they lead alone, and is empty once all are removed. -/
theorem Reachable.index_exact {e : Engine σ} (h : Reachable e) :
    e.table.Exact ∧
    (∀ e' : Engine σ, Reachable e' → e.table.scan = e'.table.scan → e.table.index.view = e'.table.index.view) ∧
    ∀ (sys : NativeWatches σ) (ps : List Path),
      (∀ id ∈ e.table.targets, ∃ p ∈ ps, p.same (e.table.target id).requested = true) →
        (e.removeAll sys ps).table.index = {} := by
  refine ⟨h.settled.exact, fun e' h' hscan => h.settled.view_eq h'.settled hscan, fun sys ps hps => ?_⟩
  refine (h.removeAll sys ps).settled.index_eq_empty (registered_removeAll sys fun k hk => ?_)
  obtain ⟨id, hid⟩ := Option.isSome_iff_exists.mp (Sorted.isSome_find?.mpr hk)
  obtain ⟨p, hp, hsame⟩ := hps id ((Table.mem_targets h.settled.ordered).mpr ⟨k, hid⟩)
  exact ⟨p, hp, (Path.same_iff.mp hsame).trans (h.settled.known hid).2.1⟩

/-- Two targets that share the directory of a link; the first leads through it twice and misses a component, the
second is re-pointed there. -/
def sharedLink : Engine Unit :=
  let sys : NativeWatches Unit := ⟨fun _ _ => (.ok (), ()), fun _ _ => (.ok (), ())⟩
  let dir : Path := ⟨[0x2f, 0x64]⟩
  let link : Hop := ⟨⟨[0x2f, 0x64, 0x2f, 0x6c]⟩, dir, [0x6c], ⟨[0x65]⟩⟩
  let first : Resolution := ⟨⟨[0x2f, 0x64, 0x2f, 0x65, 0x2f, 0x61]⟩, [link, link], some ⟨dir, [0x65]⟩⟩
  let second : Resolution := ⟨⟨[0x2f, 0x64, 0x2f, 0x62]⟩, [link], none⟩
  let e : Engine Unit := { dispatcher := { workers := [{}] }, world := () }
  let e := (e.register sys ⟨[0x2f, 0x62]⟩ (.plain ⟨[0x2f, 0x62]⟩)).2
  let e := (e.register sys ⟨[0x2f, 0x61]⟩ first).2
  (e.repoint sys 0 second).2

theorem index_exact_sharedLink :
    sharedLink.table.targetsFor ⟨⟨[0x2f, 0x64]⟩, [0x6c]⟩ = [1, 0] ∧
      sharedLink.table.index.refcount ⟨[0x2f, 0x64]⟩ = 2 ∧ sharedLink.table.Exact :=
  ⟨by decide +kernel, by decide +kernel, (Reachable.index_exact (e := sharedLink)
    (.repoint _ _ _ (by decide +kernel) (.register _ _ _ (.register _ _ _ (.start rfl))))).1⟩

/-! ### Batches -/

variable {e : Engine σ}

lemma Reachable.of_table_eq {e' : Engine σ} (h : Reachable e) (ht : e'.table = e.table) : Reachable e' :=
  h.elsewhere (ht ▸ Alike.refl e.table)

/-- Resolving a target anew re-points it or leaves the targets alone. -/
lemma alike_refresh (sys : System σ) (id : TargetId) (e : Engine σ) :
    Alike e.table (e.refresh sys id).2.table ∨ ∃ r, Alike (e.table.repoint id r).2 (e.refresh sys id).2.table := by
  unfold refresh
  dsimp only
  generalize resolve sys.toFilesystem (e.table.target id).requested e.world = out
  obtain ⟨answer, world⟩ := out
  by_cases hhalted : sys.halted world = true
  · exact Or.inl (by simpa [hhalted] using Alike.refl e.table)
  · cases answer with
    | error err => exact Or.inl (by simpa [hhalted] using Alike.refl e.table)
    | ok r =>
      refine Or.inr ⟨r, ?_⟩
      have hrep := alike_repoint sys.toNativeWatches id r { e with world }
      rcases hout : repoint sys.toNativeWatches id r { e with world } with ⟨_ | previous, e'⟩ <;>
        simpa [hhalted, hout] using hrep

lemma Reachable.refresh (h : Reachable e) (sys : System σ) {id : TargetId} (hid : id < e.table.created.length) :
    Reachable (e.refresh sys id).2 := by
  rcases alike_refresh sys id e with ha | ⟨r, ha⟩
  · exact h.elsewhere ha
  · have hrep := alike_repoint sys.toNativeWatches id r e
    exact (h.repoint sys.toNativeWatches id r hid).elsewhere (hrep.symm.trans ha)

lemma length_repoint (t : Table) (id : TargetId) (r : Resolution) :
    (t.repoint id r).2.created.length = t.created.length := by
  rcases t.repoint_cases id r with heq | ⟨-, -, heq⟩ <;> rw [heq]
  exact Table.length_modify ..

lemma length_refresh (sys : System σ) (id : TargetId) (e : Engine σ) :
    (e.refresh sys id).2.table.created.length = e.table.created.length := by
  rcases alike_refresh sys id e with ha | ⟨r, ha⟩
  · exact ha.length
  · rw [ha.length, length_repoint]

/-- Handling an event for a target keeps an engine reachable, and creates no target. -/
lemma Reachable.handle (h : Reachable e) (sys : System σ) (event : Event) (notified : List Path) {id : TargetId}
    (hid : id < e.table.created.length) :
    Reachable (Engine.handle sys event (notified, e) id).2 ∧
      (Engine.handle sys event (notified, e) id).2.table.created.length = e.table.created.length := by
  unfold Engine.handle
  have hrefresh := h.refresh sys hid
  have hlen := length_refresh sys id e
  dsimp only
  split
  · exact ⟨h, rfl⟩
  · split
    · exact ⟨h, rfl⟩
    · split
      · exact ⟨hrefresh, hlen⟩
      · have hnotify := alike_notify id (e.refresh sys id).2
        exact ⟨hrefresh.elsewhere hnotify, hnotify.length.trans hlen⟩

/-! ### What a batch keeps -/

section Preserved

variable {P : Engine σ → Prop} {sys : System σ} (hsay : ∀ r e, P e → P (e.say r))
  (hhandle : ∀ event notified id e₁ e, P e₁ → id ∈ e₁.table.targetsFor event.entry → P e →
    P (Engine.handle sys event (notified, e) id).2)

include hsay hhandle

/-- What handling an event for a target it concerns keeps, handling the event keeps. -/
lemma handleEvent_preserves (event : Event) (notified : List Path) (h : P e) :
    P (handleEvent sys event notified e).2 := by
  have hstart : P (e.say (eventRecord event)) := hsay _ e h
  have hall : ∀ (ids : List TargetId) (s : List Path × Engine σ),
      (∀ id ∈ ids, id ∈ (e.say (eventRecord event)).table.targetsFor event.entry) → P s.2 →
      P (ids.foldl (Engine.handle sys event) s).2 := by
    intro ids
    induction ids with
    | nil => exact fun _ _ hs => hs
    | cons id ids ih =>
      intro s hids hs
      have hstep := hhandle event s.1 id _ s.2 hstart (hids id (by simp)) hs
      exact ih _ (fun i hi => hids i (by simp [hi])) hstep
  exact hall _ (notified, _) (fun _ hid => hid) hstart

/-- What besides the passing of time keeps, handling a batch keeps. -/
theorem process_preserves (hworld : ∀ e, P e → P { e with world := (sys.overdue e.world).2 }) (batch : List Event)
    (h : P e) : P (process sys batch e) := by
  have hevents : ∀ (batch : List Event) (notified : List Path) (e : Engine σ), P e →
      P (handleEvents sys batch notified e) := by
    intro batch
    induction batch with
    | nil => exact fun _ _ h => h
    | cons event rest ih =>
      intro notified e h
      rw [handleEvents]
      dsimp only
      split
      · exact hsay _ _ (hworld e h)
      · have hevent := handleEvent_preserves hsay hhandle event notified (hworld e h)
        split
        · exact hevent
        · exact ih _ _ hevent
  exact hevents batch [] e h

end Preserved

/-- A reachable engine with so many targets stays one. -/
lemma Reachable.handle_targetsFor (n : Nat) (sys : System σ) (event : Event) (notified : List Path) (id : TargetId)
    (e₁ e : Engine σ) (h₁ : Reachable e₁ ∧ e₁.table.created.length = n) (hid : id ∈ e₁.table.targetsFor event.entry)
    (h : Reachable e ∧ e.table.created.length = n) :
    Reachable (Engine.handle sys event (notified, e) id).2 ∧
      (Engine.handle sys event (notified, e) id).2.table.created.length = n := by
  have hset := h₁.1.settled
  rw [hset.targetsFor_eq] at hid
  have hlt : id < e.table.created.length := by
    rw [h.2, ← h₁.2]
    exact (hset.active (List.mem_filter.mp hid).1).1
  obtain ⟨hstep, hlen⟩ := h.1.handle sys event notified hlt
  exact ⟨hstep, hlen.trans h.2⟩

lemma Reachable.handleEvent (h : Reachable e) (sys : System σ) (event : Event) (notified : List Path) :
    Reachable (Engine.handleEvent sys event notified e).2 :=
  (handleEvent_preserves (P := fun x => Reachable x ∧ x.table.created.length = e.table.created.length)
    (fun _ _ hx => ⟨hx.1.of_table_eq rfl, hx.2⟩) (handle_targetsFor _ sys) event notified ⟨h, rfl⟩).1

/-- Handling a batch leads to a reachable engine. -/
theorem Reachable.process (h : Reachable e) (sys : System σ) (batch : List Event) :
    Reachable (Engine.process sys batch e) :=
  (process_preserves (P := fun x => Reachable x ∧ x.table.created.length = e.table.created.length)
    (fun _ _ hx => ⟨hx.1.of_table_eq rfl, hx.2⟩) (handle_targetsFor _ sys) (fun _ hx => ⟨hx.1.of_table_eq rfl, hx.2⟩)
    batch ⟨h, rfl⟩).1

end LinkWatch.Engine
