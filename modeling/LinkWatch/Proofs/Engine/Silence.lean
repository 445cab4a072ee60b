import LinkWatch.Proofs.Engine.Withdrawal

/-!
A listener that is in no scope in use stays in none until it is registered again (`Free`, `Later`), whatever else
happens to the table, and no batch calls it. Taking it out everywhere leads there, says whether it was in the audience
of any scope, and leaves everybody else where they were (`removeListener_complete`).
-/

namespace LinkWatch.Engine

open Table (Thinned)

variable {σ : Type} {e e' e'' : Engine σ} {t t' : Table} {k : ListenerKey} {id : TargetId} {sys : System σ}

/-! ### In no scope in use -/

/-- The listener has no entry in any scope in use. -/
def Free (k : ListenerKey) (t : Table) : Prop := ∀ scope, InUse t scope → k ∉ (t.listeners scope).keys

/-- A scope that comes into use has no listeners yet. -/
lemma Free.thinned (h : Free k t) (ht : Thinned t t')
    (huse : ∀ scope, InUse t' scope → InUse t scope ∨ (t.listeners scope).entries = []) : Free k t' := by
  intro scope hscope hk
  have hbefore : k ∈ (t.listeners scope).keys := ((ht scope).map Prod.fst).subset hk
  rcases huse scope hscope with hin | hempty
  · exact h scope hin hbefore
  · simp [ListenerSet.keys, hempty] at hbefore

lemma Free.of_targets (h : Free k t) (ht : Thinned t t') (htargets : t'.targets = t.targets) : Free k t' :=
  h.thinned ht fun _ hscope => .inl ((inUse_congr htargets).mp hscope)

lemma Free.not_mem_audience (h : Free k e.table) {scope : Table.Scope} (hscope : InUse e.table scope) :
    k ∉ e.audience scope := fun hk => h scope hscope (((List.filter_sublist ..).map Prod.fst).subset hk)

lemma free_removeListener (a : ListenerKey → Bool) (k : ListenerKey) (t : Table) :
    Free k (t.removeListener a k).2 := by
  have hout := Table.withdrawn_removeListener (a := a) k t
  intro scope hscope
  exact hout.not_mem_keys (Table.inUse_iff_mem.mp ((inUse_congr hout.alike.targets).mp hscope))

lemma Free.removeListener_fst (h : Free k t) (a : ListenerKey → Bool) : (t.removeListener a k).1 = false := by
  rw [← Bool.not_eq_true, (Table.withdrawn_removeListener k t).found]
  rintro ⟨-, scope, hmem, hk⟩
  exact h scope (Table.inUse_iff_mem.mpr hmem) hk

lemma Free.addListener (h : Free k t) {a : ListenerKey → Bool} {k' : ListenerKey} (hne : k' ≠ k) (scope : Table.Scope)
    (hold : Hold) : Free k (t.addListener a scope hold k').2 := by
  have htargets : (t.addListener a scope hold k').2.targets = t.targets :=
    Table.Alike.targets (Table.alike_setListeners ..)
  intro scope' hscope hk
  have hbefore : k ∉ (t.listeners scope').keys := h scope' ((inUse_congr htargets).mp hscope)
  rcases Table.listeners_setListeners (t := t) scope scope' ((t.listeners scope).add (t.alive a) hold k').2 with
    ⟨hs, rfl⟩ | hs
  · rw [Table.addListener] at hk
    dsimp only at hk
    rw [hs] at hk
    have hprune : k ∉ ((t.listeners scope').prune (t.alive a)).keys := fun hmem =>
      hbefore (((ListenerSet.sublist_prune ..).map Prod.fst).subset hmem)
    cases hc : ((t.listeners scope').prune (t.alive a)).contains k' with
    | true =>
      rw [ListenerSet.add_of_contains hc] at hk
      exact hprune hk
    | false =>
      rw [ListenerSet.add_of_not_contains hc, ListenerSet.keys, List.map_append, List.mem_append] at hk
      rcases hk with hk | hk
      · exact hprune hk
      · have hsame : k = k' := by simpa using hk
        exact hne hsame.symm
  · rw [Table.addListener] at hk
    dsimp only at hk
    rw [hs] at hk
    exact hbefore hk

/-! ### Targets come and go -/

lemma Free.register (h : Free k e.table) (hset : e.table.Settled) (native : NativeWatches σ) (p : Path)
    (r : Resolution) : Free k (e.register native p r).2.table := by
  cases hp : e.table.find? p with
  | some id =>
    rw [register_of_some native r hp]
    exact h
  | none =>
    refine h.thinned (thinned_register native p r e) fun scope hscope => ?_
    cases scope with
    | all => exact .inl trivial
    | only id =>
      have halike := alike_register native p r e
      rw [Table.enter_of_none hp] at halike
      dsimp only at halike
      rw [if_pos rfl] at halike
      have hregistered : (e.register native p r).2.table.targets = (e.table.entered p r).targets := by
        rw [halike.targets]
        unfold Table.enlist
        dsimp only
        split <;> rfl
      have hordered : Sorted.Ordered (e.table.entered p r).registered := hset.ordered.alter
      rw [InUse, hregistered, Table.mem_targets hordered] at hscope
      obtain ⟨q, hq⟩ := hscope
      rcases (Table.at_entered hset.ordered hp r).mp hq with ⟨-, rfl⟩ | hq
      · right
        rw [Table.listeners, Table.target, List.getElem?_eq_none (Nat.le_refl _)]
        rfl
      · exact .inl ((Table.mem_targets hset.ordered).mpr ⟨q, hq⟩)

lemma Free.remove (h : Free k e.table) (native : NativeWatches σ) (p : Path) : Free k (e.remove native p).2.table := by
  refine h.thinned (thinned_remove native p e) fun scope hscope => .inl ?_
  cases scope with
  | all => trivial
  | only id =>
    rw [InUse, Table.targets, registered_remove, Sorted.erase] at hscope
    exact (List.filter_sublist.map Prod.snd).subset hscope

lemma targets_repoint (native : NativeWatches σ) (id : TargetId) (r : Resolution) (e : Engine σ) :
    (e.repoint native id r).2.table.targets = e.table.targets := by
  rw [(alike_repoint native id r e).targets, (kin_repoint e.table id r).targets]

/-! ### A batch -/

/-- The listener is in no scope in use, the targets are the same, and whoever was called since is another listener. -/
structure Spared (k : ListenerKey) (e e' : Engine σ) : Prop where
  free : Free k e'.table
  targets : e'.table.targets = e.table.targets
  calls : ∃ new, submitted e' = submitted e ++ new ∧ ∀ n ∈ new, n.key ≠ k

lemma Spared.refl (h : Free k e.table) : Spared k e e := ⟨h, rfl, [], by simp⟩

lemma Spared.trans (h : Spared k e e') (h' : Spared k e' e'') : Spared k e e'' := by
  obtain ⟨new, heq, hnew⟩ := h.calls
  obtain ⟨new', heq', hnew'⟩ := h'.calls
  refine ⟨h'.free, h'.targets.trans h.targets, new ++ new', by rw [heq', heq, List.append_assoc], fun n hn => ?_⟩
  exact (List.mem_append.mp hn).elim (hnew n) (hnew' n)

lemma Spared.of_quiet (h : Free k e.table) (hq : Quiet e e') (ht : e'.table.targets = e.table.targets) :
    Spared k e e' :=
  ⟨h.of_targets hq.thinned ht, ht, [], by simp [hq.submitted]⟩

lemma spared_refresh (h : Free k e.table) (sys : System σ) (id : TargetId) : Spared k e (e.refresh sys id).2 :=
  .of_quiet h (quiet_refresh sys id e) (kin_refresh sys id e).targets

lemma spared_notify (h : Free k e.table) (hid : id ∈ e.table.targets) : Spared k e (e.notify id) := by
  have htargets := Table.Alike.targets (alike_notify id e)
  refine ⟨h.of_targets (thinned_notify id e) htargets, htargets, _, (submitted_notify hid).1, fun n hn => ?_⟩
  rw [calls, List.mem_append] at hn
  rcases hn with hn | hn <;> obtain ⟨k', hk', rfl⟩ := List.mem_map.mp hn <;> rintro rfl
  · have honly : InUse e.table (.only id) := hid
    exact h.not_mem_audience honly hk'
  · exact h.not_mem_audience (inUse_all _) hk'

lemma spared_handle (h : Free k e.table) (hid : id ∈ e.table.targets) (sys : System σ) (event : Event)
    (notified : List Path) : Spared k e (handle sys event (notified, e) id).2 := by
  have hrefresh := spared_refresh h sys id
  rcases handle_cases sys event notified id e with heq | heq | heq <;> rw [heq]
  · exact .refl h
  · exact hrefresh
  · exact hrefresh.trans (spared_notify hrefresh.free (hrefresh.targets ▸ hid))

lemma spared_process (hr : Reachable e) (h : Free k e.table) (sys : System σ) (batch : List Event) :
    Spared k e (process sys batch e) := by
  -- who is reachable has only registered targets in its index
  let P : Engine σ → Prop := fun x => (Reachable x ∧ x.table.created.length = e.table.created.length) ∧ Spared k e x
  have hsay : ∀ r x, P x → P (x.say r) := fun r x hx =>
    ⟨⟨hx.1.1.of_table_eq rfl, hx.1.2⟩, hx.2.trans (.of_quiet hx.2.free (quiet_say r x) rfl)⟩
  have hworld : ∀ x, P x → P { x with world := (sys.overdue x.world).2 } := fun x hx =>
    ⟨⟨hx.1.1.of_table_eq rfl, hx.1.2⟩, hx.2.trans (.of_quiet hx.2.free ⟨rfl, rfl, fun _ => rfl⟩ rfl)⟩
  have hhandle : ∀ event notified id e₁ x, P e₁ → id ∈ e₁.table.targetsFor event.entry → P x →
      P (handle sys event (notified, x) id).2 := by
    intro event notified id e₁ x h₁ hid hx
    refine ⟨Reachable.handle_targetsFor _ sys event notified id e₁ x h₁.1 hid hx.1, hx.2.trans ?_⟩
    refine spared_handle hx.2.free ?_ sys event notified
    rw [h₁.1.1.settled.targetsFor_eq] at hid
    rw [hx.2.targets, ← h₁.2.targets]
    exact (List.mem_filter.mp hid).1
  exact (process_preserves hsay hhandle hworld batch ⟨⟨hr, rfl⟩, .refl h⟩).2

/-! ### Until it is registered again -/

/-- An operation of the table other than a registration of the listener, or a change of world, dispatcher or owners
outside. -/
inductive Elapses (k : ListenerKey) : Engine σ → Engine σ → Prop
  | register (native : NativeWatches σ) (p : Path) (r : Resolution) (e : Engine σ) :
      Elapses k e (e.register native p r).2
  | remove (native : NativeWatches σ) (p : Path) (e : Engine σ) : Elapses k e (e.remove native p).2
  | repoint (native : NativeWatches σ) (id : TargetId) (r : Resolution) (e : Engine σ) :
      id < e.table.created.length → Elapses k e (e.repoint native id r).2
  | process (sys : System σ) (batch : List Event) (e : Engine σ) : Elapses k e (e.process sys batch)
  | addListener (scope : Table.Scope) (hold : Hold) (k' : ListenerKey) (e : Engine σ) :
      k' ≠ k → Elapses k e (e.addListener scope hold k').2
  | removeFrom (k' : ListenerKey) (scope : Table.Scope) (e : Engine σ) : Elapses k e (e.removeFrom k' scope).2
  | removeListener (k' : ListenerKey) (e : Engine σ) : Elapses k e (e.removeListener k').2
  | live (scope : Table.Scope) (e : Engine σ) : Elapses k e (e.live scope).2
  | elsewhere (e e' : Engine σ) : e'.table = e.table → Elapses k e e'

/-- What may become of an engine while the listener is not registered. -/
abbrev Later (k : ListenerKey) : Engine σ → Engine σ → Prop := Relation.ReflTransGen (Elapses k)

lemma Elapses.populated (h : Elapses k e e') (he : Populated e) : Populated e' := by
  cases h with
  | register native p r => exact .register native p r he
  | remove native p => exact .remove native p he
  | repoint native id r _ hid => exact .repoint native id r hid he
  | process sys batch => exact .process sys batch he
  | addListener scope hold k' => exact .addListener scope hold k' he
  | removeFrom k' scope => exact .removeFrom k' scope he
  | removeListener k' => exact .removeListener k' he
  | live scope => exact .live scope he
  | elsewhere _ _ ht => exact .elsewhere ht he

lemma Elapses.free (h : Elapses k e e') (hr : Reachable e) (hfree : Free k e.table) : Free k e'.table := by
  cases h with
  | register native p r => exact hfree.register hr.settled native p r
  | remove native p => exact hfree.remove native p
  | repoint native id r _ _ =>
    exact hfree.of_targets (quiet_repoint native id r e).thinned (targets_repoint native id r e)
  | process sys batch => exact (spared_process hr hfree sys batch).free
  | addListener scope hold k' _ hne => exact hfree.addListener hne scope hold
  | removeFrom k' scope =>
    exact hfree.of_targets (Table.thinned_removeFrom k' scope) (Table.Alike.targets (Table.alike_setListeners ..))
  | removeListener k' =>
    exact hfree.of_targets (Table.thinned_removeListener k') (Table.Alike.targets (Table.alike_removeListener k'))
  | live scope => exact hfree.of_targets (Table.thinned_live scope) (Table.Alike.targets (alike_live scope e))
  | elsewhere _ _ ht => exact ht ▸ hfree

lemma Later.free (h : Later k e e') (he : Populated e) (hfree : Free k e.table) : Populated e' ∧ Free k e'.table := by
  induction h with
  | refl => exact ⟨he, hfree⟩
  | tail _ hstep ih => exact ⟨hstep.populated ih.1, hstep.free ih.1.reachable ih.2⟩

/-! ### Everywhere -/

/-- The entries of the live listeners of a scope, in order. -/
def liveEntries (e : Engine σ) (scope : Table.Scope) : List (ListenerKey × Hold) :=
  (e.table.listeners scope).entries.filter fun x => e.table.alive e.outside x.1

lemma mem_audience_iff {scope : Table.Scope} :
    k ∈ e.audience scope ↔ e.table.alive e.outside k = true ∧ k ∈ (e.table.listeners scope).keys := by
  constructor
  · intro hk
    exact ⟨alive_of_mem_audience hk, ((List.filter_sublist ..).map Prod.fst).subset hk⟩
  · rintro ⟨halive, hk⟩
    obtain ⟨x, hx, rfl⟩ := List.mem_map.mp hk
    exact List.mem_map_of_mem (List.mem_filter.mpr ⟨hx, halive⟩)

/-- Whether a scope was visited or not, the others keep their entries there. -/
lemma liveEntries_removeListener (k : ListenerKey) (e : Engine σ) (scope : Table.Scope) :
    ((e.removeListener k).2.liveEntries scope).filter (fun x => !(x.1 == k)) =
      (e.liveEntries scope).filter fun x => !(x.1 == k) := by
  have hothers : ∀ e : Engine σ, (e.liveEntries scope).filter (fun x => !(x.1 == k)) =
      (e.table.listeners scope).entries.filter fun x => e.table.alive e.outside x.1 && !(x.1 == k) := fun e => by
    rw [liveEntries, List.filter_filter]
    exact List.filter_congr fun x _ => Bool.and_comm ..
  rw [hothers, hothers]
  exact (Table.withdrawn_removeListener k e.table).entries_eq (fun _ hmem => Table.inUse_iff_mem.mpr hmem) scope

/-- **Taking a listener out everywhere.** The answer says whether it was live in any scope in use. From then on, until
it is registered again, it is live in none, taking it out anew finds nothing, and no batch calls it. Everybody else
keeps their entries everywhere, in order. In which order the scopes are visited makes no difference. -/
theorem removeListener_complete (h : Populated e) (k : ListenerKey) :
    ((e.removeListener k).1 = true ↔ k ∈ (e.live .all).1 ∨ ∃ id ∈ e.table.targets, k ∈ (e.live (.only id)).1) ∧
    (∀ e', Later k (e.removeListener k).2 e' →
      k ∉ (e'.live .all).1 ∧ (∀ id ∈ e'.table.targets, k ∉ (e'.live (.only id)).1) ∧
      (e'.removeListener k).1 = false ∧
      ∀ (sys : System σ) (batch : List Event),
        ∃ new, submitted (process sys batch e') = submitted e' ++ new ∧ ∀ n ∈ new, n.key ≠ k) ∧
    (∀ scope, ((e.removeListener k).2.liveEntries scope).filter (fun x => !(x.1 == k)) =
      (e.liveEntries scope).filter fun x => !(x.1 == k)) ∧
    ∀ scopes, scopes.Perm (.all :: e.table.targets.map .only) →
      e.table.removeAlong e.outside k scopes = e.table.removeListener e.outside k := by
  refine ⟨?_, fun e' hlater => ?_, liveEntries_removeListener k e, fun scopes hperm => Table.removeAlong_perm hperm k⟩
  · have hfound : (e.removeListener k).1 = true ↔ _ := (Table.withdrawn_removeListener k e.table).found
    have hall : k ∈ (e.live .all).1 ↔ k ∈ e.audience .all := by rw [live_fst (inUse_all _)]
    have honly : ∀ id ∈ e.table.targets, (k ∈ (e.live (.only id)).1 ↔ k ∈ e.audience (.only id)) := fun id hid => by
      have hscope : InUse e.table (.only id) := hid
      rw [live_fst hscope]
    rw [hfound, hall, exists_congr fun id => and_congr_right (honly id)]
    simp only [mem_audience_iff]
    constructor
    · rintro ⟨halive, scope, hmem, hk⟩
      cases scope with
      | all => exact .inl ⟨halive, hk⟩
      | only id => exact .inr ⟨id, Table.inUse_iff_mem.mpr hmem, halive, hk⟩
    · rintro (⟨halive, hk⟩ | ⟨id, hid, halive, hk⟩)
      · exact ⟨halive, .all, by simp, hk⟩
      · exact ⟨halive, .only id, by simpa using hid, hk⟩
  · obtain ⟨hpop, hfree⟩ := hlater.free (.removeListener k h) (free_removeListener _ k e.table)
    refine ⟨?_, fun id hid => ?_, hfree.removeListener_fst _, fun sys batch => ?_⟩
    · rw [live_fst (inUse_all _)]
      exact hfree.not_mem_audience (inUse_all _)
    · have hscope : InUse e'.table (.only id) := hid
      rw [live_fst hscope]
      exact hfree.not_mem_audience hscope
    · exact (spared_process hpop.reachable hfree sys batch).calls

/-- Two targets are watched. One listener is owned by the first of them and is registered weakly for the other and for
all; another one is owned by the scope of all and is registered weakly for the second. Nobody else owns them. -/
def linkEntwined : Engine Unit :=
  let native : NativeWatches Unit := ⟨fun _ _ => (.ok (), ()), fun _ _ => (.ok (), ())⟩
  let e : Engine Unit := { dispatcher := { workers := [{}] }, world := () }
  let e := (e.register native ⟨[0x2f, 0x61]⟩ (.plain ⟨[0x2f, 0x61]⟩)).2
  let e := (e.register native ⟨[0x2f, 0x62]⟩ (.plain ⟨[0x2f, 0x62]⟩)).2
  let e := (e.addListener (.only 0) .strong 7).2
  let e := (e.addListener .all .weak 7).2
  let e := (e.addListener .all .strong 8).2
  let e := (e.addListener (.only 1) .weak 8).2
  (e.addListener (.only 1) .weak 7).2

/-- The scope of all is visited first and still finds the listener alive; after the first target nobody owns it any
more, and the second has only a dead entry. Visited the other way round, the entry there is alive. -/
theorem removeListener_complete_linkEntwined :
    (linkEntwined.removeListener 7).1 = true ∧
      (linkEntwined.removeListener 7).2.liveEntries .all = [(8, .strong)] ∧
      (linkEntwined.removeListener 7).2.liveEntries (.only 1) = [(8, .weak)] ∧
      (∀ e', Later 7 (linkEntwined.removeListener 7).2 e' → 7 ∉ (e'.live .all).1 ∧ (e'.removeListener 7).1 = false) ∧
      linkEntwined.table.removeAlong linkEntwined.outside 7 [.only 1, .only 0, .all] =
        linkEntwined.table.removeListener linkEntwined.outside 7 := by
  have hpop : Populated linkEntwined := .addListener _ _ _ (.addListener _ _ _ (.addListener _ _ _ (.addListener _ _ _
    (.addListener _ _ _ (.register _ _ _ (.register _ _ _ (.start rfl)))))))
  obtain ⟨hfound, hlater, -, hperm⟩ := removeListener_complete hpop 7
  refine ⟨hfound.mpr (.inl (by decide +kernel)), by decide +kernel, by decide +kernel, fun e' he' => ?_, ?_⟩
  · obtain ⟨hall, -, hagain, -⟩ := hlater e' he'
    exact ⟨hall, hagain⟩
  · refine hperm _ ?_
    have htargets : linkEntwined.table.targets = [0, 1] := by decide +kernel
    rw [htargets]
    decide

end LinkWatch.Engine
