import LinkWatch.Proofs.Engine.Acts
import LinkWatch.Proofs.Listener.Dispatcher
import LinkWatch.Proofs.Listener.Set

/-!
Who hears a notice. The audience of a scope are its live listeners in the order in which they were registered. As
long as an engine only grows and loses listeners through its own operations, nobody is registered twice in one scope
(`Populated.distinct`). A notice calls each listener of its audience once, and the audience of every later notice
is what it was before (`submitted_notify`): calls keep alive only who was alive, and only the dead are dropped.
-/

namespace LinkWatch

/-! ### Nobody is registered twice -/

namespace Table

variable {t t' t'' : Table}

/-- In no scope is a listener registered twice. -/
def Distinct (t : Table) : Prop := ∀ scope, ((t.listeners scope).entries.map Prod.fst).Nodup

/-- Every scope has at most the entries it had, in the same order. -/
def Thinned (t t' : Table) : Prop := ∀ scope, (t'.listeners scope).entries.Sublist (t.listeners scope).entries

lemma Thinned.refl (t : Table) : Thinned t t := fun _ => List.Sublist.refl _

lemma Thinned.trans (h : Thinned t t') (h' : Thinned t' t'') : Thinned t t'' := fun scope =>
  (h' scope).trans (h scope)

lemma Thinned.of_eq (h : ∀ scope, t'.listeners scope = t.listeners scope) : Thinned t t' := fun scope => by
  rw [h scope]

lemma Distinct.thinned (h : t.Distinct) (ht : Thinned t t') : t'.Distinct := fun scope =>
  (h scope).sublist ((ht scope).map Prod.fst)

lemma listeners_setListeners (scope scope' : Scope) (s : ListenerSet) :
    (t.setListeners scope s).listeners scope' = s ∧ scope' = scope ∨
      (t.setListeners scope s).listeners scope' = t.listeners scope' := by
  cases scope with
  | all =>
    cases scope' with
    | all => exact .inl ⟨rfl, rfl⟩
    | only i => exact .inr rfl
  | only j =>
    cases scope' with
    | all => exact .inr rfl
    | only i =>
      rcases Engine.own_setListeners (j := j) t s i with ⟨hs, rfl⟩ | hs
      · exact .inl ⟨hs, rfl⟩
      · exact .inr hs

lemma thinned_setListeners {scope : Scope} {s : ListenerSet} (h : s.entries.Sublist (t.listeners scope).entries) :
    Thinned t (t.setListeners scope s) := by
  intro scope'
  rcases listeners_setListeners (t := t) scope scope' s with ⟨hs, rfl⟩ | hs <;> rw [hs]
  exact h

variable {a : ListenerKey → Bool}

lemma thinned_live (scope : Scope) : Thinned t (t.live a scope).2 :=
  thinned_setListeners (List.filter_sublist ..)

lemma thinned_removeFrom (k : ListenerKey) (scope : Scope) : Thinned t (t.removeFrom a k scope).2 :=
  thinned_setListeners ((List.filter_sublist ..).trans (List.filter_sublist ..))

lemma Distinct.addListener (h : t.Distinct) (scope : Scope) (hold : Hold) (k : ListenerKey) :
    (t.addListener a scope hold k).2.Distinct := by
  have hprune : (((t.listeners scope).prune (t.alive a)).entries.map Prod.fst).Nodup :=
    (h scope).sublist ((List.filter_sublist ..).map Prod.fst)
  intro scope'
  rcases listeners_setListeners (t := t) scope scope' ((t.listeners scope).add (t.alive a) hold k).2 with ⟨hs, rfl⟩ | hs
  · rw [Table.addListener]
    dsimp only
    rw [hs, ListenerSet.add]
    split
    · exact hprune
    · rename_i hnew
      -- who is added was not there
      have hk : k ∉ ((t.listeners scope').prune (t.alive a)).entries.map Prod.fst := by
        intro hmem
        obtain ⟨x, hx, hxk⟩ := List.mem_map.mp hmem
        exact hnew (List.any_eq_true.mpr ⟨x, hx, by simpa using hxk⟩)
      rw [List.map_append]
      refine List.nodup_append.mpr ⟨hprune, by simp, fun x hx y hy => ?_⟩
      obtain rfl : y = k := by simpa using hy
      rintro rfl
      exact hk hx
  · rw [Table.addListener]
    dsimp only
    rw [hs]
    exact h scope'

/-- What taking a listener out of one scope keeps, taking it out everywhere keeps. -/
lemma removeListener_keeps {R : Table → Table → Prop} (hrefl : ∀ t, R t t)
    (htrans : ∀ {t t' t''}, R t t' → R t' t'' → R t t'') {k : ListenerKey}
    (hstep : ∀ t scope, R t (removeFrom a k scope t).2) : R t (t.removeListener a k).2 := by
  have hfold : ∀ (scopes : List Scope) (s : Bool × Table), R s.2
      (scopes.foldl (fun s scope => (s.1 || (s.2.removeFrom a k scope).1, (s.2.removeFrom a k scope).2)) s).2 := by
    intro scopes
    induction scopes with
    | nil => exact fun s => hrefl s.2
    | cons scope scopes ih =>
      intro s
      exact htrans (hstep s.2 scope) (ih (s.1 || (removeFrom a k scope s.2).1, (removeFrom a k scope s.2).2))
  exact hfold _ (false, t)

lemma thinned_removeListener (k : ListenerKey) : Thinned t (t.removeListener a k).2 :=
  removeListener_keeps .refl .trans fun _ scope => thinned_removeFrom k scope

lemma alike_removeListener (k : ListenerKey) : Alike t (t.removeListener a k).2 :=
  removeListener_keeps .refl .trans fun _ _ => alike_setListeners ..

end Table

namespace Engine

open Table (Alike Thinned)

variable {σ : Type} {e e' e'' : Engine σ} {sys : System σ} {id : TargetId}

lemma Quiet.listeners (h : Quiet e e') (scope : Table.Scope) : e'.table.listeners scope = e.table.listeners scope := by
  cases scope with
  | all => exact h.global
  | only i => exact h.own i

lemma Quiet.thinned (h : Quiet e e') : Thinned e.table e'.table := .of_eq h.listeners

lemma thinned_register (native : NativeWatches σ) (p : Path) (r : Resolution) (e : Engine σ) :
    Thinned e.table (e.register native p r).2.table := by
  cases hp : e.table.find? p with
  | some id =>
    rw [register_of_some native r hp]
    exact .refl _
  | none =>
    -- the new target has no listeners yet
    have hentered : Thinned e.table (e.table.entered p r) := .of_eq fun scope => by
      cases scope with
      | all => rfl
      | only i =>
        rw [Table.listeners, Table.listeners, Table.target_entered]
        split
        · rename_i hi
          rw [Table.target, List.getElem?_eq_none (Nat.le_of_eq hi.symm)]
          rfl
        · rfl
    have hlisted : Thinned (e.table.entered p r) (((e.table.entered p r).enlist e.table.created.length).2) := .of_eq
      fun scope => by
        unfold Table.enlist
        dsimp only
        split <;> rfl
    have hsync := (quiet_sync native ((e.table.entered p r).enlist e.table.created.length).1
      { e with table := ((e.table.entered p r).enlist e.table.created.length).2 }).thinned
    rw [register, enroll, Table.enter_of_none hp]
    exact (hentered.trans hlisted).trans hsync

lemma thinned_remove (native : NativeWatches σ) (p : Path) (e : Engine σ) :
    Thinned e.table (e.remove native p).2.table := by
  cases hp : e.table.find? p with
  | none =>
    rw [remove_of_none native hp]
    exact .refl _
  | some id =>
    have hretired : Thinned e.table ((e.table.takenOut p).retire id).2 := .of_eq fun scope => by
      cases scope with
      | all => rfl
      | only i =>
        have htarget : ((e.table.takenOut p).retire id).2.target i =
            ((e.table.takenOut p).modify id fun x => { x with retired := true }).target i := rfl
        rw [Table.listeners, Table.listeners, htarget, Table.target_modify]
        split <;> rfl
    have hsync := (quiet_sync native ((e.table.takenOut p).retire id).1
      { e with table := ((e.table.takenOut p).retire id).2 }).thinned
    rw [remove, Table.takeOut_of_some hp]
    exact hretired.trans hsync

lemma thinned_notify (id : TargetId) (e : Engine σ) : Thinned e.table (e.notify id).table := by
  obtain ⟨r, heq⟩ := notify_eq id e
  rw [heq, table_submitAll]
  refine Thinned.trans ?_ (Table.thinned_live _)
  rw [table_submitAll_own]
  exact Table.thinned_live _

lemma thinned_handle (sys : System σ) (event : Event) (notified : List Path) (id : TargetId) (e : Engine σ) :
    Thinned e.table (handle sys event (notified, e) id).2.table := by
  have hrefresh := (quiet_refresh sys id e).thinned
  rcases handle_cases sys event notified id e with heq | heq | heq <;> rw [heq]
  · exact .refl _
  · exact hrefresh
  · exact hrefresh.trans (thinned_notify id _)

lemma thinned_process (sys : System σ) (batch : List Event) (e : Engine σ) :
    Thinned e.table (process sys batch e).table :=
  process_preserves (P := fun x => Thinned e.table x.table) (fun _ _ h => h)
    (fun event notified id _ x _ _ h => h.trans (thinned_handle sys event notified id x)) (fun _ h => h) batch (.refl _)

/-- The engines that their own operations lead to; world, dispatcher and the owners of listeners outside may change
at any time. -/
inductive Populated : Engine σ → Prop
  | start {e : Engine σ} : e.table = {} → Populated e
  | register {e : Engine σ} (native : NativeWatches σ) (p : Path) (r : Resolution) :
      Populated e → Populated (e.register native p r).2
  | remove {e : Engine σ} (native : NativeWatches σ) (p : Path) : Populated e → Populated (e.remove native p).2
  | repoint {e : Engine σ} (native : NativeWatches σ) (id : TargetId) (r : Resolution) :
      id < e.table.created.length → Populated e → Populated (e.repoint native id r).2
  | process {e : Engine σ} (sys : System σ) (batch : List Event) : Populated e → Populated (e.process sys batch)
  | addListener {e : Engine σ} (scope : Table.Scope) (hold : Hold) (k : ListenerKey) :
      Populated e → Populated (e.addListener scope hold k).2
  | removeFrom {e : Engine σ} (k : ListenerKey) (scope : Table.Scope) :
      Populated e → Populated (e.removeFrom k scope).2
  | removeListener {e : Engine σ} (k : ListenerKey) : Populated e → Populated (e.removeListener k).2
  | live {e : Engine σ} (scope : Table.Scope) : Populated e → Populated (e.live scope).2
  | elsewhere {e e' : Engine σ} : e'.table = e.table → Populated e → Populated e'

lemma Populated.reachable (h : Populated e) : Reachable e := by
  induction h with
  | start ht => exact .start ht
  | register native p r _ ih => exact .register native p r ih
  | remove native p _ ih => exact .remove native p ih
  | repoint native id r hid _ ih => exact .repoint native id r hid ih
  | process sys batch _ ih => exact ih.process sys batch
  | addListener scope hold k _ ih => exact ih.elsewhere (alike_addListener scope hold k _)
  | removeFrom k scope _ ih => exact ih.elsewhere (Table.alike_setListeners ..)
  | removeListener k _ ih => exact ih.elsewhere (Table.alike_removeListener k)
  | live scope _ ih => exact ih.elsewhere (alike_live scope _)
  | elsewhere ht _ ih => exact ih.of_table_eq ht

theorem Populated.distinct (h : Populated e) : e.table.Distinct := by
  induction h with
  | start ht =>
    intro scope
    rw [ht]
    cases scope <;> exact List.nodup_nil
  | register native p r _ ih => exact ih.thinned (thinned_register native p r _)
  | remove native p _ ih => exact ih.thinned (thinned_remove native p _)
  | repoint native id r _ _ ih => exact ih.thinned (quiet_repoint native id r _).thinned
  | process sys batch _ ih => exact ih.thinned (thinned_process sys batch _)
  | addListener scope hold k _ ih => exact ih.addListener scope hold k
  | removeFrom k scope _ ih => exact ih.thinned (Table.thinned_removeFrom k scope)
  | removeListener k _ ih => exact ih.thinned (Table.thinned_removeListener k)
  | live scope _ ih => exact ih.thinned (Table.thinned_live scope)
  | elsewhere ht _ ih => exact ht ▸ ih

/-! ### Audiences -/

/-- The listener is alive. -/
def Alive (e : Engine σ) (k : ListenerKey) : Prop := e.table.alive e.outside k = true

/-- The live listeners of a scope, in the order in which they were registered. -/
def audience (e : Engine σ) (scope : Table.Scope) : List ListenerKey :=
  ((e.table.listeners scope).entries.filter fun x => e.table.alive e.outside x.1).map Prod.fst

/-- The scope of all targets, or of one that is registered. -/
def InUse (t : Table) : Table.Scope → Prop
  | .all => True
  | .only id => id ∈ t.targets

lemma inUse_all (t : Table) : InUse t .all := trivial

lemma inUse_congr {t t' : Table} {scope : Table.Scope} (h : t'.targets = t.targets) :
    InUse t' scope ↔ InUse t scope := by
  cases scope with
  | all => exact .rfl
  | only id => rw [InUse, InUse, h]

section Owners

variable {t t' : Table} {a : ListenerKey → Bool} {scope : Table.Scope} {k : ListenerKey}

lemma owns_iff : t.owns k = true ↔ ∃ scope, InUse t scope ∧ (t.listeners scope).owns k = true := by
  rw [Table.owns, Bool.or_eq_true, List.any_eq_true]
  constructor
  · rintro (hall | ⟨id, hid, honly⟩)
    · exact ⟨.all, trivial, hall⟩
    · exact ⟨.only id, hid, honly⟩
  · rintro ⟨_ | id, hscope, howns⟩
    · exact .inl howns
    · exact .inr ⟨id, hscope, howns⟩

lemma alive_of_owns (hscope : InUse t scope) (k : ListenerKey) (h : (t.listeners scope).owns k = true) :
    t.alive a k = true := Bool.or_eq_true_iff.mpr (.inr (owns_iff.mpr ⟨scope, hscope, h⟩))

/-- Where the scopes in use own whom they owned, the same listeners are alive. -/
lemma alive_congr (ht : t'.targets = t.targets)
    (h : ∀ scope, InUse t scope → ((t'.listeners scope).owns k = true ↔ (t.listeners scope).owns k = true)) :
    t'.alive a k = t.alive a k := by
  have howns : t'.owns k = t.owns k := by
    rw [Bool.eq_iff_iff, owns_iff, owns_iff]
    refine exists_congr fun scope => ?_
    rw [inUse_congr ht]
    exact and_congr_right (h scope)
  rw [Table.alive, Table.alive, howns]

end Owners

/-- Whoever is dropped as dead is dead. -/
lemma filter_prune_entries {scope : Table.Scope} (hscope : InUse e.table scope) :
    ((e.table.listeners scope).prune (e.table.alive e.outside)).entries =
      (e.table.listeners scope).entries.filter fun x => e.table.alive e.outside x.1 :=
  ListenerSet.entries_prune (alive_of_owns hscope)

lemma live_fst {scope : Table.Scope} (hscope : InUse e.table scope) : (e.live scope).1 = e.audience scope :=
  congrArg (List.map Prod.fst) (filter_prune_entries hscope)

lemma alive_of_mem_audience {scope : Table.Scope} {k : ListenerKey} (h : k ∈ e.audience scope) : e.Alive k := by
  obtain ⟨x, hx, rfl⟩ := List.mem_map.mp h
  exact (List.mem_filter.mp hx).2

lemma nodup_audience (h : e.table.Distinct) (scope : Table.Scope) : (e.audience scope).Nodup :=
  (h scope).sublist ((List.filter_sublist ..).map Prod.fst)

/-- The same listeners are alive, and the scopes in use have the audiences they had. -/
structure Attuned (e e' : Engine σ) : Prop where
  targets : e'.table.targets = e.table.targets
  alive : ∀ k, e'.table.alive e'.outside k = e.table.alive e.outside k
  audience : ∀ scope, InUse e.table scope → e'.audience scope = e.audience scope

lemma Attuned.refl (e : Engine σ) : Attuned e e := ⟨rfl, fun _ => rfl, fun _ _ => rfl⟩

lemma Attuned.inUse (h : Attuned e e') {scope : Table.Scope} : InUse e'.table scope ↔ InUse e.table scope :=
  inUse_congr h.targets

lemma Attuned.trans (h : Attuned e e') (h' : Attuned e' e'') : Attuned e e'' where
  targets := h'.targets.trans h.targets
  alive k := (h'.alive k).trans (h.alive k)
  audience scope hscope := (h'.audience scope (h.inUse.mpr hscope)).trans (h.audience scope hscope)

/-- The owners of listeners and the scopes are what they were. -/
lemma attuned_of_quiet (hquiet : Quiet e e') (hout : e'.outside = e.outside) (ht : e'.table.targets = e.table.targets) :
    Attuned e e' := by
  have howns : ∀ k, e'.table.owns k = e.table.owns k := fun k => by
    simp only [Table.owns, hquiet.global, hquiet.own, ht]
  have halive : ∀ k, e'.table.alive e'.outside k = e.table.alive e.outside k := fun k => by
    rw [Table.alive, Table.alive, howns, hout]
  refine ⟨ht, halive, fun scope _ => ?_⟩
  simp only [Engine.audience, hquiet.listeners, halive]

lemma attuned_say (r : Log.Record) (e : Engine σ) : Attuned e (e.say r) := attuned_of_quiet (quiet_say r e) rfl rfl

lemma attuned_refresh (sys : System σ) (id : TargetId) (e : Engine σ) : Attuned e (e.refresh sys id).2 := by
  have haside : Aside (fun _ => ()) e (e.refresh sys id).2 :=
    aside_refresh ⟨fun _ _ => rfl, fun _ _ => rfl, fun _ => rfl, fun _ _ => rfl, fun _ _ => rfl⟩ id e
  refine attuned_of_quiet (quiet_refresh sys id e) ?_ (kin_refresh sys id e).targets
  funext k
  rw [outside, outside, haside.held, haside.dispatcher]

/-! ### Dropping the dead -/

lemma attuned_live {scope : Table.Scope} (hscope : InUse e.table scope) : Attuned e (e.live scope).2 := by
  have hsets : ∀ scope', (e.live scope).2.table.listeners scope' =
        (e.table.listeners scope).prune (e.table.alive e.outside) ∧ scope' = scope ∨
      (e.live scope).2.table.listeners scope' = e.table.listeners scope' := fun scope' =>
    Table.listeners_setListeners scope scope' _
  have hown : ∀ scope' k, ((e.live scope).2.table.listeners scope').owns k = (e.table.listeners scope').owns k := by
    intro scope' k
    rcases hsets scope' with ⟨hs, rfl⟩ | hs <;> rw [hs]
    exact ListenerSet.owns_prune _ _ k
  have ht : (e.live scope).2.table.targets = e.table.targets := (alike_live scope e).targets
  have halive : ∀ k, (e.live scope).2.table.alive (e.live scope).2.outside k = e.table.alive e.outside k := fun k =>
    alive_congr ht fun scope' _ => by rw [hown]
  refine ⟨ht, halive, fun scope' _ => ?_⟩
  simp only [Engine.audience, halive]
  rcases hsets scope' with ⟨hs, rfl⟩ | hs <;> rw [hs]
  rw [filter_prune_entries hscope, List.filter_filter]
  simp

/-! ### Calling the living -/

/-- A call that waits keeps alive only who was alive. -/
lemma attuned_submit {n : Notification} (hn : e.Alive n.key) : Attuned e (e.submit n) := by
  have htable : (e.submit n).table = e.table := table_submit n e
  have halive : ∀ k, (e.submit n).table.alive (e.submit n).outside k = e.table.alive e.outside k := by
    intro k
    rw [Bool.eq_iff_iff, htable]
    simp only [Table.alive, outside, held_submit, dispatcher_submit, Bool.or_eq_true]
    constructor
    · rintro ((hk | hk) | hk)
      · exact .inl (.inl hk)
      · rcases Dispatcher.holds_of_submit hk with hk | rfl
        · exact .inl (.inr hk)
        · simpa [Alive, Table.alive, outside] using hn
      · exact .inr hk
    · rintro ((hk | hk) | hk)
      · exact .inl (.inl hk)
      · exact .inl (.inr (Dispatcher.holds_submit hk))
      · exact .inr hk
  refine ⟨by rw [htable], halive, fun scope _ => ?_⟩
  simp only [Engine.audience, htable]
  simp only [htable] at halive
  simp only [halive]

lemma attuned_submitAll {ks : List ListenerKey} (hks : ∀ k ∈ ks, e.Alive k) (p : Path) :
    Attuned e (ks.foldl (fun e k => e.submit ⟨k, p⟩) e) := by
  induction ks generalizing e with
  | nil => exact .refl e
  | cons k ks ih =>
    have hfirst : Attuned e (e.submit ⟨k, p⟩) := attuned_submit (hks k (by simp))
    refine hfirst.trans (ih fun k' hk' => ?_)
    exact (hfirst.alive k').trans (hks k' (by simp [hk']))

/-- What a notice of a target that leads there calls: the listeners of the target with the path as requested, then
the listeners of all targets with the path where it leads. -/
def calls (e : Engine σ) (id : TargetId) (r : Resolution) : List Notification :=
  (e.audience (.only id)).map (fun k => ⟨k, (e.table.target id).requested⟩) ++
    (e.audience .all).map fun k => ⟨k, r.resolved⟩

/-- **A notice.** It submits one call for each listener of its audiences, in order, and changes nobody's audience. -/
theorem submitted_notify (hid : id ∈ e.table.targets) :
    submitted (e.notify id) = submitted e ++ e.calls id (e.table.target id).resolution ∧ Attuned e (e.notify id) := by
  obtain ⟨r, heq⟩ := notify_eq id e
  have hsay : Attuned e (e.say r) := attuned_say r e
  have hid' : InUse (e.say r).table (.only id) := hid
  have hown : ((e.say r).live (.only id)).1 = e.audience (.only id) := live_fst hid'
  have honly : Attuned e ((e.say r).notifyOwn id) := by
    have hlive : Attuned e ((e.say r).live (.only id)).2 := hsay.trans (attuned_live hid')
    refine hlive.trans (attuned_submitAll (fun k hk => ?_) _)
    rw [hown] at hk
    exact (hlive.alive k).trans (alive_of_mem_audience hk)
  have hall : (((e.say r).notifyOwn id).live .all).1 = e.audience .all :=
    (live_fst (inUse_all _)).trans (honly.audience .all (inUse_all _))
  constructor
  · rw [heq, submitted_submitAll, submitted_live, submitted_notifyOwn, hown, hall, (quiet_say r e).submitted, calls,
      List.append_assoc]
    rfl
  · rw [heq]
    have hlive : Attuned e (((e.say r).notifyOwn id).live .all).2 := honly.trans (attuned_live (inUse_all _))
    refine hlive.trans (attuned_submitAll (fun k hk => ?_) _)
    rw [hall] at hk
    exact (hlive.alive k).trans (alive_of_mem_audience hk)

end Engine

end LinkWatch
