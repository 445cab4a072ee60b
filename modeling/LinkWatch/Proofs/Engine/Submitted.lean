import LinkWatch.Proofs.Engine.Batch

/-!
Notices and submissions. Only a notice hands notifications to the dispatcher: one for each live listener of the
target with the path as requested, then one for each live listener of all targets with the path where it leads
(`handed_notify`). So a listener of a target is handed as many notifications of its path as the target has
notices (`handed_process`), over every system.
-/

namespace LinkWatch.Engine

open Table (Alike)

variable {σ : Type} {e e' e'' : Engine σ} {id j : TargetId} {k : ListenerKey} {p : Path}

/-- The notification that an effect hands to the dispatcher. -/
def submission? : Effect → Option Notification
  | .submit n _ => some n
  | _ => none

/-- The notifications handed to the dispatcher so far, in order. -/
def submitted (e : Engine σ) : List Notification := e.effects.filterMap submission?

/-! ### What hands over nothing -/

/-- Nothing is handed over, and the listeners stay as they are. -/
structure Quiet (e e' : Engine σ) : Prop where
  submitted : submitted e' = submitted e
  global : e'.table.global = e.table.global
  own : ∀ i, (e'.table.target i).listeners = (e.table.target i).listeners

lemma Quiet.refl (e : Engine σ) : Quiet e e := ⟨rfl, rfl, fun _ => rfl⟩

lemma Quiet.trans (h : Quiet e e') (h' : Quiet e' e'') : Quiet e e'' where
  submitted := h'.submitted.trans h.submitted
  global := h'.global.trans h.global
  own i := (h'.own i).trans (h.own i)

lemma quiet_say (r : Log.Record) (e : Engine σ) : Quiet e (e.say r) :=
  ⟨by simp [submitted, say, submission?], rfl, fun _ => rfl⟩

lemma quiet_watch (native : NativeWatches σ) (dir : Path) (e : Engine σ) : Quiet e (e.watch native dir) := by
  unfold watch
  rcases native.watch dir e.world with ⟨answer, world⟩
  cases answer with
  | ok u => exact ⟨by simp [submitted, submission?], rfl, fun _ => rfl⟩
  | error err => exact ⟨by simp [submitted, say, submission?], rfl, fun _ => rfl⟩

lemma quiet_unwatch (native : NativeWatches σ) (dir : Path) (e : Engine σ) : Quiet e (e.unwatch native dir) := by
  unfold unwatch
  rcases native.unwatch dir e.world with ⟨answer, world⟩
  cases answer with
  | ok u => exact ⟨by simp [submitted, submission?], rfl, fun _ => rfl⟩
  | error err => exact ⟨by simp [submitted, say, submission?], rfl, fun _ => rfl⟩

lemma quiet_sync (native : NativeWatches σ) (dirs : List Path) (e : Engine σ) : Quiet e (e.sync native dirs) := by
  induction dirs generalizing e with
  | nil => exact Quiet.refl e
  | cons dir dirs ih =>
    refine Quiet.trans ?_ (ih (e.syncOne native dir))
    unfold syncOne
    split
    · exact quiet_watch native dir e
    · exact quiet_unwatch native dir e
    · exact Quiet.refl e

lemma quiet_repoint (native : NativeWatches σ) (id : TargetId) (r : Resolution) (e : Engine σ) :
    Quiet e (e.repoint native id r).2 := by
  rcases e.table.repoint_cases id r with heq | ⟨-, -, heq⟩ <;> rw [repoint, heq]
  · exact Quiet.refl e
  · have hmoved : Quiet e { e with table := e.table.repointed id r } :=
      ⟨rfl, rfl, fun i => (Table.frame_repointed e.table id r i).2.2⟩
    exact hmoved.trans (quiet_sync native _ _)

lemma quiet_refresh (sys : System σ) (id : TargetId) (e : Engine σ) : Quiet e (e.refresh sys id).2 := by
  unfold refresh
  dsimp only
  generalize resolve sys.toFilesystem (e.table.target id).requested e.world = out
  obtain ⟨answer, world⟩ := out
  have hworld : Quiet e { e with world } := ⟨rfl, rfl, fun _ => rfl⟩
  by_cases hhalted : sys.halted world = true
  · simpa [hhalted] using hworld
  · cases answer with
    | error err => simpa [hhalted] using hworld.trans (quiet_say _ _)
    | ok r =>
      have hrep := hworld.trans (quiet_repoint sys.toNativeWatches id r { e with world })
      rcases hout : repoint sys.toNativeWatches id r { e with world } with ⟨_ | previous, e'⟩
      · simpa [hhalted, hout] using hrep
      · rw [hout] at hrep
        simpa [hhalted, hout] using hrep.trans (quiet_say _ _)

/-! ### What a notice hands over -/

lemma submitted_submit (n : Notification) (e : Engine σ) : submitted (e.submit n) = submitted e ++ [n] := by
  unfold submit
  dsimp only
  split <;> simp [submitted, say, submission?]

lemma submitted_submitAll (h : ListenerKey → Notification) (ks : List ListenerKey) (e : Engine σ) :
    submitted (ks.foldl (fun e k => e.submit (h k)) e) = submitted e ++ ks.map h := by
  induction ks generalizing e with
  | nil => simp
  | cons k ks ih => rw [List.foldl_cons, ih, submitted_submit, List.append_assoc, List.map_cons, List.singleton_append]

/-- The engine once the own listeners of a target have been notified. -/
def notifyOwn (id : TargetId) (e : Engine σ) : Engine σ :=
  (e.live (.only id)).1.foldl (fun e' k => e'.submit ⟨k, (e.table.target id).requested⟩) (e.live (.only id)).2

lemma notify_eq (id : TargetId) (e : Engine σ) :
    ∃ r, e.notify id = (((e.say r).notifyOwn id).live .all).1.foldl
      (fun e' k => e'.submit ⟨k, (e.table.target id).resolution.resolved⟩) (((e.say r).notifyOwn id).live .all).2 :=
  ⟨_, rfl⟩

lemma submitted_live (scope : Table.Scope) (e : Engine σ) : submitted (e.live scope).2 = submitted e := rfl

lemma submitted_notifyOwn (id : TargetId) (e : Engine σ) :
    submitted (e.notifyOwn id) =
      submitted e ++ (e.live (.only id)).1.map fun k => ⟨k, (e.table.target id).requested⟩ := by
  rw [notifyOwn, submitted_submitAll, submitted_live]

/-- A listener of one target alone, which the target owns. -/
structure Hears (t : Table) (id : TargetId) (k : ListenerKey) : Prop where
  own : ((t.target id).listeners.entries.filter fun x => x.1 == k) = [(k, .strong)]
  global : t.global.contains k = false

lemma Hears.quiet (h : Hears e.table id k) (hq : Quiet e e') : Hears e'.table id k :=
  ⟨by rw [hq.own, h.own], by rw [hq.global, h.global]⟩

section Prune

variable {a : ListenerKey → Bool} {s : ListenerSet}

/-- Strong entries are never dropped. -/
lemma filter_prune (h : (s.entries.filter fun x => x.1 == k) = [(k, .strong)]) :
    ((s.prune a).entries.filter fun x => x.1 == k) = [(k, .strong)] := by
  rw [ListenerSet.prune, List.filter_filter]
  simp only [Bool.and_comm (_ == k)]
  rw [← List.filter_filter, h]
  rfl

lemma contains_prune (h : s.contains k = false) : (s.prune a).contains k = false := by
  rw [ListenerSet.contains, List.any_eq_false] at h ⊢
  exact fun x hx => h x (List.mem_filter.mp hx).1

lemma count_keys {xs : List (ListenerKey × Hold)} :
    (xs.map Prod.fst).count k = (xs.filter fun x => x.1 == k).length := by
  rw [List.count_eq_countP, List.countP_map, List.countP_eq_length_filter]
  rfl

end Prune

lemma own_setListeners (t : Table) (s : ListenerSet) (i : TargetId) :
    ((t.setListeners (.only j) s).target i).listeners = s ∧ i = j ∨
      ((t.setListeners (.only j) s).target i).listeners = (t.target i).listeners := by
  rw [Table.setListeners, Table.target_modify]
  split
  · rename_i h
    exact Or.inl ⟨rfl, h.1⟩
  · exact Or.inr rfl

lemma Hears.live (h : Hears e.table id k) (scope : Table.Scope) : Hears (e.live scope).2.table id k := by
  cases scope with
  | all => exact ⟨h.own, contains_prune h.global⟩
  | only j =>
    refine ⟨?_, h.global⟩
    rcases own_setListeners (j := j) e.table
      ((e.table.listeners (.only j)).prune (e.table.alive e.outside)) id with ⟨hs, rfl⟩ | hs
    · have hown := filter_prune (a := e.table.alive e.outside) h.own
      exact hs ▸ hown
    · exact hs ▸ h.own

lemma table_submitAll_own (id : TargetId) (e : Engine σ) : (e.notifyOwn id).table = (e.live (.only id)).2.table := by
  rw [notifyOwn, table_submitAll]

/-- How many notifications of a path a listener has been handed. -/
def handed (k : ListenerKey) (p : Path) (e : Engine σ) : Nat := (submitted e).count ⟨k, p⟩

lemma count_map_key (ks : List ListenerKey) (p : Path) :
    (ks.map fun k => (⟨k, p⟩ : Notification)).count ⟨k, p⟩ = ks.count k := by
  rw [List.count_eq_countP, List.countP_map, List.count_eq_countP]
  refine List.countP_congr fun x _ => ?_
  simp

lemma count_map_of_ne (ks : List ListenerKey) {q : Path} (h : q ≠ p) :
    (ks.map fun k => (⟨k, q⟩ : Notification)).count ⟨k, p⟩ = 0 := by
  rw [List.count_eq_zero]
  intro hmem
  obtain ⟨x, -, hx⟩ := List.mem_map.mp hmem
  exact h (congrArg Notification.path hx)

/-- A notice hands an own listener of the target its path once, and the listener of another target nothing of its
path. -/
theorem handed_notify (h : Hears e.table id k) (hp : (e.table.target id).requested = p)
    (hj : j = id ∨ (e.table.target j).requested ≠ p) :
    Hears (e.notify j).table id k ∧ handed k p (e.notify j) = handed k p e + if j = id then 1 else 0 := by
  obtain ⟨r, heq⟩ := notify_eq j e
  have hown : Hears ((e.say r).notifyOwn j).table id k := by
    rw [table_submitAll_own]
    exact (h.quiet (quiet_say r e)).live (.only j)
  -- the listener is none of those of all targets
  have hall : (((e.say r).notifyOwn j).live .all).1.count k = 0 := by
    have hnone := contains_prune (a := ((e.say r).notifyOwn j).table.alive ((e.say r).notifyOwn j).outside)
      hown.global
    refine (count_keys (k := k)).trans ?_
    rw [List.length_eq_zero_iff, List.filter_eq_nil_iff]
    rw [ListenerSet.contains, List.any_eq_false] at hnone
    exact hnone
  constructor
  · rw [heq, table_submitAll]
    exact hown.live .all
  · have hcount : ∀ q,
        ((((e.say r).notifyOwn j).live .all).1.map fun k => (⟨k, q⟩ : Notification)).count ⟨k, p⟩ = 0 := by
      intro q
      by_cases hq : q = p
      · rw [hq, count_map_key, hall]
      · exact count_map_of_ne _ hq
    rw [handed, heq, submitted_submitAll, submitted_live, submitted_notifyOwn, List.count_append, List.count_append,
      hcount, Nat.add_zero, handed, (quiet_say r e).submitted]
    congr 1
    rcases hj with rfl | hj
    · rw [if_pos rfl, table_say, hp, count_map_key]
      have hprune := filter_prune (a := (e.say r).table.alive (e.say r).outside) h.own
      exact count_keys.trans (congrArg List.length hprune)
    · have hne : j ≠ id := by
        rintro rfl
        exact hj hp
      rw [if_neg hne, table_say, count_map_of_ne _ hj]

/-! ### A batch -/

lemma handle_cases (sys : System σ) (event : Event) (notified : List Path) (j : TargetId) (e : Engine σ) :
    handle sys event (notified, e) j = (notified, e) ∨
    handle sys event (notified, e) j = (notified, (e.refresh sys j).2) ∨
    handle sys event (notified, e) j =
      (notified ++ [((e.refresh sys j).2.table.target j).requested], (e.refresh sys j).2.notify j) := by
  unfold handle
  dsimp only
  split
  · exact Or.inl rfl
  · split
    · exact Or.inl rfl
    · split
      · exact Or.inr (Or.inl rfl)
      · exact Or.inr (Or.inr rfl)

/-- The registered targets and their paths are the same. -/
structure Kin (t t' : Table) : Prop where
  registered : t'.registered = t.registered
  requested : ∀ i, (t'.target i).requested = (t.target i).requested

lemma Kin.refl (t : Table) : Kin t t := ⟨rfl, fun _ => rfl⟩

lemma Kin.trans {t t' t'' : Table} (h : Kin t t') (h' : Kin t' t'') : Kin t t'' :=
  ⟨h'.registered.trans h.registered, fun i => (h'.requested i).trans (h.requested i)⟩

lemma Kin.targets {t t' : Table} (h : Kin t t') : t'.targets = t.targets := congrArg (List.map Prod.snd) h.registered

lemma kin_of_alike {t t' : Table} (h : Alike t t') : Kin t t' := ⟨h.registered, fun i => (h.target i).1⟩

lemma kin_repoint (t : Table) (id : TargetId) (r : Resolution) : Kin t (t.repoint id r).2 := by
  rcases t.repoint_cases id r with heq | ⟨-, -, heq⟩ <;> rw [heq]
  · exact Kin.refl t
  · exact ⟨rfl, fun i => (Table.frame_repointed t id r i).1⟩

lemma kin_refresh (sys : System σ) (id : TargetId) (e : Engine σ) : Kin e.table (e.refresh sys id).2.table := by
  rcases alike_refresh sys id e with ha | ⟨r, ha⟩
  · exact kin_of_alike ha
  · exact (kin_repoint e.table id r).trans (kin_of_alike ha)

lemma kin_handle (sys : System σ) (event : Event) (notified : List Path) (j : TargetId) (e : Engine σ) :
    Kin e.table (handle sys event (notified, e) j).2.table := by
  rcases handle_cases sys event notified j e with h | h | h <;> rw [h]
  · exact Kin.refl _
  · exact kin_refresh sys j e
  · exact (kin_refresh sys j e).trans (kin_of_alike (alike_notify _ _))

/-- The books of a listener within a batch: it has been handed its path `before` times, and once for each notice. -/
structure Booked (id : TargetId) (k : ListenerKey) (p : Path) (before : Nat) (s : List Path × Engine σ) : Prop where
  hears : Hears s.2.table id k
  requested : (s.2.table.target id).requested = p
  handed : handed k p s.2 = before + s.1.countP p.same

lemma booked_handle (sys : System σ) (event : Event) {notified : List Path} {before : Nat}
    (h : Booked id k p before (notified, e)) (hj : j = id ∨ (e.table.target j).requested.same p = false) :
    Booked id k p before (handle sys event (notified, e) j) := by
  have hquiet := quiet_refresh sys j e
  have hkin := kin_refresh sys j e
  have hears := h.hears.quiet hquiet
  have hreq : ((e.refresh sys j).2.table.target id).requested = p := (hkin.requested id).trans h.requested
  have hhanded : handed k p (e.refresh sys j).2 = before + notified.countP p.same := by
    rw [Engine.handed, hquiet.submitted]
    exact h.handed
  rcases handle_cases sys event notified j e with hcase | hcase | hcase <;> rw [hcase]
  · exact h
  · exact ⟨hears, hreq, hhanded⟩
  · have hother : j = id ∨ ((e.refresh sys j).2.table.target j).requested ≠ p := by
      refine hj.imp_right fun hne hp => ?_
      rw [hkin.requested] at hp
      simp [hp, Path.same] at hne
    obtain ⟨hears', hcount⟩ := handed_notify hears hreq hother
    have hreq' : (((e.refresh sys j).2.notify j).table.target id).requested = p :=
      ((alike_notify j _).target id).1.trans hreq
    have hone : [((e.refresh sys j).2.table.target j).requested].countP p.same = if j = id then 1 else 0 := by
      rcases hj with rfl | hne
      · simp [hreq, Path.same]
      · have hne' : j ≠ id := by
          rintro rfl
          simp [h.requested, Path.same] at hne
        have hflip : p.same (e.table.target j).requested = false := by
          rw [← Bool.not_eq_true, Path.same_iff] at hne ⊢
          exact fun hs => hne hs.symm
        rw [if_neg hne', hkin.requested]
        simp [hflip]
    have hcount' : handed k p ((e.refresh sys j).2.notify j) = before +
        (notified ++ [((e.refresh sys j).2.table.target j).requested]).countP p.same := by
      rw [List.countP_append, hone, ← Nat.add_assoc, ← hhanded]
      exact hcount
    exact ⟨hears', hreq', hcount'⟩

lemma booked_handleAll (sys : System σ) (event : Event) {ids : List TargetId} {s : List Path × Engine σ} {before : Nat}
    (h : Booked id k p before s) (hids : ∀ j ∈ ids, j = id ∨ (s.2.table.target j).requested.same p = false) :
    Booked id k p before (ids.foldl (handle sys event) s) ∧
      Kin s.2.table (ids.foldl (handle sys event) s).2.table := by
  induction ids generalizing s with
  | nil => exact ⟨h, Kin.refl _⟩
  | cons j ids ih =>
    obtain ⟨notified, e⟩ := s
    have hstep := booked_handle sys event h (hids j (by simp))
    have hkin := kin_handle sys event notified j e
    obtain ⟨hrest, hkin'⟩ := ih hstep fun i hi => by
      rw [hkin.requested]
      exact hids i (by simp [hi])
    exact ⟨hrest, hkin.trans hkin'⟩

lemma booked_handleEvent (sys : System σ) (event : Event) {notified : List Path} {before : Nat} (hr : Reachable e)
    (hid : id ∈ e.table.targets) (h : Booked id k p before (notified, e)) :
    Booked id k p before (handleEvent sys event notified e) ∧
      Kin e.table (handleEvent sys event notified e).2.table := by
  have hset := hr.settled
  have hsaid : Booked id k p before (notified, e.say (eventRecord event)) :=
    ⟨h.hears, h.requested, by rw [Engine.handed, (quiet_say _ e).submitted]; exact h.handed⟩
  refine booked_handleAll sys event hsaid fun j hj => ?_
  rw [table_say, hset.targetsFor_eq] at hj
  by_cases hsame : (e.table.target j).requested.components = (e.table.target id).requested.components
  · exact Or.inl (hset.eq_of_pathOf (List.mem_filter.mp hj).1 hid hsame)
  · right
    rw [table_say, ← Bool.not_eq_true, Path.same_iff, ← h.requested]
    exact hsame

lemma booked_runEvents (sys : System σ) (batch : List Event) {notified : List Path} {before : Nat} (hr : Reachable e)
    (hid : id ∈ e.table.targets) (h : Booked id k p before (notified, e)) :
    Booked id k p before (runEvents sys batch notified e) := by
  induction batch generalizing notified e with
  | nil => exact h
  | cons event rest ih =>
    rw [runEvents]
    dsimp only
    have hworld : Booked id k p before (notified, { e with world := (sys.overdue e.world).2 }) :=
      ⟨h.hears, h.requested, h.handed⟩
    have hrworld : Reachable { e with world := (sys.overdue e.world).2 } := hr.of_table_eq rfl
    split
    · exact ⟨h.hears, h.requested, by
        rw [Engine.handed, (quiet_say _ _).submitted]
        exact h.handed⟩
    · obtain ⟨hstep, hkin⟩ := booked_handleEvent sys event hrworld hid hworld
      have hrstep := hrworld.handleEvent sys event notified
      split
      · exact hstep
      · refine ih hrstep ?_ hstep
        rw [hkin.targets]
        exact hid

/-- **Notices are what listeners hear.** An own listener of a target is handed the path of the target once for each
notice of the target in a batch. -/
theorem handed_process (hr : Reachable e) (hid : id ∈ e.table.targets) (hears : Hears e.table id k)
    (sys : System σ) (batch : List Event) :
    handed k (e.table.target id).requested (process sys batch e) =
      handed k (e.table.target id).requested e + timesTold e.table (notices sys batch e) id := by
  have hstart : Booked id k (e.table.target id).requested (handed k (e.table.target id).requested e) ([], e) :=
    ⟨hears, rfl, by simp⟩
  have hbooked := booked_runEvents sys batch hr hid hstart
  rw [process, ← runEvents_snd]
  exact hbooked.handed

end LinkWatch.Engine
