import LinkWatch.Loop.Control
import LinkWatch.Proofs.Engine.Submitted

/-!
Where a batch is cut. Before each event the clock is read, and once a drain request has run out of time the rest of the
batch is dropped with a warning. How many events are handled until then (`cutoff`) is all that depends on the request:
these are handled as if nothing ever ran out of time (`handleEvents_cutoff`), each to its end. So a deadline that
passes while an event is handled counts from the next event on (`process_timed`).
-/

namespace LinkWatch

variable {σ : Type}

/-- The same system, in which nothing runs out of time. Its clock is read all the same. -/
def System.unhurried (sys : System σ) : System σ := { sys with overdue := fun s => (false, (sys.overdue s).2) }

/-- A system with a clock, around an event loop in whatever state `control` finds it. -/
def System.timed (sys : System σ) (control : σ → LoopControl) (clock : σ → Instant × σ) : System σ :=
  { sys with overdue := fun s => ((control (clock s).2).overdue (clock s).1, (clock s).2) }

/-- Nobody has asked the loop to drain. -/
lemma System.timed_fresh (sys : System σ) (control : σ → LoopControl) (clock : σ → Instant × σ) :
    sys.timed (fun _ => {}) clock = (sys.timed control clock).unhurried := rfl

namespace Engine

variable {sys : System σ} {e e' e'' : Engine σ}

/-! ### Warnings -/

/-- The warning about dropped events that an effect is. -/
def warning? : Effect → Option Log.Record
  | .log _ r => if r.message = (droppedRecord 0).message then some r else none
  | _ => none

/-- The warnings about dropped events so far, in order. -/
def warnings (e : Engine σ) : List Log.Record := e.effects.filterMap warning?

/-- The same one is at work, and warns of nothing. -/
structure Unwarned (e e' : Engine σ) : Prop where
  actor : e'.actor = e.actor
  warnings : warnings e' = warnings e

lemma Unwarned.refl (e : Engine σ) : Unwarned e e := ⟨rfl, rfl⟩

lemma Unwarned.trans (h : Unwarned e e') (h' : Unwarned e' e'') : Unwarned e e'' :=
  ⟨h'.actor.trans h.actor, h'.warnings.trans h.warnings⟩

lemma warnings_dropped (n : Nat) (e : Engine σ) :
    warnings (e.say (droppedRecord n)) = warnings e ++ [droppedRecord n] := by
  simp [warnings, say, warning?, droppedRecord]

lemma unwarned_say {r : Log.Record} (h : r.message ≠ (droppedRecord 0).message) (e : Engine σ) :
    Unwarned e (e.say r) :=
  ⟨rfl, by simp [warnings, say, warning?, h]⟩

lemma unwarned_watch (native : NativeWatches σ) (dir : Path) (e : Engine σ) : Unwarned e (e.watch native dir) := by
  unfold watch
  rcases native.watch dir e.world with ⟨answer, world⟩
  have hasked : Unwarned e { e with world, effects := e.effects ++ [Effect.watch dir answer] } :=
    ⟨rfl, by simp [warnings, warning?]⟩
  cases answer with
  | ok u => exact ⟨rfl, hasked.warnings⟩
  | error err => exact hasked.trans (unwarned_say (by simp [refusedRecord, droppedRecord]) _)

lemma unwarned_unwatch (native : NativeWatches σ) (dir : Path) (e : Engine σ) :
    Unwarned e (e.unwatch native dir) := by
  unfold unwatch
  rcases native.unwatch dir e.world with ⟨answer, world⟩
  have hasked : Unwarned e { e with world, effects := e.effects ++ [Effect.unwatch dir answer],
                                    table := e.table.disarm dir } := ⟨rfl, by simp [warnings, warning?]⟩
  cases answer with
  | ok u => exact hasked
  | error err => exact hasked.trans (unwarned_say (by simp [unreleasedRecord, droppedRecord]) _)

lemma unwarned_sync (native : NativeWatches σ) (dirs : List Path) (e : Engine σ) :
    Unwarned e (e.sync native dirs) := by
  induction dirs generalizing e with
  | nil => exact Unwarned.refl e
  | cons dir dirs ih =>
    refine Unwarned.trans ?_ (ih (e.syncOne native dir))
    unfold syncOne
    split
    · exact unwarned_watch native dir e
    · exact unwarned_unwatch native dir e
    · exact Unwarned.refl e

lemma unwarned_refresh (sys : System σ) (id : TargetId) (e : Engine σ) : Unwarned e (e.refresh sys id).2 := by
  unfold refresh
  dsimp only
  generalize resolve sys.toFilesystem (e.table.target id).requested e.world = out
  obtain ⟨answer, world⟩ := out
  have hworld : Unwarned e { e with world } := ⟨rfl, rfl⟩
  by_cases hhalted : sys.halted world = true
  · simpa [hhalted] using hworld
  · cases answer with
    | error err =>
      simp only [hhalted, Bool.false_eq_true, if_false]
      exact hworld.trans (unwarned_say (by simp [droppedRecord]) _)
    | ok r =>
      simp only [hhalted, Bool.false_eq_true, if_false]
      rcases e.table.repoint_cases id r with heq | ⟨-, -, heq⟩ <;> rw [repoint, heq]
      · exact hworld
      · have hmoved : Unwarned e { e with world, table := e.table.repointed id r } := ⟨rfl, rfl⟩
        exact (hmoved.trans (unwarned_sync sys.toNativeWatches _ _)).trans (unwarned_say (by simp [droppedRecord]) _)

lemma unwarned_submitAll (f : ListenerKey → Notification) (ks : List ListenerKey) (e : Engine σ) :
    Unwarned e (ks.foldl (fun e k => e.submit (f k)) e) := by
  induction ks generalizing e with
  | nil => exact Unwarned.refl e
  | cons k ks ih =>
    refine Unwarned.trans ?_ (ih (e.submit (f k)))
    unfold submit
    dsimp only
    have hhanded : Unwarned e { e with dispatcher := (e.dispatcher.submit (f k)).2,
                                       effects := e.effects ++ [Effect.submit (f k) (e.dispatcher.submit (f k)).1] } :=
      ⟨rfl, by simp [warnings, warning?]⟩
    split
    · exact hhanded
    · exact hhanded.trans (unwarned_say (by simp [Dispatcher.dropRecord, Dispatcher.record, droppedRecord]) _)

lemma unwarned_live (scope : Table.Scope) (e : Engine σ) : Unwarned e (e.live scope).2 := ⟨rfl, rfl⟩

lemma unwarned_notify (id : TargetId) (e : Engine σ) : Unwarned e (e.notify id) := by
  unfold notify
  dsimp only
  refine Unwarned.trans ?_ (unwarned_submitAll _ _ _)
  refine Unwarned.trans ?_ (unwarned_live .all _)
  refine Unwarned.trans ?_ (unwarned_submitAll _ _ _)
  exact (unwarned_say (by simp [droppedRecord]) e).trans (unwarned_live (.only id) _)

lemma unwarned_handle (sys : System σ) (event : Event) (s : List Path × Engine σ) (id : TargetId) :
    Unwarned s.2 (handle sys event s id).2 := by
  obtain ⟨notified, e⟩ := s
  rcases handle_cases sys event notified id e with heq | heq | heq <;> rw [heq]
  · exact Unwarned.refl e
  · exact unwarned_refresh sys id e
  · exact (unwarned_refresh sys id e).trans (unwarned_notify id _)

lemma unwarned_handleEvent (sys : System σ) (event : Event) (notified : List Path) (e : Engine σ) :
    Unwarned e (handleEvent sys event notified e).2 := by
  have hall : ∀ (ids : List TargetId) (s : List Path × Engine σ),
      Unwarned s.2 (ids.foldl (handle sys event) s).2 := by
    intro ids
    induction ids with
    | nil => exact fun s => Unwarned.refl s.2
    | cons id ids ih => exact fun s => (unwarned_handle sys event s id).trans (ih _)
  exact (unwarned_say (by simp [eventRecord, droppedRecord]) e).trans (hall _ (notified, e.say (eventRecord event)))

/-- Where nothing runs out of time, an event is handled and then the next, unless the thread has died. -/
lemma handleEvents_unhurried (sys : System σ) (event : Event) (rest : List Event) (notified : List Path)
    (e : Engine σ) : handleEvents sys.unhurried (event :: rest) notified e =
      let next := handleEvent sys event notified { e with world := (sys.overdue e.world).2 }
      if sys.halted next.2.world then next.2 else handleEvents sys.unhurried rest next.1 next.2 := rfl

/-- Where nothing runs out of time, nothing is dropped. -/
lemma unwarned_unhurried (sys : System σ) (batch : List Event) (notified : List Path) (e : Engine σ) :
    Unwarned e (handleEvents sys.unhurried batch notified e) := by
  induction batch generalizing notified e with
  | nil => exact Unwarned.refl e
  | cons event rest ih =>
    have hread : Unwarned e { e with world := (sys.overdue e.world).2 } := ⟨rfl, rfl⟩
    have hevent := hread.trans (unwarned_handleEvent sys event notified _)
    rw [handleEvents_unhurried]
    dsimp only
    split
    · exact hevent
    · exact hevent.trans (ih _ _)

/-! ### The cut -/

/-- How many events of a batch are handled before the rest is dropped; all of them if nothing is dropped. -/
def cutoff (sys : System σ) : List Event → List Path → Engine σ → Nat
  | [], _, _ => 0
  | event :: rest, notified, e =>
    let (late, world) := sys.overdue e.world
    let e := { e with world }
    if late then 0
    else
      let (notified, e) := handleEvent sys event notified e
      if sys.halted e.world then rest.length + 1 else cutoff sys rest notified e + 1

lemma cutoff_le (sys : System σ) (batch : List Event) (notified : List Path) (e : Engine σ) :
    cutoff sys batch notified e ≤ batch.length := by
  induction batch generalizing notified e with
  | nil => exact Nat.le_refl 0
  | cons event rest ih =>
    rw [cutoff, List.length_cons]
    dsimp only
    split
    · exact Nat.zero_le _
    · split
      · exact Nat.le_refl _
      · exact Nat.succ_le_succ (ih _ _)

/-- The engine once the first events of a batch are handled while nothing runs out of time. -/
def through (sys : System σ) (batch : List Event) (notified : List Path) (e : Engine σ) (k : Nat) : Engine σ :=
  handleEvents sys.unhurried (batch.take k) notified e

lemma through_succ (sys : System σ) (event : Event) (rest : List Event) (notified : List Path) (e : Engine σ)
    (k : Nat) : through sys (event :: rest) notified e (k + 1) =
      let next := handleEvent sys event notified { e with world := (sys.overdue e.world).2 }
      if sys.halted next.2.world then next.2 else through sys rest next.1 next.2 k := rfl

/-- A batch is handled up to its cut as if nothing ran out of time, and the rest is dropped. -/
lemma handleEvents_cutoff (sys : System σ) (batch : List Event) (notified : List Path) (e : Engine σ) :
    let k := cutoff sys batch notified e
    let handled := through sys batch notified e k
    handleEvents sys batch notified e =
      if k < batch.length then
        { handled with world := (sys.overdue handled.world).2 }.say (droppedRecord (batch.length - k))
      else handled := by
  induction batch generalizing notified e with
  | nil => rfl
  | cons event rest ih =>
    rw [handleEvents, cutoff]
    dsimp only
    split
    · rfl
    · split
      · rename_i hhalted
        rw [List.length_cons, if_neg (Nat.lt_irrefl _), through_succ]
        dsimp only
        rw [if_pos hhalted]
      · rename_i hhalted
        rw [ih, through_succ]
        dsimp only
        rw [if_neg hhalted, List.length_cons, Nat.add_sub_add_right]
        simp only [Nat.add_lt_add_iff_right]

/-- What is left is dropped because time has run out. -/
lemma late_of_cutoff_lt {batch : List Event} {notified : List Path} (h : cutoff sys batch notified e < batch.length) :
    (sys.overdue (through sys batch notified e (cutoff sys batch notified e)).world).1 = true := by
  induction batch generalizing notified e with
  | nil => exact absurd h (Nat.lt_irrefl 0)
  | cons event rest ih =>
    rw [cutoff] at h ⊢
    dsimp only at h ⊢
    split at h
    · rename_i hlate
      rw [if_pos hlate]
      exact hlate
    · rename_i hlate
      rw [if_neg hlate]
      split at h
      · exact absurd h (Nat.lt_irrefl _)
      · rename_i hhalted
        rw [if_neg hhalted, through_succ]
        dsimp only
        rw [if_neg hhalted]
        exact ih (Nat.lt_of_succ_lt_succ h)

/-- Until then time has not run out, unless the thread has died before it could tell. -/
lemma onTime_of_lt_cutoff {batch : List Event} {notified : List Path} {j : Nat}
    (h : j < cutoff sys batch notified e) :
    (sys.overdue (through sys batch notified e j).world).1 = false ∨
      sys.halted (through sys batch notified e j).world = true := by
  induction batch generalizing notified e j with
  | nil => exact absurd h (Nat.not_lt_zero j)
  | cons event rest ih =>
    rw [cutoff] at h
    dsimp only at h
    split at h
    · exact absurd h (Nat.not_lt_zero j)
    · rename_i hlate
      cases j with
      | zero => exact Or.inl (Bool.not_eq_true _ ▸ hlate)
      | succ j =>
        rw [through_succ]
        dsimp only
        split at h <;> rename_i hhalted
        · rw [if_pos hhalted]
          exact Or.inr hhalted
        · rw [if_neg hhalted]
          exact ih (Nat.lt_of_succ_lt_succ h)

/-- What is logged of the events that are dropped. -/
def remainder (sys : System σ) (batch : List Event) (notified : List Path) (e : Engine σ) : List Log.Record :=
  if cutoff sys batch notified e < batch.length then
    [droppedRecord (batch.length - cutoff sys batch notified e)]
  else []

lemma warnings_handleEvents (sys : System σ) (batch : List Event) (notified : List Path) (e : Engine σ) :
    warnings (handleEvents sys batch notified e) = warnings e ++ remainder sys batch notified e := by
  have hhandled := (unwarned_unhurried sys (batch.take (cutoff sys batch notified e)) notified e).warnings
  rw [handleEvents_cutoff, remainder]
  split
  · rw [warnings_dropped]
    exact congrArg (· ++ _) hhandled
  · rw [List.append_nil]
    exact hhandled

lemma droppedRecord_inj {m n : Nat} (h : droppedRecord m = droppedRecord n) : m = n := by
  have hfields : toString m = toString n := by simpa [droppedRecord] using h
  have hdigits : Nat.toDigits 10 m = Nat.toDigits 10 n := by
    rwa [Nat.toString_eq_ofList_toDigits, Nat.toString_eq_ofList_toDigits, String.ofList_inj] at hfields
  rw [← Nat.ofDigitChars_ten_toDigits (n := m), hdigits, Nat.ofDigitChars_ten_toDigits]

lemma cutoff_eq_of_remainder {sys' : System σ} {batch : List Event} {notified : List Path}
    (h : remainder sys batch notified e = remainder sys' batch notified e) :
    cutoff sys batch notified e = cutoff sys' batch notified e := by
  have hle := cutoff_le sys batch notified e
  have hle' := cutoff_le sys' batch notified e
  unfold remainder at h
  split at h <;> split at h
  · have hleft := droppedRecord_inj (List.singleton_inj.mp h)
    omega
  · cases h
  · cases h
  · omega

/-- Systems that differ in what they find late alone do the same to a batch just if they cut it at the same place. -/
lemma handleEvents_eq_iff {sys' : System σ} (h : sys.unhurried = sys'.unhurried) (batch : List Event)
    (notified : List Path) (e : Engine σ) :
    handleEvents sys batch notified e = handleEvents sys' batch notified e ↔
      cutoff sys batch notified e = cutoff sys' batch notified e := by
  constructor
  · intro heq
    have hwarnings := congrArg warnings heq
    rw [warnings_handleEvents, warnings_handleEvents] at hwarnings
    exact cutoff_eq_of_remainder (List.append_cancel_left hwarnings)
  · intro heq
    have hclock : ∀ s, (sys.overdue s).2 = (sys'.overdue s).2 := fun s => by
      have hread : (sys.unhurried.overdue s).2 = (sys'.unhurried.overdue s).2 := by rw [h]
      exact hread
    have hthrough : ∀ k, through sys batch notified e k = through sys' batch notified e k := fun k => by
      rw [through, through, h]
    rw [handleEvents_cutoff, handleEvents_cutoff, heq, hthrough, hclock]

/-! ### Drain requests -/

/-- **A batch is cut between two events.** However a drain request runs out of time, be it while an event is handled, a
batch does what its first events do when nobody asks for a drain, and the rest is dropped, with one warning that counts
it. The cut comes before the first event at which time has run out. -/
theorem process_timed (sys : System σ) (control : σ → LoopControl) (clock : σ → Instant × σ)
    (batch : List Event) (e : Engine σ) : ∃ k ≤ batch.length,
      let undrained (j : Nat) := process (sys.timed (fun _ => {}) clock) (batch.take j) e
      let late (j : Nat) := ((sys.timed control clock).overdue (undrained j).world).1
      let drained := process (sys.timed control clock) batch e
      let dropped := if k < batch.length then [droppedRecord (batch.length - k)] else []
      (drained.table = (undrained k).table ∧ drained.dispatcher = (undrained k).dispatcher ∧
        drained.effects = (undrained k).effects ++ dropped.map (Effect.log e.actor)) ∧
      warnings drained = warnings e ++ dropped ∧
      (k < batch.length → late k = true) ∧
      ∀ j < k, late j = false ∨ sys.halted (undrained j).world = true := by
  let timed := sys.timed control clock
  let k := cutoff timed batch [] e
  have hlate : k < batch.length → (timed.overdue (through timed batch [] e k).world).1 = true := late_of_cutoff_lt
  have honTime : ∀ j < k, (timed.overdue (through timed batch [] e j).world).1 = false ∨
      timed.halted (through timed batch [] e j).world = true := fun j hj => onTime_of_lt_cutoff hj
  refine ⟨k, cutoff_le timed batch [] e, ?_, warnings_handleEvents timed batch [] e, hlate, honTime⟩
  have hactor : (through timed batch [] e k).actor = e.actor := (unwarned_unhurried timed (batch.take k) [] e).actor
  have hcut : process timed batch e = if k < batch.length then
      { through timed batch [] e k with world := (timed.overdue (through timed batch [] e k).world).2 }.say
        (droppedRecord (batch.length - k))
    else through timed batch [] e k := handleEvents_cutoff timed batch [] e
  rw [hcut, sys.timed_fresh control clock]
  split
  · refine ⟨rfl, rfl, ?_⟩
    rw [← hactor]
    rfl
  · exact ⟨rfl, rfl, (List.append_nil _).symm⟩

/-- Every question about an entry takes ten ticks of the clock. -/
def slow : System Nat where
  entryKind _ s := (.ok .file, s + 10)
  readLink _ s := (.error (.os .invalid), s)
  currentDir s := (.ok .root, s)
  watch _ s := (.ok (), s)
  unwatch _ s := (.ok (), s)

/-- Time runs out while the first of three events is handled: it is handled to its end, and two are dropped. -/
example :
    let a : Path := ⟨[0x2f, 0x61]⟩
    let e := (Engine.register slow.toNativeWatches a (.plain a) { dispatcher := { workers := [] }, world := 0 }).2
    let event : Event := ⟨⟨.root, [0x61]⟩, .modify⟩
    cutoff (slow.timed (fun _ => { state := .draining, deadline := some ⟨5⟩ }) fun s => (⟨s⟩, s))
      [event, event, event] [] e = 1 := by
  decide +kernel

end Engine

end LinkWatch
