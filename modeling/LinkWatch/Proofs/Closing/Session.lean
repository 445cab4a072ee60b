import LinkWatch.Proofs.Engine.Acts
import LinkWatch.Proofs.Listener.Dispatcher
import LinkWatch.Scripted.Session

/-!
What the threads of a session leave alone while they go on: nobody closes anything, the dispatcher accepts what it
accepted, and no time passes but where somebody waits (`Onward`, `onward_run`, `onward_advance`).
-/

namespace LinkWatch

namespace Dispatcher

variable {ready : Notification → Bool} {d : Dispatcher}

lemma accepting_takeSome (n : Nat) (d : Dispatcher) : (d.takeSome ready n).2.accepting = d.accepting := by
  induction n generalizing d with
  | zero => rfl
  | succ n ih =>
    rw [takeSome]
    split
    · rfl
    · rename_i x d' heq
      obtain ⟨w, -, htake⟩ := Option.bind_eq_some_iff.mp heq
      exact (ih d').trans (taken_of_take htake).accepting

lemma accepting_leaveAll (d : Dispatcher) : d.leaveAll.accepting = d.accepting := by
  have hall : ∀ (ws : List Nat) (d : Dispatcher),
      (ws.foldl (fun d w => (d.leave w).getD d) d).accepting = d.accepting := by
    intro ws
    induction ws with
    | nil => exact fun _ => rfl
    | cons w ws ih =>
      intro d
      refine (ih _).trans ?_
      cases hleave : d.leave w with
      | none => simp [hleave]
      | some d' => simpa [hleave] using (left_of_leave hleave).accepting
  exact hall _ d

end Dispatcher

namespace Engine

variable {σ ρ : Type} {part : σ → ρ} {e e' : Engine σ}

lemma part_acts (h : Acts part e e') : part e'.world = part e.world := by
  induction h with
  | refl => rfl
  | tail _ hact ih =>
    cases hact with
    | aside ha => exact ha.part.trans ih
    | submit n => rwa [world_submit]

lemma accepting_acts (h : Acts part e e') : e'.dispatcher.accepting = e.dispatcher.accepting := by
  induction h with
  | refl => rfl
  | tail _ hact ih =>
    cases hact with
    | aside ha => rwa [ha.dispatcher]
    | submit n => rwa [dispatcher_submit, Dispatcher.accepting_submit]

end Engine

namespace Scripted

lemma World.now_spring (p : Path) (w : World) : (w.spring p).now = w.now := by
  unfold World.spring
  dsimp only
  split <;> split <;> rfl

lemma World.spares_now : World.system.Spares World.now where
  entryKind p w := by
    unfold World.system
    dsimp only
    split <;> exact World.now_spring p w
  readLink _ _ := rfl
  currentDir _ := rfl
  watch _ _ := rfl
  unwatch _ _ := rfl

/-- A step of the event loop's thread. -/
lemma World.step_spares (t : LoopThread) (e : Engine World) :
    (t.step World.system e).2.world.now = e.world.now ∧
      (t.step World.system e).2.dispatcher.accepting = e.dispatcher.accepting := by
  cases t with
  | starting => exact ⟨rfl, rfl⟩
  | idle => exact ⟨rfl, rfl⟩
  | reading =>
    have hnow : (World.system.next e.world).2.now = e.world.now := rfl
    simp only [LoopThread.step]
    split <;> rename_i heq <;> rw [heq] at hnow <;> exact ⟨hnow, rfl⟩
  | busy events notified =>
    cases events with
    | nil => exact ⟨rfl, rfl⟩
    | cons event rest =>
      have hacts := Engine.acts_handleEvent World.spares_now event notified e
      have hevent := And.intro (Engine.part_acts hacts) (Engine.accepting_acts hacts)
      have htime : (World.system.overdue e.world).2 = e.world := rfl
      simp only [LoopThread.step, htime]
      split
      · exact ⟨rfl, rfl⟩
      · split <;> exact hevent
  | leaving => exact ⟨rfl, rfl⟩
  | ended => exact ⟨rfl, rfl⟩
  | dead => exact ⟨rfl, rfl⟩

namespace Session

variable {s s' s'' : Session}

/-- Nobody has closed anything, and the dispatcher accepts what it accepted. -/
structure Onward (s s' : Session) : Prop where
  lifecycle : s'.watcher.lifecycle = s.watcher.lifecycle
  drainTimeout : s'.drainTimeout = s.drainTimeout
  shutdownRequested : s'.shutdownRequested = s.shutdownRequested
  broken : s'.broken = s.broken
  accepting : s'.engine.dispatcher.accepting = s.engine.dispatcher.accepting

lemma Onward.refl (s : Session) : Onward s s := ⟨rfl, rfl, rfl, rfl, rfl⟩

lemma Onward.trans (h : Onward s s') (h' : Onward s' s'') : Onward s s'' where
  lifecycle := h'.lifecycle.trans h.lifecycle
  drainTimeout := h'.drainTimeout.trans h.drainTimeout
  shutdownRequested := h'.shutdownRequested.trans h.shutdownRequested
  broken := h'.broken.trans h.broken
  accepting := h'.accepting.trans h.accepting

lemma onward_stepThread (s : Session) : Onward s s.stepThread ∧ s.stepThread.world.now = s.world.now := by
  obtain ⟨hnow, haccepting⟩ := World.step_spares s.thread
    { (s.own.modifyWorld fun w => { w with onLoop := true }).engine with actor := .eventLoop }
  unfold stepThread
  dsimp only
  split <;> exact ⟨⟨rfl, rfl, rfl, rfl, haccepting⟩, hnow⟩

lemma onward_steps (n : Nat) (s : Session) : Onward s (steps n s) ∧ (steps n s).world.now = s.world.now := by
  induction n generalizing s with
  | zero => exact ⟨.refl s, rfl⟩
  | succ n ih =>
    rw [steps]
    split
    · exact ⟨.refl s, rfl⟩
    · obtain ⟨hstep, hnow⟩ := onward_stepThread s
      obtain ⟨hrest, hnow'⟩ := ih s.stepThread
      exact ⟨hstep.trans hrest, hnow'.trans hnow⟩

lemma onward_settle (s : Session) : Onward s s.settle ∧ s.settle.world.now = s.world.now := by
  have haccepting : (s.engine.dispatcher.drain s.roster.ready).2.leaveAll.accepting = s.engine.dispatcher.accepting :=
    (Dispatcher.accepting_leaveAll _).trans (Dispatcher.accepting_takeSome _ _)
  exact ⟨⟨rfl, rfl, rfl, rfl, haccepting⟩, rfl⟩

lemma onward_run (s : Session) : Onward s s.run ∧ s.run.world.now = s.world.now := by
  obtain ⟨hsteps, hnow⟩ := onward_steps s.bound s
  obtain ⟨hsettle, hnow'⟩ := onward_settle (steps s.bound s)
  exact ⟨hsteps.trans hsettle, hnow'.trans hnow⟩

lemma onward_wait (now : Instant) (s : Session) : Onward s (s.modifyWorld fun w => { w with now }) :=
  ⟨rfl, rfl, rfl, rfl, rfl⟩

/-- Time passes no further than to where it may. -/
lemma onward_advance {limit : Instant} (h : s.world.now.nanos ≤ limit.nanos) :
    Onward s (s.advance limit) ∧ (s.advance limit).world.now.nanos ≤ limit.nanos := by
  obtain ⟨hrun, hnow⟩ := onward_run s
  unfold advance
  generalize s.run = r at hrun hnow ⊢
  dsimp only
  split
  · exact ⟨hrun, hnow ▸ h⟩
  · split
    · rename_i hwakes
      split
      · have hlate : ∀ wakes, Onward r { r with wakes } := fun _ => ⟨rfl, rfl, rfl, rfl, rfl⟩
        exact ⟨(hrun.trans (hlate _)).trans (onward_wait limit _), Nat.le_refl _⟩
      · -- the thread wakes within that time, and goes on
        obtain ⟨hstep, hnow'⟩ := onward_stepThread (r.modifyWorld fun w => { w with now := r.wakes })
        obtain ⟨hrest, hnow''⟩ := onward_run (r.modifyWorld fun w => { w with now := r.wakes }).stepThread
        refine ⟨((hrun.trans (onward_wait r.wakes r)).trans hstep).trans hrest, ?_⟩
        rw [hnow'', hnow']
        exact hwakes
    · exact ⟨hrun.trans (onward_wait limit r), Nat.le_refl _⟩

end Session

end Scripted

end LinkWatch
