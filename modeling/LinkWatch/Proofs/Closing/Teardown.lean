import LinkWatch.Proofs.Closing.ThreadedWatcher

/-!
What a closing leaves behind.
-/

namespace LinkWatch.ThreadedWatcher

open Dispatcher (Shift DispatchEvent)

variable {τ : Type} {out : Outside τ} {s s' : ThreadedWatcher τ}

/-! ### What a step leaves as it is -/

/-- A step of the loop that handles no event and is not its last submits nothing. -/
lemma aside_loop {t : LoopThread} {e : Engine (Surroundings τ)}
    (h : ∀ event rest notified, t = .busy (event :: rest) notified → (out.system.overdue e.world).1 = true)
    (hleaving : t ≠ .leaving) : Engine.Aside Surroundings.control e (t.step out.system e).2 := by
  cases t with
  | starting => exact Engine.aside_say _ e
  | idle => exact .refl _ e
  | reading =>
    simp only [LoopThread.step]
    have hnext : (out.system.next e.world).2.control = e.world.control := rfl
    split <;> rename_i world heq <;> rw [heq] at hnext
    · exact Engine.aside_world hnext
    · exact Engine.aside_world hnext
    · exact (Engine.aside_world hnext).trans (Engine.aside_say _ _)
    · exact (Engine.aside_world hnext).trans (Engine.aside_say _ _)
  | busy events notified =>
    cases events with
    | nil => exact .refl _ e
    | cons event rest =>
      have hlate := h event rest notified rfl
      simp only [LoopThread.step, hlate, if_true]
      exact Engine.aside_say _ e
  | leaving => exact absurd rfl hleaving
  | ended => exact .refl _ e
  | dead => exact .refl _ e

lemma submitted_loop {t : LoopThread} {e : Engine (Surroundings τ)}
    (h : ∀ event rest notified, t = .busy (event :: rest) notified → (out.system.overdue e.world).1 = true) :
    (t.step out.system e).2.dispatcher = e.dispatcher ∧
      Engine.submitted (t.step out.system e).2 = Engine.submitted e := by
  by_cases hleaving : t = .leaving
  · subst hleaving
    exact ⟨rfl, (Engine.quiet_say _ e).submitted⟩
  · have haside := aside_loop h hleaving
    exact ⟨haside.dispatcher, haside.submitted⟩

/-- The loop is over after such a step only if it was, or left just now. -/
lemma isOver_loop {t : LoopThread} {e : Engine (Surroundings τ)}
    (h : ∀ event rest notified, t = .busy (event :: rest) notified → (out.system.overdue e.world).1 = true)
    (hover : (t.step out.system e).1.isOver = true) : t = .leaving ∨ t.isOver = true ∧ (t.step out.system e).1 = t := by
  cases t with
  | starting => cases hover
  | idle =>
    simp only [LoopThread.step] at hover
    split at hover <;> cases hover
  | reading =>
    simp only [LoopThread.step] at hover
    split at hover <;> cases hover
  | busy events notified =>
    cases events with
    | nil => cases hover
    | cons event rest =>
      have hlate := h event rest notified rfl
      simp only [LoopThread.step, hlate, if_true] at hover
      cases hover
  | leaving => exact .inl rfl
  | ended => exact .inr ⟨rfl, rfl⟩
  | dead => exact .inr ⟨rfl, rfl⟩

/-- What a stage of a closing does to the rest: at most it shuts the dispatcher down. -/
structure Spared (s s' : ThreadedWatcher τ) : Prop where
  thread : s'.thread = s.thread
  submitted : Engine.submitted s'.engine = Engine.submitted s.engine
  stopped : s.engine.world.control.state = .stopped → s'.engine.world.control.state = .stopped
  shift : s'.shift = s.shift ∨ s.shift.step .shutdown = some s'.shift

lemma spared_stopLoop (deadline : Option Instant) (s : ThreadedWatcher τ) : Spared s (s.stopLoop deadline) := by
  cases deadline with
  | none => exact ⟨rfl, rfl, id, .inl rfl⟩
  | some deadline =>
    cases hstate : s.engine.world.control.state with
    | running =>
      simp only [stopLoop, LoopControl.requestDrain, hstate, if_true]
      refine ⟨rfl, (Engine.quiet_say _ _).submitted, fun h => ?_, .inl rfl⟩
      rw [hstate] at h
      cases h
    | draining =>
      simp only [stopLoop, LoopControl.requestDrain, hstate, Bool.false_eq_true, if_false]
      refine ⟨rfl, rfl, fun h => ?_, .inl rfl⟩
      rw [hstate] at h
      cases h
    | stopped =>
      simp only [stopLoop, LoopControl.requestDrain, hstate, Bool.false_eq_true, if_false]
      exact ⟨rfl, rfl, fun _ => rfl, .inl rfl⟩

lemma spared_stopWorkers (s : ThreadedWatcher τ) : Spared s s.stopWorkers := by
  unfold stopWorkers
  dsimp only
  split
  · exact ⟨rfl, (Engine.quiet_say _ _).submitted, id, .inr rfl⟩
  · exact ⟨rfl, rfl, id, .inr rfl⟩

lemma spared_close (deadline : Option Instant) (s : ThreadedWatcher τ) : Spared s (s.close out deadline) := by
  unfold close
  cases hstage : s.stage with
  | enter =>
    simp only [Lifecycle.Stage.step]
    split
    · exact ⟨rfl, (Engine.quiet_say _ _).submitted, id, .inl rfl⟩
    · exact ⟨rfl, rfl, id, .inl rfl⟩
  | source =>
    simp only [Lifecycle.Stage.step, premises]
    split <;> rename_i heq <;> obtain ⟨-, rfl⟩ := Prod.mk.inj heq
    · exact ⟨rfl, rfl, id, .inl rfl⟩
    · exact ⟨rfl, (Engine.quiet_say _ _).submitted, id, .inl rfl⟩
  | check p =>
    simp only [Lifecycle.Stage.step]
    split
    · exact ⟨rfl, (Engine.quiet_say _ _).submitted, id, .inl rfl⟩
    · exact ⟨rfl, rfl, id, .inl rfl⟩
  | stop p =>
    cases p with
    | loop =>
      obtain ⟨hthread, hsubmitted, hstopped, hshift⟩ := spared_stopLoop deadline s
      exact ⟨hthread, hsubmitted, hstopped, hshift⟩
    | workers =>
      obtain ⟨hthread, hsubmitted, hstopped, hshift⟩ := spared_stopWorkers s
      exact ⟨hthread, hsubmitted, hstopped, hshift⟩
  | await p =>
    cases p <;> cases deadline <;> simp only [Lifecycle.Stage.step, premises, await] <;> split <;>
      first
      | exact ⟨rfl, rfl, id, .inl rfl⟩
      | exact ⟨rfl, (Engine.quiet_say _ _).submitted, id, .inl rfl⟩
  | report => exact ⟨rfl, (Engine.quiet_say _ _).submitted, id, .inl rfl⟩
  | ended => exact ⟨rfl, rfl, id, .inl rfl⟩

/-! ### The order of a closing -/

/-- How far the closing is, and what it has done: it waits for the loop first, shuts the dispatcher down whatever
the loop's wait answered, and waits for the workers. -/
def Order (s : ThreadedWatcher τ) : Prop :=
  match s.stage with
  | .enter =>
    s.waits = [] ∧ s.engine.dispatcher.accepting = true ∧ s.broken = false ∧ s.stopping = false ∧
      s.lifecycle.closed = false
  | .source => s.waits = [] ∧ s.engine.dispatcher.accepting = true ∧ s.broken = false ∧ s.stopping = false
  | .check .loop => s.waits = [] ∧ s.engine.dispatcher.accepting = true ∧ s.broken = false ∧ s.stopping = false
  | .stop .loop => s.waits = [] ∧ s.engine.dispatcher.accepting = true ∧ s.broken = false
  | .await .loop => s.waits = [] ∧ s.engine.dispatcher.accepting = true ∧ s.broken = false
  | .check .workers => (∃ a, s.waits = [(.loop, some a)]) ∧ s.engine.dispatcher.accepting = true ∧ s.broken = false
  | .stop .workers => (∃ a, s.waits = [(.loop, some a)]) ∧ s.engine.dispatcher.accepting = true ∧ s.broken = false
  | .await .workers => (∃ a, s.waits = [(.loop, some a)]) ∧ s.engine.dispatcher.accepting = false ∧ s.broken = false
  | .report => (∃ a b, s.waits = [(.loop, some a), (.workers, some b)]) ∧ s.engine.dispatcher.accepting = false
  | .ended =>
    (∃ a b, s.waits = [(.loop, some a), (.workers, b)] ∧ (b = none → s.broken = true)) ∧
        s.engine.dispatcher.accepting = false ∨
      (s.waits = [] ∨ s.waits = [(.loop, none)]) ∧ s.broken = true

lemma Order.congr (h : s.Order) (hstage : s'.stage = s.stage) (hwaits : s'.waits = s.waits)
    (haccepting : s'.engine.dispatcher.accepting = s.engine.dispatcher.accepting) (hbroken : s'.broken = s.broken)
    (hstopping : s'.stopping = s.stopping) (hlifecycle : s'.lifecycle = s.lifecycle) : s'.Order := by
  unfold Order at *
  rw [hstage, hwaits, haccepting, hbroken, hstopping, hlifecycle]
  exact h

lemma Order.close (h : s.Order) (deadline : Option Instant) : (s.close out deadline).Order := by
  unfold ThreadedWatcher.close
  cases hstage : s.stage with
  | enter =>
    simp only [Order, hstage] at h
    obtain ⟨hwaits, haccepting, hbroken, hstopping, hclosed⟩ := h
    simp [Lifecycle.Stage.step, Order, hwaits, haccepting, hbroken, hstopping, hclosed]
  | source =>
    simp only [Order, hstage] at h
    simp only [Lifecycle.Stage.step, premises]
    split <;> rename_i heq <;> obtain ⟨-, rfl⟩ := Prod.mk.inj heq <;> exact h
  | check p =>
    cases p with
    | loop =>
      simp only [Order, hstage] at h
      obtain ⟨hwaits, haccepting, hbroken, hstopping⟩ := h
      simp [Lifecycle.Stage.step, premises, Order, hwaits, haccepting, hbroken, hstopping]
    | workers =>
      simp only [Order, hstage] at h
      obtain ⟨⟨a, hwaits⟩, haccepting, hbroken⟩ := h
      simp [Lifecycle.Stage.step, premises, Order, hwaits, haccepting, hbroken]
  | stop p =>
    cases p with
    | loop =>
      simp only [Order, hstage] at h
      obtain ⟨hwaits, haccepting, hbroken⟩ := h
      cases deadline with
      | none => simp [Lifecycle.Stage.step, premises, stopLoop, Order, hwaits]
      | some deadline =>
        cases hstate : s.engine.world.control.state <;>
          simp [Lifecycle.Stage.step, premises, stopLoop, LoopControl.requestDrain, hstate, say, setWorld, Engine.say,
            Order, hwaits, haccepting, hbroken]
    | workers =>
      simp only [Order, hstage] at h
      obtain ⟨⟨a, hwaits⟩, haccepting, hbroken⟩ := h
      simp [Lifecycle.Stage.step, premises, stopWorkers, withShift, haccepting, say, Engine.say, Order, hwaits, hbroken]
  | await p =>
    cases p with
    | loop =>
      simp only [Order, hstage] at h
      obtain ⟨hwaits, haccepting, hbroken⟩ := h
      cases deadline with
      | none => simp [Lifecycle.Stage.step, premises, await, Order, hwaits]
      | some deadline =>
        simp [Lifecycle.Stage.step, Lifecycle.Stage.after, premises, await, say, Engine.say, Order, hwaits, haccepting,
          hbroken]
    | workers =>
      simp only [Order, hstage] at h
      obtain ⟨⟨a, hwaits⟩, haccepting, hbroken⟩ := h
      cases deadline with
      | none => simp [Lifecycle.Stage.step, premises, await, Order, hwaits, haccepting]
      | some deadline =>
        simp [Lifecycle.Stage.step, Lifecycle.Stage.after, premises, await, say, Engine.say, Order, hwaits, haccepting,
          hbroken]
  | report =>
    simp only [Order, hstage] at h
    obtain ⟨⟨a, b, hwaits⟩, haccepting⟩ := h
    simp [Lifecycle.Stage.step, premises, say, Engine.say, Order, hwaits, haccepting]
  | ended =>
    simp only [Order, hstage] at h
    exact h

/-- A closing notes a wait with what is so when it ends. -/
lemma waits_close (deadline : Option Instant) (s : ThreadedWatcher τ) :
    (s.close out deadline).waits = s.waits ∨
      ∃ p w, s.stage = .await p ∧ (s.close out deadline).waits = s.waits ++ [(p, w)] ∧
        (s.close out deadline).shift = s.shift ∧ ∀ a, w = some a → s.answer p = a := by
  unfold close
  cases hstage : s.stage with
  | enter =>
    simp only [Lifecycle.Stage.step]
    split <;> exact .inl rfl
  | source =>
    simp only [Lifecycle.Stage.step, premises]
    split <;> rename_i heq <;> obtain ⟨-, rfl⟩ := Prod.mk.inj heq <;> exact .inl rfl
  | check p =>
    simp only [Lifecycle.Stage.step]
    split <;> exact .inl rfl
  | stop p =>
    cases p with
    | loop =>
      cases deadline with
      | none => exact .inl rfl
      | some deadline =>
        cases hstate : s.engine.world.control.state <;>
          simp [Lifecycle.Stage.step, premises, stopLoop, LoopControl.requestDrain, hstate, say, setWorld]
    | workers =>
      cases haccepting : s.engine.dispatcher.accepting <;>
        simp [Lifecycle.Stage.step, premises, stopWorkers, withShift, haccepting, say]
  | await p =>
    refine .inr ⟨p, deadline.map fun _ => s.answer p, rfl, ?_⟩
    cases deadline with
    | none => cases p <;> simp only [Lifecycle.Stage.step, premises, await] <;> split <;> exact ⟨rfl, rfl, nofun⟩
    | some deadline =>
      cases p <;> simp only [Lifecycle.Stage.step, premises, await] <;> split <;>
        exact ⟨rfl, rfl, fun a ha => Option.some.inj ha⟩
  | report => exact .inl rfl
  | ended => exact .inl rfl

/-! ### The invariant -/

/-- What was submitted, accepted or not. -/
def submitted? : DispatchEvent → Option Notification
  | .submitted n _ => some n
  | _ => none

/-- Whatever was submitted was accepted. -/
def AllAccepted (history : List DispatchEvent) : Prop :=
  ∀ n answer, DispatchEvent.submitted n answer ∈ history → answer = true

/-- What all threads together keep. -/
structure Kept (s : ThreadedWatcher τ) : Prop where
  sound : s.shift.Sound
  noted : s.history.filterMap submitted? = Engine.submitted s.engine
  stopped : s.thread.isOver = true → s.engine.world.control.state = .stopped
  order : s.Order
  /-- The loop has submitted all it ever will before the dispatcher is shut down. -/
  loop : (.loop, some (.ok true)) ∈ s.waits → s.thread = .ended ∧ AllAccepted s.history
  workers : (.workers, some (.ok true)) ∈ s.waits → s.engine.dispatcher.alive = 0

/-- Nothing is refused before the dispatcher is shut down. -/
lemma allAccepted_of_accepting {x : Shift} (h : x.Sound) (ha : x.dispatcher.accepting = true) :
    AllAccepted x.history := by
  intro n answer hmem
  obtain ⟨before, after, heq⟩ := List.append_of_mem hmem
  have hanswer := h.answered before n answer ⟨after, by rw [heq]; simp⟩
  by_contra hne
  have hshut : DispatchEvent.shutDown ∈ before := hanswer.mp (by simpa using hne)
  have hfalse := h.shut.mpr (heq ▸ List.mem_append_left _ hshut)
  rw [ha] at hfalse
  cases hfalse

lemma Kept.of_fresh (h : Fresh s) : Kept s := by
  obtain ⟨threads, route, hthreads, hdispatcher⟩ := h.dispatcher
  have hshift : s.shift = { dispatcher := Dispatcher.fresh threads route } := by
    rw [shift, hdispatcher, h.calls, h.history]
  have haccepting : s.engine.dispatcher.accepting = true := by rw [hdispatcher]; rfl
  refine ⟨hshift ▸ Shift.sound_fresh hthreads, ?_, ?_, ?_, ?_, ?_⟩
  · rw [h.history, h.submitted]
    rfl
  · intro hover
    rw [h.thread] at hover
    cases hover
  · unfold Order
    rw [h.stage]
    exact ⟨h.waits, haccepting, h.broken, h.stopping, h.closed⟩
  · intro hmem
    rw [h.waits] at hmem
    cases hmem
  · intro hmem
    rw [h.waits] at hmem
    cases hmem

/-- Each step is a step of the dispatcher and its workers, or they see nothing of it. -/
lemma shift_step (h : Step out s s') : Shift.Leads s.shift s'.shift := by
  cases h with
  | aside ha => rw [shift, shift, ha.dispatcher]
  | loop hbusy => rw [shift, shift, loopStep, (submitted_loop hbusy).1]
  | hand n hthread =>
    refine .single ⟨.submit n, ?_⟩
    simp [shift, hand, Shift.step]
  | handled notified' hthread => exact .refl
  | died hthread => exact .refl
  | work hm hx => exact .single ⟨_, hx⟩
  | close deadline =>
    have hspared : Spared s (s.close out deadline) := spared_close deadline s
    rcases hspared.shift with heq | hstep
    · rw [heq]
    · exact .single ⟨_, hstep⟩

/-- Seen from the dispatcher, the threads of a watcher do nothing that callers and workers could not do. -/
theorem shift_leads (h : Leads out s s') : Shift.Leads s.shift s'.shift := by
  induction h with
  | refl => exact .refl
  | tail _ hstep ih => exact ih.trans (shift_step hstep)

/-- Once the workers have exited, they stay so. -/
lemma alive_leads {x x' : Shift} (h : Shift.Leads x x') (ha : x.dispatcher.alive = 0) : x'.dispatcher.alive = 0 := by
  rw [Dispatcher.alive_eq_zero] at ha ⊢
  intro w hw
  rw [Shift.length_leads h] at hw
  exact Shift.hasLeft_leads (ha w hw) h

/-- What happens next is no submission. -/
def Unsubmitted (history history' : List DispatchEvent) : Prop :=
  ∃ more, history' = history ++ more ∧ ∀ h ∈ more, submitted? h = none

lemma Unsubmitted.filterMap {history history' : List DispatchEvent} (h : Unsubmitted history history') :
    history'.filterMap submitted? = history.filterMap submitted? := by
  obtain ⟨more, rfl, hmore⟩ := h
  rw [List.filterMap_append, List.filterMap_eq_nil_iff.mpr hmore, List.append_nil]

lemma Unsubmitted.allAccepted {history history' : List DispatchEvent} (h : Unsubmitted history history')
    (ha : AllAccepted history) : AllAccepted history' := by
  obtain ⟨more, rfl, hmore⟩ := h
  intro n answer hmem
  rcases List.mem_append.mp hmem with hold | hnew
  · exact ha n answer hold
  · cases hmore _ hnew

/-- A worker's own moves submit nothing. -/
lemma unsubmitted_work {m : Shift.DispatchStep} {x x' : Shift} (hm : IsWork m) (hx : x.step m = some x') :
    Unsubmitted x.history x'.history ∧ x'.dispatcher.accepting = x.dispatcher.accepting := by
  cases Shift.stepped hx with
  | submit => cases hm
  | take hc ht => exact ⟨⟨_, rfl, by simp [submitted?]⟩, ht.accepting⟩
  | finish hc => exact ⟨⟨_, rfl, by simp [submitted?]⟩, rfl⟩
  | shutdown => cases hm
  | leave hc hl => exact ⟨⟨_, rfl, by simp [submitted?]⟩, hl.accepting⟩

lemma Spared.unsubmitted (h : Spared s s') : Unsubmitted s.history s'.history := by
  rcases h.shift with heq | hstep
  · exact ⟨[], by rw [List.append_nil]; exact congrArg Shift.history heq, by simp⟩
  · have heq := Option.some.inj hstep
    exact ⟨[.shutDown], (congrArg Shift.history heq).symm, by simp [submitted?]⟩

lemma Kept.aside (h : Kept s) {e : Engine (Surroundings τ)}
    (ha : Engine.Aside Surroundings.control { s.engine with held := e.held } e)
    (hsound : ({ s with engine := e } : ThreadedWatcher τ).shift.Sound) : Kept { s with engine := e } where
  sound := hsound
  noted := h.noted.trans ha.submitted.symm
  stopped hover := by
    rw [ha.part]
    exact h.stopped hover
  order := h.order.congr rfl rfl (by rw [ha.dispatcher]) rfl rfl rfl
  loop := h.loop
  workers hmem := by
    rw [ha.dispatcher]
    exact h.workers hmem

lemma Kept.loopStep (h : Kept s)
    (hbusy : ∀ event rest notified, s.thread = .busy (event :: rest) notified →
      (out.system.overdue s.engine.world).1 = true)
    (hsound : (s.loopStep out).shift.Sound) : Kept (s.loopStep out) := by
  obtain ⟨hdispatcher, hsubmitted⟩ := submitted_loop hbusy
  refine ⟨hsound, h.noted.trans hsubmitted.symm, fun hover => ?_, ?_, fun hmem => ?_, fun hmem => ?_⟩
  · rcases isOver_loop hbusy hover with hleaving | ⟨hover', hsame⟩
    · -- the last step of the loop
      simp only [ThreadedWatcher.loopStep, hleaving]
      rfl
    · have hne : s.thread ≠ .leaving := fun he => by
        rw [he] at hover'
        cases hover'
      have hpart := (aside_loop hbusy hne).part
      exact (congrArg LoopControl.state hpart).trans (h.stopped hover')
  · exact h.order.congr rfl rfl (congrArg Dispatcher.accepting hdispatcher) rfl rfl rfl
  · obtain ⟨hended, hall⟩ := h.loop hmem
    refine ⟨?_, hall⟩
    simp only [ThreadedWatcher.loopStep, hended]
    rfl
  · simp only [ThreadedWatcher.loopStep, hdispatcher]
    exact h.workers hmem

/-- While it handles an event, the loop has not been waited for in vain. -/
lemma Kept.not_waited (h : Kept s) {event : Event} {rest : List Event} {notified : List Path}
    (hthread : s.thread = .busy (event :: rest) notified) : (.loop, some (.ok true)) ∉ s.waits := by
  intro hmem
  have hended := (h.loop hmem).1
  rw [hthread] at hended
  cases hended

lemma Kept.hand (h : Kept s) {event : Event} {rest : List Event} {notified : List Path} (n : Notification)
    (hthread : s.thread = .busy (event :: rest) notified) (hsound : (s.hand n).shift.Sound)
    (hleads : Shift.Leads s.shift (s.hand n).shift) : Kept (s.hand n) where
  sound := hsound
  noted := by
    have hn := h.noted
    simp [ThreadedWatcher.hand, submitted?, hn, Engine.submitted_submit]
  stopped hover := by
    rw [show (s.hand n).engine.world = s.engine.world from Engine.world_submit n s.engine]
    exact h.stopped hover
  order := h.order.congr rfl rfl (by simp [ThreadedWatcher.hand]) rfl rfl rfl
  loop hmem := absurd hmem (h.not_waited hthread)
  workers hmem := alive_leads hleads (h.workers hmem)

lemma Kept.work (h : Kept s) {m : Shift.DispatchStep} {x : Shift} (hm : IsWork m) (hx : s.shift.step m = some x)
    (hsound : (s.withShift x).shift.Sound) : Kept (s.withShift x) := by
  obtain ⟨hun, haccepting⟩ := unsubmitted_work hm hx
  refine ⟨hsound, hun.filterMap.trans h.noted, h.stopped, h.order.congr rfl rfl haccepting rfl rfl rfl, fun hmem => ?_,
    fun hmem => alive_leads (.single ⟨m, hx⟩) (h.workers hmem)⟩
  obtain ⟨hended, hall⟩ := h.loop hmem
  exact ⟨hended, hun.allAccepted hall⟩

lemma Kept.close (h : Kept s) (deadline : Option Instant) (hsound : (s.close out deadline).shift.Sound)
    (hleads : Shift.Leads s.shift (s.close out deadline).shift) : Kept (s.close out deadline) := by
  have hspared : Spared s (s.close out deadline) := spared_close deadline s
  have hun := hspared.unsubmitted
  -- What the closing is answered is so when it is answered.
  have hwaits : (s.close out deadline).waits = s.waits ∨
      ∃ p w, s.stage = .await p ∧ (s.close out deadline).waits = s.waits ++ [(p, w)] ∧
        (s.close out deadline).shift = s.shift ∧ ∀ a, w = some a → s.answer p = a := waits_close deadline s
  have hnew : ∀ p a, (p, some a) ∈ (s.close out deadline).waits → (p, some a) ∈ s.waits ∨
      s.stage = .await p ∧ s.answer p = a ∧ (s.close out deadline).shift = s.shift := by
    intro p a hmem
    rcases hwaits with heq | ⟨q, w, hstage, heq, hshift, hanswer⟩
    · exact .inl (heq ▸ hmem)
    · rw [heq] at hmem
      obtain hold | ⟨rfl, rfl⟩ : (p, some a) ∈ s.waits ∨ p = q ∧ some a = w := by simpa using hmem
      · exact .inl hold
      · exact .inr ⟨hstage, hanswer a rfl, hshift⟩
  refine ⟨hsound, (hun.filterMap.trans h.noted).trans hspared.submitted.symm, fun hover => ?_, h.order.close deadline,
    fun hmem => ?_, fun hmem => ?_⟩
  · rw [hspared.thread] at hover
    exact hspared.stopped (h.stopped hover)
  · rw [hspared.thread]
    rcases hnew _ _ hmem with hold | ⟨hstage, hanswer, -⟩
    · obtain ⟨hended, hall⟩ := h.loop hold
      exact ⟨hended, hun.allAccepted hall⟩
    · have horder := h.order
      simp only [Order, hstage] at horder
      have hended : s.thread = .ended := by
        cases hthread : s.thread <;> simp [answer, hthread, LoopThread.isOver] at hanswer
        rfl
      exact ⟨hended, hun.allAccepted (allAccepted_of_accepting h.sound horder.2.1)⟩
  · rcases hnew _ _ hmem with hold | ⟨-, hanswer, hshift⟩
    · exact alive_leads hleads (h.workers hold)
    · have halive : s.engine.dispatcher.alive = 0 := by simpa [answer] using hanswer
      rw [← halive]
      exact congrArg (fun x => x.dispatcher.alive) hshift

lemma Kept.step (h : Kept s) (hstep : Step out s s') : Kept s' := by
  have hleads := shift_step hstep
  have hsound := h.sound.leads hleads
  cases hstep with
  | aside ha => exact h.aside ha hsound
  | loop hbusy => exact h.loopStep hbusy hsound
  | hand n hthread => exact h.hand n hthread hsound hleads
  | handled notified' hthread =>
    refine ⟨hsound, h.noted, nofun, h.order.congr rfl rfl rfl rfl rfl rfl, fun hmem => ?_, h.workers⟩
    exact absurd hmem (h.not_waited hthread)
  | died hthread =>
    refine ⟨hsound, h.noted, fun _ => rfl, h.order.congr rfl rfl rfl rfl rfl rfl, fun hmem => ?_, h.workers⟩
    exact absurd hmem (h.not_waited hthread)
  | work hm hx => exact h.work hm hx hsound
  | close deadline => exact h.close deadline hsound hleads

lemma Kept.leads (h : Kept s) (hleads : Leads out s s') : Kept s' := by
  induction hleads with
  | refl => exact h
  | tail _ hstep ih => exact ih.step hstep

/-! ### After the closing -/

/-- The closing has come to its end, and both waits told that it waited long enough. -/
structure Closed (s : ThreadedWatcher τ) : Prop where
  stage : s.stage = .ended
  loop : (.loop, some (.ok true)) ∈ s.waits
  workers : (.workers, some (.ok true)) ∈ s.waits

/-- With all workers gone, nothing waits and no call is being made. -/
lemma idle_of_alive {x : Shift} (h : x.Sound) (ha : x.dispatcher.alive = 0) (w : Nat) :
    x.dispatcher.queueOf w = [] ∧ x.calls w = none := by
  by_cases hw : w < x.dispatcher.workers.length
  · exact (h.left w (Dispatcher.alive_eq_zero.mp ha w hw)).2
  · refine ⟨?_, Option.eq_none_iff_forall_not_mem.mpr fun n hn => ?_⟩
    · rw [Dispatcher.queueOf, List.getElem?_eq_none (by omega)]
      rfl
    · have hlt := Dispatcher.workerFor_lt h.staffed n.key
      rw [h.calling w n hn] at hlt
      exact hw hlt

/-- Then no worker can make a move. -/
lemma not_work {m : Shift.DispatchStep} {x x' : Shift} (h : x.Sound) (ha : x.dispatcher.alive = 0) (hm : IsWork m) :
    x.step m ≠ some x' := by
  intro hx
  cases Shift.stepped hx with
  | submit => cases hm
  | @take w n d hc ht =>
    have hq := (idle_of_alive h ha w).1
    rw [ht.queue] at hq
    cases hq
  | @finish w n outcome hc =>
    have hnone := (idle_of_alive h ha w).2
    rw [hc] at hnone
    cases hnone
  | shutdown => cases hm
  | leave hc hl => exact hl.stayed (Dispatcher.alive_eq_zero.mp ha _ hl.lt)

/-- After such a closing nothing happens to the dispatcher any more. -/
lemma Closed.step (h : Closed s) (hk : Kept s) (hstep : Step out s s') : Closed s' ∧ s'.history = s.history := by
  have hended := (hk.loop h.loop).1
  have hbusy : ∀ event rest notified, s.thread ≠ .busy (event :: rest) notified := by
    intro event rest notified he
    rw [hended] at he
    cases he
  cases hstep with
  | aside ha => exact ⟨⟨h.stage, h.loop, h.workers⟩, rfl⟩
  | loop _ => exact ⟨⟨h.stage, h.loop, h.workers⟩, rfl⟩
  | hand n hthread => exact absurd hthread (hbusy _ _ _)
  | handled notified' hthread => exact absurd hthread (hbusy _ _ _)
  | died hthread => exact absurd hthread (hbusy _ _ _)
  | work hm hx => exact absurd hx (not_work hk.sound (hk.workers h.workers) hm)
  | close deadline =>
    have hsame : s.close out deadline = s := by
      unfold ThreadedWatcher.close
      rw [h.stage]
      simp only [Lifecycle.Stage.step]
      rw [← h.stage]
    rw [hsame]
    exact ⟨h, rfl⟩

lemma Closed.leads (h : Closed s) (hk : Kept s) (hleads : Leads out s s') : Closed s' ∧ s'.history = s.history := by
  induction hleads with
  | refl => exact ⟨h, rfl⟩
  | tail hbefore hstep ih =>
    obtain ⟨hclosed, hhistory⟩ := ih
    obtain ⟨hclosed', hhistory'⟩ := hclosed.step (hk.leads hbefore) hstep
    exact ⟨hclosed', hhistory'.trans hhistory⟩

lemma accepted_of_allAccepted {history : List DispatchEvent} (h : AllAccepted history) :
    history.filterMap DispatchEvent.accepted? = history.filterMap submitted? := by
  refine List.filterMap_congr fun x hx => ?_
  cases x with
  | submitted n answer =>
    obtain rfl := h n answer hx
    rfl
  | _ => rfl

/-- **A closing in order.** However loop, workers, callers and the closing take turns: once the loop's wait was
answered, in whatever way, the closing shuts the dispatcher down and waits for the workers too, and it comes to its
end with both answers unless the clock fails it. If both waits are answered that all threads have ended, the loop
is stopped, whatever it ever submitted was accepted and has had one call, which has ended, and from then on nothing is
submitted and nothing is called. -/
theorem teardown {s₀ : ThreadedWatcher τ} (h₀ : Fresh s₀) (hs : Leads out s₀ s) (hstage : s.stage = .ended) :
    (∀ a, (.loop, some a) ∈ s.waits → s.engine.dispatcher.accepting = false ∧
      ∃ b, s.waits = [(.loop, some a), (.workers, b)]) ∧
    (s.broken = false → ∃ a b, s.waits = [(.loop, some a), (.workers, some b)]) ∧
    ((.loop, some (.ok true)) ∈ s.waits → (.workers, some (.ok true)) ∈ s.waits →
      s.engine.world.control.state = .stopped ∧ AllAccepted s.history ∧
      s.shift.begun.Perm (Engine.submitted s.engine) ∧ s.shift.finished.Perm (Engine.submitted s.engine) ∧
      ∀ s', Leads out s s' → s'.history = s.history ∧ Engine.submitted s'.engine = Engine.submitted s.engine) := by
  have hk : Kept s := (Kept.of_fresh h₀).leads hs
  have horder := hk.order
  simp only [Order, hstage] at horder
  refine ⟨fun a hmem => ?_, fun hbroken => ?_, fun hloop hworkers => ?_⟩
  · rcases horder with ⟨⟨a', b, hwaits, -⟩, haccepting⟩ | ⟨hwaits | hwaits, -⟩
    · rw [hwaits] at hmem
      obtain rfl : a = a' := by simpa using hmem
      exact ⟨haccepting, b, hwaits⟩
    · rw [hwaits] at hmem
      cases hmem
    · simp [hwaits] at hmem
  · rcases horder with ⟨⟨a, b, hwaits, hb⟩, -⟩ | ⟨-, hbroken'⟩
    · cases b with
      | none =>
        rw [hb rfl] at hbroken
        cases hbroken
      | some b => exact ⟨a, b, hwaits⟩
    · rw [hbroken] at hbroken'
      cases hbroken'
  · obtain ⟨hended, hall⟩ := hk.loop hloop
    have halive := hk.workers hworkers
    -- With nothing refused, what was accepted is what the loop submitted.
    have haccepted : s.shift.accepted = Engine.submitted s.engine :=
      (accepted_of_allAccepted hall).trans hk.noted
    refine ⟨hk.stopped (by rw [hended]; rfl), hall, ?_, ?_, fun s' hs' => ?_⟩
    · rw [← haccepted]
      exact Shift.perm_of_toListener fun k => (hk.sound.all_done halive k).1
    · rw [← haccepted]
      exact Shift.perm_of_toListener fun k => (hk.sound.all_done halive k).2
    · have hclosed : Closed s := ⟨hstage, hloop, hworkers⟩
      have hhistory := (hclosed.leads hk hs').2
      refine ⟨hhistory, ?_⟩
      rw [← (hk.leads hs').noted, ← hk.noted, hhistory]

/-! ### A loop that is closed while it handles an event -/

/-- A world where every batch is the same event, and nothing ever changes. -/
def eventful : Outside Unit where
  entryKind _ s := (.ok .dir, s)
  readLink _ s := (.ok .root, s)
  currentDir s := (.ok .root, s)
  watch _ s := (.ok (), s)
  unwatch _ s := (.ok (), s)
  next s := (.ok (some [⟨⟨.root, [0x61]⟩, .modify⟩]), s)
  closeSource s := (.ok (), s)

def opened : ThreadedWatcher Unit where
  engine := { dispatcher := .fresh 1 id, world := { world := () } }
  lifecycle := { timeout := ⟨0⟩ }

lemma fresh_opened : Fresh opened :=
  ⟨⟨1, id, by decide, rfl⟩, rfl, rfl, rfl, rfl, rfl, rfl, rfl, rfl, rfl⟩

/-- The state after a worker's move. -/
def worked (m : Shift.DispatchStep) (s : ThreadedWatcher τ) : ThreadedWatcher τ :=
  s.withShift ((s.shift.step m).getD s.shift)

/-- The loop has an event to handle when it is asked to stop; only then it submits a notification. -/
def caught : ThreadedWatcher Unit :=
  let busy := ((opened.loopStep eventful).loopStep eventful).loopStep eventful
  let stopped := (((busy.close eventful none).close eventful none).close eventful none).close eventful (some ⟨1⟩)
  worked (.take 0) (stopped.hand ⟨0, ⟨[0x61]⟩⟩)

/-- The loop comes to its end, and the closing shuts the dispatcher down while a listener is called. -/
def shut : ThreadedWatcher Unit :=
  let ended := ((({ caught with thread := .busy [] [] }.loopStep eventful).loopStep eventful).loopStep eventful)
  ((ended.close eventful (some ⟨1⟩)).close eventful none).close eventful none

/-- The listener panics, the worker exits, and the closing returns. -/
def returned : ThreadedWatcher Unit :=
  ((worked (.leave 0) (worked (.finish 0 (.panicked none)) shut)).close eventful (some ⟨1⟩)).close eventful none

lemma leads_caught : Leads eventful opened caught := by
  have hbusy : Leads eventful opened (((opened.loopStep eventful).loopStep eventful).loopStep eventful) :=
    ((Relation.ReflTransGen.single (.loop nofun)).tail (.loop nofun)).tail (.loop nofun)
  have hstopped := (((hbusy.tail (.close none)).tail (.close none)).tail (.close none)).tail (.close (some ⟨1⟩))
  exact (hstopped.tail (.hand ⟨0, ⟨[0x61]⟩⟩ rfl)).tail (.work (m := .take 0) trivial rfl)

lemma leads_shut : Leads eventful caught shut := by
  have hhandled : Leads eventful caught { caught with thread := .busy [] [] } := .single (.handled [] rfl)
  have hover := ((hhandled.tail (.loop nofun)).tail (.loop nofun)).tail (.loop nofun)
  exact ((hover.tail (.close (some ⟨1⟩))).tail (.close none)).tail (.close none)

lemma leads_returned : Leads eventful shut returned :=
  (((Relation.ReflTransGen.single (.work (m := .finish 0 (.panicked none)) trivial rfl)).tail
    (.work (m := .leave 0) trivial rfl)).tail (.close (some ⟨1⟩))).tail (.close none)

theorem teardown_returned :
    returned.stage = .ended ∧ returned.waits = [(.loop, some (.ok true)), (.workers, some (.ok true))] ∧
      returned.history = [.submitted ⟨0, ⟨[0x61]⟩⟩ true, .began ⟨0, ⟨[0x61]⟩⟩, .shutDown,
        .finished ⟨0, ⟨[0x61]⟩⟩ (.panicked none), .exited 0] ∧
      returned.engine.world.control.state = .stopped ∧
      returned.shift.finished.Perm (Engine.submitted returned.engine) := by
  have hstage : returned.stage = .ended := rfl
  have hwaits : returned.waits = [(.loop, some (.ok true)), (.workers, some (.ok true))] := rfl
  obtain ⟨-, -, hboth⟩ := teardown fresh_opened ((leads_caught.trans leads_shut).trans leads_returned) hstage
  obtain ⟨hstopped, -, -, hfinished, -⟩ := hboth (by simp [hwaits]) (by simp [hwaits])
  exact ⟨hstage, hwaits, rfl, hstopped, hfinished⟩

end LinkWatch.ThreadedWatcher
