import LinkWatch.Arguments
import LinkWatch.Proofs.Closing.Session
import LinkWatch.Proofs.Closing.Stages

/-!
The deadlines of a closing. The loop's drain, the wait for the loop and the wait for the workers each end a timeout
after a reading of the clock. The clock counts up to `Instant.limit`, and whoever asks for a deadline beyond it dies.
Settings and arguments are accepted with any number of seconds but zero (`Options.accepted_iff`), so the timeout alone
may be longer than the clock can count; the closing then dies as it asks the loop to stop, and nobody stops the workers
any more (`close_deadlines`).
-/

namespace LinkWatch

/-! ### Accepted options -/

/-- Options from settings that were accepted, if there are any, and from accepted arguments. Numbers have 64 bits. -/
inductive Options.Accepted : Options → Prop
  | bare {a : Arguments} {o : Options} : (∀ n, a.shutdownTimeout = some n → n < UInt64.size) →
      a.effectiveOptions none = .ok o → Accepted o
  | file {raw : RawSettings} {settings : Settings} {a : Arguments} {o : Options} :
      raw.watcher.shutdownTimeoutSecs < UInt64.size → raw.accept = .ok settings →
      (∀ n, a.shutdownTimeout = some n → n < UInt64.size) → a.effectiveOptions (some settings) = .ok o → Accepted o

lemma RawSettings.watcher_of_accept {raw : RawSettings} {settings : Settings} (h : raw.accept = .ok settings) :
    settings.watcher = raw.watcher ∧ 0 < raw.watcher.shutdownTimeoutSecs := by
  unfold accept at h
  split at h
  · cases h
  · rename_i hzero
    split at h
    · cases h
    · obtain rfl := Except.ok.inj h
      refine ⟨rfl, Nat.pos_of_ne_zero fun h0 => ?_⟩
      simp only [WatcherSettings.zero?, h0, if_true] at hzero
      split at hzero <;> cases hzero

lemma Arguments.timeout_of_effective {settings : Option Settings} {a : Arguments} {o : Options}
    (h : a.effectiveOptions settings = .ok o) : a.shutdownTimeout ≠ some 0 ∧
      o.shutdownTimeout = (a.shutdownTimeout.map Duration.ofSeconds).getD
        ((settings.map Settings.options).getD {}).shutdownTimeout := by
  unfold effectiveOptions at h
  dsimp only at h
  split at h
  · cases h
  · split at h
    · cases h
    · rename_i hzero
      obtain rfl := Except.ok.inj h
      exact ⟨hzero, rfl⟩

lemma Duration.ofSeconds_inj {m n : Nat} : Duration.ofSeconds m = .ofSeconds n ↔ m = n := by
  constructor
  · intro h
    have hnanos : m * second = n * second := congrArg nanos h
    exact Nat.eq_of_mul_eq_mul_right (by decide) hnanos
  · exact congrArg _

/-- The accepted timeouts are all numbers of seconds of 64 bits but zero. -/
theorem Options.accepted_iff {n : Nat} :
    (∃ o : Options, o.Accepted ∧ o.shutdownTimeout = .ofSeconds n) ↔ 0 < n ∧ n < UInt64.size := by
  constructor
  · rintro ⟨o, ho, htimeout⟩
    have hargs : ∀ {settings : Option Settings} {a : Arguments}, (∀ n, a.shutdownTimeout = some n → n < UInt64.size) →
        a.effectiveOptions settings = .ok o →
        (((settings.map Settings.options).getD {}).shutdownTimeout = .ofSeconds n → 0 < n ∧ n < UInt64.size) →
        0 < n ∧ n < UInt64.size := by
      intro settings a hbound heff hbase
      obtain ⟨hzero, heq⟩ := Arguments.timeout_of_effective heff
      rw [htimeout] at heq
      cases hgiven : a.shutdownTimeout with
      | none =>
        rw [hgiven] at heq
        exact hbase heq.symm
      | some m =>
        rw [hgiven] at heq hzero
        obtain rfl : n = m := Duration.ofSeconds_inj.mp heq
        exact ⟨Nat.pos_of_ne_zero fun h0 => hzero (h0 ▸ rfl), hbound n hgiven⟩
    cases ho with
    | bare hbound heff =>
      refine hargs hbound heff fun hdefault => ?_
      obtain rfl : 10 = n := Duration.ofSeconds_inj.mp hdefault
      decide
    | file hraw haccept hbound heff =>
      refine hargs hbound heff fun hfile => ?_
      obtain ⟨hwatcher, hpos⟩ := RawSettings.watcher_of_accept haccept
      have hsecs := Duration.ofSeconds_inj.mp hfile
      rw [hwatcher] at hsecs
      exact hsecs ▸ ⟨hpos, hraw⟩
  · rintro ⟨hpos, hlt⟩
    refine ⟨{ shutdownTimeout := .ofSeconds n }, .bare (a := { shutdownTimeout := some n }) ?_ ?_, rfl⟩
    · rintro m hm
      exact Option.some.inj hm ▸ hlt
    · simp [Arguments.effectiveOptions, Nat.ne_of_gt hpos]

/-! ### The clock -/

namespace Instant

variable {t : Instant} {d : Duration}

lemma isSome_add? : (t.add? d).isSome = true ↔ t.nanos + d.nanos < limit := by
  unfold add?
  split <;> simp [*]

lemma add?_eq_none : t.add? d = none ↔ limit ≤ t.nanos + d.nanos := by
  rw [← Option.not_isSome_iff_eq_none, isSome_add?, Nat.not_lt]

lemma nanos_of_add? {t' : Instant} (h : t.add? d = some t') : t'.nanos = t.nanos + d.nanos := by
  unfold add? at h
  split at h
  · exact congrArg nanos (Option.some.inj h).symm
  · cases h

end Instant

/-! ### A session -/

namespace Scripted.Session

open Lifecycle (sourceClosed awaited)

variable {s : Session} {o : Options} {timeout : Duration}

/-- A watcher at work that was started with these options, and that nobody has closed yet. -/
structure Running (o : Options) (s : Session) : Prop where
  timeout : s.watcher.lifecycle.timeout = o.shutdownTimeout
  drainTimeout : s.drainTimeout = o.shutdownTimeout
  opened : s.watcher.lifecycle.closed = false
  unasked : s.shutdownRequested = false
  accepting : s.engine.dispatcher.accepting = true
  intact : s.broken = false

lemma Running.onward {s' : Session} (h : s.Running o) (ho : Onward s s') : s'.Running o where
  timeout := by rw [ho.lifecycle, h.timeout]
  drainTimeout := ho.drainTimeout.trans h.drainTimeout
  opened := by rw [ho.lifecycle, h.opened]
  unasked := ho.shutdownRequested.trans h.unasked
  accepting := ho.accepting.trans h.accepting
  intact := ho.broken.trans h.intact

/-- A watcher that has just been started with these options, while the clock shows this. -/
def started (o : Options) (tree : Tree) (source : Source) (now : Instant) : Session :=
  ((create o.callbackThreads o.shutdownTimeout o.pollInterval o.shutdownTimeout tree source).modifyWorld
    fun w => { w with now }).run

lemma running_started (o : Options) (tree : Tree) (source : Source) (now : Instant) :
    (started o tree source now).Running o ∧ (started o tree source now).world.now = now :=
  ⟨Running.onward ⟨rfl, rfl, rfl, rfl, rfl, rfl⟩ (onward_run _).1, (onward_run _).2⟩

/-- The session when the closing has waited for the loop. -/
def loopAwaited (s : Session) : Session :=
  (awaitLoop s.watcher.lifecycle.timeout (sourceClosed premises s).shutdownLoop).2

/-- The readings of the clock from which a closing reckons its deadlines: to ask the loop to drain, to wait for the
loop, and to wait for the workers. -/
def readings (s : Session) : List Instant :=
  let closed := sourceClosed premises s
  [closed.world.now, closed.shutdownLoop.world.now, s.loopAwaited.world.now]

lemma onward_say (r : Log.Record) (s : Session) : Onward s (premises.say r s) := ⟨rfl, rfl, rfl, rfl, rfl⟩

/-- Closing the source takes no time and leaves the loop alone. -/
lemma onward_sourceClosed (s : Session) :
    Onward s (sourceClosed premises s) ∧ (sourceClosed premises s).world.now = s.world.now ∧
      (sourceClosed premises s).world.control = s.world.control ∧ (sourceClosed premises s).thread = s.thread ∧
      (sourceClosed premises s).world.source.closed = true := by
  unfold sourceClosed
  split <;> rename_i heq <;> obtain ⟨-, rfl⟩ := Prod.mk.inj heq <;>
    exact ⟨⟨rfl, rfl, rfl, rfl, rfl⟩, rfl, rfl, rfl, rfl⟩

/-- The first deadline is that of the drain. -/
lemma drain_sourceClosed (h : s.Running o) :
    (sourceClosed premises s).world.now.add? (sourceClosed premises s).drainTimeout =
      s.world.now.add? o.shutdownTimeout := by
  obtain ⟨hclosed, hnow, -⟩ := onward_sourceClosed s
  rw [hnow, hclosed.drainTimeout, h.drainTimeout]

lemma shutdownLoop_of_none (h : s.world.now.add? s.drainTimeout = none) :
    s.shutdownLoop = { s with shutdownRequested := true, broken := true } := by
  have hdrain : s.world.control.beginDrain s.world.now s.drainTimeout = none := by
    rw [LoopControl.beginDrain, h]
    rfl
  have hdrain' : ({ s with shutdownRequested := true } : Session).world.control.beginDrain
      ({ s with shutdownRequested := true } : Session).world.now s.drainTimeout = none := hdrain
  unfold shutdownLoop
  simp only [hdrain']

lemma onward_shutdownLoop {deadline : Instant} (h : s.world.now.add? s.drainTimeout = some deadline) :
    Onward { s with shutdownRequested := true } s.shutdownLoop ∧ s.shutdownLoop.world.now = s.world.now := by
  have hdrain : ({ s with shutdownRequested := true } : Session).world.control.beginDrain
      ({ s with shutdownRequested := true } : Session).world.now s.drainTimeout =
        some (s.world.control.requestDrain deadline) := by
    have hnow : ({ s with shutdownRequested := true } : Session).world.now = s.world.now := rfl
    rw [LoopControl.beginDrain, hnow, h]
    rfl
  unfold shutdownLoop
  simp only [hdrain]
  split <;> exact ⟨⟨rfl, rfl, rfl, rfl, rfl⟩, rfl⟩

lemma onward_awaitLoop {deadline : Instant} (h : s.world.now.add? timeout = some deadline) :
    Onward s (s.awaitLoop timeout).2 ∧ (s.awaitLoop timeout).2.world.now.nanos ≤ s.world.now.nanos + timeout.nanos := by
  have hdeadline := Instant.nanos_of_add? h
  have hlater : s.world.now.nanos ≤ deadline.nanos := by omega
  obtain ⟨honward, hnow⟩ := onward_advance hlater
  rw [hdeadline] at hnow
  rw [awaitLoop, h]
  dsimp only
  generalize s.advance deadline = r at honward hnow ⊢
  have hjoined : Onward r { r with joined := true } := ⟨rfl, rfl, rfl, rfl, rfl⟩
  split
  · exact ⟨honward, hnow⟩
  · split <;> exact ⟨honward.trans hjoined, hnow⟩

lemma awaitWorkers_of_none (h : s.world.now.add? timeout = none) :
    s.awaitWorkers timeout = (.ok false, { s with broken := true }) := by
  rw [awaitWorkers, h]

lemma onward_awaitWorkers {deadline : Instant} (h : s.world.now.add? timeout = some deadline) :
    Onward s (s.awaitWorkers timeout).2 := by
  rw [awaitWorkers, h]
  exact (onward_settle s).1

/-! ### The whole closing -/

lemma close_of_run {l : Lifecycle} {r : Session} (h : Lifecycle.close premises (s.watcher.lifecycle, s) = (l, r)) :
    s.close = { r with watcher := { r.watcher with lifecycle := l } } := by
  rw [close, h]

/-- Up to where the loop is asked to stop. -/
lemma close_eq_stop (h : s.Running o) : Lifecycle.close premises (s.watcher.lifecycle, s) =
    Lifecycle.run premises 6 (.stop .loop) ({ s.watcher.lifecycle with closed := true }, sourceClosed premises s) := by
  have hclosed := (onward_sourceClosed s).1
  have hunasked : (premises.executor .loop).isShutdown (sourceClosed premises s) = false :=
    hclosed.shutdownRequested.trans h.unasked
  have henter : Lifecycle.close premises (s.watcher.lifecycle, s) =
      Lifecycle.run premises 9 .enter (s.watcher.lifecycle, s) := rfl
  rw [henter, Lifecycle.run_enter h.opened, Lifecycle.run_source, Lifecycle.run_check hunasked]

/-- The clock cannot show the deadline of the drain. -/
lemma close_of_none (h : s.Running o) (hnone : s.world.now.add? o.shutdownTimeout = none) :
    Lifecycle.close premises (s.watcher.lifecycle, s) = ({ s.watcher.lifecycle with closed := true },
      { sourceClosed premises s with shutdownRequested := true, broken := true }) := by
  have hstop : (premises.executor .loop).shutdown (sourceClosed premises s) =
      { sourceClosed premises s with shutdownRequested := true, broken := true } :=
    shutdownLoop_of_none ((drain_sourceClosed h).trans hnone)
  have hhalted : premises.halted ((premises.executor .loop).shutdown (sourceClosed premises s)) = true := by
    rw [hstop]
    rfl
  rw [close_eq_stop h, Lifecycle.run_stop_halted hhalted, hstop]

lemma onward_loopAwaited (h : s.Running o) {deadline : Instant}
    (hsome : s.world.now.add? o.shutdownTimeout = some deadline) :
    Onward { s with shutdownRequested := true } s.loopAwaited ∧
      s.loopAwaited.world.now.nanos ≤ s.world.now.nanos + o.shutdownTimeout.nanos := by
  obtain ⟨hclosed, hnow, -⟩ := onward_sourceClosed s
  obtain ⟨hasked, hnow'⟩ := onward_shutdownLoop ((drain_sourceClosed h).trans hsome)
  have hwait : (sourceClosed premises s).shutdownLoop.world.now.add? s.watcher.lifecycle.timeout = some deadline := by
    rw [hnow', hnow, h.timeout, hsome]
  obtain ⟨hwaited, hlate⟩ := onward_awaitLoop hwait
  rw [hnow', hnow, h.timeout] at hlate
  have hclosed' : Onward { s with shutdownRequested := true }
      { sourceClosed premises s with shutdownRequested := true } :=
    ⟨hclosed.lifecycle, hclosed.drainTimeout, rfl, hclosed.broken, hclosed.accepting⟩
  exact ⟨(hclosed'.trans hasked).trans hwaited, h.timeout ▸ hlate⟩

/-- Asking the workers to stop takes no time. -/
lemma shutdownWorkers_spec (s : Session) : s.shutdownWorkers.engine.dispatcher.accepting = false ∧
    s.shutdownWorkers.broken = s.broken ∧ s.shutdownWorkers.shutdownRequested = s.shutdownRequested ∧
    s.shutdownWorkers.world.now = s.world.now := by
  unfold shutdownWorkers
  dsimp only
  split <;> exact ⟨rfl, rfl, rfl, rfl⟩

/-- The closing is about to wait for the workers. -/
structure Ending (s r : Session) : Prop where
  refusing : r.engine.dispatcher.accepting = false
  intact : r.broken = false
  asked : r.shutdownRequested = true
  now : r.world.now = s.loopAwaited.world.now
  close : Lifecycle.close premises (s.watcher.lifecycle, s) =
    Lifecycle.run premises 2 (.await .workers) ({ s.watcher.lifecycle with closed := true }, r)

/-- If the clock shows the deadline of the drain, it shows that of the wait for the loop too. -/
lemma exists_ending (h : s.Running o) {deadline : Instant}
    (hsome : s.world.now.add? o.shutdownTimeout = some deadline) : ∃ r, Ending s r := by
  obtain ⟨hclosed, -⟩ := onward_sourceClosed s
  obtain ⟨hwaited, -⟩ := onward_loopAwaited h hsome
  let asked := (premises.executor .loop).shutdown (sourceClosed premises s)
  have hasked : premises.halted asked = false :=
    (onward_shutdownLoop ((drain_sourceClosed h).trans hsome)).1.broken.trans (hclosed.broken.trans h.intact)
  have hintact : premises.halted ((premises.executor .loop).await s.watcher.lifecycle.timeout asked).2 = false :=
    hwaited.broken.trans h.intact
  -- what the wait answered is logged, and the workers are asked to stop
  let told := awaited premises .loop s.watcher.lifecycle.timeout asked
  have htold : Onward s.loopAwaited told := onward_say _ _
  have haccepting : told.engine.dispatcher.accepting = true :=
    htold.accepting.trans (hwaited.accepting.trans h.accepting)
  have hopen : (premises.executor .workers).isShutdown told = false := congrArg (!·) haccepting
  obtain ⟨hrefusing, hbroken, hrequested, hnow⟩ := shutdownWorkers_spec told
  have hintact' : told.shutdownWorkers.broken = false := hbroken.trans (htold.broken.trans hintact)
  have hstopped : premises.halted ((premises.executor .workers).shutdown told) = false := hintact'
  refine ⟨told.shutdownWorkers, hrefusing, hintact', ?_, hnow, ?_⟩
  · exact hrequested.trans (htold.shutdownRequested.trans hwaited.shutdownRequested)
  · rw [close_eq_stop h, Lifecycle.run_stop hasked,
      Lifecycle.run_await (l := { s.watcher.lifecycle with closed := true }) hintact, Lifecycle.Stage.after,
      Lifecycle.run_check hopen, Lifecycle.run_stop hstopped]
    rfl

/-- The clock cannot show the deadline of the wait for the workers. -/
lemma Ending.broken {r : Session} (hr : Ending s r) (h : s.Running o)
    (hnone : s.loopAwaited.world.now.add? o.shutdownTimeout = none) : s.close.broken = true := by
  have hwait : r.awaitWorkers s.watcher.lifecycle.timeout = (.ok false, { r with broken := true }) :=
    awaitWorkers_of_none (by rw [hr.now, h.timeout, hnone])
  have hhalted : premises.halted ((premises.executor .workers).await s.watcher.lifecycle.timeout r).2 = true :=
    congrArg (fun x => x.2.broken) hwait
  have hclose := hr.close
  rw [Lifecycle.run_await_halted (l := { s.watcher.lifecycle with closed := true }) hhalted] at hclose
  rw [close_of_run hclose]
  exact hhalted

/-- The clock shows it. -/
lemma Ending.whole {r : Session} (hr : Ending s r) (h : s.Running o) {deadline : Instant}
    (hsome : s.loopAwaited.world.now.add? o.shutdownTimeout = some deadline) :
    s.close.broken = false ∧ (∀ p, (premises.executor p).isShutdown s.close = true) ∧
      ∃ actor, s.close.engine.effects.getLast? = some (.log actor Lifecycle.closedRecord) := by
  have honward : Onward r (r.awaitWorkers s.watcher.lifecycle.timeout).2 :=
    onward_awaitWorkers (hr.now ▸ h.timeout ▸ hsome)
  have hhalted : premises.halted ((premises.executor .workers).await s.watcher.lifecycle.timeout r).2 = false :=
    honward.broken.trans hr.intact
  have hclose := hr.close
  rw [Lifecycle.run_await (l := { s.watcher.lifecycle with closed := true }) hhalted, Lifecycle.Stage.after,
    Lifecycle.run_report] at hclose
  rw [close_of_run hclose]
  refine ⟨hhalted, fun p => ?_, _, List.getLast?_concat⟩
  cases p with
  | loop => exact honward.shutdownRequested.trans hr.asked
  | workers => exact congrArg (!·) (honward.accepting.trans hr.refusing)

lemma readings_of_none (hnone : s.world.now.add? o.shutdownTimeout = none) :
    ¬ ∀ t ∈ s.readings, (t.add? o.shutdownTimeout).isSome = true := by
  intro hall
  have hfirst := hall (sourceClosed premises s).world.now (by simp [readings])
  rw [(onward_sourceClosed s).2.1, hnone] at hfirst
  cases hfirst

lemma readings_of_some (h : s.Running o) {deadline : Instant}
    (hsome : s.world.now.add? o.shutdownTimeout = some deadline) :
    s.readings = [s.world.now, s.world.now, s.loopAwaited.world.now] := by
  rw [readings, (onward_shutdownLoop ((drain_sourceClosed h).trans hsome)).2, (onward_sourceClosed s).2.1]

/-- Closing again does nothing more. -/
lemma close_of_closed (h : s.watcher.lifecycle.closed = true) : Onward s s.close := by
  have hagain : Lifecycle.close premises (s.watcher.lifecycle, s) = (s.watcher.lifecycle,
      premises.say (Lifecycle.record .debug "close() called on already closed watcher") s) := by
    have henter : Lifecycle.close premises (s.watcher.lifecycle, s) =
        Lifecycle.run premises 9 .enter (s.watcher.lifecycle, s) := rfl
    rw [henter, Lifecycle.run, Lifecycle.Stage.step, if_pos h]
    exact Lifecycle.run_ended 8 _
  rw [close_of_run hagain]
  exact ⟨rfl, rfl, rfl, rfl, rfl⟩

/-- **The deadlines of a closing.** Every number of seconds but zero is accepted as a timeout. A closing comes to its
end, with both executors shut down, exactly if the clock can show a timeout after each of its readings. It can if it is
two timeouts away from its end. If it is nearer than one timeout, the closing dies as it asks the loop to stop: the
source is closed by then, but the loop is not asked to drain and the workers go on, and closing again does not change
that. -/
theorem close_deadlines (h : s.Running o) :
    (∀ n, (∃ o : Options, o.Accepted ∧ o.shutdownTimeout = .ofSeconds n) ↔ 0 < n ∧ n < UInt64.size) ∧
    (s.close.broken = false ↔ ∀ t ∈ s.readings, (t.add? o.shutdownTimeout).isSome = true) ∧
    (s.close.broken = false → (∀ p, (premises.executor p).isShutdown s.close = true) ∧
      ∃ actor, s.close.engine.effects.getLast? = some (.log actor Lifecycle.closedRecord)) ∧
    (s.world.now.nanos + 2 * o.shutdownTimeout.nanos < Instant.limit → s.close.broken = false) ∧
    (Instant.limit ≤ s.world.now.nanos + o.shutdownTimeout.nanos →
      s.close.broken = true ∧ s.close.world.source.closed = true ∧ s.close.world.control = s.world.control ∧
      (premises.executor .workers).isShutdown s.close = false ∧
      (premises.executor .workers).isShutdown s.close.close = false) := by
  refine ⟨fun n => Options.accepted_iff, ?_⟩
  cases hfirst : s.world.now.add? o.shutdownTimeout with
  | none =>
    have hbroken : s.close.broken = true := by rw [close_of_run (close_of_none h hfirst)]
    have hlimit := Instant.add?_eq_none.mp hfirst
    obtain ⟨hclosed, -, hcontrol, -, hsource⟩ := onward_sourceClosed s
    have haccepting : s.close.engine.dispatcher.accepting = true := by
      rw [close_of_run (close_of_none h hfirst)]
      exact hclosed.accepting.trans h.accepting
    have hagain : s.close.close.engine.dispatcher.accepting = true := by
      refine (close_of_closed ?_).accepting.trans haccepting
      rw [close_of_run (close_of_none h hfirst)]
    refine ⟨iff_of_false (by simp [hbroken]) (readings_of_none hfirst), fun hend => ?_, fun hnear => ?_, fun _ =>
      ⟨hbroken, ?_, ?_, congrArg (!·) haccepting, congrArg (!·) hagain⟩⟩
    · rw [hbroken] at hend
      cases hend
    · omega
    · rw [close_of_run (close_of_none h hfirst)]
      exact hsource
    · rw [close_of_run (close_of_none h hfirst)]
      exact hcontrol
  | some deadline =>
    obtain ⟨r, hr⟩ := exists_ending h hfirst
    have hlimit := Instant.isSome_add?.mp (Option.isSome_iff_exists.mpr ⟨deadline, hfirst⟩)
    have hiff : s.close.broken = false ↔ (s.loopAwaited.world.now.add? o.shutdownTimeout).isSome = true := by
      cases hlast : s.loopAwaited.world.now.add? o.shutdownTimeout with
      | none => simp [hr.broken h hlast]
      | some deadline' => exact iff_of_true (hr.whole h hlast).1 rfl
    refine ⟨?_, fun hend => ?_, fun hnear => ?_, fun hfar => ?_⟩
    · rw [hiff, readings_of_some h hfirst]
      simp [hfirst]
    · obtain ⟨deadline', hlast⟩ := Option.isSome_iff_exists.mp (hiff.mp hend)
      exact (hr.whole h hlast).2
    · have hlate := (onward_loopAwaited h hfirst).2
      exact hiff.mpr (Instant.isSome_add?.mpr (by omega))
    · omega

/-- The longest timeout that is accepted. -/
def patient : Options := { shutdownTimeout := .ofSeconds (UInt64.size - 1) }

/-- Shortly after the clock was started, a watcher with the longest timeout dies of being closed, one with the default
does not. -/
theorem close_deadlines_patient :
    patient.Accepted ∧
      (let s := started patient .empty {} ⟨100 * Duration.second⟩
       s.close.broken = true ∧ (premises.executor .workers).isShutdown s.close = false) ∧
      let s := started {} .empty {} ⟨100 * Duration.second⟩
      s.close.broken = false ∧ ∀ p, (premises.executor p).isShutdown s.close = true := by
  obtain ⟨hpatient, hnow⟩ := running_started patient .empty {} ⟨100 * Duration.second⟩
  obtain ⟨hdefault, hnow'⟩ := running_started {} .empty {} ⟨100 * Duration.second⟩
  obtain ⟨-, -, -, -, hdies⟩ := close_deadlines hpatient
  obtain ⟨-, -, hstops, hends, -⟩ := close_deadlines hdefault
  have haccepted : patient.Accepted := by
    refine .bare (a := { shutdownTimeout := some (UInt64.size - 1) }) ?_ rfl
    rintro n hn
    obtain rfl := Option.some.inj hn
    decide
  rw [hnow] at hdies
  rw [hnow'] at hends
  obtain ⟨hbroken, -, -, hworkers, -⟩ := hdies (by decide)
  have hwhole := hends (by decide)
  exact ⟨haccepted, ⟨hbroken, hworkers⟩, hwhole, (hstops hwhole).1⟩

end Scripted.Session

end LinkWatch
