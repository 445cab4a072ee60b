import LinkWatch.Lifecycle
import Mathlib.Tactic.Lemma

/-!
The stages of a closing, one equation each: what is left to run after a stage, and in which surroundings. A stage that
kills whoever closes is the last one.
-/

namespace LinkWatch.Lifecycle

variable {σ : Type} {pr : Premises σ} {l : Lifecycle} {s : σ} {p : Party}

lemma run_ended (n : Nat) (x : Lifecycle × σ) : run pr n .ended x = x := by
  induction n with
  | zero => rfl
  | succ n ih => exact ih

lemma run_enter (h : l.closed = false) (n : Nat) :
    run pr (n + 1) .enter (l, s) = run pr n .source ({ l with closed := true }, s) := by
  simp [run, Stage.step, h]

/-- The surroundings once the source was asked to close. -/
def sourceClosed (pr : Premises σ) (s : σ) : σ :=
  match pr.closeSource s with
  | (.ok _, s) => s
  | (.error e, s) => pr.say (record .error s!"native event source did not close: {e.message}") s

lemma run_source (n : Nat) : run pr (n + 1) .source (l, s) = run pr n (.check .loop) (l, sourceClosed pr s) := by
  rcases hclose : pr.closeSource s with ⟨_ | _, s'⟩ <;> simp [run, Stage.step, sourceClosed, hclose]

lemma run_check (h : (pr.executor p).isShutdown s = false) (n : Nat) :
    run pr (n + 1) (.check p) (l, s) = run pr n (.stop p) (l, s) := by
  simp [run, Stage.step, h]

lemma run_stop (h : pr.halted ((pr.executor p).shutdown s) = false) (n : Nat) :
    run pr (n + 1) (.stop p) (l, s) = run pr n (.await p) (l, (pr.executor p).shutdown s) := by
  simp [run, Stage.step, h]

lemma run_stop_halted (h : pr.halted ((pr.executor p).shutdown s) = true) (n : Nat) :
    run pr (n + 1) (.stop p) (l, s) = (l, (pr.executor p).shutdown s) := by
  simp [run, Stage.step, h, run_ended]

/-- The surroundings after a wait that came to its end. -/
def awaited (pr : Premises σ) (p : Party) (timeout : Duration) (s : σ) : σ :=
  pr.say (awaitRecord p timeout ((pr.executor p).await timeout s).1) ((pr.executor p).await timeout s).2

lemma run_await (h : pr.halted ((pr.executor p).await l.timeout s).2 = false) (n : Nat) :
    run pr (n + 1) (.await p) (l, s) = run pr n (.after p) (l, awaited pr p l.timeout s) := by
  simp [run, Stage.step, h, awaited]

lemma run_await_halted (h : pr.halted ((pr.executor p).await l.timeout s).2 = true) (n : Nat) :
    run pr (n + 1) (.await p) (l, s) = (l, ((pr.executor p).await l.timeout s).2) := by
  simp [run, Stage.step, h, run_ended]

/-- What is logged at the end. -/
def closedRecord : Log.Record := record .info "file watcher closed"

lemma run_report (n : Nat) : run pr (n + 1) .report (l, s) = (l, pr.say closedRecord s) := run_ended n _

/-- After the first stage a closing leaves the lifecycle as it is. -/
lemma lifecycle_step {stage : Stage} (hstage : stage ≠ .enter) : (stage.step pr (l, s)).2.1 = l := by
  cases stage with
  | enter => exact absurd rfl hstage
  | source =>
    simp only [Stage.step]
    split <;> rfl
  | check p =>
    simp only [Stage.step]
    split <;> rfl
  | stop p => rfl
  | await p =>
    simp only [Stage.step]
    split <;> rfl
  | report => rfl
  | ended => rfl

end LinkWatch.Lifecycle
