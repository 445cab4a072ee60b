import LinkWatch.Proofs.Closing.Stages
import Mathlib.Data.List.Nodup
import Mathlib.Logic.Function.Basic

/-!
What a closing does to its surroundings, stage by stage. It makes requests and is answered, it logs, or it dies of a
request (`Stage.actions`); nothing else changes the surroundings (`effect_actions`).

The requests of a whole closing make a tour: the source, then the loop, then the workers. An executor is looked at when
its turn comes, and unless it is shut down already it is stopped and waited for. What a closing has asked when it comes
to a stage is a part of such a tour from the beginning (`Standing`).
-/

namespace LinkWatch.Lifecycle

variable {σ : Type} {pr : Premises σ} {l : Lifecycle} {w : σ} {stage : Stage} {p : Party} {timeout : Duration}

/-! ### Requests -/

/-- What a closing asks of its surroundings, with the answer. -/
inductive Request where
  | closeSource (answer : Except WatchError Unit)
  /-- The turn of an executor has come: is it shut down already? -/
  | look (p : Party) (shut : Bool)
  | stop (p : Party)
  | await (p : Party) (timeout : Duration) (answer : Except TerminationError Bool)

/-- What a request is about, whatever the answer. -/
inductive Matter where
  | source
  | look (p : Party)
  | stop (p : Party)
  | await (p : Party)
deriving DecidableEq

namespace Request

def matter : Request → Matter
  | .closeSource _ => .source
  | .look p _ => .look p
  | .stop p => .stop p
  | .await p _ _ => .await p

def effect (pr : Premises σ) : Request → σ → σ
  | .closeSource _, w => (pr.closeSource w).2
  | .look _ _, w => w
  | .stop p, w => (pr.executor p).shutdown w
  | .await p timeout _, w => ((pr.executor p).await timeout w).2

/-- The answer is the one that the surroundings give. -/
def IsAnswered (pr : Premises σ) (w : σ) : Request → Prop
  | .closeSource answer => (pr.closeSource w).1 = answer
  | .look p shut => (pr.executor p).isShutdown w = shut
  | .stop _ => True
  | .await p timeout answer => ((pr.executor p).await timeout w).1 = answer

end Request

/-! ### The actions of a stage -/

/-- What a closing does. -/
inductive CloseAction where
  | asked (r : Request)
  | said (r : Log.Record)
  /-- The last request has killed whoever made it. -/
  | died

namespace CloseAction

def request? : CloseAction → Option Request
  | .asked r => some r
  | _ => none

@[simp] lemma request?_asked (r : Request) : (asked r).request? = some r := rfl
@[simp] lemma request?_said (r : Log.Record) : (said r).request? = none := rfl
@[simp] lemma request?_died : died.request? = none := rfl

def effect (pr : Premises σ) : CloseAction → σ → σ
  | .asked r, w => r.effect pr w
  | .said r, w => pr.say r w
  | .died, w => w

/-- It can be done in these surroundings. -/
def Holds (pr : Premises σ) (w : σ) : CloseAction → Prop
  | .asked r => r.IsAnswered pr w
  | .said _ => True
  | .died => pr.halted w = true

end CloseAction

/-- What is logged of a closing that comes too late. -/
def againRecord : Log.Record := record .debug "close() called on already closed watcher"

def unclosedRecord (e : WatchError) : Log.Record := record .error s!"native event source did not close: {e.message}"

/-- What is logged of an executor that is not stopped. -/
def spareRecord (p : Party) : Log.Record := record .debug s!"{p.name} already shut down"

/-- What a closing does in a stage. -/
def Stage.actions (pr : Premises σ) : Stage → Lifecycle × σ → List CloseAction
  | .enter, (l, _) => if l.closed then [.said againRecord] else []
  | .source, (_, w) =>
    .asked (.closeSource (pr.closeSource w).1) ::
      match (pr.closeSource w).1 with
      | .ok _ => []
      | .error e => [.said (unclosedRecord e)]
  | .check p, (_, w) =>
    .asked (.look p ((pr.executor p).isShutdown w)) ::
      if (pr.executor p).isShutdown w then [.said (spareRecord p)] else []
  | .stop p, (_, w) => .asked (.stop p) :: if pr.halted ((pr.executor p).shutdown w) then [.died] else []
  | .await p, (l, w) =>
    .asked (.await p l.timeout ((pr.executor p).await l.timeout w).1) ::
      if pr.halted ((pr.executor p).await l.timeout w).2 then [.died]
      else [.said (awaitRecord p l.timeout ((pr.executor p).await l.timeout w).1)]
  | .report, _ => [.said closedRecord]
  | .ended, _ => []

/-- A stage changes the surroundings by its actions, and by nothing else. -/
lemma effect_actions : (stage.actions pr (l, w)).foldl (fun w d => d.effect pr w) w = (stage.step pr (l, w)).2.2 := by
  cases stage with
  | enter => cases hclosed : l.closed <;> simp [Stage.actions, Stage.step, CloseAction.effect, hclosed, againRecord]
  | source =>
    rcases hclose : pr.closeSource w with ⟨_ | _, w'⟩ <;>
      simp [Stage.actions, Stage.step, CloseAction.effect, Request.effect, hclose, unclosedRecord]
  | check p =>
    cases hshut : (pr.executor p).isShutdown w <;>
      simp [Stage.actions, Stage.step, CloseAction.effect, Request.effect, hshut, spareRecord]
  | stop p =>
    cases hhalted : pr.halted ((pr.executor p).shutdown w) <;>
      simp [Stage.actions, Stage.step, CloseAction.effect, Request.effect, hhalted]
  | await p =>
    cases hhalted : pr.halted ((pr.executor p).await l.timeout w).2 <;>
      simp [Stage.actions, Stage.step, CloseAction.effect, Request.effect, hhalted]
  | report => rfl
  | ended => rfl

/-- Every stage but the last brings a closing nearer to its end. -/
lemma left_step (hstage : stage ≠ .ended) : (stage.step pr (l, w)).1.left < stage.left := by
  cases stage with
  | enter =>
    simp only [Stage.step]
    split <;> simp [Stage.left]
  | source =>
    simp only [Stage.step]
    split <;> simp [Stage.left]
  | check p =>
    simp only [Stage.step]
    split <;> cases p <;> simp [Stage.after, Stage.left]
  | stop p =>
    simp only [Stage.step]
    split <;> cases p <;> simp [Stage.left]
  | await p =>
    simp only [Stage.step]
    split <;> cases p <;> simp [Stage.after, Stage.left]
  | report => exact Nat.zero_lt_one
  | ended => exact absurd rfl hstage

lemma ended_of_left (h : stage.left = 0) : stage = .ended := by
  by_contra hstage
  cases stage with
  | ended => exact hstage rfl
  | check p => cases p <;> cases h
  | stop p => cases p <;> cases h
  | await p => cases p <;> cases h
  | _ => cases h

/-- A closing never begins again. -/
lemma step_ne_enter : (stage.step pr (l, w)).1 ≠ .enter := by
  intro hstep
  by_cases hstage : stage = .ended
  · subst hstage
    cases hstep
  · have hleft : (stage.step pr (l, w)).1.left < stage.left := left_step hstage
    have hmost : stage.left ≤ Stage.enter.left := by
      cases stage with
      | check p => cases p <;> decide
      | stop p => cases p <;> decide
      | await p => cases p <;> decide
      | _ => decide
    rw [hstep] at hleft
    omega

lemma timeout_step : (stage.step pr (l, w)).2.1.timeout = l.timeout := by
  by_cases hstage : stage = .enter
  · subst hstage
    simp only [Stage.step]
    split <;> rfl
  · rw [lifecycle_step hstage]

/-! ### The tour -/

/-- How a closing is answered. -/
structure Replies where
  source : Except WatchError Unit
  /-- The end of the wait for an executor, if there is a wait. -/
  wait : Party → Option (Except TerminationError Bool)

def Replies.setWait (p : Party) (v : Option (Except TerminationError Bool)) (a : Replies) : Replies :=
  { a with wait := Function.update a.wait p v }

lemma Replies.wait_setWait (a : Replies) (v : Option (Except TerminationError Bool)) : (a.setWait p v).wait p = v :=
  Function.update_self ..

/-- What an executor is asked when its turn has come. It may be shut down already; otherwise it is stopped, and the
wait for it has this answer. -/
def errand (timeout : Duration) (p : Party) : Option (Except TerminationError Bool) → List Request
  | none => [.look p true]
  | some answer => [.look p false, .stop p, .await p timeout answer]

/-- What is asked before the turn of an executor. -/
def beforeTurn (timeout : Duration) (a : Replies) : Party → List Request
  | .loop => [.closeSource a.source]
  | .workers => .closeSource a.source :: errand timeout .loop (a.wait .loop)

/-- All that a closing asks. -/
def tour (timeout : Duration) (a : Replies) : List Request :=
  .closeSource a.source :: (errand timeout .loop (a.wait .loop) ++ errand timeout .workers (a.wait .workers))

/-- What a closing has asked when it comes to a stage. -/
def asked (timeout : Duration) (a : Replies) : Stage → List Request
  | .enter => []
  | .source => []
  | .check p => beforeTurn timeout a p
  | .stop p => beforeTurn timeout a p ++ [.look p false]
  | .await p => beforeTurn timeout a p ++ [.look p false, .stop p]
  | .report => tour timeout a
  | .ended => tour timeout a

section Tour

variable {a : Replies}

lemma asked_after : asked timeout a (.after p) = beforeTurn timeout a p ++ errand timeout p (a.wait p) := by
  cases p <;> rfl

/-- How the wait for an executor will end does not matter before its turn. -/
lemma beforeTurn_setWait (v : Option (Except TerminationError Bool)) :
    beforeTurn timeout (a.setWait p v) p = beforeTurn timeout a p := by
  cases p <;> rfl

lemma asked_after_setWait (v : Option (Except TerminationError Bool)) :
    asked timeout (a.setWait p v) (.after p) = beforeTurn timeout a p ++ errand timeout p v := by
  rw [asked_after, beforeTurn_setWait, Replies.wait_setWait]

lemma asked_after_prefix : asked timeout a (.after p) <+: tour timeout a := by
  cases p with
  | loop => exact ⟨errand timeout .workers (a.wait .workers), rfl⟩
  | workers => exact List.prefix_refl _

/-- What comes before the turn of an executor, and part of what it is asked then, is part of a tour. -/
lemma exists_prefix_tour {rs : List Request} {v : Option (Except TerminationError Bool)}
    (h : rs <+: errand timeout p v) : ∃ a', beforeTurn timeout a p ++ rs <+: tour timeout a' := by
  refine ⟨a.setWait p v, ?_⟩
  have hafter : beforeTurn timeout a p ++ rs <+: asked timeout (a.setWait p v) (.after p) := by
    rw [asked_after_setWait]
    exact (List.prefix_append_right_inj _).mpr h
  exact hafter.trans asked_after_prefix

lemma exists_asked_prefix (stage : Stage) : ∃ a', asked timeout a stage <+: tour timeout a' := by
  cases stage with
  | enter => exact ⟨a, List.nil_prefix⟩
  | source => exact ⟨a, List.nil_prefix⟩
  | check p => exact ⟨a, (List.prefix_append _ _).trans (asked_after ▸ asked_after_prefix)⟩
  | stop p => exact exists_prefix_tour (v := some (.ok true)) ⟨_, rfl⟩
  | await p => exact exists_prefix_tour (v := some (.ok true)) ⟨_, rfl⟩
  | report => exact ⟨a, List.prefix_refl _⟩
  | ended => exact ⟨a, List.prefix_refl _⟩

lemma nodup_tour : ((tour timeout a).map Request.matter).Nodup := by
  unfold tour
  cases a.wait .loop <;> cases a.wait .workers <;> exact of_decide_eq_true rfl

end Tour

/-! ### Stage by stage -/

/-- What was asked when a closing has come to a stage: all that comes before it on some tour. A closing that has died
was on the way. -/
def Standing (timeout : Duration) (died : Prop) (stage : Stage) (rs : List Request) : Prop :=
  ∃ a, rs = asked timeout a stage ∨ stage = .ended ∧ died ∧ rs ≠ [] ∧ rs <+: tour timeout a

section Standing

variable {died died' : Prop} {rs : List Request} {a : Replies}

lemma Standing.imp (h : Standing timeout died stage rs) (hdied : died → died') : Standing timeout died' stage rs := by
  obtain ⟨a, hasked⟩ := h
  exact ⟨a, hasked.imp_right (And.imp_right (And.imp_left hdied))⟩

/-- A closing that is at a stage of its tour has asked this by the next. -/
lemma standing_step (hstage : stage ≠ .enter) : Standing l.timeout (.died ∈ stage.actions pr (l, w))
    (stage.step pr (l, w)).1 (asked l.timeout a stage ++ (stage.actions pr (l, w)).filterMap CloseAction.request?) := by
  cases stage with
  | enter => exact absurd rfl hstage
  | source =>
    refine ⟨{ a with source := (pr.closeSource w).1 }, .inl ?_⟩
    rcases hclose : pr.closeSource w with ⟨_ | _, w'⟩ <;> simp only [Stage.actions, Stage.step, hclose] <;> rfl
  | check p =>
    cases hshut : (pr.executor p).isShutdown w with
    | true =>
      refine ⟨a.setWait p none, .inl ?_⟩
      simp only [Stage.actions, Stage.step, hshut, if_true, asked_after_setWait]
      rfl
    | false =>
      refine ⟨a, .inl ?_⟩
      simp only [Stage.actions, Stage.step, hshut, Bool.false_eq_true, if_false]
      rfl
  | stop p =>
    rw [asked, List.append_assoc]
    cases hhalted : pr.halted ((pr.executor p).shutdown w) with
    | true =>
      -- the request is made, and nothing after it
      obtain ⟨a', hpart⟩ : ∃ a', asked l.timeout a (.await p) <+: tour l.timeout a' := exists_asked_prefix _
      simp only [Stage.actions, Stage.step, hhalted, if_true]
      exact ⟨a', .inr ⟨rfl, by simp, by simp, hpart⟩⟩
    | false =>
      refine ⟨a, .inl ?_⟩
      simp only [Stage.actions, Stage.step, hhalted, Bool.false_eq_true, if_false]
      rfl
  | await p =>
    rw [asked, List.append_assoc]
    cases hhalted : pr.halted ((pr.executor p).await l.timeout w).2 with
    | true =>
      obtain ⟨a', hpart⟩ : ∃ a', beforeTurn l.timeout a p ++
          errand l.timeout p (some ((pr.executor p).await l.timeout w).1) <+: tour l.timeout a' :=
        exists_prefix_tour (List.prefix_refl _)
      simp only [Stage.actions, Stage.step, hhalted, if_true]
      exact ⟨a', .inr ⟨rfl, by simp, by simp, hpart⟩⟩
    | false =>
      refine ⟨a.setWait p (some ((pr.executor p).await l.timeout w).1), .inl ?_⟩
      simp only [Stage.actions, Stage.step, hhalted, Bool.false_eq_true, if_false, asked_after_setWait]
      rfl
  | report => exact ⟨a, .inl (List.append_nil _)⟩
  | ended => exact ⟨a, .inl (List.append_nil _)⟩

lemma Standing.step (h : Standing l.timeout died stage rs) (hstage : stage ≠ .enter) :
    Standing l.timeout (died ∨ .died ∈ stage.actions pr (l, w)) (stage.step pr (l, w)).1
      (rs ++ (stage.actions pr (l, w)).filterMap CloseAction.request?) := by
  obtain ⟨a, rfl | ⟨rfl, hdied, hne, hpart⟩⟩ := h
  · exact (standing_step hstage).imp .inr
  · rw [Stage.actions, List.filterMap_nil, List.append_nil]
    exact ⟨a, .inr ⟨rfl, .inl hdied, hne, hpart⟩⟩

lemma Standing.exists_tour (h : Standing timeout died stage rs) : ∃ a, rs <+: tour timeout a := by
  obtain ⟨a, rfl | ⟨-, -, -, hpart⟩⟩ := h
  · exact exists_asked_prefix stage
  · exact ⟨a, hpart⟩

/-- A closing that is at its end has made the whole tour, or it has died. -/
lemma Standing.whole_or_died (h : Standing timeout died .ended rs) : (∃ a, rs = tour timeout a) ∨ died := by
  obtain ⟨a, rfl | ⟨-, hdied, -⟩⟩ := h
  · exact .inl ⟨a, rfl⟩
  · exact .inr hdied

/-- Dead or not, it has closed the source. -/
lemma Standing.source_mem (h : Standing timeout died .ended rs) : .source ∈ rs.map Request.matter := by
  obtain ⟨a, rfl | ⟨-, -, hne, hpart⟩⟩ := h
  · exact List.mem_cons_self
  · obtain ⟨r, rs, rfl⟩ := List.exists_cons_of_ne_nil hne
    obtain ⟨rfl, -⟩ := List.cons_prefix_cons.mp hpart
    exact List.mem_cons_self

end Standing

end LinkWatch.Lifecycle
