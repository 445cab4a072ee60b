import LinkWatch.Proofs.Closing.Tour
import LinkWatch.Scripted.Executor

/-!
Calls that close one watcher at the same time. Each goes through its stages, and between any two of them others may
act on the surroundings: they shut an executor down, also between the look at it and the request to stop it, or do
whatever else.

The history of a race tells what the calls and the others did. It is true to the surroundings (`Truthful`), and nothing
but what it tells has changed them (`replay`). The call that came first makes all requests, a tour or the beginning of
one; every other call says that the watcher is closed already, and nothing else (`closes_once`).
-/

namespace LinkWatch.Lifecycle

variable {ι σ : Type} {pr : Premises σ} {timeout : Duration} {w : σ}

/-! ### Histories -/

/-- What others do to the surroundings. -/
inductive Interference (σ : Type) where
  | shutdown (p : Party)
  | other (f : σ → σ)

def Interference.effect (pr : Premises σ) : Interference σ → σ → σ
  | .shutdown p, w => (pr.executor p).shutdown w
  | .other f, w => f w

/-- What happens around a watcher that is closed: a call does something, or somebody else. -/
inductive CloseEvent (ι σ : Type) where
  | action (i : ι) (d : CloseAction)
  | interference (x : Interference σ)

namespace CloseEvent

def request? : CloseEvent ι σ → Option Request
  | .action _ d => d.request?
  | .interference _ => none

/-- What this call does. -/
def actionOf? [DecidableEq ι] (i : ι) : CloseEvent ι σ → Option CloseAction
  | .action j d => if j = i then some d else none
  | .interference _ => none

def effect (pr : Premises σ) : CloseEvent ι σ → σ → σ
  | .action _ d => d.effect pr
  | .interference x => x.effect pr

/-- It can happen in these surroundings. -/
def Holds (pr : Premises σ) (w : σ) : CloseEvent ι σ → Prop
  | .action _ d => d.Holds pr w
  | .interference _ => True

end CloseEvent

/-- The surroundings after all this. -/
def replay (pr : Premises σ) (w : σ) (history : List (CloseEvent ι σ)) : σ := history.foldl (fun w h => h.effect pr w) w

/-- All answers are those that the surroundings gave at their time. -/
def Truthful (pr : Premises σ) : σ → List (CloseEvent ι σ) → Prop
  | _, [] => True
  | w, h :: hs => h.Holds pr w ∧ Truthful pr (h.effect pr w) hs

section History

variable {hs hs' : List (CloseEvent ι σ)}

lemma replay_append : replay pr w (hs ++ hs') = replay pr (replay pr w hs) hs' := List.foldl_append

lemma truthful_append : Truthful pr w (hs ++ hs') ↔ Truthful pr w hs ∧ Truthful pr (replay pr w hs) hs' := by
  induction hs generalizing w with
  | nil => exact ⟨fun h => ⟨trivial, h⟩, And.right⟩
  | cons h hs ih =>
    show _ ∧ Truthful pr _ (hs ++ hs') ↔ (_ ∧ _) ∧ _
    rw [ih, and_assoc]
    rfl

lemma Truthful.exists_holds {h : CloseEvent ι σ} (ht : Truthful pr w hs) (hh : h ∈ hs) : ∃ w', h.Holds pr w' := by
  obtain ⟨before, after, rfl⟩ := List.append_of_mem hh
  exact ⟨_, (truthful_append.mp ht).2.1⟩

end History

section Actions

variable {l : Lifecycle} {stage : Stage} (i : ι)

lemma replay_actions :
    replay pr w ((stage.actions pr (l, w)).map (CloseEvent.action i)) = (stage.step pr (l, w)).2.2 := by
  rw [replay, List.foldl_map]
  exact effect_actions

lemma truthful_actions : Truthful pr w ((stage.actions pr (l, w)).map (CloseEvent.action i)) := by
  cases stage with
  | enter => cases hclosed : l.closed <;> simp [Stage.actions, Truthful, CloseEvent.Holds, CloseAction.Holds, hclosed]
  | source =>
    rcases hclose : pr.closeSource w with ⟨_ | _, w'⟩ <;>
      simp [Stage.actions, Truthful, CloseEvent.Holds, CloseAction.Holds, Request.IsAnswered, hclose]
  | check p =>
    cases hshut : (pr.executor p).isShutdown w <;>
      simp [Stage.actions, Truthful, CloseEvent.Holds, CloseAction.Holds, Request.IsAnswered, hshut]
  | stop p =>
    cases hhalted : pr.halted ((pr.executor p).shutdown w) <;>
      simp [Stage.actions, Truthful, CloseEvent.Holds, CloseEvent.effect, CloseAction.Holds, CloseAction.effect,
        Request.IsAnswered, Request.effect, hhalted]
  | await p =>
    cases hhalted : pr.halted ((pr.executor p).await l.timeout w).2 <;>
      simp [Stage.actions, Truthful, CloseEvent.Holds, CloseEvent.effect, CloseAction.Holds, CloseAction.effect,
        Request.IsAnswered, Request.effect, hhalted]
  | report => exact ⟨trivial, trivial⟩
  | ended => exact trivial

end Actions

/-! ### Races -/

/-- A watcher that any number of calls close. -/
structure Race (ι σ : Type) where
  lifecycle : Lifecycle
  world : σ
  /-- Where each call is. One that has not begun is before its first stage. -/
  stage : ι → Stage := fun _ => .enter
  /-- What has happened, first first. -/
  history : List (CloseEvent ι σ) := []

/-- A call goes through its next stage, or somebody else does something. -/
inductive CloseStep (ι σ : Type) where
  | call (i : ι)
  | interfere (x : Interference σ)

def CloseStep.isCall [DecidableEq ι] (i : ι) : CloseStep ι σ → Bool
  | .call j => j = i
  | .interfere _ => false

namespace Race

/-- A watcher that nobody has closed yet. -/
def opened (timeout : Duration) (w : σ) : Race ι σ := { lifecycle := { timeout }, world := w }

def Called (s : Race ι σ) (i : ι) : Prop := s.stage i ≠ .enter

/-- Every call that has begun has come to its end. -/
def AtRest (s : Race ι σ) : Prop := ∀ i, s.Called i → s.stage i = .ended

/-- What was asked of the surroundings, by whatever call. -/
def requests (s : Race ι σ) : List Request := s.history.filterMap CloseEvent.request?

/-- The history is true, and tells all. -/
structure Told (pr : Premises σ) (timeout : Duration) (w : σ) (s : Race ι σ) : Prop where
  limit : s.lifecycle.timeout = timeout
  truthful : Truthful pr w s.history
  world : s.world = replay pr w s.history

lemma told_opened (pr : Premises σ) : (opened timeout w : Race ι σ).Told pr timeout w := ⟨rfl, trivial, rfl⟩

variable [DecidableEq ι]

def actionsOf (i : ι) (s : Race ι σ) : List CloseAction := s.history.filterMap (CloseEvent.actionOf? i)

/-- One stage of a call. -/
def advance (pr : Premises σ) (i : ι) (s : Race ι σ) : Race ι σ where
  lifecycle := ((s.stage i).step pr (s.lifecycle, s.world)).2.1
  world := ((s.stage i).step pr (s.lifecycle, s.world)).2.2
  stage := Function.update s.stage i ((s.stage i).step pr (s.lifecycle, s.world)).1
  history := s.history ++ ((s.stage i).actions pr (s.lifecycle, s.world)).map (CloseEvent.action i)

def move (pr : Premises σ) (s : Race ι σ) : CloseStep ι σ → Race ι σ
  | .call i => s.advance pr i
  | .interfere x => { s with world := x.effect pr s.world, history := s.history ++ [.interference x] }

def after (pr : Premises σ) (moves : List (CloseStep ι σ)) (s : Race ι σ) : Race ι σ := moves.foldl (move pr) s

variable {s : Race ι σ} {i j : ι} {x : Interference σ}

lemma after_cons (m : CloseStep ι σ) (moves : List (CloseStep ι σ)) :
    s.after pr (m :: moves) = (s.move pr m).after pr moves :=
  rfl

lemma mem_actionsOf {d : CloseAction} : d ∈ s.actionsOf i ↔ .action i d ∈ s.history := by
  rw [actionsOf, List.mem_filterMap]
  constructor
  · rintro ⟨h, hmem, haction⟩
    cases h with
    | action j d' =>
      obtain ⟨rfl, hd⟩ := Option.ite_none_right_eq_some.mp haction
      obtain rfl := Option.some.inj hd
      exact hmem
    | interference x => cases haction
  · exact fun hmem => ⟨_, hmem, if_pos rfl⟩

lemma stage_advance_self : (s.advance pr i).stage i = ((s.stage i).step pr (s.lifecycle, s.world)).1 :=
  Function.update_self ..

lemma stage_advance_of_ne (h : j ≠ i) : (s.advance pr i).stage j = s.stage j := Function.update_of_ne h ..

lemma requests_advance : (s.advance pr i).requests =
    s.requests ++ ((s.stage i).actions pr (s.lifecycle, s.world)).filterMap CloseAction.request? := by
  rw [requests, advance, List.filterMap_append, List.filterMap_map]
  rfl

lemma actionsOf_advance_self :
    (s.advance pr i).actionsOf i = s.actionsOf i ++ (s.stage i).actions pr (s.lifecycle, s.world) := by
  have hown : CloseEvent.actionOf? i ∘ CloseEvent.action (σ := σ) i = some := by
    funext d
    exact if_pos rfl
  rw [actionsOf, advance, List.filterMap_append, List.filterMap_map, hown, List.filterMap_some]
  rfl

lemma actionsOf_advance_of_ne (h : j ≠ i) : (s.advance pr i).actionsOf j = s.actionsOf j := by
  have hother : CloseEvent.actionOf? j ∘ CloseEvent.action (σ := σ) i = fun _ => none := by
    funext d
    exact if_neg h.symm
  rw [actionsOf, advance, List.filterMap_append, List.filterMap_map, hother, List.filterMap_none, List.append_nil]
  rfl

lemma requests_interfere : (s.move pr (.interfere x)).requests = s.requests := by
  rw [requests, move, List.filterMap_append]
  exact List.append_nil _

lemma actionsOf_interfere : (s.move pr (.interfere x)).actionsOf i = s.actionsOf i := by
  rw [actionsOf, move, List.filterMap_append]
  exact List.append_nil _

/-! ### Calls come to their ends -/

lemma after_replicate (n : Nat) :
    ((s.after pr (List.replicate n (.call i))).lifecycle, (s.after pr (List.replicate n (.call i))).world) =
      run pr n (s.stage i) (s.lifecycle, s.world) := by
  induction n generalizing s with
  | zero => rfl
  | succ n ih =>
    rw [List.replicate_succ, after_cons, ih]
    show run pr n ((s.advance pr i).stage i) _ = _
    rw [stage_advance_self]
    rfl

/-- A call with nothing between its stages does what a closing does that is alone. -/
theorem close_eq_after (h : ¬ s.Called i) : close pr (s.lifecycle, s.world) =
    ((s.after pr (List.replicate Stage.enter.left (.call i))).lifecycle,
      (s.after pr (List.replicate Stage.enter.left (.call i))).world) := by
  have hstage : s.stage i = .enter := not_not.mp h
  rw [after_replicate, hstage]
  rfl

/-- Each of its moves brings a call nearer to its end, and no other move takes it further away. -/
lemma left_move (pr : Premises σ) (m : CloseStep ι σ) (i : ι) :
    ((s.move pr m).stage i).left ≤ (s.stage i).left - if m.isCall i then 1 else 0 := by
  cases m with
  | call j =>
    by_cases hji : j = i
    · subst hji
      rw [if_pos (by simp [CloseStep.isCall]), move, stage_advance_self]
      by_cases hended : s.stage j = .ended
      · rw [hended]
        exact Nat.le_refl _
      · exact Nat.le_sub_one_of_lt (left_step hended)
    · rw [if_neg (by simp [CloseStep.isCall, hji]), move, stage_advance_of_ne fun h => hji h.symm]
      exact Nat.le_refl _
  | interfere x => exact Nat.le_refl _

lemma left_after (pr : Premises σ) (moves : List (CloseStep ι σ)) (i : ι) :
    ((s.after pr moves).stage i).left ≤ (s.stage i).left - moves.countP (CloseStep.isCall i) := by
  induction moves generalizing s with
  | nil => exact Nat.le_refl _
  | cons m moves ih =>
    have hmove := left_move (s := s) pr m i
    have hrest := ih (s := s.move pr m)
    rw [after_cons, List.countP_cons]
    omega

/-! ### The first call and the others -/

/-- Nobody has called yet. -/
structure Still (s : Race ι σ) : Prop where
  opened : s.lifecycle.closed = false
  stage : ∀ i, s.stage i = .enter
  requests : s.requests = []
  actionsOf : ∀ i, s.actionsOf i = []

/-- What becomes of a call that is not the first: it comes to its end at once. -/
def Late (s : Race ι σ) (i : ι) : Prop :=
  s.stage i = .enter ∧ s.actionsOf i = [] ∨ s.stage i = .ended ∧ s.actionsOf i = [.said againRecord]

/-- The call that came first is on its tour. -/
structure Led (timeout : Duration) (s : Race ι σ) (first : ι) : Prop where
  closed : s.lifecycle.closed = true
  called : s.Called first
  standing : Standing timeout (.died ∈ s.actionsOf first) (s.stage first) s.requests
  late : ∀ i, i ≠ first → s.Late i

lemma Late.advance_of_ne (h : s.Late j) (hji : j ≠ i) : (s.advance pr i).Late j := by
  unfold Late
  rw [stage_advance_of_ne hji, actionsOf_advance_of_ne hji]
  exact h

/-- A call that comes too late asks for nothing. -/
lemma Late.advance (h : s.Late i) (hclosed : s.lifecycle.closed = true) (pr : Premises σ) :
    (s.advance pr i).Late i ∧ (s.advance pr i).lifecycle = s.lifecycle ∧ (s.advance pr i).requests = s.requests := by
  unfold Late
  rw [stage_advance_self, actionsOf_advance_self, requests_advance, Race.advance]
  rcases h with ⟨hstage, hactions⟩ | ⟨hstage, hactions⟩ <;> simp [hstage, hactions, Stage.step, Stage.actions, hclosed]

lemma Still.advance (h : s.Still) (i : ι) : (s.advance pr i).Led timeout i where
  closed := by simp [Race.advance, h.stage, Stage.step, h.opened]
  called := by simp [Called, stage_advance_self, h.stage, Stage.step, h.opened]
  standing := by
    refine ⟨⟨.ok (), fun _ => none⟩, .inl ?_⟩
    simp [requests_advance, stage_advance_self, h.stage, h.requests, Stage.step, Stage.actions, h.opened, asked]
  late j hji := Late.advance_of_ne (.inl ⟨h.stage j, h.actionsOf j⟩) hji

lemma Still.interfere (h : s.Still) : (s.move pr (.interfere x)).Still where
  opened := h.opened
  stage := h.stage
  requests := requests_interfere.trans h.requests
  actionsOf i := actionsOf_interfere.trans (h.actionsOf i)

lemma Led.advance {first : ι} (h : s.Led timeout first) (htimeout : s.lifecycle.timeout = timeout) (i : ι) :
    (s.advance pr i).Led timeout first := by
  by_cases hi : i = first
  · -- the first call goes on with its tour, and no other sees it
    subst hi
    refine ⟨?_, ?_, ?_, fun j hji => (h.late j hji).advance_of_ne hji⟩
    · rw [Race.advance, lifecycle_step h.called]
      exact h.closed
    · rw [Called, stage_advance_self]
      exact step_ne_enter
    · rw [actionsOf_advance_self, List.mem_append, stage_advance_self, requests_advance]
      subst htimeout
      exact h.standing.step h.called
  · obtain ⟨hlate, hlifecycle, hrequests⟩ := (h.late i hi).advance h.closed pr
    have hne : first ≠ i := fun heq => hi heq.symm
    refine ⟨hlifecycle ▸ h.closed, ?_, ?_, fun j hj => ?_⟩
    · rw [Called, stage_advance_of_ne hne]
      exact h.called
    · rw [actionsOf_advance_of_ne hne, stage_advance_of_ne hne, hrequests]
      exact h.standing
    · by_cases hji : j = i
      · exact hji ▸ hlate
      · exact (h.late j hj).advance_of_ne hji

lemma Led.interfere {first : ι} (h : s.Led timeout first) : (s.move pr (.interfere x)).Led timeout first where
  closed := h.closed
  called := h.called
  standing := by
    rw [actionsOf_interfere, requests_interfere]
    exact h.standing
  late i hi := by
    unfold Late
    rw [actionsOf_interfere]
    exact h.late i hi

lemma Told.move (h : s.Told pr timeout w) (m : CloseStep ι σ) : (s.move pr m).Told pr timeout w := by
  cases m with
  | call i =>
    refine ⟨timeout_step.trans h.limit, truthful_append.mpr ⟨h.truthful, ?_⟩, ?_⟩
    · rw [← h.world]
      exact truthful_actions i
    · rw [Race.move, advance, replay_append, ← h.world, replay_actions]
  | interfere x =>
    refine ⟨h.limit, truthful_append.mpr ⟨h.truthful, trivial, trivial⟩, ?_⟩
    rw [Race.move, replay_append, ← h.world]
    rfl

lemma Led.move {first : ι} (h : s.Led timeout first) (ht : s.Told pr timeout w) (m : CloseStep ι σ) :
    (s.move pr m).Led timeout first := by
  cases m with
  | call i => exact h.advance ht.limit i
  | interfere x => exact h.interfere

lemma Told.after (h : s.Told pr timeout w) (moves : List (CloseStep ι σ)) : (s.after pr moves).Told pr timeout w := by
  induction moves generalizing s with
  | nil => exact h
  | cons m moves ih => exact ih (h.move m)

/-- The first call stays the first. -/
lemma Led.after {first : ι} (h : s.Led timeout first) (ht : s.Told pr timeout w) (moves : List (CloseStep ι σ)) :
    (s.after pr moves).Led timeout first := by
  induction moves generalizing s with
  | nil => exact h
  | cons m moves ih => exact ih (h.move ht m) (ht.move m)

lemma Still.after (h : s.Still) (ht : s.Told pr timeout w) (moves : List (CloseStep ι σ)) :
    (s.after pr moves).Still ∨ ∃ first, (s.after pr moves).Led timeout first := by
  induction moves generalizing s with
  | nil => exact .inl h
  | cons m moves ih =>
    cases m with
    | call i => exact .inr ⟨i, (h.advance i).after (ht.move (.call i)) moves⟩
    | interfere x => exact ih h.interfere (ht.move (.interfere x))

lemma still_opened : (opened timeout w : Race ι σ).Still := ⟨rfl, fun _ => rfl, rfl, fun _ => rfl⟩

/-! ### One closing -/

lemma Still.not_called (h : s.Still) : ¬ ∃ i, s.Called i := by
  rintro ⟨i, hi⟩
  exact hi (h.stage i)

/-- The first call makes the whole tour, unless a request kills it. -/
lemma Led.whole_or_died {first : ι} (h : s.Led timeout first) (ht : s.Told pr timeout w)
    (hended : s.stage first = .ended) :
    (∃ a, s.requests = tour timeout a) ∨ .died ∈ s.actionsOf first ∧ ∃ w', pr.halted w' = true := by
  refine (hended ▸ h.standing).whole_or_died.imp_right fun hdied => ⟨hdied, ?_⟩
  exact ht.truthful.exists_holds (mem_actionsOf.mp hdied)

/-- **One closing, in its order.** However the moves of any number of calls to close and of others come: the history
tells all that has changed the surroundings, with the answers that they gave. Nothing is asked twice, and what is asked
is the beginning of one tour: the source is closed; whatever it answers, the loop has its turn, and is stopped and then
waited for with the timeout of the watcher unless it is shut down already; whatever that answers, the workers have
theirs. The call that came first makes the whole tour unless a request kills it; every other ends at once, now and
later, and only says that it comes too late. When all calls that have begun are at their ends, the source was closed
once if there were any; and a call is at its end after nine moves. -/
theorem closes_once (pr : Premises σ) (timeout : Duration) (w : σ) (moves : List (CloseStep ι σ)) :
    let s := (opened timeout w).after pr moves
    (Truthful pr w s.history ∧ s.world = replay pr w s.history) ∧
    (s.requests.map Request.matter).Nodup ∧ (∃ a, s.requests <+: tour timeout a) ∧
    (s.lifecycle.closed = true ↔ ∃ i, s.Called i) ∧
    ((∃ i, s.Called i) → ∃ first, s.Called first ∧ ∀ moves', let s' := s.after pr moves'
      (∀ i, s'.Called i → i ≠ first → s'.stage i = .ended ∧ s'.actionsOf i = [.said againRecord]) ∧
      (s'.stage first = .ended →
        (∃ a, s'.requests = tour timeout a) ∨ .died ∈ s'.actionsOf first ∧ ∃ w', pr.halted w' = true)) ∧
    (s.AtRest → ((s.requests.map Request.matter).count .source = 1 ↔ ∃ i, s.Called i)) ∧
    ∀ i, Stage.enter.left ≤ moves.countP (CloseStep.isCall i) → s.stage i = .ended := by
  intro s
  have ht : s.Told pr timeout w := (told_opened pr).after moves
  have hended : ∀ i, Stage.enter.left ≤ moves.countP (CloseStep.isCall i) → s.stage i = .ended := by
    intro i hi
    have hleft := left_after (s := opened timeout w) pr moves i
    exact ended_of_left (Nat.le_zero.mp (Nat.sub_eq_zero_of_le hi ▸ hleft))
  refine ⟨⟨ht.truthful, ht.world⟩, ?_⟩
  rcases still_opened.after (told_opened pr) moves with hstill | ⟨first, hled⟩
  · -- nobody has called, and nothing was asked
    have hno := hstill.not_called
    have hnothing : s.requests = [] := hstill.requests
    refine ⟨by simp [hnothing], ⟨⟨.ok (), fun _ => none⟩, by simp [hnothing]⟩, iff_of_false ?_ hno,
      fun h => absurd h hno, fun _ => iff_of_false (by simp [hnothing]) hno, hended⟩
    simp [s, hstill.opened]
  · have hcalled : ∃ i, s.Called i := ⟨first, hled.called⟩
    obtain ⟨a, hpart⟩ := hled.standing.exists_tour
    have hnodup : (s.requests.map Request.matter).Nodup := nodup_tour.sublist (hpart.map Request.matter).sublist
    refine ⟨hnodup, ⟨a, hpart⟩, iff_of_true hled.closed hcalled, fun _ => ⟨first, hled.called, fun moves' => ?_⟩,
      fun hrest => iff_of_true ?_ hcalled, hended⟩
    · have hled' := hled.after ht moves'
      refine ⟨fun i hi hne => ?_, hled'.whole_or_died (ht.after moves')⟩
      exact (hled'.late i hne).resolve_left fun hlate => hi hlate.1
    · exact List.count_eq_one_of_mem hnodup (hrest first hled.called ▸ hled.standing).source_mem

/-! ### Two calls, and others between their stages -/

/-- The source fails to close, and the loop does not end in time. -/
def frail : Scripted.StubWatcher := { source := { failClose := true }, loop := { ending := .timedOut } }

/-- The second call comes before the first has closed the source. Others shut the loop down after the first call has
looked at it, and the workers before their turn. -/
def crossing : List (CloseStep Nat Scripted.StubWatcher) :=
  [.call 0, .call 1, .call 0, .call 0, .interfere (.shutdown .loop), .call 0, .interfere (.shutdown .workers), .call 0,
    .call 0, .call 0]

theorem closes_once_crossing :
    let s := (opened ⟨2 * Duration.second⟩ frail).after Scripted.StubWatcher.premises crossing
    s.AtRest ∧ (s.requests.map Request.matter).count .source = 1 ∧
      s.requests.map Request.matter = [.source, .look .loop, .stop .loop, .await .loop, .look .workers] ∧
      s.actionsOf 1 = [.said againRecord] ∧ s.world.source.closeCalls = 1 ∧
      s.world.loop.shutdownCalls = 2 ∧ s.world.loop.awaitCalls = 1 ∧
      s.world.loop.lastTimeout = some ⟨2 * Duration.second⟩ ∧
      s.world.workers.shutdownCalls = 1 ∧ s.world.workers.awaitCalls = 0 := by
  intro s
  have hrest : s.AtRest := by
    intro i hi
    match i with
    | 0 => rfl
    | 1 => rfl
    | _ + 2 => exact absurd rfl hi
  obtain ⟨-, -, -, -, -, hsource, -⟩ := closes_once Scripted.StubWatcher.premises ⟨2 * Duration.second⟩ frail crossing
  exact ⟨hrest, (hsource hrest).mpr ⟨0, nofun⟩, rfl, rfl, rfl, rfl, rfl, rfl, rfl, rfl⟩

end Race

end LinkWatch.Lifecycle
