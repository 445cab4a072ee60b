import LinkWatch.Proofs.Engine.Cut
import LinkWatch.Proofs.Engine.Keeping

/-!
Drain requests, made at any time. Others ask a loop to drain, let time pass, or see the loop end; they do so between
batches and, while a batch is handled, before each question that the loop asks. The state of the loop only moves
forward and one request at most is accepted, the first. But each request leaves its deadline, and the loop goes by the
last one (`drain_requests`): a refused request decides which events are dropped whenever a batch is cut elsewhere than
under the accepted request alone (`drain_requests_askedTwice`).
-/

namespace LinkWatch

variable {σ : Type}

/-- How far a loop has come. -/
def LoopState.stage : LoopState → Nat
  | .running => 0
  | .draining => 1
  | .stopped => 2

/-! ### A loop among others -/

/-- What others do to a loop and its clock. -/
inductive LoopAction where
  /-- Time passes. -/
  | wait (span : Duration)
  /-- Somebody asks the loop to drain. -/
  | ask (timeout : Duration)
  /-- The loop ends. -/
  | finish

/-- A drain request that was answered. -/
structure DrainRequest where
  deadline : Instant
  accepted : Bool
deriving DecidableEq

/-- A world with a loop, its clock, and the drain requests so far. -/
structure Attended (σ : Type) where
  world : σ
  control : LoopControl := {}
  now : Instant
  requests : List DrainRequest := []
  /-- What others do before each of the next questions. -/
  ahead : List (List LoopAction) := []

namespace Attended

/-- A drain request is made and answered. -/
def request (s : Attended σ) (deadline : Instant) : Attended σ :=
  let (accepted, control) := s.control.requestDrain deadline
  { s with control, requests := s.requests ++ [⟨deadline, accepted⟩] }

/-- Whoever asks for a deadline that the clock cannot show dies before the request is made. -/
def after (s : Attended σ) : LoopAction → Attended σ
  | .wait span => { s with now := ⟨s.now.nanos + span.nanos⟩ }
  | .ask timeout => ((s.now.add? timeout).map s.request).getD s
  | .finish => { s with control := s.control.stop }

/-- Others have their turn. -/
def turn (s : Attended σ) : Attended σ := (s.ahead.headD []).foldl after { s with ahead := s.ahead.tail }

/-- A question to the world, after the turn of others. -/
def ask {α : Type} (question : σ → α × σ) (s : Attended σ) : α × Attended σ :=
  ((question s.turn.world).1, { s.turn with world := (question s.turn.world).2 })

/-- The verdict of the accepted request alone. -/
def promised (s : Attended σ) : Bool :=
  s.control.state == .draining && s.requests.any fun r => r.accepted && decide (r.deadline.nanos ≤ s.now.nanos)

end Attended

namespace System

/-- The system as a loop among others asks it. -/
def attended (sys : System σ) : System (Attended σ) where
  entryKind p := Attended.ask (sys.entryKind p)
  readLink p := Attended.ask (sys.readLink p)
  currentDir := Attended.ask sys.currentDir
  watch dir := Attended.ask (sys.watch dir)
  unwatch dir := Attended.ask (sys.unwatch dir)
  overdue s := (s.turn.control.overdue s.turn.now, s.turn)
  halted s := sys.halted s.world

/-- The same system, if the accepted request alone counted. -/
def promised (sys : System σ) : System (Attended σ) :=
  { sys.attended with overdue := fun s => (s.turn.promised, s.turn) }

end System

/-! ### One action -/

namespace Attended

variable {s : Attended σ}

lemma request_of_running (h : s.control.state = .running) (deadline : Instant) :
    s.request deadline =
      { s with control := ⟨.draining, some deadline⟩, requests := s.requests ++ [⟨deadline, true⟩] } := by
  simp [request, LoopControl.requestDrain, h]

/-- A refused request changes the deadline all the same. -/
lemma request_of_ne (h : s.control.state ≠ .running) (deadline : Instant) :
    s.request deadline =
      { s with control := { s.control with deadline := some deadline }
               requests := s.requests ++ [⟨deadline, false⟩] } := by
  cases hstate : s.control.state with
  | running => exact absurd hstate h
  | draining => simp [request, LoopControl.requestDrain, hstate]
  | stopped => simp [request, LoopControl.requestDrain, hstate]

lemma after_ask (s : Attended σ) (timeout : Duration) :
    s.after (.ask timeout) = s ∨ ∃ deadline, s.after (.ask timeout) = s.request deadline := by
  rw [after]
  cases s.now.add? timeout with
  | none => exact Or.inl rfl
  | some deadline => exact Or.inr ⟨deadline, rfl⟩

lemma stage_after (s : Attended σ) (d : LoopAction) : s.control.state.stage ≤ (s.after d).control.state.stage := by
  cases d with
  | wait span => exact Nat.le_refl _
  | finish =>
    have hlast : (s.after .finish).control.state.stage = 2 := rfl
    rw [hlast]
    cases s.control.state <;> decide
  | ask timeout =>
    rcases s.after_ask timeout with heq | ⟨deadline, heq⟩ <;> rw [heq]
    by_cases hrunning : s.control.state = .running
    · rw [hrunning]
      exact Nat.zero_le _
    · rw [request_of_ne hrunning]

/-- What the requests say about the loop. -/
structure Accounted (s : Attended σ) : Prop where
  /-- The loop goes by the last request, accepted or not. -/
  deadline : s.control.deadline = s.requests.getLast?.map DrainRequest.deadline
  refused : ∀ r ∈ s.requests.tail, r.accepted = false
  unasked : s.control.state = .running → s.requests = []
  accepted : s.control.state = .draining → ∃ r ∈ s.requests.head?, r.accepted = true

lemma Accounted.request (h : s.Accounted) (deadline : Instant) : (s.request deadline).Accounted := by
  by_cases hrunning : s.control.state = .running
  · rw [request_of_running hrunning, h.unasked hrunning]
    exact ⟨rfl, nofun, nofun, fun _ => ⟨_, rfl, rfl⟩⟩
  · rw [request_of_ne hrunning]
    refine ⟨by rw [List.getLast?_concat]; rfl, ?_, fun hstate => absurd hstate hrunning, fun hstate => ?_⟩
    · cases hrequests : s.requests with
      | nil => nofun
      | cons first rest =>
        intro r hr
        rcases List.mem_append.mp hr with hr | hr
        · exact h.refused r (by rwa [hrequests])
        · rw [List.mem_singleton.mp hr]
    · obtain ⟨r, hr, haccepted⟩ := h.accepted hstate
      exact ⟨r, List.mem_head?_append_of_mem_head? hr, haccepted⟩

lemma Accounted.after (h : s.Accounted) (d : LoopAction) : (s.after d).Accounted := by
  cases d with
  | wait span => exact ⟨h.deadline, h.refused, h.unasked, h.accepted⟩
  | finish => exact ⟨h.deadline, h.refused, nofun, nofun⟩
  | ask timeout =>
    rcases s.after_ask timeout with heq | ⟨deadline, heq⟩ <;> rw [heq]
    · exact h
    · exact h.request deadline

/-- Past its deadline is a draining loop at which the last request has run out of time. -/
lemma Accounted.overdue_iff (h : s.Accounted) : s.control.overdue s.now = true ↔
    s.control.state = .draining ∧ ∃ r ∈ s.requests.getLast?, r.deadline.nanos ≤ s.now.nanos := by
  rw [LoopControl.overdue, h.deadline]
  cases s.requests.getLast? <;> simp

end Attended

/-! ### A batch -/

section Kept

variable {sys : System σ} {P : Attended σ → Prop} (hafter : ∀ s d, P s → P (s.after d))
  (hworld : ∀ s world, P s → P { s with world }) (hahead : ∀ s ahead, P s → P { s with ahead })

include hafter hahead in
lemma Attended.turn_keeps {s : Attended σ} (h : P s) : P s.turn := by
  have hactions : ∀ (ds : List LoopAction) (s : Attended σ), P s → P (ds.foldl after s) := by
    intro ds
    induction ds with
    | nil => exact fun _ h => h
    | cons d ds ih => exact fun s h => ih _ (hafter s d h)
  exact hactions _ _ (hahead s _ h)

include hafter hworld hahead in
/-- What actions keep and a question does not concern, a loop among others keeps. -/
lemma System.attended_keeps (sys : System σ) : sys.attended.Keeps P := by
  have hask : ∀ {α : Type} (question : σ → α × σ) (s : Attended σ), P s → P (s.ask question).2 :=
    fun _ _ h => hworld _ _ (Attended.turn_keeps hafter hahead h)
  exact ⟨⟨fun _ => hask _, fun _ => hask _, hask _⟩, fun _ => hask _, fun _ => hask _,
    fun _ h => Attended.turn_keeps hafter hahead h⟩

end Kept

lemma Attended.Accounted.turn {s : Attended σ} (h : s.Accounted) : s.turn.Accounted :=
  turn_keeps (fun _ d h => h.after d) (fun _ _ h => ⟨h.deadline, h.refused, h.unasked, h.accepted⟩) h

lemma System.attended_accounted (sys : System σ) : sys.attended.Keeps Attended.Accounted :=
  sys.attended_keeps (fun _ d h => h.after d) (fun _ _ h => ⟨h.deadline, h.refused, h.unasked, h.accepted⟩)
    fun _ _ h => ⟨h.deadline, h.refused, h.unasked, h.accepted⟩

lemma System.attended_stage (sys : System σ) (n : Nat) :
    sys.attended.Keeps fun s => n ≤ s.control.state.stage :=
  sys.attended_keeps (fun s d h => h.trans (s.stage_after d)) (fun _ _ h => h) fun _ _ h => h

/-! ### Runs -/

/-- What happens to a loop: an action of others, or a batch, with what others do before each of its questions. -/
inductive Occasion where
  | action (a : LoopAction)
  | batch (events : List Event) (meanwhile : List (List LoopAction))

namespace Engine

variable {e : Engine (Attended σ)}

/-- Others are about to do this. -/
def facing (meanwhile : List (List LoopAction)) (e : Engine (Attended σ)) : Engine (Attended σ) :=
  { e with world := { e.world with ahead := meanwhile } }

def occur (sys : System σ) (e : Engine (Attended σ)) : Occasion → Engine (Attended σ)
  | .action d => { e with world := e.world.after d }
  | .batch events meanwhile => process sys.attended events (e.facing meanwhile)

/-- One occasion after the other. -/
def attend (sys : System σ) (occasions : List Occasion) (e : Engine (Attended σ)) : Engine (Attended σ) :=
  occasions.foldl (occur sys) e

lemma accounted_occur (sys : System σ) (h : e.world.Accounted) (o : Occasion) :
    (e.occur sys o).world.Accounted := by
  cases o with
  | action d => exact h.after d
  | batch events meanwhile =>
    exact sys.attended_accounted.process events ⟨h.deadline, h.refused, h.unasked, h.accepted⟩

lemma stage_occur (sys : System σ) (e : Engine (Attended σ)) (o : Occasion) :
    e.world.control.state.stage ≤ (e.occur sys o).world.control.state.stage := by
  cases o with
  | action d => exact e.world.stage_after d
  | batch events meanwhile =>
    exact (sys.attended_stage _).process events (e := e.facing meanwhile) (Nat.le_refl _)

lemma accounted_attend (sys : System σ) (h : e.world.Accounted) (occasions : List Occasion) :
    (e.attend sys occasions).world.Accounted := by
  induction occasions generalizing e with
  | nil => exact h
  | cons o occasions ih => exact ih (accounted_occur sys h o)

lemma stage_attend (sys : System σ) (e : Engine (Attended σ)) (occasions : List Occasion) :
    e.world.control.state.stage ≤ (e.attend sys occasions).world.control.state.stage := by
  induction occasions generalizing e with
  | nil => exact Nat.le_refl _
  | cons o occasions ih => exact (stage_occur sys e o).trans (ih _)

/-- **A refused request moves the deadline.** Over every run of a new loop, with requests made at any time, its state
only moves forward. The first request is accepted if it finds the loop running, and every other is refused. A refused
request leaves the state, but replaces the deadline, and the loop is late as soon as the last request has run out of
time. So a batch is handled as under the accepted request alone just if both cut it at the same event. -/
theorem drain_requests (sys : System σ) (hcontrol : e.world.control = {}) (hrequests : e.world.requests = [])
    (occasions : List Occasion) :
    let after := e.attend sys occasions
    (∀ k, (e.attend sys (occasions.take k)).world.control.state.stage ≤ after.world.control.state.stage) ∧
    after.world.Accounted ∧
    (after.world.control.state = .running → ∀ deadline, after.world.request deadline =
      { after.world with control := ⟨.draining, some deadline⟩, requests := [⟨deadline, true⟩] }) ∧
    (after.world.control.state ≠ .running → ∀ deadline, after.world.request deadline =
      { after.world with control := { after.world.control with deadline := some deadline }
                         requests := after.world.requests ++ [⟨deadline, false⟩] }) ∧
    ∀ (batch : List Event) (meanwhile : List (List LoopAction)),
      let faced := after.facing meanwhile
      (process sys.attended batch faced = process sys.promised batch faced ↔
        cutoff sys.attended batch [] faced = cutoff sys.promised batch [] faced) ∧
      ∀ k, let s := (through sys.attended batch [] faced k).world
        (sys.attended.overdue s).1 = true ↔
          s.turn.control.state = .draining ∧ ∃ r ∈ s.turn.requests.getLast?, r.deadline.nanos ≤ s.turn.now.nanos := by
  have hstart : e.world.Accounted := by
    refine ⟨by rw [hcontrol, hrequests]; rfl, ?_, fun _ => hrequests, ?_⟩
    · rw [hrequests]
      nofun
    · rw [hcontrol]
      nofun
  have hafter := accounted_attend sys hstart occasions
  refine ⟨fun k => ?_, hafter, fun h deadline => ?_, fun h deadline => Attended.request_of_ne h deadline,
    fun batch meanwhile => ⟨?_, ?_⟩⟩
  · have hrest : e.attend sys occasions = (e.attend sys (occasions.take k)).attend sys (occasions.drop k) := by
      rw [attend, attend, attend, ← List.foldl_append, List.take_append_drop]
    rw [hrest]
    exact stage_attend sys _ _
  · rw [Attended.request_of_running h, hafter.unasked h]
    rfl
  · have hclock : sys.attended.unhurried = sys.promised.unhurried := rfl
    exact handleEvents_eq_iff hclock batch [] _
  · intro k
    have hfaced : ((e.attend sys occasions).facing meanwhile).world.Accounted :=
      ⟨hafter.deadline, hafter.refused, hafter.unasked, hafter.accepted⟩
    have hunhurried : sys.attended.unhurried.Keeps Attended.Accounted :=
      { sys.attended_accounted with overdue := sys.attended_accounted.overdue }
    exact (hunhurried.process (batch.take k) hfaced).turn.overdue_iff

/-- A tree of files that nobody refuses to watch. -/
def allFiles : System Unit where
  entryKind _ _ := (.ok .file, ())
  readLink _ _ := (.error (.os .invalid), ())
  currentDir _ := (.ok .root, ())
  watch _ _ := (.ok (), ())
  unwatch _ _ := (.ok (), ())

/-- A watched file, and a loop that nobody has asked to drain yet. -/
def unasked : Engine (Attended Unit) :=
  (Engine.register allFiles.attended.toNativeWatches ⟨[0x2f, 0x61]⟩ (.plain ⟨[0x2f, 0x61]⟩)
    { dispatcher := { workers := [] }, world := { world := (), now := ⟨0⟩ } }).2

/-- The loop is asked to drain without delay, and once more within a minute: that is refused, and yet the loop takes
its time. -/
def askedTwice : List Occasion := [.action (.ask ⟨0⟩), .action (.ask (.ofSeconds 60))]

theorem drain_requests_askedTwice :
    let event : Event := ⟨⟨.root, [0x61]⟩, .modify⟩
    let after := unasked.attend allFiles askedTwice
    after.world.requests.map DrainRequest.accepted = [true, false] ∧
      process allFiles.attended [event] (after.facing []) ≠ process allFiles.promised [event] (after.facing []) := by
  intro event after
  refine ⟨by decide +kernel, fun heq => ?_⟩
  have hlaw := drain_requests (e := unasked) allFiles (by decide +kernel) (by decide +kernel) askedTwice
  have hcut := (hlaw.2.2.2.2 [event] []).1.mp heq
  exact absurd hcut (by decide +kernel)

end Engine

end LinkWatch
