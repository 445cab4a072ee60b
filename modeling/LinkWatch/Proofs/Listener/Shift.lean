import LinkWatch.Proofs.Listener.Dispatcher
import Mathlib.Data.List.Perm.Basic
import Mathlib.Logic.Relation

/-!
A dispatcher with its workers at work: callers submit, workers take notifications and call listeners, someone shuts
it down and the workers exit, in any order. A history notes what has happened.

What ties the history to the queues is an invariant of every step (`Shift.Sound`). It goes by listeners: of what was
accepted for a listener the calls have begun up to some point, and the rest waits with one worker. So nothing is
lost, made twice or overtaken (`Shift.delivery`).
-/

namespace LinkWatch.Dispatcher

inductive DispatchEvent where
  /-- Someone submitted a notification, and it was accepted or not. -/
  | submitted (n : Notification) (accepted : Bool)
  /-- A worker has taken a notification and calls its listener. -/
  | began (n : Notification)
  /-- The call has ended. -/
  | finished (n : Notification) (outcome : Outcome)
  | shutDown
  | exited (w : Nat)
deriving DecidableEq

@[simp]
def DispatchEvent.accepted? : DispatchEvent → Option Notification
  | .submitted n true => some n
  | _ => none

@[simp]
def DispatchEvent.began? : DispatchEvent → Option Notification
  | .began n => some n
  | _ => none

@[simp]
def DispatchEvent.finished? : DispatchEvent → Option Notification
  | .finished n _ => some n
  | _ => none

@[simp]
lemma filterMap_singleton {α β : Type*} (f : α → Option β) (x : α) : [x].filterMap f = (f x).toList := by
  cases h : f x <;> simp [h]

/-- A dispatcher with its workers at work. -/
structure Shift where
  dispatcher : Dispatcher
  /-- The call that a worker is making. -/
  calls : Nat → Option Notification := fun _ => none
  /-- What has happened, first first. -/
  history : List DispatchEvent := []

namespace Shift

/-- What was accepted. -/
def accepted (s : Shift) : List Notification := s.history.filterMap DispatchEvent.accepted?

/-- The calls that were begun. -/
def begun (s : Shift) : List Notification := s.history.filterMap DispatchEvent.began?

/-- The calls that have ended. -/
def finished (s : Shift) : List Notification := s.history.filterMap DispatchEvent.finished?

/-! ### Steps -/

inductive DispatchStep where
  | submit (n : Notification)
  | take (w : Nat)
  | finish (w : Nat) (outcome : Outcome)
  | shutdown
  | leave (w : Nat)

/-- Takes a step, if it can be taken. A worker that is making a call does nothing else. -/
def step (s : Shift) : DispatchStep → Option Shift
  | .submit n =>
    let (answer, d) := s.dispatcher.submit n
    some { s with dispatcher := d, history := s.history ++ [.submitted n answer] }
  | .take w =>
    match s.calls w, s.dispatcher.take w with
    | none, some (n, d) =>
      some { dispatcher := d, calls := Function.update s.calls w (some n), history := s.history ++ [.began n] }
    | _, _ => none
  | .finish w outcome =>
    match s.calls w with
    | some n => some { s with calls := Function.update s.calls w none, history := s.history ++ [.finished n outcome] }
    | none => none
  | .shutdown => some { s with dispatcher := s.dispatcher.shutdown, history := s.history ++ [.shutDown] }
  | .leave w =>
    match s.calls w, s.dispatcher.leave w with
    | none, some d => some { s with dispatcher := d, history := s.history ++ [.exited w] }
    | _, _ => none

/-- Steps lead from one state to the other. -/
abbrev Leads : Shift → Shift → Prop := Relation.ReflTransGen fun s s' => ∃ m, s.step m = some s'

/-- Takes one step after the other, if all of them can be taken. -/
def run (s : Shift) (moves : List DispatchStep) : Option Shift := moves.foldlM step s

lemma Leads.of_run : ∀ {moves : List DispatchStep} {s s' : Shift}, s.run moves = some s' → Leads s s'
  | [], s, s', h => by
    obtain rfl : s = s' := by simpa [run] using h
    exact .refl
  | m :: moves, s, s', h => by
    obtain ⟨u, hu, hs'⟩ : ∃ u, s.step m = some u ∧ u.run moves = some s' := by
      simpa [run, List.foldlM_cons, Option.bind_eq_some_iff] using h
    exact .head ⟨m, hu⟩ (of_run hs')

/-- What a step can do. -/
inductive Stepped (s : Shift) : DispatchStep → Shift → Prop
  | submit {n : Notification} : Stepped s (.submit n)
      { s with
        dispatcher := (s.dispatcher.submit n).2
        history := s.history ++ [.submitted n s.dispatcher.accepting] }
  | take {w : Nat} {n : Notification} {d : Dispatcher} : s.calls w = none → s.dispatcher.Taken w n d →
      Stepped s (.take w)
        { dispatcher := d, calls := Function.update s.calls w (some n), history := s.history ++ [.began n] }
  | finish {w : Nat} {n : Notification} {outcome : Outcome} : s.calls w = some n → Stepped s (.finish w outcome)
      { s with calls := Function.update s.calls w none, history := s.history ++ [.finished n outcome] }
  | shutdown : Stepped s .shutdown
      { s with dispatcher := s.dispatcher.shutdown, history := s.history ++ [.shutDown] }
  | leave {w : Nat} {d : Dispatcher} : s.calls w = none → s.dispatcher.Left w d → Stepped s (.leave w)
      { s with dispatcher := d, history := s.history ++ [.exited w] }

variable {s s' : Shift} {m : DispatchStep} {k : ListenerKey} {w : Nat}

lemma stepped (h : s.step m = some s') : s.Stepped m s' := by
  cases m with
  | submit n =>
    obtain rfl : _ = s' := by simpa [step] using h
    exact submit_fst (d := s.dispatcher) (n := n) ▸ .submit
  | take w =>
    simp only [step] at h
    split at h
    case h_2 => cases h
    rename_i n d hc ht
    obtain rfl : _ = s' := by simpa using h
    exact .take hc (taken_of_take ht)
  | finish w outcome =>
    simp only [step] at h
    split at h
    case h_2 => cases h
    rename_i n hc
    obtain rfl : _ = s' := by simpa using h
    exact .finish hc
  | shutdown =>
    obtain rfl : _ = s' := by simpa [step] using h
    exact .shutdown
  | leave w =>
    simp only [step] at h
    split at h
    case h_2 => cases h
    rename_i d hc hl
    obtain rfl : _ = s' := by simpa using h
    exact .leave hc (left_of_leave hl)

/-! ### The invariant -/

/-- The history and the queues tell the same. -/
structure Sound (s : Shift) : Prop where
  staffed : 0 < s.dispatcher.workers.length
  placed : s.dispatcher.Placed
  calling : ∀ w, ∀ n ∈ s.calls w, s.dispatcher.workerFor n.key = w
  /-- Of what was accepted for a listener, what was not begun waits. -/
  begun : ∀ k, toListener k s.begun ++ toListener k (s.dispatcher.queueOf (s.dispatcher.workerFor k)) =
    toListener k s.accepted
  /-- Of what was begun for a listener, what has not ended is being made. -/
  finished : ∀ k, toListener k s.finished ++ toListener k (s.calls (s.dispatcher.workerFor k)).toList =
    toListener k s.begun
  left : ∀ w, s.dispatcher.HasLeft w →
    s.dispatcher.accepting = false ∧ s.dispatcher.queueOf w = [] ∧ s.calls w = none
  shut : s.dispatcher.accepting = false ↔ .shutDown ∈ s.history
  answered : ∀ before n answer, before ++ [.submitted n answer] <+: s.history → (answer = false ↔ .shutDown ∈ before)

lemma sound_fresh {threads : Nat} {route : ListenerKey → Nat} (h : 0 < threads) :
    Sound { dispatcher := fresh threads route } where
  staffed := by simpa [fresh] using h
  placed w n hn := by simp at hn
  calling w n hn := by cases hn
  begun k := by simp [Shift.begun, Shift.accepted]
  finished k := rfl
  left w hw := absurd hw (not_hasLeft_fresh w)
  shut := by simp [fresh]
  answered before n answer h := by simp at h

/-- What is noted last leaves the answers before it as they were. -/
lemma Sound.answered_concat {x : DispatchEvent} (h : s.Sound)
    (hx : ∀ n answer, x = .submitted n answer → answer = s.dispatcher.accepting)
    {before : List DispatchEvent} {n : Notification} {answer : Bool}
    (hb : before ++ [.submitted n answer] <+: s.history ++ [x]) : answer = false ↔ .shutDown ∈ before := by
  rcases List.prefix_concat_iff.mp hb with heq | hpre
  · obtain ⟨rfl, hlast⟩ := List.append_inj' heq rfl
    have hsub : x = .submitted n answer := by simpa using hlast.symm
    rw [hx n answer hsub]
    exact h.shut
  · exact h.answered before n answer hpre

lemma Sound.submit {n : Notification} (h : s.Sound) : Sound
    { s with
      dispatcher := (s.dispatcher.submit n).2
      history := s.history ++ [.submitted n s.dispatcher.accepting] } := by
  have hsame : s.dispatcher.SameWorkers (s.dispatcher.submit n).2 := sameWorkers_submit
  -- The queues, by whether the notification is accepted.
  have hqueue : s.dispatcher.accepting = false ∧ (s.dispatcher.submit n).2 = s.dispatcher ∨
      s.dispatcher.accepting = true ∧ (s.dispatcher.submit n).2.queueOf =
        Function.update s.dispatcher.queueOf (s.dispatcher.workerFor n.key)
          (s.dispatcher.queueOf (s.dispatcher.workerFor n.key) ++ [n]) := by
    cases ha : s.dispatcher.accepting with
    | false => exact .inl ⟨rfl, by rw [submit_shutDown ha]⟩
    | true => exact .inr ⟨rfl, queueOf_submit h.staffed ha⟩
  refine ⟨?_, ?_, ?_, ?_, ?_, ?_, ?_, ?_⟩
  · rw [hsame.length]
    exact h.staffed
  · intro w m hm
    rw [hsame.workerFor]
    obtain ⟨-, hd⟩ | ⟨-, hq⟩ := hqueue
    · rw [hd] at hm
      exact h.placed w m hm
    · rw [hq] at hm
      by_cases hw : w = s.dispatcher.workerFor n.key
      · subst hw
        obtain hm | rfl : m ∈ s.dispatcher.queueOf (s.dispatcher.workerFor n.key) ∨ m = n := by simpa using hm
        · exact h.placed _ m hm
        · rfl
      · rw [Function.update_of_ne hw] at hm
        exact h.placed w m hm
  · intro w m hm
    rw [hsame.workerFor]
    exact h.calling w m hm
  · intro k
    have hk := h.begun k
    rw [hsame.workerFor]
    obtain ⟨ha, hd⟩ | ⟨ha, hq⟩ := hqueue
    · simpa [Shift.begun, Shift.accepted, ha, hd] using hk
    · rw [hq]
      by_cases hw : s.dispatcher.workerFor k = s.dispatcher.workerFor n.key
      · rw [hw] at hk
        simp [Shift.begun, Shift.accepted, ha, hw] at hk ⊢
        rw [← hk, List.append_assoc]
      · have hne : n.key ≠ k := fun he => hw (by rw [he])
        rw [Function.update_of_ne hw]
        simpa [Shift.begun, Shift.accepted, ha,
          toListener_singleton_of_ne hne] using hk
  · intro k
    rw [hsame.workerFor]
    simpa [Shift.begun, Shift.finished] using h.finished k
  · intro w hw
    obtain ⟨ha, hq, hc⟩ := h.left w (hasLeft_submit.mp hw)
    rw [submit_shutDown ha]
    exact ⟨ha, hq, hc⟩
  · simpa using h.shut
  · intro before m answer hb
    exact h.answered_concat (fun _ _ hx => by cases hx; rfl) hb

lemma Sound.take {n : Notification} {d : Dispatcher} (h : s.Sound) (hc : s.calls w = none)
    (ht : s.dispatcher.Taken w n d) : Sound
    { dispatcher := d, calls := Function.update s.calls w (some n), history := s.history ++ [.began n] } := by
  have hn : s.dispatcher.workerFor n.key = w := h.placed w n (by simp [ht.queue])
  -- A listener with another worker is not the one called.
  have hother : ∀ k, s.dispatcher.workerFor k ≠ w → toListener k [n] = [] := fun k hk =>
    toListener_singleton_of_ne fun he => hk (by rw [← he, hn])
  refine ⟨?_, ?_, ?_, ?_, ?_, ?_, ?_, ?_⟩
  · rw [ht.same.length]
    exact h.staffed
  · intro v m hm
    rw [ht.same.workerFor]
    by_cases hv : v = w
    · subst hv
      exact h.placed v m (by rw [ht.queue]; exact List.mem_cons_of_mem n hm)
    · rw [ht.others v hv] at hm
      exact h.placed v m hm
  · intro v m hm
    rw [ht.same.workerFor]
    by_cases hv : v = w
    · subst hv
      obtain rfl : n = m := by simpa using hm
      exact hn
    · exact h.calling v m (by simpa [hv] using hm)
  · intro k
    have hk := h.begun k
    rw [ht.same.workerFor]
    by_cases hw : s.dispatcher.workerFor k = w
    · rw [hw, ht.queue, toListener_cons] at hk
      simpa [Shift.begun, Shift.accepted, hw] using hk
    · rw [ht.others _ hw]
      simpa [Shift.begun, Shift.accepted, hother k hw] using hk
  · intro k
    have hk := h.finished k
    rw [ht.same.workerFor]
    by_cases hw : s.dispatcher.workerFor k = w
    · rw [hw, hc] at hk
      simp [Shift.begun, Shift.finished, hw] at hk ⊢
      exact hk
    · simpa [Shift.begun, Shift.finished, hw, hother k hw] using hk
  · intro v hv
    rw [ht.hasLeft v] at hv
    have hne : v ≠ w := fun he => ht.stayed (he ▸ hv)
    obtain ⟨ha, hq, hcv⟩ := h.left v hv
    exact ⟨ht.accepting.trans ha, (ht.others v hne).trans hq, by simpa [hne] using hcv⟩
  · rw [ht.accepting]
    simpa using h.shut
  · intro before m answer hb
    exact h.answered_concat (fun _ _ hx => by cases hx) hb

lemma Sound.finish {n : Notification} {outcome : Outcome} (h : s.Sound) (hc : s.calls w = some n) : Sound
    { s with calls := Function.update s.calls w none, history := s.history ++ [.finished n outcome] } := by
  have hn : s.dispatcher.workerFor n.key = w := h.calling w n hc
  refine ⟨h.staffed, h.placed, ?_, ?_, ?_, ?_, ?_, ?_⟩
  · intro v m hm
    by_cases hv : v = w
    · simp [hv] at hm
    · exact h.calling v m (by simpa [hv] using hm)
  · intro k
    simpa [Shift.begun, Shift.accepted] using h.begun k
  · intro k
    have hk := h.finished k
    by_cases hw : s.dispatcher.workerFor k = w
    · rw [hw, hc] at hk
      simpa [Shift.begun, Shift.finished, hw] using hk
    · have hne : n.key ≠ k := fun he => hw (by rw [← he, hn])
      simpa [Shift.begun, Shift.finished, hw,
        toListener_singleton_of_ne hne] using hk
  · intro v hv
    obtain ⟨ha, hq, hcv⟩ := h.left v hv
    exact ⟨ha, hq, by by_cases hvw : v = w <;> simp [hvw, hcv]⟩
  · simpa using h.shut
  · intro before m answer hb
    exact h.answered_concat (fun _ _ hx => by cases hx) hb

lemma Sound.shutdown (h : s.Sound) : Sound
    { s with dispatcher := s.dispatcher.shutdown, history := s.history ++ [.shutDown] } where
  staffed := h.staffed
  placed := h.placed
  calling := h.calling
  begun k := by simpa [Shift.begun, Shift.accepted] using h.begun k
  finished k := by simpa [Shift.begun, Shift.finished] using h.finished k
  left w hw := ⟨rfl, (h.left w hw).2⟩
  shut := by simp [Dispatcher.shutdown]
  answered before m answer hb := h.answered_concat (fun _ _ hx => by cases hx) hb

lemma Sound.leave {d : Dispatcher} (h : s.Sound) (hc : s.calls w = none) (hl : s.dispatcher.Left w d) :
    Sound { s with dispatcher := d, history := s.history ++ [.exited w] } where
  staffed := hl.same.length ▸ h.staffed
  placed v m hm := by
    rw [hl.same.workerFor]
    rw [hl.queueOf] at hm
    exact h.placed v m hm
  calling v m hm := by
    rw [hl.same.workerFor]
    exact h.calling v m hm
  begun k := by
    rw [hl.same.workerFor, hl.queueOf]
    simpa [Shift.begun, Shift.accepted] using h.begun k
  finished k := by
    rw [hl.same.workerFor]
    simpa [Shift.begun, Shift.finished] using h.finished k
  left v hv := by
    rw [hl.accepting, hl.queueOf]
    obtain hv | rfl := (hl.hasLeft v).mp hv
    · exact h.left v hv
    · exact ⟨hl.refusing, hl.empty, hc⟩
  shut := by
    rw [hl.accepting]
    simpa using h.shut
  answered before m answer hb := h.answered_concat (fun _ _ hx => by cases hx) hb

lemma Sound.step (h : s.Sound) (hs : s.step m = some s') : s'.Sound := by
  cases stepped hs with
  | submit => exact h.submit
  | take hc ht => exact h.take hc ht
  | finish hc => exact h.finish hc
  | shutdown => exact h.shutdown
  | leave hc hl => exact h.leave hc hl

lemma Sound.leads (h : s.Sound) (hs : Leads s s') : s'.Sound := by
  induction hs with
  | refl => exact h
  | tail _ hstep ih =>
    obtain ⟨m, hm⟩ := hstep
    exact ih.step hm

/-- Once every worker has exited, all that was accepted was begun and has ended. -/
lemma Sound.all_done (h : s.Sound) (ha : s.dispatcher.alive = 0) (k : ListenerKey) :
    toListener k s.begun = toListener k s.accepted ∧ toListener k s.finished = toListener k s.accepted := by
  have hlt : s.dispatcher.workerFor k < s.dispatcher.workers.length := workerFor_lt h.staffed k
  obtain ⟨-, hq, hc⟩ := h.left _ (alive_eq_zero.mp ha _ hlt)
  have hbegun := h.begun k
  have hfinished := h.finished k
  rw [hq, toListener_nil, List.append_nil] at hbegun
  rw [hc, Option.toList_none, toListener_nil, List.append_nil] at hfinished
  exact ⟨hbegun, hfinished.trans hbegun⟩

lemma perm_of_toListener {ns ms : List Notification} (h : ∀ k, toListener k ns = toListener k ms) : ns.Perm ms := by
  rw [List.perm_iff_count]
  intro n
  have hn : ∀ l : List Notification, l.count n = (toListener n.key l).count n := fun l => by
    rw [toListener, List.count_filter (by simp)]
  rw [hn ns, hn ms, h]

/-! ### What stays, and what can still happen -/

lemma length_leads (hs : Leads s s') : s'.dispatcher.workers.length = s.dispatcher.workers.length := by
  induction hs with
  | refl => rfl
  | tail _ hstep ih =>
    obtain ⟨m, hm⟩ := hstep
    rw [← ih]
    cases stepped hm with
    | submit => exact sameWorkers_submit.length
    | take _ ht => exact ht.same.length
    | finish _ => rfl
    | shutdown => rfl
    | leave _ hl => exact hl.same.length

lemma refusing_leads (ha : s.dispatcher.accepting = false) (hs : Leads s s') : s'.dispatcher.accepting = false := by
  induction hs with
  | refl => exact ha
  | tail _ hstep ih =>
    obtain ⟨m, hm⟩ := hstep
    cases stepped hm with
    | submit => exact accepting_submit.trans ih
    | take _ ht => exact ht.accepting.trans ih
    | finish _ => exact ih
    | shutdown => rfl
    | leave _ hl => exact hl.accepting.trans ih

lemma hasLeft_leads (hw : s.dispatcher.HasLeft w) (hs : Leads s s') : s'.dispatcher.HasLeft w := by
  induction hs with
  | refl => exact hw
  | tail _ hstep ih =>
    obtain ⟨m, hm⟩ := hstep
    cases stepped hm with
    | submit => exact hasLeft_submit.mpr ih
    | take _ ht => exact (ht.hasLeft w).mpr ih
    | finish _ => exact ih
    | shutdown => exact ih
    | leave _ hl => exact (hl.hasLeft w).mpr (.inl ih)

/-- A worker can end the call it is making. -/
lemma exists_idle (s : Shift) (w : Nat) : ∃ u, Leads s u ∧ u.dispatcher = s.dispatcher ∧ u.calls w = none := by
  cases hc : s.calls w with
  | none => exact ⟨s, .refl, rfl, hc⟩
  | some n =>
    have hfinish : s.step (.finish w .returned) = some
        { s with calls := Function.update s.calls w none, history := s.history ++ [.finished n .returned] } := by
      simp only [step, hc]
    exact ⟨_, .single ⟨_, hfinish⟩, rfl, Function.update_self ..⟩

/-- Once nothing is accepted any more, a worker can do what waits with it and exit. -/
lemma exists_left : ∀ {queue : List Notification} {s : Shift}, s.dispatcher.queueOf w = queue →
    s.dispatcher.accepting = false → w < s.dispatcher.workers.length → ∃ s', Leads s s' ∧ s'.dispatcher.HasLeft w
  | queue, s, hq, ha, hlt => by
    by_cases hl : s.dispatcher.HasLeft w
    · exact ⟨s, .refl, hl⟩
    obtain ⟨u, hu, hd, hc⟩ := exists_idle s w
    rw [← hd] at hq ha hlt hl
    match queue, hq with
    | [], hq =>
      obtain ⟨d, hleave⟩ := exists_leave hlt ha hq hl
      have hstep : u.step (.leave w) = some { u with dispatcher := d, history := u.history ++ [.exited w] } := by
        simp only [step, hc, hleave]
      exact ⟨_, hu.tail ⟨_, hstep⟩, ((left_of_leave hleave).hasLeft w).mpr (.inr rfl)⟩
    | n :: rest, hq =>
      obtain ⟨d, htake⟩ := exists_take hq hl
      have ht := taken_of_take htake
      have hstep : u.step (.take w) = some
          { dispatcher := d, calls := Function.update u.calls w (some n), history := u.history ++ [.began n] } := by
        simp only [step, hc, htake]
      have hrest : d.queueOf w = rest := by simpa [hq] using ht.queue.symm
      obtain ⟨s', hs', hleft⟩ := exists_left
        (s := { dispatcher := d, calls := Function.update u.calls w (some n), history := u.history ++ [.began n] })
        hrest (ht.accepting.trans ha) (ht.same.length.symm ▸ hlt)
      exact ⟨s', (hu.tail ⟨_, hstep⟩).trans hs', hleft⟩

/-- From any state all workers can still come to their end. -/
lemma exists_all_left (s : Shift) : ∃ s', Leads s s' ∧ s'.dispatcher.alive = 0 := by
  -- One worker after the other: those below `n` have exited.
  have hall : ∀ n ≤ s.dispatcher.workers.length, ∃ s', Leads s s' ∧ s'.dispatcher.accepting = false ∧
      ∀ w < n, s'.dispatcher.HasLeft w := by
    intro n hn
    induction n with
    | zero => exact ⟨_, .single ⟨.shutdown, rfl⟩, rfl, fun w hw => absurd hw (Nat.not_lt_zero w)⟩
    | succ n ih =>
      obtain ⟨u, hu, ha, hleft⟩ := ih (by omega)
      have hlt : n < u.dispatcher.workers.length := by rw [length_leads hu]; omega
      obtain ⟨s', hs', hnew⟩ := exists_left rfl ha hlt
      refine ⟨s', hu.trans hs', refusing_leads ha hs', fun w hw => ?_⟩
      obtain hw | rfl : w < n ∨ w = n := by omega
      · exact hasLeft_leads (hleft w hw) hs'
      · exact hnew
  obtain ⟨s', hs', -, hleft⟩ := hall _ (Nat.le_refl _)
  refine ⟨s', hs', alive_eq_zero.mpr fun w hw => hleft w ?_⟩
  rwa [length_leads hs'] at hw

/-- Whatever callers, workers and listeners do: the calls of a listener, followed by what waits for it, are what was
accepted for it, in that order. A notification is refused exactly if the dispatcher was shut down before, and up to
then no worker is gone. Once all workers have exited, which they can from everywhere, each accepted notification
has had one call. -/
theorem delivery {threads : Nat} {route : ListenerKey → Nat} (hthreads : 0 < threads)
    (hs : Leads { dispatcher := fresh threads route } s) :
    (∀ k, toListener k s.begun ++ s.dispatcher.queuedFor k = toListener k s.accepted) ∧
      (∀ before n answer, before ++ [.submitted n answer] <+: s.history → (answer = false ↔ .shutDown ∈ before)) ∧
      (∀ w, s.dispatcher.HasLeft w → .shutDown ∈ s.history) ∧
      (s.dispatcher.alive = 0 → s.begun.Perm s.accepted ∧ s.finished.Perm s.accepted) ∧
      ∃ s', Leads s s' ∧ s'.dispatcher.alive = 0 := by
  have h : s.Sound := (sound_fresh hthreads).leads hs
  refine ⟨fun k => ?_, h.answered, fun w hw => h.shut.mp (h.left w hw).1, fun ha => ?_, exists_all_left s⟩
  · rw [h.placed.queuedFor_eq k]
    exact h.begun k
  · exact ⟨perm_of_toListener fun k => (h.all_done ha k).1, perm_of_toListener fun k => (h.all_done ha k).2⟩

/-- Two workers share three listeners. One call panics, and the dispatcher is shut down with notifications waiting. -/
def closedAtWork : List DispatchStep :=
  [.submit ⟨0, ⟨[0x61]⟩⟩, .submit ⟨1, ⟨[0x61]⟩⟩, .take 0, .submit ⟨2, ⟨[0x61]⟩⟩, .submit ⟨0, ⟨[0x62]⟩⟩, .shutdown,
    .submit ⟨1, ⟨[0x62]⟩⟩, .finish 0 (.panicked none), .take 1, .take 0, .finish 0 .returned, .take 0,
    .finish 1 .returned, .leave 1, .finish 0 .returned, .leave 0]

theorem delivery_closedAtWork :
    ∃ s, run { dispatcher := fresh 2 id } closedAtWork = some s ∧ s.dispatcher.alive = 0 ∧
      toListener 0 s.begun = [⟨0, ⟨[0x61]⟩⟩, ⟨0, ⟨[0x62]⟩⟩] ∧ .submitted ⟨1, ⟨[0x62]⟩⟩ false ∈ s.history ∧
      (∀ k, toListener k s.begun ++ s.dispatcher.queuedFor k = toListener k s.accepted) ∧
      s.finished.Perm s.accepted := by
  obtain ⟨s, hs⟩ := Option.isSome_iff_exists.mp
    (show (run { dispatcher := fresh 2 id } closedAtWork).isSome = true by decide)
  have hends : (run { dispatcher := fresh 2 id } closedAtWork).map
      (fun s => (s.dispatcher.alive, toListener 0 s.begun, decide (.submitted ⟨1, ⟨[0x62]⟩⟩ false ∈ s.history))) =
      some (0, [⟨0, ⟨[0x61]⟩⟩, ⟨0, ⟨[0x62]⟩⟩], true) := by decide
  rw [hs] at hends
  obtain ⟨ha, hbegun, hrefused⟩ : s.dispatcher.alive = 0 ∧ toListener 0 s.begun = _ ∧
    .submitted ⟨1, ⟨[0x62]⟩⟩ false ∈ s.history := by simpa using hends
  obtain ⟨horder, -, -, hdone, -⟩ := delivery (by decide) (Leads.of_run hs)
  exact ⟨s, hs, ha, hbegun, hrefused, horder, (hdone ha).2⟩

end Shift

end LinkWatch.Dispatcher
