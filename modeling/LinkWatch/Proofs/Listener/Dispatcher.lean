import LinkWatch.Listener.Dispatcher
import Mathlib.Logic.Function.Basic

/-!
What the steps of a dispatcher do to its queues and its workers.
-/

namespace LinkWatch.Dispatcher

variable {d d' : Dispatcher} {v w : Nat} {k : ListenerKey} {n : Notification}

/-- A dispatcher whose workers have nothing to do yet. -/
def fresh (threads : Nat) (route : ListenerKey → Nat) : Dispatcher :=
  { workers := List.replicate threads {}, route }

example (threads : Nat) : start threads = fresh (max 1 threads) id := rfl

/-- What waits with a worker. -/
def queueOf (d : Dispatcher) (w : Nat) : List Notification := (d.workers[w]?.map Worker.queue).getD []

/-- The worker has exited. -/
def HasLeft (d : Dispatcher) (w : Nat) : Prop := ∃ worker ∈ d.workers[w]?, worker.exited = true

/-- The notifications of one listener. -/
def toListener (k : ListenerKey) (ns : List Notification) : List Notification := ns.filter fun n => n.key = k

/-- What waits for a listener, with whatever worker. -/
def queuedFor (d : Dispatcher) (k : ListenerKey) : List Notification := toListener k (d.workers.flatMap Worker.queue)

/-- They have the same workers and send listeners to the same ones. -/
structure SameWorkers (d d' : Dispatcher) : Prop where
  length : d'.workers.length = d.workers.length
  route : d'.route = d.route

@[simp]
lemma toListener_append (k : ListenerKey) (ns ms : List Notification) :
    toListener k (ns ++ ms) = toListener k ns ++ toListener k ms := List.filter_append ns ms

@[simp]
lemma toListener_nil (k : ListenerKey) : toListener k [] = [] := rfl

lemma toListener_cons (n : Notification) (ns : List Notification) :
    toListener k (n :: ns) = toListener k [n] ++ toListener k ns := toListener_append k [n] ns

lemma toListener_singleton_of_ne (h : n.key ≠ k) : toListener k [n] = [] := by simp [toListener, h]

lemma SameWorkers.workerFor (h : d.SameWorkers d') (k : ListenerKey) : d'.workerFor k = d.workerFor k := by
  rw [Dispatcher.workerFor, Dispatcher.workerFor, h.length, h.route]

lemma workerFor_lt (hd : 0 < d.workers.length) (k : ListenerKey) : d.workerFor k < d.workers.length :=
  Nat.mod_lt _ hd

@[simp]
lemma queueOf_fresh {threads : Nat} {route : ListenerKey → Nat} (w : Nat) : (fresh threads route).queueOf w = [] := by
  by_cases hw : w < threads <;> simp [queueOf, fresh, hw]

@[simp]
lemma not_hasLeft_fresh {threads : Nat} {route : ListenerKey → Nat} (w : Nat) : ¬ (fresh threads route).HasLeft w := by
  rintro ⟨worker, hw, hl⟩
  obtain rfl : worker = {} := List.eq_of_mem_replicate (List.mem_of_getElem? hw)
  cases hl

lemma alive_eq_zero : d.alive = 0 ↔ ∀ w < d.workers.length, d.HasLeft w := by
  rw [alive, List.countP_eq_zero]
  constructor
  · intro h w hw
    have hmem : d.workers[w] ∈ d.workers := List.getElem_mem hw
    exact ⟨d.workers[w], List.getElem?_eq_getElem hw, by simpa using h _ hmem⟩
  · intro h worker hmem
    obtain ⟨w, hw, rfl⟩ := List.getElem_of_mem hmem
    obtain ⟨worker, hworker, hl⟩ := h w hw
    obtain rfl : d.workers[w] = worker := by simpa [List.getElem?_eq_getElem hw] using hworker
    simp [hl]

/-! ### Submitting -/

/-- What a submission does: nothing once the dispatcher is shut down. -/
lemma submit_shutDown (hd : d.accepting = false) : d.submit n = (false, d) := by
  simp [submit, hd]

lemma submit_fst : (d.submit n).1 = d.accepting := by
  cases h : d.accepting <;> simp [submit, h]

lemma sameWorkers_submit : d.SameWorkers (d.submit n).2 := by
  constructor <;> cases h : d.accepting <;> simp [submit, h]

@[simp]
lemma accepting_submit : (d.submit n).2.accepting = d.accepting := by
  cases h : d.accepting <;> simp [submit, h]

lemma queueOf_submit (hd : 0 < d.workers.length) (ha : d.accepting = true) :
    (d.submit n).2.queueOf =
      Function.update d.queueOf (d.workerFor n.key) (d.queueOf (d.workerFor n.key) ++ [n]) := by
  have hlt := d.workerFor_lt hd n.key
  funext w
  by_cases hw : d.workerFor n.key = w
  · subst hw
    simp [queueOf, submit, ha, List.getElem?_eq_getElem hlt]
  · rw [Function.update_of_ne (Ne.symm hw)]
    simp [queueOf, submit, ha, hw]

/-- At most the notification comes last to a queue. -/
lemma queueOf_submit_cases (n : Notification) (d : Dispatcher) (w : Nat) :
    (d.submit n).2.queueOf w = d.queueOf w ∨ (d.submit n).2.queueOf w = d.queueOf w ++ [n] := by
  cases ha : d.accepting with
  | false => exact .inl (by rw [submit_shutDown ha])
  | true =>
    by_cases hw : d.workerFor n.key = w
    · subst hw
      cases hworker : d.workers[d.workerFor n.key]? with
      | none => exact .inl (by simp [queueOf, submit, ha, hworker])
      | some worker => exact .inr (by simp [queueOf, submit, ha, hworker])
    · exact .inl (by simp [queueOf, submit, ha, hw])

lemma holds_iff : d.holds k = true ↔ ∃ w, ∃ n ∈ d.queueOf w, n.key = k := by
  rw [holds, List.any_eq_true]
  constructor
  · rintro ⟨worker, hmem, hk⟩
    obtain ⟨w, hw⟩ := List.getElem?_of_mem hmem
    obtain ⟨n, hn, hkey⟩ := List.any_eq_true.mp hk
    exact ⟨w, n, by simpa [queueOf, hw] using hn, by simpa using hkey⟩
  · rintro ⟨w, n, hn, rfl⟩
    cases hw : d.workers[w]? with
    | none => simp [queueOf, hw] at hn
    | some worker =>
      have hn' : n ∈ worker.queue := by simpa [queueOf, hw] using hn
      exact ⟨worker, List.mem_of_getElem? hw, List.any_eq_true.mpr ⟨n, hn', by simp⟩⟩

lemma holds_of_submit (h : (d.submit n).2.holds k = true) : d.holds k = true ∨ k = n.key := by
  obtain ⟨w, m, hm, rfl⟩ := holds_iff.mp h
  rcases queueOf_submit_cases n d w with hq | hq <;> rw [hq] at hm
  · exact .inl (holds_iff.mpr ⟨w, m, hm, rfl⟩)
  · obtain hm | rfl : m ∈ d.queueOf w ∨ m = n := by simpa using hm
    · exact .inl (holds_iff.mpr ⟨w, m, hm, rfl⟩)
    · exact .inr rfl

lemma holds_submit (h : d.holds k = true) : (d.submit n).2.holds k = true := by
  obtain ⟨w, m, hm, rfl⟩ := holds_iff.mp h
  refine holds_iff.mpr ⟨w, m, ?_, rfl⟩
  rcases queueOf_submit_cases n d w with hq | hq <;> rw [hq]
  · exact hm
  · exact List.mem_append_left _ hm

lemma hasLeft_submit : (d.submit n).2.HasLeft w ↔ d.HasLeft w := by
  cases ha : d.accepting with
  | false => rw [submit_shutDown ha]
  | true =>
    by_cases hw : d.workerFor n.key = w <;> simp [HasLeft, submit, ha, hw]

/-! ### Taking -/

/-- A worker takes the first notification of its queue. -/
structure Taken (d : Dispatcher) (w : Nat) (n : Notification) (d' : Dispatcher) : Prop where
  same : d.SameWorkers d'
  accepting : d'.accepting = d.accepting
  stayed : ¬ d.HasLeft w
  queue : d.queueOf w = n :: d'.queueOf w
  others : ∀ v ≠ w, d'.queueOf v = d.queueOf v
  hasLeft : ∀ v, d'.HasLeft v ↔ d.HasLeft v

lemma taken_of_take (h : d.take w = some (n, d')) : d.Taken w n d' := by
  unfold take at h
  split at h
  case h_2 => cases h
  rename_i m rest hw
  obtain ⟨rfl, rfl⟩ : m = n ∧ _ = d' := by simpa using h
  obtain ⟨hlt, hworker⟩ := List.getElem?_eq_some_iff.mp hw
  refine ⟨⟨List.length_set, rfl⟩, rfl, by simp [HasLeft, hw], ?_, fun v hv => ?_, fun v => ?_⟩
  · simp [queueOf, hlt, hworker]
  · simp [queueOf, hv.symm]
  · by_cases hv : w = v
    · subst hv
      simp [HasLeft, hlt, hworker]
    · simp [HasLeft, hv]

/-- A worker that is still there can take what waits with it. -/
lemma exists_take {rest : List Notification} (hq : d.queueOf w = n :: rest) (hl : ¬ d.HasLeft w) :
    ∃ d', d.take w = some (n, d') := by
  cases hw : d.workers[w]? with
  | none => simp [queueOf, hw] at hq
  | some worker =>
    obtain ⟨queue, exited⟩ := worker
    obtain rfl : queue = n :: rest := by simpa [queueOf, hw] using hq
    obtain rfl : exited = false := by simpa [HasLeft, hw] using hl
    exact ⟨_, by simp [take, hw]; rfl⟩

/-! ### Leaving -/

/-- A worker exits: nothing waits with it, and nothing can come. -/
structure Left (d : Dispatcher) (w : Nat) (d' : Dispatcher) : Prop where
  same : d.SameWorkers d'
  lt : w < d.workers.length
  stayed : ¬ d.HasLeft w
  refusing : d.accepting = false
  accepting : d'.accepting = d.accepting
  empty : d.queueOf w = []
  queueOf : d'.queueOf = d.queueOf
  hasLeft : ∀ v, d'.HasLeft v ↔ d.HasLeft v ∨ v = w

lemma left_of_leave (h : d.leave w = some d') : d.Left w d' := by
  unfold leave at h
  split at h
  case h_2 => cases h
  rename_i hw
  obtain ⟨hlt, hworker⟩ := List.getElem?_eq_some_iff.mp hw
  obtain ⟨ha, rfl⟩ : d.accepting = false ∧ _ = d' := by simpa using h
  refine ⟨⟨List.length_set, rfl⟩, hlt, by simp [HasLeft, hw], ha, rfl, by simp [Dispatcher.queueOf, hw], ?_,
    fun v => ?_⟩
  · funext v
    by_cases hv : w = v
    · subst hv
      simp [Dispatcher.queueOf, hlt, hworker]
    · simp [Dispatcher.queueOf, hv]
  · by_cases hv : w = v
    · subst hv
      simp [HasLeft, hlt]
    · simp [HasLeft, hv, Ne.symm hv]

/-- A worker can exit once nothing is accepted any more and nothing waits with it. -/
lemma exists_leave (hlt : w < d.workers.length) (ha : d.accepting = false) (hq : d.queueOf w = [])
    (hl : ¬ d.HasLeft w) : ∃ d', d.leave w = some d' := by
  obtain ⟨⟨queue, exited⟩, hw⟩ : ∃ worker, d.workers[w]? = some worker := ⟨_, List.getElem?_eq_getElem hlt⟩
  obtain rfl : queue = [] := by simpa [queueOf, hw] using hq
  obtain rfl : exited = false := by simpa [HasLeft, hw] using hl
  exact ⟨_, by simp [leave, hw, ha]; rfl⟩

/-! ### Shutting down -/

@[simp]
lemma accepting_shutdown : d.shutdown.accepting = false := rfl

@[simp]
lemma queueOf_shutdown : d.shutdown.queueOf = d.queueOf := rfl

@[simp]
lemma workerFor_shutdown : d.shutdown.workerFor = d.workerFor := rfl

@[simp]
lemma hasLeft_shutdown : d.shutdown.HasLeft w ↔ d.HasLeft w := .rfl

/-! ### What waits for one listener -/

/-- Each notification waits with the worker of its listener. -/
def Placed (d : Dispatcher) : Prop := ∀ w, ∀ n ∈ d.queueOf w, d.workerFor n.key = w

lemma flatMap_eq_of_only {α β : Type*} {f : α → List β} : ∀ {l : List α} {i : Nat},
    (∀ j a, l[j]? = some a → j ≠ i → f a = []) → l.flatMap f = (l[i]?.map f).getD []
  | [], _, _ => rfl
  | a :: l, 0, h => by
    have hrest : l.flatMap f = [] := List.flatMap_eq_nil_iff.mpr fun b hb => by
      obtain ⟨j, hj⟩ := List.getElem?_of_mem hb
      exact h (j + 1) b hj (Nat.succ_ne_zero j)
    simp [hrest]
  | a :: l, i + 1, h => by
    have ha : f a = [] := h 0 a rfl (by omega)
    have hrest := flatMap_eq_of_only (l := l) (i := i) fun j b hj hne => h (j + 1) b hj (by omega)
    simp [ha, hrest]

/-- What waits for a listener waits with one worker. -/
lemma Placed.queuedFor_eq (h : d.Placed) (k : ListenerKey) :
    d.queuedFor k = toListener k (d.queueOf (d.workerFor k)) := by
  rw [queuedFor, toListener, toListener, List.filter_flatMap, flatMap_eq_of_only (i := d.workerFor k)]
  · simp only [queueOf]
    cases d.workers[d.workerFor k]? <;> rfl
  · intro j worker hj hne
    rw [List.filter_eq_nil_iff]
    intro n hn hk
    have hw : d.workerFor n.key = j := h j n (by simpa [queueOf, hj] using hn)
    rw [of_decide_eq_true hk] at hw
    exact hne hw.symm

end LinkWatch.Dispatcher
