import LinkWatch.Proofs.Listener.Set
import Mathlib.Logic.Function.Basic

/-!
A listener set in company. Outside the set somebody holds some of the listeners, drops them and passes them on at any
time between two requests; a listener that nobody holds is dead, and once the set has no entry for it either its key may
be given to a new one. A `Keeper` is whoever answers the requests; the set is one.

A set that owns a listener owns it until it is asked to remove it (`owns_run`), whatever happens outside. So a strong
registration keeps its listener unless the listener was registered already and weakly: the entry that is there stays as
it is (`keeps_strong_iff`).
-/

namespace LinkWatch.ListenerSet

/-- The listeners outside. -/
structure Outdoors where
  /-- How many listeners had a key before the one that has it now. -/
  former : ListenerKey → Nat := fun _ => 0
  /-- Somebody holds the listener that has the key now. -/
  held : ListenerKey → Bool := fun _ => false

inductive Request where
  | add (hold : Hold) (k : ListenerKey)
  | remove (k : ListenerKey)
  | live
  | size
  | isEmpty
deriving DecidableEq

inductive Answer where
  | flag (b : Bool)
  | keys (ks : List ListenerKey)
  | number (n : Nat)
deriving DecidableEq

inductive ListenerStep where
  | request (q : Request)
  /-- Everybody outside drops a listener. -/
  | drop (k : ListenerKey)
  /-- Somebody comes to hold a listener that is alive. -/
  | share (k : ListenerKey)
  /-- A new listener gets a key. -/
  | create (k : ListenerKey)
deriving DecidableEq

namespace Outdoors

def drop (k : ListenerKey) (o : Outdoors) : Outdoors := { o with held := Function.update o.held k false }

def hold (k : ListenerKey) (o : Outdoors) : Outdoors := { o with held := Function.update o.held k true }

def create (k : ListenerKey) (o : Outdoors) : Outdoors :=
  { o.hold k with former := Function.update o.former k (o.former k + 1) }

/-- Who registers a listener holds it. -/
def permits (o : Outdoors) : Request → Bool
  | .add _ k => o.held k
  | _ => true

variable {o : Outdoors} {k k' : ListenerKey}

lemma held_drop : (o.drop k).held k' = true ↔ o.held k' = true ∧ k' ≠ k := by
  by_cases h : k' = k <;> simp [drop, h]

lemma held_hold : (o.hold k).held k' = true ↔ o.held k' = true ∨ k' = k := by
  by_cases h : k' = k <;> simp [hold, h]

lemma held_create : (o.create k).held k' = true ↔ o.held k' = true ∨ k' = k := held_hold

end Outdoors

/-! ### Keepers -/

/-- Whoever answers requests. -/
structure Keeper (S : Type) where
  /-- The listener that has the key is held outside or owned by the keeper. -/
  alive : Outdoors → S → ListenerKey → Bool
  /-- As far as it goes by the keeper, the key of a dead listener can be given to another one. -/
  isFree : S → ListenerKey → Bool
  ask : Outdoors → Request → S → Answer × S

namespace Keeper

variable {S : Type} (K : Keeper S)

/-- Takes a step, if it can be taken, with the answer if it was a request. -/
def step (x : Outdoors × S) : ListenerStep → Option (Option Answer × Outdoors × S)
  | .request q => if x.1.permits q then some (some (K.ask x.1 q x.2).1, x.1, (K.ask x.1 q x.2).2) else none
  | .drop k => some (none, x.1.drop k, x.2)
  | .share k => if K.alive x.1 x.2 k then some (none, x.1.hold k, x.2) else none
  | .create k => if !K.alive x.1 x.2 k && K.isFree x.2 k then some (none, x.1.create k, x.2) else none

/-- Takes one step after the other, if all of them can be taken; gives the answers in order. -/
def run : List ListenerStep → Outdoors × S → Option (List Answer × Outdoors × S)
  | [], x => some ([], x)
  | m :: moves, x =>
    (K.step x m).bind fun y => (run moves y.2).map fun z => (y.1.toList ++ z.1, z.2)

variable {K} {x y : Outdoors × S} {m : ListenerStep} {moves : List ListenerStep} {answers : List Answer}

lemma run_cons : K.run (m :: moves) x = some (answers, y) ↔
    ∃ a z as, K.step x m = some (a, z) ∧ K.run moves z = some (as, y) ∧ answers = a.toList ++ as := by
  simp only [run, Option.bind_eq_some_iff, Option.map_eq_some_iff, Prod.exists, Prod.mk.injEq]
  constructor
  · rintro ⟨a, o, s, hstep, as, o', s', hrun, rfl, rfl⟩
    exact ⟨a, o, s, as, hstep, hrun, rfl⟩
  · rintro ⟨a, o, s, as, hstep, hrun, rfl⟩
    exact ⟨a, o, s, hstep, as, y.1, y.2, hrun, rfl, rfl⟩

/-- What every step keeps, a run keeps. -/
lemma run_keeps (P : Outdoors × S → Prop) (ok : ListenerStep → Prop)
    (hstep : ∀ {x m a y}, ok m → K.step x m = some (a, y) → P x → P y) (hok : ∀ m ∈ moves, ok m)
    (h : K.run moves x = some (answers, y)) (hx : P x) : P y := by
  induction moves generalizing x answers with
  | nil =>
    obtain ⟨-, rfl⟩ : [] = answers ∧ x = y := by simpa [run] using h
    exact hx
  | cons m moves ih =>
    obtain ⟨a, z, as, hm, hrest, -⟩ := run_cons.mp h
    exact ih (fun m' h' => hok m' (by simp [h'])) hrest (hstep (hok m (by simp)) hm hx)

end Keeper

/-! ### The set -/

/-- Who is alive: those that are held outside and those that the set owns. -/
def Outdoors.alive (o : Outdoors) (s : ListenerSet) (k : ListenerKey) : Bool := o.held k || s.owns k

/-- The live listeners of a set, in order. -/
def Outdoors.live (o : Outdoors) (s : ListenerSet) : List ListenerKey := (s.live (o.alive s)).1

def request (o : Outdoors) (s : ListenerSet) : Request → Answer × ListenerSet
  | .add hold k => let (new, s) := s.add (o.alive s) hold k; (.flag new, s)
  | .remove k => let (found, s) := s.remove (o.alive s) k; (.flag found, s)
  | .live => let (ks, s) := s.live (o.alive s); (.keys ks, s)
  | .size => let (n, s) := s.size (o.alive s); (.number n, s)
  | .isEmpty => let (answer, s) := s.isEmpty (o.alive s); (.flag answer, s)

/-- The set. An entry of it, strong or weak, keeps the key of its listener from being given away. -/
def keeper : Keeper ListenerSet where
  alive := Outdoors.alive
  isFree s k := !s.contains k
  ask o q s := s.request o q

variable {o o' : Outdoors} {s s' : ListenerSet} {k : ListenerKey} {q : Request} {m : ListenerStep}
  {moves : List ListenerStep}
  {answers : List Answer} {answer : Option Answer}

lemma alive_of_held (h : o.held k = true) : o.alive s k = true := by simp [Outdoors.alive, h]

lemma alive_of_owns (h : s.owns k = true) : o.alive s k = true := by simp [Outdoors.alive, h]

lemma live_eq (o : Outdoors) (s : ListenerSet) : o.live s = (s.entries.filter fun x => o.alive s x.1).map Prod.fst :=
  congrArg (List.map Prod.fst) (entries_prune fun _ h => alive_of_owns h)

lemma mem_live : k ∈ o.live s ↔ o.alive s k = true ∧ s.contains k = true := by
  rw [live_eq, contains_iff, List.mem_map, List.mem_map]
  constructor
  · rintro ⟨x, hx, rfl⟩
    exact ⟨(List.mem_filter.mp hx).2, x, (List.mem_filter.mp hx).1, rfl⟩
  · rintro ⟨hk, x, hx, rfl⟩
    exact ⟨x, List.mem_filter.mpr ⟨hx, hk⟩, rfl⟩

/-- A request takes nobody out whom it was not asked to. -/
lemma owns_request (h : s.owns k = true) (hq : q ≠ .remove k) : (s.request o q).2.owns k = true := by
  cases q with
  | add hold k' => exact owns_add h hold k'
  | remove k' => exact owns_remove h fun he => hq (he ▸ rfl)
  | live => exact (owns_prune _ s k).trans h
  | size => exact (owns_prune _ s k).trans h
  | isEmpty => exact (owns_prune _ s k).trans h

lemma contains_request (h : s.contains k = true) (hk : o.alive s k = true) (hq : q ≠ .remove k) :
    (s.request o q).2.contains k = true := by
  have hprune : (s.prune (o.alive s)).contains k = true := (contains_prune_of_alive hk).trans h
  cases q with
  | add hold k' =>
    change (s.add (o.alive s) hold k').2.contains k = true
    cases hc : (s.prune (o.alive s)).contains k' with
    | true => rwa [add_of_contains hc]
    | false =>
      rw [add_of_not_contains hc, contains_iff, keys, List.map_append]
      exact List.mem_append_left _ (contains_iff.mp hprune)
  | remove k' =>
    obtain ⟨x, hx, rfl⟩ := List.mem_map.mp (contains_iff.mp hprune)
    have hne : x.1 ≠ k' := fun he => hq (he ▸ rfl)
    exact contains_iff.mpr (List.mem_map_of_mem (List.mem_filter.mpr ⟨hx, by simpa using hne⟩))
  | live => exact hprune
  | size => exact hprune
  | isEmpty => exact hprune

/-- What a step can do: a request is answered, or something happens outside. -/
lemma step_cases (h : keeper.step (o, s) m = some (answer, o', s')) :
    (∃ q, m = .request q ∧ o.permits q = true ∧ answer = some (s.request o q).1 ∧ o' = o ∧ s' = (s.request o q).2) ∨
      answer = none ∧ s' = s ∧
        ((∃ k, m = .drop k ∧ o' = o.drop k) ∨ (∃ k, m = .share k ∧ o.alive s k = true ∧ o' = o.hold k) ∨
          ∃ k, m = .create k ∧ o.alive s k = false ∧ s.contains k = false ∧ o' = o.create k) := by
  cases m with
  | request q =>
    simp only [Keeper.step] at h
    split at h
    · rename_i hq
      obtain ⟨rfl, rfl, rfl⟩ : _ ∧ _ ∧ _ := by simpa using h
      exact .inl ⟨q, rfl, hq, rfl, rfl, rfl⟩
    · cases h
  | drop k =>
    obtain ⟨rfl, rfl, rfl⟩ : _ ∧ _ ∧ _ := by simpa [Keeper.step] using h
    exact .inr ⟨rfl, rfl, .inl ⟨k, rfl, rfl⟩⟩
  | share k =>
    simp only [Keeper.step] at h
    split at h
    · rename_i hk
      obtain ⟨rfl, rfl, rfl⟩ : _ ∧ _ ∧ _ := by simpa using h
      exact .inr ⟨rfl, rfl, .inr (.inl ⟨k, rfl, hk, rfl⟩)⟩
    · cases h
  | create k =>
    simp only [Keeper.step] at h
    split at h
    · rename_i hk
      obtain ⟨rfl, rfl, rfl⟩ : _ ∧ _ ∧ _ := by simpa using h
      obtain ⟨hdead, hfree⟩ : o.alive s k = false ∧ s.contains k = false := by simpa [keeper] using hk
      exact .inr ⟨rfl, rfl, .inr (.inr ⟨k, rfl, hdead, hfree, rfl⟩)⟩
    · cases h

/-- The set owns a listener until it is asked to remove it. -/
theorem owns_run (hmoves : .request (.remove k) ∉ moves) (h : keeper.run moves (o, s) = some (answers, o', s'))
    (hk : s.owns k = true) : s'.owns k = true := by
  refine Keeper.run_keeps (fun x => x.2.owns k = true) (· ≠ .request (.remove k)) ?_
    (fun m hm he => hmoves (he ▸ hm)) h hk
  rintro ⟨o, s⟩ m a ⟨o', s'⟩ hm hstep hk
  rcases step_cases hstep with ⟨q, rfl, -, -, -, rfl⟩ | ⟨-, rfl, -⟩
  · exact owns_request hk fun he => hm (he ▸ rfl)
  · exact hk

/-- As long as a listener is held outside, the set keeps its entry until it is asked to remove it. -/
theorem contains_run (hmoves : .request (.remove k) ∉ moves) (hdrop : .drop k ∉ moves)
    (h : keeper.run moves (o, s) = some (answers, o', s')) (hheld : o.held k = true) (hk : s.contains k = true) :
    o'.held k = true ∧ s'.contains k = true := by
  refine Keeper.run_keeps (fun x => x.1.held k = true ∧ x.2.contains k = true)
    (fun m => m ≠ .request (.remove k) ∧ m ≠ .drop k) ?_
    (fun m hm => ⟨fun he => hmoves (he ▸ hm), fun he => hdrop (he ▸ hm)⟩) h ⟨hheld, hk⟩
  rintro ⟨o, s⟩ m a ⟨o', s'⟩ ⟨hremove, hdrop⟩ hstep ⟨hheld, hk⟩
  rcases step_cases hstep with
    ⟨q, rfl, -, -, rfl, rfl⟩ | ⟨-, rfl, ⟨k', rfl, rfl⟩ | ⟨k', rfl, -, rfl⟩ | ⟨k', rfl, -, -, rfl⟩⟩
  · exact ⟨hheld, contains_request hk (alive_of_held hheld) fun he => hremove (he ▸ rfl)⟩
  · exact ⟨Outdoors.held_drop.mpr ⟨hheld, fun he => hdrop (he ▸ rfl)⟩, hk⟩
  · exact ⟨Outdoors.held_hold.mpr (.inl hheld), hk⟩
  · exact ⟨Outdoors.held_create.mpr (.inl hheld), hk⟩

/-! ### Strong registrations -/

/-- The listener is live as long as nobody asks the set to remove it, whoever drops it. -/
def Kept (o : Outdoors) (s : ListenerSet) (k : ListenerKey) : Prop :=
  ∀ moves answers o' s', .request (.remove k) ∉ moves → keeper.run moves (o, s) = some (answers, o', s') →
    k ∈ o'.live s'

lemma kept_of_owns (h : s.owns k = true) : Kept o s k := fun moves answers o' s' hmoves hrun => by
  have howns : s'.owns k = true := owns_run hmoves hrun h
  exact mem_live.mpr ⟨alive_of_owns howns, contains_of_owns howns⟩

/-- A listener that the set does not own goes with its last holder outside. -/
lemma not_kept_of_not_owns (h : s.owns k = false) : ¬ Kept o s k := by
  intro hkept
  have hlive : k ∈ (o.drop k).live s := hkept [.drop k] [] _ _ (by simp) rfl
  have halive := (mem_live.mp hlive).1
  rw [Outdoors.alive, h, Bool.or_false, Outdoors.held_drop] at halive
  exact halive.2 rfl

/-- **A strong registration keeps its listener** for good, unless the set had it already and only weakly. In that case
nothing but the dead goes out of the set, and the listener stays live as long as somebody outside holds it. -/
theorem kept_strong_iff (hk : o.held k = true) :
    (Kept o (s.request o (.add .strong k)).2 k ↔ (s.contains k = true → s.owns k = true)) ∧
      (s.contains k = true → s.owns k = false →
        s.request o (.add .strong k) = (.flag false, s.prune (o.alive s)) ∧
          ∀ moves answers o' s', .request (.remove k) ∉ moves → .drop k ∉ moves →
            keeper.run moves (o, s.prune (o.alive s)) = some (answers, o', s') → k ∈ o'.live s') := by
  have hprune : (s.prune (o.alive s)).contains k = s.contains k := contains_prune_of_alive (alive_of_held hk)
  have hold : s.contains k = true → s.request o (.add .strong k) = (.flag false, s.prune (o.alive s)) := by
    intro hc
    rw [request, add_of_contains (hprune.trans hc)]
  refine ⟨?_, fun hc _ => ⟨hold hc, fun moves answers o' s' hremove hdrop hrun => ?_⟩⟩
  · cases hc : s.contains k with
    | true =>
      rw [hold hc]
      cases howns : s.owns k with
      | true => simpa using kept_of_owns ((owns_prune _ s k).trans howns)
      | false => simpa using not_kept_of_not_owns ((owns_prune _ s k).trans howns)
    | false =>
      have hnew : (s.request o (.add .strong k)).2.owns k = true := by
        rw [request, add_of_not_contains (hprune.trans hc)]
        exact owns_iff.mpr (by simp)
      simpa using kept_of_owns hnew
  · obtain ⟨hheld, hcontains⟩ := contains_run hremove hdrop hrun hk (hprune.trans hc)
    exact mem_live.mpr ⟨alive_of_held hheld, hcontains⟩

/-- Of two listeners that are registered strongly, the one that was registered weakly before is not kept. -/
theorem kept_strong_iff_two :
    let o : Outdoors := { held := fun k => k < 2 }
    let s : ListenerSet := ⟨[(1, .weak)]⟩
    (o.held 0 = true ∧ Kept o (s.request o (.add .strong 0)).2 0) ∧
      o.held 1 = true ∧ ¬ Kept o (s.request o (.add .strong 1)).2 1 :=
  ⟨⟨rfl, (kept_strong_iff rfl).1.mpr (by decide)⟩, rfl, fun h => absurd ((kept_strong_iff rfl).1.mp h) (by decide)⟩

/-- A listener is created, registered weakly and then strongly, and dropped: it is not live any more. -/
theorem not_kept_weakFirst :
    ¬ ∀ history answers o s k, keeper.run history ({}, {}) = some (answers, o, s) → o.held k = true →
      Kept o (s.request o (.add .strong k)).2 k := by
  intro h
  have hkept := h [.create 0, .request (.add .weak 0)] _ _ _ 0 rfl rfl
  exact not_kept_of_not_owns rfl hkept

end LinkWatch.ListenerSet
