import LinkWatch.Proofs.Closing.Stages
import LinkWatch.Proofs.Engine.Keeping
import LinkWatch.Watcher
import Mathlib.Logic.Relation

/-!
What callers ask of a watcher, and what becomes of a call that fails. A call may fail at any question of a walk, but
nothing is registered before the last of them is answered, so a failed call leaves no trace (`Untouched`). A closed
watcher refuses every registration and stays closed, whatever happens to it (`Leads`). A path that is watched already
is not resolved again (`perform_atomic`); the one spelling that does not count is the empty path (`not_start_empty`).
-/

namespace LinkWatch.Watcher

variable {σ : Type}

/-! ### Calls -/

/-- The calls that may fail. -/
inductive Call where
  | start (p : Path)
  | stop (p : Path)
  | add (hold : Hold) (k : ListenerKey)
  | addFor (hold : Hold) (p : Path) (k : ListenerKey)

def perform (sys : System σ) (w : Watcher σ) : Call → Except WatchError Unit × Watcher σ
  | .start p => w.start sys p
  | .stop p => w.stop sys p
  | .add hold k => w.add hold k
  | .addFor hold p k => w.addFor sys hold p k

/-- What a registration is called where it is refused. -/
def Call.registers : Call → Option String
  | .start _ => some "start watching"
  | .stop _ => none
  | .add hold _ => some (addName hold)
  | .addFor hold _ _ => some (addName hold)

/-! ### Calls that fail -/

/-- Nothing has happened but questions of a walk: table, listeners, dispatcher, effects and lifecycle are the same, and
so is whatever of the world such questions leave alone. -/
structure Untouched (fs : Filesystem σ) (w w' : Watcher σ) : Prop where
  watcher : w' = { w with engine := { w.engine with world := w'.engine.world } }
  world : ∀ P : σ → Prop, fs.Keeps P → P w.engine.world → P w'.engine.world

section Failed

variable {sys : System σ} {fs : Filesystem σ} {w w' w'' : Watcher σ} {err : WatchError}

lemma Untouched.refl (fs : Filesystem σ) (w : Watcher σ) : Untouched fs w w := ⟨rfl, fun _ _ h => h⟩

lemma Untouched.trans (h : Untouched fs w w') (h' : Untouched fs w' w'') : Untouched fs w w'' where
  watcher := by
    rw [h'.watcher, h.watcher]
  world P hP hw := h'.world P hP (h.world P hP hw)

lemma untouched_requested {answer : Except WatchError Path} {p : Path} (h : w.requested fs p = (answer, w')) :
    Untouched fs w w' := by
  unfold requested at h
  split at h
  · obtain ⟨-, rfl⟩ := Prod.mk.inj h
    exact .refl fs w
  · obtain ⟨-, rfl⟩ := Prod.mk.inj h
    exact ⟨rfl, fun P hP hw => hP.absolutize p hw⟩

lemma untouched_targetFor {p : Path} (h : w.targetFor sys p = (.error err, w')) :
    Untouched sys.toFilesystem w w' := by
  unfold targetFor at h
  split at h <;> rename_i hasked
  · obtain ⟨-, rfl⟩ := Prod.mk.inj h
    exact untouched_requested hasked
  · rename_i asked _
    have hbefore := untouched_requested hasked
    split at h
    · cases h
    · split at h <;> rename_i hresolve
      · obtain ⟨-, rfl⟩ := Prod.mk.inj h
        refine hbefore.trans ⟨rfl, fun P hP hw => ?_⟩
        have hkept := hP.resolve asked hw
        rwa [hresolve] at hkept
      · cases h

/-- A call that fails leaves no trace. -/
lemma untouched_perform {c : Call} (h : w.perform sys c = (.error err, w')) : Untouched sys.toFilesystem w w' := by
  cases c with
  | start p =>
    rw [perform, start] at h
    split at h
    · obtain ⟨-, rfl⟩ := Prod.mk.inj h
      exact .refl _ w
    · rcases htarget : w.targetFor sys p with ⟨_ | id, w₁⟩ <;> rw [htarget] at h
      · obtain ⟨-, rfl⟩ := Prod.mk.inj h
        exact untouched_targetFor htarget
      · cases h
  | stop p =>
    rw [perform, stop] at h
    split at h <;> rename_i hasked
    · obtain ⟨-, rfl⟩ := Prod.mk.inj h
      exact untouched_requested hasked
    · split at h <;> cases h
  | add hold k =>
    rw [perform, add] at h
    split at h
    · obtain ⟨-, rfl⟩ := Prod.mk.inj h
      exact .refl _ w
    · cases h
  | addFor hold p k =>
    rw [perform, addFor] at h
    split at h
    · obtain ⟨-, rfl⟩ := Prod.mk.inj h
      exact .refl _ w
    · split at h <;> rename_i htarget
      · obtain ⟨-, rfl⟩ := Prod.mk.inj h
        exact untouched_targetFor htarget
      · cases h

end Failed

/-! ### What happens to a watcher -/

/-- What may happen to a watcher over systems of this kind. -/
inductive Step (kind : System σ → Prop) : Watcher σ → Watcher σ → Prop
  | call {w : Watcher σ} {sys : System σ} (c : Call) : kind sys → Step kind w (w.perform sys c).2
  | remove {w : Watcher σ} (k : ListenerKey) : Step kind w (w.remove k).2
  | batch {w : Watcher σ} {sys : System σ} (events : List Event) : kind sys →
      Step kind w { w with engine := w.engine.process sys events }
  /-- A stage of a closing, whatever it meets. -/
  | close {w : Watcher σ} {τ : Type} (pr : Premises τ) (stage : Lifecycle.Stage) (s : τ) :
      Step kind w { w with lifecycle := (stage.step pr (w.lifecycle, s)).2.1 }
  /-- Whatever happens to the dispatcher, the world and those who hold listeners. -/
  | elsewhere {w w' : Watcher σ} : w'.engine.table = w.engine.table → w'.lifecycle = w.lifecycle → Step kind w w'

/-- One after the other. -/
abbrev Leads (kind : System σ → Prop) : Watcher σ → Watcher σ → Prop := Relation.ReflTransGen (Step kind)

section Closed

variable {kind : System σ → Prop} {sys : System σ} {w w' : Watcher σ}

lemma lifecycle_requested (fs : Filesystem σ) (p : Path) (w : Watcher σ) :
    (w.requested fs p).2.lifecycle = w.lifecycle := by
  unfold requested
  split <;> rfl

lemma lifecycle_targetFor (sys : System σ) (p : Path) (w : Watcher σ) :
    (w.targetFor sys p).2.lifecycle = w.lifecycle := by
  have hasked := lifecycle_requested sys.toFilesystem p w
  unfold targetFor
  split <;> rename_i heq <;> rw [heq] at hasked
  · exact hasked
  · split
    · exact hasked
    · split <;> exact hasked

/-- No call closes a watcher, or opens one. -/
lemma lifecycle_perform (sys : System σ) (w : Watcher σ) (c : Call) :
    (w.perform sys c).2.lifecycle = w.lifecycle := by
  cases c with
  | start p =>
    rw [perform, start]
    split
    · rfl
    · exact lifecycle_targetFor sys p w
  | stop p =>
    have hasked := lifecycle_requested sys.toFilesystem p w
    rw [perform, stop]
    split <;> rename_i heq <;> rw [heq] at hasked
    · exact hasked
    · split <;> exact hasked
  | add hold k =>
    rw [perform, add]
    split <;> rfl
  | addFor hold p k =>
    have htarget := lifecycle_targetFor sys p w
    rw [perform, addFor]
    split
    · rfl
    · split <;> rename_i heq <;> rw [heq] at htarget <;> exact htarget

lemma closed_stage {τ : Type} (pr : Premises τ) (stage : Lifecycle.Stage) {l : Lifecycle} (s : τ)
    (h : l.closed = true) : (stage.step pr (l, s)).2.1.closed = true := by
  by_cases hstage : stage = .enter
  · subst hstage
    rw [Lifecycle.Stage.step, if_pos h]
    exact h
  · rw [Lifecycle.lifecycle_step hstage]
    exact h

lemma closed_step (hstep : Step kind w w') (h : w.lifecycle.closed = true) : w'.lifecycle.closed = true := by
  cases hstep with
  | call c _ =>
    rw [lifecycle_perform]
    exact h
  | remove k => exact h
  | batch events _ => exact h
  | close pr stage s => exact closed_stage pr stage s h
  | elsewhere _ hlifecycle =>
    rw [hlifecycle]
    exact h

/-- Once closed, always closed. -/
lemma closed_leads (hleads : Leads kind w w') (h : w.lifecycle.closed = true) : w'.lifecycle.closed = true := by
  induction hleads with
  | refl => exact h
  | tail _ hstep ih => exact closed_step hstep ih

/-- A closed watcher refuses every registration before it looks at anything. -/
lemma perform_of_closed {c : Call} {operation : String} (h : w.lifecycle.closed = true)
    (hc : c.registers = some operation) : w.perform sys c = (.error (.closed operation), w) := by
  cases c with
  | stop p => cases hc
  | start p =>
    obtain rfl := Option.some.inj hc
    simp [perform, start, ensureOpen, h]
  | add hold k =>
    obtain rfl := Option.some.inj hc
    simp [perform, add, ensureOpen, h]
  | addFor hold p k =>
    obtain rfl := Option.some.inj hc
    simp [perform, addFor, ensureOpen, h]

end Closed

/-! ### Paths that are watched already -/

section Watched

variable {sys : System σ} {w : Watcher σ} {p asked : Path} {id : TargetId} {s : σ}

/-- The path is made rooted, and nothing else is asked. -/
lemma targetFor_of_watched (hp : p.isEmpty = false)
    (hasked : absolutize sys.toFilesystem p w.engine.world = (.ok asked, s)) (hid : w.engine.table.find? asked = some id) :
    w.targetFor sys p = (.ok id, { w with engine := { w.engine with world := s } }) := by
  simp [targetFor, requested, hp, hasked, hid]

lemma start_of_watched (hopen : w.lifecycle.closed = false) (hp : p.isEmpty = false)
    (hasked : absolutize sys.toFilesystem p w.engine.world = (.ok asked, s))
    (hid : w.engine.table.find? asked = some id) :
    w.start sys p = (.ok (), { w with engine := { w.engine with world := s } }) := by
  simp [start, ensureOpen, hopen, targetFor_of_watched hp hasked hid, Except.map]

lemma addFor_of_watched (hopen : w.lifecycle.closed = false) (hp : p.isEmpty = false)
    (hasked : absolutize sys.toFilesystem p w.engine.world = (.ok asked, s))
    (hid : w.engine.table.find? asked = some id) (hold : Hold) (k : ListenerKey) :
    w.addFor sys hold p k =
      (.ok (), { w with engine := ({ w.engine with world := s }.addListener (.only id) hold k).2 }) := by
  simp [addFor, ensureOpen, hopen, targetFor_of_watched hp hasked hid]

end Watched

/-! ### All calls -/

/-- **Calls are atomic.** A call that fails leaves the watcher untouched. A closed watcher stays closed, and refuses
every registration as it stands. On an open one, a path that is watched already, under any spelling but the empty one,
is found whatever entries and links are like: no question is asked but for the current directory. -/
theorem perform_atomic (w : Watcher σ) :
    (∀ (sys : System σ) (c : Call) (err : WatchError) (w' : Watcher σ),
      w.perform sys c = (.error err, w') → Untouched sys.toFilesystem w w') ∧
    (w.lifecycle.closed = true → ∀ (kind : System σ → Prop) (w' : Watcher σ), Leads kind w w' →
      w'.lifecycle.closed = true ∧ ∀ (sys : System σ) (c : Call) (operation : String), c.registers = some operation →
        w'.perform sys c = (.error (.closed operation), w')) ∧
    (w.lifecycle.closed = false → ∀ (sys : System σ) (p asked : Path) (s : σ) (id : TargetId), p.isEmpty = false →
      absolutize sys.toFilesystem p w.engine.world = (.ok asked, s) → w.engine.table.find? asked = some id →
      ∀ (entryKind : Path → σ → Except IoError EntryKind × σ) (readLink : Path → σ → Except IoError Path × σ),
        w.start { sys with entryKind, readLink } p = (.ok (), { w with engine := { w.engine with world := s } }) ∧
        ∀ (hold : Hold) (k : ListenerKey), w.addFor { sys with entryKind, readLink } hold p k =
          (.ok (), { w with engine := ({ w.engine with world := s }.addListener (.only id) hold k).2 })) := by
  refine ⟨fun sys c err w' h => untouched_perform h, fun hclosed kind w' hleads => ?_, ?_⟩
  · have hclosed' := closed_leads hleads hclosed
    exact ⟨hclosed', fun sys c operation hc => perform_of_closed hclosed' hc⟩
  · intro hopen sys p asked s id hp hasked hid entryKind readLink
    have hasked' : absolutize { sys with entryKind, readLink : System σ }.toFilesystem p w.engine.world =
        (.ok asked, s) := hasked
    exact ⟨start_of_watched hopen hp hasked' hid, addFor_of_watched hopen hp hasked' hid⟩

/-- A tree of directories, seen from the directory `/w`. -/
def inside : System Unit where
  entryKind _ _ := (.ok .dir, ())
  readLink _ _ := (.error (.os .invalid), ())
  currentDir _ := (.ok ⟨[0x2f, 0x77]⟩, ())
  watch _ _ := (.ok (), ())
  unwatch _ _ := (.ok (), ())

/-- The same place when nothing can be inspected any more. -/
def barred : System Unit := { inside with entryKind := fun _ _ => (.error (.plain .permissionDenied), ()) }

/-- A watcher of the directory it is in. -/
def insider : Watcher Unit :=
  (start inside ⟨[0x2e]⟩ ⟨{ dispatcher := { workers := [] }, world := () }, { timeout := .ofSeconds 1 }⟩).2

theorem perform_atomic_barred : absolutize barred.toFilesystem ⟨[0x2e]⟩ () = (.ok ⟨[0x2f, 0x77]⟩, ()) ∧
    (resolve barred.toFilesystem ⟨[0x2e]⟩ ()).1 = .error (.resolution ⟨[0x2f, 0x77]⟩ (.plain .permissionDenied)) ∧
    insider.start barred ⟨[0x2e]⟩ = (.ok (), insider) :=
  ⟨rfl, rfl, ((perform_atomic insider).2.2 rfl inside ⟨[0x2e]⟩ ⟨[0x2f, 0x77]⟩ () 0 rfl rfl rfl
    barred.entryKind barred.readLink).1⟩

/-- The empty path leads to the current directory like a dot, but is refused where a dot is found. -/
theorem not_start_empty : insider.lifecycle.closed = false ∧
    absolutize inside.toFilesystem .empty insider.engine.world = (.ok ⟨[0x2f, 0x77]⟩, ()) ∧
    insider.engine.table.find? ⟨[0x2f, 0x77]⟩ = some 0 ∧ insider.start inside ⟨[0x2e]⟩ = (.ok (), insider) ∧
    insider.start inside .empty = (.error (.invalidArgument "empty file argument"), insider) :=
  ⟨rfl, rfl, rfl, rfl, rfl⟩

end LinkWatch.Watcher
