import LinkWatch.Proofs.Engine.Keeping
import Mathlib.Logic.Relation

/-!
What handling an event looks like from the dispatcher: one submission after the other, and between them work that it
does not see. A part of the world that no question of the system touches stays as it is.
-/

namespace LinkWatch

variable {σ ρ : Type}

/-- No question changes this part of the world. -/
structure System.Spares (sys : System σ) (part : σ → ρ) : Prop where
  entryKind : ∀ p s, part (sys.entryKind p s).2 = part s
  readLink : ∀ p s, part (sys.readLink p s).2 = part s
  currentDir : ∀ s, part (sys.currentDir s).2 = part s
  watch : ∀ dir s, part (sys.watch dir s).2 = part s
  unwatch : ∀ dir s, part (sys.unwatch dir s).2 = part s

namespace System.Spares

variable {sys : System σ} {part : σ → ρ}

/-- The part stays what it is. -/
lemma keeps (h : sys.Spares part) (x : ρ) : sys.toFilesystem.Keeps (part · = x) where
  entryKind p s hs := (h.entryKind p s).trans hs
  readLink p s hs := (h.readLink p s).trans hs
  currentDir s hs := (h.currentDir s).trans hs

lemma resolve (h : sys.Spares part) (p : Path) (s : σ) :
    part (LinkWatch.resolve sys.toFilesystem p s).2 = part s :=
  (h.keeps (part s)).resolve p rfl

end System.Spares

namespace Engine

variable {e e' e'' : Engine σ} {part : σ → ρ} {sys : System σ}

/-- The dispatcher sees nothing of it, and the part of the world stays. -/
structure Aside (part : σ → ρ) (e e' : Engine σ) : Prop where
  dispatcher : e'.dispatcher = e.dispatcher
  held : e'.held = e.held
  submitted : submitted e' = submitted e
  part : part e'.world = part e.world

lemma Aside.refl (part : σ → ρ) (e : Engine σ) : Aside part e e := ⟨rfl, rfl, rfl, rfl⟩

lemma Aside.trans (h : Aside part e e') (h' : Aside part e' e'') : Aside part e e'' where
  dispatcher := h'.dispatcher.trans h.dispatcher
  held := h'.held.trans h.held
  submitted := h'.submitted.trans h.submitted
  part := h'.part.trans h.part

lemma aside_world {world : σ} (h : part world = part e.world) : Aside part e { e with world } := ⟨rfl, rfl, rfl, h⟩

lemma aside_say (r : Log.Record) (e : Engine σ) : Aside part e (e.say r) := ⟨rfl, rfl, (quiet_say r e).submitted, rfl⟩

lemma aside_live (scope : Table.Scope) (e : Engine σ) : Aside part e (e.live scope).2 := ⟨rfl, rfl, rfl, rfl⟩

lemma aside_watch (h : sys.Spares part) (dir : Path) (e : Engine σ) :
    Aside part e (e.watch sys.toNativeWatches dir) := by
  have hworld := h.watch dir e.world
  have hsubmitted := (quiet_watch sys.toNativeWatches dir e).submitted
  unfold watch at *
  rcases hout : sys.watch dir e.world with ⟨answer, world⟩
  rw [hout] at hworld hsubmitted
  cases answer <;> exact ⟨rfl, rfl, hsubmitted, hworld⟩

lemma aside_unwatch (h : sys.Spares part) (dir : Path) (e : Engine σ) :
    Aside part e (e.unwatch sys.toNativeWatches dir) := by
  have hworld := h.unwatch dir e.world
  have hsubmitted := (quiet_unwatch sys.toNativeWatches dir e).submitted
  unfold unwatch at *
  rcases hout : sys.unwatch dir e.world with ⟨answer, world⟩
  rw [hout] at hworld hsubmitted
  cases answer <;> exact ⟨rfl, rfl, hsubmitted, hworld⟩

lemma aside_sync (h : sys.Spares part) (dirs : List Path) (e : Engine σ) :
    Aside part e (e.sync sys.toNativeWatches dirs) := by
  induction dirs generalizing e with
  | nil => exact .refl part e
  | cons dir dirs ih =>
    refine Aside.trans ?_ (ih (e.syncOne sys.toNativeWatches dir))
    unfold syncOne
    split
    · exact aside_watch h dir e
    · exact aside_unwatch h dir e
    · exact .refl part e

lemma aside_repoint (h : sys.Spares part) (id : TargetId) (r : Resolution) (e : Engine σ) :
    Aside part e (e.repoint sys.toNativeWatches id r).2 := by
  unfold repoint
  rcases e.table.repoint id r with ⟨_ | ⟨previous, touched⟩, t⟩
  · exact .refl part e
  · have htable : Aside part e { e with table := t } := ⟨rfl, rfl, rfl, rfl⟩
    exact htable.trans (aside_sync h touched _)

lemma aside_refresh (h : sys.Spares part) (id : TargetId) (e : Engine σ) : Aside part e (e.refresh sys id).2 := by
  have hresolve := h.resolve (e.table.target id).requested e.world
  unfold refresh
  dsimp only
  generalize resolve sys.toFilesystem (e.table.target id).requested e.world = out at hresolve ⊢
  obtain ⟨answer, world⟩ := out
  have hworld : Aside part e { e with world } := aside_world hresolve
  by_cases hhalted : sys.halted world = true
  · simpa [hhalted] using hworld
  · cases answer with
    | error err => simpa [hhalted] using hworld.trans (aside_say _ _)
    | ok r =>
      have hrep := hworld.trans (aside_repoint h id r { e with world })
      rcases hout : repoint sys.toNativeWatches id r { e with world } with ⟨_ | previous, e'⟩ <;> rw [hout] at hrep
      · simpa [hhalted, hout] using hrep
      · simpa [hhalted, hout] using hrep.trans (aside_say _ _)

@[simp]
lemma dispatcher_submit (n : Notification) (e : Engine σ) : (e.submit n).dispatcher = (e.dispatcher.submit n).2 := by
  unfold submit
  dsimp only
  split <;> rfl

@[simp]
lemma held_submit (n : Notification) (e : Engine σ) : (e.submit n).held = e.held := by
  unfold submit
  dsimp only
  split <;> rfl

/-- A submission, or something the dispatcher does not see. -/
inductive Act (part : σ → ρ) : Engine σ → Engine σ → Prop
  | aside {e e' : Engine σ} : Aside part e e' → Act part e e'
  | submit {e : Engine σ} (n : Notification) : Act part e (e.submit n)

abbrev Acts (part : σ → ρ) : Engine σ → Engine σ → Prop := Relation.ReflTransGen (Act part)

lemma acts_submitAll (f : ListenerKey → Notification) (ks : List ListenerKey) (e : Engine σ) :
    Acts part e (ks.foldl (fun e k => e.submit (f k)) e) := by
  induction ks generalizing e with
  | nil => exact .refl
  | cons k ks ih => exact .head (.submit (f k)) (ih _)

lemma acts_notify (id : TargetId) (e : Engine σ) : Acts part e (e.notify id) := by
  obtain ⟨r, heq⟩ := notify_eq id e
  have hown : Acts part (e.say r) ((e.say r).notifyOwn id) :=
    .head (.aside (aside_live (.only id) _)) (acts_submitAll _ _ _)
  have hall : Acts part ((e.say r).notifyOwn id) (e.notify id) := by
    rw [heq]
    exact .head (.aside (aside_live .all _)) (acts_submitAll _ _ _)
  exact .head (.aside (aside_say r e)) (hown.trans hall)

lemma acts_handle (h : sys.Spares part) (event : Event) (notified : List Path) (id : TargetId) (e : Engine σ) :
    Acts part e (handle sys event (notified, e) id).2 := by
  have hrefresh : Acts part e (e.refresh sys id).2 := .single (.aside (aside_refresh h id e))
  rcases handle_cases sys event notified id e with heq | heq | heq
  · rw [heq]
  · rw [heq]
    exact hrefresh
  · rw [heq]
    exact hrefresh.trans (acts_notify id _)

/-- Handling an event is submissions and work that the dispatcher does not see. -/
theorem acts_handleEvent (h : sys.Spares part) (event : Event) (notified : List Path) (e : Engine σ) :
    Acts part e (handleEvent sys event notified e).2 := by
  have hall : ∀ (ids : List TargetId) (s : List Path × Engine σ), Acts part s.2 (ids.foldl (handle sys event) s).2 := by
    intro ids
    induction ids with
    | nil => exact fun s => .refl
    | cons id ids ih => exact fun s => (acts_handle h event s.1 id s.2).trans (ih _)
  exact .head (.aside (aside_say _ e)) (hall _ (notified, _))

end Engine

end LinkWatch
