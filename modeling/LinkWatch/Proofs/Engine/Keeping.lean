import LinkWatch.Proofs.Engine.Submitted

/-!
What questions keep. A property of the world that each question keeps is kept by a walk, by resolving a path, and by
handling a batch, which asks nothing else (`System.Keeps.process`).
-/

namespace LinkWatch

variable {σ : Type} {P : σ → Prop}

/-- Each question of a walk keeps this property of the world. -/
structure Filesystem.Keeps (fs : Filesystem σ) (P : σ → Prop) : Prop where
  entryKind : ∀ p s, P s → P (fs.entryKind p s).2
  readLink : ∀ p s, P s → P (fs.readLink p s).2
  currentDir : ∀ s, P s → P (fs.currentDir s).2

/-- Each question keeps this property of the world. -/
structure System.Keeps (sys : System σ) (P : σ → Prop) : Prop extends sys.toFilesystem.Keeps P where
  watch : ∀ dir s, P s → P (sys.watch dir s).2
  unwatch : ∀ dir s, P s → P (sys.unwatch dir s).2
  overdue : ∀ s, P s → P (sys.overdue s).2

namespace Filesystem.Keeps

open Resolution

variable {fs : Filesystem σ}

lemma stretch (h : fs.Keeps P) (left : List Step) (w : Place) {s : σ} (hs : P s) :
    P (Resolution.stretch fs left w s).2 := by
  induction left generalizing w s with
  | nil => exact hs
  | cons c left ih =>
    cases c with
    | root => exact ih _ hs
    | up => exact ih _ hs
    | name n =>
      have hkind := h.entryKind (w.current.child n) s hs
      simp only [Resolution.stretch]
      split
      · exact ih _ hs
      · split <;> rename_i heq <;> rw [heq] at hkind
        · exact hkind
        · exact ih _ hkind
        · split
          · exact ih _ hkind
          · exact hkind

lemma follow (h : fs.Keeps P) (asked : Path) (more : Nat) (left : List Step) (w : Place) {s : σ} (hs : P s) :
    P (Resolution.follow fs asked more left w s).2 := by
  induction more generalizing left w s with
  | zero =>
    have hstretch := h.stretch left w hs
    unfold Resolution.follow
    split <;> rename_i heq <;> rw [heq] at hstretch <;> exact hstretch
  | succ more ih =>
    have hstretch := h.stretch left w hs
    unfold Resolution.follow
    split <;> rename_i heq <;> rw [heq] at hstretch
    · exact hstretch
    · exact hstretch
    · rename_i w' name left' s'
      have hread := h.readLink (w'.current.child name) s' hstretch
      dsimp only
      split <;> rename_i hlink <;> rw [hlink] at hread
      · exact hread
      · exact ih _ _ hread

lemma absolutize (h : fs.Keeps P) (p : Path) {s : σ} (hs : P s) : P (LinkWatch.absolutize fs p s).2 := by
  have hdir := h.currentDir s hs
  unfold LinkWatch.absolutize
  split
  · exact hs
  · split <;> rename_i heq <;> rw [heq] at hdir <;> exact hdir

lemma resolve (h : fs.Keeps P) (p : Path) {s : σ} (hs : P s) : P (LinkWatch.resolve fs p s).2 := by
  have habs := h.absolutize p hs
  unfold LinkWatch.resolve
  split <;> rename_i heq <;> rw [heq] at habs
  · exact habs
  · exact h.follow _ _ _ _ habs

end Filesystem.Keeps

namespace Engine

variable {e : Engine σ}

@[simp]
lemma world_submit (n : Notification) (e : Engine σ) : (e.submit n).world = e.world := by
  unfold submit
  dsimp only
  split <;> rfl

lemma world_submitAll (f : ListenerKey → Notification) (ks : List ListenerKey) (e : Engine σ) :
    (ks.foldl (fun e k => e.submit (f k)) e).world = e.world := by
  induction ks generalizing e with
  | nil => rfl
  | cons k ks ih => rw [List.foldl_cons, ih, world_submit]

/-- A notice asks the system nothing. -/
lemma world_notify (id : TargetId) (e : Engine σ) : (e.notify id).world = e.world := by
  obtain ⟨r, heq⟩ := notify_eq id e
  rw [heq, world_submitAll]
  exact world_submitAll _ _ _

end Engine

namespace System.Keeps

variable {sys : System σ} {e : Engine σ}

lemma sync (h : sys.Keeps P) (dirs : List Path) (he : P e.world) :
    P (e.sync sys.toNativeWatches dirs).world := by
  induction dirs generalizing e with
  | nil => exact he
  | cons dir dirs ih =>
    refine ih (e := e.syncOne sys.toNativeWatches dir) ?_
    unfold Engine.syncOne
    split
    · have hwatch := h.watch dir e.world he
      unfold Engine.watch
      rcases hout : sys.watch dir e.world with ⟨answer, world⟩
      rw [hout] at hwatch
      cases answer <;> exact hwatch
    · have hunwatch := h.unwatch dir e.world he
      unfold Engine.unwatch
      rcases hout : sys.unwatch dir e.world with ⟨answer, world⟩
      rw [hout] at hunwatch
      cases answer <;> exact hunwatch
    · exact he

lemma refresh (h : sys.Keeps P) (id : TargetId) (he : P e.world) : P (e.refresh sys id).2.world := by
  have hresolve := h.toKeeps.resolve (e.table.target id).requested he
  unfold Engine.refresh
  dsimp only
  generalize LinkWatch.resolve sys.toFilesystem (e.table.target id).requested e.world = out at hresolve ⊢
  obtain ⟨answer, world⟩ := out
  by_cases hhalted : sys.halted world = true
  · simpa [hhalted] using hresolve
  · cases answer with
    | error err =>
      simp only [hhalted, Bool.false_eq_true, if_false]
      exact hresolve
    | ok r =>
      simp only [hhalted, Bool.false_eq_true, if_false]
      rcases e.table.repoint_cases id r with heq | ⟨-, -, heq⟩ <;> rw [Engine.repoint, heq]
      · exact hresolve
      · exact h.sync _ (e := { e with world, table := e.table.repointed id r }) hresolve

lemma handle (h : sys.Keeps P) (event : Event) (notified : List Path) (id : TargetId) (he : P e.world) :
    P (Engine.handle sys event (notified, e) id).2.world := by
  rcases Engine.handle_cases sys event notified id e with heq | heq | heq <;> rw [heq]
  · exact he
  · exact h.refresh id he
  · rw [Engine.world_notify]
    exact h.refresh id he

/-- What each question keeps, handling a batch keeps. -/
theorem process (h : sys.Keeps P) (batch : List Event) (he : P e.world) : P (e.process sys batch).world :=
  Engine.process_preserves (P := fun e => P e.world) (fun _ _ he => he)
    (fun event notified id _ _ _ _ he => h.handle event notified id he) (fun e he => h.overdue e.world he) batch he

end System.Keeps

end LinkWatch
