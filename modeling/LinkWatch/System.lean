import LinkWatch.Filesystem

/-!
The system around the watcher: the directory tree, the native watches, and the clock as far as a drain
deadline goes. Answers may depend on a state and change it.
-/

namespace LinkWatch

/-- Requests for native watches of directories. -/
structure NativeWatches (σ : Type) where
  watch : Path → σ → Except WatchError Unit × σ
  unwatch : Path → σ → Except WatchError Unit × σ

structure System (σ : Type) extends Filesystem σ, NativeWatches σ where
  /-- An accepted drain request has run out of time. -/
  overdue : σ → Bool × σ := fun s => (false, s)
  /-- The thread that asked last has died of the answer. -/
  halted : σ → Bool := fun _ => false

end LinkWatch
