import LinkWatch.Proofs.LiveTable.Basic

/-!
Calls that nobody disturbs. Whoever takes all its steps without others between does what is done in one go: a
registration is `register` (`exists_register`), and a renewal is `repoint` (`exists_renewal`).
-/

namespace LinkWatch.LiveTable

open Resolution (Stage Place)
open Scripted (Source)

variable {σ : Type} {native : NativeWatches σ} {source : σ → Source} {v v' : LiveTable σ}

section Alone

variable {m : WatchStep}

/-- One and the same party takes steps. -/
lemma run_replicate_succ (k : Nat) : v.run native source (List.replicate (k + 1) m) =
    (v.step native source m).bind fun u => u.run native source (List.replicate k m) := run_cons ..

lemma run_replicate_one {u : LiveTable σ} (hstep : v.step native source m = some u) :
    v.run native source (List.replicate 1 m) = some u := by
  rw [run_replicate_succ, hstep]
  rfl

lemma run_replicate_add {j k : Nat} {u : LiveTable σ} (hj : v.run native source (List.replicate j m) = some u) :
    v.run native source (List.replicate (j + k) m) = u.run native source (List.replicate k m) := by
  rw [run] at hj
  rw [run, List.replicate_add, List.foldlM_append, hj]
  rfl

/-- Whoever walks on undisturbed comes to where the walk leads in the tree as it stands. -/
lemma exists_walk {f : Snapshot} {asked : Path} {put : Stage → LiveTable σ}
    (hput : ∀ st, (∀ out, st ≠ .ended out) → (put st).step native source m = some (put (st.ask f asked)))
    (st : Stage) : ∃ k, (put st).run native source (List.replicate k m) = some (put (.ended (st.outcome f asked))) := by
  obtain ⟨k, hk⟩ := Stage.exists_iterate_ask f asked st
  generalize st.outcome f asked = out at hk
  induction k generalizing st with
  | zero =>
    obtain rfl : st = .ended out := hk
    exact ⟨0, rfl⟩
  | succ k ih =>
    by_cases hover : ∃ out, st = .ended out
    · -- the walk had ended before
      obtain ⟨out', rfl⟩ := hover
      exact ih _ hk
    · obtain ⟨j, hj⟩ := ih _ hk
      refine ⟨j + 1, ?_⟩
      rw [run_replicate_succ, hput st fun out hst => hover ⟨out, hst⟩]
      exact hj

/-- Whoever brings directories in line undisturbed does what `sync` does. -/
lemma run_arming {put : Engine σ → List Path → LiveTable σ}
    (hput : ∀ e d dirs, (put e (d :: dirs)).step native source m = some (put (e.syncOne native d) dirs))
    (dirs : List Path) (e : Engine σ) :
    (put e dirs).run native source (List.replicate dirs.length m) = some (put (e.sync native dirs) []) := by
  induction dirs generalizing e with
  | nil => rfl
  | cons d dirs ih =>
    rw [List.length_cons, run_replicate_succ, hput]
    exact ih (e.syncOne native d)

lemma getElem?_set {callers : List Caller} {i : Nat} {c₀ : Caller} (hi : callers[i]? = some c₀) (c : Caller) :
    (callers.set i c)[i]? = some c := by
  have hlt : i < callers.length := (List.getElem?_eq_some_iff.mp hi).1
  rw [List.getElem?_set_self hlt]

lemma set_self {callers : List Caller} {i : Nat} {c : Caller} (hi : callers[i]? = some c) :
    callers.set i c = callers := by
  obtain ⟨hlt, hget⟩ := List.getElem?_eq_some_iff.mp hi
  rw [← hget]
  exact List.set_getElem_self hlt

end Alone

/-- A caller that walks undisturbed. -/
lemma exists_walked (native : NativeWatches σ) (source : σ → Source) {i : Nat} {asked : Path}
    (hi : v.callers[i]? = some (.resolving (.start asked))) :
    ∃ k, v.run native source (List.replicate k (.caller i)) = some
      { v with
        callers := v.callers.set i
          (.resolving ⟨asked, .ended ((Stage.start asked).outcome v.tree asked.tidy), []⟩) } := by
  let walking (st : Stage) : LiveTable σ := { v with callers := v.callers.set i (.resolving ⟨asked, st, []⟩) }
  have hstart : walking (.start asked) = v := by
    show { v with callers := v.callers.set i (.resolving (.start asked)) } = v
    rw [set_self hi]
  have hwalk : ∀ st, (∀ out, st ≠ .ended out) →
      (walking st).step native source (.caller i) = some (walking (st.ask v.tree asked.tidy)) := by
    intro st hst
    have hcaller : (walking st).callers[i]? = some (.resolving ⟨asked, st, []⟩) := getElem?_set hi _
    have hset : ∀ c, (walking st).callers.set i c = v.callers.set i c := fun c => List.set_set ..
    show (walking st).advance native i = _
    unfold advance
    rw [hcaller]
    cases st with
    | ended out => exact absurd rfl (hst out)
    | going n left w =>
      dsimp only
      rw [hset]
      rfl
    | reading n c left w =>
      dsimp only
      rw [hset]
      rfl
  obtain ⟨k, hk⟩ := exists_walk hwalk (.start asked)
  rw [hstart] at hk
  exact ⟨k, hk⟩

/-- A caller that brings directories in line undisturbed. -/
lemma run_armed (native : NativeWatches σ) (source : σ → Source) {i : Nat} {id : TargetId} {dirs : List Path}
    (hi : v.callers[i]? = some (.arming id dirs)) :
    v.run native source (List.replicate (dirs.length + 1) (.caller i)) = some
      { v with
        engine := (v.engine.sync native dirs).say
          (Engine.targetRecord "watch target registered" (v.engine.table.target id).requested)
        callers := v.callers.set i .returned } := by
  let arming (e : Engine σ) (ds : List Path) : LiveTable σ :=
    { v with engine := e, callers := v.callers.set i (.arming id ds) }
  have hcaller : ∀ e ds, (arming e ds).callers[i]? = some (.arming id ds) := fun e ds => getElem?_set hi _
  have hset : ∀ e ds c, (arming e ds).callers.set i c = v.callers.set i c := fun e ds c => List.set_set ..
  have hstart : arming v.engine dirs = v := by
    show { v with callers := v.callers.set i (.arming id dirs) } = v
    rw [set_self hi]
  have harm : ∀ e d ds,
      (arming e (d :: ds)).step native source (.caller i) = some (arming (e.syncOne native d) ds) := by
    intro e d ds
    show (arming e (d :: ds)).advance native i = _
    unfold advance
    rw [hcaller]
    dsimp only
    rw [hset]
  have hlast : (arming (v.engine.sync native dirs) []).step native source (.caller i) = some
      { v with
        engine := (v.engine.sync native dirs).say
          (Engine.targetRecord "watch target registered" (v.engine.table.target id).requested)
        callers := v.callers.set i .returned } := by
    show (arming (v.engine.sync native dirs) []).advance native i = _
    unfold advance
    rw [hcaller]
    dsimp only
    rw [hset, ← ((Engine.alike_sync native dirs v.engine).target id).1]
  have hrun := run_arming harm dirs v.engine
  rw [hstart] at hrun
  rw [run_replicate_add hrun, run_replicate_succ, hlast]
  rfl

/-- A registration that nobody disturbs resolves its path, and registers it as `register` does. -/
theorem exists_register (native : NativeWatches σ) (source : σ → Source) {i : Nat} {asked : Path}
    (hi : v.callers[i]? = some (.resolving (.start asked))) (hp : asked.isRooted = true)
    (hfree : v.engine.table.find? asked = none) :
    ∃ k v', v.run native source (List.replicate k (.caller i)) = some v' ∧
      v'.callers = v.callers.set i .returned ∧
      v'.engine = match v.tree.resolve asked with
        | .ok r => (v.engine.register native asked r).2
        | .error _ => v.engine := by
  obtain ⟨k, hk⟩ := exists_walked native source hi
  rw [Stage.resolve_eq_outcome v.tree hp]
  generalize (Stage.start asked).outcome v.tree asked.tidy = out at hk ⊢
  let walked : LiveTable σ := { v with callers := v.callers.set i (.resolving ⟨asked, .ended out, []⟩) }
  have hcaller : walked.callers[i]? = some (.resolving ⟨asked, .ended out, []⟩) := getElem?_set hi _
  have hset : ∀ c, walked.callers.set i c = v.callers.set i c := fun c => List.set_set ..
  cases out with
  | error err =>
    refine ⟨k + 1, { v with callers := v.callers.set i .returned }, ?_, rfl, rfl⟩
    rw [run_replicate_add hk, run_replicate_succ]
    show (walked.advance native i).bind _ = _
    unfold advance
    rw [hcaller]
    dsimp only
    rw [hset]
    rfl
  | ok place =>
    let r := place.resolution
    let id := v.engine.table.created.length
    let entered : LiveTable σ :=
      { v with
        engine := joined asked r v.engine
        callers := v.callers.set i (.arming id r.directories)
        astray := v.miss id [] }
    have hjoin : walked.step native source (.caller i) = some entered := by
      show walked.advance native i = _
      unfold advance
      rw [hcaller]
      dsimp only
      rw [show walked.engine.enroll asked place.resolution = _ from enroll_of_none hfree]
      dsimp only
      rw [hset]
      rfl
    have htarget : entered.engine.table.target id = { requested := asked, resolution := r } :=
      Table.target_entered_new ..
    have hlast := run_armed native source (v := entered) (getElem?_set hi _)
    rw [htarget] at hlast
    have hregister : (v.engine.register native asked r).2 =
        (entered.engine.sync native r.directories).say (Engine.targetRecord "watch target registered" asked) := by
      rw [Engine.register, enroll_of_none hfree]
      rfl
    refine ⟨k + (r.directories.length + 1 + 1),
      { entered with
        engine := (v.engine.register native asked r).2
        callers := entered.callers.set i .returned }, ?_, List.set_set .., rfl⟩
    rw [run_replicate_add hk, run_replicate_succ, hjoin, hregister]
    exact hlast

/-- The loop resolves undisturbed. -/
lemma exists_rewalked (native : NativeWatches σ) (source : σ → Source) {event : Event} {id : TargetId}
    {ids : List TargetId} {asked : Path} (hloop : v.loop = .resolving event ids id (.start asked)) :
    ∃ k, v.run native source (List.replicate k .loop) = some
      { v with
        loop := .resolving event ids id
          ⟨asked, .ended ((Stage.start asked).outcome v.tree asked.tidy), []⟩ } := by
  let walking (st : Stage) : LiveTable σ := { v with loop := .resolving event ids id ⟨asked, st, []⟩ }
  have hstart : walking (.start asked) = v := by
    show { v with loop := .resolving event ids id (.start asked) } = v
    rw [← hloop]
  have hwalk : ∀ st, (∀ out, st ≠ .ended out) →
      (walking st).step native source .loop = some (walking (st.ask v.tree asked.tidy)) := by
    intro st hst
    cases st with
    | ended out => exact absurd rfl (hst out)
    | going n left w => rfl
    | reading n c left w => rfl
  obtain ⟨k, hk⟩ := exists_walk hwalk (.start asked)
  rw [hstart] at hk
  exact ⟨k, hk⟩

/-- The loop brings directories in line undisturbed. -/
lemma run_rearmed (native : NativeWatches σ) (source : σ → Source) {event : Event} {id : TargetId}
    {ids : List TargetId} {dirs : List Path} (hloop : v.loop = .arming event ids id dirs) :
    v.run native source (List.replicate (dirs.length + 1) .loop) = some
      { v with engine := v.engine.sync native dirs, loop := .sorting event ids } := by
  let arming (e : Engine σ) (ds : List Path) : LiveTable σ := { v with engine := e, loop := .arming event ids id ds }
  have hstart : arming v.engine dirs = v := by
    show { v with loop := .arming event ids id dirs } = v
    rw [← hloop]
  have harm : ∀ e d ds, (arming e (d :: ds)).step native source .loop = some (arming (e.syncOne native d) ds) :=
    fun _ _ _ => rfl
  have hrun := run_arming harm dirs v.engine
  rw [hstart] at hrun
  rw [run_replicate_add hrun]
  rfl

/-- What the loop does, undisturbed, with a resolution that has come to its end. -/
lemma exists_repointed (native : NativeWatches σ) (source : σ → Source) {event : Event} {id : TargetId}
    {ids : List TargetId} {asked : Path} {out : Except WatchError Place}
    (hloop : v.loop = .resolving event ids id ⟨asked, .ended out, []⟩) :
    ∃ k v', v.run native source (List.replicate k .loop) = some v' ∧ v'.loop = .sorting event ids ∧
      v'.engine = match out.map Place.resolution with
        | .ok r => (v.engine.repoint native id r).2
        | .error _ => v.engine := by
  cases out with
  | error err =>
    have hfail : v.step native source .loop = some
        { v with loop := .sorting event ids, astray := v.miss id (v.lostHops id) } := by
      show v.turn native = _
      unfold turn
      rw [hloop]
    exact ⟨1, _, run_replicate_one hfail, rfl, rfl⟩
  | ok place =>
    by_cases hsame : (v.engine.table.target id).retired = true ∨
        (v.engine.table.target id).resolution.same place.resolution = true
    · have hkept := Table.repoint_of_unchanged hsame
      have hconfirm : v.step native source .loop = some
          { v with loop := .sorting event ids, astray := v.miss id [] } := by
        show v.turn native = _
        unfold turn
        rw [hloop]
        dsimp only
        rw [hkept]
      refine ⟨1, _, run_replicate_one hconfirm, rfl, ?_⟩
      show v.engine = (v.engine.repoint native id place.resolution).2
      rw [Engine.repoint, hkept]
    · obtain ⟨hact, hne⟩ := not_or.mp hsame
      rw [Bool.not_eq_true] at hact hne
      obtain ⟨dirs, hdirs⟩ : ∃ dirs, v.engine.table.repoint id place.resolution =
          (some ((v.engine.table.target id).resolution, dirs), v.engine.table.repointed id place.resolution) :=
        ⟨_, Table.repoint_of_changed hact hne⟩
      let turned : LiveTable σ :=
        { v with
          engine := { v.engine with table := v.engine.table.repointed id place.resolution }
          loop := .arming event ids id dirs
          astray := v.miss id [] }
      have hturn : v.step native source .loop = some turned := by
        show v.turn native = _
        unfold turn
        rw [hloop]
        dsimp only
        rw [hdirs]
      have hlast := run_rearmed native source (v := turned) rfl
      refine ⟨1 + (dirs.length + 1), _, (run_replicate_add (run_replicate_one hturn)).trans hlast, rfl, ?_⟩
      show turned.engine.sync native dirs = (v.engine.repoint native id place.resolution).2
      rw [Engine.repoint, hdirs]

/-- A target that an event concerns is resolved anew, and re-pointed as `repoint` does, if nobody disturbs the loop. -/
theorem exists_renewal (native : NativeWatches σ) (source : σ → Source) {event : Event} {id : TargetId}
    {ids : List TargetId} (hloop : v.loop = .sorting event (id :: ids))
    (hp : (v.engine.table.target id).requested.isRooted = true)
    (hmatch : (v.engine.table.target id).resolution.classify event.entry.dir event.entry.name ≠ .none) :
    ∃ k v', v.run native source (List.replicate k .loop) = some v' ∧ v'.loop = .sorting event ids ∧
      v'.engine = match v.tree.resolve (v.engine.table.target id).requested with
        | .ok r => (v.engine.repoint native id r).2
        | .error _ => v.engine := by
  let begun : LiveTable σ :=
    { v with loop := .resolving event ids id (.start (v.engine.table.target id).requested) }
  have hbegin : v.step native source .loop = some begun := by
    show v.turn native = _
    unfold turn
    rw [hloop]
    exact if_neg hmatch
  obtain ⟨j, hwalk⟩ := exists_rewalked native source (v := begun) rfl
  obtain ⟨k, v', hrun, hsorting, hengine⟩ := exists_repointed native source
    (v := { begun with loop := .resolving event ids id ⟨_, .ended _, []⟩ }) rfl
  refine ⟨j + k + 1, v', ?_, hsorting, ?_⟩
  · rw [run_replicate_succ, hbegin, Option.bind_some, run_replicate_add hwalk]
    exact hrun
  · rw [Stage.resolve_eq_outcome v.tree hp]
    exact hengine

end LinkWatch.LiveTable
