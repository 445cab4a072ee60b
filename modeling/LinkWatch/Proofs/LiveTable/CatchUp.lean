import LinkWatch.Proofs.LiveTable.Invariant

/-!
What a watcher misses in a tree that changes, and what it does not. Once everything is handled, a target leads where its
path resolves to if nothing of it is accounted as missed, and only then (`Reached.current_iff`).

Something can be missed: a link can change between its reading and the watch of its directory, an event of it can be
handled between its reading and the noting of the target, and a target whose resolution failed stays where it was
(`updates_lost`).
-/

namespace LinkWatch.LiveTable

open Engine (Unrefused)
open Scripted (Source)

variable {σ : Type} {native : NativeWatches σ} {source : σ → Source} {v : LiveTable σ}

/-! ### At rest -/

/-- What registrations, events and changes of the tree can lead to. -/
def Reached (native : NativeWatches σ) (source : σ → Source) (v : LiveTable σ) : Prop :=
  ∃ v₀ : LiveTable σ, Fresh source v₀ ∧ Leads native source v₀ v

/-- The target leads where its path resolves to. -/
def Current (v : LiveTable σ) (id : TargetId) : Prop :=
  ∃ r, v.tree.resolve (v.engine.table.target id).requested = .ok r ∧
    (v.engine.table.target id).resolution.same r = true

/-- **What is lost, and what is not.** However registrations, events and changes of links come between each other, once
all events are handled and all calls have returned, and if no watch was refused, a registered target leads where its
path resolves to now exactly if none of its links is accounted as missed. A link is so if it came to point elsewhere
untold while it had been read and the target did not say so yet, or while a call owed the target a look at its
directory, or if the target could not be resolved anew; and only until it points there again or is told or read. -/
theorem Reached.current_iff (h : v.Reached native source) (hx : Exclusive native source) (hrest : v.AtRest)
    (hno : Unrefused v.engine) {id : TargetId} (hid : id ∈ v.engine.table.targets) :
    v.Current id ↔ ∀ link, (id, link) ∉ v.astray := by
  obtain ⟨v₀, hfresh, hleads⟩ := h
  have hwatchful := hfresh.watchful.leads hx hleads hno
  have hlt := (hwatchful.reachable.settled.active hid).1
  have hretraced := hwatchful.retraced id hlt
  refine (hretraced.resolves_iff (hwatchful.rooted id hlt)).trans ⟨fun hstands x hmissed => ?_, fun hnone x hhop => ?_⟩
  · obtain ⟨hsound, hlost, y, hy, hsame⟩ := hwatchful.reckoned.missed (id, x) hmissed hid
    have hfallen := (lost_iff.mp hlost).1
    rw [hsound.stands_congr (hretraced.sound y hy) hsame, hstands y hy] at hfallen
    cases hfallen
  · by_contra hfallen
    rw [Bool.not_eq_true] at hfallen
    have hlost : x.lost v.tree v.queue = true := lost_iff.mpr ⟨hfallen, by simp [hrest.queue]⟩
    -- nothing waits any more and nothing is being handled, so it is accounted for
    rcases hwatchful.reckoned.told id hid (by simp [hrest.loop, Duty.renewals]) x hhop hlost with
      ⟨event, hdue, -⟩ | ⟨y, hy, rfl, -⟩
    · rw [hrest.loop] at hdue
      cases hdue
    · exact hnone y.2 hy

/-! ### Runs in small trees -/

/-- A tree of links and directories, and entries that cannot be inspected. -/
def drawn (links : List (Path × Path)) (dirs barred : List Path) : Snapshot where
  entryKind p :=
    if links.any (·.1.same p) then .ok .symlink
    else if dirs.any (·.same p) then .ok .dir
    else if barred.any (·.same p) then .error (.plain .permissionDenied)
    else .error (.os .noEntry)
  readLink p := ((links.find? (·.1.same p)).map fun x => .ok x.2).getD (.error (.os .invalid))
  currentDir := .ok .root

/-- Nothing is watched yet. -/
def begun (f : Snapshot) : LiveTable Scripted.World where
  engine := { dispatcher := { workers := [{}] }, world := {} }
  tree := f

/-- Where steps in the tree lead. -/
def after (f : Snapshot) (moves : List WatchStep) : Option (LiveTable Scripted.World) :=
  (begun f).run Scripted.World.system.toNativeWatches Scripted.World.source moves

/-- Everything is handled, and no watch was refused. -/
def ended (v : LiveTable σ) : Bool :=
  v.queue.isEmpty && (match v.loop with | .idle => true | _ => false) &&
    (v.callers.all fun | .returned => true | _ => false) &&
    v.engine.effects.all fun | .watch _ (.error _) => false | _ => true

lemma atRest_of_ended (h : v.ended = true) : v.AtRest ∧ Unrefused v.engine := by
  simp only [ended, Bool.and_eq_true] at h
  obtain ⟨⟨⟨hqueue, hloop⟩, hcallers⟩, heffects⟩ := h
  refine ⟨⟨List.isEmpty_iff.mp hqueue, ?_, fun c hc => ?_⟩, Engine.unrefused_of_all heffects⟩
  · cases hv : v.loop with
    | idle => rfl
    | sorting | resolving | arming =>
      rw [hv] at hloop
      cases hloop
  · have hreturned := List.all_eq_true.mp hcallers c hc
    cases c with
    | returned => rfl
    | resolving | arming => cases hreturned

lemma reached_after {f : Snapshot} {moves : List WatchStep} {v : LiveTable Scripted.World}
    (hf : ∀ d, f.currentDir = .ok d → d.isRooted = true) (h : after f moves = some v) :
    v.Reached Scripted.World.system.toNativeWatches Scripted.World.source :=
  ⟨begun f, ⟨rfl, rfl, hf, rfl, rfl, rfl⟩, .of_run h⟩

lemma grounded_drawn (links : List (Path × Path)) (dirs barred : List Path) :
    ∀ d, (drawn links dirs barred).currentDir = .ok d → d.isRooted = true := by
  intro d hd
  obtain rfl : Path.root = d := Except.ok.inj hd
  exact Path.isRooted_root

/-- `/l` -/
def linkL : Path := ⟨[0x2f, 0x6c]⟩

/-- `/l/x` -/
def fileX : Path := ⟨[0x2f, 0x6c, 0x2f, 0x78]⟩

/-- After the steps everything is handled, these targets are registered, and this is what they have missed. -/
lemma exists_after (links : List (Path × Path)) (moves : List WatchStep) (targets : List TargetId)
    (astray : List (TargetId × Hop)) (h : ((after (drawn links [] []) moves).any fun v =>
      v.ended && v.engine.table.targets == targets && v.astray == astray) = true) :
    ∃ v, after (drawn links [] []) moves = some v ∧
      v.Reached Scripted.World.system.toNativeWatches Scripted.World.source ∧ v.AtRest ∧ Unrefused v.engine ∧
      v.engine.table.targets = targets ∧ v.astray = astray := by
  obtain ⟨v, hv, htest⟩ := (Option.any_eq_true _ _).mp h
  rw [Bool.and_eq_true, Bool.and_eq_true, beq_iff_eq, beq_iff_eq] at htest
  obtain ⟨⟨hended, htargets⟩, hastray⟩ := htest
  obtain ⟨hrest, hno⟩ := atRest_of_ended hended
  exact ⟨v, hv, reached_after (grounded_drawn _ _ _) hv, hrest, hno, htargets, hastray⟩

/-- `/l` is watched, and `/l/x` is being: its directories are still to be brought in line. Then `/l`, which pointed to
`a`, comes to point to `b`, and the loop takes the event, while the second registration goes on. -/
def betweenTimes : List WatchStep :=
  .ask linkL :: List.replicate 8 (.caller 0) ++ .ask fileX :: List.replicate 7 (.caller 1) ++
    .retarget linkL ⟨[0x62]⟩ :: List.replicate 10 .loop ++ .caller 1 :: List.replicate 13 .loop ++
    List.replicate 2 (.caller 1)

/-- `/l` comes to point to `b` after it was read and before its directory is watched. -/
def beforeArmed : List WatchStep :=
  .ask linkL :: List.replicate 3 (.caller 0) ++ .retarget linkL ⟨[0x62]⟩ :: List.replicate 5 (.caller 0)

/-- `/l` comes to point to `b` and to `a` again after it was read and before its directory is watched. -/
def setBack : List WatchStep :=
  .ask linkL :: List.replicate 3 (.caller 0) ++ .retarget linkL ⟨[0x62]⟩ :: .caller 0 ::
    .retarget linkL ⟨[0x61]⟩ :: List.replicate 4 (.caller 0)

/-- `/l` as it points to `a`. -/
def hopL : Hop := ⟨linkL, .root, [0x6c], ⟨[0x61]⟩⟩

/-- Both targets follow the link, and a target whose link is set back in time has missed nothing; but one whose link
changed before its directory was watched stays behind. -/
theorem current_iff_betweenTimes :
    (∃ v, after (drawn [(linkL, ⟨[0x61]⟩)] [] []) betweenTimes = some v ∧ v.engine.table.targets = [0, 1] ∧
      v.astray = [] ∧ v.Current 0 ∧ v.Current 1) ∧
    (∃ v, after (drawn [(linkL, ⟨[0x61]⟩)] [] []) setBack = some v ∧ v.engine.table.targets = [0] ∧ v.astray = [] ∧
      v.Current 0) ∧
    ∃ v, after (drawn [(linkL, ⟨[0x61]⟩)] [] []) beforeArmed = some v ∧ v.engine.table.targets = [0] ∧
      v.astray = [(0, hopL)] ∧ ¬ v.Current 0 := by
  refine ⟨?_, ?_, ?_⟩
  · obtain ⟨v, hv, hreached, hrest, hno, htargets, hastray⟩ :=
      exists_after [(linkL, ⟨[0x61]⟩)] betweenTimes [0, 1] [] (by decide +kernel)
    have hfollows : ∀ id ∈ [0, 1], v.Current id := fun id hid =>
      (hreached.current_iff exclusive_world hrest hno (htargets ▸ hid)).mpr (by simp [hastray])
    exact ⟨v, hv, htargets, hastray, hfollows 0 (by simp), hfollows 1 (by simp)⟩
  · obtain ⟨v, hv, hreached, hrest, hno, htargets, hastray⟩ :=
      exists_after [(linkL, ⟨[0x61]⟩)] setBack [0] [] (by decide +kernel)
    have hcurrent : v.Current 0 ↔ _ := hreached.current_iff exclusive_world hrest hno (by simp [htargets])
    exact ⟨v, hv, htargets, hastray, hcurrent.mpr (by simp [hastray])⟩
  · obtain ⟨v, hv, hreached, hrest, hno, htargets, hastray⟩ :=
      exists_after [(linkL, ⟨[0x61]⟩)] beforeArmed [0] [(0, hopL)] (by decide +kernel)
    have hcurrent : v.Current 0 ↔ _ := hreached.current_iff exclusive_world hrest hno (by simp [htargets])
    refine ⟨v, hv, htargets, hastray, fun hfollows => ?_⟩
    exact hcurrent.mp hfollows hopL (by simp [hastray])

/-- The target leads elsewhere than its path resolves to. -/
def misled (v : LiveTable σ) (id : TargetId) : Bool :=
  match v.tree.resolve (v.engine.table.target id).requested with
  | .ok r => !(v.engine.table.target id).resolution.same r
  | .error _ => false

lemma not_current_of_misled {id : TargetId} (h : v.misled id = true) : ¬ v.Current id := by
  rintro ⟨r, hr, hsame⟩
  rw [misled, hr] at h
  simp [hsame] at h

/-- A run after which everything is handled, no watch was refused, and a target leads elsewhere than its path resolves
to. -/
def Loses (f : Snapshot) (moves : List WatchStep) (id : TargetId) : Prop :=
  ∃ v, after f moves = some v ∧ v.AtRest ∧ Unrefused v.engine ∧ id ∈ v.engine.table.targets ∧ ¬ v.Current id

lemma loses_of_any {f : Snapshot} {moves : List WatchStep} {id : TargetId} (h : ((after f moves).any fun v =>
    v.ended && v.engine.table.targets.contains id && v.misled id) = true) : Loses f moves id := by
  obtain ⟨v, hv, htest⟩ := (Option.any_eq_true _ _).mp h
  rw [Bool.and_eq_true, Bool.and_eq_true, List.contains_iff_mem] at htest
  obtain ⟨⟨hended, hid⟩, hmisled⟩ := htest
  obtain ⟨hrest, hno⟩ := atRest_of_ended hended
  exact ⟨v, hv, hrest, hno, hid, not_current_of_misled hmisled⟩

/-- `/l` is watched. It comes to point to `b` after the registration of `/l/x` has read it, and the loop handles the
event before that registration notes its target. -/
def beforeNoted : List WatchStep :=
  .ask linkL :: List.replicate 8 (.caller 0) ++ .ask fileX :: List.replicate 6 (.caller 1) ++
    .retarget linkL ⟨[0x62]⟩ :: List.replicate 11 .loop ++ List.replicate 4 (.caller 1)

/-- `/l` is watched and comes to point to `n/k`, a link to an entry that cannot be inspected. The target stays as it is,
and `/n` is not watched. Then `/n/k` comes to point to `b`. -/
def afterFailure : List WatchStep :=
  .ask linkL :: List.replicate 8 (.caller 0) ++ .retarget linkL ⟨[0x6e, 0x2f, 0x6b]⟩ :: List.replicate 11 .loop ++
    [.retarget ⟨[0x2f, 0x6e, 0x2f, 0x6b]⟩ ⟨[0x62]⟩]

/-- There is a window between the reading of a link and the watch of its directory, and another one between the reading
and the noting of the target; and a failed resolution leaves a target where it was. So not all targets follow. -/
theorem updates_lost :
    (¬ ∀ v : LiveTable Scripted.World, v.Reached Scripted.World.system.toNativeWatches Scripted.World.source →
      v.AtRest → Unrefused v.engine → ∀ id ∈ v.engine.table.targets, v.Current id) ∧
    Loses (drawn [(linkL, ⟨[0x61]⟩)] [] []) beforeArmed 0 ∧
    Loses (drawn [(linkL, ⟨[0x61]⟩)] [] []) beforeNoted 1 ∧
    Loses (drawn [(linkL, ⟨[0x61]⟩), (⟨[0x2f, 0x6e, 0x2f, 0x6b]⟩, ⟨[0x79]⟩)] [⟨[0x2f, 0x6e]⟩]
      [⟨[0x2f, 0x6e, 0x2f, 0x79]⟩]) afterFailure 0 := by
  have harmed : Loses (drawn [(linkL, ⟨[0x61]⟩)] [] []) beforeArmed 0 := loses_of_any (by decide +kernel)
  refine ⟨fun hall => ?_, harmed, loses_of_any (by decide +kernel), loses_of_any (by decide +kernel)⟩
  obtain ⟨v, hv, hrest, hno, hid, hmisled⟩ := harmed
  exact hmisled (hall v (reached_after (grounded_drawn _ _ _) hv) hrest hno 0 hid)

end LinkWatch.LiveTable
