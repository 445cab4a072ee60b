import LinkWatch.Proofs.Engine.Reachable
import LinkWatch.Proofs.Walk.Run

/-!
What a batch does to one target. While the tree stays as it is and nothing runs out of time, each registered
target goes its own way through a batch: `react` is what one event does to it, and a batch does what its events do
one after the other (`runEvents_course`), whatever happens to the other targets.
-/

namespace LinkWatch

/-- A system whose tree stays as it is, where no drain request runs out of time and nobody dies of an answer. -/
structure System.Steady {σ : Type} (sys : System σ) (f : Snapshot) : Prop where
  answers : sys.toFilesystem.Answers f
  onTime : ∀ s, (sys.overdue s).1 = false
  alive : ∀ s, sys.halted s = false

namespace Engine

open Table (Alike)

/-! ### One target, one event -/

/-- Where a target leads, and whether the batch has notified it. -/
structure Course where
  resolution : Resolution
  told : Bool

/-- Where a target leads after it is resolved anew. -/
def renewed (f : Snapshot) (p : Path) (r : Resolution) : Resolution :=
  match f.resolve p with
  | .ok r' => if r.same r' then r else r'
  | .error _ => r

/-- The previous resolution of a target that is resolved anew, if it changes. -/
def replaced (f : Snapshot) (p : Path) (r : Resolution) : Option Resolution :=
  match f.resolve p with
  | .ok r' => if r.same r' then none else some r
  | .error _ => none

/-- What an event does to a target requested as `p`. -/
def react (f : Snapshot) (p : Path) (c : Course) (event : Event) : Course :=
  match c.resolution.classify event.entry.dir event.entry.name with
  | .none => c
  | m => ⟨renewed f p c.resolution, c.told || notifies m (replaced f p c.resolution)⟩

lemma react_of_none {f : Snapshot} {p : Path} {c : Course} {event : Event}
    (h : c.resolution.classify event.entry.dir event.entry.name = .none) : react f p c event = c := by
  rw [react, h]

lemma react_of_ne_none {f : Snapshot} {p : Path} {c : Course} {event : Event}
    (h : c.resolution.classify event.entry.dir event.entry.name ≠ .none) :
    react f p c event = ⟨renewed f p c.resolution, c.told ||
      notifies (c.resolution.classify event.entry.dir event.entry.name) (replaced f p c.resolution)⟩ := by
  unfold react
  split
  · exact absurd ‹_› h
  · rfl

/-! ### Tables with the same targets -/

/-- The targets are the same, and lead where `lead` says. -/
structure Led (t t' : Table) (lead : TargetId → Resolution) : Prop where
  length : t'.created.length = t.created.length
  registered : t'.registered = t.registered
  requested : ∀ id, (t'.target id).requested = (t.target id).requested
  retired : ∀ id, (t'.target id).retired = (t.target id).retired
  resolution : ∀ id, (t'.target id).resolution = lead id

variable {σ : Type} {sys : System σ} {f : Snapshot} {e : Engine σ} {t t' t'' : Table} {id : TargetId}

lemma led_refl (t : Table) : Led t t fun j => (t.target j).resolution :=
  ⟨rfl, rfl, fun _ => rfl, fun _ => rfl, fun _ => rfl⟩

lemma Led.trans {lead lead' : TargetId → Resolution} (h : Led t t' lead) (h' : Led t' t'' lead') :
    Led t t'' lead' where
  length := h'.length.trans h.length
  registered := h'.registered.trans h.registered
  requested j := (h'.requested j).trans (h.requested j)
  retired j := (h'.retired j).trans (h.retired j)
  resolution := h'.resolution

lemma Led.alike {lead : TargetId → Resolution} (h : Led t t' lead) (ha : Alike t' t'') : Led t t'' lead where
  length := ha.length.trans h.length
  registered := ha.registered.trans h.registered
  requested j := (ha.target j).1.trans (h.requested j)
  retired j := (ha.target j).2.2.trans (h.retired j)
  resolution j := (ha.target j).2.1.trans (h.resolution j)

lemma Led.congr {lead lead' : TargetId → Resolution} (h : Led t t' lead) (hl : ∀ j, lead j = lead' j) :
    Led t t' lead' := { h with resolution := fun j => (h.resolution j).trans (hl j) }

/-- Where the targets lead after one of them has changed. -/
def change (t : Table) (id : TargetId) (r : Resolution) (j : TargetId) : Resolution :=
  if j = id then r else (t.target j).resolution

lemma led_change_self (t : Table) (id : TargetId) : Led t t (change t id (t.target id).resolution) := by
  refine (led_refl t).congr fun j => ?_
  by_cases hj : j = id <;> simp [change, hj]

lemma led_repointed (hid : id < t.created.length) (r : Resolution) :
    Led t (t.repointed id r) (change t id r) where
  length := Table.length_modify ..
  registered := rfl
  requested j := (Table.frame_repointed t id r j).1
  retired j := (Table.frame_repointed t id r j).2.1
  resolution j := by
    rw [Table.target_repointed t hid, change]
    split <;> rfl

/-! ### A target resolved anew -/

lemma repoint_of_same (native : NativeWatches σ) {r : Resolution} (h : (e.table.target id).resolution.same r = true) :
    e.repoint native id r = (none, e) := by
  rw [repoint, Table.repoint_of_unchanged (Or.inr h)]

lemma repoint_of_ne (native : NativeWatches σ) {r : Resolution} (hact : (e.table.target id).retired = false)
    (h : (e.table.target id).resolution.same r = false) :
    ∃ e', e.repoint native id r = (some (e.table.target id).resolution, e') ∧
      Alike (e.table.repointed id r) e'.table := by
  rw [repoint, Table.repoint_of_changed hact h]
  exact ⟨_, rfl, alike_sync native _ { e with table := e.table.repointed id r }⟩

/-- Resolving a target anew changes this target alone. -/
theorem refresh_steady (hs : sys.Steady f) (hid : id < e.table.created.length)
    (hact : (e.table.target id).retired = false) :
    (e.refresh sys id).1 = replaced f (e.table.target id).requested (e.table.target id).resolution ∧
      Led e.table (e.refresh sys id).2.table
        (change e.table id (renewed f (e.table.target id).requested (e.table.target id).resolution)) := by
  have hans := Resolution.resolve_eq hs.answers (e.table.target id).requested e.world
  unfold refresh renewed replaced
  dsimp only
  generalize resolve sys.toFilesystem (e.table.target id).requested e.world = out at hans
  obtain ⟨answer, world⟩ := out
  dsimp only at hans
  subst hans
  simp only [hs.alive world, Bool.false_eq_true, if_false]
  cases f.resolve (e.table.target id).requested with
  | error err => exact ⟨rfl, led_change_self _ _⟩
  | ok r =>
    dsimp only
    by_cases hsame : (e.table.target id).resolution.same r = true
    · rw [repoint_of_same (e := { e with world }) sys.toNativeWatches hsame]
      simpa only [hsame, if_true] using ⟨trivial, led_change_self e.table id⟩
    · rw [Bool.not_eq_true] at hsame
      obtain ⟨e', he', ha⟩ := repoint_of_ne (e := { e with world }) sys.toNativeWatches hact hsame
      rw [he']
      simpa only [hsame, Bool.false_eq_true, if_false] using ⟨trivial, (led_repointed hid r).alike ha⟩

/-! ### One event -/

/-- The target has been notified in the batch. -/
def toldOf (t : Table) (notified : List Path) (id : TargetId) : Bool := notified.any (t.target id).requested.same

/-- What an event does to a target. -/
def outcome (f : Snapshot) (t : Table) (notified : List Path) (event : Event) (id : TargetId) : Course :=
  react f (t.target id).requested ⟨(t.target id).resolution, toldOf t notified id⟩ event

lemma handle_of_none {event : Event} {notified : List Path}
    (hm : (e.table.target id).resolution.classify event.entry.dir event.entry.name = .none) :
    handle sys event (notified, e) id = (notified, e) := by
  unfold handle
  dsimp only
  rw [hm]
  split <;> rfl

lemma handle_of_ne_none (hs : sys.Steady f) {event : Event} {notified : List Path}
    (hm : (e.table.target id).resolution.classify event.entry.dir event.entry.name ≠ .none) :
    handle sys event (notified, e) id =
      if notifies ((e.table.target id).resolution.classify event.entry.dir event.entry.name) (e.refresh sys id).1 &&
          !toldOf (e.refresh sys id).2.table notified id then
        (notified ++ [((e.refresh sys id).2.table.target id).requested], (e.refresh sys id).2.notify id)
      else (notified, (e.refresh sys id).2) := by
  unfold handle
  dsimp only
  rw [hs.alive, if_neg (by simp)]
  split
  · exact absurd ‹_› hm
  · rw [hs.alive, Bool.false_or, toldOf]
    cases notifies ((e.table.target id).resolution.classify event.entry.dir event.entry.name) (e.refresh sys id).1 <;>
      cases notified.any ((e.refresh sys id).2.table.target id).requested.same <;> rfl

/-- Handling an event for one target. -/
lemma handle_steady (hs : sys.Steady f) (hid : id < e.table.created.length)
    (hact : (e.table.target id).retired = false) (event : Event) (notified : List Path) :
    Led e.table (handle sys event (notified, e) id).2.table
        (change e.table id (outcome f e.table notified event id).resolution) ∧
      (handle sys event (notified, e) id).1 = notified ++
        if (outcome f e.table notified event id).told && !toldOf e.table notified id then
          [(e.table.target id).requested] else [] := by
  obtain ⟨hprev, hled⟩ := refresh_steady hs hid hact
  have hreq := hled.requested id
  have htold : toldOf (e.refresh sys id).2.table notified id = toldOf e.table notified id := by
    rw [toldOf, toldOf, hreq]
  by_cases hm : (e.table.target id).resolution.classify event.entry.dir event.entry.name = .none
  · rw [handle_of_none hm, outcome, react_of_none hm]
    exact ⟨led_change_self _ _, by simp⟩
  · rw [handle_of_ne_none hs hm, outcome, react_of_ne_none hm, htold, hprev, hreq]
    dsimp only
    cases notifies ((e.table.target id).resolution.classify event.entry.dir event.entry.name)
        (replaced f (e.table.target id).requested (e.table.target id).resolution) with
    | false => exact ⟨hled, by simp⟩
    | true =>
      cases toldOf e.table notified id with
      | true => exact ⟨hled, by simp⟩
      | false => exact ⟨hled.alike (alike_notify _ _), by simp⟩

lemma toldOf_append {notified : List Path} {p : Path} :
    toldOf t (notified ++ [p]) id = (toldOf t notified id || (t.target id).requested.same p) := by
  simp [toldOf]

/-- What is left of an event for the targets of other paths is what it was. -/
lemma handle_others (hs : sys.Steady f) (hid : id < e.table.created.length) (hact : (e.table.target id).retired = false)
    (event : Event) (notified : List Path) {j : TargetId} (hne : e.table.pathOf j ≠ e.table.pathOf id) :
    outcome f (handle sys event (notified, e) id).2.table (handle sys event (notified, e) id).1 event j =
        outcome f e.table notified event j ∧
      toldOf (handle sys event (notified, e) id).2.table (handle sys event (notified, e) id).1 j =
        toldOf e.table notified j := by
  obtain ⟨hled, hnot⟩ := handle_steady hs hid hact event notified
  have hj : j ≠ id := by
    rintro rfl
    exact hne rfl
  have htold : toldOf (handle sys event (notified, e) id).2.table (handle sys event (notified, e) id).1 j =
      toldOf e.table notified j := by
    rw [hnot]
    split
    · have hpath : (e.table.target j).requested.same (e.table.target id).requested = false := by
        rw [← Bool.not_eq_true, Path.same_iff]
        exact hne
      rw [toldOf_append, hled.requested, toldOf, toldOf, hled.requested, hpath, Bool.or_false]
    · rw [List.append_nil, toldOf, toldOf, hled.requested]
  refine ⟨?_, htold⟩
  rw [outcome, outcome, htold, hled.requested, hled.resolution, change, if_neg hj]

/-- Handling an event for several targets: each is handled once, as if alone. -/
lemma handleAll_steady (hs : sys.Steady f) (event : Event) {ids : List TargetId} (hnodup : ids.Nodup)
    (hact : ∀ id ∈ ids, id < e.table.created.length ∧ (e.table.target id).retired = false)
    (hdist : ∀ a ∈ ids, ∀ b ∈ ids, e.table.pathOf a = e.table.pathOf b → a = b) (notified : List Path) :
    Led e.table (ids.foldl (handle sys event) (notified, e)).2.table
        (fun j => if j ∈ ids then (outcome f e.table notified event j).resolution else (e.table.target j).resolution) ∧
      (ids.foldl (handle sys event) (notified, e)).1 = notified ++
        (ids.filter fun j => (outcome f e.table notified event j).told && !toldOf e.table notified j).map
          fun j => (e.table.target j).requested := by
  induction ids generalizing e notified with
  | nil => exact ⟨by simpa using led_refl e.table, by simp⟩
  | cons id ids ih =>
    obtain ⟨hid, hids⟩ := List.nodup_cons.mp hnodup
    obtain ⟨hidlt, hidact⟩ := hact id (by simp)
    obtain ⟨hled, hnot⟩ := handle_steady hs hidlt hidact event notified
    have hsame := fun j (hj : j ∈ ids) => handle_others hs hidlt hidact event notified fun hp =>
      hid (hdist j (by simp [hj]) id (by simp) hp ▸ hj)
    rw [List.foldl_cons]
    rcases hstep : handle sys event (notified, e) id with ⟨notified', e'⟩
    rw [hstep] at hled hnot hsame
    dsimp only at hled hnot hsame
    obtain ⟨hled', hnot'⟩ := ih hids
      (fun j hj => by
        rw [hled.length, hled.retired]
        exact hact j (by simp [hj]))
      (fun a ha b hb hab => by
        rw [Table.pathOf, Table.pathOf, hled.requested, hled.requested] at hab
        exact hdist a (by simp [ha]) b (by simp [hb]) hab) notified'
    refine ⟨(hled.trans hled').congr fun j => ?_, ?_⟩
    · by_cases hj : j ∈ ids
      · rw [if_pos hj, if_pos (List.mem_cons_of_mem _ hj), (hsame j hj).1]
      · rw [if_neg hj, hled.resolution, change]
        by_cases he : j = id <;> simp [he, hj, hid]
    · have hfilter : (ids.filter fun j => (outcome f e'.table notified' event j).told && !toldOf e'.table notified' j) =
          ids.filter fun j => (outcome f e.table notified event j).told && !toldOf e.table notified j :=
        List.filter_congr fun j hj => by rw [(hsame j hj).1, (hsame j hj).2]
      have hmap : ∀ js : List TargetId, (js.map fun j => (e'.table.target j).requested) =
          js.map fun j => (e.table.target j).requested := fun js => List.map_congr_left fun j _ => hled.requested j
      rw [hnot', hfilter, hmap, hnot, List.append_assoc, List.filter_cons]
      split <;> simp

/-- **One event.** Every registered target reacts for itself, and those that are notified are so in the order of their
requested paths. -/
theorem handleEvent_steady (h : Reachable e) (hs : sys.Steady f) (event : Event) (notified : List Path) :
    Led e.table (handleEvent sys event notified e).2.table
        (fun j => if j ∈ e.table.targets then (outcome f e.table notified event j).resolution
          else (e.table.target j).resolution) ∧
      (handleEvent sys event notified e).1 = notified ++
        (e.table.targets.filter fun j =>
          (outcome f e.table notified event j).told && !toldOf e.table notified j).map
          fun j => (e.table.target j).requested := by
  have hset := h.settled
  have hids := hset.targetsFor_eq event.entry
  have hconcerned : ∀ {j}, j ∈ e.table.targetsFor event.entry ↔ j ∈ e.table.targets ∧
      (e.table.target j).resolution.classify event.entry.dir event.entry.name ≠ .none := by
    intro j
    rw [hids, List.mem_filter, decide_eq_true_iff]
  -- a target that the event does not concern would not have reacted
  have hidle : ∀ {j}, j ∈ e.table.targets → j ∉ e.table.targetsFor event.entry →
      outcome f e.table notified event j = ⟨(e.table.target j).resolution, toldOf e.table notified j⟩ := by
    intro j hj hnot
    refine react_of_none ?_
    by_contra hne
    exact hnot (hconcerned.mpr ⟨hj, hne⟩)
  obtain ⟨hled, hnot⟩ := handleAll_steady (e := e.say (eventRecord event)) hs event
    (show (e.table.targetsFor event.entry).Nodup from hset.exact.nodup _)
    (fun j hj => hset.active (hconcerned.mp hj).1)
    (fun a ha b hb hab => hset.eq_of_pathOf (hconcerned.mp ha).1 (hconcerned.mp hb).1 hab)
    notified
  refine ⟨hled.congr fun j => ?_, ?_⟩
  · rw [table_say]
    by_cases hj : j ∈ e.table.targetsFor event.entry
    · rw [if_pos hj, if_pos (hconcerned.mp hj).1]
    · rw [if_neg hj]
      by_cases ht : j ∈ e.table.targets
      · rw [if_pos ht, hidle ht hj]
      · rw [if_neg ht]
  · refine hnot.trans ?_
    rw [table_say, hids, List.filter_filter]
    congr 2
    refine List.filter_congr fun j hj => ?_
    by_cases hc : j ∈ e.table.targetsFor event.entry
    · have := (hconcerned.mp hc).2
      simp [this]
    · rw [hidle hj hc]
      simp

/-- How often a target was notified. -/
def timesTold (t : Table) (notified : List Path) (id : TargetId) : Nat :=
  notified.countP (t.target id).requested.same

lemma toldOf_eq (t : Table) (notified : List Path) (id : TargetId) :
    toldOf t notified id = decide (0 < timesTold t notified id) := by
  rw [toldOf, timesTold, Bool.eq_iff_iff, decide_eq_true_iff, List.countP_pos_iff, List.any_eq_true]

lemma react_told {p : Path} {c : Course} {event : Event} (h : c.told = true) : (react f p c event).told = true := by
  by_cases hm : c.resolution.classify event.entry.dir event.entry.name = .none
  · rw [react_of_none hm, h]
  · rw [react_of_ne_none hm, h, Bool.true_or]

/-- An event notifies a target once more if the target has not been notified before. -/
lemma timesTold_handleEvent (h : Reachable e) (hs : sys.Steady f) (event : Event) (notified : List Path)
    (hid : id ∈ e.table.targets) :
    timesTold e.table (handleEvent sys event notified e).1 id = timesTold e.table notified id +
      if (outcome f e.table notified event id).told && !toldOf e.table notified id then 1 else 0 := by
  have hset := h.settled
  rw [(handleEvent_steady h hs event notified).2, timesTold, List.countP_append, List.countP_map]
  congr 1
  -- no other registered target has the same path
  have honly : ∀ j ∈ e.table.targets.filter fun j =>
      (outcome f e.table notified event j).told && !toldOf e.table notified j,
      ((e.table.target id).requested.same ∘ fun j => (e.table.target j).requested) j = true ↔ (j == id) = true := by
    intro j hj
    rw [Function.comp_apply, Path.same_iff, beq_iff_eq]
    constructor
    · intro hpath
      exact (hset.eq_of_pathOf hid (List.mem_filter.mp hj).1 hpath).symm
    · rintro rfl
      rfl
  have hnodup : e.table.targets.Nodup := (hset.ordered_requested.nodup.of_map _).of_map _
  rw [List.countP_congr honly, ← List.count_eq_countP, (hnodup.filter _).count]
  simp [hid]

lemma toldOf_handleEvent (h : Reachable e) (hs : sys.Steady f) (event : Event) (notified : List Path)
    (hid : id ∈ e.table.targets) :
    toldOf e.table (handleEvent sys event notified e).1 id = (outcome f e.table notified event id).told := by
  rw [toldOf_eq, timesTold_handleEvent h hs event notified hid]
  cases htold : toldOf e.table notified id with
  | true =>
    have hpos : 0 < timesTold e.table notified id := by
      rw [toldOf_eq] at htold
      exact of_decide_eq_true htold
    have hout : (outcome f e.table notified event id).told = true := react_told htold
    simp [hout, hpos]
  | false =>
    have hzero : timesTold e.table notified id = 0 := by
      rw [toldOf_eq] at htold
      exact Nat.eq_zero_of_not_pos (of_decide_eq_false htold)
    cases hout : (outcome f e.table notified event id).told <;> simp [hzero]

/-! ### A batch -/

/-- Handles the events of a batch, and gives the requested paths that were notified besides. -/
def runEvents (sys : System σ) : List Event → List Path → Engine σ → List Path × Engine σ
  | [], notified, e => (notified, e)
  | event :: rest, notified, e =>
    let (late, world) := sys.overdue e.world
    let e := { e with world }
    if late then (notified, e.say (droppedRecord (rest.length + 1)))
    else
      let (notified, e) := handleEvent sys event notified e
      if sys.halted e.world then (notified, e) else runEvents sys rest notified e

theorem runEvents_snd (sys : System σ) (batch : List Event) (notified : List Path) (e : Engine σ) :
    (runEvents sys batch notified e).2 = handleEvents sys batch notified e := by
  induction batch generalizing notified e with
  | nil => rfl
  | cons event rest ih =>
    rw [runEvents, handleEvents]
    dsimp only
    split
    · rfl
    · split
      · rfl
      · exact ih _ _

/-- The requested paths that a batch notifies, in order. -/
def notices (sys : System σ) (batch : List Event) (e : Engine σ) : List Path := (runEvents sys batch [] e).1

lemma runEvents_cons (hs : sys.Steady f) (event : Event) (rest : List Event) (notified : List Path) (e : Engine σ) :
    ∃ world, runEvents sys (event :: rest) notified e =
      runEvents sys rest (handleEvent sys event notified { e with world }).1
        (handleEvent sys event notified { e with world }).2 := by
  refine ⟨(sys.overdue e.world).2, ?_⟩
  rw [runEvents]
  simp [hs.onTime, hs.alive]

/-- What the events of a batch do to a target. -/
def courseOf (f : Snapshot) (t : Table) (notified : List Path) (batch : List Event) (id : TargetId) : Course :=
  batch.foldl (react f (t.target id).requested) ⟨(t.target id).resolution, toldOf t notified id⟩

lemma foldl_react_told {p : Path} {c : Course} (batch : List Event) (h : c.told = true) :
    (batch.foldl (react f p) c).told = true := by
  induction batch generalizing c with
  | nil => exact h
  | cons event rest ih => exact ih (react_told h)

/-- What is left of a batch after one event does to a target what the batch does to it. -/
lemma courseOf_handleEvent (h : Reachable e) (hs : sys.Steady f) (event : Event) (rest : List Event)
    (notified : List Path) (hid : id ∈ e.table.targets) :
    courseOf f (handleEvent sys event notified e).2.table (handleEvent sys event notified e).1 rest id =
      courseOf f e.table notified (event :: rest) id := by
  obtain ⟨hled, -⟩ := handleEvent_steady h hs event notified
  have htold := toldOf_handleEvent h hs event notified hid
  have hout : outcome f e.table notified event id = ⟨((handleEvent sys event notified e).2.table.target id).resolution,
      toldOf (handleEvent sys event notified e).2.table (handleEvent sys event notified e).1 id⟩ := by
    rw [toldOf, hled.requested, ← toldOf, htold, hled.resolution, if_pos hid]
  rw [courseOf, courseOf, List.foldl_cons, ← outcome, hout, hled.requested]

/-- A target that an event or a later one notifies is counted once. -/
lemma notified_once {before between after : Bool} (h : before = true → between = true)
    (h' : between = true → after = true) :
    ((if between && !before then 1 else 0) + if after && !between then 1 else 0) =
      if after && !before then 1 else 0 := by
  cases before <;> cases between <;> cases after <;> simp_all

/-- **A batch.** Every registered target reacts to the events of the batch one after the other, for itself, and is
notified at most once. -/
theorem runEvents_course (h : Reachable e) (hs : sys.Steady f) (batch : List Event) (notified : List Path) :
    Led e.table (runEvents sys batch notified e).2.table
        (fun j => if j ∈ e.table.targets then (courseOf f e.table notified batch j).resolution
          else (e.table.target j).resolution) ∧
      ∀ id ∈ e.table.targets, timesTold e.table (runEvents sys batch notified e).1 id =
        timesTold e.table notified id +
          if (courseOf f e.table notified batch id).told && !toldOf e.table notified id then 1 else 0 := by
  induction batch generalizing notified e with
  | nil =>
    refine ⟨(led_refl e.table).congr fun j => ?_, fun id hid => ?_⟩
    · split <;> rfl
    · cases htold : toldOf e.table notified id <;> simp [runEvents, courseOf, htold]
  | cons event rest ih =>
    obtain ⟨world, hrun⟩ := runEvents_cons hs event rest notified e
    have hworld : Reachable { e with world } := h.of_table_eq rfl
    obtain ⟨hled, -⟩ := handleEvent_steady hworld hs event notified
    have htold := fun id (hid : id ∈ e.table.targets) => toldOf_handleEvent hworld hs event notified hid
    have htimes := fun id (hid : id ∈ e.table.targets) => timesTold_handleEvent hworld hs event notified hid
    have hcourse := fun id (hid : id ∈ e.table.targets) => courseOf_handleEvent hworld hs event rest notified hid
    have hnext := hworld.handleEvent sys event notified
    rw [hrun]
    rcases hstep : handleEvent sys event notified { e with world } with ⟨notified', e'⟩
    rw [hstep] at hled htold htimes hcourse hnext
    obtain ⟨hled', hcount⟩ := ih hnext notified'
    have htargets : e'.table.targets = e.table.targets := by
      rw [Table.targets, hled.registered]
      rfl
    refine ⟨(hled.trans hled').congr fun j => ?_, fun id hid => ?_⟩
    · rw [htargets, hled.resolution]
      by_cases hj : j ∈ e.table.targets
      · rw [if_pos hj, if_pos hj, hcourse j hj]
      · rw [if_neg hj, if_neg hj, if_neg hj]
    · have hlater := hcount id (htargets ▸ hid)
      rw [timesTold, timesTold, toldOf, hled.requested, ← timesTold, ← timesTold, ← toldOf, hcourse id hid,
        htold id hid, htimes id hid, Nat.add_assoc] at hlater
      refine hlater.trans (congrArg _ (notified_once (fun hb => react_told hb) fun hb => ?_))
      rw [courseOf, List.foldl_cons]
      exact foldl_react_told rest hb

/-- What a batch does to a registered target. -/
theorem process_course (h : Reachable e) (hs : sys.Steady f) (batch : List Event) (hid : id ∈ e.table.targets) :
    ((process sys batch e).table.target id).resolution = (courseOf f e.table [] batch id).resolution ∧
      timesTold e.table (notices sys batch e) id = if (courseOf f e.table [] batch id).told then 1 else 0 := by
  obtain ⟨hled, htimes⟩ := runEvents_course h hs batch []
  constructor
  · rw [process, ← runEvents_snd, hled.resolution, if_pos hid]
  · rw [notices, htimes id hid]
    simp [timesTold, toldOf]

/-- A batch registers no target and removes none. -/
lemma process_registered (h : Reachable e) (hs : sys.Steady f) (batch : List Event) :
    (process sys batch e).table.targets = e.table.targets ∧
      ∀ j, ((process sys batch e).table.target j).requested = (e.table.target j).requested := by
  obtain ⟨hled, -⟩ := runEvents_course h hs batch []
  rw [process, ← runEvents_snd]
  exact ⟨by rw [Table.targets, hled.registered]; rfl, hled.requested⟩

end Engine

end LinkWatch
