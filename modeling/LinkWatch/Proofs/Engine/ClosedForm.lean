import LinkWatch.Proofs.Engine.Audience
import LinkWatch.Proofs.Engine.Notices

/-!
What a batch comes to. The first event that concerns a target resolves it anew, and in a tree that stays as it is no
later event moves it again. So where a target leads after a batch depends on whether any event concerns it, not on
which or in what order; whether it is noticed depends on the first such event and on the changes of the file after
it (`Noticed`). Each notice calls the audiences that the target had before the batch, with the path where it leads in
the end (`process_closedForm`).
-/

namespace LinkWatch.Engine

open Table (Alike)

variable {σ : Type} {sys : System σ} {f : Snapshot} {e e' : Engine σ} {id : TargetId} {p : Path} {r : Resolution}

/-! ### One target -/

/-- An event of the batch concerns the resolution. -/
def Concerned (r : Resolution) (batch : List Event) : Prop := ∃ event ∈ batch, means r event ≠ .none

/-- A target that is requested as `p`, leads to `r` before a batch and to `last` after it, is noticed: the first event
that concerns it is one of the file, or one of a link and the target resolves to something else now, or a later event is
one of the file where it leads in the end. -/
def Noticed (f : Snapshot) (p : Path) (r last : Resolution) (batch : List Event) : Prop :=
  ∃ before first rest, batch = before ++ first :: rest ∧ (∀ event ∈ before, means r event = .none) ∧
    means r first ≠ .none ∧
    (means r first = .leaf ∨ (means r first = .hop ∧ ∃ new, f.resolve p = .ok new ∧ r.same new = false) ∨
      ∃ event ∈ rest, means last event = .leaf)

lemma Noticed.concerned {last : Resolution} {batch : List Event} (h : Noticed f p r last batch) :
    Concerned r batch := by
  obtain ⟨before, first, rest, rfl, -, hfirst, -⟩ := h
  exact ⟨first, by simp, hfirst⟩

/-- A target leads where it would lead if it were resolved anew. -/
structure Settles (f : Snapshot) (p : Path) (r : Resolution) : Prop where
  renewed : renewed f p r = r
  replaced : replaced f p r = none

lemma settles_renewed (f : Snapshot) (p : Path) (r : Resolution) : Settles f p (renewed f p r) := by
  cases h : f.resolve p with
  | error err => constructor <;> simp [renewed, replaced, h]
  | ok r' =>
    by_cases hsame : r.same r' = true
    · constructor <;> simp [renewed, replaced, h, hsame]
    · constructor <;> simp [renewed, replaced, h, hsame, Resolution.same_refl]

/-- Once a target is settled it stays where it is, and only a change of the file notifies. -/
lemma Settles.foldl_react (h : Settles f p r) (told : Bool) (batch : List Event) :
    batch.foldl (react f p) ⟨r, told⟩ = ⟨r, told || batch.any fun event => means r event == .leaf⟩ := by
  induction batch generalizing told with
  | nil => simp
  | cons event rest ih =>
    have hstep : react f p ⟨r, told⟩ event = ⟨r, told || means r event == .leaf⟩ := by
      by_cases hm : r.classify event.entry.dir event.entry.name = .none
      · rw [react_of_none hm, means, hm]
        simp
      · rw [react_of_ne_none hm, h.renewed, h.replaced, means]
        cases r.classify event.entry.dir event.entry.name <;> simp [notifies]
    rw [List.foldl_cons, hstep, ih, List.any_cons, Bool.or_assoc]

lemma foldl_react_idle {batch : List Event} (h : ∀ event ∈ batch, means r event = .none) (told : Bool) :
    batch.foldl (react f p) ⟨r, told⟩ = ⟨r, told⟩ := by
  induction batch with
  | nil => rfl
  | cons event rest ih =>
    have hstep : react f p ⟨r, told⟩ event = ⟨r, told⟩ := react_of_none (h event (by simp))
    rw [List.foldl_cons, hstep]
    exact ih fun event' h' => h event' (by simp [h'])

/-- The first event that concerns a target resolves it anew, and the target is settled after it. -/
lemma foldl_react_split {before rest : List Event} {first : Event} (hbefore : ∀ event ∈ before, means r event = .none)
    (hfirst : means r first ≠ .none) :
    (before ++ first :: rest).foldl (react f p) ⟨r, false⟩ =
      ⟨renewed f p r, notifies (means r first) (replaced f p r) ||
        rest.any fun event => means (renewed f p r) event == .leaf⟩ := by
  have hstep : react f p ⟨r, false⟩ first = ⟨renewed f p r, notifies (means r first) (replaced f p r)⟩ := by
    have hreact : react f p ⟨r, false⟩ first =
        ⟨renewed f p r, false || notifies (means r first) (replaced f p r)⟩ := react_of_ne_none hfirst
    rw [hreact, Bool.false_or]
  rw [List.foldl_append, foldl_react_idle hbefore, List.foldl_cons, hstep, (settles_renewed f p r).foldl_react]

lemma resolution_of_concerned {batch : List Event} (h : Concerned r batch) :
    (batch.foldl (react f p) ⟨r, false⟩).resolution = renewed f p r := by
  obtain ⟨before, first, rest, rfl, hbefore, hfirst⟩ := exists_first h
  rw [foldl_react_split hbefore hfirst]

lemma notifies_iff {m : Match} (hm : m ≠ .none) :
    notifies m (replaced f p r) = true ↔
      m = .leaf ∨ m = .hop ∧ ∃ r', f.resolve p = .ok r' ∧ r.same r' = false := by
  have hreplaced : (replaced f p r).isSome = true ↔ ∃ r', f.resolve p = .ok r' ∧ r.same r' = false := by
    unfold replaced
    cases f.resolve p with
    | error err => simp
    | ok r' => cases hsame : r.same r' <;> simp [hsame]
  cases m with
  | none => exact absurd rfl hm
  | leaf => simp [notifies]
  | hop => simpa [notifies] using hreplaced
  | pending => simp [notifies]

theorem told_iff_noticed {batch : List Event} :
    (batch.foldl (react f p) ⟨r, false⟩).told = true ↔ Noticed f p r (renewed f p r) batch := by
  constructor
  · intro htold
    have hc : Concerned r batch := by
      by_contra hnone
      have hidle : ∀ event ∈ batch, means r event = .none := fun event hmem => by
        by_contra hne
        exact hnone ⟨event, hmem, hne⟩
      rw [foldl_react_idle hidle] at htold
      cases htold
    obtain ⟨before, first, rest, rfl, hbefore, hfirst⟩ := exists_first hc
    rw [foldl_react_split hbefore hfirst] at htold
    refine ⟨before, first, rest, rfl, hbefore, hfirst, ?_⟩
    rcases (Bool.or_eq_true _ _).mp htold with hnow | hlater
    · exact ((notifies_iff hfirst).mp hnow).imp id .inl
    · obtain ⟨event, hmem, hleaf⟩ := List.any_eq_true.mp hlater
      exact .inr (.inr ⟨event, hmem, by simpa using hleaf⟩)
  · rintro ⟨before, first, rest, rfl, hbefore, hfirst, hwhy⟩
    rw [foldl_react_split hbefore hfirst]
    refine (Bool.or_eq_true _ _).mpr ?_
    rcases hwhy with hleaf | hhop | ⟨event, hmem, hleaf⟩
    · exact .inl ((notifies_iff hfirst).mpr (.inl hleaf))
    · exact .inl ((notifies_iff hfirst).mpr (.inr hhop))
    · exact .inr (List.any_eq_true.mpr ⟨event, hmem, by simp [hleaf]⟩)

/-- Whoever is noticed is settled. -/
lemma resolution_react {c : Course} {event : Event} (h : (react f p c event).told && !c.told) :
    (react f p c event).resolution = renewed f p c.resolution := by
  by_cases hm : c.resolution.classify event.entry.dir event.entry.name = .none
  · rw [react_of_none hm] at h
    simp at h
  · rw [react_of_ne_none hm]

/-! ### What one event submits -/

lemma calls_congr (h : Attuned e e') (hreq : (e'.table.target id).requested = (e.table.target id).requested)
    (hid : id ∈ e.table.targets) (r : Resolution) : e'.calls id r = e.calls id r := by
  rw [calls, calls, hreq, h.audience (.only id) hid, h.audience .all (inUse_all _)]

lemma submitted_handle (hs : sys.Steady f) (hid : id ∈ e.table.targets) (hlt : id < e.table.created.length)
    (hact : (e.table.target id).retired = false) (event : Event) (notified : List Path) :
    submitted (handle sys event (notified, e) id).2 = submitted e ++
        (if (outcome f e.table notified event id).told && !toldOf e.table notified id then
          e.calls id (outcome f e.table notified event id).resolution else []) ∧
      Attuned e (handle sys event (notified, e) id).2 := by
  obtain ⟨hprev, hled⟩ := refresh_steady hs hlt hact
  have hrefresh := attuned_refresh sys id e
  have hquiet := quiet_refresh sys id e
  have htold : toldOf (e.refresh sys id).2.table notified id = toldOf e.table notified id := by
    rw [toldOf, toldOf, hled.requested]
  by_cases hm : (e.table.target id).resolution.classify event.entry.dir event.entry.name = .none
  · rw [handle_of_none hm, outcome, react_of_none hm]
    exact ⟨by simp, .refl e⟩
  · rw [handle_of_ne_none hs hm, outcome, react_of_ne_none hm, htold, hprev]
    dsimp only
    have hid' : id ∈ (e.refresh sys id).2.table.targets := hrefresh.targets ▸ hid
    have hlead : ((e.refresh sys id).2.table.target id).resolution =
        renewed f (e.table.target id).requested (e.table.target id).resolution := by
      rw [hled.resolution, change, if_pos rfl]
    cases notifies ((e.table.target id).resolution.classify event.entry.dir event.entry.name)
        (replaced f (e.table.target id).requested (e.table.target id).resolution) with
    | false => exact ⟨by simpa using hquiet.submitted, hrefresh⟩
    | true =>
      cases toldOf e.table notified id with
      | true => exact ⟨by simpa using hquiet.submitted, hrefresh⟩
      | false =>
        obtain ⟨hsubmitted, hattuned⟩ := submitted_notify hid'
        refine ⟨?_, hrefresh.trans hattuned⟩
        simp only [Bool.not_false, Bool.and_true, Bool.false_or, if_true]
        rw [hsubmitted, hquiet.submitted, hlead, calls_congr hrefresh (hled.requested id) hid]

/-- The targets that an event notifies. -/
def toldNow (f : Snapshot) (t : Table) (notified : List Path) (event : Event) (id : TargetId) : Bool :=
  (outcome f t notified event id).told && !toldOf t notified id

lemma submitted_handleAll (hs : sys.Steady f) (event : Event) {ids : List TargetId} (hnodup : ids.Nodup)
    (hids : ∀ id ∈ ids, id ∈ e.table.targets)
    (hact : ∀ id ∈ ids, id < e.table.created.length ∧ (e.table.target id).retired = false)
    (hdist : ∀ a ∈ ids, ∀ b ∈ ids, e.table.pathOf a = e.table.pathOf b → a = b) (notified : List Path) :
    submitted (ids.foldl (handle sys event) (notified, e)).2 = submitted e ++
        (ids.filter (toldNow f e.table notified event)).flatMap
          (fun j => e.calls j (outcome f e.table notified event j).resolution) ∧
      Attuned e (ids.foldl (handle sys event) (notified, e)).2 := by
  induction ids generalizing e notified with
  | nil => exact ⟨by simp, .refl e⟩
  | cons id ids ih =>
    obtain ⟨hid, hnodup'⟩ := List.nodup_cons.mp hnodup
    obtain ⟨hidlt, hidact⟩ := hact id (by simp)
    obtain ⟨hled, -⟩ := handle_steady hs hidlt hidact event notified
    obtain ⟨hfirst, hattuned⟩ := submitted_handle hs (hids id (by simp)) hidlt hidact event notified
    have hsame := fun j (hj : j ∈ ids) => handle_others hs hidlt hidact event notified fun hp =>
      hid (hdist j (by simp [hj]) id (by simp) hp ▸ hj)
    rw [List.foldl_cons]
    rcases hstep : handle sys event (notified, e) id with ⟨notified', e'⟩
    rw [hstep] at hled hfirst hattuned hsame
    dsimp only at hled hfirst hattuned hsame
    obtain ⟨hrest, hattuned'⟩ := ih hnodup'
      (fun j hj => by
        rw [hattuned.targets]
        exact hids j (by simp [hj]))
      (fun j hj => by
        rw [hled.length, hled.retired]
        exact hact j (by simp [hj]))
      (fun a ha b hb hab => by
        rw [Table.pathOf, Table.pathOf, hled.requested, hled.requested] at hab
        exact hdist a (by simp [ha]) b (by simp [hb]) hab) notified'
    refine ⟨?_, hattuned.trans hattuned'⟩
    have hfilter : ids.filter (toldNow f e'.table notified' event) = ids.filter (toldNow f e.table notified event) :=
      List.filter_congr fun j hj => by rw [toldNow, toldNow, (hsame j hj).1, (hsame j hj).2]
    have hcalls : ∀ j ∈ ids.filter (toldNow f e.table notified event),
        e'.calls j (outcome f e'.table notified' event j).resolution =
          e.calls j (outcome f e.table notified event j).resolution := by
      intro j hj
      have hj' := (List.mem_filter.mp hj).1
      rw [(hsame j hj').1, calls_congr hattuned (hled.requested j) (hids j (by simp [hj']))]
    rw [hrest, hfilter, List.flatMap_congr hcalls, hfirst, List.append_assoc, List.filter_cons, toldNow]
    split <;> simp

lemma submitted_handleEvent (h : Reachable e) (hs : sys.Steady f) (event : Event) (notified : List Path) :
    submitted (handleEvent sys event notified e).2 = submitted e ++
        (e.table.targets.filter (toldNow f e.table notified event)).flatMap
          (fun j => e.calls j (outcome f e.table notified event j).resolution) ∧
      Attuned e (handleEvent sys event notified e).2 := by
  have hset := h.settled
  have hids := hset.targetsFor_eq event.entry
  have hconcerned : ∀ j ∈ e.table.targetsFor event.entry, j ∈ e.table.targets := fun j hj => by
    rw [hids] at hj
    exact (List.mem_filter.mp hj).1
  have hsay : Attuned e (e.say (eventRecord event)) := attuned_say _ e
  obtain ⟨hsubmitted, hattuned⟩ := submitted_handleAll (e := e.say (eventRecord event)) hs event
    (show (e.table.targetsFor event.entry).Nodup from hset.exact.nodup _) hconcerned
    (fun j hj => hset.active (hconcerned j hj))
    (fun a ha b hb hab => hset.eq_of_pathOf (hconcerned a ha) (hconcerned b hb) hab) notified
  refine ⟨?_, hsay.trans hattuned⟩
  -- a target that the event does not concern is not notified
  have hfilter : (e.table.targetsFor event.entry).filter (toldNow f e.table notified event) =
      e.table.targets.filter (toldNow f e.table notified event) := by
    rw [hids, List.filter_filter]
    refine List.filter_congr fun j _ => ?_
    by_cases hm : (e.table.target j).resolution.classify event.entry.dir event.entry.name = .none
    · rw [toldNow, outcome, react_of_none hm]
      simp
    · simp [hm]
  have hcalls : ∀ j ∈ e.table.targets.filter (toldNow f e.table notified event),
      (e.say (eventRecord event)).calls j (outcome f e.table notified event j).resolution =
        e.calls j (outcome f e.table notified event j).resolution := fun j hj =>
    calls_congr hsay rfl (List.mem_filter.mp hj).1 _
  refine hsubmitted.trans ?_
  rw [(quiet_say _ e).submitted, table_say, hfilter, List.flatMap_congr hcalls]

/-! ### What a batch submits -/

/-- A target that an event notifies leads from then on where the batch leaves it. -/
lemma resolution_toldNow {t : Table} {notified : List Path} {event : Event} (h : toldNow f t notified event id = true)
    (rest : List Event) :
    (outcome f t notified event id).resolution = (courseOf f t notified (event :: rest) id).resolution := by
  have hsettled : Settles f (t.target id).requested (outcome f t notified event id).resolution := by
    rw [outcome, resolution_react h]
    exact settles_renewed ..
  have hcourse : courseOf f t notified (event :: rest) id = rest.foldl (react f (t.target id).requested)
      ⟨(outcome f t notified event id).resolution, (outcome f t notified event id).told⟩ := rfl
  rw [hcourse, hsettled.foldl_react]

/-- Who is notified by an event or a later one is notified by both together. -/
lemma notified_either {P : Prop} {before between after : Bool} (h : before = true → between = true)
    (h' : between = true → after = true) :
    (P ∧ (between && !before) = true ∨ P ∧ (after && !between) = true) ↔ P ∧ (after && !before) = true := by
  cases before <;> cases between <;> cases after <;> simp_all

/-- A batch notifies each target once at most, and calls its audience with the path where it leads after the batch. -/
theorem submitted_runEvents (h : Reachable e) (hs : sys.Steady f) (batch : List Event) (notified : List Path) :
    ∃ order : List TargetId, order.Nodup ∧
      (∀ id, id ∈ order ↔ id ∈ e.table.targets ∧
        ((courseOf f e.table notified batch id).told && !toldOf e.table notified id) = true) ∧
      submitted (runEvents sys batch notified e).2 = submitted e ++
        order.flatMap (fun id => e.calls id (courseOf f e.table notified batch id).resolution) := by
  induction batch generalizing notified e with
  | nil =>
    refine ⟨[], List.nodup_nil, fun id => ?_, by simp [runEvents]⟩
    cases htold : toldOf e.table notified id <;> simp [courseOf, htold]
  | cons event rest ih =>
    obtain ⟨world, hrun⟩ := runEvents_cons hs event rest notified e
    have hworld : Reachable { e with world } := h.of_table_eq rfl
    obtain ⟨hled, -⟩ := handleEvent_steady hworld hs event notified
    obtain ⟨hnow, hattuned⟩ := submitted_handleEvent hworld hs event notified
    have htold := fun id (hid : id ∈ e.table.targets) => toldOf_handleEvent hworld hs event notified hid
    have hcourse := fun id (hid : id ∈ e.table.targets) => courseOf_handleEvent hworld hs event rest notified hid
    have hnext := hworld.handleEvent sys event notified
    rw [hrun]
    rcases hstep : handleEvent sys event notified { e with world } with ⟨notified', e'⟩
    rw [hstep] at hled hnow hattuned htold hcourse hnext
    obtain ⟨order, hnodup, hmem, hlater⟩ := ih hnext notified'
    have htargets : e'.table.targets = e.table.targets := hattuned.targets
    have hreq : ∀ id, (e'.table.target id).requested = (e.table.target id).requested := hled.requested
    -- Who was notified by this event is not notified again.
    have hlate : ∀ id, id ∈ order ↔ id ∈ e.table.targets ∧
        ((courseOf f e.table notified (event :: rest) id).told &&
          !(outcome f e.table notified event id).told) = true := by
      intro id
      rw [hmem, htargets]
      refine and_congr_right fun hid => ?_
      rw [hcourse id hid, toldOf, hreq, ← toldOf, htold id hid]
    have hfirst : (e.table.targets.filter (toldNow f e.table notified event)).Nodup :=
      ((h.settled.ordered_requested.nodup.of_map _).of_map _).filter _
    refine ⟨e.table.targets.filter (toldNow f e.table notified event) ++ order, ?_, fun id => ?_, ?_⟩
    · refine List.nodup_append.mpr ⟨hfirst, hnodup, fun a ha b hb hab => ?_⟩
      have hnew := (List.mem_filter.mp ha).2
      have hold := ((hlate b).mp hb).2
      rw [← hab] at hold
      simp only [toldNow, Bool.and_eq_true, Bool.not_eq_true'] at hnew hold
      rw [hnew.1] at hold
      exact Bool.noConfusion hold.2
    · rw [List.mem_append, List.mem_filter, hlate]
      refine notified_either (fun ht => react_told ht) fun ht => ?_
      rw [courseOf, List.foldl_cons]
      exact foldl_react_told rest ht
    · have hcalls : ∀ id ∈ order, e'.calls id (courseOf f e'.table notified' rest id).resolution =
          e.calls id (courseOf f e.table notified (event :: rest) id).resolution := by
        intro id hid
        have hid' := ((hlate id).mp hid).1
        rw [hcourse id hid']
        exact (calls_congr hattuned (hreq id) hid' _)
      have hcalls' : ∀ id ∈ e.table.targets.filter (toldNow f e.table notified event),
          e.calls id (outcome f e.table notified event id).resolution =
            e.calls id (courseOf f e.table notified (event :: rest) id).resolution := fun id hid => by
        rw [resolution_toldNow (List.mem_filter.mp hid).2 rest]
      rw [hlater, hnow, List.flatMap_append, ← List.append_assoc, List.flatMap_congr hcalls]
      congr 2
      exact List.flatMap_congr hcalls'

/-! ### The closed form -/

/-- Where a batch leaves a target: where it was if no event concerns it, and else where its path resolves to, if it
resolves. -/
structure Leaves (f : Snapshot) (batch : List Event) (before after : Target) : Prop where
  requested : after.requested = before.requested
  unconcerned : ¬ Concerned before.resolution batch → after.resolution = before.resolution
  resolved : Concerned before.resolution batch → ∀ new, f.resolve before.requested = .ok new →
    after.resolution.same new = true ∧ (before.resolution.same new = false → after.resolution = new)
  failed : Concerned before.resolution batch → ∀ err, f.resolve before.requested = .error err →
    after.resolution = before.resolution

lemma renewed_of_ok {new : Resolution} (h : f.resolve p = .ok new) :
    (renewed f p r).same new = true ∧ (r.same new = false → renewed f p r = new) := by
  rw [renewed, h]
  dsimp only
  cases hsame : r.same new with
  | true => exact ⟨hsame, fun hne => absurd hne (by decide)⟩
  | false => exact ⟨Resolution.same_refl new, fun _ => rfl⟩

lemma resolution_process (h : Reachable e) (hs : sys.Steady f) (batch : List Event) (hid : id ∈ e.table.targets) :
    (Concerned (e.table.target id).resolution batch → ((process sys batch e).table.target id).resolution =
      renewed f (e.table.target id).requested (e.table.target id).resolution) ∧
    (¬ Concerned (e.table.target id).resolution batch → ((process sys batch e).table.target id).resolution =
      (e.table.target id).resolution) := by
  have hcourse := (process_course h hs batch hid).1
  have hstart : courseOf f e.table [] batch id =
      batch.foldl (react f (e.table.target id).requested) ⟨(e.table.target id).resolution, false⟩ := rfl
  rw [hcourse, hstart]
  refine ⟨fun hc => resolution_of_concerned hc, fun hnone => ?_⟩
  rw [foldl_react_idle fun event hmem => ?_]
  by_contra hne
  exact hnone ⟨event, hmem, hne⟩

lemma leaves_process (h : Reachable e) (hs : sys.Steady f) (batch : List Event) (hid : id ∈ e.table.targets) :
    Leaves f batch (e.table.target id) ((process sys batch e).table.target id) := by
  obtain ⟨hconcerned, hidle⟩ := resolution_process h hs batch hid
  refine ⟨(process_registered h hs batch).2 id, hidle, fun hc new hnew => ?_, fun hc err herr => ?_⟩
  · rw [hconcerned hc]
    exact renewed_of_ok hnew
  · rw [hconcerned hc, renewed, herr]

/-- **The closed form of a batch.** Each registered target ends where its own path and the tree say, if any event
concerns it, and else stays; so the order of the events does not matter to where the targets lead, nor to the index.
Each noticed target has one notice: one call for each live listener of its own with the path as requested, and then one
for each live listener of all targets with the path where it leads in the end, in the order of registration. Nothing
else is submitted. -/
theorem process_closedForm (h : Populated e) (hs : sys.Steady f) (batch : List Event) :
    (process sys batch e).table.targets = e.table.targets ∧
    (∀ id ∈ e.table.targets, Leaves f batch (e.table.target id) ((process sys batch e).table.target id)) ∧
    (∀ batch', batch.Perm batch' →
      (∀ id ∈ e.table.targets, ((process sys batch' e).table.target id).resolution =
        ((process sys batch e).table.target id).resolution) ∧
      (process sys batch' e).table.index.view = (process sys batch e).table.index.view) ∧
    (∀ scope, (e.audience scope).Nodup) ∧
    ∃ order : List TargetId, order.Nodup ∧
      (∀ id, id ∈ order ↔ id ∈ e.table.targets ∧ Noticed f (e.table.target id).requested
        (e.table.target id).resolution ((process sys batch e).table.target id).resolution batch) ∧
      submitted (process sys batch e) = submitted e ++ order.flatMap fun id =>
        (e.audience (.only id)).map (fun k => ⟨k, (e.table.target id).requested⟩) ++
          (e.audience .all).map fun k => ⟨k, ((process sys batch e).table.target id).resolution.resolved⟩ := by
  have hr := h.reachable
  refine ⟨(process_registered hr hs batch).1, fun id hid => leaves_process hr hs batch hid, fun batch' hperm => ?_,
    nodup_audience h.distinct, ?_⟩
  · have hsame : ∀ id ∈ e.table.targets, ((process sys batch' e).table.target id).resolution =
        ((process sys batch e).table.target id).resolution := by
      intro id hid
      have hiff : Concerned (e.table.target id).resolution batch' ↔ Concerned (e.table.target id).resolution batch :=
        exists_congr fun event => and_congr_left' hperm.symm.mem_iff
      obtain ⟨hconcerned, hidle⟩ := resolution_process hr hs batch hid
      obtain ⟨hconcerned', hidle'⟩ := resolution_process hr hs batch' hid
      by_cases hc : Concerned (e.table.target id).resolution batch
      · rw [hconcerned hc, hconcerned' (hiff.mpr hc)]
      · rw [hidle hc, hidle' fun hc' => hc (hiff.mp hc')]
    refine ⟨hsame, (hr.process sys batch').settled.view_eq (hr.process sys batch).settled ?_⟩
    obtain ⟨htargets, hreq⟩ := process_registered hr hs batch
    obtain ⟨htargets', hreq'⟩ := process_registered hr hs batch'
    rw [Table.scan, Table.scan, htargets, htargets']
    refine List.map_congr_left fun id hid => ?_
    rw [Table.pathOf, Table.pathOf, hreq, hreq', hsame id hid]
  · obtain ⟨order, hnodup, hmem, hsubmitted⟩ := submitted_runEvents hr hs batch []
    refine ⟨order, hnodup, fun id => ?_, ?_⟩
    · rw [hmem]
      refine and_congr_right fun hid => ?_
      have hnotice : (courseOf f e.table [] batch id).told = true ↔ Noticed f (e.table.target id).requested
          (e.table.target id).resolution (renewed f (e.table.target id).requested (e.table.target id).resolution)
          batch := told_iff_noticed
      rw [show toldOf e.table [] id = false from rfl, Bool.not_false, Bool.and_true, hnotice]
      -- a target that is noticed leads in the end where it resolves to
      constructor
      · intro hn
        rw [(resolution_process hr hs batch hid).1 hn.concerned]
        exact hn
      · intro hn
        rw [(resolution_process hr hs batch hid).1 hn.concerned] at hn
        exact hn
    · rw [process, ← runEvents_snd, hsubmitted]
      congr 1
      refine List.flatMap_congr fun id hid => ?_
      have hid' := ((hmem id).mp hid).1
      have hlast := (process_course hr hs batch hid').1
      rw [process, ← runEvents_snd] at hlast
      rw [calls, hlast]

/-- `/l` is watched while the link points to `a`. One listener is registered for it, and two for all paths. -/
def linkShared : Engine Unit :=
  let e : Engine Unit := { dispatcher := { workers := [{}] }, world := (), held := [8, 9] }
  let e := (e.register (linkAndDirsSystem .root).toNativeWatches ⟨[0x2f, 0x6c]⟩
    ⟨⟨[0x2f, 0x61]⟩, [⟨⟨[0x2f, 0x6c]⟩, .root, [0x6c], ⟨[0x61]⟩⟩], none⟩).2
  let e := (e.addListener (.only 0) .strong 7).2
  let e := (e.addListener .all .weak 8).2
  (e.addListener .all .weak 9).2

/-- One of the listeners for all paths has lost its owner. -/
def linkHeard : Engine Unit := { linkShared with held := [9] }

lemma populated_linkHeard : Populated linkHeard := by
  have hshared : Populated linkShared := .addListener .all .weak 9 (.addListener .all .weak 8
    (.addListener (.only 0) .strong 7 (.register _ _ _ (.start rfl))))
  exact .elsewhere (e := linkShared) rfl hshared

/-- The link comes to point to `b`, and the file there changes. -/
theorem process_closedForm_linkHeard :
    let sys := linkAndDirsSystem ⟨[0x62]⟩
    let batch : List Event := [⟨⟨.root, [0x6c]⟩, .other⟩, ⟨⟨.root, [0x62]⟩, .other⟩]
    ((process sys batch linkHeard).table.target 0).resolution.resolved = ⟨[0x2f, 0x62]⟩ ∧
      submitted (process sys batch linkHeard) = [⟨7, ⟨[0x2f, 0x6c]⟩⟩, ⟨9, ⟨[0x2f, 0x62]⟩⟩] ∧
      ((process sys batch.reverse linkHeard).table.target 0).resolution =
        ((process sys batch linkHeard).table.target 0).resolution ∧
      (process sys batch.reverse linkHeard).table.index.view = (process sys batch linkHeard).table.index.view := by
  intro sys batch
  have hs : sys.Steady (linkAndDirs ⟨[0x62]⟩) := ⟨(linkAndDirs _).answers, fun _ => rfl, fun _ => rfl⟩
  have hid : 0 ∈ linkHeard.table.targets := by decide +kernel
  obtain ⟨-, hleaves, hperm, -, order, hnodup, hmem, hsubmitted⟩ := process_closedForm populated_linkHeard hs batch
  have hlink : means (linkHeard.table.target 0).resolution ⟨⟨.root, [0x6c]⟩, .other⟩ = .hop := by decide +kernel
  -- the target resolves to `/b` now
  have hlast : ((process sys batch linkHeard).table.target 0).resolution = _ :=
    ((hleaves 0 hid).resolved ⟨_, List.mem_cons_self, by rw [hlink]; decide⟩ _ rfl).2 (by decide +kernel)
  have hnoticed : (0 : TargetId) ∈ order := by
    refine (hmem 0).mpr ⟨hid, [], _, _, rfl, by simp, by rw [hlink]; decide, .inr (.inl ⟨hlink, _, rfl, ?_⟩)⟩
    decide +kernel
  have honly : ∀ id ∈ order, id = 0 := fun id hin => by
    have htargets : linkHeard.table.targets = [0] := by decide +kernel
    simpa [htargets] using ((hmem id).mp hin).1
  have horder : order = [0] := by
    cases order with
    | nil => cases hnoticed
    | cons i rest =>
      obtain rfl := honly i (by simp)
      cases rest with
      | nil => rfl
      | cons j rest =>
        obtain rfl := honly j (by simp)
        simp at hnodup
  obtain ⟨hresolution, hview⟩ := hperm batch.reverse (List.reverse_perm batch).symm
  refine ⟨?_, ?_, hresolution 0 hid, hview⟩
  · rw [hlast]
    decide +kernel
  · rw [hsubmitted, horder]
    simp only [List.flatMap_cons, List.flatMap_nil, hlast]
    decide +kernel

end LinkWatch.Engine
