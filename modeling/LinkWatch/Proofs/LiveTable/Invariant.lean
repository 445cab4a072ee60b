import LinkWatch.Proofs.LiveTable.Basic
import LinkWatch.Proofs.Walk.Spelling

/-!
What every step of registrations, events and changes keeps (`Watchful.step`). A link that a resolution under way has
read is either accounted as missed, or points where it was read to point, or an event of it waits (`Sure`); a link of a
registered target may besides be due, if its event is being handled (`Reckoned`). Nothing else is accounted as missed.

Each directory that a registered target is interested in is armed, or owed by a call under way. So a link of a target
that is retargeted without an event is one of those that `LiveTable.exposed` counts.
-/

namespace LinkWatch.LiveTable

open Engine (Mirrored Reachable Refused Unrefused)
open Resolution (Stage Place Retraced)
open Scripted (Source)
open Sorted (keys)
open Table (Alike)

variable {σ : Type} {native : NativeWatches σ} {source : σ → Source} {v v' : LiveTable σ}

/-! ### Links that are lost -/

section Lost

variable {f f' : Snapshot} {queue queue' : List Event} {e : Entry} {x y : Hop}

lemma lost_iff : x.lost f queue = true ↔
    x.stands f = false ∧ ∀ event ∈ queue, x.entry.same event.entry = false := by
  simp [Hop.lost]

/-- Two hops over one link with one target are lost together. -/
lemma lost_congr (hx : x.Sound) (hy : y.Sound) (h : x.same y = true) : x.lost f queue = y.lost f queue := by
  simp only [Hop.lost, hx.stands_congr hy h, Entry.same_congr (Hop.entry_same h)]

/-- Only the link of one entry is lost or found by a change. -/
structure Confined (e : Entry) (f : Snapshot) (queue : List Event) (f' : Snapshot) (queue' : List Event) : Prop where
  entryKind : f'.entryKind = f.entryKind
  lost : ∀ h : Hop, h.Sound → h.entry.same e = false → h.lost f' queue' = h.lost f queue

lemma confined_take (event : Event) (f : Snapshot) (queue : List Event) :
    Confined event.entry f (event :: queue) f queue where
  entryKind := rfl
  lost h _ hother := by simp [Hop.lost, hother]

lemma confined_retarget {link target : Path} {entry : Entry} (hentry : link.entry? = some entry)
    (hqueue : queue' = queue ∨ queue' = queue ++ [⟨entry, .modify⟩]) :
    Confined entry f queue (f.retarget link target) queue' where
  entryKind := rfl
  lost h hsound hother := by
    have hlink : h.link.same link = false := by
      rw [← Bool.not_eq_true, Path.same_iff]
      intro hsame
      have hkeys := Path.entry?_congr hsame
      rw [hsound.entry?_link, hentry] at hkeys
      rw [Entry.same_iff.mpr (Option.some.inj hkeys)] at hother
      cases hother
    have hstands : h.stands (f.retarget link target) = h.stands f := by
      simp [Hop.stands, Snapshot.retarget, hlink]
    rcases hqueue with rfl | rfl
    · simp only [Hop.lost, hstands]
    · simp [Hop.lost, hstands, hother]

lemma mem_reckon {hops missed : List Hop} : x ∈ LinkWatch.reckon f queue e hops missed ↔
    (x ∈ missed ∧ x.entry.same e = false) ∨ (x ∈ hops ∧ x.entry.same e = true ∧ x.lost f queue = true) := by
  simp [LinkWatch.reckon]

end Lost

/-! ### The invariant -/

/-- What was missed of the links of a resolution under way is what is lost of them. -/
structure Sure (f : Snapshot) (queue : List Event) (w : Walker) : Prop where
  rooted : w.asked.isRooted = true
  traced : Stage.Traced f w.asked w.stage
  missed : w.stage.failed = false → ∀ h, h ∈ w.missed ↔ h ∈ w.stage.hops ∧ h.lost f queue = true

/-- The loop is to handle an event of the link for the target. -/
def Due (loop : Duty) (id : TargetId) (h : Hop) : Prop :=
  ∃ event, (event, id) ∈ loop.owed ∧ h.entry.same event.entry = true

/-- The target has missed where the link points by now. -/
def Misses (v : LiveTable σ) (id : TargetId) (h : Hop) : Prop := ∃ x ∈ v.astray, x.1 = id ∧ x.2.same h = true

/-- What is lost on a target is due, or accounted as missed, unless the target is being resolved anew; and nothing else
is accounted as missed. -/
structure Reckoned (v : LiveTable σ) : Prop where
  told : ∀ id ∈ v.engine.table.targets, (∀ x ∈ v.loop.renewals, x.1 ≠ id) →
    ∀ h ∈ (v.engine.table.target id).resolution.hops, h.lost v.tree v.queue = true → Due v.loop id h ∨ v.Misses id h
  missed : ∀ x ∈ v.astray, x.1 ∈ v.engine.table.targets → x.2.Sound ∧ x.2.lost v.tree v.queue = true ∧
    ∃ h ∈ (v.engine.table.target x.1).resolution.hops, x.2.same h = true

/-- A call still owes the target a look at the directory. -/
def Owes (v : LiveTable σ) (id : TargetId) (d : Path) : Prop :=
  ∃ x ∈ v.armings, x.1 = id ∧ d.components ∈ keys x.2

structure Watchful (source : σ → Source) (v : LiveTable σ) : Prop where
  grounded : ∀ d, v.tree.currentDir = .ok d → d.isRooted = true
  reachable : Reachable v.engine
  rooted : ∀ id < v.engine.table.created.length, (v.engine.table.target id).requested.isRooted = true
  retraced : ∀ id < v.engine.table.created.length,
    Retraced v.tree (v.engine.table.target id).requested (v.engine.table.target id).resolution
  mirrored : Mirrored source v.engine
  sure : ∀ w ∈ v.walkers, Sure v.tree v.queue w
  owed : ∀ x ∈ v.loop.owed, x.2 < v.engine.table.created.length
  renewal : ∀ x ∈ v.loop.renewals, x.1 < v.engine.table.created.length ∧
    x.2.asked = (v.engine.table.target x.1).requested
  reckoned : v.Reckoned
  armed : ∀ id ∈ v.engine.table.targets, ∀ d, v.engine.table.interestedIn d id = true →
    v.engine.table.isArmed d = true ∨ v.Owes id d

/-- An engine without targets, in a tree whose current directory is rooted, with nothing under way. -/
structure Fresh (source : σ → Source) (v : LiveTable σ) : Prop where
  table : v.engine.table = {}
  watched : (source v.engine.world).watched = []
  grounded : ∀ d, v.tree.currentDir = .ok d → d.isRooted = true
  queue : v.queue = []
  callers : v.callers = []
  loop : v.loop = .idle

lemma Fresh.watchful (h : Fresh source v) : Watchful source v where
  grounded := h.grounded
  reachable := .start h.table
  rooted id hid := by simp [h.table] at hid
  retraced id hid := by simp [h.table] at hid
  mirrored := by
    unfold Mirrored
    rw [h.table]
    exact mirrors_empty h.watched
  sure w hw := by simp [walkers, h.callers, h.loop, Duty.renewals] at hw
  owed x hx := by simp [h.loop, Duty.owed] at hx
  renewal x hx := by simp [h.loop, Duty.renewals] at hx
  reckoned := by
    refine ⟨fun id hid => ?_, fun x _ hid => ?_⟩ <;> simp [h.table, Table.targets] at hid
  armed id hid := by simp [h.table, Table.targets] at hid

/-! ### Calls -/

section Calls

variable {α : Type} {f : Caller → List α} {callers : List Caller} {i : Nat} {c c₀ : Caller} {x : α}

lemma mem_flatMap_set (hx : x ∈ (callers.set i c).flatMap f) : x ∈ f c ∨ x ∈ callers.flatMap f := by
  obtain ⟨c', hc', hx⟩ := List.mem_flatMap.mp hx
  rcases List.mem_or_eq_of_mem_set hc' with hc' | heq
  · exact Or.inr (List.mem_flatMap.mpr ⟨c', hc', hx⟩)
  · exact Or.inl (heq ▸ hx)

lemma mem_flatMap_of_set (hi : callers[i]? = some c₀) (hx : x ∈ callers.flatMap f) :
    x ∈ f c₀ ∨ x ∈ (callers.set i c).flatMap f := by
  obtain ⟨c', hc', hx⟩ := List.mem_flatMap.mp hx
  obtain ⟨j, hj⟩ := List.mem_iff_getElem?.mp hc'
  by_cases hij : i = j
  · subst hij
    obtain rfl : c₀ = c' := Option.some.inj (hi.symm.trans hj)
    exact Or.inl hx
  · right
    have hset : (callers.set i c)[j]? = some c' := by rw [List.getElem?_set_ne hij, hj]
    exact List.mem_flatMap.mpr ⟨c', List.mem_of_getElem? hset, hx⟩

lemma mem_flatMap_of_getElem? (hi : callers[i]? = some c) (hx : x ∈ f c) : x ∈ callers.flatMap f :=
  List.mem_flatMap.mpr ⟨c, List.mem_of_getElem? hi, hx⟩

lemma mem_flatMap_set_self (hi : callers[i]? = some c₀) (hx : x ∈ f c) : x ∈ (callers.set i c).flatMap f := by
  have hlt : i < callers.length := (List.getElem?_eq_some_iff.mp hi).1
  exact List.mem_flatMap.mpr ⟨c, List.mem_set hlt c, hx⟩

end Calls

lemma Sure.start {f : Snapshot} {queue : List Event} {asked : Path} (h : asked.isRooted = true) :
    Sure f queue (.start asked) where
  rooted := h
  traced := Stage.traced_start f h
  missed _ x := by simp [Walker.start, Stage.start, Stage.hops, Place.start]

/-- A link that is read just now is not missed. -/
lemma Sure.ask {f : Snapshot} {queue : List Event} {w : Walker} (h : Sure f queue w) : Sure f queue (w.ask f) where
  rooted := h.rooted
  traced := h.traced.ask
  missed hno x := by
    have hmissed := h.missed (Stage.failed_of_ask hno) x
    refine ⟨fun hx => ?_, fun ⟨hx, hlost⟩ => ?_⟩
    · obtain ⟨hx, hlost⟩ := hmissed.mp hx
      exact ⟨Stage.hops_subset_ask hno hx, hlost⟩
    · refine hmissed.mpr ⟨(Stage.mem_hops_ask hx).resolve_right fun hread => ?_, hlost⟩
      have hstands := (lost_iff.mp hlost).1
      rw [Hop.stands_of_read hread] at hstands
      cases hstands

/-- After a change of one link, what was missed of it is counted anew. -/
lemma Sure.reckon {e : Entry} {f f' : Snapshot} {queue queue' : List Event} {w : Walker} (h : Sure f queue w)
    (hc : Confined e f queue f' queue') : Sure f' queue' (w.reckon f' queue' e) where
  rooted := h.rooted
  traced := h.traced.congr hc.entryKind
  missed hno x := by
    have hmissed := h.missed hno x
    rw [Walker.reckon, mem_reckon]
    dsimp only
    cases hx : x.entry.same e with
    | true => simp
    | false =>
      rw [hmissed]
      simp only [Bool.false_eq_true, false_and, and_false, or_false, and_true]
      refine and_congr_right fun hhop => ?_
      rw [hc.lost x (h.traced.sound x hhop) hx]

/-! ### What is owed -/

/-- Each directory that was owed to a target is armed, unless it concerns nobody, or is owed to the target still. -/
def Settles (t : Table) (before after : List (TargetId × List Path)) : Prop :=
  ∀ x ∈ before, ∀ d : Path, d.components ∈ keys x.2 → (∃ id ∈ t.targets, t.interestedIn d id = true) →
    t.isArmed d = true ∨ ∃ y ∈ after, y.1 = x.1 ∧ d.components ∈ keys y.2

section Settles

variable {t : Table} {id : TargetId} {d : Path} {dirs : List Path} {after : List (TargetId × List Path)}

lemma Settles.nil : Settles t [] after := List.forall_mem_nil _

lemma Settles.nothing : Settles t [(id, [])] after := by
  intro x hx d hkeys
  obtain rfl := List.mem_singleton.mp hx
  cases hkeys

/-- The first directory was brought in line. -/
lemma Settles.next (hline : ∀ d' : Path, d'.components = d.components →
    (∃ id ∈ t.targets, t.interestedIn d' id = true) → t.isArmed d' = true) :
    Settles t [(id, d :: dirs)] [(id, dirs)] := by
  intro x hx d' hkeys hint
  obtain rfl := List.mem_singleton.mp hx
  rcases List.mem_cons.mp hkeys with hd | hlater
  · exact Or.inl (hline d' hd hint)
  · exact Or.inr ⟨_, List.mem_singleton.mpr rfl, rfl, hlater⟩

end Settles

/-- A caller goes on. -/
lemma Watchful.caller (h : Watchful source v) {i : Nat} {c c₀ : Caller} (hi : v.callers[i]? = some c₀)
    (hsure : ∀ w ∈ c.walkers, Sure v.tree v.queue w) (howes : Settles v.engine.table c₀.armings c.armings) :
    Watchful source { v with callers := v.callers.set i c } where
  grounded := h.grounded
  reachable := h.reachable
  rooted := h.rooted
  retraced := h.retraced
  mirrored := h.mirrored
  sure w hw := by
    rcases List.mem_append.mp hw with hw | hw
    · rcases mem_flatMap_set hw with hw | hw
      · exact hsure w hw
      · exact h.sure w (List.mem_append_left _ hw)
    · exact h.sure w (List.mem_append_right _ hw)
  owed := h.owed
  renewal := h.renewal
  reckoned := ⟨h.reckoned.told, h.reckoned.missed⟩
  armed id hid d hd := by
    rcases h.armed id hid d hd with ha | ⟨x, hx, rfl, hkeys⟩
    · exact Or.inl ha
    · rcases List.mem_append.mp hx with hx | hx
      · rcases mem_flatMap_of_set (c := c) hi hx with hx | hx
        · refine (howes x hx d hkeys ⟨_, hid, hd⟩).imp_right ?_
          rintro ⟨y, hy, hid, hkeys⟩
          exact ⟨y, List.mem_append_left _ (mem_flatMap_set_self hi hy), hid, hkeys⟩
        · exact Or.inr ⟨x, List.mem_append_left _ hx, rfl, hkeys⟩
      · exact Or.inr ⟨x, List.mem_append_right _ hx, rfl, hkeys⟩

/-- The loop goes on. -/
lemma Watchful.duty (h : Watchful source v) {loop : Duty} {astray : List (TargetId × Hop)}
    (hsure : ∀ x ∈ loop.renewals, Sure v.tree v.queue x.2 ∧ x.1 < v.engine.table.created.length ∧
      x.2.asked = (v.engine.table.target x.1).requested)
    (howed : ∀ x ∈ loop.owed, x.2 < v.engine.table.created.length)
    (howes : Settles v.engine.table v.loop.armings loop.armings)
    (hreckoned : Reckoned { v with loop, astray }) :
    Watchful source { v with loop, astray } where
  grounded := h.grounded
  reachable := h.reachable
  rooted := h.rooted
  retraced := h.retraced
  mirrored := h.mirrored
  sure w hw := by
    rcases List.mem_append.mp hw with hw | hw
    · exact h.sure w (List.mem_append_left _ hw)
    · obtain ⟨x, hx, rfl⟩ := List.mem_map.mp hw
      exact (hsure x hx).1
  owed := howed
  renewal x hx := (hsure x hx).2
  reckoned := hreckoned
  armed id hid d hd := by
    rcases h.armed id hid d hd with ha | ⟨x, hx, rfl, hkeys⟩
    · exact Or.inl ha
    · rcases List.mem_append.mp hx with hx | hx
      · exact Or.inr ⟨x, List.mem_append_left _ hx, rfl, hkeys⟩
      · refine (howes x hx d hkeys ⟨_, hid, hd⟩).imp_right ?_
        rintro ⟨y, hy, hid, hkeys⟩
        exact ⟨y, List.mem_append_right _ hy, hid, hkeys⟩

/-- The loop goes on, and of what it owed it leaves out only what concerns nobody. -/
lemma Reckoned.onward (h : v.Reckoned) {loop : Duty}
    (hrenewals : ∀ id, (∀ x ∈ loop.renewals, x.1 ≠ id) → ∀ x ∈ v.loop.renewals, x.1 ≠ id)
    (hdue : ∀ event id, (∀ x ∈ loop.renewals, x.1 ≠ id) → (event, id) ∈ v.loop.owed → (event, id) ∈ loop.owed ∨
      (v.engine.table.target id).resolution.classify event.entry.dir event.entry.name = .none) :
    Reckoned { v with loop } where
  told id hid hren x hx hlost := by
    refine (h.told id hid (hrenewals id hren) x hx hlost).imp_left ?_
    rintro ⟨event, howed, hsame⟩
    refine ⟨event, (hdue event id hren howed).resolve_right fun hnone => ?_, hsame⟩
    -- an event of a link on the way concerns the target
    exact Resolution.classify_ne_none.mpr (Resolution.key_mem_interests_of_hop hx hsame) hnone
  missed := h.missed

lemma Watchful.onward (h : Watchful source v) {before loop : Duty} (hloop : v.loop = before)
    (hsure : ∀ x ∈ loop.renewals, Sure v.tree v.queue x.2 ∧ x.1 < v.engine.table.created.length ∧
      x.2.asked = (v.engine.table.target x.1).requested)
    (howed : loop.owed ⊆ before.owed) (howes : Settles v.engine.table before.armings loop.armings)
    (hrenewals : ∀ id, (∀ x ∈ loop.renewals, x.1 ≠ id) → ∀ x ∈ before.renewals, x.1 ≠ id)
    (hdue : ∀ event id, (∀ x ∈ loop.renewals, x.1 ≠ id) → (event, id) ∈ before.owed → (event, id) ∈ loop.owed ∨
      (v.engine.table.target id).resolution.classify event.entry.dir event.entry.name = .none) :
    Watchful source { v with loop } := by
  subst hloop
  exact h.duty hsure (fun x hx => h.owed x (howed hx)) howes (h.reckoned.onward hrenewals hdue)

/-- What was missed is what is lost of these links. -/
structure Counted (f : Snapshot) (queue : List Event) (hops missed : List Hop) : Prop where
  told : ∀ y ∈ hops, y.lost f queue = true → ∃ x ∈ missed, x.same y = true
  missed : ∀ x ∈ missed, x.Sound ∧ x.lost f queue = true ∧ ∃ y ∈ hops, x.same y = true

/-- What was missed of one target is counted anew, and nothing changes for the others. -/
lemma Reckoned.put (h : v.Reckoned) {e : Engine σ} {callers : List Caller} {loop : Duty} {id : TargetId}
    {missed : List Hop} (htargets : ∀ j ∈ e.table.targets, j ≠ id → j ∈ v.engine.table.targets)
    (hothers : ∀ j ≠ id, e.table.target j = v.engine.table.target j)
    (hloop : ∀ j ≠ id, (∀ x ∈ loop.renewals, x.1 ≠ j) →
      (∀ x ∈ v.loop.renewals, x.1 ≠ j) ∧ ∀ event, (event, j) ∈ v.loop.owed → (event, j) ∈ loop.owed)
    (hown : id ∈ e.table.targets → Counted v.tree v.queue (e.table.target id).resolution.hops missed) :
    Reckoned { v with engine := e, callers, loop, astray := v.miss id missed } where
  told j hj hren y hy hlost := by
    by_cases hjid : j = id
    · subst hjid
      obtain ⟨x, hx, hsame⟩ := (hown hj).told y hy hlost
      exact Or.inr ⟨(j, x), List.mem_append_right _ (List.mem_map_of_mem hx), rfl, hsame⟩
    · obtain ⟨hren, hdue⟩ := hloop j hjid hren
      dsimp only at hy
      rw [hothers j hjid] at hy
      rcases h.told j (htargets j hj hjid) hren y hy hlost with ⟨event, howed, hsame⟩ | ⟨x, hx, rfl, hsame⟩
      · exact Or.inl ⟨event, hdue event howed, hsame⟩
      · refine Or.inr ⟨x, List.mem_append_left _ (List.mem_filter.mpr ⟨hx, ?_⟩), rfl, hsame⟩
        exact decide_eq_true hjid
  missed x hx hj := by
    rcases List.mem_append.mp hx with hx | hx
    · obtain ⟨hx, hne⟩ := List.mem_filter.mp hx
      have hne : x.1 ≠ id := of_decide_eq_true hne
      dsimp only
      rw [hothers x.1 hne]
      exact h.missed x hx (htargets x.1 hj hne)
    · obtain ⟨y, hy, rfl⟩ := List.mem_map.mp hx
      exact (hown hj).missed y hy

/-! ### Directories are brought in line -/

lemma interestedIn_alike {t t' : Table} (ha : Alike t t') (d : Path) (id : TargetId) :
    t'.interestedIn d id = t.interestedIn d id := by
  rw [Table.interestedIn, Table.interestedIn, (ha.target id).2.1]

/-- The table stays alike, the source mirrors it, and no directory that anyone is interested in is disarmed. -/
lemma Watchful.engine (h : Watchful source v) {e : Engine σ} (ha : Alike v.engine.table e.table)
    (hm : Mirrored source e)
    (harmed : ∀ d, (∃ id ∈ v.engine.table.targets, v.engine.table.interestedIn d id = true) →
      v.engine.table.isArmed d = true → e.table.isArmed d = true) :
    Watchful source { v with engine := e } where
  grounded := h.grounded
  reachable := h.reachable.elsewhere ha
  rooted id hid := (ha.target id).1.symm ▸ h.rooted id (ha.length ▸ hid)
  retraced id hid := by
    dsimp only
    rw [(ha.target id).1, (ha.target id).2.1]
    exact h.retraced id (ha.length ▸ hid)
  mirrored := hm
  sure := h.sure
  owed x hx := ha.length.symm ▸ h.owed x hx
  renewal x hx := by
    obtain ⟨hlt, hasked⟩ := h.renewal x hx
    exact ⟨ha.length.symm ▸ hlt, hasked.trans (ha.target x.1).1.symm⟩
  reckoned := by
    refine ⟨fun id hid hren x hx => ?_, fun x hx hid => ?_⟩
    · dsimp only at hx
      rw [(ha.target id).2.1] at hx
      exact h.reckoned.told id (ha.targets ▸ hid) hren x hx
    · dsimp only
      rw [(ha.target x.1).2.1]
      exact h.reckoned.missed x hx (ha.targets ▸ hid)
  armed id hid d hd := by
    have hid : id ∈ v.engine.table.targets := ha.targets ▸ hid
    have hd : v.engine.table.interestedIn d id = true := interestedIn_alike ha d id ▸ hd
    exact (h.armed id hid d hd).imp_left (harmed d ⟨id, hid, hd⟩)

lemma contains_of_interestedIn {t : Table} (h : t.Settled) {d : Path}
    (hd : ∃ id ∈ t.targets, t.interestedIn d id = true) : t.index.contains d = true := by
  obtain ⟨id, hid, hd⟩ := hd
  rw [h.contains_iff, h.refcount_eq]
  exact List.length_pos_of_mem (List.mem_filter.mpr ⟨hid, hd⟩)

/-- A directory that is brought in line is armed if anyone is interested in it, and others stay as they are. -/
lemma Watchful.syncOne (h : Watchful source v) (hx : Exclusive native source) {d : Path}
    (hno : Unrefused (v.engine.syncOne native d)) :
    Watchful source { v with engine := v.engine.syncOne native d } ∧
      ∀ d' : Path, d'.components = d.components →
        (∃ id ∈ (v.engine.syncOne native d).table.targets,
          (v.engine.syncOne native d).table.interestedIn d' id = true) →
        (v.engine.syncOne native d).table.isArmed d' = true := by
  obtain ⟨es, hsynced⟩ := Engine.synced_syncOne native v.engine d
  have hused : ∀ d' : Path, d'.components = d.components →
      (∃ id ∈ v.engine.table.targets, v.engine.table.interestedIn d' id = true) →
      (v.engine.syncOne native d).table.isArmed d' = true := by
    intro d' hd' hint
    have hcontains := contains_of_interestedIn h.reachable.settled hint
    refine (hsynced.used d' (Engine.mem_keys_singleton.mpr hd') hcontains).resolve_right fun hrefused => ?_
    refine hno d' (hrefused.mono ?_)
    rw [hsynced.effects]
    exact List.subset_append_right ..
  refine ⟨h.engine hsynced.alike (h.mirrored.syncOne hx d) fun d' hint harmed => ?_, fun d' hd' hint => ?_⟩
  · by_cases hd' : d'.components = d.components
    · exact hused d' hd' hint
    · rw [hsynced.untouched d' fun hmem => hd' (Engine.mem_keys_singleton.mp hmem)]
      exact harmed
  · refine hused d' hd' ?_
    simpa only [hsynced.alike.targets, interestedIn_alike hsynced.alike] using hint

/-! ### Targets -/

section Joined

variable {e : Engine σ} {asked : Path} {r : Resolution}

lemma reachable_joined (native : NativeWatches σ) (h : Reachable e) (hp : e.table.find? asked = none) :
    Reachable (joined asked r e) := by
  have ha := Engine.alike_register native asked r e
  rw [Table.enter_of_none hp] at ha
  dsimp only at ha
  rw [if_pos rfl, Table.enlist_of_active (active_entered e.table asked r)] at ha
  exact (h.register native asked r).elsewhere ha.symm

lemma mem_targets_joined (h : Reachable e) (hp : e.table.find? asked = none) {id : TargetId}
    (hid : id ∈ (joined asked r e).table.targets) :
    id = e.table.created.length ∨ id ∈ e.table.targets ∧ id < e.table.created.length := by
  have hordered := h.settled.ordered
  obtain ⟨x, hx, rfl⟩ := List.mem_map.mp hid
  have hmem : (e.table.entered asked r).At (Keyed.key x) x.2 := Sorted.Ordered.find?_of_mem hordered.alter hx
  rcases (Table.at_entered hordered hp r).mp hmem with ⟨-, hnew⟩ | hold
  · exact Or.inl hnew
  · have hid := (Table.mem_targets hordered).mpr ⟨_, hold⟩
    exact Or.inr ⟨hid, (h.settled.active hid).1⟩

lemma length_joined (e : Engine σ) (asked : Path) (r : Resolution) :
    (joined asked r e).table.created.length = e.table.created.length + 1 := Table.length_entered ..

end Joined

/-- What a resolution that came to its end has missed. -/
lemma Sure.ended {f : Snapshot} {queue : List Event} {w : Walker} {place : Place} (h : Sure f queue w)
    (hover : w.stage = .ended (.ok place)) : Retraced f w.asked place.resolution ∧
      ∀ x, x ∈ w.missed ↔ x ∈ place.hops ∧ x.lost f queue = true := by
  obtain ⟨hrooted, htraced, hmissed⟩ := h
  rw [hover] at htraced hmissed
  exact ⟨htraced.resolution hrooted, hmissed rfl⟩

/-- What was missed of a resolution is what is lost of one that leads the same way. -/
lemma counted_of_same {f : Snapshot} {queue : List Event} {p : Path} {r r' : Resolution} {missed : List Hop}
    (hr : Retraced f p r) (hr' : Retraced f p r') (hsame : r'.same r = true)
    (hmissed : ∀ x, x ∈ missed ↔ x ∈ r.hops ∧ x.lost f queue = true) :
    Counted f queue r'.hops missed := by
  refine ⟨fun y hy hlost => ?_, fun x hx => ?_⟩
  · obtain ⟨x, hx, hyx⟩ := Resolution.exists_hop_of_same hsame hy
    rw [lost_congr (hr'.sound y hy) (hr.sound x hx) hyx] at hlost
    exact ⟨x, (hmissed x).mpr ⟨hx, hlost⟩, Hop.same_symm hyx⟩
  · obtain ⟨hx, hlost⟩ := (hmissed x).mp hx
    obtain ⟨y, hy, hxy⟩ := Resolution.exists_hop_of_same (Resolution.same_symm hsame) hx
    exact ⟨hr.sound x hx, hlost, y, hy, hxy⟩

/-- The call owes a new target its directories. -/
lemma Watchful.join (h : Watchful source v) (native : NativeWatches σ) {i : Nat} {w : Walker} {place : Place}
    (hi : v.callers[i]? = some (.resolving w)) (hover : w.stage = .ended (.ok place))
    (hp : v.engine.table.find? w.asked = none) :
    Watchful source
      { v with
        engine := joined w.asked place.resolution v.engine
        callers := v.callers.set i (.arming v.engine.table.created.length place.resolution.directories)
        astray := v.miss v.engine.table.created.length w.missed } := by
  have hnew : (joined w.asked place.resolution v.engine).table.target v.engine.table.created.length =
      { requested := w.asked, resolution := place.resolution } := Table.target_entered_new ..
  have hold : ∀ {id}, id < v.engine.table.created.length →
      (joined w.asked place.resolution v.engine).table.target id = v.engine.table.target id := fun hid =>
    Table.target_entered_old _ _ hid
  have hsure : Sure v.tree v.queue w :=
    h.sure w (List.mem_append_left _ (mem_flatMap_of_getElem? hi (List.mem_singleton.mpr rfl)))
  have hother : ∀ {id}, id ≠ v.engine.table.created.length →
      (joined w.asked place.resolution v.engine).table.target id = v.engine.table.target id := fun hne =>
    (Table.target_entered ..).trans (if_neg hne)
  obtain ⟨hretraced, hmissed⟩ := hsure.ended hover
  refine ⟨h.grounded, reachable_joined native h.reachable hp, ?_, ?_, h.mirrored, ?_, ?_, ?_, ?_, ?_⟩
  · intro id hid
    rcases Nat.lt_succ_iff_lt_or_eq.mp (length_joined v.engine w.asked place.resolution ▸ hid) with hlt | rfl
    · rw [hold hlt]
      exact h.rooted id hlt
    · rw [hnew]
      exact hsure.rooted
  · intro id hid
    rcases Nat.lt_succ_iff_lt_or_eq.mp (length_joined v.engine w.asked place.resolution ▸ hid) with hlt | rfl
    · rw [hold hlt]
      exact h.retraced id hlt
    · rw [hnew]
      exact hretraced
  · intro w' hw'
    rcases List.mem_append.mp hw' with hw' | hw'
    · rcases mem_flatMap_set hw' with hw' | hw'
      · cases hw'
      · exact h.sure w' (List.mem_append_left _ hw')
    · exact h.sure w' (List.mem_append_right _ hw')
  · intro x hx
    show x.2 < (joined w.asked place.resolution v.engine).table.created.length
    rw [length_joined]
    exact Nat.lt_succ_of_lt (h.owed x hx)
  · intro x hx
    obtain ⟨hlt, hasked⟩ := h.renewal x hx
    refine ⟨?_, ?_⟩
    · show x.1 < (joined w.asked place.resolution v.engine).table.created.length
      rw [length_joined]
      exact Nat.lt_succ_of_lt hlt
    · rw [hold hlt]
      exact hasked
  · refine h.reckoned.put (fun j hj hne => ?_) (fun j hne => hother hne) (fun j _ hren => ⟨hren, fun _ => id⟩)
      fun _ => ?_
    · exact ((mem_targets_joined h.reachable hp hj).resolve_left hne).1
    · rw [hnew]
      exact counted_of_same hretraced hretraced (Resolution.same_refl _) hmissed
  · intro id hid d hd
    rcases mem_targets_joined h.reachable hp hid with rfl | ⟨hid, hlt⟩
    · right
      rw [Engine.interestedIn_iff_directories, hnew] at hd
      refine ⟨_, List.mem_append_left _ (mem_flatMap_set_self hi (List.mem_singleton.mpr rfl)), rfl, hd⟩
    · rw [Table.interestedIn, hold hlt] at hd
      rcases h.armed id hid d hd with harmed | ⟨x, hx, hid, hkeys⟩
      · exact Or.inl harmed
      · right
        rcases List.mem_append.mp hx with hx | hx
        · rcases mem_flatMap_of_set hi hx with hx | hx
          · cases hx
          · exact ⟨x, List.mem_append_left _ hx, hid, hkeys⟩
        · exact ⟨x, List.mem_append_right _ hx, hid, hkeys⟩

section Resolving

variable {event : Event} {ids : List TargetId} {id : TargetId} {w : Walker} {place : Place}

lemma Watchful.resolving (h : Watchful source v) (hloop : v.loop = .resolving event ids id w) :
    Sure v.tree v.queue w ∧ id < v.engine.table.created.length ∧
      w.asked = (v.engine.table.target id).requested := by
  have hmem : (id, w) ∈ v.loop.renewals := by
    rw [hloop]
    exact List.mem_singleton.mpr rfl
  exact ⟨h.sure w (List.mem_append_right _ (List.mem_map.mpr ⟨_, hmem, rfl⟩)), h.renewal _ hmem⟩

lemma Watchful.owed_resolving (h : Watchful source v) (hloop : v.loop = .resolving event ids id w) :
    ∀ x ∈ ids.map (event, ·), x.2 < v.engine.table.created.length := by
  have howed := h.owed
  rw [hloop] at howed
  exact howed

/-- A renewal that ends leaves alone what is due to others. -/
lemma others_resolving (hloop : v.loop = .resolving event ids id w) {loop : Duty}
    (howed : loop.owed = ids.map (event, ·)) : ∀ j ≠ id, (∀ x ∈ v.loop.renewals, x.1 ≠ j) ∧
      ∀ event, (event, j) ∈ v.loop.owed → (event, j) ∈ loop.owed := by
  intro j hne
  rw [hloop, howed]
  refine ⟨fun x hx => ?_, fun _ hdue => hdue⟩
  obtain rfl := List.mem_singleton.mp hx
  exact hne.symm

/-- The loop is done with a target that stays as it is. -/
lemma Watchful.kept (h : Watchful source v) (hloop : v.loop = .resolving event ids id w) {missed : List Hop}
    (hown : id ∈ v.engine.table.targets →
      Counted v.tree v.queue (v.engine.table.target id).resolution.hops missed) :
    Watchful source { v with loop := .sorting event ids, astray := v.miss id missed } := by
  have hreckoned : Reckoned { v with loop := .sorting event ids, astray := v.miss id missed } :=
    h.reckoned.put (fun j hj _ => hj) (fun _ _ => rfl) (fun j hne _ => others_resolving hloop rfl j hne) hown
  refine h.duty (List.forall_mem_nil _) (h.owed_resolving hloop) ?_ hreckoned
  rw [hloop]
  exact .nil

lemma Watchful.confirm (h : Watchful source v) (hloop : v.loop = .resolving event ids id w)
    (hover : w.stage = .ended (.ok place)) (hsame : (v.engine.table.target id).retired = true ∨
      (v.engine.table.target id).resolution.same place.resolution = true) :
    Watchful source { v with loop := .sorting event ids, astray := v.miss id w.missed } := by
  obtain ⟨hsure, hid, hasked⟩ := h.resolving hloop
  obtain ⟨hretraced, hmissed⟩ := hsure.ended hover
  refine h.kept hloop fun hmem => ?_
  have hactive := (h.reachable.settled.active hmem).2
  have hsame := hsame.resolve_left (by rw [hactive]; exact Bool.false_ne_true)
  exact counted_of_same hretraced (hasked ▸ h.retraced id hid) hsame hmissed

/-- A target whose resolution failed stays as it is, and misses whatever is lost of it. -/
lemma Watchful.fail (h : Watchful source v) (hloop : v.loop = .resolving event ids id w) :
    Watchful source { v with loop := .sorting event ids, astray := v.miss id (v.lostHops id) } := by
  have hretraced := h.retraced id (h.resolving hloop).2.1
  exact h.kept hloop fun _ =>
    counted_of_same hretraced hretraced (Resolution.same_refl _) fun x => List.mem_filter

lemma Watchful.repoint (h : Watchful source v) (native : NativeWatches σ) {dirs : List Path}
    (hloop : v.loop = .resolving event ids id w) (hover : w.stage = .ended (.ok place))
    (hturned : (v.engine.table.repoint id place.resolution).2 = v.engine.table.repointed id place.resolution)
    (hdirs : ∀ d ∈ place.resolution.directories, d.components ∈ keys dirs) :
    Watchful source
      { v with
        engine := { v.engine with table := v.engine.table.repointed id place.resolution }
        loop := .arming event ids id dirs
        astray := v.miss id w.missed } := by
  obtain ⟨hsure, hid, hasked⟩ := h.resolving hloop
  obtain ⟨hretraced, hmissed⟩ := hsure.ended hover
  have htarget : ∀ j, (v.engine.table.repointed id place.resolution).target j =
      if j = id then { v.engine.table.target j with resolution := place.resolution } else v.engine.table.target j :=
    Table.target_repointed v.engine.table hid place.resolution
  have hlength : (v.engine.table.repointed id place.resolution).created.length = v.engine.table.created.length :=
    Table.length_modify ..
  have hreachable : Reachable { v.engine with table := v.engine.table.repointed id place.resolution } := by
    have ha := Engine.alike_repoint native id place.resolution v.engine
    rw [hturned] at ha
    exact (h.reachable.repoint native id place.resolution hid).elsewhere ha.symm
  refine ⟨h.grounded, hreachable, ?_, ?_, h.mirrored, ?_, ?_, List.forall_mem_nil _, ?_, ?_⟩
  · intro j hj
    rw [(Table.frame_repointed v.engine.table id place.resolution j).1]
    exact h.rooted j (hlength ▸ hj)
  · intro j hj
    rw [(Table.frame_repointed v.engine.table id place.resolution j).1]
    by_cases hjid : j = id
    · subst hjid
      rw [htarget, if_pos rfl]
      exact hasked ▸ hretraced
    · rw [htarget, if_neg hjid]
      exact h.retraced j (hlength ▸ hj)
  · intro w' hw'
    rcases List.mem_append.mp hw' with hw' | hw'
    · exact h.sure w' (List.mem_append_left _ hw')
    · cases hw'
  · intro x hx
    exact hlength.symm ▸ h.owed_resolving hloop x hx
  · refine h.reckoned.put (fun j hj _ => hj) (fun j hne => (htarget j).trans (if_neg hne))
      (fun j hne _ => others_resolving hloop rfl j hne) fun _ => ?_
    rw [htarget, if_pos rfl]
    exact counted_of_same hretraced hretraced (Resolution.same_refl _) hmissed
  · intro j hj d hd
    by_cases heq : j = id
    · subst heq
      right
      rw [Engine.interestedIn_iff_directories, htarget, if_pos rfl] at hd
      obtain ⟨d', hd', hkey⟩ := Sorted.mem_keys.mp hd
      refine ⟨_, List.mem_append_right _ (List.mem_singleton.mpr rfl), rfl, ?_⟩
      have hkeys := hdirs d' hd'
      rwa [show d'.components = d.components from hkey] at hkeys
    · rw [Table.interestedIn, htarget, if_neg heq] at hd
      rcases h.armed j hj d hd with harmed | ⟨x, hx, hxj, hkeys⟩
      · exact Or.inl harmed
      · right
        rcases List.mem_append.mp hx with hx | hx
        · exact ⟨x, List.mem_append_left _ hx, hxj, hkeys⟩
        · rw [hloop] at hx
          cases hx

end Resolving

/-! ### Changes of links -/

section Reckon

variable {f : Snapshot} {queue : List Event} {e : Entry}

lemma walkers_reckon (c : Caller) : (c.reckon f queue e).walkers = c.walkers.map (Walker.reckon f queue e) := by
  cases c <;> rfl

lemma armings_reckon (c : Caller) : (c.reckon f queue e).armings = c.armings := by cases c <;> rfl

lemma mem_walkers_reckon {callers : List Caller} {w : Walker}
    (h : w ∈ (callers.map (Caller.reckon f queue e)).flatMap Caller.walkers) :
    ∃ w₀ ∈ callers.flatMap Caller.walkers, w₀.reckon f queue e = w := by
  rw [List.flatMap_map] at h
  obtain ⟨c, hc, hw⟩ := List.mem_flatMap.mp h
  rw [walkers_reckon] at hw
  obtain ⟨w₀, hw₀, rfl⟩ := List.mem_map.mp hw
  exact ⟨w₀, List.mem_flatMap.mpr ⟨c, hc, hw₀⟩, rfl⟩

lemma flatMap_armings_reckon (callers : List Caller) :
    (callers.map (Caller.reckon f queue e)).flatMap Caller.armings = callers.flatMap Caller.armings := by
  rw [List.flatMap_map]
  exact List.flatMap_congr fun c _ => armings_reckon c

lemma renewals_reckon (loop : Duty) :
    (loop.reckon f queue e).renewals = loop.renewals.map fun x => (x.1, x.2.reckon f queue e) := by
  cases loop <;> rfl

lemma armings_duty_reckon (loop : Duty) : (loop.reckon f queue e).armings = loop.armings := by cases loop <;> rfl

lemma owed_reckon (loop : Duty) : (loop.reckon f queue e).owed = loop.owed := by cases loop <;> rfl

end Reckon

/-- The loop takes an event. Whoever is concerned is registered, and found, or misses it. -/
lemma Watchful.take (h : Watchful source v) {event : Event} {queue : List Event} (hloop : v.loop = .idle)
    (hqueue : v.queue = event :: queue) :
    Watchful source
      { v with
        queue
        callers := v.callers.map (Caller.reckon v.tree queue event.entry)
        loop := .sorting event (v.engine.table.targetsFor event.entry) } := by
  have hsettled := h.reachable.settled
  refine ⟨h.grounded, h.reachable, h.rooted, h.retraced, h.mirrored, ?_, ?_, List.forall_mem_nil _, ⟨?_, ?_⟩, ?_⟩
  · intro w hw
    rcases List.mem_append.mp hw with hw | hw
    · obtain ⟨w₀, hw₀, rfl⟩ := mem_walkers_reckon hw
      have hsure := h.sure w₀ (List.mem_append_left _ hw₀)
      rw [hqueue] at hsure
      exact hsure.reckon (confined_take event v.tree queue)
    · cases hw
  · intro x hx
    obtain ⟨j, hj, rfl⟩ := List.mem_map.mp hx
    rw [hsettled.targetsFor_eq] at hj
    exact (hsettled.active (List.mem_filter.mp hj).1).1
  · intro j hj _ x hx hlost
    obtain ⟨hstands, hrest⟩ := lost_iff.mp hlost
    by_cases hsame : x.entry.same event.entry = true
    · -- this is the event of the link, and the index finds the target
      refine Or.inl ⟨event, List.mem_map_of_mem ?_, hsame⟩
      rw [hsettled.targetsFor_eq]
      refine List.mem_filter.mpr ⟨hj, decide_eq_true ?_⟩
      exact Resolution.classify_ne_none.mpr (Resolution.key_mem_interests_of_hop hx hsame)
    · rw [Bool.not_eq_true] at hsame
      have hbefore : x.lost v.tree v.queue = true := by
        rw [hqueue, lost_iff]
        exact ⟨hstands, List.forall_mem_cons.mpr ⟨hsame, hrest⟩⟩
      refine Or.inr ((h.reckoned.told j hj (by simp [hloop, Duty.renewals]) x hx hbefore).resolve_left ?_)
      rintro ⟨event', howed, -⟩
      rw [hloop] at howed
      cases howed
  · intro x hx hj
    obtain ⟨hsound, hlost, hhop⟩ := h.reckoned.missed x hx hj
    rw [hqueue, lost_iff] at hlost
    exact ⟨hsound, lost_iff.mpr ⟨hlost.1, fun event' hmem => hlost.2 event' (List.mem_cons_of_mem _ hmem)⟩, hhop⟩
  · intro j hj d hd
    refine (h.armed j hj d hd).imp_right ?_
    rintro ⟨x, hx, hxj, hkeys⟩
    refine ⟨x, ?_, hxj, hkeys⟩
    rw [armings, hloop] at hx
    rw [armings, flatMap_armings_reckon]
    exact hx

lemma mem_exposed {e : Entry} {x : TargetId × Hop} : x ∈ v.exposed e ↔
    v.Owes x.1 e.dir ∧ x.2 ∈ (v.engine.table.target x.1).resolution.hops ∧ x.2.lost v.tree v.queue = true ∧
      x.2.entry.same e = true := by
  obtain ⟨id, h⟩ := x
  simp only [exposed, lostHops, Owes, List.mem_flatMap, List.mem_filter, List.mem_map, List.any_eq_true,
    Sorted.mem_keys, Path.same_iff, Prod.mk.injEq]
  constructor
  · rintro ⟨y, ⟨hy, hdirs⟩, h', ⟨⟨hh, hlost⟩, hsame⟩, rfl, rfl⟩
    exact ⟨⟨y, hy, rfl, hdirs⟩, hh, hlost, hsame⟩
  · rintro ⟨⟨y, hy, rfl, hdirs⟩, hh, hlost, hsame⟩
    exact ⟨y, ⟨hy, hdirs⟩, h, ⟨⟨hh, hlost⟩, hsame⟩, rfl, rfl⟩

section Changed

variable {entry : Entry} {f : Snapshot} {queue : List Event}

/-- A target that leads through a link is owed a look at its directory, if that is not watched. -/
lemma Watchful.owes_of_unwatched (h : Watchful source v) {id : TargetId} (hid : id ∈ v.engine.table.targets) {x : Hop}
    (hx : x ∈ (v.engine.table.target id).resolution.hops) (hsame : x.entry.same entry = true)
    (hunwatched : (source v.engine.world).isWatching entry.dir = false) : v.Owes id entry.dir := by
  have hint : v.engine.table.interestedIn entry.dir id = true :=
    Table.interestedIn_iff.mpr ⟨entry.name, Resolution.key_mem_interests_of_hop hx hsame⟩
  rw [h.mirrored.isWatching_eq] at hunwatched
  exact (h.armed id hid entry.dir hint).resolve_left fun harmed => by cases hunwatched.symm.trans harmed

/-- After a change of one link, what targets have missed of it is counted anew. -/
lemma Watchful.reckoned_after (h : Watchful source v) (hc : Confined entry v.tree v.queue f queue)
    (howes : ∀ id ∈ v.engine.table.targets, ∀ x ∈ (v.engine.table.target id).resolution.hops,
      x.entry.same entry = true → x.lost f queue = true → v.Owes id entry.dir) :
    Reckoned ({ v with tree := f, queue }.reckon entry) where
  told id hid hren x hx hlost := by
    have hren : ∀ y ∈ v.loop.renewals, y.1 ≠ id := by
      intro y hy
      refine hren (y.1, y.2.reckon f queue entry) ?_
      dsimp only [reckon]
      rw [renewals_reckon]
      exact List.mem_map_of_mem hy
    by_cases hsame : x.entry.same entry = true
    · have hexposed : (id, x) ∈ ({ v with tree := f, queue } : LiveTable σ).exposed entry :=
        mem_exposed.mpr ⟨howes id hid x hx hsame hlost, hx, hlost, hsame⟩
      exact Or.inr ⟨(id, x), List.mem_append_right _ hexposed, rfl, Hop.same_refl x⟩
    · rw [Bool.not_eq_true] at hsame
      have hsound := (h.retraced id (h.reachable.settled.active hid).1).sound x hx
      have hbefore := (hc.lost x hsound hsame).symm.trans hlost
      rcases h.reckoned.told id hid hren x hx hbefore with ⟨event, hdue, hevent⟩ | ⟨y, hy, hyid, hyx⟩
      · refine Or.inl ⟨event, ?_, hevent⟩
        dsimp only [reckon]
        rw [owed_reckon]
        exact hdue
      · refine Or.inr ⟨y, List.mem_append_left _ (List.mem_filter.mpr ⟨hy, ?_⟩), hyid, hyx⟩
        rw [Entry.same_congr (Hop.entry_same hyx), hsame]
        rfl
  missed x hx hid := by
    rcases List.mem_append.mp hx with hx | hx
    · obtain ⟨hx, hother⟩ := List.mem_filter.mp hx
      obtain ⟨hsound, hlost, hhop⟩ := h.reckoned.missed x hx hid
      exact ⟨hsound, (hc.lost x.2 hsound (by simpa using hother)).trans hlost, hhop⟩
    · obtain ⟨-, hhop, hlost, -⟩ := mem_exposed.mp hx
      have hlt := (h.reachable.settled.active hid).1
      exact ⟨(h.retraced x.1 hlt).sound x.2 hhop, hlost, x.2, hhop, Hop.same_refl x.2⟩

/-- A link is retargeted. If its directory is not watched, the targets that lead through the link are owed a look at the
directory. -/
lemma Watchful.retarget (h : Watchful source v) {link target : Path} (hentry : link.entry? = some entry)
    (hqueue : queue = if (source v.engine.world).isWatching entry.dir then v.queue ++ [⟨entry, .modify⟩] else v.queue) :
    Watchful source ({ v with tree := v.tree.retarget link target, queue }.reckon entry) := by
  have hconfined : Confined entry v.tree v.queue (v.tree.retarget link target) queue := by
    refine confined_retarget hentry ?_
    rw [hqueue]
    split
    · exact Or.inr rfl
    · exact Or.inl rfl
  refine ⟨h.grounded, h.reachable, h.rooted, fun id hid => (h.retraced id hid).congr rfl, h.mirrored, ?_, ?_, ?_,
    h.reckoned_after hconfined fun id hid x hx hsame hlost => h.owes_of_unwatched hid hx hsame ?_, ?_⟩
  · intro w hw
    rcases List.mem_append.mp hw with hw | hw
    · obtain ⟨w₀, hw₀, rfl⟩ := mem_walkers_reckon hw
      exact (h.sure w₀ (List.mem_append_left _ hw₀)).reckon hconfined
    · dsimp only [reckon] at hw
      rw [renewals_reckon, List.map_map] at hw
      obtain ⟨x, hx, rfl⟩ := List.mem_map.mp hw
      exact (h.sure x.2 (List.mem_append_right _ (List.mem_map_of_mem hx))).reckon hconfined
  · intro x hx
    dsimp only [reckon] at hx
    rw [owed_reckon] at hx
    exact h.owed x hx
  · intro x hx
    dsimp only [reckon] at hx
    rw [renewals_reckon] at hx
    obtain ⟨x₀, hx₀, rfl⟩ := List.mem_map.mp hx
    exact h.renewal x₀ hx₀
  · -- a link that is lost was told to nobody, so its directory was not watched
    by_contra hwatched
    rw [Bool.not_eq_false] at hwatched
    have htold : (⟨entry, .modify⟩ : Event) ∈ queue := by
      rw [hqueue, if_pos hwatched]
      exact List.mem_append_right _ (List.mem_singleton.mpr rfl)
    have hother := (lost_iff.mp hlost).2 _ htold
    rw [hsame] at hother
    cases hother
  · intro id hid d hd
    refine (h.armed id hid d hd).imp_right ?_
    rintro ⟨x, hx, hxid, hkeys⟩
    refine ⟨x, ?_, hxid, hkeys⟩
    dsimp only [reckon, armings]
    rw [flatMap_armings_reckon, armings_duty_reckon]
    exact hx

end Changed

/-! ### Steps -/

lemma Watchful.ask (h : Watchful source v) {asked : Path} (hasked : asked.isRooted = true) :
    Watchful source { v with callers := v.callers ++ [.resolving (.start asked)] } where
  grounded := h.grounded
  reachable := h.reachable
  rooted := h.rooted
  retraced := h.retraced
  mirrored := h.mirrored
  sure w hw := by
    rcases List.mem_append.mp hw with hw | hw
    · rw [List.flatMap_append] at hw
      rcases List.mem_append.mp hw with hw | hw
      · exact h.sure w (List.mem_append_left _ hw)
      · obtain rfl : w = .start asked := by simpa [Caller.walkers] using hw
        exact .start hasked
    · exact h.sure w (List.mem_append_right _ hw)
  owed := h.owed
  renewal := h.renewal
  reckoned := ⟨h.reckoned.told, h.reckoned.missed⟩
  armed j hj d hd := by
    refine (h.armed j hj d hd).imp_right ?_
    rintro ⟨x, hx, hxj, hkeys⟩
    refine ⟨x, ?_, hxj, hkeys⟩
    rcases List.mem_append.mp hx with hx | hx
    · refine List.mem_append_left _ ?_
      rw [List.flatMap_append]
      exact List.mem_append_left _ hx
    · exact List.mem_append_right _ hx

lemma Stepped.exists_effects (h : v.Stepped native source v') :
    ∃ es, v'.engine.effects = v.engine.effects ++ es := by
  have hsync : ∀ d, ∃ es, (v.engine.syncOne native d).effects = v.engine.effects ++ es := fun d => by
    obtain ⟨es, hsynced⟩ := Engine.synced_syncOne native v.engine d
    exact ⟨es, hsynced.effects⟩
  cases h with
  | arm | rearm => exact hsync _
  | complete => exact ⟨_, rfl⟩
  | stay | ask | leave | walk | join | take | finish | skip | renew | rewalk | fail | confirm | repoint | handled
  | retarget => exact ⟨[], (List.append_nil _).symm⟩

/-- **Every step keeps the watch.** -/
theorem Watchful.step (h : Watchful source v) (hx : Exclusive native source) (hno : Unrefused v'.engine)
    (hstep : v.Stepped native source v') : Watchful source v' := by
  cases hstep with
  | stay => exact h
  | ask hasked =>
    have hgrounded : v.tree.filesystem.Grounded := fun (_ : Unit) => h.grounded
    exact h.ask (hgrounded.isRooted (Prod.ext hasked rfl))
  | leave hi => exact h.caller hi (List.forall_mem_nil _) .nil
  | walk hi =>
    refine h.caller hi (fun w hw => ?_) .nil
    obtain rfl := List.mem_singleton.mp hw
    exact (h.sure _ (List.mem_append_left _ (mem_flatMap_of_getElem? hi (List.mem_singleton.mpr rfl)))).ask
  | join hi hover hp => exact h.join native hi hover hp
  | arm hi =>
    obtain ⟨hsynced, hline⟩ := h.syncOne hx hno
    exact hsynced.caller hi (List.forall_mem_nil _) (.next hline)
  | @complete i id r hi =>
    have hsaid : Watchful source { v with engine := v.engine.say r } :=
      h.engine (Alike.refl _) h.mirrored fun _ _ ha => ha
    exact hsaid.caller hi (List.forall_mem_nil _) .nothing
  | take hloop hqueue => exact h.take hloop hqueue
  | finish hloop =>
    exact h.onward hloop (List.forall_mem_nil _) (List.nil_subset _) .nil (fun _ _ => List.forall_mem_nil _)
      fun _ _ _ hdue => by cases hdue
  | @skip event id ids hloop hnone =>
    refine h.onward hloop (List.forall_mem_nil _) (List.subset_cons_self ..) .nil (fun _ _ => List.forall_mem_nil _)
      fun event' id' _ hdue => ?_
    rcases List.mem_cons.mp hdue with heq | hdue
    · obtain ⟨rfl, rfl⟩ := Prod.mk.inj heq
      exact Or.inr hnone
    · exact Or.inl hdue
  | @renew event id ids hloop =>
    have hid : id < v.engine.table.created.length := h.owed (event, id) (by rw [hloop]; exact List.mem_cons_self ..)
    refine h.onward hloop (fun x hx => ?_) (List.subset_cons_self ..) .nil (fun _ _ => List.forall_mem_nil _)
      fun event' id' hren hdue => ?_
    · obtain rfl := List.mem_singleton.mp hx
      exact ⟨.start (h.rooted id hid), hid, rfl⟩
    · have hne : id ≠ id' := hren _ (List.mem_singleton.mpr rfl)
      refine Or.inl ((List.mem_cons.mp hdue).resolve_left fun heq => hne ?_)
      exact (Prod.mk.inj heq).2.symm
  | @rewalk event id ids w hloop =>
    obtain ⟨hsure, hid, hasked⟩ := h.resolving hloop
    refine h.onward hloop (fun x hx => ?_) (List.Subset.refl _) .nil (fun id' hren x hx => ?_)
      fun event' id' _ hdue => Or.inl hdue
    · obtain rfl := List.mem_singleton.mp hx
      exact ⟨hsure.ask, hid, hasked⟩
    · obtain rfl := List.mem_singleton.mp hx
      exact hren (id, w.ask v.tree) (List.mem_singleton.mpr rfl)
  | fail hloop => exact h.fail hloop
  | confirm hloop hover hsame => exact h.confirm hloop hover hsame
  | repoint hloop hover hturned hdirs => exact h.repoint native hloop hover hturned hdirs
  | @rearm event id ids d dirs hloop =>
    obtain ⟨hsynced, hline⟩ := h.syncOne hx hno
    exact hsynced.onward hloop (List.forall_mem_nil _) (List.Subset.refl _) (.next hline)
      (fun _ _ => List.forall_mem_nil _) fun _ _ _ hdue => Or.inl hdue
  | @handled event id ids hloop =>
    exact h.onward hloop (List.forall_mem_nil _) (List.Subset.refl _) .nothing (fun _ _ => List.forall_mem_nil _)
      fun _ _ _ hdue => Or.inl hdue
  | retarget hentry hqueue => exact h.retarget hentry hqueue

theorem Watchful.leads (h : Watchful source v) (hx : Exclusive native source) (hleads : Leads native source v v')
    (hno : Unrefused v'.engine) : Watchful source v' := by
  induction hleads with
  | refl => exact h
  | tail _ hstep ih =>
    obtain ⟨m, hm⟩ := hstep
    obtain ⟨es, heffects⟩ := (stepped hm).exists_effects
    exact (ih (hno.of_append heffects)).step hx hno (stepped hm)

end LinkWatch.LiveTable
