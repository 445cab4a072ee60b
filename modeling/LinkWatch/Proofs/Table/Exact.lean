import LinkWatch.Proofs.Table.Indexed

/-!
What a table at rest knows. A table is *settled* if no target is joining or leaving: then every target
that was ever created is registered or retired, and the index holds the interests of the registered targets, no
more and no less. So a look-up in the index finds what a scan of all registered targets would
(`Settled.exact`), and the index depends on these targets and where they lead alone (`Settled.view_eq`).
-/

namespace LinkWatch

open Sorted (keys Ordered)

/-! ### The index up to spelling -/

namespace Registration

/-- What the books of a directory say, however paths are written. -/
def view (reg : Registration) : List (FileName × List (List Component)) × List (List Component × Nat) :=
  (reg.names.map fun e => (Keyed.key e.1, keys e.2), reg.holders.map fun e => (Keyed.key e.1, e.2))

/-- Books without a surplus say what the relation between names and requested paths says. -/
lemma Sound.view_eq {a b : Registration} (ha : Sound (fun _ => 0) a) (hb : Sound (fun _ => 0) b)
    (h : ∀ p n, p ∈ keys (a.paths n) ↔ p ∈ keys (b.paths n)) : a.view = b.view := by
  have hnames : ∀ p, a.namesOf p = b.namesOf p := by
    intro p
    ext n
    rw [mem_namesOf, mem_namesOf, h]
  have hpaths : ∀ n, keys (a.paths n) = keys (b.paths n) := fun n =>
    Sorted.keys_ext (ha.paths n) (hb.paths n) fun p => h p n
  -- a name is there exactly if it concerns a path
  have hname : ∀ {c : Registration}, Sound (fun _ => 0) c → ∀ n,
      (Sorted.find? n c.names).map keys = if keys (c.paths n) = [] then none else some (keys (c.paths n)) := by
    intro c hc n
    cases hn : Sorted.find? n c.names with
    | none =>
      have hps : c.paths n = [] := by rw [Registration.paths, hn, Option.getD_none]
      simp [hps]
    | some ps =>
      have hps : c.paths n = ps := by rw [Registration.paths, hn, Option.getD_some]
      have hne := hc.paths_ne n (Sorted.isSome_find?.mp (by simp [hn]))
      rw [hps] at hne
      simp [hps, keys, hne]
  refine Prod.ext ?_ ?_
  · refine Sorted.map_eq_of_find? ha.names hb.names fun n => ?_
    rw [hname ha, hname hb, hpaths]
  · refine Sorted.map_eq_of_find? (f := id) (g := id) ha.holders hb.holders fun p => ?_
    rw [ha.count, hb.count, hnames]

end Registration

namespace Index

/-- What the index says, however paths are written. -/
def view (x : Index) :
    List (List Component × List (FileName × List (List Component)) × List (List Component × Nat)) :=
  x.directories.map fun e => (Keyed.key e.1, e.2.view)

/-- An index without a surplus is determined by the relation. -/
theorem Sound.view_eq {x y : Index} (hx : x.Sound fun _ _ => 0) (hy : y.Sound fun _ _ => 0)
    (h : ∀ p k, x.Concerns p k ↔ y.Concerns p k) : x.view = y.view := by
  have hreg : ∀ d, (x.registration d).view = (y.registration d).view := fun d =>
    (hx.registration d).view_eq (hy.registration d) fun p n => h p (d, n)
  have hmem : ∀ {z : Index}, z.Sound (fun _ _ => 0) → ∀ {d}, d ∈ keys z.directories ↔ ∃ p n, z.Concerns p (d, n) := by
    intro z hz d
    rw [hz.mem_keys_directories]
    refine exists_congr fun p => ?_
    rw [(hz.registration d).mem_keys_holders]
    simp [Concerns]
  refine Sorted.map_eq_of_find? hx.directories hy.directories fun d => ?_
  have hfind : ∀ {z : Index}, (Sorted.find? d z.directories).map Registration.view =
      if (Sorted.find? d z.directories).isSome then some (z.registration d).view else none := by
    intro z
    cases hd : Sorted.find? d z.directories with
    | none => rfl
    | some reg => simp [registration_of_find? hd]
  have hsome : (Sorted.find? d x.directories).isSome = (Sorted.find? d y.directories).isSome := by
    rw [Bool.eq_iff_iff, Sorted.isSome_find?, Sorted.isSome_find?, hmem hx, hmem hy]
    simp only [h]
  rw [hfind, hfind, hsome, hreg]

end Index

namespace Table

variable {t : Table}

/-- A table between operations. -/
abbrev Settled (t : Table) : Prop := Indexed (fun _ => False) (fun _ => False) t

/-! ### Operations -/

/-- A target is registered exactly as long as it is not retired. -/
lemma Settled.at_iff (h : t.Settled) {p : List Component} {id : TargetId} :
    t.At p id ↔ id < t.created.length ∧ (t.target id).retired = false ∧ t.pathOf id = p := by
  constructor
  · intro hp
    obtain ⟨hid, hpath, hact⟩ := h.known hp
    exact ⟨hid, hact, hpath⟩
  · rintro ⟨hid, hact, rfl⟩
    obtain ⟨q, hq⟩ := (h.accounted hid hact).resolve_right not_false
    rwa [(h.known hq).2.1]

lemma Settled.active (h : t.Settled) {id : TargetId} (hid : id ∈ t.targets) :
    id < t.created.length ∧ (t.target id).retired = false := by
  obtain ⟨p, hp⟩ := (mem_targets h.ordered).mp hid
  exact ⟨(h.known hp).1, (h.known hp).2.2⟩

/-- No two registered targets have one path. -/
lemma Settled.eq_of_pathOf (h : t.Settled) {a b : TargetId} (ha : a ∈ t.targets) (hb : b ∈ t.targets)
    (hab : t.pathOf a = t.pathOf b) : a = b := by
  obtain ⟨p, hp⟩ := (mem_targets h.ordered).mp ha
  obtain ⟨q, hq⟩ := (mem_targets h.ordered).mp hb
  have hpq : p = q := (h.known hp).2.1.symm.trans (hab.trans (h.known hq).2.1)
  exact hp.unique (hpq ▸ hq)

/-- Only the target that is registered for a path has noted interests under it. -/
lemma Settled.at_of_concerns (h : t.Settled) {p : List Component} {k : EntryKey} (hc : t.index.Concerns p k) :
    ∃ id, t.At p id ∧ k ∈ t.interestsOf id := by
  obtain ⟨id, hid, hact, hp, hk⟩ := h.held hc
  exact ⟨id, h.at_iff.mpr ⟨hid, hact, hp⟩, hk⟩

theorem Settled.register (h : t.Settled) (p : Path) (r : Resolution) :
    (let out := t.enter p r; if out.1.2 then (out.2.enlist out.1.1).2 else out.2).Settled := by
  cases hp : t.find? p with
  | some id => simpa [enter_of_some hp] using h
  | none =>
    have hfresh : ¬ (t.entered p r).Doubles t.created.length ((t.entered p r).interestsOf t.created.length) := by
      rintro ⟨k, -, hc⟩
      rw [pathOf, target_entered_new] at hc
      obtain ⟨id, hat, -⟩ := h.at_of_concerns hc
      rw [find?] at hp
      rw [At, hp] at hat
      cases hat
    have hdone := (h.enter hp r).enlist (Or.inr rfl) fun _ => hfresh
    rw [enter_of_none hp]
    simpa using hdone

theorem Settled.remove (h : t.Settled) {p : Path} {id : TargetId} (hp : t.find? p = some id) :
    ((t.takenOut p).retire id).2.Settled := by
  have hrob : ¬ (t.takenOut p).Robs (fun _ => False) id ((t.takenOut p).interestsOf id) := by
    rintro ⟨j, hj, -⟩
    exact (at_takenOut.mp hj).1 (h.known hp).2.1
  have hdone := (h.takeOut hp).retire (show False ∨ id = id from Or.inr rfl) hrob
  simpa using hdone

theorem Settled.repoint (h : t.Settled) {id : TargetId} (hid : id < t.created.length) (r : Resolution) :
    (t.repoint id r).2.Settled := by
  refine Indexed.repoint h hid ?_ ?_
  · rintro hact ⟨k, hk, hc⟩
    obtain ⟨j, hj, hkj⟩ := h.at_of_concerns hc
    obtain rfl := hj.unique (h.at_iff.mpr ⟨hid, hact, rfl⟩)
    exact (mem_gained.mp hk).2 hkj
  · rintro hact ⟨j, hj, hne, -⟩
    exact hne (hj.unique (h.at_iff.mpr ⟨hid, hact, rfl⟩))

/-! ### What the index knows -/

/-- The index holds the interests of the registered targets, no more and no less. -/
theorem Settled.concerns_iff (h : t.Settled) {p : List Component} {k : EntryKey} :
    t.index.Concerns p k ↔ ∃ id, t.At p id ∧ k ∈ t.interestsOf id := by
  refine ⟨h.at_of_concerns, ?_⟩
  rintro ⟨id, hp, hk⟩
  exact h.found hp not_false k hk

/-- The target has an interest in an entry of the directory. -/
def interestedIn (t : Table) (d : Path) (id : TargetId) : Bool :=
  (t.target id).resolution.interests.any fun e => e.dir.same d

lemma interestedIn_iff {d : Path} {id : TargetId} :
    t.interestedIn d id = true ↔ ∃ n, (d.components, n) ∈ t.interestsOf id := by
  simp only [interestedIn, interestsOf, List.any_eq_true, Path.same_iff, Sorted.mem_keys, Entry.key_eq, Prod.mk.injEq]
  constructor
  · rintro ⟨e, he, hd⟩
    exact ⟨e.name, e, he, hd, rfl⟩
  · rintro ⟨n, e, he, hd, -⟩
    exact ⟨e, he, hd⟩

/-- The registered targets with a property, by path. -/
lemma Settled.keys_filter (h : t.Settled) {P : TargetId → Bool} {p : List Component} :
    p ∈ keys (t.registered.filter fun e => P e.2) ↔ ∃ id, t.At p id ∧ P id = true := by
  rw [Sorted.mem_keys]
  constructor
  · rintro ⟨e, he, rfl⟩
    obtain ⟨he, hP⟩ := List.mem_filter.mp he
    exact ⟨e.2, h.ordered.find?_of_mem he, hP⟩
  · rintro ⟨id, hp, hP⟩
    obtain ⟨q, hq, rfl⟩ := Sorted.mem_of_find? hp
    exact ⟨(q, id), List.mem_filter.mpr ⟨hq, hP⟩, rfl⟩

lemma targets_filter (t : Table) (P : TargetId → Bool) :
    t.targets.filter P = (t.registered.filter fun e => P e.2).map Prod.snd := by
  rw [targets, List.filter_map]
  rfl

/-- A look-up finds what a scan would. -/
lemma Settled.targetsFor_eq (h : t.Settled) (e : Entry) :
    t.targetsFor e = t.targets.filter fun id => (t.target id).resolution.classify e.dir e.name ≠ .none := by
  let P : TargetId → Bool := fun id => (t.target id).resolution.classify e.dir e.name ≠ .none
  have hlookup : Ordered (t.index.lookup e) := by
    rw [Index.lookup_eq]
    exact (h.index.registration _).paths _
  have hscan : Ordered (t.registered.filter fun x => P x.2) := h.ordered.sublist (List.filter_sublist.map _)
  have hkeys : keys (t.index.lookup e) = keys (t.registered.filter fun x => P x.2) := by
    refine Sorted.keys_ext hlookup hscan fun p => ?_
    rw [h.keys_filter, Index.lookup_eq]
    have hc : t.index.Concerns p (e.dir.components, e.name) ↔ ∃ id, t.At p id ∧ P id = true := by
      refine h.concerns_iff.trans (exists_congr fun id => and_congr_right fun _ => ?_)
      exact Resolution.classify_ne_none.symm.trans decide_eq_true_iff.symm
    exact hc
  calc t.targetsFor e
      = (keys (t.index.lookup e)).filterMap fun p => Sorted.find? p t.registered := by
        rw [targetsFor, keys, List.filterMap_map]
        rfl
    _ = (t.registered.filter fun x => P x.2).map Prod.snd := by
        rw [hkeys]
        exact Sorted.filterMap_keys fun x hx => h.ordered.find?_of_mem (List.mem_filter.mp hx).1
    _ = t.targets.filter P := (targets_filter t P).symm

/-- The registered targets that hold a directory. -/
lemma Settled.keys_holders (h : t.Settled) (d : Path) :
    keys (t.index.registration d.components).holders =
      keys (t.registered.filter fun e => t.interestedIn d e.2) := by
  refine Sorted.keys_ext (h.index.registration _).holders (h.ordered.sublist (List.filter_sublist.map _)) fun p => ?_
  rw [h.keys_filter, (h.index.registration d.components).mem_keys_holders]
  have hc : (∃ n, t.index.Concerns p (d.components, n)) ↔ ∃ id, t.At p id ∧ t.interestedIn d id = true := by
    simp only [h.concerns_iff, interestedIn_iff]
    constructor
    · rintro ⟨n, id, hp, hk⟩
      exact ⟨id, hp, n, hk⟩
    · rintro ⟨id, hp, n, hk⟩
      exact ⟨n, id, hp, hk⟩
  rw [← hc]
  exact or_iff_left (Nat.lt_irrefl 0)

lemma Settled.refcount_eq (h : t.Settled) (d : Path) :
    t.index.refcount d = (t.targets.filter (t.interestedIn d)).length := by
  have := congrArg List.length (h.keys_holders d)
  rw [keys, keys, List.length_map, List.length_map] at this
  rw [Index.refcount_eq, this, targets_filter, List.length_map]

/-- A directory is in the index as long as somebody holds it. -/
lemma Settled.mem_keys_directories (h : t.Settled) (d : Path) :
    d.components ∈ keys t.index.directories ↔ 0 < t.index.refcount d := by
  rw [h.index.mem_keys_directories, Index.refcount_eq, List.length_pos_iff_exists_mem]
  constructor
  · rintro ⟨p, hp⟩
    obtain ⟨e, he, -⟩ := Sorted.mem_keys.mp hp
    exact ⟨e, he⟩
  · rintro ⟨e, he⟩
    exact ⟨_, Sorted.key_mem_keys he⟩

lemma Settled.inUse_iff (h : t.Settled) (d : Path) :
    Sorted.contains t.index.inUse d.components = true ↔ 0 < t.index.refcount d := by
  have hkeys : keys t.index.inUse = keys t.index.directories := by
    rw [keys, Index.inUse, List.map_map]
    rfl
  rw [Sorted.contains_iff, hkeys, h.mem_keys_directories]

lemma Settled.contains_iff (h : t.Settled) (d : Path) : t.index.contains d = true ↔ 0 < t.index.refcount d :=
  Sorted.isSome_find?.trans (h.mem_keys_directories d)

/-- The registered targets come in the order of their requested paths. -/
lemma Settled.ordered_requested (h : t.Settled) : Ordered (t.targets.map fun id => (t.target id).requested) := by
  have hkeys : keys (t.targets.map fun id => (t.target id).requested) = keys t.registered := by
    rw [keys, targets, List.map_map, List.map_map, keys]
    exact List.map_congr_left fun e he => (h.known (h.ordered.find?_of_mem he)).2.1
  rw [Ordered, hkeys]
  exact h.ordered

/-- The index tells what a scan of the registered targets would. -/
structure Exact (t : Table) : Prop where
  registered : ∀ p id, t.find? p = some id ↔ id ∈ t.targets ∧ (t.target id).requested.same p = true
  targetsFor : ∀ e, t.targetsFor e =
    t.targets.filter fun id => (t.target id).resolution.classify e.dir e.name ≠ .none
  inOrder : ∀ e, Ordered ((t.targetsFor e).map fun id => (t.target id).requested)
  nodup : ∀ e, (t.targetsFor e).Nodup
  refcount : ∀ d, t.index.refcount d = (t.targets.filter (t.interestedIn d)).length
  inUse : ∀ d, Sorted.contains t.index.inUse d.components = true ↔ 0 < t.index.refcount d

theorem Settled.exact (h : t.Settled) : t.Exact where
  registered p id := by
    rw [find?_eq_some, mem_targets h.ordered, Path.same_iff]
    constructor
    · intro hp
      exact ⟨⟨_, hp⟩, (h.known hp).2.1⟩
    · rintro ⟨⟨q, hq⟩, hp⟩
      have : q = p.components := (h.known hq).2.1.symm.trans hp
      exact this ▸ hq
  targetsFor := h.targetsFor_eq
  inOrder e := by
    rw [h.targetsFor_eq]
    exact h.ordered_requested.sublist ((List.filter_sublist.map _).map _)
  nodup e := by
    rw [h.targetsFor_eq]
    exact ((h.ordered_requested.nodup.of_map _).of_map _).filter _
  refcount := h.refcount_eq
  inUse := h.inUse_iff

/-- What a scan of the registered targets sees: their paths, and where they lead, however it is written. -/
def scan (t : Table) := t.targets.map fun id => (t.pathOf id, (t.target id).resolution.view)

lemma Settled.concerns_iff_scan (h : t.Settled) {p : List Component} {k : EntryKey} :
    t.index.Concerns p k ↔ ∃ r : Resolution, (p, r.view) ∈ t.scan ∧ k ∈ keys r.interests := by
  rw [h.concerns_iff]
  constructor
  · rintro ⟨id, hp, hk⟩
    refine ⟨_, List.mem_map.mpr ⟨id, (mem_targets h.ordered).mpr ⟨p, hp⟩, ?_⟩, hk⟩
    rw [(h.known hp).2.1]
  · rintro ⟨r, hr, hk⟩
    obtain ⟨id, hid, he⟩ := List.mem_map.mp hr
    obtain ⟨hpath, hview⟩ := Prod.mk.inj he
    obtain ⟨q, hq⟩ := (mem_targets h.ordered).mp hid
    have hqp : q = p := (h.known hq).2.1.symm.trans hpath
    refine ⟨id, hqp ▸ hq, ?_⟩
    rw [interestsOf, Resolution.keys_interests_congr hview]
    exact hk

/-- The index depends on the registered targets and where they lead, and on nothing else. -/
theorem Settled.view_eq {t' : Table} (h : t.Settled) (h' : t'.Settled) (hscan : t.scan = t'.scan) :
    t.index.view = t'.index.view := by
  refine h.index.view_eq h'.index fun p k => ?_
  rw [h.concerns_iff_scan, h'.concerns_iff_scan, hscan]

/-- Without registered targets the index is empty. -/
lemma Settled.index_eq_empty (h : t.Settled) (h0 : t.registered = []) : t.index = {} := by
  have hview := h.view_eq indexed_empty (by simp [scan, targets, h0])
  have hdirs : t.index.directories = [] := by simpa [Index.view] using hview
  cases hx : t.index with
  | mk directories => simp_all

end Table

end LinkWatch
