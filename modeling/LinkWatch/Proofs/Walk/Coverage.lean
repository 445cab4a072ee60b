import LinkWatch.Proofs.Path.Join
import LinkWatch.Proofs.Resolution
import LinkWatch.Proofs.Walk.Run

/-!
What a walk looks at and what it records. Every link it crosses is among the hops, and the first missing component
is the pending entry or the resolved file, so the interests of a resolution cover each entry that was
inspected, except for plain ones on the way (`mem_interests_of_inspected`). Two trees in which a path resolves
differently differ at an entry that the first walk inspected and the second could read (`resolve_parts`).
-/

namespace LinkWatch

open Sorted (keys)

namespace Resolution

variable {f g : Snapshot} {asked : Path}

/-! ### Where a walk stands -/

lemma isName_of_mem_steps {p : Path} {c : FileName} (h : .name c ∈ steps p) : Path.IsName c := by
  obtain ⟨x, hx, hc⟩ := List.mem_filterMap.mp h
  cases x with
  | name n => exact Path.isName_of_mem_components (Step.name.inj (Option.some.inj hc) ▸ hx)
  | root => cases hc
  | here => cases hc
  | up => cases hc

lemma head?_steps {p : Path} (h : p.isRooted = true) : (steps p).head? = some .root := by
  obtain ⟨cs, hcs, -⟩ := Path.components_of_isRooted h
  rw [steps, hcs]
  rfl

/-- A walk stands at a clean path, or goes to the root next, and has names before it that stand for themselves. -/
structure Footing (left : List Step) (w : Place) : Prop where
  stands : Path.Clean w.current ∨ left.head? = some .root
  names : ∀ c, .name c ∈ left → Path.IsName c

lemma footing_start {p : Path} (hp : p.isRooted = true) : Footing (steps p) .start :=
  ⟨Or.inr (head?_steps hp), fun _ h => isName_of_mem_steps h⟩

section Footing

variable {left : List Step} {w : Place} {c : FileName}

lemma Footing.root (h : Footing (.root :: left) w) : Footing left { w with current := w.current.join .root } :=
  ⟨Or.inl (by rw [Path.join_root]; exact Path.clean_root), fun c hc => h.names c (by simp [hc])⟩

lemma Footing.up (h : Footing (.up :: left) w) : Footing left { w with current := w.current.pop } := by
  refine ⟨Or.inl ?_, fun c hc => h.names c (by simp [hc])⟩
  rcases h.stands with hs | hs
  · exact hs.pop
  · cases hs

lemma Footing.clean (h : Footing (.name c :: left) w) : Path.Clean w.current := by
  rcases h.stands with hs | hs
  · exact hs
  · cases hs

lemma Footing.isName (h : Footing (.name c :: left) w) : Path.IsName c := h.names c (by simp)

lemma Footing.enter (h : Footing (.name c :: left) w) : Footing left (w.enter c) :=
  ⟨Or.inl (h.clean.child h.isName), fun d hd => h.names d (by simp [hd])⟩

lemma Footing.lose (h : Footing (.name c :: left) w) : Footing left (w.lose c) :=
  ⟨Or.inl (h.clean.child h.isName), fun d hd => h.names d (by simp [hd])⟩

lemma Footing.cross (h : Footing (.name c :: left) w) (t : Path) : Footing (steps t ++ left) (w.cross c t) := by
  refine ⟨?_, fun d hd => ?_⟩
  · by_cases ht : t.isRooted = true
    · right
      rw [List.head?_append, head?_steps ht]
      rfl
    · left
      rw [Place.cross, if_neg ht]
      exact h.clean
  · rcases List.mem_append.mp hd with hd | hd
    · exact isName_of_mem_steps hd
    · exact h.names d (by simp [hd])

end Footing

/-! ### What a walk records -/

/-- Hops are only added. -/
lemma Run.hops_subset {n left w seen v} (h : Run f asked n left w seen (.ok v)) {x : Hop} (hx : x ∈ w.hops) :
    x ∈ v.hops := by
  generalize hout : (Except.ok v : Except WatchError Place) = out at h
  induction h with
  | done => cases hout; exact hx
  | root _ ih => exact ih hx hout
  | up _ ih => exact ih hx hout
  | beyond _ _ ih => exact ih hx hout
  | plain _ _ _ ih => exact ih hx hout
  | missing _ _ _ ih => exact ih hx hout
  | crossed _ _ _ ih => exact ih (List.mem_append_left _ hx) hout
  | failed => cases hout
  | unreadable => cases hout
  | exhausted => cases hout

/-- The first missing component stays the first. -/
lemma Run.missing_eq {n left w seen v} (h : Run f asked n left w seen (.ok v)) {e : Entry}
    (he : w.missing = some e) : v.missing = some e := by
  generalize hout : (Except.ok v : Except WatchError Place) = out at h
  induction h with
  | done => cases hout; exact he
  | root _ ih => exact ih he hout
  | up _ ih => exact ih he hout
  | beyond _ _ ih => exact ih he hout
  | plain hm => rw [hm] at he; cases he
  | missing hm => rw [hm] at he; cases he
  | crossed hm => rw [hm] at he; cases he
  | failed => cases hout
  | unreadable => cases hout
  | exhausted => cases hout

/-- What a walk has recorded is what it saw: links under clean directories, and an entry that is missing. -/
structure Place.Faithful (f : Snapshot) (w : Place) : Prop where
  hop : ∀ h ∈ w.hops, Path.Clean h.dir ∧ Path.IsName h.name ∧ h.link = h.dir.child h.name ∧
    f.look h.link = .link (.ok h.target)
  missing : ∀ e ∈ w.missing, Path.Clean e.dir ∧ Path.IsName e.name ∧ f.look (e.dir.child e.name) = .missing

lemma Place.faithful_start : Place.start.Faithful f := ⟨by simp [Place.start], by simp [Place.start]⟩

lemma Place.Faithful.lose {left : List Step} {w : Place} {c : FileName} (h : w.Faithful f)
    (hw : Footing (.name c :: left) w) (hl : f.look (w.current.child c) = .missing) : (w.lose c).Faithful f := by
  refine ⟨h.hop, fun e he => ?_⟩
  obtain rfl := Option.some.inj he
  exact ⟨hw.clean, hw.isName, hl⟩

lemma Place.Faithful.cross {left : List Step} {w : Place} {c : FileName} {t : Path} (h : w.Faithful f)
    (hw : Footing (.name c :: left) w) (hl : f.look (w.current.child c) = .link (.ok t)) :
    (w.cross c t).Faithful f := by
  refine ⟨fun x hx => ?_, h.missing⟩
  rcases List.mem_append.mp hx with hx | hx
  · exact h.hop x hx
  · obtain rfl := List.mem_singleton.mp hx
    exact ⟨hw.clean, hw.isName, rfl, hl⟩

/-- A walk that came to its end stands at a clean path and has recorded what it saw. -/
theorem Run.faithful {n left w seen v} (h : Run f asked n left w seen (.ok v)) (hw : Footing left w)
    (hf : w.Faithful f) : Path.Clean v.current ∧ v.Faithful f := by
  generalize hout : (Except.ok v : Except WatchError Place) = out at h
  induction h with
  | done =>
    cases hout
    exact ⟨hw.stands.resolve_right (by simp), hf⟩
  | root _ ih => exact ih hw.root ⟨hf.hop, hf.missing⟩ hout
  | up _ ih => exact ih hw.up ⟨hf.hop, hf.missing⟩ hout
  | beyond _ _ ih => exact ih hw.enter ⟨hf.hop, hf.missing⟩ hout
  | plain _ _ _ ih => exact ih hw.enter ⟨hf.hop, hf.missing⟩ hout
  | missing _ hl _ ih => exact ih hw.lose (hf.lose hw hl) hout
  | crossed _ hl _ ih => exact ih (hw.cross _) (hf.cross hw hl) hout
  | failed => cases hout
  | unreadable => cases hout
  | exhausted => cases hout

/-- The entry can be read: it can be inspected, and followed if it is a link. -/
structure Readable (f : Snapshot) (p : Path) : Prop where
  inspect : ∀ e, f.look p ≠ .failed e
  follow : ∀ e, f.look p ≠ .link (.error e)

lemma readable_of_plain {p : Path} (h : f.look p = .plain) : Readable f p :=
  ⟨fun e he => by simp [h] at he, fun e he => by simp [h] at he⟩

lemma readable_of_missing {p : Path} (h : f.look p = .missing) : Readable f p :=
  ⟨fun e he => by simp [h] at he, fun e he => by simp [h] at he⟩

lemma readable_of_link {p t : Path} (h : f.look p = .link (.ok t)) : Readable f p :=
  ⟨fun e he => by simp [h] at he, fun e he => by simp [h] at he⟩

/-- What a walk that came to its end has recorded of an entry that it inspected. -/
structure Recorded (f : Snapshot) (v : Place) (p : Path) (e : Entry) : Prop where
  entry : Path.entry? p = some e
  readable : Readable f p
  hop : ∀ t, f.look p = .link t → ∃ x ∈ v.hops, x.entry = e
  missing : f.look p = .missing → v.missing = some e

section Recorded

variable {v : Place} {p : Path} {e : Entry}

lemma recorded_plain (he : Path.entry? p = some e) (hl : f.look p = .plain) : Recorded f v p e := by
  constructor
  · exact he
  · exact readable_of_plain hl
  · simp [hl]
  · simp [hl]

lemma recorded_missing (he : Path.entry? p = some e) (hl : f.look p = .missing) (hv : v.missing = some e) :
    Recorded f v p e := by
  constructor
  · exact he
  · exact readable_of_missing hl
  · simp [hl]
  · exact fun _ => hv

lemma recorded_link {t : Path} (he : Path.entry? p = some e) (hl : f.look p = .link (.ok t))
    (hv : ∃ x ∈ v.hops, x.entry = e) : Recorded f v p e := by
  constructor
  · exact he
  · exact readable_of_link hl
  · exact fun _ _ => hv
  · simp [hl]

end Recorded

theorem Run.recorded {n left w seen v} (h : Run f asked n left w seen (.ok v)) (hw : Footing left w) :
    ∀ p ∈ seen, ∃ e, Recorded f v p e := by
  generalize hout : (Except.ok v : Except WatchError Place) = out at h
  induction h with
  | done => simp
  | root _ ih => exact ih hw.root hout
  | up _ ih => exact ih hw.up hout
  | beyond _ _ ih => exact ih hw.enter hout
  | plain _ hl _ ih =>
    intro p hp
    rcases List.mem_cons.mp hp with rfl | hp
    · exact ⟨_, recorded_plain (hw.clean.entry?_child hw.isName) hl⟩
    · exact ih hw.enter hout p hp
  | missing _ hl hrun ih =>
    intro p hp
    rcases List.mem_cons.mp hp with rfl | hp
    · exact ⟨_, recorded_missing (hw.clean.entry?_child hw.isName) hl ((hout ▸ hrun).missing_eq rfl)⟩
    · exact ih hw.lose hout p hp
  | @crossed _ _ w c t _ _ _ hl hrun ih =>
    intro p hp
    rcases List.mem_cons.mp hp with rfl | hp
    · have hop := (hout ▸ hrun).hops_subset (List.mem_append_right w.hops (List.mem_singleton.mpr rfl))
      exact ⟨_, recorded_link (hw.clean.entry?_child hw.isName) hl ⟨_, hop, rfl⟩⟩
    · exact ih (hw.cross t) hout p hp
  | failed => cases hout
  | unreadable => cases hout
  | exhausted => cases hout

/-- The first missing component is pending, unless the path ends there: then it is the resolved file itself. -/
lemma pending_or_leaf {v : Place} {e : Entry} (h : v.missing = some e) :
    v.resolution.pending = some e ∨
      v.resolution.pending = none ∧ ∃ d, v.resolution.leaf = some ⟨d, e.name⟩ ∧ d.components = e.dir.components := by
  by_cases hleaf : (v.current.parent.any e.dir.same && v.current.fileName == some e.name) = true
  · right
    obtain ⟨hdir, hname⟩ := Bool.and_eq_true_iff.mp hleaf
    obtain ⟨d, hd, hsame⟩ := (Option.any_eq_true _ _).mp hdir
    have hn : v.current.fileName = some e.name := by simpa using hname
    refine ⟨?_, d, ?_, (Path.same_iff.mp hsame).symm⟩
    · simp only [Place.resolution, h, Option.filter_some, hleaf, Bool.not_true, Bool.false_eq_true, if_false]
    · rw [leaf, Place.resolution, Path.entry?, hd, hn]
  · left
    rw [Bool.not_eq_true] at hleaf
    simp only [Place.resolution, h, Option.filter_some, hleaf, Bool.not_false, if_true]

lemma mem_interests_of_missing {v : Place} {e : Entry} (h : v.missing = some e) :
    (Keyed.key e : EntryKey) ∈ keys v.resolution.interests := by
  rw [mem_keys_interests]
  rcases pending_or_leaf h with hpending | ⟨-, d, hleaf, hd⟩
  · exact Or.inr (Or.inl ⟨e, hpending, rfl⟩)
  · refine Or.inr (Or.inr ⟨_, hleaf, ?_⟩)
    rw [Entry.key_eq, Entry.key_eq, hd]

lemma run_of_resolve {p : Path} {r : Resolution} (hp : p.isRooted = true) (h : f.resolve p = .ok r) :
    ∃ v, Run f p.tidy maxHops (steps p.tidy) .start (f.inspected p) (.ok v) ∧ r = v.resolution := by
  obtain ⟨out, hrun, hres⟩ := exists_run_resolve f hp
  rw [h] at hres
  cases out with
  | ok v => exact ⟨v, hrun, Except.ok.inj hres⟩
  | error e => cases hres

/-- **Coverage.** Every entry that was inspected is an interest, except for plain ones on the way. -/
theorem mem_interests_of_inspected {p : Path} {r : Resolution} (hp : p.isRooted = true) (h : f.resolve p = .ok r)
    {q : Path} (hq : q ∈ f.inspected p) (hwhere : f.look q ≠ .plain ∨ q.same r.resolved = true) :
    ∃ e, Path.entry? q = some e ∧ (Keyed.key e : EntryKey) ∈ keys r.interests := by
  obtain ⟨v, hrun, rfl⟩ := run_of_resolve hp h
  obtain ⟨e, hrec⟩ := hrun.recorded (footing_start (Path.isRooted_tidy hp)) q hq
  refine ⟨e, hrec.entry, ?_⟩
  rcases hwhere with hlook | hleaf
  · cases hl : f.look q with
    | plain => exact absurd hl hlook
    | link t =>
      obtain ⟨x, hx, rfl⟩ := hrec.hop t hl
      exact mem_keys_interests.mpr (Or.inl ⟨x, hx, rfl⟩)
    | missing => exact mem_interests_of_missing (hrec.missing hl)
    | failed err => exact absurd hl (hrec.readable.inspect err)
  · have hkeys := Path.entry?_congr (Path.same_iff.mp hleaf)
    rw [hrec.entry] at hkeys
    obtain ⟨e', he', hk⟩ := Option.map_eq_some_iff.mp hkeys.symm
    exact mem_keys_interests.mpr (Or.inr (Or.inr ⟨e', he', hk⟩))

/-- What was inspected on the way to a result could be read. -/
lemma readable_of_inspected {p : Path} {r : Resolution} (hp : p.isRooted = true) (h : f.resolve p = .ok r)
    {q : Path} (hq : q ∈ f.inspected p) : Readable f q := by
  obtain ⟨v, hrun, -⟩ := run_of_resolve hp h
  obtain ⟨e, hrec⟩ := hrun.recorded (footing_start (Path.isRooted_tidy hp)) q hq
  exact hrec.readable

/-! ### Two trees -/

/-- A walk that sees the same in another tree is a walk there. -/
lemma Run.congr {n left w seen out} (h : Run f asked n left w seen out) (hsame : ∀ q ∈ seen, f.look q = g.look q) :
    Run g asked n left w seen out := by
  have htail {q : Path} {rest : List Path} (hall : ∀ p ∈ q :: rest, f.look p = g.look p) :
      f.look q = g.look q ∧ ∀ p ∈ rest, f.look p = g.look p := List.forall_mem_cons.mp hall
  induction h with
  | done => exact .done
  | root _ ih => exact .root (ih hsame)
  | up _ ih => exact .up (ih hsame)
  | beyond hm _ ih => exact .beyond hm (ih hsame)
  | plain hm hl _ ih => exact .plain hm ((htail hsame).1.symm.trans hl) (ih (htail hsame).2)
  | missing hm hl _ ih => exact .missing hm ((htail hsame).1.symm.trans hl) (ih (htail hsame).2)
  | failed hm hl => exact .failed hm ((htail hsame).1.symm.trans hl)
  | crossed hm hl _ ih => exact .crossed hm ((htail hsame).1.symm.trans hl) (ih (htail hsame).2)
  | unreadable hm hl => exact .unreadable hm ((htail hsame).1.symm.trans hl)
  | exhausted hm hl => exact .exhausted hm ((htail hsame).1.symm.trans hl)

/-- A difference between two trees that both walks have seen. -/
def Parting (f g : Snapshot) (seen seen' : List Path) : Prop := ∃ q ∈ seen, q ∈ seen' ∧ f.look q ≠ g.look q

lemma Parting.later {seen seen' : List Path} (p : Path) (h : Parting f g seen seen') :
    Parting f g (p :: seen) (p :: seen') := by
  obtain ⟨q, hq, hq', hne⟩ := h
  exact ⟨q, List.mem_cons_of_mem _ hq, List.mem_cons_of_mem _ hq', hne⟩

lemma agree_cons {q : Path} {seen : List Path} (hq : f.look q = g.look q) (h : ∀ p ∈ seen, f.look p = g.look p) :
    ∀ p ∈ q :: seen, f.look p = g.look p := by
  intro p hp
  rcases List.mem_cons.mp hp with rfl | hp
  · exact hq
  · exact h p hp

/-- Two walks from one start see the same, or they part at an entry that both inspected. -/
theorem Run.agree {n left w seen out seen' out'} (h : Run f asked n left w seen out)
    (h' : Run g asked n left w seen' out') : (∀ q ∈ seen, f.look q = g.look q) ∨ Parting f g seen seen' := by
  induction h generalizing seen' with
  | done => simp
  | root _ ih =>
    cases h' with
    | root h' => exact ih h'
  | up _ ih =>
    cases h' with
    | up h' => exact ih h'
  | beyond hm _ ih => exact ih (h'.of_beyond hm)
  | @plain _ _ w c _ _ hm hl _ ih =>
    by_cases hq : f.look (w.current.child c) = g.look (w.current.child c)
    · obtain ⟨rest, rfl, hrest⟩ := h'.of_plain hm (hq ▸ hl)
      exact (ih hrest).imp (agree_cons hq) (Parting.later _)
    · exact Or.inr ⟨_, List.mem_cons_self .., h'.mem_seen hm, hq⟩
  | @missing _ _ w c _ _ hm hl _ ih =>
    by_cases hq : f.look (w.current.child c) = g.look (w.current.child c)
    · obtain ⟨rest, rfl, hrest⟩ := h'.of_missing hm (hq ▸ hl)
      exact (ih hrest).imp (agree_cons hq) (Parting.later _)
    · exact Or.inr ⟨_, List.mem_cons_self .., h'.mem_seen hm, hq⟩
  | @crossed _ _ w c _ _ _ hm hl _ ih =>
    by_cases hq : f.look (w.current.child c) = g.look (w.current.child c)
    · obtain ⟨rest, rfl, hrest⟩ := h'.of_crossed hm (hq ▸ hl)
      exact (ih hrest).imp (agree_cons hq) (Parting.later _)
    · exact Or.inr ⟨_, List.mem_cons_self .., h'.mem_seen hm, hq⟩
  | @failed _ _ w c _ hm | @unreadable _ _ w c _ hm | @exhausted _ w c _ hm =>
    by_cases hq : f.look (w.current.child c) = g.look (w.current.child c)
    · exact Or.inl (agree_cons hq (by simp))
    · exact Or.inr ⟨_, List.mem_cons_self .., h'.mem_seen hm, hq⟩

/-- Two trees differ at one of these entries, and the second can read it. -/
def Part (f g : Snapshot) (seen : List Path) : Prop := ∃ q ∈ seen, f.look q ≠ g.look q ∧ Readable g q

/-- Where a path resolves differently in two trees, they differ at an entry that the first resolution inspected and
the second could read. -/
theorem resolve_parts {p : Path} {r r' : Resolution} (hp : p.isRooted = true) (h : f.resolve p = .ok r)
    (h' : g.resolve p = .ok r') : r' = r ∨ Part f g (f.inspected p) := by
  obtain ⟨v, hrun, rfl⟩ := run_of_resolve hp h
  obtain ⟨v', hrun', rfl⟩ := run_of_resolve hp h'
  rcases hrun.agree hrun' with hsame | ⟨q, hq, hq', hne⟩
  · left
    have hv := (hrun'.follow_eq g.answers ()).symm.trans ((hrun.congr hsame).follow_eq g.answers ())
    rw [Except.ok.inj hv]
  · exact Or.inr ⟨q, hq, hne, readable_of_inspected hp h' hq'⟩

end Resolution

end LinkWatch
