import LinkWatch.Resolution.Walk
import Mathlib.Tactic.Lemma

/-!
A walk as a relation. `Run f asked n left w seen out` says that in the tree `f` a walk that stands at `w` with
the steps `left` before it and `n` links to cross at most inspects the entries `seen` and ends with `out`. There is one
run for each start (`exists_run`, `Run.unique`), and it is what `follow` does over every filesystem that answers
like `f` (`Run.follow_eq`), however its state changes. So `Snapshot.resolve` is the resolution in a tree that
stays as it is, and `Snapshot.inspected` are the entries that it looked at.
-/

namespace LinkWatch

/-! ### Trees that stay as they are -/

/-- What a walk sees of an entry. -/
inductive Look where
  /-- A file or a directory. -/
  | plain
  /-- A link, and where it points if it can be read. -/
  | link (target : Except IoError Path)
  /-- Nothing. -/
  | missing
  /-- It cannot be inspected. -/
  | failed (e : IoError)

namespace Snapshot

def look (f : Snapshot) (p : Path) : Look :=
  match f.entryKind p with
  | .ok .symlink => .link (f.readLink p)
  | .ok _ => .plain
  | .error e => if e.isMissing then .missing else .failed e

/-- The resolution of a path in the tree. -/
def resolve (f : Snapshot) (p : Path) : Except WatchError Resolution := (LinkWatch.resolve f.filesystem p ()).1

/-- The tree, noting which entries are inspected. -/
def recording (f : Snapshot) : Filesystem (List Path) where
  entryKind p seen := (f.entryKind p, seen ++ [p])
  readLink p seen := (f.readLink p, seen)
  currentDir seen := (f.currentDir, seen)

/-- The entries that the resolution of a path inspects, in order. -/
def inspected (f : Snapshot) (p : Path) : List Path := (LinkWatch.resolve f.recording p []).2

end Snapshot

/-- A filesystem that answers like a tree, in every state. -/
structure Filesystem.Answers {σ : Type} (fs : Filesystem σ) (f : Snapshot) : Prop where
  entryKind : ∀ p s, (fs.entryKind p s).1 = f.entryKind p
  readLink : ∀ p s, (fs.readLink p s).1 = f.readLink p
  currentDir : ∀ s, (fs.currentDir s).1 = f.currentDir

lemma Snapshot.answers (f : Snapshot) : (f.filesystem : Filesystem Unit).Answers f :=
  ⟨fun _ _ => rfl, fun _ _ => rfl, fun _ => rfl⟩

namespace Resolution

variable {σ : Type} {f : Snapshot} {asked : Path}

/-! ### Runs -/

/-- The place one step further, at the entry of a name. -/
def Place.enter (w : Place) (c : FileName) : Place := { w with current := w.current.child c }

/-- The place one step further, at an entry that is missing. -/
def Place.lose (w : Place) (c : FileName) : Place := { w.enter c with missing := some ⟨w.current, c⟩ }

inductive Run (f : Snapshot) (asked : Path) :
    Nat → List Step → Place → List Path → Except WatchError Place → Prop
  | done {n w} : Run f asked n [] w [] (.ok w)
  | root {n left w seen out} : Run f asked n left { w with current := w.current.join .root } seen out →
      Run f asked n (.root :: left) w seen out
  | up {n left w seen out} : Run f asked n left { w with current := w.current.pop } seen out →
      Run f asked n (.up :: left) w seen out
  /-- Nothing is inspected after a missing component. -/
  | beyond {n left w c seen out} : w.missing.isSome = true → Run f asked n left (w.enter c) seen out →
      Run f asked n (.name c :: left) w seen out
  | plain {n left w c seen out} : w.missing = none → f.look (w.current.child c) = .plain →
      Run f asked n left (w.enter c) seen out →
      Run f asked n (.name c :: left) w (w.current.child c :: seen) out
  | missing {n left w c seen out} : w.missing = none → f.look (w.current.child c) = .missing →
      Run f asked n left (w.lose c) seen out →
      Run f asked n (.name c :: left) w (w.current.child c :: seen) out
  | failed {n left w c e} : w.missing = none → f.look (w.current.child c) = .failed e →
      Run f asked n (.name c :: left) w [w.current.child c] (.error (.resolution (w.current.child c) e))
  | crossed {n left w c t seen out} : w.missing = none → f.look (w.current.child c) = .link (.ok t) →
      Run f asked n (steps t ++ left) (w.cross c t) seen out →
      Run f asked (n + 1) (.name c :: left) w (w.current.child c :: seen) out
  | unreadable {n left w c e} : w.missing = none → f.look (w.current.child c) = .link (.error e) →
      Run f asked (n + 1) (.name c :: left) w [w.current.child c] (.error (.resolution (w.current.child c) e))
  | exhausted {left w c t} : w.missing = none → f.look (w.current.child c) = .link t →
      Run f asked 0 (.name c :: left) w [w.current.child c] (.error (.linkLoop asked))

lemma exists_run_of_link {n : Nat}
    (hlink : ∀ {c t} left w, w.missing = none → f.look (w.current.child c) = .link t →
      ∃ seen out, Run f asked n (.name c :: left) w seen out) (left : List Step) (w : Place) :
    ∃ seen out, Run f asked n left w seen out := by
  induction left generalizing w with
  | nil => exact ⟨_, _, .done⟩
  | cons step left ih =>
    cases step with
    | root =>
      obtain ⟨seen, out, h⟩ := ih { w with current := w.current.join .root }
      exact ⟨seen, out, .root h⟩
    | up =>
      obtain ⟨seen, out, h⟩ := ih { w with current := w.current.pop }
      exact ⟨seen, out, .up h⟩
    | name c =>
      by_cases hm : w.missing = none
      · cases hl : f.look (w.current.child c) with
        | plain =>
          obtain ⟨seen, out, h⟩ := ih (w.enter c)
          exact ⟨_, out, .plain hm hl h⟩
        | missing =>
          obtain ⟨seen, out, h⟩ := ih (w.lose c)
          exact ⟨_, out, .missing hm hl h⟩
        | failed e => exact ⟨_, _, .failed hm hl⟩
        | link t => exact hlink left w hm hl
      · obtain ⟨seen, out, h⟩ := ih (w.enter c)
        exact ⟨seen, out, .beyond (Option.isSome_iff_ne_none.mpr hm) h⟩

/-- Every start has a run: each link that is crossed takes one from those that are left, and every other step is
one less. -/
theorem exists_run (f : Snapshot) (asked : Path) (n : Nat) (left : List Step) (w : Place) :
    ∃ seen out, Run f asked n left w seen out := by
  induction n generalizing left w with
  | zero => exact exists_run_of_link (fun _ _ hm hl => ⟨_, _, .exhausted hm hl⟩) left w
  | succ n ih =>
    refine exists_run_of_link (fun {c t} left w hm hl => ?_) left w
    cases t with
    | error e => exact ⟨_, _, .unreadable hm hl⟩
    | ok t =>
      obtain ⟨seen, out, h⟩ := ih (steps t ++ left) (w.cross c t)
      exact ⟨_, out, .crossed hm hl h⟩

section Inversion

variable {n : Nat} {left : List Step} {w : Place} {c : FileName} {seen : List Path} {out : Except WatchError Place}

lemma Run.mem_seen (h : Run f asked n (.name c :: left) w seen out) (hm : w.missing = none) :
    w.current.child c ∈ seen := by
  cases h with
  | beyond hm' => simp [hm] at hm'
  | plain => exact List.mem_cons_self ..
  | missing => exact List.mem_cons_self ..
  | failed => exact List.mem_cons_self ..
  | crossed => exact List.mem_cons_self ..
  | unreadable => exact List.mem_cons_self ..
  | exhausted => exact List.mem_cons_self ..

lemma Run.of_beyond (h : Run f asked n (.name c :: left) w seen out) (hm : w.missing.isSome = true) :
    Run f asked n left (w.enter c) seen out := by
  cases h with
  | beyond _ h => exact h
  | plain hm' => simp [hm'] at hm
  | missing hm' => simp [hm'] at hm
  | failed hm' => simp [hm'] at hm
  | crossed hm' => simp [hm'] at hm
  | unreadable hm' => simp [hm'] at hm
  | exhausted hm' => simp [hm'] at hm

lemma Run.of_plain (h : Run f asked n (.name c :: left) w seen out) (hm : w.missing = none)
    (hl : f.look (w.current.child c) = .plain) :
    ∃ rest, seen = w.current.child c :: rest ∧ Run f asked n left (w.enter c) rest out := by
  cases h with
  | beyond hm' => simp [hm] at hm'
  | plain _ _ h => exact ⟨_, rfl, h⟩
  | missing _ hl' => simp [hl] at hl'
  | failed _ hl' => simp [hl] at hl'
  | crossed _ hl' => simp [hl] at hl'
  | unreadable _ hl' => simp [hl] at hl'
  | exhausted _ hl' => simp [hl] at hl'

lemma Run.of_missing (h : Run f asked n (.name c :: left) w seen out) (hm : w.missing = none)
    (hl : f.look (w.current.child c) = .missing) :
    ∃ rest, seen = w.current.child c :: rest ∧ Run f asked n left (w.lose c) rest out := by
  cases h with
  | beyond hm' => simp [hm] at hm'
  | plain _ hl' => simp [hl] at hl'
  | missing _ _ h => exact ⟨_, rfl, h⟩
  | failed _ hl' => simp [hl] at hl'
  | crossed _ hl' => simp [hl] at hl'
  | unreadable _ hl' => simp [hl] at hl'
  | exhausted _ hl' => simp [hl] at hl'

lemma Run.of_crossed {t : Path} (h : Run f asked (n + 1) (.name c :: left) w seen out) (hm : w.missing = none)
    (hl : f.look (w.current.child c) = .link (.ok t)) :
    ∃ rest, seen = w.current.child c :: rest ∧ Run f asked n (steps t ++ left) (w.cross c t) rest out := by
  cases h with
  | beyond hm' => simp [hm] at hm'
  | plain _ hl' => simp [hl] at hl'
  | missing _ hl' => simp [hl] at hl'
  | failed _ hl' => simp [hl] at hl'
  | crossed _ hl' h =>
    obtain rfl : t = _ := by simpa [hl] using hl'
    exact ⟨_, rfl, h⟩
  | unreadable _ hl' => simp [hl] at hl'

end Inversion

/-! ### The walk step by step -/

/-- What a walk does at a link. -/
def crossing (fs : Filesystem σ) (asked : Path) (n : Nat) (c : FileName) (left : List Step) (w : Place) (s : σ) :
    Except WatchError Place × σ :=
  match n with
  | 0 => (.error (.linkLoop asked), s)
  | n + 1 =>
    match fs.readLink (w.current.child c) s with
    | (.error e, s) => (.error (.resolution (w.current.child c) e), s)
    | (.ok t, s) => follow fs asked n (steps t ++ left) (w.cross c t) s

/-- What a walk does at the end of a stretch. -/
def pursue (fs : Filesystem σ) (asked : Path) (n : Nat) : Stretch × σ → Except WatchError Place × σ
  | (.done w, s) => (.ok w, s)
  | (.failed p e, s) => (.error (.resolution p e), s)
  | (.link w c left, s) => crossing fs asked n c left w s

variable (fs : Filesystem σ)

lemma follow_eq_pursue (n : Nat) (left : List Step) (w : Place) (s : σ) :
    follow fs asked n left w s = pursue fs asked n (stretch fs left w s) := by
  rw [follow.eq_def]
  dsimp only
  rcases stretch fs left w s with ⟨_ | _ | _, _⟩
  · rfl
  · rfl
  · cases n <;> rfl

lemma follow_nil (n : Nat) (w : Place) (s : σ) : follow fs asked n [] w s = (.ok w, s) := by
  rw [follow_eq_pursue]
  rfl

lemma follow_root (n : Nat) (left : List Step) (w : Place) (s : σ) :
    follow fs asked n (.root :: left) w s = follow fs asked n left { w with current := w.current.join .root } s := by
  rw [follow_eq_pursue, follow_eq_pursue]
  rfl

lemma follow_up (n : Nat) (left : List Step) (w : Place) (s : σ) :
    follow fs asked n (.up :: left) w s = follow fs asked n left { w with current := w.current.pop } s := by
  rw [follow_eq_pursue, follow_eq_pursue]
  rfl

lemma follow_beyond (n : Nat) {c : FileName} (left : List Step) {w : Place} (s : σ) (h : w.missing.isSome = true) :
    follow fs asked n (.name c :: left) w s = follow fs asked n left (w.enter c) s := by
  rw [follow_eq_pursue, follow_eq_pursue, stretch, if_pos h]
  rfl

lemma follow_name (n : Nat) {c : FileName} (left : List Step) {w : Place} (s : σ) (h : w.missing = none) :
    follow fs asked n (.name c :: left) w s =
      match fs.entryKind (w.current.child c) s with
      | (.ok .symlink, s) => crossing fs asked n c left w s
      | (.ok _, s) => follow fs asked n left (w.enter c) s
      | (.error e, s) =>
        if e.isMissing then follow fs asked n left (w.lose c) s
        else (.error (.resolution (w.current.child c) e), s) := by
  rw [follow_eq_pursue, stretch, if_neg (by simp [h])]
  rcases fs.entryKind (w.current.child c) s with ⟨e | kind, s⟩
  · by_cases hmiss : e.isMissing = true
    · simp only [hmiss, if_true, follow_eq_pursue]
      rfl
    · simp only [hmiss, Bool.false_eq_true, if_false]
      rfl
  · cases kind with
    | symlink => rfl
    | file => simp only [follow_eq_pursue]; rfl
    | dir => simp only [follow_eq_pursue]; rfl

/-! ### What is seen is what is answered -/

lemma entryKind_of_plain {p : Path} (h : f.look p = .plain) :
    ∃ kind, f.entryKind p = .ok kind ∧ kind ≠ .symlink := by
  unfold Snapshot.look at h
  split at h
  · cases h
  · rename_i kind hne hk
    exact ⟨kind, hk, hne⟩
  · split at h <;> cases h

lemma entryKind_of_link {p : Path} {t : Except IoError Path} (h : f.look p = .link t) :
    f.entryKind p = .ok .symlink ∧ f.readLink p = t := by
  unfold Snapshot.look at h
  split at h
  · rename_i hk
    exact ⟨hk, Look.link.inj h⟩
  · cases h
  · split at h <;> cases h

lemma entryKind_of_missing {p : Path} (h : f.look p = .missing) :
    ∃ e, f.entryKind p = .error e ∧ e.isMissing = true := by
  unfold Snapshot.look at h
  split at h
  · cases h
  · cases h
  · rename_i e he
    split at h
    · exact ⟨e, he, ‹_›⟩
    · cases h

lemma entryKind_of_failed {p : Path} {e : IoError} (h : f.look p = .failed e) :
    f.entryKind p = .error e ∧ ¬ e.isMissing = true := by
  unfold Snapshot.look at h
  split at h
  · cases h
  · cases h
  · rename_i e' he
    split at h
    · cases h
    · cases h
      exact ⟨he, ‹_›⟩

/-! ### Runs are what walks do -/

variable {fs}

lemma entryKind_eq (ha : fs.Answers f) (p : Path) (s : σ) :
    fs.entryKind p s = (f.entryKind p, (fs.entryKind p s).2) := Prod.ext (ha.entryKind p s) rfl

lemma readLink_eq (ha : fs.Answers f) (p : Path) (s : σ) :
    fs.readLink p s = (f.readLink p, (fs.readLink p s).2) := Prod.ext (ha.readLink p s) rfl

/-- A walk over a filesystem that answers like the tree ends as the run says. -/
theorem Run.follow_eq {n left w seen out} (h : Run f asked n left w seen out) (ha : fs.Answers f) (s : σ) :
    (follow fs asked n left w s).1 = out := by
  induction h generalizing s with
  | done => rw [follow_nil]
  | root _ ih => rw [follow_root]; exact ih s
  | up _ ih => rw [follow_up]; exact ih s
  | beyond hm _ ih => rw [follow_beyond fs _ _ s hm]; exact ih s
  | plain hm hl _ ih =>
    obtain ⟨kind, hk, hne⟩ := entryKind_of_plain hl
    rw [follow_name fs _ _ s hm, entryKind_eq ha, hk]
    cases kind with
    | symlink => exact absurd rfl hne
    | file => exact ih _
    | dir => exact ih _
  | missing hm hl _ ih =>
    obtain ⟨e, he, hmiss⟩ := entryKind_of_missing hl
    rw [follow_name fs _ _ s hm, entryKind_eq ha, he]
    simpa [hmiss] using ih _
  | failed hm hl =>
    obtain ⟨he, hmiss⟩ := entryKind_of_failed hl
    rw [follow_name fs _ _ s hm, entryKind_eq ha, he]
    simp [hmiss]
  | crossed hm hl _ ih =>
    obtain ⟨hk, hr⟩ := entryKind_of_link hl
    rw [follow_name fs _ _ s hm, entryKind_eq ha, hk]
    dsimp only [crossing]
    rw [readLink_eq ha, hr]
    exact ih _
  | unreadable hm hl =>
    obtain ⟨hk, hr⟩ := entryKind_of_link hl
    rw [follow_name fs _ _ s hm, entryKind_eq ha, hk]
    dsimp only [crossing]
    rw [readLink_eq ha, hr]
  | exhausted hm hl =>
    rw [follow_name fs _ _ s hm, entryKind_eq ha, (entryKind_of_link hl).1]
    rfl

/-- The recording tree notes what the run sees. -/
theorem Run.follow_recording {n left w seen out} (h : Run f asked n left w seen out) (s : List Path) :
    (follow f.recording asked n left w s).2 = s ++ seen := by
  have hk : ∀ p s, f.recording.entryKind p s = (f.entryKind p, s ++ [p]) := fun _ _ => rfl
  have hr : ∀ p s, f.recording.readLink p s = (f.readLink p, s) := fun _ _ => rfl
  induction h generalizing s with
  | done => rw [follow_nil, List.append_nil]
  | root _ ih => rw [follow_root]; exact ih s
  | up _ ih => rw [follow_up]; exact ih s
  | beyond hm _ ih => rw [follow_beyond _ _ _ s hm]; exact ih s
  | plain hm hl _ ih =>
    obtain ⟨kind, hkind, hne⟩ := entryKind_of_plain hl
    rw [follow_name _ _ _ s hm, hk, hkind]
    cases kind with
    | symlink => exact absurd rfl hne
    | file => exact (ih _).trans (List.append_assoc ..)
    | dir => exact (ih _).trans (List.append_assoc ..)
  | missing hm hl _ ih =>
    obtain ⟨e, he, hmiss⟩ := entryKind_of_missing hl
    rw [follow_name _ _ _ s hm, hk, he]
    simp only [hmiss, if_true]
    exact (ih _).trans (List.append_assoc ..)
  | failed hm hl =>
    obtain ⟨he, hmiss⟩ := entryKind_of_failed hl
    rw [follow_name _ _ _ s hm, hk, he]
    simp [hmiss]
  | crossed hm hl _ ih =>
    obtain ⟨hkind, hread⟩ := entryKind_of_link hl
    rw [follow_name _ _ _ s hm, hk, hkind]
    dsimp only [crossing]
    rw [hr, hread]
    exact (ih _).trans (List.append_assoc ..)
  | unreadable hm hl =>
    obtain ⟨hkind, hread⟩ := entryKind_of_link hl
    rw [follow_name _ _ _ s hm, hk, hkind]
    dsimp only [crossing]
    rw [hr, hread]
  | exhausted hm hl =>
    rw [follow_name _ _ _ s hm, hk, (entryKind_of_link hl).1]
    rfl

/-! ### Resolution -/

/-- Where the walk of a rooted path starts. -/
def Place.start : Place := ⟨.empty, [], none⟩

lemma resolve_of_run {p : Path} (hp : p.isRooted = true) {seen : List Path} {out : Except WatchError Place}
    (h : Run f p.tidy maxHops (steps p.tidy) .start seen out) : f.resolve p = out.map Place.resolution := by
  unfold Snapshot.resolve LinkWatch.resolve absolutize
  rw [if_pos hp]
  exact congrArg (Except.map Place.resolution) (h.follow_eq f.answers ())

/-- The run behind the resolution of a rooted path. -/
theorem exists_run_resolve (f : Snapshot) {p : Path} (hp : p.isRooted = true) :
    ∃ out, Run f p.tidy maxHops (steps p.tidy) .start (f.inspected p) out ∧
      f.resolve p = out.map Place.resolution := by
  obtain ⟨seen, out, hrun⟩ := exists_run f p.tidy maxHops (steps p.tidy) .start
  have hseen : f.inspected p = seen := by
    unfold Snapshot.inspected LinkWatch.resolve absolutize
    rw [if_pos hp]
    exact hrun.follow_recording []
  exact ⟨out, hseen ▸ hrun, resolve_of_run hp hrun⟩

/-- A filesystem that answers like the tree resolves as the tree does. -/
theorem resolve_eq (ha : fs.Answers f) (p : Path) (s : σ) : (LinkWatch.resolve fs p s).1 = f.resolve p := by
  have hdir : fs.currentDir s = (f.currentDir, (fs.currentDir s).2) := Prod.ext (ha.currentDir s) rfl
  have hfollow : ∀ q s, (follow fs q maxHops (steps q) .start s).1 =
      (follow f.filesystem q maxHops (steps q) .start ()).1 := by
    intro q s
    obtain ⟨seen, out, hrun⟩ := exists_run f q maxHops (steps q) .start
    rw [hrun.follow_eq ha, hrun.follow_eq f.answers]
  unfold Snapshot.resolve LinkWatch.resolve absolutize
  by_cases hp : p.isRooted = true
  · simp only [hp, if_true]
    exact congrArg (Except.map Place.resolution) (hfollow _ _)
  · have hdir' : (f.filesystem : Filesystem Unit).currentDir () = (f.currentDir, ()) := rfl
    simp only [hp, Bool.false_eq_true, if_false]
    rw [hdir, hdir']
    cases f.currentDir with
    | error e => rfl
    | ok dir => exact congrArg (Except.map Place.resolution) (hfollow _ _)

end Resolution

end LinkWatch
