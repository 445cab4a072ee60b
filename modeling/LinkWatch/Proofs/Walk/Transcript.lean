import LinkWatch.Proofs.Walk.Stages

/-!
What a walk is told. A filesystem that writes down its answers (`Filesystem.logged`) leads a walk where it leads it
without that, and the answers tell how the walk ends (`Transcript`): each walk stops at the first answer that it
cannot go on from, and asks nothing more after a missing component. This holds of any answers, also of those that no
tree could give, since nothing is assumed about the state between two questions (`exists_transcript`).

The induction is on the links that may still be followed, and for each number of them on the steps that are left.
-/

namespace LinkWatch

variable {σ : Type}

/-- An answer that a walk was given. -/
inductive Answer where
  /-- What the entry at a path is. -/
  | kind (p : Path) (answer : Except IoError EntryKind)
  /-- Where the link at a path points. -/
  | target (p : Path) (answer : Except IoError Path)

namespace Answer

/-- It was asked where a link points. -/
def isRead : Answer → Bool
  | .kind _ _ => false
  | .target _ _ => true

/-- A link was followed. -/
def isFollowed : Answer → Bool
  | .target _ (.ok _) => true
  | _ => false

end Answer

namespace Filesystem

/-- The filesystem, writing down what it answers about entries. -/
def logged (fs : Filesystem σ) : Filesystem (σ × List Answer) where
  entryKind p s := ((fs.entryKind p s.1).1, (fs.entryKind p s.1).2, s.2 ++ [.kind p (fs.entryKind p s.1).1])
  readLink p s := ((fs.readLink p s.1).1, (fs.readLink p s.1).2, s.2 ++ [.target p (fs.readLink p s.1).1])
  currentDir s := ((fs.currentDir s.1).1, (fs.currentDir s.1).2, s.2)

/-- The answers that the resolution of a path is given, in order. -/
def transcript (fs : Filesystem σ) (p : Path) (s : σ) : List Answer := (resolve fs.logged p (s, [])).2.2

lemma logged_entryKind (fs : Filesystem σ) (p : Path) (s : σ) (log : List Answer) :
    fs.logged.entryKind p (s, log) =
      ((fs.entryKind p s).1, (fs.entryKind p s).2, log ++ [.kind p (fs.entryKind p s).1]) := rfl

lemma logged_readLink (fs : Filesystem σ) (p : Path) (s : σ) (log : List Answer) :
    fs.logged.readLink p (s, log) =
      ((fs.readLink p s).1, (fs.readLink p s).2, log ++ [.target p (fs.readLink p s).1]) := rfl

end Filesystem

namespace Resolution

variable {asked : Path} {n : Nat} {log : List Answer}

/-! ### Answers and ends -/

/-- A walk that may follow `n` links and is given these answers ends like this. -/
inductive Transcript (asked : Path) : Nat → List Answer → Except WatchError Place → Prop
  | done {n w} : Transcript asked n [] (.ok w)
  /-- Nothing is asked after a missing component. -/
  | missing {n q e w} : e.isMissing = true → Transcript asked n [.kind q (.error e)] (.ok w)
  | failed {n q e} : e.isMissing = false → Transcript asked n [.kind q (.error e)] (.error (.resolution q e))
  | plain {n q k log out} : k ≠ .symlink → Transcript asked n log out →
      Transcript asked n (.kind q (.ok k) :: log) out
  | exhausted {q} : Transcript asked 0 [.kind q (.ok .symlink)] (.error (.linkLoop asked))
  | unreadable {n q e} :
      Transcript asked (n + 1) [.kind q (.ok .symlink), .target q (.error e)] (.error (.resolution q e))
  | followed {n q t log out} : Transcript asked n log out →
      Transcript asked (n + 1) (.kind q (.ok .symlink) :: .target q (.ok t) :: log) out

/-- The walk is the same when its answers are written down, and these tell how it ends. -/
def Tells (fs : Filesystem σ) (asked : Path) (n : Nat) (left : List Step) (w : Place) : Prop :=
  ∀ s log, ∃ answers,
    follow fs.logged asked n left w (s, log) =
      ((follow fs asked n left w s).1, (follow fs asked n left w s).2, log ++ answers) ∧
    Transcript asked n answers (follow fs asked n left w s).1

/-- After a missing component nothing is asked. -/
lemma follow_of_missing (asked : Path) (n : Nat) (left : List Step) {w : Place} (h : w.missing.isSome = true) :
    ∃ v, ∀ {τ : Type} (fs : Filesystem τ) (s : τ), follow fs asked n left w s = (.ok v, s) := by
  induction left generalizing w with
  | nil => exact ⟨w, fun fs s => follow_nil fs n w s⟩
  | cons step left ih =>
    cases step with
    | root =>
      obtain ⟨v, hv⟩ := ih (w := { w with current := w.current.join .root }) h
      exact ⟨v, fun fs s => (follow_root fs n left w s).trans (hv fs s)⟩
    | up =>
      obtain ⟨v, hv⟩ := ih (w := { w with current := w.current.pop }) h
      exact ⟨v, fun fs s => (follow_up fs n left w s).trans (hv fs s)⟩
    | name c =>
      obtain ⟨v, hv⟩ := ih (w := w.enter c) h
      exact ⟨v, fun fs s => (follow_beyond fs n left s h).trans (hv fs s)⟩

/-- What a link does is told by the answers that come after its own. -/
def TellsLink (fs : Filesystem σ) (asked : Path) (n : Nat) : Prop :=
  ∀ c left w s log, ∃ answers,
    crossing fs.logged asked n c left w (s, log) =
      ((crossing fs asked n c left w s).1, (crossing fs asked n c left w s).2, log ++ answers) ∧
    Transcript asked n (.kind (w.current.child c) (.ok .symlink) :: answers) (crossing fs asked n c left w s).1

lemma tells_of_link {fs : Filesystem σ} (hlink : TellsLink fs asked n) (left : List Step) (w : Place) :
    Tells fs asked n left w := by
  induction left generalizing w with
  | nil =>
    intro s log
    rw [follow_nil, follow_nil]
    exact ⟨[], by rw [List.append_nil], .done⟩
  | cons step left ih =>
    intro s log
    cases step with
    | root =>
      rw [follow_root, follow_root]
      exact ih _ s log
    | up =>
      rw [follow_up, follow_up]
      exact ih _ s log
    | name c =>
      by_cases hm : w.missing = none
      · -- the answer about the entry comes first
        rw [follow_name fs.logged n left _ hm, follow_name fs n left s hm, fs.logged_entryKind]
        rcases fs.entryKind (w.current.child c) s with ⟨e | kind, s'⟩
        · by_cases he : e.isMissing = true
          · obtain ⟨v, hv⟩ := follow_of_missing asked n left (w := w.lose c) rfl
            simp only [he, if_true, hv]
            exact ⟨_, rfl, .missing he⟩
          · simp only [he, Bool.false_eq_true, if_false]
            exact ⟨_, rfl, .failed (by simpa using he)⟩
        · cases kind with
          | symlink =>
            obtain ⟨answers, hsame, htold⟩ := hlink c left w s' (log ++ [.kind (w.current.child c) (.ok .symlink)])
            exact ⟨_, hsame.trans (by rw [List.append_assoc]; rfl), htold⟩
          | file =>
            obtain ⟨answers, hsame, htold⟩ := ih (w.enter c) s' (log ++ [.kind (w.current.child c) (.ok .file)])
            exact ⟨_, hsame.trans (by rw [List.append_assoc]; rfl), .plain (k := .file) (by decide) htold⟩
          | dir =>
            obtain ⟨answers, hsame, htold⟩ := ih (w.enter c) s' (log ++ [.kind (w.current.child c) (.ok .dir)])
            exact ⟨_, hsame.trans (by rw [List.append_assoc]; rfl), .plain (k := .dir) (by decide) htold⟩
      · have hsome : w.missing.isSome = true := Option.isSome_iff_ne_none.mpr hm
        rw [follow_beyond _ n left _ hsome, follow_beyond _ n left _ hsome]
        exact ih (w.enter c) s log

/-- Whatever a walk is told, its answers tell how it ends. -/
theorem exists_transcript (fs : Filesystem σ) (asked : Path) (n : Nat) (left : List Step) (w : Place) :
    Tells fs asked n left w := by
  induction n generalizing left w with
  | zero => exact tells_of_link (fun c left w s log => ⟨[], by rw [List.append_nil]; rfl, .exhausted⟩) left w
  | succ n ih =>
    refine tells_of_link (fun c left w s log => ?_) left w
    rw [crossing, crossing, fs.logged_readLink]
    rcases fs.readLink (w.current.child c) s with ⟨e | t, s'⟩
    · exact ⟨_, rfl, .unreadable⟩
    · obtain ⟨answers, hsame, htold⟩ :=
        ih (steps t ++ left) (w.cross c t) s' (log ++ [.target (w.current.child c) (.ok t)])
      exact ⟨_, hsame.trans (by rw [List.append_assoc]; rfl), .followed (t := t) htold⟩

/-! ### What answers tell -/

/-- A link is found after `k` others were followed. -/
def FindsLink (k : Nat) (log : List Answer) : Prop :=
  ∃ before q after, log = before ++ .kind q (.ok .symlink) :: after ∧ before.countP Answer.isFollowed = k

lemma not_findsLink_nil {k : Nat} : ¬ FindsLink k [] := by
  rintro ⟨before, q, after, hlog, -⟩
  simp at hlog

lemma findsLink_cons {k : Nat} {a : Answer} :
    FindsLink k (a :: log) ↔ (k = 0 ∧ ∃ q, a = .kind q (.ok .symlink)) ∨
      ∃ j, FindsLink j log ∧ j + (if a.isFollowed then 1 else 0) = k := by
  constructor
  · rintro ⟨before, q, after, hlog, hcount⟩
    rcases List.cons_eq_append_iff.mp hlog with ⟨rfl, ha⟩ | ⟨before', rfl, hrest⟩
    · exact Or.inl ⟨hcount.symm, q, (List.cons.inj ha).1.symm⟩
    · rw [List.countP_cons] at hcount
      exact Or.inr ⟨_, ⟨before', q, after, hrest, rfl⟩, hcount⟩
  · rintro (⟨rfl, q, rfl⟩ | ⟨j, ⟨before, q, after, rfl, rfl⟩, hk⟩)
    · exact ⟨[], q, log, rfl, rfl⟩
    · exact ⟨a :: before, q, after, rfl, by rw [List.countP_cons, hk]⟩

/-- The answers account for how a resolution that may follow so many links ends. -/
structure Accounts {α : Type} (limit : Nat) (log : List Answer) (out : Except WatchError α) : Prop where
  reads_le : log.countP Answer.isRead ≤ limit
  /-- A loop is reported exactly if one link more is found than may be followed. -/
  loop : (∃ asked, out = .error (.linkLoop asked)) ↔ FindsLink limit log
  /-- An entry is named exactly if it cannot be read, or cannot be inspected and is not just missing. -/
  resolution : ∀ q e, out = .error (.resolution q e) ↔
    .target q (.error e) ∈ log ∨ .kind q (.error e) ∈ log ∧ e.kind ≠ .notFound ∧ e.kind ≠ .notADirectory
  /-- Nothing more is asked once a component was reported missing. -/
  silent : ∀ before q e after, log = before ++ .kind q (.error e) :: after →
    (e.kind = .notFound ∨ e.kind = .notADirectory) → after = []

lemma isMissing_eq_false {e : IoError} :
    e.isMissing = false ↔ e.kind ≠ .notFound ∧ e.kind ≠ .notADirectory := by
  simp [IoError.isMissing]

lemma Transcript.reads_le {out : Except WatchError Place} (h : Transcript asked n log out) :
    log.countP Answer.isRead ≤ n := by
  induction h with
  | done => simp
  | missing => simp [Answer.isRead]
  | failed => simp [Answer.isRead]
  | plain _ _ ih => simpa [List.countP_cons, Answer.isRead] using ih
  | exhausted => simp [Answer.isRead]
  | unreadable => simp [List.countP_cons, Answer.isRead]
  | followed _ ih => simpa [List.countP_cons, Answer.isRead] using ih

lemma Transcript.loop_iff {out : Except WatchError Place} (h : Transcript asked n log out) :
    (∃ p, out = .error (.linkLoop p)) ↔ FindsLink n log := by
  induction h with
  | done => simp [not_findsLink_nil]
  | missing => simp [findsLink_cons, not_findsLink_nil]
  | failed => simp [findsLink_cons, not_findsLink_nil]
  | plain hk _ ih => simp [findsLink_cons, Answer.isFollowed, hk, ih]
  | exhausted => simp [findsLink_cons]
  | unreadable => simp [findsLink_cons, not_findsLink_nil]
  | followed _ ih => simp [findsLink_cons, Answer.isFollowed, ih]

lemma Transcript.resolution_iff {out : Except WatchError Place} (h : Transcript asked n log out) (q : Path)
    (e : IoError) : out = .error (.resolution q e) ↔
      .target q (.error e) ∈ log ∨ .kind q (.error e) ∈ log ∧ e.isMissing = false := by
  induction h with
  | done => simp
  | missing he =>
    refine iff_of_false (by simp) ?_
    rintro (hmem | ⟨hmem, hfail⟩)
    · cases List.mem_singleton.mp hmem
    · cases List.mem_singleton.mp hmem
      rw [he] at hfail
      cases hfail
  | failed he =>
    constructor
    · rintro ⟨⟩
      exact Or.inr ⟨List.mem_singleton_self _, he⟩
    · rintro (hmem | ⟨hmem, -⟩) <;> cases List.mem_singleton.mp hmem
      rfl
  | plain _ _ ih => simp [ih]
  | exhausted => simp
  | unreadable =>
    constructor
    · rintro ⟨⟩
      exact Or.inl (by simp)
    · rintro (hmem | ⟨hmem, -⟩)
      · obtain ⟨rfl, rfl⟩ : q = _ ∧ e = _ := by simpa using hmem
        rfl
      · simp at hmem
  | followed _ ih => simp [ih]

/-- A failure to inspect an entry is the last answer. -/
lemma Transcript.silent {out : Except WatchError Place} (h : Transcript asked n log out)
    {before after : List Answer} {q : Path} {e : IoError} (hlog : log = before ++ .kind q (.error e) :: after) :
    after = [] := by
  induction h generalizing before with
  | done => simp at hlog
  | missing | failed =>
    rcases List.cons_eq_append_iff.mp hlog with ⟨-, hlast⟩ | ⟨_, -, hrest⟩
    · exact (List.cons.inj hlast).2
    · simp at hrest
  | plain _ _ ih =>
    rcases List.cons_eq_append_iff.mp hlog with ⟨-, hlast⟩ | ⟨_, -, hrest⟩
    · cases hlast
    · exact ih hrest
  | exhausted => simp [List.cons_eq_append_iff] at hlog
  | unreadable => simp [List.cons_eq_append_iff] at hlog
  | followed _ ih =>
    rcases List.cons_eq_append_iff.mp hlog with ⟨-, hlast⟩ | ⟨_, -, hrest⟩
    · cases hlast
    · rcases List.cons_eq_append_iff.mp hrest with ⟨-, hlast⟩ | ⟨_, -, hrest⟩
      · cases hlast
      · exact ih hrest

lemma Transcript.accounts {out : Except WatchError Place} (h : Transcript asked n log out) :
    Accounts n log (out.map Place.resolution) where
  reads_le := h.reads_le
  loop := by
    rw [← h.loop_iff]
    cases out <;> simp [Except.map]
  resolution q e := by
    rw [← isMissing_eq_false, ← h.resolution_iff q e]
    cases out <;> simp [Except.map]
  silent before q e after hlog _ := h.silent hlog

/-- Without a directory to start from nothing is asked about entries. -/
lemma accounts_io {α : Type} (e : IoError) : Accounts (α := α) n [] (.error (.io e)) where
  reads_le := Nat.zero_le n
  loop := by simp [not_findsLink_nil]
  resolution q e := by simp
  silent before q e after hlog := by simp at hlog

lemma absolutize_logged (fs : Filesystem σ) (p : Path) (s : σ) :
    absolutize fs.logged p (s, []) = ((absolutize fs p s).1, (absolutize fs p s).2, []) := by
  unfold absolutize
  by_cases hp : p.isRooted = true
  · rw [if_pos hp, if_pos hp]
  · rw [if_neg hp, if_neg hp]
    dsimp only [Filesystem.logged]
    rcases fs.currentDir s with ⟨_ | _, _⟩ <;> rfl

lemma io_of_absolutize {fs : Filesystem σ} {p : Path} {s : σ} {err : WatchError}
    (h : (absolutize fs p s).1 = .error err) : ∃ e, err = .io e := by
  unfold absolutize at h
  split at h
  · cases h
  · rcases hdir : fs.currentDir s with ⟨e | dir, s'⟩
    · rw [hdir] at h
      exact ⟨e, (Except.error.inj h).symm⟩
    · rw [hdir] at h
      cases h

lemma resolve_of_absolutize {fs : Filesystem σ} {p : Path} {s : σ} {asked : Path} {s₀ : σ}
    (h : absolutize fs p s = (.ok asked, s₀)) :
    resolve fs p s = ((follow fs asked maxHops (steps asked) .start s₀).1.map Place.resolution,
      (follow fs asked maxHops (steps asked) .start s₀).2) := by
  rw [resolve, h]
  rfl

lemma resolve_of_io {fs : Filesystem σ} {p : Path} {s : σ} {err : WatchError} {s₀ : σ}
    (h : absolutize fs p s = (.error err, s₀)) : resolve fs p s = (.error err, s₀) := by
  rw [resolve, h]

/-- **A walk ends and accounts for how it does.** Whatever the filesystem answers, even if it changes from question to
question, the walk comes to its end after some number of steps, and that is what `resolve` gives. It follows at most 40
links; a loop is reported exactly if a link is found after 40 were followed; an entry is named exactly if its link could
not be read, or it could not be inspected for another reason than that it is missing; and after a missing component
nothing more is asked. -/
theorem resolve_accounts (fs : Filesystem σ) (p : Path) (s : σ) :
    (∀ asked s₀, absolutize fs p s = (.ok asked, s₀) → ∃ k out s₁,
      (Stage.advance fs asked)^[k] (.going maxHops (steps asked) .start, s₀) = (.ended out, s₁) ∧
      resolve fs p s = (out.map Place.resolution, s₁)) ∧
    resolve fs.logged p (s, []) = ((resolve fs p s).1, (resolve fs p s).2, fs.transcript p s) ∧
    Accounts 40 (fs.transcript p s) (resolve fs p s).1 := by
  refine ⟨fun asked s₀ habs => ?_, ?_⟩
  · obtain ⟨k, hk⟩ := Stage.exists_ended fs asked (.going maxHops (steps asked) .start) s₀
    exact ⟨k, _, _, hk, resolve_of_absolutize habs⟩
  · have hlogged := absolutize_logged fs p s
    unfold Filesystem.transcript
    rcases habs : absolutize fs p s with ⟨err | asked, s₀⟩
    · rw [habs] at hlogged
      obtain ⟨e, rfl⟩ := io_of_absolutize (congrArg Prod.fst habs)
      rw [resolve_of_io hlogged, resolve_of_io habs]
      exact ⟨rfl, accounts_io e⟩
    · rw [habs] at hlogged
      obtain ⟨answers, hsame, htold⟩ := exists_transcript fs asked maxHops (steps asked) .start s₀ []
      rw [resolve_of_absolutize hlogged, resolve_of_absolutize habs, hsame]
      exact ⟨rfl, htold.accounts⟩

end Resolution

end LinkWatch
