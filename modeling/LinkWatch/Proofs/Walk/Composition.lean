import LinkWatch.Proofs.Walk.Idempotence
import LinkWatch.Proofs.Walk.Transcript

/-!
Resolving a path in two parts. Where the first part leads is walked to again without crossing a link, so the second part
is walked from there as it is after the first, except that the links of the first part count (`exists_sequel`).
So resolution composes (`resolve_join`).
-/

namespace LinkWatch

/-- How many links the resolution of a path follows. -/
def Snapshot.followed (f : Snapshot) (p : Path) : Nat :=
  ((f.filesystem : Filesystem Unit).transcript p ()).countP Answer.isFollowed

namespace Resolution

variable {f : Snapshot} {asked : Path}

/-! ### The links that are followed -/

@[simp] lemma countP_kind (log : List Answer) (q : Path) (a : Except IoError EntryKind) :
    (log ++ [Answer.kind q a]).countP Answer.isFollowed = log.countP Answer.isFollowed := by
  simp [Answer.isFollowed]

@[simp] lemma countP_target (log : List Answer) (q t : Path) :
    (log ++ [Answer.target q (.ok t)]).countP Answer.isFollowed = log.countP Answer.isFollowed + 1 := by
  simp [Answer.isFollowed]

/-- All links that a walk finds are followed, except perhaps the last. -/
theorem Run.found_le {n left w seen out} (h : Run f asked n left w seen out) (log : List Answer) :
    log.countP Answer.isFollowed + found f seen ≤
      (follow (f.filesystem : Filesystem Unit).logged asked n left w ((), log)).2.2.countP Answer.isFollowed + 1 := by
  have hk : ∀ p log, (f.filesystem : Filesystem Unit).logged.entryKind p ((), log) =
      (f.entryKind p, (), log ++ [.kind p (f.entryKind p)]) := fun _ _ => rfl
  have hr : ∀ p log, (f.filesystem : Filesystem Unit).logged.readLink p ((), log) =
      (f.readLink p, (), log ++ [.target p (f.readLink p)]) := fun _ _ => rfl
  induction h generalizing log with
  | done =>
    rw [follow_nil]
    exact Nat.le_succ _
  | root _ ih => rw [follow_root]; exact ih log
  | up _ ih => rw [follow_up]; exact ih log
  | beyond hm _ ih => rw [follow_beyond _ _ _ _ hm]; exact ih log
  | @plain _ _ w c _ _ hm hl _ ih =>
    obtain ⟨kind, hkind, hne⟩ := entryKind_of_plain hl
    have hnext := ih (log ++ [.kind (w.current.child c) (.ok kind)])
    rw [countP_kind] at hnext
    rw [follow_name _ _ _ _ hm, hk, hkind, found_plain hl]
    cases kind with
    | symlink => exact absurd rfl hne
    | file => exact hnext
    | dir => exact hnext
  | @missing _ _ w c _ _ hm hl _ ih =>
    obtain ⟨e, he, hmiss⟩ := entryKind_of_missing hl
    have hnext := ih (log ++ [.kind (w.current.child c) (.error e)])
    rw [countP_kind] at hnext
    rw [follow_name _ _ _ _ hm, hk, he, found_missing hl]
    simp only [hmiss, if_true]
    exact hnext
  | failed hm hl =>
    obtain ⟨he, hmiss⟩ := entryKind_of_failed hl
    rw [follow_name _ _ _ _ hm, hk, he, found_failed hl]
    simp [hmiss, Answer.isFollowed]
  | @crossed _ _ w c t _ _ hm hl _ ih =>
    obtain ⟨hkind, hread⟩ := entryKind_of_link hl
    have hnext := ih (log ++ [.kind (w.current.child c) (.ok .symlink)] ++ [.target (w.current.child c) (.ok t)])
    rw [countP_target, countP_kind] at hnext
    rw [follow_name _ _ _ _ hm, hk, hkind, found_link hl]
    dsimp only [crossing]
    rw [hr, hread]
    dsimp only
    omega
  | unreadable hm hl =>
    obtain ⟨hkind, hread⟩ := entryKind_of_link hl
    rw [follow_name _ _ _ _ hm, hk, hkind, found_link hl]
    dsimp only [crossing]
    rw [hr, hread]
    simp [Answer.isFollowed]
  | exhausted hm hl =>
    rw [follow_name _ _ _ _ hm, hk, (entryKind_of_link hl).1, found_link hl]
    simp [crossing]

/-! ### Composition -/

/-- The walk of a path goes on from where its first part leads. -/
lemma run_join {p q : Path} (hp : p.isRooted = true) (hq : q.isRooted = false) {v : Place} {seen₀ seen : List Path}
    {out : Except WatchError Place} (h : Run f asked maxHops (steps p) .start seen₀ (.ok v))
    (hrest : Run f (p.join q).tidy (maxHops - v.hops.length) (steps q) v seen out) :
    Run f (p.join q).tidy maxHops (steps (p.join q).tidy) .start (seen₀ ++ seen) out := by
  have htally : v.hops.length = 0 + found f seen₀ := h.tally
  have hle : v.hops.length ≤ 0 + maxHops := h.length_hops
  have hrun := h.append hrest
  rw [show maxHops - v.hops.length + found f seen₀ = maxHops by omega, ← steps_join hp hq,
    ← steps_tidy (Path.isRooted_join hp q)] at hrun
  exact hrun

lemma found_le_followed {p : Path} (hp : p.isRooted = true) {seen : List Path} {out : Except WatchError Place}
    (h : Run f p.tidy maxHops (steps p.tidy) .start seen out) : found f seen ≤ f.followed p + 1 := by
  have habs : absolutize (f.filesystem : Filesystem Unit).logged p ((), []) = (.ok p.tidy, (), []) := by
    rw [absolutize, if_pos hp]
  have hle := h.found_le []
  rw [Snapshot.followed, Filesystem.transcript, resolve_of_absolutize habs]
  simpa using hle

/-- What the walk of `q` comes to from where `p` leads, over `k` links, on its own and after `p`. -/
structure Sequel (f : Snapshot) (p q : Path) (v : Place) (k : Nat) (out : Except WatchError Place) : Prop where
  alone : f.resolve (v.current.join q) = out.map Place.resolution
  tally : Tally maxHops ⟨v.current, [], none⟩ k out
  followed : k ≤ f.followed (v.current.join q) + 1
  fits : k ≤ maxHops - v.hops.length → (∀ x, out ≠ .error (.linkLoop x)) →
    f.resolve (p.join q) = (out.map (Place.after v.hops)).map Place.resolution
  short : maxHops - v.hops.length < k → f.resolve (p.join q) = .error (.linkLoop (p.join q).tidy)

theorem exists_sequel {p q : Path} (hp : p.isRooted = true) (hq : q.isRooted = false) {v : Place} (h : Arrives f p v)
    (hmissing : v.missing = none) : ∃ k out, Sequel f p q v k out := by
  have hsolid := (h.firm.stands hmissing).resolve_right (by simp)
  have hd := hsolid.clean.isRooted
  obtain ⟨seen, out, hrest⟩ := exists_run f (v.current.join q).tidy maxHops (steps q) ⟨v.current, [], none⟩
  -- where `p` leads is walked to again without a link
  obtain ⟨seen₀, hself⟩ := hsolid.run_self p.tidy maxHops
  have halone := run_join hd hq hself hrest
  have hnone : 0 = 0 + found f seen₀ := hself.tally
  have hfound := found_le_followed (Path.isRooted_join hd q) halone
  rw [found_append] at hfound
  -- after `p` the walk stands there with the links of `p`
  have hfirst := h.run
  rw [steps_tidy hp] at hfirst
  have hplace : Place.after v.hops ⟨v.current, [], none⟩ = v := by simp [Place.after, ← hmissing]
  refine ⟨found f seen, out, resolve_of_run (Path.isRooted_join hd q) halone, hrest.tally, by omega, fun hm hout => ?_,
    fun hm => ?_⟩
  · have hafter := hrest.after hout v.hops (p.join q).tidy hm
    rw [hplace] at hafter
    exact resolve_of_run (Path.isRooted_join hp q) (run_join hp hq hfirst hafter)
  · obtain ⟨seen', hloop⟩ := hrest.short v.hops (p.join q).tidy hm
    rw [hplace] at hloop
    exact resolve_of_run (Path.isRooted_join hp q) (run_join hp hq hfirst hloop)

lemma eq_ok_of_map {out : Except WatchError Place} {r : Resolution} (h : out.map Place.resolution = .ok r) :
    ∃ u, out = .ok u ∧ u.resolution = r := by
  cases out with
  | ok u => exact ⟨u, rfl, Except.ok.inj h⟩
  | error err => cases h

lemma eq_error_of_map {out : Except WatchError Place} {err : WatchError}
    (h : out.map Place.resolution = .error err) : out = .error err := by
  cases out with
  | ok u => cases h
  | error e => rw [Except.error.inj h]

/-- **Resolution composes.** A path after one that leads to what is there resolves as it does from there on, with the
links of both parts; more than 40 of them are a loop. An error on the second part stays the same as long as the links
leave room for it, and a loop stays a loop. -/
theorem resolve_join (f : Snapshot) {p q : Path} {a : Resolution} (hp : p.isRooted = true) (hq : q.isRooted = false)
    (ha : f.resolve p = .ok a) (hpending : a.pending = none)
    (hthere : a.resolved = .root ∨ ∃ kind, f.entryKind a.resolved = .ok kind) :
    (∀ b, f.resolve (a.resolved.join q) = .ok b →
      (a.hops.length + b.hops.length ≤ 40 →
        f.resolve (p.join q) = .ok ⟨b.resolved, a.hops ++ b.hops, b.pending⟩) ∧
      (40 < a.hops.length + b.hops.length → f.resolve (p.join q) = .error (.linkLoop (p.join q).tidy))) ∧
    (∀ path e, f.resolve (a.resolved.join q) = .error (.resolution path e) →
      a.hops.length + f.followed (a.resolved.join q) < 40 →
      f.resolve (p.join q) = .error (.resolution path e)) ∧
    (∀ asked, f.resolve (a.resolved.join q) = .error (.linkLoop asked) →
      f.resolve (p.join q) = .error (.linkLoop (p.join q).tidy)) := by
  obtain ⟨v, harr, rfl⟩ := exists_arrives hp ha
  obtain ⟨k, out, hseq⟩ := exists_sequel hp hq harr (missing_eq_none harr.clean harr.faithful hpending hthere)
  have htally := hseq.tally
  have hle : v.hops.length ≤ 0 + maxHops := harr.run.length_hops
  have hmax : maxHops = 40 := rfl
  refine ⟨fun b hb => ?_, fun path e he hroom => ?_, fun asked hloop => ?_⟩
  · obtain ⟨u, rfl, rfl⟩ := eq_ok_of_map (hseq.alone.symm.trans hb)
    have hk : u.hops.length = 0 + k := htally
    change (v.hops.length + u.hops.length ≤ 40 → _) ∧ (40 < v.hops.length + u.hops.length → _)
    exact ⟨fun hroom => hseq.fits (by omega) (by simp), fun hmany => hseq.short (by omega)⟩
  · obtain rfl := eq_error_of_map (hseq.alone.symm.trans he)
    have hk := hseq.followed
    have hroom : v.hops.length + f.followed (v.current.join q) < 40 := hroom
    exact hseq.fits (by omega) (by simp)
  · obtain rfl := eq_error_of_map (hseq.alone.symm.trans hloop)
    have hk : k = maxHops + 1 := htally
    exact hseq.short (by omega)

/-- A tree with the file `/f`, an entry `/x` that cannot be inspected, and a link `/l` to `.`. -/
def spin : Snapshot where
  entryKind q :=
    if q.components = [.root, .name [0x66]] then .ok .file
    else if q.components = [.root, .name [0x6c]] then .ok .symlink
    else if q.components = [.root, .name [0x78]] then .error (.plain .permissionDenied)
    else .error (.os .noEntry)
  readLink _ := .ok ⟨[0x2e]⟩
  currentDir := .ok .root

/-- The link `/l`. -/
def spun : Hop := ⟨⟨[0x2f, 0x6c]⟩, .root, [0x6c], ⟨[0x2e]⟩⟩

/-- The path `l/l/…` over so many links. -/
def turns (k : Nat) : Path := ⟨[Path.slash].intercalate (List.replicate k [0x6c])⟩

lemma resolve_spin : spin.resolve ⟨[0x2f, 0x6c]⟩ = .ok ⟨.root, [spun], none⟩ := rfl

/-- After `/l`, the path `l/f` leads to `/f` over two links, `x` fails as it does from the root, and 40 links more
are a loop. -/
theorem resolve_join_spin :
    spin.resolve ⟨[0x2f, 0x6c, 0x2f, 0x6c, 0x2f, 0x66]⟩ = .ok ⟨⟨[0x2f, 0x66]⟩, [spun, spun], none⟩ ∧
    spin.resolve ⟨[0x2f, 0x6c, 0x2f, 0x78]⟩ = .error (.resolution ⟨[0x2f, 0x78]⟩ (.plain .permissionDenied)) ∧
    ∃ asked, spin.resolve (Path.join ⟨[0x2f, 0x6c]⟩ (turns 40)) = .error (.linkLoop asked) := by
  have hfile := (resolve_join spin (q := ⟨[0x6c, 0x2f, 0x66]⟩) rfl rfl resolve_spin rfl (Or.inl rfl)).1
    ⟨⟨[0x2f, 0x66]⟩, [spun], none⟩ rfl
  have hdenied := (resolve_join spin (q := ⟨[0x78]⟩) rfl rfl resolve_spin rfl (Or.inl rfl)).2.1
    ⟨[0x2f, 0x78]⟩ (.plain .permissionDenied) rfl
  have hloop := (resolve_join spin (q := turns 40) rfl rfl resolve_spin rfl (Or.inl rfl)).1
    ⟨.root, List.replicate 40 spun, none⟩ (by cbv)
  exact ⟨hfile.1 (by decide), hdenied (by decide), _, hloop.2 (by decide)⟩

end Resolution

end LinkWatch
