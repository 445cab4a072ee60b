import LinkWatch.Proofs.Walk.Coverage
import Mathlib.Logic.Function.Iterate

/-!
A walk one question at a time, for trees that change between two questions. A step asks at most one question
(`Stage.next`). What a stage leads to if nothing changes any more (`Stage.finish`) stays the same over a step
(`finish_next`), and the steps come to an end (`exists_ended`); so a walk that nobody disturbs is what `follow` does.
-/

namespace LinkWatch.Resolution

/-- How far a walk has come. -/
inductive Stage where
  /-- These steps are left, and so many links may be crossed. -/
  | going (more : Nat) (left : List Step) (place : Place)
  /-- The next entry was found to be a link, and is still to be read. -/
  | reading (more : Nat) (name : FileName) (left : List Step) (place : Place)
  | ended (out : Except WatchError Place)

namespace Stage

variable {σ : Type} {f : Snapshot} {asked p : Path} {st : Stage}

/-- The walk of a rooted path. -/
def start (p : Path) : Stage := .going maxHops (steps p.tidy) .start

/-- The links that were read so far. -/
def hops : Stage → List Hop
  | .going _ _ w => w.hops
  | .reading _ _ _ w => w.hops
  | .ended (.ok w) => w.hops
  | .ended (.error _) => []

def failed : Stage → Bool
  | .ended (.error _) => true
  | _ => false

/-- Takes one step. -/
def next (fs : Filesystem σ) (asked : Path) : Stage → σ → Stage × σ
  | .going _ [] w, s => (.ended (.ok w), s)
  | .going n (.root :: left) w, s => (.going n left { w with current := w.current.join .root }, s)
  | .going n (.up :: left) w, s => (.going n left { w with current := w.current.pop }, s)
  | .going n (.name c :: left) w, s =>
    if w.missing.isSome then (.going n left (w.enter c), s)
    else
      match fs.entryKind (w.current.child c) s with
      | (.ok .symlink, s) => (.reading n c left w, s)
      | (.ok _, s) => (.going n left (w.enter c), s)
      | (.error e, s) =>
        if e.isMissing then (.going n left (w.lose c), s)
        else (.ended (.error (.resolution (w.current.child c) e)), s)
  | .reading 0 _ _ _, s => (.ended (.error (.linkLoop asked)), s)
  | .reading (n + 1) c left w, s =>
    match fs.readLink (w.current.child c) s with
    | (.error e, s) => (.ended (.error (.resolution (w.current.child c) e)), s)
    | (.ok t, s) => (.going n (steps t ++ left) (w.cross c t), s)
  | .ended out, s => (.ended out, s)

/-- What a walk comes to from here on. -/
def finish (fs : Filesystem σ) (asked : Path) : Stage → σ → Except WatchError Place × σ
  | .going n left w, s => follow fs asked n left w s
  | .reading n c left w, s => crossing fs asked n c left w s
  | .ended out, s => (out, s)

/-! ### A walk that nobody disturbs -/

/-- A step does not change what the walk comes to. -/
theorem finish_next (fs : Filesystem σ) (asked : Path) (st : Stage) (s : σ) :
    (st.next fs asked s).1.finish fs asked (st.next fs asked s).2 = st.finish fs asked s := by
  cases st with
  | going n left w =>
    rcases left with _ | ⟨_ | _ | c, left⟩
    · exact (follow_nil fs n w s).symm
    · exact (follow_root fs n left w s).symm
    · exact (follow_up fs n left w s).symm
    · by_cases hm : w.missing = none
      · rw [next, if_neg (by simp [hm]), finish, follow_name fs n left s hm]
        rcases fs.entryKind (w.current.child c) s with ⟨e | kind, s⟩
        · dsimp only
          split <;> rfl
        · cases kind <;> rfl
      · have hsome : w.missing.isSome = true := Option.isSome_iff_ne_none.mpr hm
        rw [next, if_pos hsome]
        exact (follow_beyond fs n left s hsome).symm
  | reading n c left w =>
    cases n with
    | zero => rfl
    | succ n =>
      rw [next, finish, crossing]
      rcases fs.readLink (w.current.child c) s with ⟨_ | _, _⟩ <;> rfl
  | ended out => rfl

/-- One step of a walk and of the state around it. -/
def advance (fs : Filesystem σ) (asked : Path) (x : Stage × σ) : Stage × σ := x.1.next fs asked x.2

lemma finish_iterate (fs : Filesystem σ) (asked : Path) (k : Nat) (x : Stage × σ) :
    ((advance fs asked)^[k] x).1.finish fs asked ((advance fs asked)^[k] x).2 = x.1.finish fs asked x.2 := by
  induction k generalizing x with
  | zero => rfl
  | succ k ih => rw [Function.iterate_succ_apply, ih, advance, finish_next]

/-- Where links end the walk or are crossed within the number of steps, so are all stretches before them. -/
lemma exists_ended_going (fs : Filesystem σ) (asked : Path) {n : Nat}
    (hlink : ∀ c left w s, ∃ k out s', (advance fs asked)^[k] (.reading n c left w, s) = (.ended out, s'))
    (left : List Step) (w : Place) (s : σ) :
    ∃ k out s', (advance fs asked)^[k] (.going n left w, s) = (.ended out, s') := by
  -- one step, and then as many as are left from there on
  have hstep : ∀ {x y : Stage × σ}, advance fs asked x = y →
      (∃ k out s', (advance fs asked)^[k] y = (.ended out, s')) →
      ∃ k out s', (advance fs asked)^[k] x = (.ended out, s') := by
    rintro x y rfl ⟨k, out, s', h⟩
    exact ⟨k + 1, out, s', h⟩
  induction left generalizing w s with
  | nil => exact ⟨1, _, _, rfl⟩
  | cons step left ih =>
    cases step with
    | root => exact hstep rfl (ih _ s)
    | up => exact hstep rfl (ih _ s)
    | name c =>
      by_cases hm : w.missing.isSome = true
      · exact hstep (by rw [advance, next, if_pos hm]) (ih (w.enter c) s)
      · rcases hk : fs.entryKind (w.current.child c) s with ⟨e | kind, s'⟩
        · by_cases he : e.isMissing = true
          · exact hstep (by rw [advance, next, if_neg hm, hk]; exact if_pos he) (ih (w.lose c) s')
          · exact hstep (by rw [advance, next, if_neg hm, hk]; exact if_neg he) ⟨0, _, _, rfl⟩
        · have hnext : advance fs asked (.going n (.name c :: left) w, s) =
              if kind = .symlink then (.reading n c left w, s') else (.going n left (w.enter c), s') := by
            rw [advance, next, if_neg hm, hk]
            cases kind <;> rfl
          by_cases hlinked : kind = .symlink
          · exact hstep (hnext.trans (if_pos hlinked)) (hlink c left w s')
          · exact hstep (hnext.trans (if_neg hlinked)) (ih (w.enter c) s')

/-- A walk comes to its end after some number of steps, and then with what it was to come to. -/
theorem exists_ended (fs : Filesystem σ) (asked : Path) (st : Stage) (s : σ) :
    ∃ k, (advance fs asked)^[k] (st, s) = (.ended (st.finish fs asked s).1, (st.finish fs asked s).2) := by
  have hend : ∃ k out s', (advance fs asked)^[k] (st, s) = (.ended out, s') := by
    -- each link that is crossed takes one from those that may be
    have hreading : ∀ n c left w s,
        ∃ k out s', (advance fs asked)^[k] (.reading n c left w, s) = (.ended out, s') := by
      intro n
      induction n with
      | zero => exact fun c left w s => ⟨1, _, _, rfl⟩
      | succ n ih =>
        intro c left w s
        rcases hr : fs.readLink (w.current.child c) s with ⟨e | t, s'⟩
        · exact ⟨1, .error (.resolution (w.current.child c) e), s', by
            rw [Function.iterate_one, advance, next, hr]⟩
        · obtain ⟨k, out, s'', h⟩ := exists_ended_going fs asked ih (steps t ++ left) (w.cross c t) s'
          refine ⟨k + 1, out, s'', ?_⟩
          rw [Function.iterate_succ_apply, advance, next, hr]
          exact h
    cases st with
    | going n left w => exact exists_ended_going fs asked (hreading n) left w s
    | reading n c left w => exact hreading n c left w s
    | ended out => exact ⟨0, out, s, rfl⟩
  obtain ⟨k, out, s', h⟩ := hend
  have hfinish := finish_iterate fs asked k (st, s)
  rw [h] at hfinish
  exact ⟨k, h.trans (by rw [← hfinish]; rfl)⟩

/-! ### A walk in a tree that changes -/

/-- One step in the tree as it stands. -/
def ask (f : Snapshot) (asked : Path) (st : Stage) : Stage := (st.next f.filesystem asked ()).1

/-- What the walk comes to if the tree stays as it stands. -/
def outcome (f : Snapshot) (asked : Path) (st : Stage) : Except WatchError Place := (st.finish f.filesystem asked ()).1

lemma outcome_ask (f : Snapshot) (asked : Path) (st : Stage) : (st.ask f asked).outcome f asked = st.outcome f asked :=
  congrArg Prod.fst (finish_next f.filesystem asked st ())

lemma iterate_ask (f : Snapshot) (asked : Path) (k : Nat) (st : Stage) :
    (advance f.filesystem asked)^[k] (st, ()) = ((ask f asked)^[k] st, ()) := by
  induction k generalizing st with
  | zero => rfl
  | succ k ih =>
    rw [Function.iterate_succ_apply, Function.iterate_succ_apply]
    exact ih (st.ask f asked)

lemma exists_iterate_ask (f : Snapshot) (asked : Path) (st : Stage) :
    ∃ k, (ask f asked)^[k] st = .ended (st.outcome f asked) := by
  obtain ⟨k, hk⟩ := exists_ended f.filesystem asked st ()
  rw [iterate_ask] at hk
  exact ⟨k, congrArg Prod.fst hk⟩

/-- What a step in a tree can do. -/
inductive Asked (f : Snapshot) (asked : Path) : Stage → Stage → Prop
  | done {n w} : Asked f asked (.going n [] w) (.ended (.ok w))
  | root {n left w} :
      Asked f asked (.going n (.root :: left) w) (.going n left { w with current := w.current.join .root })
  | up {n left w} : Asked f asked (.going n (.up :: left) w) (.going n left { w with current := w.current.pop })
  /-- Past a file or a directory, or past a missing component. -/
  | enter {n c left w} : Asked f asked (.going n (.name c :: left) w) (.going n left (w.enter c))
  | lose {n c left w} : Asked f asked (.going n (.name c :: left) w) (.going n left (w.lose c))
  | find {n c left w} : Asked f asked (.going n (.name c :: left) w) (.reading n c left w)
  | cross {n c left w t} : f.readLink (w.current.child c) = .ok t →
      Asked f asked (.reading (n + 1) c left w) (.going n (steps t ++ left) (w.cross c t))
  | fail {st err} : Asked f asked st (.ended (.error err))
  | stay {out} : Asked f asked (.ended out) (.ended out)

lemma asked_ask (f : Snapshot) (asked : Path) (st : Stage) : Asked f asked st (st.ask f asked) := by
  unfold ask
  cases st with
  | going n left w =>
    rcases left with _ | ⟨_ | _ | c, left⟩
    · exact .done
    · exact .root
    · exact .up
    · rw [next]
      split
      · exact .enter
      · dsimp only [Snapshot.filesystem]
        cases f.entryKind (w.current.child c) with
        | error e =>
          dsimp only
          split
          · exact .lose
          · exact .fail
        | ok kind =>
          cases kind with
          | symlink => exact .find
          | file => exact .enter
          | dir => exact .enter
  | reading n c left w =>
    cases n with
    | zero => exact .fail
    | succ n =>
      dsimp only [next, Snapshot.filesystem]
      cases hr : f.readLink (w.current.child c) with
      | error e => exact .fail
      | ok t => exact .cross hr
  | ended out => exact .stay

/-- A link that has been read was read before, or points there now. -/
lemma mem_hops_ask {h : Hop} (hh : h ∈ (st.ask f asked).hops) :
    h ∈ st.hops ∨ f.readLink h.link = .ok h.target := by
  have hasked := asked_ask f asked st
  generalize st.ask f asked = st' at hasked hh
  cases hasked with
  | cross hr =>
    rcases List.mem_append.mp hh with hh | hh
    · exact Or.inl hh
    · obtain rfl := List.mem_singleton.mp hh
      exact Or.inr hr
  | fail => cases hh
  | done | root | up | enter | lose | find | stay => exact Or.inl hh

lemma hops_subset_ask (hno : (st.ask f asked).failed = false) : st.hops ⊆ (st.ask f asked).hops := by
  have hasked := asked_ask f asked st
  generalize st.ask f asked = st' at hasked hno ⊢
  cases hasked with
  | cross => exact List.subset_append_left ..
  | fail => cases hno
  | done | root | up | enter | lose | find | stay => exact List.Subset.refl _

lemma failed_of_ask (hno : (st.ask f asked).failed = false) : st.failed = false := by
  cases st with
  | ended out => exact hno
  | going => rfl
  | reading => rfl

lemma resolve_eq_outcome (g : Snapshot) (hp : p.isRooted = true) :
    g.resolve p = ((start p).outcome g p.tidy).map Place.resolution := by
  unfold Snapshot.resolve LinkWatch.resolve absolutize
  rw [if_pos hp]
  rfl

end Stage

end LinkWatch.Resolution
