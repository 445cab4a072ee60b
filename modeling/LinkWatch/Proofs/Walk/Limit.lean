import LinkWatch.Proofs.Walk.Run

/-!
How many links a walk needs. They are counted on what it inspects (`found`), which is the same whatever the limit is.
A walk of one list of steps after another is the one walk and then the other (`Run.append`). How far it gets depends on
the links before it by their number alone: it goes on after them as it does alone if all links that it finds may be
crossed (`Run.after`), and ends in a loop if not (`Run.short`).
-/

namespace LinkWatch

/-- A link, whether it can be read or not. -/
def Look.isLink : Look → Bool
  | .link _ => true
  | _ => false

namespace Resolution

variable {f : Snapshot} {asked : Path}

/-- How many of these entries are links. -/
def found (f : Snapshot) (seen : List Path) : Nat := seen.countP fun q => (f.look q).isLink

section Found

variable {q : Path} {seen : List Path}

@[simp] lemma found_nil : found f [] = 0 := rfl

@[simp] lemma found_append (seen seen' : List Path) : found f (seen ++ seen') = found f seen + found f seen' :=
  List.countP_append ..

lemma found_plain (h : f.look q = .plain) : found f (q :: seen) = found f seen := by
  simp [found, h, Look.isLink]

lemma found_missing (h : f.look q = .missing) : found f (q :: seen) = found f seen := by
  simp [found, h, Look.isLink]

lemma found_failed {e : IoError} (h : f.look q = .failed e) : found f (q :: seen) = found f seen := by
  simp [found, h, Look.isLink]

lemma found_link {t : Except IoError Path} (h : f.look q = .link t) : found f (q :: seen) = found f seen + 1 := by
  simp [found, h, Look.isLink]

end Found

/-! ### One walk after another -/

/-- A walk of some steps and then of the rest is the walk of all of them. -/
theorem Run.append {n left w seen v} (h : Run f asked n left w seen (.ok v)) {asked' : Path} {m rest seen' out}
    (hrest : Run f asked' m rest v seen' out) :
    Run f asked' (m + found f seen) (left ++ rest) w (seen ++ seen') out := by
  generalize hout : (Except.ok v : Except WatchError Place) = out' at h
  induction h with
  | done =>
    cases hout
    exact hrest
  | root _ ih => exact .root (ih hout)
  | up _ ih => exact .up (ih hout)
  | beyond hm _ ih => exact .beyond hm (ih hout)
  | plain hm hl _ ih =>
    rw [found_plain hl]
    exact .plain hm hl (ih hout)
  | missing hm hl _ ih =>
    rw [found_missing hl]
    exact .missing hm hl (ih hout)
  | crossed hm hl _ ih =>
    rw [found_link hl]
    refine .crossed hm hl ?_
    have hall := ih hout
    rw [List.append_assoc] at hall
    exact hall
  | failed => cases hout
  | unreadable => cases hout
  | exhausted => cases hout

/-! ### Links before a walk -/

/-- The place with these links crossed before. -/
def Place.after (hs : List Hop) (w : Place) : Place := { w with hops := hs ++ w.hops }

lemma Place.after_cross (hs : List Hop) (w : Place) (c : FileName) (t : Path) :
    (w.after hs).cross c t = (w.cross c t).after hs := by
  simp [Place.after, Place.cross]

/-- If the links that a walk finds may all be crossed, it goes on after others as it does alone. -/
theorem Run.after {n left w seen out} (h : Run f asked n left w seen out) (hout : ∀ q, out ≠ .error (.linkLoop q))
    (hs : List Hop) (asked' : Path) {m : Nat} (hm : found f seen ≤ m) :
    Run f asked' m left (w.after hs) seen (out.map (Place.after hs)) := by
  induction h generalizing m with
  | done => exact .done
  | root _ ih => exact .root (ih hout hm)
  | up _ ih => exact .up (ih hout hm)
  | beyond hmiss _ ih => exact .beyond hmiss (ih hout hm)
  | plain hmiss hl _ ih => exact .plain hmiss hl (ih hout (found_plain hl ▸ hm))
  | missing hmiss hl _ ih => exact .missing hmiss hl (ih hout (found_missing hl ▸ hm))
  | failed hmiss hl => exact .failed hmiss hl
  | crossed hmiss hl _ ih =>
    rw [found_link hl] at hm
    obtain ⟨k, rfl⟩ := Nat.exists_eq_add_of_le' (Nat.le_of_add_left_le hm)
    refine .crossed hmiss hl ?_
    rw [Place.after_cross]
    exact ih hout (Nat.le_of_succ_le_succ hm)
  | unreadable hmiss hl =>
    rw [found_link hl] at hm
    obtain ⟨k, rfl⟩ := Nat.exists_eq_add_of_le' (Nat.le_of_add_left_le hm)
    exact .unreadable hmiss hl
  | exhausted => exact absurd rfl (hout _)

/-- If a walk finds more links than may be crossed, it ends at the first that is too many. -/
theorem Run.short {n left w seen out} (h : Run f asked n left w seen out) (hs : List Hop) (asked' : Path) {m : Nat}
    (hm : m < found f seen) :
    ∃ seen', Run f asked' m left (w.after hs) seen' (.error (.linkLoop asked')) := by
  induction h generalizing m with
  | done => simp at hm
  | root _ ih => exact (ih hm).imp fun _ => .root
  | up _ ih => exact (ih hm).imp fun _ => .up
  | beyond hmiss _ ih => exact (ih hm).imp fun _ => .beyond hmiss
  | plain hmiss hl _ ih =>
    obtain ⟨_, hrun⟩ := ih (found_plain hl ▸ hm)
    exact ⟨_, .plain hmiss hl hrun⟩
  | missing hmiss hl _ ih =>
    obtain ⟨_, hrun⟩ := ih (found_missing hl ▸ hm)
    exact ⟨_, .missing hmiss hl hrun⟩
  | failed hmiss hl => simp [found_failed hl] at hm
  | crossed hmiss hl _ ih =>
    cases m with
    | zero => exact ⟨_, .exhausted hmiss hl⟩
    | succ m =>
      rw [found_link hl] at hm
      obtain ⟨_, hrun⟩ := ih (Nat.lt_of_succ_lt_succ hm)
      rw [← Place.after_cross] at hrun
      exact ⟨_, .crossed hmiss hl hrun⟩
  | unreadable hmiss hl | exhausted hmiss hl =>
    obtain rfl : m = 0 := by simpa [found_link hl] using hm
    exact ⟨_, .exhausted hmiss hl⟩

/-! ### How many links a walk finds -/

/-- How many links are found, by how the walk ends. -/
def Tally (n : Nat) (w : Place) (k : Nat) : Except WatchError Place → Prop
  | .ok v => v.hops.length = w.hops.length + k
  | .error (.linkLoop _) => k = n + 1
  | .error _ => True

lemma Tally.cross {n k : Nat} {w : Place} {c : FileName} {t : Path} {out : Except WatchError Place}
    (h : Tally n (w.cross c t) k out) : Tally (n + 1) w (k + 1) out := by
  cases out with
  | ok v =>
    have hlength : v.hops.length = (w.hops ++ [_]).length + k := h
    rw [List.length_append, List.length_singleton] at hlength
    show v.hops.length = w.hops.length + (k + 1)
    omega
  | error err =>
    cases err with
    | linkLoop => exact congrArg Nat.succ h
    | invalidArgument | closed | resolution | sourceClosed | native | setting | io | document => trivial

theorem Run.tally {n left w seen out} (h : Run f asked n left w seen out) : Tally n w (found f seen) out := by
  induction h with
  | done => rfl
  | root _ ih => exact ih
  | up _ ih => exact ih
  | beyond _ _ ih => exact ih
  | plain _ hl _ ih =>
    rw [found_plain hl]
    exact ih
  | missing _ hl _ ih =>
    rw [found_missing hl]
    exact ih
  | failed => trivial
  | crossed _ hl _ ih =>
    rw [found_link hl]
    exact ih.cross
  | unreadable => trivial
  | exhausted _ hl => exact found_link hl

lemma Run.length_hops {n left w seen v} (h : Run f asked n left w seen (.ok v)) :
    v.hops.length ≤ w.hops.length + n := by
  generalize hout : (Except.ok v : Except WatchError Place) = out at h
  induction h with
  | done =>
    cases hout
    exact Nat.le_add_right _ _
  | root _ ih => exact ih hout
  | up _ ih => exact ih hout
  | beyond _ _ ih => exact ih hout
  | plain _ _ _ ih => exact ih hout
  | missing _ _ _ ih => exact ih hout
  | crossed _ _ _ ih =>
    have hle := ih hout
    simp only [Place.cross, List.length_append, List.length_singleton] at hle
    omega
  | failed => cases hout
  | unreadable => cases hout
  | exhausted => cases hout

end Resolution

end LinkWatch
