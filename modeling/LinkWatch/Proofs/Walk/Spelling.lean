import LinkWatch.Proofs.Path.Tidy
import LinkWatch.Resolution.Walk

/-!
Spellings of a path. A path is made rooted and tidy before anything else, and that depends on what the path says and,
unless it is rooted, on the current directory. So two spellings of a path resolve alike (`resolve_spelling`), and the
current directory never matters to a rooted path (`resolve_currentDir`).
-/

namespace LinkWatch

variable {σ : Type} {fs : Filesystem σ} {p q c : Path} {s : σ}

/-! ### Absolute paths -/

lemma absolutize_of_isRooted (hp : p.isRooted = true) (fs : Filesystem σ) (s : σ) :
    absolutize fs p s = (.ok p.tidy, s) := if_pos hp

/-- A path is put after the current directory and tidied. -/
lemma absolutize_eq (hdir : (fs.currentDir s).1 = .ok c) (p : Path) :
    absolutize fs p s = (.ok (c.join p).tidy, if p.isRooted then s else (fs.currentDir s).2) := by
  by_cases hp : p.isRooted = true
  · rw [absolutize_of_isRooted hp, if_pos hp, Path.join, if_pos hp]
  · have hanswer : fs.currentDir s = (.ok c, (fs.currentDir s).2) := Prod.ext hdir rfl
    rw [absolutize, if_neg hp, if_neg hp, hanswer]

/-- What is made rooted and tidy is so already. -/
lemma absolutize_absolutize {asked : Path} {s' : σ} (hdir : (fs.currentDir s).1 = .ok c) (hc : c.isRooted = true)
    (h : absolutize fs p s = (.ok asked, s')) (fs' : Filesystem σ) (s'' : σ) :
    absolutize fs' asked s'' = (.ok asked, s'') := by
  have hjoin := Path.isRooted_join hc p
  rw [absolutize_eq hdir] at h
  obtain rfl := Except.ok.inj (Prod.mk.inj h).1
  rw [absolutize_of_isRooted (Path.isRooted_tidy hjoin), Path.tidy_tidy hjoin]

/-- Relative paths start from a rooted directory, if there is one to start from. -/
def Filesystem.Grounded (fs : Filesystem σ) : Prop := ∀ s dir, (fs.currentDir s).1 = .ok dir → dir.isRooted = true

lemma Filesystem.Grounded.isRooted (hfs : fs.Grounded) {asked : Path} {s' : σ}
    (h : absolutize fs p s = (.ok asked, s')) : asked.isRooted = true := by
  by_cases hp : p.isRooted = true
  · rw [absolutize_of_isRooted hp] at h
    obtain rfl := Except.ok.inj (Prod.mk.inj h).1
    exact Path.isRooted_tidy hp
  · rcases hdir : fs.currentDir s with ⟨err | dir, s₀⟩
    · rw [absolutize, if_neg hp, hdir] at h
      cases h
    · have hanswer : (fs.currentDir s).1 = .ok dir := by rw [hdir]
      rw [absolutize_eq hanswer] at h
      obtain rfl := Except.ok.inj (Prod.mk.inj h).1
      exact Path.isRooted_tidy (Path.isRooted_join (hfs s dir hanswer) p)

/-- Two spellings of a path are made rooted and tidy alike. -/
lemma absolutize_congr (hdir : (fs.currentDir s).1 = .ok c) (hc : c.isRooted = true) (h : p.same q = true) :
    absolutize fs p s = absolutize fs q s := by
  have hsame := Path.same_iff.mp h
  rw [absolutize_eq hdir, absolutize_eq hdir, Path.tidy_congr (Path.components_join_congr hc hsame),
    Path.isRooted_congr hsame]

/-! ### Resolutions -/

section CurrentDir

open Resolution

variable (fs : Filesystem σ) (currentDir : σ → Except IoError Path × σ)

lemma stretch_currentDir (left : List Step) (w : Place) (s : σ) :
    stretch { fs with currentDir } left w s = stretch fs left w s := by
  induction left generalizing w s with
  | nil => rfl
  | cons step left ih =>
    cases step with
    | root => exact ih ..
    | up => exact ih ..
    | name n => simp only [stretch, ih]

lemma follow_currentDir (asked : Path) (more : Nat) (left : List Step) (w : Place) (s : σ) :
    follow { fs with currentDir } asked more left w s = follow fs asked more left w s := by
  induction more generalizing left w s with
  | zero =>
    unfold follow
    rw [stretch_currentDir]
  | succ more ih =>
    unfold follow
    simp only [stretch_currentDir, ih]

/-- The current directory does not matter to a rooted path. -/
lemma resolve_currentDir (hp : p.isRooted = true) (s : σ) :
    resolve { fs with currentDir } p s = resolve fs p s := by
  rw [resolve, resolve, absolutize_of_isRooted hp, absolutize_of_isRooted hp]
  simp only [follow_currentDir]

end CurrentDir

/-- What a path becomes where relative paths start from `c`. -/
structure Absolutized (fs : Filesystem σ) (c p : Path) (s : σ) (asked : Path) (s' : σ) : Prop where
  answer : absolutize fs p s = (.ok asked, s')
  tidied : asked.Tidied
  joined : asked.components = (c.join p).components
  /-- Lone dots are gone, and steps upwards are still there. -/
  components :
    asked.components = if p.isRooted then p.components else c.components ++ p.components.filter (· ≠ .here)
  again : ∀ (fs' : Filesystem σ) (s'' : σ), absolutize fs' asked s'' = (.ok asked, s'')
  resolved : resolve fs p s = resolve fs asked s'

lemma absolutized (hdir : (fs.currentDir s).1 = .ok c) (hc : c.isRooted = true) (p : Path) :
    ∃ asked s', Absolutized fs c p s asked s' := by
  have hjoin := Path.isRooted_join hc p
  have hasked := absolutize_eq hdir p
  have hagain := absolutize_absolutize hdir hc hasked
  have hjoined := Path.components_tidy hjoin
  refine ⟨_, _, hasked, Path.tidied_tidy hjoin, hjoined, ?_, hagain, by rw [resolve, hasked, resolve, hagain]⟩
  rw [hjoined]
  by_cases hp : p.isRooted = true
  · rw [if_pos hp, Path.join, if_pos hp]
  · rw [if_neg hp, Path.components_join hc (Bool.not_eq_true _ ▸ hp)]
    rfl

/-- Two spellings of a path resolve alike. -/
theorem resolve_spelling (hdir : (fs.currentDir s).1 = .ok c) (hc : c.isRooted = true) (h : p.same q = true) :
    resolve fs p s = resolve fs q s := by
  rw [resolve, resolve, absolutize_congr hdir hc h]

end LinkWatch
