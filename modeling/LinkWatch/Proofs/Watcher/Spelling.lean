import LinkWatch.Proofs.Engine.Audience
import LinkWatch.Proofs.Engine.Rooted
import LinkWatch.Proofs.Watcher.Calls

/-!
Spellings of watched paths. Whatever is asked of a watcher, its targets are requested by rooted paths (`Reached.sound`),
so they lead where they did after the current directory has changed. Two spellings of a path name one target, so what
is watched under one of them can be given up under another (`Reached.spelling`).
-/

namespace LinkWatch.Watcher

variable {σ : Type} {sys : System σ} {w w' : Watcher σ} {p q : Path}

/-! ### What calls do to the table -/

/-- The target of a path is there, or cannot be resolved, or is registered under the rooted path. -/
lemma targetFor_cases (sys : System σ) (p : Path) (w : Watcher σ) :
    (w.targetFor sys p).2.engine.table = w.engine.table ∨ ∃ asked s r world, p.isEmpty = false ∧
      absolutize sys.toFilesystem p w.engine.world = (.ok asked, s) ∧ w.engine.table.find? asked = none ∧
      (w.targetFor sys p).2.engine = ({ w.engine with world }.register sys.toNativeWatches asked r).2 := by
  unfold targetFor requested
  cases hp : p.isEmpty with
  | true => exact Or.inl rfl
  | false =>
    rcases hasked : absolutize sys.toFilesystem p w.engine.world with ⟨err | asked, s⟩
    · exact Or.inl rfl
    · dsimp only
      rw [if_neg Bool.false_ne_true]
      dsimp only
      cases hfind : w.engine.table.find? asked with
      | some id => exact Or.inl rfl
      | none =>
        dsimp only
        rcases resolve sys.toFilesystem asked s with ⟨err | r, world⟩
        · exact Or.inl rfl
        · exact Or.inr ⟨asked, s, r, world, rfl, rfl, hfind, rfl⟩

lemma start_cases (sys : System σ) (p : Path) (w : Watcher σ) :
    (w.start sys p).2.engine.table = w.engine.table ∨ ∃ asked s r world, p.isEmpty = false ∧
      absolutize sys.toFilesystem p w.engine.world = (.ok asked, s) ∧ w.engine.table.find? asked = none ∧
      (w.start sys p).2.engine = ({ w.engine with world }.register sys.toNativeWatches asked r).2 := by
  unfold start
  split
  · exact Or.inl rfl
  · exact targetFor_cases sys p w

/-- The path is made rooted and its target taken out. -/
lemma table_stop {asked : Path} {s : σ} (hp : p.isEmpty = false)
    (hasked : absolutize sys.toFilesystem p w.engine.world = (.ok asked, s)) :
    (w.stop sys p).2.engine.table = ({ w.engine with world := s }.remove sys.toNativeWatches asked).2.table := by
  have hrequested : w.requested sys.toFilesystem p = (.ok asked, { w with engine := { w.engine with world := s } }) := by
    simp [requested, hp, hasked]
  rw [stop, hrequested]
  dsimp only
  split <;> rename_i heq <;> rw [heq]
  rfl

lemma stop_cases (sys : System σ) (p : Path) (w : Watcher σ) :
    (w.stop sys p).2.engine.table = w.engine.table ∨ ∃ asked s, p.isEmpty = false ∧
      absolutize sys.toFilesystem p w.engine.world = (.ok asked, s) := by
  cases hp : p.isEmpty with
  | true =>
    left
    simp [stop, requested, hp]
  | false =>
    rcases hasked : absolutize sys.toFilesystem p w.engine.world with ⟨err | asked, s⟩
    · left
      simp [stop, requested, hp, hasked]
    · exact Or.inr ⟨asked, s, rfl, rfl⟩

/-! ### Watchers at work -/

/-- Work leads to the engine, and its targets are requested by rooted paths. -/
structure Sound (w : Watcher σ) : Prop where
  reachable : w.engine.Reachable
  rooted : Engine.Rooted w.engine.table

lemma Sound.of_table_eq (h : Sound w) (ht : w'.engine.table = w.engine.table) : Sound w' :=
  ⟨h.reachable.of_table_eq ht, ht ▸ h.rooted⟩

lemma Sound.of_alike (h : Sound w) (ha : Table.Alike w.engine.table w'.engine.table) : Sound w' :=
  ⟨h.reachable.elsewhere ha, Engine.Rooted.kin h.rooted (Engine.kin_of_alike ha)⟩

lemma Sound.targetFor (h : Sound w) (hsys : sys.toFilesystem.Grounded) (p : Path) :
    Sound (w.targetFor sys p).2 := by
  rcases targetFor_cases sys p w with hsame | ⟨asked, s, r, world, -, hasked, -, hengine⟩
  · exact h.of_table_eq hsame
  · have hworld : Engine.Reachable { w.engine with world } := h.reachable.of_table_eq rfl
    have hrooted := Engine.Rooted.register (e := { w.engine with world }) h.rooted h.reachable.settled
      sys.toNativeWatches (hsys.isRooted hasked) r
    exact ⟨hengine ▸ hworld.register sys.toNativeWatches asked r, hengine ▸ hrooted⟩

lemma Sound.perform (h : Sound w) (hsys : sys.toFilesystem.Grounded) (c : Call) : Sound (w.perform sys c).2 := by
  cases c with
  | start p =>
    rw [Watcher.perform, start]
    split
    · exact h
    · exact h.targetFor hsys p
  | stop p =>
    rcases stop_cases sys p w with hsame | ⟨asked, s, hp, hasked⟩
    · exact h.of_table_eq hsame
    · have htable := table_stop hp hasked
      have hworld : Engine.Reachable { w.engine with world := s } := h.reachable.of_table_eq rfl
      have hrooted := Engine.Rooted.remove (e := { w.engine with world := s }) h.rooted sys.toNativeWatches asked
      exact ⟨(hworld.remove sys.toNativeWatches asked).of_table_eq htable, htable ▸ hrooted⟩
  | add hold k =>
    rw [Watcher.perform, add]
    split
    · exact h
    · exact h.of_alike (Engine.alike_addListener .all hold k w.engine)
  | addFor hold p k =>
    have htarget := h.targetFor hsys p
    rw [Watcher.perform, addFor]
    split
    · exact h
    · split <;> rename_i heq <;> rw [heq] at htarget
      · exact htarget
      · exact htarget.of_alike (Engine.alike_addListener _ hold k _)

/-- A watcher that has come from an empty one, while relative paths started from rooted directories. -/
def Reached (w : Watcher σ) : Prop :=
  ∃ w₀ : Watcher σ, w₀.engine.table = {} ∧ Leads (fun sys => sys.toFilesystem.Grounded) w₀ w

lemma Sound.step (h : Sound w) (hstep : Step (fun sys => sys.toFilesystem.Grounded) w w') : Sound w' := by
  cases hstep with
  | call c hsys => exact h.perform hsys c
  | remove k => exact h.of_alike (Table.alike_removeListener k)
  | @batch sys events _ =>
    exact ⟨h.reachable.process sys events, Engine.Rooted.kin h.rooted (Engine.kin_process sys events w.engine)⟩
  | close pr stage s => exact h.of_table_eq rfl
  | elsewhere htable _ => exact h.of_table_eq htable

theorem Reached.sound (h : Reached w) : Sound w := by
  obtain ⟨w₀, hempty, hleads⟩ := h
  have hstart : Sound w₀ := ⟨.start hempty, fun id hid => by simp [hempty, Table.targets] at hid⟩
  induction hleads with
  | refl => exact hstart
  | tail _ hstep ih => exact ih.step hstep

/-! ### There and back -/

/-- A path that was not watched is watched under one spelling and given up under another. -/
lemma Sound.restored (h : Sound w) {c : Path} (hc : c.isRooted = true) {sys' : System σ} (hpq : p.same q = true)
    (hdir : (sys.currentDir w.engine.world).1 = .ok c)
    (hdir' : (sys'.currentDir (w.start sys p).2.engine.world).1 = .ok c)
    (hfresh : w.engine.table.find? (c.join p) = none) :
    w.engine.table.Restored ((w.start sys p).2.stop sys' q).2.engine.table := by
  have hsame := Path.same_iff.mp hpq
  have hjoin := Path.components_join_congr hc hsame
  have hasked : absolutize sys.toFilesystem p w.engine.world = (.ok (c.join p).tidy, _) := absolutize_eq hdir p
  have hasked' : absolutize sys'.toFilesystem q (w.start sys p).2.engine.world = (.ok (c.join q).tidy, _) :=
    absolutize_eq hdir' q
  have htidy : (c.join q).tidy.components = (c.join p).tidy.components := by
    rw [Path.tidy_congr hjoin]
  have hnone : w.engine.table.find? (c.join p).tidy = none := by
    rw [Table.find?, Path.components_tidy (Path.isRooted_join hc p)]
    exact hfresh
  rcases start_cases sys p w with hstart | ⟨asked, s, r, world, hp, hanswer, -, hengine⟩
  · -- nothing was registered, so nothing is taken out
    rcases stop_cases sys' q (w.start sys p).2 with hstop | ⟨asked, s, hq, hanswer⟩
    · rw [hstop, hstart]
      exact .refl _
    · have htable := table_stop hq hanswer
      rw [hasked'] at hanswer
      obtain rfl := Except.ok.inj (Prod.mk.inj hanswer).1
      have hunknown : { (w.start sys p).2.engine with world := s }.table.find? (c.join q).tidy = none := by
        rw [hstart, Table.find?, htidy]
        exact hnone
      rw [htable, Engine.remove_of_none _ hunknown, hstart]
      exact .refl _
  · rw [hasked] at hanswer
    obtain rfl := Except.ok.inj (Prod.mk.inj hanswer).1
    have hq : q.isEmpty = false := Path.isEmpty_congr hsame ▸ hp
    have hworld : Engine.Reachable { w.engine with world } := h.reachable.of_table_eq rfl
    have htable : (w.start sys p).2.engine.table =
        ({ w.engine with world }.register sys.toNativeWatches (c.join p).tidy r).2.table := by rw [hengine]
    rw [table_stop hq hasked']
    exact Engine.restored_remove_register hworld sys.toNativeWatches sys'.toNativeWatches r hnone htidy htable

/-- **One file, one spelling.** From a rooted current directory every path is made rooted and tidy, says what it said,
and resolves as it did; so does every other spelling of it. A watched path leads where it did whatever the current
directory becomes. And what is watched under one spelling can be given up under another, without a trace if it was not
watched before. -/
theorem Reached.spelling (h : Reached w) {c : Path} (hc : c.isRooted = true) (p : Path) :
    (∀ (fs : Filesystem σ) (s : σ), (fs.currentDir s).1 = .ok c →
      (∃ asked s', Absolutized fs c p s asked s') ∧
        ∀ q : Path, p.same q = true → resolve fs p s = resolve fs q s) ∧
    (∀ (sys : System σ) (currentDir : σ → Except IoError Path × σ),
      (∀ id ∈ w.engine.table.targets, ∀ s : σ,
        resolve { sys.toFilesystem with currentDir } (w.engine.table.target id).requested s =
          resolve sys.toFilesystem (w.engine.table.target id).requested s) ∧
      ∀ batch : List Event, w.engine.process { sys with currentDir } batch = w.engine.process sys batch) ∧
    ∀ (q : Path) (sys sys' : System σ), p.same q = true → w.engine.table.find? (c.join p) = none →
      (sys.currentDir w.engine.world).1 = .ok c → (sys'.currentDir (w.start sys p).2.engine.world).1 = .ok c →
      w.engine.table.Restored ((w.start sys p).2.stop sys' q).2.engine.table := by
  have hsound := h.sound
  refine ⟨fun fs s hdir => ⟨absolutized hdir hc p, fun q hpq => resolve_spelling hdir hc hpq⟩,
    fun sys currentDir => ⟨fun id hid s => ?_, fun batch => ?_⟩, fun q sys sys' hpq hfresh hdir hdir' => ?_⟩
  · exact resolve_currentDir sys.toFilesystem currentDir (hsound.rooted id hid) s
  · exact Engine.process_currentDir currentDir hsound.reachable hsound.rooted batch
  · exact hsound.restored hc hpq hdir hdir' hfresh

/-- A file in the current directory, watched with slashes to spare and given up without. -/
theorem spelling_slashes :
    let w : Watcher Unit := ⟨{ dispatcher := { workers := [] }, world := () }, { timeout := .ofSeconds 1 }⟩
    let p : Path := ⟨[0x61, 0x2f, 0x2f, 0x62, 0x2f]⟩
    let q : Path := ⟨[0x61, 0x2f, 0x62]⟩
    p.same q = true ∧ (w.start inside p).2.engine.table.targets = [0] ∧
      w.engine.table.Restored ((w.start inside p).2.stop inside q).2.engine.table := by
  intro w p q
  have hreached : Reached w := ⟨w, rfl, .refl⟩
  have hsame : p.same q = true := by decide +kernel
  exact ⟨hsame, by decide +kernel,
    (hreached.spelling (c := ⟨[0x2f, 0x77]⟩) (by decide) p).2.2 q inside inside hsame rfl rfl rfl⟩

end LinkWatch.Watcher
