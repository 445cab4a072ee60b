import LinkWatch.Proofs.Engine.Reachable
import LinkWatch.Proofs.Table.Updates
import LinkWatch.Scripted.World

/-!
What the native watches know. A source that nobody else uses *mirrors* a table if it watches every armed directory
once and no other. Asking for a watch of a directory that is not armed, and ending one of a directory that is, keeps
that (`Mirrored.watch`, `Mirrored.unwatch`), whatever the source answers. So bringing directories in line with the
index keeps it (`Mirrored.sync`), and besides arms the touched directories that are in use, unless their watch is
refused, and disarms the others (`synced_sync`).
-/

namespace LinkWatch

open Sorted (keys Ordered)

/-! ### Sources -/

namespace Scripted.Source

/-- How often the source watches a directory. -/
def timesWatched (dir : Path) (s : Source) : Nat := (Sorted.find? dir.components s.watched).getD 0

variable {s : Source} {d : Path}

lemma watched_watch_ok {u : Unit} (h : (s.watch d).1 = .ok u) :
    (s.watch d).2.watched = Sorted.alter d (fun n => n.getD 0 + 1) s.watched := by
  unfold watch at h ⊢
  split at h
  · cases h
  · rename_i hopen
    rw [if_neg hopen]
    dsimp only at h ⊢
    split at h
    · cases h
    · rename_i hallowed
      rw [if_neg hallowed]

lemma watched_watch_error {err : WatchError} (h : (s.watch d).1 = .error err) : (s.watch d).2.watched = s.watched := by
  unfold watch at h ⊢
  split at h
  · rename_i hclosed
    rw [if_pos hclosed]
  · rename_i hopen
    rw [if_neg hopen]
    dsimp only at h ⊢
    split at h
    · rename_i hrefused
      rw [if_pos hrefused]
    · cases h

lemma watched_unwatch {n : Nat} (h : Sorted.find? d.components s.watched = some n) : (s.unwatch d).2.watched =
    Sorted.revise d.components (fun n => if n ≤ 1 then none else some (n - 1)) s.watched := by
  have hwatching : Source.isWatching d { s with unwatchCalls := s.unwatchCalls ++ [d] } = true := by
    simp [isWatching, h]
  unfold unwatch
  dsimp only
  rw [if_pos hwatching]

end Scripted.Source

open Scripted (Source)

variable {σ : Type}

/-- Native watches of a source that nobody else uses: between two requests it may refuse other directories, be closed or
be handed events, but what it watches stays. -/
structure Exclusive (native : NativeWatches σ) (source : σ → Source) : Prop where
  watch : ∀ d s, ∃ s₀ : Source, s₀.watched = (source s).watched ∧ (native.watch d s).1 = (s₀.watch d).1 ∧
    (source (native.watch d s).2).watched = (s₀.watch d).2.watched
  unwatch : ∀ d s, ∃ s₀ : Source, s₀.watched = (source s).watched ∧ (native.unwatch d s).1 = (s₀.unwatch d).1 ∧
    (source (native.unwatch d s).2).watched = (s₀.unwatch d).2.watched

lemma exclusive_world : Exclusive Scripted.World.system.toNativeWatches Scripted.World.source :=
  ⟨fun _ w => ⟨w.source, rfl, rfl, rfl⟩, fun _ w => ⟨w.source, rfl, rfl, rfl⟩⟩

/-- Each armed directory is watched once, and no other is watched. -/
structure Mirrors (armed : List Path) (s : Source) : Prop where
  ordered : Ordered s.watched
  once : ∀ k ∈ keys armed, Sorted.find? k s.watched = some 1
  other : ∀ k ∉ keys armed, Sorted.find? k s.watched = none

section Mirrors

variable {armed : List Path} {s s' : Source} {d : Path}

lemma mirrors_empty (h : s.watched = []) : Mirrors [] s := by
  constructor
  · rw [h]
    exact Sorted.ordered_nil
  · intro k hk
    cases hk
  · intro k _
    rw [h]
    rfl

lemma Mirrors.congr (h : Mirrors armed s) (hs : s'.watched = s.watched) : Mirrors armed s' := by
  constructor
  · rw [hs]
    exact h.ordered
  · rw [hs]
    exact h.once
  · rw [hs]
    exact h.other

lemma Mirrors.timesWatched_eq (h : Mirrors armed s) (d : Path) :
    s.timesWatched d = if Sorted.contains armed d.components then 1 else 0 := by
  rw [Source.timesWatched]
  by_cases hd : d.components ∈ keys armed
  · rw [h.once _ hd, if_pos (Sorted.contains_iff.mpr hd)]
    rfl
  · rw [h.other _ hd, if_neg (fun hc => hd (Sorted.contains_iff.mp hc))]
    rfl

lemma Mirrors.isWatching_eq (h : Mirrors armed s) (d : Path) :
    s.isWatching d = Sorted.contains armed d.components := by
  rw [Source.isWatching]
  by_cases hd : d.components ∈ keys armed
  · rw [h.once _ hd, Sorted.contains_iff.mpr hd]
    rfl
  · rw [h.other _ hd, Bool.eq_false_iff.mpr (fun hc => hd (Sorted.contains_iff.mp hc))]
    rfl

/-- When one directory changes, and the source with it, the others are mirrored as before. -/
lemma Mirrors.change (h : Mirrors armed s) {armed' : List Path} {k : List Component} (ho : Ordered s'.watched)
    (hself : Sorted.find? k s'.watched = if k ∈ keys armed' then some 1 else none)
    (hother : ∀ j ≠ k, Sorted.find? j s'.watched = Sorted.find? j s.watched)
    (hkeys : ∀ j ≠ k, j ∈ keys armed' ↔ j ∈ keys armed) : Mirrors armed' s' := by
  refine ⟨ho, fun j hj => ?_, fun j hj => ?_⟩
  · by_cases hjk : j = k
    · subst hjk
      rw [hself, if_pos hj]
    · rw [hother j hjk]
      exact h.once j ((hkeys j hjk).mp hj)
  · by_cases hjk : j = k
    · subst hjk
      rw [hself, if_neg hj]
    · rw [hother j hjk]
      exact h.other j fun hmem => hj ((hkeys j hjk).mpr hmem)

lemma Mirrors.watch (h : Mirrors armed s) (hd : d.components ∉ keys armed) {u : Unit} (hok : (s.watch d).1 = .ok u) :
    Mirrors (Sorted.insert d armed) (s.watch d).2 := by
  have hwatched := Source.watched_watch_ok hok
  have hnew : d.components ∈ keys (Sorted.insert d armed) := Sorted.mem_keys_insert.mpr (Or.inl rfl)
  refine h.change (k := d.components) ?_ ?_ (fun j hj => ?_) fun j hj => ?_
  · rw [hwatched]
    exact h.ordered.alter
  · rw [if_pos hnew, hwatched, Sorted.find?_alter_self (Path.key_eq d) h.ordered, h.other _ hd]
    rfl
  · have hne : Keyed.key d ≠ j := Ne.symm hj
    rw [hwatched, Sorted.find?_alter_ne hne]
  · exact Sorted.mem_keys_insert.trans (or_iff_right hj)

lemma Mirrors.unwatch (h : Mirrors armed s) (hd : d.components ∈ keys armed) :
    Mirrors (Sorted.erase d.components armed) (s.unwatch d).2 := by
  have hwatched := Source.watched_unwatch (h.once _ hd)
  refine h.change (k := d.components) ?_ ?_ (fun j hj => ?_) fun j hj => ?_
  · rw [hwatched]
    exact Sorted.Ordered.revise (k := d.components) h.ordered
  · rw [if_neg fun hmem => (Sorted.mem_keys_erase.mp hmem).1 rfl, hwatched, Sorted.find?_revise_self h.ordered,
      h.once _ hd]
    rfl
  · rw [hwatched, Sorted.find?_revise_ne hj]
  · exact Sorted.mem_keys_erase.trans (and_iff_right hj)

end Mirrors

/-! ### Directories of a table -/

lemma Index.contains_congr (x : Index) {d d' : Path} (h : d.components = d'.components) :
    x.contains d = x.contains d' := by
  rw [contains, contains, find?, find?, h]

lemma Table.isArmed_congr (t : Table) {d d' : Path} (h : d.components = d'.components) :
    t.isArmed d = t.isArmed d' := by
  rw [isArmed, isArmed, h]

lemma Table.isArmed_eq {t t' : Table} (h : t'.armed = t.armed) (d : Path) : t'.isArmed d = t.isArmed d := by
  rw [isArmed, isArmed, h]

lemma Table.isArmed_arm {t : Table} {d d' : Path} :
    (t.arm d).isArmed d' = true ↔ d'.components = d.components ∨ t.isArmed d' = true := by
  rw [isArmed, isArmed, Sorted.contains_iff, Sorted.contains_iff]
  exact Sorted.mem_keys_insert

lemma Table.isArmed_disarm {t : Table} {d d' : Path} :
    (t.disarm d).isArmed d' = true ↔ d'.components ≠ d.components ∧ t.isArmed d' = true := by
  rw [isArmed, isArmed, Sorted.contains_iff, Sorted.contains_iff]
  exact Sorted.mem_keys_erase

namespace Engine

open Table (Alike)

variable {native : NativeWatches σ} {source : σ → Source} {e e' e'' : Engine σ} {d : Path}

/-! ### Requests -/

lemma watch_of_ok {u : Unit} (h : (native.watch d e.world).1 = .ok u) : e.watch native d =
    { e with
      world := (native.watch d e.world).2
      effects := e.effects ++ [.watch d (.ok u)]
      table := e.table.arm d } := by
  unfold watch
  simp only [h]

lemma watch_of_error {err : WatchError} (h : (native.watch d e.world).1 = .error err) : e.watch native d =
    { e with
      world := (native.watch d e.world).2
      effects := e.effects ++ [.watch d (.error err), .log e.actor (refusedRecord d err)] } := by
  unfold watch
  simp only [h, say, List.append_assoc, List.cons_append, List.nil_append]

lemma unwatch_eq (native : NativeWatches σ) (d : Path) (e : Engine σ) :
    ∃ logs, (∀ x ∈ logs, ∃ actor r, x = .log actor r) ∧ e.unwatch native d =
      { e with
        world := (native.unwatch d e.world).2
        effects := e.effects ++ .unwatch d (native.unwatch d e.world).1 :: logs
        table := e.table.disarm d } := by
  unfold unwatch
  cases h : (native.unwatch d e.world).1 with
  | ok u =>
    refine ⟨[], List.forall_mem_nil _, ?_⟩
    simp only [h]
  | error err =>
    refine ⟨[.log e.actor (unreleasedRecord d err)], by simp, ?_⟩
    simp only [h, say, List.append_assoc, List.cons_append, List.nil_append]

/-- The source mirrors the table. -/
def Mirrored (source : σ → Source) (e : Engine σ) : Prop := Mirrors e.table.armed (source e.world)

lemma Mirrored.watch (h : Mirrored source e) (hx : Exclusive native source) (hd : e.table.isArmed d = false) :
    Mirrored source (e.watch native d) := by
  have hnot : d.components ∉ keys e.table.armed := by
    intro hmem
    rw [Table.isArmed, Sorted.contains_iff.mpr hmem] at hd
    cases hd
  obtain ⟨s₀, hs₀, hanswer, hafter⟩ := hx.watch d e.world
  have h₀ : Mirrors e.table.armed s₀ := Mirrors.congr h hs₀
  cases hout : (native.watch d e.world).1 with
  | ok u =>
    rw [watch_of_ok hout]
    rw [hout] at hanswer
    exact (h₀.watch hnot hanswer.symm).congr hafter
  | error err =>
    rw [watch_of_error hout]
    rw [hout] at hanswer
    exact h₀.congr (hafter.trans (Source.watched_watch_error hanswer.symm))

lemma Mirrored.unwatch (h : Mirrored source e) (hx : Exclusive native source) (hd : e.table.isArmed d = true) :
    Mirrored source (e.unwatch native d) := by
  obtain ⟨s₀, hs₀, -, hafter⟩ := hx.unwatch d e.world
  have h₀ : Mirrors e.table.armed s₀ := Mirrors.congr h hs₀
  obtain ⟨logs, -, hunwatch⟩ := unwatch_eq native d e
  rw [hunwatch]
  exact (h₀.unwatch (Sorted.contains_iff.mp hd)).congr hafter

/-! ### Bringing directories in line -/

/-- The course of a table's requests: a watch is asked for only while the directory is held and not armed, and arms it
if it is granted; it is ended only while the directory is armed and not held. -/
inductive Orderly (held : Path → Prop) : List Path → List Effect → List Path → Prop
  | done {armed} : Orderly held armed [] armed
  | granted {armed armed' d u es} : held d → Sorted.contains armed d.components = false →
      Orderly held (Sorted.insert d armed) es armed' → Orderly held armed (.watch d (.ok u) :: es) armed'
  | refused {armed armed' d err es} : held d → Sorted.contains armed d.components = false →
      Orderly held armed es armed' → Orderly held armed (.watch d (.error err) :: es) armed'
  | ended {armed armed' d answer es} : ¬ held d → Sorted.contains armed d.components = true →
      Orderly held (Sorted.erase d.components armed) es armed' → Orderly held armed (.unwatch d answer :: es) armed'
  | log {armed armed' actor r es} : Orderly held armed es armed' → Orderly held armed (.log actor r :: es) armed'

lemma Orderly.append {held : Path → Prop} {a b c : List Path} {es fs : List Effect} (h : Orderly held a es b)
    (h' : Orderly held b fs c) : Orderly held a (es ++ fs) c := by
  induction h with
  | done => exact h'
  | granted hd ha _ ih => exact .granted hd ha (ih h')
  | refused hd ha _ ih => exact .refused hd ha (ih h')
  | ended hd ha _ ih => exact .ended hd ha (ih h')
  | log _ ih => exact .log (ih h')

lemma orderly_logs {held : Path → Prop} {armed : List Path} {logs : List Effect}
    (h : ∀ x ∈ logs, ∃ actor r, x = .log actor r) : Orderly held armed logs armed := by
  induction logs with
  | nil => exact .done
  | cons x xs ih =>
    obtain ⟨actor, r, rfl⟩ := h x (by simp)
    exact .log (ih fun y hy => h y (by simp [hy]))

/-- A watch of the directory was refused. -/
def Refused (d : Path) (es : List Effect) : Prop :=
  ∃ d' err, d'.components = d.components ∧ .watch d' (.error err) ∈ es

lemma Refused.mono {es fs : List Effect} (h : Refused d es) (hsub : es ⊆ fs) : Refused d fs := by
  obtain ⟨d', err, hsame, hmem⟩ := h
  exact ⟨d', err, hsame, hsub hmem⟩

/-- Directories were brought in line, with these effects. -/
structure Synced (dirs : List Path) (e e' : Engine σ) (es : List Effect) : Prop where
  alike : Alike e.table e'.table
  effects : e'.effects = e.effects ++ es
  orderly : Orderly (fun d => e.table.index.contains d = true) e.table.armed es e'.table.armed
  untouched : ∀ d, d.components ∉ keys dirs → e'.table.isArmed d = e.table.isArmed d
  unused : ∀ d, d.components ∈ keys dirs → e.table.index.contains d = false → e'.table.isArmed d = false
  used : ∀ d, d.components ∈ keys dirs → e.table.index.contains d = true → e'.table.isArmed d = true ∨ Refused d es

lemma synced_nil (e : Engine σ) : Synced [] e e [] where
  alike := Alike.refl _
  effects := (List.append_nil _).symm
  orderly := .done
  untouched _ _ := rfl
  unused _ hd := by cases hd
  used _ hd := by cases hd

lemma Synced.append {ds ds' : List Path} {es es' : List Effect} (h : Synced ds e e' es) (h' : Synced ds' e' e'' es') :
    Synced (ds ++ ds') e e'' (es ++ es') := by
  have hindex : e'.table.index = e.table.index := h.alike.index
  have hkeys : ∀ {k}, k ∈ keys (ds ++ ds') ↔ k ∈ keys ds ∨ k ∈ keys ds' := by simp [keys]
  have horderly := h'.orderly
  rw [hindex] at horderly
  refine ⟨h.alike.trans h'.alike, ?_, h.orderly.append horderly, ?_, ?_, ?_⟩
  · rw [h'.effects, h.effects, List.append_assoc]
  · intro d hd
    obtain ⟨hd₁, hd₂⟩ := not_or.mp (fun hor => hd (hkeys.mpr hor))
    rw [h'.untouched d hd₂, h.untouched d hd₁]
  · intro d hd hunused
    by_cases hlater : d.components ∈ keys ds'
    · exact h'.unused d hlater (hindex ▸ hunused)
    · rw [h'.untouched d hlater]
      exact h.unused d ((hkeys.mp hd).resolve_right hlater) hunused
  · intro d hd hused
    by_cases hlater : d.components ∈ keys ds'
    · exact (h'.used d hlater (hindex ▸ hused)).imp_right fun hr => hr.mono (List.subset_append_right ..)
    · rw [h'.untouched d hlater]
      have hfirst := h.used d ((hkeys.mp hd).resolve_right hlater) hused
      exact hfirst.imp_right fun hr => hr.mono (List.subset_append_left ..)

/-- What a directory needs, and what is done about it. -/
lemma syncOne_cases (native : NativeWatches σ) (e : Engine σ) (d : Path) :
    (e.table.index.contains d = true ∧ e.table.isArmed d = false ∧ e.syncOne native d = e.watch native d) ∨
    (e.table.index.contains d = false ∧ e.table.isArmed d = true ∧ e.syncOne native d = e.unwatch native d) ∨
    (e.table.index.contains d = e.table.isArmed d ∧ e.syncOne native d = e) := by
  unfold syncOne Table.need
  cases e.table.index.contains d <;> cases e.table.isArmed d <;> simp

lemma mem_keys_singleton {d' : Path} : d'.components ∈ keys [d] ↔ d'.components = d.components := List.mem_singleton

/-- A directory that is held is watched, or its watch is refused. -/
lemma synced_watch (native : NativeWatches σ) (hused : e.table.index.contains d = true)
    (hunarmed : e.table.isArmed d = false) : ∃ es, Synced [d] e (e.watch native d) es := by
  have halike := alike_watch native d e
  have hnever : ∀ d' : Path, d'.components ∈ keys [d] → e.table.index.contains d' = false →
      (e.watch native d).table.isArmed d' = false := by
    intro d' hd' hnot
    rw [e.table.index.contains_congr (mem_keys_singleton.mp hd'), hused] at hnot
    cases hnot
  cases hout : (native.watch d e.world).1 with
  | ok u =>
    rw [watch_of_ok hout] at halike hnever ⊢
    refine ⟨_, halike, rfl, .granted hused hunarmed .done, fun d' hd' => ?_, hnever, fun d' hd' _ => ?_⟩
    · rw [Bool.eq_iff_iff, Table.isArmed_arm]
      exact or_iff_right fun he => hd' (mem_keys_singleton.mpr he)
    · exact Or.inl (Table.isArmed_arm.mpr (Or.inl (mem_keys_singleton.mp hd')))
  | error err =>
    rw [watch_of_error hout] at halike hnever ⊢
    refine ⟨_, halike, rfl, .refused hused hunarmed (.log .done), fun _ _ => rfl, hnever, fun d' hd' _ => ?_⟩
    exact Or.inr ⟨d, err, (mem_keys_singleton.mp hd').symm, List.mem_cons_self ..⟩

/-- The watch of a directory that is not held any more is ended. -/
lemma synced_unwatch (native : NativeWatches σ) (hunused : e.table.index.contains d = false)
    (harmed : e.table.isArmed d = true) : ∃ es, Synced [d] e (e.unwatch native d) es := by
  have halike := alike_unwatch native d e
  obtain ⟨logs, hlogs, hunwatch⟩ := unwatch_eq native d e
  rw [hunwatch] at halike ⊢
  refine ⟨_, halike, rfl, .ended (by simp [hunused]) harmed (orderly_logs hlogs), fun d' hd' => ?_,
    fun d' hd' _ => ?_, fun d' hd' hused => ?_⟩
  · rw [Bool.eq_iff_iff, Table.isArmed_disarm]
    exact and_iff_right fun he => hd' (mem_keys_singleton.mpr he)
  · rw [← Bool.not_eq_true, Table.isArmed_disarm]
    exact fun hand => hand.1 (mem_keys_singleton.mp hd')
  · rw [e.table.index.contains_congr (mem_keys_singleton.mp hd'), hunused] at hused
    cases hused

lemma synced_of_inLine (h : e.table.index.contains d = e.table.isArmed d) : Synced [d] e e [] := by
  have hsame : ∀ d' : Path, d'.components ∈ keys [d] → e.table.isArmed d' = e.table.index.contains d' := by
    intro d' hd'
    have heq := mem_keys_singleton.mp hd'
    rw [e.table.isArmed_congr heq, e.table.index.contains_congr heq, h]
  refine ⟨Alike.refl _, (List.append_nil _).symm, .done, fun _ _ => rfl, fun d' hd' hunused => ?_,
    fun d' hd' hused => ?_⟩
  · exact (hsame d' hd').trans hunused
  · exact Or.inl ((hsame d' hd').trans hused)

lemma synced_syncOne (native : NativeWatches σ) (e : Engine σ) (d : Path) :
    ∃ es, Synced [d] e (e.syncOne native d) es := by
  obtain ⟨hused, hunarmed, heq⟩ | ⟨hunused, harmed, heq⟩ | ⟨hinLine, heq⟩ := syncOne_cases native e d <;> rw [heq]
  · exact synced_watch native hused hunarmed
  · exact synced_unwatch native hunused harmed
  · exact ⟨[], synced_of_inLine hinLine⟩

theorem synced_sync (native : NativeWatches σ) (dirs : List Path) (e : Engine σ) :
    ∃ es, Synced dirs e (e.sync native dirs) es := by
  induction dirs generalizing e with
  | nil => exact ⟨[], synced_nil e⟩
  | cons d ds ih =>
    obtain ⟨es, hfirst⟩ := synced_syncOne native e d
    obtain ⟨es', hrest⟩ := ih (e.syncOne native d)
    exact ⟨es ++ es', hfirst.append hrest⟩

lemma Mirrored.syncOne (h : Mirrored source e) (hx : Exclusive native source) (d : Path) :
    Mirrored source (e.syncOne native d) := by
  obtain ⟨-, hunarmed, heq⟩ | ⟨-, harmed, heq⟩ | ⟨-, heq⟩ := syncOne_cases native e d <;> rw [heq]
  · exact h.watch hx hunarmed
  · exact h.unwatch hx harmed
  · exact h

theorem Mirrored.sync (h : Mirrored source e) (hx : Exclusive native source) (dirs : List Path) :
    Mirrored source (e.sync native dirs) := by
  induction dirs generalizing e with
  | nil => exact h
  | cons d ds ih => exact ih (h.syncOne hx d)

end Engine

end LinkWatch
