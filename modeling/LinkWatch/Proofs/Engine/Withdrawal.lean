import LinkWatch.Proofs.Engine.Audience

/-!
Taking a listener out everywhere. The scopes are visited one after the other, and a strong entry that goes may have
been the last owner of the listener: its weak entries in the scopes still to come are then dead, and are dropped
without being counted. `Table.Withdrawn` says what the answer and the table are all the same: they depend on which
scopes were visited and not on their order (`Table.removeAlong_perm`).
-/

namespace LinkWatch

namespace Table

open Engine (InUse inUse_congr alive_of_owns alive_congr)

variable {a : ListenerKey → Bool} {k k' : ListenerKey} {t t' : Table} {scope scope' : Scope}

/-- A table is its targets, its index, its native watches and its listeners. -/
lemma Alike.eq (h : Alike t t') (harmed : t'.armed = t.armed) (hl : ∀ scope, t'.listeners scope = t.listeners scope) :
    t' = t := by
  have hcreated : t'.created = t.created := by
    refine List.ext_getElem h.length fun i hi hi' => ?_
    obtain ⟨hreq, hres, hret⟩ := h.target i
    have hown : (t'.target i).listeners = (t.target i).listeners := hl (.only i)
    have heq : t'.target i = t.target i := by
      cases hx : t'.target i
      cases hy : t.target i
      simp_all
    rw [Table.target, Table.target, List.getElem?_eq_getElem hi, List.getElem?_eq_getElem hi'] at heq
    exact heq
  have hglobal : t'.global = t.global := hl .all
  have hregistered := h.registered
  have hindex := h.index
  cases t
  cases t'
  simp_all

/-! ### Scope after scope -/

lemma listeners_removeFrom (k : ListenerKey) (scope scope' : Scope) (t : Table) :
    (t.removeFrom a k scope).2.listeners scope' =
      if scope' = scope then ((t.listeners scope).remove (t.alive a) k).2 else t.listeners scope' := by
  have hset : (t.removeFrom a k scope).2 = t.setListeners scope ((t.listeners scope).remove (t.alive a) k).2 := rfl
  rw [hset]
  cases scope with
  | all => cases scope' <;> simp [setListeners, listeners, target]
  | only j =>
    cases scope' with
    | all => simp [setListeners, listeners, modify]
    | only i =>
      rw [listeners, setListeners, target_modify]
      by_cases hij : i = j
      · subst hij
        by_cases hlt : i < t.created.length
        · simp [hlt]
        · -- a target that was never created has no listeners
          have hnone : t.target i = default := by
            rw [target, List.getElem?_eq_none (Nat.le_of_not_lt hlt)]
            rfl
          simp only [hlt, and_false, if_false, if_true, listeners, hnone]
          rfl
      · simp [hij, listeners]

/-- Takes a listener out of scopes, one after the other; says whether it was in any of them. -/
def removeAlong (a : ListenerKey → Bool) (k : ListenerKey) (scopes : List Scope) (t : Table) : Bool × Table :=
  scopes.foldl (fun (found, t) scope =>
    let (here, t) := t.removeFrom a k scope
    (found || here, t)) (false, t)

lemma removeListener_eq (k : ListenerKey) (t : Table) :
    t.removeListener a k = t.removeAlong a k (.all :: t.targets.map .only) := rfl

/-- What a listener's removal from some scopes of a table answers and leaves. -/
structure Withdrawn (a : ListenerKey → Bool) (k : ListenerKey) (t : Table) (done : List Scope) (s : Bool × Table) :
    Prop where
  alike : Alike t s.2
  armed : s.2.armed = t.armed
  cleared : ∀ scope ∈ done, (s.2.listeners scope).entries =
    (t.listeners scope).entries.filter fun x => t.alive a x.1 && !(x.1 == k)
  untouched : ∀ scope ∉ done, s.2.listeners scope = t.listeners scope
  found : s.1 = true ↔ t.alive a k = true ∧ ∃ scope ∈ done, k ∈ (t.listeners scope).keys
  /-- Only where it was found may it have lost its last owner. -/
  spared : s.1 = false → s.2.alive a k = t.alive a k

namespace Withdrawn

variable {done : List Scope} {s s' : Bool × Table}

lemma nil (a : ListenerKey → Bool) (k : ListenerKey) (t : Table) : Withdrawn a k t [] (false, t) where
  alike := .refl t
  armed := rfl
  cleared := by simp
  untouched _ _ := rfl
  found := by simp
  spared _ := rfl

/-- Nobody else dies. -/
lemma alive_of_ne (h : Withdrawn a k t done s) (hdone : ∀ scope ∈ done, InUse t scope) (hne : k' ≠ k) :
    s.2.alive a k' = t.alive a k' := by
  refine alive_congr h.alike.targets fun scope _ => ?_
  by_cases hmem : scope ∈ done
  · rw [ListenerSet.owns_iff, ListenerSet.owns_iff, h.cleared scope hmem, List.mem_filter, and_iff_left_iff_imp]
    intro hstrong
    have halive : t.alive a k' = true := alive_of_owns (hdone scope hmem) k' (ListenerSet.owns_iff.mpr hstrong)
    simp [halive, hne]
  · rw [h.untouched scope hmem]

lemma not_mem_keys (h : Withdrawn a k t done s) (hscope : scope ∈ done) : k ∉ (s.2.listeners scope).keys := by
  rw [ListenerSet.keys, h.cleared scope hscope, List.mem_map]
  rintro ⟨x, hx, rfl⟩
  simpa using (List.mem_filter.mp hx).2

/-- The entries that are left of a scope once the listener is taken out there, now or before. -/
lemma entries_eq (h : Withdrawn a k t done s) (hdone : ∀ scope ∈ done, InUse t scope) (scope : Scope) :
    (s.2.listeners scope).entries.filter (fun x => s.2.alive a x.1 && !(x.1 == k)) =
      (t.listeners scope).entries.filter fun x => t.alive a x.1 && !(x.1 == k) := by
  have halive : ∀ x : ListenerKey × Hold, (s.2.alive a x.1 && !(x.1 == k)) = (t.alive a x.1 && !(x.1 == k)) := by
    intro x
    by_cases hx : x.1 = k
    · simp [hx]
    · rw [h.alive_of_ne hdone hx]
  simp only [halive]
  by_cases hmem : scope ∈ done
  · rw [h.cleared scope hmem, List.filter_filter]
    simp
  · rw [h.untouched scope hmem]

lemma mem_keys (h : Withdrawn a k t done s) :
    k ∈ (s.2.listeners scope).keys ↔ scope ∉ done ∧ k ∈ (t.listeners scope).keys := by
  by_cases hmem : scope ∈ done
  · simp [hmem, h.not_mem_keys hmem]
  · simp [hmem, h.untouched scope hmem]

/-- Taking the listener out of one scope more. -/
lemma step (h : Withdrawn a k t done s) (hdone : ∀ scope ∈ done, InUse t scope) (hscope : InUse t scope) :
    Withdrawn a k t (done ++ [scope]) (s.1 || (s.2.removeFrom a k scope).1, (s.2.removeFrom a k scope).2) := by
  have huse : InUse s.2 scope := (inUse_congr h.alike.targets).mpr hscope
  have hlive : ∀ k', (s.2.listeners scope).owns k' = true → s.2.alive a k' = true := alive_of_owns huse
  have hhere : (s.2.removeFrom a k scope).1 = true ↔ s.2.alive a k = true ∧ k ∈ (s.2.listeners scope).keys :=
    ListenerSet.remove_fst_iff hlive
  have hset := listeners_removeFrom (a := a) k scope (t := s.2)
  refine { alike := h.alike.trans (alike_setListeners ..), armed := ?armed, cleared := ?cleared,
           untouched := ?untouched, found := ?found, spared := ?spared }
  case armed =>
    rw [← h.armed]
    unfold removeFrom setListeners
    dsimp only
    split <;> rfl
  case cleared =>
    intro scope' hscope'
    dsimp only
    rw [hset]
    split
    · rename_i heq
      subst heq
      rw [ListenerSet.entries_remove hlive, h.entries_eq hdone]
    · rename_i hne
      exact h.cleared scope' ((List.mem_append.mp hscope').resolve_right (by simpa using hne))
  case untouched =>
    intro scope' hscope'
    have hne : scope' ≠ scope := fun heq => hscope' (by simp [heq])
    dsimp only
    rw [hset, if_neg hne]
    exact h.untouched scope' fun hmem => hscope' (List.mem_append_left _ hmem)
  case found =>
    -- if it was not found before, it is as much alive as at the beginning
    rw [Bool.or_eq_true, hhere]
    cases hs : s.1 with
    | true =>
      obtain ⟨halive, scope', hmem, hk⟩ := h.found.mp hs
      exact iff_of_true (.inl rfl) ⟨halive, scope', List.mem_append_left _ hmem, hk⟩
    | false =>
      have hnone : ¬ (t.alive a k = true ∧ ∃ scope ∈ done, k ∈ (t.listeners scope).keys) := by
        rw [← h.found, hs]
        decide
      rw [h.spared hs, h.mem_keys]
      constructor
      · rintro (hf | ⟨halive, -, hk⟩)
        · cases hf
        · exact ⟨halive, scope, by simp, hk⟩
      · rintro ⟨halive, scope', hmem, hk⟩
        have hnew : scope' ∉ done := fun hmem' => hnone ⟨halive, scope', hmem', hk⟩
        obtain rfl : scope' = scope := by simpa [hnew] using hmem
        exact .inr ⟨halive, hnew, hk⟩
  case spared =>
    intro hnone
    obtain ⟨hs, hmiss⟩ := Bool.or_eq_false_iff.mp hnone
    rw [← h.spared hs]
    refine alive_congr (Alike.targets (alike_setListeners ..)) fun scope' _ => ?_
    rw [hset]
    split
    · rename_i heq
      subst heq
      -- it owned nothing here, or it would have been found
      have hnot : (s.2.listeners scope').owns k ≠ true := fun howns => by
        have hk := ListenerSet.contains_iff.mp (ListenerSet.contains_of_owns howns)
        exact Bool.eq_false_iff.mp hmiss (hhere.mpr ⟨hlive k howns, hk⟩)
      refine iff_of_false (fun howns => ?_) hnot
      rw [ListenerSet.owns_iff, ListenerSet.entries_remove hlive] at howns
      simpa using (List.mem_filter.mp howns).2
    · exact .rfl

lemma unique (h : Withdrawn a k t done s) {done' : List Scope} (h' : Withdrawn a k t done' s')
    (hdone : ∀ scope, scope ∈ done ↔ scope ∈ done') : s = s' := by
  have hfound : s.1 = s'.1 := by
    rw [Bool.eq_iff_iff, h.found, h'.found]
    simp only [hdone]
  have htable : s.2 = s'.2 := by
    refine Alike.eq (h'.alike.symm.trans h.alike) (h.armed.trans h'.armed.symm) fun scope => ?_
    by_cases hmem : scope ∈ done
    · have hentries := (h.cleared scope hmem).trans (h'.cleared scope ((hdone scope).mp hmem)).symm
      cases hx : s.2.listeners scope
      cases hy : s'.2.listeners scope
      simpa [hx, hy] using hentries
    · rw [h.untouched scope hmem, h'.untouched scope fun hmem' => hmem ((hdone scope).mpr hmem')]
  exact Prod.ext hfound htable

end Withdrawn

theorem withdrawn_removeAlong {scopes : List Scope} (h : ∀ scope ∈ scopes, InUse t scope) (k : ListenerKey) :
    Withdrawn a k t scopes (t.removeAlong a k scopes) := by
  have hfold : ∀ (scopes done : List Scope) (s : Bool × Table), Withdrawn a k t done s →
      (∀ scope ∈ done ++ scopes, InUse t scope) → Withdrawn a k t (done ++ scopes)
        (scopes.foldl (fun (found, t) scope =>
          let (here, t) := t.removeFrom a k scope
          (found || here, t)) s) := by
    intro scopes
    induction scopes with
    | nil =>
      intro done s hs _
      simpa using hs
    | cons scope scopes ih =>
      intro done s hs huse
      have hdone : ∀ scope ∈ done, InUse t scope := fun scope' hmem => huse scope' (List.mem_append_left _ hmem)
      have hstep := hs.step hdone (huse scope (by simp))
      simpa using ih (done ++ [scope]) _ hstep (by simpa using huse)
  exact hfold scopes [] (false, t) (.nil a k t) h

lemma inUse_iff_mem : InUse t scope ↔ scope ∈ Scope.all :: t.targets.map .only := by
  cases scope with
  | all => simp [InUse]
  | only id => simp [InUse]

theorem withdrawn_removeListener (k : ListenerKey) (t : Table) :
    Withdrawn a k t (.all :: t.targets.map .only) (t.removeListener a k) := by
  rw [removeListener_eq]
  exact withdrawn_removeAlong (fun _ hscope => inUse_iff_mem.mpr hscope) k

/-- The scopes in use may be visited in any order. -/
theorem removeAlong_perm {scopes : List Scope} (h : scopes.Perm (.all :: t.targets.map .only)) (k : ListenerKey) :
    t.removeAlong a k scopes = t.removeListener a k :=
  (withdrawn_removeAlong (fun _ hscope => inUse_iff_mem.mpr (h.mem_iff.mp hscope)) k).unique
    (withdrawn_removeListener k t) fun _ => h.mem_iff

end Table

end LinkWatch
