import OpenGameAgent.ExtensionKit.DependencyDiagnostics
import OpenGameAgent.Library.TopologicalOrders

/-!
# The order of a set that passes

`topologicalOrder` keeps the extensions that can come next in a sorted list (`Placing`), so the
order is the least of all dependency orders (`topologicalOrder_least`).
-/

namespace OpenGameAgent.ExtensionKit

open TopologicalOrders

/-- The ids an extension depends on, as its manifest lists them. -/
def dependencyIds (byId : Manifests) (id : Text) : List Text :=
  ((byId.get? id).elim [] (·.dependencies)).map (·.id)

/-- An extension depends on another. -/
def DependsOn (byId : Manifests) (u w : Text) : Prop := w ∈ dependencyIds byId u

/-- A set without missing dependencies, each listed once. -/
structure Complete (byId : Manifests) (ids : List Text) : Prop where
  sorted : ids.Pairwise (· < ·)
  nonempty : [] ∉ ids
  nodup : ∀ id, (dependencyIds byId id).Nodup
  present : ∀ id w, DependsOn byId id w → id ∈ ids ∧ w ∈ ids

/-! ## Counting -/

section Counting

variable {byId : Manifests} {ids : List Text}

/-- Every dependency gets its dependent once. -/
theorem foldl_addDependent (id : Text) :
    ∀ (dependencies : List GameExtensionDependency) (dependents : Text → List Text) (key : Text),
      (dependencies.map (·.id)).Nodup →
      dependencies.foldl (addDependent id) dependents key =
        dependents key ++ if key ∈ dependencies.map (·.id) then [id] else [] := by
  intro dependencies
  induction dependencies with
  | nil => simp
  | cons dependency dependencies ih =>
    intro dependents key hnodup
    rw [List.map_cons, List.nodup_cons] at hnodup
    rw [List.foldl_cons, ih _ _ hnodup.2]
    by_cases hkey : key = dependency.id
    · subst hkey
      simp [hnodup.1, addDependent]
    · simp [hkey, addDependent]

/-- After the count, `indegree` is the number of dependencies and `dependents` lists, in order, the
extensions that depend on one. -/
theorem countDependencies_spec (hnodup : ∀ id, (dependencyIds byId id).Nodup) :
    ∀ (l : List Text) (counts : Counts), l.Nodup →
      (∀ id, (l.foldl (countExtension byId) counts).indegree id =
        if id ∈ l then ((dependencyIds byId id).length : ℤ) else counts.indegree id) ∧
      ∀ w, (l.foldl (countExtension byId) counts).dependents w =
        counts.dependents w ++ l.filter fun id => decide (w ∈ dependencyIds byId id) := by
  intro l
  induction l with
  | nil =>
    intro counts _
    simp
  | cons id l ih =>
    intro counts hl
    rw [List.nodup_cons] at hl
    obtain ⟨hindegree, hdependents⟩ := ih (countExtension byId counts id) hl.2
    refine ⟨fun other => ?_, fun w => ?_⟩
    · refine (hindegree other).trans ?_
      by_cases hother : other = id
      · subst hother
        simp [hl.1, countExtension, dependencyIds]
      · simp [hother, countExtension]
    · refine (hdependents w).trans ?_
      have hone : (countExtension byId counts id).dependents w =
          counts.dependents w ++ if w ∈ dependencyIds byId id then [id] else [] :=
        foldl_addDependent id _ _ w (hnodup id)
      rw [hone, List.append_assoc, List.filter_cons]
      by_cases hw : w ∈ dependencyIds byId id <;> simp [hw]

end Counting

/-! ## The sorted list -/

theorem mem_insertSorted {values : List Text} {value x : Text} :
    x ∈ insertSorted values value ↔ x = value ∨ x ∈ values := by
  induction values with
  | nil => simp [insertSorted]
  | cons first rest ih =>
    rw [insertSorted]
    split
    · rw [List.mem_cons, ih, List.mem_cons]
      tauto
    · rw [List.mem_cons]

theorem pairwise_insertSorted {values : List Text} {value : Text} (h : values.Pairwise (· < ·))
    (hfresh : value ∉ values) : (insertSorted values value).Pairwise (· < ·) := by
  induction values with
  | nil => simp [insertSorted]
  | cons first rest ih =>
    rw [List.pairwise_cons] at h
    rw [List.mem_cons, not_or] at hfresh
    rw [insertSorted]
    split
    · rename_i hlt
      rw [List.pairwise_cons]
      refine ⟨fun x hx => ?_, ih h.2 hfresh.2⟩
      rcases mem_insertSorted.mp hx with rfl | hx
      · exact hlt
      · exact h.1 x hx
    · rename_i hge
      have hlt : value < first := lt_of_le_of_ne (not_lt.mp hge) hfresh.1
      rw [List.pairwise_cons]
      refine ⟨fun x hx => ?_, List.pairwise_cons.mpr h⟩
      rcases List.mem_cons.mp hx with rfl | hx
      · exact hlt
      · exact hlt.trans (h.1 x hx)

/-- What settling some extensions once each does: those that waited for one dependency only become
ready. -/
theorem foldl_settleDependent :
    ∀ (dependents : List Text) (state : OrderState), dependents.Nodup →
      state.ready.Pairwise (· < ·) → (∀ x ∈ dependents, x ∉ state.ready) →
      let next := dependents.foldl settleDependent state
      (∀ x, next.indegree x = state.indegree x - if x ∈ dependents then 1 else 0) ∧
      next.ready.Pairwise (· < ·) ∧
      (∀ x, x ∈ next.ready ↔ x ∈ state.ready ∨ (x ∈ dependents ∧ state.indegree x = 1)) := by
  intro dependents
  induction dependents with
  | nil =>
    intro state _ hsorted _
    simpa using hsorted
  | cons dependent dependents ih =>
    intro state hnodup hsorted hfresh
    rw [List.nodup_cons] at hnodup
    have hready : ∀ x, x ∈ (settleDependent state dependent).ready ↔
        x ∈ state.ready ∨ (x = dependent ∧ state.indegree x = 1) := by
      intro x
      simp only [settleDependent]
      split
      · rename_i hzero
        rw [mem_insertSorted]
        constructor
        · rintro (rfl | hx)
          · exact .inr ⟨rfl, by omega⟩
          · exact .inl hx
        · rintro (hx | ⟨rfl, -⟩)
          · exact .inr hx
          · exact .inl rfl
      · rename_i hzero
        constructor
        · exact .inl
        · rintro (hx | ⟨rfl, hone⟩)
          · exact hx
          · exact absurd (by omega) hzero
    have hsorted' : (settleDependent state dependent).ready.Pairwise (· < ·) := by
      simp only [settleDependent]
      split
      · exact pairwise_insertSorted hsorted (hfresh dependent List.mem_cons_self)
      · exact hsorted
    have hindegree : ∀ x, (settleDependent state dependent).indegree x =
        state.indegree x - if x = dependent then 1 else 0 := by
      intro x
      by_cases hx : x = dependent
      · subst hx
        simp [settleDependent]
      · simp [settleDependent, hx]
    have hfresh' : ∀ x ∈ dependents, x ∉ (settleDependent state dependent).ready := by
      intro x hx hmem
      rcases (hready x).mp hmem with hold | ⟨rfl, -⟩
      · exact hfresh x (List.mem_cons_of_mem _ hx) hold
      · exact hnodup.1 hx
    obtain ⟨hcount, hpair, hmem⟩ := ih (settleDependent state dependent) hnodup.2 hsorted' hfresh'
    refine ⟨fun x => ?_, hpair, fun x => ?_⟩
    · refine (hcount x).trans ?_
      rw [hindegree]
      by_cases hx : x = dependent
      · subst hx
        simp [hnodup.1]
      · simp [hx]
    · refine (hmem x).trans ?_
      rw [hready, hindegree, List.mem_cons]
      by_cases hx : x = dependent
      · subst hx
        simp [hnodup.1]
      · simp [hx]

theorem order_foldl_settleDependent (dependents : List Text) (state : OrderState) :
    (dependents.foldl settleDependent state).order = state.order := by
  induction dependents generalizing state with
  | nil => rfl
  | cons dependent dependents ih => exact ih _

/-! ## Placing the extensions -/

/-- The dependencies of an extension that are not in the order yet. -/
def unsettled (byId : Manifests) (order : List Text) (id : Text) : List Text :=
  (dependencyIds byId id).filter fun w => decide (w ∉ order)

/-- What holds between two rounds: the counts are right, the ready list holds in order the
extensions that can come next, and the order so far has always gone on with the least of these. -/
structure Placing (byId : Manifests) (ids : List Text) (state : OrderState) : Prop where
  indegree : ∀ id ∈ ids, id ∉ state.order →
    state.indegree id = (unsettled byId state.order id).length
  sorted : state.ready.Pairwise (· < ·)
  ready : ∀ id, id ∈ state.ready ↔
    id ∈ ids ∧ id ∉ state.order ∧ ∀ w, DependsOn byId id w → w ∈ state.order
  nodup : state.order.Nodup
  mem : ∀ id ∈ state.order, id ∈ ids
  after : ∀ before v rest, state.order = before ++ v :: rest → ∀ w, DependsOn byId v w → w ∈ before
  greedy : ∀ before v rest, state.order = before ++ v :: rest → ∀ w ∈ ids, w ∉ before →
    (∀ x, DependsOn byId w x → x ∈ before) → v ≤ w

section Placed

variable {byId : Manifests} {ids : List Text} {state : OrderState}

theorem unsettled_eq_nil {order : List Text} {id : Text} :
    (unsettled byId order id).length = 0 ↔ ∀ w, DependsOn byId id w → w ∈ order := by
  rw [List.length_eq_zero_iff, unsettled, List.filter_eq_nil_iff]
  simp [DependsOn]

/-- One more extension in the order settles one dependency of each of its dependents. -/
theorem length_unsettled {order : List Text} {id placed : Text}
    (hnodup : (dependencyIds byId id).Nodup) (hnew : placed ∉ order) :
    (unsettled byId order id).length =
      (unsettled byId (order ++ [placed]) id).length +
        if placed ∈ dependencyIds byId id then 1 else 0 := by
  rw [unsettled, unsettled]
  generalize dependencyIds byId id = dependencies at hnodup
  induction dependencies with
  | nil => simp
  | cons w dependencies ih =>
    rw [List.nodup_cons] at hnodup
    have := ih hnodup.2
    by_cases hw : w = placed
    · subst hw
      have hno : w ∉ dependencies := hnodup.1
      rw [if_neg hno, Nat.add_zero] at this
      rw [List.filter_cons_of_pos (by simpa using hnew), List.filter_cons_of_neg (by simp),
        if_pos List.mem_cons_self, List.length_cons, this]
    · by_cases hin : w ∈ order <;> simp [hin, hw, Ne.symm hw] at this ⊢ <;> omega

/-- A vertex of a list that grew by one is old or the new one. -/
theorem split_concat {order before rest : List Text} {placed v : Text}
    (h : order ++ [placed] = before ++ v :: rest) :
    (∃ rest', order = before ++ v :: rest') ∨ (order = before ∧ v = placed) := by
  rcases List.eq_nil_or_concat rest with rfl | ⟨rest', x, rfl⟩
  · have := List.append_inj' h rfl
    exact .inr ⟨this.1, by simpa using this.2.symm⟩
  · refine .inl ⟨rest', ?_⟩
    have h' : order ++ [placed] = (before ++ v :: rest') ++ [x] := by simpa using h
    exact (List.append_inj' h' rfl).1

/-- The first ready extension is put into the order. -/
theorem Placing.place (complete : Complete byId ids) (h : Placing byId ids state) {id : Text}
    {rest dependents : List Text} (hready : state.ready = id :: rest) (hnodup : dependents.Nodup)
    (hdependents : ∀ x, x ∈ dependents ↔ x ∈ ids ∧ DependsOn byId x id) :
    Placing byId ids (dependents.foldl settleDependent
      { state with ready := rest, order := state.order ++ [id] }) := by
  have hfirst := (h.ready id).mp (by rw [hready]; exact List.mem_cons_self)
  have hsorted := h.sorted
  rw [hready, List.pairwise_cons] at hsorted
  have hwaits : ∀ x ∈ dependents, x ∉ state.order ∧ x ≠ id ∧ x ∉ state.ready := by
    intro x hx
    obtain ⟨hids, hdepends⟩ := (hdependents x).mp hx
    refine ⟨?_, ?_, ?_⟩
    · intro hmem
      obtain ⟨before, after, hsplit⟩ := List.append_of_mem hmem
      have := h.after before x after hsplit id hdepends
      exact hfirst.2.1 (by rw [hsplit]; exact List.mem_append_left _ this)
    · rintro rfl
      exact hfirst.2.1 (hfirst.2.2 x hdepends)
    · intro hmem
      exact hfirst.2.1 (((h.ready x).mp hmem).2.2 id hdepends)
  obtain ⟨hindegree, hpair, hmem⟩ := foldl_settleDependent dependents
    { state with ready := rest, order := state.order ++ [id] } hnodup hsorted.2
    (fun x hx hin => (hwaits x hx).2.2 (by rw [hready]; exact List.mem_cons_of_mem _ hin))
  have horder' : (dependents.foldl settleDependent
      { state with ready := rest, order := state.order ++ [id] }).order = state.order ++ [id] :=
    order_foldl_settleDependent ..
  have hcount : ∀ x ∈ ids, x ∉ state.order → state.indegree x =
      (unsettled byId (state.order ++ [id]) x).length + if x ∈ dependents then 1 else 0 := by
    intro x hx hnot
    rw [h.indegree x hx hnot, length_unsettled (complete.nodup x) hfirst.2.1]
    have hiff : x ∈ dependents ↔ id ∈ dependencyIds byId x := by
      rw [hdependents]
      exact and_iff_right hx
    by_cases hin : x ∈ dependents
    · rw [if_pos hin, if_pos (hiff.mp hin)]
      simp
    · rw [if_neg hin, if_neg fun hid => hin (hiff.mpr hid)]
      simp
  refine ⟨?_, hpair, ?_, ?_, ?_, ?_, ?_⟩
  · intro x hx hnot
    rw [horder'] at hnot ⊢
    rw [List.mem_append, not_or] at hnot
    refine (hindegree x).trans ?_
    have := hcount x hx hnot.1
    show state.indegree x - _ = _
    rw [this]
    omega
  · intro x
    rw [horder']
    refine (hmem x).trans ?_
    show x ∈ rest ∨ (x ∈ dependents ∧ state.indegree x = 1) ↔ _
    constructor
    · rintro (hx | ⟨hx, hone⟩)
      · obtain ⟨hids, hnot, hall⟩ := (h.ready x).mp (by rw [hready]; exact List.mem_cons_of_mem _ hx)
        refine ⟨hids, ?_, fun w hw => List.mem_append_left _ (hall w hw)⟩
        rw [List.mem_append, List.mem_singleton, not_or]
        exact ⟨hnot, (hsorted.1 x hx).ne'⟩
      · obtain ⟨hids, -⟩ := (hdependents x).mp hx
        obtain ⟨hnot, hne, -⟩ := hwaits x hx
        have := hcount x hids hnot
        rw [hone, if_pos hx] at this
        refine ⟨hids, ?_, unsettled_eq_nil.mp (by omega)⟩
        rw [List.mem_append, List.mem_singleton, not_or]
        exact ⟨hnot, hne⟩
    · rintro ⟨hids, hnot, hall⟩
      rw [List.mem_append, List.mem_singleton, not_or] at hnot
      have hzero := unsettled_eq_nil.mpr hall
      by_cases hx : x ∈ dependents
      · refine .inr ⟨hx, ?_⟩
        rw [hcount x hids hnot.1, hzero, if_pos hx]
        rfl
      · refine .inl ?_
        have hin : x ∈ state.ready := by
          refine (h.ready x).mpr ⟨hids, hnot.1, fun w hw => ?_⟩
          rcases List.mem_append.mp (hall w hw) with hold | hnew
          · exact hold
          · rw [List.mem_singleton.mp hnew] at hw
            exact absurd ((hdependents x).mpr ⟨hids, hw⟩) hx
        rw [hready] at hin
        exact (List.mem_cons.mp hin).resolve_left hnot.2
  · rw [horder']
    exact List.nodup_append.mpr ⟨h.nodup, by simp, by
      intro a ha b hb
      rw [List.mem_singleton.mp hb]
      rintro rfl
      exact hfirst.2.1 ha⟩
  · intro x hx
    rw [horder', List.mem_append, List.mem_singleton] at hx
    rcases hx with hx | rfl
    · exact h.mem x hx
    · exact hfirst.1
  · intro before v after hsplit w hw
    rw [horder'] at hsplit
    rcases split_concat hsplit with ⟨after', hold⟩ | ⟨rfl, rfl⟩
    · exact h.after before v after' hold w hw
    · exact hfirst.2.2 w hw
  · intro before v after hsplit w hids hnot hall
    rw [horder'] at hsplit
    rcases split_concat hsplit with ⟨after', hold⟩ | ⟨rfl, rfl⟩
    · exact h.greedy before v after' hold w hids hnot hall
    · have hin := (h.ready w).mpr ⟨hids, hnot, hall⟩
      rw [hready] at hin
      rcases List.mem_cons.mp hin with rfl | hin
      · exact le_rfl
      · exact (hsorted.1 w hin).le

/-- Before the first round. -/
theorem placing_start (complete : Complete byId ids) :
    let counts := countDependencies byId ids
    Placing byId ids
      { indegree := counts.indegree
        ready := sortTexts (ids.filter fun id => counts.indegree id = 0)
        order := [] } := by
  intro counts
  have hids : ids.Nodup := complete.sorted.imp fun hlt => hlt.ne
  have hcount : ∀ id ∈ ids, counts.indegree id = ((dependencyIds byId id).length : ℤ) := by
    intro id hid
    have := (countDependencies_spec complete.nodup ids ⟨fun _ => 0, fun _ => []⟩ hids).1 id
    rwa [if_pos hid] at this
  have hfilter : ∀ id, unsettled byId [] id = dependencyIds byId id := by
    intro id
    simp [unsettled]
  refine ⟨?_, ?_, ?_, by simp, by simp, by simp, by simp⟩
  · intro id hid _
    refine (hcount id hid).trans ?_
    show _ = ((unsettled byId [] id).length : ℤ)
    rw [hfilter]
  · show (sortTexts _).Pairwise (· < ·)
    have hle : (sortTexts (ids.filter fun id => counts.indegree id = 0)).Pairwise (· ≤ ·) :=
      List.pairwise_insertionSort _ _
    have hne : (sortTexts (ids.filter fun id => counts.indegree id = 0)).Nodup :=
      (List.perm_insertionSort _ _).nodup_iff.mpr (hids.filter _)
    exact (hle.and hne).imp fun h => lt_of_le_of_ne h.1 h.2
  · intro id
    show id ∈ sortTexts _ ↔ _
    rw [sortTexts, List.mem_insertionSort, List.mem_filter, decide_eq_true_eq]
    constructor
    · rintro ⟨hid, hzero⟩
      rw [hcount id hid] at hzero
      refine ⟨hid, by simp, unsettled_eq_nil.mp ?_⟩
      rw [hfilter]
      exact_mod_cast hzero
    · rintro ⟨hid, -, hall⟩
      have hzero := unsettled_eq_nil.mpr hall
      rw [hfilter] at hzero
      refine ⟨hid, ?_⟩
      rw [hcount id hid, hzero]
      rfl

/-- With a round for each extension every extension is placed. -/
theorem Placing.takeReady (complete : Complete byId ids)
    (hacyclic : ∀ v, ¬ Relation.TransGen (DependsOn byId) v v) :
    ∀ (fuel : ℕ) {state : OrderState}, Placing byId ids state →
      ids.length = state.order.length + fuel →
      let final := takeReady (countDependencies byId ids).dependents fuel state
      Placing byId ids final ∧ ∀ id ∈ ids, id ∈ final.order := by
  have hids : ids.Nodup := complete.sorted.imp fun hlt => hlt.ne
  intro fuel
  induction fuel with
  | zero =>
    intro state h hlen
    refine ⟨h, fun id hid => ?_⟩
    have hsub : state.order ⊆ ids := h.mem
    have hperm := (List.subperm_of_subset h.nodup hsub).perm_of_length_le (by omega)
    exact hperm.mem_iff.mpr hid
  | succ fuel ih =>
    intro state h hlen
    cases hready : state.ready with
    | nil =>
      simp only [ExtensionKit.takeReady, hready]
      refine ⟨h, ?_⟩
      by_contra hleft
      push Not at hleft
      obtain ⟨missing, hmissing, hnot⟩ := hleft
      -- an extension that is left and needs none of the others would be ready
      obtain ⟨v, ⟨hv, hvnot⟩, hfree⟩ := @exists_free _ (DependsOn byId)
        {id | id ∈ ids ∧ id ∉ state.order} ((List.finite_toSet ids).subset fun id hid => hid.1)
        ⟨missing, hmissing, hnot⟩ hacyclic
      have hin := (h.ready v).mpr ⟨hv, hvnot, fun w hw => by
        by_contra hwnot
        exact hfree w hw ⟨(complete.present v w hw).2, hwnot⟩⟩
      rw [hready] at hin
      cases hin
    | cons id rest =>
      have hfirst := (h.ready id).mp (by rw [hready]; exact List.mem_cons_self)
      have hid : id ≠ [] := by
        rintro rfl
        exact complete.nonempty hfirst.1
      have hdependents := (countDependencies_spec complete.nodup ids ⟨fun _ => 0, fun _ => []⟩
        hids).2 id
      have hlist : (countDependencies byId ids).dependents id =
          ids.filter fun other => decide (id ∈ dependencyIds byId other) := by
        refine hdependents.trans ?_
        simp
      have hnext := @Placing.place byId ids state complete h id rest
        (sortTexts ((countDependencies byId ids).dependents id)) hready
        ((List.perm_insertionSort _ _).nodup_iff.mpr (by rw [hlist]; exact hids.filter _))
        (fun x => by
          rw [sortTexts, List.mem_insertionSort, hlist, List.mem_filter, decide_eq_true_eq]
          rfl)
      simp only [ExtensionKit.takeReady, hready, if_neg hid]
      refine ih hnext ?_
      rw [order_foldl_settleDependent, List.length_append, List.length_singleton]
      omega

/-- **The order is the least dependency order** of a set that has nothing missing and no cycle. -/
theorem topologicalOrder_least (complete : Complete byId ids)
    (hacyclic : ∀ v, ¬ Relation.TransGen (DependsOn byId) v v) :
    LeastOrder {id | id ∈ ids} (DependsOn byId) (topologicalOrder byId ids) := by
  obtain ⟨h, hall⟩ := (placing_start complete).takeReady complete hacyclic ids.length (by simp)
  exact leastOrder_of_greedy ⟨h.nodup, fun v => ⟨h.mem v, hall v⟩, h.after⟩ h.greedy

end Placed

end OpenGameAgent.ExtensionKit
