import OpenGameAgent.ExtensionKit.CycleMembers
import OpenGameAgent.ExtensionKit.ExtensionOrder

/-!
# The diagnosis of a set of extensions

What a report says about the manifests it was made for.  The pass for cycles is not exact: it
reports the extensions that an edge closes into a least path, and a set can have cycles through
others too.  `diagnosis_exact_iff`: a report is exact in everything else, and exact altogether when
every extension on a cycle is closed in that way.
-/

namespace OpenGameAgent.ExtensionKit

open LeastPaths TopologicalOrders

/-! ## The set as its manifests say it -/

/-- The manifest that stands for an id. -/
def firstManifest (manifests : List GameExtensionManifest) (id : Text) :
    Option GameExtensionManifest :=
  manifests.find? fun manifest => manifest.id = id

/-- One extension of the set depends on another. -/
def Depends (manifests : List GameExtensionManifest) (u w : Text) : Prop :=
  (∃ manifest, firstManifest manifests u = some manifest ∧
    w ∈ manifest.dependencies.map (·.id)) ∧ w ∈ manifests.map (·.id)

/-- What a set must be to pass. -/
structure Sound (satisfies : Text → Text → Bool) (manifests : List GameExtensionManifest)
    (allowed : List GameExtensionPermission) : Prop where
  once : (manifests.map (·.id)).Nodup
  permitted : ∀ manifest ∈ manifests, ∀ permission ∈ manifest.permissions, permission ∈ allowed
  satisfied : ∀ manifest ∈ manifests, ∀ dependency ∈ manifest.dependencies,
    ∃ available ∈ manifests, available.id = dependency.id ∧
      satisfies available.version dependency.versionRange = true
  acyclic : ∀ id, ¬ OnCycle (Depends manifests) id

/-- Two manifests that differ in the order of their dependencies only. -/
structure SameManifest (manifest other : GameExtensionManifest) : Prop where
  id : manifest.id = other.id
  version : manifest.version = other.version
  permissions : manifest.permissions = other.permissions
  dependencies : manifest.dependencies.Perm other.dependencies

/-- The same manifests in another order, with their dependencies in another order. -/
def Rearranges (manifests others : List GameExtensionManifest) : Prop :=
  ∃ permuted, manifests.Perm permuted ∧ List.Forall₂ SameManifest permuted others

/-! ## The maps -/

section Maps

variable {manifests : List GameExtensionManifest}

theorem get?_groupManifests (manifests : List GameExtensionManifest) (id : Text) :
    (groupManifests manifests).get? id =
      if id ∈ manifests.map (·.id) then some (manifests.filter fun manifest => manifest.id = id)
      else none := by
  induction manifests using List.reverseRecOn with
  | nil => rfl
  | append_singleton manifests manifest ih =>
    have hstep : groupManifests (manifests ++ [manifest]) =
        (groupManifests manifests).set manifest.id
          (((groupManifests manifests).get? manifest.id).getD [] ++ [manifest]) := by
      simp [groupManifests, List.foldl_append]
    rw [hstep, OrderedMap.get?_set]
    by_cases hid : manifest.id = id
    · subst hid
      rw [if_pos rfl, if_pos (by simp), ih, List.filter_append]
      by_cases hmem : manifest.id ∈ manifests.map (·.id)
      · simp [hmem]
      · have hnil : (manifests.filter fun m => decide (m.id = manifest.id)) = [] := by
          rw [List.filter_eq_nil_iff]
          intro m hm heq
          exact hmem (List.mem_map.mpr ⟨m, hm, by simpa using heq⟩)
        simp [hmem, hnil]
    · rw [if_neg hid, ih, List.filter_append]
      simp [hid, Ne.symm hid]

theorem mem_keys_groupManifests {id : Text} :
    id ∈ (groupManifests manifests).keys ↔ id ∈ manifests.map (·.id) := by
  by_cases hmem : id ∈ manifests.map (·.id)
  · refine iff_of_true ?_ hmem
    by_contra hnot
    have := OrderedMap.get?_eq_none_iff.mpr hnot
    rw [get?_groupManifests, if_pos hmem] at this
    cases this
  · refine iff_of_false ?_ hmem
    refine OrderedMap.get?_eq_none_iff.mp ?_
    rw [get?_groupManifests, if_neg hmem]

/-- The ids of a set, sorted. -/
def setIds (manifests : List GameExtensionManifest) : List Text :=
  sortTexts (groupManifests manifests).keys

/-- The manifests by id, as the diagnosis holds them. -/
def setManifests (manifests : List GameExtensionManifest) : Manifests :=
  firstManifests (groupManifests manifests) (setIds manifests)

theorem mem_setIds {id : Text} : id ∈ setIds manifests ↔ id ∈ manifests.map (·.id) := by
  rw [setIds, sortTexts, List.mem_insertionSort, mem_keys_groupManifests]

theorem sortTexts_pairwise {texts : List Text} (h : texts.Nodup) :
    (sortTexts texts).Pairwise (· < ·) := by
  have hle : (sortTexts texts).Pairwise (· ≤ ·) := List.pairwise_insertionSort _ _
  have hne : (sortTexts texts).Nodup := (List.perm_insertionSort _ _).nodup_iff.mpr h
  exact (hle.and hne).imp fun h => lt_of_le_of_ne h.1 h.2

theorem setIds_pairwise (manifests : List GameExtensionManifest) :
    (setIds manifests).Pairwise (· < ·) :=
  sortTexts_pairwise (groupManifests manifests).nodup

theorem get?_firstManifests (grouped : OrderedMap Text (List GameExtensionManifest)) (id : Text) :
    ∀ (ids : List Text) (byId : Manifests), byId.get? id = none →
      (ids.foldl (fun byId id =>
        match (grouped.get? id).bind List.head? with
        | some manifest => byId.set id manifest
        | none => byId) byId).get? id =
      if id ∈ ids then (grouped.get? id).bind List.head? else none := by
  intro ids
  induction ids using List.reverseRecOn with
  | nil =>
    intro byId hnone
    simpa using hnone
  | append_singleton ids last ih =>
    intro byId hnone
    have hprev := ih byId hnone
    rw [List.foldl_append, List.foldl_cons, List.foldl_nil]
    cases hlast : (grouped.get? last).bind List.head? with
    | none =>
      simp only [hprev, List.mem_append, List.mem_singleton]
      by_cases hid : id = last
      · subst hid
        simp [hlast]
      · simp [hid]
    | some manifest =>
      simp only [OrderedMap.get?_set, hprev, List.mem_append, List.mem_singleton]
      by_cases hid : last = id
      · subst hid
        simp [hlast]
      · simp [hid, Ne.symm hid]

/-- The map holds the first manifest of each id. -/
theorem get?_setManifests (manifests : List GameExtensionManifest) (id : Text) :
    (setManifests manifests).get? id = firstManifest manifests id := by
  have h := get?_firstManifests (groupManifests manifests) id (setIds manifests) .empty rfl
  refine Eq.trans h ?_
  by_cases hmem : id ∈ manifests.map (·.id)
  · rw [if_pos (mem_setIds.mpr hmem), get?_groupManifests, if_pos hmem]
    simp [firstManifest, List.head?_filter]
  · rw [if_neg fun hin => hmem (mem_setIds.mp hin), firstManifest, eq_comm, List.find?_eq_none]
    intro manifest hm heq
    exact hmem (List.mem_map.mpr ⟨manifest, hm, by simpa using heq⟩)

theorem firstManifest_isSome {id : Text} :
    (firstManifest manifests id).isSome = true ↔ id ∈ manifests.map (·.id) := by
  rw [firstManifest, List.find?_isSome]
  simp

theorem mem_presentDependencies {u w : Text} :
    Needs (setManifests manifests) u w ↔ Depends manifests u w := by
  rw [Needs, presentDependencies, sortTexts, List.mem_insertionSort, List.mem_filter, Depends,
    get?_setManifests, OrderedMap.has, get?_setManifests, firstManifest_isSome]
  refine and_congr_left fun _ => ?_
  cases firstManifest manifests u <;> simp

theorem needs_eq_depends (manifests : List GameExtensionManifest) :
    Needs (setManifests manifests) = Depends manifests := by
  funext u w
  exact propext mem_presentDependencies

theorem mem_of_firstManifest {id : Text} {manifest : GameExtensionManifest}
    (h : firstManifest manifests id = some manifest) : manifest ∈ manifests ∧ manifest.id = id :=
  ⟨List.mem_of_find?_eq_some h, by simpa using List.find?_some h⟩

/-- The graph of a set of accepted manifests is one the pass can walk. -/
theorem graph_of_accepted (accepted : ∀ manifest ∈ manifests, Accepted manifest) :
    Graph (setManifests manifests) (setIds manifests) := by
  refine ⟨setIds_pairwise manifests, fun u => ?_, fun u w hneeds => ?_⟩
  · refine sortTexts_pairwise (List.Nodup.filter _ ?_)
    rw [get?_setManifests]
    cases hfirst : firstManifest manifests u with
    | none => simp
    | some manifest => exact (accepted manifest (mem_of_firstManifest hfirst).1).dependencies
  · obtain ⟨⟨manifest, hfirst, -⟩, hw⟩ := mem_presentDependencies.mp hneeds
    obtain ⟨hmem, rfl⟩ := mem_of_firstManifest hfirst
    exact ⟨mem_setIds.mpr (List.mem_map_of_mem hmem), mem_setIds.mpr hw⟩

end Maps

/-! ## Reports -/

section Reports

variable {satisfies : Text → Text → Bool} {manifests : List GameExtensionManifest}
  {allowed : List GameExtensionPermission} {limits : GameExtensionSetLimits}
  {report : GameExtensionSetReport}

/-- Everything the diagnosis finds. -/
def findings (satisfies : Text → Text → Bool) (manifests : List GameExtensionManifest)
    (allowed : List GameExtensionPermission) : List GameExtensionDiagnostic :=
  checkDuplicates (groupManifests manifests) (setIds manifests) ++
    (setIds manifests).flatMap (checkManifest satisfies allowed (setManifests manifests)) ++
    (findCycleMembers (setManifests manifests) (setIds manifests)).map .dependencyCycle

/-- Within the limit every diagnostic is kept. -/
theorem runM_push :
    ∀ (found diagnostics result : List GameExtensionDiagnostic),
      runM (push limits) diagnostics found = .ok result → result = diagnostics ++ found := by
  intro found
  induction found with
  | nil =>
    intro diagnostics result h
    rw [runM_nil, Except.ok.injEq] at h
    rw [List.append_nil, h]
  | cons diagnostic found ih =>
    intro diagnostics result h
    obtain ⟨mid, hmid, hrest⟩ := runM_cons_eq_ok.mp h
    rw [push] at hmid
    split at hmid
    · cases hmid
    · rw [Except.ok.injEq] at hmid
      rw [ih mid result hrest, ← hmid]
      simp

/-- A report is made from what was found. -/
theorem report_eq (h : diagnoseGameExtensionSet satisfies manifests allowed limits = .ok report) :
    report.diagnostics = findings satisfies manifests allowed ∧
      (report.passed = true ↔ findings satisfies manifests allowed = []) ∧
      (report.passed = true →
        report.order = topologicalOrder (setManifests manifests) (setIds manifests)) ∧
      (report.passed = false → report.order = []) := by
  rw [diagnoseGameExtensionSet] at h
  split at h
  · cases h
  split at h
  · cases h
  obtain ⟨diagnostics, hrun, hreport⟩ := bind_eq_ok.mp h
  have hfound : diagnostics = findings satisfies manifests allowed := by
    have := runM_push _ _ _ hrun
    rwa [List.nil_append] at this
  split at hreport
  · rename_i hpos
    cases hreport
    refine ⟨hfound, iff_of_false (by simp) ?_, by simp, by simp⟩
    rw [← hfound]
    exact List.length_pos_iff.mp hpos
  · rename_i hzero
    cases hreport
    have hnil : diagnostics = [] := by
      rw [← List.length_eq_zero_iff]
      omega
    exact ⟨hnil.symm.trans hfound, iff_of_true rfl (hfound ▸ hnil), fun _ => rfl, by simp⟩

theorem cycle_mem_findings {id : Text} :
    GameExtensionDiagnostic.dependencyCycle id ∈ findings satisfies manifests allowed ↔
      id ∈ findCycleMembers (setManifests manifests) (setIds manifests) := by
  have hduplicates : GameExtensionDiagnostic.dependencyCycle id ∉
      checkDuplicates (groupManifests manifests) (setIds manifests) := by
    simp [checkDuplicates]
  have hchecks : GameExtensionDiagnostic.dependencyCycle id ∉
      (setIds manifests).flatMap (checkManifest satisfies allowed (setManifests manifests)) := by
    intro hmem
    obtain ⟨other, -, hin⟩ := List.mem_flatMap.mp hmem
    rw [checkManifest] at hin
    split at hin
    · cases hin
    · rcases List.mem_append.mp hin with hin | hin
      · simp at hin
      · obtain ⟨dependency, -, hin⟩ := List.mem_flatMap.mp hin
        rw [checkDependency] at hin
        split at hin
        · simp at hin
        · split at hin <;> simp at hin
  rw [findings, List.mem_append, List.mem_append]
  simp [hduplicates, hchecks]

theorem checkDuplicates_eq_nil :
    checkDuplicates (groupManifests manifests) (setIds manifests) = [] ↔
      (manifests.map (·.id)).Nodup := by
  have hlength : ∀ id, (manifests.filter fun manifest => decide (manifest.id = id)).length =
      (manifests.map (·.id)).count id := by
    intro id
    rw [List.count, List.countP_map, List.countP_eq_length_filter]
    refine congrArg List.length (List.filter_congr fun manifest _ => ?_)
    rw [Function.comp, Bool.eq_iff_iff, decide_eq_true_eq, beq_iff_eq]
  rw [checkDuplicates, List.map_eq_nil_iff, List.filter_eq_nil_iff, List.nodup_iff_count_le_one]
  constructor
  · intro h id
    by_cases hid : id ∈ manifests.map (·.id)
    · have := h id (mem_setIds.mpr hid)
      rw [get?_groupManifests, if_pos hid, Option.getD_some, hlength, decide_eq_true_eq] at this
      omega
    · rw [List.count_eq_zero_of_not_mem hid]
      omega
  · intro h id hid
    rw [get?_groupManifests, if_pos (mem_setIds.mp hid), Option.getD_some, hlength,
      decide_eq_true_eq]
    have := h id
    omega

theorem checkDependency_eq_nil {id : Text} {dependency : GameExtensionDependency} :
    checkDependency satisfies (setManifests manifests) id dependency = [] ↔
      ∃ available, firstManifest manifests dependency.id = some available ∧
        satisfies available.version dependency.versionRange = true := by
  rw [checkDependency, get?_setManifests]
  cases firstManifest manifests dependency.id with
  | none => simp
  | some available => simp

theorem checkManifest_eq_nil {manifest : GameExtensionManifest} {id : Text}
    (h : firstManifest manifests id = some manifest) :
    checkManifest satisfies allowed (setManifests manifests) id = [] ↔
      (∀ permission ∈ manifest.permissions, permission ∈ allowed) ∧
      ∀ dependency ∈ manifest.dependencies, ∃ available,
        firstManifest manifests dependency.id = some available ∧
          satisfies available.version dependency.versionRange = true := by
  simp only [checkManifest, get?_setManifests, h, List.append_eq_nil_iff, List.map_eq_nil_iff,
    List.filter_eq_nil_iff, List.flatMap_eq_nil_iff, List.mem_insertionSort,
    checkDependency_eq_nil]
  simp

/-- Where no id occurs twice, every manifest stands for its id. -/
theorem firstManifest_of_mem (h : (manifests.map (·.id)).Nodup) {manifest : GameExtensionManifest}
    (hmem : manifest ∈ manifests) : firstManifest manifests manifest.id = some manifest := by
  obtain ⟨first, hfirst⟩ := Option.isSome_iff_exists.mp
    (firstManifest_isSome.mpr (List.mem_map_of_mem hmem))
  obtain ⟨hin, hid⟩ := mem_of_firstManifest hfirst
  rw [hfirst, List.inj_on_of_nodup_map h hin hmem hid]

/-- Nothing is found exactly when the set is sound. -/
theorem findings_eq_nil (accepted : ∀ manifest ∈ manifests, Accepted manifest) :
    findings satisfies manifests allowed = [] ↔ Sound satisfies manifests allowed := by
  have hcycles : findCycleMembers (setManifests manifests) (setIds manifests) = [] ↔
      ∀ id, ¬ OnCycle (Depends manifests) id := by
    rw [findCycleMembers_eq_nil (graph_of_accepted accepted), needs_eq_depends]
  rw [findings, List.append_eq_nil_iff, List.append_eq_nil_iff, checkDuplicates_eq_nil,
    List.map_eq_nil_iff, hcycles, List.flatMap_eq_nil_iff]
  constructor
  · rintro ⟨⟨honce, hchecks⟩, hacyclic⟩
    have hcheck : ∀ manifest ∈ manifests,
        (∀ permission ∈ manifest.permissions, permission ∈ allowed) ∧
        ∀ dependency ∈ manifest.dependencies, ∃ available,
          firstManifest manifests dependency.id = some available ∧
            satisfies available.version dependency.versionRange = true := by
      intro manifest hmem
      exact (checkManifest_eq_nil (firstManifest_of_mem honce hmem)).mp
        (hchecks manifest.id (mem_setIds.mpr (List.mem_map_of_mem hmem)))
    refine ⟨honce, fun manifest hmem => (hcheck manifest hmem).1, ?_, hacyclic⟩
    intro manifest hmem dependency hdependency
    obtain ⟨available, hfirst, hsatisfies⟩ := (hcheck manifest hmem).2 dependency hdependency
    obtain ⟨hin, hid⟩ := mem_of_firstManifest hfirst
    exact ⟨available, hin, hid, hsatisfies⟩
  · rintro ⟨honce, hpermitted, hsatisfied, hacyclic⟩
    refine ⟨⟨honce, fun id hid => ?_⟩, hacyclic⟩
    obtain ⟨manifest, hmem, rfl⟩ := List.mem_map.mp (mem_setIds.mp hid)
    refine (checkManifest_eq_nil (firstManifest_of_mem honce hmem)).mpr
      ⟨hpermitted manifest hmem, fun dependency hdependency => ?_⟩
    obtain ⟨available, hin, heq, hsatisfies⟩ := hsatisfied manifest hmem dependency hdependency
    exact ⟨available, heq ▸ firstManifest_of_mem honce hin, hsatisfies⟩

/-- In a sound set every dependency is present. -/
theorem Sound.dependsOn_iff (sound : Sound satisfies manifests allowed) {u w : Text} :
    DependsOn (setManifests manifests) u w ↔ Depends manifests u w := by
  rw [DependsOn, dependencyIds, get?_setManifests, Depends]
  constructor
  · intro h
    cases hfirst : firstManifest manifests u with
    | none =>
      rw [hfirst] at h
      simp at h
    | some manifest =>
      rw [hfirst] at h
      obtain ⟨dependency, hdependency, rfl⟩ := List.mem_map.mp h
      obtain ⟨available, hin, heq, -⟩ := sound.satisfied manifest (mem_of_firstManifest hfirst).1
        dependency hdependency
      exact ⟨⟨manifest, rfl, h⟩, heq ▸ List.mem_map_of_mem hin⟩
  · rintro ⟨⟨manifest, hfirst, hw⟩, -⟩
    rw [hfirst]
    exact hw

/-- The order of a sound set is the least dependency order of it. -/
theorem Sound.order_least (sound : Sound satisfies manifests allowed)
    (accepted : ∀ manifest ∈ manifests, Accepted manifest) :
    LeastOrder {id | id ∈ manifests.map (·.id)} (Depends manifests)
      (topologicalOrder (setManifests manifests) (setIds manifests)) := by
  have hdepends : DependsOn (setManifests manifests) = Depends manifests := by
    funext u w
    exact propext sound.dependsOn_iff
  have hids : {id | id ∈ setIds manifests} = {id | id ∈ manifests.map (·.id)} :=
    Set.ext fun id => mem_setIds
  have complete : Complete (setManifests manifests) (setIds manifests) := by
    refine ⟨setIds_pairwise manifests, ?_, fun id => ?_, fun u w hdep => ?_⟩
    · intro hnil
      obtain ⟨manifest, hmem, hid⟩ := List.mem_map.mp (mem_setIds.mp hnil)
      exact (accepted manifest hmem).nonempty hid
    · rw [dependencyIds, get?_setManifests]
      cases hfirst : firstManifest manifests id with
      | none => simp
      | some manifest => exact (accepted manifest (mem_of_firstManifest hfirst).1).dependencies
    · obtain ⟨⟨manifest, hfirst, -⟩, hw⟩ := sound.dependsOn_iff.mp hdep
      obtain ⟨hmem, rfl⟩ := mem_of_firstManifest hfirst
      exact ⟨mem_setIds.mpr (List.mem_map_of_mem hmem), mem_setIds.mpr hw⟩
  have := topologicalOrder_least complete (by rw [hdepends]; exact sound.acyclic)
  rwa [hdepends, hids] at this

end Reports

/-! ## Rearranged sets -/

section Rearranged

variable {satisfies : Text → Text → Bool} {manifests others : List GameExtensionManifest}
  {allowed : List GameExtensionPermission}

theorem SameManifest.accepted {manifest other : GameExtensionManifest}
    (h : SameManifest manifest other) (accepted : Accepted manifest) : Accepted other := by
  have hperm := h.dependencies.map (·.id)
  exact ⟨h.id ▸ accepted.nonempty, h.permissions ▸ accepted.permissions,
    hperm.nodup_iff.mp accepted.dependencies,
    fun hmem => accepted.others (h.id ▸ hperm.mem_iff.mpr hmem)⟩

theorem map_id_of_forall₂ {permuted : List GameExtensionManifest}
    (h : List.Forall₂ SameManifest permuted others) :
    permuted.map (·.id) = others.map (·.id) := by
  induction h with
  | nil => rfl
  | cons hfirst _ ih => rw [List.map_cons, List.map_cons, hfirst.id, ih]

/-- What rearranging keeps: the ids, and each manifest up to the order of its dependencies. -/
theorem Rearranges.keeps (h : Rearranges manifests others) :
    (manifests.map (·.id)).Perm (others.map (·.id)) ∧
      (∀ manifest ∈ manifests, ∃ other ∈ others, SameManifest manifest other) ∧
      ∀ other ∈ others, ∃ manifest ∈ manifests, SameManifest manifest other := by
  obtain ⟨permuted, hperm, hsame⟩ := h
  refine ⟨?_, ?_, ?_⟩
  · rw [← map_id_of_forall₂ hsame]
    exact hperm.map (·.id)
  · intro manifest hmem
    exact exists_right_of_forall₂ hsame (hperm.mem_iff.mp hmem)
  · intro other hmem
    obtain ⟨manifest, hin, hm⟩ := exists_left_of_forall₂ hsame hmem
    exact ⟨manifest, hperm.mem_iff.mpr hin, hm⟩

/-- In a set without duplicates a dependency can be read off any of its manifests. -/
theorem depends_iff (h : (manifests.map (·.id)).Nodup) {u w : Text} :
    Depends manifests u w ↔ (∃ manifest ∈ manifests, manifest.id = u ∧
      w ∈ manifest.dependencies.map (·.id)) ∧ w ∈ manifests.map (·.id) := by
  refine and_congr_left fun _ => ?_
  constructor
  · rintro ⟨manifest, hfirst, hw⟩
    obtain ⟨hmem, hid⟩ := mem_of_firstManifest hfirst
    exact ⟨manifest, hmem, hid, hw⟩
  · rintro ⟨manifest, hmem, rfl, hw⟩
    exact ⟨manifest, firstManifest_of_mem h hmem, hw⟩

theorem depends_rearranged (h : (manifests.map (·.id)).Nodup) (hkeeps : Rearranges manifests others) :
    Depends others = Depends manifests := by
  obtain ⟨hids, hforth, hback⟩ := hkeeps.keeps
  funext u w
  refine propext ?_
  rw [depends_iff h, depends_iff (hids.nodup_iff.mp h), hids.mem_iff]
  refine and_congr_left fun _ => ?_
  constructor
  · rintro ⟨other, hmem, rfl, hw⟩
    obtain ⟨manifest, hin, hsame⟩ := hback other hmem
    exact ⟨manifest, hin, hsame.id, (hsame.dependencies.map (·.id)).mem_iff.mpr hw⟩
  · rintro ⟨manifest, hmem, rfl, hw⟩
    obtain ⟨other, hin, hsame⟩ := hforth manifest hmem
    exact ⟨other, hin, hsame.id.symm, (hsame.dependencies.map (·.id)).mem_iff.mp hw⟩

theorem sound_rearranged (h : Rearranges manifests others) :
    Sound satisfies manifests allowed ↔ Sound satisfies others allowed := by
  obtain ⟨hids, hforth, hback⟩ := h.keeps
  constructor
  · intro sound
    refine ⟨hids.nodup_iff.mp sound.once, ?_, ?_, ?_⟩
    · intro other hmem
      obtain ⟨manifest, hin, hsame⟩ := hback other hmem
      exact hsame.permissions ▸ sound.permitted manifest hin
    · intro other hmem dependency hdependency
      obtain ⟨manifest, hin, hsame⟩ := hback other hmem
      obtain ⟨available, havailable, hid, hsatisfies⟩ := sound.satisfied manifest hin dependency
        (hsame.dependencies.mem_iff.mpr hdependency)
      obtain ⟨twin, htwin, hsameTwin⟩ := hforth available havailable
      exact ⟨twin, htwin, hsameTwin.id ▸ hid, hsameTwin.version ▸ hsatisfies⟩
    · rw [depends_rearranged sound.once h]
      exact sound.acyclic
  · intro sound
    have honce := hids.nodup_iff.mpr sound.once
    refine ⟨honce, ?_, ?_, ?_⟩
    · intro manifest hmem
      obtain ⟨other, hin, hsame⟩ := hforth manifest hmem
      exact hsame.permissions ▸ sound.permitted other hin
    · intro manifest hmem dependency hdependency
      obtain ⟨other, hin, hsame⟩ := hforth manifest hmem
      obtain ⟨available, havailable, hid, hsatisfies⟩ := sound.satisfied other hin dependency
        (hsame.dependencies.mem_iff.mp hdependency)
      obtain ⟨twin, htwin, hsameTwin⟩ := hback available havailable
      exact ⟨twin, htwin, hsameTwin.id.trans hid, hsameTwin.version ▸ hsatisfies⟩
    · rw [← depends_rearranged honce h]
      exact sound.acyclic

end Rearranged

/-! ## Exactness -/

/-- What a report is meant to say of the set it was made for. -/
structure DiagnosisExact (satisfies : Text → Text → Bool) (manifests : List GameExtensionManifest)
    (allowed : List GameExtensionPermission) (limits : GameExtensionSetLimits)
    (report : GameExtensionSetReport) : Prop where
  passes : report.passed = true ↔ Sound satisfies manifests allowed
  cycles : ∀ id, .dependencyCycle id ∈ report.diagnostics ↔ OnCycle (Depends manifests) id
  order : report.passed = true →
    LeastOrder {id | id ∈ manifests.map (·.id)} (Depends manifests) report.order
  rearranged : ∀ others other, Rearranges manifests others →
    diagnoseGameExtensionSet satisfies others allowed limits = .ok other →
    other.passed = report.passed ∧ other.order = report.order

/-- **When a report is exact**: exactly when every extension on a dependency cycle lies between
the two ends of a dependency that leads back into the least path of its dependent. -/
theorem diagnosis_exact_iff (readers : ManifestReaders) (satisfies : Text → Text → Bool)
    (manifests : List GameExtensionManifest) (allowed : List GameExtensionPermission)
    (limits : GameExtensionSetLimits) (report : GameExtensionSetReport)
    (parsed : ∀ manifest ∈ manifests, ∃ manifestLimits text,
      parseGameExtensionManifest readers manifestLimits text = .ok manifest)
    (reported : diagnoseGameExtensionSet satisfies manifests allowed limits = .ok report) :
    DiagnosisExact satisfies manifests allowed limits report ↔
      ∀ id, OnCycle (Depends manifests) id → ClosedAt (Depends manifests) id := by
  have accepted : ∀ manifest ∈ manifests, Accepted manifest := by
    intro manifest hmem
    obtain ⟨manifestLimits, text, hparse⟩ := parsed manifest hmem
    exact parseGameExtensionManifest_accepted hparse
  obtain ⟨hdiagnostics, hpassed, horder, hfailed⟩ := report_eq reported
  have hsound : report.passed = true ↔ Sound satisfies manifests allowed :=
    hpassed.trans (findings_eq_nil accepted)
  have hcycle : ∀ id, .dependencyCycle id ∈ report.diagnostics ↔
      ClosedAt (Depends manifests) id := by
    intro id
    rw [hdiagnostics, cycle_mem_findings, mem_findCycleMembers (graph_of_accepted accepted),
      needs_eq_depends]
  constructor
  · intro exactly id hid
    exact (hcycle id).mp ((exactly.cycles id).mpr hid)
  · intro hclosed
    refine ⟨hsound, fun id => ?_, fun hpass => ?_, ?_⟩
    · rw [hcycle]
      exact ⟨ClosedAt.onCycle, hclosed id⟩
    · rw [horder hpass]
      exact (hsound.mp hpass).order_least accepted
    · intro others other hothers hother
      have acceptedOthers : ∀ manifest ∈ others, Accepted manifest := by
        intro twin hmem
        obtain ⟨manifest, hin, hsame⟩ := hothers.keeps.2.2 twin hmem
        exact hsame.accepted (accepted manifest hin)
      obtain ⟨-, hpassedOther, horderOther, hfailedOther⟩ := report_eq hother
      have hsame : other.passed = report.passed := by
        rw [Bool.eq_iff_iff, hpassedOther, findings_eq_nil acceptedOthers, hsound]
        exact (sound_rearranged hothers).symm
      refine ⟨hsame, ?_⟩
      by_cases hpass : report.passed = true
      · have sound := hsound.mp hpass
        have hfirst := sound.order_least accepted
        have hsecond := ((sound_rearranged hothers).mp sound).order_least acceptedOthers
        rw [depends_rearranged sound.once hothers] at hsecond
        have hids : {id | id ∈ others.map (·.id)} = {id | id ∈ manifests.map (·.id)} :=
          Set.ext fun id => hothers.keeps.1.mem_iff.symm
        rw [hids] at hsecond
        rw [horderOther (hsame.trans hpass), horder hpass]
        exact hsecond.unique hfirst
      · have hfail : report.passed = false := Bool.eq_false_iff.mpr hpass
        rw [hfailedOther (hsame.trans hfail), hfailed hfail]

/-! ### Two cycles with an extension in common -/

/-- The readers of the sample: the JSON reader, and versions and ranges as they are. -/
def sampleReaders : ManifestReaders where
  parseStrictJsonText text _ := (parseJson oneDigit text).elim (.error .invalid) .ok
  valid := some
  validRange := some

def sampleManifest (id : String) (dependencies : List String) : GameExtensionManifest where
  id := utf16 id
  version := utf16 "1"
  permissions := []
  dependencies := dependencies.map fun dependency => ⟨utf16 dependency, utf16 "*"⟩

/-- The text of a sample manifest. -/
def sampleText (id : String) (dependencies : List String) : Text :=
  canonicalizeJsonValue (.record
    [("schemaVersion", some (.text "1")), ("id", some (.text id)), ("version", some (.text "1")),
      ("permissions", some (.array [])),
      ("dependencies", some (.array (dependencies.map fun dependency =>
        .record [("id", some (.text dependency)), ("versionRange", some (.text "*"))])))])

/-- `a` depends on `b` and `c`, and both lead back to it: `c` through `b`. -/
def crossedSet : List GameExtensionManifest :=
  [sampleManifest "a" ["b", "c"], sampleManifest "b" ["a"], sampleManifest "c" ["b"]]

def crossedReport : GameExtensionSetReport :=
  ⟨false, [], [.dependencyCycle (utf16 "a"), .dependencyCycle (utf16 "b")]⟩

theorem crossedSet_parsed : ∀ manifest ∈ crossedSet, ∃ manifestLimits text,
    parseGameExtensionManifest sampleReaders manifestLimits text = .ok manifest := by
  have hparse : ∀ sample ∈ [("a", ["b", "c"]), ("b", ["a"]), ("c", ["b"])],
      parseGameExtensionManifest sampleReaders ⟨1000, 10, 10, 10, 10, 10⟩
        (sampleText sample.1 sample.2) = .ok (sampleManifest sample.1 sample.2) := by
    decide +kernel
  intro manifest hmem
  simp only [crossedSet, List.mem_cons, List.not_mem_nil, or_false] at hmem
  rcases hmem with rfl | rfl | rfl
  · exact ⟨_, _, hparse ("a", ["b", "c"]) (by simp)⟩
  · exact ⟨_, _, hparse ("b", ["a"]) (by simp)⟩
  · exact ⟨_, _, hparse ("c", ["b"]) (by simp)⟩

theorem crossedSet_reported : diagnoseGameExtensionSet (fun _ _ => true) crossedSet [] ⟨3, 8⟩ =
    .ok crossedReport := by
  decide +kernel

/-- The extension `c` lies on the cycle from `a` over `c` and `b` and is not reported. -/
theorem unreported_cycle_member :
    (∀ manifest ∈ crossedSet, ∃ manifestLimits text,
        parseGameExtensionManifest sampleReaders manifestLimits text = .ok manifest) ∧
      diagnoseGameExtensionSet (fun _ _ => true) crossedSet [] ⟨3, 8⟩ = .ok crossedReport ∧
      ¬ DiagnosisExact (fun _ _ => true) crossedSet [] ⟨3, 8⟩ crossedReport := by
  refine ⟨crossedSet_parsed, crossedSet_reported, fun exactly => ?_⟩
  have hedges : (utf16 "b" ∈ (sampleManifest "c" ["b"]).dependencies.map (·.id) ∧
      utf16 "a" ∈ (sampleManifest "b" ["a"]).dependencies.map (·.id) ∧
      utf16 "c" ∈ (sampleManifest "a" ["b", "c"]).dependencies.map (·.id)) ∧
      utf16 "c" ≠ utf16 "a" ∧ utf16 "c" ≠ utf16 "b" ∧ utf16 "b" ≠ utf16 "a" := by decide
  obtain ⟨⟨hcb, hba, hac⟩, hca, hcb', hba'⟩ := hedges
  have hcycle : OnCycle (Depends crossedSet) (utf16 "c") := by
    refine .head (b := utf16 "b") ⟨⟨_, ?_, hcb⟩, ?_⟩ (.head (b := utf16 "a") ⟨⟨_, ?_, hba⟩, ?_⟩
      (.single ⟨⟨_, ?_, hac⟩, ?_⟩))
    all_goals decide
  have hmem := (exactly.cycles (utf16 "c")).mpr hcycle
  simp [crossedReport, hca, hcb'] at hmem

/-- The condition at that set. -/
theorem diagnosis_exact_crossedSet :
    DiagnosisExact (fun _ _ => true) crossedSet [] ⟨3, 8⟩ crossedReport ↔
      ∀ id, OnCycle (Depends crossedSet) id → ClosedAt (Depends crossedSet) id :=
  diagnosis_exact_iff sampleReaders (fun _ _ => true) crossedSet [] ⟨3, 8⟩ crossedReport
    crossedSet_parsed crossedSet_reported

end OpenGameAgent.ExtensionKit
