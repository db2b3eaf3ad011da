import Mathlib.Data.List.Induction
import OpenGameAgent.Agent.ToolSnapshot

/-!
# Extending a Tool catalogue

Whether a catalogue is prepared at once or extended list by list makes no difference
(`extension_prepares_whole`).  Each Tool is described on its own (`describe`); what the lists decide
together is whether the described Tools are `Acceptable`: not too many, with different names, and
not too large as the JSON array the model sees.
-/

namespace OpenGameAgent.ToolSnapshots

variable {host : ToolHost} {limits : GameToolCatalogLimits} {names : List Units}

/-! ## One Tool -/

/-- What is bound for a captured Tool. -/
def bindTool (host : ToolHost) (captured : CapturedTool) (parameters : JsonValue) : BoundTool :=
  let executionMode := captured.executionMode.getD .sequential
  { descriptor :=
      { name := captured.name, label := captured.label, description := captured.description,
        parameters, executionMode
        fingerprint := host.sha256 (canonicalizeJsonValue (modelDescriptor captured.name
          captured.label captured.description parameters executionMode)) }
    prepareArguments := captured.prepareArguments
    prepareDurableExecution := captured.prepareDurableExecution
    execute := captured.execute }

/-- All that is asked of a Tool on its own. -/
def describe (host : ToolHost) (limits : GameToolCatalogLimits) (tool : Option AgentTool) :
    Except ToolSnapshotError BoundTool := do
  let captured ← captureTool tool []
  let parameters ← normalizeProviderJson captured.name captured.parameters limits
  validateNormalizedSchema host captured.name parameters
  .ok (bindTool host captured parameters)

def BoundTool.name (bound : BoundTool) : Units := bound.descriptor.name

theorem captureMembers_name {tool : AgentTool} {name : Units} {captured : CapturedTool}
    (h : captureMembers tool name = .ok captured) : captured.name = name := by
  unfold captureMembers at h
  split at h
  · split at h
    · cases h
    obtain ⟨_, -, h⟩ := bind_eq_ok.mp h
    obtain ⟨_, -, h⟩ := bind_eq_ok.mp h
    obtain ⟨_, -, h⟩ := bind_eq_ok.mp h
    split at h
    · cases h
    · cases h
      rfl
  · cases h

/-- The names before a Tool only matter for its own name. -/
theorem captureTool_eq_ok {tool : Option AgentTool} {captured : CapturedTool} :
    captureTool tool names = .ok captured ↔
      captureTool tool [] = .ok captured ∧ captured.name ∉ names := by
  cases tool with
  | none => simp [captureTool, invalid]
  | some tool =>
    simp only [captureTool]
    cases tool.name with
    | none => simp [invalid]
    | some name =>
      by_cases hname : name = [] ∨ hasControlCharacter name = true
      · simp [hname, invalid]
      · simp only [if_neg hname, List.not_mem_nil, if_false]
        constructor
        · intro h
          split at h
          · cases h
          · rename_i hmem
            exact ⟨h, captureMembers_name h ▸ hmem⟩
        · rintro ⟨h, hmem⟩
          rw [captureMembers_name h] at hmem
          rw [if_neg hmem]
          exact h

/-! ## The catalogue of some described Tools -/

/-- The bytes of the JSON array of the descriptors without their fingerprints. -/
def catalogSize (bounds : List BoundTool) : ℕ :=
  jsonBytes (.array (bounds.map fun bound => bound.descriptor.modelDescriptor))

theorem itemsBytes_append (items more : List JsonValue) :
    itemsBytes (items ++ more) = itemsBytes items + itemsBytes more := by
  induction items with
  | nil => simp [itemsBytes]
  | cons item items ih =>
    simp only [List.cons_append, itemsBytes, ih]
    omega

theorem catalogSize_eq (bounds : List BoundTool) :
    catalogSize bounds = 2 + (bounds.length - 1) +
      itemsBytes (bounds.map fun bound => bound.descriptor.modelDescriptor) := by
  rw [catalogSize, jsonBytes_eq_canonicalBytes, canonicalBytes, List.length_map]

/-- Two parts of a catalogue share one pair of brackets and are parted by a comma. -/
theorem catalogSize_append (bounds : List BoundTool) {more : List BoundTool} (hmore : more ≠ []) :
    catalogSize (bounds ++ more) =
      catalogSize bounds + catalogSize more - 2 + (if bounds.length = 0 then 0 else 1) := by
  have hpos : 0 < more.length := List.length_pos_iff.mpr hmore
  rw [catalogSize_eq, catalogSize_eq, catalogSize_eq, List.map_append, itemsBytes_append,
    List.length_append]
  split <;> omega

theorem catalogSize_le_append (bounds more : List BoundTool) :
    catalogSize bounds ≤ catalogSize (bounds ++ more) := by
  rw [catalogSize_eq, catalogSize_eq, List.map_append, itemsBytes_append, List.length_append]
  omega

theorem catalogSize_right_le (bounds more : List BoundTool) :
    catalogSize more ≤ catalogSize (bounds ++ more) := by
  rw [catalogSize_eq, catalogSize_eq, List.map_append, itemsBytes_append, List.length_append]
  omega

theorem catalogSize_concat (bounds : List BoundTool) (bound : BoundTool) :
    catalogSize (bounds ++ [bound]) = catalogSize bounds + (if bounds.length = 0 then 0 else 1) +
      utf8Length (canonicalizeJsonValue bound.descriptor.modelDescriptor) := by
  have hone : catalogSize [bound] =
      2 + utf8Length (canonicalizeJsonValue bound.descriptor.modelDescriptor) := by
    rw [catalogSize_eq]
    simp only [List.map_cons, List.map_nil, itemsBytes, List.length_singleton,
      ← jsonBytes_eq_canonicalBytes, jsonBytes]
    omega
  have htwo : 2 ≤ catalogSize bounds := by
    rw [catalogSize_eq]
    omega
  rw [catalogSize_append bounds (by simp), hone]
  omega

/-- What the loop has after it has bound some Tools. -/
def catalogOf (bounds : List BoundTool) : Catalog where
  names := bounds.map BoundTool.name
  tools := bounds
  descriptors := bounds.map BoundTool.descriptor
  catalogBytes := catalogSize bounds

/-- The snapshot of some described Tools. -/
def snapshotOf (limits : GameToolCatalogLimits) (bounds : List BoundTool) : PreparedToolSnapshot where
  tools := bounds
  descriptors := bounds.map BoundTool.descriptor
  metadata := some ⟨limits, catalogSize bounds⟩

/-- What described Tools must be together. -/
structure Acceptable (limits : GameToolCatalogLimits) (bounds : List BoundTool) : Prop where
  count : (bounds.length : ℤ) ≤ limits.maxTools
  unique : (bounds.map BoundTool.name).Nodup
  size : (catalogSize bounds : ℤ) ≤ limits.maxCatalogBytes

theorem Acceptable.left {bounds more : List BoundTool} (h : Acceptable limits (bounds ++ more)) :
    Acceptable limits bounds := by
  refine ⟨?_, ?_, ?_⟩
  · have := h.count
    rw [List.length_append] at this
    omega
  · have := h.unique
    rw [List.map_append] at this
    exact this.of_append_left
  · have hsize := h.size
    have hle := catalogSize_le_append bounds more
    omega

/-- One round of the loop. -/
theorem prepareCandidate_eq_ok {bounds : List BoundTool} {tool : Option AgentTool}
    {next : Catalog} :
    prepareCandidate host limits (catalogOf bounds) tool = .ok next ↔
      ∃ bound, describe host limits tool = .ok bound ∧ bound.name ∉ bounds.map BoundTool.name ∧
        (catalogSize (bounds ++ [bound]) : ℤ) ≤ limits.maxCatalogBytes ∧
        next = catalogOf (bounds ++ [bound]) := by
  have hnext : ∀ captured parameters,
      catalogSize (bounds ++ [bindTool host captured parameters]) =
        catalogSize bounds + (if bounds.length = 0 then 0 else 1) +
          utf8Length (canonicalizeJsonValue (modelDescriptor captured.name captured.label
            captured.description parameters (captured.executionMode.getD .sequential))) :=
    fun captured parameters => catalogSize_concat bounds (bindTool host captured parameters)
  have hcatalog : ∀ captured parameters, catalogOf (bounds ++ [bindTool host captured parameters]) =
      { names := bounds.map BoundTool.name ++ [captured.name]
        tools := bounds ++ [bindTool host captured parameters]
        descriptors := bounds.map BoundTool.descriptor ++
          [(bindTool host captured parameters).descriptor]
        catalogBytes := catalogSize (bounds ++ [bindTool host captured parameters]) } := by
    intro captured parameters
    simp only [catalogOf, List.map_append, List.map_singleton]
    rfl
  rw [prepareCandidate, bind_eq_ok]
  constructor
  · rintro ⟨captured, hcaptured, h⟩
    obtain ⟨halone, hfresh⟩ := captureTool_eq_ok.mp hcaptured
    obtain ⟨parameters, hparameters, h⟩ := bind_eq_ok.mp h
    obtain ⟨hsize, h⟩ := check_eq_ok.mp h
    obtain ⟨hschema, h⟩ := check_eq_ok.mp h
    rw [demand_eq_ok, decide_eq_true_eq] at hsize
    rw [Except.ok.injEq] at h
    have hlength : (catalogOf bounds).descriptors.length = bounds.length := List.length_map ..
    rw [hlength] at hsize h
    refine ⟨bindTool host captured parameters, ?_, hfresh, ?_, ?_⟩
    · rw [describe, halone, ok_bind, hparameters, ok_bind, hschema, ok_bind]
    · rw [hnext]
      exact hsize
    · rw [hcatalog, hnext]
      exact h.symm
  · rintro ⟨bound, hdescribe, hfresh, hsize, rfl⟩
    obtain ⟨captured, halone, h⟩ := bind_eq_ok.mp hdescribe
    obtain ⟨parameters, hparameters, h⟩ := bind_eq_ok.mp h
    obtain ⟨hschema, h⟩ := check_eq_ok.mp h
    rw [Except.ok.injEq] at h
    subst h
    have hlength : (catalogOf bounds).descriptors.length = bounds.length := List.length_map ..
    refine ⟨captured, captureTool_eq_ok.mpr ⟨halone, hfresh⟩, bind_eq_ok.mpr
      ⟨parameters, hparameters, check_eq_ok.mpr ⟨?_, check_eq_ok.mpr ⟨hschema, ?_⟩⟩⟩⟩
    · rw [demand_eq_ok, decide_eq_true_eq, hlength]
      rw [hnext] at hsize
      exact hsize
    · rw [hlength, hcatalog, hnext]
      rfl

/-! ## Lists of Tools -/

/-- The names of two lists are different when each list's are and the second repeats none of the
first. -/
theorem nodup_names_append {bounds more : List BoundTool}
    (hbounds : (bounds.map BoundTool.name).Nodup) :
    ((bounds ++ more).map BoundTool.name).Nodup ↔ (more.map BoundTool.name).Nodup ∧
      ∀ bound ∈ more, bound.name ∉ bounds.map BoundTool.name := by
  rw [List.map_append, List.nodup_append]
  constructor
  · rintro ⟨-, hmore, hdisjoint⟩
    refine ⟨hmore, fun bound hbound hmem => ?_⟩
    exact hdisjoint _ hmem _ (List.mem_map_of_mem hbound) rfl
  · rintro ⟨hmore, hdisjoint⟩
    refine ⟨hbounds, hmore, fun a ha b hb => ?_⟩
    obtain ⟨bound, hbound, rfl⟩ := List.mem_map.mp hb
    rintro rfl
    exact hdisjoint bound hbound ha

theorem eq_nil_of_mapM {α β : Type} {f : α → Except ToolSnapshotError β} {r : List β}
    (h : [].mapM f = .ok r) : r = [] := by
  rw [mapM_eq_ok_iff, List.forall₂_nil_left_iff] at h
  exact h

/-- The whole loop. -/
theorem runM_prepareCandidate_eq_ok :
    ∀ (tools : List (Option AgentTool)) (bounds : List BoundTool) {final : Catalog},
      (bounds.map BoundTool.name).Nodup → (catalogSize bounds : ℤ) ≤ limits.maxCatalogBytes →
      (runM (prepareCandidate host limits) (catalogOf bounds) tools = .ok final ↔
        ∃ more, tools.mapM (describe host limits) = .ok more ∧
          ((bounds ++ more).map BoundTool.name).Nodup ∧
          (catalogSize (bounds ++ more) : ℤ) ≤ limits.maxCatalogBytes ∧
          final = catalogOf (bounds ++ more)) := by
  intro tools
  induction tools with
  | nil =>
    intro bounds final hunique hsize
    rw [runM_nil, Except.ok.injEq]
    constructor
    · rintro rfl
      refine ⟨[], rfl, ?_, ?_, ?_⟩ <;> rw [List.append_nil]
      · exact hunique
      · exact hsize
    · rintro ⟨more, hmore, -, -, rfl⟩
      rw [eq_nil_of_mapM hmore, List.append_nil]
  | cons tool tools ih =>
    intro bounds final hunique hsize
    rw [runM_cons_eq_ok]
    simp only [prepareCandidate_eq_ok, mapM_eq_ok_iff] at ih ⊢
    constructor
    · rintro ⟨_, ⟨bound, hbound, hfresh, hnext, rfl⟩, hrest⟩
      have hunique' : ((bounds ++ [bound]).map BoundTool.name).Nodup :=
        (nodup_names_append hunique).mpr ⟨by simp, by simpa using hfresh⟩
      obtain ⟨more, hmore, hall, htotal, rfl⟩ := (ih (bounds ++ [bound]) hunique' hnext).mp hrest
      rw [List.append_assoc] at hall htotal ⊢
      exact ⟨bound :: more, .cons hbound hmore, hall, htotal, rfl⟩
    · rintro ⟨_, hmore, hall, htotal, rfl⟩
      cases hmore with
      | @cons _ bound _ more hbound hmore =>
        have hsplit : bounds ++ bound :: more = (bounds ++ [bound]) ++ more := by simp
        rw [hsplit] at hall htotal ⊢
        have hunique' : ((bounds ++ [bound]).map BoundTool.name).Nodup := by
          rw [List.map_append] at hall
          exact hall.of_append_left
        have hnext : (catalogSize (bounds ++ [bound]) : ℤ) ≤ limits.maxCatalogBytes := by
          have := catalogSize_le_append (bounds ++ [bound]) more
          omega
        have hfresh := ((nodup_names_append hunique).mp hunique').2 bound (by simp)
        exact ⟨_, ⟨bound, hbound, hfresh, hnext, rfl⟩,
          (ih _ hunique' hnext).mpr ⟨more, hmore, hall, htotal, rfl⟩⟩

theorem captureToolArrayElements_eq_ok {α : Type} {tools captured : List α} {maximum : ℤ} :
    captureToolArrayElements tools maximum = .ok captured ↔
      (tools.length : ℤ) ≤ maximum ∧ captured = tools := by
  unfold captureToolArrayElements
  split
  · rename_i hlt
    exact iff_of_false (by simp) fun h => absurd h.1 (by omega)
  · rename_i hge
    rw [Except.ok.injEq]
    constructor
    · rintro rfl
      exact ⟨by omega, rfl⟩
    · exact fun h => h.2.symm

theorem length_of_mapM {α β : Type} {f : α → Except ToolSnapshotError β} {l : List α} {r : List β}
    (h : l.mapM f = .ok r) : r.length = l.length :=
  (mapM_eq_ok_iff.mp h).length_eq.symm

/-- What a whole catalogue is prepared to. -/
theorem prepareToolCatalogSnapshot_eq_ok {tools : List (Option AgentTool)}
    {snapshot : PreparedToolSnapshot} :
    prepareToolCatalogSnapshot host tools limits = .ok snapshot ↔
      validateToolCatalogLimits limits = .ok () ∧
        ∃ bounds, tools.mapM (describe host limits) = .ok bounds ∧ Acceptable limits bounds ∧
          snapshot = snapshotOf limits bounds := by
  have hstart : catalogOf [] = ⟨[], [], [], 2⟩ := by
    rw [catalogOf, catalogSize_eq]
    rfl
  have htwo : ∀ bounds, 2 ≤ catalogSize bounds := by
    intro bounds
    rw [catalogSize_eq]
    omega
  rw [prepareToolCatalogSnapshot, check_eq_ok]
  refine and_congr_right fun _ => ?_
  rw [bind_eq_ok]
  constructor
  · rintro ⟨candidates, hcandidates, h⟩
    obtain ⟨hcount, rfl⟩ := captureToolArrayElements_eq_ok.mp hcandidates
    obtain ⟨hmin, h⟩ := check_eq_ok.mp h
    obtain ⟨catalog, hrun, h⟩ := bind_eq_ok.mp h
    rw [demand_eq_ok, decide_eq_true_eq] at hmin
    rw [← hstart] at hrun
    obtain ⟨more, hmore, hunique, hsize, rfl⟩ := (runM_prepareCandidate_eq_ok _ [] (by simp)
      (by rw [catalogSize_eq]; exact hmin)).mp hrun
    rw [List.nil_append] at hunique hsize h
    rw [Except.ok.injEq] at h
    exact ⟨more, hmore, ⟨by rw [length_of_mapM hmore]; exact hcount, hunique, hsize⟩, h.symm⟩
  · rintro ⟨bounds, hbounds, acceptable, rfl⟩
    have hmin : (2 : ℤ) ≤ limits.maxCatalogBytes := by
      have := htwo bounds
      have := acceptable.size
      omega
    have hcount := acceptable.count
    rw [length_of_mapM hbounds] at hcount
    refine ⟨tools, captureToolArrayElements_eq_ok.mpr ⟨hcount, rfl⟩, check_eq_ok.mpr
      ⟨by rw [demand_eq_ok, decide_eq_true_eq]; exact hmin, bind_eq_ok.mpr
        ⟨catalogOf bounds, ?_, rfl⟩⟩⟩
    rw [← hstart]
    exact (runM_prepareCandidate_eq_ok _ [] (by simp) (by rw [catalogSize_eq]; exact hmin)).mpr
      ⟨bounds, hbounds, acceptable.unique, acceptable.size, rfl⟩

/-- The check of the names of an extension. -/
theorem runM_addName_isOk :
    ∀ (descriptors : List GameToolDescriptor) (names : List Units),
      (∃ all, runM addName names descriptors = .ok all) ↔
        (descriptors.map (·.name)).Nodup ∧ ∀ descriptor ∈ descriptors, descriptor.name ∉ names := by
  intro descriptors
  induction descriptors with
  | nil => simp
  | cons descriptor descriptors ih =>
    intro names
    simp only [runM_cons_eq_ok]
    by_cases hmem : descriptor.name ∈ names
    · simp [addName, hmem, invalid]
    · simp only [addName, if_neg hmem, Except.ok.injEq, exists_eq_left', ih]
      rw [List.map_cons, List.nodup_cons]
      constructor
      · rintro ⟨hunique, hfresh⟩
        refine ⟨⟨fun hin => ?_, hunique⟩, fun other hother => ?_⟩
        · obtain ⟨other, hother, heq⟩ := List.mem_map.mp hin
          exact hfresh other hother (by rw [heq]; simp)
        · rcases List.mem_cons.mp hother with rfl | hother
          · exact hmem
          · exact fun hin => hfresh other hother (List.mem_append_left _ hin)
      · rintro ⟨⟨hnew, hunique⟩, hfresh⟩
        refine ⟨hunique, fun other hother hin => ?_⟩
        rcases List.mem_append.mp hin with hin | hin
        · exact hfresh other (List.mem_cons_of_mem _ hother) hin
        · rw [List.mem_singleton] at hin
          exact hnew (List.mem_map.mpr ⟨other, hother, hin⟩)

section Extension

variable {maxStringLength : ℕ} {snapshotLimits : GameToolSnapshotLimits}

/-- Limits that are accepted are accepted for the catalogue. -/
theorem validateToolCatalogLimits_of_snapshot
    (h : validateToolSnapshotLimits maxStringLength snapshotLimits = .ok ()) :
    validateToolCatalogLimits snapshotLimits.catalog = .ok () := by
  obtain ⟨hall, -⟩ := check_eq_ok.mp h
  rw [demand_eq_ok] at hall
  rw [validateToolCatalogLimits, demand_eq_ok]
  simp only [List.all_cons, Bool.and_eq_true] at hall
  simp only [List.all_cons, List.all_nil, Bool.and_true, Bool.and_eq_true,
    GameToolSnapshotLimits.catalog]
  exact ⟨hall.1, hall.2.1, hall.2.2.1⟩

theorem Acceptable.right {bounds more : List BoundTool}
    (h : Acceptable limits (bounds ++ more)) : Acceptable limits more := by
  refine ⟨?_, ?_, ?_⟩
  · have := h.count
    rw [List.length_append] at this
    omega
  · have := h.unique
    rw [List.map_append] at this
    exact this.of_append_right
  · have hsize := h.size
    have hle := catalogSize_right_le bounds more
    omega

/-- One extension. -/
theorem extendPreparedToolSnapshot_eq_ok
    (accepted : validateToolSnapshotLimits maxStringLength snapshotLimits = .ok ())
    {bounds : List BoundTool} (acceptable : Acceptable snapshotLimits.catalog bounds)
    {tools : List (Option AgentTool)} {snapshot : PreparedToolSnapshot} :
    extendPreparedToolSnapshot host maxStringLength (snapshotOf snapshotLimits.catalog bounds) tools
        snapshotLimits = .ok snapshot ↔
      ∃ more, tools.mapM (describe host snapshotLimits.catalog) = .ok more ∧
        Acceptable snapshotLimits.catalog (bounds ++ more) ∧
        snapshot = snapshotOf snapshotLimits.catalog (bounds ++ more) := by
  have hcatalog := validateToolCatalogLimits_of_snapshot accepted
  have hnames : ∀ more : List BoundTool, more.map BoundTool.name =
      (more.map BoundTool.descriptor).map (·.name) := by
    intro more
    rw [List.map_map]
    rfl
  rw [extendPreparedToolSnapshot, accepted, ok_bind]
  simp only [snapshotOf, ne_eq, not_true_eq_false, if_false]
  rw [bind_eq_ok]
  constructor
  · rintro ⟨candidates, hcandidates, h⟩
    obtain ⟨hcount, rfl⟩ := captureToolArrayElements_eq_ok.mp hcandidates
    split at h
    · rename_i hempty
      obtain rfl := List.length_eq_zero_iff.mp hempty
      rw [Except.ok.injEq] at h
      refine ⟨[], rfl, ?_, ?_⟩
      · rwa [List.append_nil]
      · rw [List.append_nil]
        exact h.symm
    · rename_i hne
      obtain ⟨additional, hadditional, h⟩ := bind_eq_ok.mp h
      obtain ⟨-, more, hmore, hacceptable, rfl⟩ := prepareToolCatalogSnapshot_eq_ok.mp hadditional
      obtain ⟨all, hall, h⟩ := bind_eq_ok.mp h
      have hfresh := ((runM_addName_isOk _ _).mp ⟨all, hall⟩).2
      simp only [snapshotOf] at h
      obtain ⟨hdemand, h⟩ := check_eq_ok.mp h
      have hsize := of_decide_eq_true (demand_eq_ok.mp hdemand)
      rw [Except.ok.injEq] at h
      have hlength := length_of_mapM hmore
      have hmore' : more ≠ [] := by
        rintro rfl
        exact hne hlength.symm
      refine ⟨more, hmore, ⟨?_, ?_, ?_⟩, ?_⟩
      · rw [List.length_append, hlength]
        have : snapshotLimits.catalog.maxTools = snapshotLimits.maxTools := rfl
        push_cast
        omega
      · refine (nodup_names_append acceptable.unique).mpr ⟨hacceptable.unique, ?_⟩
        intro bound hbound
        have := hfresh bound.descriptor (List.mem_map_of_mem hbound)
        rwa [← hnames] at this
      · rw [catalogSize_append bounds hmore']
        exact hsize
      · rw [catalogSize_append bounds hmore', List.map_append]
        exact h.symm
  · rintro ⟨more, hmore, hacceptable, rfl⟩
    have hlength := length_of_mapM hmore
    have hcount := hacceptable.count
    have hmax : snapshotLimits.catalog.maxTools = snapshotLimits.maxTools := rfl
    rw [List.length_append, hlength] at hcount
    push_cast at hcount
    refine ⟨tools, captureToolArrayElements_eq_ok.mpr ⟨by omega, rfl⟩, ?_⟩
    by_cases hempty : tools.length = 0
    · obtain rfl := List.length_eq_zero_iff.mp hempty
      rw [eq_nil_of_mapM hmore]
      simp
    · have hmore' : more ≠ [] := by
        rintro rfl
        exact hempty hlength.symm
      obtain ⟨hunique, hfresh⟩ := (nodup_names_append acceptable.unique).mp hacceptable.unique
      obtain ⟨all, hall⟩ := (runM_addName_isOk (more.map BoundTool.descriptor)
        ((bounds.map BoundTool.descriptor).map (·.name))).mpr ⟨by rwa [← hnames], by
          intro descriptor hdescriptor
          obtain ⟨bound, hbound, rfl⟩ := List.mem_map.mp hdescriptor
          have := hfresh bound hbound
          rwa [hnames] at this⟩
      rw [if_neg hempty]
      refine bind_eq_ok.mpr ⟨snapshotOf snapshotLimits.catalog more,
        prepareToolCatalogSnapshot_eq_ok.mpr ⟨hcatalog, more, hmore, hacceptable.right, rfl⟩,
        bind_eq_ok.mpr ⟨all, hall, ?_⟩⟩
      have hsize := hacceptable.size
      rw [catalogSize_append bounds hmore'] at hsize ⊢
      rw [List.map_append]
      exact check_eq_ok.mpr ⟨demand_eq_ok.mpr (decide_eq_true hsize), rfl⟩

/-- A list of extensions. -/
theorem runM_extend_eq_ok
    (accepted : validateToolSnapshotLimits maxStringLength snapshotLimits = .ok ()) :
    ∀ (lists : List (List (Option AgentTool))) (bounds : List BoundTool)
      {snapshot : PreparedToolSnapshot}, Acceptable snapshotLimits.catalog bounds →
      (runM (fun previous tools =>
          extendPreparedToolSnapshot host maxStringLength previous tools snapshotLimits)
          (snapshotOf snapshotLimits.catalog bounds) lists = .ok snapshot ↔
        ∃ more, lists.flatten.mapM (describe host snapshotLimits.catalog) = .ok more ∧
          Acceptable snapshotLimits.catalog (bounds ++ more) ∧
          snapshot = snapshotOf snapshotLimits.catalog (bounds ++ more)) := by
  intro lists
  induction lists with
  | nil =>
    intro bounds snapshot acceptable
    rw [runM_nil, Except.ok.injEq]
    constructor
    · rintro rfl
      exact ⟨[], rfl, by rwa [List.append_nil], by rw [List.append_nil]⟩
    · rintro ⟨more, hmore, -, rfl⟩
      rw [eq_nil_of_mapM hmore, List.append_nil]
  | cons tools lists ih =>
    intro bounds snapshot acceptable
    rw [runM_cons_eq_ok, List.flatten_cons]
    simp only [extendPreparedToolSnapshot_eq_ok accepted acceptable, List.mapM_append, bind_eq_ok,
      return_eq_ok]
    constructor
    · rintro ⟨_, ⟨more, hmore, hacceptable, rfl⟩, hrest⟩
      obtain ⟨rest, hall, hfinal, rfl⟩ := (ih (bounds ++ more) hacceptable).mp hrest
      rw [List.append_assoc] at hfinal ⊢
      exact ⟨more ++ rest, ⟨more, hmore, rest, hall, rfl⟩, hfinal, rfl⟩
    · rintro ⟨_, ⟨more, hmore, rest, hall, rfl⟩, hfinal, rfl⟩
      rw [← List.append_assoc] at hfinal ⊢
      exact ⟨_, ⟨more, hmore, hfinal.left, rfl⟩, (ih _ hfinal.left).mpr ⟨rest, hall, hfinal, rfl⟩⟩

/-- Preparing a base and extending it prepares the concatenation. -/
theorem extend_eq_prepare
    (accepted : validateToolSnapshotLimits maxStringLength snapshotLimits = .ok ())
    (base : List (Option AgentTool)) (lists : List (List (Option AgentTool)))
    (snapshot : PreparedToolSnapshot) :
    (do
      let prepared ← prepareToolSnapshot host maxStringLength base snapshotLimits
      runM (fun previous tools =>
        extendPreparedToolSnapshot host maxStringLength previous tools snapshotLimits)
        prepared lists) = .ok snapshot ↔
      prepareToolSnapshot host maxStringLength (base ++ lists.flatten) snapshotLimits =
        .ok snapshot := by
  have hcatalog := validateToolCatalogLimits_of_snapshot accepted
  simp only [prepareToolSnapshot, accepted, ok_bind, bind_eq_ok, prepareToolCatalogSnapshot_eq_ok,
    List.mapM_append, return_eq_ok]
  constructor
  · rintro ⟨_, ⟨-, bounds, hbounds, acceptable, rfl⟩, hrest⟩
    obtain ⟨more, hmore, hfinal, rfl⟩ := (runM_extend_eq_ok accepted lists bounds acceptable).mp hrest
    exact ⟨hcatalog, bounds ++ more, ⟨bounds, hbounds, more, hmore, rfl⟩, hfinal, rfl⟩
  · rintro ⟨-, _, ⟨bounds, hbounds, more, hmore, rfl⟩, hfinal, rfl⟩
    exact ⟨_, ⟨hcatalog, bounds, hbounds, hfinal.left, rfl⟩,
      (runM_extend_eq_ok accepted lists bounds hfinal.left).mpr ⟨more, hmore, hfinal, rfl⟩⟩

end Extension

/-! ## What is visible -/

/-- The names a policy decision selects. -/
def GameToolPolicyDecision.selected (decision : GameToolPolicyDecision) : List Units :=
  (decision.visibleToolNames.getD []).filterMap id

/-- The items of a list at the indexes whose items pass a test. -/
theorem filterMap_getElem?_range {α β : Type} (f : α → β) (p : β → Bool) (l : List α) :
    ((List.range l.length).filter fun i => ((l.map f)[i]?).any p).filterMap (fun i => l[i]?) =
      l.filter fun a => p (f a) := by
  induction l using List.reverseRecOn with
  | nil => rfl
  | append_singleton l last ih =>
    have hold : ∀ i ∈ List.range l.length, ((l ++ [last]).map f)[i]? = (l.map f)[i]? := by
      intro i hi
      rw [List.map_append, List.getElem?_append_left (by simpa using List.mem_range.mp hi)]
    have hfilter : (List.range l.length).filter (fun i => (((l ++ [last]).map f)[i]?).any p) =
        (List.range l.length).filter (fun i => ((l.map f)[i]?).any p) := by
      refine List.filter_congr fun i hi => ?_
      rw [hold i hi]
    have hmap : ∀ indexes : List ℕ, (∀ i ∈ indexes, i < l.length) →
        indexes.filterMap (fun i => (l ++ [last])[i]?) = indexes.filterMap (fun i => l[i]?) := by
      intro indexes hindexes
      refine List.filterMap_congr fun i hi => ?_
      rw [List.getElem?_append_left (hindexes i hi)]
    rw [List.length_append, List.length_singleton, List.range_succ, List.filter_append, hfilter,
      List.filterMap_append, hmap _ (fun i hi => List.mem_range.mp (List.mem_of_mem_filter hi)), ih,
      List.filter_append]
    by_cases hlast : p (f last) = true <;> simp [hlast]

theorem runM_requestName {candidates : List Units} :
    ∀ (names : List (Option Units)) (requested : List Units) {final : List Units},
      runM (requestName candidates) requested names = .ok final →
        (∀ name, name ∈ final ↔ name ∈ requested ∨ name ∈ names.filterMap id) ∧
          ∀ name ∈ names.filterMap id, name ∈ candidates := by
  intro names
  induction names with
  | nil =>
    intro requested final h
    rw [runM_nil, Except.ok.injEq] at h
    simp [h]
  | cons name names ih =>
    intro requested final h
    obtain ⟨mid, hmid, hrest⟩ := runM_cons_eq_ok.mp h
    cases name with
    | none => cases hmid
    | some name =>
      rw [requestName] at hmid
      split at hmid
      · rename_i hcandidate
        rw [Except.ok.injEq] at hmid
        obtain ⟨hmem, hall⟩ := ih mid hrest
        have hnext : ∀ other, other ∈ mid ↔ other ∈ requested ∨ other = name := by
          intro other
          rw [← hmid]
          split
          · rename_i hin
            constructor
            · exact .inl
            · rintro (hother | rfl)
              · exact hother
              · exact hin
          · simp
        refine ⟨fun other => ?_, fun other hother => ?_⟩
        · rw [hmem, hnext, List.filterMap_cons_some (by rfl), List.mem_cons, or_assoc]
        · rw [List.filterMap_cons_some (by rfl), List.mem_cons] at hother
          rcases hother with rfl | hother
          · exact hcandidate
          · exact hall other hother
      · cases hmid

/-- What a snapshot prepared here is. -/
structure WellPrepared (host : ToolHost) (limits : GameToolCatalogLimits)
    (snapshot : PreparedToolSnapshot) : Prop where
  count : (snapshot.tools.length : ℤ) ≤ limits.maxTools
  bound : snapshot.tools.map BoundTool.descriptor = snapshot.descriptors
  unique : (snapshot.descriptors.map (·.name)).Nodup
  fingerprints : ∀ descriptor ∈ snapshot.descriptors,
    descriptor.fingerprint = host.sha256 (canonicalizeJsonValue descriptor.modelDescriptor)
  tracked : snapshot.metadata = some ⟨limits, utf8Length (canonicalizeJsonValue
    (.array (snapshot.descriptors.map (·.modelDescriptor))))⟩
  size : (utf8Length (canonicalizeJsonValue
    (.array (snapshot.descriptors.map (·.modelDescriptor)))) : ℤ) ≤ limits.maxCatalogBytes

theorem describe_fingerprint {tool : Option AgentTool} {bound : BoundTool}
    (h : describe host limits tool = .ok bound) :
    bound.descriptor.fingerprint =
      host.sha256 (canonicalizeJsonValue bound.descriptor.modelDescriptor) := by
  obtain ⟨captured, -, h⟩ := bind_eq_ok.mp h
  obtain ⟨parameters, -, h⟩ := bind_eq_ok.mp h
  obtain ⟨-, h⟩ := check_eq_ok.mp h
  cases h
  rfl

theorem wellPrepared_of_prepare {tools : List (Option AgentTool)} {snapshot : PreparedToolSnapshot}
    (h : prepareToolCatalogSnapshot host tools limits = .ok snapshot) :
    WellPrepared host limits snapshot := by
  obtain ⟨-, bounds, hbounds, acceptable, rfl⟩ := prepareToolCatalogSnapshot_eq_ok.mp h
  have hmodel : (bounds.map BoundTool.descriptor).map (·.modelDescriptor) =
      bounds.map fun bound => bound.descriptor.modelDescriptor := List.map_map
  refine ⟨acceptable.count, rfl, ?_, ?_, ?_, ?_⟩
  · have hnames : (bounds.map BoundTool.descriptor).map (·.name) = bounds.map BoundTool.name :=
      List.map_map
    show ((bounds.map BoundTool.descriptor).map (·.name)).Nodup
    rw [hnames]
    exact acceptable.unique
  · intro descriptor hdescriptor
    obtain ⟨bound, hbound, rfl⟩ := List.mem_map.mp hdescriptor
    obtain ⟨tool, -, htool⟩ := exists_left_of_forall₂ (mapM_eq_ok_iff.mp hbounds) hbound
    exact describe_fingerprint htool
  · show _ = some (PreparedCatalogMetadata.mk limits (utf8Length (canonicalizeJsonValue
      (.array ((bounds.map BoundTool.descriptor).map (·.modelDescriptor))))))
    rw [hmodel]
    rfl
  · show (utf8Length (canonicalizeJsonValue
      (.array ((bounds.map BoundTool.descriptor).map (·.modelDescriptor)))) : ℤ) ≤ _
    rw [hmodel]
    exact acceptable.size

/-- What a policy decision makes visible: the named Tools, in the order of the catalogue. -/
structure ShowsSelected (snapshot : PreparedToolSnapshot) (decision : GameToolPolicyDecision)
    (visible : VisibleToolSnapshot) : Prop where
  tools : visible.tools =
    snapshot.tools.filter fun tool => tool.descriptor.name ∈ decision.selected
  descriptors : visible.descriptors =
    snapshot.descriptors.filter fun descriptor => descriptor.name ∈ decision.selected
  names : visible.visibleToolNames =
    (snapshot.descriptors.map (·.name)).filter fun name => name ∈ decision.selected
  exactly : ∀ name, name ∈ visible.visibleToolNames ↔ name ∈ decision.selected

theorem selectVisibleToolSnapshot_shows {snapshot : PreparedToolSnapshot}
    (prepared : WellPrepared host limits snapshot) {decision : GameToolPolicyDecision}
    {maxPolicyRevisionBytes : ℤ} {visible : VisibleToolSnapshot}
    (h : selectVisibleToolSnapshot host snapshot decision maxPolicyRevisionBytes = .ok visible) :
    ShowsSelected snapshot decision visible := by
  unfold selectVisibleToolSnapshot at h
  split at h
  · cases h
  split at h
  · cases h
  split at h
  · cases h
  split at h
  · cases h
  split at h
  · cases h
  rename_i names hnames
  split at h
  · cases h
  split at h
  · cases h
  obtain ⟨requested, hrequested, h⟩ := bind_eq_ok.mp h
  obtain ⟨hmem, hcandidates⟩ := runM_requestName _ _ hrequested
  have hselected : decision.selected = names.filterMap id := by
    rw [GameToolPolicyDecision.selected, hnames]
    rfl
  have hiff : ∀ name, name ∈ requested ↔ name ∈ decision.selected := by
    intro name
    rw [hmem, hselected]
    simp
  have hdescriptors := filterMap_getElem?_range id
    (fun descriptor : GameToolDescriptor => decide (descriptor.name ∈ requested))
    snapshot.descriptors
  have htools := filterMap_getElem?_range BoundTool.descriptor
    (fun descriptor : GameToolDescriptor => decide (descriptor.name ∈ requested)) snapshot.tools
  have hlength : snapshot.tools.length = snapshot.descriptors.length := by
    rw [← prepared.bound, List.length_map]
  rw [List.map_id] at hdescriptors
  rw [prepared.bound, hlength] at htools
  rw [Except.ok.injEq] at h
  subst h
  have hshown : (visibleIndexes snapshot.descriptors requested).filterMap
      (fun index => snapshot.descriptors[index]?) =
      snapshot.descriptors.filter fun descriptor => descriptor.name ∈ decision.selected := by
    refine Eq.trans hdescriptors (List.filter_congr fun descriptor _ => ?_)
    simp only [id_eq, hiff]
  have hnamesEq : (snapshot.descriptors.filter fun descriptor =>
      decide (descriptor.name ∈ decision.selected)).map (·.name) =
      (snapshot.descriptors.map (·.name)).filter fun name => decide (name ∈ decision.selected) := by
    rw [List.filter_map]
    rfl
  refine ⟨?_, hshown, ?_, ?_⟩
  · refine Eq.trans htools (List.filter_congr fun tool _ => ?_)
    simp only [hiff]
  · show ((visibleIndexes snapshot.descriptors requested).filterMap
      (fun index => snapshot.descriptors[index]?)).map (·.name) = _
    rw [hshown, hnamesEq]
  · intro name
    show name ∈ ((visibleIndexes snapshot.descriptors requested).filterMap
      (fun index => snapshot.descriptors[index]?)).map (·.name) ↔ _
    rw [hshown, hnamesEq, List.mem_filter, decide_eq_true_eq, and_iff_right_iff_imp]
    rw [hselected]
    exact hcandidates name

/-! ## Extended and whole catalogues -/

/-- A base that is prepared and then extended by one list after the other. -/
def prepareAndExtend (host : ToolHost) (maxStringLength : ℕ) (limits : GameToolSnapshotLimits)
    (base : List (Option AgentTool)) (lists : List (List (Option AgentTool))) :
    Except ToolSnapshotError PreparedToolSnapshot := do
  let prepared ← prepareToolSnapshot host maxStringLength base limits
  runM (fun previous tools =>
    extendPreparedToolSnapshot host maxStringLength previous tools limits) prepared lists

/-- The names of an extension begin with those of what was extended. -/
theorem names_prefix {maxStringLength : ℕ} {snapshotLimits : GameToolSnapshotLimits}
    (accepted : validateToolSnapshotLimits maxStringLength snapshotLimits = .ok ())
    {base : List (Option AgentTool)} {lists more : List (List (Option AgentTool))}
    {snapshot later : PreparedToolSnapshot}
    (hfirst : prepareAndExtend host maxStringLength snapshotLimits base lists = .ok snapshot)
    (hlater : prepareAndExtend host maxStringLength snapshotLimits base (lists ++ more) =
      .ok later) :
    snapshot.descriptors <+: later.descriptors := by
  have h := (extend_eq_prepare accepted base lists snapshot).mp hfirst
  have h' := (extend_eq_prepare accepted base (lists ++ more) later).mp hlater
  rw [prepareToolSnapshot, accepted, ok_bind, prepareToolCatalogSnapshot_eq_ok] at h h'
  obtain ⟨-, bounds, hbounds, -, rfl⟩ := h
  obtain ⟨-, all, hall, -, rfl⟩ := h'
  rw [List.flatten_append, ← List.append_assoc, List.mapM_append] at hall
  obtain ⟨first, hsame, hall⟩ := bind_eq_ok.mp hall
  obtain ⟨rest, -, hall⟩ := bind_eq_ok.mp hall
  rw [hbounds, Except.ok.injEq] at hsame
  rw [return_eq_ok] at hall
  refine ⟨rest.map BoundTool.descriptor, ?_⟩
  show bounds.map BoundTool.descriptor ++ rest.map BoundTool.descriptor =
    all.map BoundTool.descriptor
  rw [hall, List.map_append, hsame]

/-- **Extending a catalogue is preparing it whole.**  It succeeds for the same lists, with the same
snapshot, which is within the limits and whose tracked size is that of the JSON array of its
descriptors; and a policy decision shows exactly the named Tools in the order of the catalogue, so
the Tools of an earlier catalogue keep their order in every extension of it. -/
theorem extension_prepares_whole (host : ToolHost) (maxStringLength : ℕ)
    (limits : GameToolSnapshotLimits)
    (accepted : validateToolSnapshotLimits maxStringLength limits = .ok ())
    (base : List (Option AgentTool)) (lists : List (List (Option AgentTool))) :
    (∀ snapshot, prepareAndExtend host maxStringLength limits base lists = .ok snapshot ↔
      prepareToolSnapshot host maxStringLength (base ++ lists.flatten) limits = .ok snapshot) ∧
    ∀ snapshot, prepareAndExtend host maxStringLength limits base lists = .ok snapshot →
      WellPrepared host limits.catalog snapshot ∧
      ∀ decision maxRevisionBytes visible,
        selectVisibleToolSnapshot host snapshot decision maxRevisionBytes = .ok visible →
        ShowsSelected snapshot decision visible ∧
        ∀ more later laterDecision laterRevisionBytes laterVisible,
          prepareAndExtend host maxStringLength limits base (lists ++ more) = .ok later →
          selectVisibleToolSnapshot host later laterDecision laterRevisionBytes =
            .ok laterVisible →
          (laterVisible.visibleToolNames.filter fun name =>
              name ∈ snapshot.descriptors.map (·.name)) =
            (snapshot.descriptors.map (·.name)).filter
              (fun name => name ∈ laterDecision.selected) ∧
          (laterVisible.visibleToolNames.filter fun name => name ∈ visible.visibleToolNames) =
            visible.visibleToolNames.filter fun name => name ∈ laterVisible.visibleToolNames := by
  have hwell : ∀ lists snapshot,
      prepareAndExtend host maxStringLength limits base lists = .ok snapshot →
      WellPrepared host limits.catalog snapshot := by
    intro lists snapshot h
    have hwhole := (extend_eq_prepare accepted base lists snapshot).mp h
    rw [prepareToolSnapshot, accepted, ok_bind] at hwhole
    exact wellPrepared_of_prepare hwhole
  refine ⟨extend_eq_prepare accepted base lists, fun snapshot h => ⟨hwell lists snapshot h, ?_⟩⟩
  intro decision maxRevisionBytes visible hvisible
  have hshows := selectVisibleToolSnapshot_shows (hwell lists snapshot h) hvisible
  refine ⟨hshows, ?_⟩
  intro more later laterDecision laterRevisionBytes laterVisible hlater hlaterVisible
  have hlaterShows := selectVisibleToolSnapshot_shows (hwell _ later hlater) hlaterVisible
  obtain ⟨rest, hrest⟩ := names_prefix accepted h hlater
  have hunique := (hwell _ later hlater).unique
  rw [← hrest, List.map_append, List.nodup_append] at hunique
  -- the Tools that are new have none of the earlier names
  have hold : (later.descriptors.map (·.name)).filter
      (fun name => decide (name ∈ snapshot.descriptors.map (·.name))) =
      snapshot.descriptors.map (·.name) := by
    rw [← hrest, List.map_append, List.filter_append]
    have hkeep : (snapshot.descriptors.map (·.name)).filter
        (fun name => decide (name ∈ snapshot.descriptors.map (·.name))) =
        snapshot.descriptors.map (·.name) :=
      List.filter_eq_self.mpr fun name hname => decide_eq_true hname
    have hdrop : (rest.map (·.name)).filter
        (fun name => decide (name ∈ snapshot.descriptors.map (·.name))) = [] := by
      refine List.filter_eq_nil_iff.mpr fun name hname hin => ?_
      exact hunique.2.2 name (of_decide_eq_true hin) name hname rfl
    rw [hkeep, hdrop, List.append_nil]
  have hswap : ∀ (l : List Units) (p q : Units → Bool),
      (l.filter p).filter q = (l.filter q).filter p := by
    intro l p q
    rw [List.filter_filter, List.filter_filter]
    refine List.filter_congr fun name _ => Bool.and_comm ..
  have hearlier : (laterVisible.visibleToolNames.filter fun name =>
      decide (name ∈ snapshot.descriptors.map (·.name))) =
      (snapshot.descriptors.map (·.name)).filter
        (fun name => decide (name ∈ laterDecision.selected)) := by
    rw [hlaterShows.names, hswap, hold]
  refine ⟨hearlier, ?_⟩
  have hvisibleIn : ∀ name ∈ visible.visibleToolNames,
      name ∈ snapshot.descriptors.map (·.name) := by
    intro name hname
    rw [hshows.names] at hname
    exact List.mem_of_mem_filter hname
  have hrestrict : (laterVisible.visibleToolNames.filter fun name =>
      decide (name ∈ visible.visibleToolNames)) =
      ((laterVisible.visibleToolNames.filter fun name =>
        decide (name ∈ snapshot.descriptors.map (·.name))).filter fun name =>
          decide (name ∈ visible.visibleToolNames)) := by
    rw [List.filter_filter]
    refine List.filter_congr fun name _ => ?_
    by_cases hname : name ∈ visible.visibleToolNames
    · rw [decide_eq_true hname, decide_eq_true (hvisibleIn name hname)]
      rfl
    · rw [decide_eq_false hname]
      rfl
  rw [hrestrict, hearlier, hswap]
  have hselect : (snapshot.descriptors.map (·.name)).filter
      (fun name => decide (name ∈ visible.visibleToolNames)) = visible.visibleToolNames := by
    conv_rhs => rw [hshows.names]
    refine List.filter_congr fun name _ => ?_
    simp only [hshows.exactly]
  rw [hselect]
  refine List.filter_congr fun name _ => ?_
  simp only [hlaterShows.exactly]

/-- A Tool that takes an empty object. -/
def namedTool (name : String) : Option AgentTool :=
  some
    { name := some (utf16 name), label := some [], description := some []
      parameters := .object [(utf16 "type", .string (utf16 "object"))]
      execute := some 0, executionMode := .undefined, prepareArguments := .undefined
      prepareDurableExecution := .undefined }

/-- A host that takes every schema and the text itself for its hash. -/
def plainHost : ToolHost := ⟨id, fun _ => none⟩

def twoToolLimits : GameToolSnapshotLimits :=
  { maxTools := 2, maxCatalogBytes := 400, maxSchemaDepth := 4, maxRequestSources := 1
    maxPolicyRevisionBytes := 8, maxArgumentsBytes := 8, maxArgumentsDepth := 4
    maxResultContentParts := 1, maxResultBytes := 200, maxResultDepth := 4, maxResultUpdates := 1 }

theorem twoToolLimits_accepted : validateToolSnapshotLimits 1000 twoToolLimits = .ok () := by
  decide +kernel

theorem extension_prepares_whole_two_tools :
    (prepareAndExtend plainHost 1000 twoToolLimits [namedTool "a"] [[namedTool "b"]]).map
      (fun snapshot => snapshot.descriptors.map (·.name)) = .ok [utf16 "a", utf16 "b"] ∧
    ∀ snapshot,
      prepareAndExtend plainHost 1000 twoToolLimits [namedTool "a"] [[namedTool "b"]] =
          .ok snapshot ↔
        prepareToolSnapshot plainHost 1000 [namedTool "a", namedTool "b"] twoToolLimits =
          .ok snapshot :=
  ⟨by decide +kernel, (extension_prepares_whole plainHost 1000 twoToolLimits
    twoToolLimits_accepted [namedTool "a"] [[namedTool "b"]]).1⟩

end OpenGameAgent.ToolSnapshots
