import OpenGameAgent.Extensions.SignalCalls
import OpenGameAgent.Protocol.Fingerprints

/-!
# Drafts that the checks leave alone

A draft a store is given has passed the checks, so they accept it again and change nothing,
also when its identifiers come back in another order.

* `normalizeIdentifierSet_perm` — the order in which identifiers come does not matter.
* `normalizeGameSignal_reread`, `normalizeSignalWait_reread` — what a store reads back is the
  draft it was given.
-/

namespace OpenGameAgent

/-! ## The order of identifiers -/

theorem textLe_total (a b : String) : textLe a b ∨ textLe b a := unitsLe_total _ _

theorem textLe_trans (a b c : String) (hab : textLe a b) (hbc : textLe b c) : textLe a c :=
  unitsLe_trans hab hbc

theorem textLe_antisymm (a b : String) (hab : textLe a b) (hba : textLe b a) : a = b :=
  utf16_injective (unitsLe_antisymm hab hba)

instance : Std.Total textLe := ⟨textLe_total⟩

instance : IsTrans String textLe := ⟨textLe_trans⟩

/-- A sorted list does not depend on the order of what was sorted. -/
theorem insertionSort_textLe_perm {values sorted : List String}
    (hsorted : sorted.insertionSort textLe = sorted) (hperm : values.Perm sorted) :
    values.insertionSort textLe = sorted := by
  have hvalues := List.pairwise_insertionSort textLe values
  have hlist := List.pairwise_insertionSort textLe sorted
  rw [hsorted] at hlist
  refine List.Perm.eq_of_pairwise ?_ hvalues hlist
    ((List.perm_insertionSort textLe values).trans hperm)
  exact fun a b _ _ hab hba => textLe_antisymm a b hab hba

theorem normalizeIdentifierSet_eq_ok {values sorted : List String} {maximum : Nat} {code : String} :
    normalizeIdentifierSet values maximum code = .ok sorted ↔
      values.length ≤ maximum ∧ values.all isOpaqueIdentifier = true ∧ values.Nodup ∧
        sorted = values.insertionSort textLe := by
  simp only [normalizeIdentifierSet, bind_eq_ok, exists_const, demand_eq_ok, return_eq_ok,
    decide_eq_true_eq]

theorem normalizeIdentifierSet_perm {values sorted : List String} {maximum : Nat} {code : String}
    (h : normalizeIdentifierSet sorted maximum code = .ok sorted) (hperm : values.Perm sorted) :
    normalizeIdentifierSet values maximum code = .ok sorted := by
  obtain ⟨hlength, hopaque, hnodup, hsorted⟩ := normalizeIdentifierSet_eq_ok.1 h
  refine normalizeIdentifierSet_eq_ok.2 ⟨?_, ?_, ?_, ?_⟩
  · rw [hperm.length_eq]
    exact hlength
  · rw [List.all_eq_true] at hopaque ⊢
    intro value hvalue
    exact hopaque value (hperm.mem_iff.1 hvalue)
  · exact hperm.nodup_iff.2 hnodup
  · exact (insertionSort_textLe_perm hsorted.symm hperm).symm

/-! ## Decimals -/

theorem validateSignalDecimal_eq_ok {value name : String} {d : Decimal} :
    validateSignalDecimal value name = .ok d ↔ d.text = value := by
  constructor
  · intro h
    unfold validateSignalDecimal at h
    split at h
    · obtain rfl := Except.ok.inj h
      rfl
    · cases h
  · rintro rfl
    exact validateSignalDecimal_text d name

/-! ## Signals -/

theorem normalizeSignalPartition_eq_ok {partition normalized : SignalPartition}
    (h : normalizeSignalPartition partition = .ok normalized) : normalized = partition := by
  simp only [normalizeSignalPartition, bind_eq_ok] at h
  obtain ⟨_, _, _, _, _, _, _, _, _, _, h⟩ := h
  exact return_eq_ok.1 h

theorem normalizeSignalGameTime_eq_ok {gameTime : GameTime String} {partition : SignalPartition}
    {normalized : GameTime Decimal}
    (h : normalizeSignalGameTime gameTime partition = .ok normalized) :
    isGameTime gameTime = true ∧ gameTime.timelineId = partition.timelineId ∧
      gameTime.generation = partition.generation ∧ normalized.timelineId = partition.timelineId ∧
        normalized.generation = partition.generation ∧ normalized.tick.text = gameTime.tick := by
  simp only [normalizeSignalGameTime, bind_eq_ok, exists_const, demand_eq_ok, return_eq_ok,
    Bool.and_eq_true, decide_eq_true_eq] at h
  obtain ⟨htime, ⟨htimeline, hgeneration⟩, tick, htick, rfl⟩ := h
  exact ⟨htime, htimeline, hgeneration, htimeline, hgeneration, validateSignalDecimal_eq_ok.1 htick⟩

section Reread

variable {limits : SignalLimits}

/-- What the checks make sure of for a signal they leave alone. -/
structure GameSignalDraft.Normal (limits : SignalLimits) (draft : GameSignalDraft Decimal) :
    Prop where
  signalId : isOpaqueIdentifier draft.signalId = true
  partition : normalizeSignalPartition draft.partition = .ok draft.partition
  kind : isOpaqueIdentifier draft.kind = true
  payload : jsonBytes draft.payload ≤ limits.maxPayloadBytes
  gameTime : normalizeSignalGameTime
    ⟨draft.partition.timelineId, draft.partition.generation, draft.gameTime.tick.text⟩
      draft.partition = .ok draft.gameTime
  subjectIds : normalizeIdentifierSet draft.subjectIds limits.maxSubjectsPerSignal
    "too_many_signal_subjects" = .ok draft.subjectIds
  causeIds : normalizeIdentifierSet draft.causeIds limits.maxCausesPerSignal
    "too_many_signal_causes" = .ok draft.causeIds
  recordedAt : isCanonicalTimestamp draft.recordedAt = true

theorem normal_of_normalizeGameSignal {draft : GameSignalDraft Decimal}
    (h : normalizeGameSignal draft.texts limits = .ok draft) : draft.Normal limits := by
  simp only [normalizeGameSignal, assertSignalIdentifier, bind_eq_ok, exists_const, return_eq_ok,
    demand_eq_ok, decide_eq_true_eq, validateSignalTimestamp_eq_ok] at h
  obtain ⟨hsignalId, partition, hpartition, hkind, hpayload, gameTime, hgameTime, subjectIds,
    hsubjects, causeIds, hcauses, htimestamp, hdraft⟩ := h
  have hsame := normalizeSignalPartition_eq_ok hpartition
  subst hsame
  obtain ⟨-, htimeline, hgeneration, -, -, -⟩ := normalizeSignalGameTime_eq_ok hgameTime
  have hfields := congrArg (fun d : GameSignalDraft Decimal => (d.gameTime, d.subjectIds, d.causeIds))
    hdraft
  obtain ⟨rfl, hids⟩ := Prod.mk.inj hfields
  obtain ⟨rfl, rfl⟩ := Prod.mk.inj hids
  refine ⟨hsignalId, hpartition, hkind, hpayload, ?_, hsubjects, hcauses, htimestamp⟩
  rw [← hgameTime]
  show normalizeSignalGameTime ⟨draft.partition.timelineId, draft.partition.generation, _⟩ _ = _
  have htexts : draft.texts.gameTime =
      ⟨draft.partition.timelineId, draft.partition.generation, draft.gameTime.tick.text⟩ := by
    rw [GameTime.mk.injEq]
    exact ⟨htimeline, hgeneration, rfl⟩
  rw [htexts]
  rfl

/-- A signal is read back as the draft it was recorded with. -/
theorem normalizeGameSignal_reread {draft : GameSignalDraft Decimal} (h : draft.Normal limits)
    {subjectIds causeIds : List String} (hsubjects : subjectIds.Perm draft.subjectIds)
    (hcauses : causeIds.Perm draft.causeIds) :
    normalizeGameSignal
      { signalId := draft.signalId
        partition := draft.partition
        kind := draft.kind
        payload := draft.payload
        gameTime :=
          ⟨draft.partition.timelineId, draft.partition.generation, draft.gameTime.tick.text⟩
        subjectIds := subjectIds
        causeIds := causeIds
        recordedAt := draft.recordedAt } limits = .ok draft := by
  simp only [normalizeGameSignal, assertSignalIdentifier, bind_eq_ok, exists_const, return_eq_ok,
    demand_eq_ok, decide_eq_true_eq, validateSignalTimestamp_eq_ok]
  refine ⟨h.signalId, _, h.partition, h.kind, h.payload, _, h.gameTime, _,
    normalizeIdentifierSet_perm h.subjectIds hsubjects, _,
    normalizeIdentifierSet_perm h.causeIds hcauses, h.recordedAt, rfl⟩

/-! ## Waits -/

/-- What the checks make sure of for a wait they leave alone. -/
structure SignalWaitDraft.Normal (limits : SignalLimits) (draft : SignalWaitDraft Decimal) :
    Prop where
  waitId : isOpaqueIdentifier draft.waitId = true
  partition : normalizeSignalPartition draft.partition = .ok draft.partition
  kinds : normalizeIdentifierSet draft.selector.kinds limits.maxWaitKinds
    "too_many_signal_wait_kinds" = .ok draft.selector.kinds
  someKind : draft.selector.kinds ≠ []
  subjects : ∀ subjects, draft.selector.subjectIdsAny = some subjects → subjects ≠ [] ∧
    normalizeIdentifierSet subjects limits.maxWaitSubjects "too_many_signal_wait_subjects" =
      .ok subjects
  cursor : draft.selector.afterSignalKey.all (0 ≤ ·) = true
  range : isWaitTickRange draft.selector.afterTickExclusive
    draft.selector.throughTickInclusive = true
  target : normalizeSignalWaitTarget draft.target = .ok draft.target
  recordedAt : isCanonicalTimestamp draft.recordedAt = true

theorem validateSignalDecimal?_texts (value : Option Decimal) (name : String) :
    validateSignalDecimal? (value.map Decimal.text) name = .ok value := by
  cases value with
  | none => rfl
  | some value =>
    show (validateSignalDecimal value.text name >>= fun d => pure (some d)) = _
    rw [validateSignalDecimal_text]
    rfl

theorem normal_of_normalizeSignalWait {draft : SignalWaitDraft Decimal}
    (h : normalizeSignalWait draft.texts limits = .ok draft) : draft.Normal limits := by
  simp only [normalizeSignalWait, normalizeSignalWaitSelector, assertSignalIdentifier,
    validateSignalCursor, bind_eq_ok, exists_const, return_eq_ok, demand_eq_ok, decide_eq_true_eq,
    validateSignalTimestamp_eq_ok] at h
  obtain ⟨hwaitId, partition, hpartition, selector, ⟨kinds, hkinds, hsome, subjects, hsubjects,
    hnonempty, hcursor, afterTick, hafter, throughTick, hthrough, hrange, hselector⟩, target,
    htarget, htimestamp, hdraft⟩ := h
  have hsame := normalizeSignalPartition_eq_ok hpartition
  subst hsame
  have hfields := congrArg (fun d : SignalWaitDraft Decimal => (d.selector, d.target)) hdraft
  obtain ⟨rfl, rfl⟩ := Prod.mk.inj hfields
  have hselected := congrArg (fun s : SignalWaitSelector Decimal =>
    (s.kinds, s.subjectIdsAny, s.afterTickExclusive, s.throughTickInclusive)) hselector
  simp only [Prod.mk.injEq] at hselected
  obtain ⟨rfl, rfl, rfl, rfl⟩ := hselected
  refine ⟨hwaitId, hpartition, hkinds, hsome, ?_, hcursor, hrange, htarget, htimestamp⟩
  intro subjects hsub
  have htexts : draft.texts.selector.subjectIdsAny = some subjects := hsub
  rw [htexts] at hsubjects
  simp only [normalizeWaitSubjects, bind_eq_ok, return_eq_ok] at hsubjects
  obtain ⟨sorted, hsorted, hanswer⟩ := hsubjects
  rw [hsub] at hanswer hnonempty
  obtain rfl := Option.some.inj hanswer
  exact ⟨fun hnil => hnonempty (congrArg some hnil), hsorted⟩

/-- A wait is read back as the draft it was registered with. -/
theorem normalizeSignalWait_reread {draft : SignalWaitDraft Decimal} (h : draft.Normal limits)
    {kinds : List String} (hkinds : kinds.Perm draft.selector.kinds)
    {subjects : List String} (hsubjects : subjects.Perm (draft.selector.subjectIdsAny.getD [])) :
    normalizeSignalWait
      { waitId := draft.waitId
        partition := draft.partition
        selector :=
          { kinds := kinds
            subjectIdsAny := if subjects = [] then none else some subjects
            afterSignalKey := draft.selector.afterSignalKey
            afterTickExclusive := draft.selector.afterTickExclusive.map Decimal.text
            throughTickInclusive := draft.selector.throughTickInclusive.map Decimal.text }
        target := draft.target
        recordedAt := draft.recordedAt } limits = .ok draft := by
  have hnormalized : normalizeWaitSubjects (if subjects = [] then none else some subjects)
      limits.maxWaitSubjects = .ok draft.selector.subjectIdsAny := by
    cases hany : draft.selector.subjectIdsAny with
    | none =>
      rw [hany] at hsubjects
      rw [List.perm_nil.1 hsubjects]
      rfl
    | some stored =>
      rw [hany] at hsubjects
      obtain ⟨hne, hstored⟩ := h.subjects stored hany
      have hsome : subjects ≠ [] := by
        rintro rfl
        exact hne (List.nil_perm.1 hsubjects)
      rw [if_neg hsome]
      simp only [normalizeWaitSubjects, bind_eq_ok, return_eq_ok]
      exact ⟨stored, normalizeIdentifierSet_perm hstored hsubjects, rfl⟩
  have hne : draft.selector.subjectIdsAny ≠ some [] := fun hnil => (h.subjects [] hnil).1 rfl
  simp only [normalizeSignalWait, normalizeSignalWaitSelector, assertSignalIdentifier,
    validateSignalCursor, bind_eq_ok, exists_const, return_eq_ok, demand_eq_ok, decide_eq_true_eq,
    validateSignalTimestamp_eq_ok]
  refine ⟨h.waitId, _, h.partition, draft.selector, ?_, _, h.target, h.recordedAt, rfl⟩
  exact ⟨_, normalizeIdentifierSet_perm h.kinds hkinds, h.someKind, _, hnormalized, hne, h.cursor,
    _, validateSignalDecimal?_texts _ _, _, validateSignalDecimal?_texts _ _, h.range, rfl⟩

end Reread

end OpenGameAgent
