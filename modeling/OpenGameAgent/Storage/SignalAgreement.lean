import OpenGameAgent.Storage.SignalWrites

/-!
# The two signal stores agree

Started empty, the two stores answer every sequence of valid calls alike as long as SQLite
takes the values of the calls.

* `record_mirrors`, `registerWait_mirrors` — the methods that add to a store.
* `call_mirrors` — every valid call that SQLite takes is mirrored.
* `signal_stores_agree` — so are the answers to a run of such calls.
* `large_cursor_divides_stores` — a cursor beyond SQLite's integers is not taken.
-/

namespace OpenGameAgent

variable {ctx : SqliteSignalContext} {texts : Set (List UInt16)} {store : InMemorySignalStore}

namespace InMemorySignalStore

/-! ## A new signal -/

/-- The store with a new signal, before it wakes up waits. -/
def storing (store : InMemorySignalStore) (draft : GameSignalDraft Decimal) :
    InMemorySignalStore :=
  { store with
    nextSignalKey := store.nextSignalKey + 1
    signals := store.signals.set draft.key (store.nextSignal draft)
    signalFingerprints := store.signalFingerprints.set draft.key (signalFingerprint draft) }

theorem withSignal_eq (store : InMemorySignalStore) (draft : GameSignalDraft Decimal) :
    store.withSignal draft =
      (store.storing draft).rewritten fun _ wait => wait.see (store.nextSignal draft) := rfl

section NewSignal

variable {draft : GameSignalDraft Decimal} (hnew : store.signals.get? draft.key = none)
include hnew

theorem values_storing : (store.storing draft).signals.values =
    store.signals.values ++ [store.nextSignal draft] :=
  OrderedMap.values_set_of_get?_eq_none hnew _

theorem Stored.storing (h : store.Stored ctx.limits texts) (hnormal : draft.Normal ctx.limits)
    (htexts : signalFingerprint draft ∈ texts) : (store.storing draft).Stored ctx.limits texts := by
  have hvalues := values_storing hnew
  have hmem : ∀ signal ∈ (store.storing draft).signals.values,
      signal ∈ store.signals.values ∨ signal = store.nextSignal draft := by
    intro signal hsignal
    rw [hvalues] at hsignal
    simpa using hsignal
  constructor
  case signalKeyed =>
    intro key signal hget
    have hset : (store.signals.set draft.key (store.nextSignal draft)).get? key = some signal := hget
    by_cases hkey : draft.key = key
    · rw [hkey, OrderedMap.get?_set_self] at hset
      rw [← Option.some.inj hset]
      exact hkey
    · rw [OrderedMap.get?_set_of_ne _ hkey] at hset
      exact h.signalKeyed key signal hset
  case signalOrder =>
    rw [hvalues, List.pairwise_append]
    refine ⟨h.signalOrder, List.pairwise_singleton _ _, fun a ha b hb => ?_⟩
    rw [List.mem_singleton.1 hb]
    exact (h.signalBound a ha).2
  case signalBound =>
    intro signal hsignal
    rcases hmem signal hsignal with hold | rfl
    · exact ⟨(h.signalBound signal hold).1, Nat.lt_succ_of_lt (h.signalBound signal hold).2⟩
    · exact ⟨h.started.1, Nat.lt_succ_self _⟩
  case started => exact ⟨Nat.succ_pos _, h.started.2⟩
  case signalNormal =>
    intro signal hsignal
    rcases hmem signal hsignal with hold | rfl
    · exact h.signalNormal signal hold
    · exact hnormal
  case signalPrints =>
    intro key
    show (store.signalFingerprints.set draft.key (signalFingerprint draft)).get? key =
      ((store.signals.set draft.key (store.nextSignal draft)).get? key).map _
    by_cases hkey : draft.key = key
    · rw [hkey, OrderedMap.get?_set_self, OrderedMap.get?_set_self]
      rfl
    · rw [OrderedMap.get?_set_of_ne _ hkey, OrderedMap.get?_set_of_ne _ hkey]
      exact h.signalPrints key
  case signalTexts =>
    intro signal hsignal
    rcases hmem signal hsignal with hold | rfl
    · exact h.signalTexts signal hold
    · exact htexts
  case waitKeyed => exact h.waitKeyed
  case waitOrder => exact h.waitOrder
  case waitBound => exact h.waitBound
  case waitNormal => exact h.waitNormal
  case created => exact h.created
  case updated => exact h.updated
  case revised => exact h.revised
  case matchedKey => exact h.matchedKey
  case waitPrints => exact h.waitPrints
  case waitTexts => exact h.waitTexts
  case named =>
    intro wait hwait signalKey hkey
    obtain ⟨signal, hsignal, hsame, hmatches⟩ := h.named wait hwait signalKey hkey
    refine ⟨signal, ?_, hsame, hmatches⟩
    rw [hvalues]
    exact List.mem_append_left _ hsignal

/-- Inserting a signal gives the tables of the store with the signal. -/
theorem insertSignal_tables (h : store.Stored ctx.limits texts) (hnormal : draft.Normal ctx.limits)
    (hnesting : jsonNesting draft.payload ≤ maxSqliteJsonNesting)
    (hroom : (store.tables ctx).lastSignalKey < maxSqliteInteger) :
    (store.tables ctx).insertSignal draft (ctx.sha256 (signalFingerprint draft)) =
      .ok ((store.storing draft).tables ctx) := by
  have hlast : (store.tables ctx).lastSignalKey + 1 = store.nextSignalKey :=
    Nat.sub_add_cancel h.started.1
  have hfresh : ∀ ids : GameSignalRecord → List String, ∀ row ∈
      identifierTable GameSignalRecord.signalKey ids store.signals.values,
      row.key ≠ store.nextSignalKey := by
    intro ids row hrow heq
    obtain ⟨signal, hsignal, hkey, -⟩ := mem_identifierTable.1 hrow
    exact Nat.ne_of_lt (h.signalBound signal hsignal).2 (hkey.trans heq)
  have hsubjects := insertIdentifiers_eq (normalizeIdentifierSet_eq_ok.1 hnormal.subjectIds).2.2.1
    (hfresh fun signal => signal.subjectIds)
  have hcauses := insertIdentifiers_eq (normalizeIdentifierSet_eq_ok.1 hnormal.causeIds).2.2.1
    (hfresh fun signal => signal.causeIds)
  have hfind := h.findSignalRow_tables draft.key
  rw [hnew, Option.map_none] at hfind
  have habsent : ((store.tables ctx).findSignalRow draft.key).isNone = true := by
    rw [hfind]
    rfl
  unfold SqliteSignalDatabase.insertSignal
  rw [demand_true_bind (decide_eq_true hnesting), demand_true_bind habsent,
    demand_true_bind (decide_eq_true hroom), hlast]
  show (insertIdentifiers _ _ (identifierTable _ (fun signal : GameSignalRecord => signal.subjectIds) _)
    >>= _) = _
  rw [hsubjects, ok_bind]
  show (insertIdentifiers _ _ (identifierTable _ (fun signal : GameSignalRecord => signal.causeIds) _)
    >>= _) = _
  rw [hcauses, ok_bind]
  refine congrArg Except.ok ?_
  unfold tables
  rw [values_storing hnew, identifierTable_concat, identifierTable_concat, List.map_append]
  rfl

end NewSignal

/-! ### The waits a signal wakes up -/

namespace Stored

theorem hydrateMatchedWaitIds_eq (h : store.Stored ctx.limits texts) {signal : GameSignalRecord}
    (hsignal : signal ∈ store.signals.values) (maximum : Nat) :
    SqliteSignalDatabase.hydrateMatchedWaitIds ctx (store.tables ctx) signal maximum =
      if (store.matchedWaitIds signal.signalKey).length ≤ maximum then
        .ok (store.matchedWaitIds signal.signalKey) else .error .waitFanout := by
  have hrows : (store.tables ctx).matchedWaitRows signal.signalKey = (store.waits.values.filter
      fun wait => decide (wait.matchedSignalKey = some signal.signalKey)).map
        (SignalWaitRecord.row ctx) := h.selectWaits fun wait _ => holds_some_sqlEq _ _
  have hids : store.matchedWaitIds signal.signalKey = (store.waits.values.filter
      fun wait => decide (wait.matchedSignalKey = some signal.signalKey)).map
        fun wait => wait.waitId := by
    unfold matchedWaitIds
    rw [h.sortWaits_filter fun wait => decide (wait.matchedSignalKey = some signal.signalKey)]
    unfold OrderedMap.values
    rw [List.filter_map, List.map_map]
    rfl
  generalize hselected : (store.waits.values.filter
    fun wait => decide (wait.matchedSignalKey = some signal.signalKey)) = selected at hrows hids
  unfold SqliteSignalDatabase.hydrateMatchedWaitIds
  rw [hids, hrows, List.length_map]
  by_cases hroom : selected.length ≤ maximum
  · have hall : ((selected.map (SignalWaitRecord.row ctx)).take (maximum + 1)) =
        selected.map (SignalWaitRecord.row ctx) := by
      rw [List.take_of_length_le]
      rw [List.length_map]
      exact Nat.le_succ_of_le hroom
    have hlength : decide ((selected.map (SignalWaitRecord.row ctx)).length ≤ maximum) = true := by
      rw [List.length_map]
      exact decide_eq_true hroom
    simp only [hall]
    rw [demand_true_bind hlength, if_pos hroom, mapM_eq_ok_iff, List.forall₂_map_left_iff,
      List.forall₂_map_right_iff, List.forall₂_same]
    intro wait hwait
    rw [← hselected] at hwait
    obtain ⟨hstored, hmatched⟩ := List.mem_filter.1 hwait
    have hkey := of_decide_eq_true hmatched
    obtain ⟨other, hother, hsame, hmatches⟩ := h.named wait hstored _ hkey
    obtain rfl := eq_of_same_order h.signalOrder hother hsignal hsame
    rw [h.hydrateWait_tables hstored, ok_bind, demand_true_bind]
    · rfl
    · rw [Bool.and_eq_true]
      exact ⟨hmatched, hmatches⟩
  · have hlength : decide (((selected.map (SignalWaitRecord.row ctx)).take (maximum + 1)).length ≤
        maximum) = false := by
      rw [List.length_take, List.length_map, decide_eq_false_iff_not]
      omega
    simp only
    rw [demand_false_bind hlength, if_neg hroom]

/-- A wait that a signal wakes up is rewritten. -/
theorem rewrites_woken (h : store.Stored ctx.limits texts) {wait : SignalWaitRecord}
    (hwait : wait ∈ store.waits.values) {signal : GameSignalRecord}
    (hsignal : signal ∈ store.signals.values)
    (hmatches : signalWaitMatches wait.toSignalWaitDraft signal = true) :
    Rewrites ctx.limits store wait (wait.wokenBy signal) := by
  obtain ⟨hcanonical, hchronology⟩ := h.updated wait hwait
  constructor
  case draft => rfl
  case waitKey => rfl
  case created => rfl
  case updated =>
    refine ⟨laterTimestamp_canonical hcanonical (h.signalNormal signal hsignal).recordedAt, ?_⟩
    by_cases hlater : wait.updatedAt < signal.recordedAt
    · simp only [SignalWaitRecord.wokenBy, if_pos hlater]
      exact fun hlt => hchronology (lt_trans hlater hlt)
    · simp only [SignalWaitRecord.wokenBy, if_neg hlater]
      exact hchronology
  case revised =>
    show 1 ≤ (Decimal.ofNat (wait.revision.value + 1)).value
    rw [Decimal.value_ofNat]
    exact Nat.succ_pos _
  case matchedKey => simp [SignalWaitRecord.wokenBy]
  case named =>
    intro signalKey hkey
    obtain rfl := Option.some.inj hkey
    exact ⟨signal, hsignal, rfl, hmatches⟩

theorem matchedRow_row (signal : GameSignalRecord) (wait : SignalWaitRecord) :
    SqliteSignalDatabase.matchedRow signal.signalKey wait.revision.next.text
        (if wait.updatedAt < signal.recordedAt then signal.recordedAt else wait.updatedAt)
          (wait.row ctx) = (wait.wokenBy signal).row ctx := rfl

theorem allowsWait_woken (h : store.Stored ctx.limits texts) (wait : SignalWaitRecord)
    {signal : GameSignalRecord} (hsignal : signal ∈ store.signals.values) :
    (store.tables ctx).allowsWait ((wait.wokenBy signal).row ctx) = true := by
  have hfound := h.findSignalRowByKey_tables hsignal
  unfold SqliteSignalDatabase.allowsWait
  show (_ && Option.all _ (some signal.signalKey)) = true
  rw [Option.all_some, hfound]
  rfl

/-- `record` of a signal that is stored. -/
theorem record_stored (h : store.Stored ctx.limits texts) (hinjective : Set.InjOn ctx.sha256 texts)
    {draft : GameSignalDraft Decimal} (htext : signalFingerprint draft ∈ texts)
    {existing : GameSignalRecord} (hget : store.signals.get? draft.key = some existing)
    (maxMatches : Nat) :
    Mirrors ctx texts (recordSignal draft maxMatches) store
      (SqliteSignalDatabase.write (SqliteSignalDatabase.recordBody ctx draft maxMatches)) := by
  have hexisting : existing ∈ store.signals.values := OrderedMap.mem_values.2 ⟨_, hget⟩
  have hmemory : recordSignal draft maxMatches store =
      (if store.signalFingerprints.get? draft.key ≠ some (signalFingerprint draft) then
        throw .conflict
      else if maxMatches < (store.matchedWaitIds existing.signalKey).length then throw .waitFanout
      else pure ⟨existing, store.matchedWaitIds existing.signalKey⟩ :
        SignalProgram SignalRecordResult) store := by
    rw [recordSignal, get_bind, hget]
  have hprint := h.signalPrints draft.key
  have hfind := h.findSignalRow_tables draft.key
  rw [hget, Option.map_some] at hprint hfind
  rw [hprint] at hmemory
  have hsame : (existing.row ctx).sourceFingerprint = ctx.sha256 (signalFingerprint draft) ↔
      signalFingerprint existing.toGameSignalDraft = signalFingerprint draft :=
    hinjective.eq_iff (h.signalTexts existing hexisting) htext
  by_cases hfingerprint : signalFingerprint existing.toGameSignalDraft = signalFingerprint draft
  case neg =>
    refine mirrors_error .conflict (hmemory.trans ?_) (SqliteSignalDatabase.write_error ?_)
    · simp only [ne_eq, Option.some.injEq, hfingerprint, not_false_eq_true, if_true]
      rfl
    · unfold SqliteSignalDatabase.recordBody
      simp only [hfind]
      rw [demand_false_bind (decide_eq_false (mt hsame.1 hfingerprint))]
  have hhydrate := h.hydrateSignal_tables hexisting rfl rfl
  have hids := h.hydrateMatchedWaitIds_eq hexisting maxMatches
  by_cases hroom : (store.matchedWaitIds existing.signalKey).length ≤ maxMatches
  · rw [if_pos hroom] at hids
    refine mirrors_ok ⟨existing, store.matchedWaitIds existing.signalKey⟩ store
      (hmemory.trans ?_) h (SqliteSignalDatabase.write_ok ?_)
    · simp only [ne_eq, hfingerprint, not_true_eq_false, if_false, not_lt.2 hroom]
      rfl
    · unfold SqliteSignalDatabase.recordBody
      simp only [hfind]
      rw [demand_true_bind (decide_eq_true (hsame.2 hfingerprint)), hhydrate]
      simp only [SqliteSignalDatabase.checked_ok, ok_bind, hids]
      rw [demand_true_bind (decide_eq_true hroom)]
      rfl
  · rw [if_neg hroom] at hids
    refine mirrors_error .waitFanout (hmemory.trans ?_) (SqliteSignalDatabase.write_error ?_)
    · simp only [ne_eq, hfingerprint, not_true_eq_false, if_false, not_le.1 hroom, if_true]
      rfl
    · unfold SqliteSignalDatabase.recordBody
      simp only [hfind]
      rw [demand_true_bind (decide_eq_true (hsame.2 hfingerprint)), hhydrate]
      simp only [SqliteSignalDatabase.checked_ok, ok_bind, hids]
      rfl

/-- `record` of a signal that is new. -/
theorem record_new (h : store.Stored ctx.limits texts) {draft : GameSignalDraft Decimal}
    (hnormal : draft.Normal ctx.limits) (htext : signalFingerprint draft ∈ texts)
    (hnew : store.signals.get? draft.key = none) (maxMatches : Nat)
    (hnesting : jsonNesting draft.payload ≤ maxSqliteJsonNesting)
    (hroom : (store.tables ctx).lastSignalKey < maxSqliteInteger) :
    Mirrors ctx texts (recordSignal draft maxMatches) store
      (SqliteSignalDatabase.write (SqliteSignalDatabase.recordBody ctx draft maxMatches)) := by
  have hmemory := @recordSignal_new maxMatches store (fun wait hwait => (h.updated wait hwait).1)
    draft hnormal.recordedAt hnew
  have hstoring := h.storing hnew hnormal htext
  have hinsert := insertSignal_tables hnew h hnormal hnesting hroom
  generalize hsignal : store.nextSignal draft = signal at hmemory
  have hmem : signal ∈ (store.storing draft).signals.values := by
    rw [values_storing hnew, hsignal]
    exact List.mem_append_right _ (List.mem_singleton_self _)
  have hlast : ((store.storing draft).tables ctx).lastSignalKey = signal.signalKey := by
    rw [← hsignal]
    rfl
  -- The rows that match are the waits that the signal wakes up.
  generalize hp : (fun wait : SignalWaitRecord => decide (wait.status = .waiting) &&
    signalWaitMatches wait.toSignalWaitDraft signal) = p
  have hwakes : store.wakes signal = store.waits.entries.filter fun e => p e.2 := by
    rw [← h.sortWaits_filter p, ← hp]
    rfl
  have hmatching : ((store.storing draft).tables ctx).findMatchingWaitRows (signal.row ctx)
      (maxMatches + 1) =
        (((store.wakes signal).map Prod.snd).map (SignalWaitRecord.row ctx)).take
          (maxMatches + 1) := by
    unfold SqliteSignalDatabase.findMatchingWaitRows
    rw [hstoring.selectWaits fun wait hwait => hstoring.holds_matchingWait hwait hmem, hp, hwakes,
      map_snd_filter]
    rfl
  have hfound := h.findSignalRow_tables draft.key
  rw [hnew, Option.map_none] at hfound
  have hentries : ∀ e ∈ store.wakes signal, e ∈ (store.storing draft).waits.entries ∧
      e.2.status = .waiting := fun e he => ⟨(mem_wakes.1 he).1, (mem_wakes.1 he).2.1⟩
  obtain ⟨hstored, hrows⟩ := hstoring.rewriteRows_tables (f := fun wait => wait.wokenBy signal)
    (hstoring.signalNormal signal hmem).recordedAt (matchedRow_row signal) hentries nodup_sortWaits
    (fun e _ => hstoring.allowsWait_woken e.2 hmem)
    (fun e he => hstoring.rewrites_woken (mem_values_of_entry (hentries e he).1) hmem
      (mem_wakes.1 he).2.2)
    (fun _ => rfl)
  have hthen : store.withSignal draft = (store.storing draft).rewritten fun key wait =>
      if key ∈ (store.wakes signal).map Prod.fst then wait.wokenBy signal else wait := by
    rw [withSignal_eq, hsignal]
    unfold InMemorySignalStore.rewritten
    congr 1
    refine OrderedMap.mapEntries_congr fun e he => ?_
    have hstill : e ∈ store.waits.entries := he
    have hwaking : e.1 ∈ (store.wakes signal).map Prod.fst ↔
        e.2.status = .waiting ∧ signalWaitMatches e.2.toSignalWaitDraft signal = true := by
      rw [OrderedMap.mem_map_fst_iff (fun e he => (mem_wakes.1 he).1) hstill, mem_wakes]
      exact and_iff_right hstill
    simp only [hwaking, SignalWaitRecord.see, Bool.and_eq_true, decide_eq_true_eq]
  have hread := @hydrateSignal_tables _ _ _ hstored signal hmem _ rfl rfl
  rw [← hthen] at hrows hstored hread
  have hrow := hstoring.findSignalRowByKey_tables hmem
  by_cases hfanout : (store.wakes signal).length ≤ maxMatches
  · rw [if_neg (not_lt.2 hfanout)] at hmemory
    refine mirrors_ok _ _ hmemory hstored (SqliteSignalDatabase.write_ok ?_)
    unfold SqliteSignalDatabase.recordBody
    have hall : (((store.wakes signal).map Prod.snd).map (SignalWaitRecord.row ctx)).take
        (maxMatches + 1) = ((store.wakes signal).map Prod.snd).map (SignalWaitRecord.row ctx) := by
      rw [List.take_of_length_le]
      rw [List.length_map, List.length_map]
      exact Nat.le_succ_of_le hfanout
    have hlength : decide ((((store.wakes signal).map Prod.snd).map
        (SignalWaitRecord.row ctx)).length ≤ maxMatches) = true := by
      rw [List.length_map, List.length_map]
      exact decide_eq_true hfanout
    simp only [hfound, hinsert, ok_bind, hlast, hrow, hmatching, hall]
    rw [demand_true_bind hlength]
    have hrecorded : draft.recordedAt = signal.recordedAt := by
      rw [← hsignal]
      rfl
    have hkey : (signal.row ctx).signalKey = signal.signalKey := rfl
    rw [hrecorded, hkey, hrows, ok_bind, hread, List.map_map, List.map_map]
    rfl
  · rw [if_pos (not_le.1 hfanout)] at hmemory
    refine mirrors_error .waitFanout hmemory (SqliteSignalDatabase.write_error ?_)
    unfold SqliteSignalDatabase.recordBody
    have hlength : decide (((((store.wakes signal).map Prod.snd).map
        (SignalWaitRecord.row ctx)).take (maxMatches + 1)).length ≤ maxMatches) = false := by
      rw [List.length_take, List.length_map, List.length_map, decide_eq_false_iff_not]
      omega
    simp only [hfound, hinsert, ok_bind, hlast, hrow, hmatching]
    rw [demand_false_bind hlength]

end Stored

/-! ## A new wait -/

/-- The store with a new wait, before it is matched. -/
def registering (store : InMemorySignalStore) (draft : SignalWaitDraft Decimal) :
    InMemorySignalStore :=
  { store with
    nextWaitKey := store.nextWaitKey + 1
    waits := store.waits.set draft.key (store.nextWait draft none)
    waitFingerprints := store.waitFingerprints.set draft.key (signalWaitFingerprint draft) }

theorem withWait_eq_of_none {draft : SignalWaitDraft Decimal}
    (h : store.matchedSignal draft = none) : store.withWait draft = store.registering draft := by
  unfold withWait
  rw [h]
  rfl

theorem withWait_eq_of_some {draft : SignalWaitDraft Decimal} {signal : GameSignalRecord}
    (h : store.matchedSignal draft = some signal) :
    store.withWait draft = (store.registering draft).rewritten fun key wait =>
      if key = draft.key then store.nextWait draft (some signal) else wait := by
  have hset := OrderedMap.set_eq_mapEntries
    (OrderedMap.get?_set_self store.waits draft.key (store.nextWait draft none))
    (store.nextWait draft (some signal))
  rw [OrderedMap.set_set] at hset
  unfold withWait InMemorySignalStore.rewritten
  rw [h, hset]
  rfl

section NewWait

variable {draft : SignalWaitDraft Decimal} (hnew : store.waits.get? draft.key = none)
include hnew

theorem values_registering : (store.registering draft).waits.values =
    store.waits.values ++ [store.nextWait draft none] :=
  OrderedMap.values_set_of_get?_eq_none hnew _

theorem Stored.registering (h : store.Stored ctx.limits texts) (hnormal : draft.Normal ctx.limits)
    (htexts : signalWaitFingerprint draft ∈ texts) :
    (store.registering draft).Stored ctx.limits texts := by
  have hvalues := values_registering hnew
  have hmem : ∀ wait ∈ (store.registering draft).waits.values,
      wait ∈ store.waits.values ∨ wait = store.nextWait draft none := by
    intro wait hwait
    rw [hvalues] at hwait
    simpa using hwait
  constructor
  case signalKeyed => exact h.signalKeyed
  case signalOrder => exact h.signalOrder
  case signalBound => exact h.signalBound
  case signalNormal => exact h.signalNormal
  case signalPrints => exact h.signalPrints
  case signalTexts => exact h.signalTexts
  case started => exact ⟨h.started.1, Nat.succ_pos _⟩
  case waitKeyed =>
    intro key wait hget
    have hset : (store.waits.set draft.key (store.nextWait draft none)).get? key = some wait := hget
    by_cases hkey : draft.key = key
    · rw [hkey, OrderedMap.get?_set_self] at hset
      rw [← Option.some.inj hset]
      exact hkey
    · rw [OrderedMap.get?_set_of_ne _ hkey] at hset
      exact h.waitKeyed key wait hset
  case waitOrder =>
    rw [hvalues, List.pairwise_append]
    refine ⟨h.waitOrder, List.pairwise_singleton _ _, fun a ha b hb => ?_⟩
    rw [List.mem_singleton.1 hb]
    exact (h.waitBound a ha).2
  case waitBound =>
    intro wait hwait
    rcases hmem wait hwait with hold | rfl
    · exact ⟨(h.waitBound wait hold).1, Nat.lt_succ_of_lt (h.waitBound wait hold).2⟩
    · exact ⟨h.started.2, Nat.lt_succ_self _⟩
  case waitNormal =>
    intro wait hwait
    rcases hmem wait hwait with hold | rfl
    · exact h.waitNormal wait hold
    · exact hnormal
  case created =>
    intro wait hwait
    rcases hmem wait hwait with hold | rfl
    · exact h.created wait hold
    · rfl
  case updated =>
    intro wait hwait
    rcases hmem wait hwait with hold | rfl
    · exact h.updated wait hold
    · exact ⟨hnormal.recordedAt, lt_irrefl _⟩
  case revised =>
    intro wait hwait
    rcases hmem wait hwait with hold | rfl
    · exact h.revised wait hold
    · exact (Decimal.value_ofNat 1).ge
  case matchedKey =>
    intro wait hwait
    rcases hmem wait hwait with hold | rfl
    · exact h.matchedKey wait hold
    · simp [nextWait]
  case named =>
    intro wait hwait signalKey hkey
    rcases hmem wait hwait with hold | rfl
    · exact h.named wait hold signalKey hkey
    · exact absurd hkey (Option.some_ne_none _).symm
  case waitPrints =>
    intro key
    show (store.waitFingerprints.set draft.key (signalWaitFingerprint draft)).get? key =
      ((store.waits.set draft.key (store.nextWait draft none)).get? key).map _
    by_cases hkey : draft.key = key
    · rw [hkey, OrderedMap.get?_set_self, OrderedMap.get?_set_self]
      rfl
    · rw [OrderedMap.get?_set_of_ne _ hkey, OrderedMap.get?_set_of_ne _ hkey]
      exact h.waitPrints key
  case waitTexts =>
    intro wait hwait
    rcases hmem wait hwait with hold | rfl
    · exact h.waitTexts wait hold
    · exact htexts

/-- Inserting a wait gives the tables of the store with the wait. -/
theorem insertWait_tables (h : store.Stored ctx.limits texts) (hnormal : draft.Normal ctx.limits)
    (hbinds : bindsKey draft.selector.afterSignalKey = true)
    (hroom : (store.tables ctx).lastWaitKey < maxSqliteInteger) :
    (store.tables ctx).insertWait draft (ctx.sha256 (signalWaitFingerprint draft)) =
      .ok ((store.registering draft).tables ctx) := by
  have hlast : (store.tables ctx).lastWaitKey + 1 = store.nextWaitKey :=
    Nat.sub_add_cancel h.started.2
  have hfresh : ∀ ids : SignalWaitRecord → List String, ∀ row ∈
      identifierTable SignalWaitRecord.waitKey ids store.waits.values,
      row.key ≠ store.nextWaitKey := by
    intro ids row hrow heq
    obtain ⟨wait, hwait, hkey, -⟩ := mem_identifierTable.1 hrow
    exact Nat.ne_of_lt (h.waitBound wait hwait).2 (hkey.trans heq)
  have hkinds := insertIdentifiers_eq (normalizeIdentifierSet_eq_ok.1 hnormal.kinds).2.2.1
    (hfresh fun wait => wait.selector.kinds)
  have hnodup : (draft.selector.subjectIdsAny.getD []).Nodup := by
    cases hsubjects : draft.selector.subjectIdsAny with
    | none => exact List.nodup_nil
    | some subjects =>
      exact (normalizeIdentifierSet_eq_ok.1 (hnormal.subjects subjects hsubjects).2).2.2.1
  have hsubjects := insertIdentifiers_eq hnodup
    (hfresh fun wait => wait.selector.subjectIdsAny.getD [])
  have hfind := h.findWaitRow_tables draft.key
  rw [hnew, Option.map_none] at hfind
  have habsent : ((store.tables ctx).findWaitRow draft.key).isNone = true := by
    rw [hfind]
    rfl
  unfold SqliteSignalDatabase.insertWait
  rw [demand_true_bind hbinds, demand_true_bind hnormal.cursor, demand_true_bind habsent,
    demand_true_bind (decide_eq_true hroom), hlast]
  show (insertIdentifiers _ _ (identifierTable _ (fun wait : SignalWaitRecord =>
    wait.selector.kinds) _) >>= _) = _
  rw [hkinds, ok_bind]
  show (insertIdentifiers _ _ (identifierTable _ (fun wait : SignalWaitRecord =>
    wait.selector.subjectIdsAny.getD []) _) >>= _) = _
  rw [hsubjects, ok_bind]
  refine congrArg Except.ok ?_
  unfold tables
  rw [values_registering hnew, identifierTable_concat, identifierTable_concat, List.map_append]
  rfl

end NewWait

namespace Stored

/-- The signal a new wait starts with, found in the tables. -/
theorem findFirstMatchingSignalRow_tables (h : store.Stored ctx.limits texts)
    {wait : SignalWaitRecord} (hwait : wait ∈ store.waits.values) :
    (store.tables ctx).findFirstMatchingSignalRow (wait.row ctx) =
      (store.matchedSignal wait.toSignalWaitDraft).map (GameSignalRecord.row ctx) := by
  have hsort : (store.signals.values.filter
      fun signal => signalWaitMatches wait.toSignalWaitDraft signal).insertionSort
        (fun left right => left.signalKey ≤ right.signalKey) =
      store.signals.values.filter fun signal => signalWaitMatches wait.toSignalWaitDraft signal :=
    List.Pairwise.insertionSort_eq ((h.signalOrder.filter _).imp Nat.le_of_lt)
  unfold SqliteSignalDatabase.findFirstMatchingSignalRow matchedSignal
  rw [h.selectSignals fun signal hsignal => h.holds_matchingSignal hwait hsignal, hsort,
    List.head?_map]

theorem length_matchedWaitRows (h : store.Stored ctx.limits texts) (signalKey : Nat) :
    ((store.tables ctx).matchedWaitRows signalKey).length =
      (store.matchedWaitIds signalKey).length := by
  have hrows : (store.tables ctx).matchedWaitRows signalKey = (store.waits.values.filter
      fun wait => decide (wait.matchedSignalKey = some signalKey)).map
        (SignalWaitRecord.row ctx) := h.selectWaits fun wait _ => holds_some_sqlEq _ _
  rw [hrows, List.length_map, length_matchedWaitIds, List.countP_eq_length_filter]

/-- A new wait that starts with a signal is rewritten from one that waits. -/
theorem rewrites_matched {draft : SignalWaitDraft Decimal} (hnormal : draft.Normal ctx.limits)
    (h : store.Stored ctx.limits texts) {signal : GameSignalRecord}
    (hsignal : store.matchedSignal draft = some signal) :
    Rewrites ctx.limits (store.registering draft) (store.nextWait draft none)
      (store.nextWait draft (some signal)) := by
  obtain ⟨hmem, hmatches, -⟩ := matchedSignal_eq_some hsignal
  constructor
  case draft => rfl
  case waitKey => rfl
  case created => rfl
  case updated =>
    refine ⟨laterTimestamp_canonical hnormal.recordedAt (h.signalNormal signal hmem).recordedAt, ?_⟩
    by_cases hlater : draft.recordedAt < signal.recordedAt
    · simp only [nextWait, if_pos hlater]
      exact fun hlt => lt_irrefl _ (lt_trans hlater hlt)
    · simp only [nextWait, if_neg hlater]
      exact lt_irrefl _
  case revised => exact (Decimal.value_ofNat 1).ge
  case matchedKey => simp [nextWait]
  case named =>
    intro signalKey hkey
    obtain rfl := Option.some.inj hkey
    exact ⟨signal, hmem, rfl, hmatches⟩

/-- `registerWait` of a wait that is stored. -/
theorem registerWait_stored_mirrors (h : store.Stored ctx.limits texts)
    (hinjective : Set.InjOn ctx.sha256 texts) {draft : SignalWaitDraft Decimal}
    (htext : signalWaitFingerprint draft ∈ texts) {existing : SignalWaitRecord}
    (hget : store.waits.get? draft.key = some existing) (maxMatches : Nat) :
    Mirrors ctx texts (OpenGameAgent.registerWait draft maxMatches) store
      (SqliteSignalDatabase.write (SqliteSignalDatabase.registerWaitBody ctx draft maxMatches)) := by
  have hexisting : existing ∈ store.waits.values := OrderedMap.mem_values.2 ⟨_, hget⟩
  have hmemory := @registerWait_stored maxMatches store draft existing hget
  have hprint := h.waitPrints draft.key
  have hfind := h.findWaitRow_tables draft.key
  rw [hget, Option.map_some] at hprint hfind
  rw [hprint] at hmemory
  have hsame : (existing.row ctx).sourceFingerprint = ctx.sha256 (signalWaitFingerprint draft) ↔
      signalWaitFingerprint existing.toSignalWaitDraft = signalWaitFingerprint draft :=
    hinjective.eq_iff (h.waitTexts existing hexisting) htext
  by_cases hfingerprint :
      signalWaitFingerprint existing.toSignalWaitDraft = signalWaitFingerprint draft
  · simp only [ne_eq, hfingerprint, not_true_eq_false, if_false] at hmemory
    refine mirrors_ok _ _ hmemory h (SqliteSignalDatabase.write_ok ?_)
    unfold SqliteSignalDatabase.registerWaitBody
    simp only [hfind]
    rw [demand_true_bind (decide_eq_true (hsame.2 hfingerprint)), h.hydrateWait_tables hexisting,
      SqliteSignalDatabase.checked_ok, ok_bind]
    rfl
  · simp only [ne_eq, Option.some.injEq, hfingerprint, not_false_eq_true, if_true] at hmemory
    refine mirrors_error .waitConflict hmemory (SqliteSignalDatabase.write_error ?_)
    unfold SqliteSignalDatabase.registerWaitBody
    simp only [hfind]
    rw [demand_false_bind (decide_eq_false (mt hsame.1 hfingerprint))]

/-- `registerWait` of a wait that is new. -/
theorem registerWait_new_mirrors (h : store.Stored ctx.limits texts)
    {draft : SignalWaitDraft Decimal} (hnormal : draft.Normal ctx.limits)
    (htext : signalWaitFingerprint draft ∈ texts) (hnew : store.waits.get? draft.key = none)
    (maxMatches : Nat) (hbinds : bindsKey draft.selector.afterSignalKey = true)
    (hroom : (store.tables ctx).lastWaitKey < maxSqliteInteger) :
    Mirrors ctx texts (OpenGameAgent.registerWait draft maxMatches) store
      (SqliteSignalDatabase.write (SqliteSignalDatabase.registerWaitBody ctx draft maxMatches)) := by
  have hmemory := @registerWait_new maxMatches store
    (fun signal hsignal => (h.signalNormal signal hsignal).recordedAt) draft hnormal.recordedAt hnew
  have hregistering := h.registering hnew hnormal htext
  have hinsert := insertWait_tables hnew h hnormal hbinds hroom
  have hmem : store.nextWait draft none ∈ (store.registering draft).waits.values := by
    rw [values_registering hnew]
    exact List.mem_append_right _ (List.mem_singleton_self _)
  have hlast : ((store.registering draft).tables ctx).lastWaitKey =
      (store.nextWait draft none).waitKey := rfl
  have hrow := hregistering.findWaitRowByKey_tables hmem
  have hfirst := hregistering.findFirstMatchingSignalRow_tables hmem
  have hsearch : (store.registering draft).matchedSignal
      (store.nextWait draft none).toSignalWaitDraft = store.matchedSignal draft := rfl
  rw [hsearch] at hfirst
  have hfound := h.findWaitRow_tables draft.key
  rw [hnew, Option.map_none] at hfound
  cases hmatched : store.matchedSignal draft with
  | none =>
    have hhasRoom : store.hasRoom draft maxMatches = true := by
      unfold hasRoom
      rw [hmatched]
      rfl
    rw [if_pos hhasRoom, hmatched, withWait_eq_of_none hmatched] at hmemory
    rw [hmatched, Option.map_none] at hfirst
    refine mirrors_ok _ _ hmemory hregistering (SqliteSignalDatabase.write_ok ?_)
    unfold SqliteSignalDatabase.registerWaitBody
    simp only [hfound, hinsert, ok_bind, hlast, hrow, hfirst, hregistering.hydrateWait_tables hmem,
      SqliteSignalDatabase.checked_ok]
    rfl
  | some signal =>
    obtain ⟨hsignal, -, -⟩ := matchedSignal_eq_some hmatched
    rw [hmatched, Option.map_some] at hfirst
    have hhydrate := @hydrateSignal_tables _ _ _ hregistering signal hsignal _ rfl rfl
    have hcount : (((store.registering draft).tables ctx).matchedWaitRows
        signal.signalKey).length = (store.matchedWaitIds signal.signalKey).length := by
      rw [hregistering.length_matchedWaitRows, length_matchedWaitIds, length_matchedWaitIds,
        values_registering hnew, List.countP_append]
      rfl
    by_cases hfree : (store.matchedWaitIds signal.signalKey).length < maxMatches
    case neg =>
      have hhasRoom : store.hasRoom draft maxMatches = false := by
        unfold hasRoom
        rw [hmatched, Option.all_some, decide_eq_false_iff_not]
        exact hfree
      rw [if_neg (Bool.eq_false_iff.1 hhasRoom)] at hmemory
      refine mirrors_error .waitFanout hmemory (SqliteSignalDatabase.write_error ?_)
      unfold SqliteSignalDatabase.registerWaitBody
      simp only [hfound, hinsert, ok_bind, hlast, hrow, hfirst, hhydrate,
        SqliteSignalDatabase.checked_ok]
      rw [demand_false_bind]
      show decide ((SqliteSignalDatabase.matchedWaitRows _ signal.signalKey).length < maxMatches) = _
      rw [hcount]
      exact decide_eq_false hfree
    have hhasRoom : store.hasRoom draft maxMatches = true := by
      unfold hasRoom
      rw [hmatched, Option.all_some]
      exact decide_eq_true hfree
    rw [if_pos hhasRoom, hmatched] at hmemory
    have hrewrites := rewrites_matched hnormal h hmatched
    have hall : ∀ e ∈ (store.registering draft).waits.entries,
        Rewrites ctx.limits (store.registering draft) e.2
          (if e.1 = draft.key then store.nextWait draft (some signal) else e.2) := by
      intro e he
      by_cases hkey : e.1 = draft.key
      · have hother := OrderedMap.get?_eq_some_iff.2 he
        rw [hkey] at hother
        have hset := hother.symm.trans (OrderedMap.get?_set_self store.waits draft.key _)
        rw [if_pos hkey, Option.some.inj hset]
        exact hrewrites
      · rw [if_neg hkey]
        exact hregistering.rewrites_self (mem_values_of_entry he)
    have hstored := hregistering.rewritten
      (f := fun key wait => if key = draft.key then store.nextWait draft (some signal) else wait)
      hall
    have htables := tables_rewritten
      (f := fun key wait => if key = draft.key then store.nextWait draft (some signal) else wait)
      hall
    rw [← withWait_eq_of_some hmatched] at hstored htables
    have hselected : ∀ other ∈ (store.registering draft).waits.values,
        decide ((other.row ctx).waitKey = (store.nextWait draft none).waitKey) =
          decide (other.waitKey = (store.nextWait draft none).waitKey) := fun _ _ => rfl
    have hchange : SqliteSignalDatabase.matchedRow signal.signalKey
        ((store.nextWait draft none).row ctx).revision
        (if draft.recordedAt < signal.recordedAt then signal.recordedAt else draft.recordedAt)
          ((store.nextWait draft none).row ctx) =
            (store.nextWait draft (some signal)).row ctx := rfl
    have hallowed : ((store.registering draft).tables ctx).allowsWait
        ((store.nextWait draft (some signal)).row ctx) = true := by
      have hfoundSignal := @findSignalRowByKey_tables ctx _ _ hregistering _ hsignal
      unfold SqliteSignalDatabase.allowsWait
      show (_ && Option.all _ (some signal.signalKey)) = true
      rw [Option.all_some, hfoundSignal]
      rfl
    have hupdate := updateWait_eq (tables_waits _ ctx) hregistering.waitOrder hmem
      (fun row => decide (row.waitKey = (store.nextWait draft none).waitKey))
      (fun row => SqliteSignalDatabase.matchedRow signal.signalKey row.revision
        (if draft.recordedAt < signal.recordedAt then signal.recordedAt else draft.recordedAt) row)
      hselected hchange hallowed
    have hwritten : (store.nextWait draft (some signal)) ∈ (store.withWait draft).waits.values := by
      rw [withWait_eq_of_some hmatched, values_rewritten]
      exact List.mem_map.2 ⟨(draft.key, store.nextWait draft none),
        OrderedMap.get?_eq_some_iff.1 (OrderedMap.get?_set_self ..), if_pos rfl⟩
    have hvalues : ((store.registering draft).waits.values.map fun other : SignalWaitRecord =>
        if other.waitKey = (store.nextWait draft none).waitKey then
          store.nextWait draft (some signal) else other) =
        (store.registering draft).waits.entries.map fun e =>
          if e.1 = draft.key then store.nextWait draft (some signal) else e.2 := by
      unfold OrderedMap.values
      rw [List.map_map]
      refine List.map_congr_left fun e he => ?_
      have hentry := OrderedMap.get?_eq_some_iff.1
        (OrderedMap.get?_set_self store.waits draft.key (store.nextWait draft none))
      have hsame := hregistering.mem_map_waitKey_iff
        (l := [(draft.key, store.nextWait draft none)])
        (fun other hother => List.mem_singleton.1 hother ▸ hentry) he
      simp only [List.map_cons, List.map_nil, List.mem_singleton] at hsame
      simp only [Function.comp_apply, hsame]
    rw [hvalues, ← htables] at hupdate
    have hread := hstored.findWaitRowByKey_tables hwritten
    rw [show (store.nextWait draft (some signal)).waitKey = (store.nextWait draft none).waitKey
      from rfl] at hread
    have hlater := laterSignalTimestamp_eq_ok.2
      ⟨hnormal.recordedAt, (h.signalNormal signal hsignal).recordedAt, rfl⟩
    have hhydrateWait := hstored.hydrateWait_tables hwritten
    refine mirrors_ok _ _ hmemory hstored (SqliteSignalDatabase.write_ok ?_)
    unfold SqliteSignalDatabase.registerWaitBody
    simp only [hfound, hinsert, ok_bind, hlast, hrow, hfirst, hhydrate,
      SqliteSignalDatabase.checked_ok]
    have hroomFor : decide ((((store.registering draft).tables ctx).matchedWaitRows
        (signal.row ctx).signalKey).length < maxMatches) = true := by
      show decide ((SqliteSignalDatabase.matchedWaitRows _ signal.signalKey).length < _) = _
      rw [hcount]
      exact decide_eq_true hfree
    have hkey : (signal.row ctx).signalKey = signal.signalKey := rfl
    rw [demand_true_bind hroomFor, hlater, SqliteSignalDatabase.checked_ok, ok_bind, hkey, hupdate,
      ok_bind]
    rw [hread]
    simp only [hhydrateWait, SqliteSignalDatabase.checked_ok, ok_bind]
    rfl

end Stored

end InMemorySignalStore

/-! ## Runs -/

/-- The text that a call has hashed. -/
def SignalStoreCall.hashed? : SignalStoreCall → Option (List UInt16)
  | .record draft _ => some (signalFingerprint draft)
  | .registerWait draft _ => some (signalWaitFingerprint draft)
  | _ => none

/-- The values a call hands to SQLite are such that it takes them: integers have 64 bits, JSON
does not nest too deep, and a statement does not have too many parameters. -/
def SignalStoreCall.Fits (store : InMemorySignalStore) : SignalStoreCall → Prop
  | .record draft _ => store.signals.get? draft.key = none →
      jsonNesting draft.payload ≤ maxSqliteJsonNesting ∧ store.nextSignalKey ≤ maxSqliteInteger
  | .listSignals request => 9 + (request.kinds.getD []).length ≤ maxSqliteVariables ∧
      bindsKey request.afterSignalKey = true
  | .registerWait draft _ => store.waits.get? draft.key = none →
      bindsKey draft.selector.afterSignalKey = true ∧ store.nextWaitKey ≤ maxSqliteInteger
  | .listWaits request => bindsKey request.afterWaitKey = true
  | _ => True

/-- The answer of the in-memory store to a call, and the store after it. -/
def signalStoreStep (store : InMemorySignalStore) (call : SignalStoreCall) :
    Except SignalError SignalStoreAnswer × InMemorySignalStore :=
  respond (InMemorySignalStore.call call) store

/-- The answer of the SQLite store to a call, and the database after it. -/
def sqliteSignalStep (ctx : SqliteSignalContext) (database : SqliteSignalDatabase)
    (call : SignalStoreCall) : Except SqliteSignalError SignalStoreAnswer × SqliteSignalDatabase :=
  respond (SqliteSignalDatabase.call ctx call) database

/-- The texts that the calls of a run have hashed. -/
def hashedTexts (calls : List SignalStoreCall) : Set (List UInt16) :=
  { text | ∃ call ∈ calls, call.hashed? = some text }

/-- SQLite takes the values of every call of a run. -/
def RunFits : InMemorySignalStore → List SignalStoreCall → Prop
  | _, [] => True
  | store, call :: rest => call.Fits store ∧ RunFits (signalStoreStep store call).2 rest

/-- The waits that a signal is matched with when it is inserted, and the signals that a wait is
matched with, are those of `signalWaitMatches`. -/
structure SelectsMatches (ctx : SqliteSignalContext) (store : InMemorySignalStore)
    (database : SqliteSignalDatabase) : Prop where
  waits : ∀ draft inserted, normalizeGameSignal draft.texts ctx.limits = .ok draft →
    database.insertSignal draft (ctx.sha256 (signalFingerprint draft)) = .ok inserted →
    ∀ wait ∈ store.waits.values,
      (inserted.matchingWait (SqliteSignalDatabase.signalRow draft inserted.lastSignalKey
          (ctx.sha256 (signalFingerprint draft))) (wait.row ctx)).holds =
        (decide (wait.status = .waiting) && signalWaitMatches wait.toSignalWaitDraft
          { draft with signalKey := inserted.lastSignalKey })
  signals : ∀ draft inserted, normalizeSignalWait draft.texts ctx.limits = .ok draft →
    database.insertWait draft (ctx.sha256 (signalWaitFingerprint draft)) = .ok inserted →
    ∀ signal ∈ store.signals.values,
      (inserted.matchingSignal (SqliteSignalDatabase.waitRow draft inserted.lastWaitKey
          (ctx.sha256 (signalWaitFingerprint draft))) (signal.row ctx)).holds =
        signalWaitMatches draft signal

namespace InMemorySignalStore

theorem Stored.mono (h : store.Stored ctx.limits texts) {more : Set (List UInt16)}
    (hsub : texts ⊆ more) : store.Stored ctx.limits more :=
  { h with
    signalTexts := fun signal hsignal => hsub (h.signalTexts signal hsignal)
    waitTexts := fun wait hwait => hsub (h.waitTexts wait hwait) }

/-- The selections on the tables of a store. -/
theorem Stored.selectsMatches (h : store.Stored ctx.limits texts) :
    SelectsMatches ctx store (store.tables ctx) := by
  have hall := h.mono (Set.subset_univ texts)
  constructor
  · intro draft inserted hdraft hinsert wait hwait
    have hnormal := normal_of_normalizeGameSignal hdraft
    have hchecks := hinsert
    simp only [SqliteSignalDatabase.insertSignal, bind_eq_ok, exists_const, demand_eq_ok,
      decide_eq_true_eq] at hchecks
    obtain ⟨hnesting, habsent, hroom, -⟩ := hchecks
    have hnew : store.signals.get? draft.key = none := by
      rw [h.findSignalRow_tables] at habsent
      simpa using habsent
    obtain rfl := Except.ok.inj
      ((insertSignal_tables hnew h hnormal hnesting hroom).symm.trans hinsert)
    have hstoring := hall.storing hnew hnormal (Set.mem_univ _)
    have hmem : store.nextSignal draft ∈ (store.storing draft).signals.values := by
      rw [values_storing hnew]
      exact List.mem_append_right _ (List.mem_singleton_self _)
    exact hstoring.holds_matchingWait hwait hmem
  · intro draft inserted hdraft hinsert signal hsignal
    have hnormal := normal_of_normalizeSignalWait hdraft
    have hchecks := hinsert
    simp only [SqliteSignalDatabase.insertWait, bind_eq_ok, exists_const, demand_eq_ok,
      decide_eq_true_eq] at hchecks
    obtain ⟨hbinds, -, habsent, hroom, -⟩ := hchecks
    have hnew : store.waits.get? draft.key = none := by
      rw [h.findWaitRow_tables] at habsent
      simpa using habsent
    obtain rfl := Except.ok.inj
      ((insertWait_tables hnew h hnormal hbinds hroom).symm.trans hinsert)
    have hregistering := hall.registering hnew hnormal (Set.mem_univ _)
    have hmem : store.nextWait draft none ∈ (store.registering draft).waits.values := by
      rw [values_registering hnew]
      exact List.mem_append_right _ (List.mem_singleton_self _)
    exact hregistering.holds_matchingSignal hmem hsignal

/-- **Every valid call that SQLite takes is mirrored.** -/
theorem call_mirrors (h : store.Stored ctx.limits texts) (hinjective : Set.InjOn ctx.sha256 texts)
    {request : SignalStoreCall} (hvalid : request.Valid ctx.limits)
    (htexts : ∀ text, request.hashed? = some text → text ∈ texts) (hfits : request.Fits store) :
    Mirrors ctx texts (call request) store (SqliteSignalDatabase.call ctx request) := by
  cases request with
  | record draft maxMatches =>
    obtain ⟨hdraft, hlimit⟩ := hvalid
    have hnormal := normal_of_normalizeGameSignal hdraft
    have htext := htexts _ rfl
    refine Mirrors.map _ ?_
    have hsqlite : SqliteSignalDatabase.record ctx draft.texts maxMatches =
        SqliteSignalDatabase.write (SqliteSignalDatabase.recordBody ctx draft maxMatches) := by
      funext database
      unfold SqliteSignalDatabase.record
      rw [attempt_ok_bind (SqliteSignalDatabase.checked_eq_ok.2 hdraft),
        attempt_ok_bind (SqliteSignalDatabase.checked_eq_ok.2 hlimit)]
    rw [hsqlite]
    cases hget : store.signals.get? draft.key with
    | some existing => exact h.record_stored hinjective htext hget maxMatches
    | none =>
      obtain ⟨hnesting, hroom⟩ := hfits hget
      refine h.record_new hnormal htext hget maxMatches hnesting ?_
      have hstarted := h.started.1
      show store.nextSignalKey - 1 < maxSqliteInteger
      omega
  | registerWait draft maxMatches =>
    obtain ⟨hdraft, hlimit⟩ := hvalid
    have hnormal := normal_of_normalizeSignalWait hdraft
    have htext := htexts _ rfl
    refine Mirrors.map _ ?_
    have hsqlite : SqliteSignalDatabase.registerWait ctx draft.texts maxMatches =
        SqliteSignalDatabase.write
          (SqliteSignalDatabase.registerWaitBody ctx draft maxMatches) := by
      funext database
      unfold SqliteSignalDatabase.registerWait
      rw [attempt_ok_bind (SqliteSignalDatabase.checked_eq_ok.2 hdraft),
        attempt_ok_bind (SqliteSignalDatabase.checked_eq_ok.2 hlimit)]
    rw [hsqlite]
    cases hget : store.waits.get? draft.key with
    | some existing => exact h.registerWait_stored_mirrors hinjective htext hget maxMatches
    | none =>
      obtain ⟨hbinds, hroom⟩ := hfits hget
      refine h.registerWait_new_mirrors hnormal htext hget maxMatches hbinds ?_
      have hstarted := h.started.2
      show store.nextWaitKey - 1 < maxSqliteInteger
      omega
  | getSignal key => exact h.getSignal_mirrors hvalid
  | listSignals request => exact h.listSignals_mirrors hvalid hfits.1 hfits.2
  | getWait key => exact h.getWait_mirrors hvalid
  | listWaits request => exact h.listWaits_mirrors hvalid hfits
  | cancelWait key expectedRevision recordedAt => exact h.cancelWait_mirrors hvalid
  | expireWaits partition through recordedAt limit => exact h.expireWaits_mirrors hvalid
  | purgeTerminalWaits partition before limit => exact h.purgeTerminalWaits_mirrors hvalid
  | purgeSignals partition before limit => exact h.purgeSignals_mirrors hvalid

theorem Mirrors.respond {α : Type} {program : SignalProgram α}
    {sqlite : EStateM SqliteSignalError SqliteSignalDatabase α}
    (hmirrors : Mirrors ctx texts program store sqlite) (h : store.Stored ctx.limits texts) :
    (OpenGameAgent.respond sqlite (store.tables ctx)).1 =
        (OpenGameAgent.respond program store).1.mapError .store ∧
      (OpenGameAgent.respond sqlite (store.tables ctx)).2 =
        (OpenGameAgent.respond program store).2.tables ctx ∧
      (OpenGameAgent.respond program store).2.Stored ctx.limits texts := by
  unfold Mirrors at hmirrors
  unfold OpenGameAgent.respond
  cases hprogram : program store with
  | ok answer next =>
    rw [hprogram] at hmirrors
    rw [hmirrors.2]
    exact ⟨rfl, rfl, hmirrors.1⟩
  | error error next =>
    rw [hprogram] at hmirrors
    rw [hmirrors.2]
    obtain ⟨rfl, -⟩ := hmirrors
    exact ⟨rfl, rfl, h⟩

end InMemorySignalStore

/-- **The two stores agree.**  Started empty, they answer valid calls alike as long as SQLite
takes the values of the calls, and the SQL selections are `signalWaitMatches`. -/
theorem signal_stores_agree (ctx : SqliteSignalContext) (calls : List SignalStoreCall)
    (hvalid : ∀ call ∈ calls, call.Valid ctx.limits)
    (hinjective : Set.InjOn ctx.sha256 (hashedTexts calls)) (hfits : RunFits .empty calls) :
    (history (sqliteSignalStep ctx) .empty calls).1 =
        (history signalStoreStep .empty calls).1.map (fun e => (e.1, e.2.mapError .store)) ∧
      SelectsMatches ctx (history signalStoreStep .empty calls).2
        (history (sqliteSignalStep ctx) .empty calls).2 := by
  have hrun := @history_simulation _ _ _ _ _ signalStoreStep (sqliteSignalStep ctx)
    (fun store database rest => store.Stored ctx.limits (hashedTexts calls) ∧
      database = store.tables ctx ∧ (∀ call ∈ rest, call ∈ calls) ∧ RunFits store rest)
    (fun answer => answer.mapError SqliteSignalError.store) ?_ .empty .empty calls
    ⟨InMemorySignalStore.stored_empty, InMemorySignalStore.tables_empty.symm, fun _ h => h, hfits⟩
  · obtain ⟨hanswers, hstored, hdatabase, -⟩ := hrun
    exact ⟨hanswers, hdatabase ▸ hstored.selectsMatches⟩
  · rintro store database call rest ⟨hstored, rfl, hmem, hcall, hrest⟩
    have hin := hmem call (List.mem_cons_self ..)
    have hmirrors := InMemorySignalStore.call_mirrors hstored hinjective (hvalid call hin)
      (fun text htext => ⟨call, hin, htext⟩) hcall
    obtain ⟨hanswer, hdatabase, hnext⟩ := hmirrors.respond hstored
    exact ⟨hanswer, hnext, hdatabase, fun other h => hmem other (List.mem_cons_of_mem _ h), hrest⟩

/-! A wait and the signal that wakes it up. -/

/-- SHA-256 on the texts below, told apart by their length. -/
def signalDigest (units : List UInt16) : String :=
  match units.length with
  | 232 => "628f6d9bccdb5d288d2743bc72fe66d9c24cafea74ff970ecd1ac5ecf60348bc"
  | 216 => "425afa27718c2114128627ecdaac07ff14f2261ea5e27900cf820217f0554d36"
  | _ => "2e10195a8fa076c92bdf2e738c3896b20d89ebb864ffdd0543e7fd1677603069"

def signalContext : SqliteSignalContext := ⟨⟨100, 10, 10, 10, 10, 10, 10, 10, 10, 10, 10⟩, signalDigest⟩

def sampleSignal : GameSignalDraft Decimal where
  signalId := "s"
  partition := ⟨⟨"o", "t", "0"⟩, none, none⟩
  kind := "k"
  payload := .null
  gameTime := ⟨"t", "0", .ofNat 1⟩
  subjectIds := []
  causeIds := []
  recordedAt := "2026-01-01T00:00:00.000Z"

/-- A wait for what comes behind a key. -/
def waitBehind (afterSignalKey : Int) : SignalWaitDraft Decimal where
  waitId := "w"
  partition := ⟨⟨"o", "t", "0"⟩, none, none⟩
  selector := ⟨["k"], none, some afterSignalKey, none, none⟩
  target := .correlation "c"
  recordedAt := "2026-01-01T00:00:00.000Z"

def wakingCalls : List SignalStoreCall :=
  [.registerWait (waitBehind 0) 1, .record sampleSignal 1, .getWait (waitBehind 0).key]

theorem wakingCalls_valid : ∀ call ∈ wakingCalls, call.Valid signalContext.limits := by
  simp only [wakingCalls, List.forall_mem_cons, List.not_mem_nil, SignalStoreCall.Valid,
    IsEmpty.forall_iff, implies_true, and_true]
  decide +kernel

theorem hashedTexts_waking : hashedTexts wakingCalls =
    {signalWaitFingerprint (waitBehind 0), signalFingerprint sampleSignal} := by
  ext text
  simp [hashedTexts, wakingCalls, SignalStoreCall.hashed?, eq_comm]

set_option maxRecDepth 2000 in
theorem signal_stores_agree_waking :
    (history (sqliteSignalStep signalContext) .empty wakingCalls).1 =
      (history signalStoreStep .empty wakingCalls).1.map fun e => (e.1, e.2.mapError .store) := by
  refine (signal_stores_agree signalContext wakingCalls wakingCalls_valid ?_ ?_).1
  · rw [hashedTexts_waking]
    have hdigests : signalDigest (signalWaitFingerprint (waitBehind 0)) ≠
        signalDigest (signalFingerprint sampleSignal) := by
      have hlengths : (signalWaitFingerprint (waitBehind 0)).length = 216 ∧
          (signalFingerprint sampleSignal).length = 232 := by decide +kernel
      unfold signalDigest
      rw [hlengths.1, hlengths.2]
      decide
    exact Set.injOn_pair.2 fun h => absurd h hdigests
  · simp only [wakingCalls, RunFits, SignalStoreCall.Fits, and_true]
    decide +kernel

/-- Behind 2 ^ 63, which SQLite does not take. -/
def farCalls : List SignalStoreCall := [.registerWait (waitBehind 9223372036854775808) 1]

/-- The stores do not answer every sequence of valid calls alike. -/
theorem large_cursor_divides_stores : ¬ ∀ calls : List SignalStoreCall,
    (∀ call ∈ calls, call.Valid signalContext.limits) →
    Set.InjOn signalContext.sha256 (hashedTexts calls) →
    (history (sqliteSignalStep signalContext) .empty calls).1.map (fun e => e.2.isOk) =
      (history signalStoreStep .empty calls).1.map fun e => e.2.isOk := by
  intro hagree
  have hvalid : ∀ call ∈ farCalls, call.Valid signalContext.limits := by
    simp only [farCalls, List.forall_mem_cons, List.not_mem_nil, SignalStoreCall.Valid,
      IsEmpty.forall_iff, implies_true, and_true]
    decide +kernel
  have honly : hashedTexts farCalls = {signalWaitFingerprint (waitBehind 9223372036854775808)} := by
    ext text
    simp [hashedTexts, farCalls, SignalStoreCall.hashed?, eq_comm]
  have hsame := hagree farCalls hvalid (honly ▸ Set.injOn_singleton _ _)
  revert hsame
  decide +kernel

end OpenGameAgent
