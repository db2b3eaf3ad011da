import Mathlib.Data.List.ProdSigma
import OpenGameAgent.Extensions.SignalNormalForms
import OpenGameAgent.Storage.SqliteSignalStore

/-!
# The tables of a signal store

The SQLite tables that hold what an in-memory store holds, and what reading them gives.

* `InMemorySignalStore.tables` — the tables of a store.
* `InMemorySignalStore.Stored` — what valid calls make sure of, and what hydration checks.
* `hydrateSignal_tables`, `hydrateWait_tables` — every row is read back as its record.
* `holds_matchingWait`, `holds_matchingSignal` — the two selections are `signalWaitMatches`.
-/

namespace OpenGameAgent

/-! ## Tables of identifiers -/

section Identifiers

variable {α : Type} {key : α → Nat} {ids : α → List String} {items : List α}

/-- Keys in ascending order tell items apart. -/
theorem eq_of_same_order (horder : items.Pairwise fun a b => key a < key b) {a b : α}
    (ha : a ∈ items) (hb : b ∈ items) (hkey : key a = key b) : a = b := by
  have hnodup : (items.map key).Nodup := List.pairwise_map.2 (horder.imp Nat.ne_of_lt)
  exact List.inj_on_of_nodup_map hnodup ha hb hkey

/-- The identifiers of some items, each under its item's key. -/
def identifierTable (key : α → Nat) (ids : α → List String) (items : List α) :
    List IdentifierRow :=
  items.flatMap fun item => (ids item).map (IdentifierRow.mk (key item))

theorem mem_identifierTable {row : IdentifierRow} :
    row ∈ identifierTable key ids items ↔
      ∃ item ∈ items, key item = row.key ∧ row.identifier ∈ ids item := by
  unfold identifierTable
  rw [List.mem_flatMap]
  constructor
  · rintro ⟨item, hitem, hrow⟩
    obtain ⟨value, hvalue, rfl⟩ := List.mem_map.1 hrow
    exact ⟨item, hitem, rfl, hvalue⟩
  · rintro ⟨item, hitem, hkey, hvalue⟩
    exact ⟨item, hitem, List.mem_map.2 ⟨row.identifier, hvalue, by rw [hkey]⟩⟩

theorem identifierTable_concat (item : α) :
    identifierTable key ids (items ++ [item]) =
      identifierTable key ids items ++ (ids item).map (IdentifierRow.mk (key item)) := by
  simp [identifierTable]

theorem filter_identifierTable (p : Nat → Bool) :
    (identifierTable key ids items).filter (fun row => p row.key) =
      identifierTable key ids (items.filter fun item => p (key item)) := by
  induction items with
  | nil => rfl
  | cons item rest ih =>
    unfold identifierTable at ih ⊢
    rw [List.flatMap_cons, List.filter_append, ih, List.filter_map]
    by_cases hp : p (key item) = true
    · simp [hp, Function.comp_def]
    · simp [hp, Function.comp_def]

/-- The identifiers of an item are read back, in the order of the table. -/
theorem readIdentifiers_perm (horder : items.Pairwise fun a b => key a < key b) {item : α}
    (hitem : item ∈ items) :
    (readIdentifiers (identifierTable key ids items) (key item)).Perm (ids item) := by
  have hfilter : items.filter (fun other => decide (key other = key item)) = [item] := by
    obtain ⟨front, back, rfl⟩ := List.append_of_mem hitem
    rw [List.pairwise_append, List.pairwise_cons] at horder
    have hfront : front.filter (fun other => decide (key other = key item)) = [] := by
      rw [List.filter_eq_nil_iff]
      intro other hother
      have hlt := horder.2.2 other hother item (List.mem_cons_self ..)
      simpa using Nat.ne_of_lt hlt
    have hback : back.filter (fun other => decide (key other = key item)) = [] := by
      rw [List.filter_eq_nil_iff]
      intro other hother
      have hlt := horder.2.1.1 other hother
      simpa using Nat.ne_of_gt hlt
    rw [List.filter_append, List.filter_cons_of_pos (by simp), hfront, hback]
    rfl
  unfold readIdentifiers
  refine (List.perm_insertionSort _ _).trans ?_
  rw [filter_identifierTable (fun k => decide (k = key item)), hfilter]
  simp [identifierTable, Function.comp_def]

/-- An identifier of an item, in the rows under its key. -/
theorem exists_row_iff (horder : items.Pairwise fun a b => key a < key b) {item : α}
    (hitem : item ∈ items) {value : String} :
    (∃ row ∈ identifierTable key ids items, row.key = key item ∧ row.identifier = value) ↔
      value ∈ ids item := by
  constructor
  · rintro ⟨row, hrow, hkey, rfl⟩
    obtain ⟨other, hother, hsame, hvalue⟩ := mem_identifierTable.1 hrow
    have heq := eq_of_same_order horder hother hitem (hsame.trans hkey)
    rw [← heq]
    exact hvalue
  · intro hvalue
    exact ⟨⟨key item, value⟩, mem_identifierTable.2 ⟨item, hitem, rfl, hvalue⟩, rfl, rfl⟩

theorem insertIdentifiers_eq {k : Nat} {values : List String} {table : List IdentifierRow}
    (hnodup : values.Nodup) (hnew : ∀ row ∈ table, row.key ≠ k) :
    insertIdentifiers k values table = .ok (table ++ values.map (IdentifierRow.mk k)) := by
  have hgeneral : ∀ (values done : List String), (done ++ values).Nodup →
      insertIdentifiers k values (table ++ done.map (IdentifierRow.mk k)) =
        .ok (table ++ (done ++ values).map (IdentifierRow.mk k)) := by
    intro values
    induction values with
    | nil =>
      intro done _
      rw [List.append_nil]
      rfl
    | cons value rest ih =>
      intro done hdone
      have hfresh : (⟨k, value⟩ : IdentifierRow) ∉ table ++ done.map (IdentifierRow.mk k) := by
        rw [List.mem_append, not_or]
        refine ⟨fun hmem => hnew _ hmem rfl, fun hmem => ?_⟩
        obtain ⟨other, hother, heq⟩ := List.mem_map.1 hmem
        obtain rfl := (IdentifierRow.mk.inj heq).2
        exact (List.nodup_append.1 hdone).2.2 other hother other (List.mem_cons_self ..) rfl
      unfold insertIdentifiers
      rw [if_neg hfresh]
      have hnext := ih (done ++ [value]) (by simpa using hdone)
      rw [List.map_append, ← List.append_assoc] at hnext
      simpa using hnext
  simpa using hgeneral values [] (by simpa using hnodup)

end Identifiers

/-! ## Ticks -/

theorem tickLt_iff (a b : Decimal) : (a.text.length < b.text.length ∨
    (a.text.length = b.text.length ∧ a.text < b.text)) ↔ a.value < b.value := by
  constructor
  · rintro (hlength | ⟨hlength, htext⟩)
    · exact Decimal.lt_of_length_lt hlength
    · exact (Decimal.value_lt_iff hlength).2 htext
  · intro hvalue
    rcases Nat.lt_trichotomy a.text.length b.text.length with hlt | heq | hgt
    · exact Or.inl hlt
    · exact Or.inr ⟨heq, (Decimal.value_lt_iff heq).1 hvalue⟩
    · exact absurd (Decimal.lt_of_length_lt hgt) (Nat.lt_asymm hvalue)

theorem holds_tickLt (a b : Decimal) :
    (sqlTickLt (some a.text) (some b.text)).holds = decide (compareSignalTicks b a = .gt) := by
  unfold sqlTickLt
  rw [compareSignalTicks_eq, Bool.eq_iff_iff]
  simp only [Truth.holds_or, Truth.holds_and, holds_sqlCompare_some, Bool.or_eq_true,
    Bool.and_eq_true, decide_eq_true_eq, compare_gt_iff_gt]
  exact tickLt_iff a b

theorem holds_tickLe (a b : Decimal) :
    (sqlTickLe (some a.text) (some b.text)).holds = decide (compareSignalTicks a b ≠ .gt) := by
  unfold sqlTickLe
  rw [compareSignalTicks_eq, Bool.eq_iff_iff]
  simp only [Truth.holds_or, Truth.holds_and, holds_sqlCompare_some, Bool.or_eq_true,
    Bool.and_eq_true, decide_eq_true_eq, ne_eq, compare_gt_iff_gt, ← @not_lt String]
  rw [← tickLt_iff b a]
  by_cases hlength : a.text.length = b.text.length
  · simp [hlength]
  · simp only [hlength, Ne.symm hlength, false_and, or_false]
    omega

theorem holds_afterTick (after : Option Decimal) (tick : Decimal) :
    ((sqlIsNull (after.map Decimal.text)).or
      (sqlTickLt (after.map Decimal.text) (some tick.text))).holds =
        after.all fun after => decide (compareSignalTicks tick after = .gt) := by
  cases after with
  | none => rfl
  | some after => simp [holds_tickLt]

theorem holds_throughTick (through : Option Decimal) (tick : Decimal) :
    ((sqlIsNull (through.map Decimal.text)).or
      (sqlTickLe (some tick.text) (through.map Decimal.text))).holds =
        through.all fun through => decide (compareSignalTicks tick through ≠ .gt) := by
  cases through with
  | none => rfl
  | some through => simp [holds_tickLe]

/-! ## The tables of a store -/

/-- The row of a stored signal. -/
def GameSignalRecord.row (ctx : SqliteSignalContext) (signal : GameSignalRecord) : SignalRow :=
  SqliteSignalDatabase.signalRow signal.toGameSignalDraft signal.signalKey
    (ctx.sha256 (signalFingerprint signal.toGameSignalDraft))

/-- The row of a stored wait. -/
def SignalWaitRecord.row (ctx : SqliteSignalContext) (wait : SignalWaitRecord) : SignalWaitRow :=
  { SqliteSignalDatabase.waitRow wait.toSignalWaitDraft wait.waitKey
      (ctx.sha256 (signalWaitFingerprint wait.toSignalWaitDraft)) with
    status := wait.status
    revision := wait.revision.text
    matchedSignalKey := wait.matchedSignalKey
    createdAt := wait.createdAt
    updatedAt := wait.updatedAt }

section Rows

variable (ctx : SqliteSignalContext) (wait : SignalWaitRecord)

@[simp] theorem SignalWaitRecord.row_waitKey : (wait.row ctx).waitKey = wait.waitKey := rfl

@[simp] theorem SignalWaitRecord.row_status : (wait.row ctx).status = wait.status := rfl

@[simp] theorem SignalWaitRecord.row_revision : (wait.row ctx).revision = wait.revision.text := rfl

@[simp] theorem SignalWaitRecord.row_updatedAt : (wait.row ctx).updatedAt = wait.updatedAt := rfl

end Rows

/-- The tables that hold what a store holds. -/
def InMemorySignalStore.tables (ctx : SqliteSignalContext) (store : InMemorySignalStore) :
    SqliteSignalDatabase where
  signals := store.signals.values.map (GameSignalRecord.row ctx)
  subjects := identifierTable GameSignalRecord.signalKey (fun signal => signal.subjectIds)
    store.signals.values
  causes := identifierTable GameSignalRecord.signalKey (fun signal => signal.causeIds)
    store.signals.values
  waits := store.waits.values.map (SignalWaitRecord.row ctx)
  waitKinds := identifierTable SignalWaitRecord.waitKey (fun wait => wait.selector.kinds)
    store.waits.values
  waitSubjects := identifierTable SignalWaitRecord.waitKey
    (fun wait => wait.selector.subjectIdsAny.getD []) store.waits.values
  lastSignalKey := store.nextSignalKey - 1
  lastWaitKey := store.nextWaitKey - 1

/-- What valid calls make sure of: `texts` are the texts that were hashed. -/
structure InMemorySignalStore.Stored (limits : SignalLimits) (texts : Set (List UInt16))
    (store : InMemorySignalStore) : Prop where
  signalKeyed : ∀ key signal, store.signals.get? key = some signal → signal.key = key
  waitKeyed : ∀ key wait, store.waits.get? key = some wait → wait.key = key
  signalOrder : store.signals.values.Pairwise fun a b => a.signalKey < b.signalKey
  waitOrder : store.waits.values.Pairwise fun a b => a.waitKey < b.waitKey
  signalBound : ∀ signal ∈ store.signals.values,
    1 ≤ signal.signalKey ∧ signal.signalKey < store.nextSignalKey
  waitBound : ∀ wait ∈ store.waits.values, 1 ≤ wait.waitKey ∧ wait.waitKey < store.nextWaitKey
  started : 1 ≤ store.nextSignalKey ∧ 1 ≤ store.nextWaitKey
  signalNormal : ∀ signal ∈ store.signals.values, signal.toGameSignalDraft.Normal limits
  waitNormal : ∀ wait ∈ store.waits.values, wait.toSignalWaitDraft.Normal limits
  created : ∀ wait ∈ store.waits.values, wait.createdAt = wait.recordedAt
  updated : ∀ wait ∈ store.waits.values,
    isCanonicalTimestamp wait.updatedAt = true ∧ ¬ wait.updatedAt < wait.createdAt
  revised : ∀ wait ∈ store.waits.values, 1 ≤ wait.revision.value
  matchedKey : ∀ wait ∈ store.waits.values,
    wait.status = .matched ↔ wait.matchedSignalKey.isSome = true
  named : ∀ wait ∈ store.waits.values, ∀ signalKey, wait.matchedSignalKey = some signalKey →
    ∃ signal ∈ store.signals.values, signal.signalKey = signalKey ∧
      signalWaitMatches wait.toSignalWaitDraft signal = true
  signalPrints : ∀ key, store.signalFingerprints.get? key =
    (store.signals.get? key).map fun signal => signalFingerprint signal.toGameSignalDraft
  waitPrints : ∀ key, store.waitFingerprints.get? key =
    (store.waits.get? key).map fun wait => signalWaitFingerprint wait.toSignalWaitDraft
  signalTexts : ∀ signal ∈ store.signals.values, signalFingerprint signal.toGameSignalDraft ∈ texts
  waitTexts : ∀ wait ∈ store.waits.values, signalWaitFingerprint wait.toSignalWaitDraft ∈ texts

theorem GameSignalDraft.key_eq_iff (signal : GameSignalDraft Decimal) {key : GameSignalKey} :
    signal.key = key ↔ ((signal.partition.ownerId = key.ownerId ∧
      signal.partition.timelineId = key.timelineId) ∧
        signal.partition.generation = key.generation) ∧ signal.signalId = key.signalId := by
  obtain ⟨⟨ownerId, timelineId, generation⟩, signalId⟩ := key
  obtain ⟨_, ⟨⟨_, _, _⟩, _, _⟩, _, _, _, _, _, _⟩ := signal
  simp [GameSignalDraft.key, and_assoc]

theorem SignalWaitDraft.key_eq_iff (wait : SignalWaitDraft Decimal) {key : SignalWaitKey} :
    wait.key = key ↔ ((wait.partition.ownerId = key.ownerId ∧
      wait.partition.timelineId = key.timelineId) ∧
        wait.partition.generation = key.generation) ∧ wait.waitId = key.waitId := by
  obtain ⟨⟨ownerId, timelineId, generation⟩, waitId⟩ := key
  obtain ⟨_, ⟨⟨_, _, _⟩, _, _⟩, _, _, _⟩ := wait
  simp [SignalWaitDraft.key, and_assoc]

namespace InMemorySignalStore

variable {ctx : SqliteSignalContext} {texts : Set (List UInt16)} {store : InMemorySignalStore}

theorem stored_empty : empty.Stored ctx.limits texts where
  signalKeyed _ _ h := absurd h (Option.some_ne_none _).symm
  waitKeyed _ _ h := absurd h (Option.some_ne_none _).symm
  signalOrder := .nil
  waitOrder := .nil
  signalBound _ h := absurd h List.not_mem_nil
  waitBound _ h := absurd h List.not_mem_nil
  started := ⟨Nat.le_refl 1, Nat.le_refl 1⟩
  signalNormal _ h := absurd h List.not_mem_nil
  waitNormal _ h := absurd h List.not_mem_nil
  created _ h := absurd h List.not_mem_nil
  updated _ h := absurd h List.not_mem_nil
  revised _ h := absurd h List.not_mem_nil
  matchedKey _ h := absurd h List.not_mem_nil
  named _ h := absurd h List.not_mem_nil
  signalPrints _ := rfl
  waitPrints _ := rfl
  signalTexts _ h := absurd h List.not_mem_nil
  waitTexts _ h := absurd h List.not_mem_nil

@[simp] theorem tables_empty : empty.tables ctx = .empty := rfl

theorem tables_waits (store : InMemorySignalStore) (ctx : SqliteSignalContext) :
    (store.tables ctx).waits = store.waits.values.map (SignalWaitRecord.row ctx) := rfl

/-! ### Lookups -/

namespace Stored

theorem find?_signalKey (h : store.Stored ctx.limits texts) {signal : GameSignalRecord}
    (hsignal : signal ∈ store.signals.values) :
    store.signals.values.find? (fun other => other.signalKey = signal.signalKey) = some signal := by
  obtain ⟨front, back, hvalues⟩ := List.append_of_mem hsignal
  have horder := h.signalOrder
  rw [hvalues, List.pairwise_append] at horder
  rw [hvalues, List.find?_append, List.find?_eq_none.2, Option.none_or, List.find?_cons_of_pos]
  · simp
  · intro other hother
    have hlt := horder.2.2 other hother signal (List.mem_cons_self ..)
    simpa using Nat.ne_of_lt hlt

theorem find?_waitKey (h : store.Stored ctx.limits texts) {wait : SignalWaitRecord}
    (hwait : wait ∈ store.waits.values) :
    store.waits.values.find? (fun other => other.waitKey = wait.waitKey) = some wait := by
  obtain ⟨front, back, hvalues⟩ := List.append_of_mem hwait
  have horder := h.waitOrder
  rw [hvalues, List.pairwise_append] at horder
  rw [hvalues, List.find?_append, List.find?_eq_none.2, Option.none_or, List.find?_cons_of_pos]
  · simp
  · intro other hother
    have hlt := horder.2.2 other hother wait (List.mem_cons_self ..)
    simpa using Nat.ne_of_lt hlt

theorem findSignalRow_tables (h : store.Stored ctx.limits texts) (key : GameSignalKey) :
    (store.tables ctx).findSignalRow key = (store.signals.get? key).map (GameSignalRecord.row ctx) := by
  rw [← OrderedMap.find?_values h.signalKeyed]
  unfold SqliteSignalDatabase.findSignalRow tables
  rw [List.find?_map]
  congr 2
  funext signal
  rw [Bool.eq_iff_iff]
  simp only [Function.comp, Bool.and_eq_true, decide_eq_true_eq]
  exact signal.key_eq_iff.symm

theorem findWaitRow_tables (h : store.Stored ctx.limits texts) (key : SignalWaitKey) :
    (store.tables ctx).findWaitRow key = (store.waits.get? key).map (SignalWaitRecord.row ctx) := by
  rw [← OrderedMap.find?_values h.waitKeyed]
  unfold SqliteSignalDatabase.findWaitRow tables
  rw [List.find?_map]
  congr 2
  funext wait
  rw [Bool.eq_iff_iff]
  simp only [Function.comp, Bool.and_eq_true, decide_eq_true_eq]
  exact wait.key_eq_iff.symm

theorem findSignalRowByKey_tables (h : store.Stored ctx.limits texts) {signal : GameSignalRecord}
    (hsignal : signal ∈ store.signals.values) :
    (store.tables ctx).findSignalRowByKey signal.signalKey = some (signal.row ctx) := by
  unfold SqliteSignalDatabase.findSignalRowByKey tables
  rw [List.find?_map]
  exact congrArg (Option.map (GameSignalRecord.row ctx)) (h.find?_signalKey hsignal)

theorem findWaitRowByKey_tables (h : store.Stored ctx.limits texts) {wait : SignalWaitRecord}
    (hwait : wait ∈ store.waits.values) :
    (store.tables ctx).findWaitRowByKey wait.waitKey = some (wait.row ctx) := by
  unfold SqliteSignalDatabase.findWaitRowByKey tables
  rw [List.find?_map]
  exact congrArg (Option.map (SignalWaitRecord.row ctx)) (h.find?_waitKey hwait)

/-! ### Hydration -/

/-- A signal is read back as its record. -/
theorem hydrateSignal_tables (h : store.Stored ctx.limits texts) {signal : GameSignalRecord}
    (hsignal : signal ∈ store.signals.values) {database : SqliteSignalDatabase}
    (hsubjects : database.subjects = (store.tables ctx).subjects)
    (hcauses : database.causes = (store.tables ctx).causes) :
    SqliteSignalDatabase.hydrateSignal ctx database (signal.row ctx) = .ok signal := by
  have hnormal := h.signalNormal signal hsignal
  have hreadSubjects := @readIdentifiers_perm _ GameSignalRecord.signalKey
    (fun s => s.subjectIds) _ h.signalOrder _ hsignal
  have hreadCauses := @readIdentifiers_perm _ GameSignalRecord.signalKey
    (fun s => s.causeIds) _ h.signalOrder _ hsignal
  have hdraft := normalizeGameSignal_reread hnormal hreadSubjects hreadCauses
  unfold SqliteSignalDatabase.hydrateSignal
  rw [hsubjects, hcauses]
  simp only [bind_eq_ok, exists_const, demand_eq_ok, return_eq_ok, decide_eq_true_eq]
  exact ⟨(h.signalBound signal hsignal).1, _, hnormal.partition, _, hdraft, rfl, rfl⟩

/-- What hydration checks of a wait before its match. -/
theorem hydrateWait_eq (h : store.Stored ctx.limits texts) {wait : SignalWaitRecord}
    (hwait : wait ∈ store.waits.values) {database : SqliteSignalDatabase}
    (hkinds : database.waitKinds = (store.tables ctx).waitKinds)
    (hsubjects : database.waitSubjects = (store.tables ctx).waitSubjects)
    (hmatch : SqliteSignalDatabase.checkMatch ctx database wait = .ok ()) :
    SqliteSignalDatabase.hydrateWait ctx database (wait.row ctx) = .ok wait := by
  have hnormal := h.waitNormal wait hwait
  have hreadKinds := @readIdentifiers_perm _ SignalWaitRecord.waitKey
    (fun w => w.selector.kinds) _ h.waitOrder _ hwait
  have hreadSubjects := @readIdentifiers_perm _ SignalWaitRecord.waitKey
    (fun w => w.selector.subjectIdsAny.getD []) _ h.waitOrder _ hwait
  have hdraft := normalizeSignalWait_reread hnormal hreadKinds hreadSubjects
  have hcreated := h.created wait hwait
  unfold SqliteSignalDatabase.hydrateWait
  rw [hkinds, hsubjects]
  simp only [bind_eq_ok, exists_const, demand_eq_ok, return_eq_ok, decide_eq_true_eq,
    validateSignalTimestamp_eq_ok]
  refine ⟨(h.waitBound wait hwait).1, _, hnormal.partition, wait.toSignalWaitDraft, ?_, wait.revision,
    validateSignalDecimal_text _ _, h.revised wait hwait, (h.updated wait hwait).1,
    (h.updated wait hwait).2, rfl, (), hmatch, rfl⟩
  rw [← hdraft]
  show normalizeSignalWait ⟨_, _, _, _, wait.createdAt⟩ _ = _
  rw [hcreated]
  rfl

/-- A wait that waits is read back as its record, whatever the other tables hold. -/
theorem hydrateWait_waiting (h : store.Stored ctx.limits texts) {wait : SignalWaitRecord}
    (hwait : wait ∈ store.waits.values) (hstatus : wait.status ≠ .matched)
    {database : SqliteSignalDatabase}
    (hkinds : database.waitKinds = (store.tables ctx).waitKinds)
    (hsubjects : database.waitSubjects = (store.tables ctx).waitSubjects) :
    SqliteSignalDatabase.hydrateWait ctx database (wait.row ctx) = .ok wait := by
  refine h.hydrateWait_eq hwait hkinds hsubjects ?_
  have hnone := mt (h.matchedKey wait hwait).2 hstatus
  unfold SqliteSignalDatabase.checkMatch
  rw [if_neg hstatus, demand_eq_ok]
  simpa using hnone

/-- A wait is read back as its record. -/
theorem hydrateWait_tables (h : store.Stored ctx.limits texts) {wait : SignalWaitRecord}
    (hwait : wait ∈ store.waits.values) :
    SqliteSignalDatabase.hydrateWait ctx (store.tables ctx) (wait.row ctx) = .ok wait := by
  by_cases hstatus : wait.status = .matched
  · obtain ⟨signalKey, hkey⟩ := Option.isSome_iff_exists.1 ((h.matchedKey wait hwait).1 hstatus)
    obtain ⟨signal, hsignal, rfl, hmatches⟩ := h.named wait hwait signalKey hkey
    refine h.hydrateWait_eq hwait rfl rfl ?_
    have hgeneration : sameSignalGeneration wait.partition.toScheduleGeneration
        signal.partition.toScheduleGeneration = true := by
      unfold signalWaitMatches at hmatches
      simp only [Bool.and_eq_true] at hmatches
      exact hmatches.1.1.1.1.1.1.1
    unfold SqliteSignalDatabase.checkMatch
    rw [if_pos hstatus, hkey, Option.bind_some, h.findSignalRowByKey_tables hsignal]
    simp only [bind_eq_ok, demand_eq_ok, Bool.and_eq_true]
    exact ⟨signal, h.hydrateSignal_tables hsignal rfl rfl, hgeneration, hmatches⟩
  · exact h.hydrateWait_waiting hwait hstatus rfl rfl

/-! ### Selections -/

variable (ctx) in
/-- The rows a selection joins are the subjects that wait and signal share. -/
theorem exists_joined_iff (h : store.Stored ctx.limits texts) {wait : SignalWaitRecord}
    (hwait : wait ∈ store.waits.values) {signal : GameSignalRecord}
    (hsignal : signal ∈ store.signals.values) :
    (∃ joined ∈ (store.tables ctx).waitSubjects.product (store.tables ctx).subjects,
      joined.2.identifier = joined.1.identifier ∧ joined.1.key = wait.waitKey ∧
        joined.2.key = signal.signalKey) ↔
      ∃ value ∈ wait.selector.subjectIdsAny.getD [], value ∈ signal.subjectIds := by
  have hwaits := @exists_row_iff _ SignalWaitRecord.waitKey
    (fun w => w.selector.subjectIdsAny.getD []) _ h.waitOrder _ hwait
  have hsignals := @exists_row_iff _ GameSignalRecord.signalKey (fun s => s.subjectIds) _
    h.signalOrder _ hsignal
  constructor
  · rintro ⟨⟨left, right⟩, hjoined, hsame, hleft, hright⟩
    obtain ⟨hmemLeft, hmemRight⟩ := List.mem_product.1 hjoined
    exact ⟨left.identifier, hwaits.1 ⟨left, hmemLeft, hleft, rfl⟩,
      hsignals.1 ⟨right, hmemRight, hright, hsame⟩⟩
  · rintro ⟨value, hany, hsubject⟩
    obtain ⟨left, hmemLeft, hleft, rfl⟩ := hwaits.2 hany
    obtain ⟨right, hmemRight, hright, hsame⟩ := hsignals.2 hsubject
    exact ⟨(left, right), List.mem_product.2 ⟨hmemLeft, hmemRight⟩, hsame, hleft, hright⟩

variable (ctx) in
/-- Do the kinds and the subjects of a wait take a signal? -/
theorem holds_selector (h : store.Stored ctx.limits texts) {wait : SignalWaitRecord}
    (hwait : wait ∈ store.waits.values) {signal : GameSignalRecord}
    (hsignal : signal ∈ store.signals.values) :
    ((sqlExists (store.tables ctx).waitKinds fun kinds =>
        (sqlEq (some kinds.key) (some wait.waitKey)).and
          (sqlEq (some kinds.identifier) (some signal.kind))).and <|
      (Truth.not (sqlExists (store.tables ctx).waitSubjects fun subjects =>
          sqlEq (some subjects.key) (some wait.waitKey))).or
        (sqlExists ((store.tables ctx).waitSubjects.product (store.tables ctx).subjects)
          fun joined =>
            (sqlEq (some joined.2.identifier) (some joined.1.identifier)).and <|
            (sqlEq (some joined.1.key) (some wait.waitKey)).and
              (sqlEq (some joined.2.key) (some signal.signalKey)))).holds =
      (wait.selector.kinds.contains signal.kind &&
        (wait.selector.subjectIdsAny.all fun subjects =>
          subjects.any fun subjectId => signal.subjectIds.contains subjectId)) := by
  have hkinds := @exists_row_iff _ SignalWaitRecord.waitKey (fun w => w.selector.kinds) _
    h.waitOrder _ hwait signal.kind
  have hjoined := h.exists_joined_iff ctx hwait hsignal
  have hsome : (∃ row ∈ (store.tables ctx).waitSubjects, row.key = wait.waitKey) ↔
      wait.selector.subjectIdsAny ≠ none := by
    constructor
    · rintro ⟨row, hrow, hkey⟩ hnone
      have hmem := (@exists_row_iff _ SignalWaitRecord.waitKey
        (fun w => w.selector.subjectIdsAny.getD []) _ h.waitOrder _ hwait row.identifier).1
          ⟨row, hrow, hkey, rfl⟩
      simp [hnone] at hmem
    · intro hne
      obtain ⟨subjects, hsubjects⟩ := Option.ne_none_iff_exists'.1 hne
      obtain ⟨hnonempty, -⟩ := (h.waitNormal wait hwait).subjects subjects hsubjects
      obtain ⟨value, rest, rfl⟩ := List.exists_cons_of_ne_nil hnonempty
      obtain ⟨row, hrow, hkey, -⟩ := (@exists_row_iff _ SignalWaitRecord.waitKey
        (fun w => w.selector.subjectIdsAny.getD []) _ h.waitOrder _ hwait value).2 (by
          rw [hsubjects]
          exact List.mem_cons_self ..)
      exact ⟨row, hrow, hkey⟩
  rw [Bool.eq_iff_iff]
  simp only [Truth.holds_and, Truth.holds_or, holds_sqlExists, holds_not_sqlExists,
    holds_sqlEq_some, Bool.and_eq_true, Bool.or_eq_true, List.any_eq_true, Bool.not_eq_true',
    Bool.eq_false_iff, decide_eq_true_eq, Option.some.injEq, ne_eq, List.contains_iff_mem]
  have hfound : (∃ row ∈ (store.tables ctx).waitKinds, row.key = wait.waitKey ∧
      row.identifier = signal.kind) ↔ signal.kind ∈ wait.selector.kinds := hkinds
  rw [hfound, hsome, hjoined]
  refine and_congr_right fun _ => ?_
  cases wait.selector.subjectIdsAny with
  | none => simp
  | some subjects => simp

/-- The selection of the waits that a signal wakes. -/
theorem holds_matchingWait (h : store.Stored ctx.limits texts) {wait : SignalWaitRecord}
    (hwait : wait ∈ store.waits.values) {signal : GameSignalRecord}
    (hsignal : signal ∈ store.signals.values) :
    ((store.tables ctx).matchingWait (signal.row ctx) (wait.row ctx)).holds =
      (decide (wait.status = .waiting) && signalWaitMatches wait.toSignalWaitDraft signal) := by
  have hselector := h.holds_selector ctx hwait hsignal
  simp only [Truth.holds_and] at hselector
  simp only [SqliteSignalDatabase.matchingWait, SignalWaitRecord.row, GameSignalRecord.row,
    SqliteSignalDatabase.waitRow, SqliteSignalDatabase.signalRow, Truth.holds_and, hselector,
    holds_sqlEq_some, holds_null_or_eq, holds_null_or_compare, holds_afterTick, holds_throughTick,
    Option.some.injEq, signalWaitMatches, sameSignalGeneration, Bool.and_assoc]
  ac_rfl

/-- The selection of the signals that a wait matches. -/
theorem holds_matchingSignal (h : store.Stored ctx.limits texts) {wait : SignalWaitRecord}
    (hwait : wait ∈ store.waits.values) {signal : GameSignalRecord}
    (hsignal : signal ∈ store.signals.values) :
    ((store.tables ctx).matchingSignal (wait.row ctx) (signal.row ctx)).holds =
      signalWaitMatches wait.toSignalWaitDraft signal := by
  have hselector := h.holds_selector ctx hwait hsignal
  simp only [Truth.holds_and] at hselector
  simp only [SqliteSignalDatabase.matchingSignal, SignalWaitRecord.row, GameSignalRecord.row,
    SqliteSignalDatabase.waitRow, SqliteSignalDatabase.signalRow, Truth.holds_and, hselector,
    holds_sqlEq_some, holds_null_or_eq', holds_null_or_compare', holds_afterTick, holds_throughTick,
    Option.some.injEq, signalWaitMatches, sameSignalGeneration, Bool.and_assoc, gt_iff_lt,
    @eq_comm _ signal.partition.ownerId, @eq_comm _ signal.partition.timelineId,
    @eq_comm _ signal.partition.generation]
  ac_rfl

end Stored

end InMemorySignalStore

end OpenGameAgent
