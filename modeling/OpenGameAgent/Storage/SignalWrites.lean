import OpenGameAgent.Storage.SignalReads

/-!
# Closing and purging in either store

The methods that write to what is stored already, on an in-memory store and on its tables.

* `Stored.rewritten`, `tables_rewritten` — waits that change where they stand.
* `rewriteRows_tables` — the loop over waiting rows writes what the loop over waits writes.
* `cancelWait_mirrors`, `expireWaits_mirrors`, `purgeTerminalWaits_mirrors`,
  `purgeSignals_mirrors` — the methods.
-/

namespace OpenGameAgent

/-- The wait when it is cancelled or expires. -/
def SignalWaitRecord.closedAt (wait : SignalWaitRecord) (status : SignalWaitStatus)
    (recordedAt : String) : SignalWaitRecord :=
  { wait with
    status := status
    revision := wait.revision.next
    updatedAt := if wait.updatedAt < recordedAt then recordedAt else wait.updatedAt }

namespace InMemorySignalStore

variable {ctx : SqliteSignalContext} {texts : Set (List UInt16)} {store : InMemorySignalStore}

/-! ## Updates -/

/-- What a stored wait may be rewritten to. -/
structure Rewrites (limits : SignalLimits) (store : InMemorySignalStore)
    (wait next : SignalWaitRecord) : Prop where
  draft : next.toSignalWaitDraft = wait.toSignalWaitDraft
  waitKey : next.waitKey = wait.waitKey
  created : next.createdAt = wait.createdAt
  updated : isCanonicalTimestamp next.updatedAt = true ∧ ¬ next.updatedAt < next.createdAt
  revised : 1 ≤ next.revision.value
  matchedKey : next.status = .matched ↔ next.matchedSignalKey.isSome = true
  named : ∀ signalKey, next.matchedSignalKey = some signalKey →
    ∃ signal ∈ store.signals.values, signal.signalKey = signalKey ∧
      signalWaitMatches next.toSignalWaitDraft signal = true

/-- The store with its waits rewritten. -/
def rewritten (store : InMemorySignalStore)
    (f : SignalWaitKey → SignalWaitRecord → SignalWaitRecord) : InMemorySignalStore :=
  { store with waits := store.waits.mapEntries f }

theorem values_rewritten (f : SignalWaitKey → SignalWaitRecord → SignalWaitRecord) :
    (store.rewritten f).waits.values = store.waits.entries.map fun e => f e.1 e.2 :=
  OrderedMap.values_mapEntries _ _

theorem Stored.rewrites_self (h : store.Stored ctx.limits texts) {wait : SignalWaitRecord}
    (hwait : wait ∈ store.waits.values) : Rewrites ctx.limits store wait wait where
  draft := rfl
  waitKey := rfl
  created := rfl
  updated := h.updated wait hwait
  revised := h.revised wait hwait
  matchedKey := h.matchedKey wait hwait
  named := h.named wait hwait

/-- A store stays well kept when its waits are rewritten. -/
theorem Stored.rewritten (h : store.Stored ctx.limits texts)
    {f : SignalWaitKey → SignalWaitRecord → SignalWaitRecord}
    (hf : ∀ e ∈ store.waits.entries, Rewrites ctx.limits store e.2 (f e.1 e.2)) :
    (store.rewritten f).Stored ctx.limits texts := by
  have hget : ∀ key next, (store.rewritten f).waits.get? key = some next →
      ∃ wait, store.waits.get? key = some wait ∧ next = f key wait ∧
        Rewrites ctx.limits store wait next := by
    intro key next hnext
    have hmap : (store.waits.mapEntries f).get? key = some next := hnext
    rw [OrderedMap.get?_mapEntries, Option.map_eq_some_iff] at hmap
    obtain ⟨wait, hwait, rfl⟩ := hmap
    exact ⟨wait, hwait, rfl, hf (key, wait) (OrderedMap.get?_eq_some_iff.1 hwait)⟩
  have hvalue : ∀ next ∈ (store.rewritten f).waits.values,
      ∃ wait ∈ store.waits.values, Rewrites ctx.limits store wait next := by
    intro next hnext
    obtain ⟨key, hkey⟩ := OrderedMap.mem_values.1 hnext
    obtain ⟨wait, hwait, -, hrewrites⟩ := hget key next hkey
    exact ⟨wait, OrderedMap.mem_values.2 ⟨key, hwait⟩, hrewrites⟩
  constructor
  case signalKeyed => exact h.signalKeyed
  case signalOrder => exact h.signalOrder
  case signalBound => exact h.signalBound
  case started => exact h.started
  case signalNormal => exact h.signalNormal
  case signalPrints => exact h.signalPrints
  case signalTexts => exact h.signalTexts
  case waitKeyed =>
    intro key next hnext
    obtain ⟨wait, hwait, -, hrewrites⟩ := hget key next hnext
    rw [hrewrites.draft]
    exact h.waitKeyed key wait hwait
  case waitOrder =>
    have horder := h.waitOrder
    rw [values_rewritten, List.pairwise_map]
    unfold OrderedMap.values at horder
    rw [List.pairwise_map] at horder
    refine horder.imp_of_mem fun ha hb hlt => ?_
    rw [(hf _ ha).waitKey, (hf _ hb).waitKey]
    exact hlt
  case waitBound =>
    intro next hnext
    obtain ⟨wait, hwait, hrewrites⟩ := hvalue next hnext
    rw [hrewrites.waitKey]
    exact h.waitBound wait hwait
  case waitNormal =>
    intro next hnext
    obtain ⟨wait, hwait, hrewrites⟩ := hvalue next hnext
    rw [hrewrites.draft]
    exact h.waitNormal wait hwait
  case created =>
    intro next hnext
    obtain ⟨wait, hwait, hrewrites⟩ := hvalue next hnext
    rw [hrewrites.created, h.created wait hwait, hrewrites.draft]
  case updated =>
    intro next hnext
    obtain ⟨wait, hwait, hrewrites⟩ := hvalue next hnext
    exact hrewrites.updated
  case revised =>
    intro next hnext
    obtain ⟨wait, hwait, hrewrites⟩ := hvalue next hnext
    exact hrewrites.revised
  case matchedKey =>
    intro next hnext
    obtain ⟨wait, hwait, hrewrites⟩ := hvalue next hnext
    exact hrewrites.matchedKey
  case named =>
    intro next hnext
    obtain ⟨wait, hwait, hrewrites⟩ := hvalue next hnext
    exact hrewrites.named
  case waitPrints =>
    intro key
    show store.waitFingerprints.get? key = _
    rw [h.waitPrints]
    show _ = ((store.waits.mapEntries f).get? key).map _
    rw [OrderedMap.get?_mapEntries, Option.map_map]
    cases hwait : store.waits.get? key with
    | none => rfl
    | some wait =>
      have hrewrites := hf (key, wait) (OrderedMap.get?_eq_some_iff.1 hwait)
      simp only [Option.map_some, Function.comp_apply]
      rw [hrewrites.draft]
  case waitTexts =>
    intro next hnext
    obtain ⟨wait, hwait, hrewrites⟩ := hvalue next hnext
    rw [hrewrites.draft]
    exact h.waitTexts wait hwait

/-- Rewriting waits changes only the rows of waits. -/
theorem tables_rewritten {f : SignalWaitKey → SignalWaitRecord → SignalWaitRecord}
    (hf : ∀ e ∈ store.waits.entries, Rewrites ctx.limits store e.2 (f e.1 e.2)) :
    (store.rewritten f).tables ctx = { store.tables ctx with
      waits := (store.waits.entries.map fun e => f e.1 e.2).map (SignalWaitRecord.row ctx) } := by
  have htable : ∀ ids : SignalWaitRecord → List String,
      (∀ wait next, next.toSignalWaitDraft = wait.toSignalWaitDraft → ids next = ids wait) →
      identifierTable SignalWaitRecord.waitKey ids (store.rewritten f).waits.values =
        identifierTable SignalWaitRecord.waitKey ids store.waits.values := by
    intro ids hids
    rw [values_rewritten]
    unfold identifierTable OrderedMap.values
    rw [List.flatMap_map, List.flatMap_map]
    refine List.flatMap_congr fun e he => ?_
    rw [(hf e he).waitKey, hids _ _ (hf e he).draft]
  have hkinds := htable (fun wait => wait.selector.kinds) fun wait next hdraft => by rw [hdraft]
  have hsubjects := htable (fun wait => wait.selector.subjectIdsAny.getD [])
    fun wait next hdraft => by rw [hdraft]
  unfold tables
  rw [hkinds, hsubjects, values_rewritten]
  rfl

/-! ### The rows of rewritten waits -/

theorem Stored.waitKey_injective (h : store.Stored ctx.limits texts) {wait other : SignalWaitRecord}
    (hwait : wait ∈ store.waits.values) (hother : other ∈ store.waits.values)
    (hkey : wait.waitKey = other.waitKey) : wait = other :=
  eq_of_same_order h.waitOrder hwait hother hkey

/-- One row of a wait is written. -/
theorem updateWait_eq {database : SqliteSignalDatabase} {waits : List SignalWaitRecord}
    (hwaits : database.waits = waits.map (SignalWaitRecord.row ctx))
    (horder : waits.Pairwise fun a b => a.waitKey < b.waitKey) {wait next : SignalWaitRecord}
    (hwait : wait ∈ waits) (selected : SignalWaitRow → Bool)
    (change : SignalWaitRow → SignalWaitRow)
    (hselected : ∀ other ∈ waits, selected (other.row ctx) = decide (other.waitKey = wait.waitKey))
    (hchange : change (wait.row ctx) = next.row ctx)
    (hallowed : database.allowsWait (next.row ctx) = true) :
    database.updateWait selected change = .ok { database with
      waits := (waits.map fun other => if other.waitKey = wait.waitKey then next else other).map
        (SignalWaitRecord.row ctx) } := by
  have honly : database.waits.filter selected = [wait.row ctx] := by
    have hfound : waits.filter (fun other => decide (other.waitKey = wait.waitKey)) = [wait] := by
      obtain ⟨front, back, rfl⟩ := List.append_of_mem hwait
      rw [List.pairwise_append, List.pairwise_cons] at horder
      have hfront : front.filter (fun other => decide (other.waitKey = wait.waitKey)) = [] := by
        rw [List.filter_eq_nil_iff]
        intro other hother
        have hlt := horder.2.2 other hother wait (List.mem_cons_self ..)
        simpa using Nat.ne_of_lt hlt
      have hback : back.filter (fun other => decide (other.waitKey = wait.waitKey)) = [] := by
        rw [List.filter_eq_nil_iff]
        intro other hother
        have hlt := horder.2.1.1 other hother
        simpa using Nat.ne_of_gt hlt
      rw [List.filter_append, List.filter_cons_of_pos (by simp), hfront, hback]
      rfl
    rw [hwaits, List.filter_map]
    have hsame : waits.filter (selected ∘ SignalWaitRecord.row ctx) =
        waits.filter fun other => decide (other.waitKey = wait.waitKey) :=
      List.filter_congr fun other hother => hselected other hother
    rw [hsame, hfound]
    rfl
  unfold SqliteSignalDatabase.updateWait
  rw [honly]
  simp only [bind_eq_ok, exists_const, demand_eq_ok, return_eq_ok, List.all_cons, List.all_nil,
    Bool.and_true, hchange]
  refine ⟨hallowed, rfl, ?_⟩
  congr 1
  rw [hwaits, List.map_map, List.map_map]
  refine List.map_congr_left fun other hother => ?_
  simp only [Function.comp_apply, hselected other hother, decide_eq_true_eq]
  by_cases hkey : other.waitKey = wait.waitKey
  · obtain rfl := eq_of_same_order horder hother hwait hkey
    simp only [if_true, hchange]
  · simp only [hkey, if_false]

/-- The loops over waiting rows write what a function makes of the waits. -/
theorem Stored.rewriteRows_eq (h : store.Stored ctx.limits texts)
    {f : SignalWaitRecord → SignalWaitRecord} {recordedAt : String}
    (hnow : isCanonicalTimestamp recordedAt = true)
    {change : String → String → SignalWaitRow → SignalWaitRow}
    (hchange : ∀ wait, change wait.revision.next.text
      (if wait.updatedAt < recordedAt then recordedAt else wait.updatedAt) (wait.row ctx) =
        (f wait).row ctx) (hkey : ∀ wait, (f wait).waitKey = wait.waitKey)
    {selected : List SignalWaitRecord}
    (hmem : ∀ wait ∈ selected, wait ∈ store.waits.values ∧ wait.status = .waiting)
    (hnodup : (selected.map SignalWaitRecord.waitKey).Nodup) {database : SqliteSignalDatabase}
    (hkinds : database.waitKinds = (store.tables ctx).waitKinds)
    (hsubjects : database.waitSubjects = (store.tables ctx).waitSubjects)
    (hallowed : ∀ wait ∈ selected, database.allowsWait ((f wait).row ctx) = true)
    {g : SignalWaitRecord → SignalWaitRecord} (hg : ∀ wait, (g wait).waitKey = wait.waitKey)
    (hkept : ∀ wait ∈ selected, g wait = wait)
    (hwaits : database.waits = (store.waits.values.map g).map (SignalWaitRecord.row ctx)) :
    SqliteSignalDatabase.rewriteRows ctx recordedAt change
        (selected.map (SignalWaitRecord.row ctx)) database =
      .ok { database with
        waits := (store.waits.values.map fun wait =>
          if wait.waitKey ∈ selected.map SignalWaitRecord.waitKey then f wait else g wait).map
            (SignalWaitRecord.row ctx) } := by
  induction selected generalizing database g with
  | nil =>
    simp only [List.map_nil, List.not_mem_nil, if_false]
    rw [← hwaits]
    rfl
  | cons wait rest ih =>
    obtain ⟨hwait, hwaiting⟩ := hmem wait (List.mem_cons_self ..)
    rw [List.map_cons, List.nodup_cons] at hnodup
    have hhydrate := h.hydrateWait_waiting hwait (by rw [hwaiting]; decide) hkinds hsubjects
    have hrevision : SqliteSignalDatabase.nextRevision wait.revision.text =
        .ok wait.revision.next.text := by
      unfold SqliteSignalDatabase.nextRevision
      rw [validateSignalDecimal_text]
      rfl
    have hlater := laterSignalTimestamp_eq_ok.2 ⟨(h.updated wait hwait).1, hnow, rfl⟩
    have hsame : ∀ other ∈ store.waits.values, other.waitKey = wait.waitKey → other = wait :=
      fun other hother heq => h.waitKey_injective hother hwait heq
    have horder : (store.waits.values.map g).Pairwise fun a b => a.waitKey < b.waitKey := by
      rw [List.pairwise_map]
      simpa only [hg] using h.waitOrder
    have hg_self : g wait = wait := hkept wait (List.mem_cons_self ..)
    have hmemg : wait ∈ store.waits.values.map g := List.mem_map.2 ⟨wait, hwait, hg_self⟩
    have hselected : ∀ other ∈ store.waits.values.map g,
        SqliteSignalDatabase.waitingAt wait.waitKey wait.revision.text (other.row ctx) =
          decide (other.waitKey = wait.waitKey) := by
      intro other hother
      obtain ⟨source, hsource, rfl⟩ := List.mem_map.1 hother
      unfold SqliteSignalDatabase.waitingAt
      show (decide ((g source).waitKey = wait.waitKey) && decide ((g source).status = _) &&
        decide ((g source).revision.text = _)) = _
      by_cases heq : (g source).waitKey = wait.waitKey
      · obtain rfl := hsame source hsource ((hg source).symm.trans heq)
        simp [hg_self, hwaiting]
      · simp [heq]
    have hupdate := updateWait_eq hwaits horder hmemg _ _ hselected (hchange wait)
      (hallowed wait (List.mem_cons_self ..))
    generalize hwritten : ({ database with
      waits := ((store.waits.values.map g).map fun other : SignalWaitRecord =>
        if other.waitKey = wait.waitKey then f wait else other).map
          (SignalWaitRecord.row ctx) } : SqliteSignalDatabase) = written at hupdate
    have hg' : ∀ other, (if other.waitKey = wait.waitKey then f wait else g other).waitKey =
        other.waitKey := by
      intro other
      by_cases heq : other.waitKey = wait.waitKey
      · rw [if_pos heq, hkey, heq]
      · rw [if_neg heq, hg]
    have hkept' : ∀ other ∈ rest,
        (if other.waitKey = wait.waitKey then f wait else g other) = other := by
      intro other hother
      have hne : other.waitKey ≠ wait.waitKey :=
        fun heq => hnodup.1 (List.mem_map.2 ⟨other, hother, heq⟩)
      rw [if_neg hne]
      exact hkept other (List.mem_cons_of_mem _ hother)
    have hwaits' : written.waits = (store.waits.values.map fun other =>
        if other.waitKey = wait.waitKey then f wait else g other).map
          (SignalWaitRecord.row ctx) := by
      rw [← hwritten]
      show ((store.waits.values.map g).map _).map _ = _
      refine congrArg (List.map (SignalWaitRecord.row ctx)) ?_
      rw [List.map_map]
      refine List.map_congr_left fun other _ => ?_
      simp only [Function.comp_apply, hg]
    have hnext := ih (fun other hother => hmem other (List.mem_cons_of_mem _ hother)) hnodup.2
      (by rw [← hwritten]; exact hkinds) (by rw [← hwritten]; exact hsubjects)
      (fun other hother => by
        rw [← hwritten]
        exact hallowed other (List.mem_cons_of_mem _ hother)) hg' hkept' hwaits'
    have hrow : (wait.row ctx).revision = wait.revision.text := rfl
    rw [List.map_cons]
    unfold SqliteSignalDatabase.rewriteRows
    simp only [hhydrate, hrow, hrevision, SqliteSignalDatabase.checked_ok, ok_bind]
    show (SqliteSignalDatabase.checked (laterSignalTimestamp wait.updatedAt recordedAt) >>= _) = _
    rw [hlater, SqliteSignalDatabase.checked_ok, ok_bind]
    show (database.updateWait (SqliteSignalDatabase.waitingAt wait.waitKey _) _ >>= _) = _
    rw [hupdate, ok_bind, hnext, ← hwritten]
    congr 2
    refine congrArg _ (List.map_congr_left fun other hother => ?_)
    by_cases hrest : other.waitKey ∈ rest.map SignalWaitRecord.waitKey
    · have hin : other.waitKey ∈ (wait :: rest).map SignalWaitRecord.waitKey :=
        List.mem_cons_of_mem _ hrest
      rw [if_pos hrest, if_pos hin]
    · rw [if_neg hrest]
      by_cases heq : other.waitKey = wait.waitKey
      · obtain rfl := hsame other hother heq
        have hin : other.waitKey ∈ (other :: rest).map SignalWaitRecord.waitKey :=
          List.mem_cons_self ..
        rw [if_pos rfl, if_pos hin]
      · have hnot : other.waitKey ∉ (wait :: rest).map SignalWaitRecord.waitKey :=
          fun hin => (List.mem_cons.1 hin).elim heq hrest
        rw [if_neg heq, if_neg hnot]

/-! ### Closing waits -/

namespace Stored

/-- Which entries a list of entries has, by their keys and by the keys of their waits. -/
theorem mem_map_waitKey_iff (h : store.Stored ctx.limits texts)
    {l : List (SignalWaitKey × SignalWaitRecord)}
    (hentries : ∀ e ∈ l, e ∈ store.waits.entries) {e : SignalWaitKey × SignalWaitRecord}
    (he : e ∈ store.waits.entries) :
    e.2.waitKey ∈ (l.map Prod.snd).map SignalWaitRecord.waitKey ↔
      e.1 ∈ l.map Prod.fst := by
  rw [OrderedMap.mem_map_fst_iff hentries he]
  constructor
  · intro hkey
    obtain ⟨wait, hwait, heq⟩ := List.mem_map.1 hkey
    obtain ⟨other, hother, rfl⟩ := List.mem_map.1 hwait
    have hsame := h.waitKey_injective (mem_values_of_entry (hentries other hother))
      (mem_values_of_entry he) heq
    have hleft := h.waitKeyed _ _ (OrderedMap.get?_eq_some_iff.2 (hentries other hother))
    have hright := h.waitKeyed _ _ (OrderedMap.get?_eq_some_iff.2 he)
    have hpair : other = e := Prod.ext (by rw [← hleft, ← hright, hsame]) hsame
    exact hpair ▸ hother
  · intro hin
    exact List.mem_map_of_mem (List.mem_map_of_mem hin)

/-- Waits that are rewritten by their loop in the store are rewritten by it in the tables. -/
theorem rewriteRows_tables (h : store.Stored ctx.limits texts)
    {f : SignalWaitRecord → SignalWaitRecord} {recordedAt : String}
    (hnow : isCanonicalTimestamp recordedAt = true)
    {change : String → String → SignalWaitRow → SignalWaitRow}
    (hchange : ∀ wait, change wait.revision.next.text
      (if wait.updatedAt < recordedAt then recordedAt else wait.updatedAt) (wait.row ctx) =
        (f wait).row ctx)
    {l : List (SignalWaitKey × SignalWaitRecord)}
    (hmem : ∀ e ∈ l, e ∈ store.waits.entries ∧ e.2.status = .waiting)
    (hnodup : (l.map Prod.fst).Nodup)
    (hallowed : ∀ e ∈ l, (store.tables ctx).allowsWait ((f e.2).row ctx) = true)
    (hrewrites : ∀ e ∈ l, Rewrites ctx.limits store e.2 (f e.2))
    (hkey : ∀ wait, (f wait).waitKey = wait.waitKey) :
    (store.rewritten fun key wait =>
        if key ∈ l.map Prod.fst then f wait else wait).Stored ctx.limits texts ∧
      SqliteSignalDatabase.rewriteRows ctx recordedAt change
          ((l.map Prod.snd).map (SignalWaitRecord.row ctx)) (store.tables ctx) =
        .ok ((store.rewritten fun key wait =>
          if key ∈ l.map Prod.fst then f wait else wait).tables ctx) := by
  have hentries : ∀ e ∈ l, e ∈ store.waits.entries := fun e he => (hmem e he).1
  have hall : ∀ e ∈ store.waits.entries, Rewrites ctx.limits store e.2
      (if e.1 ∈ l.map Prod.fst then f e.2 else e.2) := by
    intro e he
    by_cases hin : e.1 ∈ l.map Prod.fst
    · rw [if_pos hin]
      exact hrewrites e ((OrderedMap.mem_map_fst_iff hentries he).1 hin)
    · rw [if_neg hin]
      exact h.rewrites_self (mem_values_of_entry he)
  have hkeys : ((l.map Prod.snd).map SignalWaitRecord.waitKey).Nodup := by
    rw [List.map_map]
    refine (List.nodup_map_iff_inj_on (List.Nodup.of_map _ hnodup)).2 ?_
    intro left hleft right hright heq
    have hin := (h.mem_map_waitKey_iff (l := [right]) (fun e he => ?_)
      (hentries left hleft)).1 ?_
    · simp only [List.map_cons, List.map_nil, List.mem_singleton] at hin
      exact (List.inj_on_of_nodup_map hnodup) hleft hright hin
    · rw [List.mem_singleton.1 he]
      exact hentries right hright
    · simpa using heq
  have hrows := h.rewriteRows_eq hnow hchange hkey
    (fun wait hwait => by
      obtain ⟨e, he, rfl⟩ := List.mem_map.1 hwait
      exact ⟨mem_values_of_entry (hentries e he), (hmem e he).2⟩)
    hkeys rfl rfl
    (fun wait hwait => by
      obtain ⟨e, he, rfl⟩ := List.mem_map.1 hwait
      exact hallowed e he)
    (g := id) (fun _ => rfl) (fun _ _ => rfl) (by rw [List.map_id]; rfl)
  refine ⟨h.rewritten hall, ?_⟩
  rw [hrows, tables_rewritten hall]
  congr 2
  refine congrArg (List.map (SignalWaitRecord.row ctx)) ?_
  unfold OrderedMap.values
  rw [List.map_map]
  refine List.map_congr_left fun e he => ?_
  simp only [Function.comp_apply, h.mem_map_waitKey_iff hentries he, id_eq]

theorem holds_expiringWait {partition : SignalGeneration} {through : Decimal}
    {wait : SignalWaitRecord} :
    (SqliteSignalDatabase.expiringWait partition through.text (wait.row ctx)).holds =
      (decide (wait.status = .waiting) &&
        sameSignalGeneration wait.partition.toScheduleGeneration partition &&
        wait.selector.throughTickInclusive.any fun tick =>
          decide (compareSignalTicks tick through ≠ .gt)) := by
  have htick : ((Truth.not (sqlIsNull (wait.selector.throughTickInclusive.map Decimal.text))).and
      (sqlTickLe (wait.selector.throughTickInclusive.map Decimal.text) (some through.text))).holds =
        wait.selector.throughTickInclusive.any fun tick =>
          decide (compareSignalTicks tick through ≠ .gt) := by
    cases wait.selector.throughTickInclusive with
    | none => rfl
    | some tick => simp [sqlIsNull, holds_tickLe]
  unfold SqliteSignalDatabase.expiringWait SqliteSignalDatabase.inGeneration
  simp only [Truth.holds_and, holds_sqlEq_some, Option.some.injEq] at htick ⊢
  simp only [SignalWaitRecord.row, SqliteSignalDatabase.waitRow, htick, sameSignalGeneration]
  ac_rfl

/-- A wait that is closed is rewritten. -/
theorem rewrites_closed (h : store.Stored ctx.limits texts) {wait : SignalWaitRecord}
    (hwait : wait ∈ store.waits.values) (hwaiting : wait.status = .waiting)
    {status : SignalWaitStatus} (hstatus : status ≠ .matched) {recordedAt : String}
    (hnow : isCanonicalTimestamp recordedAt = true) :
    Rewrites ctx.limits store wait (wait.closedAt status recordedAt) := by
  obtain ⟨hcanonical, hchronology⟩ := h.updated wait hwait
  have hunmatched : wait.matchedSignalKey.isSome ≠ true :=
    fun hsome => absurd ((h.matchedKey wait hwait).2 hsome) (by rw [hwaiting]; decide)
  constructor
  case draft => rfl
  case waitKey => rfl
  case created => rfl
  case updated =>
    refine ⟨laterTimestamp_canonical hcanonical hnow, ?_⟩
    by_cases hlater : wait.updatedAt < recordedAt
    · simp only [SignalWaitRecord.closedAt, if_pos hlater]
      exact fun hlt => hchronology (lt_trans hlater hlt)
    · simp only [SignalWaitRecord.closedAt, if_neg hlater]
      exact hchronology
  case revised =>
    show 1 ≤ (Decimal.ofNat (wait.revision.value + 1)).value
    rw [Decimal.value_ofNat]
    exact Nat.succ_pos _
  case matchedKey => simp [SignalWaitRecord.closedAt, hstatus, hunmatched]
  case named =>
    intro signalKey hkey
    exact absurd (Option.isSome_iff_exists.2 ⟨signalKey, hkey⟩) hunmatched

theorem closedRow_row (status : SignalWaitStatus) (recordedAt : String) (wait : SignalWaitRecord) :
    SqliteSignalDatabase.closedRow status wait.revision.next.text
        (if wait.updatedAt < recordedAt then recordedAt else wait.updatedAt) (wait.row ctx) =
      (wait.closedAt status recordedAt).row ctx := rfl

theorem allowsWait_closed (h : store.Stored ctx.limits texts) {wait : SignalWaitRecord}
    (hwait : wait ∈ store.waits.values) (hwaiting : wait.status = .waiting)
    {status : SignalWaitStatus} (hstatus : status ≠ .matched) (revision updatedAt : String) :
    (store.tables ctx).allowsWait
      (SqliteSignalDatabase.closedRow status revision updatedAt (wait.row ctx)) = true := by
  have hnone : wait.matchedSignalKey = none := by
    rw [← Option.not_isSome_iff_eq_none]
    exact fun hsome => absurd ((h.matchedKey wait hwait).2 hsome) (by rw [hwaiting]; decide)
  unfold SqliteSignalDatabase.allowsWait SqliteSignalDatabase.closedRow SignalWaitRecord.row
  simp [hnone, hstatus]

theorem expireWaits_mirrors (h : store.Stored ctx.limits texts) {partition : SignalGeneration}
    {through : Decimal} {recordedAt : String} {limit : Nat}
    (hvalid : (SignalStoreCall.expireWaits partition through recordedAt limit).Valid ctx.limits) :
    Mirrors ctx texts (call (.expireWaits partition through recordedAt limit)) store
      (SqliteSignalDatabase.call ctx (.expireWaits partition through recordedAt limit)) := by
  obtain ⟨hpartition, htimestamp, hlimit⟩ := hvalid
  obtain ⟨normalized, hpartition⟩ := isOk_iff.1 hpartition
  have hnow := validateSignalTimestamp_eq_ok.1 htimestamp
  have hchecked : validateExpireWaits ctx.limits partition through.text recordedAt limit =
      .ok (normalized, through) := by
    unfold validateExpireWaits
    simp only [hpartition, validateSignalDecimal_text, htimestamp, hlimit, ok_bind]
    rfl
  -- Both stores take the first waits of the partition whose last tick has passed.
  generalize hp : (fun wait : SignalWaitRecord => decide (wait.status = .waiting) &&
    sameSignalGeneration wait.partition.toScheduleGeneration partition &&
    wait.selector.throughTickInclusive.any fun tick =>
      decide (compareSignalTicks tick through ≠ .gt)) = p
  generalize hentries : (store.waits.entries.filter fun e => p e.2).take limit = entries
  have hmem : ∀ e ∈ entries, e ∈ store.waits.entries ∧ e.2.status = .waiting := by
    intro e he
    rw [← hentries] at he
    obtain ⟨hstored, hpe⟩ := List.mem_filter.1 (List.mem_of_mem_take he)
    rw [← hp] at hpe
    simp only [Bool.and_eq_true, decide_eq_true_eq] at hpe
    exact ⟨hstored, hpe.1.1⟩
  have hvalue : ∀ e ∈ entries, e.2 ∈ store.waits.values :=
    fun e he => mem_values_of_entry (hmem e he).1
  have hnodup : (entries.map Prod.fst).Nodup := by
    rw [← hentries]
    exact store.waits.nodup.sublist
      (((List.take_sublist _ _).trans List.filter_sublist).map Prod.fst)
  have hexpired : SignalWaitStatus.expired ≠ .matched := by decide
  obtain ⟨hstored, hrows⟩ := h.rewriteRows_tables
    (f := fun wait => wait.closedAt .expired recordedAt) hnow (closedRow_row .expired recordedAt)
    hmem hnodup
    (fun e he => h.allowsWait_closed (hvalue e he) (hmem e he).2 hexpired _ _)
    (fun e he => h.rewrites_closed (hvalue e he) (hmem e he).2 hexpired hnow) (fun _ => rfl)
  have hsort : (sortWaits (store.waits.entries.filter fun e => p e.2)).take limit = entries := by
    rw [h.sortWaits_filter p, hentries]
  have hmemory : OpenGameAgent.expireWaits partition through recordedAt limit store =
      .ok (entries.map fun e => e.2.waitKey) (store.rewritten fun key wait =>
        if key ∈ entries.map Prod.fst then wait.expiredAt recordedAt else wait) := by
    have hrewrite := rewriteWaits_eq_mapEntries (fun wait => wait.expiredAt recordedAt) store rfl
      (fun e he => expireWait_eq (h.updated e.2 (hvalue e he)).1 hnow)
      (fun e he => (hmem e he).1) hnodup
    rw [← hsort, ← hp] at hrewrite ⊢
    show EStateM.bind (rewriteWaits (expireWait recordedAt) _) _ store = _
    unfold EStateM.bind
    rw [hrewrite]
    rfl
  have hselect : (selectRows (store.tables ctx).waits
      (SqliteSignalDatabase.expiringWait partition through.text)
        SignalWaitRow.waitKey).take limit =
      (entries.map Prod.snd).map (SignalWaitRecord.row ctx) := by
    rw [h.selectWaits fun wait _ => holds_expiringWait, hp, ← hentries, List.map_take,
      map_snd_filter, List.map_take]
    rfl
  refine mirrors_ok _ _ (map_ok hmemory) hstored (map_ok ?_)
  unfold SqliteSignalDatabase.expireWaits
  rw [attempt_ok_bind (SqliteSignalDatabase.checked_eq_ok.2 hchecked)]
  refine SqliteSignalDatabase.write_ok ?_
  simp only [hselect, hrows, ok_bind]
  rw [List.map_map, List.map_map]
  rfl

theorem cancelWait_mirrors (h : store.Stored ctx.limits texts) {key : SignalWaitKey}
    {expectedRevision : Decimal} {recordedAt : String}
    (hvalid : (SignalStoreCall.cancelWait key expectedRevision recordedAt).Valid ctx.limits) :
    Mirrors ctx texts (call (.cancelWait key expectedRevision recordedAt)) store
      (SqliteSignalDatabase.call ctx (.cancelWait key expectedRevision recordedAt)) := by
  obtain ⟨hkey, htimestamp⟩ := hvalid
  have hnow := validateSignalTimestamp_eq_ok.1 htimestamp
  refine Mirrors.map _ ?_
  have hsqlite : ∀ s, SqliteSignalDatabase.cancelWait ctx key expectedRevision.text recordedAt s =
      SqliteSignalDatabase.write
        (SqliteSignalDatabase.cancelWaitBody ctx key expectedRevision.text recordedAt) s := by
    intro s
    unfold SqliteSignalDatabase.cancelWait
    rw [attempt_ok_bind (SqliteSignalDatabase.checked_eq_ok.2 hkey),
      attempt_ok_bind (SqliteSignalDatabase.checked_eq_ok.2 (validateSignalDecimal_text _ _)),
      attempt_ok_bind (SqliteSignalDatabase.checked_eq_ok.2 htimestamp)]
  have hfind := h.findWaitRow_tables key
  have hmemory : OpenGameAgent.cancelWait key expectedRevision recordedAt store = _ := get_bind
  cases hget : store.waits.get? key with
  | none =>
    rw [hget] at hfind hmemory
    refine mirrors_error .waitNotFound hmemory ((hsqlite _).trans (SqliteSignalDatabase.write_error ?_))
    unfold SqliteSignalDatabase.cancelWaitBody
    rw [hfind]
    rfl
  | some current =>
    rw [hget] at hfind hmemory
    have hentry := OrderedMap.get?_eq_some_iff.1 hget
    have hcurrent := mem_values_of_entry hentry
    by_cases hexpected : current.revision = expectedRevision
    case neg =>
      refine mirrors_error .waitRevisionConflict (hmemory.trans ?_)
        ((hsqlite _).trans (SqliteSignalDatabase.write_error ?_))
      · simp only [ne_eq, hexpected, not_false_eq_true, if_true]
        rfl
      · unfold SqliteSignalDatabase.cancelWaitBody
        simp only [hfind, Option.map_some, SignalWaitRecord.row_revision, Decimal.text_inj,
          hexpected, decide_false]
        rfl
    subst hexpected
    by_cases hwaiting : current.status = .waiting
    case neg =>
      refine mirrors_error .waitTerminal (hmemory.trans ?_)
        ((hsqlite _).trans (SqliteSignalDatabase.write_error ?_))
      · simp only [ne_eq, not_true_eq_false, if_false, hwaiting, not_false_eq_true, if_true]
        rfl
      · unfold SqliteSignalDatabase.cancelWaitBody
        simp only [hfind, Option.map_some, SignalWaitRecord.row_revision, decide_true,
          SignalWaitRecord.row_status, hwaiting, decide_false]
        rfl
    have hlater := laterSignalTimestamp_eq_ok.2 ⟨(h.updated current hcurrent).1, hnow, rfl⟩
    have hcancelled : SignalWaitStatus.cancelled ≠ .matched := by decide
    have honly : ∀ e ∈ [(key, current)], e.2 = current := fun e he => by
      rw [List.mem_singleton.1 he]
    -- The statement writes what the loop over this one row writes.
    obtain ⟨hstored, hrows⟩ := h.rewriteRows_tables
      (f := fun wait => wait.closedAt .cancelled recordedAt) (l := [(key, current)]) hnow
      (closedRow_row .cancelled recordedAt)
      (fun e he => by
        rw [List.mem_singleton.1 he]
        exact ⟨hentry, hwaiting⟩)
      (List.nodup_singleton _)
      (fun e he => honly e he ▸ h.allowsWait_closed hcurrent hwaiting hcancelled _ _)
      (fun e he => honly e he ▸ h.rewrites_closed hcurrent hwaiting hcancelled hnow)
      (fun _ => rfl)
    simp only [List.map_cons, List.map_nil, List.mem_singleton] at hstored hrows
    simp only [SqliteSignalDatabase.rewriteRows, bind_eq_ok, Except.ok.injEq,
      SqliteSignalDatabase.checked_eq_ok, SignalWaitRecord.row_revision,
      SignalWaitRecord.row_waitKey, SignalWaitRecord.row_updatedAt] at hrows
    obtain ⟨_, -, revision, hrevision, updatedAt, hupdatedAt, database, hupdate, rfl⟩ := hrows
    obtain rfl : _ = updatedAt := Except.ok.inj (hlater.symm.trans hupdatedAt)
    have hmem : current.closedAt .cancelled recordedAt ∈
        (store.rewritten fun other wait =>
          if other = key then wait.closedAt .cancelled recordedAt else wait).waits.values := by
      rw [values_rewritten]
      exact List.mem_map.2 ⟨(key, current), hentry, if_pos rfl⟩
    have hwritten : OpenGameAgent.cancelWait key current.revision recordedAt store =
        .ok (current.closedAt .cancelled recordedAt) (store.rewritten fun other wait =>
          if other = key then wait.closedAt .cancelled recordedAt else wait) := by
      refine hmemory.trans ?_
      simp only [ne_eq, not_true_eq_false, if_false, hwaiting]
      rw [attempt_ok_bind hlater]
      show EStateM.Result.ok _ _ = _
      rw [OrderedMap.set_eq_mapEntries hget]
      have hsame : (store.waits.mapEntries fun other wait => if other = key then
          wait.closedAt .cancelled recordedAt else wait) = store.waits.mapEntries fun other wait =>
            if other = key then current.closedAt .cancelled recordedAt else wait := by
        refine OrderedMap.mapEntries_congr fun e he => ?_
        by_cases heq : e.1 = key
        · have hother := OrderedMap.get?_eq_some_iff.2 he
          rw [heq, hget] at hother
          rw [if_pos heq, if_pos heq, Option.some.inj hother]
        · rw [if_neg heq, if_neg heq]
      unfold InMemorySignalStore.rewritten
      rw [hsame]
      rfl
    refine mirrors_ok _ _ hwritten hstored ((hsqlite _).trans (SqliteSignalDatabase.write_ok ?_))
    unfold SqliteSignalDatabase.cancelWaitBody
    simp only [hfind, Option.map_some, SignalWaitRecord.row_revision, SignalWaitRecord.row_status,
      SignalWaitRecord.row_waitKey, SignalWaitRecord.row_updatedAt, decide_true, hwaiting]
    rw [demand_true_bind rfl, demand_true_bind rfl, hrevision, hlater]
    simp only [SqliteSignalDatabase.checked_ok, ok_bind]
    have hread := hstored.findWaitRowByKey_tables hmem
    rw [show (current.closedAt .cancelled recordedAt).waitKey = current.waitKey from rfl] at hread
    have hhydrate := hstored.hydrateWait_tables hmem
    rw [hupdate, ok_bind]
    rw [hread]
    simp only [hhydrate, SqliteSignalDatabase.checked_ok, ok_bind]
    rfl

/-! ### Purging -/

/-- A store without some of its waits. -/
theorem withoutWaits (h : store.Stored ctx.limits texts) (p : SignalWaitKey → Bool) :
    Stored ctx.limits texts { store with
      waits := store.waits.filterKeys p
      waitFingerprints := store.waitFingerprints.filterKeys p } := by
  have hsub : (store.waits.filterKeys p).values.Sublist store.waits.values :=
    List.filter_sublist.map Prod.snd
  have hmem : ∀ wait ∈ (store.waits.filterKeys p).values, wait ∈ store.waits.values :=
    fun wait hwait => hsub.subset hwait
  constructor
  case signalKeyed => exact h.signalKeyed
  case signalOrder => exact h.signalOrder
  case signalBound => exact h.signalBound
  case started => exact h.started
  case signalNormal => exact h.signalNormal
  case signalPrints => exact h.signalPrints
  case signalTexts => exact h.signalTexts
  case waitKeyed =>
    intro key wait hwait
    exact h.waitKeyed key wait (OrderedMap.get?_filterKeys_eq_some.1 hwait).2
  case waitOrder => exact h.waitOrder.sublist hsub
  case waitBound => exact fun wait hwait => h.waitBound wait (hmem wait hwait)
  case waitNormal => exact fun wait hwait => h.waitNormal wait (hmem wait hwait)
  case created => exact fun wait hwait => h.created wait (hmem wait hwait)
  case updated => exact fun wait hwait => h.updated wait (hmem wait hwait)
  case revised => exact fun wait hwait => h.revised wait (hmem wait hwait)
  case matchedKey => exact fun wait hwait => h.matchedKey wait (hmem wait hwait)
  case named => exact fun wait hwait => h.named wait (hmem wait hwait)
  case waitPrints =>
    intro key
    show (store.waitFingerprints.filterKeys p).get? key =
      ((store.waits.filterKeys p).get? key).map _
    rw [OrderedMap.get?_filterKeys, OrderedMap.get?_filterKeys, h.waitPrints]
    by_cases hp : p key = true
    · simp only [hp, if_true]
    · simp only [hp]
      rfl
  case waitTexts => exact fun wait hwait => h.waitTexts wait (hmem wait hwait)

/-- A store without signals that no wait names. -/
theorem withoutSignals (h : store.Stored ctx.limits texts) {p : GameSignalKey → Bool}
    (hkept : ∀ key signal, store.signals.get? key = some signal → p key = false →
      ∀ wait ∈ store.waits.values, wait.matchedSignalKey ≠ some signal.signalKey) :
    Stored ctx.limits texts { store with
      signals := store.signals.filterKeys p
      signalFingerprints := store.signalFingerprints.filterKeys p } := by
  have hsub : (store.signals.filterKeys p).values.Sublist store.signals.values :=
    List.filter_sublist.map Prod.snd
  have hmem : ∀ signal ∈ (store.signals.filterKeys p).values, signal ∈ store.signals.values :=
    fun signal hsignal => hsub.subset hsignal
  constructor
  case signalKeyed =>
    intro key signal hsignal
    exact h.signalKeyed key signal (OrderedMap.get?_filterKeys_eq_some.1 hsignal).2
  case signalOrder => exact h.signalOrder.sublist hsub
  case signalBound => exact fun signal hsignal => h.signalBound signal (hmem signal hsignal)
  case started => exact h.started
  case signalNormal => exact fun signal hsignal => h.signalNormal signal (hmem signal hsignal)
  case signalPrints =>
    intro key
    show (store.signalFingerprints.filterKeys p).get? key =
      ((store.signals.filterKeys p).get? key).map _
    rw [OrderedMap.get?_filterKeys, OrderedMap.get?_filterKeys, h.signalPrints]
    by_cases hp : p key = true
    · simp only [hp, if_true]
    · simp only [hp]
      rfl
  case signalTexts => exact fun signal hsignal => h.signalTexts signal (hmem signal hsignal)
  case waitKeyed => exact h.waitKeyed
  case waitOrder => exact h.waitOrder
  case waitBound => exact h.waitBound
  case waitNormal => exact h.waitNormal
  case created => exact h.created
  case updated => exact h.updated
  case revised => exact h.revised
  case matchedKey => exact h.matchedKey
  case waitPrints => exact h.waitPrints
  case waitTexts => exact h.waitTexts
  case named =>
    intro wait hwait signalKey hkey
    obtain ⟨signal, hsignal, rfl, hmatches⟩ := h.named wait hwait signalKey hkey
    obtain ⟨key, hget⟩ := OrderedMap.mem_values.1 hsignal
    have hp : p key = true := by
      by_contra hnot
      exact hkept key signal hget (Bool.eq_false_iff.2 hnot) wait hwait hkey
    exact ⟨signal, OrderedMap.mem_values_filterKeys.2 ⟨key, hp, hget⟩, rfl, hmatches⟩

theorem foldl_deleteWait (keys : List Nat) (database : SqliteSignalDatabase) :
    keys.foldl SqliteSignalDatabase.deleteWait database = { database with
      waits := database.waits.filter fun row => row.waitKey ∉ keys
      waitKinds := database.waitKinds.filter fun row => row.key ∉ keys
      waitSubjects := database.waitSubjects.filter fun row => row.key ∉ keys } := by
  induction keys generalizing database with
  | nil => simp
  | cons key rest ih =>
    rw [List.foldl_cons, ih]
    simp only [SqliteSignalDatabase.deleteWait, List.filter_filter, List.mem_cons, not_or,
      Bool.decide_and, Bool.and_comm]

theorem deleteSignals_eq {keys : List Nat} {database : SqliteSignalDatabase}
    (hfree : ∀ key ∈ keys, ∀ row ∈ database.waits, row.matchedSignalKey ≠ some key) :
    SqliteSignalDatabase.deleteSignals keys database = .ok { database with
      signals := database.signals.filter fun row => row.signalKey ∉ keys
      subjects := database.subjects.filter fun row => row.key ∉ keys
      causes := database.causes.filter fun row => row.key ∉ keys } := by
  induction keys generalizing database with
  | nil => simp [SqliteSignalDatabase.deleteSignals]
  | cons key rest ih =>
    have hcheck : (database.waits.all fun row => row.matchedSignalKey ≠ some key) = true := by
      rw [List.all_eq_true]
      exact fun row hrow => decide_eq_true (hfree key (List.mem_cons_self ..) row hrow)
    unfold SqliteSignalDatabase.deleteSignals SqliteSignalDatabase.deleteSignal
    rw [demand_true_bind hcheck]
    show SqliteSignalDatabase.deleteSignals rest _ = _
    rw [ih]
    · simp only [List.filter_filter, List.mem_cons, not_or, Bool.decide_and, Bool.and_comm]
    · exact fun other hother => hfree other (List.mem_cons_of_mem _ hother)

theorem holds_purgeableWait {partition : SignalGeneration} {before : String}
    {wait : SignalWaitRecord} :
    (SqliteSignalDatabase.purgeableWait partition before (wait.row ctx)).holds =
      (decide (wait.status ≠ .waiting) &&
        sameSignalGeneration wait.partition.toScheduleGeneration partition &&
        decide (wait.updatedAt < before)) := by
  have hterminal : wait.status ∈ ([.matched, .cancelled, .expired] : List SignalWaitStatus) ↔
      wait.status ≠ .waiting := by
    cases wait.status <;> simp
  unfold SqliteSignalDatabase.purgeableWait SqliteSignalDatabase.inGeneration
  simp only [Truth.holds_and, Truth.holds_some, holds_sqlEq_some, holds_sqlCompare_some,
    Option.some.injEq, SignalWaitRecord.row_status, SignalWaitRecord.row_updatedAt, hterminal]
  simp only [SignalWaitRecord.row, SqliteSignalDatabase.waitRow, sameSignalGeneration]
  ac_rfl

theorem purgeTerminalWaits_mirrors (h : store.Stored ctx.limits texts)
    {partition : SignalGeneration} {before : String} {limit : Nat}
    (hvalid : (SignalStoreCall.purgeTerminalWaits partition before limit).Valid ctx.limits) :
    Mirrors ctx texts (call (.purgeTerminalWaits partition before limit)) store
      (SqliteSignalDatabase.call ctx (.purgeTerminalWaits partition before limit)) := by
  obtain ⟨normalized, hvalid⟩ := isOk_iff.1 hvalid
  generalize hp : (fun wait : SignalWaitRecord => decide (wait.status ≠ .waiting) &&
    sameSignalGeneration wait.partition.toScheduleGeneration partition &&
    decide (wait.updatedAt < before)) = p
  generalize hentries : (store.waits.entries.filter fun e => p e.2).take limit = entries
  have hmem : ∀ e ∈ entries, e ∈ store.waits.entries := by
    intro e he
    rw [← hentries] at he
    exact (List.mem_filter.1 (List.mem_of_mem_take he)).1
  have hstored := h.withoutWaits fun key => decide (key ∉ entries.map Prod.fst)
  have hmemory : OpenGameAgent.purgeTerminalWaits partition before limit store =
      .ok (entries.map fun e => e.2.waitKey) { store with
        waits := store.waits.filterKeys fun key => decide (key ∉ entries.map Prod.fst)
        waitFingerprints :=
          store.waitFingerprints.filterKeys fun key => decide (key ∉ entries.map Prod.fst) } := by
    have hsort := h.sortWaits_filter p
    rw [← hentries, ← OrderedMap.foldl_delete_eq_filterKeys, ← OrderedMap.foldl_delete_eq_filterKeys,
      ← hsort, ← hp]
    rfl
  have hselect : ((selectRows (store.tables ctx).waits
      (SqliteSignalDatabase.purgeableWait partition before)
        SignalWaitRow.waitKey).take limit).map SignalWaitRow.waitKey =
      (entries.map Prod.snd).map SignalWaitRecord.waitKey := by
    have hfirst : entries.map Prod.snd = (store.waits.values.filter p).take limit := by
      rw [← hentries, List.map_take, map_snd_filter]
      rfl
    rw [h.selectWaits fun wait _ => holds_purgeableWait, hp, ← List.map_take, List.map_map, hfirst]
    rfl
  have hvalues : (store.waits.filterKeys fun key => decide (key ∉ entries.map Prod.fst)).values =
      store.waits.values.filter fun wait =>
        decide (wait.waitKey ∉ (entries.map Prod.snd).map SignalWaitRecord.waitKey) := by
    unfold OrderedMap.values
    rw [List.filter_map]
    refine congrArg _ (List.filter_congr fun e he => ?_)
    simp only [Function.comp_apply, h.mem_map_waitKey_iff hmem he]
  refine mirrors_ok _ _ (map_ok hmemory) hstored (map_ok ?_)
  unfold SqliteSignalDatabase.purgeTerminalWaits
  rw [attempt_ok_bind (SqliteSignalDatabase.checked_eq_ok.2 hvalid)]
  refine SqliteSignalDatabase.write_ok ?_
  simp only [hselect, foldl_deleteWait]
  refine congrArg Except.ok (Prod.ext (List.map_map ..) ?_)
  unfold tables
  simp only [hvalues]
  congr 1
  · rw [List.filter_map]
    rfl
  · exact filter_identifierTable fun key =>
      decide (key ∉ (entries.map Prod.snd).map SignalWaitRecord.waitKey)
  · exact filter_identifierTable fun key =>
      decide (key ∉ (entries.map Prod.snd).map SignalWaitRecord.waitKey)

theorem sortSignals_filter (h : store.Stored ctx.limits texts) (p : GameSignalRecord → Bool) :
    (store.signals.entries.filter fun e => p e.2).insertionSort
        (fun left right => left.2.signalKey ≤ right.2.signalKey) =
      store.signals.entries.filter fun e => p e.2 := by
  have horder := h.signalOrder
  unfold OrderedMap.values at horder
  rw [List.pairwise_map] at horder
  exact List.Pairwise.insertionSort_eq ((horder.filter _).imp Nat.le_of_lt)

/-- Which entries a list of entries has, by their keys and by the keys of their signals. -/
theorem mem_map_signalKey_iff (h : store.Stored ctx.limits texts)
    {l : List (GameSignalKey × GameSignalRecord)} (hl : ∀ e ∈ l, e ∈ store.signals.entries)
    {e : GameSignalKey × GameSignalRecord} (he : e ∈ store.signals.entries) :
    e.2.signalKey ∈ l.map (fun e => e.2.signalKey) ↔ e.1 ∈ l.map Prod.fst := by
  rw [OrderedMap.mem_map_fst_iff hl he]
  constructor
  · intro hkey
    obtain ⟨other, hother, heq⟩ := List.mem_map.1 hkey
    have hsame := eq_of_same_order h.signalOrder (List.mem_map_of_mem (hl other hother))
      (List.mem_map_of_mem he) heq
    have hleft := h.signalKeyed _ _ (OrderedMap.get?_eq_some_iff.2 (hl other hother))
    have hright := h.signalKeyed _ _ (OrderedMap.get?_eq_some_iff.2 he)
    have hpair : other = e := Prod.ext (by rw [← hleft, ← hright, hsame]) hsame
    exact hpair ▸ hother
  · intro hin
    exact List.mem_map_of_mem hin

theorem holds_purgeableSignal {partition : SignalGeneration} {before : String}
    {signal : GameSignalRecord} :
    ((store.tables ctx).purgeableSignal partition before (signal.row ctx)).holds =
      (sameSignalGeneration signal.partition.toScheduleGeneration partition &&
        decide (signal.recordedAt < before) &&
        !(store.waits.values.filterMap (·.matchedSignalKey)).contains signal.signalKey) := by
  have hnamed : ((store.tables ctx).waits.any fun wait =>
      (sqlEq wait.matchedSignalKey (some signal.signalKey)).holds) =
        (store.waits.values.filterMap (·.matchedSignalKey)).contains signal.signalKey := by
    rw [Bool.eq_iff_iff, List.contains_iff_mem, tables_waits]
    simp only [holds_some_sqlEq, List.any_map, List.any_eq_true, Function.comp_apply,
      decide_eq_true_eq, List.mem_filterMap]
    rfl
  unfold SqliteSignalDatabase.purgeableSignal SqliteSignalDatabase.inGeneration
  simp only [Truth.holds_and, holds_not_sqlExists, holds_sqlEq_some, holds_sqlCompare_some,
    Option.some.injEq]
  have hkey : (signal.row ctx).signalKey = signal.signalKey := rfl
  rw [hkey, hnamed]
  simp only [GameSignalRecord.row, SqliteSignalDatabase.signalRow, sameSignalGeneration]
  ac_rfl

theorem purgeSignals_mirrors (h : store.Stored ctx.limits texts)
    {partition : SignalGeneration} {before : String} {limit : Nat}
    (hvalid : (SignalStoreCall.purgeSignals partition before limit).Valid ctx.limits) :
    Mirrors ctx texts (call (.purgeSignals partition before limit)) store
      (SqliteSignalDatabase.call ctx (.purgeSignals partition before limit)) := by
  obtain ⟨normalized, hvalid⟩ := isOk_iff.1 hvalid
  generalize hp : (fun signal : GameSignalRecord =>
    sameSignalGeneration signal.partition.toScheduleGeneration partition &&
    decide (signal.recordedAt < before) &&
    !(store.waits.values.filterMap (·.matchedSignalKey)).contains signal.signalKey) = p
  generalize hentries : (store.signals.entries.filter fun e => p e.2).take limit = entries
  have hmem : ∀ e ∈ entries, e ∈ store.signals.entries ∧ p e.2 = true := by
    intro e he
    rw [← hentries] at he
    exact List.mem_filter.1 (List.mem_of_mem_take he)
  have hunnamed : ∀ e ∈ entries, ∀ wait ∈ store.waits.values,
      wait.matchedSignalKey ≠ some e.2.signalKey := by
    intro e he wait hwait hkey
    have hpe := (hmem e he).2
    have hcontains : (store.waits.values.filterMap (·.matchedSignalKey)).contains e.2.signalKey =
        true := List.contains_iff_mem.2 (List.mem_filterMap.2 ⟨wait, hwait, hkey⟩)
    simp only [← hp, hcontains, Bool.not_true, Bool.and_false] at hpe
    exact Bool.false_ne_true hpe
  have hstored : Stored ctx.limits texts { store with
      signals := store.signals.filterKeys fun key => decide (key ∉ entries.map Prod.fst)
      signalFingerprints :=
        store.signalFingerprints.filterKeys fun key => decide (key ∉ entries.map Prod.fst) } := by
    refine h.withoutSignals fun key signal hget hout => ?_
    obtain ⟨e, he, rfl⟩ := List.mem_map.1 (by simpa using hout : key ∈ entries.map Prod.fst)
    have hsame := OrderedMap.get?_eq_some_iff.2 (hmem e he).1
    obtain rfl := Option.some.inj (hsame.symm.trans hget)
    exact hunnamed e he
  have hmemory : OpenGameAgent.purgeSignals partition before limit store =
      .ok (entries.map fun e => e.2.signalKey) { store with
        signals := store.signals.filterKeys fun key => decide (key ∉ entries.map Prod.fst)
        signalFingerprints :=
          store.signalFingerprints.filterKeys fun key => decide (key ∉ entries.map Prod.fst) } := by
    have hsort := h.sortSignals_filter p
    rw [← hentries, ← OrderedMap.foldl_delete_eq_filterKeys, ← OrderedMap.foldl_delete_eq_filterKeys,
      ← hsort, ← hp]
    rfl
  have hselect : ((selectRows (store.tables ctx).signals
      ((store.tables ctx).purgeableSignal partition before)
        SignalRow.signalKey).take limit).map SignalRow.signalKey =
      entries.map fun e => e.2.signalKey := by
    have hfirst : entries.map Prod.snd = (store.signals.values.filter p).take limit := by
      rw [← hentries, List.map_take]
      unfold OrderedMap.values
      rw [List.filter_map]
      rfl
    rw [h.selectSignals fun signal _ => holds_purgeableSignal, hp, ← List.map_take, List.map_map,
      ← hfirst, List.map_map]
    rfl
  have hvalues : (store.signals.filterKeys fun key => decide (key ∉ entries.map Prod.fst)).values =
      store.signals.values.filter fun signal =>
        decide (signal.signalKey ∉ entries.map fun e => e.2.signalKey) := by
    unfold OrderedMap.values
    rw [List.filter_map]
    refine congrArg _ (List.filter_congr fun e he => ?_)
    simp only [Function.comp_apply, h.mem_map_signalKey_iff (fun e he => (hmem e he).1) he]
  refine mirrors_ok _ _ (map_ok hmemory) hstored (map_ok ?_)
  unfold SqliteSignalDatabase.purgeSignals
  rw [attempt_ok_bind (SqliteSignalDatabase.checked_eq_ok.2 hvalid)]
  refine SqliteSignalDatabase.write_ok ?_
  have hfree : ∀ key ∈ entries.map (fun e => e.2.signalKey),
      ∀ row ∈ (store.tables ctx).waits, row.matchedSignalKey ≠ some key := by
    intro key hkey row hrow
    obtain ⟨e, he, rfl⟩ := List.mem_map.1 hkey
    obtain ⟨wait, hwait, rfl⟩ := List.mem_map.1 hrow
    exact hunnamed e he wait hwait
  simp only [hselect, deleteSignals_eq hfree, ok_bind]
  refine congrArg Except.ok (Prod.ext rfl ?_)
  unfold tables
  simp only [hvalues]
  congr 1
  · rw [List.filter_map]
    rfl
  · exact filter_identifierTable fun key => decide (key ∉ entries.map fun e => e.2.signalKey)
  · exact filter_identifierTable fun key => decide (key ∉ entries.map fun e => e.2.signalKey)

end Stored

end InMemorySignalStore

end OpenGameAgent
