import Mathlib.Data.Set.Function
import OpenGameAgent.Storage.SignalTables

/-!
# Reading signals from either store

A call on the tables of an in-memory store answers what the in-memory store answers and
leaves the tables of what that store becomes.

* `Mirrors` — one method of both stores.
* `selectWaits`, `selectSignals` — a query of the tables is a filter of the records.
* `getSignal_mirrors`, `getWait_mirrors`, `listSignals_mirrors`, `listWaits_mirrors` — the
  methods that read.
-/

namespace OpenGameAgent

/-! ## Programs -/

section Programs

variable {ε σ α β : Type}

theorem attempt_ok_bind {x : Except ε α} {a : α} (h : x = .ok a) (f : α → EStateM ε σ β) (s : σ) :
    (attempt x >>= f) s = f a s := by
  rw [h]
  rfl

theorem map_ok {m : EStateM ε σ α} {f : α → β} {a : α} {s s' : σ} (h : m s = .ok a s') :
    (f <$> m) s = .ok (f a) s' := by
  show EStateM.map f m s = _
  unfold EStateM.map
  rw [h]

end Programs

namespace SqliteSignalDatabase

variable {α : Type} {database next : SqliteSignalDatabase}

theorem write_ok {body : SqliteSignalDatabase → Except SqliteSignalError (α × SqliteSignalDatabase)}
    {answer : α} (h : body database = .ok (answer, next)) :
    write body database = .ok answer next := by
  show (attempt (body database) >>= _) database = _
  rw [attempt_ok_bind h]
  rfl

theorem write_error
    {body : SqliteSignalDatabase → Except SqliteSignalError (α × SqliteSignalDatabase)}
    {error : SqliteSignalError} (h : body database = .error error) :
    write body database = .error error database := by
  show (attempt (body database) >>= _) database = _
  rw [h]
  rfl

theorem snapshot_ok {body : SqliteSignalDatabase → Except SqliteSignalError α} {answer : α}
    (h : body database = .ok answer) : snapshot body database = .ok answer database := by
  show attempt (body database) database = _
  rw [h]
  rfl

@[simp] theorem checked_eq_ok {x : Except SignalError α} {a : α} :
    checked x = .ok a ↔ x = .ok a := by
  cases x <;> simp [checked, Except.mapError]

theorem checked_ok (a : α) : checked (.ok a) = .ok a := rfl

end SqliteSignalDatabase

/-! ## Stores -/

namespace InMemorySignalStore

variable {ctx : SqliteSignalContext} {texts : Set (List UInt16)} {store : InMemorySignalStore}

/-- The program answers alike on a store and on its tables, and leaves a store and its
tables. -/
def Mirrors {α : Type} (ctx : SqliteSignalContext) (texts : Set (List UInt16))
    (program : SignalProgram α) (store : InMemorySignalStore)
    (sqlite : EStateM SqliteSignalError SqliteSignalDatabase α) : Prop :=
  match program store with
  | .ok answer next => next.Stored ctx.limits texts ∧
      sqlite (store.tables ctx) = .ok answer (next.tables ctx)
  | .error error next => next = store ∧
      sqlite (store.tables ctx) = .error (.store error) (store.tables ctx)

theorem Mirrors.map {α β : Type} {program : SignalProgram α}
    {sqlite : EStateM SqliteSignalError SqliteSignalDatabase α} (f : α → β)
    (h : Mirrors ctx texts program store sqlite) :
    Mirrors ctx texts (f <$> program) store (f <$> sqlite) := by
  unfold Mirrors at h ⊢
  show match EStateM.map f program store with
    | .ok answer next => _
    | .error error next => _
  unfold EStateM.map
  cases hprogram : program store with
  | ok answer next =>
    rw [hprogram] at h
    refine ⟨h.1, ?_⟩
    show EStateM.map f sqlite _ = _
    unfold EStateM.map
    rw [h.2]
  | error error next =>
    rw [hprogram] at h
    refine ⟨h.1, ?_⟩
    show EStateM.map f sqlite _ = _
    unfold EStateM.map
    rw [h.2]

theorem mirrors_ok {α : Type} {program : SignalProgram α}
    {sqlite : EStateM SqliteSignalError SqliteSignalDatabase α} (answer : α)
    (next : InMemorySignalStore) (hprogram : program store = .ok answer next)
    (hnext : next.Stored ctx.limits texts)
    (hsqlite : sqlite (store.tables ctx) = .ok answer (next.tables ctx)) :
    Mirrors ctx texts program store sqlite := by
  unfold Mirrors
  rw [hprogram]
  exact ⟨hnext, hsqlite⟩

theorem mirrors_error {α : Type} {program : SignalProgram α}
    {sqlite : EStateM SqliteSignalError SqliteSignalDatabase α} (error : SignalError)
    (hprogram : program store = .error error store)
    (hsqlite : sqlite (store.tables ctx) = .error (.store error) (store.tables ctx)) :
    Mirrors ctx texts program store sqlite := by
  unfold Mirrors
  rw [hprogram]
  exact ⟨rfl, hsqlite⟩

namespace Stored

/-! ### Selections of a store -/

theorem sortWaits_filter (h : store.Stored ctx.limits texts) (p : SignalWaitRecord → Bool) :
    sortWaits (store.waits.entries.filter fun e => p e.2) =
      store.waits.entries.filter fun e => p e.2 := by
  unfold sortWaits
  have horder := h.waitOrder
  unfold OrderedMap.values at horder
  rw [List.pairwise_map] at horder
  exact List.Pairwise.insertionSort_eq ((horder.filter _).imp Nat.le_of_lt)

theorem map_snd_filter (entries : List (SignalWaitKey × SignalWaitRecord))
    (p : SignalWaitRecord → Bool) :
    (entries.filter fun e => p e.2).map Prod.snd = (entries.map Prod.snd).filter p := by
  rw [List.filter_map]
  rfl

/-- A selection of waits is a filter of the records. -/
theorem selectWaits (h : store.Stored ctx.limits texts) {condition : SignalWaitRow → Truth}
    {p : SignalWaitRecord → Bool}
    (hcondition : ∀ wait ∈ store.waits.values, (condition (wait.row ctx)).holds = p wait) :
    selectRows (store.tables ctx).waits condition SignalWaitRow.waitKey =
      (store.waits.values.filter p).map (SignalWaitRecord.row ctx) := by
  have horder : ((store.tables ctx).waits).Pairwise fun a b => a.waitKey < b.waitKey :=
    List.pairwise_map.2 h.waitOrder
  rw [selectRows_eq_filter horder]
  show (store.waits.values.map (SignalWaitRecord.row ctx)).filter _ = _
  rw [List.filter_map]
  refine congrArg _ (List.filter_congr ?_)
  exact fun wait hwait => hcondition wait hwait

/-- A selection of signals is a filter of the records. -/
theorem selectSignals (h : store.Stored ctx.limits texts) {condition : SignalRow → Truth}
    {p : GameSignalRecord → Bool}
    (hcondition : ∀ signal ∈ store.signals.values, (condition (signal.row ctx)).holds = p signal) :
    selectRows (store.tables ctx).signals condition SignalRow.signalKey =
      (store.signals.values.filter p).map (GameSignalRecord.row ctx) := by
  have horder : ((store.tables ctx).signals).Pairwise fun a b => a.signalKey < b.signalKey :=
    List.pairwise_map.2 h.signalOrder
  rw [selectRows_eq_filter horder]
  show (store.signals.values.map (GameSignalRecord.row ctx)).filter _ = _
  rw [List.filter_map]
  refine congrArg _ (List.filter_congr ?_)
  exact fun signal hsignal => hcondition signal hsignal

/-- The rows of a page are hydrated to the page of the records. -/
theorem hydratePage_eq {row α : Type} {hydrate : row → Except SignalError α} {rowOf : α → row}
    {key : α → Nat} {limit : Nat} {records : List α}
    (hydrated : ∀ record ∈ records, hydrate (rowOf record) = .ok record) :
    SqliteSignalDatabase.hydratePage hydrate key limit
        ((records.map rowOf).take (limit + 1)) = .ok (firstPage key limit records) := by
  have hmap : ((records.map rowOf).take (limit + 1)).take limit =
      (records.take limit).map rowOf := by
    rw [List.take_take, Nat.min_eq_left (Nat.le_succ _), List.map_take]
  have hrecords : ((records.take limit).map rowOf).mapM hydrate = .ok (records.take limit) := by
    rw [mapM_eq_ok_iff, List.forall₂_map_left_iff, List.forall₂_same]
    exact fun record hrecord => hydrated record (List.mem_of_mem_take hrecord)
  have hmore : ((records.map rowOf).take (limit + 1)).length > limit ↔
      records.length > (records.take limit).length := by
    rw [List.length_take, List.length_take, List.length_map]
    omega
  unfold SqliteSignalDatabase.hydratePage firstPage
  rw [hmap, hrecords, ok_bind]
  simp only [hmore]
  rfl

/-! ### Reading methods -/

theorem getSignal_mirrors (h : store.Stored ctx.limits texts) {key : GameSignalKey}
    (hvalid : validateGameSignalKey key = .ok ()) :
    Mirrors ctx texts (call (.getSignal key)) store
      (SqliteSignalDatabase.call ctx (.getSignal key)) := by
  have hbody : SqliteSignalDatabase.checked (((store.tables ctx).findSignalRow key).mapM
      (SqliteSignalDatabase.hydrateSignal ctx (store.tables ctx))) =
        .ok (store.signals.get? key) := by
    rw [h.findSignalRow_tables, SqliteSignalDatabase.checked_eq_ok]
    cases hget : store.signals.get? key with
    | none => rfl
    | some signal =>
      have hhydrate := h.hydrateSignal_tables (OrderedMap.mem_values.2 ⟨key, hget⟩) rfl rfl
      simp only [Option.map_some, Option.mapM_some, hhydrate]
      rfl
  refine mirrors_ok _ _ rfl h (map_ok ?_)
  unfold SqliteSignalDatabase.getSignal
  rw [attempt_ok_bind (SqliteSignalDatabase.checked_eq_ok.2 hvalid)]
  exact SqliteSignalDatabase.snapshot_ok hbody

theorem getWait_mirrors (h : store.Stored ctx.limits texts) {key : SignalWaitKey}
    (hvalid : validateSignalWaitKey key = .ok key) :
    Mirrors ctx texts (call (.getWait key)) store
      (SqliteSignalDatabase.call ctx (.getWait key)) := by
  have hbody : SqliteSignalDatabase.checked (((store.tables ctx).findWaitRow key).mapM
      (SqliteSignalDatabase.hydrateWait ctx (store.tables ctx))) =
        .ok (store.waits.get? key) := by
    rw [h.findWaitRow_tables, SqliteSignalDatabase.checked_eq_ok]
    cases hget : store.waits.get? key with
    | none => rfl
    | some wait =>
      have hhydrate := h.hydrateWait_tables (OrderedMap.mem_values.2 ⟨key, hget⟩)
      simp only [Option.map_some, Option.mapM_some, hhydrate]
      rfl
  refine mirrors_ok _ _ rfl h (map_ok ?_)
  unfold SqliteSignalDatabase.getWait
  rw [attempt_ok_bind (SqliteSignalDatabase.checked_eq_ok.2 hvalid)]
  exact SqliteSignalDatabase.snapshot_ok hbody

/-- Does a filter that may be absent take a value? -/
theorem holds_inFilter {β : Type} [DecidableEq β] {values sorted : Option (List β)} {value : β}
    (hnone : values = none → sorted = none) (hsome : ∀ list, values = some list →
      list ≠ [] ∧ ∃ other, sorted = some other ∧ other.Perm list) :
    (SqliteSignalDatabase.inFilter (sorted.getD []) value).holds =
      values.all fun list => list.contains value := by
  unfold SqliteSignalDatabase.inFilter
  cases values with
  | none =>
    rw [hnone rfl]
    rfl
  | some list =>
    obtain ⟨hne, other, rfl, hperm⟩ := hsome list rfl
    have hother : other ≠ [] := by
      rintro rfl
      exact hne (List.nil_perm.1 hperm)
    rw [Option.getD_some, if_neg hother, Truth.holds_some, Option.all_some, Bool.eq_iff_iff]
    simp [hperm.mem_iff]

theorem holds_cursor {key : Nat} (hkey : 1 ≤ key) (cursor : Option Int) :
    (sqlCompare (fun x y => decide (x > y)) (some (key : Int)) (some (cursor.getD 0))).holds =
      cursor.all fun cursor => decide (cursor < (key : Int)) := by
  cases cursor with
  | none =>
    simp only [Option.getD_none, holds_sqlCompare_some, Option.all_none, decide_eq_true_eq]
    omega
  | some cursor => simp

theorem holds_listedSignal {request : SignalListRequest} {kinds : Option (List String)}
    {maximum : Nat} (hkinds : normalizeSignalKindFilter request.kinds maximum = .ok kinds)
    {signal : GameSignalRecord} (hkey : 1 ≤ signal.signalKey) :
    (SqliteSignalDatabase.listedSignal request (kinds.getD []) (signal.row ctx)).holds =
      listsSignal request signal := by
  have hfilter : (SqliteSignalDatabase.inFilter (kinds.getD []) signal.kind).holds =
      request.kinds.all fun list => list.contains signal.kind := by
    unfold normalizeSignalKindFilter at hkinds
    refine holds_inFilter ?_ ?_
    · intro hnone
      rw [hnone] at hkinds
      exact (Except.ok.inj hkinds).symm
    · intro list hlist
      rw [hlist] at hkinds
      simp only [bind_eq_ok, exists_const, demand_eq_ok, return_eq_ok, decide_eq_true_eq] at hkinds
      obtain ⟨hne, -, -, -, rfl⟩ := hkinds
      exact ⟨hne, _, rfl, List.perm_insertionSort _ _⟩
  simp only [SqliteSignalDatabase.listedSignal, GameSignalRecord.row,
    SqliteSignalDatabase.signalRow, Truth.holds_and, holds_sqlEq_some, holds_null_or_eq',
    holds_cursor hkey, hfilter, Option.some.injEq, listsSignal, sameSignalGeneration,
    Bool.and_assoc, @eq_comm _ signal.partition.sessionId, @eq_comm _ signal.partition.actorId]
  ac_rfl

theorem holds_listedWait {request : SignalWaitListRequest} {statuses : Option (List SignalWaitStatus)}
    (hstatuses : normalizeSignalStatusFilter request.statuses = .ok statuses)
    {wait : SignalWaitRecord} (hkey : 1 ≤ wait.waitKey) :
    (SqliteSignalDatabase.listedWait request (statuses.getD []) (wait.row ctx)).holds =
      listsWait request statuses wait := by
  have hfilter : (SqliteSignalDatabase.inFilter (statuses.getD []) wait.status).holds =
      statuses.all fun list => list.contains wait.status := by
    unfold normalizeSignalStatusFilter at hstatuses
    refine holds_inFilter (fun hnone => hnone) ?_
    intro list hlist
    refine ⟨?_, list, hlist, List.Perm.refl _⟩
    rintro rfl
    cases hrequest : request.statuses with
    | none =>
      rw [hrequest, hlist] at hstatuses
      cases hstatuses
    | some values =>
      rw [hrequest, hlist] at hstatuses
      simp only [bind_eq_ok, exists_const, demand_eq_ok, return_eq_ok, decide_eq_true_eq,
        Option.some.injEq] at hstatuses
      obtain ⟨hne, -, hnil⟩ := hstatuses
      have hperm := List.perm_insertionSort
        (fun left right : SignalWaitStatus => textLe left.text right.text) values
      rw [← hnil] at hperm
      exact hne (List.nil_perm.1 hperm)
  simp only [SqliteSignalDatabase.listedWait, SignalWaitRecord.row,
    SqliteSignalDatabase.waitRow, Truth.holds_and, holds_sqlEq_some, holds_null_or_eq',
    holds_cursor hkey, hfilter, Option.some.injEq, listsWait, sameSignalGeneration,
    Bool.and_assoc, @eq_comm _ wait.partition.sessionId, @eq_comm _ wait.partition.actorId]
  ac_rfl

theorem listSignals_mirrors (h : store.Stored ctx.limits texts) {request : SignalListRequest}
    (hvalid : (SignalStoreCall.listSignals request).Valid ctx.limits)
    (hvariables : 9 + (request.kinds.getD []).length ≤ maxSqliteVariables)
    (hcursor : bindsKey request.afterSignalKey = true) :
    Mirrors ctx texts (call (.listSignals request)) store
      (SqliteSignalDatabase.call ctx (.listSignals request)) := by
  obtain ⟨hpartition, hkinds, hafter, hlimit⟩ := hvalid
  obtain ⟨partition, hpartition⟩ := isOk_iff.1 hpartition
  obtain ⟨kinds, hkinds⟩ := isOk_iff.1 hkinds
  have hcount : (kinds.getD []).length = (request.kinds.getD []).length := by
    unfold normalizeSignalKindFilter at hkinds
    cases hlist : request.kinds with
    | none =>
      rw [hlist] at hkinds
      rw [← Except.ok.inj hkinds]
    | some list =>
      rw [hlist] at hkinds
      simp only [bind_eq_ok, exists_const, demand_eq_ok, return_eq_ok] at hkinds
      obtain ⟨-, -, -, -, rfl⟩ := hkinds
      exact List.length_insertionSort _ _
  have hsort : (store.signals.values.filter (listsSignal request)).insertionSort
      (fun left right => left.signalKey ≤ right.signalKey) =
        store.signals.values.filter (listsSignal request) :=
    List.Pairwise.insertionSort_eq ((h.signalOrder.filter _).imp Nat.le_of_lt)
  have hpage : listSignals request store = .ok (firstPage GameSignalRecord.signalKey request.limit
      (store.signals.values.filter (listsSignal request))) store := by
    rw [← hsort]
    rfl
  refine mirrors_ok _ _ (map_ok hpage) h (map_ok ?_)
  unfold SqliteSignalDatabase.listSignals
  rw [attempt_ok_bind (SqliteSignalDatabase.checked_eq_ok.2 hpartition),
    attempt_ok_bind (SqliteSignalDatabase.checked_eq_ok.2 hkinds),
    attempt_ok_bind (SqliteSignalDatabase.checked_eq_ok.2 hafter),
    attempt_ok_bind (SqliteSignalDatabase.checked_eq_ok.2 hlimit)]
  refine SqliteSignalDatabase.snapshot_ok ?_
  rw [h.selectSignals fun signal hsignal => holds_listedSignal hkinds (h.signalBound signal hsignal).1]
  simp only [bind_eq_ok, exists_const, demand_eq_ok, decide_eq_true_eq,
    SqliteSignalDatabase.checked_eq_ok]
  refine ⟨hcount ▸ hvariables, hcursor, hydratePage_eq fun signal hsignal => ?_⟩
  exact h.hydrateSignal_tables (List.mem_filter.1 hsignal).1 rfl rfl

theorem listWaits_mirrors (h : store.Stored ctx.limits texts) {request : SignalWaitListRequest}
    (hvalid : (SignalStoreCall.listWaits request).Valid ctx.limits)
    (hcursor : bindsKey request.afterWaitKey = true) :
    Mirrors ctx texts (call (.listWaits request)) store
      (SqliteSignalDatabase.call ctx (.listWaits request)) := by
  obtain ⟨hpartition, hstatuses, hafter, hlimit⟩ := hvalid
  obtain ⟨partition, hpartition⟩ := isOk_iff.1 hpartition
  obtain ⟨statuses, hstatuses⟩ := isOk_iff.1 hstatuses
  have hsort : (store.waits.values.filter (listsWait request statuses)).insertionSort
      (fun left right => left.waitKey ≤ right.waitKey) =
        store.waits.values.filter (listsWait request statuses) :=
    List.Pairwise.insertionSort_eq ((h.waitOrder.filter _).imp Nat.le_of_lt)
  have hpage : listWaits request store = .ok (firstPage SignalWaitRecord.waitKey request.limit
      (store.waits.values.filter (listsWait request statuses))) store := by
    rw [← hsort]
    unfold listWaits
    rw [attempt_ok_bind hstatuses]
    rfl
  refine mirrors_ok _ _ (map_ok hpage) h (map_ok ?_)
  unfold SqliteSignalDatabase.listWaits
  rw [attempt_ok_bind (SqliteSignalDatabase.checked_eq_ok.2 hpartition),
    attempt_ok_bind (SqliteSignalDatabase.checked_eq_ok.2 hstatuses),
    attempt_ok_bind (SqliteSignalDatabase.checked_eq_ok.2 hafter),
    attempt_ok_bind (SqliteSignalDatabase.checked_eq_ok.2 hlimit)]
  refine SqliteSignalDatabase.snapshot_ok ?_
  rw [h.selectWaits fun wait hwait => holds_listedWait hstatuses (h.waitBound wait hwait).1]
  simp only [bind_eq_ok, exists_const, demand_eq_ok, SqliteSignalDatabase.checked_eq_ok]
  refine ⟨hcursor, hydratePage_eq fun wait hwait => ?_⟩
  exact h.hydrateWait_tables (List.mem_filter.1 hwait).1

end Stored

end InMemorySignalStore

end OpenGameAgent
