import OpenGameAgent.Storage.SqliteActionJournal
import OpenGameAgent.Actions.Ledger

/-!
# The SQLite journal refines the ledger

Every call on a SQLite journal that answers is a path of changes to the database's
ledger that fits the call, and a call that throws leaves the database as it was:
`call_path`.
-/

namespace OpenGameAgent

namespace SqliteActionDatabase

/-- What the tables say of the records and the conflict keys. -/
def ledger (database : SqliteActionDatabase) : Ledger where
  record key := (database.selectRow key).map ActionRow.record
  owner key := (database.conflicts.get? key).map ConflictRow.operationId

variable {ctx : ActionContext} {tables : SqliteRunAuthority} {database : SqliteActionDatabase}

/-! ## Rows -/

/-- A sequence names one row. -/
theorem eq_of_sequence {a b : ActionRow} (ha : a ∈ database.rows) (hb : b ∈ database.rows)
    (h : a.sequence = b.sequence) : a = b := by
  have hnodup : (database.rows.map ActionRow.sequence).Nodup := by
    have hkey := database.primaryKey
    rw [← List.pairwise_map] at hkey
    exact hkey.imp fun hlt => Nat.ne_of_lt hlt
  exact List.inj_on_of_nodup_map hnodup ha hb h

/-- A key names one row. -/
theorem eq_of_key {a b : ActionRow} (ha : a ∈ database.rows) (hb : b ∈ database.rows)
    (h : a.record.key = b.record.key) : a = b :=
  List.inj_on_of_nodup_map database.unique ha hb h

theorem selectRow_eq_some_iff {key : ActionKey} {row : ActionRow} :
    database.selectRow key = some row ↔ row ∈ database.rows ∧ row.record.key = key := by
  constructor
  · intro h
    exact ⟨List.mem_of_find?_eq_some h, by simpa using List.find?_some h⟩
  · rintro ⟨hmem, hkey⟩
    cases hselect : database.selectRow key with
    | none =>
      have hall := List.find?_eq_none.1 hselect row hmem
      simp [hkey] at hall
    | some other =>
      have hother : other.record.key = key := by simpa using List.find?_some hselect
      rw [eq_of_key (List.mem_of_find?_eq_some hselect) hmem (hother.trans hkey.symm)]

theorem record_eq_some_iff {key : ActionKey} {record : ActionRecord} :
    database.ledger.record key = some record ↔
      ∃ row ∈ database.rows, row.record = record ∧ record.key = key := by
  unfold ledger
  simp only [Option.map_eq_some_iff, selectRow_eq_some_iff]
  constructor
  · rintro ⟨row, ⟨hmem, hkey⟩, rfl⟩
    exact ⟨row, hmem, rfl, hkey⟩
  · rintro ⟨row, hmem, rfl, hkey⟩
    exact ⟨row, ⟨hmem, hkey⟩, rfl⟩

theorem record_of_mem {row : ActionRow} (h : row ∈ database.rows) :
    database.ledger.record row.record.key = some row.record :=
  record_eq_some_iff.2 ⟨row, h, rfl, rfl⟩

/-- Two ledgers with the same records under every key. -/
theorem record_ext {f g : ActionKey → Option ActionRecord}
    (h : ∀ key record, f key = some record ↔ g key = some record) : f = g := by
  funext key
  exact Option.ext fun record => h key record

theorem mem_updatedRows_iff {rows : List ActionRow} {sequence : Nat} {record : ActionRecord}
    {row : ActionRow} :
    row ∈ updatedRows rows sequence record ↔
      (row ∈ rows ∧ row.sequence ≠ sequence) ∨
        (row = ⟨sequence, record⟩ ∧ ∃ old ∈ rows, old.sequence = sequence) := by
  unfold updatedRows
  rw [List.mem_map]
  constructor
  · rintro ⟨old, hmem, hrow⟩
    split at hrow
    · rename_i hsame
      exact Or.inr ⟨hrow.symm, old, hmem, hsame⟩
    · rename_i hne
      exact Or.inl (hrow ▸ ⟨hmem, hne⟩)
  · rintro (⟨hmem, hne⟩ | ⟨rfl, old, hmem, hsame⟩)
    · exact ⟨row, hmem, if_neg hne⟩
    · exact ⟨old, hmem, if_pos hsame⟩

/-- Updating a row changes the ledger under the key of its record alone. -/
theorem record_updated {row : ActionRow} {moved : ActionRecord} (hrow : row ∈ database.rows)
    (hkey : moved.key = row.record.key)
    (hunique : ((updatedRows database.rows row.sequence moved).map fun row =>
      row.record.key).Nodup) :
    (database.updated row.sequence moved hunique).ledger.record =
      database.ledger.write row.record.key (some moved) := by
  refine record_ext fun key record => ?_
  rw [record_eq_some_iff]
  show (∃ other ∈ updatedRows database.rows row.sequence moved, _) ↔ _
  simp only [Ledger.write, mem_updatedRows_iff]
  by_cases hk : key = row.record.key
  · rw [if_pos hk, Option.some.injEq]
    constructor
    · rintro ⟨other, ⟨hmem, hne⟩ | ⟨rfl, -⟩, rfl, hother⟩
      · exact absurd (eq_of_key hmem hrow (hother.trans hk) ▸ rfl) hne
      · rfl
    · rintro rfl
      exact ⟨⟨row.sequence, moved⟩, Or.inr ⟨rfl, row, hrow, rfl⟩, rfl, hkey.trans hk.symm⟩
  · rw [if_neg hk, record_eq_some_iff]
    constructor
    · rintro ⟨other, ⟨hmem, -⟩ | ⟨rfl, -⟩, rfl, hother⟩
      · exact ⟨other, hmem, rfl, hother⟩
      · exact absurd (hother.symm.trans hkey) hk
    · rintro ⟨other, hmem, rfl, hother⟩
      refine ⟨other, Or.inl ⟨hmem, ?_⟩, rfl, hother⟩
      intro hsame
      rw [eq_of_sequence hmem hrow hsame] at hother
      exact hk hother.symm

/-- The rows with other sequences survive an update. -/
theorem mem_updated_of_ne {row other : ActionRow} {moved : ActionRecord}
    (hother : other ∈ database.rows) (hne : other.sequence ≠ row.sequence) :
    other ∈ updatedRows database.rows row.sequence moved :=
  mem_updatedRows_iff.2 (Or.inl ⟨hother, hne⟩)

/-! ## Conflict keys -/

theorem canAcquire_iff {record : ActionRecord} :
    database.canAcquire record = true ↔ CanAcquire database.ledger.owner record := by
  unfold canAcquire CanAcquire ledger
  simp only [List.all_eq_true, Option.all_eq_true, decide_eq_true_eq, Option.map_eq_some_iff,
    forall_exists_index, and_imp]
  constructor
  · rintro h key hkey holder row hrow rfl
    exact h key hkey row hrow
  · intro h key hkey row hrow
    exact h key hkey _ row hrow rfl

theorem release_owner (record : ActionRecord) :
    (database.release record).ledger.owner = released database.ledger.owner record :=
  map_get?_foldl_delete ConflictRow.operationId record database.conflicts

/-- A program that is checked only when it answers. -/
abbrev Answers {α : Type} (m : EStateM ActionError SqliteActionDatabase α)
    (database : SqliteActionDatabase) (Q : α → SqliteActionDatabase → Prop) : Prop :=
  Ends m database Q fun _ _ => True

theorem acquireKeys_spec (record : ActionRecord) (keys : List String)
    (database : SqliteActionDatabase) :
    Answers (acquireKeys record keys) database fun _ database' =>
      database'.rows = database.rows ∧
        database'.ledger.owner = fun key =>
          if key.1 = record.sessionId ∧ key.2 ∈ keys then some record.operationId
          else database.ledger.owner key := by
  induction keys generalizing database with
  | nil =>
    refine ⟨rfl, ?_⟩
    funext key
    simp
  | cons head rest ih =>
    simp only [acquireKeys, ends_bind, ends_get]
    split
    · trivial
    · rw [ends_bind, ends_set]
      refine (ih _).mono (fun _ database' h => ?_) (fun _ _ _ => trivial)
      obtain ⟨hrows, howner⟩ := h
      refine ⟨hrows, ?_⟩
      rw [howner]
      funext key
      unfold ledger
      dsimp only
      rw [OrderedMap.get?_set]
      by_cases hs : key.1 = record.sessionId
      · by_cases hh : key.2 = head
        · have hk : (record.sessionId, head) = key := by rw [← hs, ← hh]
          simp [hs, hh, hk]
        · have hk : (record.sessionId, head) ≠ key := by
            intro hc
            exact hh (by rw [← hc])
          simp [hs, hh, hk]
      · have hk : (record.sessionId, head) ≠ key := by
          intro hc
          exact hs (by rw [← hc])
        simp [hs, hk]

theorem acquire_owner (record : ActionRecord) (database : SqliteActionDatabase) :
    Answers (acquire record) database fun _ database' =>
      database'.rows = database.rows ∧
        database'.ledger.owner = acquired database.ledger.owner record :=
  acquireKeys_spec record record.conflictKeys database

/-! ## Writes -/

theorem updateRecord_spec (sequence : Nat) (record : ActionRecord)
    (database : SqliteActionDatabase) :
    Answers (updateRecord ctx sequence record) database fun _ database' =>
      ∃ hunique, database' = database.updated sequence record hunique := by
  simp only [updateRecord, ends_bind, ends_attempt, ends_get]
  refine ⟨fun _ _ => ⟨fun _ _ => ?_, fun _ _ => trivial⟩, fun _ _ => trivial⟩
  split
  · trivial
  · split
    · rename_i hunique
      exact ⟨hunique, rfl⟩
    · trivial

theorem rowToRecord_eq_ok {row : ActionRow} {record : ActionRecord}
    (h : rowToRecord ctx row = .ok record) : record = row.record := by
  unfold rowToRecord at h
  rw [check_eq_ok, check_eq_ok] at h
  exact return_eq_ok.1 h.2.2

/-- The tables with one row's record replaced, once the owners were written. -/
theorem ledger_updated {base : SqliteActionDatabase} {row : ActionRow} {moved : ActionRecord}
    (hrow : row ∈ database.rows) (hrows : base.rows = database.rows)
    (hkey : moved.key = row.record.key)
    (hunique : ((updatedRows base.rows row.sequence moved).map fun row =>
      row.record.key).Nodup) :
    (base.updated row.sequence moved hunique).ledger =
      ⟨database.ledger.write row.record.key (some moved), base.ledger.owner⟩ := by
  have hbase : row ∈ base.rows := hrows ▸ hrow
  have hrecord : base.ledger.record = database.ledger.record := by
    unfold ledger selectRow
    rw [hrows]
  have hwrite : base.ledger.write row.record.key (some moved) =
      database.ledger.write row.record.key (some moved) := by
    unfold Ledger.write
    rw [hrecord]
  rw [← hwrite, ← record_updated hbase hkey hunique]
  rfl

/-- One move, written to the tables. -/
theorem step_updated {base : SqliteActionDatabase} {row : ActionRow} {moved : ActionRecord}
    {move : ActionMove} (hrow : row ∈ database.rows) (hrows : base.rows = database.rows)
    (hmoves : Moves row.record move moved)
    (howners : move.Owners row.record moved database.ledger.owner base.ledger.owner)
    (hunique : ((updatedRows base.rows row.sequence moved).map fun row =>
      row.record.key).Nodup) :
    database.ledger.Step (.move row.record move moved)
      (base.updated row.sequence moved hunique).ledger := by
  rw [ledger_updated hrow hrows hmoves.key]
  exact Ledger.Step.move (record_of_mem hrow) hmoves howners

/-! ## Sweeps -/

/-- A list of rows that are still to be visited: they stand in the table as they were
read. -/
structure Pending (database : SqliteActionDatabase) (rows : List ActionRow) : Prop where
  present : ∀ row ∈ rows, row ∈ database.rows
  distinct : (rows.map ActionRow.sequence).Nodup

theorem Pending.tail {row : ActionRow} {rest : List ActionRow}
    (h : database.Pending (row :: rest)) : database.Pending rest where
  present := fun other hmem => h.present other (List.mem_cons_of_mem _ hmem)
  distinct := (List.nodup_cons.1 h.distinct).2

/-- Updating the row in hand leaves the others as they were read. -/
theorem Pending.updated {base : SqliteActionDatabase} {row : ActionRow} {rest : List ActionRow}
    {moved : ActionRecord} (h : database.Pending (row :: rest)) (hrows : base.rows = database.rows)
    (hunique : ((updatedRows base.rows row.sequence moved).map fun row =>
      row.record.key).Nodup) : (base.updated row.sequence moved hunique).Pending rest where
  present := by
    intro other hmem
    have hin := h.present other (List.mem_cons_of_mem _ hmem)
    rw [← hrows] at hin
    refine mem_updated_of_ne hin ?_
    intro hsame
    exact (List.nodup_cons.1 h.distinct).1 (hsame ▸ List.mem_map_of_mem hmem)
  distinct := (List.nodup_cons.1 h.distinct).2

/-- The rows a query selects. -/
theorem Pending.of_sublist {rows : List ActionRow} (h : rows.Sublist database.rows) :
    database.Pending rows where
  present := fun _ hmem => h.subset hmem
  distinct := by
    have hkey := database.primaryKey
    rw [← List.pairwise_map] at hkey
    exact (hkey.sublist (h.map _)).imp fun hlt => Nat.ne_of_lt hlt

theorem Pending.take {rows : List ActionRow} (h : database.Pending rows) (n : Nat) :
    database.Pending (rows.take n) where
  present := fun row hmem => h.present row (List.mem_of_mem_take hmem)
  distinct := h.distinct.sublist ((List.take_sublist n rows).map _)

theorem Pending.perm {rows rows' : List ActionRow} (h : database.Pending rows)
    (hperm : rows'.Perm rows) : database.Pending rows' where
  present := fun row hmem => h.present row (hperm.subset hmem)
  distinct := ((hperm.map _).nodup_iff).2 h.distinct

theorem retireRows_sweeps (request : ActionClaimRequest) (rows : List ActionRow)
    (database : SqliteActionDatabase) (hpending : database.Pending rows) :
    Answers (retireRows ctx tables request rows) database fun _ database' =>
      database.ledger.Sweeps request.claimedAt database'.ledger := by
  induction rows generalizing database with
  | nil => exact Ledger.Sweeps.refl _ _
  | cons row rest ih =>
    simp only [retireRows, ends_bind, ends_attempt]
    refine ⟨fun record hrecord => ⟨fun isOpen _ => ?_, fun _ _ => trivial⟩, fun _ _ => trivial⟩
    have hrow := rowToRecord_eq_ok hrecord
    subst hrow
    split
    · trivial
    · simp only [ends_bind, ends_attempt, ends_modify]
      refine ⟨fun transition htransition => ?_, fun _ _ => trivial⟩
      obtain ⟨hvalid, hstatus, hunapplied, rfl⟩ :=
        retirePendingActionRecord_eq_ok_iff.1 htransition
      refine (updateRecord_spec _ _ _).mono (fun _ _ hwritten => ?_) (fun _ _ _ => trivial)
      obtain ⟨hunique, rfl⟩ := hwritten
      have howners : Drops row.record database.ledger.owner
          (database.release row.record).ledger.owner := by
        rw [release_owner]
        exact released_drops _ _
      have hrows : (database.release row.record).rows = database.rows := rfl
      have hstep := step_updated (hpending.present row (List.mem_cons_self ..)) hrows
        (Moves.retire hvalid hstatus hunapplied) howners hunique
      refine (ih _ (hpending.updated hrows hunique)).mono (fun _ _ h => ?_) (fun _ _ _ => trivial)
      exact Ledger.Sweeps.cons hstep rfl h

theorem expireRows_sweeps (request : ActionClaimRequest) (rows : List ActionRow)
    (replayable : List Nat) (changed : Bool) (database : SqliteActionDatabase)
    (hpending : database.Pending rows) :
    Answers (expireRows ctx tables request replayable changed rows) database fun _ database' =>
      database.ledger.Sweeps request.claimedAt database'.ledger := by
  induction rows generalizing replayable changed database with
  | nil => exact Ledger.Sweeps.refl _ _
  | cons row rest ih =>
    simp only [expireRows, ends_bind, ends_attempt]
    refine ⟨fun record hrecord => ⟨fun isOpen _ => ?_, fun _ _ => trivial⟩, fun _ _ => trivial⟩
    have hrow := rowToRecord_eq_ok hrecord
    subst hrow
    split
    · exact ih _ _ database hpending.tail
    · simp only [ends_bind, ends_attempt]
      refine ⟨fun transition htransition => ?_, fun _ _ => trivial⟩
      obtain ⟨hvalid, hclaimed, hdue, rfl⟩ := expireActionRecord_eq_ok_iff.1 htransition
      simp only [Bool.false_eq_true, if_false, ends_bind]
      refine (updateRecord_spec _ _ _).mono (fun _ _ hwritten => ?_) (fun _ _ _ => trivial)
      obtain ⟨hunique, rfl⟩ := hwritten
      have hstep := step_updated (hpending.present row (List.mem_cons_self ..)) rfl
        (Moves.expire hvalid hclaimed hdue) rfl hunique
      refine (ih _ _ _ (hpending.updated rfl hunique)).mono (fun _ _ h => ?_)
        (fun _ _ _ => trivial)
      exact Ledger.Sweeps.cons hstep rfl h

theorem pending_dueRows (request : ActionClaimRequest) (database : SqliteActionDatabase) :
    database.Pending (dueRows request database) := by
  unfold dueRows
  rw [List.map_take]
  refine Pending.take ?_ _
  have hsub : ((database.rows.filterMap fun row =>
      if row.record.dueFor request then row.record.claim.map fun claim => (row, claim.expiresAt)
      else none).map Prod.fst).Sublist database.rows := by
    induction database.rows with
    | nil => simp
    | cons row rest ih =>
      rw [List.filterMap_cons]
      split
      · exact ih.cons row
      · rename_i entry hentry
        have hfst : entry.1 = row := by
          split at hentry
          · obtain ⟨claim, -, rfl⟩ := Option.map_eq_some_iff.1 hentry
            rfl
          · cases hentry
        rw [List.map_cons, hfst]
        exact ih.cons_cons row
  exact (Pending.of_sublist hsub).perm ((List.perm_insertionSort _ _).map _)

theorem pending_closedPendingRows (request : ActionClaimRequest)
    (database : SqliteActionDatabase) :
    database.Pending (closedPendingRows tables request database) :=
  (Pending.of_sublist List.filter_sublist).take _

/-! ## Dispatch -/

/-- The first row that can be claimed is dispatched; otherwise nothing happens. -/
theorem claimRows_dispatches (request : ActionClaimRequest) (rows : List ActionRow)
    (hpresent : ∀ row ∈ rows, row ∈ database.rows) :
    Answers (claimRows ctx tables request rows) database fun claimed database' =>
      match claimed with
      | none => database' = database
      | some moved => ∃ dispatch, database.ledger.Step dispatch database'.ledger ∧
          dispatch.IsDispatch request moved := by
  induction rows with
  | nil => exact rfl
  | cons row rest ih =>
    have hrest : ∀ other ∈ rest, other ∈ database.rows :=
      fun other hmem => hpresent other (List.mem_cons_of_mem _ hmem)
    simp only [claimRows, ends_bind, ends_attempt]
    refine ⟨fun record hrecord => ⟨fun isOpen _ => ?_, fun _ _ => trivial⟩, fun _ _ => trivial⟩
    have hrow := rowToRecord_eq_ok hrecord
    subst hrow
    split
    · simp only [ends_bind, ends_get]
      split
      · exact ih hrest
      · rename_i hcan
        rw [Bool.not_eq_true', Bool.not_eq_false] at hcan
        have hacquire := canAcquire_iff.1 hcan
        split
        · trivial
        · simp only [ends_bind, ends_attempt]
          refine ⟨fun transition htransition => ?_, fun _ _ => trivial⟩
          have hin := hpresent row (List.mem_cons_self ..)
          by_cases hreplay : row.record.status = .claimed
          · simp only [hreplay, decide_true, if_true] at htransition ⊢
            obtain ⟨hvalid, hclaimed, hsafe, hdue, rfl⟩ :=
              reclaimActionRecord_eq_ok_iff.1 htransition
            simp only [ends_bind, ends_modify, ends_pure]
            refine (acquire_owner _ _).mono (fun _ base hbase => ?_) (fun _ _ _ => trivial)
            obtain ⟨hrows, howner⟩ := hbase
            refine (updateRecord_spec _ _ _).mono (fun _ _ hwritten => ?_)
              (fun _ _ _ => trivial)
            obtain ⟨hunique, rfl⟩ := hwritten
            refine ⟨.move row.record (.reclaim request) (row.record.claimedBy request), ?_, rfl,
              rfl⟩
            refine step_updated hin hrows (Moves.reclaim hvalid hclaimed hsafe hdue)
              ⟨hacquire, ?_⟩ hunique
            rw [howner, release_owner]
            rfl
          · simp only [hreplay, decide_false, Bool.false_eq_true, if_false] at htransition ⊢
            obtain ⟨hvalid, hpending, rfl⟩ := claimActionRecord_eq_ok_iff.1 htransition
            simp only [ends_bind, ends_pure]
            refine (acquire_owner _ _).mono (fun _ base hbase => ?_) (fun _ _ _ => trivial)
            obtain ⟨hrows, howner⟩ := hbase
            refine (updateRecord_spec _ _ _).mono (fun _ _ hwritten => ?_)
              (fun _ _ _ => trivial)
            obtain ⟨hunique, rfl⟩ := hwritten
            refine ⟨.move row.record (.claim request) (row.record.claimedBy request), ?_, rfl,
              rfl⟩
            refine step_updated hin hrows (Moves.claim hvalid hpending) ⟨hacquire, ?_⟩ hunique
            rw [howner]
            rfl
    · exact ih hrest

/-- `nextDelivery` sweeps and then dispatches at most one action. -/
theorem nextDelivery_path (request : ActionClaimRequest) (database : SqliteActionDatabase) :
    Ends (nextDelivery ctx tables request) database
      (fun selection database' => ∃ changes,
        Ledger.Path database.ledger changes database'.ledger ∧
          Fits (.nextDelivery request) (some (.selection selection)) changes)
      (fun _ database' => database' = database) := by
  simp only [nextDelivery, ends_bind, ends_attempt, ends_transaction]
  refine ⟨fun _ _ => ?_, fun _ _ => trivial⟩
  simp only [retireClosedPending, ends_bind, ends_get]
  refine (retireRows_sweeps request _ database (pending_closedPendingRows request database)).mono
    (fun _ swept hretired => ?_) (fun _ _ _ => trivial)
  simp only [ends_pure, expireDueClaims, ends_bind, ends_get]
  refine (expireRows_sweeps request _ [] false swept (pending_dueRows request swept)).mono
    (fun expired database₂ hexpired => ?_) (fun _ _ _ => trivial)
  obtain ⟨replayable, changed⟩ := expired
  obtain ⟨changes, hpath, hall⟩ := hretired.trans hexpired
  dsimp only
  refine ⟨fun unsettled _ => ?_, fun _ _ => trivial⟩
  cases unsettled with
  | some unsettled => exact ⟨changes, hpath, hall⟩
  | none =>
    simp only [ends_bind, claimPendingRecord, ends_get]
    have hpresent : ∀ row ∈ claimableRows request replayable database₂, row ∈ database₂.rows :=
      fun row hmem => List.mem_of_mem_filter (List.mem_of_mem_take hmem)
    refine (claimRows_dispatches request _ hpresent).mono (fun claimed database₃ hclaimed => ?_)
      (fun _ _ _ => trivial)
    cases claimed with
    | none =>
      dsimp only at hclaimed
      subst hclaimed
      simp only [ends_bind, ends_get, ends_attempt, ends_pure]
      refine ⟨fun waitingReplay _ => ⟨changes, hpath, ?_⟩, fun _ _ => trivial⟩
      cases waitingReplay <;> exact hall
    | some moved =>
      obtain ⟨dispatch, hstep, hdispatch⟩ := hclaimed
      exact ⟨changes ++ [dispatch], hpath.append (.single hstep), changes, dispatch, rfl, hall,
        hdispatch⟩

/-! ## The other methods -/

/-- `requireRow` finds the row of a key and leaves the tables alone. -/
theorem ends_requireRow {key : ActionKey} {Q : ActionRow → SqliteActionDatabase → Prop}
    {E : ActionError → SqliteActionDatabase → Prop}
    (hQ : ∀ row ∈ database.rows, row.record.key = key → Q row database)
    (hE : ∀ e, E e database) : Ends (requireRow key) database Q E := by
  simp only [requireRow, ends_bind, ends_attempt, ends_get]
  refine ⟨fun _ _ => ⟨fun _ _ => ?_, fun e _ => hE e⟩, fun e _ => hE e⟩
  split
  · exact hE _
  · rename_i row hrow
    obtain ⟨hmem, hkey⟩ := selectRow_eq_some_iff.1 hrow
    exact hQ row hmem hkey

theorem released_congr {record moved : ActionRecord}
    (h : moved.toPreparedActionIntent = record.toPreparedActionIntent)
    (owner : String × String → Option String) : released owner moved = released owner record := by
  unfold released
  rw [h]

/-- A transition that moves a row is one change of the ledger. -/
theorem store_path {row : ActionRow} {transition : ActionTransition}
    {Q : ActionRecord → SqliteActionDatabase → Prop}
    (hsame : transition.replayed = true → Q transition.record database)
    (hmoved : transition.replayed = false → ∀ base : SqliteActionDatabase,
      base.rows = database.rows →
      base.ledger.owner = (if transition.releaseConflicts then
        released database.ledger.owner transition.record else database.ledger.owner) →
      ∀ hunique, Q transition.record (base.updated row.sequence transition.record hunique)) :
    Answers (store ctx row transition) database Q := by
  unfold store
  cases hreplayed : transition.replayed with
  | true =>
    simp only [if_true, ends_pure]
    exact hsame hreplayed
  | false =>
    simp only [Bool.false_eq_true, if_false]
    have hwrite : ∀ base : SqliteActionDatabase, base.rows = database.rows →
        base.ledger.owner = (if transition.releaseConflicts then
          released database.ledger.owner transition.record else database.ledger.owner) →
        Answers (updateRecord ctx row.sequence transition.record) base
          fun _ database' => Q transition.record database' := by
      intro base hrows howner
      refine (updateRecord_spec _ _ base).mono (fun _ _ hwritten => ?_) (fun _ _ _ => trivial)
      obtain ⟨hunique, rfl⟩ := hwritten
      exact hmoved hreplayed base hrows howner hunique
    cases hrelease : transition.releaseConflicts with
    | true =>
      simp only [if_true, Answers, ends_bind, ends_modify, ends_pure]
      refine hwrite _ rfl ?_
      rw [hrelease, if_pos rfl, release_owner]
    | false =>
      simp only [Bool.false_eq_true, if_false, Answers, ends_bind, ends_pure]
      refine hwrite _ rfl ?_
      rw [hrelease, if_neg Bool.false_ne_true]

theorem ensure_path (intent : PreparedActionIntent) (now : String)
    (database : SqliteActionDatabase) :
    Ends (ensure ctx tables intent now) database
      (fun _ database' => ∃ changes, Ledger.Path database.ledger changes database'.ledger ∧
        Fits (.ensure intent now) none changes)
      (fun _ database' => database' = database) := by
  simp only [ensure, ends_transaction, ends_bind, ends_attempt, ends_get]
  refine ⟨fun existing hexisting => ?_, fun _ _ => trivial⟩
  cases existing with
  | some existing =>
    dsimp only
    split
    · trivial
    · exact ⟨[], .nil _, Or.inl rfl⟩
  | none =>
    have hfresh : database.ledger.record (intent.admitted now).key = none := by
      show (database.selectRow intent.key).map _ = none
      cases hselect : database.selectRow intent.key with
      | none => rfl
      | some row =>
        rw [hselect] at hexisting
        unfold hydrateRow at hexisting
        cases hrow : rowToRecord ctx row <;> simp [hrow] at hexisting
    simp only [ends_bind, ends_attempt, insertRow, ends_get, ends_pure]
    refine ⟨fun _ _ => ⟨fun _ _ => ⟨fun _ _ => ⟨fun _ _ => ?_, fun _ _ => trivial⟩,
      fun _ _ => trivial⟩, fun _ _ => trivial⟩, fun _ _ => trivial⟩
    split
    · trivial
    · rename_i hnew
      refine ⟨[.admission (intent.admitted now)], .single ?_, Or.inr rfl⟩
      have hstep := Ledger.Step.admission hfresh rfl rfl rfl
      have hrecord : (database.inserted (intent.admitted now) hnew).ledger.record =
          database.ledger.write (intent.admitted now).key (some (intent.admitted now)) := by
        refine record_ext fun key record => ?_
        rw [record_eq_some_iff]
        show (∃ row ∈ database.rows ++ [⟨database.nextSequence, intent.admitted now⟩], _) ↔ _
        simp only [Ledger.write, List.mem_append, List.mem_singleton]
        by_cases hk : key = (intent.admitted now).key
        · rw [if_pos hk, Option.some.injEq]
          constructor
          · rintro ⟨row, hmem | rfl, rfl, hrow⟩
            · exact absurd (List.mem_map.2 ⟨row, hmem, hrow.trans hk⟩) hnew
            · rfl
          · rintro rfl
            exact ⟨_, Or.inr rfl, rfl, hk.symm⟩
        · rw [if_neg hk, record_eq_some_iff]
          constructor
          · rintro ⟨row, hmem | rfl, rfl, hrow⟩
            · exact ⟨row, hmem, rfl, hrow⟩
            · exact absurd hrow.symm hk
          · rintro ⟨row, hmem, rfl, hrow⟩
            exact ⟨row, Or.inl hmem, rfl, hrow⟩
      rw [← hrecord] at hstep
      exact hstep

/-- Two moves written to the tables at once. -/
theorem path_retired {base : SqliteActionDatabase} {row : ActionRow} {between moved : ActionRecord}
    {first : ActionMove} {now : String} (hrow : row ∈ database.rows)
    (hrows : base.rows = database.rows) (hmoves : Moves row.record first between)
    (hretire : Moves between (.retire now) moved)
    (howners : first.Owners row.record between database.ledger.owner base.ledger.owner)
    (hunique : ((updatedRows base.rows row.sequence moved).map fun row =>
      row.record.key).Nodup) :
    Ledger.Path database.ledger
      [.move row.record first between, .move between (.retire now) moved]
      (base.updated row.sequence moved hunique).ledger := by
  have hfirst := Ledger.Step.move (record_of_mem hrow) hmoves howners
  have hpresent : (Ledger.mk (database.ledger.write row.record.key (some between))
      base.ledger.owner).record between.key = some between := by
    show database.ledger.write row.record.key (some between) between.key = some between
    unfold Ledger.write
    rw [if_pos hmoves.key]
  have hdrops : (ActionMove.retire now).Owners between moved base.ledger.owner
      base.ledger.owner := fun _ => Or.inl rfl
  have hsecond := Ledger.Step.move hpresent hretire hdrops
  rw [hmoves.key, Ledger.write_write] at hsecond
  rw [ledger_updated hrow hrows (hretire.key.trans hmoves.key)]
  exact .cons hfirst (.single hsecond)

/-- What an answer does to the owners, once its transition is known. -/
theorem answered_owner {base : SqliteActionDatabase} {record : ActionRecord}
    {transition : ActionTransition}
    (hintent : transition.record.toPreparedActionIntent = record.toPreparedActionIntent)
    (hrelease : transition.releaseConflicts = !transition.record.status.unsettled)
    (howners : base.ledger.owner = (if transition.releaseConflicts then
      released database.ledger.owner transition.record else database.ledger.owner)) :
    base.ledger.owner = if transition.record.status.unsettled then database.ledger.owner
      else released database.ledger.owner record := by
  rw [howners, hrelease, released_congr hintent]
  cases transition.record.status.unsettled <;> rfl

theorem recordReceipt_path (input : ActionReceiptInput) (database : SqliteActionDatabase) :
    Ends (recordReceipt ctx input) database
      (fun _ database' => ∃ changes, Ledger.Path database.ledger changes database'.ledger ∧
        Fits (.recordReceipt input) none changes)
      (fun _ database' => database' = database) := by
  simp only [recordReceipt, ends_transaction, ends_bind]
  refine ends_requireRow (fun row hrow hkey => ?_) (fun _ => trivial)
  simp only [ends_attempt]
  refine ⟨fun record hrecord => ⟨fun transition htransition => ?_, fun _ _ => trivial⟩,
    fun _ _ => trivial⟩
  have hread := rowToRecord_eq_ok hrecord
  subst hread
  rcases receiptActionRecord_cases htransition with ⟨rfl, -⟩ | ⟨hmoves, hfresh, hrelease⟩
  · refine (store_path (fun _ => ?_) (fun hc => by cases hc)).mono (fun _ _ h => h)
      (fun _ _ _ => trivial)
    exact ⟨[], .nil _, Or.inl rfl⟩
  · refine (store_path (fun hc => absurd hc (by simp [hfresh]))
      (fun _ base hbase howners hunique => ?_)).mono (fun _ _ h => h) (fun _ _ _ => trivial)
    refine ⟨[.move row.record (.receipt input) transition.record], .single ?_,
      Or.inr ⟨row.record, transition.record, hkey, rfl⟩⟩
    exact step_updated hrow hbase hmoves (answered_owner hmoves.intent hrelease howners) hunique

theorem reconcile_path (input : ActionReconcileInput) (database : SqliteActionDatabase) :
    Ends (reconcile ctx tables input) database
      (fun _ database' => ∃ changes, Ledger.Path database.ledger changes database'.ledger ∧
        Reconciles input changes)
      (fun _ database' => database' = database) := by
  simp only [reconcile, ends_transaction, ends_bind]
  refine ends_requireRow (fun row hrow hkey => ?_) (fun _ => trivial)
  simp only [ends_attempt]
  refine ⟨fun record hrecord => ⟨fun transition htransition => ⟨fun isOpen _ => ?_,
    fun _ _ => trivial⟩, fun _ _ => trivial⟩, fun _ _ => trivial⟩
  have hread := rowToRecord_eq_ok hrecord
  subst hread
  have hcases := reconcileActionRecord_cases htransition
  split
  · -- The reconciliation stands as it is.
    rcases hcases with ⟨rfl, -⟩ | ⟨hmoves, hfresh, hrelease⟩
    · refine (store_path (fun _ => ?_) (fun hc => by cases hc)).mono (fun _ _ h => h)
        (fun _ _ _ => trivial)
      exact ⟨[], .nil _, [], [], rfl, Or.inl rfl, Or.inl rfl⟩
    · refine (store_path (fun hc => absurd hc (by simp [hfresh]))
        (fun _ base hbase howners hunique => ?_)).mono (fun _ _ h => h) (fun _ _ _ => trivial)
      refine ⟨[.move row.record (.reconcile input) transition.record], .single ?_,
        [.move row.record (.reconcile input) transition.record], [], rfl,
        Or.inr ⟨row.record, transition.record, hkey, rfl⟩, Or.inl rfl⟩
      exact step_updated hrow hbase hmoves (answered_owner hmoves.intent hrelease howners) hunique
  · -- The run is closed: what would be dispatched again is retired.
    simp only [ends_bind, ends_attempt]
    refine ⟨fun retired hretired => ?_, fun _ _ => trivial⟩
    obtain ⟨hvalid, hpending, hunapplied, rfl⟩ := retirePendingActionRecord_eq_ok_iff.1 hretired
    have hretire := Moves.retire hvalid hpending hunapplied
    refine (store_path (fun hc => by cases hc) (fun _ base hbase howners hunique => ?_)).mono
      (fun _ _ h => h) (fun _ _ _ => trivial)
    rcases hcases with ⟨rfl, -⟩ | ⟨hmoves, hfresh, hrelease⟩
    · refine ⟨[.move row.record (.retire input.reconciledAt)
          (row.record.retiredAt input.reconciledAt)], .single ?_, [],
        [.move row.record (.retire input.reconciledAt) (row.record.retiredAt input.reconciledAt)],
        rfl, Or.inl rfl, Or.inr ⟨row.record, _, rfl⟩⟩
      refine step_updated hrow hbase hretire ?_ hunique
      rw [howners]
      intro key
      exact Or.inl rfl
    · -- The ledger passes through the pending record on the way.
      have hpath := path_retired hrow hbase hmoves hretire
        (answered_owner hmoves.intent hrelease howners) hunique
      refine ⟨_, hpath, [.move row.record (.reconcile input) transition.record],
        [.move transition.record (.retire input.reconciledAt)
          (transition.record.retiredAt input.reconciledAt)], rfl,
        Or.inr ⟨row.record, transition.record, hkey, rfl⟩, Or.inr ⟨transition.record, _, rfl⟩⟩

theorem settleGoalProjection_path (input : ActionGoalProjectionSettlementInput)
    (database : SqliteActionDatabase) :
    Ends (settleGoalProjection ctx input) database
      (fun _ database' => ∃ changes, Ledger.Path database.ledger changes database'.ledger ∧
        Fits (.settleGoalProjection input) none changes)
      (fun _ database' => database' = database) := by
  simp only [settleGoalProjection, ends_bind, ends_attempt, ends_transaction]
  refine ⟨fun _ _ => ?_, fun _ _ => trivial⟩
  refine ends_requireRow (fun row hrow _ => ?_) (fun _ => trivial)
  refine ⟨fun record hrecord => ⟨fun settled hsettled => ?_, fun _ _ => trivial⟩,
    fun _ _ => trivial⟩
  have hread := rowToRecord_eq_ok hrecord
  subst hread
  rcases settleActionGoalProjectionRecord_cases hsettled with rfl | ⟨hmoves, hfresh⟩
  · exact ⟨[], .nil _, Or.inl rfl⟩
  · rw [hfresh, if_neg Bool.false_ne_true]
    simp only [ends_bind, ends_pure]
    refine (updateRecord_spec _ _ _).mono (fun _ _ hwritten => ?_) (fun _ _ _ => trivial)
    obtain ⟨hunique, rfl⟩ := hwritten
    refine ⟨[.move row.record (.settle input) settled.record], .single ?_,
      Or.inr ⟨row.record, settled.record, rfl⟩⟩
    exact step_updated hrow rfl hmoves rfl hunique

/-! ## Purging -/

theorem record_deleteRow {row : ActionRow} (hrow : row ∈ database.rows) :
    (database.deleteRow row).ledger.record = database.ledger.write row.record.key none := by
  refine record_ext fun key record => ?_
  rw [record_eq_some_iff]
  show (∃ other ∈ database.rows.filter fun other => other.sequence ≠ row.sequence, _) ↔ _
  simp only [Ledger.write, List.mem_filter, decide_eq_true_eq]
  by_cases hk : key = row.record.key
  · rw [if_pos hk]
    simp only [reduceCtorEq, iff_false]
    rintro ⟨other, ⟨hmem, hne⟩, rfl, hother⟩
    exact hne (eq_of_key hmem hrow (hother.trans hk) ▸ rfl)
  · rw [if_neg hk, record_eq_some_iff]
    constructor
    · rintro ⟨other, ⟨hmem, -⟩, hother⟩
      exact ⟨other, hmem, hother⟩
    · rintro ⟨other, hmem, rfl, hother⟩
      refine ⟨other, ⟨hmem, ?_⟩, rfl, hother⟩
      intro hsame
      rw [eq_of_sequence hmem hrow hsame] at hother
      exact hk hother.symm

theorem deleteRow_drops (database : SqliteActionDatabase) (row : ActionRow) :
    Drops row.record database.ledger.owner (database.deleteRow row).ledger.owner := by
  intro key
  show ((database.conflicts.filterEntries _).get? key).map _ =
      (database.conflicts.get? key).map _ ∨ _
  rw [OrderedMap.get?_filterEntries]
  cases hget : database.conflicts.get? key with
  | none => exact Or.inl rfl
  | some owner =>
    by_cases hmatch : (key.1, owner.actorId, owner.operationId) =
        (row.record.sessionId, row.record.actorId, row.record.operationId)
    · right
      have hsession : key.1 = row.record.sessionId := (Prod.mk.inj hmatch).1
      have hoperation : owner.operationId = row.record.operationId :=
        (Prod.mk.inj (Prod.mk.inj hmatch).2).2
      refine ⟨?_, ?_, hsession⟩
      · show ((database.conflicts.filterEntries _).get? key).map _ = none
        rw [OrderedMap.get?_filterEntries, hget]
        simpa using hmatch
      · show (database.conflicts.get? key).map _ = _
        rw [hget, Option.map_some, hoperation]
    · left
      have hkept : (!decide ((key.1, owner.actorId, owner.operationId) =
          (row.record.sessionId, row.record.actorId, row.record.operationId))) = true := by
        rw [Bool.not_eq_true', decide_eq_false_iff_not]
        exact hmatch
      rw [Option.filter_some, if_pos hkept]

theorem deleteRows_path (rows : List ActionRow) (database : SqliteActionDatabase)
    (hpending : database.Pending rows)
    (hterminal : ∀ row ∈ rows, row.record.status.terminal = true) :
    Ledger.Path database.ledger (rows.map fun row => .purge row.record)
      (rows.foldl deleteRow database).ledger := by
  induction rows generalizing database with
  | nil => exact .nil _
  | cons row rest ih =>
    have hrow := hpending.present row (List.mem_cons_self ..)
    have hstep := Ledger.Step.purge (record_of_mem hrow)
      (hterminal row (List.mem_cons_self ..)) (deleteRow_drops database row)
    rw [← record_deleteRow hrow] at hstep
    refine .cons hstep (ih (database.deleteRow row) ?_
      fun other hmem => hterminal other (List.mem_cons_of_mem _ hmem))
    constructor
    · intro other hmem
      refine List.mem_filter.2 ⟨hpending.present other (List.mem_cons_of_mem _ hmem), ?_⟩
      rw [decide_eq_true_eq]
      intro hsame
      exact (List.nodup_cons.1 hpending.distinct).1 (hsame ▸ List.mem_map_of_mem hmem)
    · exact (List.nodup_cons.1 hpending.distinct).2

/-! ## Every call -/

/-- Every call that answers is a path of changes that fit it, and one that throws leaves
the tables as they were. -/
theorem call_path (operation : ActionOperation) (database : SqliteActionDatabase) :
    Ends (call ctx tables operation) database
      (fun answer database' => ∃ changes, Ledger.Path database.ledger changes database'.ledger ∧
        Fits operation (some answer) changes)
      (fun _ database' => database' = database) := by
  cases operation with
  | ensure intent now =>
    rw [call, ends_map]
    exact (ensure_path intent now database).mono (fun _ _ h => h) (fun _ _ h => h)
  | get stream operationId =>
    simp only [call, find, ends_map, ends_bind, ends_attempt, ends_get]
    exact ⟨fun _ _ => ⟨fun _ _ => ⟨fun _ _ => ⟨[], .nil _, rfl⟩, fun _ _ => trivial⟩,
      fun _ _ => trivial⟩, fun _ _ => trivial⟩
  | recoverDelivery stream =>
    simp only [call, recoverDelivery, ends_map, ends_bind, ends_attempt, ends_get, ends_pure]
    exact ⟨fun _ _ => ⟨fun _ _ => ⟨[], .nil _, rfl⟩, fun _ _ => trivial⟩, fun _ _ => trivial⟩
  | nextDelivery request =>
    rw [call, ends_map]
    exact nextDelivery_path request database
  | recordReceipt input =>
    rw [call, ends_map]
    exact (recordReceipt_path input database).mono (fun _ _ h => h) (fun _ _ h => h)
  | reconcile input =>
    rw [call, ends_map]
    exact (reconcile_path input database).mono (fun _ _ h => h) (fun _ _ h => h)
  | listGoalProjections request =>
    simp only [call, listGoalProjections, ends_map, ends_bind, ends_attempt]
    refine ⟨fun _ _ => ⟨fun _ _ => ?_, fun _ _ => trivial⟩, fun _ _ => trivial⟩
    split
    · exact ⟨[], .nil _, rfl⟩
    · simp only [ends_bind, ends_get, ends_attempt, ends_pure]
      exact ⟨fun _ _ => ⟨[], .nil _, rfl⟩, fun _ _ => trivial⟩
  | settleGoalProjection input =>
    rw [call, ends_map]
    exact (settleGoalProjection_path input database).mono (fun _ _ h => h) (fun _ _ h => h)
  | purgeTerminal request =>
    simp only [call, purgeTerminal, ends_map, ends_bind, ends_attempt, ends_get, ends_set,
      ends_pure]
    refine ⟨fun _ _ => ?_, fun _ _ => trivial⟩
    have hpending : database.Pending (database.purgeRows request) :=
      ((Pending.of_sublist List.filter_sublist).perm (List.perm_insertionSort _ _)).take _
    refine ⟨_, deleteRows_path _ database hpending ?_,
      (database.purgeRows request).map ActionRow.record, ?_, ?_⟩
    · intro row hmem
      have hin := (List.mem_insertionSort _).1 (List.mem_of_mem_take hmem)
      have hpurgeable := (List.mem_filter.1 hin).2
      unfold ActionRecord.purgeable at hpurgeable
      simp only [Bool.and_eq_true] at hpurgeable
      exact hpurgeable.1.1.2
    · rw [List.map_map]
      rfl
    · rw [List.map_map]
      rfl

/-- A stale receipt or reconciliation changes nothing. -/
theorem call_stale (operation : ActionOperation) (database : SqliteActionDatabase)
    (hstale : database.ledger.Stale operation) :
    Ends (call ctx tables operation) database (fun _ database' => database' = database)
      (fun _ database' => database' = database) := by
  cases operation with
  | recordReceipt input =>
    simp only [call, recordReceipt, ends_map, ends_transaction, ends_bind]
    refine ends_requireRow (fun row hrow hkey => ?_) (fun _ => trivial)
    simp only [ends_attempt]
    refine ⟨fun record hrecord => ⟨fun transition htransition => ?_, fun _ _ => trivial⟩,
      fun _ _ => trivial⟩
    have hread := rowToRecord_eq_ok hrecord
    subst hread
    exact absurd (receiptActionRecord_accepts htransition)
      (hstale row.record (hkey ▸ record_of_mem hrow))
  | reconcile input =>
    simp only [call, reconcile, ends_map, ends_transaction, ends_bind]
    refine ends_requireRow (fun row hrow hkey => ?_) (fun _ => trivial)
    simp only [ends_attempt]
    refine ⟨fun record hrecord => ⟨fun transition htransition => ?_, fun _ _ => trivial⟩,
      fun _ _ => trivial⟩
    have hread := rowToRecord_eq_ok hrecord
    subst hread
    exact absurd (reconcileActionRecord_accepts htransition)
      (hstale row.record (hkey ▸ record_of_mem hrow))
  | _ => exact hstale.elim

end SqliteActionDatabase

end OpenGameAgent
