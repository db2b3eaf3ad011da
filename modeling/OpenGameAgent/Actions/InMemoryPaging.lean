import OpenGameAgent.Actions.InMemorySequences
import OpenGameAgent.Library.Paging
import OpenGameAgent.Library.Preserves

/-!
# Goal-projection pages of an in-memory journal

The sequences of an in-memory journal, in the order of its records, as rows a reader pages
through.

* `Renumbers` — no call but an admission gives a sequence; `call_renumbers`.
* `listGoalProjections_page` — the answer is the page behind the cursor.
* `inMemoryProjections` — the rows of a stream, for a reader of the library.
-/

namespace OpenGameAgent

/-- The sequence and the record of a candidate. -/
def ActionGoalProjectionCandidate.row (candidate : ActionGoalProjectionCandidate) :
    Nat × ActionRecord :=
  (candidate.sequence, candidate.action)

/-- Is the record one that the reader of a stream is after? -/
def wantedBy (stream : StreamKey) (row : Nat × ActionRecord) : Bool :=
  row.2.inStream stream && row.2.projectionPending

/-- A page that is granted has room. -/
theorem limit_pos_of_capture {request : ActionGoalProjectionListRequest}
    {limits : ActionGoalProjectionLimits}
    (h : captureActionGoalProjectionListRequest request limits = .ok ()) : 0 < request.limit := by
  unfold captureActionGoalProjectionListRequest assertPositiveSafeInteger at h
  by_contra hlimit
  have hbad : ¬ (0 < request.limit ∧ request.limit ≤ maxSafeInteger) := fun hc => hlimit hc.1
  rw [if_neg hbad] at h
  cases hids : assertOpaqueIdentifiers [request.sessionId, request.actorId] with
  | ok _ =>
    rw [hids] at h
    cases h
  | error e =>
    rw [hids] at h
    cases h

namespace InMemoryActionJournal

variable {journal next : InMemoryActionJournal} {record : ActionRecord}

/-- The records with their sequences, in the order of the records. -/
def numbered (journal : InMemoryActionJournal) : List (Nat × ActionRecord) :=
  journal.records.entries.filterMap fun (key, record) =>
    (journal.sequences.get? key).map fun sequence => (sequence, record)

/-- The sequences of the records that are there. -/
def numbers (journal : InMemoryActionJournal) : List Nat :=
  journal.records.keys.filterMap journal.sequences.get?

theorem map_fst_numbered (journal : InMemoryActionJournal) :
    journal.numbered.map Prod.fst = journal.numbers := by
  unfold numbered numbers OrderedMap.keys
  rw [List.map_filterMap, List.filterMap_map]
  refine List.filterMap_congr fun entry _ => ?_
  simp only [Function.comp, Option.map_map]
  cases journal.sequences.get? entry.1 <;> rfl

/-- The sequences ascend up to the counter, and only records that are there have one. -/
structure Ordered (journal : InMemoryActionJournal) : Prop where
  ascending : journal.numbers.Pairwise (· < ·)
  positive : ∀ n ∈ journal.numbers, 0 < n
  bounded : ∀ n ∈ journal.numbers, n ≤ journal.nextSequence
  assigned : ∀ key n, journal.sequences.get? key = some n → key ∈ journal.records.keys

/-- No sequence is given. -/
def Renumbers (journal next : InMemoryActionJournal) : Prop :=
  next.nextSequence = journal.nextSequence ∧
    (journal.Ordered → next.Ordered ∧ next.numbers.Sublist journal.numbers)

theorem renumbers_refl (journal : InMemoryActionJournal) : journal.Renumbers journal :=
  ⟨rfl, fun h => ⟨h, List.Sublist.refl _⟩⟩

theorem renumbers_trans (a b c : InMemoryActionJournal) (h : a.Renumbers b) (h' : b.Renumbers c) :
    a.Renumbers c := by
  refine ⟨h'.1.trans h.1, fun hordered => ?_⟩
  obtain ⟨hb, hsub⟩ := h.2 hordered
  obtain ⟨hc, hsub'⟩ := h'.2 hb
  exact ⟨hc, hsub'.trans hsub⟩

/-- The same keys, counter and fewer sequences. -/
theorem Ordered.of_sublist (h : journal.Ordered) (hsub : next.numbers.Sublist journal.numbers)
    (hnext : next.nextSequence = journal.nextSequence)
    (hassigned : ∀ key n, next.sequences.get? key = some n → key ∈ next.records.keys) :
    next.Ordered where
  ascending := h.ascending.sublist hsub
  positive n hn := h.positive n (hsub.subset hn)
  bounded n hn := hnext ▸ h.bounded n (hsub.subset hn)
  assigned := hassigned

/-- A record is written under its key. -/
theorem renumbers_put (journal base : InMemoryActionJournal) (hrecords : base.records = journal.records)
    (hsequences : base.sequences = journal.sequences)
    (hnext : base.nextSequence = journal.nextSequence) (record : ActionRecord) :
    journal.Renumbers (base.put record) := by
  refine ⟨hnext, fun h => ?_⟩
  have hkeys : (base.put record).records.keys = (journal.records.set record.key record).keys := by
    show (base.records.set record.key record).keys = _
    rw [hrecords]
  have hseq : (base.put record).sequences = journal.sequences := hsequences
  have hsame : (base.put record).numbers = journal.numbers := by
    unfold numbers
    rw [hkeys, hseq, OrderedMap.keys_set]
    split
    · rfl
    · rename_i hfresh
      have hnone : journal.sequences.get? record.key = none := by
        cases hget : journal.sequences.get? record.key with
        | none => rfl
        | some n => exact absurd (h.assigned _ _ hget) hfresh
      rw [List.filterMap_append]
      simp [hnone]
  have hassigned : ∀ key n, (base.put record).sequences.get? key = some n →
      key ∈ (base.put record).records.keys := by
    intro key n hget
    rw [hseq] at hget
    have hmem := h.assigned key n hget
    rw [hkeys, OrderedMap.keys_set]
    split
    · exact hmem
    · exact List.mem_append_left _ hmem
  exact ⟨h.of_sublist (hsame ▸ List.Sublist.refl _) hnext hassigned, hsame ▸ List.Sublist.refl _⟩

/-- Only the conflict keys change. -/
theorem renumbers_of_same (hrecords : next.records = journal.records)
    (hsequences : next.sequences = journal.sequences)
    (hnext : next.nextSequence = journal.nextSequence) : journal.Renumbers next := by
  refine ⟨hnext, fun h => ?_⟩
  have hsame : next.numbers = journal.numbers := by
    unfold numbers
    rw [hrecords, hsequences]
  refine ⟨h.of_sublist (hsame ▸ List.Sublist.refl _) hnext fun key n hget => ?_,
    hsame ▸ List.Sublist.refl _⟩
  rw [hsequences] at hget
  rw [hrecords]
  exact h.assigned key n hget

theorem renumbers_remove (journal : InMemoryActionJournal) (record : ActionRecord) :
    journal.Renumbers (journal.remove record) := by
  refine ⟨rfl, fun h => ?_⟩
  have hget : ∀ key, (journal.remove record).sequences.get? key =
      if record.key = key then none else journal.sequences.get? key := fun key =>
    OrderedMap.get?_delete _ _ _
  have hsub : (journal.remove record).numbers.Sublist journal.numbers := by
    unfold numbers
    rw [keys_remove]
    have hfiltered : (journal.records.keys.filter fun key => key ≠ record.key).filterMap
        (journal.remove record).sequences.get? =
        (journal.records.keys.filter fun key => key ≠ record.key).filterMap
          journal.sequences.get? := by
      refine List.filterMap_congr fun key hkey => ?_
      rw [List.mem_filter, decide_eq_true_eq] at hkey
      rw [hget, if_neg (Ne.symm hkey.2)]
    rw [hfiltered]
    exact List.filter_sublist.filterMap _
  refine ⟨h.of_sublist hsub rfl fun key n hn => ?_, hsub⟩
  rw [hget] at hn
  split at hn
  · cases hn
  · rename_i hne
    rw [keys_remove, List.mem_filter, decide_eq_true_eq]
    exact ⟨h.assigned key n hn, Ne.symm hne⟩

theorem renumbers_foldl_remove (records : List ActionRecord) (journal : InMemoryActionJournal) :
    journal.Renumbers (records.foldl remove journal) := by
  induction records generalizing journal with
  | nil => exact renumbers_refl journal
  | cons record rest ih =>
    exact renumbers_trans _ _ _ (renumbers_remove journal record) (ih (journal.remove record))

/-- A record is admitted. -/
theorem numbers_admitRecord (hfresh : record.key ∉ journal.records.keys) :
    (journal.admitRecord record).numbers = journal.numbers ++ [journal.nextSequence + 1] := by
  have hkeys : (journal.admitRecord record).records.keys = journal.records.keys ++ [record.key] :=
    keys_put_fresh hfresh
  have hget : ∀ key, (journal.admitRecord record).sequences.get? key =
      if record.key = key then some (journal.nextSequence + 1)
      else journal.sequences.get? key := fun key => OrderedMap.get?_set _ _ _ _
  unfold numbers
  rw [hkeys, List.filterMap_append]
  congr 1
  · refine List.filterMap_congr fun key hkey => ?_
    rw [hget, if_neg]
    rintro rfl
    exact hfresh hkey
  · simp [hget]

theorem Ordered.admitRecord (h : journal.Ordered) (hfresh : record.key ∉ journal.records.keys) :
    (journal.admitRecord record).Ordered := by
  have hnumbers := numbers_admitRecord hfresh
  have hnext : (journal.admitRecord record).nextSequence = journal.nextSequence + 1 := rfl
  constructor
  case ascending =>
    rw [hnumbers, List.pairwise_append]
    refine ⟨h.ascending, List.pairwise_singleton _ _, fun n hn m hm => ?_⟩
    rw [List.mem_singleton] at hm
    have hle := h.bounded n hn
    omega
  case positive =>
    intro n hn
    rw [hnumbers, List.mem_append, List.mem_singleton] at hn
    rcases hn with hn | hn
    · exact h.positive n hn
    · omega
  case bounded =>
    intro n hn
    rw [hnumbers, List.mem_append, List.mem_singleton] at hn
    rw [hnext]
    rcases hn with hn | hn
    · exact Nat.le_succ_of_le (h.bounded n hn)
    · omega
  case assigned =>
    intro key n hget
    have hkeys : (journal.admitRecord record).records.keys =
        journal.records.keys ++ [record.key] := keys_put_fresh hfresh
    rw [hkeys, List.mem_append, List.mem_singleton]
    have hset : (journal.admitRecord record).sequences.get? key =
        if record.key = key then some (journal.nextSequence + 1)
        else journal.sequences.get? key := OrderedMap.get?_set _ _ _ _
    rw [hset] at hget
    split at hget
    · rename_i hkey
      exact Or.inr hkey.symm
    · exact Or.inl (h.assigned key n hget)

/-! ## What the methods do to the sequences -/

section Methods

variable {ctx : ActionContext} {authority : RunAuthorityCheck}

abbrev Renumbering {α : Type} (m : EStateM ActionError InMemoryActionJournal α) : Prop :=
  MovesAlong Renumbers m

theorem renumbering_bind {α β : Type} {m : EStateM ActionError InMemoryActionJournal α}
    {f : α → EStateM ActionError InMemoryActionJournal β} (hm : Renumbering m)
    (hf : ∀ a, Renumbering (f a)) : Renumbering (m >>= f) :=
  MovesAlong.bind renumbers_trans hm hf

theorem renumbering_pure {α : Type} (a : α) :
    Renumbering (pure a : EStateM ActionError InMemoryActionJournal α) :=
  MovesAlong.pure renumbers_refl a

theorem renumbering_throw {α : Type} (e : ActionError) :
    Renumbering (throw e : EStateM ActionError InMemoryActionJournal α) :=
  MovesAlong.throw renumbers_refl e

theorem renumbering_get :
    Renumbering (get : EStateM ActionError InMemoryActionJournal InMemoryActionJournal) :=
  MovesAlong.get renumbers_refl

theorem renumbering_attempt {α : Type} (x : Except ActionError α) :
    Renumbering (attempt x : EStateM ActionError InMemoryActionJournal α) :=
  MovesAlong.attempt renumbers_refl x

theorem renumbering_put (record : ActionRecord) : Renumbering
    (modify fun journal => journal.put record : EStateM ActionError InMemoryActionJournal PUnit) :=
  MovesAlong.modify fun journal => renumbers_put journal journal rfl rfl rfl record

theorem renumbering_release (record : ActionRecord) : Renumbering
    (modify fun journal => journal.release record :
      EStateM ActionError InMemoryActionJournal PUnit) :=
  MovesAlong.modify fun _ => renumbers_of_same rfl rfl rfl

theorem renumbering_isRunOpen (record : ActionRecord) : Renumbering (isRunOpen authority record) :=
  renumbering_attempt _

theorem renumbering_require (key : ActionKey) : Renumbering (require key) := by
  unfold require
  refine renumbering_bind (renumbering_attempt _) fun _ => ?_
  refine renumbering_bind (renumbering_attempt _) fun _ => ?_
  refine renumbering_bind renumbering_get fun journal => ?_
  split
  · exact renumbering_throw _
  · exact renumbering_pure _

theorem renumbering_retireLoop (request : ActionClaimRequest) (keys : List ActionKey)
    (retired : Nat) : Renumbering (retireLoop ctx authority request retired keys) := by
  induction keys generalizing retired with
  | nil => exact renumbering_pure _
  | cons key rest ih =>
    unfold retireLoop
    refine renumbering_bind renumbering_get fun journal => ?_
    split
    · exact ih retired
    · rename_i record _
      split
      · exact ih retired
      · refine renumbering_bind (renumbering_isRunOpen record) fun isOpen => ?_
        split
        · exact ih retired
        · refine renumbering_bind (renumbering_attempt _) fun transition => ?_
          refine renumbering_bind (renumbering_attempt _) fun _ => ?_
          refine renumbering_bind (renumbering_attempt _) fun _ => ?_
          have hput : Renumbering (modify fun journal =>
              (journal.release record).put transition.record :
                EStateM ActionError InMemoryActionJournal PUnit) :=
            MovesAlong.modify fun journal => renumbers_put journal (journal.release record) rfl rfl rfl _
          refine renumbering_bind hput fun _ => ?_
          split
          · exact renumbering_pure _
          · exact ih _

theorem renumbering_expireLoop (request : ActionClaimRequest) (records : List ActionRecord)
    (replayable : List String) (changed : Bool) :
    Renumbering (expireLoop ctx authority request replayable changed records) := by
  induction records generalizing replayable changed with
  | nil => exact renumbering_pure _
  | cons record rest ih =>
    unfold expireLoop
    have hsafe : Renumbering (if record.replayPolicy = .safe then isRunOpen authority record
        else pure false) := by
      split
      · exact renumbering_isRunOpen record
      · exact renumbering_pure _
    refine renumbering_bind hsafe fun isOpen => ?_
    split
    · exact ih _ _
    · refine renumbering_bind (renumbering_attempt _) fun transition => ?_
      refine renumbering_bind (renumbering_attempt _) fun _ => ?_
      have hrest : Renumbering (do
          modify fun journal => journal.put transition.record
          expireLoop ctx authority request replayable true rest) :=
        renumbering_bind (renumbering_put _) fun _ => ih _ _
      split
      · exact renumbering_bind (renumbering_release _) fun _ => hrest
      · exact hrest

theorem renumbering_claimLoop (request : ActionClaimRequest) (replayable : List String)
    (keys : List ActionKey) (scanned : Nat) :
    Renumbering (claimLoop ctx authority request replayable scanned keys) := by
  induction keys generalizing scanned with
  | nil => exact renumbering_pure _
  | cons key rest ih =>
    unfold claimLoop
    refine renumbering_bind renumbering_get fun journal => ?_
    split
    · exact ih _
    · rename_i record _
      dsimp only
      split
      · exact ih _
      · split
        · exact renumbering_pure _
        · refine renumbering_bind (renumbering_isRunOpen record) fun isOpen => ?_
          split
          · split
            · exact ih _
            · refine renumbering_bind (renumbering_attempt _) fun transition => ?_
              refine renumbering_bind (renumbering_attempt _) fun _ => ?_
              refine renumbering_bind (renumbering_attempt _) fun _ => ?_
              have hput : Renumbering (do
                  modify fun journal => (journal.acquire transition.record).put transition.record
                  return some transition.record) :=
                renumbering_bind (MovesAlong.modify fun journal =>
                  renumbers_put journal (journal.acquire transition.record) rfl rfl rfl _) fun _ =>
                    renumbering_pure _
              split
              · exact renumbering_bind (renumbering_release _) fun _ => hput
              · exact hput
          · exact ih _

theorem renumbering_nextDelivery (request : ActionClaimRequest) :
    Renumbering (nextDelivery ctx authority request) := by
  unfold nextDelivery retireClosedPending expireDueClaims claimPendingRecord
  refine renumbering_bind (renumbering_attempt _) fun _ => ?_
  refine renumbering_bind ?_ fun retired => ?_
  · exact renumbering_bind renumbering_get fun journal =>
      renumbering_bind (renumbering_retireLoop request _ _) fun _ => renumbering_pure _
  · refine renumbering_bind ?_ fun expired => ?_
    · exact renumbering_bind renumbering_get fun journal => renumbering_expireLoop request _ _ _
    · dsimp only
      refine renumbering_bind renumbering_get fun journal => ?_
      split
      · exact renumbering_pure _
      · refine renumbering_bind ?_ fun claimed => ?_
        · exact renumbering_bind renumbering_get fun journal =>
            renumbering_claimLoop request _ _ _
        · split
          · exact renumbering_pure _
          · exact renumbering_bind renumbering_get fun journal => renumbering_pure _

theorem renumbering_store (record : ActionRecord) (transition : ActionTransition) :
    Renumbering (store ctx record transition) := by
  unfold store
  split
  · exact renumbering_pure _
  · refine renumbering_bind (renumbering_attempt _) fun _ => ?_
    have hput : Renumbering (do
        modify fun journal => journal.put transition.record
        return transition.record) :=
      renumbering_bind (renumbering_put _) fun _ => renumbering_pure _
    split
    · exact renumbering_bind (renumbering_release _) fun _ => hput
    · exact hput

theorem renumbering_recordReceipt (input : ActionReceiptInput) :
    Renumbering (recordReceipt ctx input) :=
  renumbering_bind (renumbering_require _) fun record =>
    renumbering_bind (renumbering_attempt _) fun transition => renumbering_store record transition

theorem renumbering_reconcile (input : ActionReconcileInput) :
    Renumbering (reconcile ctx authority input) := by
  unfold reconcile
  refine renumbering_bind (renumbering_require _) fun record => ?_
  refine renumbering_bind (renumbering_attempt _) fun transition => ?_
  have hopen : Renumbering (if transition.record.status = .pending then isRunOpen authority record
      else pure true) := by
    split
    · exact renumbering_isRunOpen record
    · exact renumbering_pure _
  refine renumbering_bind hopen fun isOpen => ?_
  split
  · exact renumbering_store record transition
  · exact renumbering_bind (renumbering_attempt _) fun retired => renumbering_store record _

theorem renumbering_settleGoalProjection (input : ActionGoalProjectionSettlementInput) :
    Renumbering (settleGoalProjection ctx input) := by
  unfold settleGoalProjection
  refine renumbering_bind (renumbering_attempt _) fun _ => ?_
  refine renumbering_bind (renumbering_require _) fun record => ?_
  refine renumbering_bind (renumbering_attempt _) fun settled => ?_
  split
  · exact renumbering_pure _
  · refine renumbering_bind (renumbering_attempt _) fun _ => ?_
    refine renumbering_bind (renumbering_attempt _) fun _ => ?_
    exact renumbering_bind (renumbering_put _) fun _ => renumbering_pure _

theorem renumbering_purgeTerminal (request : ActionTerminalPurgeRequest) :
    Renumbering (purgeTerminal request) := by
  unfold purgeTerminal
  refine renumbering_bind (renumbering_attempt _) fun _ => fun journal => ?_
  refine ends_bind.2 (ends_get.2 ?_)
  exact renumbers_foldl_remove (journal.purgeCandidates request) journal

theorem renumbering_find (stream : StreamKey) (operationId : String) :
    Renumbering (find stream operationId) :=
  renumbering_bind (renumbering_attempt _) fun _ =>
    renumbering_bind (renumbering_attempt _) fun _ =>
      renumbering_bind renumbering_get fun _ => renumbering_pure _

theorem renumbering_recoverDelivery (stream : StreamKey) : Renumbering (recoverDelivery stream) :=
  renumbering_bind (renumbering_attempt _) fun _ =>
    renumbering_bind renumbering_get fun _ => renumbering_pure _

theorem renumbering_listGoalProjections (request : ActionGoalProjectionListRequest) :
    Renumbering (listGoalProjections ctx request) :=
  renumbering_bind (renumbering_attempt _) fun _ => renumbering_bind (renumbering_attempt _) fun _ =>
    renumbering_bind renumbering_get fun _ => renumbering_bind (renumbering_attempt _) fun _ =>
      renumbering_pure _

/-- `ensure` admits a new record or leaves the journal alone. -/
theorem ensure_numbers (intent : PreparedActionIntent) (now : String)
    (journal : InMemoryActionJournal) :
    Ends (ensure ctx authority intent now) journal
      (fun _ next => next = journal ∨ ∃ record, record.key ∉ journal.records.keys ∧
        next = journal.admitRecord record)
      fun _ next => next = journal := by
  unfold ensure
  simp only [ends_bind, ends_get, ends_attempt]
  refine ⟨fun _ _ => ?_, fun _ _ => trivial⟩
  cases hget : journal.records.get? intent.key with
  | some existing =>
    dsimp only
    split
    · exact rfl
    · exact Or.inl rfl
  | none =>
    simp only [ends_bind, ends_attempt, ends_set, ends_pure]
    refine ⟨fun _ _ => ⟨fun _ _ => ⟨fun _ _ => ⟨fun _ _ => Or.inr ?_, fun _ _ => trivial⟩,
      fun _ _ => trivial⟩, fun _ _ => trivial⟩, fun _ _ => trivial⟩
    exact ⟨intent.admitted now, OrderedMap.get?_eq_none_iff.1 hget, rfl⟩

/-- A call gives a sequence to at most one record: the upcoming one to a new record. -/
theorem call_numbers (h : journal.Ordered) (operation : ActionOperation) :
    (respond (call ctx authority operation) journal).2.Ordered ∧
    (((respond (call ctx authority operation) journal).2.nextSequence = journal.nextSequence ∧
        (respond (call ctx authority operation) journal).2.numbers.Sublist journal.numbers) ∨
      ((respond (call ctx authority operation) journal).2.nextSequence = journal.nextSequence + 1 ∧
        (respond (call ctx authority operation) journal).2.numbers =
          journal.numbers ++ [journal.nextSequence + 1])) := by
  have hmoves : ∀ {α : Type} {m : EStateM ActionError InMemoryActionJournal α}
      {f : α → ActionAnswer}, Renumbering m →
      (respond (f <$> m) journal).2.Ordered ∧
      (respond (f <$> m) journal).2.nextSequence = journal.nextSequence ∧
      (respond (f <$> m) journal).2.numbers.Sublist journal.numbers := by
    intro α m f hm
    obtain ⟨hnext, hordered⟩ := (MovesAlong.map f hm).respond journal
    exact ⟨(hordered h).1, hnext, (hordered h).2⟩
  have hkeep : ∀ {α : Type} {m : EStateM ActionError InMemoryActionJournal α}
      {f : α → ActionAnswer}, Renumbering m →
      (respond (f <$> m) journal).2.Ordered ∧
      (((respond (f <$> m) journal).2.nextSequence = journal.nextSequence ∧
        (respond (f <$> m) journal).2.numbers.Sublist journal.numbers) ∨
      ((respond (f <$> m) journal).2.nextSequence = journal.nextSequence + 1 ∧
        (respond (f <$> m) journal).2.numbers =
          journal.numbers ++ [journal.nextSequence + 1])) := fun hm =>
    ⟨(hmoves hm).1, Or.inl (hmoves hm).2⟩
  cases operation with
  | get stream operationId => exact hkeep (renumbering_find stream operationId)
  | recoverDelivery stream => exact hkeep (renumbering_recoverDelivery stream)
  | nextDelivery request => exact hkeep (renumbering_nextDelivery request)
  | recordReceipt input => exact hkeep (renumbering_recordReceipt input)
  | reconcile input => exact hkeep (renumbering_reconcile input)
  | listGoalProjections request => exact hkeep (renumbering_listGoalProjections request)
  | settleGoalProjection input => exact hkeep (renumbering_settleGoalProjection input)
  | purgeTerminal request => exact hkeep (renumbering_purgeTerminal request)
  | ensure intent now =>
    have hensure : Ends (ActionAnswer.record <$> ensure ctx authority intent now) journal
        (fun _ next => next = journal ∨ ∃ record, record.key ∉ journal.records.keys ∧
          next = journal.admitRecord record)
        fun _ next => next = journal := ends_map.2 (ensure_numbers intent now journal)
    obtain ⟨hok, herror⟩ := hensure.respond
    have hcase : (respond (ActionAnswer.record <$> ensure ctx authority intent now) journal).2 =
        journal ∨ ∃ record, record.key ∉ journal.records.keys ∧
          (respond (ActionAnswer.record <$> ensure ctx authority intent now) journal).2 =
            journal.admitRecord record := by
      cases hanswer : (respond (ActionAnswer.record <$> ensure ctx authority intent now)
          journal).1 with
      | ok answer => exact hok answer hanswer
      | error error => exact Or.inl (herror error hanswer)
    unfold call
    rcases hcase with hsame | ⟨record, hfresh, hadmitted⟩
    · dsimp only
      rw [hsame]
      exact ⟨h, Or.inl ⟨rfl, List.Sublist.refl _⟩⟩
    · dsimp only
      rw [hadmitted]
      exact ⟨h.admitRecord hfresh, Or.inr ⟨rfl, numbers_admitRecord hfresh⟩⟩

end Methods

/-! ## Pages -/

/-- The row of a record that the loop of `listGoalProjections` takes. -/
def wantedRow (request : ActionGoalProjectionListRequest) (sequences : OrderedMap ActionKey Nat)
    (entry : ActionKey × ActionRecord) : Option (Nat × ActionRecord) :=
  (sequences.get? entry.1).bind fun sequence =>
    if request.afterSequence.getD 0 < sequence ∧
        wantedBy ⟨request.sessionId, request.actorId⟩ (sequence, entry.2) = true then
      some (sequence, entry.2)
    else none

theorem behind_numbered (request : ActionGoalProjectionListRequest)
    (journal : InMemoryActionJournal) :
    behind Prod.fst (journal.numbered.filter (wantedBy ⟨request.sessionId, request.actorId⟩))
      (request.afterSequence.getD 0) =
      journal.records.entries.filterMap (wantedRow request journal.sequences) := by
  unfold behind numbered
  rw [List.filter_filter, List.filter_filterMap]
  refine List.filterMap_congr fun entry _ => ?_
  obtain ⟨key, record⟩ := entry
  unfold wantedRow
  dsimp only
  cases journal.sequences.get? key with
  | none => rfl
  | some sequence => simp [Option.filter]

/-- The loop of `listGoalProjections` finds the wanted rows and stops one behind the page. -/
theorem listLoop_eq {limits : ActionGoalProjectionLimits}
    {request : ActionGoalProjectionListRequest} {sequences : OrderedMap ActionKey Nat}
    {entries : List (ActionKey × ActionRecord)} {found answer : List ActionGoalProjectionCandidate}
    (hfound : found.length ≤ request.limit)
    (h : listLoop limits request sequences found entries = .ok answer) :
    answer.map ActionGoalProjectionCandidate.row =
      (found.map ActionGoalProjectionCandidate.row ++
        entries.filterMap (wantedRow request sequences)).take (request.limit + 1) := by
  induction entries generalizing found with
  | nil =>
    obtain rfl := Except.ok.inj h
    rw [List.filterMap_nil, List.append_nil, List.take_of_length_le]
    rw [List.length_map]
    exact Nat.le_succ_of_le hfound
  | cons entry rest ih =>
    obtain ⟨key, record⟩ := entry
    unfold listLoop at h
    cases hget : sequences.get? key with
    | none =>
      have hnone : wantedRow request sequences (key, record) = none := by
        simp [wantedRow, hget]
      rw [hget] at h
      rw [List.filterMap_cons_none hnone]
      exact ih hfound h
    | some sequence =>
      rw [hget] at h
      dsimp only at h
      split at h
      · rename_i hskip
        have hnone : wantedRow request sequences (key, record) = none := by
          simp only [Bool.or_eq_true, decide_eq_true_eq, Bool.not_eq_true'] at hskip
          simp only [wantedRow, wantedBy, hget, Option.bind_some, Bool.and_eq_true]
          rw [if_neg]
          rintro ⟨hafter, hstream, hpending⟩
          rcases hskip with (hle | hother) | hsettled
          · omega
          · rw [hstream] at hother
            cases hother
          · rw [hpending] at hsettled
            cases hsettled
        rw [List.filterMap_cons_none hnone]
        exact ih hfound h
      · rename_i hkeep
        have hsome : wantedRow request sequences (key, record) = some (sequence, record) := by
          simp only [Bool.or_eq_true, decide_eq_true_eq, Bool.not_eq_true', not_or,
            Bool.not_eq_false, Nat.not_le] at hkeep
          simp only [wantedRow, wantedBy, hget, Option.bind_some, Bool.and_eq_true]
          rw [if_pos ⟨hkeep.1.1, hkeep.1.2, hkeep.2⟩]
        rw [List.filterMap_cons_some hsome]
        split at h
        · cases h
        · split at h
          · rename_i hfull
            obtain rfl := Except.ok.inj h
            have hlength : (found.map ActionGoalProjectionCandidate.row ++
                [(sequence, record)]).length = request.limit + 1 := by
              rw [List.length_append, List.length_map, List.length_singleton]
              omega
            rw [List.append_cons (found.map ActionGoalProjectionCandidate.row),
              List.take_append_of_le_length (Nat.le_of_eq hlength.symm),
              List.take_of_length_le (Nat.le_of_eq hlength), List.map_append]
            rfl
          · rename_i hroom
            have hshort : (found ++
                [(⟨sequence, record⟩ : ActionGoalProjectionCandidate)]).length ≤ request.limit := by
              rw [List.length_append, List.length_singleton]
              omega
            have hnext := ih hshort h
            rw [hnext, List.map_append, List.append_assoc]
            rfl

/-- The page made of the rows that were found, up to one behind it. -/
theorem pageOf_eq {request : ActionGoalProjectionListRequest} {rows : List (Nat × ActionRecord)}
    {candidates : List ActionGoalProjectionCandidate}
    (h : candidates.map ActionGoalProjectionCandidate.row =
      (behind Prod.fst rows (request.afterSequence.getD 0)).take (request.limit + 1)) :
    ((pageOf request candidates).candidates.map ActionGoalProjectionCandidate.row,
      (pageOf request candidates).nextAfterSequence) =
      (pageAfter Prod.fst rows (request.afterSequence.getD 0) request.limit,
        cursorAfter Prod.fst rows (request.afterSequence.getD 0) request.limit) := by
  have htake : (candidates.take request.limit).map ActionGoalProjectionCandidate.row =
      pageAfter Prod.fst rows (request.afterSequence.getD 0) request.limit := by
    unfold pageAfter
    rw [List.map_take, h, List.take_take, Nat.min_eq_left (Nat.le_succ _)]
  have hlength : candidates.length > request.limit ↔
      (behind Prod.fst rows (request.afterSequence.getD 0)).length > request.limit := by
    have hcount := congrArg List.length h
    rw [List.length_map, List.length_take] at hcount
    omega
  have hlast : (candidates.take request.limit).getLast?.map
      ActionGoalProjectionCandidate.sequence =
      (pageAfter Prod.fst rows (request.afterSequence.getD 0) request.limit).getLast?.map
        Prod.fst := by
    rw [← htake, List.getLast?_map, Option.map_map]
    rfl
  unfold pageOf cursorAfter
  simp only [htake, hlength, hlast]

/-- A page is the one behind its cursor. -/
theorem listGoalProjections_page {ctx : ActionContext}
    {request : ActionGoalProjectionListRequest} {journal next : InMemoryActionJournal}
    {page : ActionGoalProjectionPage}
    (h : listGoalProjections ctx request journal = .ok page next) :
    0 < request.limit ∧
      (page.candidates.map ActionGoalProjectionCandidate.row, page.nextAfterSequence) =
        (pageAfter Prod.fst
          (journal.numbered.filter (wantedBy ⟨request.sessionId, request.actorId⟩))
          (request.afterSequence.getD 0) request.limit,
        cursorAfter Prod.fst
          (journal.numbered.filter (wantedBy ⟨request.sessionId, request.actorId⟩))
          (request.afterSequence.getD 0) request.limit) := by
  have hends : Ends (listGoalProjections ctx request) journal
      (fun page _ => 0 < request.limit ∧ ∃ limits candidates,
        listLoop limits request journal.sequences [] journal.records.entries = .ok candidates ∧
          page = pageOf request candidates) fun _ _ => True := by
    unfold listGoalProjections
    simp only [ends_bind, ends_get, ends_pure, ends_attempt]
    refine ⟨fun limits _ => ⟨fun _ hcapture => ⟨fun candidates hloop => ⟨?_, ?_⟩,
      fun _ _ => trivial⟩, fun _ _ => trivial⟩, fun _ _ => trivial⟩
    · exact limit_pos_of_capture hcapture
    · exact ⟨limits, candidates, hloop, rfl⟩
  unfold Ends at hends
  rw [h] at hends
  obtain ⟨hlimit, limits, candidates, hloop, rfl⟩ := hends
  refine ⟨hlimit, pageOf_eq ?_⟩
  have hfound := listLoop_eq (Nat.zero_le _) hloop
  rw [List.map_nil, List.nil_append, ← behind_numbered] at hfound
  exact hfound

/-! ## The rows of a stream -/

theorem mem_numbers_of_numbered {row : Nat × ActionRecord} (h : row ∈ journal.numbered) :
    row.1 ∈ journal.numbers := by
  rw [← map_fst_numbered]
  exact List.mem_map_of_mem h

theorem exists_numbered {n : Nat} (h : n ∈ journal.numbers) :
    ∃ row ∈ journal.numbered, row.1 = n := by
  rw [← map_fst_numbered] at h
  exact List.mem_map.1 h

/-- The Goal projections of a stream as a reader sees them. -/
def projections (ctx : ActionContext) (stream : StreamKey) :
    NumberedRows (ActionCall RunAuthorityCheck) where
  State := InMemoryActionJournal
  Row := Nat × ActionRecord
  key := Prod.fst
  rows := numbered
  upcoming journal := journal.nextSequence + 1
  change action journal := (respond (call ctx action.authority action.operation) journal).2
  want := wantedBy stream
  page after limit journal :=
    match listGoalProjections ctx
        ⟨stream.sessionId, stream.actorId, if after = 0 then none else some after, limit⟩ journal with
    | .ok page _ =>
      some (page.candidates.map ActionGoalProjectionCandidate.row, page.nextAfterSequence)
    | .error _ _ => none
  Valid := Ordered
  Fits _ _ := True
  valid_change action journal h _ := (call_numbers h action.operation).1
  ascending journal h := by
    have hasc := h.ascending
    rw [← map_fst_numbered, List.pairwise_map] at hasc
    exact hasc
  positive journal h row hrow := h.positive _ (mem_numbers_of_numbered hrow)
  below journal h row hrow := Nat.lt_succ_of_le (h.bounded _ (mem_numbers_of_numbered hrow))
  kept action journal h row hrow := by
    have hmem := mem_numbers_of_numbered hrow
    rcases (call_numbers h action.operation).2 with ⟨-, hsub⟩ | ⟨-, hnew⟩
    · exact Or.inr (exists_numbered (hsub.subset hmem))
    · rw [hnew, List.mem_append, List.mem_singleton] at hmem
      rcases hmem with hmem | hmem
      · exact Or.inr (exists_numbered hmem)
      · exact Or.inl hmem
  listed after limit journal _ answer h := by
    split at h
    · rename_i page next hlist
      obtain ⟨hlimit, hpage⟩ := listGoalProjections_page hlist
      have hafter : (if after = 0 then none else some after : Option Nat).getD 0 = after := by
        split
        · rename_i hzero
          exact hzero.symm
        · rfl
      rw [hafter] at hpage
      exact ⟨hlimit, (Option.some.inj h).symm.trans hpage⟩
    · cases h

theorem ordered_empty : empty.Ordered where
  ascending := List.Pairwise.nil
  positive n hn := by cases hn
  bounded n hn := by cases hn
  assigned key n hget := by
    rw [empty, OrderedMap.get?_empty] at hget
    cases hget

/-- The counter never goes back. -/
theorem projections_grow (ctx : ActionContext) (stream : StreamKey)
    (action : ActionCall RunAuthorityCheck) (journal : InMemoryActionJournal)
    (h : journal.Ordered) :
    (projections ctx stream).upcoming journal ≤
      (projections ctx stream).upcoming ((projections ctx stream).change action journal) := by
  have hcall := (@call_numbers _ ctx action.authority h action.operation).2
  show journal.nextSequence + 1 ≤
    (respond (call ctx action.authority action.operation) journal).2.nextSequence + 1
  rcases hcall with ⟨hsame, -⟩ | ⟨hnext, -⟩
  · omega
  · omega

end InMemoryActionJournal

end OpenGameAgent
