import OpenGameAgent.Library.OrderedMap
import OpenGameAgent.Actions.Journal

/-!
# What a journal does to its records and its conflict keys

A journal of either kind keeps a record for every operation and an owner for every
held conflict key; `Ledger` is no more than that.  Whatever a call does, it does as a
path of changes to the ledger: an admission, moves of records, purges.

* `Ledger.Step` — one change, with the conflict keys it takes or gives back.
* `Ledger.Path` — the changes of a call, or of a run of calls.
* `Fits` — which changes a call with which answer makes.  `Ledger.Sweeps` is what
  `nextDelivery` does before it looks for work: it retires the pending actions of closed
  runs and expires the claims whose lease has run out.
* `Ledger.Sound` — a conflict key is held by an operation exactly when the operation's
  record is unsettled and lists the key.  `Ledger.Sound.path` carries it along a path.
-/

namespace OpenGameAgent

structure Ledger where
  record : ActionKey → Option ActionRecord
  owner : String × String → Option String

inductive LedgerChange where
  | admission (record : ActionRecord)
  | move (record : ActionRecord) (move : ActionMove) (moved : ActionRecord)
  | purge (record : ActionRecord)

/-! ## Steps -/

/-- The owners once a record has taken its conflict keys. -/
def acquired (owner : String × String → Option String) (record : ActionRecord)
    (key : String × String) : Option String :=
  if key.1 = record.sessionId ∧ key.2 ∈ record.conflictKeys then some record.operationId
  else owner key

/-- The owners once a record has given back the conflict keys it held. -/
def released (owner : String × String → Option String) (record : ActionRecord)
    (key : String × String) : Option String :=
  if key.1 = record.sessionId ∧ key.2 ∈ record.conflictKeys ∧ owner key = some record.operationId
  then none else owner key

/-- No other operation holds a conflict key of the record. -/
def CanAcquire (owner : String × String → Option String) (record : ActionRecord) : Prop :=
  ∀ key ∈ record.conflictKeys, ∀ holder, owner (record.sessionId, key) = some holder →
    holder = record.operationId

/-- Some of the keys the operation held are given back. -/
def Drops (record : ActionRecord) (owner owner' : String × String → Option String) : Prop :=
  ∀ key, owner' key = owner key ∨
    (owner' key = none ∧ owner key = some record.operationId ∧ key.1 = record.sessionId)

/-- Deleting, one key after another, those keys of a record that name it leaves what
`released` says; `name` is the operation id an entry holds. -/
theorem map_get?_foldl_delete {α : Type} (name : α → String) (record : ActionRecord)
    (conflicts : OrderedMap (String × String) α) :
    (fun key => ((record.conflictKeys.foldl
        (fun conflicts key =>
          if (conflicts.get? (record.sessionId, key)).map name = some record.operationId then
            conflicts.delete (record.sessionId, key)
          else conflicts) conflicts).get? key).map name) =
      released (fun key => (conflicts.get? key).map name) record := by
  funext key
  unfold released
  dsimp only
  induction record.conflictKeys generalizing conflicts with
  | nil => simp
  | cons head rest ih =>
    have hstep : ∀ j, ((if (conflicts.get? (record.sessionId, head)).map name =
            some record.operationId then
          conflicts.delete (record.sessionId, head) else conflicts).get? j).map name =
        if (record.sessionId, head) = j ∧ (conflicts.get? j).map name = some record.operationId
        then none else (conflicts.get? j).map name := by
      intro j
      split
      · rename_i howned
        rw [OrderedMap.get?_delete]
        by_cases hj : (record.sessionId, head) = j
        · subst hj
          simp [howned]
        · simp [hj]
      · rename_i howned
        rw [if_neg]
        rintro ⟨rfl, hc⟩
        exact howned hc
    simp only [List.foldl_cons, ih, hstep]
    by_cases ho : (conflicts.get? key).map name = some record.operationId
    · by_cases hs : key.1 = record.sessionId
      · by_cases hh : key.2 = head
        · have hk : (record.sessionId, head) = key := by rw [← hs, ← hh]
          simp only [hs, hh, ho, hk]
          simp
        · have hk : (record.sessionId, head) ≠ key := by
            intro hc
            exact hh (by rw [← hc])
          simp [hs, hh, ho, hk]
      · have hk : (record.sessionId, head) ≠ key := by
          intro hc
          exact hs (by rw [← hc])
        simp [hs, hk]
    · simp [ho]

theorem released_drops (owner : String × String → Option String) (record : ActionRecord) :
    Drops record owner (released owner record) := by
  intro key
  unfold released
  split
  · rename_i h
    exact Or.inr ⟨rfl, h.2.2, h.1⟩
  · exact Or.inl rfl

/-- What a move does to the owners. -/
def ActionMove.Owners (record moved : ActionRecord)
    (owner owner' : String × String → Option String) : ActionMove → Prop
  | .claim _ => CanAcquire owner record ∧ owner' = acquired owner record
  | .reclaim _ => CanAcquire owner record ∧ owner' = acquired (released owner record) record
  | .receipt _ | .reconcile _ =>
    owner' = if moved.status.unsettled then owner else released owner record
  | .expire _ | .settle _ => owner' = owner
  | .retire _ => Drops record owner owner'

/-- The ledger with another record under a key. -/
def Ledger.write (l : Ledger) (key : ActionKey) (record : Option ActionRecord) :
    ActionKey → Option ActionRecord :=
  fun k => if k = key then record else l.record k

theorem Ledger.write_write (l : Ledger) (owner : String × String → Option String)
    (key : ActionKey) (a b : Option ActionRecord) :
    Ledger.write ⟨l.write key a, owner⟩ key b = l.write key b := by
  funext k
  simp only [Ledger.write]
  split <;> rfl

/-- One change of a ledger. -/
inductive Ledger.Step (l : Ledger) : LedgerChange → Ledger → Prop
  | admission {record : ActionRecord} (fresh : l.record record.key = none)
      (pending : record.status = .pending) (attempt : record.attempt = 0)
      (unclaimed : record.claim = none) :
      Ledger.Step l (.admission record) ⟨l.write record.key (some record), l.owner⟩
  | move {record moved : ActionRecord} {move : ActionMove}
      {owner : String × String → Option String} (present : l.record record.key = some record)
      (moves : Moves record move moved) (owners : move.Owners record moved l.owner owner) :
      Ledger.Step l (.move record move moved) ⟨l.write record.key (some moved), owner⟩
  | purge {record : ActionRecord} {owner : String × String → Option String}
      (present : l.record record.key = some record) (terminal : record.status.terminal = true)
      (owners : Drops record l.owner owner) :
      Ledger.Step l (.purge record) ⟨l.write record.key none, owner⟩

/-- A path of changes. -/
inductive Ledger.Path : Ledger → List LedgerChange → Ledger → Prop
  | nil (l : Ledger) : Ledger.Path l [] l
  | cons {l mid l' : Ledger} {change : LedgerChange} {changes : List LedgerChange}
      (step : Ledger.Step l change mid) (rest : Ledger.Path mid changes l') :
      Ledger.Path l (change :: changes) l'

theorem Ledger.Path.single {l l' : Ledger} {change : LedgerChange} (h : l.Step change l') :
    Ledger.Path l [change] l' := .cons h (.nil l')

theorem Ledger.Path.append {l mid l' : Ledger} {before after : List LedgerChange}
    (h : Ledger.Path l before mid) (h' : Ledger.Path mid after l') :
    Ledger.Path l (before ++ after) l' := by
  induction h with
  | nil => exact h'
  | cons step rest ih => exact .cons step (ih h')

/-- What every step preserves, a path preserves. -/
theorem Ledger.Path.invariant {P : Ledger → Prop} {l l' : Ledger} {changes : List LedgerChange}
    (hstep : ∀ l change l', change ∈ changes → P l → Ledger.Step l change l' → P l')
    (hpath : Ledger.Path l changes l') (h : P l) : P l' := by
  induction hpath with
  | nil => exact h
  | cons step rest ih =>
    have hmid := hstep _ _ _ (List.mem_cons_self ..) h step
    exact ih (fun l change l' hmem => hstep l change l' (List.mem_cons_of_mem _ hmem)) hmid

/-! ## Which changes a call makes -/

/-- A pending record is retired, or a claim expires. -/
def LedgerChange.IsSweep (now : String) : LedgerChange → Prop
  | .move _ (.retire time) _ => time = now
  | .move _ (.expire time) _ => time = now
  | _ => False

/-- An action is dispatched by a claim or a reclaim. -/
def LedgerChange.IsDispatch (request : ActionClaimRequest) (moved : ActionRecord) :
    LedgerChange → Prop
  | .move _ (.claim other) result => other = request ∧ result = moved
  | .move _ (.reclaim other) result => other = request ∧ result = moved
  | _ => False

/-- What a reconciliation changes: it moves the record, and retires one that would be
dispatched again for a closed run. -/
def Reconciles (input : ActionReconcileInput) (changes : List LedgerChange) : Prop :=
  ∃ before after, changes = before ++ after ∧
    (before = [] ∨ ∃ record between, record.key = input.key ∧
      before = [.move record (.reconcile input) between]) ∧
    (after = [] ∨ ∃ between moved, after = [.move between (.retire input.reconciledAt) moved])

/-- The changes that go with a call and its answer, or with a call that threw. -/
def Fits (operation : ActionOperation) (answer : Option ActionAnswer)
    (changes : List LedgerChange) : Prop :=
  match operation with
  | .ensure intent now => changes = [] ∨ changes = [.admission (intent.admitted now)]
  | .get _ _ | .recoverDelivery _ | .listGoalProjections _ => changes = []
  | .nextDelivery request =>
    match answer with
    | some (.selection ⟨some ⟨.dispatch, moved⟩, _⟩) =>
      ∃ sweep dispatch, changes = sweep ++ [dispatch] ∧
        (∀ change ∈ sweep, change.IsSweep request.claimedAt) ∧
        dispatch.IsDispatch request moved
    | _ => ∀ change ∈ changes, change.IsSweep request.claimedAt
  | .recordReceipt input =>
    changes = [] ∨
      ∃ record moved, record.key = input.key ∧ changes = [.move record (.receipt input) moved]
  | .reconcile input =>
    match answer with
    | none => changes = []
    | some _ => Reconciles input changes
  | .settleGoalProjection input =>
    changes = [] ∨ ∃ record moved, changes = [.move record (.settle input) moved]
  | .purgeTerminal _ =>
    match answer with
    | some (.purged operationIds) =>
      ∃ records : List ActionRecord, changes = records.map LedgerChange.purge ∧
        operationIds = records.map fun record => record.operationId
    | _ => changes = []

/-- A call that changes nothing fits, whatever it answers, unless it is a dispatch. -/
theorem fits_nil (operation : ActionOperation) : Fits operation none [] := by
  cases operation with
  | ensure intent now => exact Or.inl rfl
  | get stream operationId => exact rfl
  | recoverDelivery stream => exact rfl
  | nextDelivery request => exact fun change hmem => absurd hmem (List.not_mem_nil)
  | recordReceipt input => exact Or.inl rfl
  | reconcile input => exact rfl
  | listGoalProjections request => exact rfl
  | settleGoalProjection input => exact Or.inl rfl
  | purgeTerminal request => exact rfl

/-- A receipt or a reconciliation that no record of the ledger takes. -/
def Ledger.Stale (l : Ledger) : ActionOperation → Prop
  | .recordReceipt input => ∀ record, l.record input.key = some record →
      ¬ record.Accepts input.claimToken input.attempt (prepareReceipt input)
  | .reconcile input => ∀ record, l.record input.key = some record →
      ¬ record.Accepts input.claimToken input.attempt input.receipt
  | _ => False

/-- Some retirements and expiries lead from one ledger to the other. -/
def Ledger.Sweeps (now : String) (l l' : Ledger) : Prop :=
  ∃ changes, Ledger.Path l changes l' ∧ ∀ change ∈ changes, change.IsSweep now

theorem Ledger.Sweeps.refl (now : String) (l : Ledger) : l.Sweeps now l :=
  ⟨[], .nil _, by simp⟩

theorem Ledger.Sweeps.cons {now : String} {l mid l' : Ledger} {change : LedgerChange}
    (hstep : l.Step change mid) (hsweep : change.IsSweep now) (h : mid.Sweeps now l') :
    l.Sweeps now l' := by
  obtain ⟨changes, hpath, hall⟩ := h
  refine ⟨change :: changes, .cons hstep hpath, ?_⟩
  intro other hmem
  rcases List.mem_cons.1 hmem with rfl | hmem
  · exact hsweep
  · exact hall other hmem

theorem Ledger.Sweeps.trans {now : String} {l mid l' : Ledger} (h : l.Sweeps now mid)
    (h' : mid.Sweeps now l') : l.Sweeps now l' := by
  obtain ⟨before, hbefore, hall⟩ := h
  obtain ⟨after, hafter, hall'⟩ := h'
  refine ⟨before ++ after, hbefore.append hafter, ?_⟩
  intro change hmem
  rcases List.mem_append.1 hmem with hmem | hmem
  · exact hall change hmem
  · exact hall' change hmem

/-! ## Moves keep the intent -/

@[simp] theorem claimedBy_intent (record : ActionRecord) (request : ActionClaimRequest) :
    (record.claimedBy request).toPreparedActionIntent = record.toPreparedActionIntent := rfl

variable {record moved : ActionRecord} {move : ActionMove}

theorem Moves.intent (h : Moves record move moved) :
    moved.toPreparedActionIntent = record.toPreparedActionIntent := by
  cases h <;> rfl

theorem Moves.key (h : Moves record move moved) : moved.key = record.key := by
  rw [ActionRecord.key, h.intent]

/-! ## Conflict keys belong to unsettled records -/

/-- The record is unsettled and lists the key. -/
def ActionRecord.Holds (record : ActionRecord) (key : String × String) : Prop :=
  record.status.unsettled = true ∧ key.1 = record.sessionId ∧ key.2 ∈ record.conflictKeys

/-- No two admitted intents of different streams share an operation id. -/
def CollisionFree (Admitted : PreparedActionIntent → Prop) : Prop :=
  ∀ a b, Admitted a → Admitted b → a.operationId = b.operationId →
    a.sessionId = b.sessionId ∧ a.actorId = b.actorId

/-- The invariant of a ledger whose records come from the admitted intents. -/
structure Ledger.Sound (Admitted : PreparedActionIntent → Prop) (l : Ledger) : Prop where
  keyed : ∀ key record, l.record key = some record → record.key = key
  admitted : ∀ key record, l.record key = some record → Admitted record.toPreparedActionIntent
  exclusive : ∀ key operationId, l.owner key = some operationId ↔
    ∃ k record, l.record k = some record ∧ record.operationId = operationId ∧ record.Holds key

section Sound

variable {Admitted : PreparedActionIntent → Prop} {l l' : Ledger}

/-- An operation id names one record. -/
theorem Ledger.Sound.unique (h : l.Sound Admitted) (hfree : CollisionFree Admitted)
    {k j : ActionKey} {a b : ActionRecord} (ha : l.record k = some a) (hb : l.record j = some b)
    (heq : a.operationId = b.operationId) : k = j ∧ a = b := by
  obtain ⟨hsession, hactor⟩ := hfree _ _ (h.admitted k a ha) (h.admitted j b hb) heq
  have hkey : k = j := by
    rw [← h.keyed k a ha, ← h.keyed j b hb]
    simp only [ActionRecord.key, PreparedActionIntent.key, heq, hsession, hactor]
  subst hkey
  rw [ha, Option.some.injEq] at hb
  exact ⟨rfl, hb⟩

/-- A record's own keys: it owns those it holds. -/
theorem Ledger.Sound.owns_iff (h : l.Sound Admitted) (hfree : CollisionFree Admitted)
    (hrecord : l.record record.key = some record) (key : String × String) :
    l.owner key = some record.operationId ↔ record.Holds key := by
  rw [h.exclusive]
  constructor
  · rintro ⟨k, other, hother, hid, hholds⟩
    obtain ⟨-, rfl⟩ := h.unique hfree hother hrecord hid
    exact hholds
  · intro hholds
    exact ⟨_, record, hrecord, rfl, hholds⟩

/-- To replace a record by another of the same intent it is enough to look at the keys:
its own are right, and those of others are as before. -/
theorem Ledger.Sound.replace (h : l.Sound Admitted) (hfree : CollisionFree Admitted)
    (hrecord : l.record record.key = some record)
    (hintent : moved.toPreparedActionIntent = record.toPreparedActionIntent)
    {owner : String × String → Option String}
    (hown : ∀ key, owner key = some record.operationId ↔ moved.Holds key)
    (hother : ∀ key holder, holder ≠ record.operationId →
      (owner key = some holder ↔ l.owner key = some holder)) :
    Ledger.Sound Admitted ⟨l.write record.key (some moved), owner⟩ := by
  have hkey : moved.key = record.key := by rw [ActionRecord.key, hintent]
  constructor
  case keyed =>
    intro key other hget
    simp only [Ledger.write] at hget
    split at hget
    · rename_i hk
      rw [Option.some.injEq] at hget
      rw [← hget, hkey, hk]
    · exact h.keyed key other hget
  case admitted =>
    intro key other hget
    simp only [Ledger.write] at hget
    split at hget
    · rw [Option.some.injEq] at hget
      rw [← hget, hintent]
      exact h.admitted _ _ hrecord
    · exact h.admitted key other hget
  case exclusive =>
    intro key operationId
    by_cases hid : operationId = record.operationId
    · subst hid
      rw [hown]
      constructor
      · intro hholds
        exact ⟨record.key, moved, if_pos rfl, by rw [hintent], hholds⟩
      · rintro ⟨k, other, hget, hid, hholds⟩
        simp only [Ledger.write] at hget
        split at hget
        · rw [Option.some.injEq] at hget
          exact hget ▸ hholds
        · rename_i hk
          exact absurd (h.unique hfree hget hrecord hid).1 hk
    · rw [hother key operationId hid, h.exclusive]
      constructor
      · rintro ⟨k, other, hget, hsame, hholds⟩
        refine ⟨k, other, ?_, hsame, hholds⟩
        simp only [Ledger.write]
        split
        · rename_i hk
          rw [hk, hrecord, Option.some.injEq] at hget
          exact absurd (hget ▸ hsame.symm) hid
        · exact hget
      · rintro ⟨k, other, hget, hsame, hholds⟩
        simp only [Ledger.write] at hget
        split at hget
        · rw [Option.some.injEq] at hget
          rw [← hget, hintent] at hsame
          exact absurd hsame.symm hid
        · exact ⟨k, other, hget, hsame, hholds⟩

theorem holds_iff_of_intent (hintent : moved.toPreparedActionIntent = record.toPreparedActionIntent)
    (hstatus : moved.status.unsettled = record.status.unsettled) (key : String × String) :
    moved.Holds key ↔ record.Holds key := by
  unfold ActionRecord.Holds
  rw [hstatus, hintent]

theorem not_holds_of_settled (h : record.status.unsettled = false) (key : String × String) :
    ¬ record.Holds key := by
  rintro ⟨hu, -⟩
  rw [h] at hu
  cases hu

/-- Taking the keys, from owners none of which is foreign. -/
theorem acquired_spec {owner : String × String → Option String} (hcan : CanAcquire owner record)
    (howned : ∀ key, owner key = some record.operationId →
      key.1 = record.sessionId ∧ key.2 ∈ record.conflictKeys)
    (hunsettled : moved.status.unsettled = true)
    (hintent : moved.toPreparedActionIntent = record.toPreparedActionIntent) :
    (∀ key, acquired owner record key = some record.operationId ↔ moved.Holds key) ∧
      ∀ key holder, holder ≠ record.operationId →
        (acquired owner record key = some holder ↔ owner key = some holder) := by
  constructor
  · intro key
    unfold acquired ActionRecord.Holds
    rw [hunsettled, hintent]
    split
    · rename_i hk
      simp [hk]
    · rename_i hk
      simp only [true_and]
      exact ⟨howned key, fun hc => absurd hc hk⟩
  · intro key holder hne
    unfold acquired
    split
    · rename_i hk
      simp only [Option.some.injEq]
      constructor
      · intro hc
        exact absurd hc.symm hne
      · intro hc
        have hkey : key = (record.sessionId, key.2) := by rw [← hk.1]
        rw [hkey] at hc
        exact absurd (hcan key.2 hk.2 holder hc) hne
    · exact Iff.rfl

/-- Giving the keys back. -/
theorem released_spec {owner : String × String → Option String}
    (howned : ∀ key, owner key = some record.operationId →
      key.1 = record.sessionId ∧ key.2 ∈ record.conflictKeys) :
    (∀ key, released owner record key ≠ some record.operationId) ∧
      ∀ key holder, holder ≠ record.operationId →
        (released owner record key = some holder ↔ owner key = some holder) := by
  constructor
  · intro key hc
    unfold released at hc
    split at hc
    · cases hc
    · rename_i hk
      obtain ⟨hs, hm⟩ := howned key hc
      exact hk ⟨hs, hm, hc⟩
  · intro key holder hne
    unfold released
    split
    · rename_i hk
      rw [hk.2.2]
      simp [Ne.symm hne]
    · exact Iff.rfl

/-- Owners that drop keys of a record that holds none are the same. -/
theorem Drops.eq {owner owner' : String × String → Option String} (h : Drops record owner owner')
    (hnone : ∀ key, owner key ≠ some record.operationId) : owner' = owner := by
  funext key
  rcases h key with hsame | ⟨-, howned, -⟩
  · exact hsame
  · exact absurd howned (hnone key)

theorem Ledger.Sound.afterMove {owner : String × String → Option String} (h : l.Sound Admitted)
    (hfree : CollisionFree Admitted) (hrecord : l.record record.key = some record)
    (hmoves : Moves record move moved) (howners : move.Owners record moved l.owner owner) :
    Ledger.Sound Admitted ⟨l.write record.key (some moved), owner⟩ := by
  have howns := h.owns_iff hfree hrecord
  have howned : ∀ key, l.owner key = some record.operationId →
      key.1 = record.sessionId ∧ key.2 ∈ record.conflictKeys :=
    fun key hk => ((howns key).1 hk).2
  have hkeep : moved.status.unsettled = record.status.unsettled → owner = l.owner →
      Ledger.Sound Admitted ⟨l.write record.key (some moved), owner⟩ := by
    rintro hstatus rfl
    refine h.replace hfree hrecord hmoves.intent (fun key => ?_) (fun _ _ _ => Iff.rfl)
    rw [holds_iff_of_intent hmoves.intent hstatus]
    exact howns key
  have hrelease : moved.status.unsettled = false → owner = released l.owner record →
      Ledger.Sound Admitted ⟨l.write record.key (some moved), owner⟩ := by
    rintro hsettled rfl
    obtain ⟨hnone, hother⟩ := released_spec howned
    exact h.replace hfree hrecord hmoves.intent
      (fun key => iff_of_false (hnone key) (not_holds_of_settled hsettled key)) hother
  have hanswer : record.status.unsettled = true →
      owner = (if moved.status.unsettled then l.owner else released l.owner record) →
      Ledger.Sound Admitted ⟨l.write record.key (some moved), owner⟩ := by
    intro hunsettled howner
    cases hstatus : moved.status.unsettled with
    | true =>
      rw [hstatus, if_pos rfl] at howner
      exact hkeep (hstatus.trans hunsettled.symm) howner
    | false =>
      rw [hstatus, if_neg Bool.false_ne_true] at howner
      exact hrelease hstatus howner
  cases hmoves with
  | @claim request valid pending =>
    obtain ⟨hcan, rfl⟩ := howners
    have hclaimed : (record.claimedBy request).status.unsettled = true := rfl
    obtain ⟨hown, hother⟩ := acquired_spec hcan howned hclaimed (claimedBy_intent record request)
    exact h.replace hfree hrecord (claimedBy_intent record request) hown hother
  | @reclaim request valid claimed safe due =>
    obtain ⟨hcan, rfl⟩ := howners
    obtain ⟨hnone, hother⟩ := released_spec howned
    have hcan' : CanAcquire (released l.owner record) record := by
      intro key hkey holder hholder
      by_contra hne
      exact hne (hcan key hkey holder ((hother _ _ hne).1 hholder))
    have hclaimed : (record.claimedBy request).status.unsettled = true := rfl
    obtain ⟨hown, hother'⟩ := acquired_spec hcan' (fun key hk => absurd hk (hnone key)) hclaimed
      (claimedBy_intent record request)
    exact h.replace hfree hrecord (claimedBy_intent record request) hown
      (fun key holder hne => (hother' key holder hne).trans (hother key holder hne))
  | receipt valid unsettled holds unanswered => exact hanswer unsettled howners
  | reconcile valid unsettled holds open_ => exact hanswer unsettled howners
  | expire valid claimed due =>
    exact hkeep (by rw [claimed]; rfl) howners
  | retire valid pending unapplied =>
    have hnone : ∀ key, l.owner key ≠ some record.operationId := by
      intro key hc
      exact not_holds_of_settled (by rw [pending]; rfl) key ((howns key).1 hc)
    exact hkeep (by rw [pending]; rfl) (Drops.eq howners hnone)
  | settle valid fingerprint unsettled projected source => exact hkeep rfl howners

theorem Ledger.Sound.step {change : LedgerChange} (h : l.Sound Admitted)
    (hfree : CollisionFree Admitted)
    (hadmitted : ∀ record, change = .admission record → Admitted record.toPreparedActionIntent)
    (hstep : l.Step change l') : l'.Sound Admitted := by
  cases hstep with
  | @admission record fresh pending attempt unclaimed =>
    have hsettled : record.status.unsettled = false := by rw [pending]; rfl
    constructor
    case keyed =>
      intro key other hget
      simp only [Ledger.write] at hget
      split at hget
      · rename_i hk
        rw [Option.some.injEq] at hget
        rw [← hget, hk]
      · exact h.keyed key other hget
    case admitted =>
      intro key other hget
      simp only [Ledger.write] at hget
      split at hget
      · rw [Option.some.injEq] at hget
        exact hget ▸ hadmitted record rfl
      · exact h.admitted key other hget
    case exclusive =>
      intro key operationId
      rw [h.exclusive]
      constructor
      · rintro ⟨k, other, hget, hsame, hholds⟩
        refine ⟨k, other, ?_, hsame, hholds⟩
        simp only [Ledger.write]
        split
        · rename_i hk
          rw [hk, fresh] at hget
          cases hget
        · exact hget
      · rintro ⟨k, other, hget, hsame, hholds⟩
        simp only [Ledger.write] at hget
        split at hget
        · rw [Option.some.injEq] at hget
          exact absurd (hget ▸ hholds) (not_holds_of_settled hsettled key)
        · exact ⟨k, other, hget, hsame, hholds⟩
  | move present moves owners => exact h.afterMove hfree present moves owners
  | @purge record owner present terminal owners =>
    have hsettled : record.status.unsettled = false := by
      cases hs : record.status <;> simp_all [ActionStatus.terminal, ActionStatus.unsettled]
    have hnone : ∀ key, l.owner key ≠ some record.operationId := by
      intro key hc
      exact not_holds_of_settled hsettled key ((h.owns_iff hfree present key).1 hc)
    have hsame := Drops.eq owners hnone
    subst hsame
    constructor
    case keyed =>
      intro key other hget
      simp only [Ledger.write] at hget
      split at hget
      · cases hget
      · exact h.keyed key other hget
    case admitted =>
      intro key other hget
      simp only [Ledger.write] at hget
      split at hget
      · cases hget
      · exact h.admitted key other hget
    case exclusive =>
      intro key operationId
      rw [h.exclusive]
      constructor
      · rintro ⟨k, other, hget, hsame, hholds⟩
        refine ⟨k, other, ?_, hsame, hholds⟩
        simp only [Ledger.write]
        split
        · rename_i hk
          rw [hk, present, Option.some.injEq] at hget
          exact absurd (hget ▸ hholds) (not_holds_of_settled hsettled key)
        · exact hget
      · rintro ⟨k, other, hget, hsame, hholds⟩
        simp only [Ledger.write] at hget
        split at hget
        · cases hget
        · exact ⟨k, other, hget, hsame, hholds⟩

/-- A path that admits only admitted intents keeps the ledger sound. -/
theorem Ledger.Sound.path {changes : List LedgerChange} (h : l.Sound Admitted)
    (hfree : CollisionFree Admitted)
    (hadmitted : ∀ record, .admission record ∈ changes → Admitted record.toPreparedActionIntent)
    (hpath : Ledger.Path l changes l') : l'.Sound Admitted := by
  refine hpath.invariant (fun l change l' hmem hsound hstep => ?_) h
  refine hsound.step hfree (fun record hchange => hadmitted record ?_) hstep
  exact hchange ▸ hmem

/-- No two unsettled records of a session share a conflict key. -/
theorem Ledger.Sound.disjoint (h : l.Sound Admitted) (hfree : CollisionFree Admitted)
    {k j : ActionKey} {a b : ActionRecord} (ha : l.record k = some a) (hb : l.record j = some b)
    {key : String × String} (hka : a.Holds key) (hkb : b.Holds key) : k = j ∧ a = b := by
  have howner := (h.exclusive key a.operationId).2 ⟨k, a, ha, rfl, hka⟩
  rw [(h.exclusive key b.operationId).2 ⟨j, b, hb, rfl, hkb⟩, Option.some.injEq] at howner
  exact h.unique hfree ha hb howner.symm

end Sound

end OpenGameAgent
