import Mathlib.Data.List.Induction
import OpenGameAgent.Library.Program
import OpenGameAgent.Actions.Ledger

/-!
# Runs of a journal

`ActionJournal` is what the two journals have in common: a call either answers or
throws, and either way it is a path of changes of the journal's ledger that fits it; a
stale receipt or reconciliation changes nothing.  `Ledger.Run` is a run of calls as the ledger sees it.

* `ActionJournal.ledger_run` — every run of a journal is one of its ledger.
* `Ledger.Exclusive` — what the conflict keys are for; `Ledger.Sound.exclusive_keys`
  reads it off the invariant.
-/

namespace OpenGameAgent

/-- An implementation of the interface `ActionJournal`. -/
structure ActionJournal where
  State : Type
  Authority : Type
  empty : State
  call : Authority → ActionOperation → EStateM ActionError State ActionAnswer
  ledger : State → Ledger
  starts : ledger empty = ⟨fun _ => none, fun _ => none⟩
  refines : ∀ authority operation state, Ends (call authority operation) state
    (fun answer state' => ∃ changes, Ledger.Path (ledger state) changes (ledger state') ∧
      Fits operation (some answer) changes)
    (fun _ state' => ∃ changes, Ledger.Path (ledger state) changes (ledger state') ∧
      Fits operation none changes)
  fenced : ∀ authority operation state, (ledger state).Stale operation →
    Ends (call authority operation) state (fun _ state' => state' = state)
      (fun _ state' => state' = state)

/-- What a journal answered to a call. -/
abbrev ActionJournal.Outcome := ActionOperation × Except ActionError ActionAnswer

namespace ActionJournal

variable (journal : ActionJournal)

/-- One call: the answer and the state after it. -/
def answer (state : journal.State) (call : ActionCall journal.Authority) :
    Except ActionError ActionAnswer × journal.State :=
  respond (journal.call call.authority call.operation) state

/-- The state after some calls on an empty journal. -/
def run (calls : List (ActionCall journal.Authority)) : journal.State :=
  (history journal.answer journal.empty calls).2

/-- What the journal answered to the calls, in order. -/
def outcomes (calls : List (ActionCall journal.Authority)) : List Outcome :=
  (history journal.answer journal.empty calls).1.map fun (call, answer) =>
    (call.operation, answer)

end ActionJournal

/-- A run as the ledger sees it. -/
inductive Ledger.Run (start : Ledger) : List ActionJournal.Outcome → Ledger → Prop
  | nil : Ledger.Run start [] start
  | concat {outcomes : List ActionJournal.Outcome} {mid l : Ledger} {operation : ActionOperation}
      {answer : Except ActionError ActionAnswer} {changes : List LedgerChange}
      (before : Ledger.Run start outcomes mid) (path : Ledger.Path mid changes l)
      (fits : Fits operation answer.toOption changes) :
      Ledger.Run start (outcomes ++ [(operation, answer)]) l

namespace ActionJournal

variable (journal : ActionJournal)

theorem answer_path (state : journal.State) (call : ActionCall journal.Authority) :
    ∃ changes, Ledger.Path (journal.ledger state) changes
        (journal.ledger (journal.answer state call).2) ∧
      Fits call.operation (journal.answer state call).1.toOption changes := by
  obtain ⟨hok, herror⟩ := (journal.refines call.authority call.operation state).respond
  unfold answer
  cases hanswer : (respond (journal.call call.authority call.operation) state).1 with
  | ok a => exact hok a hanswer
  | error e => exact herror e hanswer

theorem answer_stale (state : journal.State) (call : ActionCall journal.Authority)
    (hstale : (journal.ledger state).Stale call.operation) :
    (journal.answer state call).2 = state := by
  obtain ⟨hok, herror⟩ :=
    (journal.fenced call.authority call.operation state hstale).respond
  unfold answer
  cases hanswer : (respond (journal.call call.authority call.operation) state).1 with
  | ok a => exact hok a hanswer
  | error e => exact herror e hanswer

theorem ledger_run (state : journal.State) (calls : List (ActionCall journal.Authority)) :
    Ledger.Run (journal.ledger state)
      ((history journal.answer state calls).1.map fun (call, answer) => (call.operation, answer))
      (journal.ledger (history journal.answer state calls).2) := by
  induction calls using List.reverseRecOn with
  | nil => exact .nil
  | append_singleton calls call ih =>
    rw [history_concat, List.map_append]
    obtain ⟨changes, hpath, hfits⟩ := journal.answer_path _ call
    exact .concat ih hpath hfits

end ActionJournal

/-! ## Which calls admit and which purge -/

section Fits

variable {operation : ActionOperation} {answer : Option ActionAnswer}
  {changes : List LedgerChange} {record : ActionRecord}

/-- A delivery neither admits nor purges: it moves records. -/
theorem fits_nextDelivery {request : ActionClaimRequest}
    (h : Fits (.nextDelivery request) answer changes) {change : LedgerChange}
    (hmem : change ∈ changes) :
    change.IsSweep request.claimedAt ∨ ∃ moved, change.IsDispatch request moved := by
  simp only [Fits] at h
  split at h
  · obtain ⟨sweep, dispatch, rfl, hsweep, hdispatch⟩ := h
    rcases List.mem_append.1 hmem with hmem | hmem
    · exact Or.inl (hsweep change hmem)
    · rw [List.mem_singleton] at hmem
      exact Or.inr ⟨_, hmem ▸ hdispatch⟩
  · exact Or.inl (h change hmem)

/-- A call other than `ensure` and `purgeTerminal` moves records and does nothing else. -/
theorem Fits.moves (h : Fits operation answer changes) {change : LedgerChange}
    (hmem : change ∈ changes) (hensure : ∀ intent now, operation ≠ .ensure intent now)
    (hpurge : ∀ request, operation ≠ .purgeTerminal request) :
    ∃ record move moved, change = .move record move moved := by
  cases operation with
  | ensure intent now => exact absurd rfl (hensure intent now)
  | purgeTerminal request => exact absurd rfl (hpurge request)
  | get stream operationId => exact absurd (h ▸ hmem) List.not_mem_nil
  | recoverDelivery stream => exact absurd (h ▸ hmem) List.not_mem_nil
  | listGoalProjections request => exact absurd (h ▸ hmem) List.not_mem_nil
  | nextDelivery request =>
    cases change with
    | move record move moved => exact ⟨record, move, moved, rfl⟩
    | admission record => rcases fits_nextDelivery h hmem with hs | ⟨_, hd⟩ <;> contradiction
    | purge record => rcases fits_nextDelivery h hmem with hs | ⟨_, hd⟩ <;> contradiction
  | recordReceipt input =>
    rcases h with rfl | ⟨record, moved, -, rfl⟩
    · exact absurd hmem List.not_mem_nil
    · exact ⟨record, _, moved, List.mem_singleton.1 hmem⟩
  | settleGoalProjection input =>
    rcases h with rfl | ⟨record, moved, rfl⟩
    · exact absurd hmem List.not_mem_nil
    · exact ⟨record, _, moved, List.mem_singleton.1 hmem⟩
  | reconcile input =>
    cases answer with
    | none => exact absurd (h ▸ hmem) List.not_mem_nil
    | some answer =>
      obtain ⟨before, after, rfl, hbefore, hafter⟩ := h
      rcases List.mem_append.1 hmem with hmem | hmem
      · rcases hbefore with rfl | ⟨record, between, -, rfl⟩
        · exact absurd hmem List.not_mem_nil
        · exact ⟨record, _, between, List.mem_singleton.1 hmem⟩
      · rcases hafter with rfl | ⟨between, moved, rfl⟩
        · exact absurd hmem List.not_mem_nil
        · exact ⟨between, _, moved, List.mem_singleton.1 hmem⟩

/-- Only `ensure` admits, and only the intent it was given. -/
theorem Fits.admission (h : Fits operation answer changes) (hmem : .admission record ∈ changes) :
    ∃ intent now, operation = .ensure intent now ∧ record = intent.admitted now := by
  by_cases hensure : ∃ intent now, operation = .ensure intent now
  · obtain ⟨intent, now, rfl⟩ := hensure
    rcases h with rfl | rfl
    · exact absurd hmem List.not_mem_nil
    · rw [List.mem_singleton, LedgerChange.admission.injEq] at hmem
      exact ⟨intent, now, rfl, hmem⟩
  · by_cases hpurge : ∃ request, operation = .purgeTerminal request
    · obtain ⟨request, rfl⟩ := hpurge
      simp only [Fits] at h
      split at h
      · obtain ⟨records, rfl, -⟩ := h
        obtain ⟨other, -, hother⟩ := List.mem_map.1 hmem
        cases hother
      · exact absurd (h ▸ hmem) List.not_mem_nil
    · obtain ⟨_, _, _, hmove⟩ := h.moves hmem (fun intent now hc => hensure ⟨intent, now, hc⟩)
        (fun request hc => hpurge ⟨request, hc⟩)
      cases hmove

/-- Only `purgeTerminal` purges, and it says what. -/
theorem Fits.purge (h : Fits operation answer changes) (hmem : .purge record ∈ changes) :
    ∃ request operationIds, operation = .purgeTerminal request ∧
      answer = some (.purged operationIds) ∧ record.operationId ∈ operationIds := by
  by_cases hpurge : ∃ request, operation = .purgeTerminal request
  · obtain ⟨request, rfl⟩ := hpurge
    simp only [Fits] at h
    split at h
    · rename_i operationIds
      obtain ⟨records, rfl, rfl⟩ := h
      obtain ⟨other, hother, hsame⟩ := List.mem_map.1 hmem
      rw [LedgerChange.purge.injEq] at hsame
      exact ⟨request, _, rfl, rfl, List.mem_map.2 ⟨other, hother, by rw [hsame]⟩⟩
    · exact absurd (h ▸ hmem) List.not_mem_nil
  · by_cases hensure : ∃ intent now, operation = .ensure intent now
    · obtain ⟨intent, now, rfl⟩ := hensure
      rcases h with rfl | rfl
      · exact absurd hmem List.not_mem_nil
      · rw [List.mem_singleton] at hmem
        cases hmem
    · obtain ⟨_, _, _, hmove⟩ := h.moves hmem (fun intent now hc => hensure ⟨intent, now, hc⟩)
        (fun request hc => hpurge ⟨request, hc⟩)
      cases hmove

end Fits

/-! ## Conflict keys over a run -/

/-- The ledger holds the record. -/
def Ledger.Keeps (l : Ledger) (record : ActionRecord) : Prop := l.record record.key = some record

/-- Conflict keys are mutually exclusive. -/
structure Ledger.Exclusive (l : Ledger) : Prop where
  /-- An operation holds a key exactly when its record is claimed or uncertain and lists
  the key. -/
  held : ∀ sessionId conflictKey operationId,
    l.owner (sessionId, conflictKey) = some operationId ↔
      ∃ record, l.Keeps record ∧ record.operationId = operationId ∧
        record.sessionId = sessionId ∧ (record.status = .claimed ∨ record.status = .uncertain) ∧
        conflictKey ∈ record.conflictKeys
  /-- No two unsettled actions of a session share a key. -/
  apart : ∀ a b, l.Keeps a → l.Keeps b → a.sessionId = b.sessionId →
    (a.status = .claimed ∨ a.status = .uncertain) → (b.status = .claimed ∨ b.status = .uncertain) →
    ∀ conflictKey ∈ a.conflictKeys, conflictKey ∈ b.conflictKeys → a = b
  /-- An action that is neither claimed nor uncertain holds no key. -/
  idle : ∀ record, l.Keeps record → record.status ≠ .claimed → record.status ≠ .uncertain →
    ∀ key, l.owner key ≠ some record.operationId
  /-- An action that is not there holds no key. -/
  absent : ∀ operationId, (∀ record, l.Keeps record → record.operationId ≠ operationId) →
    ∀ key, l.owner key ≠ some operationId

theorem Ledger.Sound.keeps_iff {Admitted : PreparedActionIntent → Prop} {l : Ledger}
    (h : l.Sound Admitted) {record : ActionRecord} :
    l.Keeps record ↔ ∃ key, l.record key = some record := by
  constructor
  · intro hkeeps
    exact ⟨record.key, hkeeps⟩
  · rintro ⟨key, hrecord⟩
    have hkey := h.keyed key record hrecord
    rw [← hkey] at hrecord
    exact hrecord

theorem Ledger.Sound.exclusive_keys {Admitted : PreparedActionIntent → Prop} {l : Ledger}
    (h : l.Sound Admitted) (hfree : CollisionFree Admitted) : l.Exclusive := by
  have hheld : ∀ sessionId conflictKey operationId,
      l.owner (sessionId, conflictKey) = some operationId ↔
        ∃ record, l.Keeps record ∧ record.operationId = operationId ∧
          record.sessionId = sessionId ∧ (record.status = .claimed ∨ record.status = .uncertain) ∧
          conflictKey ∈ record.conflictKeys := by
    intro sessionId conflictKey operationId
    rw [h.exclusive]
    unfold ActionRecord.Holds
    constructor
    · rintro ⟨k, record, hrecord, hid, hunsettled, hsession, hlists⟩
      exact ⟨record, h.keeps_iff.2 ⟨k, hrecord⟩, hid, hsession.symm, unsettled_iff.1 hunsettled,
        hlists⟩
    · rintro ⟨record, hkeeps, hid, hsession, hunsettled, hlists⟩
      exact ⟨record.key, record, hkeeps, hid, unsettled_iff.2 hunsettled, hsession.symm, hlists⟩
  constructor
  case held => exact hheld
  case apart =>
    intro a b ha hb hsession hua hub conflictKey hka hkb
    have hholds : a.Holds (a.sessionId, conflictKey) := ⟨unsettled_iff.2 hua, rfl, hka⟩
    have hholds' : b.Holds (a.sessionId, conflictKey) := ⟨unsettled_iff.2 hub, hsession, hkb⟩
    exact (h.disjoint hfree ha hb hholds hholds').2
  case idle =>
    intro record hkeeps hclaimed huncertain key howner
    obtain ⟨hunsettled, -⟩ := (h.owns_iff hfree hkeeps key).1 howner
    rcases unsettled_iff.1 hunsettled with hc | hc
    · exact hclaimed hc
    · exact huncertain hc
  case absent =>
    intro operationId habsent key howner
    obtain ⟨record, hkeeps, hid, -⟩ := (hheld key.1 key.2 operationId).1 howner
    exact habsent record hkeeps hid

/-- A run that ensures only admitted intents keeps the ledger sound. -/
theorem Ledger.Run.sound {Admitted : PreparedActionIntent → Prop} {start l : Ledger}
    {outcomes : List ActionJournal.Outcome} (hrun : Ledger.Run start outcomes l)
    (hfree : CollisionFree Admitted) (h : start.Sound Admitted)
    (hensured : ∀ intent now answer, (.ensure intent now, answer) ∈ outcomes → Admitted intent) :
    l.Sound Admitted := by
  induction hrun with
  | nil => exact h
  | concat before path fits ih =>
    have hmid := ih fun intent now answer hmem =>
      hensured intent now answer (List.mem_append_left _ hmem)
    refine hmid.path hfree (fun record hmem => ?_) path
    obtain ⟨intent, now, rfl, rfl⟩ := fits.admission hmem
    exact hensured intent now _ (List.mem_append_right _ (List.mem_singleton_self _))

end OpenGameAgent
