import Mathlib.Data.List.Nodup
import OpenGameAgent.Devtools.ProvenanceRuns

/-!
# What recorders over one file keep

Every stored document is accepted, and the log it holds only grows.  A recorder's cached log is
the front of the stored one, up to what the file makes of `-0`: so an append whose cached log
holds a `-0` succeeds in the file and is reported as failed.

* `Accepted` — what `validateStoredState` accepts; the file changes nothing of it.
* `Sound` — what holds in every world that is reached (`sound_run`).
* `provenance_history_iff` — when the log is kept as a valid attempt history.
* `negative_zero_breaks_confirmation` — a recorder that reports failure for a stored record.
-/

namespace OpenGameAgent

namespace Provenance

variable {limits : ProvenanceLimits} {state : StoredState} {log : List Record}

/-! ## Accepted documents -/

/-- `validateStoredState` accepts a document. -/
structure Accepted (limits : ProvenanceLimits) (state : StoredState) : Prop where
  count : state.records.length ≤ limits.maxRecords
  bytes : state.bytes ≤ limits.maxStoreBytes
  valid : Valid limits state.records
  revision : state.revision = state.records.getLast?.map Record.sequence

theorem validateStoredState_eq_ok {after : StoredState} :
    validateStoredState limits state = .ok after ↔ after = state ∧ Accepted limits state := by
  unfold validateStoredState
  rw [check_eq_ok, check_eq_ok, check_eq_ok, demand_eq_ok, invalidUnless_eq_ok, return_eq_ok,
    Bool.and_eq_true, decide_eq_true_eq, decide_eq_true_eq, decide_eq_true_eq]
  constructor
  · rintro ⟨⟨hcount, hbytes⟩, hvalid, hrevision, rfl⟩
    exact ⟨rfl, hcount, hbytes, hvalid, hrevision⟩
  · rintro ⟨rfl, hcount, hbytes, hvalid, hrevision⟩
    exact ⟨⟨hcount, hbytes⟩, hvalid, hrevision, rfl⟩

/-- The revision of a document counts its records. -/
theorem Accepted.revision_getD (h : Accepted limits state) :
    state.revision.getD 0 = state.records.length := by
  rw [h.revision]
  exact h.valid.revision

theorem Accepted.reread (h : Accepted limits state) : Accepted limits state.reread where
  count := by
    rw [StoredState.reread, List.length_map]
    exact h.count
  bytes := state.bytes_reread ▸ h.bytes
  valid := (validateRecords_reread state.records []).trans h.valid
  revision := by
    have hlast : (state.records.map Record.reread).getLast?.map Record.sequence =
        state.records.getLast?.map Record.sequence := by
      rw [List.getLast?_map, Option.map_map]
      congr 1
      funext record
      exact record.sequence_reread
    exact h.revision.trans hlast.symm

/-- Documents of one revision hold as many records. -/
theorem Accepted.length_eq {other : StoredState} (h : Accepted limits state)
    {otherLimits : ProvenanceLimits} (h' : Accepted otherLimits other)
    (hrevision : state.revision = other.revision) :
    state.records.length = other.records.length := by
  rw [← h.revision_getD, ← h'.revision_getD, hrevision]

theorem accepted_emptyState (h : emptyState.bytes ≤ limits.maxStoreBytes) :
    Accepted limits emptyState where
  count := Nat.zero_le _
  bytes := h
  valid := valid_nil
  revision := rfl

theorem canonicalBytes_le_itemsBytes {items : List JsonValue} {item : JsonValue}
    (h : item ∈ items) : canonicalBytes item ≤ itemsBytes items := by
  induction items with
  | nil => cases h
  | cons first rest ih =>
    rw [itemsBytes]
    rcases List.mem_cons.1 h with rfl | hrest
    · exact Nat.le_add_right _ _
    · exact Nat.le_trans (ih hrest) (Nat.le_add_left _ _)

/-- A record takes no more bytes than the document it is in. -/
theorem StoredState.record_bytes_le {record : Record} (h : record ∈ state.records) :
    record.bytes ≤ state.bytes := by
  have hitem := canonicalBytes_le_itemsBytes (List.mem_map_of_mem (f := Record.toJson) h)
  have harray : canonicalBytes (.array (state.records.map Record.toJson)) ≤ state.bytes :=
    canonicalBytes_le_record (List.mem_cons_of_mem _ (List.mem_cons_of_mem _
      (List.mem_singleton_self _)))
  rw [canonicalBytes] at harray
  exact Nat.le_trans hitem (Nat.le_trans (Nat.le_add_left _ _) harray)

/-- Of its limits a log is only held to that of its records' bytes. -/
theorem Valid.of_bytes {other : ProvenanceLimits} (h : Valid limits log)
    (hbytes : ∀ record ∈ log, record.bytes ≤ other.maxRecordBytes) : Valid other log := by
  induction log using List.reverseRecOn with
  | nil => exact valid_nil
  | append_singleton log raw ih =>
    obtain ⟨hlog, hraw⟩ := valid_concat.1 h
    have hfront := ih hlog fun record hrecord => hbytes record (List.mem_append_left _ hrecord)
    obtain ⟨hvalid, hsequence, -, hnext⟩ := validateRecord_eq_ok.1 hraw
    have hlast := hbytes raw (List.mem_append_right _ (List.mem_singleton_self _))
    exact valid_concat.2 ⟨hfront, validateRecord_eq_ok.2 ⟨hvalid, hsequence, hlast, hnext⟩⟩

/-- The store reads an accepted document that fits its bound. -/
theorem load_accepted {maxDocumentBytes maxBytes : Nat} (h : Accepted limits state)
    (hbytes : state.bytes ≤ min maxBytes maxDocumentBytes) :
    FileStore.load maxDocumentBytes maxBytes (some state) = .ok state := by
  unfold FileStore.load
  dsimp only
  rw [demand_true_bind (decide_eq_true hbytes), validateStoredState_eq_ok]
  refine ⟨rfl, ?_, hbytes, ?_, h.revision⟩
  · exact Nat.le_trans h.count limits.maxRecords_safe
  · exact h.valid.of_bytes fun record hrecord =>
      Nat.le_trans (StoredState.record_bytes_le hrecord) hbytes

theorem load_eq_ok {maxDocumentBytes maxBytes : Nat} {file : Option StoredState}
    (h : FileStore.load maxDocumentBytes maxBytes file = .ok state) :
    state = file.getD emptyState ∧ ∃ otherLimits, Accepted otherLimits state := by
  unfold FileStore.load at h
  cases file with
  | none =>
    obtain rfl := Except.ok.inj h
    exact ⟨rfl, ⟨maxSafeInteger, 0, emptyState.bytes, le_rfl⟩, accepted_emptyState le_rfl⟩
  | some document =>
    dsimp only at h
    rw [check_eq_ok, validateStoredState_eq_ok] at h
    obtain ⟨-, rfl, haccepted⟩ := h
    exact ⟨rfl, _, haccepted⟩

/-! ## Appends -/

/-- What the checks of a call promise of its record and of the log it expects. -/
structure Appends (limits : ProvenanceLimits) (state : StoredState) (record : Record)
    (candidate : StoredState) : Prop where
  sequence : record.sequence = state.records.length + 1
  content : candidate = ⟨some record.sequence, state.records ++ [record]⟩
  accepted : Accepted limits candidate

theorem Draft.sequence_record (draft : Draft) (sequence : Nat) :
    (draft.record sequence).sequence = sequence := by
  cases draft <;> rfl

/-- What the checks of a call on the log say of its record. -/
theorem checkDraft_eq_ok {draft : Draft} :
    checkDraft state draft = .ok () ↔
      match draft.record (state.records.length + 1) with
      | .request recordId _ body => isNextAttempt state.records body = true ∧
          state.records.any (Record.isRequest recordId) = false
      | .response requestRecordId _ _ => isOpenRequest state.records requestRecordId = true := by
  cases draft with
  | request recordId body =>
    unfold checkDraft Draft.record
    rw [check_eq_ok, invalidUnless_eq_ok, invalidUnless_eq_ok, Bool.not_eq_true']
  | response requestRecordId body =>
    unfold checkDraft Draft.record
    rw [invalidUnless_eq_ok]

/-- A call passes its checks when an accepted log of one record more results. -/
theorem prepare_eq_ok {draft : Draft} {record : Record} {candidate : StoredState}
    (h : Accepted limits state) : prepare limits state draft = .ok (record, candidate) ↔
      record = draft.record (state.records.length + 1) ∧
        Appends limits state record candidate := by
  have hsequence := draft.sequence_record (state.records.length + 1)
  unfold prepare
  dsimp only
  rw [check_eq_ok, check_eq_ok, check_eq_ok, check_eq_ok, check_eq_ok, demand_eq_ok,
    invalidUnless_eq_ok, demand_eq_ok, demand_eq_ok, return_eq_ok, checkDraft_eq_ok,
    decide_eq_true_eq, decide_eq_true_eq, decide_eq_true_eq, h.revision_getD]
  constructor
  · rintro ⟨hdraft, hcount, hvalid, hbytes, hstore, heq⟩
    obtain ⟨rfl, rfl⟩ := Prod.mk.inj heq.symm
    generalize draft.record (state.records.length + 1) = record at *
    have hnext := validateRecord_eq_ok.2 ⟨hvalid, hsequence, hbytes, hdraft⟩
    refine ⟨rfl, hsequence, by rw [hsequence], ?_, hstore, valid_concat.2 ⟨h.valid, hnext⟩, ?_⟩
    · change (state.records ++ [record]).length ≤ limits.maxRecords
      rw [List.length_append, List.length_singleton]
      exact hcount
    · rw [List.getLast?_concat, Option.map_some, hsequence]
  · rintro ⟨rfl, -, rfl, haccepted⟩
    have hraw := (valid_concat.1 haccepted.valid).2
    have hcount := haccepted.count
    have hstore := haccepted.bytes
    obtain ⟨hvalid, -, hbytes, hdraft⟩ := validateRecord_eq_ok.1 hraw
    dsimp only at hcount
    rw [List.length_append, List.length_singleton] at hcount
    rw [hsequence] at hstore ⊢
    exact ⟨hdraft, hcount, hvalid, hbytes, hstore, rfl⟩

theorem append_eq_ok {maxDocumentBytes : Nat} {file : Option StoredState}
    {revision : Option Nat} {record : Record} {next : StoredState}
    (h : FileStore.append maxDocumentBytes file revision record = .ok next) :
    ∃ otherLimits, Accepted otherLimits (file.getD emptyState) ∧
      (file.getD emptyState).revision = revision ∧
      next = ⟨some record.sequence, (file.getD emptyState).records ++ [record]⟩ ∧
      next.bytes ≤ maxDocumentBytes := by
  unfold FileStore.append at h
  obtain ⟨current, hload, h⟩ := bind_eq_ok.1 h
  obtain ⟨rfl, otherLimits, haccepted⟩ := load_eq_ok hload
  dsimp only at h
  rw [check_eq_ok, check_eq_ok, check_eq_ok, demand_eq_ok, demand_eq_ok, return_eq_ok,
    decide_eq_true_eq, decide_eq_true_eq] at h
  obtain ⟨hrevision, -, hbytes, rfl⟩ := h
  exact ⟨otherLimits, haccepted, hrevision, rfl, hbytes⟩

/-! ## The invariant -/

variable {ctx : ProvenanceContext} {world : World} {log : List Record} {authors : List Nat}
  {calls : Nat} {recorder : Recorder}

/-- What holds of how far a call has come. -/
def PhaseSound (ctx : ProvenanceContext) (log : List Record) (authors : List Nat)
    (cached : Option StoredState) (call : Nat) : Phase → Prop
  | .begun _ => call ∉ authors
  | .appending record candidate =>
    call ∉ authors ∧ ∃ state, cached = some state ∧ Appends ctx.limits state record candidate
  | .written record candidate next =>
    ∃ state, cached = some state ∧ Appends ctx.limits state record candidate ∧
      next = ⟨some record.sequence, state.records.map Record.reread ++ [record]⟩ ∧
      candidate.records.map Record.reread <+: log ∧
      authors[state.records.length]? = some call

/-- What holds of a recorder: what it holds is the front of the stored log. -/
structure RecorderSound (ctx : ProvenanceContext) (log : List Record) (authors : List Nat)
    (calls : Nat) (recorder : Recorder) : Prop where
  cached : ∀ state, recorder.state = some state →
    Accepted ctx.limits state ∧ state.records.map Record.reread <+: log
  phase : ∀ call phase, recorder.call = some (call, phase) →
    call < calls ∧ PhaseSound ctx log authors recorder.state call phase

/-- What holds of an answer: its record is in the log, under its call. -/
structure AnswerSound (log : List Record) (authors : List Nat) (answer : Answer) : Prop where
  recorded : log[answer.record.sequence - 1]? = some answer.record.reread
  author : authors[answer.record.sequence - 1]? = some answer.call
  confirmed : answer.confirmed = true ↔ ¬ answer.cached.HoldsNegativeZero

/-- No two recorders are at one call. -/
def Distinct (recorders : Nat → Recorder) : Prop :=
  ∀ i j call phase other, (recorders i).call = some (call, phase) →
    (recorders j).call = some (call, other) → i = j

/-- What holds in every world that is reached. -/
structure Sound (ctx : ProvenanceContext) (world : World) : Prop where
  file : ∀ document, world.file = some document →
    Accepted ctx.limits document ∧ document.reread = document ∧
      document.bytes ≤ ctx.maxDocumentBytes
  counted : world.authors.length = world.log.length
  authors : world.authors.Nodup
  begun : ∀ author ∈ world.authors, author < world.calls
  recorders : ∀ i, RecorderSound ctx world.log world.authors world.calls (world.recorders i)
  distinct : Distinct world.recorders
  answers : ∀ answer ∈ world.answers, AnswerSound world.log world.authors answer

theorem recorderSound_fresh : RecorderSound ctx log authors calls .fresh where
  cached _ hstate := by cases hstate
  phase _ _ hcall := by cases hcall

theorem sound_start : Sound ctx .start where
  file _ hfile := by cases hfile
  counted := rfl
  authors := List.nodup_nil
  begun _ hauthor := by cases hauthor
  recorders _ := recorderSound_fresh
  distinct _ _ _ _ _ hcall := by cases hcall
  answers _ hanswer := by cases hanswer

theorem getElem?_append_of_eq_some {α : Type} {l : List α} {i : Nat} {a : α}
    (h : l[i]? = some a) (more : List α) : (l ++ more)[i]? = some a := by
  obtain ⟨hlt, -⟩ := List.getElem?_eq_some_iff.1 h
  rw [List.getElem?_append_left hlt, h]

theorem AnswerSound.append {answer : Answer} (h : AnswerSound log authors answer)
    (records : List Record) (others : List Nat) :
    AnswerSound (log ++ records) (authors ++ others) answer where
  recorded := getElem?_append_of_eq_some h.recorded records
  author := getElem?_append_of_eq_some h.author others
  confirmed := h.confirmed

/-- The other recorders are as sound behind an append as before it. -/
theorem RecorderSound.append (h : RecorderSound ctx log authors calls recorder)
    (records : List Record) {author : Nat}
    (hother : ∀ phase, recorder.call ≠ some (author, phase)) :
    RecorderSound ctx (log ++ records) (authors ++ [author]) calls recorder where
  cached state hstate :=
    ⟨(h.cached state hstate).1, (h.cached state hstate).2.trans (List.prefix_append _ _)⟩
  phase call phase hcall := by
    obtain ⟨hlt, hphase⟩ := h.phase call phase hcall
    have hne : call ≠ author := by
      rintro rfl
      exact hother phase hcall
    have hfresh : call ∉ authors → call ∉ authors ++ [author] := by
      intro hnot hmem
      rcases List.mem_append.1 hmem with hmem | hmem
      · exact hnot hmem
      · exact hne (List.mem_singleton.1 hmem)
    refine ⟨hlt, ?_⟩
    cases phase with
    | begun draft => exact hfresh hphase
    | appending record candidate => exact ⟨hfresh hphase.1, hphase.2⟩
    | written record candidate next =>
      obtain ⟨state, hstate, happends, hnext, hprefix, hauthor⟩ := hphase
      exact ⟨state, hstate, happends, hnext, hprefix.trans (List.prefix_append _ _),
        getElem?_append_of_eq_some hauthor [author]⟩

theorem World.recorders_setRecorder (i j : Nat) (after : Recorder) :
    (world.setRecorder i after).recorders j = if j = i then after else world.recorders j :=
  Function.update_apply world.recorders i after j

/-- One recorder goes on with the call it has, or drops it. -/
theorem Distinct.setRecorder (h : Distinct world.recorders) {i : Nat} {after : Recorder}
    (hcall : ∀ call phase, after.call = some (call, phase) →
      ∃ former, (world.recorders i).call = some (call, former)) :
    Distinct (world.setRecorder i after).recorders := by
  intro j k call phase other hj hk
  rw [World.recorders_setRecorder] at hj hk
  split at hj
  · rename_i hji
    obtain ⟨former, hformer⟩ := hcall call phase hj
    split at hk
    · rename_i hki
      rw [hji, hki]
    · rw [hji]
      exact h i k call former other hformer hk
  · split at hk
    · rename_i hki
      obtain ⟨former, hformer⟩ := hcall call other hk
      rw [hki]
      exact h j i call phase former hj hformer
    · exact h j k call phase other hj hk

theorem Sound.setRecorder (h : Sound ctx world) {i : Nat} {after : Recorder}
    (hafter : RecorderSound ctx world.log world.authors world.calls after)
    (hcall : ∀ call phase, after.call = some (call, phase) →
      ∃ former, (world.recorders i).call = some (call, former)) :
    Sound ctx (world.setRecorder i after) where
  file := h.file
  counted := h.counted
  authors := h.authors
  begun := h.begun
  recorders j := by
    rw [World.recorders_setRecorder]
    split
    · exact hafter
    · exact h.recorders j
  distinct := h.distinct.setRecorder hcall
  answers := h.answers

theorem Sound.setFresh (h : Sound ctx world) (i : Nat) : Sound ctx (world.setRecorder i .fresh) :=
  h.setRecorder recorderSound_fresh fun _ _ hcall => by cases hcall

/-! ## Along a run -/

theorem Sound.begin (h : Sound ctx world) {i : Nat} {state : Option StoredState}
    (hstate : (world.recorders i).state = state) (draft : Draft) :
    Sound ctx { world.setRecorder i ⟨state, some (world.calls, .begun draft)⟩ with
      calls := world.calls + 1 } := by
  have hlater : ∀ j, RecorderSound ctx world.log world.authors (world.calls + 1)
      (world.recorders j) := fun j =>
    ⟨(h.recorders j).cached, fun call phase hcall =>
      ⟨Nat.lt_succ_of_lt ((h.recorders j).phase call phase hcall).1,
        ((h.recorders j).phase call phase hcall).2⟩⟩
  have hnew : ∀ j phase, (world.recorders j).call ≠ some (world.calls, phase) := by
    intro j phase hcall
    exact Nat.lt_irrefl _ ((h.recorders j).phase _ _ hcall).1
  constructor
  case file => exact h.file
  case counted => exact h.counted
  case authors => exact h.authors
  case begun => exact fun author hauthor => Nat.lt_succ_of_lt (h.begun author hauthor)
  case recorders =>
    intro j
    dsimp only
    rw [World.recorders_setRecorder]
    split
    · refine ⟨fun cached hcached => ?_, fun call phase hcall => ?_⟩
      · exact (h.recorders i).cached cached (hstate.trans hcached)
      · obtain ⟨rfl, rfl⟩ := Prod.mk.inj (Option.some.inj hcall)
        refine ⟨Nat.lt_succ_self _, fun hmem => ?_⟩
        exact Nat.lt_irrefl _ (h.begun _ hmem)
    · exact hlater j
  case distinct =>
    intro j k call phase other hj hk
    dsimp only at hj hk
    rw [World.recorders_setRecorder] at hj hk
    split at hj
    · rename_i hji
      split at hk
      · rename_i hki
        rw [hji, hki]
      · obtain ⟨rfl, -⟩ := Prod.mk.inj (Option.some.inj hj)
        exact absurd hk (hnew k other)
    · split at hk
      · obtain ⟨rfl, -⟩ := Prod.mk.inj (Option.some.inj hk)
        exact absurd hj (hnew j phase)
      · exact h.distinct j k call phase other hj hk
  case answers => exact h.answers

/-- What a fresh recorder restores. -/
theorem restored_eq_ok {file : Option StoredState} {state : StoredState}
    (h : restored ctx file = .ok state) :
    state = file.getD emptyState ∧ Accepted ctx.limits state := by
  unfold restored at h
  obtain ⟨stored, hload, h⟩ := bind_eq_ok.1 h
  obtain ⟨rfl, haccepted⟩ := validateStoredState_eq_ok.1 h
  exact ⟨(load_eq_ok hload).1, haccepted⟩

/-- The stored log has gone through the file. -/
theorem Sound.log_reread (h : Sound ctx world) : world.log.map Record.reread = world.log := by
  unfold World.log
  cases hfile : world.file with
  | none => rfl
  | some document => exact congrArg StoredState.records (h.file document hfile).2.1

theorem Sound.restore (h : Sound ctx world) {i : Nat} {state : StoredState}
    (hrestored : restored ctx world.file = .ok state) {call : Option (Nat × Phase)}
    (hcall : (world.recorders i).call = call)
    (hbegun : ∀ number phase, call = some (number, phase) → ∃ draft, phase = .begun draft) :
    Sound ctx (world.setRecorder i ⟨some state, call⟩) := by
  obtain ⟨hstate, haccepted⟩ := restored_eq_ok hrestored
  refine h.setRecorder ⟨?_, ?_⟩ fun number phase hnumber => ⟨phase, hcall.trans hnumber⟩
  · rintro cached hcached
    obtain rfl := Option.some.inj hcached
    refine ⟨haccepted, ?_⟩
    have hlog : state.records = world.log := by rw [hstate]; rfl
    have hreread : state.records.map Record.reread = world.log := by rw [hlog, h.log_reread]
    exact hreread ▸ List.prefix_rfl
  · intro number phase hnumber
    have hphase := (h.recorders i).phase number phase (hcall.trans hnumber)
    obtain ⟨draft, rfl⟩ := hbegun number phase hnumber
    exact hphase

theorem Sound.check (h : Sound ctx world) {i call : Nat} {state : StoredState} {draft : Draft}
    (hrecorder : world.recorders i = ⟨some state, some (call, .begun draft)⟩) {record : Record}
    {candidate : StoredState}
    (hprepare : prepare ctx.limits state draft = .ok (record, candidate)) :
    Sound ctx (world.setRecorder i ⟨some state, some (call, .appending record candidate)⟩) := by
  have hsound := h.recorders i
  rw [hrecorder] at hsound
  obtain ⟨hlt, hfresh⟩ := hsound.phase call _ rfl
  refine h.setRecorder ⟨hsound.cached, ?_⟩ ?_
  · rintro number phase hnumber
    obtain ⟨rfl, rfl⟩ := Prod.mk.inj (Option.some.inj hnumber)
    exact ⟨hlt, hfresh, state, rfl, ((prepare_eq_ok (hsound.cached state rfl).1).1 hprepare).2⟩
  · rintro number phase hnumber
    obtain ⟨rfl, rfl⟩ := Prod.mk.inj (Option.some.inj hnumber)
    exact ⟨_, congrArg Recorder.call hrecorder⟩

/-- The log a recorder holds is the stored one, when the revisions agree. -/
theorem Sound.log_eq (h : Sound ctx world) {i : Nat} {state : StoredState}
    (hstate : (world.recorders i).state = some state) {otherLimits : ProvenanceLimits}
    (hstored : Accepted otherLimits (world.file.getD emptyState))
    (hrevision : (world.file.getD emptyState).revision = state.revision) :
    state.records.map Record.reread = world.log := by
  obtain ⟨haccepted, hprefix⟩ := (h.recorders i).cached state hstate
  refine hprefix.eq_of_length ?_
  rw [List.length_map]
  exact haccepted.length_eq hstored hrevision.symm

/-- What an append writes. -/
theorem Appends.reread {state candidate : StoredState} {record : Record}
    (h : Appends limits state record candidate) : (⟨some record.sequence,
      state.records.map Record.reread ++ [record]⟩ : StoredState).reread = candidate.reread := by
  rw [h.content]
  simp [StoredState.reread, Function.comp_def, Record.reread_reread]

theorem Sound.append (h : Sound ctx world) {i call : Nat} {state candidate next : StoredState}
    {record : Record}
    (hrecorder : world.recorders i = ⟨some state, some (call, .appending record candidate)⟩)
    (happend : FileStore.append ctx.maxDocumentBytes world.file state.revision record = .ok next) :
    Sound ctx { world.setRecorder i ⟨some state, some (call, .written record candidate next)⟩ with
      file := some next.reread
      authors := world.authors ++ [call] } := by
  have hsound := h.recorders i
  rw [hrecorder] at hsound
  obtain ⟨hlt, hfresh, held, hheld, happends⟩ := hsound.phase call _ rfl
  obtain rfl := Option.some.inj hheld
  obtain ⟨otherLimits, hstored, hrevision, hnext, hbytes⟩ := append_eq_ok happend
  have hlog := h.log_eq (congrArg Recorder.state hrecorder) hstored hrevision
  have hcontent : next = ⟨some record.sequence, state.records.map Record.reread ++ [record]⟩ := by
    rw [hnext, hlog]
    rfl
  have hreread : next.reread = candidate.reread := by rw [hcontent, happends.reread]
  have hgrown : candidate.reread.records = world.log ++ [record.reread] := by
    rw [happends.content, ← hlog]
    simp [StoredState.reread]
  have hlength : world.authors.length = state.records.length := by
    rw [h.counted, ← hlog, List.length_map]
  have hnewLog : ({ world.setRecorder i
      ⟨some state, some (call, .written record candidate next)⟩ with
        file := some next.reread
        authors := world.authors ++ [call] } : World).log = world.log ++ [record.reread] := by
    rw [← hgrown, ← hreread]
    rfl
  have hnotAuthor : ∀ j, j ≠ i → ∀ phase, (world.recorders j).call ≠ some (call, phase) := by
    intro j hne phase hcall
    exact hne (h.distinct j i call phase _ hcall (congrArg Recorder.call hrecorder))
  constructor
  case file =>
    rintro document hdocument
    obtain rfl := Option.some.inj hdocument
    refine ⟨hreread ▸ happends.accepted.reread, ?_, next.bytes_reread ▸ hbytes⟩
    simp [StoredState.reread, Function.comp_def, Record.reread_reread]
  case counted =>
    rw [hnewLog, List.length_append, List.length_append, h.counted]
    rfl
  case authors =>
    refine List.nodup_append.2 ⟨h.authors, List.pairwise_singleton _ _, ?_⟩
    rintro author hauthor other hother rfl
    rw [List.mem_singleton.1 hother] at hauthor
    exact hfresh hauthor
  case begun =>
    intro author hauthor
    rcases List.mem_append.1 hauthor with hauthor | hauthor
    · exact h.begun author hauthor
    · rw [List.mem_singleton.1 hauthor]
      exact hlt
  case recorders =>
    intro j
    rw [hnewLog]
    dsimp only
    rw [World.recorders_setRecorder]
    split
    · refine ⟨fun cached hcached => ?_, fun number phase hnumber => ?_⟩
      · obtain ⟨haccepted, hprefix⟩ := hsound.cached cached hcached
        exact ⟨haccepted, hprefix.trans (List.prefix_append _ _)⟩
      · obtain ⟨rfl, rfl⟩ := Prod.mk.inj (Option.some.inj hnumber)
        refine ⟨hlt, state, rfl, happends, hcontent, ?_, ?_⟩
        · rw [← hgrown]
          exact List.prefix_refl _
        · rw [← hlength]
          exact List.getElem?_concat_length
    · rename_i hne
      exact (h.recorders j).append [record.reread] (hnotAuthor j hne)
  case distinct =>
    refine h.distinct.setRecorder fun number phase hnumber => ?_
    obtain ⟨rfl, rfl⟩ := Prod.mk.inj (Option.some.inj hnumber)
    exact ⟨_, congrArg Recorder.call hrecorder⟩
  case answers =>
    intro answer hanswer
    rw [hnewLog]
    exact (h.answers answer hanswer).append [record.reread] [call]

/-- The store confirms exactly the logs that hold no `-0`. -/
theorem Appends.confirms {state candidate next : StoredState} {record : Record}
    (h : Appends limits state record candidate)
    (hnext : next = ⟨some record.sequence, state.records.map Record.reread ++ [record]⟩) :
    validateStoredState limits next = .ok candidate ↔ ¬ state.HoldsNegativeZero := by
  rw [← StoredState.reread_eq_iff, validateStoredState_eq_ok]
  constructor
  · rintro ⟨rfl, -⟩
    have hrecords := congrArg StoredState.records (h.content.symm.trans hnext)
    exact congrArg (StoredState.mk state.revision) (List.append_cancel_right hrecords).symm
  · intro hsame
    have hrecords : state.records.map Record.reread = state.records :=
      congrArg StoredState.records hsame
    rw [hrecords, ← h.content] at hnext
    exact ⟨hnext.symm, hnext ▸ h.accepted⟩

theorem Sound.answer (h : Sound ctx world) {i call : Nat} {state candidate next : StoredState}
    {record : Record} {confirmed : Bool}
    (hrecorder : world.recorders i = ⟨some state, some (call, .written record candidate next)⟩)
    (hconfirmed : confirmed = true ↔ validateStoredState ctx.limits next = .ok candidate)
    {after : Recorder} (hafter : after = .fresh ∨ after = ⟨some candidate, none⟩) :
    Sound ctx { world.setRecorder i after with
      answers := world.answers ++ [⟨call, record, state, confirmed⟩] } := by
  have hsound := h.recorders i
  rw [hrecorder] at hsound
  obtain ⟨-, held, hheld, happends, hnext, hprefix, hauthor⟩ := hsound.phase call _ rfl
  obtain rfl := Option.some.inj hheld
  have hset : Sound ctx (world.setRecorder i after) := by
    rcases hafter with rfl | rfl
    · exact h.setFresh i
    · refine h.setRecorder ⟨?_, fun _ _ hcall => by cases hcall⟩ fun _ _ hcall => by cases hcall
      rintro cached hcached
      obtain rfl := Option.some.inj hcached
      exact ⟨happends.accepted, hprefix⟩
  refine ⟨hset.file, hset.counted, hset.authors, hset.begun, hset.recorders, hset.distinct, ?_⟩
  intro answer hanswer
  rcases List.mem_append.1 hanswer with hanswer | hanswer
  · exact h.answers answer hanswer
  · obtain rfl := List.mem_singleton.1 hanswer
    have hposition : record.sequence - 1 = state.records.length := by
      rw [happends.sequence]
      rfl
    refine ⟨?_, ?_, hconfirmed.trans (happends.confirms hnext)⟩
    · dsimp only
      rw [hposition]
      obtain ⟨rest, hrest⟩ := hprefix
      change world.log[state.records.length]? = _
      rw [← hrest, happends.content, List.map_append, List.append_assoc, List.map_singleton,
        List.getElem?_append_right (Nat.le_of_eq (List.length_map _)), List.length_map,
        Nat.sub_self]
      rfl
    · dsimp only
      rw [hposition]
      exact hauthor

theorem Sound.crash (h : Sound ctx world) :
    Sound ctx { world with recorders := fun _ => .fresh } where
  file := h.file
  counted := h.counted
  authors := h.authors
  begun := h.begun
  recorders _ := recorderSound_fresh
  distinct _ _ _ _ _ hcall := by cases hcall
  answers := h.answers

/-- A step keeps the world sound. -/
theorem sound_step (h : Sound ctx world) (event : Event) : Sound ctx (world.step ctx event) := by
  cases event with
  | begin i draft =>
    unfold World.step
    dsimp only
    split
    · exact h
    · split
      · exact h.begin rfl draft
      · exact h
  | restore i fails =>
    unfold World.step
    dsimp only
    have hrestore : ∀ call : Option (Nat × Phase), (world.recorders i).call = call →
        (∀ number phase, call = some (number, phase) → ∃ draft, phase = .begun draft) →
        ∀ state, (if fails then .error .store else restored ctx world.file) = .ok state →
          Sound ctx (world.setRecorder i ⟨some state, (world.recorders i).call⟩) := by
      intro call hcall hbegun state hstate
      split at hstate
      · cases hstate
      · exact h.restore hstate rfl (hcall ▸ hbegun)
    split
    · rename_i hcall
      split
      · exact hrestore none hcall (fun _ _ hnone => by cases hnone) _ ‹_›
      · exact h.setFresh i
    · rename_i hcall
      split
      · refine hrestore _ hcall (fun _ _ hsome => ?_) _ ‹_›
        obtain ⟨rfl, rfl⟩ := Prod.mk.inj (Option.some.inj hsome)
        exact ⟨_, rfl⟩
      · exact h.setFresh i
    · exact h
  | check i =>
    unfold World.step
    dsimp only
    split
    · rename_i state call draft hrecorder
      split
      · rename_i record candidate hprepare
        exact h.check hrecorder hprepare
      · have hsound := h.recorders i
        rw [hrecorder] at hsound
        exact h.setRecorder ⟨hsound.cached, fun _ _ hcall => by cases hcall⟩
          fun _ _ hcall => by cases hcall
    · exact h
  | append i fails =>
    unfold World.step
    dsimp only
    split
    · rename_i state call record candidate hrecorder
      split
      · rename_i next hnext
        split at hnext
        · cases hnext
        · exact h.append hrecorder hnext
      · exact h.setFresh i
    · exact h
  | answer i fails =>
    unfold World.step
    dsimp only
    split
    · rename_i state call record candidate next hrecorder
      split
      · exact h.setFresh i
      · split
        · rename_i hconfirmed
          exact h.answer hrecorder (iff_of_true rfl hconfirmed) (Or.inr rfl)
        · rename_i hconfirmed
          exact h.answer hrecorder (iff_of_false Bool.false_ne_true hconfirmed) (Or.inl rfl)
    · exact h
  | crash => exact h.crash

/-- Every world that is reached is sound. -/
theorem sound_run (ctx : ProvenanceContext) (events : List Event) :
    Sound ctx (World.start.run ctx events) := by
  induction events using List.reverseRecOn with
  | nil => exact sound_start
  | append_singleton events event ih =>
    unfold World.run at ih ⊢
    rw [List.foldl_concat]
    exact sound_step ih event

/-! ## Steps that succeed -/

theorem append_of_load {maxDocumentBytes : Nat} {file : Option StoredState}
    {current : StoredState} {revision : Option Nat} {record : Record}
    (hload : FileStore.load maxDocumentBytes maxDocumentBytes file = .ok current)
    (hrevision : current.revision = revision) (hvalid : validRecord record = true)
    (hbytes : (⟨some record.sequence, current.records ++ [record]⟩ : StoredState).bytes ≤
      maxDocumentBytes) :
    FileStore.append maxDocumentBytes file revision record =
      .ok ⟨some record.sequence, current.records ++ [record]⟩ := by
  unfold FileStore.append
  rw [hload, ok_bind, demand_true_bind (decide_eq_true hrevision), hvalid]
  exact demand_true_bind (decide_eq_true hbytes) _ _

theorem Appends.validRecord {candidate : StoredState} {record : Record}
    (h : Appends limits state record candidate) : validRecord record = true := by
  have hvalid := h.accepted.valid
  rw [h.content] at hvalid
  exact (validateRecord_eq_ok.1 (valid_concat.1 hvalid).2).1

theorem World.run_nil : world.run ctx [] = world := rfl

theorem World.run_cons (event : Event) (events : List Event) :
    world.run ctx (event :: events) = (world.step ctx event).run ctx events := rfl

/-- What a world shows of one recorder. -/
structure World.Shows (world : World) (i : Nat) (file : Option StoredState) (recorder : Recorder)
    (calls : Nat) (answers : List Answer) : Prop where
  file : world.file = file
  recorder : world.recorders i = recorder
  calls : world.calls = calls
  answers : world.answers = answers

section Shows

variable {i call : Nat} {file : Option StoredState} {state candidate next : StoredState}
  {cached : Option StoredState} {draft : Draft} {record : Record} {answers : List Answer}

theorem World.Shows.setRecorder {before : Recorder}
    (h : world.Shows i file before calls answers) (after : Recorder) :
    (world.setRecorder i after).Shows i file after calls answers :=
  ⟨h.file, Function.update_self .., h.calls, h.answers⟩

theorem World.Shows.begin (ctx : ProvenanceContext)
    (h : world.Shows i file ⟨cached, none⟩ calls answers) (hdraft : validDraft draft = true) :
    (world.step ctx (.begin i draft)).Shows i file ⟨cached, some (calls, .begun draft)⟩ (calls + 1)
      answers := by
  simp only [World.step, h.recorder, hdraft, if_true]
  have hset := h.setRecorder ⟨cached, some (world.calls, .begun draft)⟩
  rw [h.calls] at hset ⊢
  exact ⟨hset.file, hset.recorder, rfl, hset.answers⟩

theorem World.Shows.restore (h : world.Shows i file ⟨none, some (call, .begun draft)⟩ calls answers)
    (hrestored : restored ctx file = .ok state) : (world.step ctx (.restore i false)).Shows i file
      ⟨some state, some (call, .begun draft)⟩ calls answers := by
  simp only [World.step, h.recorder, h.file, Bool.false_eq_true, if_false, hrestored]
  exact h.setRecorder _

theorem World.Shows.check
    (h : world.Shows i file ⟨some state, some (call, .begun draft)⟩ calls answers)
    (hprepare : prepare ctx.limits state draft = .ok (record, candidate)) :
    (world.step ctx (.check i)).Shows i file
      ⟨some state, some (call, .appending record candidate)⟩ calls answers := by
  simp only [World.step, h.recorder, hprepare]
  exact h.setRecorder _

theorem World.Shows.append
    (h : world.Shows i file ⟨some state, some (call, .appending record candidate)⟩ calls answers)
    (happend : FileStore.append ctx.maxDocumentBytes file state.revision record = .ok next) :
    (world.step ctx (.append i false)).Shows i (some next.reread)
      ⟨some state, some (call, .written record candidate next)⟩ calls answers := by
  simp only [World.step, h.recorder, h.file, Bool.false_eq_true, if_false, happend]
  have hset := h.setRecorder ⟨some state, some (call, .written record candidate next)⟩
  exact ⟨rfl, hset.recorder, hset.calls, hset.answers⟩

theorem World.Shows.confirm (h : world.Shows i file
      ⟨some state, some (call, .written record candidate next)⟩ calls answers)
    (hconfirmed : validateStoredState ctx.limits next = .ok candidate) :
    (world.step ctx (.answer i false)).Shows i file ⟨some candidate, none⟩ calls
      (answers ++ [⟨call, record, state, true⟩]) := by
  simp only [World.step, h.recorder, Bool.false_eq_true, if_false, hconfirmed, if_true]
  have hset := h.setRecorder ⟨some candidate, none⟩
  exact ⟨hset.file, hset.recorder, hset.calls, congrArg (· ++ _) h.answers⟩

theorem World.Shows.refuse (h : world.Shows i file
      ⟨some state, some (call, .written record candidate next)⟩ calls answers)
    (hrefused : validateStoredState ctx.limits next ≠ .ok candidate) :
    (world.step ctx (.answer i false)).Shows i file .fresh calls
      (answers ++ [⟨call, record, state, false⟩]) := by
  simp only [World.step, h.recorder, Bool.false_eq_true, if_false, hrefused]
  have hset := h.setRecorder .fresh
  exact ⟨hset.file, hset.recorder, hset.calls, congrArg (· ++ _) h.answers⟩

end Shows

/-! ## The log -/

/-- The stored log is a valid attempt history, and the answers agree with it. -/
structure KeepsHistory (ctx : ProvenanceContext) (world : World) : Prop where
  /-- Every stored document is accepted, and a fresh recorder restores. -/
  accepted : ∀ document, world.file = some document →
    validateStoredState ctx.limits document = .ok document
  restores : ∃ state, restored ctx world.file = .ok state
  history : AttemptHistory world.log
  /-- A call that resolves has put its record into the log, and nothing else. -/
  recorded : ∀ answer ∈ world.answers, answer.confirmed = true →
    world.log[answer.record.sequence - 1]? = some answer.record.reread ∧
      world.authors[answer.record.sequence - 1]? = some answer.call ∧
      world.authors.count answer.call = 1
  /-- No call fails whose record is stored, and whose append resolved. -/
  confirmed : ∀ answer ∈ world.answers, answer.confirmed = true

theorem Sound.valid_log (h : Sound ctx world) : Valid ctx.limits world.log := by
  unfold World.log
  cases hfile : world.file with
  | none => exact valid_nil
  | some document => exact (h.file document hfile).1.valid

/-- A fresh recorder restores what is stored; with nothing stored it needs room for an empty
document. -/
theorem Sound.restores_iff (h : Sound ctx world) : (∃ state, restored ctx world.file = .ok state) ↔
    world.file.isSome = true ∨ emptyState.bytes ≤ ctx.limits.maxStoreBytes := by
  constructor
  · rintro ⟨state, hstate⟩
    obtain ⟨hstored, haccepted⟩ := restored_eq_ok hstate
    cases hfile : world.file with
    | some document => exact Or.inl rfl
    | none =>
      rw [hfile] at hstored
      subst hstored
      exact Or.inr haccepted.bytes
  · intro hroom
    cases hfile : world.file with
    | some document =>
      obtain ⟨haccepted, -, hbytes⟩ := h.file document hfile
      have hload : FileStore.load ctx.maxDocumentBytes ctx.limits.maxStoreBytes (some document) =
          .ok document :=
        load_accepted haccepted (Nat.le_min.2 ⟨haccepted.bytes, hbytes⟩)
      refine ⟨document, ?_⟩
      unfold restored
      rw [hload, ok_bind]
      exact validateStoredState_eq_ok.2 ⟨rfl, haccepted⟩
    | none =>
      rw [hfile] at hroom
      have hbytes := hroom.resolve_left Bool.false_ne_true
      exact ⟨emptyState, validateStoredState_eq_ok.2 ⟨rfl, accepted_emptyState hbytes⟩⟩

/-- Whatever the recorders do, the log is kept as a valid attempt history exactly as long as no
append resolves whose recorder held a log with a `-0`, and an empty document has room. -/
theorem provenance_history_iff (ctx : ProvenanceContext) (events : List Event) :
    KeepsHistory ctx (World.start.run ctx events) ↔
      ((World.start.run ctx events).file.isSome = true ∨
        emptyState.bytes ≤ ctx.limits.maxStoreBytes) ∧
      ∀ answer ∈ (World.start.run ctx events).answers, ¬ answer.cached.HoldsNegativeZero := by
  have hsound := sound_run ctx events
  generalize World.start.run ctx events = world at hsound ⊢
  constructor
  · intro h
    refine ⟨hsound.restores_iff.1 h.restores, fun answer hanswer => ?_⟩
    exact (hsound.answers answer hanswer).confirmed.1 (h.confirmed answer hanswer)
  · rintro ⟨hroom, hclean⟩
    constructor
    case accepted =>
      intro document hdocument
      exact validateStoredState_eq_ok.2 ⟨rfl, (hsound.file document hdocument).1⟩
    case restores => exact hsound.restores_iff.2 hroom
    case history => exact attemptHistory_of_valid hsound.valid_log
    case recorded =>
      intro answer hanswer _
      obtain ⟨hrecorded, hauthor, -⟩ := hsound.answers answer hanswer
      refine ⟨hrecorded, hauthor, List.count_eq_one_of_mem hsound.authors ?_⟩
      exact List.mem_of_getElem? hauthor
    case confirmed =>
      intro answer hanswer
      exact (hsound.answers answer hanswer).confirmed.2 (hclean answer hanswer)

/-! A recorder records a request whose image has message index `-0`, and then its response. -/

def sampleAlias : String := "pv_0000000000000000000000000000000000000000000000000000000000000000"

def sampleSha256 : String := "0000000000000000000000000000000000000000000000000000000000000000"

def sampleRoute : ModelRoute := ⟨sampleAlias, sampleAlias, sampleAlias⟩

def sampleTimestamp : String := "2026-01-01T00:00:00.000Z"

def zeroRequest : ModelRequest where
  operation := "inference"
  coordinate := ⟨sampleAlias, sampleAlias, sampleAlias, 0⟩
  startedAt := sampleTimestamp
  requestedRoute := sampleRoute
  attempt := ⟨1, sampleRoute⟩
  modelContextFingerprint := sampleSha256
  transcript := ⟨0, none⟩
  lineage := ⟨⟨sampleAlias, sampleAlias, sampleAlias, sampleSha256⟩, none, none⟩
  policyContext := none
  toolSnapshot := none
  sources := []
  tools := []
  images := [⟨.negativeZero, .number "0", "image/png", .number "1", sampleSha256, none⟩]

def sampleResponse : ModelResponse where
  completedAt := sampleTimestamp
  servedModel := sampleAlias
  stopReason := "error"
  outcome := "failed"
  errorKind := "provider"
  cost := .unpriced
  usage := .unreported

def zeroRecord : Record := .request sampleAlias 1 zeroRequest

def sampleAnswer : Record := .response sampleAlias 2 sampleResponse

def zeroLog : StoredState := ⟨some 1, [zeroRecord]⟩

def answeredLog : StoredState := ⟨some 2, [zeroRecord, sampleAnswer]⟩

/-- Limits of two records and of some bytes. -/
def zeroContext (bytes : Nat) : ProvenanceContext := ⟨⟨2, bytes, bytes, by decide⟩, bytes⟩

def zeroEvents : List Event :=
  [.begin 0 (.request sampleAlias zeroRequest), .restore 0 false, .check 0, .append 0 false,
    .answer 0 false, .begin 0 (.response sampleAlias sampleResponse), .check 0, .append 0 false,
    .answer 0 false]

theorem valid_sampleTexts : isGameProvenanceAlias sampleAlias = true ∧
    isSha256 sampleSha256 = true ∧ isCanonicalTimestamp sampleTimestamp = true := by
  decide +kernel

theorem valid_zeroImage : zeroRequest.images.all validImage = true := by
  decide +kernel

theorem valid_zeroRequest : validRequest zeroRequest = true := by
  obtain ⟨halias, hsha, htimestamp⟩ := valid_sampleTexts
  have himages := valid_zeroImage
  have hroute : validRoute sampleRoute = true := by
    simp [validRoute, sampleRoute, halias]
  unfold validRequest
  rw [himages]
  simp [zeroRequest, validLineageReference, hroute, halias, hsha, htimestamp]

theorem valid_sampleResponse : validResponse sampleResponse = true := by
  obtain ⟨halias, -, htimestamp⟩ := valid_sampleTexts
  simp [validResponse, sampleResponse, halias, htimestamp, validCost, validUsage, usageConsistent,
    expectedOutcome]

section Zero

variable {bytes : Nat}

/-- The first record passes, and the second behind it. -/
theorem appends_zeroRecord (hbytes : zeroLog.bytes ≤ bytes) :
    Appends (zeroContext bytes).limits emptyState zeroRecord zeroLog := by
  have hrecord : zeroRecord.bytes ≤ bytes :=
    Nat.le_trans (StoredState.record_bytes_le (List.mem_singleton_self _)) hbytes
  have hvalid : validRecord zeroRecord = true := by
    change (isGameProvenanceAlias sampleAlias && validRequest zeroRequest) = true
    rw [valid_sampleTexts.1, valid_zeroRequest]
    rfl
  have hattempt : isNextAttempt [] zeroRequest = true := by
    unfold isNextAttempt attemptsAt
    rfl
  have hnext : validateRecord (zeroContext bytes).limits [] zeroRecord = .ok () :=
    validateRecord_eq_ok.2 ⟨hvalid, rfl, hrecord, hattempt, List.any_nil⟩
  have hlog : Valid (zeroContext bytes).limits ([] ++ [zeroRecord]) :=
    valid_concat.2 ⟨valid_nil, hnext⟩
  exact ⟨rfl, rfl, ⟨Nat.le_succ 1, hbytes, hlog, rfl⟩⟩

theorem appends_sampleAnswer (hfirst : zeroLog.bytes ≤ bytes) (hbytes : answeredLog.bytes ≤ bytes) :
    Appends (zeroContext bytes).limits zeroLog sampleAnswer answeredLog := by
  have hmem : sampleAnswer ∈ answeredLog.records :=
    List.mem_cons_of_mem _ (List.mem_singleton_self _)
  have hrecord : sampleAnswer.bytes ≤ bytes :=
    Nat.le_trans (StoredState.record_bytes_le hmem) hbytes
  have hvalid : validRecord sampleAnswer = true := by
    change (isGameProvenanceAlias sampleAlias && validResponse sampleResponse) = true
    rw [valid_sampleTexts.1, valid_sampleResponse]
    rfl
  have hopen : isOpenRequest zeroLog.records sampleAlias = true := by
    simp [isOpenRequest, zeroLog, zeroRecord, Record.isRequest, Record.request?, Record.isResponse]
  have hnext : validateRecord (zeroContext bytes).limits zeroLog.records sampleAnswer = .ok () :=
    validateRecord_eq_ok.2 ⟨hvalid, rfl, hrecord, hopen⟩
  have hlog : Valid (zeroContext bytes).limits (zeroLog.records ++ [sampleAnswer]) :=
    valid_concat.2 ⟨(appends_zeroRecord hfirst).accepted.valid, hnext⟩
  exact ⟨rfl, rfl, ⟨Nat.le_refl 2, hbytes, hlog, rfl⟩⟩

theorem zeroLog_holdsNegativeZero : zeroLog.HoldsNegativeZero :=
  ⟨zeroRecord, List.mem_singleton_self _, List.mem_cons_self ..⟩

/-- The file takes both records, the first without its `-0`. -/
theorem append_zeroRecord (hfirst : zeroLog.bytes ≤ bytes) :
    FileStore.append (zeroContext bytes).maxDocumentBytes none emptyState.revision zeroRecord =
      .ok zeroLog := by
  have happends := appends_zeroRecord hfirst
  have hcontent := happends.content
  rw [hcontent] at hfirst ⊢
  have hload : FileStore.load bytes bytes none = .ok emptyState := rfl
  exact append_of_load hload rfl happends.validRecord hfirst

theorem append_sampleAnswer (hfirst : zeroLog.bytes ≤ bytes) (hbytes : answeredLog.bytes ≤ bytes) :
    FileStore.append (zeroContext bytes).maxDocumentBytes (some zeroLog.reread) zeroLog.revision
      sampleAnswer =
      .ok ⟨some 2, zeroLog.reread.records ++ [sampleAnswer]⟩ := by
  have happends := appends_sampleAnswer hfirst hbytes
  have hload : FileStore.load bytes bytes (some zeroLog.reread) = .ok zeroLog.reread := by
    refine load_accepted (appends_zeroRecord hfirst).accepted.reread ?_
    rw [StoredState.bytes_reread, Nat.min_self]
    exact hfirst
  refine append_of_load hload rfl happends.validRecord ?_
  rw [← StoredState.bytes_reread]
  have hreread := happends.reread
  rw [← answeredLog.bytes_reread, ← hreread] at hbytes
  exact hbytes

/-- The run, and what its second append answers. -/
theorem run_zeroEvents (hempty : emptyState.bytes ≤ bytes) (hfirst : zeroLog.bytes ≤ bytes)
    (hbytes : answeredLog.bytes ≤ bytes) : ∃ answer ∈
      (World.start.run (zeroContext bytes) zeroEvents).answers, answer.cached = zeroLog := by
  have happends := appends_zeroRecord hfirst
  have happends' := appends_sampleAnswer hfirst hbytes
  have hstart : Accepted (zeroContext bytes).limits emptyState := accepted_emptyState hempty
  have hrestored : restored (zeroContext bytes) none = .ok emptyState := by
    unfold restored FileStore.load
    rw [ok_bind]
    exact validateStoredState_eq_ok.2 ⟨rfl, hstart⟩
  have hprepare : prepare (zeroContext bytes).limits emptyState
      (.request sampleAlias zeroRequest) = .ok (zeroRecord, zeroLog) :=
    (prepare_eq_ok hstart).2 ⟨rfl, happends⟩
  have hprepare' : prepare (zeroContext bytes).limits zeroLog
      (.response sampleAlias sampleResponse) = .ok (sampleAnswer, answeredLog) :=
    (prepare_eq_ok happends.accepted).2 ⟨rfl, happends'⟩
  have happend := append_zeroRecord hfirst
  have happend' := append_sampleAnswer hfirst hbytes
  have hconfirmed : validateStoredState (zeroContext bytes).limits zeroLog = .ok zeroLog :=
    validateStoredState_eq_ok.2 ⟨rfl, happends.accepted⟩
  have hrefused : validateStoredState (zeroContext bytes).limits
      ⟨some 2, zeroLog.reread.records ++ [sampleAnswer]⟩ ≠ .ok answeredLog :=
    fun hsame => (happends'.confirms rfl).1 hsame zeroLog_holdsNegativeZero
  obtain ⟨hdraft, hdraft'⟩ : validDraft (.request sampleAlias zeroRequest) = true ∧
      validDraft (.response sampleAlias sampleResponse) = true := by
    simp [validDraft, valid_sampleTexts.1, valid_zeroRequest, valid_sampleResponse]
  have hstarted : World.start.Shows 0 none .fresh 0 [] := ⟨rfl, rfl, rfl, rfl⟩
  have hbegun := hstarted.begin (zeroContext bytes) hdraft
  have hwritten := ((hbegun.restore hrestored).check hprepare).append happend
  have hbegun' := (hwritten.confirm hconfirmed).begin (zeroContext bytes) hdraft'
  have hwritten' := (hbegun'.check hprepare').append happend'
  have hended := hwritten'.refuse hrefused
  unfold zeroEvents
  rw [World.run_cons, World.run_cons, World.run_cons, World.run_cons, World.run_cons,
    World.run_cons, World.run_cons, World.run_cons, World.run_cons, World.run_nil, hended.answers]
  exact ⟨_, List.mem_append_right _ (List.mem_singleton_self _), rfl⟩

end Zero

/-- A recorder that holds a `-0` reports failure for a response that is stored. -/
theorem negative_zero_breaks_confirmation : ¬ ∀ (ctx : ProvenanceContext) (events : List Event),
    emptyState.bytes ≤ ctx.limits.maxStoreBytes →
      KeepsHistory ctx (World.start.run ctx events) := by
  intro h
  have hroom : ∀ a b c : Nat, ∃ bytes, a ≤ bytes ∧ b ≤ bytes ∧ c ≤ bytes :=
    fun a b c => ⟨a + (b + c), by omega, by omega, by omega⟩
  obtain ⟨bytes, hempty, hfirst, hbytes⟩ := hroom emptyState.bytes zeroLog.bytes answeredLog.bytes
  obtain ⟨answer, hanswer, hcached⟩ := run_zeroEvents hempty hfirst hbytes
  have hkept := h (zeroContext bytes) zeroEvents hempty
  have hclean := ((provenance_history_iff _ _).1 hkept).2 answer hanswer
  rw [hcached] at hclean
  exact hclean zeroLog_holdsNegativeZero

end Provenance

end OpenGameAgent
