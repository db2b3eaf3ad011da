import Mathlib.Data.List.Induction
import OpenGameAgent.Devtools.ModelContextProvenance

/-!
# A valid attempt history

What a log that `validateStoredState` accepts says, and that the file changes none of it.

* `validateRecords_reread` — a log and what the file makes of it are accepted alike.
* `AttemptHistory` — the requests of a coordinate are attempts 1, 2, … of one request, each
  behind the single responses of those before it.
* `attemptHistory_of_valid` — an accepted log is one.
-/

namespace OpenGameAgent

namespace Provenance

variable {limits : ProvenanceLimits} {log records : List Record} {coordinate : Coordinate}

/-! ## Through the file -/

@[simp] theorem Amount.reread_reread (amount : Amount) : amount.reread.reread = amount.reread := rfl

@[simp] theorem Amount.reread_eq_iff {amount : Amount} :
    amount.reread = amount ↔ amount ≠ .negativeZero := by
  cases amount <;> simp [Amount.reread, Amount.text]

/-- The numbers of a record. -/
def ImageReference.amounts (image : ImageReference) : List Amount :=
  [image.messageIndex, image.contentIndex, image.bytes]

def Cost.amounts : Cost → List Amount
  | .unpriced | .unknown _ => []
  | .free usd | .calculated _ usd => usd.amounts

def Usage.amounts : Usage → List Amount
  | .unreported => []
  | .reported input output cacheRead cacheWrite cacheWrite1h reasoning totalTokens =>
    [input, output, cacheRead, cacheWrite, totalTokens] ++ cacheWrite1h.toList ++ reasoning.toList

def Record.amounts : Record → List Amount
  | .request _ _ body => body.images.flatMap ImageReference.amounts
  | .response _ _ body => body.cost.amounts ++ body.usage.amounts

/-- A log holds a `-0`. -/
def StoredState.HoldsNegativeZero (state : StoredState) : Prop :=
  ∃ record ∈ state.records, Amount.negativeZero ∈ record.amounts

theorem ImageReference.reread_eq_iff {image : ImageReference} :
    image.reread = image ↔ Amount.negativeZero ∉ image.amounts := by
  cases image
  simp [ImageReference.reread, ImageReference.amounts, @eq_comm _ Amount.negativeZero]

theorem UsdCost.reread_eq_iff {usd : UsdCost} :
    usd.reread = usd ↔ Amount.negativeZero ∉ usd.amounts := by
  cases usd
  simp [UsdCost.reread, UsdCost.amounts, @eq_comm _ Amount.negativeZero]

theorem Cost.reread_eq_iff {cost : Cost} :
    cost.reread = cost ↔ Amount.negativeZero ∉ cost.amounts := by
  cases cost <;> simp [Cost.reread, Cost.amounts, UsdCost.reread_eq_iff]

theorem optionalReread_eq_iff {amount : Option Amount} :
    amount.map Amount.reread = amount ↔ Amount.negativeZero ∉ amount.toList := by
  cases amount <;> simp [@eq_comm _ Amount.negativeZero]

theorem Usage.reread_eq_iff {usage : Usage} :
    usage.reread = usage ↔ Amount.negativeZero ∉ usage.amounts := by
  cases usage with
  | unreported => simp [Usage.reread, Usage.amounts]
  | reported input output cacheRead cacheWrite cacheWrite1h reasoning totalTokens =>
    simp only [Usage.reread, Usage.amounts, Usage.reported.injEq, Amount.reread_eq_iff,
      optionalReread_eq_iff, List.mem_append, List.mem_cons, List.not_mem_nil, or_false, not_or]
    grind

theorem mapReread_eq_iff {α : Type} {f : α → α} {l : List α} :
    l.map f = l ↔ ∀ a ∈ l, f a = a := by
  induction l with
  | nil => simp
  | cons a l ih => simp [ih]

/-- The file changes a record exactly where it holds a `-0`. -/
theorem Record.reread_eq_iff {record : Record} :
    record.reread = record ↔ Amount.negativeZero ∉ record.amounts := by
  cases record with
  | request recordId sequence body =>
    cases body
    simp [Record.reread, ModelRequest.reread, Record.amounts, mapReread_eq_iff,
      ImageReference.reread_eq_iff]
  | response requestRecordId sequence body =>
    cases body
    simp [Record.reread, ModelResponse.reread, Record.amounts, Cost.reread_eq_iff,
      Usage.reread_eq_iff]

theorem StoredState.reread_eq_iff {state : StoredState} :
    state.reread = state ↔ ¬ state.HoldsNegativeZero := by
  cases state
  simp [StoredState.reread, StoredState.HoldsNegativeZero, mapReread_eq_iff, Record.reread_eq_iff]

theorem Record.reread_reread (record : Record) : record.reread.reread = record.reread := by
  cases record with
  | request recordId sequence body =>
    simp [Record.reread, ModelRequest.reread, Function.comp_def, ImageReference.reread]
  | response requestRecordId sequence body =>
    obtain ⟨_, _, _, _, _, cost, usage⟩ := body
    cases cost <;> cases usage <;>
      simp [Record.reread, ModelResponse.reread, Cost.reread, Usage.reread, UsdCost.reread,
        Function.comp_def]

@[simp] theorem Record.sequence_reread (record : Record) :
    record.reread.sequence = record.sequence := by
  cases record <;> rfl

theorem UsdCost.toJson_reread (usd : UsdCost) : usd.reread.toJson = usd.toJson := rfl

@[simp] theorem Record.toJson_reread (record : Record) : record.reread.toJson = record.toJson := by
  cases record with
  | request recordId sequence body =>
    have himages : ∀ image : ImageReference, image.reread.toJson = image.toJson := fun _ => rfl
    simp [Record.reread, Record.toJson, ModelRequest.members, ModelRequest.reread, himages,
      Function.comp_def]
  | response requestRecordId sequence body =>
    obtain ⟨_, _, _, _, _, cost, usage⟩ := body
    have hamount : ∀ amount : Amount, amount.reread.toJson = amount.toJson := fun _ => rfl
    cases cost <;> cases usage <;>
      simp [Record.reread, Record.toJson, ModelResponse.members, ModelResponse.reread,
        Cost.reread, Cost.toJson, Usage.reread, Usage.toJson, UsdCost.toJson_reread, hamount,
        Function.comp_def]

@[simp] theorem Record.bytes_reread (record : Record) : record.reread.bytes = record.bytes := by
  simp [Record.bytes]

theorem StoredState.bytes_reread (state : StoredState) : state.reread.bytes = state.bytes := by
  simp [StoredState.bytes, StoredState.toJson, StoredState.reread, Function.comp_def]

theorem validCost_reread (cost : Cost) : validCost cost.reread = validCost cost := by
  cases cost <;> rfl

theorem validUsage_reread (usage : Usage) : validUsage usage.reread = validUsage usage := by
  cases usage with
  | unreported => rfl
  | reported input output cacheRead cacheWrite cacheWrite1h reasoning totalTokens =>
    cases cacheWrite1h <;> cases reasoning <;> rfl

theorem usageConsistent_reread (response : ModelResponse) :
    usageConsistent response.reread = usageConsistent response := by
  obtain ⟨_, _, _, _, _, cost, usage⟩ := response
  cases cost <;> cases usage <;> rfl

@[simp] theorem validRecord_reread (record : Record) :
    validRecord record.reread = validRecord record := by
  cases record with
  | request recordId sequence body =>
    have himages : ∀ image : ImageReference, validImage image.reread = validImage image :=
      fun _ => rfl
    simp [Record.reread, validRecord, validRequest, ModelRequest.reread, himages,
      Function.comp_def]
  | response requestRecordId sequence body =>
    have hcost := validCost_reread body.cost
    have husage := validUsage_reread body.usage
    have hconsistent := usageConsistent_reread body
    simp only [Record.reread, validRecord, validResponse, hconsistent]
    simp only [ModelResponse.reread, hcost, husage]
    rfl

@[simp] theorem Record.isRequest_reread (recordId : String) (record : Record) :
    record.reread.isRequest recordId = record.isRequest recordId := by
  cases record <;> rfl

@[simp] theorem Record.isResponse_reread (recordId : String) (record : Record) :
    record.reread.isResponse recordId = record.isResponse recordId := by
  cases record <;> rfl

@[simp] theorem isRequest_comp_reread (recordId : String) :
    Record.isRequest recordId ∘ Record.reread = Record.isRequest recordId :=
  funext fun record => record.isRequest_reread recordId

@[simp] theorem isResponse_comp_reread (recordId : String) :
    Record.isResponse recordId ∘ Record.reread = Record.isResponse recordId :=
  funext fun record => record.isResponse_reread recordId

theorem attemptsAt_append (coordinate : Coordinate) (records rest : List Record) :
    attemptsAt coordinate (records ++ rest) =
      attemptsAt coordinate records ++ attemptsAt coordinate rest := by
  simp [attemptsAt]

theorem attemptsAt_reread (coordinate : Coordinate) (records : List Record) :
    attemptsAt coordinate (records.map Record.reread) =
      (attemptsAt coordinate records).map fun request => (request.1, request.2.reread) := by
  induction records with
  | nil => rfl
  | cons record records ih =>
    have hsplit : ∀ record rest, attemptsAt coordinate (record :: rest) =
        attemptsAt coordinate [record] ++ attemptsAt coordinate rest :=
      fun record rest => attemptsAt_append coordinate [record] rest
    rw [List.map_cons, hsplit, hsplit record, List.map_append, ih]
    congr 1
    cases record with
    | request recordId sequence body =>
      by_cases h : body.coordinate = coordinate
      · simp [attemptsAt, Record.reread, Record.request?, ModelRequest.reread, h]
      · simp [attemptsAt, Record.reread, Record.request?, ModelRequest.reread, h]
    | response requestRecordId sequence body => rfl

theorem isNextAttempt_reread (records : List Record) (body : ModelRequest) :
    isNextAttempt (records.map Record.reread) body.reread = isNextAttempt records body := by
  have hcoordinate : body.reread.coordinate = body.coordinate := rfl
  unfold isNextAttempt
  rw [hcoordinate, attemptsAt_reread, List.getLast?_map]
  cases (attemptsAt body.coordinate records).getLast? with
  | none => rfl
  | some request =>
    simp only [ModelRequest.reread, Option.map_some, List.any_map, isResponse_comp_reread]
    rfl

theorem validateRecord_reread (records : List Record) (raw : Record) :
    validateRecord limits (records.map Record.reread) raw.reread =
      validateRecord limits records raw := by
  unfold validateRecord
  cases raw with
  | request recordId sequence body =>
    have hnext := isNextAttempt_reread records body
    have hvalid := validRecord_reread (.request recordId sequence body)
    have hbytes := Record.bytes_reread (.request recordId sequence body)
    simp only [Record.reread] at hvalid hbytes ⊢
    simp only [hvalid, hbytes, hnext, Record.sequence, List.length_map, List.any_map,
      isRequest_comp_reread]
    rfl
  | response requestRecordId sequence body =>
    have hvalid := validRecord_reread (.response requestRecordId sequence body)
    have hbytes := Record.bytes_reread (.response requestRecordId sequence body)
    simp only [Record.reread] at hvalid hbytes ⊢
    simp only [hvalid, hbytes, Record.sequence, isOpenRequest, List.length_map, List.any_map,
      isRequest_comp_reread, isResponse_comp_reread]
    rfl

/-- A log and what the file makes of it are accepted alike. -/
theorem validateRecords_reread (rest : List Record) : ∀ records : List Record,
    validateRecords limits (records.map Record.reread) (rest.map Record.reread) =
      validateRecords limits records rest := by
  induction rest with
  | nil =>
    intro records
    rfl
  | cons raw rest ih =>
    intro records
    have hnext := ih (records ++ [raw])
    rw [List.map_append, List.map_singleton] at hnext
    rw [List.map_cons, validateRecords, validateRecords, validateRecord_reread, hnext]

/-! ## What an accepted log says -/

/-- The loop of `validateStoredState` accepts a log. -/
def Valid (limits : ProvenanceLimits) (log : List Record) : Prop :=
  validateRecords limits [] log = .ok ()

theorem validateRecords_cons {raw : Record} {rest : List Record} :
    validateRecords limits records (raw :: rest) = .ok () ↔
      validateRecord limits records raw = .ok () ∧
        validateRecords limits (records ++ [raw]) rest = .ok () := by
  rw [validateRecords, bind_eq_ok]
  exact ⟨fun ⟨_, hfirst, hrest⟩ => ⟨hfirst, hrest⟩, fun ⟨hfirst, hrest⟩ => ⟨_, hfirst, hrest⟩⟩

theorem validateRecords_append (front : List Record) :
    ∀ (records rest : List Record), validateRecords limits records (front ++ rest) = .ok () ↔
      validateRecords limits records front = .ok () ∧
        validateRecords limits (records ++ front) rest = .ok () := by
  induction front with
  | nil =>
    intro records rest
    simp [validateRecords, return_eq_ok]
  | cons raw front ih =>
    intro records rest
    rw [List.cons_append, validateRecords_cons, validateRecords_cons, ih, List.append_assoc,
      and_assoc]
    rfl

/-- A log of one record more. -/
theorem valid_concat {raw : Record} :
    Valid limits (log ++ [raw]) ↔ Valid limits log ∧ validateRecord limits log raw = .ok () := by
  unfold Valid
  rw [validateRecords_append, List.nil_append, validateRecords_cons]
  simp [validateRecords, return_eq_ok]

theorem valid_nil : Valid limits [] := rfl

theorem Valid.of_append {rest : List Record} (h : Valid limits (log ++ rest)) :
    Valid limits log :=
  ((validateRecords_append log [] rest).1 h).1

theorem Valid.record {before rest : List Record} {raw : Record}
    (h : Valid limits (before ++ raw :: rest)) : validateRecord limits before raw = .ok () := by
  rw [List.append_cons] at h
  exact (valid_concat.1 h.of_append).2

theorem invalidUnless_eq_ok {condition : Bool} :
    invalidUnless condition = .ok () ↔ condition = true := demand_eq_ok

/-- What the loop checks of a record. -/
theorem validateRecord_eq_ok {raw : Record} :
    validateRecord limits records raw = .ok () ↔ validRecord raw = true ∧
      raw.sequence = records.length + 1 ∧ raw.bytes ≤ limits.maxRecordBytes ∧
      match raw with
      | .request recordId _ body => isNextAttempt records body = true ∧
          records.any (Record.isRequest recordId) = false
      | .response requestRecordId _ _ => isOpenRequest records requestRecordId = true := by
  unfold validateRecord
  rw [check_eq_ok, check_eq_ok, check_eq_ok, invalidUnless_eq_ok, invalidUnless_eq_ok,
    demand_eq_ok, decide_eq_true_eq, decide_eq_true_eq]
  cases raw with
  | request recordId sequence body =>
    dsimp only
    rw [check_eq_ok, invalidUnless_eq_ok, invalidUnless_eq_ok, Bool.not_eq_true']
  | response requestRecordId sequence body =>
    dsimp only
    rw [invalidUnless_eq_ok]

/-- The sequences of a log count its records. -/
theorem Valid.sequence {before rest : List Record} {raw : Record}
    (h : Valid limits (before ++ raw :: rest)) : raw.sequence = before.length + 1 :=
  (validateRecord_eq_ok.1 h.record).2.1

theorem Valid.revision (h : Valid limits log) :
    (log.getLast?.map Record.sequence).getD 0 = log.length := by
  rcases List.eq_nil_or_concat log with rfl | ⟨before, raw, rfl⟩
  · rfl
  · rw [List.concat_eq_append] at h ⊢
    rw [List.getLast?_concat, Option.map_some, Option.getD_some, h.sequence, List.length_append,
      List.length_singleton]

/-- The requests of a coordinate are attempts 1, 2, … of one request; each of them is behind the
single response of every one before it, and a response is behind its request. -/
structure AttemptHistory (log : List Record) : Prop where
  numbered : ∀ before record rest, log = before ++ record :: rest →
    record.sequence = before.length + 1
  identified : ∀ before recordId sequence body rest,
    log = before ++ .request recordId sequence body :: rest →
      before.any (Record.isRequest recordId) = false
  attempts : ∀ before recordId sequence body rest,
    log = before ++ .request recordId sequence body :: rest →
      body.attempt.index = (attemptsAt body.coordinate before).length + 1 ∧
        ∀ earlier ∈ attemptsAt body.coordinate before,
          body.modelContextFingerprint = earlier.2.modelContextFingerprint ∧
            body.requestedRoute = earlier.2.requestedRoute ∧
            before.countP (Record.isResponse earlier.1) = 1 ∧
            log.countP (Record.isResponse earlier.1) = 1
  responses : ∀ before requestRecordId sequence body rest,
    log = before ++ .response requestRecordId sequence body :: rest →
      before.any (Record.isRequest requestRecordId) = true

/-- No request has two responses. -/
theorem Valid.countP_isResponse (h : Valid limits log) (recordId : String) :
    log.countP (Record.isResponse recordId) ≤ 1 := by
  induction log using List.reverseRecOn with
  | nil => exact Nat.zero_le _
  | append_singleton log raw ih =>
    obtain ⟨hlog, hraw⟩ := valid_concat.1 h
    rw [List.countP_append, List.countP_singleton]
    split
    · rename_i hresponse
      obtain ⟨-, -, -, hopen⟩ := validateRecord_eq_ok.1 hraw
      cases raw with
      | request _ _ _ => cases hresponse
      | response requestRecordId sequence body =>
        simp only [Record.isResponse, decide_eq_true_eq] at hresponse
        subst hresponse
        simp only [isOpenRequest, Bool.and_eq_true, Bool.not_eq_true'] at hopen
        rw [List.any_eq_false] at hopen
        rw [List.countP_eq_zero.2 hopen.2]
    · exact ih hlog

/-- The latest attempt at a coordinate counts them all; those before it are alike and settled. -/
theorem Valid.latest (h : Valid limits log) {recordId : String} {last : ModelRequest}
    (hlast : (attemptsAt coordinate log).getLast? = some (recordId, last)) :
    last.attempt.index = (attemptsAt coordinate log).length ∧
      ∀ earlier ∈ attemptsAt coordinate log,
        last.modelContextFingerprint = earlier.2.modelContextFingerprint ∧
          last.requestedRoute = earlier.2.requestedRoute ∧
          (earlier = (recordId, last) ∨ log.any (Record.isResponse earlier.1) = true) := by
  induction log using List.reverseRecOn generalizing recordId last with
  | nil => cases hlast
  | append_singleton log raw ih =>
    obtain ⟨hlog, hraw⟩ := valid_concat.1 h
    obtain ⟨-, -, -, hnext⟩ := validateRecord_eq_ok.1 hraw
    have hquiet : attemptsAt coordinate [raw] = [] →
        last.attempt.index = (attemptsAt coordinate (log ++ [raw])).length ∧
          ∀ earlier ∈ attemptsAt coordinate (log ++ [raw]),
            last.modelContextFingerprint = earlier.2.modelContextFingerprint ∧
              last.requestedRoute = earlier.2.requestedRoute ∧
              (earlier = (recordId, last) ∨
                (log ++ [raw]).any (Record.isResponse earlier.1) = true) := by
      intro hnone
      rw [attemptsAt_append, hnone, List.append_nil] at hlast ⊢
      obtain ⟨hindex, hall⟩ := ih hlog hlast
      refine ⟨hindex, fun earlier hearlier => ?_⟩
      obtain ⟨hfingerprint, hroute, hsettled⟩ := hall earlier hearlier
      refine ⟨hfingerprint, hroute, hsettled.imp_right fun hany => ?_⟩
      rw [List.any_append, hany, Bool.true_or]
    cases raw with
    | response requestRecordId sequence body => exact hquiet rfl
    | request newId sequence body =>
      by_cases hcoordinate : body.coordinate = coordinate
      · have hnew : attemptsAt coordinate [.request newId sequence body] = [(newId, body)] := by
          simp [attemptsAt, Record.request?, hcoordinate]
        rw [attemptsAt_append, hnew] at hlast ⊢
        rw [List.getLast?_concat, Option.some.injEq, Prod.mk.injEq] at hlast
        obtain ⟨rfl, rfl⟩ := hlast
        obtain ⟨hattempt, -⟩ := hnext
        unfold isNextAttempt at hattempt
        rw [hcoordinate] at hattempt
        rw [List.length_append, List.length_singleton]
        cases hprevious : (attemptsAt coordinate log).getLast? with
        | none =>
          rw [hprevious] at hattempt
          rw [List.getLast?_eq_none_iff.1 hprevious]
          refine ⟨by simpa using hattempt, ?_⟩
          rintro earlier hearlier
          rw [List.nil_append, List.mem_singleton] at hearlier
          subst hearlier
          exact ⟨rfl, rfl, Or.inl rfl⟩
        | some previous =>
          rw [hprevious] at hattempt
          simp only [Bool.and_eq_true, decide_eq_true_eq] at hattempt
          obtain ⟨⟨⟨hindex, hfingerprint⟩, hroute⟩, hsettled⟩ := hattempt
          obtain ⟨hcount, hall⟩ := ih hlog hprevious
          refine ⟨by rw [hindex, hcount], ?_⟩
          intro earlier hearlier
          rcases List.mem_append.1 hearlier with hearlier | hearlier
          · obtain ⟨hsame, hsameRoute, hbefore⟩ := hall earlier hearlier
            refine ⟨hfingerprint.trans hsame, hroute.trans hsameRoute, Or.inr ?_⟩
            rw [List.any_append, Bool.or_eq_true]
            rcases hbefore with rfl | hbefore
            · exact Or.inl hsettled
            · exact Or.inl hbefore
          · rw [List.mem_singleton] at hearlier
            subst hearlier
            exact ⟨rfl, rfl, Or.inl rfl⟩
      · exact hquiet (by simp [attemptsAt, Record.request?, hcoordinate])

theorem countP_pos_of_any {p : Record → Bool} (h : records.any p = true) : 0 < records.countP p := by
  obtain ⟨record, hmem, hrecord⟩ := List.any_eq_true.1 h
  exact List.countP_pos_iff.2 ⟨record, hmem, hrecord⟩

/-- An accepted log is an attempt history. -/
theorem attemptHistory_of_valid (h : Valid limits log) : AttemptHistory log := by
  refine ⟨?_, ?_, ?_, ?_⟩
  · rintro before record rest rfl
    exact h.sequence
  · rintro before recordId sequence body rest rfl
    exact (validateRecord_eq_ok.1 h.record).2.2.2.2
  · rintro before recordId sequence body rest rfl
    have hbefore : Valid limits before := h.of_append
    have hattempt := (validateRecord_eq_ok.1 h.record).2.2.2.1
    unfold isNextAttempt at hattempt
    cases hprevious : (attemptsAt body.coordinate before).getLast? with
    | none =>
      rw [hprevious] at hattempt
      rw [List.getLast?_eq_none_iff.1 hprevious]
      exact ⟨by simpa using hattempt, fun earlier hearlier => by cases hearlier⟩
    | some previous =>
      rw [hprevious] at hattempt
      simp only [Bool.and_eq_true, decide_eq_true_eq] at hattempt
      obtain ⟨⟨⟨hindex, hfingerprint⟩, hroute⟩, hsettled⟩ := hattempt
      obtain ⟨hcount, hall⟩ := hbefore.latest hprevious
      refine ⟨by rw [hindex, hcount], fun earlier hearlier => ?_⟩
      obtain ⟨hsame, hsameRoute, hanswered⟩ := hall earlier hearlier
      have hany : before.any (Record.isResponse earlier.1) = true := by
        rcases hanswered with rfl | hanswered
        · exact hsettled
        · exact hanswered
      have hpos := countP_pos_of_any hany
      have hone := hbefore.countP_isResponse earlier.1
      have hall := h.countP_isResponse earlier.1
      have hmore : before.countP (Record.isResponse earlier.1) ≤
          (before ++ .request recordId sequence body :: rest).countP
            (Record.isResponse earlier.1) := by
        rw [List.countP_append]
        exact Nat.le_add_right _ _
      exact ⟨hfingerprint.trans hsame, hroute.trans hsameRoute, by omega, by omega⟩
  · rintro before requestRecordId sequence body rest rfl
    have hopen := (validateRecord_eq_ok.1 h.record).2.2.2
    simp only [isOpenRequest, Bool.and_eq_true] at hopen
    exact hopen.1

end Provenance

end OpenGameAgent
