import OpenGameAgent.Protocol.Timestamp
import OpenGameAgent.Protocol.Transcript
import OpenGameAgent.Protocol.Utf8Buffers

/-!
# Artifact records

`packages/artifacts/src/artifact-validation.ts`: the limits, what makes a record valid, and the
record a write request becomes.  The text of an artifact is well-formed, so a string is modelled by
its characters; SHA-256 is a parameter.

* `validateArtifactRecord_again` — what the validation answers is valid, and stays as it is;
* `mediaType_bytes` — a media type takes one byte of JSON for each character.
-/

namespace OpenGameAgent.Artifacts

/-! ## Limits -/

/-- `ArtifactLimits`, for the natural numbers among the numbers. -/
structure ArtifactLimits where
  maxIdentifierBytes : ℕ
  maxCounterDigits : ℕ
  maxContentTypeBytes : ℕ
  maxArtifactBytes : ℕ
  maxArtifactsPerStream : ℕ
  maxStoredBytesPerStream : ℕ
  maxInlineToolResultBytes : ℕ
  maxReadBytes : ℕ
  maxModelResultBytes : ℕ
  maxPurgeBatch : ℕ
deriving DecidableEq

inductive ArtifactError where
  | validation (message : String)
  | conflict
  | capacity
  | corruption
  | read
deriving DecidableEq

def ArtifactLimits.named (limits : ArtifactLimits) : List (String × ℕ) :=
  [("maxIdentifierBytes", limits.maxIdentifierBytes),
    ("maxCounterDigits", limits.maxCounterDigits),
    ("maxContentTypeBytes", limits.maxContentTypeBytes),
    ("maxArtifactBytes", limits.maxArtifactBytes),
    ("maxArtifactsPerStream", limits.maxArtifactsPerStream),
    ("maxStoredBytesPerStream", limits.maxStoredBytesPerStream),
    ("maxInlineToolResultBytes", limits.maxInlineToolResultBytes),
    ("maxReadBytes", limits.maxReadBytes),
    ("maxModelResultBytes", limits.maxModelResultBytes),
    ("maxPurgeBatch", limits.maxPurgeBatch)]

/-- `Number.isSafeInteger(value) && value > 0`. -/
def isPositiveSafe (value : ℕ) : Bool := 0 < value && value ≤ maxSafeInteger

def byteLength (value : String) : ℕ := utf8Length (utf16 value)

def notFoundResult : JsonValue := .record [("status", some (.text "not_found"))]

def freezeArtifactLimits (limits : ArtifactLimits) : Except ArtifactError Unit :=
  match limits.named.find? fun limit => !isPositiveSafe limit.2 with
  | some (name, _) => .error (.validation (name ++ " must be a positive safe integer."))
  | none => do
    demand (decide (4 ≤ limits.maxReadBytes))
      (.validation "maxReadBytes must fit one maximum-width UTF-8 code point.")
    demand (decide (3 ≤ limits.maxContentTypeBytes))
      (.validation "maxContentTypeBytes cannot represent the minimum media type.")
    demand (decide (limits.maxInlineToolResultBytes < limits.maxArtifactBytes))
      (.validation "maxArtifactBytes must exceed maxInlineToolResultBytes.")
    demand (decide (limits.maxArtifactBytes ≤ limits.maxStoredBytesPerStream))
      (.validation "maxStoredBytesPerStream must fit one maximum-size artifact.")
    demand (decide (jsonBytes notFoundResult ≤ limits.maxModelResultBytes))
      (.validation "maxModelResultBytes cannot represent the minimum Tool result.")

def assertArtifactLimitsEqual (left right : ArtifactLimits) : Except ArtifactError Unit :=
  demand (decide (left = right))
    (.validation "Artifact service and store limits must match exactly.")

/-! ## Fields -/

def validateArtifactIdentifier (value : String) (limits : ArtifactLimits) (name : String) :
    Except ArtifactError String := do
  demand (isOpaqueIdentifier value) (.validation (name ++ " must be an identifier."))
  demand (decide (byteLength value ≤ limits.maxIdentifierBytes))
    (.validation (name ++ " exceeds the configured identifier byte limit."))
  return value

def validateArtifactFingerprint (value name : String) : Except ArtifactError String := do
  demand (isSha256 value) (.validation (name ++ " must be a SHA-256 fingerprint."))
  return value

/-- The characters of `contentTypePattern` on either side of the slash. -/
def isTokenChar (c : Char) : Bool := c.isAlphanum || "!#$%&'*+.^_`|~-".toList.contains c

/-- `contentTypePattern`. -/
def isMediaType (value : List Char) : Bool :=
  !(value.takeWhile isTokenChar).isEmpty &&
    match value.dropWhile isTokenChar with
    | [] => false
    | separator :: subtype => separator = '/' && !subtype.isEmpty && subtype.all isTokenChar

/-- `toLowerCase` of a media type, which is ASCII. -/
def lowerMediaType (value : String) : String := String.ofList (value.toList.map Char.toLower)

def validateArtifactContentType (value : String) (limits : ArtifactLimits) :
    Except ArtifactError String := do
  demand (isMediaType value.toList && decide (byteLength value ≤ limits.maxContentTypeBytes))
    (.validation "contentType must be a bounded media type.")
  return lowerMediaType value

/-! ## Records -/

structure ArtifactOrigin where
  inputId : String
  coordinate : RunCoordinate
  toolCallId : String
  toolName : String
  purpose : String
  requestFingerprint : String
deriving DecidableEq

structure ArtifactRecord where
  sessionId : String
  actorId : String
  artifactId : String
  contentFingerprint : String
  contentType : String
  content : String
  byteLength : ℕ
  createdAt : String
  origin : ArtifactOrigin
deriving DecidableEq

/-- What is read of the input of a request. -/
structure ArtifactInput where
  sessionId : String
  actorId : String
  inputId : String

structure ArtifactWriteRequest where
  input : ArtifactInput
  coordinate : RunCoordinate
  toolCallId : String
  toolName : String
  purpose : String
  requestFingerprint : String
  contentType : String
  content : String

/-- `digest`, for the hash of a text. -/
def digest (sha256 : List UInt16 → String) (value : JsonValue) : String :=
  sha256 (canonicalizeJsonValue value)

def ArtifactOrigin.identity (origin : ArtifactOrigin) (sessionId actorId : String) : JsonValue :=
  .record
    [("kind", some (.text "artifact_identity")), ("sessionId", some (.text sessionId)),
      ("actorId", some (.text actorId)), ("inputId", some (.text origin.inputId)),
      ("coordinate", some origin.coordinate.toJson), ("toolCallId", some (.text origin.toolCallId)),
      ("toolName", some (.text origin.toolName)), ("purpose", some (.text origin.purpose)),
      ("requestFingerprint", some (.text origin.requestFingerprint))]

def contentIdentity (contentType content : String) : JsonValue :=
  .record
    [("kind", some (.text "artifact_content")), ("contentType", some (.text contentType)),
      ("content", some (.text content))]

def isArtifactIdentifier (limits : ArtifactLimits) (value : String) : Bool :=
  isOpaqueIdentifier value && decide (byteLength value ≤ limits.maxIdentifierBytes)

/-- The checks of `validateArtifactRecord`. -/
def isArtifactRecord (sha256 : List UInt16 → String) (limits : ArtifactLimits)
    (record : ArtifactRecord) : Bool :=
  [record.sessionId, record.actorId, record.origin.coordinate.sessionId,
    record.origin.coordinate.actorId, record.origin.coordinate.runId, record.origin.inputId,
    record.origin.toolCallId, record.origin.toolName, record.origin.purpose].all
      (isArtifactIdentifier limits) &&
  [record.artifactId, record.contentFingerprint, record.origin.requestFingerprint].all isSha256 &&
  (isMediaType record.contentType.toList &&
    decide (byteLength record.contentType ≤ limits.maxContentTypeBytes)) &&
  (decide (record.content ≠ "") && decide (byteLength record.content ≤ limits.maxArtifactBytes) &&
    decide (record.byteLength = byteLength record.content)) &&
  isCanonicalTimestamp record.createdAt &&
  decide ((toString record.origin.coordinate.turn).length ≤ limits.maxCounterDigits) &&
  (decide (record.origin.coordinate.sessionId = record.sessionId) &&
    decide (record.origin.coordinate.actorId = record.actorId)) &&
  (decide (record.artifactId =
      digest sha256 (record.origin.identity record.sessionId record.actorId)) &&
    decide (record.contentFingerprint =
      digest sha256 (contentIdentity (lowerMediaType record.contentType) record.content)))

def validateArtifactRecord (sha256 : List UInt16 → String) (record : ArtifactRecord)
    (limits : ArtifactLimits) : Except ArtifactError ArtifactRecord := do
  demand (isArtifactRecord sha256 limits record) .corruption
  return { record with contentType := lowerMediaType record.contentType }

def validateArtifactBinding (input : ArtifactInput) (coordinate : RunCoordinate)
    (limits : ArtifactLimits) : Except ArtifactError Unit := do
  demand (decide (assertEventStreamCoordinate ⟨input.sessionId, input.actorId⟩ coordinate = .ok ()))
    (.validation "invalid_stream_coordinate")
  let _ ← validateArtifactIdentifier input.sessionId limits "sessionId"
  let _ ← validateArtifactIdentifier input.actorId limits "actorId"
  let _ ← validateArtifactIdentifier input.inputId limits "inputId"
  let _ ← validateArtifactIdentifier coordinate.runId limits "runId"
  demand (decide ((toString coordinate.turn).length ≤ limits.maxCounterDigits))
    (.validation "turn exceeds the configured digit limit.")

def createArtifactRecord (sha256 : List UInt16 → String) (request : ArtifactWriteRequest)
    (createdAt : String) (limits : ArtifactLimits) : Except ArtifactError ArtifactRecord := do
  validateArtifactBinding request.input request.coordinate limits
  let toolCallId ← validateArtifactIdentifier request.toolCallId limits "toolCallId"
  let toolName ← validateArtifactIdentifier request.toolName limits "toolName"
  let purpose ← validateArtifactIdentifier request.purpose limits "purpose"
  let requestFingerprint ←
    validateArtifactFingerprint request.requestFingerprint "requestFingerprint"
  let contentType ← validateArtifactContentType request.contentType limits
  demand (decide (request.content ≠ ""))
    (.validation "Artifact content must be non-empty UTF-8 text.")
  let contentBytes := byteLength request.content
  demand (decide (contentBytes ≤ limits.maxArtifactBytes))
    (.validation "Artifact content exceeds the configured byte limit.")
  demand (isCanonicalTimestamp createdAt)
    (.validation "createdAt must be a canonical timestamp.")
  let origin : ArtifactOrigin :=
    { inputId := request.input.inputId, coordinate := request.coordinate, toolCallId, toolName,
      purpose, requestFingerprint }
  validateArtifactRecord sha256
    { sessionId := request.input.sessionId
      actorId := request.input.actorId
      artifactId := digest sha256 (origin.identity request.input.sessionId request.input.actorId)
      contentFingerprint := digest sha256 (contentIdentity contentType request.content)
      contentType
      content := request.content
      byteLength := contentBytes
      createdAt
      origin }
    limits

/-- The record without its creation time, as `sameArtifactBinding` writes it. -/
def ArtifactRecord.bound (record : ArtifactRecord) : JsonValue :=
  .record
    [("sessionId", some (.text record.sessionId)), ("actorId", some (.text record.actorId)),
      ("artifactId", some (.text record.artifactId)),
      ("contentFingerprint", some (.text record.contentFingerprint)),
      ("contentType", some (.text record.contentType)), ("content", some (.text record.content)),
      ("byteLength", some (.int record.byteLength)),
      ("origin", some (.record
        [("inputId", some (.text record.origin.inputId)),
          ("coordinate", some record.origin.coordinate.toJson),
          ("toolCallId", some (.text record.origin.toolCallId)),
          ("toolName", some (.text record.origin.toolName)),
          ("purpose", some (.text record.origin.purpose)),
          ("requestFingerprint", some (.text record.origin.requestFingerprint))]))]

def sameArtifactBinding (left right : ArtifactRecord) : Bool :=
  decide (canonicalizeJsonValue left.bound = canonicalizeJsonValue right.bound)

/-! ## Media types -/

theorem isTokenChar_ascii {c : Char} (h : isTokenChar c = true) : c.toNat < 128 := by
  rw [isTokenChar, Bool.or_eq_true] at h
  rcases h with h | h
  · delta Char.isAlphanum Char.isAlpha Char.isUpper Char.isLower at h
    simp only [Char.isDigit, Bool.or_eq_true, Bool.and_eq_true, decide_eq_true_eq,
      UInt32.le_iff_toNat_le] at h
    have hval : c.val.toNat = c.toNat := rfl
    rcases h with (⟨-, h⟩ | ⟨-, h⟩) | ⟨-, h⟩ <;>
      · rw [hval] at h
        exact lt_of_le_of_lt h (by decide)
  · have hall : "!#$%&'*+.^_`|~-".toList.all (fun d => d.toNat < 128) = true := rfl
    exact of_decide_eq_true (List.all_eq_true.mp hall c (List.contains_iff_mem.mp h))

theorem token_table : ∀ n < 128, isTokenChar (Char.ofNat n) = true →
    isTokenChar (Char.ofNat n).toLower = true ∧ jsonCharBytes (Char.ofNat n) = 1 ∧
      (Char.ofNat n).toLower.toLower = (Char.ofNat n).toLower := by
  decide +kernel

/-- A token character stays one in lower case, and takes one byte of JSON. -/
theorem isTokenChar_facts {c : Char} (h : isTokenChar c = true) :
    isTokenChar c.toLower = true ∧ jsonCharBytes c = 1 ∧ c.toLower.toLower = c.toLower := by
  have := token_table c.toNat (isTokenChar_ascii h)
  rw [Char.ofNat_toNat] at this
  exact this h

/-- A media type is two tokens and the slash between them. -/
theorem isMediaType_iff {value : List Char} : isMediaType value = true ↔
    ∃ type subtype, value = type ++ '/' :: subtype ∧ type ≠ [] ∧ subtype ≠ [] ∧
      (∀ c ∈ type, isTokenChar c = true) ∧ ∀ c ∈ subtype, isTokenChar c = true := by
  constructor
  · intro h
    rw [isMediaType, Bool.and_eq_true] at h
    obtain ⟨htype, hrest⟩ := h
    split at hrest
    · cases hrest
    · rename_i separator subtype hdrop
      simp only [Bool.and_eq_true, decide_eq_true_eq, Bool.not_eq_true', List.isEmpty_eq_false_iff,
        List.all_eq_true] at hrest htype
      obtain ⟨⟨rfl, hsubtype⟩, hall⟩ := hrest
      refine ⟨value.takeWhile isTokenChar, subtype, ?_, htype, hsubtype, ?_, hall⟩
      · rw [← hdrop, List.takeWhile_append_dropWhile]
      · exact fun c hc => List.mem_takeWhile_imp hc
  · rintro ⟨type, subtype, rfl, htype, hsubtype, hall, hall'⟩
    have hslash : ¬ isTokenChar '/' = true := by decide
    rw [isMediaType, List.takeWhile_append_of_pos hall, List.dropWhile_append_of_pos hall,
      List.takeWhile_cons_of_neg hslash, List.dropWhile_cons_of_neg hslash, List.append_nil]
    simp [htype, hsubtype]
    exact hall'

/-- What is true of the slash and of every token character is true of every character. -/
theorem forall_mediaType {P : Char → Prop} {value : List Char} (h : isMediaType value = true)
    (hslash : P '/') (htoken : ∀ c, isTokenChar c = true → P c) : ∀ c ∈ value, P c := by
  obtain ⟨type, subtype, rfl, -, -, hall, hall'⟩ := isMediaType_iff.mp h
  intro c hc
  rw [List.mem_append, List.mem_cons] at hc
  rcases hc with hc | rfl | hc
  · exact htoken c (hall c hc)
  · exact hslash
  · exact htoken c (hall' c hc)

theorem isMediaType_lower {value : List Char} (h : isMediaType value = true) :
    isMediaType (value.map Char.toLower) = true := by
  obtain ⟨type, subtype, rfl, htype, hsubtype, hall, hall'⟩ := isMediaType_iff.mp h
  refine isMediaType_iff.mpr ⟨type.map Char.toLower, subtype.map Char.toLower, ?_, by simpa,
    by simpa, ?_, ?_⟩
  · rw [List.map_append, List.map_cons]
    rfl
  · intro c hc
    obtain ⟨d, hd, rfl⟩ := List.mem_map.mp hc
    exact (isTokenChar_facts (hall d hd)).1
  · intro c hc
    obtain ⟨d, hd, rfl⟩ := List.mem_map.mp hc
    exact (isTokenChar_facts (hall' d hd)).1

/-- A media type takes one byte for each character, as UTF-8 and in JSON. -/
theorem mediaType_bytes {value : List Char} (h : isMediaType value = true) :
    utf8Size value = value.length ∧ jsonCharsBytes value = value.length := by
  have hone : ∀ c ∈ value, jsonCharBytes c = 1 :=
    forall_mediaType h (by decide) fun c hc => (isTokenChar_facts hc).2.1
  clear h
  induction value with
  | nil => exact ⟨rfl, rfl⟩
  | cons c value ih =>
    obtain ⟨hsize, hjson⟩ := ih fun d hd => hone d (List.mem_cons_of_mem c hd)
    have hc := hone c List.mem_cons_self
    have hle := utf8Size_le_jsonCharBytes c
    have hpos := Char.utf8Size_pos c
    simp only [utf8Size_cons, jsonCharsBytes_cons, List.length_cons]
    omega

theorem toList_lowerMediaType (value : String) :
    (lowerMediaType value).toList = value.toList.map Char.toLower :=
  String.toList_ofList

theorem byteLength_eq (value : String) : byteLength value = utf8Size value.toList :=
  utf8Length_utf16 value

theorem lowerMediaType_facts {value : String} (h : isMediaType value.toList = true) :
    isMediaType (lowerMediaType value).toList = true ∧
      byteLength (lowerMediaType value) = byteLength value ∧
      lowerMediaType (lowerMediaType value) = lowerMediaType value := by
  have hlower := isMediaType_lower h
  rw [toList_lowerMediaType]
  refine ⟨hlower, ?_, ?_⟩
  · rw [byteLength_eq, byteLength_eq, toList_lowerMediaType, (mediaType_bytes hlower).1,
      (mediaType_bytes h).1, List.length_map]
  · have htwice : (value.toList.map Char.toLower).map Char.toLower =
        value.toList.map Char.toLower := by
      rw [List.map_map]
      exact List.map_congr_left
        (forall_mediaType h (by decide) fun c hc => (isTokenChar_facts hc).2.2)
    unfold lowerMediaType
    rw [String.toList_ofList, htwice]

/-! ## Valid records -/

variable {sha256 : List UInt16 → String} {limits : ArtifactLimits}

/-- A record that the store can hold: valid, and as the validation answers it. -/
def Stored (sha256 : List UInt16 → String) (limits : ArtifactLimits) (record : ArtifactRecord) :
    Prop :=
  validateArtifactRecord sha256 record limits = .ok record

theorem stored_iff {record : ArtifactRecord} : Stored sha256 limits record ↔
    isArtifactRecord sha256 limits record = true ∧
      lowerMediaType record.contentType = record.contentType := by
  unfold Stored validateArtifactRecord
  constructor
  · intro h
    obtain ⟨hvalid, h⟩ := check_eq_ok.mp h
    refine ⟨demand_eq_ok.mp hvalid, ?_⟩
    have hrecord := return_eq_ok.mp h
    exact (congrArg ArtifactRecord.contentType hrecord).symm
  · rintro ⟨hvalid, hlower⟩
    rw [demand, hvalid, hlower]
    rfl

/-- What the validation answers is valid, and stays as it is. -/
theorem validateArtifactRecord_again {record valid : ArtifactRecord}
    (h : validateArtifactRecord sha256 record limits = .ok valid) : Stored sha256 limits valid := by
  obtain ⟨hvalid, h⟩ := check_eq_ok.mp h
  rw [return_eq_ok] at h
  have hvalid := demand_eq_ok.mp hvalid
  subst h
  have hmedia : isMediaType record.contentType.toList = true := by
    simp only [isArtifactRecord, Bool.and_eq_true] at hvalid
    exact hvalid.1.1.1.1.1.2.1
  obtain ⟨hlower, hbytes, htwice⟩ := lowerMediaType_facts hmedia
  refine stored_iff.mpr ⟨?_, htwice⟩
  unfold isArtifactRecord at hvalid ⊢
  rw [hmedia] at hvalid
  rw [hlower, hbytes, htwice]
  exact hvalid

end OpenGameAgent.Artifacts
