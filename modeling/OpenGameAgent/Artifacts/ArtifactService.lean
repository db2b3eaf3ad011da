import OpenGameAgent.Agent.ToolSnapshot
import OpenGameAgent.Artifacts.ArtifactRecords
import OpenGameAgent.Library.BoundedSearch
import OpenGameAgent.Library.OrderedMap

/-!
# The artifact service

`packages/artifacts/src/artifact-service.ts` over `in-memory-artifact-store.ts`: text becomes an
artifact (`storeText`), and the read Tool (`executeRead`) answers one page of it, whose size a
bisection finds (`fitArtifactPage`).  No signal is aborted here.

* `get_of_mem` — after any run, every record of the store is valid and found under its own key.
-/

namespace OpenGameAgent.Artifacts

/-! ## The store -/

/-- What `recordKey` writes. -/
structure ArtifactKey where
  sessionId : String
  actorId : String
  artifactId : String
deriving DecidableEq

def recordKey (record : ArtifactRecord) : ArtifactKey :=
  ⟨record.sessionId, record.actorId, record.artifactId⟩

structure InMemoryArtifactStore where
  limits : ArtifactLimits
  records : OrderedMap ArtifactKey ArtifactRecord

namespace InMemoryArtifactStore

/-- The records of one stream. -/
def partition (store : InMemoryArtifactStore) (record : ArtifactRecord) : List ArtifactRecord :=
  store.records.values.filter fun candidate =>
    candidate.sessionId = record.sessionId && candidate.actorId = record.actorId

/-- The capacity checks of `put`. -/
def isFull (store : InMemoryArtifactStore) (record : ArtifactRecord) : Bool :=
  let partition := store.partition record
  let storedBytes := (partition.map ArtifactRecord.byteLength).sum
  decide (store.limits.maxArtifactsPerStream ≤ partition.length) ||
    decide ((store.limits.maxStoredBytesPerStream : ℤ) - storedBytes < record.byteLength)

/-- `put`: the record that is stored, and the store. -/
def put (sha256 : List UInt16 → String) (store : InMemoryArtifactStore)
    (recordValue : ArtifactRecord) : Except ArtifactError (ArtifactRecord × InMemoryArtifactStore) := do
  let record ← validateArtifactRecord sha256 recordValue store.limits
  match store.records.get? (recordKey record) with
  | some existing =>
    if sameArtifactBinding existing record then .ok (existing, store) else .error .conflict
  | none =>
    if store.isFull record then .error .capacity
    else .ok (record, { store with records := store.records.set (recordKey record) record })

def read (sha256 : List UInt16 → String) (store : InMemoryArtifactStore) (stream : StreamKey)
    (artifactId : String) : Except ArtifactError (Option ArtifactRecord) := do
  let _ ← validateArtifactIdentifier stream.sessionId store.limits "sessionId"
  let _ ← validateArtifactIdentifier stream.actorId store.limits "actorId"
  let _ ← validateArtifactFingerprint artifactId "artifactId"
  match store.records.get? ⟨stream.sessionId, stream.actorId, artifactId⟩ with
  | none => .ok none
  | some record => do
    let valid ← validateArtifactRecord sha256 record store.limits
    return some valid

/-- The order of `purge`. -/
def purgedBefore (left right : ArtifactKey × ArtifactRecord) : Bool :=
  if left.2.createdAt = right.2.createdAt then decide (left.2.artifactId ≤ right.2.artifactId)
  else decide (left.2.createdAt < right.2.createdAt)

/-- The deletions of `purge`; those before a corrupt record are made. -/
def deleteSelected (sha256 : List UInt16 → String) :
    List (ArtifactKey × ArtifactRecord) → InMemoryArtifactStore → InMemoryArtifactStore
  | [], store => store
  | (key, record) :: rest, store =>
    match validateArtifactRecord sha256 record store.limits with
    | .error _ => store
    | .ok _ => deleteSelected sha256 rest { store with records := store.records.delete key }

/-- `purge`, for a stream, a timestamp and a limit that are accepted. -/
def purge (sha256 : List UInt16 → String) (store : InMemoryArtifactStore) (stream : StreamKey)
    (createdBefore : String) (limit : ℕ) : InMemoryArtifactStore :=
  deleteSelected sha256 (((store.records.entries.filter fun entry =>
    entry.2.sessionId = stream.sessionId && entry.2.actorId = stream.actorId &&
      decide (entry.2.createdAt < createdBefore)).mergeSort purgedBefore).take limit) store

end InMemoryArtifactStore

/-! ## Pages -/

structure ArtifactPage where
  artifactId : String
  contentType : String
  offsetBytes : ℕ
  content : String
  contentBytes : ℕ
  totalBytes : ℕ
  nextOffsetBytes : Option ℕ
deriving DecidableEq

/-- `{ status: "ok", ...page }`. -/
def ArtifactPage.result (page : ArtifactPage) : JsonValue :=
  .record
    [("status", some (.text "ok")), ("artifactId", some (.text page.artifactId)),
      ("contentType", some (.text page.contentType)), ("offsetBytes", some (.int page.offsetBytes)),
      ("content", some (.text page.content)), ("contentBytes", some (.int page.contentBytes)),
      ("totalBytes", some (.int page.totalBytes)),
      ("nextOffsetBytes", page.nextOffsetBytes.map fun next : ℕ => .int next)]

/-- `while (end > offsetBytes && end < bytes.length && isContinuation(bytes[end])) end -= 1`. -/
def backToBoundary (bytes : List UInt8) (offsetBytes : ℕ) : ℕ → ℕ
  | 0 => 0
  | stop + 1 =>
    if offsetBytes < stop + 1 ∧ stop + 1 < bytes.length ∧ bytes[stop + 1]?.any isContinuation then
      backToBoundary bytes offsetBytes stop
    else stop + 1

def pageAtBudget (record : ArtifactRecord) (bytes : List UInt8) (offsetBytes budget : ℕ) :
    ArtifactPage :=
  let stop := backToBoundary bytes offsetBytes (min bytes.length (offsetBytes + budget))
  { artifactId := record.artifactId
    contentType := record.contentType
    offsetBytes
    content := String.ofList (decodeUtf8 ((bytes.take stop).drop offsetBytes))
    contentBytes := stop - offsetBytes
    totalBytes := record.byteLength
    nextOffsetBytes := if stop < bytes.length then some stop else none }

/-- `while (firstEnd < bytes.length && isContinuation(bytes[firstEnd])) firstEnd += 1`. -/
def firstEnd (bytes : List UInt8) (offsetBytes : ℕ) : ℕ :=
  offsetBytes + 1 + ((bytes.drop (offsetBytes + 1)).takeWhile isContinuation).length

/-- Whether the page of a budget can be answered. -/
def fitsBudget (record : ArtifactRecord) (bytes : List UInt8) (offsetBytes maxResultBytes budget : ℕ) :
    Bool :=
  let page := pageAtBudget record bytes offsetBytes budget
  decide (0 < page.contentBytes) && decide (jsonBytes page.result ≤ maxResultBytes)

def fitArtifactPage (record : ArtifactRecord) (offsetBytes requestedBytes maxResultBytes : ℕ) :
    Except ArtifactError ArtifactPage :=
  let bytes := encodeUtf8 record.content.toList
  if bytes.length < offsetBytes ∨
      (offsetBytes < bytes.length ∧ bytes[offsetBytes]?.any isContinuation) then
    .error (.validation "offsetBytes must be a UTF-8 boundary within the artifact.")
  else if offsetBytes = bytes.length then
    .ok
      { artifactId := record.artifactId, contentType := record.contentType, offsetBytes
        content := "", contentBytes := 0, totalBytes := record.byteLength, nextOffsetBytes := none }
  else
    let low := firstEnd bytes offsetBytes - offsetBytes
    let high := min requestedBytes (bytes.length - offsetBytes)
    if high < low then
      .error (.validation "maxBytes cannot represent the next UTF-8 code point.")
    else
      match BoundedSearch.searchLast (fitsBudget record bytes offsetBytes maxResultBytes) low high with
      | some budget => .ok (pageAtBudget record bytes offsetBytes budget)
      | none =>
        .error (.validation "maxModelResultBytes cannot represent one readable artifact code point.")

/-! ## The service -/

structure GameArtifactService where
  limits : ArtifactLimits
  sourceId : String
  readToolName : String
  requiredToolResultBytes : ℕ
deriving DecidableEq

/-- `requiredArtifactReadToolResultBytes`. -/
def requiredArtifactReadToolResultBytes (limits : ArtifactLimits) : Except ArtifactError ℕ :=
  let emptyReadResultBytes := jsonBytes (.record
    [("content", some (.array [.record [("type", some (.text "text")), ("text", some (.text ""))]])),
      ("details", some (.record
        [("artifactId", some (.text (String.ofList (List.replicate 64 '0')))),
          ("artifactStatus", some (.text "read"))]))])
  match ToolSnapshots.requiredTextToolResultBytes limits.maxModelResultBytes emptyReadResultBytes with
  | some bytes => .ok bytes
  | none => .error (.validation "Artifact Tool result admission exceeds the host numeric range.")

def unavailableResult (reason : String) : JsonValue :=
  .record [("status", some (.text "output_unavailable")), ("reason", some (.text reason)),
    ("doNotRetry", some (.bool true))]

def referenceResult (artifactId contentType : String) (byteLength : ℕ) (readToolName : String) :
    JsonValue :=
  .record [("status", some (.text "stored")), ("artifactId", some (.text artifactId)),
    ("contentType", some (.text contentType)), ("totalBytes", some (.int byteLength)),
    ("readTool", some (.text readToolName))]

def assertModelResultFits (limits : ArtifactLimits) (result : JsonValue) : Except ArtifactError Unit :=
  demand (decide (jsonBytes result ≤ limits.maxModelResultBytes))
    (.validation "The model-visible artifact result exceeds its configured byte limit.")

/-- The widest media type the limits allow. -/
def maximumContentType (limits : ArtifactLimits) : String :=
  String.ofList ('a' :: '/' :: List.replicate (limits.maxContentTypeBytes - 2) 'b')

/-- The page that the constructor tries: one character, with the widest numbers. -/
def probePage (limits : ArtifactLimits) : ArtifactPage :=
  { artifactId := String.ofList (List.replicate 64 '0')
    contentType := maximumContentType limits
    offsetBytes := limits.maxArtifactBytes
    content := "🙂"
    contentBytes := 4
    totalBytes := limits.maxArtifactBytes
    nextOffsetBytes := some limits.maxArtifactBytes }

/-- The constructor of `GameArtifactService`. -/
def createArtifactService (limits storeLimits : ArtifactLimits)
    (sourceId readToolName : Option String) : Except ArtifactError GameArtifactService := do
  freezeArtifactLimits limits
  assertArtifactLimitsEqual limits storeLimits
  let requiredToolResultBytes ← requiredArtifactReadToolResultBytes limits
  let sourceId ← validateArtifactIdentifier (sourceId.getD "artifacts") limits "sourceId"
  let readToolName ←
    validateArtifactIdentifier (readToolName.getD "read_game_artifact") limits "readToolName"
  assertModelResultFits limits notFoundResult
  assertModelResultFits limits (unavailableResult "artifact_storage_failed")
  assertModelResultFits limits (referenceResult (String.ofList (List.replicate 64 '0'))
    (maximumContentType limits) limits.maxArtifactBytes readToolName)
  assertModelResultFits limits (probePage limits).result
  return { limits, sourceId, readToolName, requiredToolResultBytes }

/-- `storeText`: the record that is stored, and the store. -/
def storeText (sha256 : List UInt16 → String) (limits : ArtifactLimits)
    (store : InMemoryArtifactStore) (request : ArtifactWriteRequest) (now : String) :
    Except ArtifactError ArtifactRecord × InMemoryArtifactStore :=
  match createArtifactRecord sha256 request now limits with
  | .error error => (.error error, store)
  | .ok record =>
    match store.put sha256 record with
    | .error error => (.error error, store)
    | .ok (result, store) =>
      ((do
        let stored ← validateArtifactRecord sha256 result limits
        demand (sameArtifactBinding record stored)
          (.validation "Artifact store returned a record with different bound content.")
        return stored), store)

/-- The parameters of the read Tool. -/
structure ReadParameters where
  artifactId : String
  offsetBytes : Option ℕ
  maxBytes : Option ℕ

/-- `artifactReadParameters`: what the schema of the read Tool allows. -/
def ReadParameters.allowed (limits : ArtifactLimits) (parameters : ReadParameters) : Bool :=
  isSha256 parameters.artifactId &&
  parameters.offsetBytes.all (fun offset => decide (offset ≤ limits.maxArtifactBytes)) &&
  parameters.maxBytes.all (fun bytes => decide (4 ≤ bytes) && decide (bytes ≤ limits.maxReadBytes))

/-- The result of the read Tool; `page` is what the text of the result says. -/
structure ReadAnswer where
  text : List UInt16
  artifactId : Option String
  page : Option ArtifactPage
deriving DecidableEq

/-- The `execute` of `createReadTool`. -/
def executeRead (sha256 : List UInt16 → String) (limits : ArtifactLimits)
    (store : InMemoryArtifactStore) (stream : StreamKey) (toolCallId : String)
    (parameters : ReadParameters) : Except ArtifactError ReadAnswer := do
  let _ ← validateArtifactIdentifier toolCallId limits "toolCallId"
  let record ←
    match store.read sha256 stream parameters.artifactId with
    | .error _ => .error .read
    | .ok none => .ok none
    | .ok (some record) =>
      match validateArtifactRecord sha256 record limits with
      | .error _ => .error .read
      | .ok valid => .ok (some valid)
  match record.filter fun record =>
      record.sessionId = stream.sessionId && record.actorId = stream.actorId with
  | none => do
    assertModelResultFits limits notFoundResult
    return ⟨canonicalizeJsonValue notFoundResult, none, none⟩
  | some record => do
    let page ← fitArtifactPage record (parameters.offsetBytes.getD 0)
      (parameters.maxBytes.getD limits.maxReadBytes) limits.maxModelResultBytes
    assertModelResultFits limits page.result
    return ⟨canonicalizeJsonValue page.result, some record.artifactId, some page⟩

/-! ## Runs -/

/-- What changes a store. -/
inductive ArtifactOp where
  | storeText (request : ArtifactWriteRequest) (now : String)
  | put (record : ArtifactRecord)
  | purge (stream : StreamKey) (createdBefore : String) (limit : ℕ)

def runArtifactOp (sha256 : List UInt16 → String) (limits : ArtifactLimits)
    (store : InMemoryArtifactStore) : ArtifactOp → InMemoryArtifactStore
  | .storeText request now => (storeText sha256 limits store request now).2
  | .put record =>
    match store.put sha256 record with
    | .ok (_, store) => store
    | .error _ => store
  | .purge stream createdBefore limit => store.purge sha256 stream createdBefore limit

def runArtifactOps (sha256 : List UInt16 → String) (limits : ArtifactLimits)
    (ops : List ArtifactOp) : InMemoryArtifactStore :=
  ops.foldl (runArtifactOp sha256 limits) ⟨limits, .empty⟩

/-- The invariant of a store: its limits, and valid records under their own keys. -/
structure InMemoryArtifactStore.Valid (sha256 : List UInt16 → String) (limits : ArtifactLimits)
    (store : InMemoryArtifactStore) : Prop where
  sameLimits : store.limits = limits
  records : ∀ key record, store.records.get? key = some record →
    key = recordKey record ∧ Stored sha256 limits record

variable {sha256 : List UInt16 → String} {limits : ArtifactLimits} {store : InMemoryArtifactStore}

theorem valid_empty : (⟨limits, .empty⟩ : InMemoryArtifactStore).Valid sha256 limits := by
  refine ⟨rfl, fun key record hrecord => ?_⟩
  rw [OrderedMap.get?_empty] at hrecord
  cases hrecord

theorem valid_put (h : store.Valid sha256 limits) {recordValue record : ArtifactRecord}
    {after : InMemoryArtifactStore} (hput : store.put sha256 recordValue = .ok (record, after)) :
    after.Valid sha256 limits := by
  obtain ⟨valid, hvalid, hput⟩ := bind_eq_ok.mp hput
  rw [h.sameLimits] at hvalid
  split at hput
  · split at hput
    · cases hput
      exact h
    · cases hput
  · split at hput
    · cases hput
    · cases hput
      refine ⟨h.sameLimits, fun key found hfound => ?_⟩
      rw [OrderedMap.get?_set] at hfound
      split at hfound
      · rename_i hkey
        cases hfound
        exact ⟨hkey.symm, validateArtifactRecord_again hvalid⟩
      · exact h.records key found hfound

theorem valid_deleteSelected (selected : List (ArtifactKey × ArtifactRecord))
    (h : store.Valid sha256 limits) :
    (InMemoryArtifactStore.deleteSelected sha256 selected store).Valid sha256 limits := by
  induction selected generalizing store with
  | nil => exact h
  | cons entry rest ih =>
    show InMemoryArtifactStore.Valid sha256 limits
      (match validateArtifactRecord sha256 entry.2 store.limits with
      | .error _ => store
      | .ok _ => InMemoryArtifactStore.deleteSelected sha256 rest
          { store with records := store.records.delete entry.1 })
    split
    · exact h
    · refine ih ⟨h.sameLimits, fun key record hrecord => ?_⟩
      rw [OrderedMap.get?_delete] at hrecord
      split at hrecord
      · cases hrecord
      · exact h.records key record hrecord

theorem valid_storeText (h : store.Valid sha256 limits) (request : ArtifactWriteRequest)
    (now : String) : (storeText sha256 limits store request now).2.Valid sha256 limits := by
  delta storeText
  split
  · exact h
  · split
    · exact h
    · rename_i hput
      exact valid_put h hput

theorem valid_runArtifactOp (h : store.Valid sha256 limits) (op : ArtifactOp) :
    (runArtifactOp sha256 limits store op).Valid sha256 limits := by
  cases op with
  | storeText request now => exact valid_storeText h request now
  | put record =>
    show (match store.put sha256 record with
      | .ok (_, after) => after
      | .error _ => store).Valid sha256 limits
    split
    · rename_i hput
      exact valid_put h hput
    · exact h
  | purge stream createdBefore limit => exact valid_deleteSelected _ h

theorem valid_runArtifactOps (ops : List ArtifactOp) :
    (runArtifactOps sha256 limits ops).Valid sha256 limits := by
  unfold runArtifactOps
  generalize hstore : (⟨limits, .empty⟩ : InMemoryArtifactStore) = store
  have h : store.Valid sha256 limits := hstore ▸ valid_empty
  clear hstore
  induction ops generalizing store with
  | nil => exact h
  | cons op ops ih => exact ih _ (valid_runArtifactOp h op)

/-- A record of a valid store is the one found under its key. -/
theorem get_of_mem (h : store.Valid sha256 limits) {record : ArtifactRecord}
    (hmem : record ∈ store.records.values) :
    store.records.get? (recordKey record) = some record ∧ Stored sha256 limits record := by
  obtain ⟨key, hget⟩ := OrderedMap.mem_values.mp hmem
  obtain ⟨rfl, hstored⟩ := h.records key record hget
  exact ⟨hget, hstored⟩

end OpenGameAgent.Artifacts
