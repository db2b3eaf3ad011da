import OpenGameAgent.Protocol.JsonAdmission

/-!
# Tool snapshots

`packages/agent/src/tool-snapshot.ts`: a catalogue of Tools is captured, bounded and fingerprinted
as a whole (`prepareToolSnapshot`) or extended list by list (`extendPreparedToolSnapshot`), and a
policy selects what the model sees (`selectVisibleToolSnapshot`).

The hash and the schema validator are parameters.  A function is a number: the same number is the
same function bound to the same Tool.
-/

namespace OpenGameAgent.ToolSnapshots

/-- A JavaScript string, in code units. -/
abbrev Units := List UInt16

/-! ## Limits -/

/-- `GameToolSnapshotLimits`, for the integers among the numbers. -/
structure GameToolSnapshotLimits where
  maxTools : ℤ
  maxCatalogBytes : ℤ
  maxSchemaDepth : ℤ
  maxRequestSources : ℤ
  maxPolicyRevisionBytes : ℤ
  maxArgumentsBytes : ℤ
  maxArgumentsDepth : ℤ
  maxResultContentParts : ℤ
  maxResultBytes : ℤ
  maxResultDepth : ℤ
  maxResultUpdates : ℤ
deriving DecidableEq

structure GameToolCatalogLimits where
  maxTools : ℤ
  maxCatalogBytes : ℤ
  maxSchemaDepth : ℤ
deriving DecidableEq

def GameToolSnapshotLimits.catalog (limits : GameToolSnapshotLimits) : GameToolCatalogLimits :=
  ⟨limits.maxTools, limits.maxCatalogBytes, limits.maxSchemaDepth⟩

/-- What is not a snapshot that can be used, with the name of the Tool it is about. -/
inductive InvalidToolSnapshot where
  | notAnObject
  | opaqueName
  | duplicate (name : Units)
  | descriptionAndLabel (name : Units)
  | execute (name : Units)
  | executionMode (name : Units)
  | argumentPreparer (name : Units)
  | durableHook (name : Units)
  | durableParallel (name : Units)
  | nonJsonSchema (name : Units)
  | objectSchema (name : Units)
  | invalidSchema (name errors : Units)
  | notPrepared
  | otherLimits
deriving DecidableEq

/-- The messages of `InvalidToolSnapshotError`. -/
def InvalidToolSnapshot.message : InvalidToolSnapshot → Units
  | .notAnObject => utf16 "Every tool must be an object."
  | .opaqueName => utf16 "Every tool must have a non-empty opaque name."
  | .duplicate name => utf16 "Tool names must be unique: " ++ name
  | .descriptionAndLabel name => utf16 "Tool " ++ name ++ utf16 " must have a description and label."
  | .execute name => utf16 "Tool " ++ name ++ utf16 " must have an execute function."
  | .executionMode name => utf16 "Tool " ++ name ++ utf16 " has an invalid execution mode."
  | .argumentPreparer name => utf16 "Tool " ++ name ++ utf16 " has an invalid argument preparer."
  | .durableHook name => utf16 "Tool " ++ name ++ utf16 " has an invalid durable execution hook."
  | .durableParallel name =>
    utf16 "Tool " ++ name ++ utf16 " cannot combine durable execution with parallel mode."
  | .nonJsonSchema name => utf16 "Tool " ++ name ++ utf16 " has a non-JSON parameter schema."
  | .objectSchema name => utf16 "Tool " ++ name ++ utf16 " must have an object parameter schema."
  | .invalidSchema name errors =>
    utf16 "Tool " ++ name ++ utf16 " has an invalid parameter schema: " ++ errors
  | .notPrepared => utf16 "The prior Tool snapshot was not prepared here."
  | .otherLimits =>
    utf16 "A Tool snapshot can only be extended under its original catalog limits."

/-- The codes of `ToolSnapshotLimitError`. -/
inductive ToolSnapshotLimitCode where
  | toolCountExceeded
  | toolCatalogTooLarge
  | toolSchemaTooDeep
  | toolPolicyRevisionTooLarge
deriving DecidableEq, Repr

inductive InvalidToolPolicy where
  | revision
  | namesNotArray
  | tooMany
  | unknownCandidate
deriving DecidableEq, Repr

inductive ToolSnapshotError where
  /-- The `RangeError` of a limit that is not accepted. -/
  | limits
  | invalidSnapshot (reason : InvalidToolSnapshot)
  | limitExceeded (code : ToolSnapshotLimitCode)
  | invalidPolicy (reason : InvalidToolPolicy)
deriving DecidableEq

def isPositiveSafeInteger (value : ℤ) : Bool :=
  decide (0 < value) && decide (value ≤ maxSafeInteger)

/-- `validateToolCatalogLimits`. -/
def validateToolCatalogLimits (limits : GameToolCatalogLimits) : Except ToolSnapshotError Unit :=
  demand ([limits.maxTools, limits.maxCatalogBytes, limits.maxSchemaDepth].all
    isPositiveSafeInteger) .limits

/-- `toolResultEnvelopeBytes`. -/
def toolResultEnvelopeBytes (text : Units) : ℕ :=
  jsonBytes (.record
    [("content", some (.array [.record [("type", some (.text "text")), ("text", some (.string text))]])),
      ("details", some (.record []))])

def failureMessages : List String :=
  ["tool_arguments_invalid", "tool_execution_denied", "tool_execution_failed",
    "tool_policy_changed", "tool_result_invalid", "tool_result_limit_exceeded", "tool_run_inactive"]

def minToolResultDepth : ℤ := 4

def minToolResultBytes : ℕ :=
  (failureMessages.map fun message => toolResultEnvelopeBytes (utf16 message)).foldl max 0

/-- `textToolResultExpansionBytes`: none where it throws a `RangeError`. -/
def textToolResultExpansionBytes (maximumTextBytes : ℕ) : Option ℕ :=
  if maximumTextBytes < 1 ∨ maxSafeInteger < maximumTextBytes then none
  else if maxSafeInteger < maximumTextBytes * 6 then none
  else some (maximumTextBytes * 6)

/-- `requiredTextToolResultBytes`. -/
def requiredTextToolResultBytes (maximumTextBytes emptyTextResultBytes : ℕ) : Option ℕ :=
  if maxSafeInteger < emptyTextResultBytes ∨ emptyTextResultBytes < toolResultEnvelopeBytes [] then
    none
  else
    (textToolResultExpansionBytes maximumTextBytes).bind fun expansion =>
      if maxSafeInteger < expansion + emptyTextResultBytes then none
      else some (expansion + emptyTextResultBytes)

/-- `validateToolSnapshotLimits` with `validateToolResultLimits`; `maxStringLength` is the host's
string allocation limit. -/
def validateToolSnapshotLimits (maxStringLength : ℕ) (limits : GameToolSnapshotLimits) :
    Except ToolSnapshotError Unit := do
  demand ([limits.maxTools, limits.maxCatalogBytes, limits.maxSchemaDepth,
    limits.maxRequestSources, limits.maxPolicyRevisionBytes, limits.maxArgumentsBytes,
    limits.maxArgumentsDepth, limits.maxResultContentParts, limits.maxResultBytes,
    limits.maxResultDepth, limits.maxResultUpdates].all isPositiveSafeInteger) .limits
  demand (decide (minToolResultDepth ≤ limits.maxResultDepth)) .limits
  demand (decide (minToolResultBytes ≤ limits.maxResultBytes)) .limits
  demand (decide (limits.maxResultBytes ≤ maxStringLength)) .limits

/-! ## Tools -/

inductive ExecutionMode where
  | parallel
  | sequential
deriving DecidableEq, Repr

def ExecutionMode.text : ExecutionMode → String
  | .parallel => "parallel"
  | .sequential => "sequential"

/-- An optional member of an object that can hold anything. -/
inductive Member (α : Type) where
  | undefined
  | value (value : α)
  | other

/-- A Tool as its source returns it: a member that is not of its type is `none` or `other`. -/
structure AgentTool where
  name : Option Units
  label : Option Units
  description : Option Units
  parameters : JsSource
  execute : Option ℕ
  executionMode : Member ExecutionMode
  prepareArguments : Member ℕ
  prepareDurableExecution : Member ℕ

structure CapturedTool where
  name : Units
  label : Units
  description : Units
  parameters : JsSource
  executionMode : Option ExecutionMode
  prepareArguments : Option ℕ
  prepareDurableExecution : Option ℕ
  execute : ℕ

structure GameToolDescriptor where
  name : Units
  label : Units
  description : Units
  parameters : JsonValue
  executionMode : ExecutionMode
  fingerprint : Units
deriving DecidableEq

/-- A bound Tool; its public members are those of its descriptor. -/
structure BoundTool where
  descriptor : GameToolDescriptor
  prepareArguments : Option ℕ
  prepareDurableExecution : Option ℕ
  execute : ℕ
deriving DecidableEq

/-- The entry of `catalogMetadata` for a snapshot. -/
structure PreparedCatalogMetadata where
  limits : GameToolCatalogLimits
  bytes : ℕ
deriving DecidableEq

structure PreparedToolSnapshot where
  tools : List BoundTool
  descriptors : List GameToolDescriptor
  /-- None for a snapshot that was not prepared here. -/
  metadata : Option PreparedCatalogMetadata
deriving DecidableEq

/-- What comes from outside: the hash of a text, and what is wrong with a schema. -/
structure ToolHost where
  sha256 : Units → Units
  validateSchema : JsonValue → Option Units

def hasControlCharacter (value : Units) : Bool :=
  value.any fun code => code ≤ 0x1f || (0x7f ≤ code && code ≤ 0x9f)

def invalid {α : Type} (reason : InvalidToolSnapshot) : Except ToolSnapshotError α :=
  .error (.invalidSnapshot reason)

/-- The elements of an array that is not longer than allowed. -/
def captureToolArrayElements {α : Type} (tools : List α) (maximum : ℤ) :
    Except ToolSnapshotError (List α) :=
  if maximum < tools.length then .error (.limitExceeded .toolCountExceeded) else .ok tools

/-- A member that is absent or has its type. -/
def captureMember {α : Type} (reason : InvalidToolSnapshot) :
    Member α → Except ToolSnapshotError (Option α)
  | .undefined => .ok none
  | .value value => .ok (some value)
  | .other => invalid reason

/-- The members that `captureTool` reads behind the name. -/
def captureMembers (tool : AgentTool) (name : Units) : Except ToolSnapshotError CapturedTool :=
  match tool.description, tool.label with
  | some description, some label =>
    match tool.execute with
    | none => invalid (.execute name)
    | some execute => do
      let executionMode ← captureMember (.executionMode name) tool.executionMode
      let prepareArguments ← captureMember (.argumentPreparer name) tool.prepareArguments
      let prepareDurableExecution ← captureMember (.durableHook name) tool.prepareDurableExecution
      if prepareDurableExecution.isSome ∧ executionMode = some .parallel then
        invalid (.durableParallel name)
      else
        .ok { name, label, description, parameters := tool.parameters, executionMode,
              prepareArguments, prepareDurableExecution, execute }
  | _, _ => invalid (.descriptionAndLabel name)

/-- `captureTool`; the caller adds the name to `names`. -/
def captureTool (tool : Option AgentTool) (names : List Units) :
    Except ToolSnapshotError CapturedTool :=
  match tool with
  | none => invalid .notAnObject
  | some tool =>
    match tool.name with
    | none => invalid .opaqueName
    | some name =>
      if name = [] ∨ hasControlCharacter name then invalid .opaqueName
      else if name ∈ names then invalid (.duplicate name)
      else captureMembers tool name

/-- `normalizeProviderJson`, and the error for a schema that is not JSON. -/
def normalizeProviderJson (name : Units) (parameters : JsSource) (limits : GameToolCatalogLimits) :
    Except ToolSnapshotError JsonValue :=
  match normalizeJsonValueWithin parameters limits.maxSchemaDepth limits.maxCatalogBytes with
  | some (.ok value) => .ok value
  | some (.error .jsonTooDeep) => .error (.limitExceeded .toolSchemaTooDeep)
  | some (.error .jsonTooLarge) => .error (.limitExceeded .toolCatalogTooLarge)
  | _ => invalid (.nonJsonSchema name)

/-- `validateNormalizedSchema`. -/
def validateNormalizedSchema (host : ToolHost) (name : Units) (schema : JsonValue) :
    Except ToolSnapshotError Unit :=
  match schema with
  | .object fields =>
    if (fields.find? fun field => field.1 = utf16 "type").map Prod.snd ≠ some (.text "object") then
      invalid (.objectSchema name)
    else
      match host.validateSchema schema with
      | none => .ok ()
      | some errors => invalid (.invalidSchema name errors)
  | _ => invalid (.objectSchema name)

/-- The descriptor without its fingerprint, as the model sees it. -/
def modelDescriptor (name label description : Units) (parameters : JsonValue)
    (executionMode : ExecutionMode) : JsonValue :=
  .record
    [("name", some (.string name)), ("label", some (.string label)),
      ("description", some (.string description)), ("parameters", some parameters),
      ("executionMode", some (.text executionMode.text))]

def GameToolDescriptor.modelDescriptor (descriptor : GameToolDescriptor) : JsonValue :=
  ToolSnapshots.modelDescriptor descriptor.name descriptor.label descriptor.description
    descriptor.parameters descriptor.executionMode

/-! ## Preparing -/

/-- The variables of the loop over the candidates. -/
structure Catalog where
  names : List Units
  tools : List BoundTool
  descriptors : List GameToolDescriptor
  catalogBytes : ℕ

/-- The loop body of `prepareToolCatalogSnapshot`. -/
def prepareCandidate (host : ToolHost) (limits : GameToolCatalogLimits) (catalog : Catalog)
    (tool : Option AgentTool) : Except ToolSnapshotError Catalog := do
  let captured ← captureTool tool catalog.names
  let parameters ← normalizeProviderJson captured.name captured.parameters limits
  let executionMode := captured.executionMode.getD .sequential
  let canonicalDescriptor := canonicalizeJsonValue
    (modelDescriptor captured.name captured.label captured.description parameters executionMode)
  let nextCatalogBytes := catalog.catalogBytes + (if catalog.descriptors.length = 0 then 0 else 1) +
    utf8Length canonicalDescriptor
  demand (decide (nextCatalogBytes ≤ limits.maxCatalogBytes)) (.limitExceeded .toolCatalogTooLarge)
  validateNormalizedSchema host captured.name parameters
  let descriptor : GameToolDescriptor :=
    { name := captured.name, label := captured.label, description := captured.description,
      parameters, executionMode, fingerprint := host.sha256 canonicalDescriptor }
  .ok
    { names := catalog.names ++ [captured.name]
      tools := catalog.tools ++ [⟨descriptor, captured.prepareArguments,
        captured.prepareDurableExecution, captured.execute⟩]
      descriptors := catalog.descriptors ++ [descriptor]
      catalogBytes := nextCatalogBytes }

def prepareToolCatalogSnapshot (host : ToolHost) (tools : List (Option AgentTool))
    (limits : GameToolCatalogLimits) : Except ToolSnapshotError PreparedToolSnapshot := do
  validateToolCatalogLimits limits
  let candidates ← captureToolArrayElements tools limits.maxTools
  demand (decide (2 ≤ limits.maxCatalogBytes)) (.limitExceeded .toolCatalogTooLarge)
  let catalog ← runM (prepareCandidate host limits) ⟨[], [], [], 2⟩ candidates
  .ok ⟨catalog.tools, catalog.descriptors, some ⟨limits, catalog.catalogBytes⟩⟩

def prepareToolSnapshot (host : ToolHost) (maxStringLength : ℕ) (tools : List (Option AgentTool))
    (limits : GameToolSnapshotLimits) : Except ToolSnapshotError PreparedToolSnapshot := do
  validateToolSnapshotLimits maxStringLength limits
  prepareToolCatalogSnapshot host tools limits.catalog

/-- The names of the additional Tools, each checked against those before it. -/
def addName (names : List Units) (descriptor : GameToolDescriptor) :
    Except ToolSnapshotError (List Units) :=
  if descriptor.name ∈ names then invalid (.duplicate descriptor.name)
  else .ok (names ++ [descriptor.name])

def extendPreparedToolSnapshot (host : ToolHost) (maxStringLength : ℕ)
    (previous : PreparedToolSnapshot) (additionalTools : List (Option AgentTool))
    (limits : GameToolSnapshotLimits) : Except ToolSnapshotError PreparedToolSnapshot := do
  validateToolSnapshotLimits maxStringLength limits
  match previous.metadata with
  | none => invalid .notPrepared
  | some previousMetadata =>
    if previousMetadata.limits ≠ limits.catalog then invalid .otherLimits
    else do
      let additionalCandidates ←
        captureToolArrayElements additionalTools (limits.maxTools - previous.tools.length)
      if additionalCandidates.length = 0 then .ok previous
      else do
        let additional ← prepareToolCatalogSnapshot host additionalCandidates limits.catalog
        let _ ← runM addName (previous.descriptors.map (·.name)) additional.descriptors
        match additional.metadata with
        | none => invalid .notPrepared
        | some additionalMetadata => do
          let catalogBytes := previousMetadata.bytes + additionalMetadata.bytes - 2 +
            (if previous.tools.length = 0 then 0 else 1)
          demand (decide (catalogBytes ≤ limits.maxCatalogBytes))
            (.limitExceeded .toolCatalogTooLarge)
          .ok
            { tools := previous.tools ++ additional.tools
              descriptors := previous.descriptors ++ additional.descriptors
              metadata := some ⟨limits.catalog, catalogBytes⟩ }

/-! ## Selecting -/

/-- What the policy returns: a member that is not of its type is `none`. -/
structure GameToolPolicyDecision where
  revision : Option Units
  visibleToolNames : Option (List (Option Units))

structure VisibleToolSnapshot where
  tools : List BoundTool
  descriptors : List GameToolDescriptor
  policyRevision : Units
  revision : Units
  visibleToolNames : List Units
deriving DecidableEq

/-- The names the policy selected, each of them a candidate. -/
def requestName (candidates : List Units) (requested : List Units) (name : Option Units) :
    Except ToolSnapshotError (List Units) :=
  match name with
  | none => .error (.invalidPolicy .unknownCandidate)
  | some name =>
    if name ∈ candidates then .ok (if name ∈ requested then requested else requested ++ [name])
    else .error (.invalidPolicy .unknownCandidate)

/-- The indexes of the descriptors whose names were requested. -/
def visibleIndexes (descriptors : List GameToolDescriptor) (requested : List Units) : List ℕ :=
  (List.range descriptors.length).filter fun index =>
    (descriptors[index]?).any fun descriptor => descriptor.name ∈ requested

def selectVisibleToolSnapshot (host : ToolHost) (snapshot : PreparedToolSnapshot)
    (decision : GameToolPolicyDecision) (maxPolicyRevisionBytes : ℤ) :
    Except ToolSnapshotError VisibleToolSnapshot :=
  if !isPositiveSafeInteger maxPolicyRevisionBytes then .error .limits
  else
    match decision.revision with
    | none => .error (.invalidPolicy .revision)
    | some revision =>
      if revision = [] ∨ hasControlCharacter revision then .error (.invalidPolicy .revision)
      else if maxPolicyRevisionBytes < utf8Length revision then
        .error (.limitExceeded .toolPolicyRevisionTooLarge)
      else
        match decision.visibleToolNames with
        | none => .error (.invalidPolicy .namesNotArray)
        | some names =>
          match snapshot.metadata with
          | none => invalid .notPrepared
          | some metadata =>
            if metadata.limits.maxTools < names.length then .error (.invalidPolicy .tooMany)
            else do
              let requested ← runM (requestName (snapshot.descriptors.map (·.name))) [] names
              let indexes := visibleIndexes snapshot.descriptors requested
              let descriptors := indexes.filterMap fun index => snapshot.descriptors[index]?
              .ok
                { tools := indexes.filterMap fun index => snapshot.tools[index]?
                  descriptors
                  policyRevision := revision
                  revision := host.sha256 (canonicalizeJsonValue (.record
                    [("policyRevision", some (.string revision)),
                      ("toolFingerprints", some (.array
                        (descriptors.map fun descriptor => .string descriptor.fingerprint)))]))
                  visibleToolNames := descriptors.map (·.name) }

end OpenGameAgent.ToolSnapshots
