import OpenGameAgent.Protocol.Json

/-!
# Bounded response streams

`packages/client/src/bounded-fetch.ts`: `boundSseEvents`, the transform that limits the events of a
response and has its lines validated.  `BoundedReadStream.cs` of the .NET client does the counting
alone.

The stream cuts the response into chunks as it pleases.  What the transform does is its effects in
order, the calls of the validator and the chunks it releases, and the error it throws, if any.  A
validator accepts a line or throws.
-/

namespace OpenGameAgent.Client

abbrev Bytes := List UInt8

/-- A limit that `assertPositiveSafeInteger` lets pass. -/
structure ByteLimit where
  value : ℕ
  positive : 0 < value
  safe : value ≤ maxSafeInteger

/-! ## `boundSseEvents` -/

abbrev SseLineValidator := Bytes → Bool → Bool

inductive SseFailure where
  /-- `createError("sse-event")`. -/
  | capacity
  /-- The validator has thrown. -/
  | rejected
  /-- `output.set` behind the end of the buffer. -/
  | range
deriving DecidableEq

/-- The variables that outlive a chunk. -/
structure SseBounds where
  eventBytes : ℕ
  lineHasContent : Bool
  pendingCarriageReturn : Bool
  pendingLineIsBlank : Bool
  isFirstLine : Bool
  line : Option Bytes

/-- The variables of a chunk: `output.subarray(0, outputBytes)`, and the calls of the validator. -/
structure Pass where
  bounds : SseBounds
  output : Bytes
  calls : List (Bytes × Bool)

/-- An error, and what had been done before. -/
structure Thrown where
  failure : SseFailure
  pass : Pass

variable (maxBytes : ByteLimit) (validateLine : Option SseLineValidator) (maxOutputBytes : ℕ)

def initialBounds : SseBounds :=
  ⟨0, false, false, false, true, validateLine.map fun _ => []⟩

def count (byte : UInt8) (pass : Pass) : Except Thrown Pass :=
  let pass := { pass with
    bounds := { pass.bounds with
      eventBytes := pass.bounds.eventBytes + 1
      line := pass.bounds.line.map fun line => line ++ [byte] } }
  if maxBytes.value < pass.bounds.eventBytes then .error ⟨.capacity, pass⟩ else .ok pass

def admitLine (validate : SseLineValidator) (bytes : Bytes) (pass : Pass) : Except Thrown Pass :=
  if maxOutputBytes < pass.output.length + bytes.length then .error ⟨.range, pass⟩
  else
    let called := { pass with calls := pass.calls ++ [(bytes, pass.bounds.isFirstLine)] }
    if validate bytes pass.bounds.isFirstLine then .ok { called with output := pass.output ++ bytes }
    else .error ⟨.rejected, called⟩

/-- What `finishLine` does behind the line. -/
def SseBounds.nextLine (bounds : SseBounds) (isBlank : Bool) : SseBounds :=
  { bounds with
    isFirstLine := false
    lineHasContent := false
    pendingCarriageReturn := false
    eventBytes := if isBlank then 0 else bounds.eventBytes }

def finishLine (isBlank : Bool) (pass : Pass) : Except Thrown Pass := do
  let pass ←
    match pass.bounds.line with
    | none => .ok pass
    | some line => do
      let pass ←
        match validateLine with
        | none => .ok pass
        | some validate => admitLine maxOutputBytes validate line pass
      .ok { pass with bounds := { pass.bounds with line := some [] } }
  .ok { pass with bounds := pass.bounds.nextLine isBlank }

/-- A byte that is not the line feed behind a carriage return. -/
def observeByte (byte : UInt8) (pass : Pass) : Except Thrown Pass := do
  let pass ← count maxBytes byte pass
  if byte = 13 then
    .ok { pass with bounds := { pass.bounds with
      pendingCarriageReturn := true
      pendingLineIsBlank := !pass.bounds.lineHasContent } }
  else if byte = 10 then
    finishLine validateLine maxOutputBytes (!pass.bounds.lineHasContent) pass
  else .ok { pass with bounds := { pass.bounds with lineHasContent := true } }

/-- The body of `for (const byte of chunk)`. -/
def observe (pass : Pass) (byte : UInt8) : Except Thrown Pass :=
  if pass.bounds.pendingCarriageReturn then
    if byte = 10 then do
      let pass ← count maxBytes byte pass
      finishLine validateLine maxOutputBytes pass.bounds.pendingLineIsBlank pass
    else do
      let pass ← finishLine validateLine maxOutputBytes pass.bounds.pendingLineIsBlank pass
      observeByte maxBytes validateLine maxOutputBytes byte pass
  else observeByte maxBytes validateLine maxOutputBytes byte pass

/-- What the transform does that shows. -/
inductive Effect where
  | validate (line : Bytes) (isFirstLine : Bool)
  | enqueue (bytes : Bytes)
deriving DecidableEq

def releaseOutput (output : Bytes) : List Effect :=
  if output.length > 0 then [.enqueue output] else []

def Pass.called (pass : Pass) : List Effect :=
  pass.calls.map fun call => .validate call.1 call.2

/-- `transform` of one chunk. -/
def transform (bounds : SseBounds) (chunk : Bytes) : List Effect × Except SseFailure SseBounds :=
  let maxOutputBytes := (bounds.line.map List.length).getD 0 + chunk.length
  match chunk.foldlM (observe maxBytes validateLine maxOutputBytes) ⟨bounds, [], []⟩ with
  | .error thrown =>
    (thrown.pass.called ++ releaseOutput thrown.pass.output, .error thrown.failure)
  | .ok pass =>
    match validateLine with
    | none => ([.enqueue chunk], .ok pass.bounds)
    | some _ => (pass.called ++ releaseOutput pass.output, .ok pass.bounds)

/-- `flush`. -/
def flush (bounds : SseBounds) : List Effect :=
  match bounds.line with
  | none => []
  | some line => if line.length = 0 then [] else [.enqueue line]

/-- What a transform has done of a whole response. -/
structure SseRun where
  effects : List Effect
  failure : Option SseFailure

def transformAll : SseBounds → List Bytes → SseRun
  | bounds, [] => ⟨flush bounds, none⟩
  | bounds, chunk :: rest =>
    match transform maxBytes validateLine bounds chunk with
    | (effects, .error failure) => ⟨effects, some failure⟩
    | (effects, .ok bounds) =>
      let run := transformAll bounds rest
      ⟨effects ++ run.effects, run.failure⟩

def boundSseEvents (chunks : List Bytes) : SseRun :=
  transformAll maxBytes validateLine (initialBounds validateLine) chunks

/-! ## `BoundedReadStream` -/

namespace BoundedReadStream

/-- `Int64.MaxValue`. -/
def maxInt64 : ℕ := 9223372036854775807

inductive Failure where
  /-- `RuntimeResponseLimitException`. -/
  | responseLimit
  /-- `OverflowException`. -/
  | overflow

structure State where
  bytesRead : ℕ
  lineHasContent : Bool
  pendingCarriageReturn : Bool
  pendingLineIsBlank : Bool

variable (maxBytes : ℕ) (resetAtSseBoundary : Bool)

def count (state : State) : Except Failure State :=
  if maxInt64 < state.bytesRead + 1 then .error .overflow
  else
    let state := { state with bytesRead := state.bytesRead + 1 }
    if maxBytes < state.bytesRead then .error .responseLimit else .ok state

def finishLine (isBlank : Bool) (state : State) : State :=
  { state with
    pendingCarriageReturn := false
    lineHasContent := false
    bytesRead := if resetAtSseBoundary && isBlank then 0 else state.bytesRead }

def observeByte (current : UInt8) (state : State) : Except Failure State := do
  let state ← count maxBytes state
  if current = 13 then
    .ok { state with
      pendingCarriageReturn := true
      pendingLineIsBlank := !state.lineHasContent }
  else if current = 10 then .ok (finishLine resetAtSseBoundary (!state.lineHasContent) state)
  else .ok { state with lineHasContent := true }

/-- The body of `foreach (byte current in bytes)`. -/
def observe (state : State) (current : UInt8) : Except Failure State :=
  if state.pendingCarriageReturn then
    if current = 10 then do
      let state ← count maxBytes state
      .ok (finishLine resetAtSseBoundary state.pendingLineIsBlank state)
    else
      observeByte maxBytes resetAtSseBoundary current
        (finishLine resetAtSseBoundary state.pendingLineIsBlank state)
  else observeByte maxBytes resetAtSseBoundary current state

/-- The reads of a stream, with the bytes that each of them has got. -/
def readAll (reads : List Bytes) : Except Failure State :=
  reads.foldlM (fun state bytes => bytes.foldlM (observe maxBytes resetAtSseBoundary) state)
    ⟨0, false, false, false⟩

end BoundedReadStream

end OpenGameAgent.Client
