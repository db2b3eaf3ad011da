import Mathlib.Logic.Function.Basic
import OpenGameAgent.Library.Run
import OpenGameAgent.Protocol.Json

/-!
# A connection to an MCP server

`GameMcpServerConnection` of `packages/integrations/src/mcp-client.ts`.  What stands between two
`await`s is one step; the transport, the client and the callers take theirs at any time.  A state is
its generation, an `open` and a `loadCatalog` are their number.

Three fields are for the reader of a run: `installed` are the generations that have been installed,
`moments` what was installed before each step, and `sent` what was installed as each call went out.
-/

namespace OpenGameAgent.McpConnection

/-! ## Failures -/

inductive GameMcpErrorCode where
  | serverUnavailable
  | serverTimeout
  | authenticationRequired
  | permissionDenied
  | serverCapabilityMissing
  | catalogIncomplete
  | catalogChanged
  | catalogLimitExceeded
  | invalidToolSchema
  | toolUnavailable
  | toolCallLimitExceeded
deriving DecidableEq

/-- A `GameMcpError`, or the reason of the caller's signal. -/
inductive Failure where
  | mcp (code : GameMcpErrorCode)
  | aborted
deriving DecidableEq

/-- What the client or a transport may throw. -/
inductive SdkFailure where
  | game (code : GameMcpErrorCode)
  | unauthorized
  | http (status : ℕ)
  | requestTimeout
  | connectionClosed
  | other
deriving DecidableEq

def classifyMcpSdkFailure (error : SdkFailure) (fallback : GameMcpErrorCode) : GameMcpErrorCode :=
  match error with
  | .game code => code
  | .unauthorized => .authenticationRequired
  | .http status =>
    if status = 401 then .authenticationRequired
    else if status = 403 then .permissionDenied
    else fallback
  | .requestTimeout => .serverTimeout
  | .connectionClosed => .serverUnavailable
  | .other => fallback

/-! ## The data -/

structure GameMcpLimits where
  maxListPages : ℕ
  maxCursorBytes : ℕ
  maxToolsPerServer : ℕ
  maxConcurrentCallsPerServer : ℕ

variable {Remote Tool Content : Type}

/-- How a tool that a server lists is read: `normalizeTool` but for the state and the epoch. -/
structure ToolReader (Remote Tool Content : Type) where
  name : Remote → List UInt16
  normalizeTool : Remote → Except GameMcpErrorCode Tool
  outputValidator : Tool → Option (Content → Bool)

structure LoadedGameMcpTool (Tool : Type) where
  name : List UInt16
  tool : Tool
  connectionState : ℕ
  catalogEpoch : ℕ

/-- A catalogue, with the cursors it was listed under and the moments before its listing began and
before it was returned. -/
structure LoadedGameMcpServerCatalog (Tool : Type) where
  connectionGeneration : ℕ
  catalogEpoch : ℕ
  tools : List (LoadedGameMcpTool Tool)
  cursors : List (List UInt16)
  began : ℕ
  ended : ℕ

structure ListToolsResult (Remote : Type) where
  tools : List Remote
  nextCursor : Option (List UInt16)

structure CallToolResult (Content : Type) where
  structuredContent : Option Content
  isError : Bool

/-- A `ConnectedGameMcpState`, and whether the `onclose` of its client has been called. -/
structure ConnectedGameMcpState where
  catalogEpoch : ℕ
  activeCalls : ℤ
  closed : Bool
deriving DecidableEq

/-- Where an `open` is. -/
inductive Opening where
  | transport
  | handshake (generation : ℕ)
  | connected (generation : ℕ)
  | discarding (generation : ℕ) (error : Option SdkFailure)
  | settled (result : Except Failure ℕ)

/-- What `loadCatalog` keeps between two pages. -/
structure Listing (Tool : Type) where
  state : ℕ
  epoch : ℕ
  tools : List (LoadedGameMcpTool Tool)
  cursors : List (List UInt16)
  page : ℕ
  began : ℕ

/-- Where a `loadCatalog` is. -/
inductive Loading (Tool : Type) where
  | waiting (operation : ℕ)
  | ensured (state : ℕ)
  | listing (listing : Listing Tool)
  | finished (result : Except Failure (LoadedGameMcpServerCatalog Tool))

structure Load (Tool : Type) where
  aborted : Bool
  loading : Loading Tool

structure Call (Tool : Type) where
  tool : LoadedGameMcpTool Tool
  aborted : Bool

/-- What is installed. -/
structure Moment where
  state : Option ℕ
  epochs : ℕ → ℕ

structure GameMcpServerConnection (Tool Content : Type) where
  state : Option ℕ
  connecting : Option ℕ
  nextGeneration : ℕ
  disposed : Bool
  states : ℕ → ConnectedGameMcpState
  opens : List Opening
  loads : List (Load Tool)
  calls : List (Call Tool)
  answers : List (Except Failure (CallToolResult Content))
  installed : List ℕ
  moments : List Moment
  sent : List (LoadedGameMcpTool Tool × Moment)

def GameMcpServerConnection.new : GameMcpServerConnection Tool Content :=
  ⟨none, none, 0, false, fun _ => ⟨0, 0, false⟩, [], [], [], [], [], [], []⟩

namespace GameMcpServerConnection

variable (connection : GameMcpServerConnection Tool Content)

def moment : Moment := ⟨connection.state, fun generation => (connection.states generation).catalogEpoch⟩

def setOpening (operation : ℕ) (opening : Opening) : GameMcpServerConnection Tool Content :=
  { connection with opens := connection.opens.set operation opening }

def setLoading (number : ℕ) (load : Load Tool) (loading : Loading Tool) :
    GameMcpServerConnection Tool Content :=
  { connection with loads := connection.loads.set number { load with loading } }

def setState (generation : ℕ) (state : ConnectedGameMcpState) :
    GameMcpServerConnection Tool Content :=
  { connection with states := Function.update connection.states generation state }

/-! ## `open` -/

/-- The reason of the lifetime's signal, or what was thrown. -/
def openFailure (error : SdkFailure) : Failure :=
  if connection.disposed then .mcp .serverUnavailable
  else .mcp (classifyMcpSdkFailure error .serverUnavailable)

/-- Behind `createTransport`: what it gave may be no transport. -/
def transportReady (operation : ℕ) (result : Except SdkFailure Bool) :
    GameMcpServerConnection Tool Content :=
  match result with
  | .error error => connection.setOpening operation (.settled (.error (connection.openFailure error)))
  | .ok false => connection.setOpening operation (.settled (.error (.mcp .serverUnavailable)))
  | .ok true =>
    let generation := connection.nextGeneration + 1
    { (connection.setState generation ⟨0, 0, false⟩).setOpening operation (.handshake generation) with
      nextGeneration := generation }

/-- Behind `client.connect`. -/
def resumeOpen (operation generation : ℕ) : GameMcpServerConnection Tool Content :=
  if connection.disposed then connection.setOpening operation (.discarding generation none)
  else
    { connection.setOpening operation (.settled (.ok generation)) with
      state := some generation
      installed := connection.installed ++ [generation] }

/-- Behind `client.close` of a client that is not wanted. -/
def discarded (operation : ℕ) (error : Option SdkFailure) : GameMcpServerConnection Tool Content :=
  let failure :=
    match error with
    | some error => connection.openFailure error
    | none => .mcp .serverUnavailable
  connection.setOpening operation (.settled (.error failure))

/-! ## `loadCatalog` -/

/-- `ensureConnected`, to its first `await`. -/
def loadCatalog (aborted : Bool) : GameMcpServerConnection Tool Content :=
  if connection.disposed then
    { connection with
      loads := connection.loads ++ [⟨aborted, .finished (.error (.mcp .serverUnavailable))⟩] }
  else if aborted then
    { connection with loads := connection.loads ++ [⟨aborted, .finished (.error .aborted)⟩] }
  else
    match connection.state, connection.connecting with
    | some generation, _ =>
      { connection with loads := connection.loads ++ [⟨aborted, .ensured generation⟩] }
    | none, some operation =>
      { connection with loads := connection.loads ++ [⟨aborted, .waiting operation⟩] }
    | none, none =>
      { connection with
        connecting := some connection.opens.length
        opens := connection.opens ++ [.transport]
        loads := connection.loads ++ [⟨aborted, .waiting connection.opens.length⟩] }

/-- The shared operation has settled. -/
def shared (result : Except Failure ℕ) : Loading Tool :=
  match result with
  | .ok generation => .ensured generation
  | .error failure => .finished (.error failure)

/-- The last check of `loadCatalog`. -/
def finishListing (listing : Listing Tool) : Loading Tool :=
  if connection.state ≠ some listing.state ∨
      (connection.states listing.state).catalogEpoch ≠ listing.epoch then
    .finished (.error (.mcp .catalogChanged))
  else
    .finished (.ok ⟨listing.state, listing.epoch, listing.tools, listing.cursors, listing.began,
      connection.moments.length⟩)

/-- The head of the loop over the pages: the next page is asked for. -/
def askPage (limits : GameMcpLimits) (aborted : Bool) (listing : Listing Tool) : Loading Tool :=
  if listing.page < limits.maxListPages then
    if aborted then .finished (.error .aborted) else .listing listing
  else connection.finishListing listing

/-- Behind `ensureConnected`. -/
def beginListing (limits : GameMcpLimits) (aborted hasTools : Bool) (state : ℕ) : Loading Tool :=
  if !hasTools then .finished (.error (.mcp .serverCapabilityMissing))
  else
    connection.askPage limits aborted
      ⟨state, (connection.states state).catalogEpoch, [], [], 0, connection.moments.length⟩

end GameMcpServerConnection

/-- The body of the loop over the tools of a page. -/
def listTool (limits : GameMcpLimits) (reader : ToolReader Remote Tool Content) (state epoch : ℕ)
    (tools : List (LoadedGameMcpTool Tool)) (remote : Remote) :
    Except GameMcpErrorCode (List (LoadedGameMcpTool Tool)) :=
  if limits.maxToolsPerServer ≤ tools.length then .error .catalogLimitExceeded
  else if (tools.map (·.name)).contains (reader.name remote) then .error .catalogIncomplete
  else do
    let tool ← reader.normalizeTool remote
    .ok (tools ++ [⟨reader.name remote, tool, state, epoch⟩])

namespace GameMcpServerConnection

variable (connection : GameMcpServerConnection Tool Content)

/-- Behind the tools of a page. -/
def nextPage (limits : GameMcpLimits) (aborted : Bool) (listing : Listing Tool) :
    Option (List UInt16) → Loading Tool
  | none => connection.finishListing listing
  | some cursor =>
    if limits.maxCursorBytes < utf8Length cursor then
      .finished (.error (.mcp .catalogLimitExceeded))
    else if listing.cursors.contains cursor then .finished (.error (.mcp .catalogIncomplete))
    else if listing.page + 1 = limits.maxListPages then
      .finished (.error (.mcp .catalogLimitExceeded))
    else
      connection.askPage limits aborted
        { listing with cursors := listing.cursors ++ [cursor], page := listing.page + 1 }

/-- Behind `client.listTools`. -/
def pageListed (limits : GameMcpLimits) (reader : ToolReader Remote Tool Content) (aborted : Bool)
    (listing : Listing Tool) (result : Except SdkFailure (ListToolsResult Remote)) : Loading Tool :=
  match result with
  | .error error =>
    if aborted then .finished (.error .aborted)
    else .finished (.error (.mcp (classifyMcpSdkFailure error .catalogIncomplete)))
  | .ok page =>
    if connection.state ≠ some listing.state ∨
        (connection.states listing.state).catalogEpoch ≠ listing.epoch then
      .finished (.error (.mcp .catalogChanged))
    else
      match page.tools.foldlM (listTool limits reader listing.state listing.epoch) listing.tools with
      | .error code => .finished (.error (.mcp code))
      | .ok tools => connection.nextPage limits aborted { listing with tools } page.nextCursor

/-! ## `call` -/

/-- `call`, to its `await`. -/
def call (limits : GameMcpLimits) (tool : LoadedGameMcpTool Tool) (aborted : Bool) :
    GameMcpServerConnection Tool Content :=
  let state := connection.states tool.connectionState
  if connection.state ≠ some tool.connectionState ∨ state.catalogEpoch ≠ tool.catalogEpoch then
    { connection with answers := connection.answers ++ [.error (.mcp .catalogChanged)] }
  else if limits.maxConcurrentCallsPerServer ≤ state.activeCalls then
    { connection with answers := connection.answers ++ [.error (.mcp .toolCallLimitExceeded)] }
  else
    { connection.setState tool.connectionState { state with activeCalls := state.activeCalls + 1 } with
      calls := connection.calls ++ [⟨tool, aborted⟩]
      sent := connection.sent ++ [(tool, connection.moment)] }

/-- What a call ends with. -/
def callResult (reader : ToolReader Remote Tool Content) (call : Call Tool)
    (result : Except SdkFailure (CallToolResult Content)) :
    Except Failure (CallToolResult Content) :=
  match result with
  | .error error =>
    if call.aborted then .error .aborted
    else .error (.mcp (classifyMcpSdkFailure error .toolUnavailable))
  | .ok result =>
    match reader.outputValidator call.tool.tool, result.structuredContent with
    | none, _ => .ok result
    | some _, none => if result.isError then .ok result else .error (.mcp .toolUnavailable)
    | some valid, some content =>
      if valid content then .ok result else .error (.mcp .toolUnavailable)

/-- Behind `client.callTool`. -/
def callEnds (reader : ToolReader Remote Tool Content) (number : ℕ) (call : Call Tool)
    (result : Except SdkFailure (CallToolResult Content)) : GameMcpServerConnection Tool Content :=
  let state := connection.states call.tool.connectionState
  { connection.setState call.tool.connectionState
      { state with activeCalls := state.activeCalls - 1 } with
    calls := connection.calls.eraseIdx number
    answers := connection.answers ++ [callResult reader call result] }

/-! ## `close` and the client's callbacks -/

def close : GameMcpServerConnection Tool Content :=
  { connection with disposed := true, state := if connection.disposed then connection.state else none }

def onclose (generation : ℕ) : GameMcpServerConnection Tool Content :=
  { connection.setState generation { connection.states generation with closed := true } with
    state := if connection.state = some generation then none else connection.state }

def onListChanged (generation : ℕ) : GameMcpServerConnection Tool Content :=
  if connection.state = some generation then
    let state := connection.states generation
    connection.setState generation { state with catalogEpoch := state.catalogEpoch + 1 }
  else connection

end GameMcpServerConnection

/-! ## Steps -/

/-- What may happen: a method is called, a signal aborts, an `await` ends, or the client calls
back.  Where an `await` ends with a result, the result is the event's. -/
inductive Event (Remote Tool Content : Type) where
  | loadCatalog (aborted : Bool)
  | call (tool : LoadedGameMcpTool Tool) (aborted : Bool)
  | close
  | abortLoad (number : ℕ)
  | abortCall (number : ℕ)
  | transportReady (operation : ℕ) (result : Except SdkFailure Bool)
  | handshakeEnds (operation : ℕ)
  | handshakeFails (operation : ℕ) (error : SdkFailure)
  | resumeOpen (operation : ℕ)
  | discarded (operation : ℕ)
  | releaseOpen (operation : ℕ)
  | shared (number : ℕ)
  | interrupted (number : ℕ)
  | beginListing (number : ℕ) (hasTools : Bool)
  | pageListed (number : ℕ) (result : Except SdkFailure (ListToolsResult Remote))
  | callEnds (number : ℕ) (result : Except SdkFailure (CallToolResult Content))
  | onclose (generation : ℕ)
  | onListChanged (generation : ℕ)

/-- The event cannot happen here. -/
structure CannotHappen where

section Steps

variable (limits : GameMcpLimits) (reader : ToolReader Remote Tool Content)
  (connection : GameMcpServerConnection Tool Content)

/-- An `open` goes on. -/
def openStep (operation : ℕ) (go : Opening → Option (GameMcpServerConnection Tool Content)) :
    Except CannotHappen (GameMcpServerConnection Tool Content) :=
  match connection.opens[operation]?.bind go with
  | none => .error ⟨⟩
  | some next => .ok next

/-- A `loadCatalog` goes on. -/
def loadStep (number : ℕ) (go : Load Tool → Option (Loading Tool)) :
    Except CannotHappen (GameMcpServerConnection Tool Content) :=
  match connection.loads[number]? with
  | none => .error ⟨⟩
  | some load =>
    match go load with
    | none => .error ⟨⟩
    | some loading => .ok (connection.setLoading number load loading)

def act : Event Remote Tool Content →
    Except CannotHappen (GameMcpServerConnection Tool Content)
  | .loadCatalog aborted => .ok (connection.loadCatalog aborted)
  | .call tool aborted => .ok (connection.call limits tool aborted)
  | .close => .ok connection.close
  | .abortLoad number =>
    .ok { connection with loads := connection.loads.modify number fun load => { load with aborted := true } }
  | .abortCall number =>
    .ok { connection with calls := connection.calls.modify number fun call => { call with aborted := true } }
  | .transportReady operation result =>
    openStep connection operation fun
      | .transport => some (connection.transportReady operation result)
      | _ => none
  | .handshakeEnds operation =>
    openStep connection operation fun
      | .handshake generation => some (connection.setOpening operation (.connected generation))
      | _ => none
  | .handshakeFails operation error =>
    openStep connection operation fun
      | .handshake generation =>
        some (connection.setOpening operation (.discarding generation (some error)))
      | _ => none
  | .resumeOpen operation =>
    openStep connection operation fun
      | .connected generation => some (connection.resumeOpen operation generation)
      | _ => none
  | .discarded operation =>
    openStep connection operation fun
      | .discarding _ error => some (connection.discarded operation error)
      | _ => none
  | .releaseOpen operation =>
    openStep connection operation fun
      | .settled _ =>
        some { connection with
          connecting := if connection.connecting = some operation then none else connection.connecting }
      | _ => none
  | .shared number =>
    loadStep connection number fun load =>
      match load.loading with
      | .waiting operation =>
        match connection.opens[operation]? with
        | some (.settled result) => some (GameMcpServerConnection.shared result)
        | _ => none
      | _ => none
  | .interrupted number =>
    loadStep connection number fun load =>
      match load.loading with
      | .waiting _ =>
        if load.aborted then some (.finished (.error .aborted))
        else if connection.disposed then some (.finished (.error (.mcp .serverUnavailable)))
        else none
      | _ => none
  | .beginListing number hasTools =>
    loadStep connection number fun load =>
      match load.loading with
      | .ensured state => some (connection.beginListing limits load.aborted hasTools state)
      | _ => none
  | .pageListed number result =>
    loadStep connection number fun load =>
      match load.loading with
      | .listing listing => some (connection.pageListed limits reader load.aborted listing result)
      | _ => none
  | .callEnds number result =>
    match connection.calls[number]? with
    | some call => .ok (connection.callEnds reader number call result)
    | none => .error ⟨⟩
  | .onclose generation =>
    -- a client is made with its generation, and fires `onclose` at most once
    if 0 < generation ∧ generation ≤ connection.nextGeneration ∧
        (connection.states generation).closed = false then .ok (connection.onclose generation)
    else .error ⟨⟩
  | .onListChanged generation =>
    if 0 < generation ∧ generation ≤ connection.nextGeneration then
      .ok (connection.onListChanged generation)
    else .error ⟨⟩

/-- A step, with the moment before it. -/
def step (event : Event Remote Tool Content) :
    Except CannotHappen (GameMcpServerConnection Tool Content) :=
  (act limits reader connection event).map fun next =>
    { next with moments := next.moments ++ [connection.moment] }

end Steps

end OpenGameAgent.McpConnection
