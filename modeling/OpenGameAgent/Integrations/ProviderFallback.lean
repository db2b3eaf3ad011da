import OpenGameAgent.Integrations.ProviderAttempts

/-!
# The relay of provider targets

`relayProviderTargets` and the functions under it in
`packages/integrations/src/provider-profiles.ts`, with the classification of failures of
`provider-failures.ts`.

A provider is what its stream does: the events it yields, how it ends and what its result is
then.  The abort signal is read at numbered moments, so `aborted` may change between any two
of them.  The relay keeps a log of what it does: the targets it dispatches, the failures it
falls back from, the attempts it settles and the events it pushes.  Health observations never
change the stream and are left out, as are the time stamps of messages.

* `consumeEvents`, `finishSource` — one target, event by event and at its end.
* `relayFrom` — the targets one after the other.
* `modelStream` — the dispatch of the first target and the relay behind it.
-/

namespace OpenGameAgent

namespace Provider

inductive FailureKind where
  | aborted | credential | authentication | permission | quota | throttled | timeout | transport
  | capacity | providerInternal | invalidRequest | contextWindow | unsupported | protocolInvalid
  | unknown
  deriving DecidableEq

/-- `discriminator` of an HTTP failure. -/
inductive HttpDiscriminator where
  | quota | capacity
  deriving DecidableEq

inductive FailureFactValue where
  | aborted
  | http (status : Nat) (discriminator : Option HttpDiscriminator)
  | credential | quota | timeout | transport | capacity | providerInternal | invalidRequest
  | contextWindow | unsupported | protocolInvalid
  deriving DecidableEq

structure FailureFact where
  value : FailureFactValue
  usage : UsageObservation
  deriving DecidableEq

/-- `classifyProviderFailure` with a signal that is not aborted. -/
def classifyFact : Option FailureFactValue → FailureKind
  | none => .unknown
  | some .aborted => .aborted
  | some (.http _ (some .quota)) => .quota
  | some (.http _ (some .capacity)) => .capacity
  | some (.http status none) =>
    if status = 401 then .authentication
    else if status = 403 then .permission
    else if status = 408 then .timeout
    else if status = 429 then .throttled
    else if status = 400 || status = 413 then .invalidRequest
    else if 500 ≤ status && status ≤ 599 then .providerInternal
    else .unknown
  | some .credential => .credential
  | some .quota => .quota
  | some .timeout => .timeout
  | some .transport => .transport
  | some .capacity => .capacity
  | some .providerInternal => .providerInternal
  | some .invalidRequest => .invalidRequest
  | some .contextWindow => .contextWindow
  | some .unsupported => .unsupported
  | some .protocolInvalid => .protocolInvalid

/-- `isProviderFallbackFailureKind`. -/
def isFallbackKind : FailureKind → Bool
  | .throttled | .timeout | .transport | .capacity | .providerInternal => true
  | _ => false

/-- `isProviderFallbackEligible`. -/
def isFallbackEligible (kind : FailureKind) (fallbackOn : List FailureKind) : Bool :=
  isFallbackKind kind && kind ∈ fallbackOn

/-! ## What a provider does -/

variable {υ : Type}

/-- What a terminal event carries. -/
inductive Payload (υ : Type) where
  /-- A value that `structuredClone` refuses. -/
  | uncloneable
  /-- A value without properties to read. -/
  | absent
  | message (message : Message υ)

inductive ContentKind where
  | textStart | textDelta | textEnd | thinkingStart | thinkingDelta | thinkingEnd
  | toolcallStart | toolcallDelta | toolcallEnd
  deriving DecidableEq

/-- An event of a source; a `snapshot` that is missing has no properties to read. -/
inductive SourceEvent (υ : Type) where
  | start (snapshot : Option (Message υ))
  | content (kind : ContentKind) (snapshot : Option (Message υ))
  | done (reason : String) (payload : Payload υ)
  | error (reason : String) (payload : Payload υ) (fact : Option FailureFact)
  /-- A type the relay does not know. -/
  | other
  /-- A value whose type cannot be read. -/
  | unreadable

/-- How a source ends. -/
inductive SourceEnd (υ : Type) where
  /-- It ends, with the result known by then and the evidence reported for it. -/
  | ends (result : Option (Payload υ × Option FailureFact))
  | throws
  /-- It never ends. -/
  | hangs

/-- What a provider does when it is asked. -/
inductive StartAnswer (υ : Type) where
  /-- The start of the request, or the observer of the commit before it, throws. -/
  | throws
  | source (events : List (SourceEvent υ)) (ending : SourceEnd υ)

/-- A target of the configuration with what happens to it. -/
structure Target (υ : Type) where
  route : Route
  pricing : PricingBasis
  fallbackOn : List FailureKind
  /-- The sink takes the record of the request. -/
  recorded : Bool
  start : StartAnswer υ
  settled : SettleAnswer

/-! ## The state of a relay -/

/-- An event of the output stream. -/
inductive OutputEvent (υ : Type) where
  | start (route : Route)
  | content (kind : ContentKind) (snapshot : Message υ)
  | done (reason : String) (message : Message υ)
  | error (reason : String) (message : Message υ)

def OutputEvent.isTerminal : OutputEvent υ → Bool
  | .done _ _ | .error _ _ => true
  | _ => false

/-- The message of a terminal. -/
def OutputEvent.terminalMessage? : OutputEvent υ → Option (Message υ)
  | .done _ message | .error _ message => some message
  | _ => none

/-- What the relay does.  Targets are named by their index. -/
inductive LogEntry (υ : Type) where
  /-- The attempt at a target is committed; `moment` is when the signal was read before. -/
  | dispatched (index : Nat) (moment : Nat)
  /-- A target ended in a failure that the next one may make good. -/
  | failed (index : Nat) (message : Message υ) (kind : FailureKind)
  | settled (index : Nat)
  | pushed (index : Nat) (event : OutputEvent υ)

structure RelayState (υ : Type) where
  started : Bool
  lifecycle : Lifecycle υ
  log : List (LogEntry υ)
  /-- How many objects there are. -/
  objects : Nat
  /-- How often the signal has been read. -/
  moment : Nat

structure RelayContext (υ : Type) extends AttemptContext υ where
  /-- The signal at each moment it is read. -/
  aborted : Nat → Bool

/-- What becomes of a target. -/
inductive Decision (υ : Type) where
  | advance (message : Message υ)
  | terminal
  /-- An exception leaves `consumeProviderTarget`. -/
  | thrown
  | hangs

namespace RelayState

def append (state : RelayState υ) (entry : LogEntry υ) : RelayState υ :=
  { state with log := state.log ++ [entry] }

/-- Read the signal. -/
def tick (state : RelayState υ) : RelayState υ := { state with moment := state.moment + 1 }

/-- A new object. -/
def allocate (state : RelayState υ) : RelayState υ := { state with objects := state.objects + 1 }

/-- `pushSyntheticStart`. -/
def pushStart (state : RelayState υ) (index : Nat) (route : Route) : RelayState υ :=
  if state.started then state
  else { state.append (.pushed index (.start route)) with started := true }

/-- `pushTerminal`. -/
def pushTerminal (state : RelayState υ) (index : Nat) (route : Route) (event : OutputEvent υ) :
    RelayState υ :=
  (state.pushStart index route).append (.pushed index event)

end RelayState

/-- `syntheticFailureMessage`, the object being the next one. -/
def syntheticFailureMessage (ctx : RelayContext υ) (state : RelayState υ) (route : Route)
    (reason : String) : Message υ where
  object := state.objects
  provider := route.provider
  api := route.api
  model := route.id
  stopReason := reason
  content := some 0
  deferred := false
  responseModel := none
  responseId := none
  errorMessage := some
    (if reason = "aborted" then "Provider request was aborted." else "Provider stream failed.")
  usage := ctx.emptyUsage

/-- `pushSyntheticFailure`: the base itself, or a synthetic message in its place. -/
def pushSyntheticFailure (ctx : RelayContext υ) (state : RelayState υ) (index : Nat)
    (route : Route) (reason : String) (base : Option (Message υ)) : RelayState υ :=
  match base with
  | some message =>
    if message.stopReason = reason && message.route = route then
      state.pushTerminal index route (.error reason message)
    else state.allocate.pushTerminal index route
      (.error reason (syntheticFailureMessage ctx state route reason))
  | none => state.allocate.pushTerminal index route
      (.error reason (syntheticFailureMessage ctx state route reason))

/-- `captureSyntheticTerminal` and `pushSyntheticFailure` of one message. -/
def endSynthetic (ctx : RelayContext υ) (state : RelayState υ) (index : Nat) (route : Route)
    (message : Message υ) (usage : UsageObservation) : Decision υ × RelayState υ :=
  match state.lifecycle.captureTerminal message usage with
  | none => (.thrown, state)
  | some lifecycle =>
    (.terminal, pushSyntheticFailure ctx { state with lifecycle } index route
      message.stopReason (some message))

/-- The end of a target whose stream is malformed. -/
def endMalformed (ctx : RelayContext υ) (state : RelayState υ) (index : Nat) (route : Route) :
    Decision υ × RelayState υ :=
  endSynthetic ctx state.allocate index route (syntheticFailureMessage ctx state route "error")
    .unreported

/-- `syntheticFailureFromEvidence`. -/
def syntheticFailureFromEvidence (ctx : RelayContext υ) (state : RelayState υ) (route : Route)
    (evidence : Option (Message υ × UsageObservation)) : Message υ :=
  let message := syntheticFailureMessage ctx state route "aborted"
  match evidence with
  | none => message
  | some (source, usage) => { message with
      responseModel := source.responseModel
      responseId := source.responseId
      usage := if usage = .reported then source.usage else ctx.emptyUsage }

/-- `consumeCallerAbort`. -/
def consumeCallerAbort (ctx : RelayContext υ) (state : RelayState υ) (index : Nat) (route : Route)
    (evidence : Option (Message υ × UsageObservation)) : Decision υ × RelayState υ :=
  endSynthetic ctx state.allocate index route
    (syntheticFailureFromEvidence ctx state route evidence)
    ((evidence.map Prod.snd).getD .unreported)

/-- `structuredClone`; `none` when it throws. -/
def Payload.clone (payload : Payload υ) (object : Nat) : Option (Payload υ) :=
  match payload with
  | .uncloneable => none
  | .absent => some .absent
  | .message value => some (.message { value with object })

/-- `validDoneEvent` and `validErrorEvent`; `none` when it throws. -/
def validTerminal (isReason : String → Bool) (route : Route) (reason : String)
    (payload : Payload υ) : Option Bool :=
  if isReason reason then
    match payload with
    | .message message => some (reason = message.stopReason && message.route = route)
    | _ => none
  else some false

/-- The message of a payload that a check has read. -/
def Payload.message? : Payload υ → Option (Message υ)
  | .message value => some value
  | _ => none

/-- `classifyProviderFailure`: the signal first, then the event, then the evidence. -/
def classifyFailure (ctx : RelayContext υ) (moment : Nat) (message : Message υ)
    (fact : Option FailureFact) : FailureKind :=
  if ctx.aborted moment then .aborted
  else if message.stopReason = "aborted" then .aborted
  else classifyFact (fact.map (·.value))

/-- `consumeProviderError` of an event that is valid. -/
def consumeValidError (ctx : RelayContext υ) (state : RelayState υ) (index : Nat)
    (target : Target υ) (hasNext semantic : Bool) (message : Message υ)
    (fact : Option FailureFact) : Decision υ × RelayState υ :=
  let usage := (fact.map (·.usage)).getD .unreported
  let kind := classifyFailure ctx state.moment message fact
  let state := state.tick
  let relayed : Decision υ × RelayState υ :=
    match state.lifecycle.captureTerminal message usage with
    | none => (.thrown, state)
    | some lifecycle =>
      (.terminal, { state with lifecycle }.pushTerminal index target.route
        (.error message.stopReason message))
  if kind = .aborted then
    if message.stopReason = "aborted" then relayed
    else consumeCallerAbort ctx state index target.route (some (message, usage))
  else
    match message.content with
    | none => if semantic then relayed else (.thrown, state)
    | some parts =>
      if !(semantic || 0 < parts || message.deferred) && hasNext &&
          isFallbackEligible kind target.fallbackOn then
        match state.lifecycle.captureTerminal message usage with
        | none => (.thrown, state)
        | some lifecycle =>
          (.advance message, { state with lifecycle }.append (.failed index message kind))
      else relayed

/-- `consumeProviderError`. -/
def consumeProviderError (ctx : RelayContext υ) (state : RelayState υ) (index : Nat)
    (target : Target υ) (hasNext semantic : Bool) (reason : String) (payload : Payload υ)
    (fact : Option FailureFact) : Decision υ × RelayState υ :=
  match validTerminal isErrorStopReason target.route reason payload, payload with
  | none, _ => (.thrown, state)
  | some true, .message message =>
    consumeValidError ctx state index target hasNext semantic message fact
  | some _, _ => endMalformed ctx state index target.route

/-- A `done` terminal, once the signal is read. -/
def consumeDone (ctx : RelayContext υ) (state : RelayState υ) (index : Nat) (target : Target υ)
    (reason : String) (payload : Payload υ) : Decision υ × RelayState υ :=
  match validTerminal isDoneStopReason target.route reason payload, payload with
  | none, _ => (.thrown, state)
  | some true, .message message =>
    (.terminal, state.pushTerminal index target.route (.done reason message))
  | some _, _ => endMalformed ctx state index target.route

/-- The evidence an aborted target leaves in a terminal; `none` when reading it throws. -/
def abortEvidence (isReason : String → Bool) (route : Route) (reason : String)
    (payload : Payload υ) (usage : UsageObservation) :
    Option (Option (Message υ × UsageObservation)) :=
  (validTerminal isReason route reason payload).map fun valid =>
    if valid then payload.message?.map fun message => (message, usage) else none

/-- The signal is aborted while a terminal is at hand. -/
def abortWith (ctx : RelayContext υ) (state : RelayState υ) (index : Nat) (route : Route)
    (evidence : Option (Option (Message υ × UsageObservation))) : Decision υ × RelayState υ :=
  match evidence with
  | none => (.thrown, state)
  | some evidence => consumeCallerAbort ctx state index route evidence

/-- The part of `consumeProviderTarget` after the events of a source. -/
def finishSource (ctx : RelayContext υ) (state : RelayState υ) (index : Nat) (target : Target υ)
    (hasNext semantic : Bool) (result : Option (Payload υ × Option FailureFact)) :
    Decision υ × RelayState υ :=
  match result with
  | some (.uncloneable, _) => (.thrown, state)
  | some (.message original, fact) =>
    let message := { original with object := state.objects }
    let usage := (fact.map (·.usage)).getD .unreported
    let aborted := ctx.aborted state.moment
    let state := state.allocate.tick
    let reason := message.stopReason
    if isErrorStopReason reason then
      if aborted then
        abortWith ctx state index target.route
          (abortEvidence isErrorStopReason target.route reason (.message message) usage)
      else consumeProviderError ctx state index target hasNext semantic reason
        (.message message) fact
    else if aborted then
      abortWith ctx state index target.route
        (abortEvidence isDoneStopReason target.route reason (.message message) .reported)
    else consumeDone ctx state index target reason (.message message)
  | _ =>
    if ctx.aborted state.moment then
      consumeCallerAbort ctx state.tick index target.route none
    else endMalformed ctx state.tick index target.route

/-- `consumeProviderTarget`: the events of a source, and its end. -/
def consumeEvents (ctx : RelayContext υ) (index : Nat) (target : Target υ) (hasNext : Bool)
    (ending : SourceEnd υ) :
    List (SourceEvent υ) → Bool → Bool → RelayState υ → Decision υ × RelayState υ
  | [], _, semantic, state =>
    match ending with
    | .ends result => finishSource ctx state index target hasNext semantic result
    | .throws => (.thrown, state)
    | .hangs => (.hangs, state)
  | .start snapshot :: rest, sawStart, semantic, state =>
    if ctx.aborted state.moment then consumeCallerAbort ctx state.tick index target.route none
    else if sawStart then endMalformed ctx state.tick index target.route
    else match snapshot with
      | none => (.thrown, state.tick)
      | some message =>
        if message.route = target.route then
          consumeEvents ctx index target hasNext ending rest true semantic state.tick
        else endMalformed ctx state.tick index target.route
  | .content kind snapshot :: rest, sawStart, _, state =>
    if ctx.aborted state.moment then consumeCallerAbort ctx state.tick index target.route none
    else if !sawStart then endMalformed ctx state.tick index target.route
    else match snapshot with
      | none => (.thrown, state.tick)
      | some message =>
        if message.route = target.route then
          consumeEvents ctx index target hasNext ending rest sawStart true
            ((state.tick.pushStart index target.route).append
              (.pushed index (.content kind message)))
        else endMalformed ctx state.tick index target.route
  | .done reason payload :: _, _, _, state =>
    match payload.clone state.objects with
    | none => (.thrown, state)
    | some copied =>
      if ctx.aborted state.moment then
        abortWith ctx state.allocate.tick index target.route
          (abortEvidence isDoneStopReason target.route reason copied .reported)
      else consumeDone ctx state.allocate.tick index target reason copied
  | .error reason payload fact :: _, _, semantic, state =>
    match payload.clone state.objects with
    | none => (.thrown, state)
    | some copied =>
      if ctx.aborted state.moment then
        abortWith ctx state.allocate.tick index target.route
          (abortEvidence isErrorStopReason target.route reason copied
            ((fact.map (·.usage)).getD .unreported))
      else consumeProviderError ctx state.allocate.tick index target hasNext semantic reason
        copied fact
  | .other :: _, _, _, state =>
    if ctx.aborted state.moment then consumeCallerAbort ctx state.tick index target.route none
    else endMalformed ctx state.tick index target.route
  | .unreadable :: _, _, _, state => (.thrown, state)

/-! ## Several targets -/

/-- `dispatchProviderTarget`: whether it returns a source, and the state after it. -/
def dispatchTarget (ctx : RelayContext υ) (state : RelayState υ) (index : Nat)
    (target : Target υ) : Option (List (SourceEvent υ) × SourceEnd υ) × RelayState υ :=
  let moment := state.moment
  let state := state.tick
  if ctx.aborted moment then (none, state)
  else match state.lifecycle.begin target.route target.pricing with
    | none => (none, state)
    | some begun =>
      match begun.commit target.recorded with
      | (false, lifecycle) => (none, { state with lifecycle })
      | (true, lifecycle) =>
        let state := { state with lifecycle }.append (.dispatched index moment)
        match target.start with
        | .throws => (none, state)
        | .source events ending => (some (events, ending), state)

/-- The catch of `relayProviderTargets`; the model is that of the target named last. -/
def relayFailure (ctx : RelayContext υ) (state : RelayState υ) (index : Nat) (route : Route) :
    RelayState υ :=
  let reason := if ctx.aborted state.moment then "aborted" else "error"
  pushSyntheticFailure ctx state.tick index route reason none

/-- The loop of `relayProviderTargets`, at a target whose source is at hand. -/
def relayFrom (ctx : RelayContext υ) (target : Target υ) (index : Nat)
    (source : List (SourceEvent υ) × SourceEnd υ) (rest : List (Target υ))
    (state : RelayState υ) : RelayState υ :=
  match consumeEvents ctx index target (!rest.isEmpty) source.2 source.1 false false state with
  | (.terminal, state) | (.hangs, state) => state
  | (.thrown, state) => relayFailure ctx state index target.route
  | (.advance message, state) =>
    match state.lifecycle.settle ctx.toAttemptContext message target.settled with
    | (false, lifecycle) =>
      { state with lifecycle }.pushTerminal index target.route
        (.error (if message.stopReason = "aborted" then "aborted" else "error") message)
    | (true, lifecycle) =>
      let state := { state with lifecycle }.append (.settled index)
      if ctx.aborted state.moment then
        pushSyntheticFailure ctx state.tick index target.route "aborted" (some message)
      else match rest with
        | [] => relayFailure ctx state.tick index target.route
        | next :: rest =>
          match dispatchTarget ctx state.tick (index + 1) next with
          | (none, state) => relayFailure ctx state index target.route
          | (some source, state) => relayFrom ctx next (index + 1) source rest state

def RelayState.new : RelayState υ := ⟨false, Lifecycle.new, [], 0, 0⟩

/-- The stream function over its captured targets; `none` when it throws before it returns an
output stream. -/
def modelStream (ctx : RelayContext υ) (targets : List (Target υ)) : Option (RelayState υ) :=
  -- `throwIfAborted` at the very start
  if ctx.aborted 0 then none
  else match targets with
    | [] => none
    | target :: rest =>
      match dispatchTarget ctx RelayState.new.tick 0 target with
      | (none, _) => none
      | (some source, state) => some (relayFrom ctx target 0 source rest state)

end Provider

end OpenGameAgent
