import Mathlib.Data.List.Basic

/-!
# Attempts at a model request

`packages/agent/src/provider-attempt.ts`: the lifecycle every provider request goes through,
with the checks that `prepareModelResponseProvenance` of `model-context-provenance.ts` makes
when a response is settled.

Two messages are one object exactly when their `object` numbers are equal; a copy gets a
number of its own.  What a host is asked (the provenance sink and the observers) answers as
it likes.

* `Lifecycle.begin`, `Lifecycle.commit`, `Lifecycle.captureTerminal`, `Lifecycle.settle` — the
  methods; none of them answers when it throws.
* `Lifecycle.accepts` — the checks a message has to pass to be settled.
-/

namespace OpenGameAgent

namespace Provider

/-- What identifies a model: `provider`, `api` and `id`. -/
structure Route where
  provider : String
  api : String
  id : String
  deriving DecidableEq

/-- An assistant message.  The usage is of any type; `content` is the number of its parts, if
it has parts to count. -/
structure Message (υ : Type) where
  object : Nat
  provider : String
  api : String
  model : String
  stopReason : String
  content : Option Nat
  deferred : Bool
  responseModel : Option String
  responseId : Option String
  errorMessage : Option String
  usage : υ

variable {υ : Type}

/-- The model a message names. -/
def Message.route (message : Message υ) : Route :=
  ⟨message.provider, message.api, message.model⟩

inductive UsageObservation where
  | reported | unreported
  deriving DecidableEq

inductive PricingBasis where
  | piCatalog | hostRateCard | free | unpriced
  deriving DecidableEq

inductive AttemptState where
  | committing | committed | settling | failed
  deriving DecidableEq

/-- The open attempt of a lifecycle. -/
structure Attempt (υ : Type) where
  index : Nat
  targetRoute : Route
  pricing : PricingBasis
  state : AttemptState
  capturedTerminal : Option (Message υ × UsageObservation)

structure Lifecycle (υ : Type) where
  current : Option (Attempt υ)
  committedCount : Nat
  provenanceFailed : Bool

/-- What the lifecycle takes from outside: what a usage without tokens is, and whether the
tokens and the price of a usage can be read. -/
structure AttemptContext (υ : Type) where
  emptyUsage : υ
  readsUsage : PricingBasis → υ → Bool

def Lifecycle.new : Lifecycle υ := ⟨none, 0, false⟩

def Lifecycle.begin (lifecycle : Lifecycle υ) (targetRoute : Route) (pricing : PricingBasis) :
    Option (Lifecycle υ) :=
  if lifecycle.provenanceFailed || lifecycle.current.isSome then none
  else some { lifecycle with
    current := some ⟨lifecycle.committedCount + 1, targetRoute, pricing, .committing, none⟩ }

/-- `closeAfterProvenanceFailure`. -/
def Lifecycle.close (lifecycle : Lifecycle υ) : Lifecycle υ :=
  { lifecycle with current := none, provenanceFailed := true }

/-- The first half of `commit`, up to the call of `start`: the sink may refuse the record. -/
def Lifecycle.commit (lifecycle : Lifecycle υ) (recorded : Bool) : Bool × Lifecycle υ :=
  if recorded then
    (true, { lifecycle with
      current := lifecycle.current.map fun attempt => { attempt with state := .committed }
      committedCount := lifecycle.committedCount + 1 })
  else (false, lifecycle.close)

def isErrorStopReason (reason : String) : Bool := reason = "error" || reason = "aborted"

def isDoneStopReason (reason : String) : Bool :=
  reason = "stop" || reason = "length" || reason = "toolUse" || reason = "deferred"

def Lifecycle.captureTerminal (lifecycle : Lifecycle υ) (message : Message υ)
    (usage : UsageObservation) : Option (Lifecycle υ) := do
  let attempt ← lifecycle.current
  if attempt.state = .committed && isErrorStopReason message.stopReason &&
      attempt.capturedTerminal.isNone then
    return { lifecycle with current := some { attempt with capturedTerminal := some (message, usage) } }
  else none

/-- The usage observation a message is settled with. -/
def Attempt.observation (attempt : Attempt υ) (message : Message υ) : UsageObservation :=
  match attempt.capturedTerminal with
  | some (_, usage) => usage
  | none => if isErrorStopReason message.stopReason then .unreported else .reported

/-- `prepareModelResponseProvenance` does not throw. -/
def prepares (ctx : AttemptContext υ) (attempt : Attempt υ) (message : Message υ) : Bool :=
  message.stopReason ≠ "pending" &&
    (attempt.observation message = .reported || isErrorStopReason message.stopReason) &&
    message.route = attempt.targetRoute &&
    message.responseModel.getD message.model ≠ "" &&
    (attempt.observation message = .unreported || ctx.readsUsage attempt.pricing message.usage)

/-- The checks of `settle` on the message alone. -/
def Lifecycle.accepts (ctx : AttemptContext υ) (lifecycle : Lifecycle υ) (message : Message υ) :
    Bool :=
  lifecycle.current.any fun attempt =>
    attempt.state = .committed &&
      attempt.capturedTerminal.all (fun captured => captured.1.object = message.object) &&
      prepares ctx attempt message

/-- What the host answers while an attempt is settled. -/
inductive SettleAnswer where
  | accepts
  /-- `onResponse` throws. -/
  | responseThrows
  /-- The sink refuses the response. -/
  | recordFails
  /-- `onSettle` throws. -/
  | observerThrows
  deriving DecidableEq

/-- `settle`: whether it returns, and the lifecycle after it. -/
def Lifecycle.settle (ctx : AttemptContext υ) (lifecycle : Lifecycle υ) (message : Message υ)
    (answer : SettleAnswer) : Bool × Lifecycle υ :=
  if lifecycle.accepts ctx message then
    match answer with
    | .responseThrows => (false, lifecycle)
    | .recordFails => (false, lifecycle.close)
    | .observerThrows => (false, { lifecycle with current := none })
    | .accepts => (true, { lifecycle with current := none })
  else (false, lifecycle)

@[simp] theorem settle_accepts {ctx : AttemptContext υ} {lifecycle : Lifecycle υ}
    {message : Message υ} :
    (lifecycle.settle ctx message .accepts).1 = lifecycle.accepts ctx message := by
  unfold Lifecycle.settle
  split
  · rename_i h
    exact h.symm
  · rename_i h
    exact (Bool.eq_false_iff.2 h).symm

/-- A settled attempt is closed. -/
theorem settle_current {ctx : AttemptContext υ} {lifecycle : Lifecycle υ} {message : Message υ}
    {answer : SettleAnswer} (h : (lifecycle.settle ctx message answer).1 = true) :
    (lifecycle.settle ctx message answer).2 = { lifecycle with current := none } := by
  unfold Lifecycle.settle at h ⊢
  split
  · cases answer <;> simp_all
  · simp_all

end Provider

end OpenGameAgent
