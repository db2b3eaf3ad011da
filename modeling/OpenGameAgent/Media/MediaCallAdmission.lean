import Mathlib

/-!
# Admission of provider calls

A `MediaCallAdmissionGroup` holds the call budget that adapter registrations of one provider
share: so many calls at once, so many waiting.  A reservation is a small state machine of its
own (waiting, active, released), and three things move it: its `release`, the abort of its signal
while it waits, and the release of another reservation that hands its permit over.
-/

namespace OpenGameAgent.MediaCalls

/-! ## The group -/

structure MediaCallAdmissionLimits where
  maxConcurrentCalls : ℚ
  maxQueuedCalls : ℚ

/-- `Number.isSafeInteger`; the numbers that are no rationals are no integers either. -/
def isSafeInteger (value : ℚ) : Bool :=
  decide (value.den = 1) && decide (|value| ≤ 2 ^ 53 - 1)

inductive CallState where
  | waiting
  | active
  | released
deriving DecidableEq, Repr

/-- The closure `reserve` makes: the `ready` promise is `none` until it settles, `listening` says
whether `onAbort` is a listener of the signal. -/
structure MediaCallReservation where
  signal : ℕ
  state : CallState
  ready : Option Bool
  listening : Bool
deriving DecidableEq, Repr

/-- Reservations are numbered in the order they are made; `waiting` are the keys of the map, in the
order they were inserted. -/
structure MediaCallAdmissionGroup where
  maxConcurrentCalls : ℕ
  maxQueuedCalls : ℕ
  activeCalls : ℤ
  waiting : List ℕ
  reservations : List MediaCallReservation
  aborted : List ℕ
deriving DecidableEq, Repr

/-- The constructor; `none` is its `RangeError`. -/
def MediaCallAdmissionGroup.new (limits : MediaCallAdmissionLimits) :
    Option MediaCallAdmissionGroup :=
  if !isSafeInteger limits.maxConcurrentCalls || decide (limits.maxConcurrentCalls < 1) ||
      !isSafeInteger limits.maxQueuedCalls || decide (limits.maxQueuedCalls < 0) then none
  else some
    { maxConcurrentCalls := limits.maxConcurrentCalls.num.toNat
      maxQueuedCalls := limits.maxQueuedCalls.num.toNat
      activeCalls := 0
      waiting := []
      reservations := []
      aborted := [] }

/-- A promise keeps the value it was resolved with first. -/
def resolveReady (ready : Option Bool) (admitted : Bool) : Option Bool :=
  ready.or (some admitted)

namespace MediaCallAdmissionGroup

variable (group : MediaCallAdmissionGroup)

/-- The state of a reservation, `none` for one that was never made. -/
def state? (reservation : ℕ) : Option CallState :=
  group.reservations[reservation]?.map (·.state)

/-- What the `ready` promise of a reservation has settled to. -/
def ready (reservation : ℕ) : Option Bool :=
  group.reservations[reservation]?.bind (·.ready)

def activate (reservation : ℕ) : MediaCallAdmissionGroup :=
  { group with
    activeCalls := group.activeCalls + 1
    reservations := group.reservations.modify reservation fun r =>
      { r with state := .active, listening := false, ready := resolveReady r.ready true } }

/-- The first waiting reservation takes the permit that is free, if one is. -/
def handOver : MediaCallAdmissionGroup :=
  match group.waiting with
  | [] => group
  | next :: _ =>
    if group.activeCalls < group.maxConcurrentCalls then
      activate { group with waiting := group.waiting.erase next } next
    else group

/-- The end of `release`, once the count or the queue has been told. -/
def settleReleased (reservation : ℕ) : MediaCallAdmissionGroup :=
  { group with
    reservations := group.reservations.modify reservation fun r =>
      { r with state := .released, listening := false, ready := resolveReady r.ready false } }

def release (reservation : ℕ) : MediaCallAdmissionGroup :=
  match group.state? reservation with
  | none => group
  | some .released => group
  | some .active =>
    handOver (settleReleased { group with activeCalls := group.activeCalls - 1 } reservation)
  | some .waiting =>
    handOver (settleReleased { group with waiting := group.waiting.erase reservation } reservation)

def onAbort (reservation : ℕ) : MediaCallAdmissionGroup :=
  if group.state? reservation = some .waiting then group.release reservation else group

inductive ReserveError where
  | aborted
  | admissionFull
deriving DecidableEq, Repr

def reserve (signal : ℕ) : Except ReserveError (MediaCallAdmissionGroup × ℕ) :=
  if signal ∈ group.aborted then .error .aborted
  else if group.activeCalls = group.maxConcurrentCalls ∧
      group.maxQueuedCalls ≤ group.waiting.length then .error .admissionFull
  else
    let reservation := group.reservations.length
    if group.activeCalls < group.maxConcurrentCalls then
      .ok (activate
        { group with reservations := group.reservations ++ [⟨signal, .waiting, none, false⟩] }
        reservation, reservation)
    else
      let queued : MediaCallAdmissionGroup :=
        { group with
          waiting := group.waiting ++ [reservation]
          reservations := group.reservations ++ [⟨signal, .waiting, none, true⟩] }
      .ok (if signal ∈ queued.aborted then queued.onAbort reservation else queued, reservation)

/-! ## Calls and runs -/

/-- The signal has become aborted; its listeners have not run yet. -/
def raise (signal : ℕ) : MediaCallAdmissionGroup :=
  if signal ∈ group.aborted then group else { group with aborted := signal :: group.aborted }

/-- The reservations whose `onAbort` is a listener of the signal, in the order they registered. -/
def listeners (signal : ℕ) : List ℕ :=
  (List.range group.reservations.length).filter fun reservation =>
    match group.reservations[reservation]? with
    | some r => r.listening && r.signal == signal
    | none => false

/-- `AbortController.abort` with no other code between the listeners: an aborted signal dispatches
no second time. -/
def abort (signal : ℕ) : MediaCallAdmissionGroup :=
  if signal ∈ group.aborted then group
  else (group.listeners signal).foldl onAbort (group.raise signal)

/-- The dispatch of an aborted signal reaches the listener of one reservation. -/
def deliver (reservation : ℕ) : MediaCallAdmissionGroup :=
  match group.reservations[reservation]? with
  | none => group
  | some r => if r.listening ∧ r.signal ∈ group.aborted then group.onAbort reservation else group

end MediaCallAdmissionGroup

/-- What the outside does with a group.  A signal aborts at once with `abort`; with `raise` it
only becomes aborted, and each listener runs at a `deliver`, so that other listeners of the signal
may reserve, release and abort before it. -/
inductive Call where
  | reserve (signal : ℕ)
  | release (reservation : ℕ)
  | abort (signal : ℕ)
  | raise (signal : ℕ)
  | deliver (reservation : ℕ)
deriving DecidableEq, Repr

/-- A `reserve` that throws leaves the group as it was. -/
def perform (group : MediaCallAdmissionGroup) : Call → MediaCallAdmissionGroup
  | .reserve signal =>
    match group.reserve signal with
    | .ok (next, _) => next
    | .error _ => group
  | .release reservation => group.release reservation
  | .abort signal => group.abort signal
  | .raise signal => group.raise signal
  | .deliver reservation => group.deliver reservation

def performAll (group : MediaCallAdmissionGroup) (calls : List Call) : MediaCallAdmissionGroup :=
  calls.foldl perform group

@[simp] theorem performAll_append (group : MediaCallAdmissionGroup) (calls more : List Call) :
    performAll group (calls ++ more) = performAll (performAll group calls) more := by
  simp [performAll, List.foldl_append]

/-- The call withdraws a reservation: it releases it, or its signal aborts and reaches it. -/
def Withdraws (group : MediaCallAdmissionGroup) (call : Call) (reservation : ℕ) : Prop :=
  match call with
  | .release released => released = reservation
  | .abort signal => signal ∉ group.aborted ∧
      ∃ r, group.reservations[reservation]? = some r ∧ r.signal = signal
  | .deliver reached => reached = reservation ∧
      ∃ r, group.reservations[reservation]? = some r ∧ r.signal ∈ group.aborted
  | .reserve _ | .raise _ => False

end OpenGameAgent.MediaCalls
