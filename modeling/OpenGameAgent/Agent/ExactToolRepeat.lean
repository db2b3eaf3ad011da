import OpenGameAgent.Actions.Validation
import OpenGameAgent.Extensions.SignalNormalForms

/-!
# Exact Tool repeats

`packages/agent/src/exact-tool-repeat.ts`: the policy, and `ExactToolRepeatTracker`, which
watches the Tool calls of a run and stops it when one call is made too often in a row.

The tracker keeps a counter, the last call it counted and a cursor into the calls of the
current assistant message.  What it answers is compared here with the plain history of what
it was told:

* `leftOf` — what is left of the current message's calls; `interrupts` — the events that end
  a row; `stretch` — the calls observed since the last of them.
* `hasSortedName_iff` — the binary search finds what is in the list.
* `Follows` and `agrees_step` — the tracker agrees with the history, call by call.
* `exact_tool_repeat_is_exact` — every answer of the tracker.
-/

namespace OpenGameAgent

/-! ## The policy -/

/-- `GameExactToolRepeatPolicy`, with integers for the numbers that may be thresholds. -/
structure GameExactToolRepeatPolicy where
  advisoryThreshold : Int
  terminationThreshold : Int
  exemptToolNames : Option (List String)

/-- `CapturedExactToolRepeatPolicy`. -/
structure CapturedExactToolRepeatPolicy where
  advisoryThreshold : Nat
  terminationThreshold : Nat
  exemptToolNames : List String
  advisory_pos : 0 < advisoryThreshold
  above : advisoryThreshold < terminationThreshold
  sorted : exemptToolNames.Pairwise textLe

/-- The `TypeError` of `invalidPolicy`. -/
inductive ExactToolRepeatError where
  | invalidPolicy
  deriving DecidableEq, Repr

def isPositiveSafeInteger (value : Int) : Bool := 1 ≤ value && value ≤ maxSafeInteger

/-- `captureExactToolRepeatPolicy`. -/
def captureExactToolRepeatPolicy (policy : GameExactToolRepeatPolicy) (maxTools : Option Nat) :
    Except ExactToolRepeatError CapturedExactToolRepeatPolicy :=
  let names := policy.exemptToolNames.getD []
  if h : isPositiveSafeInteger policy.advisoryThreshold = true ∧
      isPositiveSafeInteger policy.terminationThreshold = true ∧
      policy.advisoryThreshold < policy.terminationThreshold ∧
      maxTools.any (fun maxTools => names.length ≤ maxTools) = true ∧
      names.all isOpaqueIdentifier = true ∧ names.Nodup then
    .ok
      { advisoryThreshold := policy.advisoryThreshold.toNat
        terminationThreshold := policy.terminationThreshold.toNat
        exemptToolNames := names.insertionSort textLe
        advisory_pos := by
          have hpos := h.1
          simp only [isPositiveSafeInteger, Bool.and_eq_true, decide_eq_true_eq] at hpos
          omega
        above := by
          have hpos := h.1
          simp only [isPositiveSafeInteger, Bool.and_eq_true, decide_eq_true_eq] at hpos
          have hlt := h.2.2.1
          omega
        sorted := List.pairwise_insertionSort textLe names }
  else .error .invalidPolicy

/-! ## The binary search -/

/-- The order `<` of strings. -/
def textLt (a b : String) : Prop := ¬ textLe b a

instance : DecidableRel textLt := fun _ _ => inferInstanceAs (Decidable (¬ _))

/-- The loop of `hasSortedName`. -/
def hasSortedNameLoop (names : List String) (value : String) (lower upper : Int) : Bool :=
  if lower ≤ upper then
    let middle := lower + (upper - lower) / 2
    let candidate := names[middle.toNat]?
    if candidate = some value then true
    else if candidate.any fun candidate => textLt candidate value then
      hasSortedNameLoop names value (middle + 1) upper
    else hasSortedNameLoop names value lower (middle - 1)
  else false
termination_by (upper + 1 - lower).toNat

/-- `hasSortedName`. -/
def hasSortedName (names : List String) (value : String) : Bool :=
  hasSortedNameLoop names value 0 (names.length - 1)

/-- In a sorted list an earlier name is no greater. -/
theorem textLe_getElem {names : List String} (hsorted : names.Pairwise textLe) {i j : Nat}
    (hi : i < names.length) (hj : j < names.length) (hij : i ≤ j) : textLe names[i] names[j] := by
  rcases Nat.lt_or_eq_of_le hij with hlt | rfl
  · exact List.pairwise_iff_getElem.1 hsorted i j hi hj hlt
  · rcases textLe_total names[i] names[i] with h | h <;> exact h

/-- The search finds a name between the bounds exactly when the list has it. -/
theorem hasSortedNameLoop_iff {names : List String} {value : String}
    (hsorted : names.Pairwise textLe) {lower upper : Int} (hlower : 0 ≤ lower)
    (hupper : upper < names.length)
    (hbounds : ∀ i (h : i < names.length), names[i] = value → lower ≤ i ∧ (i : Int) ≤ upper) :
    hasSortedNameLoop names value lower upper = true ↔ value ∈ names := by
  induction hsize : (upper + 1 - lower).toNat using Nat.strong_induction_on
    generalizing lower upper with
  | _ size ih =>
    rw [hasSortedNameLoop]
    split
    · rename_i hle
      dsimp only
      obtain ⟨middle, hmiddle⟩ : ∃ middle : Nat, lower + (upper - lower) / 2 = middle :=
        ⟨(lower + (upper - lower) / 2).toNat, by omega⟩
      have hlt : middle < names.length := by omega
      rw [hmiddle, Int.toNat_natCast, List.getElem?_eq_getElem hlt]
      simp only [Option.some.injEq, Option.any_some, decide_eq_true_eq]
      by_cases hfound : names[middle] = value
      · rw [if_pos hfound]
        exact ⟨fun _ => hfound ▸ List.getElem_mem hlt, fun _ => rfl⟩
      · rw [if_neg hfound]
        by_cases hless : textLt names[middle] value
        · rw [if_pos hless]
          refine ih _ (by omega) (by omega) hupper (fun i hi hvalue => ?_) rfl
          have hbound := hbounds i hi hvalue
          have hafter : ¬ i ≤ middle := by
            intro hcon
            have hsmall := textLe_getElem hsorted hi hlt hcon
            rw [hvalue] at hsmall
            exact hless hsmall
          omega
        · rw [if_neg hless]
          have hgreater : textLe value names[middle] := not_not.1 hless
          refine ih _ (by omega) hlower (by omega) (fun i hi hvalue => ?_) rfl
          have hbound := hbounds i hi hvalue
          have hbefore : ¬ middle ≤ i := by
            intro hcon
            have hlarge := textLe_getElem hsorted hlt hi hcon
            rw [hvalue] at hlarge
            exact hfound (textLe_antisymm _ _ hlarge hgreater)
          omega
    · rename_i hempty
      constructor
      · intro h
        cases h
      · intro hmem
        obtain ⟨i, hi, hvalue⟩ := List.getElem_of_mem hmem
        have hbound := hbounds i hi hvalue
        omega

theorem hasSortedName_iff {names : List String} (hsorted : names.Pairwise textLe)
    (value : String) : hasSortedName names value = true ↔ value ∈ names :=
  hasSortedNameLoop_iff hsorted le_rfl (by omega) fun i hi _ => by omega

/-! ## The tracker -/

inductive ExactToolRepeatAction where
  | advisory | terminated
  deriving DecidableEq, Repr

structure ExactToolRepeatObservation where
  action : Option ExactToolRepeatAction
  consecutiveCount : Nat
  block : Bool
  deriving DecidableEq, Repr

structure ExactToolRepeatAdvisory where
  toolName : String
  consecutiveCount : Nat
  deriving DecidableEq, Repr

/-- `ExactToolRepeatTracker`; the objects of Tool calls are numbered. -/
structure ExactToolRepeatTracker where
  trackedToolName : Option String
  canonicalArguments : Option (List UInt16)
  consecutiveCount : Nat
  advisory : Option ExactToolRepeatAdvisory
  terminated : Bool
  batchCalls : List Nat
  nextBatchCall : Nat

/-- `Array.prototype.indexOf` from an index on. -/
def indexFrom (calls : List Nat) (call start : Nat) : Option Nat :=
  let index := start + (calls.drop start).findIdx (· = call)
  if index < calls.length then some index else none

namespace ExactToolRepeatTracker

def new : ExactToolRepeatTracker := ⟨none, none, 0, none, false, [], 0⟩

def resetSequence (tracker : ExactToolRepeatTracker) : ExactToolRepeatTracker :=
  { tracker with
    trackedToolName := none
    canonicalArguments := none
    consecutiveCount := 0
    advisory := none }

/-- The first line of `beginAssistantMessage` and of `finishAssistantMessage`. -/
def closeBatch (tracker : ExactToolRepeatTracker) : ExactToolRepeatTracker :=
  if !tracker.terminated && tracker.nextBatchCall < tracker.batchCalls.length then
    tracker.resetSequence
  else tracker

def beginAssistantMessage (tracker : ExactToolRepeatTracker) (toolCalls : List Nat) :
    ExactToolRepeatTracker :=
  { tracker.closeBatch with batchCalls := toolCalls, nextBatchCall := 0 }

def finishAssistantMessage (tracker : ExactToolRepeatTracker) : ExactToolRepeatTracker :=
  { tracker.closeBatch with batchCalls := [], nextBatchCall := 0 }

def reset (tracker : ExactToolRepeatTracker) : ExactToolRepeatTracker :=
  { tracker.resetSequence with batchCalls := [], nextBatchCall := 0, terminated := false }

/-- The lines of `observe` that move the cursor. -/
def locate (tracker : ExactToolRepeatTracker) (toolCall : Nat) : ExactToolRepeatTracker :=
  let sourceIndex := indexFrom tracker.batchCalls toolCall tracker.nextBatchCall
  let located := if sourceIndex ≠ some tracker.nextBatchCall then tracker.resetSequence else tracker
  { located with nextBatchCall :=
      match sourceIndex with
      | none => tracker.batchCalls.length
      | some index => index + 1 }

/-- The lines of `observe` that count a call. -/
def count (policy : CapturedExactToolRepeatPolicy) (tracker : ExactToolRepeatTracker)
    (toolName : String) (canonicalArguments : List UInt16) : ExactToolRepeatTracker :=
  if some toolName = tracker.trackedToolName ∧
      some canonicalArguments = tracker.canonicalArguments then
    { tracker with
      consecutiveCount := min (tracker.consecutiveCount + 1) policy.terminationThreshold }
  else
    { tracker with
      trackedToolName := some toolName
      canonicalArguments := some canonicalArguments
      consecutiveCount := 1
      advisory := none }

/-- `observe`, on arguments that are JSON. -/
def observe (policy : CapturedExactToolRepeatPolicy) (tracker : ExactToolRepeatTracker)
    (toolCall : Nat) (toolName : String) (argumentsValue : JsonValue) :
    Option ExactToolRepeatObservation × ExactToolRepeatTracker :=
  if tracker.terminated then (some ⟨none, tracker.consecutiveCount, true⟩, tracker)
  else
    let located := tracker.locate toolCall
    if hasSortedName policy.exemptToolNames toolName then (none, located)
    else
      let counted := located.count policy toolName (canonicalizeJsonValue argumentsValue)
      if policy.terminationThreshold ≤ counted.consecutiveCount then
        (some ⟨some .terminated, counted.consecutiveCount, true⟩,
          { counted with terminated := true })
      else if counted.consecutiveCount = policy.advisoryThreshold then
        (some ⟨some .advisory, counted.consecutiveCount, false⟩,
          { counted with advisory := some ⟨toolName, counted.consecutiveCount⟩ })
      else (none, counted)

end ExactToolRepeatTracker

/-! ## What a tracker is told -/

inductive TrackerCall where
  | beginAssistantMessage (toolCalls : List Nat)
  | observe (toolCall : Nat) (toolName : String) (argumentsValue : JsonValue)
  | finishAssistantMessage
  | reset
  deriving DecidableEq

/-- The tracker after one call. -/
def ExactToolRepeatTracker.step (policy : CapturedExactToolRepeatPolicy)
    (tracker : ExactToolRepeatTracker) : TrackerCall → ExactToolRepeatTracker
  | .beginAssistantMessage toolCalls => tracker.beginAssistantMessage toolCalls
  | .observe toolCall toolName argumentsValue =>
    (tracker.observe policy toolCall toolName argumentsValue).2
  | .finishAssistantMessage => tracker.finishAssistantMessage
  | .reset => tracker.reset

/-- The tracker after some calls. -/
def ExactToolRepeatTracker.run (policy : CapturedExactToolRepeatPolicy)
    (calls : List TrackerCall) : ExactToolRepeatTracker :=
  calls.foldl (fun tracker call => tracker.step policy call) .new

/-! ## The plain history -/

section History

/-- What is left of the calls of the current assistant message, by a history that begins
with its last event.  An observed call and the calls before it are no longer left, and a
call that is not among those left is out of order and leaves nothing. -/
def leftOf : List TrackerCall → List Nat
  | [] => []
  | .beginAssistantMessage toolCalls :: _ => toolCalls
  | .observe toolCall _ _ :: older => ((leftOf older).dropWhile (· ≠ toolCall)).tail
  | .finishAssistantMessage :: _ => []
  | .reset :: _ => []

/-- Whether an event ends the row before it: a call is left that was never observed, or the
observed call is not the next of those left. -/
def interrupts (left : List Nat) : TrackerCall → Bool
  | .beginAssistantMessage _ => !left.isEmpty
  | .observe toolCall _ _ => left.head? ≠ some toolCall
  | .finishAssistantMessage => !left.isEmpty
  | .reset => true

/-- What makes two calls exact repeats: the name and the canonical arguments. -/
abbrev RepeatKey : Type := String × List UInt16

/-- The calls observed since the last interruption, the last one first, without those whose
names are exempt. -/
def stretch (exempt : List String) : List TrackerCall → List RepeatKey
  | [] => []
  | event :: older =>
    let kept := if interrupts (leftOf older) event then [] else stretch exempt older
    match event with
    | .observe _ toolName argumentsValue =>
      if toolName ∈ exempt then kept
      else (toolName, canonicalizeJsonValue argumentsValue) :: kept
    | _ => kept

/-- How many of the last calls of a stretch are equal. -/
def inRow (calls : List RepeatKey) : Nat :=
  (calls.takeWhile fun call => some call = calls.head?).length

/-- Whether the last event is a call that makes so many equal calls in a row. -/
def Completes (exempt : List String) (n : Nat) : List TrackerCall → Prop
  | [] => False
  | event :: older =>
    (∃ toolCall toolName argumentsValue, event = .observe toolCall toolName argumentsValue ∧
      toolName ∉ exempt) ∧ inRow (stretch exempt (event :: older)) = n

/-- Whether, since the last reset, a call has made so many equal calls in a row. -/
def Terminated (exempt : List String) (n : Nat) (history : List TrackerCall) : Prop :=
  ∃ recent older event, history = recent ++ event :: older ∧ .reset ∉ recent ∧
    Completes exempt n (event :: older)

theorem inRow_cons (call : RepeatKey) (calls : List RepeatKey) :
    inRow (call :: calls) = if calls.head? = some call then inRow calls + 1 else 1 := by
  have hfirst : inRow (call :: calls) =
      (calls.takeWhile fun other => some other = some call).length + 1 := by
    simp [inRow]
  rw [hfirst]
  split
  · rename_i hhead
    rw [inRow, hhead]
  · rename_i hhead
    cases calls with
    | nil => rfl
    | cons other rest =>
      rw [List.takeWhile_cons_of_neg (by simpa using hhead)]
      rfl

theorem finishes_iff {exempt : List String} {n : Nat} {toolCall : Nat} {toolName : String}
    {argumentsValue : JsonValue} {older : List TrackerCall} :
    Completes exempt n (.observe toolCall toolName argumentsValue :: older) ↔
      toolName ∉ exempt ∧
        inRow (stretch exempt (.observe toolCall toolName argumentsValue :: older)) = n := by
  rw [Completes]
  constructor
  · rintro ⟨⟨_, _, _, heq, hname⟩, hrow⟩
    cases heq
    exact ⟨hname, hrow⟩
  · rintro ⟨hname, hrow⟩
    exact ⟨⟨_, _, _, rfl, hname⟩, hrow⟩

theorem not_terminated_nil {exempt : List String} {n : Nat} : ¬ Terminated exempt n [] := by
  rintro ⟨recent, older, event, h, -⟩
  simp at h

/-- A row is complete from the call that completes it to the next reset. -/
theorem terminated_cons {exempt : List String} {n : Nat} {event : TrackerCall}
    {older : List TrackerCall} :
    Terminated exempt n (event :: older) ↔
      Completes exempt n (event :: older) ∨ event ≠ .reset ∧ Terminated exempt n older := by
  constructor
  · rintro ⟨recent, before, completing, h, hreset, hcompletes⟩
    cases recent with
    | nil =>
      cases h
      exact Or.inl hcompletes
    | cons first recent =>
      cases h
      rw [List.mem_cons, not_or] at hreset
      exact Or.inr ⟨fun heq => hreset.1 heq.symm, recent, before, completing, rfl, hreset.2,
        hcompletes⟩
  · rintro (h | ⟨hevent, recent, before, completing, rfl, hreset, hcompletes⟩)
    · exact ⟨[], older, event, rfl, by simp, h⟩
    · refine ⟨event :: recent, before, completing, rfl, ?_, hcompletes⟩
      rw [List.mem_cons, not_or]
      exact ⟨fun heq => hevent heq.symm, hreset⟩

end History

/-! ## The tracker agrees with the history -/

section Agreement

variable {policy : CapturedExactToolRepeatPolicy} {exempt : List String}
  {tracker : ExactToolRepeatTracker} {history : List TrackerCall}

/-- The tracker holds the last call of a row and how often it was made. -/
structure ExactToolRepeatTracker.Tracks (tracker : ExactToolRepeatTracker) (row : List RepeatKey) :
    Prop where
  toolName : tracker.trackedToolName = row.head?.map Prod.fst
  canonicalArguments : tracker.canonicalArguments = row.head?.map Prod.snd
  count : tracker.consecutiveCount = inRow row

/-- The tracker has not stopped the run, and agrees with the history. -/
structure ExactToolRepeatTracker.Follows (policy : CapturedExactToolRepeatPolicy)
    (exempt : List String) (tracker : ExactToolRepeatTracker) (history : List TrackerCall) :
    Prop where
  alive : tracker.terminated = false
  cursor : tracker.nextBatchCall ≤ tracker.batchCalls.length
  left : tracker.batchCalls.drop tracker.nextBatchCall = leftOf history
  row : tracker.Tracks (stretch exempt history)
  below : inRow (stretch exempt history) < policy.terminationThreshold

theorem tracks_resetSequence (tracker : ExactToolRepeatTracker) :
    tracker.resetSequence.Tracks [] := ⟨rfl, rfl, rfl⟩

theorem ExactToolRepeatTracker.Tracks.count_row {row : List RepeatKey} (h : tracker.Tracks row)
    (hbelow : inRow row < policy.terminationThreshold) (toolName : String)
    (canonicalArguments : List UInt16) :
    (tracker.count policy toolName canonicalArguments).Tracks
      ((toolName, canonicalArguments) :: row) := by
  have hsame : (some toolName = tracker.trackedToolName ∧
      some canonicalArguments = tracker.canonicalArguments) ↔
        row.head? = some (toolName, canonicalArguments) := by
    rw [h.toolName, h.canonicalArguments]
    cases row.head? with
    | none => simp
    | some call => simp [Prod.ext_iff, eq_comm]
  unfold ExactToolRepeatTracker.count
  by_cases hrepeat : some toolName = tracker.trackedToolName ∧
      some canonicalArguments = tracker.canonicalArguments
  · rw [if_pos hrepeat]
    refine ⟨hrepeat.1.symm, hrepeat.2.symm, ?_⟩
    rw [inRow_cons, if_pos (hsame.1 hrepeat), h.count]
    exact min_eq_left hbelow
  · rw [if_neg hrepeat]
    refine ⟨rfl, rfl, ?_⟩
    rw [inRow_cons, if_neg fun hhead => hrepeat (hsame.2 hhead)]

/-- The cursor is moved behind the call among those left, or behind all of them. -/
theorem indexFrom_spec (calls : List Nat) (call start : Nat) (hstart : start ≤ calls.length) :
    (indexFrom calls call start = some start ↔ (calls.drop start).head? = some call) ∧
      (indexFrom calls call start).all (fun index => index < calls.length) = true ∧
      calls.drop (match indexFrom calls call start with
        | none => calls.length
        | some index => index + 1) = ((calls.drop start).dropWhile (· ≠ call)).tail := by
  have hdrop : (calls.drop start).dropWhile (· ≠ call) =
      calls.drop (start + (calls.drop start).findIdx (· = call)) := by
    rw [List.dropWhile_eq_drop_findIdx_not, List.drop_drop]
    simp
  unfold indexFrom
  dsimp only
  rw [hdrop, List.tail_drop]
  split
  · rename_i hlt
    refine ⟨?_, by simpa using hlt, rfl⟩
    rw [Option.some.injEq, Nat.add_eq_left]
    cases hleft : calls.drop start with
    | nil =>
      have hlength := congrArg List.length hleft
      rw [List.length_drop, List.length_nil] at hlength
      omega
    | cons first rest => simp [List.findIdx_cons, Bool.cond_eq_ite]
  · rename_i hge
    have hall : calls.drop (start + (calls.drop start).findIdx (· = call) + 1) = [] :=
      List.drop_eq_nil_of_le (by omega)
    refine ⟨?_, rfl, by rw [hall, List.drop_length]⟩
    constructor
    · intro h
      cases h
    · intro hhead
      exfalso
      cases hleft : calls.drop start with
      | nil => simp [hleft] at hhead
      | cons first rest =>
        have hlength := congrArg List.length hleft
        rw [List.length_drop, List.length_cons] at hlength
        rw [hleft, List.head?_cons, Option.some.injEq] at hhead
        rw [hleft, List.findIdx_cons, hhead] at hge
        simp at hge
        omega

namespace ExactToolRepeatTracker

/-- The tracker has stopped the run, or follows a history in which nothing is to stop it. -/
def Agrees (policy : CapturedExactToolRepeatPolicy) (exempt : List String)
    (tracker : ExactToolRepeatTracker) (history : List TrackerCall) : Prop :=
  (tracker.Follows policy exempt history ∧
      ¬ Terminated exempt policy.terminationThreshold history) ∨
    (tracker.terminated = true ∧ tracker.consecutiveCount = policy.terminationThreshold ∧
      Terminated exempt policy.terminationThreshold history)

theorem agrees_new (policy : CapturedExactToolRepeatPolicy) (exempt : List String) :
    new.Agrees policy exempt [] := by
  have hpos := policy.advisory_pos.trans policy.above
  exact Or.inl ⟨⟨rfl, le_rfl, rfl, ⟨rfl, rfl, rfl⟩, hpos⟩, not_terminated_nil⟩

/-- Only a call can complete a row. -/
theorem not_completes {n : Nat} {event : TrackerCall}
    (hevent : ∀ toolCall toolName argumentsValue,
      event ≠ .observe toolCall toolName argumentsValue) :
    ¬ Completes exempt n (event :: history) := by
  rintro ⟨⟨toolCall, toolName, argumentsValue, heq, -⟩, -⟩
  exact hevent toolCall toolName argumentsValue heq

/-- The first line of `beginAssistantMessage` ends the row as an interruption does. -/
theorem Follows.closeBatch_row (h : tracker.Follows policy exempt history) :
    tracker.closeBatch.Tracks (if !(leftOf history).isEmpty then [] else stretch exempt history) ∧
      tracker.closeBatch.terminated = false := by
  have hleft : (leftOf history).isEmpty = false ↔
      tracker.nextBatchCall < tracker.batchCalls.length := by
    rw [← h.left, List.isEmpty_eq_false_iff, ne_eq, List.drop_eq_nil_iff, not_le]
  unfold closeBatch
  by_cases hopen : tracker.nextBatchCall < tracker.batchCalls.length
  · rw [hleft.2 hopen, h.alive, if_pos (by simpa using hopen),
      if_pos Bool.not_false]
    exact ⟨tracks_resetSequence tracker, h.alive⟩
  · have hempty : (leftOf history).isEmpty = true := by
      rw [← Bool.not_eq_false, hleft]
      exact hopen
    rw [hempty, if_neg (by simp [hopen]), if_neg (by simp)]
    exact ⟨h.row, h.alive⟩

/-- The calls of a new message, or none, after a row has been kept or ended. -/
theorem Follows.message (h : tracker.Follows policy exempt history) (toolCalls : List Nat)
    {event : TrackerCall} (hleft : leftOf (event :: history) = toolCalls)
    (hstretch : stretch exempt (event :: history) =
      if !(leftOf history).isEmpty then [] else stretch exempt history) :
    Follows policy exempt { tracker.closeBatch with batchCalls := toolCalls, nextBatchCall := 0 }
      (event :: history) := by
  obtain ⟨hrow, halive⟩ := h.closeBatch_row
  refine ⟨halive, Nat.zero_le _, hleft.symm, ?_, ?_⟩
  · rw [hstretch]
    exact ⟨hrow.toolName, hrow.canonicalArguments, hrow.count⟩
  · rw [hstretch]
    have hpos := policy.advisory_pos.trans policy.above
    split
    · exact hpos
    · exact h.below

/-- The row a call is counted in: none where it is not the next of those left. -/
theorem Follows.locate (h : tracker.Follows policy exempt history) (toolCall : Nat)
    (toolName : String) (argumentsValue : JsonValue) :
    (tracker.locate toolCall).terminated = false ∧
      (tracker.locate toolCall).nextBatchCall ≤ (tracker.locate toolCall).batchCalls.length ∧
      (tracker.locate toolCall).batchCalls.drop (tracker.locate toolCall).nextBatchCall =
        leftOf (.observe toolCall toolName argumentsValue :: history) ∧
      (tracker.locate toolCall).Tracks
        (if interrupts (leftOf history) (.observe toolCall toolName argumentsValue) then []
          else stretch exempt history) := by
  obtain ⟨hnext, hbound, hdrop⟩ :=
    indexFrom_spec tracker.batchCalls toolCall tracker.nextBatchCall h.cursor
  have hbatch : (tracker.locate toolCall).batchCalls = tracker.batchCalls := by
    unfold ExactToolRepeatTracker.locate
    dsimp only
    split <;> rfl
  rw [h.left] at hnext hdrop
  refine ⟨?_, ?_, ?_, ?_⟩
  · unfold ExactToolRepeatTracker.locate
    dsimp only
    split <;> exact h.alive
  · rw [hbatch]
    unfold ExactToolRepeatTracker.locate
    dsimp only
    cases hindex : indexFrom tracker.batchCalls toolCall tracker.nextBatchCall with
    | none => exact le_rfl
    | some index =>
      rw [hindex, Option.all_some, decide_eq_true_eq] at hbound
      exact hbound
  · rw [hbatch, leftOf, ← hdrop]
    rfl
  · unfold ExactToolRepeatTracker.locate interrupts
    dsimp only
    by_cases hturn : (leftOf history).head? = some toolCall
    · rw [if_neg (not_not.2 (hnext.2 hturn)), if_neg (by simpa using hturn)]
      exact ⟨h.row.toolName, h.row.canonicalArguments, h.row.count⟩
    · rw [if_pos fun hindex => hturn (hnext.1 hindex), if_pos (by simpa using hturn)]
      exact ⟨rfl, rfl, rfl⟩

/-- Counting a call moves nothing but the row. -/
theorem count_frame (policy : CapturedExactToolRepeatPolicy) (tracker : ExactToolRepeatTracker)
    (toolName : String) (canonicalArguments : List UInt16) :
    (tracker.count policy toolName canonicalArguments).terminated = tracker.terminated ∧
      (tracker.count policy toolName canonicalArguments).batchCalls = tracker.batchCalls ∧
      (tracker.count policy toolName canonicalArguments).nextBatchCall =
        tracker.nextBatchCall := by
  unfold ExactToolRepeatTracker.count
  split <;> exact ⟨rfl, rfl, rfl⟩

theorem stretch_observe (exempt : List String) (toolCall : Nat) (toolName : String)
    (argumentsValue : JsonValue) (history : List TrackerCall) :
    stretch exempt (.observe toolCall toolName argumentsValue :: history) =
      if toolName ∈ exempt then
        if interrupts (leftOf history) (.observe toolCall toolName argumentsValue) then []
        else stretch exempt history
      else (toolName, canonicalizeJsonValue argumentsValue) ::
        if interrupts (leftOf history) (.observe toolCall toolName argumentsValue) then []
        else stretch exempt history := by
  rw [stretch]

/-- An exempt call is answered with nothing, and the row is left as it is. -/
theorem Follows.observe_exempt (h : tracker.Follows policy exempt history) (toolCall : Nat)
    {toolName : String} (argumentsValue : JsonValue)
    (hsearch : hasSortedName policy.exemptToolNames toolName = true) (hname : toolName ∈ exempt) :
    (tracker.observe policy toolCall toolName argumentsValue).1 = none ∧
      (tracker.observe policy toolCall toolName argumentsValue).2.Follows policy exempt
        (.observe toolCall toolName argumentsValue :: history) := by
  obtain ⟨halive, hcursor, hleft, hrow⟩ := h.locate toolCall toolName argumentsValue
  rw [observe, h.alive, if_neg Bool.false_ne_true, if_pos hsearch]
  refine ⟨rfl, halive, hcursor, hleft, ?_, ?_⟩
  · rw [stretch_observe, if_pos hname]
    exact hrow
  · rw [stretch_observe, if_pos hname]
    have hpos := policy.advisory_pos.trans policy.above
    split
    · exact hpos
    · exact h.below

/-- A call that is not exempt is answered by the length of the row it makes. -/
theorem Follows.observe_counted (h : tracker.Follows policy exempt history) (toolCall : Nat)
    {toolName : String} (argumentsValue : JsonValue) {n : Nat}
    (hsearch : hasSortedName policy.exemptToolNames toolName = false) (hname : toolName ∉ exempt)
    (hn : inRow (stretch exempt (.observe toolCall toolName argumentsValue :: history)) = n) :
    (n = policy.terminationThreshold ∧
      (tracker.observe policy toolCall toolName argumentsValue).1 =
        some ⟨some .terminated, n, true⟩ ∧
      (tracker.observe policy toolCall toolName argumentsValue).2.terminated = true ∧
      (tracker.observe policy toolCall toolName argumentsValue).2.consecutiveCount = n) ∨
    (n < policy.terminationThreshold ∧
      (tracker.observe policy toolCall toolName argumentsValue).1 =
        (if n = policy.advisoryThreshold then some ⟨some .advisory, n, false⟩ else none) ∧
      (tracker.observe policy toolCall toolName argumentsValue).2.Follows policy exempt
        (.observe toolCall toolName argumentsValue :: history)) := by
  obtain ⟨halive, hcursor, hleft, hrow⟩ := h.locate toolCall toolName argumentsValue
  have hstretch := stretch_observe exempt toolCall toolName argumentsValue history
  have hpos := policy.advisory_pos.trans policy.above
  have hbelow : inRow (if interrupts (leftOf history)
      (.observe toolCall toolName argumentsValue) then [] else stretch exempt history) <
        policy.terminationThreshold := by
    split
    · exact hpos
    · exact h.below
  rw [if_neg hname] at hstretch
  generalize (if interrupts (leftOf history) (.observe toolCall toolName argumentsValue) then []
    else stretch exempt history) = row at hrow hstretch hbelow
  have hcounted := hrow.count_row hbelow toolName (canonicalizeJsonValue argumentsValue)
  obtain ⟨hterminated, hbatch, hnext⟩ := count_frame policy (tracker.locate toolCall) toolName
    (canonicalizeJsonValue argumentsValue)
  rw [hstretch] at hn
  have hcount := hcounted.count.trans hn
  have hle : n ≤ policy.terminationThreshold := by
    rw [← hn, inRow_cons]
    split
    · exact hbelow
    · exact hpos
  -- the tracker that has counted the call, whatever advisory it holds
  have hfollows : n < policy.terminationThreshold → ∀ advisory,
      Follows policy exempt
        { (tracker.locate toolCall).count policy toolName (canonicalizeJsonValue argumentsValue)
          with advisory := advisory }
        (.observe toolCall toolName argumentsValue :: history) := by
    intro hlt advisory
    refine ⟨hterminated.trans halive, ?_, ?_, ?_, ?_⟩
    · exact hnext.trans_le (hcursor.trans_eq (congrArg List.length hbatch.symm))
    · exact (congrArg₂ List.drop hnext hbatch).trans hleft
    · rw [hstretch]
      exact ⟨hcounted.toolName, hcounted.canonicalArguments, hcounted.count⟩
    · rw [hstretch, hn]
      exact hlt
  rw [observe, h.alive, if_neg Bool.false_ne_true, if_neg (by simp [hsearch])]
  subst hcount
  dsimp only
  split
  · rename_i hfull
    exact Or.inl ⟨le_antisymm hle hfull, rfl, rfl, rfl⟩
  · rename_i hfull
    refine Or.inr ⟨not_le.1 hfull, ?_⟩
    split
    · exact ⟨rfl, hfollows (not_le.1 hfull) _⟩
    · exact ⟨rfl, hfollows (not_le.1 hfull) _⟩

/-- One call keeps the tracker in agreement with the history. -/
theorem agrees_step (hexempt : ∀ toolName,
      hasSortedName policy.exemptToolNames toolName = true ↔ toolName ∈ exempt)
    (h : tracker.Agrees policy exempt history) (call : TrackerCall) :
    (tracker.step policy call).Agrees policy exempt (call :: history) := by
  rcases h with ⟨hfollows, hrunning⟩ | ⟨hstopped, hcount, hterminated⟩
  · cases call with
    | beginAssistantMessage toolCalls =>
      refine Or.inl ⟨hfollows.message toolCalls rfl rfl, ?_⟩
      rw [terminated_cons, not_or]
      exact ⟨not_completes (by simp), fun hcon => hrunning hcon.2⟩
    | finishAssistantMessage =>
      refine Or.inl ⟨hfollows.message [] rfl rfl, ?_⟩
      rw [terminated_cons, not_or]
      exact ⟨not_completes (by simp), fun hcon => hrunning hcon.2⟩
    | reset =>
      have hpos := policy.advisory_pos.trans policy.above
      refine Or.inl ⟨⟨rfl, le_rfl, rfl, ⟨rfl, rfl, rfl⟩, hpos⟩, ?_⟩
      rw [terminated_cons, not_or]
      exact ⟨not_completes (by simp), fun hcon => hcon.1 rfl⟩
    | observe toolCall toolName argumentsValue =>
      by_cases hname : toolName ∈ exempt
      · refine Or.inl ⟨(hfollows.observe_exempt toolCall argumentsValue
          ((hexempt toolName).2 hname) hname).2, ?_⟩
        rw [terminated_cons, finishes_iff, not_or]
        exact ⟨fun hcon => hcon.1 hname, fun hcon => hrunning hcon.2⟩
      · have hsearch : hasSortedName policy.exemptToolNames toolName = false := by
          rw [← Bool.not_eq_true, hexempt]
          exact hname
        rcases hfollows.observe_counted toolCall argumentsValue hsearch hname rfl with
          ⟨hn, -, hstopped, hcount⟩ | ⟨hn, -, hnext⟩
        · refine Or.inr ⟨hstopped, hcount.trans hn, ?_⟩
          rw [terminated_cons, finishes_iff]
          exact Or.inl ⟨hname, hn⟩
        · refine Or.inl ⟨hnext, ?_⟩
          rw [terminated_cons, finishes_iff, not_or]
          exact ⟨fun hcon => hn.ne hcon.2, fun hcon => hrunning hcon.2⟩
  · -- a tracker that has stopped the run only answers to a reset
    have hclosed : tracker.closeBatch = tracker := by
      rw [closeBatch, hstopped]
      rfl
    cases call with
    | beginAssistantMessage toolCalls =>
      refine Or.inr ⟨?_, ?_, terminated_cons.2 (Or.inr ⟨by simp, hterminated⟩)⟩
      · exact (congrArg terminated hclosed).trans hstopped
      · exact (congrArg consecutiveCount hclosed).trans hcount
    | finishAssistantMessage =>
      refine Or.inr ⟨?_, ?_, terminated_cons.2 (Or.inr ⟨by simp, hterminated⟩)⟩
      · exact (congrArg terminated hclosed).trans hstopped
      · exact (congrArg consecutiveCount hclosed).trans hcount
    | reset =>
      have hpos := policy.advisory_pos.trans policy.above
      refine Or.inl ⟨⟨rfl, le_rfl, rfl, ⟨rfl, rfl, rfl⟩, hpos⟩, ?_⟩
      rw [terminated_cons, not_or]
      exact ⟨not_completes (by simp), fun hcon => hcon.1 rfl⟩
    | observe toolCall toolName argumentsValue =>
      have hsame : tracker.step policy (.observe toolCall toolName argumentsValue) = tracker := by
        rw [step, observe, hstopped, if_pos rfl]
      rw [hsame]
      exact Or.inr ⟨hstopped, hcount, terminated_cons.2 (Or.inr ⟨by simp, hterminated⟩)⟩

theorem agrees_run (hexempt : ∀ toolName,
      hasSortedName policy.exemptToolNames toolName = true ↔ toolName ∈ exempt)
    (calls : List TrackerCall) : (run policy calls).Agrees policy exempt calls.reverse := by
  induction calls using List.reverseRecOn with
  | nil => exact agrees_new policy exempt
  | append_singleton calls call ih =>
    rw [List.reverse_concat, run, List.foldl_concat]
    exact agrees_step hexempt ih call

end ExactToolRepeatTracker

end Agreement

/-! ## Every answer -/

/-- What a captured policy keeps of the policy it was captured from. -/
theorem captureExactToolRepeatPolicy_spec {draft : GameExactToolRepeatPolicy}
    {maxTools : Option Nat} {policy : CapturedExactToolRepeatPolicy}
    (h : captureExactToolRepeatPolicy draft maxTools = .ok policy) :
    (policy.advisoryThreshold : Int) = draft.advisoryThreshold ∧
      (policy.terminationThreshold : Int) = draft.terminationThreshold ∧
      ∀ toolName, hasSortedName policy.exemptToolNames toolName = true ↔
        toolName ∈ draft.exemptToolNames.getD [] := by
  unfold captureExactToolRepeatPolicy at h
  dsimp only at h
  split at h
  · rename_i hvalid
    have hadvisory := hvalid.1
    have htermination := hvalid.2.1
    simp only [isPositiveSafeInteger, Bool.and_eq_true, decide_eq_true_eq] at hadvisory htermination
    cases h
    refine ⟨Int.toNat_of_nonneg (by omega), Int.toNat_of_nonneg (by omega), fun toolName => ?_⟩
    rw [hasSortedName_iff (List.pairwise_insertionSort textLe _)]
    exact List.mem_insertionSort textLe
  · cases h

/-- A tracker stops the run at the call that makes as many equal calls in a row as the policy
allows, advises at the call that makes as many as the policy warns at, and answers every call
after it has stopped the run by refusing it, until it is reset. -/
theorem exact_tool_repeat_is_exact {draft : GameExactToolRepeatPolicy} {maxTools : Option Nat}
    {policy : CapturedExactToolRepeatPolicy}
    (h : captureExactToolRepeatPolicy draft maxTools = .ok policy) (calls : List TrackerCall)
    (toolCall : Nat) (toolName : String) (argumentsValue : JsonValue) :
    let exempt := draft.exemptToolNames.getD []
    let event := TrackerCall.observe toolCall toolName argumentsValue
    let row : Int := inRow (stretch exempt (event :: calls.reverse))
    let stopped := Terminated exempt policy.terminationThreshold calls.reverse
    let answer := ((ExactToolRepeatTracker.run policy calls).observe policy toolCall toolName
      argumentsValue).1
    (answer.bind (·.action) = some .terminated ↔
      ¬ stopped ∧ toolName ∉ exempt ∧ row = draft.terminationThreshold) ∧
    (answer.bind (·.action) = some .advisory ↔
      ¬ stopped ∧ toolName ∉ exempt ∧ row = draft.advisoryThreshold) ∧
    (stopped → answer = some ⟨none, policy.terminationThreshold, true⟩) ∧
    (answer.any (·.block) = true ↔
      stopped ∨ toolName ∉ exempt ∧ row = draft.terminationThreshold) := by
  intro exempt event row stopped answer
  obtain ⟨hadvisory, htermination, hexempt⟩ := captureExactToolRepeatPolicy_spec h
  have habove : (policy.advisoryThreshold : Int) < policy.terminationThreshold :=
    Int.ofNat_lt.2 policy.above
  rw [← hadvisory, ← htermination]
  rcases ExactToolRepeatTracker.agrees_run hexempt calls with
    ⟨hfollows, hrunning⟩ | ⟨hterminated, hcount, hstopped⟩
  · have hrunning : ¬ stopped := hrunning
    by_cases hname : toolName ∈ exempt
    · have hanswer : answer = none := (hfollows.observe_exempt toolCall argumentsValue
        ((hexempt toolName).2 hname) hname).1
      simp [hanswer, hrunning, hname]
    · have hsearch : hasSortedName policy.exemptToolNames toolName = false := by
        rw [← Bool.not_eq_true, hexempt]
        exact hname
      rcases hfollows.observe_counted toolCall argumentsValue hsearch hname rfl with
        ⟨hrow, htold, -⟩ | ⟨hrow, htold, -⟩
      · have hfull : row = policy.terminationThreshold := congrArg Int.ofNat hrow
        have hanswer : answer = some ⟨some .terminated, row.toNat, true⟩ := htold
        clear_value row answer stopped
        simp [hanswer, hrunning, hname, hfull, habove.ne']
      · have hless : row < policy.terminationThreshold := Int.ofNat_lt.2 hrow
        have hanswer : answer = if row = policy.advisoryThreshold then
            some ⟨some .advisory, row.toNat, false⟩ else none := by
          rw [show answer = _ from htold]
          refine if_congr ?_ rfl rfl
          exact Int.ofNat_inj.symm
        clear_value row answer stopped
        by_cases hwarn : row = policy.advisoryThreshold
        · simp [hanswer, hrunning, hname, hwarn, habove.ne]
        · simp [hanswer, hrunning, hname, hwarn, hless.ne]
  · have hanswer : answer = some ⟨none, policy.terminationThreshold, true⟩ := by
      show ((ExactToolRepeatTracker.run policy calls).observe policy toolCall toolName
        argumentsValue).1 = _
      rw [ExactToolRepeatTracker.observe, hterminated, if_pos rfl, hcount]
    have hstop : stopped := hstopped
    simp [hanswer, hstop]

/-- The last two of three calls in a message, with an exempt call between them. -/
theorem exact_tool_repeat_is_exact_pair :
    ∃ policy, captureExactToolRepeatPolicy ⟨1, 2, some ["wait"]⟩ (some 4) = .ok policy ∧
      ((ExactToolRepeatTracker.run policy
        [.beginAssistantMessage [0, 1, 2], .observe 0 "move" .null,
          .observe 1 "wait" .null]).observe policy 2 "move" .null).1.bind (·.action) = some .terminated := by
  obtain ⟨policy, hpolicy⟩ : ∃ policy,
      captureExactToolRepeatPolicy ⟨1, 2, some ["wait"]⟩ (some 4) = .ok policy := by
    unfold captureExactToolRepeatPolicy
    dsimp only
    rw [dif_pos (by decide +kernel)]
    exact ⟨_, rfl⟩
  refine ⟨policy, hpolicy, ?_⟩
  have hthreshold : policy.terminationThreshold = 2 :=
    Int.ofNat.inj (captureExactToolRepeatPolicy_spec hpolicy).2.1
  rw [(exact_tool_repeat_is_exact hpolicy
    [.beginAssistantMessage [0, 1, 2], .observe 0 "move" .null, .observe 1 "wait" .null]
    2 "move" .null).1, hthreshold]
  refine ⟨?_, by decide +kernel, by decide +kernel⟩
  simp only [List.reverse_cons, List.reverse_nil, List.nil_append, List.cons_append,
    terminated_cons, finishes_iff, not_or, not_and]
  refine ⟨fun hwait => absurd hwait (by decide +kernel), fun _ => ⟨fun _ => by decide +kernel,
    fun _ => ⟨ExactToolRepeatTracker.not_completes (by simp), fun _ => not_terminated_nil⟩⟩⟩

end OpenGameAgent
