import OpenGameAgent.Protocol.Fingerprints

/-!
# Admission of a value under budgets

`normalizeJsonValueWithin` of `packages/protocol/src/json.ts`: the copy of
`normalizeJson` with a depth and a number of bytes that it may not pass.  The bytes are
counted while the value is walked, by rules of their own, and never compared with a text.

* `jsonStringBytesLoop_eq` — the loop over the units of a string counts each pair once
  and each lone surrogate as an escape.
* `countedLoop_eq` — the frames count and refuse as the recursion `copyValue` does.
* `copyValue_eq_ok_iff` — what the recursion admits, and what it has counted then.
* `json_admission_budget_exact` — a value is admitted exactly when its depth and its
  canonical text fit, and the count is the UTF-8 length of that text.
-/

namespace OpenGameAgent

/-! ## The bytes of a string -/

section StringBytes

/-- `isSurrogatePair`: whether the unit at an index has its other half beside it. -/
def isSurrogatePair (value : List UInt16) (index : Nat) : Bool :=
  match value[index]? with
  | none => false
  | some unit =>
    if isHighSurrogate unit then value[index + 1]?.any isLowSurrogate
    else if isLowSurrogate unit then index ≠ 0 && value[index - 1]?.any isHighSurrogate
    else false

/-- The loop of `jsonStringBytes`, from an index and a count on. -/
def jsonStringBytesLoop (value : List UInt16) (index bytes : Nat) : Nat :=
  match _h : value[index]? with
  | none => bytes
  | some unit =>
    if unit = 0x22 || unit = 0x5c || unit = 0x08 || unit = 0x09 || unit = 0x0a ||
        unit = 0x0c || unit = 0x0d then
      jsonStringBytesLoop value (index + 1) (bytes + 2)
    else if unit ≤ 0x1f ||
        (0xd800 ≤ unit && unit ≤ 0xdfff && !isSurrogatePair value index) then
      jsonStringBytesLoop value (index + 1) (bytes + 6)
    else if unit ≤ 0x7f then jsonStringBytesLoop value (index + 1) (bytes + 1)
    else if unit ≤ 0x7ff then jsonStringBytesLoop value (index + 1) (bytes + 2)
    else if 0xd800 ≤ unit && unit ≤ 0xdbff then
      jsonStringBytesLoop value (index + 2) (bytes + 4)
    else jsonStringBytesLoop value (index + 1) (bytes + 3)
termination_by value.length - index
decreasing_by all_goals
  have hlt := (List.getElem?_eq_some_iff.1 _h).1
  omega

theorem surrogate_iff (u : UInt16) :
    (0xd800 ≤ u && u ≤ 0xdfff) = (isHighSurrogate u || isLowSurrogate u) := by
  have hhigh : (0xdbff : UInt16).toNat = 56319 := by decide
  have hlow : (0xdc00 : UInt16).toNat = 56320 := by decide
  rw [Bool.eq_iff_iff]
  simp only [isHighSurrogate, isLowSurrogate, Bool.and_eq_true, Bool.or_eq_true,
    decide_eq_true_eq, UInt16.le_iff_toNat_le, hhigh, hlow]
  have h1 : (0xd800 : UInt16).toNat = 55296 := by decide
  have h2 : (0xdfff : UInt16).toNat = 57343 := by decide
  omega

/-- No pair lies across an index: the walk has not stopped between its halves. -/
def BetweenPairs (value : List UInt16) (index : Nat) : Prop :=
  ∀ high low, index ≠ 0 → value[index - 1]? = some high → value[index]? = some low →
    isHighSurrogate high = true → isLowSurrogate low = false

theorem unitsBytes_cons (u : UInt16) (rest : List UInt16) :
    unitsBytes (u :: rest) =
      if isHighSurrogate u && rest.head?.any isLowSurrogate then 4 + unitsBytes rest.tail
      else unitBytes u + unitsBytes rest := by
  cases rest with
  | nil => simp [unitsBytes]
  | cons v rest => rw [unitsBytes]; rfl

/-- A unit that the walk stops at is half of a pair only as its first half. -/
theorem isSurrogatePair_eq {value : List UInt16} {index : Nat} (h : BetweenPairs value index)
    {unit : UInt16} (hunit : value[index]? = some unit) :
    isSurrogatePair value index =
      (isHighSurrogate unit && value[index + 1]?.any isLowSurrogate) := by
  simp only [isSurrogatePair, hunit]
  cases hhigh : isHighSurrogate unit with
  | true => simp
  | false =>
    cases hlow : isLowSurrogate unit with
    | false => simp
    | true =>
      by_cases hindex : index = 0
      · simp [hindex]
      · cases hbefore : value[index - 1]? with
        | none => simp
        | some high =>
          have hnot : isHighSurrogate high = false := by
            by_contra hcon
            have := h high unit hindex hbefore hunit (by simpa using hcon)
            simp [this] at hlow
          simp [hnot]

theorem betweenPairs_succ {value : List UInt16} {index : Nat} {unit : UInt16}
    (hunit : value[index]? = some unit)
    (hpair : (isHighSurrogate unit && value[index + 1]?.any isLowSurrogate) = false) :
    BetweenPairs value (index + 1) := by
  intro high low _ hbefore hat hhigh
  rw [Nat.add_sub_cancel, hunit] at hbefore
  cases hbefore
  rw [hhigh, hat] at hpair
  simpa using hpair

theorem betweenPairs_pair {value : List UInt16} {index : Nat} {low : UInt16}
    (hlow : value[index + 1]? = some low) (h : isLowSurrogate low = true) :
    BetweenPairs value (index + 2) := by
  intro high next _ hbefore _ hhigh
  rw [show index + 2 - 1 = index + 1 from rfl, hlow] at hbefore
  cases hbefore
  rw [not_high_of_low h] at hhigh
  cases hhigh

/-- What is left of a text at an index. -/
theorem drop_of_getElem? {value : List UInt16} {index : Nat} {unit : UInt16}
    (hunit : value[index]? = some unit) :
    value.drop index = unit :: value.drop (index + 1) := by
  obtain ⟨hlt, rfl⟩ := List.getElem?_eq_some_iff.1 hunit
  exact List.drop_eq_getElem_cons hlt

/-- The units that `jsonStringBytes` counts as two. -/
def isShortEscape (u : UInt16) : Bool :=
  u = 0x22 || u = 0x5c || u = 0x08 || u = 0x09 || u = 0x0a || u = 0x0c || u = 0x0d

/-- The first half of a pair is no escape and takes more than two bytes. -/
theorem high_large {u : UInt16} (h : isHighSurrogate u = true) :
    isShortEscape u = false ∧ ¬ u ≤ 0x1f ∧ ¬ u ≤ 0x7f ∧ ¬ u ≤ 0x7ff := by
  have hlarge : 55296 ≤ u.toNat := by
    simp only [isHighSurrogate, Bool.and_eq_true, decide_eq_true_eq] at h
    exact UInt16.le_iff_toNat_le.1 h.1
  have hnot : ∀ v : UInt16, v.toNat < 55296 → ¬ u ≤ v := by
    intro v hv hle
    have := UInt16.le_iff_toNat_le.1 hle
    omega
  refine ⟨?_, hnot _ (by decide), hnot _ (by decide), hnot _ (by decide)⟩
  rw [Bool.eq_false_iff]
  intro hescape
  simp only [isShortEscape, Bool.or_eq_true, decide_eq_true_eq] at hescape
  rcases hescape with (((((rfl | rfl) | rfl) | rfl) | rfl) | rfl) | rfl <;>
    exact absurd h (by decide)

/-- The loop adds what the units that are left take. -/
theorem jsonStringBytesLoop_eq {value : List UInt16} {index : Nat} (h : BetweenPairs value index)
    (bytes : Nat) :
    jsonStringBytesLoop value index bytes = bytes + unitsBytes (value.drop index) := by
  induction hleft : value.length - index using Nat.strong_induction_on generalizing index bytes with
  | _ left ih =>
    rw [jsonStringBytesLoop]
    split
    · rename_i hunit
      rw [List.drop_eq_nil_of_le (List.getElem?_eq_none_iff.1 hunit)]
      rfl
    · rename_i unit hunit
      have hlt := (List.getElem?_eq_some_iff.1 hunit).1
      have hpair := isSurrogatePair_eq h hunit
      have hdrop := drop_of_getElem? hunit
      have hhead : (value.drop (index + 1)).head? = value[index + 1]? := List.head?_drop
      rw [hdrop, unitsBytes_cons, hhead, ← hpair, surrogate_iff]
      change (if isShortEscape unit = true then _ else _) = _
      by_cases hp : isSurrogatePair value index = true
      · -- both halves are counted at once
        obtain ⟨hhigh, hlow⟩ := Bool.and_eq_true_iff.1 (hpair.symm.trans hp)
        obtain ⟨low, hat, hlow⟩ := (Option.any_eq_true _ _).1 hlow
        obtain ⟨h1, h2, h3, h4⟩ := high_large hhigh
        have htail : (value.drop (index + 1)).tail = value.drop (index + 2) := List.tail_drop
        have hrange : (0xd800 ≤ unit && unit ≤ 0xdbff) = true := hhigh
        simp only [h1, h2, h3, h4, hp, hrange, if_true, if_false, Bool.false_eq_true,
          Bool.not_true, Bool.and_false, decide_false, Bool.or_self, htail]
        rw [ih _ (by omega) (betweenPairs_pair hat hlow) _ rfl]
        omega
      · have hbetween := betweenPairs_succ hunit (hpair.symm.trans (Bool.eq_false_iff.2 hp))
        have hnext : ∀ count, jsonStringBytesLoop value (index + 1) count =
            count + unitsBytes (value.drop (index + 1)) :=
          fun count => ih _ (by omega) hbetween count rfl
        have hkind : unitBytes unit = if isShortEscape unit = true then 2
            else if (unit ≤ 0x1f || (isHighSurrogate unit || isLowSurrogate unit)) = true then 6
            else soloBytes unit := by
          rw [← Bool.or_assoc]
          rfl
        rw [hkind]
        simp only [hp, hnext, Bool.not_false, Bool.and_true, Bool.false_eq_true, if_false]
        by_cases hshort : isShortEscape unit = true
        · rw [if_pos hshort, if_pos hshort]
          omega
        by_cases hlong : (unit ≤ 0x1f || (isHighSurrogate unit || isLowSurrogate unit)) = true
        · rw [if_neg hshort, if_neg hshort, if_pos hlong, if_pos hlong]
          omega
        -- the first half of a pair would be an escape here
        have hrange : (0xd800 ≤ unit && unit ≤ 0xdbff) = false := by
          simp only [Bool.or_eq_true, not_or, Bool.not_eq_true] at hlong
          exact hlong.2.1
        rw [if_neg hshort, if_neg hshort, if_neg hlong, if_neg hlong, hrange, soloBytes]
        split
        · omega
        · split
          · omega
          · rw [if_neg Bool.false_ne_true]
            omega

/-- `jsonStringBytes` counts what the quoted text takes. -/
theorem jsonStringBytesLoop_start (value : List UInt16) :
    jsonStringBytesLoop value 0 2 = jsonStringBytes value := by
  have hstart : BetweenPairs value 0 := fun _ _ h => absurd rfl h
  rw [jsonStringBytesLoop_eq hstart, List.drop_zero, jsonStringBytes]

end StringBytes

/-! ## The walk -/

/-- The errors of `normalizeJson` with budgets.  `range` is the one of
`captureJsonValueLimits`, which names the budget. -/
inductive JsonAdmissionError where
  | invalidJsonValue
  | jsonTooDeep
  | jsonTooLarge
  | range (name : String)
  deriving DecidableEq, Repr

/-- The last two parameters of `normalizeJson`. -/
structure JsonBudgets where
  maxDepth : Option Nat
  maxBytes : Option Nat

namespace JsonBudgets

def allowsDepth (budgets : JsonBudgets) (depth : Nat) : Bool :=
  budgets.maxDepth.all fun maxDepth => depth ≤ maxDepth

def allowsBytes (budgets : JsonBudgets) (bytes : Nat) : Bool :=
  budgets.maxBytes.all fun maxBytes => bytes ≤ maxBytes

theorem allowsDepth_mono {budgets : JsonBudgets} {a b : Nat} (hle : a ≤ b)
    (h : budgets.allowsDepth b = true) : budgets.allowsDepth a = true := by
  simp only [allowsDepth, Option.all_eq_true, decide_eq_true_eq] at h ⊢
  intro maxDepth hmax
  exact hle.trans (h maxDepth hmax)

theorem allowsBytes_mono {budgets : JsonBudgets} {a b : Nat} (hle : a ≤ b)
    (h : budgets.allowsBytes b = true) : budgets.allowsBytes a = true := by
  simp only [allowsBytes, Option.all_eq_true, decide_eq_true_eq] at h ⊢
  intro maxBytes hmax
  exact hle.trans (h maxBytes hmax)

theorem allowsDepth_max {budgets : JsonBudgets} {a b : Nat} :
    budgets.allowsDepth (max a b) = true ↔
      budgets.allowsDepth a = true ∧ budgets.allowsDepth b = true := by
  constructor
  · intro h
    exact ⟨allowsDepth_mono (le_max_left a b) h, allowsDepth_mono (le_max_right a b) h⟩
  · rintro ⟨ha, hb⟩
    rcases max_choice a b with h | h <;> rw [h] <;> assumption

end JsonBudgets

/-- `addBytes`. -/
def addBytes (budgets : JsonBudgets) (canonicalBytes bytes : Nat) :
    Except JsonAdmissionError Nat := do
  demand (budgets.allowsBytes (canonicalBytes + bytes)) .jsonTooLarge
  return canonicalBytes + bytes

/-- What `capture` adds for a value, addition by addition: `primitiveCanonicalBytes`, or
the brackets and commas of a container and then each key with its colon. -/
def charges : JsSource → List Nat
  | .null => [4]
  | .bool value => [if value then 4 else 5]
  | .number text => [(utf16 text).length]
  | .string units => [jsonStringBytesLoop units 0 2]
  | .array items => [2 + (items.length - 1)]
  | .object fields =>
    (2 + (fields.length - 1)) :: fields.map fun field => jsonStringBytesLoop field.1 0 2 + 1
  | .unsupported => []

/-- The checks of `capture` on a value at a depth. -/
def charge (budgets : JsonBudgets) (depth bytes : Nat) (source : JsSource) :
    Except JsonAdmissionError Nat := do
  demand (budgets.allowsDepth depth) .jsonTooDeep
  (charges source).foldlM (addBytes budgets) bytes

/-- A frame of the walk with the depth of its container. -/
structure CountedFrame where
  depth : Nat
  frame : NormalizeFrame

def CountedFrame.put (frame : CountedFrame) (value : JsonValue) : CountedFrame :=
  { frame with frame := frame.frame.put value }

/-- `capture` with its counts: a value that is complete, or the frame that completes it. -/
def captureCounted (budgets : JsonBudgets) (depth bytes : Nat) (source : JsSource) :
    Except JsonAdmissionError (Nat × (JsonValue ⊕ CountedFrame)) := do
  let bytes ← charge budgets depth bytes source
  match capture source with
  | .error .invalidJsonValue => throw .invalidJsonValue
  | .ok (.inl value) => return (bytes, .inl value)
  | .ok (.inr frame) => return (bytes, .inr ⟨depth, frame⟩)

/-- The loop of `normalizeJson` over its frames, with `canonicalBytes`.  None where the
fuel runs out first. -/
def countedLoop (budgets : JsonBudgets) : Nat → Nat → CountedFrame → List CountedFrame →
    Option (Except JsonAdmissionError (JsonValue × Nat))
  | 0, _, _, _ => none
  | fuel + 1, bytes, frame, frames =>
    match frame.frame.todo with
    | [] =>
      match frames with
      | [] => some (.ok (frame.frame.copied, bytes))
      | parent :: frames =>
        countedLoop budgets fuel bytes (parent.put frame.frame.copied) frames
    | child :: _ =>
      match captureCounted budgets (frame.depth + 1) bytes child with
      | .error error => some (.error error)
      | .ok (bytes, .inl value) => countedLoop budgets fuel bytes (frame.put value) frames
      | .ok (bytes, .inr opened) => countedLoop budgets fuel bytes opened (frame :: frames)

/-- `normalizeJson` with budgets, and its `canonicalBytes` at the end. -/
def normalizeJsonCounted (budgets : JsonBudgets) (source : JsSource) :
    Option (Except JsonAdmissionError (JsonValue × Nat)) :=
  match captureCounted budgets 1 0 source with
  | .error error => some (.error error)
  | .ok (bytes, .inl value) => some (.ok (value, bytes))
  | .ok (bytes, .inr frame) => countedLoop budgets (sourceWeight source) bytes frame []

/-- `assertPositiveSafeInteger` of a budget, for the integers among the numbers. -/
def assertBudget (value : Int) (name : String) : Except JsonAdmissionError Nat := do
  demand (1 ≤ value && value ≤ maxSafeInteger) (.range name)
  return value.toNat

/-- `captureJsonValueLimits`. -/
def captureJsonValueLimits (maxDepth maxBytes : Int) : Except JsonAdmissionError JsonBudgets := do
  let maxDepth ← assertBudget maxDepth "maxDepth"
  let maxBytes ← assertBudget maxBytes "maxBytes"
  return ⟨some maxDepth, some maxBytes⟩

/-- `normalizeJsonValueWithin`. -/
def normalizeJsonValueWithin (source : JsSource) (maxDepth maxBytes : Int) :
    Option (Except JsonAdmissionError JsonValue) :=
  match captureJsonValueLimits maxDepth maxBytes with
  | .error error => some (.error error)
  | .ok budgets => (normalizeJsonCounted budgets source).map fun answer => answer.map Prod.fst

/-! ## The walk as a recursion -/

mutual

/-- The copy and the count a recursion makes, a container before its members. -/
def copyValue (budgets : JsonBudgets) (depth bytes : Nat) :
    JsSource → Except JsonAdmissionError (JsonValue × Nat)
  | .null => do
    let bytes ← charge budgets depth bytes .null
    return (.null, bytes)
  | .bool value => do
    let bytes ← charge budgets depth bytes (.bool value)
    return (.bool value, bytes)
  | .number text => do
    let bytes ← charge budgets depth bytes (.number text)
    return (.number text, bytes)
  | .string units => do
    let bytes ← charge budgets depth bytes (.string units)
    return (.string units, bytes)
  | .array items => do
    let bytes ← charge budgets depth bytes (.array items)
    let (target, bytes) ← copyItems budgets (depth + 1) bytes items
    return (.array target, bytes)
  | .object fields => do
    let bytes ← charge budgets depth bytes (.object fields)
    let (target, bytes) ← copyFields budgets (depth + 1) bytes fields
    return (.object target, bytes)
  | .unsupported => do
    let _ ← charge budgets depth bytes .unsupported
    throw .invalidJsonValue

def copyItems (budgets : JsonBudgets) (depth bytes : Nat) :
    List JsSource → Except JsonAdmissionError (List JsonValue × Nat)
  | [] => return ([], bytes)
  | item :: rest => do
    let (value, bytes) ← copyValue budgets depth bytes item
    let (target, bytes) ← copyItems budgets depth bytes rest
    return (value :: target, bytes)

def copyFields (budgets : JsonBudgets) (depth bytes : Nat) :
    List (List UInt16 × JsSource) →
      Except JsonAdmissionError (List (List UInt16 × JsonValue) × Nat)
  | [] => return ([], bytes)
  | (key, source) :: rest => do
    let (value, bytes) ← copyValue budgets depth bytes source
    let (target, bytes) ← copyFields budgets depth bytes rest
    return ((key, value) :: target, bytes)

end

section Walk

variable {budgets : JsonBudgets}

/-- The copy a frame ends with, and the count then. -/
def CountedFrame.finish (budgets : JsonBudgets) (bytes : Nat) (frame : CountedFrame) :
    Except JsonAdmissionError (JsonValue × Nat) :=
  match frame.frame with
  | .array target source => do
    let (rest, bytes) ← copyItems budgets (frame.depth + 1) bytes source
    return (.array (target ++ rest), bytes)
  | .object target source => do
    let (rest, bytes) ← copyFields budgets (frame.depth + 1) bytes source
    return (.object (target ++ rest), bytes)

/-- The copy the frames end with, once the frame above them has ended. -/
def finishAllCounted (budgets : JsonBudgets) :
    List CountedFrame → JsonValue × Nat → Except JsonAdmissionError (JsonValue × Nat)
  | [], answer => .ok answer
  | frame :: frames, (value, bytes) =>
    (frame.put value).finish budgets bytes >>= finishAllCounted budgets frames

theorem CountedFrame.finish_nil {frame : CountedFrame} (h : frame.frame.todo = [])
    (bytes : Nat) : frame.finish budgets bytes = .ok (frame.frame.copied, bytes) := by
  obtain ⟨depth, frame⟩ := frame
  cases frame with
  | array target source =>
    cases h
    simp [CountedFrame.finish, copyItems, NormalizeFrame.copied, bind, Except.bind, pure,
      Except.pure]
  | object target source =>
    rw [NormalizeFrame.todo, List.map_eq_nil_iff] at h
    cases h
    simp [CountedFrame.finish, copyFields, NormalizeFrame.copied, bind, Except.bind, pure,
      Except.pure]

theorem CountedFrame.finish_cons {frame : CountedFrame} {child : JsSource}
    {rest : List JsSource} (h : frame.frame.todo = child :: rest) (bytes : Nat) :
    frame.finish budgets bytes =
      copyValue budgets (frame.depth + 1) bytes child >>= fun answer =>
        (frame.put answer.1).finish budgets answer.2 := by
  obtain ⟨depth, frame⟩ := frame
  cases frame with
  | array target source =>
    cases h
    simp only [CountedFrame.finish, copyItems, CountedFrame.put, NormalizeFrame.put, bind_assoc,
      pure_bind, List.append_assoc, List.singleton_append, List.tail_cons]
  | object target source =>
    cases source with
    | nil => cases h
    | cons field fields =>
      obtain ⟨key, member⟩ := field
      cases h
      simp only [CountedFrame.finish, copyFields, CountedFrame.put, NormalizeFrame.put,
        bind_assoc, pure_bind, List.append_assoc, List.singleton_append]

/-- What `capture` answers with its counts is the beginning of the copy. -/
theorem captureCounted_spec (budgets : JsonBudgets) (depth bytes : Nat) (source : JsSource) :
    match captureCounted budgets depth bytes source with
    | .error error => copyValue budgets depth bytes source = .error error
    | .ok (bytes', .inl value) => copyValue budgets depth bytes source = .ok (value, bytes')
    | .ok (bytes', .inr opened) =>
      copyValue budgets depth bytes source = opened.finish budgets bytes' ∧
        sourceWeight source = opened.frame.weight + 1 := by
  have hcapture := capture_spec source
  rw [captureCounted]
  cases hcharge : charge budgets depth bytes source with
  | error error =>
    rw [error_bind]
    cases source <;> simp [copyValue, hcharge, error_bind]
  | ok bytes' =>
    rw [ok_bind]
    cases source with
    | array items =>
      cases items with
      | nil => simp [copyValue, hcharge, ok_bind, capture, copyItems, pure, Except.pure]
      | cons item rest =>
        rw [capture] at hcapture ⊢
        refine ⟨?_, hcapture.2⟩
        rw [copyValue, hcharge, ok_bind]
        rfl
    | object fields =>
      cases fields with
      | nil => simp [copyValue, hcharge, ok_bind, capture, copyFields, pure, Except.pure]
      | cons field rest =>
        rw [capture] at hcapture ⊢
        refine ⟨?_, hcapture.2⟩
        rw [copyValue, hcharge, ok_bind]
        rfl
    | _ => simp [copyValue, hcharge, ok_bind, capture, pure, Except.pure, throw, throwThe,
        MonadExceptOf.throw]

/-- The loop ends, with the copy and the count its frames end with. -/
theorem countedLoop_eq {fuel bytes : Nat} {frame : CountedFrame} {frames : List CountedFrame}
    (hfuel : frame.frame.weight +
      (frames.map fun parent => parent.frame.laterWeight).sum ≤ fuel) :
    countedLoop budgets fuel bytes frame frames =
      some (frame.finish budgets bytes >>= finishAllCounted budgets frames) := by
  induction fuel generalizing bytes frame frames with
  | zero =>
    rw [NormalizeFrame.weight] at hfuel
    omega
  | succ fuel ih =>
    cases htodo : frame.frame.todo with
    | nil =>
      rw [NormalizeFrame.weight, htodo] at hfuel
      rw [CountedFrame.finish_nil htodo, ok_bind]
      cases frames with
      | nil =>
        simp only [countedLoop, htodo]
        rfl
      | cons parent frames =>
        simp only [countedLoop, htodo]
        rw [ih]
        · rfl
        · rw [CountedFrame.put, weight_put]
          simp only [List.map_nil, List.sum_nil, List.map_cons, List.sum_cons] at hfuel
          omega
    | cons child rest =>
      have hweight : frame.frame.weight = sourceWeight child + frame.frame.laterWeight := by
        rw [NormalizeFrame.weight, NormalizeFrame.laterWeight, htodo, List.map_cons,
          List.sum_cons, List.tail_cons]
        omega
      have hchild := one_le_sourceWeight child
      have hcapture := captureCounted_spec budgets (frame.depth + 1) bytes child
      rw [CountedFrame.finish_cons htodo]
      simp only [countedLoop, htodo]
      cases hcaptured : captureCounted budgets (frame.depth + 1) bytes child with
      | error e =>
        rw [hcaptured] at hcapture
        rw [hcapture]
        rfl
      | ok captured =>
        obtain ⟨bytes', value | opened⟩ := captured
        · rw [hcaptured] at hcapture
          rw [hcapture, ok_bind]
          dsimp only
          rw [ih]
          rw [CountedFrame.put, weight_put]
          omega
        · rw [hcaptured] at hcapture
          obtain ⟨hfinish, hopened⟩ := hcapture
          rw [hfinish]
          dsimp only
          rw [ih]
          · cases opened.finish budgets bytes' <;> rfl
          · rw [List.map_cons, List.sum_cons]
            omega

/-- `normalizeJson` with budgets copies and counts as the recursion does. -/
theorem normalizeJsonCounted_eq (budgets : JsonBudgets) (source : JsSource) :
    normalizeJsonCounted budgets source = some (copyValue budgets 1 0 source) := by
  have hcapture := captureCounted_spec budgets 1 0 source
  rw [normalizeJsonCounted]
  cases hcaptured : captureCounted budgets 1 0 source with
  | error e =>
    rw [hcaptured] at hcapture
    rw [hcapture]
  | ok captured =>
    obtain ⟨bytes, value | opened⟩ := captured
    · rw [hcaptured] at hcapture
      rw [hcapture]
    · rw [hcaptured] at hcapture
      obtain ⟨hfinish, hweight⟩ := hcapture
      dsimp only
      rw [hfinish, countedLoop_eq]
      · cases opened.finish budgets bytes <;> rfl
      · rw [List.map_nil, List.sum_nil]
        omega

end Walk

/-! ## What the walk admits -/

section Admits

variable {budgets : JsonBudgets}

theorem addBytes_eq_ok {bytes more after : Nat} :
    addBytes budgets bytes more = .ok after ↔
      after = bytes + more ∧ budgets.allowsBytes after = true := by
  rw [addBytes, check_eq_ok, demand_eq_ok, return_eq_ok]
  constructor
  · rintro ⟨hallowed, rfl⟩
    exact ⟨rfl, hallowed⟩
  · rintro ⟨rfl, hallowed⟩
    exact ⟨hallowed, rfl⟩

/-- Additions in a row are all in the budget when the last is. -/
theorem foldlM_addBytes_eq_ok {bytes after : Nat} {more : List Nat}
    (hbytes : budgets.allowsBytes bytes = true) :
    more.foldlM (addBytes budgets) bytes = .ok after ↔
      after = bytes + more.sum ∧ budgets.allowsBytes after = true := by
  induction more generalizing bytes with
  | nil =>
    rw [List.foldlM_nil, return_eq_ok, List.sum_nil, Nat.add_zero]
    constructor
    · rintro rfl
      exact ⟨rfl, hbytes⟩
    · exact And.left
  | cons first rest ih =>
    rw [List.foldlM_cons, bind_eq_ok, List.sum_cons]
    constructor
    · rintro ⟨next, hnext, hrest⟩
      obtain ⟨rfl, hallowed⟩ := addBytes_eq_ok.1 hnext
      obtain ⟨rfl, hafter⟩ := (ih hallowed).1 hrest
      exact ⟨by omega, hafter⟩
    · rintro ⟨rfl, hafter⟩
      have hallowed : budgets.allowsBytes (bytes + first) = true :=
        JsonBudgets.allowsBytes_mono (by omega) hafter
      refine ⟨bytes + first, addBytes_eq_ok.2 ⟨rfl, hallowed⟩, ?_⟩
      rw [ih hallowed]
      exact ⟨by omega, hafter⟩

theorem charge_eq_ok {depth bytes after : Nat} {source : JsSource}
    (hbytes : budgets.allowsBytes bytes = true) :
    charge budgets depth bytes source = .ok after ↔
      budgets.allowsDepth depth = true ∧ after = bytes + (charges source).sum ∧
        budgets.allowsBytes after = true := by
  rw [charge, check_eq_ok, demand_eq_ok, foldlM_addBytes_eq_ok hbytes]

/-- Digits, signs and dots take a byte each. -/
theorem utf8Length_of_ascii {units : List UInt16} (h : ∀ u ∈ units, u ≤ 0x7f) :
    utf8Length units = units.length := by
  induction units with
  | nil => rfl
  | cons u rest ih =>
    rw [List.forall_mem_cons] at h
    have hclosed : Closed [u] := closed_singleton (not_high_of_le h.1)
    have hone : utf8Length [u] = 1 := by rw [utf8Length, soloBytes, if_pos h.1]
    rw [← List.singleton_append, utf8Length_append _ _ hclosed, hone, ih h.2]
    simp [Nat.add_comm]

theorem isNumberUnit_ascii {u : UInt16} (h : isNumberUnit u = true) : u ≤ 0x7f := by
  simp only [isNumberUnit, isDigitUnit, Bool.or_eq_true, Bool.and_eq_true,
    decide_eq_true_eq] at h
  rw [UInt16.le_iff_toNat_le]
  rcases h with ((((⟨-, hdigit⟩ | rfl) | rfl) | rfl) | rfl) | rfl
  · exact (UInt16.le_iff_toNat_le.1 hdigit).trans (by decide)
  all_goals decide

theorem length_written (N : NumberTexts) {text : String} (h : N.Written text) :
    (utf16 text).length = utf8Length (utf16 text) := by
  have hunits := (isNumberLiteral_spec (N.literal text h)).2
  rw [utf8Length_of_ascii fun u hu => isNumberUnit_ascii (hunits u hu)]

/-- What the members of an object take without their keys. -/
def membersBytes (fields : List (List UInt16 × JsonValue)) : Nat :=
  (fields.map fun field => canonicalBytes field.2).sum

theorem sum_charges_array (items : List JsonValue) :
    (charges (.array (itemsToSource items))).sum = 2 + (items.length - 1) := by
  have hlength : (itemsToSource items).length = items.length := by
    induction items with
    | nil => rfl
    | cons item rest ih => rw [itemsToSource, List.length_cons, ih, List.length_cons]
  simp [charges, hlength]

/-- The keys are charged before the members, and are counted between them. -/
theorem sum_charges_object (fields : List (List UInt16 × JsonValue)) :
    (charges (.object (fieldsToSource fields))).sum + membersBytes fields =
      canonicalBytes (.object fields) := by
  have hlength : (fieldsToSource fields).length = fields.length := by
    induction fields with
    | nil => rfl
    | cons field rest ih => rw [fieldsToSource, List.length_cons, ih, List.length_cons]
  have hkeys : ((fieldsToSource fields).map
      fun field => jsonStringBytesLoop field.1 0 2 + 1).sum + membersBytes fields =
        fieldsBytes fields := by
    rw [membersBytes]
    clear hlength
    induction fields with
    | nil => rfl
    | cons field rest ih =>
      rw [fieldsToSource, fieldsBytes, ← ih]
      simp only [List.map_cons, List.sum_cons, jsonStringBytesLoop_start]
      omega
  rw [charges, List.sum_cons, hlength, canonicalBytes, ← hkeys]
  omega

/-- A value without members. -/
theorem leaf_eq_ok {depth bytes after size : Nat} {source : JsSource} {value copy : JsonValue}
    (hbytes : budgets.allowsBytes bytes = true) (hsize : (charges source).sum = size) :
    ((do let bytes ← charge budgets (depth + 1) bytes source
         return (value, bytes)) = (.ok (copy, after) : Except JsonAdmissionError _)) ↔
      copy = value ∧ budgets.allowsDepth (depth + 1) = true ∧ after = bytes + size ∧
        budgets.allowsBytes after = true := by
  simp only [bind_eq_ok, charge_eq_ok hbytes, return_eq_ok, hsize, Prod.mk.injEq]
  constructor
  · rintro ⟨_, ⟨hdepth, rfl, hallowed⟩, rfl, rfl⟩
    exact ⟨rfl, hdepth, rfl, hallowed⟩
  · rintro ⟨rfl, hdepth, rfl, hallowed⟩
    exact ⟨_, ⟨hdepth, rfl, hallowed⟩, rfl, rfl⟩

mutual

/-- A value is admitted when all of it is within the budgets, and is counted whole. -/
theorem copyValue_eq_ok_iff {N : NumberTexts} {depth bytes after : Nat} {copy : JsonValue} :
    ∀ {value : JsonValue}, value.WellFormed N → budgets.allowsBytes bytes = true →
      (copyValue budgets (depth + 1) bytes value.toSource = .ok (copy, after) ↔
        copy = value ∧ budgets.allowsDepth (depth + jsonDepth value) = true ∧
          after = bytes + canonicalBytes value ∧ budgets.allowsBytes after = true)
  | .null, _, hbytes => leaf_eq_ok hbytes rfl
  | .bool value, _, hbytes => leaf_eq_ok hbytes (by simp [charges, canonicalBytes])
  | .number text, hwell, hbytes => by
    rw [JsonValue.WellFormed] at hwell
    exact leaf_eq_ok hbytes (by simp [charges, canonicalBytes, length_written N hwell])
  | .string units, _, hbytes =>
    leaf_eq_ok hbytes (by simp [charges, canonicalBytes, jsonStringBytesLoop_start])
  | .array items, hwell, hbytes => by
    have hitems := JsonValue.wellFormed_array.1 hwell
    simp only [JsonValue.toSource, copyValue, bind_eq_ok, charge_eq_ok hbytes,
      sum_charges_array, return_eq_ok, Prod.mk.injEq, jsonDepth, canonicalBytes]
    constructor
    · rintro ⟨head, ⟨hdepth, rfl, hhead⟩, ⟨target, count⟩, hcopy, rfl, rfl⟩
      obtain ⟨rfl, hdeep, rfl, hallowed⟩ := (copyItems_eq_ok_iff hitems hdepth hhead).1 hcopy
      exact ⟨rfl, by rwa [← Nat.add_assoc], by omega, hallowed⟩
    · rintro ⟨rfl, hdeep, rfl, hallowed⟩
      rw [← Nat.add_assoc] at hdeep
      have hdepth : budgets.allowsDepth (depth + 1) = true :=
        JsonBudgets.allowsDepth_mono (Nat.le_add_right _ _) hdeep
      have hhead : budgets.allowsBytes (bytes + (2 + (items.length - 1))) = true :=
        JsonBudgets.allowsBytes_mono (by omega) hallowed
      refine ⟨_, ⟨hdepth, rfl, hhead⟩, (items, _), ?_, rfl, rfl⟩
      rw [copyItems_eq_ok_iff hitems hdepth hhead]
      exact ⟨rfl, hdeep, by omega, hallowed⟩
  | .object fields, hwell, hbytes => by
    have hfields := (JsonValue.wellFormed_object.1 hwell).2
    have hsum := sum_charges_object fields
    simp only [JsonValue.toSource, copyValue, bind_eq_ok, charge_eq_ok hbytes, return_eq_ok,
      Prod.mk.injEq, jsonDepth]
    constructor
    · rintro ⟨head, ⟨hdepth, rfl, hhead⟩, ⟨target, count⟩, hcopy, rfl, rfl⟩
      obtain ⟨rfl, hdeep, rfl, hallowed⟩ := (copyFields_eq_ok_iff hfields hdepth hhead).1 hcopy
      exact ⟨rfl, by rwa [← Nat.add_assoc], by omega, hallowed⟩
    · rintro ⟨rfl, hdeep, rfl, hallowed⟩
      rw [← Nat.add_assoc] at hdeep
      have hdepth : budgets.allowsDepth (depth + 1) = true :=
        JsonBudgets.allowsDepth_mono (Nat.le_add_right _ _) hdeep
      have hhead :
          budgets.allowsBytes (bytes + (charges (.object (fieldsToSource fields))).sum) = true :=
        JsonBudgets.allowsBytes_mono (by omega) hallowed
      refine ⟨_, ⟨hdepth, rfl, hhead⟩, (fields, _), ?_, rfl, rfl⟩
      rw [copyFields_eq_ok_iff hfields hdepth hhead]
      exact ⟨rfl, hdeep, by omega, hallowed⟩

theorem copyItems_eq_ok_iff {N : NumberTexts} {depth bytes after : Nat}
    {target : List JsonValue} :
    ∀ {items : List JsonValue}, (∀ item ∈ items, item.WellFormed N) →
      budgets.allowsDepth depth = true → budgets.allowsBytes bytes = true →
      (copyItems budgets (depth + 1) bytes (itemsToSource items) = .ok (target, after) ↔
        target = items ∧ budgets.allowsDepth (depth + itemsDepth items) = true ∧
          after = bytes + itemsBytes items ∧ budgets.allowsBytes after = true)
  | [], _, hdepth, hbytes => by
    simp only [itemsToSource, copyItems, return_eq_ok, Prod.mk.injEq, itemsDepth, itemsBytes,
      Nat.add_zero, hdepth, true_and]
    constructor
    · rintro ⟨rfl, rfl⟩
      exact ⟨rfl, rfl, hbytes⟩
    · rintro ⟨rfl, rfl, -⟩
      exact ⟨rfl, rfl⟩
  | item :: rest, hwell, hdepth, hbytes => by
    obtain ⟨hitem, hrest⟩ := List.forall_mem_cons.1 hwell
    simp only [itemsToSource, copyItems, bind_eq_ok, return_eq_ok, Prod.mk.injEq, itemsDepth,
      itemsBytes, ← Nat.add_max_add_left, JsonBudgets.allowsDepth_max]
    constructor
    · rintro ⟨⟨value, count⟩, hvalue, ⟨tail, total⟩, htail, rfl, rfl⟩
      obtain ⟨rfl, hdeep, rfl, hcount⟩ := (copyValue_eq_ok_iff hitem hbytes).1 hvalue
      obtain ⟨rfl, hdeeper, rfl, hallowed⟩ := (copyItems_eq_ok_iff hrest hdepth hcount).1 htail
      exact ⟨rfl, ⟨hdeep, hdeeper⟩, by omega, hallowed⟩
    · rintro ⟨rfl, ⟨hdeep, hdeeper⟩, rfl, hallowed⟩
      have hcount : budgets.allowsBytes (bytes + canonicalBytes item) = true :=
        JsonBudgets.allowsBytes_mono (by omega) hallowed
      refine ⟨(item, _), (copyValue_eq_ok_iff hitem hbytes).2 ⟨rfl, hdeep, rfl, hcount⟩,
        (rest, _), ?_, rfl, rfl⟩
      rw [copyItems_eq_ok_iff hrest hdepth hcount]
      exact ⟨rfl, hdeeper, by omega, hallowed⟩

theorem copyFields_eq_ok_iff {N : NumberTexts} {depth bytes after : Nat}
    {target : List (List UInt16 × JsonValue)} :
    ∀ {fields : List (List UInt16 × JsonValue)}, (∀ field ∈ fields, field.2.WellFormed N) →
      budgets.allowsDepth depth = true → budgets.allowsBytes bytes = true →
      (copyFields budgets (depth + 1) bytes (fieldsToSource fields) = .ok (target, after) ↔
        target = fields ∧ budgets.allowsDepth (depth + fieldsDepth fields) = true ∧
          after = bytes + membersBytes fields ∧ budgets.allowsBytes after = true)
  | [], _, hdepth, hbytes => by
    simp only [fieldsToSource, copyFields, return_eq_ok, Prod.mk.injEq, fieldsDepth,
      membersBytes, List.map_nil, List.sum_nil, Nat.add_zero, hdepth, true_and]
    constructor
    · rintro ⟨rfl, rfl⟩
      exact ⟨rfl, rfl, hbytes⟩
    · rintro ⟨rfl, rfl, -⟩
      exact ⟨rfl, rfl⟩
  | (key, value) :: rest, hwell, hdepth, hbytes => by
    have hvalue : value.WellFormed N := hwell (key, value) List.mem_cons_self
    have hrest : ∀ field ∈ rest, field.2.WellFormed N :=
      fun field hfield => hwell field (List.mem_cons_of_mem _ hfield)
    have hsplit : membersBytes ((key, value) :: rest) =
        canonicalBytes value + membersBytes rest := by
      simp [membersBytes]
    simp only [fieldsToSource, copyFields, bind_eq_ok, return_eq_ok, Prod.mk.injEq, fieldsDepth,
      hsplit, ← Nat.add_max_add_left, JsonBudgets.allowsDepth_max]
    constructor
    · rintro ⟨⟨copied, count⟩, hcopied, ⟨tail, total⟩, htail, rfl, rfl⟩
      obtain ⟨rfl, hdeep, rfl, hcount⟩ := (copyValue_eq_ok_iff hvalue hbytes).1 hcopied
      obtain ⟨rfl, hdeeper, rfl, hallowed⟩ := (copyFields_eq_ok_iff hrest hdepth hcount).1 htail
      exact ⟨rfl, ⟨hdeep, hdeeper⟩, by omega, hallowed⟩
    · rintro ⟨rfl, ⟨hdeep, hdeeper⟩, rfl, hallowed⟩
      have hcount : budgets.allowsBytes (bytes + canonicalBytes value) = true :=
        JsonBudgets.allowsBytes_mono (by omega) hallowed
      refine ⟨(value, _), (copyValue_eq_ok_iff hvalue hbytes).2 ⟨rfl, hdeep, rfl, hcount⟩,
        (rest, _), ?_, rfl, rfl⟩
      rw [copyFields_eq_ok_iff hrest hdepth hcount]
      exact ⟨rfl, hdeeper, by omega, hallowed⟩

end

end Admits

/-! ## The budget is exact -/

/-- Budgets that `captureJsonValueLimits` takes: positive safe integers. -/
structure JsonValueLimits where
  maxDepth : Int
  maxBytes : Int
  depth_pos : 1 ≤ maxDepth
  depth_safe : maxDepth ≤ maxSafeInteger
  bytes_pos : 1 ≤ maxBytes
  bytes_safe : maxBytes ≤ maxSafeInteger

theorem captureJsonValueLimits_ok (limits : JsonValueLimits) :
    captureJsonValueLimits limits.maxDepth limits.maxBytes =
      .ok ⟨some limits.maxDepth.toNat, some limits.maxBytes.toNat⟩ := by
  have hdepth : assertBudget limits.maxDepth "maxDepth" = .ok limits.maxDepth.toNat := by
    simp [assertBudget, demand, limits.depth_pos, limits.depth_safe, bind, Except.bind, pure,
      Except.pure]
  have hbytes : assertBudget limits.maxBytes "maxBytes" = .ok limits.maxBytes.toNat := by
    simp [assertBudget, demand, limits.bytes_pos, limits.bytes_safe, bind, Except.bind, pure,
      Except.pure]
  rw [captureJsonValueLimits, hdepth, ok_bind, hbytes, ok_bind]
  rfl

/-- What `normalizeJson` answers under budgets, and its count. -/
theorem normalizeJsonCounted_eq_ok_iff {N : NumberTexts} (budgets : JsonBudgets)
    {value copy : JsonValue} {bytes : Nat} (hvalue : value.WellFormed N) :
    normalizeJsonCounted budgets value.toSource = some (.ok (copy, bytes)) ↔
      copy = value ∧ budgets.allowsDepth (jsonDepth value) = true ∧ bytes = jsonBytes value ∧
        budgets.allowsBytes bytes = true := by
  have hnone : budgets.allowsBytes 0 = true := by
    rw [JsonBudgets.allowsBytes]
    cases budgets.maxBytes <;> simp
  have hcopy : copyValue budgets (0 + 1) 0 value.toSource = .ok (copy, bytes) ↔ _ :=
    copyValue_eq_ok_iff hvalue hnone
  rw [Nat.zero_add, Nat.zero_add, Nat.zero_add, ← jsonBytes_eq_canonicalBytes] at hcopy
  rw [normalizeJsonCounted_eq, Option.some.injEq, hcopy]

/-- A JSON value is admitted exactly when its depth and the UTF-8 length of its canonical
text are within the limits, and what was counted on the way is that length. -/
theorem json_admission_budget_exact (N : NumberTexts) (value : JsonValue)
    (hvalue : value.WellFormed N) :
    ∃ text, canonicalizeSource value.toSource = some (.ok text) ∧
      normalizeJsonCounted ⟨none, none⟩ value.toSource = some (.ok (value, utf8Length text)) ∧
      (∀ budgets copy bytes,
        normalizeJsonCounted budgets value.toSource = some (.ok (copy, bytes)) →
          copy = value ∧ bytes = utf8Length text) ∧
      ∀ limits : JsonValueLimits,
        (∃ copy, normalizeJsonValueWithin value.toSource limits.maxDepth limits.maxBytes =
          some (.ok copy)) ↔
            (jsonDepth value : Int) ≤ limits.maxDepth ∧
              (utf8Length text : Int) ≤ limits.maxBytes := by
  refine ⟨canonicalizeJsonValue value, canonicalize_toSource value, ?_, ?_, ?_⟩
  · exact (normalizeJsonCounted_eq_ok_iff _ hvalue).2 ⟨rfl, rfl, rfl, rfl⟩
  · intro budgets copy bytes hcount
    obtain ⟨hcopy, -, hbytes, -⟩ := (normalizeJsonCounted_eq_ok_iff budgets hvalue).1 hcount
    exact ⟨hcopy, hbytes⟩
  · intro limits
    have hdepth := limits.depth_pos
    have hbytes := limits.bytes_pos
    rw [normalizeJsonValueWithin, captureJsonValueLimits_ok, ← jsonBytes]
    dsimp only
    constructor
    · rintro ⟨copy, hcopy⟩
      obtain ⟨answer, hanswer, hcopy⟩ := Option.map_eq_some_iff.1 hcopy
      cases answer with
      | error e => cases hcopy
      | ok answer =>
        obtain ⟨-, hdeep, hcount, hlarge⟩ :=
          (normalizeJsonCounted_eq_ok_iff _ hvalue).1 hanswer
        rw [hcount] at hlarge
        simp only [JsonBudgets.allowsDepth, JsonBudgets.allowsBytes, Option.all_some,
          decide_eq_true_eq] at hdeep hlarge
        omega
    · rintro ⟨hdeep, hlarge⟩
      refine ⟨value, ?_⟩
      have hcounted : normalizeJsonCounted ⟨some limits.maxDepth.toNat, some limits.maxBytes.toNat⟩
          value.toSource = some (.ok (value, jsonBytes value)) := by
        refine (normalizeJsonCounted_eq_ok_iff _ hvalue).2 ⟨rfl, ?_, rfl, ?_⟩
        · simp only [JsonBudgets.allowsDepth, Option.all_some, decide_eq_true_eq]
          omega
        · simp only [JsonBudgets.allowsBytes, Option.all_some, decide_eq_true_eq]
          omega
      rw [hcounted]
      rfl

/-- An object with one key and an array under it, of a lone surrogate and a number. -/
theorem json_admission_budget_exact_nested :
    ∃ value : JsonValue,
      value = .object [([0x6b], .array [.string [0xd800], .number "7"])] ∧
      (∃ copy, normalizeJsonValueWithin value.toSource 3 18 = some (.ok copy)) ∧
      (¬ ∃ copy, normalizeJsonValueWithin value.toSource 2 18 = some (.ok copy)) ∧
      ¬ ∃ copy, normalizeJsonValueWithin value.toSource 3 17 = some (.ok copy) := by
  refine ⟨_, rfl, ?_⟩
  obtain ⟨text, htext, -, -, hlimits⟩ := json_admission_budget_exact oneDigit
    (.object [([0x6b], .array [.string [0xd800], .number "7"])]) (by
      rw [JsonValue.wellFormed_object, List.forall_mem_singleton, JsonValue.wellFormed_array]
      refine ⟨List.pairwise_singleton _ _, fun item hitem => ?_⟩
      rcases List.mem_pair.1 hitem with rfl | rfl
      · trivial
      · exact ⟨7, by decide, rfl⟩)
  rw [canonicalize_toSource] at htext
  cases htext
  have hlength : utf8Length (canonicalizeJsonValue
      (.object [([0x6b], .array [.string [0xd800], .number "7"])])) = 18 := by decide +kernel
  rw [hlength] at hlimits
  refine ⟨?_, ?_, ?_⟩
  · exact (hlimits ⟨3, 18, by decide, by decide, by decide, by decide⟩).2 ⟨by decide, by decide⟩
  · intro h
    have := (hlimits ⟨2, 18, by decide, by decide, by decide, by decide⟩).1 h
    exact absurd this.1 (by decide)
  · intro h
    have := (hlimits ⟨3, 17, by decide, by decide, by decide, by decide⟩).1 h
    exact absurd this.2 (by decide)

/-! ## Values read back -/

namespace JsonValue

theorem wellFormed_sorted {N : NumberTexts} {value : JsonValue} (h : value.WellFormed N) :
    value.sorted.WellFormed N := by
  induction value using JsonValue.induction with
  | array items ih =>
    rw [wellFormed_array] at h
    rw [sorted_array, wellFormed_array]
    exact List.forall_mem_map.2 fun item hitem => ih item hitem (h item hitem)
  | object fields ih =>
    rw [wellFormed_object] at h
    rw [sorted_object, wellFormed_object, List.map_map]
    have hperm := sortFields_perm fields
    refine ⟨(hperm.map Prod.fst).nodup_iff.2 h.1, List.forall_mem_map.2 fun field hfield => ?_⟩
    exact ih field (hperm.mem_iff.1 hfield) (h.2 field (hperm.mem_iff.1 hfield))
  | _ => exact h

theorem itemsDepth_le {items : List JsonValue} {d : Nat} :
    itemsDepth items ≤ d ↔ ∀ item ∈ items, jsonDepth item ≤ d := by
  induction items with
  | nil => simp [itemsDepth]
  | cons item rest ih => rw [itemsDepth, max_le_iff, ih, List.forall_mem_cons]

theorem fieldsDepth_le {fields : List (List UInt16 × JsonValue)} {d : Nat} :
    fieldsDepth fields ≤ d ↔ ∀ field ∈ fields, jsonDepth field.2 ≤ d := by
  induction fields with
  | nil => simp [fieldsDepth]
  | cons field rest ih => rw [fieldsDepth, max_le_iff, ih, List.forall_mem_cons]

theorem jsonDepth_sorted (value : JsonValue) : jsonDepth value.sorted = jsonDepth value := by
  induction value using JsonValue.induction with
  | array items ih =>
    rw [sorted_array, jsonDepth, jsonDepth]
    refine congrArg (1 + ·) (eq_of_forall_ge_iff fun d => ?_)
    rw [itemsDepth_le, itemsDepth_le, List.forall_mem_map]
    exact forall₂_congr fun item hitem => by rw [ih item hitem]
  | object fields ih =>
    rw [sorted_object, jsonDepth, jsonDepth]
    refine congrArg (1 + ·) (eq_of_forall_ge_iff fun d => ?_)
    rw [fieldsDepth_le, fieldsDepth_le, List.forall_mem_map]
    simp only [(sortFields_perm fields).mem_iff]
    exact forall₂_congr fun field hfield => by rw [ih field hfield]
  | _ => rfl

/-- A value that is written and read back is admitted under the same budgets with the same
count, and is written and read back from then on as it is. -/
theorem written_value_readmitted {N : NumberTexts} (value : {value // WellFormed N value}) :
    ∃ stored : {value // WellFormed N value},
      parseJson N (canonicalizeJsonValue value) = some stored.val ∧
      canonicalizeJsonValue stored = canonicalizeJsonValue value ∧
      parseJson N (canonicalizeJsonValue stored) = some stored.val ∧
      ∀ budgets bytes,
        normalizeJsonCounted budgets stored.val.toSource = some (.ok (stored, bytes)) ↔
          normalizeJsonCounted budgets value.val.toSource = some (.ok (value, bytes)) := by
  have hread := parseJson_canonical N value.2
  have htext := canonicalizeJsonValue_sorted value
  have hsorted := wellFormed_sorted value.2
  refine ⟨⟨_, hsorted⟩, hread, htext, htext ▸ hread, fun budgets bytes => ?_⟩
  rw [normalizeJsonCounted_eq_ok_iff budgets hsorted,
    normalizeJsonCounted_eq_ok_iff budgets value.2, jsonDepth_sorted, jsonBytes, htext, jsonBytes]
  simp only [true_and]

end JsonValue

end OpenGameAgent
