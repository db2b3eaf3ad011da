import OpenGameAgent.Library.Run
import OpenGameAgent.Library.WorkStack
import OpenGameAgent.Protocol.Json

/-!
# Normalising and serialising a value

`normalizeJson` and `serializeCanonicalJsonValue` of `packages/protocol/src/json.ts`.
Both walk a value with a stack of their own: the first copies it frame by frame, the
second replaces a value by the pieces of its text.

* `JsSource` — what a host may hand over; `JsonValue.toSource` — the part of it that is
  JSON.
* `normalizeJson_eq` — the frames make the copy that the recursion makes.
* `serializeCanonicalJsonValue_eq` — the pieces are those of the canonical text.
* `canonicalize_toSource` — on a JSON value both together end with its canonical text.
-/

namespace OpenGameAgent

/-! ## Serialising -/

/-- The work of the serialiser: a value to write, or a text. -/
inductive SerializeTask where
  | value (value : JsonValue)
  | text (text : List UInt16)

/-- Tasks for the members of a list, with a comma before each but the first. -/
def separated {α : Type} (tasks : α → List SerializeTask) (members : List α) :
    List SerializeTask :=
  members.zipIdx.flatMap fun member =>
    if 0 < member.2 then .text [0x2c] :: tasks member.1 else tasks member.1

/-- The tasks of one object member. -/
def fieldTasks (field : List UInt16 × JsonValue) : List SerializeTask :=
  [.text (stringifyString field.1), .text [0x3a], .value field.2]

/-- What a task writes and the tasks it puts on the stack. -/
def expandTask : SerializeTask → List UInt16 × List SerializeTask
  | .text text => (text, [])
  | .value .null => (utf16 "null", [])
  | .value (.bool value) => (utf16 (if value then "true" else "false"), [])
  | .value (.number text) => (utf16 text, [])
  | .value (.string units) => (stringifyString units, [])
  | .value (.array items) =>
    ([], .text [0x5b] :: separated (fun item => [.value item]) items ++ [.text [0x5d]])
  | .value (.object fields) =>
    ([], .text [0x7b] :: separated fieldTasks (sortFields fields) ++ [.text [0x7d]])

mutual

/-- How many rounds a value takes at most. -/
def valueWeight : JsonValue → Nat
  | .array items => 3 + itemsWeight items
  | .object fields => 3 + fieldsWeight fields
  | _ => 1

def itemsWeight : List JsonValue → Nat
  | [] => 0
  | item :: rest => valueWeight item + 1 + itemsWeight rest

def fieldsWeight : List (List UInt16 × JsonValue) → Nat
  | [] => 0
  | (_, value) :: rest => valueWeight value + 3 + fieldsWeight rest

end

def SerializeTask.weight : SerializeTask → Nat
  | .value v => valueWeight v
  | .text _ => 1

/-- `serializeCanonicalJsonValue`. -/
def serializeCanonicalJsonValue (value : JsonValue) : Option (List UInt16) :=
  WorkStack.run expandTask (valueWeight value) [.value value] []

section Serialize

theorem separated_cons {α : Type} (tasks : α → List SerializeTask) (member : α)
    (rest : List α) :
    separated tasks (member :: rest) =
      tasks member ++ rest.flatMap fun next => .text [0x2c] :: tasks next := by
  have hlater : ∀ k, 0 < k → (rest.zipIdx k).flatMap (fun member =>
      if 0 < member.2 then SerializeTask.text [0x2c] :: tasks member.1 else tasks member.1) =
        rest.flatMap fun next => .text [0x2c] :: tasks next := by
    induction rest with
    | nil => intro k _; rfl
    | cons next rest ih =>
      intro k hk
      rw [List.zipIdx_cons, List.flatMap_cons, List.flatMap_cons, if_pos hk,
        ih (k + 1) (Nat.succ_pos k)]
  rw [separated, List.zipIdx_cons, List.flatMap_cons, if_neg (Nat.lt_irrefl 0),
    hlater (0 + 1) Nat.one_pos]

theorem joinTexts_cons (text : List UInt16) (rest : List (List UInt16)) :
    joinTexts (text :: rest) = text ++ rest.flatMap fun next => 0x2c :: next := by
  induction rest generalizing text with
  | nil => simp [joinTexts]
  | cons next rest ih => rw [joinTexts, ih, List.flatMap_cons, List.cons_append]; simp

/-- The units a task stands for. -/
def SerializeTask.meaning : SerializeTask → List UInt16
  | .value v => canonicalizeJsonValue v
  | .text units => units

/-- Separated tasks stand for joined texts. -/
theorem separated_meaning {α : Type} (tasks : α → List SerializeTask) (members : List α) :
    (separated tasks members).flatMap SerializeTask.meaning =
      joinTexts (members.map fun member => (tasks member).flatMap SerializeTask.meaning) := by
  cases members with
  | nil => rfl
  | cons member rest =>
    rw [separated_cons, List.map_cons, joinTexts_cons, List.flatMap_append, List.flatMap_map,
      List.flatMap_assoc]
    simp [SerializeTask.meaning]

theorem canonicalItems_eq (items : List JsonValue) :
    canonicalItems items = items.map canonicalizeJsonValue := by
  induction items with
  | nil => rfl
  | cons item rest ih => rw [canonicalItems, ih, List.map_cons]

theorem canonicalFields_eq (fields : List (List UInt16 × JsonValue)) :
    canonicalFields fields =
      fields.map fun field => (field.1, canonicalizeJsonValue field.2) := by
  induction fields with
  | nil => rfl
  | cons field rest ih => rw [canonicalFields, ih, List.map_cons]

/-- Members are sorted by their keys alone. -/
theorem sortFields_map {α β : Type} (f : α → β) (fields : List (List UInt16 × α)) :
    sortFields (fields.map fun field => (field.1, f field.2)) =
      (sortFields fields).map fun field => (field.1, f field.2) := by
  have hinsert : ∀ (field : List UInt16 × α) (sorted : List (List UInt16 × α)),
      insertField (field.1, f field.2) (sorted.map fun field => (field.1, f field.2)) =
        (insertField field sorted).map fun field => (field.1, f field.2) := by
    intro field sorted
    induction sorted with
    | nil => rfl
    | cons other rest ih =>
      rw [List.map_cons, insertField, insertField]
      split
      · rfl
      · rw [ih, List.map_cons]
  induction fields with
  | nil => rfl
  | cons field rest ih => rw [List.map_cons, sortFields, ih, hinsert, sortFields]

theorem meaning_expand (task : SerializeTask) :
    task.meaning = (expandTask task).1 ++ (expandTask task).2.flatMap SerializeTask.meaning := by
  cases task with
  | text text => simp [SerializeTask.meaning, expandTask]
  | value value =>
    cases value with
    | array items =>
      rw [SerializeTask.meaning, canonicalizeJsonValue, canonicalItems_eq, expandTask]
      simp [separated_meaning, SerializeTask.meaning]
    | object fields =>
      rw [SerializeTask.meaning, canonicalizeJsonValue, canonicalFields_eq, sortFields_map,
        List.map_map, expandTask]
      simp [separated_meaning, SerializeTask.meaning, fieldTasks, Function.comp_def, fieldText]
    | _ => simp [SerializeTask.meaning, expandTask, canonicalizeJsonValue]

/-- The tasks of separated members weigh one more for each comma. -/
theorem separated_weight {α : Type} (tasks : α → List SerializeTask) (members : List α) :
    ((separated tasks members).map SerializeTask.weight).sum ≤
      (members.map fun member => ((tasks member).map SerializeTask.weight).sum + 1).sum := by
  cases members with
  | nil => exact le_rfl
  | cons member rest =>
    have hrest : ((rest.flatMap fun next => SerializeTask.text [0x2c] :: tasks next).map
        SerializeTask.weight).sum =
          (rest.map fun member => ((tasks member).map SerializeTask.weight).sum + 1).sum := by
      induction rest with
      | nil => rfl
      | cons next rest ih =>
        simp only [List.flatMap_cons, List.map_append, List.sum_append, ih, List.map_cons,
          List.sum_cons, SerializeTask.weight]
        omega
    rw [separated_cons, List.map_append, List.sum_append, hrest, List.map_cons, List.sum_cons]
    omega

theorem itemsWeight_eq (items : List JsonValue) :
    itemsWeight items = (items.map fun item => valueWeight item + 1).sum := by
  induction items with
  | nil => rfl
  | cons item rest ih => rw [itemsWeight, ih, List.map_cons, List.sum_cons]

theorem fieldsWeight_eq (fields : List (List UInt16 × JsonValue)) :
    fieldsWeight fields = (fields.map fun field => valueWeight field.2 + 3).sum := by
  induction fields with
  | nil => rfl
  | cons field rest ih => rw [fieldsWeight, ih, List.map_cons, List.sum_cons]

/-- A task weighs more than the tasks it leaves. -/
theorem weight_expand (task : SerializeTask) :
    ((expandTask task).2.map SerializeTask.weight).sum < task.weight := by
  cases task with
  | text text => simp [expandTask, SerializeTask.weight]
  | value value =>
    cases value with
    | array items =>
      have hitems := separated_weight (fun item => [SerializeTask.value item]) items
      have hsum : (items.map fun item =>
          ([SerializeTask.value item].map SerializeTask.weight).sum + 1).sum =
            itemsWeight items := by
        rw [itemsWeight_eq]
        simp [SerializeTask.weight]
      rw [hsum] at hitems
      simp only [expandTask, List.map_append, List.map_cons, List.map_nil, List.sum_append,
        List.sum_cons, List.sum_nil, SerializeTask.weight, valueWeight]
      omega
    | object fields =>
      have hfields := separated_weight fieldTasks (sortFields fields)
      have hsum : ((sortFields fields).map fun field =>
          ((fieldTasks field).map SerializeTask.weight).sum + 1).sum =
            fieldsWeight fields := by
        rw [fieldsWeight_eq, ((sortFields_perm fields).map _).sum_eq]
        congr 1
        refine List.map_congr_left fun field _ => ?_
        simp only [fieldTasks, List.map_cons, List.map_nil, List.sum_cons, List.sum_nil,
          SerializeTask.weight]
        omega
      rw [hsum] at hfields
      simp only [expandTask, List.map_append, List.map_cons, List.map_nil, List.sum_append,
        List.sum_cons, List.sum_nil, SerializeTask.weight, valueWeight]
      omega
    | _ => simp [expandTask, SerializeTask.weight, valueWeight]

/-- The serialiser ends, with the canonical text. -/
theorem serializeCanonicalJsonValue_eq (value : JsonValue) :
    serializeCanonicalJsonValue value = some (canonicalizeJsonValue value) := by
  have hrun := WorkStack.run_eq meaning_expand weight_expand (valueWeight value) [.value value]
    (by simp [SerializeTask.weight]) []
  rw [serializeCanonicalJsonValue, hrun]
  simp [SerializeTask.meaning]

end Serialize

/-! ## Normalising -/

/-- What a host hands over.  `unsupported` is everything that `normalizeJson` refuses:
undefined, a function, a number that is not finite or is `-0`, a proxy, an instance of a
class, an accessor, a hole of an array, an object inside itself. -/
inductive JsSource where
  | null
  | bool (value : Bool)
  | number (text : String)
  | string (units : List UInt16)
  | array (items : List JsSource)
  | object (fields : List (List UInt16 × JsSource))
  | unsupported

inductive InvalidJsonValueError where
  | invalidJsonValue
  deriving DecidableEq, Repr

/-- A container that is being copied: what is copied already, and what is left.  A member
that is being copied is still the first of what is left. -/
inductive NormalizeFrame where
  | array (target : List JsonValue) (source : List JsSource)
  | object (target : List (List UInt16 × JsonValue)) (source : List (List UInt16 × JsSource))

/-- `capture`: a value that is complete, or the frame that completes it. -/
def capture : JsSource → Except InvalidJsonValueError (JsonValue ⊕ NormalizeFrame)
  | .null => .ok (.inl .null)
  | .bool value => .ok (.inl (.bool value))
  | .number text => .ok (.inl (.number text))
  | .string units => .ok (.inl (.string units))
  | .array [] => .ok (.inl (.array []))
  | .array (item :: rest) => .ok (.inr (.array [] (item :: rest)))
  | .object [] => .ok (.inl (.object []))
  | .object (field :: rest) => .ok (.inr (.object [] (field :: rest)))
  | .unsupported => .error .invalidJsonValue

namespace NormalizeFrame

/-- What is left to copy. -/
def todo : NormalizeFrame → List JsSource
  | .array _ source => source
  | .object _ source => source.map Prod.snd

/-- The copy so far. -/
def copied : NormalizeFrame → JsonValue
  | .array target _ => .array target
  | .object target _ => .object target

/-- The frame with the copy of its next member. -/
def put (value : JsonValue) : NormalizeFrame → NormalizeFrame
  | .array target source => .array (target ++ [value]) source.tail
  | .object target ((key, _) :: rest) => .object (target ++ [(key, value)]) rest
  | .object target [] => .object target []

end NormalizeFrame

mutual

/-- How many rounds a source takes at most. -/
def sourceWeight : JsSource → Nat
  | .array items => 2 + sourcesWeight items
  | .object fields => 2 + membersWeight fields
  | _ => 1

def sourcesWeight : List JsSource → Nat
  | [] => 0
  | item :: rest => sourceWeight item + sourcesWeight rest

def membersWeight : List (List UInt16 × JsSource) → Nat
  | [] => 0
  | (_, value) :: rest => sourceWeight value + membersWeight rest

end

/-- The loop of `normalizeJson` over its frames.  None where the fuel runs out first. -/
def normalizeLoop : Nat → NormalizeFrame → List NormalizeFrame →
    Option (Except InvalidJsonValueError JsonValue)
  | 0, _, _ => none
  | fuel + 1, frame, frames =>
    match frame.todo with
    | [] =>
      match frames with
      | [] => some (.ok frame.copied)
      | parent :: frames => normalizeLoop fuel (parent.put frame.copied) frames
    | child :: _ =>
      match capture child with
      | .error error => some (.error error)
      | .ok (.inl value) => normalizeLoop fuel (frame.put value) frames
      | .ok (.inr opened) => normalizeLoop fuel opened (frame :: frames)

/-- `normalizeJson` without limits, which is `normalizeJsonValue`. -/
def normalizeJson (source : JsSource) : Option (Except InvalidJsonValueError JsonValue) :=
  match capture source with
  | .error error => some (.error error)
  | .ok (.inl value) => some (.ok value)
  | .ok (.inr frame) => normalizeLoop (sourceWeight source) frame []

mutual

/-- The copy a recursion makes. -/
def normalizeValue : JsSource → Except InvalidJsonValueError JsonValue
  | .null => .ok .null
  | .bool value => .ok (.bool value)
  | .number text => .ok (.number text)
  | .string units => .ok (.string units)
  | .array items => do
    let target ← normalizeItems items
    return .array target
  | .object fields => do
    let target ← normalizeFields fields
    return .object target
  | .unsupported => .error .invalidJsonValue

def normalizeItems : List JsSource → Except InvalidJsonValueError (List JsonValue)
  | [] => .ok []
  | item :: rest => do
    let value ← normalizeValue item
    let target ← normalizeItems rest
    return value :: target

def normalizeFields : List (List UInt16 × JsSource) →
    Except InvalidJsonValueError (List (List UInt16 × JsonValue))
  | [] => .ok []
  | (key, source) :: rest => do
    let value ← normalizeValue source
    let target ← normalizeFields rest
    return (key, value) :: target

end

section Normalize

/-- The copy a frame ends with. -/
def NormalizeFrame.finish : NormalizeFrame → Except InvalidJsonValueError JsonValue
  | .array target source => do
    let rest ← normalizeItems source
    return .array (target ++ rest)
  | .object target source => do
    let rest ← normalizeFields source
    return .object (target ++ rest)

/-- The copy the frames end with, once the frame above them has ended with a value. -/
def finishAll : List NormalizeFrame → JsonValue → Except InvalidJsonValueError JsonValue
  | [], value => .ok value
  | frame :: frames, value => (frame.put value).finish >>= finishAll frames

def NormalizeFrame.weight (frame : NormalizeFrame) : Nat :=
  1 + (frame.todo.map sourceWeight).sum

/-- The weight of a frame without the member that is being copied. -/
def NormalizeFrame.laterWeight (frame : NormalizeFrame) : Nat :=
  1 + (frame.todo.tail.map sourceWeight).sum

theorem sourcesWeight_eq (items : List JsSource) :
    sourcesWeight items = (items.map sourceWeight).sum := by
  induction items with
  | nil => rfl
  | cons item rest ih => rw [sourcesWeight, ih, List.map_cons, List.sum_cons]

theorem membersWeight_eq (fields : List (List UInt16 × JsSource)) :
    membersWeight fields = ((fields.map Prod.snd).map sourceWeight).sum := by
  induction fields with
  | nil => rfl
  | cons field rest ih => rw [membersWeight, ih, List.map_cons, List.map_cons, List.sum_cons]

theorem todo_put (frame : NormalizeFrame) (value : JsonValue) :
    (frame.put value).todo = frame.todo.tail := by
  cases frame with
  | array target source => rfl
  | object target source => cases source <;> rfl

theorem weight_put (frame : NormalizeFrame) (value : JsonValue) :
    (frame.put value).weight = frame.laterWeight := by
  rw [NormalizeFrame.weight, todo_put, NormalizeFrame.laterWeight]

theorem finish_nil {frame : NormalizeFrame} (h : frame.todo = []) :
    frame.finish = .ok frame.copied := by
  cases frame with
  | array target source =>
    cases h
    simp [NormalizeFrame.finish, normalizeItems, NormalizeFrame.copied, bind, Except.bind, pure,
      Except.pure]
  | object target source =>
    rw [NormalizeFrame.todo, List.map_eq_nil_iff] at h
    cases h
    simp [NormalizeFrame.finish, normalizeFields, NormalizeFrame.copied, bind, Except.bind, pure,
      Except.pure]

theorem finish_cons {frame : NormalizeFrame} {child : JsSource} {rest : List JsSource}
    (h : frame.todo = child :: rest) :
    frame.finish = normalizeValue child >>= fun value => (frame.put value).finish := by
  cases frame with
  | array target source =>
    cases h
    simp only [NormalizeFrame.finish, normalizeItems, NormalizeFrame.put, bind, Except.bind]
    cases normalizeValue child with
    | error e => rfl
    | ok value =>
      cases hrest : normalizeItems rest <;> simp [pure, Except.pure, hrest]
  | object target source =>
    cases source with
    | nil => cases h
    | cons field fields =>
      obtain ⟨key, member⟩ := field
      cases h
      simp only [NormalizeFrame.finish, normalizeFields, NormalizeFrame.put, bind, Except.bind]
      cases normalizeValue member with
      | error e => rfl
      | ok value => cases normalizeFields fields <;> simp [pure, Except.pure]

/-- What `capture` answers is the beginning of the copy. -/
theorem capture_spec (source : JsSource) :
    match capture source with
    | .error error => normalizeValue source = .error error
    | .ok (.inl value) => normalizeValue source = .ok value
    | .ok (.inr frame) =>
      normalizeValue source = frame.finish ∧ sourceWeight source = frame.weight + 1 := by
  cases source with
  | array items =>
    cases items with
    | nil => rfl
    | cons item rest =>
      refine ⟨rfl, ?_⟩
      rw [sourceWeight, sourcesWeight_eq, NormalizeFrame.weight, NormalizeFrame.todo]
      omega
  | object fields =>
    cases fields with
    | nil => rfl
    | cons field rest =>
      refine ⟨rfl, ?_⟩
      rw [sourceWeight, membersWeight_eq, NormalizeFrame.weight, NormalizeFrame.todo]
      omega
  | _ => rfl

theorem one_le_sourceWeight (source : JsSource) : 1 ≤ sourceWeight source := by
  cases source with
  | array items => rw [sourceWeight]; omega
  | object fields => rw [sourceWeight]; omega
  | _ => exact le_rfl

/-- The loop ends, with the copy its frames end with. -/
theorem normalizeLoop_eq {fuel : Nat} {frame : NormalizeFrame} {frames : List NormalizeFrame}
    (hfuel : frame.weight + (frames.map NormalizeFrame.laterWeight).sum ≤ fuel) :
    normalizeLoop fuel frame frames = some (frame.finish >>= finishAll frames) := by
  induction fuel generalizing frame frames with
  | zero =>
    rw [NormalizeFrame.weight] at hfuel
    omega
  | succ fuel ih =>
    cases htodo : frame.todo with
    | nil =>
      rw [NormalizeFrame.weight, htodo] at hfuel
      rw [finish_nil htodo]
      cases frames with
      | nil =>
        simp only [normalizeLoop, htodo]
        rfl
      | cons parent frames =>
        simp only [normalizeLoop, htodo]
        rw [ih]
        · rfl
        · rw [weight_put]
          simp only [List.map_nil, List.sum_nil, List.map_cons, List.sum_cons] at hfuel
          omega
    | cons child rest =>
      have hweight : frame.weight = sourceWeight child + frame.laterWeight := by
        rw [NormalizeFrame.weight, NormalizeFrame.laterWeight, htodo, List.map_cons,
          List.sum_cons, List.tail_cons]
        omega
      have hchild := one_le_sourceWeight child
      have hcapture := capture_spec child
      rw [finish_cons htodo]
      simp only [normalizeLoop, htodo]
      cases hcaptured : capture child with
      | error e =>
        rw [hcaptured] at hcapture
        rw [hcapture]
        rfl
      | ok captured =>
        cases captured with
        | inl value =>
          rw [hcaptured] at hcapture
          rw [hcapture]
          dsimp only
          rw [ih]
          · rfl
          · rw [weight_put]
            omega
        | inr opened =>
          rw [hcaptured] at hcapture
          obtain ⟨hfinish, hopened⟩ := hcapture
          rw [hfinish]
          dsimp only
          rw [ih]
          · cases opened.finish <;> rfl
          · rw [List.map_cons, List.sum_cons]
            omega

/-- `normalizeJson` makes the copy that the recursion makes. -/
theorem normalizeJson_eq (source : JsSource) :
    normalizeJson source = some (normalizeValue source) := by
  have hcapture := capture_spec source
  rw [normalizeJson]
  cases hcaptured : capture source with
  | error e =>
    rw [hcaptured] at hcapture
    rw [hcapture]
  | ok captured =>
    cases captured with
    | inl value =>
      rw [hcaptured] at hcapture
      rw [hcapture]
    | inr frame =>
      rw [hcaptured] at hcapture
      obtain ⟨hfinish, hweight⟩ := hcapture
      dsimp only
      rw [hfinish, normalizeLoop_eq]
      · cases frame.finish <;> rfl
      · rw [List.map_nil, List.sum_nil]
        omega

end Normalize

/-! ## Both together -/

mutual

/-- A JSON value as a host hands it over. -/
def JsonValue.toSource : JsonValue → JsSource
  | .null => .null
  | .bool value => .bool value
  | .number text => .number text
  | .string units => .string units
  | .array items => .array (itemsToSource items)
  | .object fields => .object (fieldsToSource fields)

def itemsToSource : List JsonValue → List JsSource
  | [] => []
  | item :: rest => item.toSource :: itemsToSource rest

def fieldsToSource : List (List UInt16 × JsonValue) → List (List UInt16 × JsSource)
  | [] => []
  | (key, value) :: rest => (key, value.toSource) :: fieldsToSource rest

end

mutual

/-- A JSON value is copied as it is, and nothing else is. -/
theorem normalizeValue_eq_ok_iff : ∀ (source : JsSource) (value : JsonValue),
    normalizeValue source = .ok value ↔ source = value.toSource
  | .null, value => by cases value <;> simp [normalizeValue, JsonValue.toSource]
  | .bool _, value => by cases value <;> simp [normalizeValue, JsonValue.toSource]
  | .number _, value => by cases value <;> simp [normalizeValue, JsonValue.toSource]
  | .string _, value => by cases value <;> simp [normalizeValue, JsonValue.toSource]
  | .unsupported, value => by cases value <;> simp [normalizeValue, JsonValue.toSource]
  | .array items, value => by
    simp only [normalizeValue, bind_eq_ok, return_eq_ok, normalizeItems_eq_ok_iff items]
    cases value <;> simp [JsonValue.toSource]
  | .object fields, value => by
    simp only [normalizeValue, bind_eq_ok, return_eq_ok, normalizeFields_eq_ok_iff fields]
    cases value <;> simp [JsonValue.toSource]

theorem normalizeItems_eq_ok_iff : ∀ (items : List JsSource) (target : List JsonValue),
    normalizeItems items = .ok target ↔ items = itemsToSource target
  | [], target => by cases target <;> simp [normalizeItems, itemsToSource]
  | item :: rest, target => by
    simp only [normalizeItems, bind_eq_ok, return_eq_ok, normalizeValue_eq_ok_iff item,
      normalizeItems_eq_ok_iff rest]
    cases target <;> simp [itemsToSource]

theorem normalizeFields_eq_ok_iff : ∀ (fields : List (List UInt16 × JsSource))
    (target : List (List UInt16 × JsonValue)),
    normalizeFields fields = .ok target ↔ fields = fieldsToSource target
  | [], target => by cases target <;> simp [normalizeFields, fieldsToSource]
  | (key, source) :: rest, target => by
    simp only [normalizeFields, bind_eq_ok, return_eq_ok, normalizeValue_eq_ok_iff source,
      normalizeFields_eq_ok_iff rest]
    cases target with
    | nil => simp [fieldsToSource]
    | cons field tail =>
      obtain ⟨name, value⟩ := field
      simp only [fieldsToSource, List.cons.injEq, Prod.mk.injEq]
      constructor
      · rintro ⟨_, hsource, _, hrest, ⟨rfl, rfl⟩, rfl⟩
        exact ⟨⟨rfl, hsource⟩, hrest⟩
      · rintro ⟨⟨rfl, hsource⟩, hrest⟩
        exact ⟨value, hsource, tail, hrest, ⟨rfl, rfl⟩, rfl⟩

end

/-- `canonicalizeJsonValue` on what a host hands over. -/
def canonicalizeSource (source : JsSource) :
    Option (Except InvalidJsonValueError (List UInt16)) := do
  match ← normalizeJson source with
  | .error error => return .error error
  | .ok value =>
    let text ← serializeCanonicalJsonValue value
    return .ok text

/-- A JSON value ends as its canonical text. -/
theorem canonicalize_toSource (value : JsonValue) :
    canonicalizeSource value.toSource = some (.ok (canonicalizeJsonValue value)) := by
  have hvalue := (normalizeValue_eq_ok_iff value.toSource value).2 rfl
  simp [canonicalizeSource, normalizeJson_eq, hvalue, serializeCanonicalJsonValue_eq]

end OpenGameAgent
