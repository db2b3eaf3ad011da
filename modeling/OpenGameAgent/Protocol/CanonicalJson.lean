import Mathlib.Data.List.Forall2
import Mathlib.Data.List.Nodup
import Mathlib.Data.List.Perm.Subperm
import OpenGameAgent.Protocol.JsonParser

/-!
# Canonical JSON as an identity

Two JSON values have one canonical text exactly when they are equal up to the order of
their keys, and the text is read back as the value.

* `JsonValue.SameValue` — equality up to the order of keys.
* `JsonValue.sorted` — a value with its keys sorted, all the way down.
* `parseValue_canonical` — a canonical text is read as the sorted value, whatever follows.
* `sorted_eq_iff` — sorted values are equal when the values are, up to order.
-/

namespace OpenGameAgent

namespace JsonValue

/-- Induction over a value: the items and the members are values too. -/
theorem induction {P : JsonValue → Prop} (null : P .null) (bool : ∀ value, P (.bool value))
    (number : ∀ text, P (.number text)) (string : ∀ units, P (.string units))
    (array : ∀ items, (∀ item ∈ items, P item) → P (.array items))
    (object : ∀ fields, (∀ field ∈ fields, P field.2) → P (.object fields))
    (value : JsonValue) : P value := by
  cases value with
  | null => exact null
  | bool value => exact bool value
  | number text => exact number text
  | string units => exact string units
  | array items =>
    refine array items fun item hitem => ?_
    have : sizeOf item < 1 + sizeOf items := by
      have hlt := List.sizeOf_lt_of_mem hitem
      omega
    exact induction null bool number string array object item
  | object fields =>
    refine object fields fun field hfield => ?_
    have : sizeOf field.2 < 1 + sizeOf fields := by
      have hlt := List.sizeOf_lt_of_mem hfield
      obtain ⟨key, value⟩ := field
      simp only [Prod.mk.sizeOf_spec] at hlt
      show sizeOf value < _
      omega
    exact induction null bool number string array object field.2
termination_by sizeOf value

mutual

/-- The value with its keys sorted, all the way down. -/
def sorted : JsonValue → JsonValue
  | .array items => .array (sortedItems items)
  | .object fields => .object (sortFields (sortedMembers fields))
  | value => value

def sortedItems : List JsonValue → List JsonValue
  | [] => []
  | item :: rest => item.sorted :: sortedItems rest

def sortedMembers : List (List UInt16 × JsonValue) → List (List UInt16 × JsonValue)
  | [] => []
  | (key, value) :: rest => (key, value.sorted) :: sortedMembers rest

end

theorem sortedItems_eq (items : List JsonValue) : sortedItems items = items.map sorted := by
  induction items with
  | nil => rfl
  | cons item rest ih => rw [sortedItems, ih, List.map_cons]

theorem sortedMembers_eq (fields : List (List UInt16 × JsonValue)) :
    sortedMembers fields = fields.map fun field => (field.1, field.2.sorted) := by
  induction fields with
  | nil => rfl
  | cons field rest ih => rw [sortedMembers, ih, List.map_cons]

theorem sorted_array (items : List JsonValue) :
    sorted (.array items) = .array (items.map sorted) := by
  rw [sorted, sortedItems_eq]

theorem sorted_object (fields : List (List UInt16 × JsonValue)) :
    sorted (.object fields) =
      .object ((sortFields fields).map fun field => (field.1, field.2.sorted)) := by
  rw [sorted, sortedMembers_eq, sortFields_map]

mutual

/-- The numbers of a value have texts that `JSON.stringify` writes, and no object has a
key twice. -/
def WellFormed (N : NumberTexts) : JsonValue → Prop
  | .number text => N.Written text
  | .array items => WellFormedItems N items
  | .object fields => (fields.map Prod.fst).Nodup ∧ WellFormedMembers N fields
  | _ => True

def WellFormedItems (N : NumberTexts) : List JsonValue → Prop
  | [] => True
  | item :: rest => item.WellFormed N ∧ WellFormedItems N rest

def WellFormedMembers (N : NumberTexts) : List (List UInt16 × JsonValue) → Prop
  | [] => True
  | (_, value) :: rest => value.WellFormed N ∧ WellFormedMembers N rest

end

theorem wellFormed_array {N : NumberTexts} {items : List JsonValue} :
    WellFormed N (.array items) ↔ ∀ item ∈ items, item.WellFormed N := by
  rw [WellFormed]
  induction items with
  | nil => simp [WellFormedItems]
  | cons item rest ih => rw [WellFormedItems, ih, List.forall_mem_cons]

theorem wellFormed_object {N : NumberTexts} {fields : List (List UInt16 × JsonValue)} :
    WellFormed N (.object fields) ↔
      (fields.map Prod.fst).Nodup ∧ ∀ field ∈ fields, field.2.WellFormed N := by
  have hmembers : WellFormedMembers N fields ↔ ∀ field ∈ fields, field.2.WellFormed N := by
    induction fields with
    | nil => simp [WellFormedMembers]
    | cons field rest ih => rw [WellFormedMembers, ih, List.forall_mem_cons]
  rw [WellFormed, hmembers]

mutual

/-- Equal up to the order of keys: as many members, and each of one is a member of the
other. -/
def SameValue : JsonValue → JsonValue → Prop
  | .null, .null => True
  | .bool a, .bool b => a = b
  | .number a, .number b => a = b
  | .string a, .string b => a = b
  | .array a, .array b => SameItems a b
  | .object a, .object b => a.length = b.length ∧ SameMembers a b
  | _, _ => False

def SameItems : List JsonValue → List JsonValue → Prop
  | [], [] => True
  | a :: as, b :: bs => a.SameValue b ∧ SameItems as bs
  | _, _ => False

def SameMembers : List (List UInt16 × JsonValue) → List (List UInt16 × JsonValue) → Prop
  | [], _ => True
  | (key, a) :: rest, bs => (∃ b, (key, b) ∈ bs ∧ a.SameValue b) ∧ SameMembers rest bs

end

theorem sameItems_forall₂ {as bs : List JsonValue} :
    SameItems as bs ↔ List.Forall₂ SameValue as bs := by
  induction as generalizing bs with
  | nil => cases bs <;> simp [SameItems]
  | cons a as ih => cases bs <;> simp [SameItems, ih]

theorem sameMembers_iff {as bs : List (List UInt16 × JsonValue)} :
    SameMembers as bs ↔ ∀ a ∈ as, ∃ b, (a.1, b) ∈ bs ∧ a.2.SameValue b := by
  induction as with
  | nil => simp [SameMembers]
  | cons a as ih => rw [SameMembers, ih, List.forall_mem_cons]

end JsonValue

/-! ## Reading a value back -/

section Read

variable (N : NumberTexts)

/-- The text of a value begins with a unit that is neither blank nor closes anything. -/
theorem canonical_head {value : JsonValue} (h : value.WellFormed N) :
    ∃ u rest, canonicalizeJsonValue value = u :: rest ∧ isBlankUnit u = false ∧ u ≠ 0x5d ∧
      u ≠ 0x7d := by
  cases value with
  | null => exact ⟨_, _, rfl, by decide, by decide, by decide⟩
  | bool value => cases value <;> exact ⟨_, _, rfl, by decide, by decide, by decide⟩
  | number text =>
    obtain ⟨⟨u, rest, htext, hu⟩, -⟩ := isNumberLiteral_spec (N.literal text h)
    refine ⟨u, rest, htext, ?_⟩
    rcases hu with rfl | hdigit
    · exact ⟨by decide, by decide, by decide⟩
    · revert hdigit
      have hall : ∀ u : UInt16, isDigitUnit u = true → 48 ≤ u.toNat ∧ u.toNat ≤ 57 := by
        intro u hu
        rw [isDigitUnit, Bool.and_eq_true, decide_eq_true_eq, decide_eq_true_eq] at hu
        exact ⟨UInt16.le_iff_toNat_le.1 hu.1, UInt16.le_iff_toNat_le.1 hu.2⟩
      intro hdigit
      obtain ⟨hlow, hhigh⟩ := hall u hdigit
      refine ⟨?_, ?_, ?_⟩
      · rw [Bool.eq_false_iff]
        intro hblank
        simp only [isBlankUnit, Bool.or_eq_true, decide_eq_true_eq] at hblank
        rcases hblank with ((rfl | rfl) | rfl) | rfl <;> exact absurd hlow (by decide)
      · rintro rfl
        exact absurd hhigh (by decide)
      · rintro rfl
        exact absurd hhigh (by decide)
  | string units => exact ⟨_, _, rfl, by decide, by decide, by decide⟩
  | array items => exact ⟨_, _, rfl, by decide, by decide, by decide⟩
  | object fields => exact ⟨_, _, rfl, by decide, by decide, by decide⟩

theorem skipBlanks_cons {u : UInt16} (h : isBlankUnit u = false) (rest : List UInt16) :
    skipBlanks (u :: rest) = u :: rest := by
  rw [skipBlanks, List.dropWhile_cons_of_neg (by simp [h])]

/-- A value is read from its text, whatever follows it. -/
def ReadsBack (value : JsonValue) : Prop :=
  ∀ fuel rest, (canonicalizeJsonValue value).length ≤ fuel → Delimited rest →
    parseValue N fuel (canonicalizeJsonValue value ++ rest) = some (value.sorted, rest)

theorem delimited_cons {u : UInt16} (h : isNumberUnit u = false) (rest : List UInt16) :
    Delimited (u :: rest) := by
  rintro _ ⟨⟩
  exact h

/-- The last item. -/
theorem parseItems_last {fuel : Nat} {text rest : List UInt16} {item : JsonValue}
    (h : parseValue N fuel text = some (item, 0x5d :: rest)) :
    parseItems N (fuel + 1) text = some ([item], rest) := by
  rw [parseItems, h]
  rfl

/-- An item with more behind it. -/
theorem parseItems_more {fuel : Nat} {text rest : List UInt16} {item : JsonValue}
    (h : parseValue N fuel text = some (item, 0x2c :: rest)) :
    parseItems N (fuel + 1) text =
      (parseItems N fuel rest).map fun read => (item :: read.1, read.2) := by
  rw [parseItems, h]
  show (parseItems N fuel rest >>= fun read => some (item :: read.1, read.2)) = _
  cases parseItems N fuel rest <;> rfl

/-- Items that are read back one by one are read back as an array. -/
theorem parseItems_canonical {item : JsonValue} {items : List JsonValue}
    (h : ∀ other ∈ item :: items, ReadsBack N other) (fuel : Nat) (rest : List UInt16)
    (hfuel : (joinTexts ((item :: items).map canonicalizeJsonValue)).length < fuel) :
    parseItems N fuel (joinTexts ((item :: items).map canonicalizeJsonValue) ++ 0x5d :: rest) =
      some ((item :: items).map JsonValue.sorted, rest) := by
  have hitem := h item (List.mem_cons_self ..)
  induction items generalizing item fuel with
  | nil =>
    have hjoin : joinTexts ([item].map canonicalizeJsonValue) = canonicalizeJsonValue item := rfl
    rw [hjoin] at hfuel ⊢
    cases fuel with
    | zero => omega
    | succ fuel =>
      exact parseItems_last N (hitem fuel (0x5d :: rest) (by omega)
        (delimited_cons (by decide) rest))
  | cons next items ih =>
    have hjoin : joinTexts ((item :: next :: items).map canonicalizeJsonValue) =
        canonicalizeJsonValue item ++
          0x2c :: joinTexts ((next :: items).map canonicalizeJsonValue) := rfl
    rw [hjoin, List.length_append, List.length_cons] at hfuel
    rw [hjoin, List.append_assoc, List.cons_append]
    cases fuel with
    | zero => omega
    | succ fuel =>
      rw [parseItems_more N (hitem fuel _ (by omega) (delimited_cons (by decide) _)),
        ih (fun other hother => h other (List.mem_cons_of_mem _ hother)) fuel (by omega)
          (h next (List.mem_cons_of_mem _ (List.mem_cons_self ..)))]
      rfl

/-- A member up to its value. -/
theorem parseFields_value {fuel : Nat} {key text rest : List UInt16} {value : JsonValue} {u : UInt16}
    (h : parseValue N fuel text = some (value, u :: rest)) (hu : isBlankUnit u = false) :
    parseFields N (fuel + 1) (stringifyString key ++ 0x3a :: text) =
      if u = 0x7d then some ([(key, value)], rest)
      else if u = 0x2c then
        (parseFields N fuel rest).map fun read => ((key, value) :: read.1, read.2)
      else none := by
  have hquote : skipBlanks (stringifyString key ++ 0x3a :: text) =
      0x22 :: (quoteUnits key ++ 0x22 :: 0x3a :: text) := by
    rw [stringifyString, List.append_assoc, List.cons_append, skipBlanks_cons (by decide)]
    rfl
  have hcolon : skipBlanks (0x3a :: text) = 0x3a :: text := skipBlanks_cons (by decide) text
  rw [parseFields, hquote]
  simp only [if_true, readString_quoteUnits, Option.bind_eq_bind, Option.bind_some, hcolon, h,
    skipBlanks_cons hu]
  split
  · rfl
  · split
    · cases parseFields N fuel rest <;> rfl
    · rfl

/-- Members whose values are read back one by one are read back as an object. -/
theorem parseFields_canonical {field : List UInt16 × JsonValue}
    {fields : List (List UInt16 × JsonValue)}
    (h : ∀ other ∈ field :: fields, ReadsBack N other.2) (fuel : Nat) (rest : List UInt16)
    (hfuel : (joinTexts ((field :: fields).map fun field =>
      fieldText (field.1, canonicalizeJsonValue field.2))).length < fuel) :
    parseFields N fuel (joinTexts ((field :: fields).map fun field =>
        fieldText (field.1, canonicalizeJsonValue field.2)) ++ 0x7d :: rest) =
      some ((field :: fields).map fun field => (field.1, field.2.sorted), rest) := by
  have hfield := h field (List.mem_cons_self ..)
  induction fields generalizing field fuel with
  | nil =>
    have hjoin : joinTexts ([field].map fun field =>
        fieldText (field.1, canonicalizeJsonValue field.2)) =
          stringifyString field.1 ++ 0x3a :: canonicalizeJsonValue field.2 := rfl
    rw [hjoin, List.length_append, List.length_cons] at hfuel
    rw [hjoin, List.append_assoc, List.cons_append]
    cases fuel with
    | zero => omega
    | succ fuel =>
      rw [parseFields_value N (hfield fuel (0x7d :: rest) (by omega)
        (delimited_cons (by decide) rest)) (by decide)]
      rfl
  | cons next fields ih =>
    have hjoin : joinTexts ((field :: next :: fields).map fun field =>
        fieldText (field.1, canonicalizeJsonValue field.2)) =
          (stringifyString field.1 ++ 0x3a :: canonicalizeJsonValue field.2) ++
            0x2c :: joinTexts ((next :: fields).map fun field =>
              fieldText (field.1, canonicalizeJsonValue field.2)) := rfl
    rw [hjoin, List.length_append, List.length_append, List.length_cons, List.length_cons] at hfuel
    rw [hjoin, List.append_assoc, List.append_assoc, List.cons_append, List.cons_append]
    cases fuel with
    | zero => omega
    | succ fuel =>
      rw [parseFields_value N (hfield fuel _ (by omega) (delimited_cons (by decide) _))
          (by decide), if_neg (by decide), if_pos rfl,
        ih (fun other hother => h other (List.mem_cons_of_mem _ hother)) fuel (by omega)
          (h next (List.mem_cons_of_mem _ (List.mem_cons_self ..)))]
      rfl

/-- Members with different keys are all kept. -/
theorem foldl_defineField {fields done : List (List UInt16 × JsonValue)}
    (h : ((done ++ fields).map Prod.fst).Nodup) :
    fields.foldl defineField done = done ++ fields := by
  induction fields generalizing done with
  | nil => rw [List.foldl_nil, List.append_nil]
  | cons field rest ih =>
    have hnew : (done.map Prod.fst).contains field.1 = false := by
      rw [List.map_append, List.map_cons] at h
      rw [Bool.eq_false_iff]
      intro hmem
      exact (List.nodup_append.1 h).2.2 field.1 (by simpa using hmem) field.1
        (List.mem_cons_self ..) rfl
    rw [List.foldl_cons, defineField, hnew, if_neg Bool.false_ne_true, ih]
    · rw [List.append_assoc, List.singleton_append]
    · rw [List.append_assoc, List.singleton_append]
      exact h

/-- An array with items behind its bracket. -/
theorem parseValue_items {fuel : Nat} {text rest : List UInt16} {items : List JsonValue}
    (hhead : (skipBlanks text).head? ≠ some 0x5d)
    (h : parseItems N fuel text = some (items, rest)) :
    parseValue N (fuel + 1) (0x5b :: text) = some (.array items, rest) := by
  rw [parseValue, skipBlanks_cons (by decide)]
  dsimp only
  rw [if_neg (by decide), if_pos rfl, if_neg hhead, h]
  rfl

/-- An object with members behind its brace. -/
theorem parseValue_fields (fuel : Nat) {text rest : List UInt16}
    {fields : List (List UInt16 × JsonValue)} (hhead : (skipBlanks text).head? ≠ some 0x7d)
    (h : parseFields N fuel text = some (fields, rest)) :
    parseValue N (fuel + 1) (0x7b :: text) =
      some (.object (fields.foldl defineField []), rest) := by
  rw [parseValue, skipBlanks_cons (by decide)]
  dsimp only
  rw [if_neg (by decide), if_neg (by decide), if_pos rfl, if_neg hhead, h]
  rfl

/-- A word is read up to its end. -/
theorem parseValue_word {fuel : Nat} {word : String} {value : JsonValue} {rest : List UInt16}
    (hread : ∀ rest, readWord (utf16 word ++ rest) = some (value, rest))
    (hhead : ∃ u units, utf16 word = u :: units ∧ isBlankUnit u = false ∧ u ≠ 0x22 ∧ u ≠ 0x5b ∧
      u ≠ 0x7b ∧ (u = 0x2d || isDigitUnit u) = false) :
    parseValue N (fuel + 1) (utf16 word ++ rest) = some (value, rest) := by
  obtain ⟨u, units, hword, hblank, hquote, hbracket, hbrace, hnumber⟩ := hhead
  have hskip : skipBlanks (utf16 word ++ rest) = u :: (units ++ rest) := by
    rw [hword, List.cons_append, skipBlanks_cons hblank]
  rw [parseValue, hskip]
  dsimp only
  rw [if_neg hquote, if_neg hbracket, if_neg hbrace, hnumber, if_neg Bool.false_ne_true,
    ← List.cons_append, ← hword, hread]

theorem head_append {text rest : List UInt16} {u v : UInt16} (h : ∃ tail, text = u :: tail)
    (hblank : isBlankUnit u = false) (hne : u ≠ v) :
    (skipBlanks (text ++ rest)).head? ≠ some v := by
  obtain ⟨tail, rfl⟩ := h
  rw [List.cons_append, skipBlanks_cons hblank, List.head?_cons, Ne, Option.some.injEq]
  exact hne

/-- Joined texts begin as their first does. -/
theorem joinTexts_head {text : List UInt16} {texts : List (List UInt16)} {u : UInt16}
    (h : ∃ tail, text = u :: tail) : ∃ tail, joinTexts (text :: texts) = u :: tail := by
  obtain ⟨tail, rfl⟩ := h
  rw [joinTexts_cons]
  exact ⟨_, rfl⟩

/-- Every value is read back from its canonical text, with its keys sorted. -/
theorem parseValue_canonical (value : JsonValue) (hvalue : value.WellFormed N) :
    ReadsBack N value := by
  induction value using JsonValue.induction with
  | null =>
    intro fuel rest hfuel _
    cases fuel with
    | zero => exact absurd hfuel (by decide)
    | succ fuel =>
      exact parseValue_word N (fun _ => rfl)
        ⟨_, _, rfl, by decide, by decide, by decide, by decide, by decide⟩
  | bool value =>
    intro fuel rest hfuel _
    cases fuel with
    | zero => cases value <;> exact absurd hfuel (by decide)
    | succ fuel =>
      cases value with
      | false =>
        exact parseValue_word N (fun _ => rfl)
          ⟨_, _, rfl, by decide, by decide, by decide, by decide, by decide⟩
      | true =>
        exact parseValue_word N (fun _ => rfl)
          ⟨_, _, rfl, by decide, by decide, by decide, by decide, by decide⟩
  | number text =>
    intro fuel rest hfuel hrest
    have hliteral := N.literal text hvalue
    obtain ⟨⟨u, units, htext, hu⟩, -⟩ := isNumberLiteral_spec hliteral
    obtain ⟨v, tail, htext', hblank, -, -⟩ := canonical_head N hvalue
    have hsame : u = v := by
      rw [canonicalizeJsonValue, htext] at htext'
      cases htext'
      rfl
    subst hsame
    have hread := readNumber_append N hliteral hrest
    rw [N.read_written text hvalue] at hread
    cases fuel with
    | zero =>
      rw [canonicalizeJsonValue, htext] at hfuel
      exact absurd hfuel (by simp)
    | succ fuel =>
      have hdispatch : u ≠ 0x22 ∧ u ≠ 0x5b ∧ u ≠ 0x7b ∧ (u = 0x2d || isDigitUnit u) = true := by
        rcases hu with rfl | hdigit
        · decide
        · refine ⟨?_, ?_, ?_, by simp [hdigit]⟩ <;> rintro rfl <;>
            exact absurd hdigit (by decide)
      obtain ⟨hquote, hbracket, hbrace, hnumber⟩ := hdispatch
      rw [canonicalizeJsonValue, parseValue, htext, List.cons_append, skipBlanks_cons hblank]
      dsimp only
      rw [if_neg hquote, if_neg hbracket, if_neg hbrace, if_pos hnumber, ← List.cons_append,
        ← htext, hread]
      rfl
  | string units =>
    intro fuel rest hfuel _
    cases fuel with
    | zero => exact absurd hfuel (by simp [canonicalizeJsonValue, stringifyString])
    | succ fuel =>
      rw [canonicalizeJsonValue, stringifyString, List.append_assoc, List.cons_append, parseValue,
        skipBlanks_cons (by decide)]
      dsimp only
      rw [if_pos rfl, List.singleton_append, readString_quoteUnits]
      rfl
  | array items ih =>
    intro fuel rest hfuel _
    have hitems := JsonValue.wellFormed_array.1 hvalue
    rw [canonicalizeJsonValue, canonicalItems_eq] at hfuel ⊢
    rw [List.length_append, List.length_cons, List.length_singleton] at hfuel
    rw [JsonValue.sorted_array, List.append_assoc, List.cons_append, List.singleton_append]
    cases fuel with
    | zero => omega
    | succ fuel =>
      cases items with
      | nil =>
        rw [parseValue, skipBlanks_cons (by decide)]
        rfl
      | cons item items =>
        obtain ⟨u, tail, htext, hblank, hclose, -⟩ :=
          canonical_head N (hitems item (List.mem_cons_self ..))
        refine parseValue_items N (head_append (joinTexts_head ⟨tail, htext⟩) hblank hclose) ?_
        exact parseItems_canonical N (fun other hother => ih other hother (hitems other hother))
          fuel rest (by omega)
  | object fields ih =>
    intro fuel rest hfuel _
    obtain ⟨hnodup, hfields⟩ := JsonValue.wellFormed_object.1 hvalue
    have hperm := sortFields_perm fields
    have hsorted : ∀ other ∈ sortFields fields, ReadsBack N other.2 := fun other hother =>
      ih other (hperm.mem_iff.1 hother) (hfields other (hperm.mem_iff.1 hother))
    have hkeys : (((sortFields fields).map fun field => (field.1, field.2.sorted)).map
        Prod.fst).Nodup := by
      rw [List.map_map]
      exact ((hperm.map Prod.fst).nodup_iff).2 hnodup
    have htexts : (sortFields (canonicalFields fields)).map fieldText =
        (sortFields fields).map fun field =>
          fieldText (field.1, canonicalizeJsonValue field.2) := by
      rw [canonicalFields_eq, sortFields_map, List.map_map]
      rfl
    rw [canonicalizeJsonValue, htexts] at hfuel ⊢
    rw [List.length_append, List.length_cons, List.length_singleton] at hfuel
    rw [JsonValue.sorted_object, List.append_assoc, List.cons_append, List.singleton_append]
    cases fuel with
    | zero => omega
    | succ fuel =>
      cases hsort : sortFields fields with
      | nil =>
        rw [parseValue, skipBlanks_cons (by decide)]
        rfl
      | cons field later =>
        rw [hsort] at hsorted hkeys hfuel
        have hread := parseValue_fields N fuel
          (head_append (joinTexts_head ⟨_, rfl⟩) (by decide) (by decide))
          (parseFields_canonical N hsorted fuel rest (by omega))
        rw [foldl_defineField (by rw [List.nil_append]; exact hkeys), List.nil_append] at hread
        exact hread

/-- A canonical text is read as the value with its keys sorted. -/
theorem parseJson_canonical {value : JsonValue} (hvalue : value.WellFormed N) :
    parseJson N (canonicalizeJsonValue value) = some value.sorted := by
  have hread := parseValue_canonical N value hvalue ((canonicalizeJsonValue value).length + 1) []
    (Nat.le_succ _) nofun
  rw [List.append_nil] at hread
  rw [parseJson, hread]
  rfl

end Read

/-! ## Sorted values -/

section Order

theorem unitsLe_total (a b : List UInt16) : unitsLe a b = true ∨ unitsLe b a = true := by
  induction a generalizing b with
  | nil => exact Or.inl rfl
  | cons u a ih =>
    cases b with
    | nil => exact Or.inr rfl
    | cons v b =>
      rw [unitsLe, unitsLe]
      by_cases h : u = v
      · rw [if_pos h, if_pos h.symm]
        exact ih b
      · rw [if_neg h, if_neg (Ne.symm h), decide_eq_true_eq, decide_eq_true_eq]
        rcases lt_trichotomy u.toNat v.toNat with hlt | heq | hgt
        · exact Or.inl (UInt16.lt_iff_toNat_lt.2 hlt)
        · exact absurd (UInt16.toNat_inj.1 heq) h
        · exact Or.inr (UInt16.lt_iff_toNat_lt.2 hgt)

theorem unitsLe_antisymm {a b : List UInt16} (hab : unitsLe a b = true) (hba : unitsLe b a = true) :
    a = b := by
  induction a generalizing b with
  | nil =>
    cases b with
    | nil => rfl
    | cons v b => cases hba
  | cons u a ih =>
    cases b with
    | nil => cases hab
    | cons v b =>
      rw [unitsLe] at hab hba
      by_cases h : u = v
      · subst h
        rw [if_pos rfl] at hab hba
        rw [ih hab hba]
      · rw [if_neg h, decide_eq_true_eq, UInt16.lt_iff_toNat_lt] at hab
        rw [if_neg (Ne.symm h), decide_eq_true_eq, UInt16.lt_iff_toNat_lt] at hba
        omega

theorem unitsLe_trans {a b c : List UInt16} (hab : unitsLe a b = true) (hbc : unitsLe b c = true) :
    unitsLe a c = true := by
  induction a generalizing b c with
  | nil => rfl
  | cons u a ih =>
    cases b with
    | nil => cases hab
    | cons v b =>
      cases c with
      | nil => cases hbc
      | cons w c =>
        rw [unitsLe] at hab hbc ⊢
        by_cases huv : u = v
        · subst huv
          rw [if_pos rfl] at hab
          by_cases huw : u = w
          · rw [if_pos huw] at hbc ⊢
            exact ih hab hbc
          · rw [if_neg huw] at hbc ⊢
            exact hbc
        · rw [if_neg huv, decide_eq_true_eq, UInt16.lt_iff_toNat_lt] at hab
          by_cases hvw : v = w
          · subst hvw
            rw [if_neg huv, decide_eq_true_eq, UInt16.lt_iff_toNat_lt]
            exact hab
          · rw [if_neg hvw, decide_eq_true_eq, UInt16.lt_iff_toNat_lt] at hbc
            have hne : u ≠ w := by
              rintro rfl
              omega
            rw [if_neg hne, decide_eq_true_eq, UInt16.lt_iff_toNat_lt]
            omega

variable {α : Type}

/-- The keys of members in their order. -/
def KeysAscend (fields : List (List UInt16 × α)) : Prop :=
  fields.Pairwise fun a b => unitsLe a.1 b.1 = true

theorem keysAscend_insertField (field : List UInt16 × α) {fields : List (List UInt16 × α)}
    (h : KeysAscend fields) : KeysAscend (insertField field fields) := by
  induction fields with
  | nil => exact List.pairwise_singleton _ _
  | cons other rest ih =>
    obtain ⟨hother, hrest⟩ := List.pairwise_cons.1 h
    rw [insertField]
    split
    · rename_i hle
      refine List.pairwise_cons.2 ⟨?_, h⟩
      intro later hlater
      rcases List.mem_cons.1 hlater with rfl | hlater
      · exact hle
      · exact unitsLe_trans hle (hother later hlater)
    · rename_i hgt
      refine List.pairwise_cons.2 ⟨?_, ih hrest⟩
      intro later hlater
      rcases List.mem_cons.1 ((insertField_perm field rest).mem_iff.1 hlater) with rfl | hlater
      · rcases unitsLe_total later.1 other.1 with hle | hle
        · exact absurd hle hgt
        · exact hle
      · exact hother later hlater

theorem keysAscend_sortFields (fields : List (List UInt16 × α)) :
    KeysAscend (sortFields fields) := by
  induction fields with
  | nil => exact List.Pairwise.nil
  | cons field rest ih => exact keysAscend_insertField field ih

theorem eq_of_same_key {fields : List (List UInt16 × α)} (h : (fields.map Prod.fst).Nodup)
    {a b : List UInt16 × α} (ha : a ∈ fields) (hb : b ∈ fields) (hkey : a.1 = b.1) : a = b :=
  List.inj_on_of_nodup_map h ha hb hkey

/-- Members in any order are sorted alike, as long as no key comes twice. -/
theorem sortFields_eq_of_perm {as bs : List (List UInt16 × α)} (hperm : as.Perm bs)
    (hnodup : (bs.map Prod.fst).Nodup) : sortFields as = sortFields bs := by
  have hsorted : (sortFields as).Perm (sortFields bs) :=
    (sortFields_perm as).trans (hperm.trans (sortFields_perm bs).symm)
  refine List.Perm.eq_of_pairwise ?_ (keysAscend_sortFields as) (keysAscend_sortFields bs) hsorted
  intro a b ha hb hab hba
  have hamem := (sortFields_perm bs).mem_iff.1 (hsorted.mem_iff.1 ha)
  have hbmem := (sortFields_perm bs).mem_iff.1 hb
  exact eq_of_same_key hnodup hamem hbmem (unitsLe_antisymm hab hba)

end Order

namespace JsonValue

theorem forall₂_congr_mem {α β : Type} {P Q : α → β → Prop} {as : List α} {bs : List β}
    (h : ∀ a ∈ as, ∀ b ∈ bs, (P a b ↔ Q a b)) : List.Forall₂ P as bs ↔ List.Forall₂ Q as bs := by
  induction as generalizing bs with
  | nil => cases bs <;> simp
  | cons a as ih =>
    cases bs with
    | nil => simp
    | cons b bs =>
      rw [List.forall₂_cons, List.forall₂_cons,
        h a (List.mem_cons_self ..) b (List.mem_cons_self ..),
        ih fun c hc d hd => h c (List.mem_cons_of_mem _ hc) d (List.mem_cons_of_mem _ hd)]

/-- Values are equal up to the order of their keys when they are equal sorted. -/
theorem sorted_eq_iff {N : NumberTexts} (a b : JsonValue) (ha : a.WellFormed N)
    (hb : b.WellFormed N) : a.sorted = b.sorted ↔ a.SameValue b := by
  induction a using JsonValue.induction generalizing b with
  | null => cases b <;> simp [sorted, SameValue]
  | bool value => cases b <;> simp [sorted, SameValue]
  | number text => cases b <;> simp [sorted, SameValue]
  | string units => cases b <;> simp [sorted, SameValue]
  | array as ih =>
    cases b with
    | array bs =>
      have has := wellFormed_array.1 ha
      have hbs := wellFormed_array.1 hb
      rw [sorted_array, sorted_array, array.injEq, SameValue, sameItems_forall₂,
        ← List.forall₂_eq_eq_eq, List.forall₂_map_left_iff, List.forall₂_map_right_iff]
      refine forall₂_congr_mem fun item hitem other hother => ?_
      exact ih item hitem other (has item hitem) (hbs other hother)
    | _ => simp [sorted, SameValue]
  | object as ih =>
    cases b with
    | object bs =>
      obtain ⟨hakeys, has⟩ := wellFormed_object.1 ha
      obtain ⟨hbkeys, hbs⟩ := wellFormed_object.1 hb
      rw [sorted_object, sorted_object, ← sortFields_map, ← sortFields_map, object.injEq,
        SameValue, sameMembers_iff]
      constructor
      · intro h
        have hperm := ((sortFields_perm _).symm.trans (h ▸ sortFields_perm _) :
          (as.map fun field => (field.1, field.2.sorted)).Perm
            (bs.map fun field => (field.1, field.2.sorted)))
        refine ⟨by simpa using hperm.length_eq, ?_⟩
        intro field hfield
        have hmem := hperm.mem_iff.1 (List.mem_map_of_mem hfield)
        obtain ⟨⟨key, value⟩, hother, heq⟩ := List.mem_map.1 hmem
        rw [Prod.mk.injEq] at heq
        obtain ⟨rfl, heq⟩ := heq
        exact ⟨value, hother, (ih field hfield value (has field hfield) (hbs _ hother)).1 heq.symm⟩
      · rintro ⟨hlength, hmembers⟩
        refine sortFields_eq_of_perm ?_ ?_
        · refine List.Subperm.perm_of_length_le (List.subperm_of_subset ?_ ?_) ?_
          · refine List.Nodup.of_map Prod.fst ?_
            rw [List.map_map]
            exact hakeys
          · intro field hfield
            obtain ⟨member, hmember, rfl⟩ := List.mem_map.1 hfield
            obtain ⟨value, hvalue, hsame⟩ := hmembers member hmember
            refine List.mem_map.2 ⟨(member.1, value), hvalue, ?_⟩
            rw [(ih member hmember value (has member hmember) (hbs _ hvalue)).2 hsame]
          · rw [List.length_map, List.length_map, hlength]
        · rw [List.map_map]
          exact hbkeys
    | _ => simp [sorted, SameValue]

end JsonValue

/-- Sorted members stay as they are. -/
theorem sortFields_sorted {α : Type} (fields : List (List UInt16 × α))
    (h : KeysAscend fields) : sortFields fields = fields := by
  induction fields with
  | nil => rfl
  | cons field rest ih =>
    obtain ⟨hfield, hrest⟩ := List.pairwise_cons.1 h
    rw [sortFields, ih hrest]
    cases rest with
    | nil => rfl
    | cons other rest => rw [insertField, if_pos (hfield other (List.mem_cons_self ..))]

/-- A value has the canonical text of its sorted form. -/
theorem canonicalizeJsonValue_sorted (value : JsonValue) :
    canonicalizeJsonValue value.sorted = canonicalizeJsonValue value := by
  induction value using JsonValue.induction with
  | array items ih =>
    have hitems : (items.map JsonValue.sorted).map canonicalizeJsonValue =
        items.map canonicalizeJsonValue := by
      rw [List.map_map]
      exact List.map_congr_left ih
    rw [JsonValue.sorted_array, canonicalizeJsonValue, canonicalizeJsonValue, canonicalItems_eq,
      canonicalItems_eq, hitems]
  | object fields ih =>
    have hfields : ((sortFields fields).map fun field => (field.1, field.2.sorted)).map
        (fun field => (field.1, canonicalizeJsonValue field.2)) =
          (sortFields fields).map fun field => (field.1, canonicalizeJsonValue field.2) := by
      rw [List.map_map]
      refine List.map_congr_left fun field hfield => ?_
      rw [Function.comp_apply, ih field ((sortFields_perm fields).mem_iff.1 hfield)]
    have hsorted : sortFields ((sortFields fields).map fun field =>
        (field.1, canonicalizeJsonValue field.2)) =
          (sortFields fields).map fun field => (field.1, canonicalizeJsonValue field.2) := by
      rw [sortFields_map, sortFields_sorted _ (keysAscend_sortFields fields)]
    rw [JsonValue.sorted_object, canonicalizeJsonValue, canonicalizeJsonValue,
      canonicalFields_eq, canonicalFields_eq, hfields, hsorted, sortFields_map]
  | _ => rfl

/-- Sorting a value leaves it the same value. -/
theorem sameValue_sorted (value : JsonValue) : value.SameValue value.sorted := by
  induction value using JsonValue.induction with
  | null => trivial
  | bool value => rfl
  | number text => rfl
  | string units => rfl
  | array items ih =>
    rw [JsonValue.sorted_array, JsonValue.SameValue, JsonValue.sameItems_forall₂]
    induction items with
    | nil => exact .nil
    | cons item rest ihRest =>
      exact .cons (ih item (List.mem_cons_self ..))
        (ihRest fun other hother => ih other (List.mem_cons_of_mem _ hother))
  | object fields ih =>
    rw [JsonValue.sorted_object, JsonValue.SameValue, JsonValue.sameMembers_iff, List.length_map]
    refine ⟨(sortFields_perm fields).length_eq.symm, ?_⟩
    intro field hfield
    exact ⟨field.2.sorted,
      List.mem_map.2 ⟨field, (sortFields_perm fields).mem_iff.2 hfield, rfl⟩, ih field hfield⟩

end OpenGameAgent
