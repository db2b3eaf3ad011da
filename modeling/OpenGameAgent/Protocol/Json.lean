import Mathlib.Algebra.BigOperators.Group.List.Basic
import Mathlib.Algebra.Order.Ring.Nat

/-!
# Canonical JSON

The JSON values of `packages/protocol/src/json.ts`, their canonical text and the
two byte counts the code takes of them.

* `JsonValue` — a normalised value.  Strings are sequences of UTF-16 code units,
  so a lone surrogate is representable; a finite number is the text that
  `JSON.stringify` writes for it.
* `canonicalizeJsonValue` — the canonical text: keys sorted by code unit, no
  blanks, strings quoted as `JSON.stringify` quotes them.
* `jsonBytes` — the UTF-8 length of that text, and `canonicalBytes`, the count
  `normalizeJson` keeps while it walks the value; `jsonBytes_eq_canonicalBytes`
  says they are one number.
* `isOpaqueIdentifier` — the pattern every identifier of the protocol passes.
-/

namespace OpenGameAgent

/-! ## UTF-16 text -/

/-- The code units of one character. -/
def charUnits (c : Char) : List UInt16 :=
  if c.toNat < 0x10000 then [c.toNat.toUInt16]
  else [(0xd800 + (c.toNat - 0x10000) / 0x400).toUInt16,
    (0xdc00 + (c.toNat - 0x10000) % 0x400).toUInt16]

/-- A well-formed string as the code units JavaScript holds it in. -/
def utf16 (s : String) : List UInt16 := s.toList.flatMap charUnits

def isHighSurrogate (u : UInt16) : Bool := 0xd800 ≤ u && u ≤ 0xdbff

def isLowSurrogate (u : UInt16) : Bool := 0xdc00 ≤ u && u ≤ 0xdfff

/-- The UTF-8 length of a unit on its own; a lone surrogate takes the three bytes
of the replacement character. -/
def soloBytes (u : UInt16) : Nat := if u ≤ 0x7f then 1 else if u ≤ 0x7ff then 2 else 3

/-- `Buffer.byteLength` of a string: a surrogate pair takes four bytes. -/
def utf8Length : List UInt16 → Nat
  | [] => 0
  | [u] => soloBytes u
  | u :: v :: rest =>
    if isHighSurrogate u && isLowSurrogate v then 4 + utf8Length rest
    else soloBytes u + utf8Length (v :: rest)

/-- Text after which no surrogate pair is left open, so that appending to it
cannot change how its own units are encoded. -/
def Closed (a : List UInt16) : Prop := ∀ u, a.getLast? = some u → isHighSurrogate u = false

theorem closed_nil : Closed [] := by
  intro u h
  simp at h

theorem closed_append {a b : List UInt16} (hb : b ≠ []) (h : Closed b) : Closed (a ++ b) := by
  intro u hu
  refine h u ?_
  rwa [List.getLast?_append_of_ne_nil _ hb] at hu

theorem Closed.append {a b : List UInt16} (ha : Closed a) (hb : Closed b) : Closed (a ++ b) := by
  by_cases h : b = []
  · subst h
    simpa using ha
  · exact closed_append h hb

theorem Closed.tail {u v : UInt16} {l : List UInt16} (h : Closed (u :: v :: l)) :
    Closed (v :: l) := by
  intro w hw
  refine h w ?_
  rw [List.getLast?_cons_cons]
  exact hw

/-- Encoding distributes over appending to closed text. -/
theorem utf8Length_append (a b : List UInt16) (ha : Closed a) :
    utf8Length (a ++ b) = utf8Length a + utf8Length b := by
  induction a using utf8Length.induct with
  | case1 => simp [utf8Length]
  | case2 u =>
    have hu : isHighSurrogate u = false := ha u rfl
    cases b <;> simp [utf8Length, hu]
  | case3 u v rest h ih =>
    have hrest : Closed rest := by
      cases rest with
      | nil => exact closed_nil
      | cons w l => exact ha.tail.tail
    simp only [List.cons_append, utf8Length, h, if_true, ih hrest]
    omega
  | case4 u v rest h ih =>
    have := ih ha.tail
    simp only [List.cons_append] at this
    simp only [List.cons_append, utf8Length, h, Bool.false_eq_true, if_false, this]
    omega

/-! ## Quoting a string -/

def hexDigit (n : Nat) : UInt16 := if n < 10 then (48 + n).toUInt16 else (87 + n).toUInt16

/-- The six units of a `\uXXXX` escape. -/
def unicodeEscape (u : UInt16) : List UInt16 :=
  [0x5c, 0x75, hexDigit (u.toNat / 4096), hexDigit (u.toNat / 256 % 16),
    hexDigit (u.toNat / 16 % 16), hexDigit (u.toNat % 16)]

/-- How `JSON.stringify` writes one unit that is not part of a surrogate pair. -/
def quoteUnit (u : UInt16) : List UInt16 :=
  if u = 0x22 then [0x5c, 0x22]
  else if u = 0x5c then [0x5c, 0x5c]
  else if u = 0x08 then [0x5c, 0x62]
  else if u = 0x09 then [0x5c, 0x74]
  else if u = 0x0a then [0x5c, 0x6e]
  else if u = 0x0c then [0x5c, 0x66]
  else if u = 0x0d then [0x5c, 0x72]
  else if u ≤ 0x1f || isHighSurrogate u || isLowSurrogate u then unicodeEscape u
  else [u]

def quoteUnits : List UInt16 → List UInt16
  | [] => []
  | [u] => quoteUnit u
  | u :: v :: rest =>
    if isHighSurrogate u && isLowSurrogate v then u :: v :: quoteUnits rest
    else quoteUnit u ++ quoteUnits (v :: rest)

/-- `JSON.stringify` of a string. -/
def stringifyString (units : List UInt16) : List UInt16 := 0x22 :: quoteUnits units ++ [0x22]

/-- The bytes one unit adds in `jsonStringBytes`. -/
def unitBytes (u : UInt16) : Nat :=
  if u = 0x22 || u = 0x5c || u = 0x08 || u = 0x09 || u = 0x0a || u = 0x0c || u = 0x0d then 2
  else if u ≤ 0x1f || isHighSurrogate u || isLowSurrogate u then 6
  else soloBytes u

def unitsBytes : List UInt16 → Nat
  | [] => 0
  | [u] => unitBytes u
  | u :: v :: rest =>
    if isHighSurrogate u && isLowSurrogate v then 4 + unitsBytes rest
    else unitBytes u + unitsBytes (v :: rest)

def jsonStringBytes (value : List UInt16) : Nat := 2 + unitsBytes value

theorem hexDigit_le (n : Nat) (h : n < 16) : hexDigit n ≤ 0x7f := by
  revert n
  decide

theorem not_high_of_lt {u : UInt16} (h : u.toNat < 0xd800) : isHighSurrogate u = false := by
  have hn : ¬ (0xd800 : UInt16) ≤ u := by
    rw [UInt16.le_iff_toNat_le]
    simpa using h
  simp [isHighSurrogate, hn]

theorem not_high_of_le {u : UInt16} (h : u ≤ 0x7f) : isHighSurrogate u = false :=
  not_high_of_lt (lt_of_le_of_lt (UInt16.le_iff_toNat_le.mp h) (by decide))

theorem unicodeEscape_spec (u : UInt16) :
    Closed (unicodeEscape u) ∧ utf8Length (unicodeEscape u) = 6 := by
  have hu : u.toNat < 65536 := u.toNat_lt
  have h1 := hexDigit_le (u.toNat / 4096) (by omega)
  have h2 := hexDigit_le (u.toNat / 256 % 16) (by omega)
  have h3 := hexDigit_le (u.toNat / 16 % 16) (by omega)
  have h4 := hexDigit_le (u.toNat % 16) (by omega)
  refine ⟨?_, ?_⟩
  · intro w hw
    simp only [unicodeEscape, List.getLast?_cons_cons, List.getLast?_singleton,
      Option.some.injEq] at hw
    exact hw ▸ not_high_of_le h4
  · have h5 : (0x5c : UInt16) ≤ 0x7f := by decide
    have h6 : (0x75 : UInt16) ≤ 0x7f := by decide
    simp [unicodeEscape, utf8Length, soloBytes, not_high_of_le, h1, h2, h3, h4, h5, h6]

theorem quoteUnit_spec (u : UInt16) :
    Closed (quoteUnit u) ∧ utf8Length (quoteUnit u) = unitBytes u := by
  by_cases hc : u = 0x22 ∨ u = 0x5c ∨ u = 0x08 ∨ u = 0x09 ∨ u = 0x0a ∨ u = 0x0c ∨ u = 0x0d
  · rcases hc with h | h | h | h | h | h | h <;> subst h <;>
      exact ⟨fun w hw => by revert hw; simp [quoteUnit]; rintro rfl; decide, by decide⟩
  · simp only [not_or] at hc
    obtain ⟨h1, h2, h3, h4, h5, h6, h7⟩ := hc
    by_cases hs : (u ≤ 0x1f || isHighSurrogate u || isLowSurrogate u) = true
    · simp only [quoteUnit, unitBytes, h1, h2, h3, h4, h5, h6, h7, hs, if_false, if_true,
        decide_false, Bool.or_self, Bool.false_eq_true]
      exact unicodeEscape_spec u
    · have hh : isHighSurrogate u = false := by
        simp only [Bool.or_eq_true, not_or, Bool.not_eq_true] at hs
        exact hs.1.2
      simp only [quoteUnit, unitBytes, h1, h2, h3, h4, h5, h6, h7, hs, if_false,
        decide_false, Bool.or_self, Bool.false_eq_true]
      refine ⟨?_, rfl⟩
      intro w hw
      simp only [List.getLast?_singleton, Option.some.injEq] at hw
      exact hw ▸ hh

theorem not_high_of_low {v : UInt16} (h : isLowSurrogate v = true) :
    isHighSurrogate v = false := by
  simp only [isLowSurrogate, Bool.and_eq_true, decide_eq_true_eq] at h
  have hn : ¬ v ≤ (0xdbff : UInt16) := by
    have := UInt16.le_iff_toNat_le.mp h.1
    rw [UInt16.le_iff_toNat_le]
    simp at this ⊢
    omega
  simp [isHighSurrogate, hn]

theorem quoteUnits_spec : ∀ units : List UInt16,
    Closed (quoteUnits units) ∧ utf8Length (quoteUnits units) = unitsBytes units := by
  intro units
  induction units using quoteUnits.induct with
  | case1 => exact ⟨closed_nil, rfl⟩
  | case2 u => exact quoteUnit_spec u
  | case3 u v rest h ih =>
    have hp := h
    simp only [Bool.and_eq_true] at hp
    have hv := not_high_of_low hp.2
    simp only [quoteUnits, unitsBytes, h, if_true]
    refine ⟨?_, ?_⟩
    · have hone : Closed [v] := by
        intro w hw
        simp only [List.getLast?_singleton, Option.some.injEq] at hw
        exact hw ▸ hv
      exact (closed_append (a := [u]) (by simp) hone).append ih.1
    · simp [utf8Length, h, ih.2]
  | case4 u v rest h ih =>
    obtain ⟨hc, hb⟩ := quoteUnit_spec u
    simp only [quoteUnits, unitsBytes, h, if_false, Bool.false_eq_true]
    exact ⟨hc.append ih.1, by rw [utf8Length_append _ _ hc, hb, ih.2]⟩

theorem closed_singleton {u : UInt16} (h : isHighSurrogate u = false) : Closed [u] := by
  intro w hw
  simp only [List.getLast?_singleton, Option.some.injEq] at hw
  exact hw ▸ h

theorem stringifyString_spec (units : List UInt16) :
    Closed (stringifyString units) ∧
      utf8Length (stringifyString units) = jsonStringBytes units := by
  obtain ⟨hc, hb⟩ := quoteUnits_spec units
  have hq : Closed [(0x22 : UInt16)] := closed_singleton (by decide)
  have hpre : Closed ((0x22 : UInt16) :: quoteUnits units) := hq.append hc
  refine ⟨hpre.append hq, ?_⟩
  rw [stringifyString, utf8Length_append _ _ hpre,
    show (0x22 : UInt16) :: quoteUnits units = [0x22] ++ quoteUnits units from rfl,
    utf8Length_append _ _ hq, hb, show utf8Length [(0x22 : UInt16)] = 1 from by decide,
    jsonStringBytes]
  omega

/-! ## Values -/

/-- A normalised JSON value. -/
inductive JsonValue where
  | null
  | bool (value : Bool)
  /-- A finite number other than `-0`, given by the text `JSON.stringify` writes for it. -/
  | number (text : String)
  | string (units : List UInt16)
  | array (items : List JsonValue)
  | object (fields : List (List UInt16 × JsonValue))

namespace JsonValue

/-- A string value given by a well-formed string. -/
def text (s : String) : JsonValue := .string (utf16 s)

/-- An integral number value. -/
def int (n : Int) : JsonValue := .number (toString n)

/-- An object whose keys are plain names, with the absent members left out. -/
def record (fields : List (String × Option JsonValue)) : JsonValue :=
  .object (fields.filterMap fun field => field.2.map fun value => (utf16 field.1, value))

mutual

/-- Whether two values are written alike, members in the same order. -/
def same : JsonValue → JsonValue → Bool
  | .null, .null => true
  | .bool a, .bool b => a = b
  | .number a, .number b => a = b
  | .string a, .string b => a = b
  | .array a, .array b => sameItems a b
  | .object a, .object b => sameFields a b
  | _, _ => false

def sameItems : List JsonValue → List JsonValue → Bool
  | [], [] => true
  | a :: as, b :: bs => same a b && sameItems as bs
  | _, _ => false

def sameFields : List (List UInt16 × JsonValue) → List (List UInt16 × JsonValue) → Bool
  | [], [] => true
  | (k, a) :: as, (j, b) :: bs => k = j && same a b && sameFields as bs
  | _, _ => false

end

mutual

theorem same_iff : ∀ a b : JsonValue, same a b = true ↔ a = b
  | .null, b => by cases b <;> simp [same]
  | .bool a, b => by cases b <;> simp [same]
  | .number a, b => by cases b <;> simp [same]
  | .string a, b => by cases b <;> simp [same]
  | .array a, .array b => by simp [same, sameItems_iff a b]
  | .object a, .object b => by simp [same, sameFields_iff a b]
  | .array _, .null | .array _, .bool _ | .array _, .number _ | .array _, .string _
  | .array _, .object _ => by simp [same]
  | .object _, .null | .object _, .bool _ | .object _, .number _ | .object _, .string _
  | .object _, .array _ => by simp [same]

theorem sameItems_iff : ∀ as bs : List JsonValue, sameItems as bs = true ↔ as = bs
  | [], bs => by cases bs <;> simp [sameItems]
  | a :: as, [] => by simp [sameItems]
  | a :: as, b :: bs => by
    rw [sameItems, Bool.and_eq_true, same_iff a b, sameItems_iff as bs, List.cons.injEq]

theorem sameFields_iff :
    ∀ as bs : List (List UInt16 × JsonValue), sameFields as bs = true ↔ as = bs
  | [], bs => by cases bs <;> simp [sameFields]
  | (k, a) :: as, [] => by simp [sameFields]
  | (k, a) :: as, (j, b) :: bs => by
    rw [sameFields, Bool.and_eq_true, Bool.and_eq_true, same_iff a b, sameFields_iff as bs,
      decide_eq_true_eq, List.cons.injEq, Prod.mk.injEq]

end

instance : DecidableEq JsonValue := fun a b => decidable_of_iff _ (same_iff a b)

end JsonValue

/-- The order of `Array.prototype.sort` on strings: code unit by code unit. -/
def unitsLe : List UInt16 → List UInt16 → Bool
  | [], _ => true
  | _ :: _, [] => false
  | u :: a, v :: b => if u = v then unitsLe a b else u < v

/-- The order of `Array.prototype.sort` on strings. -/
def textLe (a b : String) : Prop := unitsLe (utf16 a) (utf16 b) = true

instance : DecidableRel textLe := fun _ _ => inferInstanceAs (Decidable (_ = true))

/-- Put one object member in its place among members sorted by key. -/
def insertField {α : Type} (field : List UInt16 × α) :
    List (List UInt16 × α) → List (List UInt16 × α)
  | [] => [field]
  | other :: rest =>
    if unitsLe field.1 other.1 then field :: other :: rest
    else other :: insertField field rest

def sortFields {α : Type} : List (List UInt16 × α) → List (List UInt16 × α)
  | [] => []
  | field :: rest => insertField field (sortFields rest)

/-- Texts joined by commas. -/
def joinTexts : List (List UInt16) → List UInt16
  | [] => []
  | [text] => text
  | text :: rest => text ++ 0x2c :: joinTexts rest

/-- One member of an object's text. -/
def fieldText (field : List UInt16 × List UInt16) : List UInt16 :=
  stringifyString field.1 ++ 0x3a :: field.2

mutual

/-- The canonical text of a value, in UTF-16 code units. -/
def canonicalizeJsonValue : JsonValue → List UInt16
  | .null => utf16 "null"
  | .bool value => utf16 (if value then "true" else "false")
  | .number text => utf16 text
  | .string units => stringifyString units
  | .array items => 0x5b :: joinTexts (canonicalItems items) ++ [0x5d]
  | .object fields =>
    0x7b :: joinTexts ((sortFields (canonicalFields fields)).map fieldText) ++ [0x7d]

def canonicalItems : List JsonValue → List (List UInt16)
  | [] => []
  | item :: rest => canonicalizeJsonValue item :: canonicalItems rest

def canonicalFields : List (List UInt16 × JsonValue) → List (List UInt16 × List UInt16)
  | [] => []
  | (key, value) :: rest => (key, canonicalizeJsonValue value) :: canonicalFields rest

end

/-- `Buffer.byteLength(canonicalizeJsonValue(value))`. -/
def jsonBytes (value : JsonValue) : Nat := utf8Length (canonicalizeJsonValue value)

mutual

/-- The count `normalizeJson` adds up while it walks a value. -/
def canonicalBytes : JsonValue → Nat
  | .null => 4
  | .bool value => if value then 4 else 5
  | .number text => utf8Length (utf16 text)
  | .string units => jsonStringBytes units
  | .array items => 2 + (items.length - 1) + itemsBytes items
  | .object fields => 2 + (fields.length - 1) + fieldsBytes fields

def itemsBytes : List JsonValue → Nat
  | [] => 0
  | item :: rest => canonicalBytes item + itemsBytes rest

def fieldsBytes : List (List UInt16 × JsonValue) → Nat
  | [] => 0
  | (key, value) :: rest => jsonStringBytes key + 1 + canonicalBytes value + fieldsBytes rest

end

mutual

/-- The nesting depth `normalizeJson` compares with `maxDepth`; the root is at depth one. -/
def jsonDepth : JsonValue → Nat
  | .array items => 1 + itemsDepth items
  | .object fields => 1 + fieldsDepth fields
  | _ => 1

def itemsDepth : List JsonValue → Nat
  | [] => 0
  | item :: rest => max (jsonDepth item) (itemsDepth rest)

def fieldsDepth : List (List UInt16 × JsonValue) → Nat
  | [] => 0
  | (_, value) :: rest => max (jsonDepth value) (fieldsDepth rest)

end

/-! ## The two byte counts agree -/

theorem closed_charUnits (c : Char) : Closed (charUnits c) := by
  have hc := c.valid
  unfold charUnits
  split
  · rename_i h
    refine closed_singleton ?_
    rcases c.valid with hv | hv
    · exact not_high_of_lt (by
        rw [Nat.toUInt16_eq, UInt16.toNat_ofNat', Nat.mod_eq_of_lt (by omega)]
        exact hv)
    · have h1 : ¬ c.toNat.toUInt16 ≤ (0xdbff : UInt16) := by
        rw [UInt16.le_iff_toNat_le, Nat.toUInt16_eq, UInt16.toNat_ofNat',
          Nat.mod_eq_of_lt (by omega)]
        have : 0xdfff < c.toNat := hv.1
        simp
        omega
      simp [isHighSurrogate, h1]
  · rename_i h
    refine closed_append (a := [_]) (by simp) (closed_singleton (not_high_of_low ?_))
    have hlt : c.toNat < 0x110000 := by
      rcases c.valid with hv | hv
      · exact lt_trans hv (by decide)
      · exact hv.2
    simp only [isLowSurrogate, Bool.and_eq_true, decide_eq_true_eq, UInt16.le_iff_toNat_le,
      Nat.toUInt16_eq, UInt16.toNat_ofNat']
    rw [Nat.mod_eq_of_lt (by omega)]
    simp
    omega

theorem closed_utf16 (s : String) : Closed (utf16 s) := by
  unfold utf16
  induction s.toList with
  | nil => exact closed_nil
  | cons c l ih =>
    rw [List.flatMap_cons]
    exact (closed_charUnits c).append ih

/-- Closed texts in a row stay closed, and their lengths and separators add up. -/
theorem joinTexts_spec : ∀ texts : List (List UInt16), (∀ t ∈ texts, Closed t) →
    Closed (joinTexts texts) ∧
      utf8Length (joinTexts texts) = (texts.length - 1) + (texts.map utf8Length).sum := by
  intro texts
  induction texts using joinTexts.induct with
  | case1 => intro _; exact ⟨closed_nil, rfl⟩
  | case2 t => intro h; exact ⟨h t (by simp), by simp [joinTexts]⟩
  | case3 t rest hne ih =>
    intro h
    obtain ⟨hc, hb⟩ := ih fun u hu => h u (List.mem_cons_of_mem _ hu)
    have ht := h t (by simp)
    have hcomma : Closed [(0x2c : UInt16)] := closed_singleton (by decide)
    have hrest : rest ≠ [] := fun hr => hne hr
    have hj : joinTexts (t :: rest) = t ++ ([0x2c] ++ joinTexts rest) := by
      cases rest with
      | nil => exact absurd rfl hrest
      | cons a l => rfl
    rw [hj]
    refine ⟨ht.append (hcomma.append hc), ?_⟩
    rw [utf8Length_append _ _ ht, utf8Length_append _ _ hcomma, hb,
      show utf8Length [(0x2c : UInt16)] = 1 from by decide]
    have : 0 < rest.length := List.length_pos_iff.mpr hrest
    simp only [List.length_cons, List.map_cons, List.sum_cons]
    omega

theorem insertField_perm {α : Type} (f : List UInt16 × α) (l : List (List UInt16 × α)) :
    (insertField f l).Perm (f :: l) := by
  induction l with
  | nil => exact List.Perm.refl _
  | cons a l ih =>
    rw [insertField]
    split
    · exact List.Perm.refl _
    · exact (ih.cons a).trans (List.Perm.swap f a l)

theorem sortFields_perm {α : Type} (l : List (List UInt16 × α)) : (sortFields l).Perm l := by
  induction l with
  | nil => exact List.Perm.refl _
  | cons a l ih => exact (insertField_perm a _).trans (ih.cons a)

/-- Wrapping closed text in a pair of brackets adds two bytes. -/
theorem bracket_spec (o c : UInt16) (a : List UInt16) (ho : o ≤ 0x7f) (hc : c ≤ 0x7f)
    (ha : Closed a) :
    Closed (o :: a ++ [c]) ∧ utf8Length (o :: a ++ [c]) = 2 + utf8Length a := by
  have h1 : Closed [o] := closed_singleton (not_high_of_le ho)
  have h2 : Closed [c] := closed_singleton (not_high_of_le hc)
  have hpre : Closed (o :: a) := h1.append ha
  refine ⟨hpre.append h2, ?_⟩
  rw [utf8Length_append _ _ hpre, show o :: a = [o] ++ a from rfl, utf8Length_append _ _ h1]
  simp only [utf8Length, soloBytes, ho, hc, if_true]
  omega

theorem fieldText_spec (f : List UInt16 × List UInt16) (h : Closed f.2) :
    Closed (fieldText f) ∧
      utf8Length (fieldText f) = jsonStringBytes f.1 + 1 + utf8Length f.2 := by
  obtain ⟨hk, hb⟩ := stringifyString_spec f.1
  have hcolon : Closed [(0x3a : UInt16)] := closed_singleton (by decide)
  rw [fieldText, show stringifyString f.1 ++ 0x3a :: f.2
    = stringifyString f.1 ++ ([0x3a] ++ f.2) from rfl]
  refine ⟨hk.append (hcolon.append h), ?_⟩
  rw [utf8Length_append _ _ hk, utf8Length_append _ _ hcolon, hb,
    show utf8Length [(0x3a : UInt16)] = 1 from by decide]
  omega

mutual

theorem canonicalizeJsonValue_spec : ∀ v : JsonValue,
    Closed (canonicalizeJsonValue v) ∧ jsonBytes v = canonicalBytes v
  | .null => ⟨closed_utf16 _, by decide⟩
  | .bool value => ⟨closed_utf16 _, by cases value <;> decide⟩
  | .number text => ⟨closed_utf16 _, by simp [jsonBytes, canonicalizeJsonValue, canonicalBytes]⟩
  | .string units => by
    rw [jsonBytes, canonicalizeJsonValue, canonicalBytes]
    exact stringifyString_spec units
  | .array items => by
    obtain ⟨hc, hl, hb⟩ := canonicalItems_spec items
    obtain ⟨hj, hjb⟩ := joinTexts_spec _ hc
    obtain ⟨h1, h2⟩ := bracket_spec 0x5b 0x5d _ (by decide) (by decide) hj
    rw [jsonBytes, canonicalizeJsonValue, canonicalBytes]
    exact ⟨h1, by rw [h2, hjb, hl, hb]; omega⟩
  | .object fields => by
    obtain ⟨hc, hl, hb⟩ := canonicalFields_spec fields
    have hp := sortFields_perm (canonicalFields fields)
    have hclosed : ∀ t ∈ (sortFields (canonicalFields fields)).map fieldText, Closed t := by
      intro t ht
      obtain ⟨f, hf, rfl⟩ := List.mem_map.1 ht
      exact (fieldText_spec f (hc f (hp.mem_iff.1 hf))).1
    obtain ⟨hj, hjb⟩ := joinTexts_spec _ hclosed
    obtain ⟨h1, h2⟩ := bracket_spec 0x7b 0x7d _ (by decide) (by decide) hj
    rw [jsonBytes, canonicalizeJsonValue, canonicalBytes]
    refine ⟨h1, ?_⟩
    rw [h2, hjb, List.length_map, hp.length_eq, hl, List.map_map,
      (hp.map (utf8Length ∘ fieldText)).sum_eq, hb]
    omega

theorem canonicalItems_spec : ∀ items : List JsonValue,
    (∀ t ∈ canonicalItems items, Closed t) ∧ (canonicalItems items).length = items.length ∧
      ((canonicalItems items).map utf8Length).sum = itemsBytes items
  | [] => ⟨by simp [canonicalItems], rfl, rfl⟩
  | item :: rest => by
    obtain ⟨h1, h2⟩ := canonicalizeJsonValue_spec item
    obtain ⟨g1, g2, g3⟩ := canonicalItems_spec rest
    rw [jsonBytes] at h2
    simp only [canonicalItems, List.forall_mem_cons, List.length_cons, List.map_cons,
      List.sum_cons, itemsBytes, h2, g2, g3]
    exact ⟨⟨h1, g1⟩, trivial, trivial⟩

theorem canonicalFields_spec : ∀ fields : List (List UInt16 × JsonValue),
    (∀ f ∈ canonicalFields fields, Closed f.2) ∧
      (canonicalFields fields).length = fields.length ∧
      ((canonicalFields fields).map (utf8Length ∘ fieldText)).sum = fieldsBytes fields
  | [] => ⟨by simp [canonicalFields], rfl, rfl⟩
  | (key, value) :: rest => by
    obtain ⟨h1, h2⟩ := canonicalizeJsonValue_spec value
    obtain ⟨g1, g2, g3⟩ := canonicalFields_spec rest
    rw [jsonBytes] at h2
    have hf := (fieldText_spec (key, canonicalizeJsonValue value) h1).2
    simp only [canonicalFields, List.forall_mem_cons, List.length_cons, List.map_cons,
      List.sum_cons, fieldsBytes, Function.comp, hf, h2, g2] at g3 ⊢
    exact ⟨⟨h1, g1⟩, trivial, by rw [← g3]⟩

end

/-- The count kept during normalisation is the length of the canonical text. -/
theorem jsonBytes_eq_canonicalBytes (v : JsonValue) : jsonBytes v = canonicalBytes v :=
  (canonicalizeJsonValue_spec v).2

/-! ## What a text takes at least -/

theorem one_le_unitBytes (u : UInt16) : 1 ≤ unitBytes u := by
  unfold unitBytes soloBytes
  split
  · omega
  · split
    · omega
    · split
      · omega
      · split <;> omega

theorem length_le_unitsBytes (units : List UInt16) : units.length ≤ unitsBytes units := by
  induction units using unitsBytes.induct with
  | case1 => simp [unitsBytes]
  | case2 u =>
    have := one_le_unitBytes u
    simpa [unitsBytes] using this
  | case3 u v rest h ih =>
    simp only [List.length_cons, unitsBytes, h, if_true]
    omega
  | case4 u v rest h ih =>
    have := one_le_unitBytes u
    simp only [List.length_cons] at ih
    simp only [List.length_cons, unitsBytes, h, Bool.false_eq_true, if_false]
    omega

theorem length_le_utf16 (s : String) : s.length ≤ (utf16 s).length := by
  unfold utf16
  rw [← String.length_toList]
  induction s.toList with
  | nil => simp
  | cons c l ih =>
    have hc : 1 ≤ (charUnits c).length := by
      unfold charUnits
      split <;> simp
    simp only [List.length_cons, List.flatMap_cons, List.length_append]
    omega

theorem length_le_jsonBytes_text (s : String) : s.length ≤ canonicalBytes (.text s) := by
  have h1 := length_le_utf16 s
  have h2 := length_le_unitsBytes (utf16 s)
  simp only [JsonValue.text, canonicalBytes, jsonStringBytes]
  omega

theorem length_le_canonicalBytes_array (items : List JsonValue) :
    items.length ≤ canonicalBytes (.array items) := by
  simp only [canonicalBytes]
  omega

theorem canonicalBytes_le_fieldsBytes {fields : List (List UInt16 × JsonValue)}
    {key : List UInt16} {value : JsonValue} (h : (key, value) ∈ fields) :
    canonicalBytes value ≤ fieldsBytes fields := by
  induction fields with
  | nil => cases h
  | cons f rest ih =>
    obtain ⟨k, v⟩ := f
    rw [fieldsBytes]
    rcases List.mem_cons.1 h with heq | hrest
    · cases heq
      omega
    · have := ih hrest
      omega

/-- A member of a record takes no more bytes than the record. -/
theorem canonicalBytes_le_record {fields : List (String × Option JsonValue)} {key : String}
    {value : JsonValue} (h : (key, some value) ∈ fields) :
    canonicalBytes value ≤ canonicalBytes (.record fields) := by
  have hmem : (utf16 key, value) ∈
      fields.filterMap fun field => field.2.map fun value => (utf16 field.1, value) :=
    List.mem_filterMap.2 ⟨(key, some value), h, rfl⟩
  have := canonicalBytes_le_fieldsBytes hmem
  simp only [JsonValue.record, canonicalBytes]
  omega

theorem fieldsBytes_append (a b : List (List UInt16 × JsonValue)) :
    fieldsBytes (a ++ b) = fieldsBytes a + fieldsBytes b := by
  induction a with
  | nil => simp [fieldsBytes]
  | cons f rest ih =>
    obtain ⟨k, v⟩ := f
    rw [List.cons_append, fieldsBytes, fieldsBytes, ih]
    omega

/-- A member that is there makes a record no smaller. -/
theorem canonicalBytes_record_none_le (fields : List (String × Option JsonValue)) (key : String)
    (value : JsonValue) :
    canonicalBytes (.record (fields ++ [(key, none)])) ≤
      canonicalBytes (.record (fields ++ [(key, some value)])) := by
  simp only [JsonValue.record, canonicalBytes, List.filterMap_append, fieldsBytes_append,
    List.length_append]
  simp only [List.filterMap_cons, List.filterMap_nil, Option.map_none, Option.map_some,
    fieldsBytes, List.length_nil, List.length_cons]
  omega

theorem canonicalBytes_record_append_le (a b : List (String × Option JsonValue)) :
    canonicalBytes (.record (a ++ b)) ≤
      canonicalBytes (.record a) + canonicalBytes (.record b) := by
  simp only [JsonValue.record, canonicalBytes, List.filterMap_append, fieldsBytes_append,
    List.length_append]
  omega

/-! ## Identifiers -/

/-- `OpaqueIdentifierSchema`: not empty, no control character. -/
def isOpaqueIdentifier (s : String) : Bool :=
  !s.toList.isEmpty &&
    s.toList.all fun c => !(c.toNat ≤ 0x1f || (0x7f ≤ c.toNat && c.toNat ≤ 0x9f))

/-- The pattern `[0-9a-f]{64}`: digits `0` to `9` and `a` to `f`. -/
def areSha256Digits (digits : List Char) : Bool :=
  digits.length = 64 && digits.all fun c =>
    (0x30 ≤ c.toNat && c.toNat ≤ 0x39) || (0x61 ≤ c.toNat && c.toNat ≤ 0x66)

/-- The pattern `^[0-9a-f]{64}$` of a SHA-256 fingerprint. -/
def isSha256 (s : String) : Bool := areSha256Digits s.toList

/-- `Number.MAX_SAFE_INTEGER`. -/
def maxSafeInteger : Nat := 9007199254740991

end OpenGameAgent
