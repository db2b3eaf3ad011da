import OpenGameAgent.Protocol.CanonicalJson

/-!
# What is fingerprinted

A fingerprint is the SHA-256 of the UTF-8 bytes of a canonical text.  A lone surrogate has
no bytes of its own there, but the canonical text has none: the quotes escape it.

* `canonical_isText` — a canonical text is well-formed, whatever strings the value holds.
* `canonical_identity` — two values have one canonical text, and one sequence of bytes,
  exactly when they are equal up to the order of their keys.
-/

namespace OpenGameAgent

/-- Text without lone surrogates. -/
def IsText (units : List UInt16) : Prop := ∃ s : String, utf16 s = units

theorem utf16_append (s t : String) : utf16 (s ++ t) = utf16 s ++ utf16 t := by
  rw [utf16, String.toList_append, List.flatMap_append, utf16, utf16]

theorem isText_nil : IsText [] := ⟨"", rfl⟩

theorem IsText.append {a b : List UInt16} (ha : IsText a) (hb : IsText b) : IsText (a ++ b) := by
  obtain ⟨s, rfl⟩ := ha
  obtain ⟨t, rfl⟩ := hb
  exact ⟨s ++ t, utf16_append s t⟩

theorem utf16_singleton (c : Char) : utf16 (String.singleton c) = charUnits c := by
  rw [utf16, String.toList_singleton, List.flatMap_cons, List.flatMap_nil, List.append_nil]

theorem exists_char {n : Nat} (h : n.isValidChar) : ∃ c : Char, c.toNat = n :=
  ⟨Char.ofNatAux n h, rfl⟩

/-- A unit that is no surrogate is a character. -/
theorem isText_unit {u : UInt16} (hhigh : isHighSurrogate u = false)
    (hlow : isLowSurrogate u = false) : IsText [u] := by
  have hu : u.toNat < 65536 := u.toNat_lt
  have hvalid : u.toNat.isValidChar := by
    simp only [isHighSurrogate, isLowSurrogate, Bool.and_eq_false_iff, decide_eq_false_iff_not,
      UInt16.le_iff_toNat_le, not_le] at hhigh hlow
    have h1 : (0xd800 : UInt16).toNat = 0xd800 := rfl
    have h2 : (0xdbff : UInt16).toNat = 0xdbff := rfl
    have h3 : (0xdc00 : UInt16).toNat = 0xdc00 := rfl
    have h4 : (0xdfff : UInt16).toNat = 0xdfff := rfl
    rw [Nat.isValidChar]
    omega
  obtain ⟨c, hc⟩ := exists_char hvalid
  refine ⟨String.singleton c, ?_⟩
  rw [utf16_singleton, charUnits, hc, if_pos hu, Nat.toUInt16_eq, UInt16.ofNat_toNat]

/-- A surrogate pair is a character. -/
theorem isText_pair {u v : UInt16} (hhigh : isHighSurrogate u = true)
    (hlow : isLowSurrogate v = true) : IsText [u, v] := by
  simp only [isHighSurrogate, isLowSurrogate, Bool.and_eq_true, decide_eq_true_eq,
    UInt16.le_iff_toNat_le] at hhigh hlow
  have h1 : (0xd800 : UInt16).toNat = 0xd800 := rfl
  have h2 : (0xdbff : UInt16).toNat = 0xdbff := rfl
  have h3 : (0xdc00 : UInt16).toNat = 0xdc00 := rfl
  have h4 : (0xdfff : UInt16).toNat = 0xdfff := rfl
  have hvalid : (0x10000 + (u.toNat - 0xd800) * 0x400 + (v.toNat - 0xdc00)).isValidChar := by
    rw [Nat.isValidChar]
    omega
  obtain ⟨c, hc⟩ := exists_char hvalid
  refine ⟨String.singleton c, ?_⟩
  have hfirst : 0xd800 + (c.toNat - 0x10000) / 0x400 = u.toNat := by omega
  have hsecond : 0xdc00 + (c.toNat - 0x10000) % 0x400 = v.toNat := by omega
  rw [utf16_singleton, charUnits, if_neg (by omega), hfirst, hsecond, Nat.toUInt16_eq,
    UInt16.ofNat_toNat, Nat.toUInt16_eq, UInt16.ofNat_toNat]

theorem isText_ascii {u : UInt16} (h : u ≤ 0x7f) : IsText [u] := by
  have hu : u.toNat ≤ 0x7f := UInt16.le_iff_toNat_le.1 h
  refine isText_unit (not_high_of_lt (by omega)) ?_
  rw [isLowSurrogate, Bool.and_eq_false_iff]
  left
  rw [decide_eq_false_iff_not, UInt16.le_iff_toNat_le]
  have h3 : (0xdc00 : UInt16).toNat = 0xdc00 := rfl
  omega

theorem isText_of_ascii {units : List UInt16} (h : ∀ u ∈ units, u ≤ 0x7f) : IsText units := by
  induction units with
  | nil => exact isText_nil
  | cons u rest ih =>
    exact (isText_ascii (h u (List.mem_cons_self ..))).append
      (ih fun v hv => h v (List.mem_cons_of_mem _ hv))

theorem isText_escape {u v : UInt16} (h : u ≤ 0x7f ∧ v ≤ 0x7f) : IsText [u, v] :=
  (isText_ascii h.1).append (isText_ascii h.2)

theorem isText_unicodeEscape (u : UInt16) : IsText (unicodeEscape u) := by
  have hu : u.toNat < 65536 := u.toNat_lt
  refine isText_of_ascii ?_
  intro v hv
  simp only [unicodeEscape, List.mem_cons, List.not_mem_nil, or_false] at hv
  rcases hv with rfl | rfl | rfl | rfl | rfl | rfl
  · decide
  · decide
  · exact hexDigit_le _ (by omega)
  · exact hexDigit_le _ (by omega)
  · exact hexDigit_le _ (by omega)
  · exact hexDigit_le _ (by omega)

/-- A quoted unit is text: a lone surrogate is escaped. -/
theorem isText_quoteUnit (u : UInt16) : IsText (quoteUnit u) := by
  unfold quoteUnit
  split
  · exact isText_escape (by decide)
  split
  · exact isText_escape (by decide)
  split
  · exact isText_escape (by decide)
  split
  · exact isText_escape (by decide)
  split
  · exact isText_escape (by decide)
  split
  · exact isText_escape (by decide)
  split
  · exact isText_escape (by decide)
  split
  · exact isText_unicodeEscape u
  · rename_i hplain
    simp only [Bool.or_eq_true, not_or, Bool.not_eq_true] at hplain
    exact isText_unit hplain.1.2 hplain.2

theorem isText_quoteUnits (units : List UInt16) : IsText (quoteUnits units) := by
  induction units using quoteUnits.induct with
  | case1 => exact isText_nil
  | case2 u => exact isText_quoteUnit u
  | case3 u v rest h ih =>
    rw [quoteUnits, if_pos h]
    rw [Bool.and_eq_true] at h
    exact (isText_pair h.1 h.2).append ih
  | case4 u v rest h ih =>
    rw [quoteUnits, if_neg h]
    exact (isText_quoteUnit u).append ih

theorem isText_stringifyString (units : List UInt16) : IsText (stringifyString units) :=
  ((isText_ascii (by decide)).append (isText_quoteUnits units)).append (isText_ascii (by decide))

theorem isText_joinTexts {texts : List (List UInt16)} (h : ∀ text ∈ texts, IsText text) :
    IsText (joinTexts texts) := by
  induction texts using joinTexts.induct with
  | case1 => exact isText_nil
  | case2 text => exact h text (List.mem_cons_self ..)
  | case3 text rest hne ih =>
    rw [joinTexts_cons]
    refine (h text (List.mem_cons_self ..)).append ?_
    have hlater : ∀ later : List (List UInt16), (∀ text ∈ later, IsText text) →
        IsText (later.flatMap fun next => 0x2c :: next) := by
      intro later hlater
      induction later with
      | nil => exact isText_nil
      | cons next later ih =>
        rw [List.flatMap_cons]
        refine (((isText_ascii (u := 0x2c) (by decide)).append
          (hlater next (List.mem_cons_self ..)))).append ?_
        exact ih fun other hother => hlater other (List.mem_cons_of_mem _ hother)
    exact hlater rest fun other hother => h other (List.mem_cons_of_mem _ hother)

/-- A canonical text has no lone surrogate, whatever strings the value holds. -/
theorem canonical_isText (value : JsonValue) : IsText (canonicalizeJsonValue value) := by
  induction value using JsonValue.induction with
  | null => exact ⟨_, rfl⟩
  | bool value => exact ⟨_, rfl⟩
  | number text => exact ⟨text, rfl⟩
  | string units => exact isText_stringifyString units
  | array items ih =>
    rw [canonicalizeJsonValue, canonicalItems_eq]
    refine ((isText_ascii (by decide)).append (isText_joinTexts ?_)).append
      (isText_ascii (by decide))
    intro text htext
    obtain ⟨item, hitem, rfl⟩ := List.mem_map.1 htext
    exact ih item hitem
  | object fields ih =>
    rw [canonicalizeJsonValue, canonicalFields_eq, sortFields_map, List.map_map]
    refine ((isText_ascii (by decide)).append (isText_joinTexts ?_)).append
      (isText_ascii (by decide))
    intro text htext
    obtain ⟨field, hfield, rfl⟩ := List.mem_map.1 htext
    exact (isText_stringifyString field.1).append
      ((isText_ascii (u := 0x3a) (by decide)).append
        (ih field ((sortFields_perm fields).mem_iff.1 hfield)))

/-! ## The characters of a text -/

theorem not_surrogate (c : Char) : c.toNat < 0xd800 ∨ 0xdfff < c.toNat := by
  rcases c.valid with h | h
  · exact Or.inl h
  · exact Or.inr h.1

theorem toNat_lt (c : Char) : c.toNat < 0x110000 := by
  rcases c.valid with h | h
  · exact lt_trans h (by decide)
  · exact h.2

/-- Text falls into characters in one way only. -/
theorem charUnits_append_inj {c d : Char} {a b : List UInt16}
    (h : charUnits c ++ a = charUnits d ++ b) : c = d ∧ a = b := by
  have hc := not_surrogate c
  have hd := not_surrogate d
  have hc' := toNat_lt c
  have hd' := toNat_lt d
  have hnat : ∀ {m n : Nat}, m < 65536 → n < 65536 → m.toUInt16 = n.toUInt16 → m = n := by
    intro m n hm hn heq
    have hsame := congrArg UInt16.toNat heq
    rwa [Nat.toUInt16_eq, Nat.toUInt16_eq, UInt16.toNat_ofNat', UInt16.toNat_ofNat',
      Nat.mod_eq_of_lt hm, Nat.mod_eq_of_lt hn] at hsame
  unfold charUnits at h
  split at h <;> split at h
  · simp only [List.cons_append, List.cons.injEq, List.nil_append] at h
    exact ⟨Char.toNat_inj.1 (hnat (by omega) (by omega) h.1), h.2⟩
  · simp only [List.cons_append, List.cons.injEq, List.nil_append] at h
    have hsame := hnat (by omega) (by omega) h.1
    omega
  · simp only [List.cons_append, List.cons.injEq, List.nil_append] at h
    have hsame := hnat (by omega) (by omega) h.1
    omega
  · simp only [List.cons_append, List.cons.injEq, List.nil_append] at h
    have hfirst := hnat (by omega) (by omega) h.1
    have hsecond := hnat (by omega) (by omega) h.2.1
    exact ⟨Char.toNat_inj.1 (by omega), h.2.2⟩

theorem utf16_injective {s t : String} (h : utf16 s = utf16 t) : s = t := by
  rw [← String.toList_inj]
  unfold utf16 at h
  generalize s.toList = a at h
  generalize t.toList = b at h
  have hne : ∀ (c : Char) (l : List Char), (c :: l).flatMap charUnits ≠ [] := by
    intro c l
    rw [List.flatMap_cons, charUnits]
    split <;> simp
  induction a generalizing b with
  | nil =>
    cases b with
    | nil => rfl
    | cons d b => exact absurd h.symm (hne d b)
  | cons c a ih =>
    cases b with
    | nil => exact absurd h (hne c a)
    | cons d b =>
      rw [List.flatMap_cons, List.flatMap_cons] at h
      obtain ⟨rfl, hrest⟩ := charUnits_append_inj h
      rw [ih b hrest]

/-! ## The identity -/

section Identity

variable {N : NumberTexts} {a b : JsonValue}

/-- Values have one canonical text exactly when they are equal up to the order of keys. -/
theorem canonicalizeJsonValue_eq_iff (ha : a.WellFormed N) (hb : b.WellFormed N) :
    canonicalizeJsonValue a = canonicalizeJsonValue b ↔ a.SameValue b := by
  rw [← JsonValue.sorted_eq_iff a b ha hb]
  constructor
  · intro h
    have hread := parseJson_canonical N ha
    rw [h, parseJson_canonical N hb, Option.some.injEq] at hread
    exact hread.symm
  · intro h
    rw [← canonicalizeJsonValue_sorted a, h, canonicalizeJsonValue_sorted b]

end Identity

/-- Canonical JSON is an identity: `canonicalizeJsonValue` accepts every JSON value; two
values get one text, and so one sequence of bytes to hash, exactly when they are equal up to
the order of keys; and the text is read back as the value. -/
theorem canonical_identity (N : NumberTexts) (a b : JsonValue) (ha : a.WellFormed N)
    (hb : b.WellFormed N) :
    ∃ ta tb, canonicalizeSource a.toSource = some (.ok ta) ∧
      canonicalizeSource b.toSource = some (.ok tb) ∧
      (ta = tb ↔ a.SameValue b) ∧
      (∃ value, parseJson N ta = some value ∧ a.SameValue value) ∧
      ∃ s t : String, utf16 s = ta ∧ utf16 t = tb ∧ (s.toUTF8 = t.toUTF8 ↔ a.SameValue b) := by
  obtain ⟨s, hs⟩ := canonical_isText a
  obtain ⟨t, ht⟩ := canonical_isText b
  have hsame := canonicalizeJsonValue_eq_iff ha hb
  refine ⟨_, _, canonicalize_toSource a, canonicalize_toSource b, hsame,
    ⟨_, parseJson_canonical N ha, sameValue_sorted a⟩, s, t, hs, ht, ?_⟩
  rw [← hsame, ← hs, ← ht]
  constructor
  · intro h
    rw [String.toByteArray_inj.1 h]
  · intro h
    rw [utf16_injective h]

/-- The numbers of one digit. -/
def oneDigit : NumberTexts where
  Written text := ∃ d < 10, text = toString (d : Nat)
  read units := String.ofList (units.map fun u => Char.ofNat u.toNat)
  literal := by
    rintro _ ⟨d, hd, rfl⟩
    revert d
    decide
  read_written := by
    rintro _ ⟨d, hd, rfl⟩
    revert d
    decide

/-- A member called `__proto__`, and a lone surrogate. -/
def surrogateField : JsonValue :=
  .object [(utf16 "__proto__", .number "2"), (utf16 "b", .array [.number "1", .string [0xd800]])]

def surrogateField' : JsonValue :=
  .object [(utf16 "b", .array [.number "1", .string [0xd800]]), (utf16 "__proto__", .number "2")]

theorem canonical_identity_surrogate :
    ∃ ta tb, canonicalizeSource surrogateField.toSource = some (.ok ta) ∧
      canonicalizeSource surrogateField'.toSource = some (.ok tb) ∧
      (ta = tb ↔ surrogateField.SameValue surrogateField') ∧
      (∃ value, parseJson oneDigit ta = some value ∧ surrogateField.SameValue value) ∧
      ∃ s t : String, utf16 s = ta ∧ utf16 t = tb ∧
        (s.toUTF8 = t.toUTF8 ↔ surrogateField.SameValue surrogateField') := by
  refine canonical_identity oneDigit surrogateField surrogateField' ?_ ?_
  · exact ⟨by decide, ⟨2, by decide, rfl⟩, ⟨⟨1, by decide, rfl⟩, trivial, trivial⟩, trivial⟩
  · exact ⟨by decide, ⟨⟨1, by decide, rfl⟩, trivial, trivial⟩, ⟨2, by decide, rfl⟩, trivial⟩

end OpenGameAgent
