import OpenGameAgent.Protocol.JsonAdmission
import OpenGameAgent.Protocol.UnicodeText

/-!
# UTF-8 buffers

A Node buffer that holds a text: `Buffer.from(text, "utf8")`, `buffer.toString("utf8")`, and the
test for a continuation byte that finds the boundaries between characters.

* `decodeUtf8_encodeUtf8` — decoding what was encoded gives the characters back;
* `isContinuation_first`, `isContinuation_inside` — a byte of an encoded text is a continuation byte
  unless a character begins there;
* `utf8Length_utf16`, `jsonStringBytes_utf16` — the bytes of a text, as UTF-8 and as JSON, are
  those of its characters.
-/

namespace OpenGameAgent

/-- `Buffer.from(text, "utf8")`. -/
def encodeUtf8 (chars : List Char) : List UInt8 := chars.flatMap String.utf8EncodeChar

/-- `(value & 0xc0) === 0x80`. -/
def isContinuation (value : UInt8) : Bool := value &&& 0xc0 = 0x80

/-! ## Decoding -/

/-- A character of which some bytes are still to come, and the bounds on the next one. -/
structure PendingChar where
  codePoint : ℕ
  needed : ℕ
  lower : ℕ
  upper : ℕ

/-- What a byte is that does not continue a character. -/
inductive FirstByte where
  | char (c : Char)
  | pending (pending : PendingChar)
  | invalid

def readFirstByte (byte : ℕ) : FirstByte :=
  if byte ≤ 0x7f then .char (Char.ofNat byte)
  else if 0xc2 ≤ byte ∧ byte ≤ 0xdf then .pending ⟨byte - 0xc0, 1, 0x80, 0xbf⟩
  else if 0xe0 ≤ byte ∧ byte ≤ 0xef then
    .pending ⟨byte - 0xe0, 2, if byte = 0xe0 then 0xa0 else 0x80, if byte = 0xed then 0x9f else 0xbf⟩
  else if 0xf0 ≤ byte ∧ byte ≤ 0xf4 then
    .pending ⟨byte - 0xf0, 3, if byte = 0xf0 then 0x90 else 0x80, if byte = 0xf4 then 0x8f else 0xbf⟩
  else .invalid

def replacementChar : Char := Char.ofNat 0xfffd

/-- The characters of a byte, and the character it leaves open. -/
def openByte (byte : ℕ) : List Char × Option PendingChar :=
  match readFirstByte byte with
  | .char c => ([c], none)
  | .pending pending => ([], some pending)
  | .invalid => ([replacementChar], none)

/-- One byte; a byte that cannot continue the open character replaces it and is read anew. -/
def decodeByte (state : Option PendingChar) (byte : ℕ) : List Char × Option PendingChar :=
  match state with
  | none => openByte byte
  | some pending =>
    if pending.lower ≤ byte ∧ byte ≤ pending.upper then
      let codePoint := pending.codePoint * 0x40 + (byte - 0x80)
      if pending.needed = 1 then ([Char.ofNat codePoint], none)
      else ([], some ⟨codePoint, pending.needed - 1, 0x80, 0xbf⟩)
    else (replacementChar :: (openByte byte).1, (openByte byte).2)

def decodeFrom (state : Option PendingChar) : List UInt8 → List Char
  | [] => if state.isSome then [replacementChar] else []
  | byte :: bytes =>
    (decodeByte state byte.toNat).1 ++ decodeFrom (decodeByte state byte.toNat).2 bytes

/-- `buffer.toString("utf8")`. -/
def decodeUtf8 (bytes : List UInt8) : List Char := decodeFrom none bytes

/-! ## Encoded characters -/

theorem isContinuation_iff {value : UInt8} :
    isContinuation value = true ↔ 0x80 ≤ value.toNat ∧ value.toNat < 0xc0 := by
  obtain ⟨⟨value⟩⟩ := value
  revert value
  decide +kernel

theorem toNat_ofNat_byte {n : ℕ} (h : n < 256) : (UInt8.ofNat n).toNat = n := by
  rw [UInt8.toNat_ofNat']
  exact Nat.mod_eq_of_lt h

/-- A character begins with a byte that is no continuation, and all its other bytes are. -/
theorem utf8EncodeChar_bytes (c : Char) :
    ∃ first rest, String.utf8EncodeChar c = first :: rest ∧ isContinuation first = false ∧
      ∀ byte ∈ rest, isContinuation byte = true := by
  have hvalid : c.val.toNat < 0x110000 := by
    have := c.valid
    simp only [UInt32.isValidChar, Nat.isValidChar] at this
    omega
  have hfirst : ∀ n, n < 256 → (n < 0x80 ∨ 0xc0 ≤ n) → isContinuation (UInt8.ofNat n) = false := by
    intro n hn hrange
    rw [← Bool.not_eq_true, isContinuation_iff, toNat_ofNat_byte hn]
    omega
  have hnext : ∀ n, 0x80 ≤ n → n < 0xc0 → isContinuation (UInt8.ofNat n) = true := by
    intro n hlow hhigh
    rw [isContinuation_iff, toNat_ofNat_byte (by omega)]
    exact ⟨hlow, hhigh⟩
  fun_cases String.utf8EncodeChar c with
  | case1 v h => exact ⟨_, _, rfl, hfirst _ (by omega) (.inl (by omega)), by simp⟩
  | case2 v h1 h2 =>
    refine ⟨_, _, rfl, hfirst _ (by omega) (.inr (by omega)), ?_⟩
    intro byte hbyte
    rw [List.mem_singleton] at hbyte
    subst hbyte
    exact hnext _ (by omega) (by omega)
  | case3 v h1 h2 h3 =>
    refine ⟨_, _, rfl, hfirst _ (by omega) (.inr (by omega)), ?_⟩
    intro byte hbyte
    simp only [List.mem_cons, List.not_mem_nil, or_false] at hbyte
    rcases hbyte with rfl | rfl <;> exact hnext _ (by omega) (by omega)
  | case4 v h1 h2 h3 =>
    refine ⟨_, _, rfl, hfirst _ (by omega) (.inr (by omega)), ?_⟩
    intro byte hbyte
    simp only [List.mem_cons, List.not_mem_nil, or_false] at hbyte
    rcases hbyte with rfl | rfl | rfl <;> exact hnext _ (by omega) (by omega)

/-! ## Reading back -/

theorem decodeFrom_cons (state : Option PendingChar) {n : ℕ} (h : n < 256) (bytes : List UInt8) :
    decodeFrom state (UInt8.ofNat n :: bytes) =
      (decodeByte state n).1 ++ decodeFrom (decodeByte state n).2 bytes := by
  rw [decodeFrom, toNat_ofNat_byte h]

/-- A byte that continues the open character, and is not its last. -/
theorem decodeByte_more {codePoint needed lower upper byte : ℕ} (hlower : lower ≤ byte)
    (hupper : byte ≤ upper) (hneeded : needed ≠ 1) :
    decodeByte (some ⟨codePoint, needed, lower, upper⟩) byte =
      ([], some ⟨codePoint * 0x40 + (byte - 0x80), needed - 1, 0x80, 0xbf⟩) := by
  simp [decodeByte, hlower, hupper, hneeded]

/-- The last byte of a character. -/
theorem decodeByte_last {codePoint lower upper byte : ℕ} (hlower : lower ≤ byte)
    (hupper : byte ≤ upper) :
    decodeByte (some ⟨codePoint, 1, lower, upper⟩) byte =
      ([Char.ofNat (codePoint * 0x40 + (byte - 0x80))], none) := by
  simp [decodeByte, hlower, hupper]

theorem decodeFrom_char (c : Char) (bytes : List UInt8) :
    decodeFrom none (String.utf8EncodeChar c ++ bytes) = c :: decodeFrom none bytes := by
  have hvalid : c.val.toNat < 0xd800 ∨ (0xdfff < c.val.toNat ∧ c.val.toNat < 0x110000) := by
    have := c.valid
    simp only [UInt32.isValidChar, Nat.isValidChar] at this
    omega
  have hchar : ∀ n, n = c.val.toNat → Char.ofNat n = c := by
    rintro n rfl
    exact Char.ofNat_toNat c
  fun_cases String.utf8EncodeChar c with
  | case1 v h =>
    have hopen : decodeByte none v = ([c], none) := by
      simp only [decodeByte, openByte, readFirstByte, if_pos h, hchar v rfl]
    rw [List.singleton_append, decodeFrom_cons _ (by omega), hopen]
    rfl
  | case2 v h1 h2 =>
    have hv : v = c.val.toNat := rfl
    have hopen : decodeByte none (v / 64 % 32 + 0xc0) = ([], some ⟨v / 64, 1, 0x80, 0xbf⟩) := by
      have hdiv : v / 64 % 32 + 0xc0 - 0xc0 = v / 64 := by omega
      simp only [decodeByte, openByte, readFirstByte]
      rw [if_neg (by omega), if_pos (by omega), hdiv]
    rw [List.cons_append, decodeFrom_cons _ (by omega), hopen, List.nil_append,
      List.singleton_append, decodeFrom_cons _ (by omega), decodeByte_last (by omega) (by omega),
      hchar _ (by omega)]
    rfl
  | case3 v h1 h2 h3 =>
    have hv : v = c.val.toNat := rfl
    have hopen : decodeByte none (v / 4096 % 16 + 0xe0) = ([], some ⟨v / 4096, 2,
        if v / 4096 % 16 + 0xe0 = 0xe0 then 0xa0 else 0x80,
        if v / 4096 % 16 + 0xe0 = 0xed then 0x9f else 0xbf⟩) := by
      have hdiv : v / 4096 % 16 + 0xe0 - 0xe0 = v / 4096 := by omega
      simp only [decodeByte, openByte, readFirstByte]
      rw [if_neg (by omega), if_neg (by omega), if_pos (by omega), hdiv]
    have hbounds : (if v / 4096 % 16 + 0xe0 = 0xe0 then 0xa0 else 0x80) ≤ v / 64 % 64 + 0x80 ∧
        v / 64 % 64 + 0x80 ≤ (if v / 4096 % 16 + 0xe0 = 0xed then 0x9f else 0xbf) := by
      constructor <;> split <;> omega
    rw [List.cons_append, decodeFrom_cons _ (by omega), hopen, List.nil_append, List.cons_append,
      decodeFrom_cons _ (by omega), decodeByte_more hbounds.1 hbounds.2 (by decide), List.nil_append,
      List.singleton_append, decodeFrom_cons _ (by omega), decodeByte_last (by omega) (by omega),
      hchar _ (by omega)]
    rfl
  | case4 v h1 h2 h3 =>
    have hv : v = c.val.toNat := rfl
    have hopen : decodeByte none (v / 262144 % 8 + 0xf0) = ([], some ⟨v / 262144, 3,
        if v / 262144 % 8 + 0xf0 = 0xf0 then 0x90 else 0x80,
        if v / 262144 % 8 + 0xf0 = 0xf4 then 0x8f else 0xbf⟩) := by
      have hdiv : v / 262144 % 8 + 0xf0 - 0xf0 = v / 262144 := by omega
      simp only [decodeByte, openByte, readFirstByte]
      rw [if_neg (by omega), if_neg (by omega), if_neg (by omega), if_pos (by omega), hdiv]
    have hbounds : (if v / 262144 % 8 + 0xf0 = 0xf0 then 0x90 else 0x80) ≤ v / 4096 % 64 + 0x80 ∧
        v / 4096 % 64 + 0x80 ≤ (if v / 262144 % 8 + 0xf0 = 0xf4 then 0x8f else 0xbf) := by
      constructor <;> split <;> omega
    rw [List.cons_append, decodeFrom_cons _ (by omega), hopen, List.nil_append, List.cons_append,
      decodeFrom_cons _ (by omega), decodeByte_more hbounds.1 hbounds.2 (by decide), List.nil_append,
      List.cons_append, decodeFrom_cons _ (by omega),
      decodeByte_more (by omega) (by omega) (by decide), List.nil_append,
      List.singleton_append, decodeFrom_cons _ (by omega), decodeByte_last (by omega) (by omega),
      hchar _ (by omega)]
    rfl

/-- Decoding what was encoded gives the characters back. -/
theorem decodeUtf8_encodeUtf8 (chars : List Char) : decodeUtf8 (encodeUtf8 chars) = chars := by
  induction chars with
  | nil => rfl
  | cons c chars ih =>
    rw [encodeUtf8, List.flatMap_cons, decodeUtf8, decodeFrom_char]
    exact congrArg (c :: ·) ih

/-! ## Boundaries -/

theorem encodeUtf8_cons (c : Char) (chars : List Char) :
    encodeUtf8 (c :: chars) = String.utf8EncodeChar c ++ encodeUtf8 chars := List.flatMap_cons

theorem encodeUtf8_append (a b : List Char) : encodeUtf8 (a ++ b) = encodeUtf8 a ++ encodeUtf8 b :=
  List.flatMap_append

/-- The length of a text as UTF-8. -/
def utf8Size (chars : List Char) : ℕ := (chars.map Char.utf8Size).sum

@[simp] theorem length_encodeUtf8 (chars : List Char) :
    (encodeUtf8 chars).length = utf8Size chars := by
  simp [encodeUtf8, utf8Size, List.length_flatMap]

@[simp] theorem utf8Size_nil : utf8Size [] = 0 := rfl

@[simp] theorem utf8Size_cons (c : Char) (chars : List Char) :
    utf8Size (c :: chars) = c.utf8Size + utf8Size chars := rfl

@[simp] theorem utf8Size_append (a b : List Char) :
    utf8Size (a ++ b) = utf8Size a + utf8Size b := by
  simp [utf8Size]

/-- Where a character begins, the byte continues none. -/
theorem isContinuation_first (before after : List Char) (c : Char) :
    ((encodeUtf8 (before ++ c :: after))[utf8Size before]?).any isContinuation = false := by
  obtain ⟨first, rest, hbytes, hfirst, -⟩ := utf8EncodeChar_bytes c
  rw [encodeUtf8_append, encodeUtf8_cons, hbytes, ← length_encodeUtf8, List.cons_append,
    List.getElem?_append_right (le_refl _), Nat.sub_self]
  exact hfirst

/-- Inside a character, every byte continues it. -/
theorem isContinuation_inside (before after : List Char) (c : Char) {k : ℕ} (hpos : 0 < k)
    (hlt : k < c.utf8Size) :
    ((encodeUtf8 (before ++ c :: after))[utf8Size before + k]?).any isContinuation = true := by
  obtain ⟨first, rest, hbytes, -, hrest⟩ := utf8EncodeChar_bytes c
  have hsize : c.utf8Size = rest.length + 1 := by
    rw [← String.length_utf8EncodeChar, hbytes, List.length_cons]
  obtain ⟨k, rfl⟩ := Nat.exists_eq_succ_of_ne_zero (Nat.pos_iff_ne_zero.mp hpos)
  have hk : k < rest.length := by omega
  rw [encodeUtf8_append, encodeUtf8_cons, hbytes, ← length_encodeUtf8, List.cons_append,
    List.getElem?_append_right (Nat.le_add_right ..), Nat.add_sub_cancel_left,
    Nat.succ_eq_add_one, List.getElem?_cons_succ, List.getElem?_append_left hk,
    List.getElem?_eq_getElem hk]
  exact hrest _ (List.getElem_mem hk)

/-! ## Characters in a JSON string -/

/-- The characters JSON writes as a backslash and one more. -/
def shortEscapes : List ℕ := [0x22, 0x5c, 0x08, 0x09, 0x0a, 0x0c, 0x0d]

/-- The control characters JSON writes with six bytes. -/
def isLongEscape (c : Char) : Bool := c.toNat ≤ 0x1f && !shortEscapes.contains c.toNat

/-- The bytes of a character in a JSON string. -/
def jsonCharBytes (c : Char) : ℕ :=
  if shortEscapes.contains c.toNat then 2 else if c.toNat ≤ 0x1f then 6 else c.utf8Size

def jsonCharsBytes (chars : List Char) : ℕ := (chars.map jsonCharBytes).sum

@[simp] theorem jsonCharsBytes_nil : jsonCharsBytes [] = 0 := rfl

@[simp] theorem jsonCharsBytes_cons (c : Char) (chars : List Char) :
    jsonCharsBytes (c :: chars) = jsonCharBytes c + jsonCharsBytes chars := rfl

@[simp] theorem jsonCharsBytes_append (a b : List Char) :
    jsonCharsBytes (a ++ b) = jsonCharsBytes a + jsonCharsBytes b := by
  simp [jsonCharsBytes]

theorem utf8Size_eq (c : Char) : c.utf8Size =
    if c.toNat ≤ 0x7f then 1 else if c.toNat ≤ 0x7ff then 2 else if c.toNat ≤ 0xffff then 3
    else 4 := by
  simp only [Char.utf8Size, UInt32.le_iff_toNat_le]
  rfl

theorem utf8Size_of_lt {c : Char} (h : c.toNat ≤ 0x7f) : c.utf8Size = 1 := by
  rw [utf8Size_eq, if_pos h]

/-- Quoting makes no character shorter. -/
theorem utf8Size_le_jsonCharBytes (c : Char) : c.utf8Size ≤ jsonCharBytes c := by
  unfold jsonCharBytes
  split
  · rename_i h
    have hlow : c.toNat ≤ 0x7f := by
      simp only [shortEscapes, List.contains_cons, List.contains_nil, Bool.or_false,
        Bool.or_eq_true, beq_iff_eq] at h
      omega
    rw [utf8Size_of_lt hlow]
    decide
  · split
    · rename_i h
      rw [utf8Size_of_lt (by omega)]
      decide
    · exact le_refl _

theorem utf8Size_le_jsonCharsBytes (chars : List Char) : utf8Size chars ≤ jsonCharsBytes chars := by
  induction chars with
  | nil => exact le_refl _
  | cons c chars ih =>
    have hc := utf8Size_le_jsonCharBytes c
    simp only [utf8Size_cons, jsonCharsBytes_cons]
    omega

theorem jsonCharBytes_of_long {c : Char} (h : isLongEscape c = true) : jsonCharBytes c = 6 := by
  simp only [isLongEscape, Bool.and_eq_true, decide_eq_true_eq, Bool.not_eq_true'] at h
  rw [jsonCharBytes, h.2, if_neg Bool.false_ne_true, if_pos h.1]

/-- Every other character takes at most the four bytes of the widest one. -/
theorem jsonCharBytes_le_four {c : Char} (h : isLongEscape c = false) : jsonCharBytes c ≤ 4 := by
  unfold jsonCharBytes
  split
  · decide
  · rename_i hshort
    split
    · rename_i hlow
      rw [isLongEscape, Bool.eq_false_iff.mpr hshort, decide_eq_true hlow] at h
      cases h
    · exact Char.utf8Size_le_four c

theorem soloBytes_char {u : UInt16} {c : Char} (hunit : u.toNat = c.toNat)
    (hlt : c.toNat < 0x10000) : soloBytes u = c.utf8Size := by
  rw [utf8Size_eq, if_pos (show c.toNat ≤ 0xffff by omega), ← hunit]
  simp only [soloBytes, UInt16.le_iff_toNat_le]
  rfl

theorem utf8Size_of_pair {c : Char} (h : 0x10000 ≤ c.toNat) : c.utf8Size = 4 := by
  rw [utf8Size_eq, if_neg (by omega), if_neg (by omega), if_neg (by omega)]

theorem utf8Length_charUnits (c : Char) (rest : List UInt16) :
    utf8Length (charUnits c ++ rest) = c.utf8Size + utf8Length rest := by
  rw [utf8Length_append _ _ (closed_charUnits c)]
  rcases charUnits_cases c with ⟨hlt, u, hunits, hunit, -, -⟩ | ⟨hle, u, v, hunits, hhigh, hlow⟩
  · rw [hunits, utf8Length, soloBytes_char hunit hlt]
  · rw [hunits, utf8Size_of_pair hle, utf8Length, hhigh, hlow]
    rfl

theorem utf8Length_utf16 (s : String) : utf8Length (utf16 s) = utf8Size s.toList := by
  unfold utf16
  induction s.toList with
  | nil => rfl
  | cons c chars ih => rw [List.flatMap_cons, utf8Length_charUnits, ih, utf8Size_cons]

theorem unitBytes_char {u : UInt16} {c : Char} (hunit : u.toNat = c.toNat)
    (hlt : c.toNat < 0x10000) (hhigh : isHighSurrogate u = false)
    (hlow : isLowSurrogate u = false) : unitBytes u = jsonCharBytes c := by
  have heq : ∀ n : UInt16, (u = n) = (c.toNat = n.toNat) := by
    intro n
    rw [← hunit, UInt16.toNat_inj]
  simp only [unitBytes, jsonCharBytes, hhigh, hlow, Bool.or_false, heq, soloBytes_char hunit hlt,
    UInt16.le_iff_toNat_le, hunit]
  simp [shortEscapes, or_assoc]

theorem unitsBytes_charUnits (c : Char) (rest : List UInt16) :
    unitsBytes (charUnits c ++ rest) = jsonCharBytes c + unitsBytes rest := by
  rcases charUnits_cases c with ⟨hlt, u, hunits, hunit, hhigh, hlow⟩ | ⟨hle, u, v, hunits, hhigh, hlow⟩
  · rw [hunits, List.singleton_append, unitsBytes_cons, hhigh, Bool.false_and,
      if_neg Bool.false_ne_true, unitBytes_char hunit hlt hhigh hlow]
  · have hfour : jsonCharBytes c = 4 := by
      have hnone : shortEscapes.contains c.toNat = false := by
        simp [shortEscapes]
        omega
      rw [jsonCharBytes, hnone, if_neg Bool.false_ne_true, if_neg (by omega), utf8Size_of_pair hle]
    rw [hunits, hfour, List.cons_append, List.singleton_append, unitsBytes, hhigh, hlow]
    rfl

/-- The bytes of a text in JSON. -/
theorem jsonStringBytes_utf16 (s : String) :
    jsonStringBytes (utf16 s) = 2 + jsonCharsBytes s.toList := by
  unfold utf16 jsonStringBytes
  induction s.toList with
  | nil => rfl
  | cons c chars ih =>
    rw [List.flatMap_cons, unitsBytes_charUnits, jsonCharsBytes_cons]
    omega

end OpenGameAgent
