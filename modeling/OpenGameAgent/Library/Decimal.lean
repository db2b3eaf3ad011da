import Mathlib.Data.String.Basic

/-!
# Canonical decimals

A natural number of any size as text: digits without a leading zero.

* `Decimal` — a text of that form, with the proof that it has it, so no function on
  decimals has to look again.
* `Decimal.value` and `Decimal.ofNat` are inverse to each other (`value_ofNat`,
  `ofNat_value`), so two decimals with one value are one text (`value_injective`).
* `length_le_iff` — a decimal fits in `k` digits when its value is below `10 ^ k`.
* `lt_of_length_lt`, `value_lt_iff` — a longer decimal is larger, and decimals of one
  length are ordered as texts.
-/

namespace OpenGameAgent

/-! ## Digits -/

/-- `/^(0|[1-9][0-9]*)$/`. -/
def areDecimalDigits : List Char → Bool
  | [] => false
  | c :: rest => c.isDigit && rest.all Char.isDigit && (c ≠ '0' || rest.isEmpty)

theorem digit_lt_ten {c : Char} (h : c.isDigit = true) : c.toNat - '0'.toNat < 10 := by
  rw [Char.isDigit_iff_toNat] at h
  have h9 : '9'.toNat = '0'.toNat + 9 := by decide
  omega

theorem ofDigitChars_lt {l : List Char} (h : l.all Char.isDigit = true) :
    Nat.ofDigitChars 10 l 0 < 10 ^ l.length := by
  induction l with
  | nil => simp
  | cons c l ih =>
    rw [List.all_cons, Bool.and_eq_true] at h
    have hc := digit_lt_ten h.1
    have hl := ih h.2
    rw [Nat.ofDigitChars_cons, Nat.ofDigitChars_eq_ofDigitChars_zero, List.length_cons,
      Nat.pow_succ]
    calc 10 ^ l.length * (10 * 0 + (c.toNat - '0'.toNat)) + Nat.ofDigitChars 10 l 0
        < 10 ^ l.length * (10 * 0 + (c.toNat - '0'.toNat)) + 10 ^ l.length :=
          Nat.add_lt_add_left hl _
      _ = 10 ^ l.length * (c.toNat - '0'.toNat + 1) := by
          rw [Nat.mul_zero, Nat.zero_add, Nat.mul_succ]
      _ ≤ 10 ^ l.length * 10 := Nat.mul_le_mul_left _ (by omega)

/-- Digits of one length are ordered by their values as they are ordered as texts. -/
theorem ofDigitChars_lt_iff {l m : List Char} (hlen : l.length = m.length)
    (hl : l.all Char.isDigit = true) (hm : m.all Char.isDigit = true) :
    Nat.ofDigitChars 10 l 0 < Nat.ofDigitChars 10 m 0 ↔ l < m := by
  induction l generalizing m with
  | nil =>
    cases m with
    | nil => simp
    | cons d m => cases hlen
  | cons c l ih =>
    cases m with
    | nil => cases hlen
    | cons d m =>
      have hlen' : l.length = m.length := by simpa using hlen
      rw [List.all_cons, Bool.and_eq_true] at hl hm
      have hbl := ofDigitChars_lt hl.2
      have hbm := ofDigitChars_lt hm.2
      have hc := Char.isDigit_iff_toNat.1 hl.1
      have hd := Char.isDigit_iff_toNat.1 hm.1
      rw [Nat.ofDigitChars_cons, Nat.ofDigitChars_eq_ofDigitChars_zero (l := l),
        Nat.ofDigitChars_cons, Nat.ofDigitChars_eq_ofDigitChars_zero (l := m), hlen']
      rw [hlen'] at hbl
      rw [Nat.mul_zero, Nat.zero_add, Nat.zero_add, List.cons_lt_cons_iff,
        ← ih hlen' hl.2 hm.2, Char.lt_def, UInt32.lt_iff_toNat_lt]
      show _ ↔ c.toNat < d.toNat ∨ _
      by_cases hcd : c = d
      · subst hcd
        constructor
        · intro h
          exact Or.inr ⟨rfl, by omega⟩
        · rintro (h | ⟨_, h⟩) <;> omega
      · have hne : c.toNat ≠ d.toNat := fun h => hcd (Char.toNat_inj.1 h)
        rcases Nat.lt_or_gt_of_ne hne with h | h
        · refine ⟨fun _ => Or.inl h, fun _ => ?_⟩
          have hs := Nat.mul_le_mul_left (10 ^ m.length)
            (show c.toNat - '0'.toNat + 1 ≤ d.toNat - '0'.toNat by omega)
          rw [Nat.mul_succ] at hs
          omega
        · refine ⟨fun hlt => ?_, fun hor => ?_⟩
          · have hs := Nat.mul_le_mul_left (10 ^ m.length)
              (show d.toNat - '0'.toNat + 1 ≤ c.toNat - '0'.toNat by omega)
            rw [Nat.mul_succ] at hs
            omega
          · rcases hor with hlt | ⟨heq, _⟩
            · omega
            · exact absurd heq hcd

theorem areDecimalDigits_all {l : List Char} (h : areDecimalDigits l = true) :
    l.all Char.isDigit = true := by
  cases l with
  | nil => rfl
  | cons c l =>
    simp only [areDecimalDigits, Bool.and_eq_true] at h
    rw [List.all_cons, Bool.and_eq_true]
    exact h.1

/-- A decimal of more than one digit is at least as large as its length says. -/
theorem pow_le_ofDigitChars {l : List Char} (h : areDecimalDigits l = true)
    (hlen : 1 < l.length) : 10 ^ (l.length - 1) ≤ Nat.ofDigitChars 10 l 0 := by
  cases l with
  | nil => cases hlen
  | cons c l =>
    simp only [areDecimalDigits, Bool.and_eq_true, Bool.or_eq_true, decide_eq_true_eq] at h
    have hc : c ≠ '0' := by
      rcases h.2 with h0 | hnil
      · exact h0
      · rw [List.isEmpty_iff] at hnil
        rw [hnil] at hlen
        simp at hlen
    have hd := Char.isDigit_iff_toNat.1 h.1.1
    have hne : c.toNat ≠ '0'.toNat := fun hh => hc (Char.toNat_inj.1 hh)
    rw [Nat.ofDigitChars_cons, Nat.ofDigitChars_eq_ofDigitChars_zero]
    calc 10 ^ l.length = 10 ^ l.length * 1 := (Nat.mul_one _).symm
      _ ≤ 10 ^ l.length * (10 * 0 + (c.toNat - '0'.toNat)) :=
          Nat.mul_le_mul_left _ (by omega)
      _ ≤ _ := Nat.le_add_right _ _

theorem areDecimalDigits_toDigits (n : Nat) : areDecimalDigits (Nat.toDigits 10 n) = true := by
  induction n using Nat.strong_induction_on with
  | _ n ih =>
    by_cases h : n < 10
    · rw [Nat.toDigits_of_lt_base h]
      clear ih
      revert n
      decide
    · have hle : 10 ≤ n := by omega
      have hrec := ih (n / 10) (by omega)
      have hpos : n / 10 ≠ 0 := by omega
      have hval : Nat.ofDigitChars 10 (Nat.toDigits 10 (n / 10)) 0 = n / 10 :=
        Nat.ofDigitChars_ten_toDigits
      rw [Nat.toDigits_of_base_le (by decide) hle]
      have hdigit : (n % 10).digitChar.isDigit = true := by
        have hm : n % 10 < 10 := by omega
        generalize n % 10 = d at hm
        revert d
        decide
      cases hd : Nat.toDigits 10 (n / 10) with
      | nil => exact absurd hd Nat.toDigits_ne_nil
      | cons c rest =>
        rw [hd] at hrec hval
        simp only [areDecimalDigits, Bool.and_eq_true, Bool.or_eq_true,
          decide_eq_true_eq] at hrec
        have hc : c ≠ '0' := by
          rcases hrec.2 with h0 | hnil
          · exact h0
          · rw [List.isEmpty_iff] at hnil
            rintro rfl
            rw [hnil] at hval
            exact hpos (by simpa [Nat.ofDigitChars_cons] using hval.symm)
        simp [areDecimalDigits, hrec.1.1, hrec.1.2, hc, hdigit]

/-! ## Decimals -/

/-- A natural number as canonical decimal text. -/
structure Decimal where
  text : String
  isDecimal : areDecimalDigits text.toList = true
  deriving DecidableEq

namespace Decimal

/-- `BigInt(text)`. -/
def value (d : Decimal) : Nat := Nat.ofDigitChars 10 d.text.toList 0

/-- `value.toString()` of a `bigint` that is not negative. -/
def ofNat (n : Nat) : Decimal :=
  ⟨n.repr, by rw [Nat.toList_repr]; exact areDecimalDigits_toDigits n⟩

instance : Inhabited Decimal := ⟨ofNat 0⟩

instance : Repr Decimal := ⟨fun d _ => repr d.text⟩

@[simp] theorem value_ofNat (n : Nat) : (ofNat n).value = n := by
  rw [value, ofNat, Nat.toList_repr]
  exact Nat.ofDigitChars_ten_toDigits

theorem text_ext {a b : Decimal} (h : a.text = b.text) : a = b := by
  cases a
  cases b
  cases h
  rfl

theorem text_inj {a b : Decimal} : a.text = b.text ↔ a = b := ⟨text_ext, fun h => h ▸ rfl⟩

theorem length_text (d : Decimal) : d.text.length = d.text.toList.length :=
  String.length_toList.symm

theorem text_ne_nil (d : Decimal) : d.text.toList ≠ [] := by
  intro h
  have := d.isDecimal
  rw [h] at this
  cases this

theorem length_pos (d : Decimal) : 0 < d.text.length := by
  rw [length_text]
  exact List.length_pos_iff.2 d.text_ne_nil

theorem value_lt_pow (d : Decimal) : d.value < 10 ^ d.text.length := by
  rw [length_text]
  exact ofDigitChars_lt (areDecimalDigits_all d.isDecimal)

theorem pow_le_value (d : Decimal) (h : 1 < d.text.length) :
    10 ^ (d.text.length - 1) ≤ d.value := by
  rw [length_text] at h ⊢
  exact pow_le_ofDigitChars d.isDecimal h

/-- A longer decimal is larger. -/
theorem lt_of_length_lt {a b : Decimal} (h : a.text.length < b.text.length) :
    a.value < b.value := by
  have hpos := a.length_pos
  have ha := a.value_lt_pow
  have hb := b.pow_le_value (by omega)
  have hpow : 10 ^ a.text.length ≤ 10 ^ (b.text.length - 1) :=
    Nat.pow_le_pow_right (by decide) (by omega)
  omega

/-- Decimals of one length are ordered as texts. -/
theorem value_lt_iff {a b : Decimal} (h : a.text.length = b.text.length) :
    a.value < b.value ↔ a.text < b.text := by
  rw [length_text, length_text] at h
  exact ofDigitChars_lt_iff h (areDecimalDigits_all a.isDecimal) (areDecimalDigits_all b.isDecimal)

theorem value_injective {a b : Decimal} (h : a.value = b.value) : a = b := by
  have hlen : a.text.length = b.text.length := by
    rcases Nat.lt_trichotomy a.text.length b.text.length with hl | hl | hl
    · exact absurd h (Nat.ne_of_lt (lt_of_length_lt hl))
    · exact hl
    · exact absurd h.symm (Nat.ne_of_lt (lt_of_length_lt hl))
  have hab : ¬ a.text < b.text := fun hc => absurd h (Nat.ne_of_lt ((value_lt_iff hlen).2 hc))
  have hba : ¬ b.text < a.text :=
    fun hc => absurd h.symm (Nat.ne_of_lt ((value_lt_iff hlen.symm).2 hc))
  exact text_ext (le_antisymm (not_lt.1 hba) (not_lt.1 hab))

@[simp] theorem ofNat_value (d : Decimal) : ofNat d.value = d := value_injective (value_ofNat _)

/-- A decimal fits in `k` digits when its value is below `10 ^ k`. -/
theorem length_le_iff (d : Decimal) {k : Nat} (hk : 0 < k) :
    d.text.length ≤ k ↔ d.value < 10 ^ k := by
  constructor
  · intro h
    exact d.value_lt_pow.trans_le (Nat.pow_le_pow_right (by decide) h)
  · intro h
    by_contra hlt
    have hle := d.pow_le_value (by omega)
    have hpow : 10 ^ k ≤ 10 ^ (d.text.length - 1) := Nat.pow_le_pow_right (by decide) (by omega)
    omega

end Decimal

end OpenGameAgent
