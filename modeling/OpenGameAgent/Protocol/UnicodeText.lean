import OpenGameAgent.Protocol.Fingerprints

/-!
# The code units of a text

A JavaScript string is any sequence of code units, a text is a sequence of characters.

* `isTrimmedUnit` — the units `String.prototype.trim` removes.
* `charUnits_cases` — a character is one unit that is no surrogate, or a surrogate pair.
-/

namespace OpenGameAgent

/-- The units `String.prototype.trim` removes. -/
def isTrimmedUnit (u : UInt16) : Bool :=
  [0x20, 0xa0, 0x1680, 0x2028, 0x2029, 0x202f, 0x205f, 0x3000, 0xfeff].contains u ||
    (0x09 ≤ u && u ≤ 0x0d) || (0x2000 ≤ u && u ≤ 0x200a)

theorem isHighSurrogate_iff {u : UInt16} :
    isHighSurrogate u = true ↔ 0xd800 ≤ u.toNat ∧ u.toNat ≤ 0xdbff := by
  simp only [isHighSurrogate, Bool.and_eq_true, decide_eq_true_eq, UInt16.le_iff_toNat_le]
  rfl

theorem isLowSurrogate_iff {u : UInt16} :
    isLowSurrogate u = true ↔ 0xdc00 ≤ u.toNat ∧ u.toNat ≤ 0xdfff := by
  simp only [isLowSurrogate, Bool.and_eq_true, decide_eq_true_eq, UInt16.le_iff_toNat_le]
  rfl

/-- A character is one unit that is no surrogate, or a surrogate pair. -/
theorem charUnits_cases (c : Char) :
    (c.toNat < 0x10000 ∧ ∃ u : UInt16, charUnits c = [u] ∧ u.toNat = c.toNat ∧
      isHighSurrogate u = false ∧ isLowSurrogate u = false) ∨
    (0x10000 ≤ c.toNat ∧ ∃ u v : UInt16, charUnits c = [u, v] ∧
      isHighSurrogate u = true ∧ isLowSurrogate v = true) := by
  have hc := not_surrogate c
  have hlt := toNat_lt c
  unfold charUnits
  split
  · rename_i h
    have hunit : c.toNat.toUInt16.toNat = c.toNat := by
      rw [Nat.toUInt16_eq, UInt16.toNat_ofNat', Nat.mod_eq_of_lt h]
    refine .inl ⟨h, _, rfl, hunit, ?_, ?_⟩
    · rw [Bool.eq_false_iff, ne_eq, isHighSurrogate_iff, hunit]
      omega
    · rw [Bool.eq_false_iff, ne_eq, isLowSurrogate_iff, hunit]
      omega
  · rename_i h
    refine .inr ⟨by omega, _, _, rfl, ?_, ?_⟩
    · rw [isHighSurrogate_iff, Nat.toUInt16_eq, UInt16.toNat_ofNat', Nat.mod_eq_of_lt (by omega)]
      omega
    · rw [isLowSurrogate_iff, Nat.toUInt16_eq, UInt16.toNat_ofNat', Nat.mod_eq_of_lt (by omega)]
      omega

end OpenGameAgent
