import Mathlib.Data.List.Basic

/-!
# The first run of consecutive positions

A reader goes through positions one by one and counts how many of the last ones have a property,
from some position on; at a position without it the count starts anew.  It stops where the count
reaches a number.  `Trailing` says what the count is, and where it stops is the end of the first run
of that many positions (`firstRun`).
-/

namespace ConsecutiveRuns

variable {p : ℕ → Bool} {start need bound position count e : ℕ}

/-- A run of `need` positions from `start` on ends right before `e`. -/
def RunEnds (p : ℕ → Bool) (start need e : ℕ) : Prop :=
  start + need ≤ e ∧ ∀ k < e, e ≤ k + need → p k = true

instance : Decidable (RunEnds p start need e) := by
  unfold RunEnds
  infer_instance

/-- The end of the first run. -/
def firstRun (p : ℕ → Bool) (start need bound : ℕ) : Option ℕ :=
  (List.range (bound + 1)).find? fun e => RunEnds p start need e

theorem firstRun_eq_some :
    firstRun p start need bound = some e ↔
      e ≤ bound ∧ RunEnds p start need e ∧ ∀ earlier < e, ¬ RunEnds p start need earlier := by
  rw [firstRun, List.find?_range_eq_some]
  simp only [decide_eq_true_eq, List.mem_range, Bool.not_eq_true', decide_eq_false_iff_not,
    Nat.lt_succ_iff]
  exact ⟨fun ⟨hends, hbound, hfirst⟩ => ⟨hbound, hends, hfirst⟩,
    fun ⟨hbound, hends, hfirst⟩ => ⟨hends, hbound, hfirst⟩⟩

theorem firstRun_eq_none :
    firstRun p start need bound = none ↔ ∀ e ≤ bound, ¬ RunEnds p start need e := by
  rw [firstRun, List.find?_eq_none]
  simp [Nat.lt_succ_iff]

/-- Before `position` the last `count` positions have the property, no run has ended, and the count
is not that of a run yet. -/
structure Trailing (p : ℕ → Bool) (start need position count : ℕ) : Prop where
  begins : start + count ≤ position
  short : count < need
  holds : ∀ k < position, position ≤ k + count → p k = true
  broken : start + count = position ∨ p (position - count - 1) = false
  first : ∀ e ≤ position, ¬ RunEnds p start need e

theorem trailing_start (h : 0 < need) : Trailing p start need start 0 := by
  refine ⟨Nat.le_refl _, h, fun k hk hle => by omega, Or.inl rfl, ?_⟩
  rintro e he ⟨hends, -⟩
  omega

/-- A position with the property makes the run of the last ones longer. -/
theorem Trailing.holds_succ (h : Trailing p start need position count) (hp : p position = true) :
    ∀ k < position + 1, position + 1 ≤ k + (count + 1) → p k = true := by
  intro k hk hle
  by_cases hlast : k = position
  · rw [hlast, hp]
  · exact h.holds k (by omega) (by omega)

theorem Trailing.grows (h : Trailing p start need position count) (hp : p position = true)
    (hshort : count + 1 < need) : Trailing p start need (position + 1) (count + 1) := by
  have hbegins := h.begins
  refine ⟨by omega, hshort, h.holds_succ hp, ?_, ?_⟩
  · cases h.broken with
    | inl hstart => exact Or.inl (by omega)
    | inr hfalse =>
      refine Or.inr ?_
      rwa [show position + 1 - (count + 1) - 1 = position - count - 1 by omega]
  · rintro e he ⟨hends, hall⟩
    by_cases hlast : e = position + 1
    · -- a run that ends here has the position before the last `count + 1`
      subst hlast
      cases h.broken with
      | inl hstart => omega
      | inr hfalse =>
        have htrue := hall (position - count - 1) (by omega) (by omega)
        rw [hfalse] at htrue
        cases htrue
    · exact h.first e (by omega) ⟨hends, hall⟩

/-- The count reaches the number at the end of the first run. -/
theorem Trailing.reaches (h : Trailing p start need position count) (hp : p position = true)
    (hreach : need ≤ count + 1) (hbound : position < bound) :
    firstRun p start need bound = some (position + 1) ∧ need = count + 1 := by
  have hbegins := h.begins
  have hshort := h.short
  refine ⟨firstRun_eq_some.mpr ⟨hbound, ⟨by omega, ?_⟩, ?_⟩, by omega⟩
  · intro k hk hle
    exact h.holds_succ hp k hk (by omega)
  · exact fun earlier hearlier => h.first earlier (by omega)

theorem Trailing.breaks (h : Trailing p start need position count) (hp : p position = false) :
    Trailing p start need (position + 1) 0 := by
  have hbegins := h.begins
  have hshort := h.short
  refine ⟨by omega, by omega, fun k hk hle => by omega, Or.inr hp, ?_⟩
  rintro e he ⟨hends, hall⟩
  by_cases hlast : e = position + 1
  · subst hlast
    have htrue := hall position (by omega) (by omega)
    rw [hp] at htrue
    cases htrue
  · exact h.first e (by omega) ⟨hends, hall⟩

theorem Trailing.none (h : Trailing p start need bound count) :
    firstRun p start need bound = none :=
  firstRun_eq_none.mpr h.first

/-- No run ends where the reader is still counting. -/
theorem Trailing.lt_of_firstRun (h : Trailing p start need position count)
    (hfirst : firstRun p start need bound = some e) : position < e := by
  obtain ⟨-, hends, -⟩ := firstRun_eq_some.mp hfirst
  by_contra hle
  exact h.first e (by omega) hends

end ConsecutiveRuns
