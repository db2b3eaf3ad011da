import Mathlib.Data.Nat.Notation

/-!
# The last index of a range by bisection

A loop halves the indexes from `low` to `high`, goes right of an index that passes and left of one
that does not, and keeps the last one that passed.  Nothing is asked of the test; for every test

* `searchLast_isSome` — when the first index passes, an index is found;
* `searchLast_eq_some` — what it answers lies in the range and passes;
* `searchLast_eq_high` — before it answers the last index of a longer range, it has seen the one
  before it pass.

`searchGreatest` is the loop that keeps an index that passes in `lower` and rounds the middle up.
Where the indexes that pass come before those that do not, it ends at the last that passes
(`searchGreatest_passes`, `le_searchGreatest`).
-/

namespace BoundedSearch

variable {test : ℕ → Bool} {low high index : ℕ}

/-- `while (low <= high)`, with the last index that passed. -/
def searchFrom (test : ℕ → Bool) (low high : ℕ) (best : Option ℕ) : Option ℕ :=
  if low ≤ high then
    let middle := (low + high) / 2
    if test middle then searchFrom test (middle + 1) high (some middle)
    else if middle = 0 then best
    else searchFrom test low (middle - 1) best
  else best
termination_by high + 1 - low

/-- The search over the indexes from `low` to `high`. -/
def searchLast (test : ℕ → Bool) (low high : ℕ) : Option ℕ := searchFrom test low high none

/-- Once an index has passed, the search answers one. -/
theorem searchFrom_isSome {best : Option ℕ} (h : best.isSome) :
    (searchFrom test low high best).isSome := by
  fun_induction searchFrom test low high best with
  | case1 low high best hle middle hpass ih => exact ih rfl
  | case2 low high best hle middle hfail hzero => exact h
  | case3 low high best hle middle hfail hzero ih => exact ih h
  | case4 low high best hle => exact h

/-- A search that finds nothing has tried the first index. -/
theorem searchLast_isSome (hle : low ≤ high) (hpass : test low = true) :
    (searchLast test low high).isSome := by
  unfold searchLast
  generalize hbest : (none : Option ℕ) = best
  fun_induction searchFrom test low high best with
  | case1 low high best hle' middle hmiddle ih => exact searchFrom_isSome rfl
  | case2 low high best hle' middle hfail hzero =>
    have hlow : low = middle := by omega
    exact absurd (hlow ▸ hpass) hfail
  | case3 low high best hle' middle hfail hzero ih =>
    have hne : low ≠ middle := by
      rintro hlow
      exact hfail (hlow ▸ hpass)
    exact ih (by omega) hpass hbest
  | case4 low high best hgt => exact absurd hle hgt

/-- What the search answers is in the range, or was found before. -/
theorem searchFrom_eq_some {best : Option ℕ} (h : searchFrom test low high best = some index) :
    (low ≤ index ∧ index ≤ high ∧ test index = true) ∨ best = some index := by
  fun_induction searchFrom test low high best with
  | case1 low high best hle middle hpass ih =>
    rcases ih h with ⟨hlow, hhigh, htest⟩ | hbest
    · exact .inl ⟨by omega, hhigh, htest⟩
    · obtain rfl := Option.some.inj hbest
      exact .inl ⟨by omega, by omega, hpass⟩
  | case2 low high best hle middle hfail hzero => exact .inr h
  | case3 low high best hle middle hfail hzero ih =>
    rcases ih h with ⟨hlow, hhigh, htest⟩ | hbest
    · exact .inl ⟨hlow, by omega, htest⟩
    · exact .inr hbest
  | case4 low high best hgt => exact .inr h

theorem searchLast_eq_some (h : searchLast test low high = some index) :
    low ≤ index ∧ index ≤ high ∧ test index = true := by
  rcases searchFrom_eq_some h with h | h
  · exact h
  · cases h

/-- The index that the search goes right of has passed. -/
theorem searchFrom_eq_high {first last : ℕ} {best : Option ℕ}
    (hpassed : low = first ∨ test (low - 1) = true) (hfirst : first < last) (hhigh : high ≤ last)
    (hbest : best = some last → test (last - 1) = true)
    (h : searchFrom test low high best = some last) : test (last - 1) = true := by
  fun_induction searchFrom test low high best with
  | case1 low high best hle middle hpass ih =>
    refine ih (.inr (by simpa using hpass)) hhigh (fun hmiddle => ?_) h
    obtain rfl := Option.some.inj hmiddle
    -- the last index is the middle of a range that begins with it
    have hlow : low = middle := by omega
    rcases hpassed with hfirst' | hpassed
    · omega
    · rwa [← hlow]
  | case2 low high best hle middle hfail hzero => exact hbest h
  | case3 low high best hle middle hfail hzero ih => exact ih hpassed (by omega) hbest h
  | case4 low high best hgt => exact hbest h

theorem searchLast_eq_high (hlt : low < high) (h : searchLast test low high = some high) :
    test (high - 1) = true := by
  unfold searchLast at h
  refine searchFrom_eq_high (.inl rfl) hlt (Nat.le_refl high) ?_ h
  intro hnone
  cases hnone

/-! ## The greatest index that passes -/

variable {lower upper : ℕ}

/-- `while (lower < upper)`, with the middle rounded up. -/
def searchGreatest (test : ℕ → Bool) (lower upper : ℕ) : ℕ :=
  if lower < upper then
    let middle := (lower + upper + 1) / 2
    if test middle then searchGreatest test middle upper
    else searchGreatest test lower (middle - 1)
  else lower
termination_by upper - lower

theorem searchGreatest_le (hle : lower ≤ upper) : searchGreatest test lower upper ≤ upper := by
  fun_induction searchGreatest test lower upper with
  | case1 lower upper hlt middle hpass ih => exact ih (by omega)
  | case2 lower upper hlt middle hfail ih => exact Nat.le_trans (ih (by omega)) (by omega)
  | case3 lower upper hge => exact hle

/-- Where the search begins with an index that passes, it ends with one. -/
theorem searchGreatest_passes (h : test lower = true) :
    test (searchGreatest test lower upper) = true := by
  fun_induction searchGreatest test lower upper with
  | case1 lower upper hlt middle hpass ih => exact ih hpass
  | case2 lower upper hlt middle hfail ih => exact ih h
  | case3 lower upper hge => exact h

/-- No index of the range behind the answer passes. -/
theorem le_searchGreatest (hdown : ∀ i j, i ≤ j → test j = true → test i = true)
    (hindex : index ≤ upper) (hpass : test index = true) :
    index ≤ searchGreatest test lower upper := by
  fun_induction searchGreatest test lower upper with
  | case1 lower upper hlt middle hmiddle ih => exact ih hindex
  | case2 lower upper hlt middle hfail ih =>
    -- an index from the middle on would make the middle pass
    have hbelow : index < middle :=
      Nat.lt_of_not_le fun hge => hfail (hdown middle index hge hpass)
    exact ih (by omega)
  | case3 lower upper hge => omega

end BoundedSearch
