import Mathlib.Algebra.Order.Group.Nat
import Mathlib.Data.List.Range

/-!
# Recurring events

An event that is due at a tick and from then on every `step` ticks, as often as a bound
allows.  Time is moved to a tick: the occurrences up to it are made, and what is left is
a recurrence again, or nothing once the bound is reached.

* `Recurrence.lt_dueCount_iff` — how many occurrences are due.
* `Recurrence.mem_occurrences` — which they are.
* `Recurrence.next_lt_of_advance` — what is left is due later.
* `Recurrence.occurrences_split`, `Recurrence.advance_split` — moving time in two steps
  makes the same occurrences as moving it in one, and leaves the same recurrence.
-/

namespace OpenGameAgent

/-- An event due at `next`, of which `made` occurrences were made before. -/
structure Recurrence where
  next : Nat
  step : Nat
  made : Nat
  bound : Option Nat
  deriving DecidableEq, Repr

namespace Recurrence

/-- A recurrence that has an occurrence to come and does not stand still. -/
structure Live (r : Recurrence) : Prop where
  room : ∀ b, r.bound = some b → r.made < b
  moves : 0 < r.step ∨ r.bound = some (r.made + 1)

/-- The `k`th occurrence to come, counted from zero, is due by a tick. -/
structure Due (r : Recurrence) (upto k : Nat) : Prop where
  tick : r.next + k * r.step ≤ upto
  room : ∀ b, r.bound = some b → r.made + k < b

/-- How many occurrences are due by a tick. -/
def dueCount (r : Recurrence) (upto : Nat) : Nat :=
  if upto < r.next then 0
  else match r.bound with
    | none => (upto - r.next) / r.step + 1
    | some b => min ((upto - r.next) / r.step + 1) (b - r.made)

/-- The occurrences due by a tick, each with its ordinal and its tick. -/
def occurrences (r : Recurrence) (upto : Nat) : List (Nat × Nat) :=
  (List.range (r.dueCount upto)).map fun k => (r.made + k + 1, r.next + k * r.step)

/-- What is left when the first `k` occurrences are made. -/
def after (r : Recurrence) (k : Nat) : Recurrence :=
  { r with next := r.next + k * r.step, made := r.made + k }

/-- What is left when time is moved to a tick. -/
def advance (r : Recurrence) (upto : Nat) : Option Recurrence :=
  if r.bound = some (r.made + r.dueCount upto) then none else some (r.after (r.dueCount upto))

variable {r : Recurrence} {upto k : Nat}

theorem tick_due_iff (hstep : 0 < r.step) (hto : r.next ≤ upto) :
    r.next + k * r.step ≤ upto ↔ k < (upto - r.next) / r.step + 1 := by
  rw [Nat.lt_succ_iff, Nat.le_div_iff_mul_le hstep]
  omega

theorem lt_dueCount_iff (h : r.Live) : k < r.dueCount upto ↔ r.Due upto k := by
  unfold dueCount
  by_cases hto : upto < r.next
  · rw [if_pos hto]
    constructor
    · exact fun hk => absurd hk (Nat.not_lt_zero k)
    · exact fun hdue => absurd (hdue.tick.trans_lt hto) (by omega)
  · rw [if_neg hto]
    rcases Nat.eq_zero_or_pos r.step with hzero | hstep
    · -- a recurrence without a step has one occurrence left
      have hbound : r.bound = some (r.made + 1) :=
        h.moves.resolve_left (by omega)
      rw [hbound]
      simp only [hzero, Nat.div_zero]
      constructor
      · intro hk
        have : k = 0 := by omega
        subst this
        exact ⟨by omega, fun b hb => by rw [hbound] at hb; cases hb; omega⟩
      · intro hdue
        have := hdue.room _ hbound
        omega
    · have htick := tick_due_iff (k := k) hstep (not_lt.1 hto)
      cases hb : r.bound with
      | none =>
        dsimp only
        rw [← htick]
        exact ⟨fun ht => ⟨ht, fun b hc => by rw [hb] at hc; cases hc⟩, fun hdue => hdue.tick⟩
      | some b =>
        dsimp only
        rw [lt_min_iff, ← htick]
        constructor
        · rintro ⟨ht, hk⟩
          refine ⟨ht, fun c hc => ?_⟩
          rw [hb] at hc
          cases hc
          omega
        · intro hdue
          have := hdue.room b hb
          exact ⟨hdue.tick, by omega⟩

/-- The bound is never passed. -/
theorem made_add_dueCount_le (h : r.Live) {b : Nat} (hb : r.bound = some b) :
    r.made + r.dueCount upto ≤ b := by
  have hroom := h.room b hb
  rcases Nat.eq_zero_or_pos (r.dueCount upto) with hzero | hpos
  · omega
  · have hdue : r.Due upto (r.dueCount upto - 1) :=
      (lt_dueCount_iff h).1 (Nat.sub_lt hpos Nat.one_pos)
    have := hdue.room b hb
    omega

theorem dueCount_pos_iff (h : r.Live) : 0 < r.dueCount upto ↔ r.next ≤ upto := by
  rw [lt_dueCount_iff h]
  constructor
  · intro hdue
    have := hdue.tick
    omega
  · exact fun hle => ⟨by omega, fun b hb => by have := h.room b hb; omega⟩

theorem mem_occurrences (h : r.Live) {ordinal tick : Nat} :
    (ordinal, tick) ∈ r.occurrences upto ↔
      ∃ k, r.Due upto k ∧ ordinal = r.made + k + 1 ∧ tick = r.next + k * r.step := by
  simp only [occurrences, List.mem_map, List.mem_range, lt_dueCount_iff h, Prod.mk.injEq]
  constructor
  · rintro ⟨k, hk, ho, ht⟩
    exact ⟨k, hk, ho.symm, ht.symm⟩
  · rintro ⟨k, hk, ho, ht⟩
    exact ⟨k, hk, ho.symm, ht.symm⟩

/-- What is left when some of the due occurrences are made. -/
theorem live_after (h : r.Live) (hk : k ≤ r.dueCount upto) (hend : r.bound ≠ some (r.made + k)) :
    (r.after k).Live := by
  have hroom : ∀ b, r.bound = some b → r.made + k < b := by
    intro b hb
    have hle : r.made + r.dueCount upto ≤ b := made_add_dueCount_le h hb
    have hne : r.made + k ≠ b := fun hc => hend (hc ▸ hb)
    omega
  refine ⟨hroom, ?_⟩
  rcases h.moves with hstep | hbound
  · exact Or.inl hstep
  · have := hroom _ hbound
    have hzero : k = 0 := by omega
    subst hzero
    exact Or.inr hbound

theorem advance_eq_some_iff {r' : Recurrence} :
    r.advance upto = some r' ↔
      r.bound ≠ some (r.made + r.dueCount upto) ∧ r' = r.after (r.dueCount upto) := by
  unfold advance
  by_cases hend : r.bound = some (r.made + r.dueCount upto)
  · rw [if_pos hend]
    exact ⟨nofun, fun h => absurd hend h.1⟩
  · rw [if_neg hend, Option.some.injEq]
    exact ⟨fun h => ⟨hend, h.symm⟩, fun h => h.2.symm⟩

theorem live_advance (h : r.Live) {r' : Recurrence} (hr : r.advance upto = some r') : r'.Live := by
  obtain ⟨hend, rfl⟩ := advance_eq_some_iff.1 hr
  exact live_after h le_rfl hend

/-- What is left is due later. -/
theorem next_lt_of_advance (h : r.Live) {r' : Recurrence} (hr : r.advance upto = some r') :
    upto < r'.next := by
  obtain ⟨hend, rfl⟩ := advance_eq_some_iff.1 hr
  by_contra hle
  have hdue : r.Due upto (r.dueCount upto) :=
    ⟨not_lt.1 hle, fun b hb => (live_after h le_rfl hend).room b hb⟩
  exact absurd ((lt_dueCount_iff h).2 hdue) (lt_irrefl _)

theorem Due.of_succ (h : r.Live) (hdue : r.Due upto (k + 1)) : r.Due upto k :=
  (lt_dueCount_iff h).1 (Nat.lt_of_succ_lt ((lt_dueCount_iff h).2 hdue))

theorem Due.live (h : r.Live) (hdue : r.Due upto k) : (r.after k).Live :=
  live_after h (Nat.le_of_lt ((lt_dueCount_iff h).2 hdue)) fun hend =>
    absurd (hdue.room _ hend) (lt_irrefl _)

@[simp] theorem after_zero : r.after 0 = r := by
  cases r
  simp [after]

theorem after_after (j : Nat) : (r.after k).after j = r.after (k + j) := by
  simp only [after, Nat.add_mul, Nat.add_assoc]

theorem due_after {j : Nat} : (r.after j).Due upto k ↔ r.Due upto (j + k) := by
  constructor
  · rintro ⟨htick, hroom⟩
    refine ⟨?_, fun b hb => ?_⟩
    · rw [Nat.add_mul, ← Nat.add_assoc]
      exact htick
    · have := hroom b hb
      simp only [after] at this
      omega
  · rintro ⟨htick, hroom⟩
    refine ⟨?_, fun b hb => ?_⟩
    · rw [Nat.add_mul, ← Nat.add_assoc] at htick
      exact htick
    · have := hroom b hb
      simp only [after]
      omega

theorem dueCount_after (h : r.Live) {j : Nat} (hlive : (r.after j).Live) :
    (r.after j).dueCount upto = r.dueCount upto - j := by
  refine eq_of_forall_lt_iff fun k => ?_
  rw [lt_dueCount_iff hlive, due_after, ← lt_dueCount_iff h]
  omega

/-- Occurrences that are made on the way do not change what is left. -/
theorem advance_after (h : r.Live) {j : Nat} (hlive : (r.after j).Live)
    (hj : j ≤ r.dueCount upto) : (r.after j).advance upto = r.advance upto := by
  have hmade : r.made + j + (r.dueCount upto - j) = r.made + r.dueCount upto := by omega
  have hrest : j + (r.dueCount upto - j) = r.dueCount upto := by omega
  unfold advance
  rw [dueCount_after h hlive, after_after, hrest]
  simp only [after, hmade]

theorem Due.mono {from' : Nat} (h : r.Due from' k) (hle : from' ≤ upto) : r.Due upto k :=
  ⟨h.tick.trans hle, h.room⟩

section Split

variable {mid : Nat}

/-- Moving time in two steps makes as many occurrences as moving it in one. -/
theorem dueCount_split (h : r.Live) (hle : mid ≤ upto) :
    r.dueCount upto = r.dueCount mid + ((r.advance mid).map fun s => s.dueCount upto).getD 0 := by
  refine eq_of_forall_lt_iff fun k => ?_
  rw [lt_dueCount_iff h]
  cases hr : r.advance mid with
  | none =>
    have hend : r.bound = some (r.made + r.dueCount mid) := by
      by_contra hne
      rw [advance, if_neg hne] at hr
      cases hr
    rw [Option.map_none, Option.getD_none, Nat.add_zero, lt_dueCount_iff h]
    constructor
    · intro hdue
      have hk := hdue.room _ hend
      exact (lt_dueCount_iff h).1 (by omega)
    · exact fun hdue => hdue.mono hle
  | some s =>
    have hlive := live_advance h hr
    obtain ⟨hend, rfl⟩ := advance_eq_some_iff.1 hr
    rw [Option.map_some, Option.getD_some]
    by_cases hk : k < r.dueCount mid
    · exact ⟨fun _ => by omega, fun _ => ((lt_dueCount_iff h).1 hk).mono hle⟩
    · have hsum : k = r.dueCount mid + (k - r.dueCount mid) := by omega
      rw [hsum, ← due_after, ← lt_dueCount_iff hlive]
      omega

theorem occurrences_after (j n : Nat) :
    (List.range n).map (fun k => ((r.after j).made + k + 1, (r.after j).next + k * r.step)) =
      (List.range n).map fun k => (r.made + (j + k) + 1, r.next + (j + k) * r.step) := by
  refine List.map_congr_left fun k _ => ?_
  simp only [after, Nat.add_mul, Nat.add_assoc]

/-- Moving time in two steps makes the same occurrences as moving it in one. -/
theorem occurrences_split (h : r.Live) (hle : mid ≤ upto) :
    r.occurrences upto =
      r.occurrences mid ++ ((r.advance mid).map fun s => s.occurrences upto).getD [] := by
  have hcount := dueCount_split h hle
  cases hr : r.advance mid with
  | none =>
    rw [hr, Option.map_none, Option.getD_none, Nat.add_zero] at hcount
    rw [Option.map_none, Option.getD_none, List.append_nil, occurrences, hcount, occurrences]
  | some s =>
    rw [hr, Option.map_some, Option.getD_some] at hcount
    obtain ⟨-, rfl⟩ := advance_eq_some_iff.1 hr
    rw [Option.map_some, Option.getD_some, occurrences, hcount, List.range_add, List.map_append,
      occurrences, occurrences, List.map_map]
    exact congrArg _ (occurrences_after _ _).symm

/-- Moving time in two steps leaves the same recurrence as moving it in one. -/
theorem advance_split (h : r.Live) (hle : mid ≤ upto) :
    r.advance upto = (r.advance mid).bind fun s => s.advance upto := by
  have hcount := dueCount_split h hle
  cases hr : r.advance mid with
  | none =>
    have hend : r.bound = some (r.made + r.dueCount mid) := by
      by_contra hne
      rw [advance, if_neg hne] at hr
      cases hr
    rw [hr, Option.map_none, Option.getD_none, Nat.add_zero] at hcount
    rw [Option.bind_none, advance, hcount, if_pos hend]
  | some s =>
    rw [hr, Option.map_some, Option.getD_some] at hcount
    obtain ⟨-, rfl⟩ := advance_eq_some_iff.1 hr
    rw [Option.bind_some, advance, advance, hcount]
    rw [after_after, ← Nat.add_assoc]
    rfl

end Split

end Recurrence

end OpenGameAgent
