import Mathlib.Data.List.Basic

/-!
# Sweeps

A sweep goes through a list and asks a judge of each item whether to act on it; the judge
may fail, and the sweep may stop once it has acted on enough items.

* `BreaksAfter` — the items before the first one the judge fails at.
* `Survives` — the sweep has acted often enough before it reaches that item.
-/

namespace OpenGameAgent

variable {α ε : Type}

/-- The judge fails at an item of the list and at none of the items `before` it. -/
def BreaksAfter (judge : α → Except ε Bool) (before l : List α) : Prop :=
  ∃ item after, l = before ++ item :: after ∧ (∃ e, judge item = .error e) ∧
    ∀ other ∈ before, ∃ acts, judge other = .ok acts

/-- Does the judge say to act on the item? -/
def actsOn (judge : α → Except ε Bool) (item : α) : Bool :=
  match judge item with
  | .ok acts => acts
  | .error _ => false

/-- A sweep that stops after `limit` actions does not reach an item its judge fails at. -/
def Survives (judge : α → Except ε Bool) (limit : Nat) (l : List α) : Prop :=
  ∀ before, BreaksAfter judge before l → limit ≤ (before.filter (actsOn judge)).length

variable {judge : α → Except ε Bool} {before l : List α} {item : α} {limit : Nat}

@[simp] theorem actsOn_eq_true : actsOn judge item = true ↔ judge item = .ok true := by
  unfold actsOn
  cases judge item <;> simp

theorem actsOn_of_ok {acts : Bool} (h : judge item = .ok acts) : actsOn judge item = acts := by
  unfold actsOn
  rw [h]

theorem not_breaksAfter_nil : ¬ BreaksAfter judge before [] := by
  rintro ⟨item, after, hsplit, -⟩
  simp at hsplit

theorem breaksAfter_cons_error {e : ε} (h : judge item = .error e) :
    BreaksAfter judge before (item :: l) ↔ before = [] := by
  constructor
  · rintro ⟨failing, after, hsplit, -, hpass⟩
    cases before with
    | nil => rfl
    | cons first rest =>
      rw [List.cons_append, List.cons.injEq] at hsplit
      obtain ⟨acts, hacts⟩ := hpass first (List.mem_cons_self ..)
      rw [← hsplit.1, h] at hacts
      cases hacts
  · rintro rfl
    exact ⟨item, l, rfl, ⟨e, h⟩, by simp⟩

theorem breaksAfter_cons_ok {acts : Bool} (h : judge item = .ok acts) :
    BreaksAfter judge before (item :: l) ↔
      ∃ rest, before = item :: rest ∧ BreaksAfter judge rest l := by
  constructor
  · rintro ⟨failing, after, hsplit, ⟨e, he⟩, hpass⟩
    cases before with
    | nil =>
      rw [List.nil_append, List.cons.injEq] at hsplit
      rw [← hsplit.1, h] at he
      cases he
    | cons first rest =>
      rw [List.cons_append, List.cons.injEq] at hsplit
      obtain ⟨rfl, hrest⟩ := hsplit
      exact ⟨rest, rfl, failing, after, hrest, ⟨e, he⟩,
        fun other hmem => hpass other (List.mem_cons_of_mem _ hmem)⟩
  · rintro ⟨rest, rfl, failing, after, rfl, hfails, hpass⟩
    refine ⟨failing, after, rfl, hfails, fun other hmem => ?_⟩
    rcases List.mem_cons.1 hmem with rfl | hmem
    · exact ⟨acts, h⟩
    · exact hpass other hmem

/-- A list breaks off in one place. -/
theorem BreaksAfter.unique {other : List α} (h : BreaksAfter judge before l)
    (h' : BreaksAfter judge other l) : before = other := by
  induction l generalizing before other with
  | nil => exact absurd h not_breaksAfter_nil
  | cons item l ih =>
    cases hjudge : judge item with
    | error e =>
      rw [(breaksAfter_cons_error hjudge).1 h, (breaksAfter_cons_error hjudge).1 h']
    | ok acts =>
      obtain ⟨rest, rfl, hrest⟩ := (breaksAfter_cons_ok hjudge).1 h
      obtain ⟨rest', rfl, hrest'⟩ := (breaksAfter_cons_ok hjudge).1 h'
      rw [ih hrest hrest']

/-- A judge that fails at no item breaks nothing off. -/
theorem BreaksAfter.not_all (h : BreaksAfter judge before l) :
    ¬ ∀ item ∈ l, ∃ acts, judge item = .ok acts := by
  obtain ⟨item, after, rfl, ⟨e, he⟩, -⟩ := h
  intro hall
  obtain ⟨acts, hacts⟩ := hall item (by simp)
  rw [he] at hacts
  cases hacts

/-- The part of a list in front of a break that a sweep has acted on. -/
theorem BreaksAfter.acted_sublist (h : BreaksAfter judge before l) :
    (before.filter (actsOn judge)).Sublist l := by
  obtain ⟨item, after, hsplit, -⟩ := h
  rw [hsplit]
  exact List.filter_sublist.trans (List.sublist_append_left _ _)

theorem acted_ne_nil_iff : l.filter (actsOn judge) ≠ [] ↔ ∃ a ∈ l, judge a = .ok true := by
  rw [Ne, List.filter_eq_nil_iff]
  simp

theorem survives_nil : Survives judge limit [] := fun _ h => absurd h not_breaksAfter_nil

theorem survives_cons_false (h : judge item = .ok false) :
    Survives judge limit (item :: l) ↔ Survives judge limit l := by
  have hskip : actsOn judge item = false := actsOn_of_ok h
  constructor
  · intro hs before hbreaks
    have hlimit := hs (item :: before) ((breaksAfter_cons_ok h).2 ⟨before, rfl, hbreaks⟩)
    rwa [List.filter_cons_of_neg (by simp [hskip])] at hlimit
  · rintro hs before hbreaks
    obtain ⟨rest, rfl, hrest⟩ := (breaksAfter_cons_ok h).1 hbreaks
    rw [List.filter_cons_of_neg (by simp [hskip])]
    exact hs rest hrest

theorem survives_cons_true (h : judge item = .ok true) :
    Survives judge (limit + 1) (item :: l) ↔ Survives judge limit l := by
  have hact : actsOn judge item = true := actsOn_of_ok h
  constructor
  · intro hs before hbreaks
    have hlimit := hs (item :: before) ((breaksAfter_cons_ok h).2 ⟨before, rfl, hbreaks⟩)
    rw [List.filter_cons_of_pos hact, List.length_cons] at hlimit
    omega
  · rintro hs before hbreaks
    obtain ⟨rest, rfl, hrest⟩ := (breaksAfter_cons_ok h).1 hbreaks
    rw [List.filter_cons_of_pos hact, List.length_cons]
    have hlimit := hs rest hrest
    omega

theorem survives_zero : Survives judge 0 l := fun _ _ => Nat.zero_le _

end OpenGameAgent
