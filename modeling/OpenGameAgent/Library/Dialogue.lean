import Mathlib.Data.List.Basic
import Mathlib.Tactic.Common

/-!
# Dialogues

A dialogue is a list of moves.  A move asks any number of questions, or answers one.
While a question is open the only move allowed is the answer to the oldest one.

* `Dialogue.after` — the questions open behind a list of moves, in their order.
* `Dialogue.Balanced` — every question is answered; `Balanced.cons` and
  `Balanced.drop` put dialogues together and take them apart.
-/

namespace Dialogue

variable {Q : Type*} [DecidableEq Q]

inductive Move (Q : Type*) where
  | ask (questions : List Q)
  | answer (question : Q)

/-- The questions open behind a move. -/
def step : List Q → Move Q → Option (List Q)
  | [], .ask questions => some questions
  | due :: later, .answer question => if question = due then some later else none
  | _, _ => none

/-- The questions open behind a list of moves. -/
def after (pending : List Q) (moves : List (Move Q)) : Option (List Q) :=
  moves.foldlM step pending

/-- Every question is answered, in its turn. -/
def Balanced (moves : List (Move Q)) : Prop :=
  after [] moves = some []

@[simp] theorem after_nil (pending : List Q) : after pending [] = some pending := rfl

@[simp] theorem after_cons (pending : List Q) (move : Move Q) (moves : List (Move Q)) :
    after pending (move :: moves) = (step pending move).bind fun next => after next moves := rfl

theorem after_append (pending : List Q) (front back : List (Move Q)) :
    after pending (front ++ back) = (after pending front).bind fun next => after next back := by
  simp only [after, List.foldlM_append]
  rfl

@[simp] theorem step_answer_self (due : Q) (later : List Q) :
    step (due :: later) (.answer due) = some later := by
  simp [step]

/-- What comes behind a balanced beginning is balanced by itself. -/
theorem Balanced.of_append {front back : List (Move Q)} (hfront : Balanced front)
    (h : Balanced (front ++ back)) : Balanced back := by
  rw [Balanced, after_append, hfront] at h
  exact h

theorem Balanced.drop {moves : List (Move Q)} {n : Nat} (hfront : Balanced (moves.take n))
    (h : Balanced moves) : Balanced (moves.drop n) :=
  hfront.of_append (by rw [List.take_append_drop]; exact h)

/-- A move that asks nothing may stand before a balanced dialogue. -/
theorem Balanced.cons {moves : List (Move Q)} (h : Balanced moves) :
    Balanced (.ask [] :: moves) := h

end Dialogue
