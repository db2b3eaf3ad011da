import Mathlib.Algebra.BigOperators.Group.List.Basic
import Mathlib.Algebra.Order.Ring.Nat

/-!
# Work stacks

A machine that keeps the work still to do on a stack instead of calling itself.  It takes
the task on top, writes what the task says at once and puts the tasks it leaves in its
place.

* `WorkStack.run` — the machine, with fuel.
* `WorkStack.run_eq` — with as much fuel as its tasks weigh the machine ends, and it has
  written what the recursion over tasks writes.
-/

namespace WorkStack

variable {T O : Type*}

/-- The machine: `expand` says what a task writes and which tasks it leaves.  None where
the fuel runs out first. -/
def run (expand : T → List O × List T) : Nat → List T → List O → Option (List O)
  | _, [], written => some written
  | 0, _ :: _, _ => none
  | fuel + 1, task :: stack, written =>
    run expand fuel ((expand task).2 ++ stack) (written ++ (expand task).1)

/-- The machine writes what the tasks mean, one behind the other. -/
theorem run_eq {expand : T → List O × List T} {meaning : T → List O} {weight : T → Nat}
    (hmeaning : ∀ task, meaning task = (expand task).1 ++ (expand task).2.flatMap meaning)
    (hweight : ∀ task, ((expand task).2.map weight).sum < weight task)
    (fuel : Nat) (stack : List T) (hfuel : (stack.map weight).sum ≤ fuel) (written : List O) :
    run expand fuel stack written = some (written ++ stack.flatMap meaning) := by
  induction fuel generalizing stack written with
  | zero =>
    cases stack with
    | nil => simp [run]
    | cons task stack =>
      have hpositive := hweight task
      rw [List.map_cons, List.sum_cons] at hfuel
      omega
  | succ fuel ih =>
    cases stack with
    | nil => simp [run]
    | cons task stack =>
      have hlighter := hweight task
      rw [List.map_cons, List.sum_cons] at hfuel
      have hrest : (((expand task).2 ++ stack).map weight).sum ≤ fuel := by
        rw [List.map_append, List.sum_append]
        omega
      rw [run, ih _ hrest, List.flatMap_cons, List.flatMap_append, hmeaning task,
        List.append_assoc, List.append_assoc]

end WorkStack
