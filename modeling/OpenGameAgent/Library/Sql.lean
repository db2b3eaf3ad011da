import Mathlib.Data.List.Sort

/-!
# Conditions and rows of a SQL query

A comparison with `NULL` is neither true nor false, and `WHERE` keeps the rows whose
condition is true.  Values that may be `NULL` are options.

* `Truth` — three-valued truth, with `AND`, `OR`, `NOT` and the comparisons.
* `Truth.holds` — what `WHERE` asks; it turns `AND` and `OR` into those of booleans, so a
  condition without `NOT` can be read off clause by clause.
* `selectRows` — the rows of a table that a condition keeps, in the order of a key.
-/

namespace OpenGameAgent

/-- What a condition says of a row; `none` is `NULL`. -/
abbrev Truth := Option Bool

namespace Truth

def and : Truth → Truth → Truth
  | some false, _ => some false
  | _, some false => some false
  | some true, some true => some true
  | _, _ => none

def or : Truth → Truth → Truth
  | some true, _ => some true
  | _, some true => some true
  | some false, some false => some false
  | _, _ => none

def not (a : Truth) : Truth := a.map (!·)

/-- Is the condition true? -/
def holds (a : Truth) : Bool := a = some true

/-- `NOT` of a condition that is never `NULL`. -/
@[simp] theorem holds_not_some (b : Bool) : (not (some b)).holds = !b := by cases b <;> rfl

@[simp] theorem holds_some (b : Bool) : holds (some b) = b := by cases b <;> rfl

@[simp] theorem holds_and (a b : Truth) : (a.and b).holds = (a.holds && b.holds) := by
  rcases a with _ | _ | _ <;> rcases b with _ | _ | _ <;> rfl

@[simp] theorem holds_or (a b : Truth) : (a.or b).holds = (a.holds || b.holds) := by
  rcases a with _ | _ | _ <;> rcases b with _ | _ | _ <;> rfl

end Truth

section Comparisons

variable {α : Type}

/-- `a IS NULL`. -/
def sqlIsNull (a : Option α) : Truth := some a.isNone

/-- A comparison of two values. -/
def sqlCompare (r : α → α → Bool) (a b : Option α) : Truth :=
  a.bind fun x => b.map fun y => r x y

/-- `a = b`. -/
def sqlEq [DecidableEq α] (a b : Option α) : Truth := sqlCompare (fun x y => decide (x = y)) a b

/-- `EXISTS (SELECT 1 FROM rows WHERE condition)`. -/
def sqlExists (rows : List α) (condition : α → Truth) : Truth :=
  some (rows.any fun row => (condition row).holds)

@[simp] theorem holds_sqlIsNull (a : Option α) : (sqlIsNull a).holds = a.isNone :=
  Truth.holds_some _

@[simp] theorem holds_sqlCompare_some (r : α → α → Bool) (x y : α) :
    (sqlCompare r (some x) (some y)).holds = r x y := Truth.holds_some _

@[simp] theorem holds_sqlEq_some [DecidableEq α] (x : α) (b : Option α) :
    (sqlEq (some x) b).holds = decide (some x = b) := by
  cases b with
  | none => rfl
  | some y => simp [sqlEq]

@[simp] theorem holds_some_sqlEq [DecidableEq α] (a : Option α) (y : α) :
    (sqlEq a (some y)).holds = decide (a = some y) := by
  cases a with
  | none => rfl
  | some x => simp [sqlEq]

@[simp] theorem holds_sqlExists (rows : List α) (condition : α → Truth) :
    (sqlExists rows condition).holds = rows.any fun row => (condition row).holds :=
  Truth.holds_some _

@[simp] theorem holds_not_sqlExists (rows : List α) (condition : α → Truth) :
    (Truth.not (sqlExists rows condition)).holds =
      !rows.any fun row => (condition row).holds :=
  Truth.holds_not_some _

/-- A comparison that a `NULL` passes. -/
theorem holds_null_or_compare (r : α → α → Bool) (a : Option α) (y : α) :
    ((sqlIsNull a).or (sqlCompare r a (some y))).holds = a.all fun x => r x y := by
  cases a with
  | none => rfl
  | some x => simp

/-- The same with the sides of the comparison exchanged. -/
theorem holds_null_or_compare' (r : α → α → Bool) (a : Option α) (y : α) :
    ((sqlIsNull a).or (sqlCompare r (some y) a)).holds = a.all fun x => r y x := by
  cases a with
  | none => rfl
  | some x => simp

/-- A column that may be `NULL` is to be a value, if there is one. -/
@[simp] theorem holds_null_or_eq [DecidableEq α] (value column : Option α) :
    ((sqlIsNull value).or (sqlEq value column)).holds =
      (decide (value = none) || decide (value = column)) := by
  cases value with
  | none => rfl
  | some x => simp

/-- The same with the sides of the comparison exchanged. -/
@[simp] theorem holds_null_or_eq' [DecidableEq α] (value column : Option α) :
    ((sqlIsNull value).or (sqlEq column value)).holds =
      (decide (value = none) || decide (value = column)) := by
  cases value with
  | none => rfl
  | some x => simp [eq_comm]

end Comparisons

/-- `SELECT * FROM rows WHERE condition ORDER BY key`. -/
def selectRows {α : Type} (rows : List α) (condition : α → Truth) (key : α → Nat) : List α :=
  (rows.filter fun row => (condition row).holds).insertionSort fun left right => key left ≤ key right

/-- In a table in the order of the key, a selection is a filter. -/
theorem selectRows_eq_filter {α : Type} {rows : List α} {condition : α → Truth} {key : α → Nat}
    (h : rows.Pairwise fun left right => key left < key right) :
    selectRows rows condition key = rows.filter fun row => (condition row).holds := by
  unfold selectRows
  refine List.Pairwise.insertionSort_eq ?_
  exact (h.filter _).imp Nat.le_of_lt

end OpenGameAgent
