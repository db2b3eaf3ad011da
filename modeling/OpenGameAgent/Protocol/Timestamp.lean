import Mathlib.Data.String.Basic

/-!
# Canonical timestamps

`CanonicalTimestampSchema` and `assertCanonicalTimestamp` of
`packages/protocol/src/schema.ts`.
-/

namespace OpenGameAgent

def digitsValue (digits : List Char) : Nat :=
  digits.foldl (fun n c => 10 * n + (c.toNat - '0'.toNat)) 0

def isLeapYear (year : Nat) : Bool :=
  year % 4 = 0 && (year % 100 ≠ 0 || year % 400 = 0)

def daysInMonth (year month : Nat) : Nat :=
  if month = 2 then if isLeapYear year then 29 else 28
  else if month = 4 ∨ month = 6 ∨ month = 9 ∨ month = 11 then 30
  else 31

/-- `CanonicalTimestampSchema`: the year, the month and the day of a text of its pattern. -/
def timestampDate (s : String) : Option (Nat × Nat × Nat) :=
  match s.toList with
  | [y₁, y₂, y₃, y₄, '-', m₁, m₂, '-', d₁, d₂, 'T', h₁, h₂, ':', n₁, n₂, ':', s₁, s₂, '.',
      f₁, f₂, f₃, 'Z'] =>
      let month := digitsValue [m₁, m₂]
      let day := digitsValue [d₁, d₂]
      if [y₁, y₂, y₃, y₄, m₁, m₂, d₁, d₂, h₁, h₂, n₁, n₂, s₁, s₂, f₁, f₂, f₃].all Char.isDigit &&
          1 ≤ month && month ≤ 12 && 1 ≤ day && day ≤ 31 && digitsValue [h₁, h₂] < 24 &&
          digitsValue [n₁, n₂] < 60 && digitsValue [s₁, s₂] < 60 then
        some (digitsValue [y₁, y₂, y₃, y₄], month, day)
      else none
  | _ => none

def hasTimestampPattern (s : String) : Bool := (timestampDate s).isSome

/-- `assertCanonicalTimestamp`: the text `Date.prototype.toISOString` writes for a day
of the years 0 to 9999. -/
def isCanonicalTimestamp (s : String) : Bool :=
  (timestampDate s).any fun (year, month, day) => day ≤ daysInMonth year month

example : isCanonicalTimestamp "2024-02-29T23:59:59.999Z" = true ∧
    isCanonicalTimestamp "2023-02-29T00:00:00.000Z" = false := by decide

end OpenGameAgent
