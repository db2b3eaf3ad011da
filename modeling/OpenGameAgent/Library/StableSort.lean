import Mathlib.Data.List.Induction
import Mathlib.Data.List.Sort

/-!
# Stable sorting and the first few

Two programs pick the first `k` items by some order, of a list that is already in the
order of arrival.  One sorts by the order and, among equals, by arrival, and takes `k`.
The other reads the items as they arrive, keeps at most `k` of them, and sorts those it
has after each.

* `insertionSort_concat` — sorting with one more item at the end.
* `foldl_keep` — reading the items one by one keeps the same `k` items in the same order.
-/

namespace OpenGameAgent

variable {α : Type}

section Last

variable (r : α → α → Prop) [DecidableRel r]

/-- Put an item behind all that are not above it. -/
def insertLast (x : α) : List α → List α
  | [] => [x]
  | y :: rest => if r y x then y :: insertLast x rest else x :: y :: rest

variable {r}

/-- Putting one item first among its equals and another last commute. -/
theorem orderedInsert_insertLast (htotal : ∀ a b, r a b ∨ r b a)
    (htrans : ∀ a b c, r a b → r b c → r a c) (a x : α) (s : List α) :
    (insertLast r x s).orderedInsert r a = insertLast r x (s.orderedInsert r a) := by
  induction s with
  | nil =>
    by_cases hax : r a x
    · simp [insertLast, hax]
    · simp [insertLast, hax]
  | cons y s ih =>
    by_cases hyx : r y x
    · by_cases hay : r a y
      · have hax := htrans a y x hay hyx
        simp [insertLast, hyx, hay, hax]
      · simp [insertLast, hyx, hay, ih]
    · by_cases hay : r a y
      · by_cases hax : r a x
        · simp [insertLast, hyx, hay, hax]
        · simp [insertLast, hyx, hay, hax]
      · have hax : ¬ r a x := by
          intro hax
          rcases htotal a y with h | h
          · exact hay h
          · exact hyx (htrans y a x h hax)
        simp [insertLast, hyx, hay, hax]

/-- Sorting with one more item at the end. -/
theorem insertionSort_concat (htotal : ∀ a b, r a b ∨ r b a)
    (htrans : ∀ a b c, r a b → r b c → r a c) (l : List α) (x : α) :
    (l ++ [x]).insertionSort r = insertLast r x (l.insertionSort r) := by
  induction l with
  | nil => rfl
  | cons a l ih =>
    rw [List.cons_append, List.insertionSort_cons, ih, List.insertionSort_cons,
      orderedInsert_insertLast htotal htrans]

/-- What lies behind the first `k` has no part in the next first `k`. -/
theorem take_insertLast_take (x : α) (s : List α) (k : Nat) :
    (insertLast r x (s.take k)).take k = (insertLast r x s).take k := by
  induction s generalizing k with
  | nil => simp
  | cons y s ih =>
    cases k with
    | zero => simp
    | succ k =>
      by_cases hyx : r y x
      · simp [insertLast, hyx, ih]
      · cases k with
        | zero => simp [insertLast, hyx]
        | succ k => simp [insertLast, hyx, List.take_take]

/-- Keep the first `k` of what was read so far. -/
theorem foldl_keep (htotal : ∀ a b, r a b ∨ r b a) (htrans : ∀ a b c, r a b → r b c → r a c)
    (k : Nat) (l : List α) :
    l.foldl (fun kept x => ((kept ++ [x]).insertionSort r).take k) [] =
      (l.insertionSort r).take k := by
  induction l using List.reverseRecOn with
  | nil => simp
  | append_singleton l x ih =>
    have : IsTrans α r := ⟨htrans⟩
    have : Std.Total r := ⟨htotal⟩
    have hsorted : ((l.insertionSort r).take k).insertionSort r = (l.insertionSort r).take k :=
      ((List.pairwise_insertionSort r l).sublist (List.take_sublist _ _)).insertionSort_eq
    rw [List.foldl_append, ih, List.foldl_cons, List.foldl_nil,
      insertionSort_concat htotal htrans, hsorted, take_insertLast_take,
      ← insertionSort_concat htotal htrans]

end Last

/-- The head of a list sorted by a key has the least key. -/
theorem head?_insertionSort_eq_some {key : α → Nat} {l : List α} {a : α}
    (h : (l.insertionSort fun x y => key x ≤ key y).head? = some a) :
    a ∈ l ∧ ∀ b ∈ l, key a ≤ key b := by
  have hsorted := List.pairwise_insertionSort (fun x y => key x ≤ key y) l
  have hmem : ∀ b, b ∈ l.insertionSort (fun x y => key x ≤ key y) ↔ b ∈ l :=
    fun b => List.mem_insertionSort _
  cases hsort : l.insertionSort fun x y => key x ≤ key y with
  | nil =>
    rw [hsort] at h
    cases h
  | cons first rest =>
    rw [hsort] at h hsorted hmem
    obtain rfl : first = a := by simpa using h
    refine ⟨(hmem _).1 (List.mem_cons_self ..), fun b hb => ?_⟩
    rcases List.mem_cons.1 ((hmem b).2 hb) with rfl | hrest
    · exact le_refl _
    · exact (List.pairwise_cons.1 hsorted).1 b hrest

/-- A list with distinct keys is strictly sorted by them. -/
theorem pairwise_lt_insertionSort {β : Type} [LinearOrder β] (key : α → β) {l : List α}
    (h : (l.map key).Nodup) :
    (l.insertionSort fun a b => key a ≤ key b).Pairwise fun a b => key a < key b := by
  have hsorted : (l.insertionSort fun a b => key a ≤ key b).Pairwise fun a b => key a ≤ key b := by
    have : Std.Total fun a b : α => key a ≤ key b := ⟨fun a b => le_total _ _⟩
    have : IsTrans α fun a b => key a ≤ key b := ⟨fun _ _ _ => le_trans⟩
    exact List.pairwise_insertionSort _ l
  have hdistinct : (l.insertionSort fun a b => key a ≤ key b).Pairwise fun a b => key a ≠ key b :=
    List.pairwise_map.1 (((List.perm_insertionSort _ l).map key).nodup_iff.2 h)
  exact (hsorted.and hdistinct).imp fun hab => lt_of_le_of_ne hab.1 hab.2

end OpenGameAgent
