import Mathlib.Data.List.Lex
import Mathlib.Data.List.Nodup
import Mathlib.Data.Fintype.Card
import Mathlib.Logic.Relation
import Mathlib.Order.WellFounded
import Mathlib.Data.Set.Finite.Basic
import Mathlib.Order.WellFoundedSet

/-!
# Topological orders and the least of them

A dependency order lists the vertices of a graph, each once and each after what it needs.  Among
all of them one comes first in the order of words, and it is the one that always goes on with the
least vertex that can come next.

* `DependencyOrder`, `LeastOrder`, and `LeastOrder.unique`.
* `leastOrder_of_greedy` — going on with the least vertex that can come next is enough.
* `exists_free` — where there is no cycle and some vertices are left, one of them needs none of
  the others.
-/

namespace TopologicalOrders

variable {α : Type*} {vertices : Set α} {needs : α → α → Prop} {order other : List α}

/-- The vertices, each once and each after what it needs. -/
structure DependencyOrder (vertices : Set α) (needs : α → α → Prop) (order : List α) : Prop where
  nodup : order.Nodup
  mem : ∀ v, v ∈ order ↔ v ∈ vertices
  after : ∀ before v rest, order = before ++ v :: rest → ∀ w, needs v w → w ∈ before

/-- Some vertex that is left needs none of those that are left. -/
theorem exists_free {left : Set α} (hfinite : left.Finite) (hne : left.Nonempty)
    (hacyclic : ∀ v, ¬ Relation.TransGen needs v v) :
    ∃ v ∈ left, ∀ w, needs v w → w ∉ left := by
  by_contra hall
  push Not at hall
  choose! next hneeds hleft using hall
  obtain ⟨v, hv⟩ := hne
  have hin : ∀ n, next^[n] v ∈ left := by
    intro n
    induction n with
    | zero => exact hv
    | succ n ih =>
      rw [Function.iterate_succ_apply']
      exact hleft _ ih
  have hstep : ∀ m n, Relation.TransGen needs (next^[m] v) (next^[m + n + 1] v) := by
    intro m n
    induction n with
    | zero =>
      rw [Nat.add_zero, Function.iterate_succ_apply']
      exact .single (hneeds _ (hin m))
    | succ n ih =>
      refine ih.tail ?_
      rw [show m + (n + 1) + 1 = (m + n + 1) + 1 by omega, Function.iterate_succ_apply' next (m + n + 1)]
      exact hneeds _ (hin _)
  obtain ⟨m, n, hne, heq⟩ := hfinite.exists_lt_map_eq_of_forall_mem hin
  refine hacyclic (next^[m] v) ?_
  have := hstep m (n - m - 1)
  rwa [show m + (n - m - 1) + 1 = n by omega, ← heq] at this

section Least

variable [LinearOrder α]

/-- The first of all dependency orders, in the order of words. -/
structure LeastOrder (vertices : Set α) (needs : α → α → Prop) (order : List α) : Prop
    extends DependencyOrder vertices needs order where
  least : ∀ other, DependencyOrder vertices needs other → order ≤ other

theorem LeastOrder.unique (h : LeastOrder vertices needs order)
    (h' : LeastOrder vertices needs other) : order = other :=
  le_antisymm (h.least other h'.toDependencyOrder) (h'.least order h.toDependencyOrder)

/-- Of two words the lesser one is a proper beginning of the other or first differs from it by a
lesser letter. -/
theorem split_of_lt : ∀ {p q : List α}, p < q →
    (∃ a r, q = p ++ a :: r) ∨ ∃ before a b r s, p = before ++ a :: r ∧ q = before ++ b :: s ∧ a < b
  | _, [], h => absurd h (List.not_lt_nil _)
  | [], b :: q, _ => .inl ⟨b, q, rfl⟩
  | a :: p, b :: q, h => by
    rcases List.cons_lt_cons_iff.mp h with hlt | ⟨rfl, hlt⟩
    · exact .inr ⟨[], a, b, p, q, rfl, rfl, hlt⟩
    · rcases split_of_lt hlt with ⟨c, r, rfl⟩ | ⟨before, c, d, r, s, rfl, rfl, hcd⟩
      · exact .inl ⟨c, r, rfl⟩
      · exact .inr ⟨a :: before, c, d, r, s, rfl, rfl, hcd⟩

/-- An order that always goes on with the least vertex that can come next is the least. -/
theorem leastOrder_of_greedy (h : DependencyOrder vertices needs order)
    (greedy : ∀ before v rest, order = before ++ v :: rest → ∀ w ∈ vertices, w ∉ before →
      (∀ x, needs w x → x ∈ before) → v ≤ w) : LeastOrder vertices needs order := by
  refine ⟨h, fun other hother => not_lt.mp fun hlt => ?_⟩
  rcases split_of_lt hlt with ⟨a, r, heq⟩ | ⟨before, a, b, r, s, hsmall, hlarge, hab⟩
  · have ha : a ∈ order := by rw [heq]; simp
    have ha' : a ∈ other := (hother.mem a).mpr ((h.mem a).mp ha)
    have hnodup := h.nodup
    rw [heq, List.nodup_append] at hnodup
    exact hnodup.2.2 a ha' a List.mem_cons_self rfl
  · have hin : a ∈ vertices := (hother.mem a).mp (by rw [hsmall]; simp)
    have hfresh : a ∉ before := by
      intro hmem
      have hnodup := hother.nodup
      rw [hsmall, List.nodup_append] at hnodup
      exact hnodup.2.2 a hmem a List.mem_cons_self rfl
    have hle := greedy before b s hlarge a hin hfresh (hother.after before a r hsmall)
    exact absurd hab (not_lt.mpr hle)

end Least

end TopologicalOrders
