import Mathlib.Data.List.Sort
import Mathlib.Logic.Relation

/-!
# Priority queues and merging

A priority queue hands over a least item.  A program that puts the successor of each
item back into the queue merges as many streams as the queue holds at the start.

* `PriorityQueue` — the operations with what they promise; nothing is said about which
  of two equal items comes first.
* `PriorityQueue.sorting` — the queue that sorts before it hands over an item.
* `Drains` — the items handed over until the queue is empty.
* `Drains.mem_iff` — they are the items of the streams, and `Drains.pairwise` — they
  come in order, when no two streams of one group are merged.
-/

namespace OpenGameAgent

/-- A priority queue over a comparison, with the multiset of the items it holds. -/
structure PriorityQueue (α : Type) (compare : α → α → Ordering) where
  Queue : Type
  ofList : List α → Queue
  push : Queue → α → Queue
  pop : Queue → Option (α × Queue)
  items : Queue → List α
  items_ofList : ∀ l, (items (ofList l)).Perm l
  items_push : ∀ q a, (items (push q a)).Perm (a :: items q)
  pop_none : ∀ q, pop q = none → items q = []
  pop_some : ∀ q a q', pop q = some (a, q') →
    (items q).Perm (a :: items q') ∧ ∀ b ∈ items q', compare a b ≠ .gt

namespace PriorityQueue

variable {α κ : Type} {compare : α → α → Ordering}

/-- A queue that sorts its items when one is asked for. -/
def sorting (compare : α → α → Ordering) (htotal : ∀ a b, compare a b ≠ .gt ∨ compare b a ≠ .gt)
    (htrans : ∀ a b c, compare a b ≠ .gt → compare b c ≠ .gt → compare a c ≠ .gt) :
    PriorityQueue α compare where
  Queue := List α
  ofList l := l
  push q a := a :: q
  pop q :=
    match q.insertionSort fun a b => compare a b ≠ .gt with
    | [] => none
    | a :: rest => some (a, rest)
  items q := q
  items_ofList l := List.Perm.refl l
  items_push q a := List.Perm.refl (a :: q)
  pop_none q h := by
    have hperm := List.perm_insertionSort (fun a b => compare a b ≠ .gt) q
    split at h
    · rename_i hsort
      rw [hsort] at hperm
      exact hperm.symm.eq_nil
    · cases h
  pop_some q a q' h := by
    have : IsTrans α fun a b => compare a b ≠ .gt := ⟨htrans⟩
    have : Std.Total fun a b : α => compare a b ≠ .gt := ⟨htotal⟩
    have hperm := List.perm_insertionSort (fun a b => compare a b ≠ .gt) q
    have hsorted := List.pairwise_insertionSort (fun a b => compare a b ≠ .gt) q
    split at h
    · cases h
    · rename_i b rest hsort
      cases h
      rw [hsort] at hperm hsorted
      exact ⟨hperm.symm, (List.pairwise_cons.1 hsorted).1⟩

variable (queue : PriorityQueue α compare)

/-- Put an item into the queue, if there is one. -/
def pushSome (q : queue.Queue) : Option α → queue.Queue
  | none => q
  | some a => queue.push q a

theorem items_pushSome (q : queue.Queue) (a : Option α) :
    (queue.items (queue.pushSome q a)).Perm (a.toList ++ queue.items q) := by
  cases a with
  | none => exact List.Perm.refl _
  | some a => exact queue.items_push q a

/-- The items handed over until the queue is empty, when each is followed by its
successor. -/
inductive Drains (next : α → Option α) : queue.Queue → List α → Prop where
  | done {q : queue.Queue} : queue.pop q = none → Drains next q []
  | step {q q' : queue.Queue} {a : α} {out : List α} : queue.pop q = some (a, q') →
      Drains next (queue.pushSome q' (next a)) out → Drains next q (a :: out)

variable {queue} {next : α → Option α}

/-- What is handed over is what the streams of the queue's items hold. -/
theorem Drains.mem_iff {q : queue.Queue} {out : List α} (h : queue.Drains next q out) (a : α) :
    a ∈ out ↔ ∃ c ∈ queue.items q, Relation.ReflTransGen (fun x y => next x = some y) c a := by
  induction h with
  | done hpop => simp [queue.pop_none _ hpop]
  | @step q q' x out hpop _ ih =>
    have hitems := (queue.pop_some _ _ _ hpop).1
    have hpushed := queue.items_pushSome q' (next x)
    rw [List.mem_cons, ih]
    constructor
    · rintro (rfl | ⟨c, hc, hpath⟩)
      · exact ⟨a, hitems.mem_iff.2 (List.mem_cons_self ..), .refl⟩
      · rw [hpushed.mem_iff, List.mem_append, Option.mem_toList] at hc
        rcases hc with hc | hc
        · exact ⟨x, hitems.mem_iff.2 (List.mem_cons_self ..), .head hc hpath⟩
        · exact ⟨c, hitems.mem_iff.2 (List.mem_cons_of_mem _ hc), hpath⟩
    · rintro ⟨c, hc, hpath⟩
      rw [hitems.mem_iff, List.mem_cons] at hc
      rcases hc with rfl | hc
      · rcases Relation.ReflTransGen.cases_head hpath with rfl | ⟨d, hd, hrest⟩
        · exact Or.inl rfl
        · refine Or.inr ⟨d, ?_, hrest⟩
          rw [hpushed.mem_iff, List.mem_append, Option.mem_toList]
          exact Or.inl hd
      · refine Or.inr ⟨c, ?_, hpath⟩
        rw [hpushed.mem_iff, List.mem_append]
        exact Or.inr hc

/-- Streams of different groups are merged in order, `P` being what holds of every item. -/
theorem Drains.pairwise (P : α → Prop) (group : α → κ) (lt : α → α → Prop)
    (htrans : ∀ a b c, lt a b → lt b c → lt a c)
    (hlt : ∀ a b, compare a b ≠ .gt → group a ≠ group b → lt a b)
    (hnext : ∀ a b, P a → next a = some b → P b ∧ lt a b ∧ group b = group a)
    {q : queue.Queue} {out : List α} (h : queue.Drains next q out)
    (hP : ∀ a ∈ queue.items q, P a) (hnodup : ((queue.items q).map group).Nodup) :
    out.Pairwise lt := by
  suffices hall : (∀ x ∈ out, ∃ c ∈ queue.items q, c = x ∨ lt c x) ∧ out.Pairwise lt from hall.2
  induction h with
  | done _ => exact ⟨by simp, List.Pairwise.nil⟩
  | @step q q' a out hpop _ ih =>
    obtain ⟨hitems, hleast⟩ := queue.pop_some _ _ _ hpop
    have hpushed := queue.items_pushSome q' (next a)
    have hPa := hP a (hitems.mem_iff.2 (List.mem_cons_self ..))
    have hgroups := (hitems.map group).nodup_iff.1 hnodup
    rw [List.map_cons, List.nodup_cons] at hgroups
    -- whatever is in the queue after `a` was handed over lies behind `a`
    have hmem : ∀ c ∈ queue.items (queue.pushSome q' (next a)), P c ∧ lt a c := by
      intro c hc
      rw [hpushed.mem_iff, List.mem_append, Option.mem_toList] at hc
      rcases hc with hc | hc
      · exact ⟨(hnext a c hPa hc).1, (hnext a c hPa hc).2.1⟩
      · refine ⟨hP c (hitems.mem_iff.2 (List.mem_cons_of_mem _ hc)),
          hlt a c (hleast c hc) fun heq => hgroups.1 ?_⟩
        exact heq ▸ List.mem_map_of_mem hc
    have hnodup' : ((queue.items (queue.pushSome q' (next a))).map group).Nodup := by
      rw [(hpushed.map group).nodup_iff]
      cases hb : next a with
      | none => exact hgroups.2
      | some b =>
        rw [Option.toList_some, List.singleton_append, List.map_cons, (hnext a b hPa hb).2.2]
        exact List.nodup_cons.2 hgroups
    obtain ⟨hfrom, hsorted⟩ := ih (fun c hc => (hmem c hc).1) hnodup'
    have hall : ∀ x ∈ out, lt a x := by
      intro x hx
      obtain ⟨c, hc, hcx⟩ := hfrom x hx
      rcases hcx with rfl | hcx
      · exact (hmem c hc).2
      · exact htrans a c x (hmem c hc).2 hcx
    refine ⟨?_, List.pairwise_cons.2 ⟨hall, hsorted⟩⟩
    intro x hx
    refine ⟨a, hitems.mem_iff.2 (List.mem_cons_self ..), ?_⟩
    rcases List.mem_cons.1 hx with rfl | hx
    · exact Or.inl rfl
    · exact Or.inr (hall x hx)

end PriorityQueue

end OpenGameAgent
