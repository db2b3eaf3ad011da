import Mathlib.Data.List.Basic

/-!
# Logs that forget their oldest items

A log numbers its items from one and never reuses a number, while retention drops its
oldest items.  A reader keeps the number of the last item it has read, its cursor.

* `RetainedLog` — the number of the last item ever appended, and the items still held.
* `RetainedLog.Keeps` — a log holds the end of a history; appending and dropping keep it
  (`Keeps.append`, `Keeps.drop`).
* `RetainedLog.Serves` — the log can go on from a cursor; `after_eq_drop` says what it
  answers then, and `after_eq_drop_max` what it answers in any case.
* `RetainedLog.Later` — what a log becomes when it is appended to and dropped from.
* `RetainedLog.Numbered` — the items carry their numbers; `Numbered.filter_lt_eq_after` reads
  the items after a cursor off them.
-/

namespace OpenGameAgent

/-- A log with the number of its last item and the items it still holds. -/
structure RetainedLog (α : Type) where
  head : Nat
  items : List α
  held : items.length ≤ head

namespace RetainedLog

variable {α : Type}

def empty : RetainedLog α := ⟨0, [], Nat.le_refl 0⟩

/-- How many items were dropped: the number of the last one. -/
def dropped (log : RetainedLog α) : Nat := log.head - log.items.length

theorem dropped_add_length (log : RetainedLog α) : log.dropped + log.items.length = log.head :=
  Nat.sub_add_cancel log.held

theorem dropped_le_head (log : RetainedLog α) : log.dropped ≤ log.head := Nat.sub_le ..

def append (log : RetainedLog α) (item : α) : RetainedLog α where
  head := log.head + 1
  items := log.items ++ [item]
  held := by
    rw [List.length_append, List.length_singleton]
    exact Nat.succ_le_succ log.held

/-- Drop the `n` oldest items. -/
def drop (log : RetainedLog α) (n : Nat) : RetainedLog α where
  head := log.head
  items := log.items.drop n
  held := by
    rw [List.length_drop]
    exact Nat.le_trans (Nat.sub_le ..) log.held

/-- The number of the oldest item held. -/
def earliest (log : RetainedLog α) : Option Nat :=
  if log.items = [] then none else some (log.dropped + 1)

/-- The items held whose number is above a cursor. -/
def after (log : RetainedLog α) (cursor : Nat) : List α := log.items.drop (cursor - log.dropped)

@[simp] theorem dropped_append (log : RetainedLog α) (item : α) :
    (log.append item).dropped = log.dropped := by
  have := log.dropped_add_length
  simp only [dropped, append, List.length_append, List.length_singleton] at this ⊢
  omega

@[simp] theorem head_append (log : RetainedLog α) (item : α) :
    (log.append item).head = log.head + 1 := rfl

@[simp] theorem head_drop (log : RetainedLog α) (n : Nat) : (log.drop n).head = log.head := rfl

theorem dropped_drop (log : RetainedLog α) (n : Nat) :
    (log.drop n).dropped = min (log.dropped + n) log.head := by
  have := log.dropped_add_length
  simp only [dropped, drop, List.length_drop] at this ⊢
  omega

/-! ## The history of a log -/

/-- The log holds the end of the history. -/
structure Keeps (history : List α) (log : RetainedLog α) : Prop where
  head : log.head = history.length
  items : log.items = history.drop log.dropped

theorem keeps_empty : Keeps [] (empty : RetainedLog α) := ⟨rfl, rfl⟩

theorem Keeps.append {history : List α} {log : RetainedLog α} (h : Keeps history log) (item : α) :
    Keeps (history ++ [item]) (log.append item) where
  head := by
    rw [head_append, h.head, List.length_append, List.length_singleton]
  items := by
    have hle : log.dropped ≤ history.length := h.head ▸ log.dropped_le_head
    rw [dropped_append, List.drop_append_of_le_length hle, ← h.items]
    rfl

theorem Keeps.drop {history : List α} {log : RetainedLog α} (h : Keeps history log) (n : Nat) :
    Keeps history (log.drop n) where
  head := h.head
  items := by
    have hlen : log.dropped + log.items.length = log.head := log.dropped_add_length
    show log.items.drop n = _
    rw [dropped_drop, h.items, List.drop_drop]
    by_cases hn : log.dropped + n ≤ log.head
    · rw [Nat.min_eq_left hn]
    · rw [Nat.min_eq_right (by omega), h.head, List.drop_length,
        List.drop_eq_nil_of_le (by rw [← h.head]; omega)]

/-- The items after a cursor are those of the history after it, as far as they are held. -/
theorem Keeps.after_eq_drop_max {history : List α} {log : RetainedLog α} (h : Keeps history log)
    (cursor : Nat) : log.after cursor = history.drop (max cursor log.dropped) := by
  rw [after, h.items, List.drop_drop]
  congr 1
  omega

/-! ## Cursors -/

/-- The log holds everything after the cursor, and the cursor is not ahead of it. -/
def Serves (log : RetainedLog α) (cursor : Nat) : Prop :=
  log.dropped ≤ cursor ∧ cursor ≤ log.head

instance (log : RetainedLog α) (cursor : Nat) : Decidable (log.Serves cursor) :=
  inferInstanceAs (Decidable (_ ∧ _))

/-- What a reader can see of a log decides whether the log serves its cursor. -/
theorem serves_iff (log : RetainedLog α) (cursor : Nat) :
    log.Serves cursor ↔
      ¬ (log.head < cursor ∨
        match log.earliest with
        | none => cursor < log.head
        | some first => cursor + 1 < first) := by
  have hlen := log.dropped_add_length
  unfold Serves earliest
  by_cases hitems : log.items = []
  · rw [hitems, List.length_nil] at hlen
    simp only [hitems, if_true]
    omega
  · simp only [hitems, if_false]
    omega

theorem Keeps.after_eq_drop {history : List α} {log : RetainedLog α} (h : Keeps history log)
    {cursor : Nat} (hcursor : log.dropped ≤ cursor) : log.after cursor = history.drop cursor := by
  rw [h.after_eq_drop_max, Nat.max_eq_left hcursor]

/-- A log that holds nothing has nothing after any cursor. -/
theorem after_eq_nil {log : RetainedLog α} (h : log.items = []) (cursor : Nat) :
    log.after cursor = [] := by
  rw [after, h, List.drop_nil]

/-- A log that has dropped items past the cursor has all it holds after it. -/
theorem after_of_le_dropped {log : RetainedLog α} {cursor : Nat} (h : cursor ≤ log.dropped) :
    log.after cursor = log.items := by
  rw [after, Nat.sub_eq_zero_of_le h, List.drop_zero]

/-! ## Time -/

/-- The second log comes from the first by appending and dropping. -/
structure Later (log log' : RetainedLog α) : Prop where
  head : log.head ≤ log'.head
  dropped : log.dropped ≤ log'.dropped

theorem Later.refl (log : RetainedLog α) : Later log log := ⟨Nat.le_refl _, Nat.le_refl _⟩

theorem Later.trans {log mid log' : RetainedLog α} (h : Later log mid) (h' : Later mid log') :
    Later log log' :=
  ⟨Nat.le_trans h.head h'.head, Nat.le_trans h.dropped h'.dropped⟩

theorem later_append (log : RetainedLog α) (item : α) : Later log (log.append item) where
  head := Nat.le_succ _
  dropped := Nat.le_of_eq (dropped_append log item).symm

theorem later_drop (log : RetainedLog α) (n : Nat) : Later log (log.drop n) where
  head := Nat.le_refl _
  dropped := by
    rw [dropped_drop]
    have := log.dropped_le_head
    omega

/-! ## Items that carry their numbers -/

variable {number : α → Nat}

/-- The items held carry consecutive numbers, the last one that of the head. -/
def Numbered (number : α → Nat) (log : RetainedLog α) : Prop :=
  log.items.map number = List.range' (log.dropped + 1) log.items.length

theorem Numbered.append {log : RetainedLog α} (h : Numbered number log) {item : α}
    (hitem : number item = log.head + 1) : Numbered number (log.append item) := by
  have hlen := log.dropped_add_length
  show (log.items ++ [item]).map number = _
  rw [dropped_append, List.map_append, h, List.map_singleton, hitem]
  show _ = List.range' (log.dropped + 1) (log.items ++ [item]).length
  rw [List.length_append, List.length_singleton, List.range'_concat]
  congr 2
  omega

theorem Numbered.drop {log : RetainedLog α} (h : Numbered number log) (n : Nat) :
    Numbered number (log.drop n) := by
  have hlen := log.dropped_add_length
  show (log.items.drop n).map number = List.range' _ (log.items.drop n).length
  rw [List.map_drop, h, List.drop_range', dropped_drop, List.length_drop]
  by_cases hn : n ≤ log.items.length
  · rw [Nat.min_eq_left (by omega)]
    congr 1
    omega
  · rw [Nat.sub_eq_zero_of_le (by omega)]
    rfl

/-- Of items with consecutive numbers, those above a cursor are the last ones. -/
theorem filter_lt_eq_drop {items : List α} {start : Nat} (cursor : Nat)
    (h : items.map number = List.range' (start + 1) items.length) :
    (items.filter fun item => cursor < number item) = items.drop (cursor - start) := by
  induction items generalizing start with
  | nil => simp
  | cons item items ih =>
    rw [List.map_cons, List.length_cons, List.range'_succ, List.cons.injEq] at h
    have hrest := ih h.2
    by_cases hcursor : cursor < number item
    · have hzero : cursor - start = 0 := by omega
      rw [List.filter_cons_of_pos (by simpa using hcursor), hrest, hzero,
        show cursor - (start + 1) = 0 by omega]
      rfl
    · obtain ⟨k, hk⟩ : ∃ k, cursor - start = k + 1 := ⟨cursor - start - 1, by omega⟩
      rw [List.filter_cons_of_neg (by simpa using hcursor), hrest, hk, List.drop_succ_cons]
      congr 1
      omega

/-- The items above a cursor are the items after it. -/
theorem Numbered.filter_lt_eq_after {log : RetainedLog α} (h : Numbered number log)
    (cursor : Nat) : (log.items.filter fun item => cursor < number item) = log.after cursor :=
  filter_lt_eq_drop cursor h

/-- The oldest item held carries its number. -/
theorem Numbered.head?_eq {log : RetainedLog α} (h : Numbered number log) :
    log.items.head?.map number = log.earliest := by
  unfold Numbered at h
  unfold earliest
  cases hitems : log.items with
  | nil => rfl
  | cons item items =>
    rw [hitems, List.map_cons, List.length_cons, List.range'_succ, List.cons.injEq] at h
    rw [if_neg (List.cons_ne_nil _ _), List.head?_cons, Option.map_some, h.1]

end RetainedLog

end OpenGameAgent
