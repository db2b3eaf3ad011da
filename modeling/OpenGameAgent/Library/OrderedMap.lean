import Mathlib.Data.List.Basic
import Mathlib.Data.List.Nodup

/-!
# Finite maps in insertion order

A finite map that remembers the order in which its keys were first inserted:
writing to a present key keeps its place, writing to a new key appends it, and
deleting a key forgets its place.  Iteration goes over `entries` from the oldest
key to the newest.

`OrderedMap` carries the proof that no key occurs twice, so `get?` and membership
in `entries` say the same thing (`get?_eq_some_iff`) and no map can be built that
answers one key in two ways.
-/

namespace OpenGameAgent

/-- A finite map with its entries in insertion order. -/
structure OrderedMap (κ α : Type) where
  entries : List (κ × α)
  nodup : (entries.map Prod.fst).Nodup

namespace OrderedMap

variable {κ α : Type}

/-! ## Entry lists -/

/-- Overwrite the entry of a key where it stands, or append a new one. -/
def putEntry [DecidableEq κ] (k : κ) (v : α) : List (κ × α) → List (κ × α)
  | [] => [(k, v)]
  | e :: rest => if e.1 = k then (k, v) :: rest else e :: putEntry k v rest

def findEntry [DecidableEq κ] (k : κ) : List (κ × α) → Option α
  | [] => none
  | e :: rest => if e.1 = k then some e.2 else findEntry k rest

variable [DecidableEq κ]

theorem keys_putEntry (k : κ) (v : α) (l : List (κ × α)) :
    (putEntry k v l).map Prod.fst =
      if k ∈ l.map Prod.fst then l.map Prod.fst else l.map Prod.fst ++ [k] := by
  induction l with
  | nil => simp [putEntry]
  | cons e l ih =>
    by_cases h : e.1 = k
    · simp [putEntry, h]
    · have hk : k ≠ e.1 := fun hc => h hc.symm
      simp only [putEntry, h, if_false, List.map_cons, ih, List.mem_cons, hk, false_or]
      split <;> rfl

theorem nodup_putEntry (k : κ) (v : α) {l : List (κ × α)} (h : (l.map Prod.fst).Nodup) :
    ((putEntry k v l).map Prod.fst).Nodup := by
  rw [keys_putEntry]
  split
  · exact h
  · rename_i hk
    rw [List.nodup_append]
    refine ⟨h, by simp, ?_⟩
    rintro a ha b hb rfl
    rw [List.mem_singleton] at hb
    exact hk (hb ▸ ha)

theorem findEntry_putEntry (k j : κ) (v : α) (l : List (κ × α)) :
    findEntry j (putEntry k v l) = if k = j then some v else findEntry j l := by
  induction l with
  | nil => simp [putEntry, findEntry]
  | cons e l ih =>
    by_cases h : e.1 = k
    · subst h
      by_cases hj : e.1 = j <;> simp [putEntry, findEntry, hj]
    · by_cases hj : e.1 = j
      · have hk : k ≠ j := fun hc => h (hj.trans hc.symm)
        simp only [putEntry, if_neg h, findEntry, if_pos hj, if_neg hk]
      · simp [putEntry, findEntry, h, hj, ih]

theorem findEntry_eq_some_iff {l : List (κ × α)} (h : (l.map Prod.fst).Nodup) {k : κ} {v : α} :
    findEntry k l = some v ↔ (k, v) ∈ l := by
  induction l with
  | nil => simp [findEntry]
  | cons e l ih =>
    rw [List.map_cons, List.nodup_cons] at h
    by_cases he : e.1 = k
    · subst he
      have hno : ∀ w, (e.1, w) ∉ l := fun w hw => h.1 (List.mem_map.2 ⟨_, hw, rfl⟩)
      simp only [findEntry, if_true, Option.some.injEq, List.mem_cons, hno, or_false]
      constructor
      · rintro rfl; rfl
      · intro hv; rw [← hv]
    · have hne : (k, v) ≠ e := fun hc => he (by rw [← hc])
      simp [findEntry, he, ih h.2, hne]

theorem findEntry_eq_none_iff {l : List (κ × α)} {k : κ} :
    findEntry k l = none ↔ k ∉ l.map Prod.fst := by
  induction l with
  | nil => simp [findEntry]
  | cons e l ih =>
    by_cases he : e.1 = k
    · simp [findEntry, he]
    · have hk : k ≠ e.1 := fun hc => he hc.symm
      simp only [findEntry, he, if_false, ih, List.map_cons, List.mem_cons, hk, false_or]

theorem findEntry_filter (p : κ → Bool) (k : κ) (l : List (κ × α)) :
    findEntry k (l.filter fun e => p e.1) = if p k then findEntry k l else none := by
  induction l with
  | nil => simp [findEntry]
  | cons e l ih =>
    by_cases hp : p e.1 = true
    · by_cases he : e.1 = k
      · simp [findEntry, he ▸ hp, he]
      · simp [findEntry, hp, he, ih]
    · by_cases he : e.1 = k
      · rw [he] at hp
        simp [he, hp, ih]
      · simp [findEntry, hp, he, ih]

theorem putEntry_of_mem {k : κ} {l : List (κ × α)} (h : (l.map Prod.fst).Nodup)
    (hk : k ∈ l.map Prod.fst) (v : α) :
    putEntry k v l = l.map fun e => if e.1 = k then (k, v) else e := by
  induction l with
  | nil => cases hk
  | cons e l ih =>
    rw [List.map_cons, List.nodup_cons] at h
    by_cases he : e.1 = k
    · have hrest : l.map (fun e => if e.1 = k then (k, v) else e) = l := by
        refine (List.map_congr_left fun other hmem => ?_).trans l.map_id
        have hne : other.1 ≠ k := fun hc => h.1 (he ▸ hc ▸ List.mem_map_of_mem hmem)
        rw [if_neg hne, id]
      rw [putEntry, if_pos he, List.map_cons, if_pos he, hrest]
    · have hmem : k ∈ l.map Prod.fst := by
        rcases List.mem_cons.1 hk with hc | hc
        · exact absurd hc.symm he
        · exact hc
      rw [putEntry, if_neg he, List.map_cons, if_neg he, ih h.2 hmem]

theorem putEntry_of_not_mem {k : κ} {l : List (κ × α)} (hk : k ∉ l.map Prod.fst) (v : α) :
    putEntry k v l = l ++ [(k, v)] := by
  induction l with
  | nil => rfl
  | cons e l ih =>
    rw [List.map_cons, List.mem_cons, not_or] at hk
    rw [putEntry, if_neg (Ne.symm hk.1), ih hk.2, List.cons_append]

/-! ## The operations -/

def empty : OrderedMap κ α := ⟨[], List.nodup_nil⟩

instance : Inhabited (OrderedMap κ α) := ⟨empty⟩

def get? (m : OrderedMap κ α) (k : κ) : Option α := findEntry k m.entries

def has (m : OrderedMap κ α) (k : κ) : Bool := (m.get? k).isSome

def set (m : OrderedMap κ α) (k : κ) (v : α) : OrderedMap κ α :=
  ⟨putEntry k v m.entries, nodup_putEntry k v m.nodup⟩

/-- Keep the entries whose key passes a test. -/
def filterKeys (m : OrderedMap κ α) (p : κ → Bool) : OrderedMap κ α :=
  ⟨m.entries.filter fun e => p e.1,
    m.nodup.sublist ((List.filter_sublist).map Prod.fst)⟩

/-- Keep the entries that pass a test. -/
def filterEntries (m : OrderedMap κ α) (p : κ → α → Bool) : OrderedMap κ α :=
  ⟨m.entries.filter fun e => p e.1 e.2,
    m.nodup.sublist ((List.filter_sublist).map Prod.fst)⟩

def delete (m : OrderedMap κ α) (k : κ) : OrderedMap κ α := m.filterKeys fun j => j ≠ k

def keys (m : OrderedMap κ α) : List κ := m.entries.map Prod.fst

def values (m : OrderedMap κ α) : List α := m.entries.map Prod.snd

omit [DecidableEq κ] in
@[ext] theorem ext {m n : OrderedMap κ α} (h : m.entries = n.entries) : m = n := by
  cases m; cases n; cases h; rfl

omit [DecidableEq κ] in
@[simp] theorem entries_empty : (empty : OrderedMap κ α).entries = [] := rfl

@[simp] theorem get?_empty (k : κ) : (empty : OrderedMap κ α).get? k = none := rfl

theorem get?_set (m : OrderedMap κ α) (k j : κ) (v : α) :
    (m.set k v).get? j = if k = j then some v else m.get? j :=
  findEntry_putEntry k j v m.entries

@[simp] theorem get?_set_self (m : OrderedMap κ α) (k : κ) (v : α) :
    (m.set k v).get? k = some v := by
  rw [get?_set, if_pos rfl]

theorem get?_set_of_ne (m : OrderedMap κ α) {k j : κ} (h : k ≠ j) (v : α) :
    (m.set k v).get? j = m.get? j := by
  rw [get?_set, if_neg h]

theorem get?_filterKeys (m : OrderedMap κ α) (p : κ → Bool) (k : κ) :
    (m.filterKeys p).get? k = if p k then m.get? k else none :=
  findEntry_filter p k m.entries

theorem get?_delete (m : OrderedMap κ α) (k j : κ) :
    (m.delete k).get? j = if k = j then none else m.get? j := by
  rw [delete, get?_filterKeys]
  by_cases h : k = j
  · simp [h]
  · have hj : j ≠ k := fun hc => h hc.symm
    simp [h, hj]

theorem get?_eq_some_iff {m : OrderedMap κ α} {k : κ} {v : α} :
    m.get? k = some v ↔ (k, v) ∈ m.entries :=
  findEntry_eq_some_iff m.nodup

theorem get?_filterEntries (m : OrderedMap κ α) (p : κ → α → Bool) (k : κ) :
    (m.filterEntries p).get? k = (m.get? k).filter (p k) := by
  ext v
  rw [Option.filter_eq_some_iff, get?_eq_some_iff, get?_eq_some_iff]
  unfold filterEntries
  rw [List.mem_filter]

theorem get?_eq_none_iff {m : OrderedMap κ α} {k : κ} : m.get? k = none ↔ k ∉ m.keys :=
  findEntry_eq_none_iff

theorem has_iff {m : OrderedMap κ α} {k : κ} : m.has k = true ↔ ∃ v, m.get? k = some v := by
  rw [has, Option.isSome_iff_exists]

/-- Overwriting a present key leaves the order of the keys alone. -/
theorem keys_set (m : OrderedMap κ α) (k : κ) (v : α) :
    (m.set k v).keys = if k ∈ m.keys then m.keys else m.keys ++ [k] :=
  keys_putEntry k v m.entries

/-- Overwriting a present key changes its entry where it stands. -/
theorem entries_set_of_mem {m : OrderedMap κ α} {k : κ} (h : k ∈ m.keys) (v : α) :
    (m.set k v).entries = m.entries.map fun e => if e.1 = k then (k, v) else e :=
  putEntry_of_mem m.nodup h v

/-- A new key comes last. -/
theorem entries_set_of_not_mem {m : OrderedMap κ α} {k : κ} (h : k ∉ m.keys) (v : α) :
    (m.set k v).entries = m.entries ++ [(k, v)] :=
  putEntry_of_not_mem h v

theorem length_set_of_get?_eq_none {m : OrderedMap κ α} {k : κ} (h : m.get? k = none) (v : α) :
    (m.set k v).entries.length = m.entries.length + 1 := by
  rw [entries_set_of_not_mem (get?_eq_none_iff.1 h), List.length_append]
  rfl

theorem length_set_of_get?_eq_some {m : OrderedMap κ α} {k : κ} {u : α} (h : m.get? k = some u)
    (v : α) : (m.set k v).entries.length = m.entries.length := by
  rw [entries_set_of_mem (List.mem_map_of_mem (get?_eq_some_iff.1 h)), List.length_map]

theorem length_delete_of_get?_eq_some {m : OrderedMap κ α} {k : κ} {v : α}
    (h : m.get? k = some v) : (m.delete k).entries.length + 1 = m.entries.length := by
  have hkey : k ∈ m.entries.map Prod.fst := List.mem_map_of_mem (get?_eq_some_iff.1 h)
  have hkeys : (m.delete k).entries.map Prod.fst = (m.entries.map Prod.fst).erase k := by
    rw [m.nodup.erase_eq_filter, List.filter_map]
    refine congrArg (List.map Prod.fst) (List.filter_congr fun e _ => ?_)
    by_cases he : e.1 = k <;> simp [he]
  have hlength := congrArg List.length hkeys
  rw [List.length_map, List.length_erase_of_mem hkey, List.length_map] at hlength
  have hpos := List.length_pos_of_mem (get?_eq_some_iff.1 h)
  omega

/-- Deleting an absent key does nothing. -/
theorem delete_of_get?_eq_none {m : OrderedMap κ α} {k : κ} (h : m.get? k = none) :
    m.delete k = m := by
  ext1
  refine List.filter_eq_self.2 fun e he => ?_
  have hne : e.1 ≠ k := by
    rintro rfl
    exact get?_eq_none_iff.1 h (List.mem_map_of_mem he)
  simp [hne]

/-- Looking up the keys in order gives the values in order. -/
theorem filterMap_get?_keys (m : OrderedMap κ α) : m.keys.filterMap m.get? = m.values := by
  unfold keys values
  rw [List.filterMap_map, ← List.filterMap_eq_map]
  exact List.filterMap_congr fun e he => get?_eq_some_iff.2 he

theorem mem_values {m : OrderedMap κ α} {v : α} : v ∈ m.values ↔ ∃ k, m.get? k = some v := by
  simp only [values, List.mem_map, get?_eq_some_iff, Prod.exists, exists_eq_right]

/-- A value that tells its own key is found by it. -/
theorem find?_values {m : OrderedMap κ α} {keyOf : α → κ}
    (h : ∀ k v, m.get? k = some v → keyOf v = k) (k : κ) :
    m.values.find? (fun v => keyOf v = k) = m.get? k := by
  cases hfind : m.values.find? (fun v => keyOf v = k) with
  | none =>
    cases hget : m.get? k with
    | none => rfl
    | some v =>
      have hmem : v ∈ m.values := mem_values.2 ⟨k, hget⟩
      have hne := List.find?_eq_none.1 hfind v hmem
      rw [decide_eq_true_eq] at hne
      exact absurd (h k v hget) hne
  | some u =>
    have hkey := List.find?_some hfind
    rw [decide_eq_true_eq] at hkey
    obtain ⟨j, hget⟩ := mem_values.1 (List.mem_of_find?_eq_some hfind)
    rw [← hkey, h j u hget, hget]

/-- A new key's value comes last. -/
theorem values_set_of_get?_eq_none {m : OrderedMap κ α} {k : κ} (h : m.get? k = none) (v : α) :
    (m.set k v).values = m.values ++ [v] := by
  unfold values
  rw [entries_set_of_not_mem (get?_eq_none_iff.1 h), List.map_append]
  rfl

/-- Values that are told apart by what is read off them are read off only once. -/
theorem nodup_map_values {β : Type} {m : OrderedMap κ α} {f : α → β}
    (h : ∀ k j v w, m.get? k = some v → m.get? j = some w → f v = f w → k = j) :
    (m.values.map f).Nodup := by
  rw [values, List.map_map]
  refine (List.Nodup.of_map _ m.nodup).map_on fun e he e' he' heq => ?_
  have hk := h _ _ _ _ (get?_eq_some_iff.2 he) (get?_eq_some_iff.2 he') heq
  have hv := get?_eq_some_iff.2 he
  rw [hk, get?_eq_some_iff.2 he', Option.some.injEq] at hv
  exact Prod.ext hk hv.symm

/-! ## Many writes -/

section Writes

variable {β : Type} {key : β → κ} {value : β → α}

theorem get?_foldl_set_of_not_mem {m : OrderedMap κ α} {k : κ} {l : List β}
    (h : k ∉ l.map key) : (l.foldl (fun m x => m.set (key x) (value x)) m).get? k = m.get? k := by
  induction l generalizing m with
  | nil => rfl
  | cons x l ih =>
    rw [List.map_cons, List.mem_cons, not_or] at h
    rw [List.foldl_cons, ih h.2, get?_set_of_ne _ (Ne.symm h.1)]

/-- Writes under different keys do not disturb each other. -/
theorem get?_foldl_set_of_mem {m : OrderedMap κ α} {x : β} {l : List β}
    (h : (l.map key).Nodup) (hx : x ∈ l) :
    (l.foldl (fun m x => m.set (key x) (value x)) m).get? (key x) = some (value x) := by
  induction l generalizing m with
  | nil => cases hx
  | cons y l ih =>
    rw [List.map_cons, List.nodup_cons] at h
    rw [List.foldl_cons]
    rcases List.mem_cons.1 hx with rfl | hx
    · rw [get?_foldl_set_of_not_mem h.1, get?_set_self]
    · exact ih h.2 hx

theorem get?_filterKeys_eq_some {m : OrderedMap κ α} {p : κ → Bool} {k : κ} {v : α} :
    (m.filterKeys p).get? k = some v ↔ p k = true ∧ m.get? k = some v := by
  rw [get?_filterKeys]
  split <;> simp_all

/-- What a map holds after many writes is one of them or was there before. -/
theorem get?_foldl_set {m : OrderedMap κ α} {k : κ} {v : α} {l : List β}
    (h : (l.foldl (fun m x => m.set (key x) (value x)) m).get? k = some v) :
    (∃ x ∈ l, key x = k ∧ value x = v) ∨ (k ∉ l.map key ∧ m.get? k = some v) := by
  induction l generalizing m with
  | nil => exact Or.inr ⟨by simp, h⟩
  | cons x l ih =>
    rw [List.foldl_cons] at h
    rcases ih h with ⟨y, hy, hk⟩ | ⟨hk, hv⟩
    · exact Or.inl ⟨y, List.mem_cons_of_mem _ hy, hk⟩
    · by_cases hx : key x = k
      · subst hx
        rw [get?_set_self, Option.some.injEq] at hv
        exact Or.inl ⟨x, List.mem_cons_self .., rfl, hv⟩
      · rw [get?_set_of_ne _ hx] at hv
        rw [List.map_cons, List.mem_cons, not_or]
        exact Or.inr ⟨⟨Ne.symm hx, hk⟩, hv⟩

theorem mem_keys_foldl_set {m : OrderedMap κ α} {k : κ} {l : List β}
    (h : k ∈ m.keys ∨ k ∈ l.map key) :
    k ∈ (l.foldl (fun m x => m.set (key x) (value x)) m).keys := by
  induction l generalizing m with
  | nil => exact h.resolve_right (by simp)
  | cons x l ih =>
    rw [List.foldl_cons]
    refine ih ?_
    rw [keys_set]
    rw [List.map_cons, List.mem_cons] at h
    by_cases hx : key x ∈ m.keys
    · rw [if_pos hx]
      rcases h with h | rfl | h
      · exact Or.inl h
      · exact Or.inl hx
      · exact Or.inr h
    · rw [if_neg hx, List.mem_append, List.mem_singleton]
      rcases h with h | h | h
      · exact Or.inl (Or.inl h)
      · exact Or.inl (Or.inr h)
      · exact Or.inr h

end Writes

/-- The values that satisfy `P` are replaced, each by one that `Q` allows, and the others
stay. -/
def Rewrites (P : α → Prop) (Q : α → α → Prop) (m m' : OrderedMap κ α) : Prop :=
  ∀ k, (m.get? k = none → m'.get? k = none) ∧
    ∀ v, m.get? k = some v →
      (P v ∧ ∃ w, Q v w ∧ m'.get? k = some w) ∨ (¬ P v ∧ m'.get? k = some v)

/-- What is there after a rewrite was there before or replaces what was. -/
theorem Rewrites.of_get? {P : α → Prop} {Q : α → α → Prop} {m m' : OrderedMap κ α}
    (h : Rewrites P Q m m') {k : κ} {w : α} (hw : m'.get? k = some w) :
    ∃ v, m.get? k = some v ∧ ((P v ∧ Q v w) ∨ (¬ P v ∧ w = v)) := by
  cases hv : m.get? k with
  | none =>
    rw [(h k).1 hv] at hw
    cases hw
  | some v =>
    refine ⟨v, rfl, ?_⟩
    rcases (h k).2 v hv with ⟨hP, w', hQ, hw'⟩ | ⟨hP, hw'⟩
    · rw [hw, Option.some.injEq] at hw'
      exact Or.inl ⟨hP, hw' ▸ hQ⟩
    · rw [hw, Option.some.injEq] at hw'
      exact Or.inr ⟨hP, hw'⟩

/-- Writing back a list of replaced values, each under its own key. -/
theorem rewrites_foldl_set {m : OrderedMap κ α} {key : α → κ} {p : α → Bool}
    {Q : α → α → Prop} {updates : List α} (hkeyed : ∀ k v, m.get? k = some v → key v = k)
    (h : List.Forall₂ Q (m.values.filter p) updates) (hQ : ∀ v w, Q v w → key w = key v) :
    Rewrites (fun v => p v = true) Q m (updates.foldl (fun m w => m.set (key w) w) m) := by
  have hkeys : updates.map key = (m.values.filter p).map key := by
    generalize m.values.filter p = l at h
    induction h with
    | nil => rfl
    | cons hvw _ ih => rw [List.map_cons, List.map_cons, hQ _ _ hvw, ih]
  have hnodup : (updates.map key).Nodup := by
    rw [hkeys]
    refine (nodup_map_values fun k j v w hv hw heq => ?_).sublist (List.filter_sublist.map key)
    rw [← hkeyed k v hv, ← hkeyed j w hw, heq]
  have hmem : ∀ k, k ∈ updates.map key ↔ ∃ v, m.get? k = some v ∧ p v = true := by
    intro k
    simp only [hkeys, List.mem_map, List.mem_filter, mem_values]
    constructor
    · rintro ⟨v, ⟨⟨j, hv⟩, hp⟩, rfl⟩
      exact ⟨v, hkeyed j v hv ▸ hv, hp⟩
    · rintro ⟨v, hv, hp⟩
      exact ⟨v, ⟨⟨k, hv⟩, hp⟩, hkeyed k v hv⟩
  intro k
  refine ⟨fun hnone => ?_, fun v hv => ?_⟩
  · rw [get?_foldl_set_of_not_mem, hnone]
    rw [hmem]
    rintro ⟨v, hv, -⟩
    rw [hnone] at hv
    cases hv
  · by_cases hp : p v = true
    · have hin : v ∈ m.values.filter p := List.mem_filter.2 ⟨mem_values.2 ⟨k, hv⟩, hp⟩
      have hpair : ∃ w ∈ updates, Q v w := by
        clear hkeys hnodup hmem
        generalize m.values.filter p = l at h hin
        induction h with
        | nil => cases hin
        | cons hvw _ ih =>
          rcases List.mem_cons.1 hin with rfl | hin
          · exact ⟨_, List.mem_cons_self .., hvw⟩
          · obtain ⟨w, hw, hQw⟩ := ih hin
            exact ⟨w, List.mem_cons_of_mem _ hw, hQw⟩
      obtain ⟨w, hw, hQw⟩ := hpair
      have hget : (updates.foldl (fun m w => m.set (key w) w) m).get? (key w) = some w :=
        get?_foldl_set_of_mem hnodup hw
      rw [hQ v w hQw, hkeyed k v hv] at hget
      exact Or.inl ⟨hp, w, hQw, hget⟩
    · refine Or.inr ⟨hp, ?_⟩
      rw [get?_foldl_set_of_not_mem, hv]
      rw [hmem]
      rintro ⟨w, hw, hpw⟩
      rw [hv, Option.some.injEq] at hw
      exact hp (hw ▸ hpw)

/-! ## Writes where the entries stand -/

/-- Change every value where it stands. -/
def mapEntries (m : OrderedMap κ α) (f : κ → α → α) : OrderedMap κ α :=
  ⟨m.entries.map fun e => (e.1, f e.1 e.2), by
    rw [List.map_map]
    exact m.nodup⟩

omit [DecidableEq κ] in
@[simp] theorem entries_mapEntries (m : OrderedMap κ α) (f : κ → α → α) :
    (m.mapEntries f).entries = m.entries.map fun e => (e.1, f e.1 e.2) := rfl

theorem get?_mapEntries (m : OrderedMap κ α) (f : κ → α → α) (k : κ) :
    (m.mapEntries f).get? k = (m.get? k).map (f k) := by
  have hentries : ∀ l : List (κ × α),
      findEntry k (l.map fun e => (e.1, f e.1 e.2)) = (findEntry k l).map (f k) := by
    intro l
    induction l with
    | nil => rfl
    | cons e l ih =>
      by_cases he : e.1 = k
      · simp [findEntry, he]
      · simp [findEntry, he, ih]
  exact hentries m.entries

omit [DecidableEq κ] in
theorem values_mapEntries (m : OrderedMap κ α) (f : κ → α → α) :
    (m.mapEntries f).values = m.entries.map fun e => f e.1 e.2 := by
  unfold values
  rw [entries_mapEntries, List.map_map]
  rfl

theorem mem_values_mapEntries {m : OrderedMap κ α} {f : κ → α → α} {w : α} :
    w ∈ (m.mapEntries f).values ↔ ∃ k v, m.get? k = some v ∧ f k v = w := by
  simp only [mem_values, get?_mapEntries, Option.map_eq_some_iff]

theorem mem_values_filterKeys {m : OrderedMap κ α} {p : κ → Bool} {w : α} :
    w ∈ (m.filterKeys p).values ↔ ∃ k, p k = true ∧ m.get? k = some w := by
  simp only [mem_values, get?_filterKeys_eq_some]

/-- Writing entries back, each changed, changes them where they stand. -/
theorem foldl_set_eq_mapEntries {m : OrderedMap κ α} {l : List (κ × α)} (f : α → α)
    (hmem : ∀ e ∈ l, e ∈ m.entries) (hnodup : (l.map Prod.fst).Nodup) :
    l.foldl (fun m e => m.set e.1 (f e.2)) m =
      m.mapEntries fun k v => if k ∈ l.map Prod.fst then f v else v := by
  induction l generalizing m with
  | nil => ext1; simp
  | cons e l ih =>
    rw [List.map_cons, List.nodup_cons] at hnodup
    have he : e ∈ m.entries := hmem e (List.mem_cons_self ..)
    have hkey : e.1 ∈ m.keys := List.mem_map_of_mem he
    have hvalue : ∀ e' ∈ m.entries, e'.1 = e.1 → e' = e := fun e' he' hk => by
      have hv := get?_eq_some_iff.2 he
      rw [← hk, get?_eq_some_iff.2 he', Option.some.injEq] at hv
      exact Prod.ext hk hv
    have hrest : ∀ e' ∈ l, e' ∈ (m.set e.1 (f e.2)).entries := by
      intro e' he'
      have hne : e'.1 ≠ e.1 := fun hk => hnodup.1 (hk ▸ List.mem_map_of_mem he')
      rw [entries_set_of_mem hkey, List.mem_map]
      exact ⟨e', hmem e' (List.mem_cons_of_mem _ he'), by rw [if_neg hne]⟩
    rw [List.foldl_cons, ih hrest hnodup.2]
    ext1
    rw [entries_mapEntries, entries_set_of_mem hkey, entries_mapEntries, List.map_map]
    refine List.map_congr_left fun e' he' => ?_
    by_cases hk : e'.1 = e.1
    · obtain rfl := hvalue e' he' hk
      simp [hnodup.1]
    · simp only [Function.comp_apply, List.map_cons, List.mem_cons, hk, if_false, false_or]

/-- Overwriting what was just written. -/
theorem set_set (m : OrderedMap κ α) (k : κ) (v w : α) : (m.set k v).set k w = m.set k w := by
  have hput : ∀ l : List (κ × α), putEntry k w (putEntry k v l) = putEntry k w l := by
    intro l
    induction l with
    | nil => simp [putEntry]
    | cons e l ih =>
      unfold putEntry
      by_cases hk : e.1 = k
      · simp [hk, putEntry]
      · simp [hk, putEntry, ih]
  ext1
  exact hput m.entries

/-- Overwriting a present key is a change where it stands. -/
theorem set_eq_mapEntries {m : OrderedMap κ α} {k : κ} {v : α} (h : m.get? k = some v) (w : α) :
    m.set k w = m.mapEntries fun j u => if j = k then w else u := by
  ext1
  rw [entries_set_of_mem (List.mem_map_of_mem (get?_eq_some_iff.1 h)), entries_mapEntries]
  refine List.map_congr_left fun e _ => ?_
  by_cases he : e.1 = k <;> simp [he]

omit [DecidableEq κ] in
theorem mapEntries_congr {m : OrderedMap κ α} {f g : κ → α → α}
    (h : ∀ e ∈ m.entries, f e.1 e.2 = g e.1 e.2) : m.mapEntries f = m.mapEntries g := by
  ext1
  exact List.map_congr_left fun e he => Prod.ext rfl (h e he)

/-- Some entries of a map are told apart from its others by their keys. -/
theorem mem_map_fst_iff {m : OrderedMap κ α} {l : List (κ × α)}
    (hmem : ∀ e ∈ l, e ∈ m.entries) {e : κ × α} (he : e ∈ m.entries) :
    e.1 ∈ l.map Prod.fst ↔ e ∈ l := by
  refine ⟨fun h => ?_, List.mem_map_of_mem⟩
  obtain ⟨e', he', hk⟩ := List.mem_map.1 h
  have hv := get?_eq_some_iff.2 he
  rw [← hk, get?_eq_some_iff.2 (hmem e' he'), Option.some.injEq] at hv
  exact (Prod.ext hk hv : e' = e) ▸ he'

/-- Deleting keys one after the other keeps the other entries. -/
theorem foldl_delete_eq_filterKeys (m : OrderedMap κ α) (ks : List κ) :
    ks.foldl delete m = m.filterKeys fun k => k ∉ ks := by
  induction ks generalizing m with
  | nil => ext1; simp [filterKeys]
  | cons k ks ih =>
    rw [List.foldl_cons, ih]
    ext1
    simp only [delete, filterKeys, List.filter_filter, List.mem_cons, not_or]
    congr 1
    funext e
    by_cases hk : e.1 = k <;> simp [hk]

/-! ## Part of a map -/

/-- Every entry of `m` is an entry of `n`. -/
def Sub (m n : OrderedMap κ α) : Prop := ∀ k v, m.get? k = some v → n.get? k = some v

theorem sub_empty (n : OrderedMap κ α) : (empty : OrderedMap κ α).Sub n := nofun

/-- Writing the same entry on both sides keeps one map part of the other. -/
theorem Sub.set {m n : OrderedMap κ α} (h : m.Sub n) (k : κ) (v : α) :
    (m.set k v).Sub (n.set k v) := by
  intro j w hj
  rw [get?_set] at hj ⊢
  split
  · rename_i hk
    rwa [if_pos hk] at hj
  · rename_i hk
    rw [if_neg hk] at hj
    exact h j w hj

theorem Sub.has {m n : OrderedMap κ α} (h : m.Sub n) {k : κ} (hn : n.has k = false) :
    m.has k = false := by
  rw [Bool.eq_false_iff] at hn ⊢
  intro hm
  obtain ⟨v, hv⟩ := has_iff.1 hm
  exact hn (has_iff.2 ⟨v, h k v hv⟩)

end OrderedMap

end OpenGameAgent
