import OpenGameAgent.Protocol.Fingerprints

/-!
# The members of a JSON record

A record is compared with another through its canonical text.  `JsonValue.member` reads a
member by its key, and values that are the same up to the order of keys have the same
members, so a record can be taken apart without looking at the order of its fields.

* `SameValue.member` — the members of values that are the same.
* `member_record_cons` — the members of a record, field by field.
-/

namespace OpenGameAgent

namespace JsonValue

/-- The member of an object with a key. -/
def member (key : String) : JsonValue → Option JsonValue
  | .object fields => (fields.find? fun field => field.1 = utf16 key).map Prod.snd
  | _ => none

theorem utf16_eq_iff {a b : String} : utf16 a = utf16 b ↔ a = b :=
  ⟨utf16_injective, fun h => h ▸ rfl⟩

@[simp] theorem member_record_some (key name : String) (value : JsonValue)
    (rest : List (String × Option JsonValue)) :
    (record ((name, some value) :: rest)).member key =
      if name = key then some value else (record rest).member key := by
  by_cases h : name = key
  · subst h
    simp [record, member]
  · have hne : utf16 name ≠ utf16 key := fun hc => h (utf16_injective hc)
    simp [record, member, h, hne]

@[simp] theorem member_record_none (key name : String)
    (rest : List (String × Option JsonValue)) :
    (record ((name, none) :: rest)).member key = (record rest).member key := by
  simp [record]

/-- A record has no members but those of its fields. -/
theorem member_record_of_not_mem {key : String} {fields : List (String × Option JsonValue)}
    (h : key ∉ fields.map Prod.fst) : (record fields).member key = none := by
  induction fields with
  | nil => rfl
  | cons field rest ih =>
    obtain ⟨name, value⟩ := field
    rw [List.map_cons, List.mem_cons, not_or] at h
    cases value with
    | none => rw [member_record_none, ih h.2]
    | some value => rw [member_record_some, if_neg (Ne.symm h.1), ih h.2]

/-- A field that may be absent. -/
theorem member_record_cons (key name : String) (value : Option JsonValue)
    (rest : List (String × Option JsonValue)) (h : name ∉ rest.map Prod.fst) :
    (record ((name, value) :: rest)).member key =
      if name = key then value else (record rest).member key := by
  cases value with
  | some value => rw [member_record_some]
  | none =>
    rw [member_record_none]
    by_cases hname : name = key
    · rw [if_pos hname, ← hname, member_record_of_not_mem h]
    · rw [if_neg hname]

/-- An object holds a member under a key. -/
theorem member_eq_some_iff {fields : List (List UInt16 × JsonValue)}
    (h : (fields.map Prod.fst).Nodup) {key : String} {value : JsonValue} :
    (object fields).member key = some value ↔ (utf16 key, value) ∈ fields := by
  unfold member
  rw [Option.map_eq_some_iff]
  constructor
  · rintro ⟨field, hfind, rfl⟩
    have hmem := List.mem_of_find?_eq_some hfind
    have hkey := List.find?_some hfind
    rw [decide_eq_true_eq] at hkey
    rw [← hkey]
    exact hmem
  · intro hmem
    obtain ⟨field, hfind⟩ : ∃ field, fields.find? (fun field => field.1 = utf16 key) = some field := by
      rw [← Option.isSome_iff_exists, List.find?_isSome]
      exact ⟨_, hmem, decide_eq_true rfl⟩
    have hkey := List.find?_some hfind
    rw [decide_eq_true_eq] at hkey
    have heq := eq_of_same_key h (List.mem_of_find?_eq_some hfind) hmem hkey
    exact ⟨field, hfind, by rw [heq]⟩

/-- Values that are the same up to the order of keys have the same members. -/
theorem SameValue.member {N : NumberTexts} {a b : JsonValue} (ha : a.WellFormed N)
    (hb : b.WellFormed N) (h : a.SameValue b) (key : String) :
    Option.Rel SameValue (a.member key) (b.member key) := by
  cases a with
  | object as =>
    cases b with
    | object bs =>
      obtain ⟨hakeys, -⟩ := wellFormed_object.1 ha
      obtain ⟨hbkeys, -⟩ := wellFormed_object.1 hb
      obtain ⟨hlen, hmembers⟩ := h
      rw [sameMembers_iff] at hmembers
      have hkeys : as.map Prod.fst ⊆ bs.map Prod.fst := by
        intro k hk
        obtain ⟨field, hmem, rfl⟩ := List.mem_map.1 hk
        obtain ⟨value, hvalue, -⟩ := hmembers field hmem
        exact List.mem_map.2 ⟨_, hvalue, rfl⟩
      have hback : bs.map Prod.fst ⊆ as.map Prod.fst := by
        have hperm := List.Nodup.subperm hakeys hkeys
        exact (hperm.perm_of_length_le (by simp [hlen])).symm.subset
      cases hmember : (object as).member key with
      | some value =>
        rw [member_eq_some_iff hakeys] at hmember
        obtain ⟨other, hother, hsame⟩ := hmembers _ hmember
        rw [(member_eq_some_iff hbkeys).2 hother]
        exact .some hsame
      | none =>
        cases hother : (object bs).member key with
        | none => exact .none
        | some other =>
          exfalso
          rw [member_eq_some_iff hbkeys] at hother
          have hk := hback (List.mem_map.2 ⟨_, hother, rfl⟩)
          obtain ⟨field, hmem, hfield⟩ := List.mem_map.1 hk
          have hfound : (object as).member key = some field.2 := by
            rw [member_eq_some_iff hakeys, show utf16 key = field.1 from hfield.symm]
            exact hmem
          rw [hmember] at hfound
          cases hfound
    | _ => exact h.elim
  | _ =>
    cases b with
    | object bs => exact h.elim
    | _ => exact .none

@[simp] theorem sameValue_text {a b : String} : (text a).SameValue (text b) ↔ a = b :=
  utf16_eq_iff

@[simp] theorem rel_some {R : JsonValue → JsonValue → Prop} {a b : JsonValue} :
    Option.Rel R (some a) (some b) ↔ R a b :=
  ⟨fun h => by cases h; assumption, .some⟩

/-- Optional texts that are written alike are the same. -/
theorem rel_text {a b : Option String} (h : Option.Rel SameValue (a.map text) (b.map text)) :
    a = b := by
  cases a <;> cases b
  · rfl
  · cases h
  · cases h
  · exact congrArg some (sameValue_text.1 (rel_some.1 h))

@[simp] theorem wellFormed_text (N : NumberTexts) (s : String) : (text s).WellFormed N := trivial

/-- A record whose keys are distinct and whose members are well-formed. -/
theorem wellFormed_record {N : NumberTexts} {fields : List (String × Option JsonValue)}
    (hkeys : (fields.map Prod.fst).Nodup)
    (hmembers : ∀ field ∈ fields, ∀ value, field.2 = some value → value.WellFormed N) :
    (record fields).WellFormed N := by
  unfold record
  rw [wellFormed_object]
  constructor
  · have hsub : ((fields.filterMap fun field =>
        field.2.map fun value => (utf16 field.1, value)).map Prod.fst).Sublist
          ((fields.map Prod.fst).map utf16) := by
      clear hkeys hmembers
      induction fields with
      | nil => exact .slnil
      | cons field rest ih =>
        obtain ⟨name, value⟩ := field
        cases value with
        | none => exact ih.cons _
        | some value => exact ih.cons_cons _
    exact hsub.nodup (hkeys.map fun a b => utf16_injective)
  · intro field hmem
    obtain ⟨source, hsource, hvalue⟩ := List.mem_filterMap.1 hmem
    obtain ⟨value, hsome, rfl⟩ := Option.map_eq_some_iff.1 hvalue
    exact hmembers source hsource value hsome

end JsonValue

end OpenGameAgent
