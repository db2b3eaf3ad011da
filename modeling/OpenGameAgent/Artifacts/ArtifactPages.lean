import OpenGameAgent.Artifacts.ArtifactService

/-!
# Reading an artifact page by page

When the read Tool is asked for a page where a character begins, the page it answers is a run of
whole characters (`pageOf`), and its size is a sum over them (`jsonBytes_result`).  So a page can be
answered exactly when the page of its first character alone can be (`exists_fit`), and the reader
comes through the whole text exactly when that holds of every character (`artifact_reads_back_iff`).
The constructor tries one character of four bytes; a control character takes six.
-/

namespace OpenGameAgent.Artifacts

/-! ## Sizes -/

/-- The decimal digits of a number. -/
def digits (n : ℕ) : ℕ := n.repr.length

theorem digits_pos (n : ℕ) : 0 < digits n := Nat.length_repr_pos

theorem digits_mono {m n : ℕ} (h : m ≤ n) : digits m ≤ digits n :=
  (Nat.length_repr_le_iff (digits_pos n)).mpr
    (lt_of_le_of_lt h ((Nat.length_repr_le_iff (digits_pos n)).mp (le_refl _)))

theorem digits_of_lt {n : ℕ} (h : n < 10) : digits n = 1 :=
  le_antisymm ((Nat.length_repr_le_iff Nat.one_pos).mpr (by simpa using h)) (digits_pos n)

/-- Counting further takes at most one more digit each time. -/
theorem digits_add_le (n k : ℕ) : digits (n + k) ≤ digits n + k := by
  have hpos := digits_pos n
  have hlt : n < 10 ^ digits n := (Nat.length_repr_le_iff hpos).mp (le_refl _)
  refine (Nat.length_repr_le_iff (by omega)).mpr ?_
  have hk : k < 10 ^ k := Nat.lt_pow_self (by decide)
  have hmul : (n + 1) * (k + 1) ≤ 10 ^ digits n * 10 ^ k := Nat.mul_le_mul hlt hk
  rw [Nat.pow_add]
  calc n + k < (n + 1) * (k + 1) := by
        rw [Nat.add_mul, Nat.mul_add]
        omega
    _ ≤ 10 ^ digits n * 10 ^ k := hmul

theorem canonicalBytes_nat (n : ℕ) : canonicalBytes (.int n) = digits n := by
  have hascii : ∀ c ∈ n.repr.toList, c.utf8Size = 1 := by
    intro c hc
    rw [Nat.toList_repr] at hc
    have hdigit := Nat.isDigit_of_mem_toDigits (by decide) (by decide) hc
    simp only [Char.isDigit, Bool.and_eq_true, decide_eq_true_eq, UInt32.le_iff_toNat_le] at hdigit
    have hval : c.val.toNat = c.toNat := rfl
    rw [hval] at hdigit
    exact utf8Size_of_lt (le_trans hdigit.2 (by decide))
  show utf8Length (utf16 n.repr) = n.repr.length
  rw [utf8Length_utf16, ← String.length_toList, utf8Size, List.map_congr_left hascii]
  simp

/-- The bytes of `{ status: "ok", ...page }`: the names and brackets, and what they hold. -/
def ArtifactPage.bytes (page : ArtifactPage) : ℕ :=
  106 + jsonCharsBytes page.artifactId.toList + jsonCharsBytes page.contentType.toList +
    jsonCharsBytes page.content.toList + digits page.offsetBytes + digits page.contentBytes +
    digits page.totalBytes +
    match page.nextOffsetBytes with
    | none => 0
    | some next => 19 + digits next

theorem canonicalBytes_text (s : String) :
    canonicalBytes (.text s) = 2 + jsonCharsBytes s.toList := jsonStringBytes_utf16 s

theorem jsonBytes_result (page : ArtifactPage) : jsonBytes page.result = page.bytes := by
  have hkeys : jsonStringBytes (utf16 "status") = 8 ∧ jsonStringBytes (utf16 "artifactId") = 12 ∧
      jsonStringBytes (utf16 "contentType") = 13 ∧ jsonStringBytes (utf16 "offsetBytes") = 13 ∧
      jsonStringBytes (utf16 "content") = 9 ∧ jsonStringBytes (utf16 "contentBytes") = 14 ∧
      jsonStringBytes (utf16 "totalBytes") = 12 ∧ jsonStringBytes (utf16 "nextOffsetBytes") = 17 ∧
      canonicalBytes (.text "ok") = 4 := by
    decide +kernel
  obtain ⟨h1, h2, h3, h4, h5, h6, h7, h8, h9⟩ := hkeys
  rw [jsonBytes_eq_canonicalBytes]
  cases hnext : page.nextOffsetBytes with
  | none =>
    simp only [ArtifactPage.result, ArtifactPage.bytes, JsonValue.record, List.filterMap_cons,
      List.filterMap_nil, Option.map_some, Option.map_none, hnext, canonicalBytes, fieldsBytes, h1,
      h2, h3, h4, h5, h6, h7, h9, canonicalBytes_text, canonicalBytes_nat, List.length_cons,
      List.length_nil]
    omega
  | some next =>
    simp only [ArtifactPage.result, ArtifactPage.bytes, JsonValue.record, List.filterMap_cons,
      List.filterMap_nil, Option.map_some, hnext, canonicalBytes, fieldsBytes, h1, h2, h3, h4, h5,
      h6, h7, h8, h9, canonicalBytes_text, canonicalBytes_nat, List.length_cons, List.length_nil]
    omega

/-! ## Whole characters -/

/-- The longest run of characters within a budget, and what is left. -/
theorem exists_longest (budget : ℕ) (rest : List Char) :
    ∃ taken after, rest = taken ++ after ∧ utf8Size taken ≤ budget ∧
      ∀ c tail, after = c :: tail → budget < utf8Size taken + c.utf8Size := by
  induction rest generalizing budget with
  | nil => exact ⟨[], [], rfl, Nat.zero_le _, fun c tail h => nomatch h⟩
  | cons c rest ih =>
    by_cases hfits : c.utf8Size ≤ budget
    · obtain ⟨taken, after, rfl, hsize, hnext⟩ := ih (budget - c.utf8Size)
      refine ⟨c :: taken, after, rfl, ?_, fun d tail hafter => ?_⟩
      · rw [utf8Size_cons]
        omega
      · have := hnext d tail hafter
        rw [utf8Size_cons]
        omega
    · refine ⟨[], c :: rest, rfl, Nat.zero_le _, fun d tail hafter => ?_⟩
      cases hafter
      rw [utf8Size_nil]
      omega

/-- From inside a character, the way back ends where the character begins. -/
theorem backToBoundary_inside {before after : List Char} {c : Char} {offset k : ℕ}
    (hoffset : offset ≤ utf8Size before) (hk : k < c.utf8Size) :
    backToBoundary (encodeUtf8 (before ++ c :: after)) offset (utf8Size before + k) =
      utf8Size before := by
  induction k with
  | zero =>
    have hfirst := isContinuation_first before after c
    rw [Nat.add_zero]
    cases hsize : utf8Size before with
    | zero => rfl
    | succ size =>
      rw [hsize] at hfirst
      rw [backToBoundary, hfirst, if_neg]
      simp
  | succ k ih =>
    have hinside := isContinuation_inside before after c (Nat.succ_pos k) hk
    have hlength : utf8Size before + (k + 1) < (encodeUtf8 (before ++ c :: after)).length := by
      rw [length_encodeUtf8, utf8Size_append, utf8Size_cons]
      omega
    rw [Nat.succ_eq_add_one, ← Nat.add_assoc] at hinside
    rw [← Nat.add_assoc] at hlength ⊢
    rw [backToBoundary, if_pos ⟨by omega, hlength, hinside⟩]
    exact ih (by omega)

theorem backToBoundary_length (bytes : List UInt8) (offset : ℕ) :
    backToBoundary bytes offset bytes.length = bytes.length := by
  cases hlength : bytes.length with
  | zero => rfl
  | succ size =>
    rw [backToBoundary, if_neg]
    omega

/-- The page of a run of characters. -/
def pageOf (record : ArtifactRecord) (before taken after : List Char) : ArtifactPage :=
  { artifactId := record.artifactId
    contentType := record.contentType
    offsetBytes := utf8Size before
    content := String.ofList taken
    contentBytes := utf8Size taken
    totalBytes := record.byteLength
    nextOffsetBytes := if after = [] then none else some (utf8Size before + utf8Size taken) }

theorem utf8Size_eq_zero_iff {chars : List Char} : utf8Size chars = 0 ↔ chars = [] := by
  cases chars with
  | nil => simp
  | cons c chars =>
    have hpos := Char.utf8Size_pos c
    rw [utf8Size_cons]
    constructor
    · intro h
      omega
    · intro h
      cases h

/-- The page of a budget holds the longest run of characters within it. -/
theorem pageAtBudget_eq (record : ArtifactRecord) (before rest : List Char) (budget : ℕ) :
    ∃ taken after, rest = taken ++ after ∧ utf8Size taken ≤ budget ∧
      (∀ c tail, after = c :: tail → budget < utf8Size taken + c.utf8Size) ∧
      pageAtBudget record (encodeUtf8 (before ++ rest)) (utf8Size before) budget =
        pageOf record before taken after := by
  obtain ⟨taken, after, rfl, hsize, hnext⟩ := exists_longest budget rest
  refine ⟨taken, after, rfl, hsize, hnext, ?_⟩
  have hlength : (encodeUtf8 (before ++ (taken ++ after))).length =
      utf8Size before + (utf8Size taken + utf8Size after) := by
    rw [length_encodeUtf8, utf8Size_append, utf8Size_append]
  have hstop : backToBoundary (encodeUtf8 (before ++ (taken ++ after))) (utf8Size before)
      (min (encodeUtf8 (before ++ (taken ++ after))).length (utf8Size before + budget)) =
      utf8Size before + utf8Size taken := by
    cases after with
    | nil =>
      rw [utf8Size_nil] at hlength
      rw [min_eq_left (by omega), backToBoundary_length, hlength, Nat.add_zero]
    | cons c after =>
      have hbudget := hnext c after rfl
      rw [utf8Size_cons] at hlength
      rw [min_eq_right (by omega), ← List.append_assoc, ← utf8Size_append]
      have hsplit : utf8Size before + budget =
          utf8Size (before ++ taken) + (budget - utf8Size taken) := by
        rw [utf8Size_append]
        omega
      rw [hsplit]
      exact backToBoundary_inside (by rw [utf8Size_append]; omega) (by omega)
  have hcontent : ((encodeUtf8 (before ++ (taken ++ after))).take
      (utf8Size before + utf8Size taken)).drop (utf8Size before) = encodeUtf8 taken := by
    have htake : (encodeUtf8 (before ++ taken) ++ encodeUtf8 after).take
        (utf8Size (before ++ taken)) = encodeUtf8 (before ++ taken) := by
      rw [← length_encodeUtf8, List.take_left]
    rw [← List.append_assoc, encodeUtf8_append, ← utf8Size_append, htake, encodeUtf8_append,
      ← length_encodeUtf8, List.drop_left]
  have hlast : (utf8Size before + utf8Size taken < (encodeUtf8 (before ++ (taken ++ after))).length) =
      (¬ after = []) := by
    rw [hlength, ← utf8Size_eq_zero_iff]
    apply propext
    omega
  unfold pageAtBudget pageOf
  simp only [hstop, hcontent, decodeUtf8_encodeUtf8, hlast, Nat.add_sub_cancel_left, ite_not]

/-- The first character behind an offset ends where no byte continues it. -/
theorem firstEnd_eq (before after : List Char) (c : Char) :
    firstEnd (encodeUtf8 (before ++ c :: after)) (utf8Size before) - utf8Size before =
      c.utf8Size := by
  obtain ⟨first, rest, hbytes, -, hrest⟩ := utf8EncodeChar_bytes c
  have hsize : c.utf8Size = rest.length + 1 := by
    rw [← String.length_utf8EncodeChar, hbytes, List.length_cons]
  have hdrop : (encodeUtf8 (before ++ c :: after)).drop (utf8Size before + 1) =
      rest ++ encodeUtf8 after := by
    rw [encodeUtf8_append, encodeUtf8_cons, hbytes, ← length_encodeUtf8, ← List.drop_drop,
      List.drop_left]
    rfl
  have hafter : (encodeUtf8 after).takeWhile isContinuation = [] := by
    cases after with
    | nil => rfl
    | cons d after =>
      obtain ⟨byte, tail, hbyte, hfirst, -⟩ := utf8EncodeChar_bytes d
      rw [encodeUtf8_cons, hbyte, List.cons_append, List.takeWhile_cons_of_neg (by simp [hfirst])]
  rw [firstEnd, hdrop, List.takeWhile_append_of_pos hrest, hafter, List.append_nil, hsize]
  omega

/-! ## Which pages fit -/

variable {record : ArtifactRecord} {before rest : List Char} {c : Char}
  {requested maxResultBytes : ℕ}

/-- The bytes of every page of a record. -/
def frameBytes (record : ArtifactRecord) : ℕ :=
  106 + jsonCharsBytes record.artifactId.toList + jsonCharsBytes record.contentType.toList +
    digits record.byteLength

theorem pageOf_bytes (record : ArtifactRecord) (before taken after : List Char) :
    (pageOf record before taken after).bytes =
      frameBytes record + jsonCharsBytes taken + digits (utf8Size before) +
        digits (utf8Size taken) +
        if after = [] then 0 else 19 + digits (utf8Size before + utf8Size taken) := by
  have hlist : (String.ofList taken).toList = taken := String.toList_ofList
  by_cases hafter : after = []
  · simp only [ArtifactPage.bytes, pageOf, frameBytes, hafter, if_true, hlist]
    omega
  · simp only [ArtifactPage.bytes, pageOf, frameBytes, hafter, if_false, hlist]
    omega

/-- A character on its own takes no more than a page that holds it, when both have a next page or
the character is the last. -/
theorem pageOf_single_le (record : ArtifactRecord) (before mid more after : List Char) (c : Char)
    (h : after = [] → more = []) :
    (pageOf record (before ++ mid) [c] (more ++ after)).bytes ≤
      (pageOf record before (mid ++ c :: more) after).bytes := by
  have hmid := utf8Size_le_jsonCharsBytes mid
  have hmore := utf8Size_le_jsonCharsBytes more
  have hoffset := digits_add_le (utf8Size before) (utf8Size mid)
  have hone : digits c.utf8Size = 1 := digits_of_lt (by have := Char.utf8Size_le_four c; omega)
  have hpos := digits_pos (utf8Size mid + (c.utf8Size + utf8Size more))
  have hnext : digits (utf8Size before + utf8Size mid + c.utf8Size) ≤
      digits (utf8Size before + (utf8Size mid + (c.utf8Size + utf8Size more))) :=
    digits_mono (by omega)
  rw [pageOf_bytes, pageOf_bytes]
  simp only [utf8Size_append, utf8Size_cons, utf8Size_nil, jsonCharsBytes_append,
    jsonCharsBytes_cons, jsonCharsBytes_nil, Nat.add_zero, List.append_eq_nil_iff]
  by_cases hafter : after = []
  · rw [if_pos ⟨h hafter, hafter⟩, if_pos hafter]
    omega
  · rw [if_neg (fun hboth => hafter hboth.2), if_neg hafter]
    omega

theorem fitsBudget_iff {budget : ℕ} {page : ArtifactPage}
    (hpage : pageAtBudget record (encodeUtf8 (before ++ rest)) (utf8Size before) budget = page) :
    fitsBudget record (encodeUtf8 (before ++ rest)) (utf8Size before) maxResultBytes budget = true ↔
      0 < page.contentBytes ∧ page.bytes ≤ maxResultBytes := by
  simp [fitsBudget, hpage, jsonBytes_result]

/-- Where a character begins, the page is the one that the search finds. -/
theorem fitArtifactPage_search (hcontent : record.content.toList = before ++ c :: rest)
    (hrequested : c.utf8Size ≤ requested) :
    fitArtifactPage record (utf8Size before) requested maxResultBytes =
      match BoundedSearch.searchLast
          (fitsBudget record (encodeUtf8 (before ++ c :: rest)) (utf8Size before) maxResultBytes)
          c.utf8Size (min requested (utf8Size (c :: rest))) with
      | some budget =>
        .ok (pageAtBudget record (encodeUtf8 (before ++ c :: rest)) (utf8Size before) budget)
      | none =>
        .error (.validation
          "maxModelResultBytes cannot represent one readable artifact code point.") := by
  have hpos := Char.utf8Size_pos c
  have hlength : (encodeUtf8 (before ++ c :: rest)).length =
      utf8Size before + utf8Size (c :: rest) := by
    rw [length_encodeUtf8, utf8Size_append]
  have hfirst := isContinuation_first before rest c
  have hsize : utf8Size (c :: rest) = c.utf8Size + utf8Size rest := rfl
  unfold fitArtifactPage
  simp only [hcontent, hlength, hfirst, firstEnd_eq]
  rw [if_neg (by simp), if_neg (by omega), Nat.add_sub_cancel_left]
  exact if_neg (by omega)

/-- When the first character alone fits, a page is found. -/
theorem exists_fit (hcontent : record.content.toList = before ++ c :: rest)
    (hrequested : c.utf8Size ≤ requested)
    (hfits : (pageOf record before [c] rest).bytes ≤ maxResultBytes) :
    ∃ page, fitArtifactPage record (utf8Size before) requested maxResultBytes = .ok page := by
  have hpos := Char.utf8Size_pos c
  obtain ⟨taken, after, hsplit, hsize, hnext, hpage⟩ :=
    pageAtBudget_eq record before (c :: rest) c.utf8Size
  -- the longest run within the bytes of the first character is that character
  have hsingle : taken = [c] ∧ after = rest := by
    cases taken with
    | nil =>
      have := hnext c rest hsplit.symm
      rw [utf8Size_nil] at this
      omega
    | cons d taken =>
      rw [List.cons_append, List.cons.injEq] at hsplit
      obtain ⟨rfl, rfl⟩ := hsplit
      rw [utf8Size_cons] at hsize
      have htaken : taken = [] := utf8Size_eq_zero_iff.mp (by omega)
      subst htaken
      exact ⟨rfl, rfl⟩
  obtain ⟨rfl, rfl⟩ := hsingle
  have htest := (fitsBudget_iff hpage).mpr ⟨by simpa [pageOf] using hpos, hfits⟩
  have hle : c.utf8Size ≤ min requested (utf8Size (c :: after)) := by
    rw [utf8Size_cons]
    omega
  obtain ⟨budget, hbudget⟩ := Option.isSome_iff_exists.mp (BoundedSearch.searchLast_isSome hle htest)
  rw [fitArtifactPage_search hcontent hrequested, hbudget]
  exact ⟨_, rfl⟩

/-- What a page that is found is: characters in a row that fit.  A page that comes to the end of
the text was found after the one without the last character. -/
theorem fit_eq_ok (hcontent : record.content.toList = before ++ c :: rest)
    (hrequested : c.utf8Size ≤ requested) {page : ArtifactPage}
    (h : fitArtifactPage record (utf8Size before) requested maxResultBytes = .ok page) :
    ∃ taken after, c :: rest = taken ++ after ∧ taken ≠ [] ∧ utf8Size taken ≤ requested ∧
      page = pageOf record before taken after ∧ page.bytes ≤ maxResultBytes ∧
      ∀ init d, taken = init ++ [d] → init ≠ [] → after = [] →
        (pageOf record before init [d]).bytes ≤ maxResultBytes := by
  rw [fitArtifactPage_search hcontent hrequested] at h
  split at h
  · rename_i budget hbudget
    obtain ⟨hlow, hhigh, htest⟩ := BoundedSearch.searchLast_eq_some hbudget
    obtain ⟨taken, after, hsplit, hsize, hnext, hpage⟩ :=
      pageAtBudget_eq record before (c :: rest) budget
    obtain ⟨hpos, hfits⟩ := (fitsBudget_iff hpage).mp htest
    rw [Except.ok.injEq, hpage] at h
    subst h
    refine ⟨taken, after, hsplit, ?_, by omega, rfl, hfits, ?_⟩
    · rintro rfl
      exact absurd hpos (by simp [pageOf])
    · rintro init d rfl hinit rfl
      -- the budget is all of the rest, so the one before it has been tried
      rw [List.append_nil] at hsplit
      have hbudget' : budget = min requested (utf8Size (c :: rest)) := by
        rw [hsplit] at hhigh ⊢
        omega
      have hshort : c.utf8Size < budget := by
        cases init with
        | nil => exact absurd rfl hinit
        | cons e init =>
          rw [List.cons_append, List.cons.injEq] at hsplit
          obtain ⟨rfl, rfl⟩ := hsplit
          have hd := Char.utf8Size_pos d
          rw [List.cons_append, utf8Size_cons, utf8Size_append, utf8Size_cons] at hsize
          omega
      rw [← hbudget'] at hbudget
      have hbefore := BoundedSearch.searchLast_eq_high hshort hbudget
      obtain ⟨taken, after, hsplit', hsize', hnext', hpage'⟩ :=
        pageAtBudget_eq record before (c :: rest) (budget - 1)
      have hinit' : taken = init ∧ after = [d] := by
        have hsame : init ++ [d] = taken ++ after := hsplit.symm.trans hsplit'
        have htotal : utf8Size (init ++ [d]) = utf8Size taken + utf8Size after := by
          rw [hsame, utf8Size_append]
        have htotal' : utf8Size (c :: rest) = utf8Size (init ++ [d]) := congrArg utf8Size hsplit
        cases after with
        | nil =>
          rw [utf8Size_nil] at htotal
          omega
        | cons e tail =>
          have hnext := hnext' e tail rfl
          rw [utf8Size_cons] at htotal
          have htail : tail = [] := utf8Size_eq_zero_iff.mp (by omega)
          subst htail
          obtain ⟨rfl, hlast⟩ := List.append_inj' hsame rfl
          exact ⟨rfl, hlast.symm⟩
      obtain ⟨rfl, rfl⟩ := hinit'
      exact ((fitsBudget_iff hpage').mp hbefore).2
  · cases h

/-! ## The read Tool -/

variable {sha256 : List UInt16 → String} {limits : ArtifactLimits} {store : InMemoryArtifactStore}

/-- What the validation of a record leaves to be used. -/
structure ArtifactRecord.Sound (limits : ArtifactLimits) (record : ArtifactRecord) : Prop where
  sessionId : isArtifactIdentifier limits record.sessionId = true
  actorId : isArtifactIdentifier limits record.actorId = true
  artifactId : isSha256 record.artifactId = true
  mediaType : isMediaType record.contentType.toList = true
  mediaTypeBytes : Artifacts.byteLength record.contentType ≤ limits.maxContentTypeBytes
  nonEmpty : record.content ≠ ""
  contentBytes : Artifacts.byteLength record.content ≤ limits.maxArtifactBytes
  byteLength : record.byteLength = Artifacts.byteLength record.content

theorem Stored.sound (h : Stored sha256 limits record) : record.Sound limits := by
  have hvalid := (stored_iff.mp h).1
  simp only [isArtifactRecord, Bool.and_eq_true, List.all_cons, List.all_nil, Bool.and_true,
    decide_eq_true_eq] at hvalid
  obtain ⟨⟨⟨⟨⟨⟨⟨hidentifiers, hdigests⟩, hmedia⟩, hcontent⟩, -⟩, -⟩, -⟩, -⟩ := hvalid
  exact ⟨hidentifiers.1, hidentifiers.2.1, hdigests.1, hmedia.1, hmedia.2, hcontent.1.1,
    hcontent.1.2, hcontent.2⟩

theorem validateArtifactIdentifier_eq_ok {value name : String}
    (h : isArtifactIdentifier limits value = true) :
    validateArtifactIdentifier value limits name = .ok value := by
  rw [isArtifactIdentifier, Bool.and_eq_true] at h
  rw [validateArtifactIdentifier, demand_true_bind h.1, demand_true_bind h.2]
  rfl

theorem read_eq_some (hvalid : store.Valid sha256 limits) (hmem : record ∈ store.records.values) :
    store.read sha256 ⟨record.sessionId, record.actorId⟩ record.artifactId = .ok (some record) := by
  obtain ⟨hget, hstored⟩ := get_of_mem hvalid hmem
  have hsound := hstored.sound
  have hget : store.records.get? ⟨record.sessionId, record.actorId, record.artifactId⟩ =
      some record := hget
  have hfingerprint : validateArtifactFingerprint record.artifactId "artifactId" =
      .ok record.artifactId := by
    rw [validateArtifactFingerprint, demand_true_bind hsound.artifactId]
    rfl
  unfold InMemoryArtifactStore.read
  rw [hvalid.sameLimits, validateArtifactIdentifier_eq_ok hsound.sessionId, ok_bind,
    validateArtifactIdentifier_eq_ok hsound.actorId, ok_bind, hfingerprint, ok_bind, hget]
  show (validateArtifactRecord sha256 record limits >>= fun valid => pure (some valid)) = _
  rw [show validateArtifactRecord sha256 record limits = .ok record from hstored]
  rfl

/-- The read Tool answers the page that is found. -/
theorem executeRead_eq (hvalid : store.Valid sha256 limits) (hmem : record ∈ store.records.values)
    {toolCallId : String} (hcall : isArtifactIdentifier limits toolCallId = true) (offset : ℕ)
    (maxBytes : Option ℕ) :
    executeRead sha256 limits store ⟨record.sessionId, record.actorId⟩ toolCallId
        ⟨record.artifactId, some offset, maxBytes⟩ =
      (fitArtifactPage record offset (maxBytes.getD limits.maxReadBytes) limits.maxModelResultBytes
        >>= fun page => assertModelResultFits limits page.result >>= fun _ =>
          pure ⟨canonicalizeJsonValue page.result, some record.artifactId, some page⟩) := by
  have hstored : validateArtifactRecord sha256 record limits = .ok record :=
    (get_of_mem hvalid hmem).2
  have hfilter : (some record).filter (fun found => decide (found.sessionId = record.sessionId) &&
      decide (found.actorId = record.actorId)) = some record := by
    simp
  unfold executeRead
  rw [validateArtifactIdentifier_eq_ok hcall, ok_bind]
  simp only [read_eq_some hvalid hmem, hstored, ok_bind, hfilter, Option.getD_some]

/-! ## Reading on -/

/-- Reading at an offset, and then at each `nextOffsetBytes`, until a page has none. -/
inductive ReadsPages (read : ℕ → Except ArtifactError ReadAnswer) :
    ℕ → List (ArtifactPage × List UInt16) → Prop
  | last {offset page text artifactId} (answers : read offset = .ok ⟨text, artifactId, some page⟩)
      (ends : page.nextOffsetBytes = none) : ReadsPages read offset [(page, text)]
  | more {offset page text artifactId next pages}
      (answers : read offset = .ok ⟨text, artifactId, some page⟩)
      (goesOn : page.nextOffsetBytes = some next) (rest : ReadsPages read next pages) :
      ReadsPages read offset ((page, text) :: pages)

/-- What is asked of every page. -/
structure GoodPage (limits : ArtifactLimits) (artifactId : String) (maxBytes : Option ℕ)
    (page : ArtifactPage × List UInt16) : Prop where
  allowed : ReadParameters.allowed limits ⟨artifactId, some page.1.offsetBytes, maxBytes⟩ = true
  resultBytes : utf8Length page.2 ≤ limits.maxModelResultBytes
  positive : 0 < page.1.contentBytes
  counted : page.1.contentBytes = byteLength page.1.content
  bounded : page.1.contentBytes ≤ maxBytes.getD limits.maxReadBytes

/-- The reader comes through the artifact page by page. -/
def ReadsBack (sha256 : List UInt16 → String) (limits : ArtifactLimits)
    (store : InMemoryArtifactStore) (record : ArtifactRecord) (maxBytes : Option ℕ)
    (toolCallId : ℕ → String) : Prop :=
  ∃ pages, ReadsPages (fun offset => executeRead sha256 limits store
      ⟨record.sessionId, record.actorId⟩ (toolCallId offset)
      ⟨record.artifactId, some offset, maxBytes⟩) 0 pages ∧
    (∀ page ∈ pages, GoodPage limits record.artifactId maxBytes page) ∧
    (pages.map fun page => page.1.offsetBytes).Pairwise (· < ·) ∧
    (pages.flatMap fun page => page.1.content.toList) = record.content.toList

variable {maxBytes : Option ℕ} {toolCallId : ℕ → String}

/-- What an answer of the read Tool is, when it is none of its errors. -/
theorem executeRead_eq_ok (hvalid : store.Valid sha256 limits)
    (hmem : record ∈ store.records.values)
    (hcalls : ∀ offset, isArtifactIdentifier limits (toolCallId offset) = true) {offset : ℕ}
    {answer : ReadAnswer} :
    executeRead sha256 limits store ⟨record.sessionId, record.actorId⟩ (toolCallId offset)
        ⟨record.artifactId, some offset, maxBytes⟩ = .ok answer ↔
      ∃ page, fitArtifactPage record offset (maxBytes.getD limits.maxReadBytes)
          limits.maxModelResultBytes = .ok page ∧ page.bytes ≤ limits.maxModelResultBytes ∧
        answer = ⟨canonicalizeJsonValue page.result, some record.artifactId, some page⟩ := by
  rw [executeRead_eq hvalid hmem (hcalls offset), bind_eq_ok]
  refine exists_congr fun page => and_congr_right fun _ => ?_
  rw [check_eq_ok, assertModelResultFits, demand_eq_ok, decide_eq_true_eq, jsonBytes_result,
    return_eq_ok]

/-- The parameters of a page that is read behind some characters of the text. -/
theorem allowed_offset (hsound : record.Sound limits)
    (hmax : maxBytes.all (fun bytes => decide (4 ≤ bytes) && decide (bytes ≤ limits.maxReadBytes)) =
      true) (hcontent : record.content.toList = before ++ rest) :
    ReadParameters.allowed limits ⟨record.artifactId, some (utf8Size before), maxBytes⟩ = true := by
  have hbytes := hsound.contentBytes
  rw [byteLength_eq, hcontent, utf8Size_append] at hbytes
  have hoffset : utf8Size before ≤ limits.maxArtifactBytes := by omega
  rw [ReadParameters.allowed, hsound.artifactId, hmax]
  simp [hoffset]

/-- When every character fits on its own, the reader comes through. -/
theorem exists_readsPages (hvalid : store.Valid sha256 limits)
    (hmem : record ∈ store.records.values)
    (hcalls : ∀ offset, isArtifactIdentifier limits (toolCallId offset) = true)
    (hmax : maxBytes.all (fun bytes => decide (4 ≤ bytes) && decide (bytes ≤ limits.maxReadBytes)) =
      true) (hfour : 4 ≤ maxBytes.getD limits.maxReadBytes)
    (hfits : ∀ before c rest, record.content.toList = before ++ c :: rest →
      (pageOf record before [c] rest).bytes ≤ limits.maxModelResultBytes)
    (hcontent : record.content.toList = before ++ c :: rest) :
    ∃ pages, ReadsPages (fun offset => executeRead sha256 limits store
        ⟨record.sessionId, record.actorId⟩ (toolCallId offset)
        ⟨record.artifactId, some offset, maxBytes⟩) (utf8Size before) pages ∧
      (∀ page ∈ pages, GoodPage limits record.artifactId maxBytes page ∧
        utf8Size before ≤ page.1.offsetBytes) ∧
      (pages.map fun page => page.1.offsetBytes).Pairwise (· < ·) ∧
      (pages.flatMap fun page => page.1.content.toList) = c :: rest := by
  have hsound := (get_of_mem hvalid hmem).2.sound
  induction hsize : rest.length using Nat.strong_induction_on generalizing before c rest with
  | _ size ih =>
    have hrequested := le_trans (Char.utf8Size_le_four c) hfour
    obtain ⟨page, hpage⟩ := exists_fit hcontent hrequested (hfits before c rest hcontent)
    obtain ⟨taken, after, hsplit, htaken, hbytes, rfl, hpageBytes, -⟩ :=
      fit_eq_ok hcontent hrequested hpage
    have hread := (executeRead_eq_ok hvalid hmem hcalls).mpr ⟨_, hpage, hpageBytes, rfl⟩
    have hpositive : 0 < utf8Size taken :=
      Nat.pos_of_ne_zero fun hzero => htaken (utf8Size_eq_zero_iff.mp hzero)
    have hgood : GoodPage limits record.artifactId maxBytes
        (pageOf record before taken after,
          canonicalizeJsonValue (pageOf record before taken after).result) := by
      refine ⟨allowed_offset hsound hmax hcontent, ?_, hpositive, ?_, hbytes⟩
      · exact le_of_eq_of_le (jsonBytes_result _) hpageBytes
      · rw [byteLength_eq]
        exact congrArg utf8Size String.toList_ofList.symm
    have htext : (pageOf record before taken after).content.toList = taken := String.toList_ofList
    cases after with
    | nil =>
      rw [List.append_nil] at hsplit
      refine ⟨[_], .last hread rfl, ?_, List.pairwise_singleton _ _, ?_⟩
      · intro page hmem'
        rw [List.mem_singleton.mp hmem']
        exact ⟨hgood, le_refl _⟩
      · rw [List.flatMap_singleton, htext, hsplit]
    | cons d after =>
      have hcontent' : record.content.toList = (before ++ taken) ++ d :: after := by
        rw [hcontent, hsplit, List.append_assoc]
      have hless : after.length < size := by
        have hlength := congrArg List.length hsplit
        have := List.length_pos_iff.mpr htaken
        rw [List.length_cons, List.length_append, List.length_cons] at hlength
        omega
      obtain ⟨pages, hpages, hall, hascending, hconcat⟩ := ih _ hless hcontent' rfl
      rw [utf8Size_append] at hpages hall
      refine ⟨_ :: pages, .more hread rfl hpages, ?_, ?_, ?_⟩
      · intro page hmem'
        rcases List.mem_cons.mp hmem' with rfl | hmem'
        · exact ⟨hgood, le_refl _⟩
        · exact ⟨(hall page hmem').1, le_trans (Nat.le_add_right _ _) (hall page hmem').2⟩
      · rw [List.map_cons, List.pairwise_cons]
        refine ⟨fun offset hoffset => ?_, hascending⟩
        obtain ⟨page, hpage', rfl⟩ := List.mem_map.mp hoffset
        exact lt_of_lt_of_le (Nat.lt_add_of_pos_right hpositive) (hall page hpage').2
      · rw [List.flatMap_cons, htext, hconcat, hsplit]

/-- When the reader comes through, every character fits on its own. -/
theorem fits_of_readsPages (hvalid : store.Valid sha256 limits)
    (hmem : record ∈ store.records.values)
    (hcalls : ∀ offset, isArtifactIdentifier limits (toolCallId offset) = true)
    (hfour : 4 ≤ maxBytes.getD limits.maxReadBytes) {offset : ℕ}
    {pages : List (ArtifactPage × List UInt16)}
    (h : ReadsPages (fun offset => executeRead sha256 limits store
        ⟨record.sessionId, record.actorId⟩ (toolCallId offset)
        ⟨record.artifactId, some offset, maxBytes⟩) offset pages)
    (hoffset : offset = utf8Size before) (hcontent : record.content.toList = before ++ c :: rest) :
    ∀ mid d tail, c :: rest = mid ++ d :: tail →
      (pageOf record (before ++ mid) [d] tail).bytes ≤ limits.maxModelResultBytes := by
  have hrequested : ∀ d : Char, d.utf8Size ≤ maxBytes.getD limits.maxReadBytes :=
    fun d => le_trans (Char.utf8Size_le_four d) hfour
  induction h generalizing before c rest with
  | last answers ends =>
    subst hoffset
    obtain ⟨page, hpage, hpageBytes, hanswer⟩ := (executeRead_eq_ok hvalid hmem hcalls).mp answers
    cases hanswer
    obtain ⟨taken, after, hsplit, -, -, rfl, -, hlast⟩ :=
      fit_eq_ok hcontent (hrequested c) hpage
    have hafter : after = [] := by
      by_contra hne
      simp [pageOf, hne] at ends
    subst hafter
    rw [List.append_nil] at hsplit
    intro mid d tail hmid
    have hwhole : taken = mid ++ d :: tail := hsplit.symm.trans hmid
    rcases List.eq_nil_or_concat' tail with rfl | ⟨more, last, rfl⟩
    · have hle := pageOf_single_le record before mid [] [] d fun _ => rfl
      rw [← hwhole] at hle
      exact le_trans hle hpageBytes
    · -- the character is not the last one, so the page without the last one fits as well
      have hle := pageOf_single_le record before mid more [last] d (by simp)
      refine le_trans hle (hlast (mid ++ d :: more) last ?_ (by simp) rfl)
      rw [hwhole, List.append_assoc, List.cons_append]
  | more answers goesOn hrest ih =>
    subst hoffset
    obtain ⟨page, hpage, hpageBytes, hanswer⟩ := (executeRead_eq_ok hvalid hmem hcalls).mp answers
    cases hanswer
    obtain ⟨taken, after, hsplit, -, -, rfl, -, -⟩ := fit_eq_ok hcontent (hrequested c) hpage
    cases after with
    | nil => cases goesOn
    | cons e after =>
      cases goesOn
      have hcontent' : record.content.toList = (before ++ taken) ++ e :: after := by
        rw [hcontent, hsplit, List.append_assoc]
      have hrest := ih (utf8Size_append before taken).symm hcontent'
      intro mid d tail hmid
      rcases List.append_eq_append_iff.mp (hsplit.symm.trans hmid) with
        ⟨more, rfl, hafter⟩ | ⟨more, rfl, htail⟩
      · have := hrest more d tail hafter
        rwa [List.append_assoc] at this
      · cases more with
        | nil =>
          obtain ⟨rfl, rfl⟩ := List.cons.inj htail
          simpa using hrest [] d tail rfl
        | cons f more =>
          rw [List.cons_append, List.cons.injEq] at htail
          obtain ⟨rfl, rfl⟩ := htail
          exact le_trans (pageOf_single_le record before mid more (e :: after) d (by simp))
            hpageBytes

/-! ## When the artifact can be read -/

theorem jsonCharsBytes_of_one {chars : List Char} (h : ∀ c ∈ chars, jsonCharBytes c = 1) :
    jsonCharsBytes chars = chars.length := by
  rw [jsonCharsBytes, List.map_congr_left h]
  simp

theorem fingerprint_bytes {value : String} (h : isSha256 value = true) :
    jsonCharsBytes value.toList = 64 := by
  simp only [isSha256, areSha256Digits, Bool.and_eq_true, decide_eq_true_eq, List.all_eq_true,
    Bool.or_eq_true] at h
  obtain ⟨hlength, hdigits⟩ := h
  have htable : ∀ n < 128, (0x30 ≤ n ∧ n ≤ 0x39) ∨ (0x61 ≤ n ∧ n ≤ 0x66) →
      jsonCharBytes (Char.ofNat n) = 1 := by
    decide +kernel
  have hone : ∀ c ∈ value.toList, jsonCharBytes c = 1 := by
    intro c hc
    have hc := hdigits c hc
    have := htable c.toNat (by omega) hc
    rwa [Char.ofNat_toNat] at this
  rw [jsonCharsBytes_of_one hone, hlength]

/-- The bytes of the result that holds one control character of six bytes. -/
def controlPageBytes (record : ArtifactRecord) (offset : ℕ) : ℕ :=
  177 + record.contentType.length + digits offset + digits record.byteLength +
    if offset + 1 < record.byteLength then 19 + digits (offset + 1) else 0

theorem frameBytes_eq (h : record.Sound limits) :
    frameBytes record = 170 + record.contentType.length + digits record.byteLength := by
  rw [frameBytes, fingerprint_bytes h.artifactId, (mediaType_bytes h.mediaType).2,
    String.length_toList]

theorem controlPageBytes_eq (h : record.Sound limits)
    (hcontent : record.content.toList = before ++ c :: rest) (hlong : isLongEscape c = true) :
    (pageOf record before [c] rest).bytes = controlPageBytes record (utf8Size before) := by
  have hsize : c.utf8Size = 1 := by
    simp only [isLongEscape, Bool.and_eq_true, decide_eq_true_eq] at hlong
    exact utf8Size_of_lt (by omega)
  have hbytes : record.byteLength = utf8Size before + (1 + utf8Size rest) := by
    rw [h.byteLength, byteLength_eq, hcontent, utf8Size_append, utf8Size_cons, hsize]
  have hrest : (rest = []) ↔ ¬ utf8Size before + 1 < record.byteLength := by
    rw [hbytes, ← utf8Size_eq_zero_iff]
    omega
  rw [pageOf_bytes, controlPageBytes, frameBytes_eq h]
  simp only [jsonCharsBytes_cons, jsonCharsBytes_nil, utf8Size_cons, utf8Size_nil, hsize,
    jsonCharBytes_of_long hlong, hrest, Nat.add_zero, ite_not, digits_of_lt (show 1 < 10 by decide)]
  omega

/-- The constructor has tried a character of four bytes, with the widest numbers. -/
theorem probe_fits {service : GameArtifactService} {sourceId readToolName : Option String}
    (h : createArtifactService limits limits sourceId readToolName = .ok service) :
    194 + limits.maxContentTypeBytes + 3 * digits limits.maxArtifactBytes ≤
        limits.maxModelResultBytes ∧
      4 ≤ limits.maxReadBytes := by
  obtain ⟨hfreeze, h⟩ := check_eq_ok.mp h
  obtain ⟨-, h⟩ := check_eq_ok.mp h
  obtain ⟨required, -, h⟩ := bind_eq_ok.mp h
  obtain ⟨source, -, h⟩ := bind_eq_ok.mp h
  obtain ⟨tool, -, h⟩ := bind_eq_ok.mp h
  obtain ⟨-, h⟩ := check_eq_ok.mp h
  obtain ⟨-, h⟩ := check_eq_ok.mp h
  obtain ⟨-, h⟩ := check_eq_ok.mp h
  obtain ⟨hprobe, -⟩ := check_eq_ok.mp h
  obtain ⟨hread, htype⟩ : 4 ≤ limits.maxReadBytes ∧ 3 ≤ limits.maxContentTypeBytes := by
    delta freezeArtifactLimits at hfreeze
    split at hfreeze
    · cases hfreeze
    · obtain ⟨hread, hfreeze⟩ := check_eq_ok.mp hfreeze
      obtain ⟨htype, -⟩ := check_eq_ok.mp hfreeze
      exact ⟨of_decide_eq_true (demand_eq_ok.mp hread), of_decide_eq_true (demand_eq_ok.mp htype)⟩
  have hbytes : (probePage limits).bytes ≤ limits.maxModelResultBytes := by
    have := of_decide_eq_true (demand_eq_ok.mp hprobe)
    rwa [jsonBytes_result] at this
  have hzeros : jsonCharsBytes (String.ofList (List.replicate 64 '0')).toList = 64 := by
    rw [String.toList_ofList]
    decide
  have hcontent : jsonCharsBytes "🙂".toList = 4 := by decide
  have hrepeat : jsonCharsBytes (List.replicate (limits.maxContentTypeBytes - 2) 'b') =
      limits.maxContentTypeBytes - 2 := by
    rw [jsonCharsBytes_of_one, List.length_replicate]
    intro c hc
    rw [List.eq_of_mem_replicate hc]
    decide
  have hwidest : jsonCharsBytes (maximumContentType limits).toList = limits.maxContentTypeBytes := by
    have hfirst : jsonCharBytes 'a' = 1 ∧ jsonCharBytes '/' = 1 := by decide
    rw [maximumContentType, String.toList_ofList, jsonCharsBytes_cons, jsonCharsBytes_cons, hrepeat,
      hfirst.1, hfirst.2]
    omega
  have hsum : (probePage limits).bytes = 106 +
      jsonCharsBytes (String.ofList (List.replicate 64 '0')).toList +
      jsonCharsBytes (maximumContentType limits).toList + jsonCharsBytes "🙂".toList +
      digits limits.maxArtifactBytes + digits 4 + digits limits.maxArtifactBytes +
      (19 + digits limits.maxArtifactBytes) := rfl
  rw [hsum, hzeros, hcontent, hwidest, digits_of_lt (show 4 < 10 by decide)] at hbytes
  exact ⟨by omega, hread⟩

/-- Every character that is not such a control character fits on its own. -/
theorem other_fits (h : record.Sound limits)
    (hprobe : 194 + limits.maxContentTypeBytes + 3 * digits limits.maxArtifactBytes ≤
      limits.maxModelResultBytes)
    (hcontent : record.content.toList = before ++ c :: rest) (hshort : isLongEscape c = false) :
    (pageOf record before [c] rest).bytes ≤ limits.maxModelResultBytes := by
  have hfour := jsonCharBytes_le_four hshort
  have hwidth : digits c.utf8Size = 1 := digits_of_lt (by have := Char.utf8Size_le_four c; omega)
  have htype : record.contentType.length ≤ limits.maxContentTypeBytes := by
    have hbytes := h.mediaTypeBytes
    rwa [byteLength_eq, (mediaType_bytes h.mediaType).1, String.length_toList] at hbytes
  have htotal := h.contentBytes
  have hlength := h.byteLength
  rw [byteLength_eq, hcontent, utf8Size_append, utf8Size_cons] at htotal hlength
  have hoffset : digits (utf8Size before) ≤ digits limits.maxArtifactBytes :=
    digits_mono (by omega)
  have hnext : digits (utf8Size before + c.utf8Size) ≤ digits limits.maxArtifactBytes :=
    digits_mono (by omega)
  have hall : digits record.byteLength ≤ digits limits.maxArtifactBytes := digits_mono (by omega)
  rw [pageOf_bytes, frameBytes_eq h]
  simp only [jsonCharsBytes_cons, jsonCharsBytes_nil, utf8Size_cons, utf8Size_nil, Nat.add_zero,
    hwidth]
  split <;> omega

/-- **When an artifact can be read back.**  In every store that the service and its store have
written, every artifact is read back page by page, for every `maxBytes` the read Tool allows,
exactly when each control character that takes six bytes of JSON fits on its own. -/
theorem artifact_reads_back_iff (sha256 : List UInt16 → String) (limits : ArtifactLimits)
    (sourceId readToolName : Option String) (service : GameArtifactService)
    (accepted : createArtifactService limits limits sourceId readToolName = .ok service)
    (ops : List ArtifactOp) (record : ArtifactRecord)
    (stored : record ∈ (runArtifactOps sha256 limits ops).records.values) (maxBytes : Option ℕ)
    (allowed : maxBytes.all (fun bytes => decide (4 ≤ bytes) && decide (bytes ≤ limits.maxReadBytes)) =
      true) (toolCallId : ℕ → String)
    (calls : ∀ offset, isArtifactIdentifier limits (toolCallId offset) = true) :
    ReadsBack sha256 limits (runArtifactOps sha256 limits ops) record maxBytes toolCallId ↔
      ∀ before c after, record.content.toList = before ++ c :: after → isLongEscape c = true →
        controlPageBytes record (utf8Size before) ≤ limits.maxModelResultBytes := by
  have hvalid : (runArtifactOps sha256 limits ops).Valid sha256 limits := valid_runArtifactOps ops
  have hsound := (get_of_mem hvalid stored).2.sound
  obtain ⟨hprobe, hread⟩ := probe_fits accepted
  have hfour : 4 ≤ maxBytes.getD limits.maxReadBytes := by
    cases maxBytes with
    | none => exact hread
    | some bytes =>
      simp only [Option.all_some, Bool.and_eq_true, decide_eq_true_eq] at allowed
      exact allowed.1
  obtain ⟨first, tail, hfirst⟩ : ∃ first tail, record.content.toList = first :: tail := by
    refine List.exists_cons_of_ne_nil fun hnil => hsound.nonEmpty ?_
    exact String.toList_eq_nil_iff.mp hnil
  constructor
  · rintro ⟨pages, hpages, -⟩ before c after hcontent hlong
    have hfits := fits_of_readsPages hvalid stored calls hfour hpages utf8Size_nil.symm hfirst
      before c after (hfirst.symm.trans hcontent)
    rwa [List.nil_append, controlPageBytes_eq hsound hcontent hlong] at hfits
  · intro hcontrol
    have hfits : ∀ before c rest, record.content.toList = before ++ c :: rest →
        (pageOf record before [c] rest).bytes ≤ limits.maxModelResultBytes := by
      intro before c rest hcontent
      by_cases hlong : isLongEscape c = true
      · rw [controlPageBytes_eq hsound hcontent hlong]
        exact hcontrol before c rest hcontent hlong
      · exact other_fits hsound hprobe hcontent (Bool.eq_false_iff.mpr hlong)
    have hcontent : record.content.toList = [] ++ first :: tail := hfirst
    obtain ⟨pages, hpages, hall, hascending, hconcat⟩ :=
      exists_readsPages hvalid stored calls allowed hfour hfits hcontent
    exact ⟨pages, hpages, fun page hpage => (hall page hpage).1, hascending,
      hconcat.trans hfirst.symm⟩

/-! ## A text of control characters -/

/-- The smallest `maxModelResultBytes` that the constructor accepts with these limits. -/
def tightLimits : ArtifactLimits :=
  { maxIdentifierBytes := 16, maxCounterDigits := 4, maxContentTypeBytes := 3, maxArtifactBytes := 9
    maxArtifactsPerStream := 4, maxStoredBytesPerStream := 9, maxInlineToolResultBytes := 1
    maxReadBytes := 4, maxModelResultBytes := 200, maxPurgeBatch := 4 }

/-- A hash that gives every text the same fingerprint. -/
def zeroHash (_ : List UInt16) : String := String.ofList (List.replicate 64 '0')

/-- A request to store two control characters. -/
def controlRequest : ArtifactWriteRequest :=
  { input := ⟨"s", "a", "i"⟩, coordinate := ⟨"s", "a", "r", 1⟩, toolCallId := "c", toolName := "t"
    purpose := "p", requestFingerprint := zeroHash [], contentType := "a/b"
    content := "\x01\x01" }

def controlRecord : ArtifactRecord :=
  { sessionId := "s", actorId := "a", artifactId := zeroHash [], contentFingerprint := zeroHash []
    contentType := "a/b", content := "\x01\x01", byteLength := 2
    createdAt := "2024-01-01T00:00:00.000Z"
    origin :=
      { inputId := "i", coordinate := ⟨"s", "a", "r", 1⟩, toolCallId := "c", toolName := "t"
        purpose := "p", requestFingerprint := zeroHash [] } }

def controlOps : List ArtifactOp := [.storeText controlRequest "2024-01-01T00:00:00.000Z"]

theorem tightLimits_accepted : createArtifactService tightLimits tightLimits none (some "r") =
    .ok ⟨tightLimits, "artifacts", "r", 1355⟩ := by
  decide +kernel

theorem controlRecord_stored :
    controlRecord ∈ (runArtifactOps zeroHash tightLimits controlOps).records.values := by
  decide +kernel

/-- The service accepts its limits and stores the artifact, whose first page cannot be answered. -/
theorem control_text_unreadable :
    createArtifactService tightLimits tightLimits none (some "r") =
        .ok ⟨tightLimits, "artifacts", "r", 1355⟩ ∧
      controlRecord ∈ (runArtifactOps zeroHash tightLimits controlOps).records.values ∧
      ¬ ReadsBack zeroHash tightLimits (runArtifactOps zeroHash tightLimits controlOps) controlRecord
        (some 4) fun _ => "c" := by
  refine ⟨tightLimits_accepted, controlRecord_stored, ?_⟩
  rintro ⟨pages, hpages, -⟩
  have hvalid : (runArtifactOps zeroHash tightLimits controlOps).Valid zeroHash tightLimits :=
    valid_runArtifactOps controlOps
  have hcontent : controlRecord.content.toList = [] ++ Char.ofNat 1 :: [Char.ofNat 1] := by decide
  have hfits := fits_of_readsPages hvalid controlRecord_stored (fun _ => by decide) (by decide)
    hpages rfl hcontent [] (Char.ofNat 1) [Char.ofNat 1] rfl
  have hsound := (get_of_mem hvalid controlRecord_stored).2.sound
  rw [List.nil_append, controlPageBytes_eq hsound hcontent (by decide)] at hfits
  revert hfits
  decide

theorem artifact_reads_back_iff_control_text :
    ReadsBack zeroHash tightLimits (runArtifactOps zeroHash tightLimits controlOps) controlRecord
        (some 4) (fun _ => "c") ↔
      ∀ before c after, controlRecord.content.toList = before ++ c :: after →
        isLongEscape c = true →
        controlPageBytes controlRecord (utf8Size before) ≤ tightLimits.maxModelResultBytes :=
  artifact_reads_back_iff zeroHash tightLimits none (some "r")
    ⟨tightLimits, "artifacts", "r", 1355⟩ tightLimits_accepted controlOps controlRecord
    controlRecord_stored (some 4) (by decide) (fun _ => "c") (fun _ => by decide)

end OpenGameAgent.Artifacts
