import OpenGameAgent.Agent.ToolSnapshot
import OpenGameAgent.Library.BoundedSearch

/-!
# Truncating a Tool error

`truncateToolErrorMessage` of `packages/agent/src/tool-result-snapshot.ts` looks for the longest
beginning of a message whose envelope fits, by bisection over the places where it may be cut.  A cut
behind a high surrogate moves back by one unit, so that no surrogate pair is split; the sizes then
grow with the place (`envelopeBytes_safePrefix_le`), and the search is right.

The unit before may be a high surrogate again: the message that is returned then ends in one
(`truncates_iff`).
-/

namespace OpenGameAgent.ToolSnapshots

/-! ## The truncation -/

/-- Where `safePrefix` ends. -/
def safeEnd (value : Units) (length : ℕ) : ℕ :=
  let stop := min length value.length
  if 0 < stop && value[stop - 1]?.any isHighSurrogate then stop - 1 else stop

def safePrefix (value : Units) (length : ℕ) : Units := value.take (safeEnd value length)

def truncateToolErrorMessage (message : Units) (maxResultBytes : ℕ) : Units :=
  if toolResultEnvelopeBytes message ≤ maxResultBytes then message
  else
    safePrefix message (BoundedSearch.searchGreatest
      (fun middle => toolResultEnvelopeBytes (safePrefix message middle) ≤ maxResultBytes)
      0 message.length)

/-! ## The size of an envelope -/

/-- Around the text stand the same bytes. -/
theorem envelopeBytes_eq (text : Units) :
    toolResultEnvelopeBytes text = toolResultEnvelopeBytes [] + unitsBytes text := by
  simp only [toolResultEnvelopeBytes, jsonBytes_eq_canonicalBytes, JsonValue.record,
    List.filterMap_cons, Option.map_some, List.filterMap_nil, canonicalBytes, itemsBytes,
    fieldsBytes, List.length_cons, List.length_nil, jsonStringBytes, unitsBytes]
  omega

/-- A cut between two parts splits no surrogate pair. -/
def KeepsPairs (before after : Units) : Prop :=
  ∀ u v, before.getLast? = some u → after.head? = some v →
    (isHighSurrogate u && isLowSurrogate v) = false

theorem unitsBytes_append {before after : Units} (h : KeepsPairs before after) :
    unitsBytes (before ++ after) = unitsBytes before + unitsBytes after := by
  induction before using unitsBytes.induct with
  | case1 => simp [unitsBytes]
  | case2 u =>
    cases after with
    | nil => simp [unitsBytes]
    | cons v rest =>
      have hpair := h u v rfl rfl
      simp [unitsBytes, hpair]
  | case3 u v rest hpair ih =>
    have hrest : KeepsPairs rest after := by
      intro u' v' hlast hhead
      cases rest with
      | nil => cases hlast
      | cons w rest => exact h u' v' hlast hhead
    simp only [List.cons_append, unitsBytes, hpair, if_true, ih hrest]
    omega
  | case4 u v rest hpair ih =>
    have hrest : KeepsPairs (v :: rest) after := fun u' v' hlast hhead => h u' v' hlast hhead
    have hmore := ih hrest
    simp only [List.cons_append] at hmore
    simp only [List.cons_append, unitsBytes, hpair, Bool.false_eq_true, if_false, hmore]
    omega

/-- A shorter beginning that splits no pair is no larger. -/
theorem unitsBytes_take_le {message : Units} {short long : ℕ} (hle : short ≤ long)
    (hkeeps : KeepsPairs (message.take short) (message.drop short)) :
    unitsBytes (message.take short) ≤ unitsBytes (message.take long) := by
  have hkeeps' : KeepsPairs (message.take short) ((message.take long).drop short) := by
    intro u v hlast hhead
    refine hkeeps u v hlast ?_
    rw [List.drop_take, List.head?_take] at hhead
    split at hhead
    · cases hhead
    · exact hhead
  have hsplit : message.take short ++ (message.take long).drop short = message.take long := by
    have htake := List.take_append_drop short (message.take long)
    rwa [List.take_take, min_eq_left hle] at htake
  rw [← hsplit, unitsBytes_append hkeeps']
  exact Nat.le_add_right _ _

/-! ## Safe ends -/

variable {message : Units} {length short long : ℕ}

theorem safeEnd_le (message : Units) (length : ℕ) : safeEnd message length ≤ message.length := by
  rw [safeEnd]
  split <;> omega

theorem safeEnd_le_length (message : Units) (length : ℕ) : safeEnd message length ≤ length := by
  rw [safeEnd]
  split <;> omega

theorem safeEnd_mono (hle : short ≤ long) : safeEnd message short ≤ safeEnd message long := by
  rcases Nat.lt_or_ge (min short message.length) (min long message.length) with hlt | hge
  · have hshort : safeEnd message short ≤ min short message.length :=
      le_min (safeEnd_le_length message short) (safeEnd_le message short)
    have hlong : min long message.length - 1 ≤ safeEnd message long := by
      rw [safeEnd]
      split <;> omega
    omega
  · have hsame : min short message.length = min long message.length := by omega
    rw [safeEnd, safeEnd, hsame]

/-- A place behind no high surrogate is kept. -/
theorem safeEnd_of_not_high (hle : length ≤ message.length)
    (hlast : 0 < length → message[length - 1]?.any isHighSurrogate = false) :
    safeEnd message length = length := by
  rw [safeEnd, min_eq_left hle]
  split
  · rename_i hback
    rw [Bool.and_eq_true, decide_eq_true_eq] at hback
    rw [hlast hback.1] at hback
    cases hback.2
  · rfl

/-- A place behind a high surrogate moves back by one. -/
theorem safeEnd_of_high (hle : length + 1 ≤ message.length)
    (hlast : message[length]?.any isHighSurrogate = true) :
    safeEnd message (length + 1) = length := by
  rw [safeEnd, min_eq_left hle]
  simp [hlast]

/-- The unit before a cut. -/
theorem getLast?_take_pos (hpos : 0 < length) (hle : length ≤ message.length) :
    (message.take length).getLast? = message[length - 1]? := by
  have hlast : message[length - 1]? = some message[length - 1] :=
    List.getElem?_eq_getElem (by omega)
  rw [List.getLast?_take, if_neg hpos.ne', hlast, Option.some_or]

theorem not_low_of_high {u : UInt16} (h : isHighSurrogate u = true) : isLowSurrogate u = false := by
  rw [isHighSurrogate, Bool.and_eq_true, decide_eq_true_eq, decide_eq_true_eq,
    UInt16.le_iff_toNat_le, UInt16.le_iff_toNat_le] at h
  rw [isLowSurrogate, Bool.and_eq_false_iff, decide_eq_false_iff_not, UInt16.le_iff_toNat_le]
  simp only [UInt16.reduceToNat] at h ⊢
  omega

/-- A safe end is not behind a high surrogate, or is in front of one. -/
theorem safeEnd_cases (message : Units) (length : ℕ) :
    (0 < safeEnd message length →
      message[safeEnd message length - 1]?.any isHighSurrogate = false) ∨
    message[safeEnd message length]?.any isHighSurrogate = true := by
  rw [safeEnd]
  split
  · rename_i hback
    rw [Bool.and_eq_true] at hback
    exact Or.inr hback.2
  · rename_i hkeep
    refine Or.inl fun hpos => ?_
    simpa [hpos] using hkeep

/-- A safe end splits no surrogate pair. -/
theorem safeEnd_keepsPairs (message : Units) (length : ℕ) :
    KeepsPairs (message.take (safeEnd message length)) (message.drop (safeEnd message length)) := by
  intro u v hlast hhead
  rw [List.head?_drop] at hhead
  rcases Nat.eq_zero_or_pos (safeEnd message length) with hzero | hpos
  · rw [hzero, List.take_zero] at hlast
    cases hlast
  · rw [getLast?_take_pos hpos (safeEnd_le message length)] at hlast
    cases safeEnd_cases message length with
    | inl hbefore =>
      have hnot := hbefore hpos
      rw [hlast, Option.any_some] at hnot
      rw [hnot, Bool.false_and]
    | inr hbehind =>
      rw [hhead, Option.any_some] at hbehind
      rw [not_low_of_high hbehind, Bool.and_false]

/-- The sizes grow with the place of the cut. -/
theorem envelopeBytes_safePrefix_le (hle : short ≤ long) :
    toolResultEnvelopeBytes (safePrefix message short) ≤
      toolResultEnvelopeBytes (safePrefix message long) := by
  rw [envelopeBytes_eq, envelopeBytes_eq (safePrefix message long)]
  exact Nat.add_le_add_left
    (unitsBytes_take_le (safeEnd_mono hle) (safeEnd_keepsPairs message short)) _

/-! ## The search -/

theorem le_foldl_max (sizes : List ℕ) (size : ℕ) : size ≤ sizes.foldl max size := by
  induction sizes generalizing size with
  | nil => exact le_rfl
  | cons next sizes ih => exact (le_max_left size next).trans (ih _)

/-- The smallest limit that is allowed lets the empty message pass. -/
theorem empty_le_minToolResultBytes : toolResultEnvelopeBytes [] ≤ minToolResultBytes := by
  rw [minToolResultBytes, failureMessages, List.map_cons, List.foldl_cons, Nat.zero_max]
  refine le_trans ?_ (le_foldl_max _ _)
  rw [envelopeBytes_eq (utf16 _)]
  exact Nat.le_add_right _ _

variable {maxResultBytes : ℕ}

/-- The cut that is found: it is in the message and fits, and no cut behind it does. -/
theorem exists_lastCut (hmax : minToolResultBytes ≤ maxResultBytes)
    (hlarge : ¬ toolResultEnvelopeBytes message ≤ maxResultBytes) :
    ∃ last, last ≤ message.length ∧
      truncateToolErrorMessage message maxResultBytes = safePrefix message last ∧
      toolResultEnvelopeBytes (safePrefix message last) ≤ maxResultBytes ∧
      ∀ cut, cut ≤ message.length →
        toolResultEnvelopeBytes (safePrefix message cut) ≤ maxResultBytes → cut ≤ last := by
  refine ⟨_, BoundedSearch.searchGreatest_le (Nat.zero_le _), if_neg hlarge, ?_, ?_⟩
  · have hzero : toolResultEnvelopeBytes (safePrefix message 0) ≤ maxResultBytes := by
      have hempty : safePrefix message 0 = [] := by
        rw [safePrefix, Nat.le_zero.mp (safeEnd_le_length message 0), List.take_zero]
      rw [hempty]
      exact empty_le_minToolResultBytes.trans hmax
    have hpasses := @BoundedSearch.searchGreatest_passes
      (fun middle => toolResultEnvelopeBytes (safePrefix message middle) ≤ maxResultBytes)
      0 message.length (by simpa using hzero)
    simpa using hpasses
  · intro cut hcut hfits
    refine BoundedSearch.le_searchGreatest ?_ hcut (by simpa using hfits)
    intro i j hij hj
    simp only [decide_eq_true_eq] at hj ⊢
    exact (envelopeBytes_safePrefix_le hij).trans hj

/-! ## What is returned -/

/-- The longest beginning of a message that fits, among those that end in no high surrogate or are
the whole. -/
structure IsTruncation (message : Units) (maxResultBytes : ℕ) (result : Units) : Prop where
  beginning : result <+: message
  closed : Closed result ∨ result = message
  fits : toolResultEnvelopeBytes result ≤ maxResultBytes
  longest : ∀ longer, longer <+: message → Closed longer ∨ longer = message →
    toolResultEnvelopeBytes longer ≤ maxResultBytes → longer.length ≤ result.length

/-- The place behind the unit at an index and the next one, or between them where the next one is a
high surrogate. -/
def nextCut (message : Units) (index : ℕ) : ℕ :=
  if message[index + 1]?.any isHighSurrogate then index + 1 else index + 2

/-- The message fits up to a place between two high surrogates, and does not up to the next place
where it may be cut, if there is one. -/
def CutsHighSurrogates (message : Units) (maxResultBytes : ℕ) : Prop :=
  ∃ cut, 0 < cut ∧ message[cut - 1]?.any isHighSurrogate = true ∧
    message[cut]?.any isHighSurrogate = true ∧
    toolResultEnvelopeBytes (message.take cut) ≤ maxResultBytes ∧
    (cut + 1 = message.length ∨
      maxResultBytes < toolResultEnvelopeBytes (message.take (nextCut message cut)))

theorem safeEnd_nextCut {cut : ℕ} (hle : cut + 2 ≤ message.length) :
    safeEnd message (cut + 2) = nextCut message cut := by
  rw [nextCut]
  split
  · rename_i hhigh
    exact safeEnd_of_high hle hhigh
  · rename_i hlow
    exact safeEnd_of_not_high hle fun _ => by simpa using hlow

theorem closed_take_iff (hpos : 0 < length) (hle : length ≤ message.length) :
    Closed (message.take length) ↔ message[length - 1]?.any isHighSurrogate = false := by
  rw [Closed, getLast?_take_pos hpos hle]
  cases message[length - 1]? with
  | none => simp
  | some u => simp

/-- All but the end is as it should be. -/
theorem truncates_of_closed (hmax : minToolResultBytes ≤ maxResultBytes)
    (hlarge : ¬ toolResultEnvelopeBytes message ≤ maxResultBytes) :
    IsTruncation message maxResultBytes (truncateToolErrorMessage message maxResultBytes) ↔
      Closed (truncateToolErrorMessage message maxResultBytes) := by
  obtain ⟨last, hlast, hresult, hfits, hbehind⟩ := exists_lastCut hmax hlarge
  rw [hresult]
  constructor
  · rintro ⟨-, hclosed | hwhole, -, -⟩
    · exact hclosed
    · rw [hwhole] at hfits
      exact absurd hfits hlarge
  · intro hclosed
    refine ⟨List.take_prefix _ _, Or.inl hclosed, hfits, ?_⟩
    rintro longer hlonger (hclosed' | rfl) hfits'
    · have htake := List.prefix_iff_eq_take.mp hlonger
      have hle := hlonger.length_le
      have hend : safeEnd message longer.length = longer.length := by
        refine safeEnd_of_not_high hle fun hpos => ?_
        rw [htake] at hclosed'
        exact (closed_take_iff hpos hle).mp hclosed'
      have hcut : longer.length ≤ last := by
        refine hbehind _ hle ?_
        rw [safePrefix, hend, ← htake]
        exact hfits'
      rw [safePrefix, List.length_take, min_eq_left (safeEnd_le message last), ← hend]
      exact safeEnd_mono hcut
    · exact absurd hfits' hlarge

/-- The end is a high surrogate exactly where the cut falls between two. -/
theorem not_closed_iff (hmax : minToolResultBytes ≤ maxResultBytes)
    (hlarge : ¬ toolResultEnvelopeBytes message ≤ maxResultBytes) :
    ¬ Closed (truncateToolErrorMessage message maxResultBytes) ↔
      CutsHighSurrogates message maxResultBytes := by
  obtain ⟨last, hlast, hresult, hfits, hbehind⟩ := exists_lastCut hmax hlarge
  rw [hresult, safePrefix]
  constructor
  · intro hopen
    have hpos : 0 < safeEnd message last := by
      by_contra hzero
      rw [Nat.eq_zero_of_not_pos hzero, List.take_zero] at hopen
      exact hopen closed_nil
    rw [closed_take_iff hpos (safeEnd_le message last), Bool.not_eq_false] at hopen
    obtain hbefore | hnext := safeEnd_cases message last
    · rw [hbefore hpos] at hopen
      cases hopen
    · refine ⟨safeEnd message last, hpos, hopen, hnext, hfits, ?_⟩
      have hend : last = safeEnd message last + 1 := by
        have hle := safeEnd_le_length message last
        have hne : safeEnd message last ≠ last := by
          intro hsame
          rw [hsame] at hopen hpos
          have hback := @safeEnd_of_high message (last - 1) (by omega) hopen
          rw [show last - 1 + 1 = last by omega] at hback
          omega
        have hge : last - 1 ≤ safeEnd message last := by
          rw [safeEnd]
          split <;> omega
        omega
      rcases Nat.lt_or_ge last message.length with hmore | hall
      · refine Or.inr (Nat.lt_of_not_le fun hfits' => ?_)
        rw [← safeEnd_nextCut (by omega)] at hfits'
        have hcut := hbehind (safeEnd message last + 2) (by omega) hfits'
        omega
      · exact Or.inl (by omega)
  · rintro ⟨cut, hpos, hbefore, hnext, hcut, hbound⟩
    have hlt : cut < message.length := by
      by_contra hge
      rw [List.getElem?_eq_none (Nat.not_lt.mp hge)] at hnext
      cases hnext
    have hend := @safeEnd_of_high message cut hlt hnext
    have hle : cut + 1 ≤ last := by
      refine hbehind _ hlt ?_
      rw [safePrefix, hend]
      exact hcut
    have hlast' : last = cut + 1 := by
      obtain hall | hnone := hbound
      · omega
      · by_contra hne
        have hsize := @envelopeBytes_safePrefix_le message (cut + 2) last (by omega)
        rw [safePrefix, safeEnd_nextCut (by omega)] at hsize
        omega
    rw [hlast', hend, closed_take_iff hpos hlt.le, hbefore]
    exact Bool.noConfusion

/-- A message that fits is returned whole. -/
theorem truncates_whole (hfits : toolResultEnvelopeBytes message ≤ maxResultBytes) :
    IsTruncation message maxResultBytes (truncateToolErrorMessage message maxResultBytes) := by
  rw [truncateToolErrorMessage, if_pos hfits]
  exact ⟨List.prefix_rfl, Or.inr rfl, hfits, fun longer hlonger _ _ => hlonger.length_le⟩

/-- The truncation is right unless a message that is too large is cut between two high
surrogates. -/
theorem truncates_iff (message : Units) (maxResultBytes : ℕ)
    (hmax : minToolResultBytes ≤ maxResultBytes) :
    IsTruncation message maxResultBytes (truncateToolErrorMessage message maxResultBytes) ↔
      toolResultEnvelopeBytes message ≤ maxResultBytes ∨
        ¬ CutsHighSurrogates message maxResultBytes := by
  by_cases hfits : toolResultEnvelopeBytes message ≤ maxResultBytes
  · exact iff_of_true (truncates_whole hfits) (Or.inl hfits)
  · rw [truncates_of_closed hmax hfits, or_iff_right hfits, ← not_closed_iff hmax hfits, not_not]

theorem truncates_iff_letters :
    IsTruncation (List.replicate 1000 0x61) minToolResultBytes
      (truncateToolErrorMessage (List.replicate 1000 0x61) minToolResultBytes) := by
  refine (truncates_iff _ _ le_rfl).mpr (Or.inr ?_)
  rintro ⟨cut, -, -, hnext, -⟩
  rw [List.getElem?_replicate] at hnext
  split at hnext
  · exact absurd hnext (by decide)
  · cases hnext

theorem minToolResultBytes_eq : minToolResultBytes = toolResultEnvelopeBytes [] + 26 := by
  decide +kernel

/-- Seven high surrogates in a row: behind the fourth, the message fits. -/
theorem truncates_not_surrogates :
    ¬ IsTruncation (List.replicate 7 0xd800) minToolResultBytes
      (truncateToolErrorMessage (List.replicate 7 0xd800) minToolResultBytes) := by
  have hsize : ∀ units, toolResultEnvelopeBytes units ≤ minToolResultBytes ↔
      unitsBytes units ≤ 26 := by
    intro units
    rw [minToolResultBytes_eq, envelopeBytes_eq]
    omega
  have hlarge : ¬ toolResultEnvelopeBytes (List.replicate 7 0xd800) ≤ minToolResultBytes := by
    rw [hsize]
    decide
  rw [truncates_of_closed le_rfl hlarge, not_closed_iff le_rfl hlarge]
  refine ⟨4, by decide, by decide, by decide, ?_, Or.inr ?_⟩
  · rw [hsize]
    decide
  · rw [← Nat.not_le, hsize]
    decide

/-! ## Truncating twice -/

theorem safePrefix_safePrefix {stop : ℕ} (hle : length ≤ (safePrefix message stop).length) :
    safePrefix (safePrefix message stop) length = safePrefix message length := by
  simp only [safePrefix, List.length_take, le_min_iff] at hle ⊢
  generalize safeEnd message stop = kept at hle ⊢
  have hend : safeEnd (message.take kept) length = safeEnd message length := by
    rw [safeEnd, safeEnd, List.length_take, min_eq_left (le_min hle.1 hle.2), min_eq_left hle.2]
    cases length with
    | zero => simp
    | succ n => rw [List.getElem?_take_of_lt (by omega)]
  rw [hend, List.take_take, min_eq_left ((safeEnd_le_length _ _).trans hle.1)]

/-- Truncation to a limit and then to a lower one is truncation to the lower one. -/
theorem truncate_truncate (message : Units) {low high : ℕ} (hmin : minToolResultBytes ≤ low)
    (hle : low ≤ high) :
    truncateToolErrorMessage (truncateToolErrorMessage message high) low =
      truncateToolErrorMessage message low := by
  by_cases hfits : toolResultEnvelopeBytes message ≤ high
  · rw [show truncateToolErrorMessage message high = message from if_pos hfits]
  obtain ⟨far, hfarle, hfar, -, hfarLast⟩ := exists_lastCut (hmin.trans hle) hfits
  obtain ⟨last, hlastle, hlast, hlastFits, hlastLast⟩ :=
    exists_lastCut hmin fun h => hfits (h.trans hle)
  have hnear := hfarLast last hlastle (hlastFits.trans hle)
  rw [hfar, hlast]
  by_cases hsmall : toolResultEnvelopeBytes (safePrefix message far) ≤ low
  · rw [truncateToolErrorMessage, if_pos hsmall, hnear.antisymm (hlastLast far hfarle hsmall)]
  · -- a cut that fits the lower limit is before the other, and so in what that one leaves
    obtain ⟨again, hagainle, hagain, hagainFits, hagainLast⟩ := exists_lastCut hmin hsmall
    have hne : last ≠ far := fun hsame => hsmall (hsame ▸ hlastFits)
    have hmem : last ≤ (safePrefix message far).length := by
      rw [safePrefix, List.length_take, safeEnd, min_eq_left hfarle]
      split <;> omega
    rw [safePrefix_safePrefix hagainle] at hagain hagainFits
    have hback := hlastLast again (hagainle.trans (List.length_take_le' ..)) hagainFits
    have hforth := hagainLast last hmem (by rwa [safePrefix_safePrefix hmem])
    rw [hagain, hback.antisymm hforth]

theorem truncate_truncate_letters :
    truncateToolErrorMessage (truncateToolErrorMessage (List.replicate 1000 0x61)
        (minToolResultBytes + 1)) minToolResultBytes =
      truncateToolErrorMessage (List.replicate 1000 0x61) minToolResultBytes :=
  truncate_truncate _ le_rfl (Nat.le_succ _)

end OpenGameAgent.ToolSnapshots
