import OpenGameAgent.Library.Run
import OpenGameAgent.Png.PngInspection

/-!
# The grammar of a PNG file

What a file is said of its chunks, without a pass over them: they tile the file (`Tiles`) and stand
in order (`Layout`).  The pass reads the tiling (`inspectFrom_eq_ok`), and its flags follow the
layout, which has four parts: the header, what may stand before the image data, the image data, and
what may stand behind it (`visitAll_before`, `visitAll_image`, `visitAll_after`).
-/

namespace OpenGameAgent.Png

variable {crc32 : Crc32} {input : List UInt8}

/-! ## Tiles -/

/-- Four letters, the third of them a capital. -/
def IsChunkType (bytes : List UInt8) (type : String) : Prop :=
  ∃ first second third fourth, bytes = [first, second, third, fourth] ∧
    (∀ letter ∈ bytes, isAsciiLetter letter = true) ∧ third < 0x61 ∧
    type = String.ofList (bytes.map fun letter => Char.ofNat letter.toNat)

/-- A chunk stands at an offset: a length, a type, the data and the checksum of both. -/
structure ChunkAt (crc32 : Crc32) (input : List UInt8) (position : ℕ) (chunk : PngChunk) :
    Prop where
  offset : chunk.offset = position
  dataOffset : chunk.dataOffset = position + 8
  endOffset : chunk.endOffset = position + 12 + chunk.dataLength
  dataLength : chunk.dataLength = readUint32 input position
  valid : chunk.dataLength ≤ 0x7fffffff
  within : chunk.endOffset ≤ input.length
  type : IsChunkType ((input.drop (position + 4)).take 4) chunk.type
  crc : (crc32 ((input.drop (position + 4)).take (4 + chunk.dataLength))).toNat =
    readUint32 input (position + 8 + chunk.dataLength)

/-- Chunks that stand one behind the other, to the end of the input. -/
def Tiles (crc32 : Crc32) (input : List UInt8) : ℕ → List PngChunk → Prop
  | position, [] => position = input.length
  | position, chunk :: rest =>
    ChunkAt crc32 input position chunk ∧ Tiles crc32 input chunk.endOffset rest

theorem take_four {bytes : List UInt8} {first second third fourth : UInt8} :
    bytes.take 4 = [first, second, third, fourth] ↔
      bytes[0]? = some first ∧ bytes[1]? = some second ∧ bytes[2]? = some third ∧
        bytes[3]? = some fourth := by
  match bytes with
  | [] => simp
  | [_] => simp
  | [_, _] => simp
  | [_, _, _] => simp
  | _ :: _ :: _ :: _ :: rest => simp

/-- One letter of a type. -/
theorem readLetter_eq_ok {offset index : ℕ} {type next : String} :
    readLetter input offset type index = .ok next ↔
      ∃ value, input[offset + index]? = some value ∧ isAsciiLetter value = true ∧
        (index = 2 → value < 0x61) ∧ next = type.push (Char.ofNat value.toNat) := by
  rw [readLetter]
  cases input[offset + index]? with
  | none => simp
  | some value =>
    by_cases hbad : (!isAsciiLetter value || index = 2 && 0x61 ≤ value) = true
    · simp only [hbad, if_true, reduceCtorEq, Option.some.injEq, false_iff]
      rintro ⟨other, rfl, hletter, hcapital, -⟩
      simp only [hletter, Bool.not_true, Bool.false_or, Bool.and_eq_true, decide_eq_true_eq] at hbad
      exact absurd hbad.2 (UInt8.not_le.mpr (hcapital hbad.1))
    · simp only [hbad, Bool.false_eq_true, if_false, Except.ok.injEq, Option.some.injEq]
      simp only [Bool.or_eq_true, Bool.not_eq_true', Bool.and_eq_true, decide_eq_true_eq,
        not_or, Bool.not_eq_false, not_and, UInt8.not_le] at hbad
      constructor
      · rintro rfl
        exact ⟨value, rfl, hbad.1, hbad.2, rfl⟩
      · rintro ⟨other, rfl, -, -, rfl⟩
        rfl

theorem readChunkType_eq_ok {offset : ℕ} {type : String} :
    readChunkType input offset = .ok type ↔ IsChunkType ((input.drop offset).take 4) type := by
  rw [readChunkType, show List.range 4 = [0, 1, 2, 3] from rfl]
  simp only [List.foldlM_cons, List.foldlM_nil, bind_eq_ok, readLetter_eq_ok]
  constructor
  · rintro ⟨_, ⟨first, hfirst, hletter₁, -, rfl⟩, _, ⟨second, hsecond, hletter₂, -, rfl⟩, _,
      ⟨third, hthird, hletter₃, hcapital, rfl⟩, _, ⟨fourth, hfourth, hletter₄, -, rfl⟩, hend⟩
    cases hend
    have hbytes : (input.drop offset).take 4 = [first, second, third, fourth] := by
      rw [take_four]
      simp only [List.getElem?_drop]
      exact ⟨hfirst, hsecond, hthird, hfourth⟩
    refine ⟨first, second, third, fourth, hbytes, ?_, hcapital trivial, ?_⟩
    · rw [hbytes]
      simp [hletter₁, hletter₂, hletter₃, hletter₄]
    · rw [hbytes]
      apply String.toList_injective
      simp
  · rintro ⟨first, second, third, fourth, hbytes, hletters, hcapital, rfl⟩
    rw [hbytes] at hletters ⊢
    rw [take_four] at hbytes
    simp only [List.getElem?_drop] at hbytes
    obtain ⟨hfirst, hsecond, hthird, hfourth⟩ := hbytes
    simp only [List.mem_cons, List.not_mem_nil, or_false, forall_eq_or_imp, forall_eq] at hletters
    obtain ⟨hletter₁, hletter₂, hletter₃, hletter₄⟩ := hletters
    refine ⟨_, ⟨first, hfirst, hletter₁, nofun, rfl⟩, _, ⟨second, hsecond, hletter₂, nofun, rfl⟩, _,
      ⟨third, hthird, hletter₃, fun _ => hcapital, rfl⟩, _,
      ⟨fourth, hfourth, hletter₄, nofun, rfl⟩, ?_⟩
    refine congrArg Except.ok ?_
    apply String.toList_injective
    simp

/-- A chunk is read exactly where one stands. -/
theorem readChunk_eq_ok (hsafe : input.length ≤ maxSafeInteger) {position : ℕ} {chunk : PngChunk} :
    readChunk crc32 input position = .ok chunk ↔ ChunkAt crc32 input position chunk := by
  rw [readChunk]
  constructor
  · intro hread
    split at hread
    · cases hread
    · dsimp only at hread
      split at hread
      · cases hread
      · rename_i hlength
        split at hread
        · cases hread
        · rename_i hend
          split at hread
          · cases hread
          · rename_i type htype
            split at hread
            · cases hread
            · rename_i hcrc
              cases hread
              exact ⟨rfl, rfl, rfl, rfl, by simpa using hlength, by dsimp only; omega,
                readChunkType_eq_ok.mp htype, not_not.mp hcrc⟩
  · intro hchunk
    obtain ⟨hoffset, hdata, hend, hlength, hvalid, hwithin, htype, hcrc⟩ := hchunk
    rw [hend] at hwithin
    rw [hlength] at hvalid hwithin hcrc
    rw [if_neg (by omega)]
    dsimp only
    rw [if_neg (by omega), if_neg (by omega), readChunkType_eq_ok.mpr htype]
    dsimp only
    rw [if_neg (not_not.mpr hcrc), ← hlength]
    refine congrArg Except.ok ?_
    obtain ⟨type, offset, dataOffset, dataLength, endOffset⟩ := chunk
    simp only at hoffset hdata hend hlength
    subst hoffset hdata hend
    rfl

/-! ## The pass over a tiling -/

/-- What the pass makes of some chunks. -/
def visitAll (input : List UInt8) : Inspection → List PngChunk → Option PngInspection
  | _, [] => none
  | inspection, chunk :: rest =>
    match visit input inspection chunk with
    | .error _ => none
    | .ok (.inl inspection) => visitAll input inspection rest
    | .ok (.inr result) => if rest = [] then some result else none

/-- The pass ends at the end of the input. -/
theorem visit_ends {inspection : Inspection} {chunk : PngChunk} {result : PngInspection}
    (h : visit input inspection chunk = .ok (.inr result)) : chunk.endOffset = input.length := by
  rw [visit] at h
  dsimp only at h
  split at h
  · cases hheader : visitHeader input { inspection with chunks := inspection.chunks ++ [chunk] }
        chunk with
    | error error =>
      rw [hheader] at h
      cases h
    | ok header =>
      rw [hheader] at h
      cases h
  · split at h
    · cases h
    · split at h
      · cases h
      · rw [visitChunk] at h
        split at h
        · split at h <;> cases h
        · split at h
          · split at h
            · cases h
            · split at h <;> cases h
          · split at h
            · split at h
              · cases h
              · rename_i hend
                exact not_not.mp hend
            · cases h

/-- Behind the end of the input there is no chunk. -/
theorem tiles_end {position : ℕ} (h : position = input.length) {chunks : List PngChunk} :
    Tiles crc32 input position chunks ↔ chunks = [] := by
  cases chunks with
  | nil => exact iff_of_true h rfl
  | cons chunk rest =>
    refine iff_of_false (fun htiles => ?_) nofun
    have hend := htiles.1.endOffset
    have hwithin := htiles.1.within
    omega

/-- The loop makes of the input what the pass makes of its tiling. -/
theorem inspectFrom_eq_ok (hsafe : input.length ≤ maxSafeInteger) {chunksLeft position : ℕ}
    (hleft : input.length - position ≤ chunksLeft) {inspection : Inspection}
    {result : PngInspection} :
    inspectFrom crc32 input chunksLeft position inspection = .ok result ↔
      ∃ chunks, Tiles crc32 input position chunks ∧ visitAll input inspection chunks = some result := by
  induction chunksLeft generalizing position inspection with
  | zero =>
    refine iff_of_false nofun ?_
    rintro ⟨chunks, htiles, hvisit⟩
    cases chunks with
    | nil => cases hvisit
    | cons chunk rest =>
      have hend := htiles.1.endOffset
      have hwithin := htiles.1.within
      omega
  | succ chunksLeft ih =>
    rw [inspectFrom, bind_eq_ok]
    constructor
    · rintro ⟨chunk, hread, hresult⟩
      have hchunk := (readChunk_eq_ok hsafe).mp hread
      have hend := hchunk.endOffset
      obtain ⟨next, hvisit, hresult⟩ := bind_eq_ok.mp hresult
      cases next with
      | inl next =>
        obtain ⟨chunks, htiles, hrest⟩ := (ih (by omega)).mp hresult
        refine ⟨chunk :: chunks, ⟨hchunk, htiles⟩, ?_⟩
        rw [visitAll, hvisit]
        exact hrest
      | inr found =>
        cases hresult
        refine ⟨[chunk], ⟨hchunk, visit_ends hvisit⟩, ?_⟩
        rw [visitAll, hvisit]
        rfl
    · rintro ⟨chunks, htiles, hvisit⟩
      cases chunks with
      | nil => cases hvisit
      | cons chunk rest =>
        obtain ⟨hchunk, htiles⟩ := htiles
        have hend := hchunk.endOffset
        refine ⟨chunk, (readChunk_eq_ok hsafe).mpr hchunk, bind_eq_ok.mpr ?_⟩
        rw [visitAll] at hvisit
        cases hnext : visit input inspection chunk with
        | error error =>
          rw [hnext] at hvisit
          cases hvisit
        | ok next =>
          rw [hnext] at hvisit
          cases next with
          | inl next => exact ⟨_, rfl, (ih (by omega)).mpr ⟨rest, htiles, hvisit⟩⟩
          | inr found =>
            refine ⟨_, rfl, ?_⟩
            dsimp only at hvisit
            split at hvisit
            · cases hvisit
              rfl
            · cases hvisit

/-! ## The layout -/

/-- A chunk that is not critical. -/
def IsAncillary (chunk : PngChunk) : Prop := isCritical chunk.type = false

/-- A palette of one to 256 colours, and of no more than the bits of a pixel can tell. -/
structure PaletteOk (bitDepth colorType : ℕ) (chunk : PngChunk) : Prop where
  type : chunk.type = "PLTE"
  allowed : colorType ≠ 0 ∧ colorType ≠ 4
  nonempty : chunk.dataLength ≠ 0
  short : chunk.dataLength ≤ 768
  whole : chunk.dataLength % 3 = 0
  indexed : colorType = 3 → chunk.dataLength / 3 ≤ 2 ^ bitDepth

structure TrailerOk (input : List UInt8) (chunk : PngChunk) : Prop where
  type : chunk.type = "IEND"
  empty : chunk.dataLength = 0
  last : chunk.endOffset = input.length

/-- Behind the image data: chunks that are not critical, and the trailer. -/
def IsAfter (input : List UInt8) (chunks : List PngChunk) : Prop :=
  ∃ after trailer, chunks = after ++ [trailer] ∧ (∀ chunk ∈ after, IsAncillary chunk) ∧
    TrailerOk input trailer

/-- From inside the image data. -/
def IsImage (input : List UInt8) (chunks : List PngChunk) : Prop :=
  ∃ imageData rest, chunks = imageData ++ rest ∧ (∀ chunk ∈ imageData, chunk.type = "IDAT") ∧
    IsAfter input rest

def isPalette (chunk : PngChunk) : Bool := chunk.type = "PLTE"

/-- From behind the header, where a palette may have come: at most one palette, one where the colours
are indexed, and then image data. -/
def IsBefore (input : List UInt8) (bitDepth colorType : ℕ) (sawPalette : Bool)
    (chunks : List PngChunk) : Prop :=
  ∃ before first rest, chunks = before ++ first :: rest ∧ first.type = "IDAT" ∧
    (∀ chunk ∈ before, IsAncillary chunk ∨ PaletteOk bitDepth colorType chunk) ∧
    before.countP isPalette + sawPalette.toNat ≤ 1 ∧
    (colorType = 3 → sawPalette = true ∨ ∃ chunk ∈ before, chunk.type = "PLTE") ∧
    IsImage input rest

theorem ancillary_ne {chunk : PngChunk} (h : IsAncillary chunk) :
    chunk.type ≠ "IHDR" ∧ chunk.type ≠ "PLTE" ∧ chunk.type ≠ "IDAT" ∧ chunk.type ≠ "IEND" := by
  rw [IsAncillary] at h
  refine ⟨?_, ?_, ?_, ?_⟩ <;> rintro htype <;> rw [htype] at h <;> exact absurd h (by decide)

theorem critical_of_type {chunk : PngChunk} {type : String} (htype : chunk.type = type)
    (hcritical : isCritical type = true) : ¬ IsAncillary chunk := by
  rw [IsAncillary, htype, hcritical]
  exact Bool.noConfusion

variable {chunk : PngChunk} {rest : List PngChunk} {bitDepth colorType : ℕ} {sawPalette : Bool}

theorem isAfter_cons :
    IsAfter input (chunk :: rest) ↔
      TrailerOk input chunk ∧ rest = [] ∨ IsAncillary chunk ∧ IsAfter input rest := by
  constructor
  · rintro ⟨after, trailer, hchunks, hafter, htrailer⟩
    cases after with
    | nil =>
      cases hchunks
      exact Or.inl ⟨htrailer, rfl⟩
    | cons first after =>
      cases hchunks
      exact Or.inr ⟨hafter chunk List.mem_cons_self, after, trailer, rfl,
        fun other hother => hafter other (List.mem_cons_of_mem _ hother), htrailer⟩
  · rintro (⟨htrailer, rfl⟩ | ⟨hancillary, after, trailer, rfl, hafter, htrailer⟩)
    · exact ⟨[], chunk, rfl, nofun, htrailer⟩
    · refine ⟨chunk :: after, trailer, rfl, ?_, htrailer⟩
      intro other hother
      cases List.mem_cons.mp hother with
      | inl hfirst => exact hfirst ▸ hancillary
      | inr hmore => exact hafter other hmore

theorem isAfter_nil : ¬ IsAfter input [] := by
  rintro ⟨after, trailer, hchunks, -⟩
  exact absurd hchunks (by simp)

theorem isImage_cons :
    IsImage input (chunk :: rest) ↔
      chunk.type = "IDAT" ∧ IsImage input rest ∨ IsAfter input (chunk :: rest) := by
  constructor
  · rintro ⟨imageData, more, hchunks, himage, hafter⟩
    cases imageData with
    | nil =>
      rw [List.nil_append] at hchunks
      exact Or.inr (hchunks ▸ hafter)
    | cons first imageData =>
      cases hchunks
      exact Or.inl ⟨himage chunk List.mem_cons_self, imageData, more, rfl,
        fun other hother => himage other (List.mem_cons_of_mem _ hother), hafter⟩
  · rintro (⟨htype, imageData, more, rfl, himage, hafter⟩ | hafter)
    · refine ⟨chunk :: imageData, more, rfl, ?_, hafter⟩
      intro other hother
      cases List.mem_cons.mp hother with
      | inl hfirst => exact hfirst ▸ htype
      | inr hmore => exact himage other hmore
    · exact ⟨[], chunk :: rest, rfl, nofun, hafter⟩

theorem isPalette_of_ancillary (h : IsAncillary chunk) : isPalette chunk = false := by
  rw [isPalette, decide_eq_false_iff_not]
  exact (ancillary_ne h).2.1

theorem isPalette_of_ok (h : PaletteOk bitDepth colorType chunk) : isPalette chunk = true := by
  rw [isPalette, h.type]
  rfl

theorem isBefore_cons :
    IsBefore input bitDepth colorType sawPalette (chunk :: rest) ↔
      (chunk.type = "IDAT" ∧ (colorType = 3 → sawPalette = true) ∧ IsImage input rest) ∨
      (IsAncillary chunk ∧ IsBefore input bitDepth colorType sawPalette rest) ∨
      (sawPalette = false ∧ PaletteOk bitDepth colorType chunk ∧
        IsBefore input bitDepth colorType true rest) := by
  constructor
  · rintro ⟨before, first, more, hchunks, hfirst, hbefore, hcount, hindexed, himage⟩
    cases before with
    | nil =>
      cases hchunks
      refine Or.inl ⟨hfirst, fun hthree => ?_, himage⟩
      obtain hsaw | ⟨other, hother, -⟩ := hindexed hthree
      · exact hsaw
      · cases hother
    | cons second before =>
      cases hchunks
      have hmore := fun other hother => hbefore other (List.mem_cons_of_mem chunk hother)
      refine Or.inr ?_
      cases hbefore chunk List.mem_cons_self with
      | inl hancillary =>
        rw [List.countP_cons_of_neg (by simp [isPalette_of_ancillary hancillary])] at hcount
        refine Or.inl ⟨hancillary, before, first, more, rfl, hfirst, hmore, hcount, ?_, himage⟩
        intro hthree
        obtain hsaw | ⟨other, hother, htype⟩ := hindexed hthree
        · exact Or.inl hsaw
        · cases List.mem_cons.mp hother with
          | inl hsame => exact absurd (hsame ▸ htype) (ancillary_ne hancillary).2.1
          | inr hlater => exact Or.inr ⟨other, hlater, htype⟩
      | inr hpalette =>
        rw [List.countP_cons_of_pos (isPalette_of_ok hpalette)] at hcount
        have hnone : sawPalette = false := by
          cases sawPalette with
          | false => rfl
          | true => exact absurd hcount (by simp)
        refine Or.inr ⟨hnone, hpalette, before, first, more, rfl, hfirst, hmore, ?_,
          fun _ => Or.inl rfl, himage⟩
        rw [hnone] at hcount
        exact hcount
  · rintro (⟨htype, hindexed, himage⟩ | ⟨hancillary, before, first, more, rfl, hfirst, hbefore,
      hcount, hindexed, himage⟩ | ⟨rfl, hpalette, before, first, more, rfl, hfirst, hbefore,
      hcount, -, himage⟩)
    · refine ⟨[], chunk, rest, rfl, htype, nofun, ?_, fun hthree => Or.inl (hindexed hthree), himage⟩
      cases sawPalette <;> simp
    · refine ⟨chunk :: before, first, more, rfl, hfirst, ?_, ?_, fun hthree => ?_, himage⟩
      · intro other hother
        cases List.mem_cons.mp hother with
        | inl hsame => exact Or.inl (hsame ▸ hancillary)
        | inr hlater => exact hbefore other hlater
      · rwa [List.countP_cons_of_neg (by simp [isPalette_of_ancillary hancillary])]
      · obtain hsaw | ⟨other, hother, htype⟩ := hindexed hthree
        · exact Or.inl hsaw
        · exact Or.inr ⟨other, List.mem_cons_of_mem _ hother, htype⟩
    · refine ⟨chunk :: before, first, more, rfl, hfirst, ?_, ?_, fun _ => ?_, himage⟩
      · intro other hother
        cases List.mem_cons.mp hother with
        | inl hsame => exact Or.inr (hsame ▸ hpalette)
        | inr hlater => exact hbefore other hlater
      · rw [List.countP_cons_of_pos (isPalette_of_ok hpalette)]
        exact hcount
      · exact Or.inr ⟨chunk, List.mem_cons_self, hpalette.type⟩

theorem isBefore_nil : ¬ IsBefore input bitDepth colorType sawPalette [] := by
  rintro ⟨before, first, more, hchunks, -⟩
  exact absurd hchunks (by simp)

theorem isImage_nil : ¬ IsImage input [] := by
  rintro ⟨imageData, more, hchunks, -, hafter⟩
  obtain ⟨-, rfl⟩ := List.append_eq_nil_iff.mp hchunks.symm
  exact isAfter_nil hafter

/-! ## The flags follow the layout -/

/-- The variables when the `switch` is reached. -/
def Inspection.next (inspection : Inspection) (chunk : PngChunk) : Inspection :=
  { inspection with
    chunks := inspection.chunks ++ [chunk]
    imageDataEnded :=
      inspection.imageDataEnded || chunk.type ≠ "IDAT" && inspection.sawImageData }

/-- What is returned when some chunks more end the file. -/
def Inspection.answer (input : List UInt8) (inspection : Inspection) (chunks : List PngChunk) :
    PngInspection :=
  ⟨inspection.width, inspection.height, inspection.bitDepth, inspection.colorType,
    inspection.interlaceMethod,
    inspectAnimation input (inspection.chunks ++ chunks) inspection.width inspection.height,
    inspection.chunks ++ chunks⟩

variable {inspection : Inspection} {result : PngInspection}

theorem next_answer (inspection : Inspection) (chunk : PngChunk) (chunks : List PngChunk) :
    (inspection.next chunk).answer input chunks = inspection.answer input (chunk :: chunks) := by
  simp [Inspection.answer, Inspection.next]

theorem visit_eq (h : inspection.chunks ≠ []) (chunk : PngChunk) :
    visit input inspection chunk =
      if chunk.type = "IHDR" then .error .invalidStructure
      else if isCritical chunk.type && !criticalChunkTypes.contains chunk.type then
        .error .unknownCriticalChunk
      else visitChunk input (inspection.next chunk) chunk := by
  have hlength : (inspection.chunks ++ [chunk]).length ≠ 1 := by
    have hpos := List.length_pos_iff.mpr h
    rw [List.length_append, List.length_singleton]
    omega
  rw [visit]
  exact if_neg hlength

theorem visit_ancillary (h : inspection.chunks ≠ []) (hchunk : IsAncillary chunk) :
    visit input inspection chunk = .ok (.inl (inspection.next chunk)) := by
  obtain ⟨hheader, hpalette, himage, htrailer⟩ := ancillary_ne hchunk
  have hcritical : isCritical chunk.type = false := hchunk
  rw [visit_eq h, if_neg hheader, hcritical, visitChunk, if_neg hpalette, if_neg himage,
    if_neg htrailer]
  rfl

/-- A chunk of one of the known critical types gets to the `switch`. -/
theorem visit_known (h : inspection.chunks ≠ []) {type : String} (htype : chunk.type = type)
    (hknown : type ∈ ["PLTE", "IDAT", "IEND"]) :
    visit input inspection chunk = visitChunk input (inspection.next chunk) chunk := by
  have hheader : type ≠ "IHDR" := by
    rintro rfl
    exact absurd hknown (by decide)
  have hcontained : criticalChunkTypes.contains type = true := by
    rw [List.contains_iff_mem]
    exact List.mem_cons_of_mem _ hknown
  rw [visit_eq h, htype, if_neg hheader, hcontained, Bool.not_true, Bool.and_false]
  rfl

/-- Any other critical chunk behind the first one fails. -/
theorem visit_unknown (input : List UInt8) (h : inspection.chunks ≠ []) (hcritical : ¬ IsAncillary chunk)
    (hknown : chunk.type ∉ ["PLTE", "IDAT", "IEND"]) :
    ∃ error, visit input inspection chunk = .error error := by
  have hcritical : isCritical chunk.type = true := by
    rw [IsAncillary] at hcritical
    simpa using hcritical
  rw [visit_eq h]
  split
  · exact ⟨_, rfl⟩
  · rename_i hheader
    have hcontained : criticalChunkTypes.contains chunk.type = false := by
      rw [Bool.eq_false_iff]
      intro htrue
      cases List.mem_cons.mp (List.contains_iff_mem.mp htrue) with
      | inl hsame => exact hheader hsame
      | inr hmore => exact hknown hmore
    rw [hcritical, hcontained]
    exact ⟨_, rfl⟩

/-- The kinds of chunks that the layout tells apart. -/
theorem kinds (chunk : PngChunk) :
    IsAncillary chunk ∨ chunk.type = "PLTE" ∨ chunk.type = "IDAT" ∨ chunk.type = "IEND" ∨
      ¬ IsAncillary chunk ∧ chunk.type ∉ ["PLTE", "IDAT", "IEND"] := by
  by_cases hancillary : IsAncillary chunk
  · exact Or.inl hancillary
  · by_cases hknown : chunk.type ∈ ["PLTE", "IDAT", "IEND"]
    · simp only [List.mem_cons, List.not_mem_nil, or_false] at hknown
      obtain hpalette | himage | htrailer := hknown
      · exact Or.inr (Or.inl hpalette)
      · exact Or.inr (Or.inr (Or.inl himage))
      · exact Or.inr (Or.inr (Or.inr (Or.inl htrailer)))
    · exact Or.inr (Or.inr (Or.inr (Or.inr ⟨hancillary, hknown⟩)))

theorem visit_trailer (h : inspection.chunks ≠ []) (htype : chunk.type = "IEND")
    (hsaw : inspection.sawImageData = true) :
    visit input inspection chunk =
      if chunk.endOffset ≠ input.length then .error .trailingData
      else if chunk.dataLength ≠ 0 then .error .invalidStructure
      else .ok (.inr (inspection.answer input [chunk])) := by
  have hsaw : (inspection.next chunk).sawImageData = true := hsaw
  rw [visit_known h htype (by decide), visitChunk, htype, if_neg (by decide), if_neg (by decide),
    if_pos rfl, hsaw, Bool.not_true, Bool.or_false]
  split
  · rfl
  · split
    · rename_i hlength
      rw [if_pos (by simpa using hlength)]
    · rename_i hlength
      rw [if_neg (by simpa using hlength)]
      rfl

/-- The trailer ends the file, and is the only chunk that does. -/
theorem visitAll_trailer (h : inspection.chunks ≠ []) (htype : chunk.type = "IEND")
    (hsaw : inspection.sawImageData = true) :
    visitAll input inspection (chunk :: rest) = some result ↔
      (TrailerOk input chunk ∧ rest = []) ∧ result = inspection.answer input (chunk :: rest) := by
  rw [visitAll, visit_trailer h htype hsaw]
  constructor
  · intro hvisit
    split at hvisit
    · cases hvisit
    · rename_i hvisited
      split at hvisited
      · cases hvisited
      · split at hvisited <;> cases hvisited
    · rename_i hvisited
      split at hvisited
      · cases hvisited
      · rename_i hend
        split at hvisited
        · cases hvisited
        · rename_i hlength
          cases hvisited
          split at hvisit
          · rename_i hrest
            cases hvisit
            subst hrest
            exact ⟨⟨⟨htype, not_not.mp hlength, not_not.mp hend⟩, rfl⟩, rfl⟩
          · cases hvisit
  · rintro ⟨⟨⟨-, hlength, hend⟩, rfl⟩, rfl⟩
    rw [if_neg (not_not.mpr hend), if_neg (not_not.mpr hlength)]
    rfl

theorem next_chunks (inspection : Inspection) (chunk : PngChunk) :
    (inspection.next chunk).chunks ≠ [] := by
  simp [Inspection.next]

theorem visitAll_error {error : PngInspectionError}
    (h : visit input inspection chunk = .error error) :
    visitAll input inspection (chunk :: rest) = none := by
  rw [visitAll, h]

theorem visitAll_next {next : Inspection} (h : visit input inspection chunk = .ok (.inl next)) :
    visitAll input inspection (chunk :: rest) = visitAll input next rest := by
  rw [visitAll, h]

theorem not_after {chunks : List PngChunk} (hcritical : ¬ IsAncillary chunk)
    (htype : chunk.type ≠ "IEND") : ¬ IsAfter input (chunk :: chunks) := by
  rw [isAfter_cons]
  rintro (⟨htrailer, -⟩ | ⟨hancillary, -⟩)
  · exact htype htrailer.type
  · exact hcritical hancillary

/-- Behind the image data. -/
theorem visitAll_after {chunks : List PngChunk} (h : inspection.chunks ≠ [])
    (hsaw : inspection.sawImageData = true) (hended : inspection.imageDataEnded = true) :
    visitAll input inspection chunks = some result ↔
      IsAfter input chunks ∧ result = inspection.answer input chunks := by
  induction chunks generalizing inspection with
  | nil => exact iff_of_false nofun fun hafter => isAfter_nil hafter.1
  | cons chunk rest ih =>
    obtain hancillary | htype | htype | htype | ⟨hcritical, hknown⟩ := kinds chunk
    · have hrest := ih (next_chunks inspection chunk) hsaw
        (by simp [Inspection.next, hended])
      rw [visitAll_next (visit_ancillary h hancillary), hrest, isAfter_cons, next_answer]
      have hnot : ¬ (TrailerOk input chunk ∧ rest = []) := fun htrailer =>
        (ancillary_ne hancillary).2.2.2 htrailer.1.type
      rw [or_iff_right hnot, and_iff_right hancillary]
    · have hvisit : visit input inspection chunk = .error .invalidStructure := by
        rw [visit_known h htype (by decide), visitChunk, if_pos htype, if_pos]
        simp [Inspection.next, hsaw]
      rw [visitAll_error hvisit]
      exact iff_of_false nofun fun hafter =>
        not_after (critical_of_type htype (by decide)) (by rw [htype]; decide) hafter.1
    · have hvisit : visit input inspection chunk = .error .nonconsecutiveIdat := by
        rw [visit_known h htype (by decide), visitChunk, htype, if_neg (by decide), if_pos rfl, if_pos]
        simp [Inspection.next, hended]
      rw [visitAll_error hvisit]
      exact iff_of_false nofun fun hafter =>
        not_after (critical_of_type htype (by decide)) (by rw [htype]; decide) hafter.1
    · rw [visitAll_trailer h htype hsaw, isAfter_cons]
      have hnot : ¬ (IsAncillary chunk ∧ IsAfter input rest) := fun hancillary =>
        critical_of_type htype (by decide) hancillary.1
      rw [or_iff_left hnot]
    · obtain ⟨error, hvisit⟩ := visit_unknown input h hcritical hknown
      rw [visitAll_error hvisit]
      exact iff_of_false nofun fun hafter => not_after hcritical
        (fun htype => hknown (by rw [htype]; decide)) hafter.1

/-- Inside the image data. -/
theorem visitAll_image {chunks : List PngChunk} (h : inspection.chunks ≠ [])
    (hsaw : inspection.sawImageData = true) (hended : inspection.imageDataEnded = false)
    (hindexed : inspection.colorType = 3 → inspection.sawPalette = true) :
    visitAll input inspection chunks = some result ↔
      IsImage input chunks ∧ result = inspection.answer input chunks := by
  induction chunks generalizing inspection with
  | nil => exact iff_of_false nofun fun himage => isImage_nil himage.1
  | cons chunk rest ih =>
    rw [isImage_cons]
    obtain hancillary | htype | htype | htype | ⟨hcritical, hknown⟩ := kinds chunk
    · have hended : (inspection.next chunk).imageDataEnded = true := by
        simp [Inspection.next, hsaw, (ancillary_ne hancillary).2.2.1]
      rw [visitAll_next (visit_ancillary h hancillary),
        visitAll_after (next_chunks inspection chunk) hsaw hended, next_answer, isAfter_cons]
      have hnot : ¬ (TrailerOk input chunk ∧ rest = []) := fun htrailer =>
        (ancillary_ne hancillary).2.2.2 htrailer.1.type
      have hnotImage : ¬ (chunk.type = "IDAT" ∧ IsImage input rest) := fun himage =>
        (ancillary_ne hancillary).2.2.1 himage.1
      rw [or_iff_right hnotImage, or_iff_right hnot, and_iff_right hancillary]
    · have hvisit : visit input inspection chunk = .error .invalidStructure := by
        rw [visit_known h htype (by decide), visitChunk, if_pos htype, if_pos]
        simp [Inspection.next, hsaw]
      rw [visitAll_error hvisit]
      refine iff_of_false nofun ?_
      rintro ⟨⟨himage, -⟩ | hafter, -⟩
      · rw [htype] at himage
        exact absurd himage (by decide)
      · exact not_after (critical_of_type htype (by decide)) (by rw [htype]; decide) hafter
    · have hvisit : visit input inspection chunk =
          .ok (.inl { inspection.next chunk with sawImageData := true }) := by
        have hpalette : (inspection.next chunk).colorType = 3 →
            (inspection.next chunk).sawPalette = true := hindexed
        rw [visit_known h htype (by decide), visitChunk, htype, if_neg (by decide), if_pos rfl,
          if_neg, if_neg]
        · simpa using hpalette
        · simp [Inspection.next, hended, htype]
      have hrest := @ih { inspection.next chunk with sawImageData := true }
        (next_chunks inspection chunk) rfl (by simp [Inspection.next, hended, htype]) hindexed
      rw [visitAll_next hvisit, hrest]
      have hnot : ¬ IsAfter input (chunk :: rest) :=
        not_after (critical_of_type htype (by decide)) (by rw [htype]; decide)
      rw [or_iff_left hnot, and_iff_right htype]
      exact Iff.and Iff.rfl (by rw [← next_answer]; rfl)
    · rw [visitAll_trailer h htype hsaw, isAfter_cons]
      have hnot : ¬ (IsAncillary chunk ∧ IsAfter input rest) := fun hancillary =>
        critical_of_type htype (by decide) hancillary.1
      have hnotImage : ¬ (chunk.type = "IDAT" ∧ IsImage input rest) := by
        rintro ⟨himage, -⟩
        rw [htype] at himage
        exact absurd himage (by decide)
      rw [or_iff_right hnotImage, or_iff_left hnot]
    · obtain ⟨error, hvisit⟩ := visit_unknown input h hcritical hknown
      rw [visitAll_error hvisit]
      refine iff_of_false nofun ?_
      rintro ⟨⟨himage, -⟩ | hafter, -⟩
      · exact hknown (by rw [himage]; decide)
      · exact not_after hcritical (fun htype => hknown (by rw [htype]; decide)) hafter

/-- What the `switch` asks of a palette before the image data. -/
theorem visit_palette (input : List UInt8) (h : inspection.chunks ≠ []) (htype : chunk.type = "PLTE")
    (hsaw : inspection.sawImageData = false) :
    (inspection.sawPalette = false ∧ PaletteOk inspection.bitDepth inspection.colorType chunk ∧
      visit input inspection chunk =
        .ok (.inl { inspection.next chunk with sawPalette := true })) ∨
    ¬ (inspection.sawPalette = false ∧
        PaletteOk inspection.bitDepth inspection.colorType chunk) ∧
      visit input inspection chunk = .error .invalidStructure := by
  have hsaw : (inspection.next chunk).sawImageData = false := hsaw
  have hpalette : (inspection.next chunk).sawPalette = inspection.sawPalette := rfl
  have hcolor : (inspection.next chunk).colorType = inspection.colorType := rfl
  have hdepth : (inspection.next chunk).bitDepth = inspection.bitDepth := rfl
  rw [visit_known h htype (by decide), visitChunk, if_pos htype]
  split
  · rename_i hbad
    rw [hsaw, hpalette, hcolor, hdepth] at hbad
    refine Or.inr ⟨?_, rfl⟩
    rintro ⟨hnone, hok⟩
    have hallowed := hok.allowed
    have hnonempty := hok.nonempty
    have hshort := hok.short
    have hwhole := hok.whole
    have hindexed := hok.indexed
    simp [hnone, hallowed, hnonempty, hwhole] at hbad
    omega
  · rename_i hgood
    rw [hsaw, hpalette, hcolor, hdepth] at hgood
    simp only [Bool.or_eq_true, Bool.and_eq_true, decide_eq_true_eq, not_or, not_and,
      Bool.not_eq_true, not_lt, ne_eq, not_not] at hgood
    obtain ⟨⟨⟨⟨⟨⟨⟨hnone, -⟩, hzero⟩, hfour⟩, hnonempty⟩, hshort⟩, hwhole⟩, hindexed⟩ := hgood
    exact Or.inl ⟨hnone, ⟨htype, ⟨hzero, hfour⟩, hnonempty, hshort, hwhole, hindexed⟩, rfl⟩

/-- Before the image data. -/
theorem visitAll_before {chunks : List PngChunk} (h : inspection.chunks ≠ [])
    (hsaw : inspection.sawImageData = false) (hended : inspection.imageDataEnded = false) :
    visitAll input inspection chunks = some result ↔
      IsBefore input inspection.bitDepth inspection.colorType inspection.sawPalette chunks ∧
        result = inspection.answer input chunks := by
  induction chunks generalizing inspection with
  | nil => exact iff_of_false nofun fun hbefore => isBefore_nil hbefore.1
  | cons chunk rest ih =>
    rw [isBefore_cons]
    obtain hancillary | htype | htype | htype | ⟨hcritical, hknown⟩ := kinds chunk
    · have hrest := ih (next_chunks inspection chunk) hsaw
        (by simp [Inspection.next, hsaw, hended])
      have hnotImage : ¬ (chunk.type = "IDAT" ∧
          (inspection.colorType = 3 → inspection.sawPalette = true) ∧ IsImage input rest) :=
        fun himage => (ancillary_ne hancillary).2.2.1 himage.1
      have hnotPalette : ¬ (inspection.sawPalette = false ∧
          PaletteOk inspection.bitDepth inspection.colorType chunk ∧
          IsBefore input inspection.bitDepth inspection.colorType true rest) :=
        fun hpalette => (ancillary_ne hancillary).2.1 hpalette.2.1.type
      rw [visitAll_next (visit_ancillary h hancillary), hrest, next_answer,
        or_iff_right hnotImage, or_iff_left hnotPalette, and_iff_right hancillary]
      rfl
    · have hnotImage : ¬ (chunk.type = "IDAT" ∧
          (inspection.colorType = 3 → inspection.sawPalette = true) ∧ IsImage input rest) := by
        rintro ⟨himage, -⟩
        rw [htype] at himage
        exact absurd himage (by decide)
      have hnot : ¬ (IsAncillary chunk ∧ IsBefore input inspection.bitDepth
          inspection.colorType inspection.sawPalette rest) := fun hancillary =>
        critical_of_type htype (by decide) hancillary.1
      rw [or_iff_right hnotImage, or_iff_right hnot]
      obtain ⟨hnone, hok, hvisit⟩ | ⟨hbad, hvisit⟩ := visit_palette input h htype hsaw
      · have hrest := @ih { inspection.next chunk with sawPalette := true }
          (next_chunks inspection chunk) hsaw (by simp [Inspection.next, hsaw, hended])
        rw [visitAll_next hvisit, hrest, and_iff_right hnone, and_iff_right hok]
        exact Iff.and Iff.rfl (by rw [← next_answer]; rfl)
      · rw [visitAll_error hvisit]
        exact iff_of_false nofun fun hpalette => hbad ⟨hpalette.1.1, hpalette.1.2.1⟩
    · have hnot : ¬ (IsAncillary chunk ∧ IsBefore input inspection.bitDepth
          inspection.colorType inspection.sawPalette rest) := fun hancillary =>
        critical_of_type htype (by decide) hancillary.1
      have hnotPalette : ¬ (inspection.sawPalette = false ∧
          PaletteOk inspection.bitDepth inspection.colorType chunk ∧
          IsBefore input inspection.bitDepth inspection.colorType true rest) := by
        rintro ⟨-, hok, -⟩
        have hpalette := hok.type
        rw [htype] at hpalette
        exact absurd hpalette (by decide)
      have hended : (inspection.next chunk).imageDataEnded = false := by
        simp [Inspection.next, hended, htype]
      rw [or_iff_left (not_or.mpr ⟨hnot, hnotPalette⟩), and_iff_right htype]
      by_cases hindexed : inspection.colorType = 3 → inspection.sawPalette = true
      · have hvisit : visit input inspection chunk =
            .ok (.inl { inspection.next chunk with sawImageData := true }) := by
          have hpalette : (inspection.next chunk).colorType = 3 →
              (inspection.next chunk).sawPalette = true := hindexed
          rw [visit_known h htype (by decide), visitChunk, htype, if_neg (by decide), if_pos rfl,
            if_neg, if_neg]
          · simpa using hpalette
          · simpa using hended
        have hrest := @visitAll_image input { inspection.next chunk with sawImageData := true }
          result rest (next_chunks inspection chunk) rfl hended hindexed
        rw [visitAll_next hvisit, hrest, and_iff_right hindexed]
        exact Iff.and Iff.rfl (by rw [← next_answer]; rfl)
      · have hvisit : visit input inspection chunk = .error .invalidStructure := by
          have hpalette : ¬ ((inspection.next chunk).colorType = 3 →
              (inspection.next chunk).sawPalette = true) := hindexed
          rw [visit_known h htype (by decide), visitChunk, htype, if_neg (by decide), if_pos rfl,
            if_neg, if_pos]
          · simpa using hpalette
          · simpa using hended
        rw [visitAll_error hvisit]
        exact iff_of_false nofun fun himage => hindexed himage.1.1
    · have hsaw : (inspection.next chunk).sawImageData = false := hsaw
      have hvisit : ∃ error, visit input inspection chunk = .error error := by
        rw [visit_known h htype (by decide), visitChunk, htype, if_neg (by decide),
          if_neg (by decide), if_pos rfl]
        split
        · exact ⟨_, rfl⟩
        · rw [if_pos (by simp [hsaw])]
          exact ⟨_, rfl⟩
      obtain ⟨error, hvisit⟩ := hvisit
      rw [visitAll_error hvisit]
      refine iff_of_false nofun ?_
      rintro ⟨⟨himage, -⟩ | ⟨hancillary, -⟩ | ⟨-, hok, -⟩, -⟩
      · rw [htype] at himage
        exact absurd himage (by decide)
      · exact critical_of_type htype (by decide) hancillary
      · have hpalette := hok.type
        rw [htype] at hpalette
        exact absurd hpalette (by decide)
    · obtain ⟨error, hvisit⟩ := visit_unknown input h hcritical hknown
      rw [visitAll_error hvisit]
      refine iff_of_false nofun ?_
      rintro ⟨⟨himage, -⟩ | ⟨hancillary, -⟩ | ⟨-, hok, -⟩, -⟩
      · exact hknown (by rw [himage]; decide)
      · exact hcritical hancillary
      · exact hknown (by rw [hok.type]; decide)

end OpenGameAgent.Png
