import OpenGameAgent.Png.PngAnimationRules
import OpenGameAgent.Png.PngGrammar

/-!
# What is a PNG file

`IsPng` puts the tiling and the layout together, with the header that stands first.  `inspectPng`
lets pass exactly the files that are one, and returns their tiling, what the header declares and
whether the animation keeps the rules (`inspectPng_accepts`).
-/

namespace OpenGameAgent.Png

variable {crc32 : Crc32} {input : List UInt8}

/-! ## The header -/

/-- The depths that go with a colour type. -/
def bitDepths : List (ℕ × ℕ) :=
  [(0, 1), (0, 2), (0, 4), (0, 8), (0, 16), (2, 8), (2, 16), (3, 1), (3, 2), (3, 4), (3, 8),
    (4, 8), (4, 16), (6, 8), (6, 16)]

/-- A header of thirteen bytes. -/
structure HeaderOk (input : List UInt8) (chunk : PngChunk)
    (width height bitDepth colorType interlaceMethod : ℕ) : Prop where
  type : chunk.type = "IHDR"
  dataLength : chunk.dataLength = 13
  declaredWidth : readPngUint31 input chunk.dataOffset = some width
  declaredHeight : readPngUint31 input (chunk.dataOffset + 4) = some height
  nonempty : 0 < width ∧ 0 < height
  declaredDepth : input[chunk.dataOffset + 8]?.map UInt8.toNat = some bitDepth
  declaredColor : input[chunk.dataOffset + 9]?.map UInt8.toNat = some colorType
  allowed : (colorType, bitDepth) ∈ bitDepths
  compression : input[chunk.dataOffset + 10]? = some 0
  filter : input[chunk.dataOffset + 11]? = some 0
  declaredInterlace : input[chunk.dataOffset + 12]?.map UInt8.toNat = some interlaceMethod
  interlace : interlaceMethod ≤ 1

theorem isValidBitDepth_iff {bitDepth colorType : ℕ} :
    isValidBitDepth bitDepth colorType = true ↔ (colorType, bitDepth) ∈ bitDepths := by
  unfold isValidBitDepth bitDepths
  split
  · simp
  · simp
  · simp
  · simp
  · simp
  · rename_i hgray hcolor halpha hboth hindexed
    refine iff_of_false nofun fun hmem => ?_
    have hknown : colorType ∈ [0, 2, 4, 6, 3] := by
      simp only [List.mem_cons, Prod.mk.injEq, List.not_mem_nil, or_false] at hmem ⊢
      omega
    simp only [List.mem_cons, List.not_mem_nil, or_false] at hknown
    exact hknown.elim hgray fun hknown => hknown.elim hcolor fun hknown => hknown.elim halpha
      fun hknown => hknown.elim hboth hindexed

/-- An interlace method that is none of the two. -/
theorem interlace_iff {interlaceMethod : UInt8} :
    (interlaceMethod ≠ 0 && interlaceMethod ≠ 1) = false ↔ interlaceMethod.toNat ≤ 1 := by
  simp only [Bool.and_eq_false_iff, decide_eq_false_iff_not, ne_eq, not_not, ← UInt8.toNat_inj,
    UInt8.reduceToNat]
  omega

/-- What the first chunk makes of the variables. -/
theorem visitHeader_eq_ok {inspection next : Inspection} {chunk : PngChunk} :
    visitHeader input inspection chunk = .ok next ↔
      HeaderOk input chunk next.width next.height next.bitDepth next.colorType
          next.interlaceMethod ∧
        next = { inspection with
          width := next.width, height := next.height, bitDepth := next.bitDepth,
          colorType := next.colorType, interlaceMethod := next.interlaceMethod } := by
  rw [visitHeader]
  constructor
  · intro hvisit
    split at hvisit
    · cases hvisit
    · rename_i htype
      split at hvisit
      · rename_i width height bitDepth colorType interlaceMethod hwidth hheight hdepth hcolor
          hinterlace
        split at hvisit
        · cases hvisit
        · rename_i hgood
          cases hvisit
          simp only [Bool.or_eq_true, decide_eq_true_eq, Bool.not_eq_true', not_or,
            Bool.not_eq_false, ne_eq, not_not, Bool.not_eq_true] at hgood
          obtain ⟨⟨⟨⟨⟨hwide, hhigh⟩, hvalid⟩, hcompression⟩, hfilter⟩, hmethod⟩ := hgood
          refine ⟨⟨?_, ?_, hwidth, hheight, ⟨Nat.pos_of_ne_zero hwide, Nat.pos_of_ne_zero hhigh⟩,
            ?_, ?_, isValidBitDepth_iff.mp hvalid, hcompression, hfilter, ?_,
            interlace_iff.mp hmethod⟩, rfl⟩
          · exact not_not.mp fun hne => htype (Or.inl hne)
          · exact not_not.mp fun hne => htype (Or.inr hne)
          · rw [hdepth]
            rfl
          · rw [hcolor]
            rfl
          · rw [hinterlace]
            rfl
      · cases hvisit
  · rintro ⟨hok, hnext⟩
    obtain ⟨bitDepth, hdepth, hdepthNat⟩ := Option.map_eq_some_iff.mp hok.declaredDepth
    obtain ⟨colorType, hcolor, hcolorNat⟩ := Option.map_eq_some_iff.mp hok.declaredColor
    obtain ⟨interlaceMethod, hinterlace, hinterlaceNat⟩ :=
      Option.map_eq_some_iff.mp hok.declaredInterlace
    have hvalid := isValidBitDepth_iff.mpr hok.allowed
    have hmethod := hok.interlace
    rw [← hdepthNat, ← hcolorNat] at hvalid
    rw [← hinterlaceNat] at hmethod
    rw [if_neg (by simp [hok.type, hok.dataLength]), hok.declaredWidth, hok.declaredHeight, hdepth, hcolor,
      hinterlace]
    dsimp only
    rw [hvalid, hok.compression, hok.filter, interlace_iff.mpr hmethod, if_neg, hdepthNat, hcolorNat,
      hinterlaceNat]
    · exact congrArg Except.ok hnext.symm
    · simp [hok.nonempty.1.ne', hok.nonempty.2.ne']

/-! ## The whole -/

/-- The header, what stands before the image data, a run of image data, what stands behind it, and
the trailer. -/
def HasLayout (input : List UInt8) (chunks : List PngChunk)
    (width height bitDepth colorType interlaceMethod : ℕ) : Prop :=
  ∃ header before imageData after trailer,
    chunks = header :: (before ++ imageData ++ after ++ [trailer]) ∧
    HeaderOk input header width height bitDepth colorType interlaceMethod ∧
    (∀ chunk ∈ before, IsAncillary chunk ∨ PaletteOk bitDepth colorType chunk) ∧
    before.countP isPalette ≤ 1 ∧
    (colorType = 3 → ∃ chunk ∈ before, chunk.type = "PLTE") ∧
    imageData ≠ [] ∧ (∀ chunk ∈ imageData, chunk.type = "IDAT") ∧
    (∀ chunk ∈ after, IsAncillary chunk) ∧ TrailerOk input trailer

/-- The input is a PNG file of some chunks, whose header declares some values. -/
structure IsPng (crc32 : Crc32) (input : List UInt8) (chunks : List PngChunk)
    (width height bitDepth colorType interlaceMethod : ℕ) : Prop where
  signed : input.take signature.length = signature
  tiles : Tiles crc32 input signature.length chunks
  layout : HasLayout input chunks width height bitDepth colorType interlaceMethod

/-- The layout, in the parts that the pass goes through. -/
theorem hasLayout_iff {chunks : List PngChunk}
    {width height bitDepth colorType interlaceMethod : ℕ} :
    HasLayout input chunks width height bitDepth colorType interlaceMethod ↔
      ∃ header rest, chunks = header :: rest ∧
        HeaderOk input header width height bitDepth colorType interlaceMethod ∧
        IsBefore input bitDepth colorType false rest := by
  constructor
  · rintro ⟨header, before, imageData, after, trailer, rfl, hheader, hbefore, hcount, hindexed,
      hnonempty, himage, hafter, htrailer⟩
    obtain ⟨first, more, rfl⟩ := List.exists_cons_of_ne_nil hnonempty
    refine ⟨header, _, rfl, hheader, before, first, more ++ (after ++ [trailer]), by simp,
      himage first List.mem_cons_self, hbefore, hcount, fun hthree => Or.inr (hindexed hthree),
      more, after ++ [trailer], rfl, ?_, after, trailer, rfl, hafter, htrailer⟩
    intro chunk hchunk
    exact himage chunk (List.mem_cons_of_mem _ hchunk)
  · rintro ⟨header, rest, rfl, hheader, before, first, _, rfl, hfirst, hbefore, hcount, hindexed,
      imageData, _, rfl, himage, after, trailer, rfl, hafter, htrailer⟩
    refine ⟨header, before, first :: imageData, after, trailer, by simp, hheader, hbefore, hcount,
      ?_, List.cons_ne_nil _ _, ?_, hafter, htrailer⟩
    · intro hthree
      cases hindexed hthree with
      | inl hsaw => cases hsaw
      | inr hpalette => exact hpalette
    · intro chunk hchunk
      cases List.mem_cons.mp hchunk with
      | inl hsame => rwa [hsame]
      | inr hmore => exact himage chunk hmore

/-- The pass over all chunks. -/
theorem visitAll_start {chunks : List PngChunk} {result : PngInspection} :
    visitAll input .start chunks = some result ↔
      HasLayout input chunks result.width result.height result.bitDepth result.colorType
          result.interlaceMethod ∧
        result.animation = inspectAnimation input chunks result.width result.height ∧
        result.chunks = chunks := by
  rw [hasLayout_iff]
  cases chunks with
  | nil =>
    refine iff_of_false nofun ?_
    rintro ⟨⟨header, rest, hchunks, -⟩, -⟩
    cases hchunks
  | cons header rest =>
    have hvisit : visit input .start header =
        (visitHeader input { Inspection.start with chunks := [header] } header).map .inl := rfl
    rw [visitAll, hvisit]
    constructor
    · intro hall
      cases hheader : visitHeader input { Inspection.start with chunks := [header] } header with
      | error error =>
        rw [hheader] at hall
        cases hall
      | ok next =>
        rw [hheader] at hall
        obtain ⟨hok, hnext⟩ := visitHeader_eq_ok.mp hheader
        have hchunks : next.chunks = [header] := by rw [hnext]
        have hpalette : next.sawPalette = false := by rw [hnext]; rfl
        have himage : next.sawImageData = false := by rw [hnext]; rfl
        have hended : next.imageDataEnded = false := by rw [hnext]; rfl
        have hrest : visitAll input next rest = some result := hall
        obtain ⟨hbefore, rfl⟩ :=
          (visitAll_before (by rw [hchunks]; exact List.cons_ne_nil _ _) himage hended).mp hrest
        rw [hpalette] at hbefore
        refine ⟨⟨header, rest, rfl, hok, hbefore⟩, ?_, ?_⟩
        · simp only [Inspection.answer, hchunks, List.singleton_append]
        · simp only [Inspection.answer, hchunks, List.singleton_append]
    · rintro ⟨⟨_, _, hchunks, hok, hbefore⟩, hanimation, hall⟩
      cases hchunks
      have hheader : visitHeader input { Inspection.start with chunks := [header] } header =
          .ok ⟨[header], result.width, result.height, result.bitDepth, result.colorType,
            result.interlaceMethod, false, false, false⟩ := visitHeader_eq_ok.mpr ⟨hok, rfl⟩
      rw [hheader]
      refine (visitAll_before (List.cons_ne_nil _ _) rfl rfl).mpr ⟨hbefore, ?_⟩
      obtain ⟨width, height, bitDepth, colorType, interlaceMethod, animation, chunks⟩ := result
      simp only at hall hanimation
      rw [hall, hanimation]
      rfl

theorem hasSignature_iff : hasSignature input = true ↔ input.take signature.length = signature := by
  rw [hasSignature, Bool.and_eq_true, decide_eq_true_eq, decide_eq_true_eq]
  refine and_iff_right_of_imp fun htake => ?_
  have hlength := congrArg List.length htake
  rw [List.length_take] at hlength
  omega

/-- What is accepted. -/
theorem inspectPng_eq_ok {limits : PngInspectionLimits} (hsize : input.length ≤ limits.maxBytes)
    {result : PngInspection} :
    inspectPng crc32 input limits = .ok result ↔
      IsPng crc32 input result.chunks result.width result.height result.bitDepth result.colorType
          result.interlaceMethod ∧
        result.animation = inspectAnimation input result.chunks result.width result.height := by
  have hsafe := hsize.trans limits.safe
  rw [inspectPng, if_neg (Nat.not_lt.mpr hsize)]
  constructor
  · intro hresult
    split at hresult
    · cases hresult
    · rename_i hsigned
      obtain ⟨chunks, htiles, hvisit⟩ :=
        (inspectFrom_eq_ok hsafe (Nat.sub_le _ _)).mp hresult
      obtain ⟨hlayout, hanimation, rfl⟩ := visitAll_start.mp hvisit
      exact ⟨⟨hasSignature_iff.mp (by simpa using hsigned), htiles, hlayout⟩, hanimation⟩
  · rintro ⟨⟨hsigned, htiles, hlayout⟩, hanimation⟩
    rw [hasSignature_iff.mpr hsigned]
    exact (inspectFrom_eq_ok hsafe (Nat.sub_le _ _)).mpr
      ⟨result.chunks, htiles, visitAll_start.mpr ⟨hlayout, hanimation, rfl⟩⟩

/-! ## One tiling -/

theorem chunkAt_unique {position : ℕ} {left right : PngChunk}
    (hleft : ChunkAt crc32 input position left) (hright : ChunkAt crc32 input position right) :
    left = right := by
  have htype : left.type = right.type := by
    obtain ⟨-, -, -, -, -, -, -, htype⟩ := hleft.type
    obtain ⟨-, -, -, -, -, -, -, htype'⟩ := hright.type
    rw [htype, htype']
  have hlength := hleft.dataLength.trans hright.dataLength.symm
  have hend := hleft.endOffset
  rw [hlength, ← hright.endOffset] at hend
  obtain ⟨type, offset, dataOffset, dataLength, endOffset⟩ := left
  have hoffset := hleft.offset.trans hright.offset.symm
  have hdata := hleft.dataOffset.trans hright.dataOffset.symm
  simp only at htype hlength hend hoffset hdata
  rw [htype, hlength, hend, hoffset, hdata]

/-- A file is tiled in one way only. -/
theorem tiles_unique {position : ℕ} {left right : List PngChunk}
    (hleft : Tiles crc32 input position left) (hright : Tiles crc32 input position right) :
    left = right := by
  induction left generalizing position right with
  | nil => exact ((tiles_end hleft).mp hright).symm
  | cons chunk rest ih =>
    cases right with
    | nil => exact (tiles_end hright).mp hleft
    | cons other more =>
      have hsame := chunkAt_unique hleft.1 hright.1
      rw [← hsame]
      have hmore := hright.2
      rw [← hsame] at hmore
      rw [ih hleft.2 hmore]

/-! ## What is accepted -/

/-- `inspectPng` accepts exactly the PNG files, returns their tiling, and calls an animation valid
exactly where its rules hold. -/
theorem inspectPng_accepts (crc32 : Crc32) (input : List UInt8) (limits : PngInspectionLimits)
    (hsize : input.length ≤ limits.maxBytes) :
    ((∃ inspection, inspectPng crc32 input limits = .ok inspection) ↔
      ∃ chunks width height bitDepth colorType interlaceMethod,
        IsPng crc32 input chunks width height bitDepth colorType interlaceMethod) ∧
    ∀ inspection, inspectPng crc32 input limits = .ok inspection →
      IsPng crc32 input inspection.chunks inspection.width inspection.height inspection.bitDepth
        inspection.colorType inspection.interlaceMethod ∧
      (∀ chunks, Tiles crc32 input signature.length chunks → chunks = inspection.chunks) ∧
      (inspection.animation = none ↔
        ∀ chunk ∈ inspection.chunks, chunk.type ∉ ["acTL", "fcTL", "fdAT"]) ∧
      ∀ frameCount playCount, inspection.animation = some (.valid frameCount playCount) ↔
        AnimationOk input inspection.chunks inspection.width inspection.height frameCount
          playCount := by
  constructor
  · constructor
    · rintro ⟨inspection, haccepted⟩
      exact ⟨_, _, _, _, _, _, ((inspectPng_eq_ok hsize).mp haccepted).1⟩
    · rintro ⟨chunks, width, height, bitDepth, colorType, interlaceMethod, hpng⟩
      exact ⟨⟨width, height, bitDepth, colorType, interlaceMethod,
        inspectAnimation input chunks width height, chunks⟩, (inspectPng_eq_ok hsize).mpr ⟨hpng, rfl⟩⟩
  · intro inspection haccepted
    obtain ⟨hpng, hanimation⟩ := (inspectPng_eq_ok hsize).mp haccepted
    refine ⟨hpng, fun chunks htiles => tiles_unique htiles hpng.tiles, ?_, ?_⟩
    · rw [hanimation, inspectAnimation_eq_none]
      simp [isAnimationChunk, and_assoc]
    · intro frameCount playCount
      rw [hanimation, inspectAnimation_eq_valid]

/-- CRC-32, bit by bit. -/
def ieeeCrc32 : Crc32 := fun bytes =>
  bytes.foldl (fun (crc : UInt32) byte =>
    (List.range 8).foldl
      (fun (crc : UInt32) _ => if crc % 2 = 1 then (crc >>> 1) ^^^ 0xedb88320 else crc >>> 1)
      (crc ^^^ byte.toUInt32)) 0xffffffff ^^^ 0xffffffff

/-- One black pixel. -/
def pixel : List UInt8 :=
  signature ++
    [0, 0, 0, 13, 73, 72, 68, 82, 0, 0, 0, 1, 0, 0, 0, 1, 8, 0, 0, 0,
    0, 58, 126, 155, 85, 0, 0, 0, 10, 73, 68, 65, 84, 120, 156, 99, 96, 0, 0, 0,
    2, 0, 1, 72, 175, 164, 113, 0, 0, 0, 0, 73, 69, 78, 68, 174, 66, 96, 130]

/-- The limits of a file of at most a kilobyte. -/
def kilobyte : PngInspectionLimits := ⟨1024, by decide, by decide⟩

theorem inspectPng_accepts_pixel :
    IsPng ieeeCrc32 pixel [⟨"IHDR", 8, 16, 13, 33⟩, ⟨"IDAT", 33, 41, 10, 55⟩,
      ⟨"IEND", 55, 63, 0, 67⟩] 1 1 8 0 0 :=
  ((inspectPng_accepts ieeeCrc32 pixel kilobyte (by decide)).2
    ⟨1, 1, 8, 0, 0, none, [⟨"IHDR", 8, 16, 13, 33⟩, ⟨"IDAT", 33, 41, 10, 55⟩,
      ⟨"IEND", 55, 63, 0, 67⟩]⟩
    (by decide +kernel)).1

end OpenGameAgent.Png
