import OpenGameAgent.Protocol.Json

/-!
# Inspecting a PNG file

`packages/png/src/png.ts`: `inspectPng` reads the chunks of a file in one pass, checks their order
with a few flags, and then goes through the chunks of an animation.  `crc32` of the runtime is a
parameter.
-/

namespace OpenGameAgent.Png

inductive PngInspectionError where
  | inputTooLarge
  | invalidSignature
  | truncatedChunk
  | invalidChunkType
  | invalidCrc
  | trailingData
  | unknownCriticalChunk
  | nonconsecutiveIdat
  | invalidStructure
deriving DecidableEq

structure PngChunk where
  type : String
  offset : ℕ
  dataOffset : ℕ
  dataLength : ℕ
  endOffset : ℕ
deriving DecidableEq

inductive PngAnimation where
  | valid (frameCount playCount : ℕ)
  | invalid
deriving DecidableEq

structure PngInspection where
  width : ℕ
  height : ℕ
  bitDepth : ℕ
  colorType : ℕ
  interlaceMethod : ℕ
  animation : Option PngAnimation
  chunks : List PngChunk
deriving DecidableEq

/-- The limits that `captureLimits` lets pass. -/
structure PngInspectionLimits where
  maxBytes : ℕ
  positive : 1 ≤ maxBytes
  safe : maxBytes ≤ maxSafeInteger

def signature : List UInt8 := [137, 80, 78, 71, 13, 10, 26, 10]

def criticalChunkTypes : List String := ["IHDR", "PLTE", "IDAT", "IEND"]

/-- A checksum of some bytes. -/
abbrev Crc32 := List UInt8 → UInt32

variable (crc32 : Crc32) (input : List UInt8)

/-! ## Reading -/

def hasSignature : Bool := signature.length ≤ input.length && input.take signature.length = signature

def isAsciiLetter (value : UInt8) : Bool :=
  0x41 ≤ value && value ≤ 0x5a || 0x61 ≤ value && value ≤ 0x7a

/-- The body of the loop of `readChunkType`. -/
def readLetter (offset : ℕ) (type : String) (index : ℕ) : Except PngInspectionError String :=
  match input[offset + index]? with
  | none => .error .invalidChunkType
  | some value =>
    if !isAsciiLetter value || index = 2 && 0x61 ≤ value then .error .invalidChunkType
    else .ok (type.push (Char.ofNat value.toNat))

def readChunkType (offset : ℕ) : Except PngInspectionError String :=
  (List.range 4).foldlM (readLetter input offset) ""

def isCritical (type : String) : Bool :=
  type.toList.head?.any fun first => 'A' ≤ first && first ≤ 'Z'

/-- `input[offset] ?? 0`. -/
def byteAt (offset : ℕ) : ℕ := ((input[offset]?).map UInt8.toNat).getD 0

def readUint32 (offset : ℕ) : ℕ :=
  -- the constants stand in front, since a product unfolds along its second factor
  (0x1000000 * byteAt input offset + 0x10000 * byteAt input (offset + 1) +
    0x100 * byteAt input (offset + 2) + byteAt input (offset + 3)) % 2 ^ 32

def readPngUint31 (offset : ℕ) : Option ℕ :=
  let value := readUint32 input offset
  if value ≤ 0x7fffffff then some value else none

def isValidBitDepth (bitDepth colorType : ℕ) : Bool :=
  match colorType with
  | 0 => [1, 2, 4, 8, 16].contains bitDepth
  | 2 | 4 | 6 => [8, 16].contains bitDepth
  | 3 => [1, 2, 4, 8].contains bitDepth
  | _ => false

def isValidFrameControl (offset canvasWidth canvasHeight : ℕ) (isDefaultImageFrame : Bool) : Bool :=
  match readPngUint31 input (offset + 4), readPngUint31 input (offset + 8),
    readPngUint31 input (offset + 12), readPngUint31 input (offset + 16) with
  | some width, some height, some xOffset, some yOffset =>
    0 < width && 0 < height && width ≤ canvasWidth && height ≤ canvasHeight &&
      xOffset ≤ canvasWidth - width && yOffset ≤ canvasHeight - height &&
      [some 0, some 1, some 2].contains input[offset + 24]? &&
      [some 0, some 1].contains input[offset + 25]? &&
      (!isDefaultImageFrame ||
        width = canvasWidth && height = canvasHeight && xOffset = 0 && yOffset = 0)
  | _, _, _, _ => false

/-! ## The animation -/

structure AnimationState where
  expectedSequence : ℕ
  frames : ℕ
  sawImageData : Bool
  currentFrameHasData : Bool
  currentFrameUsesImageData : Bool

/-- The body of `for (const chunk of chunks)`; none is an invalid animation. -/
def animate (canvasWidth canvasHeight : ℕ) (state : AnimationState) (chunk : PngChunk) :
    Option AnimationState :=
  if chunk.type = "IDAT" then
    some { state with
      sawImageData := true
      currentFrameHasData := state.currentFrameUsesImageData || state.currentFrameHasData }
  else if chunk.type = "fcTL" then
    if chunk.dataLength ≠ 26 ||
        readPngUint31 input chunk.dataOffset ≠ some state.expectedSequence ||
        0 < state.frames && !state.currentFrameHasData then none
    else if !isValidFrameControl input chunk.dataOffset canvasWidth canvasHeight
        (!state.sawImageData) then none
    else
      some { state with
        expectedSequence := state.expectedSequence + 1
        frames := state.frames + 1
        currentFrameHasData := false
        currentFrameUsesImageData := !state.sawImageData }
  else if chunk.type = "fdAT" then
    if !state.sawImageData || state.frames = 0 || state.currentFrameUsesImageData ||
        chunk.dataLength < 4 ||
        readPngUint31 input chunk.dataOffset ≠ some state.expectedSequence then none
    else
      some { state with
        expectedSequence := state.expectedSequence + 1
        currentFrameHasData := true }
  else some state

def isAnimationChunk (chunk : PngChunk) : Bool :=
  chunk.type = "acTL" || chunk.type = "fcTL" || chunk.type = "fdAT"

/-- `controlIndex > firstImageDataIndex`, where an index that is not found is −1. -/
def isBehind (controlIndex : ℕ) (firstImageDataIndex : Option ℕ) : Bool :=
  match firstImageDataIndex with
  | none => true
  | some index => index < controlIndex

def inspectAnimation (chunks : List PngChunk) (canvasWidth canvasHeight : ℕ) :
    Option PngAnimation :=
  if (chunks.filter isAnimationChunk).length = 0 then none
  else
    match (chunks.filter isAnimationChunk).filter fun chunk => chunk.type = "acTL" with
    | [control] =>
      let firstImageDataIndex := chunks.findIdx? fun chunk => chunk.type = "IDAT"
      let controlIndex := chunks.idxOf control
      if control.dataLength ≠ 8 || isBehind controlIndex firstImageDataIndex then some .invalid
      else
        match readPngUint31 input control.dataOffset,
          readPngUint31 input (control.dataOffset + 4) with
        | some frameCount, some playCount =>
          if frameCount = 0 then some .invalid
          else
            match chunks.foldlM (animate input canvasWidth canvasHeight)
              ⟨0, 0, false, false, false⟩ with
            | none => some .invalid
            | some state =>
              if state.frames ≠ frameCount || !state.currentFrameHasData then some .invalid
              else some (.valid frameCount playCount)
        | _, _ => some .invalid
    | _ => some .invalid

/-! ## The pass over the chunks -/

/-- The variables of `inspectPng` but for the offset. -/
structure Inspection where
  chunks : List PngChunk
  width : ℕ
  height : ℕ
  bitDepth : ℕ
  colorType : ℕ
  interlaceMethod : ℕ
  sawPalette : Bool
  sawImageData : Bool
  imageDataEnded : Bool

def Inspection.start : Inspection := ⟨[], 0, 0, 0, 0, 0, false, false, false⟩

/-- The chunk at an offset. -/
def readChunk (offset : ℕ) : Except PngInspectionError PngChunk :=
  if input.length - offset < 12 then .error .truncatedChunk
  else
    let dataLength := readUint32 input offset
    if 0x7fffffff < dataLength then .error .invalidStructure
    else
      let endOffset := offset + 12 + dataLength
      if maxSafeInteger < endOffset ∨ input.length < endOffset then .error .truncatedChunk
      else
        match readChunkType input (offset + 4) with
        | .error error => .error error
        | .ok type =>
          let expectedCrc := readUint32 input (offset + 8 + dataLength)
          if (crc32 ((input.drop (offset + 4)).take (4 + dataLength))).toNat ≠ expectedCrc then
            .error .invalidCrc
          else .ok ⟨type, offset, offset + 8, dataLength, endOffset⟩

/-- What the first chunk declares; a byte that is missing is −1, which no check lets pass. -/
def visitHeader (inspection : Inspection) (chunk : PngChunk) :
    Except PngInspectionError Inspection :=
  if chunk.type ≠ "IHDR" ∨ chunk.dataLength ≠ 13 then .error .invalidStructure
  else
    match readPngUint31 input chunk.dataOffset, readPngUint31 input (chunk.dataOffset + 4),
      input[chunk.dataOffset + 8]?, input[chunk.dataOffset + 9]?,
      input[chunk.dataOffset + 12]? with
    | some width, some height, some bitDepth, some colorType, some interlaceMethod =>
      if width = 0 || height = 0 || !isValidBitDepth bitDepth.toNat colorType.toNat ||
          input[chunk.dataOffset + 10]? ≠ some 0 || input[chunk.dataOffset + 11]? ≠ some 0 ||
          interlaceMethod ≠ 0 && interlaceMethod ≠ 1 then .error .invalidStructure
      else
        .ok { inspection with
          width, height
          bitDepth := bitDepth.toNat
          colorType := colorType.toNat
          interlaceMethod := interlaceMethod.toNat }
    | _, _, _, _, _ => .error .invalidStructure

/-- The `switch` over the types; an inspection that is returned ends the loop. -/
def visitChunk (inspection : Inspection) (chunk : PngChunk) :
    Except PngInspectionError (Inspection ⊕ PngInspection) :=
  if chunk.type = "PLTE" then
    if inspection.sawPalette || inspection.sawImageData || inspection.colorType = 0 ||
        inspection.colorType = 4 || chunk.dataLength = 0 || 768 < chunk.dataLength ||
        chunk.dataLength % 3 ≠ 0 ||
        inspection.colorType = 3 && 2 ^ inspection.bitDepth < chunk.dataLength / 3 then
      .error .invalidStructure
    else .ok (.inl { inspection with sawPalette := true })
  else if chunk.type = "IDAT" then
    if inspection.imageDataEnded then .error .nonconsecutiveIdat
    else if inspection.colorType = 3 && !inspection.sawPalette then .error .invalidStructure
    else .ok (.inl { inspection with sawImageData := true })
  else if chunk.type = "IEND" then
    if chunk.endOffset ≠ input.length then .error .trailingData
    else if chunk.dataLength ≠ 0 || !inspection.sawImageData then .error .invalidStructure
    else
      .ok (.inr ⟨inspection.width, inspection.height, inspection.bitDepth, inspection.colorType,
        inspection.interlaceMethod,
        inspectAnimation input inspection.chunks inspection.width inspection.height,
        inspection.chunks⟩)
  else .ok (.inl inspection)

/-- What the loop does with a chunk. -/
def visit (inspection : Inspection) (chunk : PngChunk) :
    Except PngInspectionError (Inspection ⊕ PngInspection) :=
  let inspection := { inspection with chunks := inspection.chunks ++ [chunk] }
  if inspection.chunks.length = 1 then (visitHeader input inspection chunk).map .inl
  else if chunk.type = "IHDR" then .error .invalidStructure
  else if isCritical chunk.type && !criticalChunkTypes.contains chunk.type then
    .error .unknownCriticalChunk
  else
    visitChunk input { inspection with
      imageDataEnded :=
        inspection.imageDataEnded || chunk.type ≠ "IDAT" && inspection.sawImageData } chunk

/-- `for (;;)`, with a bound on the number of chunks. -/
def inspectFrom : ℕ → ℕ → Inspection → Except PngInspectionError PngInspection
  | 0, _, _ => .error .truncatedChunk
  | chunksLeft + 1, offset, inspection => do
    let chunk ← readChunk crc32 input offset
    match ← visit input inspection chunk with
    | .inl inspection => inspectFrom chunksLeft chunk.endOffset inspection
    | .inr inspection => .ok inspection

/-- No file has more chunks than bytes. -/
def inspectPng (limits : PngInspectionLimits) : Except PngInspectionError PngInspection :=
  if limits.maxBytes < input.length then .error .inputTooLarge
  else if !hasSignature input then .error .invalidSignature
  else inspectFrom crc32 input input.length signature.length .start

end OpenGameAgent.Png
