import OpenGameAgent.Png.PngInspection

/-!
# The rules of an animation

What the chunks of an animation must look like, said of each chunk with what stands before and
behind it.  The loop of `inspectAnimation` keeps of the chunks it has seen a few counts and flags
(`Follows`), and goes on exactly while the rules hold (`animate_ends`).
-/

namespace OpenGameAgent.Png

variable {input : List UInt8} {canvasWidth canvasHeight : ℕ}

def isImageData (chunk : PngChunk) : Bool := chunk.type = "IDAT"

def isFrameControl (chunk : PngChunk) : Bool := chunk.type = "fcTL"

/-- The chunks that carry a sequence number. -/
def isSequenced (chunk : PngChunk) : Bool := chunk.type = "fcTL" || chunk.type = "fdAT"

/-- The chunks of the frame that begins here. -/
def frameOf (chunks : List PngChunk) : List PngChunk :=
  chunks.takeWhile fun chunk => !isFrameControl chunk

/-- The type of the data of a frame. -/
def frameDataType (isDefaultImageFrame : Bool) : String :=
  if isDefaultImageFrame then "IDAT" else "fdAT"

/-- The frame that is described at an offset lies inside the canvas; a default image fills it. -/
def InsideCanvas (input : List UInt8) (offset canvasWidth canvasHeight : ℕ)
    (isDefaultImageFrame : Bool) : Prop :=
  ∃ width height xOffset yOffset,
    readPngUint31 input (offset + 4) = some width ∧
    readPngUint31 input (offset + 8) = some height ∧
    readPngUint31 input (offset + 12) = some xOffset ∧
    readPngUint31 input (offset + 16) = some yOffset ∧
    0 < width ∧ 0 < height ∧ xOffset + width ≤ canvasWidth ∧ yOffset + height ≤ canvasHeight ∧
    input[offset + 24]? ∈ [some 0, some 1, some 2] ∧ input[offset + 25]? ∈ [some 0, some 1] ∧
    (isDefaultImageFrame = true →
      width = canvasWidth ∧ height = canvasHeight ∧ xOffset = 0 ∧ yOffset = 0)

/-- A frame lies inside the canvas and has data of its own kind: the image data where none came
before. -/
structure FrameControlOk (input : List UInt8) (canvasWidth canvasHeight : ℕ)
    (before : List PngChunk) (chunk : PngChunk) (after : List PngChunk) : Prop where
  dataLength : chunk.dataLength = 26
  inside : InsideCanvas input chunk.dataOffset canvasWidth canvasHeight
    (!before.any isImageData)
  hasData : ∃ data ∈ frameOf after, data.type = frameDataType (!before.any isImageData)

/-- The last frame control comes behind image data. -/
def InOwnFrame (before : List PngChunk) : Prop :=
  ∃ earlier control frame, before = earlier ++ control :: frame ∧
    isFrameControl control = true ∧ (∀ chunk ∈ frame, isFrameControl chunk = false) ∧
    earlier.any isImageData = true

/-- What the rules ask of a chunk. -/
structure ChunkOk (input : List UInt8) (canvasWidth canvasHeight : ℕ) (before : List PngChunk)
    (chunk : PngChunk) (after : List PngChunk) : Prop where
  numbered : isSequenced chunk = true →
    readPngUint31 input chunk.dataOffset = some (before.countP isSequenced)
  control : chunk.type = "fcTL" →
    FrameControlOk input canvasWidth canvasHeight before chunk after
  data : chunk.type = "fdAT" → 4 ≤ chunk.dataLength ∧ InOwnFrame before

/-- What the rules ask of all chunks behind some that were seen. -/
def ChunksOk (input : List UInt8) (canvasWidth canvasHeight : ℕ) (seen chunks : List PngChunk) :
    Prop :=
  ∀ before chunk after, chunks = before ++ chunk :: after →
    ChunkOk input canvasWidth canvasHeight (seen ++ before) chunk after

/-- The rules of an animation. -/
structure AnimationOk (input : List UInt8) (chunks : List PngChunk)
    (canvasWidth canvasHeight frameCount playCount : ℕ) : Prop where
  control : ∃ before control after, chunks = before ++ control :: after ∧ control.type = "acTL" ∧
    (∀ chunk ∈ before ++ after, chunk.type ≠ "acTL") ∧ before.any isImageData = false ∧
    after.any isImageData = true ∧ control.dataLength = 8 ∧
    readPngUint31 input control.dataOffset = some frameCount ∧
    readPngUint31 input (control.dataOffset + 4) = some playCount
  positive : 0 < frameCount
  frames : chunks.countP isFrameControl = frameCount
  ok : ChunksOk input canvasWidth canvasHeight [] chunks

/-! ## The loop -/

/-- What the loop knows of the chunks it has seen. -/
structure Follows (seen : List PngChunk) (state : AnimationState) : Prop where
  sequence : state.expectedSequence = seen.countP isSequenced
  frames : state.frames = seen.countP isFrameControl
  image : state.sawImageData = seen.any isImageData
  own : 0 < state.frames ∧ state.currentFrameUsesImageData = false ↔ InOwnFrame seen

/-- The frame that is open has data, or gets it from the chunks to come. -/
def GetsData (state : AnimationState) (chunks : List PngChunk) : Prop :=
  state.frames = 0 ∨ state.currentFrameHasData = true ∨
    ∃ data ∈ frameOf chunks, data.type = frameDataType state.currentFrameUsesImageData

theorem chunksOk_cons {seen : List PngChunk} {chunk : PngChunk} {rest : List PngChunk} :
    ChunksOk input canvasWidth canvasHeight seen (chunk :: rest) ↔
      ChunkOk input canvasWidth canvasHeight seen chunk rest ∧
        ChunksOk input canvasWidth canvasHeight (seen ++ [chunk]) rest := by
  constructor
  · intro hok
    constructor
    · have hfirst := hok [] chunk rest rfl
      rwa [List.append_nil] at hfirst
    · intro before other after hrest
      have hother := hok (chunk :: before) other after (by rw [hrest]; rfl)
      rwa [List.append_assoc]
  · rintro ⟨hfirst, hrest⟩ before other after hchunks
    cases before with
    | nil =>
      cases hchunks
      rwa [List.append_nil]
    | cons second before =>
      cases hchunks
      have hother := hrest before other after rfl
      rwa [List.append_assoc] at hother

theorem chunksOk_nil (seen : List PngChunk) :
    ChunksOk input canvasWidth canvasHeight seen [] := by
  intro before other after hchunks
  exact absurd hchunks (by simp)

theorem inOwnFrame_nil : ¬ InOwnFrame [] := by
  rintro ⟨earlier, control, frame, hchunks, -⟩
  exact absurd hchunks (by simp)

/-- A frame control opens a frame of its own exactly where image data came before. -/
theorem inOwnFrame_control {seen : List PngChunk} {chunk : PngChunk}
    (hchunk : isFrameControl chunk = true) :
    InOwnFrame (seen ++ [chunk]) ↔ seen.any isImageData = true := by
  constructor
  · rintro ⟨earlier, control, frame, hchunks, -, hframe, himage⟩
    cases frame.eq_nil_or_concat with
    | inl hnil =>
      rw [hnil] at hchunks
      have hboth := List.append_inj' hchunks rfl
      rwa [hboth.1]
    | inr hmore =>
      obtain ⟨more, last, hlast⟩ := hmore
      rw [List.concat_eq_append] at hlast
      rw [hlast, ← List.cons_append, ← List.append_assoc] at hchunks
      have hsame : [chunk] = [last] := (List.append_inj' hchunks rfl).2
      cases hsame
      rw [hframe chunk (by rw [hlast]; simp)] at hchunk
      cases hchunk
  · intro himage
    exact ⟨seen, chunk, [], rfl, hchunk, nofun, himage⟩

/-- Any other chunk stays in the frame. -/
theorem inOwnFrame_other {seen : List PngChunk} {chunk : PngChunk}
    (hchunk : isFrameControl chunk = false) : InOwnFrame (seen ++ [chunk]) ↔ InOwnFrame seen := by
  constructor
  · rintro ⟨earlier, control, frame, hchunks, hcontrol, hframe, himage⟩
    cases frame.eq_nil_or_concat with
    | inl hnil =>
      rw [hnil] at hchunks
      have hsame : [chunk] = [control] := (List.append_inj' hchunks rfl).2
      cases hsame
      rw [hcontrol] at hchunk
      cases hchunk
    | inr hmore =>
      obtain ⟨more, last, hlast⟩ := hmore
      rw [List.concat_eq_append] at hlast
      rw [hlast, ← List.cons_append, ← List.append_assoc] at hchunks
      have hseen := (List.append_inj' hchunks rfl).1
      exact ⟨earlier, control, more, hseen, hcontrol,
        fun other hother => hframe other (by rw [hlast]; simp [hother]), himage⟩
  · rintro ⟨earlier, control, frame, rfl, hcontrol, hframe, himage⟩
    refine ⟨earlier, control, frame ++ [chunk], by simp, hcontrol, ?_, himage⟩
    intro other hother
    cases List.mem_append.mp hother with
    | inl hbefore => exact hframe other hbefore
    | inr hlast =>
      rw [List.mem_singleton] at hlast
      rwa [hlast]

theorem inOwnFrame_image {seen : List PngChunk} (h : InOwnFrame seen) :
    seen.any isImageData = true := by
  obtain ⟨earlier, control, frame, rfl, -, -, himage⟩ := h
  rw [List.any_append, himage, Bool.true_or]

theorem follows_start : Follows [] ⟨0, 0, false, false, false⟩ where
  sequence := rfl
  frames := rfl
  image := rfl
  own := iff_of_false (fun h => absurd h.1 (by simp)) inOwnFrame_nil

variable {seen rest : List PngChunk} {chunk : PngChunk} {state next : AnimationState}

/-- A step follows the chunks. -/
theorem Follows.step (h : Follows seen state)
    (hstep : animate input canvasWidth canvasHeight state chunk = some next) :
    Follows (seen ++ [chunk]) next := by
  obtain ⟨hsequence, hframes, himage, hown⟩ := h
  rw [animate] at hstep
  split at hstep
  · rename_i htype
    cases hstep
    have hcontrol : isFrameControl chunk = false := by simp [isFrameControl, htype]
    refine ⟨?_, ?_, ?_, ?_⟩
    · simp [hsequence, isSequenced, htype]
    · simp [hframes, hcontrol]
    · simp [isImageData, htype]
    · rw [inOwnFrame_other hcontrol]
      exact hown
  · rename_i hnotImage
    have himageChunk : isImageData chunk = false := by simp [isImageData, hnotImage]
    split at hstep
    · rename_i htype
      have hcontrol : isFrameControl chunk = true := by simp [isFrameControl, htype]
      split at hstep
      · cases hstep
      · split at hstep
        · cases hstep
        · cases hstep
          refine ⟨?_, ?_, ?_, ?_⟩
          · simp [hsequence, isSequenced, htype]
          · simp [hframes, hcontrol]
          · simp [himage, himageChunk]
          · rw [inOwnFrame_control hcontrol, ← himage]
            simp
    · rename_i hnotControl
      have hcontrol : isFrameControl chunk = false := by simp [isFrameControl, hnotControl]
      split at hstep
      · rename_i htype
        split at hstep
        · cases hstep
        · cases hstep
          refine ⟨?_, ?_, ?_, ?_⟩
          · simp [hsequence, isSequenced, htype]
          · simp [hframes, hcontrol]
          · simp [himage, himageChunk]
          · rw [inOwnFrame_other hcontrol]
            exact hown
      · rename_i hnotData
        cases hstep
        refine ⟨?_, ?_, ?_, ?_⟩
        · simp [hsequence, isSequenced, hnotControl, hnotData]
        · simp [hframes, hcontrol]
        · simp [himage, himageChunk]
        · rw [inOwnFrame_other hcontrol]
          exact hown

theorem isValidFrameControl_iff {offset : ℕ} {isDefaultImageFrame : Bool} :
    isValidFrameControl input offset canvasWidth canvasHeight isDefaultImageFrame = true ↔
      InsideCanvas input offset canvasWidth canvasHeight isDefaultImageFrame := by
  rw [isValidFrameControl, InsideCanvas]
  generalize readPngUint31 input (offset + 4) = width
  generalize readPngUint31 input (offset + 8) = height
  generalize readPngUint31 input (offset + 12) = xOffset
  generalize readPngUint31 input (offset + 16) = yOffset
  constructor
  · intro hvalid
    split at hvalid
    · rename_i width height xOffset yOffset
      simp only [Bool.and_eq_true, Bool.or_eq_true, Bool.not_eq_true', decide_eq_true_eq,
        List.contains_iff_mem] at hvalid
      obtain ⟨⟨⟨⟨⟨⟨⟨⟨hwide, hhigh⟩, hcanvasWidth⟩, hcanvasHeight⟩, hleft⟩, htop⟩, hdispose⟩, hblend⟩,
        hdefault⟩ := hvalid
      refine ⟨width, height, xOffset, yOffset, rfl, rfl, rfl, rfl, hwide, hhigh, by omega,
        by omega, hdispose, hblend, fun hdefaultImage => ?_⟩
      rw [hdefaultImage] at hdefault
      simpa [and_assoc] using hdefault
    · cases hvalid
  · rintro ⟨width, height, xOffset, yOffset, rfl, rfl, rfl, rfl, hwide, hhigh, hright, hbottom,
      hdispose, hblend, hdefault⟩
    simp only [Bool.and_eq_true, Bool.or_eq_true, Bool.not_eq_true', decide_eq_true_eq,
      List.contains_iff_mem]
    refine ⟨⟨⟨⟨⟨⟨⟨⟨hwide, hhigh⟩, by omega⟩, by omega⟩, by omega⟩, by omega⟩, hdispose⟩, hblend⟩, ?_⟩
    cases isDefaultImageFrame with
    | false => exact Or.inl rfl
    | true => simpa [and_assoc] using hdefault rfl

theorem frameOf_control (hchunk : isFrameControl chunk = true) : frameOf (chunk :: rest) = [] := by
  simp [frameOf, hchunk]

theorem frameOf_other (hchunk : isFrameControl chunk = false) :
    frameOf (chunk :: rest) = chunk :: frameOf rest := by
  simp [frameOf, hchunk]

/-- A step is taken exactly where the rules allow the chunk, and leaves the frame that is open to
the chunks behind it. -/
theorem animate_iff (h : Follows seen state) :
    (∃ next, animate input canvasWidth canvasHeight state chunk = some next ∧
      GetsData next rest) ↔
    ChunkOk input canvasWidth canvasHeight seen chunk rest ∧ GetsData state (chunk :: rest) := by
  obtain ⟨hsequence, hframes, himage, hown⟩ := h
  by_cases hdata : chunk.type = "IDAT"
  · have hcontrol : isFrameControl chunk = false := by simp [isFrameControl, hdata]
    have hok : ChunkOk input canvasWidth canvasHeight seen chunk rest :=
      ⟨by simp [isSequenced, hdata], by simp [hdata], by simp [hdata]⟩
    rw [and_iff_right hok, animate, if_pos hdata]
    simp only [Option.some.injEq, exists_eq_left', GetsData, frameOf_other hcontrol,
      List.mem_cons, exists_eq_or_imp, hdata, Bool.or_eq_true]
    cases state.currentFrameUsesImageData <;> simp [frameDataType]
  · by_cases hfcTL : chunk.type = "fcTL"
    · have hcontrol : isFrameControl chunk = true := by simp [isFrameControl, hfcTL]
      have hnumbered : isSequenced chunk = true := by simp [isSequenced, hfcTL]
      rw [animate, if_neg hdata, if_pos hfcTL]
      constructor
      · rintro ⟨next, hstep, hnext⟩
        split at hstep
        · cases hstep
        · rename_i hgood
          split at hstep
          · cases hstep
          · rename_i hinside
            cases hstep
            simp only [Bool.or_eq_true, decide_eq_true_eq, Bool.and_eq_true, Bool.not_eq_true',
              not_or, not_and, Bool.not_eq_false, ne_eq, not_not] at hgood
            obtain ⟨⟨hlength, hnumber⟩, hopen⟩ := hgood
            rw [Bool.not_eq_true, Bool.not_eq_false'] at hinside
            rw [himage, isValidFrameControl_iff] at hinside
            rw [hsequence] at hnumber
            obtain hnone | hhas | hgets := hnext
            · exact absurd hnone (Nat.succ_ne_zero _)
            · cases hhas
            · rw [himage] at hgets
              refine ⟨⟨fun _ => hnumber, fun _ => ⟨hlength, hinside, hgets⟩, ?_⟩, ?_⟩
              · intro hfdAT
                rw [hfcTL] at hfdAT
                exact absurd hfdAT (by decide)
              · rcases Nat.eq_zero_or_pos state.frames with hzero | hpos
                · exact Or.inl hzero
                · exact Or.inr (Or.inl (hopen hpos))
      · rintro ⟨⟨hnumber, hok, -⟩, hopen⟩
        obtain ⟨hlength, hinside, hgets⟩ := hok hfcTL
        rw [← himage] at hinside hgets
        have hnumber := hnumber hnumbered
        rw [← hsequence] at hnumber
        have hclosed : ¬ (0 < state.frames ∧ state.currentFrameHasData = false) := by
          rintro ⟨hpos, hnone⟩
          obtain hzero | hhas | ⟨data, hmem, -⟩ := hopen
          · omega
          · rw [hnone] at hhas
            cases hhas
          · rw [frameOf_control hcontrol] at hmem
            cases hmem
        rw [if_neg, if_neg]
        · exact ⟨_, rfl, Or.inr (Or.inr hgets)⟩
        · simp [isValidFrameControl_iff.mpr hinside]
        · simpa [hlength, hnumber] using hclosed
    · have hcontrol : isFrameControl chunk = false := by simp [isFrameControl, hfcTL]
      by_cases hfdAT : chunk.type = "fdAT"
      · have hnumbered : isSequenced chunk = true := by simp [isSequenced, hfdAT]
        rw [animate, if_neg hdata, if_neg hfcTL, if_pos hfdAT]
        constructor
        · rintro ⟨next, hstep, -⟩
          split at hstep
          · cases hstep
          · rename_i hgood
            simp only [Bool.or_eq_true, decide_eq_true_eq, Bool.not_eq_true',
              not_or, Bool.not_eq_false, ne_eq, not_not, not_lt, Bool.not_eq_true] at hgood
            obtain ⟨⟨⟨⟨-, hframe⟩, hown'⟩, hlength⟩, hnumber⟩ := hgood
            rw [hsequence] at hnumber
            refine ⟨⟨fun _ => hnumber, fun htype => absurd htype hfcTL, fun _ => ⟨hlength, ?_⟩⟩, ?_⟩
            · exact hown.mp ⟨Nat.pos_of_ne_zero hframe, hown'⟩
            · refine Or.inr (Or.inr ⟨chunk, ?_, ?_⟩)
              · rw [frameOf_other hcontrol]
                exact List.mem_cons_self
              · rw [hown', hfdAT]
                rfl
        · rintro ⟨⟨hnumber, -, hok⟩, -⟩
          obtain ⟨hlength, hframe⟩ := hok hfdAT
          have hsaw := inOwnFrame_image hframe
          obtain ⟨hpos, huses⟩ := hown.mpr hframe
          have hnumber := hnumber hnumbered
          rw [← hsequence] at hnumber
          rw [← himage] at hsaw
          rw [if_neg]
          · exact ⟨_, rfl, Or.inr (Or.inl rfl)⟩
          · simp only [hsaw, huses, hnumber, ne_eq, not_true_eq_false, decide_false, Bool.or_false,
              Bool.not_true, Bool.false_or, Bool.or_eq_true, decide_eq_true_eq]
            omega
      · have hok : ChunkOk input canvasWidth canvasHeight seen chunk rest :=
          ⟨by simp [isSequenced, hfcTL, hfdAT], by simp [hfcTL], by simp [hfdAT]⟩
        rw [and_iff_right hok, animate, if_neg hdata, if_neg hfcTL, if_neg hfdAT]
        simp only [Option.some.injEq, exists_eq_left', GetsData, frameOf_other hcontrol,
          List.mem_cons, exists_eq_or_imp]
        cases state.currentFrameUsesImageData <;> simp [frameDataType, hdata, hfdAT]

/-- The loop gets to its end, with a frame that has data, exactly where the rules hold. -/
theorem animate_ends {frameCount : ℕ} (hpositive : 0 < frameCount) (h : Follows seen state) :
    (∃ final, rest.foldlM (animate input canvasWidth canvasHeight) state = some final ∧
      final.frames = frameCount ∧ final.currentFrameHasData = true) ↔
    (ChunksOk input canvasWidth canvasHeight seen rest ∧ GetsData state rest) ∧
      (seen ++ rest).countP isFrameControl = frameCount := by
  induction rest generalizing seen state with
  | nil =>
    rw [and_iff_right (chunksOk_nil seen), List.append_nil, ← h.frames]
    constructor
    · rintro ⟨final, hfinal, hframes, hdata⟩
      cases hfinal
      exact ⟨Or.inr (Or.inl hdata), hframes⟩
    · rintro ⟨hgets, hframes⟩
      obtain hzero | hdata | ⟨data, hmem, -⟩ := hgets
      · omega
      · exact ⟨state, rfl, hframes, hdata⟩
      · cases hmem
  | cons chunk rest ih =>
    rw [chunksOk_cons]
    -- what was seen grows by the chunk; the chunks of the whole stay the same
    have hcount : (seen ++ chunk :: rest).countP isFrameControl =
        ((seen ++ [chunk]) ++ rest).countP isFrameControl := by rw [List.append_assoc]; rfl
    constructor
    · rintro ⟨final, hfinal, hframes, hdata⟩
      rw [List.foldlM_cons] at hfinal
      obtain ⟨next, hstep, hfinal⟩ := Option.bind_eq_some_iff.mp hfinal
      obtain ⟨⟨hok, hgets⟩, hall⟩ := (ih (h.step hstep)).mp ⟨final, hfinal, hframes, hdata⟩
      obtain ⟨hchunk, hopen⟩ := (animate_iff h).mp ⟨next, hstep, hgets⟩
      exact ⟨⟨⟨hchunk, hok⟩, hopen⟩, hcount.trans hall⟩
    · rintro ⟨⟨⟨hchunk, hok⟩, hopen⟩, hall⟩
      obtain ⟨next, hstep, hgets⟩ := (animate_iff h).mpr ⟨hchunk, hopen⟩
      obtain ⟨final, hfinal, hend⟩ :=
        (ih (h.step hstep)).mpr ⟨⟨hok, hgets⟩, hcount.symm.trans hall⟩
      refine ⟨final, ?_, hend⟩
      rw [List.foldlM_cons, hstep]
      exact hfinal

/-! ## The animation -/

variable {chunks : List PngChunk} {frameCount playCount : ℕ}

theorem inspectAnimation_eq_none :
    inspectAnimation input chunks canvasWidth canvasHeight = none ↔
      ∀ chunk ∈ chunks, isAnimationChunk chunk = false := by
  rw [inspectAnimation]
  constructor
  · intro hnone
    split at hnone
    · rename_i hlength
      rw [List.length_eq_zero_iff, List.filter_eq_nil_iff] at hlength
      simpa using hlength
    · split at hnone
      · dsimp only at hnone
        split at hnone
        · cases hnone
        · split at hnone
          · split at hnone
            · cases hnone
            · split at hnone
              · cases hnone
              · split at hnone <;> cases hnone
          · cases hnone
      · cases hnone
  · intro hall
    rw [if_pos]
    rw [List.length_eq_zero_iff, List.filter_eq_nil_iff]
    simpa using hall

/-- The chunk of the animation stands at the place that was asked for. -/
theorem isBehind_iff {before after : List PngChunk} {control : PngChunk}
    (htype : control.type = "acTL") :
    isBehind before.length
        ((before ++ control :: after).findIdx? fun chunk => chunk.type = "IDAT") = false ↔
      before.any isImageData = false ∧ after.any isImageData = true := by
  have hsplit : (fun chunk : PngChunk => decide (chunk.type = "IDAT")) = isImageData := rfl
  have hcontrol : isImageData control = false := by simp [isImageData, htype]
  rw [hsplit, List.findIdx?_append, List.findIdx?_cons, hcontrol]
  cases hbefore : before.findIdx? isImageData with
  | none =>
    have hnone : before.any isImageData = false := by
      rw [List.any_eq_false]
      simpa using List.findIdx?_eq_none_iff.mp hbefore
    rw [and_iff_right hnone, Option.none_or]
    cases hafter : after.findIdx? isImageData with
    | none =>
      have hnone : after.any isImageData = false := by
        rw [List.any_eq_false]
        simpa using List.findIdx?_eq_none_iff.mp hafter
      simp [isBehind, hnone]
    | some index =>
      have hsome : after.any isImageData = true := by
        rw [← List.findIdx?_isSome, hafter]
        rfl
      simp [isBehind, hsome]
  | some index =>
    obtain ⟨hlt, -⟩ := List.findIdx?_eq_some_iff_findIdx_eq.mp hbefore
    have hsome : before.any isImageData = true := by
      rw [← List.findIdx?_isSome, hbefore]
      rfl
    simp [isBehind, hsome, hlt]

/-- There is one animation control. -/
theorem control_eq_singleton {control : PngChunk} :
    (chunks.filter isAnimationChunk).filter (fun chunk => chunk.type = "acTL") = [control] ↔
      ∃ before after, chunks = before ++ control :: after ∧ control.type = "acTL" ∧
        ∀ chunk ∈ before ++ after, chunk.type ≠ "acTL" := by
  have hfilter : (chunks.filter isAnimationChunk).filter (fun chunk => chunk.type = "acTL") =
      chunks.filter fun chunk => chunk.type = "acTL" := by
    rw [List.filter_filter]
    refine List.filter_congr fun chunk _ => ?_
    simp only [isAnimationChunk]
    cases decide (chunk.type = "acTL") <;> rfl
  rw [hfilter, List.filter_eq_cons_iff]
  constructor
  · rintro ⟨before, after, hchunks, hbefore, hcontrol, hafter⟩
    refine ⟨before, after, hchunks, by simpa using hcontrol, ?_⟩
    intro chunk hchunk
    rw [List.filter_eq_nil_iff] at hafter
    cases List.mem_append.mp hchunk with
    | inl hmem => simpa using hbefore chunk hmem
    | inr hmem => simpa using hafter chunk hmem
  · rintro ⟨before, after, hchunks, hcontrol, hothers⟩
    refine ⟨before, after, hchunks, ?_, by simpa using hcontrol, ?_⟩
    · intro chunk hchunk
      simpa using hothers chunk (List.mem_append_left _ hchunk)
    · rw [List.filter_eq_nil_iff]
      intro chunk hchunk
      simpa using hothers chunk (List.mem_append_right _ hchunk)

theorem idxOf_control {before after : List PngChunk} {control : PngChunk}
    (htype : control.type = "acTL") (hothers : ∀ chunk ∈ before ++ after, chunk.type ≠ "acTL") :
    (before ++ control :: after).idxOf control = before.length := by
  rw [List.idxOf_append_of_notMem, List.idxOf_cons_self, Nat.add_zero]
  intro hmem
  exact hothers control (List.mem_append_left _ hmem) htype

/-- What the end of the loop says of an animation. -/
theorem animate_all (hpositive : 0 < frameCount) :
    (∃ final, chunks.foldlM (animate input canvasWidth canvasHeight)
        ⟨0, 0, false, false, false⟩ = some final ∧
      final.frames = frameCount ∧ final.currentFrameHasData = true) ↔
    ChunksOk input canvasWidth canvasHeight [] chunks ∧
      chunks.countP isFrameControl = frameCount := by
  rw [animate_ends hpositive follows_start, List.nil_append]
  exact Iff.and (and_iff_left (Or.inl rfl)) Iff.rfl

/-- An animation is valid exactly where the rules hold. -/
theorem inspectAnimation_eq_valid :
    inspectAnimation input chunks canvasWidth canvasHeight = some (.valid frameCount playCount) ↔
      AnimationOk input chunks canvasWidth canvasHeight frameCount playCount := by
  rw [inspectAnimation]
  constructor
  · intro hvalid
    split at hvalid
    · cases hvalid
    · split at hvalid
      · rename_i control hcontrol
        obtain ⟨before, after, rfl, htype, hothers⟩ := control_eq_singleton.mp hcontrol
        rw [idxOf_control htype hothers] at hvalid
        dsimp only at hvalid
        split at hvalid
        · cases hvalid
        · rename_i hplaced
          simp only [Bool.or_eq_true, decide_eq_true_eq, not_or, Bool.not_eq_true, ne_eq,
            not_not] at hplaced
          obtain ⟨hbefore, hafter⟩ := (isBehind_iff htype).mp hplaced.2
          split at hvalid
          · rename_i frames plays hframes hplays
            split at hvalid
            · cases hvalid
            · rename_i hpositive
              split at hvalid
              · cases hvalid
              · rename_i final hfinal
                split at hvalid
                · cases hvalid
                · rename_i hend
                  cases hvalid
                  simp only [Bool.or_eq_true, decide_eq_true_eq, Bool.not_eq_true', not_or,
                    Bool.not_eq_false, ne_eq, not_not] at hend
                  have hpositive := Nat.pos_of_ne_zero hpositive
                  obtain ⟨hok, hcount⟩ := (animate_all hpositive).mp ⟨final, hfinal, hend⟩
                  exact ⟨⟨before, control, after, rfl, htype, hothers, hbefore, hafter, hplaced.1,
                    hframes, hplays⟩, hpositive, hcount, hok⟩
          · cases hvalid
      · cases hvalid
  · rintro ⟨⟨before, control, after, rfl, htype, hothers, hbefore, hafter, hlength, hframes, hplays⟩,
      hpositive, hcount, hok⟩
    have hcontrol := control_eq_singleton.mpr ⟨before, after, rfl, htype, hothers⟩
    have hplaced := (isBehind_iff htype).mpr ⟨hbefore, hafter⟩
    obtain ⟨final, hfinal, hend⟩ := (animate_all hpositive).mpr ⟨hok, hcount⟩
    have hany : ((before ++ control :: after).filter isAnimationChunk).length ≠ 0 := by
      rw [Ne, List.length_eq_zero_iff]
      intro hnil
      rw [hnil] at hcontrol
      cases hcontrol
    rw [if_neg hany, hcontrol]
    dsimp only
    rw [idxOf_control htype hothers, hplaced, Bool.or_false, if_neg (by simp [hlength]), hframes,
      hplays]
    dsimp only
    rw [if_neg hpositive.ne', hfinal]
    dsimp only
    rw [if_neg (by simp [hend])]

end OpenGameAgent.Png
