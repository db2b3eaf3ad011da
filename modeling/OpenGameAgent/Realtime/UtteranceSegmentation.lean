import Mathlib.Data.List.Infix
import OpenGameAgent.Library.ConsecutiveRuns
import OpenGameAgent.Library.Run
import OpenGameAgent.Realtime.VoiceActivityUtterance

/-!
# Where an utterance begins and ends

What a call of `captureNext` should take of the frames ahead is said of the frames as a list: the
first run of speech (`speechEnd`), the first run of silence behind it (`stopsAt`), what is consumed
and what is uttered.  The loop keeps both runs by counting (`Listening`, `Recording`).

* `captureNext_exact` — within the limits a call answers exactly that and leaves the rest; beyond
  them it fails.
* `captureAll_segments` — call after call takes one segment after the other.
* `utterances_segmented` — both, for every configuration and all frames.
-/

namespace OpenGameAgent.VoiceActivity

open ConsecutiveRuns

variable (limits : CaptureLimits)

/-! ## What a call should take -/

def isSpeech (frames : List AudioFrame) (k : ℕ) : Bool :=
  (frames[k]?).any fun frame => limits.activationThreshold ≤ frame.probability

def isSilence (frames : List AudioFrame) (k : ℕ) : Bool :=
  (frames[k]?).any fun frame => frame.probability < limits.deactivationThreshold

/-- Behind the first run of speech. -/
def speechEnd (frames : List AudioFrame) : Option ℕ :=
  firstRun (isSpeech limits frames) 0 limits.minSpeechFrames frames.length

/-- Behind the first run of silence after it. -/
def stopsAt (frames : List AudioFrame) : Option ℕ :=
  (speechEnd limits frames).bind fun speech =>
    firstRun (isSilence limits frames) speech limits.endSilenceFrames frames.length

/-- The frames that the call reads. -/
def consumed (frames : List AudioFrame) : List AudioFrame :=
  frames.take ((stopsAt limits frames).getD frames.length)

/-- The frames it answers: some before the run of speech, the run, and all behind it. -/
def uttered (frames : List AudioFrame) : Option (List (List UInt8)) :=
  (speechEnd limits frames).map fun speech =>
    ((consumed limits frames).drop
      (speech - limits.minSpeechFrames - limits.prefixPaddingFrames)).map AudioFrame.bytes

def totalBytes (frames : List (List UInt8)) : ℕ := (frames.map List.length).sum

/-- With the exact counts. -/
def utteranceOf (frames : List (List UInt8)) : CapturedVoiceUtterance :=
  ⟨frames.length, totalBytes frames, frames⟩

/-- No limit is exceeded. -/
structure WithinLimits (frames : List AudioFrame) : Prop where
  captureFrames : (consumed limits frames).length ≤ limits.maxCaptureFrames
  frameBytes : ∀ frame ∈ consumed limits frames, frame.bytes.length ≤ limits.maxFrameBytes
  captureBytes :
    totalBytes ((consumed limits frames).map AudioFrame.bytes) ≤ limits.maxCaptureBytes
  utterance : ∀ spoken, uttered limits frames = some spoken →
    spoken.length ≤ limits.maxUtteranceFrames ∧ totalBytes spoken ≤ limits.maxUtteranceBytes

/-- A frame of whole samples, with a probability. -/
structure ValidFrame (bytesPerFrame : ℕ) (frame : AudioFrame) : Prop where
  nonempty : frame.bytes.length ≠ 0
  whole : frame.bytes.length % bytesPerFrame = 0
  probability : 0 ≤ frame.probability ∧ frame.probability ≤ 1

/-- What a call should do, as its answer and the session behind it. -/
def Exact (frames : List AudioFrame) (result : Answer × Session) : Prop :=
  (WithinLimits limits frames →
    result = (.ok ((uttered limits frames).map utteranceOf),
      ⟨(stopsAt limits frames).isNone, frames.drop (consumed limits frames).length⟩)) ∧
  (¬ WithinLimits limits frames → result.1 = .error .capacity ∧ result.2.closed = true)

variable {limits} {bytesPerFrame : ℕ} {frames : List AudioFrame} {frame : AudioFrame}
  {capture : Capture} {n count speech : ℕ}

/-! ## Buffers -/

theorem totalBytes_append (frames more : List (List UInt8)) :
    totalBytes (frames ++ more) = totalBytes frames + totalBytes more := by
  simp [totalBytes]

theorem totalBytes_mono {frames more : List (List UInt8)} (h : frames <+: more) :
    totalBytes frames ≤ totalBytes more := by
  obtain ⟨rest, rfl⟩ := h
  rw [totalBytes_append]
  exact Nat.le_add_right _ _

theorem addBounded_eq (current next maximum : ℕ) :
    addBounded current next maximum =
      if current + next ≤ maximum then .ok (current + next) else .error .capacity := by
  rw [addBounded]
  split
  · rw [if_neg (by omega)]
  · rw [if_pos (by omega)]

/-- The last frames, at most so many. -/
def lastFrames (maximum : ℕ) (frames : List (List UInt8)) : List (List UInt8) :=
  frames.drop (frames.length - maximum)

theorem pushPrefix_lastFrames (maximum : ℕ) (frames : List (List UInt8)) (frame : List UInt8) :
    pushPrefix (lastFrames maximum frames) frame maximum = lastFrames maximum (frames ++ [frame]) := by
  rw [pushPrefix, lastFrames, lastFrames]
  split
  · rename_i hzero
    subst hzero
    simp
  · dsimp only
    rw [← List.drop_append_of_le_length (by omega)]
    have hlength : ((frames ++ [frame]).drop (frames.length - maximum)).length =
        frames.length + 1 - (frames.length - maximum) := by
      simp
    rw [hlength, List.length_append, List.length_singleton]
    split
    · rw [List.tail_drop]
      congr 1
      omega
    · congr 1
      omega

theorem foldl_pushPrefix (maximum : ℕ) (frames more : List (List UInt8)) :
    more.foldl (fun prefixed frame => pushPrefix prefixed frame maximum)
      (lastFrames maximum frames) = lastFrames maximum (frames ++ more) := by
  induction more generalizing frames with
  | nil => rw [List.append_nil]; rfl
  | cons frame more ih =>
    rw [List.foldl_cons, pushPrefix_lastFrames, ih, List.append_assoc]
    rfl

/-- What the utterance has room for. -/
def Fits (limits : CaptureLimits) (frames : List (List UInt8)) : Prop :=
  frames.length ≤ limits.maxUtteranceFrames ∧ totalBytes frames ≤ limits.maxUtteranceBytes

theorem Fits.of_prefix {frames more : List (List UInt8)} (h : Fits limits more)
    (hmore : frames <+: more) : Fits limits frames :=
  ⟨hmore.length_le.trans h.1, (totalBytes_mono hmore).trans h.2⟩

theorem appendFrame_spec (limits : CaptureLimits)
    (hbytes : capture.utteranceBytes = totalBytes capture.utterance) (frame : List UInt8) :
    (Fits limits (capture.utterance ++ [frame]) ∧
      appendFrame limits frame capture = .ok { capture with
        utterance := capture.utterance ++ [frame]
        utteranceBytes := totalBytes (capture.utterance ++ [frame]) }) ∨
    ¬ Fits limits (capture.utterance ++ [frame]) ∧
      appendFrame limits frame capture = .error .capacity := by
  have hsize : totalBytes (capture.utterance ++ [frame]) =
      totalBytes capture.utterance + frame.length := by
    simp [totalBytes]
  rw [Fits, hsize, List.length_append, List.length_singleton, appendFrame, addBounded_eq, hbytes]
  split
  · exact Or.inr ⟨by omega, rfl⟩
  · split
    · exact Or.inl ⟨⟨by omega, ‹_›⟩, rfl⟩
    · exact Or.inr ⟨by omega, rfl⟩

theorem appendFrames_spec (h : Fits limits capture.utterance)
    (hbytes : capture.utteranceBytes = totalBytes capture.utterance)
    (buffered : List (List UInt8)) :
    (Fits limits (capture.utterance ++ buffered) ∧
      buffered.foldlM (fun capture buffered => appendFrame limits buffered capture) capture =
        .ok { capture with
          utterance := capture.utterance ++ buffered
          utteranceBytes := totalBytes (capture.utterance ++ buffered) }) ∨
    ¬ Fits limits (capture.utterance ++ buffered) ∧
      buffered.foldlM (fun capture buffered => appendFrame limits buffered capture) capture =
        .error .capacity := by
  induction buffered generalizing capture with
  | nil =>
    refine Or.inl ?_
    rw [List.append_nil, ← hbytes]
    exact ⟨h, rfl⟩
  | cons frame more ih =>
    rw [List.foldlM_cons]
    have hassoc : capture.utterance ++ frame :: more = (capture.utterance ++ [frame]) ++ more := by
      simp
    rw [hassoc]
    obtain ⟨hfits, happend⟩ | ⟨hfull, happend⟩ := appendFrame_spec limits hbytes frame
    · rw [happend]
      exact @ih { capture with
        utterance := capture.utterance ++ [frame]
        utteranceBytes := totalBytes (capture.utterance ++ [frame]) } hfits rfl
    · rw [happend]
      exact Or.inr ⟨fun hall => hfull (hall.of_prefix (List.prefix_append _ _)), rfl⟩

/-! ## The loop -/

/-- The checks that the frames so far have passed, and their counts. -/
structure Counted (limits : CaptureLimits) (frames : List AudioFrame) (n : ℕ)
    (capture : Capture) : Prop where
  captureFrames : capture.captureFrames = n
  captureBytes : capture.captureBytes = totalBytes ((frames.take n).map AudioFrame.bytes)
  framesFit : n ≤ limits.maxCaptureFrames
  frameFits : ∀ frame ∈ frames.take n, frame.bytes.length ≤ limits.maxFrameBytes
  bytesFit : totalBytes ((frames.take n).map AudioFrame.bytes) ≤ limits.maxCaptureBytes

/-- Before the utterance is active: the candidate is the run of speech so far. -/
structure Listening (limits : CaptureLimits) (frames : List AudioFrame) (n count : ℕ)
    (capture : Capture) : Prop where
  counted : Counted limits frames n capture
  trailing : Trailing (isSpeech limits frames) 0 limits.minSpeechFrames n count
  active : capture.active = false
  candidate : capture.candidate = ((frames.take n).drop (n - count)).map AudioFrame.bytes
  prefixed : capture.prefixed =
    lastFrames limits.prefixPaddingFrames ((frames.take (n - count)).map AudioFrame.bytes)
  utterance : capture.utterance = []
  utteranceBytes : capture.utteranceBytes = 0
  silenceFrames : capture.silenceFrames = 0

/-- The frames uttered among the first `n`. -/
def utteredUntil (limits : CaptureLimits) (frames : List AudioFrame) (speech n : ℕ) :
    List (List UInt8) :=
  ((frames.take n).drop (speech - limits.minSpeechFrames - limits.prefixPaddingFrames)).map
    AudioFrame.bytes

/-- While the utterance is active. -/
structure Recording (limits : CaptureLimits) (frames : List AudioFrame) (speech n count : ℕ)
    (capture : Capture) : Prop where
  counted : Counted limits frames n capture
  begun : speechEnd limits frames = some speech
  trailing : Trailing (isSilence limits frames) speech limits.endSilenceFrames n count
  active : capture.active = true
  utterance : capture.utterance = utteredUntil limits frames speech n
  utteranceBytes : capture.utteranceBytes = totalBytes (utteredUntil limits frames speech n)
  fits : Fits limits (utteredUntil limits frames speech n)
  silenceFrames : capture.silenceFrames = count

/-- The frames before position `n` and the one there are consumed. -/
def Reached (limits : CaptureLimits) (frames : List AudioFrame) (n : ℕ) : Prop :=
  n ≤ (stopsAt limits frames).getD frames.length

theorem Reached.consumed (h : Reached limits frames n) :
    frames.take n <+: consumed limits frames := by
  rw [VoiceActivity.consumed]
  have hle : min n ((stopsAt limits frames).getD frames.length) = n := Nat.min_eq_left h
  rw [← hle, ← List.take_take]
  exact List.take_prefix _ _

theorem Listening.reached (h : Listening limits frames n count capture) (hn : n < frames.length) :
    Reached limits frames (n + 1) := by
  rw [Reached]
  cases hstop : stopsAt limits frames with
  | none => exact hn
  | some stop =>
    obtain ⟨speech, hspeech, hsilence⟩ := Option.bind_eq_some_iff.mp hstop
    obtain ⟨-, ⟨hends, -⟩, -⟩ := firstRun_eq_some.mp hsilence
    have hlt := h.trailing.lt_of_firstRun hspeech
    show n + 1 ≤ stop
    omega

theorem Recording.reached (h : Recording limits frames speech n count capture)
    (hn : n < frames.length) : Reached limits frames (n + 1) := by
  rw [Reached]
  cases hstop : stopsAt limits frames with
  | none => exact hn
  | some stop =>
    rw [stopsAt, h.begun] at hstop
    exact h.trailing.lt_of_firstRun hstop

/-- A frame that is consumed is read as such, or a limit is exceeded. -/
theorem inspectFrame_spec (h : Counted limits frames n capture) (hget : frames[n]? = some frame)
    (hvalid : ValidFrame bytesPerFrame frame) (hreached : Reached limits frames (n + 1)) :
    (Counted limits frames (n + 1) { capture with
        captureFrames := n + 1
        captureBytes := totalBytes ((frames.take (n + 1)).map AudioFrame.bytes) } ∧
      inspectFrame limits bytesPerFrame frame capture = .ok { capture with
        captureFrames := n + 1
        captureBytes := totalBytes ((frames.take (n + 1)).map AudioFrame.bytes) }) ∨
    ¬ WithinLimits limits frames ∧
      inspectFrame limits bytesPerFrame frame capture = .error .capacity := by
  have htake : frames.take (n + 1) = frames.take n ++ [frame] := by
    rw [List.take_add_one, hget]
    rfl
  have hbytes : totalBytes ((frames.take (n + 1)).map AudioFrame.bytes) =
      totalBytes ((frames.take n).map AudioFrame.bytes) + frame.bytes.length := by
    rw [htake, List.map_append, totalBytes_append]
    simp [totalBytes]
  have hconsumed := hreached.consumed
  have hlength : (frames.take (n + 1)).length = n + 1 := by
    have hlt : n < frames.length := (List.getElem?_eq_some_iff.mp hget).1
    rw [List.length_take]
    omega
  rw [inspectFrame, addBounded_eq, h.captureFrames, h.captureBytes, ← hbytes]
  split
  · rename_i hover
    refine Or.inr ⟨fun hwithin => ?_, rfl⟩
    have hle := hconsumed.length_le.trans hwithin.captureFrames
    omega
  · rename_i hframes
    split
    · rename_i hover
      refine Or.inr ⟨fun hwithin => ?_, rfl⟩
      have hmem : frame ∈ consumed limits frames := by
        refine hconsumed.subset ?_
        rw [htake]
        exact List.mem_append_right _ (List.mem_singleton_self _)
      have hle := hwithin.frameBytes frame hmem
      omega
    · rename_i hframe
      rw [if_neg hvalid.nonempty, if_neg (not_not.mpr hvalid.whole)]
      split
      · rename_i hfits
        refine Or.inl ⟨⟨rfl, rfl, by omega, ?_, hfits⟩, rfl⟩
        intro other hother
        rw [htake] at hother
        cases List.mem_append.mp hother with
        | inl hold => exact h.frameFits other hold
        | inr hnew =>
          obtain rfl := List.mem_singleton.mp hnew
          omega
      · rename_i hover
        refine Or.inr ⟨fun hwithin => ?_, rfl⟩
        have hle := (totalBytes_mono (hconsumed.map AudioFrame.bytes)).trans
          hwithin.captureBytes
        exact hover hle

/-- An utterance that has no room exceeds a limit. -/
theorem not_within_of_not_fits (hspeech : speechEnd limits frames = some speech)
    (hreached : Reached limits frames n) (h : ¬ Fits limits (utteredUntil limits frames speech n)) :
    ¬ WithinLimits limits frames := by
  intro hwithin
  have huttered : uttered limits frames = some (((consumed limits frames).drop
      (speech - limits.minSpeechFrames - limits.prefixPaddingFrames)).map AudioFrame.bytes) := by
    rw [uttered, hspeech]
    rfl
  have hfits : Fits limits _ := hwithin.utterance _ huttered
  exact h (hfits.of_prefix ((hreached.consumed.drop _).map AudioFrame.bytes))

/-- Where the call stops within the limits. -/
theorem within_of_counted (h : Counted limits frames n capture)
    (hconsumed : consumed limits frames = frames.take n)
    (hfits : ∀ speech, speechEnd limits frames = some speech →
      Fits limits (utteredUntil limits frames speech n)) :
    WithinLimits limits frames := by
  refine ⟨?_, ?_, ?_, fun spoken hspoken => ?_⟩
  · rw [hconsumed]
    exact (List.length_take_le n frames).trans h.framesFit
  · rw [hconsumed]
    exact h.frameFits
  · rw [hconsumed]
    exact h.bytesFit
  · obtain ⟨speech, hspeech, rfl⟩ := Option.map_eq_some_iff.mp hspoken
    rw [hconsumed]
    exact hfits speech hspeech

theorem take_succ_of_get (hget : frames[n]? = some frame) :
    frames.take (n + 1) = frames.take n ++ [frame] := by
  rw [List.take_add_one, hget]
  rfl

/-- What the window and the candidate hold, one behind the other. -/
theorem lastFrames_append {frames : List AudioFrame} {position : ℕ} (maximum : ℕ)
    (h : position ≤ frames.length) :
    lastFrames maximum ((frames.take position).map AudioFrame.bytes) ++
        (frames.drop position).map AudioFrame.bytes =
      (frames.drop (position - maximum)).map AudioFrame.bytes := by
  have hlength : ((frames.take position).map AudioFrame.bytes).length = position := by
    rw [List.length_map, List.length_take, Nat.min_eq_left h]
  rw [lastFrames, hlength, ← List.map_drop, ← List.map_append]
  congr 1
  conv_rhs => rw [← List.take_append_drop position frames]
  rw [List.drop_append_of_le_length]
  rw [List.length_take]
  omega

/-- A frame before the utterance is active: the loop goes on, with the utterance or without, or a
limit is exceeded. -/
theorem listen_spec (h : Listening limits frames n count capture)
    (hget : frames[n]? = some frame) (hreached : Reached limits frames (n + 1))
    {counted : Capture} (hcounted : Counted limits frames (n + 1) counted)
    (hsame : counted = { capture with
      captureFrames := counted.captureFrames
      captureBytes := counted.captureBytes }) :
    (∃ capture', listen limits (.ok ()) frame counted = .ok (.goesOn capture') ∧
      ((∃ count, Listening limits frames (n + 1) count capture') ∨
        ∃ speech, Recording limits frames speech (n + 1) 0 capture')) ∨
    ¬ WithinLimits limits frames ∧
      listen limits (.ok ()) frame counted = .error .capacity := by
  have htake := take_succ_of_get hget
  have hbegins := h.trailing.begins
  have hlt : n < frames.length := (List.getElem?_eq_some_iff.mp hget).1
  have hspeech : isSpeech limits frames n =
      decide (limits.activationThreshold ≤ frame.probability) := by
    rw [isSpeech, hget]
    rfl
  have hcandidate : capture.candidate ++ [frame.bytes] =
      ((frames.take (n + 1)).drop (n - count)).map AudioFrame.bytes := by
    rw [h.candidate, htake, List.drop_append_of_le_length, List.map_append]
    · rfl
    · rw [List.length_take]
      omega
  have hlength : (capture.candidate ++ [frame.bytes]).length = count + 1 := by
    rw [hcandidate, List.length_map, List.length_drop, List.length_take]
    omega
  rw [listen, hsame]
  dsimp only
  split
  · rename_i hactive
    have htrue : isSpeech limits frames n = true := by rw [hspeech]; simpa using hactive
    rw [hlength]
    split
    · rename_i hshort
      refine Or.inl ⟨_, rfl, Or.inl ⟨count + 1, ?_⟩⟩
      refine ⟨⟨hcounted.captureFrames, hcounted.captureBytes, hcounted.framesFit,
        hcounted.frameFits, hcounted.bytesFit⟩, h.trailing.grows htrue hshort, h.active, ?_, ?_,
        h.utterance, h.utteranceBytes, h.silenceFrames⟩
      · rw [Nat.add_sub_add_right]
        exact hcandidate
      · rw [Nat.add_sub_add_right]
        exact h.prefixed
    · rename_i hlong
      obtain ⟨hfirst, hmin⟩ := h.trailing.reaches htrue (Nat.le_of_not_lt hlong) hlt
      have hbuffered : capture.prefixed ++ (capture.candidate ++ [frame.bytes]) =
          utteredUntil limits frames (n + 1) (n + 1) := by
        have hwindow := @lastFrames_append (frames.take (n + 1)) (n - count)
          limits.prefixPaddingFrames (by rw [List.length_take]; omega)
        rw [List.take_take, Nat.min_eq_left (by omega)] at hwindow
        rw [h.prefixed, hcandidate, hwindow, utteredUntil, hmin, Nat.add_sub_add_right]
      have hempty : Fits limits capture.utterance := by
        rw [h.utterance]
        exact ⟨Nat.zero_le _, Nat.zero_le _⟩
      have hzero : capture.utteranceBytes = totalBytes capture.utterance := by
        rw [h.utteranceBytes, h.utterance]
        rfl
      have happended : capture.utterance ++ (capture.prefixed ++ (capture.candidate ++
          [frame.bytes])) = utteredUntil limits frames (n + 1) (n + 1) := by
        rw [h.utterance, hbuffered]
        rfl
      obtain ⟨hfits, happend⟩ | ⟨hfull, happend⟩ := @appendFrames_spec limits { capture with
        captureFrames := counted.captureFrames
        captureBytes := counted.captureBytes
        active := true } hempty hzero (capture.prefixed ++ (capture.candidate ++ [frame.bytes]))
      · rw [happend]
        rw [happended] at hfits
        refine Or.inl ⟨_, rfl, Or.inr ⟨n + 1, ?_⟩⟩
        refine ⟨⟨hcounted.captureFrames, hcounted.captureBytes, hcounted.framesFit,
          hcounted.frameFits, hcounted.bytesFit⟩, hfirst, trailing_start limits.endSilence_safe.1,
          rfl, happended, ?_, hfits, h.silenceFrames⟩
        exact congrArg totalBytes happended
      · rw [happend]
        rw [happended] at hfull
        exact Or.inr ⟨not_within_of_not_fits hfirst hreached hfull, rfl⟩
  · rename_i hquiet
    have hfalse : isSpeech limits frames n = false := by rw [hspeech]; simpa using hquiet
    refine Or.inl ⟨_, rfl, Or.inl ⟨0, ?_⟩⟩
    refine ⟨⟨hcounted.captureFrames, hcounted.captureBytes, hcounted.framesFit,
      hcounted.frameFits, hcounted.bytesFit⟩, h.trailing.breaks hfalse, h.active, ?_, ?_,
      h.utterance, h.utteranceBytes, h.silenceFrames⟩
    · simp
    · show (capture.candidate ++ [frame.bytes]).foldl _ capture.prefixed = _
      rw [h.prefixed, foldl_pushPrefix, hcandidate, ← List.map_append]
      congr 2
      have hsplit := List.take_append_drop (n - count) (frames.take (n + 1))
      rw [List.take_take, Nat.min_eq_left (by omega)] at hsplit
      exact hsplit

/-- The frames that an utterance grows by. -/
theorem utteredUntil_succ (hget : frames[n]? = some frame)
    (h : speech - limits.minSpeechFrames - limits.prefixPaddingFrames ≤ n) :
    utteredUntil limits frames speech (n + 1) =
      utteredUntil limits frames speech n ++ [frame.bytes] := by
  have hlt : n < frames.length := (List.getElem?_eq_some_iff.mp hget).1
  rw [utteredUntil, take_succ_of_get hget, List.drop_append_of_le_length, List.map_append]
  · rfl
  · rw [List.length_take]
    omega

/-- A frame of the utterance: the loop goes on, or answers it at the end of the silence, or a limit
is exceeded. -/
theorem record_spec (h : Recording limits frames speech n count capture)
    (hget : frames[n]? = some frame) (hreached : Reached limits frames (n + 1))
    {counted : Capture} (hcounted : Counted limits frames (n + 1) counted)
    (hsame : counted = { capture with
      captureFrames := counted.captureFrames
      captureBytes := counted.captureBytes }) :
    (∃ capture' count, record limits frame counted = .ok (.goesOn capture') ∧
      Recording limits frames speech (n + 1) count capture') ∨
    (record limits frame counted =
        .ok (.returns (utteranceOf (utteredUntil limits frames speech (n + 1)))) ∧
      stopsAt limits frames = some (n + 1) ∧
      Fits limits (utteredUntil limits frames speech (n + 1))) ∨
    ¬ WithinLimits limits frames ∧ record limits frame counted = .error .capacity := by
  have hbegins := h.trailing.begins
  have hlt : n < frames.length := (List.getElem?_eq_some_iff.mp hget).1
  have hsilence : isSilence limits frames n =
      decide (frame.probability < limits.deactivationThreshold) := by
    rw [isSilence, hget]
    rfl
  have hgrown : capture.utterance ++ [frame.bytes] =
      utteredUntil limits frames speech (n + 1) := by
    rw [utteredUntil_succ hget (by omega), h.utterance]
  have hbytes : capture.utteranceBytes = totalBytes capture.utterance := by
    rw [h.utteranceBytes, h.utterance]
  have hcounts : ∀ capture' : Capture, capture'.captureFrames = counted.captureFrames →
      capture'.captureBytes = counted.captureBytes →
        Counted limits frames (n + 1) capture' := fun capture' hframes hsize =>
    ⟨hframes.trans hcounted.captureFrames, hsize.trans hcounted.captureBytes, hcounted.framesFit,
      hcounted.frameFits, hcounted.bytesFit⟩
  rw [record, hsame]
  obtain ⟨hfits, happend⟩ | ⟨hfull, happend⟩ := @appendFrame_spec { capture with
      captureFrames := counted.captureFrames
      captureBytes := counted.captureBytes } limits hbytes frame.bytes
  · rw [happend]
    have hfits : Fits limits (utteredUntil limits frames speech (n + 1)) := hgrown ▸ hfits
    by_cases hquiet : frame.probability < limits.deactivationThreshold
    · have htrue : isSilence limits frames n = true := by rw [hsilence]; simpa using hquiet
      by_cases hends : limits.endSilenceFrames ≤ count + 1
      · obtain ⟨hstop, -⟩ := h.trailing.reaches htrue hends hlt
        refine Or.inr (Or.inl ⟨?_, ?_, hfits⟩)
        · show (if frame.probability < limits.deactivationThreshold then
              if limits.endSilenceFrames ≤ capture.silenceFrames + 1 then _ else _ else _) = _
          rw [if_pos hquiet, if_pos (by rwa [h.silenceFrames])]
          show Except.ok (Turn.returns ⟨(capture.utterance ++ [frame.bytes]).length, _, _⟩) = _
          rw [hgrown]
          rfl
        · rw [stopsAt, h.begun]
          exact hstop
      · have hshort : ¬ limits.endSilenceFrames ≤ capture.silenceFrames + 1 := by
          rwa [h.silenceFrames]
        refine Or.inl ⟨_, count + 1, (if_pos hquiet).trans (if_neg hshort), ?_⟩
        exact ⟨hcounts _ rfl rfl, h.begun, h.trailing.grows htrue (by omega), h.active, hgrown,
          congrArg totalBytes hgrown, hfits, congrArg Nat.succ h.silenceFrames⟩
    · have hfalse : isSilence limits frames n = false := by rw [hsilence]; simpa using hquiet
      exact Or.inl ⟨_, 0, if_neg hquiet, hcounts _ rfl rfl, h.begun, h.trailing.breaks hfalse,
        h.active, hgrown, congrArg totalBytes hgrown, hfits, rfl⟩
  · rw [happend]
    have hfull : ¬ Fits limits (utteredUntil limits frames speech (n + 1)) := hgrown ▸ hfull
    exact Or.inr (Or.inr ⟨not_within_of_not_fits h.begun hreached hfull, rfl⟩)

/-- A call that has come to its end. -/
theorem exact_of_end (h : Counted limits frames n capture)
    (hstop : (stopsAt limits frames).getD frames.length = n) (hle : n ≤ frames.length)
    (hfits : ∀ speech, speechEnd limits frames = some speech →
      Fits limits (utteredUntil limits frames speech n)) :
    Exact limits frames
      (.ok ((speechEnd limits frames).map fun speech =>
          utteranceOf (utteredUntil limits frames speech n)),
        ⟨(stopsAt limits frames).isNone, frames.drop n⟩) := by
  have hconsumed : consumed limits frames = frames.take n := by rw [consumed, hstop]
  refine ⟨fun _ => ?_, fun hover => absurd (within_of_counted h hconsumed hfits) hover⟩
  rw [uttered, hconsumed, List.length_take, Nat.min_eq_left hle, Option.map_map]
  rfl

/-- A call that has exceeded a limit. -/
theorem exact_of_capacity (h : ¬ WithinLimits limits frames) (session : Session)
    (hclosed : session.closed = true) : Exact limits frames (.error .capacity, session) :=
  ⟨fun hwithin => absurd hwithin h, fun _ => ⟨rfl, hclosed⟩⟩

theorem get_of_drop {rest : List AudioFrame} (h : frames.drop n = frame :: rest) :
    frames[n]? = some frame ∧ frames.drop (n + 1) = rest := by
  constructor
  · rw [← List.head?_drop, h]
    rfl
  · rw [← List.tail_drop, h]
    rfl

/-- The frames of one turn, up to the detector. -/
theorem turn_eq (hget : frames[n]? = some frame) (hvalid : ValidFrame bytesPerFrame frame)
    (h : Counted limits frames n capture) (hreached : Reached limits frames (n + 1)) :
    (∃ counted, Counted limits frames (n + 1) counted ∧
      counted = { capture with
        captureFrames := counted.captureFrames
        captureBytes := counted.captureBytes } ∧
      turn limits bytesPerFrame (.ok ()) frame capture =
        if capture.active then record limits frame counted
        else listen limits (.ok ()) frame counted) ∨
    ¬ WithinLimits limits frames ∧
      turn limits bytesPerFrame (.ok ()) frame capture = .error .capacity := by
  have hprobability : ¬ (frame.probability < 0 ∨ 1 < frame.probability) := by
    rintro (hlow | hhigh)
    · exact absurd hlow (not_lt.mpr hvalid.probability.1)
    · exact absurd hhigh (not_lt.mpr hvalid.probability.2)
  rw [turn]
  obtain ⟨hcounted, hinspect⟩ | ⟨hover, hinspect⟩ := inspectFrame_spec h hget hvalid hreached
  · rw [hinspect]
    exact Or.inl ⟨_, hcounted, rfl, if_neg hprobability⟩
  · rw [hinspect]
    exact Or.inr ⟨hover, rfl⟩

/-- The loop while the utterance is active. -/
theorem captureLoop_recording (hvalid : ∀ frame ∈ frames, ValidFrame bytesPerFrame frame)
    {rest : List AudioFrame} (hrest : frames.drop n = rest) (hle : n ≤ frames.length)
    (h : Recording limits frames speech n count capture) :
    Exact limits frames (captureLoop limits bytesPerFrame (.ok ()) capture rest) := by
  induction rest generalizing n count capture with
  | nil =>
    have hn : n = frames.length := Nat.le_antisymm hle (List.drop_eq_nil_iff.mp hrest)
    have hstop : stopsAt limits frames = none := by
      rw [stopsAt, h.begun]
      subst hn
      exact h.trailing.none
    have hfits : ∀ other, speechEnd limits frames = some other →
        Fits limits (utteredUntil limits frames other n) := by
      intro other hother
      obtain rfl := Option.some.inj (h.begun.symm.trans hother)
      exact h.fits
    have hend := exact_of_end h.counted (by rw [hstop, hn]; rfl) hle hfits
    have hmade : makeUtterance capture = utteranceOf (utteredUntil limits frames speech n) := by
      rw [makeUtterance, h.utterance, h.utteranceBytes]
      rfl
    rw [h.begun, hstop, hrest] at hend
    rw [captureLoop, h.active, if_pos rfl, hmade]
    exact hend
  | cons frame rest ih =>
    obtain ⟨hget, hdrop⟩ := get_of_drop hrest
    have hlt : n < frames.length := (List.getElem?_eq_some_iff.mp hget).1
    have hframe := hvalid frame (List.mem_of_getElem? hget)
    have hreached := h.reached hlt
    rw [captureLoop]
    obtain ⟨counted, hcounted, hsame, hturn⟩ | ⟨hover, hturn⟩ :=
      turn_eq hget hframe h.counted hreached
    · rw [hturn, h.active, if_pos rfl]
      obtain ⟨capture', count, hrecord, hnext⟩ | ⟨hrecord, hstop, hfits⟩ | ⟨hover, hrecord⟩ :=
        record_spec h hget hreached hcounted hsame
      · rw [hrecord]
        exact ih hdrop hlt hnext
      · rw [hrecord]
        have hfits : ∀ other, speechEnd limits frames = some other →
            Fits limits (utteredUntil limits frames other (n + 1)) := by
          intro other hother
          obtain rfl := Option.some.inj (h.begun.symm.trans hother)
          exact hfits
        have hend := exact_of_end hcounted (by rw [hstop]; rfl) hlt hfits
        rw [h.begun, hstop, hdrop] at hend
        exact hend
      · rw [hrecord]
        exact exact_of_capacity hover _ rfl
    · rw [hturn]
      exact exact_of_capacity hover _ rfl

/-- The loop before that. -/
theorem captureLoop_listening (hvalid : ∀ frame ∈ frames, ValidFrame bytesPerFrame frame)
    {rest : List AudioFrame} (hrest : frames.drop n = rest) (hle : n ≤ frames.length)
    (h : Listening limits frames n count capture) :
    Exact limits frames (captureLoop limits bytesPerFrame (.ok ()) capture rest) := by
  induction rest generalizing n count capture with
  | nil =>
    have hn : n = frames.length := Nat.le_antisymm hle (List.drop_eq_nil_iff.mp hrest)
    have hspeech : speechEnd limits frames = none := by
      subst hn
      exact h.trailing.none
    have hstop : stopsAt limits frames = none := by
      rw [stopsAt, hspeech]
      rfl
    have hend := exact_of_end h.counted (by rw [hstop, hn]; rfl) hle fun speech hother => by
      rw [hspeech] at hother
      cases hother
    rw [hspeech, hstop, hrest] at hend
    rw [captureLoop, h.active]
    exact hend
  | cons frame rest ih =>
    obtain ⟨hget, hdrop⟩ := get_of_drop hrest
    have hlt : n < frames.length := (List.getElem?_eq_some_iff.mp hget).1
    have hframe := hvalid frame (List.mem_of_getElem? hget)
    have hreached := h.reached hlt
    rw [captureLoop]
    obtain ⟨counted, hcounted, hsame, hturn⟩ | ⟨hover, hturn⟩ :=
      turn_eq hget hframe h.counted hreached
    · rw [hturn, h.active, if_neg Bool.false_ne_true]
      obtain ⟨capture', hlisten, ⟨count, hnext⟩ | ⟨speech, hnext⟩⟩ | ⟨hover, hlisten⟩ :=
        listen_spec h hget hreached hcounted hsame
      · rw [hlisten]
        exact ih hdrop hlt hnext
      · rw [hlisten]
        exact captureLoop_recording hvalid hdrop hlt hnext
      · rw [hlisten]
        exact exact_of_capacity hover _ rfl
    · rw [hturn]
      exact exact_of_capacity hover _ rfl

/-- A call on an open session answers what it should, and leaves what it should. -/
theorem captureNext_exact (hvalid : ∀ frame ∈ frames, ValidFrame bytesPerFrame frame) :
    Exact limits frames (captureNext limits bytesPerFrame (.ok ()) ⟨false, frames⟩) := by
  refine captureLoop_listening hvalid List.drop_zero (Nat.zero_le _) ⟨⟨rfl, ?_, ?_, ?_, ?_⟩,
    trailing_start limits.minSpeech_safe.1, rfl, ?_, ?_, rfl, rfl, rfl⟩
  all_goals simp [Capture.start, totalBytes, lastFrames]

/-! ## Call after call -/

/-- What the buffers hold is the end of what has been read. -/
structure Kept (limits : CaptureLimits) (seen : List (List UInt8)) (capture : Capture) : Prop where
  listening : capture.active = false → capture.utterance = [] ∧
    ∃ before, seen = before ++ capture.candidate ∧
      capture.prefixed = lastFrames limits.prefixPaddingFrames before
  recording : capture.active = true → capture.utterance <:+ seen

theorem kept_start (limits : CaptureLimits) : Kept limits [] .start :=
  ⟨fun _ => ⟨rfl, [], rfl, by simp [Capture.start, lastFrames]⟩, nofun⟩

theorem suffix_concat {frames more : List (List UInt8)} (h : frames <:+ more) (last : List UInt8) :
    frames ++ [last] <:+ more ++ [last] := by
  obtain ⟨before, rfl⟩ := h
  rw [List.append_assoc]
  exact List.suffix_append _ _

theorem appendFrame_ok {capture' : Capture} {frame : List UInt8}
    (h : appendFrame limits frame capture = .ok capture') :
    capture'.utterance = capture.utterance ++ [frame] ∧ capture'.active = capture.active := by
  rw [appendFrame] at h
  split at h
  · cases h
  · obtain ⟨bytes, -, hset⟩ := bind_eq_ok.mp h
    cases hset
    exact ⟨rfl, rfl⟩

theorem appendFrames_ok {capture' : Capture} {buffered : List (List UInt8)}
    (h : buffered.foldlM (fun capture buffered => appendFrame limits buffered capture) capture =
      .ok capture') :
    capture'.utterance = capture.utterance ++ buffered ∧ capture'.active = capture.active := by
  induction buffered generalizing capture with
  | nil =>
    cases h
    exact ⟨(List.append_nil _).symm, rfl⟩
  | cons frame more ih =>
    obtain ⟨next, hnext, hrest⟩ := bind_eq_ok.mp h
    obtain ⟨hutterance, hactive⟩ := appendFrame_ok hnext
    obtain ⟨hmore, hsame⟩ := ih hrest
    rw [hmore, hutterance, List.append_assoc]
    exact ⟨rfl, hsame.trans hactive⟩

theorem inspectFrame_ok {capture' : Capture}
    (h : inspectFrame limits bytesPerFrame frame capture = .ok capture') :
    capture' = { capture with
      captureFrames := capture'.captureFrames
      captureBytes := capture'.captureBytes } := by
  rw [inspectFrame] at h
  split at h
  · cases h
  · split at h
    · cases h
    · split at h
      · cases h
      · split at h
        · cases h
        · obtain ⟨bytes, -, hset⟩ := bind_eq_ok.mp h
          cases hset
          rfl

/-- What a turn leaves of what has been read, or answers of it. -/
def TurnKept (limits : CaptureLimits) (seen : List (List UInt8)) : Turn → Prop
  | .goesOn capture => Kept limits seen capture
  | .returns utterance => utterance.audio <:+ seen

theorem listen_kept {onSpeechStart : Except CaptureError Unit} {seen : List (List UInt8)}
    (h : Kept limits seen capture) (hactive : capture.active = false) {next : Turn}
    (hlisten : listen limits onSpeechStart frame capture = .ok next) :
    TurnKept limits (seen ++ [frame.bytes]) next := by
  obtain ⟨hutterance, before, rfl, hprefixed⟩ := h.listening hactive
  rw [listen] at hlisten
  split at hlisten
  · dsimp only at hlisten
    split at hlisten
    · cases hlisten
      refine ⟨fun _ => ⟨hutterance, before, List.append_assoc .., hprefixed⟩, fun htrue => ?_⟩
      rw [hactive] at htrue
      cases htrue
    · obtain ⟨started, happended, hlisten⟩ := bind_eq_ok.mp hlisten
      obtain ⟨-, -, hlisten⟩ := bind_eq_ok.mp hlisten
      cases hlisten
      obtain ⟨hgrown, hsame⟩ := appendFrames_ok happended
      refine ⟨fun hfalse => ?_, fun _ => ?_⟩
      · rw [hsame] at hfalse
        cases hfalse
      · show started.utterance <:+ _
        rw [hgrown, hutterance, hprefixed, List.append_assoc]
        obtain ⟨dropped, hbefore⟩ := List.drop_suffix (before.length - limits.prefixPaddingFrames) before
        exact ⟨dropped, by rw [List.nil_append, ← List.append_assoc]; exact congrArg (· ++ _) hbefore⟩
  · cases hlisten
    refine ⟨fun _ => ⟨hutterance, before ++ (capture.candidate ++ [frame.bytes]), ?_, ?_⟩,
      fun htrue => ?_⟩
    · simp
    · show (capture.candidate ++ [frame.bytes]).foldl _ capture.prefixed = _
      rw [hprefixed, foldl_pushPrefix]
    · rw [hactive] at htrue
      cases htrue

theorem record_kept {seen : List (List UInt8)} (h : Kept limits seen capture)
    (hactive : capture.active = true) {next : Turn}
    (hrecord : record limits frame capture = .ok next) :
    TurnKept limits (seen ++ [frame.bytes]) next := by
  obtain ⟨grown, happended, hrecord⟩ := bind_eq_ok.mp hrecord
  obtain ⟨hgrown, hsame⟩ := appendFrame_ok happended
  have hend : grown.utterance <:+ seen ++ [frame.bytes] := by
    rw [hgrown]
    exact suffix_concat (h.recording hactive) _
  have hkept : ∀ silenceFrames, Kept limits (seen ++ [frame.bytes])
      { grown with silenceFrames } := by
    refine fun silenceFrames => ⟨fun hfalse => ?_, fun _ => hend⟩
    have hfalse : grown.active = false := hfalse
    rw [hsame, hactive] at hfalse
    cases hfalse
  split at hrecord
  · dsimp only at hrecord
    split at hrecord
    · cases hrecord
      exact hend
    · cases hrecord
      exact hkept _
  · cases hrecord
    exact hkept _

theorem turn_kept {onSpeechStart : Except CaptureError Unit} {seen : List (List UInt8)}
    (h : Kept limits seen capture) {next : Turn}
    (hturn : turn limits bytesPerFrame onSpeechStart frame capture = .ok next) :
    TurnKept limits (seen ++ [frame.bytes]) next := by
  obtain ⟨counted, hinspect, hturn⟩ := bind_eq_ok.mp hturn
  have hsame := inspectFrame_ok hinspect
  have hkept : Kept limits seen counted := by
    rw [hsame]
    exact ⟨h.listening, h.recording⟩
  split at hturn
  · cases hturn
  · split at hturn
    · rename_i hactive
      exact record_kept hkept hactive hturn
    · rename_i hactive
      exact listen_kept hkept (by simpa using hactive) hturn

/-- A call reads a segment of the frames ahead, and answers the end of it or of what it has read
before. -/
theorem captureLoop_segment (onSpeechStart : Except CaptureError Unit) {seen : List (List UInt8)}
    (h : Kept limits seen capture) (rest : List AudioFrame) :
    ∃ segment,
      segment ++ (captureLoop limits bytesPerFrame onSpeechStart capture rest).2.frames = rest ∧
      ∀ utterance,
        (captureLoop limits bytesPerFrame onSpeechStart capture rest).1 = .ok (some utterance) →
          utterance.audio <:+ seen ++ segment.map AudioFrame.bytes := by
  induction rest generalizing capture seen with
  | nil =>
    refine ⟨[], rfl, fun utterance hanswer => ?_⟩
    rw [captureLoop] at hanswer
    by_cases hactive : capture.active = true
    · rw [if_pos hactive] at hanswer
      cases hanswer
      rw [List.map_nil, List.append_nil]
      exact h.recording hactive
    · rw [if_neg hactive] at hanswer
      cases hanswer
  | cons frame rest ih =>
    rw [captureLoop]
    cases hturn : turn limits bytesPerFrame onSpeechStart frame capture with
    | error error => exact ⟨[frame], rfl, nofun⟩
    | ok next =>
      have hkept := turn_kept h hturn
      cases next with
      | returns utterance =>
        refine ⟨[frame], rfl, ?_⟩
        rintro other ⟨⟩
        exact hkept
      | goesOn capture' =>
        obtain ⟨segment, hsegment, hanswer⟩ := ih hkept
        refine ⟨frame :: segment, congrArg (frame :: ·) hsegment, fun utterance hsome => ?_⟩
        have hend := hanswer utterance hsome
        rwa [List.append_assoc] at hend

/-- Call after call takes one segment of the frames after the other, and answers the end of its
own. -/
theorem captureAll_segments (limits : CaptureLimits) (bytesPerFrame : ℕ)
    (calls : List (Except CaptureError Unit)) (session : Session) :
    ∃ segments : List (List AudioFrame),
      segments.flatten ++ (captureAll limits bytesPerFrame calls session).2.frames =
        session.frames ∧
      List.Forall₂ (fun answer segment => ∀ utterance, answer = .ok (some utterance) →
        utterance.audio <:+ segment.map AudioFrame.bytes)
        (captureAll limits bytesPerFrame calls session).1 segments := by
  induction calls generalizing session with
  | nil => exact ⟨[], rfl, .nil⟩
  | cons call calls ih =>
    have hnext : ∃ segment,
        segment ++ (captureNext limits bytesPerFrame call session).2.frames = session.frames ∧
        ∀ utterance, (captureNext limits bytesPerFrame call session).1 = .ok (some utterance) →
          utterance.audio <:+ segment.map AudioFrame.bytes := by
      rw [captureNext]
      split
      · exact ⟨[], rfl, nofun⟩
      · exact captureLoop_segment call (kept_start limits) session.frames
    obtain ⟨segment, hsegment, hanswer⟩ := hnext
    obtain ⟨segments, hsegments, hanswers⟩ := ih (captureNext limits bytesPerFrame call session).2
    refine ⟨segment :: segments, ?_, .cons hanswer hanswers⟩
    rw [List.flatten_cons, List.append_assoc]
    show segment ++ (segments.flatten ++ (captureAll limits bytesPerFrame calls
      (captureNext limits bytesPerFrame call session).2).2.frames) = _
    rw [hsegments, hsegment]

/-- For every configuration and all frames of whole samples with probabilities: a call within the
limits reads the frames up to the end of the first silence behind the first speech, or all of them,
and answers with exact counts the frames from at most `prefixPaddingFrames` before that speech on;
nothing exactly where there is no such speech; beyond the limits it fails.  And whatever the frames
are, the calls of a session read one segment after the other, and each answers frames of its own. -/
theorem utterances_segmented (limits : CaptureLimits) (bytesPerFrame : ℕ) :
    (∀ frames : List AudioFrame, (∀ frame ∈ frames, ValidFrame bytesPerFrame frame) →
      (WithinLimits limits frames →
        captureNext limits bytesPerFrame (.ok ()) ⟨false, frames⟩ =
          (.ok ((uttered limits frames).map utteranceOf),
            ⟨(stopsAt limits frames).isNone, frames.drop (consumed limits frames).length⟩)) ∧
      (¬ WithinLimits limits frames →
        (captureNext limits bytesPerFrame (.ok ()) ⟨false, frames⟩).1 = .error .capacity) ∧
      (uttered limits frames = none ↔ ∀ e ≤ frames.length,
        ¬ RunEnds (isSpeech limits frames) 0 limits.minSpeechFrames e)) ∧
    ∀ (calls : List (Except CaptureError Unit)) (session : Session),
      ∃ segments : List (List AudioFrame),
        segments.flatten ++ (captureAll limits bytesPerFrame calls session).2.frames =
          session.frames ∧
        List.Forall₂ (fun answer segment => ∀ utterance, answer = .ok (some utterance) →
          utterance.audio <:+ segment.map AudioFrame.bytes)
          (captureAll limits bytesPerFrame calls session).1 segments := by
  refine ⟨fun frames hvalid => ?_, captureAll_segments limits bytesPerFrame⟩
  obtain ⟨hwithin, hover⟩ := @captureNext_exact limits bytesPerFrame frames hvalid
  refine ⟨hwithin, fun hexceeded => (hover hexceeded).1, ?_⟩
  rw [uttered, Option.map_eq_none_iff, speechEnd, firstRun_eq_none]

/-- Two frames of speech begin an utterance, two of silence end it, and one before it is kept. -/
def smallLimits : CaptureLimits where
  activationThreshold := 1 / 2
  deactivationThreshold := 1 / 4
  minSpeechFrames := 2
  endSilenceFrames := 2
  prefixPaddingFrames := 1
  maxCaptureFrames := 100
  maxCaptureBytes := 1000
  maxUtteranceFrames := 50
  maxFrameBytes := 10
  maxUtteranceBytes := 500
  activation_probability := by constructor <;> decide +kernel
  deactivation_probability := by constructor <;> decide +kernel
  thresholds := by decide +kernel
  minSpeech_safe := by decide
  endSilence_safe := by decide
  prefixPadding_safe := by decide
  captureFrames_safe := by decide
  captureBytes_safe := by decide
  utteranceFrames_safe := by decide
  frameBytes_safe := by decide
  utteranceBytes_safe := by decide
  minSpeech_captured := by decide
  minSpeech_uttered := by decide

/-- A single frame of speech, then speech with a short break, then silence, then a last frame. -/
def smallFrames : List AudioFrame :=
  [⟨[1, 1], 3 / 5⟩, ⟨[2, 2], 0⟩, ⟨[3, 3], 1 / 5⟩, ⟨[4, 4], 7 / 10⟩, ⟨[5, 5], 1⟩, ⟨[6, 6], 1 / 10⟩,
    ⟨[7, 7], 3 / 10⟩, ⟨[8, 8], 1 / 10⟩, ⟨[9, 9], 0⟩, ⟨[10, 10], 1⟩]

theorem utterances_segmented_small :
    captureNext smallLimits 2 (.ok ()) ⟨false, smallFrames⟩ =
      (.ok (some ⟨7, 14, [[3, 3], [4, 4], [5, 5], [6, 6], [7, 7], [8, 8], [9, 9]]⟩),
        ⟨false, [⟨[10, 10], 1⟩]⟩) := by
  have hspeech : speechEnd smallLimits smallFrames = some 5 := by decide +kernel
  have hstops : stopsAt smallLimits smallFrames = some 9 := by decide +kernel
  have huttered : uttered smallLimits smallFrames =
      some [[3, 3], [4, 4], [5, 5], [6, 6], [7, 7], [8, 8], [9, 9]] := by
    rw [uttered, consumed, hspeech, hstops]
    rfl
  have hconsumed : consumed smallLimits smallFrames = smallFrames.take 9 := by
    rw [consumed, hstops]
    rfl
  have hvalid : ∀ frame ∈ smallFrames, ValidFrame 2 frame := by
    intro frame hframe
    have hchecked : ∀ frame ∈ smallFrames, frame.bytes.length ≠ 0 ∧
        frame.bytes.length % 2 = 0 ∧ 0 ≤ frame.probability ∧ frame.probability ≤ 1 := by
      decide +kernel
    obtain ⟨hnonempty, hwhole, hprobability⟩ := hchecked frame hframe
    exact ⟨hnonempty, hwhole, hprobability⟩
  have hwithin : WithinLimits smallLimits smallFrames := by
    refine ⟨?_, ?_, ?_, fun spoken hspoken => ?_⟩
    · rw [hconsumed]
      decide
    · rw [hconsumed]
      decide
    · rw [hconsumed]
      decide
    · obtain rfl := Option.some.inj (huttered.symm.trans hspoken)
      decide
  have hexact := ((utterances_segmented smallLimits 2).1 smallFrames hvalid).1 hwithin
  rw [huttered, hstops, hconsumed] at hexact
  exact hexact

end OpenGameAgent.VoiceActivity
