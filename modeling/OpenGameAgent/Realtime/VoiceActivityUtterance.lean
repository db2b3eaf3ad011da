import Mathlib.Data.Rat.Defs
import Mathlib.Algebra.Order.Ring.Rat
import OpenGameAgent.Protocol.Json

/-!
# Voice-activity utterances

`packages/realtime-local/src/voice-activity-utterance.ts`: a session reads the frames of a
microphone one by one, asks a detector how likely each of them is speech, and cuts the utterances
out of them.  A frame is given with the probability that the detector answers for it.
-/

namespace OpenGameAgent.VoiceActivity

/-- The limits that the constructor lets pass. -/
structure CaptureLimits where
  activationThreshold : ℚ
  deactivationThreshold : ℚ
  minSpeechFrames : ℕ
  endSilenceFrames : ℕ
  prefixPaddingFrames : ℕ
  maxCaptureFrames : ℕ
  maxCaptureBytes : ℕ
  maxUtteranceFrames : ℕ
  maxFrameBytes : ℕ
  maxUtteranceBytes : ℕ
  activation_probability : 0 ≤ activationThreshold ∧ activationThreshold ≤ 1
  deactivation_probability : 0 ≤ deactivationThreshold ∧ deactivationThreshold ≤ 1
  thresholds : deactivationThreshold ≤ activationThreshold
  minSpeech_safe : 0 < minSpeechFrames ∧ minSpeechFrames ≤ maxSafeInteger
  endSilence_safe : 0 < endSilenceFrames ∧ endSilenceFrames ≤ maxSafeInteger
  prefixPadding_safe : prefixPaddingFrames ≤ maxSafeInteger
  captureFrames_safe : 0 < maxCaptureFrames ∧ maxCaptureFrames ≤ maxSafeInteger
  captureBytes_safe : 0 < maxCaptureBytes ∧ maxCaptureBytes ≤ maxSafeInteger
  utteranceFrames_safe : 0 < maxUtteranceFrames ∧ maxUtteranceFrames ≤ maxSafeInteger
  frameBytes_safe : 0 < maxFrameBytes ∧ maxFrameBytes ≤ maxSafeInteger
  utteranceBytes_safe : 0 < maxUtteranceBytes ∧ maxUtteranceBytes ≤ maxSafeInteger
  minSpeech_captured : minSpeechFrames ≤ maxCaptureFrames
  minSpeech_uttered : minSpeechFrames ≤ maxUtteranceFrames

/-- A frame as the iterator yields it, and what the detector answers for it. -/
structure AudioFrame where
  bytes : List UInt8
  probability : ℚ
deriving DecidableEq

structure CapturedVoiceUtterance where
  frameCount : ℕ
  byteLength : ℕ
  audio : List (List UInt8)
deriving DecidableEq

inductive CaptureError where
  /-- `LocalSpeechCapacityError`. -/
  | capacity
  /-- `LocalSpeechProtocolError`. -/
  | protocol
  /-- What `onSpeechStart` has thrown. -/
  | callback
deriving DecidableEq

variable (limits : CaptureLimits) (bytesPerFrame : ℕ) (onSpeechStart : Except CaptureError Unit)

/-- The variables of `captureNext`. -/
structure Capture where
  prefixed : List (List UInt8)
  candidate : List (List UInt8)
  utterance : List (List UInt8)
  captureFrames : ℕ
  captureBytes : ℕ
  utteranceBytes : ℕ
  active : Bool
  silenceFrames : ℕ

def Capture.start : Capture := ⟨[], [], [], 0, 0, 0, false, 0⟩

def addBounded (current next maximum : ℕ) : Except CaptureError ℕ :=
  if maximum < next ∨ maximum - next < current then .error .capacity else .ok (current + next)

def pushPrefix (prefixed : List (List UInt8)) (frame : List UInt8) (maximum : ℕ) :
    List (List UInt8) :=
  if maximum = 0 then prefixed
  else
    let pushed := prefixed ++ [frame]
    if maximum < pushed.length then pushed.tail else pushed

def appendFrame (frame : List UInt8) (capture : Capture) : Except CaptureError Capture :=
  if limits.maxUtteranceFrames ≤ capture.utterance.length then .error .capacity
  else do
    let bytes ← addBounded capture.utteranceBytes frame.length limits.maxUtteranceBytes
    .ok { capture with utterance := capture.utterance ++ [frame], utteranceBytes := bytes }

def makeUtterance (capture : Capture) : CapturedVoiceUtterance :=
  ⟨capture.utterance.length, capture.utteranceBytes, capture.utterance⟩

/-- What comes before the detector is asked. -/
def inspectFrame (frame : AudioFrame) (capture : Capture) : Except CaptureError Capture :=
  if limits.maxCaptureFrames < capture.captureFrames + 1 then .error .capacity
  else if limits.maxFrameBytes < frame.bytes.length then .error .capacity
  else if frame.bytes.length = 0 then .error .protocol
  else if frame.bytes.length % bytesPerFrame ≠ 0 then .error .protocol
  else do
    let bytes ← addBounded capture.captureBytes frame.bytes.length limits.maxCaptureBytes
    .ok { capture with captureFrames := capture.captureFrames + 1, captureBytes := bytes }

/-- How a turn of the loop ends. -/
inductive Turn where
  | goesOn (capture : Capture)
  | returns (utterance : CapturedVoiceUtterance)

/-- A frame before the utterance is active. -/
def listen (frame : AudioFrame) (capture : Capture) : Except CaptureError Turn :=
  if limits.activationThreshold ≤ frame.probability then
    let candidate := capture.candidate ++ [frame.bytes]
    if candidate.length < limits.minSpeechFrames then
      .ok (.goesOn { capture with candidate })
    else do
      let capture ← (capture.prefixed ++ candidate).foldlM
        (fun capture buffered => appendFrame limits buffered capture)
        { capture with active := true }
      onSpeechStart
      .ok (.goesOn { capture with candidate := [] })
  else
    let buffered := capture.candidate ++ [frame.bytes]
    .ok (.goesOn { capture with
      prefixed := buffered.foldl (fun prefixed frame => pushPrefix prefixed frame
        limits.prefixPaddingFrames) capture.prefixed
      candidate := [] })

/-- A frame of the utterance. -/
def record (frame : AudioFrame) (capture : Capture) : Except CaptureError Turn := do
  let capture ← appendFrame limits frame.bytes capture
  if frame.probability < limits.deactivationThreshold then
    let capture := { capture with silenceFrames := capture.silenceFrames + 1 }
    if limits.endSilenceFrames ≤ capture.silenceFrames then .ok (.returns (makeUtterance capture))
    else .ok (.goesOn capture)
  else .ok (.goesOn { capture with silenceFrames := 0 })

/-- The body of the loop behind `iterator.next()`. -/
def turn (frame : AudioFrame) (capture : Capture) : Except CaptureError Turn := do
  let capture ← inspectFrame limits bytesPerFrame frame capture
  if frame.probability < 0 ∨ 1 < frame.probability then .error .protocol
  else if capture.active then record limits frame capture
  else listen limits onSpeechStart frame capture

/-- A session, with the frames that the iterator has not yielded. -/
structure Session where
  closed : Bool
  frames : List AudioFrame
deriving DecidableEq

abbrev Answer := Except CaptureError (Option CapturedVoiceUtterance)

/-- `while (true)`. -/
def captureLoop : Capture → List AudioFrame → Answer × Session
  | capture, [] =>
    (.ok (if capture.active then some (makeUtterance capture) else none), ⟨true, []⟩)
  | capture, frame :: rest =>
    match turn limits bytesPerFrame onSpeechStart frame capture with
    | .error error => (.error error, ⟨true, rest⟩)
    | .ok (.returns utterance) => (.ok (some utterance), ⟨false, rest⟩)
    | .ok (.goesOn capture) => captureLoop capture rest

def captureNext (session : Session) : Answer × Session :=
  if session.closed then (.ok none, session)
  else captureLoop limits bytesPerFrame onSpeechStart .start session.frames

/-- Call after call of `captureNext`, with their answers. -/
def captureAll (onSpeechStarts : List (Except CaptureError Unit)) (session : Session) :
    List Answer × Session :=
  match onSpeechStarts with
  | [] => ([], session)
  | onSpeechStart :: more =>
    let (answer, session) := captureNext limits bytesPerFrame onSpeechStart session
    let (answers, session) := captureAll more session
    (answer :: answers, session)

end OpenGameAgent.VoiceActivity
