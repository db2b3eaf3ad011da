import OpenGameAgent.Client.BoundedFetch
import OpenGameAgent.Library.LineFraming

/-!
# The limit of the events of a response

`boundSseEvents` keeps the reader of `LineFraming` in its variables (`Tracks`): behind any bytes, cut
into chunks in any way, its count is the length of the event so far, and with a validator the lines
that have ended are those it has passed to it.

* `observe_spec` — what one byte does to the variables, or why it throws.
* `sse_events_bounded` — for every response and every way of cutting it: when the transform fails,
  what it calls the validator with, and what it releases and when.
-/

namespace OpenGameAgent.Client

open LineFraming

/-- `\r` ends a line. -/
abbrev cr : UInt8 := 13

abbrev lf : UInt8 := 10

theorem cr_ne_lf : cr ≠ lf := by decide

/-- The lines of the calls that the validator lets pass. -/
def acceptedBytes (validate : SseLineValidator) (calls : List (Bytes × Bool)) : Bytes :=
  ((calls.filter fun call => validate call.1 call.2).map Prod.fst).flatten

theorem acceptedBytes_append (validate : SseLineValidator) (calls more : List (Bytes × Bool)) :
    acceptedBytes validate (calls ++ more) =
      acceptedBytes validate calls ++ acceptedBytes validate more := by
  simp [acceptedBytes]

variable {validateLine : Option SseLineValidator} {maxOutputBytes : ℕ}
  {base : List Bytes} {pass pass' : Pass} {thrown : Thrown} {c : Cursor UInt8} {line : Bytes}
  {remaining : ℕ}

/-! ## One byte -/

/-- What a chunk has done with a validator, where the lines `base` had ended before the chunk and
`remaining` of its bytes are to come. -/
structure Validated (validate : SseLineValidator) (maxOutputBytes : ℕ) (base : List Bytes)
    (called : List (Bytes × Bool)) (released : Bytes) (done : List Bytes) (line : Bytes)
    (remaining : ℕ) : Prop where
  calls : flagged base ++ called = flagged done
  accepted : ∀ call ∈ called, validate call.1 call.2 = true
  output : released = acceptedBytes validate called
  room : released.length + line.length + remaining ≤ maxOutputBytes

/-- The variables that count and collect, in a line of which `line` has been seen. -/
structure Reads (validateLine : Option SseLineValidator) (maxOutputBytes : ℕ) (base : List Bytes)
    (pass : Pass) (c : Cursor UInt8) (line : Bytes) (remaining : ℕ) : Prop where
  size : pass.bounds.eventBytes = c.opened.length + line.length
  first : pass.bounds.isFirstLine = decide (c.done = [])
  held : pass.bounds.line = validateLine.map fun _ => line
  silent : validateLine = none → pass.calls = [] ∧ pass.output = []
  validated : ∀ validate, validateLine = some validate →
    Validated validate maxOutputBytes base pass.calls pass.output c.done line remaining

/-- The flags. -/
structure Flags (bounds : SseBounds) (c : Cursor UInt8) : Prop where
  content : bounds.lineHasContent = decide (c.body ≠ [])
  pending : bounds.pendingCarriageReturn = c.pending
  blank : c.pending = true → bounds.pendingLineIsBlank = decide (c.body = [])

/-- The variables are those of the reader. -/
structure Tracks (validateLine : Option SseLineValidator) (maxOutputBytes : ℕ) (base : List Bytes)
    (pass : Pass) (c : Cursor UInt8) (remaining : ℕ) : Prop where
  reads : Reads validateLine maxOutputBytes base pass c (c.current cr) remaining
  flags : Flags pass.bounds c

/-- What has been done where an error is thrown, with the lines that have ended: the event has
`exceeded` its limit, or the validator throws at one of the lines. -/
structure Refused (validateLine : Option SseLineValidator) (base : List Bytes)
    (thrown : Thrown) (done : List Bytes) (exceeded : Prop) : Prop where
  reason : thrown.failure = .capacity ∧ exceeded ∨
    thrown.failure = .rejected ∧ ∃ validate, validateLine = some validate ∧
      ∃ call ∈ flagged done, validate call.1 call.2 = false
  silent : validateLine = none → thrown.pass.calls = [] ∧ thrown.pass.output = []
  calls : ∀ validate, validateLine = some validate →
    flagged base ++ thrown.pass.calls <+: flagged done
  output : ∀ validate, validateLine = some validate →
    thrown.pass.output = acceptedBytes validate thrown.pass.calls

theorem Refused.mono {done done' : List Bytes} {exceeded exceeded' : Prop}
    (h : Refused validateLine base thrown done exceeded) (hdone : done <+: done')
    (hexceeded : exceeded → exceeded') : Refused validateLine base thrown done' exceeded' := by
  obtain ⟨later, rfl⟩ := hdone
  refine ⟨?_, h.silent, fun validate hsome => ?_, h.output⟩
  · obtain ⟨hcapacity, hlimit⟩ | ⟨hrejected, validate, hsome, call, hcall, hfalse⟩ := h.reason
    · exact Or.inl ⟨hcapacity, hexceeded hlimit⟩
    · exact Or.inr ⟨hrejected, validate, hsome, call,
        (flagged_append done later).subset hcall, hfalse⟩
  · exact (h.calls validate hsome).trans (flagged_append done later)

/-- A byte is counted, or is one too many. -/
theorem count_spec (maxBytes : ByteLimit) (h : Reads validateLine maxOutputBytes base pass c line (remaining + 1))
    (b : UInt8) :
    match count maxBytes b pass with
    | .ok pass' =>
      c.opened.length + line.length + 1 ≤ maxBytes.value ∧
        Reads validateLine maxOutputBytes base pass' c (line ++ [b]) remaining ∧
        pass'.bounds.lineHasContent = pass.bounds.lineHasContent ∧
        pass'.bounds.pendingCarriageReturn = pass.bounds.pendingCarriageReturn ∧
        pass'.bounds.pendingLineIsBlank = pass.bounds.pendingLineIsBlank
    | .error thrown =>
      Refused validateLine base thrown c.done
        (maxBytes.value < c.opened.length + line.length + 1) := by
  obtain ⟨hsize, hfirst, hline, hsilent, hvalidated⟩ := h
  rw [count]
  dsimp only
  split
  · rename_i pass' hcount
    split at hcount
    · cases hcount
    · rename_i hfits
      cases hcount
      refine ⟨by omega, ⟨?_, hfirst, ?_, hsilent, ?_⟩, rfl, rfl, rfl⟩
      · simp [hsize, Nat.add_assoc]
      · simp [hline, Function.comp_def]
      · intro validate hsome
        obtain ⟨hcalls, haccepted, houtput, hroom⟩ := hvalidated validate hsome
        refine ⟨hcalls, haccepted, houtput, ?_⟩
        simp only [List.length_append, List.length_singleton]
        omega
  · rename_i thrown hcount
    split at hcount
    · cases hcount
      refine ⟨Or.inl ⟨rfl, by omega⟩, hsilent, fun validate hsome => ?_, fun validate hsome => ?_⟩
      · simp only [(hvalidated validate hsome).calls, List.prefix_refl]
      · exact (hvalidated validate hsome).output
    · cases hcount

/-- A line ends, and is accepted where there is a validator; or the validator throws. -/
theorem finishLine_spec {terminator : Bytes} {blank : Bool}
    (h : Reads validateLine maxOutputBytes base pass c (c.body ++ terminator) remaining)
    (hblank : blank = isBlank cr lf (c.body ++ terminator)) :
    match finishLine validateLine maxOutputBytes blank pass with
    | .ok pass' =>
      Tracks validateLine maxOutputBytes base pass' (c.finish cr lf terminator) remaining
    | .error thrown =>
      Refused validateLine base thrown (c.finish cr lf terminator).done False := by
  obtain ⟨hsize, hfirst, hline, hsilent, hvalidated⟩ := h
  have hflags : ∀ bounds : SseBounds, Flags (bounds.nextLine blank) (c.finish cr lf terminator) :=
    fun bounds => ⟨rfl, rfl, by simp⟩
  have hopened : (if blank then 0 else pass.bounds.eventBytes) =
      (c.finish cr lf terminator).opened.length := by
    rw [hsize, hblank, Cursor.finish]
    dsimp only
    split
    · rfl
    · exact List.length_append.symm
  have hdone : false = decide ((c.finish cr lf terminator).done = []) := by
    simp [Cursor.finish_done]
  cases validateLine with
  | none =>
    rw [finishLine, show pass.bounds.line = none from hline]
    refine ⟨⟨hopened, hdone, hline, hsilent, by simp⟩, hflags _⟩
  | some validate =>
    obtain ⟨hcalls, haccepted, houtput, hroom⟩ := hvalidated validate rfl
    have hcalled : flagged base ++ (pass.calls ++ [(c.body ++ terminator, pass.bounds.isFirstLine)]) =
        flagged (c.finish cr lf terminator).done := by
      rw [← List.append_assoc, hcalls, hfirst, Cursor.finish_done, flagged_concat]
    have hfits : ¬ maxOutputBytes < pass.output.length + (c.body ++ terminator).length := by omega
    rw [finishLine, show pass.bounds.line = some (c.body ++ terminator) from hline]
    dsimp only
    rw [admitLine, if_neg hfits]
    dsimp only
    by_cases hpasses : validate (c.body ++ terminator) pass.bounds.isFirstLine = true
    · rw [if_pos hpasses]
      refine ⟨⟨hopened, hdone, rfl, by simp, ?_⟩, hflags _⟩
      rintro other ⟨⟩
      refine ⟨hcalled, ?_, ?_, ?_⟩
      · intro call hcall
        cases List.mem_append.mp hcall with
        | inl hold => exact haccepted call hold
        | inr hnew =>
          obtain rfl := List.mem_singleton.mp hnew
          exact hpasses
      · show pass.output ++ _ = _
        rw [acceptedBytes_append, houtput]
        simp [acceptedBytes, hpasses]
      · show (pass.output ++ (c.body ++ terminator)).length + 0 + remaining ≤ maxOutputBytes
        have hlength := @List.length_append _ pass.output (c.body ++ terminator)
        omega
    · rw [if_neg hpasses]
      refine ⟨Or.inr ⟨rfl, validate, rfl, (c.body ++ terminator, pass.bounds.isFirstLine), ?_,
        Bool.eq_false_iff.mpr hpasses⟩, by simp, ?_, ?_⟩
      · rw [← hcalled]
        exact List.mem_append_right _ (List.mem_append_right _ (List.mem_singleton_self _))
      · rintro other ⟨⟩
        simp only [← hcalled, List.prefix_refl]
      · rintro other ⟨⟩
        show pass.output = _
        rw [acceptedBytes_append, houtput]
        simp [acceptedBytes, hpasses]

theorem blank_body {body terminator : Bytes} (h : IsBody cr lf body)
    (hterminator : isBlank cr lf terminator = true) :
    (!decide (body ≠ [])) = isBlank cr lf (body ++ terminator) := by
  rw [isBlank_append h hterminator]
  simp

/-- A byte that no carriage return waits for. -/
theorem observeByte_spec (maxBytes : ByteLimit)
    (h : Tracks validateLine maxOutputBytes base pass c (remaining + 1)) (hbody : IsBody cr lf c.body)
    (hpending : c.pending = false) (b : UInt8) :
    match observeByte maxBytes validateLine maxOutputBytes b pass with
    | .ok pass' =>
      c.size cr + 1 ≤ maxBytes.value ∧
        Tracks validateLine maxOutputBytes base pass' (c.add cr lf b) remaining
    | .error thrown =>
      Refused validateLine base thrown (c.add cr lf b).done (maxBytes.value < c.size cr + 1) := by
  have hcurrent : c.current cr = c.body := by
    rw [Cursor.current, hpending]
    exact List.append_nil _
  obtain ⟨hreads, hcontent, hnone, -⟩ := h
  rw [hcurrent] at hreads
  have hcounted := count_spec maxBytes hreads b
  rw [Cursor.size, hcurrent, observeByte]
  cases hcount : count maxBytes b pass with
  | error thrown =>
    rw [hcount] at hcounted
    exact hcounted.mono (Cursor.add_done c b) id
  | ok counted =>
    rw [hcount] at hcounted
    obtain ⟨hfits, hread, hsame, hkeeps, -⟩ := hcounted
    show match (if b = 13 then _ else _ : Except Thrown Pass) with
      | .ok pass' => _
      | .error thrown => _
    rw [Cursor.add, hpending]
    by_cases hcr : b = 13
    · subst hcr
      rw [if_pos rfl, if_neg Bool.false_ne_true, if_pos rfl]
      refine ⟨hfits, ⟨hread.size, hread.first, hread.held, hread.silent, hread.validated⟩, ?_, rfl,
        fun _ => ?_⟩
      · exact hsame.trans hcontent
      · show (!counted.bounds.lineHasContent) = decide (c.body = [])
        rw [hsame, hcontent]
        simp
    · rw [if_neg hcr, if_neg Bool.false_ne_true, if_neg hcr]
      by_cases hlf : b = 10
      · subst hlf
        have hblank : (!counted.bounds.lineHasContent) = isBlank cr lf (c.body ++ [10]) := by
          rw [hsame, hcontent]
          exact blank_body hbody rfl
        have hfinished := finishLine_spec hread hblank
        rw [if_pos rfl, if_pos rfl]
        cases hfinish : finishLine validateLine maxOutputBytes (!counted.bounds.lineHasContent)
            counted with
        | error thrown =>
          rw [hfinish] at hfinished
          exact hfinished.mono (List.prefix_refl _) False.elim
        | ok finished =>
          rw [hfinish] at hfinished
          exact ⟨hfits, hfinished⟩
      · rw [if_neg hlf, if_neg hlf]
        have hnext : Cursor.current cr ⟨c.done, c.opened, c.body ++ [b], false⟩ = c.body ++ [b] :=
          List.append_nil _
        refine ⟨hfits, ?_, ?_, ?_, by simp⟩
        · rw [hnext]
          exact ⟨hread.size, hread.first, hread.held, hread.silent, hread.validated⟩
        · simp
        · show counted.bounds.pendingCarriageReturn = false
          rw [hkeeps, hnone, hpending]

/-- One byte, where a line ends before it or not. -/
theorem observe_spec (maxBytes : ByteLimit) (h : Tracks validateLine maxOutputBytes base pass c (remaining + 1))
    (hbody : IsBody cr lf c.body) (b : UInt8) :
    match observe maxBytes validateLine maxOutputBytes pass b with
    | .ok pass' =>
      (c.settle cr lf b).size cr + 1 ≤ maxBytes.value ∧
        Tracks validateLine maxOutputBytes base pass' (c.push cr lf b) remaining
    | .error thrown =>
      Refused validateLine base thrown (c.push cr lf b).done
        (maxBytes.value < (c.settle cr lf b).size cr + 1) := by
  have hflags := h.flags
  rw [observe, hflags.pending, Cursor.push]
  by_cases hpending : c.pending = true
  · have hcurrent : c.current cr = c.body ++ [13] := by rw [Cursor.current, if_pos hpending]
    rw [if_pos hpending]
    by_cases hlf : b = 10
    · subst hlf
      have hstays : c.settle cr lf 10 = c := by
        rw [Cursor.settle, if_neg (by simp)]
      have hcounted := count_spec maxBytes h.reads 10
      rw [if_pos rfl, hstays, Cursor.size, hcurrent]
      rw [hcurrent] at hcounted
      cases hcount : count maxBytes 10 pass with
      | error thrown =>
        rw [hcount] at hcounted
        exact hcounted.mono (Cursor.add_done c 10) id
      | ok counted =>
        rw [hcount] at hcounted
        obtain ⟨hfits, hread, -, -, hsame⟩ := hcounted
        have hblank : counted.bounds.pendingLineIsBlank = isBlank cr lf (c.body ++ [13, 10]) := by
          rw [hsame, hflags.blank hpending, isBlank_append hbody rfl]
        rw [List.append_assoc] at hread
        have hfinished := finishLine_spec hread hblank
        have hadd : c.add cr lf 10 = c.finish cr lf [13, 10] := by
          rw [Cursor.add, if_pos hpending]
        rw [hadd]
        show match finishLine validateLine maxOutputBytes counted.bounds.pendingLineIsBlank counted with
          | .ok pass' => _
          | .error thrown => _
        cases hfinish : finishLine validateLine maxOutputBytes counted.bounds.pendingLineIsBlank
            counted with
        | error thrown =>
          rw [hfinish] at hfinished
          exact hfinished.mono (List.prefix_refl _) False.elim
        | ok finished =>
          rw [hfinish] at hfinished
          exact ⟨hfits, hfinished⟩
    · have hsettles : c.settle cr lf b = c.finish cr lf [13] := by
        rw [Cursor.settle, if_pos ⟨hpending, hlf⟩]
      have hblank : pass.bounds.pendingLineIsBlank = isBlank cr lf (c.body ++ [13]) := by
        rw [hflags.blank hpending, isBlank_append hbody rfl]
      have hread := h.reads
      rw [hcurrent] at hread
      have hfinished := finishLine_spec hread hblank
      rw [if_neg hlf, hsettles]
      cases hfinish : finishLine validateLine maxOutputBytes pass.bounds.pendingLineIsBlank
          pass with
      | error thrown =>
        rw [hfinish] at hfinished
        exact hfinished.mono (Cursor.add_done _ b) False.elim
      | ok finished =>
        rw [hfinish] at hfinished
        exact observeByte_spec maxBytes hfinished isBody_nil rfl b
  · have hstays : c.settle cr lf b = c := by
      rw [Cursor.settle, if_neg (by simp [hpending])]
    rw [if_neg hpending, hstays]
    exact observeByte_spec maxBytes h hbody (by simpa using hpending) b

/-! ## One chunk -/

/-- The bytes of a chunk. -/
theorem observeAll_spec (maxBytes : ByteLimit) {chunk : Bytes} (hsound : c.Sound cr lf)
    (h : Tracks validateLine maxOutputBytes base pass c chunk.length) :
    match chunk.foldlM (observe maxBytes validateLine maxOutputBytes) pass with
    | .ok pass' =>
      ¬ c.Overflows cr lf maxBytes.value chunk ∧
        Tracks validateLine maxOutputBytes base pass' (c.pushAll cr lf chunk) 0
    | .error thrown =>
      Refused validateLine base thrown (c.pushAll cr lf chunk).done
        (c.Overflows cr lf maxBytes.value chunk) := by
  induction chunk generalizing pass c with
  | nil => exact ⟨not_false, h⟩
  | cons b rest ih =>
    have hobserved := observe_spec maxBytes h hsound.body b
    rw [List.foldlM_cons]
    cases hobserve : observe maxBytes validateLine maxOutputBytes pass b with
    | error thrown =>
      rw [hobserve] at hobserved
      exact hobserved.mono (Cursor.pushAll_done cr lf _ rest) Or.inl
    | ok next =>
      rw [hobserve] at hobserved
      obtain ⟨hfits, hnext⟩ := hobserved
      have hrest := ih (hsound.push cr_ne_lf b) hnext
      show match rest.foldlM (observe maxBytes validateLine maxOutputBytes) next with
        | .ok pass' => _
        | .error thrown => _
      cases hfold : rest.foldlM (observe maxBytes validateLine maxOutputBytes) next with
      | error thrown =>
        rw [hfold] at hrest
        exact hrest.mono (List.prefix_refl _) Or.inr
      | ok pass' =>
        rw [hfold] at hrest
        obtain ⟨hshort, htracks⟩ := hrest
        refine ⟨?_, htracks⟩
        rintro (hover | hover)
        · omega
        · exact hshort hover

/-- The variables between two chunks. -/
structure Holds (validateLine : Option SseLineValidator) (bounds : SseBounds)
    (c : Cursor UInt8) : Prop where
  size : bounds.eventBytes = c.size cr
  first : bounds.isFirstLine = decide (c.done = [])
  held : bounds.line = validateLine.map fun _ => c.current cr
  flags : Flags bounds c

theorem holds_start (validateLine : Option SseLineValidator) :
    Holds validateLine (initialBounds validateLine) Cursor.start :=
  ⟨rfl, rfl, rfl, rfl, rfl, nofun⟩

theorem Holds.tracks {bounds : SseBounds} (h : Holds validateLine bounds c) (chunk : Bytes) :
    Tracks validateLine ((bounds.line.map List.length).getD 0 + chunk.length) c.done
      ⟨bounds, [], []⟩ c chunk.length := by
  refine ⟨⟨h.size, h.first, h.held, fun _ => ⟨rfl, rfl⟩, ?_⟩, h.flags⟩
  rintro validate rfl
  refine ⟨List.append_nil _, nofun, rfl, ?_⟩
  rw [h.held]
  simp

theorem Tracks.holds (h : Tracks validateLine maxOutputBytes base pass c remaining) :
    Holds validateLine pass.bounds c :=
  ⟨h.reads.size, h.reads.first, h.reads.held, h.flags⟩

/-! ## What shows -/

/-- The calls of the validator. -/
def validated : List Effect → List (Bytes × Bool)
  | [] => []
  | .validate line isFirstLine :: rest => (line, isFirstLine) :: validated rest
  | .enqueue _ :: rest => validated rest

/-- The bytes that have been released. -/
def released : List Effect → Bytes
  | [] => []
  | .validate _ _ :: rest => released rest
  | .enqueue bytes :: rest => bytes ++ released rest

/-- The bytes of accepted lines that have not been released; none where bytes are released that are
not the next of them. -/
def withheld (validate : SseLineValidator) : Bytes → List Effect → Option Bytes
  | held, [] => some held
  | held, .validate line isFirstLine :: rest =>
    withheld validate (if validate line isFirstLine then held ++ line else held) rest
  | held, .enqueue bytes :: rest =>
    if bytes <+: held then withheld validate (held.drop bytes.length) rest else none

theorem validated_append (effects more : List Effect) :
    validated (effects ++ more) = validated effects ++ validated more := by
  induction effects with
  | nil => rfl
  | cons effect effects ih => cases effect <;> simp [validated, ih]

theorem released_append (effects more : List Effect) :
    released (effects ++ more) = released effects ++ released more := by
  induction effects with
  | nil => rfl
  | cons effect effects ih => cases effect <;> simp [released, ih]

theorem withheld_append (validate : SseLineValidator) (held : Bytes) (effects more : List Effect) :
    withheld validate held (effects ++ more) =
      (withheld validate held effects).bind fun held => withheld validate held more := by
  induction effects generalizing held with
  | nil => rfl
  | cons effect effects ih =>
    cases effect with
    | validate line isFirstLine => exact ih _
    | enqueue bytes =>
      rw [List.cons_append, withheld, withheld]
      split
      · exact ih _
      · rfl

theorem validated_called (pass : Pass) (output : Bytes) :
    validated (pass.called ++ releaseOutput output) = pass.calls := by
  have hcalled : ∀ calls : List (Bytes × Bool),
      validated (calls.map fun call => Effect.validate call.1 call.2) = calls := by
    intro calls
    induction calls with
    | nil => rfl
    | cons call calls ih => simp [validated, ih]
  have hrelease : validated (releaseOutput output) = [] := by
    rw [releaseOutput]
    split <;> rfl
  rw [validated_append, hrelease, List.append_nil]
  exact hcalled pass.calls

theorem released_called (pass : Pass) (output : Bytes) :
    released (pass.called ++ releaseOutput output) = output := by
  have hcalled : ∀ calls : List (Bytes × Bool),
      released (calls.map fun call => Effect.validate call.1 call.2) = [] := by
    intro calls
    induction calls with
    | nil => rfl
    | cons call calls ih => simp [released, ih]
  rw [released_append, Pass.called, hcalled, List.nil_append, releaseOutput]
  split
  · exact List.append_nil _
  · rename_i hempty
    exact (List.eq_nil_of_length_eq_zero (by omega)).symm

/-- A chunk releases what the validator has accepted in it. -/
theorem withheld_called (validate : SseLineValidator) (pass : Pass)
    (h : pass.output = acceptedBytes validate pass.calls) :
    withheld validate [] (pass.called ++ releaseOutput pass.output) = some [] := by
  have hcalled : ∀ (calls : List (Bytes × Bool)) (held : Bytes) (rest : List Effect),
      withheld validate held ((calls.map fun call => Effect.validate call.1 call.2) ++ rest) =
        withheld validate (held ++ acceptedBytes validate calls) rest := by
    intro calls
    induction calls with
    | nil => simp [acceptedBytes]
    | cons call calls ih =>
      intro held rest
      rw [List.map_cons, List.cons_append, withheld, ih]
      congr 1
      by_cases hpasses : validate call.1 call.2 = true
      · simp [acceptedBytes, hpasses]
      · simp [acceptedBytes, hpasses]
  rw [Pass.called, hcalled, List.nil_append, ← h, releaseOutput]
  split
  · rw [withheld, if_pos (List.prefix_refl _), List.drop_length]
    rfl
  · rename_i hempty
    have hnil : pass.output = [] := List.eq_nil_of_length_eq_zero (by omega)
    rw [hnil]
    rfl

/-! ## A whole response -/

/-- What a transform has done from a reader on, with the input that was left: why it has failed, the
calls of the validator, and what it has released. -/
structure RunSound (maxBytes : ByteLimit) (validateLine : Option SseLineValidator)
    (c : Cursor UInt8) (input : Bytes) (run : SseRun) : Prop where
  ends : run.failure = none →
    ¬ c.Overflows cr lf maxBytes.value input ∧
      released run.effects = (validateLine.map fun _ => c.current cr).getD [] ++ input ∧
      ∀ validate, validateLine = some validate →
        flagged c.done ++ validated run.effects = flagged (c.pushAll cr lf input).done ∧
          ∀ call ∈ validated run.effects, validate call.1 call.2 = true
  fails : run.failure ≠ none →
    c.Overflows cr lf maxBytes.value input ∨
      ∃ validate, validateLine = some validate ∧
        ∃ call ∈ flagged (c.pushAll cr lf input).done, validate call.1 call.2 = false
  calls : ∀ validate, validateLine = some validate →
    flagged c.done ++ validated run.effects <+: flagged (c.pushAll cr lf input).done
  releases : ∀ validate, validateLine = some validate →
    ∃ effects last, run.effects = effects ++ last ∧
      (withheld validate [] effects).isSome = true ∧
      (last = [] ∨ run.failure = none ∧ last = [.enqueue ((c.pushAll cr lf input).current cr)] ∧
        (c.pushAll cr lf input).current cr ≠ [])

theorem seen_eq {done : List Bytes} {calls : List (Bytes × Bool)} {done' : List Bytes}
    (h : flagged done ++ calls = flagged done') :
    done.flatten ++ (calls.map Prod.fst).flatten = done'.flatten := by
  have hlines := congrArg (List.map Prod.fst) h
  rw [List.map_append, flagged_fst, flagged_fst] at hlines
  rw [← hlines, List.flatten_append]

theorem acceptedBytes_eq {validate : SseLineValidator} {calls : List (Bytes × Bool)}
    (h : ∀ call ∈ calls, validate call.1 call.2 = true) :
    acceptedBytes validate calls = (calls.map Prod.fst).flatten := by
  rw [acceptedBytes, List.filter_eq_self.mpr h]

/-- The end of the input. -/
theorem flush_sound (maxBytes : ByteLimit) {bounds : SseBounds} (h : Holds validateLine bounds c) :
    RunSound maxBytes validateLine c [] ⟨flush bounds, none⟩ := by
  have hsilent : validated (flush bounds) = [] := by
    rw [flush]
    split
    · rfl
    · split <;> rfl
  refine ⟨fun _ => ⟨not_false, ?_, fun validate _ => ?_⟩, fun hfails => absurd rfl hfails,
    fun validate _ => ?_, ?_⟩
  · rw [flush, h.held]
    cases validateLine with
    | none => rfl
    | some validate =>
      show released (if (c.current cr).length = 0 then [] else [Effect.enqueue (c.current cr)]) = _
      split
      · rename_i hempty
        rw [List.eq_nil_of_length_eq_zero hempty]
        rfl
      · rfl
  · rw [hsilent, List.append_nil]
    exact ⟨rfl, nofun⟩
  · simp only [hsilent, List.append_nil]
    exact List.prefix_refl _
  · rintro validate rfl
    refine ⟨[], flush bounds, rfl, rfl, ?_⟩
    rw [flush, h.held]
    show (if (c.current cr).length = 0 then [] else [Effect.enqueue (c.current cr)]) = [] ∨ _
    split
    · exact Or.inl rfl
    · rename_i hsome
      refine Or.inr ⟨rfl, if_neg hsome, fun hnil => hsome ?_⟩
      · rw [show c.current cr = [] from hnil]
        rfl

/-- What a chunk shows and leaves, or why it fails. -/
theorem transform_spec (maxBytes : ByteLimit) {bounds : SseBounds} (h : Holds validateLine bounds c)
    (hsound : c.Sound cr lf) (chunk : Bytes) :
    match transform maxBytes validateLine bounds chunk with
    | (effects, .ok bounds') =>
      ¬ c.Overflows cr lf maxBytes.value chunk ∧
        Holds validateLine bounds' (c.pushAll cr lf chunk) ∧
        (validateLine = none → released effects = chunk) ∧
        ∀ validate, validateLine = some validate →
          flagged c.done ++ validated effects = flagged (c.pushAll cr lf chunk).done ∧
          (∀ call ∈ validated effects, validate call.1 call.2 = true) ∧
          released effects = acceptedBytes validate (validated effects) ∧
          withheld validate [] effects = some []
    | (effects, .error _) =>
      (c.Overflows cr lf maxBytes.value chunk ∨
        ∃ validate, validateLine = some validate ∧
          ∃ call ∈ flagged (c.pushAll cr lf chunk).done, validate call.1 call.2 = false) ∧
        ∀ validate, validateLine = some validate →
          flagged c.done ++ validated effects <+: flagged (c.pushAll cr lf chunk).done ∧
          withheld validate [] effects = some [] := by
  have hobserved := observeAll_spec maxBytes hsound (h.tracks chunk)
  rw [transform]
  cases hfold : chunk.foldlM (observe maxBytes validateLine
      ((bounds.line.map List.length).getD 0 + chunk.length)) ⟨bounds, [], []⟩ with
  | error thrown =>
    rw [hfold] at hobserved
    refine ⟨?_, fun validate hsome => ⟨?_, withheld_called validate _ ?_⟩⟩
    · obtain ⟨-, hover⟩ | ⟨-, hrejected⟩ := hobserved.reason
      · exact Or.inl hover
      · exact Or.inr hrejected
    · rw [validated_called]
      exact hobserved.calls validate hsome
    · exact hobserved.output validate hsome
  | ok pass =>
    rw [hfold] at hobserved
    obtain ⟨hshort, htracks⟩ := hobserved
    cases validateLine with
    | none => exact ⟨hshort, htracks.holds, fun _ => List.append_nil chunk, nofun⟩
    | some validate =>
      obtain ⟨hcalls, haccepted, houtput, -⟩ := htracks.reads.validated validate rfl
      refine ⟨hshort, htracks.holds, nofun, ?_⟩
      rintro other ⟨⟩
      rw [validated_called, released_called]
      exact ⟨hcalls, haccepted, houtput, withheld_called validate pass houtput⟩

theorem overflows_append {limit : ℕ} (input more : Bytes) :
    c.Overflows cr lf limit (input ++ more) ↔
      c.Overflows cr lf limit input ∨ (c.pushAll cr lf input).Overflows cr lf limit more := by
  induction input generalizing c with
  | nil => exact (or_iff_right not_false).symm
  | cons b rest ih =>
    rw [List.cons_append, Cursor.Overflows, Cursor.Overflows, ih, or_assoc]
    rfl

theorem transformAll_sound (maxBytes : ByteLimit) {bounds : SseBounds} (h : Holds validateLine bounds c)
    (hsound : c.Sound cr lf) (chunks : List Bytes) :
    RunSound maxBytes validateLine c chunks.flatten
      (transformAll maxBytes validateLine bounds chunks) := by
  induction chunks generalizing bounds c with
  | nil => exact flush_sound maxBytes h
  | cons chunk rest ih =>
    have hchunk := transform_spec maxBytes h hsound chunk
    have hsplit : c.pushAll cr lf (chunk ++ rest.flatten) =
        (c.pushAll cr lf chunk).pushAll cr lf rest.flatten := Cursor.pushAll_append c _ _
    have hprefix : flagged (c.pushAll cr lf chunk).done <+:
        flagged (c.pushAll cr lf (chunk ++ rest.flatten)).done := by
      obtain ⟨later, hlater⟩ := Cursor.pushAll_done cr lf
        (c.pushAll cr lf chunk) rest.flatten
      rw [hsplit, ← hlater]
      exact flagged_append _ later
    rw [transformAll, List.flatten_cons]
    cases htransform : transform maxBytes validateLine bounds chunk with
    | mk effects reached =>
      rw [htransform] at hchunk
      cases reached with
      | error failure =>
        obtain ⟨hreason, hshown⟩ := hchunk
        refine ⟨nofun, fun _ => ?_, fun validate hsome => ?_, fun validate hsome => ?_⟩
        · rw [overflows_append]
          obtain hover | ⟨validate, hsome, call, hcall, hfalse⟩ := hreason
          · exact Or.inl (Or.inl hover)
          · exact Or.inr ⟨validate, hsome, call, hprefix.subset hcall, hfalse⟩
        · exact (hshown validate hsome).1.trans hprefix
        · refine ⟨effects, [], (List.append_nil _).symm, ?_, Or.inl rfl⟩
          rw [(hshown validate hsome).2]
          rfl
      | ok bounds' =>
        obtain ⟨hshort, hholds, hnone, hshown⟩ := hchunk
        have hrest := ih hholds (hsound.pushAll cr_ne_lf chunk)
        dsimp only
        refine ⟨fun hends => ?_, fun hfails => ?_, fun validate hsome => ?_,
          fun validate hsome => ?_⟩
        · obtain ⟨hshortRest, hreleased, hcalls⟩ := hrest.ends hends
          refine ⟨?_, ?_, fun validate hsome => ?_⟩
          · rw [overflows_append]
            exact fun hover => hover.elim hshort hshortRest
          · rw [released_append, hreleased]
            cases validateLine with
            | none =>
              rw [hnone rfl]
              rfl
            | some validate =>
              obtain ⟨hcalled, haccepted, hout, -⟩ := hshown validate rfl
              have hseen := Cursor.pushAll_seen cr lf c chunk
              rw [Cursor.seen, Cursor.seen, ← seen_eq hcalled, List.append_assoc, List.append_assoc,
                List.append_cancel_left_eq] at hseen
              rw [hout, acceptedBytes_eq haccepted]
              show _ ++ ((c.pushAll cr lf chunk).current cr ++ _) = c.current cr ++ _
              rw [← List.append_assoc, hseen, List.append_assoc]
          · obtain ⟨hcalled, haccepted, -, -⟩ := hshown validate hsome
            obtain ⟨hcalledRest, hacceptedRest⟩ := hcalls validate hsome
            rw [validated_append, ← List.append_assoc, hcalled, hcalledRest, hsplit]
            refine ⟨rfl, fun call hcall => ?_⟩
            exact (List.mem_append.mp hcall).elim (haccepted call) (hacceptedRest call)
        · rw [overflows_append, hsplit]
          obtain hover | hrejected := hrest.fails hfails
          · exact Or.inl (Or.inr hover)
          · exact Or.inr hrejected
        · obtain ⟨hcalled, -, -, -⟩ := hshown validate hsome
          rw [validated_append, ← List.append_assoc, hcalled, hsplit]
          exact hrest.calls validate hsome
        · obtain ⟨-, -, -, hwithheld⟩ := hshown validate hsome
          obtain ⟨more, last, heffects, hmore, hlast⟩ := hrest.releases validate hsome
          refine ⟨effects ++ more, last, ?_, ?_, ?_⟩
          · rw [heffects, List.append_assoc]
          · rw [withheld_append, hwithheld]
            exact hmore
          · rw [hsplit]
            exact hlast

/-! ## The .NET client -/

namespace BoundedReadStream

/-- The state of the stream is that of the transform without a validator. -/
structure Mirrors (maxBytes : ByteLimit) (state : State) (pass : Pass) : Prop where
  size : state.bytesRead = pass.bounds.eventBytes
  content : state.lineHasContent = pass.bounds.lineHasContent
  pending : state.pendingCarriageReturn = pass.bounds.pendingCarriageReturn
  blank : state.pendingLineIsBlank = pass.bounds.pendingLineIsBlank
  line : pass.bounds.line = none
  within : pass.bounds.eventBytes ≤ maxBytes.value

/-- Both go on, or both throw. -/
def Agree (maxBytes : ByteLimit) : Except Failure State → Except Thrown Pass → Prop
  | .ok state, .ok pass => Mirrors maxBytes state pass
  | .error _, .error _ => True
  | .ok _, .error _ => False
  | .error _, .ok _ => False

variable {maxBytes : ByteLimit} {state : State}

theorem Agree.bind {before : Except Failure State} {before' : Except Thrown Pass}
    (h : Agree maxBytes before before') {next : State → Except Failure State}
    {next' : Pass → Except Thrown Pass}
    (hnext : ∀ state pass, Mirrors maxBytes state pass → Agree maxBytes (next state) (next' pass)) :
    Agree maxBytes (before >>= next) (before' >>= next') := by
  cases before with
  | error failure =>
    cases before' with
    | error thrown => trivial
    | ok pass => exact h.elim
  | ok state =>
    cases before' with
    | error thrown => exact h.elim
    | ok pass => exact hnext state pass h

theorem count_agrees (h : Mirrors maxBytes state pass) (b : UInt8) :
    Agree maxBytes (count maxBytes.value state) (Client.count maxBytes b pass) := by
  have hsafe := maxBytes.safe
  have hwithin := h.within
  rw [count, Client.count, h.size]
  have hnoOverflow : ¬ maxInt64 < pass.bounds.eventBytes + 1 := by
    rw [maxInt64]
    rw [maxSafeInteger] at hsafe
    omega
  rw [if_neg hnoOverflow]
  dsimp only
  split
  · trivial
  · refine ⟨rfl, h.content, h.pending, h.blank, ?_, by dsimp only; omega⟩
    rw [h.line]
    rfl

theorem finishLine_agrees (h : Mirrors maxBytes state pass) (blank : Bool) :
    Agree maxBytes (.ok (finishLine true blank state))
      (Client.finishLine none maxOutputBytes blank pass) := by
  rw [Client.finishLine, h.line]
  refine ⟨?_, rfl, rfl, h.blank, h.line, ?_⟩
  · show (if (true && blank) = true then 0 else state.bytesRead) = _
    rw [h.size, Bool.true_and]
    rfl
  · show (if blank = true then 0 else pass.bounds.eventBytes) ≤ maxBytes.value
    split
    · exact Nat.zero_le _
    · exact h.within

theorem observeByte_agrees (h : Mirrors maxBytes state pass) (b : UInt8) :
    Agree maxBytes (observeByte maxBytes.value true b state)
      (Client.observeByte maxBytes none maxOutputBytes b pass) := by
  refine (count_agrees h b).bind fun state pass h => ?_
  dsimp only
  split
  · exact ⟨h.size, h.content, rfl, by rw [h.content], h.line, h.within⟩
  · split
    · rw [h.content]
      exact finishLine_agrees h _
    · exact ⟨h.size, rfl, h.pending, h.blank, h.line, h.within⟩

theorem observe_agrees (h : Mirrors maxBytes state pass) (b : UInt8) :
    Agree maxBytes (observe maxBytes.value true state b)
      (Client.observe maxBytes none maxOutputBytes pass b) := by
  rw [observe, Client.observe, h.pending]
  split
  · split
    · refine (count_agrees h b).bind fun state pass h => ?_
      rw [h.blank]
      exact finishLine_agrees h _
    · rw [h.blank]
      exact (finishLine_agrees h _).bind fun state pass h => observeByte_agrees h b
  · exact observeByte_agrees h b

theorem observeAll_agrees (h : Mirrors maxBytes state pass) (maxOutputBytes : ℕ) (input : Bytes) :
    Agree maxBytes (input.foldlM (observe maxBytes.value true) state)
      (input.foldlM (Client.observe maxBytes none maxOutputBytes) pass) := by
  induction input generalizing state pass with
  | nil => exact h
  | cons b rest ih => exact (observe_agrees h b).bind fun state pass h => ih h

/-- The reads are one input. -/
theorem readAll_eq (limit : ℕ) (reset : Bool) (reads : List Bytes) :
    readAll limit reset reads =
      reads.flatten.foldlM (observe limit reset) ⟨0, false, false, false⟩ := by
  rw [readAll]
  generalize (⟨0, false, false, false⟩ : State) = state
  induction reads generalizing state with
  | nil => rfl
  | cons bytes rest ih =>
    rw [List.foldlM_cons, List.flatten_cons, List.foldlM_append]
    exact congrArg _ (funext fun state => ih state)

/-- The stream throws exactly where an event is longer than its limit. -/
theorem readAll_fails (maxBytes : ByteLimit) (reads : List Bytes) :
    (readAll maxBytes.value true reads).toOption = none ↔
      ∃ event ∈ events cr lf reads.flatten, maxBytes.value < event.length := by
  have hobserved := observeAll_spec maxBytes Cursor.start_sound
    ((holds_start none).tracks reads.flatten)
  have hstart : Mirrors maxBytes ⟨0, false, false, false⟩ ⟨initialBounds none, [], []⟩ :=
    ⟨rfl, rfl, rfl, rfl, rfl, Nat.zero_le _⟩
  have hagrees := observeAll_agrees hstart
    (((initialBounds none).line.map List.length).getD 0 + reads.flatten.length) reads.flatten
  rw [readAll_eq, ← Cursor.overflows_iff cr_ne_lf]
  cases hread : reads.flatten.foldlM (observe maxBytes.value true) ⟨0, false, false, false⟩ with
  | ok state =>
    rw [hread] at hagrees
    cases hfold : reads.flatten.foldlM (Client.observe maxBytes none
        (((initialBounds none).line.map List.length).getD 0 + reads.flatten.length))
        ⟨initialBounds none, [], []⟩ with
    | ok pass =>
      rw [hfold] at hobserved
      exact iff_of_false nofun hobserved.1
    | error thrown =>
      rw [hfold] at hagrees
      exact hagrees.elim
  | error failure =>
    rw [hread] at hagrees
    cases hfold : reads.flatten.foldlM (Client.observe maxBytes none
        (((initialBounds none).line.map List.length).getD 0 + reads.flatten.length))
        ⟨initialBounds none, [], []⟩ with
    | ok pass =>
      rw [hfold] at hagrees
      exact hagrees.elim
    | error thrown =>
      rw [hfold] at hobserved
      obtain ⟨-, hover⟩ | ⟨-, validate, hsome, -⟩ := hobserved.reason
      · exact iff_of_true rfl hover
      · cases hsome

end BoundedReadStream

/-- For every response, every way of cutting it into chunks and every limit: without a validator the
transform fails exactly where an event is longer than the limit, as does the .NET stream of the same
bytes; what has not failed has released the response.  All lines but at most the last show their end.
With a validator the transform fails there or at a line that is not accepted; the calls are the lines
whose end shows, each of them once, in order and with its terminator; and every byte that is released
is the next one of the accepted lines, but for those of the last line where its end does not
show. -/
theorem sse_events_bounded (maxBytes : ByteLimit) (chunks : List Bytes) :
    ((boundSseEvents maxBytes none chunks).failure ≠ none ↔
      ∃ event ∈ events cr lf chunks.flatten, maxBytes.value < event.length) ∧
    (∀ reads : List Bytes, reads.flatten = chunks.flatten →
      ((BoundedReadStream.readAll maxBytes.value true reads).toOption = none ↔
        (boundSseEvents maxBytes none chunks).failure ≠ none)) ∧
    (∀ validateLine, (boundSseEvents maxBytes validateLine chunks).failure = none →
      released (boundSseEvents maxBytes validateLine chunks).effects = chunks.flatten) ∧
    (lines cr lf chunks.flatten = finishedLines cr lf chunks.flatten ∨
      ∃ last, lines cr lf chunks.flatten = finishedLines cr lf chunks.flatten ++ [last] ∧
        last.getLast? ≠ some lf) ∧
    ∀ (validate : SseLineValidator) (run : SseRun),
      boundSseEvents maxBytes (some validate) chunks = run →
      (run.failure ≠ none ↔
        (∃ event ∈ events cr lf chunks.flatten, maxBytes.value < event.length) ∨
          ∃ call ∈ flagged (finishedLines cr lf chunks.flatten),
            validate call.1 call.2 = false) ∧
      (run.failure = none → validated run.effects = flagged (finishedLines cr lf chunks.flatten)) ∧
      validated run.effects <+: flagged (finishedLines cr lf chunks.flatten) ∧
      ∃ effects last, run.effects = effects ++ last ∧
        (withheld validate [] effects).isSome = true ∧
        (last = [] ∨ run.failure = none ∧ ∃ line, last = [.enqueue line] ∧
          lines cr lf chunks.flatten = finishedLines cr lf chunks.flatten ++ [line]) := by
  have hsound : ∀ validateLine, RunSound maxBytes validateLine Cursor.start chunks.flatten
      (boundSseEvents maxBytes validateLine chunks) := fun validateLine =>
    transformAll_sound maxBytes (holds_start validateLine) Cursor.start_sound chunks
  have hover := Cursor.overflows_iff cr_ne_lf maxBytes.value
    chunks.flatten
  obtain ⟨hdone, hlines⟩ := Cursor.pushAll_start cr_ne_lf chunks.flatten
  have hplain : (boundSseEvents maxBytes none chunks).failure ≠ none ↔
      ∃ event ∈ events cr lf chunks.flatten, maxBytes.value < event.length := by
    rw [← hover]
    constructor
    · intro hfails
      obtain hlong | ⟨validate, hsome, -⟩ := (hsound none).fails hfails
      · exact hlong
      · cases hsome
    · exact fun hlong hends => ((hsound none).ends hends).1 hlong
  refine ⟨hplain, fun reads hreads => ?_, fun validateLine hends => ?_,
    lines_finished cr lf chunks.flatten, ?_⟩
  · rw [hplain, BoundedReadStream.readAll_fails, hreads]
  · obtain ⟨-, hreleased, -⟩ := (hsound validateLine).ends hends
    rw [hreleased]
    cases validateLine <;> rfl
  · rintro validate run rfl
    have hrun := hsound (some validate)
    rw [← hover, ← hdone]
    refine ⟨⟨fun hfails => ?_, ?_⟩, fun hends => ?_, ?_, ?_⟩
    · obtain hlong | ⟨other, hsome, hrejected⟩ := hrun.fails hfails
      · exact Or.inl hlong
      · cases hsome
        exact Or.inr hrejected
    · rintro (hlong | ⟨call, hcall, hfalse⟩) hends
      · exact (hrun.ends hends).1 hlong
      · obtain ⟨hcalls, haccepted⟩ := (hrun.ends hends).2.2 validate rfl
        rw [← hcalls] at hcall
        rw [haccepted call hcall] at hfalse
        cases hfalse
    · exact ((hrun.ends hends).2.2 validate rfl).1
    · exact hrun.calls validate rfl
    · obtain ⟨effects, last, heffects, hwithheld, hlast⟩ := hrun.releases validate rfl
      refine ⟨effects, last, heffects, hwithheld, ?_⟩
      obtain hnil | ⟨hends, hline, hne⟩ := hlast
      · exact Or.inl hnil
      · refine Or.inr ⟨hends, _, hline, ?_⟩
        have hbody := (Cursor.start_sound.pushAll cr_ne_lf chunks.flatten).body
        rw [hlines, Cursor.ahead_nil hbody, if_neg hne]

/-- A carriage return at the end of a chunk, and one at the end of the response. -/
example :
    (boundSseEvents ⟨4, by decide, by decide⟩ (some fun _ _ => true) [[97, 13], [10, 13]]).effects =
      [.validate [97, 13, 10] true, .enqueue [97, 13, 10], .enqueue [13]] := by
  decide +kernel

end OpenGameAgent.Client
