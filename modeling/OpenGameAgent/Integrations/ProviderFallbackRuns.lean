import OpenGameAgent.Integrations.ProviderFallback

/-!
# One answer from many providers

What a relay shows of its targets, over every list of targets, every behaviour of their
providers and every moment of an abort.

* `Shown`, `Ended` — the events pushed so far are at most a start and content of one target;
  at the end there is a terminal behind them.
* `consumeEvents_spec` — what becomes of one target.
* `Advanced` — the log of targets that failed one after the other, before anything was shown.
* `relayFrom_spec` — the whole relay.
-/

namespace OpenGameAgent

namespace Provider

variable {υ : Type} {ctx : RelayContext υ} {state : RelayState υ} {index : Nat} {route : Route}
  {base : List (LogEntry υ)} {target : Target υ}

/-! ## What has been pushed -/

def OutputEvent.isContent : OutputEvent υ → Bool
  | .content _ _ => true
  | _ => false

/-- At most a start and content of one target have been pushed since `base`. -/
def Shown (index : Nat) (route : Route) (base : List (LogEntry υ)) (state : RelayState υ) : Prop :=
  (state.started = false ∧ state.log = base) ∨
    (state.started = true ∧ ∃ contents : List (OutputEvent υ), (∀ e ∈ contents, e.isContent = true) ∧
      state.log = base ++ .pushed index (.start route) :: contents.map (.pushed index))

/-- A start, content of one target and a terminal have been pushed since `base`. -/
def Ended (index : Nat) (base : List (LogEntry υ)) (event : OutputEvent υ)
    (state : RelayState υ) : Prop :=
  event.isTerminal = true ∧ ∃ (route : Route) (contents : List (OutputEvent υ)),
    (∀ e ∈ contents, e.isContent = true) ∧
      state.log = base ++ (.pushed index (.start route) :: contents.map (.pushed index) ++
        [.pushed index event])

theorem Shown.congr {other : RelayState υ} (h : Shown index route base state)
    (hstarted : other.started = state.started) (hlog : other.log = state.log) :
    Shown index route base other := by
  unfold Shown
  rw [hstarted, hlog]
  exact h

theorem Shown.pushStart (h : Shown index route base state) :
    (state.pushStart index route).started = true ∧
      Shown index route base (state.pushStart index route) := by
  unfold RelayState.pushStart
  rcases h with ⟨hstarted, hlog⟩ | ⟨hstarted, hcontents⟩
  · rw [hstarted, if_neg (by simp)]
    refine ⟨rfl, Or.inr ⟨rfl, [], by simp, ?_⟩⟩
    simp [RelayState.append, hlog]
  · rw [hstarted, if_pos rfl]
    exact ⟨hstarted, Or.inr ⟨hstarted, hcontents⟩⟩

theorem Shown.pushContent (h : Shown index route base state) (kind : ContentKind)
    (snapshot : Message υ) :
    Shown index route base
      ((state.pushStart index route).append (.pushed index (.content kind snapshot))) := by
  obtain ⟨hstarted, hshown⟩ := h.pushStart
  rcases hshown with ⟨hfalse, -⟩ | ⟨-, contents, hcontents, hlog⟩
  · rw [hstarted] at hfalse
    cases hfalse
  · refine Or.inr ⟨hstarted, contents ++ [.content kind snapshot], ?_, ?_⟩
    · intro e he
      rcases List.mem_append.1 he with he | he
      · exact hcontents e he
      · rw [List.mem_singleton.1 he]
        rfl
    · simp [RelayState.append, hlog]

theorem Shown.pushTerminal (h : Shown index route base state) {event : OutputEvent υ}
    (hevent : event.isTerminal = true) :
    Ended index base event (state.pushTerminal index route event) := by
  obtain ⟨hstarted, hshown⟩ := h.pushStart
  rcases hshown with ⟨hfalse, -⟩ | ⟨-, contents, hcontents, hlog⟩
  · rw [hstarted] at hfalse
    cases hfalse
  · refine ⟨hevent, route, contents, hcontents, ?_⟩
    simp [RelayState.pushTerminal, RelayState.append, hlog]

@[simp] theorem pushStart_lifecycle :
    (state.pushStart index route).lifecycle = state.lifecycle := by
  unfold RelayState.pushStart
  split <;> rfl

@[simp] theorem pushTerminal_lifecycle (event : OutputEvent υ) :
    (state.pushTerminal index route event).lifecycle = state.lifecycle :=
  pushStart_lifecycle

@[simp] theorem append_lifecycle (entry : LogEntry υ) :
    (state.append entry).lifecycle = state.lifecycle := rfl

theorem Shown.tick (h : Shown index route base state) : Shown index route base state.tick :=
  h.congr rfl rfl

theorem Shown.allocate (h : Shown index route base state) :
    Shown index route base state.allocate :=
  h.congr rfl rfl

/-! ## The attempt at hand -/

/-- The attempt at a target is committed, and no terminal is captured yet. -/
def Armed (target : Target υ) (lifecycle : Lifecycle υ) : Prop :=
  lifecycle.provenanceFailed = false ∧ ∃ attempt, lifecycle.current = some attempt ∧
    attempt.state = .committed ∧ attempt.targetRoute = target.route ∧
    attempt.pricing = target.pricing ∧ attempt.capturedTerminal = none

/-- A message that can be settled: its served model has a name, and its usage can be read if
it is reported. -/
def Servable (ctx : RelayContext υ) (target : Target υ) (message : Message υ)
    (usage : UsageObservation) : Prop :=
  message.responseModel ≠ some "" ∧
    (usage = .reported → ctx.readsUsage target.pricing message.usage = true)

/-- The lifecycle with a captured terminal. -/
def Captured (target : Target υ) (message : Message υ) (usage : UsageObservation)
    (lifecycle : Lifecycle υ) : Prop :=
  lifecycle.provenanceFailed = false ∧ ∃ attempt, lifecycle.current = some attempt ∧
    attempt.state = .committed ∧ attempt.targetRoute = target.route ∧
    attempt.pricing = target.pricing ∧ attempt.capturedTerminal = some (message, usage)

theorem Armed.captureTerminal {lifecycle : Lifecycle υ} (h : Armed target lifecycle)
    {message : Message υ} (hreason : isErrorStopReason message.stopReason = true)
    (usage : UsageObservation) :
    ∃ captured, lifecycle.captureTerminal message usage = some captured ∧
      Captured target message usage captured := by
  obtain ⟨hfailed, attempt, hcurrent, hstate, hroute, hpricing, hcaptured⟩ := h
  refine ⟨{ lifecycle with
    current := some { attempt with capturedTerminal := some (message, usage) } }, ?_, hfailed,
    _, rfl, hstate, hroute, hpricing, rfl⟩
  simp [Lifecycle.captureTerminal, hcurrent, hstate, hreason, hcaptured]

/-- If an attempt is committed and unsettled, the message names its model, and settling it with
the message succeeds. -/
def Settles (ctx : RelayContext υ) (lifecycle : Lifecycle υ) (message : Message υ) : Prop :=
  ∀ attempt, lifecycle.current = some attempt → attempt.state = .committed →
    message.route = attempt.targetRoute ∧
      (lifecycle.settle ctx.toAttemptContext message .accepts).1 = true

/-- A captured terminal is accepted. -/
theorem Captured.settles {lifecycle : Lifecycle υ} {message : Message υ}
    {usage : UsageObservation} (h : Captured target message usage lifecycle)
    (hreason : isErrorStopReason message.stopReason = true) (hroute : message.route = target.route)
    (hid : target.route.id ≠ "") (hmodel : message.responseModel ≠ some "")
    (husage : usage = .reported → ctx.readsUsage target.pricing message.usage = true) :
    Settles ctx lifecycle message := by
  obtain ⟨-, attempt, hcurrent, hstate, htarget, hpricing, hcaptured⟩ := h
  rintro other hother -
  rw [hcurrent, Option.some.injEq] at hother
  subst hother
  have hpending : message.stopReason ≠ "pending" := by
    intro hp
    rw [hp] at hreason
    revert hreason
    decide
  have hserved : message.responseModel.getD message.model ≠ "" := by
    have hmodelId : message.model = target.route.id := by rw [← hroute]; rfl
    cases hresponse : message.responseModel with
    | none => simpa [hmodelId] using hid
    | some served =>
      rw [hresponse] at hmodel
      simpa using hmodel
  have hobservation : attempt.observation message = usage := by
    simp [Attempt.observation, hcaptured]
  refine ⟨hroute.trans htarget.symm, ?_⟩
  simp only [settle_accepts, Lifecycle.accepts, hcurrent, Option.any_some, hstate, hcaptured, Option.all_some,
    prepares, hobservation, htarget, hroute, hreason, hpricing, decide_true, Bool.true_and,
    Bool.and_true, Bool.or_true, ne_eq, hpending, hserved, not_false_eq_true]
  cases usage with
  | unreported => rfl
  | reported => simp [husage rfl]

/-- With nothing captured a message is accepted for what it says itself. -/
theorem Armed.settles {lifecycle : Lifecycle υ} (h : Armed target lifecycle) {message : Message υ}
    (hroute : message.route = target.route) (hid : target.route.id ≠ "")
    (hmodel : message.responseModel ≠ some "") (hpending : message.stopReason ≠ "pending")
    (husage : isErrorStopReason message.stopReason = false →
      ctx.readsUsage target.pricing message.usage = true) :
    Settles ctx lifecycle message := by
  obtain ⟨-, attempt, hcurrent, hstate, htarget, hpricing, hcaptured⟩ := h
  rintro other hother -
  rw [hcurrent, Option.some.injEq] at hother
  subst hother
  have hserved : message.responseModel.getD message.model ≠ "" := by
    have hmodelId : message.model = target.route.id := by rw [← hroute]; rfl
    cases hresponse : message.responseModel with
    | none => simpa [hmodelId] using hid
    | some served =>
      rw [hresponse] at hmodel
      simpa using hmodel
  refine ⟨hroute.trans htarget.symm, ?_⟩
  simp only [settle_accepts, Lifecycle.accepts, hcurrent, Option.any_some, hstate, hcaptured, Option.all_none,
    prepares, Attempt.observation, htarget, hroute, hpricing, decide_true, Bool.true_and,
    ne_eq, hpending, hserved, not_false_eq_true]
  cases hreason : isErrorStopReason message.stopReason with
  | true => simp
  | false => simp [husage hreason]

theorem settles_none {lifecycle : Lifecycle υ} (h : lifecycle.current = none)
    (message : Message υ) : Settles ctx lifecycle message := by
  intro attempt hattempt
  rw [h] at hattempt
  cases hattempt

/-! ## One target -/

/-- The usage that evidence reports. -/
def evidenceUsage (fact : Option FailureFact) : UsageObservation :=
  (fact.map (·.usage)).getD .unreported

/-- The message of a terminal event of a source, with what it reports of its usage. -/
def SourceEvent.terminal? : SourceEvent υ → Option (Message υ × UsageObservation)
  | .done _ (.message message) => some (message, .reported)
  | .error _ (.message message) fact => some (message, evidenceUsage fact)
  | _ => none

/-- The message of a source's result, with what it reports of its usage. -/
def SourceEnd.result? : SourceEnd υ → Option (Message υ × UsageObservation)
  | .ends (some (.message message, fact)) => some (message,
      if isErrorStopReason message.stopReason then evidenceUsage fact else .reported)
  | _ => none

def SourceEnd.isHanging : SourceEnd υ → Bool
  | .hangs => true
  | _ => false

/-- Every terminal message of a source can be settled. -/
def SourceServable (ctx : RelayContext υ) (target : Target υ) (events : List (SourceEvent υ))
    (ending : SourceEnd υ) : Prop :=
  (∀ event ∈ events, ∀ message usage, event.terminal? = some (message, usage) →
      Servable ctx target message usage) ∧
    ∀ message usage, ending.result? = some (message, usage) →
      Servable ctx target message usage

/-- A failure that the next target may make good. -/
structure Excused (target : Target υ) (message : Message υ) (kind : FailureKind) : Prop where
  reason : message.stopReason = "error"
  route : message.route = target.route
  content : message.content = some 0
  deferred : message.deferred = false
  eligible : isFallbackEligible kind target.fallbackOn = true

/-- What becomes of a target, the events of which are pushed behind `base`. -/
def Becomes (ctx : RelayContext υ) (target : Target υ) (index : Nat) (hasNext : Bool)
    (ending : SourceEnd υ) (serves : Prop) (base : List (LogEntry υ)) :
    Decision υ × RelayState υ → Prop
  | (.terminal, state) => ∃ event message, Ended index base event state ∧
      event.terminalMessage? = some message ∧ (serves → Settles ctx state.lifecycle message)
  | (.thrown, state) => Shown index target.route base state ∧ Armed target state.lifecycle
  | (.hangs, state) => ending.isHanging = true ∧ Shown index target.route base state
  | (.advance message, state) => ∃ kind usage, hasNext = true ∧ Excused target message kind ∧
      state.started = false ∧ state.log = base ++ [.failed index message kind] ∧
      Captured target message usage state.lifecycle ∧
        (serves → Servable ctx target message usage)

section Target

variable {hasNext semantic : Bool} {ending : SourceEnd υ} {serves : Prop}

/-- What a target has done so far: shown at most content, its attempt still open. -/
def Relaying (target : Target υ) (index : Nat) (base : List (LogEntry υ))
    (state : RelayState υ) : Prop :=
  Shown index target.route base state ∧ Armed target state.lifecycle

theorem Relaying.tick (h : Relaying target index base state) :
    Relaying target index base state.tick := ⟨h.1.tick, h.2⟩

theorem Relaying.allocate (h : Relaying target index base state) :
    Relaying target index base state.allocate := ⟨h.1.allocate, h.2⟩

/-- A synthetic terminal is captured, pushed as it is, and accepted. -/
theorem endSynthetic_becomes (h : Relaying target index base state) {message : Message υ}
    {usage : UsageObservation} (hreason : isErrorStopReason message.stopReason = true)
    (hroute : message.route = target.route) (hid : target.route.id ≠ "")
    (hmodel : serves → message.responseModel ≠ some "")
    (husage : serves → usage = .reported →
      ctx.readsUsage target.pricing message.usage = true) :
    Becomes ctx target index hasNext ending serves base
      (endSynthetic ctx state index target.route message usage) := by
  obtain ⟨captured, hcapture, hcaptured⟩ := h.2.captureTerminal hreason usage
  have hpush : pushSyntheticFailure ctx { state with lifecycle := captured } index target.route
      message.stopReason (some message) =
      { state with lifecycle := captured }.pushTerminal index target.route
        (.error message.stopReason message) := by
    simp [pushSyntheticFailure, hroute]
  simp only [endSynthetic, hcapture, hpush]
  have hshown : Shown index target.route base { state with lifecycle := captured } :=
    h.1.congr rfl rfl
  refine ⟨.error message.stopReason message, message, hshown.pushTerminal rfl, rfl, ?_⟩
  intro hserves
  rw [pushTerminal_lifecycle]
  exact hcaptured.settles hreason hroute hid (hmodel hserves) (husage hserves)

theorem synthetic_reason {reason : String} (h : isErrorStopReason reason = true) :
    isErrorStopReason (syntheticFailureMessage ctx state route reason).stopReason = true := h

theorem endMalformed_becomes (h : Relaying target index base state) (hid : target.route.id ≠ "") :
    Becomes ctx target index hasNext ending serves base
      (endMalformed ctx state index target.route) := by
  apply endSynthetic_becomes h.allocate (synthetic_reason (by decide)) rfl hid
  · intro _
    simp [syntheticFailureMessage]
  · intro _ husage
    cases husage

theorem consumeCallerAbort_becomes (h : Relaying target index base state)
    (hid : target.route.id ≠ "") {evidence : Option (Message υ × UsageObservation)}
    (hevidence : serves → ∀ source ∈ evidence, Servable ctx target source.1 source.2) :
    Becomes ctx target index hasNext ending serves base
      (consumeCallerAbort ctx state index target.route evidence) := by
  cases evidence with
  | none =>
    apply endSynthetic_becomes h.allocate (by rfl) rfl hid
    · intro _
      simp [syntheticFailureFromEvidence, syntheticFailureMessage]
    · intro _ husage
      cases husage
  | some source =>
    obtain ⟨message, usage⟩ := source
    apply endSynthetic_becomes h.allocate (by rfl) rfl hid
    · intro hserves
      exact (hevidence hserves _ rfl).1
    · intro hserves husage
      rw [Option.map_some, Option.getD_some] at husage
      have hused : (syntheticFailureFromEvidence ctx state target.route
          (some (message, usage))).usage = message.usage := if_pos husage
      rw [hused]
      exact (hevidence hserves _ rfl).2 husage

theorem abortWith_becomes (h : Relaying target index base state) (hid : target.route.id ≠ "")
    {isReason : String → Bool} {reason : String} {payload : Payload υ} {usage : UsageObservation}
    (hpayload : serves → ∀ message, payload.message? = some message →
      Servable ctx target message usage) :
    Becomes ctx target index hasNext ending serves base
      (abortWith ctx state index target.route
        (abortEvidence isReason target.route reason payload usage)) := by
  unfold abortEvidence
  cases validTerminal isReason target.route reason payload with
  | none => exact h
  | some valid =>
    apply consumeCallerAbort_becomes h hid
    intro hserves source hsource
    cases valid with
    | false => cases hsource
    | true =>
      simp only [if_true, Option.mem_def, Option.map_eq_some_iff] at hsource
      obtain ⟨message, hmessage, rfl⟩ := hsource
      exact hpayload hserves message hmessage

/-- What a valid terminal says. -/
theorem validTerminal_eq_true {isReason : String → Bool} {reason : String} {message : Message υ}
    (h : validTerminal isReason route reason (.message message) = some true) :
    isReason reason = true ∧ reason = message.stopReason ∧ message.route = route := by
  unfold validTerminal at h
  split at h
  · rename_i hreason
    simp only [Option.some.injEq, Bool.and_eq_true, decide_eq_true_eq] at h
    exact ⟨hreason, h.1, h.2⟩
  · cases h

theorem consumeDone_becomes (h : Relaying target index base state) (hid : target.route.id ≠ "")
    {reason : String} {payload : Payload υ}
    (hpayload : serves → ∀ message, payload.message? = some message →
      Servable ctx target message .reported) :
    Becomes ctx target index hasNext ending serves base
      (consumeDone ctx state index target reason payload) := by
  unfold consumeDone
  split
  · exact h
  · rename_i message hvalid
    obtain ⟨hreason, rfl, hroute⟩ := validTerminal_eq_true hvalid
    refine ⟨.done message.stopReason message, message, h.1.pushTerminal rfl, rfl, ?_⟩
    intro hserves
    obtain ⟨hmodel, husage⟩ := hpayload hserves message rfl
    rw [pushTerminal_lifecycle]
    refine h.2.settles hroute hid hmodel ?_ (fun _ => husage rfl)
    intro hpending
    rw [hpending] at hreason
    revert hreason
    decide
  · exact endMalformed_becomes h hid

/-- A valid error: an abort, an advance to the next target, or a terminal. -/
theorem consumeValidError_becomes (h : Relaying target index base state)
    (hsemantic : semantic = state.started) (hid : target.route.id ≠ "") {message : Message υ}
    {fact : Option FailureFact} (hreason : isErrorStopReason message.stopReason = true)
    (hroute : message.route = target.route)
    (hserve : serves → Servable ctx target message (evidenceUsage fact)) :
    Becomes ctx target index hasNext ending serves base
      (consumeValidError ctx state index target hasNext semantic message fact) := by
  obtain ⟨captured, hcapture, hcaptured⟩ :=
    h.2.captureTerminal hreason ((fact.map (·.usage)).getD .unreported)
  have hrelayed : Becomes ctx target index hasNext ending serves base
      (.terminal, { state.tick with lifecycle := captured }.pushTerminal index target.route
        (.error message.stopReason message)) := by
    have hshown : Shown index target.route base { state.tick with lifecycle := captured } :=
      h.1.congr rfl rfl
    refine ⟨.error message.stopReason message, message, hshown.pushTerminal rfl, rfl, ?_⟩
    intro hserves
    rw [pushTerminal_lifecycle]
    exact hcaptured.settles hreason hroute hid (hserve hserves).1 (hserve hserves).2
  have htick : state.tick.lifecycle.captureTerminal message
      ((fact.map (·.usage)).getD .unreported) = some captured := hcapture
  unfold consumeValidError
  simp only [htick]
  split
  · split
    · exact hrelayed
    · apply consumeCallerAbort_becomes h.tick hid
      rintro hserves source hsource
      cases hsource
      exact hserve hserves
  · rename_i hkind
    split
    · split
      · exact hrelayed
      · exact h.tick
    · rename_i parts hparts
      split
      · rename_i hadvance
        simp only [Bool.and_eq_true, Bool.not_eq_true', Bool.or_eq_false_iff,
          decide_eq_false_iff_not, Nat.not_lt, Nat.le_zero_eq] at hadvance
        obtain ⟨⟨⟨⟨hsem, hzero⟩, hdeferred⟩, hnext⟩, heligible⟩ := hadvance
        have hstarted : state.started = false := hsemantic.symm.trans hsem
        have hlog : state.log = base := by
          rcases h.1 with ⟨-, hlog⟩ | ⟨htrue, -⟩
          · exact hlog
          · rw [hstarted] at htrue
            cases htrue
        refine ⟨_, _, hnext, ⟨?_, hroute, by rw [hparts, hzero], hdeferred, heligible⟩, hstarted,
          by simp [RelayState.append, RelayState.tick, hlog], hcaptured, hserve⟩
        -- a failure of the kind `aborted` never advances
        by_contra herror
        have haborted : message.stopReason = "aborted" := by
          simp only [isErrorStopReason, Bool.or_eq_true, decide_eq_true_eq] at hreason
          exact hreason.resolve_left herror
        apply hkind
        rw [classifyFailure, if_pos haborted, ite_self]
      · exact hrelayed

theorem consumeProviderError_becomes (h : Relaying target index base state)
    (hsemantic : semantic = state.started) (hid : target.route.id ≠ "") {reason : String}
    {payload : Payload υ} {fact : Option FailureFact}
    (hpayload : serves → ∀ message, payload.message? = some message →
      Servable ctx target message (evidenceUsage fact)) :
    Becomes ctx target index hasNext ending serves base
      (consumeProviderError ctx state index target hasNext semantic reason payload fact) := by
  unfold consumeProviderError
  split
  · exact h
  · rename_i message hvalid
    obtain ⟨hreason, rfl, hroute⟩ := validTerminal_eq_true hvalid
    exact consumeValidError_becomes h hsemantic hid hreason hroute
      fun hserves => hpayload hserves message rfl
  · exact endMalformed_becomes h hid

theorem finishSource_becomes (h : Relaying target index base state)
    (hsemantic : semantic = state.started) (hid : target.route.id ≠ "")
    {result : Option (Payload υ × Option FailureFact)}
    (hresult : serves → ∀ message usage,
      (SourceEnd.ends result).result? = some (message, usage) →
        Servable ctx target message usage) :
    Becomes ctx target index hasNext ending serves base
      (finishSource ctx state index target hasNext semantic result) := by
  have hready := h.allocate.tick
  unfold finishSource
  split
  · exact h
  · rename_i original fact
    have hpayload : ∀ usage, (if isErrorStopReason original.stopReason then evidenceUsage fact
        else .reported) = usage → serves → ∀ message,
        (Payload.message { original with object := state.objects }).message? = some message →
          Servable ctx target message usage := by
      rintro usage rfl hserves message hmessage
      cases hmessage
      exact hresult hserves original _ rfl
    dsimp only
    split
    · rename_i hreason
      have hserve := hpayload (evidenceUsage fact) (if_pos hreason)
      split
      · exact abortWith_becomes hready hid hserve
      · exact consumeProviderError_becomes hready hsemantic hid hserve
    · rename_i hreason
      have hserve := hpayload .reported (if_neg hreason)
      split
      · exact abortWith_becomes hready hid hserve
      · exact consumeDone_becomes hready hid hserve
  · split
    · apply consumeCallerAbort_becomes h.tick hid
      rintro - source hsource
      cases hsource
    · exact endMalformed_becomes h.tick hid

theorem isContent_pushed (h : Relaying target index base state) (kind : ContentKind)
    (snapshot : Message υ) :
    Relaying target index base
      ((state.tick.pushStart index target.route).append
        (.pushed index (.content kind snapshot))) ∧
      ((state.tick.pushStart index target.route).append
        (.pushed index (.content kind snapshot))).started = true := by
  refine ⟨⟨h.1.tick.pushContent kind snapshot, ?_⟩, h.1.tick.pushStart.1⟩
  rw [append_lifecycle, pushStart_lifecycle]
  exact h.2

/-- A payload and its copy say the same of whether they can be settled. -/
theorem clone_servable {payload copied : Payload υ} {object : Nat} {usage : UsageObservation}
    (hclone : payload.clone object = some copied)
    (h : ∀ message, payload.message? = some message → Servable ctx target message usage) :
    ∀ message, copied.message? = some message → Servable ctx target message usage := by
  cases payload with
  | uncloneable => cases hclone
  | absent =>
    cases hclone
    rintro message ⟨⟩
  | message original =>
    cases hclone
    rintro message ⟨⟩
    exact h original rfl

/-- What becomes of a target, whatever its source yields. -/
theorem consumeEvents_becomes (hid : target.route.id ≠ "")
    (hresult : serves → ∀ message usage, ending.result? = some (message, usage) →
      Servable ctx target message usage)
    (events : List (SourceEvent υ))
    (hevents : serves → ∀ event ∈ events, ∀ message usage,
      event.terminal? = some (message, usage) → Servable ctx target message usage)
    (sawStart semantic : Bool) (state : RelayState υ) (h : Relaying target index base state)
    (hsemantic : semantic = state.started) :
    Becomes ctx target index hasNext ending serves base
      (consumeEvents ctx index target hasNext ending events sawStart semantic state) := by
  have habort : ∀ state : RelayState υ, Relaying target index base state →
      Becomes ctx target index hasNext ending serves base
        (consumeCallerAbort ctx state.tick index target.route none) := by
    intro state hstate
    apply consumeCallerAbort_becomes hstate.tick hid
    rintro - source hsource
    cases hsource
  induction events generalizing sawStart semantic state with
  | nil =>
    unfold consumeEvents
    cases ending with
    | ends result =>
      exact finishSource_becomes h hsemantic hid hresult
    | throws => exact h
    | hangs => exact ⟨rfl, h.1⟩
  | cons event rest ih =>
    have hrest : serves → ∀ event ∈ rest, ∀ message usage,
        event.terminal? = some (message, usage) → Servable ctx target message usage :=
      fun hserves event hevent => hevents hserves event (List.mem_cons_of_mem _ hevent)
    cases event with
    | start snapshot =>
      unfold consumeEvents
      split
      · exact habort state h
      split
      · exact endMalformed_becomes h.tick hid
      cases snapshot with
      | none => exact h.tick
      | some message =>
        dsimp only
        split
        · exact ih hrest true semantic state.tick h.tick hsemantic
        · exact endMalformed_becomes h.tick hid
    | content kind snapshot =>
      unfold consumeEvents
      split
      · exact habort state h
      split
      · exact endMalformed_becomes h.tick hid
      cases snapshot with
      | none => exact h.tick
      | some message =>
        dsimp only
        split
        · obtain ⟨hpushed, hstarted⟩ := isContent_pushed h kind message
          exact ih hrest sawStart true _ hpushed hstarted.symm
        · exact endMalformed_becomes h.tick hid
    | done reason payload =>
      have hpayload : serves → ∀ message, payload.message? = some message →
          Servable ctx target message .reported := by
        intro hserves message hmessage
        refine hevents hserves _ (List.mem_cons_self ..) message _ ?_
        cases payload <;> cases hmessage
        rfl
      unfold consumeEvents
      split
      · exact h
      · rename_i copied hclone
        have hcopied := fun hserves => clone_servable hclone (hpayload hserves)
        split
        · exact abortWith_becomes h.allocate.tick hid hcopied
        · exact consumeDone_becomes h.allocate.tick hid hcopied
    | error reason payload fact =>
      have hpayload : serves → ∀ message, payload.message? = some message →
          Servable ctx target message (evidenceUsage fact) := by
        intro hserves message hmessage
        refine hevents hserves _ (List.mem_cons_self ..) message _ ?_
        cases payload <;> cases hmessage
        rfl
      unfold consumeEvents
      split
      · exact h
      · rename_i copied hclone
        have hcopied := fun hserves => clone_servable hclone (hpayload hserves)
        split
        · exact abortWith_becomes h.allocate.tick hid hcopied
        · exact consumeProviderError_becomes h.allocate.tick hsemantic hid hcopied
    | other =>
      unfold consumeEvents
      split
      · exact habort state h
      · exact endMalformed_becomes h.tick hid
    | unreadable => exact h

end Target

/-! ## The log only grows -/

/-- What a relay has done so far is not undone. -/
def Extends (log : List (LogEntry υ)) (state : RelayState υ) : Prop := log <+: state.log

section Extends

variable {log : List (LogEntry υ)} {hasNext semantic : Bool}

theorem Extends.append (h : Extends log state) (entry : LogEntry υ) :
    Extends log (state.append entry) :=
  List.IsPrefix.trans h (List.prefix_append _ _)

theorem Extends.pushStart (h : Extends log state) : Extends log (state.pushStart index route) := by
  unfold RelayState.pushStart
  split
  · exact h
  · exact h.append _

theorem Extends.pushTerminal (h : Extends log state) (event : OutputEvent υ) :
    Extends log (state.pushTerminal index route event) :=
  h.pushStart.append _

theorem Extends.pushSyntheticFailure (h : Extends log state) (reason : String)
    (base : Option (Message υ)) :
    Extends log (pushSyntheticFailure ctx state index route reason base) := by
  have hallocated : Extends log state.allocate := h
  unfold Provider.pushSyntheticFailure
  split
  · split
    · exact h.pushTerminal _
    · exact hallocated.pushTerminal _
  · exact hallocated.pushTerminal _

theorem Extends.endSynthetic (h : Extends log state) (message : Message υ)
    (usage : UsageObservation) :
    Extends log (endSynthetic ctx state index route message usage).2 := by
  unfold Provider.endSynthetic
  split
  · exact h
  · rename_i lifecycle _
    have hcaptured : Extends log { state with lifecycle } := h
    exact hcaptured.pushSyntheticFailure _ _

theorem Extends.endMalformed (h : Extends log state) :
    Extends log (endMalformed ctx state index route).2 := by
  have hallocated : Extends log state.allocate := h
  exact hallocated.endSynthetic _ _

theorem Extends.consumeCallerAbort (h : Extends log state)
    (evidence : Option (Message υ × UsageObservation)) :
    Extends log (consumeCallerAbort ctx state index route evidence).2 := by
  have hallocated : Extends log state.allocate := h
  exact hallocated.endSynthetic _ _

theorem Extends.abortWith (h : Extends log state)
    (evidence : Option (Option (Message υ × UsageObservation))) :
    Extends log (abortWith ctx state index route evidence).2 := by
  unfold Provider.abortWith
  split
  · exact h
  · exact h.consumeCallerAbort _

theorem Extends.consumeDone (h : Extends log state) (reason : String) (payload : Payload υ) :
    Extends log (consumeDone ctx state index target reason payload).2 := by
  unfold Provider.consumeDone
  split
  · exact h
  · exact h.pushTerminal _
  · exact h.endMalformed

theorem Extends.consumeValidError (h : Extends log state) (message : Message υ)
    (fact : Option FailureFact) :
    Extends log
      (consumeValidError ctx state index target hasNext semantic message fact).2 := by
  have hread : Extends log state.tick := h
  have hcaptured : ∀ lifecycle, Extends log { state.tick with lifecycle } := fun _ => h
  unfold Provider.consumeValidError
  dsimp only
  generalize state.tick.lifecycle.captureTerminal message _ = capture
  split
  · split
    · cases capture with
      | none => exact hread
      | some lifecycle => exact (hcaptured lifecycle).pushTerminal _
    · exact hread.consumeCallerAbort _
  · split
    · split
      · cases capture with
        | none => exact hread
        | some lifecycle => exact (hcaptured lifecycle).pushTerminal _
      · exact hread
    · split
      · cases capture with
        | none => exact hread
        | some lifecycle => exact (hcaptured lifecycle).append _
      · cases capture with
        | none => exact hread
        | some lifecycle => exact (hcaptured lifecycle).pushTerminal _

theorem Extends.consumeProviderError (h : Extends log state) (reason : String)
    (payload : Payload υ) (fact : Option FailureFact) :
    Extends log (consumeProviderError ctx state index target hasNext semantic reason payload
      fact).2 := by
  unfold Provider.consumeProviderError
  split
  · exact h
  · exact h.consumeValidError _ _
  · exact h.endMalformed

theorem Extends.finishSource (h : Extends log state)
    (result : Option (Payload υ × Option FailureFact)) :
    Extends log (finishSource ctx state index target hasNext semantic result).2 := by
  have hallocated : Extends log state.allocate.tick := h
  have hread : Extends log state.tick := h
  unfold Provider.finishSource
  split
  · exact h
  · dsimp only
    split
    · split
      · exact hallocated.abortWith _
      · exact hallocated.consumeProviderError _ _ _
    · split
      · exact hallocated.abortWith _
      · exact hallocated.consumeDone _ _
  · split
    · exact hread.consumeCallerAbort _
    · exact hread.endMalformed

theorem extends_consumeEvents (ending : SourceEnd υ) (events : List (SourceEvent υ)) :
    ∀ (sawStart semantic : Bool) (state : RelayState υ), Extends log state → Extends log
      (consumeEvents ctx index target hasNext ending events sawStart semantic state).2 := by
  induction events with
  | nil =>
    intro sawStart semantic state h
    cases ending with
    | ends result => exact h.finishSource result
    | throws => exact h
    | hangs => exact h
  | cons event rest ih =>
    intro sawStart semantic state h
    have hread : Extends log state.tick := h
    have hallocated : Extends log state.allocate.tick := h
    unfold consumeEvents
    cases event with
    | start snapshot =>
      dsimp only
      split
      · exact hread.consumeCallerAbort _
      split
      · exact hread.endMalformed
      split
      · exact hread
      split
      · exact ih _ _ _ hread
      · exact hread.endMalformed
    | content kind snapshot =>
      dsimp only
      split
      · exact hread.consumeCallerAbort _
      split
      · exact hread.endMalformed
      split
      · exact hread
      split
      · exact ih _ _ _ (hread.pushStart.append _)
      · exact hread.endMalformed
    | done reason payload =>
      dsimp only
      split
      · exact h
      split
      · exact hallocated.abortWith _
      · exact hallocated.consumeDone _ _
    | error reason payload fact =>
      dsimp only
      split
      · exact h
      split
      · exact hallocated.abortWith _
      · exact hallocated.consumeProviderError _ _ _
    | other =>
      dsimp only
      split
      · exact hread.consumeCallerAbort _
      · exact hread.endMalformed
    | unreadable => exact h

theorem Extends.dispatchTarget (h : Extends log state) (next : Target υ) :
    Extends log (dispatchTarget ctx state index next).2 := by
  have hread : Extends log state.tick := h
  have hcommitted : ∀ lifecycle, Extends log { state.tick with lifecycle } := fun _ => h
  unfold Provider.dispatchTarget
  dsimp only
  split
  · exact hread
  split
  · exact hread
  split
  · exact hcommitted _
  split
  · exact (hcommitted _).append _
  · exact (hcommitted _).append _

theorem Extends.relayFailure (h : Extends log state) :
    Extends log (relayFailure ctx state index route) := by
  have hread : Extends log state.tick := h
  exact hread.pushSyntheticFailure _ _

/-- What the loop does once a target has failed and its attempt is settled. -/
def relayNext (ctx : RelayContext υ) (target : Target υ) (index : Nat) (rest : List (Target υ))
    (state : RelayState υ) : RelayState υ :=
  match rest with
  | [] => relayFailure ctx state index target.route
  | next :: rest =>
    match dispatchTarget ctx state (index + 1) next with
    | (none, state) => relayFailure ctx state index target.route
    | (some source, state) => relayFrom ctx next (index + 1) source rest state

theorem Extends.round {rest : List (Target υ)} {source : List (SourceEvent υ) × SourceEnd υ}
    (h : Extends log state) (hnext : ∀ after : RelayState υ, Extends log after →
      Extends log (relayNext ctx target index rest after)) :
    Extends log (relayFrom ctx target index source rest state) := by
  have hconsumed : Extends log (consumeEvents ctx index target (!rest.isEmpty) source.2 source.1
      false false state).2 := extends_consumeEvents _ _ _ _ _ h
  unfold relayFrom
  generalize consumeEvents ctx index target (!rest.isEmpty) source.2 source.1 false false state =
    outcome at hconsumed ⊢
  obtain ⟨decision, reached⟩ := outcome
  cases decision with
  | terminal => exact hconsumed
  | hangs => exact hconsumed
  | thrown => exact hconsumed.relayFailure
  | advance message =>
    have hlifecycle : ∀ lifecycle, Extends log { reached with lifecycle } :=
      fun _ => hconsumed
    dsimp only
    split
    · exact (hlifecycle _).pushTerminal _
    · rename_i lifecycle _
      have hsettled : Extends log
          (({ reached with lifecycle } : RelayState υ).append (.settled index)).tick :=
        (hlifecycle lifecycle).append _
      split
      · exact hsettled.pushSyntheticFailure _ _
      · have hafter := hnext _ hsettled
        cases rest <;> exact hafter

/-- The log of a relay extends what it starts from. -/
theorem extends_relayFrom (rest : List (Target υ)) :
    ∀ (target : Target υ) (index : Nat) (source : List (SourceEvent υ) × SourceEnd υ)
      (state : RelayState υ), Extends log state →
        Extends log (relayFrom ctx target index source rest state) := by
  induction rest with
  | nil =>
    intro target index source state h
    exact h.round fun after hafter => hafter.relayFailure
  | cons next rest ih =>
    intro target index source state h
    apply h.round
    intro after hafter
    have hdispatched : Extends log (dispatchTarget ctx after (index + 1) next).2 :=
      hafter.dispatchTarget next
    unfold relayNext
    dsimp only
    generalize dispatchTarget ctx after (index + 1) next = outcome at hdispatched ⊢
    obtain ⟨answer, dispatched⟩ := outcome
    cases answer with
    | none => exact hdispatched.relayFailure
    | some nextSource => exact ih next (index + 1) nextSource dispatched hdispatched

end Extends

/-! ## Target after target -/

/-- The log of targets that were dispatched one after the other, each while the signal was not
aborted, and failed in a way that excuses them, their attempts settled. -/
inductive Advanced (ctx : RelayContext υ) (targets : List (Target υ)) :
    Nat → List (LogEntry υ) → Prop
  | start : Advanced ctx targets 0 []
  | next {index moment : Nat} {log : List (LogEntry υ)} {target : Target υ} {message : Message υ}
      {kind : FailureKind} (before : Advanced ctx targets index log)
      (here : targets[index]? = some target) (running : ctx.aborted moment = false)
      (excused : Excused target message kind) :
      Advanced ctx targets (index + 1)
        (log ++ [.dispatched index moment, .failed index message kind, .settled index])

/-- What a dispatch leaves when it returns a source. -/
theorem dispatchTarget_eq_some {next : Target υ} {source : List (SourceEvent υ) × SourceEnd υ}
    {dispatched : RelayState υ} (h : dispatchTarget ctx state index next = (some source, dispatched)) :
    ctx.aborted state.moment = false ∧ next.start = .source source.1 source.2 ∧
      dispatched.started = state.started ∧
      dispatched.log = state.log ++ [.dispatched index state.moment] ∧
      Armed next dispatched.lifecycle := by
  unfold dispatchTarget at h
  dsimp only at h
  split at h
  · cases h
  rename_i hrunning
  split at h
  · cases h
  rename_i begun hbegin
  split at h
  · cases h
  rename_i lifecycle hcommit
  split at h
  · cases h
  · rename_i events ending hstart
    cases h
    refine ⟨Bool.eq_false_iff.2 hrunning, hstart, rfl, rfl, ?_⟩
    unfold Lifecycle.begin at hbegin
    split at hbegin
    · cases hbegin
    · rename_i hopen
      simp only [Bool.or_eq_true, not_or, Bool.not_eq_true] at hopen
      cases hbegin
      unfold Lifecycle.commit at hcommit
      split at hcommit
      · cases hcommit
        exact ⟨hopen.1, _, rfl, rfl, rfl, rfl, rfl⟩
      · cases hcommit

/-- What a dispatch leaves when it throws: no attempt is open, unless the start of the request
is what threw. -/
theorem dispatchTarget_eq_none {next : Target υ} {dispatched : RelayState υ}
    (hclosed : state.lifecycle.current = none)
    (h : dispatchTarget ctx state index next = (none, dispatched)) :
    dispatched.started = state.started ∧
      ((dispatched.log = state.log ∧ dispatched.lifecycle.current = none) ∨
        (ctx.aborted state.moment = false ∧ next.recorded = true ∧ next.start = .throws ∧
          dispatched.log = state.log ++ [.dispatched index state.moment] ∧
          Armed next dispatched.lifecycle)) := by
  unfold dispatchTarget at h
  dsimp only at h
  split at h
  · cases h
    exact ⟨rfl, Or.inl ⟨rfl, hclosed⟩⟩
  rename_i hrunning
  split at h
  · cases h
    exact ⟨rfl, Or.inl ⟨rfl, hclosed⟩⟩
  rename_i begun hbegin
  unfold Lifecycle.begin at hbegin
  split at hbegin
  · cases hbegin
  rename_i hopen
  simp only [Bool.or_eq_true, not_or, Bool.not_eq_true] at hopen
  cases hbegin
  split at h
  · rename_i lifecycle hcommit
    cases h
    refine ⟨rfl, Or.inl ⟨rfl, ?_⟩⟩
    unfold Lifecycle.commit at hcommit
    split at hcommit
    · cases hcommit
    · cases hcommit
      rfl
  · rename_i lifecycle hcommit
    unfold Lifecycle.commit at hcommit
    split at hcommit
    · rename_i hrecorded
      cases hcommit
      split at h
      · rename_i hstart
        cases h
        exact ⟨rfl, Or.inr ⟨Bool.eq_false_iff.2 hrunning, hrecorded, hstart, rfl, hopen.1, _, rfl,
          rfl, rfl, rfl, rfl⟩⟩
      · cases h
    · cases hcommit

/-- The logs a relay has before it pushes anything. -/
inductive Opened (ctx : RelayContext υ) (targets : List (Target υ)) : List (LogEntry υ) → Prop
  | settled {index : Nat} {log : List (LogEntry υ)} (before : Advanced ctx targets index log) :
      Opened ctx targets log
  | dispatched {index moment : Nat} {log : List (LogEntry υ)} {target : Target υ}
      (before : Advanced ctx targets index log) (here : targets[index]? = some target)
      (running : ctx.aborted moment = false) :
      Opened ctx targets (log ++ [.dispatched index moment])
  | failed {index moment : Nat} {log : List (LogEntry υ)} {target : Target υ}
      {message : Message υ} {kind : FailureKind} (before : Advanced ctx targets index log)
      (here : targets[index]? = some target) (running : ctx.aborted moment = false)
      (excused : Excused target message kind) :
      Opened ctx targets (log ++ [.dispatched index moment, .failed index message kind])

/-- A relay that has answered: a start, content of the target dispatched last, a terminal. -/
def Answered (ctx : RelayContext υ) (targets : List (Target υ)) (serves : Prop)
    (state : RelayState υ) : Prop :=
  ∃ base index route contents event message, Opened ctx targets base ∧
    (∀ e ∈ contents, OutputEvent.isContent e = true) ∧
    (contents ≠ [] → ∃ moment, base.getLast? = some (.dispatched index moment)) ∧
    state.log = base ++ (.pushed index (.start route) :: contents.map (.pushed index) ++
      [.pushed index event]) ∧
    event.isTerminal = true ∧ event.terminalMessage? = some message ∧
    (serves → Settles ctx state.lifecycle message)

/-- A relay that waits for a source that never ends. -/
def Waiting (ctx : RelayContext υ) (targets : List (Target υ)) (state : RelayState υ) : Prop :=
  ∃ base index route moment, Opened ctx targets base ∧
    base.getLast? = some (.dispatched index moment) ∧ Shown index route base state ∧
    ∃ target ∈ targets, ∃ events, target.start = .source events .hangs

/-- What a relay with the log `log` relies on: every terminal message of a target that was
dispatched can be settled, and where the start of a later target throws, that target is of the
model of the target before it. -/
structure Reliable (ctx : RelayContext υ) (targets : List (Target υ)) (log : List (LogEntry υ)) :
    Prop where
  servable : ∀ index moment target events ending, .dispatched index moment ∈ log →
    targets[index]? = some target → target.start = .source events ending →
      SourceServable ctx target events ending
  starts : ∀ index moment target next, .dispatched (index + 1) moment ∈ log →
    targets[index]? = some target → targets[index + 1]? = some next → next.start = .throws →
      target.route = next.route

theorem pushTerminal_unstarted (h : state.started = false) (event : OutputEvent υ) :
    (state.pushTerminal index route event).log =
      state.log ++ [.pushed index (.start route), .pushed index event] := by
  simp [RelayState.pushTerminal, RelayState.pushStart, RelayState.append, h]

section Relay

variable {targets : List (Target υ)} {serves : Prop}

/-- A terminal behind the content of one target. -/
theorem Ended.answered {event : OutputEvent υ} {message : Message υ} {moment : Nat}
    (h : Ended index base event state) (hopened : Opened ctx targets base)
    (hlast : base.getLast? = some (.dispatched index moment))
    (hmessage : event.terminalMessage? = some message)
    (hsettles : serves → Settles ctx state.lifecycle message) :
    Answered ctx targets serves state := by
  obtain ⟨hevent, route, contents, hcontents, hlog⟩ := h
  exact ⟨base, index, route, contents, event, message, hopened, hcontents, fun _ => ⟨moment, hlast⟩,
    hlog, hevent, hmessage, hsettles⟩

/-- A terminal before any content. -/
theorem answered_bare {message : Message υ} (hstarted : state.started = false)
    (hopened : Opened ctx targets state.log) (reason : String)
    (hsettles : serves → Settles ctx state.lifecycle message) :
    Answered ctx targets serves (state.pushTerminal index route (.error reason message)) := by
  refine ⟨state.log, index, route, [], .error reason message, message, hopened, by simp, by simp,
    ?_, rfl, rfl, ?_⟩
  · rw [pushTerminal_unstarted hstarted]
    rfl
  · rwa [pushTerminal_lifecycle]

theorem synthetic_responseModel (reason : String) :
    (syntheticFailureMessage ctx state route reason).responseModel ≠ some "" := by
  simp [syntheticFailureMessage]

/-- The catch pushes a message of the target that was named last. -/
theorem relayFailure_eq (ctx : RelayContext υ) (state : RelayState υ) (index : Nat)
    (route : Route) : ∃ reason, isErrorStopReason reason = true ∧
      relayFailure ctx state index route = state.tick.allocate.pushTerminal index route
        (.error reason (syntheticFailureMessage ctx state.tick route reason)) := by
  refine ⟨_, ?_, rfl⟩
  split <;> decide

theorem Armed.settles_synthetic {lifecycle : Lifecycle υ} (h : Armed target lifecycle)
    (hid : target.route.id ≠ "") {reason : String} (hreason : isErrorStopReason reason = true)
    (hroute : route = target.route) :
    Settles ctx lifecycle (syntheticFailureMessage ctx state route reason) := by
  subst hroute
  apply h.settles rfl hid (synthetic_responseModel reason)
  · rintro rfl
    revert hreason
    decide
  · intro hfalse
    rw [show (syntheticFailureMessage ctx state target.route reason).stopReason = reason from rfl,
      hreason] at hfalse
    cases hfalse

/-- A settlement that throws leaves the attempt as it was, or closed. -/
theorem settle_false {lifecycle after : Lifecycle υ} {actx : AttemptContext υ}
    {message : Message υ} {answer : SettleAnswer}
    (h : lifecycle.settle actx message answer = (false, after)) :
    after = lifecycle ∨ after.current = none := by
  unfold Lifecycle.settle at h
  split at h
  · cases answer <;> cases h
    · exact Or.inl rfl
    · exact Or.inr rfl
    · exact Or.inr rfl
  · cases h
    exact Or.inl rfl

/-- One round of the loop: an answer, a wait, or the next target. -/
theorem relayFrom_round {rest : List (Target υ)} {target : Target υ} {index moment : Nat}
    {source : List (SourceEvent υ) × SourceEnd υ} {log : List (LogEntry υ)} {state : RelayState υ}
    (hid : target.route.id ≠ "") (hserve : serves → SourceServable ctx target source.1 source.2)
    (hhere : targets[index]? = some target) (hstart : target.start = .source source.1 source.2)
    (hbefore : Advanced ctx targets index log) (hrunning : ctx.aborted moment = false)
    (hstarted : state.started = false) (hlog : state.log = log ++ [.dispatched index moment])
    (harmed : Armed target state.lifecycle) :
    (Answered ctx targets serves (relayFrom ctx target index source rest state) ∨
      Waiting ctx targets (relayFrom ctx target index source rest state)) ∨
    ∃ after : RelayState υ, rest ≠ [] ∧ Advanced ctx targets (index + 1) after.log ∧
      after.started = false ∧ after.lifecycle.current = none ∧
      relayFrom ctx target index source rest state = relayNext ctx target index rest after := by
  have hopened : Opened ctx targets state.log := hlog ▸ .dispatched hbefore hhere hrunning
  have hlast : state.log.getLast? = some (.dispatched index moment) := by simp [hlog]
  have hbecomes : Becomes ctx target index (!rest.isEmpty) source.2 serves state.log
      (consumeEvents ctx index target (!rest.isEmpty) source.2 source.1 false false state) :=
    consumeEvents_becomes hid (fun hserves => (hserve hserves).2) source.1
      (fun hserves => (hserve hserves).1) false false state ⟨Or.inl ⟨hstarted, rfl⟩, harmed⟩
      hstarted.symm
  unfold relayFrom
  generalize consumeEvents ctx index target (!rest.isEmpty) source.2 source.1 false false state =
    outcome at hbecomes ⊢
  obtain ⟨decision, reached⟩ := outcome
  cases decision with
  | terminal =>
    obtain ⟨event, message, hended, hmessage, hsettles⟩ := hbecomes
    exact Or.inl (Or.inl (hended.answered hopened hlast hmessage hsettles))
  | thrown =>
    obtain ⟨hshown, harmed⟩ := hbecomes
    obtain ⟨reason, hreason, heq⟩ := relayFailure_eq ctx reached index target.route
    refine Or.inl (Or.inl ?_)
    dsimp only
    rw [heq]
    have hended : Ended index state.log
        (.error reason (syntheticFailureMessage ctx reached.tick target.route reason))
        (reached.tick.allocate.pushTerminal index target.route
          (.error reason (syntheticFailureMessage ctx reached.tick target.route reason))) :=
      hshown.tick.allocate.pushTerminal rfl
    refine hended.answered hopened hlast rfl fun _ => ?_
    rw [pushTerminal_lifecycle]
    exact harmed.settles_synthetic hid hreason rfl
  | hangs =>
    obtain ⟨hhangs, hshown⟩ := hbecomes
    refine Or.inl (Or.inr ⟨state.log, index, target.route, moment, hopened, hlast, hshown, target,
      List.mem_of_getElem? hhere, source.1, ?_⟩)
    rw [hstart]
    cases hending : source.2 <;> rw [hending] at hhangs <;> simp [SourceEnd.isHanging] at hhangs
  | advance message =>
    obtain ⟨kind, usage, hnext, hexcused, hunstarted, hreachedLog, hcaptured, hservable⟩ :=
      hbecomes
    have hreachedOpened : Opened ctx targets reached.log := by
      rw [hreachedLog, hlog, List.append_assoc]
      exact .failed hbefore hhere hrunning hexcused
    have hreason : isErrorStopReason message.stopReason = true := by
      rw [hexcused.reason]
      decide
    dsimp only
    cases hsettle : reached.lifecycle.settle ctx.toAttemptContext message target.settled with
    | mk settled lifecycle =>
      cases settled with
      | false =>
        refine Or.inl (Or.inl (answered_bare
          (show ({ reached with lifecycle } : RelayState υ).started = false from hunstarted)
          hreachedOpened _ ?_))
        intro hserves
        rcases settle_false hsettle with rfl | hclosed
        · exact hcaptured.settles hreason hexcused.route hid (hservable hserves).1
            (hservable hserves).2
        · exact settles_none hclosed message
      | true =>
        have hclosed : lifecycle.current = none := by
          have hreturns : (reached.lifecycle.settle ctx.toAttemptContext message
              target.settled).1 = true := by rw [hsettle]
          have hafter := settle_current hreturns
          rw [hsettle] at hafter
          dsimp only at hafter
          rw [hafter]
        have hadvanced : Advanced ctx targets (index + 1)
            (reached.log ++ [.settled index]) := by
          rw [hreachedLog, hlog, List.append_assoc, List.append_assoc]
          exact .next hbefore hhere hrunning hexcused
        dsimp only
        split
        · refine Or.inl (Or.inl ?_)
          unfold pushSyntheticFailure
          dsimp only
          rw [if_neg (by simp [hexcused.reason])]
          refine answered_bare (show (({ reached with lifecycle } : RelayState υ).append
            (.settled index)).tick.allocate.started = false from hunstarted)
            (Opened.settled hadvanced) _ ?_
          intro _
          exact settles_none hclosed _
        · refine Or.inr ⟨({ reached with lifecycle }.append (.settled index)).tick, ?_,
            hadvanced, hunstarted, hclosed, ?_⟩
          · intro hempty
            rw [hempty] at hnext
            cases hnext
          · cases rest <;> rfl

/-- The whole relay, from a target that has just been dispatched. -/
theorem relayFrom_answered (hids : ∀ target ∈ targets, target.route.id ≠ "")
    {final : List (LogEntry υ)} (hreliable : serves → Reliable ctx targets final)
    (rest : List (Target υ)) :
    ∀ (target : Target υ) (index moment : Nat) (source : List (SourceEvent υ) × SourceEnd υ)
      (log : List (LogEntry υ)) (state : RelayState υ), targets.drop index = target :: rest →
      target.start = .source source.1 source.2 → Advanced ctx targets index log →
      ctx.aborted moment = false → state.started = false →
      state.log = log ++ [.dispatched index moment] → Armed target state.lifecycle →
      (relayFrom ctx target index source rest state).log = final →
      Answered ctx targets serves (relayFrom ctx target index source rest state) ∨
        Waiting ctx targets (relayFrom ctx target index source rest state) := by
  have hround : ∀ (rest : List (Target υ)) (target : Target υ) (index moment : Nat)
      (source : List (SourceEvent υ) × SourceEnd υ) (log : List (LogEntry υ))
      (state : RelayState υ), targets[index]? = some target →
      target.start = .source source.1 source.2 →
      state.log = log ++ [.dispatched index moment] →
      (relayFrom ctx target index source rest state).log = final →
      serves → SourceServable ctx target source.1 source.2 := by
    intro rest target index moment source log state hhere hstart hlog hfinal hserves
    refine (hreliable hserves).servable index moment target _ _ ?_ hhere hstart
    rw [← hfinal]
    apply (extends_relayFrom rest target index source state (List.prefix_refl _)).subset
    simp [hlog]
  induction rest with
  | nil =>
    intro target index moment source log state hdrop hstart hbefore hrunning hstarted hlog harmed
      hfinal
    have hhere : targets[index]? = some target := by
      rw [← List.head?_drop, hdrop]
      rfl
    have hserve := hround [] target index moment source log state hhere hstart hlog hfinal
    rcases relayFrom_round (hids target (List.mem_of_getElem? hhere)) hserve hhere hstart hbefore
      hrunning hstarted hlog harmed with hdone | ⟨_, hrest, _⟩
    · exact hdone
    · exact absurd rfl hrest
  | cons next rest ih =>
    intro target index moment source log state hdrop hstart hbefore hrunning hstarted hlog harmed
      hfinal
    have hhere : targets[index]? = some target := by
      rw [← List.head?_drop, hdrop]
      rfl
    have hdropNext : targets.drop (index + 1) = next :: rest := by
      rw [← List.tail_drop, hdrop]
      rfl
    have hnext : targets[index + 1]? = some next := by
      rw [← List.head?_drop, hdropNext]
      rfl
    have hserve := hround (next :: rest) target index moment source log state hhere hstart hlog
      hfinal
    rcases relayFrom_round (hids target (List.mem_of_getElem? hhere)) hserve hhere hstart hbefore
      hrunning hstarted hlog harmed with hdone | ⟨after, -, hadvanced, hunstarted, hclosed, heq⟩
    · exact hdone
    rw [heq, relayNext] at hfinal ⊢
    cases hdispatch : dispatchTarget ctx after (index + 1) next with
    | mk answer dispatched =>
      rw [hdispatch] at hfinal
      cases answer with
      | some nextSource =>
        obtain ⟨hstill, hnextStart, hnextStarted, hnextLog, hnextArmed⟩ :=
          dispatchTarget_eq_some hdispatch
        exact ih next (index + 1) after.moment nextSource after.log dispatched hdropNext
          hnextStart hadvanced hstill (hnextStarted.trans hunstarted) hnextLog hnextArmed
          hfinal
      | none =>
        obtain ⟨hnextStarted, hthrown⟩ := dispatchTarget_eq_none hclosed hdispatch
        obtain ⟨reason, hreason, hfailure⟩ :=
          relayFailure_eq ctx dispatched index target.route
        have hnextOpened : Opened ctx targets dispatched.log := by
          rcases hthrown with ⟨hsame, -⟩ | ⟨hstill, -, -, hnextLog, -⟩
          · exact hsame ▸ .settled hadvanced
          · exact hnextLog ▸ .dispatched hadvanced hnext hstill
        have hreached : Extends dispatched.log
            (relayFailure ctx dispatched index target.route) :=
          Extends.relayFailure (List.prefix_refl _)
        dsimp only at hfinal ⊢
        rw [Extends, hfinal] at hreached
        rw [hfailure]
        refine Or.inl (answered_bare (show dispatched.tick.allocate.started = false from
          hnextStarted.trans hunstarted) hnextOpened _ ?_)
        intro hserves
        rcases hthrown with ⟨-, hnone⟩ | ⟨-, -, hthrows, hnextLog, hnextArmed⟩
        · exact settles_none hnone _
        · apply hnextArmed.settles_synthetic (hids next (List.mem_of_getElem? hnext)) hreason
          refine (hreliable hserves).starts index after.moment target next ?_ hhere hnext
            hthrows
          apply hreached.subset
          simp [hnextLog]

end Relay

end Provider

end OpenGameAgent
