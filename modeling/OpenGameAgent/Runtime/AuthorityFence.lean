import OpenGameAgent.Runtime.RunAuthorities

/-!
# An event store and an Action journal on one run authority

A host appends events, calls the journal and closes authorities, in any order.  A call of
`closeAuthority` asks the host for the time and may ask it to retire Goals, and other
calls run before the host answers.

* `RunAuthorityHost.run_step` — what one step does to the authorities.
* `RunAuthorityHost.Fences` — what a closed authority fences; `fences_run` proves it of
  every run, and `keeps_run` what repeated and conflicting requests find in a run whose
  closes are undisturbed.
-/

namespace OpenGameAgent

/-- The action an answer hands out for dispatch. -/
def ActionAnswer.dispatched : ActionAnswer → Option ActionRecord
  | .selection ⟨some ⟨.dispatch, action⟩, _⟩ => some action
  | .recovery (some ⟨.dispatch, action⟩) => some action
  | _ => none

/-- A call of `closeAuthority` that waits for the host: for the time, or with the time for
the retirement of Goals. -/
structure PendingClose where
  request : CloseRunAuthorityRequest
  closedAt : Option String

/-- What the host does next. -/
inductive HostCall where
  | append (stream : StreamKey) (expectedRevision : String) (coordinate : RunCoordinate)
      (data : CanonicalEventData) (host : AppendHost)
  | purgeTerminalRuns (stream : StreamKey) (request : TerminalEventPurgeRequest)
  | action (operation : ActionOperation)
  | close (request : CloseRunAuthorityRequest)
  | clock (index : Nat) (answer : Except EventError String)
  | goalsRetired (index : Nat) (answer : Except EventError Unit)

inductive HostOutcome where
  | event (answer : Except EventError EventAnswer)
  | action (answer : Except ActionError ActionAnswer)
  | closed (request : CloseRunAuthorityRequest) (answer : Except EventError RunAuthorityClosure)
  | waits

/-- A store and a journal that reads its authorities: it dispatches for open runs only. -/
structure RunAuthorityHost where
  store : RunAuthorityStore
  journal : ActionJournal
  authority : store.State → journal.Authority
  dispatches : ∀ state operation actions, Ends (journal.call (authority state) operation) actions
    (fun answer _ => ∀ record, answer.dispatched = some record →
      (store.authorities state).IsOpen record.coordinate.runKey) (fun _ _ => True)

namespace RunAuthorityHost

variable (host : RunAuthorityHost)

structure State where
  events : host.store.State
  actions : host.journal.State
  closing : List PendingClose

def empty : host.State := ⟨host.store.empty, host.journal.empty, []⟩

variable {host}

def State.authorities (s : host.State) : RunAuthorities := host.store.authorities s.events

/-- A part of `closeAuthority` ended the call, or the call waits for the host. -/
def settle (s : host.State) (request : CloseRunAuthorityRequest) (closedAt : Option String) :
    Except EventError EventAnswer × host.store.State → HostOutcome × host.State
  | (.ok (.progress (.answered closure)), events) =>
    (.closed request (.ok closure), { s with events := events })
  | (.ok _, events) =>
    (.waits, ⟨events, s.actions, s.closing ++ [⟨request, closedAt⟩]⟩)
  | (.error e, events) => (.closed request (.error e), { s with events := events })

/-- The state without a call that goes on. -/
def State.without (s : host.State) (index : Nat) : host.State :=
  { s with closing := s.closing.eraseIdx index }

/-- One step of the host. -/
def answer (s : host.State) : HostCall → HostOutcome × host.State
  | .append stream expectedRevision coordinate data appendHost =>
    let (answer, events) := host.store.answer s.events
      (.append stream expectedRevision coordinate data appendHost)
    (.event answer, { s with events := events })
  | .purgeTerminalRuns stream request =>
    let (answer, events) := host.store.answer s.events (.purgeTerminalRuns stream request)
    (.event answer, { s with events := events })
  | .action operation =>
    let (answer, actions) := host.journal.answer s.actions ⟨host.authority s.events, operation⟩
    (.action answer, { s with actions := actions })
  | .close request =>
    settle s request none (host.store.answer s.events (.beginClose request))
  | .clock index clock =>
    match s.closing[index]? with
    | some ⟨request, none⟩ =>
      settle (s.without index) request clock.toOption
        (host.store.answer s.events (.resumeClose request clock))
    | _ => (.waits, s)
  | .goalsRetired index retired =>
    match s.closing[index]?, retired with
    | some ⟨request, some closedAt⟩, .ok () =>
      settle (s.without index) request none
        (host.store.answer s.events (.commitClose request closedAt))
    | some ⟨request, some _⟩, .error e => (.closed request (.error e), s.without index)
    | _, _ => (.waits, s)

variable (host)

/-- The state after some calls. -/
def run (calls : List HostCall) : host.State := (history answer host.empty calls).2

/-- What comes of a call after some others. -/
def outcome (calls : List HostCall) (call : HostCall) : HostOutcome :=
  (answer (host.run calls) call).1

theorem run_concat (calls : List HostCall) (call : HostCall) :
    host.run (calls ++ [call]) = (answer (host.run calls) call).2 := by
  unfold run
  rw [history_concat]

/-! ## One step -/

variable {host}

/-- Where Goals are retired, no other close committed for the key or the operation since
the call read the store. -/
def State.Undisturbed (s : host.State) : HostCall → Prop
  | .goalsRetired index (.ok ()) =>
    ∀ request closedAt, s.closing[index]? = some ⟨request, some closedAt⟩ →
      s.authorities.lookup request = .ok none
  | _ => True

/-- What a step does, by its outcome. -/
def Step (s : host.State) (call : HostCall) (s' : host.State) : HostOutcome → Prop
  | .event (.ok (.appended event)) =>
    s.authorities.Admits event.coordinate.runKey s'.authorities event.data
  | .event _ => s'.authorities = s.authorities
  | .action (.ok answer) => s'.events = s.events ∧ ∀ record, answer.dispatched = some record →
      s.authorities.IsOpen record.coordinate.runKey
  | .action (.error _) => s'.events = s.events
  | .closed request (.ok closure) => host.store.Accepts request ∧
      ((s'.authorities = s.authorities ∧ s.authorities.lookup request = .ok (some closure)) ∨
        (closure.toCloseRunAuthorityRequest = request ∧
          s'.authorities = s.authorities.commit closure ∧
          (s.Undisturbed call → s.authorities.lookup request = .ok none)))
  | .closed _ (.error _) => s'.events = s.events ∧ s'.actions = s.actions
  | .waits => s'.authorities = s.authorities

/-- The store is valid, and the calls that wait passed its checks. -/
structure State.Sound (s : host.State) : Prop where
  valid : host.store.Valid s.events
  accepted : ∀ pending ∈ s.closing, host.store.Accepts pending.request

theorem sound_empty : host.empty.Sound := ⟨host.store.valid_empty, nofun⟩

theorem State.Sound.without {s : host.State} (h : s.Sound) (index : Nat) :
    (s.without index).Sound :=
  ⟨h.valid, fun pending hmem => h.accepted pending (List.mem_of_mem_eraseIdx hmem)⟩

/-- A call of the store succeeds as its authorities allow, or changes nothing. -/
theorem store_answer {s : host.State} (h : s.Sound) (call : EventCall) :
    host.store.Valid (host.store.answer s.events call).2 ∧
      (∀ answer, (host.store.answer s.events call).1 = .ok answer →
        answer.Authorities s.authorities
          (host.store.authorities (host.store.answer s.events call).2) call) ∧
      ∀ e, (host.store.answer s.events call).1 = .error e →
        (host.store.answer s.events call).2 = s.events := by
  obtain ⟨hok, herror⟩ := (host.store.allowed call s.events h.valid).respond
  unfold CanonicalEventStore.answer
  refine ⟨?_, fun answer hanswer => (hok answer hanswer).2, herror⟩
  cases hcase : (respond (host.store.call call) s.events).1 with
  | ok answer => exact (hok answer hcase).1
  | error e =>
    rw [herror e hcase]
    exact h.valid

theorem step_append {s : host.State} (h : s.Sound) (stream : StreamKey) (expectedRevision : String)
    (coordinate : RunCoordinate) (data : CanonicalEventData) (appendHost : AppendHost) :
    let call := HostCall.append stream expectedRevision coordinate data appendHost
    (answer s call).2.Sound ∧ Step s call (answer s call).2 (answer s call).1 := by
  have hstore := store_answer h (.append stream expectedRevision coordinate data appendHost)
  dsimp only [answer]
  generalize host.store.answer s.events
    (.append stream expectedRevision coordinate data appendHost) = reached at hstore ⊢
  obtain ⟨reached, events⟩ := reached
  obtain ⟨hvalid, hok, herror⟩ := hstore
  refine ⟨⟨hvalid, h.accepted⟩, ?_⟩
  cases reached with
  | error e => exact congrArg host.store.authorities (herror e rfl)
  | ok reached =>
    have hallowed := hok reached rfl
    cases reached with
    | appended event => exact hallowed
    | purged result => exact hallowed.elim
    | progress reached => exact hallowed.elim

theorem step_purgeTerminalRuns {s : host.State} (h : s.Sound) (stream : StreamKey)
    (request : TerminalEventPurgeRequest) :
    let call := HostCall.purgeTerminalRuns stream request
    (answer s call).2.Sound ∧ Step s call (answer s call).2 (answer s call).1 := by
  have hstore := store_answer h (.purgeTerminalRuns stream request)
  dsimp only [answer]
  generalize host.store.answer s.events (.purgeTerminalRuns stream request) = reached at hstore ⊢
  obtain ⟨reached, events⟩ := reached
  obtain ⟨hvalid, hok, herror⟩ := hstore
  refine ⟨⟨hvalid, h.accepted⟩, ?_⟩
  cases reached with
  | error e => exact congrArg host.store.authorities (herror e rfl)
  | ok reached =>
    have hallowed := hok reached rfl
    cases reached with
    | appended event => exact hallowed.elim
    | purged result => exact hallowed
    | progress reached => exact hallowed.elim

theorem step_action {s : host.State} (h : s.Sound) (operation : ActionOperation) :
    let call := HostCall.action operation
    (answer s call).2.Sound ∧ Step s call (answer s call).2 (answer s call).1 := by
  have hjournal := (host.dispatches s.events operation s.actions).respond.1
  dsimp only [answer]
  refine ⟨⟨h.valid, h.accepted⟩, ?_⟩
  unfold ActionJournal.answer
  generalize respond _ s.actions = reached at hjournal ⊢
  obtain ⟨reached, actions⟩ := reached
  cases reached with
  | error e => exact rfl
  | ok reached => exact ⟨rfl, hjournal reached rfl⟩

/-- A part of `closeAuthority` that may end the call: `base` is the state in which the call
no longer waits. -/
theorem step_settle {s base : host.State} (h : base.Sound) (hevents : base.events = s.events)
    (hactions : base.actions = s.actions) {call : HostCall} {part : EventCall}
    {request : CloseRunAuthorityRequest} (haccepts : host.store.Accepts request)
    (closedAt : Option String)
    (hpart : ∀ a' reached, EventAnswer.Authorities s.authorities a' part reached →
      (∃ closure, reached = .progress (.answered closure) ∧
        ((a' = s.authorities ∧ s.authorities.lookup request = .ok (some closure)) ∨
          (closure.toCloseRunAuthorityRequest = request ∧ a' = s.authorities.commit closure ∧
            (s.Undisturbed call → s.authorities.lookup request = .ok none)))) ∨
      a' = s.authorities ∧
        (reached = .progress .asksClock ∨ reached = .progress .retiresGoals)) :
    (settle base request closedAt (host.store.answer s.events part)).2.Sound ∧
      Step s call (settle base request closedAt (host.store.answer s.events part)).2
        (settle base request closedAt (host.store.answer s.events part)).1 := by
  have hstore := store_answer h part
  rw [hevents] at hstore
  have hauthorities : base.authorities = s.authorities := congrArg host.store.authorities hevents
  rw [hauthorities] at hstore
  generalize host.store.answer s.events part = outcome at hstore ⊢
  obtain ⟨reached, events⟩ := outcome
  obtain ⟨hvalid, hok, herror⟩ := hstore
  cases reached with
  | error e => exact ⟨⟨hvalid, h.accepted⟩, herror e rfl, hactions⟩
  | ok reached =>
    have hsound : ∀ pending ∈ base.closing ++ [⟨request, closedAt⟩],
        host.store.Accepts pending.request := by
      intro pending hmem
      rcases List.mem_append.1 hmem with hmem | hmem
      · exact h.accepted pending hmem
      · rw [List.mem_singleton.1 hmem]
        exact haccepts
    rcases hpart _ reached (hok reached rfl) with ⟨closure, rfl, hclosure⟩ | ⟨hsame, rfl | rfl⟩
    · exact ⟨⟨hvalid, h.accepted⟩, haccepts, hclosure⟩
    · exact ⟨⟨hvalid, hsound⟩, hsame⟩
    · exact ⟨⟨hvalid, hsound⟩, hsame⟩

theorem step_close {s : host.State} (h : s.Sound) (request : CloseRunAuthorityRequest) :
    let call := HostCall.close request
    (answer s call).2.Sound ∧ Step s call (answer s call).2 (answer s call).1 := by
  obtain ⟨hok, -⟩ := (host.store.accepted request s.events).respond
  cases hcase : (respond (host.store.call (.beginClose request)) s.events).1 with
  | error e =>
    -- A request that does not pass the checks ends the call.
    have hstore := store_answer h (.beginClose request)
    unfold CanonicalEventStore.answer at hstore
    dsimp only [answer, CanonicalEventStore.answer]
    generalize respond (host.store.call (.beginClose request)) s.events = reached at hcase hstore ⊢
    obtain ⟨reached, events⟩ := reached
    cases hcase
    exact ⟨⟨hstore.1, h.accepted⟩, hstore.2.2 e rfl, rfl⟩
  | ok reached =>
    refine step_settle h rfl rfl (hok reached hcase).2 none fun a' reached hreached => ?_
    cases reached with
    | appended event => exact hreached.elim
    | purged result => exact hreached.elim
    | progress progress =>
      obtain ⟨hsame, ⟨closure, rfl, hclosure⟩ | ⟨rfl, -⟩⟩ := hreached
      · exact Or.inl ⟨closure, rfl, Or.inl ⟨hsame, hclosure⟩⟩
      · exact Or.inr ⟨hsame, Or.inl rfl⟩

theorem step_clock {s : host.State} (h : s.Sound) (index : Nat) (clock : Except EventError String) :
    let call := HostCall.clock index clock
    (answer s call).2.Sound ∧ Step s call (answer s call).2 (answer s call).1 := by
  dsimp only [answer]
  split
  · rename_i request hpending
    have haccepts : host.store.Accepts request := h.accepted _ (List.mem_of_getElem? hpending)
    refine step_settle (s := s) (h.without index) rfl rfl haccepts _ fun a' reached hreached => ?_
    cases reached with
    | appended event => exact hreached.elim
    | purged result => exact hreached.elim
    | progress progress =>
      rcases hreached with ⟨hsame, closure, rfl, hclosure⟩ | ⟨hnone, hend⟩
      · exact Or.inl ⟨closure, rfl, Or.inl ⟨hsame, hclosure⟩⟩
      · rcases hend with ⟨closure, hclosure, rfl, hcommit⟩ | ⟨rfl, hsame⟩
        · exact Or.inl ⟨closure, rfl, Or.inr ⟨hclosure, hcommit, fun _ => hnone⟩⟩
        · exact Or.inr ⟨hsame, Or.inr rfl⟩
  · exact ⟨h, rfl⟩

theorem step_goalsRetired {s : host.State} (h : s.Sound) (index : Nat)
    (retired : Except EventError Unit) :
    let call := HostCall.goalsRetired index retired
    (answer s call).2.Sound ∧ Step s call (answer s call).2 (answer s call).1 := by
  dsimp only [answer]
  split
  · rename_i request closedAt hpending
    have haccepts : host.store.Accepts request := h.accepted _ (List.mem_of_getElem? hpending)
    refine step_settle (s := s) (h.without index) rfl rfl haccepts _ fun a' reached hreached => ?_
    cases reached with
    | appended event => exact hreached.elim
    | purged result => exact hreached.elim
    | progress progress =>
      obtain ⟨closure, hclosure, rfl, hcommit⟩ := hreached
      refine Or.inl ⟨closure, rfl, Or.inr ⟨hclosure, hcommit, fun hundisturbed => ?_⟩⟩
      exact hundisturbed request closedAt hpending
  · exact ⟨h.without index, rfl, rfl⟩
  · exact ⟨h, rfl⟩

/-- What one step of the host does. -/
theorem answer_step {s : host.State} (h : s.Sound) (call : HostCall) :
    (answer s call).2.Sound ∧ Step s call (answer s call).2 (answer s call).1 := by
  cases call with
  | append stream expectedRevision coordinate data appendHost =>
    exact step_append h stream expectedRevision coordinate data appendHost
  | purgeTerminalRuns stream request => exact step_purgeTerminalRuns h stream request
  | action operation => exact step_action h operation
  | close request => exact step_close h request
  | clock index clock => exact step_clock h index clock
  | goalsRetired index retired => exact step_goalsRetired h index retired

/-! ## Runs -/

variable (host)

theorem sound_run (calls : List HostCall) : (host.run calls).Sound :=
  history_invariant State.Sound (fun _ call _ h => (answer_step h call).1) sound_empty

theorem run_step (calls : List HostCall) (call : HostCall) :
    Step (host.run calls) call (host.run (calls ++ [call])) (host.outcome calls call) := by
  rw [run_concat]
  exact (answer_step (host.sound_run calls) call).2

/-- A call of `closeAuthority` answered a request with a closure. -/
def Closed (calls : List HostCall) (request : CloseRunAuthorityRequest)
    (closure : RunAuthorityClosure) : Prop :=
  ∃ before call after, calls = before ++ call :: after ∧
    host.outcome before call = .closed request (.ok closure)

/-- The `run.queued` that was appended for a run carries an authority. -/
def Admitted (calls : List HostCall) (run : RunKey) (key : RunAuthorityKey) : Prop :=
  ∃ before call after event inputId inputFingerprint authority, calls = before ++ call :: after ∧
    host.outcome before call = .event (.ok (.appended event)) ∧ event.coordinate.runKey = run ∧
    event.data = .runQueued inputId inputFingerprint (some authority) ∧ run.under authority = key

variable {host}

theorem Step.later {s s' : host.State} {call : HostCall} {outcome : HostOutcome}
    (h : Step s call s' outcome) : RunAuthorities.Later s.authorities s'.authorities := by
  have hsame : ∀ {a' : RunAuthorities}, a' = s.authorities →
      RunAuthorities.Later s.authorities a' := fun h => h ▸ .refl _
  cases outcome with
  | event answer =>
    cases answer with
    | error e => exact hsame h
    | ok answer =>
      cases answer with
      | appended event => exact RunAuthorities.Admits.later h
      | purged result => exact hsame h
      | progress progress => exact hsame h
  | action answer =>
    cases answer with
    | error e => exact hsame (congrArg host.store.authorities h)
    | ok answer => exact hsame (congrArg host.store.authorities h.1)
  | closed request answer =>
    cases answer with
    | error e => exact hsame (congrArg host.store.authorities h.1)
    | ok closure =>
      obtain ⟨-, ⟨hfound, -⟩ | ⟨-, hcommit, -⟩⟩ := h
      · exact hsame hfound
      · rw [hcommit]
        exact RunAuthorities.later_commit _ closure
  | waits => exact hsame h

variable (host)

/-- Admissions stay, and what is closed stays closed, over any calls. -/
theorem later_run (calls more : List HostCall) :
    RunAuthorities.Later (host.run calls).authorities (host.run (calls ++ more)).authorities := by
  induction more using List.reverseRecOn with
  | nil =>
    rw [List.append_nil]
    exact .refl _
  | append_singleton more call ih =>
    rw [← List.append_assoc]
    exact ih.trans (host.run_step (calls ++ more) call).later

theorem later_step {calls before after : List HostCall} {call : HostCall}
    (h : calls = before ++ call :: after) :
    RunAuthorities.Later (host.run (before ++ [call])).authorities
      (host.run calls).authorities := by
  rw [h, List.append_cons before call after]
  exact host.later_run (before ++ [call]) after

/-- What was closed is closed. -/
theorem Closed.isSome {calls : List HostCall} {request : CloseRunAuthorityRequest}
    {closure : RunAuthorityClosure} (h : host.Closed calls request closure) :
    ((host.run calls).authorities.closure request.key).isSome := by
  obtain ⟨before, call, after, hcalls, houtcome⟩ := h
  refine (host.later_step hcalls).closed request.key ?_
  have hstep := host.run_step before call
  rw [houtcome] at hstep
  obtain ⟨-, ⟨hsame, hfound⟩ | ⟨hrequest, hcommit, -⟩⟩ := hstep
  · rw [hsame, (RunAuthorities.lookup_eq_some hfound).1]
    rfl
  · rw [hcommit, ← hrequest]
    simp [RunAuthorities.commit]

/-- What was admitted is admitted. -/
theorem Admitted.admission {calls : List HostCall} {run : RunKey} {key : RunAuthorityKey}
    (h : host.Admitted calls run key) : ∃ authority,
      (host.run calls).authorities.admission run = some authority ∧ run.under authority = key := by
  obtain ⟨before, call, after, event, inputId, inputFingerprint, authority, hcalls, houtcome, hrun,
    hdata, hkey⟩ := h
  refine ⟨authority, (host.later_step hcalls).admitted run authority ?_, hkey⟩
  have hstep := host.run_step before call
  rw [houtcome] at hstep
  change RunAuthorities.Admits _ _ _ _ at hstep
  rw [hdata, hrun] at hstep
  obtain ⟨-, -, hrecorded⟩ := hstep
  rw [hrecorded]
  simp [RunAuthorities.withAdmission]

/-- A run admitted under a closed authority is not open. -/
theorem not_isOpen {calls : List HostCall} {request : CloseRunAuthorityRequest}
    {closure : RunAuthorityClosure} {run : RunKey} (hclosed : host.Closed calls request closure)
    (hadmitted : host.Admitted calls run request.key) :
    ¬ (host.run calls).authorities.IsOpen run := by
  intro hopen
  obtain ⟨authority, hadmission, hkey⟩ := Admitted.admission host hadmitted
  have hnone := hopen authority hadmission
  have hsome := Closed.isSome host hclosed
  rw [← hkey, hnone] at hsome
  cases hsome

/-! ## What a closed authority fences -/

/-- What cannot happen to the runs of a closed authority. -/
structure Fences (calls : List HostCall) (call : HostCall) (key : RunAuthorityKey) : Prop where
  /-- No run is admitted under it. -/
  queued : ∀ event inputId inputFingerprint authority,
    host.outcome calls call = .event (.ok (.appended event)) →
    event.data = .runQueued inputId inputFingerprint (some authority) →
    event.coordinate.runKey.under authority ≠ key
  /-- No run admitted under it is started or resumed. -/
  started : ∀ event id, host.outcome calls call = .event (.ok (.appended event)) →
    event.data = .runStarted id ∨ event.data = .runResumed id →
    ¬ host.Admitted calls event.coordinate.runKey key
  /-- No action of such a run is dispatched. -/
  dispatched : ∀ answer record, host.outcome calls call = .action (.ok answer) →
    answer.dispatched = some record → ¬ host.Admitted calls record.coordinate.runKey key

theorem fences_run {calls : List HostCall} {request : CloseRunAuthorityRequest}
    {closure : RunAuthorityClosure} (hclosed : host.Closed calls request closure)
    (call : HostCall) : host.Fences calls call request.key := by
  have hstep := host.run_step calls call
  constructor
  case queued =>
    intro event inputId inputFingerprint authority houtcome hdata hkey
    rw [houtcome] at hstep
    change RunAuthorities.Admits _ _ _ _ at hstep
    rw [hdata] at hstep
    have hsome := Closed.isSome host hclosed
    rw [← hkey, hstep.1] at hsome
    cases hsome
  case started =>
    intro event id houtcome hdata hadmitted
    rw [houtcome] at hstep
    change RunAuthorities.Admits _ _ _ _ at hstep
    refine host.not_isOpen hclosed hadmitted ?_
    rcases hdata with hdata | hdata
    · rw [hdata] at hstep
      exact hstep.1
    · rw [hdata] at hstep
      exact hstep.1
  case dispatched =>
    intro answer record houtcome hrecord hadmitted
    rw [houtcome] at hstep
    exact host.not_isOpen hclosed hadmitted (hstep.2 record hrecord)

/-! ## What repeated and conflicting requests find -/

/-- No close of a run commits for the key or the operation of a close that retires Goals. -/
def Undisturbed (calls : List HostCall) : Prop :=
  ∀ before call after, calls = before ++ call :: after → (host.run before).Undisturbed call

theorem Undisturbed.of_append {calls more : List HostCall} (h : host.Undisturbed (calls ++ more)) :
    host.Undisturbed calls := by
  intro before call after hcalls
  refine h before call (after ++ more) ?_
  rw [hcalls, List.append_assoc, List.cons_append]

theorem Undisturbed.last {calls : List HostCall} {call : HostCall}
    (h : host.Undisturbed (calls ++ [call])) : (host.run calls).Undisturbed call :=
  h calls call [] rfl

variable {host}

theorem Step.keeps {s s' : host.State} {call : HostCall} {outcome : HostOutcome}
    (h : Step s call s' outcome) (hundisturbed : s.Undisturbed call)
    (hconsistent : s.authorities.Consistent) :
    s'.authorities.Consistent ∧ RunAuthorities.Keeps s.authorities s'.authorities := by
  have hsame : ∀ {a' : RunAuthorities}, a'.closure = s.authorities.closure ∧
      a'.operation = s.authorities.operation →
      a'.Consistent ∧ RunAuthorities.Keeps s.authorities a' := by
    rintro a' ⟨hclosure, hoperation⟩
    unfold RunAuthorities.Consistent RunAuthorities.Keeps
    rw [hclosure, hoperation]
    exact ⟨hconsistent, fun _ _ h => h⟩
  have hequal : ∀ {a' : RunAuthorities}, a' = s.authorities →
      a'.Consistent ∧ RunAuthorities.Keeps s.authorities a' := fun h => hsame (h ▸ ⟨rfl, rfl⟩)
  cases outcome with
  | event answer =>
    cases answer with
    | error e => exact hequal h
    | ok answer =>
      cases answer with
      | appended event => exact hsame (RunAuthorities.Admits.closures h)
      | purged result => exact hequal h
      | progress progress => exact hequal h
  | action answer =>
    cases answer with
    | error e => exact hequal (congrArg host.store.authorities h)
    | ok answer => exact hequal (congrArg host.store.authorities h.1)
  | closed request answer =>
    cases answer with
    | error e => exact hequal (congrArg host.store.authorities h.1)
    | ok closure =>
      obtain ⟨-, ⟨hfound, -⟩ | ⟨hrequest, hcommit, hfree⟩⟩ := h
      · exact hequal hfound
      · have hfree := hfree hundisturbed
        rw [← hrequest] at hfree
        rw [hcommit]
        exact ⟨hconsistent.commit hfree, RunAuthorities.keeps_commit hfree⟩
  | waits => exact hequal h

variable (host)

theorem consistent_run {calls : List HostCall} (h : host.Undisturbed calls) :
    (host.run calls).authorities.Consistent := by
  induction calls using List.reverseRecOn with
  | nil =>
    show (host.store.authorities host.store.empty).Consistent
    rw [host.store.authorities_empty]
    exact RunAuthorities.consistent_empty
  | append_singleton calls call ih =>
    have hconsistent := ih (Undisturbed.of_append host h)
    exact ((host.run_step calls call).keeps (Undisturbed.last host h) hconsistent).1

/-- In an undisturbed run a closure never changes. -/
theorem keeps_run {calls more : List HostCall} (h : host.Undisturbed (calls ++ more)) :
    RunAuthorities.Keeps (host.run calls).authorities (host.run (calls ++ more)).authorities := by
  induction more using List.reverseRecOn with
  | nil =>
    rw [List.append_nil]
    exact fun _ _ h => h
  | append_singleton more call ih =>
    rw [← List.append_assoc] at h ⊢
    have hbefore := Undisturbed.of_append host h
    have hstep := (host.run_step (calls ++ more) call).keeps (Undisturbed.last host h)
      (host.consistent_run hbefore)
    exact fun key closure hclosure => hstep.2 key closure (ih hbefore key closure hclosure)

/-- A closure that was answered stands in the store, and made for its request. -/
theorem Closed.closure {calls : List HostCall} {request : CloseRunAuthorityRequest}
    {closure : RunAuthorityClosure} (hundisturbed : host.Undisturbed calls)
    (h : host.Closed calls request closure) :
    (host.run calls).authorities.closure request.key = some closure ∧
      closure.toCloseRunAuthorityRequest = request ∧ host.store.Accepts request := by
  obtain ⟨before, call, after, hcalls, houtcome⟩ := h
  rw [hcalls, List.append_cons before call after] at hundisturbed ⊢
  have hkeeps := host.keeps_run hundisturbed
  have hstep := host.run_step before call
  rw [houtcome] at hstep
  obtain ⟨haccepts, ⟨hsame, hfound⟩ | ⟨hrequest, hcommit, -⟩⟩ := hstep
  · obtain ⟨hclosure, hrequest⟩ := RunAuthorities.lookup_eq_some hfound
    refine ⟨hkeeps request.key closure ?_, hrequest, haccepts⟩
    rw [hsame]
    exact hclosure
  · refine ⟨hkeeps request.key closure ?_, hrequest, haccepts⟩
    rw [hcommit, ← hrequest]
    simp [RunAuthorities.commit]

/-- What later calls find of a closure. -/
structure KeepsClosure (calls : List HostCall) (call : HostCall)
    (request : CloseRunAuthorityRequest) (closure : RunAuthorityClosure) : Prop where
  /-- The same request answers the same closure. -/
  repeated : call = .close request →
    answer (host.run calls) call = (.closed request (.ok closure), host.run calls)
  same : ∀ other, host.outcome calls call = .closed request (.ok other) → other = closure
  /-- A different request for the key or the operation fails, and changes nothing. -/
  conflicting : ∀ other, other ≠ request →
    other.key = request.key ∨ other.operationId = request.operationId → call = .close other →
    ∃ e, host.outcome calls call = .closed other (.error e)
  unchanged : ∀ other result, other ≠ request →
    other.key = request.key ∨ other.operationId = request.operationId →
    host.outcome calls call = .closed other result →
    (∃ e, result = .error e) ∧ (host.run (calls ++ [call])).events = (host.run calls).events ∧
      (host.run (calls ++ [call])).actions = (host.run calls).actions

theorem keepsClosure_run {calls : List HostCall} {call : HostCall}
    {request : CloseRunAuthorityRequest} {closure : RunAuthorityClosure}
    (hundisturbed : host.Undisturbed (calls ++ [call]))
    (hclosed : host.Closed calls request closure) :
    host.KeepsClosure calls call request closure := by
  have hbefore := Undisturbed.of_append host hundisturbed
  have hconsistent := host.consistent_run hbefore
  obtain ⟨hclosure, rfl, haccepts⟩ := Closed.closure host hbefore hclosed
  have hfound := hconsistent.lookup_self hclosure
  have hconflict : ∀ other, other ≠ closure.toCloseRunAuthorityRequest →
      other.key = closure.toCloseRunAuthorityRequest.key ∨
        other.operationId = closure.operationId →
      (host.run calls).authorities.lookup other = .error .runAuthorityConflict :=
    fun _ hne hshared => hconsistent.lookup_other hclosure hne hshared
  have hstep := host.run_step calls call
  have hvalid := (host.sound_run calls).valid
  constructor
  case repeated =>
    rintro rfl
    have hanswer := host.store.repeated _ _ closure hvalid haccepts hfound
    show settle (host.run calls) closure.toCloseRunAuthorityRequest none (respond _ _) = _
    rw [hanswer]
    rfl
  case same =>
    intro other houtcome
    rw [houtcome] at hstep
    obtain ⟨-, ⟨-, hother⟩ | ⟨-, -, hnone⟩⟩ := hstep
    · rw [hfound] at hother
      cases hother
      rfl
    · have hnone := hnone (Undisturbed.last host hundisturbed)
      rw [hfound] at hnone
      cases hnone
  case conflicting =>
    rintro other hne hshared rfl
    have hstore := store_answer (host.sound_run calls) (.beginClose other)
    show ∃ e, (settle (host.run calls) other none
      (host.store.answer (host.run calls).events (.beginClose other))).1 = _
    generalize host.store.answer (host.run calls).events (.beginClose other) = reached at hstore ⊢
    obtain ⟨reached, events⟩ := reached
    cases reached with
    | error e => exact ⟨e, rfl⟩
    | ok reached =>
      have hallowed := hstore.2.1 reached rfl
      cases reached with
      | appended event => exact hallowed.elim
      | purged result => exact hallowed.elim
      | progress progress =>
        have hlookup := hconflict other hne hshared
        obtain ⟨-, ⟨closure', -, hok⟩ | ⟨-, hok⟩⟩ := hallowed
        · rw [hlookup] at hok
          cases hok
        · rw [hlookup] at hok
          cases hok
  case unchanged =>
    intro other result hne hshared houtcome
    have hlookup := hconflict other hne hshared
    rw [houtcome] at hstep
    cases result with
    | error e => exact ⟨⟨e, rfl⟩, hstep⟩
    | ok closure' =>
      obtain ⟨-, ⟨-, hok⟩ | ⟨-, -, hnone⟩⟩ := hstep
      · rw [hlookup] at hok
        cases hok
      · have hnone := hnone (Undisturbed.last host hundisturbed)
        rw [hlookup] at hnone
        cases hnone

end RunAuthorityHost

end OpenGameAgent
