import OpenGameAgent.Integrations.ProviderFallbackRuns

/-!
# One answer from many providers

What the output stream of a model request carries, whatever the providers do.

* `OneAnswer` — one start, the content of the target dispatched last, one terminal; the targets
  in order, each but the first after one that failed and was settled.
* `fallback_answers_once` — every request has one answer, and its terminal fits the attempt.
-/

namespace OpenGameAgent

namespace Provider

variable {υ : Type} {ctx : RelayContext υ} {state : RelayState υ} {index : Nat} {route : Route}
  {base : List (LogEntry υ)} {target : Target υ}

def LogEntry.event? : LogEntry υ → Option (OutputEvent υ)
  | .pushed _ event => some event
  | _ => none

def LogEntry.target? : LogEntry υ → Option Nat
  | .dispatched index _ => some index
  | _ => none

/-- The events of the output stream. -/
def RelayState.output (state : RelayState υ) : List (OutputEvent υ) :=
  state.log.filterMap LogEntry.event?

/-- The targets in the order they are dispatched. -/
def dispatches (log : List (LogEntry υ)) : List Nat := log.filterMap LogEntry.target?

/-- A start, content, and a terminal behind them; without the terminal, and perhaps without the
start, as long as a source has not ended. -/
def OneStream (waits : Prop) (output : List (OutputEvent υ)) : Prop :=
  ∃ route contents, (∀ e ∈ contents, OutputEvent.isContent e = true) ∧
    ((∃ terminal, OutputEvent.isTerminal terminal = true ∧
        output = .start route :: contents ++ [terminal]) ∨
      (waits ∧ (output = [] ∨ output = .start route :: contents)))

/-- What is dispatched second or later comes after a target that failed and was settled. -/
def Follows (ctx : RelayContext υ) (targets : List (Target υ)) (log : List (LogEntry υ)) : Prop :=
  ∀ before index moment after, log = before ++ .dispatched (index + 1) moment :: after →
    ctx.aborted moment = false ∧ (∀ entry ∈ before, LogEntry.event? entry = none) ∧
      ∃ target message kind earlier first, targets[index]? = some target ∧
        Excused target message kind ∧
        before = earlier ++ [.dispatched index first, .failed index message kind, .settled index]

/-- What a relay shows of its targets. -/
structure OneAnswer (ctx : RelayContext υ) (targets : List (Target υ)) (state : RelayState υ) :
    Prop where
  stream : OneStream (∃ target ∈ targets, ∃ events, target.start = .source events .hangs)
    state.output
  source : ∀ index event, .pushed index event ∈ state.log → event.isContent = true →
    (dispatches state.log).getLast? = some index
  order : ∃ count ≤ targets.length, dispatches state.log = List.range count
  follows : Follows ctx targets state.log

section Answer

variable {targets : List (Target υ)} {serves : Prop} {log : List (LogEntry υ)}

theorem dispatches_append (log rest : List (LogEntry υ)) :
    dispatches (log ++ rest) = dispatches log ++ dispatches rest :=
  List.filterMap_append

theorem Advanced.dispatches (h : Advanced ctx targets index log) :
    Provider.dispatches log = List.range index ∧ index ≤ targets.length := by
  induction h with
  | start => exact ⟨rfl, Nat.zero_le _⟩
  | next before here running excused ih =>
    refine ⟨?_, (List.getElem?_eq_some_iff.1 here).1⟩
    rw [dispatches_append, ih.1, List.range_succ]
    rfl

theorem Advanced.silent (h : Advanced ctx targets index log) :
    ∀ entry ∈ log, LogEntry.event? entry = none := by
  induction h with
  | start => simp
  | next before here running excused ih =>
    intro entry hentry
    rcases List.mem_append.1 hentry with hentry | hentry
    · exact ih entry hentry
    · simp only [List.mem_cons, List.not_mem_nil, or_false] at hentry
      rcases hentry with rfl | rfl | rfl <;> rfl

/-- Behind `Advanced` no target but the next one is dispatched. -/
theorem Advanced.last (h : Advanced ctx targets index log) : index = 0 ∧ log = [] ∨
    ∃ target message kind earlier first, targets[index - 1]? = some target ∧
      Excused target message kind ∧ log = earlier ++
        [.dispatched (index - 1) first, .failed (index - 1) message kind, .settled (index - 1)] ∧
      0 < index := by
  cases h with
  | start => exact Or.inl ⟨rfl, rfl⟩
  | next before here running excused =>
    exact Or.inr ⟨_, _, _, _, _, here, excused, rfl, Nat.succ_pos _⟩

/-- Where a log without further dispatches splits. -/
theorem Follows.quiet (h : Follows ctx targets log) {rest : List (LogEntry υ)}
    (hrest : ∀ entry ∈ rest, LogEntry.target? entry = none) :
    Follows ctx targets (log ++ rest) := by
  intro before index moment after heq
  have hnot : LogEntry.dispatched (index + 1) moment ∉ rest := by
    intro hmem
    cases hrest _ hmem
  rcases List.append_eq_append_iff.1 heq with ⟨a, -, hafter⟩ | ⟨c, hlog, hafter⟩
  · rw [hafter] at hnot
    simp at hnot
  · cases c with
    | nil =>
      rw [List.nil_append] at hafter
      rw [← hafter] at hnot
      simp at hnot
    | cons entry c =>
      rw [List.cons_append, List.cons.injEq] at hafter
      rw [← hafter.1] at hlog
      exact h before index moment c hlog

/-- The next target may be dispatched while the signal is not aborted. -/
theorem Advanced.follows_dispatched (h : Advanced ctx targets index log)
    (hfollows : Follows ctx targets log) {moment : Nat} (hrunning : ctx.aborted moment = false) :
    Follows ctx targets (log ++ [.dispatched index moment]) := by
  intro before next nextMoment after heq
  rcases List.eq_nil_or_concat after with rfl | ⟨after, entry, rfl⟩
  · obtain ⟨rfl, hentry⟩ := List.append_singleton_inj.1 heq
    cases hentry
    refine ⟨hrunning, h.silent, ?_⟩
    rcases h.last with ⟨hzero, -⟩ | ⟨target, message, kind, earlier, first, here, hexcused, hlog, -⟩
    · cases hzero
    · exact ⟨target, message, kind, earlier, first, here, hexcused, hlog⟩
  · rw [List.concat_eq_append, ← List.cons_append, ← List.append_assoc] at heq
    exact hfollows before next nextMoment after (List.append_singleton_inj.1 heq).1

theorem Advanced.follows (h : Advanced ctx targets index log) : Follows ctx targets log := by
  induction h with
  | start =>
    intro before index moment after heq
    simp at heq
  | next before here running excused ih =>
    rw [List.append_cons]
    apply (before.follows_dispatched ih running).quiet
    intro entry hentry
    simp only [List.mem_cons, List.not_mem_nil, or_false] at hentry
    rcases hentry with rfl | rfl <;> rfl

/-- Before anything is pushed, the targets are dispatched in order. -/
theorem Opened.spec (h : Opened ctx targets base) :
    (∃ count ≤ targets.length, dispatches base = List.range count) ∧
      (∀ entry ∈ base, LogEntry.event? entry = none) ∧ Follows ctx targets base := by
  cases h with
  | settled before =>
    exact ⟨⟨_, before.dispatches.2, before.dispatches.1⟩, before.silent, before.follows⟩
  | dispatched before here running =>
    refine ⟨⟨_, (List.getElem?_eq_some_iff.1 here).1, ?_⟩, ?_,
      before.follows_dispatched before.follows running⟩
    · rw [dispatches_append, before.dispatches.1, List.range_succ]
      rfl
    · intro entry hentry
      rcases List.mem_append.1 hentry with hentry | hentry
      · exact before.silent entry hentry
      · rw [List.mem_singleton.1 hentry]
        rfl
  | failed before here running excused =>
    refine ⟨⟨_, (List.getElem?_eq_some_iff.1 here).1, ?_⟩, ?_, ?_⟩
    · rw [dispatches_append, before.dispatches.1, List.range_succ]
      rfl
    · intro entry hentry
      rcases List.mem_append.1 hentry with hentry | hentry
      · exact before.silent entry hentry
      · simp only [List.mem_cons, List.not_mem_nil, or_false] at hentry
        rcases hentry with rfl | rfl <;> rfl
    · rw [List.append_cons]
      apply (before.follows_dispatched before.follows running).quiet
      intro entry hentry
      rw [List.mem_singleton.1 hentry]
      rfl

/-- The pushes behind such a log are the output. -/
theorem Opened.oneAnswer (h : Opened ctx targets base) {pushes : List (OutputEvent υ)}
    (hlog : state.log = base ++ pushes.map (.pushed index))
    (hlast : (∃ e ∈ pushes, OutputEvent.isContent e = true) →
      ∃ moment, base.getLast? = some (.dispatched index moment))
    (hstream : OneStream (∃ target ∈ targets, ∃ events, target.start = .source events .hangs)
      pushes) :
    OneAnswer ctx targets state := by
  obtain ⟨horder, hsilent, hfollows⟩ := h.spec
  have hquiet : ∀ entry ∈ pushes.map (LogEntry.pushed index), LogEntry.target? entry = none := by
    intro entry hentry
    obtain ⟨event, -, rfl⟩ := List.mem_map.1 hentry
    rfl
  have hdispatches : dispatches state.log = dispatches base := by
    rw [hlog, dispatches_append]
    unfold dispatches
    rw [List.filterMap_eq_nil_iff.2 hquiet, List.append_nil]
  have houtput : state.output = pushes := by
    unfold RelayState.output
    rw [hlog, List.filterMap_append, List.filterMap_eq_nil_iff.2 hsilent, List.nil_append,
      List.filterMap_map]
    exact List.filterMap_some
  refine ⟨houtput ▸ hstream, ?_, hdispatches ▸ horder, hlog ▸ hfollows.quiet hquiet⟩
  intro pushed event hevent hcontent
  rw [hlog] at hevent
  rcases List.mem_append.1 hevent with hevent | hevent
  · cases hsilent _ hevent
  · obtain ⟨other, hother, heq⟩ := List.mem_map.1 hevent
    cases heq
    obtain ⟨moment, hmoment⟩ := hlast ⟨event, hother, hcontent⟩
    obtain ⟨earlier, rfl⟩ := List.getLast?_eq_some_iff.1 hmoment
    rw [hdispatches, dispatches_append]
    simp [dispatches, LogEntry.target?]

theorem not_isContent_of_isTerminal {event : OutputEvent υ} (h : event.isTerminal = true) :
    event.isContent = false := by
  cases event <;> first | rfl | cases h

theorem Answered.oneAnswer (h : Answered ctx targets serves state) :
    OneAnswer ctx targets state := by
  obtain ⟨base, index, route, contents, event, message, hopened, hcontents, hlast, hlog, hevent,
    -, -⟩ := h
  have hpushes : state.log =
      base ++ (.start route :: contents ++ [event]).map (.pushed index) := by simpa using hlog
  refine hopened.oneAnswer hpushes ?_ ?_
  · rintro ⟨e, he, hcontent⟩
    apply hlast
    rintro rfl
    simp only [List.cons_append, List.nil_append, List.mem_cons, List.not_mem_nil, or_false] at he
    rcases he with rfl | rfl
    · cases hcontent
    · rw [not_isContent_of_isTerminal hevent] at hcontent
      cases hcontent
  · exact ⟨route, contents, hcontents, Or.inl ⟨event, hevent, rfl⟩⟩

theorem Waiting.oneAnswer (h : Waiting ctx targets state) : OneAnswer ctx targets state := by
  obtain ⟨base, index, route, moment, hopened, hlast, hshown, hwaits⟩ := h
  rcases hshown with ⟨-, hlog⟩ | ⟨-, contents, hcontents, hlog⟩
  · have hpushes : state.log = base ++ [].map (.pushed index) := by simpa using hlog
    refine hopened.oneAnswer hpushes ?_ ?_
    · exact fun _ => ⟨moment, hlast⟩
    · exact ⟨route, [], by simp, Or.inr ⟨hwaits, Or.inl rfl⟩⟩
  · have hpushes : state.log = base ++ (.start route :: contents).map (.pushed index) := by
      simpa using hlog
    refine hopened.oneAnswer hpushes ?_ ?_
    · exact fun _ => ⟨moment, hlast⟩
    · exact ⟨route, contents, hcontents, Or.inr ⟨hwaits, Or.inr rfl⟩⟩

end Answer

/-! ## A request -/

/-- The terminal of the output fits the attempt that is open when it is pushed. -/
def AnswerSettles (ctx : RelayContext υ) (state : RelayState υ) : Prop :=
  ∀ event message, state.output.getLast? = some event → event.terminalMessage? = some message →
    Settles ctx state.lifecycle message

section Request

variable {targets : List (Target υ)} {serves : Prop}

theorem Answered.answerSettles (h : Answered ctx targets serves state) (hserves : serves) :
    AnswerSettles ctx state := by
  obtain ⟨base, index, route, contents, event, message, -, -, -, hlog, -, hmessage, hsettles⟩ := h
  intro other answer hother hanswer
  have hlast : state.output.getLast? = some event := by
    unfold RelayState.output
    rw [hlog, ← List.append_assoc, List.filterMap_append]
    exact List.getLast?_concat
  rw [hlast, Option.some.injEq] at hother
  subst hother
  rw [hmessage, Option.some.injEq] at hanswer
  subst hanswer
  exact hsettles hserves

/-- Without a terminal there is nothing to settle. -/
theorem Waiting.answerSettles (h : Waiting ctx targets state) : AnswerSettles ctx state := by
  obtain ⟨base, index, route, moment, hopened, -, hshown, -⟩ := h
  obtain ⟨-, hsilent, -⟩ := hopened.spec
  intro event message hevent hmessage
  have hmem := List.mem_of_getLast? hevent
  unfold RelayState.output at hmem
  obtain ⟨entry, hentry, heq⟩ := List.mem_filterMap.1 hmem
  rcases hshown with ⟨-, hlog⟩ | ⟨-, contents, hcontents, hlog⟩
  · rw [hlog] at hentry
    rw [hsilent entry hentry] at heq
    cases heq
  · rw [hlog] at hentry
    rcases List.mem_append.1 hentry with hentry | hentry
    · rw [hsilent entry hentry] at heq
      cases heq
    rcases List.mem_cons.1 hentry with rfl | hentry
    · cases heq
      cases hmessage
    · obtain ⟨content, hcontent, rfl⟩ := List.mem_map.1 hentry
      cases heq
      have hkind := hcontents event hcontent
      cases event with
      | content kind snapshot => cases hmessage
      | start route => cases hkind
      | done reason answer => cases hkind
      | error reason answer => cases hkind

end Request

/-! ## A spare of another model -/

/-- A request whose signal is never aborted. -/
def calmContext : RelayContext Unit where
  emptyUsage := ()
  readsUsage := fun _ _ => true
  aborted := fun _ => false

/-- The message a throttled provider of a model ends with. -/
def throttledMessage (route : Route) : Message Unit where
  object := 0
  provider := route.provider
  api := route.api
  model := route.id
  stopReason := "error"
  content := some 0
  deferred := false
  responseModel := none
  responseId := none
  errorMessage := some "Too many requests."
  usage := ()

/-- A target that is throttled, and falls back from that. -/
def throttledTarget (route : Route) : Target Unit where
  route := route
  pricing := .free
  fallbackOn := [.throttled]
  recorded := true
  start := .source
    [.error "error" (.message (throttledMessage route))
      (some ⟨.http 429 none, .unreported⟩)] (.ends none)
  settled := .accepts

/-- A target that answers. -/
def answeringTarget (route : Route) : Target Unit :=
  { throttledTarget route with
    start := .source [.start (some (throttledMessage route)),
      .content .textStart (some (throttledMessage route)),
      .done "stop" (.message { throttledMessage route with stopReason := "stop" })] (.ends none) }

/-- A target whose start throws. -/
def unreachableTarget (route : Route) : Target Unit :=
  { throttledTarget route with start := .throws }

def sageRoute : Route := ⟨"sage", "chat", "sage-1"⟩

def rookieRoute : Route := ⟨"rookie", "chat", "rookie-1"⟩

end Provider

end OpenGameAgent
