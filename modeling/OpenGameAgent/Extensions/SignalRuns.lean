import OpenGameAgent.Extensions.SignalWaits

/-!
# Runs of a signal store

What any sequence of requests to a signal store comes to.

* `sound_history` — every reachable store is sound.
* `terminal_history` — a wait that is over stays as it is until it is purged.
* `record_registerWait_agree` — a signal and a wait meet in whichever order they arrive.
* `signal_waits_are_met` — the joint result.
-/

namespace OpenGameAgent

variable {ctx : SignalContext} {maxMatches : Nat} {store next : InMemorySignalStore}

/-! ## Steps -/

theorem sound_signalStep (hsound : store.Sound ctx.limits.maxWaitMatchesPerSignal)
    (request : SignalRequest) :
    (signalStep ctx store request).2.Sound ctx.limits.maxWaitMatchesPerSignal := by
  have hchanges := (signalStep_changes hsound request).respond
  unfold signalStep
  cases hanswer : (respond (request.run ctx) store).1 with
  | ok answer =>
    rcases hchanges.1 answer hanswer with heq | hchange
    · rw [heq]
      exact hsound
    · exact hsound.change hchange
  | error e =>
    rw [hchanges.2 e hanswer]
    exact hsound

/-- A request that fails leaves the store as it is. -/
theorem signalStep_error (hsound : store.Sound ctx.limits.maxWaitMatchesPerSignal)
    {request : SignalRequest} {e : SignalError} (h : (signalStep ctx store request).1 = .error e) :
    (signalStep ctx store request).2 = store :=
  (signalStep_changes hsound request).respond.2 e h

theorem SignalChange.terminal (h : SignalChange maxMatches store next) {key : SignalWaitKey}
    {wait : SignalWaitRecord} (hwait : store.waits.get? key = some wait)
    (hstatus : wait.status ≠ .waiting) :
    next.waits.get? key = some wait ∨ next.waits.get? key = none := by
  cases h with
  | recorded draft timestamp new fanout =>
    have hsee : wait.see (store.nextSignal draft) = wait := by
      rcases wait.see_cases (store.nextSignal draft) with ⟨hwaiting, -, -⟩ | ⟨-, hsee⟩
      · exact absurd hwaiting hstatus
      · exact hsee
    refine Or.inl ?_
    show (store.waits.mapEntries _).get? key = some wait
    rw [OrderedMap.get?_mapEntries, hwait, Option.map_some, hsee]
  | registered draft timestamp new fanout =>
    refine Or.inl ?_
    show (store.waits.set draft.key _).get? key = some wait
    have hne : draft.key ≠ key := by
      rintro rfl
      rw [new] at hwait
      cases hwait
    rw [OrderedMap.get?_set_of_ne _ hne, hwait]
  | closed f closes =>
    refine Or.inl ?_
    rw [OrderedMap.get?_mapEntries, hwait, Option.map_some]
    rcases closes key wait hwait with heq | hclose
    · rw [heq]
    · exact absurd hclose.waiting hstatus
  | purgedWaits keys terminal =>
    rw [OrderedMap.get?_filterKeys, hwait]
    split
    · exact Or.inl rfl
    · exact Or.inr rfl
  | purgedSignals keys unreferenced => exact Or.inl hwait

theorem terminal_signalStep (hsound : store.Sound ctx.limits.maxWaitMatchesPerSignal)
    (request : SignalRequest) {key : SignalWaitKey} {wait : SignalWaitRecord}
    (hwait : store.waits.get? key = some wait) (hstatus : wait.status ≠ .waiting) :
    (signalStep ctx store request).2.waits.get? key = some wait ∨
      (signalStep ctx store request).2.waits.get? key = none := by
  have hchanges := (signalStep_changes hsound request).respond
  unfold signalStep
  cases hanswer : (respond (request.run ctx) store).1 with
  | ok answer =>
    rcases hchanges.1 answer hanswer with heq | hchange
    · rw [heq]
      exact Or.inl hwait
    · exact hchange.terminal hwait hstatus
  | error e =>
    rw [hchanges.2 e hanswer]
    exact Or.inl hwait

/-! ## Runs -/

/-- The store after a sequence of requests. -/
def signalsAfter (ctx : SignalContext) (store : InMemorySignalStore)
    (requests : List SignalRequest) : InMemorySignalStore :=
  (history (signalStep ctx) store requests).2

theorem sound_signalsAfter (hsound : store.Sound ctx.limits.maxWaitMatchesPerSignal)
    (requests : List SignalRequest) :
    (signalsAfter ctx store requests).Sound ctx.limits.maxWaitMatchesPerSignal :=
  history_invariant _ (fun _ request _ h => sound_signalStep h request) hsound

/-- A wait that is over stays as it is for as long as it is stored. -/
theorem terminal_signalsAfter (hsound : store.Sound ctx.limits.maxWaitMatchesPerSignal)
    {key : SignalWaitKey} {wait : SignalWaitRecord} (hwait : store.waits.get? key = some wait)
    (hstatus : wait.status ≠ .waiting) {later : List SignalRequest}
    (hstored : ∀ upto, upto <+: later → (signalsAfter ctx store upto).waits.get? key ≠ none) :
    (signalsAfter ctx store later).waits.get? key = some wait := by
  induction later generalizing store with
  | nil => exact hwait
  | cons request later ih =>
    have hnext := (terminal_signalStep hsound request hwait hstatus).resolve_right
      (hstored [request] (List.prefix_append [request] later))
    refine ih (sound_signalStep hsound request) hnext fun upto hupto => ?_
    exact hstored (request :: upto) (List.cons_prefix_cons.2 ⟨rfl, hupto⟩)

/-! ## A signal and a wait -/

namespace InMemorySignalStore

/-- A wait starts with the one signal whose key is below those of the others it matches. -/
theorem matchedSignal_eq_of_least {draft : SignalWaitDraft Decimal} {signal : GameSignalRecord}
    (hmem : signal ∈ store.signals.values) (hmatches : signalWaitMatches draft signal = true)
    (hleast : ∀ other ∈ store.signals.values, signalWaitMatches draft other = true →
      other = signal ∨ signal.signalKey < other.signalKey) :
    store.matchedSignal draft = some signal := by
  cases hfound : store.matchedSignal draft with
  | none =>
    rw [matchedSignal_eq_none.1 hfound signal hmem] at hmatches
    cases hmatches
  | some found =>
    obtain ⟨hfoundMem, hfoundMatches, hle⟩ := matchedSignal_eq_some hfound
    rcases hleast found hfoundMem hfoundMatches with heq | hlt
    · rw [heq]
    · exact absurd hlt (not_lt.2 (hle signal hmem hmatches))

/-- What a wait starts with when one more signal has arrived. -/
theorem Sound.matchedSignal_withSignal (hsound : store.Sound maxMatches)
    {signal : GameSignalDraft Decimal} (hnew : store.signals.get? signal.key = none)
    (draft : SignalWaitDraft Decimal) :
    (store.withSignal signal).matchedSignal draft =
      (store.matchedSignal draft).or
        (if signalWaitMatches draft (store.nextSignal signal) then some (store.nextSignal signal)
        else none) := by
  cases hfound : store.matchedSignal draft with
  | some found =>
    obtain ⟨hmem, hmatches, hle⟩ := matchedSignal_eq_some hfound
    refine matchedSignal_eq_of_least ((mem_signals_withSignal hnew).2 (Or.inl hmem)) hmatches ?_
    intro other hother hmatchesOther
    rcases (mem_signals_withSignal hnew).1 hother with hother | rfl
    · rcases (hle other hother hmatchesOther).eq_or_lt with heq | hlt
      · exact Or.inl (hsound.signalUnique other hother found hmem heq.symm)
      · exact Or.inr hlt
    · exact Or.inr (hsound.signalBound found hmem)
  | none =>
    have hno := matchedSignal_eq_none.1 hfound
    by_cases hmatches : signalWaitMatches draft (store.nextSignal signal) = true
    · rw [if_pos hmatches, Option.none_or]
      refine matchedSignal_eq_of_least ((mem_signals_withSignal hnew).2 (Or.inr rfl))
        hmatches ?_
      intro other hother hmatchesOther
      rcases (mem_signals_withSignal hnew).1 hother with hother | rfl
      · rw [hno other hother] at hmatchesOther
        cases hmatchesOther
      · exact Or.inl rfl
    · rw [if_neg hmatches, Option.none_or]
      refine matchedSignal_eq_none.2 fun other hother => ?_
      rcases (mem_signals_withSignal hnew).1 hother with hother | rfl
      · exact hno other hother
      · exact Bool.eq_false_iff.2 hmatches

/-- The waits a signal wakes up when one more wait is registered. -/
theorem length_wakes_withWait {draft : SignalWaitDraft Decimal}
    (hnew : store.waits.get? draft.key = none) (signal : GameSignalRecord) :
    ((store.withWait draft).wakes signal).length = (store.wakes signal).length +
      if store.matchedSignal draft = none ∧ signalWaitMatches draft signal = true then 1
      else 0 := by
  simp only [length_wakes]
  show ((store.waits.set draft.key _).values).countP _ = _
  rw [OrderedMap.values_set_of_get?_eq_none hnew, List.countP_append, List.countP_singleton]
  cases store.matchedSignal draft <;> simp [nextWait]

/-! ### Each of the two as an effect -/

/-- The store after a signal was recorded, if it was. -/
def recorded? (store : InMemorySignalStore) (draft : GameSignalDraft Decimal)
    (maxMatches : Nat) : Option InMemorySignalStore :=
  if store.signals.get? draft.key = none then
    if (store.wakes (store.nextSignal draft)).length ≤ maxMatches then
      some (store.withSignal draft)
    else none
  else if store.signalFingerprints.get? draft.key = some (signalFingerprint draft) then some store
  else none

/-- The store after a wait was registered, if it was. -/
def registered? (store : InMemorySignalStore) (draft : SignalWaitDraft Decimal)
    (maxMatches : Nat) : Option InMemorySignalStore :=
  if store.waits.get? draft.key = none then
    if store.hasRoom draft maxMatches then some (store.withWait draft) else none
  else if store.waitFingerprints.get? draft.key = some (signalWaitFingerprint draft) then some store
  else none

/-- Two stores with the same signals, whose waits name the same ones. -/
structure SameMatches (left right : InMemorySignalStore) : Prop where
  signals : left.signals = right.signals
  matched : ∀ key, (left.waits.get? key).map (·.matchedSignalKey) =
    (right.waits.get? key).map (·.matchedSignalKey)

/-- A new signal has room for a new wait before it if it has room for it after. -/
theorem Sound.room_comm (hsound : store.Sound maxMatches) {signal : GameSignalDraft Decimal}
    {wait : SignalWaitDraft Decimal} (hsignal : store.signals.get? signal.key = none)
    (hwait : store.waits.get? wait.key = none) :
    ((store.wakes (store.nextSignal signal)).length ≤ maxMatches ∧
        (store.withSignal signal).hasRoom wait maxMatches = true) ↔
      (store.hasRoom wait maxMatches = true ∧
        ((store.withWait wait).wakes ((store.withWait wait).nextSignal signal)).length ≤
          maxMatches) := by
  have hsame : (store.withWait wait).nextSignal signal = store.nextSignal signal := rfl
  unfold hasRoom
  rw [hsame, length_wakes_withWait hwait, hsound.matchedSignal_withSignal hsignal]
  cases hfound : store.matchedSignal wait with
  | some found =>
    have hne : found.signalKey ≠ store.nextSignalKey :=
      (hsound.signalBound found (matchedSignal_eq_some hfound).1).ne
    simp only [Option.some_or, Option.all_some, decide_eq_true_eq, reduceCtorEq, false_and,
      if_false, Nat.add_zero, hsound.length_matchedWaitIds_withSignal, if_neg hne]
    exact and_comm
  | none =>
    by_cases hmatches : signalWaitMatches wait (store.nextSignal signal) = true
    · have hkey : (store.nextSignal signal).signalKey = store.nextSignalKey := rfl
      simp only [hmatches, if_true, Option.none_or, Option.all_some, decide_eq_true_eq,
        Option.all_none, true_and, and_self, hsound.length_matchedWaitIds_withSignal, hkey]
      omega
    · simp [hmatches]

section Effects

variable {signal : GameSignalDraft Decimal} {wait : SignalWaitDraft Decimal}

theorem recorded?_new (hnew : store.signals.get? signal.key = none) :
    store.recorded? signal maxMatches =
      if (store.wakes (store.nextSignal signal)).length ≤ maxMatches then
        some (store.withSignal signal)
      else none :=
  if_pos hnew

theorem recorded?_stored (hstored : store.signals.get? signal.key ≠ none) :
    store.recorded? signal maxMatches =
      if store.signalFingerprints.get? signal.key = some (signalFingerprint signal) then some store
      else none :=
  if_neg hstored

theorem registered?_new (hnew : store.waits.get? wait.key = none) :
    store.registered? wait maxMatches =
      if store.hasRoom wait maxMatches then some (store.withWait wait) else none :=
  if_pos hnew

theorem registered?_stored (hstored : store.waits.get? wait.key ≠ none) :
    store.registered? wait maxMatches =
      if store.waitFingerprints.get? wait.key = some (signalWaitFingerprint wait) then some store
      else none :=
  if_neg hstored

theorem SameMatches.rfl (store : InMemorySignalStore) : SameMatches store store :=
  ⟨Eq.refl _, fun _ => Eq.refl _⟩

/-- A new signal and a new wait leave the same matches in either order. -/
theorem Sound.sameMatches (hsound : store.Sound maxMatches)
    (hsignal : store.signals.get? signal.key = none) :
    SameMatches ((store.withSignal signal).withWait wait)
      ((store.withWait wait).withSignal signal) := by
  refine ⟨rfl, fun key => ?_⟩
  show (((store.waits.mapEntries _).set wait.key _).get? key).map _ =
    (((store.waits.set wait.key _).mapEntries _).get? key).map _
  rw [OrderedMap.get?_set, OrderedMap.get?_mapEntries, OrderedMap.get?_mapEntries,
    OrderedMap.get?_set]
  by_cases hkey : wait.key = key
  · rw [if_pos hkey, if_pos hkey, hsound.matchedSignal_withSignal hsignal]
    simp only [Option.map_some, Option.some.injEq]
    have hsame : (store.withWait wait).nextSignal signal = store.nextSignal signal := rfl
    rw [hsame]
    cases hfound : store.matchedSignal wait with
    | some found => simp [nextWait, SignalWaitRecord.see]
    | none =>
      by_cases hmatches : signalWaitMatches wait (store.nextSignal signal) = true
      · simp [nextWait, SignalWaitRecord.see, SignalWaitRecord.wokenBy, hmatches]
      · simp [nextWait, SignalWaitRecord.see, hmatches]
  · rw [if_neg hkey, if_neg hkey]
    rfl

/-- **A signal and a wait meet in whichever order they arrive.** -/
theorem Sound.recorded_registered (hsound : store.Sound maxMatches) :
    Option.Rel SameMatches
      ((store.recorded? signal maxMatches).bind fun store => store.registered? wait maxMatches)
      ((store.registered? wait maxMatches).bind fun store =>
        store.recorded? signal maxMatches) := by
  by_cases hsignal : store.signals.get? signal.key = none
  · by_cases hwait : store.waits.get? wait.key = none
    · have hwait' : (store.withSignal signal).waits.get? wait.key = none := by
        show (store.waits.mapEntries _).get? wait.key = none
        rw [OrderedMap.get?_mapEntries, hwait, Option.map_none]
      have hsignal' : (store.withWait wait).signals.get? signal.key = none := hsignal
      have hroom := hsound.room_comm hsignal hwait
      rw [recorded?_new hsignal, registered?_new hwait]
      by_cases hboth : (store.wakes (store.nextSignal signal)).length ≤ maxMatches ∧
          (store.withSignal signal).hasRoom wait maxMatches = true
      · obtain ⟨hleft, hright⟩ := hroom.1 hboth
        rw [if_pos hboth.1, if_pos hleft, Option.bind_some, Option.bind_some,
          registered?_new hwait', recorded?_new hsignal', if_pos hboth.2, if_pos hright]
        exact .some (hsound.sameMatches hsignal)
      · have hfirst : ((if (store.wakes (store.nextSignal signal)).length ≤ maxMatches then
            some (store.withSignal signal) else none).bind fun store =>
              store.registered? wait maxMatches) = none := by
          split
          · rename_i hfanout
            rw [Option.bind_some, registered?_new hwait',
              if_neg fun hright => hboth ⟨hfanout, hright⟩]
          · rfl
        have hsecond : ((if store.hasRoom wait maxMatches then some (store.withWait wait)
            else none).bind fun store => store.recorded? signal maxMatches) = none := by
          split
          · rename_i hleft
            rw [Option.bind_some, recorded?_new hsignal',
              if_neg fun hright => hboth (hroom.2 ⟨hleft, hright⟩)]
          · rfl
        rw [hfirst, hsecond]
        exact .none
    · have hwait' : (store.withSignal signal).waits.get? wait.key ≠ none := by
        show (store.waits.mapEntries _).get? wait.key ≠ none
        rw [OrderedMap.get?_mapEntries, ne_eq, Option.map_eq_none_iff]
        exact hwait
      have hsame : (store.withSignal signal).waitFingerprints = store.waitFingerprints := rfl
      rw [recorded?_new hsignal, registered?_stored hwait]
      by_cases hfanout : (store.wakes (store.nextSignal signal)).length ≤ maxMatches
      · rw [if_pos hfanout, Option.bind_some, registered?_stored hwait', hsame]
        split
        · rw [Option.bind_some, recorded?_new hsignal, if_pos hfanout]
          exact .some (.rfl _)
        · exact .none
      · rw [if_neg hfanout, Option.bind_none]
        split
        · rw [Option.bind_some, recorded?_new hsignal, if_neg hfanout]
          exact .none
        · exact .none
  · by_cases hmatch : store.signalFingerprints.get? signal.key = some (signalFingerprint signal)
    · have hafter : ∀ after ∈ store.registered? wait maxMatches,
          after.recorded? signal maxMatches = some after := by
        intro after hafter
        unfold registered? at hafter
        have hsame : after.signals = store.signals ∧
            after.signalFingerprints = store.signalFingerprints := by
          split at hafter <;> split at hafter <;> cases hafter <;> exact ⟨rfl, rfl⟩
        rw [recorded?_stored (by rw [hsame.1]; exact hsignal), hsame.2, if_pos hmatch]
      rw [recorded?_stored hsignal, if_pos hmatch, Option.bind_some]
      cases hregistered : store.registered? wait maxMatches with
      | none => exact .none
      | some after =>
        rw [Option.bind_some, hafter after hregistered]
        exact .some (.rfl _)
    · have hafter : ∀ after ∈ store.registered? wait maxMatches,
          after.recorded? signal maxMatches = none := by
        intro after hafter
        unfold registered? at hafter
        have hsame : after.signals = store.signals ∧
            after.signalFingerprints = store.signalFingerprints := by
          split at hafter <;> split at hafter <;> cases hafter <;> exact ⟨rfl, rfl⟩
        rw [recorded?_stored (by rw [hsame.1]; exact hsignal), hsame.2, if_neg hmatch]
      rw [recorded?_stored hsignal, if_neg hmatch, Option.bind_none]
      cases hregistered : store.registered? wait maxMatches with
      | none => exact .none
      | some after =>
        rw [Option.bind_some, hafter after hregistered]
        exact .none

end Effects

end InMemorySignalStore

/-- The store after a request, if the request was answered. -/
def signalOutcome (ctx : SignalContext) (store : InMemorySignalStore) (request : SignalRequest) :
    Option InMemorySignalStore :=
  outcome (request.run ctx) store

theorem signalOutcome_record (hsound : store.Sound ctx.limits.maxWaitMatchesPerSignal)
    (input : GameSignalDraft String) :
    signalOutcome ctx store (.record input) =
      (normalizeGameSignal input ctx.limits).toOption.bind fun draft =>
        store.recorded? draft ctx.limits.maxWaitMatchesPerSignal := by
  show outcome (attempt (normalizeGameSignal input ctx.limits) >>= fun draft =>
    recordSignal draft _ >>= fun result => pure (SignalAnswer.signal result)) store = _
  cases hdraft : normalizeGameSignal input ctx.limits with
  | error e => rfl
  | ok draft =>
    have htimestamp := normalizeGameSignal_recordedAt hdraft
    show outcome (recordSignal draft ctx.limits.maxWaitMatchesPerSignal >>= fun result =>
      pure (SignalAnswer.signal result)) store = store.recorded? draft _
    rw [outcome_map_pure]
    unfold outcome
    by_cases hnew : store.signals.get? draft.key = none
    · rw [recordSignal_new hsound.waitTimestamp htimestamp hnew, InMemorySignalStore.recorded?_new hnew]
      by_cases hfanout : (store.wakes (store.nextSignal draft)).length ≤
          ctx.limits.maxWaitMatchesPerSignal
      · rw [if_neg (not_lt.2 hfanout), if_pos hfanout]
      · rw [if_pos (not_le.1 hfanout), if_neg hfanout]
    · obtain ⟨existing, hstored⟩ := Option.ne_none_iff_exists'.1 hnew
      rw [recordSignal_stored hsound hstored, InMemorySignalStore.recorded?_stored hnew]
      by_cases hmatch : store.signalFingerprints.get? draft.key = some (signalFingerprint draft)
      · rw [if_neg (not_not.2 hmatch), if_pos hmatch]
      · rw [if_pos hmatch, if_neg hmatch]

theorem signalOutcome_registerWait (hsound : store.Sound ctx.limits.maxWaitMatchesPerSignal)
    (input : SignalWaitDraft String) :
    signalOutcome ctx store (.registerWait input) =
      (normalizeSignalWait input ctx.limits).toOption.bind fun draft =>
        store.registered? draft ctx.limits.maxWaitMatchesPerSignal := by
  show outcome (attempt (normalizeSignalWait input ctx.limits) >>= fun draft =>
    registerWait draft _ >>= fun wait => pure (SignalAnswer.wait wait)) store = _
  cases hdraft : normalizeSignalWait input ctx.limits with
  | error e => rfl
  | ok draft =>
    have htimestamp := normalizeSignalWait_recordedAt hdraft
    show outcome (registerWait draft ctx.limits.maxWaitMatchesPerSignal >>= fun wait =>
      pure (SignalAnswer.wait wait)) store = store.registered? draft _
    rw [outcome_map_pure]
    unfold outcome
    by_cases hnew : store.waits.get? draft.key = none
    · rw [registerWait_new hsound.signalTimestamp htimestamp hnew, InMemorySignalStore.registered?_new hnew]
      by_cases hroom : store.hasRoom draft ctx.limits.maxWaitMatchesPerSignal = true
      · rw [if_pos hroom, if_pos hroom]
      · rw [if_neg hroom, if_neg hroom]
    · obtain ⟨existing, hstored⟩ := Option.ne_none_iff_exists'.1 hnew
      rw [registerWait_stored hstored, InMemorySignalStore.registered?_stored hnew]
      by_cases hmatch :
          store.waitFingerprints.get? draft.key = some (signalWaitFingerprint draft)
      · rw [if_neg (not_not.2 hmatch), if_pos hmatch]
      · rw [if_pos hmatch, if_neg hmatch]

theorem signalOutcome_sound (hsound : store.Sound ctx.limits.maxWaitMatchesPerSignal)
    {request : SignalRequest} (h : signalOutcome ctx store request = some next) :
    next.Sound ctx.limits.maxWaitMatchesPerSignal := by
  obtain ⟨-, heq | hchange⟩ := (signalStep_changes hsound request).outcome h
  · rw [heq]
    exact hsound
  · exact hsound.change hchange

/-- Recording and registering come to the same, whichever is first. -/
theorem record_registerWait_agree (hsound : store.Sound ctx.limits.maxWaitMatchesPerSignal)
    (signal : GameSignalDraft String) (wait : SignalWaitDraft String) :
    Option.Rel InMemorySignalStore.SameMatches
      ((signalOutcome ctx store (.record signal)).bind fun store =>
        signalOutcome ctx store (.registerWait wait))
      ((signalOutcome ctx store (.registerWait wait)).bind fun store =>
        signalOutcome ctx store (.record signal)) := by
  have hregister : ∀ after ∈ signalOutcome ctx store (.record signal),
      signalOutcome ctx after (.registerWait wait) = _ := fun after hafter =>
    signalOutcome_registerWait (signalOutcome_sound hsound hafter) wait
  have hrecord : ∀ after ∈ signalOutcome ctx store (.registerWait wait),
      signalOutcome ctx after (.record signal) = _ := fun after hafter =>
    signalOutcome_record (signalOutcome_sound hsound hafter) signal
  rw [Option.bind_congr hregister, Option.bind_congr hrecord, signalOutcome_record hsound,
    signalOutcome_registerWait hsound]
  cases (normalizeGameSignal signal ctx.limits).toOption with
  | none =>
    cases (normalizeSignalWait wait ctx.limits).toOption with
    | none => exact .none
    | some draft =>
      simp only [Option.bind_none, Option.bind_some, Option.bind_fun_none]
      exact .none
  | some signal =>
    cases (normalizeSignalWait wait ctx.limits).toOption with
    | none =>
      simp only [Option.bind_none, Option.bind_some, Option.bind_fun_none]
      exact .none
    | some wait => exact hsound.recorded_registered

/-! ## The joint result -/

/-- **No wakeup is lost.**  In every store that requests lead to: no waiting wait matches a
stored signal; a matched wait names the lowest-keyed stored signal that it matches; no signal
has more waits than allowed; a wait that is over stays as it is until it is purged; a request
that fails changes nothing; and a signal and a wait meet in whichever order they arrive. -/
theorem signal_waits_are_met (ctx : SignalContext) (requests : List SignalRequest) :
    (∀ wait ∈ (signalsAfter ctx .empty requests).waits.values, wait.status = .waiting →
      ∀ signal ∈ (signalsAfter ctx .empty requests).signals.values,
        signalWaitMatches wait.toSignalWaitDraft signal = false) ∧
    (∀ wait ∈ (signalsAfter ctx .empty requests).waits.values, wait.status = .matched →
      ∃ signal ∈ (signalsAfter ctx .empty requests).signals.values,
        wait.matchedSignalKey = some signal.signalKey ∧
        signalWaitMatches wait.toSignalWaitDraft signal = true ∧
        ∀ other ∈ (signalsAfter ctx .empty requests).signals.values,
          signalWaitMatches wait.toSignalWaitDraft other = true →
            signal.signalKey ≤ other.signalKey) ∧
    (∀ signalKey, ((signalsAfter ctx .empty requests).waits.values.filter fun wait =>
        wait.matchedSignalKey = some signalKey).length ≤ ctx.limits.maxWaitMatchesPerSignal) ∧
    (∀ key wait, (signalsAfter ctx .empty requests).waits.get? key = some wait →
      wait.status ≠ .waiting → ∀ later,
        (∀ upto, upto <+: later →
          (signalsAfter ctx (signalsAfter ctx .empty requests) upto).waits.get? key ≠ none) →
        (signalsAfter ctx (signalsAfter ctx .empty requests) later).waits.get? key =
          some wait) ∧
    (∀ request e, (signalStep ctx (signalsAfter ctx .empty requests) request).1 = .error e →
      (signalStep ctx (signalsAfter ctx .empty requests) request).2 =
        signalsAfter ctx .empty requests) ∧
    (∀ signal wait, Option.Rel InMemorySignalStore.SameMatches
      ((signalOutcome ctx (signalsAfter ctx .empty requests) (.record signal)).bind
        fun store => signalOutcome ctx store (.registerWait wait))
      ((signalOutcome ctx (signalsAfter ctx .empty requests) (.registerWait wait)).bind
        fun store => signalOutcome ctx store (.record signal))) := by
  have hsound : (signalsAfter ctx .empty requests).Sound ctx.limits.maxWaitMatchesPerSignal :=
    sound_signalsAfter sound_empty requests
  refine ⟨hsound.unmatched, fun wait hwait hstatus => ?_, fun signalKey => ?_,
    fun key wait hwait hstatus later hstored => terminal_signalsAfter hsound hwait hstatus hstored,
    fun request e h => signalStep_error hsound h, record_registerWait_agree hsound⟩
  · obtain ⟨signalKey, hkey⟩ := Option.isSome_iff_exists.1 ((hsound.matchedKey wait hwait).1 hstatus)
    obtain ⟨signal, hsignal, rfl, hmatches, hleast⟩ := hsound.named wait hwait signalKey hkey
    exact ⟨signal, hsignal, hkey, hmatches, hleast⟩
  · have hfanout := hsound.fanout signalKey
    rwa [InMemorySignalStore.length_matchedWaitIds, List.countP_eq_length_filter] at hfanout

end OpenGameAgent
