import OpenGameAgent.Extensions.InMemorySignalStore
import OpenGameAgent.Library.StableSort

/-!
# Signal waits and the signals they match

What holds of every state of an in-memory signal store, whatever requests led to it.

* `SignalChange` — the five things a successful request can do; `signalStep_changes` says
  that a request does one of them or leaves the store alone.
* `InMemorySignalStore.Sound` — the invariant: no waiting wait matches a stored signal, a
  matched wait names the lowest-keyed signal it matches, and no signal has too many waits.
* `Sound.change` — a change keeps it.
-/

namespace OpenGameAgent

/-! ## What a request can do to a store -/

/-- The wait a matching signal wakes up. -/
def SignalWaitRecord.wokenBy (wait : SignalWaitRecord) (signal : GameSignalRecord) :
    SignalWaitRecord :=
  { wait with
    status := .matched
    matchedSignalKey := some signal.signalKey
    revision := wait.revision.next
    updatedAt := if wait.updatedAt < signal.recordedAt then signal.recordedAt
      else wait.updatedAt }

/-- What a new signal makes of a wait. -/
def SignalWaitRecord.see (wait : SignalWaitRecord) (signal : GameSignalRecord) :
    SignalWaitRecord :=
  if wait.status = .waiting && signalWaitMatches wait.toSignalWaitDraft signal then
    wait.wokenBy signal
  else wait

namespace InMemorySignalStore

/-- The store with a new signal, and the waits it wakes up. -/
def withSignal (store : InMemorySignalStore) (draft : GameSignalDraft Decimal) :
    InMemorySignalStore :=
  { store with
    nextSignalKey := store.nextSignalKey + 1
    signals := store.signals.set draft.key (store.nextSignal draft)
    signalFingerprints := store.signalFingerprints.set draft.key (signalFingerprint draft)
    waits := store.waits.mapEntries fun _ wait => wait.see (store.nextSignal draft) }

/-- The record of the next wait, with the signal it starts with. -/
def nextWait (store : InMemorySignalStore) (draft : SignalWaitDraft Decimal)
    (signal : Option GameSignalRecord) : SignalWaitRecord :=
  { draft with
    waitKey := store.nextWaitKey
    status := if signal.isSome then .matched else .waiting
    revision := .ofNat 1
    matchedSignalKey := signal.map (·.signalKey)
    createdAt := draft.recordedAt
    updatedAt := match signal with
      | none => draft.recordedAt
      | some signal => if draft.recordedAt < signal.recordedAt then signal.recordedAt
          else draft.recordedAt }

/-- The store with a new wait, matched by what is stored. -/
def withWait (store : InMemorySignalStore) (draft : SignalWaitDraft Decimal) :
    InMemorySignalStore :=
  { store with
    nextWaitKey := store.nextWaitKey + 1
    waits := store.waits.set draft.key (store.nextWait draft (store.matchedSignal draft))
    waitFingerprints := store.waitFingerprints.set draft.key (signalWaitFingerprint draft) }

end InMemorySignalStore

/-- A waiting wait is cancelled or expires. -/
structure SignalWaitRecord.Closes (wait closed : SignalWaitRecord) : Prop where
  waiting : wait.status = .waiting
  draft : closed.toSignalWaitDraft = wait.toSignalWaitDraft
  matchedSignalKey : closed.matchedSignalKey = wait.matchedSignalKey
  status : closed.status = .cancelled ∨ closed.status = .expired
  updatedAt : isCanonicalTimestamp closed.updatedAt = true

/-- What a successful request does to a store, other than nothing. -/
inductive SignalChange (maxMatches : Nat) (store : InMemorySignalStore) :
    InMemorySignalStore → Prop
  | recorded (draft : GameSignalDraft Decimal)
      (timestamp : isCanonicalTimestamp draft.recordedAt = true)
      (new : store.signals.get? draft.key = none)
      (fanout : (store.wakes (store.nextSignal draft)).length ≤ maxMatches) :
      SignalChange maxMatches store (store.withSignal draft)
  | registered (draft : SignalWaitDraft Decimal)
      (timestamp : isCanonicalTimestamp draft.recordedAt = true)
      (new : store.waits.get? draft.key = none)
      (fanout : ∀ signal, store.matchedSignal draft = some signal →
        (store.matchedWaitIds signal.signalKey).length < maxMatches) :
      SignalChange maxMatches store (store.withWait draft)
  | closed (f : SignalWaitKey → SignalWaitRecord → SignalWaitRecord)
      (closes : ∀ key wait, store.waits.get? key = some wait →
        f key wait = wait ∨ wait.Closes (f key wait)) :
      SignalChange maxMatches store { store with waits := store.waits.mapEntries f }
  | purgedWaits (keys : List SignalWaitKey)
      (terminal : ∀ key ∈ keys, ∀ wait, store.waits.get? key = some wait →
        wait.status ≠ .waiting) :
      SignalChange maxMatches store { store with
        waits := store.waits.filterKeys fun key => key ∉ keys
        waitFingerprints := store.waitFingerprints.filterKeys fun key => key ∉ keys }
  | purgedSignals (keys : List GameSignalKey)
      (unreferenced : ∀ key ∈ keys, ∀ signal, store.signals.get? key = some signal →
        ∀ wait ∈ store.waits.values, wait.matchedSignalKey ≠ some signal.signalKey) :
      SignalChange maxMatches store { store with
        signals := store.signals.filterKeys fun key => key ∉ keys
        signalFingerprints := store.signalFingerprints.filterKeys fun key => key ∉ keys }

/-! ## The invariant -/

/-- What holds of every reachable store. -/
structure InMemorySignalStore.Sound (maxMatches : Nat) (store : InMemorySignalStore) : Prop where
  signalKeyed : ∀ key signal, store.signals.get? key = some signal → signal.key = key
  waitKeyed : ∀ key wait, store.waits.get? key = some wait → wait.key = key
  signalBound : ∀ signal ∈ store.signals.values, signal.signalKey < store.nextSignalKey
  signalUnique : ∀ left ∈ store.signals.values, ∀ right ∈ store.signals.values,
    left.signalKey = right.signalKey → left = right
  signalTimestamp : ∀ signal ∈ store.signals.values,
    isCanonicalTimestamp signal.recordedAt = true
  waitTimestamp : ∀ wait ∈ store.waits.values, isCanonicalTimestamp wait.updatedAt = true
  unmatched : ∀ wait ∈ store.waits.values, wait.status = .waiting →
    ∀ signal ∈ store.signals.values, signalWaitMatches wait.toSignalWaitDraft signal = false
  matchedKey : ∀ wait ∈ store.waits.values,
    wait.status = .matched ↔ wait.matchedSignalKey.isSome = true
  named : ∀ wait ∈ store.waits.values, ∀ signalKey, wait.matchedSignalKey = some signalKey →
    ∃ signal ∈ store.signals.values, signal.signalKey = signalKey ∧
      signalWaitMatches wait.toSignalWaitDraft signal = true ∧
      ∀ other ∈ store.signals.values, signalWaitMatches wait.toSignalWaitDraft other = true →
        signalKey ≤ other.signalKey
  fanout : ∀ signalKey, (store.matchedWaitIds signalKey).length ≤ maxMatches

variable {ctx : SignalContext} {maxMatches : Nat} {store next : InMemorySignalStore}

theorem sound_empty : InMemorySignalStore.empty.Sound maxMatches where
  signalKeyed _ _ h := absurd h (Option.some_ne_none _).symm
  waitKeyed _ _ h := absurd h (Option.some_ne_none _).symm
  signalBound _ h := absurd h List.not_mem_nil
  signalUnique _ h := absurd h List.not_mem_nil
  signalTimestamp _ h := absurd h List.not_mem_nil
  waitTimestamp _ h := absurd h List.not_mem_nil
  unmatched _ h := absurd h List.not_mem_nil
  matchedKey _ h := absurd h List.not_mem_nil
  named _ h := absurd h List.not_mem_nil
  fanout _ := Nat.zero_le _

/-! ## Counting -/

namespace InMemorySignalStore

theorem length_matchedWaitIds (signalKey : Nat) :
    (store.matchedWaitIds signalKey).length =
      store.waits.values.countP fun wait => wait.matchedSignalKey = some signalKey := by
  unfold matchedWaitIds sortWaits OrderedMap.values
  rw [List.length_map, List.length_insertionSort, List.countP_map, List.countP_eq_length_filter]
  rfl

theorem length_wakes (signal : GameSignalRecord) :
    (store.wakes signal).length = store.waits.values.countP fun wait =>
      wait.status = .waiting && signalWaitMatches wait.toSignalWaitDraft signal := by
  unfold wakes sortWaits OrderedMap.values
  rw [List.length_insertionSort, List.countP_map, List.countP_eq_length_filter]
  rfl

theorem mem_wakes {signal : GameSignalRecord} {e : SignalWaitKey × SignalWaitRecord} :
    e ∈ store.wakes signal ↔ e ∈ store.waits.entries ∧
      (e.2.status = .waiting ∧ signalWaitMatches e.2.toSignalWaitDraft signal = true) := by
  unfold wakes sortWaits
  rw [List.mem_insertionSort, List.mem_filter, Bool.and_eq_true, decide_eq_true_eq]

/-- A wait matches nothing that is stored. -/
theorem matchedSignal_eq_none {draft : SignalWaitDraft Decimal} :
    store.matchedSignal draft = none ↔
      ∀ signal ∈ store.signals.values, signalWaitMatches draft signal = false := by
  unfold matchedSignal
  rw [List.head?_eq_none_iff, ← List.length_eq_zero_iff, List.length_insertionSort,
    List.length_eq_zero_iff, List.filter_eq_nil_iff]
  simp

/-- The signal a wait starts with is the lowest-keyed one it matches. -/
theorem matchedSignal_eq_some {draft : SignalWaitDraft Decimal} {signal : GameSignalRecord}
    (h : store.matchedSignal draft = some signal) :
    signal ∈ store.signals.values ∧ signalWaitMatches draft signal = true ∧
      ∀ other ∈ store.signals.values, signalWaitMatches draft other = true →
        signal.signalKey ≤ other.signalKey := by
  obtain ⟨hmem, hleast⟩ := head?_insertionSort_eq_some h
  rw [List.mem_filter] at hmem
  exact ⟨hmem.1, hmem.2, fun other hother hmatches =>
    hleast other (List.mem_filter.2 ⟨hother, hmatches⟩)⟩

end InMemorySignalStore

/-! ## The methods -/

theorem rewriteWaits_eq {change : SignalWaitRecord → Except SignalError SignalWaitRecord}
    {f : SignalWaitRecord → SignalWaitRecord} {l : List (SignalWaitKey × SignalWaitRecord)}
    (h : ∀ e ∈ l, change e.2 = .ok (f e.2)) (store : InMemorySignalStore) :
    rewriteWaits change l store = .ok () { store with
      waits := l.foldl (fun waits e => waits.set e.1 (f e.2)) store.waits } := by
  induction l generalizing store with
  | nil => rfl
  | cons e l ih =>
    obtain ⟨key, wait⟩ := e
    have hhead : change wait = .ok (f wait) := h _ (List.mem_cons_self ..)
    have hrest := ih (fun e he => h e (List.mem_cons_of_mem _ he))
      { store with waits := store.waits.set key (f wait) }
    show EStateM.bind (attempt (change wait)) _ store = _
    unfold EStateM.bind
    rw [hhead]
    exact hrest

/-- Waits that are stored are changed where they stand. -/
theorem rewriteWaits_eq_mapEntries
    {change : SignalWaitRecord → Except SignalError SignalWaitRecord}
    (f : SignalWaitRecord → SignalWaitRecord) {l : List (SignalWaitKey × SignalWaitRecord)}
    (rest : InMemorySignalStore) (hrest : rest.waits = store.waits)
    (h : ∀ e ∈ l, change e.2 = .ok (f e.2)) (hstored : ∀ e ∈ l, e ∈ store.waits.entries)
    (hnodup : (l.map Prod.fst).Nodup) :
    rewriteWaits change l rest = .ok () { rest with
      waits := store.waits.mapEntries fun key wait =>
        if key ∈ l.map Prod.fst then f wait else wait } := by
  rw [rewriteWaits_eq h, hrest, OrderedMap.foldl_set_eq_mapEntries f hstored hnodup]

theorem nodup_sortWaits {p : SignalWaitKey × SignalWaitRecord → Bool} :
    ((sortWaits (store.waits.entries.filter p)).map Prod.fst).Nodup := by
  have hperm := (List.perm_insertionSort
    (fun left right : SignalWaitKey × SignalWaitRecord => left.2.waitKey ≤ right.2.waitKey)
    (store.waits.entries.filter p)).map Prod.fst
  exact hperm.nodup_iff.2 (store.waits.nodup.sublist (List.filter_sublist.map Prod.fst))

theorem mem_sortWaits {p : SignalWaitKey × SignalWaitRecord → Bool}
    {e : SignalWaitKey × SignalWaitRecord} :
    e ∈ sortWaits (store.waits.entries.filter p) ↔ e ∈ store.waits.entries ∧ p e = true := by
  unfold sortWaits
  rw [List.mem_insertionSort, List.mem_filter]

/-- The wait when its time has come. -/
def SignalWaitRecord.expiredAt (wait : SignalWaitRecord) (recordedAt : String) :
    SignalWaitRecord :=
  { wait with
    status := .expired
    revision := wait.revision.next
    updatedAt := if wait.updatedAt < recordedAt then recordedAt else wait.updatedAt }

theorem laterTimestamp_canonical {left right : String}
    (hleft : isCanonicalTimestamp left = true) (hright : isCanonicalTimestamp right = true) :
    isCanonicalTimestamp (if left < right then right else left) = true := by
  split
  · exact hright
  · exact hleft

theorem expireWait_eq {wait : SignalWaitRecord} {recordedAt : String}
    (hwait : isCanonicalTimestamp wait.updatedAt = true)
    (hnow : isCanonicalTimestamp recordedAt = true) :
    expireWait recordedAt wait = .ok (wait.expiredAt recordedAt) := by
  unfold expireWait
  rw [laterSignalTimestamp_eq_ok.2 ⟨hwait, hnow, rfl⟩]
  rfl

theorem matchWait_eq {wait : SignalWaitRecord} {signal : GameSignalRecord}
    (hwait : isCanonicalTimestamp wait.updatedAt = true)
    (hsignal : isCanonicalTimestamp signal.recordedAt = true) :
    matchWait signal wait = .ok (wait.wokenBy signal) := by
  unfold matchWait
  rw [laterSignalTimestamp_eq_ok.2 ⟨hwait, hsignal, rfl⟩]
  rfl

theorem mem_values_of_entry {e : SignalWaitKey × SignalWaitRecord}
    (h : e ∈ store.waits.entries) : e.2 ∈ store.waits.values :=
  List.mem_map_of_mem h

/-- A new signal, if it does not wake up too many waits, is stored and wakes them up. -/
theorem recordSignal_new
    (hwaits : ∀ wait ∈ store.waits.values, isCanonicalTimestamp wait.updatedAt = true)
    {draft : GameSignalDraft Decimal} (htimestamp : isCanonicalTimestamp draft.recordedAt = true)
    (hnew : store.signals.get? draft.key = none) :
    recordSignal draft maxMatches store =
      if maxMatches < (store.wakes (store.nextSignal draft)).length then
        .error .waitFanout store
      else .ok
        { signal := store.nextSignal draft
          matchedWaitIds := (store.wakes (store.nextSignal draft)).map fun e => e.2.waitId }
        (store.withSignal draft) := by
  have hwakes : ∀ e ∈ store.wakes (store.nextSignal draft), e ∈ store.waits.entries :=
    fun e he => (InMemorySignalStore.mem_wakes.1 he).1
  have hchange : ∀ e ∈ store.wakes (store.nextSignal draft),
      matchWait (store.nextSignal draft) e.2 = .ok (e.2.wokenBy (store.nextSignal draft)) :=
    fun e he => matchWait_eq (hwaits e.2 (mem_values_of_entry (hwakes e he))) htimestamp
  have hrewrite := rewriteWaits_eq_mapEntries (fun wait => wait.wokenBy (store.nextSignal draft))
    { store with
      nextSignalKey := store.nextSignalKey + 1
      signals := store.signals.set draft.key (store.nextSignal draft)
      signalFingerprints :=
        store.signalFingerprints.set draft.key (signalFingerprint draft) }
    rfl hchange hwakes nodup_sortWaits
  have hseen : (store.waits.mapEntries fun key wait =>
      if key ∈ (store.wakes (store.nextSignal draft)).map Prod.fst then
        wait.wokenBy (store.nextSignal draft) else wait) =
      store.waits.mapEntries fun _ wait => wait.see (store.nextSignal draft) := by
    refine OrderedMap.mapEntries_congr fun e he => ?_
    simp only [OrderedMap.mem_map_fst_iff hwakes he, InMemorySignalStore.mem_wakes, he, true_and,
      SignalWaitRecord.see, Bool.and_eq_true, decide_eq_true_eq]
  rw [hseen] at hrewrite
  rw [recordSignal, get_bind, hnew]
  show (if maxMatches < (store.wakes (store.nextSignal draft)).length then _ else _ :
    SignalProgram SignalRecordResult) store = _
  split
  · rfl
  · show EStateM.bind (rewriteWaits (matchWait (store.nextSignal draft)) _) _ _ = _
    unfold EStateM.bind
    rw [hrewrite]
    rfl

/-- A signal that is stored already is answered or in conflict, and nothing changes. -/
theorem recordSignal_stored (hsound : store.Sound maxMatches) {draft : GameSignalDraft Decimal}
    {existing : GameSignalRecord} (hstored : store.signals.get? draft.key = some existing) :
    recordSignal draft maxMatches store =
      if store.signalFingerprints.get? draft.key ≠ some (signalFingerprint draft) then
        .error .conflict store
      else .ok
        { signal := existing, matchedWaitIds := store.matchedWaitIds existing.signalKey } store := by
  rw [recordSignal, get_bind, hstored]
  show (if store.signalFingerprints.get? draft.key ≠ some (signalFingerprint draft) then _
    else if maxMatches < (store.matchedWaitIds existing.signalKey).length then _ else _ :
      SignalProgram SignalRecordResult) store = _
  rw [if_neg (not_lt.2 (hsound.fanout existing.signalKey))]
  split <;> rfl

/-- Whether the signal a new wait starts with has room for it. -/
def InMemorySignalStore.hasRoom (store : InMemorySignalStore) (draft : SignalWaitDraft Decimal)
    (maxMatches : Nat) : Bool :=
  (store.matchedSignal draft).all fun signal =>
    (store.matchedWaitIds signal.signalKey).length < maxMatches

/-- A new wait, if its signal has room for it, is stored with its signal. -/
theorem registerWait_new
    (hsignals : ∀ signal ∈ store.signals.values, isCanonicalTimestamp signal.recordedAt = true)
    {draft : SignalWaitDraft Decimal} (htimestamp : isCanonicalTimestamp draft.recordedAt = true)
    (hnew : store.waits.get? draft.key = none) :
    registerWait draft maxMatches store =
      if store.hasRoom draft maxMatches then
        .ok (store.nextWait draft (store.matchedSignal draft)) (store.withWait draft)
      else .error .waitFanout store := by
  unfold InMemorySignalStore.withWait InMemorySignalStore.hasRoom
  rw [registerWait, get_bind, hnew]
  dsimp only
  rcases Option.eq_none_or_eq_some (store.matchedSignal draft) with hmatched | ⟨signal, hmatched⟩
  · simp only [hmatched]
    rfl
  · have hmem := (InMemorySignalStore.matchedSignal_eq_some hmatched).1
    simp only [hmatched, Option.all_some, decide_eq_true_eq]
    rw [laterSignalTimestamp_eq_ok.2 ⟨htimestamp, hsignals signal hmem, rfl⟩]
    by_cases hroom : (store.matchedWaitIds signal.signalKey).length < maxMatches
    · rw [if_neg (not_le.2 hroom), if_pos hroom]
      rfl
    · rw [if_pos (not_lt.1 hroom), if_neg hroom]
      rfl

/-- A wait that is stored already is answered or in conflict, and nothing changes. -/
theorem registerWait_stored {draft : SignalWaitDraft Decimal} {existing : SignalWaitRecord}
    (hstored : store.waits.get? draft.key = some existing) :
    registerWait draft maxMatches store =
      if store.waitFingerprints.get? draft.key ≠ some (signalWaitFingerprint draft) then
        .error .waitConflict store
      else .ok existing store := by
  rw [registerWait, get_bind, hstored]
  show (if store.waitFingerprints.get? draft.key ≠ some (signalWaitFingerprint draft) then _
    else _ : SignalProgram SignalWaitRecord) store = _
  split <;> rfl

/-- A request changes the store as its method does, or throws and changes nothing. -/
abbrev Changes {α : Type} (program : SignalProgram α) (store : InMemorySignalStore)
    (maxMatches : Nat) : Prop :=
  Ends program store (fun _ next => next = store ∨ SignalChange maxMatches store next)
    fun _ next => next = store

theorem recordSignal_changes (hsound : store.Sound maxMatches) {draft : GameSignalDraft Decimal}
    (htimestamp : isCanonicalTimestamp draft.recordedAt = true) :
    Changes (recordSignal draft maxMatches) store maxMatches := by
  unfold Changes Ends
  rcases Option.eq_none_or_eq_some (store.signals.get? draft.key) with hnew | ⟨existing, hstored⟩
  · rw [recordSignal_new hsound.waitTimestamp htimestamp hnew]
    by_cases hfanout : maxMatches < (store.wakes (store.nextSignal draft)).length
    · rw [if_pos hfanout]
    · rw [if_neg hfanout]
      exact Or.inr (.recorded draft htimestamp hnew (not_lt.1 hfanout))
  · rw [recordSignal_stored hsound hstored]
    by_cases hconflict : store.signalFingerprints.get? draft.key ≠ some (signalFingerprint draft)
    · rw [if_pos hconflict]
    · rw [if_neg hconflict]
      exact Or.inl rfl

theorem registerWait_changes (hsound : store.Sound maxMatches) {draft : SignalWaitDraft Decimal}
    (htimestamp : isCanonicalTimestamp draft.recordedAt = true) :
    Changes (registerWait draft maxMatches) store maxMatches := by
  unfold Changes Ends
  rcases Option.eq_none_or_eq_some (store.waits.get? draft.key) with hnew | ⟨existing, hstored⟩
  · rw [registerWait_new hsound.signalTimestamp htimestamp hnew]
    by_cases hroom : store.hasRoom draft maxMatches = true
    · rw [if_pos hroom]
      refine Or.inr (.registered draft htimestamp hnew fun signal hsignal => ?_)
      unfold InMemorySignalStore.hasRoom at hroom
      simpa [hsignal] using hroom
    · rw [if_neg hroom]
  · rw [registerWait_stored hstored]
    by_cases hconflict :
        store.waitFingerprints.get? draft.key ≠ some (signalWaitFingerprint draft)
    · rw [if_pos hconflict]
    · rw [if_neg hconflict]
      exact Or.inl rfl

theorem findWait_changes {key : SignalWaitKey} {expectedRevision : Decimal} :
    Changes (findWait key expectedRevision) store maxMatches := by
  unfold Changes findWait
  simp only [ends_bind, ends_get]
  rcases Option.eq_none_or_eq_some (store.waits.get? key) with hnone | ⟨current, hcurrent⟩
  · simp only [hnone, ends_throw]
  · simp only [hcurrent]
    by_cases hrevision : current.revision ≠ expectedRevision
    · rw [if_pos hrevision]
      exact ends_throw.2 rfl
    · rw [if_neg hrevision]
      exact ends_pure.2 (Or.inl rfl)

theorem cancelWait_changes {key : SignalWaitKey} {expectedRevision : Decimal}
    {recordedAt : String} :
    Changes (cancelWait key expectedRevision recordedAt) store maxMatches := by
  unfold Changes cancelWait
  simp only [ends_bind, ends_get]
  rcases Option.eq_none_or_eq_some (store.waits.get? key) with hnone | ⟨current, hcurrent⟩
  · simp only [hnone, ends_throw]
  · simp only [hcurrent]
    by_cases hrevision : current.revision ≠ expectedRevision
    · rw [if_pos hrevision]
      exact ends_throw.2 rfl
    rw [if_neg hrevision]
    by_cases hstatus : current.status ≠ .waiting
    · rw [if_pos hstatus]
      exact ends_throw.2 rfl
    rw [if_neg hstatus, ends_bind, ends_attempt]
    refine ⟨fun updatedAt hlater => ?_, fun _ _ => rfl⟩
    rw [ends_bind, ends_set, ends_pure]
    obtain ⟨hwait, hnow, rfl⟩ := laterSignalTimestamp_eq_ok.1 hlater
    rw [OrderedMap.set_eq_mapEntries hcurrent]
    refine Or.inr (.closed _ fun other wait hother => ?_)
    by_cases hkey : other = key
    · subst hkey
      obtain rfl : current = wait := Option.some.inj (hcurrent.symm.trans hother)
      rw [if_pos rfl]
      exact Or.inr ⟨not_not.1 hstatus, rfl, rfl, Or.inl rfl, laterTimestamp_canonical hwait hnow⟩
    · rw [if_neg hkey]
      exact Or.inl rfl

theorem expireWaits_changes (hsound : store.Sound maxMatches) {partition : SignalGeneration}
    {throughTickInclusive : Decimal} {recordedAt : String} {limit : Nat}
    (htimestamp : isCanonicalTimestamp recordedAt = true) :
    Changes (expireWaits partition throughTickInclusive recordedAt limit) store maxMatches := by
  unfold Changes expireWaits
  rw [ends_bind, ends_get, ends_bind]
  generalize hselected : (sortWaits _).take limit = selected
  have hsub : selected.Sublist (sortWaits (store.waits.entries.filter fun e =>
      e.2.status = .waiting &&
        sameSignalGeneration e.2.partition.toScheduleGeneration partition &&
        e.2.selector.throughTickInclusive.any fun tick =>
          compareSignalTicks tick throughTickInclusive ≠ .gt)) :=
    hselected ▸ List.take_sublist _ _
  have hmem : ∀ e ∈ selected, e ∈ store.waits.entries ∧ e.2.status = .waiting := by
    intro e he
    obtain ⟨hstored, hp⟩ := mem_sortWaits.1 (hsub.subset he)
    simp only [Bool.and_eq_true, decide_eq_true_eq] at hp
    exact ⟨hstored, hp.1.1⟩
  have hcanonical : ∀ e ∈ selected, isCanonicalTimestamp e.2.updatedAt = true :=
    fun e he => hsound.waitTimestamp e.2 (mem_values_of_entry (hmem e he).1)
  have hrewrite := rewriteWaits_eq_mapEntries (fun wait => wait.expiredAt recordedAt) store rfl
    (fun e he => expireWait_eq (hcanonical e he) htimestamp) (fun e he => (hmem e he).1)
    (nodup_sortWaits.sublist (hsub.map Prod.fst))
  unfold Ends
  rw [hrewrite]
  refine Or.inr (.closed _ fun key wait hwait => ?_)
  have hentry := OrderedMap.get?_eq_some_iff.1 hwait
  by_cases hkey : key ∈ selected.map Prod.fst
  · have hin : (key, wait) ∈ selected :=
      (OrderedMap.mem_map_fst_iff (fun e he => (hmem e he).1) hentry).1 hkey
    rw [if_pos hkey]
    exact Or.inr ⟨(hmem _ hin).2, rfl, rfl, Or.inr rfl,
      laterTimestamp_canonical (hcanonical _ hin) htimestamp⟩
  · rw [if_neg hkey]
    exact Or.inl rfl

theorem purgeTerminalWaits_changes {partition : SignalGeneration} {beforeRecordedAt : String}
    {limit : Nat} :
    Changes (purgeTerminalWaits partition beforeRecordedAt limit) store maxMatches := by
  unfold Changes purgeTerminalWaits
  simp only [ends_bind, ends_get, ends_set, ends_pure, OrderedMap.foldl_delete_eq_filterKeys]
  refine Or.inr (.purgedWaits _ fun key hkey wait hwait => ?_)
  obtain ⟨e, he, rfl⟩ := List.mem_map.1 hkey
  obtain ⟨hstored, hp⟩ := mem_sortWaits.1 (List.take_subset _ _ he)
  obtain rfl : e.2 = wait :=
    Option.some.inj ((OrderedMap.get?_eq_some_iff.2 hstored).symm.trans hwait)
  simp only [Bool.and_eq_true, decide_eq_true_eq] at hp
  exact hp.1.1

theorem purgeSignals_changes {partition : SignalGeneration} {beforeRecordedAt : String}
    {limit : Nat} :
    Changes (purgeSignals partition beforeRecordedAt limit) store maxMatches := by
  unfold Changes purgeSignals
  simp only [ends_bind, ends_get, ends_set, ends_pure, OrderedMap.foldl_delete_eq_filterKeys]
  refine Or.inr (.purgedSignals _ fun key hkey signal hsignal wait hwait hreferenced => ?_)
  obtain ⟨e, he, rfl⟩ := List.mem_map.1 hkey
  obtain ⟨hstored, hp⟩ := List.mem_filter.1
    ((List.mem_insertionSort _).1 (List.take_subset _ _ he))
  obtain rfl : e.2 = signal :=
    Option.some.inj ((OrderedMap.get?_eq_some_iff.2 hstored).symm.trans hsignal)
  have hcontains : (store.waits.values.filterMap (·.matchedSignalKey)).contains e.2.signalKey =
      true :=
    List.contains_iff_mem.2 (List.mem_filterMap.2 ⟨wait, hwait, hreferenced⟩)
  rw [hcontains] at hp
  simp at hp

/-- **A request changes the store in one of five ways, or not at all when it fails.** -/
theorem signalStep_changes (hsound : store.Sound ctx.limits.maxWaitMatchesPerSignal)
    (request : SignalRequest) :
    Changes (request.run ctx) store ctx.limits.maxWaitMatchesPerSignal := by
  cases request with
  | record input =>
    refine ends_bind.2 (ends_attempt.2 ⟨fun draft hdraft => ?_, fun _ _ => rfl⟩)
    exact ends_bind.2 (recordSignal_changes hsound (normalizeGameSignal_recordedAt hdraft))
  | registerWait input =>
    refine ends_bind.2 (ends_attempt.2 ⟨fun draft hdraft => ?_, fun _ _ => rfl⟩)
    exact ends_bind.2 (registerWait_changes hsound (normalizeSignalWait_recordedAt hdraft))
  | findWait key expectedRevision recordedAt =>
    refine ends_bind.2 (ends_attempt.2 ⟨fun checked _ => ?_, fun _ _ => rfl⟩)
    exact ends_bind.2 findWait_changes
  | cancelWait key expectedRevision recordedAt =>
    refine ends_bind.2 (ends_attempt.2 ⟨fun checked _ => ?_, fun _ _ => rfl⟩)
    exact ends_bind.2 cancelWait_changes
  | expireWaits partition throughTickInclusive recordedAt limit =>
    refine ends_bind.2 (ends_attempt.2 ⟨fun checked hchecked => ?_, fun _ _ => rfl⟩)
    exact ends_bind.2 (expireWaits_changes hsound (validateExpireWaits_recordedAt hchecked))
  | purgeTerminalWaits partition beforeRecordedAt limit =>
    refine ends_bind.2 (ends_attempt.2 ⟨fun checked _ => ?_, fun _ _ => rfl⟩)
    exact ends_bind.2 purgeTerminalWaits_changes
  | purgeSignals partition beforeRecordedAt limit =>
    refine ends_bind.2 (ends_attempt.2 ⟨fun checked _ => ?_, fun _ _ => rfl⟩)
    exact ends_bind.2 purgeSignals_changes

/-! ## The invariant is kept -/

namespace SignalWaitRecord

theorem see_cases (wait : SignalWaitRecord) (signal : GameSignalRecord) :
    (wait.status = .waiting ∧ signalWaitMatches wait.toSignalWaitDraft signal = true ∧
      wait.see signal = wait.wokenBy signal) ∨
    (¬ (wait.status = .waiting ∧ signalWaitMatches wait.toSignalWaitDraft signal = true) ∧
      wait.see signal = wait) := by
  unfold see
  simp only [Bool.and_eq_true, decide_eq_true_eq]
  by_cases h : wait.status = .waiting ∧ signalWaitMatches wait.toSignalWaitDraft signal = true
  · exact Or.inl ⟨h.1, h.2, if_pos h⟩
  · exact Or.inr ⟨h, if_neg h⟩

@[simp] theorem see_draft (wait : SignalWaitRecord) (signal : GameSignalRecord) :
    (wait.see signal).toSignalWaitDraft = wait.toSignalWaitDraft := by
  unfold see
  split <;> rfl

end SignalWaitRecord

namespace InMemorySignalStore

theorem mem_signals_withSignal {draft : GameSignalDraft Decimal}
    (hnew : store.signals.get? draft.key = none) {signal : GameSignalRecord} :
    signal ∈ (store.withSignal draft).signals.values ↔
      signal ∈ store.signals.values ∨ signal = store.nextSignal draft := by
  show signal ∈ (store.signals.set draft.key _).values ↔ _
  rw [OrderedMap.values_set_of_get?_eq_none hnew, List.mem_append, List.mem_singleton]

theorem mem_waits_withSignal {draft : GameSignalDraft Decimal} {seen : SignalWaitRecord} :
    seen ∈ (store.withSignal draft).waits.values ↔
      ∃ wait ∈ store.waits.values, wait.see (store.nextSignal draft) = seen := by
  refine OrderedMap.mem_values_mapEntries.trans ?_
  constructor
  · rintro ⟨key, wait, hwait, hseen⟩
    exact ⟨wait, OrderedMap.mem_values.2 ⟨key, hwait⟩, hseen⟩
  · rintro ⟨wait, hwait, hseen⟩
    obtain ⟨key, hkey⟩ := OrderedMap.mem_values.1 hwait
    exact ⟨key, wait, hkey, hseen⟩

theorem mem_waits_withWait {draft : SignalWaitDraft Decimal}
    (hnew : store.waits.get? draft.key = none) {wait : SignalWaitRecord} :
    wait ∈ (store.withWait draft).waits.values ↔
      wait ∈ store.waits.values ∨ wait = store.nextWait draft (store.matchedSignal draft) := by
  show wait ∈ (store.waits.set draft.key _).values ↔ _
  rw [OrderedMap.values_set_of_get?_eq_none hnew, List.mem_append, List.mem_singleton]

namespace Sound

/-- A wait that names no signal has none. -/
theorem matchedSignalKey_eq_none (hsound : store.Sound maxMatches) {wait : SignalWaitRecord}
    (hwait : wait ∈ store.waits.values) (hstatus : wait.status ≠ .matched) :
    wait.matchedSignalKey = none := by
  rw [ne_eq, hsound.matchedKey wait hwait] at hstatus
  exact Option.not_isSome_iff_eq_none.1 hstatus

/-- A wait names only keys that were given out. -/
theorem lt_nextSignalKey (hsound : store.Sound maxMatches) {wait : SignalWaitRecord}
    (hwait : wait ∈ store.waits.values) {signalKey : Nat}
    (hkey : wait.matchedSignalKey = some signalKey) : signalKey < store.nextSignalKey := by
  obtain ⟨signal, hsignal, rfl, -, -⟩ := hsound.named wait hwait signalKey hkey
  exact hsound.signalBound signal hsignal

theorem length_matchedWaitIds_withSignal (hsound : store.Sound maxMatches)
    (draft : GameSignalDraft Decimal) (signalKey : Nat) :
    ((store.withSignal draft).matchedWaitIds signalKey).length =
      if signalKey = store.nextSignalKey then (store.wakes (store.nextSignal draft)).length
      else (store.matchedWaitIds signalKey).length := by
  simp only [length_matchedWaitIds, length_wakes]
  show ((store.waits.mapEntries fun _ wait => wait.see (store.nextSignal draft)).values).countP _
    = _
  rw [OrderedMap.values_mapEntries, List.countP_map]
  unfold OrderedMap.values
  rw [List.countP_map, List.countP_map]
  by_cases hnext : signalKey = store.nextSignalKey
  · rw [if_pos hnext]
    refine List.countP_congr fun e he => ?_
    have hwait := mem_values_of_entry he
    rcases e.2.see_cases (store.nextSignal draft) with ⟨hstatus, hmatches, hsee⟩ | ⟨hno, hsee⟩
    · have hwoken : (e.2.wokenBy (store.nextSignal draft)).matchedSignalKey = some signalKey :=
        congrArg some hnext.symm
      simp [hsee, hwoken, hstatus, hmatches]
    · have hkey : e.2.matchedSignalKey ≠ some signalKey := fun hkey =>
        absurd (hsound.lt_nextSignalKey hwait hkey) (by omega)
      simp only [Function.comp_apply, hsee, hkey, Bool.and_eq_true, decide_eq_true_eq, false_iff]
      exact hno
  · rw [if_neg hnext]
    refine List.countP_congr fun e he => ?_
    have hwait := mem_values_of_entry he
    rcases e.2.see_cases (store.nextSignal draft) with ⟨hstatus, hmatches, hsee⟩ | ⟨hno, hsee⟩
    · have hnone := hsound.matchedSignalKey_eq_none hwait (by rw [hstatus]; exact nofun)
      have hwoken : (e.2.wokenBy (store.nextSignal draft)).matchedSignalKey ≠ some signalKey :=
        fun hkey => hnext (Option.some.inj hkey).symm
      simp [hsee, hwoken, hnone]
    · simp [hsee]

/-- A new signal keeps the invariant. -/
theorem withSignal (hsound : store.Sound maxMatches) {draft : GameSignalDraft Decimal}
    (htimestamp : isCanonicalTimestamp draft.recordedAt = true)
    (hnew : store.signals.get? draft.key = none)
    (hfanout : (store.wakes (store.nextSignal draft)).length ≤ maxMatches) :
    (store.withSignal draft).Sound maxMatches where
  signalKeyed key signal h := by
    have h : (store.signals.set draft.key _).get? key = some signal := h
    rw [OrderedMap.get?_set] at h
    split at h
    · rename_i hkey
      obtain rfl := Option.some.inj h
      exact hkey
    · exact hsound.signalKeyed key signal h
  waitKeyed key wait h := by
    have h : (store.waits.mapEntries _).get? key = some wait := h
    rw [OrderedMap.get?_mapEntries, Option.map_eq_some_iff] at h
    obtain ⟨old, hold, rfl⟩ := h
    rw [SignalWaitRecord.see_draft]
    exact hsound.waitKeyed key old hold
  signalBound signal h := by
    rcases (mem_signals_withSignal hnew).1 h with h | rfl
    · exact Nat.lt_succ_of_lt (hsound.signalBound signal h)
    · exact Nat.lt_succ_self _
  signalUnique left hleft right hright hkey := by
    rcases (mem_signals_withSignal hnew).1 hleft with hleft | rfl <;>
      rcases (mem_signals_withSignal hnew).1 hright with hright | rfl
    · exact hsound.signalUnique left hleft right hright hkey
    · exact absurd hkey (hsound.signalBound left hleft).ne
    · exact absurd hkey (hsound.signalBound right hright).ne'
    · rfl
  signalTimestamp signal h := by
    rcases (mem_signals_withSignal hnew).1 h with h | rfl
    · exact hsound.signalTimestamp signal h
    · exact htimestamp
  waitTimestamp wait h := by
    obtain ⟨old, hold, rfl⟩ := mem_waits_withSignal.1 h
    rcases old.see_cases (store.nextSignal draft) with ⟨-, -, hsee⟩ | ⟨-, hsee⟩
    · rw [hsee]
      exact laterTimestamp_canonical (hsound.waitTimestamp old hold) htimestamp
    · rw [hsee]
      exact hsound.waitTimestamp old hold
  unmatched wait h hwaiting signal hsignal := by
    obtain ⟨old, hold, rfl⟩ := mem_waits_withSignal.1 h
    rcases old.see_cases (store.nextSignal draft) with ⟨-, -, hsee⟩ | ⟨hno, hsee⟩
    · rw [hsee] at hwaiting
      cases hwaiting
    · rw [hsee] at hwaiting ⊢
      rcases (mem_signals_withSignal hnew).1 hsignal with hsignal | rfl
      · exact hsound.unmatched old hold hwaiting signal hsignal
      · exact Bool.eq_false_iff.2 fun hmatches => hno ⟨hwaiting, hmatches⟩
  matchedKey wait h := by
    obtain ⟨old, hold, rfl⟩ := mem_waits_withSignal.1 h
    rcases old.see_cases (store.nextSignal draft) with ⟨-, -, hsee⟩ | ⟨-, hsee⟩
    · rw [hsee]
      exact iff_of_true rfl rfl
    · rw [hsee]
      exact hsound.matchedKey old hold
  named wait h signalKey hkey := by
    obtain ⟨old, hold, rfl⟩ := mem_waits_withSignal.1 h
    rw [SignalWaitRecord.see_draft]
    rcases old.see_cases (store.nextSignal draft) with ⟨hwaiting, hmatches, hsee⟩ | ⟨-, hsee⟩
    · rw [hsee] at hkey
      obtain rfl := Option.some.inj hkey
      refine ⟨_, (mem_signals_withSignal hnew).2 (Or.inr rfl), rfl, hmatches, ?_⟩
      intro other hother hmatches
      rcases (mem_signals_withSignal hnew).1 hother with hother | rfl
      · rw [hsound.unmatched old hold hwaiting other hother] at hmatches
        cases hmatches
      · exact le_refl _
    · rw [hsee] at hkey
      obtain ⟨signal, hsignal, hsame, hmatches, hleast⟩ := hsound.named old hold signalKey hkey
      refine ⟨signal, (mem_signals_withSignal hnew).2 (Or.inl hsignal), hsame, hmatches, ?_⟩
      intro other hother hmatches
      rcases (mem_signals_withSignal hnew).1 hother with hother | rfl
      · exact hleast other hother hmatches
      · exact (hsound.lt_nextSignalKey hold hkey).le
  fanout signalKey := by
    rw [hsound.length_matchedWaitIds_withSignal]
    split
    · exact hfanout
    · exact hsound.fanout signalKey

theorem length_matchedWaitIds_withWait {draft : SignalWaitDraft Decimal}
    (hnew : store.waits.get? draft.key = none) (signalKey : Nat) :
    ((store.withWait draft).matchedWaitIds signalKey).length =
      (store.matchedWaitIds signalKey).length +
        if (store.matchedSignal draft).map (·.signalKey) = some signalKey then 1 else 0 := by
  simp only [length_matchedWaitIds]
  show ((store.waits.set draft.key _).values).countP _ = _
  rw [OrderedMap.values_set_of_get?_eq_none hnew, List.countP_append, List.countP_singleton]
  simp [nextWait]

/-- A new wait keeps the invariant. -/
theorem withWait (hsound : store.Sound maxMatches) {draft : SignalWaitDraft Decimal}
    (htimestamp : isCanonicalTimestamp draft.recordedAt = true)
    (hnew : store.waits.get? draft.key = none)
    (hroom : ∀ signal, store.matchedSignal draft = some signal →
      (store.matchedWaitIds signal.signalKey).length < maxMatches) :
    (store.withWait draft).Sound maxMatches where
  signalKeyed := hsound.signalKeyed
  waitKeyed key wait h := by
    have h : (store.waits.set draft.key _).get? key = some wait := h
    rw [OrderedMap.get?_set] at h
    split at h
    · rename_i hkey
      obtain rfl := Option.some.inj h
      exact hkey
    · exact hsound.waitKeyed key wait h
  signalBound := hsound.signalBound
  signalUnique := hsound.signalUnique
  signalTimestamp := hsound.signalTimestamp
  waitTimestamp wait h := by
    rcases (mem_waits_withWait hnew).1 h with h | rfl
    · exact hsound.waitTimestamp wait h
    · rcases Option.eq_none_or_eq_some (store.matchedSignal draft) with hnone | ⟨signal, hsome⟩
      · simpa only [nextWait, hnone] using htimestamp
      · have hsignal := hsound.signalTimestamp signal (matchedSignal_eq_some hsome).1
        simpa only [nextWait, hsome] using laterTimestamp_canonical htimestamp hsignal
  unmatched wait h hwaiting signal hsignal := by
    rcases (mem_waits_withWait hnew).1 h with h | rfl
    · exact hsound.unmatched wait h hwaiting signal hsignal
    · rcases Option.eq_none_or_eq_some (store.matchedSignal draft) with hnone | ⟨other, hsome⟩
      · exact matchedSignal_eq_none.1 hnone signal hsignal
      · simp [nextWait, hsome] at hwaiting
  matchedKey wait h := by
    rcases (mem_waits_withWait hnew).1 h with h | rfl
    · exact hsound.matchedKey wait h
    · cases store.matchedSignal draft <;> simp [nextWait]
  named wait h signalKey hkey := by
    rcases (mem_waits_withWait hnew).1 h with h | rfl
    · exact hsound.named wait h signalKey hkey
    · obtain ⟨signal, hsome, rfl⟩ := Option.map_eq_some_iff.1 hkey
      obtain ⟨hsignal, hmatches, hleast⟩ := matchedSignal_eq_some hsome
      exact ⟨signal, hsignal, rfl, hmatches, hleast⟩
  fanout signalKey := by
    rw [length_matchedWaitIds_withWait hnew]
    split
    · rename_i hkey
      obtain ⟨signal, hsome, rfl⟩ := Option.map_eq_some_iff.1 hkey
      exact hroom signal hsome
    · exact hsound.fanout signalKey

/-- Cancelling and expiring waits keeps the invariant. -/
theorem closed (hsound : store.Sound maxMatches)
    {f : SignalWaitKey → SignalWaitRecord → SignalWaitRecord}
    (hcloses : ∀ key wait, store.waits.get? key = some wait →
      f key wait = wait ∨ wait.Closes (f key wait)) :
    Sound maxMatches { store with waits := store.waits.mapEntries f } := by
  have hmem : ∀ closed ∈ (store.waits.mapEntries f).values, ∃ wait ∈ store.waits.values,
      closed = wait ∨ wait.Closes closed := by
    intro closed h
    obtain ⟨key, wait, hwait, rfl⟩ := OrderedMap.mem_values_mapEntries.1 h
    exact ⟨wait, OrderedMap.mem_values.2 ⟨key, hwait⟩, hcloses key wait hwait⟩
  constructor
  case signalKeyed => exact hsound.signalKeyed
  case signalBound => exact hsound.signalBound
  case signalUnique => exact hsound.signalUnique
  case signalTimestamp => exact hsound.signalTimestamp
  case waitKeyed =>
    intro key closed h
    have h : (store.waits.mapEntries f).get? key = some closed := h
    rw [OrderedMap.get?_mapEntries, Option.map_eq_some_iff] at h
    obtain ⟨wait, hwait, rfl⟩ := h
    rcases hcloses key wait hwait with heq | hclose
    · rw [heq]
      exact hsound.waitKeyed key wait hwait
    · rw [hclose.draft]
      exact hsound.waitKeyed key wait hwait
  case waitTimestamp =>
    intro closed h
    obtain ⟨wait, hwait, rfl | hclose⟩ := hmem closed h
    · exact hsound.waitTimestamp closed hwait
    · exact hclose.updatedAt
  case unmatched =>
    intro closed h hwaiting
    obtain ⟨wait, hwait, rfl | hclose⟩ := hmem closed h
    · exact hsound.unmatched closed hwait hwaiting
    · rcases hclose.status with hstatus | hstatus <;> rw [hstatus] at hwaiting <;> cases hwaiting
  case matchedKey =>
    intro closed h
    obtain ⟨wait, hwait, rfl | hclose⟩ := hmem closed h
    · exact hsound.matchedKey closed hwait
    · have hnone := hsound.matchedSignalKey_eq_none hwait (by rw [hclose.waiting]; exact nofun)
      rw [hclose.matchedSignalKey, hnone]
      rcases hclose.status with hstatus | hstatus <;> simp [hstatus]
  case named =>
    intro closed h signalKey hkey
    obtain ⟨wait, hwait, rfl | hclose⟩ := hmem closed h
    · exact hsound.named closed hwait signalKey hkey
    · rw [hclose.draft]
      exact hsound.named wait hwait signalKey (hclose.matchedSignalKey ▸ hkey)
  case fanout =>
    intro signalKey
    have hcount : (matchedWaitIds { store with waits := store.waits.mapEntries f }
        signalKey).length = (store.matchedWaitIds signalKey).length := by
      simp only [length_matchedWaitIds, OrderedMap.values_mapEntries]
      simp only [OrderedMap.values, List.countP_map]
      refine List.countP_congr fun e he => ?_
      rcases hcloses e.1 e.2 (OrderedMap.get?_eq_some_iff.2 he) with heq | hclose
      · simp only [Function.comp_apply, heq]
      · simp only [Function.comp_apply, hclose.matchedSignalKey]
    rw [hcount]
    exact hsound.fanout signalKey

/-- Purging waits keeps the invariant. -/
theorem purgedWaits (hsound : store.Sound maxMatches) (keys : List SignalWaitKey) :
    Sound maxMatches { store with
      waits := store.waits.filterKeys fun key => key ∉ keys
      waitFingerprints := store.waitFingerprints.filterKeys fun key => key ∉ keys } := by
  have hmem : ∀ wait ∈ (store.waits.filterKeys fun key => key ∉ keys).values,
      wait ∈ store.waits.values := by
    intro wait h
    obtain ⟨key, -, hwait⟩ := OrderedMap.mem_values_filterKeys.1 h
    exact OrderedMap.mem_values.2 ⟨key, hwait⟩
  constructor
  case signalKeyed => exact hsound.signalKeyed
  case signalBound => exact hsound.signalBound
  case signalUnique => exact hsound.signalUnique
  case signalTimestamp => exact hsound.signalTimestamp
  case waitKeyed =>
    intro key wait h
    exact hsound.waitKeyed key wait (OrderedMap.get?_filterKeys_eq_some.1 h).2
  case waitTimestamp => exact fun wait h => hsound.waitTimestamp wait (hmem wait h)
  case unmatched => exact fun wait h => hsound.unmatched wait (hmem wait h)
  case matchedKey => exact fun wait h => hsound.matchedKey wait (hmem wait h)
  case named => exact fun wait h => hsound.named wait (hmem wait h)
  case fanout =>
    intro signalKey
    refine le_trans ?_ (hsound.fanout signalKey)
    rw [length_matchedWaitIds, length_matchedWaitIds]
    exact (List.filter_sublist.map Prod.snd).countP_le

/-- Purging signals that no wait names keeps the invariant. -/
theorem purgedSignals (hsound : store.Sound maxMatches) {keys : List GameSignalKey}
    (hunreferenced : ∀ key ∈ keys, ∀ signal, store.signals.get? key = some signal →
      ∀ wait ∈ store.waits.values, wait.matchedSignalKey ≠ some signal.signalKey) :
    Sound maxMatches { store with
      signals := store.signals.filterKeys fun key => key ∉ keys
      signalFingerprints := store.signalFingerprints.filterKeys fun key => key ∉ keys } := by
  have hmem : ∀ signal ∈ (store.signals.filterKeys fun key => key ∉ keys).values,
      signal ∈ store.signals.values := by
    intro signal h
    obtain ⟨key, -, hsignal⟩ := OrderedMap.mem_values_filterKeys.1 h
    exact OrderedMap.mem_values.2 ⟨key, hsignal⟩
  constructor
  case signalKeyed =>
    intro key signal h
    exact hsound.signalKeyed key signal (OrderedMap.get?_filterKeys_eq_some.1 h).2
  case signalBound => exact fun signal h => hsound.signalBound signal (hmem signal h)
  case signalUnique =>
    exact fun left hleft right hright =>
      hsound.signalUnique left (hmem left hleft) right (hmem right hright)
  case signalTimestamp => exact fun signal h => hsound.signalTimestamp signal (hmem signal h)
  case waitKeyed => exact hsound.waitKeyed
  case waitTimestamp => exact hsound.waitTimestamp
  case unmatched =>
    exact fun wait h hwaiting signal hsignal =>
      hsound.unmatched wait h hwaiting signal (hmem signal hsignal)
  case matchedKey => exact hsound.matchedKey
  case named =>
    intro wait h signalKey hkey
    obtain ⟨signal, hsignal, rfl, hmatches, hleast⟩ := hsound.named wait h signalKey hkey
    obtain ⟨key, hstored⟩ := OrderedMap.mem_values.1 hsignal
    have hkept : key ∉ keys := fun hin => hunreferenced key hin signal hstored wait h hkey
    exact ⟨signal, OrderedMap.mem_values_filterKeys.2 ⟨key, decide_eq_true hkept, hstored⟩, rfl,
      hmatches, fun other hother => hleast other (hmem other hother)⟩
  case fanout => exact hsound.fanout

/-- **Every change keeps the invariant.** -/
theorem change (hsound : store.Sound maxMatches) (h : SignalChange maxMatches store next) :
    next.Sound maxMatches := by
  cases h with
  | recorded draft timestamp new fanout => exact hsound.withSignal timestamp new fanout
  | registered draft timestamp new fanout => exact hsound.withWait timestamp new fanout
  | closed f closes => exact hsound.closed closes
  | purgedWaits keys _ => exact hsound.purgedWaits keys
  | purgedSignals keys unreferenced => exact hsound.purgedSignals unreferenced

end Sound

end InMemorySignalStore

end OpenGameAgent
