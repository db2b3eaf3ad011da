import Mathlib.Order.Bounds.Basic
import OpenGameAgent.Runtime.InMemoryEventStore

/-!
# The longest prefix of finished runs

What the loop of `terminalPrefix` finds (`packages/runtime/src/in-memory-event-store.ts`).
The loop compares the number of runs it has seen with the number of runs it has seen end;
runs may interleave and end more than once.

* `Finished` — every run of a list of events ends in it, early enough, and none is retained.
* `Scanned` — the invariant of the loop, and `Scanned.push` its step.
* `terminalPrefix_isGreatest` — the loop finds the longest finished prefix.
-/

namespace OpenGameAgent

/-- The event ends its run. -/
def CanonicalEvent.isTerminal (event : CanonicalEvent) : Bool :=
  match event.data with
  | .runCompleted _ => true
  | _ => false

/-- The run an event belongs to. -/
abbrev CanonicalEvent.run (event : CanonicalEvent) : String := event.coordinate.runId

/-- No event is of a retained run or ends its run too late. -/
structure Removable (request : TerminalEventPurgeRequest) (events : List CanonicalEvent) :
    Prop where
  free : ∀ event ∈ events, event.run ∉ request.retainRunIds
  old : ∀ event ∈ events, event.isTerminal = true → event.occurredAt < request.beforeOccurredAt

/-- Moreover every run ends. -/
structure Finished (request : TerminalEventPurgeRequest) (events : List CanonicalEvent) : Prop
    extends Removable request events where
  ends : ∀ event ∈ events, ∃ last ∈ events, last.isTerminal = true ∧ last.run = event.run

/-- The lengths of the finished prefixes of a list of events. -/
def finishedPrefixes (request : TerminalEventPurgeRequest) (events : List CanonicalEvent) :
    Set Nat :=
  {n | n ≤ events.length ∧ Finished request (events.take n)}

/-- The runs are those of some events, each once. -/
structure RunsOf (runs : List String) (events : List CanonicalEvent) : Prop where
  nodup : runs.Nodup
  mem_iff : ∀ runId, runId ∈ runs ↔ ∃ event ∈ events, event.run = runId

section Prefixes

variable {request : TerminalEventPurgeRequest} {events done rest : List CanonicalEvent}
  {event : CanonicalEvent} {runs : List String}

theorem finished_nil (request : TerminalEventPurgeRequest) : Finished request [] where
  free := by simp
  old := by simp
  ends := by simp

theorem runsOf_nil : RunsOf [] [] := ⟨List.nodup_nil, by simp⟩

theorem mem_addRun {runId other : String} :
    other ∈ addRun runs runId ↔ other ∈ runs ∨ other = runId := by
  unfold addRun
  by_cases h : runs.contains runId = true
  · have hmem : runId ∈ runs := by simpa using h
    rw [if_pos h]
    constructor
    · exact Or.inl
    · rintro (h' | rfl)
      · exact h'
      · exact hmem
  · rw [if_neg h, List.mem_append, List.mem_singleton]

theorem nodup_addRun {runId : String} (h : runs.Nodup) : (addRun runs runId).Nodup := by
  unfold addRun
  by_cases hmem : runs.contains runId = true
  · rwa [if_pos hmem]
  · rw [if_neg hmem]
    apply List.Nodup.append h (List.nodup_singleton _)
    simpa using hmem

theorem RunsOf.add (h : RunsOf runs events) (event : CanonicalEvent) :
    RunsOf (addRun runs event.run) (events ++ [event]) := by
  refine ⟨nodup_addRun h.nodup, fun runId => ?_⟩
  rw [mem_addRun, h.mem_iff]
  simp [or_and_right, exists_or, eq_comm]

theorem Removable.push (h : Removable request events)
    (hfree : event.run ∉ request.retainRunIds)
    (hold : event.isTerminal = true → event.occurredAt < request.beforeOccurredAt) :
    Removable request (events ++ [event]) := by
  constructor
  · intro other hother
    rcases List.mem_append.1 hother with hother | hother
    · exact h.free other hother
    · rw [List.mem_singleton.1 hother]
      exact hfree
  · intro other hother
    rcases List.mem_append.1 hother with hother | hother
    · exact h.old other hother
    · rw [List.mem_singleton.1 hother]
      exact hold

theorem take_of_le {n : Nat} (h : n ≤ done.length) : (done ++ rest).take n = done.take n :=
  List.take_append_of_le_length h

/-- A prefix that reaches an event contains it. -/
theorem mem_take_of_lt {n : Nat} (h : done.length < n) :
    event ∈ (done ++ event :: rest).take n := by
  rw [List.take_append, List.mem_append]
  right
  obtain ⟨k, hk⟩ : ∃ k, n - done.length = k + 1 := ⟨n - done.length - 1, by omega⟩
  rw [hk, List.take_succ_cons]
  exact List.mem_cons_self ..

/-- Behind an event that must not be removed no prefix is finished. -/
theorem isGreatest_of_stop {n : Nat} (h : IsGreatest (finishedPrefixes request done) n)
    (hstop : ∀ prefixed, event ∈ prefixed → ¬ Removable request prefixed) :
    IsGreatest (finishedPrefixes request (done ++ event :: rest)) n := by
  obtain ⟨⟨hle, hfinished⟩, hgreatest⟩ := h
  refine ⟨⟨?_, ?_⟩, ?_⟩
  · rw [List.length_append]
    omega
  · rwa [take_of_le hle]
  · rintro m ⟨hm, hmfinished⟩
    by_cases hlong : done.length < m
    · exact absurd hmfinished.toRemovable (hstop _ (mem_take_of_lt hlong))
    · have hshort : m ≤ done.length := Nat.le_of_not_lt hlong
      rw [take_of_le hshort] at hmfinished
      exact hgreatest ⟨hshort, hmfinished⟩

/-- One more event makes a new longest prefix exactly when the whole list is finished. -/
theorem isGreatest_push {n : Nat} (h : IsGreatest (finishedPrefixes request done) n) :
    (Finished request (done ++ [event]) →
      IsGreatest (finishedPrefixes request (done ++ [event])) (done.length + 1)) ∧
    (¬ Finished request (done ++ [event]) →
      IsGreatest (finishedPrefixes request (done ++ [event])) n) := by
  have hlength : (done ++ [event]).length = done.length + 1 := by simp
  have hwhole : (done ++ [event]).take (done.length + 1) = done ++ [event] := by
    rw [← hlength, List.take_length]
  constructor
  · intro hfinished
    refine ⟨⟨hlength.ge, ?_⟩, fun m hm => hlength ▸ hm.1⟩
    rwa [hwhole]
  · intro hfinished
    obtain ⟨⟨hle, hprefix⟩, hgreatest⟩ := h
    refine ⟨⟨by omega, ?_⟩, ?_⟩
    · rwa [take_of_le hle]
    · rintro m ⟨hm, hmfinished⟩
      by_cases hlong : m = done.length + 1
      · subst hlong
        rw [hwhole] at hmfinished
        exact absurd hmfinished hfinished
      · have hshort : m ≤ done.length := by omega
        rw [take_of_le hshort] at hmfinished
        exact hgreatest ⟨hshort, hmfinished⟩

end Prefixes

/-! ## The loop -/

/-- The variables of the loop after the events `done`. -/
structure Scanned (request : TerminalEventPurgeRequest) (done : List CanonicalEvent)
    (seen terminal : List String) (found : Nat × List String) : Prop where
  removable : Removable request done
  seen : RunsOf seen done
  terminal : RunsOf terminal (done.filter CanonicalEvent.isTerminal)
  greatest : IsGreatest (finishedPrefixes request done) found.1
  runs : RunsOf found.2 (done.take found.1)

section Loop

variable {request : TerminalEventPurgeRequest} {done rest : List CanonicalEvent}
  {seen terminal : List String} {found : Nat × List String} {event : CanonicalEvent}

theorem scanned_nil (request : TerminalEventPurgeRequest) :
    Scanned request [] [] [] (0, []) where
  removable := (finished_nil request).toRemovable
  seen := runsOf_nil
  terminal := runsOf_nil
  greatest := ⟨⟨Nat.le_refl 0, finished_nil request⟩, fun _ hn => hn.1⟩
  runs := runsOf_nil

/-- The terminal runs are all runs seen exactly when there are as many. -/
theorem length_eq_iff_finished (hremovable : Removable request done) (hseen : RunsOf seen done)
    (hterminal : RunsOf terminal (done.filter CanonicalEvent.isTerminal)) :
    seen.length = terminal.length ↔ Finished request done := by
  have hsub : terminal ⊆ seen := by
    intro runId hrunId
    obtain ⟨event, hevent, hrun⟩ := (hterminal.mem_iff runId).1 hrunId
    exact (hseen.mem_iff runId).2 ⟨event, (List.mem_filter.1 hevent).1, hrun⟩
  have hsubperm : terminal.Subperm seen := List.subperm_of_subset hterminal.nodup hsub
  constructor
  · intro hlength
    have hperm := hsubperm.perm_of_length_le hlength.le
    refine ⟨hremovable, fun event hevent => ?_⟩
    have hrun : event.run ∈ terminal :=
      hperm.mem_iff.2 ((hseen.mem_iff _).2 ⟨event, hevent, rfl⟩)
    obtain ⟨last, hlast, hsame⟩ := (hterminal.mem_iff _).1 hrun
    obtain ⟨hmem, hends⟩ := List.mem_filter.1 hlast
    exact ⟨last, hmem, hends, hsame⟩
  · intro hfinished
    refine Nat.le_antisymm ?_ hsubperm.length_le
    refine (List.subperm_of_subset hseen.nodup ?_).length_le
    intro runId hrunId
    obtain ⟨event, hevent, rfl⟩ := (hseen.mem_iff runId).1 hrunId
    obtain ⟨last, hlast, hends, hsame⟩ := hfinished.ends event hevent
    exact (hterminal.mem_iff _).2 ⟨last, List.mem_filter.2 ⟨hlast, hends⟩, hsame⟩

/-- The loop on an event that does not stop it. -/
theorem terminalPrefixLoop_cons (index : Nat) :
    terminalPrefixLoop request seen terminal index found (event :: rest) =
      if request.retainRunIds.contains event.run then found
      else if event.isTerminal = true ∧ request.beforeOccurredAt ≤ event.occurredAt then found
      else
        let seen := addRun seen event.run
        let terminal := if event.isTerminal then addRun terminal event.run else terminal
        terminalPrefixLoop request seen terminal (index + 1)
          (if seen.length = terminal.length then (index + 1, seen) else found) rest := by
  rw [terminalPrefixLoop]
  unfold CanonicalEvent.isTerminal
  cases event.data <;> simp

/-- What reading one event does to the variables. -/
theorem Scanned.push (h : Scanned request done seen terminal found)
    (hfree : event.run ∉ request.retainRunIds)
    (hold : event.isTerminal = true → event.occurredAt < request.beforeOccurredAt) :
    let seen := addRun seen event.run
    let terminal := if event.isTerminal then addRun terminal event.run else terminal
    Scanned request (done ++ [event]) seen terminal
      (if seen.length = terminal.length then (done.length + 1, seen) else found) := by
  intro seen' terminal'
  have hremovable := h.removable.push hfree hold
  have hseen : RunsOf seen' (done ++ [event]) := h.seen.add event
  have hterminal : RunsOf terminal' ((done ++ [event]).filter CanonicalEvent.isTerminal) := by
    by_cases hends : event.isTerminal = true
    · rw [show terminal' = addRun terminal event.run from if_pos hends, List.filter_append,
        List.filter_cons_of_pos hends]
      exact h.terminal.add event
    · rw [show terminal' = terminal from if_neg hends, List.filter_append,
        List.filter_cons_of_neg hends, List.filter_nil, List.append_nil]
      exact h.terminal
  have hlength := length_eq_iff_finished hremovable hseen hterminal
  refine ⟨hremovable, hseen, hterminal, ?_, ?_⟩
  · by_cases hall : seen'.length = terminal'.length
    · rw [if_pos hall]
      exact (isGreatest_push h.greatest).1 (hlength.1 hall)
    · rw [if_neg hall]
      exact (isGreatest_push h.greatest).2 fun hfinished => hall (hlength.2 hfinished)
  · by_cases hall : seen'.length = terminal'.length
    · rw [if_pos hall, List.take_of_length_le (by simp)]
      exact hseen
    · rw [if_neg hall, take_of_le h.greatest.1.1]
      exact h.runs

/-- The loop finds the longest finished prefix of all events, and its runs. -/
theorem terminalPrefixLoop_spec (h : Scanned request done seen terminal found) :
    IsGreatest (finishedPrefixes request (done ++ rest))
        (terminalPrefixLoop request seen terminal done.length found rest).1 ∧
      RunsOf (terminalPrefixLoop request seen terminal done.length found rest).2
        ((done ++ rest).take
          (terminalPrefixLoop request seen terminal done.length found rest).1) := by
  induction rest generalizing done seen terminal found with
  | nil =>
    rw [List.append_nil]
    exact ⟨h.greatest, h.runs⟩
  | cons event rest ih =>
    have hstopped : (∀ prefixed, event ∈ prefixed → ¬ Removable request prefixed) →
        IsGreatest (finishedPrefixes request (done ++ event :: rest)) found.1 ∧
          RunsOf found.2 ((done ++ event :: rest).take found.1) := by
      intro hstop
      refine ⟨isGreatest_of_stop h.greatest hstop, ?_⟩
      rw [take_of_le h.greatest.1.1]
      exact h.runs
    rw [terminalPrefixLoop_cons]
    by_cases hretained : request.retainRunIds.contains event.run = true
    · rw [if_pos hretained]
      apply hstopped
      intro prefixed hevent hremovable
      exact hremovable.free event hevent (by simpa using hretained)
    · rw [if_neg hretained]
      by_cases hlate : event.isTerminal = true ∧ request.beforeOccurredAt ≤ event.occurredAt
      · rw [if_pos hlate]
        apply hstopped
        intro prefixed hevent hremovable
        exact absurd (hremovable.old event hevent hlate.1) (not_lt.2 hlate.2)
      · rw [if_neg hlate]
        have hfree : event.run ∉ request.retainRunIds := by simpa using hretained
        have hrest := ih (h.push hfree fun hends => not_le.1 fun hle => hlate ⟨hends, hle⟩)
        rw [List.length_append, List.length_singleton, List.append_assoc,
          List.singleton_append] at hrest
        exact hrest

end Loop

/-- How many events a purge may remove: the lengths within the limit at which every run seen
has ended early enough, with no retained run and no recent end before. -/
def purgeable (request : TerminalEventPurgeRequest) (events : List CanonicalEvent) : Set Nat :=
  {n | n ≤ request.limit ∧ n ≤ events.length ∧ Finished request (events.take n)}

theorem finishedPrefixes_take (request : TerminalEventPurgeRequest) (events : List CanonicalEvent) :
    finishedPrefixes request (events.take request.limit) = purgeable request events := by
  ext n
  unfold finishedPrefixes purgeable
  simp only [Set.mem_ofPred_eq, List.length_take, Nat.le_min, List.take_take, and_assoc]
  constructor
  · rintro ⟨hlimit, hlength, hfinished⟩
    rw [Nat.min_eq_left hlimit] at hfinished
    exact ⟨hlimit, hlength, hfinished⟩
  · rintro ⟨hlimit, hlength, hfinished⟩
    rw [Nat.min_eq_left hlimit]
    exact ⟨hlimit, hlength, hfinished⟩

/-- `terminalPrefix` finds the longest prefix a purge may remove, and its runs. -/
theorem terminalPrefix_isGreatest (request : TerminalEventPurgeRequest)
    (events : List CanonicalEvent) :
    IsGreatest (purgeable request events)
        (terminalPrefix (events.take request.limit) request).1 ∧
      RunsOf (terminalPrefix (events.take request.limit) request).2
        (events.take (terminalPrefix (events.take request.limit) request).1) := by
  have hloop := @terminalPrefixLoop_spec request [] (events.take request.limit) [] [] (0, [])
    (scanned_nil request)
  obtain ⟨hgreatest, hruns⟩ := hloop
  rw [List.nil_append, finishedPrefixes_take] at hgreatest
  rw [List.nil_append, List.take_take, Nat.min_eq_left hgreatest.1.1] at hruns
  exact ⟨hgreatest, hruns⟩

end OpenGameAgent
