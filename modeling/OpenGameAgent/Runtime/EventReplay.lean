import OpenGameAgent.Storage.EventStores

/-!
# Replaying events

`replayEvents` of `packages/runtime/src/runtime.ts`, and a client that follows its cursors.

The method reads the bounds of a stream and then a page of it, in two calls of the store
between which other calls may run, so it has one state for each.  A client's run is a list
of rounds; a round says which calls the store answers before the bounds are read and which
between the bounds and the page.

* `StartsBy` — the oldest event still held is not beyond the one that is asked for.
* `consecutive_iff` — a page goes on from the cursor exactly when the stream does, at the
  time the page is read.
* `ReplayClient.Sound` — what a client has received is one segment of what was appended.
-/

namespace OpenGameAgent

/-! ## The method -/

/-- `CanonicalEventReplay`. -/
inductive CanonicalEventReplay where
  | page (requestedAfterRevision : String) (page : CanonicalEventPage)
  | gap (requestedAfterRevision : String) (earliestAvailableRevision : Option String)
      (nextAfterRevision : String)

/-- The test of `replayEvents` on the bounds. -/
def isReplayGap (requested latest : Nat) (earliest : Option Nat) : Bool :=
  decide (latest < requested) ||
    match earliest with
    | none => decide (requested < latest)
    | some first => decide (requested + 1 < first)

def parseEarliest : Option String → Except EventError (Option Nat)
  | none => .ok none
  | some text => some <$> parseEventRevision text

section Replay

variable (store : CanonicalEventStore) (registered : StreamKey → Bool)

/-- `replayEvents`, on the states in which the bounds and the page are read. -/
def replayEvents (stream : StreamKey) (request : EventReadRequest)
    (atBounds atPage : store.State) : Except EventError CanonicalEventReplay :=
  if registered stream then do
    let requestedAfterRevision := request.afterRevision.getD "0"
    let requested ← parseEventRevision requestedAfterRevision
    let bounds ← store.readBounds atBounds stream
    let latest ← parseEventRevision bounds.latestRevision
    let earliest ← parseEarliest bounds.earliestRevision
    if isReplayGap requested latest earliest then
      return .gap requestedAfterRevision bounds.earliestRevision bounds.latestRevision
    else do
      let page ← store.read atPage stream ⟨some requestedAfterRevision, request.limit⟩
      return .page requestedAfterRevision page
  else .error .actorNotRegistered

/-- The test on the bounds is whether the stream serves the cursor. -/
theorem isReplayGap_iff (log : RetainedLog CanonicalEvent) (requested : Nat) :
    isReplayGap requested log.head log.earliest = true ↔ ¬ log.Serves requested := by
  rw [RetainedLog.serves_iff, not_not]
  unfold isReplayGap
  cases log.earliest <;> simp

theorem parseEarliest_bounds (log : RetainedLog CanonicalEvent) :
    parseEarliest (logBounds log).earliestRevision = .ok log.earliest := by
  unfold logBounds
  cases log.earliest with
  | none => rfl
  | some first =>
    show some <$> parseEventRevision (toString first) = _
    rw [parseEventRevision_toString]
    rfl

variable {store registered}

/-- What the method does once its arguments are checked. -/
theorem replayEvents_eq {stream : StreamKey} {request : EventReadRequest} {requested : Nat}
    (atBounds atPage : store.State) (hregistered : registered stream = true)
    (hrequested : parseEventRevision (request.afterRevision.getD "0") = .ok requested)
    (hstream : validateEventStream stream = .ok ()) :
    replayEvents store registered stream request atBounds atPage =
      if (store.logs atBounds stream).Serves requested then
        (store.read atPage stream ⟨some (request.afterRevision.getD "0"), request.limit⟩).map
          (.page (request.afterRevision.getD "0"))
      else .ok (.gap (request.afterRevision.getD "0")
        (logBounds (store.logs atBounds stream)).earliestRevision
        (logBounds (store.logs atBounds stream)).latestRevision) := by
  have hbounds := store.readBounds_eq atBounds stream
  rw [hstream] at hbounds
  have hbounds : store.readBounds atBounds stream = .ok (logBounds (store.logs atBounds stream)) :=
    hbounds
  have hlatest : parseEventRevision (logBounds (store.logs atBounds stream)).latestRevision =
      .ok (store.logs atBounds stream).head := parseEventRevision_toString _
  have hearliest := parseEarliest_bounds (store.logs atBounds stream)
  have hgap := isReplayGap_iff (store.logs atBounds stream) requested
  unfold replayEvents
  rw [if_pos hregistered]
  simp only [hrequested, hbounds]
  show (do
    let latest ← parseEventRevision (logBounds (store.logs atBounds stream)).latestRevision
    let earliest ← parseEarliest (logBounds (store.logs atBounds stream)).earliestRevision
    if isReplayGap requested latest earliest then
      return CanonicalEventReplay.gap _ _ _
    else do
      let page ← store.read atPage stream _
      return .page _ page) = _
  rw [hlatest, hearliest]
  show (if isReplayGap requested (store.logs atBounds stream).head
      (store.logs atBounds stream).earliest then _ else _) = _
  by_cases hserves : (store.logs atBounds stream).Serves requested
  · rw [if_neg (fun hc => hgap.1 hc hserves), if_pos hserves]
    cases store.read atPage stream _ <;> rfl
  · rw [if_pos (hgap.2 hserves), if_neg hserves]
    rfl

/-- A stream whose bounds are read is a valid one. -/
theorem replayEvents_checked {stream : StreamKey} {request : EventReadRequest}
    {atBounds atPage : store.State} {replay : CanonicalEventReplay}
    (h : replayEvents store registered stream request atBounds atPage = .ok replay) :
    registered stream = true ∧ validateEventStream stream = .ok () ∧
      ∃ requested, parseEventRevision (request.afterRevision.getD "0") = .ok requested := by
  unfold replayEvents at h
  split at h
  · rename_i hregistered
    obtain ⟨requested, hrequested, h⟩ := bind_eq_ok.1 h
    obtain ⟨bounds, hbounds, -⟩ := bind_eq_ok.1 h
    rw [store.readBounds_eq] at hbounds
    cases hstream : validateEventStream stream with
    | error e =>
      rw [hstream] at hbounds
      cases hbounds
    | ok _ => exact ⟨hregistered, rfl, requested, hrequested⟩
  · cases h

/-- A page is the page of the later state, and the stream served the cursor in the earlier. -/
theorem replayEvents_page {stream : StreamKey} {request : EventReadRequest}
    {atBounds atPage : store.State} {text : String} {page : CanonicalEventPage}
    (h : replayEvents store registered stream request atBounds atPage = .ok (.page text page)) :
    ∃ requested, parseEventRevision (request.afterRevision.getD "0") = .ok requested ∧
      text = request.afterRevision.getD "0" ∧
      (store.logs atBounds stream).Serves requested ∧ 0 < request.limit ∧
      page = logPage (store.logs atPage stream) requested text request.limit := by
  obtain ⟨hregistered, hstream, requested, hrequested⟩ := replayEvents_checked h
  rw [replayEvents_eq atBounds atPage hregistered hrequested hstream] at h
  split at h
  · rename_i hserves
    cases hread : store.read atPage stream ⟨some (request.afterRevision.getD "0"), request.limit⟩ with
    | error e =>
      rw [hread] at h
      cases h
    | ok found =>
      rw [hread] at h
      cases h
      obtain ⟨hlimit, cursor, hcursor, hpage⟩ := store.read_page hread
      have heq : requested = cursor := by
        have hsame : Except.ok requested = Except.ok cursor := hrequested.symm.trans hcursor
        exact Except.ok.inj hsame
      subst heq
      exact ⟨requested, hrequested, rfl, hserves, hlimit, hpage⟩
  · cases h

/-- A gap is told when the stream does not serve the cursor. -/
theorem replayEvents_gap {stream : StreamKey} {request : EventReadRequest}
    {atBounds atPage : store.State} {text next : String} {earliest : Option String}
    (h : replayEvents store registered stream request atBounds atPage =
      .ok (.gap text earliest next)) {requested : Nat}
    (hrequested : parseEventRevision (request.afterRevision.getD "0") = .ok requested) :
    ¬ (store.logs atBounds stream).Serves requested := by
  intro hserves
  obtain ⟨hregistered, hstream, -⟩ := replayEvents_checked h
  rw [replayEvents_eq atBounds atPage hregistered hrequested hstream, if_pos hserves] at h
  cases hread : store.read atPage stream ⟨some (request.afterRevision.getD "0"), request.limit⟩ with
  | error e =>
    rw [hread] at h
    cases h
  | ok page =>
    rw [hread] at h
    cases h

/-- A registered stream is answered, whatever is called between the bounds and the page. -/
theorem replayEvents_answers {stream : StreamKey} {request : EventReadRequest}
    {atBounds atPage : store.State} {requested : Nat} (hregistered : registered stream = true)
    (hstream : validateEventStream stream = .ok ())
    (hlimit : assertEventReadLimit request.limit = .ok ())
    (hrequested : parseEventRevision (request.afterRevision.getD "0") = .ok requested)
    (hlater : RetainedLog.Later (store.logs atBounds stream) (store.logs atPage stream)) :
    ∃ replay, replayEvents store registered stream request atBounds atPage = .ok replay := by
  rw [replayEvents_eq atBounds atPage hregistered hrequested hstream]
  split
  · rename_i hserves
    have hread : ∃ page, store.read atPage stream
        ⟨some (request.afterRevision.getD "0"), request.limit⟩ = .ok page :=
      store.read_succeeds hstream hlimit hrequested (hserves.2.trans hlater.head)
    obtain ⟨page, hread⟩ := hread
    rw [hread]
    exact ⟨_, rfl⟩
  · exact ⟨_, rfl⟩

end Replay

/-! ## Pages -/

/-- The page goes on from the cursor: its events carry the revisions that follow it, and an
empty page leaves the cursor where it was. -/
def Consecutive (requested : Nat) (requestedAfterRevision : String) (page : CanonicalEventPage) :
    Prop :=
  page.events.map CanonicalEvent.revision = List.range' (requested + 1) page.events.length ∧
    (page.events = [] → page.cursor = requestedAfterRevision)

/-- The oldest event the log holds, if it holds any, is not beyond the one after the cursor. -/
def StartsBy (log : RetainedLog CanonicalEvent) (requested : Nat) : Prop :=
  ∀ first, log.earliest = some first → first ≤ requested + 1

theorem startsBy_iff (log : RetainedLog CanonicalEvent) (requested : Nat) :
    StartsBy log requested ↔ log.items = [] ∨ log.dropped ≤ requested := by
  unfold StartsBy RetainedLog.earliest
  by_cases hitems : log.items = []
  · simp [hitems]
  · simp [hitems]

section Pages

variable {log : RetainedLog CanonicalEvent} {requested limit : Nat} {text : String}

/-- The events after a cursor that the log serves carry the revisions that follow it. -/
theorem revision_after (h : RetainedLog.Numbered CanonicalEvent.revision log)
    (hdropped : log.dropped ≤ requested) :
    ((log.after requested).take limit).map CanonicalEvent.revision =
      List.range' (requested + 1) ((log.after requested).take limit).length := by
  have hlen : ((log.after requested).take limit).length =
      min limit (log.items.length - (requested - log.dropped)) := by
    rw [List.length_take, RetainedLog.after, List.length_drop]
  rw [hlen, List.map_take, RetainedLog.after, List.map_drop,
    show log.items.map CanonicalEvent.revision = _ from h, List.drop_range',
    show log.dropped + 1 + (requested - log.dropped) * 1 = requested + 1 by omega]
  by_cases hle : log.items.length - (requested - log.dropped) ≤ limit
  · rw [List.take_range'_of_length_le hle, Nat.min_eq_right hle]
  · rw [List.take_range'_of_length_ge (Nat.le_of_not_le hle), Nat.min_eq_left (Nat.le_of_not_le hle)]

/-- An empty page leaves the cursor where it was. -/
theorem logPage_cursor_of_nil (h : (log.after requested).take limit = []) :
    (logPage log requested text limit).cursor = text := by
  unfold logPage
  rw [h]
  rfl

/-- A page goes on from the cursor exactly when the log it is read from does. -/
theorem consecutive_iff (h : RetainedLog.Numbered CanonicalEvent.revision log)
    (hlimit : 0 < limit) :
    Consecutive requested text (logPage log requested text limit) ↔ StartsBy log requested := by
  rw [startsBy_iff]
  constructor
  · rintro ⟨hrevisions, -⟩
    by_contra hneither
    rw [not_or, not_le] at hneither
    obtain ⟨hitems, hdropped⟩ := hneither
    have hevents : (logPage log requested text limit).events = log.items.take limit := by
      unfold logPage
      rw [RetainedLog.after_of_le_dropped (Nat.le_of_lt hdropped)]
    have hhead := h.head?_eq
    rw [RetainedLog.earliest, if_neg hitems] at hhead
    obtain ⟨first, rest, hcons⟩ := List.exists_cons_of_ne_nil hitems
    obtain ⟨k, rfl⟩ : ∃ k, limit = k + 1 := ⟨limit - 1, by omega⟩
    rw [hevents, hcons, List.take_succ_cons, List.map_cons, List.length_cons, List.range'_succ,
      List.cons.injEq] at hrevisions
    rw [hcons, List.head?_cons, Option.map_some, Option.some.injEq] at hhead
    omega
  · rintro (hitems | hdropped)
    · have hnil : (log.after requested).take limit = [] := by
        rw [RetainedLog.after_eq_nil hitems, List.take_nil]
      refine ⟨?_, fun _ => logPage_cursor_of_nil hnil⟩
      show ((log.after requested).take limit).map _ = _
      unfold logPage
      rw [hnil]
      rfl
    · exact ⟨revision_after h hdropped, logPage_cursor_of_nil⟩

/-- The cursor of a page is the revision of its last event. -/
theorem logPage_cursor (h : RetainedLog.Numbered CanonicalEvent.revision log)
    (hdropped : log.dropped ≤ requested) (htext : parseEventRevision text = .ok requested) :
    parseEventRevision (logPage log requested text limit).cursor =
      .ok (requested + (logPage log requested text limit).events.length) := by
  have hrevisions : ((log.after requested).take limit).map CanonicalEvent.revision =
      List.range' (requested + 1) ((log.after requested).take limit).length :=
    revision_after h hdropped
  unfold logPage
  generalize (log.after requested).take limit = events at hrevisions ⊢
  cases hlast : events.getLast? with
  | none =>
    rw [List.getLast?_eq_none_iff] at hlast
    rw [hlast]
    exact htext
  | some last =>
    have hrev : (events.map CanonicalEvent.revision).getLast? = some last.revision := by
      rw [List.getLast?_map, hlast]
      rfl
    have hne : events.length ≠ 0 := by
      intro hzero
      rw [List.length_eq_zero_iff.1 hzero] at hlast
      cases hlast
    rw [hrevisions, List.getLast?_range', if_neg hne, Option.some.injEq] at hrev
    show parseEventRevision (toString last.revision) = _
    rw [parseEventRevision_toString, ← hrev]
    congr 1
    show requested + 1 + events.length - 1 = requested + events.length
    omega

end Pages

/-! ## Clients -/

/-- One replay: the calls the store answers before it reads the bounds, those it answers
before it reads the page, and the limit the client asks for. -/
structure ReplayRound where
  before : List EventCall
  between : List EventCall
  limit : Nat

/-- A client that follows the cursors of the pages until it is told of a gap; `calls` are
those the store has answered so far. -/
structure ReplayClient where
  calls : List EventCall
  cursor : String
  received : List CanonicalEvent
  toldGap : Bool

namespace ReplayClient

variable (store : CanonicalEventStore) (registered : StreamKey → Bool) (stream : StreamKey)

/-- The calls the store has answered when it reads the bounds of a round. -/
def callsAtBounds (client : ReplayClient) (round : ReplayRound) : List EventCall :=
  client.calls ++ round.before

/-- The calls the store has answered when it reads the page of a round. -/
def callsAtPage (client : ReplayClient) (round : ReplayRound) : List EventCall :=
  client.callsAtBounds round ++ round.between

/-- One round. -/
def round (client : ReplayClient) (round : ReplayRound) : ReplayClient :=
  if client.toldGap then client
  else
    match replayEvents store registered stream ⟨some client.cursor, round.limit⟩
        (store.run (client.callsAtBounds round)) (store.run (client.callsAtPage round)) with
    | .ok (.page _ page) =>
      { client with
        calls := client.callsAtPage round
        cursor := page.cursor
        received := client.received ++ page.events }
    | .ok (.gap _ _ _) => { client with calls := client.callsAtBounds round, toldGap := true }
    | .error _ => { client with calls := client.callsAtPage round }

/-- Some rounds. -/
def follow (client : ReplayClient) (rounds : List ReplayRound) : ReplayClient :=
  rounds.foldl (ReplayClient.round store registered stream) client

/-- In every round whose bounds serve the cursor, the stream still starts by it when the page
is read. -/
def Undisturbed (client : ReplayClient) : List ReplayRound → Prop
  | [] => True
  | round :: rest =>
    (∀ requested, parseEventRevision client.cursor = .ok requested →
      (store.logAfter stream (client.callsAtBounds round)).Serves requested →
      StartsBy (store.logAfter stream (client.callsAtPage round)) requested) ∧
    Undisturbed (ReplayClient.round store registered stream client round) rest

/-- What the client has received is what was appended between its first cursor and its
cursor. -/
structure Sound (first : Nat) (client : ReplayClient) (cursor : Nat) : Prop where
  parsed : parseEventRevision client.cursor = .ok cursor
  le : first ≤ cursor
  reached : cursor = first ∨ cursor ≤ (store.appended stream client.calls).length
  received : client.received = ((store.appended stream client.calls).take cursor).drop first

variable {store registered stream}

/-- More calls of others leave what the client has received a segment. -/
theorem segment_append {calls : List EventCall} {first cursor : Nat}
    (h : cursor = first ∨ cursor ≤ (store.appended stream calls).length) (more : List EventCall) :
    ((store.appended stream (calls ++ more)).take cursor).drop first =
      ((store.appended stream calls).take cursor).drop first := by
  rcases h with rfl | hle
  · rw [List.drop_take_self, List.drop_take_self]
  · obtain ⟨rest, hrest⟩ := store.appended_prefix stream calls more
    rw [← hrest, List.take_append_of_le_length hle]

theorem Sound.extend {first cursor : Nat} {client : ReplayClient}
    (h : Sound store stream first client cursor) (more : List EventCall) (toldGap : Bool) :
    Sound store stream first { client with calls := client.calls ++ more, toldGap := toldGap }
      cursor where
  parsed := h.parsed
  le := h.le
  reached := h.reached.imp_right fun hle =>
    hle.trans (store.appended_prefix stream client.calls more).length_le
  received := h.received.trans (segment_append h.reached more).symm

/-- A segment and what follows it. -/
theorem segment_concat {α : Type} (l : List α) {first cursor : Nat} (h : first ≤ cursor) (n : Nat) :
    (l.take cursor).drop first ++ (l.drop cursor).take n = (l.take (cursor + n)).drop first := by
  rw [List.take_add, List.drop_append, List.length_take]
  congr 1
  by_cases hcursor : cursor ≤ l.length
  · rw [Nat.min_eq_left hcursor, Nat.sub_eq_zero_of_le h, List.drop_zero]
  · rw [List.drop_eq_nil_of_le (Nat.le_of_not_le hcursor), List.take_nil, List.drop_nil]

/-- A page that goes on from the cursor of a client extends its segment. -/
theorem Sound.page {first cursor : Nat} {client : ReplayClient}
    (h : Sound store stream first client cursor) (more : List EventCall) (limit : Nat)
    (hstarts : StartsBy (store.logAfter stream (client.calls ++ more)) cursor) :
    let page := logPage (store.logAfter stream (client.calls ++ more)) cursor client.cursor limit
    Sound store stream first
      { client with
        calls := client.calls ++ more
        cursor := page.cursor
        received := client.received ++ page.events } (cursor + page.events.length) := by
  intro page
  have hkeeps := store.keeps_run stream (client.calls ++ more)
  have hnumbered := store.numbered (store.run (client.calls ++ more)) stream
  rcases (startsBy_iff _ _).1 hstarts with hitems | hdropped
  · have hnil : ((store.logAfter stream (client.calls ++ more)).after cursor).take limit = [] := by
      rw [RetainedLog.after_eq_nil hitems, List.take_nil]
    have hevents : page.events = [] := hnil
    have hcursor : page.cursor = client.cursor := logPage_cursor_of_nil hnil
    rw [hevents, hcursor, List.append_nil]
    exact h.extend more client.toldGap
  · have hevents : page.events =
        ((store.appended stream (client.calls ++ more)).drop cursor).take limit := by
      show ((store.logAfter stream (client.calls ++ more)).after cursor).take limit = _
      rw [hkeeps.after_eq_drop hdropped]
    have hlength : page.events.length =
        min limit ((store.appended stream (client.calls ++ more)).length - cursor) := by
      rw [hevents, List.length_take, List.length_drop]
    refine ⟨logPage_cursor hnumbered hdropped h.parsed, h.le.trans (Nat.le_add_right ..), ?_, ?_⟩
    · show _ ∨ cursor + page.events.length ≤ (store.appended stream (client.calls ++ more)).length
      by_cases hle : cursor ≤ (store.appended stream (client.calls ++ more)).length
      · right
        omega
      · left
        rcases h.reached with hfirst | hreached
        · omega
        · have := (store.appended_prefix stream client.calls more).length_le
          omega
    · show client.received ++ page.events = _
      have htake : page.events =
          ((store.appended stream (client.calls ++ more)).drop cursor).take page.events.length := by
        rw [hlength, hevents]
        by_cases hle : limit ≤ (store.appended stream (client.calls ++ more)).length - cursor
        · rw [Nat.min_eq_left hle]
        · rw [Nat.min_eq_right (by omega), List.take_of_length_le (by rw [List.length_drop]; omega),
            List.take_of_length_le (by rw [List.length_drop])]
      rw [h.received, ← segment_append h.reached more, htake, segment_concat _ h.le,
        ← htake]

/-- What a round can do: nothing, extend what was received by a page, tell of a gap, or
fail. -/
theorem round_cases (registered : StreamKey → Bool) {cursor : Nat} {client : ReplayClient}
    (round : ReplayRound)
    (hparsed : parseEventRevision client.cursor = .ok cursor) :
    (client.toldGap = true ∧ client.round store registered stream round = client) ∨
    ((store.logAfter stream (client.callsAtBounds round)).Serves cursor ∧ 0 < round.limit ∧
      let page := logPage (store.logAfter stream (client.callsAtPage round)) cursor client.cursor
        round.limit
      client.round store registered stream round =
        { client with
          calls := client.callsAtPage round
          cursor := page.cursor
          received := client.received ++ page.events }) ∨
    (¬ (store.logAfter stream (client.callsAtBounds round)).Serves cursor ∧
      client.round store registered stream round =
        { client with calls := client.callsAtBounds round, toldGap := true }) ∨
    ((∃ e, replayEvents store registered stream ⟨some client.cursor, round.limit⟩
        (store.run (client.callsAtBounds round)) (store.run (client.callsAtPage round)) =
          .error e) ∧
      client.round store registered stream round =
        { client with calls := client.callsAtPage round }) := by
  unfold ReplayClient.round
  by_cases htold : client.toldGap = true
  · rw [if_pos htold]
    exact Or.inl ⟨htold, rfl⟩
  · right
    rw [if_neg htold]
    cases hreplay : replayEvents store registered stream ⟨some client.cursor, round.limit⟩
        (store.run (client.callsAtBounds round)) (store.run (client.callsAtPage round)) with
    | error e => exact Or.inr (Or.inr ⟨⟨e, rfl⟩, rfl⟩)
    | ok replay =>
      cases replay with
      | page text page =>
        left
        obtain ⟨requested, hrequested, rfl, hserves, hlimit, rfl⟩ := replayEvents_page hreplay
        have heq : requested = cursor := Except.ok.inj (hrequested.symm.trans hparsed)
        subst heq
        exact ⟨hserves, hlimit, rfl⟩
      | gap text earliest next =>
        right
        left
        exact ⟨replayEvents_gap hreplay hparsed, rfl⟩

/-- A round keeps what was received a segment, and only moves the cursor on. -/
theorem Sound.round {first cursor : Nat} {client : ReplayClient}
    (h : Sound store stream first client cursor) (registered : StreamKey → Bool)
    {round : ReplayRound}
    (hstarts : (store.logAfter stream (client.callsAtBounds round)).Serves cursor →
      StartsBy (store.logAfter stream (client.callsAtPage round)) cursor) :
    ∃ cursor', cursor ≤ cursor' ∧
      Sound store stream first (client.round store registered stream round) cursor' := by
  have hcalls : client.callsAtPage round = client.calls ++ (round.before ++ round.between) :=
    List.append_assoc ..
  rcases round_cases registered round h.parsed with
    ⟨-, hround⟩ | ⟨hserves, -, hround⟩ | ⟨-, hround⟩ | ⟨-, hround⟩
  · rw [hround]
    exact ⟨cursor, Nat.le_refl _, h⟩
  · have hpage := h.page (round.before ++ round.between) round.limit
      (hcalls ▸ hstarts hserves)
    rw [hround, hcalls]
    exact ⟨_, Nat.le_add_right .., hpage⟩
  · rw [hround]
    exact ⟨cursor, Nat.le_refl _, h.extend round.before true⟩
  · rw [hround, hcalls]
    exact ⟨cursor, Nat.le_refl _, h.extend _ client.toldGap⟩

/-- Undisturbed rounds keep what was received a segment. -/
theorem Sound.follow {first cursor : Nat} {client : ReplayClient} {rounds : List ReplayRound}
    (h : Sound store stream first client cursor) {registered : StreamKey → Bool}
    (hrounds : client.Undisturbed store registered stream rounds) :
    ∃ cursor', cursor ≤ cursor' ∧
      Sound store stream first (client.follow store registered stream rounds) cursor' := by
  induction rounds generalizing client cursor with
  | nil => exact ⟨cursor, Nat.le_refl _, h⟩
  | cons round rest ih =>
    obtain ⟨mid, hle, hmid⟩ := h.round registered (hrounds.1 cursor h.parsed)
    obtain ⟨cursor', hle', hend⟩ := ih hmid hrounds.2
    exact ⟨cursor', hle.trans hle', hend⟩

/-! ### Progress -/

/-- A client that was told of a gap stops. -/
theorem follow_told {client : ReplayClient} (h : client.toldGap = true)
    (rounds : List ReplayRound) : client.follow store registered stream rounds = client := by
  induction rounds with
  | nil => rfl
  | cons round rest ih =>
    have hround : client.round store registered stream round = client := by
      unfold ReplayClient.round
      rw [if_pos h]
    show (client.round store registered stream round).follow store registered stream rest = _
    rw [hround, ih]

/-- A round only appends. -/
theorem appended_round {client : ReplayClient} (round : ReplayRound) :
    store.appended stream client.calls <+:
      store.appended stream (client.round store registered stream round).calls := by
  have hpage := store.appended_prefix stream client.calls (round.before ++ round.between)
  rw [← List.append_assoc] at hpage
  unfold ReplayClient.round
  split
  · exact List.prefix_refl _
  · split
    · exact hpage
    · exact store.appended_prefix stream client.calls round.before
    · exact hpage

theorem appended_follow {client : ReplayClient} (rounds : List ReplayRound) :
    store.appended stream client.calls <+:
      store.appended stream (client.follow store registered stream rounds).calls := by
  induction rounds generalizing client with
  | nil => exact List.prefix_refl _
  | cons round rest ih => exact (appended_round round).trans ih

section Progress

variable {first cursor : Nat} {client : ReplayClient} {round : ReplayRound}
variable (hregistered : registered stream = true) (hstream : validateEventStream stream = .ok ())

include hregistered hstream

/-- A round with a valid limit does not fail. -/
theorem round_answers (h : Sound store stream first client cursor)
    (hlimit : assertEventReadLimit round.limit = .ok ()) :
    ∃ replay, replayEvents store registered stream ⟨some client.cursor, round.limit⟩
      (store.run (client.callsAtBounds round)) (store.run (client.callsAtPage round)) =
        .ok replay :=
  replayEvents_answers hregistered hstream hlimit h.parsed
    (store.later_run stream (client.callsAtBounds round) round.between)

/-- Once an event after the cursor is purged, the next round tells of a gap. -/
theorem round_tells (h : Sound store stream first client cursor)
    (hlimit : assertEventReadLimit round.limit = .ok ())
    (hpurged : cursor < (store.logAfter stream client.calls).dropped) :
    (client.round store registered stream round).toldGap = true := by
  have hlater := store.later_run stream client.calls round.before
  rcases round_cases registered round h.parsed with
    ⟨htold, hround⟩ | ⟨hserves, -, -⟩ | ⟨-, hround⟩ | ⟨⟨e, herror⟩, -⟩
  · rw [hround]
    exact htold
  · have hdropped : (store.logAfter stream client.calls).dropped ≤ cursor :=
      hlater.dropped.trans hserves.1
    omega
  · rw [hround]
  · obtain ⟨replay, hreplay⟩ := round_answers hregistered hstream h hlimit
    rw [hreplay] at herror
    cases herror

/-- While an event after the cursor has not been received, a round tells of a gap, moves the
cursor on, or finds that the event was purged. -/
theorem Sound.advances (h : Sound store stream first client cursor)
    (hlimit : assertEventReadLimit round.limit = .ok ())
    (hstarts : (store.logAfter stream (client.callsAtBounds round)).Serves cursor →
      StartsBy (store.logAfter stream (client.callsAtPage round)) cursor)
    (hbehind : cursor < (store.appended stream client.calls).length) :
    let client' := client.round store registered stream round
    client'.toldGap = true ∨ ∃ cursor', Sound store stream first client' cursor' ∧
      (cursor < cursor' ∨
        (cursor' = cursor ∧ cursor < (store.logAfter stream client'.calls).dropped)) := by
  intro client'
  have hcalls : client.callsAtPage round = client.calls ++ (round.before ++ round.between) :=
    List.append_assoc ..
  rcases round_cases registered round h.parsed with
    ⟨htold, hround⟩ | ⟨hserves, hpositive, hround⟩ | ⟨-, hround⟩ | ⟨⟨e, herror⟩, -⟩
  · left
    rw [show client' = client from hround]
    exact htold
  · right
    have hstarts := hstarts hserves
    rw [hcalls] at hstarts hround
    have hpage := h.page (round.before ++ round.between) round.limit hstarts
    have hkeeps := store.keeps_run stream (client.calls ++ (round.before ++ round.between))
    have hmore := (store.appended_prefix stream client.calls (round.before ++ round.between)).length_le
    rw [show client' = _ from hround]
    refine ⟨_, hpage, ?_⟩
    rcases (startsBy_iff _ _).1 hstarts with hitems | hdropped
    · right
      have hnil : (logPage (store.logAfter stream (client.calls ++ (round.before ++ round.between)))
          cursor client.cursor round.limit).events = [] := by
        show List.take _ _ = []
        rw [RetainedLog.after_eq_nil hitems, List.take_nil]
      rw [hnil]
      refine ⟨rfl, ?_⟩
      have hlength := (store.logAfter stream
        (client.calls ++ (round.before ++ round.between))).dropped_add_length
      rw [hitems, List.length_nil, hkeeps.head] at hlength
      show cursor < (store.logAfter stream (client.calls ++ (round.before ++ round.between))).dropped
      omega
    · left
      have hlength : (logPage (store.logAfter stream
          (client.calls ++ (round.before ++ round.between))) cursor client.cursor
            round.limit).events.length =
          min round.limit ((store.appended stream
            (client.calls ++ (round.before ++ round.between))).length - cursor) := by
        show (List.take _ _).length = _
        rw [hkeeps.after_eq_drop hdropped, List.length_take, List.length_drop]
      rw [hlength]
      omega
  · left
    rw [show client' = _ from hround]
  · obtain ⟨replay, hreplay⟩ := round_answers hregistered hstream h hlimit
    rw [hreplay] at herror
    cases herror

/-- Rounds that are more than the events a client has not received yet bring it there, or
tell it of a gap. -/
theorem Sound.catches_up {rounds : List ReplayRound} {upto : Nat}
    (h : Sound store stream first client cursor)
    (hlimits : ∀ round ∈ rounds, assertEventReadLimit round.limit = .ok ())
    (hrounds : client.Undisturbed store registered stream rounds)
    (hupto : upto ≤ (store.appended stream client.calls).length)
    (henough : upto - cursor < rounds.length) :
    (client.follow store registered stream rounds).toldGap = true ∨
      ∃ cursor', upto ≤ cursor' ∧
        Sound store stream first (client.follow store registered stream rounds) cursor' := by
  induction rounds generalizing client cursor with
  | nil => cases henough
  | cons round rest ih =>
    have hlimit := hlimits round (List.mem_cons_self ..)
    have hrest : ∀ round ∈ rest, assertEventReadLimit round.limit = .ok () :=
      fun round hmem => hlimits round (List.mem_cons_of_mem _ hmem)
    show ((client.round store registered stream round).follow store registered stream
      rest).toldGap = true ∨ _
    by_cases hreached : upto ≤ cursor
    · obtain ⟨cursor', hle, hend⟩ := h.follow hrounds
      exact Or.inr ⟨cursor', hreached.trans hle, hend⟩
    · rcases h.advances hregistered hstream hlimit (hrounds.1 cursor h.parsed) (by omega) with
        htold | ⟨cursor', hmid, hmoved | ⟨rfl, hpurged⟩⟩
      · rw [follow_told htold]
        exact Or.inl htold
      · by_cases hreached' : upto ≤ cursor'
        · obtain ⟨last, hle, hend⟩ := hmid.follow hrounds.2
          exact Or.inr ⟨last, hreached'.trans hle, hend⟩
        · refine ih hmid hrest hrounds.2 (hupto.trans (appended_round round).length_le) ?_
          rw [List.length_cons] at henough
          omega
      · cases rest with
        | nil =>
          rw [List.length_cons, List.length_nil] at henough
          omega
        | cons next rest =>
          have htold := round_tells hregistered hstream hmid (hrest next (List.mem_cons_self ..))
            hpurged
          left
          show (((client.round store registered stream round).round store registered stream
            next).follow store registered stream rest).toldGap = true
          rw [follow_told htold]
          exact htold

end Progress

/-- A client that has received nothing yet. -/
def start (calls : List EventCall) (cursor : String) : ReplayClient where
  calls := calls
  cursor := cursor
  received := []
  toldGap := false

theorem sound_start {calls : List EventCall} {text : String} {cursor : Nat}
    (h : parseEventRevision text = .ok cursor) :
    Sound store stream cursor (start calls text) cursor where
  parsed := h
  le := Nat.le_refl _
  reached := Or.inl rfl
  received := (List.drop_take_self ..).symm

/-- Undisturbed rounds are undisturbed at every client on the way. -/
theorem undisturbed_append {client : ReplayClient} {early late : List ReplayRound} :
    client.Undisturbed store registered stream (early ++ late) ↔
      client.Undisturbed store registered stream early ∧
        (client.follow store registered stream early).Undisturbed store registered stream late := by
  induction early generalizing client with
  | nil =>
    show _ ↔ True ∧ _
    rw [true_and]
    rfl
  | cons round rest ih =>
    show (_ ∧ ReplayClient.Undisturbed store registered stream _ (rest ++ late)) ↔ (_ ∧ _) ∧ _
    rw [ih, and_assoc]
    rfl

/-- Rounds in which no call comes between the bounds and the page are undisturbed. -/
theorem undisturbed_of_between_nil {client : ReplayClient} {rounds : List ReplayRound}
    (h : ∀ round ∈ rounds, round.between = []) :
    client.Undisturbed store registered stream rounds := by
  induction rounds generalizing client with
  | nil => trivial
  | cons round rest ih =>
    refine ⟨fun requested _ hserves => ?_, ih fun other hmem => h other (List.mem_cons_of_mem _ hmem)⟩
    rw [ReplayClient.callsAtPage, h round (List.mem_cons_self ..), List.append_nil]
    exact (startsBy_iff _ _).2 (Or.inr hserves.1)

end ReplayClient

/-! ## What replaying promises -/

/-- A page goes on from the cursor exactly when the stream still starts by it at the time the
page is read; and a client all of whose rounds are undisturbed receives one segment of what
was appended, with everything up to any event once it has asked often enough, or is told of a
gap. -/
theorem replay_consecutive_iff (kind : EventStoreKind) (schema : EventSchema)
    (registered : StreamKey → Bool) (stream : StreamKey) :
    (∀ (calls between : List EventCall) (request : EventReadRequest) (text : String)
        (page : CanonicalEventPage),
      replayEvents (eventStore kind schema) registered stream request
        ((eventStore kind schema).run calls) ((eventStore kind schema).run (calls ++ between)) =
          .ok (.page text page) →
      ∃ requested, parseEventRevision (request.afterRevision.getD "0") = .ok requested ∧
        (Consecutive requested text page ↔
          StartsBy ((eventStore kind schema).logAfter stream (calls ++ between)) requested)) ∧
    (∀ (calls : List EventCall) (text : String) (first : Nat) (early late : List ReplayRound),
      parseEventRevision text = .ok first →
      (ReplayClient.start calls text).Undisturbed (eventStore kind schema) registered stream
        (early ++ late) →
      let client := (ReplayClient.start calls text).follow (eventStore kind schema) registered
        stream early
      let client' := client.follow (eventStore kind schema) registered stream late
      (∃ cursor, parseEventRevision client'.cursor = .ok cursor ∧ first ≤ cursor ∧
        client'.received =
          (((eventStore kind schema).appended stream client'.calls).take cursor).drop first) ∧
      (registered stream = true → validateEventStream stream = .ok () →
        (∀ round ∈ late, assertEventReadLimit round.limit = .ok ()) →
        ((eventStore kind schema).appended stream client.calls).length - first < late.length →
        client'.toldGap = true ∨
          ((eventStore kind schema).appended stream client.calls).drop first <+:
            client'.received)) := by
  constructor
  · intro calls between request text page h
    obtain ⟨requested, hrequested, -, -, hlimit, rfl⟩ := replayEvents_page h
    exact ⟨requested, hrequested,
      consecutive_iff ((eventStore kind schema).numbered _ stream) hlimit⟩
  · intro calls text first early late htext hundisturbed client client'
    obtain ⟨hearly, hlate⟩ := ReplayClient.undisturbed_append.1 hundisturbed
    obtain ⟨mid, hmid, hclient⟩ :=
      (ReplayClient.sound_start htext).follow hearly
    refine ⟨?_, fun hregistered hstream hlimits henough => ?_⟩
    · obtain ⟨cursor, -, hclient'⟩ := hclient.follow hlate
      exact ⟨cursor, hclient'.parsed, hclient'.le, hclient'.received⟩
    · have hrounds := Nat.lt_of_le_of_lt (Nat.sub_le_sub_left hmid _) henough
      rcases hclient.catches_up hregistered hstream hlimits hlate (Nat.le_refl _) hrounds with
        htold | ⟨cursor, hcursor, hclient'⟩
      · exact Or.inl htold
      · right
        have happended : (eventStore kind schema).appended stream client.calls <+:
            (eventStore kind schema).appended stream client'.calls :=
          ReplayClient.appended_follow late
        obtain ⟨more, hmore⟩ := happended
        have hreceived : client'.received =
            (((eventStore kind schema).appended stream client'.calls).take cursor).drop first :=
          hclient'.received
        rw [hreceived, ← hmore, List.take_append, List.take_of_length_le hcursor, List.drop_append]
        exact List.prefix_append ..

/-- A coordinate of a run in the stream of the examples. -/
def sampleRun (runId : String) : RunCoordinate := ⟨"session", "actor", runId, 0⟩

def sampleStream : StreamKey := ⟨"session", "actor"⟩

/-- No schema: the events of the examples have no body. -/
def noBodies : EventSchema := ⟨fun _ _ _ => false, fun _ _ => false⟩

def sampleAppend (expectedRevision runId eventId : String) (data : CanonicalEventData) :
    EventCall :=
  .append sampleStream expectedRevision (sampleRun runId) data
    ⟨.ok eventId, .ok "2026-01-01T00:00:00.000Z"⟩

def sampleQueued (inputId : String) : CanonicalEventData :=
  .runQueued inputId "aaaaaaaaaaaaaaaaaaaaaaaaaaaaaaaaaaaaaaaaaaaaaaaaaaaaaaaaaaaaaaaa" none

/-- A run that completes, and one that is queued after it. -/
def twoRuns : List EventCall :=
  [sampleAppend "empty" "first" "event-1" (sampleQueued "input-1"),
    sampleAppend "1" "first" "event-2" (.runCompleted .completed),
    sampleAppend "2" "second" "event-3" (sampleQueued "input-2")]

/-- The completed run is purged. -/
def purgeFirst : EventCall :=
  .purgeTerminalRuns sampleStream ⟨"2026-01-02T00:00:00.000Z", 10, [], 0, 0⟩

/-- Four replays of two events at most bring a client to the end of the two runs. -/
theorem replay_consecutive_iff_quiet :
    let client := ReplayClient.start twoRuns "0"
    let client' := client.follow (eventStore (.inMemory false) noBodies) (fun _ => true)
      sampleStream (List.replicate 4 ⟨[], [], 2⟩)
    client'.toldGap = true ∨
      ((eventStore (.inMemory false) noBodies).appended sampleStream twoRuns).drop 0 <+:
        client'.received := by
  have hquiet := (replay_consecutive_iff (.inMemory false) noBodies (fun _ => true) sampleStream).2
    twoRuns "0" 0 [] (List.replicate 4 ⟨[], [], 2⟩) (by decide)
    (ReplayClient.undisturbed_of_between_nil fun round hmem => by
      rw [List.eq_of_mem_replicate hmem])
  refine hquiet.2 rfl (by decide) (fun round hmem => ?_) (by decide +kernel)
  rw [List.eq_of_mem_replicate hmem]
  decide

/-- A purge between the bounds and the page makes a client that starts at the beginning skip
the two events of the completed run, and nobody tells it. -/
theorem replay_skips_purged :
    ∃ page, replayEvents (eventStore (.inMemory false) noBodies) (fun _ => true) sampleStream
        ⟨none, 10⟩ ((eventStore (.inMemory false) noBodies).run twoRuns)
        ((eventStore (.inMemory false) noBodies).run (twoRuns ++ [purgeFirst])) =
          .ok (.page "0" page) ∧
      ¬ Consecutive 0 "0" page := by
  have hrun : (match replayEvents (eventStore (.inMemory false) noBodies) (fun _ => true)
      sampleStream ⟨none, 10⟩ ((eventStore (.inMemory false) noBodies).run twoRuns)
      ((eventStore (.inMemory false) noBodies).run (twoRuns ++ [purgeFirst])) with
    | .ok (.page text page) =>
      decide (text = "0") && decide (page.events.map CanonicalEvent.revision = [3])
    | .ok (.gap ..) | .error _ => false) = true := by decide +kernel
  split at hrun
  · rename_i text page hreplay
    simp only [Bool.and_eq_true, decide_eq_true_eq] at hrun
    obtain ⟨rfl, hrevisions⟩ := hrun
    refine ⟨page, hreplay, fun hconsecutive => ?_⟩
    have hlength : page.events.length = 1 := by
      rw [← List.length_map CanonicalEvent.revision, hrevisions]
      rfl
    have hfirst := hrevisions.symm.trans hconsecutive.1
    rw [hlength] at hfirst
    cases hfirst
  all_goals cases hrun

end OpenGameAgent
