import OpenGameAgent.Runtime.AuthorityFence
import OpenGameAgent.Runtime.EventReplay
import OpenGameAgent.Storage.ActionJournals

/-!
# The two stores and journals on one run authority

The in-memory journal asks the event store that the host passed to it; the SQLite journal
reads the tables of the run authority in its own transaction.

* `runAuthorityHost` — both as a `RunAuthorityHost`.
* `closed_authority_fences` — what holds once an authority is closed.
-/

namespace OpenGameAgent

/-- A request is told by its canonical text. -/
theorem serialize_ne_iff {r s : CloseRunAuthorityRequest} : r.serialize ≠ s.serialize ↔ r ≠ s :=
  not_congr ⟨CloseRunAuthorityRequest.serialize_inj, congrArg _⟩

/-! ## The in-memory store -/

namespace InMemoryEventStore

def authorities (store : InMemoryEventStore) : RunAuthorities :=
  ⟨store.authorityClosures.get?, store.closeOperations.get?, store.runAuthorities.get?⟩

theorem readExisting_eq (store : InMemoryEventStore) (request : CloseRunAuthorityRequest) :
    store.readExisting request = store.authorities.lookup request := by
  unfold readExisting RunAuthorities.lookup authorities
  dsimp only
  split
  · rfl
  · cases store.authorityClosures.get? request.key with
    | none => rfl
    | some existing => exact if_congr serialize_ne_iff rfl rfl

theorem authorities_withClosure (store : InMemoryEventStore) (closure : RunAuthorityClosure) :
    (store.withClosure closure).authorities = store.authorities.commit closure := by
  unfold authorities withClosure RunAuthorities.commit
  congr 1
  · funext key
    exact OrderedMap.get?_set ..
  · funext id
    exact OrderedMap.get?_set ..

theorem closed_of_has {store : InMemoryEventStore} {key : RunAuthorityKey}
    (h : store.assertAuthorityOpen key = .ok ()) : store.authorities.closure key = none := by
  unfold assertAuthorityOpen at h
  split at h
  · cases h
  · rename_i hhas
    exact Option.not_isSome_iff_eq_none.1 hhas

theorem isOpen_of_ok {store : InMemoryEventStore} {coordinate : RunCoordinate}
    (h : store.assertRunAuthorityOpen coordinate = .ok ()) :
    store.authorities.IsOpen coordinate.runKey := by
  intro authority hauthority
  unfold assertRunAuthorityOpen at h
  obtain ⟨-, hcheck⟩ := check_eq_ok.1 h
  rw [show store.runAuthorities.get? coordinate.runKey = some authority from hauthority] at hcheck
  exact closed_of_has hcheck

/-- The checks of `append` let an event through only where its authority allows it. -/
theorem admits_of_fence {store : InMemoryEventStore} {coordinate : RunCoordinate}
    {data : CanonicalEventData} (h : store.assertFence coordinate data = .ok ())
    (written : EventStreams) :
    store.authorities.Admits coordinate.runKey
      (({ store with toEventStreams := written } : InMemoryEventStore).recordAdmission coordinate
        data).authorities data := by
  cases data with
  | runQueued inputId inputFingerprint authority =>
    unfold assertFence assertAdmissible at h
    dsimp only at h
    split at h
    · cases h
    · rename_i hagrees
      cases authority with
      | none => exact rfl
      | some authority =>
        refine ⟨closed_of_has h, ?_, ?_⟩
        · show store.runAuthorities.get? coordinate.runKey = none ∨ _
          rcases hexisting : store.runAuthorities.get? coordinate.runKey with _ | existing
          · exact Or.inl rfl
          · right
            rw [hexisting] at hagrees
            by_contra hne
            exact hagrees ⟨rfl, fun heq => hne (hexisting.trans heq)⟩
        · unfold authorities recordAdmission RunAuthorities.withAdmission
          dsimp only
          congr 1
          funext run
          exact OrderedMap.get?_set ..
  | runStarted id => exact ⟨isOpen_of_ok h, rfl⟩
  | runResumed id => exact ⟨isOpen_of_ok h, rfl⟩
  | runSuspended id => exact rfl
  | runCompleted status => exact rfl
  | item kind audience body => exact rfl
  | other kind body => exact rfl

theorem call_allowed (schema : EventSchema) (hasGoalBinding : Bool) (eventCall : EventCall)
    (store : InMemoryEventStore) :
    Ends (call schema hasGoalBinding eventCall) store
      (fun answer store' => True ∧
        answer.Authorities store.authorities store'.authorities eventCall)
      (fun _ store' => store' = store) := by
  cases eventCall with
  | append stream expectedRevision coordinate data host =>
    simp only [call, ends_map]
    refine (append_ends schema stream expectedRevision coordinate data host store).mono
      (fun event store' h => ?_) fun _ _ h => h
    obtain ⟨-, hcoordinate, hdata, hfence, hrevision, rfl⟩ := h
    refine ⟨trivial, ?_⟩
    show RunAuthorities.Admits _ event.coordinate.runKey _ event.data
    rw [hcoordinate, hdata]
    exact admits_of_fence hfence _
  | purgeTerminalRuns stream request =>
    simp only [call, ends_map]
    refine (purgeTerminalRuns_ends stream request store).mono
      (fun result store' h => ?_) fun _ _ h => h
    rcases h with rfl | ⟨count, rfl⟩ <;> exact ⟨trivial, rfl⟩
  | beginClose request =>
    simp only [call, ends_map]
    refine (beginClose_ends request store).mono (fun progress store' h => ?_) fun _ _ h => h
    rw [readExisting_eq] at h
    obtain ⟨rfl, h⟩ := h
    exact ⟨trivial, rfl, h⟩
  | resumeClose request clock =>
    simp only [call, ends_bind, ends_attempt, ends_map]
    refine ⟨fun closedAt _ => ?_, fun _ _ => trivial⟩
    refine (resumeClose_ends hasGoalBinding request closedAt store).mono
      (fun progress store' h => ⟨trivial, ?_⟩) fun _ _ h => h
    rw [readExisting_eq] at h
    rcases h with ⟨rfl, closure, hanswered, hfound⟩ | ⟨hnone, ⟨hanswered, rfl⟩ | ⟨hretires, rfl⟩⟩
    · exact Or.inl ⟨rfl, closure, hanswered, hfound⟩
    · refine Or.inr ⟨hnone, Or.inl ⟨closureOf request closedAt, rfl, hanswered, ?_⟩⟩
      exact authorities_withClosure ..
    · exact Or.inr ⟨hnone, Or.inr ⟨hretires, rfl⟩⟩
  | commitClose request closedAt =>
    simp only [call, ends_map]
    refine (commitClose_ends request closedAt store).mono (fun closure store' h => ?_)
      fun _ _ h => h.elim
    obtain ⟨rfl, rfl⟩ := h
    exact ⟨trivial, _, rfl, rfl, authorities_withClosure ..⟩

/-- What passes the checks of `closeAuthority`. -/
def Accepts (request : CloseRunAuthorityRequest) : Prop :=
  captureCloseRunAuthorityRequest request = .ok () ∧ request.workRetirement = none

theorem beginClose_accepted (request : CloseRunAuthorityRequest) (store : InMemoryEventStore) :
    Ends (beginClose request) store (fun _ store' => store' = store ∧ Accepts request)
      (fun _ store' => store' = store) := by
  unfold beginClose
  simp only [ends_bind, ends_attempt]
  refine ⟨fun _ hcapture => ?_, fun _ _ => trivial⟩
  split
  · rfl
  · rename_i hwork
    simp only [ends_bind, ends_attempt, ends_get]
    refine ⟨fun existing _ => ?_, fun _ _ => trivial⟩
    cases existing with
    | none => exact ⟨rfl, hcapture, Option.not_isSome_iff_eq_none.1 hwork⟩
    | some closure => exact ⟨rfl, hcapture, Option.not_isSome_iff_eq_none.1 hwork⟩

theorem beginClose_repeated {request : CloseRunAuthorityRequest} {store : InMemoryEventStore}
    {closure : RunAuthorityClosure} (haccepts : Accepts request)
    (hfound : store.readExisting request = .ok (some closure)) :
    beginClose request store = .ok (.answered closure) store := by
  obtain ⟨hcapture, hwork⟩ := haccepts
  unfold beginClose
  simp only [hcapture, hwork]
  show EStateM.bind (attempt (store.readExisting request)) _ store = _
  rw [hfound]
  rfl

theorem call_accepted (schema : EventSchema) (hasGoalBinding : Bool)
    (request : CloseRunAuthorityRequest) (store : InMemoryEventStore) :
    Ends (call schema hasGoalBinding (.beginClose request)) store
      (fun _ store' => store' = store ∧ Accepts request) (fun _ store' => store' = store) := by
  simp only [call, ends_map]
  exact beginClose_accepted request store

theorem call_repeated (schema : EventSchema) (hasGoalBinding : Bool)
    {request : CloseRunAuthorityRequest} {store : InMemoryEventStore}
    {closure : RunAuthorityClosure} (haccepts : Accepts request)
    (hfound : store.authorities.lookup request = .ok (some closure)) :
    respond (call schema hasGoalBinding (.beginClose request)) store =
      (.ok (.progress (.answered closure)), store) := by
  rw [← readExisting_eq] at hfound
  simp only [call, respond, Functor.map, EStateM.map, beginClose_repeated haccepts hfound]

end InMemoryEventStore

def inMemoryAuthorityStore (schema : EventSchema) (hasGoalBinding : Bool) : RunAuthorityStore :=
  { inMemoryEventStore schema hasGoalBinding with
    authorities := InMemoryEventStore.authorities
    Valid := fun _ => True
    Accepts := InMemoryEventStore.Accepts
    valid_empty := trivial
    authorities_empty := rfl
    allowed := fun eventCall store _ =>
      InMemoryEventStore.call_allowed schema hasGoalBinding eventCall store
    accepted := InMemoryEventStore.call_accepted schema hasGoalBinding
    repeated := fun _ _ _ _ => InMemoryEventStore.call_repeated schema hasGoalBinding }

/-! ## The SQLite store -/

namespace SqliteEventDatabase

variable {ρ : Type}

def authorities (database : SqliteEventDatabase ρ) : RunAuthorities where
  closure key := (database.closures.get? key).map hydrateClosure
  operation id := (database.closures.values.find? fun row =>
    row.request.operationId = id).map fun row => row.request.key
  admission run := database.admissions.get? (run.sessionId, run.actorId, run.runId)

/-- Every closure stands under the key of its request. -/
def Keyed (database : SqliteEventDatabase ρ) : Prop :=
  ∀ key row, database.closures.get? key = some row → row.request.key = key

theorem readExisting_eq {database : SqliteEventDatabase ρ} (h : database.Keyed)
    (request : CloseRunAuthorityRequest) :
    database.readExisting request = database.authorities.lookup request := by
  unfold readExisting RunAuthorities.lookup authorities
  dsimp only
  rcases Option.eq_none_or_eq_some (database.closures.values.find? fun row =>
      row.request.operationId = request.operationId) with hoperation | ⟨row, hoperation⟩
  · simp only [hoperation, Option.none_or, Option.map_none, Option.any_none, Bool.false_eq_true,
      if_false]
    cases database.closures.get? request.key with
    | none => rfl
    | some row => exact if_congr serialize_ne_iff rfl rfl
  · obtain ⟨key, hkey⟩ := OrderedMap.mem_values.1 (List.mem_of_find?_eq_some hoperation)
    have hown := h key row hkey
    simp only [hoperation, Option.some_or, Option.map_some, Option.any_some, decide_eq_true_eq]
    by_cases hsame : row.request.key = request.key
    · rw [if_neg (not_not.2 hsame), ← hsame, hown, hkey]
      exact if_congr serialize_ne_iff rfl rfl
    · rw [if_pos hsame, if_pos]
      exact serialize_ne_iff.2 fun heq => hsame (congrArg _ heq)

theorem keyed_withClosure {database : SqliteEventDatabase ρ} (h : database.Keyed)
    (row : ClosureRow) (others : ρ) : (database.withClosure row others).Keyed := by
  intro key other hother
  change (database.closures.set row.request.key row).get? key = some other at hother
  rw [OrderedMap.get?_set] at hother
  split at hother
  · rename_i hkey
    cases hother
    exact hkey
  · exact h key other hother

/-- A row for a request that finds nothing is a commit. -/
theorem authorities_withClosure {database : SqliteEventDatabase ρ} (row : ClosureRow) (others : ρ)
    (hnone : database.readExisting row.request = .ok none) :
    (database.withClosure row others).authorities =
      database.authorities.commit (hydrateClosure row) := by
  obtain ⟨hoperation, hkey⟩ : (database.closures.values.find? fun other =>
      other.request.operationId = row.request.operationId) = none ∧
      database.closures.get? row.request.key = none := by
    unfold readExisting at hnone
    dsimp only at hnone
    split at hnone
    · rename_i hor
      exact Option.or_eq_none_iff.1 hor
    · split at hnone <;> cases hnone
  have hvalues : (database.closures.set row.request.key row).values =
      database.closures.values ++ [row] := by
    unfold OrderedMap.values
    rw [OrderedMap.entries_set_of_not_mem (OrderedMap.get?_eq_none_iff.1 hkey), List.map_append]
    rfl
  unfold authorities RunAuthorities.commit withClosure
  congr 1
  · funext key
    rw [OrderedMap.get?_set]
    show Option.map _ (if row.request.key = key then _ else _) = if row.request.key = key then _ else _
    split <;> rfl
  · funext id
    rw [hvalues, List.find?_append]
    show _ = if row.request.operationId = id then some row.request.key else _
    by_cases hid : row.request.operationId = id
    · rw [if_pos hid, ← hid, hoperation]
      simp
    · rw [if_neg hid]
      simp [hid]

theorem contains_runAuthority (database : SqliteEventDatabase ρ) (sessionId actorId : String)
    (authority : RunAdmissionAuthority) :
    database.runAuthority.closures.contains (sessionId, actorId, authority) =
      database.closures.has ⟨sessionId, actorId, authority.scope, authority.generation⟩ := by
  rw [Bool.eq_iff_iff, List.contains_iff_mem]
  have hhas := OrderedMap.get?_eq_none_iff (m := database.closures)
    (k := ⟨sessionId, actorId, authority.scope, authority.generation⟩)
  constructor
  · intro hmem
    obtain ⟨key, hkey, heq⟩ := List.mem_map.1 hmem
    unfold OrderedMap.has
    rw [← Option.not_isSome_iff_eq_none] at hhas
    by_contra hnone
    refine hhas.1 hnone ?_
    cases heq
    exact hkey
  · intro hsome
    unfold OrderedMap.has at hsome
    have hkey := mt hhas.2 (Option.isSome_iff_ne_none.1 hsome)
    exact List.mem_map.2 ⟨_, not_not.1 hkey, rfl⟩

/-- The check of `sqlite-run-authority.ts` lets only open runs through. -/
theorem isOpen_of_assert {database : SqliteEventDatabase ρ} {coordinate : RunCoordinate}
    (h : assertSqliteRunAuthorityOpen database.runAuthority coordinate = .ok ()) :
    database.authorities.IsOpen coordinate.runKey := by
  intro authority hauthority
  unfold assertSqliteRunAuthorityOpen at h
  split at h
  · cases h
  · split at h
    · cases h
    · rename_i hclosed
      change database.admissions.get? (coordinate.sessionId, coordinate.actorId,
        coordinate.runId) = some authority at hauthority
      unfold SqliteRunAuthority.isClosed at hclosed
      rw [show database.runAuthority.admissions = database.admissions from rfl, hauthority,
        Option.any_some, contains_runAuthority] at hclosed
      show (database.closures.get? _).map hydrateClosure = none
      rw [Option.map_eq_none_iff]
      exact Option.not_isSome_iff_eq_none.1 hclosed

theorem isOpen_of_ok {database : SqliteEventDatabase ρ} {coordinate : RunCoordinate}
    (h : database.assertRunOpen coordinate = .ok ()) :
    database.authorities.IsOpen coordinate.runKey := by
  unfold assertRunOpen at h
  split at h
  · rename_i hassert
    exact isOpen_of_assert hassert
  · cases h
  · cases h

theorem admits_of_fenced {database admitted : SqliteEventDatabase ρ} {coordinate : RunCoordinate}
    {data : CanonicalEventData} (h : Fenced coordinate database admitted data) :
    database.authorities.Admits coordinate.runKey admitted.authorities data ∧
      admitted.closures = database.closures := by
  cases data with
  | runQueued inputId inputFingerprint authority =>
    cases authority with
    | none =>
      obtain ⟨-, rfl⟩ := h
      exact ⟨rfl, rfl⟩
    | some authority =>
      obtain ⟨hopen, hadmission⟩ := h
      have hnone : database.authorities.closure (coordinate.runKey.under authority) = none := by
        show (database.closures.get? _).map hydrateClosure = none
        rw [Option.map_eq_none_iff]
        exact Option.not_isSome_iff_eq_none.1 (Bool.eq_false_iff.1 hopen)
      rcases hadmission with ⟨hsame, rfl⟩ | ⟨hfresh, rfl⟩
      · refine ⟨⟨hnone, Or.inr hsame, ?_⟩, rfl⟩
        unfold authorities RunAuthorities.withAdmission
        dsimp only
        congr 1
        funext run
        split
        · rename_i hrun
          exact hrun ▸ hsame
        · rfl
      · refine ⟨⟨hnone, Or.inl hfresh, ?_⟩, rfl⟩
        unfold authorities RunAuthorities.withAdmission withAdmission
        dsimp only
        congr 1
        funext run
        rw [OrderedMap.get?_set]
        refine if_congr ?_ rfl rfl
        obtain ⟨_, _, _⟩ := run
        simp [RunCoordinate.runKey]
  | runStarted id =>
    obtain ⟨hopen, rfl⟩ := h
    exact ⟨⟨isOpen_of_ok hopen, rfl⟩, rfl⟩
  | runResumed id =>
    obtain ⟨hopen, rfl⟩ := h
    exact ⟨⟨isOpen_of_ok hopen, rfl⟩, rfl⟩
  | runSuspended id => exact (show admitted = database from h) ▸ ⟨rfl, rfl⟩
  | runCompleted status => exact (show admitted = database from h) ▸ ⟨rfl, rfl⟩
  | item kind audience body => exact (show admitted = database from h) ▸ ⟨rfl, rfl⟩
  | other kind body => exact (show admitted = database from h) ▸ ⟨rfl, rfl⟩

theorem call_allowed (schema : EventSchema) (options : SqliteEventStoreOptions ρ)
    (eventCall : EventCall) {database : SqliteEventDatabase ρ} (hkeyed : database.Keyed) :
    Ends (call schema options eventCall) database
      (fun answer database' => database'.Keyed ∧
        answer.Authorities database.authorities database'.authorities eventCall)
      (fun _ database' => database' = database) := by
  cases eventCall with
  | append stream expectedRevision coordinate data host =>
    simp only [call, ends_map]
    refine (append_ends schema stream expectedRevision coordinate data host database).mono
      (fun event database' h => ?_) fun _ _ h => h
    obtain ⟨-, hcoordinate, hdata, admitted, hfenced, hrevision, hmax, rfl⟩ := h
    obtain ⟨hadmits, hclosures⟩ := admits_of_fenced hfenced
    refine ⟨fun key row hrow => hkeyed key row (hclosures ▸ hrow), ?_⟩
    show RunAuthorities.Admits _ event.coordinate.runKey _ event.data
    rw [hcoordinate, hdata]
    exact hadmits
  | purgeTerminalRuns stream request =>
    simp only [call, ends_map]
    refine (purgeTerminalRuns_ends stream request database).mono
      (fun result database' h => ?_) fun _ _ h => h
    rcases h with rfl | ⟨revision, rfl⟩
    · exact ⟨hkeyed, rfl⟩
    · exact ⟨hkeyed, rfl⟩
  | beginClose request =>
    simp only [call, ends_map]
    refine (beginClose_ends options request database).mono
      (fun progress database' h => ?_) fun _ _ h => h
    rw [readExisting_eq hkeyed] at h
    obtain ⟨rfl, h⟩ := h
    exact ⟨hkeyed, rfl, h⟩
  | resumeClose request clock =>
    simp only [call, ends_bind, ends_attempt, ends_map]
    refine ⟨fun closedAt _ => ?_, fun _ _ => trivial⟩
    refine (resumeClose_ends options request closedAt database).mono
      (fun progress database' h => ?_) fun _ _ h => h
    rcases h with ⟨rfl, closure, hanswered, hfound⟩ | ⟨hnone, row, others, rfl, hanswered, rfl⟩
    · rw [readExisting_eq hkeyed] at hfound
      exact ⟨hkeyed, Or.inl ⟨rfl, closure, hanswered, hfound⟩⟩
    · refine ⟨keyed_withClosure hkeyed row others, Or.inr ⟨readExisting_eq hkeyed _ ▸ hnone, ?_⟩⟩
      exact Or.inl ⟨hydrateClosure row, rfl, hanswered, authorities_withClosure row others hnone⟩
  | commitClose request closedAt => exact rfl

/-- What passes the checks of `closeAuthority`. -/
def Accepts (request : CloseRunAuthorityRequest) : Prop :=
  captureCloseRunAuthorityRequest request = .ok ()

theorem call_accepted (schema : EventSchema) (options : SqliteEventStoreOptions ρ)
    (request : CloseRunAuthorityRequest) (database : SqliteEventDatabase ρ) :
    Ends (call schema options (.beginClose request)) database
      (fun _ database' => database' = database ∧ Accepts request)
      (fun _ database' => database' = database) := by
  simp only [call, ends_map]
  unfold beginClose
  simp only [ends_bind, ends_attempt, ends_get]
  refine ⟨fun _ hcapture => ?_, fun _ _ => trivial⟩
  refine ⟨fun existing _ => ?_, fun _ _ => trivial⟩
  cases existing with
  | some closure => exact ⟨rfl, hcapture⟩
  | none =>
    dsimp only
    split
    · exact rfl
    · split
      · exact rfl
      · exact ⟨rfl, hcapture⟩

theorem call_repeated (schema : EventSchema) (options : SqliteEventStoreOptions ρ)
    {request : CloseRunAuthorityRequest} {database : SqliteEventDatabase ρ}
    {closure : RunAuthorityClosure} (hkeyed : database.Keyed) (haccepts : Accepts request)
    (hfound : database.authorities.lookup request = .ok (some closure)) :
    respond (call schema options (.beginClose request)) database =
      (.ok (.progress (.answered closure)), database) := by
  rw [← readExisting_eq hkeyed] at hfound
  have hbegin : beginClose options request database = .ok (.answered closure) database := by
    unfold beginClose
    rw [show captureCloseRunAuthorityRequest request = .ok () from haccepts]
    show EStateM.bind (attempt (database.readExisting request)) _ database = _
    rw [hfound]
    rfl
  simp only [call, respond, Functor.map, EStateM.map, hbegin]

end SqliteEventDatabase

def sqliteAuthorityStore {ρ : Type} (schema : EventSchema) (options : SqliteEventStoreOptions ρ)
    (others : ρ) : RunAuthorityStore :=
  { sqliteEventStore schema options others with
    authorities := SqliteEventDatabase.authorities
    Valid := SqliteEventDatabase.Keyed
    Accepts := SqliteEventDatabase.Accepts
    valid_empty := nofun
    authorities_empty := rfl
    allowed := fun eventCall _ hkeyed =>
      SqliteEventDatabase.call_allowed schema options eventCall hkeyed
    accepted := SqliteEventDatabase.call_accepted schema options
    repeated := fun _ _ _ => SqliteEventDatabase.call_repeated schema options }

/-! ## Dispatch -/

theorem ends_any {ε σ α : Type} {m : EStateM ε σ α} {s : σ} :
    Ends m s (fun _ _ => True) (fun _ _ => True) := by
  unfold Ends
  cases m s <;> trivial

theorem dispatched_selection {selection : ActionDeliverySelection} {record : ActionRecord}
    (h : (ActionAnswer.selection selection).dispatched = some record) :
    selection.delivery = some ⟨.dispatch, record⟩ := by
  obtain ⟨_ | ⟨kind, action⟩, changed⟩ := selection
  · cases h
  · cases kind with
    | reconcile => cases h
    | dispatch =>
      cases h
      rfl

theorem dispatched_reconcile (unsettled : Option ActionRecord) :
    (ActionAnswer.recovery (unsettled.map (ActionDelivery.mk .reconcile))).dispatched = none := by
  cases unsettled <;> rfl

theorem isActionRunAuthorityOpen_eq_true {check : Except ActionError Unit} :
    isActionRunAuthorityOpen check = .ok true ↔ check = .ok () := by
  unfold isActionRunAuthorityOpen
  split <;> simp_all

namespace InMemoryActionJournal

variable {ctx : ActionContext} {authority : RunAuthorityCheck}

/-- A record is claimed behind a check on its run. -/
theorem claimLoop_open (request : ActionClaimRequest) (replayable : List String)
    (keys : List ActionKey) (scanned : Nat) (journal : InMemoryActionJournal) :
    Ends (claimLoop ctx authority request replayable scanned keys) journal
      (fun claimed _ => ∀ moved, claimed = some moved → authority moved.coordinate = .ok ())
      (fun _ _ => True) := by
  have hnone : ∀ moved, (none : Option ActionRecord) = some moved →
      authority moved.coordinate = .ok () := fun _ h => absurd h (Option.some_ne_none _).symm
  induction keys generalizing scanned with
  | nil =>
    rw [claimLoop, ends_pure]
    exact hnone
  | cons key rest ih =>
    simp only [claimLoop, ends_bind, ends_get]
    split
    · exact ih scanned
    · rename_i record hrecord
      split
      · exact ih scanned
      · split
        · rw [ends_pure]
          exact hnone
        · simp only [isRunOpen, ends_bind, ends_attempt]
          refine ⟨fun isOpen hopen => ?_, fun _ _ => trivial⟩
          split
          · rename_i htrue
            rw [htrue, isActionRunAuthorityOpen_eq_true] at hopen
            split
            · exact ih (scanned + 1)
            · simp only [ends_bind, ends_attempt]
              refine ⟨fun transition htransition => ?_, fun _ _ => trivial⟩
              refine ⟨fun _ _ => ⟨fun _ _ => ?_, fun _ _ => trivial⟩, fun _ _ => trivial⟩
              have hmoved : transition.record = record.claimedBy request := by
                split at htransition
                · rw [(reclaimActionRecord_eq_ok_iff.1 htransition).2.2.2.2]
                · rw [(claimActionRecord_eq_ok_iff.1 htransition).2.2]
              have hclaimed : ∀ moved, some transition.record = some moved →
                  authority moved.coordinate = .ok () := by
                rintro moved ⟨⟩
                rw [hmoved]
                exact hopen
              split
              · exact hclaimed
              · exact hclaimed
          · exact ih (scanned + 1)

theorem nextDelivery_open (request : ActionClaimRequest) (journal : InMemoryActionJournal) :
    Ends (nextDelivery ctx authority request) journal
      (fun selection _ => ∀ action, selection.delivery = some ⟨.dispatch, action⟩ →
        authority action.coordinate = .ok ()) (fun _ _ => True) := by
  simp only [nextDelivery, retireClosedPending, ends_bind, ends_attempt, ends_get]
  refine ⟨fun _ _ => ?_, fun _ _ => trivial⟩
  refine (retireLoop_sweeps request _ 0 journal).mono (fun retired swept _ => ?_) fun _ _ _ => trivial
  rw [ends_pure]
  refine (expireDueClaims_sweeps request swept).mono (fun expired _ _ => ?_) fun _ _ _ => trivial
  split
  · rw [ends_pure]
    intro action haction
    cases haction
  · simp only [ends_bind, claimPendingRecord, ends_get]
    refine (claimLoop_open request _ _ 0 _).mono (fun claimed _ hclaimed => ?_) fun _ _ h => h
    cases claimed with
    | none =>
      simp only [ends_bind, ends_get, ends_pure]
      intro action haction
      obtain ⟨_, -, hdelivery⟩ := Option.map_eq_some_iff.1 haction
      cases hdelivery
    | some moved =>
      rintro action ⟨⟩
      exact hclaimed moved rfl

theorem call_open (operation : ActionOperation) (journal : InMemoryActionJournal) :
    Ends (call ctx authority operation) journal
      (fun answer _ => ∀ record, answer.dispatched = some record →
        authority record.coordinate = .ok ()) (fun _ _ => True) := by
  have hany : ∀ {α : Type} {m : EStateM ActionError InMemoryActionJournal α}
      {f : α → ActionAnswer}, (∀ a, (f a).dispatched = none) →
      Ends (f <$> m) journal (fun answer _ => ∀ record, answer.dispatched = some record →
        authority record.coordinate = .ok ()) (fun _ _ => True) := by
    intro α m f hnone
    rw [ends_map]
    refine ends_any.mono (fun a _ _ record hrecord => ?_) fun _ _ h => h
    rw [hnone] at hrecord
    cases hrecord
  cases operation with
  | nextDelivery request =>
    rw [call, ends_map]
    refine (nextDelivery_open request journal).mono (fun selection _ h record hrecord => ?_)
      fun _ _ h => h
    exact h record (dispatched_selection hrecord)
  | recoverDelivery stream =>
    simp only [call, recoverDelivery, ends_map, ends_bind, ends_attempt, ends_get, ends_pure]
    refine ⟨fun _ _ record hrecord => ?_, fun _ _ => trivial⟩
    rw [dispatched_reconcile] at hrecord
    cases hrecord
  | _ => exact hany fun _ => rfl

end InMemoryActionJournal

namespace SqliteActionDatabase

variable {ctx : ActionContext} {tables : SqliteRunAuthority}

/-- A row is claimed behind a check on its run. -/
theorem claimRows_open (request : ActionClaimRequest) (rows : List ActionRow)
    (database : SqliteActionDatabase) :
    Ends (claimRows ctx tables request rows) database
      (fun claimed _ => ∀ moved, claimed = some moved →
        assertSqliteRunAuthorityOpen tables moved.coordinate = .ok ()) (fun _ _ => True) := by
  induction rows with
  | nil =>
    rw [claimRows, ends_pure]
    exact fun _ h => absurd h (Option.some_ne_none _).symm
  | cons row rest ih =>
    simp only [claimRows, ends_bind, ends_attempt]
    refine ⟨fun record _ => ⟨fun isOpen hopen => ?_, fun _ _ => trivial⟩, fun _ _ => trivial⟩
    split
    · rename_i htrue
      rw [isRunOpen, htrue, isActionRunAuthorityOpen_eq_true] at hopen
      simp only [ends_bind, ends_get]
      split
      · exact ih
      · split
        · trivial
        · simp only [ends_bind, ends_attempt]
          refine ⟨fun transition htransition => ?_, fun _ _ => trivial⟩
          have hmoved : transition.record = record.claimedBy request := by
            split at htransition
            · rw [(reclaimActionRecord_eq_ok_iff.1 htransition).2.2.2.2]
            · rw [(claimActionRecord_eq_ok_iff.1 htransition).2.2]
          have hclaimed : ∀ moved, some transition.record = some moved →
              assertSqliteRunAuthorityOpen tables moved.coordinate = .ok () := by
            rintro moved ⟨⟩
            rw [hmoved]
            exact hopen
          split
          · simp only [ends_bind, ends_modify, ends_pure]
            refine ends_any.mono (fun _ _ _ => ?_) fun _ _ h => h
            exact ends_any.mono (fun _ _ _ => hclaimed) fun _ _ h => h
          · simp only [ends_bind, ends_pure]
            refine ends_any.mono (fun _ _ _ => ?_) fun _ _ h => h
            exact ends_any.mono (fun _ _ _ => hclaimed) fun _ _ h => h
    · exact ih

theorem nextDelivery_open (request : ActionClaimRequest) (database : SqliteActionDatabase) :
    Ends (nextDelivery ctx tables request) database
      (fun selection _ => ∀ action, selection.delivery = some ⟨.dispatch, action⟩ →
        assertSqliteRunAuthorityOpen tables action.coordinate = .ok ()) (fun _ _ => True) := by
  simp only [nextDelivery, ends_bind, ends_attempt, ends_transaction]
  refine ⟨fun _ _ => ?_, fun _ _ => trivial⟩
  refine ends_any.mono (fun _ _ _ => ?_) fun _ _ h => h
  refine ends_any.mono (fun _ _ _ => ?_) fun _ _ h => h
  rw [ends_get]
  refine ⟨fun unsettled _ => ?_, fun _ _ => trivial⟩
  split
  · rw [ends_pure]
    intro action haction
    cases haction
  · simp only [ends_bind, claimPendingRecord, ends_get]
    refine (claimRows_open request _ _).mono (fun claimed _ hclaimed => ?_) fun _ _ h => h
    cases claimed with
    | none =>
      simp only [ends_bind, ends_get, ends_attempt, ends_pure]
      refine ⟨fun _ _ action haction => ?_, fun _ _ => trivial⟩
      obtain ⟨_, -, hdelivery⟩ := Option.map_eq_some_iff.1 haction
      cases hdelivery
    | some moved =>
      rintro action ⟨⟩
      exact hclaimed moved rfl

theorem call_open (operation : ActionOperation) (database : SqliteActionDatabase) :
    Ends (call ctx tables operation) database
      (fun answer _ => ∀ record, answer.dispatched = some record →
        assertSqliteRunAuthorityOpen tables record.coordinate = .ok ()) (fun _ _ => True) := by
  have hany : ∀ {α : Type} {m : EStateM ActionError SqliteActionDatabase α}
      {f : α → ActionAnswer}, (∀ a, (f a).dispatched = none) →
      Ends (f <$> m) database (fun answer _ => ∀ record, answer.dispatched = some record →
        assertSqliteRunAuthorityOpen tables record.coordinate = .ok ()) (fun _ _ => True) := by
    intro α m f hnone
    rw [ends_map]
    refine ends_any.mono (fun a _ _ record hrecord => ?_) fun _ _ h => h
    rw [hnone] at hrecord
    cases hrecord
  cases operation with
  | nextDelivery request =>
    rw [call, ends_map]
    refine (nextDelivery_open request database).mono (fun selection _ h record hrecord => ?_)
      fun _ _ h => h
    exact h record (dispatched_selection hrecord)
  | recoverDelivery stream =>
    simp only [call, recoverDelivery, ends_map, ends_bind, ends_attempt, ends_get, ends_pure]
    refine ⟨fun _ _ => ⟨fun _ _ record hrecord => ?_, fun _ _ => trivial⟩, fun _ _ => trivial⟩
    rw [dispatched_reconcile] at hrecord
    cases hrecord
  | _ => exact hany fun _ => rfl

end SqliteActionDatabase

/-! ## The hosts -/

/-- `assertRunAuthorityOpenSynchronously` as the journal calls it. -/
def InMemoryEventStore.runAuthorityCheck (store : InMemoryEventStore) : RunAuthorityCheck :=
  fun coordinate => match store.assertRunAuthorityOpen coordinate with
    | .ok () => .ok ()
    | .error .runAuthorityClosed => .error .runAuthorityClosed
    | .error _ => .error .invalidStreamCoordinate

def inMemoryHost (schema : EventSchema) (hasGoalBinding : Bool) (ctx : ActionContext) :
    RunAuthorityHost where
  store := inMemoryAuthorityStore schema hasGoalBinding
  journal := inMemoryJournal ctx
  authority := InMemoryEventStore.runAuthorityCheck
  dispatches store operation journal := by
    refine (InMemoryActionJournal.call_open operation journal).mono
      (fun answer _ h record hrecord => ?_) fun _ _ h => h
    refine InMemoryEventStore.isOpen_of_ok ?_
    have hcheck := h record hrecord
    unfold InMemoryEventStore.runAuthorityCheck at hcheck
    split at hcheck
    · rename_i hopen
      exact hopen
    · cases hcheck
    · cases hcheck

def sqliteHost {ρ : Type} (schema : EventSchema) (options : SqliteEventStoreOptions ρ)
    (others : ρ) (ctx : ActionContext) : RunAuthorityHost where
  store := sqliteAuthorityStore schema options others
  journal := sqliteJournal ctx
  authority := SqliteEventDatabase.runAuthority
  dispatches _ operation actions :=
    (SqliteActionDatabase.call_open operation actions).mono
      (fun _ _ h record hrecord => SqliteEventDatabase.isOpen_of_assert (h record hrecord))
      fun _ _ h => h

def runAuthorityHost (kind : EventStoreKind) (schema : EventSchema) (ctx : ActionContext) :
    RunAuthorityHost :=
  match kind with
  | .inMemory hasGoalBinding => inMemoryHost schema hasGoalBinding ctx
  | .sqlite _ options others => sqliteHost schema options others ctx

/-! ## Closed authorities -/

/-- Once an authority is closed it fences what comes after, and its closure stays. -/
structure RunAuthorityHost.FencedFrom (host : RunAuthorityHost) (calls : List HostCall)
    (call : HostCall) : Prop where
  fences : ∀ request closure, host.Closed calls request closure →
    host.Fences calls call request.key
  keeps : ∀ request closure, host.Closed calls request closure →
    host.KeepsClosure calls call request closure

/-- In a run where no close commits behind the back of another that retires Goals, every
call that comes after a close is fenced. -/
theorem closed_authority_fences (kind : EventStoreKind) (schema : EventSchema)
    (ctx : ActionContext) (calls : List HostCall)
    (hundisturbed : (runAuthorityHost kind schema ctx).Undisturbed calls) :
    ∀ before call after, calls = before ++ call :: after →
      (runAuthorityHost kind schema ctx).FencedFrom before call := by
  intro before call after hcalls
  have hprefix : (runAuthorityHost kind schema ctx).Undisturbed (before ++ [call]) := by
    rw [hcalls, List.append_cons before call after] at hundisturbed
    exact RunAuthorityHost.Undisturbed.of_append _ hundisturbed
  constructor
  case fences => exact fun request closure hclosed => RunAuthorityHost.fences_run _ hclosed call
  case keeps => exact fun request closure hclosed =>
    RunAuthorityHost.keepsClosure_run _ hprefix hclosed

/-! Two requests to close one authority: the second is made while the Goals of the first are
retired. -/

def overwritingRequest : CloseRunAuthorityRequest where
  sessionId := "s"
  actorId := "a"
  scope := "scope"
  generation := 0
  operationId := "first"
  goalRetirement := some
    { retirementId := "r", stateRevision := "0"
      partition := ⟨⟨"o", "t", "0"⟩, none, none⟩
      gameTime := ⟨"t", "0", "0"⟩
      recordedAt := "2026-01-01T00:00:00.000Z" }
  workRetirement := none

def overwrittenRequest : CloseRunAuthorityRequest :=
  { overwritingRequest with operationId := "second", goalRetirement := none }

def overwrittenClosure : RunAuthorityClosure :=
  { overwrittenRequest with
    closedAt := "2026-01-01T00:00:02.000Z"
    workRetirementResult := none }

def overwritingCalls : List HostCall :=
  [.close overwritingRequest, .clock 0 (.ok "2026-01-01T00:00:01.000Z"), .close overwrittenRequest,
    .clock 1 (.ok "2026-01-01T00:00:02.000Z"), .goalsRetired 0 (.ok ())]

theorem closed_authority_overwritten :
    (runAuthorityHost (.inMemory true) noBodies sampleContext).Closed overwritingCalls
        overwrittenRequest overwrittenClosure ∧
      ¬ (runAuthorityHost (.inMemory true) noBodies sampleContext).FencedFrom overwritingCalls
        (.close overwrittenRequest) := by
  have hclosed : (runAuthorityHost (.inMemory true) noBodies sampleContext).Closed overwritingCalls
      overwrittenRequest overwrittenClosure := by
    refine ⟨overwritingCalls.take 3, .clock 1 (.ok "2026-01-01T00:00:02.000Z"),
      [.goalsRetired 0 (.ok ())], rfl, ?_⟩
    have hrun : (match (runAuthorityHost (.inMemory true) noBodies sampleContext).outcome
        (overwritingCalls.take 3) (.clock 1 (.ok "2026-01-01T00:00:02.000Z")) with
      | .closed request (.ok closure) =>
        decide (request = overwrittenRequest) && decide (closure = overwrittenClosure)
      | .event _ | .action _ | .closed _ (.error _) | .waits => false) = true := by decide +kernel
    split at hrun
    · rename_i request closure houtcome
      simp only [Bool.and_eq_true, decide_eq_true_eq] at hrun
      rw [houtcome, hrun.1, hrun.2]
    all_goals cases hrun
  refine ⟨hclosed, fun hfenced => ?_⟩
  have hrepeated := (hfenced.keeps _ _ hclosed).repeated rfl
  have hrun : (match (runAuthorityHost (.inMemory true) noBodies sampleContext).outcome
      overwritingCalls (.close overwrittenRequest) with
    | .closed _ (.error _) => true
    | .event _ | .action _ | .closed _ (.ok _) | .waits => false) = true := by decide +kernel
  unfold RunAuthorityHost.outcome at hrun
  rw [hrepeated] at hrun
  cases hrun

/-- The run up to the commit of the second request is undisturbed. -/
theorem closed_authority_fences_repeated :
    (runAuthorityHost (.inMemory true) noBodies sampleContext).FencedFrom
      [.close overwrittenRequest, .clock 0 (.ok "2026-01-01T00:00:02.000Z")]
      (.close overwrittenRequest) := by
  refine closed_authority_fences (.inMemory true) noBodies sampleContext
    [.close overwrittenRequest, .clock 0 (.ok "2026-01-01T00:00:02.000Z"),
      .close overwrittenRequest] ?_ _ _ [] rfl
  intro before call after hcalls
  have hmem : call ∈ before ++ call :: after := by simp
  rw [← hcalls] at hmem
  simp only [List.mem_cons, List.not_mem_nil, or_false] at hmem
  rcases hmem with rfl | rfl | rfl <;> trivial

end OpenGameAgent
