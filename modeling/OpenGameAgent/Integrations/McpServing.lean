import Mathlib.Data.List.Induction
import OpenGameAgent.Integrations.McpCatalogs

/-!
# One live generation at a time

What a connection is for: one `open` at a time, an installed state whose client is alive, catalogues
and calls that belong to it, and no more calls in flight than the limit allows
(`ServesOneGeneration`).  All of it holds in every run but for the client: where `onclose` comes
after the end of the handshake and before the installation, it finds another state installed or
none, and the client that is then installed is dead (`serves_iff_meets`).
-/

namespace OpenGameAgent.McpConnection

variable {Remote Tool Content : Type}

/-- The calls in flight on a state. -/
def callsOn (connection : GameMcpServerConnection Tool Content) (state : ℕ) : ℕ :=
  connection.calls.countP fun call => call.tool.connectionState = state

/-- One live generation is served at a time. -/
structure ServesOneGeneration (limits : GameMcpLimits)
    (connection : GameMcpServerConnection Tool Content) : Prop where
  oneOpen : ∀ (i j : ℕ) (first second : Opening), connection.opens[i]? = some first →
    connection.opens[j]? = some second → first.InProgress → second.InProgress → i = j
  live : ∀ generation, connection.state = some generation →
    (connection.states generation).closed = false
  closed : connection.disposed = true → connection.state = none
  catalogs : ∀ load ∈ connection.loads, ∀ catalog,
    load.loading = .finished (.ok catalog) → CatalogOk connection catalog
  sent : ∀ call ∈ connection.sent, call.2.state = some call.1.connectionState ∧
    call.2.epochs call.1.connectionState = call.1.catalogEpoch
  calls : ∀ state, (connection.states state).activeCalls = callsOn connection state
  bounded : ∀ state,
    (connection.states state).activeCalls ≤ limits.maxConcurrentCallsPerServer

/-- An `open` goes on behind its handshake with a client that has not closed, or throws it away. -/
def Meets (connection : GameMcpServerConnection Tool Content) :
    Event Remote Tool Content → Prop
  | .resumeOpen operation => ∀ generation,
      connection.opens[operation]? = some (.connected generation) →
        connection.disposed = true ∨ (connection.states generation).closed = false
  | _ => True

variable {connection next : GameMcpServerConnection Tool Content} {limits : GameMcpLimits}
  {reader : ToolReader Remote Tool Content}

/-! ## The calls -/

structure CallsOk (limits : GameMcpLimits) (connection : GameMcpServerConnection Tool Content) :
    Prop where
  counted : ∀ state, (connection.states state).activeCalls = callsOn connection state
  bounded : ∀ state,
    (connection.states state).activeCalls ≤ limits.maxConcurrentCallsPerServer
  inFlight : ∀ call ∈ connection.calls, call.tool.connectionState ∈ connection.installed
  sent : ∀ call ∈ connection.sent, call.2.state = some call.1.connectionState ∧
    call.2.epochs call.1.connectionState = call.1.catalogEpoch

theorem CallsOk.congr (h : CallsOk limits connection)
    (hactive : ∀ state,
      (next.states state).activeCalls = (connection.states state).activeCalls)
    (hcalls : next.calls = connection.calls) (hinstalled : connection.installed ⊆ next.installed)
    (hsent : next.sent = connection.sent) : CallsOk limits next := by
  constructor
  · intro state
    rw [hactive, callsOn, hcalls]
    exact h.counted state
  · intro state
    rw [hactive]
    exact h.bounded state
  · rw [hcalls]
    exact fun call hcall => hinstalled (h.inFlight call hcall)
  · rw [hsent]
    exact h.sent

/-- A state that keeps its calls. -/
theorem activeCalls_setState {generation : ℕ} {state : ConnectedGameMcpState}
    (h : state.activeCalls = (connection.states generation).activeCalls) (other : ℕ) :
    ((connection.setState generation state).states other).activeCalls =
      (connection.states other).activeCalls := by
  rw [setState_states]
  split
  · rename_i hsame
    rw [hsame, h]
  · rfl

/-- A call goes out on the state and the epoch of its tool. -/
theorem CallsOk.call (h : CallsOk limits connection) (hopens : OpensOk connection)
    (tool : LoadedGameMcpTool Tool) (aborted : Bool) :
    CallsOk limits (connection.call limits tool aborted) := by
  rw [GameMcpServerConnection.call]
  dsimp only
  split
  · exact h.congr (fun _ => rfl) rfl (List.Subset.refl _) rfl
  · rename_i hsame
    rw [not_or, not_not, not_not] at hsame
    split
    · exact h.congr (fun _ => rfl) rfl (List.Subset.refl _) rfl
    · rename_i hroom
      constructor
      · intro state
        have hcounted := h.counted state
        rw [callsOn] at hcounted ⊢
        dsimp only
        rw [setState_states, List.countP_append]
        split
        · rename_i hstate
          subst hstate
          rw [List.countP_cons_of_pos (by simp), List.countP_nil]
          dsimp only
          omega
        · rename_i hne
          rw [List.countP_cons_of_neg (by simpa [eq_comm] using hne), List.countP_nil]
          exact hcounted
      · intro state
        have hbounded := h.bounded state
        dsimp only
        rw [setState_states]
        split
        · dsimp only
          omega
        · exact hbounded
      · intro call hcall
        cases List.mem_append.mp hcall with
        | inl hbefore => exact h.inFlight call hbefore
        | inr hlast =>
          rw [List.mem_singleton] at hlast
          rw [hlast]
          exact hopens.state _ hsame.1
      · intro call hcall
        cases List.mem_append.mp hcall with
        | inl hbefore => exact h.sent call hbefore
        | inr hlast =>
          rw [List.mem_singleton] at hlast
          rw [hlast]
          exact hsame

/-- A call that has ended is not counted any more. -/
theorem CallsOk.callEnds (h : CallsOk limits connection) {number : ℕ} {call : Call Tool}
    (hcall : connection.calls[number]? = some call)
    (result : Except SdkFailure (CallToolResult Content)) :
    CallsOk limits (connection.callEnds reader number call result) := by
  obtain ⟨hlt, hget⟩ := List.getElem?_eq_some_iff.mp hcall
  have hperm : (call :: connection.calls.eraseIdx number).Perm connection.calls := by
    rw [← hget]
    exact List.getElem_cons_eraseIdx_perm hlt
  rw [GameMcpServerConnection.callEnds]
  constructor
  · intro state
    have hcounted := h.counted state
    rw [callsOn, ← hperm.countP_eq] at hcounted
    rw [callsOn]
    dsimp only
    rw [setState_states]
    split
    · rename_i hstate
      subst hstate
      rw [List.countP_cons_of_pos (by simp)] at hcounted
      dsimp only
      omega
    · rename_i hne
      rw [List.countP_cons_of_neg (by simpa [eq_comm] using hne)] at hcounted
      exact hcounted
  · intro state
    have hbounded := h.bounded state
    dsimp only
    rw [setState_states]
    split
    · rename_i hstate
      subst hstate
      dsimp only
      omega
    · exact hbounded
  · intro other hother
    exact h.inFlight other (List.mem_of_mem_eraseIdx hother)
  · exact h.sent

/-- The generation that an `open` takes has no calls. -/
theorem CallsOk.transportReady (h : CallsOk limits connection) (hopens : OpensOk connection)
    (operation : ℕ) (result : Except SdkFailure Bool) :
    CallsOk limits (connection.transportReady operation result) := by
  unfold GameMcpServerConnection.transportReady
  split
  · exact h.congr (fun _ => rfl) rfl (List.Subset.refl _) rfl
  · exact h.congr (fun _ => rfl) rfl (List.Subset.refl _) rfl
  · refine h.congr (fun state => ?_) rfl (List.Subset.refl _) rfl
    refine activeCalls_setState ?_ state
    have hnone : callsOn connection (connection.nextGeneration + 1) = 0 := by
      rw [callsOn, List.countP_eq_zero]
      intro call hcall
      have hle := hopens.installed _ (h.inFlight call hcall)
      simp only [decide_eq_true_eq]
      omega
    rw [h.counted, hnone]
    rfl

/-- The abort of a signal leaves the calls' tools. -/
theorem map_tool_modify (calls : List (Call Tool)) (number : ℕ) :
    (calls.modify number fun call => { call with aborted := true }).map (·.tool) =
      calls.map (·.tool) := by
  refine List.ext_getElem? fun index => ?_
  rw [List.getElem?_map, List.getElem?_map, List.getElem?_modify]
  cases calls[index]? with
  | none => rfl
  | some call =>
    refine congrArg some ?_
    split <;> rfl

theorem countP_tools (calls : List (Call Tool)) (state : ℕ) :
    (calls.countP fun call => call.tool.connectionState = state) =
      (calls.map (·.tool)).countP fun tool => tool.connectionState = state := by
  rw [List.countP_map]
  rfl

theorem CallsOk.act {event : Event Remote Tool Content} (h : CallsOk limits connection)
    (hopens : OpensOk connection)
    (hact : McpConnection.act limits reader connection event = .ok next) : CallsOk limits next := by
  have hinstalled := (Frame.act hopens hact).installed
  cases changes_act hact with
  | loadCatalog aborted =>
    rw [GameMcpServerConnection.loadCatalog]
    split
    · exact h.congr (fun _ => rfl) rfl (List.Subset.refl _) rfl
    · split
      · exact h.congr (fun _ => rfl) rfl (List.Subset.refl _) rfl
      · split <;> exact h.congr (fun _ => rfl) rfl (List.Subset.refl _) rfl
  | call tool aborted => exact h.call hopens tool aborted
  | abortCall number =>
    refine ⟨fun state => ?_, h.bounded, ?_, h.sent⟩
    · have hcounted := h.counted state
      rw [callsOn, countP_tools] at hcounted ⊢
      rw [map_tool_modify]
      exact hcounted
    · intro call hcall
      have htool : call.tool ∈ connection.calls.map (·.tool) := by
        rw [← map_tool_modify connection.calls number]
        exact List.mem_map_of_mem hcall
      obtain ⟨before, hbefore, hsame⟩ := List.mem_map.mp htool
      rw [← hsame]
      exact h.inFlight before hbefore
  | transportReady operation result hopening => exact h.transportReady hopens operation result
  | resumeOpen operation generation hopening =>
    rw [GameMcpServerConnection.resumeOpen]
    split
    · exact h.congr (fun _ => rfl) rfl (List.Subset.refl _) rfl
    · exact h.congr (fun _ => rfl) rfl (fun _ hmem => List.mem_append_left _ hmem) rfl
  | callEnds number call result hcall => exact h.callEnds hcall result
  | onclose generation =>
    exact h.congr (fun state => activeCalls_setState (by rfl) state) rfl hinstalled rfl
  | onListChanged generation =>
    rw [GameMcpServerConnection.onListChanged]
    split
    · exact h.congr (fun state => activeCalls_setState (by rfl) state) rfl
        (List.Subset.refl _) rfl
    · exact h
  | close | abortLoad | opening | releaseOpen | shared | interrupted | beginListing | pageListed =>
    exact h.congr (fun _ => rfl) rfl hinstalled rfl

/-! ## The client -/

/-- The client of the installed state is alive. -/
def Alive (connection : GameMcpServerConnection Tool Content) : Prop :=
  ∀ generation, connection.state = some generation →
    (connection.states generation).closed = false

theorem Alive.of_eq (h : Alive connection)
    (hstate : ∀ generation, next.state = some generation → connection.state = some generation)
    (hclosed : ∀ generation, next.state = some generation →
      (next.states generation).closed = (connection.states generation).closed) : Alive next := by
  intro generation hnext
  rw [hclosed generation hnext]
  exact h generation (hstate generation hnext)

/-- A state that keeps its client. -/
theorem closed_setState {generation : ℕ} {state : ConnectedGameMcpState}
    (h : state.closed = (connection.states generation).closed) (other : ℕ) :
    ((connection.setState generation state).states other).closed =
      (connection.states other).closed := by
  rw [setState_states]
  split
  · rename_i hsame
    rw [hsame, h]
  · rfl

theorem Alive.act {event : Event Remote Tool Content} (h : Alive connection)
    (hopens : OpensOk connection) (hmeets : Meets connection event)
    (hact : McpConnection.act limits reader connection event = .ok next) : Alive next := by
  cases changes_act hact with
  | loadCatalog aborted =>
    rw [GameMcpServerConnection.loadCatalog]
    split
    · exact h.of_eq (fun _ hstate => hstate) (fun _ _ => rfl)
    · split
      · exact h.of_eq (fun _ hstate => hstate) (fun _ _ => rfl)
      · split <;> exact h.of_eq (fun _ hstate => hstate) (fun _ _ => rfl)
  | call tool aborted =>
    rw [GameMcpServerConnection.call]
    dsimp only
    split
    · exact h.of_eq (fun _ hstate => hstate) (fun _ _ => rfl)
    · split
      · exact h.of_eq (fun _ hstate => hstate) (fun _ _ => rfl)
      · exact h.of_eq (fun _ hstate => hstate) (fun other _ => closed_setState (by rfl) other)
  | close =>
    refine h.of_eq (fun generation hstate => ?_) (fun _ _ => rfl)
    have hstate : (if connection.disposed then connection.state else none) = some generation :=
      hstate
    split at hstate
    · exact hstate
    · cases hstate
  | transportReady operation result hopening =>
    unfold GameMcpServerConnection.transportReady
    split
    · exact h.of_eq (fun _ hstate => hstate) (fun _ _ => rfl)
    · exact h.of_eq (fun _ hstate => hstate) (fun _ _ => rfl)
    · refine h.of_eq (fun _ hstate => hstate) fun generation hstate => ?_
      -- the installed generation is an older one
      have hle := hopens.installed generation (hopens.state generation hstate)
      have hkept := @setState_states _ _ connection (connection.nextGeneration + 1) generation
        ⟨0, 0, false⟩
      rw [if_neg (by omega)] at hkept
      exact congrArg ConnectedGameMcpState.closed hkept
  | resumeOpen operation generation hopening =>
    rw [GameMcpServerConnection.resumeOpen]
    split
    · exact h.of_eq (fun _ hstate => hstate) (fun _ _ => rfl)
    · rename_i hdisposed
      intro other hother
      cases hother
      exact (hmeets generation hopening).resolve_left hdisposed
  | callEnds number call result hcall =>
    exact h.of_eq (fun _ hstate => hstate) (fun other _ => closed_setState (by rfl) other)
  | onclose generation =>
    have hstate : ∀ other, (connection.onclose generation).state = some other →
        connection.state = some other ∧ other ≠ generation := by
      intro other hnext
      have hother : (if connection.state = some generation then none else connection.state) =
          some other := hnext
      split at hother
      · cases hother
      · rename_i hne
        exact ⟨hother, fun hsame => hne (hsame ▸ hother)⟩
    refine h.of_eq (fun other hother => (hstate other hother).1) fun other hother => ?_
    have hkept := @setState_states _ _ connection generation other
      { connection.states generation with closed := true }
    rw [if_neg (hstate other hother).2] at hkept
    exact congrArg ConnectedGameMcpState.closed hkept
  | onListChanged generation =>
    rw [GameMcpServerConnection.onListChanged]
    split
    · exact h.of_eq (fun _ hstate => hstate) (fun other _ => closed_setState (by rfl) other)
    · exact h
  | opening | releaseOpen | abortLoad | abortCall | shared | interrupted | beginListing
  | pageListed => exact h.of_eq (fun _ hstate => hstate) (fun _ _ => rfl)

/-! ## Runs -/

/-- What holds in every run. -/
structure Invariant (limits : GameMcpLimits) (connection : GameMcpServerConnection Tool Content) :
    Prop where
  opens : OpensOk connection
  loads : LoadsOk connection
  calls : CallsOk limits connection

theorem Invariant.new : Invariant limits (.new : GameMcpServerConnection Tool Content) where
  opens := ⟨nofun, nofun, nofun, nofun, nofun, fun _ => rfl⟩
  loads := nofun
  calls := ⟨fun _ => rfl, fun _ => Int.natCast_nonneg _, nofun, nofun⟩

theorem step_eq_ok {event : Event Remote Tool Content} :
    step limits reader connection event = .ok next ↔
      ∃ acted, act limits reader connection event = .ok acted ∧ next = after acted connection := by
  rw [step]
  cases act limits reader connection event with
  | error error => simp [Except.map]
  | ok acted => simp [Except.map, after, eq_comm]

theorem Invariant.step {event : Event Remote Tool Content} (h : Invariant limits connection)
    (hstep : McpConnection.step limits reader connection event = .ok next) :
    Invariant limits next := by
  obtain ⟨acted, hact, rfl⟩ := step_eq_ok.mp hstep
  refine ⟨?_, h.loads.act h.opens hact, ?_⟩
  · exact (h.opens.act hact).congr rfl rfl rfl rfl rfl rfl
  · exact (h.calls.act h.opens hact).congr (fun _ => rfl) rfl (List.Subset.refl _) rfl

theorem Invariant.run {events : List (Event Remote Tool Content)}
    (hrun : runM (McpConnection.step limits reader) .new events = .ok connection) :
    Invariant limits connection :=
  runM_invariant (Invariant limits) (fun _ _ _ h hstep => h.step hstep) Invariant.new hrun

theorem Invariant.serves (h : Invariant limits connection) (halive : Alive connection) :
    ServesOneGeneration limits connection where
  oneOpen := fun _ _ _ _ hfirst hsecond => h.opens.unique hfirst hsecond
  live := halive
  closed := h.opens.disposed
  catalogs := by
    intro load hload catalog hcatalog
    have hok := h.loads load hload
    rw [hcatalog] at hok
    exact hok
  sent := h.calls.sent
  calls := h.calls.counted
  bounded := h.calls.bounded

/-- In a run whose steps all meet the condition, the installed client is alive. -/
theorem Alive.run {before : List (Event Remote Tool Content)}
    (hmeets : ∀ earlier event later connection, before = earlier ++ event :: later →
      runM (step limits reader) .new earlier = .ok connection → Meets connection event)
    (hrun : runM (step limits reader) .new before = .ok connection) : Alive connection := by
  induction before using List.reverseRecOn generalizing connection with
  | nil =>
    cases hrun
    nofun
  | append_singleton before event ih =>
    obtain ⟨middle, hbefore, hlast⟩ := runM_append_eq_ok.mp hrun
    obtain ⟨_, hstep, hend⟩ := runM_cons_eq_ok.mp hlast
    cases hend
    have halive := ih (fun earlier other later found hsplit hfound =>
      hmeets earlier other (later ++ [event]) found (by rw [hsplit]; simp) hfound) hbefore
    obtain ⟨acted, hact, rfl⟩ := step_eq_ok.mp hstep
    have hnext := halive.act (Invariant.run hbefore).opens
      (hmeets before event [] middle rfl hbefore) hact
    exact hnext

/-- A client that is dead when its `open` goes on is installed. -/
theorem dead_installed {event : Event Remote Tool Content} (hmeets : ¬ Meets connection event) :
    ∃ next, step limits reader connection event = .ok next ∧ ¬ Alive next := by
  cases event with
  | resumeOpen operation =>
    simp only [Meets, not_forall, not_or] at hmeets
    obtain ⟨generation, hopening, hdisposed, hclosed⟩ := hmeets
    have hact : act limits reader connection (.resumeOpen operation) =
        .ok (connection.resumeOpen operation generation) :=
      openStep_eq_ok.mpr ⟨_, hopening, rfl⟩
    refine ⟨_, step_eq_ok.mpr ⟨_, hact, rfl⟩, fun halive => hclosed ?_⟩
    rw [GameMcpServerConnection.resumeOpen, if_neg hdisposed] at halive
    exact halive generation rfl
  | _ => exact absurd trivial hmeets

/-- One live generation is served in every state of a run exactly if no client is installed that
has closed. -/
theorem serves_iff_meets (limits : GameMcpLimits) (reader : ToolReader Remote Tool Content)
    (events : List (Event Remote Tool Content)) :
    (∀ before later connection, events = before ++ later →
      runM (step limits reader) .new before = .ok connection →
        ServesOneGeneration limits connection) ↔
    ∀ before event later connection, events = before ++ event :: later →
      runM (step limits reader) .new before = .ok connection → Meets connection event := by
  constructor
  · intro hserves before event later connection hevents hrun
    by_contra hmeets
    obtain ⟨next, hstep, hdead⟩ := @dead_installed _ _ _ _ limits reader _ hmeets
    refine hdead (hserves (before ++ [event]) later next (by rw [hevents]; simp) ?_).live
    exact runM_append_eq_ok.mpr ⟨connection, hrun, runM_cons_eq_ok.mpr ⟨next, hstep, rfl⟩⟩
  · intro hmeets before later connection hevents hrun
    refine (Invariant.run hrun).serves (Alive.run ?_ hrun)
    intro earlier event rest found hsplit hfound
    exact hmeets earlier event (rest ++ later) found (by rw [hevents, hsplit]; simp) hfound

/-- Behind the handshake the transport closes, and the dead client is installed. -/
theorem serves_not_behind_handshake :
    ∃ connection, runM (step ⟨1, 1, 1, 1⟩
        (⟨fun _ => [], fun _ => .ok (), fun _ => none⟩ : ToolReader Unit Unit Unit)) .new
        [.loadCatalog false, .transportReady 0 (.ok true), .handshakeEnds 0, .onclose 1,
          .resumeOpen 0] = .ok connection ∧
      ¬ ServesOneGeneration ⟨1, 1, 1, 1⟩ connection := by
  refine ⟨_, rfl, fun hserves => ?_⟩
  have hlive := hserves.live 1 rfl
  exact absurd hlive (by decide)

/-! ## Tools of the past -/

/-- The check of `call`: the state and the epoch that a tool was listed under are installed. -/
def Current (connection : GameMcpServerConnection Tool Content) (tool : LoadedGameMcpTool Tool) :
    Prop :=
  connection.state = some tool.connectionState ∧
    (connection.states tool.connectionState).catalogEpoch = tool.catalogEpoch

/-- A moment knows installed states, and no epoch that is ahead. -/
def MomentsOk (connection : GameMcpServerConnection Tool Content) : Prop :=
  ∀ moment ∈ connection.moments, ∀ generation, moment.state = some generation →
    generation ∈ connection.installed ∧
      moment.epochs generation ≤ (connection.states generation).catalogEpoch

theorem MomentsOk.step {event : Event Remote Tool Content} (h : MomentsOk connection)
    (hopens : OpensOk connection)
    (hstep : McpConnection.step limits reader connection event = .ok next) : MomentsOk next := by
  obtain ⟨acted, hact, rfl⟩ := step_eq_ok.mp hstep
  have hframe := Frame.act hopens hact
  intro moment hmoment generation hstate
  rw [after, hframe.moments] at hmoment
  have hbefore : generation ∈ connection.installed ∧
      moment.epochs generation ≤ (connection.states generation).catalogEpoch := by
    cases List.mem_append.mp hmoment with
    | inl hold => exact h moment hold generation hstate
    | inr hlast =>
      obtain rfl := List.mem_singleton.mp hlast
      exact ⟨hopens.state generation hstate, le_rfl⟩
  exact ⟨hframe.installed hbefore.1, hbefore.2.trans (hframe.epochs generation hbefore.1)⟩

/-- The state of a tool is gone, or its catalogue has changed since. -/
structure Stale (connection : GameMcpServerConnection Tool Content)
    (tool : LoadedGameMcpTool Tool) : Prop where
  installed : tool.connectionState ∈ connection.installed
  changed : connection.state = some tool.connectionState →
    tool.catalogEpoch < (connection.states tool.connectionState).catalogEpoch

variable {tool : LoadedGameMcpTool Tool}

theorem Stale.step {event : Event Remote Tool Content} (h : Stale connection tool)
    (hopens : OpensOk connection)
    (hstep : McpConnection.step limits reader connection event = .ok next) : Stale next tool := by
  obtain ⟨acted, hact, rfl⟩ := step_eq_ok.mp hstep
  have hframe := Frame.act hopens hact
  refine ⟨hframe.installed h.installed, fun hstate => ?_⟩
  have hchanged := h.changed (hframe.state _ h.installed hstate)
  exact hchanged.trans_le (hframe.epochs _ h.installed)

theorem Stale.not_current (h : Stale connection tool) : ¬ Current connection tool := by
  rintro ⟨hstate, hepoch⟩
  have hchanged := h.changed hstate
  omega

/-- A tool of a catalogue that is not current is stale. -/
theorem Stale.of_catalog {catalog : LoadedGameMcpServerCatalog Tool} (h : MomentsOk connection)
    (hok : CatalogOk connection catalog) (htool : tool ∈ catalog.tools)
    (hcurrent : ¬ Current connection tool) : Stale connection tool := by
  obtain ⟨hstate, hepoch⟩ := hok.tools tool htool
  obtain ⟨hinstalled, hlisted⟩ := hok.steady catalog.ended _ hok.span.1 le_rfl
    (List.getElem?_eq_getElem hok.span.2)
  obtain ⟨hmem, hle⟩ := h _ (List.getElem_mem hok.span.2) _ hinstalled
  rw [hlisted, ← hepoch, ← hstate] at hle
  refine ⟨hstate ▸ hmem, fun hsame => lt_of_le_of_ne hle fun heq => ?_⟩
  exact hcurrent ⟨hsame, heq.symm⟩

/-- A tool of a catalogue that would be refused once is refused from then on: whatever the server
and the callers do, a call of it is answered with `catalogChanged` and changes nothing else. -/
theorem refused_from_then_on {before later : List (Event Remote Tool Content)}
    {middle : GameMcpServerConnection Tool Content} {load : Load Tool}
    {catalog : LoadedGameMcpServerCatalog Tool}
    (hbefore : runM (step limits reader) .new before = .ok middle) (hload : load ∈ middle.loads)
    (hcatalog : load.loading = .finished (.ok catalog)) (htool : tool ∈ catalog.tools)
    (hcurrent : ¬ Current middle tool)
    (hlater : runM (step limits reader) middle later = .ok connection) (aborted : Bool) :
    ¬ Current connection tool ∧
      connection.call limits tool aborted =
        { connection with
          answers := connection.answers ++ [.error (.mcp .catalogChanged)] } := by
  have hmoments : Invariant limits middle ∧ MomentsOk middle :=
    runM_invariant (fun reached => Invariant limits reached ∧ MomentsOk reached)
      (fun _ _ _ h hstep => ⟨h.1.step hstep, h.2.step h.1.opens hstep⟩) ⟨.new, nofun⟩ hbefore
  have hok := hmoments.1.loads load hload
  rw [hcatalog] at hok
  have hstale : Invariant limits connection ∧ Stale connection tool :=
    runM_invariant (fun reached => Invariant limits reached ∧ Stale reached tool)
      (fun _ _ _ h hstep => ⟨h.1.step hstep, h.2.step h.1.opens hstep⟩)
      ⟨hmoments.1, .of_catalog hmoments.2 hok htool hcurrent⟩ hlater
  have hrefused := hstale.2.not_current
  refine ⟨hrefused, ?_⟩
  rw [GameMcpServerConnection.call]
  refine if_pos ?_
  rwa [← not_and_or]

/-- The client closes behind the listing, and another generation is installed. -/
theorem refused_behind_reconnection : ∃ connection : GameMcpServerConnection Unit Unit,
    connection.state = some 2 ∧
      connection.call ⟨1, 1, 1, 1⟩ ⟨[], (), 1, 0⟩ false =
        { connection with
          answers := connection.answers ++ [.error (.mcp .catalogChanged)] } := by
  refine ⟨_, ?_, (@refused_from_then_on Unit Unit Unit _ ⟨1, 1, 1, 1⟩
    ⟨fun _ => [], fun _ => .ok (), fun _ => none⟩ ⟨[], (), 1, 0⟩
    [.loadCatalog false, .transportReady 0 (.ok true), .handshakeEnds 0, .resumeOpen 0,
      .shared 0, .releaseOpen 0, .beginListing 0 true, .pageListed 0 (.ok ⟨[()], none⟩), .onclose 1]
    [.loadCatalog false, .transportReady 1 (.ok true), .handshakeEnds 1, .resumeOpen 1]
    _ _ _ rfl List.mem_cons_self rfl List.mem_cons_self (fun h => nomatch h.1) rfl false).2⟩
  rfl

end OpenGameAgent.McpConnection
