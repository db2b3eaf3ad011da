import OpenGameAgent.Integrations.McpConnection

/-!
# The generations of a connection

One `open` is in progress at most, the one that `connecting` names, and the generation it is going
to install has not been installed before (`OpensOk`).  Hence an installed state that is gone never
comes back, and what an event does to the others is little (`Frame`).
-/

namespace OpenGameAgent.McpConnection

variable {Remote Tool Content : Type}

def Opening.InProgress : Opening → Prop
  | .settled _ => False
  | _ => True

/-! ## The opens -/

/-- The generation that an `open` is going to install. -/
def Opening.pending : Opening → Option ℕ
  | .handshake generation | .connected generation => some generation
  | _ => none

structure OpensOk (connection : GameMcpServerConnection Tool Content) : Prop where
  connecting : ∀ (i : ℕ) opening, connection.opens[i]? = some opening → opening.InProgress →
    connection.connecting = some i
  pending : ∀ (i : ℕ) opening generation, connection.opens[i]? = some opening →
    opening.pending = some generation →
      generation ∉ connection.installed ∧ generation ≤ connection.nextGeneration
  settled : ∀ (i : ℕ) generation, connection.opens[i]? = some (.settled (.ok generation)) →
    generation ∈ connection.installed
  installed : ∀ generation ∈ connection.installed, generation ≤ connection.nextGeneration
  state : ∀ generation, connection.state = some generation → generation ∈ connection.installed
  disposed : connection.disposed = true → connection.state = none

variable {connection next : GameMcpServerConnection Tool Content}

/-- What the opens say is said of six fields. -/
theorem OpensOk.congr (h : OpensOk connection) (hstate : next.state = connection.state)
    (hconnecting : next.connecting = connection.connecting)
    (hgeneration : next.nextGeneration = connection.nextGeneration)
    (hdisposed : next.disposed = connection.disposed) (hopens : next.opens = connection.opens)
    (hinstalled : next.installed = connection.installed) : OpensOk next := by
  constructor
  · rw [hopens, hconnecting]
    exact h.connecting
  · rw [hopens, hinstalled, hgeneration]
    exact h.pending
  · rw [hopens, hinstalled]
    exact h.settled
  · rw [hinstalled, hgeneration]
    exact h.installed
  · rw [hstate, hinstalled]
    exact h.state
  · rw [hdisposed, hstate]
    exact h.disposed

theorem Opening.inProgress_of_pending {opening : Opening} {generation : ℕ}
    (h : opening.pending = some generation) : opening.InProgress := by
  cases opening with
  | settled result => cases h
  | _ => trivial

/-- An `open` goes on, towards nothing or the generation it was going to install. -/
theorem OpensOk.setOpening {operation : ℕ} {opening changed : Opening} (h : OpensOk connection)
    (hopening : connection.opens[operation]? = some opening) (hprogress : opening.InProgress)
    (hpending : ∀ generation, changed.pending = some generation →
      opening.pending = some generation)
    (hsettled : ∀ generation, changed ≠ .settled (.ok generation)) :
    OpensOk (connection.setOpening operation changed) := by
  have hget : ∀ (i : ℕ) other, (connection.opens.set operation changed)[i]? = some other →
      (i = operation ∧ other = changed) ∨ connection.opens[i]? = some other := by
    intro i other hother
    rw [List.getElem?_set] at hother
    split at hother
    · rename_i hsame
      split at hother
      · cases hother
        exact Or.inl ⟨hsame.symm, rfl⟩
      · cases hother
    · exact Or.inr hother
  constructor
  · intro i other hother hin
    obtain ⟨rfl, -⟩ | hbefore := hget i other hother
    · exact h.connecting i opening hopening hprogress
    · exact h.connecting i other hbefore hin
  · intro i other generation hother hgeneration
    obtain ⟨rfl, rfl⟩ | hbefore := hget i other hother
    · exact h.pending i opening generation hopening (hpending generation hgeneration)
    · exact h.pending i other generation hbefore hgeneration
  · intro i generation hother
    obtain ⟨rfl, hsame⟩ | hbefore := hget i _ hother
    · exact absurd hsame.symm (hsettled generation)
    · exact h.settled i generation hbefore
  · exact h.installed
  · exact h.state
  · exact h.disposed

/-- Only one `open` is pending. -/
theorem OpensOk.unique {i j : ℕ} {first second : Opening} (h : OpensOk connection)
    (hfirst : connection.opens[i]? = some first) (hsecond : connection.opens[j]? = some second)
    (hin : first.InProgress) (hin' : second.InProgress) : i = j := by
  have hi := h.connecting i first hfirst hin
  have hj := h.connecting j second hsecond hin'
  rw [hi] at hj
  exact Option.some.inj hj

/-- An `open` takes the next generation. -/
theorem OpensOk.nextGeneration {operation : ℕ} {result : Except SdkFailure Bool}
    (h : OpensOk connection) (hopening : connection.opens[operation]? = some .transport) :
    OpensOk (connection.transportReady operation result) := by
  unfold GameMcpServerConnection.transportReady
  split
  · exact h.setOpening hopening trivial (fun _ hnone => by cases hnone) (fun _ hsame => by cases hsame)
  · exact h.setOpening hopening trivial (fun _ hnone => by cases hnone) (fun _ hsame => by cases hsame)
  · have hget : ∀ (i : ℕ) other, (connection.opens.set operation
        (.handshake (connection.nextGeneration + 1)))[i]? = some other → other.InProgress →
        i = operation ∧ other = .handshake (connection.nextGeneration + 1) := by
      intro i other hother hin
      rw [List.getElem?_set] at hother
      split at hother
      · rename_i hsame
        split at hother
        · cases hother
          exact ⟨hsame.symm, rfl⟩
        · cases hother
      · rename_i hne
        exact absurd (h.unique hopening hother trivial hin) hne
    constructor
    · intro i other hother hin
      obtain ⟨rfl, -⟩ := hget i other hother hin
      exact h.connecting i .transport hopening trivial
    · intro i other generation hother hpending
      obtain ⟨-, rfl⟩ := hget i other hother (Opening.inProgress_of_pending hpending)
      cases hpending
      refine ⟨fun hmem => ?_, le_rfl⟩
      have hle := h.installed _ hmem
      omega
    · intro i generation hother
      refine h.settled i generation ?_
      have hother : (connection.opens.set operation
          (.handshake (connection.nextGeneration + 1)))[i]? =
            some (.settled (.ok generation)) := hother
      rw [List.getElem?_set] at hother
      split at hother
      · split at hother <;> cases hother
      · exact hother
    · intro generation hmem
      exact (h.installed generation hmem).trans (Nat.le_succ _)
    · exact h.state
    · exact h.disposed

/-- The generation of an `open` that is behind its handshake is installed, unless the connection
is closed. -/
theorem OpensOk.resumeOpen {operation generation : ℕ} (h : OpensOk connection)
    (hopening : connection.opens[operation]? = some (.connected generation)) :
    OpensOk (connection.resumeOpen operation generation) := by
  rw [GameMcpServerConnection.resumeOpen]
  split
  · exact h.setOpening hopening trivial (fun _ hnone => by cases hnone) (fun _ hsame => by cases hsame)
  · rename_i hdisposed
    have hget : ∀ (i : ℕ) other, (connection.opens.set operation
        (.settled (.ok generation)))[i]? = some other → other.InProgress → False := by
      intro i other hother hin
      rw [List.getElem?_set] at hother
      split at hother
      · split at hother
        · cases hother
          exact hin
        · cases hother
      · rename_i hne
        exact hne (h.unique hopening hother trivial hin)
    constructor
    · intro i other hother hin
      exact (hget i other hother hin).elim
    · intro i other pending hother hpending
      exact (hget i other hother (Opening.inProgress_of_pending hpending)).elim
    · intro i settled hother
      have hother : (connection.opens.set operation (.settled (.ok generation)))[i]? =
          some (.settled (.ok settled)) := hother
      rw [List.getElem?_set] at hother
      split at hother
      · split at hother
        · cases hother
          exact List.mem_append_right _ List.mem_cons_self
        · cases hother
      · exact List.mem_append_left _ (h.settled i settled hother)
    · intro other hmem
      cases List.mem_append.mp hmem with
      | inl hbefore => exact h.installed other hbefore
      | inr hlast =>
        rw [List.mem_singleton] at hlast
        rw [hlast]
        exact (h.pending operation _ generation hopening rfl).2
    · intro other hother
      cases hother
      exact List.mem_append_right _ List.mem_cons_self
    · intro hclosed
      exact absurd hclosed hdisposed

theorem OpensOk.loadCatalog (h : OpensOk connection) (aborted : Bool) :
    OpensOk (connection.loadCatalog aborted) := by
  rw [GameMcpServerConnection.loadCatalog]
  split
  · exact h.congr rfl rfl rfl rfl rfl rfl
  · rename_i hopen
    split
    · exact h.congr rfl rfl rfl rfl rfl rfl
    · split
      · exact h.congr rfl rfl rfl rfl rfl rfl
      · exact h.congr rfl rfl rfl rfl rfl rfl
      · rename_i hstate hnone
        have hget : ∀ (i : ℕ) other, (connection.opens ++ [.transport])[i]? = some other →
            connection.opens[i]? = some other ∨ i = connection.opens.length ∧ other = .transport := by
          intro i other hother
          rcases Nat.lt_or_ge i connection.opens.length with hlt | hge
          · rw [List.getElem?_append_left hlt] at hother
            exact Or.inl hother
          · rw [List.getElem?_append_right hge, List.getElem?_singleton] at hother
            split at hother
            · cases hother
              exact Or.inr ⟨by omega, rfl⟩
            · cases hother
        constructor
        · intro i other hother hin
          obtain hbefore | ⟨rfl, -⟩ := hget i other hother
          · have hconnecting := h.connecting i other hbefore hin
            rw [hnone] at hconnecting
            cases hconnecting
          · rfl
        · intro i other generation hother hpending
          obtain hbefore | ⟨-, rfl⟩ := hget i other hother
          · exact h.pending i other generation hbefore hpending
          · cases hpending
        · intro i generation hother
          obtain hbefore | ⟨-, hsame⟩ := hget i _ hother
          · exact h.settled i generation hbefore
          · cases hsame
        · exact h.installed
        · exact h.state
        · exact h.disposed

/-- The operation that has settled is forgotten. -/
theorem OpensOk.release {operation : ℕ} {result : Except Failure ℕ} (h : OpensOk connection)
    (hopening : connection.opens[operation]? = some (.settled result)) :
    OpensOk { connection with
      connecting := if connection.connecting = some operation then none
        else connection.connecting } := by
  refine ⟨?_, h.pending, h.settled, h.installed, h.state, h.disposed⟩
  intro i other hother hin
  have hconnecting := h.connecting i other hother hin
  have hne : connection.connecting ≠ some operation := by
    intro hsame
    rw [hconnecting] at hsame
    cases hsame
    rw [hopening] at hother
    cases hother
    exact hin
  exact (if_neg hne).trans hconnecting

/-! ## Steps -/

variable {limits : GameMcpLimits} {reader : ToolReader Remote Tool Content}

theorem openStep_eq_ok {operation : ℕ}
    {go : Opening → Option (GameMcpServerConnection Tool Content)} :
    openStep connection operation go = .ok next ↔
      ∃ opening, connection.opens[operation]? = some opening ∧ go opening = some next := by
  rw [openStep, ← Option.bind_eq_some_iff]
  cases connection.opens[operation]?.bind go with
  | none => simp
  | some other => simp

theorem loadStep_eq_ok {number : ℕ} {go : Load Tool → Option (Loading Tool)} :
    loadStep connection number go = .ok next ↔
      ∃ load loading, connection.loads[number]? = some load ∧ go load = some loading ∧
        next = connection.setLoading number load loading := by
  rw [loadStep]
  cases connection.loads[number]? with
  | none => simp
  | some load =>
    cases hgo : go load with
    | none => simp [hgo]
    | some loading => simp [hgo, eq_comm]

/-- What the events do to a connection, with what each finds. -/
inductive Changes (limits : GameMcpLimits) (reader : ToolReader Remote Tool Content)
    (connection : GameMcpServerConnection Tool Content) :
    Event Remote Tool Content → GameMcpServerConnection Tool Content → Prop
  | loadCatalog (aborted : Bool) :
    Changes limits reader connection (.loadCatalog aborted) (connection.loadCatalog aborted)
  | call (tool : LoadedGameMcpTool Tool) (aborted : Bool) :
    Changes limits reader connection (.call tool aborted) (connection.call limits tool aborted)
  | close : Changes limits reader connection .close connection.close
  | abortLoad (number : ℕ) : Changes limits reader connection (.abortLoad number)
      { connection with
        loads := connection.loads.modify number fun load => { load with aborted := true } }
  | abortCall (number : ℕ) : Changes limits reader connection (.abortCall number)
      { connection with
        calls := connection.calls.modify number fun call => { call with aborted := true } }
  | transportReady (operation : ℕ) (result : Except SdkFailure Bool)
      (hopening : connection.opens[operation]? = some .transport) :
    Changes limits reader connection (.transportReady operation result)
      (connection.transportReady operation result)
  | opening (event : Event Remote Tool Content) (operation : ℕ) (opening changed : Opening)
      (hopening : connection.opens[operation]? = some opening) (hprogress : opening.InProgress)
      (hpending : ∀ generation, changed.pending = some generation →
        opening.pending = some generation)
      (hsettled : ∀ generation, changed ≠ .settled (.ok generation)) :
    Changes limits reader connection event (connection.setOpening operation changed)
  | resumeOpen (operation generation : ℕ)
      (hopening : connection.opens[operation]? = some (.connected generation)) :
    Changes limits reader connection (.resumeOpen operation)
      (connection.resumeOpen operation generation)
  | releaseOpen (operation : ℕ) (result : Except Failure ℕ)
      (hopening : connection.opens[operation]? = some (.settled result)) :
    Changes limits reader connection (.releaseOpen operation)
      { connection with
        connecting := if connection.connecting = some operation then none
          else connection.connecting }
  | shared (number : ℕ) (load : Load Tool) (operation : ℕ) (result : Except Failure ℕ)
      (hsettled : connection.opens[operation]? = some (.settled result)) :
    Changes limits reader connection (.shared number)
      (connection.setLoading number load (GameMcpServerConnection.shared result))
  | interrupted (number : ℕ) (load : Load Tool) (failure : Failure) :
    Changes limits reader connection (.interrupted number)
      (connection.setLoading number load (.finished (.error failure)))
  | beginListing (number : ℕ) (hasTools : Bool) (load : Load Tool) (state : ℕ)
      (hload : connection.loads[number]? = some load) (hensured : load.loading = .ensured state) :
    Changes limits reader connection (.beginListing number hasTools)
      (connection.setLoading number load
        (connection.beginListing limits load.aborted hasTools state))
  | pageListed (number : ℕ) (result : Except SdkFailure (ListToolsResult Remote)) (load : Load Tool)
      (listing : Listing Tool) (hload : connection.loads[number]? = some load)
      (hlisting : load.loading = .listing listing) :
    Changes limits reader connection (.pageListed number result)
      (connection.setLoading number load
        (connection.pageListed limits reader load.aborted listing result))
  | callEnds (number : ℕ) (call : Call Tool) (result : Except SdkFailure (CallToolResult Content))
      (hcall : connection.calls[number]? = some call) :
    Changes limits reader connection (.callEnds number result)
      (connection.callEnds reader number call result)
  | onclose (generation : ℕ) :
    Changes limits reader connection (.onclose generation) (connection.onclose generation)
  | onListChanged (generation : ℕ) :
    Changes limits reader connection (.onListChanged generation)
      (connection.onListChanged generation)

theorem changes_act {event : Event Remote Tool Content}
    (hact : McpConnection.act limits reader connection event = .ok next) :
    Changes limits reader connection event next := by
  cases event with
  | loadCatalog aborted =>
    cases hact
    exact .loadCatalog aborted
  | call tool aborted =>
    cases hact
    exact .call tool aborted
  | close =>
    cases hact
    exact .close
  | abortLoad number =>
    cases hact
    exact .abortLoad number
  | abortCall number =>
    cases hact
    exact .abortCall number
  | transportReady operation result =>
    obtain ⟨opening, hopening, hgo⟩ := openStep_eq_ok.mp hact
    cases opening <;> cases hgo
    exact .transportReady operation result hopening
  | handshakeEnds operation =>
    obtain ⟨opening, hopening, hgo⟩ := openStep_eq_ok.mp hact
    cases opening <;> cases hgo
    exact .opening _ operation _ _ hopening trivial (fun _ hsame => hsame)
      (fun _ hsame => by cases hsame)
  | handshakeFails operation error =>
    obtain ⟨opening, hopening, hgo⟩ := openStep_eq_ok.mp hact
    cases opening <;> cases hgo
    exact .opening _ operation _ _ hopening trivial (fun _ hnone => by cases hnone)
      (fun _ hsame => by cases hsame)
  | resumeOpen operation =>
    obtain ⟨opening, hopening, hgo⟩ := openStep_eq_ok.mp hact
    cases opening <;> cases hgo
    exact .resumeOpen operation _ hopening
  | discarded operation =>
    obtain ⟨opening, hopening, hgo⟩ := openStep_eq_ok.mp hact
    cases opening <;> cases hgo
    exact .opening _ operation _ _ hopening trivial (fun _ hnone => by cases hnone)
      (fun _ hsame => by cases hsame)
  | releaseOpen operation =>
    obtain ⟨opening, hopening, hgo⟩ := openStep_eq_ok.mp hact
    cases opening <;> cases hgo
    exact .releaseOpen operation _ hopening
  | shared number =>
    obtain ⟨load, loading, -, hgo, rfl⟩ := loadStep_eq_ok.mp hact
    split at hgo
    · split at hgo
      · rename_i result hsettled
        cases hgo
        exact .shared number load _ result hsettled
      · cases hgo
    · cases hgo
  | interrupted number =>
    obtain ⟨load, loading, -, hgo, rfl⟩ := loadStep_eq_ok.mp hact
    split at hgo
    · split at hgo
      · cases hgo
        exact .interrupted number load _
      · split at hgo
        · cases hgo
          exact .interrupted number load _
        · cases hgo
    · cases hgo
  | beginListing number hasTools =>
    obtain ⟨load, loading, hload, hgo, rfl⟩ := loadStep_eq_ok.mp hact
    split at hgo
    · rename_i state hensured
      cases hgo
      exact .beginListing number hasTools load state hload hensured
    · cases hgo
  | pageListed number result =>
    obtain ⟨load, loading, hload, hgo, rfl⟩ := loadStep_eq_ok.mp hact
    split at hgo
    · rename_i listing hlisting
      cases hgo
      exact .pageListed number result load listing hload hlisting
    · cases hgo
  | callEnds number result =>
    rw [McpConnection.act] at hact
    split at hact
    · rename_i call hcall
      cases hact
      exact .callEnds number call result hcall
    · cases hact
  | onclose generation =>
    rw [McpConnection.act] at hact
    split at hact
    · cases hact
      exact .onclose generation
    · cases hact
  | onListChanged generation =>
    rw [McpConnection.act] at hact
    split at hact
    · cases hact
      exact .onListChanged generation
    · cases hact

/-- An event keeps what the opens say. -/
theorem OpensOk.act {event : Event Remote Tool Content} (h : OpensOk connection)
    (hact : McpConnection.act limits reader connection event = .ok next) : OpensOk next := by
  cases changes_act hact with
  | loadCatalog aborted => exact h.loadCatalog aborted
  | call tool aborted =>
    rw [GameMcpServerConnection.call]
    dsimp only
    split
    · exact h.congr rfl rfl rfl rfl rfl rfl
    · split <;> exact h.congr rfl rfl rfl rfl rfl rfl
  | close =>
    refine ⟨h.connecting, h.pending, h.settled, h.installed, ?_, ?_⟩
    · intro generation hstate
      refine h.state generation ?_
      have hstate : (if connection.disposed then connection.state else none) = some generation :=
        hstate
      split at hstate
      · exact hstate
      · cases hstate
    · intro _
      refine (apply_ite id _ _ _).trans ?_
      split
      · rename_i hdisposed
        exact h.disposed hdisposed
      · rfl
  | transportReady operation result hopening => exact h.nextGeneration hopening
  | opening event operation opening changed hopening hprogress hpending hsettled =>
    exact h.setOpening hopening hprogress hpending hsettled
  | resumeOpen operation generation hopening => exact h.resumeOpen hopening
  | releaseOpen operation result hopening => exact h.release hopening
  | onclose generation =>
    refine ⟨h.connecting, h.pending, h.settled, h.installed, ?_, ?_⟩
    · intro other hstate
      refine h.state other ?_
      have hstate : (if connection.state = some generation then none else connection.state) =
          some other := hstate
      split at hstate
      · cases hstate
      · exact hstate
    · intro hdisposed
      refine (apply_ite id _ _ _).trans ?_
      split
      · rfl
      · exact h.disposed hdisposed
  | onListChanged generation =>
    rw [GameMcpServerConnection.onListChanged]
    split
    · exact h.congr rfl rfl rfl rfl rfl rfl
    · exact h
  | abortLoad | abortCall | shared | interrupted | beginListing | pageListed | callEnds =>
    exact h.congr rfl rfl rfl rfl rfl rfl

/-! ## What an event leaves -/

/-- A generation that was installed does not come back, and its epoch only grows. -/
structure Frame (connection next : GameMcpServerConnection Tool Content) : Prop where
  moments : next.moments = connection.moments
  installed : connection.installed ⊆ next.installed
  epochs : ∀ generation ∈ connection.installed,
    (connection.states generation).catalogEpoch ≤ (next.states generation).catalogEpoch
  state : ∀ generation ∈ connection.installed, next.state = some generation →
    connection.state = some generation

theorem Frame.of_eq (hmoments : next.moments = connection.moments)
    (hinstalled : next.installed = connection.installed)
    (hepochs : ∀ generation,
      (next.states generation).catalogEpoch = (connection.states generation).catalogEpoch)
    (hstate : ∀ generation, next.state = some generation →
      connection.state = some generation) : Frame connection next where
  moments := hmoments
  installed := by
    rw [hinstalled]
    exact List.Subset.refl _
  epochs := fun generation _ => (hepochs generation).ge
  state := fun generation _ => hstate generation

theorem setState_states (generation other : ℕ) (state : ConnectedGameMcpState) :
    (connection.setState generation state).states other =
      if other = generation then state else connection.states other := by
  exact Function.update_apply _ _ _ _

/-- A state that keeps its epoch. -/
theorem epoch_setState {generation : ℕ} {state : ConnectedGameMcpState}
    (h : state.catalogEpoch = (connection.states generation).catalogEpoch) (other : ℕ) :
    ((connection.setState generation state).states other).catalogEpoch =
      (connection.states other).catalogEpoch := by
  rw [setState_states]
  split
  · rename_i hsame
    rw [hsame, h]
  · rfl

theorem Frame.act {event : Event Remote Tool Content} (h : OpensOk connection)
    (hact : McpConnection.act limits reader connection event = .ok next) :
    Frame connection next := by
  cases changes_act hact with
  | loadCatalog aborted =>
    rw [GameMcpServerConnection.loadCatalog]
    split
    · exact Frame.of_eq rfl rfl (fun _ => rfl) (fun _ hstate => hstate)
    · split
      · exact Frame.of_eq rfl rfl (fun _ => rfl) (fun _ hstate => hstate)
      · split <;> exact Frame.of_eq rfl rfl (fun _ => rfl) (fun _ hstate => hstate)
  | call tool aborted =>
    rw [GameMcpServerConnection.call]
    dsimp only
    split
    · exact Frame.of_eq rfl rfl (fun _ => rfl) (fun _ hstate => hstate)
    · split
      · exact Frame.of_eq rfl rfl (fun _ => rfl) (fun _ hstate => hstate)
      · exact Frame.of_eq rfl rfl (fun other => epoch_setState (by rfl) other)
          (fun _ hstate => hstate)
  | close =>
    refine Frame.of_eq rfl rfl (fun _ => rfl) fun generation hstate => ?_
    have hstate : (if connection.disposed then connection.state else none) = some generation :=
      hstate
    split at hstate
    · exact hstate
    · cases hstate
  | transportReady operation result hopening =>
    unfold GameMcpServerConnection.transportReady
    split
    · exact Frame.of_eq rfl rfl (fun _ => rfl) (fun _ hstate => hstate)
    · exact Frame.of_eq rfl rfl (fun _ => rfl) (fun _ hstate => hstate)
    · refine ⟨rfl, List.Subset.refl _, fun generation hmem => ?_, fun _ _ hstate => hstate⟩
      -- the generation that gets its state is a new one
      have hle := h.installed generation hmem
      have hkept := @setState_states _ _ connection (connection.nextGeneration + 1) generation
        ⟨0, 0, false⟩
      rw [if_neg (by omega)] at hkept
      exact (congrArg ConnectedGameMcpState.catalogEpoch hkept).ge
  | resumeOpen operation generation hopening =>
    rw [GameMcpServerConnection.resumeOpen]
    split
    · exact Frame.of_eq rfl rfl (fun _ => rfl) (fun _ hstate => hstate)
    · refine ⟨rfl, fun other hmem => List.mem_append_left _ hmem, fun _ _ => le_rfl, ?_⟩
      intro other hmem hstate
      cases hstate
      exact absurd hmem (h.pending operation _ generation hopening rfl).1
  | callEnds number call result hcall =>
    exact Frame.of_eq rfl rfl (fun other => epoch_setState (by rfl) other) (fun _ hstate => hstate)
  | onclose generation =>
    refine Frame.of_eq rfl rfl (fun other => epoch_setState (by rfl) other) fun other hstate => ?_
    have hstate : (if connection.state = some generation then none else connection.state) =
        some other := hstate
    split at hstate
    · cases hstate
    · exact hstate
  | onListChanged generation =>
    rw [GameMcpServerConnection.onListChanged]
    split
    · refine ⟨rfl, List.Subset.refl _, fun other _ => ?_, fun _ _ hstate => hstate⟩
      dsimp only
      rw [setState_states]
      split
      · rename_i hsame
        rw [hsame]
        exact Nat.le_succ _
      · exact le_rfl
    · exact Frame.of_eq rfl rfl (fun _ => rfl) (fun _ hstate => hstate)
  | opening | releaseOpen | abortLoad | abortCall | shared | interrupted | beginListing
  | pageListed => exact Frame.of_eq rfl rfl (fun _ => rfl) (fun _ hstate => hstate)

end OpenGameAgent.McpConnection
