import OpenGameAgent.Integrations.McpGenerations

/-!
# The catalogues of a connection

A listing that finds its state installed and its epoch unchanged was never without them: since its
beginning the state, once gone, would not have come back, and the epoch would have grown
(`ListingOk`).  So every catalogue that is returned was listed under one state and one epoch
(`LoadingOk.act`).
-/

namespace OpenGameAgent.McpConnection

variable {Remote Tool Content : Type}

/-- A catalogue was listed under one installed state and one epoch, and no name or cursor came
twice. -/
structure CatalogOk (connection : GameMcpServerConnection Tool Content)
    (catalog : LoadedGameMcpServerCatalog Tool) : Prop where
  span : catalog.began ≤ catalog.ended ∧ catalog.ended < connection.moments.length
  steady : ∀ index moment, catalog.began ≤ index → index ≤ catalog.ended →
    connection.moments[index]? = some moment →
      moment.state = some catalog.connectionGeneration ∧
        moment.epochs catalog.connectionGeneration = catalog.catalogEpoch
  tools : ∀ tool ∈ catalog.tools, tool.connectionState = catalog.connectionGeneration ∧
    tool.catalogEpoch = catalog.catalogEpoch
  names : (catalog.tools.map (·.name)).Nodup
  cursors : catalog.cursors.Nodup

/-- What holds of a listing between two pages. -/
structure ListingOk (connection : GameMcpServerConnection Tool Content) (listing : Listing Tool) :
    Prop where
  installed : listing.state ∈ connection.installed
  began : listing.began ≤ connection.moments.length
  epoch : listing.epoch ≤ (connection.states listing.state).catalogEpoch
  steady : ∀ (index : ℕ) moment, listing.began ≤ index →
    connection.moments[index]? = some moment →
      listing.epoch ≤ moment.epochs listing.state ∧
        moment.epochs listing.state ≤ (connection.states listing.state).catalogEpoch ∧
        (connection.state = some listing.state → moment.state = some listing.state)
  tools : ∀ tool ∈ listing.tools, tool.connectionState = listing.state ∧
    tool.catalogEpoch = listing.epoch
  names : (listing.tools.map (·.name)).Nodup
  cursors : listing.cursors.Nodup

def LoadingOk (connection : GameMcpServerConnection Tool Content) : Loading Tool → Prop
  | .waiting _ => True
  | .ensured state => state ∈ connection.installed
  | .listing listing => ListingOk connection listing
  | .finished (.ok catalog) => CatalogOk connection catalog
  | .finished (.error _) => True

variable {connection next : GameMcpServerConnection Tool Content}

/-- A connection, with the moment before the event that led to it. -/
def after (next connection : GameMcpServerConnection Tool Content) :
    GameMcpServerConnection Tool Content :=
  { next with moments := next.moments ++ [connection.moment] }

/-- The moments after an event: those before it, and the one it happened at. -/
theorem getElem?_moments (h : Frame connection next) {index : ℕ} {moment : Moment}
    (hmoment : (after next connection).moments[index]? = some moment) :
    connection.moments[index]? = some moment ∨
      index = connection.moments.length ∧ moment = connection.moment := by
  have hmoment : (next.moments ++ [connection.moment])[index]? = some moment := hmoment
  rw [h.moments] at hmoment
  rcases Nat.lt_or_ge index connection.moments.length with hlt | hge
  · rw [List.getElem?_append_left hlt] at hmoment
    exact Or.inl hmoment
  · rw [List.getElem?_append_right hge, List.getElem?_singleton] at hmoment
    split at hmoment
    · cases hmoment
      exact Or.inr ⟨by omega, rfl⟩
    · cases hmoment

theorem length_moments (h : Frame connection next) :
    (after next connection).moments.length = connection.moments.length + 1 := by
  have hlength : (next.moments ++ [connection.moment]).length = next.moments.length + 1 := by simp
  rw [h.moments] at hlength
  exact (congrArg List.length (by rw [after, h.moments])).trans hlength

theorem ListingOk.after {listing : Listing Tool} (h : Frame connection next)
    (hok : ListingOk connection listing) : ListingOk (after next connection) listing := by
  have hepochs := h.epochs listing.state hok.installed
  refine ⟨h.installed hok.installed, ?_, hok.epoch.trans hepochs, ?_, hok.tools, hok.names,
    hok.cursors⟩
  · rw [length_moments h]
    exact hok.began.trans (Nat.le_succ _)
  · intro index moment hbegan hmoment
    obtain hbefore | ⟨-, rfl⟩ := getElem?_moments h hmoment
    · obtain ⟨hlow, hhigh, hstate⟩ := hok.steady index moment hbegan hbefore
      exact ⟨hlow, hhigh.trans hepochs, fun hnext => hstate (h.state _ hok.installed hnext)⟩
    · exact ⟨hok.epoch, hepochs, h.state _ hok.installed⟩

theorem CatalogOk.after {catalog : LoadedGameMcpServerCatalog Tool} (h : Frame connection next)
    (hok : CatalogOk connection catalog) : CatalogOk (after next connection) catalog := by
  refine ⟨⟨hok.span.1, ?_⟩, ?_, hok.tools, hok.names, hok.cursors⟩
  · rw [length_moments h]
    exact hok.span.2.trans (Nat.lt_succ_self _)
  · intro index moment hbegan hended hmoment
    obtain hbefore | ⟨rfl, -⟩ := getElem?_moments h hmoment
    · exact hok.steady index moment hbegan hended hbefore
    · exact absurd hok.span.2 (Nat.not_lt.mpr hended)

theorem LoadingOk.after {loading : Loading Tool} (h : Frame connection next)
    (hok : LoadingOk connection loading) : LoadingOk (after next connection) loading := by
  cases loading with
  | waiting operation => trivial
  | ensured state => exact h.installed hok
  | listing listing => exact ListingOk.after h hok
  | finished result =>
    cases result with
    | error failure => trivial
    | ok catalog => exact CatalogOk.after h hok

/-! ## A listing goes on -/

/-- The last check finds out what happened since the beginning. -/
theorem finishListing_ok {listing : Listing Tool} (h : Frame connection next)
    (hok : ListingOk connection listing) :
    LoadingOk (after next connection) (connection.finishListing listing) := by
  rw [GameMcpServerConnection.finishListing]
  split
  · trivial
  · rename_i hsame
    rw [not_or, not_not, not_not] at hsame
    obtain ⟨hstate, hepoch⟩ := hsame
    refine ⟨⟨hok.began, ?_⟩, ?_, hok.tools, hok.names, hok.cursors⟩
    · rw [length_moments h]
      exact Nat.lt_succ_self _
    · intro index moment hbegan hended hmoment
      obtain hbefore | ⟨-, rfl⟩ := getElem?_moments h hmoment
      · obtain ⟨hlow, hhigh, hsteady⟩ := hok.steady index moment hbegan hbefore
        rw [hepoch] at hhigh
        exact ⟨hsteady hstate, le_antisymm hhigh hlow⟩
      · exact ⟨hstate, hepoch⟩

variable {limits : GameMcpLimits} {reader : ToolReader Remote Tool Content}

theorem askPage_ok {listing : Listing Tool} (h : Frame connection next)
    (hok : ListingOk connection listing) (aborted : Bool) :
    LoadingOk (after next connection) (connection.askPage limits aborted listing) := by
  rw [GameMcpServerConnection.askPage]
  split
  · split
    · trivial
    · exact ListingOk.after h hok
  · exact finishListing_ok h hok

/-- A listing begins with the epoch of a state that has been installed. -/
theorem beginListing_ok {state : ℕ} (h : Frame connection next)
    (hinstalled : state ∈ connection.installed) (aborted hasTools : Bool) :
    LoadingOk (after next connection)
      (connection.beginListing limits aborted hasTools state) := by
  rw [GameMcpServerConnection.beginListing]
  split
  · trivial
  · have hbegan : ListingOk connection ⟨state, (connection.states state).catalogEpoch, [], [], 0,
        connection.moments.length⟩ := by
      refine ⟨hinstalled, le_rfl, le_rfl, ?_, ?_, List.nodup_nil, List.nodup_nil⟩
      · intro index moment hbegan hmoment
        rw [List.getElem?_eq_none hbegan] at hmoment
        cases hmoment
      · intro tool htool
        cases htool
    exact askPage_ok h hbegan aborted

theorem nodup_append_new {names : List (List UInt16)} {name : List UInt16} (h : names.Nodup)
    (hnew : ¬ names.contains name = true) : (names ++ [name]).Nodup := by
  rw [List.contains_iff_mem] at hnew
  rw [List.nodup_append]
  refine ⟨h, by simp, fun seen hseen other hother hsame => hnew ?_⟩
  rw [List.mem_singleton] at hother
  rwa [← hother, ← hsame]

/-- The tools of a page carry the state and the epoch, and have other names. -/
theorem listTool_ok {state epoch : ℕ} {tools listed : List (LoadedGameMcpTool Tool)} {remote : Remote}
    (htools : ∀ tool ∈ tools, tool.connectionState = state ∧ tool.catalogEpoch = epoch)
    (hnames : (tools.map (·.name)).Nodup)
    (hlist : listTool limits reader state epoch tools remote = .ok listed) :
    (∀ tool ∈ listed, tool.connectionState = state ∧ tool.catalogEpoch = epoch) ∧
      (listed.map (·.name)).Nodup := by
  rw [listTool] at hlist
  split at hlist
  · cases hlist
  · split at hlist
    · cases hlist
    · rename_i hnew
      obtain ⟨tool, -, hlisted⟩ := bind_eq_ok.mp hlist
      cases hlisted
      constructor
      · intro other hother
        cases List.mem_append.mp hother with
        | inl hbefore => exact htools other hbefore
        | inr hlast =>
          rw [List.mem_singleton] at hlast
          rw [hlast]
          exact ⟨rfl, rfl⟩
      · rw [List.map_append, List.map_singleton]
        exact nodup_append_new hnames hnew

theorem nextPage_ok {listing : Listing Tool} (h : Frame connection next)
    (hok : ListingOk connection listing) (aborted : Bool) (cursor : Option (List UInt16)) :
    LoadingOk (after next connection) (connection.nextPage limits aborted listing cursor) := by
  unfold GameMcpServerConnection.nextPage
  split
  · exact finishListing_ok h hok
  · rename_i cursor
    split
    · trivial
    · split
      · trivial
      · rename_i hnew
        split
        · trivial
        · have hnext : ListingOk connection
              { listing with cursors := listing.cursors ++ [cursor], page := listing.page + 1 } :=
            ⟨hok.installed, hok.began, hok.epoch, hok.steady, hok.tools, hok.names,
              nodup_append_new hok.cursors hnew⟩
          exact askPage_ok h hnext aborted

/-- A page comes. -/
theorem pageListed_ok {listing : Listing Tool} (h : Frame connection next)
    (hok : ListingOk connection listing) (aborted : Bool)
    (result : Except SdkFailure (ListToolsResult Remote)) :
    LoadingOk (after next connection)
      (connection.pageListed limits reader aborted listing result) := by
  unfold GameMcpServerConnection.pageListed
  split
  · split <;> trivial
  · rename_i page
    split
    · trivial
    · split
      · trivial
      · rename_i tools hlisted
        have hpage := @runM_invariant _ _ _ (listTool limits reader listing.state listing.epoch)
          (fun tools => (∀ tool ∈ tools, tool.connectionState = listing.state ∧
            tool.catalogEpoch = listing.epoch) ∧ (tools.map (·.name)).Nodup)
          (fun _ _ _ hbefore hlist => listTool_ok hbefore.1 hbefore.2 hlist) _ _ _
          ⟨hok.tools, hok.names⟩ hlisted
        have hnext : ListingOk connection { listing with tools } :=
          ⟨hok.installed, hok.began, hok.epoch, hok.steady, hpage.1, hpage.2, hok.cursors⟩
        exact nextPage_ok h hnext aborted page.nextCursor

/-! ## Steps -/

def LoadsOk (connection : GameMcpServerConnection Tool Content) : Prop :=
  ∀ load ∈ connection.loads, LoadingOk connection load.loading

/-- Loads that were there already. -/
theorem LoadsOk.kept (h : Frame connection next) (hok : LoadsOk connection)
    (hloads : ∀ load ∈ next.loads, ∃ before ∈ connection.loads, before.loading = load.loading) :
    LoadsOk (after next connection) := by
  intro load hload
  obtain ⟨before, hbefore, hsame⟩ := hloads load hload
  rw [← hsame]
  exact (hok before hbefore).after h

/-- One load goes on. -/
theorem LoadsOk.step {number : ℕ} {load : Load Tool} {loading : Loading Tool}
    (hok : LoadsOk connection)
    (h : Frame connection (connection.setLoading number load loading))
    (hloading : LoadingOk (after (connection.setLoading number load loading) connection) loading) :
    LoadsOk (after (connection.setLoading number load loading) connection) := by
  intro other hother
  cases List.mem_or_eq_of_mem_set hother with
  | inl hbefore => exact (hok other hbefore).after h
  | inr hsame => rwa [hsame]

/-- A load that begins. -/
theorem LoadsOk.begin {load : Load Tool} (hok : LoadsOk connection) (h : Frame connection next)
    (hloads : next.loads = connection.loads ++ [load])
    (hload : LoadingOk (after next connection) load.loading) :
    LoadsOk (after next connection) := by
  intro other hother
  have hother : other ∈ next.loads := hother
  rw [hloads] at hother
  cases List.mem_append.mp hother with
  | inl hbefore => exact (hok other hbefore).after h
  | inr hlast =>
    rw [List.mem_singleton] at hlast
    rwa [hlast]

/-- What a `loadCatalog` begins with. -/
theorem loads_loadCatalog (connection : GameMcpServerConnection Tool Content) (aborted : Bool) :
    ∃ load, (connection.loadCatalog aborted).loads = connection.loads ++ [load] ∧
      ((∃ failure, load.loading = .finished (.error failure)) ∨
        (∃ operation, load.loading = .waiting operation) ∨
        ∃ generation, connection.state = some generation ∧ load.loading = .ensured generation) := by
  rw [GameMcpServerConnection.loadCatalog]
  split
  · exact ⟨_, rfl, Or.inl ⟨_, rfl⟩⟩
  · split
    · exact ⟨_, rfl, Or.inl ⟨_, rfl⟩⟩
    · split
      · rename_i generation hstate
        exact ⟨_, rfl, Or.inr (Or.inr ⟨generation, hstate, rfl⟩)⟩
      · exact ⟨_, rfl, Or.inr (Or.inl ⟨_, rfl⟩)⟩
      · exact ⟨_, rfl, Or.inr (Or.inl ⟨_, rfl⟩)⟩

theorem LoadsOk.act {event : Event Remote Tool Content} (hopens : OpensOk connection)
    (hok : LoadsOk connection)
    (hact : McpConnection.act limits reader connection event = .ok next) :
    LoadsOk (after next connection) := by
  have h := Frame.act hopens hact
  have hsame : next.loads = connection.loads → LoadsOk (McpConnection.after next connection) := by
    intro hloads
    refine LoadsOk.kept h hok fun load hload => ⟨load, ?_, rfl⟩
    rwa [← hloads]
  cases changes_act hact with
  | loadCatalog aborted =>
    obtain ⟨load, hloads, hload⟩ := loads_loadCatalog connection aborted
    refine hok.begin h hloads ?_
    obtain ⟨failure, hload⟩ | ⟨operation, hload⟩ | ⟨generation, hstate, hload⟩ := hload
    · rw [hload]
      trivial
    · rw [hload]
      trivial
    · rw [hload]
      exact h.installed (hopens.state generation hstate)
  | call tool aborted =>
    refine hsame ?_
    rw [GameMcpServerConnection.call]
    dsimp only
    split
    · rfl
    · split <;> rfl
  | abortLoad number =>
    refine LoadsOk.kept h hok fun load hload => ?_
    obtain ⟨index, hindex⟩ := List.mem_iff_getElem?.mp hload
    rw [List.getElem?_modify] at hindex
    obtain ⟨before, hbefore, hchanged⟩ := Option.map_eq_some_iff.mp hindex
    refine ⟨before, List.mem_of_getElem? hbefore, ?_⟩
    rw [← hchanged]
    split <;> rfl
  | transportReady operation result hopening =>
    refine hsame ?_
    unfold GameMcpServerConnection.transportReady
    split <;> rfl
  | resumeOpen operation generation hopening =>
    refine hsame ?_
    rw [GameMcpServerConnection.resumeOpen]
    split <;> rfl
  | shared number load operation result hsettled =>
    refine hok.step h ?_
    cases result with
    | error failure => trivial
    | ok generation => exact hopens.settled _ generation hsettled
  | interrupted number load failure => exact hok.step h trivial
  | beginListing number hasTools load state hload hensured =>
    have hbefore := hok load (List.mem_of_getElem? hload)
    rw [hensured] at hbefore
    exact hok.step h (beginListing_ok h hbefore load.aborted hasTools)
  | pageListed number result load listing hload hlisting =>
    have hbefore := hok load (List.mem_of_getElem? hload)
    rw [hlisting] at hbefore
    exact hok.step h (pageListed_ok h hbefore load.aborted result)
  | onListChanged generation =>
    refine hsame ?_
    rw [GameMcpServerConnection.onListChanged]
    split <;> rfl
  | close | abortCall | opening | releaseOpen | callEnds | onclose => exact hsame rfl

end OpenGameAgent.McpConnection
