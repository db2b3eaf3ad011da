import OpenGameAgent.Media.MediaCallAdmission

/-!
# The permits of a call admission group

What one call can do is said once, in `Moves`; `perform_chain` shows that every call is a chain of
moves.  `Admits` is the invariant every move keeps: the counter counts the active reservations, a
reservation waits only when every permit is taken, and no reservation that waits was made
before one that has been admitted.  `permits_kept` puts both together for whole runs.
-/

namespace OpenGameAgent.MediaCalls

/-! ## What one call can do -/

/-- One move of the group; `withdrawn` is the reservation it takes out of the queue without a
permit, if it does. -/
inductive Moves (group : MediaCallAdmissionGroup) : Option ℕ → MediaCallAdmissionGroup → Prop
  | admitted (signal : ℕ) (free : group.activeCalls < group.maxConcurrentCalls) :
      Moves group none
        { group with
          activeCalls := group.activeCalls + 1
          reservations := group.reservations ++ [⟨signal, .active, some true, false⟩] }
  | queued (signal : ℕ) (full : group.activeCalls = group.maxConcurrentCalls)
      (room : group.waiting.length < group.maxQueuedCalls) :
      Moves group none
        { group with
          waiting := group.waiting ++ [group.reservations.length]
          reservations := group.reservations ++ [⟨signal, .waiting, none, true⟩] }
  | withdrawn (reservation : ℕ) (waits : group.state? reservation = some .waiting) :
      Moves group (some reservation)
        (MediaCallAdmissionGroup.settleReleased
          { group with waiting := group.waiting.erase reservation } reservation)
  | freed (reservation : ℕ) (active : group.state? reservation = some .active)
      (nobody : group.waiting = []) :
      Moves group none
        (MediaCallAdmissionGroup.settleReleased
          { group with activeCalls := group.activeCalls - 1 } reservation)
  | handed (reservation next : ℕ) (rest : List ℕ)
      (active : group.state? reservation = some .active) (first : group.waiting = next :: rest) :
      Moves group none
        (MediaCallAdmissionGroup.activate
          (MediaCallAdmissionGroup.settleReleased
            { group with activeCalls := group.activeCalls - 1, waiting := rest } reservation) next)
  | raised (signal : ℕ) :
      Moves group none { group with aborted := signal :: group.aborted }

/-- What a reservation's own fields say in each of its states. -/
def Settled (r : MediaCallReservation) : Prop :=
  match r.state with
  | .waiting => r.ready = none ∧ r.listening = true
  | .active => r.ready = some true ∧ r.listening = false
  | .released => r.ready ≠ none ∧ r.listening = false

/-- What holds of a group between any two moves. -/
structure Admits (group : MediaCallAdmissionGroup) : Prop where
  counted : group.activeCalls = (group.reservations.countP (·.state = .active) : ℕ)
  bounded : group.activeCalls ≤ group.maxConcurrentCalls
  waits : ∀ reservation, reservation ∈ group.waiting ↔ group.state? reservation = some .waiting
  sorted : group.waiting.Pairwise (· < ·)
  queued : group.waiting.length ≤ group.maxQueuedCalls
  full : group.waiting ≠ [] → group.activeCalls = group.maxConcurrentCalls
  settled : ∀ r ∈ group.reservations, Settled r
  inOrder : ∀ i j, group.state? i = some .waiting → group.ready j = some true → j < i

section Lookup

variable {group : MediaCallAdmissionGroup} {reservation other : ℕ}

theorem state?_eq_some {state : CallState} :
    group.state? reservation = some state ↔
      ∃ r, group.reservations[reservation]? = some r ∧ r.state = state := by
  simp [MediaCallAdmissionGroup.state?]

theorem ready_eq_some {admitted : Bool} :
    group.ready reservation = some admitted ↔
      ∃ r, group.reservations[reservation]? = some r ∧ r.ready = some admitted := by
  simp [MediaCallAdmissionGroup.ready, Option.bind_eq_some_iff]

theorem lt_of_state? {state : CallState} (h : group.state? reservation = some state) :
    reservation < group.reservations.length := by
  obtain ⟨r, hr, -⟩ := state?_eq_some.mp h
  exact (List.getElem?_eq_some_iff.mp hr).1

theorem lt_of_ready {admitted : Bool} (h : group.ready reservation = some admitted) :
    reservation < group.reservations.length := by
  obtain ⟨r, hr, -⟩ := ready_eq_some.mp h
  exact (List.getElem?_eq_some_iff.mp hr).1

/-- Rewriting one reservation changes the count of the active ones by that one alone. -/
theorem countP_modify {f : MediaCallReservation → MediaCallReservation} {r : MediaCallReservation}
    (hr : group.reservations[reservation]? = some r) :
    ((group.reservations.modify reservation f).countP (·.state = .active) : ℤ) =
      (group.reservations.countP (·.state = .active) : ℕ) -
        (if r.state = .active then 1 else 0) + (if (f r).state = .active then 1 else 0) := by
  obtain ⟨hlt, hget⟩ := List.getElem?_eq_some_iff.mp hr
  have hset : group.reservations.modify reservation f = group.reservations.set reservation (f r) := by
    rw [List.modify_eq_set_getElem?, hr]
    rfl
  have hpos : r.state = .active → 0 < group.reservations.countP (·.state = .active) := by
    intro hactive
    exact List.countP_pos_iff.mpr ⟨r, List.mem_of_getElem? hr, by simpa using hactive⟩
  rw [hset, List.countP_set hlt, hget]
  by_cases hactive : r.state = .active
  · have := hpos hactive
    by_cases hf : (f r).state = .active <;> simp [hactive, hf] <;> omega
  · by_cases hf : (f r).state = .active <;> simp [hactive, hf]

/-- A group with one more reservation. -/
theorem state?_push {next : MediaCallAdmissionGroup} {r : MediaCallReservation}
    (h : next.reservations = group.reservations ++ [r]) {state : CallState} :
    next.state? other = some state ↔
      group.state? other = some state ∨ other = group.reservations.length ∧ r.state = state := by
  simp only [MediaCallAdmissionGroup.state?, h, List.getElem?_append]
  by_cases hlt : other < group.reservations.length
  · simp [hlt, hlt.ne]
  · by_cases heq : other = group.reservations.length
    · subst heq
      simp
    · have hsub : other - group.reservations.length ≠ 0 := by omega
      simp [hlt, heq, hsub]

theorem ready_push {next : MediaCallAdmissionGroup} {r : MediaCallReservation}
    (h : next.reservations = group.reservations ++ [r]) {admitted : Bool} :
    next.ready other = some admitted ↔
      group.ready other = some admitted ∨
        other = group.reservations.length ∧ r.ready = some admitted := by
  simp only [MediaCallAdmissionGroup.ready, h, List.getElem?_append]
  by_cases hlt : other < group.reservations.length
  · simp [hlt, hlt.ne]
  · by_cases heq : other = group.reservations.length
    · subst heq
      simp
    · have hsub : other - group.reservations.length ≠ 0 := by omega
      simp [hlt, heq, hsub]

theorem state?_settleReleased (h : reservation < group.reservations.length) {state : CallState} :
    (group.settleReleased reservation).state? other = some state ↔
      if other = reservation then state = .released else group.state? other = some state := by
  simp only [MediaCallAdmissionGroup.state?, MediaCallAdmissionGroup.settleReleased,
    List.getElem?_modify]
  by_cases heq : other = reservation
  · subst heq
    simp [List.getElem?_eq_getElem h, eq_comm]
  · simp [heq, Ne.symm heq]

theorem ready_settleReleased :
    (group.settleReleased reservation).ready other =
      if other = reservation ∧ reservation < group.reservations.length
      then resolveReady (group.ready other) false else group.ready other := by
  simp only [MediaCallAdmissionGroup.ready, MediaCallAdmissionGroup.settleReleased,
    List.getElem?_modify]
  by_cases heq : other = reservation
  · subst heq
    by_cases hlt : other < group.reservations.length
    · simp [hlt]
    · simp [hlt]
  · simp [heq, Ne.symm heq]

theorem state?_activate (h : reservation < group.reservations.length) {state : CallState} :
    (group.activate reservation).state? other = some state ↔
      if other = reservation then state = .active else group.state? other = some state := by
  simp only [MediaCallAdmissionGroup.state?, MediaCallAdmissionGroup.activate,
    List.getElem?_modify]
  by_cases heq : other = reservation
  · subst heq
    simp [List.getElem?_eq_getElem h, eq_comm]
  · simp [heq, Ne.symm heq]

theorem ready_activate :
    (group.activate reservation).ready other =
      if other = reservation ∧ reservation < group.reservations.length
      then resolveReady (group.ready other) true else group.ready other := by
  simp only [MediaCallAdmissionGroup.ready, MediaCallAdmissionGroup.activate,
    List.getElem?_modify]
  by_cases heq : other = reservation
  · subst heq
    by_cases hlt : other < group.reservations.length
    · simp [hlt]
    · simp [hlt]
  · simp [heq, Ne.symm heq]

end Lookup

/-! ## Every move keeps the invariant -/

section Kept

variable {group next : MediaCallAdmissionGroup} {withdrawn : Option ℕ} {reservation : ℕ}

theorem Admits.ready_none (h : Admits group) (waits : group.state? reservation = some .waiting) :
    group.ready reservation = none := by
  obtain ⟨r, hr, hstate⟩ := state?_eq_some.mp waits
  have hsettled := h.settled r (List.mem_of_getElem? hr)
  simp only [Settled, hstate] at hsettled
  simp [MediaCallAdmissionGroup.ready, hr, hsettled.1]

theorem Admits.ready_true (h : Admits group) (active : group.state? reservation = some .active) :
    group.ready reservation = some true := by
  obtain ⟨r, hr, hstate⟩ := state?_eq_some.mp active
  have hsettled := h.settled r (List.mem_of_getElem? hr)
  simp only [Settled, hstate] at hsettled
  simp [MediaCallAdmissionGroup.ready, hr, hsettled.1]

theorem settled_release {r : MediaCallReservation} :
    Settled { r with state := .released, listening := false, ready := resolveReady r.ready false } := by
  simp [Settled, resolveReady]

theorem settled_activate {r : MediaCallReservation} (h : r.ready = none) :
    Settled { r with state := .active, listening := false, ready := resolveReady r.ready true } := by
  simp [Settled, resolveReady, h]

theorem mem_modify {α : Type*} {l : List α} {i : ℕ} {f : α → α} {x : α} (h : x ∈ l.modify i f) :
    x ∈ l ∨ ∃ y, l[i]? = some y ∧ x = f y := by
  obtain ⟨j, hj⟩ := List.mem_iff_getElem?.mp h
  rw [List.getElem?_modify] at hj
  by_cases heq : i = j
  · subst heq
    simp only [if_pos, Option.map_eq_map, Option.map_eq_some_iff] at hj
    obtain ⟨y, hy, rfl⟩ := hj
    exact .inr ⟨y, hy, rfl⟩
  · simp only [if_neg heq, Option.map_eq_map, Option.map_id_fun', id_eq] at hj
    exact .inl (List.mem_of_getElem? hj)

theorem Admits.admitted (h : Admits group) (signal : ℕ)
    (free : group.activeCalls < group.maxConcurrentCalls) :
    Admits { group with
      activeCalls := group.activeCalls + 1
      reservations := group.reservations ++ [⟨signal, .active, some true, false⟩] } := by
  have hempty : group.waiting = [] := by
    by_contra hne
    exact absurd (h.full hne) (by omega)
  have hstate : ∀ i, MediaCallAdmissionGroup.state? { group with
      activeCalls := group.activeCalls + 1
      reservations := group.reservations ++ [⟨signal, .active, some true, false⟩] } i =
        some .waiting ↔ group.state? i = some .waiting ∨ i = group.reservations.length ∧
          CallState.active = .waiting :=
    fun i => @state?_push group i _ ⟨signal, .active, some true, false⟩ rfl .waiting
  refine ⟨?_, ?_, ?_, h.sorted, h.queued, fun hne => absurd hempty hne, ?_, ?_⟩
  · simp [List.countP_append, h.counted]
  · simpa using free
  · intro reservation
    rw [hstate, h.waits]
    simp
  · intro r hr
    rcases List.mem_append.mp hr with hold | hnew
    · exact h.settled r hold
    · rw [List.mem_singleton.mp hnew]
      exact ⟨rfl, rfl⟩
  · intro i j hwaits _
    rw [hstate] at hwaits
    rcases hwaits with hold | ⟨-, hnew⟩
    · exact absurd ((h.waits i).mpr hold) (by simp [hempty])
    · exact absurd hnew (by simp)

theorem Admits.queue (h : Admits group) (signal : ℕ)
    (full : group.activeCalls = group.maxConcurrentCalls)
    (room : group.waiting.length < group.maxQueuedCalls) :
    Admits { group with
      waiting := group.waiting ++ [group.reservations.length]
      reservations := group.reservations ++ [⟨signal, .waiting, none, true⟩] } := by
  have hstate : ∀ i, MediaCallAdmissionGroup.state? { group with
      waiting := group.waiting ++ [group.reservations.length]
      reservations := group.reservations ++ [⟨signal, .waiting, none, true⟩] } i =
        some .waiting ↔ group.state? i = some .waiting ∨ i = group.reservations.length ∧
          CallState.waiting = .waiting :=
    fun i => @state?_push group i _ ⟨signal, .waiting, none, true⟩ rfl .waiting
  refine ⟨?_, h.bounded, ?_, ?_, by simpa using room, fun _ => full, ?_, ?_⟩
  · simp [List.countP_append, h.counted]
  · intro reservation
    rw [hstate, List.mem_append, h.waits, List.mem_singleton]
    simp
  · refine List.pairwise_append.mpr ⟨h.sorted, List.pairwise_singleton .., ?_⟩
    intro i hi j hj
    rw [List.mem_singleton.mp hj]
    exact lt_of_state? ((h.waits i).mp hi)
  · intro r hr
    rcases List.mem_append.mp hr with hold | hnew
    · exact h.settled r hold
    · rw [List.mem_singleton.mp hnew]
      exact ⟨rfl, rfl⟩
  · intro i j hwaits hready
    rw [hstate] at hwaits
    have hj : group.ready j = some true := by
      rcases (@ready_push group j _ ⟨signal, .waiting, none, true⟩ rfl true).mp hready with hold | ⟨-, hnew⟩
      · exact hold
      · exact absurd hnew (by simp)
    rcases hwaits with hold | ⟨hnew, -⟩
    · exact h.inOrder i j hold hj
    · exact hnew ▸ lt_of_ready hj

/-- A waiting reservation leaves the queue without a permit. -/
theorem Admits.withdraw (h : Admits group) (waits : group.state? reservation = some .waiting) :
    Admits (MediaCallAdmissionGroup.settleReleased
      { group with waiting := group.waiting.erase reservation } reservation) := by
  obtain ⟨r, hr, hwaiting⟩ := state?_eq_some.mp waits
  have hlt := lt_of_state? waits
  have hstate := fun i s => @state?_settleReleased
    { group with waiting := group.waiting.erase reservation } reservation i hlt s
  have hnodup : group.waiting.Nodup := h.sorted.imp fun hij => ne_of_lt hij
  refine ⟨?_, h.bounded, ?_, h.sorted.sublist List.erase_sublist,
    List.length_erase_le.trans h.queued, ?_, ?_, ?_⟩
  · have hcount := countP_modify (f := fun r : MediaCallReservation =>
      { r with state := .released, listening := false, ready := resolveReady r.ready false }) hr
    simp only [hwaiting, reduceCtorEq, if_false, sub_zero, add_zero] at hcount
    exact h.counted.trans hcount.symm
  · intro i
    rw [hstate]
    show i ∈ group.waiting.erase reservation ↔ _
    rw [hnodup.mem_erase_iff, h.waits]
    by_cases heq : i = reservation
    · simp [heq]
    · simp only [heq, ne_eq, not_false_eq_true, true_and, if_false]
      rfl
  · intro hne
    refine h.full fun hempty => hne ?_
    show group.waiting.erase reservation = []
    rw [hempty, List.erase_nil]
  · intro r' hr'
    rcases mem_modify hr' with hold | ⟨y, -, rfl⟩
    · exact h.settled r' hold
    · exact settled_release
  · intro i j hwaits hready
    rw [hstate] at hwaits
    rw [ready_settleReleased] at hready
    by_cases hi : i = reservation
    · simp [hi] at hwaits
    · rw [if_neg hi] at hwaits
      by_cases hj : j = reservation
      · have hnone := h.ready_none waits
        rw [if_pos ⟨hj, hlt⟩, hj] at hready
        rw [show (MediaCallAdmissionGroup.ready
          { group with waiting := group.waiting.erase reservation } reservation) = none from hnone]
          at hready
        simp [resolveReady] at hready
      · rw [if_neg fun hand => hj hand.1] at hready
        exact h.inOrder i j hwaits hready

/-- The last permit comes back and nobody waits for it. -/
theorem Admits.free (h : Admits group) (active : group.state? reservation = some .active)
    (nobody : group.waiting = []) :
    Admits (MediaCallAdmissionGroup.settleReleased
      { group with activeCalls := group.activeCalls - 1 } reservation) := by
  obtain ⟨r, hr, hactive⟩ := state?_eq_some.mp active
  have hlt := lt_of_state? active
  have hstate := fun i s => @state?_settleReleased
    { group with activeCalls := group.activeCalls - 1 } reservation i hlt s
  have hcount := countP_modify (f := fun r : MediaCallReservation =>
    { r with state := .released, listening := false, ready := resolveReady r.ready false }) hr
  simp only [hactive, reduceCtorEq, if_false, if_true, add_zero] at hcount
  refine ⟨?_, ?_, ?_, h.sorted, h.queued, fun hne => absurd nobody hne, ?_, ?_⟩
  · refine Eq.trans ?_ hcount.symm
    rw [← h.counted]
    rfl
  · have := h.bounded
    show group.activeCalls - 1 ≤ group.maxConcurrentCalls
    omega
  · intro i
    rw [hstate]
    refine (h.waits i).trans ?_
    by_cases heq : i = reservation
    · simp [heq, active]
    · rw [if_neg heq]
      rfl
  · intro r' hr'
    rcases mem_modify hr' with hold | ⟨y, -, rfl⟩
    · exact h.settled r' hold
    · exact settled_release
  · intro i j hwaits _
    rw [hstate] at hwaits
    by_cases hi : i = reservation
    · simp [hi] at hwaits
    · rw [if_neg hi] at hwaits
      exact absurd ((h.waits i).mpr hwaits) (by simp [nobody])

/-- A permit that comes back goes to the reservation that has waited longest. -/
theorem Admits.hand {waiter : ℕ} {rest : List ℕ} (h : Admits group)
    (active : group.state? reservation = some .active) (first : group.waiting = waiter :: rest) :
    Admits (MediaCallAdmissionGroup.activate
      (MediaCallAdmissionGroup.settleReleased
        { group with activeCalls := group.activeCalls - 1, waiting := rest } reservation) waiter) := by
  obtain ⟨r, hr, hactive⟩ := state?_eq_some.mp active
  have hlt := lt_of_state? active
  have hwaiter : group.state? waiter = some .waiting := (h.waits waiter).mp (by simp [first])
  have hne : waiter ≠ reservation := by
    rintro rfl
    simp [active] at hwaiter
  obtain ⟨w, hw, hwaiting⟩ := state?_eq_some.mp hwaiter
  have hltw := lt_of_state? hwaiter
  have hsorted := h.sorted
  rw [first, List.pairwise_cons] at hsorted
  let freed := MediaCallAdmissionGroup.settleReleased
    { group with activeCalls := group.activeCalls - 1, waiting := rest } reservation
  have hlen : waiter < freed.reservations.length := by
    simpa [freed, MediaCallAdmissionGroup.settleReleased] using hltw
  have hstate : ∀ i, (freed.activate waiter).state? i = some .waiting ↔
      i ≠ waiter ∧ i ≠ reservation ∧ group.state? i = some .waiting := by
    intro i
    rw [state?_activate hlen, @state?_settleReleased
      { group with activeCalls := group.activeCalls - 1, waiting := rest } reservation i hlt]
    by_cases hi : i = waiter <;> by_cases hj : i = reservation <;>
      simp_all [MediaCallAdmissionGroup.state?]
  have hfreed := countP_modify (f := fun r : MediaCallReservation =>
    { r with state := .released, listening := false, ready := resolveReady r.ready false }) hr
  have hgetw : freed.reservations[waiter]? = some w := by
    simp [freed, MediaCallAdmissionGroup.settleReleased, Ne.symm hne, hw]
  have hcount := countP_modify (f := fun r : MediaCallReservation =>
    { r with state := .active, listening := false, ready := resolveReady r.ready true }) hgetw
  simp only [hactive, hwaiting, reduceCtorEq, if_false, if_true, add_zero, sub_zero]
    at hfreed hcount
  refine ⟨?_, ?_, ?_, hsorted.2, ?_, ?_, ?_, ?_⟩
  · refine Eq.trans ?_ hcount.symm
    refine congrArg (· + 1) ?_
    refine Eq.trans ?_ hfreed.symm
    rw [← h.counted]
    rfl
  · show group.activeCalls - 1 + 1 ≤ group.maxConcurrentCalls
    have := h.bounded
    omega
  · intro i
    rw [hstate]
    show i ∈ rest ↔ _
    have hmem := h.waits i
    rw [first, List.mem_cons] at hmem
    constructor
    · intro hi
      have hwaits := hmem.mp (.inr hi)
      refine ⟨(hsorted.1 i hi).ne', ?_, hwaits⟩
      rintro rfl
      simp [active] at hwaits
    · rintro ⟨hi, -, hwaits⟩
      exact (hmem.mpr hwaits).resolve_left hi
  · have := h.queued
    rw [first, List.length_cons] at this
    show rest.length ≤ group.maxQueuedCalls
    omega
  · intro _
    have := h.full (by simp [first])
    show group.activeCalls - 1 + 1 = group.maxConcurrentCalls
    omega
  · intro r' hr'
    rcases mem_modify hr' with hold | ⟨y, hy, rfl⟩
    · rcases mem_modify hold with hold | ⟨y, -, rfl⟩
      · exact h.settled r' hold
      · exact settled_release
    · refine settled_activate ?_
      have hset := h.settled w (List.mem_of_getElem? hw)
      simp only [Settled, hwaiting] at hset
      rw [hgetw] at hy
      exact Option.some.inj hy ▸ hset.1
  · intro i j hwaits hready
    rw [hstate] at hwaits
    obtain ⟨hi, -, hwaits⟩ := hwaits
    rw [ready_activate] at hready
    by_cases hj : j = waiter
    · have hmem := (h.waits i).mpr hwaits
      rw [first, List.mem_cons] at hmem
      exact hj ▸ hsorted.1 i (hmem.resolve_left hi)
    · rw [if_neg fun hand => hj hand.1, ready_settleReleased] at hready
      refine h.inOrder i j hwaits ?_
      by_cases hjr : j = reservation
      · exact hjr ▸ h.ready_true active
      · rw [if_neg fun hand => hjr hand.1] at hready
        exact hready

theorem Moves.admits (h : Moves group withdrawn next) (admits : Admits group) : Admits next := by
  cases h with
  | admitted signal free => exact admits.admitted signal free
  | queued signal full room => exact admits.queue signal full room
  | withdrawn reservation waits => exact admits.withdraw waits
  | freed reservation active nobody => exact admits.free active nobody
  | handed reservation waiter rest active first => exact admits.hand active first
  | raised signal =>
    exact ⟨admits.counted, admits.bounded, admits.waits, admits.sorted, admits.queued,
      admits.full, admits.settled, admits.inOrder⟩

theorem Moves.limits (h : Moves group withdrawn next) :
    next.maxConcurrentCalls = group.maxConcurrentCalls ∧
      next.maxQueuedCalls = group.maxQueuedCalls := by
  cases h <;> exact ⟨rfl, rfl⟩

theorem resolveReady_kept {ready : Option Bool} {value admitted : Bool}
    (h : ready = some admitted) : resolveReady ready value = some admitted := by
  rw [h]
  rfl

/-- A settled promise keeps its value. -/
theorem Moves.ready_kept (h : Moves group withdrawn next) {admitted : Bool}
    (hready : group.ready reservation = some admitted) :
    next.ready reservation = some admitted := by
  have hrelease : ∀ g : MediaCallAdmissionGroup, ∀ i, g.ready reservation = some admitted →
      (g.settleReleased i).ready reservation = some admitted := by
    intro g i hg
    rw [ready_settleReleased]
    split
    · exact resolveReady_kept hg
    · exact hg
  cases h with
  | admitted signal => exact (@ready_push group _ _ _ rfl admitted).mpr (.inl hready)
  | queued signal => exact (@ready_push group _ _ _ rfl admitted).mpr (.inl hready)
  | withdrawn i => exact hrelease _ i hready
  | freed i => exact hrelease _ i hready
  | handed i waiter rest =>
    rw [ready_activate]
    split
    · exact resolveReady_kept (hrelease _ i hready)
    · exact hrelease _ i hready
  | raised => exact hready

/-- A promise settles to true only when its reservation takes a permit. -/
theorem Moves.ready_true (h : Moves group withdrawn next)
    (hready : next.ready reservation = some true) :
    group.ready reservation = some true ∨ next.state? reservation = some .active := by
  have hrelease : ∀ g : MediaCallAdmissionGroup, ∀ i,
      (g.settleReleased i).ready reservation = some true → g.ready reservation = some true := by
    intro g i hg
    rw [ready_settleReleased] at hg
    split at hg
    · cases hcase : g.ready reservation with
      | none => simp [resolveReady, hcase] at hg
      | some b => simpa [resolveReady, hcase] using hg
    · exact hg
  cases h with
  | admitted signal =>
    rcases (@ready_push group _ _ _ rfl true).mp hready with hold | ⟨hnew, -⟩
    · exact .inl hold
    · exact .inr ((@state?_push group reservation _ ⟨signal, .active, some true, false⟩ rfl
        .active).mpr (.inr ⟨hnew, rfl⟩))
  | queued signal =>
    rcases (@ready_push group _ _ ⟨signal, .waiting, none, true⟩ rfl true).mp hready with
      hold | ⟨-, hnew⟩
    · exact .inl hold
    · exact absurd hnew (by simp)
  | withdrawn i => exact .inl (hrelease _ i hready)
  | freed i => exact .inl (hrelease _ i hready)
  | handed i waiter rest active first =>
    rw [ready_activate] at hready
    split at hready
    · rename_i heq
      exact .inr ((state?_activate heq.2).mpr (by rw [if_pos heq.1]))
    · exact .inl (hrelease _ i hready)
  | raised => exact .inl hready

/-- A promise settles to false only when its reservation is withdrawn. -/
theorem Moves.ready_false (h : Moves group withdrawn next) (admits : Admits group)
    (hready : next.ready reservation = some false) :
    group.ready reservation = some false ∨ withdrawn = some reservation := by
  cases h with
  | admitted signal =>
    rcases (@ready_push group _ _ ⟨signal, .active, some true, false⟩ rfl false).mp hready with
      hold | ⟨-, hnew⟩
    · exact .inl hold
    · exact absurd hnew (by simp)
  | queued signal =>
    rcases (@ready_push group _ _ ⟨signal, .waiting, none, true⟩ rfl false).mp hready with
      hold | ⟨-, hnew⟩
    · exact .inl hold
    · exact absurd hnew (by simp)
  | withdrawn i =>
    by_cases heq : reservation = i
    · exact .inr (by rw [heq])
    · rw [ready_settleReleased, if_neg fun hand => heq hand.1] at hready
      exact .inl hready
  | freed i active =>
    by_cases heq : reservation = i
    · have hkept := (Moves.freed i active ‹_›).ready_kept (admits.ready_true active)
      rw [heq, hkept] at hready
      simp at hready
    · rw [ready_settleReleased, if_neg fun hand => heq hand.1] at hready
      exact .inl hready
  | handed i waiter rest active first =>
    by_cases heq : reservation = i
    · have hkept := (Moves.handed i waiter rest active first).ready_kept (admits.ready_true active)
      rw [heq, hkept] at hready
      simp at hready
    · rw [ready_activate] at hready
      split at hready
      · rename_i hcase
        have hwaiter := (admits.waits waiter).mp (by simp [first])
        have hnone := admits.ready_none hwaiter
        rw [ready_settleReleased, if_neg fun hand => heq hand.1, hcase.1] at hready
        rw [show MediaCallAdmissionGroup.ready { group with
          activeCalls := group.activeCalls - 1, waiting := rest } waiter = none from hnone] at hready
        simp [resolveReady] at hready
      · rw [ready_settleReleased, if_neg fun hand => heq hand.1] at hready
        exact .inl hready
  | raised => exact .inl hready

/-- A withdrawn reservation waited, and its promise is false. -/
theorem Moves.withdraws (h : Moves group (some reservation) next) (admits : Admits group) :
    group.state? reservation = some .waiting ∧ next.ready reservation = some false ∧
      next.state? reservation = some .released := by
  cases h with
  | withdrawn _ waits =>
    have hlt := lt_of_state? waits
    refine ⟨waits, ?_, ?_⟩
    · rw [ready_settleReleased, if_pos ⟨rfl, hlt⟩]
      rw [show MediaCallAdmissionGroup.ready
        { group with waiting := group.waiting.erase reservation } reservation = none from
        admits.ready_none waits]
      rfl
    · exact (@state?_settleReleased
        { group with waiting := group.waiting.erase reservation } _ _ hlt _).mpr (by rw [if_pos rfl])

/-- An active reservation stays active while others are withdrawn. -/
theorem Moves.active_kept {other : ℕ} (h : Moves group (some other) next)
    (active : group.state? reservation = some .active) :
    next.state? reservation = some .active := by
  cases h with
  | withdrawn _ waits =>
    have hne : reservation ≠ other := by
      rintro rfl
      simp [active] at waits
    refine (@state?_settleReleased
      { group with waiting := group.waiting.erase other } _ _ (lt_of_state? waits) _).mpr ?_
    rw [if_neg hne]
    exact active

/-- The other waiting reservations go on waiting when one is withdrawn. -/
theorem Moves.waiting_kept {other : ℕ} (h : Moves group (some other) next)
    (waits : group.state? reservation = some .waiting) (hne : reservation ≠ other) :
    next.state? reservation = some .waiting := by
  cases h with
  | withdrawn _ hwaits =>
    refine (@state?_settleReleased
      { group with waiting := group.waiting.erase other } _ _ (lt_of_state? hwaits) _).mpr ?_
    rw [if_neg hne]
    exact waits

end Kept

/-! ## Every call is a chain of moves -/

/-- Moves one after the other, with what each of them withdraws. -/
inductive Chain : MediaCallAdmissionGroup → List (Option ℕ) → MediaCallAdmissionGroup → Prop
  | done (group) : Chain group [] group
  | move {group mid next withdrawn rest} (first : Moves group withdrawn mid)
      (others : Chain mid rest next) : Chain group (withdrawn :: rest) next

section Calls

variable {group next : MediaCallAdmissionGroup} {moves : List (Option ℕ)} {reservation : ℕ}

theorem Moves.chain {withdrawn : Option ℕ} (h : Moves group withdrawn next) :
    Chain group [withdrawn] next :=
  .move h (.done next)

theorem Chain.admits (h : Chain group moves next) (admits : Admits group) : Admits next := by
  induction h with
  | done => exact admits
  | move first _ ih => exact ih (first.admits admits)

theorem Chain.limits (h : Chain group moves next) :
    next.maxConcurrentCalls = group.maxConcurrentCalls ∧
      next.maxQueuedCalls = group.maxQueuedCalls := by
  induction h with
  | done => exact ⟨rfl, rfl⟩
  | move first _ ih => exact ⟨ih.1.trans first.limits.1, ih.2.trans first.limits.2⟩

theorem Chain.ready_kept (h : Chain group moves next) {admitted : Bool}
    (hready : group.ready reservation = some admitted) :
    next.ready reservation = some admitted := by
  induction h with
  | done => exact hready
  | move first _ ih => exact ih (first.ready_kept hready)

theorem Chain.ready_false (h : Chain group moves next) (admits : Admits group)
    (hready : next.ready reservation = some false) :
    group.ready reservation = some false ∨ some reservation ∈ moves := by
  induction h with
  | done => exact .inl hready
  | move first _ ih =>
    rcases ih (first.admits admits) hready with hmid | hrest
    · rcases first.ready_false admits hmid with hgroup | heq
      · exact .inl hgroup
      · exact .inr (heq ▸ List.mem_cons_self)
    · exact .inr (List.mem_cons_of_mem _ hrest)

theorem Chain.withdraws (h : Chain group moves next) (admits : Admits group)
    (hmem : some reservation ∈ moves) : next.ready reservation = some false := by
  induction h with
  | done => simp at hmem
  | move first others ih =>
    rcases List.mem_cons.mp hmem with heq | hrest
    · subst heq
      exact others.ready_kept (first.withdraws admits).2.1
    · exact ih (first.admits admits) hrest

/-- Moves that only withdraw leave the active reservations active. -/
theorem Chain.active_kept (h : Chain group moves next) (all : ∀ withdrawn ∈ moves, withdrawn ≠ none)
    (active : group.state? reservation = some .active) :
    next.state? reservation = some .active := by
  induction h with
  | done => exact active
  | @move _ _ _ withdrawn _ first _ ih =>
    obtain ⟨other, rfl⟩ := Option.ne_none_iff_exists'.mp (all withdrawn List.mem_cons_self)
    exact ih (fun w hw => all w (List.mem_cons_of_mem _ hw)) (first.active_kept active)

theorem Chain.ready_true (h : Chain group moves next)
    (all : ∀ withdrawn ∈ moves.tail, withdrawn ≠ none)
    (hready : next.ready reservation = some true) :
    group.ready reservation = some true ∨ next.state? reservation = some .active := by
  induction h with
  | done => exact .inl hready
  | move first others ih =>
    rcases ih (fun w hw => all w (List.mem_of_mem_tail hw)) hready with hmid | hactive
    · rcases first.ready_true hmid with hgroup | hactive
      · exact .inl hgroup
      · exact .inr (others.active_kept all hactive)
    · exact .inr hactive

theorem handOver_full (h : group.waiting ≠ [] → group.activeCalls = group.maxConcurrentCalls) :
    group.handOver = group := by
  simp only [MediaCallAdmissionGroup.handOver]
  cases hcase : group.waiting with
  | nil => rfl
  | cons waiter rest => simp [h (by simp [hcase])]

/-- The release of a waiting reservation: nobody is handed a permit. -/
theorem release_waiting (admits : Admits group) (waits : group.state? reservation = some .waiting) :
    Moves group (some reservation) (group.release reservation) := by
  have hfull : (MediaCallAdmissionGroup.settleReleased
      { group with waiting := group.waiting.erase reservation } reservation).handOver =
      MediaCallAdmissionGroup.settleReleased
        { group with waiting := group.waiting.erase reservation } reservation := by
    refine handOver_full fun hne => admits.full fun hempty => hne ?_
    show group.waiting.erase reservation = []
    rw [hempty, List.erase_nil]
  simp only [MediaCallAdmissionGroup.release, waits, hfull]
  exact .withdrawn reservation waits

/-- The release of an active reservation frees its permit or hands it over. -/
theorem release_active (admits : Admits group) (active : group.state? reservation = some .active) :
    Moves group none (group.release reservation) := by
  simp only [MediaCallAdmissionGroup.release, active]
  by_cases hempty : group.waiting = []
  · rw [@handOver_full (MediaCallAdmissionGroup.settleReleased
      { group with activeCalls := group.activeCalls - 1 } reservation) fun hne => absurd hempty hne]
    exact .freed reservation active hempty
  · obtain ⟨waiter, rest, hcase⟩ := List.exists_cons_of_ne_nil hempty
    have hlt : group.activeCalls - 1 < group.maxConcurrentCalls := by
      have := admits.bounded
      omega
    have hhand := Moves.handed reservation waiter rest active hcase
    simp only [MediaCallAdmissionGroup.handOver, MediaCallAdmissionGroup.settleReleased, hcase,
      if_pos hlt, List.erase_cons_head]
    exact hhand

theorem release_chain (admits : Admits group) (reservation : ℕ) :
    ∃ moves, Chain group moves (group.release reservation) ∧ moves.length ≤ 1 ∧
      ∀ other, some other ∈ moves ↔
        group.state? other = some .waiting ∧ reservation = other := by
  cases hcase : group.state? reservation with
  | none =>
    refine ⟨[], ?_, by simp, fun other => ?_⟩
    · simp only [MediaCallAdmissionGroup.release, hcase]
      exact .done group
    · simp only [List.not_mem_nil, false_iff]
      rintro ⟨hwaits, rfl⟩
      simp [hcase] at hwaits
  | some state =>
    cases state with
    | waiting =>
      refine ⟨[some reservation], (release_waiting admits hcase).chain, by simp, fun other => ?_⟩
      simp only [List.mem_singleton, Option.some.injEq]
      constructor
      · rintro rfl
        exact ⟨hcase, rfl⟩
      · exact fun h => h.2.symm
    | active =>
      refine ⟨[none], (release_active admits hcase).chain, by simp, fun other => ?_⟩
      simp only [List.mem_singleton, reduceCtorEq, false_iff]
      rintro ⟨hwaits, rfl⟩
      simp [hcase] at hwaits
    | released =>
      refine ⟨[], ?_, by simp, fun other => ?_⟩
      · simp only [MediaCallAdmissionGroup.release, hcase]
        exact .done group
      · simp only [List.not_mem_nil, false_iff]
        rintro ⟨hwaits, rfl⟩
        simp [hcase] at hwaits

/-- The listeners of a signal withdraw one reservation after the other. -/
theorem foldl_onAbort_chain :
    ∀ (reservations : List ℕ) (group : MediaCallAdmissionGroup), Admits group →
      reservations.Nodup → (∀ r ∈ reservations, group.state? r = some .waiting) →
      Chain group (reservations.map some)
        (reservations.foldl MediaCallAdmissionGroup.onAbort group) := by
  intro reservations
  induction reservations with
  | nil =>
    intro group _ _ _
    exact .done group
  | cons reservation rest ih =>
    intro group admits hnodup hwaits
    have hfirst := hwaits reservation List.mem_cons_self
    have hmove := release_waiting admits hfirst
    have hnext : group.onAbort reservation = group.release reservation := by
      simp [MediaCallAdmissionGroup.onAbort, hfirst]
    rw [List.foldl_cons, hnext, List.map_cons]
    refine .move hmove (ih _ (hmove.admits admits) hnodup.of_cons ?_)
    intro r hr
    refine hmove.waiting_kept (hwaits r (List.mem_cons_of_mem _ hr)) ?_
    rintro rfl
    exact (List.nodup_cons.mp hnodup).1 hr

/-- The listeners of a signal are the waiting reservations made under it. -/
theorem mem_listeners (admits : Admits group) {signal : ℕ} :
    reservation ∈ group.listeners signal ↔
      group.state? reservation = some .waiting ∧
        ∃ r, group.reservations[reservation]? = some r ∧ r.signal = signal := by
  simp only [MediaCallAdmissionGroup.listeners, List.mem_filter, List.mem_range]
  cases hcase : group.reservations[reservation]? with
  | none => simp
  | some r =>
    have hlt := (List.getElem?_eq_some_iff.mp hcase).1
    have hsettled := admits.settled r (List.mem_of_getElem? hcase)
    have hstate : group.state? reservation = some r.state := by
      simp [MediaCallAdmissionGroup.state?, hcase]
    rw [hstate]
    cases hr : r.state <;> simp_all [Settled]

theorem abort_chain (admits : Admits group) (signal : ℕ) :
    ∃ moves, Chain group moves (group.abort signal) ∧ (∀ withdrawn ∈ moves.tail, withdrawn ≠ none) ∧
      ∀ other, some other ∈ moves ↔
        group.state? other = some .waiting ∧ Withdraws group (.abort signal) other := by
  by_cases haborted : signal ∈ group.aborted
  · refine ⟨[], ?_, by simp, fun other => ?_⟩
    · rw [MediaCallAdmissionGroup.abort, if_pos haborted]
      exact .done group
    · simp [Withdraws, haborted]
  · have hraise : group.raise signal = { group with aborted := signal :: group.aborted } := by
      rw [MediaCallAdmissionGroup.raise, if_neg haborted]
    have hmove := @Moves.raised group signal
    refine ⟨none :: (group.listeners signal).map some, ?_, ?_, fun other => ?_⟩
    · rw [MediaCallAdmissionGroup.abort, if_neg haborted, hraise]
      refine .move hmove (foldl_onAbort_chain _ _ (hmove.admits admits) ?_ ?_)
      · exact List.nodup_range.filter _
      · intro r hr
        exact ((mem_listeners admits).mp hr).1
    · intro withdrawn hmem
      obtain ⟨other, -, rfl⟩ := List.mem_map.mp hmem
      simp
    · simp only [List.mem_cons, reduceCtorEq, List.mem_map, Option.some.injEq, exists_eq_right,
        false_or, mem_listeners admits, Withdraws]
      simp [haborted]

/-- What one call does, for every call. -/
theorem perform_chain (admits : Admits group) (call : Call) :
    ∃ moves, Chain group moves (perform group call) ∧
      (∀ withdrawn ∈ moves.tail, withdrawn ≠ none) ∧
      ∀ other, some other ∈ moves ↔
        group.state? other = some .waiting ∧ Withdraws group call other := by
  have htail : ∀ moves : List (Option ℕ), moves.length ≤ 1 →
      ∀ withdrawn ∈ moves.tail, withdrawn ≠ none := by
    intro moves hlen withdrawn hmem
    match moves, hlen with
    | [], _ => simp at hmem
    | [_], _ => simp at hmem
  have hnothing : ∀ moves : List (Option ℕ), (∀ other, some other ∉ moves) →
      (∀ other, ¬ Withdraws group call other) → ∀ other, some other ∈ moves ↔
        group.state? other = some .waiting ∧ Withdraws group call other := by
    intro moves hmoves hcall other
    simp [hmoves, hcall]
  cases call with
  | reserve signal =>
    by_cases haborted : signal ∈ group.aborted
    · refine ⟨[], ?_, by simp, hnothing _ (by simp) fun _ h => h⟩
      simp only [perform, MediaCallAdmissionGroup.reserve, if_pos haborted]
      exact .done group
    by_cases hroom : group.activeCalls = group.maxConcurrentCalls ∧
        group.maxQueuedCalls ≤ group.waiting.length
    · refine ⟨[], ?_, by simp, hnothing _ (by simp) fun _ h => h⟩
      simp only [perform, MediaCallAdmissionGroup.reserve, if_neg haborted, if_pos hroom]
      exact .done group
    refine ⟨[none], ?_, by simp, hnothing _ (by simp) fun _ h => h⟩
    by_cases hfree : group.activeCalls < group.maxConcurrentCalls
    · have hmove := (Moves.admitted signal hfree).chain
      have hpushed : (group.reservations ++
          [(⟨signal, .waiting, none, false⟩ : MediaCallReservation)]).modify
          group.reservations.length (fun r =>
            { r with state := .active, listening := false, ready := resolveReady r.ready true }) =
          group.reservations ++ [⟨signal, .active, some true, false⟩] := by
        simp [List.modify_eq_set_getElem?, resolveReady]
      simp only [perform, MediaCallAdmissionGroup.reserve, if_neg haborted, if_neg hroom,
        if_pos hfree, MediaCallAdmissionGroup.activate, hpushed]
      exact hmove
    · have hfull : group.activeCalls = group.maxConcurrentCalls := by
        have := admits.bounded
        omega
      have hmove := (Moves.queued signal hfull (by
        by_contra hlen
        exact hroom ⟨hfull, not_lt.mp hlen⟩)).chain
      simp only [perform, MediaCallAdmissionGroup.reserve, if_neg haborted, if_neg hroom,
        if_neg hfree]
      exact hmove
  | release reservation =>
    obtain ⟨moves, hchain, hlen, hmem⟩ := release_chain admits reservation
    exact ⟨moves, hchain, htail moves hlen, hmem⟩
  | abort signal => exact abort_chain admits signal
  | raise signal =>
    by_cases haborted : signal ∈ group.aborted
    · refine ⟨[], ?_, by simp, hnothing _ (by simp) fun _ h => h⟩
      simp only [perform, MediaCallAdmissionGroup.raise, if_pos haborted]
      exact .done group
    · refine ⟨[none], ?_, by simp, hnothing _ (by simp) fun _ h => h⟩
      simp only [perform, MediaCallAdmissionGroup.raise, if_neg haborted]
      exact (Moves.raised signal).chain
  | deliver reservation =>
    by_cases hreach : ∃ r, group.reservations[reservation]? = some r ∧ r.signal ∈ group.aborted ∧
        r.state = .waiting
    · obtain ⟨r, hr, haborted, hwaiting⟩ := hreach
      have hwaits : group.state? reservation = some .waiting := state?_eq_some.mpr ⟨r, hr, hwaiting⟩
      have hlistens : r.listening = true := by
        have hsettled := admits.settled r (List.mem_of_getElem? hr)
        simp only [Settled, hwaiting] at hsettled
        exact hsettled.2
      refine ⟨[some reservation], ?_, by simp, fun other => ?_⟩
      · have hmove := (release_waiting admits hwaits).chain
        simp only [perform, MediaCallAdmissionGroup.deliver, hr, hlistens, haborted, and_self,
          if_true, MediaCallAdmissionGroup.onAbort, hwaits]
        exact hmove
      · simp only [List.mem_singleton, Option.some.injEq, Withdraws]
        constructor
        · rintro rfl
          exact ⟨hwaits, rfl, r, hr, haborted⟩
        · exact fun h => h.2.1.symm
    · refine ⟨[], ?_, by simp, fun other => ?_⟩
      · have hsame : group.deliver reservation = group := by
          simp only [MediaCallAdmissionGroup.deliver]
          cases hr : group.reservations[reservation]? with
          | none => rfl
          | some r =>
            by_cases hreached : r.listening ∧ r.signal ∈ group.aborted
            · have hstate : group.state? reservation ≠ some .waiting := by
                intro hwaits
                obtain ⟨r', hr', hwaiting⟩ := state?_eq_some.mp hwaits
                rw [hr] at hr'
                exact hreach ⟨r, hr, hreached.2, Option.some.inj hr' ▸ hwaiting⟩
              simp [hreached, MediaCallAdmissionGroup.onAbort, hstate]
            · simp [hreached]
        rw [perform, hsame]
        exact .done group
      · simp only [List.not_mem_nil, false_iff, Withdraws]
        rintro ⟨hwaits, rfl, r, hr, haborted⟩
        obtain ⟨r', hr', hwaiting⟩ := state?_eq_some.mp hwaits
        rw [hr] at hr'
        exact hreach ⟨r, hr, haborted, Option.some.inj hr' ▸ hwaiting⟩

end Calls

/-! ## Runs -/

section Runs

variable {group : MediaCallAdmissionGroup}

theorem admits_new {limits : MediaCallAdmissionLimits}
    (h : MediaCallAdmissionGroup.new limits = some group) :
    Admits group ∧ (group.maxConcurrentCalls : ℚ) = limits.maxConcurrentCalls ∧
      (group.maxQueuedCalls : ℚ) = limits.maxQueuedCalls ∧ group.reservations = [] := by
  have hnat : ∀ value : ℚ, isSafeInteger value = true → 0 ≤ value →
      ((value.num.toNat : ℕ) : ℚ) = value := by
    intro value hsafe hpos
    simp only [isSafeInteger, Bool.and_eq_true, decide_eq_true_eq] at hsafe
    have hnum : ((value.num : ℤ) : ℚ) = value := Rat.coe_int_num_of_den_eq_one hsafe.1
    have hcast : ((value.num.toNat : ℕ) : ℤ) = value.num :=
      Int.toNat_of_nonneg (Rat.num_nonneg.mpr hpos)
    have hq : (((value.num.toNat : ℕ) : ℤ) : ℚ) = ((value.num : ℤ) : ℚ) := by rw [hcast]
    rw [hnum] at hq
    exact_mod_cast hq
  simp only [MediaCallAdmissionGroup.new, Option.ite_none_left_eq_some, Bool.or_eq_true,
    Bool.not_eq_true', decide_eq_true_eq, not_or, not_lt, Bool.not_eq_false, Option.some.injEq] at h
  obtain ⟨⟨⟨⟨hconcurrent, hone⟩, hqueued⟩, hzero⟩, rfl⟩ := h
  refine ⟨?_, hnat _ hconcurrent (by linarith), hnat _ hqueued hzero, rfl⟩
  constructor <;> simp [MediaCallAdmissionGroup.state?]

theorem performAll_admits (admits : Admits group) (calls : List Call) :
    Admits (performAll group calls) ∧
      (performAll group calls).maxConcurrentCalls = group.maxConcurrentCalls ∧
      (performAll group calls).maxQueuedCalls = group.maxQueuedCalls := by
  induction calls using List.reverseRecOn with
  | nil => exact ⟨admits, rfl, rfl⟩
  | append_singleton calls call ih =>
    obtain ⟨moves, hchain, -, -⟩ := perform_chain ih.1 call
    rw [performAll_append]
    exact ⟨hchain.admits ih.1, hchain.limits.1.trans ih.2.1, hchain.limits.2.trans ih.2.2⟩

theorem performAll_ready_kept (admits : Admits group) {reservation : ℕ} {admitted : Bool}
    (hready : group.ready reservation = some admitted) (calls : List Call) :
    (performAll group calls).ready reservation = some admitted := by
  induction calls using List.reverseRecOn with
  | nil => exact hready
  | append_singleton calls call ih =>
    obtain ⟨moves, hchain, -, -⟩ := perform_chain (performAll_admits admits calls).1 call
    rw [performAll_append]
    exact hchain.ready_kept ih

/-- A promise settles to true exactly when its reservation has held a permit. -/
theorem ready_true_iff (admits : Admits group) (none_made : group.reservations = [])
    (calls : List Call) (reservation : ℕ) :
    (performAll group calls).ready reservation = some true ↔
      ∃ before after, calls = before ++ after ∧
        (performAll group before).state? reservation = some .active := by
  constructor
  · induction calls using List.reverseRecOn with
    | nil =>
      intro h
      simp [performAll, MediaCallAdmissionGroup.ready, none_made] at h
    | append_singleton calls call ih =>
      intro h
      obtain ⟨moves, hchain, htail, -⟩ := perform_chain (performAll_admits admits calls).1 call
      rw [performAll_append] at h
      rcases hchain.ready_true htail h with hold | hactive
      · obtain ⟨before, after, rfl, hheld⟩ := ih hold
        exact ⟨before, after ++ [call], by simp, hheld⟩
      · exact ⟨calls ++ [call], [], by simp, by rwa [performAll_append]⟩
  · rintro ⟨before, after, rfl, hactive⟩
    have hbefore := (performAll_admits admits before).1
    rw [performAll_append]
    exact performAll_ready_kept hbefore (hbefore.ready_true hactive) after

/-- A promise settles to false exactly when its reservation was withdrawn while it waited. -/
theorem ready_false_iff (admits : Admits group) (none_made : group.reservations = [])
    (calls : List Call) (reservation : ℕ) :
    (performAll group calls).ready reservation = some false ↔
      ∃ before call after, calls = before ++ call :: after ∧
        (performAll group before).state? reservation = some .waiting ∧
        Withdraws (performAll group before) call reservation := by
  constructor
  · induction calls using List.reverseRecOn with
    | nil =>
      intro h
      simp [performAll, MediaCallAdmissionGroup.ready, none_made] at h
    | append_singleton calls call ih =>
      intro h
      have hbefore := (performAll_admits admits calls).1
      obtain ⟨moves, hchain, -, hmem⟩ := perform_chain hbefore call
      rw [performAll_append] at h
      rcases hchain.ready_false hbefore h with hold | hwithdrawn
      · obtain ⟨before, last, after, rfl, hcase⟩ := ih hold
        exact ⟨before, last, after ++ [call], by simp, hcase⟩
      · exact ⟨calls, call, [], rfl, (hmem reservation).mp hwithdrawn⟩
  · rintro ⟨before, call, after, rfl, hwaits, hcall⟩
    have hbefore := (performAll_admits admits before).1
    obtain ⟨moves, hchain, -, hmem⟩ := perform_chain hbefore call
    have hfalse := hchain.withdraws hbefore ((hmem reservation).mpr ⟨hwaits, hcall⟩)
    have hsplit : before ++ call :: after = before ++ [call] ++ after := by simp
    rw [hsplit, performAll_append, performAll_append]
    exact performAll_ready_kept (hchain.admits hbefore) hfalse after

end Runs

/-- The reservations that are in one state. -/
def inState (group : MediaCallAdmissionGroup) (state : CallState) : List ℕ :=
  (List.range group.reservations.length).filter fun reservation =>
    decide (group.state? reservation = some state)

theorem mem_inState {group : MediaCallAdmissionGroup} {state : CallState} {reservation : ℕ} :
    reservation ∈ inState group state ↔ group.state? reservation = some state := by
  simp only [inState, List.mem_filter, List.mem_range, decide_eq_true_eq, and_iff_right_iff_imp]
  exact lt_of_state?

theorem nodup_inState (group : MediaCallAdmissionGroup) (state : CallState) :
    (inState group state).Nodup :=
  List.nodup_range.filter _

theorem length_filter_range (state : CallState) (reservations : List MediaCallReservation) :
    ((List.range reservations.length).filter fun i =>
      decide (reservations[i]?.map (·.state) = some state)).length =
      reservations.countP (·.state = state) := by
  induction reservations using List.reverseRecOn with
  | nil => rfl
  | append_singleton reservations r ih =>
    have hold : (List.range reservations.length).filter (fun i =>
        decide ((reservations ++ [r])[i]?.map (·.state) = some state)) =
        (List.range reservations.length).filter (fun i =>
          decide (reservations[i]?.map (·.state) = some state)) := by
      refine List.filter_congr fun i hi => ?_
      rw [List.getElem?_append_left (List.mem_range.mp hi)]
    rw [List.length_append, List.length_singleton, List.range_succ, List.filter_append, hold,
      List.length_append, ih, List.countP_append]
    by_cases h : r.state = state <;> simp [h]

theorem length_waiting {group : MediaCallAdmissionGroup} (admits : Admits group) :
    (inState group .waiting).length = group.waiting.length := by
  refine List.Perm.length_eq ((List.perm_ext_iff_of_nodup (nodup_inState group .waiting)
    (admits.sorted.imp fun hij => ne_of_lt hij)).mpr fun reservation => ?_)
  rw [mem_inState, admits.waits]

/-- **Permits are neither leaked nor lost.**  After any calls in any order, the counter is the
number of admitted reservations and within the limit, the queue is within its limit and holds
somebody only while all permits are taken, whoever waits was made after everybody who was
admitted, a promise that has settled keeps its value, it is true exactly when its reservation has
held a permit and false exactly when it was withdrawn while it waited, and once every reservation
is released no permit is in use. -/
theorem permits_kept (limits : MediaCallAdmissionLimits) (group : MediaCallAdmissionGroup)
    (accepted : MediaCallAdmissionGroup.new limits = some group) (calls : List Call) :
    let final := performAll group calls
    (final.activeCalls = (inState final .active).length ∧
      ((inState final .active).length : ℚ) ≤ limits.maxConcurrentCalls) ∧
    ((inState final .waiting).length : ℚ) ≤ limits.maxQueuedCalls ∧
    (inState final .waiting ≠ [] →
      ((inState final .active).length : ℚ) = limits.maxConcurrentCalls) ∧
    (∀ earlier later, earlier ≤ later → final.state? earlier = some .waiting →
      final.ready later ≠ some true) ∧
    (∀ reservation admitted, final.ready reservation = some admitted → ∀ more,
      (performAll group (calls ++ more)).ready reservation = some admitted) ∧
    (∀ reservation, final.ready reservation = some true ↔
      ∃ before after, calls = before ++ after ∧
        (performAll group before).state? reservation = some .active) ∧
    (∀ reservation, final.ready reservation = some false ↔
      ∃ before call after, calls = before ++ call :: after ∧
        (performAll group before).state? reservation = some .waiting ∧
        Withdraws (performAll group before) call reservation) ∧
    ((∀ reservation < final.reservations.length, final.state? reservation = some .released) →
      final.activeCalls = 0 ∧ final.waiting = []) := by
  intro final
  obtain ⟨hnew, hconcurrent, hqueued, hnone⟩ := admits_new accepted
  obtain ⟨admits, hmax, hroom⟩ := performAll_admits hnew calls
  have hcount : final.activeCalls = (inState final .active).length := by
    rw [admits.counted]
    exact congrArg _ (length_filter_range .active final.reservations).symm
  have hactive : ((inState final .active).length : ℤ) ≤ group.maxConcurrentCalls := by
    rw [← hcount, ← hmax]
    exact admits.bounded
  refine ⟨⟨hcount, ?_⟩, ?_, ?_, ?_, ?_, ready_true_iff hnew hnone calls,
    ready_false_iff hnew hnone calls, ?_⟩
  · rw [← hconcurrent]
    exact_mod_cast hactive
  · rw [length_waiting admits, ← hqueued, ← hroom]
    exact_mod_cast admits.queued
  · intro hne
    have hwaiting : final.waiting ≠ [] := by
      intro hempty
      refine hne (List.length_eq_zero_iff.mp ?_)
      rw [length_waiting admits, hempty]
      rfl
    have hfull := admits.full hwaiting
    rw [← hconcurrent, ← hmax]
    rw [hcount] at hfull
    exact_mod_cast hfull
  · intro earlier later hle hwaits hready
    exact absurd (admits.inOrder earlier later hwaits hready) (not_lt.mpr hle)
  · intro reservation value hready more
    rw [performAll_append]
    exact performAll_ready_kept admits hready more
  · intro hreleased
    have hempty : ∀ state, state ≠ .released → inState final state = [] := by
      intro state hstate
      refine List.eq_nil_iff_forall_not_mem.mpr fun reservation hmem => ?_
      have hin := mem_inState.mp hmem
      rw [hreleased reservation (lt_of_state? hin)] at hin
      exact hstate (Option.some.inj hin).symm
    constructor
    · rw [hcount, hempty .active (by simp)]
      rfl
    · refine List.length_eq_zero_iff.mp ?_
      rw [← length_waiting admits, hempty .waiting (by simp)]
      rfl

/-- One permit and one place to wait: the second call waits, the third is refused, and the abort
of the second leaves the permit with the first. -/
theorem permits_kept_one_permit :
    let final := performAll
      { maxConcurrentCalls := 1, maxQueuedCalls := 1, activeCalls := 0, waiting := [],
        reservations := [], aborted := [] }
      [.reserve 0, .reserve 1, .reserve 2, .abort 1, .release 0, .release 0]
    final.ready 0 = some true ∧ final.ready 1 = some false ∧ final.ready 2 = none ∧
      final.activeCalls = 0 := by
  have h := permits_kept ⟨1, 1⟩
    { maxConcurrentCalls := 1, maxQueuedCalls := 1, activeCalls := 0, waiting := [],
      reservations := [], aborted := [] }
    (by norm_num [MediaCallAdmissionGroup.new, isSafeInteger])
    [.reserve 0, .reserve 1, .reserve 2, .abort 1, .release 0, .release 0]
  refine ⟨by decide, by decide, by decide, (h.2.2.2.2.2.2.2 ?_).1⟩
  decide

end OpenGameAgent.MediaCalls
