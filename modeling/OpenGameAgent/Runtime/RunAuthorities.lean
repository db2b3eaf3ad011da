import OpenGameAgent.Actions.JournalRuns
import OpenGameAgent.Runtime.EventStore

/-!
# What a store remembers of run authorities

A store knows which authority admitted a run and which authorities are closed.  A close
request finds the closure that an equal request made, conflicts with a different request
for its key or its operation, or finds nothing and is committed.

* `RunAuthorities.Later` — admissions stay and what is closed stays closed, whatever is
  written over.
* `RunAuthorities.Keeps` — the closures stay the same; `Consistent.keeps_commit` says when
  a commit keeps them.
* `RunAuthorityStore` — an event store, with what its calls do to the authorities.
-/

namespace OpenGameAgent

structure RunAuthorities where
  closure : RunAuthorityKey → Option RunAuthorityClosure
  operation : String → Option RunAuthorityKey
  admission : RunKey → Option RunAdmissionAuthority

namespace RunAuthorities

def empty : RunAuthorities := ⟨fun _ => none, fun _ => none, fun _ => none⟩

/-- The authority that admitted the run is not closed; an unknown run is unscoped. -/
def IsOpen (a : RunAuthorities) (run : RunKey) : Prop :=
  ∀ authority, a.admission run = some authority → a.closure (run.under authority) = none

/-- What a close request finds. -/
def lookup (a : RunAuthorities) (request : CloseRunAuthorityRequest) :
    Except EventError (Option RunAuthorityClosure) :=
  if (a.operation request.operationId).any fun key => key ≠ request.key then
    .error .runAuthorityConflict
  else match a.closure request.key with
    | none => .ok none
    | some existing =>
      if existing.toCloseRunAuthorityRequest ≠ request then .error .runAuthorityConflict
      else .ok (some existing)

/-- A closure stands under its key and its operation. -/
def commit (a : RunAuthorities) (closure : RunAuthorityClosure) : RunAuthorities :=
  { a with
    closure := fun key => if closure.key = key then some closure else a.closure key
    operation := fun id => if closure.operationId = id then some closure.key else a.operation id }

def withAdmission (a : RunAuthorities) (run : RunKey) (authority : RunAdmissionAuthority) :
    RunAuthorities :=
  { a with admission := fun other => if run = other then some authority else a.admission other }

/-- What the event of a run needs, and what it leaves. -/
def Admits (a : RunAuthorities) (run : RunKey) (a' : RunAuthorities) : CanonicalEventData → Prop
  | .runQueued _ _ (some authority) =>
    a.closure (run.under authority) = none ∧
      (a.admission run = none ∨ a.admission run = some authority) ∧ a' = a.withAdmission run authority
  | .runStarted _ | .runResumed _ => a.IsOpen run ∧ a' = a
  | _ => a' = a

/-! ## Requests -/

variable {a a' a'' : RunAuthorities} {request : CloseRunAuthorityRequest}
  {closure : RunAuthorityClosure}

theorem lookup_eq_some (h : a.lookup request = .ok (some closure)) :
    a.closure request.key = some closure ∧ closure.toCloseRunAuthorityRequest = request := by
  unfold lookup at h
  split at h
  · cases h
  · split at h
    · cases h
    · rename_i existing hexisting
      split at h
      · cases h
      · rename_i hsame
        cases h
        exact ⟨hexisting, not_not.1 hsame⟩

theorem lookup_eq_none (h : a.lookup request = .ok none) :
    a.closure request.key = none ∧
      ∀ key, a.operation request.operationId = some key → key = request.key := by
  unfold lookup at h
  split at h
  · cases h
  · rename_i hoperation
    split at h
    · rename_i hnone
      refine ⟨hnone, fun key hkey => ?_⟩
      by_contra hne
      simp [hkey, hne] at hoperation
    · split at h <;> cases h

/-! ## Growth -/

/-- Admissions stay, and what is closed stays closed. -/
structure Later (a a' : RunAuthorities) : Prop where
  closed : ∀ key, (a.closure key).isSome → (a'.closure key).isSome
  admitted : ∀ run authority, a.admission run = some authority → a'.admission run = some authority

theorem Later.refl (a : RunAuthorities) : Later a a := ⟨fun _ h => h, fun _ _ h => h⟩

theorem Later.trans (h : Later a a') (h' : Later a' a'') : Later a a'' where
  closed key hkey := h'.closed key (h.closed key hkey)
  admitted run authority hrun := h'.admitted run authority (h.admitted run authority hrun)

theorem later_commit (a : RunAuthorities) (closure : RunAuthorityClosure) :
    Later a (a.commit closure) where
  closed key h := by
    unfold commit
    dsimp only
    split
    · rfl
    · exact h
  admitted _ _ h := h

theorem Admits.later {run : RunKey} {data : CanonicalEventData} (h : a.Admits run a' data) :
    Later a a' := by
  cases data with
  | runQueued inputId inputFingerprint authority =>
    cases authority with
    | none => exact (show a' = a from h) ▸ Later.refl a
    | some authority =>
      obtain ⟨-, hadmission, rfl⟩ := h
      refine ⟨fun _ h => h, fun other existing hexisting => ?_⟩
      unfold withAdmission
      dsimp only
      split
      · rename_i hrun
        subst hrun
        rcases hadmission with hnone | hsame
        · rw [hnone] at hexisting
          cases hexisting
        · exact hsame.symm.trans hexisting
      · exact hexisting
  | runStarted id => exact h.2 ▸ Later.refl a
  | runResumed id => exact h.2 ▸ Later.refl a
  | runSuspended id => exact (show a' = a from h) ▸ Later.refl a
  | runCompleted status => exact (show a' = a from h) ▸ Later.refl a
  | item kind audience body => exact (show a' = a from h) ▸ Later.refl a
  | other kind body => exact (show a' = a from h) ▸ Later.refl a

/-- Closures are a matter of `closeAuthority` alone. -/
theorem Admits.closures {run : RunKey} {data : CanonicalEventData} (h : a.Admits run a' data) :
    a'.closure = a.closure ∧ a'.operation = a.operation := by
  cases data with
  | runQueued inputId inputFingerprint authority =>
    cases authority with
    | none => exact (show a' = a from h) ▸ ⟨rfl, rfl⟩
    | some authority =>
      obtain ⟨-, -, rfl⟩ := h
      exact ⟨rfl, rfl⟩
  | runStarted id => exact h.2 ▸ ⟨rfl, rfl⟩
  | runResumed id => exact h.2 ▸ ⟨rfl, rfl⟩
  | runSuspended id => exact (show a' = a from h) ▸ ⟨rfl, rfl⟩
  | runCompleted status => exact (show a' = a from h) ▸ ⟨rfl, rfl⟩
  | item kind audience body => exact (show a' = a from h) ▸ ⟨rfl, rfl⟩
  | other kind body => exact (show a' = a from h) ▸ ⟨rfl, rfl⟩

/-! ## Closures that stay the same -/

/-- Every closure stands under its own key, and its operation leads to it. -/
def Consistent (a : RunAuthorities) : Prop :=
  ∀ key closure, a.closure key = some closure →
    closure.key = key ∧ a.operation closure.operationId = some key

/-- The closures of one are closures of the other. -/
def Keeps (a a' : RunAuthorities) : Prop :=
  ∀ key closure, a.closure key = some closure → a'.closure key = some closure

theorem consistent_empty : Consistent empty := nofun

/-- A request that finds nothing can be committed. -/
theorem Consistent.commit (h : Consistent a)
    (hfree : a.lookup closure.toCloseRunAuthorityRequest = .ok none) :
    Consistent (a.commit closure) := by
  obtain ⟨-, hoperation⟩ := lookup_eq_none hfree
  intro key other hother
  unfold RunAuthorities.commit at hother ⊢
  dsimp only at hother ⊢
  split at hother
  · rename_i hkey
    cases hother
    exact ⟨hkey, by rw [if_pos rfl, hkey]⟩
  · rename_i hkey
    obtain ⟨hown, hleads⟩ := h key other hother
    refine ⟨hown, ?_⟩
    split
    · rename_i hid
      rw [← hid] at hleads
      exact absurd (hoperation key hleads).symm hkey
    · exact hleads

theorem keeps_commit (hfree : a.lookup closure.toCloseRunAuthorityRequest = .ok none) :
    Keeps a (a.commit closure) := by
  obtain ⟨hnone, -⟩ := lookup_eq_none hfree
  intro key other hother
  unfold RunAuthorities.commit
  dsimp only
  split
  · rename_i hkey
    rw [← hkey] at hother
    exact absurd (hnone.symm.trans hother) (by simp)
  · exact hother

/-- An equal request finds the closure again. -/
theorem Consistent.lookup_self (h : Consistent a) {key : RunAuthorityKey}
    (hclosure : a.closure key = some closure) :
    a.lookup closure.toCloseRunAuthorityRequest = .ok (some closure) := by
  obtain ⟨hkey, hoperation⟩ := h key closure hclosure
  unfold lookup
  rw [hoperation, show closure.toCloseRunAuthorityRequest.key = key from hkey, hclosure]
  simp

/-- A different request for the key or the operation conflicts. -/
theorem Consistent.lookup_other (h : Consistent a) {key : RunAuthorityKey}
    (hclosure : a.closure key = some closure)
    (hother : request ≠ closure.toCloseRunAuthorityRequest)
    (hshared : request.key = key ∨ request.operationId = closure.operationId) :
    a.lookup request = .error .runAuthorityConflict := by
  obtain ⟨hkey, hoperation⟩ := h key closure hclosure
  unfold lookup
  split
  · rfl
  · rename_i hany
    have hsame : request.key = key := by
      rcases hshared with hshared | hshared
      · exact hshared
      · rw [hshared, hoperation] at hany
        by_contra hne
        exact hany (by simp [Ne.symm hne])
    rw [hsame, hclosure]
    exact if_pos fun heq => hother heq.symm

end RunAuthorities

/-! ## Stores -/

/-- What a call that succeeds does to the authorities. -/
def EventAnswer.Authorities (a a' : RunAuthorities) : EventCall → EventAnswer → Prop
  | .append .., .appended event => a.Admits event.coordinate.runKey a' event.data
  | .purgeTerminalRuns .., .purged _ => a' = a
  | .beginClose request, .progress reached =>
    a' = a ∧
      ((∃ closure, reached = .answered closure ∧ a.lookup request = .ok (some closure)) ∨
        (reached = .asksClock ∧ a.lookup request = .ok none))
  | .resumeClose request _, .progress reached =>
    (a' = a ∧ ∃ closure, reached = .answered closure ∧ a.lookup request = .ok (some closure)) ∨
      (a.lookup request = .ok none ∧
        ((∃ closure, closure.toCloseRunAuthorityRequest = request ∧
            reached = .answered closure ∧ a' = a.commit closure) ∨
          (reached = .retiresGoals ∧ a' = a)))
  | .commitClose request _, .progress reached =>
    ∃ closure, closure.toCloseRunAuthorityRequest = request ∧
      reached = .answered closure ∧ a' = a.commit closure
  | _, _ => False

/-- An event store that knows the authorities of its runs. -/
structure RunAuthorityStore extends CanonicalEventStore where
  authorities : State → RunAuthorities
  /-- What holds of the tables in every run. -/
  Valid : State → Prop
  /-- The requests that pass the checks of `closeAuthority`. -/
  Accepts : CloseRunAuthorityRequest → Prop
  valid_empty : Valid empty
  authorities_empty : authorities empty = .empty
  allowed : ∀ call' state, Valid state → Ends (call call') state
    (fun answer state' => Valid state' ∧
      answer.Authorities (authorities state) (authorities state') call')
    (fun _ state' => state' = state)
  accepted : ∀ request state, Ends (call (.beginClose request)) state
    (fun _ state' => state' = state ∧ Accepts request) (fun _ state' => state' = state)
  repeated : ∀ request state closure, Valid state → Accepts request →
    (authorities state).lookup request = .ok (some closure) →
    respond (call (.beginClose request)) state = (.ok (.progress (.answered closure)), state)

end OpenGameAgent
