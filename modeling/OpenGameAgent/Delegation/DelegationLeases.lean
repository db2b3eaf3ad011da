import Mathlib.Logic.Relation
import OpenGameAgent.Delegation.InMemoryDelegationStore

/-!
# Leases of delegations

What holds of every state of an in-memory delegation store, whatever requests led to it.

* `DelegationWrite` — the four things a request other than a claim does to a store;
  `renew_writes`, `complete_writes`, … say that a request does only these.
* `InMemoryDelegationStore.Sound` — the invariant: a lease belongs to a running delegation,
  a settling token to a settled one, and both are tokens the store gave out.
* `InMemoryDelegationStore.Continues` — what stays: settled records, and that a token that
  is neither leased nor settling never is again.
* `Dead` — such a token; no request with it writes anything: `bindRun_dead`, ….
-/

namespace OpenGameAgent

namespace InMemoryDelegationStore

/-! ## The invariant -/

/-- What holds of every reachable store. -/
structure Sound (token : Nat → String) (store : InMemoryDelegationStore) : Prop where
  unique : ∀ key key' record record', store.records.get? key = some record →
    store.records.get? key' = some record' → record.delegationKey = record'.delegationKey →
    key = key'
  leased : ∀ delegationKey lease, store.leases.get? delegationKey = some lease →
    ∃ key record, store.records.get? key = some record ∧
      record.delegationKey = delegationKey ∧ record.status = .running
  settled : ∀ delegationKey settledToken,
    store.settledTokens.get? delegationKey = some settledToken →
    ∃ key record, store.records.get? key = some record ∧
      record.delegationKey = delegationKey ∧ record.status.terminal = true
  leaseToken : ∀ delegationKey lease, store.leases.get? delegationKey = some lease →
    ∃ n < store.issued, lease.token = token n
  settledToken : ∀ delegationKey settledToken,
    store.settledTokens.get? delegationKey = some settledToken →
    ∃ n < store.issued, settledToken = token n

/-- What a later store owes to an earlier one, when no delegation was claimed between. -/
structure Continues (store next : InMemoryDelegationStore) : Prop where
  terminal : ∀ key record, store.records.get? key = some record → record.status.terminal = true →
    next.records.get? key = some record
  leased : ∀ delegationKey lease, next.leases.get? delegationKey = some lease →
    ∃ former, store.leases.get? delegationKey = some former ∧ former.token = lease.token
  settled : ∀ delegationKey settledToken,
    next.settledTokens.get? delegationKey = some settledToken →
    store.settledTokens.get? delegationKey = some settledToken ∨
      ∃ lease, store.leases.get? delegationKey = some lease ∧ lease.token = settledToken
  issued : store.issued ≤ next.issued

/-- A token that is neither leased nor settling. -/
structure Dead (store : InMemoryDelegationStore) (delegationKey : Nat) (leaseToken : String) :
    Prop where
  leased : ∀ lease, store.leases.get? delegationKey = some lease → lease.token ≠ leaseToken
  settled : store.settledTokens.get? delegationKey ≠ some leaseToken

/-- What a request other than a claim does to a store. -/
inductive DelegationWrite (store : InMemoryDelegationStore) : InMemoryDelegationStore → Prop
  | unleased (delegationKey : Nat) : DelegationWrite store (store.dropLease delegationKey)
  | updated (record changed : DelegationRecord)
      (stored : store.records.get? record.key = some record)
      (live : record.status.terminal = false)
      (sameKey : changed.key = record.key)
      (sameNumber : changed.delegationKey = record.delegationKey)
      (free : changed.status = .running ∨ store.leases.get? record.delegationKey = none) :
      DelegationWrite store (store.put changed)
  | renewed (delegationKey : Nat) (lease renewed : DelegationLease)
      (leased : store.leases.get? delegationKey = some lease)
      (sameToken : renewed.token = lease.token) :
      DelegationWrite store { store with leases := store.leases.set delegationKey renewed }
  | settled (record changed : DelegationRecord) (lease : DelegationLease)
      (stored : store.records.get? record.key = some record)
      (live : record.status.terminal = false)
      (sameKey : changed.key = record.key)
      (sameNumber : changed.delegationKey = record.delegationKey)
      (terminal : changed.status.terminal = true)
      (leased : store.leases.get? record.delegationKey = some lease) :
      DelegationWrite store { (store.dropLease record.delegationKey).put changed with
        settledTokens := store.settledTokens.set record.delegationKey lease.token }

/-- What requests other than claims make of a store. -/
abbrev Writes : InMemoryDelegationStore → InMemoryDelegationStore → Prop :=
  Relation.ReflTransGen DelegationWrite

variable {token : Nat → String} {store next : InMemoryDelegationStore}

theorem Continues.refl (store : InMemoryDelegationStore) : store.Continues store where
  terminal _ _ h _ := h
  leased _ lease h := ⟨lease, h, rfl⟩
  settled _ _ h := Or.inl h
  issued := le_refl _

theorem Continues.trans {last : InMemoryDelegationStore} (h : store.Continues next)
    (h' : next.Continues last) : store.Continues last where
  terminal key record hget hterminal :=
    h'.terminal key record (h.terminal key record hget hterminal) hterminal
  leased delegationKey lease hget := by
    obtain ⟨former, hformer, htoken⟩ := h'.leased delegationKey lease hget
    obtain ⟨first, hfirst, htoken'⟩ := h.leased delegationKey former hformer
    exact ⟨first, hfirst, htoken'.trans htoken⟩
  settled delegationKey settledToken hget := by
    rcases h'.settled delegationKey settledToken hget with hget | ⟨lease, hlease, htoken⟩
    · exact h.settled delegationKey settledToken hget
    · obtain ⟨former, hformer, htoken'⟩ := h.leased delegationKey lease hlease
      exact Or.inr ⟨former, hformer, htoken'.trans htoken⟩
  issued := h.issued.trans h'.issued

/-- A dead token stays dead. -/
theorem Dead.continues {delegationKey : Nat} {leaseToken : String}
    (h : store.Dead delegationKey leaseToken) (hnext : store.Continues next) :
    next.Dead delegationKey leaseToken where
  leased lease hlease := by
    obtain ⟨former, hformer, htoken⟩ := hnext.leased delegationKey lease hlease
    exact htoken ▸ h.leased former hformer
  settled hsettled := by
    rcases hnext.settled delegationKey leaseToken hsettled with hsettled | ⟨lease, hlease, htoken⟩
    · exact h.settled hsettled
    · exact h.leased lease hlease htoken

/-! ## What a write keeps -/

/-- A record is found by its number. -/
theorem Sound.same_record (h : store.Sound token) {key key' : DelegationKey}
    {record record' : DelegationRecord} (hget : store.records.get? key = some record)
    (hget' : store.records.get? key' = some record')
    (hnumber : record.delegationKey = record'.delegationKey) : record = record' := by
  obtain rfl := h.unique key key' record record' hget hget' hnumber
  exact Option.some.inj (hget.symm.trans hget')

/-- A live delegation has no settling token. -/
theorem Sound.unsettled (h : store.Sound token) {key : DelegationKey} {record : DelegationRecord}
    (hget : store.records.get? key = some record) (hlive : record.status.terminal = false) :
    store.settledTokens.get? record.delegationKey = none := by
  cases hsettled : store.settledTokens.get? record.delegationKey with
  | none => rfl
  | some settledToken =>
    obtain ⟨key', record', hget', hnumber, hterminal⟩ := h.settled _ _ hsettled
    obtain rfl := h.same_record hget hget' hnumber.symm
    rw [hlive] at hterminal
    cases hterminal

theorem Sound.dropLease (h : store.Sound token) (delegationKey : Nat) :
    (store.dropLease delegationKey).Sound token := by
  have hlease : ∀ other lease,
      (store.leases.delete delegationKey).get? other = some lease →
      store.leases.get? other = some lease := by
    intro other lease hget
    rw [OrderedMap.get?_delete] at hget
    split at hget
    · cases hget
    · exact hget
  exact
    { unique := h.unique
      leased := fun other lease hget => h.leased other lease (hlease other lease hget)
      settled := h.settled
      leaseToken := fun other lease hget => h.leaseToken other lease (hlease other lease hget)
      settledToken := h.settledToken }

theorem continues_dropLease (store : InMemoryDelegationStore) (delegationKey : Nat) :
    store.Continues (store.dropLease delegationKey) where
  terminal _ _ h _ := h
  leased other lease hget := by
    unfold InMemoryDelegationStore.dropLease at hget
    rw [OrderedMap.get?_delete] at hget
    split at hget
    · cases hget
    · exact ⟨lease, hget, rfl⟩
  settled _ _ h := Or.inl h
  issued := le_refl _

section Put

variable {record changed : DelegationRecord}

/-- The records when one of them is rewritten. -/
theorem get?_put (store : InMemoryDelegationStore) (changed : DelegationRecord)
    (key : DelegationKey) : (store.put changed).records.get? key =
      if changed.key = key then some changed else store.records.get? key :=
  OrderedMap.get?_set _ _ _ _

/-- Another record is where it was. -/
theorem get?_put_of_live (hstored : store.records.get? record.key = some record)
    (hkey : changed.key = record.key) {key : DelegationKey} {other : DelegationRecord}
    (hget : store.records.get? key = some other) (hne : other ≠ record) :
    (store.put changed).records.get? key = some other := by
  rw [get?_put, if_neg]
  · exact hget
  · rintro rfl
    rw [hkey, hstored] at hget
    exact hne (Option.some.inj hget).symm

/-- A live record is rewritten; a lease stays on a running one. -/
theorem Sound.put (h : store.Sound token) (hstored : store.records.get? record.key = some record)
    (hlive : record.status.terminal = false) (hkey : changed.key = record.key)
    (hnumber : changed.delegationKey = record.delegationKey)
    (hfree : changed.status = .running ∨ store.leases.get? record.delegationKey = none) :
    (store.put changed).Sound token := by
  have hback : ∀ key other, (store.put changed).records.get? key = some other →
      ∃ former, store.records.get? key = some former ∧
        other.delegationKey = former.delegationKey := by
    intro key other hget
    rw [get?_put] at hget
    split at hget
    · rename_i hkey'
      rw [Option.some.injEq] at hget
      subst hget
      exact ⟨record, hkey' ▸ hkey ▸ hstored, hnumber⟩
    · exact ⟨other, hget, rfl⟩
  constructor
  case unique =>
    intro key key' left right hleft hright hsame
    obtain ⟨left', hleft', hnumber⟩ := hback key left hleft
    obtain ⟨right', hright', hnumber'⟩ := hback key' right hright
    exact h.unique key key' left' right' hleft' hright'
      (hnumber.symm.trans (hsame.trans hnumber'))
  case leased =>
    intro delegationKey lease hlease
    obtain ⟨key, other, hget, hother, hrunning⟩ := h.leased delegationKey lease hlease
    by_cases hsame : other = record
    · subst hsame
      rcases hfree with hfree | hfree
      · exact ⟨changed.key, changed, by rw [get?_put, if_pos rfl], hnumber.trans hother, hfree⟩
      · rw [hother] at hfree
        exact absurd (hlease.symm.trans hfree) nofun
    · exact ⟨key, other, get?_put_of_live hstored hkey hget hsame, hother, hrunning⟩
  case settled =>
    intro delegationKey settledToken hsettled
    obtain ⟨key, other, hget, hother, hterminal⟩ := h.settled delegationKey _ hsettled
    have hne : other ≠ record := by
      rintro rfl
      rw [hlive] at hterminal
      cases hterminal
    exact ⟨key, other, get?_put_of_live hstored hkey hget hne, hother, hterminal⟩
  case leaseToken => exact h.leaseToken
  case settledToken => exact h.settledToken

theorem continues_put (hstored : store.records.get? record.key = some record)
    (hlive : record.status.terminal = false) (hkey : changed.key = record.key) :
    store.Continues (store.put changed) where
  terminal key other hget hterminal := by
    refine get?_put_of_live hstored hkey hget ?_
    rintro rfl
    rw [hlive] at hterminal
    cases hterminal
  leased _ lease h := ⟨lease, h, rfl⟩
  settled _ _ h := Or.inl h
  issued := le_refl _

end Put

/-- The lease of a running delegation is written. -/
theorem Sound.setLease (h : store.Sound token) {delegationKey : Nat} {lease : DelegationLease}
    (hrunning : ∃ key record, store.records.get? key = some record ∧
      record.delegationKey = delegationKey ∧ record.status = .running)
    (htoken : ∃ n < store.issued, lease.token = token n) :
    Sound token { store with leases := store.leases.set delegationKey lease } := by
  constructor
  case unique => exact h.unique
  case leased =>
    intro other lease' hget
    dsimp only at hget ⊢
    rw [OrderedMap.get?_set] at hget
    split at hget
    · rename_i hsame
      exact hsame ▸ hrunning
    · exact h.leased other lease' hget
  case settled => exact h.settled
  case leaseToken =>
    intro other lease' hget
    dsimp only at hget ⊢
    rw [OrderedMap.get?_set] at hget
    split at hget
    · rw [Option.some.injEq] at hget
      exact hget ▸ htoken
    · exact h.leaseToken other lease' hget
  case settledToken => exact h.settledToken

/-- The token that settles a delegation is written. -/
theorem Sound.setSettledToken (h : store.Sound token) {delegationKey : Nat} {settledToken : String}
    (hterminal : ∃ key record, store.records.get? key = some record ∧
      record.delegationKey = delegationKey ∧ record.status.terminal = true)
    (htoken : ∃ n < store.issued, settledToken = token n) :
    Sound token { store with
      settledTokens := store.settledTokens.set delegationKey settledToken } := by
  constructor
  case unique => exact h.unique
  case leased => exact h.leased
  case settled =>
    intro other settledToken' hget
    dsimp only at hget ⊢
    rw [OrderedMap.get?_set] at hget
    split at hget
    · rename_i hsame
      exact hsame ▸ hterminal
    · exact h.settled other settledToken' hget
  case leaseToken => exact h.leaseToken
  case settledToken =>
    intro other settledToken' hget
    dsimp only at hget ⊢
    rw [OrderedMap.get?_set] at hget
    split at hget
    · rw [Option.some.injEq] at hget
      exact hget ▸ htoken
    · exact h.settledToken other settledToken' hget

theorem Sound.write (h : store.Sound token) (hwrite : DelegationWrite store next) :
    next.Sound token ∧ store.Continues next := by
  cases hwrite
  case unleased delegationKey =>
    exact ⟨h.dropLease delegationKey, continues_dropLease store delegationKey⟩
  case updated record changed hstored hlive hkey hnumber hfree =>
    exact ⟨h.put hstored hlive hkey hnumber hfree, continues_put hstored hlive hkey⟩
  case renewed delegationKey lease renewed hleased htoken =>
    refine ⟨h.setLease (h.leased _ _ hleased) (htoken ▸ h.leaseToken _ _ hleased), ?_⟩
    constructor
    case terminal => exact fun _ _ hget _ => hget
    case leased =>
      intro other lease' hget
      dsimp only at hget
      rw [OrderedMap.get?_set] at hget
      split at hget
      · rename_i hsame
        rw [Option.some.injEq] at hget
        subst hget
        exact ⟨lease, hsame ▸ hleased, htoken.symm⟩
      · exact ⟨lease', hget, rfl⟩
    case settled => exact fun _ _ hget => Or.inl hget
    case issued => exact le_refl _
  case settled record changed lease hstored hlive hkey hnumber hterminal hleased =>
    have hdropped := h.dropLease record.delegationKey
    have hnone : (store.dropLease record.delegationKey).leases.get? record.delegationKey =
        none := by
      unfold InMemoryDelegationStore.dropLease
      rw [OrderedMap.get?_delete, if_pos rfl]
    have hput := hdropped.put hstored hlive hkey hnumber (Or.inr hnone)
    have hsettles : ∃ key other,
        ((store.dropLease record.delegationKey).put changed).records.get? key = some other ∧
        other.delegationKey = record.delegationKey ∧ other.status.terminal = true :=
      ⟨changed.key, changed, by rw [get?_put, if_pos rfl], hnumber, hterminal⟩
    refine ⟨hput.setSettledToken hsettles (h.leaseToken _ _ hleased), ?_⟩
    have hcontinues := (continues_dropLease store record.delegationKey).trans
      (continues_put hstored hlive hkey)
    constructor
    case terminal => exact hcontinues.terminal
    case leased => exact hcontinues.leased
    case settled =>
      intro other settledToken hget
      dsimp only at hget
      rw [OrderedMap.get?_set] at hget
      split at hget
      · rename_i hsame
        rw [Option.some.injEq] at hget
        exact Or.inr ⟨lease, hsame ▸ hleased, hget⟩
      · exact Or.inl hget
    case issued => exact hcontinues.issued

/-- Any number of writes. -/
theorem Sound.writes (h : store.Sound token) (hwrites : Writes store next) :
    next.Sound token ∧ store.Continues next := by
  induction hwrites with
  | refl => exact ⟨h, .refl store⟩
  | tail _ hwrite ih =>
    obtain ⟨hnext, hcontinues⟩ := ih.1.write hwrite
    exact ⟨hnext, ih.2.trans hcontinues⟩

/-! ## What the methods write -/

section Methods

variable {limits : DelegationLimits} {key : DelegationSequenceKey} {leaseToken now : String}
  {record changed : DelegationRecord}

/-- A method that ends in any number of writes. -/
abbrev OnlyWrites {α : Type} (m : DelegationProgram α) (store : InMemoryDelegationStore) : Prop :=
  Ends m store (fun _ => Writes store) fun _ => Writes store

/-- A method that leaves the store alone. -/
abbrev LeavesAlone {α : Type} (m : DelegationProgram α) (store : InMemoryDelegationStore)
    (Q : α → Prop) : Prop :=
  Ends m store (fun a next => next = store ∧ Q a) fun _ next => next = store

theorem required_spec {key : DelegationKey} : LeavesAlone (required limits key) store
    fun record => store.records.get? key = some record := by
  unfold required
  simp only [ends_bind, ends_get, ends_attempt]
  refine ⟨fun _ _ => ⟨fun _ _ => ?_, fun _ _ => trivial⟩, fun _ _ => trivial⟩
  cases hget : store.records.get? key with
  | none => exact rfl
  | some record => exact ⟨rfl, rfl⟩

theorem requiredSequence_spec : LeavesAlone (requiredSequence limits key) store
    fun record => store.records.get? record.key = some record ∧
      record.delegationKey = key.delegationKey := by
  unfold requiredSequence
  simp only [ends_bind, ends_get, ends_attempt]
  refine ⟨fun _ _ => ?_, fun _ _ => trivial⟩
  cases hfind : (store.partitionRecords key.toDelegationPartition).find? fun record =>
      record.delegationKey = key.delegationKey with
  | none => exact rfl
  | some record =>
    have hnumber := List.find?_some hfind
    have hmem := List.mem_of_find?_eq_some hfind
    unfold partitionRecords at hmem
    rw [List.mem_insertionSort, List.mem_filter] at hmem
    obtain ⟨key', hget⟩ := OrderedMap.mem_values.1 hmem.1
    obtain rfl := store.keyed key' record hget
    exact ⟨rfl, hget, by simpa using hnumber⟩

theorem activeLease_spec : LeavesAlone (activeLease record leaseToken now) store
    fun lease => store.leases.get? record.delegationKey = some lease ∧
      lease.token = leaseToken ∧ record.status = .running := by
  unfold activeLease
  simp only [ends_bind, ends_get]
  cases hlease : store.leases.get? record.delegationKey with
  | none => exact rfl
  | some lease =>
    dsimp only
    split
    · exact rfl
    · rename_i hactive
      obtain ⟨hstatus, hactive⟩ := not_or.1 hactive
      obtain ⟨htoken, -⟩ := not_or.1 hactive
      exact ⟨rfl, rfl, not_not.1 htoken, not_not.1 hstatus⟩

theorem update_writes (hstored : store.records.get? record.key = some record)
    (hlive : record.status.terminal = false) (hkey : changed.key = record.key)
    (hnumber : changed.delegationKey = record.delegationKey)
    (hfree : changed.status = .running ∨ store.leases.get? record.delegationKey = none) :
    OnlyWrites (update limits record changed) store := by
  unfold update
  simp only [ends_bind, ends_modify, ends_pure, ends_attempt]
  exact ⟨fun revision _ => .single (.updated record _ hstored hlive hkey hnumber hfree),
    fun _ _ => .refl⟩

/-- A method that reads first. -/
theorem LeavesAlone.onlyWrites_bind {α β : Type} {m : DelegationProgram α} {Q : α → Prop}
    (h : LeavesAlone m store Q) {f : α → DelegationProgram β}
    (hrest : ∀ a, Q a → OnlyWrites (f a) store) : OnlyWrites (m >>= f) store := by
  refine ends_bind.2 (h.mono ?_ ?_)
  · rintro a next ⟨rfl, ha⟩
    exact hrest a ha
  · rintro _ next rfl
    exact .refl

/-- A method behind some writes. -/
theorem OnlyWrites.after {α : Type} {m : DelegationProgram α} (hwrites : Writes store next)
    (h : OnlyWrites m next) : Ends m next (fun _ => Writes store) fun _ => Writes store :=
  h.mono (fun _ _ hrest => hwrites.trans hrest) fun _ _ hrest => hwrites.trans hrest

theorem onlyWrites_attempt {α : Type} {x : Except DelegationError α} {β : Type}
    {f : α → DelegationProgram β} (h : ∀ a, x = .ok a → OnlyWrites (f a) store) :
    OnlyWrites (attempt x >>= f) store :=
  ends_bind.2 (ends_attempt.2 ⟨h, fun _ _ => .refl⟩)

/-- The live record of a lease. -/
theorem DelegationStatus.live_of_running {status : DelegationStatus} (h : status = .running) :
    status.terminal = false := by
  rw [h]
  rfl

theorem settle_writes (hstored : store.records.get? record.key = some record)
    (hlive : record.status.terminal = false) (hkey : changed.key = record.key)
    (hnumber : changed.delegationKey = record.delegationKey) {status : DelegationStatus}
    (hterminal : status.terminal = true) {settledToken : Option String}
    (hsettled : ∀ leaseToken, settledToken = some leaseToken →
      ∃ lease, store.leases.get? record.delegationKey = some lease ∧ lease.token = leaseToken) :
    OnlyWrites (settle limits record changed status now settledToken) store := by
  have hdrop : Writes store (store.dropLease record.delegationKey) :=
    .single (.unleased record.delegationKey)
  have hnone : (store.dropLease record.delegationKey).leases.get? record.delegationKey = none := by
    unfold InMemoryDelegationStore.dropLease
    rw [OrderedMap.get?_delete, if_pos rfl]
  unfold settle update
  refine onlyWrites_attempt fun _ _ => ?_
  simp only [ends_bind, ends_modify, ends_pure, ends_attempt]
  refine ⟨fun revision _ => ?_, fun _ _ => hdrop⟩
  cases settledToken with
  | none => exact hdrop.tail (.updated record _ hstored hlive hkey hnumber (Or.inr hnone))
  | some leaseToken =>
    obtain ⟨lease, hlease, rfl⟩ := hsettled leaseToken rfl
    exact .single (.settled record _ lease hstored hlive hkey hnumber hterminal hlease)

theorem renew_writes {expiresAt : String} :
    OnlyWrites (renew limits key leaseToken now expiresAt) store := by
  unfold renew
  refine requiredSequence_spec.onlyWrites_bind fun record hrecord => ?_
  refine onlyWrites_attempt fun _ _ => ?_
  refine activeLease_spec.onlyWrites_bind fun lease hlease => ?_
  refine onlyWrites_attempt fun _ _ => ?_
  obtain ⟨hlease, htoken, hrunning⟩ := hlease
  split
  · exact .refl
  · split
    · unfold update
      simp only [ends_bind, ends_modify, ends_pure, ends_attempt]
      refine ⟨fun revision _ => ?_, fun _ _ => .refl⟩
      have hupdated : DelegationWrite store
          (store.put { record with updatedAt := now, revision := revision }) :=
        .updated record _ hrecord.1 (DelegationStatus.live_of_running hrunning) rfl rfl
          (Or.inl hrunning)
      exact .tail (.single hupdated) (.renewed record.delegationKey lease _ hlease rfl)
    · exact .refl

theorem bindRun_writes {runId : String} :
    OnlyWrites (bindRun limits key leaseToken runId now) store := by
  unfold bindRun
  refine requiredSequence_spec.onlyWrites_bind fun record hrecord => ?_
  refine onlyWrites_attempt fun _ _ => ?_
  refine activeLease_spec.onlyWrites_bind fun lease hlease => ?_
  refine onlyWrites_attempt fun _ _ => ?_
  obtain ⟨-, -, hrunning⟩ := hlease
  split
  · split
    · exact .refl
    · exact .refl
  · exact update_writes hrecord.1 (DelegationStatus.live_of_running hrunning) rfl rfl
      (Or.inl hrunning)

theorem complete_writes {result : JsonValue} :
    OnlyWrites (complete limits key leaseToken result now) store := by
  unfold complete
  refine requiredSequence_spec.onlyWrites_bind fun record hrecord => ?_
  refine onlyWrites_attempt fun _ _ => onlyWrites_attempt fun _ _ => ?_
  refine ends_bind.2 (ends_get.2 ?_)
  split
  · split
    · exact .refl
    · exact .refl
  · refine activeLease_spec.onlyWrites_bind fun lease hlease => ?_
    obtain ⟨hlease, htoken, hrunning⟩ := hlease
    refine settle_writes hrecord.1 (DelegationStatus.live_of_running hrunning) ?_ ?_ rfl ?_
    · rfl
    · rfl
    · intro settledToken hsettled
      exact ⟨lease, hlease, htoken.trans (Option.some.inj hsettled)⟩

theorem fail_writes {code : String} : OnlyWrites (fail limits key leaseToken code now) store := by
  unfold fail
  refine requiredSequence_spec.onlyWrites_bind fun record hrecord => ?_
  refine onlyWrites_attempt fun _ _ => onlyWrites_attempt fun _ _ => ?_
  refine ends_bind.2 (ends_get.2 ?_)
  split
  · split
    · exact .refl
    · exact .refl
  · refine activeLease_spec.onlyWrites_bind fun lease hlease => ?_
    obtain ⟨hlease, htoken, hrunning⟩ := hlease
    refine settle_writes hrecord.1 (DelegationStatus.live_of_running hrunning) ?_ ?_ rfl ?_
    · rfl
    · rfl
    · intro settledToken hsettled
      exact ⟨lease, hlease, htoken.trans (Option.some.inj hsettled)⟩

theorem abandon_writes : OnlyWrites (abandon limits key leaseToken now) store := by
  unfold abandon
  refine requiredSequence_spec.onlyWrites_bind fun record hrecord => ?_
  refine onlyWrites_attempt fun _ _ => ?_
  refine activeLease_spec.onlyWrites_bind fun lease hlease => ?_
  obtain ⟨-, -, hrunning⟩ := hlease
  have hnone : (store.dropLease record.delegationKey).leases.get? record.delegationKey = none := by
    unfold InMemoryDelegationStore.dropLease
    rw [OrderedMap.get?_delete, if_pos rfl]
  refine ends_bind.2 (ends_modify.2 ?_)
  have hdrop : Writes store (store.dropLease record.delegationKey) :=
    .single (.unleased record.delegationKey)
  refine OnlyWrites.after hdrop (update_writes hrecord.1
    (DelegationStatus.live_of_running hrunning) ?_ ?_ (Or.inr hnone))
  · rfl
  · rfl

theorem cancel_writes {key : DelegationKey} {expectedRevision : String} :
    OnlyWrites (cancel limits key expectedRevision now) store := by
  unfold cancel
  refine required_spec.onlyWrites_bind fun record hrecord => ?_
  refine onlyWrites_attempt fun _ _ => ?_
  obtain rfl := store.keyed key record hrecord
  split
  · exact .refl
  · split
    · exact .refl
    · rename_i hlive
      rw [Bool.not_eq_true] at hlive
      split
      · exact .refl
      · refine ends_bind.2 (ends_modify.2 ?_)
        have hdrop : Writes store (store.dropLease record.delegationKey) :=
          .single (.unleased record.delegationKey)
        have hstored : (store.dropLease record.delegationKey).records.get? record.key =
            some record := hrecord
        refine OnlyWrites.after hdrop (settle_writes hstored hlive ?_ ?_ rfl ?_)
        · rfl
        · rfl
        · intro settledToken hsettled
          cases hsettled

/-- What a claim makes of a store. -/
structure Claimed (token : Nat → String) (store : InMemoryDelegationStore)
    (delivery : DelegationDelivery) (next : InMemoryDelegationStore) : Prop where
  sound : next.Sound token
  terminal : ∀ key record, store.records.get? key = some record → record.status.terminal = true →
    next.records.get? key = some record
  leased : ∀ delegationKey lease, next.leases.get? delegationKey = some lease →
    store.leases.get? delegationKey = some lease ∨ lease.token = delivery.leaseToken
  own : ∀ lease, next.leases.get? delivery.record.delegationKey = some lease →
    lease.token = delivery.leaseToken
  unsettled : next.settledTokens.get? delivery.record.delegationKey = none
  settledTokens : next.settledTokens = store.settledTokens
  leaseToken : delivery.leaseToken = token store.issued
  issued : next.issued = store.issued + 1

/-- A token is given out. -/
theorem Sound.issue (h : store.Sound token) :
    Sound token { store with issued := store.issued + 1 } where
  unique := h.unique
  leased := h.leased
  settled := h.settled
  leaseToken delegationKey lease hget := by
    obtain ⟨n, hn, htoken⟩ := h.leaseToken delegationKey lease hget
    exact ⟨n, Nat.lt_succ_of_lt hn, htoken⟩
  settledToken delegationKey settledToken hget := by
    obtain ⟨n, hn, htoken⟩ := h.settledToken delegationKey settledToken hget
    exact ⟨n, Nat.lt_succ_of_lt hn, htoken⟩

theorem grantLease_spec (h : store.Sound token) {request : DelegationClaimRequest}
    (hstored : store.records.get? record.key = some record)
    (hlive : record.status.terminal = false) :
    Ends (grantLease limits token request record) store (Claimed token store) fun _ next =>
      next = { store with issued := store.issued + 1 } := by
  unfold grantLease
  simp only [ends_bind, ends_get, ends_modify, ends_pure, ends_attempt]
  refine ⟨fun _ _ => ⟨fun _ _ => ⟨fun revision _ => ⟨fun attempts _ => ?_, fun _ _ => trivial⟩,
    fun _ _ => trivial⟩, fun _ _ => trivial⟩, fun _ _ => trivial⟩
  let granted : DelegationRecord :=
    { record with
      status := .running
      revision := revision
      attempt := attempts
      startedAt := some (record.startedAt.getD request.operationalNow)
      updatedAt := request.operationalNow }
  let issuing : InMemoryDelegationStore := { store with issued := store.issued + 1 }
  have hput : (issuing.put granted).Sound token :=
    h.issue.put hstored hlive rfl rfl (Or.inl rfl)
  have hkept : issuing.Continues (issuing.put granted) := continues_put hstored hlive rfl
  have hunsettled := h.unsettled hstored hlive
  constructor
  case sound =>
    refine hput.setLease ⟨record.key, granted, ?_, rfl, rfl⟩ ⟨store.issued, Nat.lt_succ_self _, rfl⟩
    exact OrderedMap.get?_set_self _ _ _
  case terminal => exact hkept.terminal
  case leased =>
    intro delegationKey lease hget
    dsimp only at hget ⊢
    rw [OrderedMap.get?_set] at hget
    split at hget
    · rw [Option.some.injEq] at hget
      exact Or.inr (hget ▸ rfl)
    · exact Or.inl hget
  case own =>
    intro lease hget
    dsimp only at hget ⊢
    rw [OrderedMap.get?_set_self, Option.some.injEq] at hget
    exact hget ▸ rfl
  case unsettled => exact hunsettled
  case settledTokens => rfl
  case leaseToken => rfl
  case issued => rfl

theorem claim_spec (h : store.Sound token) {request : DelegationClaimRequest} :
    Ends (claim limits token request) store (Claimed token store) fun _ next =>
      next = store ∨ next = { store with issued := store.issued + 1 } := by
  unfold claim
  refine ends_bind.2 (required_spec.mono ?_ fun _ _ hnext => Or.inl hnext)
  rintro record next ⟨rfl, hrecord⟩
  obtain hkey := next.keyed _ record hrecord
  rw [← hkey] at hrecord
  simp only [ends_bind, ends_get, ends_attempt]
  refine ⟨fun _ _ => ⟨fun _ _ => ?_, fun _ _ => Or.inl trivial⟩, fun _ _ => Or.inl trivial⟩
  split
  · exact Or.inl rfl
  · rename_i hfree
    obtain ⟨-, hfree⟩ := not_or.1 hfree
    obtain ⟨hlive, -⟩ := not_or.1 hfree
    rw [Bool.not_eq_true] at hlive
    split
    · exact Or.inl rfl
    · exact (grantLease_spec h hrecord hlive).mono (fun _ _ hclaimed => hclaimed) fun _ _ hnext =>
        Or.inr hnext

/-- The state an `OnlyWrites` program leaves. -/
theorem OnlyWrites.respond {α : Type} {m : DelegationProgram α} (h : OnlyWrites m store) :
    Writes store (respond m store).2 := by
  obtain ⟨hok, herror⟩ := Ends.respond h
  cases hanswer : (OpenGameAgent.respond m store).1 with
  | ok a => exact hok a hanswer
  | error e => exact herror e hanswer

theorem LeavesAlone.respond {α : Type} {m : DelegationProgram α} {Q : α → Prop}
    (h : LeavesAlone m store Q) : (respond m store).2 = store := by
  obtain ⟨hok, herror⟩ := Ends.respond h
  cases hanswer : (OpenGameAgent.respond m store).1 with
  | ok a => exact (hok a hanswer).1
  | error e => exact herror e hanswer

/-! ## Requests with a dead token -/

/-- A request that fails without a trace. -/
abbrev Refused {α : Type} (m : DelegationProgram α) (store : InMemoryDelegationStore) : Prop :=
  Ends m store (fun _ _ => False) fun _ next => next = store

theorem Refused.respond {α : Type} {m : DelegationProgram α} (h : Refused m store) :
    (respond m store).2 = store := by
  obtain ⟨hok, herror⟩ := Ends.respond h
  cases hanswer : (OpenGameAgent.respond m store).1 with
  | ok a => exact (hok a hanswer).elim
  | error e => exact herror e hanswer

theorem LeavesAlone.refused_bind {α β : Type} {m : DelegationProgram α} {Q : α → Prop}
    (h : LeavesAlone m store Q) {f : α → DelegationProgram β}
    (hrest : ∀ a, Q a → Refused (f a) store) : Refused (m >>= f) store := by
  refine ends_bind.2 (h.mono ?_ fun _ _ hnext => hnext)
  rintro a next ⟨rfl, ha⟩
  exact hrest a ha

theorem refused_attempt {α β : Type} {x : Except DelegationError α}
    {f : α → DelegationProgram β} (h : ∀ a, x = .ok a → Refused (f a) store) :
    Refused (attempt x >>= f) store :=
  ends_bind.2 (ends_attempt.2 ⟨h, fun _ _ => rfl⟩)

theorem activeLease_dead {β : Type} {f : DelegationLease → DelegationProgram β}
    (hdead : store.Dead record.delegationKey leaseToken) :
    Refused (activeLease record leaseToken now >>= f) store := by
  refine activeLease_spec.refused_bind ?_
  rintro lease ⟨hlease, htoken, -⟩
  exact absurd htoken (hdead.leased lease hlease)

theorem bindRun_dead {runId : String} (hdead : store.Dead key.delegationKey leaseToken) :
    Refused (bindRun limits key leaseToken runId now) store := by
  unfold bindRun
  refine requiredSequence_spec.refused_bind fun record hrecord => ?_
  rw [← hrecord.2] at hdead
  exact refused_attempt fun _ _ => activeLease_dead hdead

theorem abandon_dead (hdead : store.Dead key.delegationKey leaseToken) :
    Refused (abandon limits key leaseToken now) store := by
  unfold abandon
  refine requiredSequence_spec.refused_bind fun record hrecord => ?_
  rw [← hrecord.2] at hdead
  exact refused_attempt fun _ _ => activeLease_dead hdead

theorem complete_dead {result : JsonValue} (hdead : store.Dead key.delegationKey leaseToken) :
    Refused (complete limits key leaseToken result now) store := by
  unfold complete
  refine requiredSequence_spec.refused_bind fun record hrecord => ?_
  rw [← hrecord.2] at hdead
  refine refused_attempt fun _ _ => refused_attempt fun _ _ => ?_
  refine ends_bind.2 (ends_get.2 ?_)
  split
  · rw [if_pos (Or.inl hdead.settled)]
    exact rfl
  · exact activeLease_dead hdead

theorem fail_dead {code : String} (hdead : store.Dead key.delegationKey leaseToken) :
    Refused (fail limits key leaseToken code now) store := by
  unfold fail
  refine requiredSequence_spec.refused_bind fun record hrecord => ?_
  rw [← hrecord.2] at hdead
  refine refused_attempt fun _ _ => refused_attempt fun _ _ => ?_
  refine ends_bind.2 (ends_get.2 ?_)
  split
  · rw [if_pos (Or.inl hdead.settled)]
    exact rfl
  · exact activeLease_dead hdead

theorem list_leaves {request : DelegationListRequest} :
    LeavesAlone (list limits request) store fun _ => True := by
  unfold list
  refine ends_bind.2 (ends_attempt.2 ⟨fun _ _ => ?_, fun _ _ => rfl⟩)
  refine ends_bind.2 (ends_attempt.2 ⟨fun _ _ => ?_, fun _ _ => rfl⟩)
  split
  · exact rfl
  · exact ⟨rfl, trivial⟩

theorem assertLease_leaves :
    LeavesAlone (assertLease limits key leaseToken now) store fun _ => True := by
  unfold assertLease
  refine ends_bind.2 (requiredSequence_spec.mono ?_ fun _ _ hnext => hnext)
  rintro record next ⟨rfl, -⟩
  refine ends_bind.2 (ends_attempt.2 ⟨fun _ _ => ?_, fun _ _ => rfl⟩)
  refine ends_bind.2 (activeLease_spec.mono ?_ fun _ _ hnext => hnext)
  rintro lease next ⟨rfl, -⟩
  exact ⟨rfl, trivial⟩

/-! ## Cancelling -/

/-- A cancel request that the store carries out: the revision is the current one of a record
that is not settled, and every check passes. -/
structure Cancels (limits : DelegationLimits) (store : InMemoryDelegationStore)
    (key : DelegationKey) (expectedRevision now : String) : Prop where
  partition : delegationPartition limits key.toDelegationPartition = .ok ()
  delegationId : delegationIdentifier limits key.delegationId "delegation_id" = .ok ()
  revision : delegationDecimal limits expectedRevision "revision" = .ok ()
  timestamp : delegationTimestamp now = .ok ()
  record : ∃ record, store.records.get? key = some record ∧
    record.revision.text = expectedRevision ∧ record.status.terminal = false ∧
    ¬ now < record.updatedAt ∧ ∃ next, delegationIncrement limits record.revision = .ok next

/-- A request that is not carried out leaves the records alone. -/
theorem cancel_spec {key : DelegationKey} {expectedRevision : String} :
    Ends (cancel limits key expectedRevision now) store
      (fun _ next => Cancels limits store key expectedRevision now ∧
        next.records ≠ store.records)
      fun _ next => ¬ Cancels limits store key expectedRevision now ∧
        next.records = store.records := by
  unfold cancel required settle update
  simp only [ends_bind, ends_get, ends_attempt]
  refine ⟨fun _ hpartition => ⟨fun _ hid => ?_, fun e he => ?_⟩, fun e he => ?_⟩
  case refine_2 => exact ⟨fun h => (by cases h.delegationId.symm.trans he), trivial⟩
  case refine_3 => exact ⟨fun h => (by cases h.partition.symm.trans he), trivial⟩
  cases hget : store.records.get? key with
  | none =>
    refine ⟨fun h => ?_, rfl⟩
    obtain ⟨record, hrecord, -⟩ := h.record
    rw [hget] at hrecord
    cases hrecord
  | some record =>
    have hrecord : ∀ h : Cancels limits store key expectedRevision now,
        record.revision.text = expectedRevision ∧ record.status.terminal = false ∧
        ¬ now < record.updatedAt ∧
        ∃ next, delegationIncrement limits record.revision = .ok next := by
      intro h
      obtain ⟨other, hother, hrest⟩ := h.record
      obtain rfl := Option.some.inj (hget.symm.trans hother)
      exact hrest
    refine ⟨fun _ hdecimal => ?_, fun e he => ?_⟩
    case refine_2 => exact ⟨fun h => (by cases h.revision.symm.trans he), rfl⟩
    split
    · rename_i hrevision
      exact ⟨fun h => hrevision (hrecord h).1, rfl⟩
    · rename_i hrevision
      split
      · rename_i hterminal
        exact ⟨fun h => (by cases (hrecord h).2.1.symm.trans hterminal), rfl⟩
      · rename_i hlive
        rw [Bool.not_eq_true] at hlive
        split
        · rename_i hearly
          exact ⟨fun h => (hrecord h).2.2.1 hearly, rfl⟩
        · rename_i hnow
          simp only [ends_bind, ends_modify, ends_attempt, ends_pure]
          refine ⟨fun _ htimestamp => ⟨fun next hnext => ⟨?_, ?_⟩, fun e he => ?_⟩,
            fun e he => ?_⟩
          case refine_1 => exact ⟨hpartition, hid, hdecimal, htimestamp, record, hget,
            not_not.1 hrevision, hlive, hnow, next, hnext⟩
          case refine_2 =>
            intro hsame
            -- The record read back is cancelled, the one that was there is not settled.
            have hchanged := (congrArg (fun records => records.get? record.key) hsame).symm.trans
              (OrderedMap.get?_set_self _ _ _)
            rw [store.keyed key record hget, hget, Option.some.injEq] at hchanged
            rw [hchanged] at hlive
            cases hlive
          case refine_3 =>
            refine ⟨fun h => ?_, rfl⟩
            obtain ⟨-, -, -, next, hnext⟩ := hrecord h
            rw [he] at hnext
            cases hnext
          case refine_4 => exact ⟨fun h => (by cases h.timestamp.symm.trans he), rfl⟩

end Methods

end InMemoryDelegationStore

end OpenGameAgent
