import Mathlib.Logic.Basic

/-!
# Programs that fail and keep what they wrote

An object's method writes to the object and may throw: what it wrote before it threw
stays.  Such a program is an `EStateM`.  A database transaction is the same program
run by `transaction`, which takes the writes back when it throws.

* `Ends m s Q E` — from `s`, the program succeeds with `Q` or throws with `E`.
* `ends_bind` and the other `ends_` rules run a program symbolically.
* `Ends.mono` weakens what it ends in, `Ends.and` joins two such facts.
* `outcome` — the state it leaves when it succeeds.
* `respond` — the answer of a program and the state it leaves, whether it throws or not.
-/

namespace OpenGameAgent

variable {ε σ α β : Type}

/-- Run a pure computation that may throw. -/
def attempt (x : Except ε α) : EStateM ε σ α :=
  fun s => match x with
    | .ok a => .ok a s
    | .error e => .error e s

/-- A transaction: either all of its writes or none. -/
def transaction (m : EStateM ε σ α) : EStateM ε σ α :=
  fun s => match m s with
    | .ok a s' => .ok a s'
    | .error e _ => .error e s

/-- What a program answers, and the state it leaves. -/
def respond (m : EStateM ε σ α) (s : σ) : Except ε α × σ :=
  match m s with
  | .ok a s' => (.ok a, s')
  | .error e s' => (.error e, s')

/-- From `s`, the program succeeds with `Q` or throws with `E`. -/
def Ends (m : EStateM ε σ α) (s : σ) (Q : α → σ → Prop) (E : ε → σ → Prop) : Prop :=
  match m s with
  | .ok a s' => Q a s'
  | .error e s' => E e s'

/-- The state a program leaves, if it succeeds. -/
def outcome (m : EStateM ε σ α) (s : σ) : Option σ :=
  match m s with
  | .ok _ s' => some s'
  | .error _ _ => none

variable {s : σ} {Q : α → σ → Prop} {E : ε → σ → Prop}

@[simp] theorem ends_pure {a : α} : Ends (pure a : EStateM ε σ α) s Q E ↔ Q a s := Iff.rfl

@[simp] theorem ends_throw {e : ε} : Ends (throw e : EStateM ε σ α) s Q E ↔ E e s := Iff.rfl

@[simp] theorem ends_get {Q : σ → σ → Prop} : Ends (get : EStateM ε σ σ) s Q E ↔ Q s s := Iff.rfl

@[simp] theorem ends_set {s' : σ} {Q : PUnit → σ → Prop} :
    Ends (set s' : EStateM ε σ PUnit) s Q E ↔ Q ⟨⟩ s' := Iff.rfl

@[simp] theorem ends_modify {f : σ → σ} {Q : PUnit → σ → Prop} :
    Ends (modify f : EStateM ε σ PUnit) s Q E ↔ Q ⟨⟩ (f s) := Iff.rfl

@[simp] theorem ends_attempt_ok {a : α} : Ends (attempt (.ok a) : EStateM ε σ α) s Q E ↔ Q a s :=
  Iff.rfl

@[simp] theorem ends_attempt_error {e : ε} :
    Ends (attempt (.error e) : EStateM ε σ α) s Q E ↔ E e s := Iff.rfl

theorem ends_attempt {x : Except ε α} :
    Ends (attempt x) s Q E ↔ (∀ a, x = .ok a → Q a s) ∧ ∀ e, x = .error e → E e s := by
  cases x <;> simp

@[simp] theorem ends_bind {m : EStateM ε σ α} {f : α → EStateM ε σ β} {Q : β → σ → Prop} :
    Ends (m >>= f) s Q E ↔ Ends m s (fun a s' => Ends (f a) s' Q E) E := by
  unfold Ends
  show (match EStateM.bind m f s with | .ok a s' => Q a s' | .error e s' => E e s') ↔ _
  unfold EStateM.bind
  cases m s <;> rfl

theorem get_bind {f : σ → EStateM ε σ α} : (get >>= f) s = f s s := rfl

@[simp] theorem ends_map {m : EStateM ε σ α} {f : α → β} {Q : β → σ → Prop} :
    Ends (f <$> m) s Q E ↔ Ends m s (fun a s' => Q (f a) s') E := by
  unfold Ends
  show (match EStateM.map f m s with | .ok a s' => Q a s' | .error e s' => E e s') ↔ _
  unfold EStateM.map
  cases m s <;> rfl

theorem ends_transaction {m : EStateM ε σ α} :
    Ends (transaction m) s Q E ↔ Ends m s Q (fun e _ => E e s) := by
  unfold Ends transaction
  cases m s <;> rfl

theorem Ends.mono {m : EStateM ε σ α} {Q' : α → σ → Prop} {E' : ε → σ → Prop}
    (h : Ends m s Q E) (hQ : ∀ a s', Q a s' → Q' a s') (hE : ∀ e s', E e s' → E' e s') :
    Ends m s Q' E' := by
  unfold Ends at h ⊢
  cases hm : m s with
  | ok a s' => rw [hm] at h; exact hQ a s' h
  | error e s' => rw [hm] at h; exact hE e s' h

theorem Ends.and {m : EStateM ε σ α} {Q' : α → σ → Prop} {E' : ε → σ → Prop}
    (h : Ends m s Q E) (h' : Ends m s Q' E') :
    Ends m s (fun a s' => Q a s' ∧ Q' a s') (fun e s' => E e s' ∧ E' e s') := by
  unfold Ends at h h' ⊢
  cases hm : m s with
  | ok a s' => rw [hm] at h h'; exact ⟨h, h'⟩
  | error e s' => rw [hm] at h h'; exact ⟨h, h'⟩

/-- A program ends in what it computes. -/
theorem ends_self {m : EStateM ε σ α} :
    Ends m s (fun a s' => m s = .ok a s') fun e s' => m s = .error e s' := by
  unfold Ends
  cases m s <;> rfl

/-- What a program ends in holds of its answer. -/
theorem Ends.respond {m : EStateM ε σ α} (h : Ends m s Q E) :
    (∀ a, (respond m s).1 = .ok a → Q a (respond m s).2) ∧
      ∀ e, (respond m s).1 = .error e → E e (respond m s).2 := by
  unfold Ends at h
  unfold OpenGameAgent.respond
  cases hm : m s with
  | ok a s' =>
    rw [hm] at h
    refine ⟨?_, by rintro e ⟨⟩⟩
    rintro b ⟨⟩
    exact h
  | error e s' =>
    rw [hm] at h
    refine ⟨by rintro a ⟨⟩, ?_⟩
    rintro e' ⟨⟩
    exact h

/-- What a program ends in holds of the state it leaves. -/
theorem Ends.outcome {m : EStateM ε σ α} (h : Ends m s Q E) {s' : σ}
    (hs : outcome m s = some s') : ∃ a, Q a s' := by
  unfold Ends at h
  unfold OpenGameAgent.outcome at hs
  cases hm : m s with
  | ok a s'' =>
    rw [hm] at h hs
    obtain rfl := Option.some.inj hs
    exact ⟨a, h⟩
  | error e s'' =>
    rw [hm] at hs
    cases hs

/-- A program that only makes something of another one's answer. -/
theorem outcome_map_pure {m : EStateM ε σ α} {f : α → β} :
    outcome (m >>= fun a => pure (f a)) s = outcome m s := by
  unfold OpenGameAgent.outcome
  show (match EStateM.bind m (fun a => pure (f a)) s with
    | .ok _ s' => some s'
    | .error _ _ => none) = _
  unfold EStateM.bind
  cases m s <;> rfl

end OpenGameAgent
