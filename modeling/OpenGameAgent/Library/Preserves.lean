import OpenGameAgent.Library.Program

/-!
# Programs that only move a state along a preorder

`Moves R m` says that a program, whether it succeeds or throws, leaves a state that `R`
relates to the one it began in.  For a reflexive and transitive `R` the rules follow the
shape of the program.
-/

namespace OpenGameAgent

variable {ε σ α β : Type}

/-- Whatever a program ends in, `R` relates the state it began in to the state it leaves. -/
def MovesAlong (R : σ → σ → Prop) (m : EStateM ε σ α) : Prop :=
  ∀ s, Ends m s (fun _ => R s) fun _ => R s

namespace MovesAlong

variable {R : σ → σ → Prop} {s : σ}

theorem pure (hrefl : ∀ s, R s s) (a : α) : MovesAlong R (pure a : EStateM ε σ α) :=
  fun s => hrefl s

theorem throw (hrefl : ∀ s, R s s) (e : ε) : MovesAlong R (throw e : EStateM ε σ α) :=
  fun s => hrefl s

theorem get (hrefl : ∀ s, R s s) : MovesAlong R (get : EStateM ε σ σ) := fun s => hrefl s

theorem attempt (hrefl : ∀ s, R s s) (x : Except ε α) :
    MovesAlong R (attempt x : EStateM ε σ α) :=
  fun s => ends_attempt.2 ⟨fun _ _ => hrefl s, fun _ _ => hrefl s⟩

theorem modify {f : σ → σ} (h : ∀ s, R s (f s)) :
    MovesAlong R (modify f : EStateM ε σ PUnit) := h

theorem bind (htrans : ∀ a b c, R a b → R b c → R a c) {m : EStateM ε σ α}
    {f : α → EStateM ε σ β} (hm : MovesAlong R m) (hf : ∀ a, MovesAlong R (f a)) :
    MovesAlong R (m >>= f) := by
  intro s
  refine ends_bind.2 ((hm s).mono ?_ fun _ _ h => h)
  intro a s' hmoved
  exact (hf a s').mono (fun _ _ h => htrans s s' _ hmoved h) fun _ _ h => htrans s s' _ hmoved h

theorem map {m : EStateM ε σ α} (f : α → β) (hm : MovesAlong R m) : MovesAlong R (f <$> m) :=
  fun s => ends_map.2 (hm s)

/-- A transaction that fails takes its writes back. -/
theorem transaction (hrefl : ∀ s, R s s) {m : EStateM ε σ α} (hm : MovesAlong R m) :
    MovesAlong R (transaction m) :=
  fun s => ends_transaction.2 ((hm s).mono (fun _ _ h => h) fun _ _ _ => hrefl s)

/-- Where a program ends, succeeding or not. -/
theorem respond {m : EStateM ε σ α} (hm : MovesAlong R m) (s : σ) : R s (respond m s).2 := by
  obtain ⟨hok, herror⟩ := (hm s).respond
  cases h : (OpenGameAgent.respond m s).1 with
  | ok a => exact hok a h
  | error e => exact herror e h

end MovesAlong

end OpenGameAgent
