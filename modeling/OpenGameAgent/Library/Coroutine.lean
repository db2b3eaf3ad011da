import Mathlib.Data.List.Basic

/-!
# Programs that wait

An asynchronous method runs in pieces: it asks its surroundings for something, waits, and
goes on with the answer, while the pieces of other calls run in between.  A `Coroutine` is
such a method cut at the points where it waits: it is done, or it performs an effect and
has a rest for every answer.

* `Task` — coroutines that may throw and keep local variables.
* `Coroutine.Follows` — a coroutine keeps to a protocol: an observer in some phase allows
  an effect and moves on with its answer.  `follows_bind`, `Task.follows_bind` and the other
  `follows_` rules check a program piece by piece.
* `Machine` — what performs the effects; `Config.exec` lets one of many threads take its
  next piece.  `Config.Keeps.exec` and `Config.run_keeps` carry an invariant along every
  interleaving of threads that follow a protocol.
-/

namespace OpenGameAgent

/-- A program that performs effects and goes on with their answers. -/
inductive Coroutine (Eff : Type) (Ans : Eff → Type) (α : Type) where
  | done (a : α)
  | await (e : Eff) (k : Ans e → Coroutine Eff Ans α)

variable {Eff : Type} {Ans : Eff → Type} {α β σ ε P : Type}

namespace Coroutine

def bind : Coroutine Eff Ans α → (α → Coroutine Eff Ans β) → Coroutine Eff Ans β
  | done a, f => f a
  | await e k, f => await e fun a => (k a).bind f

instance : Monad (Coroutine Eff Ans) where
  pure := done
  bind := bind

/-- Perform an effect and take its answer. -/
def perform (e : Eff) : Coroutine Eff Ans (Ans e) := await e done

@[simp] theorem await_bind (e : Eff) (k : Ans e → Coroutine Eff Ans α)
    (f : α → Coroutine Eff Ans β) : await e k >>= f = await e fun a => k a >>= f := rfl

end Coroutine

/-- A coroutine that may throw and has local variables; what it wrote to them stays when it
throws. -/
abbrev Task (Eff : Type) (Ans : Eff → Type) (σ ε : Type) :=
  ExceptT ε (StateT σ (Coroutine Eff Ans))

namespace Task

/-- Perform an effect. -/
def perform (e : Eff) : Task Eff Ans σ ε (Ans e) :=
  ExceptT.lift (StateT.lift (Coroutine.perform e))

/-- Go on with a result, or throw it. -/
def ofExcept (x : Except ε α) : Task Eff Ans σ ε α := ExceptT.mk (pure x)

/-- `try { … } finally { … }`, where the last block does not throw. -/
def ensuring (m : Task Eff Ans σ ε α) (cleanup : Task Eff Ans σ ε Unit) : Task Eff Ans σ ε α :=
  ExceptT.mk do
    let result ← m.run
    let _ ← cleanup.run
    return result

end Task

/-! ## Protocols -/

/-- An observer watches the effects of a program: it allows some in each phase, and an effect
with its answer leads to the next. -/
structure Observer (Eff : Type) (Ans : Eff → Type) (P : Type) where
  start : P
  next : P → (e : Eff) → Ans e → P
  allows : P → Eff → Prop

/-- The observer allows the effect and stays in its phase. -/
def Observer.Permits (observer : Observer Eff Ans P) (p : P) (e : Eff) : Prop :=
  observer.allows p e ∧ ∀ a, observer.next p e a = p

/-- Under the observer, the program performs only what is allowed and ends as it should. -/
def Coroutine.Follows (observer : Observer Eff Ans P) (Q : P → α → Prop) :
    P → Coroutine Eff Ans α → Prop
  | p, done a => Q p a
  | p, await e k => observer.allows p e ∧ ∀ a, Follows observer Q (observer.next p e a) (k a)

namespace Coroutine

variable {observer : Observer Eff Ans P} {p : P} {Q : P → α → Prop}

@[simp] theorem follows_done {a : α} :
    Follows observer Q p (done a : Coroutine Eff Ans α) ↔ Q p a := Iff.rfl

@[simp] theorem follows_await {e : Eff} {k : Ans e → Coroutine Eff Ans α} :
    Follows observer Q p (await e k) ↔
      observer.allows p e ∧ ∀ a, Follows observer Q (observer.next p e a) (k a) := Iff.rfl

theorem follows_bind {Q : P → β → Prop} {m : Coroutine Eff Ans α}
    {f : α → Coroutine Eff Ans β} :
    Follows observer Q p (m >>= f) ↔
      Follows observer (fun p a => Follows observer Q p (f a)) p m := by
  induction m generalizing p with
  | done a => exact Iff.rfl
  | await e k ih =>
    rw [await_bind, follows_await, follows_await]
    exact and_congr_right fun _ => forall_congr' fun a => ih a

theorem Follows.mono {Q' : P → α → Prop} {m : Coroutine Eff Ans α}
    (h : Follows observer Q p m) (hQ : ∀ p a, Q p a → Q' p a) : Follows observer Q' p m := by
  induction m generalizing p with
  | done a => exact hQ p a h
  | await e k ih => exact ⟨h.1, fun a => ih a (h.2 a)⟩

end Coroutine

namespace Task

variable {observer : Observer Eff Ans P} {p : P} {s : σ} {Q : P → σ → Except ε α → Prop}

/-- A task follows an observer from some local variables on. -/
def Follows (observer : Observer Eff Ans P) (Q : P → σ → Except ε α → Prop) (p : P) (s : σ)
    (m : Task Eff Ans σ ε α) : Prop :=
  Coroutine.Follows observer (fun p result => Q p result.2 result.1) p (m.run.run s)

@[simp] theorem follows_pure {a : α} :
    Follows observer Q p s (pure a : Task Eff Ans σ ε α) ↔ Q p s (.ok a) := Iff.rfl

@[simp] theorem follows_throw {e : ε} :
    Follows observer Q p s (throw e : Task Eff Ans σ ε α) ↔ Q p s (.error e) := Iff.rfl

theorem follows_bind {Q : P → σ → Except ε β → Prop} {m : Task Eff Ans σ ε α}
    {f : α → Task Eff Ans σ ε β} :
    Follows observer Q p s (m >>= f) ↔
      Follows observer (fun p s result => match result with
        | .ok a => Follows observer Q p s (f a)
        | .error e => Q p s (.error e)) p s m := by
  unfold Follows
  show Coroutine.Follows observer _ p (m.run.run s >>= fun result =>
    (ExceptT.bindCont f result.1).run result.2) ↔ _
  rw [Coroutine.follows_bind]
  refine Iff.of_eq ?_
  congr 1
  funext p result
  obtain ⟨result, s⟩ := result
  cases result <;> rfl

theorem follows_perform_bind {Q : P → σ → Except ε β → Prop} {e : Eff}
    {f : Ans e → Task Eff Ans σ ε β} :
    Follows observer Q p s (perform e >>= f) ↔
      observer.allows p e ∧ ∀ a, Follows observer Q (observer.next p e a) s (f a) := by
  rw [follows_bind]
  exact Iff.rfl

theorem follows_get_bind {Q : P → σ → Except ε β → Prop} {f : σ → Task Eff Ans σ ε β} :
    Follows observer Q p s (get >>= f) ↔ Follows observer Q p s (f s) := by
  rw [follows_bind]
  exact Iff.rfl

theorem follows_modify_bind {Q : P → σ → Except ε β → Prop} {g : σ → σ}
    {f : PUnit → Task Eff Ans σ ε β} :
    Follows observer Q p s (modify g >>= f) ↔ Follows observer Q p (g s) (f ⟨⟩) := by
  rw [follows_bind]
  exact Iff.rfl

theorem follows_set_bind {Q : P → σ → Except ε β → Prop} {s' : σ}
    {f : PUnit → Task Eff Ans σ ε β} :
    Follows observer Q p s (set s' >>= f) ↔ Follows observer Q p s' (f ⟨⟩) := by
  rw [follows_bind]
  exact Iff.rfl

@[simp] theorem follows_ofExcept {x : Except ε α} :
    Follows observer Q p s (ofExcept x : Task Eff Ans σ ε α) ↔ Q p s x := Iff.rfl

/-- A check in front of a task: it throws, or its rest goes on with what has been checked. -/
theorem follows_ofExcept_bind {Q : P → σ → Except ε β → Prop} {x : Except ε α}
    {f : α → Task Eff Ans σ ε β} (hthrow : ∀ e, x = .error e → Q p s (.error e))
    (hrest : ∀ a, x = .ok a → Follows observer Q p s (f a)) :
    Follows observer Q p s (ofExcept x >>= f) := by
  rw [follows_bind, follows_ofExcept]
  cases x with
  | ok a => exact hrest a rfl
  | error e => exact hthrow e rfl

theorem follows_tryCatch {m : Task Eff Ans σ ε α} {handler : ε → Task Eff Ans σ ε α} :
    Follows observer Q p s (tryCatch m handler) ↔
      Follows observer (fun p s result => match result with
        | .ok a => Q p s (.ok a)
        | .error e => Follows observer Q p s (handler e)) p s m := by
  have hrun : (tryCatch m handler : Task Eff Ans σ ε α).run.run s =
      m.run.run s >>= fun result => (match result.1 with
        | .ok a => (pure a : Task Eff Ans σ ε α)
        | .error e => handler e).run.run result.2 := by
    show Coroutine.bind _ _ = Coroutine.bind _ _
    congr 1
    funext result
    obtain ⟨result, s⟩ := result
    cases result <;> rfl
  unfold Follows
  rw [hrun, Coroutine.follows_bind]
  refine Iff.of_eq ?_
  congr 1
  funext p result
  obtain ⟨result, s⟩ := result
  cases result <;> rfl

theorem follows_ensuring {m : Task Eff Ans σ ε α} {cleanup : Task Eff Ans σ ε Unit} :
    Follows observer Q p s (ensuring m cleanup) ↔
      Follows observer (fun p s result =>
        Follows observer (fun p s _ => Q p s result) p s cleanup) p s m := by
  unfold Follows
  show Coroutine.Follows observer _ p (m.run.run s >>= fun result =>
    cleanup.run.run result.2 >>= fun last => Coroutine.done (result.1, last.2)) ↔ _
  rw [Coroutine.follows_bind]
  refine Iff.of_eq ?_
  congr 1
  funext p result
  rw [Coroutine.follows_bind]
  rfl

theorem Follows.mono {Q' : P → σ → Except ε α → Prop} {m : Task Eff Ans σ ε α}
    (h : Follows observer Q p s m) (hQ : ∀ p s a, Q p s a → Q' p s a) :
    Follows observer Q' p s m :=
  Coroutine.Follows.mono h fun p result hr => hQ p result.2 result.1 hr

/-! ### Tasks that leave the phase alone -/

/-- The task is allowed in a phase, stays in it and leaves the local variables alone. -/
def Quiet (observer : Observer Eff Ans P) (p : P) (m : Task Eff Ans σ ε α) : Prop :=
  ∀ s, Follows observer (fun p' s' _ => p' = p ∧ s' = s) p s m

theorem quiet_pure {a : α} : Quiet observer p (pure a : Task Eff Ans σ ε α) :=
  fun _ => ⟨rfl, rfl⟩

theorem quiet_throw {e : ε} : Quiet observer p (throw e : Task Eff Ans σ ε α) :=
  fun _ => ⟨rfl, rfl⟩

theorem quiet_ofExcept {x : Except ε α} :
    Quiet observer p (ofExcept x : Task Eff Ans σ ε α) := fun _ => ⟨rfl, rfl⟩

theorem quiet_perform {e : Eff} (h : observer.Permits p e) :
    Quiet observer p (perform e : Task Eff Ans σ ε (Ans e)) :=
  fun _ => ⟨h.1, fun a => ⟨h.2 a, rfl⟩⟩

/-- A quiet task in front of another: it may throw, or the other goes on where it began. -/
theorem Quiet.follows_bind {m : Task Eff Ans σ ε α} {f : α → Task Eff Ans σ ε β}
    {Q : P → σ → Except ε β → Prop} (h : Quiet observer p m)
    (hthrow : ∀ e, Q p s (.error e)) (hrest : ∀ a, Follows observer Q p s (f a)) :
    Follows observer Q p s (m >>= f) := by
  rw [Task.follows_bind]
  refine (h s).mono ?_
  rintro p' s' result ⟨rfl, rfl⟩
  cases result with
  | ok a => exact hrest a
  | error e => exact hthrow e

theorem Quiet.bind {m : Task Eff Ans σ ε α} {f : α → Task Eff Ans σ ε β}
    (h : Quiet observer p m) (hrest : ∀ a, Quiet observer p (f a)) :
    Quiet observer p (m >>= f) := fun s =>
  h.follows_bind (fun _ => ⟨rfl, rfl⟩) fun a => hrest a s

theorem Quiet.tryCatch {m : Task Eff Ans σ ε α} {handler : ε → Task Eff Ans σ ε α}
    (h : Quiet observer p m) (hhandler : ∀ e, Quiet observer p (handler e)) :
    Quiet observer p (tryCatch m handler) := by
  intro s
  rw [follows_tryCatch]
  refine (h s).mono ?_
  rintro p' s' result ⟨rfl, rfl⟩
  cases result with
  | ok a => exact ⟨rfl, rfl⟩
  | error e => exact hhandler e _

theorem Quiet.follows {m : Task Eff Ans σ ε α} (h : Quiet observer p m)
    (hQ : ∀ result, Q p s result) : Follows observer Q p s m := by
  refine (h s).mono ?_
  rintro p' s' result ⟨rfl, rfl⟩
  exact hQ result

/-- What a call does with its own local variables, and what is left of its result. -/
def start (s : σ) (m : Task Eff Ans σ ε α) : Coroutine Eff Ans Unit :=
  m.run.run s >>= fun _ => Coroutine.done ()

theorem Follows.start {m : Task Eff Ans σ ε α} (h : Follows observer Q p s m) :
    Coroutine.Follows observer (fun p _ => ∃ s result, Q p s result) p (m.start s) := by
  unfold Task.start
  rw [Coroutine.follows_bind]
  exact Coroutine.Follows.mono h fun p result hr => ⟨result.2, result.1, hr⟩

end Task

/-! ## Threads -/

/-- What the calls of some methods share, and how it answers their effects; what it does not
decide itself it takes from a proposed answer. -/
structure Machine (Eff : Type) (Ans : Eff → Type) where
  State : Type
  Caller : Type
  Method : Type
  body : Caller → Method → Coroutine Eff Ans Unit
  perform : State → Caller → (e : Eff) → Ans e → Ans e × State

variable (M : Machine Eff Ans) (observer : Observer Eff Ans P)

/-- A call that is on its way, with the phase its observer sees it in. -/
structure Thread (P : Type) where
  caller : M.Caller
  phase : P
  program : Coroutine Eff Ans Unit

structure Config (P : Type) where
  state : M.State
  threads : List (Thread M P)

/-- A method is called, or a call goes on; `answers` is what is proposed to its effect. -/
inductive Label where
  | call (caller : M.Caller) (method : M.Method)
  | resume (thread : Nat) (answers : (e : Eff) → Ans e)

namespace Config

variable {M}

/-- The callers and phases of the threads. -/
def roster (c : Config M P) : List (M.Caller × P) :=
  c.threads.map fun thread => (thread.caller, thread.phase)

/-- One step: a new thread, or the next piece of a thread. -/
def exec (c : Config M P) : Label M → Config M P
  | .call caller method =>
    ⟨c.state, c.threads ++ [⟨caller, observer.start, M.body caller method⟩]⟩
  | .resume i answers =>
    match c.threads[i]? with
    | some ⟨caller, phase, .await e k⟩ =>
      let (a, state) := M.perform c.state caller e (answers e)
      ⟨state, c.threads.set i ⟨caller, observer.next phase e a, k a⟩⟩
    | _ => c

def run (c : Config M P) (labels : List (Label M)) : Config M P :=
  labels.foldl (fun c label => c.exec observer label) c

/-- The step meets a condition on the state, the thread it resumes and the effect it performs. -/
def Meets (condition : M.State → M.Caller → P → Eff → Prop) (c : Config M P) :
    Label M → Prop
  | .call _ _ => True
  | .resume i _ =>
    match c.threads[i]? with
    | some ⟨caller, phase, .await e _⟩ => condition c.state caller phase e
    | _ => True

/-- Every step of a run meets the condition. -/
def RunMeets (condition : M.State → M.Caller → P → Eff → Prop) :
    Config M P → List (Label M) → Prop
  | _, [] => True
  | c, label :: labels =>
    c.Meets condition label ∧ (c.exec observer label).RunMeets condition labels

instance (condition : M.State → M.Caller → P → Eff → Prop)
    [∀ state caller phase e, Decidable (condition state caller phase e)] (c : Config M P) :
    (label : Label M) → Decidable (c.Meets condition label)
  | .call _ _ => .isTrue trivial
  | .resume i answers =>
    match h : c.threads[i]? with
    | some ⟨caller, phase, .await e k⟩ =>
      decidable_of_iff (condition c.state caller phase e) (by simp [Meets, h])
    | some ⟨_, _, .done _⟩ => .isTrue (by simp [Meets, h])
    | none => .isTrue (by simp [Meets, h])

instance decidableRunMeets (condition : M.State → M.Caller → P → Eff → Prop)
    [∀ state caller phase e, Decidable (condition state caller phase e)] (c : Config M P) :
    (labels : List (Label M)) → Decidable (c.RunMeets observer condition labels)
  | [] => .isTrue trivial
  | label :: labels =>
    have := decidableRunMeets condition (c.exec observer label) labels
    inferInstanceAs (Decidable (c.Meets condition label ∧
      (c.exec observer label).RunMeets observer condition labels))

/-- All threads follow the observer, and the state agrees with their phases. -/
structure Keeps (J : M.State → List (M.Caller × P) → Prop) (c : Config M P) : Prop where
  follows : ∀ thread ∈ c.threads,
    thread.program.Follows observer (fun _ _ => True) thread.phase
  holds : J c.state c.roster

end Config

/-- An invariant of the state and the phases: a new call keeps it, and so does every effect
that the observer allows and that meets the condition. -/
structure Machine.Invariant (condition : M.State → M.Caller → P → Eff → Prop)
    (J : M.State → List (M.Caller × P) → Prop) : Prop where
  body : ∀ caller method,
    (M.body caller method).Follows observer (fun _ _ => True) observer.start
  call : ∀ state roster caller, J state roster → J state (roster ++ [(caller, observer.start)])
  perform : ∀ state roster i caller phase e proposal, J state roster →
    roster[i]? = some (caller, phase) → observer.allows phase e →
    condition state caller phase e →
    J (M.perform state caller e proposal).2
      (roster.set i
        (caller, observer.next phase e (M.perform state caller e proposal).1))

namespace Config

variable {M observer} {condition : M.State → M.Caller → P → Eff → Prop}
  {J : M.State → List (M.Caller × P) → Prop}

theorem Keeps.exec (hinv : M.Invariant observer condition J) {c : Config M P}
    (h : c.Keeps observer J) {label : Label M} (hmeets : c.Meets condition label) :
    (c.exec observer label).Keeps observer J := by
  cases label with
  | call caller method =>
    constructor
    · intro thread hmem
      rcases List.mem_append.1 hmem with hmem | hmem
      · exact h.follows thread hmem
      · rw [List.mem_singleton] at hmem
        exact hmem ▸ hinv.body caller method
    · have hroster : (c.exec observer (.call caller method)).roster =
          c.roster ++ [(caller, observer.start)] := by
        simp [Config.exec, roster]
      rw [hroster]
      exact hinv.call _ _ caller h.holds
  | resume i answers =>
    unfold Config.exec
    unfold Meets at hmeets
    dsimp only at hmeets ⊢
    split
    · rename_i caller phase e k hthread
      rw [hthread] at hmeets
      have hmem := List.mem_of_getElem? hthread
      obtain ⟨hallows, hrest⟩ := h.follows _ hmem
      have hroster : c.roster[i]? = some (caller, phase) := by
        simp [roster, hthread]
      have hnext := hinv.perform c.state c.roster i caller phase e (answers e) h.holds hroster
        hallows hmeets
      constructor
      · intro thread hmem
        rcases List.mem_or_eq_of_mem_set hmem with hmem | rfl
        · exact h.follows thread hmem
        · exact hrest _
      · have hset : Config.roster ⟨(M.perform c.state caller e (answers e)).2,
            c.threads.set i ⟨caller, observer.next phase e
              (M.perform c.state caller e (answers e)).1,
              k (M.perform c.state caller e (answers e)).1⟩⟩ =
            c.roster.set i (caller, observer.next phase e
              (M.perform c.state caller e (answers e)).1) := by
          simp [roster, List.map_set]
        exact hset ▸ hnext
    · exact h

/-- A step leaves the state alone, or it performs an effect that the observer allows. -/
theorem Keeps.exec_state {c : Config M P} (h : c.Keeps observer J) {label : Label M}
    (hmeets : c.Meets condition label) :
    (c.exec observer label).state = c.state ∨
      ∃ caller phase e proposal, observer.allows phase e ∧ condition c.state caller phase e ∧
        (c.exec observer label).state = (M.perform c.state caller e proposal).2 := by
  cases label with
  | call caller method => exact .inl rfl
  | resume i answers =>
    unfold Config.exec
    unfold Meets at hmeets
    dsimp only at hmeets ⊢
    split
    · rename_i caller phase e k hthread
      rw [hthread] at hmeets
      exact .inr ⟨caller, phase, e, answers e,
        (h.follows _ (List.mem_of_getElem? hthread)).1, hmeets, rfl⟩
    · exact .inl rfl

theorem run_append (c : Config M P) (earlier later : List (Label M)) :
    c.run observer (earlier ++ later) = (c.run observer earlier).run observer later :=
  List.foldl_append ..

theorem runMeets_append (c : Config M P) (earlier later : List (Label M)) :
    c.RunMeets observer condition (earlier ++ later) ↔
      c.RunMeets observer condition earlier ∧
        (c.run observer earlier).RunMeets observer condition later := by
  induction earlier generalizing c with
  | nil => exact ⟨fun h => ⟨trivial, h⟩, fun h => h.2⟩
  | cons label earlier ih =>
    rw [List.cons_append, RunMeets, RunMeets, ih, and_assoc]
    exact Iff.rfl

/-- A condition that always holds is met. -/
theorem runMeets_of_forall (h : ∀ state caller phase e, condition state caller phase e)
    (c : Config M P) (labels : List (Label M)) : c.RunMeets observer condition labels := by
  induction labels generalizing c with
  | nil => trivial
  | cons label labels ih =>
    refine ⟨?_, ih _⟩
    cases label with
    | call caller method => trivial
    | resume i answers =>
      unfold Meets
      dsimp only
      split
      · exact h _ _ _ _
      · trivial

/-- Along a run whose steps meet the condition, the invariant holds. -/
theorem run_keeps (hinv : M.Invariant observer condition J) {c : Config M P}
    (h : c.Keeps observer J) {labels : List (Label M)}
    (hmeets : c.RunMeets observer condition labels) : (c.run observer labels).Keeps observer J := by
  induction labels generalizing c with
  | nil => exact h
  | cons label labels ih => exact ih (h.exec hinv hmeets.1) hmeets.2

end Config

end OpenGameAgent
