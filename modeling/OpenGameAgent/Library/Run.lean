import Mathlib.Data.List.Basic

/-!
# Runs of a machine

A machine takes one step for each input, and a run is its steps in order.

* `demand` — a check that throws.
* `bind_eq_ok`, `check_eq_ok` and `return_eq_ok` — peel one computation off a fallible
  program.
* `runM` — the run of a fallible step; `runM_append` cuts it,
  `runM_invariant` carries an invariant along it, `runM_simulation` carries a
  relation between two runs over the same inputs.
* `history` — the run of a machine that answers every input, with its answers;
  `history_append` cuts it, `history_invariant` carries an invariant along it.
-/

namespace OpenGameAgent

variable {σ τ ι ο ε : Type}

/-! ## Fallible programs -/

theorem ok_bind {α β : Type} (a : α) (f : α → Except ε β) : (Except.ok a >>= f) = f a := rfl

theorem error_bind {α β : Type} (e : ε) (f : α → Except ε β) :
    (Except.error e >>= f) = .error e := rfl

theorem bind_eq_ok {α β : Type} {x : Except ε α} {f : α → Except ε β} {b : β} :
    (x >>= f) = .ok b ↔ ∃ a, x = .ok a ∧ f a = .ok b := by
  cases x with
  | error e => simp [bind, Except.bind]
  | ok a => simp [bind, Except.bind]

/-- `if (!condition) throw error`. -/
def demand (condition : Bool) (error : ε) : Except ε Unit :=
  if condition then .ok () else .error error

@[simp] theorem demand_eq_ok {condition : Bool} {error : ε} {u : Unit} :
    demand condition error = .ok u ↔ condition = true := by
  unfold demand
  split <;> simp_all

theorem demand_true_bind {β : Type} {condition : Bool} (h : condition = true) (error : ε)
    (f : Unit → Except ε β) : (demand condition error >>= f) = f () := by
  rw [demand_eq_ok.2 h, ok_bind]

theorem demand_false_bind {β : Type} {condition : Bool} (h : condition = false) (error : ε)
    (f : Unit → Except ε β) : (demand condition error >>= f) = .error error := by
  rw [h]
  rfl

/-- A check in front of a fallible program. -/
theorem check_eq_ok {β : Type} {x : Except ε Unit} {y : Except ε β} {b : β} :
    (x >>= fun _ => y) = .ok b ↔ x = .ok () ∧ y = .ok b := by
  rw [bind_eq_ok]
  constructor
  · rintro ⟨⟨⟩, hx, hy⟩
    exact ⟨hx, hy⟩
  · rintro ⟨hx, hy⟩
    exact ⟨(), hx, hy⟩

theorem return_eq_ok {β : Type} {a b : β} : (pure a : Except ε β) = .ok b ↔ b = a := by
  constructor
  · rintro ⟨⟩
    rfl
  · rintro rfl
    rfl

/-- A check of every item of a list. -/
theorem forM_eq_ok {α : Type} {f : α → Except ε Unit} {l : List α} :
    l.forM f = .ok () ↔ ∀ a ∈ l, f a = .ok () := by
  induction l with
  | nil => simp [List.forM, pure, Except.pure]
  | cons a l ih =>
    change (f a >>= fun _ => l.forM f) = .ok () ↔ _
    rw [check_eq_ok, ih, List.forall_mem_cons]

theorem option_forM_eq_ok {α : Type} {o : Option α} {f : α → Except ε Unit} :
    o.forM f = .ok () ↔ ∀ a, o = some a → f a = .ok () := by
  cases o with
  | none => simp [Option.forM, pure, Except.pure]
  | some a => simp [Option.forM]

theorem isOk_iff {β : Type} {x : Except ε β} : x.isOk = true ↔ ∃ b, x = .ok b := by
  cases x <;> simp [Except.isOk, Except.toBool]

/-- A fallible function applied to every item of a list. -/
theorem mapM_eq_ok_iff {α β : Type} {f : α → Except ε β} {l : List α} {r : List β} :
    l.mapM f = .ok r ↔ List.Forall₂ (fun a b => f a = .ok b) l r := by
  induction l generalizing r with
  | nil =>
    rw [List.mapM_nil, return_eq_ok]
    constructor
    · rintro rfl
      exact .nil
    · rintro ⟨⟩
      rfl
  | cons a l ih =>
    simp only [List.mapM_cons, bind_eq_ok, ih, return_eq_ok]
    constructor
    · rintro ⟨b, hb, rest, hrest, rfl⟩
      exact .cons hb hrest
    · intro h
      cases h with
      | cons hb hrest => exact ⟨_, hb, _, hrest, rfl⟩

/-- A function that fails on no item of a list can be applied to all of it. -/
theorem exists_mapM_eq_ok {α β : Type} {f : α → Except ε β} {l : List α}
    (h : ∀ a ∈ l, ∃ b, f a = .ok b) : ∃ r, l.mapM f = .ok r := by
  simp only [mapM_eq_ok_iff]
  induction l with
  | nil => exact ⟨[], .nil⟩
  | cons a l ih =>
    obtain ⟨b, hb⟩ := h a (List.mem_cons_self ..)
    obtain ⟨r, hr⟩ := ih fun c hc => h c (List.mem_cons_of_mem _ hc)
    exact ⟨b :: r, .cons hb hr⟩

theorem exists_left_of_forall₂ {α β : Type} {P : α → β → Prop} {l : List α} {r : List β}
    (h : List.Forall₂ P l r) {b : β} (hb : b ∈ r) : ∃ a ∈ l, P a b := by
  induction h with
  | nil => cases hb
  | cons hab _ ih =>
    rcases List.mem_cons.1 hb with rfl | hb
    · exact ⟨_, List.mem_cons_self .., hab⟩
    · obtain ⟨a, ha, hP⟩ := ih hb
      exact ⟨a, List.mem_cons_of_mem _ ha, hP⟩

theorem exists_right_of_forall₂ {α β : Type} {P : α → β → Prop} {l : List α} {r : List β}
    (h : List.Forall₂ P l r) {a : α} (ha : a ∈ l) : ∃ b ∈ r, P a b := by
  induction h with
  | nil => cases ha
  | cons hab _ ih =>
    rcases List.mem_cons.1 ha with rfl | ha
    · exact ⟨_, List.mem_cons_self .., hab⟩
    · obtain ⟨b, hb, hP⟩ := ih ha
      exact ⟨b, List.mem_cons_of_mem _ hb, hP⟩

/-- An order carries over to a list that is related item by item. -/
theorem pairwise_of_forall₂ {α β : Type} {P : α → β → Prop} {R : α → α → Prop}
    {S : β → β → Prop} {l : List α} {r : List β} (h : List.Forall₂ P l r) (hR : l.Pairwise R)
    (hS : ∀ a a' b b', P a b → P a' b' → R a a' → S b b') : r.Pairwise S := by
  induction h with
  | nil => exact .nil
  | cons hab hrest ih =>
    rw [List.pairwise_cons] at hR ⊢
    refine ⟨fun b' hb' => ?_, ih hR.2⟩
    obtain ⟨a', ha', hab'⟩ := exists_left_of_forall₂ hrest hb'
    exact hS _ a' _ b' hab hab' (hR.1 a' ha')

/-- The steps of a fallible machine, until one fails. -/
def runM (step : σ → ι → Except ε σ) (s : σ) (inputs : List ι) : Except ε σ :=
  inputs.foldlM step s

@[simp] theorem runM_nil (step : σ → ι → Except ε σ) (s : σ) : runM step s [] = .ok s := rfl

theorem runM_cons (step : σ → ι → Except ε σ) (s : σ) (i : ι) (is : List ι) :
    runM step s (i :: is) = step s i >>= fun s' => runM step s' is := rfl

theorem runM_append (step : σ → ι → Except ε σ) (s : σ) (is js : List ι) :
    runM step s (is ++ js) = runM step s is >>= fun s' => runM step s' js := by
  simp [runM, List.foldlM_append]

theorem runM_append_eq_ok {step : σ → ι → Except ε σ} {s s' : σ} {is js : List ι} :
    runM step s (is ++ js) = .ok s' ↔
      ∃ mid, runM step s is = .ok mid ∧ runM step mid js = .ok s' := by
  rw [runM_append, bind_eq_ok]

theorem runM_cons_eq_ok {step : σ → ι → Except ε σ} {s s' : σ} {i : ι} {is : List ι} :
    runM step s (i :: is) = .ok s' ↔
      ∃ mid, step s i = .ok mid ∧ runM step mid is = .ok s' := by
  rw [runM_cons, bind_eq_ok]

/-- What every step preserves, a whole run preserves. -/
theorem runM_invariant {step : σ → ι → Except ε σ} (P : σ → Prop)
    (hstep : ∀ s i s', P s → step s i = .ok s' → P s') {s s' : σ} {is : List ι}
    (h : P s) (hrun : runM step s is = .ok s') : P s' := by
  induction is generalizing s with
  | nil =>
    rw [runM_nil, Except.ok.injEq] at hrun
    exact hrun ▸ h
  | cons i is ih =>
    obtain ⟨mid, hmid, hrest⟩ := runM_cons_eq_ok.1 hrun
    exact ih (hstep s i mid h hmid) hrest

/-- A relation that every step of the first machine carries over to the second
relates the ends of two runs over the same inputs. -/
theorem runM_simulation {step : σ → ι → Except ε σ} {step' : τ → ι → Except ε τ}
    (R : σ → τ → Prop)
    (hstep : ∀ s t i s', R s t → step s i = .ok s' → ∃ t', step' t i = .ok t' ∧ R s' t')
    {s s' : σ} {t : τ} {is : List ι} (h : R s t) (hrun : runM step s is = .ok s') :
    ∃ t', runM step' t is = .ok t' ∧ R s' t' := by
  induction is generalizing s t with
  | nil =>
    rw [runM_nil, Except.ok.injEq] at hrun
    exact ⟨t, rfl, hrun ▸ h⟩
  | cons i is ih =>
    obtain ⟨mid, hmid, hrest⟩ := runM_cons_eq_ok.1 hrun
    obtain ⟨mid', hmid', hR⟩ := hstep s t i mid h hmid
    obtain ⟨t', ht', hend⟩ := ih hR hrest
    exact ⟨t', runM_cons_eq_ok.2 ⟨mid', hmid', ht'⟩, hend⟩

/-! ## Machines that answer every input -/

/-- A run: what the machine answered to each input, and where it ended. -/
def history (step : σ → ι → ο × σ) : σ → List ι → List (ι × ο) × σ
  | s, [] => ([], s)
  | s, i :: is =>
    ((i, (step s i).1) :: (history step (step s i).2 is).1, (history step (step s i).2 is).2)

@[simp] theorem history_nil (step : σ → ι → ο × σ) (s : σ) : history step s [] = ([], s) := rfl

theorem history_append (step : σ → ι → ο × σ) (s : σ) (is js : List ι) :
    history step s (is ++ js) =
      ((history step s is).1 ++ (history step (history step s is).2 js).1,
        (history step (history step s is).2 js).2) := by
  induction is generalizing s with
  | nil => simp
  | cons i is ih => simp [history, ih]

/-- A run with one more input. -/
theorem history_concat (step : σ → ι → ο × σ) (s : σ) (is : List ι) (i : ι) :
    history step s (is ++ [i]) =
      ((history step s is).1 ++ [(i, (step (history step s is).2 i).1)],
        (step (history step s is).2 i).2) := by
  rw [history_append]
  rfl

/-- The inputs of a run stand in its history. -/
theorem map_fst_history (step : σ → ι → ο × σ) (s : σ) (is : List ι) :
    (history step s is).1.map Prod.fst = is := by
  induction is generalizing s with
  | nil => rfl
  | cons i is ih => simp [history, ih]

/-- What every step preserves, a whole run preserves. -/
theorem history_invariant {step : σ → ι → ο × σ} (P : σ → Prop) {s : σ} {is : List ι}
    (hstep : ∀ s i, i ∈ is → P s → P (step s i).2) (h : P s) : P (history step s is).2 := by
  induction is generalizing s with
  | nil => exact h
  | cons i is ih =>
    have hnext := hstep s i (List.mem_cons_self ..) h
    exact ih (fun s j hmem => hstep s j (List.mem_cons_of_mem _ hmem)) hnext

/-- Two machines that a relation holds together at every step answer a run alike. -/
theorem history_simulation {ο' : Type} {step : σ → ι → ο × σ} {step' : τ → ι → ο' × τ}
    (R : σ → τ → List ι → Prop) (g : ο → ο')
    (hstep : ∀ s t i is, R s t (i :: is) →
      (step' t i).1 = g (step s i).1 ∧ R (step s i).2 (step' t i).2 is)
    {s : σ} {t : τ} {is : List ι} (h : R s t is) :
    (history step' t is).1 = (history step s is).1.map (fun e => (e.1, g e.2)) ∧
      R (history step s is).2 (history step' t is).2 [] := by
  induction is generalizing s t with
  | nil => exact ⟨rfl, h⟩
  | cons i is ih =>
    obtain ⟨hanswer, hnext⟩ := hstep s t i is h
    obtain ⟨hrest, hend⟩ := ih hnext
    refine ⟨?_, hend⟩
    simp only [history, List.map_cons, hanswer, hrest]

end OpenGameAgent
