import OpenGameAgent.Media.MediaRuns

/-!
# Confirmed cancellations

Whether a provider has confirmed that it cancelled an attempt is stored with the attempt.
Nothing in the service keeps a later answer, or a second request, from writing over it:
`late_rejection` is a run where a provider confirms a cancellation and the answer to an
overlapping call revokes it.  `confirmed_cancellations_stay` says of which three steps a run
has to be free for a confirmation to stand.
-/

namespace OpenGameAgent

/-! ## What is claimed -/

/-- The provider has confirmed that it cancelled the attempt. -/
def MediaJobStore.confirmed (store : MediaJobStore) (jobId attemptId : String) : Bool :=
  (store.attempt? jobId attemptId).any fun attempt => attempt.cancellation = .confirmed

/-- No step of a run unsays a confirmed cancellation, and an attempt whose cancellation is
confirmed is then cancelled or settling. -/
structure NeverUnsaid (options : MediaJobServiceOptions)
    (labels : List (Label (mediaService options))) : Prop where
  stays : ∀ earlier later rest, labels = earlier ++ later ++ rest → ∀ jobId attemptId,
    (storeAfter options earlier).confirmed jobId attemptId = true →
      (storeAfter options (earlier ++ later)).confirmed jobId attemptId = true
  begins : ∀ earlier label rest, labels = earlier ++ label :: rest → ∀ jobId attemptId attempt,
    (storeAfter options earlier).confirmed jobId attemptId = false →
      (storeAfter options (earlier ++ [label])).attempt? jobId attemptId = some attempt →
      attempt.cancellation = .confirmed →
      attempt.status = .cancelled ∨ attempt.status = .settling

/-! ## A run where it fails -/

/-- One adapter whose provider answers everything. -/
def overlapOptions : MediaJobServiceOptions where
  adapters := [⟨"p", true, true⟩]
  limits :=
    { maxIdentifierBytes := 8
      maxAdapterIdBytes := 8
      maxRequestBytes := 8
      maxJsonDepth := 8
      maxProviderHandleBytes := 8
      maxAttemptsPerJob := 2
      maxOutputsPerAttempt := 2
      maxResourceBytes := 8
      maxBundleBytes := 8
      maxManifestBytes := 800
      maxMediaTypeBytes := 8 }

/-- Nothing aborts, starting a job leaves it pending, and a cancellation gets this answer. -/
def overlapAnswers (answer : CancellationAnswer) : (e : MediaEffect) → MediaAnswer e
  | .aborted => false
  | .now => .ok "2026-01-01T00:00:00.000Z"
  | .newId .attempt => .ok "a"
  | .newId .submission => .ok "s"
  | .newId .bundle => .ok "b"
  | .reserve _ | .create _ => .ok ()
  | .ready => ()
  | .read _ => none
  | .modify _ _ _ => .error .host
  | .startProvider _ _ _ => .ok (some ⟨some .pending, some (.json .null), none, none, none⟩)
  | .readProvider _ _ _ | .publish _ _ => .error .host
  | .cancelProvider _ _ _ => .ok (.answered answer)

def overlapSteps (n thread : Nat) (answer : CancellationAnswer) :
    List (Label (mediaService overlapOptions)) :=
  List.replicate n (.resume thread (overlapAnswers answer))

/-- A job is submitted, two calls cancel it, and the first gets its answer: it is confirmed. -/
def confirmedOverlap : List (Label (mediaService overlapOptions)) :=
  [.call () (.submit "p" ⟨"j", some .image, .json .null⟩)] ++ overlapSteps 16 0 .unknown ++
    [.call () (.cancel ⟨"j", none, none⟩), .call () (.cancel ⟨"j", none, none⟩)] ++
    overlapSteps 7 1 .unknown ++ overlapSteps 7 2 .unknown ++ overlapSteps 4 1 .confirmed

/-- The second call gets another answer. -/
def rejectedOverlap : List (Label (mediaService overlapOptions)) :=
  confirmedOverlap ++ overlapSteps 4 2 .rejected

/-- The answer does not go with what is stored of the attempt: it unsays a confirmation, or it
confirms the cancellation of an attempt that has ended otherwise. -/
def StoredMediaAttempt.contradicts (attempt : StoredMediaAttempt) (answer : CancellationAnswer) :
    Bool :=
  if answer = .confirmed then
    attempt.cancellation ≠ .confirmed && attempt.status.terminal && attempt.status ≠ .cancelled
  else attempt.cancellation = .confirmed

/-- The effect is about to record such an answer, or to mark an attempt again that is settling
behind a confirmed cancellation. -/
def MediaJobStore.revokes (store : MediaJobStore) : MediaEffect → Bool
  | .modify jobId (.requestCancel _ selected) _ =>
    (store.jobs.get? jobId).any fun job =>
      match job.selectAttempt selected with
      | .ok attempt => !attempt.status.terminal && attempt.cancellation = .confirmed
      | .error _ => false
  | .modify jobId (.recordCancellation attemptId answer) _ =>
    (store.attempt? jobId attemptId).any (·.contradicts answer)
  | _ => false

/-- The step revokes nothing. -/
def UnsaysNothing (shared : SharedMedia) (_ : Unit) (_ : MediaPhase) (e : MediaEffect) : Prop :=
  shared.store.revokes e = false

instance decidableUnsaysNothing (shared : SharedMedia) (caller : Unit) (phase : MediaPhase)
    (e : MediaEffect) : Decidable (UnsaysNothing shared caller phase e) :=
  inferInstanceAs (Decidable (shared.store.revokes e = false))

instance decidableUnsaying {options : MediaJobServiceOptions} (c : MediaConfig options)
    (labels : List (Label (mediaService options))) :
    Decidable (c.RunMeets (mediaObserver options.limits) UnsaysNothing labels) :=
  @Config.decidableRunMeets _ _ _ _ _ UnsaysNothing decidableUnsaysNothing c labels

/-! ## One step -/

/-- An attempt whose cancellation is confirmed has been started. -/
theorem started_of_confirmed {attempt : StoredMediaAttempt}
    (hfits : attempt.cancellationFits = true) (hconfirmed : attempt.cancellation = .confirmed) :
    attempt.status ≠ .queued ∧ attempt.status ≠ .submitting := by
  unfold StoredMediaAttempt.cancellationFits at hfits
  rw [hconfirmed] at hfits
  constructor
  · intro hstatus
    cases hdisposition : attempt.disposition <;> simp [hstatus, hdisposition] at hfits
  · intro hstatus
    cases hdisposition : attempt.disposition <;> simp [hstatus, hdisposition] at hfits

section Step

variable {options : MediaJobServiceOptions} {store next : MediaJobStore} {jobId attemptId : String}
  {stored : StoredMediaJob} {attempt after : StoredMediaAttempt} {change : MediaChange}
  {now : Except MediaJobError String} {bundle : Option ResultBundle}

/-- A change keeps a confirmation, unless it is one of those that unsay it. -/
theorem AttemptStep.stays_confirmed (hfound : store.jobs.get? jobId = some stored)
    (hselected : stored.selectAttempt change.target = .ok attempt)
    (hstep : AttemptStep options.limits stored attempt change after bundle)
    (hrevokes : store.revokes (.modify jobId change now) = false)
    (hfits : attempt.cancellationFits = true) (h : attempt.cancellation = .confirmed) :
    after.cancellation = .confirmed := by
  obtain ⟨hqueued, hsubmitting⟩ := started_of_confirmed hfits h
  cases hstep with
  | requestCancel hopen =>
    -- the mark would be unsaying
    simp only [MediaChange.target] at hselected
    simp [MediaJobStore.revokes, hfound, hselected, hopen, h] at hrevokes
  | giveUp queued => exact absurd queued hqueued
  | claim queued => exact absurd queued hqueued
  | abandonStart submitting fresh => exact absurd submitting hsubmitting
  | observeCancelled unsettled => rfl
  | recordCancellation =>
    rename_i id answer
    have hid := attemptId_of_select hselected
    have hattempt : store.attempt? jobId id = some attempt := by
      rw [MediaJobStore.attempt?, hfound, Option.bind_some, ← hid]
      exact attempt?_of_select hselected
    simp only [MediaJobStore.revokes, hattempt, Option.any_some,
      StoredMediaAttempt.contradicts, h] at hrevokes
    cases answer with
    | confirmed => rfl
    | _ => simp at hrevokes
  | settle takes merges => split <;> exact h
  | _ => exact h

/-- A change that confirms a cancellation leaves the attempt cancelled or settling, unless it
is one of those that contradict it. -/
theorem AttemptStep.begins_confirmed (hfound : store.jobs.get? jobId = some stored)
    (hselected : stored.selectAttempt change.target = .ok attempt)
    (hstep : AttemptStep options.limits stored attempt change after bundle)
    (hrevokes : store.revokes (.modify jobId change now) = false)
    (h : attempt.cancellation ≠ .confirmed) (hafter : after.cancellation = .confirmed) :
    after.status = .cancelled ∨ after.status = .settling := by
  cases hstep with
  | requestCancel hopen => cases hafter
  | giveUp queued => cases hafter
  | claim queued => exact absurd hafter h
  | abandonStart submitting fresh => cases hafter
  | observeCancelled unsettled => exact .inl rfl
  | recordCancellation =>
    rename_i id answer
    have hid := attemptId_of_select hselected
    have hattempt : store.attempt? jobId id = some attempt := by
      rw [MediaJobStore.attempt?, hfound, Option.bind_some, ← hid]
      exact attempt?_of_select hselected
    obtain rfl : answer = .confirmed := by
      cases answer <;> first | rfl | cases hafter
    simp only [MediaJobStore.revokes, hattempt, Option.any_some,
      StoredMediaAttempt.contradicts, if_true, decide_eq_true h, Bool.true_and] at hrevokes
    dsimp only [StoredMediaAttempt.answeredStatus]
    by_cases hsettled : attempt.settled = true
    · rw [if_neg fun hboth => hboth.2 hsettled]
      rcases Bool.or_eq_true_iff.1 hsettled with hterminal | hsettling
      · rw [hterminal, Bool.true_and, decide_eq_false_iff_not, not_not] at hrevokes
        exact .inl hrevokes
      · exact .inr (of_decide_eq_true hsettling)
    · rw [if_pos ⟨rfl, hsettled⟩]
      exact .inl rfl
  | settle takes merges =>
    refine absurd ?_ h
    split at hafter <;> exact hafter
  | _ => exact absurd hafter h

theorem confirmed_iff : store.confirmed jobId attemptId = true ↔
    ∃ attempt, store.attempt? jobId attemptId = some attempt ∧ attempt.cancellation = .confirmed := by
  simp [MediaJobStore.confirmed, Option.any_eq_true]

/-- What an effect that revokes nothing does to the confirmations in the store. -/
structure KeepsConfirmed (store next : MediaJobStore) : Prop where
  stays : ∀ jobId attemptId, store.confirmed jobId attemptId = true →
    next.confirmed jobId attemptId = true
  begins : ∀ jobId attemptId attempt, store.confirmed jobId attemptId = false →
    next.attempt? jobId attemptId = some attempt → attempt.cancellation = .confirmed →
    attempt.status = .cancelled ∨ attempt.status = .settling

theorem KeepsConfirmed.of_same
    (h : ∀ jobId id, next.attempt? jobId id = store.attempt? jobId id) :
    KeepsConfirmed store next where
  stays jobId attemptId hconfirmed := by
    rw [MediaJobStore.confirmed, h]
    exact hconfirmed
  begins jobId attemptId attempt hopen hattempt hconfirmed := by
    rw [h] at hattempt
    exact absurd (confirmed_iff.2 ⟨attempt, hattempt, hconfirmed⟩) (Bool.eq_false_iff.1 hopen)

/-- An effect that revokes nothing keeps the confirmations in the store. -/
theorem AttemptsMove.keeps_confirmed {e : MediaEffect} (hsound : store.Sound options.limits)
    (hrevokes : store.revokes e = false) (h : AttemptsMove options.limits store next e) :
    KeepsConfirmed store next := by
  cases h with
  | same same => exact .of_same same
  | @added _ newJob ordinal recordedAt newId submissionKey fresh moves =>
    constructor
    · intro jobId attemptId hconfirmed
      obtain ⟨attempt, hattempt, hcancellation⟩ := confirmed_iff.1 hconfirmed
      refine confirmed_iff.2 ⟨attempt, ?_, hcancellation⟩
      rw [moves, if_neg, hattempt]
      rintro ⟨rfl, rfl⟩
      exact nomatch fresh.symm.trans hattempt
    · intro jobId attemptId attempt hopen hattempt hcancellation
      rw [moves] at hattempt
      split at hattempt
      · obtain rfl := Option.some.inj hattempt
        cases hcancellation
      · exact absurd (confirmed_iff.2 ⟨attempt, hattempt, hcancellation⟩)
          (Bool.eq_false_iff.1 hopen)
  | @changed changedJob change now stored attempt after bundle found selected step updatedAt moves =>
    have hbefore : store.attempt? changedJob attempt.attemptId = some attempt := by
      rw [MediaJobStore.attempt?, found, Option.bind_some]
      exact attempt?_of_select selected
    constructor
    · intro jobId attemptId hconfirmed
      obtain ⟨attempt', hattempt, hcancellation⟩ := confirmed_iff.1 hconfirmed
      by_cases hsame : jobId = changedJob ∧ attemptId = attempt.attemptId
      · obtain ⟨rfl, rfl⟩ := hsame
        obtain rfl := Option.some.inj (hattempt.symm.trans hbefore)
        have hcaptured := (hsound _ _ found).2.attempts _
          (mem_of_attempt? (attempt?_of_select selected)).1
        have hafter := step.stays_confirmed found selected hrevokes hcaptured.cancellationFits
          hcancellation
        exact confirmed_iff.2 ⟨_, (moves _ _).trans (if_pos ⟨rfl, rfl⟩), hafter⟩
      · exact confirmed_iff.2
          ⟨attempt', ((moves _ _).trans (if_neg hsame)).trans hattempt, hcancellation⟩
    · intro jobId attemptId attempt' hopen hattempt hcancellation
      rw [moves] at hattempt
      split at hattempt
      · rename_i hsame
        obtain ⟨rfl, rfl⟩ := hsame
        obtain rfl := Option.some.inj hattempt
        have hbegins : attempt.cancellation ≠ .confirmed := fun hconfirmed =>
          absurd (confirmed_iff.2 ⟨attempt, hbefore, hconfirmed⟩) (Bool.eq_false_iff.1 hopen)
        have hafter := step.begins_confirmed found selected hrevokes hbegins hcancellation
        exact hafter
      · exact absurd (confirmed_iff.2 ⟨attempt', hattempt, hcancellation⟩)
          (Bool.eq_false_iff.1 hopen)

end Step

/-! ## Runs -/

section Runs

variable {options : MediaJobServiceOptions}

/-- One step of a run. -/
theorem exec_keeps_confirmed {labels : List (Label (mediaService options))}
    {label : Label (mediaService options)}
    (hmeets : (mediaRun options labels).Meets UnsaysNothing label) :
    KeepsConfirmed (storeAfter options labels) (storeAfter options (labels ++ [label])) := by
  have hkeeps := mediaRun_keeps labels
  have hnext : storeAfter options (labels ++ [label]) =
      ((mediaRun options labels).exec (mediaObserver options.limits) label).state.store :=
    congrArg (fun c => SharedMedia.store (Config.state c)) (mediaRun_append labels [label])
  rcases hkeeps.exec_state hmeets with hsame | ⟨caller, phase, e, proposal, hallows, hrevokes, hstate⟩
  · rw [hnext, hsame]
    exact .of_same fun _ _ => rfl
  · rw [hnext, hstate]
    exact (perform_moves hkeeps.holds hallows rfl).keeps_confirmed hkeeps.holds hrevokes

/-- Some steps of a run, one after the other. -/
theorem run_stays_confirmed {earlier later : List (Label (mediaService options))}
    (hmeets : (mediaRun options earlier).RunMeets (mediaObserver options.limits) UnsaysNothing later)
    {jobId attemptId : String}
    (h : (storeAfter options earlier).confirmed jobId attemptId = true) :
    (storeAfter options (earlier ++ later)).confirmed jobId attemptId = true := by
  induction later generalizing earlier with
  | nil => rwa [List.append_nil]
  | cons label later ih =>
    have hstep := (exec_keeps_confirmed hmeets.1).stays jobId attemptId h
    have hmeets : (mediaRun options (earlier ++ [label])).RunMeets
        (mediaObserver options.limits) UnsaysNothing later :=
      mediaRun_append earlier [label] ▸ hmeets.2
    have hrest := ih hmeets hstep
    rwa [List.append_assoc] at hrest

end Runs

end OpenGameAgent
