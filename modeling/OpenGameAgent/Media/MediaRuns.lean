import OpenGameAgent.Media.CapturedJobs

/-!
# Runs of the media service

What one effect does to the stored attempts: it leaves them alone, adds one, or changes one
by an `AttemptStep`.  Every stored job stays one that `captureStoredMediaJob` has captured.
-/

namespace OpenGameAgent

/-- The attempt with an identifier. -/
def StoredMediaJob.attempt? (job : StoredMediaJob) (attemptId : String) :
    Option StoredMediaAttempt :=
  job.attempts.find? fun candidate => candidate.attemptId = attemptId

/-- The attempt as it is stored. -/
def MediaJobStore.attempt? (store : MediaJobStore) (jobId attemptId : String) :
    Option StoredMediaAttempt :=
  (store.jobs.get? jobId).bind (·.attempt? attemptId)

/-- Every stored job is a captured one, under its own identifier. -/
def MediaJobStore.Sound (limits : MediaJobLimits) (store : MediaJobStore) : Prop :=
  ∀ jobId job, store.jobs.get? jobId = some job → job.jobId = jobId ∧ job.Captured limits

variable {options : MediaJobServiceOptions} {store next : MediaJobStore} {e : MediaEffect}
  {proposal : MediaAnswer e} {jobId attemptId : String}

/-! ## Lookups -/

theorem attempt?_of_select {job : StoredMediaJob} {selected : Option String}
    {attempt : StoredMediaAttempt} (h : job.selectAttempt selected = .ok attempt) :
    job.attempt? attempt.attemptId = some attempt := by
  have hfound := selectAttempt_eq_ok.1 h
  have hid : attempt.attemptId = selected.getD job.currentAttemptId := by
    simpa using List.find?_some hfound
  exact hid ▸ hfound

theorem mem_of_attempt? {job : StoredMediaJob} {attempt : StoredMediaAttempt}
    (h : job.attempt? attemptId = some attempt) :
    attempt ∈ job.attempts ∧ attempt.attemptId = attemptId :=
  ⟨List.mem_of_find?_eq_some h, by simpa using List.find?_some h⟩

/-- A replaced attempt is found under its identifier, and the others as before. -/
theorem attempt?_replaceAttempt {job : StoredMediaJob} {attempt after : StoredMediaAttempt}
    (hfound : job.attempt? attempt.attemptId = some attempt)
    (hid : after.attemptId = attempt.attemptId) (id : String) :
    (job.replaceAttempt attempt.attemptId after).attempt? id =
      if id = attempt.attemptId then some after else job.attempt? id := by
  have hsame : (fun candidate : StoredMediaAttempt => decide (candidate.attemptId = id)) ∘
      (fun candidate => if candidate.attemptId = attempt.attemptId then after else candidate) =
      fun candidate => decide (candidate.attemptId = id) := by
    funext candidate
    dsimp only [Function.comp]
    split
    · rename_i hcandidate
      rw [hid, hcandidate]
    · rfl
  unfold StoredMediaJob.attempt? StoredMediaJob.replaceAttempt
  rw [List.find?_map, hsame]
  by_cases h : id = attempt.attemptId
  · subst h
    rw [if_pos rfl]
    change (job.attempt? attempt.attemptId).map _ = _
    rw [hfound, Option.map_some, if_pos rfl]
  · rw [if_neg h]
    change (job.attempt? id).map _ = job.attempt? id
    cases hother : job.attempt? id with
    | none => rfl
    | some other =>
      have hother := (mem_of_attempt? hother).2
      rw [Option.map_some, if_neg (hother ▸ h)]

theorem attempt?_set (job : StoredMediaJob) (jobId' id : String) :
    MediaJobStore.attempt? ⟨store.jobs.set jobId job⟩ jobId' id =
      if jobId' = jobId then job.attempt? id else store.attempt? jobId' id := by
  unfold MediaJobStore.attempt?
  rw [OrderedMap.get?_set]
  by_cases h : jobId' = jobId
  · subst h
    simp
  · simp [h, Ne.symm h]

/-! ## Steps -/

/-- How one effect moves the stored attempts. -/
inductive AttemptsMove (limits : MediaJobLimits) (store next : MediaJobStore) :
    MediaEffect → Prop where
  | same {e : MediaEffect} (same : ∀ jobId id, next.attempt? jobId id = store.attempt? jobId id) :
      AttemptsMove limits store next e
  | added {e : MediaEffect} (jobId : String) (ordinal : Nat)
      (recordedAt attemptId submissionKey : String)
      (fresh : store.attempt? jobId attemptId = none)
      (moves : ∀ jobId' id, next.attempt? jobId' id =
        if jobId' = jobId ∧ id = attemptId then
          some (newAttempt ordinal recordedAt attemptId submissionKey)
        else store.attempt? jobId' id) :
      AttemptsMove limits store next e
  | changed {jobId : String} {change : MediaChange} {now : Except MediaJobError String}
      {stored : StoredMediaJob} {attempt after : StoredMediaAttempt} {bundle : Option ResultBundle}
      (found : store.jobs.get? jobId = some stored)
      (selected : stored.selectAttempt change.target = .ok attempt)
      (step : AttemptStep limits stored attempt change after bundle) (updatedAt : String)
      (moves : ∀ jobId' id, next.attempt? jobId' id =
        if jobId' = jobId ∧ id = attempt.attemptId then some { after with updatedAt := updatedAt }
        else store.attempt? jobId' id) :
      AttemptsMove limits store next (.modify jobId change now)

theorem AttemptStep.keeps_attemptId {limits : MediaJobLimits} {current : StoredMediaJob}
    {attempt after : StoredMediaAttempt} {change : MediaChange} {bundle : Option ResultBundle}
    (h : AttemptStep limits current attempt change after bundle) :
    after.attemptId = attempt.attemptId := by
  cases h with
  | settle takes merges => split <;> rfl
  | recordCancellation =>
    dsimp only
    split <;> rfl
  | _ => rfl

/-- What `modify` has written. -/
theorem modifyMediaJob_eq_some {change : MediaChange} {now : Except MediaJobError String}
    {job written : StoredMediaJob}
    (h : modifyMediaJob options store jobId change now = .ok (job, some written)) :
    job = written ∧ ∃ stored changed, store.jobs.get? jobId = some stored ∧
      applyMediaChange options.limits options.adapters now stored change = .ok (some changed) ∧
      written = { changed with revision := stored.revision + 1 } ∧
      written.Captured options.limits ∧ written.jobId = stored.jobId := by
  unfold modifyMediaJob at h
  split at h
  · cases h
  rename_i stored hstored
  obtain ⟨result, happly, h⟩ := bind_eq_ok.1 h
  cases result with
  | none => simp [return_eq_ok] at h
  | some changed =>
    obtain ⟨_, hcaptured, h⟩ := bind_eq_ok.1 h
    obtain ⟨_, hsame, h⟩ := bind_eq_ok.1 h
    obtain ⟨rfl, hwritten⟩ := Prod.mk.inj (return_eq_ok.1 h)
    obtain rfl := Option.some.inj hwritten
    rw [demand_eq_ok, Bool.and_eq_true, decide_eq_true_eq] at hsame
    exact ⟨rfl, stored, changed, hstored, happly, rfl, captureStoredMediaJob_eq_ok.1 hcaptured,
      hsame.1⟩

/-- What `create` has written. -/
theorem createMediaJob_eq_ok {job : StoredMediaJob}
    (h : createMediaJob options store job = .ok next) :
    job.Captured options.limits ∧ store.jobs.get? job.jobId = none ∧
      next = ⟨store.jobs.set job.jobId job⟩ := by
  obtain ⟨_, hcaptured, h⟩ := bind_eq_ok.1 h
  obtain ⟨_, hnone, h⟩ := bind_eq_ok.1 h
  rw [demand_eq_ok, Option.isNone_iff_eq_none] at hnone
  exact ⟨captureStoredMediaJob_eq_ok.1 hcaptured, hnone, return_eq_ok.1 h⟩

/-- How the store answers an effect: it is left as it is, or one job is written. -/
theorem perform_store (h : (store.perform options e proposal).2 = next) :
    next = store ∨
      (∃ job, e = .create job ∧ job.Captured options.limits ∧
        store.jobs.get? job.jobId = none ∧ next = ⟨store.jobs.set job.jobId job⟩) ∨
      ∃ jobId change now job, e = .modify jobId change now ∧
        modifyMediaJob options store jobId change now = .ok (job, some job) ∧
        next = ⟨store.jobs.set jobId job⟩ := by
  cases e with
  | create job =>
    unfold MediaJobStore.perform at h
    dsimp only at h
    split at h
    · rename_i created hcreated
      subst h
      obtain ⟨hcaptured, hnone, rfl⟩ := createMediaJob_eq_ok hcreated
      exact .inr (.inl ⟨job, rfl, hcaptured, hnone, rfl⟩)
    · exact .inl h.symm
  | modify jobId change now =>
    unfold MediaJobStore.perform at h
    dsimp only at h
    split at h
    · exact .inl h.symm
    · rename_i job written hmodified
      obtain ⟨rfl, -⟩ := modifyMediaJob_eq_some hmodified
      exact .inr (.inr ⟨jobId, change, now, job, rfl, hmodified, h.symm⟩)
    · exact .inl h.symm
  | _ => exact .inl h.symm

theorem Sound.set {limits : MediaJobLimits} {job : StoredMediaJob} (hsound : store.Sound limits)
    (hcaptured : job.Captured limits) (hid : job.jobId = jobId) :
    MediaJobStore.Sound limits ⟨store.jobs.set jobId job⟩ := by
  intro jobId' job' hget
  rw [OrderedMap.get?_set] at hget
  split at hget
  · rename_i hsame
    obtain rfl := Option.some.inj hget
    exact ⟨hid.trans hsame, hcaptured⟩
  · exact hsound jobId' job' hget

/-- Every effect keeps the stored jobs captured. -/
theorem perform_sound (hsound : store.Sound options.limits)
    (h : (store.perform options e proposal).2 = next) : next.Sound options.limits := by
  rcases perform_store h with rfl | ⟨job, rfl, hcaptured, -, rfl⟩ |
    ⟨jobId, change, now, job, rfl, hmodified, rfl⟩
  · exact hsound
  · exact Sound.set hsound hcaptured rfl
  · obtain ⟨-, stored, changed, hstored, -, -, hcaptured, hid⟩ := modifyMediaJob_eq_some hmodified
    exact Sound.set hsound hcaptured (hid.trans (hsound jobId stored hstored).1)

/-- How an effect that the observer allows moves the stored attempts. -/
theorem perform_moves {phase : MediaPhase} (hsound : store.Sound options.limits)
    (hallows : (mediaObserver options.limits).allows phase e)
    (h : (store.perform options e proposal).2 = next) :
    AttemptsMove options.limits store next e := by
  rcases perform_store h with rfl | ⟨job, rfl, -, hnone, rfl⟩ |
    ⟨jobId, change, now, job, rfl, hmodified, rfl⟩
  · exact .same fun _ _ => rfl
  · -- a new job has one new attempt
    obtain ⟨recordedAt, attemptId, submissionKey, hattempts, -⟩ := hallows
    refine .added job.jobId 0 recordedAt attemptId submissionKey ?_ fun jobId' id => ?_
    · rw [MediaJobStore.attempt?, hnone, Option.bind_none]
    · rw [attempt?_set]
      by_cases hjob : jobId' = job.jobId
      · subst hjob
        rw [if_pos rfl, MediaJobStore.attempt?, hnone, StoredMediaJob.attempt?, hattempts]
        by_cases hid : id = attemptId
        · subst hid
          simp [newAttempt]
        · simp [newAttempt, hid, Ne.symm hid]
      · rw [if_neg hjob, if_neg fun hboth => hjob hboth.1]
  · obtain ⟨-, stored, changed, hstored, happly, rfl, -, -⟩ := modifyMediaJob_eq_some hmodified
    have hold : ∀ id, store.attempt? jobId id = stored.attempt? id := by
      intro id
      rw [MediaJobStore.attempt?, hstored, Option.bind_some]
    rcases applyMediaChange_eq_some happly with hchanged | hadded
    · obtain ⟨attempt, after, bundle, updatedAt, hselected, hstep, -, rfl⟩ := hchanged
      refine .changed hstored hselected hstep updatedAt fun jobId' id => ?_
      have hid : StoredMediaAttempt.attemptId { after with updatedAt := updatedAt } =
          attempt.attemptId := hstep.keeps_attemptId
      have hfound := attempt?_replaceAttempt (attempt?_of_select hselected) hid id
      rw [attempt?_set]
      by_cases hjob : jobId' = jobId
      · subst hjob
        rw [if_pos rfl, hold]
        simp only [true_and]
        exact hfound
      · rw [if_neg hjob, if_neg fun hboth => hjob hboth.1]
    · obtain ⟨expectedRevision, attemptId, submissionKey, recordedAt, rfl, -, hfresh, -, rfl⟩ :=
        hadded
      have hnone : stored.attempt? attemptId = none := by
        refine List.find?_eq_none.2 fun candidate hmem => ?_
        simpa using (hfresh candidate hmem).1
      refine .added jobId stored.attempts.length recordedAt attemptId submissionKey
        ((hold _).trans hnone) fun jobId' id => ?_
      rw [attempt?_set]
      by_cases hjob : jobId' = jobId
      · subst hjob
        rw [if_pos rfl, hold]
        simp only [true_and, StoredMediaJob.attempt?, List.find?_append]
        by_cases hid : id = attemptId
        · subst hid
          rw [if_pos rfl]
          change (stored.attempt? id).or _ = _
          rw [hnone]
          simp [newAttempt]
        · rw [if_neg hid]
          simp [newAttempt, Ne.symm hid]
      · rw [if_neg hjob, if_neg fun hboth => hjob hboth.1]

/-! ## Runs -/

/-- Some calls on the service, and how far they have got. -/
abbrev MediaConfig (options : MediaJobServiceOptions) :=
  Config (mediaService options) MediaPhase

/-- The calls of a run from an empty store, behind some of their steps. -/
def mediaRun (options : MediaJobServiceOptions) (labels : List (Label (mediaService options))) :
    MediaConfig options :=
  Config.run (mediaObserver options.limits) ⟨.empty, []⟩ labels

/-- The store behind a run. -/
def storeAfter (options : MediaJobServiceOptions) (labels : List (Label (mediaService options))) :
    MediaJobStore :=
  (mediaRun options labels).state.store

theorem mediaRun_append (earlier later : List (Label (mediaService options))) :
    mediaRun options (earlier ++ later) =
      (mediaRun options earlier).run (mediaObserver options.limits) later :=
  Config.run_append _ _ _

/-- All stored jobs are captured. -/
def StoredSound (options : MediaJobServiceOptions) (shared : SharedMedia)
    (_ : List (Unit × MediaPhase)) : Prop :=
  shared.store.Sound options.limits

theorem sound_invariant : (mediaService options).Invariant (mediaObserver options.limits)
    (fun _ _ _ _ => True) (StoredSound options) where
  body _ method := follows_mediaBody method
  call _ _ _ h := h
  perform _ _ _ _ _ _ _ h _ _ _ := perform_sound h rfl

/-- Along every run all stored jobs are captured. -/
theorem mediaRun_keeps (labels : List (Label (mediaService options))) :
    (mediaRun options labels).Keeps (mediaObserver options.limits) (StoredSound options) := by
  refine Config.run_keeps sound_invariant ⟨?_, ?_⟩
    (Config.runMeets_of_forall (fun _ _ _ _ => trivial) _ _)
  · intro thread hmem
    cases hmem
  · intro jobId job hget
    cases hget

end OpenGameAgent
