import OpenGameAgent.Memory.UsearchMemoryIndex

/-!
# What a restored index holds

Every index that is live under a revision, and every file on disk, comes from a call of `replace`
that carried a revision (`Consistent`): the snapshot has the bytes of the index of one such call,
and the metadata the digests of one.  Between the two renames they are of different calls, and then
the digest of the file tells them apart.  A step touches the files and the state of one partition
(`Within`), and keeps the invariant there (`step_sound`).

* `restored_index_is_named` — `restore` and `checkpoint` answer true only where the index is that of
  a `replace` with the revision, and otherwise leave the index as they found it.
-/

namespace OpenGameAgent.UsearchMemory

variable {C I V : Type} {usearch : Usearch C I V} {sha : Sha256}
  {revisions : Set Units} {contents : Set (List UInt8)} {w w' w'' : World C I V}
  {p q : MemoryIndexPartition} {key : SnapshotKey C} {revision : Units} {index : I}

/-! ## The invariant -/

/-- The index is that of a call of `replace` that carried the revision. -/
def Named (usearch : Usearch C I V) (w : World C I V) (key : SnapshotKey C) (revision : Units)
    (index : I) : Prop :=
  ∃ entries, (key, revision, entries) ∈ w.replaced ∧
    build usearch key.configuration entries = some index

/-- What is live under a revision comes from a `replace`, and what is ready is live. -/
structure LiveSound (usearch : Usearch C I V) (w : World C I V) (key : SnapshotKey C)
    (state : PartitionState I) : Prop where
  named : ∀ revision, state.revision = some revision → Named usearch w key revision state.index
  ready : ∀ revision, state.readyRevision = some revision → state.revision = some revision

/-- What a call of `restore` has found so far. -/
def RestoreSound (usearch : Usearch C I V) (sha : Sha256) (w : World C I V) (key : SnapshotKey C)
    (revision : Units) : RestoreStage → Prop
  | .path | .statMetadata | .readMetadata => True
  | .statSnapshot expected | .digestSnapshot expected =>
    ∃ index, Named usearch w key revision index ∧
      expected = (sha.fileDigest (usearch.save index)).toList
  | .load => ∃ index, Named usearch w key revision index ∧
      w.disk (.snapshot key) = some (usearch.save index)

/-- What a call of `checkpoint` has written so far. -/
def CheckpointSound (usearch : Usearch C I V) (sha : Sha256) (w : World C I V) (key : SnapshotKey C)
    (revision : Units) (state : PartitionState I) (uuid : ℕ) : CheckpointStage → Prop
  | .path | .create | .save => state.revision = some revision
  | .measure | .digest =>
    state.revision = some revision ∧
      w.disk (.temporary key uuid) = some (usearch.save state.index)
  | .writeMetadata fileDigest =>
    state.revision = some revision ∧
      w.disk (.temporary key uuid) = some (usearch.save state.index) ∧
      fileDigest = sha.fileDigest (usearch.save state.index)
  | .publish =>
    state.revision = some revision ∧
      w.disk (.temporary key uuid) = some (usearch.save state.index) ∧
      w.disk (.temporaryMetadata key uuid) = some (encodeUtf8
        (metadataText sha revision (sha.fileDigest (usearch.save state.index))))
  | .publishMetadata =>
    state.revision = some revision ∧
      w.disk (.temporaryMetadata key uuid) = some (encodeUtf8
        (metadataText sha revision (sha.fileDigest (usearch.save state.index))))
  | .removeTemporary result | .removeTemporaryMetadata result =>
    result = .returned true → state.revision = some revision

def WorkSound (usearch : Usearch C I V) (sha : Sha256) (w : World C I V) (key : SnapshotKey C)
    (revision : Units) (state : PartitionState I) : Work → Prop
  | .restore stage => RestoreSound usearch sha w key revision stage
  | .checkpoint uuid stage => CheckpointSound usearch sha w key revision state uuid stage

/-- A running call has left the index as it found it. -/
structure TaskSound (usearch : Usearch C I V) (sha : Sha256) (revisions : Set Units)
    (w : World C I V) (p : MemoryIndexPartition) (task : Task I) : Prop where
  revision : task.revision ∈ revisions
  state : ∃ state, w.partitions p = some state ∧ state.index = task.before ∧
    WorkSound usearch sha w (w.key p) task.revision state task.work

def SnapshotSound (usearch : Usearch C I V) (w : World C I V) (key : SnapshotKey C) : Prop :=
  ∀ bytes, w.disk (.snapshot key) = some bytes →
    ∃ revision index, Named usearch w key revision index ∧ bytes = usearch.save index

def MetadataSound (usearch : Usearch C I V) (sha : Sha256) (w : World C I V)
    (key : SnapshotKey C) : Prop :=
  ∀ bytes, w.disk (.metadata key) = some bytes →
    ∃ revision index, Named usearch w key revision index ∧
      bytes = encodeUtf8 (metadataText sha revision (sha.fileDigest (usearch.save index)))

/-- The calls of `replace` are among those the hashes tell apart. -/
def ReplacedSound (usearch : Usearch C I V) (revisions : Set Units) (contents : Set (List UInt8))
    (w : World C I V) : Prop :=
  ∀ key revision index, Named usearch w key revision index →
    revision ∈ revisions ∧ usearch.save index ∈ contents

structure Consistent (usearch : Usearch C I V) (sha : Sha256) (revisions : Set Units)
    (contents : Set (List UInt8)) (w : World C I V) : Prop where
  replaced : ReplacedSound usearch revisions contents w
  snapshot : ∀ key, SnapshotSound usearch w key
  metadata : ∀ key, MetadataSound usearch sha w key
  live : ∀ p state, w.partitions p = some state → LiveSound usearch w (w.key p) state
  tasks : ∀ p task, w.running p = some task → TaskSound usearch sha revisions w p task

/-! ## One partition at a time -/

/-- A step that touches one partition and the files of its snapshot. -/
structure Within (w w' : World C I V) (p : MemoryIndexPartition) : Prop where
  options : w'.options = w.options
  partitions : ∀ q, q ≠ p → w'.partitions q = w.partitions q
  running : ∀ q, q ≠ p → w'.running q = w.running q
  disk : ∀ path : FilePath C, path.key ≠ w.key p → w'.disk path = w.disk path
  replaced : ∀ entry ∈ w.replaced, entry ∈ w'.replaced

theorem key_inj (h : w.key p = w.key q) : p = q := congrArg SnapshotKey.partition h

theorem Within.sameKey (h : Within w w' p) (q : MemoryIndexPartition) : w'.key q = w.key q := by
  rw [World.key, World.key, h.options]

theorem Within.refl (w : World C I V) (p : MemoryIndexPartition) : Within w w p :=
  ⟨rfl, fun _ _ => rfl, fun _ _ => rfl, fun _ _ => rfl, fun _ h => h⟩

theorem Within.trans (h : Within w w' p) (h' : Within w' w'' p) : Within w w'' p := by
  refine ⟨h'.options.trans h.options, ?_, ?_, ?_, fun entry hentry =>
    h'.replaced entry (h.replaced entry hentry)⟩
  · exact fun q hq => (h'.partitions q hq).trans (h.partitions q hq)
  · exact fun q hq => (h'.running q hq).trans (h.running q hq)
  · intro path hpath
    exact (h'.disk path (by rwa [h.sameKey])).trans (h.disk path hpath)

theorem within_put (w : World C I V) (p : MemoryIndexPartition) (state : PartitionState I) :
    Within w (w.put p state) p :=
  ⟨rfl, fun _ hq => Function.update_of_ne hq _ _, fun _ _ => rfl, fun _ _ => rfl, fun _ h => h⟩

theorem within_work (w : World C I V) (p : MemoryIndexPartition) (task : Option (Task I)) :
    Within w (w.work p task) p :=
  ⟨rfl, fun _ _ => rfl, fun _ hq => Function.update_of_ne hq _ _, fun _ _ => rfl, fun _ h => h⟩

theorem within_write [DecidableEq C] (w : World C I V) {path : FilePath C} (h : path.key = w.key p)
    (bytes : Option (List UInt8)) : Within w (w.write path bytes) p := by
  refine ⟨rfl, fun _ _ => rfl, fun _ _ => rfl, fun other hother => ?_, fun _ h => h⟩
  have hne : other ≠ path := by
    rintro rfl
    exact hother h
  exact Function.update_of_ne hne _ _

theorem Named.mono (h : ∀ entry ∈ w.replaced, entry ∈ w'.replaced)
    (hnamed : Named usearch w key revision index) : Named usearch w' key revision index := by
  obtain ⟨entries, hentries, hbuild⟩ := hnamed
  exact ⟨entries, h _ hentries, hbuild⟩

theorem LiveSound.mono {state : PartitionState I} (h : ∀ entry ∈ w.replaced, entry ∈ w'.replaced)
    (hlive : LiveSound usearch w key state) : LiveSound usearch w' key state :=
  ⟨fun revision hrevision => (hlive.named revision hrevision).mono h, hlive.ready⟩

@[simp] theorem running_work_self (w : World C I V) (p : MemoryIndexPartition)
    (task : Option (Task I)) : (w.work p task).running p = task :=
  Function.update_self ..

@[simp] theorem partitions_put_self (w : World C I V) (p : MemoryIndexPartition)
    (state : PartitionState I) : (w.put p state).partitions p = some state :=
  Function.update_self ..

/-- What is asked of one partition. -/
structure LocalSound (usearch : Usearch C I V) (sha : Sha256) (revisions : Set Units)
    (w : World C I V) (p : MemoryIndexPartition) : Prop where
  snapshot : SnapshotSound usearch w (w.key p)
  metadata : MetadataSound usearch sha w (w.key p)
  live : ∀ state, w.partitions p = some state → LiveSound usearch w (w.key p) state
  tasks : ∀ task, w.running p = some task → TaskSound usearch sha revisions w p task

theorem WorkSound.mono {state : PartitionState I} {work : Work}
    (hdisk : ∀ path : FilePath C, path.key = key → w'.disk path = w.disk path)
    (hreplaced : ∀ entry ∈ w.replaced, entry ∈ w'.replaced)
    (h : WorkSound usearch sha w key revision state work) :
    WorkSound usearch sha w' key revision state work := by
  have htemporary : ∀ uuid, w'.disk (.temporary key uuid) = w.disk (.temporary key uuid) :=
    fun uuid => hdisk _ rfl
  have hmetadata : ∀ uuid,
      w'.disk (.temporaryMetadata key uuid) = w.disk (.temporaryMetadata key uuid) :=
    fun uuid => hdisk _ rfl
  cases work with
  | restore stage =>
    cases stage with
    | path => exact h
    | statMetadata => exact h
    | readMetadata => exact h
    | statSnapshot expected =>
      obtain ⟨index, hnamed, hexpected⟩ := h
      exact ⟨index, hnamed.mono hreplaced, hexpected⟩
    | digestSnapshot expected =>
      obtain ⟨index, hnamed, hexpected⟩ := h
      exact ⟨index, hnamed.mono hreplaced, hexpected⟩
    | load =>
      obtain ⟨index, hnamed, hfile⟩ := h
      exact ⟨index, hnamed.mono hreplaced, (hdisk (.snapshot key) rfl).trans hfile⟩
  | checkpoint uuid stage =>
    cases stage <;> simpa only [WorkSound, CheckpointSound, htemporary, hmetadata] using h

/-- A step within one partition keeps the invariant when it keeps it there. -/
theorem Consistent.within (h : Consistent usearch sha revisions contents w) (hw : Within w w' p)
    (hreplaced : ReplacedSound usearch revisions contents w')
    (hlocal : LocalSound usearch sha revisions w' p) :
    Consistent usearch sha revisions contents w' := by
  refine ⟨hreplaced, fun key => ?_, fun key => ?_, fun q state hstate => ?_, fun q task htask => ?_⟩
  · by_cases hkey : key = w.key p
    · rw [hkey, ← hw.sameKey]
      exact hlocal.snapshot
    · intro bytes hbytes
      rw [hw.disk (.snapshot key) hkey] at hbytes
      obtain ⟨revision, index, hnamed, hsave⟩ := h.snapshot key bytes hbytes
      exact ⟨revision, index, hnamed.mono hw.replaced, hsave⟩
  · by_cases hkey : key = w.key p
    · rw [hkey, ← hw.sameKey]
      exact hlocal.metadata
    · intro bytes hbytes
      rw [hw.disk (.metadata key) hkey] at hbytes
      obtain ⟨revision, index, hnamed, htext⟩ := h.metadata key bytes hbytes
      exact ⟨revision, index, hnamed.mono hw.replaced, htext⟩
  · by_cases hq : q = p
    · subst hq
      exact hlocal.live state hstate
    · rw [hw.partitions q hq] at hstate
      rw [hw.sameKey]
      exact (h.live q state hstate).mono hw.replaced
  · by_cases hq : q = p
    · subst hq
      exact hlocal.tasks task htask
    · rw [hw.running q hq] at htask
      obtain ⟨hrevision, state, hstate, hbefore, hwork⟩ := h.tasks q task htask
      refine ⟨hrevision, state, (hw.partitions q hq).trans hstate, hbefore, ?_⟩
      rw [hw.sameKey]
      refine hwork.mono (fun path hpath => hw.disk path ?_) hw.replaced
      rw [hpath]
      exact fun hsame => hq (key_inj hsame)

/-! ## The rules of a call -/

/-- What the file-system call of a task may do: within its partition, it leaves the published files
those of calls of `replace`. -/
structure Leaves (usearch : Usearch C I V) (sha : Sha256) (w w' : World C I V)
    (p : MemoryIndexPartition) : Prop where
  within : Within w w' p
  replaced : w'.replaced = w.replaced
  snapshot : SnapshotSound usearch w' (w.key p)
  metadata : MetadataSound usearch sha w' (w.key p)

theorem Consistent.leaves (h : Consistent usearch sha revisions contents w)
    (p : MemoryIndexPartition) : Leaves usearch sha w w p :=
  ⟨Within.refl w p, rfl, h.snapshot _, h.metadata _⟩

theorem Leaves.put (h : Leaves usearch sha w w' p) (state : PartitionState I) :
    Leaves usearch sha w (w'.put p state) p :=
  ⟨h.within.trans (within_put w' p state), h.replaced, h.snapshot, h.metadata⟩

/-- A call goes on, or has ended, behind a step within its partition. -/
theorem Consistent.works (h : Consistent usearch sha revisions contents w)
    (hw : Leaves usearch sha w w' p) {running : Option (Task I)}
    (hlive : ∀ state, w'.partitions p = some state → LiveSound usearch w (w.key p) state)
    (htask : ∀ task, running = some task → TaskSound usearch sha revisions w' p task) :
    Consistent usearch sha revisions contents (w'.work p running) := by
  have hwithin : Within w (w'.work p running) p := hw.within.trans (within_work w' p _)
  have hsame : ∀ entry ∈ w.replaced, entry ∈ (w'.work p running).replaced := by
    intro entry hentry
    show entry ∈ w'.replaced
    rwa [hw.replaced]
  refine h.within hwithin ?_ ⟨?_, ?_, ?_, ?_⟩
  · intro key revision index hnamed
    exact h.replaced key revision index (hnamed.mono fun entry hentry => hw.replaced ▸ hentry)
  · rw [hwithin.sameKey]
    exact hw.snapshot
  · rw [hwithin.sameKey]
    exact hw.metadata
  · intro state hstate
    rw [hwithin.sameKey]
    exact (hlive state hstate).mono hsame
  · intro task hrunning
    rw [running_work_self] at hrunning
    obtain ⟨hrevision, state, hstate, hbefore, hwork⟩ := htask task hrunning
    exact ⟨hrevision, state, hstate, hbefore, hwork.mono (fun _ _ => rfl) fun _ hentry => hentry⟩

/-- What is said of an answer, in the world right after it. -/
structure AnswerSound (usearch : Usearch C I V) (w : World C I V) (answer : Answer I) : Prop where
  named : answer.result = .returned true → Named usearch w (w.key answer.partition) answer.revision
    (w.getOrCreate usearch answer.partition).index
  unchanged : answer.result ≠ .returned true →
    (w.getOrCreate usearch answer.partition).index = answer.before

/-- What a step leaves. -/
def StepSound (usearch : Usearch C I V) (sha : Sha256) (revisions : Set Units)
    (contents : Set (List UInt8)) (stepped : World C I V × Option (Answer I)) : Prop :=
  Consistent usearch sha revisions contents stepped.1 ∧
    ∀ answer, stepped.2 = some answer → AnswerSound usearch stepped.1 answer

theorem getOrCreate_of_some {state : PartitionState I} (h : w.partitions p = some state) :
    w.getOrCreate usearch p = state := by
  rw [World.getOrCreate, h]
  rfl

/-- A call that does not answer true has left the index as it found it. -/
theorem Consistent.refuses (h : Consistent usearch sha revisions contents w)
    (hw : Leaves usearch sha w w' p)
    (hlive : ∀ state, w'.partitions p = some state → LiveSound usearch w (w.key p) state)
    {task : Task I} (hbefore : (w'.getOrCreate usearch p).index = task.before) (result : CallResult)
    (hresult : result ≠ .returned true) :
    StepSound usearch sha revisions contents (finish w' p task result) := by
  refine ⟨h.works hw hlive nofun, ?_⟩
  rintro answer ⟨⟩
  exact ⟨fun htrue => absurd htrue hresult, fun _ => hbefore⟩

/-- A call that answers true, with the index it leaves live under its revision. -/
theorem Consistent.answers (h : Consistent usearch sha revisions contents w)
    (hw : Leaves usearch sha w w' p) {state : PartitionState I}
    (hstate : w'.partitions p = some state) (hlive : LiveSound usearch w (w.key p) state)
    {task : Task I} (hrevision : state.revision = some task.revision) :
    StepSound usearch sha revisions contents (finish w' p task (.returned true)) := by
  refine ⟨h.works hw (fun other hother => ?_) nofun, ?_⟩
  · obtain rfl := Option.some.inj (hstate.symm.trans hother)
    exact hlive
  · rintro answer ⟨⟩
    refine ⟨fun _ => ?_, fun hfalse => absurd rfl hfalse⟩
    have hfound : (w'.work p none).getOrCreate usearch p = state := getOrCreate_of_some hstate
    have hkey : (w'.work p none).key p = w.key p := hw.within.sameKey p
    show Named usearch (w'.work p none) ((w'.work p none).key p) task.revision
      ((w'.work p none).getOrCreate usearch p).index
    rw [hfound, hkey]
    exact (hlive.named _ hrevision).mono fun entry hentry =>
      show entry ∈ w'.replaced from hw.replaced ▸ hentry

/-! ## Restoring -/

theorem length_digest (h : isSha256 text = true) : text.toList.length = 64 := by
  simp only [isSha256, areSha256Digits, Bool.and_eq_true, decide_eq_true_eq] at h
  exact h.1

/-- What is read back of a metadata file. -/
theorem read_metadataText (sha : Sha256) (revision : Units) (bytes : List UInt8) :
    (decodeUtf8 (encodeUtf8 (metadataText sha revision (sha.fileDigest bytes)))).take 64 =
        (sha.digest revision).toList ∧
      (decodeUtf8 (encodeUtf8 (metadataText sha revision (sha.fileDigest bytes)))).drop 65 =
        (sha.fileDigest bytes).toList := by
  have hlength := length_digest (sha.digest_hex revision)
  rw [decodeUtf8_encodeUtf8, metadataText]
  constructor
  · rw [← hlength, List.take_left]
  · rw [show 65 = 64 + 1 from rfl, ← List.drop_drop, ← hlength, List.drop_left]
    rfl

/-- What is said of the next stage of `restore`, or of the index that it has loaded. -/
def ProgressSound (usearch : Usearch C I V) (sha : Sha256) (w : World C I V) (key : SnapshotKey C)
    (revision : Units) : RestoreProgress I → Prop
  | .goesOn next => RestoreSound usearch sha w key revision next
  | .refused => True
  | .loaded index => Named usearch w key revision index

/-- What a call of `restore` finds is of the `replace` that its revision names. -/
theorem restoreStage_sound (idealDigest : Set.InjOn sha.digest revisions)
    (idealFiles : Set.InjOn sha.fileDigest contents)
    (h : Consistent usearch sha revisions contents w) (hrevision : revision ∈ revisions)
    {stage : RestoreStage} (hsound : RestoreSound usearch sha w key revision stage) :
    ProgressSound usearch sha w key revision (restoreStage usearch sha w key revision stage) := by
  cases stage with
  | path => trivial
  | statMetadata =>
    rw [restoreStage]
    split
    · trivial
    · split <;> trivial
  | readMetadata =>
    rw [restoreStage]
    split
    · trivial
    · rename_i bytes hbytes
      dsimp only
      split
      · rename_i hread
        obtain ⟨written, index, hnamed, rfl⟩ := h.metadata key bytes hbytes
        obtain ⟨htake, hdrop⟩ := read_metadataText sha written (usearch.save index)
        have hsame : sha.digest written = sha.digest revision :=
          String.toList_injective (htake.symm.trans hread.2)
        have hwritten : written = revision :=
          idealDigest (h.replaced _ _ _ hnamed).1 hrevision hsame
        subst hwritten
        exact ⟨index, hnamed, hdrop⟩
      · trivial
  | statSnapshot expected =>
    rw [restoreStage]
    split
    · trivial
    · split
      · trivial
      · exact hsound
  | digestSnapshot expected =>
    rw [restoreStage]
    split
    · trivial
    · rename_i bytes hbytes
      split
      · rename_i hdigest
        obtain ⟨index, hnamed, hexpected⟩ := hsound
        obtain ⟨other, found, hfound, rfl⟩ := h.snapshot key bytes hbytes
        have hsame : sha.fileDigest (usearch.save found) = sha.fileDigest (usearch.save index) :=
          String.toList_injective (hdigest.trans hexpected)
        have hsave : usearch.save found = usearch.save index :=
          idealFiles (h.replaced _ _ _ hfound).2 (h.replaced _ _ _ hnamed).2 hsame
        exact ⟨index, hnamed, hsave ▸ hbytes⟩
      · trivial
  | load =>
    obtain ⟨index, hnamed, hfile⟩ := hsound
    rw [restoreStage, hfile]
    simp only [usearch.load_save]
    split
    · trivial
    · exact hnamed

theorem advanceRestore_sound (idealDigest : Set.InjOn sha.digest revisions)
    (idealFiles : Set.InjOn sha.fileDigest contents)
    (h : Consistent usearch sha revisions contents w) {task : Task I}
    (htask : w.running p = some task) {stage : RestoreStage} (hwork : task.work = .restore stage)
    (outcome : Outcome) :
    StepSound usearch sha revisions contents
      (advanceRestore usearch sha w p task stage outcome) := by
  obtain ⟨hrevision, state, hstate, hbefore, hsound⟩ := h.tasks p task htask
  rw [hwork] at hsound
  have hfound : (w.getOrCreate usearch p).index = task.before := by
    rw [getOrCreate_of_some hstate]
    exact hbefore
  cases outcome with
  | error => exact h.refuses (h.leaves p) (h.live p) hfound .failed (by decide)
  | missing =>
    cases stage with
    | path => exact h.refuses (h.leaves p) (h.live p) hfound .failed (by decide)
    | _ => exact h.refuses (h.leaves p) (h.live p) hfound (.returned false) (by decide)
  | done =>
    have hstage := restoreStage_sound idealDigest idealFiles h hrevision hsound
    rw [advanceRestore]
    cases hprogress : restoreStage usearch sha w (w.key p) task.revision stage with
    | goesOn next =>
      rw [hprogress] at hstage
      refine ⟨h.works (h.leaves p) (h.live p) ?_, fun answer hanswer => nomatch hanswer⟩
      rintro other ⟨⟩
      exact ⟨hrevision, state, hstate, hbefore, hstage⟩
    | refused => exact h.refuses (h.leaves p) (h.live p) hfound (.returned false) (by decide)
    | loaded index =>
      rw [hprogress] at hstage
      refine h.answers ((h.leaves p).put _) (partitions_put_self w p _) ⟨?_, ?_⟩ rfl
      · rintro revision ⟨⟩
        exact hstage
      · exact fun revision hready => hready

/-! ## Publishing -/

/-- What a stage of `checkpoint` leaves: the files of one partition, and where the call stands. -/
structure StageSound (usearch : Usearch C I V) (sha : Sha256) (w w' : World C I V)
    (p : MemoryIndexPartition) (revision : Units) (state : PartitionState I) (uuid : ℕ)
    (next : CheckpointStage) : Prop where
  leaves : Leaves usearch sha w w' p
  partitions : w'.partitions = w.partitions
  goesOn : CheckpointSound usearch sha w' (w.key p) revision state uuid next

/-- A stage that reads. -/
theorem Consistent.reads (h : Consistent usearch sha revisions contents w)
    {state : PartitionState I} {uuid : ℕ} {next : CheckpointStage}
    (hnext : CheckpointSound usearch sha w (w.key p) revision state uuid next) :
    StageSound usearch sha w w p revision state uuid next :=
  ⟨h.leaves p, rfl, hnext⟩

/-- A stage that throws leaves the files alone, and the call cleans up or fails. -/
theorem checkpointThrows_sound {state : PartitionState I} {uuid : ℕ} {stage next : CheckpointStage}
    (hnext : checkpointThrows stage = some next) :
    CheckpointSound usearch sha w key revision state uuid next := by
  cases stage <;> cases hnext <;> intro hresult <;> cases hresult

@[simp] theorem checkpointReady_index (state : PartitionState I) (revision : Units)
    (stage : CheckpointStage) : (checkpointReady state revision stage).index = state.index := by
  cases stage <;> rfl

@[simp] theorem checkpointReady_revision (state : PartitionState I) (revision : Units)
    (stage : CheckpointStage) :
    (checkpointReady state revision stage).revision = state.revision := by
  cases stage <;> rfl

theorem checkpointReady_live {state : PartitionState I} (hlive : LiveSound usearch w key state)
    {uuid : ℕ} {stage : CheckpointStage}
    (hsound : CheckpointSound usearch sha w key revision state uuid stage) :
    LiveSound usearch w key (checkpointReady state revision stage) := by
  cases stage with
  | publishMetadata =>
    refine ⟨hlive.named, ?_⟩
    rintro other ⟨⟩
    exact hsound.1
  | _ => exact hlive

/-- What is asked of a stage reads the index of the state and its revision. -/
theorem CheckpointSound.of_state {state state' : PartitionState I} {uuid : ℕ}
    {stage : CheckpointStage} (hindex : state'.index = state.index)
    (hrevision : state'.revision = state.revision)
    (h : CheckpointSound usearch sha w key revision state uuid stage) :
    CheckpointSound usearch sha w key revision state' uuid stage := by
  cases stage <;> simpa only [CheckpointSound, hindex, hrevision] using h

variable [DecidableEq C]

theorem disk_write_self (w : World C I V) (path : FilePath C) (bytes : Option (List UInt8)) :
    (w.write path bytes).disk path = bytes :=
  Function.update_self ..

theorem disk_write_of_ne (w : World C I V) {path other : FilePath C} (h : other ≠ path)
    (bytes : Option (List UInt8)) : (w.write path bytes).disk other = w.disk other :=
  Function.update_of_ne h _ _

theorem SnapshotSound.write (h : SnapshotSound usearch w key) {path : FilePath C}
    (hne : .snapshot key ≠ path) (bytes : Option (List UInt8)) :
    SnapshotSound usearch (w.write path bytes) key := by
  intro found hfound
  rw [disk_write_of_ne w hne] at hfound
  exact h found hfound

theorem MetadataSound.write (h : MetadataSound usearch sha w key) {path : FilePath C}
    (hne : .metadata key ≠ path) (bytes : Option (List UInt8)) :
    MetadataSound usearch sha (w.write path bytes) key := by
  intro found hfound
  rw [disk_write_of_ne w hne] at hfound
  exact h found hfound

/-- The files that are not the published two. -/
def FilePath.isTemporary : FilePath C → Prop
  | .temporary _ _ | .temporaryMetadata _ _ => True
  | .snapshot _ | .metadata _ => False

/-- A stage that leaves the published files alone. -/
theorem Consistent.stage (h : Consistent usearch sha revisions contents w)
    {state : PartitionState I} {uuid : ℕ} {next : CheckpointStage} (path : FilePath C)
    (hkey : path.key = w.key p) (htemporary : path.isTemporary) (bytes : Option (List UInt8))
    (hnext : CheckpointSound usearch sha (w.write path bytes) (w.key p) revision state uuid next) :
    StageSound usearch sha w (w.write path bytes) p revision state uuid next := by
  have hsnapshot : .snapshot (w.key p) ≠ path := by
    rintro rfl
    exact htemporary
  have hmetadata : .metadata (w.key p) ≠ path := by
    rintro rfl
    exact htemporary
  exact ⟨⟨within_write w hkey bytes, rfl, (h.snapshot _).write hsnapshot bytes,
    (h.metadata _).write hmetadata bytes⟩, rfl, hnext⟩

/-- Every stage of `checkpoint` leaves the files of one `replace` in place, first the snapshot and
then its metadata. -/
theorem checkpointStage_sound (h : Consistent usearch sha revisions contents w)
    {state : PartitionState I} (hlive : LiveSound usearch w (w.key p) state) {uuid : ℕ}
    {stage next : CheckpointStage}
    (hsound : CheckpointSound usearch sha w (w.key p) revision state uuid stage)
    (hstep : checkpointStage usearch sha w (w.key p) revision state.index uuid stage =
      some (w', next)) :
    StageSound usearch sha w w' p revision state uuid next := by
  cases stage with
  | path =>
    cases hstep
    exact h.reads hsound
  | create =>
    rw [checkpointStage] at hstep
    split at hstep
    · cases hstep
    · cases hstep
      exact h.stage (.temporary (w.key p) uuid) rfl trivial _ hsound
  | save =>
    cases hstep
    exact h.stage (.temporary (w.key p) uuid) rfl trivial _ ⟨hsound, disk_write_self ..⟩
  | measure =>
    rw [checkpointStage, hsound.2] at hstep
    dsimp only at hstep
    split at hstep
    · cases hstep
    · cases hstep
      exact h.reads hsound
  | digest =>
    rw [checkpointStage, hsound.2] at hstep
    cases hstep
    exact h.reads ⟨hsound.1, hsound.2, rfl⟩
  | writeMetadata fileDigest =>
    obtain ⟨hrevision, hfile, rfl⟩ := hsound
    rw [checkpointStage] at hstep
    split at hstep
    · cases hstep
    · cases hstep
      refine h.stage (.temporaryMetadata (w.key p) uuid) rfl trivial _
        ⟨hrevision, ?_, disk_write_self ..⟩
      exact (disk_write_of_ne w (by simp) _).trans hfile
  | publish =>
    obtain ⟨hrevision, hfile, hmeta⟩ := hsound
    rw [checkpointStage, hfile] at hstep
    cases hstep
    refine ⟨⟨(within_write w rfl _).trans (within_write _ rfl _), rfl, ?_, ?_⟩, rfl, hrevision, ?_⟩
    · refine SnapshotSound.write ?_ (by simp) none
      intro bytes hbytes
      rw [disk_write_self] at hbytes
      cases hbytes
      exact ⟨revision, state.index, hlive.named revision hrevision, rfl⟩
    · exact ((h.metadata _).write (by simp) _).write (by simp) none
    · exact (disk_write_of_ne _ (by simp) _).trans ((disk_write_of_ne w (by simp) _).trans hmeta)
  | publishMetadata =>
    obtain ⟨hrevision, hmeta⟩ := hsound
    rw [checkpointStage, hmeta] at hstep
    cases hstep
    refine ⟨⟨(within_write w rfl _).trans (within_write _ rfl _), rfl, ?_, ?_⟩, rfl,
      fun _ => hrevision⟩
    · exact ((h.snapshot _).write (by simp) _).write (by simp) none
    · refine MetadataSound.write ?_ (by simp) none
      intro bytes hbytes
      rw [disk_write_self] at hbytes
      cases hbytes
      exact ⟨revision, state.index, hlive.named revision hrevision, rfl⟩
  | removeTemporary result =>
    cases hstep
    exact h.stage (.temporary (w.key p) uuid) rfl trivial _ hsound
  | removeTemporaryMetadata result =>
    cases hstep
    exact h.stage (.temporaryMetadata (w.key p) uuid) rfl trivial _ hsound

theorem advanceCheckpoint_sound (h : Consistent usearch sha revisions contents w) {task : Task I}
    (htask : w.running p = some task) {uuid : ℕ} {stage : CheckpointStage}
    (hwork : task.work = .checkpoint uuid stage) (outcome : Outcome) :
    StepSound usearch sha revisions contents
      (advanceCheckpoint usearch sha w p task uuid stage outcome) := by
  obtain ⟨hrevision, state, hstate, hbefore, hsound⟩ := h.tasks p task htask
  rw [hwork] at hsound
  have hfound : (w.getOrCreate usearch p).index = task.before := by
    rw [getOrCreate_of_some hstate]
    exact hbefore
  have hlive := h.live p state hstate
  have hthrows : StepSound usearch sha revisions contents
      (advanceCheckpoint usearch sha w p task uuid stage .missing) := by
    unfold advanceCheckpoint
    dsimp only
    split
    · rename_i next hnext
      refine ⟨h.works (h.leaves p) (h.live p) ?_, by simp [World.work]⟩
      rintro other ⟨⟩
      exact ⟨hrevision, state, hstate, hbefore, checkpointThrows_sound hnext⟩
    · exact h.refuses (h.leaves p) (h.live p) hfound .failed (by decide)
  unfold advanceCheckpoint
  rw [getOrCreate_of_some hstate]
  cases outcome with
  | missing => exact hthrows
  | error => exact hthrows
  | done =>
    cases hstep : checkpointStage usearch sha w (w.key p) task.revision state.index uuid stage with
    | none =>
      simp only [hstep]
      exact hthrows
    | some reached =>
      obtain ⟨w', next⟩ := reached
      simp only [hstep]
      have hleft := checkpointStage_sound h hlive hsound hstep
      by_cases hlast : ∃ result, stage = .removeTemporaryMetadata result
      · obtain ⟨result, rfl⟩ := hlast
        have hstate' : w'.partitions p = some state := hleft.partitions ▸ hstate
        by_cases hresult : result = .returned true
        · subst hresult
          exact h.answers hleft.leaves hstate' hlive (hsound rfl)
        · refine h.refuses hleft.leaves (fun other hother => ?_) ?_ result hresult
          · obtain rfl := Option.some.inj (hstate'.symm.trans hother)
            exact hlive
          · rw [getOrCreate_of_some hstate']
            exact hbefore
      · have hgoes : StepSound usearch sha revisions contents
            ((w'.put p (checkpointReady state task.revision stage)).work p
              (some { task with work := .checkpoint uuid next }), none) := by
          refine ⟨h.works (hleft.leaves.put _) ?_ ?_, by simp [World.work]⟩
          · intro other hother
            rw [partitions_put_self] at hother
            cases hother
            exact checkpointReady_live hlive hsound
          · rintro other ⟨⟩
            refine ⟨hrevision, _, partitions_put_self .., ?_, ?_⟩
            · rw [checkpointReady_index]
              exact hbefore
            · rw [(hleft.leaves.put _).within.sameKey]
              exact hleft.goesOn.of_state (checkpointReady_index ..) (checkpointReady_revision ..)
        cases stage with
        | removeTemporaryMetadata result => exact absurd ⟨result, rfl⟩ hlast
        | _ => exact hgoes

/-! ## Steps -/

/-- The revision that a call carries. -/
def Label.revision? : Label C V → Option Units
  | .replace _ _ revision => revision
  | .restore _ revision | .checkpoint _ revision _ => some revision
  | .reopen _ | .upsert _ _ _ | .remove _ _ | .advance _ _ => none

omit [DecidableEq C] in
theorem Consistent.getOrCreate_live (h : Consistent usearch sha revisions contents w)
    (p : MemoryIndexPartition) :
    LiveSound usearch w (w.key p) (w.getOrCreate usearch p) := by
  cases hstate : w.partitions p with
  | none =>
    rw [World.getOrCreate, hstate]
    exact ⟨nofun, nofun⟩
  | some state =>
    rw [getOrCreate_of_some hstate]
    exact h.live p state hstate

omit [DecidableEq C] in
/-- A call that holds the mutex from its first line to its last sets the state. -/
theorem Consistent.put (h : Consistent usearch sha revisions contents w)
    (hidle : (w.running p).isSome = false) {state : PartitionState I}
    (hlive : LiveSound usearch w (w.key p) state) :
    Consistent usearch sha revisions contents (w.put p state) := by
  have hnone : (w.put p state).running p = none :=
    Option.isNone_iff_eq_none.mp (by simpa [World.put] using hidle)
  have hsame : (w.put p state).work p none = w.put p state := by
    rw [World.work, ← hnone, Function.update_eq_self]
  rw [← hsame]
  refine h.works ((h.leaves p).put state) (fun other hother => ?_) nofun
  rw [partitions_put_self] at hother
  cases hother
  exact hlive

omit [DecidableEq C] in
/-- A call of `replace` is recorded. -/
theorem Consistent.more (h : Consistent usearch sha revisions contents w)
    (more : List (SnapshotKey C × Units × List (ℤ × V)))
    (hreplaced : ReplacedSound usearch revisions contents
      { w with replaced := w.replaced ++ more }) :
    Consistent usearch sha revisions contents { w with replaced := w.replaced ++ more } := by
  have hmore : ∀ entry ∈ w.replaced, entry ∈ w.replaced ++ more :=
    fun _ hentry => List.mem_append_left _ hentry
  refine ⟨hreplaced, fun key bytes hbytes => ?_, fun key bytes hbytes => ?_,
    fun p state hstate => (h.live p state hstate).mono hmore, fun p task htask => ?_⟩
  · obtain ⟨revision, index, hnamed, hsave⟩ := h.snapshot key bytes hbytes
    exact ⟨revision, index, hnamed.mono hmore, hsave⟩
  · obtain ⟨revision, index, hnamed, htext⟩ := h.metadata key bytes hbytes
    exact ⟨revision, index, hnamed.mono hmore, htext⟩
  · obtain ⟨hrevision, state, hstate, hbefore, hwork⟩ := h.tasks p task htask
    refine ⟨hrevision, state, hstate, hbefore, ?_⟩
    exact WorkSound.mono (w := w) (fun _ _ => rfl) hmore hwork

/-- A step keeps the invariant, and its answer is true of the index it leaves. -/
theorem step_sound (idealDigest : Set.InjOn sha.digest revisions)
    (idealFiles : Set.InjOn sha.fileDigest contents)
    (h : Consistent usearch sha revisions contents w) {label : Label C V}
    (hlabel : ∀ revision, label.revision? = some revision → revision ∈ revisions)
    {stepped : World C I V × Option (Answer I)} (hstep : step usearch sha w label = some stepped)
    (hreplaced : ReplacedSound usearch revisions contents stepped.1) :
    StepSound usearch sha revisions contents stepped := by
  cases label with
  | reopen options =>
    cases hstep
    exact ⟨⟨hreplaced, h.snapshot, h.metadata, nofun, nofun⟩, nofun⟩
  | upsert p memoryKey vector =>
    rw [step] at hstep
    split at hstep
    · cases hstep
    · rename_i hidle
      cases hstep
      exact ⟨h.put (by simpa using hidle) ⟨nofun, nofun⟩, nofun⟩
  | remove p memoryKey =>
    rw [step] at hstep
    split at hstep
    · cases hstep
      exact ⟨h, nofun⟩
    · split at hstep
      · cases hstep
      · rename_i hidle
        cases hstep
        exact ⟨h.put (by simpa using hidle) ⟨nofun, nofun⟩, nofun⟩
  | replace p entries revision =>
    simp only [step] at hstep
    split at hstep
    · cases hstep
    · rename_i hidle
      have hidle : (w.running p).isSome = false := by simpa using hidle
      split at hstep
      · cases hstep
        exact ⟨h.put hidle (h.getOrCreate_live p), nofun⟩
      · rename_i entries
        split at hstep
        · cases hstep
          exact ⟨h.put hidle (h.getOrCreate_live p), nofun⟩
        · rename_i replacement hbuild
          cases hstep
          refine ⟨(h.more _ hreplaced).put hidle ⟨?_, nofun⟩, nofun⟩
          rintro revision ⟨⟩
          exact ⟨entries, List.mem_append_right _ (List.mem_singleton_self _), hbuild⟩
  | restore p revision =>
    rw [step] at hstep
    split at hstep
    · cases hstep
    · dsimp only at hstep
      have hlive := h.getOrCreate_live p
      split at hstep
      · rename_i hready
        cases hstep
        exact h.answers ((h.leaves p).put _) (partitions_put_self ..) hlive
          (hlive.ready revision hready)
      · cases hstep
        refine ⟨h.works ((h.leaves p).put _) (fun other hother => ?_) ?_, nofun⟩
        · rw [partitions_put_self] at hother
          cases hother
          exact hlive
        · rintro other ⟨⟩
          exact ⟨hlabel revision rfl, _, partitions_put_self .., rfl, trivial⟩
  | checkpoint p revision uuid =>
    rw [step] at hstep
    split at hstep
    · cases hstep
    · dsimp only at hstep
      split at hstep
      · cases hstep
        exact h.refuses (h.leaves p) (h.live p) rfl (.returned false) (by decide)
      · rename_i state hstate
        split at hstep
        · cases hstep
          exact h.refuses (h.leaves p) (h.live p) rfl (.returned false) (by decide)
        · rename_i hrevision
          cases hstep
          refine ⟨h.works (h.leaves p) (h.live p) ?_, nofun⟩
          rintro other ⟨⟩
          refine ⟨hlabel revision rfl, state, hstate, ?_, not_not.mp hrevision⟩
          rw [getOrCreate_of_some hstate]
  | advance p outcome =>
    rw [step] at hstep
    split at hstep
    · cases hstep
    · rename_i task htask
      split at hstep
      · rename_i stage hwork
        cases hstep
        exact advanceRestore_sound idealDigest idealFiles h htask hwork outcome
      · rename_i uuid stage hwork
        cases hstep
        exact advanceCheckpoint_sound h htask hwork outcome

/-! ## Runs -/

theorem checkpointStage_replaced {uuid : ℕ} {stage next : CheckpointStage}
    (hstep : checkpointStage usearch sha w key revision index uuid stage = some (w', next)) :
    w'.replaced = w.replaced := by
  cases stage <;> simp only [checkpointStage] at hstep <;> try split at hstep
  all_goals first
    | cases hstep; rfl
    | cases hstep
    | split at hstep <;> cases hstep; rfl

/-- A running call replaces nothing. -/
theorem advance_replaced {outcome : Outcome} {stepped : World C I V × Option (Answer I)}
    (hstep : step usearch sha w (.advance p outcome) = some stepped) :
    stepped.1.replaced = w.replaced := by
  rw [step] at hstep
  split at hstep
  · cases hstep
  · rename_i task htask
    split at hstep
    · rename_i stage hwork
      cases hstep
      cases outcome with
      | done =>
        rw [advanceRestore]
        split <;> rfl
      | missing => cases stage <;> rfl
      | error => rfl
    · rename_i uuid stage hwork
      cases hstep
      unfold advanceCheckpoint
      dsimp only
      split
      · rename_i w' next result hreached
        cases outcome with
        | done =>
          have hsame : w'.replaced = w.replaced := checkpointStage_replaced hreached
          exact hsame
        | missing => cases hreached
        | error => cases hreached
      · rename_i w' next _ hreached
        cases outcome with
        | done =>
          have hsame : w'.replaced = w.replaced := checkpointStage_replaced hreached
          exact hsame
        | missing => cases hreached
        | error => cases hreached
      · split <;> rfl

/-- A step records at most a call of `replace` with the revision that its label carries. -/
theorem step_replaced {label : Label C V} {stepped : World C I V × Option (Answer I)}
    (hstep : step usearch sha w label = some stepped) :
    ∃ more, stepped.1.replaced = w.replaced ++ more ∧
      ∀ entry ∈ more, label.revision? = some entry.2.1 := by
  cases label with
  | advance p outcome => exact ⟨[], by rw [advance_replaced hstep, List.append_nil], nofun⟩
  | replace p entries revision =>
    simp only [step] at hstep
    split at hstep
    · cases hstep
    · split at hstep
      · cases hstep
        exact ⟨[], (List.append_nil _).symm, nofun⟩
      · split at hstep
        · cases hstep
          exact ⟨[], (List.append_nil _).symm, nofun⟩
        · cases hstep
          refine ⟨_, rfl, ?_⟩
          intro entry hentry
          cases revision with
          | none => cases hentry
          | some revision =>
            obtain rfl := List.mem_singleton.mp hentry
            rfl
  | _ =>
    refine ⟨[], ?_, nofun⟩
    rw [List.append_nil]
    simp only [step] at hstep
    repeat' split at hstep
    all_goals cases hstep <;> rfl

/-- The revisions that the calls of a run carry. -/
def revisionsOf (labels : List (Label C V)) : Set Units :=
  {revision | ∃ label ∈ labels, label.revision? = some revision}

/-- The snapshots of the indexes that the calls of `replace` so far have built. -/
def snapshotsOf (usearch : Usearch C I V) (w : World C I V) : Set (List UInt8) :=
  {bytes | ∃ key revision index, Named usearch w key revision index ∧ bytes = usearch.save index}

theorem run_replaced {options : UsearchMemoryIndexOptions C} {labels : List (Label C V)}
    {answers : List (World C I V × Answer I)}
    (run : Run usearch sha options labels w answers) :
    ∀ entry ∈ w.replaced, entry.2.1 ∈ revisionsOf labels := by
  induction run with
  | start => exact nofun
  | step run steps ih =>
    rename_i labels w answers label w' answer
    obtain ⟨more, hmore, hrevision⟩ := step_replaced steps
    intro entry hentry
    rw [hmore] at hentry
    cases List.mem_append.mp hentry with
    | inl hold =>
      obtain ⟨other, hother, hsame⟩ := ih entry hold
      exact ⟨other, List.mem_append_left _ hother, hsame⟩
    | inr hnew =>
      exact ⟨label, List.mem_append_right _ (List.mem_singleton_self _), hrevision entry hnew⟩

/-- A run keeps the invariant, and each of its answers is true of the world it was given in. -/
theorem run_sound (idealDigest : Set.InjOn sha.digest revisions)
    (idealFiles : Set.InjOn sha.fileDigest contents) {options : UsearchMemoryIndexOptions C}
    {labels : List (Label C V)} {answers : List (World C I V × Answer I)}
    (run : Run usearch sha options labels w answers) (hlabels : revisionsOf labels ⊆ revisions)
    (hreplaced : ReplacedSound usearch revisions contents w) :
    Consistent usearch sha revisions contents w ∧
      ∀ given ∈ answers, AnswerSound usearch given.1 given.2 := by
  induction run with
  | start => exact ⟨⟨hreplaced, nofun, nofun, nofun, nofun⟩, nofun⟩
  | step run steps ih =>
    rename_i labels w answers label w' answer
    obtain ⟨more, hmore, -⟩ := step_replaced steps
    have hold : ∀ entry ∈ w.replaced, entry ∈ w'.replaced := by
      intro entry hentry
      rw [hmore]
      exact List.mem_append_left _ hentry
    have hlabelsOld : revisionsOf labels ⊆ revisions := by
      rintro revision ⟨other, hother, hsame⟩
      exact hlabels ⟨other, List.mem_append_left _ hother, hsame⟩
    have hlabel : ∀ revision, label.revision? = some revision → revision ∈ revisions :=
      fun revision hsame =>
        hlabels ⟨label, List.mem_append_right _ (List.mem_singleton_self _), hsame⟩
    obtain ⟨hconsistent, hanswers⟩ := ih hlabelsOld fun key revision index hnamed =>
      hreplaced key revision index (hnamed.mono hold)
    obtain ⟨hnext, hanswer⟩ :=
      step_sound idealDigest idealFiles hconsistent hlabel steps hreplaced
    refine ⟨hnext, ?_⟩
    intro given hgiven
    cases List.mem_append.mp hgiven with
    | inl hbefore => exact hanswers given hbefore
    | inr hnow =>
      cases answer with
      | none => cases hnow
      | some answer =>
        obtain rfl := List.mem_singleton.mp hnow
        exact hanswer answer rfl

/-- Whatever calls a partition's index takes, in whatever order, and wherever the process ends
between two file-system steps: where a call of `restore` or `checkpoint` answers true, the live
index is the one that a call of `replace` with that revision built, and otherwise the call has left
the index as it found it. -/
theorem restored_index_is_named {options : UsearchMemoryIndexOptions C}
    {labels : List (Label C V)} {answers : List (World C I V × Answer I)}
    (run : Run usearch sha options labels w answers)
    (idealDigest : Set.InjOn sha.digest (revisionsOf labels))
    (idealFiles : Set.InjOn sha.fileDigest (snapshotsOf usearch w)) :
    ∀ after answer, (after, answer) ∈ answers →
      (answer.result = .returned true →
        ∃ entries, (after.key answer.partition, answer.revision, entries) ∈ after.replaced ∧
          build usearch (after.key answer.partition).configuration entries =
            some (after.getOrCreate usearch answer.partition).index) ∧
      (answer.result ≠ .returned true →
        (after.getOrCreate usearch answer.partition).index = answer.before) := by
  intro after answer hanswer
  have hreplaced : ReplacedSound usearch (revisionsOf labels) (snapshotsOf usearch w) w := by
    intro key revision index hnamed
    have ⟨entries, hentry, _⟩ := hnamed
    exact ⟨run_replaced run _ hentry, key, revision, index, hnamed, rfl⟩
  obtain ⟨-, hanswers⟩ := run_sound idealDigest idealFiles run subset_rfl hreplaced
  obtain ⟨hnamed, hunchanged⟩ := hanswers _ hanswer
  exact ⟨hnamed, hunchanged⟩

/-- An index of bytes that is its own snapshot. -/
def bytesUsearch : Usearch Unit (List UInt8) UInt8 where
  create := fun _ => []
  configuredDimensions := fun _ => 1
  add := fun index _ vector => some (index ++ [vector])
  remove := fun _ _ => []
  dimensions := fun _ => 1
  save := fun index => index
  load := fun bytes => some bytes
  load_save := fun _ => rfl

/-- Hashes of a run with one revision and one snapshot. -/
def singleSha : Sha256 where
  digest := fun _ => String.ofList (List.replicate 64 'a')
  fileDigest := fun _ => String.ofList (List.replicate 64 'b')
  digest_hex := fun _ => by decide +kernel
  fileDigest_hex := fun _ => by decide +kernel

def onlyPartition : MemoryIndexPartition := ⟨"owner", "timeline", "generation"⟩

/-- A checkpoint, another process and a restore. -/
def publishAndRestore : List (Label Unit UInt8) :=
  [.replace onlyPartition (some [(1, 7), (2, 9)]) (some [114]),
    .checkpoint onlyPartition [114] 0] ++
  List.replicate 10 (.advance onlyPartition .done) ++
  [.reopen ⟨"model", (), 1024⟩, .restore onlyPartition [114]] ++
  List.replicate 6 (.advance onlyPartition .done)

theorem revisionsOf_publishAndRestore : revisionsOf publishAndRestore ⊆ {[114]} := by
  rintro revision ⟨label, hlabel, hsame⟩
  simp only [publishAndRestore, List.mem_append, List.mem_cons, List.mem_replicate,
    List.not_mem_nil, or_false] at hlabel
  obtain ((((rfl | rfl) | ⟨-, rfl⟩) | (rfl | rfl)) | ⟨-, rfl⟩) := hlabel <;> cases hsame <;> rfl

theorem restored_index_is_named_publishAndRestore :
    ∃ after answers,
      follow bytesUsearch singleSha ⟨"model", (), 1024⟩ publishAndRestore = some (after, answers) ∧
      answers.map (fun given => given.2.result) = [.returned true, .returned true] ∧
      ∀ given ∈ answers,
        ∃ entries, (given.1.key given.2.partition, given.2.revision, entries) ∈ given.1.replaced ∧
          build bytesUsearch () entries =
            some (given.1.getOrCreate bytesUsearch given.2.partition).index := by
  have hresults : (follow bytesUsearch singleSha ⟨"model", (), 1024⟩ publishAndRestore).map
      (fun reached => (reached.2.map fun given => given.2.result,
        reached.1.replaced.map fun entry => entry.2.2)) =
      some ([.returned true, .returned true], [[(1, 7), (2, 9)]]) := by
    decide +kernel
  obtain ⟨⟨after, answers⟩, hfollow, hreached⟩ := Option.map_eq_some_iff.mp hresults
  obtain ⟨htrue, hreplaced⟩ := Prod.mk.inj hreached
  refine ⟨after, answers, hfollow, htrue, fun given hgiven => ?_⟩
  have hsnapshots : snapshotsOf bytesUsearch after ⊆ {[7, 9]} := by
    rintro bytes ⟨key, revision, index, ⟨entries, hentry, hbuild⟩, rfl⟩
    have hmem : entries ∈ after.replaced.map fun entry => entry.2.2 := List.mem_map_of_mem hentry
    rw [show after.replaced.map _ = _ from hreplaced] at hmem
    cases List.mem_singleton.mp hmem
    cases hbuild
    rfl
  have hresult : given.2.result = .returned true := by
    have hmem : given.2.result ∈ answers.map (fun given => given.2.result) :=
      List.mem_map_of_mem hgiven
    rw [htrue] at hmem
    simpa using hmem
  exact (restored_index_is_named (run_of_follow hfollow)
    ((Set.injOn_singleton _ _).mono revisionsOf_publishAndRestore)
    ((Set.injOn_singleton _ _).mono hsnapshots) given.1 given.2 hgiven).1 hresult

end OpenGameAgent.UsearchMemory
