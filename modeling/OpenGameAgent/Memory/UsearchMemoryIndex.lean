import Mathlib.Data.List.Induction
import Mathlib.Data.Set.Function
import OpenGameAgent.Protocol.Utf8Buffers

/-!
# The USearch memory index

`packages/memory-usearch/src/usearch-memory-index.ts`: a vector index for each partition of the
memories, whose completed states are snapshots on disk.  A snapshot is two files, and `checkpoint`
publishes them by two renames.

A step is one call of the file system, or a call of the index that makes none; a crash comes between
any two of them (`Label.reopen`).  The mutex of a partition is its running task.  USearch and the
two hashes are parameters; a path, which the source takes from the hash of the identity of the
snapshot, is that identity.
-/

namespace OpenGameAgent.UsearchMemory

/-- A JavaScript string, in code units. -/
abbrev Units := List UInt16

/-! ## What comes from outside -/

/-- The USearch library: configurations, indexes and vectors, and the documented inverse of saving.
An `add` throws where the key is there already. -/
structure Usearch (C I V : Type) where
  create : C → I
  configuredDimensions : C → ℕ
  add : I → ℤ → V → Option I
  remove : I → ℤ → I
  dimensions : I → ℕ
  save : I → List UInt8
  load : List UInt8 → Option I
  load_save : ∀ index, load (save index) = some index

/-- `digest` of a string and `fileDigest` of a file, in hexadecimal. -/
structure Sha256 where
  digest : Units → String
  fileDigest : List UInt8 → String
  digest_hex : ∀ value, isSha256 (digest value) = true
  fileDigest_hex : ∀ bytes, isSha256 (fileDigest bytes) = true

/-! ## Files -/

structure MemoryIndexPartition where
  ownerId : String
  timelineId : String
  generation : String
deriving DecidableEq

/-- What `snapshotPath` hashes. -/
structure SnapshotKey (C : Type) where
  modelId : String
  configuration : C
  partition : MemoryIndexPartition
deriving DecidableEq

inductive FilePath (C : Type) where
  | snapshot (key : SnapshotKey C)
  | metadata (key : SnapshotKey C)
  | temporary (key : SnapshotKey C) (uuid : ℕ)
  | temporaryMetadata (key : SnapshotKey C) (uuid : ℕ)
deriving DecidableEq

/-- The identity a file belongs to. -/
def FilePath.key {C : Type} : FilePath C → SnapshotKey C
  | .snapshot key | .metadata key | .temporary key _ | .temporaryMetadata key _ => key

abbrev Disk (C : Type) := FilePath C → Option (List UInt8)

/-- The text of the metadata file. -/
def metadataText (sha : Sha256) (revision : Units) (fileDigest : String) : List Char :=
  (sha.digest revision).toList ++ '\n' :: fileDigest.toList

/-- `/^[a-f0-9]{64}\n[a-f0-9]{64}$/u`. -/
def isMetadata (metadata : List Char) : Bool :=
  areSha256Digits (metadata.take 64) && metadata[64]? = some '\n' &&
    areSha256Digits (metadata.drop 65)

/-! ## The index object -/

structure UsearchMemoryIndexOptions (C : Type) where
  modelId : String
  configuration : C
  maxSnapshotBytes : ℕ

structure PartitionState (I : Type) where
  index : I
  revision : Option Units
  readyRevision : Option Units

/-- What a call of `restore` or `checkpoint` ends in. -/
inductive CallResult where
  | returned (value : Bool)
  | failed
deriving DecidableEq

/-- Where a call of `restore` stands: the file-system call it makes next. -/
inductive RestoreStage where
  | path
  | statMetadata
  | readMetadata
  | statSnapshot (expected : List Char)
  | digestSnapshot (expected : List Char)
  | load

/-- Where a call of `checkpoint` stands. -/
inductive CheckpointStage where
  | path
  | create
  | save
  | measure
  | digest
  | writeMetadata (fileDigest : String)
  | publish
  | publishMetadata
  | removeTemporary (result : CallResult)
  | removeTemporaryMetadata (result : CallResult)

inductive Work where
  | restore (stage : RestoreStage)
  | checkpoint (uuid : ℕ) (stage : CheckpointStage)

/-- A call that holds the mutex of a partition; `before` is the index it found. -/
structure Task (I : Type) where
  revision : Units
  before : I
  work : Work

/-- The directory, and the index object that is open. -/
structure World (C I V : Type) where
  disk : Disk C
  options : UsearchMemoryIndexOptions C
  partitions : MemoryIndexPartition → Option (PartitionState I)
  running : MemoryIndexPartition → Option (Task I)
  /-- The calls of `replace` so far that carried a revision, with their entries. -/
  replaced : List (SnapshotKey C × Units × List (ℤ × V))

/-- How the operating system takes a call: it is made, or it throws an error that has no code or the
code `ENOENT`, or another one. -/
inductive Outcome where
  | done
  | missing
  | error

inductive Label (C V : Type) where
  /-- The process ends wherever it stands, and another index object is opened. -/
  | reopen (options : UsearchMemoryIndexOptions C)
  | upsert (partition : MemoryIndexPartition) (memoryKey : ℤ) (vector : V)
  | remove (partition : MemoryIndexPartition) (memoryKey : ℤ)
  /-- The entries are none where reading them throws. -/
  | replace (partition : MemoryIndexPartition) (entries : Option (List (ℤ × V)))
      (revision : Option Units)
  | restore (partition : MemoryIndexPartition) (revision : Units)
  | checkpoint (partition : MemoryIndexPartition) (revision : Units) (uuid : ℕ)
  /-- The running call of a partition makes its next file-system call. -/
  | advance (partition : MemoryIndexPartition) (outcome : Outcome)

/-- A call of `restore` or `checkpoint` that has ended. -/
structure Answer (I : Type) where
  partition : MemoryIndexPartition
  revision : Units
  before : I
  result : CallResult

variable {C I V : Type}

def World.key (w : World C I V) (partition : MemoryIndexPartition) : SnapshotKey C :=
  ⟨w.options.modelId, w.options.configuration, partition⟩

/-- `getOrCreate`. -/
def World.getOrCreate (usearch : Usearch C I V) (w : World C I V)
    (partition : MemoryIndexPartition) : PartitionState I :=
  (w.partitions partition).getD ⟨usearch.create w.options.configuration, none, none⟩

def World.put (w : World C I V) (partition : MemoryIndexPartition) (state : PartitionState I) :
    World C I V :=
  { w with partitions := Function.update w.partitions partition (some state) }

def World.work (w : World C I V) (partition : MemoryIndexPartition) (task : Option (Task I)) :
    World C I V :=
  { w with running := Function.update w.running partition task }

def World.write [DecidableEq C] (w : World C I V) (path : FilePath C)
    (bytes : Option (List UInt8)) : World C I V :=
  { w with disk := Function.update w.disk path bytes }

/-- `for await (const entry of entries) replacement.add(...)`. -/
def build (usearch : Usearch C I V) (configuration : C) (entries : List (ℤ × V)) : Option I :=
  entries.foldlM (fun index entry => usearch.add index entry.1 entry.2) (usearch.create configuration)

/-! ## Restoring -/

inductive RestoreProgress (I : Type) where
  | goesOn (stage : RestoreStage)
  | refused
  | loaded (index : I)

/-- A file-system call of `restore` that the operating system takes. -/
def restoreStage (usearch : Usearch C I V) (sha : Sha256) (w : World C I V) (key : SnapshotKey C)
    (revision : Units) : RestoreStage → RestoreProgress I
  | .path => .goesOn .statMetadata
  | .statMetadata =>
    match w.disk (.metadata key) with
    | none => .refused
    | some bytes => if bytes.length ≠ 129 then .refused else .goesOn .readMetadata
  | .readMetadata =>
    match w.disk (.metadata key) with
    | none => .refused
    | some bytes =>
      let metadata := decodeUtf8 bytes
      if isMetadata metadata ∧ metadata.take 64 = (sha.digest revision).toList then
        .goesOn (.statSnapshot (metadata.drop 65))
      else .refused
  | .statSnapshot expected =>
    match w.disk (.snapshot key) with
    | none => .refused
    | some bytes =>
      if w.options.maxSnapshotBytes < bytes.length ∨ bytes.length < 1 then .refused
      else .goesOn (.digestSnapshot expected)
  | .digestSnapshot expected =>
    match w.disk (.snapshot key) with
    | none => .refused
    | some bytes => if (sha.fileDigest bytes).toList = expected then .goesOn .load else .refused
  | .load =>
    match w.disk (.snapshot key) with
    | none => .refused
    | some bytes =>
      match usearch.load bytes with
      | none => .refused
      | some replacement =>
        if usearch.dimensions replacement ≠ usearch.configuredDimensions w.options.configuration then
          .refused
        else .loaded replacement

/-- The end of a call. -/
def finish (w : World C I V) (partition : MemoryIndexPartition) (task : Task I)
    (result : CallResult) : World C I V × Option (Answer I) :=
  (w.work partition none, some ⟨partition, task.revision, task.before, result⟩)

def advanceRestore (usearch : Usearch C I V) (sha : Sha256) (w : World C I V)
    (partition : MemoryIndexPartition) (task : Task I) (stage : RestoreStage) :
    Outcome → World C I V × Option (Answer I)
  | .done =>
    match restoreStage usearch sha w (w.key partition) task.revision stage with
    | .goesOn stage => (w.work partition (some { task with work := .restore stage }), none)
    | .refused => finish w partition task (.returned false)
    | .loaded index =>
      finish (w.put partition ⟨index, some task.revision, some task.revision⟩) partition task
        (.returned true)
  | .missing =>
    match stage with
    | .path => finish w partition task .failed
    | _ => finish w partition task (.returned false)
  | .error => finish w partition task .failed

/-! ## Publishing -/

/-- A file-system call of `checkpoint` that the operating system takes: the files, and where the
call stands; none where the call throws. -/
def checkpointStage [DecidableEq C] (usearch : Usearch C I V) (sha : Sha256) (w : World C I V)
    (key : SnapshotKey C) (revision : Units) (index : I) (uuid : ℕ) :
    CheckpointStage → Option (World C I V × CheckpointStage)
  | .path => some (w, .create)
  | .create =>
    match w.disk (.temporary key uuid) with
    | some _ => none
    | none => some (w.write (.temporary key uuid) (some []), .save)
  | .save => some (w.write (.temporary key uuid) (some (usearch.save index)), .measure)
  | .measure =>
    match w.disk (.temporary key uuid) with
    | none => none
    | some bytes => if w.options.maxSnapshotBytes < bytes.length then none else some (w, .digest)
  | .digest =>
    match w.disk (.temporary key uuid) with
    | none => none
    | some bytes => some (w, .writeMetadata (sha.fileDigest bytes))
  | .writeMetadata fileDigest =>
    match w.disk (.temporaryMetadata key uuid) with
    | some _ => none
    | none =>
      some (w.write (.temporaryMetadata key uuid)
        (some (encodeUtf8 (metadataText sha revision fileDigest))), .publish)
  | .publish =>
    match w.disk (.temporary key uuid) with
    | none => none
    | some bytes =>
      some ((w.write (.snapshot key) (some bytes)).write (.temporary key uuid) none, .publishMetadata)
  | .publishMetadata =>
    match w.disk (.temporaryMetadata key uuid) with
    | none => none
    | some bytes =>
      some ((w.write (.metadata key) (some bytes)).write (.temporaryMetadata key uuid) none,
        .removeTemporary (.returned true))
  | .removeTemporary result =>
    some (w.write (.temporary key uuid) none, .removeTemporaryMetadata result)
  | .removeTemporaryMetadata result =>
    some (w.write (.temporaryMetadata key uuid) none, .removeTemporaryMetadata result)

/-- Where a call that throws goes on. -/
def checkpointThrows : CheckpointStage → Option CheckpointStage
  | .path => none
  | .removeTemporary _ => none
  | .removeTemporaryMetadata _ => none
  | _ => some (.removeTemporary .failed)

/-- The fields that a stage sets on the state. -/
def checkpointReady (state : PartitionState I) (revision : Units) :
    CheckpointStage → PartitionState I
  | .publishMetadata => { state with readyRevision := some revision }
  | _ => state

def advanceCheckpoint [DecidableEq C] (usearch : Usearch C I V) (sha : Sha256) (w : World C I V)
    (partition : MemoryIndexPartition) (task : Task I) (uuid : ℕ) (stage : CheckpointStage)
    (outcome : Outcome) : World C I V × Option (Answer I) :=
  let state := w.getOrCreate usearch partition
  let stepped :=
    match outcome with
    | .done => checkpointStage usearch sha w (w.key partition) task.revision state.index uuid stage
    | _ => none
  match stepped, stage with
  | some (w, _), .removeTemporaryMetadata result => finish w partition task result
  | some (w, next), _ =>
    ((w.put partition (checkpointReady state task.revision stage)).work partition
      (some { task with work := .checkpoint uuid next }), none)
  | none, _ =>
    match checkpointThrows stage with
    | some next => (w.work partition (some { task with work := .checkpoint uuid next }), none)
    | none => finish w partition task .failed

/-! ## Steps -/

/-- What a label does, where no other call holds the mutex it needs. -/
def step [DecidableEq C] (usearch : Usearch C I V) (sha : Sha256) (w : World C I V) :
    Label C V → Option (World C I V × Option (Answer I))
  | .reopen options =>
    some ({ disk := w.disk, options, partitions := fun _ => none, running := fun _ => none,
            replaced := w.replaced }, none)
  | .upsert partition memoryKey vector =>
    if (w.running partition).isSome then none
    else
      let removed := usearch.remove (w.getOrCreate usearch partition).index memoryKey
      some (w.put partition
        ⟨(usearch.add removed memoryKey vector).getD removed, none, none⟩, none)
  | .remove partition memoryKey =>
    match w.partitions partition with
    | none => some (w, none)
    | some state =>
      if (w.running partition).isSome then none
      else some (w.put partition ⟨usearch.remove state.index memoryKey, none, none⟩, none)
  | .replace partition entries revision =>
    if (w.running partition).isSome then none
    else
      match entries with
      | none => some (w.put partition (w.getOrCreate usearch partition), none)
      | some entries =>
        match build usearch w.options.configuration entries with
        | none => some (w.put partition (w.getOrCreate usearch partition), none)
        | some replacement =>
          some ({ w.put partition ⟨replacement, revision, none⟩ with
            replaced := w.replaced ++
              (revision.map fun revision => (w.key partition, revision, entries)).toList }, none)
  | .restore partition revision =>
    if (w.running partition).isSome then none
    else
      let state := w.getOrCreate usearch partition
      let task : Task I := ⟨revision, state.index, .restore .path⟩
      if state.readyRevision = some revision then
        some (finish (w.put partition state) partition task (.returned true))
      else some ((w.put partition state).work partition (some task), none)
  | .checkpoint partition revision uuid =>
    if (w.running partition).isSome then none
    else
      let task : Task I :=
        ⟨revision, (w.getOrCreate usearch partition).index, .checkpoint uuid .path⟩
      match w.partitions partition with
      | none => some (finish w partition task (.returned false))
      | some state =>
        if state.revision ≠ some revision then some (finish w partition task (.returned false))
        else some (w.work partition (some task), none)
  | .advance partition outcome =>
    match w.running partition with
    | none => none
    | some task =>
      match task.work with
      | .restore stage => some (advanceRestore usearch sha w partition task stage outcome)
      | .checkpoint uuid stage =>
        some (advanceCheckpoint usearch sha w partition task uuid stage outcome)

/-- An empty directory and the first index object. -/
def start (options : UsearchMemoryIndexOptions C) : World C I V :=
  ⟨fun _ => none, options, fun _ => none, fun _ => none, []⟩

/-- A run, with every answer and the world right after it. -/
inductive Run [DecidableEq C] (usearch : Usearch C I V) (sha : Sha256)
    (options : UsearchMemoryIndexOptions C) :
    List (Label C V) → World C I V → List (World C I V × Answer I) → Prop
  | start : Run usearch sha options [] (start options) []
  | step {labels w answers label w' answer} (run : Run usearch sha options labels w answers)
      (steps : step usearch sha w label = some (w', answer)) :
      Run usearch sha options (labels ++ [label]) w'
        (answers ++ (answer.map fun answer => (w', answer)).toList)

/-- The run of a list of labels, where each of them can be taken. -/
def follow [DecidableEq C] (usearch : Usearch C I V) (sha : Sha256)
    (options : UsearchMemoryIndexOptions C) (labels : List (Label C V)) :
    Option (World C I V × List (World C I V × Answer I)) :=
  labels.foldlM (fun reached label =>
    (step usearch sha reached.1 label).map fun stepped =>
      (stepped.1, reached.2 ++ (stepped.2.map fun answer => (stepped.1, answer)).toList))
    (start options, [])

theorem run_of_follow [DecidableEq C] {usearch : Usearch C I V} {sha : Sha256}
    {options : UsearchMemoryIndexOptions C} {labels : List (Label C V)} :
    ∀ {w : World C I V} {answers : List (World C I V × Answer I)},
      follow usearch sha options labels = some (w, answers) →
        Run usearch sha options labels w answers := by
  induction labels using List.reverseRecOn with
  | nil =>
    intro w answers h
    cases h
    exact .start
  | append_singleton labels label ih =>
    intro w answers h
    rw [follow, List.foldlM_append] at h
    cases hreached : follow usearch sha options labels with
    | none =>
      rw [follow] at hreached
      rw [hreached] at h
      cases h
    | some reached =>
      have hrun := ih hreached
      rw [follow] at hreached
      rw [hreached] at h
      obtain ⟨w', answers'⟩ := reached
      cases hstep : step usearch sha w' label with
      | none => simp [hstep] at h
      | some stepped =>
        obtain ⟨next, answer⟩ := stepped
        simp only [Option.bind_eq_bind, Option.bind_some, List.foldlM_cons, List.foldlM_nil, hstep,
          Option.map_some] at h
        cases h
        exact hrun.step hstep

end OpenGameAgent.UsearchMemory
