import Mathlib.Logic.Function.Basic
import OpenGameAgent.Devtools.ProvenanceHistory

/-!
# Recorders over one file

Any number of recorders with equal limits record requests and responses into one file.  A
recorder runs one call at a time (`mutex`), and the appends to the file run one at a time
(`serializePath`); between the steps of a call anything may happen.  A call of the store may
fail before or after its write, and a crash leaves nothing but the file.

* `prepare`, `FileStore.append` run in `World.step`, one step for each thing that may happen
  between two others.
* `World.run` — what a list of events makes of a world.
-/

namespace OpenGameAgent

namespace Provenance

/-! ## The world -/

structure ProvenanceContext where
  limits : ProvenanceLimits
  maxDocumentBytes : Nat

/-- How far a call has come. -/
inductive Phase where
  /-- The call holds the mutex. -/
  | begun (draft : Draft)
  /-- The append is under way, and nothing is written. -/
  | appending (record : Record) (candidate : StoredState)
  /-- The record is written, and the store has not answered. -/
  | written (record : Record) (candidate next : StoredState)

structure Recorder where
  state : Option StoredState
  /-- The call that holds the mutex, by its number. -/
  call : Option (Nat × Phase)

/-- An append that resolved: the log the recorder held, and whether the call resolves too. -/
structure Answer where
  call : Nat
  record : Record
  cached : StoredState
  confirmed : Bool

structure World where
  file : Option StoredState
  recorders : Nat → Recorder
  /-- How many calls have begun. -/
  calls : Nat
  /-- The call that wrote each record of the file. -/
  authors : List Nat
  answers : List Answer

def Recorder.fresh : Recorder := ⟨none, none⟩

/-- No file, and no recorder has done anything. -/
def World.start : World := ⟨none, fun _ => .fresh, 0, [], []⟩

/-- What happens; `fails` is a failure of the store. -/
inductive Event where
  | begin (recorder : Nat) (draft : Draft)
  | restore (recorder : Nat) (fails : Bool)
  | check (recorder : Nat)
  | append (recorder : Nat) (fails : Bool)
  | answer (recorder : Nat) (fails : Bool)
  | crash

/-- What `recordRequest` and `recordResponse` check of their arguments. -/
def validDraft : Draft → Bool
  | .request recordId body => isGameProvenanceAlias recordId && validRequest body
  | .response requestRecordId body => isGameProvenanceAlias requestRecordId && validResponse body

/-- `restoreUnlocked` of a recorder that holds no log. -/
def restored (ctx : ProvenanceContext) (file : Option StoredState) :
    Except ProvenanceError StoredState := do
  let stored ← FileStore.load ctx.maxDocumentBytes ctx.limits.maxStoreBytes file
  validateStoredState ctx.limits stored

namespace World

variable (ctx : ProvenanceContext)

def setRecorder (world : World) (recorder : Nat) (after : Recorder) : World :=
  { world with recorders := Function.update world.recorders recorder after }

def step (world : World) : Event → World
  | .begin recorder draft =>
    match (world.recorders recorder).call with
    | some _ => world
    | none =>
      if validDraft draft then
        { world.setRecorder recorder
            { world.recorders recorder with call := some (world.calls, .begun draft) } with
          calls := world.calls + 1 }
      else world
  | .restore recorder fails =>
    match (world.recorders recorder).state, (world.recorders recorder).call with
    | none, none | none, some (_, .begun _) =>
      match if fails then .error .store else restored ctx world.file with
      | .ok state => world.setRecorder recorder ⟨some state, (world.recorders recorder).call⟩
      | .error _ => world.setRecorder recorder .fresh
    | _, _ => world
  | .check recorder =>
    match world.recorders recorder with
    | ⟨some state, some (call, .begun draft)⟩ =>
      match prepare ctx.limits state draft with
      | .ok (record, candidate) =>
        world.setRecorder recorder ⟨some state, some (call, .appending record candidate)⟩
      | .error _ => world.setRecorder recorder ⟨some state, none⟩
    | _ => world
  | .append recorder fails =>
    match world.recorders recorder with
    | ⟨some state, some (call, .appending record candidate)⟩ =>
      match if fails then .error .store
        else FileStore.append ctx.maxDocumentBytes world.file state.revision record with
      | .ok next =>
        { world.setRecorder recorder
            ⟨some state, some (call, .written record candidate next)⟩ with
          file := some next.reread
          authors := world.authors ++ [call] }
      | .error _ => world.setRecorder recorder .fresh
    | _ => world
  | .answer recorder fails =>
    match world.recorders recorder with
    | ⟨some state, some (call, .written record candidate next)⟩ =>
      if fails then world.setRecorder recorder .fresh
      else if validateStoredState ctx.limits next = .ok candidate then
        { world.setRecorder recorder ⟨some candidate, none⟩ with
          answers := world.answers ++ [⟨call, record, state, true⟩] }
      else { world.setRecorder recorder .fresh with
          answers := world.answers ++ [⟨call, record, state, false⟩] }
    | _ => world
  | .crash => { world with recorders := fun _ => .fresh }

/-- What a run of events makes of a world. -/
def run (world : World) (events : List Event) : World := events.foldl (step ctx) world

/-- The log in the file. -/
def log (world : World) : List Record := (world.file.getD emptyState).records

end World

end Provenance

end OpenGameAgent
