import Mathlib.Data.List.Lex
import Mathlib.Data.List.Sort
import Mathlib.Data.UInt
import OpenGameAgent.ExtensionKit.Manifest
import OpenGameAgent.Library.OrderedMap

/-!
# Diagnosing a set of extensions

`packages/extension-kit/src/dependency-diagnostics.ts`.  `satisfies` of `semver` is a parameter.

* `findCycleMembers` — one depth-first pass with a stack of frames; `turn` is one round of its
  inner loop.
* `topologicalOrder` — the ids whose dependencies are all in the order so far wait in a sorted
  list, and the first of them goes next.
* `diagnoseGameExtensionSet` — everything found, in the order in which it is reported.
-/

namespace OpenGameAgent.ExtensionKit

/-- Code units compare as numbers; `compareStrings` is the order of words over them. -/
instance linearOrderUnits : LinearOrder UInt16 where
  le_refl := UInt16.le_refl
  le_trans _ _ _ := UInt16.le_trans
  lt_iff_le_not_ge a b := by
    simp only [UInt16.lt_iff_toNat_lt, UInt16.le_iff_toNat_le]
    omega
  le_antisymm _ _ := UInt16.le_antisymm
  le_total := UInt16.le_total
  toDecidableLE := inferInstance
  toDecidableLT := inferInstance
  toDecidableEq := inferInstance

/-- `values.sort(compareStrings)`. -/
def sortTexts (texts : List Text) : List Text := texts.insertionSort (· ≤ ·)

/-! ## Reports -/

/-- The limits, which `captureSetLimits` requires to be positive safe integers. -/
structure GameExtensionSetLimits where
  maxExtensions : ℕ
  maxDiagnostics : ℕ

inductive GameExtensionDiagnostic where
  | extensionDuplicate (extensionId : Text)
  | permissionDenied (extensionId : Text) (permission : GameExtensionPermission)
  | dependencyMissing (extensionId dependencyId requiredVersionRange : Text)
  | dependencyVersionMismatch
      (extensionId dependencyId requiredVersionRange availableVersion : Text)
  | dependencyCycle (extensionId : Text)
deriving DecidableEq

structure GameExtensionSetReport where
  passed : Bool
  order : List Text
  diagnostics : List GameExtensionDiagnostic
deriving DecidableEq

/-- The two limits, and the `TypeError` for a permission that is allowed twice. -/
inductive GameExtensionSetError where
  | extensionLimitExceeded
  | diagnosticLimitExceeded
  | allowedPermissionsInvalid
deriving DecidableEq, Repr

abbrev Manifests := OrderedMap Text GameExtensionManifest

/-! ## Cycle members -/

inductive SearchState where
  | unseen
  | onPath
  | finished
deriving DecidableEq, Repr

structure Frame where
  id : Text
  dependencies : List Text
  index : ℕ

/-- The dependencies of an extension that are in the set, sorted. -/
def presentDependencies (byId : Manifests) (id : Text) : List Text :=
  sortTexts
    ((((byId.get? id).elim [] (·.dependencies)).map (·.id)).filter fun dependencyId =>
      byId.has dependencyId)

def frame (byId : Manifests) (id : Text) : Frame := ⟨id, presentDependencies byId id, 0⟩

/-- The variables of the pass; the stack has its top in front. -/
structure Search where
  state : Text → SearchState
  cycleMembers : List Text
  path : List Text
  pathIndex : Text → Option ℕ
  stack : List Frame

/-- `Set.add`, for each value in turn. -/
def addAll (members values : List Text) : List Text :=
  values.foldl (fun members value => if value ∈ members then members else members ++ [value])
    members

/-- Begin an extension that has not been seen. -/
def enter (byId : Manifests) (search : Search) (id : Text) : Search :=
  { search with
    state := Function.update search.state id .onPath
    pathIndex := Function.update search.pathIndex id (some search.path.length)
    path := search.path ++ [id]
    stack := frame byId id :: search.stack }

/-- One round of `while (stack.length > 0)`. -/
def turn (byId : Manifests) (search : Search) : Search :=
  match search.stack with
  | [] => search
  | current :: below =>
    match current.dependencies[current.index]? with
    | none =>
      { search with
        state := Function.update search.state current.id .finished
        stack := below
        pathIndex := Function.update search.pathIndex current.id none
        path := search.path.dropLast }
    | some dependency =>
      let advanced :=
        { search with stack := { current with index := current.index + 1 } :: below }
      match search.state dependency with
      | .onPath =>
        match search.pathIndex dependency with
        | some start =>
          { advanced with
            cycleMembers := addAll search.cycleMembers (search.path.drop start) }
        | none => advanced
      | .finished => advanced
      | .unseen => enter byId advanced dependency

/-- The inner loop, for at most so many rounds. -/
def walk (byId : Manifests) : ℕ → Search → Search
  | 0, search => search
  | fuel + 1, search =>
    if search.stack.isEmpty then search else walk byId fuel (turn byId search)

/-- Every extension is begun and finished once, and each of its dependencies is looked at once. -/
def rounds (byId : Manifests) (ids : List Text) : ℕ :=
  (ids.map fun id => (presentDependencies byId id).length + 1).sum

def searchFrom (byId : Manifests) (fuel : ℕ) (search : Search) (root : Text) : Search :=
  if search.state root ≠ .unseen then search
  else
    walk byId fuel (enter byId { search with path := [], pathIndex := fun _ => none, stack := [] }
      root)

def searchAll (byId : Manifests) (ids : List Text) : Search :=
  ids.foldl (searchFrom byId (rounds byId ids)) ⟨fun _ => .unseen, [], [], fun _ => none, []⟩

def findCycleMembers (byId : Manifests) (ids : List Text) : List Text :=
  sortTexts (searchAll byId ids).cycleMembers

/-! ## The order -/

/-- The number of dependencies that are not in the order yet, and the extensions that wait for an
extension. -/
structure Counts where
  indegree : Text → ℤ
  dependents : Text → List Text

def addDependent (id : Text) (dependents : Text → List Text)
    (dependency : GameExtensionDependency) : Text → List Text :=
  Function.update dependents dependency.id (dependents dependency.id ++ [id])

def countExtension (byId : Manifests) (counts : Counts) (id : Text) : Counts :=
  let dependencies := (byId.get? id).elim [] (·.dependencies)
  { indegree := Function.update counts.indegree id dependencies.length
    dependents := dependencies.foldl (addDependent id) counts.dependents }

def countDependencies (byId : Manifests) (ids : List Text) : Counts :=
  ids.foldl (countExtension byId) ⟨fun _ => 0, fun _ => []⟩

def insertSorted (values : List Text) (value : Text) : List Text :=
  match values with
  | [] => [value]
  | first :: rest => if first < value then first :: insertSorted rest value else value :: values

structure OrderState where
  indegree : Text → ℤ
  ready : List Text
  order : List Text

/-- One dependency of `dependent` has been put into the order. -/
def settleDependent (ordering : OrderState) (dependent : Text) : OrderState :=
  let remaining := ordering.indegree dependent - 1
  { ordering with
    indegree := Function.update ordering.indegree dependent remaining
    ready := if remaining = 0 then insertSorted ordering.ready dependent else ordering.ready }

/-- `while (ready.length > 0)`, for at most so many rounds. -/
def takeReady (dependents : Text → List Text) : ℕ → OrderState → OrderState
  | 0, ordering => ordering
  | fuel + 1, ordering =>
    match ordering.ready with
    | [] => ordering
    | id :: rest =>
      if id = [] then { ordering with ready := rest }
      else
        takeReady dependents fuel
          ((sortTexts (dependents id)).foldl settleDependent
            { ordering with ready := rest, order := ordering.order ++ [id] })

def topologicalOrder (byId : Manifests) (ids : List Text) : List Text :=
  let counts := countDependencies byId ids
  (takeReady counts.dependents ids.length
    { indegree := counts.indegree
      ready := sortTexts (ids.filter fun id => counts.indegree id = 0)
      order := [] }).order

/-! ## The diagnosis -/

/-- The manifests of each id, in the order in which the ids first occur. -/
def groupManifests (manifests : List GameExtensionManifest) :
    OrderedMap Text (List GameExtensionManifest) :=
  manifests.foldl
    (fun grouped manifest =>
      grouped.set manifest.id ((grouped.get? manifest.id).getD [] ++ [manifest]))
    .empty

/-- The first manifest of each id. -/
def firstManifests (grouped : OrderedMap Text (List GameExtensionManifest)) (ids : List Text) :
    Manifests :=
  ids.foldl
    (fun byId id =>
      match (grouped.get? id).bind List.head? with
      | some manifest => byId.set id manifest
      | none => byId)
    .empty

def checkDuplicates (grouped : OrderedMap Text (List GameExtensionManifest)) (ids : List Text) :
    List GameExtensionDiagnostic :=
  (ids.filter fun id => 1 < ((grouped.get? id).getD []).length).map .extensionDuplicate

variable (satisfies : Text → Text → Bool)

def checkDependency (byId : Manifests) (id : Text) (dependency : GameExtensionDependency) :
    List GameExtensionDiagnostic :=
  match byId.get? dependency.id with
  | none => [.dependencyMissing id dependency.id dependency.versionRange]
  | some available =>
    if !satisfies available.version dependency.versionRange then
      [.dependencyVersionMismatch id dependency.id dependency.versionRange available.version]
    else []

def checkManifest (allowed : List GameExtensionPermission) (byId : Manifests) (id : Text) :
    List GameExtensionDiagnostic :=
  match byId.get? id with
  | none => []
  | some manifest =>
    ((manifest.permissions.filter fun permission => !allowed.contains permission).map
      (.permissionDenied id)) ++
    (manifest.dependencies.insertionSort fun left right => left.id ≤ right.id).flatMap
      (checkDependency satisfies byId id)

/-- A diagnostic more than the limit allows is not cut off but fails the whole diagnosis. -/
def push (limits : GameExtensionSetLimits) (diagnostics : List GameExtensionDiagnostic)
    (diagnostic : GameExtensionDiagnostic) :
    Except GameExtensionSetError (List GameExtensionDiagnostic) :=
  if limits.maxDiagnostics ≤ diagnostics.length then .error .diagnosticLimitExceeded
  else .ok (diagnostics ++ [diagnostic])

def diagnoseGameExtensionSet (manifests : List GameExtensionManifest)
    (allowedPermissions : List GameExtensionPermission) (limits : GameExtensionSetLimits) :
    Except GameExtensionSetError GameExtensionSetReport :=
  if limits.maxExtensions < manifests.length then .error .extensionLimitExceeded
  else if ¬ allowedPermissions.Nodup then .error .allowedPermissionsInvalid
  else
    let grouped := groupManifests manifests
    let ids := sortTexts grouped.keys
    let byId := firstManifests grouped ids
    let found := checkDuplicates grouped ids ++
      ids.flatMap (checkManifest satisfies allowedPermissions byId) ++
      (findCycleMembers byId ids).map .dependencyCycle
    do
      let diagnostics ← runM (push limits) [] found
      if 0 < diagnostics.length then .ok ⟨false, [], diagnostics⟩
      else .ok ⟨true, topologicalOrder byId ids, []⟩

end OpenGameAgent.ExtensionKit
