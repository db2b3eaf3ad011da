import OpenGameAgent.Protocol.JsonMembers
import OpenGameAgent.Protocol.UnicodeText

/-!
# Extension manifests

`packages/extension-kit/src/manifest.ts`: what `parseGameExtensionManifest` accepts.  The strict
JSON reader and the two functions of `semver` are parameters.

* `parseGameExtensionManifest` — the checks in the order of the source.
* `Accepted` — what every manifest it returns is: its permissions and its dependencies occur once
  each, and it does not depend on itself (`parseGameExtensionManifest_accepted`).
-/

namespace OpenGameAgent.ExtensionKit

/-- A JavaScript string, in code units. -/
abbrev Text := List UInt16

scoped instance lawfulText : LawfulBEq Text := inferInstance

inductive GameExtensionPermission where
  | contextContribute
  | requestContribute
  | toolsContribute
deriving DecidableEq, Repr

/-- `GAME_EXTENSION_PERMISSIONS`, with the text of each. -/
def permissionOf (text : Text) : Option GameExtensionPermission :=
  if text = utf16 "context.contribute" then some .contextContribute
  else if text = utf16 "request.contribute" then some .requestContribute
  else if text = utf16 "tools.contribute" then some .toolsContribute
  else none

structure GameExtensionDependency where
  id : Text
  versionRange : Text
deriving DecidableEq

structure GameExtensionManifest where
  id : Text
  version : Text
  permissions : List GameExtensionPermission
  dependencies : List GameExtensionDependency
deriving DecidableEq

/-- The limits, which `captureManifestLimits` requires to be positive safe integers. -/
structure GameExtensionManifestLimits where
  maxManifestBytes : ℕ
  maxJsonDepth : ℕ
  maxIdentifierBytes : ℕ
  maxVersionBytes : ℕ
  maxVersionRangeBytes : ℕ
  maxDependencies : ℕ

inductive GameExtensionManifestErrorCode where
  | invalidJson
  | limitExceeded
  | schemaUnsupported
  | invalid
deriving DecidableEq, Repr

/-- How the strict JSON reader refuses a text. -/
inductive StrictJsonFailure where
  | tooDeep
  | invalid
deriving DecidableEq, Repr

/-- What the manifest reader takes from outside: the JSON reader and `valid` and `validRange` of
`semver`. -/
structure ManifestReaders where
  parseStrictJsonText : Text → ℕ → Except StrictJsonFailure JsonValue
  valid : Text → Option Text
  validRange : Text → Option Text

/-! ## Identifiers -/

def isLowerAlphanumeric (u : UInt16) : Bool :=
  (0x61 ≤ u && u ≤ 0x7a) || (0x30 ≤ u && u ≤ 0x39)

/-- `[a-z0-9.-]`. -/
def isIdentifierUnit (u : UInt16) : Bool := isLowerAlphanumeric u || u == 0x2e || u == 0x2d

/-- Two hyphens or two dots in a row. -/
def hasDouble : Text → Bool
  | u :: v :: rest => (u == v && (u == 0x2d || u == 0x2e)) || hasDouble (v :: rest)
  | _ => false

/-- `isExtensionIdentifier`: letters and digits at both ends, dots and hyphens between them, never
two of a kind in a row. -/
def isExtensionIdentifier (text : Text) (maxBytes : ℕ) : Bool :=
  decide (utf8Length text ≤ maxBytes) && !hasDouble text && text.all isIdentifierUnit &&
    text.head?.any isLowerAlphanumeric && text.getLast?.any isLowerAlphanumeric

def isBoundedString (text : Text) (maxBytes : ℕ) : Bool :=
  decide (0 < text.length) && decide (utf8Length text ≤ maxBytes)

/-- `text.trim() === text`. -/
def isTrimmedText (text : Text) : Bool :=
  !text.head?.any isTrimmedUnit && !text.getLast?.any isTrimmedUnit

/-! ## Parsing -/

def manifestFields : List Text :=
  ["schemaVersion", "id", "version", "permissions", "dependencies"].map utf16

def dependencyFields : List Text := ["id", "versionRange"].map utf16

/-- The string of a member, where it has one. -/
def textMember (key : String) (value : JsonValue) : Option Text :=
  match value.member key with
  | some (.string text) => some text
  | _ => none

/-- The permissions read so far, and the next. -/
def readPermission (permissions : List GameExtensionPermission) :
    JsonValue → Except GameExtensionManifestErrorCode (List GameExtensionPermission)
  | .string text =>
    match permissionOf text with
    | some permission =>
      if permission ∈ permissions then .error .invalid else .ok (permissions ++ [permission])
    | none => .error .invalid
  | _ => .error .invalid

/-- The dependencies read so far, and the next. -/
def readDependency (readers : ManifestReaders) (limits : GameExtensionManifestLimits) (own : Text)
    (dependencies : List GameExtensionDependency) (value : JsonValue) :
    Except GameExtensionManifestErrorCode (List GameExtensionDependency) :=
  match value with
  | .object fields =>
    if fields.length ≠ dependencyFields.length ∨
        (fields.any fun field => !dependencyFields.contains field.1) then .error .invalid
    else
      match textMember "id" value, textMember "versionRange" value with
      | some id, some versionRange =>
        if !isExtensionIdentifier id limits.maxIdentifierBytes ∨ id = own ∨
            id ∈ dependencies.map (·.id) ∨
            !isBoundedString versionRange limits.maxVersionRangeBytes ∨
            !isTrimmedText versionRange ∨ readers.validRange versionRange = none then
          .error .invalid
        else .ok (dependencies ++ [⟨id, versionRange⟩])
      | _, _ => .error .invalid
  | _ => .error .invalid

/-- The manifest in a JSON value. -/
def readManifest (readers : ManifestReaders) (limits : GameExtensionManifestLimits)
    (value : JsonValue) : Except GameExtensionManifestErrorCode GameExtensionManifest :=
  match value with
  | .object fields =>
    if fields.any fun field => !manifestFields.contains field.1 then .error .invalid
    else if textMember "schemaVersion" value ≠ some (utf16 "1") then .error .schemaUnsupported
    else
      match textMember "id" value with
      | none => .error .invalid
      | some id =>
        if !isExtensionIdentifier id limits.maxIdentifierBytes then .error .invalid
        else
          match textMember "version" value with
          | none => .error .invalid
          | some version =>
            if !isBoundedString version limits.maxVersionBytes ∨
                readers.valid version ≠ some version then .error .invalid
            else
              match value.member "permissions", value.member "dependencies" with
              | some (.array permissions), some (.array dependencies) =>
                if limits.maxDependencies < dependencies.length then .error .limitExceeded
                else do
                  let permissions ← runM readPermission [] permissions
                  let dependencies ← runM (readDependency readers limits id) [] dependencies
                  .ok { id, version, permissions, dependencies }
              | _, _ => .error .invalid
  | _ => .error .invalid

def parseGameExtensionManifest (readers : ManifestReaders) (limits : GameExtensionManifestLimits)
    (text : Text) : Except GameExtensionManifestErrorCode GameExtensionManifest :=
  if text.length = 0 then .error .invalidJson
  else if limits.maxManifestBytes < utf8Length text then .error .limitExceeded
  else
    match readers.parseStrictJsonText text limits.maxJsonDepth with
    | .error .tooDeep => .error .limitExceeded
    | .error .invalid => .error .invalidJson
    | .ok value => readManifest readers limits value

/-! ## What is accepted -/

/-- What is known of a manifest that was read. -/
structure Accepted (manifest : GameExtensionManifest) : Prop where
  nonempty : manifest.id ≠ []
  permissions : manifest.permissions.Nodup
  dependencies : (manifest.dependencies.map (·.id)).Nodup
  others : manifest.id ∉ manifest.dependencies.map (·.id)

variable {readers : ManifestReaders} {limits : GameExtensionManifestLimits}

theorem readPermission_nodup {permissions next : List GameExtensionPermission} {value : JsonValue}
    (h : readPermission permissions value = .ok next) (hnodup : permissions.Nodup) :
    next.Nodup := by
  unfold readPermission at h
  split at h
  · split at h
    · split at h
      · cases h
      · rename_i hnew
        cases h
        exact List.nodup_append.mpr ⟨hnodup, by simp, by
          intro a ha b hb
          rw [List.mem_singleton.mp hb]
          rintro rfl
          exact hnew ha⟩
    · cases h
  · cases h

theorem readDependency_fresh {own : Text} {dependencies next : List GameExtensionDependency}
    {value : JsonValue} (h : readDependency readers limits own dependencies value = .ok next)
    (hfresh : (dependencies.map (·.id)).Nodup ∧ own ∉ dependencies.map (·.id)) :
    (next.map (·.id)).Nodup ∧ own ∉ next.map (·.id) := by
  unfold readDependency at h
  split at h
  · split at h
    · cases h
    · split at h
      · split at h
        · cases h
        · rename_i hchecks
          cases h
          simp only [not_or] at hchecks
          obtain ⟨-, hown, hnew, -⟩ := hchecks
          rw [List.map_append, List.map_singleton]
          refine ⟨List.nodup_append.mpr ⟨hfresh.1, by simp, ?_⟩, ?_⟩
          · intro a ha b hb
            rw [List.mem_singleton.mp hb]
            rintro rfl
            exact hnew ha
          · rw [List.mem_append, List.mem_singleton, not_or]
            exact ⟨hfresh.2, Ne.symm hown⟩
      · cases h
  · cases h

theorem readManifest_accepted {value : JsonValue} {manifest : GameExtensionManifest}
    (h : readManifest readers limits value = .ok manifest) : Accepted manifest := by
  unfold readManifest at h
  split at h
  · split at h
    · cases h
    split at h
    · cases h
    split at h
    · cases h
    · split at h
      · cases h
      rename_i hid
      split at h
      · cases h
      · split at h
        · cases h
        split at h
        · split at h
          · cases h
          rename_i id _ _ _ _ _ _ _ permissions dependencies _ _ _
          cases hperm : runM readPermission [] permissions with
          | error e =>
            rw [hperm] at h
            cases h
          | ok permissions =>
            rw [hperm] at h
            cases hdeps : runM (readDependency readers limits id) [] dependencies with
            | error e =>
              rw [hdeps] at h
              cases h
            | ok dependencies =>
              rw [hdeps] at h
              cases h
              have hfresh := runM_invariant
                (fun dependencies : List GameExtensionDependency =>
                  (dependencies.map (·.id)).Nodup ∧ id ∉ dependencies.map (·.id))
                (fun _ _ _ hkept hread => readDependency_fresh hread hkept) (by simp) hdeps
              refine ⟨?_, ?_, hfresh.1, hfresh.2⟩
              · rintro rfl
                simp [isExtensionIdentifier] at hid
              · exact runM_invariant List.Nodup
                  (fun _ _ _ hkept hread => readPermission_nodup hread hkept) List.nodup_nil hperm
        · cases h
  · cases h

theorem parseGameExtensionManifest_accepted {text : Text} {manifest : GameExtensionManifest}
    (h : parseGameExtensionManifest readers limits text = .ok manifest) : Accepted manifest := by
  unfold parseGameExtensionManifest at h
  split at h
  · cases h
  split at h
  · cases h
  split at h
  · cases h
  · cases h
  · exact readManifest_accepted h

end OpenGameAgent.ExtensionKit
