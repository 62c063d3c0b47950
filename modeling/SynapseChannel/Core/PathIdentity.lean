import SynapseChannel.Core.Scoping

/-!
# Core — PathIdentity

Portable filesystem-canonical claim identities: their validation from
and rendering to wire mappings, and the comparison of two claim scopes,
each a worktree, display paths and an optional identity.
-/

namespace SynapseChannel

open Py

def pathIdentityVersion : Int := 1

def maxObjectIdLength : Nat := 160

def semanticScopeMarker : String := "/.synapse-symbol/"

/-- Canonical comparison values for one displayed claim path. -/
structure CanonicalPathIdentity where
  gitPath : String
  filesystemPath : String
  objectId : String := ""
  objectScope : String := ""
deriving DecidableEq

/-- Versioned canonical identity for one worktree-scoped claim. -/
structure ClaimScopeIdentity where
  worktreePath : String
  caseSensitive : Bool
  paths : List CanonicalPathIdentity
  worktreeObjectId : String := ""
  filesystemNamespace : String := ""
  version : Int := pathIdentityVersion
deriving DecidableEq

variable [Builtins]

/-! ## Comparison values -/

/-- Repository-relative comparison path in NFC. -/
def comparisonPath (path : String) (caseSensitive : Bool) : String :=
  let value := Builtins.nfc (normalizePath path)
  if caseSensitive then value else Builtins.casefold value

/-- `^[A-Za-z]:[\\/]` at the start of a path. -/
def hasDrivePrefix (value : String) : Bool :=
  match value.toList with
  | c :: ':' :: s :: _ => c.isAlpha && (s = '\\' || s = '/')
  | _ => false

/-- NFC worktree label that keeps legal path characters apart. -/
def comparisonWorktree (path : String) (caseSensitive : Bool) : String :=
  let value := Builtins.nfc path
  let value :=
    if hasDrivePrefix value || startsWith value "\\\\" then replaceChar value '\\' '/' else value
  if caseSensitive then value else Builtins.casefold value

/-! ## Validation -/

def identityString (value : Json) (field : String) (allowEmpty : Bool) : Except String String :=
  match value with
  | .str text =>
    if (text = "" ∧ allowEmpty = false) ∨ len text > maxPathLength ∨ isPrintable text = false then
      .error s!"claim path identity {field} is invalid"
    else .ok text
  | _ => .error s!"claim path identity {field} must be a string"

/-- `[A-Za-z0-9_.:-]`. -/
def isObjectIdChar (c : Char) : Bool :=
  c.isAlphanum || c = '_' || c = '.' || c = ':' || c = '-'

def objectIdentity (value : Json) (field : String) : Except String String := do
  let text ← identityString value field true
  if text ≠ "" ∧ (len text > maxObjectIdLength ∨ text.toList.all isObjectIdChar = false) then
    .error s!"claim path identity {field} is invalid"
  else .ok text

namespace CanonicalPathIdentity

def asDict (x : CanonicalPathIdentity) : Members :=
  [("git_path", .str x.gitPath), ("filesystem_path", .str x.filesystemPath),
    ("object_id", .str x.objectId), ("object_scope", .str x.objectScope)]

def fromDict (data : Members) : Except String CanonicalPathIdentity := do
  let gitPath ← identityString (data.get "git_path") "git_path" false
  let filesystemPath ← identityString (data.get "filesystem_path") "filesystem_path" true
  if normalizePath gitPath ≠ gitPath ∨ normalizePath filesystemPath ≠ filesystemPath then
    .error "claim path identity paths must be canonical and relative"
  else do
    let objectScope ← identityString (data.getD "object_scope" (.str "")) "object_scope" true
    if normalizePath objectScope ≠ objectScope then
      .error "claim path identity object_scope must be canonical"
    else do
      let objectId ← objectIdentity (data.getD "object_id" (.str "")) "object_id"
      return {
        gitPath := gitPath
        filesystemPath := filesystemPath
        objectId := objectId
        objectScope := objectScope }

end CanonicalPathIdentity

namespace ClaimScopeIdentity

def asDict (x : ClaimScopeIdentity) : Members :=
  [("version", .int x.version), ("worktree_path", .str x.worktreePath),
    ("worktree_object_id", .str x.worktreeObjectId),
    ("filesystem_namespace", .str x.filesystemNamespace),
    ("case_sensitive", .bool x.caseSensitive),
    ("paths", .arr (x.paths.map fun path => .obj path.asDict))]

/-- The mappings of a `paths` member. -/
def pathRows : Json → Except String (List Members)
  | .arr items => items.mapM fun item =>
    match item with
    | .obj members => .ok members
    | _ => .error "claim path identity paths must be a list of mappings"
  | _ => .error "claim path identity paths must be a list of mappings"

/-- A row with an object scope names that scope in its git path. -/
def checkObjectScope (caseSensitive : Bool) (path : CanonicalPathIdentity) :
    Except String Unit :=
  if path.objectScope = "" then .ok ()
  else
    match afterLast path.gitPath semanticScopeMarker with
    | none => .error "claim path identity object_scope requires a semantic git_path"
    | some encodedScope =>
      if encodedScope = "" then
        .error "claim path identity object_scope requires a semantic git_path"
      else if comparisonPath path.objectScope caseSensitive ≠ encodedScope then
        .error "claim path identity object_scope does not match git_path"
      else .ok ()

/-- `[A-Za-z]:/`, the only directory path that may end in a slash besides
the root. -/
def isDriveRoot (path : String) : Bool :=
  match path.toList with
  | [c, ':', '/'] => c.isAlpha
  | _ => false

def checkWorktreePath (worktreePath : String) (caseSensitive : Bool) : Except String Unit :=
  if endsWith worktreePath "/" ∧ worktreePath ≠ "/" ∧ isDriveRoot worktreePath = false then
    .error "claim path identity worktree_path is not canonical"
  else if comparisonWorktree worktreePath caseSensitive ≠ worktreePath then
    .error "claim path identity worktree_path is not canonical"
  else .ok ()

/-- The fields read once the version and the case policy are. -/
def fieldsFromDict (data : Members) (version : Int) (caseSensitive : Bool) :
    Except String ClaimScopeIdentity := do
  let worktreePath ← identityString (data.get "worktree_path") "worktree_path" false
  checkWorktreePath worktreePath caseSensitive
  let rows ← pathRows (data.get "paths")
  let paths ← rows.mapM CanonicalPathIdentity.fromDict
  paths.forM (checkObjectScope caseSensitive)
  let worktreeObjectId ←
    objectIdentity (data.getD "worktree_object_id" (.str "")) "worktree_object_id"
  let filesystemNamespace ←
    objectIdentity (data.getD "filesystem_namespace" (.str "")) "filesystem_namespace"
  return {
    worktreePath := worktreePath
    caseSensitive := caseSensitive
    paths := paths
    worktreeObjectId := worktreeObjectId
    filesystemNamespace := filesystemNamespace
    version := version }

def fromDict (data : Members) : Except String ClaimScopeIdentity :=
  match data.get "version" with
  | .int version =>
    if version ≠ pathIdentityVersion then .error "unsupported claim path identity version"
    else
      match data.get "case_sensitive" with
      | .bool caseSensitive => fieldsFromDict data version caseSensitive
      | _ => .error "claim path identity case_sensitive must be a boolean"
  | _ => .error "unsupported claim path identity version"

/-- Identity rows align one-to-one with the display paths. -/
def validatesDisplayPaths (x : ClaimScopeIdentity) (paths : List String) : Bool :=
  paths.length == x.paths.length &&
    (paths.zip x.paths).all fun row => comparisonPath row.1 x.caseSensitive == row.2.gitPath

/-- The identity binds both ordinary claim scope fields. -/
def validatesDisplayScope (x : ClaimScopeIdentity) (worktree : String) (paths : List String) :
    Bool :=
  comparisonWorktree worktree x.caseSensitive == x.worktreePath && x.validatesDisplayPaths paths

end ClaimScopeIdentity

/-- Parse an optional additive identity, keeping absent and invalid apart. -/
def parseOptionalClaimScopeIdentity (data : Members) :
    Except String (Option ClaimScopeIdentity) :=
  match data.get? "path_identity" with
  | none => .ok none
  | some (.obj raw) => (ClaimScopeIdentity.fromDict raw).map some
  | some _ => .error "claim path identity must be a mapping"

/-! ## Conflicts -/

omit [Builtins] in
/-- The `device:inode` part of an object key. -/
def objectKeyBase (value : String) : String := join ":" ((split value ':').take 2)

/-- Two worktree-root keys name one root across client versions. -/
def sameWorktreeKey (left right : String) : Bool :=
  if countChar left ':' ≥ 2 ∧ countChar right ':' ≥ 2 then left == right
  else objectKeyBase left == objectKeyBase right

/-- Two display/identity pairs name one physical worktree. -/
def claimWorktreesMatch (displayA : String) (identityA : Option ClaimScopeIdentity)
    (displayB : String) (identityB : Option ClaimScopeIdentity) : Bool :=
  match identityA, identityB with
  | none, none => displayA == displayB
  | some a, some b =>
    let caseSensitive := a.caseSensitive && b.caseSensitive
    if comparisonWorktree a.worktreePath caseSensitive
        ≠ comparisonWorktree b.worktreePath caseSensitive then false
    else if a.filesystemNamespace ≠ "" ∧ b.filesystemNamespace ≠ "" ∧
        a.filesystemNamespace ≠ b.filesystemNamespace then false
    else if a.worktreeObjectId ≠ "" ∧ b.worktreeObjectId ≠ "" then
      sameWorktreeKey a.worktreeObjectId b.worktreeObjectId
    else true
  | some known, none => comparisonWorktree displayB known.caseSensitive == known.worktreePath
  | none, some known => comparisonWorktree displayA known.caseSensitive == known.worktreePath

/-- Two local object-id namespaces share one proven root. -/
def claimObjectIdsComparable (identityA identityB : Option ClaimScopeIdentity) : Bool :=
  match identityA, identityB with
  | some a, some b =>
    a.filesystemNamespace != "" && a.filesystemNamespace == b.filesystemNamespace &&
      a.worktreeObjectId != "" && b.worktreeObjectId != "" &&
      sameWorktreeKey a.worktreeObjectId b.worktreeObjectId
  | _, _ => false

/-- Two canonical path identities share a filesystem object or scope. -/
def canonicalPairOverlaps (objectIdentitySafe : Bool) (a b : CanonicalPathIdentity) : Bool :=
  if objectIdentitySafe ∧ a.objectId ≠ "" ∧ a.objectId = b.objectId then
    pathsOverlap a.objectScope b.objectScope
  else pathsOverlap a.gitPath b.gitPath || pathsOverlap a.filesystemPath b.filesystemPath

/-- Project a canonical row under a shared case policy. -/
def underCasePolicy (caseSensitive : Bool) (x : CanonicalPathIdentity) : CanonicalPathIdentity where
  gitPath := comparisonPath x.gitPath caseSensitive
  filesystemPath := comparisonPath x.filesystemPath caseSensitive
  objectId := x.objectId
  objectScope := comparisonPath x.objectScope caseSensitive

/-- Project a legacy display path into the policy of a new peer. -/
def legacyIdentity (caseSensitive : Bool) (path : String) : CanonicalPathIdentity where
  gitPath := comparisonPath path caseSensitive
  filesystemPath := comparisonPath path caseSensitive

/-- The case policy two scopes are compared under. -/
def sharedCasePolicy : Option ClaimScopeIdentity → Option ClaimScopeIdentity → Bool
  | some a, some b => a.caseSensitive && b.caseSensitive
  | some a, none => a.caseSensitive
  | none, some b => b.caseSensitive
  | none, none => true

/-- The rows one side is compared by, given the other side's identity. -/
def comparisonRows (paths : List String) (own other : Option ClaimScopeIdentity) :
    List CanonicalPathIdentity :=
  match own, other with
  | some x, _ => x.paths
  | none, some peer => paths.map (legacyIdentity peer.caseSensitive)
  | none, none => paths.map (legacyIdentity true)

/-- Two display-plus-identity claim scopes contend. -/
def claimScopesConflict (worktreeA : String) (pathsA : List String)
    (identityA : Option ClaimScopeIdentity) (worktreeB : String) (pathsB : List String)
    (identityB : Option ClaimScopeIdentity) : Bool :=
  if !claimWorktreesMatch worktreeA identityA worktreeB identityB &&
      !claimObjectIdsComparable identityA identityB then false
  else if pathsA.isEmpty || pathsB.isEmpty then true
  else if identityA.isNone && identityB.isNone then
    pathsA.any fun a => pathsB.any fun b => pathsOverlap a b
  else
    let caseSensitive := sharedCasePolicy identityA identityB
    let left := (comparisonRows pathsA identityA identityB).map (underCasePolicy caseSensitive)
    let right := (comparisonRows pathsB identityB identityA).map (underCasePolicy caseSensitive)
    let objectIdentitySafe := claimObjectIdsComparable identityA identityB
    left.any fun a => right.any fun b => canonicalPairOverlaps objectIdentitySafe a b

/-! ## The conflict relation is symmetric -/

omit [Builtins] in
theorem sameWorktreeKey_comm (left right : String) :
    sameWorktreeKey left right = sameWorktreeKey right left := by
  simp only [sameWorktreeKey, and_comm]
  split <;> exact Bool.beq_comm

theorem claimWorktreesMatch_comm (displayA displayB : String)
    (identityA identityB : Option ClaimScopeIdentity) :
    claimWorktreesMatch displayA identityA displayB identityB =
      claimWorktreesMatch displayB identityB displayA identityA := by
  cases identityA with
  | none =>
    cases identityB with
    | none => exact Bool.beq_comm
    | some b => rfl
  | some a =>
    cases identityB with
    | none => rfl
    | some b =>
      simp only [claimWorktreesMatch, Bool.and_comm b.caseSensitive a.caseSensitive,
        sameWorktreeKey_comm b.worktreeObjectId a.worktreeObjectId]
      congr 1
      · exact propext ne_comm
      · congr 1
        · exact propext ⟨fun ⟨h₁, h₂, h₃⟩ => ⟨h₂, h₁, h₃.symm⟩, fun ⟨h₁, h₂, h₃⟩ => ⟨h₂, h₁, h₃.symm⟩⟩
        · congr 1
          exact propext and_comm

section

omit [Builtins]

theorem claimObjectIdsComparable_comm (identityA identityB : Option ClaimScopeIdentity) :
    claimObjectIdsComparable identityA identityB =
      claimObjectIdsComparable identityB identityA := by
  cases identityA with
  | none => cases identityB <;> rfl
  | some a =>
    cases identityB with
    | none => rfl
    | some b =>
      simp only [claimObjectIdsComparable, sameWorktreeKey_comm b.worktreeObjectId]
      by_cases h : a.filesystemNamespace = b.filesystemNamespace
      · simp only [h, BEq.rfl, Bool.and_true]
        cases b.filesystemNamespace != "" <;> cases a.worktreeObjectId != "" <;>
          cases b.worktreeObjectId != "" <;> rfl
      · rw [beq_eq_false_iff_ne.mpr h, beq_eq_false_iff_ne.mpr (Ne.symm h)]
        simp only [Bool.and_false, Bool.false_and]

theorem canonicalPairOverlaps_comm (safe : Bool) (a b : CanonicalPathIdentity) :
    canonicalPairOverlaps safe a b = canonicalPairOverlaps safe b a := by
  simp only [canonicalPairOverlaps]
  rw [pathsOverlap_comm b.objectScope, pathsOverlap_comm b.gitPath,
    pathsOverlap_comm b.filesystemPath]
  by_cases h : a.objectId = b.objectId
  · simp [h]
  · simp [h, Ne.symm h]

theorem any_any_comm {α β : Type} (xs : List α) (ys : List β) {p : α → β → Bool}
    {q : β → α → Bool} (hpq : ∀ a b, p a b = q b a) :
    (xs.any fun a => ys.any fun b => p a b) = (ys.any fun b => xs.any fun a => q b a) := by
  rw [Bool.eq_iff_iff]
  simp only [List.any_eq_true, hpq]
  constructor
  · rintro ⟨a, ha, b, hb, h⟩
    exact ⟨b, hb, a, ha, h⟩
  · rintro ⟨b, hb, a, ha, h⟩
    exact ⟨a, ha, b, hb, h⟩

theorem sharedCasePolicy_comm (identityA identityB : Option ClaimScopeIdentity) :
    sharedCasePolicy identityA identityB = sharedCasePolicy identityB identityA := by
  cases identityA <;> cases identityB <;> simp [sharedCasePolicy, Bool.and_comm]

end

/-- Contention does not depend on which scope is taken first. -/
theorem claimScopesConflict_comm (worktreeA : String) (pathsA : List String)
    (identityA : Option ClaimScopeIdentity) (worktreeB : String) (pathsB : List String)
    (identityB : Option ClaimScopeIdentity) :
    claimScopesConflict worktreeA pathsA identityA worktreeB pathsB identityB =
      claimScopesConflict worktreeB pathsB identityB worktreeA pathsA identityA := by
  simp only [claimScopesConflict]
  rw [claimWorktreesMatch_comm worktreeB worktreeA, claimObjectIdsComparable_comm identityB,
    sharedCasePolicy_comm identityB, Bool.or_comm pathsB.isEmpty,
    Bool.and_comm identityB.isNone,
    any_any_comm pathsA pathsB pathsOverlap_comm,
    any_any_comm _ _ (canonicalPairOverlaps_comm _)]

end SynapseChannel
