import SynapseChannel.Core.Lifecycle
import SynapseChannel.Core.PathIdentity

/-!
# Core — StateModels

Data models stored by the in-memory coordination state: the git context,
the task claim with its wire and durable snapshots, and resource offers.
-/

namespace SynapseChannel

open Py

/-- The git branch context a claim is scoped to; opaque to the hub. -/
structure GitContext where
  branch : String
  base : String := "main"
  autoReleaseOn : String := "merge"
deriving DecidableEq

namespace GitContext

def autoReleaseModes : List String := ["manual", "commit", "merge"]

def asDict (git : GitContext) : Members :=
  [("branch", .str git.branch), ("base", .str git.base),
    ("auto_release_on", .str git.autoReleaseOn)]

def fromDict [Builtins] (data : Members) : GitContext :=
  let mode := (data.getD "auto_release_on" (.str "merge")).toStr
  { branch := (data.getD "branch" (.str "")).toStr
    base := ((data.get "base").or (.str "main")).toStr
    autoReleaseOn := if mode ∈ autoReleaseModes then mode else "manual" }

end GitContext

/-- A lease held by one agent over a named unit of work. -/
structure TaskClaim where
  taskId : String
  owner : String
  note : String
  claimedAt : Float
  leaseExpiresAt : Float
  quotaPrincipal : String := ""
  status : String := TaskStatus.claimed.value
  dataRef : String := ""
  worktree : String := defaultWorktree
  paths : List String := []
  pathIdentity : Option ClaimScopeIdentity := none
  epoch : Int := 0
  version : Int := 0
  checkpoint : String := ""
  git : Option GitContext := none
  ownershipEpoch : Int := 0
deriving DecidableEq

namespace TaskClaim

/-- `ownership_epoch or epoch`. -/
def anchor (claim : TaskClaim) : Int :=
  if claim.ownershipEpoch = 0 then claim.epoch else claim.ownershipEpoch

/-- Use the current generation when no earlier ownership anchor was
supplied. -/
def postInit (claim : TaskClaim) : TaskClaim := { claim with ownershipEpoch := claim.anchor }

/-- Retain the ownership anchor only for an unchanged owner and exact
scope. -/
def continuationEpoch (claim : TaskClaim) (owner worktree : String) (paths : List String)
    (pathIdentity : Option ClaimScopeIdentity) : Int :=
  if (claim.owner, claim.worktree, claim.paths, claim.pathIdentity)
      ≠ (owner, worktree, paths, pathIdentity) then 0
  else claim.anchor

/-- Public snapshot of the claim. -/
def asDict (claim : TaskClaim) : Members :=
  [("task_id", .str claim.taskId), ("owner", .str claim.owner), ("note", .str claim.note),
    ("claimed_at", .float claim.claimedAt), ("lease_expires_at", .float claim.leaseExpiresAt),
    ("status", .str claim.status), ("data_ref", .str claim.dataRef),
    ("worktree", .str claim.worktree), ("paths", .arr (claim.paths.map .str)),
    ("epoch", .int claim.epoch), ("ownership_epoch", .int claim.anchor),
    ("version", .int claim.version), ("checkpoint", .str claim.checkpoint),
    ("git", match claim.git with
      | none => .null
      | some git => .obj git.asDict)]
  ++ (match claim.pathIdentity with
      | none => []
      | some identity => [("path_identity", .obj identity.asDict)])

/-- Durable snapshot, with the private quota accounting. -/
def asPersistedDict (claim : TaskClaim) : Members :=
  claim.asDict ++
    (if claim.quotaPrincipal = "" then [] else [("quota_principal", .str claim.quotaPrincipal)])

/-- `quota_principal or owner`, the bucket the claim is charged to. -/
def chargedTo (claim : TaskClaim) : String :=
  if claim.quotaPrincipal = "" then claim.owner else claim.quotaPrincipal

end TaskClaim

/-- A capability that an agent advertises to the rest of the team. -/
structure ResourceOffer where
  agent : String
  kind : String
  name : String
  capacity : Int := 1
  metaMap : Members := []
  offeredAt : Float

end SynapseChannel
