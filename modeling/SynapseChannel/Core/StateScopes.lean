import SynapseChannel.Core.StateModels

/-!
# Core — StateScopes

File-scope scans over live claims and over retained protected custody.
-/

namespace SynapseChannel

open Py

variable [Builtins]

/-- Whether a scope contends with the scope stored on a claim. -/
def TaskClaim.contends (worktree : String) (paths : List String)
    (pathIdentity : Option ClaimScopeIdentity) (other : TaskClaim) : Bool :=
  claimScopesConflict worktree paths pathIdentity other.worktree other.paths other.pathIdentity

/-- The first other live claim whose file scope contends, if any. -/
def findScopeConflict (claims : Dict String TaskClaim) (task agent worktree : String)
    (paths : List String) (pathIdentity : Option ClaimScopeIdentity) : Option (String × String) :=
  (claims.items.find? fun e =>
    !(e.1 = task || e.2.owner = agent) && e.2.contends worktree paths pathIdentity).map
      fun e => (e.1, e.2.owner)

theorem findScopeConflict_none {claims : Dict String TaskClaim} {task agent worktree : String}
    {paths : List String} {pathIdentity : Option ClaimScopeIdentity}
    (h : findScopeConflict claims task agent worktree paths pathIdentity = none)
    {other : String} {c : TaskClaim} (hc : claims.get? other = some c) (htask : other ≠ task)
    (howner : c.owner ≠ agent) : c.contends worktree paths pathIdentity = false := by
  rw [findScopeConflict, Option.map_eq_none_iff, List.find?_eq_none] at h
  have := h (other, c) ((claims.mem_items_iff other c).mpr hc)
  simpa [htask, howner] using this

/-- Immutable claim witness retained until explicit reservation
settlement. -/
structure ProtectedClaimCustody where
  taskId : String
  owner : String
  epoch : Int
  version : Int
  leaseExpiresAt : Float
  worktree : String
  paths : List String
  pathIdentity : Option ClaimScopeIdentity
deriving DecidableEq

/-- Task or scope overlap, without any same-owner exemption. -/
def ProtectedClaimCustody.conflicts (held : ProtectedClaimCustody) (taskId worktree : String)
    (paths : List String) (pathIdentity : Option ClaimScopeIdentity) : Bool :=
  held.taskId == taskId ||
    claimScopesConflict worktree paths pathIdentity held.worktree held.paths held.pathIdentity

end SynapseChannel
