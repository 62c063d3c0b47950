import SynapseChannel.Lib.Trace
import SynapseChannel.Core.NumericCoercion
import SynapseChannel.Core.StateLeases
import SynapseChannel.Core.StateScopes

/-!
# Core — State

The central registry of presence, task claims and offered resources.
Every verb takes the clock reading it would take from the system, and
answers with the state after it and its verdict: the grant message, or
the reason of the refusal. A refused verb still refreshes the caller's
heartbeat once its arguments are usable.
-/

namespace SynapseChannel

open Py

/-- Floor and ceiling of every requested or default TTL, in seconds. -/
def minimumTtlSeconds : Float := 30

def maximumTtlSeconds : Float := 2592000

def maxClaimsPerAgentDefault : Int := 128

def maxOffersPerAgentDefault : Int := 64

def defaultResourceTtlSeconds : Float := 300

/-- `max(a, b)`, which keeps `a` unless `b` is greater. -/
def pyMax (a b : Float) : Float := if a < b then b else a

/-- `min(a, b)`, which keeps `a` unless `b` is smaller. -/
def pyMin (a b : Float) : Float := if b < a then b else a

/-- Clamp a finite TTL into the TTL window. -/
def clampTtl (seconds : Float) : Float := pyMin (pyMax seconds minimumTtlSeconds) maximumTtlSeconds

/-- The registry of presence, claims, custody and resources. -/
structure SynapseState where
  defaultTtlSeconds : Float
  maxClaimsPerAgent : Int
  maxOffersPerAgent : Int
  maxPathsPerClaim : Int
  lastSeen : Dict String Float := Dict.empty
  claims : Dict String TaskClaim := Dict.empty
  protectedClaimCustody : Dict String (List ProtectedClaimCustody) := Dict.empty
  resources : Dict String ResourceOffer := Dict.empty
  expiredCheckpoints : Dict String String := Dict.empty
  epochSeq : Int := 0
  leaseIndex : LeaseIndex := {}

/-- The optional arguments of a claim. -/
structure ClaimArgs where
  note : String := ""
  ttlSeconds : Json := .null
  quotaPrincipal : Option String := none
  worktree : String := defaultWorktree
  paths : List String := []
  pathIdentity : Option ClaimScopeIdentity := none
  git : Option GitContext := none
  requireUnclaimed : Bool := false

/-- The optional arguments of a task update. -/
structure UpdateArgs where
  status : Option String := none
  note : Option String := none
  dataRef : Option String := none
  epoch : Option Int := none
  expectedVersion : Option Int := none

/-- A verdict: the message of a grant or the reason of a refusal. -/
abbrev Verdict := Except String String

namespace SynapseState

variable [Builtins]

/-- An empty registry; each argument is coerced as the constructor does. -/
def init (defaultTtl maxClaims maxOffers maxPaths : Json) : SynapseState where
  defaultTtlSeconds := clampTtl ((safeFloat defaultTtl (some 3600) true).getD 3600)
  maxClaimsPerAgent :=
    (safeInt maxClaims (some maxClaimsPerAgentDefault) (some 1) none true).getD 1
  maxOffersPerAgent :=
    (safeInt maxOffers (some maxOffersPerAgentDefault) (some 1) none true).getD 1
  maxPathsPerClaim := (safeInt maxPaths (some maxDeclaredPaths) (some 1) none true).getD 1

/-! ## Expiry and liveness -/

section

omit [Builtins]

/-- Apply one due heap entry; a superseded one is skipped. -/
def expireEntry (now : Float) (s : SynapseState) (e : LeaseEntry) : SynapseState :=
  let task := e.2.1
  match s.claims.get? task with
  | none => s
  | some claim =>
    if claim.epoch ≠ e.2.2 ∨ claim.leaseExpiresAt > now then s
    else
      { s with
        expiredCheckpoints :=
          if claim.checkpoint = "" then s.expiredCheckpoints
          else s.expiredCheckpoints.set task claim.checkpoint
        claims := s.claims.erase task }

/-- Drop every claim whose lease has reached or passed `now`. -/
def expireClaims (s : SynapseState) (now : Float) : SynapseState :=
  let due := s.leaseIndex.popDue now
  due.1.foldl (expireEntry now) { s with leaseIndex := due.2 }

/-- Drop resource offers not refreshed within `ttl` seconds of `now`. -/
def expireResources (s : SynapseState) (now : Float) (ttl : Float := defaultResourceTtlSeconds) :
    SynapseState :=
  let stale (key : String) : Bool :=
    (s.resources.get? key).any fun offer => decide (now - offer.offeredAt > ttl)
  { s with resources := s.resources.filterKeys fun key => !stale key }

/-- Record that `agent` is alive and expire anything now stale. -/
def heartbeat (s : SynapseState) (agent : String) (now : Float) : SynapseState :=
  let s := { s with lastSeen := s.lastSeen.set agent now }
  (s.expireClaims now).expireResources now

end

/-! ## Guards -/

omit [Builtins] in
/-- A reservation retains the exact claim witness. -/
def protectedTaskHeld (s : SynapseState) (task : String) : Bool :=
  s.protectedClaimCustody.values.any fun witnesses => witnesses.any fun w => w.taskId == task

/-- Retained scopes, without author or lease-expiry exemptions. -/
def protectedScopeHeld (s : SynapseState) (task worktree : String) (paths : List String)
    (pathIdentity : Option ClaimScopeIdentity) : Bool :=
  s.protectedClaimCustody.values.any fun witnesses =>
    witnesses.any fun w => w.conflicts task worktree paths pathIdentity

omit [Builtins] in
/-- How many live claims are charged to `quotaPrincipal`. -/
def claimsOwnedBy (s : SynapseState) (quotaPrincipal : String) : Nat :=
  s.claims.values.countP fun claim => claim.chargedTo = quotaPrincipal

/-- The first other live claim whose file scope contends, if any. -/
def scopeConflict (s : SynapseState) (task agent worktree : String) (paths : List String)
    (pathIdentity : Option ClaimScopeIdentity) : Option (String × String) :=
  findScopeConflict s.claims task agent worktree paths pathIdentity

section

omit [Builtins]

/-- Charge new principal claims; an unchanged renewal is free. -/
def claimQuotaAvailable (s : SynapseState) (agent principal : String)
    (existing : Option TaskClaim) : Bool :=
  (existing.any fun e => e.owner = agent && e.chargedTo = principal) ||
    decide ((s.claimsOwnedBy principal : Int) < s.maxClaimsPerAgent)

/-- The checkpoint of a granted claim: the continuing owner's, or the
retained resume token of the task. -/
def claimCheckpoint (s : SynapseState) (agent task : String) (existing : Option TaskClaim) :
    String × Dict String String :=
  match existing with
  | some e =>
    if e.owner = agent then (e.checkpoint, s.expiredCheckpoints)
    else ((s.expiredCheckpoints.get? task).getD "", s.expiredCheckpoints.erase task)
  | none => ((s.expiredCheckpoints.get? task).getD "", s.expiredCheckpoints.erase task)

/-- Store a claim under `task` and index its lease. -/
def install (s : SynapseState) (task : String) (claim : TaskClaim) : SynapseState :=
  let claims := s.claims.set task claim
  { s with claims, leaseIndex := s.leaseIndex.track claim claims }

/-- Drop a claim and the retained checkpoint of its task. -/
def remove (s : SynapseState) (task : String) : SynapseState :=
  { s with
    claims := s.claims.erase task
    expiredCheckpoints := s.expiredCheckpoints.erase task }

end

/-! ## Verbs -/

omit [Builtins] in
/-- The bucket a claim request is charged to. -/
def claimPrincipal (agent : String) (quotaPrincipal : Option String) : String :=
  let named := quotaPrincipal.getD ""
  let principal := strip (if named = "" then agent else named)
  if principal = "" then agent else principal

/-- The lease duration of a claim request. -/
def claimTtl (s : SynapseState) (ttlSeconds : Json) : Float :=
  match ttlSeconds with
  | .null => s.defaultTtlSeconds
  | requested =>
    clampTtl ((safeFloat requested (some s.defaultTtlSeconds) false).getD s.defaultTtlSeconds)

omit [Builtins] in
/-- The claim granted to `agent`, stamped with the next epoch. -/
def newClaim (s : SynapseState) (agent task : String) (now ttl : Float) (principal : String)
    (paths : List String) (args : ClaimArgs) : TaskClaim :=
  let existing := s.claims.get? task
  TaskClaim.postInit
    { taskId := task
      owner := agent
      note := strip args.note
      claimedAt := now
      leaseExpiresAt := now + ttl
      quotaPrincipal := principal
      worktree := args.worktree
      paths := paths
      pathIdentity := args.pathIdentity
      epoch := s.epochSeq + 1
      ownershipEpoch :=
        match existing with
        | some e => e.continuationEpoch agent args.worktree paths args.pathIdentity
        | none => 0
      checkpoint := (s.claimCheckpoint agent task existing).1
      git := args.git }

omit [Builtins] in
/-- The state with a claim granted. -/
def grantClaim (s : SynapseState) (agent task : String) (now ttl : Float) (principal : String)
    (paths : List String) (args : ClaimArgs) : SynapseState :=
  let retained := (s.claimCheckpoint agent task (s.claims.get? task)).2
  ({ s with epochSeq := s.epochSeq + 1, expiredCheckpoints := retained }).install task
    (s.newClaim agent task now ttl principal paths args)

/-- Acquire or renew a scoped lease on a task. -/
def claim (s : SynapseState) (agent taskId : String) (now : Float) (args : ClaimArgs) :
    SynapseState × Verdict :=
  let task := strip taskId
  if task = "" then (s, .error "Task ID is required.")
  else
    let principal := claimPrincipal agent args.quotaPrincipal
    let ttl := s.claimTtl args.ttlSeconds
    let paths := normalizePaths args.paths (some s.maxPathsPerClaim)
    if args.pathIdentity.any fun x => !x.validatesDisplayScope args.worktree paths then
      (s, .error s!"Task '{task}' path identity does not match its declared scope.")
    else
      let s := s.heartbeat agent now
      let existing := s.claims.get? task
      if s.protectedScopeHeld task args.worktree paths args.pathIdentity then
        (s, .error s!"Task '{task}' conflicts with outstanding protected custody.")
      else
        match existing.filter fun e =>
            (args.requireUnclaimed || e.owner ≠ agent) && decide (e.leaseExpiresAt > now) with
        | some e =>
          let owner := e.owner
          (s, .error s!"Task '{task}' is already claimed by {owner}.")
        | none =>
          match s.scopeConflict task agent args.worktree paths args.pathIdentity with
          | some (otherId, otherOwner) =>
            (s, .error
              s!"Task '{task}' file scope conflicts with '{otherId}' held by {otherOwner}.")
          | none =>
            if !s.claimQuotaAvailable agent principal existing then
              let cap := s.maxClaimsPerAgent
              (s, .error s!"Agent {agent} principal claim quota holds the maximum {cap} claims.")
            else
              (s.grantClaim agent task now ttl principal paths args,
                .ok s!"Task '{task}' claimed by {agent}.")

section

omit [Builtins]

/-- The claim with its lease extended by its own duration. -/
def renewedClaim (claim : TaskClaim) (now : Float) : TaskClaim :=
  let duration := claim.leaseExpiresAt - claim.claimedAt
  TaskClaim.postInit { claim with claimedAt := now, leaseExpiresAt := now + duration }

/-- Extend only the still-live ownership generation, keeping its scope
and metadata. -/
def renewClaim (s : SynapseState) (agent taskId : String) (now : Float) (epoch : Int)
    (paths : List String) : SynapseState × Verdict :=
  let task := strip taskId
  let s := s.heartbeat agent now
  match (s.claims.get? task).filter fun c =>
      c.owner = agent && (epoch = c.epoch || epoch = c.ownershipEpoch) with
  | none => (s, .error s!"Task '{task}' renewal lost its original ownership.")
  | some claim =>
    if s.protectedTaskHeld task then
      (s, .error s!"Task '{task}' has outstanding protected custody.")
    else if claim.paths ≠ paths then
      (s, .error "Renewal must repeat the original paths for ACL checks.")
    else
      (s.install task (renewedClaim claim now), .ok s!"Task '{task}' renewed by {agent}.")

/-- A guard field that is given and differs. -/
def stale (guard : Option Int) (current : Int) : Bool := guard.any fun g => g ≠ current

/-- The claim with the updated fields and the next version. -/
def updatedClaim (claim : TaskClaim) (args : UpdateArgs) : TaskClaim :=
  let status := args.status.getD ""
  { claim with
    status := if status = "" then claim.status else status
    note := (args.note.map strip).getD claim.note
    dataRef := (args.dataRef.map strip).getD claim.dataRef
    version := claim.version + 1 }

/-- Overwrite the stored claim of a task; its lease stays indexed. -/
def putClaim (s : SynapseState) (task : String) (claim : TaskClaim) : SynapseState :=
  { s with claims := s.claims.set task claim }

/-- Update the status, note or artefact reference of an owned task. The
task id is used as given. -/
def updateTask (s : SynapseState) (agent taskId : String) (now : Float) (args : UpdateArgs) :
    SynapseState × Verdict :=
  let s := s.heartbeat agent now
  if s.protectedTaskHeld taskId then
    (s, .error s!"Task '{taskId}' has outstanding protected custody.")
  else
    match s.claims.get? taskId with
    | none => (s, .error s!"Task '{taskId}' not found.")
    | some claim =>
      let owner := claim.owner
      let status := args.status.getD ""
      if owner ≠ agent then
        (s, .error s!"Task '{taskId}' owned by {owner}, not {agent}.")
      else if stale args.epoch claim.epoch then
        let current := claim.epoch
        (s, .error s!"Task '{taskId}' epoch is stale (current {current}).")
      else if stale args.expectedVersion claim.version then
        let current := claim.version
        (s, .error s!"Task '{taskId}' version conflict (current {current}).")
      else if status ≠ "" ∧ canTransition claim.status status = false then
        let current := claim.status
        (s, .error s!"Task '{taskId}' cannot transition {current} -> {status}.")
      else
        (s.putClaim taskId (updatedClaim claim args),
          .ok s!"Task '{taskId}' updated by {agent}.")

/-- Save a resume token on an owned task. -/
def saveCheckpoint (s : SynapseState) (agent taskId : String) (now : Float)
    (checkpoint : String) (epoch : Option Int) : SynapseState × Verdict :=
  let task := strip taskId
  let s := s.heartbeat agent now
  if s.protectedTaskHeld task then
    (s, .error s!"Task '{task}' has outstanding protected custody.")
  else
    match s.claims.get? task with
    | none => (s, .error s!"Task '{task}' not found.")
    | some claim =>
      let owner := claim.owner
      if owner ≠ agent then (s, .error s!"Task '{task}' owned by {owner}, not {agent}.")
      else if stale epoch claim.epoch then
        let current := claim.epoch
        (s, .error s!"Task '{task}' epoch is stale (current {current}).")
      else
        (s.putClaim task { claim with checkpoint, version := claim.version + 1 },
          .ok s!"Checkpoint saved for '{task}' by {agent}.")

/-- Release a task held by `agent`. -/
def release (s : SynapseState) (agent taskId : String) (now : Float) (epoch : Option Int) :
    SynapseState × Verdict :=
  let task := strip taskId
  if task = "" then (s, .error "Task ID is required.")
  else
    let s := s.heartbeat agent now
    match s.claims.get? task with
    | none => (s, .error s!"Task '{task}' is not currently claimed.")
    | some existing =>
      let owner := existing.owner
      if s.protectedTaskHeld task then
        (s, .error s!"Task '{task}' has outstanding protected custody.")
      else if owner ≠ agent then (s, .error s!"Task '{task}' is owned by {owner}, not {agent}.")
      else if stale epoch existing.epoch then
        let current := existing.epoch
        (s, .error s!"Task '{task}' epoch is stale (current {current}).")
      else (s.remove task, .ok s!"Task '{task}' released by {agent}.")

/-- Release a task regardless of who holds it, on verified authority. -/
def forceRelease (s : SynapseState) (taskId operator : String) : SynapseState × Verdict :=
  let task := strip taskId
  if task = "" then (s, .error "Task ID is required.")
  else
    match s.claims.get? task with
    | none => (s, .error s!"Task '{task}' is not currently claimed.")
    | some existing =>
      if s.protectedTaskHeld task then
        (s, .error s!"Task '{task}' has outstanding protected custody.")
      else
        let previousOwner := existing.owner
        (s.remove task, .ok s!"Task '{task}' released by operator {operator} (was held by {previousOwner}).")

/-- The claim moved to `target`, stamped with the next epoch and a full
lease, still charged to the giver. -/
def movedClaim (s : SynapseState) (task target : String) (claim : TaskClaim)
    (note : Option String) (now : Float) : TaskClaim :=
  TaskClaim.postInit
    { taskId := task
      owner := target
      note := (note.map strip).getD claim.note
      claimedAt := now
      leaseExpiresAt := now + s.defaultTtlSeconds
      quotaPrincipal := claim.chargedTo
      status := claim.status
      dataRef := claim.dataRef
      worktree := claim.worktree
      paths := claim.paths
      pathIdentity := claim.pathIdentity
      epoch := s.epochSeq + 1
      checkpoint := claim.checkpoint
      git := claim.git }

/-- The state with a task moved. -/
def moveClaim (s : SynapseState) (task target : String) (claim : TaskClaim)
    (note : Option String) (now : Float) : SynapseState :=
  let moved := s.movedClaim task target claim note now
  let s := ({ s with epochSeq := s.epochSeq + 1 }).install task moved
  { s with lastSeen := s.lastSeen.set target now }

end

/-- Transfer an owned task to another agent in one atomic step. -/
def handoff (s : SynapseState) (agent taskId toAgent : String) (now : Float)
    (note : Option String) (epoch : Option Int) : SynapseState × Verdict :=
  let task := strip taskId
  let target := strip toAgent
  if task = "" then (s, .error "Task ID is required.")
  else if target = "" then (s, .error "Handoff target is required.")
  else
    let s := s.heartbeat agent now
    match s.claims.get? task with
    | none => (s, .error s!"Task '{task}' is not currently claimed.")
    | some claim =>
      let owner := claim.owner
      if s.protectedTaskHeld task then
        (s, .error s!"Task '{task}' has outstanding protected custody.")
      else if owner ≠ agent then (s, .error s!"Task '{task}' is owned by {owner}, not {agent}.")
      else if target = agent then (s, .error s!"Task '{task}' is already owned by {agent}.")
      else if stale epoch claim.epoch then
        let current := claim.epoch
        (s, .error s!"Task '{task}' epoch is stale (current {current}).")
      else if s.protectedScopeHeld task claim.worktree claim.paths claim.pathIdentity then
        (s, .error s!"Task '{task}' conflicts with outstanding protected custody.")
      else if (s.claimsOwnedBy target : Int) ≥ s.maxClaimsPerAgent then
        let cap := s.maxClaimsPerAgent
        (s, .error s!"Agent {target} holds the maximum {cap} claims.")
      else
        match s.scopeConflict task target claim.worktree claim.paths claim.pathIdentity with
        | some (otherId, otherOwner) =>
          (s, .error
            s!"Task '{task}' file scope conflicts with '{otherId}' held by {otherOwner}.")
        | none =>
          (s.moveClaim task target claim note now,
            .ok s!"Task '{task}' handed from {agent} to {target}.")

omit [Builtins] in
/-- The state after a view of it is built: stale leases and offers are
expired first. -/
def snapshot (s : SynapseState) (now : Float) : SynapseState :=
  (s.expireClaims now).expireResources now

end SynapseState

/-! ## Runs -/

/-- A call of one verb of the registry. -/
inductive StateOp where
  | claim (agent taskId : String) (now : Float) (args : ClaimArgs)
  | renewClaim (agent taskId : String) (now : Float) (epoch : Int) (paths : List String)
  | updateTask (agent taskId : String) (now : Float) (args : UpdateArgs)
  | saveCheckpoint (agent taskId : String) (now : Float) (checkpoint : String)
      (epoch : Option Int)
  | release (agent taskId : String) (now : Float) (epoch : Option Int)
  | forceRelease (taskId operator : String)
  | handoff (agent taskId toAgent : String) (now : Float) (note : Option String)
      (epoch : Option Int)
  | heartbeat (agent : String) (now : Float)
  | snapshot (now : Float)

/-- Apply one call. Heartbeats and snapshots have no verdict to read. -/
def StateOp.apply [Builtins] (s : SynapseState) : StateOp → SynapseState × Verdict
  | .claim agent taskId now args => s.claim agent taskId now args
  | .renewClaim agent taskId now epoch paths => s.renewClaim agent taskId now epoch paths
  | .updateTask agent taskId now args => s.updateTask agent taskId now args
  | .saveCheckpoint agent taskId now checkpoint epoch =>
    s.saveCheckpoint agent taskId now checkpoint epoch
  | .release agent taskId now epoch => s.release agent taskId now epoch
  | .forceRelease taskId operator => s.forceRelease taskId operator
  | .handoff agent taskId toAgent now note epoch => s.handoff agent taskId toAgent now note epoch
  | .heartbeat agent now => (s.heartbeat agent now, .ok "")
  | .snapshot now => (s.snapshot now, .ok "")

/-- The registry after one call. -/
def StateOp.next [Builtins] (s : SynapseState) (op : StateOp) : SynapseState := (op.apply s).1

/-- The registry after a sequence of calls. -/
def SynapseState.run [Builtins] (s : SynapseState) (ops : List StateOp) : SynapseState :=
  Trace.run StateOp.next s ops

end SynapseChannel
