import SynapseChannel.Core.ClaimApplication
import SynapseChannel.Multihub.NamespaceOwnership

/-!
# Multihub — ClaimForwarding

A hub that grants direct claims, claims other hubs forward, and handoffs.
A claim is in flight between its gate and its application, and a forwarded
one also until its answer is sent; any other call may come in between.
-/

namespace SynapseChannel

open Py

variable [Builtins]

/-! ## The wire -/

/-- A request of a hub that does not own the namespace. -/
structure ClaimForwardRequest where
  name : String
  claimant : String
  taskId : String
  claim : Members

/-- The verdict of the owning hub; `grant` is the lease's fields on a grant. -/
structure ClaimForwardResult where
  granted : Bool
  taskId : String
  name : String
  ownerHubId : String
  detail : String := ""
  grant : Option Members := none

/-- `_require_nonempty`. -/
def requireNonempty (value : Json) (field : String) : Except String String :=
  match value with
  | .str text => if strip text = "" then .error s!"{field} must not be empty" else .ok text
  | _ => .error s!"{field} must be a string"

/-- `_require_mapping`. -/
def requireMapping (value : Json) (field : String) : Except String Members :=
  match value with
  | .obj members => .ok members
  | _ => .error s!"{field} body must be a JSON object"

/-- `decode_claim_forward_request`. -/
def decodeClaimForwardRequest (raw : Json) : Except String ClaimForwardRequest := do
  let body ← requireMapping raw "request"
  let name ← requireNonempty (body.get "namespace") "namespace"
  let claimant ← requireNonempty (body.get "claimant") "claimant"
  let taskId ← requireNonempty (body.get "task_id") "task_id"
  let claim ← requireMapping (body.get "claim") "claim"
  return { name, claimant, taskId, claim }

/-- `claim_grant_fields`. -/
def claimGrantFields (claim : TaskClaim) : Members :=
  [("task_id", .str claim.taskId), ("owner", .str claim.owner), ("note", .str claim.note),
    ("lease_expires_at", .float claim.leaseExpiresAt),
    ("lease_duration_seconds", .float (claim.leaseExpiresAt - claim.claimedAt)),
    ("status", .str claim.status), ("worktree", .str claim.worktree),
    ("paths", .arr (claim.paths.map .str)), ("epoch", .int claim.epoch),
    ("ownership_epoch", .int claim.anchor), ("version", .int claim.version),
    ("checkpoint", .str claim.checkpoint),
    ("git", match claim.git with
      | none => .null
      | some git => .obj git.asDict)]
  ++ (match claim.pathIdentity with
      | none => []
      | some identity => [("path_identity", .obj identity.asDict)])

/-! ## The hub -/

/-- A claim that has passed its gate. -/
inductive ClaimCall where
  | direct (sender : String) (body : Members)
  | forward (peer : String) (request : ClaimForwardRequest)
  /-- Applied; the verdict is not sent yet. -/
  | answering (request : ClaimForwardRequest) (application : ClaimApplication)
  | done

structure ClaimHub where
  hubId : String
  /-- The ownership map, if there is one. -/
  ownership : Option NamespaceOwnership
  /-- Whether the startup replay quarantined journal rows. -/
  journalCorrupt : Bool := false
  /-- The hubs observed asserting authority over a namespace. -/
  feed : String → List String := fun _ => []
  state : SynapseState
  calls : List ClaimCall := []

/-- What the ownership gate makes of a direct claim. -/
inductive ClaimRoute where
  | grant
  | renewalRequiresOwner (taskId : String) (ownerHubId : Option String)
  | forwarded (ownerHubId : String)
  | refused (taskId : String) (decision : OwnershipDecision)

namespace ClaimHub

/-- `observed_asserting_hubs`. -/
def observedAssertingHubs (h : ClaimHub) (name : String) : List String := h.feed name

/-- `authorise_claim_ownership`; `relayed` says whether a claim forwarded to
an owner comes back with a verdict. -/
def authoriseClaimOwnership (h : ClaimHub) (sender : String) (data : Members)
    (relayed : String → Bool) : ClaimRoute :=
  match h.ownership with
  | none => .grant
  | some ownership =>
    let name := projectOf sender
    let decision := ownership.resolve name (h.observedAssertingHubs name)
    let taskId := ClaimBody.taskId data
    if decision.grantsLocally then .grant
    else if (data.get "local_renewal").truthy || data.contains "renew_epoch" then
      .renewalRequiresOwner taskId decision.ownerHubId
    else
      let owner := decision.ownerHubId.getD ""
      if decision.outcome = .remote ∧ relayed owner = true then .forwarded owner
      else .refused taskId decision

/-- `_owns_namespace`: the map alone is asked, whatever is observed. -/
def ownsNamespace (h : ClaimHub) (name : String) : Bool :=
  match h.ownership with
  | none => false
  | some ownership => (ownership.resolve name []).grantsLocally

/-- A denial of a request. -/
def denial (h : ClaimHub) (request : ClaimForwardRequest) (detail : String) :
    ClaimForwardResult where
  granted := false
  taskId := request.taskId
  name := request.name
  ownerHubId := h.hubId
  detail

/-- `_refuse_claim`. -/
def refuseClaim (h : ClaimHub) (authorised : Bool) (request : ClaimForwardRequest) :
    Option ClaimForwardResult :=
  if !authorised then some (h.denial request "peer not authorised to forward claims")
  else if h.journalCorrupt then
    some (h.denial request "durable journal recovery is required")
  else if !h.ownsNamespace request.name then
    let shown := Builtins.repr (.str request.name)
    some (h.denial request s!"this hub does not own namespace {shown}")
  else none

/-- `_duplicate_forwarded_claim`. -/
def duplicateForwardedClaim (h : ClaimHub) (request : ClaimForwardRequest) (now : Float) :
    Option TaskClaim :=
  match h.state.claims.get? request.taskId with
  | none => none
  | some existing =>
    if existing.owner ≠ request.claimant then none
    else if existing.leaseExpiresAt ≤ now then none
    else some existing

/-- The answer to a request whose claimant already holds the task. -/
def duplicateResult (h : ClaimHub) (request : ClaimForwardRequest) (claim : TaskClaim) :
    ClaimForwardResult where
  granted := true
  taskId := request.taskId
  name := request.name
  ownerHubId := h.hubId
  detail :=
    let task := request.taskId
    let claimant := request.claimant
    s!"Task '{task}' already claimed by {claimant}."
  grant := some (claimGrantFields claim)

/-- The answer to a request that was applied. -/
def appliedResult (h : ClaimHub) (request : ClaimForwardRequest) (application : ClaimApplication) :
    ClaimForwardResult where
  granted := application.claim.isSome
  taskId := request.taskId
  name := request.name
  ownerHubId := h.hubId
  detail := application.message
  grant := application.claim.map claimGrantFields

end ClaimHub

/-- The body of a handoff frame. -/
structure HandoffBody where
  taskId : String
  toAgent : String
  note : Option String
  epoch : Option Int

/-- What `handle_handoff` reads. -/
def handoffBody (data : Members) : HandoffBody where
  taskId := strip (ClaimBody.text data "task_id")
  toAgent := strip (((data.get "to_agent").or ((data.get "target").or (.str ""))).toStr)
  note :=
    match data.get "note" with
    | .null => none
    | note => some note.toStr
  epoch := optionalIntField data "epoch"

/-! ## Steps -/

/-- Calls that give no lease an owner. -/
def StateOp.acquires : StateOp → Bool
  | .claim _ _ _ _ => true
  | .handoff _ _ _ _ _ _ => true
  | _ => false

inductive ClaimStep where
  /-- The observed asserting hubs change. -/
  | observe (feed : String → List String)
  /-- A claim frame reaches the ownership gate. -/
  | frame (sender : String) (data : Members) (relayed : String → Bool)
  /-- A forwarded claim arrives; `authorised` is the serving policy's word on its peer. -/
  | request (peer : String) (data : Json) (authorised : Bool) (now : Float)
  /-- A claim in flight is applied; a direct one is charged to `quota`. -/
  | apply (slot : Nat) (quota : String) (now : Float)
  /-- The verdict on a forwarded claim is sent. -/
  | answer (slot : Nat) (now : Float)
  /-- A claim ends without being applied: another gate refuses it, or its operation key has
  been answered before. -/
  | drop (slot : Nat)
  | handoff (sender : String) (data : Members) (online : String → Bool) (now : Float)
  /-- Any other call on the registry. -/
  | verb (op : { op : StateOp // op.acquires = false })

namespace ClaimHub

def enter (h : ClaimHub) (call : ClaimCall) : ClaimHub := { h with calls := h.calls ++ [call] }

/-- The bucket a claim in flight is charged to, its claimant and its body. -/
def inFlight (h : ClaimHub) (slot : Nat) (quota : String) :
    Option (String × String × Members) :=
  match h.calls[slot]? with
  | some (.direct sender body) => some (quota, sender, body)
  | some (.forward peer request) =>
    some (s!"federation-peer:{peer}", request.claimant, request.claim)
  | _ => none

/-- The call after it is applied: a direct one is announced and over. -/
def afterApply (call : ClaimCall) (application : ClaimApplication) : ClaimCall :=
  match call with
  | .forward _ request => .answering request application
  | _ => .done

/-- `handle_multihub_claim_request` up to its first await: refuse, answer a
duplicate, or take the claim in. -/
def receive (h : ClaimHub) (peer : String) (data : Json) (authorised : Bool) (now : Float) :
    ClaimHub × Option (ClaimForwardRequest × ClaimForwardResult) :=
  match decodeClaimForwardRequest data with
  | .error _ => (h, none)
  | .ok request =>
    match h.refuseClaim authorised request with
    | some refusal => (h, some (request, refusal))
    | none =>
      match h.duplicateForwardedClaim request now with
      | some claim => (h, some (request, h.duplicateResult request claim))
      | none => (h.enter (.forward peer request), none)

/-- The registry after a handoff frame. -/
def handoff (h : ClaimHub) (sender : String) (data : Members) (online : String → Bool)
    (now : Float) : SynapseState × Verdict :=
  let body := handoffBody data
  if body.toAgent ≠ "" ∧ online body.toAgent = false then
    let target := body.toAgent
    (h.state, .error s!"Handoff target '{target}' is not online.")
  else h.state.handoff sender body.taskId body.toAgent now body.note body.epoch

/-- A claim in flight applied. -/
def applied (h : ClaimHub) (slot : Nat) (quota : String) (now : Float) :
    Option (SynapseState × ClaimApplication) :=
  (h.inFlight slot quota).map fun call =>
    h.state.applyClaim call.2.1 call.2.2 (some call.1) now

def step (h : ClaimHub) : ClaimStep → ClaimHub
  | .observe feed => { h with feed }
  | .frame sender data relayed =>
    match h.authoriseClaimOwnership sender data relayed with
    | .grant => h.enter (.direct sender data)
    | _ => h
  | .request peer data authorised now => (h.receive peer data authorised now).1
  | .apply slot quota now =>
    match h.calls[slot]?, h.applied slot quota now with
    | some call, some (state, application) =>
      { h with state, calls := h.calls.set slot (afterApply call application) }
    | _, _ => h
  | .answer slot _ =>
    match h.calls[slot]? with
    | some (.answering _ _) => { h with calls := h.calls.set slot .done }
    | _ => h
  | .drop slot => { h with calls := h.calls.set slot .done }
  | .handoff sender data online now => { h with state := (h.handoff sender data online now).1 }
  | .verb op => { h with state := op.1.next h.state }

/-- The task whose lease a step grants, renews or hands over. -/
def granted (h : ClaimHub) : ClaimStep → Option String
  | .apply slot quota now =>
    match h.inFlight slot quota, h.applied slot quota now with
    | some call, some (_, application) =>
      if application.claim.isSome then some (ClaimBody.taskId call.2.2) else none
    | _, _ => none
  | .handoff sender data online now =>
    match (h.handoff sender data online now).2 with
    | .ok _ => some (strip (handoffBody data).taskId)
    | .error _ => none
  | _ => none

/-- The verdict a step sends back to a forwarding hub, with the clock at that moment. -/
def answers (h : ClaimHub) : ClaimStep → Option (ClaimForwardRequest × ClaimForwardResult × Float)
  | .request peer data authorised now =>
    (h.receive peer data authorised now).2.map fun sent => (sent.1, sent.2, now)
  | .answer slot now =>
    match h.calls[slot]? with
    | some (.answering request application) =>
      some (request, h.appliedResult request application, now)
    | _ => none
  | _ => none

/-! ## What a step leaves -/

theorem applied_of_inFlight {h : ClaimHub} {slot : Nat} {quota bucket claimant : String}
    {body : Members} (hflight : h.inFlight slot quota = some (bucket, claimant, body))
    (now : Float) :
    h.applied slot quota now = some (h.state.applyClaim claimant body (some bucket) now) := by
  unfold applied
  rw [hflight]
  rfl

theorem applied_idle {h : ClaimHub} {slot : Nat} {quota : String}
    (hflight : h.inFlight slot quota = none) (now : Float) : h.applied slot quota now = none := by
  unfold applied
  rw [hflight]
  rfl

theorem step_apply {h : ClaimHub} {slot : Nat} {quota bucket claimant : String} {body : Members}
    {now : Float} {call : ClaimCall} (hcall : h.calls[slot]? = some call)
    (hflight : h.inFlight slot quota = some (bucket, claimant, body)) :
    h.step (.apply slot quota now) =
      { h with
        state := (h.state.applyClaim claimant body (some bucket) now).1
        calls := h.calls.set slot
          (afterApply call (h.state.applyClaim claimant body (some bucket) now).2) } := by
  unfold step
  dsimp only
  rw [hcall, applied_of_inFlight hflight]

theorem step_apply_idle {h : ClaimHub} {slot : Nat} {quota : String} {now : Float}
    (hflight : h.inFlight slot quota = none) : h.step (.apply slot quota now) = h := by
  unfold step
  dsimp only
  rw [applied_idle hflight]
  cases h.calls[slot]? <;> rfl

theorem step_request_state (h : ClaimHub) (peer : String) (data : Json) (authorised : Bool)
    (now : Float) : (h.step (.request peer data authorised now)).state = h.state := by
  show (h.receive peer data authorised now).1.state = h.state
  unfold receive
  split
  · rfl
  · split
    · rfl
    · split <;> rfl

end ClaimHub

end SynapseChannel
