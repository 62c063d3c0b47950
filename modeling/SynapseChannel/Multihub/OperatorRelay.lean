import SynapseChannel.Lib.Digest
import SynapseChannel.Multihub.ClaimForwarding
import SynapseChannel.Multihub.RelayApproval

/-!
# Multihub — OperatorRelay

The acting half of a cross-hub operator relay on a hub under the two-person
policy: the gate, the quorum, the force-release, and the audits a restarted
hub rebuilds the quorum from.
-/

namespace SynapseChannel

open Py
open Framing (utf8)

def EventKind.operatorRelay : String := "operator_relay"

/-! ## The wire -/

/-- The answer of the acting hub. -/
structure RelayActionResult where
  applied : Bool
  action : String
  name : String
  taskId : String
  ownerHubId : String
  detail : String := ""
  pending : Bool := false

/-- `_require_str`. -/
def requireStr (value : Json) (field : String) : Except String String :=
  match value with
  | .str text => .ok text
  | _ => .error s!"{field} must be a string"

/-- `_require_bool`. -/
def requireBool (value : Json) (field : String) : Except String Bool :=
  match value with
  | .bool b => .ok b
  | _ => .error s!"{field} must be a boolean"

/-- The value of an optional field, or its default where it is absent or null. -/
def optional {α : Type} (value : Json) (read : Json → Except String α) (default : α) :
    Except String α :=
  match value with
  | .null => .ok default
  | value => read value

/-- `decode_relay_request`. -/
def decodeRelayRequest (raw : Json) : Except String RelayActionRequest := do
  let body ← requireMapping raw "request"
  let action ← requireNonempty (body.get "action") "action"
  let name ← requireNonempty (body.get "namespace") "namespace"
  let taskId ← requireNonempty (body.get "task_id") "task_id"
  let operator ← requireNonempty (body.get "operator") "operator"
  let originHubId ← requireNonempty (body.get "origin_hub_id") "origin_hub_id"
  let reason ← optional (body.get "reason") (requireStr · "reason") ""
  let breakGlass ← optional (body.get "break_glass") (requireBool · "break_glass") false
  let idemKey ← optional (body.get "idem_key") (requireNonempty · "idem_key") ""
  return { action, name, taskId, operator, originHubId, reason, breakGlass, idemKey }

/-! ## The gate -/

/-- One verb in one namespace. -/
structure ScopeGrant where
  verb : String
  name : String

/-- `MultiHubAuthorisation`. -/
structure PeerAuthorisation where
  allowed : Bool
  reason : String
  scope : List ScopeGrant := []
  principal : String := ""

/-- What a connection proves to the serving policy; without a policy, nothing. -/
inductive PeerProof where
  | refused (reason : String)
  | proven (domainId : String) (scope : List ScopeGrant)

structure RelayDecision where
  allowed : Bool
  action : String
  reason : String

/-- `RELAYABLE_ACTIONS`: the verb that a peering must grant for an action, and whether the hub must
own the namespace. -/
def relayableActions (actionId : String) : Option (String × Bool) :=
  if actionId = "release" then some ("release", true) else none

/-- `_scope_grants`. -/
def scopeGrants (scope : List ScopeGrant) (verb name : String) : Bool :=
  scope.any fun grant => grant.verb == verb && grant.name == name

def authoriseRelay (request : RelayActionRequest) (peerAuthorised : Bool) (scope : List ScopeGrant)
    (ownsNamespace requireReason : Bool) : RelayDecision :=
  let refused reason : RelayDecision := { allowed := false, action := request.action, reason }
  if !peerAuthorised then refused "peer_not_authorised"
  else
    match relayableActions request.action with
    | none => refused "unknown_action"
    | some (verb, requiresOwnership) =>
      if requireReason && strip request.reason = "" then refused "reason_required"
      else if !scopeGrants scope verb request.name then refused "scope_not_granted"
      else if requiresOwnership && !ownsNamespace then refused "namespace_not_owned"
      else { allowed := true, action := request.action, reason := "authorised" }

variable [Builtins]

/-- `verified_peer_principal`. -/
def verifiedPeerPrincipal (domainId : String) : String :=
  let encoded := utf8 domainId
  "federation-peer:" ++ Builtins.sha256Hex
    (utf8 "synapse-channel:multihub-peer-principal:v1\x00" ++
      Framing.toBytes 4 encoded.length ++ encoded)

/-- `_composed`. -/
def PeerProof.authorisation : PeerProof → PeerAuthorisation
  | .refused reason => { allowed := false, reason }
  | .proven domainId scope =>
    { allowed := true, reason := "authorised", scope, principal := verifiedPeerPrincipal domainId }

/-! ## The hub -/

structure RelayHub where
  hubId : String
  /-- The ownership map, if there is one. -/
  ownership : Option WatchOwnership
  requireRelayReason : Bool
  state : SynapseState
  approvals : RelayApprovalLedger
  journal : Option EventStore

/-- What a submission comes to. -/
structure TwoPersonApplication where
  result : RelayActionResult
  auditPayload : Members

/-- `_PENDING_DETAIL` and `_AWAITING_DETAIL`. -/
def ApprovalStatus.detail : ApprovalStatus → String
  | .recorded => "recorded; awaiting approval by a second operator"
  | _ => "already recorded by this verified principal; awaiting a distinct principal"

/-- `_pending_audit_payload`. -/
def pendingAuditPayload (sender : String) (request : RelayActionRequest)
    (outcome : ApprovalOutcome) : Members :=
  [("action", .str request.action), ("namespace", .str request.name),
    ("task_id", .str (strip request.taskId)), ("direction", .str "in"),
    ("status", .str "pending"), ("peer", .str sender), ("operator", .str request.operator),
    ("requester", .str outcome.requester),
    ("requester_principal", .str outcome.requesterPrincipal),
    ("origin_hub_id", .str request.originHubId), ("reason", .str request.reason),
    ("break_glass", .bool request.breakGlass), ("applied", .bool false),
    ("detail", .str outcome.status.detail)]

/-- `_approved_noop_audit_payload`. -/
def approvedNoopAuditPayload (hubId sender : String) (request : RelayActionRequest)
    (outcome : ApprovalOutcome) (detail : String) : Members :=
  [("action", .str request.action), ("namespace", .str request.name),
    ("task_id", .str (strip request.taskId)), ("direction", .str "in"),
    ("status", .str "not_applied"), ("peer", .str sender), ("operator", .str request.operator),
    ("requester", .str outcome.requester), ("approver", .str outcome.approver),
    ("requester_principal", .str outcome.requesterPrincipal),
    ("approver_principal", .str outcome.approverPrincipal),
    ("origin_hub_id", .str request.originHubId), ("reason", .str request.reason),
    ("break_glass", .bool request.breakGlass), ("previous_owner", .str ""),
    ("owner_hub_id", .str hubId), ("applied", .bool false), ("detail", .str detail)]

/-- The audit of an applied release. -/
def releaseAuditPayload (sender : String) (request : RelayActionRequest)
    (outcome : ApprovalOutcome) (previousOwner detail : String) : Members :=
  [("action", .str request.action), ("namespace", .str request.name),
    ("task_id", .str (strip request.taskId)), ("direction", .str "in"),
    ("status", .str "applied"), ("peer", .str sender), ("operator", .str request.operator),
    ("requester", .str outcome.requester), ("approver", .str outcome.approver),
    ("requester_principal", .str outcome.requesterPrincipal),
    ("approver_principal", .str outcome.approverPrincipal),
    ("origin_hub_id", .str request.originHubId), ("reason", .str request.reason),
    ("break_glass", .bool request.breakGlass), ("previous_owner", .str previousOwner),
    ("applied", .bool true), ("detail", .str detail)]

namespace RelayHub

/-- `_authorise`. -/
def authorise (h : RelayHub) (request : RelayActionRequest) (proof : PeerProof) :
    RelayDecision × String :=
  let ownsNamespace := h.ownership.any fun ownership =>
    (ownership.resolve request.name []).grantsLocally
  let authorisation := proof.authorisation
  let peerAuthorised := authorisation.allowed && authorisation.principal != ""
  (authoriseRelay request peerAuthorised authorisation.scope ownsNamespace h.requireRelayReason,
    if peerAuthorised then authorisation.principal else "")

section

omit [Builtins]

/-- An answer to a request. -/
def answer (h : RelayHub) (request : RelayActionRequest) (applied : Bool) (detail : String)
    (pending : Bool := false) : RelayActionResult where
  applied
  action := request.action
  name := request.name
  taskId := request.taskId
  ownerHubId := h.hubId
  detail
  pending

/-- `_prepare_release`: the state after it, the answer, and the audit of an applied release. -/
def prepareRelease (h : RelayHub) (sender : String) (request : RelayActionRequest)
    (outcome : ApprovalOutcome) : SynapseState × RelayActionResult × Option Members :=
  let previousOwner := ((h.state.claims.get? (strip request.taskId)).map (·.owner)).getD ""
  match h.state.forceRelease request.taskId request.operator with
  | (state, .ok detail) =>
    (state, h.answer request true detail,
      some (releaseAuditPayload sender request outcome previousOwner detail))
  | (state, .error detail) => (state, h.answer request false detail, none)

/-- `_prepare_two_person_application`, on private copies of the registry and the ledger. -/
def prepareTwoPersonApplication (h : RelayHub) (sender : String) (request : RelayActionRequest)
    (principal : String) :
    Except String (SynapseState × RelayApprovalLedger × TwoPersonApplication) :=
  match h.approvals.submit request principal with
  | .error message => .error message
  | .ok (approvals, outcome) =>
    if outcome.status = .approved then
      match h.prepareRelease sender request outcome with
      | (state, result, some auditPayload) => .ok (state, approvals, { result, auditPayload })
      | (state, result, none) =>
        .ok (state, approvals,
          { result
            auditPayload := approvedNoopAuditPayload h.hubId sender request outcome result.detail })
    else
      .ok (h.state, approvals,
        { result := h.answer request false outcome.status.detail true
          auditPayload := pendingAuditPayload sender request outcome })

/-- `_persist_two_person_application`, and the events of a keyed operation: the release, if there is
one, and the audit. -/
def persistTwoPersonApplication (journal : EventStore) (request : RelayActionRequest)
    (application : TwoPersonApplication) (now : Float) : EventStore :=
  let released :=
    if application.result.applied then
      (journal.insertEnrolled now EventKind.release
        [("task_id", .str (strip request.taskId))]).1
    else journal
  (released.insertEnrolled now EventKind.operatorRelay application.auditPayload).1

end

/-- `handle_operator_relay_request`. `commits` is false where the write fails, and where a keyed
request is answered from the operation it repeats or conflicts with. -/
def handleOperatorRelayRequest (h : RelayHub) (sender : String) (data : Json) (proof : PeerProof)
    (now : Float) (commits : Bool) : RelayHub × Option RelayActionResult :=
  match decodeRelayRequest data with
  | .error _ => (h, none)
  | .ok request =>
    match h.authorise request proof with
    | (decision, principal) =>
      if !decision.allowed then (h, some (h.answer request false decision.reason))
      else
        match h.prepareTwoPersonApplication sender request principal with
        | .error _ => (h, none)
        | .ok (state, approvals, application) =>
          if commits then
            ({ h with
                state, approvals
                journal := h.journal.map fun journal =>
                  persistTwoPersonApplication journal request application now },
              some application.result)
          else (h, none)

omit [Builtins] in
/-- One row of the fold of a replay over the ledger. -/
def restoreRelay (l : RelayApprovalLedger) (event : StoredEvent) : RelayApprovalLedger :=
  if event.kind = EventKind.operatorRelay then l.restoreAudit event.payload else l

omit [Builtins] in
/-- The ledger that a journal's audits fold to. -/
def restoredApprovals (l : RelayApprovalLedger) (journal : EventStore) : RelayApprovalLedger :=
  journal.events.foldl restoreRelay l.cleared

/-- The steps of a hub under the two-person policy. -/
inductive Step where
  | submit (sender : String) (data : Json) (proof : PeerProof) (now : Float) (commits : Bool)
  /-- A call of a verb of the registry that is not a relay's. -/
  | coordinate (op : StateOp) (hop : ∀ taskId operator, op ≠ .forceRelease taskId operator)
  /-- A row that is not an inbound audit. -/
  | append (ts : Float) (kind : String) (payload : Members)
      (hkind : kind ≠ EventKind.operatorRelay ∨ (payload.get "direction").isText "in" = false)
  /-- The hub starts again, with the registry its journal replays to. -/
  | restart (state : SynapseState)

def step (h : RelayHub) : Step → RelayHub
  | .submit sender data proof now commits =>
    (h.handleOperatorRelayRequest sender data proof now commits).1
  | .coordinate op _ => { h with state := op.next h.state }
  | .append ts kind payload _ =>
    { h with journal := h.journal.map fun journal => (journal.insertEnrolled ts kind payload).1 }
  | .restart state =>
    { h with
      state
      approvals := h.journal.elim h.approvals.cleared (restoredApprovals h.approvals) }

omit [Builtins] in
/-- A hub with nothing pending, over an empty journal or without one. -/
def init (hubId : String) (ownership : Option WatchOwnership) (requireRelayReason : Bool)
    (state : SynapseState) (capacity : { n : Nat // 1 ≤ n }) (durable : Bool) : RelayHub where
  hubId
  ownership
  requireRelayReason
  state
  approvals := { capacity := capacity.1, capacity_pos := capacity.2 }
  journal := if durable then some {} else none

end RelayHub

end SynapseChannel
