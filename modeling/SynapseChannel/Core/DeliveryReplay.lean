import SynapseChannel.Core.DeliveryLedger

/-!
# Core — DeliveryReplay

The replay audit: the event stream is folded again and compared with the
aggregates, the mutation index and the notifications. The explicit binding
of a legacy journal is checked by it.
-/

namespace SynapseChannel.Delivery

open Py
open Framing (utf8)
open Forward (parseHubQualified)
open Store (isText notificationId)

def incompatible (detail : String) : Failure := .refusal "replay_incompatible" detail

/-- The aggregate that the events of one request make. -/
structure ReplayState where
  /-- The request, which its canonical text determines. -/
  request : DeliveryIntent
  digest : String
  stage : DeliveryStage
  cancelRequested : Bool
  ordinal : Int
  eventSeq : Int
  boundaryDelivered : Bool := false
  explicitlyAcknowledged : Bool := false
  selectedMode : String := ""
  quality : String := ""
  receivingHub : Option String := none
  storageProfile : Int := 3

/-- What the audit expects of the tables. -/
structure Replay where
  states : Dict String ReplayState := Dict.empty
  idempotency : Dict (String × String) String := Dict.empty
  /-- Key and audience of each notification. -/
  notifications : Dict String (String × String) := Dict.empty
  mutations : Dict (String × String) (String × Int) := Dict.empty

/-- `value == n`, where a Boolean is a number. -/
def equalsInt (value : Json) (n : Int) : Bool :=
  match value with
  | .bool b => (if b then 1 else 0) == n
  | v => isNumber v n

def isBool (value : Json) (b : Bool) : Bool :=
  match value with
  | .bool c => c == b
  | _ => false

/-! ## Accepted requests -/

def requestFields : List String :=
  ["profile", "sender", "origin_hub", "request_id", "idempotency_key", "target",
    "target_incarnation", "mode", "allowed_fallbacks", "task_id", "body", "deadline"]

/-- Whether the members are exactly those named. -/
def hasFields (data : Members) (fields : List String) : Bool :=
  data.all (fun m => fields.contains m.1) && fields.all data.contains

def requiredText (value : Json) : Except Failure String :=
  match value with
  | .str s =>
    if s = "" then .error (incompatible "stored delivery request identity is malformed") else .ok s
  | _ => .error (incompatible "stored delivery request identity is malformed")

def asIncompatible {α : Type} (detail : String) (x : Except Failure α) : Except Failure α :=
  x.mapError fun _ => incompatible detail

/-- The frame a stored request was parsed from. -/
def requestFrame (request : Members) : Members :=
  request.filter (fun m => !(["profile", "sender", "origin_hub"].contains m.1)) ++
    [("protocol_version", .int 3), ("type", .str "delivery_request")]

/-- The receiver an accepted request names; a legacy one names none. -/
def receiverField (payload : Members) (profile : Int) (sender originHub : String) :
    Except Failure (Option String) :=
  if profile = 4 then
    match payload.get "receiving_hub" with
    | .str receiver =>
      if boundedReference (.str receiver) 512 = false then
        .error (incompatible "stored receiving hub is malformed")
      else if (parseHubQualified sender).isNone ∧ receiver ≠ originHub then
        .error (incompatible "local delivery receiving hub differs from its origin")
      else .ok (some receiver)
    | _ => .error (incompatible "stored receiving hub is malformed")
  else if payload.contains "receiving_hub" then
    .error (incompatible "legacy accepted delivery cannot carry an unaudited receiver")
  else .ok none

/-- The object of a stored request. -/
def requestShape (value : Json) : Except Failure Members :=
  match value with
  | .obj request =>
    if !hasFields request requestFields then
      .error (incompatible "stored delivery request shape is incompatible")
    else if !isNumber (Members.get request "profile") 3 then
      .error (incompatible "stored delivery request profile is incompatible")
    else .ok request
  | _ => .error (incompatible "stored delivery request shape is incompatible")

def storedDeadline (value : Json) : Except Failure Float :=
  match finiteNumber value with
  | some deadline => .ok deadline
  | none => .error (incompatible "stored delivery deadline is malformed")

variable [Builtins]

/-- The intent of a stored request, which parses again to the same text. -/
def storedIntent (value : Json) : Except Failure DeliveryIntent := do
  let request ← requestShape value
  let sender ← requiredText (request.get "sender")
  let originHub ← requiredText (request.get "origin_hub")
  let _ ← requiredText (request.get "request_id")
  let _ ← requiredText (request.get "idempotency_key")
  let deadline ← storedDeadline (request.get "deadline")
  let intent ← asIncompatible "stored delivery request violates its profile"
    (parseDeliveryIntent (requestFrame request) sender originHub (deadline - 1))
  if dumps (.obj intent.request) ≠ dumps (.obj request) then
    .error (incompatible "stored delivery request changed after parsing")
  else return intent

def Replay.accept (r : Replay) (key : String) (payload : Members) (profile seq : Int) :
    Except Failure Replay :=
  if r.states.contains key then .error (incompatible "duplicate accepted delivery request")
  else do
    let intent ← storedIntent (payload.get "request")
    if key ≠ intent.operationKey then .error (incompatible "stored delivery request key changed")
    else if !isText (payload.get "digest") intent.digest then
      .error (incompatible "stored delivery request digest changed")
    else if r.idempotency.contains (intent.sender, intent.idempotencyKey) then
      .error (incompatible "duplicate delivery idempotency key")
    else
      let receivingHub ← receiverField payload profile intent.sender intent.originHub
      return { r with
        idempotency := r.idempotency.set (intent.sender, intent.idempotencyKey) key
        states := r.states.set key
          { request := intent, digest := intent.digest, stage := .accepted
            cancelRequested := false, ordinal := 0, eventSeq := seq, receivingHub
            storageProfile := profile } }

omit [Builtins] in
/-- The stored selection, one the request allows. -/
def selectionField (payload : Members) (request : DeliveryIntent) :
    Except Failure (String × String) :=
  match payload.get "selected_mode", payload.get "quality" with
  | .str selected, .str quality =>
    if ¬ selected ∈ request.modes ∨ ¬ quality ∈ ["native", "emulated"] then
      .error (incompatible "queued delivery capability is inconsistent")
    else .ok (selected, quality)
  | _, _ => .error (incompatible "queued delivery capability is inconsistent")

omit [Builtins] in
def Replay.queue (r : Replay) (key : String) (payload : Members) (profile seq : Int) :
    Except Failure Replay :=
  match r.states.get? key with
  | none => .error (incompatible "queued delivery lacks its accepted predecessor")
  | some state =>
    if state.stage ≠ .accepted ∨ equalsInt (payload.get "ordinal") 1 = false then
      .error (incompatible "queued delivery lacks its accepted predecessor")
    else if profile ≠ state.storageProfile then
      .error (incompatible "queued delivery storage profile changed")
    else if !isText (payload.get "stage") "queued" then
      .error (incompatible "queued delivery stage is malformed")
    else do
      let (selectedMode, quality) ← selectionField payload state.request
      if !isText (payload.get "notification_id") (notificationId key 1) then
        .error (incompatible "queued delivery notification identity changed")
      else return { r with
        states := r.states.set key
          { state with stage := .queued, ordinal := 1, eventSeq := seq, selectedMode, quality }
        notifications := r.notifications.set (notificationId key 1) (key, state.request.target) }

/-! ## Bindings and transitions -/

def bindingFields : List String :=
  ["profile", "operation_key", "ordinal", "prior_stage", "receiving_hub", "recovery_ref",
    "released_quarantine_reason"]

section

omit [Builtins]

def isInt (value : Json) : Bool :=
  match value with
  | .int _ => true
  | _ => false

/-- `value in (None, "unauthorised_requester")`. -/
def isReleaseReason (value : Json) : Bool :=
  match value with
  | .null => true
  | v => isText v "unauthorised_requester"

/-- The exact predecessor of a legacy binding. -/
def bindsLegacy (state : ReplayState) (payload : Members) (profile : Int) : Bool :=
  hasFields payload bindingFields && isInt (payload.get "ordinal") && state.stage != .accepted &&
    state.storageProfile == 3 && state.receivingHub.isNone && profile == 4 &&
    equalsInt (payload.get "ordinal") (state.ordinal + 1) &&
    isText (payload.get "prior_stage") state.stage.text &&
    isReleaseReason (payload.get "released_quarantine_reason")

def Replay.bindOwner (r : Replay) (key : String) (payload : Members) (profile seq : Int) :
    Except Failure Replay :=
  match r.states.get? key with
  | none => .error (incompatible "legacy receiving-hub binding lacks its exact predecessor")
  | some state =>
    if !bindsLegacy state payload profile then
      .error (incompatible "legacy receiving-hub binding lacks its exact predecessor")
    else
      match payload.get "receiving_hub" with
      | .str receiver =>
        if boundedReference (.str receiver) 512 = false ∨
            boundedReference (payload.get "recovery_ref") 1024 = false then
          .error (incompatible "legacy receiving-hub binding evidence is malformed")
        else if (parseHubQualified state.request.sender).isNone ∧
            receiver ≠ state.request.originHub then
          .error (incompatible "legacy local delivery cannot change its receiving hub")
        else
          .ok { r with
            states := r.states.set key
              { state with
                receivingHub := some receiver, storageProfile := 4, ordinal := state.ordinal + 1
                eventSeq := seq } }
      | _ => .error (incompatible "legacy receiving-hub binding evidence is malformed")

/-- A mutation's id and digest. -/
def mutationField (payload : Members) : Except Failure (String × String) :=
  match payload.get "mutation_id", payload.get "mutation_digest" with
  | .str id, .str digest =>
    if id = "" ∨ Store.isMutationDigest digest = false then
      .error (incompatible "delivery mutation identity is malformed")
    else .ok (id, digest)
  | _, _ => .error (incompatible "delivery mutation identity is malformed")

def stageField (value : Json) : Except Failure DeliveryStage :=
  match value with
  | .str s =>
    match DeliveryStage.ofText s with
    | some stage => .ok stage
    | none => .error (incompatible "stored delivery stage is unknown")
  | _ => .error (incompatible "stored delivery stage is unknown")

/-- The hub that may claim a stage. -/
def ReplayState.owner (state : ReplayState) : Option String :=
  if state.storageProfile = 4 then state.receivingHub else some state.request.originHub

/-- A stage is claimed by its source. -/
def checkSource (state : ReplayState) (payload : Members) (stage : DeliveryStage) :
    Except Failure Unit :=
  let source := payload.get "source"
  if stage.recipientOnly ∧ isText source "recipient" = false then
    .error (incompatible "delivery stage lacks recipient evidence")
  else if stage = .expired ∧ isText source "hub" = false then
    .error (incompatible "delivery expiry lacks hub evidence")
  else if isText source "recipient" ∧ isText (payload.get "actor") state.request.target = false then
    .error (incompatible "recipient transition actor changed")
  else if isText source "hub" ∧ ¬ state.owner.any (isText (payload.get "actor")) then
    .error (incompatible "hub transition actor changed")
  else if !isText source "recipient" && !isText source "hub" then
    .error (incompatible "transition evidence source is unknown")
  else .ok ()

/-- An outcome is of the request. -/
def checkEvidence (state : ReplayState) (payload : Members) (stage : DeliveryStage) :
    Except Failure Unit :=
  match payload.get "evidence" with
  | .obj evidence =>
    if (stage = .completed ∨ stage = .failed) ∧
        Store.correlates evidence state.request = false then
      .error (incompatible "delivery outcome correlation changed")
    else .ok ()
  | _ => .error (incompatible "delivery transition evidence is malformed")

/-- The lifecycle and audience of a stored transition. -/
def replayLifecycle (state : ReplayState) (kind : EventKind) (payload : Members) :
    Except Failure (DeliveryLifecycle × String) :=
  let lifecycle : DeliveryLifecycle := ⟨state.stage, state.cancelRequested⟩
  if kind = .cancelRequested then
    if !isText (payload.get "actor") state.request.sender ||
        !isText (payload.get "source") "sender" then
      .error (incompatible "cancellation requester changed")
    else lifecycle.requestCancel.map fun next => (next, state.request.target)
  else do
    let stage ← stageField (payload.get "stage")
    let next ← lifecycle.advance stage
    let _ ← checkSource state payload stage
    let _ ← checkEvidence state payload stage
    return (next, state.request.sender)

def Replay.transition (r : Replay) (key : String) (kind : EventKind) (payload : Members)
    (profile seq : Int) : Except Failure Replay :=
  match r.states.get? key with
  | none => .error (incompatible "delivery transition lacks a queued predecessor")
  | some state =>
    if state.stage = .accepted then
      .error (incompatible "delivery transition lacks a queued predecessor")
    else if profile ≠ state.storageProfile then
      .error (incompatible "delivery transition storage profile changed")
    else if equalsInt (payload.get "ordinal") (state.ordinal + 1) = false ∨
        isText (payload.get "prior_stage") state.stage.text = false then
      .error (incompatible "delivery transition has an ordinal gap or prior-stage mismatch")
    else do
      let (id, digest) ← mutationField payload
      if r.mutations.contains (key, id) then
        .error (incompatible "duplicate delivery mutation identity")
      else
        let (next, audience) ← asIncompatible "delivery transition violates its lifecycle"
          (replayLifecycle state kind payload)
        let boundary := state.boundaryDelivered || next.stage == .boundaryDelivered
        let acknowledged := state.explicitlyAcknowledged || next.stage == .acknowledged
        if isText (payload.get "stage") next.stage.text = false ∨
            isBool (payload.get "cancel_requested") next.cancelRequested = false then
          .error (incompatible "delivery transition projection changed")
        else if isBool (payload.get "boundary_delivered") boundary = false ∨
            isBool (payload.get "explicitly_acknowledged") acknowledged = false then
          .error (incompatible "delivery acknowledgement evidence changed")
        else if !isText (payload.get "notification_id") (notificationId key (state.ordinal + 1)) then
          .error (incompatible "delivery transition notification identity changed")
        else return { r with
          states := r.states.set key
            { state with
              stage := next.stage, cancelRequested := next.cancelRequested
              boundaryDelivered := boundary, explicitlyAcknowledged := acknowledged
              ordinal := state.ordinal + 1, eventSeq := seq }
          mutations := r.mutations.set (key, id) (digest, seq)
          notifications := r.notifications.set (notificationId key (state.ordinal + 1))
            (key, audience) }

end

/-! ## The audit -/

omit [Builtins] in
/-- The profile and key of an event. -/
def header (payload : Members) : Except Failure (Int × String) :=
  match payload.get "profile", payload.get "operation_key" with
  | .int profile, key =>
    if profile ≠ 3 ∧ profile ≠ 4 then
      .error (incompatible "stored delivery event has an incompatible profile")
    else
      match key with
      | .str key =>
        if len key ≠ 64 then .error (incompatible "stored delivery operation key is malformed")
        else .ok (profile, key)
      | _ => .error (incompatible "stored delivery operation key is malformed")
  | _, _ => .error (incompatible "stored delivery event has an incompatible profile")

def Replay.step (r : Replay) (e : Event) : Except Failure Replay :=
  match e.payload with
  | .obj payload => do
    let (profile, key) ← header payload
    match e.kind with
    | .accepted => r.accept key payload profile e.seq
    | .ownerBound => r.bindOwner key payload profile e.seq
    | .queued => r.queue key payload profile e.seq
    | kind => r.transition key kind payload profile e.seq
  | _ => .error (incompatible "stored delivery event is not an object")

def replay (events : List Event) : Except Failure Replay := events.foldlM Replay.step {}

section

omit [Builtins]

/-- The row that the events of a request make. -/
def Row.agrees (row : Row) (state : ReplayState) : Bool :=
  row.sender == state.request.sender && row.idempotencyKey == state.request.idempotencyKey &&
    row.requestDigest == state.digest && row.request == state.request &&
    row.target == state.request.target &&
    row.targetIncarnation == state.request.targetIncarnation &&
    decide (row.deadline = state.request.deadline) && row.selectedMode == state.selectedMode &&
    row.quality.text == state.quality && row.stage == state.stage &&
    row.cancelRequested == state.cancelRequested &&
    row.boundaryDelivered == state.boundaryDelivered &&
    row.explicitlyAcknowledged == state.explicitlyAcknowledged && row.ordinal == state.ordinal &&
    row.latestEventSeq == state.eventSeq && row.receivingHub == state.receivingHub &&
    row.storageProfile == state.storageProfile

def verifyRow (states : Dict String ReplayState) (key : String) (row : Row) : Except Failure Unit :=
  match states.get? key with
  | none => .error (incompatible "delivery aggregate lacks a queued event")
  | some state =>
    if state.stage = .accepted then
      .error (incompatible "delivery aggregate lacks a queued event")
    else if row.agrees state = false then
      .error (incompatible "delivery aggregate differs from event stream")
    else .ok ()

def verifyNotification (expected : Dict String (String × String)) (id : String)
    (n : Notification) : Except Failure Unit :=
  if expected.get? id ≠ some (n.operationKey, n.audience) then
    .error (incompatible "delivery notification audience changed")
  else if !isText (n.frame.get "operation_key") n.operationKey ||
      !isText (n.frame.get "notification_id") id then
    .error (incompatible "delivery notification frame identity changed")
  else if isText (n.frame.get "type") "delivery_status" &&
      !isText (n.frame.get "audience") n.audience then
    .error (incompatible "delivery status notification audience changed")
  else .ok ()

/-- The tables are those the events make. -/
def verifyTables (s : Store) (r : Replay) : Except Failure Unit :=
  if s.requests.items.length ≠ r.states.items.length then
    .error (incompatible "delivery aggregate count differs from event stream")
  else do
    s.requests.items.forM fun (key, row) => verifyRow r.states key row
    if !s.mutations.sameItems r.mutations then
      .error (incompatible "delivery mutation index differs from event stream")
    else if s.notifications.items.length ≠ r.notifications.items.length then
      .error (incompatible "delivery notification count differs from event stream")
    else s.notifications.items.forM fun (id, n) => verifyNotification r.notifications id n

end

/-- Reject any disagreement among events, aggregates and outbox. -/
def verifyDeliveryReplay (s : Store) : Except Failure Unit := do
  let r ← replay s.events
  verifyTables s r

end SynapseChannel.Delivery
