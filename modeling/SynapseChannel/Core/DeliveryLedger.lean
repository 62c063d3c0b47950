import SynapseChannel.Core.DeliveryModes

/-!
# Core — DeliveryLedger

Delivery intents, their transitions and their notifications: an aggregate
row is updated in place in the transaction that appends its event.
-/

namespace SynapseChannel.Delivery

open Py
open Framing (utf8)
open Forward (parseHubQualified)

inductive EventKind where
  | accepted
  | queued
  | transition
  | cancelRequested
  | ownerBound
  deriving DecidableEq

/-- A delivery event; its payload is the stored JSON, decoded. -/
structure Event where
  seq : Int
  kind : EventKind
  payload : Json

/-- The aggregate of one delivery. -/
structure Row where
  sender : String
  idempotencyKey : String
  requestDigest : String
  request : DeliveryIntent
  target : String
  targetIncarnation : String
  deadline : Float
  selectedMode : String
  quality : DeliveryQuality
  stage : DeliveryStage
  cancelRequested : Bool
  boundaryDelivered : Bool
  explicitlyAcknowledged : Bool
  ordinal : Int
  latestEventSeq : Int
  receivingHub : Option String
  storageProfile : Int
  deriving DecidableEq

/-- The journal's owner; a legacy local request proves it by its origin. -/
def Row.owner (row : Row) : Option String :=
  match row.receivingHub with
  | some hub => some hub
  | none => if (parseHubQualified row.sender).isNone then some row.request.originHub else none

structure Notification where
  operationKey : String
  audience : String
  frame : Members
  attempts : Nat := 0
  deliveredAt : Option Float := none
  retiredAt : Option Float := none

/-- A recipient's unsent notifications are retired with its delivery. -/
def Notification.retire (operationKey target : String) (stamp : Float) (n : Notification) :
    Notification :=
  if n.operationKey = operationKey ∧ n.audience = target ∧ n.deliveredAt = none then
    { n with retiredAt := some (n.retiredAt.getD stamp) }
  else n

structure Store where
  /-- The last sequence number of the event table. -/
  lastSeq : Int := 0
  events : List Event := []
  requests : Dict String Row := Dict.empty
  mutations : Dict (String × String) (String × Int) := Dict.empty
  notifications : Dict String Notification := Dict.empty
  quarantined : Dict String String := Dict.empty

inductive Disposition where
  | inserted
  | replayed
  | conflict
  deriving DecidableEq

/-- The state after an insertion, replay or conflict. -/
structure DeliveryWrite where
  disposition : Disposition
  record : Row

namespace Store

/-- Append one event inside the active transaction. -/
def insertEvent (s : Store) (kind : EventKind) (payload : Members) : Store :=
  { s with
    lastSeq := s.lastSeq + 1
    events := s.events ++ [⟨s.lastSeq + 1, kind, .obj payload⟩] }

/-- Insert a notification; its frame must be JSON and its id new. -/
def insertNotification (s : Store) (notificationId operationKey audience : String)
    (frame : Members) : Except Failure Store :=
  if hasNonFinite (.obj frame) then .error .valueError
  else if s.notifications.contains notificationId then .error .integrityError
  else
    .ok { s with
      notifications := s.notifications.set notificationId { operationKey, audience, frame } }

def notificationId (operationKey : String) (ordinal : Int) : String :=
  "delivery:" ++ operationKey ++ ":" ++ toString ordinal

/-- The row of a key, or of a sender's idempotency key. -/
def fetchEither (s : Store) (operationKey sender idempotencyKey : String) :
    Option (String × Row) :=
  s.requests.items.find? fun (key, row) =>
    key == operationKey || (row.sender == sender && row.idempotencyKey == idempotencyKey)

/-- Open deliveries that meet a condition. -/
def openCount (s : Store) (p : Row → Bool) : Nat :=
  (s.requests.values.filter fun row => row.stage.isOpen && p row).length

def toRecipient (target incarnation : String) (row : Row) : Bool :=
  row.target == target && row.targetIncarnation == incarnation

def maxOpenDeliveriesPerRecipient : Nat := 128
def maxOpenDeliveriesPerSenderRecipient : Nat := 16

/-! ## Admission -/

structure Creation where
  intent : DeliveryIntent
  selectedMode : String
  quality : DeliveryQuality
  offer : Members
  receivingHub : Option String

/-- The journal's owner: a forwarded call must name it, a local one may
leave it to the origin. -/
def Creation.receiver (c : Creation) : Except Failure String :=
  match c.receivingHub with
  | some hub => .ok hub
  | none =>
    if (parseHubQualified c.intent.sender).isSome then
      .error (.refusal "receiving_hub_required" "forwarded delivery requires its receiving hub")
    else .ok c.intent.originHub

/-- A local receiver is the origin, and a forwarded sender is of the origin. -/
def checkOrigin (intent : DeliveryIntent) (receiver : String) : Except Failure Unit :=
  match parseHubQualified intent.sender with
  | none =>
    if receiver ≠ intent.originHub then
      .error (.refusal "hub_identity_mismatch" "local delivery receiver differs from origin")
    else .ok ()
  | some forwarded =>
    if forwarded.hubId ≠ intent.originHub then
      .error (invalidShape "forwarded delivery origin disagrees")
    else .ok ()

/-- Whether a member is the text `s`. -/
def isText (value : Json) (s : String) : Bool :=
  match value with
  | .str t => t == s
  | _ => false

section
variable [Builtins]

/-- The offer names the request it is of. -/
def Creation.binds (c : Creation) : Bool :=
  isText (c.offer.get "notification_id") (notificationId c.intent.operationKey 1) &&
    isText (c.offer.get "operation_key") c.intent.operationKey &&
    isText (c.offer.get "target") c.intent.target &&
    isText (c.offer.get "target_incarnation") c.intent.targetIncarnation

/-- What is checked before the transaction. -/
def Creation.check (c : Creation) : Except Failure String := do
  let receiver ← c.receiver
  let _ ← validateReceivingHub (.str receiver)
  let _ ← checkOrigin c.intent receiver
  if ¬ c.selectedMode ∈ c.intent.modes then
    .error (invalidShape "selected delivery capability is inconsistent")
  else if !c.binds then .error (invalidShape "recipient offer does not bind the request")
  else return receiver

def Creation.acceptedPayload (c : Creation) (receiver : String) : Members :=
  [("profile", .int 4), ("operation_key", .str c.intent.operationKey),
    ("digest", .str c.intent.digest), ("request", .obj c.intent.request),
    ("receiving_hub", .str receiver)]

def Creation.queuedPayload (c : Creation) : Members :=
  [("profile", .int 4), ("operation_key", .str c.intent.operationKey), ("ordinal", .int 1),
    ("stage", .str "queued"), ("notification_id", .str (notificationId c.intent.operationKey 1)),
    ("selected_mode", .str c.selectedMode), ("quality", .str c.quality.text)]

def Creation.row (c : Creation) (receiver : String) (seq : Int) : Row :=
  { sender := c.intent.sender
    idempotencyKey := c.intent.idempotencyKey
    requestDigest := c.intent.digest
    request := c.intent
    target := c.intent.target
    targetIncarnation := c.intent.targetIncarnation
    deadline := c.intent.deadline
    selectedMode := c.selectedMode
    quality := c.quality
    stage := .queued
    cancelRequested := false
    boundaryDelivered := false
    explicitlyAcknowledged := false
    ordinal := 1
    latestEventSeq := seq
    receivingHub := some receiver
    storageProfile := 4 }

/-- A new request is admitted and queued while the queues have room. -/
def admitCreation (s : Store) (c : Creation) (receiver : String) : Except Failure (Store × DeliveryWrite) :=
  let recipient := toRecipient c.intent.target c.intent.targetIncarnation
  if maxOpenDeliveriesPerRecipient ≤ s.openCount recipient then
    .error (.refusal "recipient_queue_full" "recipient delivery queue is full")
  else if maxOpenDeliveriesPerSenderRecipient ≤
      s.openCount fun row => recipient row && row.sender == c.intent.sender then
    .error (.refusal "recipient_queue_full" "recipient delivery queue is full")
  else
    let s := s.insertEvent .accepted (c.acceptedPayload receiver)
    let s := s.insertEvent .queued c.queuedPayload
    let key := c.intent.operationKey
    let row := c.row receiver s.lastSeq
    let s := { s with requests := s.requests.set key row }
    (s.insertNotification (notificationId key 1) key c.intent.target c.offer).map
      fun s => (s, ⟨.inserted, row⟩)

def create (s : Store) (c : Creation) : Except Failure (Store × DeliveryWrite) := do
  let receiver ← c.check
  match s.fetchEither c.intent.operationKey c.intent.sender c.intent.idempotencyKey with
  | some (key, row) =>
    if row.owner ≠ some receiver then
      .error (.refusal "hub_identity_mismatch"
        "delivery journal belongs to a different stable hub id")
    else if key = c.intent.operationKey ∧ row.requestDigest = c.intent.digest then
      .ok (s, ⟨.replayed, row⟩)
    else .ok (s, ⟨.conflict, row⟩)
  | none => s.admitCreation c receiver

end

/-! ## Transitions -/

inductive Source where
  | recipient
  | hub
  deriving DecidableEq

def Source.text : Source → String
  | .recipient => "recipient"
  | .hub => "hub"

/-- A stage with its source, or a cancellation request when there is none. -/
structure Mutation where
  operationKey : String
  stage : Option (DeliveryStage × Source)
  mutationId : String
  mutationDigest : String
  actor : String
  evidence : Members

def isMutationDigest (digest : String) : Bool := len digest == 64 && isLowerHex digest

def Mutation.sourceText (m : Mutation) : String :=
  match m.stage with
  | none => "sender"
  | some (_, source) => source.text

section
variable [Builtins]

/-- What is checked before the transaction. -/
def Mutation.check (m : Mutation) : Except Failure Unit :=
  if m.mutationId = "" ∨ 128 < (utf8 m.mutationId).length ∨ hasControl m.mutationId ∨
      isMutationDigest m.mutationDigest = false then
    .error (invalidShape "delivery mutation identity is malformed")
  else if hasNonFinite (.obj m.evidence) then .error .valueError
  else if 4096 < len (dumps (.obj m.evidence)) then
    .error (invalidShape "delivery evidence exceeds its limit")
  else .ok ()

end

/-- Only the sender cancels, and a stage is its owner's to claim. -/
def Mutation.authorise (m : Mutation) (row : Row) : Except Failure Unit :=
  match m.stage with
  | none =>
    if m.actor ≠ row.sender then
      .error (.refusal "unauthorised_requester" "only the sender may request cancellation")
    else .ok ()
  | some (_, source) =>
    let owner := match source with
      | .recipient => some row.request.target
      | .hub => row.owner
    if some m.actor ≠ owner then
      .error (.refusal "unauthorised_requester" "stage evidence is not from its owning actor")
    else .ok ()

/-- An outcome names the request and the task it is of. -/
def correlates (evidence : Members) (request : DeliveryIntent) : Bool :=
  isText (evidence.get "request_id") request.requestId &&
    isText (evidence.get "task_id") request.taskId

/-- The lifecycle after the mutation. -/
def Mutation.apply (m : Mutation) (row : Row) : Except Failure DeliveryLifecycle :=
  match m.stage with
  | none => DeliveryLifecycle.requestCancel ⟨row.stage, row.cancelRequested⟩
  | some (stage, source) =>
    if stage.recipientOnly ∧ source ≠ .recipient then
      .error (.refusal "unauthorised_requester" "stage requires recipient evidence")
    else if stage = .expired ∧ source ≠ .hub then
      .error (.refusal "unauthorised_requester" "expiry is a hub decision")
    else if (stage = .completed ∨ stage = .failed) ∧ correlates m.evidence row.request = false then
      .error (invalidShape "outcome evidence lacks matching correlation")
    else DeliveryLifecycle.advance ⟨row.stage, row.cancelRequested⟩ stage

def Mutation.kind (m : Mutation) : EventKind :=
  if m.stage.isNone then .cancelRequested else .transition

def Mutation.audience (m : Mutation) (row : Row) : String :=
  if m.stage.isNone then row.request.target else row.sender

def Mutation.boundary (m : Mutation) (row : Row) : Bool :=
  row.boundaryDelivered || (m.stage.any fun stage => stage.1 == .boundaryDelivered)

def Mutation.acknowledges (m : Mutation) (row : Row) : Bool :=
  row.explicitlyAcknowledged || (m.stage.any fun stage => stage.1 == .acknowledged)

def Mutation.payload (m : Mutation) (row : Row) (l : DeliveryLifecycle) : Members :=
  [("profile", .int row.storageProfile), ("operation_key", .str m.operationKey),
    ("ordinal", .int (row.ordinal + 1)), ("prior_stage", .str row.stage.text),
    ("stage", .str l.stage.text), ("cancel_requested", .bool l.cancelRequested),
    ("boundary_delivered", .bool (m.boundary row)),
    ("explicitly_acknowledged", .bool (m.acknowledges row)), ("mutation_id", .str m.mutationId),
    ("mutation_digest", .str m.mutationDigest), ("actor", .str m.actor),
    ("source", .str m.sourceText), ("evidence", .obj m.evidence),
    ("notification_id", .str (notificationId m.operationKey (row.ordinal + 1)))]

def Mutation.row (m : Mutation) (row : Row) (l : DeliveryLifecycle) (seq : Int) : Row :=
  { row with
    stage := l.stage
    cancelRequested := l.cancelRequested
    boundaryDelivered := m.boundary row
    explicitlyAcknowledged := m.acknowledges row
    ordinal := row.ordinal + 1
    latestEventSeq := seq }

def Mutation.frame (m : Mutation) (row : Row) (l : DeliveryLifecycle) (seq : Int) : Members :=
  [("type", .str "delivery_status"), ("sender", .str "SynapseHub"),
    ("audience", .str (m.audience row)), ("operation_key", .str m.operationKey),
    ("request_id", .str row.request.requestId), ("task_id", .str row.request.taskId),
    ("target", .str row.request.target),
    ("target_incarnation", .str row.request.targetIncarnation), ("stage", .str l.stage.text),
    ("cancel_requested", .bool l.cancelRequested),
    ("notification_id", .str (notificationId m.operationKey (row.ordinal + 1))),
    ("event_seq", .int seq), ("source", .str m.sourceText), ("protocol_version", .int 3)]

/-- Commit a checked transition: event, aggregate, mutation and notification. -/
def apply (s : Store) (m : Mutation) (row : Row) (l : DeliveryLifecycle) (clock : Float) :
    Except Failure (Store × DeliveryWrite) :=
  let s := s.insertEvent m.kind (m.payload row l)
  let seq := s.lastSeq
  let next := m.row row l seq
  let s :=
    { s with
      requests := s.requests.set m.operationKey next
      mutations := s.mutations.set (m.operationKey, m.mutationId) (m.mutationDigest, seq) }
  (s.insertNotification (notificationId m.operationKey (row.ordinal + 1)) m.operationKey
    (m.audience row) (m.frame row l seq)).map fun s =>
      let notifications :=
        if l.stage.terminal then
          s.notifications.filterMapValues fun n =>
            some (n.retire m.operationKey row.request.target clock)
        else s.notifications
      ({ s with notifications }, ⟨.inserted, next⟩)

section
variable [Builtins]

def mutate (s : Store) (m : Mutation) (clock : Float) : Except Failure (Store × DeliveryWrite) := do
  let _ ← m.check
  match s.requests.get? m.operationKey with
  | none => .error (.refusal "unknown_request" "delivery request does not exist")
  | some row =>
    let _ ← m.authorise row
    match s.mutations.get? (m.operationKey, m.mutationId) with
    | some (digest, _) =>
      .ok (s, ⟨if digest = m.mutationDigest then .replayed else .conflict, row⟩)
    | none =>
      let l ← m.apply row
      if m.stage = none ∧ row.cancelRequested then .ok (s, ⟨.replayed, row⟩)
      else s.apply m row l clock

end

/-! ## Marks -/

/-- `INSERT OR IGNORE`. -/
def quarantine (s : Store) (operationKey reasonCode : String) : Store :=
  if s.quarantined.contains operationKey then s
  else { s with quarantined := s.quarantined.set operationKey reasonCode }

/-- A socket write succeeded. -/
def markNotificationDelivered (s : Store) (notificationId : String) (clock : Float) : Store :=
  match s.notifications.get? notificationId with
  | none => s
  | some n =>
    { s with
      notifications := s.notifications.set notificationId
        { n with attempts := n.attempts + 1, deliveredAt := some (n.deliveredAt.getD clock) } }

end Store

end SynapseChannel.Delivery
