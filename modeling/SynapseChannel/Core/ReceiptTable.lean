import SynapseChannel.Lib.JsonText

/-!
# Core — ReceiptTable

Delivery receipts as the journal keeps them: the aggregate of each chat that
asked for one, and the outbox of the frames its sender is owed. Stored JSON
is kept decoded, and a transaction that fails leaves the table as it was.
-/

namespace SynapseChannel.Receipts

open Py

inductive Failure where
  | valueError
  | keyError
  /-- A row whose key exists. -/
  | integrityError
  deriving DecidableEq

inductive ReceiptState where
  | requested
  | immediateDelivered
  | pending
  | deferred
  | expired
  deriving DecidableEq

def ReceiptState.text : ReceiptState → String
  | .requested => "requested"
  | .immediateDelivered => "immediate_delivered"
  | .pending => "pending"
  | .deferred => "deferred"
  | .expired => "expired"

inductive EventKind where
  | chat
  | requested
  | immediate
  | deferred
  | expired
  deriving DecidableEq

/-- The kind without its `delivery_receipt_`. -/
def EventKind.phase : EventKind → String
  | .chat => "chat"
  | .requested => "requested"
  | .immediate => "immediate"
  | .deferred => "deferred"
  | .expired => "expired"

/-- The kind a transition to this state is recorded under. -/
def ReceiptState.kind : ReceiptState → Option EventKind
  | .requested => none
  | .immediateDelivered => some .immediate
  | .pending => some .immediate
  | .deferred => some .deferred
  | .expired => some .expired

/-- The states a transition may leave. -/
def ReceiptState.allowedFrom : ReceiptState → List ReceiptState
  | .requested => []
  | .immediateDelivered => [.requested]
  | .pending => [.requested]
  | .deferred => [.pending]
  | .expired => [.pending]

structure Event where
  seq : Int
  kind : EventKind
  payload : Members

structure Aggregate where
  sender : String
  target : String
  messageId : Int
  clientMsgId : String
  state : ReceiptState
  delivered : Option Bool := none
  deferred : Bool := false
  ackedBy : String := ""
  updatedEventSeq : Int

/-- A frame the sender is owed. -/
structure OutboxRow where
  messageSeq : Int
  phase : String
  sender : String
  frame : Members
  attempts : Nat := 0
  deliveredAt : Option Float := none

structure PendingDeliveryNotification where
  notificationId : String
  messageSeq : Int
  phase : String
  sender : String
  frame : Members
  attempts : Nat

structure DeliveryReceiptTransition where
  kind : EventKind
  payload : Members
  notification : Members
  state : ReceiptState

structure Prepared where
  notificationId : String
  messageSeq : Int
  kind : EventKind
  receipt : Members
  frame : Members
  state : ReceiptState

/-- `str(data.get(key) or "")`. -/
def text [Builtins] (data : Members) (key : String) : String :=
  ((data.get key).or (.str "")).toStr

/-- `value == n`. -/
def equalsInt (value : Json) (n : Int) : Bool :=
  match value with
  | .bool b => (if b then 1 else 0) == n
  | .int m => m == n
  | .float x => Json.truncFloat x == some n && x == Float.ofInt n
  | _ => false

def notificationId (messageSeq : Int) (state : ReceiptState) : String :=
  "delivery-receipt:" ++ toString messageSeq ++ ":" ++ state.text

theorem notificationId_ne_empty (messageSeq : Int) (state : ReceiptState) :
    notificationId messageSeq state ≠ "" := by
  unfold notificationId
  simp [String.append_eq_empty_iff]

/-- What is checked before the transaction. -/
def prepareTransition (t : DeliveryReceiptTransition) : Except Failure Prepared :=
  match t.payload.get "message_seq", t.payload.get "delivered" with
  | .int messageSeq, .bool _ =>
    if messageSeq < 1 then .error .valueError
    else if t.state.kind ≠ some t.kind then .error .valueError
    else
      .ok
        { notificationId := notificationId messageSeq t.state
          messageSeq
          kind := t.kind
          receipt := t.payload
          frame :=
            Dict.put "receipt_notification_id" (.str (notificationId messageSeq t.state))
              t.notification
          state := t.state }
  | _, _ => .error .valueError

structure ReceiptTable where
  /-- The last sequence number of the event table. -/
  lastSeq : Int := 0
  events : List Event := []
  receipts : Dict Int Aggregate := Dict.empty
  outbox : Dict String OutboxRow := Dict.empty

namespace ReceiptTable

/-- Append one event inside the open transaction. -/
def insertEvent (t : ReceiptTable) (kind : EventKind) (payload : Members) : ReceiptTable :=
  { t with
    lastSeq := t.lastSeq + 1
    events := t.events ++ [⟨t.lastSeq + 1, kind, payload⟩] }

section
variable [Builtins]

/-- Commit a chat and the receipt its sender asked for. -/
def commitDeliveryReceiptRequest (t : ReceiptTable) (chat requested : Members) :
    Except Failure (ReceiptTable × Int) :=
  let sender := text requested "sender"
  let target := text requested "target"
  if sender = "" ∨ target = "" then .error .valueError
  else
    match requested.get "message_id" with
    | .int messageId =>
      let seq := t.lastSeq + 1
      let requested := Dict.put "message_seq" (.int seq) requested
      if hasNonFinite (.obj chat) ∨ hasNonFinite (.obj requested) then .error .valueError
      else
        let t := (t.insertEvent .chat chat).insertEvent .requested requested
        let aggregate : Aggregate :=
          { sender
            target
            messageId
            clientMsgId := text requested "client_msg_id"
            state := .requested
            updatedEventSeq := t.lastSeq }
        .ok ({ t with receipts := t.receipts.set seq aggregate }, seq)
    | _ => .error .valueError

/-- The transition is of the aggregate it names. -/
def matchesAggregate (p : Prepared) (current : Aggregate) : Bool :=
  text p.receipt "sender" == current.sender && text p.receipt "target" == current.target &&
    equalsInt (p.receipt.get "message_id") current.messageId &&
    text p.frame "target" == current.sender

/-- The aggregate after the transition. -/
def settle (p : Prepared) (current : Aggregate) (seq : Int) : Aggregate :=
  { current with
    state := p.state
    delivered := some (p.receipt.get "delivered").truthy
    deferred := (p.receipt.getD "deferred" (.bool false)).truthy
    ackedBy := text p.receipt "acked_by"
    updatedEventSeq := seq }

/-- Insert one aggregate, event and outbox transition in the open transaction. -/
def insertTransition (t : ReceiptTable) (p : Prepared) : Except Failure ReceiptTable :=
  match t.receipts.get? p.messageSeq with
  | none => .error .keyError
  | some current =>
    if current.state ∉ p.state.allowedFrom then .error .valueError
    else if matchesAggregate p current = false then .error .valueError
    else if hasNonFinite (.obj p.receipt) ∨ hasNonFinite (.obj p.frame) then .error .valueError
    else if t.outbox.contains p.notificationId then .error .integrityError
    else
      let t := t.insertEvent p.kind p.receipt
      .ok { t with
        receipts := t.receipts.set p.messageSeq (settle p current t.lastSeq)
        outbox := t.outbox.set p.notificationId
          { messageSeq := p.messageSeq
            phase := p.kind.phase
            sender := current.sender
            frame := p.frame } }

/-- Commit a transition, with a companion of another aggregate. -/
def commitDeliveryReceiptTransition (t : ReceiptTable) (transition : DeliveryReceiptTransition)
    (companion : Option DeliveryReceiptTransition) : Except Failure (ReceiptTable × String) := do
  let prepared ← prepareTransition transition
  match companion with
  | none => return (← t.insertTransition prepared, prepared.notificationId)
  | some other =>
    let preparedOther ← prepareTransition other
    let t ← t.insertTransition prepared
    return (← t.insertTransition preparedOther, prepared.notificationId)

end

def OutboxRow.pending (row : OutboxRow) (id : String) : PendingDeliveryNotification :=
  { notificationId := id
    messageSeq := row.messageSeq
    phase := row.phase
    sender := row.sender
    frame := row.frame
    attempts := row.attempts }

/-- Undelivered frames in insertion order. -/
def pendingDeliveryNotifications (t : ReceiptTable) (sender : Option String) (limit : Nat := 100) :
    Except Failure (List PendingDeliveryNotification) :=
  if limit < 1 ∨ 10000 < limit then .error .valueError
  else
    let due := t.outbox.items.filter fun (_, row) =>
      row.deliveredAt.isNone && (sender.all fun name => row.sender == name)
    .ok ((due.take limit).map fun (id, row) => OutboxRow.pending row id)

/-- Record one attempt, and settle the row when the frame was sent. -/
def markDeliveryNotificationAttempt (t : ReceiptTable) (id : String) (delivered : Bool)
    (clock : Float) : Except Failure ReceiptTable :=
  if id = "" then .error .valueError
  else
    match t.outbox.get? id with
    | none => .error .keyError
    | some row =>
      if row.deliveredAt.isSome then .error .keyError
      else
        let row :=
          { row with
            attempts := row.attempts + 1
            deliveredAt := if delivered then some clock else none }
        .ok { t with outbox := t.outbox.set id row }

end ReceiptTable

end SynapseChannel.Receipts
