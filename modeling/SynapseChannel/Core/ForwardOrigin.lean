import SynapseChannel.Core.ForwardOutbox
import SynapseChannel.Lib.Trace

/-!
# Core — ForwardOrigin

The origin of a cross-hub chat: accept, retain, forward, retry and report.
Handlers, the retry sweep and registrations run to their next await; the
exchanges and receipts in flight hold their slot.
-/

namespace SynapseChannel.Forward

open Py

/-! ## Addresses -/

/-- The one directed seat a target names, or why it cannot be forwarded. -/
def forwardAddress (target : String) : Except String HubQualifiedAddress :=
  if target.toList.contains ',' then
    .error "A cross-hub target must be exactly one seat: PROJECT/seat@HUB_ID."
  else
    match parseHubQualified (strip target) with
    | none => .error ("'" ++ target ++ "' is not a valid hub-qualified seat (PROJECT/seat@HUB_ID).")
    | some address =>
      if isSingleSeat address.seat then .ok address
      else .error "A cross-hub target must name one seat, not an audience or a glob."

/-! ## The origin hub -/

/-- What a slot of `own_forward_work` is for. -/
inductive Work where
  | attempt
  | notification
  deriving DecidableEq

/-- An admitted chat frame, stamped with its number and time. -/
structure ChatFrame where
  sender : String
  data : Members
  msgId : Int
  timestamp : Float

/-- Who waits for an exchange. -/
inductive Caller where
  | chat
  /-- The sweep's own copy of the entry, the entries after it, and those settled so far. -/
  | sweep (entry : OutboxEntry) (rest settled : List OutboxEntry)

/-- Where a handler awaits. -/
inductive Phase where
  /-- The accepted chat is broadcast. -/
  | relaying (entry : OutboxEntry)
  /-- The peer has the request. -/
  | exchanging (entry : OutboxEntry) (caller : Caller)
  /-- The first receipt is sent, of a forward that is pending. -/
  | reporting
  /-- A settled outcome is sent to its sender; the rest waits. -/
  | sending (entry : OutboxEntry) (rest : List OutboxEntry)

structure Handler where
  number : Nat
  phase : Phase

/-- What became of a receipt that was sent. -/
inductive ReceiptStatus where
  | sending
  | recorded
  /-- The send failed. -/
  | failed
  /-- Its handler ended before it recorded the notification. -/
  | cut
  deriving DecidableEq

/-- A settled outcome on its way to its sender. -/
structure Receipt where
  entry : OutboxEntry
  status : ReceiptStatus := .sending

structure Origin where
  /-- Whether the outbox is on the event store's connection. -/
  durable : Bool
  privateDirectedMessages : Bool
  messageForwardTtl : Float
  messagePeers : List String
  outbox : Outbox := Dict.empty
  active : List (String × Work) := []
  handlers : List Handler := []
  nextHandler : Nat := 0
  /-- The forward ids drawn so far. -/
  drawn : List String := []
  /-- First receipts of forwards that were pending. -/
  reports : List OutboxEntry := []
  receipts : List Receipt := []

/-- How an exchange with the peer ends. -/
inductive PeerAnswer where
  | answered (result : MessageForwardResult)
  | rejected
  /-- The connection failed, or the answer does not decode. -/
  | unreachable
  | unexpected

inductive Origin.Step where
  /-- A chat for a peer's seat is accepted under a drawn id. -/
  | chat (forwardId : String) (frame : ChatFrame) (clock : Float)
  | relayed (number : Nat) (clock : Float)
  | exchanged (number : Nat) (answer : PeerAnswer) (clock : Float)
  | reported (number : Nat)
  | sent (number : Nat) (ok : Bool) (clock : Float)
  /-- A retry sweep starts. -/
  | sweep (now clock : Float)
  /-- A sweep ends after it expired `count` entries. -/
  | sweepCut (now : Float) (count : Nat)
  | registered (sender : String)
  /-- An error, a failed write included, or a cancellation ends the handler. -/
  | cut (number : Nat)
  | restart (messagePeers : List String)

namespace Origin

/-! ### Slots and handlers -/

def release (h : Origin) (forwardId : String) (work : Work) : Origin :=
  { h with active := h.active.filter (· ≠ (forwardId, work)) }

def park (h : Origin) (number : Nat) (phase : Phase) : Origin :=
  { h with handlers := h.handlers ++ [⟨number, phase⟩] }

def drop (h : Origin) (number : Nat) : Origin :=
  { h with handlers := h.handlers.filter (·.number ≠ number) }

def phaseOf (h : Origin) (number : Nat) : Option Phase :=
  (h.handlers.find? (·.number == number)).map (·.phase)

/-- A receipt in flight is done with. -/
def Receipt.resolve (forwardId : String) (status : ReceiptStatus) (r : Receipt) : Receipt :=
  if r.entry.forwardId = forwardId ∧ r.status = .sending then { r with status } else r

/-- The notification slot is released with the fate of its receipt. -/
def resolve (h : Origin) (forwardId : String) (status : ReceiptStatus) : Origin :=
  { h.release forwardId .notification with
    receipts := h.receipts.map (Receipt.resolve forwardId status) }

/-! ### Receipts -/

/-- `_notify_sender` over a list, up to its first await. -/
def notifySenders (h : Origin) (number : Nat) : List OutboxEntry → Origin
  | [] => h
  | entry :: rest =>
    if h.active.contains (entry.forwardId, .notification) ||
        !h.outbox.senderNotificationPending entry.forwardId then
      h.notifySenders number rest
    else
      { h.park number (.sending entry rest) with
        active := (entry.forwardId, .notification) :: h.active
        receipts := h.receipts ++ [{ entry }] }

/-- A requested receipt says what is known after the first attempt. -/
def initialForwardReceipt (h : Origin) (number : Nat) (entry : OutboxEntry) : Origin :=
  if entry.notifySender then
    match entry.state with
    | .pending => { h.park number .reporting with reports := h.reports ++ [entry] }
    | .settled _ => h.notifySenders number [entry]
  else h

/-- The send ends: its notification is recorded if it succeeded. -/
def sent (h : Origin) (number : Nat) (entry : OutboxEntry) (rest : List OutboxEntry) (ok : Bool)
    (clock : Float) : Origin :=
  let h := h.drop number
  if ok then
    let h := { h with outbox := h.outbox.markSenderNotified entry.forwardId clock }
    (h.resolve entry.forwardId .recorded).notifySenders number rest
  else (h.resolve entry.forwardId .failed).notifySenders number rest

/-! ### Attempts -/

/-- `2 ** (attempts - 1)` seconds, at least 1 and at most 300. -/
def retryDelay (attempts : Nat) : Float :=
  let delay := Float.ofNat (2 ^ min (attempts - 1) 16)
  if delay < 300 then delay else 300

/-- What a forward's row says, or the entry in hand. -/
def current (h : Origin) (entry : OutboxEntry) : OutboxEntry :=
  (h.outbox.outboxEntry entry.forwardId).getD entry

def settle (h : Origin) (entry : OutboxEntry) (how : Settlement) (result : Members) : Origin :=
  { h with outbox := h.outbox.settle entry.forwardId how result }

def recordFailedAttempt (h : Origin) (entry : OutboxEntry) (clock : Float) (error : String) :
    Origin :=
  { h with
    outbox := h.outbox.recordFailedAttempt entry.forwardId
      (clock + retryDelay (entry.attempts + 1)) error }

def transportError : String := "The peer connection failed or returned an invalid answer."

def internalErrorDetail : String := "An internal error interrupted this forward attempt."

inductive Begun where
  /-- The attempt is over, or another one owns the forward. -/
  | returned (h : Origin) (outcome : OutboxEntry)
  | exchanging (h : Origin) (entry : OutboxEntry)

variable [Builtins]

/-- `attempt_forward` up to the exchange. -/
def beginAttempt (h : Origin) (entry : OutboxEntry) (clock : Float) : Begun :=
  let entry := h.current entry
  if h.active.contains (entry.forwardId, .attempt) || entry.state != .pending then
    .returned h entry
  else if !h.messagePeers.contains entry.peerHub then
    let settled := h.settle entry .refused
      [("reason_code", .str "peer_not_configured"),
        ("detail", .str (entry.peerHub ++ " is no longer a peer"))]
    .returned settled (settled.current entry)
  else
    match decodeMessageForwardRequest (.obj entry.request) with
    | .error _ =>
      let failed := h.recordFailedAttempt entry clock transportError
      .returned failed (failed.current entry)
    | .ok _ => .exchanging { h with active := (entry.forwardId, .attempt) :: h.active } entry

/-- A chat's first attempt and its receipt. -/
def attemptChat (h : Origin) (number : Nat) (entry : OutboxEntry) (clock : Float) : Origin :=
  match h.beginAttempt entry clock with
  | .returned h outcome => h.initialForwardReceipt number outcome
  | .exchanging h entry => h.park number (.exchanging entry .chat)

/-- The settled entries a sweep counts: answered, not expired meanwhile. -/
def collect (settled : List OutboxEntry) (outcome : OutboxEntry) : List OutboxEntry :=
  if outcome.state = .pending ∨ outcome.state = .settled .expired then settled
  else settled ++ [outcome]

/-- The due entries of a sweep, one after the other; then the senders that wait. -/
def sweepOn (h : Origin) (number : Nat) (clock : Float) (settled : List OutboxEntry) :
    List OutboxEntry → Origin
  | [] => h.notifySenders number (settled.filter (·.notifySender))
  | entry :: rest =>
    if (h.outbox.outboxEntry entry.forwardId).any (·.state == .pending) then
      match h.beginAttempt entry clock with
      | .returned h outcome => h.sweepOn number clock (collect settled outcome) rest
      | .exchanging h current => h.park number (.exchanging current (.sweep entry rest settled))
    else h.sweepOn number clock settled rest

/-- The caller goes on with the outcome of an attempt. -/
def goOn (h : Origin) (number : Nat) (clock : Float) (outcome : OutboxEntry) : Caller → Origin
  | .chat => h.initialForwardReceipt number outcome
  | .sweep _ rest settled => h.sweepOn number clock (collect settled outcome) rest

/-- An unexpected error ends a chat's handler; a sweep counts a failed attempt. -/
def fail (h : Origin) (number : Nat) (clock : Float) : Caller → Origin
  | .chat => h
  | .sweep entry rest settled =>
    let failed := h.recordFailedAttempt entry clock internalErrorDetail
    failed.sweepOn number clock (collect settled (failed.current entry)) rest

def Disposition.settlement : Disposition → Settlement
  | .accepted => .accepted
  | .duplicate => .duplicate
  | .refused => .refused

/-- The exchange ends and its outcome is recorded. -/
def exchanged (h : Origin) (number : Nat) (entry : OutboxEntry) (caller : Caller)
    (answer : PeerAnswer) (clock : Float) : Origin :=
  let h := (h.drop number).release entry.forwardId .attempt
  match answer with
  | .answered result =>
    match encodeMessageForwardResult result with
    | .ok fields =>
      let settled := h.settle entry (Disposition.settlement result.disposition) fields
      settled.goOn number clock (settled.current entry) caller
    | .error _ => h.fail number clock caller
  | .rejected =>
    let settled := h.settle entry .refused
      [("reason_code", .str "peer_rejected"), ("detail", .str "The peer refused this forward.")]
    settled.goOn number clock (settled.current entry) caller
  | .unreachable =>
    let failed := h.recordFailedAttempt entry clock transportError
    failed.goOn number clock (failed.current entry) caller
  | .unexpected => h.fail number clock caller

/-! ### Chats -/

/-- The request's body. -/
def chatBody (frame : ChatFrame) : Members :=
  let clientMsgId := (Json.or (frame.data.get "client_msg_id") (.str "")).toStr
  let body : Members :=
    [("payload", .str (Json.or (frame.data.get "payload") (.str "")).toStr),
      ("origin_msg_id", .int frame.msgId), ("origin_timestamp", .float frame.timestamp)]
  if clientMsgId = "" then body else body ++ [("client_msg_id", .str clientMsgId)]

/-- What a chat for a peer's seat asks of that peer, or why it is refused. -/
def chatRequest (h : Origin) (forwardId : String) (frame : ChatFrame) :
    Except String (HubQualifiedAddress × Members) := do
  let target := strip (Json.or (frame.data.get "target") (.str "")).toStr
  let address ← forwardAddress target
  if !h.messagePeers.contains address.hubId then
    .error ("Hub '" ++ address.hubId ++ "' is not a configured message peer of this hub.")
  else
    match encodeMessageForwardRequest
        { forwardId, kind := .chat, senderSeat := frame.sender, targetSeat := address.seat
          body := chatBody frame } with
    | .error e => .error ("Chat cannot be forwarded: " ++ e)
    | .ok fields => .ok (address, fields)

/-- `forward_chat` up to its first await. A drawn id is never drawn again. -/
def forwardChat (h : Origin) (forwardId : String) (frame : ChatFrame) (clock : Float) : Origin :=
  match h.chatRequest forwardId frame with
  | .error _ => h
  | .ok (address, fields) =>
    match h.outbox.enqueue forwardId address.hubId frame.sender address.text fields clock
        (clock + h.messageForwardTtl) (frame.data.get "receipt_requested").truthy with
    | none => h
    | some (outbox, entry) =>
      let number := h.nextHandler
      let h := { h with outbox, drawn := forwardId :: h.drawn, nextHandler := number + 1 }
      if h.privateDirectedMessages then h.attemptChat number entry clock
      else h.park number (.relaying entry)

/-! ### Runs -/

/-- A handler ends; what it held is released. -/
def cutHandler (h : Origin) (number : Nat) : Origin :=
  match h.phaseOf number with
  | some (.exchanging entry _) => (h.drop number).release entry.forwardId .attempt
  | some (.sending entry _) => (h.drop number).resolve entry.forwardId .cut
  | _ => h.drop number

/-- Handlers and slots end with the process; an outbox in memory is lost. -/
def restart (h : Origin) (messagePeers : List String) : Origin :=
  { h with
    messagePeers
    outbox := if h.durable then h.outbox else Dict.empty
    active := []
    handlers := []
    receipts := h.receipts.map fun r => Receipt.resolve r.entry.forwardId .cut r }

def step (h : Origin) : Step → Origin
  | .chat forwardId frame clock =>
    if h.drawn.contains forwardId then h else h.forwardChat forwardId frame clock
  | .relayed number clock =>
    match h.phaseOf number with
    | some (.relaying entry) => (h.drop number).attemptChat number entry clock
    | _ => h
  | .exchanged number answer clock =>
    match h.phaseOf number with
    | some (.exchanging entry caller) => h.exchanged number entry caller answer clock
    | _ => h
  | .reported number =>
    match h.phaseOf number with
    | some .reporting => h.drop number
    | _ => h
  | .sent number ok clock =>
    match h.phaseOf number with
    | some (.sending entry rest) => h.sent number entry rest ok clock
    | _ => h
  | .sweep now clock =>
    let (outbox, expired) := h.outbox.expireDue now
    let number := h.nextHandler
    { h with outbox, nextHandler := number + 1 }.sweepOn number clock expired (outbox.due now)
  | .sweepCut now count => { h with outbox := h.outbox.expireFirst now count }
  | .registered sender =>
    let number := h.nextHandler
    { h with nextHandler := number + 1 }.notifySenders number
      (h.outbox.pendingSenderNotifications sender)
  | .cut number => h.cutHandler number
  | .restart messagePeers => h.restart messagePeers

def run (durable privateDirectedMessages : Bool) (messageForwardTtl : Float)
    (messagePeers : List String) (steps : List Step) : Origin :=
  Trace.run step { durable, privateDirectedMessages, messageForwardTtl, messagePeers } steps

end Origin

end SynapseChannel.Forward
