import SynapseChannel.Core.ChatDedupe
import SynapseChannel.Core.ForwardOrigin

/-!
# Core — ChatRouting

One agent chat through the hub: a retry is answered from memory, anything
else is journalled and sent, and an accepted chat is remembered when its
sends have ended. Other chats run while a send is awaited.
-/

namespace SynapseChannel.Chat

open Py

/-! ## Delivery verdicts -/

structure DeliveryLiveness where
  matchedRecipients : List String
  liveRecipients : List String
  staleRecipients : List String
  reason : String

def DeliveryLiveness.delivered (d : DeliveryLiveness) : Bool := !d.liveRecipients.isEmpty

def classifyDeliveryLiveness (matchedRecipients staleRecipients : List String) :
    DeliveryLiveness :=
  let matched := (matchedRecipients.filter (· != "")).eraseDups
  let live := matched.filter fun name => !staleRecipients.contains name
  { matchedRecipients := matched
    liveRecipients := live
    staleRecipients := matched.filter fun name => staleRecipients.contains name
    reason :=
      if !live.isEmpty then ""
      else if !matched.isEmpty then "no_live_recipient"
      else "no_online_recipient" }

/-- Keep the live recipients whose own or waiter write completed. -/
def classifyCompletedDelivery (decision : DeliveryLiveness) (successful : List String)
    (includeWaiters : Bool) : DeliveryLiveness :=
  if decision.delivered then
    let live := decision.liveRecipients.filter fun name =>
      successful.contains name ||
        (includeWaiters && (waiterSidecarNames name).any fun waiter => successful.contains waiter)
    { decision with
      liveRecipients := live
      reason := if live.isEmpty then "recipient_transport_unavailable" else "" }
  else decision

def isDirectedTarget (target : String) : Bool :=
  let name := strip target
  name != "" && name != "all" && !name.toList.contains '*'

/-! ## Handlers -/

/-- One copy of a chat that was looked up in the memory. -/
structure Copy where
  sender : String
  clientMsgId : String
  content : String
  acceptedAt : Float
  deriving DecidableEq

def Copy.key (c : Copy) : String × String := (c.sender, c.clientMsgId)

def Copy.digest [Builtins] (c : Copy) : String := contentDigest c.content

/-- An accepted copy is remembered, if it has a client id. -/
def ChatDedupe.rememberCopy [Builtins] (d : ChatDedupe) (copy : Copy) (data : Members) :
    ChatDedupe :=
  if copy.clientMsgId = "" then d
  else d.remember copy.key copy.digest data copy.acceptedAt

/-- Where a handler awaits. -/
inductive Phase where
  /-- The verdict of a chat that reaches nobody is sent before its fan-out. -/
  | warning (decision : DeliveryLiveness)
  | fanout (decision : DeliveryLiveness)
  | channel (decision : DeliveryLiveness)
  /-- The receipt of a channel chat is sent to its sender. -/
  | receipt (delivered : Bool)
  /-- The chat is in the outbox; it is relayed, attempted and reported. -/
  | forwarding
  | ended

def Phase.inFlight : Phase → Bool
  | .ended => false
  | _ => true

/-- The copy is with a recipient, or with the outbox, and is not remembered yet. -/
def Phase.accepted : Phase → Bool
  | .receipt delivered => delivered
  | .forwarding => true
  | _ => false

/-- A call of `handle_chat` whose copy was new. -/
structure Handler where
  copy : Copy
  data : Members
  phase : Phase

namespace Handler

def inFlight (t : Handler) : Bool := t.phase.inFlight

def accepted (t : Handler) : Bool := t.phase.accepted

def enter (t : Handler) (phase : Phase) : Handler := { t with phase }

/-- Whether the copy reaches a recipient when the writes to `successful` are
those that completed. -/
def reaches (t : Handler) (successful : List String) : Bool :=
  match t.phase with
  | .fanout decision => (classifyCompletedDelivery decision successful true).delivered
  | .channel decision => (classifyCompletedDelivery decision successful false).delivered
  | _ => false

end Handler

/-- A copy that reached a recipient or the outbox, with its stamped frame. -/
structure Reached where
  copy : Copy
  data : Members

/-- What the rest of the hub answers while one chat is admitted. -/
structure World where
  /-- Why the semantic response the chat makes is refused, if it is. -/
  responseError : Option String
  /-- The ingress quota's refusal, if it refuses. -/
  quota : Option String
  /-- The row number the journal gives the chat, if there is a journal;
  an error where the commit raises. -/
  seq : Except String (Option Int)
  /-- The online members of a channel the sender is a member of. -/
  members : String → Option (List String)
  /-- The online recipients a target matches, and those without a live waiter. -/
  recipients : String → List String
  stale : List String → List String
  /-- The id a chat for a peer's seat is enqueued under, unless it is refused. -/
  forward : Forward.HubQualifiedAddress → Option String

structure ChatHub where
  hubId : String
  dedupe : ChatDedupe
  nextMsgId : Int := 1
  /-- The calls so far that did not end at once; a call's number is its place. -/
  handlers : List Handler := []
  journal : List Members := []
  reached : List Reached := []
  answers : List (Copy × ChatDedupeVerdict) := []

inductive ChatStep where
  | chat (sender : String) (data : Members) (now : Float) (world : World)
  /-- The writes of a fan-out have ended; those to `successful` completed. -/
  | sent (number : Nat) (successful : List String)
  /-- A receipt, or a forward's sends, have ended. -/
  | reported (number : Nat)
  /-- An error or a cancellation ends the handler. -/
  | cut (number : Nat) (successful : List String)

/-- The copy a frame is, and the frame as it is compared. -/
def admitted [Builtins] (sender : String) (data : Members) (now : Float) : Copy × Members :=
  let (clientMsgId, data) := normalizeClientMsgId (stampChatTimes data now)
  (⟨sender, clientMsgId, chatContent data, now⟩, data)

section
variable [Builtins]

def channelOf (data : Members) : String := strip ((data.get "channel").or (.str "")).toStr

def namesPeerSeat (data : Members) : Bool :=
  ((data.get "target").or (.str "")).toStr.toList.contains '@'

/-- Where a chat for a peer's seat goes, under which id and row number;
`none` where it is refused. -/
def acceptedForward (data : Members) (world : World) :
    Option (Forward.HubQualifiedAddress × String × Option Int) :=
  match Forward.forwardAddress (strip ((data.get "target").or (.str "")).toStr) with
  | .error _ => none
  | .ok address =>
    match world.forward address, world.seq with
    | some forwardId, .ok seq => some (address, forwardId, seq)
    | _, _ => none

/-- The chat is for a peer's seat, and enqueued for it. -/
def forwards (data : Members) (world : World) : Bool :=
  channelOf data == "" && namesPeerSeat data && (acceptedForward data world).isSome

end

namespace ChatHub

def park (h : ChatHub) (copy : Copy) (data : Members) (phase : Phase) : ChatHub :=
  { h with handlers := h.handlers ++ [⟨copy, data, phase⟩] }

def journalled (h : ChatHub) (data : Members) (seq : Option Int) : ChatHub :=
  if seq.isSome then { h with journal := h.journal ++ [data] } else h

def reach (h : ChatHub) (copy : Copy) (data : Members) : ChatHub :=
  { h with reached := h.reached ++ [⟨copy, data⟩] }

/-- `data["seq"] = seq`, where there is a journal. -/
def stampSeq (data : Members) (seq : Option Int) : Members :=
  match seq with
  | some n => Dict.put "seq" (.int n) data
  | none => data

variable [Builtins]

def rememberCopy (h : ChatHub) (copy : Copy) (data : Members) : ChatHub :=
  { h with dedupe := h.dedupe.rememberCopy copy data }

/-! ### Routing to the first await -/

/-- A channel's chat goes to its online members, for a member. -/
def routeChannelChat (h : ChatHub) (copy : Copy) (data : Members) (channel : String)
    (world : World) : ChatHub :=
  match world.members channel, world.seq with
  | some online, .ok seq =>
    (h.journalled data seq).park copy data (.channel (classifyDeliveryLiveness online []))
  | _, _ => h

/-- A chat for a peer's seat is enqueued for it. -/
def forwardChat (h : ChatHub) (copy : Copy) (data : Members) (world : World) : ChatHub :=
  match acceptedForward data world with
  | none => h
  | some (address, forwardId, seq) =>
    let data := Dict.put "target" (.str address.text) data
    let h := h.journalled data seq
    let data := Dict.put "forward_id" (.str forwardId) (stampSeq data seq)
    (h.reach copy data).park copy data .forwarding

/-- A local chat goes to the online recipients its target matches. -/
def deliverLocalChat (h : ChatHub) (copy : Copy) (data : Members) (world : World) : ChatHub :=
  let target := ((data.get "target").or (.str "all")).toStr
  let logical := waiterOwner target
  let data := if logical = target then data else Dict.put "target" (.str logical) data
  let recipients := world.recipients logical
  let directed := isDirectedTarget logical
  let stale := if directed then world.stale recipients else []
  let decision := classifyDeliveryLiveness recipients stale
  match world.seq with
  | .error _ => h
  | .ok seq =>
    let h := h.journalled data seq
    let data := stampSeq data seq
    let warns := (data.get "receipt_requested").truthy && directed && !decision.delivered &&
      !recipients.isEmpty
    h.park copy data (if warns then .warning decision else .fanout decision)

def stamp (h : ChatHub) (data : Members) : Members :=
  Dict.put "msg_id" (.int h.nextMsgId)
    (Dict.put "hub_id" (.str h.hubId) (Dict.put "type" (.str "chat") data))

/-- Route a chat that is no retry. -/
def route (h : ChatHub) (copy : Copy) (data : Members) (world : World) : ChatHub :=
  let data := h.stamp data
  let h := { h with nextMsgId := h.nextMsgId + 1 }
  if channelOf data ≠ "" then h.routeChannelChat copy data (channelOf data) world
  else if namesPeerSeat data then h.forwardChat copy data world
  else h.deliverLocalChat copy data world

/-- What the memory says of a copy; a chat without a client id is new. -/
def verdict (h : ChatHub) (copy : Copy) : ChatDedupeVerdict :=
  if copy.clientMsgId = "" then .new
  else h.dedupe.check copy.key copy.digest copy.acceptedAt

def answer (h : ChatHub) (copy : Copy) (verdict : ChatDedupeVerdict) : ChatHub :=
  { h with answers := h.answers ++ [(copy, verdict)] }

/-- `handle_chat` up to its first await. -/
def chat (h : ChatHub) (sender : String) (data : Members) (now : Float) (world : World) : ChatHub :=
  if world.responseError.isSome then h
  else
    let (copy, data) := admitted sender data now
    match h.verdict copy with
    | .new => if world.quota.isSome then h else h.route copy data world
    | answered => h.answer copy answered

/-! ### After an await -/

def settle (h : ChatHub) (number : Nat) (t : Handler) (phase : Phase) : ChatHub :=
  { h with handlers := h.handlers.set number (t.enter phase) }

/-- A handler ends; an accepted copy is remembered. -/
def finish (h : ChatHub) (number : Nat) (t : Handler) (delivered : Bool) : ChatHub :=
  let h := h.settle number t .ended
  if delivered then h.rememberCopy t.copy t.data else h

/-- The writes of a fan-out have ended. -/
def sent (h : ChatHub) (number : Nat) (t : Handler) (successful : List String) : ChatHub :=
  let delivered := t.reaches successful
  let h := if delivered then h.reach t.copy t.data else h
  match t.phase with
  | .channel _ =>
    if (t.data.get "receipt_requested").truthy then h.settle number t (.receipt delivered)
    else h.finish number t delivered
  | .fanout _ => h.finish number t delivered
  | _ => h

/-- A receipt or a forward's sends have ended. -/
def reported (h : ChatHub) (number : Nat) (t : Handler) : ChatHub :=
  match t.phase with
  | .warning decision => h.settle number t (.fanout decision)
  | .receipt delivered => h.finish number t delivered
  | .forwarding => h.finish number t true
  | _ => h

/-- The handler ends where it awaits. -/
def cut (h : ChatHub) (number : Nat) (t : Handler) (successful : List String) : ChatHub :=
  let h := if t.reaches successful then h.reach t.copy t.data else h
  h.settle number t .ended

def step (h : ChatHub) : ChatStep → ChatHub
  | .chat sender data now world => h.chat sender data now world
  | .sent number successful =>
    match h.handlers[number]? with
    | some t => h.sent number t successful
    | none => h
  | .reported number =>
    match h.handlers[number]? with
    | some t => h.reported number t
    | none => h
  | .cut number successful =>
    match h.handlers[number]? with
    | some t => h.cut number t successful
    | none => h

end ChatHub

end SynapseChannel.Chat
