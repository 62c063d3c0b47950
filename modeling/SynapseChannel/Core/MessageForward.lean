import SynapseChannel.Core.MessageForwardWire
import SynapseChannel.Lib.Trace

/-!
# Core — MessageForward

The serving half of cross-hub messaging. A handler looks up the stored
answer, acts, and stores its own answer; other handlers run between these
stages, and a restart ends those that run.
-/

namespace SynapseChannel.Forward

open Py Outcome
open Framing (utf8)

/-- A refusal code and its detail. -/
structure Refused where
  code : String
  detail : String

/-- What `route_chat` reports of a chat it accepted. -/
structure ChatRouting where
  seq : Option Int
  msgId : Int
  delivered : Bool
  recipients : List String
  matchedRecipients : List String
  staleRecipients : List String
  reason : String
  directed : Bool

/-- What the rest of the hub answers while one forward is acted on. -/
structure Surroundings where
  /-- The serving policy: why a namespace is not granted, if it is not. -/
  policy : Option (String → Option String)
  corruptRows : Bool
  /-- The chat router: a refusal, or the verdict of the chat it delivered. -/
  routeChat : Members → Except String ChatRouting
  /-- Rosters and delivery requests. -/
  other : MessageForwardRequest → Except Refused Members

/-! ## Acting on a forward -/

/-- Refuse unless the serving policy lets the peer address `namespace`. -/
def authorise (s : Surroundings) (namespace_ : String) : Except Refused Unit :=
  match s.policy with
  | none => .error ⟨"peer_not_authorised", "this hub accepts no forwarded messages"⟩
  | some policy =>
    if namespace_ = "" then
      .error ⟨"namespace_not_granted", "target has no project namespace"⟩
    else
      match policy namespace_ with
      | none => .ok ()
      | some reason =>
        .error ⟨"namespace_not_granted", "peer may not address " ++ namespace_ ++ ": " ++ reason⟩

/-- The chat frame a forward becomes. -/
def forwardedChat (peer : String) (request : MessageForwardRequest) (payload : String) : Members :=
  let chat : Members :=
    [("type", .str "chat"), ("sender", .str (federatedSender request.senderSeat peer)),
      ("target", .str request.targetSeat), ("payload", .str payload),
      ("forwarded_from", .str peer), ("forward_id", .str request.forwardId)]
  match request.body.get "client_msg_id" with
  | .str id => if id = "" then chat else chat ++ [("client_msg_id", .str id)]
  | _ => chat

def names (items : List String) : Json := .arr (items.map .str)

/-- The live-recipient verdict as a result payload. -/
def ChatRouting.payload (routing : ChatRouting) : Members :=
  [("seq", match routing.seq with
      | some seq => .int seq
      | none => .null),
    ("msg_id", .int routing.msgId), ("delivered", .bool routing.delivered),
    ("recipients", names routing.recipients),
    ("matched_recipients", names routing.matchedRecipients),
    ("stale_recipients", names routing.staleRecipients), ("reason", .str routing.reason),
    ("dead_lettered", .bool (routing.directed && !routing.delivered))]

/-- Route a forwarded chat locally: the chat and its result payload. -/
def deliverChat (s : Surroundings) (peer : String) (request : MessageForwardRequest) :
    Except Refused (Members × Members) :=
  match request.body.get "payload" with
  | .str payload =>
    let chat := forwardedChat peer request payload
    match s.routeChat chat with
    | .error refusal => .error ⟨"chat_refused", refusal⟩
    | .ok routing => .ok (chat, routing.payload)
  | _ => .error ⟨"invalid_shape", "chat payload must be a string"⟩

/-- Perform one authorised forward: the chat it routed, if it is one, and
its result payload. -/
def act (s : Surroundings) (peer : String) (request : MessageForwardRequest) :
    Except Refused (Option Members × Members) :=
  if !isValidHubId peer then
    .error ⟨"invalid_origin", "forwarding peer id is not a valid hub id"⟩
  else if request.kind.targeted ∧ !isSingleSeat request.targetSeat then
    .error ⟨"invalid_target", "a forwarded target must name exactly one seat"⟩
  else if request.kind = .chat then do
    authorise s (projectOf request.targetSeat)
    if s.corruptRows then
      .error ⟨"journal_recovery_required", "durable journal recovery is required"⟩
    else
      let (chat, payload) ← deliverChat s peer request
      return (some chat, payload)
  else (s.other request).map fun payload => (none, payload)

/-! ## The receiving hub -/

/-- The stored answer to one forward. -/
structure InboundRecord where
  digest : String
  result : Members

/-- A handler between its stages: its request was looked up and found no
answer, and it may have acted. -/
structure Task where
  id : Nat
  peer : String
  request : MessageForwardRequest
  outcome : Option (Except Refused (Option Members × Members))

/-- Handler `id` has acted. -/
def Task.acts (id : Nat) (outcome : Except Refused (Option Members × Members)) (t : Task) : Task :=
  if t.id = id then { t with outcome := some outcome } else t

/-- A chat that reached the router. -/
structure Routed where
  peer : String
  request : MessageForwardRequest
  chat : Members
  payload : Members

structure Receiver where
  hubId : String
  /-- Whether the forward ledger is on the event store's connection. -/
  durable : Bool
  inbound : Dict (String × String) InboundRecord := Dict.empty
  tasks : List Task := []
  nextTask : Nat := 0
  routed : List Routed := []

inductive Reply where
  | malformed
  | result (fields : Members)

/-- What happens at a receiving hub. -/
inductive Step where
  /-- A frame from `peer` starts a handler, which looks its id up. -/
  | receive (peer : String) (frame : Json)
  | act (id : Nat) (s : Surroundings)
  | answer (id : Nat)
  /-- The handler ends without an answer. -/
  | lost (id : Nat)
  | restart

variable [Builtins]

/-- The SHA-256 digest of a request's canonical encoding. -/
def requestDigest (fields : Members) : String := Builtins.sha256Hex (utf8 (dumps (.obj fields)))

namespace Receiver

section

omit [Builtins]

/-- A refusal; its detail is cut to 512 characters. -/
def refusal (r : Receiver) (request : MessageForwardRequest) (refused : Refused) :
    MessageForwardResult :=
  { forwardId := request.forwardId
    disposition := .refused
    answeringHub := r.hubId
    reasonCode := refused.code
    detail := String.ofList (refused.detail.toList.take 512) }

def accepted (r : Receiver) (request : MessageForwardRequest) (payload : Members) :
    MessageForwardResult :=
  { forwardId := request.forwardId
    disposition := .accepted
    answeringHub := r.hubId
    result := payload }

def conflict (r : Receiver) (request : MessageForwardRequest) : MessageForwardResult :=
  r.refusal request ⟨"forward_id_conflict", "forward id reused with new content"⟩

end

/-- Look a decoded request up: answer it, or start acting on it. A result
that does not encode ends the handler. -/
def lookUp (r : Receiver) (peer : String) (request : MessageForwardRequest) (fields : Members) :
    Receiver × Option Reply :=
  match r.inbound.get? (peer, request.forwardId) with
  | some stored =>
    if stored.digest = requestDigest fields then
      (r, some (.result (Dict.put "disposition" (.str "duplicate") stored.result)))
    else
      match encodeMessageForwardResult (r.conflict request) with
      | .ok encoded => (r, some (.result encoded))
      | .error _ => (r, none)
  | none =>
    ({ r with
        tasks := r.tasks ++ [⟨r.nextTask, peer, request, none⟩]
        nextTask := r.nextTask + 1 }, none)

def receive (r : Receiver) (peer : String) (frame : Json) : Receiver × Option Reply :=
  match decodeMessageForwardRequest frame with
  | .error _ => (r, some .malformed)
  | .ok request =>
    match encodeMessageForwardRequest request with
    | .error _ => (r, none)
    | .ok fields => r.lookUp peer request fields

omit [Builtins] in
def drop (r : Receiver) (id : Nat) : Receiver := { r with tasks := r.tasks.filter (·.id ≠ id) }

omit [Builtins] in
/-- A handler acts on its request once. -/
def actOn (r : Receiver) (id : Nat) (s : Surroundings) : Receiver :=
  match r.tasks.find? fun t => t.id == id && t.outcome.isNone with
  | none => r
  | some t =>
    let outcome := act s t.peer t.request
    { r with
      tasks := r.tasks.map (Task.acts id outcome)
      routed := match outcome with
        | .ok (some chat, payload) => r.routed ++ [⟨t.peer, t.request, chat, payload⟩]
        | _ => r.routed }

/-- `INSERT OR IGNORE`. -/
def recordInbound (r : Receiver) (peer forwardId digest : String) (result : Members) : Receiver :=
  if r.inbound.contains (peer, forwardId) then r
  else { r with inbound := r.inbound.set (peer, forwardId) ⟨digest, result⟩ }

/-- A handler that has acted answers, and remembers an accepted answer. -/
def answer (r : Receiver) (id : Nat) : Receiver × Option Reply :=
  match r.tasks.find? (·.id == id) with
  | none => (r, none)
  | some t =>
    match t.outcome with
    | none => (r, none)
    | some (.error refused) =>
      match encodeMessageForwardResult (r.refusal t.request refused) with
      | .ok encoded => (r.drop id, some (.result encoded))
      | .error _ => (r.drop id, none)
    | some (.ok (_, payload)) =>
      match encodeMessageForwardResult (r.accepted t.request payload) with
      | .ok encoded =>
        ((r.drop id).recordInbound t.peer t.request.forwardId (requestDigest t.request.fields)
          encoded, some (.result encoded))
      | .error _ => (r.drop id, none)

omit [Builtins] in
/-- Handlers end; a ledger in memory is lost with them. -/
def restart (r : Receiver) : Receiver :=
  { r with tasks := [], inbound := if r.durable then r.inbound else Dict.empty }

def respond (r : Receiver) : Step → Receiver × Option Reply
  | .receive peer frame => r.receive peer frame
  | .act id s => (r.actOn id s, none)
  | .answer id => r.answer id
  | .lost id => (r.drop id, none)
  | .restart => (r.restart, none)

def step (r : Receiver) (s : Step) : Receiver := (r.respond s).1

def run (hubId : String) (durable : Bool) (steps : List Step) : Receiver :=
  Trace.run step { hubId, durable } steps

end Receiver

end SynapseChannel.Forward
