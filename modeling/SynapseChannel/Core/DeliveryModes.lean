import SynapseChannel.Core.HubAddress
import SynapseChannel.Lib.JsonText

/-!
# Core — DeliveryModes

The version-three delivery intent, its lifecycle, and the identities of the
hub that keeps its journal.
-/

namespace SynapseChannel.Delivery

open Py
open Framing (utf8)
open Forward (parseHubQualified)

/-- How a delivery operation fails. -/
inductive Failure where
  | refusal (code detail : String)
  /-- JSON that cannot be written. -/
  | valueError
  /-- A row whose key exists. -/
  | integrityError
  deriving DecidableEq

def invalidShape (detail : String) : Failure := .refusal "invalid_shape" detail

/-! ## Intents -/

inductive DeliveryMode where
  | interrupt
  | steer
  | followUp
  | nextTurn
  deriving DecidableEq

def DeliveryMode.text : DeliveryMode → String
  | .interrupt => "interrupt"
  | .steer => "steer"
  | .followUp => "follow_up"
  | .nextTurn => "next_turn"

def deliveryModes : List DeliveryMode := [.interrupt, .steer, .followUp, .nextTurn]

inductive DeliveryQuality where
  | native
  | emulated
  deriving DecidableEq

def DeliveryQuality.text : DeliveryQuality → String
  | .native => "native"
  | .emulated => "emulated"

/-- One sender-scoped, session-bound request after shape validation. -/
structure DeliveryIntent where
  sender : String
  originHub : String
  requestId : String
  idempotencyKey : String
  target : String
  targetIncarnation : String
  mode : DeliveryMode
  allowedFallbacks : List DeliveryMode
  taskId : String
  body : String
  deadline : Float
  deriving DecidableEq

namespace DeliveryIntent

/-- `asdict(intent)`. -/
def members (i : DeliveryIntent) : Members :=
  [("sender", .str i.sender), ("origin_hub", .str i.originHub), ("request_id", .str i.requestId),
    ("idempotency_key", .str i.idempotencyKey), ("target", .str i.target),
    ("target_incarnation", .str i.targetIncarnation), ("mode", .str i.mode.text),
    ("allowed_fallbacks", .arr (i.allowedFallbacks.map fun m => .str m.text)),
    ("task_id", .str i.taskId), ("body", .str i.body), ("deadline", .float i.deadline)]

/-- The request as it is stored. -/
def request (i : DeliveryIntent) : Members := ("profile", .int 3) :: i.members

/-- The modes a recipient may serve the intent with. -/
def modes (i : DeliveryIntent) : List String := (i.mode :: i.allowedFallbacks).map DeliveryMode.text

variable [Builtins]

/-- The digest of a JSON value's canonical text. -/
def canonicalDigest (value : Json) : String := Builtins.sha256Hex (utf8 (dumps value))

def operationKeyOf (originHub sender requestId : String) : String :=
  canonicalDigest (.arr [.str originHub, .str sender, .str requestId])

/-- The sender-scoped identity of the request. -/
def operationKey (i : DeliveryIntent) : String := operationKeyOf i.originHub i.sender i.requestId

/-- Every semantic field, the idempotency key included. -/
def digest (i : DeliveryIntent) : String := canonicalDigest (.obj i.members)

end DeliveryIntent

def maxBodyBytes : Nat := 8192
def maxIdBytes : Nat := 128
def maxTargetBytes : Nat := 256
def maxFallbacks : Nat := 3
def maxDeadlineSeconds : Float := 86400

def hasControl (s : String) : Bool := s.toList.any fun c => c.toNat < 0x20 || c.toNat == 0x7f

def isLowerHex (s : String) : Bool := s.toList.all "0123456789abcdef".toList.contains

def boundedText (value : Json) (field : String) (maximum : Nat) (allowEmpty : Bool := false) :
    Except Failure String :=
  match value with
  | .str s =>
    if (s = "" ∧ allowEmpty = false) ∨ maximum < (utf8 s).length then
      .error (invalidShape (field ++ " length is outside its limit"))
    else if hasControl s then .error (invalidShape (field ++ " contains a control character"))
    else .ok s
  | _ => .error (invalidShape (field ++ " must be a string"))

def exactTarget (value : Json) : Except Failure String := do
  let target ← boundedText value "target" maxTargetBytes
  if target = "all" ∨ target.toList.any ['*', '?', '['].contains then
    .error (invalidShape "target must be one exact identity")
  else return target

def incarnationField (value : Json) : Except Failure String := do
  let incarnation ← boundedText value "target_incarnation" 64
  if len incarnation ≠ 64 ∨ isLowerHex incarnation = false then
    .error (invalidShape "target_incarnation must be a SHA-256 digest")
  else return incarnation

def modeField (value : Json) : Except Failure DeliveryMode :=
  match value with
  | .str s =>
    match deliveryModes.find? (·.text == s) with
    | some mode => .ok mode
    | none => .error (.refusal "unsupported_mode" "delivery mode is unsupported")
  | _ => .error (.refusal "unsupported_mode" "delivery mode is unsupported")

/-- Distinct fallbacks, none of them the mode itself. -/
def fallbacksField (value : Json) (mode : DeliveryMode) : Except Failure (List DeliveryMode) :=
  match value with
  | .arr items =>
    if maxFallbacks < items.length then
      .error (invalidShape "allowed_fallbacks must be a bounded list")
    else do
      let fallbacks ← items.mapM modeField
      if ¬ fallbacks.Nodup ∨ mode ∈ fallbacks then
        .error (invalidShape "allowed_fallbacks must be distinct from mode")
      else return fallbacks
  | _ => .error (invalidShape "allowed_fallbacks must be a bounded list")

/-- A number of seconds; a Boolean is none. -/
def finiteNumber (value : Json) : Option Float :=
  match value with
  | .int n => if (Float.ofInt n).isFinite then some (Float.ofInt n) else none
  | .float x => if x.isFinite then some x else none
  | _ => none

def deadlineField (value : Json) (now : Float) : Except Failure Float :=
  match finiteNumber value with
  | none => .error (invalidShape "deadline must be a finite number")
  | some deadline =>
    if deadline ≤ now then .error (.refusal "deadline_expired" "delivery deadline has elapsed")
    else if now + maxDeadlineSeconds < deadline then
      .error (invalidShape "deadline exceeds the supported horizon")
    else .ok deadline

def permittedFields : List String :=
  ["sender", "type", "target", "payload", "timestamp", "protocol_version", "request_id",
    "idempotency_key", "target_incarnation", "mode", "allowed_fallbacks", "task_id", "body",
    "deadline", "token", "idem_key", "auth"]

/-- `value == n` for a number that is no Boolean. -/
def isNumber (value : Json) (n : Int) : Bool :=
  match value with
  | .int m => m == n
  | .float x => x == Float.ofInt n
  | _ => false

/-- Parse a strict request under the hub's clock; `sender` and `originHub`
are the hub's, never the frame's. -/
def parseDeliveryIntent (data : Members) (sender originHub : String) (now : Float) :
    Except Failure DeliveryIntent :=
  if data.any fun m => !permittedFields.contains m.1 then
    .error (invalidShape "request has unsupported fields")
  else if !isNumber (data.get "protocol_version") 3 then
    .error (.refusal "unsupported_protocol" "delivery requires wire version 3")
  else do
    let requestId ← boundedText (data.get "request_id") "request_id" maxIdBytes
    let idempotencyKey ← boundedText (data.get "idempotency_key") "idempotency_key" maxIdBytes
    let target ← exactTarget (data.get "target")
    let targetIncarnation ← incarnationField (data.get "target_incarnation")
    let mode ← modeField (data.get "mode")
    let allowedFallbacks ← fallbacksField (data.getD "allowed_fallbacks" (.arr [])) mode
    let taskId ← boundedText (data.getD "task_id" (.str "")) "task_id" maxIdBytes true
    let body ← boundedText (data.get "body") "body" maxBodyBytes
    let deadline ← deadlineField (data.get "deadline") now
    return { sender, originHub, requestId, idempotencyKey, target, targetIncarnation, mode
             allowedFallbacks, taskId, body, deadline }

/-! ## Lifecycle -/

inductive DeliveryStage where
  | accepted
  | queued
  | boundaryDelivered
  | acknowledged
  | completed
  | failed
  | rejected
  | expired
  | cancelled
  | superseded
  deriving DecidableEq

namespace DeliveryStage

def text : DeliveryStage → String
  | .accepted => "accepted"
  | .queued => "queued"
  | .boundaryDelivered => "boundary_delivered"
  | .acknowledged => "acknowledged"
  | .completed => "completed"
  | .failed => "failed"
  | .rejected => "rejected"
  | .expired => "expired"
  | .cancelled => "cancelled"
  | .superseded => "superseded"

def all : List DeliveryStage :=
  [.accepted, .queued, .boundaryDelivered, .acknowledged, .completed, .failed, .rejected,
    .expired, .cancelled, .superseded]

def ofText (s : String) : Option DeliveryStage := all.find? (·.text == s)

def terminal (stage : DeliveryStage) : Bool :=
  [.completed, .failed, .rejected, .expired, .cancelled, .superseded].contains stage

/-- The stages that count towards the limits of open deliveries. -/
def isOpen (stage : DeliveryStage) : Bool :=
  [.queued, .boundaryDelivered, .acknowledged].contains stage

def next : DeliveryStage → List DeliveryStage
  | .accepted => [.queued, .rejected, .expired]
  | .queued => [.boundaryDelivered, .rejected, .expired, .cancelled, .superseded]
  | .boundaryDelivered => [.acknowledged, .rejected, .failed, .expired, .cancelled, .superseded]
  | .acknowledged => [.completed, .failed, .rejected, .expired, .cancelled, .superseded]
  | _ => []

/-- Stages only the recipient may claim. -/
def recipientOnly (stage : DeliveryStage) : Bool :=
  [.boundaryDelivered, .acknowledged, .completed, .failed, .cancelled].contains stage

@[simp] theorem ofText_text (stage : DeliveryStage) : ofText stage.text = some stage := by
  cases stage <;> decide

/-- Nothing follows a terminal stage. -/
theorem next_terminal {stage : DeliveryStage} (h : stage.terminal = true) : stage.next = [] := by
  cases stage <;> first | rfl | cases h

end DeliveryStage

/-- One projected stage and cancellation fact. -/
structure DeliveryLifecycle where
  stage : DeliveryStage
  cancelRequested : Bool := false

namespace DeliveryLifecycle

def advance (l : DeliveryLifecycle) (stage : DeliveryStage) : Except Failure DeliveryLifecycle :=
  if stage ∈ l.stage.next then .ok { l with stage }
  else .error (.refusal "invalid_transition" "delivery stage transition is invalid")

def requestCancel (l : DeliveryLifecycle) : Except Failure DeliveryLifecycle :=
  if l.stage.terminal then
    .error (.refusal "invalid_transition" "terminal delivery cannot be cancelled")
  else .ok { l with cancelRequested := true }

end DeliveryLifecycle

/-! ## Ownership -/

def boundedReference (value : Json) (maximum : Nat) : Bool :=
  match value with
  | .str s => s != "" && s == strip s && decide ((utf8 s).length ≤ maximum) && !hasControl s
  | _ => false

def validateReceivingHub (value : Json) : Except Failure Unit :=
  if boundedReference value 512 then .ok ()
  else .error (invalidShape "receiving hub identity is malformed")

def validateRecoveryRef (value : Json) : Except Failure Unit :=
  if boundedReference value 1024 then .ok ()
  else .error (invalidShape "delivery recovery reference is malformed")

end SynapseChannel.Delivery
