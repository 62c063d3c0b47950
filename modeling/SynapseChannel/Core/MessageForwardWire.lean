import SynapseChannel.Lib.JsonText
import SynapseChannel.Lib.Outcome
import SynapseChannel.Core.HubAddress

/-!
# Core — MessageForwardWire

The request one hub forwards to a peer and the peer's answer, as JSON
objects: each encoder checks its fields with the decoder.
-/

namespace SynapseChannel.Forward

open Py Outcome
open Framing (utf8)

/-! ## Seat names -/

/-- Whether `seat` names exactly one recipient seat or role. -/
def isSingleSeat (seat : String) : Bool :=
  seat != "" && seat == strip seat && seat != "all" &&
    !seat.toList.any [',', '*', '?', '['].contains

/-- The prefix before an identity's first slash. -/
def projectOf (subject : String) : String :=
  if subject.toList.contains '/' then String.ofList (subject.toList.takeWhile (· != '/')) else ""

/-! ## Requests -/

inductive ForwardKind where
  | chat
  | deliveryRequest
  | deliveryStatus
  | deliveryCancel
  | who
  deriving DecidableEq

def ForwardKind.text : ForwardKind → String
  | .chat => "chat"
  | .deliveryRequest => "delivery_request"
  | .deliveryStatus => "delivery_status"
  | .deliveryCancel => "delivery_cancel"
  | .who => "who"

def forwardKinds : List ForwardKind :=
  [.chat, .deliveryRequest, .deliveryStatus, .deliveryCancel, .who]

def ForwardKind.ofJson (value : Json) : Except String ForwardKind :=
  match value with
  | .str s =>
    match forwardKinds.find? (·.text == s) with
    | some kind => .ok kind
    | none => .error "unknown forward kind"
  | _ => .error "unknown forward kind"

/-- Kinds that name a local seat on the receiving hub. -/
def ForwardKind.targeted (kind : ForwardKind) : Bool := kind == .chat || kind == .deliveryRequest

def maxForwardIdBytes : Nat := 128
def maxNameBytes : Nat := 256
def maxDetailBytes : Nat := 512
def maxBodyBytes : Nat := 262144

/-- One message a hub forwards to the peer hub hosting its target. -/
structure MessageForwardRequest where
  forwardId : String
  kind : ForwardKind
  senderSeat : String
  targetSeat : String
  body : Members

/-- A bounded printable string field. -/
def textField (value : Json) (name : String) (maxBytes : Nat) (allowEmpty : Bool := false) :
    Except String String :=
  match value with
  | .str s =>
    if s = "" ∧ allowEmpty = false then .error (name ++ " must not be empty")
    else if maxBytes < (utf8 s).length then
      .error (name ++ " exceeds " ++ toString maxBytes ++ " bytes")
    else if s.toList.any fun c => c.toNat < 0x20 || c.toNat == 0x7f then
      .error (name ++ " contains control characters")
    else .ok s
  | _ => .error (name ++ " must be a string")

/-- A local seat name: bounded, printable, trimmed and never hub-qualified. -/
def seatField (value : Json) (name : String) : Except String String := do
  let seat ← textField value name maxNameBytes
  if seat ≠ strip seat then .error (name ++ " has surrounding whitespace")
  else if seat.toList.contains '@' then
    .error (name ++ " must be a local seat, not a hub-qualified address")
  else return seat

/-- The target seat, which only a targeted kind names. -/
def targetField (target : String) : Except String String :=
  if target = "" then .ok "" else seatField (.str target) "target_seat"

def requireMapping (raw : Json) (name : String) : Except String Members :=
  match raw with
  | .obj data => .ok data
  | _ => .error ("message forward " ++ name ++ " must be a JSON object")

section
variable [Builtins]

/-- A JSON object whose compact encoding is bounded. The text is ASCII, and
the order of its members does not change its length. -/
def boundedObject (value : Json) (name : String) : Except String Members :=
  match value with
  | .obj members =>
    if hasNonFinite (.obj members) then .error (name ++ " is not JSON-serialisable")
    else if maxBodyBytes < len (dumps (.obj members)) then
      .error (name ++ " exceeds " ++ toString maxBodyBytes ++ " bytes")
    else .ok members
  | _ => .error (name ++ " must be a JSON object")

def decodeMessageForwardRequest (raw : Json) : Except String MessageForwardRequest := do
  let data ← requireMapping raw "request"
  let kind ← ForwardKind.ofJson (data.get "kind")
  let target ← textField (data.getD "target_seat" (.str "")) "target_seat" maxNameBytes true
  if kind.targeted ∧ target = "" then .error (kind.text ++ " forward requires target_seat")
  else if kind.targeted = false ∧ target ≠ "" then
    .error (kind.text ++ " forward must not name target_seat")
  else
    let forwardId ← textField (data.get "forward_id") "forward_id" maxForwardIdBytes
    let senderSeat ← seatField (data.get "sender_seat") "sender_seat"
    let targetSeat ← targetField target
    let body ← boundedObject (data.getD "body" (.obj [])) "body"
    return { forwardId, kind, senderSeat, targetSeat, body }

end

/-- The wire fields of a request. -/
def MessageForwardRequest.fields (request : MessageForwardRequest) : Members :=
  [("forward_id", .str request.forwardId), ("kind", .str request.kind.text),
    ("sender_seat", .str request.senderSeat), ("target_seat", .str request.targetSeat),
    ("body", .obj request.body)]

/-! ## Results -/

inductive Disposition where
  | accepted
  | duplicate
  | refused
  deriving DecidableEq

def Disposition.text : Disposition → String
  | .accepted => "accepted"
  | .duplicate => "duplicate"
  | .refused => "refused"

def Disposition.ofJson (value : Json) : Except String Disposition :=
  match value with
  | .str s =>
    match [Disposition.accepted, .duplicate, .refused].find? (·.text == s) with
    | some disposition => .ok disposition
    | none => .error "unknown forward disposition"
  | _ => .error "unknown forward disposition"

/-- The receiving hub's answer to one forward. -/
structure MessageForwardResult where
  forwardId : String
  disposition : Disposition
  answeringHub : String
  reasonCode : String := ""
  detail : String := ""
  result : Members := []

/-- `[a-z][a-z0-9_]{0,63}`. -/
def isReasonCode (code : String) : Bool :=
  match code.toList with
  | [] => false
  | c :: rest =>
    c.isLower && rest.all (fun d => d.isLower || d.isDigit || d == '_') &&
      decide (rest.length ≤ 63)

def MessageForwardResult.fields (result : MessageForwardResult) : Members :=
  [("forward_id", .str result.forwardId), ("disposition", .str result.disposition.text),
    ("answering_hub", .str result.answeringHub), ("reason_code", .str result.reasonCode),
    ("detail", .str result.detail), ("result", .obj result.result)]

def hubField (value : Json) : Except String String :=
  match value with
  | .str s => if isValidHubId s then .ok s else .error "invalid answering_hub"
  | _ => .error "invalid answering_hub"

/-- The refusal code, which only a refusal has. -/
def reasonField (value : Json) (disposition : Disposition) : Except String String :=
  match value with
  | .str code =>
    if disposition = .refused ∧ isReasonCode code = false then
      .error "refusal requires a lower-case reason_code"
    else if disposition ≠ .refused ∧ code ≠ "" then
      .error "reason_code is only valid on a refusal"
    else .ok code
  | _ => .error "reason_code must be a string"

section
variable [Builtins]

def decodeMessageForwardResult (raw : Json) : Except String MessageForwardResult := do
  let data ← requireMapping raw "result"
  let disposition ← Disposition.ofJson (data.get "disposition")
  let answeringHub ← hubField (data.get "answering_hub")
  let reasonCode ← reasonField (data.getD "reason_code" (.str "")) disposition
  let forwardId ← textField (data.get "forward_id") "forward_id" maxForwardIdBytes
  let detail ← textField (data.getD "detail" (.str "")) "detail" maxDetailBytes true
  let result ← boundedObject (data.getD "result" (.obj [])) "result"
  return { forwardId, disposition, answeringHub, reasonCode, detail, result }

/-- The fields of a request, checked by the decoder. -/
def encodeMessageForwardRequest (request : MessageForwardRequest) : Except String Members :=
  (decodeMessageForwardRequest (.obj request.fields)).map fun _ => request.fields

/-- The fields of a result, checked by the decoder. -/
def encodeMessageForwardResult (result : MessageForwardResult) : Except String Members :=
  (decodeMessageForwardResult (.obj result.fields)).map fun _ => result.fields

/-! ## Round trips -/

section

omit [Builtins]

theorem ofJson_text (kind : ForwardKind) : ForwardKind.ofJson (.str kind.text) = .ok kind := by
  cases kind <;> decide

theorem textField_again {value : Json} {name other : String} {maxBytes : Nat} {allowEmpty : Bool}
    {s : String} (h : textField value name maxBytes allowEmpty = .ok s) :
    textField (.str s) other maxBytes allowEmpty = .ok s := by
  unfold textField at h ⊢
  split at h
  · split_ifs at h with hempty hsize hcontrol
    cases h
    rw [if_neg hempty, if_neg hsize, if_neg hcontrol]
  · cases h

theorem seatField_again {value : Json} {name : String} {s : String}
    (h : seatField value name = .ok s) : seatField (.str s) name = .ok s := by
  unfold seatField at h ⊢
  obtain ⟨seat, hseat, h⟩ := bind_ok h
  split_ifs at h with hstrip hqualified
  cases h
  refine bind_of_ok (textField_again hseat) ?_
  rw [if_neg hstrip, if_neg hqualified]
  rfl

theorem seatField_str {s name t : String} (h : seatField (.str s) name = .ok t) : t = s := by
  unfold seatField at h
  obtain ⟨seat, hseat, h⟩ := bind_ok h
  split_ifs at h
  cases h
  unfold textField at hseat
  dsimp only at hseat
  split_ifs at hseat
  cases hseat
  rfl

theorem targetField_eq {target seat : String} (h : targetField target = .ok seat) :
    seat = target := by
  unfold targetField at h
  split_ifs at h with hempty
  · cases h
    exact hempty.symm
  · exact seatField_str h

end

theorem boundedObject_again {value : Json} {name : String} {members : Members}
    (h : boundedObject value name = .ok members) :
    boundedObject (.obj members) name = .ok members := by
  unfold boundedObject at h ⊢
  split at h
  · split_ifs at h with hfinite hsize
    cases h
    rw [if_neg hfinite, if_neg hsize]
  · cases h

theorem decode_fields {raw : Json} {request : MessageForwardRequest}
    (h : decodeMessageForwardRequest raw = .ok request) :
    decodeMessageForwardRequest (.obj request.fields) = .ok request := by
  unfold decodeMessageForwardRequest at h
  obtain ⟨data, -, h⟩ := bind_ok h
  obtain ⟨kind, -, h⟩ := bind_ok h
  obtain ⟨target, htarget, h⟩ := bind_ok h
  split_ifs at h with hmissing hextra
  obtain ⟨forwardId, hforwardId, h⟩ := bind_ok h
  obtain ⟨senderSeat, hsenderSeat, h⟩ := bind_ok h
  obtain ⟨targetSeat, htargetSeat, h⟩ := bind_ok h
  obtain ⟨body, hbody, h⟩ := bind_ok h
  cases h
  have hsame := targetField_eq htargetSeat
  rw [hsame]
  show (do
    let kind ← ForwardKind.ofJson (.str kind.text)
    let target ← textField (.str target) "target_seat" maxNameBytes true
    if kind.targeted ∧ target = "" then .error (kind.text ++ " forward requires target_seat")
    else if kind.targeted = false ∧ target ≠ "" then
      .error (kind.text ++ " forward must not name target_seat")
    else
      let forwardId ← textField (.str forwardId) "forward_id" maxForwardIdBytes
      let senderSeat ← seatField (.str senderSeat) "sender_seat"
      let targetSeat ← targetField target
      let body ← boundedObject (.obj body) "body"
      return ({ forwardId, kind, senderSeat, targetSeat, body } : MessageForwardRequest)) = _
  refine bind_of_ok (ofJson_text kind) (bind_of_ok (textField_again htarget) ?_)
  rw [if_neg hmissing, if_neg hextra]
  refine bind_of_ok (textField_again hforwardId) (bind_of_ok (seatField_again hsenderSeat) ?_)
  rw [hsame] at htargetSeat
  exact bind_of_ok htargetSeat (bind_of_ok (boundedObject_again hbody) rfl)

theorem decoded_forwardId {raw : Json} {request : MessageForwardRequest}
    (h : decodeMessageForwardRequest raw = .ok request) :
    textField (.str request.forwardId) "forward_id" maxForwardIdBytes = .ok request.forwardId := by
  obtain ⟨data, -, h⟩ := bind_ok h
  obtain ⟨kind, -, h⟩ := bind_ok h
  obtain ⟨target, htarget, h⟩ := bind_ok h
  split_ifs at h
  obtain ⟨forwardId, hforwardId, h⟩ := bind_ok h
  obtain ⟨senderSeat, -, h⟩ := bind_ok h
  obtain ⟨targetSeat, -, h⟩ := bind_ok h
  obtain ⟨body, -, h⟩ := bind_ok h
  cases h
  exact textField_again hforwardId

theorem encode_decoded {raw : Json} {request : MessageForwardRequest}
    (h : decodeMessageForwardRequest raw = .ok request) :
    encodeMessageForwardRequest request = .ok request.fields := by
  unfold encodeMessageForwardRequest
  rw [decode_fields h]
  rfl

/-- An encoded result is its fields, and names a valid hub. -/
theorem encodeResult_eq {result : MessageForwardResult} {encoded : Members}
    (h : encodeMessageForwardResult result = .ok encoded) :
    encoded = result.fields ∧ isValidHubId result.answeringHub = true := by
  unfold encodeMessageForwardResult at h
  cases hdecoded : decodeMessageForwardResult (.obj result.fields) with
  | error e =>
    rw [hdecoded] at h
    cases h
  | ok decoded =>
    rw [hdecoded] at h
    cases h
    refine ⟨rfl, ?_⟩
    obtain ⟨data, hdata, hdecoded⟩ := bind_ok hdecoded
    cases hdata
    obtain ⟨disposition, -, hdecoded⟩ := bind_ok hdecoded
    obtain ⟨hub, hhub, -⟩ := bind_ok hdecoded
    have hfield : hubField (.str result.answeringHub) = .ok hub := hhub
    unfold hubField at hfield
    dsimp only at hfield
    split_ifs at hfield with hvalid
    exact hvalid

omit [Builtins] in
theorem disposition_text (d : Disposition) : Disposition.ofJson (.str d.text) = .ok d := by
  cases d <;> decide

theorem encodeResult_refused {forwardId hub code detail : String}
    (hid : textField (.str forwardId) "forward_id" maxForwardIdBytes = .ok forwardId)
    (hhub : isValidHubId hub = true) (hcode : isReasonCode code = true)
    (hdetail : textField (.str detail) "detail" maxDetailBytes true = .ok detail) :
    encodeMessageForwardResult ⟨forwardId, .refused, hub, code, detail, []⟩ =
      .ok (MessageForwardResult.fields ⟨forwardId, .refused, hub, code, detail, []⟩) := by
  have hcodeField : reasonField (.str code) .refused = .ok code := by
    simp [reasonField, hcode]
  have hhubField : hubField (.str hub) = .ok hub := if_pos hhub
  have hbody : boundedObject (.obj []) "result" = .ok [] := by
    simp [boundedObject, hasNonFinite, membersNonFinite, dumps, dumpsMembers, sortedBy, join, len,
      maxBodyBytes]
  have hdecoded : decodeMessageForwardResult
      (.obj (MessageForwardResult.fields ⟨forwardId, .refused, hub, code, detail, []⟩)) =
        .ok ⟨forwardId, .refused, hub, code, detail, []⟩ :=
    bind_of_ok rfl (bind_of_ok (disposition_text .refused) (bind_of_ok hhubField
      (bind_of_ok hcodeField (bind_of_ok hid (bind_of_ok hdetail (bind_of_ok hbody rfl))))))
  unfold encodeMessageForwardResult
  rw [hdecoded]
  rfl

end

end SynapseChannel.Forward
