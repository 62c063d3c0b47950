import SynapseChannel.Core.MessageReplay
import SynapseChannel.Lib.JsonText

/-!
# Core — MessageAuth

Authentication of single frames: an HMAC under a shared key, or an Ed25519
event signature under a trust bundle. Everything up to the replay cache is a
function of the frame, the keys and the clock; only the admission has a state.
-/

namespace SynapseChannel.MessageAuth

open Py Framing

/-- Base 64 and Ed25519, which are not embedded. A signature that does not
verify and a key or signature of the wrong form are refused alike. -/
class EventSignatures where
  b64decode : String → Option Bytes
  verify : (publicKey signature payload : Bytes) → Bool

inductive SignedEventVerificationResult where
  | valid
  | missingSignature
  | expired
  | unknownKey
  | revokedKey
  | badSignature
  | invalidDomain
  | senderMismatch
  | projectScopeMismatch
  | sequenceMismatch
  | replayed
  deriving DecidableEq

/-- Exceptions a verification lets through. -/
inductive Raised where
  /-- `float` of an integer beyond the floats. -/
  | overflowError
  /-- `compare_digest` of a text that is not ASCII. -/
  | typeError
  deriving DecidableEq

structure MessageAuthKey where
  keyId : String
  secret : Bytes
  senders : List String := []
  revoked : Bool := false

structure EventSignatureKey where
  keyId : String
  publicKey : Bytes
  senders : List String := []
  projects : List String := []
  expiresAt : Option Float := none
  revoked : Bool := false

def authAlgorithm : String := "hmac-sha256"

def eventSignatureAlgorithm : String := "ed25519"

def legacyEventSignatureVersion : Int := 1

def eventSignatureVersion : Int := 2

/-- `str(AEF_LEGACY_EVENT_DOMAIN)`. -/
def aefLegacyEventDomain : String := "aef:legacy-event:v0.1"

/-! ## Canonical frames -/

/-- One code point inside a JSON string with `ensure_ascii=False`. -/
def plainChar (c : Char) : List Char :=
  let n := c.toNat
  if n = 34 then ['\\', '"']
  else if n = 92 then ['\\', '\\']
  else if n = 10 then ['\\', 'n']
  else if n = 13 then ['\\', 'r']
  else if n = 9 then ['\\', 't']
  else if n = 12 then ['\\', 'f']
  else if n = 8 then ['\\', 'b']
  else if n < 32 then unicodeEscape n
  else [c]

def plainQuote (s : String) : String :=
  String.ofList ('"' :: s.toList.flatMap plainChar ++ ['"'])

mutual

/-- `json.dumps(value, ensure_ascii=False, sort_keys=True, separators=(",", ":"))`. -/
def plainDumps [Builtins] : Json → String
  | .null => "null"
  | .bool true => "true"
  | .bool false => "false"
  | .int n => toString n
  | .float x => floatText x
  | .str s => plainQuote s
  | .arr items => "[" ++ join "," (plainItems items) ++ "]"
  | .obj members =>
    let texts := sortedBy (fun a b => decide (a < b)) Prod.fst (plainMembers members)
    "\x7b" ++ join "," (texts.map fun m => plainQuote m.1 ++ ":" ++ m.2) ++ "\x7d"

def plainItems [Builtins] : List Json → List String
  | [] => []
  | v :: rest => plainDumps v :: plainItems rest

def plainMembers [Builtins] : List (String × Json) → List (String × String)
  | [] => []
  | (name, v) :: rest => (name, plainDumps v) :: plainMembers rest

end

/-- The frame without the `value` of its envelope. -/
def withoutValue (envelope : String) (frame : Members) : Members :=
  frame.map fun m =>
    match m with
    | (name, .obj members) =>
      if name = envelope then (name, .obj (members.filter fun e => e.1 ≠ "value"))
      else (name, .obj members)
    | m => m

def canonicalFrame [Builtins] (frame : Members) : Bytes :=
  utf8 (plainDumps (.obj (withoutValue "auth" frame)))

def canonicalEventFrame [Builtins] (frame : Members) : Bytes :=
  utf8 (plainDumps (.obj (withoutValue "signature" frame)))

/-- `aef_signature_preimage`: the domain, one NUL, the payload. -/
def aefSignaturePreimage (domain : String) (payload : Bytes) : Bytes :=
  utf8 domain ++ 0 :: payload

/-- `hmac.new(secret, message, sha256).hexdigest()`. -/
def hmacSha256Hex [Builtins] (secret message : Bytes) : String :=
  let short := if 64 < secret.length then sha256 secret else secret
  let block := short ++ List.replicate (64 - short.length) 0
  hex (sha256 (block.map (· ^^^ 0x5c) ++ sha256 (block.map (· ^^^ 0x36) ++ message)))

/-! ## Verification -/

/-- What a frame that passed every check asks the replay cache to admit. -/
structure Admission where
  identity : Identity
  sequence : Int
  timestamp : Float

/-- `str(members.get(name) or "")`. -/
def textField [Builtins] (members : Members) (name : String) : String :=
  ((members.get name).or (.str "")).toStr

/-- `float(members[name])`: the exceptions that the caller takes are `none`. -/
def floatField [Builtins] (members : Members) (name : String) : Except Raised (Option Float) :=
  match members.get? name with
  | none => .ok none
  | some (.int n) =>
    if (Float.ofInt n).isFinite then .ok (some (Float.ofInt n)) else .error .overflowError
  | some value => .ok value.toFloat?

/-- An `int` above zero that is no `bool`. -/
def positiveInt : Json → Option Int
  | .int n => if n < 1 then none else some n
  | _ => none

/-- `sender != required_sender or not key.senders or required_sender not in key.senders`. -/
def senderRefused (senders : List String) (sender requiredSender : String) : Bool :=
  sender ≠ requiredSender || senders.isEmpty || !senders.contains requiredSender

/-- The freshness test: neither older than the window nor further ahead than the skew. -/
def outsideWindow (cache : MessageReplayCache) (timestamp now : Float) : Bool :=
  timestamp < now - cache.windowSeconds || now + cache.futureSkewSeconds < timestamp

/-- `verify_frame` up to its admission. -/
def checkFrame [Builtins] (frame : Members) (keys : Dict String MessageAuthKey)
    (cache : MessageReplayCache) (now : Float) (requiredSender : String) :
    Except Raised (Except VerificationResult Admission) :=
  match frame.get "auth" with
  | .obj auth =>
    let keyId := textField auth "kid"
    match keys.get? keyId with
    | none => .ok (.error .unknownKey)
    | some key =>
      if key.revoked then .ok (.error .revokedKey)
      else if senderRefused key.senders (textField frame "sender") requiredSender then
        .ok (.error .senderMismatch)
      else if textField auth "alg" ≠ authAlgorithm then .ok (.error .badAuthentication)
      else
        match floatField auth "timestamp", Members.get? auth "sequence" with
        | .error raised, _ => .error raised
        | .ok none, _ => .ok (.error .badAuthentication)
        | .ok (some _), none => .ok (.error .badAuthentication)
        | .ok (some timestamp), some sequenceRaw =>
          match positiveInt sequenceRaw with
          | none => .ok (.error .sequenceMismatch)
          | some sequence =>
            if outsideWindow cache timestamp now then .ok (.error .expired)
            else
              let nonce := textField auth "nonce"
              let supplied := textField auth "value"
              if nonce = "" ∨ supplied = "" then .ok (.error .badAuthentication)
              else
                match compareDigest (hmacSha256Hex key.secret (canonicalFrame frame)) supplied with
                | .error _ => .error .typeError
                | .ok false => .ok (.error .badAuthentication)
                | .ok true => .ok (.ok ⟨⟨keyId, requiredSender, nonce⟩, sequence, timestamp⟩)
  | _ => .ok (.error .missing)

/-- The payload a signature of this version covers. -/
def signedPayload [Builtins] (frame signature : Members) :
    Except SignedEventVerificationResult Bytes :=
  match signature.get "version" with
  | .int version =>
    if version = legacyEventSignatureVersion then
      if signature.contains "domain" then .error .invalidDomain
      else .ok (canonicalEventFrame frame)
    else if version = eventSignatureVersion then
      match signature.get "domain" with
      | .str domain =>
        if domain = aefLegacyEventDomain then
          .ok (aefSignaturePreimage aefLegacyEventDomain (canonicalEventFrame frame))
        else .error .invalidDomain
      | _ => .error .invalidDomain
    else .error .badSignature
  | _ => .error .badSignature

/-- `verify_event_signature` up to its admission. -/
def checkEvent [Builtins] [EventSignatures] (frame : Members)
    (keys : Dict String EventSignatureKey) (cache : MessageReplayCache) (now : Float)
    (requiredSender requiredProject : String) :
    Except Raised (Except SignedEventVerificationResult Admission) :=
  match frame.get "signature" with
  | .obj signature =>
    let keyId := textField signature "key_id"
    match keys.get? keyId with
    | none => .ok (.error .unknownKey)
    | some key =>
      if key.revoked then .ok (.error .revokedKey)
      else if key.expiresAt.any (· < now) then .ok (.error .expired)
      else if senderRefused key.senders (textField frame "sender") requiredSender then
        .ok (.error .senderMismatch)
      else if requiredProject ≠ "" ∧ (textField frame "project" ≠ requiredProject ∨
          requiredProject ∉ key.projects) then
        .ok (.error .projectScopeMismatch)
      else if textField signature "algorithm" ≠ eventSignatureAlgorithm then
        .ok (.error .badSignature)
      else
        match signedPayload frame signature with
        | .error refusal => .ok (.error refusal)
        | .ok payload =>
          match floatField signature "signed_at", Members.get? signature "sequence" with
          | .error raised, _ => .error raised
          | .ok none, _ => .ok (.error .badSignature)
          | .ok (some _), none => .ok (.error .badSignature)
          | .ok (some signedAt), some sequenceRaw =>
            match positiveInt sequenceRaw with
            | none => .ok (.error .sequenceMismatch)
            | some sequence =>
              if outsideWindow cache signedAt now then .ok (.error .expired)
              else
                let nonce := textField signature "nonce"
                let supplied := textField signature "value"
                if nonce = "" ∨ supplied = "" then .ok (.error .badSignature)
                else
                  match EventSignatures.b64decode supplied with
                  | none => .ok (.error .badSignature)
                  | some decoded =>
                    if EventSignatures.verify key.publicKey decoded payload then
                      .ok (.ok ⟨⟨keyId, requiredSender, nonce⟩, sequence, signedAt⟩)
                    else .ok (.error .badSignature)
  | _ => .ok (.error .missingSignature)

/-- `verify_frame`. -/
def verifyFrame [Builtins] (frame : Members) (keys : Dict String MessageAuthKey)
    (cache : MessageReplayCache) (ledger : Ledger) (now : Float) (requiredSender : String)
    (fault : Option DriverFault) :
    Except Raised VerificationResult × MessageReplayCache × Ledger :=
  match checkFrame frame keys cache now requiredSender with
  | .error raised => (.error raised, cache, ledger)
  | .ok (.error refusal) => (.ok refusal, cache, ledger)
  | .ok (.ok a) =>
    let (admission, cache', ledger') :=
      cache.admitOne ledger a.identity a.sequence a.timestamp now fault
    (.ok (admission.getD .ok), cache', ledger')

/-- `verify_event_signature`. -/
def verifyEventSignature [Builtins] [EventSignatures] (frame : Members)
    (keys : Dict String EventSignatureKey) (cache : MessageReplayCache) (ledger : Ledger)
    (now : Float) (requiredSender requiredProject : String) (fault : Option DriverFault) :
    Except Raised SignedEventVerificationResult × MessageReplayCache × Ledger :=
  match checkEvent frame keys cache now requiredSender requiredProject with
  | .error raised => (.error raised, cache, ledger)
  | .ok (.error refusal) => (.ok refusal, cache, ledger)
  | .ok (.ok a) =>
    let (admission, cache', ledger') :=
      cache.admitOne ledger a.identity a.sequence a.timestamp now fault
    let result : SignedEventVerificationResult :=
      match admission with
      | none => .valid
      | some .sequenceMismatch => .sequenceMismatch
      | some _ => .replayed
    (.ok result, cache', ledger')

/-- `sign_frame`. -/
def signFrame [Builtins] (frame : Members) (key : MessageAuthKey) (nonce : String)
    (sequence : Int) (timestamp : Float) : Members :=
  let envelope : Members :=
    [("alg", .str authAlgorithm), ("kid", .str key.keyId), ("nonce", .str nonce),
      ("sequence", .int sequence), ("timestamp", .float timestamp)]
  let value := hmacSha256Hex key.secret (canonicalFrame (Dict.put "auth" (.obj envelope) frame))
  Dict.put "auth" (.obj (envelope ++ [("value", .str value)])) frame

end SynapseChannel.MessageAuth
