import SynapseChannel.Core.IdentityTrust
import SynapseChannel.Lib.Trace
import SynapseChannel.Multihub.NamespaceOwnership

/-!
# Core — IdentityEnrollments

Online enrolment, rotation and revocation of identity keys. A request meets
its gates in the order of the source; an approved change is journalled,
written to the file, and then taken into memory.
-/

namespace SynapseChannel.Identity

open Py
open Framing (Bytes)

/-! ## Policy -/

/-- An `identity_enroll` request, as the handler observed it. -/
structure EnrollmentRequest where
  requester : String
  name : String
  keyId : String
  publicKey : Option Bytes
  reason : String
  expectedKeyId : String
  expiresAt : Json

/-- What the hub observed about a requester before any request field is read. -/
structure Authority where
  enabled : Bool
  requesterBound : Bool
  aclAllowed : Bool
  roleGranted : Bool
  namespaceAllowed : Bool
  rateAllowed : Bool
  operatorKeyId : String
  moment : Float

/-- Whether the requester passed every gate that proves who it is. -/
def Authority.authorised (a : Authority) : Bool :=
  a.enabled && a.requesterBound && a.aclAllowed && a.roleGranted

def enrollerRole : String := "identity-enroller"

def maxEnrollmentReasonLength : Nat := 500

/-- The first failed authority gate shared by enrol and revoke, or `""`. -/
def Authority.denial (a : Authority) : String :=
  if !a.enabled then "online enrolment is disabled on this hub"
  else if !a.requesterBound then
    "enrolment requires a cryptographically proven requester identity"
  else if !a.aclAllowed then "not authorised to enrol keys for this name"
  else if !a.roleGranted then "enrolment requires the 'identity-enroller' role grant"
  else if !a.namespaceAllowed then "this hub does not allow enrolment in the name's namespace"
  else if !a.rateAllowed then "enrolment rate limit reached; try again later"
  else ""

/-- A name of the form `<project>/<id>`. -/
def qualified (name : String) : Bool :=
  match name.toList.dropWhile (· ≠ '/') with
  | _ :: _ :: _ => true
  | _ => false

/-- `_KEY_ID.fullmatch(key_id)`. -/
def keyIdMatches (keyId : String) : Bool :=
  decide (1 ≤ len keyId ∧ len keyId ≤ 64) &&
    keyId.toList.all fun c => c.isAlphanum || c == '.' || c == '_' || c == '-'

/-- `n <= x` without rounding: both are compared as numbers. -/
def intLe (n : Int) (x : Float) : Bool :=
  let rounded := Float.ofInt n
  decide (rounded < x) ||
    (rounded == x && (Json.truncFloat rounded).any fun whole => decide (n ≤ whole))

/-- Whether an expiry is absent or a finite future time. -/
def expiryOk (expiresAt : Json) (now : Float) : Except String Bool :=
  match expiresAt with
  | .null => .ok true
  | .int n =>
    if (Float.ofInt n).isFinite then .ok (!intLe n now)
    else .error "int too large to convert to float"
  | .float x => .ok (x.isFinite && !decide (x ≤ now))
  | _ => .ok false

/-- Why an authorised enrolment cannot run, or `""`. -/
def requestDenial (request : EnrollmentRequest) (static enrolled : Keys) (now : Float) :
    Except String String :=
  if !qualified request.name then return "the name must be <project>/<id>"
  else if !keyIdMatches request.keyId then
    return "key id must be 1-64 characters of letters, digits, '.', '_' or '-'"
  else if request.publicKey.isNone then
    return "public key must be base64 of 32 raw Ed25519 bytes"
  else if strip request.reason = "" then return "a non-empty operator reason is required"
  else if maxEnrollmentReasonLength < len (strip request.reason) then
    return "reason exceeds 500 characters"
  else do
    let future ← expiryOk request.expiresAt now
    if !future then return "expires_at must be a future time"
    else if (static.get? request.keyId).isSome || (enrolled.get? request.keyId).isSome then
      return "key id is already in use"
    else if request.name ∈ staticSenders static then
      return "the identity trust bundle already covers this name"
    else if request.name = request.requester ∧ request.expectedKeyId = "" then
      return "an enroller may only rotate its own key, naming the current key id"
    else
      match liveEnrolledKey enrolled request.name now with
      | none =>
        if request.expectedKeyId ≠ "" then
          return "no current enrolled key to rotate for this name"
        else return ""
      | some current =>
        if request.expectedKeyId ≠ current.keyId then
          return "the name already has an enrolled key; rotate it by naming the current key id"
        else return ""

/-- The first denial of an enrolment, or `""` when it may run. -/
def enrollmentDenial (request : EnrollmentRequest) (authority : Authority)
    (static enrolled : Keys) (now : Float) : Except String String :=
  if authority.denial ≠ "" then return authority.denial
  else requestDenial request static enrolled now

/-- Why an authorised revocation of `key_id` for `name` cannot run, or `""`. -/
def revocationDenial (name keyId reason : String) (static enrolled : Keys) : String :=
  if !qualified name then "the name must be <project>/<id>"
  else if strip reason = "" then "a non-empty operator reason is required"
  else if maxEnrollmentReasonLength < len (strip reason) then "reason exceeds 500 characters"
  else if (static.get? keyId).isSome then
    "keys in the identity trust bundle are revoked by editing that file"
  else
    match enrolled.get? keyId with
    | none => "no enrolled key has this id"
    | some key =>
      if name ∉ key.senders then "the enrolled key does not prove this name"
      else if key.revoked then "the enrolled key is already revoked"
      else ""

/-- A per-requester sliding window of enrolment changes. -/
structure EnrollmentRateLimiter where
  limit : Int
  windowSeconds : Float
  events : Dict String (List Float) := Dict.empty

/-- Whether the requester may make one more change; its old events are dropped. -/
def EnrollmentRateLimiter.allows (r : EnrollmentRateLimiter) (requester : String) (now : Float) :
    Bool × EnrollmentRateLimiter :=
  match r.events.get? requester with
  | none => (decide (0 < r.limit), r)
  | some events =>
    let kept := events.dropWhile fun at_ => decide (at_ ≤ now - r.windowSeconds)
    (decide ((kept.length : Int) < r.limit), { r with events := r.events.set requester kept })

def EnrollmentRateLimiter.record (r : EnrollmentRateLimiter) (requester : String) (now : Float) :
    EnrollmentRateLimiter :=
  { r with events := r.events.set requester ((r.events.get? requester).getD [] ++ [now]) }

/-! ## The hub -/

/-- The start options that enrolment reads. -/
structure Config where
  staticTrust : Option Keys
  enrollmentPath : Bool
  journal : Bool
  requireIdentityBinding : Bool
  enrollmentNamespaces : Finset String
  enrollmentRate : Int := 10
  enrollmentWindow : Float := 3600

/-- The fields of a request that every audit row of it repeats. -/
structure Provenance where
  action : String
  operator : String
  operatorKeyId : String
  name : String
  keyId : String
  publicKeySha256 : Option String := none
  expectedKeyId : Option String := none
  reason : String

structure AuditRow extends Provenance where
  status : String
  applied : Bool
  approvedSeq : Option Nat := none
  detail : Option String := none
  evictedLiveSocket : Option Bool := none

structure Hub where
  config : Config
  enrollmentRate : EnrollmentRateLimiter
  /-- The document in the enrolment file; `none` is an absent file. -/
  file : Option Json
  enrolledIdentityKeys : Keys
  identityTrustBundle : Option Keys
  gateBundle : Option Keys
  journal : List AuditRow := []

/-- How a write of the enrolment file ends. -/
inductive Write where
  | saved
  | osError
  | raised
deriving DecidableEq

/-- One request frame, with what the hub finds while it handles it: the
requester's pin and grants, both clocks, whether each audit row and the file
could be written, and whether the name is online. -/
structure Arrival where
  sender : String
  data : Members
  pinned : Option String
  aclAllows : String → String → Bool
  mayClaim : String → String → Bool
  moment : Float
  now : Float
  firstRow : Bool := true
  write : Write := .saved
  secondRow : Bool := true
  online : Bool := false

/-- The verdict a requester is answered with. -/
structure Reply where
  applied : Bool
  detail : String
  auditSeq : Option Nat

/-! ## Requests -/

section
variable [Builtins]

/-- `str(data.get(field) or "")`. -/
def text (data : Members) (field : String) : String := ((data.get field).or (.str "")).toStr

omit [Builtins] in
/-- `decode_public_key`. -/
def decodePublicKey : Json → Option Bytes
  | .str value => (Base64.decode (strip value)).filter fun raw => raw.length = rawPublicKeyBytes
  | _ => none

def enrollmentRequest (a : Arrival) : EnrollmentRequest where
  requester := a.sender
  name := strip (text a.data "name")
  keyId := strip (text a.data "key_id")
  publicKey := decodePublicKey (a.data.get "public_key")
  reason := text a.data "reason"
  expectedKeyId := strip (text a.data "expected_key_id")
  expiresAt := a.data.get "expires_at"

omit [Builtins] in
/-- The key an approved request enrols. -/
def EnrollmentRequest.key (request : EnrollmentRequest) : EventSignatureKey where
  keyId := request.keyId
  publicKey := request.publicKey.getD []
  senders := {request.name}
  expiresAt :=
    match request.expiresAt with
    | .int n => some (Float.ofInt n)
    | .float x => some x
    | _ => none

omit [Builtins] in
/-- The enrolled keys with one of them revoked. -/
def revoking (enrolled : Keys) (keyId : String) : Except String Keys :=
  match enrolled.get? keyId with
  | none => .error "KeyError"
  | some key => .ok (enrolled.set keyId { key with revoked := true })

end

/-! ## Handlers -/

namespace Hub

def staticKeys (hub : Hub) : Keys := hub.config.staticTrust.getD Dict.empty

/-- Append one audit row; `none` where the journal raises. -/
def recordIdentityEnrollment (hub : Hub) (writable : Bool) (row : AuditRow) : Option (Hub × Nat) :=
  if writable then some ({ hub with journal := hub.journal ++ [row] }, hub.journal.length + 1)
  else none

/-- `_authority`: what the hub observes, and the rate window it prunes. -/
def authority (hub : Hub) (a : Arrival) (name : String) : Authority × Hub :=
  let (rateAllowed, rate) := hub.enrollmentRate.allows a.sender a.moment
  ({ enabled := hub.config.enrollmentPath && hub.config.journal && hub.config.staticTrust.isSome
     requesterBound := hub.config.requireIdentityBinding || a.pinned.isSome
     aclAllowed := a.aclAllows a.sender name
     roleGranted := a.mayClaim a.sender (projectOf a.sender ++ "/" ++ enrollerRole)
     namespaceAllowed := decide (projectOf name ∈ hub.config.enrollmentNamespaces)
     rateAllowed := rateAllowed
     operatorKeyId := a.pinned.getD "bundle"
     moment := a.moment },
   { hub with enrollmentRate := rate })

/-- `_refuse`: only an authorised operator's refusals are journalled. -/
def refuse (hub : Hub) (a : Arrival) (authority : Authority) (provenance : Provenance)
    (denial : String) : Hub × Except String Reply :=
  if authority.authorised then
    let row : AuditRow :=
      { provenance with status := "denied", applied := false, detail := some denial }
    match hub.recordIdentityEnrollment a.firstRow row with
    | none => (hub, .error "the journal could not be written")
    | some (hub, seq) => (hub, .ok ⟨false, denial, some seq⟩)
  else (hub, .ok ⟨false, denial, none⟩)

section
variable [Builtins]

/-- Make `enrolled` the hub's online-enrolled identity keys. -/
def replaceEnrolledIdentityKeys (hub : Hub) (enrolled : Keys) : Except String Hub :=
  match hub.config.staticTrust with
  | none => .error "identity enrolment needs an identity trust bundle on the hub"
  | some static => do
    let bundle ← mergeEnrolledKeys static enrolled
    return { hub with
      enrolledIdentityKeys := enrolled
      identityTrustBundle := some bundle
      gateBundle := some bundle }

/-- `_apply`: an approved change, in the journal, the file and then memory. -/
def apply (hub : Hub) (a : Arrival) (authority : Authority) (provenance : Provenance)
    (updated : Keys) (evict : Bool) (detail : String) : Hub × Except String Reply :=
  let approved : AuditRow := { provenance with status := "approved", applied := false }
  match hub.recordIdentityEnrollment a.firstRow approved with
  | none => (hub, .error "the journal could not be written")
  | some (hub, approvedSeq) =>
    match a.write with
    | .raised => (hub, .error "the file could not be written")
    | .osError =>
      let failure := "could not persist the enrolment store"
      let row : AuditRow := { provenance with
        status := "not_applied"
        applied := false
        approvedSeq := some approvedSeq
        detail := some failure }
      match hub.recordIdentityEnrollment a.secondRow row with
      | none => (hub, .error "the journal could not be written")
      | some (hub, _) => (hub, .ok ⟨false, failure, some approvedSeq⟩)
    | .saved =>
      let hub := { hub with file := some (storeDocument updated) }
      match hub.replaceEnrolledIdentityKeys updated with
      | .error e => (hub, .error e)
      | .ok hub =>
        let hub := { hub with
          enrollmentRate := hub.enrollmentRate.record a.sender authority.moment }
        let evicted := evict && provenance.name ≠ a.sender && a.online
        let row : AuditRow := { provenance with
          status := "applied"
          applied := true
          approvedSeq := some approvedSeq
          evictedLiveSocket := some evicted }
        match hub.recordIdentityEnrollment a.secondRow row with
        | none => (hub, .error "the journal could not be written")
        | some (hub, appliedSeq) => (hub, .ok ⟨true, detail, some appliedSeq⟩)

/-- `handle_identity_enroll`. -/
def enroll (hub : Hub) (a : Arrival) : Hub × Except String Reply :=
  let request := enrollmentRequest a
  let (authority, hub) := hub.authority a request.name
  let rotates := decide (request.expectedKeyId ≠ "")
  let provenance : Provenance :=
    { action := if rotates then "rotate" else "enroll"
      operator := a.sender
      operatorKeyId := authority.operatorKeyId
      name := request.name
      keyId := request.keyId
      publicKeySha256 := some ((request.publicKey.map Builtins.sha256Hex).getD "")
      expectedKeyId := some request.expectedKeyId
      reason := strip request.reason }
  match enrollmentDenial request authority hub.staticKeys hub.enrolledIdentityKeys a.now with
  | .error e => (hub, .error e)
  | .ok denial =>
    if denial ≠ "" then hub.refuse a authority provenance denial
    else
      match if rotates then revoking hub.enrolledIdentityKeys request.expectedKeyId
        else .ok hub.enrolledIdentityKeys with
      | .error e => (hub, .error e)
      | .ok kept =>
        let detail :=
          if rotates then "identity key for " ++ Builtins.repr (.str request.name) ++
            " rotated to " ++ Builtins.repr (.str request.keyId)
          else "identity key " ++ Builtins.repr (.str request.keyId) ++ " enrolled for " ++
            Builtins.repr (.str request.name)
        hub.apply a authority provenance (kept.set request.keyId request.key) rotates detail

/-- `handle_identity_revoke`. -/
def revoke (hub : Hub) (a : Arrival) : Hub × Except String Reply :=
  let name := strip (text a.data "name")
  let keyId := strip (text a.data "key_id")
  let reason := text a.data "reason"
  let (authority, hub) := hub.authority a name
  let denial :=
    if authority.denial ≠ "" then authority.denial
    else revocationDenial name keyId reason hub.staticKeys hub.enrolledIdentityKeys
  let provenance : Provenance :=
    { action := "revoke"
      operator := a.sender
      operatorKeyId := authority.operatorKeyId
      name := name
      keyId := keyId
      reason := strip reason }
  if denial ≠ "" then hub.refuse a authority provenance denial
  else
    match revoking hub.enrolledIdentityKeys keyId with
    | .error e => (hub, .error e)
    | .ok updated =>
      hub.apply a authority provenance updated true ("identity key " ++
        Builtins.repr (.str keyId) ++ " for " ++ Builtins.repr (.str name) ++ " revoked")

/-- Start a hub on the file it finds. -/
def boot (config : Config) (file : Option Json) : Except String Hub := do
  if config.enrollmentPath && (config.staticTrust.isNone || !config.journal) then
    .error ("online identity enrolment needs an identity trust bundle and a durable " ++
      "journal: pass --identity-trust and --db with --identity-enrollments")
  else
    let enrolled ← if config.enrollmentPath then loadEnrolledKeys file else .ok Dict.empty
    let trust ←
      match config.staticTrust with
      | some static =>
        if config.enrollmentPath then (mergeEnrolledKeys static enrolled).map some
        else .ok (some static)
      | none => .ok none
    let limiter : EnrollmentRateLimiter :=
      { limit := max 0 config.enrollmentRate
        windowSeconds := if 0 < config.enrollmentWindow then config.enrollmentWindow else 0 }
    return {
      config := config
      enrollmentRate := limiter
      file := file
      enrolledIdentityKeys := enrolled
      identityTrustBundle := trust
      gateBundle := trust }

end

/-! ## Runs -/

/-- What happens to a hub. -/
inductive Op where
  | enroll (a : Arrival)
  | revoke (a : Arrival)
  | restart

section
variable [Builtins]

/-- The hub after one operation, and what it answers. -/
def handle (hub : Hub) : Op → Hub × Except String Reply
  | .enroll a => hub.enroll a
  | .revoke a => hub.revoke a
  | .restart =>
    match boot hub.config hub.file with
    | .ok started => ({ started with journal := hub.journal }, .ok ⟨false, "started", none⟩)
    | .error e => (hub, .error e)

def step (hub : Hub) (op : Op) : Hub := (hub.handle op).1

end

end Hub

end SynapseChannel.Identity
