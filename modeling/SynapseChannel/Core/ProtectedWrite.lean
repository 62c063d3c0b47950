import SynapseChannel.Core.State
import SynapseChannel.Lib.JsonText

/-!
# Core — ProtectedWrite

Protected-write reservations: the requests and results of the authority as
they are once parsed, the admission that binds live claims to a result, the
transitions of a reservation and the recovery of a blocked one. Canonical
bytes are kept decoded; the grammar of identifiers and references is the
parser's and is not repeated here.
-/

namespace SynapseChannel.ProtectedWrite

open Py

/-! ## Requests and results -/

inductive OperationStatus where
  | completed
  | notStarted
  | failed
  | unknown
  deriving DecidableEq

inductive WriteOutcome where
  | noWrite
  | committed
  | partially
  | unknown
  deriving DecidableEq

inductive OperationPhase where
  | admitted
  | executing
  | settled
  | recoveryRequired
  deriving DecidableEq

inductive RevocationPhase where
  | standing
  | requested
  | effective
  deriving DecidableEq

inductive Disposition where
  | allowed
  | denied
  | accepted
  | pending
  | effective
  | known
  | unknown
  | conflict
  deriving DecidableEq

structure ClaimWitness where
  taskId : String
  owner : String
  epoch : Int
  version : Int
  leaseExpiresAt : Float
  deriving DecidableEq

structure Proposal where
  targetProject : String
  claims : List ClaimWitness
  /-- The declared operations, as text. -/
  operations : String
  /-- The identifiers of `auxiliary_operations`, in order. -/
  executableIds : List String
  contentReference : String
  recoveryPolicyRevision : String
  deriving DecidableEq

structure Settlement where
  reservationId : String
  writerIncarnation : String
  outcome : WriteOutcome
  writerJournalReference : String
  operationResults : List (String × OperationStatus)
  quiescenceReference : Option String
  deriving DecidableEq

inductive RequestBody where
  | prepare (proposal : Proposal)
  | admitProposal (proposal : Proposal)
  | begin (reservationId writerIncarnation : String)
  | settle (settlement : Settlement)
  | revoke (reservationId : String)
  | status (reservationId : Option String)
  | recover (parentReservationId : String) (proposal : Proposal)
  deriving DecidableEq

/-- A parsed request with its semantic digest; `proof` is the rest of its envelope. -/
structure Request where
  sender : String
  target : String
  requestId : String
  authorityId : String
  authorityContinuity : String
  sessionId : String
  transactionId : String
  proposalSha256 : String
  enrollmentRevision : String
  body : RequestBody
  digest : String
  proof : String
  deriving DecidableEq

/-- The type without its `protected_write_`. -/
def RequestBody.verb : RequestBody → String
  | .prepare _ => "prepare"
  | .admitProposal _ => "admit"
  | .begin _ _ => "begin"
  | .settle _ => "settle"
  | .revoke _ => "revoke"
  | .status _ => "status"
  | .recover _ _ => "recover"

def RequestBody.reservationId : RequestBody → Option String
  | .begin reservationId _ => some reservationId
  | .settle settlement => some settlement.reservationId
  | .revoke reservationId => some reservationId
  | .status reservationId => reservationId
  | _ => none

def RequestBody.writerIncarnation : RequestBody → Option String
  | .begin _ writerIncarnation => some writerIncarnation
  | .settle settlement => some settlement.writerIncarnation
  | _ => none

structure ResultBody where
  requestType : String
  requestDigest : String
  disposition : Disposition
  evidenceReference : Option String
  reasonCode : Option String
  reservationId : Option String
  operationPhase : Option OperationPhase
  revocationPhase : Option RevocationPhase
  outcome : Option WriteOutcome
  writerPrincipal : Option String
  writerIncarnation : Option String
  admissionSequence : Option Int
  beginSequence : Option Int
  settlementSequence : Option Int
  revocationSequence : Option Int
  deriving DecidableEq

/-- A parsed result; `proof` is its authority proof metadata, if it has any. -/
structure Result where
  sender : String
  target : String
  requestId : String
  authorityId : String
  authorityContinuity : String
  sessionId : String
  transactionId : String
  proposalSha256 : String
  enrollmentRevision : String
  body : ResultBody
  proof : Option String
  deriving DecidableEq

/-- The budgets and the vocabulary a deployment enrolled. -/
structure Limits where
  maxCounter : Int
  reasonCodes : List String

/-- The first of some checks that fails. -/
def require : List (Bool × String) → Except String Unit
  | [] => .ok ()
  | (true, _) :: rest => require rest
  | (false, message) :: _ => .error message

theorem require_ok {checks : List (Bool × String)} {u : Unit} :
    require checks = .ok u ↔ ∀ check ∈ checks, check.1 = true := by
  induction checks with
  | nil => simp [require]
  | cons check rest ih =>
    obtain ⟨holds, message⟩ := check
    cases holds with
    | false => simp [require]
    | true => simp [require, ih]

/-- The sequences of a result that are given are in order: the bound of the next one. -/
def orderedAfter (previous : Int) : Option Int → Option Int
  | none => some previous
  | some value => if value < previous then none else some value

/-- `_state`: what a result may say of a reservation. -/
def checkState (body : ResultBody) : Except String Unit :=
  match body.reservationId with
  | none =>
    require
      [(body.operationPhase.isNone && body.revocationPhase.isNone && body.outcome.isNone &&
          body.writerPrincipal.isNone && body.writerIncarnation.isNone &&
          body.admissionSequence.isNone && body.beginSequence.isNone &&
          body.settlementSequence.isNone && body.revocationSequence.isNone,
        "unreserved result contains reservation state")]
  | some _ =>
    match body.operationPhase, body.revocationPhase, body.admissionSequence with
    | some phase, some revocation, some admission =>
      let last :=
        (orderedAfter admission body.beginSequence).bind (orderedAfter · body.settlementSequence)
      require
        [(body.writerPrincipal.isSome && body.writerIncarnation.isSome,
            "incomplete reservation state"),
          (!(phase = .admitted || phase = .executing) ||
              (body.outcome.isNone && body.settlementSequence.isNone),
            "unsettled operation claims an outcome"),
          (!(phase = .admitted || phase = .executing) ||
              decide (phase = .admitted) == body.beginSequence.isNone,
            "begin sequence does not match phase"),
          (phase = .admitted || phase = .executing || body.settlementSequence.isSome,
            "settlement sequence missing"),
          (phase ≠ .settled ||
              ((body.outcome = some .noWrite || body.outcome = some .committed) &&
                body.evidenceReference.isSome),
            "settled result lacks known outcome evidence"),
          (phase ≠ .settled || body.outcome ≠ some .committed || body.beginSequence.isSome,
            "committed result lacks begin sequence"),
          (phase ≠ .recoveryRequired || body.outcome = some .partially ||
              body.outcome = some .unknown,
            "recovery state lacks uncertain outcome"),
          (revocation ≠ .effective || (phase = .settled && body.revocationSequence.isSome),
            "effective revocation lacks settled sequence"),
          (last.isSome, "result sequences are out of order"),
          (revocation ≠ .effective ||
              last.all (fun bound => body.revocationSequence.all (bound ≤ ·)),
            "effective revocation precedes settlement")]
    | _, _, _ => .error "incomplete reservation state"

/-- The phases an accepted result of a verb may be in. -/
def acceptedPhases : String → Option (List OperationPhase)
  | "admit" => some [.admitted]
  | "recover" => some [.admitted]
  | "begin" => some [.executing]
  | "settle" => some [.settled, .recoveryRequired]
  | _ => none

/-- `_disposition`. -/
def checkDisposition (verb : String) (body : ResultBody) : Except String Unit :=
  require
    [(verb ≠ "prepare" ||
          ((body.disposition = .allowed || body.disposition = .denied ||
            body.disposition = .conflict) && body.reservationId.isNone),
        "prepare result cannot reserve or execute"),
      (body.disposition ≠ .accepted ||
          (acceptedPhases verb).all (fun phases => body.operationPhase.any phases.contains),
        "accepted result has wrong phase"),
      (body.disposition ≠ .effective ||
          (verb = "revoke" && body.revocationPhase = some .effective),
        "effective result is not an effective revocation"),
      (verb ≠ "status" || body.disposition ≠ .unknown || body.reservationId.isNone,
        "unknown status contains reservation state")]

/-- What two given values may not do: differ. -/
def agree (a b : Option String) : Bool :=
  match a, b with
  | some a, some b => a = b
  | _, _ => true

/-- A counter of the wire. -/
def countable (limits : Limits) (value : Option Int) : Bool :=
  value.all fun n => 0 ≤ n && n ≤ limits.maxCounter

/-- `parse_protected_write_result` after its grammar: the result is bound to the request. -/
def checkResult (result : Result) (request : Request) (limits : Limits) : Except String Unit := do
  let body := result.body
  let verb := request.body.verb
  require
    [(result.proof.isSome, "result type or authority proof metadata missing"),
      (result.requestId = request.requestId && result.authorityId = request.authorityId &&
          result.authorityContinuity = request.authorityContinuity &&
          result.sessionId = request.sessionId &&
          result.transactionId = request.transactionId &&
          result.proposalSha256 = request.proposalSha256 &&
          result.enrollmentRevision = request.enrollmentRevision,
        "result request binding mismatch"),
      (result.sender = request.target && result.target = request.sender,
        "result sender or recipient binding mismatch"),
      (body.requestType = "protected_write_" ++ verb && body.requestDigest = request.digest,
        "result semantic request binding mismatch"),
      (body.reasonCode.all limits.reasonCodes.contains, "unenrolled result reason code"),
      (countable limits body.admissionSequence && countable limits body.beginSequence &&
          countable limits body.settlementSequence && countable limits body.revocationSequence,
        "invalid request counter")]
  checkState body
  checkDisposition verb body
  require
    [(agree request.body.reservationId body.reservationId,
        "result reservation binding mismatch"),
      (agree request.body.writerIncarnation body.writerIncarnation,
        "result writer incarnation binding mismatch"),
      (body.disposition ≠ .accepted || (verb ≠ "begin" && verb ≠ "settle") ||
          body.writerPrincipal = some request.sender,
        "accepted result writer principal binding mismatch")]

/-! ## Admission -/

/-- `ProtectedClaimCustody.capture`. -/
def capture (claim : TaskClaim) : ProtectedClaimCustody where
  taskId := claim.taskId
  owner := claim.owner
  epoch := claim.epoch
  version := claim.version
  leaseExpiresAt := claim.leaseExpiresAt
  worktree := claim.worktree
  paths := claim.paths
  pathIdentity := claim.pathIdentity

structure ProtectedAdmissionContext where
  authorPrincipal : String
  authorityId : String
  authorityContinuity : String
  writerPrincipal : String
  writerIncarnation : String
  admissionSequence : Int
  now : Float

structure ProtectedWriteAdmission where
  reservationId : String
  operationKey : String
  request : Request
  result : Result
  proposal : Proposal
  claimCustody : List ProtectedClaimCustody
  deriving DecidableEq

def isNegativeZero (x : Float) : Bool :=
  match x.toModel.unpack with
  | .zero .negative => true
  | _ => false

/-- `protected_write_operation_key`, for the sender and authority it names. -/
def operationKey [Builtins] (request : Request) (context : ProtectedAdmissionContext) :
    Except String String :=
  if request.sender ≠ context.authorPrincipal ∨ request.authorityId ≠ context.authorityId ∨
      request.authorityContinuity ≠ context.authorityContinuity then
    .error "request does not match authenticated authority context"
  else
    let namespaceText := dumps (.obj
      [("domain", .str "synapse-protected-write.v1/operation"),
        ("principal", .str context.authorPrincipal),
        ("authority_id", .str context.authorityId),
        ("authority_continuity", .str context.authorityContinuity),
        ("request_id", .str request.requestId)])
    .ok ("synapse-protected-write.v1/operation:" ++
      Builtins.sha256Hex (Framing.utf8 namespaceText))

/-- The custody of one witness: the live claim it names, owned by the author. -/
def bindWitness (claims : Dict String TaskClaim) (context : ProtectedAdmissionContext)
    (witness : ClaimWitness) : Except String ProtectedClaimCustody :=
  match claims.get? witness.taskId with
  | none => .error "admission claim witness is missing, stale or not author-owned"
  | some claim =>
    if claim.taskId ≠ witness.taskId ∨ claim.owner ≠ context.authorPrincipal ∨
        claim.owner ≠ witness.owner ∨ claim.epoch ≠ witness.epoch ∨
        claim.version ≠ witness.version ∨ (claim.leaseExpiresAt == witness.leaseExpiresAt) = false ∨
        claim.leaseExpiresAt ≤ context.now then
      .error "admission claim witness is missing, stale or not author-owned"
    else .ok (capture claim)

/-- The proposal of a request that reserves, if it is of this verb. -/
def RequestBody.proposalOf (body : RequestBody) (verb : String) : Option Proposal :=
  match body with
  | .admitProposal proposal => if verb = "admit" then some proposal else none
  | .recover _ proposal => if verb = "recover" then some proposal else none
  | _ => none

/-- `_bind_protected_admission`. -/
def bindAdmission [Builtins] (request : Request) (result : Result)
    (context : ProtectedAdmissionContext) (claims : Dict String TaskClaim) (limits : Limits)
    (verb : String) : Except String ProtectedWriteAdmission := do
  let body := result.body
  require
    [(context.now.isFinite && 0 ≤ context.now && context.now < 9007199254740992 &&
          !isNegativeZero context.now, "invalid admission clock"),
      (0 < context.admissionSequence && context.admissionSequence ≤ limits.maxCounter,
        "invalid admission journal sequence")]
  let key ← operationKey request context
  match request.body.proposalOf verb with
  | none => throw "an ordinary admission requires an admit proposal"
  | some proposal =>
    checkResult result request limits
    require
      [(body.disposition = .accepted && body.operationPhase = some .admitted &&
            body.revocationPhase = some .standing && body.revocationSequence.isNone &&
            body.admissionSequence = some context.admissionSequence &&
            body.writerPrincipal = some context.writerPrincipal &&
            body.writerIncarnation = some context.writerIncarnation &&
            context.writerPrincipal ≠ context.authorPrincipal,
          "admission response does not match current writer or journal")]
    let custody ← proposal.claims.mapM (bindWitness claims context)
    return {
      reservationId := body.reservationId.getD ""
      operationKey := key
      request
      result
      proposal
      claimCustody := custody }

/-- `bind_protected_write_admission`. -/
def bindProtectedWriteAdmission [Builtins] (request : Request) (result : Result)
    (context : ProtectedAdmissionContext) (claims : Dict String TaskClaim) (limits : Limits) :
    Except String ProtectedWriteAdmission :=
  bindAdmission request result context claims limits "admit"

/-! ## Reservations -/

structure ProtectedWriteReservation where
  admission : ProtectedWriteAdmission
  request : Request
  result : Result
  transitionSequence : Int
  inheritedCustody : List ProtectedClaimCustody := []
  deriving DecidableEq

namespace ProtectedWriteReservation

/-- The whole ancestor domain and the fresh witnesses. -/
def custody (r : ProtectedWriteReservation) : List ProtectedClaimCustody :=
  r.inheritedCustody ++ r.admission.claimCustody

def admitted (admission : ProtectedWriteAdmission) : ProtectedWriteReservation where
  admission
  request := admission.request
  result := admission.result
  transitionSequence := admission.result.body.admissionSequence.getD 0

/-- Settled with a known outcome. -/
def settled (body : ResultBody) : Bool :=
  body.operationPhase = some .settled &&
    (body.outcome = some .committed || body.outcome = some .noWrite)

/-- `holds_custody`. -/
def holdsCustody (r : ProtectedWriteReservation) : Bool := !settled r.result.body

end ProtectedWriteReservation

inductive TransitionRole where
  | author
  | writer
  | operator
  deriving DecidableEq

structure ProtectedTransitionContext where
  principal : String
  sessionId : String
  role : TransitionRole
  eventSequence : Int

/-- The verifier of settlement evidence, if one is trusted. -/
abbrev Quiescence := Option (ProtectedWriteAdmission → Request → Result → Bool)

/-- Operations run in order, and nothing starts after one that did not complete. -/
def successOnly : (stopped : Bool) → List (String × OperationStatus) → Bool
  | _, [] => true
  | stopped, (_, status) :: rest =>
    (!stopped || status = .notStarted) && successOnly (status ≠ .completed) rest

/-- Whether the last operation did not complete. -/
def stoppedAfter (results : List (String × OperationStatus)) : Bool :=
  results.getLast?.any fun r => r.2 ≠ .completed

/-- What a begin leaves. -/
def afterBegin (old : ResultBody) (context : ProtectedTransitionContext) :
    Except String ResultBody := do
  require
    [(context.role = .writer && old.writerPrincipal = some context.principal,
        "only the pinned writer may begin or settle"),
      (old.operationPhase = some .admitted && old.revocationPhase = some .standing,
        "reservation cannot begin")]
  return { old with
    operationPhase := some .executing
    beginSequence := some context.eventSequence
    disposition := .accepted }

/-- What a settlement leaves. -/
def afterSettle (previous : ProtectedWriteReservation) (old : ResultBody)
    (settlement : Settlement) (request : Request) (result : Result)
    (context : ProtectedTransitionContext) (quiescence : Quiescence) :
    Except String ResultBody := do
  let known := settlement.outcome = .committed ∨ settlement.outcome = .noWrite
  require
    [(context.role = .writer && old.writerPrincipal = some context.principal,
        "only the pinned writer may begin or settle"),
      (old.operationPhase = some .executing, "settlement requires the executing writer"),
      (settlement.operationResults.map Prod.fst = previous.admission.proposal.executableIds,
        "settlement must cover exact ordered executable operations"),
      (successOnly false settlement.operationResults,
        "settlement violates success-only execution ordering"),
      (settlement.outcome ≠ .committed || !stoppedAfter settlement.operationResults,
        "committed settlement contains incomplete operations"),
      (!decide known || quiescence.any (fun verify => verify previous.admission request result),
        "known settlement requires verified quiescence evidence")]
  let expected := { old with
    operationPhase := some (if known then .settled else .recoveryRequired)
    outcome := some settlement.outcome
    settlementSequence := some context.eventSequence
    disposition := .accepted }
  return if known ∧ old.revocationPhase = some .requested then
    { expected with
      revocationPhase := some .effective
      revocationSequence := some context.eventSequence }
  else expected

/-- What a revocation leaves. -/
def afterRevoke (old : ResultBody) (origin : Request) (context : ProtectedTransitionContext) :
    Except String ResultBody := do
  require
    [(context.role = .operator ||
          (context.role = .author && context.principal = origin.sender &&
            context.sessionId = origin.sessionId),
        "revocation requires the admitted author or an authorized operator"),
      (old.revocationPhase ≠ some .effective, "effective revocation is already terminal")]
  return match old.operationPhase with
  | some .admitted =>
    { old with
      operationPhase := some .settled
      outcome := some .noWrite
      settlementSequence := some context.eventSequence
      revocationPhase := some .effective
      revocationSequence := some context.eventSequence
      disposition := .effective }
  | some .settled =>
    { old with
      revocationPhase := some .effective
      revocationSequence := some context.eventSequence
      disposition := .effective }
  | _ =>
    { old with
      revocationPhase := some .requested
      disposition := .pending
      revocationSequence :=
        if old.revocationPhase = some .requested then old.revocationSequence
        else some context.eventSequence }

/-- The result says what the transition permits. -/
def describes (body expected : ResultBody) : Bool :=
  body.operationPhase = expected.operationPhase &&
    body.revocationPhase = expected.revocationPhase && body.outcome = expected.outcome &&
    body.beginSequence = expected.beginSequence &&
    body.settlementSequence = expected.settlementSequence &&
    body.revocationSequence = expected.revocationSequence &&
    body.disposition = expected.disposition

/-- What the requested transition leaves. -/
def permitted (previous : ProtectedWriteReservation) (request : Request) (result : Result)
    (context : ProtectedTransitionContext) (quiescence : Quiescence) : Except String ResultBody :=
  match request.body with
  | .begin _ _ => afterBegin previous.result.body context
  | .settle settlement =>
    afterSettle previous previous.result.body settlement request result context quiescence
  | .revoke _ => afterRevoke previous.result.body previous.admission.request context
  | _ => .error "unsupported reservation transition"

/-- `advance_protected_write_reservation`. -/
def advance (previous : ProtectedWriteReservation) (request : Request) (result : Result)
    (context : ProtectedTransitionContext) (limits : Limits) (quiescence : Quiescence) :
    Except String ProtectedWriteReservation := do
  let origin := previous.admission.request
  let old := previous.result.body
  let body := result.body
  require
    [(previous.transitionSequence < context.eventSequence &&
          context.eventSequence ≤ limits.maxCounter,
        "transition requires a new bounded journal sequence")]
  checkResult result request limits
  require
    [(request.sender = context.principal && request.sessionId = context.sessionId,
        "transition caller/session mismatch"),
      (request.authorityId = origin.authorityId &&
          request.authorityContinuity = origin.authorityContinuity &&
          request.transactionId = origin.transactionId &&
          request.proposalSha256 = origin.proposalSha256 &&
          request.enrollmentRevision = origin.enrollmentRevision &&
          request.target = origin.target,
        "transition immutable reservation binding mismatch"),
      (body.reservationId = old.reservationId && body.writerPrincipal = old.writerPrincipal &&
          body.writerIncarnation = old.writerIncarnation &&
          body.admissionSequence = old.admissionSequence,
        "transition changed admitted reservation identity")]
  let expected ← permitted previous request result context quiescence
  require
    [(describes body expected,
        "result does not describe the permitted reservation transition")]
  return { previous with request, result, transitionSequence := context.eventSequence }

/-! ## Recovery -/

structure ProtectedRecoveryAdmission where
  parent : ProtectedWriteReservation
  admission : ProtectedWriteAdmission

/-- `bind_protected_recovery`. -/
def bindProtectedRecovery [Builtins] (parent : ProtectedWriteReservation) (request : Request)
    (result : Result) (context : ProtectedAdmissionContext) (claims : Dict String TaskClaim)
    (limits : Limits)
    (verifyRecovery : ProtectedWriteReservation → ProtectedWriteAdmission → Bool) :
    Except String ProtectedRecoveryAdmission := do
  let admission ← bindAdmission request result context claims limits "recover"
  let origin := parent.admission.request
  let old := parent.result.body
  let body := result.body
  let parentReservationId :=
    match request.body with
    | .recover parentReservationId _ => parentReservationId
    | _ => ""
  let recovering :=
    match origin.body with
    | .recover _ _ => true
    | _ => false
  require
    [(old.operationPhase = some .recoveryRequired && old.revocationPhase ≠ some .effective &&
          parent.holdsCustody && parentReservationId = parent.admission.reservationId &&
          admission.reservationId ≠ parent.admission.reservationId &&
          request.transactionId ≠ origin.transactionId &&
          (recovering || request.sender ≠ origin.sender) &&
          body.writerIncarnation ≠ old.writerIncarnation &&
          body.admissionSequence.any (parent.transitionSequence < ·),
        "recovery requires a fresh identity and blocked parent"),
      (request.authorityId = origin.authorityId &&
          request.authorityContinuity = origin.authorityContinuity &&
          request.enrollmentRevision = origin.enrollmentRevision &&
          request.target = origin.target,
        "recovery changed the reserved authority domain"),
      (admission.proposal.targetProject = parent.admission.proposal.targetProject &&
          admission.proposal.recoveryPolicyRevision =
            parent.admission.proposal.recoveryPolicyRevision,
        "recovery changed the parent project or recovery policy"),
      (admission.claimCustody.all fun witness =>
          !(parent.custody.map (·.taskId)).contains witness.taskId,
        "recovery must not reuse the parent's author claims"),
      (verifyRecovery parent admission,
        "recovery requires verified quiescence and bounded known effects")]
  return { parent, admission }

end SynapseChannel.ProtectedWrite
