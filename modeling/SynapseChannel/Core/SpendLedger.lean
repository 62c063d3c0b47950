import SynapseChannel.Lib.JsonText
import SynapseChannel.Lib.Trace
import SynapseChannel.Core.SpendPool

/-!
# Core — SpendLedger

The pool owner's serialized ledger: its events and the response stored
under each idempotency scope. A call runs in one transaction, so one that
raises leaves the tables as they were.
-/

namespace SynapseChannel.Spend

open Py Outcome
open Framing (utf8)

/-- One row of the events table. -/
structure EventRow where
  seq : Nat
  poolId : String
  recordedAt : Datetime
  event : Event

/-- The ledger's two tables, opened by one hub. An operation keeps its
request digest and its response. -/
structure SpendLedger where
  ownerHubId : String
  events : List EventRow := []
  lastSeq : Nat := 0
  operations : Dict String (String × Members) := Dict.empty

/-- The only refusal reason a requester ever sees. -/
def notAdmitted : String := "not-admitted"

def refusal (field : String) : Members := [(field, .bool false), ("reason", .str notAdmitted)]

def conflict (field : String) : Members :=
  [(field, .bool false), ("reason", .str "idempotency_conflict")]

def scope (parts : List String) : String := join "\x00" parts

/-! ## Recorded bodies -/

def Event.kind : Event → String
  | .poolConfig _ => "pool_config"
  | .grant _ => "grant"
  | .settlement _ => "settlement"
  | .refusal .. => "refusal"
  | .reconciliation _ => "reconciliation"
  | .ownerRevocation _ => "owner_revocation"

/-- The document a row stores. -/
def Event.body : Event → Members
  | .poolConfig body => body
  | .grant g =>
    [("reservation_id", .str g.reservationId), ("caller", .str g.caller), ("seat", .str g.seat),
      ("project", .str g.project), ("task", .str g.task), ("operation", .str g.operation),
      ("depth", .int g.depth), ("requested_upper", .str g.requestedUpper.str),
      ("exposure", .str g.exposure.str), ("epoch", .int g.epoch),
      ("config_revision", .int g.configRevision), ("expires_at", .str g.expiresAt.isoformat)] ++
      (g.window.map fun w => ("window", Json.str w)).toList
  | .settlement s =>
    [("reservation_id", .str s.reservationId), ("usage_ref", .str s.usageRef),
      ("amount", .str s.amount.str), ("provenance", .str s.provenance), ("final", .bool s.final)]
  | .refusal caller reason request =>
    [("caller", .str caller), ("reason", .str reason), ("request", .obj request)]
  | .reconciliation r =>
    [("reservation_id", .str r.reservationId), ("amount", .str r.amount.str),
      ("evidence_ref", .str r.evidenceRef), ("cause", .str r.cause)]
  | .ownerRevocation r =>
    [("pool_id", .str r.poolId), ("revoked_epoch", .int r.revokedEpoch),
      ("new_epoch", .int r.newEpoch), ("new_owner_hub_id", .str r.newOwnerHubId),
      ("ledger_sequence", .int r.ledgerSequence), ("ledger_digest", .str r.ledgerDigest),
      ("attestation", .str r.attestation), ("cause", .str r.cause),
      ("issued_at", .str r.issuedAt), ("key_id", .str r.keyId), ("signature", .str r.signature)]

namespace SpendLedger

/-- A pool's rows, oldest first. -/
def poolRows (L : SpendLedger) (poolId : String) : List EventRow :=
  L.events.filter (·.poolId == poolId)

def poolEvents (L : SpendLedger) (poolId : String) : List Event :=
  (L.poolRows poolId).map (·.event)

/-- Append one event and return its sequence. -/
def append (L : SpendLedger) (poolId : String) (event : Event) (now : Datetime) :
    SpendLedger × Nat :=
  let seq := L.lastSeq + 1
  ({ L with events := L.events ++ [⟨seq, poolId, now, event⟩], lastSeq := seq }, seq)

/-- The stored response for `scope`; a changed request is a conflict. -/
def stored (L : SpendLedger) (scope digest field : String) : Option Members :=
  (L.operations.get? scope).map fun row => if row.1 ≠ digest then conflict field else row.2

def store (L : SpendLedger) (scope digest : String) (response : Members) : SpendLedger :=
  { L with operations := L.operations.set scope (digest, response) }

end SpendLedger

/-! ## Reservations -/

variable [Readers]

def digestOf (document : Members) : String := Builtins.sha256Hex (utf8 (dumps (.obj document)))

omit [Readers] in
/-- The idempotency scope: caller, pool, window, seat, task, operation, key. -/
def reserveScope (state : PoolState) (caller poolId seat task operation key : String) : String :=
  let window := match state.config with
    | some config => config.windowId
    | none => ""
  scope ["reserve", caller, poolId, window, seat, task, operation, key]

def reservationIdOf (scope : String) : String :=
  "rsv-" ++ String.ofList ((Builtins.sha256Hex (utf8 scope)).toList.take 32)

omit [Readers] in
/-- The checks of a request, each with the reason a failed one gives. -/
def admissionChecks (ownerHubId : String) (state : PoolState) (config : PoolConfig)
    (caller : String) (request : ReservationRequest) (now : Datetime) (total : Decimal) :
    List (Bool × String) :=
  [(config.ownerHubId != ownerHubId, "not_owner"),
    (state.revokedEpochs.contains config.epoch, "epoch_revoked"),
    (!config.grantees.contains (caller, request.project), "caller_not_granted"),
    (request.unit != config.unit, "unit_mismatch"),
    (request.tax != config.tax, "tax_basis_mismatch"),
    (request.priceRevision != config.priceRevision, "price_revision_mismatch"),
    (!(decide (config.windowStartsAt.instant ≤ now.instant) &&
      decide (now.instant < config.windowEndsAt.instant)), "outside_window"),
    (decide (config.maxDepth < request.depth), "depth_exceeded"),
    (decide (config.maxWallSeconds < request.wallSeconds), "wall_time_exceeded"),
    (!state.overruns.isEmpty, "unreconciled_overrun"),
    (decide (config.maxAgents <
      ((state.activeSeats now ++ [request.seat]).dedup.length : Nat)), "agents_exceeded"),
    (decide (config.hardBound.value < total.value), "bound_exceeded")]

omit [Readers] in
/-- Why a request is refused. The pool's charges are summed before the
first check is read. -/
def refusalReason (ownerHubId : String) (state : PoolState) (caller : String)
    (request : ReservationRequest) (now : Datetime) : Except String (Option String) :=
  match state.config with
  | none => .ok (some "unknown_pool")
  | some config => do
    let settled ← state.settled config.windowId
    let outstanding ← state.outstanding
    let charged ← settled.add outstanding
    let exposure ← config.exposure request.upperBound
    let total ← charged.add exposure
    let checks := admissionChecks ownerHubId state config caller request now total
    return (checks.find? (·.1)).map Prod.snd

namespace SpendLedger

/-- Record a grant and return its answer. -/
def grant (L : SpendLedger) (state : PoolState) (caller : String) (request : ReservationRequest)
    (scope : String) (now : Datetime) : Except String (SpendLedger × Members) :=
  match state.config with
  | none => .error "no configuration"
  | some config => do
    let wall ← now.addSeconds request.wallSeconds.toNat
    let expiresAt := wall.min config.windowEndsAt
    let exposure ← config.exposure request.upperBound
    let body : Grant :=
      { reservationId := reservationIdOf scope
        caller := caller
        seat := request.seat
        project := request.project
        task := request.task
        operation := request.operation
        depth := request.depth
        requestedUpper := request.upperBound
        exposure := exposure
        epoch := config.epoch
        configRevision := state.revision
        expiresAt := expiresAt
        window := some config.windowId }
    let (L, sequence) := L.append request.poolId (.grant body) now
    return (L, [("admitted", .bool true), ("reservation_id", .str body.reservationId),
      ("pool_id", .str request.poolId), ("epoch", .int config.epoch),
      ("config_revision", .int state.revision), ("sequence", .int sequence),
      ("expires_at", .str expiresAt.isoformat), ("exposure", .str exposure.str),
      ("unit", .str config.unit)])

/-- Decide a validated request that has no stored response. -/
def decideRequest (L : SpendLedger) (state : PoolState) (caller : String)
    (request : ReservationRequest) (scope : String) (now : Datetime) :
    Except String (SpendLedger × Members) := do
  match ← refusalReason L.ownerHubId state caller request now with
  | some reason =>
    let event := Event.refusal caller reason request.document
    return ((L.append request.poolId event now).1, refusal "admitted")
  | none => L.grant state caller request scope now

/-- The digest of a reservation request. -/
def requestDigest (caller : String) (request : ReservationRequest) : String :=
  digestOf (("caller", .str caller) :: request.document)

omit [Readers] in
/-- The scope of a reservation request. -/
def requestScope (state : PoolState) (caller : String) (request : ReservationRequest) : String :=
  reserveScope state caller request.poolId request.seat request.task request.operation request.key

/-- Decide one reservation for `caller`. -/
def reserve (L : SpendLedger) (caller : String) (document : Json) (now : Datetime) :
    Except String (SpendLedger × Members) :=
  match validateRequest document with
  | .error _ => .ok (L, refusal "admitted")
  | .ok request => do
    let digest := requestDigest caller request
    let state ← fold (L.poolEvents request.poolId)
    let scope := requestScope state caller request
    match L.stored scope digest "admitted" with
    | some response => return (L, response)
    | none =>
      let (L, response) ← L.decideRequest state caller request scope now
      return (L.store scope digest response, response)

/-! ## Settlements -/

omit [Readers] in
def settleFields : List String :=
  ["pool_id", "reservation_id", "usage_ref", "amount", "provenance", "final"]

/-- A validated settlement and the pool it is for. -/
def validateSettlement (document : Json) : Except String (Members × String × Settlement) := do
  let data ← fields document settleFields "settlement"
  let poolId ← token (data.get "pool_id") "pool_id"
  let reservationId ← token (data.get "reservation_id") "reservation_id"
  let usageRef ← token (data.get "usage_ref") "usage_ref"
  let amount ← quantity (data.get "amount") "amount"
  let provenance ← oneOf (data.get "provenance") provenances
    "settlement provenance or final flag is invalid"
  match data.get "final" with
  | .bool final =>
    return (data, poolId,
      { reservationId := reservationId
        usageRef := usageRef
        amount := amount
        provenance := provenance
        final := final })
  | _ => .error "settlement provenance or final flag is invalid"

omit [Readers] in
def settleScope (caller poolId : String) (body : Settlement) : String :=
  scope ["settle", caller, poolId, body.reservationId, body.usageRef]

/-- Charge a validated settlement that has no stored response. -/
def charge (L : SpendLedger) (caller poolId : String) (document : Members) (body : Settlement)
    (now : Datetime) : Except String (SpendLedger × Members) := do
  let state ← fold (L.poolEvents poolId)
  match (state.reservations.get? body.reservationId).filter
      (fun r => r.caller == caller && !r.closed) with
  | none =>
    let event := Event.refusal caller "settlement_not_accepted" document
    return ((L.append poolId event now).1, refusal "settled")
  | some r =>
    let total ← r.settled.add body.amount
    return ((L.append poolId (.settlement body) now).1,
      [("settled", .bool true), ("reservation_id", .str body.reservationId),
        ("usage_ref", .str body.usageRef),
        ("overrun", .bool (decide (r.exposure.value < total.value)))])

/-- Record usage against `caller`'s own reservation. -/
def settle (L : SpendLedger) (caller : String) (document : Json) (now : Datetime) :
    Except String (SpendLedger × Members) :=
  match validateSettlement document with
  | .error _ => .ok (L, refusal "settled")
  | .ok (data, poolId, body) => do
    let scope := settleScope caller poolId body
    let digest := digestOf (("caller", .str caller) :: data)
    match L.stored scope digest "settled" with
    | some response => return (L, response)
    | none =>
      let (L, response) ← L.charge caller poolId data body now
      return (L.store scope digest response, response)

/-! ## Operator calls and queries -/

omit [Readers] in
/-- Whether the unit, surface, account or tax basis differs. -/
def changesIdentity (previous config : PoolConfig) : Bool :=
  previous.unit != config.unit || previous.billingSurface != config.billingSurface ||
    previous.accountRef != config.accountRef || previous.tax != config.tax

/-- Append one operator configuration of a pool. -/
def configure (L : SpendLedger) (document : Json) (now : Datetime) :
    Except String (SpendLedger × Members) := do
  let config ← validateConfig document
  -- a document that validates is a mapping
  let body := match document with
    | .obj members => members
    | _ => []
  let state ← fold (L.poolEvents config.poolId)
  let answer : SpendLedger × Members :=
    ((L.append config.poolId (.poolConfig body) now).1,
      [("pool_id", .str config.poolId), ("revision", .int (state.revision + 1))])
  match state.config with
  | none => return answer
  | some previous =>
    if config.epoch < previous.epoch then .error "the owner epoch cannot go backwards"
    else if state.unresolved ∧ changesIdentity previous config then
      .error ("the unit, billing surface, account or tax basis cannot change " ++
        "while reservations are unresolved; settle or reconcile them first")
    else return answer

/-- Close a reservation with the operator's evidenced final amount. -/
def reconcile (L : SpendLedger) (document : Json) (now : Datetime) :
    Except String (SpendLedger × Members) := do
  let data ← fields document ["pool_id", "reservation_id", "amount", "evidence_ref", "cause"]
    "reconciliation"
  let poolId ← token (data.get "pool_id") "pool_id"
  let reservationId ← token (data.get "reservation_id") "reservation_id"
  let amount ← quantity (data.get "amount") "amount"
  let evidenceRef ← token (data.get "evidence_ref") "evidence_ref"
  match data.get "cause" with
  | .str cause =>
    if strip cause = "" then .error "a reconciliation needs a cause"
    else
      let state ← fold (L.poolEvents poolId)
      match state.reservations.get? reservationId with
      | none => .error "no such reservation"
      | some r =>
        if r.closed ∧ !r.overrunOpen then .error "the reservation is already closed"
        else
          let body : Reconciliation := ⟨reservationId, amount, evidenceRef, strip cause⟩
          return ((L.append poolId (.reconciliation body) now).1,
            [("reconciled", .bool true), ("reservation_id", .str reservationId)])
  | _ => .error "a reconciliation needs a cause"

/-- The stored reservation response for `caller`'s scope. -/
def query (L : SpendLedger) (caller : String) (document : Json) : Except String Members :=
  let parts : Except String (List String) := do
    let data ← fields document ["key", "operation", "pool_id", "seat", "task"] "query"
    ["key", "operation", "pool_id", "seat", "task"].mapM fun name => token (data.get name) name
  match parts with
  | .ok [key, operation, poolId, seat, task] => do
    let state ← fold (L.poolEvents poolId)
    match L.operations.get? (reserveScope state caller poolId seat task operation key) with
    | none => return [("found", .bool false)]
    | some (_, response) => return [("found", .bool true), ("response", .obj response)]
  | _ => .ok [("found", .bool false)]

/-! ## Owner revocations -/

/-- The chain digest over one pool's rows, in order. -/
def poolLedgerDigest (rows : List EventRow) : String :=
  rows.foldl (fun digest row =>
    Builtins.sha256Hex (utf8 digest ++ utf8 (dumps (.obj [("seq", .int row.seq),
      ("kind", .str row.event.kind), ("body", .obj row.event.body)]))))
    (Builtins.sha256Hex (utf8 "synapse-spend-ledger-v1"))

/-- A revocation of the pool's current epoch. `verified` is what the
signature check of the document returns. -/
def verifiedRevocation (L : SpendLedger) (poolId : String)
    (verified : Except String OwnerRevocation) : Except String (PoolState × OwnerRevocation) := do
  let state ← fold (L.poolEvents poolId)
  match state.config with
  | none => .error "no such pool"
  | some config =>
    let revocation ← verified
    if revocation.poolId ≠ config.poolId then .error "the revocation names another pool"
    else if revocation.revokedEpoch ≠ config.epoch then
      .error "the revocation does not name the pool's current epoch"
    else return (state, revocation)

/-- Record a verified revocation of the pool's current epoch. -/
def recordRevocation (L : SpendLedger) (poolId : String)
    (verified : Except String OwnerRevocation) (now : Datetime) :
    Except String (SpendLedger × Members) := do
  let (state, revocation) ← L.verifiedRevocation poolId verified
  let answer (recorded : Bool) : Members :=
    [("pool_id", .str poolId), ("revoked_epoch", .int revocation.revokedEpoch),
      ("recorded", .bool recorded)]
  if revocation.revokedEpoch ∈ state.revokedEpochs then return (L, answer false)
  else return ((L.append poolId (.ownerRevocation revocation) now).1, answer true)

omit [Readers] in
/-- The last configuration document of a pool. -/
def lastConfig (L : SpendLedger) (poolId : String) : Option Members :=
  (L.poolEvents poolId).reverse.findSome? fun
    | .poolConfig body => some body
    | _ => none

/-- Take over a pool as its new owner. -/
def failOver (L : SpendLedger) (poolId : String) (verified : Except String OwnerRevocation)
    (now : Datetime) : Except String (SpendLedger × Members) := do
  let (state, revocation) ← L.verifiedRevocation poolId verified
  let rows := L.poolRows poolId
  if revocation.newOwnerHubId ≠ L.ownerHubId then
    .error "the revocation hands the pool to another hub"
  else if rows.getLast?.map (fun row => (row.seq : Int)) ≠ some revocation.ledgerSequence ∨
      poolLedgerDigest rows ≠ revocation.ledgerDigest then
    .error "this ledger copy does not match the revoked owner's state"
  else
    match L.lastConfig poolId with
    | none => .error "no such pool"
    | some config =>
      let successor := Dict.put "cause" (Json.str ("failover: " ++ revocation.cause))
        (Dict.put "owner_hub_id" (.str L.ownerHubId)
          (Dict.put "epoch" (.int revocation.newEpoch) config))
      let revoked := (L.append poolId (.ownerRevocation revocation) now).1
      return ((revoked.append poolId (.poolConfig successor) now).1,
        [("pool_id", .str poolId), ("epoch", .int revocation.newEpoch),
          ("revision", .int (state.revision + 1))])

end SpendLedger

/-! ## Runs -/

/-- A call on the ledger, or another hub opening it. -/
inductive Call where
  | configure (document : Json) (now : Datetime)
  | reserve (caller : String) (document : Json) (now : Datetime)
  | settle (caller : String) (document : Json) (now : Datetime)
  | reconcile (document : Json) (now : Datetime)
  | query (caller : String) (document : Json)
  | recordRevocation (poolId : String) (verified : Except String OwnerRevocation) (now : Datetime)
  | failOver (poolId : String) (verified : Except String OwnerRevocation) (now : Datetime)
  | reopen (ownerHubId : String)

namespace SpendLedger

/-- The tables after a call and its answer; the error is what it raises. -/
def answer (L : SpendLedger) : Call → Except String (SpendLedger × Members)
  | .configure document now => L.configure document now
  | .reserve caller document now => L.reserve caller document now
  | .settle caller document now => L.settle caller document now
  | .reconcile document now => L.reconcile document now
  | .query caller document => (L.query caller document).map (L, ·)
  | .recordRevocation poolId verified now => L.recordRevocation poolId verified now
  | .failOver poolId verified now => L.failOver poolId verified now
  | .reopen ownerHubId => .ok ({ L with ownerHubId := ownerHubId }, [])

/-- A call that raises rolls back. -/
def step (L : SpendLedger) (call : Call) : SpendLedger :=
  match L.answer call with
  | .ok (next, _) => next
  | .error _ => L

/-- The ledger after a sequence of calls on a new file. -/
def run (ownerHubId : String) (calls : List Call) : SpendLedger :=
  Trace.run step { ownerHubId := ownerHubId } calls

/-! ## What a call does -/

omit [Readers] in
@[simp] theorem poolEvents_append (L : SpendLedger) (poolId other : String) (event : Event)
    (now : Datetime) : (L.append poolId event now).1.poolEvents other =
      L.poolEvents other ++ if poolId = other then [event] else [] := by
  by_cases h : poolId = other <;> simp [append, poolEvents, poolRows, h]

omit [Readers] in
@[simp] theorem poolEvents_store (L : SpendLedger) (scope digest : String) (response : Members)
    (poolId : String) : (L.store scope digest response).poolEvents poolId = L.poolEvents poolId :=
  rfl

theorem grant_ok {L next : SpendLedger} {state : PoolState} {caller scope : String}
    {request : ReservationRequest} {now : Datetime} {response : Members}
    (h : L.grant state caller request scope now = .ok (next, response)) :
    ∃ config body, state.config = some config ∧
      config.exposure request.upperBound = .ok body.exposure ∧
      body.window = some config.windowId ∧ body.caller = caller ∧
      body.reservationId = reservationIdOf scope ∧
      next = (L.append request.poolId (.grant body) now).1 := by
  unfold grant at h
  cases hconfig : state.config with
  | none =>
    rw [hconfig] at h
    cases h
  | some config =>
    rw [hconfig] at h
    obtain ⟨wall, -, h⟩ := bind_ok h
    obtain ⟨exposure, hexposure, h⟩ := bind_ok h
    cases h
    exact ⟨config, _, rfl, hexposure, rfl, rfl, rfl, rfl⟩

/-- A request without a stored response is refused or granted. -/
theorem decideRequest_ok {L next : SpendLedger} {state : PoolState} {caller scope : String}
    {request : ReservationRequest} {now : Datetime} {response : Members}
    (h : L.decideRequest state caller request scope now = .ok (next, response)) :
    (∃ reason, next = (L.append request.poolId (.refusal caller reason request.document) now).1) ∨
      (refusalReason L.ownerHubId state caller request now = .ok none ∧
        ∃ config body, state.config = some config ∧
          config.exposure request.upperBound = .ok body.exposure ∧
          body.window = some config.windowId ∧ body.caller = caller ∧
          body.reservationId = reservationIdOf scope ∧
          next = (L.append request.poolId (.grant body) now).1) := by
  unfold decideRequest at h
  obtain ⟨outcome, houtcome, h⟩ := bind_ok h
  cases outcome with
  | none => exact .inr ⟨houtcome, grant_ok h⟩
  | some reason =>
    cases h
    exact .inl ⟨reason, rfl⟩

/-- A reservation call answers an invalid request, repeats a stored
response, or decides and stores. -/
theorem reserve_ok {L next : SpendLedger} {caller : String} {document : Json} {now : Datetime}
    {response : Members} (h : L.reserve caller document now = .ok (next, response)) :
    (next = L ∧ ∃ e, validateRequest document = .error e) ∨
      ∃ request state, validateRequest document = .ok request ∧
        fold (L.poolEvents request.poolId) = .ok state ∧
        ((next = L ∧ L.stored (requestScope state caller request)
            (requestDigest caller request) "admitted" = some response) ∨
          ∃ decided, L.operations.get? (requestScope state caller request) = none ∧
            L.decideRequest state caller request (requestScope state caller request) now =
              .ok (decided, response) ∧
            next = decided.store (requestScope state caller request)
              (requestDigest caller request) response) := by
  unfold reserve at h
  cases hrequest : validateRequest document with
  | error e =>
    rw [hrequest] at h
    cases h
    exact .inl ⟨rfl, e, rfl⟩
  | ok request =>
    rw [hrequest] at h
    obtain ⟨state, hstate, h⟩ := bind_ok h
    refine .inr ⟨request, state, rfl, hstate, ?_⟩
    dsimp only at h
    cases hstored : L.stored (requestScope state caller request) (requestDigest caller request)
        "admitted" with
    | some answer =>
      rw [hstored] at h
      cases h
      exact .inl ⟨rfl, rfl⟩
    | none =>
      rw [hstored] at h
      obtain ⟨⟨decided, answer⟩, hdecided, h⟩ := bind_ok h
      cases h
      exact .inr ⟨decided, Option.map_eq_none_iff.mp hstored, hdecided, rfl⟩

theorem validateSettlement_ok {document : Json} {data : Members} {poolId : String}
    {body : Settlement} (h : validateSettlement document = .ok (data, poolId, body)) :
    ∃ raw, quantity raw "amount" = .ok body.amount := by
  unfold validateSettlement at h
  obtain ⟨data', -, h⟩ := bind_ok h
  obtain ⟨poolId', -, h⟩ := bind_ok h
  obtain ⟨reservationId, -, h⟩ := bind_ok h
  obtain ⟨usageRef, -, h⟩ := bind_ok h
  obtain ⟨amount, hamount, h⟩ := bind_ok h
  obtain ⟨provenance, -, h⟩ := bind_ok h
  split at h
  · cases h
    exact ⟨_, hamount⟩
  · cases h

/-- A settlement without a stored response is refused or charged to the
caller's own open reservation. -/
theorem charge_ok {L next : SpendLedger} {caller poolId : String} {document : Members}
    {body : Settlement} {now : Datetime} {response : Members}
    (h : L.charge caller poolId document body now = .ok (next, response)) :
    (∃ reason, next = (L.append poolId (.refusal caller reason document) now).1) ∨
      ∃ state r, fold (L.poolEvents poolId) = .ok state ∧
        state.reservations.get? body.reservationId = some r ∧ r.caller = caller ∧
        r.closed = false ∧ (∃ total, r.settled.add body.amount = .ok total) ∧
        next = (L.append poolId (.settlement body) now).1 := by
  unfold charge at h
  obtain ⟨state, hstate, h⟩ := bind_ok h
  cases hr : (state.reservations.get? body.reservationId).filter
      (fun r => r.caller == caller && !r.closed) with
  | none =>
    rw [hr] at h
    cases h
    exact .inl ⟨_, rfl⟩
  | some r =>
    rw [hr] at h
    obtain ⟨total, htotal, h⟩ := bind_ok h
    cases h
    rw [Option.filter_eq_some_iff] at hr
    simp only [Bool.and_eq_true, beq_iff_eq, Bool.not_eq_true'] at hr
    exact .inr ⟨state, r, hstate, hr.1, hr.2.1, hr.2.2, ⟨total, htotal⟩, rfl⟩

/-- A settlement call answers an invalid document, repeats a stored
response, or charges and stores. -/
theorem settle_ok {L next : SpendLedger} {caller : String} {document : Json} {now : Datetime}
    {response : Members} (h : L.settle caller document now = .ok (next, response)) :
    (next = L ∧ ∃ e, validateSettlement document = .error e) ∨
      ∃ data poolId body, validateSettlement document = .ok (data, poolId, body) ∧
        ((next = L ∧ L.stored (settleScope caller poolId body)
            (digestOf (("caller", .str caller) :: data)) "settled" = some response) ∨
          ∃ charged, L.operations.get? (settleScope caller poolId body) = none ∧
            L.charge caller poolId data body now = .ok (charged, response) ∧
            next = charged.store (settleScope caller poolId body)
              (digestOf (("caller", .str caller) :: data)) response) := by
  unfold settle at h
  cases hvalid : validateSettlement document with
  | error e =>
    rw [hvalid] at h
    cases h
    exact .inl ⟨rfl, e, rfl⟩
  | ok valid =>
    obtain ⟨data, poolId, body⟩ := valid
    rw [hvalid] at h
    refine .inr ⟨data, poolId, body, rfl, ?_⟩
    dsimp only at h
    cases hstored : L.stored (settleScope caller poolId body)
        (digestOf (("caller", .str caller) :: data)) "settled" with
    | some answer =>
      rw [hstored] at h
      cases h
      exact .inl ⟨rfl, rfl⟩
    | none =>
      rw [hstored] at h
      obtain ⟨⟨charged, answer⟩, hcharged, h⟩ := bind_ok h
      cases h
      exact .inr ⟨charged, Option.map_eq_none_iff.mp hstored, hcharged, rfl⟩

theorem configure_ok {L next : SpendLedger} {document : Json} {now : Datetime}
    {response : Members} (h : L.configure document now = .ok (next, response)) :
    ∃ poolId body, next = (L.append poolId (.poolConfig body) now).1 := by
  unfold configure at h
  obtain ⟨config, -, h⟩ := bind_ok h
  obtain ⟨state, -, h⟩ := bind_ok h
  dsimp only at h
  split at h
  · cases h
    exact ⟨_, _, rfl⟩
  · split_ifs at h
    cases h
    exact ⟨_, _, rfl⟩

/-- A reconciliation closes a reservation that is open or overrun. -/
theorem reconcile_ok {L next : SpendLedger} {document : Json} {now : Datetime}
    {response : Members} (h : L.reconcile document now = .ok (next, response)) :
    ∃ poolId body state r, fold (L.poolEvents poolId) = .ok state ∧
      state.reservations.get? body.reservationId = some r ∧
      (r.closed = true → r.overrunOpen = true) ∧
      (∃ raw, quantity raw "amount" = .ok body.amount) ∧
      next = (L.append poolId (.reconciliation body) now).1 := by
  unfold reconcile at h
  obtain ⟨data, -, h⟩ := bind_ok h
  obtain ⟨poolId, -, h⟩ := bind_ok h
  obtain ⟨reservationId, -, h⟩ := bind_ok h
  obtain ⟨amount, hamount, h⟩ := bind_ok h
  obtain ⟨evidenceRef, -, h⟩ := bind_ok h
  split at h
  · rename_i cause hcause
    split_ifs at h
    obtain ⟨state, hstate, h⟩ := bind_ok h
    cases hr : state.reservations.get? reservationId with
    | none =>
      rw [hr] at h
      cases h
    | some r =>
      rw [hr] at h
      dsimp only at h
      split_ifs at h with hclosed
      cases h
      refine ⟨poolId, ⟨reservationId, amount, evidenceRef, strip cause⟩, state, r, hstate, hr,
        ?_, ⟨_, hamount⟩, rfl⟩
      intro hc
      simpa [hc] using hclosed
  · cases h

theorem recordRevocation_ok {L next : SpendLedger} {poolId : String}
    {verified : Except String OwnerRevocation} {now : Datetime} {response : Members}
    (h : L.recordRevocation poolId verified now = .ok (next, response)) :
    next = L ∨ ∃ revocation, next = (L.append poolId (.ownerRevocation revocation) now).1 := by
  unfold recordRevocation at h
  obtain ⟨⟨state, revocation⟩, -, h⟩ := bind_ok h
  dsimp only at h
  split_ifs at h
  · cases h
    exact .inl rfl
  · cases h
    exact .inr ⟨revocation, rfl⟩

theorem failOver_ok {L next : SpendLedger} {poolId : String}
    {verified : Except String OwnerRevocation} {now : Datetime} {response : Members}
    (h : L.failOver poolId verified now = .ok (next, response)) :
    ∃ revocation body, next = ((L.append poolId (.ownerRevocation revocation) now).1.append poolId
      (.poolConfig body) now).1 := by
  unfold failOver at h
  obtain ⟨⟨state, revocation⟩, -, h⟩ := bind_ok h
  dsimp only at h
  split_ifs at h
  split at h
  · cases h
  · cases h
    exact ⟨revocation, _, rfl⟩

/-- What one call may add to a pool's events, with what held before it. -/
inductive Records (L : SpendLedger) (poolId : String) : List Event → Prop where
  | nothing : Records L poolId []
  | poolConfig (body : Members) : Records L poolId [.poolConfig body]
  | grant {state : PoolState} {config : PoolConfig} {caller : String}
      {request : ReservationRequest} {now : Datetime} {body : Grant}
      (hstate : fold (L.poolEvents poolId) = .ok state) (hconfig : state.config = some config)
      (hadmitted : refusalReason L.ownerHubId state caller request now = .ok none)
      (hexposure : config.exposure request.upperBound = .ok body.exposure)
      (hwindow : body.window = some config.windowId) : Records L poolId [.grant body]
  | settlement {state : PoolState} {r : Reservation} {body : Settlement}
      (hstate : fold (L.poolEvents poolId) = .ok state)
      (hr : state.reservations.get? body.reservationId = some r) (hopen : r.closed = false)
      (hamount : ∃ raw, quantity raw "amount" = .ok body.amount)
      (htotal : ∃ total, r.settled.add body.amount = .ok total) :
      Records L poolId [.settlement body]
  | refusal (caller reason : String) (request : Members) :
      Records L poolId [.refusal caller reason request]
  | reconciliation {state : PoolState} {r : Reservation} {body : Reconciliation}
      (hstate : fold (L.poolEvents poolId) = .ok state)
      (hr : state.reservations.get? body.reservationId = some r)
      (hclosed : r.closed = true → r.overrunOpen = true)
      (hamount : ∃ raw, quantity raw "amount" = .ok body.amount) :
      Records L poolId [.reconciliation body]
  | ownerRevocation (body : OwnerRevocation) : Records L poolId [.ownerRevocation body]
  | failOver (revocation : OwnerRevocation) (body : Members) :
      Records L poolId [.ownerRevocation revocation, .poolConfig body]

/-- Only the pool of the event gains it. -/
theorem Records.of_pool {L : SpendLedger} {poolId other : String} {events : List Event}
    (h : Records L poolId events) : Records L other (if poolId = other then events else []) := by
  by_cases hp : poolId = other
  · subst hp
    rw [if_pos rfl]
    exact h
  · rw [if_neg hp]
    exact .nothing

theorem reserve_records {L next : SpendLedger} {caller : String} {document : Json}
    {now : Datetime} {response : Members}
    (h : L.reserve caller document now = .ok (next, response)) (poolId : String) :
    ∃ events, next.poolEvents poolId = L.poolEvents poolId ++ events ∧
      Records L poolId events := by
  obtain ⟨rfl, -⟩ | ⟨request, state, -, hstate, ⟨rfl, -⟩ | ⟨decided, -, hdecided, rfl⟩⟩ :=
    reserve_ok h
  · exact ⟨[], (List.append_nil _).symm, .nothing⟩
  · exact ⟨[], (List.append_nil _).symm, .nothing⟩
  · rw [poolEvents_store]
    obtain ⟨reason, rfl⟩ | ⟨hadmitted, config, body, hconfig, hexposure, hwindow, -, -, rfl⟩ :=
      decideRequest_ok hdecided
    · exact ⟨_, poolEvents_append .., (Records.refusal ..).of_pool⟩
    · exact ⟨_, poolEvents_append ..,
        (Records.grant hstate hconfig hadmitted hexposure hwindow).of_pool⟩

theorem settle_records {L next : SpendLedger} {caller : String} {document : Json}
    {now : Datetime} {response : Members}
    (h : L.settle caller document now = .ok (next, response)) (poolId : String) :
    ∃ events, next.poolEvents poolId = L.poolEvents poolId ++ events ∧
      Records L poolId events := by
  obtain ⟨rfl, -⟩ | ⟨data, pool, body, hvalid, ⟨rfl, -⟩ | ⟨charged, -, hcharged, rfl⟩⟩ :=
    settle_ok h
  · exact ⟨[], (List.append_nil _).symm, .nothing⟩
  · exact ⟨[], (List.append_nil _).symm, .nothing⟩
  · rw [poolEvents_store]
    obtain ⟨reason, rfl⟩ | ⟨state, r, hstate, hr, -, hopen, htotal, rfl⟩ := charge_ok hcharged
    · exact ⟨_, poolEvents_append .., (Records.refusal ..).of_pool⟩
    · exact ⟨_, poolEvents_append ..,
        (Records.settlement hstate hr hopen (validateSettlement_ok hvalid) htotal).of_pool⟩

theorem query_keeps {L next : SpendLedger} {caller : String} {document : Json}
    {response : Members} (h : L.answer (.query caller document) = .ok (next, response)) :
    next = L := by
  have hmap : (L.query caller document).map (L, ·) = .ok (next, response) := h
  cases hquery : L.query caller document with
  | error e =>
    rw [hquery] at hmap
    cases hmap
  | ok reply =>
    rw [hquery] at hmap
    cases hmap
    rfl

/-- A call adds to a pool's events only what `Records` lists. -/
theorem step_records (L : SpendLedger) (call : Call) (poolId : String) :
    ∃ events, (L.step call).poolEvents poolId = L.poolEvents poolId ++ events ∧
      Records L poolId events := by
  have hnone : ∃ events, L.poolEvents poolId = L.poolEvents poolId ++ events ∧
      Records L poolId events := ⟨[], (List.append_nil _).symm, .nothing⟩
  unfold step
  cases hanswer : L.answer call with
  | error e => exact hnone
  | ok result =>
    obtain ⟨next, response⟩ := result
    cases call with
    | configure document now =>
      obtain ⟨pool, body, rfl⟩ := configure_ok hanswer
      exact ⟨_, poolEvents_append .., (Records.poolConfig body).of_pool⟩
    | reserve caller document now => exact reserve_records hanswer poolId
    | settle caller document now => exact settle_records hanswer poolId
    | reconcile document now =>
      obtain ⟨pool, body, state, r, hstate, hr, hclosed, hamount, rfl⟩ := reconcile_ok hanswer
      exact ⟨_, poolEvents_append .., (Records.reconciliation hstate hr hclosed hamount).of_pool⟩
    | query caller document =>
      rw [query_keeps hanswer]
      exact hnone
    | recordRevocation pool verified now =>
      obtain rfl | ⟨revocation, rfl⟩ := recordRevocation_ok hanswer
      · exact hnone
      · exact ⟨_, poolEvents_append .., (Records.ownerRevocation revocation).of_pool⟩
    | failOver pool verified now =>
      obtain ⟨revocation, body, rfl⟩ := failOver_ok hanswer
      refine ⟨if pool = poolId then [.ownerRevocation revocation, .poolConfig body] else [], ?_,
        (Records.failOver revocation body).of_pool⟩
      rw [poolEvents_append, poolEvents_append]
      by_cases hp : pool = poolId <;> simp [hp]
    | reopen ownerHubId =>
      cases hanswer
      exact hnone

end SpendLedger

end SynapseChannel.Spend
