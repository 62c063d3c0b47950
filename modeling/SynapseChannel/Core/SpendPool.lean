import SynapseChannel.Lib.Datetime
import SynapseChannel.Lib.Sorted

/-!
# Core — SpendPool

The configuration of a shared pool, the requests to reserve from it, and
the fold of a pool's recorded events into what is settled and what is
still held. An event keeps the decimals and times its stored text spells;
`timestamp` is applied to that text again when a grant is folded.
-/

namespace SynapseChannel.Spend

open Py Outcome

/-! ## Fields -/

/-- Declared tax treatment of every quantity in a pool. -/
def taxBases : List String := ["pre_tax", "post_tax", "not_applicable"]

/-- Evidence class of a settlement amount. -/
def provenances : List String := ["measured", "billed"]

/-- Upper bound on any configured integer limit. -/
def maxLimit : Int := 1000000

/-- Most significant digits in one quantity. -/
def maxDigits : Nat := 30

/-- Finest quantity step. -/
def minExponent : Int := -18

/-- Largest quantity magnitude: below `10**19`. -/
def maxAdjusted : Int := 18

def maxCause : Nat := 500

/-- The longest text of a time. -/
def maxTime : Nat := 40

def isTokenChar (c : Char) : Bool := c.isAlphanum || "._:/@-".toList.contains c

/-- A short plain token. -/
def token (value : Json) (name : String) : Except String String :=
  match value with
  | .str s =>
    if 1 ≤ len s ∧ len s ≤ 128 ∧ s.toList.all isTokenChar then .ok s
    else .error (name ++ " must be a short plain token")
  | _ => .error (name ++ " must be a short plain token")

/-- A positive integer limit. -/
def limit (value : Json) (name : String) : Except String Int :=
  match value with
  | .int n =>
    if 1 ≤ n ∧ n ≤ maxLimit then .ok n
    else .error (name ++ " must be an integer from 1 to 1000000")
  | _ => .error (name ++ " must be an integer from 1 to 1000000")

/-- The members of a mapping with exactly the given fields. -/
def fields (document : Json) (required : List String) (name : String)
    (optional : List String := []) : Except String Members :=
  match document with
  | .obj data =>
    if required.all (Members.contains data) ∧
        data.all (fun m => (required ++ optional).contains m.1) then
      .ok data
    else
      .error (name ++ " must have exactly the fields: " ++
        join ", " (sortedBy (fun a b => decide (a < b)) id required))
  | _ =>
    .error (name ++ " must have exactly the fields: " ++
      join ", " (sortedBy (fun a b => decide (a < b)) id required))

/-- A member of a fixed list of texts. -/
def oneOf (value : Json) (options : List String) (error : String) : Except String String :=
  match value with
  | .str s => if options.contains s then .ok s else .error error
  | _ => .error error

section
variable [Readers]

/-- A finite, non-negative exact quantity from a decimal string. -/
def quantity (value : Json) (name : String) : Except String Decimal :=
  match value with
  | .str s =>
    if 64 < len s then .error (name ++ " must be a decimal string")
    else
      match Readers.decimalOfStr s with
      | none => .error (name ++ " must be a decimal string")
      | some (.finite d) =>
        if d.value < 0 then .error (name ++ " must be a finite, non-negative amount")
        else if maxDigits < d.numDigits ∨ d.exponent < minExponent ∨ maxAdjusted < d.adjusted then
          .error (name ++
            " must have at most 30 digits, 18 decimals and a magnitude below 10**19")
        else .ok d
      | some _ => .error (name ++ " must be a finite, non-negative amount")
  | _ => .error (name ++ " must be a decimal string")

/-- An offset-aware time from an ISO-8601 string. -/
def timestamp (value : Json) (name : String) : Except String Datetime :=
  match value with
  | .str s =>
    if maxTime < len s then .error (name ++ " must be an ISO-8601 time")
    else
      let text := if endsWith s "Z" then String.ofList s.toList.dropLast ++ "+00:00" else s
      match Readers.datetimeOfIso text with
      | none => .error (name ++ " must be an ISO-8601 time")
      | some none => .error (name ++ " must include a UTC offset")
      | some (some t) => .ok t
  | _ => .error (name ++ " must be an ISO-8601 time")

end

/-! ## Configuration -/

def configFields : List String :=
  ["pool_id", "owner_hub_id", "epoch", "account_ref", "billing_surface", "unit",
    "window_starts_at", "window_ends_at", "price_revision", "hard_bound", "cost_basis", "limits",
    "grantees", "cause"]

/-- One validated configuration of a shared pool. -/
structure PoolConfig where
  poolId : String
  ownerHubId : String
  epoch : Int
  accountRef : String
  billingSurface : String
  unit : String
  windowStartsAt : Datetime
  windowEndsAt : Datetime
  priceRevision : String
  hardBound : Decimal
  tax : String
  fixedFee : Decimal
  minimumCharge : Decimal
  maxDepth : Int
  maxAgents : Int
  maxWallSeconds : Int
  grantees : List (String × String)
  cause : String
  revocationKeys : Dict String String

/-- The identity of the configured quota window. -/
def PoolConfig.windowId (config : PoolConfig) : String :=
  config.windowStartsAt.isoformat ++ "/" ++ config.windowEndsAt.isoformat

/-- The exposure a call with `upperBound` reserves. -/
def PoolConfig.exposure (config : PoolConfig) (upperBound : Decimal) : Except String Decimal :=
  (upperBound.max config.minimumCharge).add config.fixedFee

/-- Three capital letters. -/
def isCurrency (unit : String) : Bool := len unit == 3 && unit.toList.all Char.isUpper

/-- The base64 text of 32 bytes. -/
def isPublicKey (text : String) : Bool :=
  len text == 44 && text.toList.getLast? == some '=' &&
    text.toList.dropLast.all fun c => c.isAlphanum || c == '+' || c == '/'

def grantee (item : Json) : Except String (String × String) := do
  let data ← fields item ["hub", "project"] "grantee"
  let hub ← token (data.get "hub") "grantee hub"
  let project ← token (data.get "project") "grantee project"
  return (hub, project)

def revocationKey (keys : Dict String String) (item : Json) : Except String (Dict String String) := do
  let entry ← fields item ["key_id", "public_key"] "revocation key"
  match entry.get "public_key" with
  | .str key =>
    if isPublicKey key then do
      let keyId ← token (entry.get "key_id") "revocation key_id"
      return keys.set keyId key
    else .error "a revocation public key must be a base64 Ed25519 key"
  | _ => .error "a revocation public key must be a base64 Ed25519 key"

/-- The operator keys that may sign an owner revocation, by key id. -/
def revocationKeys (value : Json) : Except String (Dict String String) :=
  match value with
  | .arr items =>
    if 8 < items.length then .error "revocation_keys must be a list of at most 8 keys"
    else items.foldlM revocationKey Dict.empty
  | _ => .error "revocation_keys must be a list of at most 8 keys"

def positiveEpoch (value : Json) : Except String Int :=
  match value with
  | .int n => if n < 1 then .error "epoch must be a positive integer" else .ok n
  | _ => .error "epoch must be a positive integer"

def granteesOf (value : Json) : Except String (List (String × String)) :=
  match value with
  | .arr items =>
    if 1 ≤ items.length ∧ items.length ≤ 256 then items.mapM grantee
    else .error "grantees must be a list of 1 to 256 entries"
  | _ => .error "grantees must be a list of 1 to 256 entries"

def causeOf (value : Json) : Except String String :=
  match value with
  | .str s =>
    if strip s = "" ∨ maxCause < len s then
      .error "cause must be a non-empty reason of at most 500 characters"
    else .ok (strip s)
  | _ => .error "cause must be a non-empty reason of at most 500 characters"

section
variable [Readers]

/-- The configuration when `document` has exactly the configuration shape. -/
def validateConfig (document : Json) : Except String PoolConfig := do
  let data ← fields document configFields "pool configuration" ["revocation_keys"]
  let basis ← fields (data.get "cost_basis") ["tax", "fixed_fee", "minimum_charge"] "cost_basis"
  let limits ← fields (data.get "limits") ["max_depth", "max_agents", "max_wall_seconds"] "limits"
  let epoch ← positiveEpoch (data.get "epoch")
  let unit ← token (data.get "unit") "unit"
  let tax ← oneOf (basis.get "tax") taxBases
    ("cost_basis.tax must be one of " ++ join ", " taxBases)
  if tax = "not_applicable" ∧ isCurrency unit then
    .error "a monetary pool must declare a pre_tax or post_tax basis"
  else
    let starts ← timestamp (data.get "window_starts_at") "window_starts_at"
    let ends ← timestamp (data.get "window_ends_at") "window_ends_at"
    if ends.instant ≤ starts.instant then .error "the window must end after it starts"
    else
      let grantees ← granteesOf (data.get "grantees")
      let cause ← causeOf (data.get "cause")
      return {
        poolId := ← token (data.get "pool_id") "pool_id"
        ownerHubId := ← token (data.get "owner_hub_id") "owner_hub_id"
        epoch := epoch
        accountRef := ← token (data.get "account_ref") "account_ref"
        billingSurface := ← token (data.get "billing_surface") "billing_surface"
        unit := unit
        windowStartsAt := starts
        windowEndsAt := ends
        priceRevision := ← token (data.get "price_revision") "price_revision"
        hardBound := ← quantity (data.get "hard_bound") "hard_bound"
        tax := tax
        fixedFee := ← quantity (basis.get "fixed_fee") "cost_basis.fixed_fee"
        minimumCharge := ← quantity (basis.get "minimum_charge") "cost_basis.minimum_charge"
        maxDepth := ← limit (limits.get "max_depth") "limits.max_depth"
        maxAgents := ← limit (limits.get "max_agents") "limits.max_agents"
        maxWallSeconds := ← limit (limits.get "max_wall_seconds") "limits.max_wall_seconds"
        grantees := grantees
        cause := cause
        revocationKeys := ← revocationKeys (data.getD "revocation_keys" (.arr [])) }

end

/-! ## Requests -/

def requestFields : List String :=
  ["pool_id", "seat", "project", "task", "operation", "key", "unit", "tax", "price_revision",
    "upper_bound", "depth", "wall_seconds"]

/-- One validated request to reserve exposure in a pool. -/
structure ReservationRequest where
  poolId : String
  seat : String
  project : String
  task : String
  operation : String
  key : String
  unit : String
  tax : String
  priceRevision : String
  upperBound : Decimal
  depth : Int
  wallSeconds : Int

/-- The canonical request document. -/
def ReservationRequest.document (request : ReservationRequest) : Members :=
  [("pool_id", .str request.poolId), ("seat", .str request.seat),
    ("project", .str request.project), ("task", .str request.task),
    ("operation", .str request.operation), ("key", .str request.key),
    ("unit", .str request.unit), ("tax", .str request.tax),
    ("price_revision", .str request.priceRevision),
    ("upper_bound", .str request.upperBound.str), ("depth", .int request.depth),
    ("wall_seconds", .int request.wallSeconds)]

def depthOf (value : Json) : Except String Int :=
  match value with
  | .int n =>
    if 0 ≤ n ∧ n ≤ maxLimit then .ok n else .error "depth must be an integer from 0 to 1000000"
  | _ => .error "depth must be an integer from 0 to 1000000"

section
variable [Readers]

/-- The request when `document` has exactly the request shape. -/
def validateRequest (document : Json) : Except String ReservationRequest := do
  let data ← fields document requestFields "reservation request"
  let upper ← quantity (data.get "upper_bound") "upper_bound"
  if upper.coefficient = 0 then .error "upper_bound must be a finite positive amount"
  else
    let depth ← depthOf (data.get "depth")
    let tax ← oneOf (data.get "tax") taxBases ("tax must be one of " ++ join ", " taxBases)
    return {
      poolId := ← token (data.get "pool_id") "pool_id"
      seat := ← token (data.get "seat") "seat"
      project := ← token (data.get "project") "project"
      task := ← token (data.get "task") "task"
      operation := ← token (data.get "operation") "operation"
      key := ← token (data.get "key") "key"
      unit := ← token (data.get "unit") "unit"
      tax := tax
      priceRevision := ← token (data.get "price_revision") "price_revision"
      upperBound := upper
      depth := depth
      wallSeconds := ← limit (data.get "wall_seconds") "wall_seconds" }

end

/-! ## Recorded events -/

/-- What the owner records of a grant. A ledger of the first schema holds
grants without a window. -/
structure Grant where
  reservationId : String
  caller : String
  seat : String
  project : String
  task : String
  operation : String
  depth : Int
  requestedUpper : Decimal
  exposure : Decimal
  epoch : Int
  configRevision : Nat
  expiresAt : Datetime
  window : Option String

structure Settlement where
  reservationId : String
  usageRef : String
  amount : Decimal
  provenance : String
  final : Bool

structure Reconciliation where
  reservationId : String
  amount : Decimal
  evidenceRef : String
  cause : String

/-- A verified operator revocation of one pool owner's epoch. -/
structure OwnerRevocation where
  poolId : String
  revokedEpoch : Int
  newEpoch : Int
  newOwnerHubId : String
  ledgerSequence : Int
  ledgerDigest : String
  attestation : String
  cause : String
  issuedAt : String
  keyId : String
  signature : String

/-- One recorded event of a pool. -/
inductive Event where
  | poolConfig (body : Members)
  | grant (body : Grant)
  | settlement (body : Settlement)
  | refusal (caller reason : String) (request : Members)
  | reconciliation (body : Reconciliation)
  | ownerRevocation (body : OwnerRevocation)

/-! ## The fold -/

/-- A granted reservation and what has been settled against it. -/
structure Reservation where
  reservationId : String
  caller : String
  seat : String
  exposure : Decimal
  expiresAt : Datetime
  epoch : Int
  window : String := ""
  settled : Decimal := Decimal.zero
  closed : Bool := false
  overrunOpen : Bool := false
  usage : Dict String (Decimal × Bool) := Dict.empty

/-- What this reservation still holds against the bound. -/
def Reservation.openExposure (r : Reservation) : Except String Decimal :=
  if r.closed then .ok Decimal.zero
  else (r.exposure.sub r.settled).map (Decimal.max · Decimal.zero)

/-- A pool's configuration history and reservations, folded from its
ledger events. -/
structure PoolState where
  config : Option PoolConfig := none
  revision : Nat := 0
  reservations : Dict String Reservation := Dict.empty
  revokedEpochs : List Int := []

namespace PoolState

/-- What reservations of `window` charged. -/
def settled (state : PoolState) (window : String) : Except String Decimal :=
  Decimal.sum ((state.reservations.values.filter (·.window == window)).map (·.settled))

/-- Exposure still held by open reservations of any window. -/
def outstanding (state : PoolState) : Except String Decimal := do
  let held ← state.reservations.values.mapM Reservation.openExposure
  Decimal.sum held

/-- Whether any reservation is still open. -/
def unresolved (state : PoolState) : Bool := state.reservations.values.any fun r => !r.closed

/-- The reservations whose overrun still blocks new grants. -/
def overruns (state : PoolState) : List String :=
  sortedBy (fun a b => decide (a < b)) id
    ((state.reservations.items.filter fun item => item.2.overrunOpen).map Prod.fst)

/-- Seats holding an unexpired, open reservation. -/
def activeSeats (state : PoolState) (now : Datetime) : List String :=
  ((state.reservations.values.filter fun r =>
    !r.closed && decide (now.instant < r.expiresAt.instant)).map (·.seat)).dedup

end PoolState

/-- `timestamp` of the ISO text of a time. -/
def storedTime (t : Datetime) : Except String Datetime :=
  if maxTime < len t.isoformat then .error "expires_at must be an ISO-8601 time" else .ok t

/-- The reservation a grant opens. -/
def Grant.opened (body : Grant) (config : PoolConfig) (expiresAt : Datetime) : Reservation :=
  { reservationId := body.reservationId
    caller := body.caller
    seat := body.seat
    exposure := body.exposure
    expiresAt := expiresAt
    epoch := body.epoch
    window := body.window.getD config.windowId }

/-- Charge one settlement to its reservation. -/
def Reservation.settle (r : Reservation) (body : Settlement) : Except String Reservation := do
  let settled ← r.settled.add body.amount
  return { r with
    usage := r.usage.set body.usageRef (body.amount, body.final)
    settled := settled
    overrunOpen := r.overrunOpen || decide (r.exposure.value < settled.value)
    closed := r.closed || body.final }

/-- Close a reservation at the operator's amount. -/
def Reservation.reconcile (r : Reservation) (body : Reconciliation) : Reservation :=
  { r with settled := body.amount, closed := true, overrunOpen := false }

variable [Readers]

/-- One event of the fold. -/
def foldEvent (state : PoolState) : Event → Except String PoolState
  | .poolConfig body => do
    let config ← validateConfig (.obj body)
    return { state with config := some config, revision := state.revision + 1 }
  | .grant body =>
    match state.config with
    | none => .error "a grant precedes its pool's configuration"
    | some config => do
      let expiresAt ← storedTime body.expiresAt
      return { state with
        reservations := state.reservations.set body.reservationId (body.opened config expiresAt) }
  | .settlement body =>
    match state.reservations.get? body.reservationId with
    | none => .error "KeyError"
    | some r => do
      let r ← r.settle body
      return { state with reservations := state.reservations.set body.reservationId r }
  | .reconciliation body =>
    match state.reservations.get? body.reservationId with
    | none => .error "KeyError"
    | some r =>
      .ok { state with reservations := state.reservations.set body.reservationId (r.reconcile body) }
  | .ownerRevocation body =>
    .ok { state with
      revokedEpochs :=
        if body.revokedEpoch ∈ state.revokedEpochs then state.revokedEpochs
        else state.revokedEpochs ++ [body.revokedEpoch] }
  | .refusal .. => .ok state

/-- Fold one pool's recorded ledger events, oldest first, into its state. -/
def fold (events : List Event) : Except String PoolState := events.foldlM foldEvent {}

/-! ## What one event does -/

theorem foldEvent_poolConfig {state next : PoolState} {body : Members}
    (h : foldEvent state (.poolConfig body) = .ok next) :
    ∃ config, validateConfig (.obj body) = .ok config ∧
      next = { state with config := some config, revision := state.revision + 1 } := by
  obtain ⟨config, hconfig, h⟩ := bind_ok h
  cases h
  exact ⟨config, hconfig, rfl⟩

theorem foldEvent_grant {state next : PoolState} {body : Grant}
    (h : foldEvent state (.grant body) = .ok next) :
    ∃ config, state.config = some config ∧ len body.expiresAt.isoformat ≤ maxTime ∧
      next = { state with reservations :=
        state.reservations.set body.reservationId (body.opened config body.expiresAt) } := by
  unfold foldEvent at h
  dsimp only at h
  split at h
  · cases h
  · rename_i config hconfig
    obtain ⟨expiresAt, hexpires, h⟩ := bind_ok h
    unfold storedTime at hexpires
    split_ifs at hexpires with hlen
    cases hexpires
    cases h
    exact ⟨config, hconfig, not_lt.mp hlen, rfl⟩

theorem foldEvent_settlement {state next : PoolState} {body : Settlement}
    (h : foldEvent state (.settlement body) = .ok next) :
    ∃ r charged, state.reservations.get? body.reservationId = some r ∧
      r.settle body = .ok charged ∧
      next = { state with reservations := state.reservations.set body.reservationId charged } := by
  unfold foldEvent at h
  dsimp only at h
  split at h
  · cases h
  · rename_i r hr
    obtain ⟨charged, hcharged, h⟩ := bind_ok h
    cases h
    exact ⟨r, charged, hr, hcharged, rfl⟩

theorem foldEvent_reconciliation {state next : PoolState} {body : Reconciliation}
    (h : foldEvent state (.reconciliation body) = .ok next) :
    ∃ r, state.reservations.get? body.reservationId = some r ∧
      next = { state with reservations :=
        state.reservations.set body.reservationId (r.reconcile body) } := by
  unfold foldEvent at h
  dsimp only at h
  split at h
  · cases h
  · rename_i r hr
    cases h
    exact ⟨r, hr, rfl⟩

end SynapseChannel.Spend
