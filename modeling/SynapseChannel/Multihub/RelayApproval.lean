import SynapseChannel.Lib.DictMap
import SynapseChannel.Multihub.PartitionWatch

/-!
# Multihub — RelayApproval

The quorum of two principals for each relayed action: a bounded ledger of
first requests, and the fold that rebuilds it from the audits of a journal.
A rebuilt request carries its requester's label without the whitespace
around it.
-/

namespace Py.Json

/-- `value == text`. -/
def isText (value : Json) (text : String) : Bool :=
  match value with
  | .str s => s == text
  | _ => false

/-- `value is False`. -/
def isFalse (value : Json) : Bool :=
  match value with
  | .bool b => !b
  | _ => false

end Py.Json

namespace SynapseChannel

open Py

/-- An operator's request that a peer hub perform a governed action. -/
structure RelayActionRequest where
  action : String
  name : String
  taskId : String
  operator : String
  originHubId : String
  reason : String := ""
  breakGlass : Bool := false
  idemKey : String := ""

/-- What two relays must share to count as approving the same action. -/
structure RelayApprovalKey where
  action : String
  name : String
  taskId : String
  deriving DecidableEq

/-- `RelayApprovalKey.from_request`. -/
def RelayApprovalKey.fromRequest (request : RelayActionRequest) : RelayApprovalKey where
  action := request.action
  name := request.name
  taskId := strip request.taskId

inductive ApprovalStatus where
  /-- The first request. -/
  | recorded
  /-- A repeat of the first principal. -/
  | awaiting
  /-- A second principal matched. -/
  | approved
  deriving DecidableEq

structure ApprovalOutcome where
  status : ApprovalStatus
  key : RelayApprovalKey
  requester : String
  approver : String := ""
  requesterPrincipal : String := ""
  approverPrincipal : String := ""

/-- The recorded first request awaiting a second operator. -/
structure PendingRelay where
  requester : String
  principal : String
  deriving DecidableEq

structure RelayApprovalLedger where
  capacity : Nat
  capacity_pos : 1 ≤ capacity
  pending : Dict RelayApprovalKey PendingRelay := .empty

/-- The text of a value, stripped, where it is one and not blank. -/
def nonBlank (value : Json) : Option String :=
  match value with
  | .str text => if strip text = "" then none else some (strip text)
  | _ => none

/-- `_key_from_audit`. -/
def keyFromAudit (payload : Members) : Option RelayApprovalKey :=
  match nonBlank (payload.get "action"), nonBlank (payload.get "namespace"),
      nonBlank (payload.get "task_id") with
  | some action, some name, some taskId => some { action, name, taskId }
  | _, _, _ => none

namespace RelayApprovalLedger

/-- A ledger with nothing pending. -/
def cleared (l : RelayApprovalLedger) : RelayApprovalLedger := { l with pending := .empty }

/-- The ledger without the request under `key`. -/
def dropped (l : RelayApprovalLedger) (key : RelayApprovalKey) : RelayApprovalLedger :=
  { l with pending := l.pending.erase key }

/-- `_record`: at capacity the oldest request makes room. -/
def record (l : RelayApprovalLedger) (key : RelayApprovalKey) (operator principal : String) :
    RelayApprovalLedger :=
  let pending :=
    if l.capacity ≤ l.pending.items.length then l.pending.dropFirst 1 else l.pending
  { l with pending := pending.set key { requester := operator, principal } }

def submit (l : RelayApprovalLedger) (request : RelayActionRequest) (principal : String) :
    Except String (RelayApprovalLedger × ApprovalOutcome) :=
  if principal = "" then .error "verified relay principal is required"
  else
    let key := RelayApprovalKey.fromRequest request
    let operator := request.operator
    match l.pending.get? key with
    | none =>
      .ok (l.record key operator principal,
        { status := .recorded, key, requester := operator, requesterPrincipal := principal })
    | some existing =>
      if existing.principal = principal then
        .ok (l, { status := .awaiting, key, requester := existing.requester
                  requesterPrincipal := existing.principal })
      else
        .ok (l.dropped key,
          { status := .approved, key, requester := existing.requester, approver := operator
            requesterPrincipal := existing.principal, approverPrincipal := principal })

/-- `restore_audit`. -/
def restoreAudit (l : RelayApprovalLedger) (payload : Members) : RelayApprovalLedger :=
  if (payload.get "direction").isText "in" = false then l
  else
    match keyFromAudit payload with
    | none => l.cleared
    | some key =>
      if (payload.get "status").isText "pending" = false ∨
          (payload.get "applied").isFalse = false then l.dropped key
      else
        match nonBlank (payload.get "requester"), nonBlank (payload.get "requester_principal") with
        | some requester, some principal =>
          match l.pending.get? key with
          | none => l.record key requester principal
          | some existing => if existing = { requester, principal } then l else l.dropped key
        | _, _ => l.dropped key

/-! ## What an audit restores -/

/-- What every pending request is: its requester is named, and its principal
is a name without whitespace around it. -/
def Sound (l : RelayApprovalLedger) : Prop :=
  ∀ key entry, l.pending.get? key = some entry →
    strip entry.requester ≠ "" ∧ Stripped entry.principal

/-- A request under its stripped label. -/
def labelled (l : RelayApprovalLedger) : RelayApprovalLedger :=
  { l with pending := l.pending.mapValues fun entry =>
      { entry with requester := strip entry.requester } }

/-- The ledger is its own restored form exactly when no label of it has
whitespace around it. -/
theorem labelled_eq_self {l : RelayApprovalLedger} :
    l.labelled = l ↔
      ∀ key entry, l.pending.get? key = some entry → strip entry.requester = entry.requester := by
  have hpending : l.labelled = l ↔ l.labelled.pending = l.pending := by
    constructor
    · intro h
      rw [h]
    · intro h
      cases l
      unfold labelled at h ⊢
      dsimp only at h ⊢
      rw [h]
  rw [hpending]
  unfold labelled
  dsimp only
  rw [Dict.mapValues_eq_self]
  refine forall_congr' fun key => forall_congr' fun entry => imp_congr_right fun _ => ?_
  constructor
  · intro h
    exact congrArg PendingRelay.requester h
  · intro h
    rw [h]

theorem labelled_record (l : RelayApprovalLedger) (key : RelayApprovalKey)
    (operator principal : String) :
    (l.record key operator principal).labelled = l.labelled.record key (strip operator) principal := by
  unfold record labelled
  dsimp only
  rw [Dict.mapValues_set, apply_ite (Dict.mapValues _), Dict.mapValues_dropFirst,
    Dict.length_mapValues]

theorem labelled_dropped (l : RelayApprovalLedger) (key : RelayApprovalKey) :
    (l.dropped key).labelled = l.labelled.dropped key := by
  unfold dropped labelled
  dsimp only
  rw [Dict.mapValues_erase]

theorem Sound.dropped {l : RelayApprovalLedger} (h : l.Sound) (key : RelayApprovalKey) :
    (l.dropped key).Sound := by
  intro other entry hget
  have hget : (l.pending.erase key).get? other = some entry := hget
  rw [Dict.get?_erase] at hget
  split at hget
  · cases hget
  · exact h other entry hget

/-- A recorded request stands beside requests that were pending before. -/
theorem record_pending {l : RelayApprovalLedger} {key other : RelayApprovalKey}
    {operator principal : String} {entry : PendingRelay}
    (h : (l.record key operator principal).pending.get? other = some entry) :
    (other = key ∧ entry = ⟨operator, principal⟩) ∨ l.pending.get? other = some entry := by
  unfold record at h
  dsimp only at h
  rw [Dict.get?_set] at h
  split at h
  · rename_i hkey
    exact .inl ⟨hkey.symm, (Option.some.inj h).symm⟩
  · right
    split at h
    · exact Dict.Sub.dropFirst l.pending 1 other entry h
    · exact h

theorem Sound.record {l : RelayApprovalLedger} (h : l.Sound) {key : RelayApprovalKey}
    {operator principal : String} (hoperator : strip operator ≠ "") (hprincipal : Stripped principal) :
    (l.record key operator principal).Sound := by
  intro other entry hget
  rcases record_pending hget with ⟨-, rfl⟩ | hold
  · exact ⟨hoperator, hprincipal⟩
  · exact h other entry hold

/-- What a submission does, by its verdict. -/
inductive Submitted (l : RelayApprovalLedger) (request : RelayActionRequest) (principal : String) :
    RelayApprovalLedger × ApprovalOutcome → Prop
  | recorded (hfree : l.pending.get? (.fromRequest request) = none) :
      Submitted l request principal
        (l.record (.fromRequest request) request.operator principal,
          { status := .recorded, key := .fromRequest request, requester := request.operator
            requesterPrincipal := principal })
  | awaiting (existing : PendingRelay)
      (hheld : l.pending.get? (.fromRequest request) = some existing)
      (hsame : existing.principal = principal) :
      Submitted l request principal
        (l, { status := .awaiting, key := .fromRequest request, requester := existing.requester
              requesterPrincipal := existing.principal })
  | approved (existing : PendingRelay)
      (hheld : l.pending.get? (.fromRequest request) = some existing)
      (hother : existing.principal ≠ principal) :
      Submitted l request principal
        (l.dropped (.fromRequest request),
          { status := .approved, key := .fromRequest request, requester := existing.requester
            approver := request.operator, requesterPrincipal := existing.principal
            approverPrincipal := principal })

theorem submit_submitted {l : RelayApprovalLedger} {request : RelayActionRequest}
    {principal : String} {result : RelayApprovalLedger × ApprovalOutcome}
    (h : l.submit request principal = .ok result) : l.Submitted request principal result := by
  unfold submit at h
  dsimp only at h
  split at h
  · cases h
  · split at h
    · cases h
      exact .recorded ‹_›
    · split at h
      · cases h
        exact .awaiting _ ‹_› ‹_›
      · cases h
        exact .approved _ ‹_› ‹_›

/-- The row is the audit of a submission with this outcome. -/
structure Audits (payload : Members) (outcome : ApprovalOutcome) : Prop where
  direction : payload.get "direction" = .str "in"
  key : keyFromAudit payload = some outcome.key
  requester : payload.get "requester" = .str outcome.requester
  principal : payload.get "requester_principal" = .str outcome.requesterPrincipal
  pending : outcome.status ≠ .approved →
    payload.get "status" = .str "pending" ∧ payload.get "applied" = .bool false
  verdict : outcome.status = .approved → (payload.get "status").isText "pending" = false

theorem nonBlank_str {text : String} (h : strip text ≠ "") :
    nonBlank (.str text) = some (strip text) := by
  unfold nonBlank
  exact if_neg h

theorem restoreAudit_submit {l : RelayApprovalLedger} (hl : l.Sound) {request : RelayActionRequest}
    {principal : String} {result : RelayApprovalLedger × ApprovalOutcome}
    (h : l.Submitted request principal result) (hoperator : strip request.operator ≠ "")
    (hprincipal : Stripped principal) {payload : Members} (hpayload : Audits payload result.2) :
    l.labelled.restoreAudit payload = result.1.labelled ∧ result.1.Sound := by
  have hin : (payload.get "direction").isText "in" = true := by
    rw [hpayload.direction]
    rfl
  have hget : ∀ key, l.labelled.pending.get? key =
      (l.pending.get? key).map fun entry => { entry with requester := strip entry.requester } :=
    fun key => Dict.get?_mapValues _ _ _
  unfold restoreAudit
  rw [if_neg (by simp [hin]), hpayload.key]
  dsimp only
  cases h with
  | recorded hfree =>
    obtain ⟨hstatus, happlied⟩ := hpayload.pending (by simp)
    rw [hstatus, happlied, hpayload.requester, hpayload.principal,
      if_neg (by simp [Json.isText, Json.isFalse]), nonBlank_str hoperator,
      nonBlank_str (hprincipal.2.symm ▸ hprincipal.1), hprincipal.2]
    dsimp only
    rw [hget, hfree]
    exact ⟨(labelled_record ..).symm, hl.record hoperator hprincipal⟩
  | awaiting existing hheld hsame =>
    obtain ⟨hrequester, hexisting⟩ := hl _ _ hheld
    obtain ⟨hstatus, happlied⟩ := hpayload.pending (by simp)
    rw [hstatus, happlied, hpayload.requester, hpayload.principal,
      if_neg (by simp [Json.isText, Json.isFalse]), nonBlank_str hrequester,
      nonBlank_str (hexisting.2.symm ▸ hexisting.1), hexisting.2]
    dsimp only
    rw [hget, hheld]
    exact ⟨if_pos rfl, hl⟩
  | approved existing hheld hother =>
    rw [if_pos (.inl (hpayload.verdict rfl))]
    exact ⟨(labelled_dropped ..).symm, hl.dropped _⟩

end RelayApprovalLedger

end SynapseChannel
