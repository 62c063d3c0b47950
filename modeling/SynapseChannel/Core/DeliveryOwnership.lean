import SynapseChannel.Core.DeliveryReplay
import SynapseChannel.Lib.Outcome
import SynapseChannel.Lib.Trace

/-!
# Core — DeliveryOwnership

Offline recovery of a legacy journal's receiving hub, and the calls on a
delivery store. A refused call rolls its transaction back.
-/

namespace SynapseChannel.Delivery

open Py
open Forward (parseHubQualified)

namespace Store

/-! ## Legacy bindings -/

/-- No row is known to be of another hub. -/
def checkReceiver (hubId : String) (row : Row) : Except Failure Unit :=
  let forwarded := parseHubQualified row.sender
  if row.receivingHub.any (· != hubId) ∨ (forwarded.isNone ∧ row.request.originHub ≠ hubId) then
    .error (.refusal "hub_identity_mismatch" "delivery journal belongs to a different stable hub id")
  else if forwarded.any (·.hubId != row.request.originHub) then
    .error (incompatible "forwarded delivery origin disagrees")
  else .ok ()

def boundPayload (key : String) (row : Row) (hubId recoveryRef : String) (released : Bool) :
    Members :=
  [("profile", .int 4), ("operation_key", .str key), ("ordinal", .int (row.ordinal + 1)),
    ("prior_stage", .str row.stage.text), ("receiving_hub", .str hubId),
    ("recovery_ref", .str recoveryRef),
    ("released_quarantine_reason", if released then .str "unauthorised_requester" else .null)]

/-- Bind one unbound row; only the historical authority refusal is released. -/
def bindRow (hubId recoveryRef : String) (retryAuthorityRefusals : Bool) (done : Store × Nat)
    (entry : String × Row) : Except Failure (Store × Nat) :=
  let (s, count) := done
  let (key, row) := entry
  if row.receivingHub.isSome then .ok (s, count)
  else if row.storageProfile ≠ 3 then
    .error (incompatible "unbound delivery profile is incompatible")
  else
    let released := retryAuthorityRefusals &&
      s.quarantined.get? key == some "unauthorised_requester"
    let s := s.insertEvent .ownerBound (boundPayload key row hubId recoveryRef released)
    let bound :=
      { row with
        receivingHub := some hubId, storageProfile := 4, ordinal := row.ordinal + 1
        latestEventSeq := s.lastSeq }
    let quarantined := if released then s.quarantined.erase key else s.quarantined
    .ok ({ s with requests := s.requests.set key bound, quarantined }, count + 1)

section
variable [Builtins]

/-- Bind a verified legacy journal; `authentic` is the outcome of the
store's row authentication. -/
def bindLegacyReceivingHub (s : Store) (authentic : Except Failure Unit)
    (hubId recoveryRef : String) (retryAuthorityRefusals : Bool) :
    Except Failure (Store × Nat) := do
  let _ ← validateReceivingHub (.str hubId)
  let _ ← validateRecoveryRef (.str recoveryRef)
  let _ ← authentic
  let _ ← verifyDeliveryReplay s
  let rows := sortedBy (fun a b => decide (a < b)) Prod.fst s.requests.items
  let _ ← rows.forM fun (_, row) => checkReceiver hubId row
  let bound ← rows.foldlM (bindRow hubId recoveryRef retryAuthorityRefusals) (s, 0)
  let _ ← verifyDeliveryReplay bound.1
  return bound

end

/-! ## Calls -/

inductive Call where
  | create (c : Creation)
  /-- `advance` and `request_cancel`. -/
  | mutate (m : Mutation) (clock : Float)
  | quarantine (operationKey reasonCode : String)
  | bind (authentic : Except Failure Unit) (hubId recoveryRef : String)
      (retryAuthorityRefusals : Bool)
  | mark (notificationId : String) (clock : Float)
  /-- Another event is appended to the table. -/
  | otherEvent

inductive Reply where
  | write (w : DeliveryWrite)
  | bound (count : Nat)
  | done

section
variable [Builtins]

def call (s : Store) : Call → Except Failure (Store × Reply)
  | .create c => (s.create c).map fun (s, w) => (s, .write w)
  | .mutate m clock => (s.mutate m clock).map fun (s, w) => (s, .write w)
  | .quarantine key reason => .ok (s.quarantine key reason, .done)
  | .bind authentic hubId recoveryRef retry =>
    (s.bindLegacyReceivingHub authentic hubId recoveryRef retry).map fun (s, n) => (s, .bound n)
  | .mark id clock => .ok (s.markNotificationDelivered id clock, .done)
  | .otherEvent => .ok ({ s with lastSeq := s.lastSeq + 1 }, .done)

/-- The committed state after a call. -/
def step (s : Store) (c : Call) : Store :=
  match s.call c with
  | .ok (s, _) => s
  | .error _ => s

def run (s : Store) (calls : List Call) : Store := Trace.run step s calls

end

end Store

end SynapseChannel.Delivery
