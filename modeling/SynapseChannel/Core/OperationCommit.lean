import SynapseChannel.Lib.Outcome
import SynapseChannel.Core.AtomicOperations

/-!
# Core — OperationCommit

Prepare the inputs of a keyed mutation and commit it in one transaction.
Replay and conflict are looked up before the predecessor and capacity
checks; the events, the compatibility row, the operation and its outbox
row are inserted together or not at all.
-/

namespace SynapseChannel

open Py

/-- Finite JSON inputs prepared before the write reservation. -/
structure PreparedOperation where
  key : String
  digest : String
  stamp : Float
  rows : List (String × Members)
  response : Members
  intent : Members
  predecessor : Option OperationRecord := none
  responseEventSeqField : Option String := none
  finalizeResponse : Option (Members → List Int → Except String Members) := none
  capacity : Option Int := none

/-- Final outcome of an atomic operation commit attempt. -/
inductive OperationCommitResult where
  | inserted (operation : StoredOperation)
  | replayed (operation : StoredOperation)
  | conflict (operation : StoredOperation)

/-- A lowercase SHA-256 digest. -/
def isDigest (digest : String) : Bool :=
  digest.toList.length == 64 && digest.toList.all fun c => c ∈ "0123456789abcdef".toList

/-- Validate and freeze the exact predecessor. -/
def checkPredecessor : Option OperationRecord → Except String (Option OperationRecord)
  | none => .ok none
  | some record =>
    if record.key = "" ∨ !(record.requestDigest.any isDigest) then
      .error "invalid required predecessor identity"
    else (encodeObject record.response).map fun response => some { record with response }

/-- Validate identities and builders and freeze JSON in the original
order. -/
def prepareOperation (key digest : String) (draft : OperationDraft) (stamp : Float)
    (capacity : Option Int := none) (required : Option OperationRecord := none) :
    Except String PreparedOperation :=
  if capacity.any fun n => !(0 < n && n < 2 ^ 53) then .error "invalid retained operation budget"
  else do
    let predecessor ← checkPredecessor required
    if draft.finalizeResponse.isSome && draft.responseEventSeqField.isSome then
      .error "choose one atomic response sequence builder"
    else if key = "" then .error "atomic operation key must be non-empty"
    else if !isDigest digest then
      .error "atomic operation request digest must be lowercase SHA-256"
    else do
      let rows ← draft.events.mapM fun (kind, payload) => (encodeObject payload).map (kind, ·)
      if rows = [] then .error "atomic operation requires at least one mutation event"
      else do
        let response ← encodeObject draft.response
        let intent ← encodeObject draft.intent
        .ok
          { key, digest, stamp, rows, response, intent, predecessor, capacity
            responseEventSeqField := draft.responseEventSeqField
            finalizeResponse := draft.finalizeResponse }

/-- Historical replay or conflict, before renewed insertion
conditions. -/
def existingOperation (store : EventStore) (operation : PreparedOperation) :
    Option OperationCommitResult :=
  (store.operations.get? operation.key).map fun stored =>
    if stored.requestDigest = operation.digest then .replayed stored else .conflict stored

/-- Check the frozen predecessor and the non-evicting capacity. -/
def authorizeInsertion (store : EventStore) (operation : PreparedOperation) : Except String Unit :=
  let matched := operation.predecessor.all fun record =>
    (store.operations.get? record.key).any fun stored =>
      some stored.requestDigest == record.requestDigest
        && sameText (.obj stored.response) (.obj record.response)
  if !matched then .error "required predecessor operation mismatch"
  else if operation.capacity.any fun n => decide ((store.operations.items.length : Int) ≥ n) then
    .error "retained operation budget exhausted"
  else .ok ()

/-- Insert one mutation event after those inserted so far. -/
def insertMutation (stamp : Float) (acc : EventStore × List Int) (row : String × Members) :
    EventStore × List Int :=
  let inserted := acc.1.insertEnrolled stamp row.1 row.2
  (inserted.1, acc.2 ++ [inserted.2])

/-- Insert every mutation event, and return their sequences. -/
def insertMutations (store : EventStore) (operation : PreparedOperation) : EventStore × List Int :=
  operation.rows.foldl (insertMutation operation.stamp) (store, [])

/-- Apply the trusted builder to the response. -/
def finalResponse (operation : PreparedOperation) (sequences : List Int) : Except String Members :=
  match operation.responseEventSeqField, operation.finalizeResponse with
  | some field, _ => encodeObject (Dict.put field (.int (sequences.headD 0)) operation.response)
  | none, some finalize => finalize operation.response sequences >>= encodeObject
  | none, none => .ok operation.response

theorem keyed_set {operations : Dict String StoredOperation} {key : String}
    {stored : StoredOperation}
    (h : ∀ key stored, operations.get? key = some stored → stored.operationKey = key)
    (hkey : stored.operationKey = key) (k : String) (found : StoredOperation)
    (hfound : (operations.set key stored).get? k = some found) : found.operationKey = k := by
  rw [Dict.get?_set] at hfound
  split at hfound
  · rename_i heq
    cases hfound
    exact hkey.trans heq
  · exact h k found hfound

/-- Insert the compatibility row, the operation and its outbox row. -/
def insertCompletion (store : EventStore) (operation : PreparedOperation) (sequences : List Int) :
    Except String (EventStore × StoredOperation) := do
  let response ← finalResponse operation sequences
  let compatibility : Members :=
    [("key", .str operation.key), ("request_digest", .str operation.digest),
      ("response", .obj response), ("first_event_seq", .int (sequences.headD 0)),
      ("commit_seq", .int (sequences.getLastD 0 + 1))]
  let (store, commitSeq) := store.insertEvent operation.stamp "idempotency" compatibility
  let stored : StoredOperation :=
    { operationKey := operation.key
      requestDigest := operation.digest
      response
      firstEventSeq := sequences.headD 0
      commitSeq
      committedAt := operation.stamp }
  .ok
    ({ store with
        operations := store.operations.set operation.key stored
        operationOutbox := store.operationOutbox.set operation.key (operation.intent, none)
        keyed := keyed_set store.keyed rfl },
      stored)

/-- The transaction after its replay lookup found nothing. -/
def insertOperation (store : EventStore) (operation : PreparedOperation) :
    Except String (EventStore × StoredOperation) := do
  authorizeInsertion store operation
  let (store, sequences) := insertMutations store operation
  insertCompletion store operation sequences

/-- Own the one atomic boundary: whatever raises before the commit, a
`fault` of the storage included, rolls every row back. -/
def commitPrepared (store : EventStore) (operation : PreparedOperation) (fault : Option Raised) :
    EventStore × Except Raised OperationCommitResult :=
  match fault with
  | some failure => (store, .error failure)
  | none =>
    match existingOperation store operation with
    | some existing => (store, .ok existing)
    | none =>
      match insertOperation store operation with
      | .error error => (store, .error (.error error))
      | .ok (store, stored) => (store, .ok (.inserted stored))

/-- Commit a keyed mutation, its exact response and its evidence intent
together. -/
def commitOperation (store : EventStore) (key digest : String) (draft : OperationDraft)
    (stamp : Float) (fault : Option Raised) : EventStore × Except Raised OperationCommitResult :=
  match prepareOperation key digest draft stamp with
  | .error error => (store, .error (.error error))
  | .ok operation => commitPrepared store operation fault

/-! ## What a commit can do -/

/-- A commit attempt of `key` under `digest`: it raised and left the store
alone, or found the stored operation of the key, or stored the first. -/
inductive Committed (store : EventStore) (key digest : String) :
    EventStore × Except Raised OperationCommitResult → Prop
  | failed (failure : Raised) : Committed store key digest (store, .error failure)
  | replayed (stored : StoredOperation) (hstored : store.operations.get? key = some stored)
      (hdigest : stored.requestDigest = digest) :
      Committed store key digest (store, .ok (.replayed stored))
  | conflict (stored : StoredOperation) (hstored : store.operations.get? key = some stored)
      (hdigest : stored.requestDigest ≠ digest) :
      Committed store key digest (store, .ok (.conflict stored))
  | inserted (store' : EventStore) (stored : StoredOperation)
      (hnew : store.operations.get? key = none)
      (hoperations : store'.operations = store.operations.set key stored)
      (hkey : stored.operationKey = key) (hdigest : stored.requestDigest = digest) :
      Committed store key digest (store', .ok (.inserted stored))

theorem insertMutations_operations (store : EventStore) (operation : PreparedOperation) :
    (insertMutations store operation).1.operations = store.operations := by
  have fold (rows : List (String × Members)) (acc : EventStore × List Int) :
      (rows.foldl (insertMutation operation.stamp) acc).1.operations = acc.1.operations := by
    induction rows generalizing acc with
    | nil => rfl
    | cons row rest ih =>
      rw [List.foldl_cons, ih]
      exact EventStore.insertEnrolled_operations ..
  exact fold operation.rows (store, [])

theorem insertOperation_ok {store store' : EventStore} {operation : PreparedOperation}
    {stored : StoredOperation} (h : insertOperation store operation = .ok (store', stored)) :
    store'.operations = store.operations.set operation.key stored ∧
      stored.operationKey = operation.key ∧ stored.requestDigest = operation.digest := by
  obtain ⟨-, -, h⟩ := Outcome.bind_ok h
  obtain ⟨response, -, h⟩ := Outcome.bind_ok h
  cases h
  exact ⟨congrArg (Dict.set · _ _) (insertMutations_operations store operation), rfl, rfl⟩

theorem prepareOperation_ok {key digest : String} {draft : OperationDraft} {stamp : Float}
    {operation : PreparedOperation}
    (h : prepareOperation key digest draft stamp = .ok operation) :
    operation.key = key ∧ operation.digest = digest := by
  unfold prepareOperation at h
  split at h
  · cases h
  obtain ⟨predecessor, -, h⟩ := Outcome.bind_ok h
  split at h
  · cases h
  split at h
  · cases h
  split at h
  · cases h
  obtain ⟨rows, -, h⟩ := Outcome.bind_ok h
  split at h
  · cases h
  obtain ⟨response, -, h⟩ := Outcome.bind_ok h
  obtain ⟨intent, -, h⟩ := Outcome.bind_ok h
  cases h
  exact ⟨rfl, rfl⟩

/-- Every commit attempt is one of the listed outcomes. -/
theorem commitOperation_committed (store : EventStore) (key digest : String)
    (draft : OperationDraft) (stamp : Float) (fault : Option Raised) :
    Committed store key digest (commitOperation store key digest draft stamp fault) := by
  unfold commitOperation
  split
  · exact .failed _
  rename_i operation hprepared
  obtain ⟨rfl, rfl⟩ := prepareOperation_ok hprepared
  unfold commitPrepared
  split
  · exact .failed _
  unfold existingOperation
  cases hstored : store.operations.get? operation.key with
  | some stored =>
    rw [Option.map_some]
    dsimp only
    split
    · rename_i hdigest
      exact .replayed stored hstored hdigest
    · rename_i hdigest
      exact .conflict stored hstored hdigest
  | none =>
    rw [Option.map_none]
    dsimp only
    split
    · exact .failed _
    · rename_i hinserted
      obtain ⟨hoperations, hkey, hdigest⟩ := insertOperation_ok hinserted
      exact .inserted _ _ hstored hoperations hkey hdigest

end SynapseChannel
