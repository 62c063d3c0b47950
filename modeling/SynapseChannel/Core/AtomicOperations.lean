import SynapseChannel.Core.Persistence

/-!
# Core — AtomicOperations

Records, drafts and outcomes of keyed operations, and the bounded cache
of completed ones in front of the durable table.
-/

namespace SynapseChannel

open Py

/-- What a call of the actor or of its store raises. -/
inductive Raised where
  | cancelled
  | error (message : String)

/-- One completed operation cached in memory or loaded from durable
storage; a legacy record has no digest. -/
structure OperationRecord where
  key : String
  requestDigest : Option String
  response : Members

/-- The record of a durable operation. -/
def StoredOperation.record (stored : StoredOperation) : OperationRecord where
  key := stored.operationKey
  requestDigest := some stored.requestDigest
  response := stored.response

/-- Complete material needed to commit one winning operation. -/
structure OperationDraft where
  response : Members
  events : List (String × Members)
  intent : Members
  responseEventSeqField : Option String := none
  /-- Builds the final response from the draft and the event sequences. -/
  finalizeResponse : Option (Members → List Int → Except String Members) := none

/-- Outcome returned by the serialized operation actor. -/
inductive AtomicExecution (ρ : Type) where
  | inserted (mutation : ρ) (response : Members)
  | replayed (response : Members)
  | conflict (response : Members)
  | uncommitted (mutation : ρ)

/-- A bounded key to record cache with least-recently-used eviction; the
last entry is the most recent. -/
structure IdempotencyCache where
  maxKeys : Nat
  store : Dict String OperationRecord := Dict.empty

namespace IdempotencyCache

/-- Move a present key to the end. -/
def moveToEnd (cache : IdempotencyCache) (key : String) (record : OperationRecord) :
    IdempotencyCache :=
  { cache with store := (cache.store.erase key).set key record }

/-- The record of a key, marked most recent. -/
def getRecord (cache : IdempotencyCache) (key : String) :
    IdempotencyCache × Option OperationRecord :=
  match cache.store.get? key with
  | none => (cache, none)
  | some record => (cache.moveToEnd key record, some record)

/-- Remember a record as the most recent, evicting the oldest ones over
the bound. -/
def put (cache : IdempotencyCache) (record : OperationRecord) : IdempotencyCache :=
  let store := (cache.moveToEnd record.key record).store
  { cache with store := store.dropFirst (store.items.length - cache.maxKeys) }

theorem moveToEnd_get? (cache : IdempotencyCache) (key other : String) (record : OperationRecord) :
    (cache.moveToEnd key record).store.get? other
      = if key = other then some record else cache.store.get? other := by
  rw [moveToEnd, Dict.get?_set]
  split
  · rfl
  · rename_i hne
    exact Dict.get?_erase_ne _ (Ne.symm hne)

/-- A lookup changes no record. -/
theorem getRecord_same (cache : IdempotencyCache) (key : String) :
    (cache.getRecord key).1.store.Same cache.store := by
  intro other
  unfold getRecord
  split
  · rfl
  · rename_i record hrecord
    rw [moveToEnd_get?]
    split
    · rename_i heq
      rw [← heq, hrecord]
    · rfl

@[simp] theorem getRecord_snd (cache : IdempotencyCache) (key : String) :
    (cache.getRecord key).2 = cache.store.get? key := by
  unfold getRecord
  split <;> simp_all

/-- After a `put` the key has the new record or none, and every other key
its old one or none. -/
theorem put_get? {cache : IdempotencyCache} {record found : OperationRecord} {key : String}
    (h : (cache.put record).store.get? key = some found) :
    (record.key = key ∧ found = record) ∨
      (record.key ≠ key ∧ cache.store.get? key = some found) := by
  have hkept := Dict.Sub.dropFirst _ _ key found h
  rw [moveToEnd_get?] at hkept
  split at hkept
  · rename_i heq
    exact .inl ⟨heq, (Option.some.inj hkept).symm⟩
  · rename_i hne
    exact .inr ⟨hne, hkept⟩

end IdempotencyCache

/-- A cached or durable operation record; a durable one is cached. -/
def lookupOperation (cache : IdempotencyCache) (store : EventStore) (key : String) :
    IdempotencyCache × Option OperationRecord :=
  match cache.getRecord key with
  | (cache, some record) => (cache, some record)
  | (cache, none) =>
    match store.operations.get? key with
    | none => (cache, none)
    | some stored => (cache.put stored.record, some stored.record)

end SynapseChannel
