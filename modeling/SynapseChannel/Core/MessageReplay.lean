import SynapseChannel.Core.State
import SynapseChannel.Lib.FloatRound
import SynapseChannel.Lib.ReplayWindow

/-!
# Core — MessageReplay

The nonces of authenticated frames, as a process remembers them and as the
durable ledger keeps them, and the sequence floors of their senders. Every
admission is one atomic step of the store that decides it.
-/

namespace SynapseChannel.MessageAuth

open Py

inductive VerificationResult where
  | ok
  | missing
  | expired
  | unknownKey
  | revokedKey
  | badAuthentication
  | senderMismatch
  | sequenceMismatch
  | replayed
  deriving DecidableEq

inductive SequenceFloorMode where
  | off
  | compat
  | strict
  deriving DecidableEq

inductive DurableAdmitResult where
  | accepted
  | replayed
  | sequenceMismatch
  | capacity
  deriving DecidableEq

/-- The replay identity; the sequence is no part of it. -/
structure Identity where
  keyId : String
  sender : String
  nonce : String
  deriving DecidableEq

/-- What a sequence floor belongs to. -/
def Identity.floorKey (id : Identity) : String × String := (id.keyId, id.sender)

/-! ## The durable ledger -/

structure NonceRow where
  sequence : Int
  authTimestamp : Float

structure FloorRow where
  floorSequence : Int
  updatedAt : Float

/-- The tables `message_auth_nonces` and `message_auth_sequence_floors`. -/
structure Ledger where
  nonces : Dict Identity NonceRow := .empty
  floors : Dict (String × String) FloorRow := .empty

/-- How a driver can fail in a transaction. -/
inductive DriverFault where
  | rolledBack
  /-- The commit took effect and its answer was lost. -/
  | committed
  deriving DecidableEq

inductive StoreFailure where
  | valueError
  | driverError
  deriving DecidableEq

/-- What a process holds of the ledger: its limit and its window. -/
structure DurableMessageAuthReplayStore where
  maxEntries : Nat
  windowSeconds : Float

def DurableMessageAuthReplayStore.new (maxEntries : Int) (windowSeconds : Float) :
    DurableMessageAuthReplayStore where
  maxEntries := (max maxEntries 1).toNat
  windowSeconds := pyMax windowSeconds 0.001

/-- `DELETE … WHERE auth_timestamp < cutoff`. -/
def Ledger.deleteBefore (ledger : Ledger) (cutoff : Float) : Ledger :=
  { ledger with
    nonces := ledger.nonces.filterMapValues fun row =>
      if row.authTimestamp < cutoff then none else some row }

def Ledger.floor (ledger : Ledger) (key : String × String) : Option Int :=
  (ledger.floors.get? key).map (·.floorSequence)

/-- Whether `sequence` would raise the floor. -/
def raises (floor : Option Int) (sequence : Int) : Bool := floor.all (· < sequence)

/-- The largest integer a column holds. -/
def maxInteger : Int := 2 ^ 63 - 1

/-- The inserts of an admission; `none` where a column refuses its value (a number that is
not one is a `NULL`). -/
def Ledger.insert (ledger : Ledger) (id : Identity) (sequence : Int) (timestamp now : Float)
    (mode : SequenceFloorMode) : Option Ledger :=
  if maxInteger < sequence ∨ timestamp.isNaN then none
  else
    let nonces := ledger.nonces.set id ⟨sequence, timestamp⟩
    if mode ≠ .off ∧ raises (ledger.floor id.floorKey) sequence then
      if now.isNaN then none
      else some { nonces, floors := ledger.floors.set id.floorKey ⟨sequence, now⟩ }
    else some { ledger with nonces }

/-- One immediate transaction. A refusal rolls the eviction back with the rest. -/
def DurableMessageAuthReplayStore.admitOne (store : DurableMessageAuthReplayStore) (ledger : Ledger)
    (id : Identity) (sequence : Int) (timestamp now : Float) (mode : SequenceFloorMode)
    (fault : Option DriverFault) : Except StoreFailure DurableAdmitResult × Ledger :=
  if id.keyId = "" ∨ id.sender = "" ∨ id.nonce = "" ∨ sequence < 1 then
    (.error .valueError, ledger)
  else if fault = some .rolledBack then (.error .driverError, ledger)
  else
    let live := ledger.deleteBefore (now - store.windowSeconds)
    if live.nonces.contains id then (.ok .replayed, ledger)
    else if mode = .strict ∧ raises (live.floor id.floorKey) sequence = false then
      (.ok .sequenceMismatch, ledger)
    else if store.maxEntries ≤ live.nonces.keys.length then (.ok .capacity, ledger)
    else
      match live.insert id sequence timestamp now mode with
      | none => (.error .driverError, ledger)
      | some ledger' =>
        (if fault = some .committed then .error .driverError else .ok .accepted, ledger')

/-! ## The cache of a process -/

structure MessageReplayCache where
  windowSeconds : Float
  futureSkewSeconds : Float
  maxEntries : Nat
  durable : Option DurableMessageAuthReplayStore
  sequenceFloorMode : SequenceFloorMode
  /-- The timestamps of the identities, oldest first. -/
  entries : Dict Identity Float
  floors : Dict (String × String) Int

def MessageReplayCache.new (windowSeconds : Float) (maxEntries : Int) (futureSkewSeconds : Float)
    (durable : Option DurableMessageAuthReplayStore) (sequenceFloorMode : SequenceFloorMode) :
    MessageReplayCache where
  windowSeconds := pyMax windowSeconds 0.001
  futureSkewSeconds := pyMax futureSkewSeconds 0.0
  maxEntries := (max maxEntries 1).toNat
  durable
  sequenceFloorMode
  entries := .empty
  floors := .empty

/-- `_evict`. -/
def MessageReplayCache.evict (cache : MessageReplayCache) (now : Float) : MessageReplayCache :=
  { cache with
    entries := cache.entries.filterMapValues fun timestamp =>
      if timestamp < now - cache.windowSeconds then none else some timestamp }

/-- `_record_memory` after its eviction: a known identity keeps its timestamp and becomes the
newest. Behind a durable store the oldest entry makes room. -/
def MessageReplayCache.remember (cache : MessageReplayCache) (id : Identity) (timestamp : Float)
    (requireCapacity : Bool) : Option (Dict Identity Float) :=
  match cache.entries.get? id with
  | some known => some ((cache.entries.erase id).set id known)
  | none =>
    if cache.entries.keys.length < cache.maxEntries then some (cache.entries.set id timestamp)
    else if requireCapacity then none
    else some ((cache.entries.dropFirst 1).set id timestamp)

def MessageReplayCache.recordMemory (cache : MessageReplayCache) (id : Identity) (sequence : Int)
    (timestamp now : Float) (requireCapacity : Bool) : MessageReplayCache :=
  let cache := cache.evict now
  match cache.remember id timestamp requireCapacity with
  | none => cache
  | some entries =>
    { cache with
      entries
      floors :=
        if cache.sequenceFloorMode ≠ .off ∧
            raises (cache.floors.get? id.floorKey) sequence then
          cache.floors.set id.floorKey sequence
        else cache.floors }

/-- `admit`: `none` where the identity is admitted. -/
def MessageReplayCache.admitOne (cache : MessageReplayCache) (ledger : Ledger) (id : Identity)
    (sequence : Int) (timestamp now : Float) (fault : Option DriverFault) :
    Option VerificationResult × MessageReplayCache × Ledger :=
  match cache.durable with
  | some store =>
    match store.admitOne ledger id sequence timestamp now cache.sequenceFloorMode fault with
    | (.error _, ledger') => (some .replayed, cache, ledger')
    | (.ok .replayed, ledger') => (some .replayed, cache, ledger')
    | (.ok .sequenceMismatch, ledger') => (some .sequenceMismatch, cache, ledger')
    | (.ok .capacity, ledger') => (some .replayed, cache, ledger')
    | (.ok .accepted, ledger') =>
      (none, cache.recordMemory id sequence timestamp now false, ledger')
  | none =>
    let live := cache.evict now
    if live.sequenceFloorMode = .strict ∧
        raises (live.floors.get? id.floorKey) sequence = false then
      (some .sequenceMismatch, live, ledger)
    else if live.entries.contains id then (some .replayed, live, ledger)
    else if live.maxEntries ≤ live.entries.keys.length then (some .replayed, live, ledger)
    else (none, live.recordMemory id sequence timestamp now true, ledger)

end SynapseChannel.MessageAuth
