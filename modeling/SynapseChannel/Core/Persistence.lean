import SynapseChannel.Lib.Json

/-!
# Core — Persistence

The tables of the event store: the append-only log with its high-water
sequence, the completed keyed operations, and the two outboxes. A row
holds its decoded JSON; the stored text and its digest are functions of
it and are left out.
-/

namespace SynapseChannel

open Py

/-- A durable event: its sequence, timestamp, kind and decoded payload. -/
structure StoredEvent where
  seq : Int
  ts : Float
  kind : String
  payload : Members

/-- One durable keyed operation and its exact replay response. -/
structure StoredOperation where
  operationKey : String
  requestDigest : String
  response : Members
  firstEventSeq : Int
  commitSeq : Int
  committedAt : Float

theorem noOperations : ∀ key stored,
    (Dict.empty : Dict String StoredOperation).get? key = some stored →
      stored.operationKey = key := by
  simp

/-- The store's tables. An outbox row is pending while it has no
receipt. -/
structure EventStore where
  events : List StoredEvent := []
  /-- The last sequence ever assigned; deletes never lower it. -/
  lastSeq : Int := 0
  operations : Dict String StoredOperation := Dict.empty
  operationOutbox : Dict String (Members × Option String) := Dict.empty
  aefKinds : List String := []
  aefOutbox : List (Int × Option String) := []
  /-- The operation key is the table's primary key. -/
  keyed : ∀ key stored, operations.get? key = some stored → stored.operationKey = key := by
    exact noOperations

namespace EventStore

/-- Insert one event row and return its sequence. -/
def insertEvent (store : EventStore) (ts : Float) (kind : String) (payload : Members) :
    EventStore × Int :=
  let seq := store.lastSeq + 1
  ({ store with events := store.events ++ [⟨seq, ts, kind, payload⟩], lastSeq := seq }, seq)

/-- Insert one event row, and queue it when its kind is enrolled. -/
def insertEnrolled (store : EventStore) (ts : Float) (kind : String) (payload : Members) :
    EventStore × Int :=
  let (store, seq) := store.insertEvent ts kind payload
  if kind ∈ store.aefKinds then
    ({ store with aefOutbox := store.aefOutbox ++ [(seq, none)] }, seq)
  else (store, seq)

@[simp] theorem insertEnrolled_operations (store : EventStore) (ts : Float) (kind : String)
    (payload : Members) : (store.insertEnrolled ts kind payload).1.operations = store.operations := by
  unfold insertEnrolled
  dsimp only
  split <;> rfl

end EventStore

/-! ## Finite JSON -/

mutual

/-- Whether every float of a value is finite; no other value is JSON
text. -/
def isFiniteJson : Json → Bool
  | .float x => x.isFinite
  | .arr items => areFiniteItems items
  | .obj members => areFiniteMembers members
  | _ => true

def areFiniteItems : List Json → Bool
  | [] => true
  | v :: rest => isFiniteJson v && areFiniteItems rest

def areFiniteMembers : List (String × Json) → Bool
  | [] => true
  | (_, v) :: rest => isFiniteJson v && areFiniteMembers rest

end

mutual

/-- Whether two values have the same text once the members of every
object are sorted by name. -/
def sameText : Json → Json → Bool
  | .null, .null => true
  | .bool a, .bool b => a == b
  | .int a, .int b => a == b
  | .float a, .float b => decide (a = b)
  | .str a, .str b => a == b
  | .arr a, .arr b => sameTextItems a b
  | .obj a, .obj b => a.length == b.length && sameTextMembers a b
  | _, _ => false

def sameTextItems : List Json → List Json → Bool
  | [], [] => true
  | v :: rest, w :: rest' => sameText v w && sameTextItems rest rest'
  | _, _ => false

def sameTextMembers : List (String × Json) → List (String × Json) → Bool
  | [], _ => true
  | (name, v) :: rest, other =>
    (match Dict.find name other with
      | some w => sameText v w
      | none => false) && sameTextMembers rest other

end

/-- Encode one JSON object and reject non-finite data; the object stands
for its text. -/
def encodeObject (value : Members) : Except String Members :=
  if areFiniteMembers value then .ok value
  else .error "Out of range float values are not JSON compliant"

end SynapseChannel
