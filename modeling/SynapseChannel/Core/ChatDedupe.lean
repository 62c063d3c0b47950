import SynapseChannel.Core.NumericCoercion
import SynapseChannel.Lib.JsonText

/-!
# Core — ChatDedupe

The bounded memory of accepted chats, keyed by `(sender, client_msg_id)`,
and what of a chat frame it compares.
-/

namespace SynapseChannel.Chat

open Py
open Framing (utf8)

/-! ## Frames -/

/-- `data.pop(key, None)`. -/
def without (data : Members) (key : String) : Members := data.filter fun m => m.1 != key

/-- `name[:-len(suffix)]` where `name` is longer than the suffix it ends in. -/
def dropSuffix (name suffix : String) : Option String :=
  if endsWith name suffix ∧ len suffix < len name then
    some (String.ofList (name.toList.take (len name - len suffix)))
  else none

/-- The owner of a receiver sidecar, or the name itself. -/
def waiterOwner (name : String) : String :=
  match dropSuffix name "-pane-rx" with
  | some owner => owner
  | none => (dropSuffix name "-rx").getD name

def waiterSidecarNames (owner : String) : List String := [owner ++ "-rx", owner ++ "-pane-rx"]

/-- A finite client send time, if there is one. -/
def clientTimestamp [Builtins] (raw : Json) : Option Float :=
  match raw with
  | .int _ => if raw.truthy then safeFloat raw none false else none
  | .float _ => if raw.truthy then safeFloat raw none false else none
  | _ => none

/-- Stamp hub time; a finite client time is kept as advisory. -/
def stampChatTimes [Builtins] (data : Members) (now : Float) : Members :=
  let advisory := clientTimestamp (data.get "timestamp")
  let data := Dict.put "timestamp" (.float now) (without data "client_timestamp")
  match advisory with
  | some instant => Dict.put "client_timestamp" (.float instant) data
  | none => data

def maxClientMsgIdBytes : Nat := 256

/-- Keep one bounded printable client id on the frame, or none. -/
def normalizeClientMsgId (data : Members) : String × Members :=
  match data.get "client_msg_id" with
  | .str raw =>
    let value := strip raw
    if value = "" ∨ maxClientMsgIdBytes < (utf8 value).length ∨
        (value.toList.any fun c => c.toNat < 0x20 || c.toNat == 0x7f) then
      ("", without data "client_msg_id")
    else (value, Dict.put "client_msg_id" (.str value) data)
  | _ => ("", without data "client_msg_id")

def volatileFields : List String :=
  ["type", "sender", "timestamp", "client_timestamp", "msg_id", "seq", "hub_id", "idem_key",
    "auth", "signature", "token", "duplicate", "forward_id"]

/-- The text of what a chat says; transport and hub stamps are left out. -/
def chatContent [Builtins] (frame : Members) : String :=
  let content := frame.filter fun m => !volatileFields.contains m.1
  let target := waiterOwner ((frame.get "target").or (.str "all")).toStr
  dumps (.obj (Dict.put "target" (.str target) content))

/-- `chat_digest`, of the text of a chat. -/
def contentDigest [Builtins] (content : String) : String := Builtins.sha256Hex (utf8 content)

/-! ## The memory -/

def recalledFields : List String := ["msg_id", "seq", "channel", "forward_id"]

/-- The fields of an accepted frame that a duplicate notice repeats. -/
def recalled (frame : Members) : Members :=
  recalledFields.filterMap fun field => (frame.get? field).map (field, ·)

structure Entry where
  digest : String
  acceptedAt : Float
  frame : Members

inductive ChatDedupeVerdict where
  | new
  | duplicate (original : Members)
  | conflict

structure ChatDedupe where
  capacity : Nat
  windowSeconds : Float
  entries : Dict (String × String) Entry := Dict.empty
  capacity_pos : 1 ≤ capacity
  window_pos : 0 < windowSeconds

namespace ChatDedupe

/-- 4096 pairs for a day. -/
def standard : ChatDedupe where
  capacity := 4096
  windowSeconds := 86400
  capacity_pos := by decide
  window_pos := by decide +kernel

/-- An entry no longer answers a retry. -/
def expired (d : ChatDedupe) (acceptedAt now : Float) : Bool :=
  d.windowSeconds < now - acceptedAt

/-- Classify an incoming chat against what this sender already sent. -/
def check (d : ChatDedupe) (key : String × String) (digest : String) (now : Float) :
    ChatDedupeVerdict :=
  match d.entries.get? key with
  | none => .new
  | some entry =>
    if d.expired entry.acceptedAt now then .new
    else if entry.digest ≠ digest then .conflict
    else .duplicate entry.frame

/-- Record an accepted chat, evicting the oldest pairs beyond capacity. -/
def remember (d : ChatDedupe) (key : String × String) (digest : String) (frame : Members)
    (acceptedAt : Float) : ChatDedupe :=
  let entries := (d.entries.erase key).set key ⟨digest, acceptedAt, recalled frame⟩
  { d with entries := entries.dropFirst (entries.items.length - d.capacity) }

theorem get?_remember_ne (d : ChatDedupe) {key other : String × String} {digest : String}
    {frame : Members} {acceptedAt : Float} {entry : Entry} (hne : other ≠ key)
    (h : (d.remember key digest frame acceptedAt).entries.get? other = some entry) :
    d.entries.get? other = some entry := by
  have hset := Dict.Sub.dropFirst _ _ other entry h
  rw [Dict.get?_set_ne _ _ (Ne.symm hne), Dict.get?_erase_ne _ hne] at hset
  exact hset

/-- The pair just remembered is the newest, and is kept. -/
theorem get?_remember_self (d : ChatDedupe) (key : String × String) (digest : String)
    (frame : Members) (acceptedAt : Float) :
    (d.remember key digest frame acceptedAt).entries.get? key =
      some ⟨digest, acceptedAt, recalled frame⟩ := by
  rw [← Dict.mem_items_iff]
  have habsent : (d.entries.erase key).get? key = none := Dict.get?_erase_self _ _
  have hitems := Dict.items_set_of_none habsent ⟨digest, acceptedAt, recalled frame⟩
  show _ ∈ List.drop _ ((d.entries.erase key).set key _).items
  rw [hitems, List.length_append, List.length_singleton]
  have hroom := d.capacity_pos
  rw [List.drop_append_of_le_length (by omega)]
  exact List.mem_append_right _ (List.mem_singleton_self _)

end ChatDedupe

end SynapseChannel.Chat
