import SynapseChannel.Lib.Base64
import SynapseChannel.Lib.Json
import SynapseChannel.Lib.Outcome
import SynapseChannel.Lib.Sorted

/-!
# Core — IdentityTrust

Identity keys, the trust document that stores them, and the hub-owned
overlay of enrolled keys merged into the operator's bundle. A file is its
decoded JSON document.
-/

namespace SynapseChannel.Identity

open Py Outcome
open Framing (Bytes)

/-- One Ed25519 verification key. -/
structure EventSignatureKey where
  keyId : String
  publicKey : Bytes
  senders : Finset String
  projects : Finset String := ∅
  expiresAt : Option Float := none
  revoked : Bool := false

abbrev Keys := Dict String EventSignatureKey

def rawPublicKeyBytes : Nat := 32

/-! ## The trust document -/

section
variable [Builtins]

/-- A field as a set of non-empty texts. -/
def stringSet (value : Json) (keyId field : String) : Except String (Finset String) :=
  match value with
  | .null => .ok ∅
  | .arr items =>
    .ok ((items.map fun item => strip item.toStr).filter (· ≠ "")).toFinset
  | _ =>
    .error ("identity key " ++ Builtins.repr (.str keyId) ++ " field " ++
      Builtins.repr (.str field) ++ " must be a list")

/-- A key's expiry as a finite number. -/
def optionalExpiry (value : Json) (keyId : String) : Except String (Option Float) :=
  let finite (x : Float) : Except String (Option Float) :=
    if x.isFinite then .ok (some x)
    else .error ("identity key " ++ Builtins.repr (.str keyId) ++ " expires_at must be finite")
  match value with
  | .null => .ok none
  | .int n =>
    if (Float.ofInt n).isFinite then finite (Float.ofInt n)
    else .error "int too large to convert to float"
  | .float x => finite x
  | _ => .error ("identity key " ++ Builtins.repr (.str keyId) ++ " expires_at must be a number")

/-- Parse one identity trust entry. -/
def parseKey (entry : Json) (index : Nat) : Except String EventSignatureKey :=
  match entry with
  | .obj data =>
    let keyId := strip (Members.getD data "key_id" (.str "")).toStr
    if keyId = "" then
      .error ("identity key " ++ toString index ++ " needs a non-empty key_id")
    else
      match Base64.decode (strip (Members.getD data "public_key" (.str "")).toStr) with
      | none =>
        .error ("identity key " ++ Builtins.repr (.str keyId) ++ " has an invalid base64 public_key")
      | some publicKey =>
        if publicKey.length ≠ rawPublicKeyBytes then
          .error ("identity key " ++ Builtins.repr (.str keyId) ++
            " public_key must be 32 raw Ed25519 bytes")
        else do
          let senders ← stringSet (Members.get data "senders") keyId "senders"
          if senders = ∅ then
            .error ("identity key " ++ Builtins.repr (.str keyId) ++
              " needs at least one sender it may prove")
          else
            match Members.getD data "revoked" (.bool false) with
            | .bool revoked => do
              let projects ← stringSet (Members.get data "projects") keyId "projects"
              let expiresAt ← optionalExpiry (Members.get data "expires_at") keyId
              return {
                keyId := keyId
                publicKey := publicKey
                senders := senders
                projects := projects
                expiresAt := expiresAt
                revoked := revoked }
            | _ =>
              .error ("identity key " ++ Builtins.repr (.str keyId) ++ " revoked must be a boolean")
  | _ => .error ("identity key " ++ toString index ++ " must be an object")

/-- Add one entry to the keys parsed so far. -/
def parseEntry (keys : Keys) (item : Json × Nat) : Except String Keys := do
  let key ← parseKey item.1 item.2
  match keys.get? key.keyId with
  | some _ =>
    .error ("duplicate key id " ++ Builtins.repr (.str key.keyId) ++ " in identity trust bundle")
  | none => return keys.set key.keyId key

/-- Parse a decoded identity trust document into keys by id. -/
def parseIdentityTrustDocument (data : Json) : Except String Keys :=
  match data with
  | .obj members =>
    match Members.get members "keys" with
    | .arr entries => entries.zipIdx.foldlM parseEntry Dict.empty
    | _ => .error "identity trust bundle must be a mapping with a 'keys' list"
  | _ => .error "identity trust bundle must be a mapping with a 'keys' list"

/-- The keys in the overlay store; an absent file holds none. -/
def loadEnrolledKeys : Option Json → Except String Keys
  | none => .ok Dict.empty
  | some document => parseIdentityTrustDocument document

end

def sortedTexts (texts : Finset String) : List Json := (texts.sort (· ≤ ·)).map Json.str

/-- A key as the store keeps it: projects and expiry only where it has them. -/
def entryMembers (key : EventSignatureKey) : Members :=
  [("key_id", .str key.keyId), ("public_key", .str (Base64.encode key.publicKey)),
    ("senders", .arr (sortedTexts key.senders)), ("revoked", .bool key.revoked)] ++
  (if key.projects = ∅ then [] else [("projects", .arr (sortedTexts key.projects))]) ++
  (key.expiresAt.map fun expiresAt => ("expires_at", Json.float expiresAt)).toList

def entryOf (key : EventSignatureKey) : Json := .obj (entryMembers key)

/-- The keys in the order of their ids. -/
def sortedKeys (enrolled : Keys) : List EventSignatureKey :=
  (sortedBy (fun a b => decide (a < b)) Prod.fst enrolled.items).map Prod.snd

/-- The document `write_enrolled_keys` replaces the file with. -/
def storeDocument (enrolled : Keys) : Json :=
  .obj [("keys", .arr ((sortedKeys enrolled).map entryOf))]

/-! ## Round trip -/

/-- What a key in the store satisfies: the parser takes its fields as they are. -/
structure EventSignatureKey.Stored (key : EventSignatureKey) : Prop where
  keyId : strip key.keyId = key.keyId
  keyId_ne : key.keyId ≠ ""
  publicKey : key.publicKey.length = rawPublicKeyBytes
  named : key.senders ≠ ∅
  senders : ∀ name ∈ key.senders, strip name = name ∧ name ≠ ""
  projects : ∀ project ∈ key.projects, strip project = project ∧ project ≠ ""
  expiresAt : ∀ x, key.expiresAt = some x → x.isFinite

theorem get_projects_entry (key : EventSignatureKey) :
    Members.get (entryMembers key) "projects" =
      if key.projects = ∅ then .null else .arr (sortedTexts key.projects) := by
  unfold entryMembers
  by_cases hprojects : key.projects = ∅
  · cases hexp : key.expiresAt <;> simp [Members.get, Members.getD, Members.get?, Dict.find,
      hprojects]
  · simp [Members.get, Members.getD, Members.get?, Dict.find, hprojects]

theorem get_expires_entry (key : EventSignatureKey) :
    Members.get (entryMembers key) "expires_at" = (key.expiresAt.map Json.float).getD .null := by
  unfold entryMembers
  by_cases hprojects : key.projects = ∅ <;> cases hexp : key.expiresAt <;>
    simp [Members.get, Members.getD, Members.get?, Dict.find, hprojects]

section
variable [Builtins]

theorem stringSet_sortedTexts {texts : Finset String}
    (h : ∀ text ∈ texts, strip text = text ∧ text ≠ "") (keyId field : String) :
    stringSet (.arr (sortedTexts texts)) keyId field = .ok texts := by
  have hmap : (sortedTexts texts).map (fun item => strip item.toStr) = texts.sort (· ≤ ·) := by
    rw [sortedTexts, List.map_map]
    refine (List.map_congr_left fun text htext => ?_).trans (List.map_id _)
    exact (h text ((Finset.mem_sort _).mp htext)).1
  have hfilter : (texts.sort (· ≤ ·)).filter (· ≠ "") = texts.sort (· ≤ ·) := by
    apply List.filter_eq_self.mpr
    intro text htext
    simpa using (h text ((Finset.mem_sort _).mp htext)).2
  show Except.ok ((((sortedTexts texts).map fun item => strip item.toStr).filter
    (· ≠ "")).toFinset) = _
  rw [hmap, hfilter, Finset.sort_toFinset]

theorem optionalExpiry_float {expiresAt : Option Float} (h : ∀ x, expiresAt = some x → x.isFinite)
    (keyId : String) :
    optionalExpiry ((expiresAt.map Json.float).getD .null) keyId = .ok expiresAt := by
  cases expiresAt with
  | none => rfl
  | some x => exact if_pos (h x rfl)

theorem stringSet_projects {key : EventSignatureKey} (h : key.Stored) :
    stringSet (if key.projects = ∅ then .null else .arr (sortedTexts key.projects)) key.keyId
      "projects" = .ok key.projects := by
  by_cases hprojects : key.projects = ∅
  · rw [if_pos hprojects, hprojects]
    rfl
  · rw [if_neg hprojects]
    exact stringSet_sortedTexts h.projects _ _

theorem parseKey_entryOf {key : EventSignatureKey} (h : key.Stored) (index : Nat) :
    parseKey (entryOf key) index = .ok key := by
  have hid : Members.getD (entryMembers key) "key_id" (.str "") = .str key.keyId := rfl
  have hpublic : Members.getD (entryMembers key) "public_key" (.str "") =
      .str (Base64.encode key.publicKey) := rfl
  have hsenders : Members.get (entryMembers key) "senders" = .arr (sortedTexts key.senders) := rfl
  have hrevoked : Members.getD (entryMembers key) "revoked" (.bool false) =
      .bool key.revoked := rfl
  unfold parseKey entryOf
  simp only [hid, hpublic, hsenders, hrevoked, Json.toStr, h.keyId, if_neg h.keyId_ne,
    Base64.strip_encode, Base64.decode_encode, h.publicKey, ne_eq, not_true_eq_false, if_false]
  apply bind_of_ok (stringSet_sortedTexts h.senders _ _)
  rw [if_neg h.named]
  apply bind_of_ok (a := key.projects)
  · rw [get_projects_entry]
    exact stringSet_projects h
  · apply bind_of_ok (a := key.expiresAt)
    · rw [get_expires_entry]
      exact optionalExpiry_float h.expiresAt _
    · rfl

/-- Entries of distinct ids are added one by one. -/
theorem foldlM_parseEntry {entries : List EventSignatureKey} {keys : Keys} (index : Nat)
    (hstored : ∀ key ∈ entries, key.Stored) (hids : (entries.map (·.keyId)).Nodup)
    (hfresh : ∀ key ∈ entries, keys.get? key.keyId = none) :
    ∃ parsed, ((entries.map entryOf).zipIdx index).foldlM parseEntry keys = .ok parsed ∧
      ∀ keyId key, parsed.get? keyId = some key ↔
        keys.get? keyId = some key ∨ (key ∈ entries ∧ key.keyId = keyId) := by
  induction entries generalizing index keys with
  | nil => exact ⟨keys, rfl, by simp⟩
  | cons first rest ih =>
    have hfirst : parseEntry keys (entryOf first, index) = .ok (keys.set first.keyId first) := by
      apply bind_of_ok (parseKey_entryOf (hstored first List.mem_cons_self) index)
      simp only [hfresh first List.mem_cons_self]
      rfl
    rw [List.map_cons, List.nodup_cons] at hids
    have hother : ∀ key ∈ rest, first.keyId ≠ key.keyId := by
      intro key hkey heq
      exact hids.1 (heq ▸ List.mem_map_of_mem hkey)
    have hfreshRest : ∀ key ∈ rest, (keys.set first.keyId first).get? key.keyId = none := by
      intro key hkey
      rw [Dict.get?_set_ne _ _ (hother key hkey)]
      exact hfresh key (List.mem_cons_of_mem _ hkey)
    obtain ⟨parsed, hparsed, hget⟩ := ih (index + 1)
      (fun key hkey => hstored key (List.mem_cons_of_mem _ hkey)) hids.2 hfreshRest
    refine ⟨parsed, ?_, fun keyId key => ?_⟩
    · rw [List.map_cons, List.zipIdx_cons, List.foldlM_cons]
      exact bind_of_ok hfirst hparsed
    · rw [hget keyId key, Dict.get?_set]
      have hnone := hfresh first List.mem_cons_self
      by_cases hid : first.keyId = keyId
      · subst hid
        simp only [if_true, Option.some.injEq, hnone, reduceCtorEq, false_or, List.mem_cons]
        constructor
        · rintro (rfl | ⟨hkey, hsame⟩)
          · exact ⟨.inl rfl, rfl⟩
          · exact ⟨.inr hkey, hsame⟩
        · rintro ⟨rfl | hkey, hsame⟩
          · exact .inl rfl
          · exact .inr ⟨hkey, hsame⟩
      · simp only [if_neg hid, List.mem_cons]
        constructor
        · rintro (h | ⟨hkey, hsame⟩)
          · exact .inl h
          · exact .inr ⟨.inr hkey, hsame⟩
        · rintro (h | ⟨rfl | hkey, hsame⟩)
          · exact .inl h
          · exact absurd hsame hid
          · exact .inr ⟨hkey, hsame⟩

end

/-- Every key is under its own id, with fields the file keeps. -/
def Storable (enrolled : Keys) : Prop :=
  ∀ keyId key, enrolled.get? keyId = some key → key.keyId = keyId ∧ key.Stored

theorem mem_sortedKeys {enrolled : Keys} {key : EventSignatureKey} :
    key ∈ sortedKeys enrolled ↔ ∃ keyId, enrolled.get? keyId = some key := by
  rw [← Dict.mem_values_iff]
  simp [sortedKeys, Dict.values]

theorem nodup_sortedKeys {enrolled : Keys} (h : Storable enrolled) :
    ((sortedKeys enrolled).map (·.keyId)).Nodup := by
  have hids : (sortedKeys enrolled).map (·.keyId) =
      (sortedBy (fun a b => decide (a < b)) Prod.fst enrolled.items).map Prod.fst := by
    rw [sortedKeys, List.map_map]
    apply List.map_congr_left
    rintro ⟨keyId, key⟩ hitem
    rw [mem_sortedBy, Dict.mem_items_iff] at hitem
    exact (h keyId key hitem).1
  rw [hids]
  exact (((sortedBy_perm _ Prod.fst enrolled.items).map Prod.fst).nodup_iff).mpr enrolled.nodup

/-- The file a store writes loads to the keys it was written from. -/
theorem load_storeDocument [Builtins] {enrolled : Keys} (h : Storable enrolled) :
    ∃ loaded, loadEnrolledKeys (some (storeDocument enrolled)) = .ok loaded ∧
      Dict.Same loaded enrolled := by
  have hstored : ∀ key ∈ sortedKeys enrolled, key.Stored := by
    intro key hkey
    obtain ⟨keyId, hkey⟩ := mem_sortedKeys.mp hkey
    exact (h keyId key hkey).2
  have hfresh : ∀ key ∈ sortedKeys enrolled, (Dict.empty : Keys).get? key.keyId = none :=
    fun key _ => rfl
  obtain ⟨loaded, hload, hget⟩ := foldlM_parseEntry 0 hstored (nodup_sortedKeys h) hfresh
  refine ⟨loaded, hload, fun keyId => Option.ext fun key => ?_⟩
  rw [hget keyId key]
  simp only [Dict.get?_empty, reduceCtorEq, false_or]
  constructor
  · rintro ⟨hkey, hid⟩
    obtain ⟨keyId', hkey⟩ := mem_sortedKeys.mp hkey
    rwa [← hid, (h keyId' key hkey).1]
  · intro hkey
    exact ⟨mem_sortedKeys.mpr ⟨keyId, hkey⟩, (h keyId key hkey).1⟩

/-! ## Trust -/

/-- Every sender some key may prove, revoked keys included. -/
def staticSenders (keys : Keys) : Finset String :=
  keys.values.foldl (fun covered key => covered ∪ key.senders) ∅

section
variable [Builtins]

/-- The first enrolled key that may not be merged. -/
def mergeRefusal (static enrolled : Keys) : Option String :=
  match sortedBy (fun a b => decide (a < b)) id
      (static.keys.filter fun keyId => (enrolled.get? keyId).isSome) with
  | keyId :: _ =>
    some ("key id " ++ Builtins.repr (.str keyId) ++
      " is in both the identity trust bundle and the enrolment store")
  | [] =>
    enrolled.values.findSome? fun key =>
      match (key.senders ∩ staticSenders static).sort (· ≤ ·) with
      | name :: _ =>
        if key.revoked then none
        else some ("enrolled key " ++ Builtins.repr (.str key.keyId) ++ " names " ++
          Builtins.repr (.str name) ++ ", which the identity trust bundle already covers; " ++
          "the trust bundle stays authoritative for its names")
      | [] => none

/-- The effective trust bundle: the operator's keys plus the enrolled ones. -/
def mergeEnrolledKeys (static enrolled : Keys) : Except String Keys :=
  match mergeRefusal static enrolled with
  | some reason => .error reason
  | none => .ok (enrolled.items.foldl (fun keys item => keys.set item.1 item.2) static)

end

/-- Enrolled keys that the merge takes. -/
structure Mergeable (static enrolled : Keys) : Prop where
  apart : ∀ keyId key, enrolled.get? keyId = some key → static.get? keyId = none
  uncovered : ∀ keyId key, enrolled.get? keyId = some key → key.revoked = false →
    ∀ name ∈ key.senders, name ∉ staticSenders static

/-- The key is neither revoked nor, as an enrolment reads it, expired. -/
def EventSignatureKey.live (key : EventSignatureKey) (now : Float) : Bool :=
  !key.revoked && key.expiresAt.all fun expiresAt => decide (now < expiresAt)

/-- The enrolled key currently usable for `name`. -/
def liveEnrolledKey (enrolled : Keys) (name : String) (now : Float) : Option EventSignatureKey :=
  enrolled.values.find? fun key => decide (name ∈ key.senders) && key.live now

end SynapseChannel.Identity
