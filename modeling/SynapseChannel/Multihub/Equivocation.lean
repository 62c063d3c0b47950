import Mathlib
import SynapseChannel.Lib.Framing
import SynapseChannel.Lib.Outcome
import SynapseChannel.Lib.Sorted
import SynapseChannel.Lib.Tuple
import SynapseChannel.Core.Persistence

/-!
# Multihub — Equivocation

Content-bound identities of federated events. An event is committed by
the digest of a type-tagged, length-framed encoding; one identity may be
presented again with the same content only.
-/

namespace SynapseChannel

open Py Framing Outcome

/-- A stored event tagged with the id of the hub that authored it. -/
structure HubEvent where
  hubId : String
  seq : Int
  ts : Float
  kind : String
  payload : Members

namespace HubEvent

/-- The global key whose content binding deduplicates the union. -/
def identity (event : HubEvent) : String × Int := (event.hubId, event.seq)

/-- The replay-order key. -/
def orderKey (event : HubEvent) : TimeKey := (event.ts, event.hubId, event.seq)

/-- Tag a local event with its authoring hub id. -/
def fromStored (hubId : String) (event : StoredEvent) : HubEvent :=
  { hubId, seq := event.seq, ts := event.ts, kind := event.kind, payload := event.payload }

end HubEvent

/-- The failures of a merge or a poll. -/
inductive MultiHubError where
  /-- A malformed event or batch. -/
  | value (message : String)
  /-- A frame longer than its length prefix can say. -/
  | overflow
  | equivocation (peerId : String) (seq : Int) (accepted conflicting : String)
  | sequence (peerId : String) (afterSeq observedSeq expectedSeq : Int)

/-! ## Canonical content -/

/-- Order of encoded member names. -/
def nameLt (a b : Bytes) : Bool := decide (a < b)

mutual

/-- A value with the members of its objects in name order: what two
mappings with the same items have in common. -/
def norm : Json → Json
  | .null => .null
  | .bool b => .bool b
  | .int n => .int n
  | .float x => .float x
  | .str s => .str s
  | .arr items => .arr (normItems items)
  | .obj members => .obj (sortedBy nameLt (fun m => utf8 m.1) (normMembers members))
termination_by structural v => v

def normItems : List Json → List Json
  | [] => []
  | v :: rest => norm v :: normItems rest
termination_by structural l => l

def normMembers : List (String × Json) → List (String × Json)
  | [] => []
  | (name, v) :: rest => (name, norm v) :: normMembers rest
termination_by structural l => l

end

/-- The event with its payload in canonical member order. -/
def HubEvent.norm (event : HubEvent) : HubEvent :=
  { event with
    payload := sortedBy nameLt (fun m => utf8 m.1) (normMembers event.payload) }

/-! ## Fingerprints -/

/-- A frame, or the failure of its length prefix. -/
def framed : Option Bytes → Except MultiHubError Bytes
  | some b => .ok b
  | none => .error .overflow

/-- The frames of one object member. -/
def memberFrames (m : Bytes × Bytes) : List (UInt8 × Bytes) :=
  [('k'.toUInt8, m.1), ('v'.toUInt8, m.2)]

mutual

/-- Encode one JSON-shaped value without string or type ambiguities. -/
def encodeValue : Json → Except MultiHubError Bytes
  | .null => .ok ['n'.toUInt8]
  | .bool true => .ok ['b'.toUInt8, '1'.toUInt8]
  | .bool false => .ok ['b'.toUInt8, '0'.toUInt8]
  | .int n => framed (frame 'i'.toUInt8 (utf8 (toString n)))
  | .float x =>
    if x.isFinite then framed (frame 'f'.toUInt8 (packDouble x))
    else .error (.value "multi-hub event payload floats must be finite")
  | .str s => framed (frame 's'.toUInt8 (utf8 s))
  | .arr items => do
    let values ← encodeItems items
    let body ← framed (frames (values.map fun v => ('v'.toUInt8, v)))
    framed (frame 'l'.toUInt8 body)
  | .obj members => do
    let encoded ← encodeMembers members
    let body ← framed (frames ((sortedBy nameLt Prod.fst encoded).flatMap memberFrames))
    framed (frame 'o'.toUInt8 body)
termination_by structural v => v

def encodeItems : List Json → Except MultiHubError (List Bytes)
  | [] => .ok []
  | v :: rest => do
    let head ← encodeValue v
    let tail ← encodeItems rest
    return head :: tail
termination_by structural l => l

def encodeMembers : List (String × Json) → Except MultiHubError (List (Bytes × Bytes))
  | [] => .ok []
  | (name, v) :: rest => do
    let head ← encodeValue v
    let tail ← encodeMembers rest
    return (utf8 name, head) :: tail
termination_by structural l => l

end

def fingerprintDomain : Bytes := utf8 "synapse-channel:multihub-event-fingerprint:v1" ++ [0]

/-- The bytes an event is committed by. -/
def eventEncoding (event : HubEvent) : Except MultiHubError Bytes :=
  if event.hubId = "" then
    .error (.value "multi-hub event hub_id must be a non-empty string")
  else if event.seq < 1 then
    .error (.value "multi-hub event sequence must be a positive integer")
  else if event.ts.isFinite = false then
    .error (.value "multi-hub event timestamp must be finite")
  else if event.kind = "" then
    .error (.value "multi-hub event kind must be a non-empty string")
  else do
    let payload ← encodeValue (.obj event.payload)
    let body ← framed (frames [('h'.toUInt8, utf8 event.hubId),
      ('q'.toUInt8, utf8 (toString event.seq)), ('t'.toUInt8, packDouble event.ts),
      ('k'.toUInt8, utf8 event.kind), ('p'.toUInt8, payload)])
    return fingerprintDomain ++ body

/-! ## Encodings determine contents -/

theorem framed_ok {o : Option Bytes} {b : Bytes} (h : framed o = .ok b) : o = some b := by
  cases o with
  | none => cases h
  | some b' =>
    cases h
    rfl

/-- The value's encoding, empty when it has none. -/
def encoded (v : Json) : Bytes := (encodeValue v).toOption.getD []

/-- The value has an encoding. -/
def Encodable (v : Json) : Prop := encodeValue v = .ok (encoded v)

theorem encodable_of_ok {v : Json} {b : Bytes} (h : encodeValue v = .ok b) :
    Encodable v ∧ encoded v = b := by
  have hb : encoded v = b := by simp [encoded, h, Except.toOption]
  exact ⟨by rw [Encodable, hb, h], hb⟩

theorem encodeItems_ok {items : List Json} {values : List Bytes}
    (h : encodeItems items = .ok values) :
    values = items.map encoded ∧ ∀ v ∈ items, Encodable v := by
  induction items generalizing values with
  | nil =>
    cases h
    exact ⟨rfl, by simp⟩
  | cons v rest ih =>
    obtain ⟨head, hhead, h⟩ := bind_ok h
    obtain ⟨tail, htail, h⟩ := bind_ok h
    cases h
    obtain ⟨hv, rfl⟩ := encodable_of_ok hhead
    obtain ⟨rfl, hrest⟩ := ih htail
    exact ⟨rfl, by simpa [hv] using hrest⟩

/-- Encoded name and value of a member. -/
def encodedMember (m : String × Json) : Bytes × Bytes := (utf8 m.1, encoded m.2)

theorem encodeMembers_ok {members : List (String × Json)} {values : List (Bytes × Bytes)}
    (h : encodeMembers members = .ok values) :
    values = members.map encodedMember ∧ ∀ m ∈ members, Encodable m.2 := by
  induction members generalizing values with
  | nil =>
    cases h
    exact ⟨rfl, by simp⟩
  | cons m rest ih =>
    obtain ⟨name, v⟩ := m
    obtain ⟨head, hhead, h⟩ := bind_ok h
    obtain ⟨tail, htail, h⟩ := bind_ok h
    cases h
    obtain ⟨hv, rfl⟩ := encodable_of_ok hhead
    obtain ⟨rfl, hrest⟩ := ih htail
    exact ⟨rfl, by simpa [hv] using hrest⟩

theorem normItems_eq_map (items : List Json) : normItems items = items.map norm := by
  induction items with
  | nil => rfl
  | cons v rest ih => rw [normItems, ih, List.map_cons]

theorem normMembers_eq_map (members : List (String × Json)) :
    normMembers members = members.map fun m => (m.1, norm m.2) := by
  induction members with
  | nil => rfl
  | cons m rest ih => rw [normMembers, ih, List.map_cons]

theorem memberFrames_inj {l l' : List (Bytes × Bytes)}
    (h : l.flatMap memberFrames = l'.flatMap memberFrames) : l = l' := by
  induction l generalizing l' with
  | nil =>
    cases l' with
    | nil => rfl
    | cons m' rest' => cases h
  | cons m rest ih =>
    cases l' with
    | nil => cases h
    | cons m' rest' =>
      simp only [List.flatMap_cons, memberFrames, List.cons_append, List.nil_append,
        List.cons.injEq, Prod.mk.injEq, true_and] at h
      rw [Prod.ext h.1 h.2.1, ih h.2.2]

/-- Lists that agree under `f` agree under `g` when their items do. -/
theorem map_eq_of_map_eq {α β γ : Type} {f : α → β} {g : α → γ} {l l' : List α}
    (hfg : ∀ a ∈ l, ∀ b ∈ l', f a = f b → g a = g b) (h : l.map f = l'.map f) :
    l.map g = l'.map g := by
  induction l generalizing l' with
  | nil =>
    cases l' with
    | nil => rfl
    | cons b rest' => cases h
  | cons a rest ih =>
    cases l' with
    | nil => cases h
    | cons b rest' =>
      simp only [List.map_cons, List.cons.injEq] at h
      rw [List.map_cons, List.map_cons, hfg a (by simp) b (by simp) h.1,
        ih (fun a ha b hb => hfg a (by simp [ha]) b (by simp [hb])) h.2]

theorem sorted_encoded (members : List (String × Json)) :
    (sortedBy nameLt (fun m => utf8 m.1) members).map encodedMember =
      sortedBy nameLt Prod.fst (members.map encodedMember) :=
  map_sortedBy nameLt encodedMember _ _ members fun _ _ => rfl

/-- Sorting members by name commutes with bringing them to canonical form. -/
theorem sorted_norm (members : List (String × Json)) :
    (sortedBy nameLt (fun m => utf8 m.1) members).map (fun m => (m.1, norm m.2)) =
      sortedBy nameLt (fun m => utf8 m.1) (normMembers members) := by
  rw [normMembers_eq_map]
  exact map_sortedBy nameLt _ _ _ members fun _ _ => rfl

theorem encode_arr {items : List Json} (h : Encodable (.arr items)) :
    (∀ v ∈ items, Encodable v) ∧ ∃ body,
      frames ((items.map encoded).map fun v => ('v'.toUInt8, v)) = some body ∧
      frame 'l'.toUInt8 body = some (encoded (.arr items)) := by
  obtain ⟨values, hvalues, hrest⟩ := bind_ok h
  obtain ⟨body, hbody, hframe⟩ := bind_ok hrest
  obtain ⟨rfl, hitems⟩ := encodeItems_ok hvalues
  exact ⟨hitems, body, framed_ok hbody, framed_ok hframe⟩

theorem encode_obj {members : List (String × Json)} (h : Encodable (.obj members)) :
    (∀ m ∈ members, Encodable m.2) ∧ ∃ body,
      frames ((sortedBy nameLt Prod.fst (members.map encodedMember)).flatMap memberFrames)
        = some body ∧
      frame 'o'.toUInt8 body = some (encoded (.obj members)) := by
  obtain ⟨values, hvalues, hrest⟩ := bind_ok h
  obtain ⟨body, hbody, hframe⟩ := bind_ok hrest
  obtain ⟨rfl, hmembers⟩ := encodeMembers_ok hvalues
  exact ⟨hmembers, body, framed_ok hbody, framed_ok hframe⟩

/-- The first byte of an encoding, and its length when it is one of the
constants, tell the type. -/
def typeTag : Json → UInt8
  | .null => 'n'.toUInt8
  | .bool _ => 'b'.toUInt8
  | .int _ => 'i'.toUInt8
  | .float _ => 'f'.toUInt8
  | .str _ => 's'.toUInt8
  | .arr _ => 'l'.toUInt8
  | .obj _ => 'o'.toUInt8

theorem frame_head {tag : UInt8} {payload b : Bytes} (h : frame tag payload = some b) :
    b.head? = some tag := by
  unfold frame at h
  split at h
  · cases h
    rfl
  · cases h

theorem encoded_head {v : Json} (h : Encodable v) : (encoded v).head? = some (typeTag v) := by
  cases v with
  | null => rfl
  | bool b => cases b <;> rfl
  | int n => exact frame_head (framed_ok h)
  | float x =>
    rw [Encodable, encodeValue] at h
    split at h
    · exact frame_head (framed_ok h)
    · cases h
  | str s => exact frame_head (framed_ok h)
  | arr items =>
    obtain ⟨-, body, -, hframe⟩ := encode_arr h
    exact frame_head hframe
  | obj members =>
    obtain ⟨-, body, -, hframe⟩ := encode_obj h
    exact frame_head hframe

theorem frame_payload {tag : UInt8} {payload payload' b : Bytes} (h : frame tag payload = some b)
    (h' : frame tag payload' = some b) : payload = payload' :=
  (frame_inj h h' (rfl : b ++ [] = b ++ [])).2.1

theorem typeTag_eq {v w : Json} (hv : Encodable v) (hw : Encodable w)
    (h : encoded v = encoded w) : typeTag v = typeTag w :=
  Option.some.inj ((encoded_head hv).symm.trans (h ▸ encoded_head hw))

theorem encode_int {n : Int} (h : Encodable (.int n)) :
    frame 'i'.toUInt8 (utf8 (toString n)) = some (encoded (.int n)) := framed_ok h

theorem encode_str {s : String} (h : Encodable (.str s)) :
    frame 's'.toUInt8 (utf8 s) = some (encoded (.str s)) := framed_ok h

theorem encode_float {x : Float} (h : Encodable (.float x)) :
    frame 'f'.toUInt8 (packDouble x) = some (encoded (.float x)) := by
  rw [Encodable, encodeValue] at h
  split at h
  · exact framed_ok h
  · cases h

/-- Values with one encoding have one canonical form. -/
theorem norm_eq_of_encoded_eq (v w : Json) (hv : Encodable v) (hw : Encodable w)
    (h : encoded v = encoded w) : norm v = norm w := by
  have ht := typeTag_eq hv hw h
  induction v using Json.induction generalizing w with
  | null => cases w <;> first | rfl | (simp only [typeTag] at ht; exact absurd ht (by decide))
  | bool b =>
    cases w with
    | bool c =>
      cases b <;> cases c <;> first | rfl | exact absurd h (by decide)
    | _ => simp only [typeTag] at ht; exact absurd ht (by decide)
  | int n =>
    cases w with
    | int m =>
      have hs := utf8_inj (frame_payload (encode_int hv) (h ▸ encode_int hw))
      rw [Int.repr_injective hs]
    | _ => simp only [typeTag] at ht; exact absurd ht (by decide)
  | float x =>
    cases w with
    | float y =>
      rw [packDouble_inj (frame_payload (encode_float hv) (h ▸ encode_float hw))]
    | _ => simp only [typeTag] at ht; exact absurd ht (by decide)
  | str s =>
    cases w with
    | str t => rw [utf8_inj (frame_payload (encode_str hv) (h ▸ encode_str hw))]
    | _ => simp only [typeTag] at ht; exact absurd ht (by decide)
  | arr items ih =>
    cases w with
    | arr items' =>
      obtain ⟨hitems, body, hbody, hframe⟩ := encode_arr hv
      obtain ⟨hitems', body', hbody', hframe'⟩ := encode_arr hw
      cases frame_payload hframe (h ▸ hframe')
      have hvalues := List.map_injective_iff.mpr (fun _ _ he => (Prod.mk.inj he).2)
        (frames_inj hbody hbody')
      rw [norm, norm, normItems_eq_map, normItems_eq_map]
      rw [map_eq_of_map_eq (fun a ha b hb hab => ih a ha b (hitems a ha) (hitems' b hb) hab
        (typeTag_eq (hitems a ha) (hitems' b hb) hab)) hvalues]
    | _ => simp only [typeTag] at ht; exact absurd ht (by decide)
  | obj members ih =>
    cases w with
    | obj members' =>
      obtain ⟨hm, body, hbody, hframe⟩ := encode_obj hv
      obtain ⟨hm', body', hbody', hframe'⟩ := encode_obj hw
      cases frame_payload hframe (h ▸ hframe')
      have hsorted := memberFrames_inj (frames_inj hbody hbody')
      rw [← sorted_encoded, ← sorted_encoded] at hsorted
      rw [norm, norm, ← sorted_norm, ← sorted_norm,
        map_eq_of_map_eq (fun a ha b hb hab => ?_) hsorted]
      rw [mem_sortedBy] at ha hb
      obtain ⟨hname, hvalue⟩ := Prod.mk.inj hab
      have hv := hm a ha
      have hw := hm' b hb
      exact Prod.ext (utf8_inj hname) (ih a ha b.2 hv hw hvalue (typeTag_eq hv hw hvalue))
    | _ => simp only [typeTag] at ht; exact absurd ht (by decide)

/-- Values with one canonical form have one encoding. -/
theorem encoded_eq_of_norm_eq (v w : Json) (hv : Encodable v) (hw : Encodable w)
    (h : norm v = norm w) : encoded v = encoded w := by
  induction v using Json.induction generalizing w with
  | null => cases w <;> first | rfl | cases h
  | bool b => cases w <;> cases h; rfl
  | int n => cases w <;> cases h; rfl
  | float x => cases w <;> cases h; rfl
  | str s => cases w <;> cases h; rfl
  | arr items ih =>
    cases w with
    | arr items' =>
      obtain ⟨hitems, body, hbody, hframe⟩ := encode_arr hv
      obtain ⟨hitems', body', hbody', hframe'⟩ := encode_arr hw
      rw [norm, norm, normItems_eq_map, normItems_eq_map, Json.arr.injEq] at h
      rw [map_eq_of_map_eq (fun a ha b hb hab => ih a ha b (hitems a ha) (hitems' b hb) hab) h,
        hbody', Option.some.injEq] at hbody
      rw [hbody, hframe] at hframe'
      exact Option.some.inj hframe'
    | _ => cases h
  | obj members ih =>
    cases w with
    | obj members' =>
      obtain ⟨hm, body, hbody, hframe⟩ := encode_obj hv
      obtain ⟨hm', body', hbody', hframe'⟩ := encode_obj hw
      rw [norm, norm, ← sorted_norm, ← sorted_norm, Json.obj.injEq] at h
      rw [← sorted_encoded, map_eq_of_map_eq (fun a ha b hb hab => ?_) h, sorted_encoded,
        hbody', Option.some.injEq] at hbody
      · rw [hbody, hframe] at hframe'
        exact Option.some.inj hframe'
      · rw [mem_sortedBy] at ha hb
        obtain ⟨hname, hvalue⟩ := Prod.mk.inj hab
        rw [encodedMember, encodedMember, hname,
          ih a ha b.2 (hm a ha) (hm' b hb) hvalue]
    | _ => cases h

theorem encodeItems_of_encodable {items : List Json} (h : ∀ v ∈ items, Encodable v) :
    encodeItems items = .ok (items.map encoded) := by
  induction items with
  | nil => rfl
  | cons v rest ih =>
    rw [encodeItems, h v (by simp), ih fun w hw => h w (by simp [hw])]
    rfl

theorem encodeMembers_of_encodable {members : List (String × Json)}
    (h : ∀ m ∈ members, Encodable m.2) :
    encodeMembers members = .ok (members.map encodedMember) := by
  induction members with
  | nil => rfl
  | cons m rest ih =>
    rw [encodeMembers, h m (by simp), ih fun m' hm' => h m' (by simp [hm'])]
    rfl

/-- Whether a value has an encoding depends on its canonical form only. -/
theorem encodable_of_norm_eq (v w : Json) (hv : Encodable v) (h : norm v = norm w) :
    Encodable w := by
  induction v using Json.induction generalizing w with
  | null => cases w <;> cases h; exact hv
  | bool b => cases w <;> cases h; exact hv
  | int n => cases w <;> cases h; exact hv
  | float x => cases w <;> cases h; exact hv
  | str s => cases w <;> cases h; exact hv
  | arr items ih =>
    cases w with
    | arr items' =>
      obtain ⟨hitems, body, hbody, hframe⟩ := encode_arr hv
      rw [norm, norm, normItems_eq_map, normItems_eq_map, Json.arr.injEq] at h
      have hitems' : ∀ b ∈ items', Encodable b := by
        intro b hb
        obtain ⟨a, ha, hab⟩ := List.mem_map.mp (h ▸ List.mem_map_of_mem hb)
        exact ih a ha b (hitems a ha) hab
      have hvalues := map_eq_of_map_eq (fun a ha b hb hab =>
        encoded_eq_of_norm_eq a b (hitems a ha) (hitems' b hb) hab) h
      have hok : encodeValue (.arr items') = .ok (encoded (.arr items)) := by
        rw [encodeValue, encodeItems_of_encodable hitems', ← hvalues]
        simp only [bind, Except.bind, hbody, framed, hframe]
      exact (encodable_of_ok hok).1
    | _ => cases h
  | obj members ih =>
    cases w with
    | obj members' =>
      obtain ⟨hm, body, hbody, hframe⟩ := encode_obj hv
      rw [norm, norm, ← sorted_norm, ← sorted_norm, Json.obj.injEq] at h
      have hm' : ∀ b ∈ members', Encodable b.2 := by
        intro b hb
        have hmem : b ∈ sortedBy nameLt (fun m => utf8 m.1) members' :=
          (mem_sortedBy nameLt).mpr hb
        have hb' := @List.mem_map_of_mem _ _ _ _ (fun m : String × Json => (m.1, norm m.2)) hmem
        rw [← h] at hb'
        obtain ⟨a, ha, hab⟩ := List.mem_map.mp hb'
        rw [mem_sortedBy] at ha
        exact ih a ha b.2 (hm a ha) (Prod.mk.inj hab).2
      have hsorted : sortedBy nameLt Prod.fst (members'.map encodedMember) =
          sortedBy nameLt Prod.fst (members.map encodedMember) := by
        rw [← sorted_encoded, ← sorted_encoded]
        refine map_eq_of_map_eq (fun a ha b hb hab => ?_) h.symm
        rw [mem_sortedBy] at ha hb
        obtain ⟨hname, hvalue⟩ := Prod.mk.inj hab
        rw [encodedMember, encodedMember, hname,
          encoded_eq_of_norm_eq a.2 b.2 (hm' a ha) (hm b hb) hvalue]
      have hok : encodeValue (.obj members') = .ok (encoded (.obj members)) := by
        rw [encodeValue, encodeMembers_of_encodable hm']
        simp only [bind, Except.bind, hsorted, hbody, framed, hframe]
      exact (encodable_of_ok hok).1
    | _ => cases h

/-- The frames an event is committed by. -/
def eventFrames (event : HubEvent) : List (UInt8 × Bytes) :=
  [('h'.toUInt8, utf8 event.hubId), ('q'.toUInt8, utf8 (toString event.seq)),
    ('t'.toUInt8, packDouble event.ts), ('k'.toUInt8, utf8 event.kind),
    ('p'.toUInt8, encoded (.obj event.payload))]

/-- What an encoded event has passed: a non-empty hub and kind, a
positive sequence, a finite timestamp and an encodable payload. -/
structure Encoded (event : HubEvent) (b : Bytes) : Prop where
  hub : event.hubId ≠ ""
  seq : 1 ≤ event.seq
  ts : event.ts.isFinite = true
  kind : event.kind ≠ ""
  payload : Encodable (.obj event.payload)
  framed : ∃ body, frames (eventFrames event) = some body ∧ b = fingerprintDomain ++ body

theorem eventEncoding_ok {event : HubEvent} {b : Bytes} (h : eventEncoding event = .ok b) :
    Encoded event b := by
  unfold eventEncoding at h
  split at h
  · cases h
  rename_i hhub
  split at h
  · cases h
  rename_i hseq
  split at h
  · cases h
  rename_i hts
  split at h
  · cases h
  rename_i hkind
  obtain ⟨payload, hpayload, hrest⟩ := bind_ok h
  obtain ⟨body, hbody, hdone⟩ := bind_ok hrest
  obtain ⟨hp, rfl⟩ := encodable_of_ok hpayload
  cases hdone
  exact ⟨hhub, by omega, by simpa using hts, hkind, hp, body, framed_ok hbody, rfl⟩

/-- Encoded events agree in bytes exactly when they agree in content. -/
theorem encoding_eq_iff {a b : HubEvent} {x y : Bytes} (ha : Encoded a x) (hb : Encoded b y) :
    x = y ↔ a.norm = b.norm := by
  obtain ⟨body, hbody, rfl⟩ := ha.framed
  obtain ⟨body', hbody', rfl⟩ := hb.framed
  constructor
  · intro h
    rw [← List.append_cancel_left h] at hbody'
    have hframes := frames_inj hbody hbody'
    simp only [eventFrames, List.cons.injEq, Prod.mk.injEq, true_and, and_true] at hframes
    obtain ⟨hhub, hseq, hts, hkind, hpayload⟩ := hframes
    have hnorm := norm_eq_of_encoded_eq _ _ ha.payload hb.payload hpayload
    rw [norm, norm, Json.obj.injEq] at hnorm
    rw [HubEvent.norm, HubEvent.norm, hnorm, utf8_inj hhub,
      Int.repr_injective (utf8_inj hseq), packDouble_inj hts, utf8_inj hkind]
  · intro h
    simp only [HubEvent.norm, HubEvent.mk.injEq] at h
    obtain ⟨hhub, hseq, hts, hkind, hmembers⟩ := h
    have hpayload : norm (.obj a.payload) = norm (.obj b.payload) := by
      rw [norm, norm, hmembers]
    have henc := encoded_eq_of_norm_eq _ _ ha.payload hb.payload hpayload
    rw [eventFrames, hhub, hseq, hts, hkind, henc, ← eventFrames, hbody'] at hbody
    rw [Option.some.inj hbody]

theorem eventEncoding_of_norm_eq {a b : HubEvent} {x : Bytes} (h : eventEncoding a = .ok x)
    (hnorm : a.norm = b.norm) : eventEncoding b = .ok x := by
  have ha := eventEncoding_ok h
  obtain ⟨body, hbody, rfl⟩ := ha.framed
  simp only [HubEvent.norm, HubEvent.mk.injEq] at hnorm
  obtain ⟨hhub, hseq, hts, hkind, hmembers⟩ := hnorm
  have hpayload : norm (.obj a.payload) = norm (.obj b.payload) := by
    rw [norm, norm, hmembers]
  have hb := encodable_of_norm_eq _ _ ha.payload hpayload
  rw [eventFrames, encoded_eq_of_norm_eq _ _ ha.payload hb hpayload, hhub, hseq, hts,
    hkind] at hbody
  have hhub' := hhub ▸ ha.hub
  have hseq' : ¬ b.seq < 1 := by
    have := hseq ▸ ha.seq
    omega
  have hkind' := hkind ▸ ha.kind
  have hts' : b.ts.isFinite = true := hts ▸ ha.ts
  simp only [eventEncoding, hhub', hseq', hts', hkind', if_false]
  rw [show encodeValue (.obj b.payload) = .ok (encoded (.obj b.payload)) from hb]
  simp only [bind, Except.bind, hbody, framed]
  rfl

/-! ## Failures of an encoding -/

/-- The failure is an equivocation. -/
def MultiHubError.IsEquivocation : MultiHubError → Prop
  | .equivocation .. => True
  | _ => False

theorem framed_error {o : Option Bytes} {err : MultiHubError} (h : framed o = .error err) :
    ¬ err.IsEquivocation := by
  cases o with
  | none =>
    cases h
    exact id
  | some b => cases h

theorem encodeItems_error {items : List Json} {err : MultiHubError}
    (h : encodeItems items = .error err) : ∃ v ∈ items, encodeValue v = .error err := by
  induction items with
  | nil => cases h
  | cons v rest ih =>
    rcases bind_error h with h | ⟨_, -, h⟩
    · exact ⟨v, by simp, h⟩
    · rcases bind_error h with h | ⟨_, -, h⟩
      · obtain ⟨w, hw, hwe⟩ := ih h
        exact ⟨w, by simp [hw], hwe⟩
      · cases h

theorem encodeMembers_error {members : List (String × Json)} {err : MultiHubError}
    (h : encodeMembers members = .error err) : ∃ m ∈ members, encodeValue m.2 = .error err := by
  induction members with
  | nil => cases h
  | cons m rest ih =>
    rcases bind_error h with h | ⟨_, -, h⟩
    · exact ⟨m, by simp, h⟩
    · rcases bind_error h with h | ⟨_, -, h⟩
      · obtain ⟨w, hw, hwe⟩ := ih h
        exact ⟨w, by simp [hw], hwe⟩
      · cases h

theorem encodeValue_error (v : Json) {err : MultiHubError} (h : encodeValue v = .error err) :
    ¬ err.IsEquivocation := by
  induction v using Json.induction with
  | null => cases h
  | bool b => cases b <;> cases h
  | int n => exact framed_error h
  | float x =>
    rw [encodeValue] at h
    split at h
    · exact framed_error h
    · cases h
      exact id
  | str s => exact framed_error h
  | arr items ih =>
    rcases bind_error h with h | ⟨_, -, h⟩
    · obtain ⟨v, hv, he⟩ := encodeItems_error h
      exact ih v hv he
    · rcases bind_error h with h | ⟨_, -, h⟩ <;> exact framed_error h
  | obj members ih =>
    rcases bind_error h with h | ⟨_, -, h⟩
    · obtain ⟨m, hm, he⟩ := encodeMembers_error h
      exact ih m hm he
    · rcases bind_error h with h | ⟨_, -, h⟩ <;> exact framed_error h

/-- An event that cannot be encoded is malformed; it equivocates nothing. -/
theorem eventEncoding_error {event : HubEvent} {err : MultiHubError}
    (h : eventEncoding event = .error err) : ¬ err.IsEquivocation := by
  unfold eventEncoding at h
  iterate 4
    split at h
    · cases h
      exact id
  rcases bind_error h with h | ⟨_, -, h⟩
  · exact encodeValue_error _ h
  · rcases bind_error h with h | ⟨_, -, h⟩
    · exact framed_error h
    · cases h

variable [Builtins]

/-- The domain-separated SHA-256 fingerprint of one complete event. -/
def eventFingerprint (event : HubEvent) : Except MultiHubError String :=
  (eventEncoding event).map Builtins.sha256Hex

/-- Accepted events by identity. -/
abbrev EventMap := Dict (String × Int) HubEvent

/-- Remember `event`, or fail when its identity already binds other
content. -/
def rememberContentBoundEvent (events : EventMap) (event : HubEvent) :
    Except MultiHubError EventMap :=
  match events.get? event.identity with
  | none => do
    let _ ← eventFingerprint event
    return events.set event.identity event
  | some existing => do
    let accepted ← eventFingerprint existing
    let conflicting ← eventFingerprint event
    if accepted ≠ conflicting then
      throw (.equivocation event.hubId event.seq accepted conflicting)
    return events

/-! ## One content per identity -/

/-- The event can be committed: its fields are well formed, its floats
finite and its frames short enough. -/
def HubEvent.Fingerprintable (event : HubEvent) : Prop := ∃ b, eventEncoding event = .ok b

omit [Builtins] in
theorem HubEvent.Fingerprintable.of_norm_eq {a b : HubEvent} (h : a.Fingerprintable)
    (hnorm : a.norm = b.norm) : b.Fingerprintable :=
  h.imp fun _ hx => eventEncoding_of_norm_eq hx hnorm

omit [Builtins] in
theorem HubEvent.Fingerprintable.timed {event : HubEvent} (h : event.Fingerprintable) :
    event.orderKey.Timed := by
  obtain ⟨b, hb⟩ := h
  exact Ieee.isFinite_isNaN (eventEncoding_ok hb).ts

/-- The digest tells apart the encodings of these events. -/
def CollisionFree (events : List HubEvent) : Prop :=
  ∀ a ∈ events, ∀ b ∈ events, ∀ x y, eventEncoding a = .ok x → eventEncoding b = .ok y →
    Builtins.sha256Hex x = Builtins.sha256Hex y → x = y

theorem CollisionFree.mono {events events' : List HubEvent} (h : CollisionFree events)
    (hsub : ∀ e ∈ events', ∃ e' ∈ events, e'.norm = e.norm) : CollisionFree events' := by
  intro a ha b hb x y hx hy heq
  obtain ⟨a', ha', hna⟩ := hsub a ha
  obtain ⟨b', hb', hnb⟩ := hsub b hb
  exact h a' ha' b' hb' x y (eventEncoding_of_norm_eq hx hna.symm)
    (eventEncoding_of_norm_eq hy hnb.symm) heq

theorem fingerprint_ok {event : HubEvent} (h : event.Fingerprintable) :
    ∃ b, eventEncoding event = .ok b ∧ eventFingerprint event = .ok (Builtins.sha256Hex b) := by
  obtain ⟨b, hb⟩ := h
  exact ⟨b, hb, by rw [eventFingerprint, hb]; rfl⟩

theorem fingerprint_error {event : HubEvent} (h : ¬ event.Fingerprintable) :
    ∃ err, eventFingerprint event = .error err ∧ ¬ err.IsEquivocation := by
  cases he : eventEncoding event with
  | ok b => exact absurd ⟨b, he⟩ h
  | error err => exact ⟨err, by rw [eventFingerprint, he]; rfl, eventEncoding_error he⟩

/-- Digests agree exactly when contents do. -/
theorem fingerprint_eq_iff {events : List HubEvent} (hc : CollisionFree events)
    {a b : HubEvent} (ha : a ∈ events) (hb : b ∈ events) {x y : Bytes}
    (hx : eventEncoding a = .ok x) (hy : eventEncoding b = .ok y) :
    Builtins.sha256Hex x = Builtins.sha256Hex y ↔ a.norm = b.norm := by
  rw [← encoding_eq_iff (eventEncoding_ok hx) (eventEncoding_ok hy)]
  exact ⟨hc a ha b hb x y hx hy, fun h => h ▸ rfl⟩

/-- What remembering an event did: refuse one that cannot be committed,
bind a new identity, pass over a known content, or report another
content. -/
inductive Remember (events : EventMap) (event : HubEvent) :
    Except MultiHubError EventMap → Prop
  | malformed (err : MultiHubError) (hno : ¬ event.Fingerprintable)
      (herr : ¬ err.IsEquivocation) : Remember events event (.error err)
  | fresh (hnew : events.get? event.identity = none) (hfp : event.Fingerprintable) :
      Remember events event (.ok (events.set event.identity event))
  | known (existing : HubEvent) (hold : events.get? event.identity = some existing)
      (hfp : event.Fingerprintable) (hsame : existing.norm = event.norm) :
      Remember events event (.ok events)
  | conflict (existing : HubEvent) (accepted conflicting : String)
      (hold : events.get? event.identity = some existing) (hfp : event.Fingerprintable)
      (hdiff : existing.norm ≠ event.norm) :
      Remember events event (.error (.equivocation event.hubId event.seq accepted conflicting))

theorem remember_cases {all : List HubEvent} (hc : CollisionFree all) {events : EventMap}
    (hevents : ∀ k e, events.get? k = some e → e ∈ all ∧ e.Fingerprintable)
    {event : HubEvent} (hevent : event ∈ all) :
    Remember events event (rememberContentBoundEvent events event) := by
  unfold rememberContentBoundEvent
  by_cases hfp : event.Fingerprintable
  · obtain ⟨y, hy, hfy⟩ := fingerprint_ok hfp
    split
    · rename_i hnew
      rw [hfy]
      exact .fresh hnew hfp
    · rename_i existing hold
      obtain ⟨hmem, hfe⟩ := hevents _ existing hold
      obtain ⟨x, hx, hfx⟩ := fingerprint_ok hfe
      simp only [hfx, hfy, bind, Except.bind]
      have hiff := fingerprint_eq_iff hc hmem hevent hx hy
      split
      · rename_i hne
        exact .conflict existing _ _ hold hfp fun h => hne (hiff.mpr h)
      · rename_i heq
        exact .known existing hold hfp (hiff.mp (not_not.mp heq))
  · obtain ⟨err, herr, hne⟩ := fingerprint_error hfp
    split
    · rw [herr]
      exact .malformed err hfp hne
    · rename_i existing hold
      obtain ⟨x, hx, hfx⟩ := fingerprint_ok (hevents _ existing hold).2
      rw [hfx, herr]
      exact .malformed err hfp hne

/-- Remembering goes through with a new identity or a known one. -/
theorem remember_ok_cases {events events' : EventMap} {event : HubEvent}
    (h : rememberContentBoundEvent events event = .ok events') :
    (event.Fingerprintable ∧ events.get? event.identity = none ∧
      events' = events.set event.identity event) ∨
    ((∃ existing, events.get? event.identity = some existing) ∧ events' = events) := by
  unfold rememberContentBoundEvent at h
  split at h
  · rename_i hnew
    obtain ⟨digest, hdigest, hdone⟩ := bind_ok h
    cases hdone
    refine .inl ⟨?_, hnew, rfl⟩
    by_contra hno
    obtain ⟨err, herr, -⟩ := fingerprint_error hno
    rw [herr] at hdigest
    cases hdigest
  · rename_i existing hold
    obtain ⟨_, -, h⟩ := bind_ok h
    obtain ⟨_, -, h⟩ := bind_ok h
    split at h
    · cases h
    · cases h
      exact .inr ⟨⟨existing, hold⟩, rfl⟩

/-- An equivocation names the hub of the event that brought it out. -/
theorem remember_equivocation {events : EventMap} {event : HubEvent} {peer : String} {seq : Int}
    {accepted conflicting : String}
    (h : rememberContentBoundEvent events event =
      .error (.equivocation peer seq accepted conflicting)) : peer = event.hubId := by
  have hno : ∀ e : HubEvent,
      eventFingerprint e ≠ .error (.equivocation peer seq accepted conflicting) := by
    intro e he
    unfold eventFingerprint at he
    cases henc : eventEncoding e with
    | ok b =>
      rw [henc] at he
      cases he
    | error err =>
      rw [henc] at he
      cases he
      exact eventEncoding_error henc trivial
  unfold rememberContentBoundEvent at h
  split at h
  · rcases bind_error h with h | ⟨_, -, h⟩
    · exact absurd h (hno _)
    · cases h
  · rcases bind_error h with h | ⟨_, -, h⟩
    · exact absurd h (hno _)
    · rcases bind_error h with h | ⟨_, -, h⟩
      · exact absurd h (hno _)
      · split at h
        · cases h
          rfl
        · cases h

/-! ## Batches -/

/-- The loop over a batch: `expected` is the sequence a new identity must
have. -/
def validateBatchLoop (peerId : String) (afterSeq : Int) :
    EventMap → Int → List HubEvent → Except MultiHubError EventMap
  | candidate, _, [] => .ok candidate
  | candidate, expected, event :: rest =>
    if event.hubId ≠ peerId then
      .error (.value "multi-hub batch event does not match its peer id")
    else if event.seq < expected then
      if !candidate.contains event.identity then
        .error (.sequence peerId afterSeq event.seq expected)
      else do
        let candidate ← rememberContentBoundEvent candidate event
        validateBatchLoop peerId afterSeq candidate expected rest
    else if event.seq > expected then
      .error (.sequence peerId afterSeq event.seq expected)
    else do
      let candidate ← rememberContentBoundEvent candidate event
      validateBatchLoop peerId afterSeq candidate (expected + 1) rest

/-- Validate one exclusive, contiguous append-only peer batch, and return
the events with it staged. -/
def validateContentBoundBatch (events : EventMap) (batch : List HubEvent) (peerId : String)
    (afterSeq : Int) : Except MultiHubError EventMap :=
  validateBatchLoop peerId afterSeq events (afterSeq + 1) batch

/-- The sequences held of `peer` are exactly `1..top`. -/
def Contiguous (events : EventMap) (peer : String) (top : Int) : Prop :=
  ∀ seq, events.get? (peer, seq) ≠ none ↔ 1 ≤ seq ∧ seq ≤ top

/-- Each event is filed under its identity and can be committed. -/
def Filed (events : EventMap) : Prop :=
  ∀ k e, events.get? k = some e → e.identity = k ∧ e.Fingerprintable

/-- What a validated batch of `peer` leaves: its events contiguous from
one, everything held before still held, and no other peer touched. -/
structure Staged (peer : String) (events events' : EventMap) (top : Int) : Prop where
  contiguous : ∃ top', top ≤ top' ∧ Contiguous events' peer top'
  keeps : events.Sub events'
  frame : ∀ k, k.1 ≠ peer → events'.get? k = events.get? k
  filed : Filed events → Filed events'

theorem validateBatchLoop_staged {peer : String} {afterSeq : Int} {batch : List HubEvent}
    {events events' : EventMap} {expected : Int} (hpos : 1 ≤ expected)
    (hcont : Contiguous events peer (expected - 1))
    (h : validateBatchLoop peer afterSeq events expected batch = .ok events') :
    Staged peer events events' (expected - 1) := by
  induction batch generalizing events expected with
  | nil =>
    cases h
    exact ⟨⟨_, le_refl _, hcont⟩, .refl _, fun _ _ => rfl, id⟩
  | cons event rest ih =>
    rw [validateBatchLoop] at h
    split at h
    · cases h
    rename_i hpeer
    have hpeer : event.hubId = peer := not_not.mp hpeer
    split at h
    · split at h
      · cases h
      rename_i hknown
      obtain ⟨middle, hmiddle, hrest⟩ := bind_ok h
      rcases remember_ok_cases hmiddle with ⟨-, hnew, -⟩ | ⟨-, rfl⟩
      · simp [Dict.contains, hnew] at hknown
      · exact ih hpos hcont hrest
    split at h
    · cases h
    rename_i hlow hhigh
    have hseq : event.seq = expected := by omega
    obtain ⟨middle, hmiddle, hrest⟩ := bind_ok h
    have hid : event.identity = (peer, expected) := by
      rw [HubEvent.identity, hpeer, hseq]
    rcases remember_ok_cases hmiddle with ⟨hfp, hnew, rfl⟩ | ⟨⟨existing, hold⟩, -⟩
    · have hcont' : Contiguous (events.set event.identity event) peer (expected + 1 - 1) := by
        intro seq
        rw [hid, Dict.get?_set]
        split
        · rename_i heq
          have := (Prod.mk.inj heq).2
          simp only [ne_eq, reduceCtorEq, not_false_eq_true, true_iff]
          omega
        · rename_i hne
          rw [hcont seq]
          have : seq ≠ expected := fun heq => hne (heq ▸ rfl)
          omega
      obtain ⟨⟨top', htop, hcont''⟩, hkeeps, hframe, hfiled⟩ := ih (by omega) hcont' hrest
      refine ⟨⟨top', by omega, hcont''⟩, fun k e hk => hkeeps k e ?_, fun k hk => ?_,
        fun hold => hfiled fun k e hk => ?_⟩
      · rw [Dict.get?_set_ne _ _ fun heq => ?_]
        · exact hk
        · rw [← heq, hnew] at hk
          cases hk
      · rw [hframe k hk, Dict.get?_set_ne _ _ fun heq => hk ?_]
        rw [← heq, hid]
      · rw [Dict.get?_set] at hk
        split at hk
        · rename_i heq
          cases hk
          exact ⟨heq, hfp⟩
        · exact hold k e hk
    · have hheld := (hcont expected).mp (by rw [← hid, hold]; simp)
      omega

theorem validateBatchLoop_equivocation {peer : String} {afterSeq : Int} {batch : List HubEvent}
    {events : EventMap} {expected : Int} {peer' : String} {seq : Int}
    {accepted conflicting : String}
    (h : validateBatchLoop peer afterSeq events expected batch =
      .error (.equivocation peer' seq accepted conflicting)) : peer' = peer := by
  induction batch generalizing events expected with
  | nil => cases h
  | cons event rest ih =>
    rw [validateBatchLoop] at h
    split at h
    · cases h
    rename_i hpeer
    split at h
    · split at h
      · cases h
      rcases bind_error h with h | ⟨_, -, h⟩
      · exact (remember_equivocation h).trans (not_not.mp hpeer)
      · exact ih h
    split at h
    · cases h
    rcases bind_error h with h | ⟨_, -, h⟩
    · exact (remember_equivocation h).trans (not_not.mp hpeer)
    · exact ih h

end SynapseChannel
