import SynapseChannel.Multihub.Equivocation
import SynapseChannel.Lib.JsonSame

/-!
# Multihub — FingerprintContent

What a fingerprint commits to, for events whose attributes are whatever a
peer sent: the checks of `event_fingerprint` on each attribute, and the
bytes it digests as a function of the content alone.
-/

namespace SynapseChannel

open Py Framing Outcome

/-! ## Canonical form and equality -/

/-- Lists are related item by item in one way exactly when they are in the other. -/
theorem forall₂_iff_of_mem {α β : Type} {R S : α → β → Prop} {l : List α} {l' : List β}
    (h : ∀ a ∈ l, ∀ b ∈ l', R a b ↔ S a b) : List.Forall₂ R l l' ↔ List.Forall₂ S l l' := by
  induction l generalizing l' with
  | nil => cases l' <;> simp
  | cons a rest ih =>
    cases l' with
    | nil => simp
    | cons b rest' =>
      rw [List.forall₂_cons, List.forall₂_cons, h a (by simp) b (by simp)]
      rw [ih fun a ha b hb => h a (by simp [ha]) b (by simp [hb])]

theorem map_eq_map_iff_forall₂ {α β : Type} {f : α → β} {l l' : List α} :
    l.map f = l'.map f ↔ List.Forall₂ (fun a b => f a = f b) l l' := by
  rw [← List.forall₂_eq_eq_eq, List.forall₂_map_left_iff, List.forall₂_map_right_iff]

theorem optionRel_map_iff {α β : Type} {f : α → β} {a b : Option α} :
    a.map f = b.map f ↔ Option.Rel (fun x y => f x = f y) a b := by
  cases a with
  | none => cases b <;> simp
  | some x => cases b <;> simp

/-- Sorted by name, members of distinct names are equal when every name finds the same. -/
theorem sortedMembers_eq_iff {data data' : Members} (hnames : (data.map Prod.fst).Nodup)
    (hnames' : (data'.map Prod.fst).Nodup) :
    sortedBy nameLt (fun m => utf8 m.1) data = sortedBy nameLt (fun m => utf8 m.1) data' ↔
      ∀ name, data.get? name = data'.get? name := by
  constructor
  · intro h name
    have hperm := (sortedBy_perm nameLt (fun m : String × Json => utf8 m.1) data).symm
    rw [h] at hperm
    exact Members.get?_of_perm hnames (hperm.trans (sortedBy_perm nameLt _ data')) name
  · intro h
    have hperm : data.Perm data' := by
      refine (List.perm_ext_iff_of_nodup (.of_map _ hnames) (.of_map _ hnames')).mpr fun m => ?_
      constructor
      · intro hm
        have hfind := Dict.find_of_mem hnames hm
        exact Dict.mem_of_find ((h m.1).symm.trans hfind)
      · intro hm
        have hfind := Dict.find_of_mem hnames' hm
        exact Dict.mem_of_find ((h m.1).trans hfind)
    have hsorted := @sortedBy_eq_of_perm _ _ _ _ _ _ _ (fun m : String × Json => utf8 m.1) data data' hperm
    refine hsorted fun a ha b hb hkey => ?_
    exact List.inj_on_of_nodup_map hnames ha hb (utf8_inj hkey)

theorem map_fst_normMembers (members : Members) :
    (normMembers members).map Prod.fst = members.map Prod.fst := by
  rw [normMembers_eq_map, List.map_map]
  rfl

/-- Values have one canonical form exactly when they are the same up to the order of members. -/
theorem norm_eq_iff_same {v w : Json} (hv : v.Keyed) (hw : w.Keyed) :
    norm v = norm w ↔ v.Same w := by
  induction v using Json.induction generalizing w with
  | null => exact ⟨fun h => by cases w <;> cases h; exact .null, fun h => by cases h; rfl⟩
  | bool b => exact ⟨fun h => by cases w <;> cases h; exact .bool b, fun h => by cases h; rfl⟩
  | int n => exact ⟨fun h => by cases w <;> cases h; exact .int n, fun h => by cases h; rfl⟩
  | float x => exact ⟨fun h => by cases w <;> cases h; exact .float x, fun h => by cases h; rfl⟩
  | str s => exact ⟨fun h => by cases w <;> cases h; exact .str s, fun h => by cases h; rfl⟩
  | arr items ih =>
    cases w with
    | arr items' =>
      cases hv with
      | arr hitems =>
        cases hw with
        | arr hitems' =>
          have hrel : List.Forall₂ (fun a b => norm a = norm b) items items' ↔
              List.Forall₂ Json.Same items items' :=
            forall₂_iff_of_mem fun a ha b hb => ih a ha (hitems a ha) (hitems' b hb)
          rw [norm, norm, Json.arr.injEq, normItems_eq_map, normItems_eq_map,
            map_eq_map_iff_forall₂, hrel]
          exact ⟨.arr, fun h => by cases h; assumption⟩
    | _ => exact iff_of_false (fun h => by cases h) (fun h => by cases h)
  | obj members ih =>
    cases w with
    | obj members' =>
      cases hv with
      | obj hnames hmembers =>
        cases hw with
        | obj hnames' hmembers' =>
          -- the members found under one name decide, by the members' own canonical forms
          have hfound : ∀ name, (Members.get? (normMembers members) name =
              Members.get? (normMembers members') name ↔
              Option.Rel Json.Same (Members.get? members name) (Members.get? members' name)) := by
            intro name
            rw [normMembers_eq_map, normMembers_eq_map, Members.get?, Members.get?, Dict.find_map,
              Dict.find_map, optionRel_map_iff]
            rw [Members.get?, Members.get?]
            cases hfind : Dict.find name members with
            | none => cases Dict.find name members' <;> simp
            | some a =>
              cases hfind' : Dict.find name members' with
              | none => simp
              | some b =>
                have ha := Dict.mem_of_find hfind
                have hb := Dict.mem_of_find hfind'
                simpa using ih _ ha (hmembers _ ha) (hmembers' _ hb)
          rw [norm, norm, Json.obj.injEq,
            sortedMembers_eq_iff (by rwa [map_fst_normMembers]) (by rwa [map_fst_normMembers])]
          constructor
          · intro h
            exact .obj fun name => (hfound name).mp (h name)
          · intro h name
            cases h with
            | obj h => exact (hfound name).mpr (h name)
    | _ => exact iff_of_false (fun h => by cases h) (fun h => by cases h)

/-! ## Events as they are presented -/

/-- An event whose attributes are the values a peer sent. -/
structure PresentedEvent where
  hubId : Json
  seq : Json
  ts : Json
  kind : Json
  payload : Json
  keyed : payload.Keyed

namespace PresentedEvent

def checkedHubId : Json → Except MultiHubError String
  | .str hubId =>
    if hubId = "" then .error (.value "multi-hub event hub_id must be a non-empty string")
    else .ok hubId
  | _ => .error (.value "multi-hub event hub_id must be a non-empty string")

def checkedSeq : Json → Except MultiHubError Int
  | .int seq =>
    if seq < 1 then .error (.value "multi-hub event sequence must be a positive integer")
    else .ok seq
  | _ => .error (.value "multi-hub event sequence must be a positive integer")

/-- `float(event.ts)`, which raises for an integer beyond the floats. -/
def checkedTs : Json → Except MultiHubError Float
  | .int ts => if (Float.ofInt ts).isFinite then .ok (Float.ofInt ts) else .error .overflow
  | .float ts =>
    if ts.isFinite then .ok ts else .error (.value "multi-hub event timestamp must be finite")
  | _ => .error (.value "multi-hub event timestamp must be numeric")

def checkedKind : Json → Except MultiHubError String
  | .str kind =>
    if kind = "" then .error (.value "multi-hub event kind must be a non-empty string")
    else .ok kind
  | _ => .error (.value "multi-hub event kind must be a non-empty string")

def checkedPayload : Json → Except MultiHubError Members
  | .obj payload => .ok payload
  | _ => .error (.value "multi-hub event payload must be a mapping")

/-- The event the checks let through. -/
def checked (event : PresentedEvent) : Except MultiHubError HubEvent := do
  let hubId ← checkedHubId event.hubId
  let seq ← checkedSeq event.seq
  let ts ← checkedTs event.ts
  let kind ← checkedKind event.kind
  let payload ← checkedPayload event.payload
  return { hubId, seq, ts, kind, payload }

/-- The bytes `event_fingerprint` feeds to the digest. -/
def fingerprintBytes (event : PresentedEvent) : Except MultiHubError Bytes := do
  let checked ← event.checked
  eventEncoding checked

/-- The bits of `float(event.ts)`; `none` where there is no such float. -/
def timestampBits (event : PresentedEvent) : Option UInt64 :=
  (checkedTs event.ts).toOption.map Float.toBits

/-! ## Equal bytes -/

theorem checkedHubId_ok {v : Json} {hubId : String} (h : checkedHubId v = .ok hubId) :
    v = .str hubId := by
  unfold checkedHubId at h
  grind

theorem checkedSeq_ok {v : Json} {seq : Int} (h : checkedSeq v = .ok seq) : v = .int seq := by
  unfold checkedSeq at h
  grind

theorem checkedKind_ok {v : Json} {kind : String} (h : checkedKind v = .ok kind) :
    v = .str kind := by
  unfold checkedKind at h
  grind

theorem checkedPayload_ok {v : Json} {payload : Members} (h : checkedPayload v = .ok payload) :
    v = .obj payload := by
  unfold checkedPayload at h
  grind

/-- What has passed the checks, attribute by attribute. -/
structure Checked (event : PresentedEvent) (checked : HubEvent) : Prop where
  hubId : event.hubId = .str checked.hubId
  seq : event.seq = .int checked.seq
  ts : checkedTs event.ts = .ok checked.ts
  kind : event.kind = .str checked.kind
  payload : event.payload = .obj checked.payload

theorem checked_ok {event : PresentedEvent} {e : HubEvent} (h : event.checked = .ok e) :
    Checked event e := by
  obtain ⟨hubId, hhub, h⟩ := bind_ok h
  obtain ⟨seq, hseq, h⟩ := bind_ok h
  obtain ⟨ts, hts, h⟩ := bind_ok h
  obtain ⟨kind, hkind, h⟩ := bind_ok h
  obtain ⟨payload, hpayload, h⟩ := bind_ok h
  cases h
  exact ⟨checkedHubId_ok hhub, checkedSeq_ok hseq, hts, checkedKind_ok hkind,
    checkedPayload_ok hpayload⟩

theorem fingerprintBytes_ok {event : PresentedEvent} {x : Bytes}
    (h : event.fingerprintBytes = .ok x) : ∃ e, Checked event e ∧ Encoded e x := by
  obtain ⟨e, hchecked, h⟩ := bind_ok h
  exact ⟨e, checked_ok hchecked, eventEncoding_ok h⟩

theorem Checked.timestampBits {event : PresentedEvent} {e : HubEvent} (h : Checked event e) :
    event.timestampBits = some e.ts.toBits := by
  rw [PresentedEvent.timestampBits, h.ts]
  rfl

theorem toBits_inj {x y : Float} (h : x.toBits = y.toBits) : x = y :=
  packDouble_inj (by rw [packDouble, packDouble, h])

/-- Canonical events agree exactly when the presented ones do, attribute by attribute. -/
theorem Checked.norm_eq_iff {a b : PresentedEvent} {e f : HubEvent} (ha : Checked a e)
    (hb : Checked b f) :
    e.norm = f.norm ↔ a.hubId = b.hubId ∧ a.seq = b.seq ∧ a.timestampBits = b.timestampBits ∧
      a.kind = b.kind ∧ a.payload.Same b.payload := by
  have hpayload := norm_eq_iff_same (ha.payload ▸ a.keyed) (hb.payload ▸ b.keyed)
  rw [norm, norm, Json.obj.injEq] at hpayload
  rw [ha.timestampBits, hb.timestampBits, ha.hubId, hb.hubId, ha.seq, hb.seq, ha.kind, hb.kind,
    ha.payload, hb.payload, ← hpayload]
  simp only [HubEvent.norm, HubEvent.mk.injEq, Json.str.injEq, Json.int.injEq, Option.some.injEq]
  constructor
  · rintro ⟨hhub, hseq, hts, hkind, hmembers⟩
    exact ⟨hhub, hseq, congrArg Float.toBits hts, hkind, hmembers⟩
  · rintro ⟨hhub, hseq, hts, hkind, hmembers⟩
    exact ⟨hhub, hseq, toBits_inj hts, hkind, hmembers⟩

/-- Two accepted events are digested from the same bytes exactly when their attributes are
equal: the timestamps as bits, the payloads up to the order of members. -/
theorem fingerprintBytes_eq_iff {a b : PresentedEvent} {x y : Bytes}
    (ha : a.fingerprintBytes = .ok x) (hb : b.fingerprintBytes = .ok y) :
    x = y ↔ a.hubId = b.hubId ∧ a.seq = b.seq ∧ a.timestampBits = b.timestampBits ∧
      a.kind = b.kind ∧ a.payload.Same b.payload := by
  obtain ⟨e, hcheckedA, hencodedA⟩ := fingerprintBytes_ok ha
  obtain ⟨f, hcheckedB, hencodedB⟩ := fingerprintBytes_ok hb
  rw [encoding_eq_iff hencodedA hencodedB, hcheckedA.norm_eq_iff hcheckedB]

theorem fingerprintBytes_eq_reordered :
    ∃ a b x y, fingerprintBytes a = .ok x ∧ fingerprintBytes b = .ok y ∧ a.payload ≠ b.payload ∧
      (x = y ↔ a.hubId = b.hubId ∧ a.seq = b.seq ∧ a.timestampBits = b.timestampBits ∧
        a.kind = b.kind ∧ a.payload.Same b.payload) := by
  let a : PresentedEvent :=
    { hubId := .str "h", seq := .int 1, ts := .int 2, kind := .str "k"
      payload := .obj [("a", .null), ("b", .bool true)]
      keyed := .obj (by decide) (by simp; exact ⟨.null, .bool true⟩) }
  let b : PresentedEvent :=
    { hubId := .str "h", seq := .int 1, ts := .float 2, kind := .str "k"
      payload := .obj [("b", .bool true), ("a", .null)]
      keyed := .obj (by decide) (by simp; exact ⟨.bool true, .null⟩) }
  obtain ⟨x, hx⟩ : ∃ x, a.fingerprintBytes = .ok x := ⟨_, rfl⟩
  obtain ⟨y, hy⟩ : ∃ y, b.fingerprintBytes = .ok y := ⟨_, rfl⟩
  exact ⟨a, b, x, y, hx, hy, by simp [a, b], fingerprintBytes_eq_iff hx hy⟩

end PresentedEvent

end SynapseChannel
