import SynapseChannel.Core.MessageAuth
import SynapseChannel.Core.Persistence
import SynapseChannel.Lib.FloatHex
import SynapseChannel.Lib.JsonRead

/-!
# Core — EventRows

The rows of the event table as they are stored: the message
authentication code over a row's fields, the decoding of a row, and the
marker that stands for a row that does not decode or is not
authenticated.
-/

namespace SynapseChannel

open Py
open Framing (Bytes toBytes utf8)

/-- A value of an SQLite column. A text that is not UTF-8 is never read: the driver raises. -/
inductive SqlValue where
  | null
  | integer (n : Int)
  | real (x : Float)
  | text (s : String)
  | blob (b : Bytes)

/-- `float(value)` of an integer or a float; any other value is `none`. -/
def SqlValue.number? : SqlValue → Option Float
  | .integer n => some (Float.ofInt n)
  | .real x => some x
  | _ => none

/-- What a `REAL` column keeps of a float: NaN is stored as NULL, and -0.0 as the integer zero. -/
def SqlValue.ofReal (x : Float) : SqlValue :=
  if x.isNaN then .null else if x == 0 then .real 0 else .real x

structure EventRow where
  seq : Int
  ts : SqlValue
  kind : SqlValue
  payload : SqlValue
  mac : SqlValue

/-! ## Row authentication -/

def rowMacDomain : String := "SYNAPSE-CHANNEL:EVENT-ROW-MAC:v1\x00"

/-- `struct.pack(">q", n)`; `none` is its `struct.error`. -/
def packSigned (n : Int) : Option Bytes :=
  if -2 ^ 63 ≤ n ∧ n < 2 ^ 63 then some (toBytes 8 (n % 2 ^ 64).toNat) else none

/-- `struct.pack(">I", n)`; `none` is its `struct.error`. -/
def packLength (n : Nat) : Option Bytes := if n < 2 ^ 32 then some (toBytes 4 n) else none

/-- What the code of a row is taken over. -/
def rowMaterial (seq : Int) (ts : Float) (kind payload : String) : Option Bytes := do
  let packed ← packSigned seq
  let length ← packLength (utf8 kind).length
  return utf8 rowMacDomain ++ (packed ++ (encodeAscii (floatHex ts) ++
    0 :: (length ++ (utf8 kind ++ utf8 payload))))

/-- The hub's row key and the last sequence it does not cover. -/
structure RowMacKey where
  key : Bytes
  sinceSeq : Int

variable [Builtins]

namespace RowMacKey

/-- The hex code of one row as stored. -/
def mac (key : RowMacKey) (seq : Int) (ts : Float) (kind payload : String) : Option String :=
  (rowMaterial seq ts kind payload).map (MessageAuth.hmacSha256Hex key.key)

/-- Whether stored fields carry this key's code. -/
def verify (key : RowMacKey) (row : EventRow) : Option Bool :=
  match row.mac, row.ts.number?, row.kind, row.payload with
  | .text mac, some ts, .text kind, .text payload =>
    if isAscii mac then (key.mac row.seq ts kind payload).map fun expected => decide (mac = expected)
    else some false
  | _, _, _, _ => some false

end RowMacKey

/-! ## Markers -/

def corruptEventKind : String := "corrupt_event"

def corruptEventSchemaVersion : Int := 1

inductive CorruptEventReason where
  | invalidTimestamp
  | invalidKind
  | payloadNotText
  | invalidUtf8
  | invalidJson
  | payloadNotObject
  | reservedKind
  | rowMacMissing
  | rowMacInvalid
  deriving DecidableEq

namespace CorruptEventReason

def value : CorruptEventReason → String
  | invalidTimestamp => "invalid_timestamp"
  | invalidKind => "invalid_kind"
  | payloadNotText => "payload_not_text"
  | invalidUtf8 => "invalid_utf8"
  | invalidJson => "invalid_json"
  | payloadNotObject => "payload_not_object"
  | reservedKind => "reserved_kind"
  | rowMacMissing => "row_mac_missing"
  | rowMacInvalid => "row_mac_invalid"

def all : List CorruptEventReason :=
  [invalidTimestamp, invalidKind, payloadNotText, invalidUtf8, invalidJson, payloadNotObject,
    reservedKind, rowMacMissing, rowMacInvalid]

/-- `CorruptEventReason(value)`; `none` is its `ValueError`. -/
def ofJson : Json → Option CorruptEventReason
  | .str text => all.find? fun reason => reason.value = text
  | _ => none

omit [Builtins] in
theorem ofJson_value (reason : CorruptEventReason) : ofJson (.str reason.value) = some reason := by
  cases reason <;> decide

end CorruptEventReason

/-- Safe forensic identity for one quarantined row. -/
structure CorruptEventRow where
  seq : Int
  originalKind : Option String
  reasons : List CorruptEventReason
  payloadSha256 : String

/-- A bounded printable kind, or `none` for unsafe stored content. -/
def safeOriginalKind (value : SqlValue) : Option String :=
  match value with
  | .text kind =>
    if kind ≠ "" ∧ len kind ≤ 128 ∧ isPrintable kind = true ∧
        (kind.toList.any fun c => c == '\r' || c == '\n') = false then some kind
    else none
  | _ => none

/-- A domain-separated digest of any stored payload. -/
def payloadDigest (value : SqlValue) : String :=
  Builtins.sha256Hex <|
    match value with
    | .null => utf8 "null\x00"
    | .blob bytes => utf8 "blob\x00" ++ bytes
    | .text s => utf8 "text\x00" ++ utf8 s
    | .integer n => utf8 "integer\x00" ++ utf8 (toString n)
    | .real x => utf8 "real\x00" ++ encodeAscii (floatHex x)

/-- The marker of a row that the hub's code does not vouch for. -/
def unauthenticatedRow (row : EventRow) : CorruptEventRow where
  seq := row.seq
  originalKind := safeOriginalKind row.kind
  reasons := [match row.mac with | .null => .rowMacMissing | _ => .rowMacInvalid]
  payloadSha256 := payloadDigest row.payload

namespace CorruptEventRow

omit [Builtins] in
def asPayload (marker : CorruptEventRow) : Members :=
  [("schema_version", .int corruptEventSchemaVersion),
   ("seq", .int marker.seq),
   ("original_kind", match marker.originalKind with | some kind => .str kind | none => .null),
   ("reasons", .arr (marker.reasons.map fun reason => .str reason.value)),
   ("payload_sha256", .str marker.payloadSha256)]

/-- Whether a text is 64 lowercase hexadecimal digits. -/
def isSha256Text (digest : String) : Bool :=
  decide (len digest = 64) && digest.toList.all fun c => "0123456789abcdef".toList.contains c

/-- The kind a marker's payload names: absent, or safe. -/
def kindOfPayload (payload : Members) : Except String (Option String) :=
  match payload.get "original_kind" with
  | .null => .ok none
  | .str kind =>
    if safeOriginalKind (.text kind) = some kind then .ok (some kind)
    else .error "unsafe corrupt-event original kind"
  | _ => .error "unsafe corrupt-event original kind"

section

omit [Builtins]

def reasonsOfPayload (payload : Members) : Except String (List CorruptEventReason) :=
  match payload.get "reasons" with
  | .arr [] => .error "corrupt-event marker has no reasons"
  | .arr raw =>
    match raw.mapM CorruptEventReason.ofJson with
    | some reasons => .ok reasons
    | none => .error "invalid corrupt-event reason"
  | _ => .error "corrupt-event marker has no reasons"

def digestOfPayload (payload : Members) : Except String String :=
  match payload.get "payload_sha256" with
  | .str digest =>
    if isSha256Text digest then .ok digest else .error "invalid corrupt-event payload digest"
  | _ => .error "invalid corrupt-event payload digest"

/-- The schema version and the sequence a marker must carry. -/
def checkHeader (seq : Int) (payload : Members) : Except String Unit :=
  match payload.get "schema_version" with
  | .int version =>
    if version = corruptEventSchemaVersion then
      match payload.get "seq" with
      | .int markerSeq =>
        if markerSeq = seq then .ok () else .error "corrupt-event marker sequence mismatch"
      | _ => .error "corrupt-event marker sequence mismatch"
    else .error "unsupported corrupt-event marker schema"
  | _ => .error "unsupported corrupt-event marker schema"

end

/-- Validate and reconstruct a marker. -/
def fromPayload (seq : Int) (payload : Members) : Except String CorruptEventRow := do
  checkHeader seq payload
  let originalKind ← kindOfPayload payload
  let reasons ← reasonsOfPayload payload
  let payloadSha256 ← digestOfPayload payload
  return { seq, originalKind, reasons, payloadSha256 }

end CorruptEventRow

/-! ## Decoding -/

structure DecodedEventRow where
  seq : Int
  ts : Float
  kind : String
  payload : Members
  corruption : Option CorruptEventRow

omit [Builtins] in
def decodeTs (value : SqlValue) : Except CorruptEventReason Float :=
  match value.number? with
  | some ts => if ts.isFinite then .ok ts else .error .invalidTimestamp
  | none => .error .invalidTimestamp

def decodeKind (value : SqlValue) : Except CorruptEventReason String :=
  match safeOriginalKind value with
  | none => .error .invalidKind
  | some kind => if kind = corruptEventKind then .error .reservedKind else .ok kind

def decodeText (text : String) : Except CorruptEventReason Members :=
  match loads text with
  | none => .error .invalidJson
  | some (.obj members) => .ok members
  | some _ => .error .payloadNotObject

def decodePayload (value : SqlValue) : Except CorruptEventReason Members :=
  match value with
  | .text s => decodeText s
  | .blob b =>
    match String.fromUTF8? ⟨b.toArray⟩ with
    | some s => decodeText s
    | none => .error .invalidUtf8
  | _ => .error .payloadNotText

omit [Builtins] in
/-- The reason a field was refused for. -/
def reasonOf {α : Type} : Except CorruptEventReason α → List CorruptEventReason
  | .ok _ => []
  | .error reason => [reason]

/-- Decode one stored row into safe values: the event, or a marker. -/
def decodeEventRow (row : EventRow) : DecodedEventRow :=
  match decodeTs row.ts, decodeKind row.kind, decodePayload row.payload with
  | .ok ts, .ok kind, .ok payload => ⟨row.seq, ts, kind, payload, none⟩
  | ts, kind, payload =>
    let corruption : CorruptEventRow :=
      { seq := row.seq
        originalKind := safeOriginalKind row.kind
        reasons := reasonOf ts ++ reasonOf kind ++ reasonOf payload
        payloadSha256 := payloadDigest row.payload }
    ⟨row.seq, ts.toOption.getD 0, corruptEventKind, corruption.asPayload, some corruption⟩

def DecodedEventRow.event (decoded : DecodedEventRow) : StoredEvent :=
  ⟨decoded.seq, decoded.ts, decoded.kind, decoded.payload⟩

/-! ## What a code vouches for -/

section

omit [Builtins]

theorem packSigned_inj {n m : Int} {packed : Bytes} (hn : packSigned n = some packed)
    (hm : packSigned m = some packed) : n = m := by
  unfold packSigned at hn hm
  split at hn <;> [skip; cases hn]
  rename_i hnb
  split at hm <;> [skip; cases hm]
  rename_i hmb
  have heq := Framing.toBytes_inj (by omega) (by omega) ((Option.some.inj hn).trans (Option.some.inj hm).symm)
  omega

theorem packSigned_length {n : Int} {packed : Bytes} (h : packSigned n = some packed) :
    packed.length = 8 := by
  unfold packSigned at h
  split at h <;> [skip; cases h]
  rw [← Option.some.inj h]
  exact Framing.toBytes_length 8 _

theorem packLength_inj {n m : Nat} {packed : Bytes} (hn : packLength n = some packed)
    (hm : packLength m = some packed) : n = m := by
  unfold packLength at hn hm
  split at hn <;> [skip; cases hn]
  rename_i hnb
  split at hm <;> [skip; cases hm]
  rename_i hmb
  exact Framing.toBytes_inj (by omega) (by omega) ((Option.some.inj hn).trans (Option.some.inj hm).symm)

theorem packLength_length {n : Nat} {packed : Bytes} (h : packLength n = some packed) :
    packed.length = 4 := by
  unfold packLength at h
  split at h <;> [skip; cases h]
  rw [← Option.some.inj h]
  exact Framing.toBytes_length 4 _

theorem rowMaterial_some {seq : Int} {ts : Float} {kind payload : String} {material : Bytes}
    (h : rowMaterial seq ts kind payload = some material) :
    ∃ packed length, packSigned seq = some packed ∧
      packLength (utf8 kind).length = some length ∧
      material = utf8 rowMacDomain ++ (packed ++ (encodeAscii (floatHex ts) ++
        0 :: (length ++ (utf8 kind ++ utf8 payload)))) := by
  unfold rowMaterial at h
  simp only [Option.bind_eq_bind, Option.bind_eq_some_iff] at h
  obtain ⟨packed, hpacked, length, hlength, heq⟩ := h
  exact ⟨packed, length, hpacked, hlength, (Option.some.inj heq).symm⟩

/-- What a code is taken over determines the fields of the row. -/
theorem rowMaterial_inj {seq seq' : Int} {ts ts' : Float} {kind kind' payload payload' : String}
    {material : Bytes} (h : rowMaterial seq ts kind payload = some material)
    (h' : rowMaterial seq' ts' kind' payload' = some material) :
    seq = seq' ∧ ts = ts' ∧ kind = kind' ∧ payload = payload' := by
  obtain ⟨packed, length, hpacked, hlength, hmaterial⟩ := rowMaterial_some h
  obtain ⟨packed', length', hpacked', hlength', hmaterial'⟩ := rowMaterial_some h'
  have hbytes := List.append_cancel_left (hmaterial.symm.trans hmaterial')
  obtain ⟨hseq, hstamped⟩ := List.append_inj hbytes
    ((packSigned_length hpacked).trans (packSigned_length hpacked').symm)
  -- No NUL is in the text of the timestamp, so it ends where the separator stands.
  obtain ⟨hts, hframed⟩ :=
    encodeAscii_nul_inj (plainAscii_floatHex ts) (plainAscii_floatHex ts') hstamped
  obtain ⟨hlen, htexts⟩ := List.append_inj hframed
    ((packLength_length hlength).trans (packLength_length hlength').symm)
  rw [← hlen] at hlength'
  rw [← hseq] at hpacked'
  obtain ⟨hkind, hpayload⟩ := List.append_inj htexts (packLength_inj hlength hlength')
  exact ⟨packSigned_inj hpacked hpacked', floatHex_inj hts, Framing.utf8_inj hkind,
    Framing.utf8_inj hpayload⟩

end

/-- The stored fields of a row and the code over them under a key. -/
structure EventRow.Carries (row : EventRow) (key : RowMacKey) (ts : Float)
    (kind payload : String) : Prop where
  stamp : row.ts.number? = some ts
  named : row.kind = .text kind
  stored : row.payload = .text payload
  code : ∃ tag, row.mac = .text tag ∧ key.mac row.seq ts kind payload = some tag

theorem RowMacKey.mac_ascii {key : RowMacKey} {seq : Int} {ts : Float} {kind payload tag : String}
    (h : key.mac seq ts kind payload = some tag) : isAscii tag = true := by
  unfold RowMacKey.mac at h
  obtain ⟨material, -, rfl⟩ := Option.map_eq_some_iff.mp h
  exact isAscii_hex _

/-- A row passes exactly when it carries the code over its own fields. -/
theorem RowMacKey.verify_iff {key : RowMacKey} {row : EventRow} :
    key.verify row = some true ↔ ∃ ts kind payload, row.Carries key ts kind payload := by
  constructor
  · intro h
    unfold RowMacKey.verify at h
    split at h
    · rename_i tag ts kind payload hmac hts hkind hpayload
      split at h
      · obtain ⟨expected, hexpected, heq⟩ := Option.map_eq_some_iff.mp h
        rw [decide_eq_true_iff] at heq
        exact ⟨ts, kind, payload, hts, hkind, hpayload, tag, hmac, heq ▸ hexpected⟩
      · cases h
    · cases h
  · rintro ⟨ts, kind, payload, hts, hkind, hpayload, tag, hmac, hcode⟩
    unfold RowMacKey.verify
    rw [hmac, hts, hkind, hpayload]
    dsimp only
    rw [if_pos (RowMacKey.mac_ascii hcode), hcode]
    exact congrArg some (decide_eq_true rfl)

/-! ## What a marker says -/

theorem safeOriginalKind_some {value : SqlValue} {kind : String}
    (h : safeOriginalKind value = some kind) :
    value = .text kind ∧ safeOriginalKind (.text kind) = some kind := by
  unfold safeOriginalKind at h
  split at h
  · split at h
    · rename_i hsafe
      cases h
      exact ⟨rfl, if_pos hsafe⟩
    · cases h
  · cases h

theorem isSha256Text_digest (hsha : Sha256Spelled) (data : Bytes) :
    CorruptEventRow.isSha256Text (Builtins.sha256Hex data) = true := by
  obtain ⟨hlength, hdigits⟩ := hsha.digits data
  rw [CorruptEventRow.isSha256Text, Bool.and_eq_true, decide_eq_true_eq, List.all_eq_true]
  exact ⟨hlength, hdigits⟩

namespace CorruptEventRow

/-- A marker that the readers produce. -/
structure Shaped (marker : CorruptEventRow) : Prop where
  kind : ∀ kind, marker.originalKind = some kind → safeOriginalKind (.text kind) = some kind
  reasons : marker.reasons ≠ []
  digest : isSha256Text marker.payloadSha256 = true

omit [Builtins] in
theorem mapM_ofJson_value (reasons : List CorruptEventReason) :
    (reasons.map fun reason => Json.str reason.value).mapM CorruptEventReason.ofJson =
      some reasons := by
  induction reasons with
  | nil => rfl
  | cons reason rest ih =>
    rw [List.map_cons, List.mapM_cons, CorruptEventReason.ofJson_value, ih]
    rfl

omit [Builtins] in
theorem reasonsOfPayload_asPayload {marker : CorruptEventRow} (h : marker.reasons ≠ []) :
    reasonsOfPayload marker.asPayload = .ok marker.reasons := by
  have hget : Members.get marker.asPayload "reasons" =
      .arr (marker.reasons.map fun reason => .str reason.value) := rfl
  obtain ⟨reason, rest, hreasons⟩ := List.exists_cons_of_ne_nil h
  unfold reasonsOfPayload
  rw [hget, hreasons, List.map_cons]
  dsimp only
  rw [← List.map_cons (f := fun reason : CorruptEventReason => Json.str reason.value),
    mapM_ofJson_value]

/-- The marker is read back from its payload. -/
theorem fromPayload_asPayload {marker : CorruptEventRow} (h : marker.Shaped) :
    fromPayload marker.seq marker.asPayload = .ok marker := by
  have hheader : checkHeader marker.seq marker.asPayload = .ok () := by
    show (if marker.seq = marker.seq then Except.ok () else _) = _
    exact if_pos rfl
  have hkind : kindOfPayload marker.asPayload = .ok marker.originalKind := by
    have hget : Members.get marker.asPayload "original_kind" =
      match marker.originalKind with | some kind => .str kind | none => .null := rfl
    unfold kindOfPayload
    rw [hget]
    cases horiginal : marker.originalKind with
    | none => rfl
    | some kind => exact if_pos (h.kind kind horiginal)
  have hdigest : digestOfPayload marker.asPayload = .ok marker.payloadSha256 := by
    show (if isSha256Text marker.payloadSha256 = true then _ else _) = _
    exact if_pos h.digest
  unfold fromPayload
  rw [hheader, hkind, reasonsOfPayload_asPayload h.reasons, hdigest]
  rfl

end CorruptEventRow

theorem shaped_unauthenticatedRow (hsha : Sha256Spelled) (row : EventRow) :
    (unauthenticatedRow row).Shaped where
  kind := fun _ hkind => (safeOriginalKind_some hkind).2
  reasons := List.cons_ne_nil _ _
  digest := isSha256Text_digest hsha _

theorem decodeEventRow_cases (hsha : Sha256Spelled) (row : EventRow) :
    (∃ ts kind payload, decodeTs row.ts = .ok ts ∧ decodeKind row.kind = .ok kind ∧
      decodePayload row.payload = .ok payload ∧
      decodeEventRow row = ⟨row.seq, ts, kind, payload, none⟩) ∨
    ∃ ts marker, marker.Shaped ∧ marker.seq = row.seq ∧
      decodeEventRow row =
        ⟨row.seq, ts, corruptEventKind, marker.asPayload, some marker⟩ := by
  unfold decodeEventRow
  split
  · rename_i ts kind payload hts hkind hpayload
    exact .inl ⟨ts, kind, payload, hts, hkind, hpayload, rfl⟩
  · rename_i hbad
    refine .inr ⟨_, _, ⟨fun _ hkind => (safeOriginalKind_some hkind).2, ?_,
      isSha256Text_digest hsha _⟩, rfl, rfl⟩
    -- A marker is made only where one of the fields was refused.
    intro hnone
    obtain ⟨⟨hts, hkind⟩, hpayload⟩ : (reasonOf (decodeTs row.ts) = [] ∧
        reasonOf (decodeKind row.kind) = []) ∧ reasonOf (decodePayload row.payload) = [] := by
      simpa only [List.append_eq_nil_iff] using hnone
    have accepted : ∀ {α : Type} {e : Except CorruptEventReason α}, reasonOf e = [] → ∃ v, e = .ok v := by
      intro α e he
      cases e with
      | ok v => exact ⟨v, rfl⟩
      | error reason => cases he
    obtain ⟨ts, hts⟩ := accepted hts
    obtain ⟨kind, hkind⟩ := accepted hkind
    obtain ⟨payload, hpayload⟩ := accepted hpayload
    exact hbad ts kind payload hts hkind hpayload

theorem decodeKind_ne {value : SqlValue} {kind : String} (h : decodeKind value = .ok kind) :
    value = .text kind ∧ kind ≠ corruptEventKind := by
  unfold decodeKind at h
  split at h
  · cases h
  · rename_i original horiginal
    split at h
    · cases h
    · rename_i hne
      cases h
      exact ⟨(safeOriginalKind_some horiginal).1, hne⟩

end SynapseChannel
