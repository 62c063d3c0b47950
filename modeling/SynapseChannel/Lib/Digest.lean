import SynapseChannel.Lib.Framing
import SynapseChannel.Lib.Json

/-!
# Lib — Digest

Bytes in hexadecimal text, and SHA-256 as bytes and as text. A hex text
is read in either case and with ASCII whitespace between its bytes.
-/

namespace Py

open Framing (Bytes utf8)

/-! ## Hexadecimal -/

def hexDigit (n : Nat) : Char := if n < 10 then Char.ofNat (48 + n) else Char.ofNat (87 + n)

def hexValue (c : Char) : Option Nat :=
  let n := c.toNat
  if 48 ≤ n ∧ n ≤ 57 then some (n - 48)
  else if 97 ≤ n ∧ n ≤ 102 then some (n - 87)
  else if 65 ≤ n ∧ n ≤ 70 then some (n - 55)
  else none

def isAsciiSpace (c : Char) : Bool := c.toNat == 32 || (9 ≤ c.toNat && c.toNat ≤ 13)

/-- The two digits of each byte. -/
def hexChars (bytes : Bytes) : List Char :=
  bytes.flatMap fun b => [hexDigit (b.toNat / 16), hexDigit (b.toNat % 16)]

/-- `bytes.hex()`. -/
def hex (bytes : Bytes) : String := String.ofList (hexChars bytes)

def fromHexChars : List Char → Option Bytes
  | [] => some []
  | [c] => if isAsciiSpace c then some [] else none
  | c :: d :: rest =>
    if isAsciiSpace c then fromHexChars (d :: rest)
    else
      match hexValue c, hexValue d with
      | some high, some low => (fromHexChars rest).map (UInt8.ofNat (16 * high + low) :: ·)
      | _, _ => none

/-- `bytes.fromhex(text)`; `none` is its `ValueError`. -/
def fromHex (text : String) : Option Bytes := fromHexChars text.toList

theorem hexDigit_spec (n : Nat) (h : n < 16) :
    hexValue (hexDigit n) = some n ∧ isAsciiSpace (hexDigit n) = false := by
  have hall : ∀ i : Fin 16,
      hexValue (hexDigit i) = some i.val ∧ isAsciiSpace (hexDigit i) = false := by decide
  exact hall ⟨n, h⟩

@[simp] theorem fromHex_hex (bytes : Bytes) : fromHex (hex bytes) = some bytes := by
  rw [fromHex, hex, String.toList_ofList]
  induction bytes with
  | nil => rfl
  | cons b rest ih =>
    have hb : b.toNat < 256 := b.toNat_lt
    obtain ⟨hhigh, hspace⟩ := hexDigit_spec (b.toNat / 16) (by omega)
    obtain ⟨hlow, -⟩ := hexDigit_spec (b.toNat % 16) (by omega)
    have hjoin : 16 * (b.toNat / 16) + b.toNat % 16 = b.toNat := by omega
    show fromHexChars (hexDigit (b.toNat / 16) :: hexDigit (b.toNat % 16) :: hexChars rest) = _
    rw [fromHexChars, hspace, hhigh, hlow, ih]
    simp [hjoin]

theorem hex_inj {a b : Bytes} (h : hex a = hex b) : a = b := by
  have hread := congrArg fromHex h
  simpa using hread

theorem digit_of_mem_hexChars {bytes : Bytes} {c : Char} (h : c ∈ hexChars bytes) :
    ∃ i : Fin 16, c = hexDigit i := by
  obtain ⟨b, -, hc⟩ := List.mem_flatMap.mp h
  have hb : b.toNat < 256 := b.toNat_lt
  rcases List.mem_cons.mp hc with rfl | hc
  · exact ⟨⟨b.toNat / 16, by omega⟩, rfl⟩
  · exact ⟨⟨b.toNat % 16, by omega⟩, List.mem_singleton.mp hc⟩

theorem length_hexChars (bytes : Bytes) : (hexChars bytes).length = 2 * bytes.length := by
  rw [hexChars, List.length_flatMap]
  simp [Nat.mul_comm]

/-! ## Comparison and SHA-256 -/

def isAscii (text : String) : Bool := text.toList.all fun c => c.toNat < 128

/-- `hmac.compare_digest` of two texts, which must be ASCII. -/
def compareDigest (a b : String) : Except String Bool :=
  if isAscii a ∧ isAscii b then .ok (a == b)
  else .error "comparing strings with non-ASCII characters is not supported"

theorem isAscii_hex (bytes : Bytes) : isAscii (hex bytes) = true := by
  have hall : ∀ i : Fin 16, (hexDigit i).toNat < 128 := by decide
  rw [isAscii, hex, String.toList_ofList, List.all_eq_true]
  intro c hc
  obtain ⟨i, rfl⟩ := digit_of_mem_hexChars hc
  simpa using hall i

theorem compareDigest_ok {a b : String} {same : Bool} (h : compareDigest a b = .ok same) :
    same = (a == b) := by
  unfold compareDigest at h
  split at h
  · cases h
    rfl
  · cases h

variable [Builtins]

/-- `hashlib.sha256(data).digest()`. -/
def sha256 (data : Bytes) : Bytes := (fromHex (Builtins.sha256Hex data)).getD []

/-- The hex digest spells 32 bytes. -/
def Sha256Spelled : Prop :=
  ∀ data, ∃ digest : Bytes, digest.length = 32 ∧ Builtins.sha256Hex data = hex digest

theorem Sha256Spelled.length (h : Sha256Spelled) (data : Bytes) : (sha256 data).length = 32 := by
  obtain ⟨digest, hlen, heq⟩ := h data
  rw [sha256, heq, fromHex_hex]
  exact hlen

/-- A digest is 64 lower-case hexadecimal digits. -/
theorem Sha256Spelled.digits (h : Sha256Spelled) (data : Bytes) :
    (Builtins.sha256Hex data).toList.length = 64 ∧
      ∀ c ∈ (Builtins.sha256Hex data).toList, "0123456789abcdef".toList.contains c = true := by
  obtain ⟨digest, hlength, heq⟩ := h data
  have hdigit : ∀ i : Fin 16, "0123456789abcdef".toList.contains (hexDigit i) = true := by decide
  rw [heq, hex, String.toList_ofList, length_hexChars, hlength]
  refine ⟨rfl, fun c hc => ?_⟩
  obtain ⟨i, rfl⟩ := digit_of_mem_hexChars hc
  exact hdigit i

/-- Among `texts`, equal digests are of equal texts. -/
def NoCollision (texts : List String) : Prop :=
  ∀ s ∈ texts, ∀ t ∈ texts, Builtins.sha256Hex (utf8 s) = Builtins.sha256Hex (utf8 t) → s = t

/-- The built-ins on printable ASCII text with a 32-byte checksum for a
digest; for evaluating the definitions on small inputs. -/
abbrev Builtins.checksum : Builtins :=
  { Builtins.ascii with
    sha256Hex := fun data =>
      hex (Framing.toBytes 32 (data.foldl (fun acc b => acc * 257 + b.toNat + 1) 0)) }

omit [Builtins] in
theorem sha256Spelled_checksum : @Sha256Spelled Builtins.checksum :=
  fun _ => ⟨_, Framing.toBytes_length 32 _, rfl⟩

end Py
