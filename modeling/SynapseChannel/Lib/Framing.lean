import Mathlib.Algebra.Group.Nat.Defs
import Mathlib.Tactic.Common

/-!
# Lib — Framing

Tagged, length-prefixed byte strings: a frame is a tag byte, the length
of the payload in eight big-endian bytes, and the payload. A
concatenation of frames determines the frames.
-/

namespace Framing

abbrev Bytes := List UInt8

/-- `n.to_bytes(width, "big")` for `n` below `256 ^ width`. -/
def toBytes : Nat → Nat → Bytes
  | 0, _ => []
  | width + 1, n => toBytes width (n / 256) ++ [UInt8.ofNat n]

@[simp] theorem toBytes_length (width n : Nat) : (toBytes width n).length = width := by
  induction width generalizing n with
  | zero => rfl
  | succ width ih => simp [toBytes, ih]

theorem toBytes_inj {width n m : Nat} (hn : n < 256 ^ width) (hm : m < 256 ^ width)
    (h : toBytes width n = toBytes width m) : n = m := by
  induction width generalizing n m with
  | zero => simp only [Nat.pow_zero] at hn hm; omega
  | succ width ih =>
    obtain ⟨hdiv, hlast⟩ := List.append_inj h (by simp)
    have hmod : n % 256 = m % 256 := by
      have := congrArg UInt8.toNat (List.cons.inj hlast).1
      simpa [UInt8.toNat_ofNat'] using this
    rw [Nat.pow_succ] at hn hm
    have := ih (by omega) (by omega) hdiv
    omega

/-- One tagged, length-prefixed byte string; `none` when the length does
not fit the prefix. -/
def frame (tag : UInt8) (payload : Bytes) : Option Bytes :=
  if payload.length < 256 ^ 8 then some (tag :: toBytes 8 payload.length ++ payload) else none

/-- The frames of a list, one after the other. -/
def frames : List (UInt8 × Bytes) → Option Bytes
  | [] => some []
  | (tag, payload) :: rest => do
    let head ← frame tag payload
    let tail ← frames rest
    return head ++ tail

/-- A frame at the front is determined, and so is what follows it. -/
theorem frame_inj {tag tag' : UInt8} {payload payload' f f' x y : Bytes}
    (h : frame tag payload = some f) (h' : frame tag' payload' = some f')
    (heq : f ++ x = f' ++ y) : tag = tag' ∧ payload = payload' ∧ x = y := by
  unfold frame at h h'
  split at h <;> [skip; cases h]
  rename_i hlen
  split at h' <;> [skip; cases h']
  rename_i hlen'
  cases h
  cases h'
  simp only [List.cons_append, List.append_assoc, List.cons.injEq] at heq
  obtain ⟨htag, heq⟩ := heq
  obtain ⟨hhead, heq⟩ := List.append_inj heq (by simp)
  obtain ⟨hpayload, hrest⟩ := List.append_inj heq (toBytes_inj hlen hlen' hhead)
  exact ⟨htag, hpayload, hrest⟩

/-- Concatenated frames are determined by their bytes. -/
theorem frames_inj {l l' : List (UInt8 × Bytes)} {b : Bytes} (h : frames l = some b)
    (h' : frames l' = some b) : l = l' := by
  have cons {tag : UInt8} {payload b : Bytes} {rest : List (UInt8 × Bytes)}
      (h : frames ((tag, payload) :: rest) = some b) : ∃ head tail,
      frame tag payload = some head ∧ frames rest = some tail ∧ b = head ++ tail := by
    simp only [frames, Option.bind_eq_bind, Option.bind_eq_some_iff] at h
    obtain ⟨head, hhead, tail, htail, heq⟩ := h
    cases heq
    exact ⟨head, tail, hhead, htail, rfl⟩
  have nonempty {tag : UInt8} {payload head : Bytes} (h : frame tag payload = some head) :
      head ≠ [] := by
    unfold frame at h
    split at h
    · cases h
      simp
    · cases h
  induction l generalizing l' b with
  | nil =>
    cases h
    cases l' with
    | nil => rfl
    | cons e' rest' =>
      obtain ⟨head, tail, hhead, -, heq⟩ := cons h'
      exact absurd (List.append_eq_nil_iff.mp heq.symm).1 (nonempty hhead)
  | cons e rest ih =>
    obtain ⟨head, tail, hhead, htail, rfl⟩ := cons h
    cases l' with
    | nil =>
      simp only [frames, Option.some.injEq] at h'
      exact absurd (List.append_eq_nil_iff.mp h'.symm).1 (nonempty hhead)
    | cons e' rest' =>
      obtain ⟨head', tail', hhead', htail', heq⟩ := cons h'
      obtain ⟨htag, hpayload, hrest⟩ := frame_inj hhead hhead' heq
      rw [Prod.ext htag hpayload, ih htail (hrest ▸ htail')]

/-! ## Scalars -/

/-- `text.encode("utf-8")`. -/
def utf8 (text : String) : Bytes := text.toByteArray.data.toList

theorem utf8_inj {s t : String} (h : utf8 s = utf8 t) : s = t :=
  String.toByteArray_inj.mp (ByteArray.ext (Array.toList_inj.mp h))

/-- `struct.pack(">d", x)`. -/
def packDouble (x : Float) : Bytes := toBytes 8 x.toBits.toNat

theorem packDouble_inj {x y : Float} (h : packDouble x = packDouble y) : x = y := by
  have hbits := toBytes_inj (UInt64.toNat_lt _) (UInt64.toNat_lt _) h
  have hbits := UInt64.toNat_inj.mp hbits
  obtain ⟨⟨bits, valid⟩⟩ := x
  obtain ⟨⟨bits', valid'⟩⟩ := y
  cases hbits
  rfl

end Framing
