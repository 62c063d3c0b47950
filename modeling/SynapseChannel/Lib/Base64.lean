import SynapseChannel.Lib.Framing
import SynapseChannel.Lib.Text

/-!
# Lib — Base64

Bytes in base64 text with its padding. A text is read only when every
character is of the alphabet and the padding ends it.
-/

namespace Py

open Framing (Bytes)

namespace Base64

/-- The digit of a value below 64. -/
def digit (n : Nat) : Char :=
  if n < 26 then Char.ofNat (65 + n)
  else if n < 52 then Char.ofNat (71 + n)
  else if n < 62 then Char.ofNat (n - 4)
  else if n = 62 then '+'
  else '/'

def value (c : Char) : Option Nat :=
  let n := c.toNat
  if 65 ≤ n ∧ n ≤ 90 then some (n - 65)
  else if 97 ≤ n ∧ n ≤ 122 then some (n - 71)
  else if 48 ≤ n ∧ n ≤ 57 then some (n + 4)
  else if c = '+' then some 62
  else if c = '/' then some 63
  else none

def encodeChars : Bytes → List Char
  | [] => []
  | [a] => [digit (a.toNat / 4), digit (a.toNat % 4 * 16), '=', '=']
  | [a, b] =>
    [digit (a.toNat / 4), digit (a.toNat % 4 * 16 + b.toNat / 16), digit (b.toNat % 16 * 4), '=']
  | a :: b :: c :: rest =>
    digit (a.toNat / 4) :: digit (a.toNat % 4 * 16 + b.toNat / 16) ::
      digit (b.toNat % 16 * 4 + c.toNat / 64) :: digit (c.toNat % 64) :: encodeChars rest

/-- The bytes of four digits, the last one or two of them padding. -/
def decodeChars : List Char → Option Bytes
  | [] => some []
  | w :: x :: y :: z :: rest => do
    let w ← value w
    let x ← value x
    if z = '=' ∧ rest = [] then
      if y = '=' then
        return [UInt8.ofNat (w * 4 + x / 16)]
      else
        let y ← value y
        return [UInt8.ofNat (w * 4 + x / 16), UInt8.ofNat (x % 16 * 16 + y / 4)]
    else
      let y ← value y
      let z ← value z
      let bytes ← decodeChars rest
      return UInt8.ofNat (w * 4 + x / 16) :: UInt8.ofNat (x % 16 * 16 + y / 4) ::
        UInt8.ofNat (y % 4 * 64 + z) :: bytes
  | _ => none

/-- `base64.b64encode(data).decode("ascii")`. -/
def encode (bytes : Bytes) : String := String.ofList (encodeChars bytes)

/-- `base64.b64decode(text, validate=True)`; `none` is its `binascii.Error`. -/
def decode (text : String) : Option Bytes := decodeChars text.toList

theorem digit_spec (n : Nat) (h : n < 64) : value (digit n) = some n ∧ digit n ≠ '=' := by
  have hall : ∀ i : Fin 64, value (digit i) = some i.val ∧ digit i ≠ '=' := by decide
  exact hall ⟨n, h⟩

theorem ofNat_of_eq {a : UInt8} {n : Nat} (h : n = a.toNat) : UInt8.ofNat n = a := by
  rw [h, UInt8.ofNat_toNat]

theorem decodeChars_encodeChars (bytes : Bytes) :
    decodeChars (encodeChars bytes) = some bytes := by
  induction bytes using encodeChars.induct with
  | case1 => rfl
  | case2 a =>
    have ha := a.toNat_lt
    obtain ⟨hw, -⟩ := digit_spec (a.toNat / 4) (by omega)
    obtain ⟨hx, -⟩ := digit_spec (a.toNat % 4 * 16) (by omega)
    have hfirst : UInt8.ofNat (a.toNat / 4 * 4 + a.toNat % 4 * 16 / 16) = a :=
      ofNat_of_eq (by omega)
    simp only [encodeChars, decodeChars, hw, hx, hfirst, Option.bind_eq_bind, Option.bind_some,
      Option.pure_def, and_self, if_true]
  | case3 a b =>
    have ha := a.toNat_lt
    have hb := b.toNat_lt
    obtain ⟨hw, -⟩ := digit_spec (a.toNat / 4) (by omega)
    obtain ⟨hx, -⟩ := digit_spec (a.toNat % 4 * 16 + b.toNat / 16) (by omega)
    obtain ⟨hy, hpad⟩ := digit_spec (b.toNat % 16 * 4) (by omega)
    have hfirst : UInt8.ofNat (a.toNat / 4 * 4 + (a.toNat % 4 * 16 + b.toNat / 16) / 16) = a :=
      ofNat_of_eq (by omega)
    have hsecond : UInt8.ofNat ((a.toNat % 4 * 16 + b.toNat / 16) % 16 * 16 +
        b.toNat % 16 * 4 / 4) = b := ofNat_of_eq (by omega)
    simp only [encodeChars, decodeChars, hw, hx, hy, hpad, hfirst, hsecond, Option.bind_eq_bind,
      Option.bind_some, Option.pure_def, and_self, if_true, if_false]
  | case4 a b c rest ih =>
    have ha := a.toNat_lt
    have hb := b.toNat_lt
    have hc := c.toNat_lt
    obtain ⟨hw, -⟩ := digit_spec (a.toNat / 4) (by omega)
    obtain ⟨hx, -⟩ := digit_spec (a.toNat % 4 * 16 + b.toNat / 16) (by omega)
    obtain ⟨hy, -⟩ := digit_spec (b.toNat % 16 * 4 + c.toNat / 64) (by omega)
    obtain ⟨hz, hpad⟩ := digit_spec (c.toNat % 64) (by omega)
    have hfirst : UInt8.ofNat (a.toNat / 4 * 4 + (a.toNat % 4 * 16 + b.toNat / 16) / 16) = a :=
      ofNat_of_eq (by omega)
    have hsecond : UInt8.ofNat ((a.toNat % 4 * 16 + b.toNat / 16) % 16 * 16 +
        (b.toNat % 16 * 4 + c.toNat / 64) / 4) = b := ofNat_of_eq (by omega)
    have hthird : UInt8.ofNat ((b.toNat % 16 * 4 + c.toNat / 64) % 4 * 64 + c.toNat % 64) = c :=
      ofNat_of_eq (by omega)
    simp only [encodeChars, decodeChars, hw, hx, hy, hz, hpad, hfirst, hsecond, hthird, ih,
      Option.bind_eq_bind, Option.bind_some, Option.pure_def, false_and, if_false]

@[simp] theorem decode_encode (bytes : Bytes) : decode (encode bytes) = some bytes := by
  rw [decode, encode, String.toList_ofList, decodeChars_encodeChars]

/-! ## Blanks -/

theorem stripChars_eq_self {p : Char → Bool} {cs : List Char} (h : ∀ c ∈ cs, p c = false) :
    stripChars p cs = cs := by
  have hdrop : ∀ l : List Char, (∀ c ∈ l, p c = false) → l.dropWhile p = l := by
    intro l hl
    cases l with
    | nil => rfl
    | cons c rest => exact List.dropWhile_cons_of_neg (by simp [hl c List.mem_cons_self])
  rw [stripChars, hdrop cs h, hdrop cs.reverse fun c hc => h c (List.mem_reverse.mp hc),
    List.reverse_reverse]

theorem isSpace_digit (n : Nat) (h : n < 64) : isSpace (digit n) = false := by
  have hall : ∀ i : Fin 64, isSpace (digit i) = false := by decide
  exact hall ⟨n, h⟩

theorem isSpace_of_mem_encodeChars {bytes : Bytes} {c : Char} (h : c ∈ encodeChars bytes) :
    isSpace c = false := by
  induction bytes using encodeChars.induct with
  | case1 => cases h
  | case2 a =>
    have ha := a.toNat_lt
    simp only [encodeChars, List.mem_cons, List.not_mem_nil, or_false] at h
    rcases h with rfl | rfl | rfl | rfl
    · exact isSpace_digit _ (by omega)
    · exact isSpace_digit _ (by omega)
    all_goals rfl
  | case3 a b =>
    have ha := a.toNat_lt
    have hb := b.toNat_lt
    simp only [encodeChars, List.mem_cons, List.not_mem_nil, or_false] at h
    rcases h with rfl | rfl | rfl | rfl
    · exact isSpace_digit _ (by omega)
    · exact isSpace_digit _ (by omega)
    · exact isSpace_digit _ (by omega)
    · rfl
  | case4 a b d rest ih =>
    have ha := a.toNat_lt
    have hb := b.toNat_lt
    have hd := d.toNat_lt
    simp only [encodeChars, List.mem_cons] at h
    rcases h with rfl | rfl | rfl | rfl | h
    · exact isSpace_digit _ (by omega)
    · exact isSpace_digit _ (by omega)
    · exact isSpace_digit _ (by omega)
    · exact isSpace_digit _ (by omega)
    · exact ih h

@[simp] theorem strip_encode (bytes : Bytes) : strip (encode bytes) = encode bytes := by
  rw [strip, encode, String.toList_ofList,
    stripChars_eq_self fun c hc => isSpace_of_mem_encodeChars hc]

end Base64

end Py
