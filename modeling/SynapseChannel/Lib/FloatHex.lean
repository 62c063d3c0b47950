import SynapseChannel.Lib.Digest

/-!
# Lib — FloatHex

The exact hexadecimal text of a float, as `float.hex` writes it, in ASCII
bytes. Two floats of one text are equal, and no text holds a NUL.
-/

namespace Py

open Framing (Bytes)

/-- The lowest `width` hexadecimal digits of a number. -/
def hexDigits : Nat → Nat → List Char
  | 0, _ => []
  | width + 1, n => hexDigits width (n / 16) ++ [hexDigit (n % 16)]

@[simp] theorem length_hexDigits (width n : Nat) : (hexDigits width n).length = width := by
  induction width generalizing n with
  | zero => rfl
  | succ width ih => simp [hexDigits, ih]

theorem hexDigits_inj {width n m : Nat} (hn : n < 16 ^ width) (hm : m < 16 ^ width)
    (h : hexDigits width n = hexDigits width m) : n = m := by
  induction width generalizing n m with
  | zero => simp only [Nat.pow_zero] at hn hm; omega
  | succ width ih =>
    obtain ⟨hdiv, hlast⟩ := List.append_inj h (by simp)
    rw [Nat.pow_succ] at hn hm
    have hhigh := ih (by omega) (by omega) hdiv
    have hvalue := congrArg hexValue (List.cons.inj hlast).1
    rw [(hexDigit_spec _ (Nat.mod_lt n (by decide))).1,
      (hexDigit_spec _ (Nat.mod_lt m (by decide))).1, Option.some.injEq] at hvalue
    omega

/-- A sign and the decimal digits of a number. -/
def signedDecimal (n : Int) : List Char :=
  (if n < 0 then '-' else '+') :: Nat.toDigits 10 n.natAbs

/-- The text of a finite float without its sign, from the other 63 bits. -/
def magnitudeHex (bits : Nat) : List Char :=
  let exponent : Nat := bits / 2 ^ 52
  if bits = 0 then ['0', 'x', '0', '.', '0', 'p', '+', '0']
  else
    ['0', 'x', if exponent = 0 then '0' else '1', '.'] ++ hexDigits 13 (bits % 2 ^ 52) ++
      'p' :: signedDecimal (if exponent = 0 then -1022 else (exponent : Int) - 1023)

/-- `x.hex()`. -/
def floatHex (x : Float) : List Char :=
  if x.isNaN then ['n', 'a', 'n']
  else if x.isFinite then
    let bits := x.toBits.toNat
    (if bits / 2 ^ 63 = 1 then ['-'] else []) ++ magnitudeHex (bits % 2 ^ 63)
  else if 0 < x then ['i', 'n', 'f'] else ['-', 'i', 'n', 'f']

/-- `text.encode("ascii")`. -/
def encodeAscii (cs : List Char) : Bytes := cs.map fun c => UInt8.ofNat c.toNat

/-! ## Injectivity -/

theorem toDigits_inj {n m : Nat} (h : Nat.toDigits 10 n = Nat.toDigits 10 m) : n = m := by
  rw [← Nat.ofDigitChars_ten_toDigits (n := n), h, Nat.ofDigitChars_ten_toDigits]

theorem signedDecimal_inj {n m : Int} (h : signedDecimal n = signedDecimal m) : n = m := by
  obtain ⟨hsign, hdigits⟩ := List.cons.inj h
  have habs := toDigits_inj hdigits
  have hiff : n < 0 ↔ m < 0 := by
    split at hsign <;> split at hsign <;> first | (constructor <;> intro <;> assumption) | skip
    · exact absurd hsign (by decide)
    · exact absurd hsign (by decide)
    · constructor <;> intro h' <;> contradiction
  omega

theorem magnitudeHex_inj {n m : Nat} (h : magnitudeHex n = magnitudeHex m) : n = m := by
  have hlength : ∀ k, magnitudeHex k = magnitudeHex 0 → k = 0 := by
    intro k hk
    by_contra hne
    have hlen := congrArg List.length hk
    simp [magnitudeHex, hne] at hlen
    omega
  by_cases hn : n = 0
  · subst hn
    exact (hlength m h.symm).symm
  by_cases hm : m = 0
  · subst hm
    exact hlength n h
  unfold magnitudeHex at h
  rw [if_neg hn, if_neg hm] at h
  obtain ⟨hhead, htail⟩ := List.append_inj h (by simp)
  obtain ⟨hlead, hmantissa⟩ := List.append_inj hhead (by simp)
  have hlow : n % 2 ^ 52 = m % 2 ^ 52 :=
    hexDigits_inj (Nat.mod_lt n (by decide)) (Nat.mod_lt m (by decide)) hmantissa
  have hhigh := signedDecimal_inj (List.cons.inj htail).2
  -- The leading digit tells the exponents that both read as the smallest one.
  have hlead' : n / 2 ^ 52 = 0 ↔ m / 2 ^ 52 = 0 := by
    have hdigit := (List.cons.inj (List.cons.inj (List.cons.inj hlead).2).2).1
    generalize n / 2 ^ 52 = e at hdigit ⊢
    generalize m / 2 ^ 52 = e' at hdigit ⊢
    by_cases he : e = 0 <;> by_cases he' : e' = 0 <;> simp [he, he'] at hdigit ⊢
  have hexponent : n / 2 ^ 52 = m / 2 ^ 52 := by
    split at hhigh <;> split at hhigh <;> omega
  rw [← Nat.div_add_mod n (2 ^ 52), ← Nat.div_add_mod m (2 ^ 52), hexponent, hlow]

theorem magnitudeHex_head (n : Nat) : ∃ tail, magnitudeHex n = '0' :: tail := by
  unfold magnitudeHex
  dsimp only
  split
  · exact ⟨_, rfl⟩
  · exact ⟨_, rfl⟩

theorem eq_of_toBits {x y : Float} (h : x.toBits.toNat = y.toBits.toNat) : x = y :=
  Framing.packDouble_inj (congrArg (Framing.toBytes 8) h)

theorem floatHex_nan {x : Float} (hx : x.isNaN = true) : floatHex x = ['n', 'a', 'n'] := if_pos hx

theorem floatHex_finite {x : Float} (hx : x.isFinite = true) :
    floatHex x = (if x.toBits.toNat / 2 ^ 63 = 1 then ['-'] else []) ++
      magnitudeHex (x.toBits.toNat % 2 ^ 63) := by
  unfold floatHex
  rw [Ieee.isFinite_isNaN hx, hx]
  rfl

theorem floatHex_infinite {x : Float} (hn : x.isNaN = false) (hx : x.isFinite = false) :
    floatHex x = if 0 < x then ['i', 'n', 'f'] else ['-', 'i', 'n', 'f'] := by
  unfold floatHex
  rw [hn, hx]
  rfl

/-- The first characters of the text tell what kind of float it is. -/
theorem floatHex_kind {x y : Float} (h : floatHex x = floatHex y) :
    x.isNaN = y.isNaN ∧ x.isFinite = y.isFinite := by
  have key : ∀ z : Float,
      (z.isNaN = true ∧ z.isFinite = false ∧ ∃ tail, floatHex z = 'n' :: tail) ∨
      (z.isNaN = false ∧ z.isFinite = true ∧
        ∃ tail, floatHex z = '0' :: tail ∨ floatHex z = '-' :: '0' :: tail) ∨
      (z.isNaN = false ∧ z.isFinite = false ∧
        ∃ tail, floatHex z = 'i' :: tail ∨ floatHex z = '-' :: 'i' :: tail) := by
    intro z
    cases hnan : z.isNaN with
    | true =>
      refine .inl ⟨rfl, ?_, _, floatHex_nan hnan⟩
      by_contra hfinite
      rw [Ieee.isFinite_isNaN (by simpa using hfinite)] at hnan
      cases hnan
    | false =>
      cases hfinite : z.isFinite with
      | true =>
        obtain ⟨tail, htail⟩ := magnitudeHex_head (z.toBits.toNat % 2 ^ 63)
        refine .inr (.inl ⟨rfl, rfl, tail, ?_⟩)
        rw [floatHex_finite hfinite, htail]
        split
        · exact .inr rfl
        · exact .inl rfl
      | false =>
        refine .inr (.inr ⟨rfl, rfl, ['n', 'f'], ?_⟩)
        rw [floatHex_infinite hnan hfinite]
        split
        · exact .inl rfl
        · exact .inr rfl
  rcases key x with ⟨hn, hf, t, ht⟩ | ⟨hn, hf, t, ht | ht⟩ | ⟨hn, hf, t, ht | ht⟩ <;>
    rcases key y with ⟨hn', hf', t', ht'⟩ | ⟨hn', hf', t', ht' | ht'⟩ | ⟨hn', hf', t', ht' | ht'⟩ <;>
    rw [ht, ht'] at h <;> simp_all

/-- The text of a float determines it. -/
theorem floatHex_inj {x y : Float} (h : floatHex x = floatHex y) : x = y := by
  obtain ⟨hnan, hfinite⟩ := floatHex_kind h
  cases hn : x.isNaN with
  | true => exact Ieee.eq_of_isNaN hn (hnan ▸ hn)
  | false =>
    cases hf : x.isFinite with
    | false =>
      rw [floatHex_infinite hn hf, floatHex_infinite (hnan ▸ hn) (hfinite ▸ hf)] at h
      refine Ieee.eq_of_infinite hf hn (hfinite ▸ hf) (hnan ▸ hn) ?_
      by_cases hx : 0 < x <;> by_cases hy : 0 < y <;> simp [hx, hy] at h ⊢
    | true =>
      rw [floatHex_finite hf, floatHex_finite (hfinite ▸ hf)] at h
      have hx := x.toBits.toNat_lt
      have hy := y.toBits.toNat_lt
      obtain ⟨tail, htail⟩ := magnitudeHex_head (x.toBits.toNat % 2 ^ 63)
      obtain ⟨tail', htail'⟩ := magnitudeHex_head (y.toBits.toNat % 2 ^ 63)
      have hsign : (x.toBits.toNat / 2 ^ 63 = 1 ↔ y.toBits.toNat / 2 ^ 63 = 1) ∧
          magnitudeHex (x.toBits.toNat % 2 ^ 63) = magnitudeHex (y.toBits.toNat % 2 ^ 63) := by
        by_cases hx1 : x.toBits.toNat / 2 ^ 63 = 1 <;> by_cases hy1 : y.toBits.toNat / 2 ^ 63 = 1
        · simpa only [hx1, hy1, if_true, List.cons_append, List.nil_append, List.cons.injEq,
            true_and, iff_self] using h
        · rw [if_pos hx1, if_neg hy1, htail'] at h
          exact absurd (List.cons.inj h).1 (by decide)
        · rw [if_neg hx1, if_pos hy1, htail] at h
          exact absurd (List.cons.inj h).1 (by decide)
        · simpa only [hx1, hy1, if_false, List.nil_append, iff_self, true_and] using h
      have hlow := magnitudeHex_inj hsign.2
      apply eq_of_toBits
      omega

/-! ## ASCII -/

/-- ASCII without NUL. -/
def PlainAscii (cs : List Char) : Prop := ∀ c ∈ cs, 0 < c.toNat ∧ c.toNat < 128

theorem plainAscii_of_all {cs : List Char}
    (h : (cs.all fun c => decide (0 < c.toNat) && decide (c.toNat < 128)) = true) : PlainAscii cs := by
  intro c hc
  simpa only [Bool.and_eq_true, decide_eq_true_eq] using List.all_eq_true.mp h c hc

theorem PlainAscii.append {cs ds : List Char} (hc : PlainAscii cs) (hd : PlainAscii ds) :
    PlainAscii (cs ++ ds) := by
  intro c hmem
  rcases List.mem_append.mp hmem with hmem | hmem
  · exact hc c hmem
  · exact hd c hmem

theorem plainAscii_hexDigits (width n : Nat) : PlainAscii (hexDigits width n) := by
  induction width generalizing n with
  | zero => intro c hmem; cases hmem
  | succ width ih =>
    refine (ih _).append ?_
    intro c hmem
    rw [List.mem_singleton.mp hmem]
    have hall : ∀ i : Fin 16, 0 < (hexDigit i).toNat ∧ (hexDigit i).toNat < 128 := by decide
    exact hall ⟨n % 16, Nat.mod_lt _ (by decide)⟩

theorem plainAscii_signedDecimal (n : Int) : PlainAscii (signedDecimal n) := by
  intro c hmem
  rcases List.mem_cons.mp hmem with rfl | hmem
  · split <;> decide +kernel
  · have hdigit := Nat.isDigit_of_mem_toDigits (by decide) (by decide) hmem
    simp only [Char.isDigit, Bool.and_eq_true, decide_eq_true_eq, ge_iff_le] at hdigit
    have hlow : 48 ≤ c.toNat := hdigit.1
    have hhigh : c.toNat ≤ 57 := hdigit.2
    omega

theorem plainAscii_magnitudeHex (n : Nat) : PlainAscii (magnitudeHex n) := by
  unfold magnitudeHex
  dsimp only
  split
  · exact plainAscii_of_all (by decide)
  · refine PlainAscii.append (PlainAscii.append ?_ (plainAscii_hexDigits _ _)) ?_
    · split
      · exact plainAscii_of_all (by decide)
      · exact plainAscii_of_all (by decide)
    · intro c hmem
      rcases List.mem_cons.mp hmem with rfl | hmem
      · decide
      · exact plainAscii_signedDecimal _ c hmem

theorem plainAscii_floatHex (x : Float) : PlainAscii (floatHex x) := by
  unfold floatHex
  dsimp only
  split
  · exact plainAscii_of_all (by decide)
  split
  · refine PlainAscii.append ?_ (plainAscii_magnitudeHex _)
    split
    · exact plainAscii_of_all (by decide)
    · exact plainAscii_of_all (by decide)
  · split
    · exact plainAscii_of_all (by decide)
    · exact plainAscii_of_all (by decide)

theorem encodeAscii_inj {cs ds : List Char} (hc : PlainAscii cs) (hd : PlainAscii ds)
    (h : encodeAscii cs = encodeAscii ds) : cs = ds := by
  induction cs generalizing ds with
  | nil => exact (List.map_eq_nil_iff.mp h.symm).symm
  | cons c cs ih =>
    cases ds with
    | nil => cases h
    | cons d ds =>
      obtain ⟨hhead, htail⟩ := List.cons.inj h
      have hcode := congrArg UInt8.toNat hhead
      have hcb := (hc c List.mem_cons_self).2
      have hdb := (hd d List.mem_cons_self).2
      rw [UInt8.toNat_ofNat', UInt8.toNat_ofNat', Nat.mod_eq_of_lt (by omega),
        Nat.mod_eq_of_lt (by omega)] at hcode
      rw [Char.toNat_inj.mp hcode,
        ih (fun c hmem => hc c (List.mem_cons_of_mem _ hmem))
          (fun d hmem => hd d (List.mem_cons_of_mem _ hmem)) htail]

/-- A text without NUL ends at the first NUL after it. -/
theorem encodeAscii_nul_inj {cs ds : List Char} (hc : PlainAscii cs) (hd : PlainAscii ds)
    {rest rest' : Bytes} (h : encodeAscii cs ++ 0 :: rest = encodeAscii ds ++ 0 :: rest') :
    cs = ds ∧ rest = rest' := by
  have nonzero : ∀ {c : Char}, 0 < c.toNat ∧ c.toNat < 128 → UInt8.ofNat c.toNat ≠ 0 := by
    intro c hc h0
    have hcode := congrArg UInt8.toNat h0
    rw [UInt8.toNat_ofNat', Nat.mod_eq_of_lt (by omega)] at hcode
    simp only [UInt8.toNat_zero] at hcode
    omega
  induction cs generalizing ds with
  | nil =>
    cases ds with
    | nil => exact ⟨rfl, (List.cons.inj h).2⟩
    | cons d ds => exact absurd (List.cons.inj h).1.symm (nonzero (hd d List.mem_cons_self))
  | cons c cs ih =>
    cases ds with
    | nil => exact absurd (List.cons.inj h).1 (nonzero (hc c List.mem_cons_self))
    | cons d ds =>
      obtain ⟨hhead, htail⟩ := List.cons.inj h
      obtain ⟨rfl, hrest⟩ := ih (fun c hmem => hc c (List.mem_cons_of_mem _ hmem))
        (fun d hmem => hd d (List.mem_cons_of_mem _ hmem)) htail
      have hone := @encodeAscii_inj [c] [d]
        (fun a hmem => by rw [List.mem_singleton.mp hmem]; exact hc c List.mem_cons_self)
        (fun a hmem => by rw [List.mem_singleton.mp hmem]; exact hd d List.mem_cons_self)
        (congrArg (· :: []) hhead)
      exact ⟨congrArg (· :: cs) (List.cons.inj hone).1, hrest⟩

end Py
