import SynapseChannel.Lib.Float

/-!
# Lib — FloatRound

Subtraction of a fixed binary64 number keeps the order. Every finite number
is an integer multiple of 2^-1074, so a difference is an integer before it is
rounded, and rounding to the nearest even keeps the order of integers.
-/

namespace Ieee

open Float.Model
open Float.Model.UnpackedFloat

/-! ## Numbers as multiples of the smallest one -/

/-- The exponent, counted from the smallest one. -/
def scale (e : Int) : Nat := (e + 1074).toNat

def overflowScale : Nat := 2098

/-- The first power of two that no finite number reaches. -/
def overflow : Nat := 2 ^ overflowScale

/-- How many times 2^-1074 a number is; an infinity is where the numbers overflow. -/
def units : UnpackedFloat → Int
  | .finite s m e _ => s.apply (m * 2 ^ scale e : Nat)
  | .infinity s => s.apply overflow
  | .zero _ => 0
  | .notANumber => 0

/-- The finite numbers of the format, each with its one mantissa and exponent. -/
structure Canonical (m : Nat) (e : Int) : Prop where
  mantissa : m < 2 ^ 53
  lower : -1074 ≤ e
  upper : e ≤ 971
  normal : 2 ^ 52 ≤ m ∨ e = -1074

private theorem toNat_one_append (v : BitVec 52) : (1#1 ++ v).toNat = 2 ^ 52 + v.toNat := by
  rw [BitVec.toNat_append, ← Nat.shiftLeft_add_eq_or_of_lt v.isLt]
  rfl

private theorem bias_eq : ((Format.binary64.exponentBias : Nat) : Int) = 1023 := by decide

theorem canonical_unpack {x : Float.Model} {s : Sign} {m : Nat} {e : Int} {h : 0 < m}
    (hx : x.unpack = .finite s m e h) : Canonical m e := by
  have hexp : (@unpackExponent Format.binary64 x.toBits.toBitVec).toNat < 2048 :=
    (@unpackExponent Format.binary64 x.toBits.toBitVec).isLt
  have hman : (@unpackMantissa Format.binary64 x.toBits.toBitVec).toNat < 2 ^ 52 :=
    (@unpackMantissa Format.binary64 x.toBits.toBitVec).isLt
  unfold Float.Model.unpack UnpackedFloat.unpack at hx
  dsimp only at hx
  split at hx
  · split at hx <;> cases hx
  · rename_i hfinite
    have htop : (@unpackExponent Format.binary64 x.toBits.toBitVec).toNat ≠ 2047 := by
      intro htop
      exact hfinite (BitVec.eq_of_toNat_eq htop)
    split at hx
    · rename_i hzero
      split at hx
      · cases hx
      · injection hx with _ hm he
        have hlow : (@unpackExponent Format.binary64 x.toBits.toBitVec).toNat = 0 := by
          rw [hzero]
          rfl
        rw [hlow, bias_eq] at he
        constructor
        · omega
        · omega
        · omega
        · right
          omega
    · rename_i hzero
      injection hx with _ hm he
      have hlow : (@unpackExponent Format.binary64 x.toBits.toBitVec).toNat ≠ 0 := by
        intro hlow
        exact hzero (BitVec.eq_of_toNat_eq hlow)
      rw [bias_eq] at he
      have happ := toNat_one_append (@unpackMantissa Format.binary64 x.toBits.toBitVec)
      constructor
      · omega
      · omega
      · omega
      · left
        omega

/-! ## The order of the multiples -/

theorem two_pow_pos (n : Nat) : 0 < 2 ^ n := Nat.pow_pos (by decide)

theorem two_pow_mul {i j k : Nat} (h : i + j = k) : 2 ^ i * 2 ^ j = 2 ^ k := by
  rw [← Nat.pow_add, h]

/-- Magnitudes of finite numbers are ordered by exponent, then mantissa. -/
theorem magnitude_lt {m n : Nat} {e k : Int} (hm : Canonical m e) (hn : Canonical n k) :
    m * 2 ^ scale e < n * 2 ^ scale k ↔ e < k ∨ (e = k ∧ m < n) := by
  have hbelow : ∀ {m n : Nat} {e k : Int}, Canonical m e → Canonical n k → e < k →
      m * 2 ^ scale e < n * 2 ^ scale k := by
    intro m n e k hm hn hek
    have hlow := hm.lower
    have hnormal : 2 ^ 52 ≤ n := by
      rcases hn.normal with hnormal | hk
      · exact hnormal
      · omega
    have hscale : scale e + 1 ≤ scale k := by
      unfold scale
      omega
    calc m * 2 ^ scale e < 2 ^ 53 * 2 ^ scale e :=
          Nat.mul_lt_mul_of_pos_right hm.mantissa (two_pow_pos _)
      _ = 2 ^ 52 * 2 ^ (scale e + 1) := by ring
      _ ≤ 2 ^ 52 * 2 ^ scale k := Nat.mul_le_mul_left _ (Nat.pow_le_pow_right (by decide) hscale)
      _ ≤ n * 2 ^ scale k := Nat.mul_le_mul_right _ hnormal
  by_cases hsame : e = k
  · subst hsame
    rw [Nat.mul_lt_mul_right (two_pow_pos _)]
    omega
  · constructor
    · intro hlt
      by_cases hek : e < k
      · exact .inl hek
      · have hke := hbelow hn hm (by omega)
        omega
    · rintro (hek | ⟨hek, -⟩)
      · exact hbelow hm hn hek
      · exact absurd hek hsame

/-- Below the overflow. -/
theorem magnitude_bound {m : Nat} {e : Int} (hm : Canonical m e) : m * 2 ^ scale e < overflow := by
  have hscale : 53 + scale e ≤ overflowScale := by
    unfold scale overflowScale
    have := hm.upper
    omega
  calc m * 2 ^ scale e < 2 ^ 53 * 2 ^ scale e :=
        Nat.mul_lt_mul_of_pos_right hm.mantissa (two_pow_pos _)
    _ = 2 ^ (53 + scale e) := two_pow_mul rfl
    _ ≤ overflow := Nat.pow_le_pow_right (by decide) hscale

/-! ## Rounding to the nearest -/

/-- `n / p` to the nearest integer, a tie to the even one. -/
def nearestQuotient (n p : Nat) : Nat :=
  if 2 * (n % p) < p then n / p
  else if 2 * (n % p) = p then n / p + n / p % 2
  else n / p + 1

theorem le_nearestQuotient (n p : Nat) : n / p ≤ nearestQuotient n p := by
  unfold nearestQuotient
  split
  · omega
  · split <;> omega

theorem nearestQuotient_le (n p : Nat) : nearestQuotient n p ≤ n / p + 1 := by
  unfold nearestQuotient
  split
  · omega
  · split <;> omega

theorem nearestQuotient_mono {m n : Nat} (p : Nat) (h : m ≤ n) :
    nearestQuotient m p ≤ nearestQuotient n p := by
  have hdiv : m / p ≤ n / p := Nat.div_le_div_right h
  by_cases hsame : m / p = n / p
  · have hm := Nat.div_add_mod m p
    have hn := Nat.div_add_mod n p
    rw [hsame] at hm
    have hmod : m % p ≤ n % p := by omega
    unfold nearestQuotient
    rw [hsame]
    split <;> split <;> (try split) <;> (try split) <;> omega
  · have hlower := le_nearestQuotient n p
    have hupper := nearestQuotient_le m p
    omega

theorem nearestQuotient_mul {p : Nat} (n : Nat) (hp : 0 < p) : nearestQuotient (n * p) p = n := by
  have hmod : n * p % p = 0 := Nat.mul_mod_left n p
  have hdiv : n * p / p = n := Nat.mul_div_cancel n hp
  unfold nearestQuotient
  rw [hmod, hdiv, if_pos (by omega)]

/-- What the two residual bits say of the remainder that was dropped. -/
def Residue : Bool → Bool → Nat → Nat → Prop
  | false, false, r, _ => r = 0
  | false, true, r, p => 0 < r ∧ 2 * r < p
  | true, false, r, p => 2 * r = p
  | true, true, r, p => p < 2 * r

/-- The extended mantissa stands for `n / p`. -/
structure Represents (em : ExtendedMantissa) (n p : Nat) : Prop where
  mantissa : em.mantissa = n / p
  residue : Residue em.roundBit em.stickyBit (n % p) p

theorem represents_start (n : Nat) : Represents ⟨n, false, false⟩ n 1 := by
  constructor
  · show n = n / 1
    omega
  · show n % 1 = 0
    omega

theorem represents_shiftRightOne {em : ExtendedMantissa} {n p : Nat} (hp : 0 < p)
    (h : Represents em n p) : Represents em.shiftRightOne n (p * 2) := by
  obtain ⟨q, round, sticky⟩ := em
  have hq : q = n / p := h.mantissa
  have hres : Residue round sticky (n % p) p := h.residue
  have hmod : n % (p * 2) = n % p + p * (n / p % 2) := Nat.mod_mul
  have hlt : n % p < p := Nat.mod_lt n hp
  constructor
  · show q / 2 = n / (p * 2)
    rw [hq, Nat.div_div_eq_div_mul]
  · show Residue (q % 2 != 0) (round || sticky) (n % (p * 2)) (p * 2)
    rw [hq, hmod]
    rcases Nat.mod_two_eq_zero_or_one (n / p) with heven | hodd
    · rw [heven, Nat.mul_zero, Nat.add_zero]
      cases round <;> cases sticky <;> simp only [Residue] at hres <;>
        simp [Residue] <;> omega
    · rw [hodd, Nat.mul_one]
      cases round <;> cases sticky <;> simp only [Residue] at hres <;>
        simp [Residue] <;> omega

theorem represents_shift {n : Nat} (k : Nat) :
    Represents (ExtendedMantissa.mk n false false >>> k) n (2 ^ k) := by
  induction k with
  | zero => exact represents_start n
  | succ k ih => exact represents_shiftRightOne (two_pow_pos k) ih

theorem roundedMantissa_eq {em : ExtendedMantissa} {n p : Nat} (hp : 0 < p)
    (h : Represents em n p) : em.roundedMantissa = nearestQuotient n p := by
  obtain ⟨q, round, sticky⟩ := em
  have hq : q = n / p := h.mantissa
  have hres : Residue round sticky (n % p) p := h.residue
  unfold nearestQuotient
  rw [← hq]
  cases round <;> cases sticky <;> simp only [Residue] at hres
  · rw [if_pos (by omega)]
    rfl
  · rw [if_pos (by omega)]
    rfl
  · rw [if_neg (by omega), if_pos hres]
    rfl
  · rw [if_neg (by omega), if_neg (by omega)]
    rfl

/-- The multiple of the smallest number that `d` of them round to. -/
def nearest (d : Nat) : Nat :=
  nearestQuotient d (2 ^ (d.log2 - 52)) * 2 ^ (d.log2 - 52)

theorem nearestQuotient_log_le (d : Nat) : nearestQuotient d (2 ^ (d.log2 - 52)) ≤ 2 ^ 53 := by
  have hdiv : d / 2 ^ (d.log2 - 52) < 2 ^ 53 := by
    rw [Nat.div_lt_iff_lt_mul (two_pow_pos _), ← Nat.pow_add]
    calc d < 2 ^ (d.log2 + 1) := Nat.lt_log2_self
      _ ≤ 2 ^ (53 + (d.log2 - 52)) := Nat.pow_le_pow_right (by decide) (by omega)
  have := nearestQuotient_le d (2 ^ (d.log2 - 52))
  omega

theorem le_nearestQuotient_log {d : Nat} (hd : d ≠ 0) (h : 52 ≤ d.log2) :
    2 ^ 52 ≤ nearestQuotient d (2 ^ (d.log2 - 52)) := by
  have hdiv : 2 ^ 52 ≤ d / 2 ^ (d.log2 - 52) := by
    rw [Nat.le_div_iff_mul_le (two_pow_pos _), two_pow_mul (k := d.log2) (by omega)]
    exact Nat.log2_self_le hd
  have := le_nearestQuotient d (2 ^ (d.log2 - 52))
  omega

theorem log2_mono {m n : Nat} (h : m ≤ n) : m.log2 ≤ n.log2 := by
  by_cases hm : m = 0
  · rw [hm]
    exact Nat.zero_le _
  · rw [Nat.le_log2 (by omega)]
    exact Nat.le_trans (Nat.log2_self_le hm) h

/-- Rounding keeps the order. -/
theorem nearest_mono {m n : Nat} (h : m ≤ n) : nearest m ≤ nearest n := by
  have hlog : m.log2 ≤ n.log2 := log2_mono h
  unfold nearest
  by_cases hsame : m.log2 - 52 = n.log2 - 52
  · rw [hsame]
    exact Nat.mul_le_mul_right _ (nearestQuotient_mono _ h)
  · have hn : 52 < n.log2 := by omega
    have hzero : n ≠ 0 := by
      intro hzero
      rw [hzero] at hn
      exact absurd hn (by decide)
    calc nearestQuotient m (2 ^ (m.log2 - 52)) * 2 ^ (m.log2 - 52)
        ≤ 2 ^ 53 * 2 ^ (m.log2 - 52) := Nat.mul_le_mul_right _ (nearestQuotient_log_le m)
      _ = 2 ^ 52 * 2 ^ (m.log2 - 52 + 1) := by ring
      _ ≤ 2 ^ 52 * 2 ^ (n.log2 - 52) :=
          Nat.mul_le_mul_left _ (Nat.pow_le_pow_right (by decide) (by omega))
      _ ≤ nearestQuotient n (2 ^ (n.log2 - 52)) * 2 ^ (n.log2 - 52) :=
          Nat.mul_le_mul_right _ (le_nearestQuotient_log hzero (by omega))

/-! ## The rounded number -/

theorem scale_add {e : Int} (he : -1074 ≤ e) (k : Nat) : scale (e + k) = scale e + k := by
  unfold scale
  omega

theorem target_eq (m : Nat) (e : Int) :
    Format.binary64.targetExponent (totalExponent m e) = max (m.log2 + e - 52) (-1074) := by
  simp only [Format.targetExponent, totalExponent, Format.mantissaBits, Format.minExponent]
  norm_num
  omega

/-- A mantissa that fits stays as it is. -/
theorem shift_fits {m : Nat} {e : Int} (hm : m < 2 ^ 53) (he : -1074 ≤ e) :
    shiftToTargetExponent Format.binary64 m e .exact = (⟨m, false, false⟩, e) := by
  have hlog : m.log2 ≤ 52 := by
    by_cases hzero : m = 0
    · rw [hzero]
      decide
    · have := (Nat.log2_lt hzero).mpr hm
      omega
  unfold shiftToTargetExponent
  rw [target_eq]
  have hnone : (max (m.log2 + e - 52) (-1074) - e).toNat = 0 := by omega
  simp only [shiftToExponent, hnone]
  rw [show e + ((0 : Nat) : Int) = e by omega]
  rfl

/-- A mantissa that a carry has widened gives its last bit, a zero, to the exponent. -/
theorem shift_carry {e : Int} (he : -1074 ≤ e) :
    shiftToTargetExponent Format.binary64 (2 ^ 53) e .exact = (⟨2 ^ 52, false, false⟩, e + 1) := by
  unfold shiftToTargetExponent
  rw [target_eq, Nat.log2_two_pow]
  have hone : (max (((53 : Nat) : Int) + e - 52) (-1074) - e).toNat = 1 := by omega
  simp only [shiftToExponent, hone]
  rfl

/-- A finite number whose exponent the format has not bounded yet, of value `d`. -/
inductive Rounded (s : Sign) (d : Nat) : UnpackedFloat → Prop where
  | mk {m : Nat} {e : Int} (hpos : 0 < m) (value : m * 2 ^ scale e = d)
      (mantissa : m < 2 ^ 53) (lower : -1074 ≤ e) (normal : 2 ^ 52 ≤ m ∨ e = -1074) :
      Rounded s d (.finite s m e hpos)

theorem rounded_finish {em : ExtendedMantissa} {e : Int} {s : Sign} {d r m : Nat} {k : Int}
    (hfirst : shiftToTargetExponent Format.binary64 m k .exact = (em, e))
    (hr : em.roundedMantissa = r) (hpos : 0 < r) (hle : r ≤ 2 ^ 53) (he : -1074 ≤ e)
    (hnormal : 2 ^ 52 ≤ r ∨ e = -1074) (hd : r * 2 ^ scale e = d) :
    Rounded s d (roundWithAccuracy Format.binary64 s m k .exact) := by
  unfold roundWithAccuracy
  rw [hfirst]
  dsimp only
  rw [hr]
  by_cases hfits : r < 2 ^ 53
  · rw [shift_fits hfits he]
    dsimp only
    rw [dif_neg (by omega)]
    exact Rounded.mk hpos hd hfits he hnormal
  · have hcarry : r = 2 ^ 53 := by omega
    subst hcarry
    have hscale : scale (e + 1) = scale e + 1 := scale_add he 1
    rw [shift_carry he]
    dsimp only
    rw [dif_neg (by decide)]
    refine Rounded.mk (by decide) ?_ (by decide) (by omega) (.inl (by omega))
    rw [← hd, hscale]
    ring

theorem log2_mul_two_pow {n : Nat} (hn : 0 < n) (k : Nat) : (n * 2 ^ k).log2 = n.log2 + k := by
  have hne : n * 2 ^ k ≠ 0 := Nat.mul_ne_zero (by omega) (by have := two_pow_pos k; omega)
  rw [Nat.log2_eq_iff hne]
  constructor
  · rw [Nat.pow_add]
    exact Nat.mul_le_mul_right _ (Nat.log2_self_le (by omega))
  · rw [show n.log2 + k + 1 = n.log2 + 1 + k by omega, Nat.pow_add]
    exact Nat.mul_lt_mul_of_pos_right Nat.lt_log2_self (two_pow_pos k)

theorem nearestQuotient_scale (n p : Nat) {c : Nat} (hc : 0 < c) :
    nearestQuotient (n * c) (p * c) = nearestQuotient n p := by
  have hdiv : n * c / (p * c) = n / p := Nat.mul_div_mul_right n p hc
  have hmod : n * c % (p * c) = n % p * c := Nat.mul_mod_mul_right c n p
  have hlt : 2 * (n % p * c) < p * c ↔ 2 * (n % p) < p := by
    rw [← Nat.mul_assoc, Nat.mul_lt_mul_right hc]
  have heq : 2 * (n % p * c) = p * c ↔ 2 * (n % p) = p := by
    rw [← Nat.mul_assoc, Nat.mul_left_inj (by omega)]
  unfold nearestQuotient
  simp only [hdiv, hmod, hlt, heq]

/-- Rounding reads nothing of a mantissa and its exponent but their value. -/
theorem rounded_round (s : Sign) {n : Nat} {e : Int} (hn : 0 < n) (he : -1074 ≤ e) :
    Rounded s (nearest (n * 2 ^ scale e)) (round Format.binary64 s n e) := by
  obtain ⟨t, ht⟩ : ∃ t : Int, t = max (n.log2 + e - 52) (-1074) := ⟨_, rfl⟩
  have hlog : (n * 2 ^ scale e).log2 = n.log2 + scale e := log2_mul_two_pow hn _
  have hscale : (n * 2 ^ scale e).log2 - 52 = scale t := by
    rw [hlog]
    unfold scale
    omega
  have hd : nearest (n * 2 ^ scale e) =
      nearestQuotient (n * 2 ^ scale e) (2 ^ scale t) * 2 ^ scale t := by
    unfold nearest
    rw [hscale]
  have hupper := nearestQuotient_log_le (n * 2 ^ scale e)
  rw [hscale] at hupper
  have hpositive : 0 < n * 2 ^ scale e := Nat.mul_pos hn (two_pow_pos _)
  have hnormal : 2 ^ 52 ≤ nearestQuotient (n * 2 ^ scale e) (2 ^ scale t) ∨ t = -1074 := by
    by_cases hsmall : t = -1074
    · exact .inr hsmall
    · have hwide : 52 ≤ (n * 2 ^ scale e).log2 := by
        rw [hlog]
        unfold scale
        omega
      have hlower := le_nearestQuotient_log (Nat.ne_of_gt hpositive) hwide
      rw [hscale] at hlower
      exact .inl hlower
  have hpos : 0 < nearestQuotient (n * 2 ^ scale e) (2 ^ scale t) := by
    rcases hnormal with hnormal | hsmall
    · omega
    · have hzero : scale t = 0 := by
        rw [hsmall]
        rfl
      have hlower := le_nearestQuotient (n * 2 ^ scale e) (2 ^ scale t)
      rw [hzero] at hlower ⊢
      omega
  unfold UnpackedFloat.round decreaseExponent
  rw [target_eq, ← ht]
  dsimp only
  by_cases hwide : t < e
  · -- The mantissa has room: it takes bits from the exponent and nothing is dropped.
    obtain ⟨k, hk⟩ : ∃ k : Nat, e = t + k := ⟨(e - t).toNat, by omega⟩
    have hshift : (e - t).toNat = k := by omega
    have hexp : e - (k : Int) = t := by omega
    have hquot : nearestQuotient (n * 2 ^ scale e) (2 ^ scale t) = n * 2 ^ k := by
      rw [hk, scale_add (by omega), Nat.add_comm, Nat.pow_add, ← Nat.mul_assoc]
      exact nearestQuotient_mul _ (two_pow_pos _)
    rw [hshift, hexp, Nat.shiftLeft_eq]
    have hfirst : shiftToTargetExponent Format.binary64 (n * 2 ^ k) t .exact =
        (⟨n * 2 ^ k, false, false⟩, t) := by
      unfold shiftToTargetExponent
      rw [target_eq, log2_mul_two_pow hn]
      have hnone : (max (((n.log2 + k : Nat) : Int) + t - 52) (-1074) - t).toNat = 0 := by omega
      simp only [shiftToExponent, hnone]
      rw [show t + ((0 : Nat) : Int) = t by omega]
      rfl
    exact rounded_finish hfirst hquot.symm hpos hupper (by omega) hnormal hd.symm
  · -- The mantissa is too wide, or just fits: its low bits are dropped.
    obtain ⟨k, hk⟩ : ∃ k : Nat, t = e + k := ⟨(t - e).toNat, by omega⟩
    have hshift : (e - t).toNat = 0 := by omega
    have hexp : e - ((0 : Nat) : Int) = e := by omega
    have hquot : nearestQuotient (n * 2 ^ scale e) (2 ^ scale t) = nearestQuotient n (2 ^ k) := by
      rw [hk, scale_add he, Nat.add_comm, Nat.pow_add]
      exact nearestQuotient_scale _ _ (two_pow_pos _)
    rw [hshift, hexp, Nat.shiftLeft_zero]
    have hfirst : shiftToTargetExponent Format.binary64 n e .exact =
        (ExtendedMantissa.mk n false false >>> k, t) := by
      unfold shiftToTargetExponent
      rw [target_eq, ← ht]
      have hamount : (t - e).toNat = k := by omega
      simp only [shiftToExponent, hamount]
      rw [hk]
      rfl
    have hround : (ExtendedMantissa.mk n false false >>> k).roundedMantissa =
        nearestQuotient (n * 2 ^ scale e) (2 ^ scale t) := by
      rw [hquot]
      exact roundedMantissa_eq (two_pow_pos k) (represents_shift k)
    exact rounded_finish hfirst hround hpos hupper (by omega) hnormal hd.symm

/-! ## Packing -/

theorem unpackSign_packComponents {spec : Format} (s : Sign) (e : BitVec spec.exponentBits)
    (m : BitVec spec.mantissaBitsWithoutImplicit) :
    unpackSign (packComponents spec s e m) = s.toBitVec := by
  ext i hi
  have hzero : i = 0 := by omega
  subst hzero
  simp [unpackSign, packComponents, BitVec.getLsbD_eq_getElem, BitVec.getLsbD_append,
    BitVec.getElem_append]

theorem ofBitVec_toBitVec (s : Sign) : Sign.ofBitVec s.toBitVec = s := by
  cases s <;> rfl

theorem unpack_components {s : Sign} {e : BitVec 11} {m : BitVec 52} {u : UnpackedFloat}
    (hu : UnpackedFloat.pack Format.binary64 u = packComponents Format.binary64 s e m) :
    (Float.Model.pack u).unpack =
      UnpackedFloat.unpack Format.binary64 (packComponents Format.binary64 s e m) := by
  unfold Float.Model.unpack Float.Model.pack
  simp only [hu]

/-- A finite number in the format's range is packed as it is. -/
theorem units_pack_canonical {s : Sign} {m : Nat} {e : Int} (h : 0 < m) (hc : Canonical m e) :
    units (Float.Model.pack (.finite s m e h)).unpack = s.apply (m * 2 ^ scale e : Nat) := by
  have hm := hc.mantissa
  have hlower := hc.lower
  have hupper := hc.upper
  have hbiased : (e + (Format.binary64.exponentBias : Nat) + (52 : Nat)).toNat = (e + 1075).toNat := by
    rw [bias_eq]
    omega
  by_cases hnormal : 2 ^ 52 ≤ m
  · have hlog : m.log2 = 52 := (Nat.log2_eq_iff (by omega)).mpr ⟨hnormal, hm⟩
    have hpack : UnpackedFloat.pack Format.binary64 (.finite s m e h) =
        packComponents Format.binary64 s (BitVec.ofNat _ (e + 1075).toNat) (BitVec.ofNat _ m) := by
      simp only [UnpackedFloat.pack, hbiased]
      rw [if_neg (by omega), if_pos (by rw [hlog]; rfl)]
    rw [unpack_components hpack]
    unfold UnpackedFloat.unpack
    simp only [unpackExponent_packComponents, unpackMantissa_packComponents,
      unpackSign_packComponents, ofBitVec_toBitVec]
    have hexp : (BitVec.ofNat 11 (e + 1075).toNat).toNat = (e + 1075).toNat := by
      rw [BitVec.toNat_ofNat, Nat.mod_eq_of_lt (by omega)]
    have hman : (BitVec.ofNat 52 m).toNat = m - 2 ^ 52 := by
      rw [BitVec.toNat_ofNat]
      omega
    rw [if_neg, if_neg]
    · have happ := toNat_one_append (BitVec.ofNat 52 m)
      have hmantissa : (1#1 ++ BitVec.ofNat 52 m).toNat = m := by omega
      have hexponent : ((BitVec.ofNat 11 (e + 1075).toNat).toNat : Int) -
          ((Format.binary64.exponentBias : Nat) + (52 : Nat)) = e := by
        rw [hexp, bias_eq]
        omega
      show s.apply ((1#1 ++ BitVec.ofNat 52 m).toNat * 2 ^ scale (((BitVec.ofNat 11
        (e + 1075).toNat).toNat : Int) - ((Format.binary64.exponentBias : Nat) + (52 : Nat))) :
          Nat) = _
      rw [hmantissa, hexponent]
    · intro hzero
      have hval : (BitVec.ofNat 11 (e + 1075).toNat).toNat = 0 := congrArg BitVec.toNat hzero
      omega
    · intro hones
      have hval : (BitVec.ofNat 11 (e + 1075).toNat).toNat = 2047 := congrArg BitVec.toNat hones
      omega
  · have hlow : e = -1074 := by
      rcases hc.normal with hbig | hlow
      · exact absurd hbig hnormal
      · exact hlow
    have hlog : m.log2 < 52 := (Nat.log2_lt (by omega)).mpr (by omega)
    have hbits : ¬ m.log2 + 1 = Format.binary64.mantissaBits := by
      show ¬ m.log2 + 1 = 53
      omega
    have hpack : UnpackedFloat.pack Format.binary64 (.finite s m e h) =
        packComponents Format.binary64 s 0#11 (BitVec.ofNat _ m) := by
      simp only [UnpackedFloat.pack, hbiased]
      rw [if_neg (by omega), if_neg hbits]
    rw [unpack_components hpack]
    unfold UnpackedFloat.unpack
    simp only [unpackExponent_packComponents, unpackMantissa_packComponents,
      unpackSign_packComponents, ofBitVec_toBitVec]
    have hman : (BitVec.ofNat 52 m).toNat = m := by
      rw [BitVec.toNat_ofNat]
      omega
    rw [if_neg (by decide), if_pos trivial, dif_neg]
    · show s.apply ((BitVec.ofNat 52 m).toNat * 2 ^ scale (-1074) : Nat) = _
      rw [hman, hlow]
    · intro hzero
      have hval : (BitVec.ofNat 52 m).toNat = 0 := congrArg BitVec.toNat hzero
      omega

theorem unpack_pack_infinity (s : Sign) :
    (Float.Model.pack (.infinity s)).unpack = .infinity s := by
  cases s <;> rfl

theorem units_pack_rounded {s : Sign} {d : Nat} {u : UnpackedFloat} (h : Rounded s d u) :
    units (Float.Model.pack u).unpack = s.apply (min d overflow : Nat) := by
  obtain ⟨hpos, value, mantissa, lower, normal⟩ := h
  rename_i m e
  by_cases hfits : e ≤ 971
  · have hc : Canonical m e := ⟨mantissa, lower, hfits, normal⟩
    have hbound := magnitude_bound hc
    rw [units_pack_canonical hpos hc, value, Nat.min_eq_left (by omega)]
  · have hbig : 2 ^ 52 ≤ m := by omega
    have hscale : overflowScale ≤ 52 + scale e := by
      unfold scale overflowScale
      omega
    have hover : overflow ≤ d := by
      calc overflow ≤ 2 ^ (52 + scale e) := Nat.pow_le_pow_right (by decide) hscale
        _ = 2 ^ 52 * 2 ^ scale e := Nat.pow_add 2 52 (scale e)
        _ ≤ m * 2 ^ scale e := Nat.mul_le_mul_right _ hbig
        _ = d := value
    have hbiased : 2 ^ Format.binary64.exponentBits ≤
        (e + (Format.binary64.exponentBias : Nat) + (52 : Nat)).toNat + 1 := by
      rw [bias_eq]
      show 2048 ≤ _
      omega
    have hpack : UnpackedFloat.pack Format.binary64 (.finite s m e hpos) =
        packComponents Format.binary64 s (-1#11) 0#52 := by
      unfold UnpackedFloat.pack
      exact if_pos hbiased
    have hinfinity : UnpackedFloat.pack Format.binary64 (.infinity s) =
        packComponents Format.binary64 s (-1#11) 0#52 := rfl
    rw [unpack_components hpack, ← unpack_components hinfinity, unpack_pack_infinity,
      Nat.min_eq_right hover]
    rfl

/-! ## Differences -/

/-- The multiple of the smallest number that `d` of them, with their sign, round to. -/
def roundUnits (d : Int) : Int :=
  if d < 0 then -((min (nearest (-d).toNat) overflow : Nat) : Int)
  else ((min (nearest d.toNat) overflow : Nat) : Int)

theorem roundUnits_mono {c d : Int} (h : c ≤ d) : roundUnits c ≤ roundUnits d := by
  unfold roundUnits
  by_cases hc : c < 0
  · rw [if_pos hc]
    by_cases hd : d < 0
    · rw [if_pos hd]
      have := nearest_mono (m := (-d).toNat) (n := (-c).toNat) (by omega)
      omega
    · rw [if_neg hd]
      omega
  · rw [if_neg hc, if_neg (by omega)]
    have := nearest_mono (m := c.toNat) (n := d.toNat) (by omega)
    omega

theorem nearest_zero : nearest 0 = 0 := by decide

theorem unpack_pack_zero (s : Sign) : (Float.Model.pack (.zero s)).unpack = .zero s := by
  cases s <;> rfl

theorem roundUnits_zero : roundUnits 0 = 0 := by
  show ((min (nearest 0) overflow : Nat) : Int) = 0
  rw [nearest_zero]
  omega

theorem toNat_mul_pow {n : Int} (k : Nat) (hn : 0 ≤ n) :
    (n * (2 ^ k : Nat)).toNat = n.toNat * 2 ^ k := by
  have hcast : n * (2 ^ k : Nat) = (n.toNat * 2 ^ k : Nat) := by
    rw [Nat.cast_mul, Int.toNat_of_nonneg hn]
  rw [hcast, Int.toNat_natCast]

theorem units_normalize {n e : Int} (z : Sign) (he : -1074 ≤ e) :
    units (Float.Model.pack (normalize Format.binary64 n e z)).unpack =
      roundUnits (n * (2 ^ scale e : Nat)) := by
  have hpow : (0 : Int) < (2 ^ scale e : Nat) := by
    have := two_pow_pos (scale e)
    omega
  rcases Int.lt_trichotomy n 0 with hneg | hzero | hpos
  · have hnormal : normalize Format.binary64 n e z =
        round Format.binary64 .negative (-n).toNat e := by
      unfold UnpackedFloat.normalize
      rw [Int.compare_eq_lt.mpr hneg]
    have hvalue : (-(n * (2 ^ scale e : Nat))).toNat = (-n).toNat * 2 ^ scale e := by
      rw [← Int.neg_mul, toNat_mul_pow _ (by omega)]
    rw [hnormal, units_pack_rounded (rounded_round _ (by omega) he)]
    unfold roundUnits
    rw [if_pos (Int.mul_neg_of_neg_of_pos hneg hpow), hvalue]
    rfl
  · subst hzero
    rw [Int.zero_mul, roundUnits_zero]
    show units (Float.Model.pack (.zero z)).unpack = 0
    rw [unpack_pack_zero]
    rfl
  · have hnormal : normalize Format.binary64 n e z =
        round Format.binary64 .positive n.toNat e := by
      unfold UnpackedFloat.normalize
      rw [Int.compare_eq_gt.mpr hpos]
    have hvalue : (n * (2 ^ scale e : Nat)).toNat = n.toNat * 2 ^ scale e :=
      toNat_mul_pow _ (by omega)
    have hsign : ¬ n * (2 ^ scale e : Nat) < 0 := by
      have := Int.mul_pos hpos hpow
      omega
    rw [hnormal, units_pack_rounded (rounded_round _ (by omega) he)]
    unfold roundUnits
    rw [if_neg hsign, hvalue]
    rfl

/-- A number of the format rounds to itself. -/
theorem nearest_canonical {m : Nat} {e : Int} (h : 0 < m) (hc : Canonical m e) :
    nearest (m * 2 ^ scale e) = m * 2 ^ scale e := by
  have hlog : (m * 2 ^ scale e).log2 = m.log2 + scale e := log2_mul_two_pow h _
  unfold nearest
  by_cases hnormal : 2 ^ 52 ≤ m
  · have hm : m.log2 = 52 := (Nat.log2_eq_iff (by omega)).mpr ⟨hnormal, hc.mantissa⟩
    have hdrop : (m * 2 ^ scale e).log2 - 52 = scale e := by omega
    rw [hdrop, nearestQuotient_mul m (two_pow_pos _)]
  · have hlow : e = -1074 := by
      rcases hc.normal with hbig | hlow
      · exact absurd hbig hnormal
      · exact hlow
    have hm : m.log2 < 52 := (Nat.log2_lt (by omega)).mpr (by omega)
    have hscale : scale e = 0 := by
      rw [hlow]
      rfl
    have hdrop : (m * 2 ^ scale e).log2 - 52 = 0 := by omega
    have hone := nearestQuotient_mul (m * 2 ^ scale e) (p := 1) (by decide)
    rw [Nat.mul_one] at hone
    rw [hdrop, Nat.pow_zero, Nat.mul_one, hone]

theorem roundUnits_apply {m : Nat} {e : Int} (s : Sign) (h : 0 < m) (hc : Canonical m e) :
    roundUnits (s.apply (m * 2 ^ scale e : Nat)) = s.apply (m * 2 ^ scale e : Nat) := by
  have hbound := magnitude_bound hc
  have hround := nearest_canonical h hc
  have hpos : 0 < m * 2 ^ scale e := Nat.mul_pos h (two_pow_pos _)
  generalize m * 2 ^ scale e = d at hbound hround hpos
  unfold roundUnits
  cases s with
  | negative =>
    have hvalue : (-Sign.negative.apply (d : Int)).toNat = d := by
      show (- -(d : Int)).toNat = d
      omega
    have hsign : Sign.negative.apply (d : Int) < 0 := by
      show -(d : Int) < 0
      omega
    rw [if_pos hsign, hvalue, hround, Nat.min_eq_left (by omega)]
    rfl
  | positive =>
    have hvalue : (Sign.positive.apply (d : Int)).toNat = d := Int.toNat_natCast d
    have hsign : ¬ Sign.positive.apply (d : Int) < 0 := by
      show ¬ (d : Int) < 0
      omega
    rw [if_neg hsign, hvalue, hround, Nat.min_eq_left (by omega)]
    rfl

theorem apply_mul (s : Sign) (n k : Nat) : s.apply (n * k : Nat) = s.apply n * (k : Int) := by
  cases s with
  | negative =>
    show -((n * k : Nat) : Int) = -(n : Int) * k
    rw [Nat.cast_mul, Int.neg_mul]
  | positive =>
    show ((n * k : Nat) : Int) = (n : Int) * k
    rw [Nat.cast_mul]

theorem apply_neg (s : Sign) (n : Int) : (-s).apply n = -s.apply n := by
  cases s with
  | negative =>
    show n = - -n
    omega
  | positive => rfl

/-- A mantissa moved to a smaller exponent has the same value. -/
theorem apply_decrease (s : Sign) (m : Nat) {e t : Int} (ht : -1074 ≤ t) (hte : t ≤ e) :
    s.apply (m * 2 ^ scale e : Nat) =
      s.apply (m <<< (e - t).toNat : Nat) * (2 ^ scale t : Nat) := by
  have hscale : scale e = (e - t).toNat + scale t := by
    unfold scale
    omega
  rw [← apply_mul, Nat.shiftLeft_eq, Nat.mul_assoc, ← Nat.pow_add, ← hscale]

/-- A difference is the exact difference, rounded once. -/
theorem units_sub {x y : Float.Model} (hx : x.unpack.isFinite = true)
    (hy : y.unpack.isFinite = true) :
    units (Float.Model.pack (sub Format.binary64 x.unpack y.unpack)).unpack =
      roundUnits (units x.unpack - units y.unpack) := by
  cases hu : x.unpack with
  | notANumber => rw [hu] at hx; cases hx
  | infinity s => rw [hu] at hx; cases hx
  | zero s =>
    cases hv : y.unpack with
    | notANumber => rw [hv] at hy; cases hy
    | infinity t => rw [hv] at hy; cases hy
    | zero t =>
      have hzero : ∃ z, sub Format.binary64 (.zero s) (.zero t) = .zero z := by
        cases s <;> cases t <;> exact ⟨_, rfl⟩
      obtain ⟨z, hz⟩ := hzero
      rw [hz, unpack_pack_zero]
      exact roundUnits_zero.symm
    | finite t n k hn =>
      have hc := canonical_unpack hv
      have hneg : (0 : Int) - t.apply (n * 2 ^ scale k : Nat) =
          (-t).apply (n * 2 ^ scale k : Nat) := by
        rw [apply_neg]
        omega
      show units (Float.Model.pack (.finite (-t) n k hn)).unpack =
        roundUnits (0 - t.apply (n * 2 ^ scale k : Nat))
      rw [units_pack_canonical hn hc, hneg, roundUnits_apply _ hn hc]
  | finite s m e hm =>
    have hc := canonical_unpack hu
    cases hv : y.unpack with
    | notANumber => rw [hv] at hy; cases hy
    | infinity t => rw [hv] at hy; cases hy
    | zero t =>
      show units (Float.Model.pack (.finite s m e hm)).unpack =
        roundUnits (s.apply (m * 2 ^ scale e : Nat) - 0)
      rw [Int.sub_zero, units_pack_canonical hm hc, roundUnits_apply _ hm hc]
    | finite t n k hn =>
      have hd := canonical_unpack hv
      have hlow : -1074 ≤ min e k := by
        have := hc.lower
        have := hd.lower
        omega
      show units (Float.Model.pack (normalize Format.binary64
          (s.apply (m <<< (e - min e k).toNat : Nat) - t.apply (n <<< (k - min e k).toNat : Nat))
          (min e k) .positive)).unpack =
        roundUnits (s.apply (m * 2 ^ scale e : Nat) - t.apply (n * 2 ^ scale k : Nat))
      rw [units_normalize _ hlow, Int.sub_mul, ← apply_decrease s m hlow (by omega),
        ← apply_decrease t n hlow (by omega)]

/-! ## The order, through multiples -/

/-- Where a number lies against zero and against the overflow. -/
theorem units_cases {x : Float.Model} (hx : x.unpack.isNaN = false) :
    (∃ s, x.unpack = .zero s ∧ units x.unpack = 0) ∨
    (∃ s, x.unpack = .infinity s ∧ units x.unpack = s.apply overflow) ∨
    ∃ s m e h, x.unpack = .finite s m e h ∧ Canonical m e ∧
      units x.unpack = s.apply (m * 2 ^ scale e : Nat) ∧ 0 < m * 2 ^ scale e ∧
      m * 2 ^ scale e < overflow := by
  cases hu : x.unpack with
  | notANumber => rw [hu] at hx; cases hx
  | infinity s => exact .inr (.inl ⟨s, rfl, rfl⟩)
  | zero s => exact .inl ⟨s, rfl, rfl⟩
  | finite s m e h =>
    have hc := canonical_unpack hu
    exact .inr (.inr ⟨s, m, e, h, rfl, hc, rfl, Nat.mul_pos h (two_pow_pos _),
      magnitude_bound hc⟩)

theorem overflow_pos : 0 < overflow := two_pow_pos _

theorem rankLt_iff_units {x y : Float.Model} (hx : x.unpack.isNaN = false)
    (hy : y.unpack.isNaN = false) :
    RankLt (unpackedRank x.unpack) (unpackedRank y.unpack) ↔ units x.unpack < units y.unpack := by
  have hover := overflow_pos
  rcases units_cases hx with ⟨s, hu, hux⟩ | ⟨s, hu, hux⟩ | ⟨s, m, e, hm, hu, hc, hux, hpos, hlt⟩ <;>
    rcases units_cases hy with ⟨t, hv, hvy⟩ | ⟨t, hv, hvy⟩ |
      ⟨t, n, k, hn, hv, hd, hvy, hpos', hlt'⟩ <;>
    rw [hux, hvy, hu, hv]
  · simp [unpackedRank, RankLt]
  · cases t <;> simp only [unpackedRank, RankLt, Sign.apply] <;> omega
  · cases t <;> simp only [unpackedRank, RankLt, Sign.apply] <;> omega
  · cases s <;> simp only [unpackedRank, RankLt, Sign.apply] <;> omega
  · cases s <;> cases t <;> simp only [unpackedRank, RankLt, Sign.apply] <;> omega
  · cases s <;> cases t <;> simp only [unpackedRank, RankLt, Sign.apply] <;> omega
  · cases s <;> simp only [unpackedRank, RankLt, Sign.apply] <;> omega
  · cases s <;> cases t <;> simp only [unpackedRank, RankLt, Sign.apply] <;> omega
  · have hforward := magnitude_lt hc hd
    have hbackward := magnitude_lt hd hc
    cases s <;> cases t <;>
      simp only [unpackedRank, RankLt, Sign.apply, Int.lt_irrefl, false_or, true_and] <;> omega

theorem lt_iff_units {x y : Float} (hx : x.isNaN = false) (hy : y.isNaN = false) :
    x < y ↔ units x.toModel.unpack < units y.toModel.unpack := by
  rw [lt_iff hx hy]
  exact rankLt_iff_units hx hy

theorem le_iff_units {x y : Float} (hx : x.isNaN = false) (hy : y.isNaN = false) :
    x ≤ y ↔ units x.toModel.unpack ≤ units y.toModel.unpack := by
  rw [← not_lt hy hx, lt_iff_units hy hx]
  omega

/-! ## Subtracting a fixed number -/

theorem units_sub_float {x w : Float} (hx : x.toModel.unpack.isFinite = true)
    (hw : w.toModel.unpack.isFinite = true) :
    units (x - w).toModel.unpack =
      roundUnits (units x.toModel.unpack - units w.toModel.unpack) :=
  units_sub hx hw

theorem sub_le_sub_finite {a b w : Float} (ha : a.isFinite = true) (hb : b.isFinite = true)
    (hw : w.isFinite = true) (hab : a ≤ b) : a - w ≤ b - w := by
  have hna := isFinite_isNaN ha
  have hnb := isFinite_isNaN hb
  rw [le_iff_units hna hnb] at hab
  rw [le_iff_units (isNaN_sub hna hw) (isNaN_sub hnb hw), units_sub_float ha hw,
    units_sub_float hb hw]
  exact roundUnits_mono (by omega)

theorem units_bounds (x : Float.Model) :
    -(overflow : Int) ≤ units x.unpack ∧ units x.unpack ≤ overflow := by
  by_cases hx : x.unpack.isNaN = false
  · rcases units_cases hx with ⟨s, -, hux⟩ | ⟨s, -, hux⟩ | ⟨s, m, e, -, -, -, hux, hpos, hlt⟩
    · omega
    · rw [hux]
      cases s <;> simp only [Sign.apply] <;> omega
    · rw [hux]
      cases s <;> simp only [Sign.apply] <;> omega
  · cases hu : x.unpack with
    | notANumber =>
      show -(overflow : Int) ≤ 0 ∧ (0 : Int) ≤ overflow
      omega
    | infinity s => rw [hu] at hx; exact absurd rfl hx
    | zero s => rw [hu] at hx; exact absurd rfl hx
    | finite s m e h => rw [hu] at hx; exact absurd rfl hx

theorem units_negative_infinity : units (.infinity .negative) = -(overflow : Int) := rfl

theorem units_positive_infinity : units (.infinity .positive) = overflow := rfl

theorem eq_negative_infinity {x : Float.Model} (hx : x.unpack.isNaN = false)
    (h : units x.unpack ≤ -(overflow : Int)) : x.unpack = .infinity .negative := by
  have hover := overflow_pos
  rcases units_cases hx with ⟨s, -, hux⟩ | ⟨s, hu, hux⟩ | ⟨s, m, e, -, -, -, hux, hpos, hlt⟩
  · omega
  · cases s with
    | negative => exact hu
    | positive =>
      simp only [Sign.apply] at hux
      omega
  · cases s <;> simp only [Sign.apply] at hux <;> omega

theorem eq_positive_infinity {x : Float.Model} (hx : x.unpack.isNaN = false)
    (h : (overflow : Int) ≤ units x.unpack) : x.unpack = .infinity .positive := by
  have hover := overflow_pos
  rcases units_cases hx with ⟨s, -, hux⟩ | ⟨s, hu, hux⟩ | ⟨s, m, e, -, -, -, hux, hpos, hlt⟩
  · omega
  · cases s with
    | negative =>
      simp only [Sign.apply] at hux
      omega
    | positive => exact hu
  · cases s <;> simp only [Sign.apply] at hux <;> omega

theorem not_lt_negative_infinity {t x : Float} (hx : x.toModel.unpack = .infinity .negative) :
    ¬ t < x := by
  intro h
  obtain ⟨ht, hn⟩ := isNaN_of_lt h
  rw [lt_iff_units ht hn, hx, units_negative_infinity] at h
  have hbound := units_bounds t.toModel
  omega

theorem le_positive_infinity {t x : Float} (ht : t.isNaN = false)
    (hx : x.toModel.unpack = .infinity .positive) : t ≤ x := by
  have hn : x.isNaN = false := by
    show x.toModel.unpack.isNaN = false
    rw [hx]
    rfl
  rw [le_iff_units ht hn, hx, units_positive_infinity]
  exact (units_bounds t.toModel).2

theorem unpack_sub_infinity {x w : Float} {s : Sign}
    (h : sub Format.binary64 x.toModel.unpack w.toModel.unpack = .infinity s) :
    (x - w).toModel.unpack = .infinity s := by
  show (Float.Model.pack (sub Format.binary64 x.toModel.unpack w.toModel.unpack)).unpack = _
  rw [h, unpack_pack_infinity]

theorem isNaN_sub_of {x w : Float}
    (h : sub Format.binary64 x.toModel.unpack w.toModel.unpack = .notANumber) :
    (x - w).isNaN = true := by
  show (Float.Model.pack (sub Format.binary64 x.toModel.unpack w.toModel.unpack)).unpack.isNaN = _
  rw [h]
  rfl

theorem sub_notANumber (u : UnpackedFloat) :
    sub Format.binary64 u .notANumber = .notANumber := by
  cases u <;> rfl

theorem sub_infinity_right {u : UnpackedFloat} (hu : u.isFinite = true) (s : Sign) :
    sub Format.binary64 u (.infinity s) = .infinity (-s) := by
  cases u with
  | notANumber => cases hu
  | infinity r => cases hu
  | zero r => rfl
  | finite r m e hm => rfl

theorem sub_infinity_left {v : UnpackedFloat} (hv : v.isFinite = true) (s : Sign) :
    sub Format.binary64 (.infinity s) v = .infinity s := by
  cases v with
  | notANumber => cases hv
  | infinity r => cases hv
  | zero r => rfl
  | finite r m e hm => rfl

theorem isFinite_or_infinity {u : UnpackedFloat} (hu : u.isNaN = false) :
    u.isFinite = true ∨ ∃ s, u = .infinity s := by
  cases u with
  | notANumber => cases hu
  | infinity s => exact .inr ⟨s, rfl⟩
  | zero s => exact .inl rfl
  | finite s m e hm => exact .inl rfl

/-- Where the lower infinity does not stand, a number at or above is finite or the upper one. -/
theorem infinity_above {a b : Float} (hab : a ≤ b) (ha : a.toModel.unpack ≠ .infinity .negative) :
    b.isFinite = true ∨ b.toModel.unpack = .infinity .positive := by
  obtain ⟨hna, hnb⟩ := isNaN_of_le hab
  rcases isFinite_or_infinity hnb with hfinite | ⟨s, hs⟩
  · exact .inl hfinite
  · cases s with
    | negative =>
      rw [le_iff_units hna hnb, hs, units_negative_infinity] at hab
      exact absurd (eq_negative_infinity hna hab) ha
    | positive => exact .inr hs

/-- What a fixed number leaves of a later reading is not below what it leaves of an earlier. -/
theorem lt_sub_mono {t a b w : Float} (hab : a ≤ b) (h : t < a - w) : t < b - w := by
  obtain ⟨ht, hna⟩ := isNaN_of_lt h
  obtain ⟨ha, hb⟩ := isNaN_of_le hab
  have hnumber : sub Format.binary64 a.toModel.unpack w.toModel.unpack ≠ .notANumber := by
    intro hno
    rw [isNaN_sub_of hno] at hna
    cases hna
  have hlow : sub Format.binary64 a.toModel.unpack w.toModel.unpack ≠ .infinity .negative := by
    intro hlow
    exact not_lt_negative_infinity (unpack_sub_infinity hlow) h
  have htop : sub Format.binary64 b.toModel.unpack w.toModel.unpack = .infinity .positive →
      t < b - w := by
    intro hs
    exact lt_of_lt_of_le h (le_positive_infinity hna (unpack_sub_infinity hs))
  have hw : w.toModel.unpack.isNaN = false := by
    cases hu : w.toModel.unpack with
    | notANumber =>
      rw [hu, sub_notANumber] at hnumber
      exact absurd rfl hnumber
    | _ => rfl
  rcases isFinite_or_infinity ha with hfa | ⟨s, hs⟩
  · have habove : a.toModel.unpack ≠ .infinity .negative := by
      intro hinf
      rw [hinf] at hfa
      cases hfa
    rcases isFinite_or_infinity hw with hfw | ⟨r, hr⟩
    · rcases infinity_above hab habove with hfb | hinf
      · exact lt_of_lt_of_le h (sub_le_sub_finite hfa hfb hfw hab)
      · apply htop
        rw [hinf, sub_infinity_left hfw]
    · cases r with
      | negative =>
        apply htop
        rw [hr]
        rcases infinity_above hab habove with hfb | hinf
        · exact sub_infinity_right hfb .negative
        · rw [hinf]
          rfl
      | positive =>
        rw [hr, sub_infinity_right hfa .positive] at hlow
        exact absurd rfl hlow
  · have hfixed : s = .positive ∧ (w.toModel.unpack.isFinite = true ∨
        w.toModel.unpack = .infinity .negative) := by
      rw [hs] at hnumber hlow
      rcases isFinite_or_infinity hw with hfw | ⟨r, hr⟩
      · rw [sub_infinity_left hfw] at hlow
        cases s with
        | negative => exact absurd rfl hlow
        | positive => exact ⟨rfl, .inl hfw⟩
      · rw [hr] at hnumber hlow
        cases s <;> cases r
        · exact absurd rfl hnumber
        · exact absurd rfl hlow
        · exact ⟨rfl, .inr hr⟩
        · exact absurd rfl hnumber
    obtain ⟨rfl, hleft⟩ := hfixed
    have hinf : b.toModel.unpack = .infinity .positive := by
      rw [le_iff_units ha hb, hs, units_positive_infinity] at hab
      exact eq_positive_infinity hb hab
    apply htop
    rw [hinf]
    rcases hleft with hfw | hr
    · exact sub_infinity_left hfw .positive
    · rw [hr]
      rfl

end Ieee
