import Mathlib

/-!
# Lib — Float

Order and rounding facts about IEEE binary64 numbers, for programs that
compare and add clock readings. `Float` has a logical model
(`Float.Model`), so every comparison below is a computation; the facts
are proved once through `rank`, an integer triple that orders the
numbers, and no later proof unfolds the model.

`NaN` is the only value outside the order: it is neither below nor above
anything, so each lemma asks that its operands are numbers, or gets that
from a comparison that came out true.
-/

namespace Ieee

open Float.Model

/-! ## The order, through ranks -/

/-- Position of a number in the order: its class (`-2` and `2` for the
infinities), then exponent and mantissa, both mirrored below zero. -/
def unpackedRank : UnpackedFloat → Int × Int × Int
  | .infinity .negative => (-2, 0, 0)
  | .finite .negative m e _ => (-1, -e, -(m : Int))
  | .zero _ => (0, 0, 0)
  | .finite .positive m e _ => (1, e, (m : Int))
  | .infinity .positive => (2, 0, 0)
  | .notANumber => (0, 0, 0)

/-- Strict lexicographic order on ranks, spelled out for `omega`. -/
def RankLt (a b : Int × Int × Int) : Prop :=
  a.1 < b.1 ∨ (a.1 = b.1 ∧ (a.2.1 < b.2.1 ∨ (a.2.1 = b.2.1 ∧ a.2.2 < b.2.2)))

private theorem then_lt (e₁ e₂ : Int) (m₁ m₂ : Nat) :
    ((compare e₁ e₂).then (compare m₁ m₂)) = .lt
      ↔ e₁ < e₂ ∨ (e₁ = e₂ ∧ m₁ < m₂) := by
  rw [Ordering.then_eq_lt, Int.compare_eq_lt, Int.compare_eq_eq, Nat.compare_eq_lt]

private theorem then_gt (e₁ e₂ : Int) (m₁ m₂ : Nat) :
    ((compare e₁ e₂).then (compare m₁ m₂)) = .gt
      ↔ e₂ < e₁ ∨ (e₁ = e₂ ∧ m₂ < m₁) := by
  rw [Ordering.then_eq_gt, Int.compare_eq_gt, Int.compare_eq_eq, Nat.compare_eq_gt]

/-- The model's comparison reads off the ranks. -/
private theorem compare_rank (a b : UnpackedFloat) (ha : a.isNaN = false)
    (hb : b.isNaN = false) : ∃ o, a.compare b = some o ∧
      (o = .lt ↔ RankLt (unpackedRank a) (unpackedRank b)) ∧
      (o = .gt ↔ RankLt (unpackedRank b) (unpackedRank a)) := by
  cases a with
  | notANumber => cases ha
  | infinity s₁ =>
    cases b with
    | notANumber => cases hb
    | infinity s₂ =>
      refine ⟨compare s₁ s₂, rfl, ?_⟩
      cases s₁ <;> cases s₂ <;> simp [compare, unpackedRank, RankLt]
    | zero s₂ => cases s₁ <;> exact ⟨_, rfl, by simp [unpackedRank, RankLt]⟩
    | finite s₂ m₂ e₂ h₂ =>
      cases s₁ <;> cases s₂ <;> exact ⟨_, rfl, by simp [unpackedRank, RankLt]⟩
  | zero s₁ =>
    cases b with
    | notANumber => cases hb
    | infinity s₂ => cases s₂ <;> exact ⟨_, rfl, by simp [unpackedRank, RankLt]⟩
    | zero s₂ => exact ⟨_, rfl, by simp [unpackedRank, RankLt]⟩
    | finite s₂ m₂ e₂ h₂ => cases s₂ <;> exact ⟨_, rfl, by simp [unpackedRank, RankLt]⟩
  | finite s₁ m₁ e₁ h₁ =>
    cases b with
    | notANumber => cases hb
    | infinity s₂ =>
      cases s₁ <;> cases s₂ <;> exact ⟨_, rfl, by simp [unpackedRank, RankLt]⟩
    | zero s₂ => cases s₁ <;> exact ⟨_, rfl, by simp [unpackedRank, RankLt]⟩
    | finite s₂ m₂ e₂ h₂ =>
      cases s₁ <;> cases s₂
      · refine ⟨_, rfl, ?_⟩
        simp only [unpackedRank, RankLt, Ordering.swap_eq_lt, Ordering.swap_eq_gt, then_lt,
          then_gt, Int.lt_irrefl, false_or, true_and]
        omega
      · exact ⟨_, rfl, by simp [unpackedRank, RankLt]⟩
      · exact ⟨_, rfl, by simp [unpackedRank, RankLt]⟩
      · refine ⟨_, rfl, ?_⟩
        simp only [unpackedRank, RankLt, then_lt, then_gt, Int.lt_irrefl, false_or, true_and]
        omega

/-- The rank of a number; `NaN` gets a junk rank that no lemma reads. -/
def rank (x : Float) : Int × Int × Int := unpackedRank x.toModel.unpack

theorem lt_def (x y : Float) :
    x < y ↔ x.toModel.unpack.compare y.toModel.unpack = some .lt := by
  show decide ((x.toModel.unpack.compare y.toModel.unpack == some .lt) = true) = true ↔ _
  rw [decide_eq_true_eq, beq_iff_eq]

theorem le_def (x y : Float) :
    x ≤ y ↔ (x.toModel.unpack.compare y.toModel.unpack).any (·.isLE) = true := by
  show decide ((x.toModel.unpack.compare y.toModel.unpack).any (·.isLE) = true) = true ↔ _
  rw [decide_eq_true_eq]

theorem lt_iff {x y : Float} (hx : x.isNaN = false) (hy : y.isNaN = false) :
    x < y ↔ RankLt (rank x) (rank y) := by
  obtain ⟨o, ho, hlt, -⟩ := compare_rank _ _ hx hy
  rw [lt_def, ho, rank, rank, ← hlt, Option.some.injEq]

theorem le_iff {x y : Float} (hx : x.isNaN = false) (hy : y.isNaN = false) :
    x ≤ y ↔ ¬ RankLt (rank y) (rank x) := by
  obtain ⟨o, ho, -, hgt⟩ := compare_rank _ _ hx hy
  rw [le_def, ho, rank, rank, ← hgt]
  cases o <;> simp

private theorem compare_isSome {a b : UnpackedFloat} (h : (a.compare b).isSome = true) :
    a.isNaN = false ∧ b.isNaN = false := by
  cases a with
  | notANumber => cases h
  | infinity s =>
    cases b with
    | notANumber => cases s <;> cases h
    | _ => exact ⟨rfl, rfl⟩
  | zero s =>
    cases b with
    | notANumber => cases h
    | _ => exact ⟨rfl, rfl⟩
  | finite s m e hm =>
    cases b with
    | notANumber => cases h
    | _ => exact ⟨rfl, rfl⟩

theorem isNaN_of_lt {x y : Float} (h : x < y) : x.isNaN = false ∧ y.isNaN = false :=
  compare_isSome (by rw [(lt_def x y).mp h]; rfl)

theorem isNaN_of_le {x y : Float} (h : x ≤ y) : x.isNaN = false ∧ y.isNaN = false := by
  rw [le_def] at h
  exact compare_isSome (by cases hc : x.toModel.unpack.compare y.toModel.unpack <;> simp_all)

theorem le_refl {x : Float} (hx : x.isNaN = false) : x ≤ x := by
  rw [le_iff hx hx, RankLt]
  omega

theorem le_trans {x y z : Float} (h₁ : x ≤ y) (h₂ : y ≤ z) : x ≤ z := by
  obtain ⟨hx, hy⟩ := isNaN_of_le h₁
  obtain ⟨-, hz⟩ := isNaN_of_le h₂
  rw [le_iff hx hy, RankLt] at h₁
  rw [le_iff hy hz, RankLt] at h₂
  rw [le_iff hx hz, RankLt]
  omega

theorem lt_of_lt_of_le {x y z : Float} (h₁ : x < y) (h₂ : y ≤ z) : x < z := by
  obtain ⟨hx, hy⟩ := isNaN_of_lt h₁
  obtain ⟨-, hz⟩ := isNaN_of_le h₂
  rw [lt_iff hx hy, RankLt] at h₁
  rw [le_iff hy hz, RankLt] at h₂
  rw [lt_iff hx hz, RankLt]
  omega

theorem lt_of_le_of_lt {x y z : Float} (h₁ : x ≤ y) (h₂ : y < z) : x < z := by
  obtain ⟨hx, hy⟩ := isNaN_of_le h₁
  obtain ⟨-, hz⟩ := isNaN_of_lt h₂
  rw [le_iff hx hy, RankLt] at h₁
  rw [lt_iff hy hz, RankLt] at h₂
  rw [lt_iff hx hz, RankLt]
  omega

theorem not_lt {x y : Float} (hx : x.isNaN = false) (hy : y.isNaN = false) :
    ¬ x < y ↔ y ≤ x := by
  rw [lt_iff hx hy, le_iff hy hx]

/-- IEEE equality of numbers: neither is smaller. -/
theorem beq_iff {x y : Float} (hx : x.isNaN = false) (hy : y.isNaN = false) :
    (x == y) = true ↔ ¬ x < y ∧ ¬ y < x := by
  obtain ⟨o, ho, hlt, hgt⟩ := compare_rank _ _ hx hy
  have hbeq : (x == y) = true ↔ x.toModel.unpack.compare y.toModel.unpack = some .eq := by
    show (x.toModel.unpack.compare y.toModel.unpack == some .eq) = true ↔ _
    exact beq_iff_eq
  rw [hbeq, ho, lt_iff hx hy, lt_iff hy hx, rank, rank, ← hlt, ← hgt]
  cases o <;> simp

/-! ## Rounding never invents a `NaN` -/

private theorem isNaN_unpack (spec : Format) (b : BitVec spec.numBits) :
    (UnpackedFloat.unpack spec b).isNaN = true →
      UnpackedFloat.unpackExponent b = (-1#_) ∧ UnpackedFloat.unpackMantissa b ≠ 0#_ := by
  intro h
  unfold UnpackedFloat.unpack at h
  by_cases he : UnpackedFloat.unpackExponent b = (-1#_)
  · by_cases hm : UnpackedFloat.unpackMantissa b = 0#_
    · simp [he, hm, UnpackedFloat.isNaN] at h
    · exact ⟨he, hm⟩
  · simp only [he, if_false] at h
    split at h
    · split at h <;> cases h
    · cases h

private theorem isNaN_unpack_pack (spec : Format) (u : UnpackedFloat) (h : u.isNaN = false) :
    (UnpackedFloat.unpack spec (UnpackedFloat.pack spec u)).isNaN = false := by
  by_contra hn
  obtain ⟨he, hm⟩ := isNaN_unpack spec _ (by simpa using hn)
  cases u with
  | notANumber => cases h
  | infinity s => simp [UnpackedFloat.pack, UnpackedFloat.packedInfinity] at hm
  | zero s => simp [UnpackedFloat.pack, UnpackedFloat.packedZero] at hm
  | finite s m e hpos =>
    simp only [UnpackedFloat.pack] at he hm
    split at he
    · rename_i hbig
      simp [hbig, UnpackedFloat.packedInfinity] at hm
    · rename_i hsmall
      have hexp := spec.he
      have hpow : 0 < 2 ^ spec.exponentBits := Nat.pow_pos (by decide)
      split at he
      · rw [UnpackedFloat.unpackExponent_packComponents] at he
        have hv := congrArg BitVec.toNat he
        rw [BitVec.neg_one_eq_allOnes, BitVec.toNat_allOnes, BitVec.toNat_ofNat,
          Nat.mod_eq_of_lt (by omega)] at hv
        omega
      · rw [UnpackedFloat.unpackExponent_packComponents] at he
        have hv := congrArg BitVec.toNat he
        have h2 : 2 ≤ 2 ^ spec.exponentBits :=
          Nat.le_self_pow (Nat.pos_iff_ne_zero.mp hexp) 2
        rw [BitVec.neg_one_eq_allOnes, BitVec.toNat_allOnes] at hv
        simp at hv
        omega

private theorem isNaN_normalize (spec : Format) (m e : Int) (z : UnpackedFloat.Sign) :
    (UnpackedFloat.normalize spec m e z).isNaN = false := by
  have hround : ∀ s n k, (UnpackedFloat.round spec s n k).isNaN = false := by
    intro s n k
    simp only [UnpackedFloat.round, UnpackedFloat.roundWithAccuracy]
    split <;> rfl
  unfold UnpackedFloat.normalize
  split
  · exact hround _ _ _
  · rfl
  · exact hround _ _ _

theorem isNaN_add_left {x y : Float} (hx : x.isFinite = true) (hy : y.isNaN = false) :
    (x + y).isNaN = false := by
  refine isNaN_unpack_pack _ _ ?_
  change x.toModel.unpack.isFinite = true at hx
  change y.toModel.unpack.isNaN = false at hy
  cases hu : x.toModel.unpack with
  | notANumber => rw [hu] at hx; cases hx
  | infinity s => rw [hu] at hx; cases hx
  | zero s =>
    cases hv : y.toModel.unpack with
    | notANumber => rw [hv] at hy; cases hy
    | infinity t => rfl
    | zero t => simp only [UnpackedFloat.add]; split <;> rfl
    | finite t n k hn => rfl
  | finite s m e hm =>
    cases hv : y.toModel.unpack with
    | notANumber => rw [hv] at hy; cases hy
    | infinity t => rfl
    | zero t => rfl
    | finite t n k hn => exact isNaN_normalize _ _ _ _

theorem isNaN_sub {x y : Float} (hx : x.isNaN = false) (hy : y.isFinite = true) :
    (x - y).isNaN = false := by
  refine isNaN_unpack_pack _ _ ?_
  change x.toModel.unpack.isNaN = false at hx
  change y.toModel.unpack.isFinite = true at hy
  cases hv : y.toModel.unpack with
  | notANumber => rw [hv] at hy; cases hy
  | infinity s => rw [hv] at hy; cases hy
  | zero t =>
    cases hu : x.toModel.unpack with
    | notANumber => rw [hu] at hx; cases hx
    | infinity s => rfl
    | zero s => simp only [UnpackedFloat.sub]; split <;> rfl
    | finite s m e hm => rfl
  | finite t n k hn =>
    cases hu : x.toModel.unpack with
    | notANumber => rw [hu] at hx; cases hx
    | infinity s => rfl
    | zero s => rfl
    | finite s m e hm => exact isNaN_normalize _ _ _ _

theorem isFinite_isNaN {x : Float} (hx : x.isFinite = true) : x.isNaN = false := by
  change x.toModel.unpack.isFinite = true at hx
  show x.toModel.unpack.isNaN = false
  cases hu : x.toModel.unpack with
  | notANumber => rw [hu] at hx; cases hx
  | infinity s => rfl
  | zero s => rfl
  | finite s m e hm => rfl

/-! ## Floats that are not finite -/

/-- A pattern is its mantissa, its exponent and its sign. -/
private theorem bits_ext {b b' : BitVec 64}
    (hm : @UnpackedFloat.unpackMantissa Format.binary64 b =
      @UnpackedFloat.unpackMantissa Format.binary64 b')
    (he : @UnpackedFloat.unpackExponent Format.binary64 b =
      @UnpackedFloat.unpackExponent Format.binary64 b')
    (hs : @UnpackedFloat.unpackSign Format.binary64 b =
      @UnpackedFloat.unpackSign Format.binary64 b') : b = b' := by
  have hm := congrArg BitVec.toNat hm
  have he := congrArg BitVec.toNat he
  have hs := congrArg BitVec.toNat hs
  simp only [UnpackedFloat.unpackMantissa, UnpackedFloat.unpackExponent, UnpackedFloat.unpackSign,
    Format.binary64, BitVec.toNat_cast, BitVec.extractLsb_toNat, Nat.shiftRight_eq_div_pow] at hm he hs
  apply BitVec.eq_of_toNat_eq
  have hb := b.isLt
  have hb' := b'.isLt
  omega

private theorem infinity_unpack (spec : Format) (b : BitVec spec.numBits) {s : UnpackedFloat.Sign}
    (h : UnpackedFloat.unpack spec b = .infinity s) :
    UnpackedFloat.unpackExponent b = (-1#_) ∧ UnpackedFloat.unpackMantissa b = 0#_ ∧
      UnpackedFloat.Sign.ofBitVec (UnpackedFloat.unpackSign b) = s := by
  unfold UnpackedFloat.unpack at h
  by_cases he : UnpackedFloat.unpackExponent b = (-1#_)
  · by_cases hm : UnpackedFloat.unpackMantissa b = 0#_
    · simp only [he, hm, if_true] at h
      exact ⟨he, hm, UnpackedFloat.infinity.inj h⟩
    · simp [he, hm] at h
  · simp only [he, if_false] at h
    split at h
    · split at h <;> cases h
    · cases h

/-- There is one pattern of each float that is not finite. -/
theorem eq_of_unpack {x y : Float} (h : x.toModel.unpack = y.toModel.unpack)
    (hx : x.isFinite = false) : x = y := by
  have hbits : x.toModel.toBits.toBitVec = y.toModel.toBits.toBitVec := by
    change x.toModel.unpack.isFinite = false at hx
    cases hu : x.toModel.unpack with
    | notANumber =>
      have hnan := isNaN_unpack Format.binary64 x.toModel.toBits.toBitVec (congrArg _ hu)
      have hnan' := isNaN_unpack Format.binary64 y.toModel.toBits.toBitVec
        (congrArg _ (h.symm.trans hu))
      rw [x.toModel.valid.eq_packedNaN hnan.1 hnan.2, y.toModel.valid.eq_packedNaN hnan'.1 hnan'.2]
    | infinity s =>
      obtain ⟨he, hm, hs⟩ := infinity_unpack Format.binary64 x.toModel.toBits.toBitVec hu
      obtain ⟨he', hm', hs'⟩ :=
        infinity_unpack Format.binary64 y.toModel.toBits.toBitVec (h.symm.trans hu)
      have hsign : ∀ b b' : BitVec 1,
          UnpackedFloat.Sign.ofBitVec b = UnpackedFloat.Sign.ofBitVec b' → b = b' := by
        intro b b' h
        rcases BitVec.eq_zero_or_eq_one b with rfl | rfl <;>
          rcases BitVec.eq_zero_or_eq_one b' with rfl | rfl <;> first | rfl | cases h
      exact bits_ext (hm.trans hm'.symm) (he.trans he'.symm) (hsign _ _ (hs.trans hs'.symm))
    | zero s => rw [hu] at hx; cases hx
    | finite s m e hpos => rw [hu] at hx; cases hx
  obtain ⟨⟨⟨bits⟩, valid⟩⟩ := x
  obtain ⟨⟨⟨bits'⟩, valid'⟩⟩ := y
  cases hbits
  rfl

theorem eq_of_isNaN {x y : Float} (hx : x.isNaN = true) (hy : y.isNaN = true) : x = y := by
  change x.toModel.unpack.isNaN = true at hx
  change y.toModel.unpack.isNaN = true at hy
  have hnan : ∀ u : UnpackedFloat, u.isNaN = true → u = .notANumber := by
    intro u hu
    cases u with
    | notANumber => rfl
    | _ => cases hu
  refine eq_of_unpack ((hnan _ hx).trans (hnan _ hy).symm) ?_
  change x.toModel.unpack.isFinite = false
  rw [hnan _ hx]
  rfl

/-- An infinity is told by its side of zero. -/
theorem eq_of_infinite {x y : Float} (hx : x.isFinite = false) (hxn : x.isNaN = false)
    (hy : y.isFinite = false) (hyn : y.isNaN = false) (hside : 0 < x ↔ 0 < y) : x = y := by
  have hinfinite : ∀ z : Float, z.isFinite = false → z.isNaN = false →
      ∃ s, z.toModel.unpack = .infinity s := by
    intro z hz hzn
    change z.toModel.unpack.isFinite = false at hz
    change z.toModel.unpack.isNaN = false at hzn
    cases hu : z.toModel.unpack with
    | infinity s => exact ⟨s, rfl⟩
    | notANumber => rw [hu] at hzn; cases hzn
    | zero s => rw [hu] at hz; cases hz
    | finite s m e hpos => rw [hu] at hz; cases hz
  obtain ⟨s, hs⟩ := hinfinite x hx hxn
  obtain ⟨t, ht⟩ := hinfinite y hy hyn
  have hpositive : ∀ {z : Float} {u}, z.isNaN = false → z.toModel.unpack = .infinity u →
      (0 < z ↔ u = .positive) := by
    intro z u hzn hz
    have hzero : (0 : Float).toModel.unpack = .zero .positive := rfl
    rw [lt_iff (by decide +kernel) hzn]
    unfold RankLt rank
    rw [hz, hzero]
    cases u <;> simp [unpackedRank]
  rw [hpositive hxn hs, hpositive hyn ht] at hside
  refine eq_of_unpack ?_ hx
  rw [hs, ht]
  cases s <;> cases t <;> simp_all

end Ieee
