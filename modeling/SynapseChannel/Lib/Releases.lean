import SynapseChannel.Lib.Intervals

/-!
# Lib — Releases

Release versions as tuples of numbers read with trailing zeros ignored: a
version stands for a sequence that is zero from some place on, and versions
are ordered by the first place in which their sequences differ.
-/

namespace Releases

/-- `1.2.3` is `[1, 2, 3]`. -/
abbrev Version := List Nat

/-- The number at a place, zero behind the end. -/
def part (v : Version) (i : Nat) : Nat := v.getD i 0

/-- Sequences of numbers, ordered by the first place in which they differ. -/
def Sequence : Type := Lex (Nat → Nat)

noncomputable instance : LinearOrder Sequence := inferInstanceAs (LinearOrder (Lex (Nat → Nat)))

/-- The sequence a version stands for. -/
def rank (v : Version) : Sequence := toLex (part v)

/-- A tuple filled up with zeros. -/
def padded (v : Version) (width : Nat) : Version := v ++ List.replicate (width - v.length) 0

/-- Compare two versions with zero padding. -/
def compare (left right : Version) : Ordering :=
  let width := max left.length right.length
  let paddedLeft := padded left width
  let paddedRight := padded right width
  if paddedLeft < paddedRight then .lt
  else if paddedRight < paddedLeft then .gt
  else .eq

/-! ## The order of the sequences -/

theorem part_of_length_le {v : Version} {i : Nat} (h : v.length ≤ i) : part v i = 0 := by
  unfold part
  exact List.getD_eq_default _ _ h

theorem rank_lt_iff {a b : Version} :
    rank a < rank b ↔ ∃ i, (∀ j < i, part a j = part b j) ∧ part a i < part b i :=
  Iff.rfl

theorem rank_eq_iff {a b : Version} : rank a = rank b ↔ ∀ i, part a i = part b i := by
  constructor
  · intro h i
    exact congrFun (toLex.injective h) i
  · intro h
    exact congrArg toLex (funext h)

theorem part_append_zeros (v : Version) (n i : Nat) :
    part (v ++ List.replicate n 0) i = part v i := by
  unfold part
  by_cases hv : i < v.length
  · rw [List.getD_append _ _ _ _ hv]
  · rw [List.getD_append_right _ _ _ _ (by omega), List.getD_eq_default v 0 (by omega)]
    by_cases hn : i - v.length < n
    · rw [List.getD_replicate 0 hn]
    · rw [List.getD_eq_default _ _ (by rw [List.length_replicate]; omega)]

theorem rank_padded (v : Version) (width : Nat) : rank (padded v width) = rank v :=
  rank_eq_iff.mpr (part_append_zeros v _)

theorem length_padded {v : Version} {width : Nat} (h : v.length ≤ width) :
    (padded v width).length = width := by
  unfold padded
  rw [List.length_append, List.length_replicate]
  omega

/-- Tuples of one length are ordered as their sequences. -/
theorem lt_iff_rank_lt {a b : Version} (h : a.length = b.length) : a < b ↔ rank a < rank b := by
  induction a generalizing b with
  | nil =>
      obtain rfl : b = [] := List.length_eq_zero_iff.mp h.symm
      exact iff_of_false (lt_irrefl _) (lt_irrefl _)
  | cons x rest ih =>
      cases b with
      | nil => cases h
      | cons y rest' =>
          have hrest : rest < rest' ↔ rank rest < rank rest' := ih (Nat.succ.inj h)
          have hcons : x :: rest < y :: rest' ↔ x < y ∨ x = y ∧ rest < rest' :=
            List.cons_lt_cons_iff
          rw [hcons, hrest, rank_lt_iff, rank_lt_iff]
          constructor
          · rintro (hlt | ⟨rfl, i, hsame, hlt⟩)
            · exact ⟨0, fun j hj => absurd hj (Nat.not_lt_zero j), hlt⟩
            · refine ⟨i + 1, fun j hj => ?_, hlt⟩
              cases j with
              | zero => rfl
              | succ j => exact hsame j (by omega)
          · rintro ⟨i, hsame, hlt⟩
            cases i with
            | zero => exact .inl hlt
            | succ i => exact .inr ⟨hsame 0 (by omega), i, fun j hj => hsame (j + 1) (by omega), hlt⟩

theorem compare_eq (a b : Version) : compare a b = cmp (rank a) (rank b) := by
  have ha : (padded a (max a.length b.length)).length = max a.length b.length :=
    length_padded (le_max_left _ _)
  have hb : (padded b (max a.length b.length)).length = max a.length b.length :=
    length_padded (le_max_right _ _)
  have hab : padded a (max a.length b.length) < padded b (max a.length b.length) ↔
      rank a < rank b := by
    rw [lt_iff_rank_lt (ha.trans hb.symm), rank_padded, rank_padded]
  have hba : padded b (max a.length b.length) < padded a (max a.length b.length) ↔
      rank b < rank a := by
    rw [lt_iff_rank_lt (hb.trans ha.symm), rank_padded, rank_padded]
  unfold compare
  simp only [hab, hba]
  rcases lt_trichotomy (rank a) (rank b) with h | h | h
  · rw [if_pos h, cmp_eq_lt_iff _ _ |>.mpr h]
  · rw [if_neg h.not_lt, if_neg h.symm.not_lt, cmp_eq_eq_iff _ _ |>.mpr h]
  · rw [if_neg h.asymm, if_pos h, cmp_eq_gt_iff _ _ |>.mpr h]

/-- Versions are ranked densely, without a greatest one, from zero on. -/
theorem ranked : Intervals.Ranked compare rank [0] where
  order := compare_eq
  between := by
    intro a b hlt
    obtain ⟨i, hsame, hi⟩ := rank_lt_iff.mp hlt
    let width := max a.length b.length
    let c : Version := padded a width ++ [1]
    have hwidth : (padded a width).length = width := length_padded (le_max_left _ _)
    have hbelow : ∀ j < width, part c j = part a j := by
      intro j hj
      show (padded a width ++ [1]).getD j 0 = _
      rw [List.getD_append _ _ _ _ (by rw [hwidth]; exact hj)]
      exact part_append_zeros a _ j
    have hlast : part c width = 1 := by
      show (padded a width ++ [1]).getD width 0 = 1
      rw [List.getD_append_right _ _ _ _ (by rw [hwidth]), hwidth, Nat.sub_self]
      rfl
    have hi' : i < width := by
      by_contra hge
      rw [part_of_length_le (le_trans (le_max_right _ _) (not_lt.mp hge))] at hi
      exact absurd hi (Nat.not_lt_zero _)
    refine ⟨c, rank_lt_iff.mpr ⟨width, fun j hj => (hbelow j hj).symm, ?_⟩,
      rank_lt_iff.mpr ⟨i, fun j hj => ?_, ?_⟩⟩
    · rw [hlast, part_of_length_le (le_max_left _ _)]
      exact Nat.one_pos
    · rw [hbelow j (by omega)]
      exact hsame j hj
    · rw [hbelow i hi']
      exact hi
  beyond := fun a => ⟨[part a 0 + 1], rank_lt_iff.mpr
    ⟨0, fun j hj => absurd hj (Nat.not_lt_zero j), Nat.lt_succ_self _⟩⟩
  least := by
    intro a
    refine not_lt.mp fun hlt => ?_
    obtain ⟨i, -, hi⟩ := rank_lt_iff.mp hlt
    have hzero : part [0] i = 0 := part_append_zeros [] 1 i
    rw [hzero] at hi
    exact absurd hi (Nat.not_lt_zero _)

/-! ## The next version at a place -/

/-- The number at a place one higher, and the rest dropped. -/
def bump (v : Version) (index : Nat) : Version := v.take index ++ [part v index + 1]

/-- Two versions agree in their first places. -/
def Agree (n : Nat) (v w : Version) : Prop := ∀ i < n, part v i = part w i

theorem part_take (v : Version) (n i : Nat) : part (v.take n) i = if i < n then part v i else 0 := by
  unfold part
  by_cases hn : i < n
  · rw [if_pos hn]
    simp [List.getD_eq_getElem?_getD, List.getElem?_take_of_lt hn]
  · rw [if_neg hn, List.getD_eq_default]
    rw [List.length_take]
    omega

theorem part_bump {v : Version} {index : Nat} (h : index ≤ v.length) (i : Nat) :
    part (bump v index) i =
      if i < index then part v i else if i = index then part v index + 1 else 0 := by
  have hlength : (v.take index).length = index := by
    rw [List.length_take]
    omega
  unfold bump
  by_cases hlt : i < index
  · rw [if_pos hlt]
    show (v.take index ++ [_]).getD i 0 = _
    rw [List.getD_append _ _ _ _ (by omega)]
    exact (part_take v index i).trans (if_pos hlt)
  · rw [if_neg hlt]
    show (v.take index ++ [_]).getD i 0 = _
    rw [List.getD_append_right _ _ _ _ (by omega), hlength]
    by_cases heq : i = index
    · rw [if_pos heq, heq, Nat.sub_self]
      rfl
    · rw [if_neg heq, List.getD_eq_default]
      rw [List.length_singleton]
      omega

theorem rank_take_eq_iff {n : Nat} {v w : Version} :
    rank (v.take n) = rank (w.take n) ↔ Agree n v w := by
  rw [rank_eq_iff]
  simp only [part_take]
  constructor
  · intro h i hi
    have hsame := h i
    rwa [if_pos hi, if_pos hi] at hsame
  · intro h i
    split
    · rename_i hi
      exact h i hi
    · rfl

/-- To stay below the next version at a place is to reach at most as high up
to that place. -/
theorem lt_bump_iff {base v : Version} {k : Nat} (hk : k < base.length) :
    rank v < rank (bump base k) ↔ rank (v.take (k + 1)) ≤ rank (base.take (k + 1)) := by
  have hbump := part_bump (Nat.le_of_lt hk)
  constructor
  · intro hlt
    obtain ⟨i, hsame, hi⟩ := rank_lt_iff.mp hlt
    rw [hbump] at hi
    have hbefore : ∀ j < i, j < k → part v j = part base j := by
      intro j hj hjk
      rw [hsame j hj, hbump, if_pos hjk]
    by_cases hik : i < k
    · rw [if_pos hik] at hi
      refine le_of_lt (rank_lt_iff.mpr ⟨i, fun j hj => ?_, ?_⟩)
      · rw [part_take, part_take, if_pos (by omega), if_pos (by omega)]
        exact hbefore j hj (by omega)
      · rw [part_take, part_take, if_pos (by omega), if_pos (by omega)]
        exact hi
    · rw [if_neg hik] at hi
      by_cases hikeq : i = k
      · rw [if_pos hikeq] at hi
        subst hikeq
        rcases Nat.lt_or_ge (part v i) (part base i) with hless | hge
        · refine le_of_lt (rank_lt_iff.mpr ⟨i, fun j hj => ?_, ?_⟩)
          · rw [part_take, part_take, if_pos (by omega), if_pos (by omega)]
            exact hbefore j hj hj
          · rw [part_take, part_take, if_pos (by omega), if_pos (by omega)]
            exact hless
        · refine le_of_eq (rank_take_eq_iff.mpr fun j hj => ?_)
          by_cases hjeq : j = i
          · subst hjeq
            omega
          · exact hbefore j (by omega) (by omega)
      · rw [if_neg hikeq] at hi
        exact absurd hi (Nat.not_lt_zero _)
  · intro hle
    rcases hle.lt_or_eq with hlt | heq
    · obtain ⟨i, hsame, hi⟩ := rank_lt_iff.mp hlt
      rw [part_take, part_take] at hi
      by_cases hik : i < k + 1
      · rw [if_pos hik, if_pos hik] at hi
        refine rank_lt_iff.mpr ⟨i, fun j hj => ?_, ?_⟩
        · have hj' := hsame j hj
          rw [part_take, part_take, if_pos (by omega), if_pos (by omega)] at hj'
          rw [hbump, if_pos (by omega), hj']
        · rw [hbump]
          split
          · exact hi
          · rename_i hge
            obtain rfl : i = k := by omega
            rw [if_pos rfl]
            omega
      · rw [if_neg hik, if_neg hik] at hi
        exact absurd hi (lt_irrefl _)
    · have hagree := rank_take_eq_iff.mp heq
      refine rank_lt_iff.mpr ⟨k, fun j hj => ?_, ?_⟩
      · rw [hbump, if_pos hj]
        exact hagree j (by omega)
      · rw [hbump, if_neg (lt_irrefl k), if_pos rfl, hagree k (by omega)]
        exact Nat.lt_succ_self _

theorem rank_take_mono {v w : Version} (n : Nat) (h : rank v ≤ rank w) :
    rank (v.take n) ≤ rank (w.take n) := by
  rcases h.lt_or_eq with hlt | heq
  · obtain ⟨i, hsame, hi⟩ := rank_lt_iff.mp hlt
    by_cases hin : i < n
    · refine le_of_lt (rank_lt_iff.mpr ⟨i, fun j hj => ?_, ?_⟩)
      · rw [part_take, part_take, if_pos (by omega), if_pos (by omega)]
        exact hsame j hj
      · rw [part_take, part_take, if_pos hin, if_pos hin]
        exact hi
    · exact le_of_eq (rank_take_eq_iff.mpr fun j hj => hsame j (by omega))
  · exact le_of_eq (rank_take_eq_iff.mpr fun j _ => rank_eq_iff.mp heq j)

/-- From a version on, to stay below its next version at a place is to agree
with it up to that place. -/
theorem lt_bump_iff_agree {base v : Version} {k : Nat} (hk : k < base.length)
    (h : rank base ≤ rank v) : rank v < rank (bump base k) ↔ Agree (k + 1) v base := by
  rw [lt_bump_iff hk, ← rank_take_eq_iff]
  exact ⟨fun hle => le_antisymm hle (rank_take_mono _ h), le_of_eq⟩

/-- A version that agrees with a whole version is not below it. -/
theorem le_of_agree {base v : Version} (h : Agree base.length v base) : rank base ≤ rank v := by
  refine not_lt.mp fun hlt => ?_
  obtain ⟨i, -, hi⟩ := rank_lt_iff.mp hlt
  by_cases hin : i < base.length
  · rw [h i hin] at hi
    exact absurd hi (lt_irrefl _)
  · rw [part_of_length_le (not_lt.mp hin)] at hi
    exact absurd hi (Nat.not_lt_zero _)

end Releases
