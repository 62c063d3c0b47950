import SynapseChannel.Lib.Float
import SynapseChannel.Lib.Heapq

/-!
# Lib — Tuple

Comparison of tuples that start with a float: the first components that
differ decide. On tuples whose float is a number it is a strict total
order up to `0.0 = -0.0`.
-/

namespace Py

/-- A time, a name and a number: the key of a time-ordered entry. -/
abbrev TimeKey := Float × String × Int

/-- `a < b` on tuples. -/
def keyLt (a b : TimeKey) : Bool :=
  if a.1 == b.1 then
    if a.2.1 = b.2.1 then decide (a.2.2 < b.2.2) else decide (a.2.1 < b.2.1)
  else decide (a.1 < b.1)

/-- The time of the key is a number. -/
def TimeKey.Timed (a : TimeKey) : Prop := a.1.isNaN = false

open Ieee

theorem keyLt_iff {a b : TimeKey} (ha : a.Timed) (hb : b.Timed) :
    keyLt a b = true ↔ a.1 < b.1 ∨
      (¬ b.1 < a.1 ∧ (a.2.1 < b.2.1 ∨ (a.2.1 = b.2.1 ∧ a.2.2 < b.2.2))) := by
  rw [keyLt]
  by_cases heq : (a.1 == b.1) = true
  · obtain ⟨h1, h2⟩ := (beq_iff ha hb).mp heq
    rw [if_pos heq]
    by_cases hs : a.2.1 = b.2.1
    · simp [hs, h1, h2]
    · simp [hs, h1, h2]
  · rw [if_neg heq]
    have hne : ¬ (¬ a.1 < b.1 ∧ ¬ b.1 < a.1) := fun h => heq ((beq_iff ha hb).mpr h)
    by_cases h1 : a.1 < b.1
    · simp [h1]
    · have h2 : b.1 < a.1 := by
        by_contra h2
        exact hne ⟨h1, h2⟩
      simp [h1, h2]

theorem keyLt_asymm {a b : TimeKey} (ha : a.Timed) (hb : b.Timed) (h : keyLt a b = true) :
    keyLt b a = false := by
  rw [Bool.eq_false_iff]
  intro h'
  rw [keyLt_iff ha hb] at h
  rw [keyLt_iff hb ha] at h'
  rcases h with h | ⟨h1, h⟩
  · rcases h' with h' | ⟨h2, -⟩
    · rw [lt_iff ha hb, RankLt] at h
      rw [lt_iff hb ha, RankLt] at h'
      omega
    · exact h2 h
  · rcases h' with h' | ⟨-, h'⟩
    · exact h1 h'
    · rcases h with h | ⟨hs, h⟩
      · rcases h' with h' | ⟨hs', -⟩
        · exact String.lt_asymm h h'
        · rw [hs'] at h
          exact String.lt_irrefl _ h
      · rcases h' with h' | ⟨-, h'⟩
        · rw [hs] at h'
          exact String.lt_irrefl _ h'
        · omega

/-- Keys that do not compare agree on name and number. -/
theorem keyLt_connected {a b : TimeKey} (ha : a.Timed) (hb : b.Timed)
    (h : keyLt a b = false) (h' : keyLt b a = false) : a.2 = b.2 := by
  rw [← Bool.not_eq_true, keyLt_iff ha hb] at h
  rw [← Bool.not_eq_true, keyLt_iff hb ha] at h'
  simp only [not_or, not_and] at h h'
  have hs : a.2.1 = b.2.1 := by
    rcases lt_trichotomy a.2.1 b.2.1 with hlt | heq | hgt
    · exact absurd hlt (h.2 h'.1).1
    · exact heq
    · exact absurd hgt (h'.2 h.1).1
  have hn : a.2.2 = b.2.2 := by
    have h1 := (h.2 h'.1).2 hs
    have h2 := (h'.2 h.1).2 hs.symm
    omega
  exact Prod.ext hs hn

theorem keyLt_trans {a b c : TimeKey} (ha : a.Timed) (hb : b.Timed) (hc : c.Timed)
    (h : keyLt a b = true) (h' : keyLt b c = true) : keyLt a c = true := by
  rw [keyLt_iff ha hb] at h
  rw [keyLt_iff hb hc] at h'
  rw [keyLt_iff ha hc]
  simp only [lt_iff ha hb, lt_iff hb ha, lt_iff hb hc, lt_iff hc hb, lt_iff ha hc,
    lt_iff hc ha] at h h' ⊢
  simp only [RankLt] at h h' ⊢
  rcases h with h | ⟨h1, h⟩
  · left
    rcases h' with h' | ⟨h2, -⟩ <;> omega
  · rcases h' with h' | ⟨h2, h'⟩
    · left
      omega
    · right
      refine ⟨by omega, ?_⟩
      rcases h with h | ⟨hs, h⟩
      · rcases h' with h' | ⟨hs', -⟩
        · exact .inl (String.lt_trans h h')
        · exact .inl (hs' ▸ h)
      · rcases h' with h' | ⟨hs', h'⟩
        · exact .inl (hs ▸ h')
        · exact .inr ⟨hs.trans hs', by omega⟩

/-- Not being greater is transitive as well. -/
theorem keyLt_false_trans {a b c : TimeKey} (ha : a.Timed) (hb : b.Timed) (hc : c.Timed)
    (h : keyLt b a = false) (h' : keyLt c b = false) : keyLt c a = false := by
  rw [Bool.eq_false_iff]
  intro hca
  apply Bool.eq_false_iff.mp h'
  cases hab : keyLt a b with
  | true => exact keyLt_trans hc ha hb hca hab
  | false =>
    -- `a` and `b` do not compare, so `c` compares to both alike
    have heq := keyLt_connected ha hb hab h
    rw [← Bool.not_eq_true, keyLt_iff ha hb] at hab
    rw [← Bool.not_eq_true, keyLt_iff hb ha] at h
    simp only [not_or] at hab h
    have hba := h.1
    have hab := hab.1
    rw [keyLt_iff hc ha] at hca
    rw [keyLt_iff hc hb, ← heq]
    simp only [lt_iff ha hb, lt_iff hb ha, lt_iff hb hc, lt_iff hc hb, lt_iff ha hc,
      lt_iff hc ha, RankLt] at hab hba hca ⊢
    rcases hca with hca | ⟨h1, hca⟩
    · left
      omega
    · exact .inr ⟨by omega, hca⟩

theorem keyLt_ordering : Heapq.Ordering keyLt TimeKey.Timed :=
  ⟨fun ha hb h => keyLt_asymm ha hb h, fun ha hb hc h h' => keyLt_false_trans ha hb hc h h'⟩

end Py
