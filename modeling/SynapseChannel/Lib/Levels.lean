import Mathlib.Tactic.Common

/-!
# Lib — Levels

A search that goes level by level from a set of starting nodes and gives up
after so many levels: what it has seen at each level, and when it has seen
everything.
-/

namespace Levels

variable {ν : Type} {start start' : ν → Prop} {r r' : ν → ν → Prop}

/-- A walk of `r` from a starting node, so many steps long. -/
inductive Walk (start : ν → Prop) (r : ν → ν → Prop) : Nat → ν → Prop
  | here {a : ν} (h : start a) : Walk start r 0 a
  | step {n : Nat} {a b : ν} (h : Walk start r n a) (hab : r a b) : Walk start r (n + 1) b

/-- The least set that contains the start and is closed under `r`. -/
inductive Closure (start : ν → Prop) (r : ν → ν → Prop) : ν → Prop
  | here {a : ν} (h : start a) : Closure start r a
  | step {a b : ν} (h : Closure start r a) (hab : r a b) : Closure start r b

/-- A walk shorter than the depth ends here. -/
def Seen (start : ν → Prop) (r : ν → ν → Prop) (depth : Nat) (a : ν) : Prop :=
  ∃ n < depth, Walk start r n a

/-- The nodes first met at a level. -/
def Frontier (start : ν → Prop) (r : ν → ν → Prop) (depth : Nat) (a : ν) : Prop :=
  Walk start r depth a ∧ ¬ Seen start r depth a

theorem closure_iff {a : ν} : Closure start r a ↔ ∃ n, Walk start r n a := by
  constructor
  · intro h
    induction h with
    | here h => exact ⟨0, .here h⟩
    | step _ hab ih =>
        obtain ⟨n, hwalk⟩ := ih
        exact ⟨n + 1, hwalk.step hab⟩
  · rintro ⟨n, h⟩
    induction h with
    | here h => exact .here h
    | step _ hab ih => exact ih.step hab

theorem Walk.zero_iff {a : ν} : Walk start r 0 a ↔ start a := by
  constructor
  · intro h
    cases h with
    | here h => exact h
  · exact .here

theorem Walk.succ_iff {n : Nat} {b : ν} :
    Walk start r (n + 1) b ↔ ∃ a, Walk start r n a ∧ r a b := by
  constructor
  · intro h
    cases h with
    | step h hab => exact ⟨_, h, hab⟩
  · rintro ⟨a, h, hab⟩
    exact h.step hab

theorem Walk.mono (hstart : ∀ a, start a → start' a) (hr : ∀ a b, r a b → r' a b) {n : Nat}
    {a : ν} (h : Walk start r n a) : Walk start' r' n a := by
  induction h with
  | here h => exact .here (hstart _ h)
  | step _ hab ih => exact ih.step (hr _ _ hab)

theorem not_seen_zero {a : ν} : ¬ Seen start r 0 a := by
  rintro ⟨n, hlt, -⟩
  omega

theorem frontier_zero {a : ν} : Frontier start r 0 a ↔ start a := by
  unfold Frontier
  rw [Walk.zero_iff]
  exact and_iff_left not_seen_zero

/-- One level more: what was seen, and the frontier. -/
theorem seen_succ {depth : Nat} {a : ν} :
    Seen start r (depth + 1) a ↔ Seen start r depth a ∨ Frontier start r depth a := by
  constructor
  · intro h
    by_cases hseen : Seen start r depth a
    · exact .inl hseen
    · obtain ⟨n, hlt, hwalk⟩ := h
      have hn : n = depth := by
        by_contra hne
        exact hseen ⟨n, by omega, hwalk⟩
      exact .inr ⟨hn ▸ hwalk, hseen⟩
  · rintro (⟨n, hlt, hwalk⟩ | ⟨hwalk, -⟩)
    · exact ⟨n, by omega, hwalk⟩
    · exact ⟨depth, by omega, hwalk⟩

theorem frontier_succ {depth : Nat} {b : ν} :
    Frontier start r (depth + 1) b ↔
      (∃ a, Frontier start r depth a ∧ r a b) ∧ ¬ Seen start r (depth + 1) b := by
  constructor
  · rintro ⟨hwalk, hseen⟩
    refine ⟨?_, hseen⟩
    obtain ⟨a, ha, hab⟩ := Walk.succ_iff.mp hwalk
    refine ⟨a, ⟨ha, ?_⟩, hab⟩
    -- a node seen earlier leads to one seen by now
    rintro ⟨n, hlt, hshort⟩
    exact hseen ⟨n + 1, by omega, hshort.step hab⟩
  · rintro ⟨⟨a, ha, hab⟩, hseen⟩
    exact ⟨ha.1.step hab, hseen⟩

/-- An empty frontier ends the search: there is nothing more to see. -/
theorem seen_of_empty {depth : Nat} (h : ∀ a, ¬ Frontier start r depth a) {n : Nat} {a : ν}
    (hwalk : Walk start r n a) : Seen start r depth a := by
  induction hwalk with
  | @here a hstart =>
      by_cases hzero : depth = 0
      · subst hzero
        exact absurd (frontier_zero.mpr hstart) (h a)
      · exact ⟨0, by omega, .here hstart⟩
  | @step n a b _ hab ih =>
      obtain ⟨m, hlt, hshort⟩ := ih
      by_cases hlast : m + 1 < depth
      · exact ⟨m + 1, hlast, hshort.step hab⟩
      · have hdepth : m + 1 = depth := by omega
        by_contra hseen
        exact h b ⟨hdepth ▸ hshort.step hab, hseen⟩

end Levels
