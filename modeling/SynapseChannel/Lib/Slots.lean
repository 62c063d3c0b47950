import Mathlib.Data.List.Basic
import Mathlib.Tactic.Common

/-!
# Lib — Slots

Calls in progress, numbered by their place in a list; one call moves on
while the others stay.
-/

namespace Slots

variable {α : Type} {l : List α} {n : Nat} {old new x : α}

theorem mem_set_cases (h : x ∈ l.set n new) : x = new ∨ x ∈ l.eraseIdx n := by
  obtain ⟨j, hj⟩ := List.mem_iff_getElem?.mp h
  rw [List.getElem?_set] at hj
  by_cases hsame : n = j
  · rw [if_pos hsame] at hj
    split at hj
    · cases hj
      exact .inl rfl
    · cases hj
  · rw [if_neg hsame] at hj
    exact .inr (List.mem_eraseIdx_iff_getElem?.mpr ⟨j, Ne.symm hsame, hj⟩)

theorem mem_set_self (hget : l[n]? = some old) : new ∈ l.set n new := by
  obtain ⟨hlt, -⟩ := List.getElem?_eq_some_iff.mp hget
  exact List.mem_set hlt new

/-- A call other than the one that moves stays. -/
theorem mem_set_of_ne (hget : l[n]? = some old) (hx : x ∈ l) (hne : x ≠ old) :
    x ∈ l.set n new := by
  obtain ⟨j, hj⟩ := List.mem_iff_getElem?.mp hx
  have hplace : n ≠ j := by
    intro hsame
    rw [← hsame, hget] at hj
    cases hj
    exact hne rfl
  rw [List.mem_iff_getElem?]
  exact ⟨j, by rw [List.getElem?_set_ne hplace]; exact hj⟩

end Slots
