import Mathlib.Algebra.BigOperators.Group.List.Basic
import Mathlib.Algebra.Order.Ring.Defs
import Mathlib.Tactic.Linarith
import Mathlib.Tactic.Ring

/-!
# Lib — Refill

A level that refills at a constant rate up to a ceiling and pays for what is
accepted. The ceiling cuts the refill short at every single step; unrolled over
a whole history the level is the least of what every earlier entry leaves of a
full one.
-/

namespace Refill

variable {K : Type} [CommRing K] [LinearOrder K] [IsStrictOrderedRing K]

/-- A request, with the answer it got. -/
structure Entry (K : Type) where
  time : K
  cost : K
  accepted : Bool
deriving DecidableEq

/-- What an entry has taken off the level. -/
def Entry.spent (entry : Entry K) : K := if entry.accepted then entry.cost else 0

/-- What the entries of a history have taken off together. -/
def spent (history : List (Entry K)) : K := (history.map Entry.spent).sum

/-- The level at a later time. -/
def refill (burst rate level elapsed : K) : K := min burst (level + rate * elapsed)

/-- What the entry at a place leaves at a time, had the level been full at it. -/
def allowance (burst rate : K) (history : List (Entry K)) (time : K) (place : Nat)
    (h : place < history.length) : K :=
  burst + rate * (time - (history.get ⟨place, h⟩).time) - spent (history.drop place)

/-- The cost fits a full level, and what every earlier entry leaves of one. -/
def Admits (burst rate : K) (history : List (Entry K)) (time cost : K) : Prop :=
  cost ≤ burst ∧ ∀ place (h : place < history.length),
    cost ≤ allowance burst rate history time place h

/-- The level right after a history is the least allowance of its entries. -/
structure IsLevel (burst rate : K) (history : List (Entry K)) (time level : K) : Prop where
  le : ∀ place (h : place < history.length), level ≤ allowance burst rate history time place h
  exact : ∃ place, ∃ h : place < history.length, level = allowance burst rate history time place h

section

omit [LinearOrder K] [IsStrictOrderedRing K]

theorem spent_append (history : List (Entry K)) (entry : Entry K) :
    spent (history ++ [entry]) = spent history + entry.spent := by
  unfold spent
  rw [List.map_append, List.sum_append]
  simp

/-- Later entries change an allowance by what time brings and they take. -/
theorem allowance_append (burst rate : K) (history : List (Entry K)) (entry : Entry K)
    {time : K} {place : Nat} (h : place < history.length)
    (h' : place < (history ++ [entry]).length) :
    allowance burst rate (history ++ [entry]) entry.time place h' =
      allowance burst rate history time place h + rate * (entry.time - time) - entry.spent := by
  unfold allowance
  have hentry : (history ++ [entry]).get ⟨place, h'⟩ = history.get ⟨place, h⟩ :=
    List.getElem_append_left h
  rw [hentry, List.drop_append_of_le_length (Nat.le_of_lt h), spent_append]
  ring

theorem allowance_last (burst rate : K) (history : List (Entry K)) (entry : Entry K)
    (h : history.length < (history ++ [entry]).length) :
    allowance burst rate (history ++ [entry]) entry.time history.length h =
      burst - entry.spent := by
  unfold allowance
  have hentry : (history ++ [entry]).get ⟨history.length, h⟩ = entry := by
    simp
  rw [hentry, List.drop_left]
  simp [spent]

end

theorem IsLevel.le_refill_iff {burst rate : K} {history : List (Entry K)} {last level : K}
    (h : IsLevel burst rate history last level) (time cost : K) :
    cost ≤ refill burst rate level (time - last) ↔ Admits burst rate history time cost := by
  have hlater : ∀ place (hplace : place < history.length),
      allowance burst rate history time place hplace =
        allowance burst rate history last place hplace + rate * (time - last) := by
    intro place hplace
    unfold allowance
    ring
  unfold refill Admits
  rw [le_min_iff]
  refine and_congr_right fun _ => ?_
  constructor
  · intro hcost place hplace
    have hle := h.le place hplace
    rw [hlater]
    linarith
  · intro hall
    obtain ⟨place, hplace, hlevel⟩ := h.exact
    have hcost := hall place hplace
    rw [hlater] at hcost
    rw [hlevel]
    exact hcost

omit [IsStrictOrderedRing K] in
theorem IsLevel.first (burst rate : K) (entry : Entry K) :
    IsLevel burst rate [entry] entry.time (burst - entry.spent) where
  le := by
    intro place hplace
    obtain rfl : place = 0 := Nat.lt_one_iff.mp hplace
    exact (allowance_last burst rate [] entry hplace).ge
  exact := ⟨0, Nat.one_pos, (allowance_last burst rate [] entry Nat.one_pos).symm⟩

/-- A further entry is paid for from the refilled level. -/
theorem IsLevel.append {burst rate : K} {history : List (Entry K)} {last level : K}
    (h : IsLevel burst rate history last level) (entry : Entry K) :
    IsLevel burst rate (history ++ [entry]) entry.time
      (refill burst rate level (entry.time - last) - entry.spent) where
  le := by
    intro place hplace
    rcases Nat.lt_or_ge place history.length with hold | hnew
    · have hle := h.le place hold
      have hmin : refill burst rate level (entry.time - last) ≤
          level + rate * (entry.time - last) := min_le_right _ _
      rw [allowance_append burst rate history entry hold hplace]
      linarith
    · obtain rfl : place = history.length := by
        rw [List.length_append, List.length_singleton] at hplace
        omega
      have hmin : refill burst rate level (entry.time - last) ≤ burst := min_le_left _ _
      rw [allowance_last]
      linarith
  exact := by
    rcases min_choice burst (level + rate * (entry.time - last)) with hfull | hpartly
    · have hplace : history.length < (history ++ [entry]).length := by simp
      refine ⟨history.length, hplace, ?_⟩
      rw [allowance_last]
      exact congrArg (· - entry.spent) hfull
    · obtain ⟨place, hold, hlevel⟩ := h.exact
      have hplace : place < (history ++ [entry]).length := by
        rw [List.length_append]
        omega
      refine ⟨place, hplace, ?_⟩
      rw [allowance_append burst rate history entry hold hplace, ← hlevel]
      exact congrArg (· - entry.spent) hpartly

/-- A level that was never negative stays so, as only what it covers is
accepted. -/
theorem refill_sub_nonneg {burst rate level elapsed : K} {entry : Entry K} (hburst : 0 ≤ burst)
    (hrate : 0 ≤ rate) (hlevel : 0 ≤ level) (helapsed : 0 ≤ elapsed)
    (hpaid : entry.accepted = true → entry.cost ≤ refill burst rate level elapsed) :
    0 ≤ refill burst rate level elapsed - entry.spent := by
  have hrefill : 0 ≤ refill burst rate level elapsed :=
    le_min hburst (add_nonneg hlevel (mul_nonneg hrate helapsed))
  unfold Entry.spent
  split
  · rename_i haccepted
    exact sub_nonneg.mpr (hpaid haccepted)
  · rw [sub_zero]
    exact hrefill

/-! ## Histories that keep the law -/

/-- Every entry was accepted exactly when the entries before it admit it, and no
run of entries has taken more than its time allows. -/
structure Lawful (burst rate : K) (history : List (Entry K)) : Prop where
  accepted : ∀ place (h : place < history.length),
    (history.get ⟨place, h⟩).accepted = true ↔
      Admits burst rate (history.take place) (history.get ⟨place, h⟩).time
        (history.get ⟨place, h⟩).cost
  bounded : ∀ first last, first ≤ last → ∀ (hfirst : first < history.length)
    (hlast : last < history.length),
    spent ((history.take (last + 1)).drop first) ≤
      burst + rate * ((history.get ⟨last, hlast⟩).time - (history.get ⟨first, hfirst⟩).time)

omit [IsStrictOrderedRing K] in
theorem Lawful.nil (burst rate : K) : Lawful burst rate ([] : List (Entry K)) where
  accepted := fun _ h => absurd h (Nat.not_lt_zero _)
  bounded := fun _ _ _ h => absurd h (Nat.not_lt_zero _)

theorem Lawful.append {burst rate : K} {history : List (Entry K)} {entry : Entry K} {level : K}
    (h : Lawful burst rate history)
    (haccepted : entry.accepted = true ↔ Admits burst rate history entry.time entry.cost)
    (hlevel : IsLevel burst rate (history ++ [entry]) entry.time level) (hnonneg : 0 ≤ level) :
    Lawful burst rate (history ++ [entry]) where
  accepted := by
    intro place hplace
    rcases Nat.lt_or_ge place history.length with hold | hnew
    · have hentry : (history ++ [entry]).get ⟨place, hplace⟩ = history.get ⟨place, hold⟩ :=
        List.getElem_append_left hold
      rw [hentry, List.take_append_of_le_length (Nat.le_of_lt hold)]
      exact h.accepted place hold
    · obtain rfl : place = history.length := by
        rw [List.length_append, List.length_singleton] at hplace
        omega
      have hentry : (history ++ [entry]).get ⟨history.length, hplace⟩ = entry := by simp
      rw [hentry, List.take_left]
      exact haccepted
  bounded := by
    intro first last hle hfirst hlast
    rcases Nat.lt_or_ge last history.length with hold | hnew
    · have hfirstOld : first < history.length := Nat.lt_of_le_of_lt hle hold
      have hlastEntry : (history ++ [entry]).get ⟨last, hlast⟩ = history.get ⟨last, hold⟩ :=
        List.getElem_append_left hold
      have hfirstEntry : (history ++ [entry]).get ⟨first, hfirst⟩ =
          history.get ⟨first, hfirstOld⟩ := List.getElem_append_left hfirstOld
      rw [hlastEntry, hfirstEntry, List.take_append_of_le_length hold]
      exact h.bounded first last hle hfirstOld hold
    · obtain rfl : last = history.length := by
        rw [List.length_append, List.length_singleton] at hlast
        omega
      have hentry : (history ++ [entry]).get ⟨history.length, hlast⟩ = entry := by simp
      have hall : (history ++ [entry]).take (history.length + 1) = history ++ [entry] :=
        List.take_of_length_le (by simp)
      have hallowance := hnonneg.trans (hlevel.le first hfirst)
      unfold allowance at hallowance
      rw [hentry, hall]
      linarith

end Refill
