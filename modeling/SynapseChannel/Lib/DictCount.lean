import Mathlib.Algebra.GroupWithZero.Nat
import Mathlib.Data.List.Perm.Subperm
import SynapseChannel.Lib.Dict

/-!
# Lib — DictCount

How many values of a dictionary satisfy a test, and what a write, an erasure
or a passage to a part of the dictionary does to that number.
-/

namespace Py

namespace Dict

variable {κ ν : Type} [DecidableEq κ] {d e : Dict κ ν}

/-- How many values satisfy `p`. -/
def count (p : ν → Bool) (d : Dict κ ν) : Nat := d.values.countP p

omit [DecidableEq κ] in
theorem count_eq_sum (p : ν → Bool) (d : Dict κ ν) :
    d.count p = (d.values.map fun v => if p v then 1 else 0).sum := by
  unfold count
  induction d.values with
  | nil => rfl
  | cons v rest ih =>
    rw [List.countP_cons, ih, List.map_cons, List.sum_cons]
    omega

theorem count_set_none (p : ν → Bool) {k : κ} (v : ν) (h : d.get? k = none) :
    (d.set k v).count p = d.count p + if p v then 1 else 0 := by
  rw [count_eq_sum, sum_values_set_none _ v h, ← count_eq_sum]

theorem count_set_some (p : ν → Bool) {k : κ} {old : ν} (v : ν) (h : d.get? k = some old) :
    (d.set k v).count p + (if p old then 1 else 0) = d.count p + if p v then 1 else 0 := by
  rw [count_eq_sum, sum_values_set_some _ v h, ← count_eq_sum]

/-- A write of a value that does not satisfy `p` adds none. -/
theorem count_set_of_not {p : ν → Bool} {k : κ} {v : ν} (hv : p v = false) :
    (d.set k v).count p ≤ d.count p := by
  cases h : d.get? k with
  | none => simp [count_set_none p v h, hv]
  | some old =>
    have := count_set_some p v h
    simp only [hv, Bool.false_eq_true, if_false, Nat.add_zero] at this
    omega

theorem count_set_le (p : ν → Bool) (k : κ) (v : ν) : (d.set k v).count p ≤ d.count p + 1 := by
  cases h : d.get? k with
  | none =>
    rw [count_set_none p v h]
    split <;> omega
  | some old =>
    have := count_set_some p v h
    split at this <;> split at this <;> omega

/-- Overwriting a value with one that passes the same tests. -/
theorem count_set_same {p : ν → Bool} {k : κ} {old v : ν} (h : d.get? k = some old)
    (hp : p v = p old) : (d.set k v).count p = d.count p := by
  have := count_set_some p v h
  rw [hp] at this
  omega

/-- A part of a dictionary has no more. -/
theorem Sub.count_le (h : Sub d e) (p : ν → Bool) : d.count p ≤ e.count p := by
  have hitems : d.items ⊆ e.items := by
    rintro ⟨k, v⟩ hkv
    rw [mem_items_iff] at hkv ⊢
    exact h k v hkv
  have hsub : d.items.Subperm e.items := (d.nodup.of_map Prod.fst).subperm hitems
  unfold count values
  rw [List.countP_map, List.countP_map]
  exact hsub.countP_le _

end Dict

end Py
