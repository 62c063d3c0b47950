import Mathlib.Data.List.Basic
import Mathlib.Tactic.Common

/-!
# Lib — FoldPart

A left fold beside the fold of a part of its items: what both sides keep
when the other items change nothing that the relation reads.
-/

namespace FoldPart

variable {α β γ : Type}

/-- Two folds of one list stay related. -/
theorem both {R : β → γ → Prop} {f : β → α → β} {g : γ → α → γ} {items : List α}
    (hstep : ∀ x ∈ items, ∀ b c, R b c → R (f b x) (g c x)) {b : β} {c : γ} (h : R b c) :
    R (items.foldl f b) (items.foldl g c) := by
  induction items generalizing b c with
  | nil => exact h
  | cons x rest ih =>
    exact ih (fun y hy => hstep y (List.mem_cons_of_mem _ hy)) (hstep x List.mem_cons_self b c h)

/-- A fold stays related to the fold of the items that `p` picks. -/
theorem filtered {R : β → γ → Prop} {f : β → α → β} {g : γ → α → γ} (p : α → Bool)
    {items : List α}
    (hpicked : ∀ x ∈ items, p x = true → ∀ b c, R b c → R (f b x) (g c x))
    (hother : ∀ x ∈ items, p x = false → ∀ b c, R b c → R (f b x) c) {b : β} {c : γ}
    (h : R b c) : R (items.foldl f b) ((items.filter p).foldl g c) := by
  induction items generalizing b c with
  | nil => exact h
  | cons x rest ih =>
    have hrest : ∀ b c, R b c → R (rest.foldl f b) ((rest.filter p).foldl g c) := fun _ _ =>
      ih (fun y hy => hpicked y (List.mem_cons_of_mem _ hy))
        (fun y hy => hother y (List.mem_cons_of_mem _ hy))
    cases hp : p x with
    | true =>
      rw [List.filter_cons_of_pos hp]
      exact hrest _ _ (hpicked x List.mem_cons_self hp b c h)
    | false =>
      rw [List.filter_cons_of_neg (by simp [hp])]
      exact hrest _ _ (hother x List.mem_cons_self hp b c h)

/-- What holds of the result of a fold when one step adds what its item
gives, as long as `I` holds, which every step keeps. -/
theorem adds {I P : β → Prop} {Q : α → Prop} {f : β → α → β}
    (hkeep : ∀ b x, I b → I (f b x)) (hstep : ∀ b x, I b → (P (f b x) ↔ P b ∨ Q x))
    (items : List α) {b : β} (h : I b) : P (items.foldl f b) ↔ P b ∨ ∃ x ∈ items, Q x := by
  induction items generalizing b with
  | nil => simp
  | cons x rest ih =>
    rw [List.foldl_cons, ih (hkeep b x h), hstep b x h]
    simp only [List.mem_cons, exists_eq_or_imp]
    tauto

end FoldPart
