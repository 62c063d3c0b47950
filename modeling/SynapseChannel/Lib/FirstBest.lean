import Mathlib.Data.List.Basic
import Mathlib.Data.List.Induction
import Mathlib.Tactic.Common

/-!
# Lib — FirstBest

One pass over a list that keeps the first of the best eligible items. On a
list in order, the item it keeps is the best by score, and by the order
among equals.
-/

namespace FirstBest

variable {α : Type} (eligible : α → Bool) (score : α → Nat)

/-- One step of the pass: an eligible item takes the place of a worse one. -/
def better (best : Option (Nat × α)) (a : α) : Option (Nat × α) :=
  if eligible a then
    match best with
    | none => some (score a, a)
    | some (top, _) => if top < score a then some (score a, a) else best
  else best

/-- The first of the best eligible items, with its score. -/
def scan (items : List α) : Option (Nat × α) := items.foldl (better eligible score) none

variable {eligible score}

theorem scan_concat (items : List α) (a : α) :
    scan eligible score (items ++ [a]) = better eligible score (scan eligible score items) a := by
  unfold scan
  rw [List.foldl_append]
  rfl

/-- Nothing is kept exactly when nothing is eligible. -/
theorem scan_none {items : List α} :
    scan eligible score items = none ↔ ∀ a ∈ items, eligible a = false := by
  induction items using List.reverseRecOn with
  | nil => exact iff_of_true rfl (by simp)
  | append_singleton items a ih =>
    rw [scan_concat, List.forall_mem_append, List.forall_mem_singleton, ← ih]
    unfold better
    cases heligible : eligible a with
    | false => simp
    | true =>
      refine iff_of_false ?_ (by simp)
      rw [if_pos rfl]
      cases scan eligible score items with
      | none => exact Option.some_ne_none _
      | some best =>
        dsimp only
        split <;> exact Option.some_ne_none _

/-- What is kept, on a list in order. -/
theorem scan_some {order : α → α → Prop} {items : List α} (hordered : items.Pairwise order)
    {top : Nat} {a : α} (h : scan eligible score items = some (top, a)) :
    a ∈ items ∧ eligible a = true ∧ top = score a ∧
      ∀ b ∈ items, eligible b = true → score b < score a ∨ score b = score a ∧ (b = a ∨ order a b) := by
  induction items using List.reverseRecOn generalizing top a with
  | nil => cases h
  | append_singleton items c ih =>
    obtain ⟨hitems, -, hlast⟩ := List.pairwise_append.mp hordered
    rw [scan_concat] at h
    unfold better at h
    have hfirst : ∀ {b}, b ∈ items → order b c := fun hb => hlast _ hb c List.mem_cons_self
    cases heligible : eligible c with
    | false =>
      rw [heligible, if_neg Bool.false_ne_true] at h
      obtain ⟨hmem, hwinner, htop, hbest⟩ := ih hitems h
      refine ⟨List.mem_append_left _ hmem, hwinner, htop, ?_⟩
      intro b hb hbe
      rcases List.mem_append.mp hb with hb | hb
      · exact hbest b hb hbe
      · rw [List.mem_singleton.mp hb, heligible] at hbe
        cases hbe
    | true =>
      rw [heligible, if_pos rfl] at h
      cases hscan : scan eligible score items with
      | none =>
        rw [hscan] at h
        cases h
        refine ⟨by simp, heligible, rfl, ?_⟩
        intro b hb hbe
        rcases List.mem_append.mp hb with hb | hb
        · rw [scan_none.mp hscan b hb] at hbe
          cases hbe
        · exact .inr ⟨by rw [List.mem_singleton.mp hb], .inl (List.mem_singleton.mp hb)⟩
      | some best =>
        obtain ⟨held, w⟩ := best
        obtain ⟨hmem, hwinner, rfl, hbest⟩ := ih hitems hscan
        rw [hscan] at h
        dsimp only at h
        split at h
        · rename_i hlt
          cases h
          refine ⟨by simp, heligible, rfl, ?_⟩
          intro b hb hbe
          rcases List.mem_append.mp hb with hb | hb
          · rcases hbest b hb hbe with hless | ⟨heq, -⟩
            · exact .inl (Nat.lt_trans hless hlt)
            · exact .inl (heq ▸ hlt)
          · exact .inr ⟨by rw [List.mem_singleton.mp hb], .inl (List.mem_singleton.mp hb)⟩
        · rename_i hnot
          cases h
          refine ⟨List.mem_append_left _ hmem, hwinner, rfl, ?_⟩
          intro b hb hbe
          rcases List.mem_append.mp hb with hb | hb
          · exact hbest b hb hbe
          · rw [List.mem_singleton.mp hb]
            rcases Nat.lt_or_eq_of_le (Nat.not_lt.mp hnot) with hless | heq
            · exact .inl hless
            · exact .inr ⟨heq, .inr (hfirst hmem)⟩

end FirstBest
