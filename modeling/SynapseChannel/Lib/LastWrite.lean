import Mathlib.Data.List.Induction
import Mathlib.Tactic.Common

/-!
# Lib — LastWrite

Folds that overwrite: what a cell holds after a fold is decided by the
last item that writes it.
-/

namespace LastWrite

variable {α β σ ε : Type} (p : α → Bool)

/-- The last item satisfying `p`. -/
def last (items : List α) : Option α := (items.filter p).getLast?

@[simp] theorem last_nil : last p [] = none := rfl

theorem last_concat (items : List α) (a : α) :
    last p (items ++ [a]) = if p a then some a else last p items := by
  by_cases h : p a <;> simp [last, List.filter_append, h]

theorem last_eq_some {items : List α} {a : α} (h : last p items = some a) :
    a ∈ items ∧ p a = true := by
  have hmem := List.mem_of_getLast? h
  exact List.mem_filter.mp hmem

theorem last_eq_none {items : List α} : last p items = none ↔ ∀ a ∈ items, p a = false := by
  simp [last]

/-- An item with no writer after it is the last one. -/
theorem last_of_split {before after : List α} {a : α} (ha : p a = true)
    (hafter : ∀ b ∈ after, p b = false) : last p (before ++ a :: after) = some a := by
  have hnil : after.filter p = [] := by
    rw [List.filter_eq_nil_iff]
    intro b hb
    simp [hafter b hb]
  simp [last, List.filter_append, ha, hnil]

/-- Tags do not change which item is the last. -/
theorem last_map {q : β → Bool} (f : α → β) (items : List α) (h : ∀ a ∈ items, q (f a) = p a) :
    last q (items.map f) = (last p items).map f := by
  induction items using List.reverseRecOn with
  | nil => rfl
  | append_singleton items a ih =>
    rw [List.map_append, List.map_singleton, last_concat, last_concat, h a (by simp),
      ih fun b hb => h b (by simp [hb])]
    split <;> rfl

/-- A narrower predicate picks the same item when it holds of it. -/
theorem last_of_imp {q : α → Bool} {items : List α} {a : α} (h : last p items = some a)
    (hq : q a = true) (himp : ∀ b, q b = true → p b = true) : last q items = some a := by
  induction items using List.reverseRecOn with
  | nil => cases h
  | append_singleton items b ih =>
    rw [last_concat] at h ⊢
    split at h
    · cases h
      simp [hq]
    · rename_i hb
      rw [if_neg fun hqb => hb (himp b hqb)]
      exact ih h

/-- After a fallible fold, a cell that only `p` items write holds what the
last of them wrote. -/
theorem decides (cell : σ → β) (write : α → β) {step : σ → α → Except ε σ}
    (hskip : ∀ s a s', p a = false → step s a = .ok s' → cell s' = cell s)
    (hwrite : ∀ s a s', p a = true → step s a = .ok s' → cell s' = write a)
    {items : List α} {s s' : σ} (h : items.foldlM step s = .ok s') :
    cell s' = ((last p items).map write).getD (cell s) := by
  induction items using List.reverseRecOn generalizing s' with
  | nil =>
    cases h
    rfl
  | append_singleton items a ih =>
    rw [List.foldlM_append] at h
    cases hm : items.foldlM step s with
    | error e =>
      rw [hm] at h
      cases h
    | ok m =>
      rw [hm] at h
      simp only [List.foldlM_cons, List.foldlM_nil, bind_pure] at h
      have hstep : step m a = .ok s' := h
      rw [last_concat]
      split
      · rename_i ha
        exact hwrite m a s' ha hstep
      · rename_i ha
        rw [hskip m a s' (by simpa using ha) hstep, ih hm]

/-- The same for a fold that cannot fail. -/
theorem foldl_decides (cell : σ → β) (write : α → β) {step : σ → α → σ}
    (hskip : ∀ s a, p a = false → cell (step s a) = cell s)
    (hwrite : ∀ s a, p a = true → cell (step s a) = write a) (items : List α) (s : σ) :
    cell (items.foldl step s) = ((last p items).map write).getD (cell s) := by
  induction items using List.reverseRecOn with
  | nil => rfl
  | append_singleton items a ih =>
    rw [List.foldl_append, List.foldl_cons, List.foldl_nil, last_concat]
    split
    · rename_i ha
      exact hwrite _ a ha
    · rename_i ha
      rw [hskip _ a (by simpa using ha), ih]

end LastWrite
