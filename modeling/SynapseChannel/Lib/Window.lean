import Mathlib.Data.List.Basic
import Mathlib.Data.List.DropRight
import Mathlib.Tactic.Common

/-!
# Lib — Window

A sliding window over a history, of which only a suffix is kept. What was
let go was stale when it was let go; while stale entries stay stale, and
nothing stands before a stale entry that is not, the suffix pruned from
the front is the history pruned throughout.
-/

namespace Window

variable {α : Type} {stale later : α → Bool} {history kept : List α}

/-- The kept entries end the history, and those before them are stale. -/
def Keeps (stale : α → Bool) (history kept : List α) : Prop :=
  ∃ dropped, history = dropped ++ kept ∧ ∀ a ∈ dropped, stale a = true

theorem Keeps.nil : Keeps stale ([] : List α) [] := ⟨[], rfl, by simp⟩

/-- The suffix has every entry that is not stale. -/
theorem Keeps.filter_eq (h : Keeps stale history kept) :
    kept.filter (fun a => !stale a) = history.filter fun a => !stale a := by
  obtain ⟨dropped, rfl, hstale⟩ := h
  have hnone : dropped.filter (fun a => !stale a) = [] :=
    List.filter_eq_nil_iff.mpr fun a ha => by simp [hstale a ha]
  rw [List.filter_append, hnone, List.nil_append]

/-- What is stale now stays stale. -/
theorem Keeps.mono (h : Keeps stale history kept) (hlater : ∀ a, stale a = true → later a = true) :
    Keeps later history kept := by
  obtain ⟨dropped, heq, hstale⟩ := h
  exact ⟨dropped, heq, fun a ha => hlater a (hstale a ha)⟩

theorem Keeps.push (h : Keeps stale history kept) (a : α) :
    Keeps stale (history ++ [a]) (kept ++ [a]) := by
  obtain ⟨dropped, rfl, hstale⟩ := h
  exact ⟨dropped, List.append_assoc .., hstale⟩

/-- Pruning lets go of stale entries only. -/
theorem Keeps.prune (h : Keeps stale history kept) : Keeps stale history (kept.dropWhile stale) := by
  obtain ⟨dropped, rfl, hstale⟩ := h
  refine ⟨dropped ++ kept.takeWhile stale, ?_, ?_⟩
  · rw [List.append_assoc, List.takeWhile_append_dropWhile]
  · intro a ha
    rcases List.mem_append.mp ha with ha | ha
    · exact hstale a ha
    · exact List.mem_takeWhile_imp ha

/-- Where everything before a stale entry is stale, pruning the front prunes everything. -/
theorem dropWhile_eq_filter {entries : List α}
    (h : entries.Pairwise fun a b => stale b = true → stale a = true) :
    entries.dropWhile stale = entries.filter fun a => !stale a := by
  induction entries with
  | nil => rfl
  | cons a rest ih =>
    obtain ⟨ha, hrest⟩ := List.pairwise_cons.mp h
    cases hs : stale a with
    | true => rw [List.dropWhile_cons_of_pos hs, List.filter_cons_of_neg (by simp [hs]), ih hrest]
    | false =>
      rw [List.dropWhile_cons_of_neg (by simp [hs]), List.filter_cons_of_pos (by simp [hs])]
      refine congrArg _ (List.filter_eq_self.mpr fun b hb => ?_).symm
      cases hb' : stale b with
      | false => rfl
      | true => rw [ha b hb hb'] at hs; cases hs

/-- Pruning the suffix leaves what is not stale of the whole history. -/
theorem Keeps.prune_eq (h : Keeps stale history kept)
    (hordered : history.Pairwise fun a b => stale b = true → stale a = true) :
    kept.dropWhile stale = history.filter fun a => !stale a := by
  rw [← h.filter_eq]
  obtain ⟨dropped, rfl, -⟩ := h
  exact dropWhile_eq_filter (List.pairwise_append.mp hordered).2.1

end Window
