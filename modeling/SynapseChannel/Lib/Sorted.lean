import Mathlib.Data.List.Sort
import Mathlib.Data.List.Nodup
import Mathlib.Data.String.Basic
import Mathlib.Tactic.Common

/-!
# Lib — Sorted

`sorted(items, key=...)`: a stable sort by a comparison of keys. The
order is asked to be total and transitive only on the keys present.
-/

namespace Py

instance transLe : IsTrans String fun a b => a ≤ b := inferInstance

instance antisymmLe : Std.Antisymm fun a b : String => a ≤ b := inferInstance

variable {α β κ : Type} (lt : κ → κ → Bool)

/-- Sort by `key`, keeping the order of items whose keys do not differ. -/
def sortedBy (key : α → κ) (items : List α) : List α :=
  items.insertionSort fun a b => lt (key b) (key a) = false

open List in
theorem sortedBy_perm (key : α → κ) (items : List α) : sortedBy lt key items ~ items :=
  perm_insertionSort _ _

@[simp] theorem mem_sortedBy {key : α → κ} {items : List α} {a : α} :
    a ∈ sortedBy lt key items ↔ a ∈ items :=
  (sortedBy_perm lt key items).mem_iff

/-- Sorting leaves a list in order alone. -/
theorem sortedBy_eq_self {key : α → κ} {items : List α}
    (h : items.Pairwise fun a b => lt (key b) (key a) = false) : sortedBy lt key items = items :=
  h.insertionSort_eq

theorem map_sortedBy (f : α → β) (key : α → κ) (key' : β → κ) (items : List α)
    (h : ∀ a ∈ items, key' (f a) = key a) :
    (sortedBy lt key items).map f = sortedBy lt key' (items.map f) := by
  refine List.map_insertionSort _ _ f items fun a ha b hb => ?_
  rw [h a ha, h b hb]

/-- The result is in order when the comparison is one on the keys. -/
theorem pairwise_sortedBy {P : κ → Prop}
    (trans : ∀ {a b c}, P a → P b → P c → lt b a = false → lt c b = false → lt c a = false)
    (total : ∀ {a b}, P a → P b → lt b a = false ∨ lt a b = false)
    (key : α → κ) {items : List α} (h : ∀ a ∈ items, P (key a)) :
    (sortedBy lt key items).Pairwise fun a b => lt (key b) (key a) = false := by
  -- on the items that satisfy `P` the comparison is a total preorder
  let sub : List {a : α // P (key a)} := items.attach.map fun a => ⟨a.1, h a.1 a.2⟩
  have hsub : sub.map Subtype.val = items := by
    simp [sub, Function.comp_def]
  have hmap := map_sortedBy lt Subtype.val (fun a : {a : α // P (key a)} => key a.1) key sub
    (fun _ _ => rfl)
  rw [hsub] at hmap
  rw [← hmap, List.pairwise_map]
  let r : {a : α // P (key a)} → {a : α // P (key a)} → Prop :=
    fun a b => lt (key b.1) (key a.1) = false
  have htrans : IsTrans _ r := ⟨fun a b c hab hbc => trans a.2 b.2 c.2 hab hbc⟩
  have htotal : Std.Total r := ⟨fun a b => total a.2 b.2⟩
  exact List.pairwise_insertionSort r sub

/-- Two sorted lists of the same items, whose keys tell them apart, are
equal. -/
theorem eq_of_sortedBy {key : α → κ} {l l' : List α} (hn : l.Nodup) (hn' : l'.Nodup)
    (hmem : ∀ a, a ∈ l ↔ a ∈ l')
    (hanti : ∀ a b, a ∈ l → b ∈ l' → lt (key b) (key a) = false →
      lt (key a) (key b) = false → a = b)
    (hs : l.Pairwise fun a b => lt (key b) (key a) = false)
    (hs' : l'.Pairwise fun a b => lt (key b) (key a) = false) : l = l' :=
  List.Perm.eq_of_pairwise hanti hs hs' ((List.perm_ext_iff_of_nodup hn hn').mpr hmem)

section Linear

variable [LT κ] [LE κ] [Std.IsLinearOrder κ] [Std.LawfulOrderLT κ] [DecidableLT κ] {key : α → κ}
  {items items' : List α}

/-- Keys of a linear order stand in order. -/
theorem pairwise_sortedBy_lt (key : α → κ) (items : List α) :
    (sortedBy (fun a b => decide (a < b)) key items).Pairwise fun a b =>
      decide (key b < key a) = false := by
  refine pairwise_sortedBy (fun a b => decide (a < b)) (P := fun _ => True) ?_ ?_ key
    fun _ _ => trivial
  · intro a b c _ _ _ hab hbc
    rw [decide_eq_false_iff_not, Std.not_lt] at hab hbc ⊢
    exact Std.le_trans hab hbc
  · intro a b _ _
    rw [decide_eq_false_iff_not, decide_eq_false_iff_not, Std.not_lt, Std.not_lt]
    exact Std.le_total

/-- Items that their keys tell apart have one sorted order. -/
theorem sortedBy_eq_of_perm (hperm : items.Perm items')
    (hkey : ∀ a ∈ items, ∀ b ∈ items, key a = key b → a = b) :
    sortedBy (fun a b => decide (a < b)) key items =
      sortedBy (fun a b => decide (a < b)) key items' := by
  have hsorted := (sortedBy_perm (fun a b => decide (a < b)) key items).trans
    (hperm.trans (sortedBy_perm (fun a b => decide (a < b)) key items').symm)
  refine List.Perm.eq_of_pairwise ?_ (pairwise_sortedBy_lt key items)
    (pairwise_sortedBy_lt key items') hsorted
  intro a b ha hb hab hba
  rw [mem_sortedBy] at ha hb
  rw [decide_eq_false_iff_not, Std.not_lt] at hab hba
  exact hkey a ha b (hperm.mem_iff.mpr hb) (Std.le_antisymm hab hba)

end Linear

/-- In ascending order, what stands before the last `n` items has `n` items above it. -/
theorem mem_take_sub_iff [LinearOrder α] {items : List α} (h : items.Pairwise (· < ·)) {n : Nat}
    {a : α} :
    a ∈ items.take (items.length - n) ↔ a ∈ items ∧ n ≤ (items.filter (a < ·)).length := by
  induction items with
  | nil => simp
  | cons b rest ih =>
    obtain ⟨hb, hrest⟩ := List.pairwise_cons.mp h
    have habove : a ∈ rest → (b :: rest).filter (a < ·) = rest.filter (a < ·) := fun ha =>
      List.filter_cons_of_neg (by simpa using (hb a ha).le)
    by_cases hn : n ≤ rest.length
    · rw [List.length_cons, Nat.sub_add_comm hn, List.take_succ_cons, List.mem_cons, List.mem_cons]
      constructor
      · rintro (rfl | ha)
        · have hall : rest.filter (a < ·) = rest := List.filter_eq_self.mpr (by simpa using hb)
          rw [List.filter_cons_of_neg (by simp), hall]
          exact ⟨.inl rfl, hn⟩
        · have ⟨hmem, hle⟩ := (ih hrest).mp ha
          rw [habove hmem]
          exact ⟨.inr hmem, hle⟩
      · rintro ⟨rfl | hmem, hle⟩
        · exact .inl rfl
        · rw [habove hmem] at hle
          exact .inr ((ih hrest).mpr ⟨hmem, hle⟩)
    · rw [Nat.sub_eq_zero_of_le (by rw [List.length_cons]; omega), List.take_zero]
      refine iff_of_false List.not_mem_nil ?_
      rintro ⟨hmem, hle⟩
      -- an item is not above itself, so fewer than all stand above it
      have hlt : ((b :: rest).filter (a < ·)).length < (b :: rest).length :=
        List.length_filter_lt_length_iff_exists.mpr ⟨a, hmem, by simp⟩
      rw [List.length_cons] at hlt
      omega

end Py
