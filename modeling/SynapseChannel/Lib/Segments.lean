import SynapseChannel.Lib.Text

/-!
# Lib — Segments

Names joined by a separator that none of them holds: the joined text
determines the names, text prefixes are list prefixes, and stripping the
text strips its outer names.
-/

namespace Py

/-- Change the last element of a list. -/
def mapLast {α : Type} (f : α → α) : List α → List α
  | [] => []
  | [a] => [f a]
  | a :: b :: rest => a :: mapLast f (b :: rest)

@[simp] theorem mapLast_append_singleton {α : Type} (f : α → α) (front : List α) (a : α) :
    mapLast f (front ++ [a]) = front ++ [f a] := by
  induction front with
  | nil => rfl
  | cons b rest ih =>
    cases rest with
    | nil => rfl
    | cons c later =>
      show b :: mapLast f (c :: later ++ [a]) = _
      rw [ih]
      rfl

/-- No name holds the separator. -/
def Free {α : Type} (sep : α) (names : List (List α)) : Prop := ∀ name ∈ names, sep ∉ name

/-- Drop from the end. -/
def dropBack {α : Type} (p : α → Bool) (cs : List α) : List α := (cs.reverse.dropWhile p).reverse

/-- What follows the last separator is told apart from what precedes it. -/
theorem append_sep_inj {α : Type} {sep : α} {front front' back back' : List α}
    (hback : sep ∉ back) (hback' : sep ∉ back')
    (h : front ++ sep :: back = front' ++ sep :: back') : front = front' ∧ back = back' := by
  rcases List.append_eq_append_iff.mp h with ⟨gap, rfl, hgap⟩ | ⟨gap, rfl, hgap⟩
  · cases gap with
    | nil => exact ⟨by simp, (List.cons.inj hgap).2⟩
    | cons c rest =>
      have hmem : sep ∈ back := by
        rw [(List.cons.inj hgap).2]
        simp
      exact absurd hmem hback
  · cases gap with
    | nil => exact ⟨by simp, (List.cons.inj hgap).2.symm⟩
    | cons c rest =>
      have hmem : sep ∈ back' := by
        rw [(List.cons.inj hgap).2]
        simp
      exact absurd hmem hback'

variable {α : Type} [BEq α] [LawfulBEq α] {sep : α}

section Joined

theorem splitOn_joined {names : List (List α)} (h : Free sep names) (hne : names ≠ []) :
    ([sep].intercalate names).splitOn sep = names :=
  List.splitOn_intercalate sep h hne

/-- Splitting gives pieces of the text without the separator. -/
theorem mem_splitOn {cs piece : List α} (h : piece ∈ cs.splitOn sep) :
    sep ∉ piece ∧ ∀ c ∈ piece, c ∈ cs := by
  induction cs generalizing piece with
  | nil =>
    rw [List.splitOn_nil, List.mem_singleton] at h
    subst h
    simp
  | cons c rest ih =>
    rw [List.splitOn_cons_eq_if_modifyHead] at h
    split at h
    · rcases List.mem_cons.mp h with rfl | h
      · simp
      · exact ⟨(ih h).1, fun d hd => List.mem_cons_of_mem c ((ih h).2 d hd)⟩
    · rename_i hc
      have hne : c ≠ sep := by simpa using hc
      obtain ⟨first, later, heq⟩ := List.exists_cons_of_ne_nil (List.splitOn_ne_nil sep rest)
      rw [heq, List.modifyHead_cons] at h
      rcases List.mem_cons.mp h with rfl | h
      · obtain ⟨hfree, hsub⟩ := ih (heq ▸ List.mem_cons_self)
        constructor
        · rw [List.mem_cons, not_or]
          exact ⟨Ne.symm hne, hfree⟩
        · intro d hd
          rcases List.mem_cons.mp hd with rfl | hd
          · exact List.mem_cons_self
          · exact List.mem_cons_of_mem c (hsub d hd)
      · have hin := ih (heq ▸ List.mem_cons_of_mem first h)
        exact ⟨hin.1, fun d hd => List.mem_cons_of_mem c (hin.2 d hd)⟩

/-- The joined text determines the names. -/
theorem joined_inj {names names' : List (List α)} (h : Free sep names) (hne : names ≠ [])
    (h' : Free sep names') (hne' : names' ≠ [])
    (heq : [sep].intercalate names = [sep].intercalate names') : names = names' := by
  rw [← splitOn_joined h hne, heq, splitOn_joined h' hne']

omit [BEq α] [LawfulBEq α] in
theorem mem_joined {names : List (List α)} {a : α} (h : a ∈ [sep].intercalate names) :
    a = sep ∨ ∃ name ∈ names, a ∈ name := by
  induction names with
  | nil => cases h
  | cons name rest ih =>
    cases rest with
    | nil =>
      rw [List.intercalate_singleton] at h
      exact Or.inr ⟨name, List.mem_cons_self, h⟩
    | cons next later =>
      rw [List.intercalate_cons_cons, List.append_assoc, List.mem_append, List.mem_append,
        List.mem_singleton] at h
      rcases h with h | h | h
      · exact Or.inr ⟨name, List.mem_cons_self, h⟩
      · exact Or.inl h
      · rcases ih h with h | ⟨other, hother, ha⟩
        · exact Or.inl h
        · exact Or.inr ⟨other, List.mem_cons_of_mem _ hother, ha⟩

omit [BEq α] [LawfulBEq α] in
theorem joined_append {names more : List (List α)} (hne : names ≠ []) (hmore : more ≠ []) :
    [sep].intercalate (names ++ more) =
      [sep].intercalate names ++ sep :: [sep].intercalate more := by
  induction names with
  | nil => exact absurd rfl hne
  | cons name rest ih =>
    cases rest with
    | nil =>
      obtain ⟨first, later, rfl⟩ := List.exists_cons_of_ne_nil hmore
      rw [List.singleton_append, List.intercalate_cons_cons, List.intercalate_singleton]
      simp
    | cons next later =>
      rw [List.cons_append, List.cons_append, List.intercalate_cons_cons, ← List.cons_append,
        ih (by simp), List.intercalate_cons_cons]
      simp

/-- A text that ends where a name ends is a prefix just where its names are. -/
theorem joined_prefix_iff {names names' : List (List α)} (h : Free sep names) (hne : names ≠ [])
    (h' : Free sep names') (hne' : names' ≠ []) :
    [sep].intercalate names ++ [sep] <+: [sep].intercalate names' ↔
      ∃ rest, rest ≠ [] ∧ names' = names ++ rest := by
  constructor
  · rintro ⟨tail, htail⟩
    rw [List.append_assoc, List.singleton_append] at htail
    refine ⟨tail.splitOn sep, List.splitOn_ne_nil sep tail, ?_⟩
    rw [← splitOn_joined h' hne', ← htail, List.splitOn_append_cons_self, splitOn_joined h hne]
  · rintro ⟨rest, hrest, rfl⟩
    rw [joined_append hne hrest]
    exact ⟨[sep].intercalate rest, by simp⟩

end Joined

/-! ## Stripping -/

section Strip

variable {p : α → Bool} (hsep : p sep = false)

include hsep

section

omit [BEq α] [LawfulBEq α]

theorem dropWhile_joined (name : List α) (rest : List (List α)) :
    ([sep].intercalate (name :: rest)).dropWhile p =
      [sep].intercalate (name.dropWhile p :: rest) := by
  cases rest with
  | nil => rw [List.intercalate_singleton, List.intercalate_singleton]
  | cons next later =>
    rw [List.intercalate_cons_cons, List.intercalate_cons_cons, List.append_assoc,
      List.append_assoc, List.dropWhile_append]
    split
    · rename_i hempty
      rw [List.isEmpty_iff] at hempty
      rw [hempty, List.singleton_append, List.dropWhile_cons_of_neg (by simp [hsep])]
      rfl
    · rfl

theorem dropBack_append (front tail : List α) :
    dropBack p (front ++ sep :: tail) = front ++ sep :: dropBack p tail := by
  unfold dropBack
  rw [List.reverse_append, List.reverse_cons, List.append_assoc, List.dropWhile_append]
  split
  · rename_i hempty
    rw [List.isEmpty_iff] at hempty
    rw [hempty, List.singleton_append, List.dropWhile_cons_of_neg (by simp [hsep])]
    simp
  · simp

theorem dropBack_joined (names : List (List α)) :
    dropBack p ([sep].intercalate names) = [sep].intercalate (mapLast (dropBack p) names) := by
  induction names with
  | nil => rfl
  | cons name rest ih =>
    cases rest with
    | nil => rw [mapLast, List.intercalate_singleton, List.intercalate_singleton]
    | cons next later =>
      have hmore : mapLast (dropBack p) (next :: later) ≠ [] := by
        cases later <;> exact List.cons_ne_nil _ _
      rw [mapLast, List.intercalate_cons_cons, List.append_assoc, List.singleton_append,
        dropBack_append hsep, ih]
      obtain ⟨first, more, heq⟩ := List.exists_cons_of_ne_nil hmore
      rw [heq, List.intercalate_cons_cons, List.append_assoc, List.singleton_append]

end

end Strip

end Py
