import SynapseChannel.Core.Scoping
import SynapseChannel.Lib.Segments

/-!
# Core — PathOverlap

What the string comparison of declared paths means: every path owns the
files whose segments extend its own, and two scopes of one worktree
conflict just when some file belongs to both.
-/

namespace SynapseChannel

open Py

/-- Whether two claim scopes contend for the same files. -/
def scopesConflict (worktreeA : String) (pathsA : List String) (worktreeB : String)
    (pathsB : List String) : Bool :=
  if worktreeA ≠ worktreeB then false
  else if pathsA = [] ∨ pathsB = [] then true
  else pathsA.any fun a => pathsB.any fun b => pathsOverlap a b

/-! ## Segments -/

/-- A segment that a path keeps. -/
structure IsName (name : String) : Prop where
  nonempty : name ≠ ""
  notHere : name ≠ "."
  notUp : name ≠ ".."
  noSlash : '/' ∉ name.toList
  noBackslash : '\\' ∉ name.toList

/-- The text of a declared path that is split into segments. -/
def slashed (path : String) : String := replaceChar (strip path) '\\' '/'

/-- An absolute path, or one with a `..` segment. -/
def Widens (path : String) : Prop :=
  startsWith (slashed path) "/" = true ∨ ".." ∈ split (slashed path) '/'

instance (path : String) : Decidable (Widens path) := inferInstanceAs (Decidable (_ ∨ _))

/-- The segments a declared path keeps: none when it stands for the whole tree. -/
def segmentsOf (path : String) : List String :=
  if Widens path then [] else (split (slashed path) '/').filter fun s => s ≠ "" ∧ s ≠ "."

theorem collectSegments_eq (parts : List String) :
    collectSegments parts =
      if ".." ∈ parts then none else some (parts.filter fun s => s ≠ "" ∧ s ≠ ".") := by
  induction parts with
  | nil => rfl
  | cons part rest ih =>
    rw [collectSegments, ih]
    by_cases hskip : part = "" ∨ part = "."
    · have hup : ".." ≠ part := by rcases hskip with rfl | rfl <;> decide
      rw [if_pos hskip, List.filter_cons_of_neg (by simpa using fun h => hskip.resolve_left h)]
      simp only [List.mem_cons, hup, false_or]
    · rw [if_neg hskip, List.filter_cons_of_pos (by simpa using hskip)]
      by_cases hup : part = ".."
      · rw [if_pos hup, if_pos (by simp [hup])]
      · rw [if_neg hup]
        by_cases hrest : ".." ∈ rest
        · rw [if_pos hrest, if_pos (List.mem_cons_of_mem _ hrest)]
          rfl
        · rw [if_neg hrest, if_neg (by simpa [Ne.symm hup] using hrest)]
          rfl

/-- The normal form joins the segments that are kept. -/
theorem normalizePath_eq (path : String) : normalizePath path = join "/" (segmentsOf path) := by
  have hslashed : replaceChar (strip path) '\\' '/' = slashed path := rfl
  simp only [normalizePath, hslashed, collectSegments_eq]
  by_cases habs : startsWith (slashed path) "/" = true
  · have hw : Widens path := Or.inl habs
    rw [if_pos habs, segmentsOf, if_pos hw]
    rfl
  · rw [if_neg habs]
    by_cases hup : ".." ∈ split (slashed path) '/'
    · have hw : Widens path := Or.inr hup
      rw [if_pos hup, segmentsOf, if_pos hw]
      rfl
    · have hw : ¬ Widens path := by
        rintro (h | h)
        · exact habs h
        · exact hup h
      rw [if_neg hup, segmentsOf, if_neg hw]

theorem not_mem_slashed (path : String) : '\\' ∉ (slashed path).toList := by
  rw [slashed, replaceChar, String.toList_ofList]
  intro h
  obtain ⟨c, -, hc⟩ := List.mem_map.mp h
  split at hc
  · exact absurd hc (by decide)
  · contradiction

theorem isName_of_mem {path name : String} (h : name ∈ segmentsOf path) : IsName name := by
  rw [segmentsOf] at h
  split at h
  · cases h
  · rename_i hw
    rw [List.mem_filter] at h
    obtain ⟨hmem, hkept⟩ := h
    simp only [decide_eq_true_eq] at hkept
    have hup : name ≠ ".." := fun heq => hw (Or.inr (heq ▸ hmem))
    obtain ⟨cs, hcs, rfl⟩ := List.mem_map.mp hmem
    obtain ⟨hfree, hsub⟩ := mem_splitOn hcs
    refine ⟨hkept.1, hkept.2, hup, ?_, ?_⟩
    · rw [String.toList_ofList]
      exact hfree
    · rw [String.toList_ofList]
      exact fun hc => not_mem_slashed path (hsub _ hc)

/-! ## Joined names -/

theorem toList_join (names : List String) :
    (join "/" names).toList = ['/'].intercalate (names.map String.toList) := by
  rw [join, String.toList_intercalate]
  rfl

theorem free_of_names {names : List String} (h : ∀ name ∈ names, IsName name) :
    Free '/' (names.map String.toList) := by
  intro cs hcs
  obtain ⟨name, hname, rfl⟩ := List.mem_map.mp hcs
  exact (h name hname).noSlash

theorem map_toList_inj {names names' : List String}
    (h : names.map String.toList = names'.map String.toList) : names = names' :=
  List.map_injective_iff.mpr (fun _ _ heq => String.toList_injective heq) h

theorem join_eq_empty {names : List String} (h : ∀ name ∈ names, IsName name) :
    join "/" names = "" ↔ names = [] := by
  constructor
  · intro heq
    cases names with
    | nil => rfl
    | cons name rest =>
      exfalso
      have hname := (h name List.mem_cons_self).nonempty
      have htext := congrArg String.toList heq
      rw [toList_join, List.map_cons] at htext
      cases rest with
      | nil =>
        rw [List.map_nil, List.intercalate_singleton] at htext
        exact hname (String.toList_injective htext)
      | cons next later =>
        rw [List.map_cons, List.intercalate_cons_cons] at htext
        simp at htext
  · rintro rfl
    rfl

theorem join_inj {names names' : List String} (h : ∀ name ∈ names, IsName name)
    (h' : ∀ name ∈ names', IsName name) (heq : join "/" names = join "/" names') :
    names = names' := by
  by_cases hne : names = []
  · subst hne
    exact ((join_eq_empty h').mp heq.symm).symm
  · by_cases hne' : names' = []
    · subst hne'
      exact (join_eq_empty h).mp heq
    · apply map_toList_inj
      apply joined_inj (free_of_names h) (by simpa using hne) (free_of_names h')
        (by simpa using hne')
      rw [← toList_join, ← toList_join, heq]

/-- The string test for a path below another one is the test on their names. -/
theorem startsWith_join_iff {names names' : List String} (h : ∀ name ∈ names, IsName name)
    (hne : names ≠ []) (h' : ∀ name ∈ names', IsName name) (hne' : names' ≠ []) :
    startsWith (join "/" names') (join "/" names ++ "/") = true ↔
      ∃ rest, rest ≠ [] ∧ names' = names ++ rest := by
  rw [startsWith, List.isPrefixOf_iff_prefix, String.toList_append, toList_join, toList_join]
  show _ ++ ['/'] <+: _ ↔ _
  rw [joined_prefix_iff (free_of_names h) (by simpa using hne) (free_of_names h')
    (by simpa using hne')]
  constructor
  · rintro ⟨rest, hrest, heq⟩
    obtain ⟨front, back, rfl, hfront, rfl⟩ := List.map_eq_append_iff.mp heq
    exact ⟨back, by simpa using hrest, by rw [map_toList_inj hfront]⟩
  · rintro ⟨rest, hrest, rfl⟩
    exact ⟨rest.map String.toList, by simpa using hrest, List.map_append⟩

/-! ## Overlap -/

/-- One list of segments lies on the other's way to the root. -/
def Nested (a b : List String) : Prop := a <+: b ∨ b <+: a

theorem nested_of_extends {a b : List String} (h : ∃ rest, rest ≠ [] ∧ b = a ++ rest) :
    a <+: b := by
  obtain ⟨rest, -, rfl⟩ := h
  exact List.prefix_append a rest

theorem prefix_extends {a b : List String} (h : a <+: b) (hne : a ≠ b) :
    ∃ rest, rest ≠ [] ∧ b = a ++ rest := by
  obtain ⟨rest, rfl⟩ := h
  exact ⟨rest, fun heq => hne (by simp [heq]), rfl⟩

/-- Two declared paths overlap just when their segments are nested. -/
theorem pathsOverlap_iff (a b : String) :
    pathsOverlap a b = true ↔ Nested (segmentsOf a) (segmentsOf b) := by
  have ha : ∀ name ∈ segmentsOf a, IsName name := fun _ => isName_of_mem
  have hb : ∀ name ∈ segmentsOf b, IsName name := fun _ => isName_of_mem
  simp only [pathsOverlap, normalizePath_eq]
  generalize segmentsOf a = as at ha
  generalize segmentsOf b = bs at hb
  by_cases heq : join "/" as = join "/" bs
  · rw [if_pos heq]
    have hsame := join_inj ha hb heq
    exact ⟨fun _ => Or.inl (hsame ▸ List.prefix_rfl), fun _ => rfl⟩
  · rw [if_neg heq]
    have hne : as ≠ bs := fun h => heq (by rw [h])
    by_cases hroot : join "/" as = "" ∨ join "/" bs = ""
    · rw [if_pos hroot]
      rw [join_eq_empty ha, join_eq_empty hb] at hroot
      constructor
      · intro _
        rcases hroot with rfl | rfl
        · exact Or.inl List.nil_prefix
        · exact Or.inr List.nil_prefix
      · exact fun _ => rfl
    · rw [if_neg hroot]
      rw [join_eq_empty ha, join_eq_empty hb, not_or] at hroot
      rw [Bool.or_eq_true, startsWith_join_iff ha hroot.1 hb hroot.2,
        startsWith_join_iff hb hroot.2 ha hroot.1]
      constructor
      · rintro (h | h)
        · exact Or.inl (nested_of_extends h)
        · exact Or.inr (nested_of_extends h)
      · rintro (h | h)
        · exact Or.inl (prefix_extends h hne)
        · exact Or.inr (prefix_extends h (Ne.symm hne))

/-! ## Owned files -/

/-- A normalised segment list: the place of a file or directory in the tree. -/
structure FilePath where
  names : List String
  proper : ∀ name ∈ names, IsName name

/-- A declared path owns itself and everything below it. -/
def OwnsBelow (path : String) (file : FilePath) : Prop := segmentsOf path <+: file.names

/-- The files of a scope: everything when it declares no path. -/
def Owns (paths : List String) (file : FilePath) : Prop :=
  paths = [] ∨ ∃ path ∈ paths, OwnsBelow path file

/-- The place that a declared path names. -/
def placeOf (path : String) : FilePath where
  names := segmentsOf path
  proper := fun _ => isName_of_mem

@[simp] theorem placeOf_names (path : String) : (placeOf path).names = segmentsOf path := by
  simp only [placeOf]

theorem ownsBelow_placeOf {a b : String} (h : segmentsOf a <+: segmentsOf b) :
    OwnsBelow a (placeOf b) := by
  rw [OwnsBelow, placeOf_names]
  exact h

theorem nested_iff_shared (a b : String) :
    Nested (segmentsOf a) (segmentsOf b) ↔ ∃ file, OwnsBelow a file ∧ OwnsBelow b file := by
  constructor
  · rintro (h | h)
    · exact ⟨placeOf b, ownsBelow_placeOf h, ownsBelow_placeOf List.prefix_rfl⟩
    · exact ⟨placeOf a, ownsBelow_placeOf List.prefix_rfl, ownsBelow_placeOf h⟩
  · rintro ⟨file, ha, hb⟩
    exact List.prefix_or_prefix_of_prefix ha hb

/-- Nothing is declared on one side: any place of the other side is shared. -/
theorem shared_of_empty (paths : List String) : ∃ file, Owns [] file ∧ Owns paths file := by
  cases paths with
  | nil => exact ⟨placeOf "", Or.inl rfl, Or.inl rfl⟩
  | cons path rest =>
    have hown : OwnsBelow path (placeOf path) := ownsBelow_placeOf List.prefix_rfl
    exact ⟨placeOf path, Or.inl rfl, Or.inr ⟨path, List.mem_cons_self, hown⟩⟩

theorem scopesConflict_same (w : String) (P Q : List String) :
    scopesConflict w P w Q = true ↔
      P = [] ∨ Q = [] ∨ ∃ a ∈ P, ∃ b ∈ Q, Nested (segmentsOf a) (segmentsOf b) := by
  rw [scopesConflict, if_neg (by simp)]
  by_cases hempty : P = [] ∨ Q = []
  · rw [if_pos hempty]
    exact ⟨fun _ => hempty.imp_right Or.inl, fun _ => rfl⟩
  · rw [if_neg hempty]
    rw [not_or] at hempty
    simp only [List.any_eq_true, pathsOverlap_iff, hempty.1, hempty.2, false_or]

/-- Two scopes of one worktree conflict just when some place of the tree is owned by both;
between two paths the comparison of texts is that of their segments. -/
theorem scopes_conflict_iff_shared_place (w : String) (P Q : List String) :
    (scopesConflict w P w Q = true ↔ ∃ file, Owns P file ∧ Owns Q file) ∧
      ∀ a b, pathsOverlap a b = true ↔
        segmentsOf a <+: segmentsOf b ∨ segmentsOf b <+: segmentsOf a := by
  refine ⟨?_, pathsOverlap_iff⟩
  rw [scopesConflict_same]
  constructor
  · rintro (rfl | rfl | ⟨a, ha, b, hb, h⟩)
    · exact shared_of_empty Q
    · obtain ⟨file, hQ, hP⟩ := shared_of_empty P
      exact ⟨file, hP, hQ⟩
    · obtain ⟨file, hfa, hfb⟩ := (nested_iff_shared a b).mp h
      exact ⟨file, Or.inr ⟨a, ha, hfa⟩, Or.inr ⟨b, hb, hfb⟩⟩
  · rintro ⟨file, hP, hQ⟩
    rcases hP with rfl | ⟨a, ha, hfa⟩
    · exact Or.inl rfl
    · rcases hQ with rfl | ⟨b, hb, hfb⟩
      · exact Or.inr (Or.inl rfl)
      · exact Or.inr (Or.inr ⟨a, ha, b, hb, (nested_iff_shared a b).mpr ⟨file, hfa, hfb⟩⟩)

end SynapseChannel
