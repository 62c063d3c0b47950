import SynapseChannel.Core.PathOverlap

/-!
# Core — StoredScopes

The registry stores normalised paths and normalises them again inside
every comparison. Reading a stored path again strips the spaces at its
two ends, which the first reading kept when `/.` or `./` stood around them.
-/

namespace SynapseChannel

open Py

/-! ## Reading a stored path again -/

def lstrip (s : String) : String := String.ofList (s.toList.dropWhile isSpace)

def rstrip (s : String) : String := String.ofList (dropBack isSpace s.toList)

/-- The segments of a stored path once the spaces at its ends are gone. -/
def outerStripped (names : List String) : List String :=
  mapLast rstrip (names.modifyHead lstrip)

/-- The text of these segments stands for the whole tree. -/
def Rooted (names : List String) : Prop := names.head? = some "" ∨ ".." ∈ names

instance (names : List String) : Decidable (Rooted names) :=
  inferInstanceAs (Decidable (_ ∨ _))

/-- Segments as the comparison takes them from a text that holds them. -/
def keptOf (names : List String) : List String :=
  if Rooted names then [] else names.filter fun s => s ≠ "" ∧ s ≠ "."

theorem rooted_cons (first : String) (rest : List String) :
    Rooted (first :: rest) ↔ first = "" ∨ ".." ∈ first :: rest := by
  rw [Rooted, List.head?_cons, Option.some_inj]

theorem keptOf_of_rooted {names : List String} (h : Rooted names) : keptOf names = [] :=
  if_pos h

theorem keptOf_of_not_rooted {names : List String} (h : ¬ Rooted names) :
    keptOf names = names.filter fun s => s ≠ "" ∧ s ≠ "." :=
  if_neg h

/-- What the comparison sees of a stored path. -/
def reread (names : List String) : List String := keptOf (outerStripped names)

theorem toList_rstrip (s : String) : (rstrip s).toList = dropBack isSpace s.toList := by
  rw [rstrip, String.toList_ofList]

theorem map_mapLast_rstrip (names : List String) :
    (mapLast rstrip names).map String.toList =
      mapLast (dropBack isSpace) (names.map String.toList) := by
  induction names with
  | nil => rfl
  | cons name rest ih =>
    cases rest with
    | nil => rw [mapLast, List.map_singleton, List.map_singleton, mapLast, toList_rstrip]
    | cons next later =>
      rw [mapLast, List.map_cons, ih]
      rfl

theorem toList_outerStripped (names : List String) :
    (outerStripped names).map String.toList =
      mapLast (dropBack isSpace)
        ((names.map String.toList).modifyHead fun cs => cs.dropWhile isSpace) := by
  rw [outerStripped, map_mapLast_rstrip]
  congr 1
  cases names with
  | nil => rfl
  | cons name rest => rw [List.modifyHead_cons, List.map_cons, lstrip, String.toList_ofList]; rfl

theorem strip_join (names : List String) :
    strip (join "/" names) = join "/" (outerStripped names) := by
  apply String.toList_injective
  rw [strip, String.toList_ofList, toList_join, toList_join, toList_outerStripped]
  show dropBack isSpace (List.dropWhile isSpace _) = _
  cases names with
  | nil => rfl
  | cons name rest =>
    rw [List.map_cons, dropWhile_joined (by decide), dropBack_joined (by decide)]
    rfl

theorem mem_rstrip {c : Char} {s : String} (h : c ∈ (rstrip s).toList) : c ∈ s.toList := by
  rw [toList_rstrip, dropBack, List.mem_reverse] at h
  exact List.mem_reverse.mp ((List.dropWhile_suffix isSpace).subset h)

theorem mem_lstrip {c : Char} {s : String} (h : c ∈ (lstrip s).toList) : c ∈ s.toList := by
  rw [lstrip, String.toList_ofList] at h
  exact (List.dropWhile_suffix isSpace).subset h

theorem mem_mapLast {α : Type} {f : α → α} {names : List α} {a : α} (h : a ∈ mapLast f names) :
    ∃ b ∈ names, a = b ∨ a = f b := by
  rcases List.eq_nil_or_concat names with rfl | ⟨front, b, rfl⟩
  · cases h
  · rw [List.concat_eq_append, mapLast_append_singleton, List.mem_append,
      List.mem_singleton] at h
    rw [List.concat_eq_append]
    rcases h with h | h
    · exact ⟨a, List.mem_append_left _ h, Or.inl rfl⟩
    · exact ⟨b, by simp, Or.inr h⟩

theorem mem_modifyHead {α : Type} {f : α → α} {names : List α} {a : α}
    (h : a ∈ names.modifyHead f) : ∃ b ∈ names, a = b ∨ a = f b := by
  cases names with
  | nil => cases h
  | cons b rest =>
    rw [List.modifyHead_cons] at h
    rcases List.mem_cons.mp h with h | h
    · exact ⟨b, List.mem_cons_self, Or.inr h⟩
    · exact ⟨a, List.mem_cons_of_mem _ h, Or.inl rfl⟩

/-- Stripping brings no code point in. -/
theorem mem_outerStripped {names : List String} {name : String} {c : Char}
    (h : name ∈ outerStripped names) (hc : c ∈ name.toList) : ∃ n ∈ names, c ∈ n.toList := by
  obtain ⟨middle, hmiddle, hname⟩ := mem_mapLast h
  have hcm : c ∈ middle.toList := by
    rcases hname with rfl | rfl
    · exact hc
    · exact mem_rstrip hc
  obtain ⟨original, horiginal, heq⟩ := mem_modifyHead hmiddle
  refine ⟨original, horiginal, ?_⟩
  rcases heq with rfl | rfl
  · exact hcm
  · exact mem_lstrip hcm

theorem free_outerStripped {names : List String} (h : ∀ name ∈ names, IsName name) :
    Free '/' ((outerStripped names).map String.toList) := by
  intro cs hcs hc
  obtain ⟨name, hname, rfl⟩ := List.mem_map.mp hcs
  obtain ⟨original, horiginal, hin⟩ := mem_outerStripped hname hc
  exact (h original horiginal).noSlash hin

theorem replaceChar_of_not_mem {s : String} {a b : Char} (h : a ∉ s.toList) :
    replaceChar s a b = s := by
  have hmap : s.toList.map (fun c => if c = a then b else c) = s.toList.map id :=
    List.map_congr_left fun c hc => if_neg (ne_of_mem_of_not_mem hc h)
  rw [replaceChar, hmap, List.map_id, String.ofList_toList]

theorem slashed_join {names : List String} (h : ∀ name ∈ names, IsName name) :
    slashed (join "/" names) = join "/" (outerStripped names) := by
  rw [slashed, strip_join]
  apply replaceChar_of_not_mem
  rw [toList_join]
  intro hc
  rcases mem_joined hc with heq | ⟨cs, hcs, hin⟩
  · exact absurd heq (by decide)
  · obtain ⟨name, hname, rfl⟩ := List.mem_map.mp hcs
    obtain ⟨original, horiginal, ho⟩ := mem_outerStripped hname hin
    exact (h original horiginal).noBackslash ho

theorem outerStripped_ne_nil {names : List String} (hne : names ≠ []) :
    outerStripped names ≠ [] := by
  obtain ⟨name, rest, rfl⟩ := List.exists_cons_of_ne_nil hne
  rw [outerStripped, List.modifyHead_cons]
  cases rest <;> exact List.cons_ne_nil _ _

theorem split_join_outer {names : List String} (h : ∀ name ∈ names, IsName name)
    (hne : names ≠ []) :
    split (join "/" (outerStripped names)) '/' = outerStripped names := by
  rw [split, toList_join, splitOn_joined (free_outerStripped h)
    (by simpa using outerStripped_ne_nil hne), List.map_map]
  exact List.map_id'' (fun _ => String.ofList_toList) _

/-- The text of joined names is absolute just when the first is empty and another follows. -/
theorem startsWith_slash {first : String} {rest : List String} (h : '/' ∉ first.toList) :
    startsWith (join "/" (first :: rest)) "/" = true ↔ first = "" ∧ rest ≠ [] := by
  rw [startsWith, List.isPrefixOf_iff_prefix, toList_join, List.map_cons]
  show ['/'] <+: _ ↔ _
  cases rest with
  | nil =>
    rw [List.map_nil, List.intercalate_singleton]
    constructor
    · intro hpre
      exact absurd (hpre.subset List.mem_cons_self) h
    · rintro ⟨-, hne⟩
      exact absurd rfl hne
  | cons next later =>
    rw [List.map_cons, List.intercalate_cons_cons]
    cases hfirst : first.toList with
    | nil =>
      have hempty : first = "" := String.toList_injective hfirst
      simp [hempty]
    | cons c cs =>
      have hne : first ≠ "" := by
        rintro rfl
        cases hfirst
      have hc : c ≠ '/' := fun heq => h (by rw [hfirst, heq]; exact List.mem_cons_self)
      simp [hne, Ne.symm hc]

/-- A stored path is read again as its own segments, stripped at the ends. -/
theorem segmentsOf_normalizePath (path : String) :
    segmentsOf (normalizePath path) = reread (segmentsOf path) := by
  have h : ∀ name ∈ segmentsOf path, IsName name := fun _ => isName_of_mem
  rw [normalizePath_eq]
  generalize segmentsOf path = names at h
  by_cases hne : names = []
  · subst hne
    decide +kernel
  · have hsplit := split_join_outer h hne
    have hfree := free_outerStripped h
    obtain ⟨first, rest, houter⟩ := List.exists_cons_of_ne_nil (outerStripped_ne_nil hne)
    have hstart : '/' ∉ first.toList := hfree _ (by rw [houter, List.map_cons]; simp)
    have hw : Widens (join "/" names) ↔ (first = "" ∧ rest ≠ []) ∨ ".." ∈ first :: rest := by
      unfold Widens
      rw [slashed_join h, hsplit, houter, startsWith_slash hstart]
    rw [reread, houter]
    by_cases hup : ".." ∈ first :: rest
    · have hroot : Rooted (first :: rest) := Or.inr hup
      rw [segmentsOf, if_pos (hw.mpr (Or.inr hup)), keptOf_of_rooted hroot]
    · by_cases hempty : first = ""
      · have hroot : Rooted (first :: rest) := (rooted_cons first rest).mpr (Or.inl hempty)
        rw [keptOf_of_rooted hroot]
        by_cases hrest : rest = []
        · have hnw : ¬ Widens (join "/" names) := by
            rw [hw]
            rintro (h | h)
            · exact h.2 hrest
            · exact hup h
          rw [segmentsOf, if_neg hnw, slashed_join h, hsplit, houter, hrest, hempty]
          rfl
        · rw [segmentsOf, if_pos (hw.mpr (Or.inl ⟨hempty, hrest⟩))]
      · have hnw : ¬ Widens (join "/" names) := by
          rw [hw]
          rintro (h | h)
          · exact hempty h.1
          · exact hup h
        have hkept : ¬ Rooted (first :: rest) := by
          rw [rooted_cons]
          rintro (h | h)
          · exact hempty h
          · exact hup h
        rw [segmentsOf, if_neg hnw, keptOf_of_not_rooted hkept, slashed_join h, hsplit, houter]

/-! ## Two stored paths -/

/-- A path over another one that ends in spaces: the stored form of the upper path
loses them and that of the lower one, where they stand inside, does not. -/
structure LosesSpace (above below : List String) : Prop where
  beneath : ∃ rest, rest ≠ [] ∧ below = above ++ rest
  first : ∀ first ∈ above.head?, lstrip first ≠ "" ∧ lstrip first ≠ ".."
  last : ∃ last ∈ (above.modifyHead lstrip).getLast?,
    rstrip last ≠ last ∧ rstrip last ≠ "" ∧ rstrip last ≠ "." ∧ rstrip last ≠ ".."
  lower : ∀ last ∈ below.getLast?, rstrip last ≠ ".."

theorem rstrip_empty : rstrip "" = "" := by decide +kernel

theorem rstrip_dot : rstrip "." = "." := by decide +kernel

/-- Between texts that are not the whole tree only the spaces of `x` part the upper from
the lower: its stripped form is dropped, stays the same, or is another name. -/
theorem nested_kept {front rest : List String} {x : String}
    (hA : ¬ Rooted (front ++ [rstrip x])) (hB : ¬ Rooted (front ++ x :: rest)) :
    Nested (keptOf (front ++ [rstrip x])) (keptOf (front ++ x :: rest)) ↔
      (rstrip x ≠ "" → rstrip x ≠ "." → rstrip x = x) := by
  rw [keptOf_of_not_rooted hA, keptOf_of_not_rooted hB, List.filter_append, List.filter_append]
  generalize front.filter (fun s => s ≠ "" ∧ s ≠ ".") = kept
  by_cases hdrop : rstrip x = "" ∨ rstrip x = "."
  · rw [List.filter_cons_of_neg (by simpa using fun h => hdrop.resolve_left h), List.filter_nil,
      List.append_nil]
    constructor
    · intro _ hempty hdot
      rcases hdrop with h | h
      · exact absurd h hempty
      · exact absurd h hdot
    · intro _
      exact Or.inl (List.prefix_append kept _)
  · rw [not_or] at hdrop
    have hx : x ≠ "" ∧ x ≠ "." := by
      constructor
      · rintro rfl
        exact hdrop.1 rstrip_empty
      · rintro rfl
        exact hdrop.2 rstrip_dot
    rw [List.filter_cons_of_pos (by simpa using hdrop), List.filter_nil,
      List.filter_cons_of_pos (by simpa using hx)]
    constructor
    · intro hnested _ _
      rcases hnested with h | h
      · rw [List.prefix_append_right_inj, List.cons_prefix_cons] at h
        exact h.1
      · rw [List.prefix_append_right_inj, List.cons_prefix_cons] at h
        exact h.1.symm
    · intro hsame
      rw [hsame hdrop.1 hdrop.2]
      left
      rw [List.prefix_append_right_inj, List.cons_prefix_cons]
      exact ⟨rfl, List.nil_prefix⟩

/-- A stored path over another one still lies over it unless it loses spaces. -/
theorem nested_reread_beneath {above rest : List String} (habove : ∀ name ∈ above, IsName name)
    (hbelow : ∀ name ∈ rest, IsName name) (hne : above ≠ []) (hrest : rest ≠ []) :
    Nested (reread above) (reread (above ++ rest)) ↔ ¬ LosesSpace above (above ++ rest) := by
  obtain ⟨first, later, rfl⟩ := List.exists_cons_of_ne_nil hne
  rcases List.eq_nil_or_concat (lstrip first :: later) with hnil | ⟨front, x, hlast⟩
  · cases hnil
  rw [List.concat_eq_append] at hlast
  rcases List.eq_nil_or_concat rest with hnil | ⟨middle, y, rfl⟩
  · exact absurd hnil hrest
  rw [List.concat_eq_append] at *
  have hA : outerStripped (first :: later) = front ++ [rstrip x] := by
    rw [outerStripped, List.modifyHead_cons, hlast, mapLast_append_singleton]
  have hB : outerStripped (first :: later ++ (middle ++ [y])) =
      front ++ x :: (middle ++ [rstrip y]) := by
    rw [outerStripped, List.cons_append, List.modifyHead_cons, ← List.cons_append, hlast,
      ← List.append_assoc, mapLast_append_singleton]
    simp
  have hhead : ∀ tail, (front ++ x :: tail).head? = some (lstrip first) := by
    intro tail
    rw [← List.singleton_append, ← List.append_assoc, ← hlast]
    rfl
  have hup : ∀ name ∈ front ++ [x], name = ".." → lstrip first = ".." := by
    intro name hname heq
    rw [← hlast] at hname
    rcases List.mem_cons.mp hname with rfl | hname
    · exact heq
    · exact absurd heq (habove name (List.mem_cons_of_mem _ hname)).notUp
  have hfirst : ∀ {name : String}, lstrip first ≠ "" → lstrip first ≠ ".." → name ≠ "" →
      name ≠ ".." → ¬ Rooted (front ++ [name]) := by
    intro name hempty hdots hname hnameUp hroot
    rcases hroot with h | h
    · cases front with
      | nil => exact hname (Option.some_inj.mp h)
      | cons head tail =>
        have hh := hhead []
        rw [List.cons_append, List.head?_cons] at hh h
        exact hempty (Option.some_inj.mp (hh.symm.trans h))
    · rcases List.mem_append.mp h with h | h
      · exact hdots (hup _ (List.mem_append_left _ h) rfl)
      · exact hnameUp (List.mem_singleton.mp h).symm
  have hbeneath : ∃ more, more ≠ [] ∧
      first :: later ++ (middle ++ [y]) = first :: later ++ more := ⟨middle ++ [y], hrest, rfl⟩
  have hlastA : x ∈ ((first :: later).modifyHead lstrip).getLast? := by
    rw [List.modifyHead_cons, hlast]
    simp
  have hlastB : y ∈ (first :: later ++ (middle ++ [y])).getLast? := by
    rw [← List.append_assoc]
    exact List.getLast?_concat
  rw [reread, reread, hA, hB]
  constructor
  · -- the spaces are lost, so neither text is the whole tree and the names differ
    rintro hnested ⟨-, hf, ⟨last, hin, hne', hempty, hdot, hdots⟩, hlow⟩
    obtain rfl : x = last := Option.some_inj.mp (hlastA.symm.trans hin)
    obtain ⟨hf1, hf2⟩ := hf first rfl
    have hlow := hlow y hlastB
    have hnB : ¬ Rooted (front ++ x :: (middle ++ [rstrip y])) := by
      rintro (h | h)
      · rw [hhead] at h
        exact hf1 (Option.some_inj.mp h)
      · rw [← List.singleton_append, ← List.append_assoc] at h
        rcases List.mem_append.mp h with h | h
        · exact hf2 (hup _ h rfl)
        · rcases List.mem_append.mp h with h | h
          · exact (hbelow _ (List.mem_append_left _ h)).notUp rfl
          · exact hlow (List.mem_singleton.mp h).symm
    exact hne' ((nested_kept (hfirst hf1 hf2 hempty hdots) hnB).mp hnested hempty hdot)
  · intro hkeep
    by_cases hrA : Rooted (front ++ [rstrip x])
    · rw [keptOf_of_rooted hrA]
      exact Or.inl List.nil_prefix
    by_cases hrB : Rooted (front ++ x :: (middle ++ [rstrip y]))
    · rw [keptOf_of_rooted hrB]
      exact Or.inr List.nil_prefix
    rw [nested_kept hrA hrB]
    intro hempty hdot
    by_contra hne'
    apply hkeep
    refine ⟨hbeneath, ?_, ⟨x, hlastA, hne', hempty, hdot, ?_⟩, ?_⟩
    · intro name hname
      obtain rfl : first = name := Option.some_inj.mp hname
      constructor
      · intro h
        exact hrB (Or.inl ((hhead _).trans (congrArg some h)))
      · intro h
        have hmem : ".." ∈ front ++ [x] := by
          rw [← hlast, h]
          exact List.mem_cons_self
        apply hrB
        right
        rw [← List.singleton_append, ← List.append_assoc]
        exact List.mem_append_left _ hmem
    · intro h
      apply hrA
      right
      rw [h]
      simp
    · intro name hname h
      obtain rfl : y = name := Option.some_inj.mp (hlastB.symm.trans hname)
      apply hrB
      right
      rw [h]
      simp

theorem nested_comm {a b : List String} : Nested a b ↔ Nested b a := or_comm

theorem not_nested_of_loses {above below : List String} (ha : ∀ name ∈ above, IsName name)
    (hb : ∀ name ∈ below, IsName name) (h : LosesSpace above below) :
    ¬ Nested (reread above) (reread below) := by
  obtain ⟨rest, hrest, rfl⟩ := h.beneath
  have hne : above ≠ [] := by
    rintro rfl
    obtain ⟨last, hlast, -⟩ := h.last
    cases hlast
  intro hnested
  have hbelow : ∀ name ∈ rest, IsName name := fun name hname => hb name (List.mem_append_right _ hname)
  exact (nested_reread_beneath ha hbelow hne hrest).mp hnested h

theorem nested_reread_of_above {above below : List String} (ha : ∀ name ∈ above, IsName name)
    (hb : ∀ name ∈ below, IsName name) (habove : above <+: below)
    (h : ¬ LosesSpace above below) : Nested (reread above) (reread below) := by
  by_cases hsame : above = below
  · rw [hsame]
    exact Or.inl List.prefix_rfl
  · by_cases hne : above = []
    · subst hne
      exact Or.inl List.nil_prefix
    · obtain ⟨rest, hrest, rfl⟩ := prefix_extends habove hsame
      have hbelow : ∀ name ∈ rest, IsName name :=
        fun name hname => hb name (List.mem_append_right _ hname)
      exact (nested_reread_beneath ha hbelow hne hrest).mpr h

/-- Two overlapping paths still overlap in their stored forms unless one loses spaces. -/
theorem nested_reread_iff {a b : List String} (ha : ∀ name ∈ a, IsName name)
    (hb : ∀ name ∈ b, IsName name) (h : Nested a b) :
    Nested (reread a) (reread b) ↔ ¬ LosesSpace a b ∧ ¬ LosesSpace b a := by
  constructor
  · intro hnested
    constructor
    · exact fun hloses => not_nested_of_loses ha hb hloses hnested
    · exact fun hloses => not_nested_of_loses hb ha hloses (nested_comm.mp hnested)
  · rintro ⟨hab, hba⟩
    rcases h with habove | habove
    · exact nested_reread_of_above ha hb habove hab
    · exact nested_comm.mp (nested_reread_of_above hb ha habove hba)

/-! ## Stored lists -/

section Lists

variable [Builtins]

/-- A raw path that widens the whole list. -/
def WidensList (raw : String) : Prop :=
  len raw > maxPathLength ∨ isPrintable raw = false ∨ segmentsOf raw = []

/-- The cap on distinct paths. -/
def capOf (maxDeclared : Option Int) : Int :=
  match maxDeclared with
  | none => maxDeclaredPaths
  | some n => max 1 n

/-- The list is stored as the whole worktree. -/
def StoredWhole (paths : List String) (maxDeclared : Option Int) : Prop :=
  (∃ raw ∈ paths, WidensList raw) ∨
    capOf maxDeclared < (paths.map normalizePath).dedup.length

omit [Builtins] in
theorem normalizePath_eq_empty (path : String) : normalizePath path = "" ↔ segmentsOf path = [] := by
  rw [normalizePath_eq]
  exact join_eq_empty fun _ => isName_of_mem

/-- One path of the loop: it widens the list, is known already, or is added. -/
theorem normalizePathsLoop_cons (cap : Int) (out rest : List String) (raw : String) :
    normalizePathsLoop cap out (raw :: rest) = [""] ∧ WidensList raw ∨
      ¬ WidensList raw ∧ normalizePath raw ∈ out ∧
        normalizePathsLoop cap out (raw :: rest) = normalizePathsLoop cap out rest ∨
      ¬ WidensList raw ∧ normalizePath raw ∉ out ∧
        normalizePathsLoop cap out (raw :: rest) =
          if ((out ++ [normalizePath raw]).length : Int) > cap then [""]
          else normalizePathsLoop cap (out ++ [normalizePath raw]) rest := by
  simp only [normalizePathsLoop, WidensList, ← normalizePath_eq_empty]
  by_cases hlen : len raw > maxPathLength
  · exact Or.inl ⟨if_pos hlen, Or.inl hlen⟩
  rw [if_neg hlen]
  by_cases hprint : isPrintable raw = false
  · exact Or.inl ⟨by simp [hprint], Or.inr (Or.inl hprint)⟩
  rw [if_neg (by simpa using hprint)]
  by_cases hroot : normalizePath raw = ""
  · exact Or.inl ⟨if_pos hroot, Or.inr (Or.inr hroot)⟩
  rw [if_neg hroot]
  have hw : ¬ (len raw > maxPathLength ∨ isPrintable raw = false ∨ normalizePath raw = "") := by
    rintro (h | h | h)
    · exact hlen h
    · exact hprint h
    · exact hroot h
  by_cases hmem : normalizePath raw ∈ out
  · exact Or.inr (Or.inl ⟨hw, hmem, if_pos hmem⟩)
  · exact Or.inr (Or.inr ⟨hw, hmem, if_neg hmem⟩)

omit [Builtins] in
theorem dedup_length_congr {a b : List String} (h : ∀ n, n ∈ a ↔ n ∈ b) :
    a.dedup.length = b.dedup.length := by
  apply List.Perm.length_eq
  rw [List.perm_ext_iff_of_nodup (List.nodup_dedup a) (List.nodup_dedup b)]
  intro n
  rw [List.mem_dedup, List.mem_dedup]
  exact h n

/-- The loop gives the whole worktree, or the distinct normal forms. -/
theorem normalizePathsLoop_spec (cap : Int) (paths : List String) {out : List String}
    (hnodup : out.Nodup) (hcap : (out.length : Int) ≤ cap) :
    (((∃ raw ∈ paths, WidensList raw) ∨
        cap < (out ++ paths.map normalizePath).dedup.length) ∧
      normalizePathsLoop cap out paths = [""]) ∨
    ((∀ raw ∈ paths, ¬ WidensList raw) ∧
      ((out ++ paths.map normalizePath).dedup.length : Int) ≤ cap ∧
      ∀ n, n ∈ normalizePathsLoop cap out paths ↔ n ∈ out ++ paths.map normalizePath) := by
  induction paths generalizing out with
  | nil =>
    right
    rw [List.map_nil, List.append_nil, hnodup.dedup]
    refine ⟨?_, hcap, fun n => Iff.rfl⟩
    intro raw hraw
    cases hraw
  | cons raw rest ih =>
    rcases normalizePathsLoop_cons cap out rest raw with ⟨hloop, hw⟩ | ⟨hw, hmem, hloop⟩ |
      ⟨hw, hmem, hloop⟩
    · exact Or.inl ⟨Or.inl ⟨raw, List.mem_cons_self, hw⟩, hloop⟩
    · -- a known normal form adds nothing
      have hsame : ∀ n, n ∈ out ++ (raw :: rest).map normalizePath ↔
          n ∈ out ++ rest.map normalizePath := by
        intro n
        rw [List.map_cons, List.mem_append, List.mem_append, List.mem_cons]
        constructor
        · intro h
          rcases h with h | heq | h
          · exact Or.inl h
          · rw [heq]
            exact Or.inl hmem
          · exact Or.inr h
        · exact fun h => h.imp_right Or.inr
      rw [hloop, dedup_length_congr hsame]
      rcases ih hnodup hcap with ⟨hwhole, heq⟩ | ⟨hnone, hle, hin⟩
      · refine Or.inl ⟨hwhole.imp_left ?_, heq⟩
        rintro ⟨other, hother, hw'⟩
        exact ⟨other, List.mem_cons_of_mem _ hother, hw'⟩
      · refine Or.inr ⟨?_, hle, fun n => (hin n).trans (hsame n).symm⟩
        intro other hother
        rcases List.mem_cons.mp hother with rfl | hother
        · exact hw
        · exact hnone other hother
    · have hnodup' : (out ++ [normalizePath raw]).Nodup :=
        hnodup.concat hmem |> (List.concat_eq_append ▸ ·)
      have hall : out ++ (raw :: rest).map normalizePath =
          (out ++ [normalizePath raw]) ++ rest.map normalizePath := by
        simp
      rw [hloop, hall]
      by_cases hover : ((out ++ [normalizePath raw]).length : Int) > cap
      · have hsub : out ++ [normalizePath raw] ⊆
            (out ++ [normalizePath raw] ++ rest.map normalizePath).dedup :=
          fun n hn => List.mem_dedup.mpr (List.mem_append_left _ hn)
        have hle := (List.subperm_of_subset hnodup' hsub).length_le
        exact Or.inl ⟨Or.inr (by omega), if_pos hover⟩
      · rw [if_neg hover]
        rcases ih hnodup' (by omega) with ⟨hwhole, heq⟩ | ⟨hnone, hle, hin⟩
        · refine Or.inl ⟨hwhole.imp_left ?_, heq⟩
          rintro ⟨other, hother, hw'⟩
          exact ⟨other, List.mem_cons_of_mem _ hother, hw'⟩
        · refine Or.inr ⟨?_, hle, hin⟩
          intro other hother
          rcases List.mem_cons.mp hother with rfl | hother
          · exact hw
          · exact hnone other hother

/-- The stored list is the whole worktree, or holds just the normal forms. -/
theorem normalizePaths_spec (paths : List String) (maxDeclared : Option Int) :
    (StoredWhole paths maxDeclared ∧ normalizePaths paths maxDeclared = [""]) ∨
    (¬ StoredWhole paths maxDeclared ∧
      ∀ n, n ∈ normalizePaths paths maxDeclared ↔ n ∈ paths.map normalizePath) := by
  have hcap : (([] : List String).length : Int) ≤ capOf maxDeclared := by
    cases maxDeclared with
    | none => decide
    | some n =>
      show (0 : Int) ≤ max 1 n
      omega
  have hdef : normalizePaths paths maxDeclared =
      normalizePathsLoop (capOf maxDeclared) [] paths := rfl
  rw [hdef]
  rcases normalizePathsLoop_spec (capOf maxDeclared) paths List.nodup_nil hcap with h | h
  · exact Or.inl h
  · refine Or.inr ⟨?_, h.2.2⟩
    rintro (⟨raw, hraw, hw⟩ | hlt)
    · exact h.1 raw hraw hw
    · exact absurd hlt (Int.not_lt.mpr h.2.1)

omit [Builtins] in
theorem stored_nil_iff {paths stored : List String}
    (h : ∀ n, n ∈ stored ↔ n ∈ paths.map normalizePath) : stored = [] ↔ paths = [] := by
  rw [List.eq_nil_iff_forall_not_mem, ← List.map_eq_nil_iff (f := normalizePath),
    List.eq_nil_iff_forall_not_mem]
  exact forall_congr' fun n => not_congr (h n)

/-- When two scopes conflict in the form the registry stores. -/
theorem stored_conflict_iff (w : String) (P Q : List String) (maxDeclared : Option Int) :
    scopesConflict w (normalizePaths P maxDeclared) w (normalizePaths Q maxDeclared) = true ↔
      P = [] ∨ Q = [] ∨ StoredWhole P maxDeclared ∨ StoredWhole Q maxDeclared ∨
        ∃ a ∈ P, ∃ b ∈ Q, Nested (reread (segmentsOf a)) (reread (segmentsOf b)) := by
  rw [scopesConflict_same]
  have hroot : ∀ other : String, Nested (segmentsOf "") (segmentsOf other) := by
    intro other
    have hnil : segmentsOf "" = [] := by decide +kernel
    rw [hnil]
    exact Or.inl List.nil_prefix
  rcases normalizePaths_spec P maxDeclared with ⟨hP, hPeq⟩ | ⟨hP, hPmem⟩
  · constructor
    · exact fun _ => Or.inr (Or.inr (Or.inl hP))
    · intro _
      rw [hPeq]
      cases normalizePaths Q maxDeclared with
      | nil => exact Or.inr (Or.inl rfl)
      | cons b rest =>
        exact Or.inr (Or.inr ⟨"", List.mem_cons_self, b, List.mem_cons_self, hroot b⟩)
  · rcases normalizePaths_spec Q maxDeclared with ⟨hQ, hQeq⟩ | ⟨hQ, hQmem⟩
    · constructor
      · exact fun _ => Or.inr (Or.inr (Or.inr (Or.inl hQ)))
      · intro _
        rw [hQeq]
        cases normalizePaths P maxDeclared with
        | nil => exact Or.inl rfl
        | cons a rest =>
          exact Or.inr (Or.inr ⟨a, List.mem_cons_self, "", List.mem_cons_self,
            nested_comm.mp (hroot a)⟩)
    · rw [stored_nil_iff hPmem, stored_nil_iff hQmem]
      apply or_congr_right
      apply or_congr_right
      constructor
      · rintro ⟨a, ha, b, hb, h⟩
        obtain ⟨rawA, hrawA, rfl⟩ := List.mem_map.mp ((hPmem a).mp ha)
        obtain ⟨rawB, hrawB, rfl⟩ := List.mem_map.mp ((hQmem b).mp hb)
        rw [segmentsOf_normalizePath, segmentsOf_normalizePath] at h
        exact Or.inr (Or.inr ⟨rawA, hrawA, rawB, hrawB, h⟩)
      · rintro (h | h | ⟨rawA, hrawA, rawB, hrawB, h⟩)
        · exact absurd h hP
        · exact absurd h hQ
        · rw [← segmentsOf_normalizePath, ← segmentsOf_normalizePath] at h
          exact ⟨normalizePath rawA, (hPmem _).mpr (List.mem_map_of_mem hrawA),
            normalizePath rawB, (hQmem _).mpr (List.mem_map_of_mem hrawB), h⟩

/-- Two lists whose conflict is gone in the stored form: every pair that overlaps loses
the spaces at the end of its upper path, and no other pair comes together. -/
structure HidesConflict (P Q : List String) (maxDeclared : Option Int) : Prop where
  declaredP : P ≠ []
  declaredQ : Q ≠ []
  keptP : ¬ StoredWhole P maxDeclared
  keptQ : ¬ StoredWhole Q maxDeclared
  overlap : ∃ a ∈ P, ∃ b ∈ Q, Nested (segmentsOf a) (segmentsOf b)
  lost : ∀ a ∈ P, ∀ b ∈ Q, Nested (segmentsOf a) (segmentsOf b) →
    LosesSpace (segmentsOf a) (segmentsOf b) ∨ LosesSpace (segmentsOf b) (segmentsOf a)
  apart : ∀ a ∈ P, ∀ b ∈ Q, ¬ Nested (segmentsOf a) (segmentsOf b) →
    ¬ Nested (reread (segmentsOf a)) (reread (segmentsOf b))

/-- Normalising two declared lists keeps their conflict except where spaces hide it. -/
theorem normalized_conflict_kept_iff (w : String) (P Q : List String)
    (maxDeclared : Option Int) :
    (scopesConflict w P w Q = true →
        scopesConflict w (normalizePaths P maxDeclared) w (normalizePaths Q maxDeclared) = true) ↔
      ¬ HidesConflict P Q maxDeclared := by
  rw [scopesConflict_same, stored_conflict_iff]
  constructor
  · rintro hkept ⟨hP, hQ, hwholeP, hwholeQ, hover, hlost, hapart⟩
    rcases hkept (Or.inr (Or.inr hover)) with h | h | h | h | ⟨a, ha, b, hb, h⟩
    · exact hP h
    · exact hQ h
    · exact hwholeP h
    · exact hwholeQ h
    · by_cases hnested : Nested (segmentsOf a) (segmentsOf b)
      · have hkeeps := (nested_reread_iff (fun _ => isName_of_mem) (fun _ => isName_of_mem)
          hnested).mp h
        rcases hlost a ha b hb hnested with hloses | hloses
        · exact hkeeps.1 hloses
        · exact hkeeps.2 hloses
      · exact hapart a ha b hb hnested h
  · intro hkeeps hraw
    by_contra hstored
    simp only [not_or] at hstored
    obtain ⟨hP, hQ, hwholeP, hwholeQ, hnone⟩ := hstored
    have hnone : ∀ a ∈ P, ∀ b ∈ Q, ¬ Nested (reread (segmentsOf a)) (reread (segmentsOf b)) :=
      fun a ha b hb h => hnone ⟨a, ha, b, hb, h⟩
    apply hkeeps
    refine ⟨hP, hQ, hwholeP, hwholeQ, ?_, ?_, fun a ha b hb _ => hnone a ha b hb⟩
    · exact (hraw.resolve_left hP).resolve_left hQ
    · intro a ha b hb hnested
      by_contra hkept
      rw [not_or] at hkept
      exact hnone a ha b hb ((nested_reread_iff (fun _ => isName_of_mem)
        (fun _ => isName_of_mem) hnested).mpr hkept)

omit [Builtins] in
/-- A directory whose name ends in a space, declared as `a /.`, over one of its files. -/
theorem trailing_space_hides_conflict :
    letI := Builtins.ascii
    scopesConflict "" ["a /."] "" ["a /b"] = true ∧
      scopesConflict "" (normalizePaths ["a /."] none) "" (normalizePaths ["a /b"] none) = false := by
  decide +kernel

end Lists

end SynapseChannel
