import Mathlib.Algebra.BigOperators.Group.List.Basic
import Mathlib.Data.List.Nodup
import Mathlib.Data.List.Perm.Subperm
import Mathlib.Tactic.Common

/-!
# Lib — Dict

The insertion-ordered dictionary: a list of entries with distinct keys,
the distinctness carried as a field. `set` overwrites in place and
appends a new key at the end, `erase` keeps the order of the rest. Two
dictionaries are interchangeable for lookups when they are `Same`.
-/

namespace Py

/-- An insertion-ordered dictionary. -/
structure Dict (κ ν : Type) where
  items : List (κ × ν)
  nodup : (items.map Prod.fst).Nodup

namespace Dict

variable {κ ν : Type} [DecidableEq κ]

/-- First value under `k` in an entry list. -/
def find (k : κ) : List (κ × ν) → Option ν
  | [] => none
  | (k', v) :: rest => if k' = k then some v else find k rest

/-- Overwrite the entry of `k`, or append one. -/
def put (k : κ) (v : ν) : List (κ × ν) → List (κ × ν)
  | [] => [(k, v)]
  | (k', v') :: rest => if k' = k then (k, v) :: rest else (k', v') :: put k v rest

theorem mem_keys_put (k : κ) (v : ν) (l : List (κ × ν)) (a : κ) :
    a ∈ (put k v l).map Prod.fst ↔ a = k ∨ a ∈ l.map Prod.fst := by
  induction l with
  | nil => simp [put]
  | cons e rest ih =>
    obtain ⟨k', v'⟩ := e
    by_cases hk : k' = k
    · subst hk
      simp [put]
    · simp only [put, hk, if_false, List.map_cons, List.mem_cons, ih]
      tauto

theorem nodup_put (k : κ) (v : ν) (l : List (κ × ν)) (h : (l.map Prod.fst).Nodup) :
    ((put k v l).map Prod.fst).Nodup := by
  induction l with
  | nil => simp [put]
  | cons e rest ih =>
    obtain ⟨k', v'⟩ := e
    simp only [List.map_cons, List.nodup_cons] at h
    by_cases hk : k' = k
    · subst hk
      simpa [put] using h
    · simp only [put, hk, if_false, List.map_cons, List.nodup_cons]
      refine ⟨?_, ih h.2⟩
      rw [mem_keys_put]
      rintro (rfl | hm)
      · exact hk rfl
      · exact h.1 hm

theorem find_put (k a : κ) (v : ν) (l : List (κ × ν)) :
    find a (put k v l) = if k = a then some v else find a l := by
  induction l with
  | nil => simp [put, find]
  | cons e rest ih =>
    obtain ⟨k', v'⟩ := e
    by_cases hk : k' = k
    · subst hk
      by_cases ha : k' = a <;> simp [put, find, ha]
    · by_cases ha : k' = a
      · subst ha
        simp [put, find, hk, Ne.symm hk]
      · simp [put, find, hk, ha, ih]

theorem find_eq_none (a : κ) (l : List (κ × ν)) :
    find a l = none ↔ a ∉ l.map Prod.fst := by
  induction l with
  | nil => simp [find]
  | cons e rest ih =>
    obtain ⟨k', v'⟩ := e
    by_cases ha : k' = a
    · subst ha
      simp [find]
    · simp [find, ha, ih, Ne.symm ha]

theorem put_of_find_none {k : κ} (v : ν) {l : List (κ × ν)} (h : find k l = none) :
    put k v l = l ++ [(k, v)] := by
  induction l with
  | nil => rfl
  | cons e rest ih =>
    obtain ⟨k', v'⟩ := e
    by_cases hk : k' = k
    · simp [find, hk] at h
    · simp only [find, hk, if_false] at h
      simp [put, hk, ih h]

theorem find_filter (p : κ → Bool) (a : κ) (l : List (κ × ν)) :
    find a (l.filter (fun e => p e.1)) = if p a then find a l else none := by
  induction l with
  | nil => simp [find]
  | cons e rest ih =>
    obtain ⟨k', v'⟩ := e
    by_cases ha : k' = a
    · subst ha
      by_cases hp : p k' <;> simp_all [find]
    · by_cases hp : p k' <;> simp [find, ha, hp, ih]

theorem find_filterMap {μ : Type} (f : ν → Option μ) (a : κ) {l : List (κ × ν)}
    (hn : (l.map Prod.fst).Nodup) :
    find a (l.filterMap fun e => (f e.2).map (e.1, ·)) = (find a l).bind f := by
  induction l with
  | nil => rfl
  | cons e rest ih =>
    obtain ⟨k', v'⟩ := e
    simp only [List.map_cons, List.nodup_cons] at hn
    have ih := ih hn.2
    by_cases ha : k' = a
    · subst ha
      have hrest : find k' rest = none := (find_eq_none k' rest).mpr hn.1
      cases hf : f v' <;> simp [find, hf, ih, hrest]
    · cases hf : f v' <;> simp [find, hf, ha, ih]

theorem mem_of_find {a : κ} {v : ν} {l : List (κ × ν)} (h : find a l = some v) :
    (a, v) ∈ l := by
  induction l with
  | nil => cases h
  | cons e rest ih =>
    obtain ⟨k', v'⟩ := e
    by_cases ha : k' = a
    · subst ha
      simp only [find, if_true, Option.some.injEq] at h
      simp [h]
    · simp only [find, ha, if_false] at h
      exact List.mem_cons_of_mem _ (ih h)

theorem find_of_mem {a : κ} {v : ν} {l : List (κ × ν)} (hn : (l.map Prod.fst).Nodup)
    (h : (a, v) ∈ l) : find a l = some v := by
  induction l with
  | nil => cases h
  | cons e rest ih =>
    obtain ⟨k', v'⟩ := e
    simp only [List.map_cons, List.nodup_cons] at hn
    rcases List.mem_cons.mp h with heq | hm
    · cases heq
      simp [find]
    · have hne : k' ≠ a := by
        rintro rfl
        exact hn.1 (List.mem_map_of_mem (f := Prod.fst) hm)
      simpa [find, hne] using ih hn.2 hm

/-- Distinct keys are found alike in any order of the entries. -/
theorem find_of_perm {l l' : List (κ × ν)} (hn : (l.map Prod.fst).Nodup) (h : l.Perm l') (a : κ) :
    find a l = find a l' := by
  have hn' : (l'.map Prod.fst).Nodup := (h.map Prod.fst).nodup_iff.mp hn
  cases hfind : find a l with
  | none =>
    rw [find_eq_none, (h.map Prod.fst).mem_iff, ← find_eq_none] at hfind
    exact hfind.symm
  | some v => exact (find_of_mem hn' (h.mem_iff.mp (mem_of_find hfind))).symm

theorem find_map {μ : Type} (f : ν → μ) (a : κ) (l : List (κ × ν)) :
    find a (l.map fun e => (e.1, f e.2)) = (find a l).map f := by
  induction l with
  | nil => rfl
  | cons e rest ih =>
    simp only [List.map_cons, find]
    split
    · rfl
    · exact ih

/-! ## The operations -/

def empty : Dict κ ν := ⟨[], List.nodup_nil⟩

instance : Inhabited (Dict κ ν) := ⟨empty⟩

def get? (d : Dict κ ν) (k : κ) : Option ν := find k d.items

def contains (d : Dict κ ν) (k : κ) : Bool := (d.get? k).isSome

def set (d : Dict κ ν) (k : κ) (v : ν) : Dict κ ν :=
  ⟨put k v d.items, nodup_put k v d.items d.nodup⟩

/-- Keep the entries whose key satisfies `p`, in order. -/
def filterKeys (d : Dict κ ν) (p : κ → Bool) : Dict κ ν :=
  ⟨d.items.filter (fun e => p e.1),
    d.nodup.sublist (List.Sublist.map _ List.filter_sublist)⟩

omit [DecidableEq κ] in
theorem keys_filterMap_sublist {μ : Type} (f : ν → Option μ) (l : List (κ × ν)) :
    ((l.filterMap fun e => (f e.2).map (e.1, ·)).map Prod.fst).Sublist (l.map Prod.fst) := by
  induction l with
  | nil => exact .slnil
  | cons e rest ih =>
    cases hf : f e.2 with
    | none => simpa [hf] using ih.cons e.1
    | some v => simpa [hf] using ih.cons_cons e.1

/-- The dictionary a loop over the entries fills: each key with the image
of its value, if it has one. -/
def filterMapValues {μ : Type} (d : Dict κ ν) (f : ν → Option μ) : Dict κ μ :=
  ⟨d.items.filterMap fun e => (f e.2).map (e.1, ·),
    d.nodup.sublist (keys_filterMap_sublist f d.items)⟩

def erase (d : Dict κ ν) (k : κ) : Dict κ ν := d.filterKeys (fun a => !decide (a = k))

/-- Drop the `n` oldest entries. -/
def dropFirst (d : Dict κ ν) (n : Nat) : Dict κ ν :=
  ⟨d.items.drop n, d.nodup.sublist (List.Sublist.map _ (List.drop_sublist n d.items))⟩

def keys (d : Dict κ ν) : List κ := d.items.map Prod.fst

def values (d : Dict κ ν) : List ν := d.items.map Prod.snd

/-- Equal as mappings; the insertion orders may differ. -/
def Same (d e : Dict κ ν) : Prop := ∀ k, d.get? k = e.get? k

/-- Every entry of `d` is one of `e`. -/
def Sub (d e : Dict κ ν) : Prop := ∀ k v, d.get? k = some v → e.get? k = some v

@[simp] theorem get?_empty (k : κ) : (empty : Dict κ ν).get? k = none := rfl

theorem get?_set (d : Dict κ ν) (k a : κ) (v : ν) :
    (d.set k v).get? a = if k = a then some v else d.get? a :=
  find_put k a v d.items

@[simp] theorem get?_set_self (d : Dict κ ν) (k : κ) (v : ν) :
    (d.set k v).get? k = some v := by
  simp [get?_set]

theorem get?_set_ne (d : Dict κ ν) {k a : κ} (v : ν) (h : k ≠ a) :
    (d.set k v).get? a = d.get? a := by
  simp [get?_set, h]

/-- A new key goes to the end. -/
theorem items_set_of_none {d : Dict κ ν} {k : κ} (h : d.get? k = none) (v : ν) :
    (d.set k v).items = d.items ++ [(k, v)] :=
  put_of_find_none v h

theorem get?_filterKeys (d : Dict κ ν) (p : κ → Bool) (a : κ) :
    (d.filterKeys p).get? a = if p a then d.get? a else none :=
  find_filter p a d.items

theorem get?_filterMapValues {μ : Type} (d : Dict κ ν) (f : ν → Option μ) (a : κ) :
    (d.filterMapValues f).get? a = (d.get? a).bind f :=
  find_filterMap f a d.nodup

theorem get?_erase (d : Dict κ ν) (k a : κ) :
    (d.erase k).get? a = if a = k then none else d.get? a := by
  rw [erase, get?_filterKeys]
  by_cases h : a = k <;> simp [h]

@[simp] theorem get?_erase_self (d : Dict κ ν) (k : κ) : (d.erase k).get? k = none := by
  simp [get?_erase]

theorem get?_erase_ne (d : Dict κ ν) {k a : κ} (h : a ≠ k) :
    (d.erase k).get? a = d.get? a := by
  simp [get?_erase, h]

theorem mem_items_iff (d : Dict κ ν) (k : κ) (v : ν) :
    (k, v) ∈ d.items ↔ d.get? k = some v :=
  ⟨find_of_mem d.nodup, mem_of_find⟩

theorem mem_values_iff (d : Dict κ ν) (v : ν) :
    v ∈ d.values ↔ ∃ k, d.get? k = some v := by
  simp only [values, List.mem_map, Prod.exists]
  constructor
  · rintro ⟨k, v', hm, rfl⟩
    exact ⟨k, (d.mem_items_iff k v').mp hm⟩
  · rintro ⟨k, hk⟩
    exact ⟨k, v, (d.mem_items_iff k v).mpr hk, rfl⟩

theorem mem_values_set {d : Dict κ ν} {k : κ} {v w : ν} (h : w ∈ (d.set k v).values) :
    w = v ∨ w ∈ d.values := by
  obtain ⟨a, ha⟩ := (mem_values_iff _ w).mp h
  rw [get?_set] at ha
  split at ha
  · cases ha
    exact .inl rfl
  · exact .inr ((mem_values_iff d w).mpr ⟨a, ha⟩)

/-- The sum over the values gains the image of a new entry. -/
theorem sum_values_set_none {M : Type} [AddCommMonoid M] (f : ν → M) {d : Dict κ ν} {k : κ}
    (v : ν) (h : d.get? k = none) :
    ((d.set k v).values.map f).sum = (d.values.map f).sum + f v := by
  simp [values, items_set_of_none h]

/-- The sum over the values trades the image of an overwritten entry. -/
theorem sum_values_set_some {M : Type} [AddCommMonoid M] (f : ν → M) {d : Dict κ ν} {k : κ}
    {old : ν} (v : ν) (h : d.get? k = some old) :
    ((d.set k v).values.map f).sum + f old = (d.values.map f).sum + f v := by
  obtain ⟨l, hn⟩ := d
  simp only [values, set, get?] at h ⊢
  clear hn
  induction l with
  | nil => cases h
  | cons e rest ih =>
    obtain ⟨k', v'⟩ := e
    by_cases hk : k' = k
    · subst hk
      simp only [find, if_true, Option.some.injEq] at h
      subst h
      simp only [put, if_true, List.map_cons, List.sum_cons]
      rw [add_comm (f v), add_assoc, add_comm (f v), ← add_assoc,
        add_comm ((rest.map Prod.snd).map f).sum]
    · simp only [find, hk, if_false] at h
      simp only [put, hk, if_false, List.map_cons, List.sum_cons, add_assoc, ih h]

theorem mem_keys_iff (d : Dict κ ν) (k : κ) : k ∈ d.keys ↔ d.get? k ≠ none := by
  rw [keys, Ne, get?, find_eq_none, not_not]

/-- A new key goes to the end. -/
theorem keys_set_of_none {d : Dict κ ν} {k : κ} (h : d.get? k = none) (v : ν) :
    (d.set k v).keys = d.keys ++ [k] := by
  rw [keys, items_set_of_none h, List.map_append]
  rfl

/-- An overwritten entry keeps its place. -/
theorem keys_set_of_some {d : Dict κ ν} {k : κ} {old : ν} (h : d.get? k = some old) (v : ν) :
    (d.set k v).keys = d.keys := by
  obtain ⟨l, hn⟩ := d
  simp only [keys, set, get?] at h ⊢
  clear hn
  induction l with
  | nil => cases h
  | cons e rest ih =>
    obtain ⟨k', v'⟩ := e
    by_cases hk : k' = k
    · subst hk
      simp [put]
    · simp only [find, hk, if_false] at h
      simp only [put, hk, if_false, List.map_cons, ih h]

theorem Sub.refl (d : Dict κ ν) : Sub d d := fun _ _ h => h

theorem Sub.trans {d e f : Dict κ ν} (h : Sub d e) (h' : Sub e f) : Sub d f :=
  fun k v hv => h' k v (h k v hv)

theorem Sub.erase (d : Dict κ ν) (k : κ) : Sub (d.erase k) d := by
  intro a v h
  rw [get?_erase] at h
  split at h
  · cases h
  · exact h

theorem Sub.dropFirst (d : Dict κ ν) (n : Nat) : Sub (d.dropFirst n) d := by
  intro k v h
  rw [← mem_items_iff] at h ⊢
  exact List.mem_of_mem_drop h

theorem Same.refl (d : Dict κ ν) : Same d d := fun _ => rfl

theorem Same.symm {d e : Dict κ ν} (h : Same d e) : Same e d := fun k => (h k).symm

theorem Same.trans {d e f : Dict κ ν} (h : Same d e) (h' : Same e f) : Same d f :=
  fun k => (h k).trans (h' k)

theorem Same.set {d e : Dict κ ν} (h : Same d e) (k : κ) (v : ν) :
    Same (d.set k v) (e.set k v) := by
  intro a
  rw [get?_set, get?_set, h a]

theorem Same.erase {d e : Dict κ ν} (h : Same d e) (k : κ) :
    Same (d.erase k) (e.erase k) := by
  intro a
  rw [get?_erase, get?_erase, h a]

/-- `d == e` on mappings. -/
def sameItems [DecidableEq ν] (d e : Dict κ ν) : Bool :=
  d.items.length == e.items.length && d.items.all fun (k, v) => decide (e.get? k = some v)

/-- As many entries, and a related one of `e` for each of `d`. -/
def Agree {μ : Type} (r : κ → ν → μ → Prop) (d : Dict κ ν) (e : Dict κ μ) : Prop :=
  d.items.length = e.items.length ∧
    ∀ k v, d.get? k = some v → ∃ w, e.get? k = some w ∧ r k v w

omit [DecidableEq κ] in
theorem length_keys (d : Dict κ ν) : d.keys.length = d.items.length := List.length_map _

/-- Entries that agree are of the same keys. -/
theorem Agree.none_iff {μ : Type} {r : κ → ν → μ → Prop} {d : Dict κ ν} {e : Dict κ μ}
    (h : Agree r d e) (k : κ) : d.get? k = none ↔ e.get? k = none := by
  have hsub : d.keys ⊆ e.keys := by
    intro a ha
    rw [mem_keys_iff] at ha ⊢
    obtain ⟨v, hv⟩ := Option.ne_none_iff_exists'.mp ha
    obtain ⟨w, hw, -⟩ := h.2 a v hv
    rw [hw]
    exact Option.some_ne_none w
  have hlen : e.keys.length ≤ d.keys.length := by
    rw [length_keys, length_keys]
    exact Nat.le_of_eq h.1.symm
  have hperm := (List.subperm_of_subset d.nodup hsub).perm_of_length_le hlen
  have hmem : k ∈ d.keys ↔ k ∈ e.keys := hperm.mem_iff
  rw [mem_keys_iff, mem_keys_iff] at hmem
  exact not_iff_not.mp hmem

/-- Agreement key by key. -/
theorem agree_iff {μ : Type} {r : κ → ν → μ → Prop} {d : Dict κ ν} {e : Dict κ μ} :
    Agree r d e ↔ ∀ k, Option.Rel (r k) (d.get? k) (e.get? k) := by
  constructor
  · intro h k
    cases hd : d.get? k with
    | none =>
      rw [(h.none_iff k).mp hd]
      exact .none
    | some v =>
      obtain ⟨w, hw, hr⟩ := h.2 k v hd
      rw [hw]
      exact .some hr
  · intro h
    constructor
    · have hmem : ∀ k, k ∈ d.keys ↔ k ∈ e.keys := by
        intro k
        rw [mem_keys_iff, mem_keys_iff]
        have hk := h k
        cases hd : d.get? k with
        | none =>
          rw [hd] at hk
          cases he : e.get? k with
          | none => exact ⟨fun hne => absurd rfl hne, fun hne => absurd rfl hne⟩
          | some w =>
            rw [he] at hk
            cases hk
        | some v =>
          rw [hd] at hk
          cases he : e.get? k with
          | none =>
            rw [he] at hk
            cases hk
          | some w =>
            constructor
            · intro _
              exact Option.some_ne_none w
            · intro _
              exact Option.some_ne_none v
      have hperm := (List.perm_ext_iff_of_nodup d.nodup e.nodup).mpr hmem
      have hlen := hperm.length_eq
      rwa [List.length_map, List.length_map] at hlen
    · intro k v hv
      have hk := h k
      rw [hv] at hk
      cases he : e.get? k with
      | none =>
        rw [he] at hk
        cases hk
      | some w =>
        rw [he] at hk
        cases hk with
        | some hr => exact ⟨w, rfl, hr⟩

/-- Related values set at one key keep the agreement. -/
theorem Agree.set {μ : Type} {r : κ → ν → μ → Prop} {d : Dict κ ν} {e : Dict κ μ}
    (h : Agree r d e) {k : κ} {v : ν} {w : μ} (hr : r k v w) : Agree r (d.set k v) (e.set k w) := by
  rw [agree_iff] at h ⊢
  intro a
  rw [get?_set, get?_set]
  by_cases hk : k = a
  · rw [if_pos hk, if_pos hk]
    exact .some (hk ▸ hr)
  · rw [if_neg hk, if_neg hk]
    exact h a

end Dict

end Py
