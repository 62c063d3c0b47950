import Mathlib.Data.List.Perm.Basic
import Mathlib.Data.List.Induction
import SynapseChannel.Lib.Dict

/-!
# Lib — Group

`defaultdict(list)` filled in one pass, and `Counter`: which keys they hold,
what stands under each, and what of them a permutation of the input keeps.
-/

namespace Py

variable {α β γ κ : Type} [DecidableEq κ]

/-- Each item's value under its key, in order. -/
def groupBy (key : α → κ) (val : α → β) (items : List α) : Dict κ (List β) :=
  items.foldl (fun d a => d.set (key a) ((d.get? (key a)).getD [] ++ [val a])) Dict.empty

/-- `Counter(items)`. -/
def tally (items : List κ) : Dict κ Nat :=
  items.foldl (fun d k => d.set k ((d.get? k).getD 0 + 1)) Dict.empty

section Group

variable {key : α → κ} {val : α → β} {items items' : List α}

theorem groupBy_concat (items : List α) (a : α) :
    groupBy key val (items ++ [a]) =
      (groupBy key val items).set (key a) (((groupBy key val items).get? (key a)).getD [] ++ [val a]) := by
  rw [groupBy, List.foldl_append]
  rfl

/-- What stands under a key: the values of its items. -/
theorem getD_groupBy (items : List α) (k : κ) :
    ((groupBy key val items).get? k).getD [] =
      (items.filter fun a => decide (key a = k)).map val := by
  induction items using List.reverseRecOn with
  | nil => rfl
  | append_singleton items a ih =>
    rw [groupBy_concat, List.filter_append, List.map_append]
    by_cases hk : key a = k
    · rw [hk, Dict.get?_set_self, Option.getD_some, ih]
      simp [hk]
    · rw [Dict.get?_set_ne _ _ hk, ih]
      simp [hk]

/-- A key is present once it has an item. -/
theorem get?_groupBy_ne_none (items : List α) (k : κ) :
    (groupBy key val items).get? k ≠ none ↔ ∃ a ∈ items, key a = k := by
  induction items using List.reverseRecOn with
  | nil => simp [groupBy]
  | append_singleton items a ih =>
    rw [groupBy_concat]
    by_cases hk : key a = k
    · rw [hk, Dict.get?_set_self]
      exact iff_of_true (Option.some_ne_none _) ⟨a, by simp, hk⟩
    · rw [Dict.get?_set_ne _ _ hk, ih]
      constructor
      · rintro ⟨b, hb, hbk⟩
        exact ⟨b, by simp [hb], hbk⟩
      · rintro ⟨b, hb, hbk⟩
        rcases List.mem_append.mp hb with hb | hb
        · exact ⟨b, hb, hbk⟩
        · rw [List.mem_singleton.mp hb] at hbk
          exact absurd hbk hk

theorem get?_groupBy_eq_some {k : κ} {values : List β}
    (h : (groupBy key val items).get? k = some values) :
    values = (items.filter fun a => decide (key a = k)).map val := by
  rw [← getD_groupBy, h]
  rfl

theorem get?_groupBy_of_mem {a : α} (h : a ∈ items) :
    (groupBy key val items).get? (key a) =
      some ((items.filter fun b => decide (key b = key a)).map val) := by
  obtain ⟨values, hvalues⟩ :=
    Option.ne_none_iff_exists'.mp ((get?_groupBy_ne_none items (key a)).mpr ⟨a, h, rfl⟩)
  rw [hvalues, get?_groupBy_eq_some hvalues]

theorem mem_keys_groupBy (items : List α) (k : κ) :
    k ∈ (groupBy key val items).keys ↔ ∃ a ∈ items, key a = k := by
  rw [Dict.mem_keys_iff, get?_groupBy_ne_none]

/-- The keys of one collection, in whatever order it comes. -/
theorem keys_groupBy_perm (h : items.Perm items') :
    (groupBy key val items).keys.Perm (groupBy key val items').keys := by
  refine (List.perm_ext_iff_of_nodup (Dict.nodup _) (Dict.nodup _)).mpr fun k => ?_
  show k ∈ (groupBy key val items).keys ↔ k ∈ (groupBy key val items').keys
  rw [mem_keys_groupBy, mem_keys_groupBy]
  simp only [h.mem_iff]

/-- The values under one key, in whatever order the items come. -/
theorem groupBy_perm (h : items.Perm items') {k : κ} {values values' : List β}
    (hvalues : (groupBy key val items).get? k = some values)
    (hvalues' : (groupBy key val items').get? k = some values') : values.Perm values' := by
  rw [get?_groupBy_eq_some hvalues, get?_groupBy_eq_some hvalues']
  exact (h.filter _).map val

/-- Each group has one item if and only if the keys tell the items apart. -/
theorem groupBy_single_iff (hnodup : items.Nodup) :
    (∀ k values, (groupBy key val items).get? k = some values → values.length ≤ 1) ↔
      ∀ a ∈ items, ∀ b ∈ items, key a = key b → a = b := by
  constructor
  · intro h a ha b hb hkey
    by_contra hne
    have hle := h (key a) _ (get?_groupBy_of_mem ha)
    have hsub : [a, b] ⊆ items.filter fun c => decide (key c = key a) := by
      intro c hc
      rcases List.mem_cons.mp hc with rfl | hc
      · simp [ha]
      · rw [List.mem_singleton.mp hc]
        simp [hb, hkey]
    have hlength := ((show [a, b].Nodup by simp [hne]).subperm hsub).length_le
    rw [List.length_map] at hle
    exact Nat.not_succ_le_self 1 (Nat.le_trans hlength hle)
  · intro h k values hvalues
    rw [get?_groupBy_eq_some hvalues, List.length_map]
    by_contra hlt
    obtain ⟨a, b, rest, heq⟩ : ∃ a b rest,
        (items.filter fun c => decide (key c = k)) = a :: b :: rest := by
      match hlist : items.filter fun c => decide (key c = k) with
      | [] => rw [hlist] at hlt; exact absurd (Nat.zero_le 1) hlt
      | [a] => rw [hlist] at hlt; exact absurd (Nat.le_refl 1) hlt
      | a :: b :: rest => exact ⟨a, b, rest, rfl⟩
    have ha : a ∈ items.filter fun c => decide (key c = k) := by rw [heq]; simp
    have hb : b ∈ items.filter fun c => decide (key c = k) := by rw [heq]; simp
    rw [List.mem_filter, decide_eq_true_eq] at ha hb
    have hab := h a ha.1 b hb.1 (ha.2.trans hb.2.symm)
    have hfilter := hnodup.filter fun c => decide (key c = k)
    rw [heq, hab] at hfilter
    exact absurd hfilter (by simp)

end Group

section Tally

variable {items items' : List κ}

theorem tally_concat (items : List κ) (k : κ) :
    tally (items ++ [k]) = (tally items).set k (((tally items).get? k).getD 0 + 1) := by
  rw [tally, List.foldl_append]
  rfl

theorem getD_tally (items : List κ) (k : κ) : ((tally items).get? k).getD 0 = items.count k := by
  induction items using List.reverseRecOn with
  | nil => rfl
  | append_singleton items a ih =>
    rw [tally_concat, List.count_append]
    by_cases hk : a = k
    · rw [hk, Dict.get?_set_self, Option.getD_some, ih]
      simp
    · rw [Dict.get?_set_ne _ _ hk, ih]
      simp [hk]

theorem get?_tally_ne_none (items : List κ) (k : κ) : (tally items).get? k ≠ none ↔ k ∈ items := by
  induction items using List.reverseRecOn with
  | nil => simp [tally]
  | append_singleton items a ih =>
    rw [tally_concat]
    by_cases hk : a = k
    · rw [hk, Dict.get?_set_self]
      simp
    · rw [Dict.get?_set_ne _ _ hk, ih]
      simp [Ne.symm hk]

theorem get?_tally_eq_some {k : κ} {n : Nat} (h : (tally items).get? k = some n) :
    n = items.count k := by
  rw [← getD_tally, h]
  rfl

theorem mem_keys_tally (items : List κ) (k : κ) : k ∈ (tally items).keys ↔ k ∈ items := by
  rw [Dict.mem_keys_iff, get?_tally_ne_none]

theorem keys_tally_perm (h : items.Perm items') : (tally items).keys.Perm (tally items').keys := by
  refine (List.perm_ext_iff_of_nodup (Dict.nodup _) (Dict.nodup _)).mpr fun k => ?_
  show k ∈ (tally items).keys ↔ k ∈ (tally items').keys
  rw [mem_keys_tally, mem_keys_tally, h.mem_iff]

end Tally

/-- What two dictionaries with the same keys give, entry by entry. -/
theorem Dict.filterMap_items_perm {ν ν' : Type} {d : Dict κ ν} {e : Dict κ ν'}
    {f : κ × ν → Option γ} {g : κ × ν' → Option γ} (hkeys : d.keys.Perm e.keys)
    (h : ∀ k v w, d.get? k = some v → e.get? k = some w → f (k, v) = g (k, w)) :
    (d.items.filterMap f).Perm (e.items.filterMap g) := by
  have hd : d.items.filterMap f = d.keys.filterMap fun k => (d.get? k).bind fun v => f (k, v) := by
    rw [Dict.keys, List.filterMap_map]
    refine List.filterMap_congr fun entry hentry => ?_
    rw [Function.comp_apply, (Dict.mem_items_iff d _ _).mp hentry]
    rfl
  have he : e.items.filterMap g = e.keys.filterMap fun k => (e.get? k).bind fun v => g (k, v) := by
    rw [Dict.keys, List.filterMap_map]
    refine List.filterMap_congr fun entry hentry => ?_
    rw [Function.comp_apply, (Dict.mem_items_iff e _ _).mp hentry]
    rfl
  rw [hd, he]
  refine (hkeys.filterMap _).trans (List.Perm.of_eq (List.filterMap_congr fun k hk => ?_))
  obtain ⟨w, hw⟩ := Option.ne_none_iff_exists'.mp ((Dict.mem_keys_iff e k).mp hk)
  obtain ⟨v, hv⟩ :=
    Option.ne_none_iff_exists'.mp ((Dict.mem_keys_iff d k).mp (hkeys.mem_iff.mpr hk))
  rw [hv, hw]
  exact h k v w hv hw

end Py
