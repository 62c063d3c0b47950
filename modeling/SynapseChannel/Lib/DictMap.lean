import SynapseChannel.Lib.Dict

/-!
# Lib — DictMap

A dictionary with a function applied to each value: the keys and their order
stay, so every operation that only looks at keys commutes with it.
-/

namespace Py

namespace Dict

variable {κ ν μ : Type} [DecidableEq κ]

omit [DecidableEq κ] in
theorem ext_items {d e : Dict κ ν} (h : d.items = e.items) : d = e := by
  cases d
  cases e
  cases h
  rfl

/-- The dictionary with `f` applied to each value. -/
def mapValues (f : ν → μ) (d : Dict κ ν) : Dict κ μ := d.filterMapValues fun v => some (f v)

omit [DecidableEq κ] in
theorem items_mapValues (f : ν → μ) (d : Dict κ ν) :
    (d.mapValues f).items = d.items.map fun e => (e.1, f e.2) := by
  unfold mapValues filterMapValues
  dsimp only
  rw [← List.filterMap_eq_map]
  rfl

omit [DecidableEq κ] in
@[simp] theorem mapValues_empty (f : ν → μ) : (empty : Dict κ ν).mapValues f = empty := rfl

@[simp] theorem get?_mapValues (f : ν → μ) (d : Dict κ ν) (k : κ) :
    (d.mapValues f).get? k = (d.get? k).map f := by
  unfold mapValues
  rw [get?_filterMapValues]
  cases d.get? k <;> rfl

omit [DecidableEq κ] in
@[simp] theorem length_mapValues (f : ν → μ) (d : Dict κ ν) :
    (d.mapValues f).items.length = d.items.length := by
  rw [items_mapValues, List.length_map]

theorem mapValues_set (f : ν → μ) (d : Dict κ ν) (k : κ) (v : ν) :
    (d.set k v).mapValues f = (d.mapValues f).set k (f v) := by
  have hput : ∀ items : List (κ × ν), (put k v items).map (fun e => (e.1, f e.2)) =
      put k (f v) (items.map fun e => (e.1, f e.2)) := by
    intro items
    induction items with
    | nil => rfl
    | cons e rest ih =>
      unfold put
      by_cases hkey : e.1 = k
      · simp [hkey]
      · simp [hkey, ih]
  apply ext_items
  rw [items_mapValues]
  show _ = put k (f v) (d.mapValues f).items
  rw [items_mapValues]
  exact hput d.items

theorem mapValues_erase (f : ν → μ) (d : Dict κ ν) (k : κ) :
    (d.erase k).mapValues f = (d.mapValues f).erase k := by
  apply ext_items
  rw [items_mapValues]
  show _ = (d.mapValues f).items.filter fun e => !decide (e.1 = k)
  rw [items_mapValues, List.filter_map]
  rfl

omit [DecidableEq κ] in
theorem mapValues_dropFirst (f : ν → μ) (d : Dict κ ν) (n : Nat) :
    (d.dropFirst n).mapValues f = (d.mapValues f).dropFirst n := by
  apply ext_items
  rw [items_mapValues]
  show _ = (d.mapValues f).items.drop n
  rw [items_mapValues]
  exact List.map_drop

/-- A dictionary is unchanged exactly when each of its values is. -/
theorem mapValues_eq_self {f : ν → ν} {d : Dict κ ν} :
    d.mapValues f = d ↔ ∀ k v, d.get? k = some v → f v = v := by
  constructor
  · intro h k v hget
    have hmapped := get?_mapValues f d k
    rw [h, hget] at hmapped
    exact (Option.some.inj hmapped).symm
  · intro h
    apply ext_items
    rw [items_mapValues]
    refine (List.map_congr_left ?_).trans (List.map_id d.items)
    intro e hmem
    rw [h e.1 e.2 ((d.mem_items_iff _ _).mp hmem)]
    rfl

end Dict

end Py
