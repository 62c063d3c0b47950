import SynapseChannel.Lib.Dict
import SynapseChannel.Lib.Outcome

/-!
# Lib — DictMove

Changing the keys of a dictionary one row at a time, under a unique key.
When the new keys are distinct and none of them is another row's old key,
every move succeeds and the values are those of the old keys.
-/

namespace Py

namespace Dict

open Outcome

variable {κ ν : Type} [DecidableEq κ]

/-- Give the row of `old` the key `new`. A key another row has is an error. -/
def move (d : Dict κ ν) (old new : κ) : Except String (Dict κ ν) :=
  match d.get? old with
  | none => .ok d
  | some v =>
    if new ≠ old ∧ d.contains new then .error "UNIQUE constraint failed"
    else .ok ((d.erase old).set new v)

/-- The rows of a dictionary of which those in `done` have changed keys. -/
def Moved (ρ : κ → κ) (done rest : List (κ × ν)) (d : Dict κ ν) : Prop :=
  ∀ a v, d.get? a = some v ↔ (∃ k, (k, v) ∈ done ∧ ρ k = a) ∨ (a, v) ∈ rest

theorem Moved.start (ρ : κ → κ) (d : Dict κ ν) : Moved ρ [] d.items d := by
  intro a v
  rw [← mem_items_iff]
  simp

/-- A row that keeps its key. -/
theorem Moved.keep {ρ : κ → κ} {done rest : List (κ × ν)} {k : κ} {v : ν} {d : Dict κ ν}
    (h : Moved ρ done ((k, v) :: rest) d) (hkeep : ρ k = k) :
    Moved ρ (done ++ [(k, v)]) rest d := by
  intro a w
  rw [h a w]
  simp only [List.mem_cons, List.mem_append, List.not_mem_nil, or_false, Prod.mk.injEq]
  constructor
  · rintro (⟨k', hk', hρ⟩ | ⟨rfl, rfl⟩ | hrest)
    · exact .inl ⟨k', .inl hk', hρ⟩
    · exact .inl ⟨a, .inr ⟨rfl, rfl⟩, hkeep⟩
    · exact .inr hrest
  · rintro (⟨k', hk' | ⟨rfl, rfl⟩, hρ⟩ | hrest)
    · exact .inl ⟨k', hk', hρ⟩
    · exact .inr (.inl ⟨hρ.symm.trans hkeep, rfl⟩)
    · exact .inr (.inr hrest)

/-- The keys of the rows, which one row's move tells apart. -/
structure Movable (ρ : κ → κ) (items : List (κ × ν)) : Prop where
  nodup : (items.map Prod.fst).Nodup
  inj : ∀ k ∈ items.map Prod.fst, ∀ k' ∈ items.map Prod.fst, ρ k = ρ k' → k = k'
  fresh : ∀ k ∈ items.map Prod.fst, ρ k ∈ items.map Prod.fst → ρ k = k

theorem Moved.move {ρ : κ → κ} {done rest : List (κ × ν)} {k : κ} {v : ν} {d : Dict κ ν}
    (h : Moved ρ done ((k, v) :: rest) d) (hmovable : Movable ρ (done ++ (k, v) :: rest))
    (hne : ρ k ≠ k) :
    ∃ next, d.move k (ρ k) = .ok next ∧ Moved ρ (done ++ [(k, v)]) rest next := by
  obtain ⟨hnodup, hinj, hfresh⟩ := hmovable
  have hk : k ∈ (done ++ (k, v) :: rest).map Prod.fst := by simp
  have hdone : ∀ k' w, (k', w) ∈ done → k' ∈ (done ++ (k, v) :: rest).map Prod.fst := by
    intro k' w hk'
    exact List.mem_map_of_mem (List.mem_append_left _ hk')
  have hrest : ∀ k' w, (k', w) ∈ rest → k' ∈ (done ++ (k, v) :: rest).map Prod.fst := by
    intro k' w hk'
    exact List.mem_map_of_mem (List.mem_append_right _ (List.mem_cons_of_mem _ hk'))
  rw [List.map_append, List.map_cons, List.nodup_append] at hnodup
  have hdone_ne : ∀ k' w, (k', w) ∈ done → k' ≠ k := fun k' w hk' =>
    hnodup.2.2 k' (List.mem_map_of_mem hk') k List.mem_cons_self
  have hrest_ne : ∀ k' w, (k', w) ∈ rest → k' ≠ k := by
    intro k' w hk' heq
    have hmem : k' ∈ rest.map Prod.fst := List.mem_map_of_mem hk'
    rw [heq] at hmem
    exact (List.nodup_cons.mp hnodup.2.1).1 hmem
  have hold : d.get? k = some v := (h k v).mpr (.inr List.mem_cons_self)
  have hfree : d.get? (ρ k) = none := by
    cases hnew : d.get? (ρ k) with
    | none => rfl
    | some w =>
      rcases (h (ρ k) w).mp hnew with ⟨k', hk', hρ⟩ | hmem
      · exact absurd (hinj k' (hdone k' w hk') k hk hρ) (hdone_ne k' w hk')
      · rcases List.mem_cons.mp hmem with heq | hmem
        · exact absurd (Prod.mk.inj heq).1 hne
        · exact absurd (hfresh k hk (hrest _ w hmem)) hne
  refine ⟨(d.erase k).set (ρ k) v, ?_, ?_⟩
  · unfold Dict.move
    rw [hold]
    have hcontains : ¬(ρ k ≠ k ∧ d.contains (ρ k) = true) := by
      rw [contains, hfree]
      simp
    exact if_neg hcontains
  · intro a w
    rw [get?_set, get?_erase]
    by_cases hnew : ρ k = a
    · subst hnew
      rw [if_pos rfl]
      constructor
      · intro hw
        cases hw
        exact .inl ⟨k, by simp, rfl⟩
      · rintro (⟨k', hk', hρ⟩ | hmem)
        · rcases List.mem_append.mp hk' with hk' | hk'
          · exact absurd (hinj k' (hdone k' w hk') k hk hρ) (hdone_ne k' w hk')
          · rw [(Prod.mk.inj (List.mem_singleton.mp hk')).2]
        · exact absurd (hfresh k hk (hrest _ w hmem)) hne
    · rw [if_neg hnew]
      by_cases ha : a = k
      · subst ha
        rw [if_pos rfl]
        constructor
        · intro hw
          cases hw
        · rintro (⟨k', hk', hρ⟩ | hmem)
          · rcases List.mem_append.mp hk' with hk' | hk'
            · have hkeys := hdone k' w hk'
              have hsame := hfresh k' hkeys (by rw [hρ]; exact hk)
              exact absurd (hsame.symm.trans hρ) (hdone_ne k' w hk')
            · have heq := (Prod.mk.inj (List.mem_singleton.mp hk')).1
              rw [heq] at hρ
              exact absurd hρ hne
          · exact absurd rfl (hrest_ne a w hmem)
      · rw [if_neg ha, h a w]
        constructor
        · rintro (⟨k', hk', hρ⟩ | hmem)
          · exact .inl ⟨k', List.mem_append_left _ hk', hρ⟩
          · rcases List.mem_cons.mp hmem with heq | hmem
            · exact absurd (Prod.mk.inj heq).1 ha
            · exact .inr hmem
        · rintro (⟨k', hk', hρ⟩ | hmem)
          · rcases List.mem_append.mp hk' with hk' | hk'
            · exact .inl ⟨k', hk', hρ⟩
            · have heq := (Prod.mk.inj (List.mem_singleton.mp hk')).1
              rw [heq] at hρ
              exact absurd hρ hnew
          · exact .inr (List.mem_cons_of_mem _ hmem)

/-- A pass over the rows that moves each one to its new key. -/
theorem foldlM_moved {ρ : κ → κ} {f : Dict κ ν → κ × ν → Except String (Dict κ ν)}
    {done rest : List (κ × ν)} {d : Dict κ ν} (h : Moved ρ done rest d)
    (hmovable : Movable ρ (done ++ rest))
    (hf : ∀ item ∈ rest, ∀ e, f e item =
      if ρ item.1 = item.1 then .ok e else e.move item.1 (ρ item.1)) :
    ∃ next, rest.foldlM f d = .ok next ∧ Moved ρ (done ++ rest) [] next := by
  induction rest generalizing done d with
  | nil => exact ⟨d, rfl, by rwa [List.append_nil]⟩
  | cons item rest ih =>
    obtain ⟨k, v⟩ := item
    have hshift : done ++ (k, v) :: rest = (done ++ [(k, v)]) ++ rest := by simp
    have hlater : ∀ item ∈ rest, ∀ e, f e item =
        if ρ item.1 = item.1 then .ok e else e.move item.1 (ρ item.1) := fun item hitem =>
      hf item (List.mem_cons_of_mem _ hitem)
    have hfirst := hf (k, v) List.mem_cons_self d
    by_cases hkeep : ρ k = k
    · rw [if_pos hkeep] at hfirst
      obtain ⟨next, hnext, hmoved⟩ := ih (h.keep hkeep) (hshift ▸ hmovable) hlater
      refine ⟨next, ?_, hshift ▸ hmoved⟩
      rw [List.foldlM_cons]
      exact bind_of_ok hfirst hnext
    · rw [if_neg hkeep] at hfirst
      obtain ⟨mid, hmid, hmoved⟩ := h.move hmovable hkeep
      obtain ⟨next, hnext, hmoved⟩ := ih hmoved (hshift ▸ hmovable) hlater
      refine ⟨next, ?_, hshift ▸ hmoved⟩
      rw [List.foldlM_cons]
      exact bind_of_ok (hfirst.trans hmid) hnext

end Dict

end Py
