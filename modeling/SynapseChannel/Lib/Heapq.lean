import Mathlib.Data.List.Perm.Basic
import Mathlib.Tactic.Common

/-!
# Lib — Heapq

The array-backed binary min-heap of the `heapq` module over a strict
comparison `lt`. Moving the hole up or down is a swap of the new item
with its neighbour, so every operation permutes the array.

The order results ask for a total preorder on the items in the heap
only (`Ordering lt P`), because the comparison of a tuple that starts
with a float is not one on all tuples.
-/

namespace Py.Heapq

variable {α : Type} (lt : α → α → Bool)

/-- Move the item at `pos` up towards `startpos` while it is smaller
than its parent. -/
def siftdown (startpos : Nat) : Nat → Array α → Nat → Array α
  | 0, heap, _ => heap
  | fuel + 1, heap, pos =>
    if h : startpos < pos ∧ pos < heap.size then
      if lt heap[pos] heap[(pos - 1) / 2] then
        siftdown startpos fuel (heap.swap pos ((pos - 1) / 2)) ((pos - 1) / 2)
      else heap
    else heap

/-- The child of `pos` that moves up: the right one unless the left one
is smaller. -/
def smallerChild (heap : Array α) (pos : Nat) : Nat :=
  if h : 2 * pos + 2 < heap.size then
    if lt heap[2 * pos + 1] heap[2 * pos + 2] then 2 * pos + 1 else 2 * pos + 2
  else 2 * pos + 1

/-- Bubble the smaller child up until a leaf is hit; the answer is the
array and the leaf's index. -/
def descend : Nat → Array α → Nat → Array α × Nat
  | 0, heap, pos => (heap, pos)
  | fuel + 1, heap, pos =>
    if h : pos < heap.size ∧ smallerChild lt heap pos < heap.size then
      descend fuel (heap.swap pos (smallerChild lt heap pos)) (smallerChild lt heap pos)
    else (heap, pos)

def siftup (heap : Array α) (pos : Nat) : Array α :=
  let leaf := descend lt heap.size heap pos
  siftdown lt pos leaf.2 leaf.1 leaf.2

def heappush (heap : Array α) (item : α) : Array α :=
  siftdown lt 0 heap.size (heap.push item) heap.size

/-- The smallest item and the heap without it. -/
def heappop (heap : Array α) : Option (α × Array α) :=
  match heap.back?, heap.pop with
  | none, _ => none
  | some lastelt, rest =>
    if h : 0 < rest.size then some (rest[0], siftup lt (rest.set 0 lastelt) 0)
    else some (lastelt, rest)

/-- `siftup` at `n - 1`, …, `0`. -/
def heapifyFrom : Nat → Array α → Array α
  | 0, heap => heap
  | n + 1, heap => heapifyFrom n (siftup lt heap n)

def heapify (heap : Array α) : Array α := heapifyFrom lt (heap.size / 2) heap

/-- Pop while the head is due; the popped items in order, and the rest. -/
def popWhile (due : α → Bool) : Nat → Array α → List α × Array α
  | 0, heap => ([], heap)
  | fuel + 1, heap =>
    match heap[0]? with
    | none => ([], heap)
    | some head =>
      if due head then
        match heappop lt heap with
        | none => ([], heap)
        | some (item, rest) =>
          let r := popWhile due fuel rest
          (item :: r.1, r.2)
      else ([], heap)

/-! ## Permutation -/

open List in
theorem siftdown_perm (startpos fuel : Nat) (heap : Array α) (pos : Nat) :
    (siftdown lt startpos fuel heap pos).toList ~ heap.toList := by
  induction fuel generalizing heap pos with
  | zero => exact Perm.refl _
  | succ fuel ih =>
    rw [siftdown]
    split
    · split
      · exact (ih _ _).trans (Array.swap_perm _ _).toList
      · exact Perm.refl _
    · exact Perm.refl _

open List in
theorem descend_perm (fuel : Nat) (heap : Array α) (pos : Nat) :
    (descend lt fuel heap pos).1.toList ~ heap.toList := by
  induction fuel generalizing heap pos with
  | zero => exact Perm.refl _
  | succ fuel ih =>
    rw [descend]
    split
    · exact (ih _ _).trans (Array.swap_perm _ _).toList
    · exact Perm.refl _

open List in
theorem siftup_perm (heap : Array α) (pos : Nat) :
    (siftup lt heap pos).toList ~ heap.toList :=
  (siftdown_perm lt _ _ _ _).trans (descend_perm lt _ _ _)

open List in
theorem heappush_perm (heap : Array α) (item : α) :
    (heappush lt heap item).toList ~ item :: heap.toList := by
  refine (siftdown_perm lt _ _ _ _).trans ?_
  rw [Array.toList_push]
  exact perm_append_singleton _ _

open List in
theorem heapifyFrom_perm (n : Nat) (heap : Array α) :
    (heapifyFrom lt n heap).toList ~ heap.toList := by
  induction n generalizing heap with
  | zero => exact Perm.refl _
  | succ n ih => exact (ih _).trans (siftup_perm lt _ _)

open List in
theorem heapify_perm (heap : Array α) : (heapify lt heap).toList ~ heap.toList :=
  heapifyFrom_perm lt _ _

open List in
theorem heappop_perm {heap : Array α} {item : α} {rest : Array α}
    (h : heappop lt heap = some (item, rest)) : heap.toList ~ item :: rest.toList := by
  by_cases h0 : heap.size = 0
  · rw [Array.eq_empty_of_size_eq_zero h0] at h
    simp [heappop] at h
  · obtain ⟨front, last, rfl⟩ := Array.eq_push_of_size_ne_zero h0
    simp only [heappop, Array.back?_push, Array.pop_push] at h
    split at h
    · rename_i hpos
      simp only [Option.some.injEq, Prod.mk.injEq] at h
      obtain ⟨rfl, rfl⟩ := h
      have hs := siftup_perm lt (front.set 0 last) 0
      rw [Array.toList_push]
      obtain ⟨l⟩ := front
      cases l with
      | nil => simp at hpos
      | cons a l =>
        simp only [List.set_toArray, List.set_cons_zero] at hs
        simp only [List.getElem_toArray, List.getElem_cons_zero]
        calc a :: l ++ [last] ~ last :: (a :: l) := perm_append_singleton _ _
          _ ~ a :: last :: l := Perm.swap _ _ _
          _ ~ _ := (hs.symm).cons a
    · rename_i hpos
      simp only [Option.some.injEq, Prod.mk.injEq] at h
      obtain ⟨rfl, rfl⟩ := h
      have : front = #[] := by
        apply Array.eq_empty_of_size_eq_zero
        omega
      subst this
      simp

open List in
theorem popWhile_perm (due : α → Bool) (fuel : Nat) (heap : Array α) :
    heap.toList ~ (popWhile lt due fuel heap).1 ++ (popWhile lt due fuel heap).2.toList := by
  induction fuel generalizing heap with
  | zero => exact Perm.refl _
  | succ fuel ih =>
    rw [popWhile]
    split
    · exact Perm.refl _
    · split
      · split
        · exact Perm.refl _
        · rename_i item rest hpop
          exact (heappop_perm lt hpop).trans ((ih rest).cons item)
      · exact Perm.refl _

/-! ## Order -/

/-- On the items satisfying `P`, `lt` is the strict part of a total
preorder. -/
structure Ordering (P : α → Prop) : Prop where
  asymm : ∀ {a b}, P a → P b → lt a b = true → lt b a = false
  trans : ∀ {a b c}, P a → P b → P c → lt b a = false → lt c b = false → lt c a = false

theorem Ordering.refl {P : α → Prop} (o : Ordering lt P) {a : α} (ha : P a) :
    lt a a = false := by
  cases h : lt a a with
  | false => rfl
  | true => exact (o.asymm ha ha h).symm.trans h |>.symm

def AllItems (P : α → Prop) (heap : Array α) : Prop := ∀ x ∈ heap.toList, P x

theorem AllItems.at {P : α → Prop} {heap : Array α} (h : AllItems P heap) {i : Nat} {x : α}
    (hx : heap[i]? = some x) : P x :=
  h x (Array.mem_toList_iff.mpr (Array.mem_of_getElem? hx))

open List in
theorem AllItems.perm {P : α → Prop} {heap heap' : Array α} (h : AllItems P heap)
    (hp : heap'.toList ~ heap.toList) : AllItems P heap' :=
  fun x hx => h x (hp.mem_iff.mp hx)

/-- The item at `p`, when both are in range, is not after the one at `i`. -/
def NotAfter (heap : Array α) (p i : Nat) : Prop :=
  ∀ x y, heap[p]? = some x → heap[i]? = some y → lt y x = false

/-- Every parent from index `s` on is in order with its children. -/
def HeapFrom (s : Nat) (heap : Array α) : Prop :=
  ∀ i, 0 < i → s ≤ (i - 1) / 2 → NotAfter lt heap ((i - 1) / 2) i

def IsHeap (heap : Array α) : Prop := HeapFrom lt 0 heap

/-- `pos` lies in the subtree of `s`. -/
inductive Below (s : Nat) : Nat → Prop
  | root : Below s s
  | child {c : Nat} : 0 < c → Below s ((c - 1) / 2) → Below s c

theorem Below.le {s pos : Nat} (h : Below s pos) : s ≤ pos := by
  induction h with
  | root => exact Nat.le_refl _
  | child _ _ ih => omega

theorem Below.parent {s pos : Nat} (h : Below s pos) (hlt : s < pos) :
    Below s ((pos - 1) / 2) := by
  cases h with
  | root => omega
  | child _ hp => exact hp

/-- What `siftdown` needs: the pairs are in order except the one of
`pos` with its parent, over which the children of `pos` are in order. -/
structure UpReady (s : Nat) (heap : Array α) (pos : Nat) : Prop where
  except : ∀ i, 0 < i → s ≤ (i - 1) / 2 → i ≠ pos → NotAfter lt heap ((i - 1) / 2) i
  grand : 0 < pos → s ≤ (pos - 1) / 2 → ∀ c, 0 < c → (c - 1) / 2 = pos →
    NotAfter lt heap ((pos - 1) / 2) c
  path : Below s pos

/-- What `descend` keeps: as `UpReady`, and the pairs of `pos` with its
children are open as well. -/
structure DownReady (s : Nat) (heap : Array α) (pos : Nat) : Prop where
  except : ∀ i, 0 < i → s ≤ (i - 1) / 2 → i ≠ pos → (i - 1) / 2 ≠ pos →
    NotAfter lt heap ((i - 1) / 2) i
  grand : 0 < pos → s ≤ (pos - 1) / 2 → ∀ c, 0 < c → (c - 1) / 2 = pos →
    NotAfter lt heap ((pos - 1) / 2) c
  path : Below s pos

section Sift

variable {lt} {P : α → Prop} (o : Ordering lt P)

theorem swap_get_left {heap : Array α} {i j : Nat} (hi : i < heap.size) (hj : j < heap.size)
    (hij : i ≠ j) : (heap.swap i j)[i]? = heap[j]? := by
  simp [Array.getElem?_swap, hij.symm, hj]

theorem swap_get_right {heap : Array α} {i j : Nat} (hi : i < heap.size) (hj : j < heap.size) :
    (heap.swap i j)[j]? = heap[i]? := by
  simp [Array.getElem?_swap, hi]

theorem swap_get_ne {heap : Array α} {i j k : Nat} (hi : i < heap.size) (hj : j < heap.size)
    (hki : k ≠ i) (hkj : k ≠ j) : (heap.swap i j)[k]? = heap[k]? := by
  simp [Array.getElem?_swap, hki.symm, hkj.symm]

include o in
theorem UpReady.step {s : Nat} {heap : Array α} {pos : Nat} (all : AllItems P heap)
    (h : UpReady lt s heap pos) (hs : s < pos) (hpos : pos < heap.size)
    (hp : (pos - 1) / 2 < heap.size) (hlt : lt heap[pos] heap[(pos - 1) / 2] = true) :
    UpReady lt s (heap.swap pos ((pos - 1) / 2)) ((pos - 1) / 2) := by
  have hpath := h.path.parent hs
  have hsp := hpath.le
  have hne : pos ≠ (pos - 1) / 2 := by omega
  have hgp : heap[pos]? = some heap[pos] := Array.getElem?_eq_getElem hpos
  have hgq : heap[(pos - 1) / 2]? = some heap[(pos - 1) / 2] := Array.getElem?_eq_getElem hp
  have hle := o.asymm (all.at hgp) (all.at hgq) hlt
  refine ⟨?_, ?_, hpath⟩
  · intro i hi0 hsi hip x y hx hy
    by_cases h1 : i = pos
    · subst h1
      rw [swap_get_right hpos hp, hgp] at hx
      rw [swap_get_left hpos hp hne, hgq] at hy
      cases hx
      cases hy
      -- the old parent now sits under the smaller item
      exact hle
    · rw [swap_get_ne hpos hp h1 hip] at hy
      by_cases h2 : (i - 1) / 2 = pos
      · rw [h2, swap_get_left hpos hp hne] at hx
        exact h.grand (by omega) hsp i hi0 h2 x y hx hy
      · by_cases h3 : (i - 1) / 2 = (pos - 1) / 2
        · rw [h3, swap_get_right hpos hp, hgp] at hx
          cases hx
          have hib := h.except i hi0 hsi h1 _ y (by rw [h3]; exact hgq) hy
          exact o.trans (all.at hgp) (all.at hgq) (all.at hy) hle hib
        · rw [swap_get_ne hpos hp h2 h3] at hx
          exact h.except i hi0 hsi h1 x y hx hy
  · intro hq0 hsq c hc0 hcp x y hx hy
    rw [swap_get_ne hpos hp (by omega) (by omega)] at hx
    have hqx := h.except ((pos - 1) / 2) hq0 hsq hne.symm x _ hx hgq
    by_cases h1 : c = pos
    · subst h1
      rw [swap_get_left hpos hp hne, hgq] at hy
      cases hy
      exact hqx
    · rw [swap_get_ne hpos hp h1 (by omega)] at hy
      have hcy := h.except c hc0 (by omega) h1 _ y (by rw [hcp]; exact hgq) hy
      exact o.trans (all.at hx) (all.at hgq) (all.at hy) hqx hcy

theorem UpReady.finish {s : Nat} {heap : Array α} {pos : Nat} (h : UpReady lt s heap pos)
    (hstop : s < pos → NotAfter lt heap ((pos - 1) / 2) pos) : HeapFrom lt s heap := by
  intro i hi0 hsi
  by_cases hip : i = pos
  · subst hip
    exact hstop (by omega)
  · exact h.except i hi0 hsi hip

include o in
theorem siftdown_heap {s : Nat} (fuel : Nat) {heap : Array α} {pos : Nat}
    (all : AllItems P heap) (hf : pos ≤ fuel) (h : UpReady lt s heap pos) :
    HeapFrom lt s (siftdown lt s fuel heap pos) := by
  induction fuel generalizing heap pos with
  | zero => exact h.finish fun hs => by omega
  | succ fuel ih =>
    rw [siftdown]
    split
    · rename_i hb
      split
      · rename_i hlt
        refine ih ?_ (by omega) (h.step o all hb.1 hb.2 (by omega) hlt)
        exact all.perm (Array.swap_perm _ _).toList
      · rename_i hlt
        refine h.finish fun _ x y hx hy => ?_
        rw [Array.getElem?_eq_getElem (by omega)] at hx hy
        cases hx
        cases hy
        simpa using hlt
    · rename_i hb
      refine h.finish fun hs x y _ hy => ?_
      rw [Array.getElem?_eq_none (by omega)] at hy
      cases hy

theorem smallerChild_cases (heap : Array α) (pos : Nat) :
    smallerChild lt heap pos = 2 * pos + 1 ∨
      smallerChild lt heap pos = 2 * pos + 2 ∧ 2 * pos + 2 < heap.size := by
  rw [smallerChild]
  split
  · split
    · exact .inl rfl
    · rename_i h _
      exact .inr ⟨rfl, h⟩
  · exact .inl rfl

include o in
/-- The child that moves up is not after its sibling. -/
theorem smallerChild_least {heap : Array α} {pos : Nat} (all : AllItems P heap) {c : Nat}
    (hc0 : 0 < c) (hcp : (c - 1) / 2 = pos) :
    NotAfter lt heap (smallerChild lt heap pos) c := by
  intro x y hx hy
  have hc : c = 2 * pos + 1 ∨ c = 2 * pos + 2 := by omega
  have hcs : c < heap.size := (Array.getElem?_eq_some_iff.mp hy).1
  rw [smallerChild] at hx
  split at hx
  · rename_i hr
    split at hx
    · rename_i hlt
      rcases hc with rfl | rfl
      · rw [hx] at hy
        cases hy
        exact o.refl lt (all.at hx)
      · rw [Array.getElem?_eq_getElem (by omega)] at hx hy
        have hPx := all.at (Array.getElem?_eq_getElem (by omega : 2 * pos + 1 < heap.size))
        have hPy := all.at (Array.getElem?_eq_getElem (by omega : 2 * pos + 2 < heap.size))
        cases hx
        cases hy
        exact o.asymm hPx hPy hlt
    · rename_i hlt
      rcases hc with rfl | rfl
      · rw [Array.getElem?_eq_getElem (by omega)] at hx hy
        cases hx
        cases hy
        simpa using hlt
      · rw [hx] at hy
        cases hy
        exact o.refl lt (all.at hx)
  · rcases hc with rfl | rfl
    · rw [hx] at hy
      cases hy
      exact o.refl lt (all.at hx)
    · omega

include o in
theorem DownReady.step {s : Nat} {heap : Array α} {pos c : Nat} (all : AllItems P heap)
    (h : DownReady lt s heap pos) (hpos : pos < heap.size)
    (hcdef : smallerChild lt heap pos = c) (hc : c < heap.size) :
    DownReady lt s (heap.swap pos c) c := by
  have hcc : c = 2 * pos + 1 ∨ c = 2 * pos + 2 := by
    rcases @smallerChild_cases _ lt heap pos with h1 | h1 <;> omega
  have hpc : (c - 1) / 2 = pos := by omega
  have hne : pos ≠ c := by omega
  refine ⟨?_, ?_, .child (by omega) (hpc ▸ h.path)⟩
  · intro i hi0 hsi hic hpi x y hx hy
    by_cases h1 : i = pos
    · subst h1
      rw [swap_get_ne hpos hc (by omega) hpi] at hx
      rw [swap_get_left hpos hc hne] at hy
      exact h.grand hi0 hsi c (by omega) hpc x y hx hy
    · rw [swap_get_ne hpos hc h1 hic] at hy
      by_cases h2 : (i - 1) / 2 = pos
      · rw [h2, swap_get_left hpos hc hne] at hx
        exact smallerChild_least o all hi0 h2 x y (hcdef ▸ hx) hy
      · rw [swap_get_ne hpos hc h2 hpi] at hx
        exact h.except i hi0 hsi h1 h2 x y hx hy
  · intro _ hsp d hd0 hdc x y hx hy
    rw [hpc, swap_get_left hpos hc hne] at hx
    rw [swap_get_ne hpos hc (by omega) (by omega)] at hy
    exact h.except d hd0 (by have := h.path.le; omega) (by omega) (by omega) x y (hdc ▸ hx) hy

include o in
theorem descend_ready {s : Nat} (fuel : Nat) {heap : Array α} {pos : Nat}
    (all : AllItems P heap) (hf : heap.size ≤ pos + fuel) (h : DownReady lt s heap pos) :
    UpReady lt s (descend lt fuel heap pos).1 (descend lt fuel heap pos).2 := by
  have leaf (hl : heap.size ≤ 2 * pos + 1) : UpReady lt s heap pos := by
    refine ⟨fun i hi0 hsi hip => ?_, h.grand, h.path⟩
    by_cases hpi : (i - 1) / 2 = pos
    · intro x y _ hy
      rw [Array.getElem?_eq_none (by omega)] at hy
      cases hy
    · exact h.except i hi0 hsi hip hpi
  induction fuel generalizing heap pos with
  | zero => exact leaf (by omega)
  | succ fuel ih =>
    have hcc := @smallerChild_cases _ lt heap pos
    rw [descend]
    split
    · rename_i hb
      have all' : AllItems P (heap.swap pos (smallerChild lt heap pos)) :=
        all.perm (Array.swap_perm _ _).toList
      have h' := h.step o all hb.1 rfl hb.2
      refine ih all' (by simp only [Array.size_swap]; omega) h' fun hl => ?_
      refine ⟨fun i hi0 hsi hip => ?_, h'.grand, h'.path⟩
      by_cases hpi : (i - 1) / 2 = smallerChild lt heap pos
      · intro x y _ hy
        rw [Array.getElem?_eq_none (by omega)] at hy
        cases hy
      · exact h'.except i hi0 hsi hip hpi
    · rename_i hb
      exact leaf (by omega)

include o in
theorem siftup_heap {s : Nat} {heap : Array α} (all : AllItems P heap)
    (h : HeapFrom lt (s + 1) heap) : HeapFrom lt s (siftup lt heap s) := by
  have ready : DownReady lt s heap s := by
    refine ⟨fun i hi0 hsi _ hpi => h i hi0 (by omega), fun h0 hs => ?_, .root⟩
    omega
  rw [siftup]
  refine siftdown_heap o _ (all.perm (descend_perm lt _ _ _)) (Nat.le_refl _) ?_
  exact descend_ready o _ all (by omega) ready

include o in
theorem heapifyFrom_heap {n : Nat} {heap : Array α} (all : AllItems P heap)
    (h : HeapFrom lt n heap) : IsHeap lt (heapifyFrom lt n heap) := by
  induction n generalizing heap with
  | zero => exact h
  | succ n ih => exact ih (all.perm (siftup_perm lt _ _)) (siftup_heap o all h)

include o in
theorem heapify_heap {heap : Array α} (all : AllItems P heap) : IsHeap lt (heapify lt heap) := by
  refine heapifyFrom_heap o all fun i hi0 hs x y _ hy => ?_
  rw [Array.getElem?_eq_none (by omega)] at hy
  cases hy

include o in
theorem heappush_heap {heap : Array α} {item : α} (all : AllItems P heap) (hi : P item)
    (h : IsHeap lt heap) : IsHeap lt (heappush lt heap item) := by
  have all' : AllItems P (heap.push item) := by
    intro x hx
    rw [Array.toList_push, List.mem_append, List.mem_singleton] at hx
    rcases hx with hx | rfl
    · exact all x hx
    · exact hi
  have below (n : Nat) : Below 0 n := by
    induction n using Nat.strongRecOn with
    | ind n ih =>
      rcases Nat.eq_zero_or_pos n with rfl | hn
      · exact .root
      · exact .child hn (ih _ (by omega))
  refine siftdown_heap o _ all' (Nat.le_refl _) ⟨fun i hi0 hsi hip x y hx hy => ?_, ?_, below _⟩
  · have hilt : i < heap.size := by
      have := (Array.getElem?_eq_some_iff.mp hy).1
      simp only [Array.size_push] at this
      omega
    rw [Array.getElem?_push, if_neg (by omega)] at hx hy
    exact h i hi0 hsi x y hx hy
  · intro _ _ c hc0 hcp x y _ hy
    rw [Array.getElem?_eq_none (by simp only [Array.size_push]; omega)] at hy
    cases hy

include o in
theorem heappop_heap {heap : Array α} {item : α} {rest : Array α} (all : AllItems P heap)
    (h : IsHeap lt heap) (hpop : heappop lt heap = some (item, rest)) :
    heap[0]? = some item ∧ IsHeap lt rest := by
  by_cases h0 : heap.size = 0
  · rw [Array.eq_empty_of_size_eq_zero h0] at hpop
    simp [heappop] at hpop
  · obtain ⟨front, last, rfl⟩ := Array.eq_push_of_size_ne_zero h0
    simp only [heappop, Array.back?_push, Array.pop_push] at hpop
    split at hpop
    · rename_i hpos
      simp only [Option.some.injEq, Prod.mk.injEq] at hpop
      obtain ⟨rfl, rfl⟩ := hpop
      refine ⟨?_, ?_⟩
      · rw [Array.getElem?_push, if_neg (by omega), Array.getElem?_eq_getElem hpos]
      · refine siftup_heap o (P := P) ?_ fun i hi0 hs x y hx hy => ?_
        · intro x hx
          rw [Array.toList_set] at hx
          rcases List.mem_or_eq_of_mem_set hx with hm | rfl
          · exact all x (by simp [hm])
          · exact all _ (by simp)
        · have hilt : i < front.size := by
            have := (Array.getElem?_eq_some_iff.mp hy).1
            simpa using this
          have hi : (0 : Nat) ≠ i := by omega
          have hp : (0 : Nat) ≠ (i - 1) / 2 := by omega
          rw [Array.getElem?_set_ne hpos hp] at hx
          rw [Array.getElem?_set_ne hpos hi] at hy
          refine h i hi0 (Nat.zero_le _) x y ?_ ?_
          · rwa [Array.getElem?_push, if_neg (by omega)]
          · rwa [Array.getElem?_push, if_neg (by omega)]
    · rename_i hpos
      simp only [Option.some.injEq, Prod.mk.injEq] at hpop
      obtain ⟨rfl, rfl⟩ := hpop
      have hz : front = #[] := Array.eq_empty_of_size_eq_zero (by omega)
      subst hz
      exact ⟨rfl, fun i hi0 _ x y _ hy => by simp at hy⟩

include o in
theorem head_least {heap : Array α} (all : AllItems P heap) (h : IsHeap lt heap) (i : Nat) :
    NotAfter lt heap 0 i := by
  induction i using Nat.strongRecOn with
  | ind i ih =>
    intro x y hx hy
    rcases Nat.eq_zero_or_pos i with rfl | hi0
    · rw [hx] at hy
      cases hy
      exact o.refl lt (all.at hx)
    · have hi : i < heap.size := (Array.getElem?_eq_some_iff.mp hy).1
      have hg : heap[(i - 1) / 2]? = some heap[(i - 1) / 2] :=
        Array.getElem?_eq_getElem (by omega)
      have h1 := ih ((i - 1) / 2) (by omega) x _ hx hg
      have h2 := h i hi0 (Nat.zero_le _) _ y hg hy
      exact o.trans (all.at hx) (all.at hg) (all.at hy) h1 h2

theorem heappop_isSome {heap : Array α} (h : 0 < heap.size) :
    ∃ item rest, heappop lt heap = some (item, rest) := by
  obtain ⟨front, last, rfl⟩ := Array.eq_push_of_size_ne_zero (Nat.ne_of_gt h)
  simp only [heappop, Array.back?_push, Array.pop_push]
  split <;> exact ⟨_, _, rfl⟩

include o in
/-- `popWhile` splits a heap at a downward closed `due`: the popped items
are due, the items left are not, and what is left is a heap. -/
theorem popWhile_split {due : α → Bool}
    (hdue : ∀ {a b}, P a → P b → lt b a = false → due b = true → due a = true)
    (fuel : Nat) {heap : Array α} (all : AllItems P heap) (h : IsHeap lt heap)
    (hf : heap.size ≤ fuel) :
    (∀ x ∈ (popWhile lt due fuel heap).1, due x = true) ∧
      (∀ x ∈ (popWhile lt due fuel heap).2.toList, due x = false) ∧
      IsHeap lt (popWhile lt due fuel heap).2 := by
  induction fuel generalizing heap with
  | zero =>
    have : heap = #[] := Array.eq_empty_of_size_eq_zero (by omega)
    subst this
    exact ⟨by simp [popWhile], by simp [popWhile], h⟩
  | succ fuel ih =>
    rw [popWhile]
    split
    · rename_i hnone
      have : heap = #[] := Array.eq_empty_of_size_eq_zero (by simpa using hnone)
      subst this
      exact ⟨by simp, by simp, h⟩
    · rename_i head hhead
      have hsize : 0 < heap.size := (Array.getElem?_eq_some_iff.mp hhead).1
      split
      · rename_i hd
        obtain ⟨item, rest, hpop⟩ := @heappop_isSome _ lt _ hsize
        obtain ⟨hitem, hrest⟩ := heappop_heap o all h hpop
        have hperm := heappop_perm lt hpop
        have hlen := hperm.length_eq
        simp only [Array.length_toList, List.length_cons] at hlen
        have all' : AllItems P rest := fun x hx =>
          all x (hperm.mem_iff.mpr (List.mem_cons_of_mem _ hx))
        obtain ⟨h1, h2, h3⟩ := ih all' hrest (by omega)
        rw [hhead] at hitem
        cases hitem
        simp only [hpop]
        refine ⟨?_, h2, h3⟩
        intro x hx
        rcases List.mem_cons.mp hx with rfl | hx
        · exact hd
        · exact h1 x hx
      · rename_i hd
        refine ⟨by simp, ?_, h⟩
        intro x hx
        obtain ⟨i, hi⟩ := Array.mem_iff_getElem?.mp (Array.mem_toList_iff.mp hx)
        cases hx : due x with
        | false => rfl
        | true =>
          have hle := head_least o all h i head x hhead hi
          exact absurd (hdue (all.at hhead) (all.at hi) hle hx) hd

end Sift

end Py.Heapq
