import Mathlib.Data.List.Induction
import Mathlib.Data.Nat.BitIndices
import Mathlib.Data.Nat.Size
import Mathlib.Tactic.Common

/-!
# Lib — MerkleTree

Merkle trees over a list of hashes, split at the largest power of two
below their size: the recursive hash, the peaks a streaming accumulator
keeps, and audit paths. `node` combines two hashes, `empty` is the hash
of no leaves.
-/

namespace MerkleTree

/-! ## The split point -/

/-- The largest power of two strictly less than `size`, for `size ≥ 2`. -/
def largestPowerOfTwoBelow (size : Nat) : Nat := 1 <<< (Nat.size (size - 1) - 1)

theorem largestPowerOfTwoBelow_spec {size : Nat} (h : 2 ≤ size) :
    ∃ k, largestPowerOfTwoBelow size = 2 ^ k ∧ 2 ^ k < size ∧ size ≤ 2 ^ (k + 1) := by
  have hpos : 0 < Nat.size (size - 1) := Nat.size_pos.mpr (by omega)
  refine ⟨Nat.size (size - 1) - 1, Nat.one_shiftLeft _, ?_, ?_⟩
  · have hle : 2 ^ (Nat.size (size - 1) - 1) ≤ size - 1 := Nat.lt_size.mp (by omega)
    omega
  · rw [Nat.sub_add_cancel hpos]
    have hlt := Nat.lt_size_self (size - 1)
    omega

theorem largestPowerOfTwoBelow_eq {size k : Nat} (hlt : 2 ^ k < size) (hle : size ≤ 2 ^ (k + 1)) :
    largestPowerOfTwoBelow size = 2 ^ k := by
  have hpos : 0 < 2 ^ k := Nat.two_pow_pos k
  have hsize : 2 ≤ size := by omega
  obtain ⟨j, hj, hjlt, hjle⟩ := largestPowerOfTwoBelow_spec hsize
  rw [hj]
  -- two powers of two in the same half-open octave are equal
  have hjk : j < k + 1 := (Nat.pow_lt_pow_iff_right (by omega)).mp (Nat.lt_of_lt_of_le hjlt hle)
  have hkj : k < j + 1 := (Nat.pow_lt_pow_iff_right (by omega)).mp (Nat.lt_of_lt_of_le hlt hjle)
  have hsame : j = k := by omega
  rw [hsame]

theorem largestPowerOfTwoBelow_pos (size : Nat) : 0 < largestPowerOfTwoBelow size := by
  rw [largestPowerOfTwoBelow, Nat.one_shiftLeft]
  exact Nat.two_pow_pos _

theorem largestPowerOfTwoBelow_lt {size : Nat} (h : 2 ≤ size) :
    largestPowerOfTwoBelow size < size := by
  obtain ⟨k, hk, hlt, -⟩ := largestPowerOfTwoBelow_spec h
  omega

variable {α : Type} (node : α → α → α) (empty : α)

/-! ## The recursive hash -/

/-- The hash of a list of leaf hashes. -/
def treeHash (leaves : List α) : α :=
  if leaves.length < 2 then leaves.headD empty
  else
    let k := largestPowerOfTwoBelow leaves.length
    node (treeHash (leaves.take k)) (treeHash (leaves.drop k))
termination_by leaves.length
decreasing_by
  · have := largestPowerOfTwoBelow_lt (by omega : 2 ≤ leaves.length)
    simp only [List.length_take]
    omega
  · have := largestPowerOfTwoBelow_pos leaves.length
    simp only [List.length_drop]
    omega

@[elab_as_elim]
theorem splitInduction {P : List α → Prop} (small : ∀ leaves, leaves.length < 2 → P leaves)
    (split : ∀ leaves, 2 ≤ leaves.length →
      P (leaves.take (largestPowerOfTwoBelow leaves.length)) →
      P (leaves.drop (largestPowerOfTwoBelow leaves.length)) → P leaves)
    (leaves : List α) : P leaves := by
  induction hn : leaves.length using Nat.strong_induction_on generalizing leaves with
  | _ n ih =>
    by_cases hsmall : leaves.length < 2
    · exact small leaves hsmall
    · have hlt := largestPowerOfTwoBelow_lt (Nat.le_of_not_lt hsmall)
      have hpos := largestPowerOfTwoBelow_pos leaves.length
      refine split leaves (Nat.le_of_not_lt hsmall) (ih _ ?_ _ rfl) (ih _ ?_ _ rfl)
      · rw [List.length_take]
        omega
      · rw [List.length_drop]
        omega

@[simp] theorem treeHash_nil : treeHash node empty [] = empty := by
  rw [treeHash]
  simp

@[simp] theorem treeHash_singleton (leaf : α) : treeHash node empty [leaf] = leaf := by
  rw [treeHash]
  simp

theorem treeHash_split {leaves : List α} (h : 2 ≤ leaves.length) :
    treeHash node empty leaves =
      node (treeHash node empty (leaves.take (largestPowerOfTwoBelow leaves.length)))
        (treeHash node empty (leaves.drop (largestPowerOfTwoBelow leaves.length))) := by
  rw [treeHash, if_neg (by omega)]

/-- A full block followed by at most as many leaves hashes as a node. -/
theorem treeHash_append {left right : List α} {k : Nat} (hleft : left.length = 2 ^ k)
    (hpos : 0 < right.length) (hle : right.length ≤ 2 ^ k) :
    treeHash node empty (left ++ right) =
      node (treeHash node empty left) (treeHash node empty right) := by
  have htwo : 0 < 2 ^ k := Nat.two_pow_pos k
  have hsplit : largestPowerOfTwoBelow (left ++ right).length = left.length := by
    rw [List.length_append, hleft]
    apply largestPowerOfTwoBelow_eq
    · omega
    · rw [Nat.pow_succ]
      omega
  rw [treeHash_split node empty (by simp only [List.length_append]; omega), hsplit,
    List.take_left, List.drop_left]

/-- The hash of a perfect tree of height `k`. -/
def perfectHash : Nat → List α → α
  | 0, leaves => leaves.headD empty
  | k + 1, leaves =>
    node (perfectHash k (leaves.take (2 ^ k))) (perfectHash k (leaves.drop (2 ^ k)))

theorem treeHash_perfect {k : Nat} {leaves : List α} (h : leaves.length = 2 ^ k) :
    treeHash node empty leaves = perfectHash node empty k leaves := by
  induction k generalizing leaves with
  | zero =>
    rw [treeHash, if_pos (by omega)]
    rfl
  | succ k ih =>
    rw [Nat.pow_succ] at h
    have htake : (leaves.take (2 ^ k)).length = 2 ^ k := by
      rw [List.length_take]
      omega
    have hdrop : (leaves.drop (2 ^ k)).length = 2 ^ k := by
      rw [List.length_drop]
      omega
    have hpos : 0 < 2 ^ k := Nat.two_pow_pos k
    have hjoin := treeHash_append node empty htake (by omega) hdrop.le
    rw [List.take_append_drop] at hjoin
    rw [hjoin, ih htake, ih hdrop]
    rfl

/-! ## Peaks -/

/-- Add a subtree, merging equal-sized peaks; the newest peak is first. -/
def push (size : Nat) (hash : α) : List (Nat × α) → List (Nat × α)
  | [] => [(size, hash)]
  | (size', left) :: rest =>
    if size = size' then push (size * 2) (node left hash) rest
    else (size, hash) :: (size', left) :: rest

/-- Fold the peaks from the newest to the oldest. -/
def foldPeaks : List (Nat × α) → α
  | [] => empty
  | (_, hash) :: older => older.foldl (fun acc peak => node peak.2 acc) hash

/-- The peak of a block of leaves. -/
def peak (block : List α) : Nat × α := (block.length, treeHash node empty block)

/-- Blocks of leaves, newest first, whose sizes are growing powers of two. -/
structure Blocks (blocks : List (List α)) : Prop where
  power : ∀ b ∈ blocks, ∃ k, b.length = 2 ^ k
  growing : blocks.Pairwise fun a b => a.length < b.length

/-- A subtree no larger than any peak is carried into the peaks. -/
theorem push_blocks {blocks : List (List α)} (h : Blocks blocks) {block : List α} {k : Nat}
    (hblock : block.length = 2 ^ k) (hle : ∀ b ∈ blocks, block.length ≤ b.length) :
    ∃ blocks', Blocks blocks' ∧
      push node block.length (treeHash node empty block) (blocks.map (peak node empty)) =
        blocks'.map (peak node empty) ∧
      blocks'.reverse.flatten = blocks.reverse.flatten ++ block := by
  induction blocks generalizing block k with
  | nil =>
    refine ⟨[block], ⟨?_, by simp⟩, rfl, by simp⟩
    intro b hb
    rw [List.mem_singleton.mp hb]
    exact ⟨k, hblock⟩
  | cons left rest ih =>
    have hrest : Blocks rest :=
      ⟨fun b hb => h.power b (List.mem_cons_of_mem _ hb), (List.pairwise_cons.mp h.growing).2⟩
    have hgrow := (List.pairwise_cons.mp h.growing).1
    rw [List.map_cons, peak, push]
    by_cases hsame : block.length = left.length
    · -- the two subtrees merge into one of twice the size
      have hpos : 0 < 2 ^ k := Nat.two_pow_pos k
      have hmerge : treeHash node empty (left ++ block) =
          node (treeHash node empty left) (treeHash node empty block) :=
        treeHash_append node empty (by omega : left.length = 2 ^ k) (by omega) (by omega)
      have hlen : (left ++ block).length = block.length * 2 := by
        rw [List.length_append]
        omega
      have hpow : (left ++ block).length = 2 ^ (k + 1) := by
        rw [Nat.pow_succ]
        omega
      have hbelow : ∀ b ∈ rest, (left ++ block).length ≤ b.length := by
        intro b hb
        obtain ⟨j, hj⟩ := hrest.power b hb
        have hlt := hgrow b hb
        have hkj : k < j := by
          apply (Nat.pow_lt_pow_iff_right (by omega : 1 < 2)).mp
          omega
        rw [hpow, hj]
        exact Nat.pow_le_pow_right (by omega) hkj
      obtain ⟨blocks', hblocks', hpush, hflat⟩ := ih hrest hpow hbelow
      refine ⟨blocks', hblocks', ?_, ?_⟩
      · rw [if_pos hsame, ← hmerge, ← hlen]
        exact hpush
      · rw [hflat]
        simp
    · have hlt : block.length < left.length := by
        have := hle left (by simp)
        omega
      refine ⟨block :: left :: rest, ⟨?_, ?_⟩, ?_, by simp⟩
      · intro b hb
        rcases List.mem_cons.mp hb with rfl | hb
        · exact ⟨k, hblock⟩
        · exact h.power b hb
      · rw [List.pairwise_cons]
        refine ⟨?_, h.growing⟩
        intro b hb
        rcases List.mem_cons.mp hb with rfl | hb
        · exact hlt
        · have := hgrow b hb
          omega
      · rw [if_neg hsame]
        rfl

/-- The leaves so far, as the peaks see them. -/
structure Accumulates (leaves : List α) (peaks : List (Nat × α)) (blocks : List (List α)) :
    Prop where
  grown : Blocks blocks
  leaves_eq : leaves = blocks.reverse.flatten
  peaks_eq : peaks = blocks.map (peak node empty)

theorem Accumulates.nil : Accumulates node empty [] [] [] :=
  ⟨⟨by simp, by simp⟩, rfl, rfl⟩

/-- One more leaf. -/
theorem Accumulates.push {leaves : List α} {peaks : List (Nat × α)} {blocks : List (List α)}
    (h : Accumulates node empty leaves peaks blocks) (leaf : α) :
    ∃ blocks', Accumulates node empty (leaves ++ [leaf]) (push node 1 leaf peaks) blocks' := by
  have hle : ∀ b ∈ blocks, [leaf].length ≤ b.length := by
    intro b hb
    obtain ⟨k, hk⟩ := h.grown.power b hb
    have hpos : 0 < 2 ^ k := Nat.two_pow_pos k
    rw [List.length_singleton]
    omega
  obtain ⟨blocks', hblocks', hpush, hflat⟩ :=
    push_blocks node empty h.grown (k := 0) rfl hle
  refine ⟨blocks', hblocks', ?_, ?_⟩
  · rw [hflat, h.leaves_eq]
  · rw [h.peaks_eq, ← hpush, treeHash_singleton, List.length_singleton]

/-- The peaks of `n` leaves have the sizes of the binary digits of `n`,
smallest first. -/
theorem Accumulates.sizes {leaves : List α} {peaks : List (Nat × α)} {blocks : List (List α)}
    (h : Accumulates node empty leaves peaks blocks) :
    peaks.map Prod.fst = leaves.length.bitIndices.map (2 ^ ·) := by
  have hpower : ∀ blocks : List (List α), Blocks blocks →
      ∃ heights : List Nat, heights.SortedLT ∧ blocks.map List.length = heights.map (2 ^ ·) := by
    intro blocks hblocks
    refine ⟨blocks.map fun b => Nat.log2 b.length, ?_, ?_⟩
    · rw [List.sortedLT_iff_pairwise, List.pairwise_map]
      refine hblocks.growing.imp_of_mem ?_
      intro a b ha hb hab
      obtain ⟨j, hj⟩ := hblocks.power a ha
      obtain ⟨k, hk⟩ := hblocks.power b hb
      rw [hj, hk] at hab
      rw [hj, hk, Nat.log2_two_pow, Nat.log2_two_pow]
      exact (Nat.pow_lt_pow_iff_right (by omega)).mp hab
    · rw [List.map_map]
      apply List.map_congr_left
      intro b hb
      obtain ⟨k, hk⟩ := hblocks.power b hb
      simp only [Function.comp_apply, hk, Nat.log2_two_pow]
  obtain ⟨heights, hsorted, hheights⟩ := hpower blocks h.grown
  have hlen : leaves.length = (heights.map (2 ^ ·)).sum := by
    rw [h.leaves_eq, List.length_flatten, List.map_reverse, List.sum_reverse, hheights]
  rw [hlen, Nat.bitIndices_sum_map_two_pow hsorted, ← hheights, h.peaks_eq, List.map_map]
  rfl

/-- All blocks but the oldest together are smaller than it. -/
theorem Blocks.newer_lt {newer : List (List α)} {block : List α}
    (h : Blocks (newer ++ [block])) : newer.flatten.length < block.length := by
  induction newer using List.reverseRecOn generalizing block with
  | nil =>
    obtain ⟨k, hk⟩ := h.power block (by simp)
    have hpos : 0 < 2 ^ k := Nat.two_pow_pos k
    simp only [List.flatten_nil, List.length_nil]
    omega
  | append_singleton newer last ih =>
    have hbelow : Blocks (newer ++ [last]) :=
      ⟨fun b hb => h.power b (by simp at hb ⊢; tauto),
        (List.pairwise_append.mp h.growing).1⟩
    have hlt : last.length < block.length :=
      (List.pairwise_append.mp h.growing).2.2 last (by simp) block (by simp)
    obtain ⟨j, hj⟩ := h.power last (by simp)
    obtain ⟨k, hk⟩ := h.power block (by simp)
    have hjk : j < k := by
      apply (Nat.pow_lt_pow_iff_right (by omega : 1 < 2)).mp
      omega
    have hdouble : 2 ^ (j + 1) ≤ 2 ^ k := Nat.pow_le_pow_right (by omega) hjk
    have hih := ih hbelow
    rw [Nat.pow_succ] at hdouble
    simp only [List.flatten_append, List.flatten_cons, List.flatten_nil, List.append_nil,
      List.length_append]
    omega

/-- Folding the peaks gives the recursive hash of all leaves. -/
theorem Accumulates.root {leaves : List α} {peaks : List (Nat × α)} {blocks : List (List α)}
    (h : Accumulates node empty leaves peaks blocks) :
    foldPeaks node empty peaks = treeHash node empty leaves := by
  obtain ⟨hblocks, rfl, rfl⟩ := h
  cases blocks with
  | nil => exact (treeHash_nil node empty).symm
  | cons newest older =>
    rw [List.map_cons, peak, foldPeaks]
    -- from the newest block on, the accumulator is the hash of the blocks folded so far
    induction older using List.reverseRecOn with
    | nil => simp
    | append_singleton older oldest ih =>
      have hprev : Blocks (newest :: older) :=
        ⟨fun b hb => hblocks.power b (by simp at hb ⊢; tauto),
          (List.pairwise_append.mp (List.cons_append .. ▸ hblocks.growing)).1⟩
      have hlt : ((newest :: older).flatten).length < oldest.length :=
        Blocks.newer_lt (by simpa using hblocks)
      obtain ⟨k, hk⟩ := hblocks.power oldest (by simp)
      obtain ⟨j, hj⟩ := hblocks.power newest (by simp)
      have hpos : 0 < 2 ^ j := Nat.two_pow_pos j
      have hlen : ((newest :: older).reverse.flatten).length < oldest.length := by
        simpa [List.length_flatten, List.sum_reverse, Nat.add_comm] using hlt
      have hjoin := treeHash_append node empty hk
        (by simp; omega : 0 < ((newest :: older).reverse.flatten).length) (by omega)
      rw [List.map_append, List.foldl_append, ih hprev]
      simp only [List.map_cons, List.map_nil, List.foldl_cons, List.foldl_nil, peak]
      rw [← hjoin]
      simp

/-! ## Audit paths -/

/-- The sibling hashes from the leaf at `index` up to the root. -/
def auditPath (index : Nat) (leaves : List α) : List α :=
  if leaves.length < 2 then []
  else
    let k := largestPowerOfTwoBelow leaves.length
    if index < k then
      auditPath index (leaves.take k) ++ [treeHash node empty (leaves.drop k)]
    else auditPath (index - k) (leaves.drop k) ++ [treeHash node empty (leaves.take k)]
termination_by leaves.length
decreasing_by
  · have := largestPowerOfTwoBelow_lt (by omega : 2 ≤ leaves.length)
    simp only [List.length_take]
    omega
  · have := largestPowerOfTwoBelow_pos leaves.length
    simp only [List.length_drop]
    omega

/-- The length of the audit path of `index` in a tree of `size`. -/
def auditPathLength (index size : Nat) : Nat :=
  if size < 2 then 0
  else
    let k := largestPowerOfTwoBelow size
    if index < k then auditPathLength index k + 1 else auditPathLength (index - k) (size - k) + 1
termination_by size
decreasing_by
  · exact largestPowerOfTwoBelow_lt (by omega)
  · have := largestPowerOfTwoBelow_pos size
    omega

/-- The root a leaf and its audit path lead to; `none` when the path is
too short. -/
def rootFromPath (index size : Nat) (leaf : α) (path : List α) : Option α :=
  if size < 2 then some leaf
  else
    let k := largestPowerOfTwoBelow size
    match path.getLast? with
    | none => none
    | some sibling =>
      if index < k then
        (rootFromPath index k leaf path.dropLast).map fun left => node left sibling
      else
        (rootFromPath (index - k) (size - k) leaf path.dropLast).map fun right =>
          node sibling right
termination_by size
decreasing_by
  · exact largestPowerOfTwoBelow_lt (by omega)
  · have := largestPowerOfTwoBelow_pos size
    omega

theorem length_take_split {leaves : List α} (h : 2 ≤ leaves.length) :
    (leaves.take (largestPowerOfTwoBelow leaves.length)).length =
      largestPowerOfTwoBelow leaves.length := by
  have := largestPowerOfTwoBelow_lt h
  rw [List.length_take]
  omega

theorem auditPath_length (index : Nat) (leaves : List α) :
    (auditPath node empty index leaves).length = auditPathLength index leaves.length := by
  induction leaves using splitInduction generalizing index with
  | small leaves hsmall =>
    rw [auditPath, auditPathLength, if_pos hsmall, if_pos hsmall]
    rfl
  | split leaves hlarge ihleft ihright =>
    have hlarge' : ¬ leaves.length < 2 := by omega
    rw [auditPath, auditPathLength, if_neg hlarge', if_neg hlarge']
    dsimp only
    by_cases hindex : index < largestPowerOfTwoBelow leaves.length
    · rw [if_pos hindex, if_pos hindex, List.length_append, ihleft, length_take_split hlarge]
      rfl
    · rw [if_neg hindex, if_neg hindex, List.length_append, ihright, List.length_drop]
      rfl

theorem rootFromPath_auditPath {index : Nat} {leaves : List α} {leaf : α}
    (h : leaves[index]? = some leaf) :
    rootFromPath node index leaves.length leaf (auditPath node empty index leaves) =
      some (treeHash node empty leaves) := by
  induction leaves using splitInduction generalizing index with
  | small leaves hsmall =>
    rw [rootFromPath, treeHash, if_pos hsmall, if_pos hsmall]
    have hindex := (List.getElem?_eq_some_iff.mp h).1
    have hzero : index = 0 := by omega
    subst hzero
    cases leaves with
    | nil => cases h
    | cons first rest => exact h.symm
  | split leaves hlarge ihleft ihright =>
    have hlarge' : ¬ leaves.length < 2 := by omega
    rw [rootFromPath, auditPath, treeHash, if_neg hlarge', if_neg hlarge', if_neg hlarge']
    dsimp only
    by_cases hindex : index < largestPowerOfTwoBelow leaves.length
    · have ih := @ihleft index (by rw [List.getElem?_take_of_lt hindex, h])
      rw [length_take_split hlarge] at ih
      rw [if_pos hindex, List.getLast?_concat, List.dropLast_concat]
      dsimp only
      rw [if_pos hindex, ih]
      rfl
    · have hsum : largestPowerOfTwoBelow leaves.length +
          (index - largestPowerOfTwoBelow leaves.length) = index := by omega
      have ih := @ihright (index - largestPowerOfTwoBelow leaves.length)
        (by rw [List.getElem?_drop, hsum, h])
      rw [List.length_drop] at ih
      rw [if_neg hindex, List.getLast?_concat, List.dropLast_concat]
      dsimp only
      rw [if_neg hindex, ih]
      rfl

/-! ## What an accepted path pins down -/

/-- The pairs combined for the hash of a tree. -/
def treeNodes (leaves : List α) : List (α × α) :=
  if leaves.length < 2 then []
  else
    let k := largestPowerOfTwoBelow leaves.length
    (treeHash node empty (leaves.take k), treeHash node empty (leaves.drop k)) ::
      (treeNodes (leaves.take k) ++ treeNodes (leaves.drop k))
termination_by leaves.length
decreasing_by
  · have := largestPowerOfTwoBelow_lt (by omega : 2 ≤ leaves.length)
    simp only [List.length_take]
    omega
  · have := largestPowerOfTwoBelow_pos leaves.length
    simp only [List.length_drop]
    omega

/-- The pairs combined along an audit path. -/
def pathNodes (index size : Nat) (leaf : α) (path : List α) : List (α × α) :=
  if size < 2 then []
  else
    let k := largestPowerOfTwoBelow size
    match path.getLast? with
    | none => []
    | some sibling =>
      if index < k then
        ((rootFromPath node index k leaf path.dropLast).map fun left => (left, sibling)).toList ++
          pathNodes index k leaf path.dropLast
      else
        ((rootFromPath node (index - k) (size - k) leaf path.dropLast).map fun right =>
          (sibling, right)).toList ++ pathNodes (index - k) (size - k) leaf path.dropLast
termination_by size
decreasing_by
  · exact largestPowerOfTwoBelow_lt (by omega)
  · have := largestPowerOfTwoBelow_pos size
    omega

section Sound

variable {Good : α → Prop}

theorem good_treeHash (hnode : ∀ a b, Good (node a b)) {leaves : List α}
    (hleaves : ∀ leaf ∈ leaves, Good leaf) (hpos : 0 < leaves.length) :
    Good (treeHash node empty leaves) := by
  by_cases hsmall : leaves.length < 2
  · cases leaves with
    | nil => simp at hpos
    | cons leaf rest =>
      rw [treeHash, if_pos hsmall]
      exact hleaves leaf (by simp)
  · rw [treeHash, if_neg hsmall]
    exact hnode _ _

theorem good_rootFromPath (hnode : ∀ a b, Good (node a b)) {index size : Nat} {leaf root : α}
    {path : List α} (hleaf : Good leaf) (h : rootFromPath node index size leaf path = some root) :
    Good root := by
  rw [rootFromPath] at h
  split at h
  · cases h
    exact hleaf
  dsimp only at h
  split at h
  · cases h
  split at h
  · obtain ⟨left, -, rfl⟩ := Option.map_eq_some_iff.mp h
    exact hnode _ _
  · obtain ⟨right, -, rfl⟩ := Option.map_eq_some_iff.mp h
    exact hnode _ _

/-- Two combined pairs with one hash are equal when a hash of the first
and both of the second are well formed. -/
def Separates (Good : α → Prop) (first second : List (α × α)) : Prop :=
  ∀ p ∈ first, ∀ q ∈ second, Good p.1 ∨ Good p.2 → Good q.1 → Good q.2 →
    node p.1 p.2 = node q.1 q.2 → p = q

theorem Separates.mono {first second first' second' : List (α × α)}
    (h : Separates node Good first second) (hfirst : ∀ p ∈ first', p ∈ first)
    (hsecond : ∀ q ∈ second', q ∈ second) : Separates node Good first' second' :=
  fun p hp q hq => h p (hfirst p hp) q (hsecond q hq)

/-- A well-formed leaf whose path leads to the root of a tree is the leaf
of the tree at its index: the comparison is made level by level from the
root down, whatever siblings the path holds. -/
theorem rootFromPath_sound (hnode : ∀ a b, Good (node a b)) {leaves : List α}
    (hleaves : ∀ leaf ∈ leaves, Good leaf) {index : Nat} (hindex : index < leaves.length)
    {leaf : α} (hleaf : Good leaf) {path : List α}
    (hsep : Separates node Good (pathNodes node index leaves.length leaf path)
      (treeNodes node empty leaves))
    (h : rootFromPath node index leaves.length leaf path = some (treeHash node empty leaves)) :
    leaves[index]? = some leaf := by
  induction leaves using splitInduction generalizing index path with
  | small leaves hsmall =>
    rw [rootFromPath, treeHash, if_pos hsmall, if_pos hsmall] at h
    have hzero : index = 0 := by omega
    subst hzero
    cases leaves with
    | nil => simp at hindex
    | cons first rest => exact h.symm
  | split leaves hlarge ihleft ihright =>
    have hlarge' : ¬ leaves.length < 2 := by omega
    have hk := largestPowerOfTwoBelow_lt hlarge
    have hkpos := largestPowerOfTwoBelow_pos leaves.length
    have hsize := length_take_split hlarge
    have hgoodTake : ∀ l ∈ leaves.take (largestPowerOfTwoBelow leaves.length), Good l :=
      fun l hmem => hleaves l (List.mem_of_mem_take hmem)
    have hgoodDrop : ∀ l ∈ leaves.drop (largestPowerOfTwoBelow leaves.length), Good l :=
      fun l hmem => hleaves l (List.mem_of_mem_drop hmem)
    have hgoodLeft := good_treeHash node empty hnode hgoodTake (by rw [hsize]; exact hkpos)
    have hgoodRight := good_treeHash node empty hnode hgoodDrop
      (by rw [List.length_drop]; omega)
    rw [rootFromPath, treeHash, if_neg hlarge', if_neg hlarge'] at h
    rw [pathNodes, treeNodes, if_neg hlarge', if_neg hlarge'] at hsep
    dsimp only at h hsep
    cases hlast : path.getLast? with
    | none =>
      rw [hlast] at h
      cases h
    | some sibling =>
      rw [hlast] at h hsep
      dsimp only at h hsep
      by_cases hside : index < largestPowerOfTwoBelow leaves.length
      · rw [if_pos hside] at h hsep
        obtain ⟨left, hroot, heq⟩ := Option.map_eq_some_iff.mp h
        rw [hroot] at hsep
        have hpair := hsep (left, sibling) (by simp) _ List.mem_cons_self
          (.inl (good_rootFromPath node hnode hleaf hroot)) hgoodLeft hgoodRight heq
        have hroot := hroot.trans (congrArg some (congrArg Prod.fst hpair))
        have hbelow := hsep.mono node
          (fun p hp => List.mem_append_right _ hp)
          (fun q hq => List.mem_cons_of_mem _ (List.mem_append_left _ hq))
        have hfound := ihleft hgoodTake (by rw [hsize]; exact hside) (by rw [hsize]; exact hbelow)
          (by rw [hsize]; exact hroot)
        rw [← hfound, List.getElem?_take_of_lt hside]
      · rw [if_neg hside] at h hsep
        obtain ⟨right, hroot, heq⟩ := Option.map_eq_some_iff.mp h
        rw [hroot] at hsep
        have hpair := hsep (sibling, right) (by simp) _ List.mem_cons_self
          (.inr (good_rootFromPath node hnode hleaf hroot)) hgoodLeft hgoodRight heq
        have hroot := hroot.trans (congrArg some (congrArg Prod.snd hpair))
        have hbelow := hsep.mono node
          (fun p hp => List.mem_append_right _ hp)
          (fun q hq => List.mem_cons_of_mem _ (List.mem_append_right _ hq))
        have hfound := ihright hgoodDrop
          (by rw [List.length_drop]; omega : index - largestPowerOfTwoBelow leaves.length < _)
          (by rw [List.length_drop]; exact hbelow) (by rw [List.length_drop]; exact hroot)
        have hsum : largestPowerOfTwoBelow leaves.length +
            (index - largestPowerOfTwoBelow leaves.length) = index := by omega
        rw [← hfound, List.getElem?_drop, hsum]

end Sound

/-! ## What a root pins down -/

/-- Between two trees no hash is reached in two ways: pairs with one hash are equal, and a leaf, a
combined pair and the empty tree have different hashes. -/
structure Apart (xs ys : List α) : Prop where
  nodes : ∀ p ∈ treeNodes node empty xs, ∀ q ∈ treeNodes node empty ys,
    node p.1 p.2 = node q.1 q.2 → p = q
  leafNode : ∀ x ∈ xs, ∀ q ∈ treeNodes node empty ys, x ≠ node q.1 q.2
  nodeLeaf : ∀ p ∈ treeNodes node empty xs, ∀ y ∈ ys, node p.1 p.2 ≠ y
  emptyLeaf : ∀ y ∈ ys, empty ≠ y
  leafEmpty : ∀ x ∈ xs, x ≠ empty
  emptyNode : ∀ q ∈ treeNodes node empty ys, empty ≠ node q.1 q.2
  nodeEmpty : ∀ p ∈ treeNodes node empty xs, node p.1 p.2 ≠ empty

/-- The pair at the root of a tree of two leaves or more, and the pairs below it. -/
theorem treeNodes_split {leaves : List α} (h : 2 ≤ leaves.length) :
    treeNodes node empty leaves =
      (treeHash node empty (leaves.take (largestPowerOfTwoBelow leaves.length)),
        treeHash node empty (leaves.drop (largestPowerOfTwoBelow leaves.length))) ::
      (treeNodes node empty (leaves.take (largestPowerOfTwoBelow leaves.length)) ++
        treeNodes node empty (leaves.drop (largestPowerOfTwoBelow leaves.length))) := by
  rw [treeNodes, if_neg (by omega)]

/-- Both parts of every combined pair are well formed. -/
theorem good_treeNodes {Good : α → Prop} (hnode : ∀ a b, Good (node a b)) {leaves : List α}
    (hleaves : ∀ leaf ∈ leaves, Good leaf) :
    ∀ p ∈ treeNodes node empty leaves, Good p.1 ∧ Good p.2 := by
  induction leaves using splitInduction with
  | small leaves hsmall =>
    intro p hp
    rw [treeNodes, if_pos hsmall] at hp
    cases hp
  | split leaves hlarge ihleft ihright =>
    have hleft : ∀ leaf ∈ leaves.take (largestPowerOfTwoBelow leaves.length), Good leaf :=
      fun leaf hmem => hleaves leaf (List.mem_of_mem_take hmem)
    have hright : ∀ leaf ∈ leaves.drop (largestPowerOfTwoBelow leaves.length), Good leaf :=
      fun leaf hmem => hleaves leaf (List.mem_of_mem_drop hmem)
    have hk := largestPowerOfTwoBelow_lt hlarge
    intro p hp
    rw [treeNodes_split node empty hlarge] at hp
    rcases List.mem_cons.mp hp with rfl | hbelow
    · refine ⟨good_treeHash node empty hnode hleft ?_, good_treeHash node empty hnode hright ?_⟩
      · rw [length_take_split hlarge]
        exact largestPowerOfTwoBelow_pos _
      · rw [List.length_drop]
        omega
    · rcases List.mem_append.mp hbelow with hp | hp
      · exact ihleft hleft p hp
      · exact ihright hright p hp

theorem Apart.parts {xs ys : List α} (h : Apart node empty xs ys) {xs' ys' : List α}
    (hxs : ∀ x ∈ xs', x ∈ xs) (hys : ∀ y ∈ ys', y ∈ ys)
    (hleft : ∀ p ∈ treeNodes node empty xs', p ∈ treeNodes node empty xs)
    (hright : ∀ q ∈ treeNodes node empty ys', q ∈ treeNodes node empty ys) :
    Apart node empty xs' ys' where
  nodes := fun p hp q hq => h.nodes p (hleft p hp) q (hright q hq)
  leafNode := fun x hx q hq => h.leafNode x (hxs x hx) q (hright q hq)
  nodeLeaf := fun p hp y hy => h.nodeLeaf p (hleft p hp) y (hys y hy)
  emptyLeaf := fun y hy => h.emptyLeaf y (hys y hy)
  leafEmpty := fun x hx => h.leafEmpty x (hxs x hx)
  emptyNode := fun q hq => h.emptyNode q (hright q hq)
  nodeEmpty := fun p hp => h.nodeEmpty p (hleft p hp)

/-- Trees with one root have the same leaves, whatever their sizes. -/
theorem treeHash_inj {xs ys : List α} (h : Apart node empty xs ys)
    (hroot : treeHash node empty xs = treeHash node empty ys) : xs = ys := by
  induction xs using splitInduction generalizing ys with
  | small xs hsmall =>
    by_cases hys : ys.length < 2
    · cases xs with
      | nil =>
        cases ys with
        | nil => rfl
        | cons y rest =>
          have hrest : rest = [] := List.length_eq_zero_iff.mp (by simp only [List.length_cons] at hys; omega)
          subst hrest
          rw [treeHash_nil, treeHash_singleton] at hroot
          exact absurd hroot (h.emptyLeaf y List.mem_cons_self)
      | cons x rest =>
        have hrest : rest = [] := List.length_eq_zero_iff.mp (by simp only [List.length_cons] at hsmall; omega)
        subst hrest
        cases ys with
        | nil =>
          rw [treeHash_nil, treeHash_singleton] at hroot
          exact absurd hroot (h.leafEmpty x List.mem_cons_self)
        | cons y rest =>
          have hrest : rest = [] := List.length_eq_zero_iff.mp (by simp only [List.length_cons] at hys; omega)
          subst hrest
          rw [treeHash_singleton, treeHash_singleton] at hroot
          rw [hroot]
    · have hlarge : 2 ≤ ys.length := by omega
      have hmem := (treeNodes_split node empty hlarge).symm ▸ List.mem_cons_self
      rw [treeHash_split node empty hlarge] at hroot
      cases xs with
      | nil =>
        rw [treeHash_nil] at hroot
        exact absurd hroot (h.emptyNode _ hmem)
      | cons x rest =>
        have hrest : rest = [] := List.length_eq_zero_iff.mp (by simp only [List.length_cons] at hsmall; omega)
        subst hrest
        rw [treeHash_singleton] at hroot
        exact absurd hroot (h.leafNode x List.mem_cons_self _ hmem)
  | split xs hlarge ihleft ihright =>
    have hmem := (treeNodes_split node empty hlarge).symm ▸ List.mem_cons_self
    rw [treeHash_split node empty hlarge] at hroot
    by_cases hys : ys.length < 2
    · cases ys with
      | nil =>
        rw [treeHash_nil] at hroot
        exact absurd hroot (h.nodeEmpty _ hmem)
      | cons y rest =>
        have hrest : rest = [] := List.length_eq_zero_iff.mp (by simp only [List.length_cons] at hys; omega)
        subst hrest
        rw [treeHash_singleton] at hroot
        exact absurd hroot (h.nodeLeaf _ hmem y List.mem_cons_self)
    · have hlarge' : 2 ≤ ys.length := by omega
      have hmem' := (treeNodes_split node empty hlarge').symm ▸ List.mem_cons_self
      rw [treeHash_split node empty hlarge'] at hroot
      obtain ⟨hleft, hright⟩ := Prod.mk.inj (h.nodes _ hmem _ hmem' hroot)
      have hbelow := treeNodes_split node empty hlarge
      have hbelow' := treeNodes_split node empty hlarge'
      have htake := ihleft (h.parts node empty (fun x => List.mem_of_mem_take)
        (fun y => List.mem_of_mem_take)
        (fun p hp => by rw [hbelow]; exact List.mem_cons_of_mem _ (List.mem_append_left _ hp))
        (fun q hq => by rw [hbelow']; exact List.mem_cons_of_mem _ (List.mem_append_left _ hq)))
        hleft
      have hdrop := ihright (h.parts node empty (fun x => List.mem_of_mem_drop)
        (fun y => List.mem_of_mem_drop)
        (fun p hp => by rw [hbelow]; exact List.mem_cons_of_mem _ (List.mem_append_right _ hp))
        (fun q hq => by rw [hbelow']; exact List.mem_cons_of_mem _ (List.mem_append_right _ hq)))
        hright
      rw [← List.take_append_drop (largestPowerOfTwoBelow xs.length) xs, htake, hdrop,
        List.take_append_drop]

end MerkleTree
