import Mathlib.Algebra.GroupWithZero.Nat
import Mathlib.Data.Set.Finite.Basic
import Mathlib.Logic.Relation
import Mathlib.Order.WellFounded
import SynapseChannel.Lib.Dict

/-!
# Lib — Search

Directed graphs stored as a dictionary of successor lists: acyclicity,
what new edges into or out of one node do to it, and the depth-first
search with an explicit stack, which decides reachability within its fuel.
-/

namespace Search

open Py Relation

variable {ν : Type}

/-! ## Acyclic relations -/

/-- No node reaches itself by one step or more. -/
def Acyclic (r : ν → ν → Prop) : Prop := ∀ a, ¬ TransGen r a a

theorem Acyclic.mono {r r' : ν → ν → Prop} (h : Acyclic r) (hsub : ∀ a b, r' a b → r a b) :
    Acyclic r' :=
  fun a hcycle => h a (TransGen.mono hsub a a hcycle)

/-- When no new edge starts where `x` leads, new edges into `x` lead `x`
nowhere new. -/
theorem reach_into {r r' : ν → ν → Prop} {W : ν → Prop} {x : ν}
    (hr : ∀ a b, r' a b ↔ r a b ∨ (W a ∧ b = x)) (hout : ∀ w, W w → ¬ ReflTransGen r x w) {b : ν}
    (h : ReflTransGen r' x b) : ReflTransGen r x b := by
  induction h with
  | refl => exact .refl
  | tail hc hstep ih =>
    rcases (hr _ _).mp hstep with hold | ⟨hw, rfl⟩
    · exact ih.tail hold
    · exact absurd ih (hout _ hw)

/-- A path along old and new edges is old, or passes through `x` first by
a new edge. -/
theorem path_into {r r' : ν → ν → Prop} {W : ν → Prop} {x : ν}
    (hr : ∀ a b, r' a b ↔ r a b ∨ (W a ∧ b = x)) {a b : ν} (h : TransGen r' a b) :
    TransGen r a b ∨ ∃ w, W w ∧ ReflTransGen r a w ∧ ReflTransGen r' x b := by
  induction h with
  | single hstep =>
    rcases (hr _ _).mp hstep with hold | ⟨hw, rfl⟩
    · exact .inl (.single hold)
    · exact .inr ⟨_, hw, .refl, .refl⟩
  | tail hc hstep ih =>
    rcases ih with hold | ⟨w, hw, haw, hxc⟩
    · rcases (hr _ _).mp hstep with hnew | ⟨hw, rfl⟩
      · exact .inl (hold.tail hnew)
      · exact .inr ⟨_, hw, hold.to_reflTransGen, .refl⟩
    · exact .inr ⟨w, hw, haw, hxc.tail hstep⟩

/-- New edges into `x` close a cycle exactly when one of them starts at a
node that `x` reaches. -/
theorem acyclic_into {r r' : ν → ν → Prop} {W : ν → Prop} {x : ν}
    (hr : ∀ a b, r' a b ↔ r a b ∨ (W a ∧ b = x)) :
    Acyclic r' ↔ Acyclic r ∧ ∀ w, W w → ¬ ReflTransGen r x w := by
  have hsub : ∀ a b, r a b → r' a b := fun a b h => (hr a b).mpr (.inl h)
  constructor
  · refine fun h => ⟨h.mono hsub, fun w hw hreach => h w ?_⟩
    exact TransGen.head' ((hr w x).mpr (.inr ⟨hw, rfl⟩)) (ReflTransGen.mono hsub x w hreach)
  · rintro ⟨h, hout⟩ a hcycle
    rcases path_into hr hcycle with hold | ⟨w, hw, haw, hxa⟩
    · exact h a hold
    · exact hout w hw ((reach_into hr hout hxa).trans haw)

/-- A path that ends at `x` never needs to leave `x`. -/
theorem reach_without {r r' : ν → ν → Prop} {x : ν} (hr : ∀ a b, a ≠ x → r a b → r' a b) {a : ν}
    (h : ReflTransGen r a x) : ReflTransGen r' a x := by
  induction h using ReflTransGen.head_induction_on with
  | refl => exact .refl
  | head hstep hrest ih =>
    rename_i b c
    by_cases hx : b = x
    · rw [hx]
    · exact .head (hr b c hx hstep) ih

/-- A path along old and replaced edges is old, or leaves `x` by a new
edge. -/
theorem path_out_of {r r' : ν → ν → Prop} {W : ν → Prop} {x : ν}
    (hr : ∀ a b, r' a b ↔ (a ≠ x ∧ r a b) ∨ (a = x ∧ W b)) {a b : ν} (h : TransGen r' a b) :
    TransGen r a b ∨ ∃ w, W w ∧ ReflTransGen r' a x ∧ ReflTransGen r' w b := by
  induction h using TransGen.head_induction_on with
  | single hstep =>
    rcases (hr _ _).mp hstep with ⟨_, hold⟩ | ⟨rfl, hw⟩
    · exact .inl (.single hold)
    · exact .inr ⟨_, hw, .refl, .refl⟩
  | head hstep hrest ih =>
    rcases ih with hold | ⟨w, hw, hcx, hwb⟩
    · rcases (hr _ _).mp hstep with ⟨_, hnew⟩ | ⟨rfl, hw⟩
      · exact .inl (.head hnew hold)
      · exact .inr ⟨_, hw, .refl, hrest.to_reflTransGen⟩
    · exact .inr ⟨w, hw, .head hstep hcx, hwb⟩

/-- Replacing the edges out of `x` closes a cycle exactly when one of the
new ones leads to a node that reached `x` before. -/
theorem acyclic_out_of {r r' : ν → ν → Prop} {W : ν → Prop} {x : ν}
    (hr : ∀ a b, r' a b ↔ (a ≠ x ∧ r a b) ∨ (a = x ∧ W b)) (h : Acyclic r) :
    Acyclic r' ↔ ∀ w, W w → ¬ ReflTransGen r w x := by
  constructor
  · intro h' w hw hreach
    have hback : ReflTransGen r' w x :=
      reach_without (fun a b ha hab => (hr a b).mpr (.inl ⟨ha, hab⟩)) hreach
    exact h' x (TransGen.head' ((hr x w).mpr (.inr ⟨rfl, hw⟩)) hback)
  · intro hout a hcycle
    rcases path_out_of hr hcycle with hold | ⟨w, hw, hax, hwa⟩
    · exact h a hold
    · refine hout w hw (reach_without (fun a b ha hab => ?_) (hwa.trans hax))
      rcases (hr a b).mp hab with ⟨_, hold⟩ | ⟨hx, _⟩
      · exact hold
      · exact absurd hx ha

/-- Among finitely many nodes of an acyclic graph, one has no edge to
another of them. -/
theorem Acyclic.exists_last {r : ν → ν → Prop} (h : Acyclic r) {nodes : List ν} {P : ν → Prop}
    (hfinite : ∀ a, P a → a ∈ nodes) (hne : ∃ a, P a) : ∃ a, P a ∧ ∀ b, r a b → ¬ P b := by
  have : Finite {a // P a} :=
    (nodes.finite_toSet.subset hfinite).to_subtype
  let later : {a // P a} → {a // P a} → Prop := fun b a => TransGen r a.1 b.1
  have htrans : IsTrans _ later := ⟨fun _ _ _ hba hcb => hcb.trans hba⟩
  have hirrefl : Std.Irrefl later := ⟨fun a => h a.1⟩
  obtain ⟨a, ha⟩ := hne
  obtain ⟨last, -, hlast⟩ :=
    (Finite.wellFounded_of_trans_of_irrefl later).has_min Set.univ ⟨⟨a, ha⟩, trivial⟩
  refine ⟨last.1, last.2, ?_⟩
  intro b hb hP
  exact hlast ⟨b, hP⟩ trivial (.single hb)

/-! ## Depth-first search -/

variable [DecidableEq ν]

def successors (edges : Dict ν (List ν)) (node : ν) : List ν := (edges.get? node).getD []

/-- The edges of a successor dictionary. -/
def Edge (edges : Dict ν (List ν)) (a b : ν) : Prop := b ∈ successors edges a

instance (edges : Dict ν (List ν)) (a b : ν) : Decidable (Edge edges a b) :=
  inferInstanceAs (Decidable (_ ∈ _))

/-- Pop a node until the target is on top, pushing the successors of each
node the first time it is met. -/
def dfs (edges : Dict ν (List ν)) (target : ν) : Nat → List ν → List ν → Bool
  | 0, _, _ => false
  | _ + 1, [], _ => false
  | fuel + 1, node :: stack, seen =>
    if node = target then true
    else if node ∈ seen then dfs edges target fuel stack seen
    else dfs edges target fuel (successors edges node ++ stack) (node :: seen)

/-- How many nodes the entries not yet seen may still push. -/
def unpushed (seen : List ν) (entries : List (ν × List ν)) : Nat :=
  ((entries.filter fun e => e.1 ∉ seen).map fun e => e.2.length).sum

/-- Fuel for a search from one node. -/
def fuelFor (edges : Dict ν (List ν)) : Nat := unpushed [] edges.items + 2

/-- Meeting a node moves its successors from the entries to the stack. -/
theorem unpushed_cons (edges : Dict ν (List ν)) {node : ν} {seen : List ν} (h : node ∉ seen) :
    unpushed (node :: seen) edges.items + (successors edges node).length
      = unpushed seen edges.items := by
  obtain ⟨entries, hnodup⟩ := edges
  simp only [successors, Dict.get?]
  induction entries with
  | nil => rfl
  | cons e rest ih =>
    obtain ⟨k, succ⟩ := e
    simp only [List.map_cons, List.nodup_cons] at hnodup
    have ih := ih hnodup.2
    by_cases hk : k = node
    · subst hk
      have hrest : Dict.find k rest = none := (Dict.find_eq_none k rest).mpr hnodup.1
      rw [hrest, Option.getD_none, List.length_nil, Nat.add_zero] at ih
      simp only [unpushed] at ih ⊢
      simp [Dict.find, h] at ih ⊢
      omega
    · simp only [unpushed] at ih ⊢
      by_cases hs : k ∈ seen
      · simpa [Dict.find, hk, hs] using ih
      · simp [Dict.find, hk, hs] at ih ⊢
        omega

/-- What a search has met leads only to what it has met or has stacked,
and is not the target. -/
structure Frontier (edges : Dict ν (List ν)) (target : ν) (stack seen : List ν) : Prop where
  closed : ∀ n ∈ seen, ∀ m, Edge edges n m → m ∈ seen ∨ m ∈ stack
  missed : target ∉ seen

/-- A path from a node already met leaves through the stack. -/
theorem Frontier.leaves {edges : Dict ν (List ν)} {target : ν} {stack seen : List ν}
    (h : Frontier edges target stack seen) {n : ν} (hn : n ∈ seen)
    (hreach : ReflTransGen (Edge edges) n target) :
    ∃ m ∈ stack, m ∉ seen ∧ ReflTransGen (Edge edges) m target := by
  induction hreach using ReflTransGen.head_induction_on with
  | refl => exact absurd hn h.missed
  | head hstep hrest ih =>
    rename_i a c
    by_cases hc : c ∈ seen
    · exact ih hc
    · exact ⟨c, (h.closed _ hn c hstep).resolve_left hc, hc, hrest⟩

theorem dfs_iff_of_frontier (edges : Dict ν (List ν)) (target : ν) (fuel : Nat)
    (stack seen : List ν) (hfuel : stack.length + unpushed seen edges.items < fuel)
    (h : Frontier edges target stack seen) :
    dfs edges target fuel stack seen = true ↔
      ∃ n ∈ stack, ReflTransGen (Edge edges) n target := by
  induction fuel generalizing stack seen with
  | zero => omega
  | succ fuel ih =>
    cases stack with
    | nil => simp [dfs]
    | cons node stack =>
      rw [dfs]
      split
      · rename_i htarget
        subst htarget
        exact iff_of_true rfl ⟨node, by simp, .refl⟩
      rename_i hne
      split
      · rename_i hseen
        have hrest : Frontier edges target stack seen := by
          refine ⟨fun n hn m hm => ?_, h.missed⟩
          rcases h.closed n hn m hm with hm | hm
          · exact .inl hm
          · rcases List.mem_cons.mp hm with rfl | hm
            · exact .inl hseen
            · exact .inr hm
        rw [ih stack seen (by simp at hfuel; omega) hrest]
        constructor
        · rintro ⟨n, hn, hreach⟩
          exact ⟨n, List.mem_cons_of_mem _ hn, hreach⟩
        · rintro ⟨n, hn, hreach⟩
          rcases List.mem_cons.mp hn with rfl | hn
          · obtain ⟨m, hm, -, hreach⟩ := hrest.leaves hseen hreach
            exact ⟨m, hm, hreach⟩
          · exact ⟨n, hn, hreach⟩
      · rename_i hseen
        have hnext : Frontier edges target (successors edges node ++ stack) (node :: seen) := by
          refine ⟨fun n hn m hm => ?_, by simp [h.missed, Ne.symm hne]⟩
          rcases List.mem_cons.mp hn with rfl | hn
          · exact .inr (List.mem_append_left _ hm)
          · rcases h.closed n hn m hm with hm | hm
            · exact .inl (List.mem_cons_of_mem _ hm)
            · rcases List.mem_cons.mp hm with rfl | hm
              · exact .inl (by simp)
              · exact .inr (List.mem_append_right _ hm)
        have hwork := unpushed_cons edges hseen
        rw [ih _ _ (by simp at hfuel ⊢; omega) hnext]
        constructor
        · rintro ⟨n, hn, hreach⟩
          rcases List.mem_append.mp hn with hn | hn
          · exact ⟨node, by simp, .head hn hreach⟩
          · exact ⟨n, List.mem_cons_of_mem _ hn, hreach⟩
        · rintro ⟨n, hn, hreach⟩
          rcases List.mem_cons.mp hn with rfl | hn
          · rcases hreach.cases_head with rfl | ⟨c, hstep, hreach⟩
            · exact absurd rfl hne
            · exact ⟨c, List.mem_append_left _ hstep, hreach⟩
          · exact ⟨n, List.mem_append_right _ hn, hreach⟩

/-- Fuel for a search from a stack. -/
def fuelFrom (edges : Dict ν (List ν)) (stack : List ν) : Nat :=
  stack.length + unpushed [] edges.items + 1

/-- The search from a stack decides whether one of its nodes reaches the
target. -/
theorem dfs_iff_any (edges : Dict ν (List ν)) (stack : List ν) (target : ν) :
    dfs edges target (fuelFrom edges stack) stack [] = true ↔
      ∃ n ∈ stack, ReflTransGen (Edge edges) n target :=
  dfs_iff_of_frontier edges target _ _ _ (Nat.lt_succ_self _) ⟨by simp, by simp⟩

/-- The search from one node decides whether it reaches the target. -/
theorem dfs_iff (edges : Dict ν (List ν)) (source target : ν) :
    dfs edges target (fuelFor edges) [source] [] = true ↔
      ReflTransGen (Edge edges) source target := by
  rw [dfs_iff_of_frontier edges target _ _ _ (by simp [fuelFor]; omega) ⟨by simp, by simp⟩]
  simp

end Search
