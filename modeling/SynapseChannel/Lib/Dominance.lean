import Mathlib.Data.List.Nodup
import Mathlib.Data.List.Perm.Subperm
import Mathlib.Logic.Relation
import Mathlib.Order.WellFounded

/-!
# Lib — Dominance

Reachability by breadth-first search, and the nodes of a directed graph
that a node dominates: those every path from a root to which meets it.
A saturating loop over the predecessors computes them in any order.
-/

namespace SynapseChannel

namespace Dominance

open Relation

variable {ν : Type} {r : ν → ν → Prop}

/-! ## Paths -/

/-- A path of `r` from `a`, with the nodes on it, the last one first. -/
inductive Path (r : ν → ν → Prop) (a : ν) : ν → List ν → Prop
  | here : Path r a a [a]
  | step {b c : ν} {nodes : List ν} : Path r a b nodes → r b c → Path r a c (c :: nodes)

/-- A node no edge leads to. -/
def Root (r : ν → ν → Prop) (a : ν) : Prop := ∀ p, ¬ r p a

/-- Every path from a root to `n` meets `x`. -/
def Dominates (r : ν → ν → Prop) (x n : ν) : Prop :=
  ∀ a nodes, Root r a → Path r a n nodes → x ∈ nodes

theorem Path.last_mem {a b : ν} {nodes : List ν} (h : Path r a b nodes) : b ∈ nodes := by
  cases h with
  | here => simp
  | step => simp

theorem Path.reach {a b : ν} {nodes : List ν} (h : Path r a b nodes) {n : ν} (hn : n ∈ nodes) :
    ReflTransGen r n b := by
  induction h with
  | here =>
      have : n = a := by simpa using hn
      rw [this]
  | @step b c nodes _ hbc ih =>
      rcases List.mem_cons.mp hn with heq | hmem
      · rw [heq]
      · exact (ih hmem).tail hbc

theorem exists_path {a b : ν} (h : ReflTransGen r a b) : ∃ nodes, Path r a b nodes := by
  induction h with
  | refl => exact ⟨[a], .here⟩
  | tail _ hbc ih =>
      obtain ⟨nodes, hpath⟩ := ih
      exact ⟨_, hpath.step hbc⟩

theorem exists_root (wf : WellFounded r) (n : ν) : ∃ a, Root r a ∧ ReflTransGen r a n := by
  induction n using wf.induction with
  | _ n ih =>
      by_cases h : ∃ p, r p n
      · obtain ⟨p, hp⟩ := h
        obtain ⟨a, ha, hreach⟩ := ih p hp
        exact ⟨a, ha, hreach.tail hp⟩
      · exact ⟨n, fun p hp => h ⟨p, hp⟩, .refl⟩

/-! ## The least set of lost nodes -/

/-- The nodes of `A` that lose every predecessor once `x` is gone. -/
inductive Lost (r : ν → ν → Prop) (x : ν) (A : ν → Prop) : ν → Prop
  | mk {n : ν} (hA : A n) (h : ∀ s, r s n → s ≠ x → Lost r x A s) : Lost r x A n

theorem Lost.affected {x : ν} {A : ν → Prop} {n : ν} (h : Lost r x A n) : A n := by
  cases h with
  | mk hA _ => exact hA

/-- The nodes strictly behind `x`. -/
def Behind (r : ν → ν → Prop) (x n : ν) : Prop := n ≠ x ∧ ReflTransGen r x n

theorem Behind.not_root {x n : ν} (h : Behind r x n) : ¬ Root r n := by
  intro hroot
  rcases ReflTransGen.cases_tail h.2 with heq | ⟨p, _, hp⟩
  · exact h.1 heq
  · exact hroot p hp

theorem Lost.dominates {x n : ν} (h : Lost r x (Behind r x) n) : Dominates r x n := by
  induction h with
  | @mk n hA _ ih =>
      intro a nodes ha hpath
      cases hpath with
      | here => exact absurd ha hA.not_root
      | @step b _ nodes hb hbn =>
          by_cases hbx : b = x
          · exact List.mem_cons_of_mem _ (hbx ▸ hb.last_mem)
          · exact List.mem_cons_of_mem _ (ih b hbn hbx a nodes ha hb)

theorem Dominates.before {x n s : ν} (h : Dominates r x n) (hne : n ≠ x) (hs : r s n) :
    Dominates r x s := by
  intro a nodes ha hpath
  rcases List.mem_cons.mp (h a _ ha (hpath.step hs)) with heq | hmem
  · exact absurd heq.symm hne
  · exact hmem

theorem lost_of_dominates (wf : WellFounded r) {x n : ν} (hn : Behind r x n)
    (h : Dominates r x n) : Lost r x (Behind r x) n := by
  induction n using wf.induction with
  | _ n ih =>
      refine .mk hn fun s hs hsx => ?_
      have hdom : Dominates r x s := h.before hn.1 hs
      -- a root reaches `s`, and the path it takes meets `x`
      obtain ⟨a, ha, hreach⟩ := exists_root wf s
      obtain ⟨nodes, hpath⟩ := exists_path hreach
      have hxs : ReflTransGen r x s := hpath.reach (hdom a nodes ha hpath)
      exact ih s hs ⟨hsx, hxs⟩ hdom

theorem lost_iff (wf : WellFounded r) {x n : ν} :
    Lost r x (Behind r x) n ↔ Behind r x n ∧ Dominates r x n := by
  constructor
  · intro h
    exact ⟨h.affected, h.dominates⟩
  · intro h
    exact lost_of_dominates wf h.1 h.2

/-! ## Images -/

/-- `f` carries the steps of `r`, which join nodes of `S`, to those of `r'`. -/
structure Carries {μ : Type} (f : ν → μ) (S : ν → Prop) (r : ν → ν → Prop)
    (r' : μ → μ → Prop) : Prop where
  inj : ∀ {a b}, S a → S b → f a = f b → a = b
  within : ∀ {a b}, r a b → S a ∧ S b
  step : ∀ a' b', r' a' b' ↔ ∃ a b, f a = a' ∧ f b = b' ∧ r a b

section Images

variable {μ : Type} {f : ν → μ} {S : ν → Prop} {r' : μ → μ → Prop}

theorem Carries.reach (h : Carries f S r r') {a : ν} (ha : S a) (b' : μ) :
    ReflTransGen r' (f a) b' ↔ ∃ b, S b ∧ f b = b' ∧ ReflTransGen r a b := by
  constructor
  · intro hreach
    induction hreach with
    | refl => exact ⟨a, ha, rfl, .refl⟩
    | tail _ hstep ih =>
        obtain ⟨b, hb, rfl, hab⟩ := ih
        obtain ⟨b₁, c, hb₁, hc, hbc⟩ := (h.step _ _).mp hstep
        have heq := h.inj (h.within hbc).1 hb hb₁
        exact ⟨c, (h.within hbc).2, hc, hab.tail (heq ▸ hbc)⟩
  · rintro ⟨b, -, rfl, hab⟩
    induction hab with
    | refl => exact .refl
    | tail _ hbc ih => exact ih.tail ((h.step _ _).mpr ⟨_, _, rfl, rfl, hbc⟩)

theorem Carries.behind (h : Carries f S r r') {x n : ν} (hx : S x) (hn : S n) :
    Behind r' (f x) (f n) ↔ Behind r x n := by
  unfold Behind
  rw [h.reach hx]
  constructor
  · rintro ⟨hne, b, hb, heq, hreach⟩
    rw [h.inj hb hn heq] at hreach
    exact ⟨fun heq => hne (congrArg f heq), hreach⟩
  · rintro ⟨hne, hreach⟩
    exact ⟨fun heq => hne (h.inj hn hx heq), n, hn, rfl, hreach⟩

theorem Carries.path (h : Carries f S r r') {a n : ν} {nodes : List ν} (hpath : Path r a n nodes) :
    Path r' (f a) (f n) (nodes.map f) := by
  induction hpath with
  | here => exact .here
  | step _ hbc ih => exact ih.step ((h.step _ _).mpr ⟨_, _, rfl, rfl, hbc⟩)

theorem Carries.path_members (h : Carries f S r r') {a n : ν} {nodes : List ν} (hn : S n)
    (hpath : Path r a n nodes) : S a ∧ ∀ m ∈ nodes, S m := by
  induction hpath with
  | here => exact ⟨hn, by simpa using hn⟩
  | step _ hbc ih =>
      obtain ⟨ha, hnodes⟩ := ih (h.within hbc).1
      refine ⟨ha, fun m hm => ?_⟩
      rcases List.mem_cons.mp hm with rfl | hm
      · exact hn
      · exact hnodes m hm

/-- A path to an image is the image of a path. -/
theorem Carries.lift (h : Carries f S r r') {a' n' : μ} {nodes' : List μ}
    (hpath : Path r' a' n' nodes') {n : ν} (hn : S n) (heq : f n = n') :
    ∃ a nodes, f a = a' ∧ nodes' = nodes.map f ∧ Path r a n nodes := by
  induction hpath generalizing n with
  | here => exact ⟨n, [n], heq, by simp [heq], .here⟩
  | step _ hstep ih =>
      obtain ⟨b, c, hb, hc, hbc⟩ := (h.step _ _).mp hstep
      have hcn := h.inj (h.within hbc).2 hn (hc.trans heq.symm)
      obtain ⟨a, nodes, ha, hnodes, hpath⟩ := ih (h.within hbc).1 hb
      exact ⟨a, n :: nodes, ha, by simp [hnodes, heq], hpath.step (hcn ▸ hbc)⟩

theorem Carries.root (h : Carries f S r r') {a : ν} (ha : S a) :
    Root r' (f a) ↔ Root r a := by
  constructor
  · intro hroot p hp
    exact hroot (f p) ((h.step _ _).mpr ⟨p, a, rfl, rfl, hp⟩)
  · intro hroot p' hp'
    obtain ⟨p, b, -, hb, hpb⟩ := (h.step _ _).mp hp'
    rw [h.inj (h.within hpb).2 ha hb] at hpb
    exact hroot p hpb

theorem Carries.dominates (h : Carries f S r r') {x n : ν} (hx : S x) (hn : S n) :
    Dominates r' (f x) (f n) ↔ Dominates r x n := by
  constructor
  · intro hdominates a nodes ha hpath
    obtain ⟨hsa, hnodes⟩ := h.path_members hn hpath
    have hmem := hdominates (f a) (nodes.map f) ((h.root hsa).mpr ha) (h.path hpath)
    obtain ⟨y, hy, heq⟩ := List.mem_map.mp hmem
    exact h.inj (hnodes y hy) hx heq ▸ hy
  · intro hdominates a' nodes' ha' hpath'
    obtain ⟨a, nodes, rfl, rfl, hpath⟩ := h.lift hpath' hn rfl
    have hsa := (h.path_members hn hpath).1
    exact List.mem_map_of_mem (hdominates a nodes ((h.root hsa).mp ha') hpath)

end Images

variable [DecidableEq ν]

/-! ## Breadth-first search -/

/-- Mark and queue the unseen ones of `nexts`. -/
def visit (seen queue : List ν) : List ν → List ν × List ν
  | [] => (seen, queue)
  | n :: rest =>
    if n ∈ seen then visit seen queue rest else visit (seen ++ [n]) (queue ++ [n]) rest

/-- The nodes seen once the queue is empty; `none` out of fuel. -/
def search (next : ν → List ν) : Nat → List ν → List ν → Option (List ν)
  | _, [], seen => some seen
  | 0, _ :: _, _ => none
  | fuel + 1, current :: queue, seen =>
    let found := visit seen queue (next current)
    search next fuel found.2 found.1

theorem visit_mem (seen queue nexts : List ν) (n : ν) :
    (n ∈ (visit seen queue nexts).1 ↔ n ∈ seen ∨ n ∈ nexts) ∧
      (n ∈ (visit seen queue nexts).2 ↔ n ∈ queue ∨ (n ∈ nexts ∧ n ∉ seen)) := by
  induction nexts generalizing seen queue with
  | nil => simp [visit]
  | cons m rest ih =>
      by_cases hm : m ∈ seen
      · simp only [visit, if_pos hm, ih, List.mem_cons]
        grind
      · simp only [visit, if_neg hm, ih, List.mem_append, List.mem_cons, List.not_mem_nil, or_false]
        grind

theorem visit_nodup {seen : List ν} (h : seen.Nodup) (queue nexts : List ν) :
    (visit seen queue nexts).1.Nodup := by
  induction nexts generalizing seen queue with
  | nil => exact h
  | cons m rest ih =>
      by_cases hm : m ∈ seen
      · simpa only [visit, if_pos hm] using ih h queue
      · have : (seen ++ [m]).Nodup := by
          simp only [List.nodup_append, List.mem_singleton]
          grind
        simpa only [visit, if_neg hm] using ih this _

theorem visit_length (seen queue nexts : List ν) :
    (visit seen queue nexts).1.length + queue.length
      = seen.length + (visit seen queue nexts).2.length := by
  induction nexts generalizing seen queue with
  | nil => simp [visit]
  | cons m rest ih =>
      by_cases hm : m ∈ seen
      · simpa only [visit, if_pos hm] using ih seen queue
      · have := ih (seen ++ [m]) (queue ++ [m])
        simp only [visit, if_neg hm]
        simp only [List.length_append, List.length_singleton] at this
        omega

/-- What a search from `x` keeps: what it has seen is reached from `x`,
and what is no longer queued has been expanded. -/
structure Searching (next : ν → List ν) (x : ν) (queue seen : List ν) : Prop where
  start : x ∈ seen
  queued : ∀ n ∈ queue, n ∈ seen
  reached : ∀ n ∈ seen, ReflTransGen (fun a b => b ∈ next a) x n
  expanded : ∀ n ∈ seen, n ∉ queue → ∀ m ∈ next n, m ∈ seen
  nodup : seen.Nodup

variable {next : ν → List ν} {x : ν} {queue seen : List ν}

omit [DecidableEq ν] in
theorem Searching.init (next : ν → List ν) (x : ν) : Searching next x [x] [x] where
  start := by simp
  queued := by simp
  reached := by
    intro n hn
    have : n = x := by simpa using hn
    rw [this]
  expanded := by
    intro n hn hq
    exact absurd hn hq
  nodup := by simp

theorem Searching.step {current : ν} (h : Searching next x (current :: queue) seen) :
    Searching next x (visit seen queue (next current)).2 (visit seen queue (next current)).1 where
  start := (visit_mem _ _ _ _).1.mpr (.inl h.start)
  queued := by
    intro n hn
    rcases (visit_mem _ _ _ _).2.mp hn with hn | ⟨hn, _⟩
    · exact (visit_mem _ _ _ _).1.mpr (.inl (h.queued n (List.mem_cons_of_mem _ hn)))
    · exact (visit_mem _ _ _ _).1.mpr (.inr hn)
  reached := by
    intro n hn
    rcases (visit_mem _ _ _ _).1.mp hn with hn | hn
    · exact h.reached n hn
    · exact (h.reached current (h.queued current (by simp))).tail hn
  expanded := by
    intro n hn hq m hm
    rw [(visit_mem _ _ _ _).1]
    rw [(visit_mem _ _ _ _).2, not_or] at hq
    by_cases hseen : n ∈ seen
    · by_cases hcur : n = current
      · exact .inr (hcur ▸ hm)
      · exact .inl (h.expanded n hseen (by simp [hcur, hq.1]) m hm)
    · rcases (visit_mem _ _ _ _).1.mp hn with hn | hn
      · exact absurd hn hseen
      · exact absurd ⟨hn, hseen⟩ hq.2
  nodup := visit_nodup h.nodup _ _

omit [DecidableEq ν] in
theorem Searching.mem_iff (h : Searching next x [] seen) (n : ν) :
    n ∈ seen ↔ ReflTransGen (fun a b => b ∈ next a) x n := by
  constructor
  · exact h.reached n
  · intro hreach
    induction hreach with
    | refl => exact h.start
    | tail _ hbc ih => exact h.expanded _ ih (by simp) _ hbc

/-- A search whose fuel covers the nodes that can be seen ends. -/
theorem search_from {nodes : List ν} (hnodes : ∀ n, ReflTransGen (fun a b => b ∈ next a) x n →
    n ∈ nodes) (fuel : Nat) (hfuel : nodes.length + queue.length ≤ fuel + seen.length)
    (h : Searching next x queue seen) :
    ∃ result, search next fuel queue seen = some result ∧ result.Nodup ∧
      ∀ n, n ∈ result ↔ ReflTransGen (fun a b => b ∈ next a) x n := by
  induction fuel generalizing queue seen with
  | zero =>
      cases queue with
      | nil => exact ⟨seen, rfl, h.nodup, h.mem_iff⟩
      | cons current queue =>
          have hle : seen.length ≤ nodes.length :=
            (List.subperm_of_subset h.nodup fun n hn => hnodes n (h.reached n hn)).length_le
          simp only [List.length_cons] at hfuel
          omega
  | succ fuel ih =>
      cases queue with
      | nil => exact ⟨seen, rfl, h.nodup, h.mem_iff⟩
      | cons current queue =>
          have hlen := visit_length seen queue (next current)
          simp only [List.length_cons] at hfuel
          exact ih (by omega) h.step

theorem search_spec (next : ν → List ν) (x : ν) {nodes : List ν} (hnodes : ∀ n, ReflTransGen (fun a b => b ∈ next a) x n →
    n ∈ nodes) : ∃ result, search next nodes.length [x] [x] = some result ∧ result.Nodup ∧
      ∀ n, n ∈ result ↔ ReflTransGen (fun a b => b ∈ next a) x n :=
  search_from hnodes nodes.length (by simp) (.init next x)

/-! ## Saturation -/

/-- One pass over `order`: a node is found once each of its sources is
`x` or found. The flag tells whether one was. -/
def pass (sources : ν → List ν) (x : ν) : List ν → List ν × Bool → List ν × Bool
  | [], acc => acc
  | n :: rest, (found, changed) =>
    if n ∈ found then pass sources x rest (found, changed)
    else if (sources n).all fun s => s = x || s ∈ found then
      pass sources x rest (found ++ [n], true)
    else pass sources x rest (found, changed)

/-- Passes until one changes nothing, the k-th over `order k`; `none` out
of fuel. -/
def saturate (sources : ν → List ν) (x : ν) (order : Nat → List ν) :
    Nat → Nat → List ν → Option (List ν)
  | 0, _, _ => none
  | fuel + 1, k, found =>
    let passed := pass sources x (order k) (found, false)
    if passed.2 then saturate sources x order fuel (k + 1) passed.1 else some passed.1

variable {sources : ν → List ν} {A : ν → Prop} {found order : List ν} {changed : Bool}

/-- Only lost nodes are found, each once. -/
structure Finding (sources : ν → List ν) (x : ν) (A : ν → Prop) (found : List ν) : Prop where
  lost : ∀ n ∈ found, Lost (fun s n => s ∈ sources n) x A n
  nodup : found.Nodup

theorem Finding.pass (changed : Bool) (horder : ∀ n ∈ order, A n)
    (h : Finding sources x A found) :
    Finding sources x A (pass sources x order (found, changed)).1 := by
  induction order generalizing found changed with
  | nil => exact h
  | cons n rest ih =>
      have hrest : ∀ m ∈ rest, A m := fun m hm => horder m (List.mem_cons_of_mem _ hm)
      unfold Dominance.pass
      split
      · exact ih _ hrest h
      · rename_i hnew
        split
        · rename_i hall
          refine ih _ hrest ⟨?_, ?_⟩
          · intro m hm
            rcases List.mem_append.mp hm with hm | hm
            · exact h.lost m hm
            · have hmn : m = n := by simpa using hm
              refine hmn ▸ .mk (horder n (by simp)) fun s hs hsx => ?_
              have := List.all_eq_true.mp hall s hs
              exact h.lost s (by simpa [hsx] using this)
          · simp only [List.nodup_append, List.mem_singleton]
            have := h.nodup
            grind
        · exact ih _ hrest h

theorem le_pass (found : List ν) (changed : Bool) :
    found.length ≤ (pass sources x order (found, changed)).1.length := by
  induction order generalizing found changed with
  | nil => exact Nat.le_refl _
  | cons n rest ih =>
      unfold pass
      split
      · exact ih found changed
      · split
        · have := ih (found ++ [n]) true
          simp only [List.length_append, List.length_singleton] at this
          omega
        · exact ih found changed

/-- A pass that raises the flag finds a node. -/
theorem lt_pass (hflag : (pass sources x order (found, false)).2 = true) :
    found.length < (pass sources x order (found, false)).1.length := by
  induction order generalizing found with
  | nil => cases hflag
  | cons n rest ih =>
      unfold pass at hflag ⊢
      split at hflag
      · rename_i h
        simpa only [if_pos h] using ih hflag
      · rename_i hnew
        split at hflag
        · rename_i hall
          simp only [if_neg hnew, if_pos hall]
          have : (found ++ [n]).length ≤ (pass sources x rest (found ++ [n], true)).1.length :=
            le_pass (found ++ [n]) true
          simp only [List.length_append, List.length_singleton] at this
          omega
        · rename_i hall
          simpa only [if_neg hnew, if_neg hall] using ih hflag

theorem flag_pass : (pass sources x order (found, true)).2 = true := by
  induction order generalizing found with
  | nil => rfl
  | cons n rest ih =>
      unfold pass
      split
      · exact ih
      · split
        · exact ih
        · exact ih

/-- A pass that leaves the flag down meets only nodes that keep a source. -/
theorem closed_of_pass (hflag : (pass sources x order (found, false)).2 = false) :
    (pass sources x order (found, false)).1 = found ∧
      ∀ n ∈ order, n ∉ found → ∃ s ∈ sources n, s ≠ x ∧ s ∉ found := by
  induction order with
  | nil => simp [pass]
  | cons n rest ih =>
      unfold pass at hflag ⊢
      split at hflag
      · rename_i h
        simp only [if_pos h, List.mem_cons, forall_eq_or_imp]
        exact ⟨(ih hflag).1, fun hnew => absurd h hnew, (ih hflag).2⟩
      · rename_i hnew
        split at hflag
        · rw [flag_pass] at hflag
          cases hflag
        · rename_i hall
          simp only [if_neg hnew, if_neg hall, List.mem_cons, forall_eq_or_imp]
          refine ⟨(ih hflag).1, fun _ => ?_, (ih hflag).2⟩
          simpa only [Bool.not_eq_true, List.all_eq_false, Bool.or_eq_true, decide_eq_true_eq,
            not_or] using hall

theorem lost_of_closed (hclosed : ∀ n, A n → n ∉ found → ∃ s ∈ sources n, s ≠ x ∧ s ∉ found)
    {n : ν} (h : Lost (fun s n => s ∈ sources n) x A n) : n ∈ found := by
  induction h with
  | @mk n hA _ ih =>
      by_contra hnew
      obtain ⟨s, hs, hsx, hsnew⟩ := hclosed n hA hnew
      exact hsnew (ih s hs hsx)

/-- Whatever the order of each pass, saturation ends with the lost nodes. -/
theorem saturate_from {orders : Nat → List ν} {nodes : List ν}
    (horders : ∀ k n, n ∈ orders k ↔ A n) (hnodes : ∀ n, A n → n ∈ nodes) (fuel k : Nat)
    (hfuel : nodes.length < fuel + found.length) (h : Finding sources x A found) :
    ∃ result, saturate sources x orders fuel k found = some result ∧ result.Nodup ∧
      ∀ n, n ∈ result ↔ Lost (fun s n => s ∈ sources n) x A n := by
  induction fuel generalizing k found with
  | zero =>
      have hle : found.length ≤ nodes.length :=
        (List.subperm_of_subset h.nodup fun n hn => hnodes n (h.lost n hn).affected).length_le
      omega
  | succ fuel ih =>
      have hpass := h.pass false (fun n hn => (horders k n).mp hn)
      unfold saturate
      by_cases hflag : (pass sources x (orders k) (found, false)).2 = true
      · have hlt := lt_pass hflag
        simp only [hflag, if_true]
        exact ih (k + 1) (by omega) hpass
      · have hdone := closed_of_pass (Bool.not_eq_true _ ▸ hflag)
        simp only [hflag]
        refine ⟨_, rfl, hpass.nodup, fun n => ⟨hpass.lost n, fun hn => ?_⟩⟩
        rw [hdone.1]
        exact lost_of_closed (fun m hm => hdone.2 m ((horders k m).mpr hm)) hn

theorem saturate_spec (sources : ν → List ν) (x : ν) {A : ν → Prop} {orders : Nat → List ν}
    {nodes : List ν} (horders : ∀ k n, n ∈ orders k ↔ A n) (hnodes : ∀ n, A n → n ∈ nodes) :
    ∃ result, saturate sources x orders (nodes.length + 1) 0 [] = some result ∧ result.Nodup ∧
      ∀ n, n ∈ result ↔ Lost (fun s n => s ∈ sources n) x A n :=
  saturate_from horders hnodes (nodes.length + 1) 0 (by simp) ⟨by simp, by simp⟩

end Dominance

end SynapseChannel
