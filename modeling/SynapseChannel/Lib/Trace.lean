import Mathlib.Data.List.Induction
import Mathlib.Tactic.Common

/-!
# Lib — Trace

Runs of a deterministic machine as lists of calls, each with the state
it was made in. `provenance` finds, for a fact about the last state, the
call that established it with only calls that kept it after.
-/

namespace Trace

variable {σ ι κ : Type} (step : σ → ι → σ)

/-- The state after a sequence of inputs. -/
def run : σ → List ι → σ
  | s, [] => s
  | s, i :: rest => run (step s i) rest

/-- The calls of a run, each with the state before it. -/
def trace : σ → List ι → List (σ × ι)
  | _, [] => []
  | s, i :: rest => (s, i) :: trace (step s i) rest

theorem run_append (s : σ) (ops : List ι) (i : ι) :
    run step s (ops ++ [i]) = step (run step s ops) i := by
  induction ops generalizing s with
  | nil => rfl
  | cons _ rest ih => exact ih _

theorem trace_append (s : σ) (ops : List ι) (i : ι) :
    trace step s (ops ++ [i]) = trace step s ops ++ [(run step s ops, i)] := by
  induction ops generalizing s with
  | nil => rfl
  | cons _ rest ih => exact congrArg _ (ih _)

theorem trace_sub {s : σ} {pre ops : List ι} (h : pre <+: ops) :
    ∀ call ∈ trace step s pre, call ∈ trace step s ops := by
  obtain ⟨rest, rfl⟩ := h
  induction pre generalizing s with
  | nil =>
    intro call hcall
    cases hcall
  | cons i pre ih =>
    intro call hcall
    rcases List.mem_cons.mp hcall with rfl | hcall
    · exact List.mem_cons_self
    · exact List.mem_cons_of_mem _ (ih call hcall)

theorem run_eq_foldl (s : σ) (ops : List ι) : run step s ops = ops.foldl step s := by
  induction ops generalizing s with
  | nil => rfl
  | cons _ rest ih => exact ih _

/-- A property that every step preserves holds along every run. -/
theorem invariant {P : σ → Prop} (hstep : ∀ s i, P s → P (step s i)) {s : σ} (h : P s)
    (ops : List ι) : P (run step s ops) := by
  induction ops generalizing s with
  | nil => exact h
  | cons i rest ih => exact ih (hstep s i h)

/-- Every call of a run satisfies `P` in the state it is made in. -/
def Every (P : σ → ι → Prop) : σ → List ι → Prop
  | _, [] => True
  | s, i :: rest => P s i ∧ Every P (step s i) rest

instance (P : σ → ι → Prop) [∀ s i, Decidable (P s i)] :
    ∀ (s : σ) (ops : List ι), Decidable (Every step P s ops)
  | _, [] => inferInstanceAs (Decidable True)
  | s, i :: rest =>
    have := instDecidableEvery P (step s i) rest
    inferInstanceAs (Decidable (P s i ∧ Every step P (step s i) rest))

theorem Every.and {P Q : σ → ι → Prop} {s : σ} {ops : List ι} (h : Every step P s ops)
    (h' : Every step Q s ops) : Every step (fun s i => P s i ∧ Q s i) s ops := by
  induction ops generalizing s with
  | nil => trivial
  | cons i rest ih => exact ⟨⟨h.1, h'.1⟩, ih h.2 h'.2⟩

theorem Every.of_forall {P : ι → Prop} {s : σ} {ops : List ι} (h : ∀ i ∈ ops, P i) :
    Every step (fun _ i => P i) s ops := by
  induction ops generalizing s with
  | nil => trivial
  | cons i rest ih =>
    exact ⟨h i List.mem_cons_self, ih fun j hj => h j (List.mem_cons_of_mem _ hj)⟩

theorem Every.imp {P Q : σ → ι → Prop} (hpq : ∀ s i, P s i → Q s i) {s : σ} {ops : List ι}
    (h : Every step P s ops) : Every step Q s ops := by
  induction ops generalizing s with
  | nil => trivial
  | cons i rest ih => exact ⟨hpq s i h.1, ih h.2⟩

/-- `P` of every call, said of the prefixes of the run. -/
theorem every_iff {P : σ → ι → Prop} {s : σ} {ops : List ι} :
    Every step P s ops ↔ ∀ pre i, pre ++ [i] <+: ops → P (run step s pre) i := by
  induction ops generalizing s with
  | nil =>
    constructor
    · intro _ pre i hpre
      simp at hpre
    · intro _
      trivial
  | cons j rest ih =>
    constructor
    · rintro ⟨hj, hrest⟩ pre i hpre
      cases pre with
      | nil =>
        rw [List.nil_append, List.cons_prefix_cons] at hpre
        rw [hpre.1]
        exact hj
      | cons k pre =>
        rw [List.cons_append, List.cons_prefix_cons] at hpre
        rw [hpre.1]
        exact ih.mp hrest pre i hpre.2
    · intro h
      refine ⟨h [] j (by simp), ih.mpr ?_⟩
      intro pre i hpre
      exact h (j :: pre) i (by simpa using hpre)

theorem Every.of_prefix {P : σ → ι → Prop} {s : σ} {pre ops : List ι}
    (h : Every step P s ops) (hpre : pre <+: ops) : Every step P s pre := by
  rw [every_iff] at h ⊢
  intro before i hbefore
  exact h before i (hbefore.trans hpre)

/-- An invariant that every call meeting `P` preserves, and what it gives of
each of these calls. -/
theorem every_invariant {I : σ → Prop} {P Q : σ → ι → Prop}
    (hstep : ∀ s i, I s → P s i → I (step s i)) (hcall : ∀ s i, I s → P s i → Q s i) {s : σ}
    (h : I s) {ops : List ι} (hevery : Every step P s ops) :
    I (run step s ops) ∧ Every step Q s ops := by
  induction ops generalizing s with
  | nil => exact ⟨h, trivial⟩
  | cons i rest ih =>
    obtain ⟨hrun, hlater⟩ := ih (hstep s i h hevery.1) hevery.2
    exact ⟨hrun, hcall s i h hevery.1, hlater⟩

/-- Some call grants, and every later one keeps. -/
def Since {α : Type} (grant keep : α → Prop) (calls : List α) : Prop :=
  ∃ before call after, calls = before ++ call :: after ∧ grant call ∧ ∀ m ∈ after, keep m

theorem Since.now {α : Type} {grant keep : α → Prop} (calls : List α) {call : α}
    (h : grant call) : Since grant keep (calls ++ [call]) :=
  ⟨calls, call, [], rfl, h, by simp⟩

theorem Since.later {α : Type} {grant keep : α → Prop} {calls : List α}
    (h : Since grant keep calls) {call : α} (hk : keep call) :
    Since grant keep (calls ++ [call]) := by
  obtain ⟨before, g, after, rfl, hg, hafter⟩ := h
  refine ⟨before, g, after ++ [call], by simp, hg, fun m hm => ?_⟩
  rcases List.mem_append.mp hm with hm | hm
  · exact hafter m hm
  · exact List.mem_singleton.mp hm ▸ hk

/-- Where a fact `F` about the last state comes from, under an invariant:
some call established it (`G`) and every later one kept it (`K`). -/
theorem provenance {I : σ → Prop} {F : κ → σ → Prop} {G K : κ → σ × ι → Prop}
    (hinv : ∀ s i, I s → I (step s i))
    (hstep : ∀ k s i, I s → F k (step s i) → G k (s, i) ∨ (F k s ∧ K k (s, i)))
    {s : σ} (h : I s) (hnone : ∀ k, ¬ F k s) (ops : List ι) (k : κ)
    (hk : F k (run step s ops)) : Since (G k) (K k) (trace step s ops) := by
  induction ops using List.reverseRecOn generalizing k with
  | nil => exact absurd hk (hnone k)
  | append_singleton ops i ih =>
    rw [run_append] at hk
    rw [trace_append]
    rcases hstep k _ i (invariant step hinv h ops) hk with hg | ⟨hold, hkeep⟩
    · exact .now _ hg
    · exact (ih k hold).later hkeep

/-- The stamps of a run increase strictly when each is above the bound of
the state it is made in and the bound never falls. -/
theorem stamps_increase {Inv : σ → Prop} {bound : σ → Int} {stamp : σ × ι → Option Int}
    (hinv : ∀ s i, Inv s → Inv (step s i)) (hbound : ∀ s i, bound s ≤ bound (step s i))
    (hstamp : ∀ s i e, Inv s → stamp (s, i) = some e → bound s < e ∧ e ≤ bound (step s i))
    {s : σ} (h : Inv s) (ops : List ι) :
    ((trace step s ops).filterMap stamp).Pairwise (· < ·) ∧
      ∀ e ∈ (trace step s ops).filterMap stamp, bound s < e := by
  induction ops generalizing s with
  | nil => exact ⟨.nil, by simp [trace]⟩
  | cons i rest ih =>
    obtain ⟨hsorted, habove⟩ := ih (hinv s i h)
    have hlater : ∀ e ∈ (trace step (step s i) rest).filterMap stamp, bound s < e :=
      fun e he => Int.lt_of_le_of_lt (hbound s i) (habove e he)
    rw [trace, List.filterMap_cons]
    cases hs : stamp (s, i) with
    | none => exact ⟨hsorted, hlater⟩
    | some e =>
      obtain ⟨hlo, hhi⟩ := hstamp s i e h hs
      refine ⟨List.pairwise_cons.mpr
        ⟨fun e' he' => Int.lt_of_le_of_lt hhi (habove e' he'), hsorted⟩, fun e' he' => ?_⟩
      rcases List.mem_cons.mp he' with rfl | he'
      · exact hlo
      · exact hlater e' he'

end Trace
