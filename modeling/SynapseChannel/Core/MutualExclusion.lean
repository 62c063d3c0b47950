import SynapseChannel.Core.StateSteps

/-!
# Core — MutualExclusion

No two live claims of different owners contend for the same files, in
every registry reachable from an empty one. The check is made when a
scope changes hands (a claim or a handoff), against the claims of every
other owner; every other verb keeps owner and scope or drops the claim.
-/

namespace SynapseChannel

open Py

variable [Builtins]

/-- Live claims on different tasks with different owners do not contend,
whichever of the two is taken first. -/
def MutuallyExclusive (claims : Dict String TaskClaim) : Prop :=
  ∀ t u c d, claims.get? t = some c → claims.get? u = some d → t ≠ u → c.owner ≠ d.owner →
    claimScopesConflict c.worktree c.paths c.pathIdentity d.worktree d.paths d.pathIdentity = false

namespace MutuallyExclusive

theorem empty : MutuallyExclusive Dict.empty := by
  intro t u c d ht
  cases ht

theorem sub {claims claims' : Dict String TaskClaim} (h : MutuallyExclusive claims)
    (hsub : claims'.Sub claims) : MutuallyExclusive claims' :=
  fun t u c d ht hu => h t u c d (hsub t c ht) (hsub u d hu)

/-- Storing a claim that contends with no other owner's claim. -/
theorem set {claims : Dict String TaskClaim} (h : MutuallyExclusive claims) {task : String}
    {claim : TaskClaim}
    (hfree : ∀ u d, claims.get? u = some d → u ≠ task → d.owner ≠ claim.owner →
      d.contends claim.worktree claim.paths claim.pathIdentity = false) :
    MutuallyExclusive (claims.set task claim) := by
  intro t u c d ht hu htu howner
  rw [Dict.get?_set] at ht hu
  split at ht
  · rename_i htask
    subst htask
    cases ht
    rw [if_neg htu] at hu
    exact hfree u d hu (Ne.symm htu) (Ne.symm howner)
  · split at hu
    · rename_i htask
      subst htask
      cases hu
      -- the stored claim is the second of the pair: swap the comparison
      rw [claimScopesConflict_comm]
      exact hfree t c ht htu howner
    · exact h t u c d ht hu htu howner

/-- Storing a claim over one with the same owner and scope. -/
theorem set_same {claims : Dict String TaskClaim} (h : MutuallyExclusive claims) {task : String}
    {old claim : TaskClaim} (hold : claims.get? task = some old)
    (howner : claim.owner = old.owner) (hworktree : claim.worktree = old.worktree)
    (hpaths : claim.paths = old.paths) (hidentity : claim.pathIdentity = old.pathIdentity) :
    MutuallyExclusive (claims.set task claim) := by
  refine h.set fun u d hu hne hd => ?_
  rw [hworktree, hpaths, hidentity]
  exact h task u old d hold hu (Ne.symm hne) (by rw [← howner]; exact Ne.symm hd)

/-- Storing a claim whose scope the registry found free for its owner. -/
theorem set_free {claims : Dict String TaskClaim} (h : MutuallyExclusive claims) {task : String}
    {claim : TaskClaim}
    (hfree : findScopeConflict claims task claim.owner claim.worktree claim.paths
      claim.pathIdentity = none) : MutuallyExclusive (claims.set task claim) :=
  h.set fun _ _ hu hne hd => findScopeConflict_none hfree hu hne hd

end MutuallyExclusive

/-- Every call keeps the live claims mutually exclusive. -/
theorem StateStep.mutuallyExclusive {s : SynapseState} {op : StateOp}
    {r : SynapseState × Verdict} (hs : MutuallyExclusive s.claims) (step : StateStep s op r) :
    MutuallyExclusive r.1.claims := by
  have beat (agent : String) (now : Float) :
      MutuallyExclusive (s.heartbeat agent now).claims :=
    hs.sub (s.heartbeat_claims_sub agent now)
  cases step with
  | invalid => exact hs
  | refused _ agent now => exact beat agent now
  | claimed agent taskId now args m h =>
    have hfree := h.scope_free
    rw [SynapseState.heartbeat_maxPaths] at hfree
    exact (beat agent now).set_free hfree
  | renewed agent taskId now epoch paths claim m h =>
    exact (beat agent now).set_same h.held rfl rfl rfl rfl
  | updated agent task now args claim m h => exact (beat agent now).set_same h.held rfl rfl rfl rfl
  | checkpointed agent taskId now checkpoint epoch claim m h =>
    exact (beat agent now).set_same h.held rfl rfl rfl rfl
  | released agent taskId now => exact (beat agent now).sub (Dict.Sub.erase _ _)
  | revoked => exact hs.sub (Dict.Sub.erase _ _)
  | moved agent taskId toAgent now note epoch claim m htask htarget h hself hepoch hscope =>
    exact (beat agent now).set_free hscope
  | beat agent now => exact beat agent now
  | viewed now =>
    obtain ⟨claims, _, _, _, hsub, heq⟩ := s.snapshot_eq now
    rw [heq]
    exact hs.sub hsub

/-- Mutual exclusion: in every registry reachable from an empty one by
any calls, no two live claims of different owners on different tasks
contend. -/
theorem mutual_exclusion (defaultTtl maxClaims maxOffers maxPaths : Json) (ops : List StateOp) :
    MutuallyExclusive
      ((SynapseState.init defaultTtl maxClaims maxOffers maxPaths).run ops).claims :=
  SynapseState.run_induction (P := fun s => MutuallyExclusive s.claims)
    (fun _ _ _ hs step => step.mutuallyExclusive hs) MutuallyExclusive.empty ops

end SynapseChannel
