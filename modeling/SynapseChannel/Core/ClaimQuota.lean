import SynapseChannel.Core.Fencing
import SynapseChannel.Lib.DictCount

/-!
# Core — ClaimQuota

The claim cap over whole runs. No quota principal is ever charged with more
live claims than the cap. What an agent owns is another number: a handoff is
checked against the claims charged to the recipient's name, and moves one
that stays charged to its giver.
-/

namespace SynapseChannel

open Py

namespace SynapseState

/-- No principal is charged with more live claims than the cap. -/
def WithinQuota (s : SynapseState) : Prop :=
  ∀ principal, (s.claimsOwnedBy principal : Int) ≤ s.maxClaimsPerAgent

theorem WithinQuota.of_sub {s t : SynapseState} (h : s.WithinQuota)
    (hsub : t.claims.Sub s.claims) (hmax : t.maxClaimsPerAgent = s.maxClaimsPerAgent) :
    t.WithinQuota := by
  intro principal
  have hle : t.claimsOwnedBy principal ≤ s.claimsOwnedBy principal := hsub.count_le _
  have := h principal
  omega

@[simp] theorem heartbeat_maxClaims (s : SynapseState) (agent : String) (now : Float) :
    (s.heartbeat agent now).maxClaimsPerAgent = s.maxClaimsPerAgent := by
  obtain ⟨_, _, _, _, -, heq⟩ :=
    { s with lastSeen := s.lastSeen.set agent now }.snapshot_eq now
  rw [heartbeat_eq_snapshot, heq]

theorem WithinQuota.heartbeat {s : SynapseState} (h : s.WithinQuota) (agent : String)
    (now : Float) : (s.heartbeat agent now).WithinQuota :=
  h.of_sub (s.heartbeat_claims_sub agent now) (heartbeat_maxClaims s agent now)

theorem WithinQuota.remove {s : SynapseState} (h : s.WithinQuota) (task : String) :
    (s.remove task).WithinQuota :=
  h.of_sub (Dict.Sub.erase _ _) rfl

/-- Storing a claim keeps the cap if its charge was there or has room. -/
theorem WithinQuota.store {s t : SynapseState} (h : s.WithinQuota) {task : String}
    {claim : TaskClaim} (hclaims : t.claims = s.claims.set task claim)
    (hmax : t.maxClaimsPerAgent = s.maxClaimsPerAgent)
    (hroom : (∃ old, s.claims.get? task = some old ∧ claim.chargedTo = old.chargedTo) ∨
      (s.claimsOwnedBy claim.chargedTo : Int) < s.maxClaimsPerAgent) : t.WithinQuota := by
  intro principal
  have hbefore := h principal
  have hcount : t.claimsOwnedBy principal =
      (s.claims.set task claim).count fun c => decide (c.chargedTo = principal) := by
    rw [← hclaims]
    rfl
  have hold : s.claimsOwnedBy principal =
      s.claims.count fun c => decide (c.chargedTo = principal) := rfl
  rcases hroom with ⟨old, hget, hcharge⟩ | hroom
  · rw [Dict.count_set_same (p := fun c => decide (c.chargedTo = principal)) hget
      (by rw [hcharge])] at hcount
    omega
  · by_cases hcharge : claim.chargedTo = principal
    · subst hcharge
      have := Dict.count_set_le (d := s.claims)
        (fun c => decide (c.chargedTo = claim.chargedTo)) task claim
      omega
    · have := Dict.count_set_of_not (d := s.claims) (k := task)
        (p := fun c => decide (c.chargedTo = principal)) (v := claim) (by simpa using hcharge)
      omega

/-- A claim is charged to its principal, which is never blank unless the
agent's name is. -/
theorem chargedTo_newClaim [Builtins] (s : SynapseState) (agent task : String) (now ttl : Float)
    (quotaPrincipal : Option String) (paths : List String) (args : ClaimArgs) :
    (s.newClaim agent task now ttl (claimPrincipal agent quotaPrincipal) paths args).chargedTo =
      claimPrincipal agent quotaPrincipal := by
  unfold newClaim TaskClaim.postInit TaskClaim.chargedTo
  dsimp only
  by_cases hempty : claimPrincipal agent quotaPrincipal = ""
  · rw [if_pos hempty, hempty]
    unfold claimPrincipal at hempty
    dsimp only at hempty
    by_cases hblank : strip (if quotaPrincipal.getD "" = "" then agent
        else quotaPrincipal.getD "") = ""
    · rw [if_pos hblank] at hempty
      exact hempty
    · rw [if_neg hblank] at hempty
      exact absurd hempty hblank
  · rw [if_neg hempty]

variable [Builtins]

omit [Builtins] in
/-- A moved claim keeps its charge; only a claim charged to a blank name is
charged to the recipient. -/
theorem chargedTo_movedClaim (s : SynapseState) (task target : String) (claim : TaskClaim)
    (note : Option String) (now : Float) :
    (s.movedClaim task target claim note now).chargedTo = claim.chargedTo ∨
      (s.movedClaim task target claim note now).chargedTo = target := by
  have hmoved : (s.movedClaim task target claim note now).chargedTo =
      if claim.chargedTo = "" then target else claim.chargedTo := rfl
  rw [hmoved]
  by_cases hblank : claim.chargedTo = ""
  · rw [if_pos hblank]
    exact .inr rfl
  · rw [if_neg hblank]
    exact .inl rfl

/-- A handoff goes through only while the recipient's name has room. -/
theorem handoff_room {s : SynapseState} {agent taskId toAgent : String} {now : Float}
    {note : Option String} {epoch : Option Int}
    (h : (s.handoff agent taskId toAgent now note epoch).2.isOk = true) :
    ((s.heartbeat agent now).claimsOwnedBy (strip toAgent) : Int) < s.maxClaimsPerAgent := by
  unfold handoff at h
  dsimp only at h
  split at h
  · cases h
  split at h
  · cases h
  split at h
  · cases h
  split at h
  · cases h
  split at h
  · cases h
  split at h
  · cases h
  split at h
  · cases h
  split at h
  · cases h
  split at h
  · cases h
  rename_i hroom
  rw [heartbeat_maxClaims] at hroom
  omega

theorem withinQuota_next {s : SynapseState} (op : StateOp) (hs : s.WithinQuota) :
    (op.next s).WithinQuota := by
  have hroom : ∀ agent taskId toAgent now note epoch,
      op = .handoff agent taskId toAgent now note epoch → (op.apply s).2.isOk = true →
        ((s.heartbeat agent now).claimsOwnedBy (strip toAgent) : Int) <
          (s.heartbeat agent now).maxClaimsPerAgent := by
    rintro agent taskId toAgent now note epoch rfl hok
    rw [heartbeat_maxClaims]
    exact handoff_room hok
  have hstep := op.apply_step s
  show (op.apply s).1.WithinQuota
  generalize op.apply s = r at hroom hstep
  cases hstep with
  | invalid _ m => exact hs
  | refused _ agent now m => exact hs.heartbeat agent now
  | claimed agent taskId now args m h =>
    refine WithinQuota.store (hs.heartbeat agent now) rfl rfl ?_
    rw [chargedTo_newClaim]
    have hquota := h.quota
    unfold claimQuotaAvailable at hquota
    rw [Bool.or_eq_true, decide_eq_true_eq] at hquota
    rcases hquota with hrenewed | hfree
    · left
      rw [Option.any_eq_true] at hrenewed
      obtain ⟨old, hold, hsame⟩ := hrenewed
      simp only [Bool.and_eq_true, decide_eq_true_eq] at hsame
      exact ⟨old, hold, hsame.2.symm⟩
    · exact .inr hfree
  | renewed agent taskId now epoch paths claim m h _ _ =>
    exact (hs.heartbeat agent now).store rfl rfl (.inl ⟨claim, h.held, rfl⟩)
  | updated agent task now args claim m h _ _ _ =>
    exact (hs.heartbeat agent now).store rfl rfl (.inl ⟨claim, h.held, rfl⟩)
  | checkpointed agent taskId now checkpoint epoch claim m h _ =>
    exact (hs.heartbeat agent now).store rfl rfl (.inl ⟨claim, h.held, rfl⟩)
  | released agent taskId now epoch claim m _ h _ =>
    exact (hs.heartbeat agent now).remove _
  | revoked taskId operator claim m _ h => exact hs.remove _
  | moved agent taskId toAgent now note epoch claim m _ _ h _ _ _ =>
    refine WithinQuota.store (hs.heartbeat agent now) rfl rfl ?_
    rcases chargedTo_movedClaim (s.heartbeat agent now) (strip taskId) (strip toAgent) claim note
      now with hcharge | hcharge
    · exact .inl ⟨claim, h.held, hcharge⟩
    · rw [hcharge]
      exact .inr (hroom agent taskId toAgent now note epoch rfl rfl)
  | beat agent now m => exact hs.heartbeat agent now
  | viewed now m =>
    obtain ⟨claims, expired, index, resources, hsub, heq⟩ := s.snapshot_eq now
    rw [heq]
    exact hs.of_sub hsub rfl

theorem maxClaims_init (defaultTtl maxClaims maxOffers maxPaths : Json) :
    0 ≤ (init defaultTtl maxClaims maxOffers maxPaths).maxClaimsPerAgent := by
  show (0 : Int) ≤ (safeInt maxClaims (some maxClaimsPerAgentDefault) (some 1) none true).getD 1
  unfold safeInt
  cases unlessBool true Json.toInt? maxClaims with
  | none => decide
  | some n =>
    dsimp only [Option.getD_some]
    split <;> omega

theorem maxClaims_next (s : SynapseState) (op : StateOp) :
    (op.next s).maxClaimsPerAgent = s.maxClaimsPerAgent := by
  have hstep := op.apply_step s
  show (op.apply s).1.maxClaimsPerAgent = _
  generalize op.apply s = r at hstep
  cases hstep with
  | invalid _ m => rfl
  | viewed now m =>
    obtain ⟨claims, expired, index, resources, -, heq⟩ := s.snapshot_eq now
    rw [heq]
  | revoked taskId operator claim m _ h => rfl
  | _ => exact heartbeat_maxClaims s _ _

/-- Every quota principal stays within the cap the registry was made with,
over every run of its verbs. -/
theorem claims_within_quota (defaultTtl maxClaims maxOffers maxPaths : Json) (ops : List StateOp)
    (principal : String) :
    let start := init defaultTtl maxClaims maxOffers maxPaths
    ((start.run ops).claimsOwnedBy principal : Int) ≤ start.maxClaimsPerAgent := by
  intro start
  have hstart : start.WithinQuota := by
    intro principal
    exact maxClaims_init defaultTtl maxClaims maxOffers maxPaths
  have hrun : (start.run ops).WithinQuota ∧
      (start.run ops).maxClaimsPerAgent = start.maxClaimsPerAgent :=
    Trace.invariant (P := fun s => s.WithinQuota ∧ s.maxClaimsPerAgent = start.maxClaimsPerAgent)
      StateOp.next (fun s op h => ⟨withinQuota_next op h.1, (maxClaims_next s op).trans h.2⟩)
      ⟨hstart, rfl⟩ ops
  rw [← hrun.2]
  exact hrun.1 principal

end SynapseState

/-! ## Handoffs -/

variable [Builtins]

namespace Call

/-- Who a granted handoff gives its task to. -/
def recipient (call : Call) : Option String :=
  match call.2 with
  | .handoff _ _ toAgent _ _ _ => if call.granted then some (strip toAgent) else none
  | _ => none

end Call

namespace SynapseState

end SynapseState

end SynapseChannel
