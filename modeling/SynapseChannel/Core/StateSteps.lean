import SynapseChannel.Core.State

/-!
# Core — StateSteps

What one call can do to the registry, said once: `StateStep` lists the
outcomes of every verb with the guards that hold there, `apply_step`
shows that every call is one of them, and `run_induction` is the
induction over a run that every invariant uses.
-/

namespace SynapseChannel

open Py

variable [Builtins]

/-- Who a call reports alive, and when. -/
def StateOp.caller : StateOp → Option (String × Float)
  | .claim agent _ now _ => some (agent, now)
  | .renewClaim agent _ now _ _ => some (agent, now)
  | .updateTask agent _ now _ => some (agent, now)
  | .saveCheckpoint agent _ now _ _ => some (agent, now)
  | .release agent _ now _ => some (agent, now)
  | .forceRelease _ _ => none
  | .handoff agent _ _ now _ _ => some (agent, now)
  | .heartbeat agent now => some (agent, now)
  | .snapshot _ => none

namespace SynapseState

/-- The guards of a granted claim, on the state after the heartbeat. -/
structure ClaimAdmitted (s : SynapseState) (agent task : String) (now : Float)
    (args : ClaimArgs) : Prop where
  task_ne : task ≠ ""
  scope_bound : ∀ x, args.pathIdentity = some x → x.validatesDisplayScope args.worktree
    (normalizePaths args.paths (some s.maxPathsPerClaim)) = true
  lapsed : ∀ e, s.claims.get? task = some e →
    (e.owner = agent ∧ args.requireUnclaimed = false) ∨ ¬ e.leaseExpiresAt > now
  scope_free : s.scopeConflict task agent args.worktree
    (normalizePaths args.paths (some s.maxPathsPerClaim)) args.pathIdentity = none
  quota : s.claimQuotaAvailable agent (claimPrincipal agent args.quotaPrincipal)
    (s.claims.get? task) = true

/-- The guards shared by the verbs on an owned claim. -/
structure Owned (s : SynapseState) (agent task : String) (claim : TaskClaim) : Prop where
  held : s.claims.get? task = some claim
  owner : claim.owner = agent
  custody : s.protectedTaskHeld task = false

/-! ## What a heartbeat leaves alone -/

section

omit [Builtins]

/-- An expiry sweep drops claims, retains checkpoints and shortens the
heap, and does nothing else. -/
theorem expireClaims_eq (s : SynapseState) (now : Float) :
    ∃ claims expired index, claims.Sub s.claims ∧ s.expireClaims now =
      { s with claims := claims, expiredCheckpoints := expired, leaseIndex := index } := by
  have fold (due : List LeaseEntry) (t : SynapseState) : ∃ claims expired,
      claims.Sub t.claims ∧ due.foldl (expireEntry now) t =
        { t with claims := claims, expiredCheckpoints := expired } := by
    induction due generalizing t with
    | nil => exact ⟨_, _, Dict.Sub.refl _, rfl⟩
    | cons e rest ih =>
      rw [List.foldl_cons]
      obtain ⟨claims, expired, hsub, heq⟩ := ih (expireEntry now t e)
      rw [heq]
      unfold expireEntry at hsub ⊢
      dsimp only at hsub ⊢
      split
      · rename_i hnone
        simp only [hnone] at hsub
        exact ⟨_, _, hsub, rfl⟩
      · rename_i claim hsome
        simp only [hsome] at hsub
        split
        · rename_i hskip
          rw [if_pos hskip] at hsub
          exact ⟨_, _, hsub, rfl⟩
        · rename_i hdrop
          rw [if_neg hdrop] at hsub
          exact ⟨_, _, hsub.trans (Dict.Sub.erase _ _), rfl⟩
  obtain ⟨claims, expired, hsub, heq⟩ :=
    fold (s.leaseIndex.popDue now).1 { s with leaseIndex := (s.leaseIndex.popDue now).2 }
  exact ⟨claims, expired, _, hsub, heq⟩

theorem snapshot_eq (s : SynapseState) (now : Float) :
    ∃ claims expired index resources, claims.Sub s.claims ∧ s.snapshot now =
      { s with claims := claims, expiredCheckpoints := expired, leaseIndex := index,
               resources := resources } := by
  obtain ⟨claims, expired, index, hsub, heq⟩ := s.expireClaims_eq now
  exact ⟨claims, expired, index, _, hsub, by rw [snapshot, heq]; rfl⟩

theorem heartbeat_eq_snapshot (s : SynapseState) (agent : String) (now : Float) :
    s.heartbeat agent now = { s with lastSeen := s.lastSeen.set agent now }.snapshot now := rfl

theorem heartbeat_claims_sub (s : SynapseState) (agent : String) (now : Float) :
    (s.heartbeat agent now).claims.Sub s.claims := by
  obtain ⟨claims, expired, index, resources, hsub, heq⟩ :=
    { s with lastSeen := s.lastSeen.set agent now }.snapshot_eq now
  rw [heartbeat_eq_snapshot, heq]
  exact hsub

@[simp] theorem heartbeat_epochSeq (s : SynapseState) (agent : String) (now : Float) :
    (s.heartbeat agent now).epochSeq = s.epochSeq := by
  obtain ⟨_, _, _, _, -, heq⟩ :=
    { s with lastSeen := s.lastSeen.set agent now }.snapshot_eq now
  rw [heartbeat_eq_snapshot, heq]

@[simp] theorem heartbeat_maxPaths (s : SynapseState) (agent : String) (now : Float) :
    (s.heartbeat agent now).maxPathsPerClaim = s.maxPathsPerClaim := by
  obtain ⟨_, _, _, _, -, heq⟩ :=
    { s with lastSeen := s.lastSeen.set agent now }.snapshot_eq now
  rw [heartbeat_eq_snapshot, heq]

end

end SynapseState

open SynapseState

/-- The outcomes of one call. -/
inductive StateStep (s : SynapseState) : StateOp → SynapseState × Verdict → Prop
  /-- Unusable arguments: nothing happens. -/
  | invalid (op : StateOp) (m : String) : StateStep s op (s, .error m)
  /-- A refusal leaves the caller's heartbeat behind. -/
  | refused (op : StateOp) (agent : String) (now : Float) (m : String)
      (hcaller : op.caller = some (agent, now)) :
      StateStep s op (s.heartbeat agent now, .error m)
  | claimed (agent taskId : String) (now : Float) (args : ClaimArgs) (m : String)
      (h : (s.heartbeat agent now).ClaimAdmitted agent (strip taskId) now args) :
      StateStep s (.claim agent taskId now args)
        ((s.heartbeat agent now).grantClaim agent (strip taskId) now (s.claimTtl args.ttlSeconds)
          (claimPrincipal agent args.quotaPrincipal)
          (normalizePaths args.paths (some s.maxPathsPerClaim)) args, .ok m)
  | renewed (agent taskId : String) (now : Float) (epoch : Int) (paths : List String)
      (claim : TaskClaim) (m : String)
      (h : (s.heartbeat agent now).Owned agent (strip taskId) claim)
      (hepoch : epoch = claim.epoch ∨ epoch = claim.ownershipEpoch)
      (hpaths : claim.paths = paths) :
      StateStep s (.renewClaim agent taskId now epoch paths)
        ((s.heartbeat agent now).install (strip taskId) (renewedClaim claim now), .ok m)
  | updated (agent task : String) (now : Float) (args : UpdateArgs) (claim : TaskClaim)
      (m : String) (h : (s.heartbeat agent now).Owned agent task claim)
      (hepoch : ∀ e, args.epoch = some e → e = claim.epoch)
      (hversion : ∀ v, args.expectedVersion = some v → v = claim.version)
      (hstatus : args.status.getD "" ≠ "" →
        canTransition claim.status (args.status.getD "") = true) :
      StateStep s (.updateTask agent task now args)
        ((s.heartbeat agent now).putClaim task (updatedClaim claim args), .ok m)
  | checkpointed (agent taskId : String) (now : Float) (checkpoint : String)
      (epoch : Option Int) (claim : TaskClaim) (m : String)
      (h : (s.heartbeat agent now).Owned agent (strip taskId) claim)
      (hepoch : ∀ e, epoch = some e → e = claim.epoch) :
      StateStep s (.saveCheckpoint agent taskId now checkpoint epoch)
        ((s.heartbeat agent now).putClaim (strip taskId)
          { claim with checkpoint, version := claim.version + 1 }, .ok m)
  | released (agent taskId : String) (now : Float) (epoch : Option Int) (claim : TaskClaim)
      (m : String) (htask : strip taskId ≠ "")
      (h : (s.heartbeat agent now).Owned agent (strip taskId) claim)
      (hepoch : ∀ e, epoch = some e → e = claim.epoch) :
      StateStep s (.release agent taskId now epoch)
        ((s.heartbeat agent now).remove (strip taskId), .ok m)
  | revoked (taskId operator : String) (claim : TaskClaim) (m : String)
      (htask : strip taskId ≠ "") (h : s.Owned claim.owner (strip taskId) claim) :
      StateStep s (.forceRelease taskId operator) (s.remove (strip taskId), .ok m)
  | moved (agent taskId toAgent : String) (now : Float) (note : Option String)
      (epoch : Option Int) (claim : TaskClaim) (m : String)
      (htask : strip taskId ≠ "") (htarget : strip toAgent ≠ "")
      (h : (s.heartbeat agent now).Owned agent (strip taskId) claim)
      (hself : strip toAgent ≠ agent)
      (hepoch : ∀ e, epoch = some e → e = claim.epoch)
      (hscope : (s.heartbeat agent now).scopeConflict (strip taskId) (strip toAgent)
        claim.worktree claim.paths claim.pathIdentity = none) :
      StateStep s (.handoff agent taskId toAgent now note epoch)
        ((s.heartbeat agent now).moveClaim (strip taskId) (strip toAgent) claim note now, .ok m)
  | beat (agent : String) (now : Float) (m : String) :
      StateStep s (.heartbeat agent now) (s.heartbeat agent now, .ok m)
  | viewed (now : Float) (m : String) :
      StateStep s (.snapshot now) (s.snapshot now, .ok m)

namespace SynapseState

omit [Builtins] in
theorem stale_eq_false {guard : Option Int} {current : Int} (h : ¬ stale guard current = true) :
    ∀ e, guard = some e → e = current := by
  rintro e rfl
  simpa [stale] using h

theorem claim_step (s : SynapseState) (agent taskId : String) (now : Float) (args : ClaimArgs) :
    StateStep s (.claim agent taskId now args) (s.claim agent taskId now args) := by
  unfold claim
  dsimp only
  split
  · exact .invalid _ _
  rename_i htask
  split
  · exact .invalid _ _
  rename_i hscope
  split
  · exact .refused _ agent now _ rfl
  split
  · exact .refused _ agent now _ rfl
  rename_i hlive
  split
  · exact .refused _ agent now _ rfl
  rename_i hfree
  split
  · exact .refused _ agent now _ rfl
  rename_i hquota
  refine .claimed agent taskId now args _ ⟨htask, ?_, ?_, ?_, ?_⟩
  · rintro x hx
    rw [heartbeat_maxPaths]
    simpa [hx] using hscope
  · intro e he
    have hf := hlive
    rw [he, Option.filter_some] at hf
    by_cases ho : e.owner = agent
    · by_cases hr : args.requireUnclaimed = true
      · right
        intro hgt
        simp [hr, hgt] at hf
      · exact .inl ⟨ho, by simpa using hr⟩
    · right
      intro hgt
      simp [ho, hgt] at hf
  · rw [heartbeat_maxPaths]
    exact hfree
  · simpa using hquota

theorem renewClaim_step (s : SynapseState) (agent taskId : String) (now : Float) (epoch : Int)
    (paths : List String) :
    StateStep s (.renewClaim agent taskId now epoch paths)
      (s.renewClaim agent taskId now epoch paths) := by
  unfold renewClaim
  dsimp only
  split
  · exact .refused _ agent now _ rfl
  rename_i claim hclaim
  obtain ⟨hheld, hp⟩ := Option.filter_eq_some_iff.mp hclaim
  simp only [Bool.and_eq_true, Bool.or_eq_true, decide_eq_true_eq] at hp
  split
  · exact .refused _ agent now _ rfl
  rename_i hcustody
  split
  · exact .refused _ agent now _ rfl
  rename_i hpaths
  exact .renewed agent taskId now epoch paths claim _
    ⟨hheld, hp.1, by simpa using hcustody⟩ hp.2 (by simpa using hpaths)

theorem updateTask_step (s : SynapseState) (agent task : String) (now : Float)
    (args : UpdateArgs) :
    StateStep s (.updateTask agent task now args) (s.updateTask agent task now args) := by
  unfold updateTask
  dsimp only
  split
  · exact .refused _ agent now _ rfl
  rename_i hcustody
  split
  · exact .refused _ agent now _ rfl
  rename_i claim hheld
  split
  · exact .refused _ agent now _ rfl
  rename_i howner
  split
  · exact .refused _ agent now _ rfl
  rename_i hepoch
  split
  · exact .refused _ agent now _ rfl
  rename_i hversion
  split
  · exact .refused _ agent now _ rfl
  rename_i hstatus
  refine .updated agent task now args claim _
    ⟨hheld, by simpa using howner, by simpa using hcustody⟩ (stale_eq_false hepoch)
    (stale_eq_false hversion) fun hne => ?_
  simpa [hne] using hstatus

theorem saveCheckpoint_step (s : SynapseState) (agent taskId : String) (now : Float)
    (checkpoint : String) (epoch : Option Int) :
    StateStep s (.saveCheckpoint agent taskId now checkpoint epoch)
      (s.saveCheckpoint agent taskId now checkpoint epoch) := by
  unfold saveCheckpoint
  dsimp only
  split
  · exact .refused _ agent now _ rfl
  rename_i hcustody
  split
  · exact .refused _ agent now _ rfl
  rename_i claim hheld
  split
  · exact .refused _ agent now _ rfl
  rename_i howner
  split
  · exact .refused _ agent now _ rfl
  rename_i hepoch
  exact .checkpointed agent taskId now checkpoint epoch claim _
    ⟨hheld, by simpa using howner, by simpa using hcustody⟩ (stale_eq_false hepoch)

theorem release_step (s : SynapseState) (agent taskId : String) (now : Float)
    (epoch : Option Int) :
    StateStep s (.release agent taskId now epoch) (s.release agent taskId now epoch) := by
  unfold release
  dsimp only
  split
  · exact .invalid _ _
  rename_i htask
  split
  · exact .refused _ agent now _ rfl
  rename_i claim hheld
  split
  · exact .refused _ agent now _ rfl
  rename_i hcustody
  split
  · exact .refused _ agent now _ rfl
  rename_i howner
  split
  · exact .refused _ agent now _ rfl
  rename_i hepoch
  exact .released agent taskId now epoch claim _ htask
    ⟨hheld, by simpa using howner, by simpa using hcustody⟩ (stale_eq_false hepoch)

theorem forceRelease_step (s : SynapseState) (taskId operator : String) :
    StateStep s (.forceRelease taskId operator) (s.forceRelease taskId operator) := by
  unfold forceRelease
  dsimp only
  split
  · exact .invalid _ _
  rename_i htask
  split
  · exact .invalid _ _
  rename_i claim hheld
  split
  · exact .invalid _ _
  rename_i hcustody
  exact .revoked taskId operator claim _ htask ⟨hheld, rfl, by simpa using hcustody⟩

theorem handoff_step (s : SynapseState) (agent taskId toAgent : String) (now : Float)
    (note : Option String) (epoch : Option Int) :
    StateStep s (.handoff agent taskId toAgent now note epoch)
      (s.handoff agent taskId toAgent now note epoch) := by
  unfold handoff
  dsimp only
  split
  · exact .invalid _ _
  rename_i htask
  split
  · exact .invalid _ _
  rename_i htarget
  split
  · exact .refused _ agent now _ rfl
  rename_i claim hheld
  split
  · exact .refused _ agent now _ rfl
  rename_i hcustody
  split
  · exact .refused _ agent now _ rfl
  rename_i howner
  split
  · exact .refused _ agent now _ rfl
  rename_i hself
  split
  · exact .refused _ agent now _ rfl
  rename_i hepoch
  split
  · exact .refused _ agent now _ rfl
  split
  · exact .refused _ agent now _ rfl
  split
  · exact .refused _ agent now _ rfl
  rename_i hscope
  exact .moved agent taskId toAgent now note epoch claim _ htask htarget
    ⟨hheld, by simpa using howner, by simpa using hcustody⟩ hself (stale_eq_false hepoch) hscope

end SynapseState

/-- Every call is one of the listed outcomes. -/
theorem StateOp.apply_step (s : SynapseState) (op : StateOp) : StateStep s op (op.apply s) := by
  cases op with
  | claim agent taskId now args => exact s.claim_step agent taskId now args
  | renewClaim agent taskId now epoch paths => exact s.renewClaim_step agent taskId now epoch paths
  | updateTask agent taskId now args => exact s.updateTask_step agent taskId now args
  | saveCheckpoint agent taskId now checkpoint epoch =>
    exact s.saveCheckpoint_step agent taskId now checkpoint epoch
  | release agent taskId now epoch => exact s.release_step agent taskId now epoch
  | forceRelease taskId operator => exact s.forceRelease_step taskId operator
  | handoff agent taskId toAgent now note epoch =>
    exact s.handoff_step agent taskId toAgent now note epoch
  | heartbeat agent now => exact .beat agent now _
  | snapshot now => exact .viewed now _

/-- A property that every outcome preserves holds along every run. -/
theorem SynapseState.run_induction {P : SynapseState → Prop}
    (step : ∀ s op r, P s → StateStep s op r → P r.1) {s : SynapseState} (h : P s)
    (ops : List StateOp) : P (s.run ops) :=
  Trace.invariant _ (fun s op hs => step s op _ hs (op.apply_step s)) h ops

end SynapseChannel
