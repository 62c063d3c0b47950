import SynapseChannel.Core.StateSteps

/-!
# Core — Fencing

Epoch fencing over whole histories. Grants and handoffs stamp strictly
increasing epochs; a mutation that presents an epoch comes from the
agent it was stamped to, with the lease untouched in between; a renewal
may also present the anchor of an uninterrupted tenancy of one scope.
-/

namespace SynapseChannel

open Py

variable [Builtins]

/-! ## Stamped claims -/

/-- A stored claim is filed under its own task, and its anchor is an
epoch given out no later than its own. -/
structure TaskClaim.Stamped (bound : Int) (task : String) (claim : TaskClaim) : Prop where
  taskId : claim.taskId = task
  anchor_pos : 0 < claim.ownershipEpoch
  anchor_le : claim.ownershipEpoch ≤ claim.epoch
  epoch_le : claim.epoch ≤ bound

/-- Every live claim carries stamps the registry gave out. -/
structure SynapseState.WellStamped (s : SynapseState) : Prop where
  seq : 0 ≤ s.epochSeq
  claims : ∀ task c, s.claims.get? task = some c → c.Stamped s.epochSeq task

/-- One tenancy: owner, scope and anchor agree. -/
structure TaskClaim.SameTenancy (c c' : TaskClaim) : Prop where
  owner : c'.owner = c.owner
  worktree : c'.worktree = c.worktree
  paths : c'.paths = c.paths
  pathIdentity : c'.pathIdentity = c.pathIdentity
  anchor : c'.ownershipEpoch = c.ownershipEpoch

/-! ## What a call does to leases -/

namespace StateOp

/-- The task a granted call stamps. -/
def stamps : StateOp → Option String
  | .claim _ taskId _ _ => some (strip taskId)
  | .handoff _ taskId _ _ _ _ => some (strip taskId)
  | _ => none

/-- The task a granted call takes from its holder. -/
def surrenders : StateOp → Option String
  | .release _ taskId _ _ => some (strip taskId)
  | .forceRelease taskId _ => some (strip taskId)
  | .handoff _ taskId _ _ _ _ => some (strip taskId)
  | _ => none

/-- Caller, task and epoch of a mutation that presents one. -/
def presents : StateOp → Option (String × String × Int)
  | .updateTask agent task _ args => args.epoch.map fun e => (agent, task, e)
  | .saveCheckpoint agent taskId _ _ epoch => epoch.map fun e => (agent, strip taskId, e)
  | .release agent taskId _ epoch => epoch.map fun e => (agent, strip taskId, e)
  | .handoff agent taskId _ _ _ epoch => epoch.map fun e => (agent, strip taskId, e)
  | _ => none

end StateOp

/-- A call together with the registry it was made in. -/
abbrev Call := SynapseState × StateOp

namespace Call

def after (call : Call) : SynapseState := (call.2.apply call.1).1

def granted (call : Call) : Bool := (call.2.apply call.1).2.isOk

/-- The registry of the call once its own expiry sweep has run. -/
def swept (call : Call) : SynapseState :=
  match call.2.caller with
  | some (agent, now) => call.1.heartbeat agent now
  | none => call.1

/-- The claim a granted call stamped, as it is stored. -/
def stampedClaim (call : Call) : Option TaskClaim :=
  if call.granted then call.2.stamps.bind fun task => call.after.claims.get? task else none

/-- The call stamped epoch `e` on `task` to `agent`. -/
def Stamps (task agent : String) (e : Int) (call : Call) : Prop :=
  call.2.stamps = some task ∧
    ∃ c, call.stampedClaim = some c ∧ c.owner = agent ∧ c.epoch = e

/-- The call was a claim, handoff or release of `task`, or its lease is
gone after it. -/
def Supersedes (task : String) (call : Call) : Prop :=
  call.after.claims.get? task = none ∨
    (call.granted = true ∧ (call.2.stamps = some task ∨ call.2.surrenders = some task))

/-- The call ended a tenancy of `task`: the lease is gone after it, was
handed over or released, or was claimed anew after it had lapsed. -/
def Interrupts (task : String) (call : Call) : Prop :=
  call.after.claims.get? task = none ∨
    (call.granted = true ∧ (call.2.surrenders = some task ∨
      (call.2.stamps = some task ∧ call.swept.claims.get? task = none)))

end Call

/-- Where a claim stored after a call comes from. -/
inductive ClaimOrigin (s : SynapseState) (op : StateOp) (r : SynapseState × Verdict)
    (task : String) (c' : TaskClaim) : Prop
  /-- The call stamped it, opening a tenancy or continuing one. -/
  | stamped (hok : r.2.isOk = true) (hop : op.stamps = some task)
      (hseq : r.1.epochSeq = s.epochSeq + 1) (hepoch : c'.epoch = s.epochSeq + 1)
      (htask : c'.taskId = task)
      (htenancy : c'.ownershipEpoch = c'.epoch ∨
        (op.surrenders = none ∧ ∃ c agent now, op.caller = some (agent, now) ∧
          (s.heartbeat agent now).claims.get? task = some c ∧ c.SameTenancy c'))
  /-- It was there before, under the same stamps. -/
  | kept (c : TaskClaim) (hold : s.claims.get? task = some c) (htask : c'.taskId = c.taskId)
      (hepoch : c'.epoch = c.epoch) (htenancy : c.SameTenancy c')
      (hop : r.2.isOk = true → op.stamps ≠ some task ∧ op.surrenders ≠ some task)

/-! ## Stamps of the claims each verb stores -/

section

omit [Builtins]

theorem TaskClaim.SameTenancy.refl (c : TaskClaim) : c.SameTenancy c := ⟨rfl, rfl, rfl, rfl, rfl⟩

theorem TaskClaim.Stamped.anchor_eq {bound : Int} {task : String} {c : TaskClaim}
    (h : c.Stamped bound task) : c.anchor = c.ownershipEpoch := by
  have := h.anchor_pos
  rw [TaskClaim.anchor, if_neg (by omega)]

theorem TaskClaim.Stamped.mono {bound bound' : Int} {task : String} {c : TaskClaim}
    (h : c.Stamped bound task) (hb : bound ≤ bound') : c.Stamped bound' task :=
  ⟨h.taskId, h.anchor_pos, h.anchor_le, Int.le_trans h.epoch_le hb⟩

theorem SynapseState.WellStamped.heartbeat {s : SynapseState} (h : s.WellStamped)
    (agent : String) (now : Float) : (s.heartbeat agent now).WellStamped := by
  constructor
  · simpa using h.seq
  · intro task c hc
    rw [heartbeat_epochSeq]
    exact h.claims task c (s.heartbeat_claims_sub agent now task c hc)

/-- A new claim opens a tenancy unless its owner already holds the task
under the same scope. -/
theorem SynapseState.newClaim_tenancy {s : SynapseState} (hs : s.WellStamped)
    (agent task : String) (now ttl : Float) (principal : String) (paths : List String)
    (args : ClaimArgs) :
    let c' := s.newClaim agent task now ttl principal paths args
    c'.ownershipEpoch = c'.epoch ∨
      ∃ c, s.claims.get? task = some c ∧ c.SameTenancy c' := by
  dsimp only
  cases hold : s.claims.get? task with
  | none =>
    left
    simp [newClaim, TaskClaim.postInit, TaskClaim.anchor, hold]
  | some c =>
    have hstamp := hs.claims task c hold
    have hpos := hstamp.anchor_pos
    by_cases hsame : (c.owner, c.worktree, c.paths, c.pathIdentity)
        = (agent, args.worktree, paths, args.pathIdentity)
    · right
      simp only [Prod.mk.injEq] at hsame
      obtain ⟨ho, hw, hp, hi⟩ := hsame
      refine ⟨c, rfl, ho.symm, hw.symm, hp.symm, hi.symm, ?_⟩
      have hne : c.ownershipEpoch ≠ 0 := by omega
      simp [newClaim, TaskClaim.postInit, TaskClaim.anchor, TaskClaim.continuationEpoch, hold,
        ho, hw, hp, hi, hne]
    · left
      simp only [newClaim, TaskClaim.postInit, TaskClaim.anchor, TaskClaim.continuationEpoch, hold,
        ne_eq, hsame, not_false_eq_true, if_true]

end

/-- Every claim stored after a call was stamped by it or was there
before under the same stamps. -/
theorem StateStep.claim_origin {s : SynapseState} {op : StateOp} {r : SynapseState × Verdict}
    (hs : s.WellStamped) (step : StateStep s op r) {task : String} {c' : TaskClaim}
    (hc : r.1.claims.get? task = some c') : ClaimOrigin s op r task c' := by
  have untouched {c : TaskClaim} {r : SynapseState × Verdict} (hold : s.claims.get? task = some c)
      (hop : r.2.isOk = true → op.stamps ≠ some task ∧ op.surrenders ≠ some task) :
      ClaimOrigin s op r task c := .kept c hold rfl rfl (.refl c) hop
  have beat {agent : String} {now : Float} {c : TaskClaim}
      (h : (s.heartbeat agent now).claims.get? task = some c) : s.claims.get? task = some c :=
    s.heartbeat_claims_sub agent now task c h
  cases step with
  | invalid _ m => exact untouched hc (by intro h; cases h)
  | refused _ agent now m => exact untouched (beat hc) (by intro h; cases h)
  | claimed agent taskId now args m h =>
    simp only [SynapseState.grantClaim, SynapseState.install, Dict.get?_set] at hc
    split at hc
    · rename_i htask
      cases hc
      refine .stamped rfl (by rw [← htask]; rfl) ?_ ?_ htask ?_
      · simp [SynapseState.grantClaim, SynapseState.install]
      · simp [SynapseState.newClaim, TaskClaim.postInit]
      · rcases SynapseState.newClaim_tenancy (hs.heartbeat agent now) agent (strip taskId) now
          (s.claimTtl args.ttlSeconds) (SynapseState.claimPrincipal agent args.quotaPrincipal)
          (normalizePaths args.paths (some s.maxPathsPerClaim)) args with hnew | ⟨c, hc, hsame⟩
        · exact .inl hnew
        · exact .inr ⟨rfl, c, agent, now, rfl, htask ▸ hc, hsame⟩
    · rename_i htask
      exact untouched (beat hc) fun _ => ⟨by simpa [StateOp.stamps] using htask, by
        simp [StateOp.surrenders]⟩
  | renewed agent taskId now epoch paths claim m h hepoch hpaths =>
    simp only [SynapseState.install, Dict.get?_set] at hc
    split at hc
    · rename_i htask
      cases hc
      have hold := beat (htask ▸ h.held)
      refine .kept claim hold rfl rfl ⟨rfl, rfl, rfl, rfl, ?_⟩ fun _ =>
        ⟨by simp [StateOp.stamps], by simp [StateOp.surrenders]⟩
      exact (hs.claims task claim hold).anchor_eq
    · exact untouched (beat hc) fun _ => ⟨by simp [StateOp.stamps], by simp [StateOp.surrenders]⟩
  | updated agent task' now args claim m h =>
    simp only [SynapseState.putClaim, Dict.get?_set] at hc
    split at hc
    · rename_i htask
      cases hc
      exact .kept claim (beat (htask ▸ h.held)) rfl rfl ⟨rfl, rfl, rfl, rfl, rfl⟩ fun _ =>
        ⟨by simp [StateOp.stamps], by simp [StateOp.surrenders]⟩
    · exact untouched (beat hc) fun _ => ⟨by simp [StateOp.stamps], by simp [StateOp.surrenders]⟩
  | checkpointed agent taskId now checkpoint epoch claim m h =>
    simp only [SynapseState.putClaim, Dict.get?_set] at hc
    split at hc
    · rename_i htask
      cases hc
      exact .kept claim (beat (htask ▸ h.held)) rfl rfl ⟨rfl, rfl, rfl, rfl, rfl⟩ fun _ =>
        ⟨by simp [StateOp.stamps], by simp [StateOp.surrenders]⟩
    · exact untouched (beat hc) fun _ => ⟨by simp [StateOp.stamps], by simp [StateOp.surrenders]⟩
  | released agent taskId now epoch claim m =>
    simp only [SynapseState.remove, Dict.get?_erase] at hc
    split at hc
    · cases hc
    · rename_i htask
      exact untouched (beat hc) fun _ => ⟨by simp [StateOp.stamps], by
        simpa [StateOp.surrenders] using Ne.symm htask⟩
  | revoked taskId operator claim m =>
    simp only [SynapseState.remove, Dict.get?_erase] at hc
    split at hc
    · cases hc
    · rename_i htask
      exact untouched hc fun _ => ⟨by simp [StateOp.stamps], by
        simpa [StateOp.surrenders] using Ne.symm htask⟩
  | moved agent taskId toAgent now note epoch claim m htask htarget h =>
    simp only [SynapseState.moveClaim, SynapseState.install, Dict.get?_set] at hc
    split at hc
    · rename_i htask
      cases hc
      refine .stamped rfl (by rw [← htask]; rfl) ?_ ?_ htask ?_
      · simp [SynapseState.moveClaim, SynapseState.install]
      · simp [SynapseState.movedClaim, TaskClaim.postInit]
      · left
        simp [SynapseState.movedClaim, TaskClaim.postInit, TaskClaim.anchor]
    · rename_i htask
      exact untouched (beat hc) fun _ => ⟨by simpa [StateOp.stamps] using htask, by
        simpa [StateOp.surrenders] using htask⟩
  | beat agent now m =>
    exact untouched (beat hc) fun _ => ⟨by simp [StateOp.stamps], by simp [StateOp.surrenders]⟩
  | viewed now m =>
    obtain ⟨claims, _, _, _, hsub, heq⟩ := s.snapshot_eq now
    simp only [heq] at hc
    exact untouched (hsub task c' hc) fun _ =>
      ⟨by simp [StateOp.stamps], by simp [StateOp.surrenders]⟩

/-- The epoch counter never falls. -/
theorem StateStep.epochSeq_le {s : SynapseState} {op : StateOp} {r : SynapseState × Verdict}
    (step : StateStep s op r) : s.epochSeq ≤ r.1.epochSeq := by
  cases step with
  | invalid => exact Int.le_refl _
  | refused _ agent now => simp
  | claimed =>
    simp only [SynapseState.grantClaim, SynapseState.install, SynapseState.heartbeat_epochSeq]
    omega
  | renewed => simp [SynapseState.install]
  | updated => simp [SynapseState.putClaim]
  | checkpointed => simp [SynapseState.putClaim]
  | released => simp [SynapseState.remove]
  | revoked => simp [SynapseState.remove]
  | moved =>
    simp only [SynapseState.moveClaim, SynapseState.install, SynapseState.heartbeat_epochSeq]
    omega
  | beat agent now => simp
  | viewed now =>
    obtain ⟨_, _, _, _, -, heq⟩ := s.snapshot_eq now
    simp [heq]

theorem StateStep.wellStamped {s : SynapseState} {op : StateOp} {r : SynapseState × Verdict}
    (hs : s.WellStamped) (step : StateStep s op r) : r.1.WellStamped := by
  refine ⟨Int.le_trans hs.seq step.epochSeq_le, fun task c' hc => ?_⟩
  cases step.claim_origin hs hc with
  | stamped hok hop hseq hepoch htask htenancy =>
    have hb := hs.seq
    rcases htenancy with hnew | ⟨-, c, agent, now, -, hold, hsame⟩
    · exact ⟨htask, by omega, by omega, by omega⟩
    · have hc := (hs.heartbeat agent now).claims task c hold
      have h1 := hc.anchor_pos
      have h2 := hc.anchor_le
      have h3 := hc.epoch_le
      have h4 := hsame.anchor
      rw [SynapseState.heartbeat_epochSeq] at h3
      exact ⟨htask, by omega, by omega, by omega⟩
  | kept c hold htask hepoch htenancy hop =>
    have hc := (hs.claims task c hold).mono step.epochSeq_le
    have h4 := htenancy.anchor
    exact ⟨htask.trans hc.taskId, by rw [h4]; exact hc.anchor_pos,
      by rw [h4, hepoch]; exact hc.anchor_le, by rw [hepoch]; exact hc.epoch_le⟩

omit [Builtins] in
theorem SynapseState.WellStamped.empty {s : SynapseState} (hseq : s.epochSeq = 0)
    (hclaims : s.claims = Dict.empty) : s.WellStamped := by
  refine ⟨by omega, fun task c hc => ?_⟩
  rw [hclaims] at hc
  cases hc

/-! ## Provenance -/

/-- An epoch held by a live claim. -/
def HoldsEpoch (k : String × String × Int) (s : SynapseState) : Prop :=
  ∃ c, s.claims.get? k.1 = some c ∧ c.owner = k.2.1 ∧ c.epoch = k.2.2

/-- A tenancy: task, owner and scope, with one of its epochs. -/
structure Tenancy where
  task : String
  agent : String
  worktree : String
  paths : List String
  pathIdentity : Option ClaimScopeIdentity
  epoch : Int

namespace Tenancy

/-- `c` belongs to the tenancy's owner under its scope. -/
structure Owns (k : Tenancy) (c : TaskClaim) : Prop where
  owner : c.owner = k.agent
  worktree : c.worktree = k.worktree
  paths : c.paths = k.paths
  pathIdentity : c.pathIdentity = k.pathIdentity

/-- A live claim of the tenancy whose epoch or anchor is the epoch. -/
def Live (k : Tenancy) (s : SynapseState) : Prop :=
  ∃ c, s.claims.get? k.task = some c ∧ k.Owns c ∧
    (c.epoch = k.epoch ∨ c.ownershipEpoch = k.epoch)

/-- The call stamped the tenancy's epoch on its task, owner and scope. -/
def StampedBy (k : Tenancy) (call : Call) : Prop :=
  call.2.stamps = some k.task ∧
    ∃ c, call.stampedClaim = some c ∧ k.Owns c ∧ c.epoch = k.epoch

/-- The call left the tenancy running. -/
def ContinuedBy (k : Tenancy) (call : Call) : Prop :=
  ¬ call.Interrupts k.task ∧ ∃ c, call.after.claims.get? k.task = some c ∧ k.Owns c

end Tenancy

theorem Call.stampedClaim_eq {s : SynapseState} {op : StateOp} {task : String} {c : TaskClaim}
    (hok : Call.granted (s, op) = true) (hop : op.stamps = some task)
    (hc : (op.next s).claims.get? task = some c) : Call.stampedClaim (s, op) = some c := by
  rw [stampedClaim, if_pos hok, hop]
  exact hc

/-- A held epoch was stamped by this call, or was held before a call that
did not supersede it. -/
theorem HoldsEpoch.step (k : String × String × Int) (s : SynapseState) (op : StateOp)
    (hs : s.WellStamped) (h : HoldsEpoch k (op.next s)) :
    Call.Stamps k.1 k.2.1 k.2.2 (s, op) ∨
      (HoldsEpoch k s ∧ ¬ Call.Supersedes k.1 (s, op)) := by
  obtain ⟨c', hc, howner, hepoch⟩ := h
  cases (op.apply_step s).claim_origin hs hc with
  | stamped hok hop hseq hep htask htenancy =>
    exact .inl ⟨hop, c', Call.stampedClaim_eq hok hop hc, howner, hepoch⟩
  | kept c hold htask hep htenancy hop =>
    refine .inr ⟨⟨c, hold, htenancy.owner.symm.trans howner, hep.symm.trans hepoch⟩, ?_⟩
    rintro (hnone | ⟨hok, hst | hsu⟩)
    · exact absurd (hc.symm.trans hnone) (by simp)
    · exact (hop hok).1 hst
    · exact (hop hok).2 hsu

/-- A live tenancy was opened by this call, or was live before a call
that left it running. -/
theorem Tenancy.Live.step (k : Tenancy) (s : SynapseState) (op : StateOp)
    (hs : s.WellStamped) (h : k.Live (op.next s)) :
    k.StampedBy (s, op) ∨ (k.Live s ∧ k.ContinuedBy (s, op)) := by
  obtain ⟨c', hc, hown, hepoch⟩ := h
  have continued {c : TaskClaim} (hold : s.claims.get? k.task = some c) (hsame : c.SameTenancy c')
      (hep : c.epoch = k.epoch ∨ c.ownershipEpoch = k.epoch)
      (hint : ¬ Call.Interrupts k.task (s, op)) :
      k.Live s ∧ k.ContinuedBy (s, op) :=
    ⟨⟨c, hold, ⟨hsame.owner.symm.trans hown.owner, hsame.worktree.symm.trans hown.worktree,
      hsame.paths.symm.trans hown.paths, hsame.pathIdentity.symm.trans hown.pathIdentity⟩, hep⟩,
      hint, c', hc, hown⟩
  have live : (Call.after (s, op)).claims.get? k.task ≠ none := by
    intro hnone
    exact absurd (hc.symm.trans hnone) (by simp)
  cases (op.apply_step s).claim_origin hs hc with
  | stamped hok hop hseq hep htask htenancy =>
    have opened (he : c'.epoch = k.epoch) : k.StampedBy (s, op) :=
      ⟨hop, c', Call.stampedClaim_eq hok hop hc, hown, he⟩
    rcases hepoch with he | hanchor
    · exact .inl (opened he)
    · rcases htenancy with hnew | ⟨hsur, c, agent, now, hcaller, hold, hsame⟩
      · exact .inl (opened (hnew.symm.trans hanchor))
      · right
        refine continued (s.heartbeat_claims_sub agent now _ c hold) hsame
          (.inr (hsame.anchor.symm.trans hanchor)) ?_
        rintro (hnone | ⟨-, hsu | ⟨-, hswept⟩⟩)
        · exact live hnone
        · rw [hsur] at hsu
          cases hsu
        · simp only [Call.swept, hcaller, hold] at hswept
          cases hswept
  | kept c hold htask hep hsame hop =>
    right
    refine continued hold hsame ?_ ?_
    · rw [← hep, ← hsame.anchor]
      exact hepoch
    · rintro (hnone | ⟨hok, hsu | ⟨hst, -⟩⟩)
      · exact live hnone
      · exact (hop hok).2 hsu
      · exact (hop hok).1 hst

/-! ## The fence -/

/-- A granted mutation that presents an epoch finds it held by its
caller. -/
theorem Call.presented {s : SynapseState} {op : StateOp} {agent task : String} {e : Int}
    (hop : op.presents = some (agent, task, e)) (hok : Call.granted (s, op) = true) :
    HoldsEpoch (task, agent, e) s := by
  have step := op.apply_step s
  rw [granted] at hok
  generalize op.apply s = r at step hok
  have held {now : Float} {c : TaskClaim} (h : (s.heartbeat agent now).Owned agent task c)
      (hepoch : e = c.epoch) : HoldsEpoch (task, agent, e) s :=
    ⟨c, s.heartbeat_claims_sub agent now task c h.held, h.owner, hepoch.symm⟩
  cases step with
  | invalid => cases hok
  | refused => cases hok
  | claimed => cases hop
  | renewed => cases hop
  | updated agent' task' now args claim m h hepoch =>
    obtain ⟨e', he', heq⟩ := Option.map_eq_some_iff.mp hop
    cases heq
    exact held h (hepoch e he')
  | checkpointed agent' taskId now checkpoint epoch claim m h hepoch =>
    obtain ⟨e', he', heq⟩ := Option.map_eq_some_iff.mp hop
    cases heq
    exact held h (hepoch e he')
  | released agent' taskId now epoch claim m htask h hepoch =>
    obtain ⟨e', he', heq⟩ := Option.map_eq_some_iff.mp hop
    cases heq
    exact held h (hepoch e he')
  | revoked => cases hop
  | moved agent' taskId toAgent now note epoch claim m htask htarget h hself hepoch =>
    obtain ⟨e', he', heq⟩ := Option.map_eq_some_iff.mp hop
    cases heq
    exact held h (hepoch e he')
  | beat => cases hop
  | viewed => cases hop

/-- A granted renewal finds its tenancy live once its sweep has run. -/
theorem Call.renewed {s : SynapseState} {agent taskId : String} {now : Float} {e : Int}
    {paths : List String} (hok : Call.granted (s, .renewClaim agent taskId now e paths) = true) :
    ∃ c, (s.heartbeat agent now).claims.get? (strip taskId) = some c ∧ c.owner = agent ∧
      (c.epoch = e ∨ c.ownershipEpoch = e) := by
  have step := (StateOp.renewClaim agent taskId now e paths).apply_step s
  rw [granted] at hok
  generalize (StateOp.renewClaim agent taskId now e paths).apply s = r at step hok
  cases step with
  | invalid => cases hok
  | refused => cases hok
  | renewed _ _ _ _ _ claim m h hepoch hpaths =>
    exact ⟨claim, h.held, h.owner, hepoch.imp Eq.symm Eq.symm⟩

theorem Call.stampedClaim_epoch {s : SynapseState} (hs : s.WellStamped) {op : StateOp}
    {c : TaskClaim} (h : Call.stampedClaim (s, op) = some c) :
    s.epochSeq < c.epoch ∧ c.epoch ≤ (op.next s).epochSeq := by
  rw [stampedClaim] at h
  split at h
  · rename_i hok
    obtain ⟨task, hop, hc⟩ := Option.bind_eq_some_iff.mp h
    cases (op.apply_step s).claim_origin hs hc with
    | stamped _ _ hseq hepoch =>
      have hseq' : (op.next s).epochSeq = s.epochSeq + 1 := hseq
      omega
    | kept c' hold htask hepoch hsame hkept => exact absurd hop (hkept hok).1
  · cases h

/-- Epoch fencing, over every run of the registry: stamped epochs
increase strictly; a granted mutation presenting an epoch was stamped it
with nothing superseding the lease since; a granted renewal presenting
one continues the tenancy that was stamped it, by the same agent under
the same scope without interruption. -/
theorem epoch_fencing (defaultTtl maxClaims maxOffers maxPaths : Json) (ops : List StateOp) :
    let start := SynapseState.init defaultTtl maxClaims maxOffers maxPaths
    let s := start.run ops
    let calls := Trace.trace StateOp.next start ops
    (calls.filterMap fun call : Call => (Call.stampedClaim call).map TaskClaim.epoch).Pairwise (· < ·) ∧
      (∀ op agent task e, op.presents = some (agent, task, e) → Call.granted (s, op) = true →
        Trace.Since (Call.Stamps task agent e) (fun call => ¬ Call.Supersedes task call) calls) ∧
      (∀ agent taskId now e paths,
        Call.granted (s, .renewClaim agent taskId now e paths) = true →
        ∃ k : Tenancy, k.task = strip taskId ∧ k.agent = agent ∧ k.epoch = e ∧
          (∃ c, (s.heartbeat agent now).claims.get? k.task = some c ∧ k.Owns c) ∧
          Trace.Since k.StampedBy k.ContinuedBy calls) := by
  dsimp only
  have hstart : (SynapseState.init defaultTtl maxClaims maxOffers maxPaths).WellStamped :=
    .empty rfl rfl
  have hinv : ∀ s op, s.WellStamped → (StateOp.next s op).WellStamped :=
    fun s op hs => (op.apply_step s).wellStamped hs
  refine ⟨?_, ?_, ?_⟩
  · refine (Trace.stamps_increase StateOp.next hinv
      (fun s op => (op.apply_step s).epochSeq_le) ?_ hstart ops).1
    intro s op e hs he
    obtain ⟨c, hc, rfl⟩ := Option.map_eq_some_iff.mp he
    exact Call.stampedClaim_epoch hs hc
  · intro op agent task e hop hok
    refine Trace.provenance (F := HoldsEpoch) (G := fun k => Call.Stamps k.1 k.2.1 k.2.2)
      (K := fun k call => ¬ Call.Supersedes k.1 call) StateOp.next hinv
      (fun k s op hs h => HoldsEpoch.step k s op hs h) hstart ?_ ops (task, agent, e)
      (Call.presented hop hok)
    rintro k ⟨c, hc, -⟩
    cases hc
  · intro agent taskId now e paths hok
    obtain ⟨c, hheld, howner, hepoch⟩ := Call.renewed hok
    let k : Tenancy := ⟨strip taskId, agent, c.worktree, c.paths, c.pathIdentity, e⟩
    have hown : k.Owns c := ⟨howner, rfl, rfl, rfl⟩
    refine ⟨k, rfl, rfl, rfl, ⟨c, hheld, hown⟩, ?_⟩
    refine Trace.provenance (F := Tenancy.Live) (G := Tenancy.StampedBy)
      (K := Tenancy.ContinuedBy) StateOp.next hinv
      (fun k s op hs h => Tenancy.Live.step k s op hs h) hstart ?_ ops k
      ⟨c, SynapseState.heartbeat_claims_sub _ agent now _ c hheld, hown, hepoch⟩
    rintro k ⟨c, hc, -⟩
    cases hc

omit [Builtins] in
/-- After one claim, a checkpoint and a renewal presenting its epoch both
trace back to it. -/
theorem epoch_fencing_one_claim :
    letI : Builtins := Builtins.ascii
    let calls := Trace.trace StateOp.next (SynapseState.init .null .null .null .null)
      [.claim "A" "T" 1 {}]
    Trace.Since (Call.Stamps "T" "A" 1) (fun call => ¬ Call.Supersedes "T" call) calls ∧
      ∃ k : Tenancy, k.task = "T" ∧ k.agent = "A" ∧ k.epoch = 1 ∧
        Trace.Since k.StampedBy k.ContinuedBy calls := by
  let _ : Builtins := Builtins.ascii
  obtain ⟨-, hpresents, hrenews⟩ :=
    epoch_fencing .null .null .null .null [.claim "A" "T" 1 {}]
  refine ⟨hpresents (.saveCheckpoint "A" "T" 2 "resume" (some 1)) "A" "T" 1 rfl
    (by decide +kernel), ?_⟩
  obtain ⟨k, htask, hagent, hepoch, -, hsince⟩ :=
    hrenews "A" "T" 2 1 [] (by decide +kernel)
  exact ⟨k, htask, hagent, hepoch, hsince⟩

end SynapseChannel
