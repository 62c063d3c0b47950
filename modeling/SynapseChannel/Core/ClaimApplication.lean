import SynapseChannel.Core.StateSteps

/-!
# Core — ClaimApplication

The grant core that a direct claim and a forwarded one share: a claim body
is read, and the registry grants, renews or refuses.
-/

namespace SynapseChannel

open Py

variable [Builtins]

/-- The outcome of a claim body; `claim` is the lease, if it was granted. -/
structure ClaimApplication where
  ok : Bool
  message : String
  taskId : String
  claim : Option TaskClaim
  reasonCode : String := ""
  claimRequestId : String := ""

namespace ClaimBody

/-- `str(body.get(key) or "")`. -/
def text (body : Members) (key : String) : String := ((body.get key).or (.str "")).toStr

/-- `str(body.get("task_id") or body.get("payload") or "").strip()`. -/
def taskId (body : Members) : String :=
  strip (((body.get "task_id").or ((body.get "payload").or (.str ""))).toStr)

/-- The declared paths of a body; anything but a list declares none. -/
def paths (body : Members) : List String :=
  match body.get "paths" with
  | .arr items => items.map Json.toStr
  | _ => []

def worktree (body : Members) : String := text body "worktree"

/-- The git context a body carries, stored and never acted on. -/
def git (body : Members) : Option GitContext :=
  match body.get "git" with
  | .obj members => some (GitContext.fromDict members)
  | _ => none

/-- The arguments of a claim; a time to live that is not a finite number counts as absent. -/
def args (body : Members) (quotaPrincipal : Option String)
    (pathIdentity : Option ClaimScopeIdentity) : ClaimArgs where
  note := text body "note"
  ttlSeconds :=
    match safeFloat (body.get "ttl_seconds") none false with
    | some ttl => .float ttl
    | none => .null
  quotaPrincipal
  worktree := worktree body
  paths := paths body
  pathIdentity
  git := git body
  requireUnclaimed := (body.get "local_renewal").truthy

/-- The epoch of a renewal, if it is a positive integer and the renewal is named. -/
def renewEpoch (body : Members) : Option Int :=
  match body.get "renew_epoch" with
  | .int epoch => if epoch ≤ 0 ∨ text body "renewal_id" = "" then none else some epoch
  | _ => none

end ClaimBody

/-- `_claim_denial_reason`. -/
def claimDenialReason (message : String) : String :=
  let has (part : String) : Bool := message.toList.tails.any part.toList.isPrefixOf
  if message = "Task ID is required." then "TASK_ID_REQUIRED"
  else if has "path identity" then "PATH_IDENTITY_INVALID"
  else if has "is already claimed by" then "LEASE_LIVE"
  else if has "file scope conflicts with" then "SCOPE_CONFLICT"
  else if has "principal claim quota" then "QUOTA_EXCEEDED"
  else "CLAIM_DENIED"

namespace SynapseState

/-- `_apply_renewal`. -/
def applyRenewal (s : SynapseState) (claimant task : String) (body : Members) (now : Float) :
    SynapseState × ClaimApplication :=
  let renewalId := ClaimBody.text body "renewal_id"
  match ClaimBody.renewEpoch body with
  | none =>
    (s, { ok := false, message := "Renewal requires a positive epoch and renewal_id.",
          taskId := task, claim := none, reasonCode := "RENEWAL_REFUSED",
          claimRequestId := renewalId })
  | some epoch =>
    let paths := normalizePaths (ClaimBody.paths body) (some s.maxPathsPerClaim)
    match s.renewClaim claimant task now epoch paths with
    | (s, .ok message) =>
      (s, { ok := true, message, taskId := task, claim := s.claims.get? task,
            claimRequestId := renewalId })
    | (s, .error message) =>
      (s, { ok := false, message, taskId := task, claim := none,
            reasonCode := "RENEWAL_REFUSED", claimRequestId := renewalId })

/-- `_apply_parsed_claim`. -/
def applyParsedClaim (s : SynapseState) (claimant task : String) (args : ClaimArgs) (now : Float)
    (claimRequestId : String) : SynapseState × ClaimApplication :=
  match s.claim claimant task now args with
  | (s, .ok message) =>
    (s, { ok := true, message, taskId := task, claim := s.claims.get? task, claimRequestId })
  | (s, .error message) =>
    (s, { ok := false, message, taskId := task, claim := none,
          reasonCode := claimDenialReason message, claimRequestId })

/-- `apply_claim`. -/
def applyClaim (s : SynapseState) (claimant : String) (body : Members)
    (quotaPrincipal : Option String) (now : Float) : SynapseState × ClaimApplication :=
  let task := ClaimBody.taskId body
  if body.contains "renew_epoch" then s.applyRenewal claimant task body now
  else
    let claimRequestId := ClaimBody.text body "idem_key"
    match parseOptionalClaimScopeIdentity body with
    | .error _ =>
      (s, { ok := false, message := s!"Task '{task}' carries an invalid path identity.",
            taskId := task, claim := none, reasonCode := "PATH_IDENTITY_INVALID",
            claimRequestId })
    | .ok pathIdentity =>
      s.applyParsedClaim claimant task (ClaimBody.args body quotaPrincipal pathIdentity) now
        claimRequestId

end SynapseState

/-! ## What a grant is -/

/-- A lease that a claim body obtained, and the registry that holds it. -/
structure Obtained (s s' : SynapseState) (claimant : String) (body : Members)
    (claim : TaskClaim) : Prop where
  stored : s'.claims.get? (ClaimBody.taskId body) = some claim
  owner : claim.owner = claimant
  paths : claim.paths = normalizePaths (ClaimBody.paths body) (some s.maxPathsPerClaim)
  /-- A renewal keeps the worktree of the lease, whatever the body names. -/
  worktree : body.contains "renew_epoch" = false → claim.worktree = ClaimBody.worktree body

namespace SynapseState

theorem strip_taskId (body : Members) : strip (ClaimBody.taskId body) = ClaimBody.taskId body :=
  strip_strip _

theorem claim_stored {s s' : SynapseState} {agent task m : String} {now : Float}
    {args : ClaimArgs} (h : s.claim agent task now args = (s', .ok m)) :
    ∃ claim, s'.claims.get? (strip task) = some claim ∧ claim.owner = agent ∧
      claim.paths = normalizePaths args.paths (some s.maxPathsPerClaim) ∧
      claim.worktree = args.worktree := by
  have hstep := s.claim_step agent task now args
  rw [h] at hstep
  cases hstep with
  | claimed => exact ⟨_, Dict.get?_set_self _ _ _, rfl, rfl, rfl⟩

theorem renewClaim_stored {s s' : SynapseState} {agent task m : String} {now : Float}
    {epoch : Int} {paths : List String} (h : s.renewClaim agent task now epoch paths = (s', .ok m)) :
    ∃ claim, s'.claims.get? (strip task) = some claim ∧ claim.owner = agent ∧
      claim.paths = paths := by
  have hstep := s.renewClaim_step agent task now epoch paths
  rw [h] at hstep
  cases hstep with
  | renewed _ _ _ _ _ claim _ howned _ hpaths =>
    exact ⟨_, Dict.get?_set_self _ _ _, howned.owner, hpaths⟩

/-- A granted body has its lease in the registry. -/
theorem applyClaim_obtained {s : SynapseState} {claimant : String} {body : Members}
    {quotaPrincipal : Option String} {now : Float} {claim : TaskClaim}
    (h : (s.applyClaim claimant body quotaPrincipal now).2.claim = some claim) :
    Obtained s (s.applyClaim claimant body quotaPrincipal now).1 claimant body claim := by
  unfold applyClaim at h ⊢
  dsimp only at h ⊢
  split at h
  · rename_i hrenew
    rw [if_pos hrenew]
    unfold applyRenewal at h ⊢
    dsimp only at h ⊢
    cases hepoch : ClaimBody.renewEpoch body with
    | none =>
      rw [hepoch] at h
      cases h
    | some epoch =>
      rw [hepoch] at h
      dsimp only at h ⊢
      split at h
      · rename_i s' message hrenewed
        obtain ⟨granted, hstored, howner, hpaths⟩ := renewClaim_stored hrenewed
        rw [strip_taskId] at hstored
        dsimp only at h ⊢
        rw [hstored] at h
        cases h
        refine ⟨hstored, howner, hpaths, ?_⟩
        intro hno
        rw [hrenew] at hno
        cases hno
      · cases h
  · rename_i hfresh
    rw [if_neg hfresh]
    split at h
    · cases h
    · rename_i pathIdentity hidentity
      unfold applyParsedClaim at h ⊢
      split at h
      · rename_i s' message hclaimed
        obtain ⟨granted, hstored, howner, hpaths, hworktree⟩ := claim_stored hclaimed
        rw [strip_taskId] at hstored
        dsimp only at h ⊢
        rw [hstored] at h
        cases h
        exact ⟨hstored, howner, hpaths, fun _ => hworktree⟩
      · cases h

end SynapseState

/-! ## Who owns what -/

/-- Every lease of `after` has the owner it has in `before`, but for the leases `new` holds of. -/
def OwnersKept (before after : SynapseState) (new : String → TaskClaim → Prop) : Prop :=
  ∀ task claim, after.claims.get? task = some claim →
    (∃ old, before.claims.get? task = some old ∧ old.owner = claim.owner) ∨ new task claim

section

omit [Builtins]

theorem OwnersKept.refl (s : SynapseState) (new : String → TaskClaim → Prop) :
    OwnersKept s s new := by
  intro task claim h
  exact .inl ⟨claim, h, rfl⟩

theorem OwnersKept.of_sub {before after : SynapseState} (h : after.claims.Sub before.claims)
    (new : String → TaskClaim → Prop) : OwnersKept before after new := by
  intro task claim hclaim
  exact .inl ⟨claim, h task claim hclaim, rfl⟩

/-- A store of one lease on top of a heartbeat. -/
theorem OwnersKept.set {s after : SynapseState} {agent task : String} {now : Float}
    {claim : TaskClaim} {new : String → TaskClaim → Prop}
    (hafter : after.claims = (s.heartbeat agent now).claims.set task claim)
    (h : (∃ old, (s.heartbeat agent now).claims.get? task = some old ∧ old.owner = claim.owner) ∨
      new task claim) : OwnersKept s after new := by
  intro other c hc
  rw [hafter, Dict.get?_set] at hc
  split at hc
  · rename_i heq
    cases hc
    subst heq
    rcases h with ⟨old, hold, howner⟩ | hnew
    · exact .inl ⟨old, s.heartbeat_claims_sub agent now _ _ hold, howner⟩
    · exact .inr hnew
  · exact .inl ⟨c, s.heartbeat_claims_sub agent now _ _ hc, rfl⟩

end

/-- The leases a call gives an owner: a granted claim's and a handed-over one's. -/
def StateOp.Acquires (s : SynapseState) (op : StateOp) (task : String) (claim : TaskClaim) : Prop :=
  match op with
  | .claim agent taskId _ _ =>
    task = strip taskId ∧ claim.owner = agent ∧ ∃ m, (op.apply s).2 = .ok m
  | .handoff _ taskId toAgent _ _ _ =>
    task = strip taskId ∧ claim.owner = strip toAgent ∧ ∃ m, (op.apply s).2 = .ok m
  | _ => False

theorem StateOp.ownersKept (s : SynapseState) (op : StateOp) :
    OwnersKept s (op.next s) (op.Acquires s) := by
  have hstep := StateOp.apply_step s op
  unfold StateOp.next
  generalize happly : op.apply s = r at hstep
  cases hstep with
  | invalid => exact .refl _ _
  | refused _ agent now => exact .of_sub (s.heartbeat_claims_sub agent now) _
  | claimed agent taskId now args m h =>
    exact .set rfl (.inr ⟨rfl, rfl, m, congrArg Prod.snd happly⟩)
  | renewed agent taskId now epoch paths claim m h => exact .set rfl (.inl ⟨claim, h.held, rfl⟩)
  | updated agent task now args claim m h => exact .set rfl (.inl ⟨claim, h.held, rfl⟩)
  | checkpointed agent taskId now checkpoint epoch claim m h =>
    exact .set rfl (.inl ⟨claim, h.held, rfl⟩)
  | released agent taskId now =>
    exact .of_sub ((Dict.Sub.erase _ _).trans (s.heartbeat_claims_sub agent now)) _
  | revoked => exact .of_sub (Dict.Sub.erase _ _) _
  | moved agent taskId toAgent now note epoch claim m =>
    exact .set rfl (.inr ⟨rfl, rfl, m, congrArg Prod.snd happly⟩)
  | beat agent now => exact .of_sub (s.heartbeat_claims_sub agent now) _
  | viewed now =>
    obtain ⟨claims, _, _, _, hsub, heq⟩ := s.snapshot_eq now
    refine .of_sub ?_ _
    rw [heq]
    exact hsub

namespace SynapseState

/-- Only the lease that a body is granted gets a new owner, its claimant. -/
theorem applyClaim_ownersKept (s : SynapseState) (claimant : String) (body : Members)
    (quotaPrincipal : Option String) (now : Float) :
    OwnersKept s (s.applyClaim claimant body quotaPrincipal now).1 fun task claim =>
      task = ClaimBody.taskId body ∧ claim.owner = claimant ∧
        (s.applyClaim claimant body quotaPrincipal now).2.claim.isSome = true := by
  unfold applyClaim
  dsimp only
  split
  · unfold applyRenewal
    dsimp only
    split
    · exact .refl _ _
    · rename_i epoch _
      have hkept := StateOp.ownersKept s (.renewClaim claimant (ClaimBody.taskId body) now epoch
        (normalizePaths (ClaimBody.paths body) (some s.maxPathsPerClaim)))
      have hold : OwnersKept s (s.renewClaim claimant (ClaimBody.taskId body) now epoch
          (normalizePaths (ClaimBody.paths body) (some s.maxPathsPerClaim))).1
          fun task claim => False := hkept
      intro task claim hclaim
      refine .inl ((hold task claim ?_).resolve_right id)
      split at hclaim <;> rename_i heq <;> rw [heq] <;> exact hclaim
  · split
    · exact .refl _ _
    · rename_i pathIdentity _
      unfold applyParsedClaim
      have hkept := StateOp.ownersKept s (.claim claimant (ClaimBody.taskId body) now
        (ClaimBody.args body quotaPrincipal pathIdentity))
      unfold StateOp.next StateOp.apply at hkept
      dsimp only at hkept
      split
      · rename_i s' message hclaimed
        intro task claim hclaim
        rw [hclaimed] at hkept
        refine (hkept task claim hclaim).imp_right ?_
        rintro ⟨htask, howner, -⟩
        obtain ⟨granted, hstored, -⟩ := claim_stored hclaimed
        rw [strip_taskId] at htask hstored
        exact ⟨htask, howner, by rw [hstored]; rfl⟩
      · rename_i s' message hrefused
        intro task claim hclaim
        rw [hrefused] at hkept
        refine .inl ((hkept task claim hclaim).resolve_right ?_)
        rintro ⟨-, -, m, hok⟩
        unfold StateOp.apply at hok
        dsimp only at hok
        rw [hrefused] at hok
        cases hok

end SynapseState

/-! ## What a call leaves alone -/

omit [Builtins] in
/-- The task a call is about. -/
def StateOp.subject : StateOp → String
  | .claim _ taskId _ _ => strip taskId
  | .renewClaim _ taskId _ _ _ => strip taskId
  | .updateTask _ taskId _ _ => taskId
  | .saveCheckpoint _ taskId _ _ _ => strip taskId
  | .release _ taskId _ _ => strip taskId
  | .forceRelease taskId _ => strip taskId
  | .handoff _ taskId _ _ _ _ => strip taskId
  | .heartbeat _ _ => ""
  | .snapshot _ => ""

/-- The leases of other tasks stay or are dropped, and the path cap stays. -/
structure LeavesOthers (s s' : SynapseState) (subject : String) : Prop where
  claims : ∀ task claim, task ≠ subject → s'.claims.get? task = some claim →
    s.claims.get? task = some claim
  maxPaths : s'.maxPathsPerClaim = s.maxPathsPerClaim

omit [Builtins] in
theorem LeavesOthers.of_sub {s s' : SynapseState} (hclaims : s'.claims.Sub s.claims)
    (hmax : s'.maxPathsPerClaim = s.maxPathsPerClaim) (subject : String) :
    LeavesOthers s s' subject :=
  ⟨fun task claim _ h => hclaims task claim h, hmax⟩

omit [Builtins] in
theorem LeavesOthers.set {s after : SynapseState} {agent task : String} {now : Float}
    {claim : TaskClaim}
    (hafter : after.claims = (s.heartbeat agent now).claims.set task claim)
    (hmax : after.maxPathsPerClaim = (s.heartbeat agent now).maxPathsPerClaim) :
    LeavesOthers s after task := by
  refine ⟨?_, ?_⟩
  · intro other c hne hc
    rw [hafter, Dict.get?_set_ne _ _ (Ne.symm hne)] at hc
    exact s.heartbeat_claims_sub agent now _ _ hc
  · rw [hmax, SynapseState.heartbeat_maxPaths]

theorem StateOp.leavesOthers (s : SynapseState) (op : StateOp) :
    LeavesOthers s (op.next s) op.subject := by
  have hbeat (agent : String) (now : Float) (subject : String) :
      LeavesOthers s (s.heartbeat agent now) subject :=
    .of_sub (s.heartbeat_claims_sub agent now) (s.heartbeat_maxPaths agent now) _
  have hstep := StateOp.apply_step s op
  unfold StateOp.next
  generalize op.apply s = r at hstep
  cases hstep with
  | invalid => exact .of_sub (Dict.Sub.refl _) rfl _
  | refused _ agent now => exact hbeat agent now _
  | claimed agent taskId now args m h => exact .set rfl rfl
  | renewed agent taskId now epoch paths claim m h => exact .set rfl rfl
  | updated agent task now args claim m h => exact .set rfl rfl
  | checkpointed agent taskId now checkpoint epoch claim m h => exact .set rfl rfl
  | released agent taskId now =>
    refine .of_sub ((Dict.Sub.erase _ _).trans (s.heartbeat_claims_sub agent now)) ?_ _
    exact s.heartbeat_maxPaths agent now
  | revoked =>
    refine .of_sub (Dict.Sub.erase _ _) ?_ _
    rfl
  | moved agent taskId toAgent now note epoch claim m => exact .set rfl rfl
  | beat agent now => exact hbeat agent now _
  | viewed now =>
    obtain ⟨claims, _, _, _, hsub, heq⟩ := s.snapshot_eq now
    refine .of_sub ?_ ?_ _ <;> rw [heq]
    exact hsub

namespace SynapseState

/-- A body is applied by one call on its task, or not at all. -/
theorem applyClaim_next (s : SynapseState) (claimant : String) (body : Members)
    (quotaPrincipal : Option String) (now : Float) :
    (s.applyClaim claimant body quotaPrincipal now).1 = s ∨
      ∃ op : StateOp, op.subject = ClaimBody.taskId body ∧
        (s.applyClaim claimant body quotaPrincipal now).1 = op.next s := by
  unfold applyClaim
  dsimp only
  split
  · unfold applyRenewal
    dsimp only
    split
    · exact .inl rfl
    · rename_i epoch _
      refine .inr ⟨.renewClaim claimant (ClaimBody.taskId body) now epoch
        (normalizePaths (ClaimBody.paths body) (some s.maxPathsPerClaim)), strip_taskId body, ?_⟩
      unfold StateOp.next StateOp.apply
      dsimp only
      split <;> rename_i heq <;> rw [heq]
  · split
    · exact .inl rfl
    · rename_i pathIdentity _
      refine .inr ⟨.claim claimant (ClaimBody.taskId body) now
        (ClaimBody.args body quotaPrincipal pathIdentity), strip_taskId body, ?_⟩
      unfold applyParsedClaim StateOp.next StateOp.apply
      dsimp only
      split <;> rename_i heq <;> rw [heq]

theorem applyClaim_leavesOthers (s : SynapseState) (claimant : String) (body : Members)
    (quotaPrincipal : Option String) (now : Float) :
    LeavesOthers s (s.applyClaim claimant body quotaPrincipal now).1 (ClaimBody.taskId body) := by
  rcases s.applyClaim_next claimant body quotaPrincipal now with heq | ⟨op, hsubject, heq⟩
  · rw [heq]
    exact .of_sub (Dict.Sub.refl _) rfl _
  · rw [heq, ← hsubject]
    exact op.leavesOthers s

end SynapseState

end SynapseChannel
