import SynapseChannel.Core.Fencing

/-!
# Core — VersionGuard

What the version of a claim counts. Updates and checkpoints step it,
renewals leave it alone, a claim or a handoff starts it anew; so a version
read earlier is refused as long as neither of these came in between.
-/

namespace SynapseChannel

open Py

variable [Builtins]

/-- The task whose fields a granted call writes in place. -/
def StateOp.writes : StateOp → Option String
  | .updateTask _ taskId _ _ => some taskId
  | .saveCheckpoint _ taskId _ _ _ => some (strip taskId)
  | _ => none

namespace Call

/-- The call claimed `task` or handed it over. -/
def resets (task : String) (call : Call) : Bool :=
  call.granted && decide (call.2.stamps = some task)

/-- The call updated `task` or saved a checkpoint of it. -/
def bumps (task : String) (call : Call) : Bool :=
  call.granted && decide (call.2.writes = some task)

/-- The fields that updates, checkpoints and handoffs write. -/
def written (claim : TaskClaim) : String × String × String × String :=
  (claim.status, claim.note, claim.dataRef, claim.checkpoint)

/-- The call changed a field of the claim of `task`. -/
def Changes (task : String) (call : Call) : Prop :=
  ∃ before after, call.1.claims.get? task = some before ∧
    call.after.claims.get? task = some after ∧ written after ≠ written before

/-- The updates and checkpoints of `task` since it was last claimed or
handed over. -/
def bumpsSince (task : String) (calls : List Call) : Nat :=
  calls.foldl (fun n call => if call.resets task then 0 else if call.bumps task then n + 1 else n) 0

end Call

/-- Where the claim of `task` after a call comes from, with its version. -/
inductive VersionOrigin (s : SynapseState) (task : String) (resets bumps : Bool)
    (after : TaskClaim) : Prop
  | anew (h : resets = true) (hversion : after.version = 0)
  | stepped (before : TaskClaim) (hold : s.claims.get? task = some before) (hr : resets = false)
      (hb : bumps = true) (hversion : after.version = before.version + 1)
  | kept (before : TaskClaim) (hold : s.claims.get? task = some before) (hr : resets = false)
      (hb : bumps = false) (hversion : after.version = before.version)
      (hfields : Call.written after = Call.written before)

theorem StateStep.version_origin {s : SynapseState} {op : StateOp} {r : SynapseState × Verdict}
    (step : StateStep s op r) {task : String} {after : TaskClaim}
    (hc : r.1.claims.get? task = some after) :
    VersionOrigin s task (r.2.isOk && decide (op.stamps = some task))
      (r.2.isOk && decide (op.writes = some task)) after := by
  have beat {agent : String} {now : Float} {c : TaskClaim}
      (h : (s.heartbeat agent now).claims.get? task = some c) : s.claims.get? task = some c :=
    s.heartbeat_claims_sub agent now task c h
  cases step with
  | invalid _ m => exact .kept after hc rfl rfl rfl rfl
  | refused _ agent now m => exact .kept after (beat hc) rfl rfl rfl rfl
  | claimed agent taskId now args m h =>
    simp only [SynapseState.grantClaim, SynapseState.install, Dict.get?_set] at hc
    split at hc
    · rename_i htask
      cases hc
      exact .anew (by simp [Except.isOk, Except.toBool, StateOp.stamps, htask]) rfl
    · rename_i htask
      exact .kept after (beat hc) (by simp [StateOp.stamps, htask]) (by simp [StateOp.writes]) rfl rfl
  | renewed agent taskId now epoch paths claim m h _ _ =>
    simp only [SynapseState.install, Dict.get?_set] at hc
    split at hc
    · rename_i htask
      subst htask
      cases hc
      exact .kept claim (beat h.held) (by simp [StateOp.stamps]) (by simp [StateOp.writes]) rfl rfl
    · exact .kept after (beat hc) (by simp [StateOp.stamps]) (by simp [StateOp.writes]) rfl rfl
  | updated agent taskId now args claim m h _ _ _ =>
    simp only [SynapseState.putClaim, Dict.get?_set] at hc
    split at hc
    · rename_i htask
      subst htask
      cases hc
      exact .stepped claim (beat h.held) (by simp [StateOp.stamps])
        (by simp [Except.isOk, Except.toBool, StateOp.writes]) rfl
    · rename_i htask
      exact .kept after (beat hc) (by simp [StateOp.stamps]) (by simp [StateOp.writes, htask]) rfl rfl
  | checkpointed agent taskId now checkpoint epoch claim m h _ =>
    simp only [SynapseState.putClaim, Dict.get?_set] at hc
    split at hc
    · rename_i htask
      cases hc
      exact .stepped claim (beat (htask ▸ h.held)) (by simp [StateOp.stamps])
        (by simp [Except.isOk, Except.toBool, StateOp.writes, htask]) rfl
    · rename_i htask
      exact .kept after (beat hc) (by simp [StateOp.stamps]) (by simp [StateOp.writes, htask]) rfl rfl
  | released agent taskId now epoch claim m _ h _ =>
    have hold := Dict.Sub.erase _ _ _ _ hc
    exact .kept after (beat hold) (by simp [StateOp.stamps]) (by simp [StateOp.writes]) rfl rfl
  | revoked taskId operator claim m _ h =>
    have hold := Dict.Sub.erase _ _ _ _ hc
    exact .kept after hold (by simp [StateOp.stamps]) (by simp [StateOp.writes]) rfl rfl
  | moved agent taskId toAgent now note epoch claim m _ _ h _ _ _ =>
    simp only [SynapseState.moveClaim, SynapseState.install, Dict.get?_set] at hc
    split at hc
    · rename_i htask
      cases hc
      exact .anew (by simp [Except.isOk, Except.toBool, StateOp.stamps, htask]) rfl
    · rename_i htask
      exact .kept after (beat hc) (by simp [StateOp.stamps, htask]) (by simp [StateOp.writes]) rfl rfl
  | beat agent now m => exact .kept after (beat hc) (by simp [StateOp.stamps]) (by simp [StateOp.writes]) rfl rfl
  | viewed now m =>
    obtain ⟨claims, expired, index, resources, hsub, heq⟩ := s.snapshot_eq now
    rw [heq] at hc
    exact .kept after (hsub task after hc) (by simp [StateOp.stamps]) (by simp [StateOp.writes]) rfl rfl

namespace Call

theorem version_origin (call : Call) {task : String} {after : TaskClaim}
    (h : call.after.claims.get? task = some after) :
    VersionOrigin call.1 task (call.resets task) (call.bumps task) after :=
  (call.2.apply_step call.1).version_origin h

end Call

/-- A granted update presents the version of the claim it writes. -/
theorem SynapseState.updateTask_version {s : SynapseState} {agent task : String} {now : Float}
    {args : UpdateArgs} {v : Int} (hv : args.expectedVersion = some v)
    (h : (s.updateTask agent task now args).2.isOk = true) :
    ∃ claim, s.claims.get? task = some claim ∧ claim.version = v := by
  have hstep := s.updateTask_step agent task now args
  generalize s.updateTask agent task now args = r at h hstep
  cases hstep with
  | invalid _ m => cases h
  | refused _ agent now m _ => cases h
  | updated _ _ _ _ claim m hheld _ hversion _ =>
    exact ⟨claim, s.heartbeat_claims_sub agent now task claim hheld.held, (hversion v hv).symm⟩

namespace SynapseState

theorem run_append_ops (s : SynapseState) (pre post : List StateOp) :
    s.run (pre ++ post) = (s.run pre).run post := by
  induction pre generalizing s with
  | nil => rfl
  | cons op rest ih => exact ih (op.next s)

/-- The version of a claim counts the updates and checkpoints since it was
claimed or handed over. -/
theorem version_eq_bumpsSince {start : SynapseState} (hstart : start.claims = Dict.empty)
    (ops : List StateOp) {task : String} {claim : TaskClaim}
    (h : (start.run ops).claims.get? task = some claim) :
    claim.version = Call.bumpsSince task (Trace.trace StateOp.next start ops) := by
  induction ops using List.reverseRecOn generalizing claim with
  | nil =>
    have hnone : start.claims.get? task = some claim := h
    rw [hstart] at hnone
    cases hnone
  | append_singleton ops op ih =>
    have hrun : start.run (ops ++ [op]) = Call.after (start.run ops, op) :=
      Trace.run_append StateOp.next start ops op
    rw [hrun] at h
    rw [Trace.trace_append, Call.bumpsSince, List.foldl_append, List.foldl_cons, List.foldl_nil]
    change claim.version = ((if Call.resets task (start.run ops, op) then 0
      else if Call.bumps task (start.run ops, op) then
        Call.bumpsSince task (Trace.trace StateOp.next start ops) + 1
      else Call.bumpsSince task (Trace.trace StateOp.next start ops) : Nat) : Int)
    cases Call.version_origin (start.run ops, op) h with
    | anew hr hversion =>
      rw [if_pos hr, hversion]
      rfl
    | stepped before hold hr hb hversion =>
      rw [if_neg (by simp [hr]), if_pos hb, hversion, ih hold]
      push_cast
      rfl
    | kept before hold hr hb hversion _ =>
      rw [if_neg (by simp [hr]), if_neg (by simp [hb]), hversion, ih hold]

/-- While `task` is neither claimed nor handed over, its claim only gains
versions, and gains one with every change of a field. -/
theorem version_grows {s : SynapseState} {ops : List StateOp} {task : String} {v : Int}
    (hseen : ∀ claim, s.claims.get? task = some claim → v ≤ claim.version)
    (hreset : ∀ call : Call, call ∈ Trace.trace StateOp.next s ops → call.resets task = false)
    {claim : TaskClaim} (h : (s.run ops).claims.get? task = some claim) :
    v ≤ claim.version ∧
      ((∃ call : Call, call ∈ Trace.trace StateOp.next s ops ∧ call.Changes task) →
        v < claim.version) := by
  induction ops generalizing s v with
  | nil =>
    refine ⟨hseen claim h, ?_⟩
    rintro ⟨call, hcall, -⟩
    cases hcall
  | cons op rest ih =>
    have hkeep := hreset (s, op) List.mem_cons_self
    have hrest : ∀ call : Call, call ∈ Trace.trace StateOp.next (op.next s) rest →
        call.resets task = false := fun call hcall => hreset call (List.mem_cons_of_mem _ hcall)
    have hnext : ∀ after, (op.next s).claims.get? task = some after → v ≤ after.version := by
      intro after hafter
      cases Call.version_origin (s, op) hafter with
      | anew hr _ => simp [hkeep] at hr
      | stepped before hold _ _ hversion =>
        have := hseen before hold
        omega
      | kept before hold _ _ hversion _ => exact hversion ▸ hseen before hold
    obtain ⟨hle, hlater⟩ := ih hnext hrest h
    refine ⟨hle, ?_⟩
    rintro ⟨call, hcall, hchange⟩
    rcases List.mem_cons.mp hcall with rfl | hcall
    · -- this call stepped the version, so the rest starts above `v`
      obtain ⟨before, after, hbefore, hafter, hne⟩ := hchange
      have habove : ∀ after, (op.next s).claims.get? task = some after → v + 1 ≤ after.version := by
        intro after' hafter'
        cases hafter.symm.trans hafter'
        cases Call.version_origin (s, op) hafter with
        | anew hr _ => simp [hkeep] at hr
        | stepped before' hold _ _ hversion =>
          have := hseen before' hold
          omega
        | kept before' hold _ _ _ hfields =>
          cases hbefore.symm.trans hold
          exact absurd hfields hne
      have := (ih habove hrest h).1
      omega
    · exact hlater ⟨call, hcall, hchange⟩

/-- An update that presents a version read earlier is granted only when
exactly that many updates and checkpoints came since the task was last
claimed or handed over. While neither happened after the reading, it is
refused once a field of the claim has changed. -/
theorem stale_version_refused (defaultTtl maxClaims maxOffers maxPaths : Json)
    (pre post : List StateOp) (task : String) (v : Int) :
    let start := init defaultTtl maxClaims maxOffers maxPaths
    let seen := start.run pre
    let s := start.run (pre ++ post)
    (∃ claim, seen.claims.get? task = some claim ∧ claim.version = v) →
    (∃ call : Call, call ∈ Trace.trace StateOp.next seen post ∧ call.Changes task) →
    ∀ agent now args, args.expectedVersion = some v →
      ((∀ call : Call, call ∈ Trace.trace StateOp.next seen post → call.resets task = false) →
        (s.updateTask agent task now args).2.isOk = false) ∧
      ((s.updateTask agent task now args).2.isOk = true →
        v = Call.bumpsSince task (Trace.trace StateOp.next start (pre ++ post))) := by
  intro start seen s hseen hchange agent now args hv
  obtain ⟨claim, hclaim, hversion⟩ := hseen
  constructor
  · intro hreset
    by_contra hgranted
    rw [Bool.not_eq_false] at hgranted
    obtain ⟨current, hcurrent, heq⟩ := updateTask_version hv hgranted
    have hrun : s = seen.run post := run_append_ops start pre post
    rw [hrun] at hcurrent
    have hgrown := (version_grows (v := v) (fun c hc => by cases hclaim.symm.trans hc; omega)
      hreset hcurrent).2 hchange
    omega
  · intro hgranted
    obtain ⟨current, hcurrent, heq⟩ := updateTask_version hv hgranted
    rw [← heq]
    exact version_eq_bumpsSince rfl (pre ++ post) hcurrent

omit [Builtins] in
/-- An update after one update presents the version from before it. -/
theorem stale_version_refused_update :
    letI : Builtins := Builtins.ascii
    let s := (init .null .null .null .null).run
      [.claim "A" "T" 1 {}, .updateTask "A" "T" 2 { status := some "working" }]
    (s.updateTask "A" "T" 3 { note := some "late", expectedVersion := some 0 }).2.isOk = false := by
  let _ : Builtins := Builtins.ascii
  let seen := (init .null .null .null .null).run [.claim "A" "T" 1 {}]
  let update : StateOp := .updateTask "A" "T" 2 { status := some "working" }
  have hversion : (seen.claims.get? "T").map TaskClaim.version = some 0 := by decide +kernel
  have hbefore : (seen.claims.get? "T").map Call.written = some ("claimed", "", "", "") := by
    decide +kernel
  have hafter : ((Call.after (seen, update)).claims.get? "T").map Call.written =
      some ("working", "", "", "") := by decide +kernel
  obtain ⟨claim, hclaim, hzero⟩ := Option.map_eq_some_iff.mp hversion
  obtain ⟨before, hget, hold⟩ := Option.map_eq_some_iff.mp hbefore
  obtain ⟨after, hget', hnew⟩ := Option.map_eq_some_iff.mp hafter
  have hchange : Call.Changes "T" (seen, update) :=
    ⟨before, after, hget, hget', by simp [hold, hnew]⟩
  refine (stale_version_refused .null .null .null .null [.claim "A" "T" 1 {}] [update] "T" 0
    ⟨claim, hclaim, hzero⟩ ⟨(seen, update), List.mem_cons_self, hchange⟩ "A" 3
    { note := some "late", expectedVersion := some 0 } rfl).1 ?_
  have hkeeps : Call.resets "T" (seen, update) = false := by decide +kernel
  intro call hcall
  have hcall' : call = (seen, update) := List.mem_singleton.mp hcall
  rw [hcall', hkeeps]

omit [Builtins] in
/-- A claim of the owner in between starts the version anew. -/
theorem stale_version_granted_after_claim :
    letI : Builtins := Builtins.ascii
    let seen := (init .null .null .null .null).run [.claim "A" "T" 1 {}]
    let changed := seen.run [.updateTask "A" "T" 2 { note := some "kept" }]
    let s := changed.run [.claim "A" "T" 3 {}]
    (seen.claims.get? "T").map TaskClaim.version = some 0 ∧
      (seen.claims.get? "T").map TaskClaim.note = some "" ∧
      (changed.claims.get? "T").map TaskClaim.note = some "kept" ∧
      (s.updateTask "A" "T" 4 { note := some "late", expectedVersion := some 0 }).2.isOk = true := by
  decide +kernel

end SynapseState

end SynapseChannel
