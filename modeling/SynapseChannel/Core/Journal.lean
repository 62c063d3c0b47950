import SynapseChannel.Lib.LastWrite
import SynapseChannel.Lib.Outcome
import SynapseChannel.Core.Ledger
import SynapseChannel.Core.Persistence
import SynapseChannel.Core.State

/-!
# Core — Journal

Replay of the event log: each row is decoded and folded into the registry,
the blackboard and the other projections. Without replay policies, the
default, protected-write rows are refused. Relay audits and quarantined
rows feed projections of their own, which are not embedded.
-/

namespace SynapseChannel

open Py Outcome

namespace EventKind

def claim : String := "claim"
def release : String := "release"
def taskUpdate : String := "task_update"
def checkpoint : String := "checkpoint"
def handoff : String := "handoff"
def resource : String := "resource"
def chat : String := "chat"
def ledgerTask : String := "ledger_task"
def ledgerProgress : String := "ledger_progress"
def finding : String := "finding"
def idempotency : String := "idempotency"

/-- The kinds whose rows are full claim snapshots. -/
def snapshots : List String := [claim, taskUpdate, checkpoint, handoff]

/-- The kinds that are folded into the claims map. -/
def lease : List String := release :: snapshots

end EventKind

variable [Builtins]

/-! ## Decoders -/

omit [Builtins] in
/-- `data[key]`. -/
def required (data : Members) (key : String) : Except String Json :=
  match data.get? key with
  | some v => .ok v
  | none => .error s!"KeyError: {key}"

def asInt (v : Json) : Except String Int :=
  match v.toInt? with
  | some n => .ok n
  | none => .error "not an integer"

def asFloat (v : Json) : Except String Float :=
  match v.toFloat? with
  | some x => .ok x
  | none => .error "not a number"

omit [Builtins] in
/-- `dict(value)`; only mappings are ever written where it is read. -/
def asMembers (v : Json) : Except String Members :=
  match v with
  | .obj members => .ok members
  | _ => .error "not a mapping"

/-- `tuple(str(x) for x in value)`. -/
def strings (v : Json) : Except String (List String) :=
  match v with
  | .arr items => .ok (items.map Json.toStr)
  | .str s => .ok (s.toList.map fun c => String.ofList [c])
  | .obj members => .ok (members.map Prod.fst)
  | _ => .error "not iterable"

/-- The ownership anchor of a snapshot: an integer between zero and its
epoch. -/
def ownershipEpochOf (payload : Members) (epoch : Int) : Except String Int :=
  match payload.getD "ownership_epoch" (payload.getD "epoch" (.int 0)) with
  | .int anchor =>
    if 0 ≤ anchor ∧ anchor ≤ epoch then .ok anchor
    else .error "invalid persisted ownership epoch"
  | _ => .error "invalid persisted ownership epoch"

/-- The git context of a snapshot. -/
def gitOf (payload : Members) : Option GitContext :=
  match payload.get "git" with
  | .obj raw => some (GitContext.fromDict raw)
  | _ => none

/-- A persisted identity binds the persisted display scope. -/
def checkDisplayScope (pathIdentity : Option ClaimScopeIdentity) (worktree : String)
    (paths : List String) : Except String Unit :=
  if pathIdentity.any fun x => !x.validatesDisplayScope worktree paths then
    .error "persisted claim path identity does not match its display scope"
  else .ok ()

/-- The task a row names. -/
def taskOf (payload : Members) : String := (payload.getD "task_id" (.str "")).toStr

/-- The owner a claim row names. -/
def ownerOf (payload : Members) : String := (payload.getD "owner" (.str "")).toStr

/-- Rebuild a claim from a persisted claim snapshot. -/
def claimFromPayload (payload : Members) : Except String TaskClaim := do
  let pathIdentity ← parseOptionalClaimScopeIdentity payload
  let paths ← strings (payload.getD "paths" (.arr []))
  let worktree := (payload.getD "worktree" (.str "")).toStr
  checkDisplayScope pathIdentity worktree paths
  let epoch ← asInt (payload.getD "epoch" (.int 0))
  let ownershipEpoch ← ownershipEpochOf payload epoch
  let taskId ← required payload "task_id"
  let owner ← required payload "owner"
  let claimedAt ← asFloat (← required payload "claimed_at")
  let leaseExpiresAt ← asFloat (← required payload "lease_expires_at")
  let version ← asInt (payload.getD "version" (.int 0))
  return TaskClaim.postInit {
    taskId := taskId.toStr
    owner := owner.toStr
    note := (payload.getD "note" (.str "")).toStr
    claimedAt := claimedAt
    leaseExpiresAt := leaseExpiresAt
    quotaPrincipal := ((payload.get "quota_principal").or owner).toStr
    status := (payload.getD "status" (.str "claimed")).toStr
    dataRef := (payload.getD "data_ref" (.str "")).toStr
    worktree := worktree
    paths := paths
    pathIdentity := pathIdentity
    epoch := epoch
    ownershipEpoch := ownershipEpoch
    version := version
    checkpoint := (payload.getD "checkpoint" (.str "")).toStr
    git := gitOf payload }

/-- Rebuild a plan task from a persisted snapshot. -/
def ledgerTaskFromPayload (payload : Members) : Except String LedgerTask := do
  let taskId ← required payload "task_id"
  let title ← required payload "title"
  let createdAt ← asFloat (← required payload "created_at")
  let updatedAt ← asFloat (← required payload "updated_at")
  let dependsOn ← strings (payload.getD "depends_on" (.arr []))
  let version ← asInt (payload.getD "version" (.int 1))
  return {
    taskId := taskId.toStr
    title := title.toStr
    createdAt := createdAt
    updatedAt := updatedAt
    description := (payload.getD "description" (.str "")).toStr
    dependsOn := dependsOn
    status := (payload.getD "status" (.str "open")).toStr
    suggestedOwner := (payload.getD "suggested_owner" (.str "")).toStr
    project := (payload.getD "project" (.str "")).toStr
    version := version
    createdBy := (payload.getD "created_by" (.str "")).toStr }

/-- Rebuild a progress note from a persisted snapshot. -/
def progressFromPayload (payload : Members) : Except String ProgressNote := do
  let postedAt ← asFloat (← required payload "posted_at")
  return {
    taskId := (payload.getD "task_id" (.str "")).toStr
    author := (payload.getD "author" (.str "")).toStr
    kind := (payload.getD "kind" (.str "note")).toStr
    text := (payload.getD "text" (.str "")).toStr
    postedAt := postedAt }

/-- Rebuild a resource offer from a persisted snapshot. -/
def offerFromPayload (payload : Members) : Except String ResourceOffer := do
  let agent ← required payload "agent"
  let kind ← required payload "kind"
  let name ← required payload "name"
  let capacity ← asInt (payload.getD "capacity" (.int 1))
  let metaMap ← asMembers (payload.getD "meta" (.obj []))
  let offeredAt ← asFloat (← required payload "offered_at")
  return {
    agent := agent.toStr
    kind := kind.toStr
    name := name.toStr
    capacity := capacity
    metaMap := metaMap
    offeredAt := offeredAt }

/-! ## Appliers -/

/-- Mutable projections accumulated in journal sequence order. -/
structure ReplayContext where
  state : SynapseState
  blackboard : Blackboard
  chatHistory : List Members := []
  idempotency : Dict String Members := Dict.empty
  findingCountsByActor : Dict String Int := Dict.empty
  messageSeq : Int := 0
  epochSeq : Int := 0

namespace ReplayContext

omit [Builtins] in
/-- Install a decoded claim snapshot. -/
def putClaim (context : ReplayContext) (claim : TaskClaim) : ReplayContext :=
  { context with
    state := { context.state with
      claims := context.state.claims.set claim.taskId claim
      lastSeen := context.state.lastSeen.set claim.owner claim.claimedAt }
    epochSeq := max context.epochSeq claim.epoch }

/-- A snapshot that touches retained protected custody. -/
def claimHeld (context : ReplayContext) (kind : String) (claim : TaskClaim) : Bool :=
  context.state.protectedTaskHeld claim.taskId ||
    (decide (kind ∈ [EventKind.claim, EventKind.handoff]) &&
      context.state.protectedScopeHeld claim.taskId claim.worktree claim.paths claim.pathIdentity)

def applyClaim (context : ReplayContext) (event : StoredEvent) : Except String ReplayContext := do
  let claim ← claimFromPayload event.payload
  if context.claimHeld event.kind claim then
    let seq := event.seq
    .error s!"legacy claim mutation conflicts with protected custody at sequence {seq}"
  else .ok (context.putClaim claim)

omit [Builtins] in
/-- Forget the claim of a released task. -/
def dropClaim (context : ReplayContext) (task : String) : ReplayContext :=
  { context with
    state := { context.state with claims := context.state.claims.erase task } }

def applyRelease (context : ReplayContext) (event : StoredEvent) :
    Except String ReplayContext := do
  let task ← required event.payload "task_id"
  if context.state.protectedTaskHeld task.toStr then
    let seq := event.seq
    .error s!"legacy release conflicts with protected custody at sequence {seq}"
  else .ok (context.dropClaim task.toStr)

def applyResource (context : ReplayContext) (event : StoredEvent) :
    Except String ReplayContext := do
  let offer ← offerFromPayload event.payload
  let key := offer.agent ++ ":" ++ offer.kind ++ ":" ++ offer.name
  return { context with
    state := { context.state with resources := context.state.resources.set key offer } }

def applyLedgerTask (context : ReplayContext) (event : StoredEvent) :
    Except String ReplayContext := do
  let task ← ledgerTaskFromPayload event.payload
  return { context with
    blackboard := { context.blackboard with
      tasks := context.blackboard.tasks.set task.taskId task } }

def applyProgress (context : ReplayContext) (event : StoredEvent) :
    Except String ReplayContext := do
  let note ← progressFromPayload event.payload
  return { context with blackboard := context.blackboard.restoreProgress note }

def applyChat (context : ReplayContext) (event : StoredEvent) : Except String ReplayContext := do
  let msgId ← asInt (event.payload.getD "msg_id" (.int 0))
  return { context with
    chatHistory := context.chatHistory ++ [event.payload]
    messageSeq := max context.messageSeq msgId }

/-- The latest response of a key moves to the end. -/
def applyIdempotency (context : ReplayContext) (event : StoredEvent) :
    Except String ReplayContext :=
  let key := (event.payload.getD "key" (.str "")).toStr
  if key = "" then .ok context
  else do
    let response ← asMembers (event.payload.getD "response" (.obj []))
    return { context with idempotency := (context.idempotency.erase key).set key response }

def applyFinding (context : ReplayContext) (event : StoredEvent) : ReplayContext :=
  match event.payload.get "provenance" with
  | .obj provenance =>
    let actor := strip (((Members.get provenance "actor").or (.str "")).toStr)
    if actor = "" then context
    else
      let counts := context.findingCountsByActor
      { context with
        findingCountsByActor := counts.set actor ((counts.get? actor).getD 0 + 1) }
  | _ => context

omit [Builtins] in
/-- Protected-write history, which has no restorer without policies. -/
def isProtectedWrite (kind : String) : Bool :=
  kind == "protected_write" || startsWith kind "protected_write_"

/-- Restore one event. Unknown ordinary kinds are audit-only. -/
def applyEvent (context : ReplayContext) (event : StoredEvent) : Except String ReplayContext :=
  if isProtectedWrite event.kind then
    let seq := event.seq
    .error <| s!"unsupported protected-write history at sequence {seq}; " ++
      "custody reconciliation is required before authority can resume"
  else if event.kind ∈ EventKind.snapshots then context.applyClaim event
  else if event.kind = EventKind.release then context.applyRelease event
  else if event.kind = EventKind.resource then context.applyResource event
  else if event.kind = EventKind.ledgerTask then context.applyLedgerTask event
  else if event.kind = EventKind.ledgerProgress then context.applyProgress event
  else if event.kind = EventKind.chat then context.applyChat event
  else if event.kind = EventKind.idempotency then context.applyIdempotency event
  else if event.kind = EventKind.finding then .ok (context.applyFinding event)
  else .ok context

end ReplayContext

/-! ## What one row does -/

omit [Builtins] in
theorem required_ok {data : Members} {key : String} {v : Json} (h : required data key = .ok v) :
    data.get? key = some v := by
  unfold required at h
  split at h
  · cases h
    assumption
  · cases h

/-- A decoded claim is filed under the task and owner its row names. -/
theorem claimFromPayload_names {payload : Members} {claim : TaskClaim}
    (h : claimFromPayload payload = .ok claim) :
    claim.taskId = taskOf payload ∧ claim.owner = ownerOf payload := by
  unfold claimFromPayload at h
  obtain ⟨_, -, h⟩ := bind_ok h
  obtain ⟨_, -, h⟩ := bind_ok h
  obtain ⟨_, -, h⟩ := bind_ok h
  obtain ⟨_, -, h⟩ := bind_ok h
  obtain ⟨_, -, h⟩ := bind_ok h
  obtain ⟨task, htask, h⟩ := bind_ok h
  obtain ⟨owner, howner, h⟩ := bind_ok h
  obtain ⟨_, -, h⟩ := bind_ok h
  obtain ⟨_, -, h⟩ := bind_ok h
  obtain ⟨_, -, h⟩ := bind_ok h
  obtain ⟨_, -, h⟩ := bind_ok h
  obtain ⟨_, -, h⟩ := bind_ok h
  cases h
  simp only [taskOf, ownerOf, Members.getD, required_ok htask, required_ok howner,
    TaskClaim.postInit, Option.getD_some, and_self]

/-- What a row does to the claims: install a snapshot, forget a released
task, or nothing. -/
inductive Applied (context : ReplayContext) (event : StoredEvent) : ReplayContext → Prop
  | snapshot (claim : TaskClaim) (hkind : event.kind ∈ EventKind.snapshots)
      (hclaim : claimFromPayload event.payload = .ok claim) :
      Applied context event (context.putClaim claim)
  | release (hkind : event.kind = EventKind.release) :
      Applied context event (context.dropClaim (taskOf event.payload))
  | other (context' : ReplayContext) (hkind : event.kind ∉ EventKind.lease)
      (hclaims : context'.state.claims = context.state.claims)
      (hseen : context'.state.lastSeen = context.state.lastSeen)
      (hepoch : context'.epochSeq = context.epochSeq) : Applied context event context'

theorem applyEvent_applied {context context' : ReplayContext} {event : StoredEvent}
    (h : context.applyEvent event = .ok context') : Applied context event context' := by
  unfold ReplayContext.applyEvent at h
  split at h
  · cases h
  split at h
  · rename_i hkind
    obtain ⟨claim, hclaim, h⟩ := bind_ok h
    split at h
    · cases h
    · cases h
      exact .snapshot claim hkind hclaim
  rename_i hsnap
  split at h
  · rename_i hkind
    obtain ⟨task, htask, h⟩ := bind_ok h
    split at h
    · cases h
    · cases h
      have heq : task.toStr = taskOf event.payload := by
        simp only [taskOf, Members.getD, required_ok htask, Option.getD_some]
      rw [heq]
      exact .release hkind
  rename_i hrel
  have hlease : event.kind ∉ EventKind.lease := by
    simp only [EventKind.lease, List.mem_cons, not_or]
    exact ⟨hrel, hsnap⟩
  split at h
  · obtain ⟨_, -, h⟩ := bind_ok h
    cases h
    exact .other _ hlease rfl rfl rfl
  split at h
  · obtain ⟨_, -, h⟩ := bind_ok h
    cases h
    exact .other _ hlease rfl rfl rfl
  split at h
  · obtain ⟨_, -, h⟩ := bind_ok h
    cases h
    exact .other _ hlease rfl rfl rfl
  split at h
  · obtain ⟨_, -, h⟩ := bind_ok h
    cases h
    exact .other _ hlease rfl rfl rfl
  split at h
  · unfold ReplayContext.applyIdempotency at h
    dsimp only at h
    split at h
    · cases h
      exact .other _ hlease rfl rfl rfl
    · obtain ⟨_, -, h⟩ := bind_ok h
      cases h
      exact .other _ hlease rfl rfl rfl
  split at h
  · cases h
    unfold ReplayContext.applyFinding
    split
    · dsimp only
      split <;> exact .other _ hlease rfl rfl rfl
    · exact .other _ hlease rfl rfl rfl
  · cases h
    exact .other _ hlease rfl rfl rfl

/-! ## Replay -/

/-- The bounds seeded into the reconstructed registry and blackboard. -/
structure ReplayConfig where
  state : SynapseState
  blackboard : Blackboard

/-- The bounds a replay is called with. -/
def ReplayConfig.init (defaultTtl maxClaims maxOffers maxPaths : Json)
    (maxProgress maxPerAuthor maxPerTask : Int) : ReplayConfig where
  state := SynapseState.init defaultTtl maxClaims maxOffers maxPaths
  blackboard := Blackboard.init maxProgress maxPerAuthor maxPerTask

/-- Fold the log into the projections. -/
def replayEvents (context : ReplayContext) (log : List StoredEvent) :
    Except String ReplayContext :=
  log.foldlM ReplayContext.applyEvent context

/-- The registry with its epoch counter and lease heap rebuilt, before
any expiry. -/
def ReplayContext.rebuilt (context : ReplayContext) : SynapseState :=
  { context.state with
    epochSeq := context.epochSeq
    leaseIndex := LeaseIndex.rebuild context.state.claims }

/-- Rebuild the coordination state from the whole event log, with leases
and offers expired at `now`. -/
def replay (config : ReplayConfig) (log : List StoredEvent) (now : Float) :
    Except String ReplayContext := do
  let context ← replayEvents { state := config.state, blackboard := config.blackboard } log
  return { context with state := (context.rebuilt.expireClaims now).expireResources now }

/-! ## The last writer of a task -/

/-- The row writes the claim of `task`. -/
def writesClaim (task : String) (event : StoredEvent) : Bool :=
  decide (event.kind ∈ EventKind.lease) && taskOf event.payload == task

/-- What a writing row leaves in the claims map. -/
def claimAfter (event : StoredEvent) : Option TaskClaim :=
  if event.kind = EventKind.release then none else (claimFromPayload event.payload).toOption

/-- Replay goes through only when every snapshot row decodes. -/
theorem replayed_decodes {log : List StoredEvent} {context context' : ReplayContext}
    (h : replayEvents context log = .ok context') {event : StoredEvent} (hmem : event ∈ log)
    (hkind : event.kind ∈ EventKind.snapshots) :
    ∃ claim, claimFromPayload event.payload = .ok claim := by
  induction log generalizing context with
  | nil => cases hmem
  | cons e rest ih =>
    rw [replayEvents, List.foldlM_cons] at h
    obtain ⟨middle, hmiddle, hrest⟩ := bind_ok h
    rcases List.mem_cons.mp hmem with rfl | hmem
    · cases applyEvent_applied hmiddle with
      | snapshot claim _ hclaim => exact ⟨claim, hclaim⟩
      | release hrel => exact absurd (hrel ▸ hkind) (by decide)
      | other _ hno => exact absurd (List.mem_cons_of_mem _ hkind) hno
    · exact ih hrest hmem

/-- A replayed claim is what the last row that writes it left. -/
theorem replayed_last {log : List StoredEvent} {context context' : ReplayContext}
    (h : replayEvents context log = .ok context') (task : String) :
    context'.state.claims.get? task =
      ((LastWrite.last (writesClaim task) log).map claimAfter).getD
        (context.state.claims.get? task) := by
  refine LastWrite.decides (writesClaim task) (fun c => c.state.claims.get? task) claimAfter
    (fun s e s' hw h => ?_) (fun s e s' hw h => ?_) h
  · cases applyEvent_applied h with
    | snapshot claim hkind hclaim =>
      refine Dict.get?_set_ne _ _ fun heq => ?_
      have hnames := (claimFromPayload_names hclaim).1
      simp [writesClaim, EventKind.lease, hkind, ← hnames, heq] at hw
    | release hkind =>
      refine Dict.get?_erase_ne _ fun heq => ?_
      simp [writesClaim, EventKind.lease, hkind, heq] at hw
    | other context' hkind hclaims => exact congrArg (fun d => d.get? task) hclaims
  · simp only [writesClaim, Bool.and_eq_true, decide_eq_true_eq, beq_iff_eq] at hw
    obtain ⟨hkind, rfl⟩ := hw
    cases applyEvent_applied h with
    | snapshot claim hsnap hclaim =>
      have hne : e.kind ≠ EventKind.release := fun heq =>
        absurd (heq ▸ hsnap) (by decide)
      simp only [claimAfter, hne, if_false, hclaim, ← (claimFromPayload_names hclaim).1]
      exact Dict.get?_set_self _ _ _
    | release hrel =>
      rw [claimAfter, if_pos hrel]
      exact Dict.get?_erase_self _ _
    | other context' hno => exact absurd hkind hno

end SynapseChannel
