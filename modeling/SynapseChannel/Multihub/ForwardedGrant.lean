import SynapseChannel.Multihub.ClaimForwarding

/-!
# Multihub — ForwardedGrant

What an owning hub that answers "granted" really holds: whether there is a
live lease on the task of the envelope, its claimant's, over the scope that
was asked for.
-/

namespace SynapseChannel

open Py

/-! ## Scopes -/

/-- A declared path lies in a held one; the empty path is the whole tree. -/
def pathCovers (held path : String) : Bool :=
  held = "" || held = path || startsWith path (held ++ "/")

/-- Every requested path lies in a held one; no paths at all declare the whole tree. -/
def pathsCover (held requested : List String) : Bool :=
  held.isEmpty || held.contains "" ||
    (!requested.isEmpty && requested.all fun path => held.any (pathCovers · path))

theorem pathsCover_self (paths : List String) : pathsCover paths paths = true := by
  unfold pathsCover
  cases hempty : paths.isEmpty with
  | true => rfl
  | false =>
    have hall : (paths.all fun path => paths.any (pathCovers · path)) = true := by
      rw [List.all_eq_true]
      intro path hmem
      rw [List.any_eq_true]
      refine ⟨path, hmem, ?_⟩
      simp [pathCovers]
    simp [hall]

variable [Builtins]

/-- The lease covers the worktree and the normalised paths that a body asks for. -/
def TaskClaim.covers (claim : TaskClaim) (maxPaths : Int) (body : Members) : Bool :=
  claim.worktree = ClaimBody.worktree body &&
    pathsCover claim.paths (normalizePaths (ClaimBody.paths body) (some maxPaths))

namespace ClaimHub

/-- A verdict "granted" is true: the registry holds a lease of the claimant
on the task of the envelope, not run out, over the scope that was asked for. -/
def Reported (h : ClaimHub) (s : ClaimStep) : Prop :=
  ∀ request result now, h.answers s = some (request, result, now) → result.granted = true →
    ∃ claim, (h.step s).state.claims.get? request.taskId = some claim ∧
      claim.owner = request.claimant ∧ ¬ claim.leaseExpiresAt ≤ now ∧
      claim.covers h.state.maxPathsPerClaim request.claim = true

instance (h : ClaimHub) (s : ClaimStep) : Decidable (Reported h s) :=
  decidable_of_iff
    (∀ sent ∈ h.answers s, sent.2.1.granted = true →
      ∃ claim ∈ (h.step s).state.claims.get? sent.1.taskId,
        claim.owner = sent.1.claimant ∧ ¬ claim.leaseExpiresAt ≤ sent.2.2 ∧
          claim.covers h.state.maxPathsPerClaim sent.1.claim = true)
    ⟨fun h request result now hanswer => h (request, result, now) hanswer,
      fun h sent hsent => h sent.1 sent.2.1 sent.2.2 hsent⟩

/-- When a verdict can be trusted: the lease that the shortcut for duplicates
finds covers the new request; an applied request named in its body the task of
its envelope, a renewal the worktree of its lease, and the lease is still the
granted one, and live, when the verdict is sent. -/
def Asked (h : ClaimHub) : ClaimStep → Prop
  | .request _ data authorised now =>
    ∀ request claim, decodeClaimForwardRequest data = .ok request →
      h.refuseClaim authorised request = none →
      h.duplicateForwardedClaim request now = some claim →
      claim.covers h.state.maxPathsPerClaim request.claim = true
  | .answer slot now =>
    ∀ request application claim, h.calls[slot]? = some (.answering request application) →
      application.claim = some claim →
      ClaimBody.taskId request.claim = request.taskId ∧
        h.state.claims.get? request.taskId = some claim ∧ ¬ claim.leaseExpiresAt ≤ now ∧
        (request.claim.contains "renew_epoch" = true →
          claim.worktree = ClaimBody.worktree request.claim)
  | _ => True

/-- The lease of an application that waits for its answer. -/
structure Granted (maxPaths : Int) (request : ClaimForwardRequest) (claim : TaskClaim) : Prop where
  owner : claim.owner = request.claimant
  paths : claim.paths = normalizePaths (ClaimBody.paths request.claim) (some maxPaths)
  worktree : request.claim.contains "renew_epoch" = false →
    claim.worktree = ClaimBody.worktree request.claim

/-- What every run keeps of the answers that are still to be sent. -/
def Answering (h : ClaimHub) : Prop :=
  ∀ request application claim, .answering request application ∈ h.calls →
    application.claim = some claim → Granted h.state.maxPathsPerClaim request claim

theorem Granted.covers {maxPaths : Int} {request : ClaimForwardRequest} {claim : TaskClaim}
    (hgranted : Granted maxPaths request claim)
    (hworktree : request.claim.contains "renew_epoch" = true →
      claim.worktree = ClaimBody.worktree request.claim) :
    claim.covers maxPaths request.claim = true := by
  have hsame : claim.worktree = ClaimBody.worktree request.claim := by
    cases hrenew : request.claim.contains "renew_epoch" with
    | true => exact hworktree hrenew
    | false => exact hgranted.worktree hrenew
  unfold TaskClaim.covers
  rw [hgranted.paths, pathsCover_self, hsame]
  simp

/-! ## The shortcut for duplicates -/

omit [Builtins] in
theorem duplicate_some {h : ClaimHub} {request : ClaimForwardRequest} {now : Float}
    {claim : TaskClaim} (hfound : h.duplicateForwardedClaim request now = some claim) :
    h.state.claims.get? request.taskId = some claim ∧ claim.owner = request.claimant ∧
      ¬ claim.leaseExpiresAt ≤ now := by
  unfold duplicateForwardedClaim at hfound
  cases hget : h.state.claims.get? request.taskId with
  | none =>
    rw [hget] at hfound
    cases hfound
  | some existing =>
    rw [hget] at hfound
    dsimp only at hfound
    split at hfound
    · cases hfound
    · rename_i howner
      split at hfound
      · cases hfound
      · rename_i hlive
        cases hfound
        exact ⟨rfl, by simpa using howner, hlive⟩

omit [Builtins] in
/-- Where the shortcut finds nothing, the claimant has no live lease on the task. -/
theorem duplicate_none {h : ClaimHub} {request : ClaimForwardRequest} {now : Float}
    (hnone : h.duplicateForwardedClaim request now = none) {claim : TaskClaim}
    (hget : h.state.claims.get? request.taskId = some claim)
    (howner : claim.owner = request.claimant) : claim.leaseExpiresAt ≤ now := by
  by_contra hlive
  unfold duplicateForwardedClaim at hnone
  rw [hget] at hnone
  dsimp only at hnone
  rw [if_neg (by simpa using howner), if_neg hlive] at hnone
  cases hnone

/-! ## Answers -/

theorem refuseClaim_denied {h : ClaimHub} {authorised : Bool} {request : ClaimForwardRequest}
    {refusal : ClaimForwardResult} (hrefused : h.refuseClaim authorised request = some refusal) :
    refusal.granted = false := by
  unfold refuseClaim at hrefused
  split at hrefused
  · cases hrefused
    rfl
  · split at hrefused
    · cases hrefused
      rfl
    · split at hrefused
      · cases hrefused
        rfl
      · cases hrefused

/-- What is said at once is true exactly where the shortcut's lease covers the request. -/
theorem reported_request {h : ClaimHub} {peer : String} {data : Json} {authorised : Bool}
    {now : Float} :
    Reported h (.request peer data authorised now) ↔ Asked h (.request peer data authorised now) := by
  unfold Reported
  rw [step_request_state]
  constructor
  · intro hreported request claim hdecode hpassed hfound
    obtain ⟨hget, -, -⟩ := duplicate_some hfound
    have hanswer : h.answers (.request peer data authorised now) =
        some (request, h.duplicateResult request claim, now) := by
      unfold answers receive
      dsimp only
      rw [hdecode]
      dsimp only
      rw [hpassed]
      dsimp only
      rw [hfound]
      rfl
    obtain ⟨held, hheld, -, -, hcovers⟩ := hreported _ _ _ hanswer rfl
    rw [hget] at hheld
    cases hheld
    exact hcovers
  · intro hasked request result now' hanswer hgranted
    unfold answers receive at hanswer
    dsimp only at hanswer
    cases hdecode : decodeClaimForwardRequest data with
    | error e =>
      rw [hdecode] at hanswer
      cases hanswer
    | ok asked =>
      rw [hdecode] at hanswer
      dsimp only at hanswer
      cases hpassed : h.refuseClaim authorised asked with
      | some refusal =>
        rw [hpassed] at hanswer
        cases hanswer
        have hdenied := refuseClaim_denied hpassed
        rw [hgranted] at hdenied
        cases hdenied
      | none =>
        rw [hpassed] at hanswer
        dsimp only at hanswer
        cases hfound : h.duplicateForwardedClaim asked now with
        | none =>
          rw [hfound] at hanswer
          cases hanswer
        | some claim =>
          rw [hfound] at hanswer
          cases hanswer
          obtain ⟨hget, howner, hlive⟩ := duplicate_some hfound
          exact ⟨claim, hget, howner, hlive, hasked _ claim hdecode hpassed hfound⟩

theorem step_answer_state (h : ClaimHub) (slot : Nat) (now : Float) :
    (h.step (.answer slot now)).state = h.state := by
  unfold step
  dsimp only
  split <;> rfl

/-- An answer is true where the lease is the granted one and scoped as asked. -/
theorem reported_answer {h : ClaimHub} (hs : Answering h) {slot : Nat} {now : Float}
    (hasked : Asked h (.answer slot now)) : Reported h (.answer slot now) := by
  intro request result now' hanswer hgranted
  unfold answers at hanswer
  dsimp only at hanswer
  split at hanswer
  · rename_i asked application hcall
    cases hanswer
    obtain ⟨claim, hclaim⟩ := Option.isSome_iff_exists.mp hgranted
    obtain ⟨-, hget, hlive, hworktree⟩ := hasked _ _ claim hcall hclaim
    have hlease := hs _ _ claim (List.mem_of_getElem? hcall) hclaim
    rw [step_answer_state]
    exact ⟨claim, hget, hlease.owner, hlive, hlease.covers hworktree⟩
  · cases hanswer

/-! ## What every run keeps -/

theorem Answering.keep {h h' : ClaimHub} (hs : Answering h)
    (hcalls : ∀ request application, .answering request application ∈ h'.calls →
      .answering request application ∈ h.calls)
    (hmax : h'.state.maxPathsPerClaim = h.state.maxPathsPerClaim) : Answering h' := by
  intro request application claim hmem hclaim
  rw [hmax]
  exact hs request application claim (hcalls _ _ hmem) hclaim

theorem Answering.state {h : ClaimHub} (hs : Answering h) {state : SynapseState}
    (hmax : state.maxPathsPerClaim = h.state.maxPathsPerClaim) : Answering { h with state } :=
  hs.keep (fun _ _ => id) hmax

omit [Builtins] in
theorem mem_enter {h : ClaimHub} {call : ClaimCall}
    (hcall : ∀ request application, call ≠ .answering request application)
    (request : ClaimForwardRequest) (application : ClaimApplication)
    (hmem : .answering request application ∈ (h.enter call).calls) :
    .answering request application ∈ h.calls := by
  rcases List.mem_append.mp hmem with hmem | hmem
  · exact hmem
  · exact absurd (List.mem_singleton.mp hmem).symm (hcall _ _)

omit [Builtins] in
theorem mem_set_done {calls : List ClaimCall} {slot : Nat} {request : ClaimForwardRequest}
    {application : ClaimApplication}
    (hmem : .answering request application ∈ calls.set slot .done) :
    .answering request application ∈ calls := by
  rcases List.mem_or_eq_of_mem_set hmem with hmem | heq
  · exact hmem
  · cases heq

theorem handoff_maxPaths (h : ClaimHub) (sender : String) (data : Members)
    (online : String → Bool) (now : Float) :
    (h.handoff sender data online now).1.maxPathsPerClaim = h.state.maxPathsPerClaim := by
  unfold handoff
  dsimp only
  split
  · rfl
  · have hleaves := StateOp.leavesOthers h.state (.handoff sender (handoffBody data).taskId
      (handoffBody data).toAgent now (handoffBody data).note (handoffBody data).epoch)
    unfold StateOp.next StateOp.apply at hleaves
    dsimp only at hleaves
    exact hleaves.maxPaths

/-- The lease of an application is the claimant's, scoped as its body asks. -/
theorem granted_of_obtained {s s' : SynapseState} {request : ClaimForwardRequest}
    {claim : TaskClaim} (hobtained : Obtained s s' request.claimant request.claim claim) :
    Granted s.maxPathsPerClaim request claim :=
  ⟨hobtained.owner, hobtained.paths, hobtained.worktree⟩

theorem answering_apply {h : ClaimHub} (hs : Answering h) (slot : Nat) (quota : String)
    (now : Float) : Answering (h.step (.apply slot quota now)) := by
  cases hflight : h.inFlight slot quota with
  | none =>
    rw [step_apply_idle hflight]
    exact hs
  | some flight =>
    obtain ⟨bucket, claimant, body⟩ := flight
    cases hcall : h.calls[slot]? with
    | none =>
      unfold inFlight at hflight
      rw [hcall] at hflight
      cases hflight
    | some call =>
      rw [step_apply hcall hflight]
      have hmax : (h.state.applyClaim claimant body (some bucket) now).1.maxPathsPerClaim =
          h.state.maxPathsPerClaim :=
        (h.state.applyClaim_leavesOthers claimant body (some bucket) now).maxPaths
      intro request application claim hmem hclaim
      dsimp only at hmem ⊢
      rw [hmax]
      rcases List.mem_or_eq_of_mem_set hmem with hold | hnew
      · exact hs request application claim hold hclaim
      · unfold afterApply at hnew
        split at hnew
        · cases hnew
          unfold inFlight at hflight
          rw [hcall] at hflight
          cases hflight
          exact granted_of_obtained (SynapseState.applyClaim_obtained hclaim)
        · cases hnew

theorem answering_step {h : ClaimHub} (hs : Answering h) (s : ClaimStep) :
    Answering (h.step s) := by
  cases s with
  | observe feed => exact hs.keep (fun _ _ => id) rfl
  | frame sender data relayed =>
    unfold step
    dsimp only
    split
    · refine hs.keep (mem_enter ?_) rfl
      intro request application hno
      cases hno
    · exact hs
  | request peer data authorised now =>
    show Answering (h.receive peer data authorised now).1
    unfold receive
    split
    · exact hs
    · split
      · exact hs
      · split
        · exact hs
        · refine hs.keep (mem_enter ?_) rfl
          intro request application hno
          cases hno
  | apply slot quota now => exact answering_apply hs slot quota now
  | answer slot now =>
    unfold step
    dsimp only
    split
    · exact hs.keep (fun _ _ => mem_set_done) rfl
    · exact hs
  | drop slot => exact hs.keep (fun _ _ => mem_set_done) rfl
  | handoff sender data online now =>
    simp only [step]
    exact hs.state (h.handoff_maxPaths sender data online now)
  | verb op => exact hs.keep (fun _ _ => id) (op.1.leavesOthers h.state).maxPaths

theorem reported_step {h : ClaimHub} (hs : Answering h) {s : ClaimStep} (hasked : Asked h s) :
    Reported h s := by
  cases s with
  | request peer data authorised now => exact reported_request.mpr hasked
  | answer slot now => exact reported_answer hs hasked
  | observe | frame | apply | drop | handoff | verb =>
    intro request result now hanswer
    cases hanswer

/-! ## An answer sent at once -/

/-- A request that is applied and answered with nothing in between: the verdict
is true only where the condition holds. -/
theorem asked_of_reported {h : ClaimHub} {slot : Nat} {peer quota : String} {now : Float}
    {request : ClaimForwardRequest} (hcall : h.calls[slot]? = some (.forward peer request))
    (hfresh : h.duplicateForwardedClaim request now = none)
    (hreported : Reported (h.step (.apply slot quota now)) (.answer slot now)) :
    Asked (h.step (.apply slot quota now)) (.answer slot now) := by
  have hflight : h.inFlight slot quota =
      some (s!"federation-peer:{peer}", request.claimant, request.claim) := by
    unfold inFlight
    rw [hcall]
  have hstep : h.step (.apply slot quota now) = _ := step_apply hcall hflight
  generalize hbucket : s!"federation-peer:{peer}" = bucket at hstep
  generalize happlied : h.state.applyClaim request.claimant request.claim (some bucket) now = r
    at hstep
  have hlt : slot < h.calls.length := (List.getElem?_eq_some_iff.mp hcall).1
  have hplace : (h.step (.apply slot quota now)).calls[slot]? =
      some (.answering request r.2) := by
    rw [hstep]
    exact List.getElem?_set_self hlt
  intro asked application claim hanswering hclaim
  rw [hplace] at hanswering
  cases hanswering
  have hanswer : (h.step (.apply slot quota now)).answers (.answer slot now) =
      some (request, (h.step (.apply slot quota now)).appliedResult request r.2, now) := by
    unfold answers
    dsimp only
    rw [hplace]
  have hgranted : ((h.step (.apply slot quota now)).appliedResult request r.2).granted = true := by
    unfold appliedResult
    rw [hclaim]
    rfl
  obtain ⟨held, hheld, howner, hlive, hcovers⟩ := hreported _ _ _ hanswer hgranted
  have hkept : ((h.step (.apply slot quota now)).step (.answer slot now)).state = r.1 := by
    rw [step_answer_state, hstep]
  rw [hkept] at hheld
  have hleaves := h.state.applyClaim_leavesOthers request.claimant request.claim (some bucket) now
  have hobtained := @SynapseState.applyClaim_obtained _ h.state request.claimant request.claim
    (some bucket) now claim
  rw [happlied] at hleaves hobtained
  have hsame : ClaimBody.taskId request.claim = request.taskId := by
    by_contra hother
    -- a lease on another task was there when the shortcut looked
    have hbefore := hleaves.claims _ held (Ne.symm hother) hheld
    exact hlive (duplicate_none hfresh hbefore howner)
  have hstored := (hobtained hclaim).stored
  rw [hsame, hheld] at hstored
  cases hstored
  refine ⟨hsame, ?_, hlive, ?_⟩
  · rw [hstep]
    exact hheld
  · intro _
    unfold TaskClaim.covers at hcovers
    simp only [Bool.and_eq_true, decide_eq_true_eq] at hcovers
    exact hcovers.1

/-! ## Runs -/

/-- On an owning hub, whatever leases it starts with. Along every run whose
steps all meet the condition, each verdict "granted" is true when it is sent.
The condition is exact for a request answered at once, and for one that is
applied and answered with nothing in between. -/
theorem forwarded_grant_covers (hubId : String) (ownership : Option NamespaceOwnership)
    (journalCorrupt : Bool) (feed : String → List String) (state : SynapseState)
    (steps : List ClaimStep) :
    let start : ClaimHub := { hubId, ownership, journalCorrupt, feed, state }
    (Trace.Every step (fun h s => Asked h s) start steps →
        Trace.Every step (fun h s => Reported h s) start steps) ∧
      Trace.Every step (fun h s => ∀ peer data authorised now,
        s = .request peer data authorised now → (Reported h s ↔ Asked h s)) start steps ∧
      Trace.Every step (fun h s => ∀ slot quota now peer request,
        s = .apply slot quota now → h.calls[slot]? = some (.forward peer request) →
        h.duplicateForwardedClaim request now = none →
        (Reported (h.step s) (.answer slot now) ↔ Asked (h.step s) (.answer slot now)))
        start steps := by
  intro start
  have hstart : Answering start := by
    intro request application claim hmem
    cases hmem
  have hany : Trace.Every step (fun _ _ => True) start steps :=
    Trace.Every.of_forall step (P := fun _ => True) fun _ _ => trivial
  refine ⟨?_, ?_, ?_⟩
  · intro hasked
    exact (Trace.every_invariant step (I := Answering) (fun h s hs _ => answering_step hs s)
      (fun h s hs hfit => reported_step hs hfit) hstart hasked).2
  · refine hany.imp step ?_
    rintro h s - peer data authorised now rfl
    exact reported_request
  · refine (Trace.every_invariant step (I := Answering) (fun h s hs _ => answering_step hs s)
      ?_ hstart hany).2
    rintro h s hs - slot quota now peer request rfl hcall hfresh
    exact ⟨asked_of_reported hcall hfresh, reported_answer (answering_step hs _)⟩

/-! ## Verdicts that are not true -/

section Untrue

omit [Builtins]

def forwardedClaim (claim : Members) : Json :=
  .obj [("namespace", .str "P"), ("claimant", .str "P/a"), ("task_id", .str "T"),
    ("claim", .obj claim)]

/-- A claim of `T` over `a`, then one over `b`. -/
def widenedRetry : List ClaimStep :=
  [.request "peer" (forwardedClaim [("task_id", .str "T"), ("paths", .arr [.str "a"])]) true 1,
    .apply 0 "" 1, .answer 0 1,
    .request "peer" (forwardedClaim [("task_id", .str "T"), ("paths", .arr [.str "b"])]) true 2]

/-- A claim whose body names another task than its envelope. -/
def mismatchedTask : List ClaimStep :=
  [.request "peer" (forwardedClaim [("task_id", .str "U")]) true 1, .apply 0 "" 1, .answer 0 1]

theorem granted_without_lease :
    letI := Builtins.ascii
    let start : ClaimHub :=
      { hubId := "h", ownership := some ⟨Dict.empty.set "P" "h", "h"⟩
        state := SynapseState.init .null .null .null .null }
    ¬ Trace.Every step Reported start widenedRetry ∧
      ¬ Trace.Every step Reported start mismatchedTask := by
  decide +kernel

end Untrue

end ClaimHub

end SynapseChannel
