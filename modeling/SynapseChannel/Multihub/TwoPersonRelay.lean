import SynapseChannel.Multihub.OperatorRelay

/-!
# Multihub — TwoPersonRelay

Two principals for each force-release: whatever is submitted, refused,
evicted or restarted, a release is carried out only for a second principal,
after a first one asked for the same action on the same task with no verdict
between them. The audits of the journal fold back to the ledger as it is,
but for whitespace around the requesters' labels.
-/

namespace Py

/-- Text without whitespace is not changed by `strip`. -/
theorem strip_of_noSpace {text : String} (h : ∀ c ∈ text.toList, isSpace c = false) :
    strip text = text := by
  have hkeep : ∀ cs : List Char, (∀ c ∈ cs, isSpace c = false) → cs.dropWhile isSpace = cs := by
    intro cs hcs
    cases cs with
    | nil => rfl
    | cons c rest => simp [hcs c List.mem_cons_self]
  unfold strip stripChars
  rw [hkeep _ h, hkeep _ (by simpa using h), List.reverse_reverse, String.ofList_toList]

end Py

namespace SynapseChannel

open Py Outcome

variable [Builtins]

/-! ## The gate -/

theorem verifiedPeerPrincipal_stripped (hsha : Sha256Spelled) (domainId : String) :
    Stripped (verifiedPeerPrincipal domainId) := by
  unfold verifiedPeerPrincipal
  dsimp only
  constructor
  · simp [String.append_eq_empty_iff]
  · obtain ⟨digest, -, heq⟩ := hsha (Framing.utf8 "synapse-channel:multihub-peer-principal:v1\x00" ++
      Framing.toBytes 4 (Framing.utf8 domainId).length ++ Framing.utf8 domainId)
    rw [heq]
    apply strip_of_noSpace
    have hmark : ("federation-peer:".toList.all fun c => !isSpace c) = true := by decide +kernel
    have hdigit : ∀ i : Fin 16, isSpace (hexDigit i) = false := by decide
    intro c hc
    rw [String.toList_append, List.mem_append] at hc
    rcases hc with hc | hc
    · simpa using List.all_eq_true.mp hmark c hc
    · unfold hex at hc
      rw [String.toList_ofList] at hc
      obtain ⟨b, -, hb⟩ := List.mem_flatMap.mp hc
      have hlt : b.toNat < 256 := b.toNat_lt
      simp only [List.mem_cons, List.not_mem_nil, or_false] at hb
      rcases hb with rfl | rfl
      · exact hdigit ⟨b.toNat / 16, by omega⟩
      · exact hdigit ⟨b.toNat % 16, by omega⟩

omit [Builtins] in
/-- A namespace in which a map grants is one it names. -/
theorem WatchOwnership.stripped_of_grants {ownership : WatchOwnership} {name : String}
    (h : (ownership.resolve name []).grantsLocally = true) : Stripped name :=
  ownership.stripped name _ ((ownership.resolve_grantsLocally name []).mp h).1

namespace RelayHub

/-- What a request that is let through is: a release in a namespace of this hub, by a verified
principal. -/
theorem authorise_allowed (hsha : Sha256Spelled) {h : RelayHub} {request : RelayActionRequest}
    {proof : PeerProof} (hallowed : (h.authorise request proof).1.allowed = true) :
    Stripped request.action ∧ Stripped request.name ∧ Stripped (h.authorise request proof).2 := by
  unfold authorise authoriseRelay at hallowed ⊢
  dsimp only at hallowed ⊢
  cases proof with
  | refused reason => simp [PeerProof.authorisation] at hallowed
  | proven domainId scope =>
    have hprincipal := verifiedPeerPrincipal_stripped hsha domainId
    have hverified : (verifiedPeerPrincipal domainId != "") = true := by
      simpa using hprincipal.1
    unfold PeerProof.authorisation at hallowed ⊢
    simp only [hverified, Bool.and_self, Bool.not_true, Bool.false_eq_true, if_false] at hallowed
    unfold relayableActions at hallowed
    by_cases haction : request.action = "release"
    · rw [if_pos haction] at hallowed
      dsimp only at hallowed
      split at hallowed
      · cases hallowed
      split at hallowed
      · cases hallowed
      split at hallowed
      · cases hallowed
      rename_i howns
      refine ⟨haction ▸ ⟨by decide, by decide⟩, ?_, ?_⟩
      · cases hownership : h.ownership with
        | none => simp [hownership] at howns
        | some ownership =>
          refine @WatchOwnership.stripped_of_grants ownership _ ?_
          simpa [hownership] using howns
      · simpa [hverified] using hprincipal
    · rw [if_neg haction] at hallowed
      cases hallowed

end RelayHub

omit [Builtins] in
theorem requireNonempty_ok {value : Json} {field text : String}
    (h : requireNonempty value field = .ok text) : strip text ≠ "" := by
  unfold requireNonempty at h
  split at h
  · split at h
    · cases h
    · rename_i hblank
      cases h
      exact hblank
  · cases h

omit [Builtins] in
/-- A request that is read names its task and its operator. -/
theorem decodeRelayRequest_ok {data : Json} {request : RelayActionRequest}
    (h : decodeRelayRequest data = .ok request) :
    strip request.taskId ≠ "" ∧ strip request.operator ≠ "" := by
  unfold decodeRelayRequest at h
  obtain ⟨body, -, h⟩ := bind_ok h
  obtain ⟨action, -, h⟩ := bind_ok h
  obtain ⟨name, -, h⟩ := bind_ok h
  obtain ⟨taskId, htask, h⟩ := bind_ok h
  obtain ⟨operator, hoperator, h⟩ := bind_ok h
  obtain ⟨originHubId, -, h⟩ := bind_ok h
  obtain ⟨reason, -, h⟩ := bind_ok h
  obtain ⟨breakGlass, -, h⟩ := bind_ok h
  obtain ⟨idemKey, -, h⟩ := bind_ok h
  cases h
  exact ⟨requireNonempty_ok htask, requireNonempty_ok hoperator⟩

/-! ## Audits -/

omit [Builtins] in
theorem keyFromAudit_request {request : RelayActionRequest} (haction : Stripped request.action)
    (hname : Stripped request.name) (htask : strip request.taskId ≠ "") {payload : Members}
    (hpayload : payload.get "action" = .str request.action ∧
      payload.get "namespace" = .str request.name ∧
      payload.get "task_id" = .str (strip request.taskId)) :
    keyFromAudit payload = some (.fromRequest request) := by
  obtain ⟨ha, hn, ht⟩ := hpayload
  unfold keyFromAudit
  rw [ha, hn, ht, RelayApprovalLedger.nonBlank_str (haction.2.symm ▸ haction.1),
    RelayApprovalLedger.nonBlank_str (hname.2.symm ▸ hname.1),
    RelayApprovalLedger.nonBlank_str (by rwa [strip_strip]), haction.2, hname.2, strip_strip]
  rfl

namespace RelayHub

omit [Builtins] in
/-- A release that is not carried out leaves the registry as it is. -/
theorem forceRelease_error {s s' : SynapseState} {taskId operator message : String}
    (h : s.forceRelease taskId operator = (s', .error message)) : s' = s := by
  unfold SynapseState.forceRelease at h
  dsimp only at h
  split at h
  · exact (congrArg Prod.fst h).symm
  · split at h
    · exact (congrArg Prod.fst h).symm
    · split at h
      · exact (congrArg Prod.fst h).symm
      · cases h

omit [Builtins] in
/-- A submission moves the ledger by its verdict and writes the audit of it, and only an approved
one touches the registry. -/
theorem prepare_submitted {h : RelayHub} {sender : String} {request : RelayActionRequest}
    {principal : String} {state : SynapseState} {approvals : RelayApprovalLedger}
    {application : TwoPersonApplication} (haction : Stripped request.action)
    (hname : Stripped request.name) (htask : strip request.taskId ≠ "")
    (hprep : h.prepareTwoPersonApplication sender request principal =
      .ok (state, approvals, application)) :
    ∃ outcome, h.approvals.submit request principal = .ok (approvals, outcome) ∧
      RelayApprovalLedger.Audits application.auditPayload outcome ∧
      (application.result.applied = true → outcome.status = .approved) ∧
      (application.result.applied = false → state = h.state) := by
  unfold prepareTwoPersonApplication at hprep
  cases hsubmit : h.approvals.submit request principal with
  | error message =>
    rw [hsubmit] at hprep
    cases hprep
  | ok result =>
    obtain ⟨approvals', outcome⟩ := result
    rw [hsubmit] at hprep
    dsimp only at hprep
    have hkey : outcome.key = .fromRequest request := by
      cases RelayApprovalLedger.submit_submitted hsubmit <;> rfl
    split at hprep
    · rename_i happroved
      unfold prepareRelease at hprep
      dsimp only at hprep
      cases hrelease : h.state.forceRelease request.taskId request.operator with
      | mk state' verdict =>
        rw [hrelease] at hprep
        cases verdict with
        | ok detail =>
          cases hprep
          refine ⟨outcome, rfl, ⟨rfl, ?_, rfl, rfl, fun hne => absurd happroved hne, fun _ => rfl⟩,
            fun _ => happroved, fun hfalse => by cases hfalse⟩
          rw [hkey]
          exact keyFromAudit_request haction hname htask ⟨rfl, rfl, rfl⟩
        | error detail =>
          cases hprep
          refine ⟨outcome, rfl, ⟨rfl, ?_, rfl, rfl, fun hne => absurd happroved hne, fun _ => rfl⟩,
            fun _ => happroved, fun _ => forceRelease_error hrelease⟩
          rw [hkey]
          exact keyFromAudit_request haction hname htask ⟨rfl, rfl, rfl⟩
    · rename_i hpending
      cases hprep
      refine ⟨outcome, rfl, ⟨rfl, ?_, rfl, rfl, fun _ => ⟨rfl, rfl⟩, fun h => absurd h hpending⟩,
        fun htrue => (by cases htrue), fun _ => rfl⟩
      rw [hkey]
      exact keyFromAudit_request haction hname htask ⟨rfl, rfl, rfl⟩

/-! ## Steps -/

/-- The step commits a submission of `principal` for `key`, with the ledger's outcome. -/
def Submits (h : RelayHub) (key : RelayApprovalKey) (principal : String)
    (outcome : ApprovalOutcome) (i : Step) : Prop :=
  ∃ sender data proof now request approvals,
    i = .submit sender data proof now true ∧ decodeRelayRequest data = .ok request ∧
      (h.authorise request proof).1.allowed = true ∧
      (h.authorise request proof).2 = principal ∧ .fromRequest request = key ∧
      h.approvals.submit request principal = .ok (approvals, outcome)

/-- The step answers that a release was carried out. -/
def Applies (h : RelayHub) : Step → Prop
  | .submit sender data proof now commits =>
    ∃ result, (h.handleOperatorRelayRequest sender data proof now commits).2 = some result ∧
      result.applied = true
  | _ => False

/-- The step commits a terminal verdict for `key`. -/
def Settles (h : RelayHub) (key : RelayApprovalKey) (i : Step) : Prop :=
  ∃ principal outcome, h.Submits key principal outcome i ∧ outcome.status = .approved

/-- What a request does: it commits a submission, or it changes nothing and releases nothing. -/
inductive Handled (h : RelayHub) (sender : String) (data : Json) (proof : PeerProof) (now : Float)
    (commits : Bool) : RelayHub × Option RelayActionResult → Prop
  | unchanged (reply : Option RelayActionResult) (hreply : ∀ r ∈ reply, r.applied = false)
      (hnone : ∀ key principal outcome,
        ¬ h.Submits key principal outcome (.submit sender data proof now commits)) :
      Handled h sender data proof now commits (h, reply)
  | committed (request : RelayActionRequest) (state : SynapseState)
      (approvals : RelayApprovalLedger) (outcome : ApprovalOutcome)
      (application : TwoPersonApplication) (hcommits : commits = true)
      (hdecode : decodeRelayRequest data = .ok request)
      (hallowed : (h.authorise request proof).1.allowed = true)
      (hprincipal : Stripped (h.authorise request proof).2)
      (hsubmit : h.approvals.submit request (h.authorise request proof).2 =
        .ok (approvals, outcome))
      (haudit : RelayApprovalLedger.Audits application.auditPayload outcome)
      (happlied : application.result.applied = true → outcome.status = .approved)
      (hkept : application.result.applied = false → state = h.state) :
      Handled h sender data proof now commits
        ({ h with
            state, approvals
            journal := h.journal.map fun journal =>
              persistTwoPersonApplication journal request application now },
          some application.result)

theorem submits_request {h : RelayHub} {key : RelayApprovalKey} {principal : String}
    {outcome : ApprovalOutcome} {sender : String} {data : Json} {proof : PeerProof} {now : Float}
    {commits : Bool} (hsubmits : h.Submits key principal outcome
      (.submit sender data proof now commits)) :
    commits = true ∧ ∃ request approvals, decodeRelayRequest data = .ok request ∧
      (h.authorise request proof).1.allowed = true ∧
      (h.authorise request proof).2 = principal ∧ .fromRequest request = key ∧
      h.approvals.submit request principal = .ok (approvals, outcome) := by
  obtain ⟨_, _, _, _, request, approvals, heq, hrest⟩ := hsubmits
  cases heq
  exact ⟨rfl, request, approvals, hrest⟩

omit [Builtins] in
/-- A submission that the ledger takes is prepared. -/
theorem prepare_ok {h : RelayHub} {sender : String} {request : RelayActionRequest}
    {principal message : String} {result : RelayApprovalLedger × ApprovalOutcome}
    (hsubmit : h.approvals.submit request principal = .ok result) :
    h.prepareTwoPersonApplication sender request principal ≠ .error message := by
  intro herror
  unfold prepareTwoPersonApplication at herror
  rw [hsubmit] at herror
  dsimp only at herror
  split at herror
  · split at herror
    · cases herror
    · cases herror
  · cases herror

theorem handle_handled (hsha : Sha256Spelled) (h : RelayHub) (sender : String) (data : Json)
    (proof : PeerProof) (now : Float) (commits : Bool) :
    Handled h sender data proof now commits
      (h.handleOperatorRelayRequest sender data proof now commits) := by
  unfold handleOperatorRelayRequest
  split
  · rename_i message hdecode
    refine .unchanged none (by simp) ?_
    intro key principal outcome hsubmits
    obtain ⟨-, request, _, hrequest, -⟩ := submits_request hsubmits
    rw [hdecode] at hrequest
    cases hrequest
  · rename_i request hdecode
    have hsame : ∀ key principal outcome,
        h.Submits key principal outcome (.submit sender data proof now commits) →
        commits = true ∧ (h.authorise request proof).1.allowed = true ∧
          ∃ approvals, h.approvals.submit request (h.authorise request proof).2 =
            .ok (approvals, outcome) := by
      intro key principal outcome hsubmits
      obtain ⟨hcommits, request', approvals, hrequest, hallowed, hprincipal, -, hsubmit⟩ :=
        submits_request hsubmits
      rw [hdecode] at hrequest
      cases hrequest
      exact ⟨hcommits, hallowed, approvals, hprincipal ▸ hsubmit⟩
    dsimp only
    split
    · rename_i hdenied
      refine .unchanged _ (by simp [answer]) ?_
      intro key principal outcome hsubmits
      simp [(hsame key principal outcome hsubmits).2.1] at hdenied
    · rename_i hallowed
      have hallowed : (h.authorise request proof).1.allowed = true := by simpa using hallowed
      obtain ⟨haction, hname, hprincipal⟩ := authorise_allowed hsha hallowed
      split
      · rename_i message hprep
        refine .unchanged none (by simp) ?_
        intro key principal outcome hsubmits
        obtain ⟨-, -, approvals, hsubmit⟩ := hsame key principal outcome hsubmits
        exact prepare_ok hsubmit hprep
      · rename_i state approvals application hprep
        split
        · obtain ⟨outcome, hsubmit, haudit, happlied, hkept⟩ :=
            prepare_submitted haction hname (decodeRelayRequest_ok hdecode).1 hprep
          exact .committed request state approvals outcome application ‹_› hdecode hallowed hprincipal
            hsubmit haudit happlied hkept
        · rename_i hcommits
          refine .unchanged none (by simp) ?_
          intro key principal outcome hsubmits
          exact hcommits (hsame key principal outcome hsubmits).1

/-! ## The journal -/

section

omit [Builtins]

/-- The fold over one more row. -/
theorem restoredApprovals_insert (l : RelayApprovalLedger) (journal : EventStore) (ts : Float)
    (kind : String) (payload : Members) :
    restoredApprovals l (journal.insertEnrolled ts kind payload).1 =
      if kind = EventKind.operatorRelay then (restoredApprovals l journal).restoreAudit payload
      else restoredApprovals l journal := by
  obtain ⟨seq, hevents⟩ := JournalledFollower.insertEnrolled_events journal ts kind payload
  unfold restoredApprovals
  rw [hevents, List.foldl_append]
  rfl

/-- What a submission writes folds as its audit does. -/
theorem restoredApprovals_persist (l : RelayApprovalLedger) (journal : EventStore)
    (request : RelayActionRequest) (application : TwoPersonApplication) (now : Float) :
    restoredApprovals l (persistTwoPersonApplication journal request application now) =
      (restoredApprovals l journal).restoreAudit application.auditPayload := by
  unfold persistTwoPersonApplication
  dsimp only
  rw [restoredApprovals_insert, if_pos rfl]
  split
  · rw [restoredApprovals_insert, if_neg (by decide)]
  · rfl

theorem restoreAudit_outbound (l : RelayApprovalLedger) {payload : Members}
    (h : (payload.get "direction").isText "in" = false) : l.restoreAudit payload = l := by
  unfold RelayApprovalLedger.restoreAudit
  exact if_pos h

end

/-- What holds between any two steps. -/
structure Faithful (h : RelayHub) : Prop where
  sound : h.approvals.Sound
  restored : ∀ journal, h.journal = some journal →
    restoredApprovals h.approvals journal = h.approvals.labelled

section

omit [Builtins]

theorem labelled_labelled (l : RelayApprovalLedger) : l.labelled.labelled = l.labelled := by
  rw [RelayApprovalLedger.labelled_eq_self]
  intro key entry hget
  have hget : (l.pending.mapValues fun entry =>
      { entry with requester := strip entry.requester }).get? key = some entry := hget
  rw [Dict.get?_mapValues] at hget
  obtain ⟨old, -, rfl⟩ := Option.map_eq_some_iff.mp hget
  exact strip_strip _

theorem Sound.labelled {l : RelayApprovalLedger} (h : l.Sound) : l.labelled.Sound := by
  intro key entry hget
  have hget : (l.pending.mapValues fun entry =>
      { entry with requester := strip entry.requester }).get? key = some entry := hget
  rw [Dict.get?_mapValues] at hget
  obtain ⟨old, hold, rfl⟩ := Option.map_eq_some_iff.mp hget
  obtain ⟨hrequester, hprincipal⟩ := h key old hold
  exact ⟨by rwa [strip_strip], hprincipal⟩

/-- The fold asks the ledger for its capacity only. -/
theorem restoredApprovals_submitted {l : RelayApprovalLedger} {request : RelayActionRequest}
    {principal : String} {result : RelayApprovalLedger × ApprovalOutcome}
    (h : l.Submitted request principal result) (journal : EventStore) :
    restoredApprovals result.1 journal = restoredApprovals l journal := by
  cases h <;> rfl

end

theorem restart_approvals {h : RelayHub} (hf : h.Faithful) (state : SynapseState) :
    (h.step (.restart state)).approvals = h.approvals.labelled ∨
      (h.journal = none ∧ (h.step (.restart state)).approvals = h.approvals.cleared) := by
  show h.journal.elim h.approvals.cleared (restoredApprovals h.approvals) = _ ∨ _ ∧
    h.journal.elim h.approvals.cleared (restoredApprovals h.approvals) = _
  cases hjournal : h.journal with
  | none => exact .inr ⟨rfl, rfl⟩
  | some journal => exact .inl (hf.restored journal hjournal)

theorem step_faithful (hsha : Sha256Spelled) {h : RelayHub} (hf : h.Faithful) (i : Step) :
    (h.step i).Faithful := by
  cases i with
  | coordinate op hop => exact ⟨hf.sound, hf.restored⟩
  | append ts kind payload hkind =>
    refine ⟨hf.sound, ?_⟩
    intro journal hjournal
    obtain ⟨old, hold, rfl⟩ := Option.map_eq_some_iff.mp hjournal
    show restoredApprovals h.approvals (old.insertEnrolled ts kind payload).1 = h.approvals.labelled
    rw [restoredApprovals_insert, hf.restored old hold]
    split
    · rename_i hrelay
      exact restoreAudit_outbound _ (hkind.resolve_left (not_not.mpr hrelay))
    · rfl
  | restart state =>
    rcases restart_approvals hf state with heq | ⟨hnone, heq⟩
    · refine ⟨heq ▸ Sound.labelled hf.sound, ?_⟩
      intro journal hjournal
      rw [heq, labelled_labelled]
      exact hf.restored journal hjournal
    · refine ⟨?_, ?_⟩
      · rw [heq]
        intro key entry hget
        cases hget
      · intro journal hjournal
        have hjournal : h.journal = some journal := hjournal
        rw [hnone] at hjournal
        cases hjournal
  | submit sender data proof now commits =>
    have hhandled := handle_handled hsha h sender data proof now commits
    show (h.handleOperatorRelayRequest sender data proof now commits).1.Faithful
    generalize h.handleOperatorRelayRequest sender data proof now commits = result at hhandled
    cases hhandled with
    | unchanged => exact hf
    | committed request state approvals outcome application _ hdecode _ hprincipal hsubmit haudit =>
      have hsubmitted := RelayApprovalLedger.submit_submitted hsubmit
      obtain ⟨hrestored, hsound⟩ := RelayApprovalLedger.restoreAudit_submit hf.sound hsubmitted
        (decodeRelayRequest_ok hdecode).2 hprincipal haudit
      refine ⟨hsound, ?_⟩
      intro journal hjournal
      obtain ⟨old, hold, rfl⟩ := Option.map_eq_some_iff.mp hjournal
      show restoredApprovals approvals (persistTwoPersonApplication old request application now) =
        approvals.labelled
      rw [restoredApprovals_persist, restoredApprovals_submitted hsubmitted, hf.restored old hold]
      exact hrestored

/-! ## Where a pending request comes from -/

/-- A request of `principal` is pending for `key`. -/
def Awaits (k : RelayApprovalKey × String) (h : RelayHub) : Prop :=
  ∃ requester, h.approvals.pending.get? k.1 = some { requester, principal := k.2 }

/-- A pending request was submitted by this step, or was pending and is not settled by it. -/
theorem step_awaits (hsha : Sha256Spelled) (k : RelayApprovalKey × String) {h : RelayHub}
    (hf : h.Faithful) (i : Step) (hawaits : Awaits k (h.step i)) :
    (∃ outcome, h.Submits k.1 k.2 outcome i) ∨ (Awaits k h ∧ ¬ h.Settles k.1 i) := by
  obtain ⟨key, principal⟩ := k
  cases i with
  | coordinate op hop =>
    refine .inr ⟨hawaits, ?_⟩
    rintro ⟨_, _, ⟨_, _, _, _, _, _, heq, _⟩, _⟩
    cases heq
  | append ts kind payload hkind =>
    refine .inr ⟨hawaits, ?_⟩
    rintro ⟨_, _, ⟨_, _, _, _, _, _, heq, _⟩, _⟩
    cases heq
  | restart state =>
    refine .inr ⟨?_, ?_⟩
    · obtain ⟨requester, hget⟩ := hawaits
      rcases restart_approvals hf state with heq | ⟨-, heq⟩
      · rw [heq] at hget
        have hget : (h.approvals.pending.mapValues fun entry =>
            { entry with requester := strip entry.requester }).get? key = some ⟨requester, principal⟩ :=
          hget
        rw [Dict.get?_mapValues] at hget
        obtain ⟨old, hold, heq⟩ := Option.map_eq_some_iff.mp hget
        cases heq
        exact ⟨old.requester, hold⟩
      · rw [heq] at hget
        cases hget
    · rintro ⟨_, _, ⟨_, _, _, _, _, _, heq, _⟩, _⟩
      cases heq
  | submit sender data proof now commits =>
    have hhandled := handle_handled hsha h sender data proof now commits
    have hawaits : Awaits (key, principal)
      (h.handleOperatorRelayRequest sender data proof now commits).1 := hawaits
    generalize h.handleOperatorRelayRequest sender data proof now commits = result at hhandled hawaits
    cases hhandled with
    | unchanged reply hreply hnone =>
      refine .inr ⟨hawaits, ?_⟩
      rintro ⟨other, outcome, hsubmits, -⟩
      exact hnone _ _ _ hsubmits
    | committed request state approvals outcome application hcommits hdecode hallowed hprincipal
        hsubmit =>
      obtain ⟨requester, hget⟩ := hawaits
      have hget : approvals.pending.get? key = some ⟨requester, principal⟩ := hget
      -- the step's one submission is the request's
      have hsettles : h.Settles key (.submit sender data proof now commits) →
          outcome.status = .approved ∧ .fromRequest request = key := by
        rintro ⟨other, outcome', hsubmits, hstatus⟩
        obtain ⟨-, request', approvals', hdecode', -, hother, hkey, hsubmit'⟩ :=
          submits_request hsubmits
        rw [hdecode] at hdecode'
        cases hdecode'
        rw [← hother, hsubmit] at hsubmit'
        cases hsubmit'
        exact ⟨hstatus, hkey⟩
      cases RelayApprovalLedger.submit_submitted hsubmit with
      | recorded hfree =>
        rcases RelayApprovalLedger.record_pending hget with ⟨hkey, hentry⟩ | hold
        · cases hentry
          refine .inl ⟨_, sender, data, proof, now, request, _, ?_, hdecode, hallowed, rfl,
            hkey.symm, hsubmit⟩
          rw [hcommits]
        · refine .inr ⟨⟨requester, hold⟩, ?_⟩
          intro hset
          cases (hsettles hset).1
      | awaiting existing =>
        refine .inr ⟨⟨requester, hget⟩, ?_⟩
        intro hset
        cases (hsettles hset).1
      | approved existing =>
        have hget : (h.approvals.pending.erase (.fromRequest request)).get? key =
          some ⟨requester, principal⟩ := hget
        rw [Dict.get?_erase] at hget
        split at hget
        · cases hget
        · rename_i hother
          refine .inr ⟨⟨requester, hget⟩, ?_⟩
          intro hset
          exact hother (hsettles hset).2.symm

/-! ## Runs -/

/-- The step records no request under a label with whitespace around it. -/
def Plain (h : RelayHub) : Step → Prop
  | .submit _ data proof _ _ => ∀ request, decodeRelayRequest data = .ok request →
      (h.authorise request proof).1.allowed = true →
      h.approvals.pending.get? (.fromRequest request) = none →
      strip request.operator = request.operator
  | _ => True

/-- No label of the ledger has whitespace around it. -/
def Labelled (h : RelayHub) : Prop :=
  ∀ key entry, h.approvals.pending.get? key = some entry → strip entry.requester = entry.requester

theorem step_labelled (hsha : Sha256Spelled) {h : RelayHub} (hf : h.Faithful) (hl : h.Labelled)
    {i : Step} (hplain : h.Plain i) : (h.step i).Labelled := by
  cases i with
  | coordinate op hop => exact hl
  | append ts kind payload hkind => exact hl
  | restart state =>
    unfold Labelled
    rcases restart_approvals hf state with heq | ⟨-, heq⟩
    · rw [heq]
      exact RelayApprovalLedger.labelled_eq_self.mp (labelled_labelled _)
    · rw [heq]
      intro key entry hget
      cases hget
  | submit sender data proof now commits =>
    have hhandled := handle_handled hsha h sender data proof now commits
    show (h.handleOperatorRelayRequest sender data proof now commits).1.Labelled
    generalize h.handleOperatorRelayRequest sender data proof now commits = result at hhandled
    cases hhandled with
    | unchanged => exact hl
    | committed request state approvals outcome application _ hdecode hallowed _ hsubmit =>
      intro key entry hget
      have hget : approvals.pending.get? key = some entry := hget
      cases RelayApprovalLedger.submit_submitted hsubmit with
      | recorded hfree =>
        rcases RelayApprovalLedger.record_pending hget with ⟨-, hentry⟩ | hold
        · rw [hentry]
          exact hplain request hdecode hallowed hfree
        · exact hl key entry hold
      | awaiting => exact hl key entry hget
      | approved =>
        have hget : (h.approvals.pending.erase (.fromRequest request)).get? key = some entry := hget
        rw [Dict.get?_erase] at hget
        split at hget
        · cases hget
        · exact hl key entry hget

/-- A release is carried out by an approved submission only. -/
theorem applies_approved (hsha : Sha256Spelled) {h : RelayHub} {i : Step} (happlies : h.Applies i) :
    ∃ key principal outcome, h.Submits key principal outcome i ∧ outcome.status = .approved := by
  cases i with
  | submit sender data proof now commits =>
    obtain ⟨result, hreply, happlied⟩ := happlies
    have hhandled := handle_handled hsha h sender data proof now commits
    generalize h.handleOperatorRelayRequest sender data proof now commits = handled
      at hhandled hreply
    cases hhandled with
    | unchanged reply hnot =>
      rw [hnot result hreply] at happlied
      cases happlied
    | committed request state approvals outcome application hcommits hdecode hallowed _ hsubmit _
        hstatus =>
      cases hreply
      refine ⟨_, _, outcome, ⟨sender, data, proof, now, request, approvals, ?_, hdecode, hallowed,
        rfl, rfl, hsubmit⟩, hstatus happlied⟩
      rw [hcommits]
  | coordinate op hop => cases happlies
  | append ts kind payload hkind => cases happlies
  | restart state => cases happlies

/-- A submission that is answered without a release leaves the registry as it is. -/
theorem state_kept (hsha : Sha256Spelled) {h : RelayHub} {sender : String} {data : Json}
    {proof : PeerProof} {now : Float} {commits : Bool}
    (hnot : ¬ h.Applies (.submit sender data proof now commits)) :
    (h.step (.submit sender data proof now commits)).state = h.state := by
  have hhandled := handle_handled hsha h sender data proof now commits
  show (h.handleOperatorRelayRequest sender data proof now commits).1.state = h.state
  have hnot : ¬ ∃ result, (h.handleOperatorRelayRequest sender data proof now commits).2 =
    some result ∧ result.applied = true := hnot
  generalize h.handleOperatorRelayRequest sender data proof now commits = handled at hhandled hnot
  cases hhandled with
  | unchanged => rfl
  | committed request state approvals outcome application _ _ _ _ _ _ _ hkept =>
    refine hkept ?_
    cases happlied : application.result.applied with
    | false => rfl
    | true => exact absurd ⟨_, rfl, happlied⟩ hnot

/-- The hub after a sequence of steps from a first start. -/
def run (hubId : String) (ownership : Option WatchOwnership) (requireRelayReason : Bool)
    (state : SynapseState) (capacity : { n : Nat // 1 ≤ n }) (durable : Bool) (steps : List Step) :
    RelayHub :=
  Trace.run step (init hubId ownership requireRelayReason state capacity durable) steps

/-- The two-person relay, in every state of every run. A submission touches the registry only when
it answers that a release was carried out, and then it is of a second principal, a first one having
submitted for the same key with no verdict for it since. The audits of the journal fold to the live
ledger exactly while no pending label has whitespace around it, so always where none is recorded. -/
theorem two_person_relay (hsha : Sha256Spelled) (hubId : String)
    (ownership : Option WatchOwnership) (requireRelayReason : Bool) (state : SynapseState)
    (capacity : { n : Nat // 1 ≤ n }) (durable : Bool) (steps : List Step) :
    let h₀ := init hubId ownership requireRelayReason state capacity durable
    let h := run hubId ownership requireRelayReason state capacity durable steps
    (∀ sender data proof now commits,
      ¬ h.Applies (.submit sender data proof now commits) →
        (h.step (.submit sender data proof now commits)).state = h.state) ∧
    (∀ i, h.Applies i → ∃ key first second outcome, first ≠ second ∧
      h.Submits key second outcome i ∧
      Trace.Since (fun call => ∃ outcome, call.1.Submits key first outcome call.2)
        (fun call => ¬ call.1.Settles key call.2) (Trace.trace step h₀ steps)) ∧
    (∀ journal, h.journal = some journal →
      (restoredApprovals h.approvals journal = h.approvals ↔ h.Labelled)) ∧
    (Trace.Every step Plain h₀ steps → ∀ journal, h.journal = some journal →
      restoredApprovals h.approvals journal = h.approvals) := by
  intro h₀ h
  have hinit : h₀.Faithful := by
    refine ⟨?_, ?_⟩
    · intro key entry hget
      cases hget
    · intro journal hjournal
      have hjournal : (if durable then some ({} : EventStore) else none) = some journal := hjournal
      split at hjournal
      · cases hjournal
        rfl
      · cases hjournal
  have hf : h.Faithful :=
    Trace.invariant step (P := Faithful) (fun _ i hs => step_faithful hsha hs i) hinit steps
  refine ⟨?_, ?_, ?_, ?_⟩
  · intro sender data proof now commits hnot
    exact state_kept hsha hnot
  · intro i happlies
    obtain ⟨key, second, outcome, hsubmits, hstatus⟩ := applies_approved hsha happlies
    obtain ⟨_, _, _, _, request, approvals, _, _, _, _, hkey, hsubmit⟩ := id hsubmits
    -- the submission is approved against the pending request of another principal
    obtain ⟨existing, hheld, hother⟩ : ∃ existing, h.approvals.pending.get? key = some existing ∧
        existing.principal ≠ second := by
      rw [← hkey]
      cases RelayApprovalLedger.submit_submitted hsubmit with
      | recorded => cases hstatus
      | awaiting => cases hstatus
      | approved existing hheld hother => exact ⟨existing, hheld, hother⟩
    have hnone : ∀ k, ¬ Awaits k h₀ := by
      rintro k ⟨requester, hget⟩
      cases hget
    refine ⟨key, existing.principal, second, outcome, hother, hsubmits, ?_⟩
    exact Trace.provenance step (I := Faithful) (F := Awaits)
      (G := fun k call => ∃ outcome, call.1.Submits k.1 k.2 outcome call.2)
      (K := fun k call => ¬ call.1.Settles k.1 call.2) (fun _ i hs => step_faithful hsha hs i) (fun k _ i hs => step_awaits hsha k hs i) hinit hnone
      steps (key, existing.principal) ⟨existing.requester, hheld⟩
  · intro journal hjournal
    rw [hf.restored journal hjournal, RelayApprovalLedger.labelled_eq_self]
    rfl
  · intro hplain journal hjournal
    rw [hf.restored journal hjournal, RelayApprovalLedger.labelled_eq_self]
    refine (Trace.every_invariant step (I := fun h => h.Faithful ∧ h.Labelled) (P := Plain)
      (Q := fun _ _ => True) ?_ (fun _ _ _ _ => trivial) ⟨hinit, ?_⟩ hplain).1.2
    · intro h i hh hi
      exact ⟨step_faithful hsha hh.1 i, step_labelled hsha hh.1 hh.2 hi⟩
    · intro key entry hget
      cases hget

/-! ## One task, two principals -/

section

omit [Builtins]

/-- One namespace, owned here. -/
def soleOwner : WatchOwnership where
  owners := Dict.empty.set "proj" "hub-b"
  localHubId := "hub-b"
  stripped := by
    intro name owner h
    rw [Dict.get?_set] at h
    split at h
    · rename_i hname
      exact hname ▸ ⟨by decide, by decide⟩
    · cases h

/-- A registry in which one task is claimed. -/
def oneClaim : SynapseState where
  defaultTtlSeconds := 900
  maxClaimsPerAgent := 32
  maxOffersPerAgent := 32
  maxPathsPerClaim := 32
  claims := Dict.empty.set "t"
    { taskId := "t", owner := "proj/a", note := "", claimedAt := 0, leaseExpiresAt := 900 }

/-- A request to release the task, under a label. -/
def releaseBy (operator : String) : Json :=
  .obj [("action", .str "release"), ("namespace", .str "proj"), ("task_id", .str "t"),
    ("operator", .str operator), ("origin_hub_id", .str "hub-a")]

/-- A submission of a domain. -/
def submission (domainId operator : String) : Step :=
  .submit "hub-a" (releaseBy operator) (.proven domainId [⟨"release", "proj"⟩]) 0 true

/-- The first of two domains that ask for a release is recorded, and the second has it carried
out. -/
theorem two_domains_release :
    letI := Builtins.checksum
    let h₀ := init "hub-b" (some soleOwner) false oneClaim ⟨256, by decide⟩ true
    let h := run "hub-b" (some soleOwner) false oneClaim ⟨256, by decide⟩ true
      [submission "domain-a" "alice"]
    ∃ key first second outcome, first ≠ second ∧
      h.Submits key second outcome (submission "domain-b" "bob") ∧
      Trace.Since (fun call => ∃ outcome, call.1.Submits key first outcome call.2)
        (fun call => ¬ call.1.Settles key call.2)
        (Trace.trace step h₀ [submission "domain-a" "alice"]) := by
  let _ : Builtins := Builtins.checksum
  refine (two_person_relay sha256Spelled_checksum "hub-b" (some soleOwner) false oneClaim
    ⟨256, by decide⟩ true [submission "domain-a" "alice"]).2.1 _ ?_
  have happlied : ((run "hub-b" (some soleOwner) false oneClaim ⟨256, by decide⟩ true
      [submission "domain-a" "alice"]).handleOperatorRelayRequest "hub-a" (releaseBy "bob")
        (.proven "domain-b" [⟨"release", "proj"⟩]) 0 true).2.map (·.applied) = some true := by
    decide +kernel
  exact Option.map_eq_some_iff.mp happlied

/-- A label with whitespace before it is restored without it. -/
theorem label_restored_stripped :
    letI := Builtins.checksum
    let h := run "hub-b" (some soleOwner) false oneClaim ⟨256, by decide⟩ true
      [submission "domain-a" " alice"]
    h.journal.map (fun journal => (restoredApprovals h.approvals journal).pending.values) ≠
      some h.approvals.pending.values := by
  decide +kernel

end

end RelayHub

end SynapseChannel
