import SynapseChannel.Core.ProtectedWrite
import SynapseChannel.Core.StateSteps
import SynapseChannel.Lib.Outcome

/-!
# Core — ProtectedCustody

The registry of protected writes over the claims: admissions, reservations,
recoveries and the custody that gates every claim verb. Custody is exclusive
along every run, and a reservation that has begun is not revoked before its
writer has settled.
-/

namespace SynapseChannel.ProtectedWrite

open Py

/-! ## The registry -/

structure CustodyState where
  state : SynapseState
  admissions : Dict String ProtectedWriteAdmission := .empty
  reservations : Dict String ProtectedWriteReservation := .empty
  recoveries : Dict String String := .empty

namespace CustodyState

/-- `protected_claim_custody`. -/
def custody (s : CustodyState) : Dict String (List ProtectedClaimCustody) :=
  s.state.protectedClaimCustody

/-- The reservation identities that are retained, in any table. -/
def retainedIds (s : CustodyState) : List String :=
  (s.admissions.keys ++ s.custody.keys ++ s.reservations.keys).dedup

variable [Builtins]

/-- `install_protected_write_admission`. -/
def install (s : CustodyState) (admission : ProtectedWriteAdmission) (maxReservations : Int) :
    Except String CustodyState := do
  let id := admission.reservationId
  require
    [(0 < maxReservations, "invalid protected reservation budget"),
      (!(s.admissions.contains id || s.custody.contains id || s.reservations.contains id),
        "protected reservation identity already exists"),
      ((s.retainedIds.length : Int) < maxReservations, "protected reservation budget exhausted"),
      (!admission.claimCustody.isEmpty, "protected admission requires claim custody")]
  require (admission.claimCustody.flatMap fun witness =>
    [((s.state.claims.get? witness.taskId).map capture = some witness,
        "protected admission witness changed before installation"),
      (!s.state.protectedScopeHeld witness.taskId witness.worktree witness.paths
          witness.pathIdentity,
        "protected admission overlaps outstanding custody")])
  return { s with
    admissions := s.admissions.set id admission
    state := { s.state with
      protectedClaimCustody := s.custody.set id admission.claimCustody }
    reservations := s.reservations.set id (.admitted admission) }

/-- The child a recovery installs: its fresh witnesses after the whole domain of the parent. -/
def recoveryChild (recovery : ProtectedRecoveryAdmission) : ProtectedWriteReservation :=
  { ProtectedWriteReservation.admitted recovery.admission with
    inheritedCustody := recovery.parent.custody }

/-- Whether a domain meets what another reservation than `parentId` holds. -/
def overlapsOther (s : CustodyState) (parentId : String) (domain : List ProtectedClaimCustody) :
    Bool :=
  s.custody.items.any fun entry =>
    entry.1 ≠ parentId && entry.2.any fun held =>
      domain.any fun item => held.conflicts item.taskId item.worktree item.paths item.pathIdentity

/-- `transfer_protected_write_custody`. -/
def transfer (s : CustodyState) (recovery : ProtectedRecoveryAdmission) (maxReservations : Int) :
    Except String CustodyState := do
  let parent := recovery.parent
  let admission := recovery.admission
  let parentId := parent.admission.reservationId
  let childId := admission.reservationId
  let child := recoveryChild recovery
  require
    [(s.reservations.get? parentId = some parent &&
          s.admissions.get? parentId = some parent.admission &&
          !s.recoveries.contains parentId && parent.holdsCustody &&
          s.custody.get? parentId = some parent.custody,
        "recovery parent or custody changed before transfer"),
      (0 < maxReservations, "invalid protected reservation budget"),
      (!s.retainedIds.contains childId && (s.retainedIds.length : Int) < maxReservations,
        "recovery child identity or reservation budget unavailable"),
      (!admission.claimCustody.isEmpty, "recovery requires fresh service custody")]
  require (admission.claimCustody.map fun witness =>
    ((s.state.claims.get? witness.taskId).map capture = some witness,
      "recovery witness changed before transfer"))
  require
    [(!s.overlapsOther parentId child.custody, "recovery overlaps another reservation domain")]
  return {
    admissions := s.admissions.set childId admission
    reservations := s.reservations.set childId child
    recoveries := s.recoveries.set parentId childId
    state := { s.state with
      protectedClaimCustody := (s.custody.set childId child.custody).erase parentId } }

/-- `apply_protected_write_transition`. -/
def applyTransition (s : CustodyState) (previous updated : ProtectedWriteReservation) :
    Except String CustodyState := do
  let id := previous.admission.reservationId
  require
    [(s.reservations.get? id = some previous && !s.recoveries.contains id &&
          s.admissions.get? id = some previous.admission &&
          updated.admission = previous.admission &&
          updated.inheritedCustody = previous.inheritedCustody &&
          previous.transitionSequence < updated.transitionSequence,
        "protected transition has a stale or changed predecessor"),
      (s.custody.get? id = (if previous.holdsCustody then some previous.custody else none),
        "protected transition custody does not match its predecessor"),
      (!updated.holdsCustody || previous.holdsCustody, "settled custody cannot be resurrected")]
  return { s with
    reservations := s.reservations.set id updated
    state := { s.state with
      protectedClaimCustody :=
        if updated.holdsCustody then s.custody else s.custody.erase id } }

end CustodyState

/-! ## Runs -/

/-- One mutation: a claim verb, or a protected write whose values the validators produce. -/
inductive CustodyOp where
  | verb (op : StateOp)
  | install (request : Request) (result : Result) (context : ProtectedAdmissionContext)
      (claims : Dict String TaskClaim) (limits : Limits) (maxReservations : Int)
  | transfer (parent : ProtectedWriteReservation) (request : Request) (result : Result)
      (context : ProtectedAdmissionContext) (claims : Dict String TaskClaim) (limits : Limits)
      (verifyRecovery : ProtectedWriteReservation → ProtectedWriteAdmission → Bool)
      (maxReservations : Int)
  | transition (previous : ProtectedWriteReservation) (request : Request) (result : Result)
      (context : ProtectedTransitionContext) (limits : Limits) (quiescence : Quiescence)

/-- A transition that was applied. -/
structure AppliedTransition where
  id : String
  request : Request
  before : ResultBody
  after : ResultBody

namespace CustodyState

variable [Builtins]

/-- A transition validated against `previous` and applied. -/
def transition (s : CustodyState) (previous : ProtectedWriteReservation) (request : Request)
    (result : Result) (context : ProtectedTransitionContext) (limits : Limits)
    (quiescence : Quiescence) : Except String CustodyState := do
  let updated ← advance previous request result context limits quiescence
  s.applyTransition previous updated

/-- The registry after one mutation; a refused one leaves it as it was. -/
def step (s : CustodyState) : CustodyOp → CustodyState
  | .verb op => { s with state := op.next s.state }
  | .install request result context claims limits maxReservations =>
    ((bindProtectedWriteAdmission request result context claims limits).bind
      (s.install · maxReservations)).toOption.getD s
  | .transfer parent request result context claims limits verifyRecovery maxReservations =>
    ((bindProtectedRecovery parent request result context claims limits verifyRecovery).bind
      (s.transfer · maxReservations)).toOption.getD s
  | .transition previous request result context limits quiescence =>
    (s.transition previous request result context limits quiescence).toOption.getD s

/-- The transition a mutation applied, if it did. -/
def applied (s : CustodyState) : CustodyOp → Option AppliedTransition
  | .transition previous request result context limits quiescence =>
    (s.transition previous request result context limits quiescence).toOption.map fun _ =>
      ⟨previous.admission.reservationId, request, previous.result.body, result.body⟩
  | _ => none

/-- The transitions a run applied, in order. -/
def transitions (s : CustodyState) (ops : List CustodyOp) : List AppliedTransition :=
  (Trace.trace step s ops).filterMap fun call => applied call.1 call.2

/-- A registry without protected writes. -/
def init (defaultTtl maxClaims maxOffers maxPaths : Json) : CustodyState where
  state := SynapseState.init defaultTtl maxClaims maxOffers maxPaths

end CustodyState

/-! ## What each mutation asks and leaves -/

theorem contains_eq_false {κ ν : Type} [DecidableEq κ] {d : Dict κ ν} {k : κ}
    (h : d.contains k = false) : d.get? k = none := by
  unfold Dict.contains at h
  cases hget : d.get? k with
  | none => rfl
  | some v =>
    rw [hget] at h
    cases h

section Steps

variable [Builtins]

namespace CustodyState

omit [Builtins] in
theorem mem_retainedIds {s : CustodyState} {id : String} :
    id ∈ s.retainedIds ↔ s.admissions.get? id ≠ none ∨ s.custody.get? id ≠ none ∨
      s.reservations.get? id ≠ none := by
  unfold retainedIds
  rw [List.mem_dedup, List.mem_append, List.mem_append, Dict.mem_keys_iff, Dict.mem_keys_iff,
    Dict.mem_keys_iff, or_assoc]

theorem install_ok {s s' : CustodyState} {admission : ProtectedWriteAdmission}
    {maxReservations : Int} (h : s.install admission maxReservations = .ok s') :
    s.admissions.get? admission.reservationId = none ∧
      s.custody.get? admission.reservationId = none ∧
      s.reservations.get? admission.reservationId = none ∧
      (∀ w ∈ admission.claimCustody,
        s.state.protectedScopeHeld w.taskId w.worktree w.paths w.pathIdentity = false) ∧
      s' = { s with
        admissions := s.admissions.set admission.reservationId admission
        state := { s.state with
          protectedClaimCustody :=
            s.custody.set admission.reservationId admission.claimCustody }
        reservations := s.reservations.set admission.reservationId (.admitted admission) } := by
  obtain ⟨_, hchecks, h⟩ := Outcome.bind_ok h
  obtain ⟨_, hwitnesses, h⟩ := Outcome.bind_ok h
  cases h
  rw [require_ok] at hchecks hwitnesses
  have hfree := hchecks _ (List.mem_cons_of_mem _ List.mem_cons_self)
  simp only [Bool.not_eq_true', Bool.or_eq_false_iff] at hfree
  obtain ⟨⟨hadmission, hcustody⟩, hreservation⟩ := hfree
  refine ⟨contains_eq_false hadmission, contains_eq_false hcustody,
    contains_eq_false hreservation, ?_, rfl⟩
  intro w hw
  have hscope := hwitnesses (!s.state.protectedScopeHeld w.taskId w.worktree w.paths w.pathIdentity,
    "protected admission overlaps outstanding custody")
    (List.mem_flatMap.mpr ⟨w, hw, List.mem_cons_of_mem _ List.mem_cons_self⟩)
  simpa using hscope

theorem transfer_ok {s s' : CustodyState} {recovery : ProtectedRecoveryAdmission}
    {maxReservations : Int} (h : s.transfer recovery maxReservations = .ok s') :
    s.reservations.get? recovery.parent.admission.reservationId = some recovery.parent ∧
      s.admissions.get? recovery.parent.admission.reservationId =
        some recovery.parent.admission ∧
      recovery.admission.reservationId ∉ s.retainedIds ∧
      s.overlapsOther recovery.parent.admission.reservationId (recoveryChild recovery).custody =
        false ∧
      s' =
        { admissions := s.admissions.set recovery.admission.reservationId recovery.admission
          reservations :=
            s.reservations.set recovery.admission.reservationId (recoveryChild recovery)
          recoveries :=
            s.recoveries.set recovery.parent.admission.reservationId
              recovery.admission.reservationId
          state := { s.state with
            protectedClaimCustody :=
              (s.custody.set recovery.admission.reservationId
                (recoveryChild recovery).custody).erase
                  recovery.parent.admission.reservationId } } := by
  obtain ⟨_, hchecks, h⟩ := Outcome.bind_ok h
  obtain ⟨_, -, h⟩ := Outcome.bind_ok h
  obtain ⟨_, hdomain, h⟩ := Outcome.bind_ok h
  cases h
  rw [require_ok] at hchecks hdomain
  have hparent := hchecks _ List.mem_cons_self
  have hchild := hchecks _
    (List.mem_cons_of_mem _ (List.mem_cons_of_mem _ List.mem_cons_self))
  have hother := hdomain _ List.mem_cons_self
  simp only [Bool.and_eq_true, decide_eq_true_eq] at hparent hchild
  refine ⟨hparent.1.1.1.1, hparent.1.1.1.2, ?_, ?_, rfl⟩
  · simpa using hchild.1
  · simpa using hother

omit [Builtins] in
theorem applyTransition_ok {s s' : CustodyState} {previous updated : ProtectedWriteReservation}
    (h : s.applyTransition previous updated = .ok s') :
    s.reservations.get? previous.admission.reservationId = some previous ∧
      s.recoveries.get? previous.admission.reservationId = none ∧
      updated.admission = previous.admission ∧
      updated.inheritedCustody = previous.inheritedCustody ∧
      s.custody.get? previous.admission.reservationId =
        (if previous.holdsCustody then some previous.custody else none) ∧
      (updated.holdsCustody = true → previous.holdsCustody = true) ∧
      s' = { s with
        reservations := s.reservations.set previous.admission.reservationId updated
        state := { s.state with
          protectedClaimCustody :=
            if updated.holdsCustody then s.custody
            else s.custody.erase previous.admission.reservationId } } := by
  obtain ⟨_, hchecks, h⟩ := Outcome.bind_ok h
  cases h
  rw [require_ok] at hchecks
  have hstale := hchecks _ List.mem_cons_self
  have hcustody := hchecks _ (List.mem_cons_of_mem _ List.mem_cons_self)
  have hreturn := hchecks _
    (List.mem_cons_of_mem _ (List.mem_cons_of_mem _ List.mem_cons_self))
  simp only [Bool.and_eq_true, decide_eq_true_eq, Bool.not_eq_true'] at hstale hcustody
  obtain ⟨⟨⟨⟨⟨hcurrent, hrecovery⟩, -⟩, hadmission⟩, hinherited⟩, -⟩ := hstale
  refine ⟨hcurrent, contains_eq_false hrecovery, hadmission, hinherited, hcustody, ?_, rfl⟩
  intro hholds
  simpa [hholds] using hreturn

end CustodyState

theorem bindAdmission_ok {request : Request} {result : Result}
    {context : ProtectedAdmissionContext} {claims : Dict String TaskClaim} {limits : Limits}
    {verb : String} {admission : ProtectedWriteAdmission}
    (h : bindAdmission request result context claims limits verb = .ok admission) :
    admission.result.body.operationPhase = some .admitted := by
  obtain ⟨_, -, h⟩ := Outcome.bind_ok h
  obtain ⟨key, -, h⟩ := Outcome.bind_ok h
  split at h
  · cases h
  · obtain ⟨_, -, h⟩ := Outcome.bind_ok h
    obtain ⟨_, hresponse, h⟩ := Outcome.bind_ok h
    obtain ⟨custody, -, h⟩ := Outcome.bind_ok h
    cases h
    rw [require_ok] at hresponse
    have hbody := hresponse _ List.mem_cons_self
    simp only [Bool.and_eq_true, decide_eq_true_eq] at hbody
    exact hbody.1.1.1.1.1.1.2

theorem bindProtectedRecovery_ok {parent : ProtectedWriteReservation} {request : Request}
    {result : Result} {context : ProtectedAdmissionContext} {claims : Dict String TaskClaim}
    {limits : Limits}
    {verifyRecovery : ProtectedWriteReservation → ProtectedWriteAdmission → Bool}
    {recovery : ProtectedRecoveryAdmission}
    (h : bindProtectedRecovery parent request result context claims limits verifyRecovery =
      .ok recovery) :
    recovery.admission.result.body.operationPhase = some .admitted := by
  obtain ⟨admission, hadmission, h⟩ := Outcome.bind_ok h
  obtain ⟨_, -, h⟩ := Outcome.bind_ok h
  cases h
  exact bindAdmission_ok hadmission

omit [Builtins] in
theorem holdsCustody_of_admitted {r : ProtectedWriteReservation}
    (h : r.result.body.operationPhase = some .admitted) : r.holdsCustody = true := by
  unfold ProtectedWriteReservation.holdsCustody ProtectedWriteReservation.settled
  rw [h]
  rfl

/-- What a transition may do to a reservation. -/
structure Advanced (previous : ProtectedWriteReservation) (request : Request) (result : Result)
    (updated : ProtectedWriteReservation) : Prop where
  answer : updated.result = result
  /-- Admission is left for good. -/
  left : result.body.operationPhase ≠ some .admitted
  begins : ∀ id incarnation, request.body = .begin id incarnation →
    previous.result.body.operationPhase = some .admitted
  /-- A write that is executing, or left uncertain, is revoked only by its own settlement. -/
  effective : result.body.revocationPhase = some .effective →
    (∃ settlement, request.body = .settle settlement) ∨
      previous.result.body.operationPhase = some .admitted ∨
      previous.result.body.operationPhase = some .settled

section

omit [Builtins]

theorem afterBegin_ok {old expected : ResultBody} {context : ProtectedTransitionContext}
    (h : afterBegin old context = .ok expected) :
    old.operationPhase = some .admitted ∧ old.revocationPhase = some .standing ∧
      expected.operationPhase = some .executing ∧
      expected.revocationPhase = old.revocationPhase := by
  obtain ⟨_, hchecks, h⟩ := Outcome.bind_ok h
  cases h
  rw [require_ok] at hchecks
  have hphase := hchecks _ (List.mem_cons_of_mem _ List.mem_cons_self)
  simp only [Bool.and_eq_true, decide_eq_true_eq] at hphase
  exact ⟨hphase.1, hphase.2, rfl, rfl⟩

theorem afterSettle_ok {previous : ProtectedWriteReservation} {old expected : ResultBody}
    {settlement : Settlement} {request : Request} {result : Result}
    {context : ProtectedTransitionContext} {quiescence : Quiescence}
    (h : afterSettle previous old settlement request result context quiescence = .ok expected) :
    expected.operationPhase ≠ some .admitted := by
  obtain ⟨_, -, h⟩ := Outcome.bind_ok h
  cases h
  split <;> split <;> intro hno <;> cases hno

theorem afterRevoke_ok {old expected : ResultBody} {origin : Request}
    {context : ProtectedTransitionContext} (h : afterRevoke old origin context = .ok expected) :
    expected.operationPhase ≠ some .admitted ∧
      (expected.revocationPhase = some .effective →
        old.operationPhase = some .admitted ∨ old.operationPhase = some .settled) := by
  obtain ⟨_, -, h⟩ := Outcome.bind_ok h
  cases h
  split
  · rename_i hphase
    refine ⟨?_, fun _ => .inl hphase⟩
    intro hno
    cases hno
  · rename_i hphase
    refine ⟨?_, fun _ => .inr hphase⟩
    rw [hphase]
    intro hno
    cases hno
  · rename_i hadmitted hsettled
    refine ⟨hadmitted, ?_⟩
    intro hno
    cases hno

theorem advance_ok {previous updated : ProtectedWriteReservation} {request : Request}
    {result : Result} {context : ProtectedTransitionContext} {limits : Limits}
    {quiescence : Quiescence}
    (h : advance previous request result context limits quiescence = .ok updated) :
    Advanced previous request result updated := by
  obtain ⟨_, -, h⟩ := Outcome.bind_ok h
  obtain ⟨_, -, h⟩ := Outcome.bind_ok h
  obtain ⟨_, -, h⟩ := Outcome.bind_ok h
  obtain ⟨expected, hexpected, h⟩ := Outcome.bind_ok h
  obtain ⟨_, hdescribes, h⟩ := Outcome.bind_ok h
  cases h
  rw [require_ok] at hdescribes
  have hbody := hdescribes _ List.mem_cons_self
  unfold describes at hbody
  simp only [Bool.and_eq_true, decide_eq_true_eq] at hbody
  obtain ⟨⟨⟨⟨⟨⟨hphase, hrevocation⟩, -⟩, -⟩, -⟩, -⟩, -⟩ := hbody
  unfold permitted at hexpected
  cases hrequest : request.body with
  | begin id incarnation =>
    rw [hrequest] at hexpected
    obtain ⟨hadmitted, hstanding, hexecuting, hunrevoked⟩ := afterBegin_ok hexpected
    refine ⟨rfl, ?_, fun _ _ _ => hadmitted, ?_⟩
    · rw [hphase, hexecuting]
      intro hno
      cases hno
    · rw [hrevocation, hunrevoked, hstanding]
      intro hno
      cases hno
  | settle settlement =>
    rw [hrequest] at hexpected
    refine ⟨rfl, ?_, ?_, fun _ => .inl ⟨settlement, hrequest⟩⟩
    · rw [hphase]
      exact afterSettle_ok hexpected
    · intro id incarnation hbegin
      rw [hrequest] at hbegin
      cases hbegin
  | revoke id =>
    rw [hrequest] at hexpected
    obtain ⟨hleft, heffective⟩ := afterRevoke_ok hexpected
    refine ⟨rfl, ?_, ?_, ?_⟩
    · rw [hphase]
      exact hleft
    · intro id incarnation hbegin
      rw [hrequest] at hbegin
      cases hbegin
    · rw [hrevocation]
      exact fun h => .inr (heffective h)
  | prepare proposal =>
    rw [hrequest] at hexpected
    cases hexpected
  | admitProposal proposal =>
    rw [hrequest] at hexpected
    cases hexpected
  | status id =>
    rw [hrequest] at hexpected
    cases hexpected
  | recover id proposal =>
    rw [hrequest] at hexpected
    cases hexpected

end

/-! ## Claims under custody -/

/-- The reading of the clock at which a verb sweeps expired leases. -/
def sweep : StateOp → Option Float
  | .snapshot now => some now
  | op => op.caller.map Prod.snd

/-- A claim stays as it is, or its lease is over and it is dropped. -/
def KeptOrLapsed (now : Option Float) (before after : Option TaskClaim) : Prop :=
  after = before ∨
    after = none ∧ ∃ c reading, before = some c ∧ now = some reading ∧ ¬ c.leaseExpiresAt > reading

section

omit [Builtins]

theorem expireEntry_claim (now : Float) (s : SynapseState) (e : LeaseEntry) (task : String) :
    KeptOrLapsed (some now) (s.claims.get? task)
      ((SynapseState.expireEntry now s e).claims.get? task) := by
  unfold SynapseState.expireEntry
  dsimp only
  split
  · exact .inl rfl
  · rename_i claim hclaim
    split
    · exact .inl rfl
    · rename_i hdue
      by_cases htask : task = e.2.1
      · subst htask
        right
        refine ⟨Dict.get?_erase_self _ _, claim, now, hclaim, rfl, ?_⟩
        intro hlive
        exact hdue (.inr hlive)
      · left
        exact Dict.get?_erase_ne _ htask

theorem KeptOrLapsed.trans {now : Option Float} {a b c : Option TaskClaim}
    (h : KeptOrLapsed now a b) (h' : KeptOrLapsed now b c) : KeptOrLapsed now a c := by
  rcases h with rfl | ⟨rfl, hlapsed⟩
  · exact h'
  · rcases h' with rfl | ⟨rfl, -⟩
    · exact .inr ⟨rfl, hlapsed⟩
    · exact .inr ⟨rfl, hlapsed⟩

theorem expireClaims_claim (s : SynapseState) (now : Float) (task : String) :
    KeptOrLapsed (some now) (s.claims.get? task) ((s.expireClaims now).claims.get? task) := by
  have hfold : ∀ (due : List LeaseEntry) (t : SynapseState), KeptOrLapsed (some now)
      (t.claims.get? task) ((due.foldl (SynapseState.expireEntry now) t).claims.get? task) := by
    intro due
    induction due with
    | nil =>
      intro t
      exact .inl rfl
    | cons e rest ih =>
      intro t
      exact (expireEntry_claim now t e task).trans (ih _)
  exact hfold (s.leaseIndex.popDue now).1 { s with leaseIndex := (s.leaseIndex.popDue now).2 }

theorem heartbeat_claim (s : SynapseState) (agent : String) (now : Float) (task : String) :
    KeptOrLapsed (some now) (s.claims.get? task) ((s.heartbeat agent now).claims.get? task) :=
  expireClaims_claim { s with lastSeen := s.lastSeen.set agent now } now task

theorem snapshot_custody (s : SynapseState) (now : Float) :
    (s.snapshot now).protectedClaimCustody = s.protectedClaimCustody := by
  obtain ⟨_, _, _, _, -, heq⟩ := s.snapshot_eq now
  rw [heq]

theorem heartbeat_custody (s : SynapseState) (agent : String) (now : Float) :
    (s.heartbeat agent now).protectedClaimCustody = s.protectedClaimCustody :=
  snapshot_custody { s with lastSeen := s.lastSeen.set agent now } now

end

/-- No claim verb touches custody. -/
theorem next_custody (s : SynapseState) (op : StateOp) :
    (op.next s).protectedClaimCustody = s.protectedClaimCustody := by
  unfold StateOp.next
  have hstep := StateOp.apply_step s op
  generalize op.apply s = r at hstep
  cases hstep with
  | invalid => rfl
  | refused _ agent now => exact heartbeat_custody s agent now
  | claimed agent taskId now args => exact heartbeat_custody s agent now
  | renewed agent taskId now => exact heartbeat_custody s agent now
  | updated agent task now => exact heartbeat_custody s agent now
  | checkpointed agent taskId now => exact heartbeat_custody s agent now
  | released agent taskId now => exact heartbeat_custody s agent now
  | revoked => rfl
  | moved agent taskId toAgent now => exact heartbeat_custody s agent now
  | beat agent now => exact heartbeat_custody s agent now
  | viewed now => exact snapshot_custody s now

omit [Builtins] in
theorem taskHeld_congr {s t : SynapseState}
    (h : s.protectedClaimCustody = t.protectedClaimCustody) (task : String) :
    s.protectedTaskHeld task = t.protectedTaskHeld task := by
  unfold SynapseState.protectedTaskHeld
  rw [h]

theorem scopeHeld_of_taskHeld {s : SynapseState} {task : String}
    (h : s.protectedTaskHeld task = true) (worktree : String) (paths : List String)
    (pathIdentity : Option ClaimScopeIdentity) :
    s.protectedScopeHeld task worktree paths pathIdentity = true := by
  unfold SynapseState.protectedTaskHeld at h
  unfold SynapseState.protectedScopeHeld
  rw [List.any_eq_true] at h ⊢
  obtain ⟨witnesses, hmem, hany⟩ := h
  refine ⟨witnesses, hmem, ?_⟩
  rw [List.any_eq_true] at hany ⊢
  obtain ⟨w, hw, htask⟩ := hany
  refine ⟨w, hw, ?_⟩
  unfold ProtectedClaimCustody.conflicts
  rw [htask, Bool.true_or]

/-- A granted claim met no custody. -/
theorem claim_unheld {s : SynapseState} {agent taskId : String} {now : Float} {args : ClaimArgs}
    {m : String} (h : (s.claim agent taskId now args).2 = .ok m) :
    (s.heartbeat agent now).protectedTaskHeld (strip taskId) = false := by
  by_contra hheld
  have hscope := scopeHeld_of_taskHeld (Bool.eq_true_of_not_eq_false hheld) args.worktree
    (normalizePaths args.paths (some s.maxPathsPerClaim)) args.pathIdentity
  unfold SynapseState.claim at h
  dsimp only at h
  split at h
  · cases h
  · split at h
    · cases h
    · cases h

/-- The claim of a task under custody outlives every verb, up to its lease. -/
theorem next_claim {s : SynapseState} {op : StateOp} {task : String}
    (hheld : s.protectedTaskHeld task = true) :
    KeptOrLapsed (sweep op) (s.claims.get? task) ((op.next s).claims.get? task) := by
  have hother : ∀ {agent : String} {now : Float} {other : String},
      (s.heartbeat agent now).protectedTaskHeld other = false → task ≠ other := by
    intro agent now other hfree heq
    rw [taskHeld_congr (heartbeat_custody s agent now), ← heq, hheld] at hfree
    cases hfree
  have hset : ∀ {agent : String} {now : Float} {other : String} (claim : TaskClaim),
      (s.heartbeat agent now).protectedTaskHeld other = false →
      KeptOrLapsed (some now) (s.claims.get? task)
        (((s.heartbeat agent now).claims.set other claim).get? task) := by
    intro agent now other claim hfree
    rw [Dict.get?_set_ne _ _ (hother hfree).symm]
    exact heartbeat_claim s agent now task
  have hstep := StateOp.apply_step s op
  unfold StateOp.next
  generalize happly : op.apply s = r at hstep
  cases hstep with
  | invalid => exact .inl rfl
  | refused _ agent now m hcaller =>
    have hsweep : sweep op = some now := by
      cases op <;> cases hcaller <;> rfl
    rw [hsweep]
    exact heartbeat_claim s agent now task
  | claimed agent taskId now args m h =>
    exact hset _ (claim_unheld (congrArg Prod.snd happly))
  | renewed agent taskId now epoch paths claim m h => exact hset _ h.custody
  | updated agent taskId now args claim m h => exact hset _ h.custody
  | checkpointed agent taskId now checkpoint epoch claim m h => exact hset _ h.custody
  | released agent taskId now epoch claim m htask h =>
    have hne := hother h.custody
    show KeptOrLapsed _ _ (((s.heartbeat agent now).claims.erase (strip taskId)).get? task)
    rw [Dict.get?_erase_ne _ hne]
    exact heartbeat_claim s agent now task
  | revoked taskId operator claim m htask h =>
    left
    apply Dict.get?_erase_ne
    intro heq
    have hfree := h.custody
    rw [← heq, hheld] at hfree
    cases hfree
  | moved agent taskId toAgent now note epoch claim m htask htarget h => exact hset _ h.custody
  | beat agent now => exact heartbeat_claim s agent now task
  | viewed now => exact expireClaims_claim s now task

end Steps

end SynapseChannel.ProtectedWrite
