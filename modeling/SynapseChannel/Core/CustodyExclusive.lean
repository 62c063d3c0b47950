import SynapseChannel.Core.ProtectedCustody

/-!
# Core — CustodyExclusive

Custody is exclusive along every run of claim verbs and protected writes:
who holds it, that no two domains meet, that what is under it stays, and
that what has settled does not come back.
-/

namespace SynapseChannel.ProtectedWrite

open Py CustodyState

variable [Builtins]

/-- No witness of one domain conflicts with one of the other. -/
def Apart (domain other : List ProtectedClaimCustody) : Prop :=
  ∀ w ∈ domain, ∀ w' ∈ other, w.conflicts w'.taskId w'.worktree w'.paths w'.pathIdentity = false

/-- What the tables of a registry say of one another. -/
structure Consistent (s : CustodyState) : Prop where
  named : ∀ id r, s.reservations.get? id = some r →
    r.admission.reservationId = id ∧ s.admissions.get? id = some r.admission
  known : ∀ id, s.reservations.get? id = none → s.recoveries.get? id = none
  held : ∀ id ws, s.custody.get? id = some ws ↔ ∃ r, s.reservations.get? id = some r ∧
    r.holdsCustody = true ∧ s.recoveries.get? id = none ∧ ws = r.custody
  apart : ∀ id id' ws ws', id ≠ id' → s.custody.get? id = some ws →
    s.custody.get? id' = some ws' → Apart ws ws'

theorem Apart.symm {domain other : List ProtectedClaimCustody} (h : Apart domain other) :
    Apart other domain := by
  intro w hw w' hw'
  have hconflict := h w' hw' w hw
  unfold ProtectedClaimCustody.conflicts at hconflict ⊢
  rw [claimScopesConflict_comm, ← hconflict]
  congr 1
  exact BEq.comm

/-- Apartness of a table in which one entry is new. -/
theorem apart_set {custody : Dict String (List ProtectedClaimCustody)} {new : String}
    {domain : List ProtectedClaimCustody}
    (h : ∀ id id' ws ws', id ≠ id' → custody.get? id = some ws → custody.get? id' = some ws' →
      Apart ws ws')
    (hnew : ∀ id ws, id ≠ new → custody.get? id = some ws → Apart ws domain) :
    ∀ id id' ws ws', id ≠ id' → (custody.set new domain).get? id = some ws →
      (custody.set new domain).get? id' = some ws' → Apart ws ws' := by
  intro id id' ws ws' hne hid hid'
  rw [Dict.get?_set] at hid hid'
  split at hid
  · rename_i heq
    cases hid
    rw [if_neg (heq ▸ hne)] at hid'
    exact (hnew id' ws' (fun h => hne (heq.symm.trans h.symm)) hid').symm
  · rename_i hother
    split at hid'
    · cases hid'
      exact hnew id ws (Ne.symm hother) hid
    · exact h id id' ws ws' hne hid hid'

/-- A domain that is in nobody's scope is apart from everything held. -/
theorem apart_of_unheld {s : CustodyState} {domain : List ProtectedClaimCustody}
    (h : ∀ w ∈ domain,
      s.state.protectedScopeHeld w.taskId w.worktree w.paths w.pathIdentity = false)
    {id : String} {ws : List ProtectedClaimCustody} (hid : s.custody.get? id = some ws) :
    Apart ws domain := by
  intro w hw w' hw'
  by_contra hconflict
  have hscope := h w' hw'
  rw [SynapseState.protectedScopeHeld, List.any_eq_false] at hscope
  refine hscope ws ((Dict.mem_values_iff _ ws).mpr ⟨id, hid⟩) ?_
  rw [List.any_eq_true]
  exact ⟨w, hw, Bool.eq_true_of_not_eq_false hconflict⟩

/-- A domain that meets no other reservation is apart from every other one. -/
theorem apart_of_overlapsOther {s : CustodyState} {parentId : String}
    {domain : List ProtectedClaimCustody} (h : s.overlapsOther parentId domain = false)
    {id : String} {ws : List ProtectedClaimCustody} (hne : id ≠ parentId)
    (hid : s.custody.get? id = some ws) : Apart ws domain := by
  intro w hw w' hw'
  by_contra hconflict
  rw [overlapsOther, List.any_eq_false] at h
  refine h (id, ws) ((Dict.mem_items_iff _ id ws).mpr hid) ?_
  simp only [Bool.and_eq_true, decide_eq_true_eq, List.any_eq_true]
  exact ⟨hne, w, hw, w', hw', Bool.eq_true_of_not_eq_false hconflict⟩

namespace Consistent

theorem empty (defaultTtl maxClaims maxOffers maxPaths : Json) :
    Consistent (CustodyState.init defaultTtl maxClaims maxOffers maxPaths) where
  named := by
    intro id r h
    cases h
  known := fun _ _ => rfl
  held := by
    intro id ws
    constructor
    · intro h
      cases h
    · rintro ⟨r, h, -⟩
      cases h
  apart := by
    intro id id' ws ws' _ h
    cases h

/-- An identity that nothing retains has no reservation, so it is in no table. -/
theorem installed {s s' : CustodyState} {admission : ProtectedWriteAdmission}
    {maxReservations : Int} (hs : Consistent s)
    (hphase : admission.result.body.operationPhase = some .admitted)
    (h : s.install admission maxReservations = .ok s') : Consistent s' := by
  obtain ⟨_, _, hfree, hscope, rfl⟩ := install_ok h
  have hholds : (ProtectedWriteReservation.admitted admission).holdsCustody = true :=
    holdsCustody_of_admitted hphase
  refine ⟨?_, ?_, ?_, ?_⟩
  · intro id r hr
    dsimp only at hr ⊢
    rw [Dict.get?_set] at hr ⊢
    split at hr
    · rename_i heq
      cases hr
      exact ⟨heq, by rw [if_pos heq]; rfl⟩
    · rename_i hne
      rw [if_neg hne]
      exact hs.named id r hr
  · intro id hr
    dsimp only at hr ⊢
    rw [Dict.get?_set] at hr
    split at hr
    · cases hr
    · exact hs.known id hr
  · intro id ws
    show (s.custody.set _ _).get? id = some ws ↔ _
    dsimp only
    rw [Dict.get?_set, Dict.get?_set]
    by_cases heq : admission.reservationId = id
    · subst heq
      rw [if_pos rfl, if_pos rfl]
      constructor
      · intro hws
        cases hws
        exact ⟨_, rfl, hholds, hs.known _ hfree, rfl⟩
      · rintro ⟨r, hr, -, -, rfl⟩
        cases hr
        rfl
    · rw [if_neg heq, if_neg heq]
      exact hs.held id ws
  · exact apart_set hs.apart fun id ws _ hid => apart_of_unheld hscope hid

/-- The child takes the place of its parent and of nobody else. -/
theorem transferred {s s' : CustodyState} {recovery : ProtectedRecoveryAdmission}
    {maxReservations : Int} (hs : Consistent s)
    (hphase : recovery.admission.result.body.operationPhase = some .admitted)
    (h : s.transfer recovery maxReservations = .ok s') : Consistent s' := by
  obtain ⟨hparent, _, hfresh, hdomain, rfl⟩ := transfer_ok h
  have hfree : s.reservations.get? recovery.admission.reservationId = none := by
    by_contra hused
    exact hfresh (mem_retainedIds.mpr (.inr (.inr hused)))
  have hne : recovery.parent.admission.reservationId ≠ recovery.admission.reservationId := by
    intro heq
    rw [heq, hfree] at hparent
    cases hparent
  have hholds : (recoveryChild recovery).holdsCustody = true := holdsCustody_of_admitted hphase
  refine ⟨?_, ?_, ?_, ?_⟩
  · intro id r hr
    dsimp only at hr ⊢
    rw [Dict.get?_set] at hr ⊢
    split at hr
    · rename_i heq
      cases hr
      exact ⟨heq, by rw [if_pos heq]; rfl⟩
    · rename_i hother
      rw [if_neg hother]
      exact hs.named id r hr
  · intro id hr
    dsimp only at hr ⊢
    rw [Dict.get?_set] at hr
    split at hr
    · cases hr
    · rw [Dict.get?_set]
      split
      · rename_i heq
        rw [← heq, hparent] at hr
        cases hr
      · exact hs.known id hr
  · intro id ws
    show ((s.custody.set _ _).erase _).get? id = some ws ↔ _
    dsimp only
    rw [Dict.get?_erase, Dict.get?_set, Dict.get?_set, Dict.get?_set]
    by_cases hid : id = recovery.parent.admission.reservationId
    · rw [if_pos hid, if_pos hid.symm]
      constructor
      · intro hno
        cases hno
      · rintro ⟨r, -, -, hno, -⟩
        cases hno
    · rw [if_neg hid, if_neg (Ne.symm hid)]
      by_cases heq : recovery.admission.reservationId = id
      · subst heq
        rw [if_pos rfl, if_pos rfl]
        constructor
        · intro hws
          cases hws
          exact ⟨_, rfl, hholds, hs.known _ hfree, rfl⟩
        · rintro ⟨r, hr, -, -, rfl⟩
          cases hr
          rfl
      · rw [if_neg heq, if_neg heq]
        exact hs.held id ws
  · have hswap : ∀ id, ((s.custody.set recovery.admission.reservationId
          (recoveryChild recovery).custody).erase
            recovery.parent.admission.reservationId).get? id =
        ((s.custody.erase recovery.parent.admission.reservationId).set
          recovery.admission.reservationId (recoveryChild recovery).custody).get? id := by
      intro id
      rw [Dict.get?_erase, Dict.get?_set, Dict.get?_set, Dict.get?_erase]
      by_cases hchild : recovery.admission.reservationId = id
      · rw [if_pos hchild, if_pos hchild, if_neg (fun h => hne (h.symm.trans hchild.symm))]
      · rw [if_neg hchild, if_neg hchild]
    have hleft : ∀ {id ws}, (s.custody.erase recovery.parent.admission.reservationId).get? id =
        some ws → id ≠ recovery.parent.admission.reservationId ∧ s.custody.get? id = some ws := by
      intro id ws hid
      rw [Dict.get?_erase] at hid
      split at hid
      · cases hid
      · exact ⟨‹_›, hid⟩
    intro id id' ws ws' hids hid hid'
    have hid := (hswap id).symm.trans hid
    have hid' := (hswap id').symm.trans hid'
    refine apart_set ?_ ?_ id id' ws ws' hids hid hid'
    · intro a b wa wb hab ha hb
      exact hs.apart a b wa wb hab (hleft ha).2 (hleft hb).2
    · intro a wa _ ha
      exact apart_of_overlapsOther hdomain (hleft ha).1 (hleft ha).2

/-- A transition keeps the domain or gives it up. -/
theorem transitioned {s s' : CustodyState} {previous updated : ProtectedWriteReservation}
    (hs : Consistent s) (h : s.applyTransition previous updated = .ok s') : Consistent s' := by
  obtain ⟨hcurrent, hrecovery, hadmission, hinherited, _, hreturn, rfl⟩ := applyTransition_ok h
  have hdomain : updated.custody = previous.custody := by
    unfold ProtectedWriteReservation.custody
    rw [hadmission, hinherited]
  refine ⟨?_, ?_, ?_, ?_⟩
  · intro id r hr
    dsimp only at hr ⊢
    rw [Dict.get?_set] at hr
    split at hr
    · rename_i heq
      cases hr
      rw [hadmission]
      exact ⟨heq, heq ▸ (hs.named _ _ hcurrent).2⟩
    · exact hs.named id r hr
  · intro id hr
    dsimp only at hr ⊢
    rw [Dict.get?_set] at hr
    split at hr
    · cases hr
    · exact hs.known id hr
  · intro id ws
    show (if updated.holdsCustody then s.custody else s.custody.erase _).get? id = some ws ↔ _
    dsimp only
    rw [Dict.get?_set]
    by_cases heq : previous.admission.reservationId = id
    · subst heq
      rw [if_pos rfl]
      split
      · rename_i hholds
        rw [hs.held]
        constructor
        · rintro ⟨r, hr, -, -, rfl⟩
          rw [hcurrent] at hr
          cases hr
          exact ⟨updated, rfl, hholds, hrecovery, hdomain.symm⟩
        · rintro ⟨r, hr, -, -, rfl⟩
          cases hr
          exact ⟨previous, hcurrent, hreturn hholds, hrecovery, hdomain⟩
      · rename_i hgone
        rw [Dict.get?_erase_self]
        constructor
        · intro hno
          cases hno
        · rintro ⟨r, hr, hholds, -⟩
          cases hr
          exact absurd hholds hgone
    · rw [if_neg heq, ← hs.held]
      split
      · rfl
      · rw [Dict.get?_erase_ne _ (Ne.symm heq)]
  · intro id id' ws ws' hne hid hid'
    have hsub : ∀ {a wa}, (if updated.holdsCustody then s.custody
        else s.custody.erase previous.admission.reservationId).get? a = some wa →
        s.custody.get? a = some wa := by
      intro a wa ha
      split at ha
      · exact ha
      · exact Dict.Sub.erase _ _ a wa ha
    exact hs.apart id id' ws ws' hne (hsub hid) (hsub hid')

/-- Claim verbs touch none of the tables. -/
theorem verb {s : CustodyState} (hs : Consistent s) (op : StateOp) :
    Consistent { s with state := op.next s.state } := by
  have hcustody : CustodyState.custody { s with state := op.next s.state } = s.custody :=
    next_custody s.state op
  refine ⟨hs.named, hs.known, ?_, ?_⟩
  · rw [hcustody]
    exact hs.held
  · rw [hcustody]
    exact hs.apart

end Consistent

/-! ## Steps -/

/-- What one mutation comes to. -/
inductive StepOutcome (s : CustodyState) : CustodyOp → CustodyState → Prop
  | refused (op : CustodyOp) (h : s.applied op = none) : StepOutcome s op s
  | verb (op : StateOp) : StepOutcome s (.verb op) { s with state := op.next s.state }
  | installed {op : CustodyOp} {s' : CustodyState} {admission : ProtectedWriteAdmission}
      {maxReservations : Int} (hphase : admission.result.body.operationPhase = some .admitted)
      (h : s.install admission maxReservations = .ok s') (hop : s.applied op = none)
      (hverb : ∀ verb, op ≠ .verb verb) : StepOutcome s op s'
  | transferred {op : CustodyOp} {s' : CustodyState} {recovery : ProtectedRecoveryAdmission}
      {maxReservations : Int}
      (hphase : recovery.admission.result.body.operationPhase = some .admitted)
      (h : s.transfer recovery maxReservations = .ok s') (hop : s.applied op = none)
      (hverb : ∀ verb, op ≠ .verb verb) : StepOutcome s op s'
  | advanced {s' : CustodyState} {previous updated : ProtectedWriteReservation}
      {request : Request} {result : Result} {context : ProtectedTransitionContext}
      {limits : Limits} {quiescence : Quiescence}
      (hadvanced : Advanced previous request result updated)
      (h : s.applyTransition previous updated = .ok s')
      (happlied : s.applied (.transition previous request result context limits quiescence) =
        some ⟨previous.admission.reservationId, request, previous.result.body, result.body⟩) :
      StepOutcome s (.transition previous request result context limits quiescence) s'

theorem step_outcome (s : CustodyState) (op : CustodyOp) : StepOutcome s op (s.step op) := by
  cases op with
  | verb op => exact .verb op
  | install request result context claims limits maxReservations =>
    show StepOutcome s _ (((bindProtectedWriteAdmission request result context claims limits).bind
      (s.install · maxReservations)).toOption.getD s)
    cases hinstall : (bindProtectedWriteAdmission request result context claims limits).bind
      (s.install · maxReservations) with
    | error e => exact .refused _ rfl
    | ok s' =>
      obtain ⟨admission, hbind, hinstall⟩ := Outcome.bind_ok hinstall
      exact .installed (bindAdmission_ok hbind) hinstall rfl (by intro verb h; cases h)
  | transfer parent request result context claims limits verifyRecovery maxReservations =>
    show StepOutcome s _ (((bindProtectedRecovery parent request result context claims limits
      verifyRecovery).bind (s.transfer · maxReservations)).toOption.getD s)
    cases htransfer : (bindProtectedRecovery parent request result context claims limits
      verifyRecovery).bind (s.transfer · maxReservations) with
    | error e => exact .refused _ rfl
    | ok s' =>
      obtain ⟨recovery, hbind, htransfer⟩ := Outcome.bind_ok htransfer
      exact .transferred (bindProtectedRecovery_ok hbind) htransfer rfl (by intro verb h; cases h)
  | transition previous request result context limits quiescence =>
    show StepOutcome s _
      ((s.transition previous request result context limits quiescence).toOption.getD s)
    cases htransition : s.transition previous request result context limits quiescence with
    | error e =>
      refine .refused _ ?_
      unfold applied
      dsimp only
      rw [htransition]
      rfl
    | ok s' =>
      obtain ⟨updated, hadvance, happly⟩ := Outcome.bind_ok htransition
      refine .advanced (advance_ok hadvance) happly ?_
      unfold applied
      dsimp only
      rw [htransition]
      rfl

theorem Consistent.step {s : CustodyState} (hs : Consistent s) (op : CustodyOp) :
    Consistent (s.step op) := by
  have houtcome := step_outcome s op
  generalize s.step op = s' at houtcome
  cases houtcome with
  | refused => exact hs
  | verb op => exact hs.verb op
  | installed hphase h => exact hs.installed hphase h
  | transferred hphase h => exact hs.transferred hphase h
  | advanced _ h => exact hs.transitioned h

/-- Custody that is given up does not return. -/
theorem gone_step {s : CustodyState} {id : String} (op : CustodyOp)
    (hadmitted : s.admissions.get? id ≠ none) (hgone : s.custody.get? id = none) :
    (s.step op).admissions.get? id ≠ none ∧ (s.step op).custody.get? id = none := by
  have houtcome := step_outcome s op
  generalize s.step op = s' at houtcome
  cases houtcome with
  | refused => exact ⟨hadmitted, hgone⟩
  | verb op =>
    refine ⟨hadmitted, ?_⟩
    show (op.next s.state).protectedClaimCustody.get? id = none
    rw [next_custody]
    exact hgone
  | installed hphase h =>
    obtain ⟨hnew, _, _, _, rfl⟩ := install_ok h
    have hne : ∀ {a}, s.admissions.get? a = none → a ≠ id := by
      intro a ha heq
      exact hadmitted (heq ▸ ha)
    constructor
    · show (s.admissions.set _ _).get? id ≠ none
      rw [Dict.get?_set_ne _ _ (hne hnew)]
      exact hadmitted
    · show (s.custody.set _ _).get? id = none
      rw [Dict.get?_set_ne _ _ (hne hnew)]
      exact hgone
  | transferred hphase h =>
    obtain ⟨_, _, hfresh, _, rfl⟩ := transfer_ok h
    have hne : ∀ {a}, a ∉ s.retainedIds → a ≠ id := by
      intro a ha heq
      exact ha (mem_retainedIds.mpr (.inl (heq ▸ hadmitted)))
    constructor
    · show (s.admissions.set _ _).get? id ≠ none
      rw [Dict.get?_set_ne _ _ (hne hfresh)]
      exact hadmitted
    · show ((s.custody.set _ _).erase _).get? id = none
      rw [Dict.get?_erase]
      split
      · rfl
      · rw [Dict.get?_set_ne _ _ (hne hfresh)]
        exact hgone
  | advanced _ h =>
    obtain ⟨_, _, _, _, _, _, rfl⟩ := applyTransition_ok h
    refine ⟨hadmitted, ?_⟩
    show (if _ then s.custody else s.custody.erase _).get? id = none
    split
    · exact hgone
    · rw [Dict.get?_erase]
      split
      · rfl
      · exact hgone

/-- The reading at which a mutation sweeps expired leases. -/
def CustodyOp.sweep : CustodyOp → Option Float
  | .verb op => ProtectedWrite.sweep op
  | _ => none

theorem claim_step {s : CustodyState} (op : CustodyOp) {task : String}
    (hheld : s.state.protectedTaskHeld task = true) :
    KeptOrLapsed op.sweep (s.state.claims.get? task) ((s.step op).state.claims.get? task) := by
  have houtcome := step_outcome s op
  generalize s.step op = s' at houtcome
  cases houtcome with
  | refused => exact .inl rfl
  | verb op => exact next_claim hheld
  | installed hphase h =>
    obtain ⟨_, _, _, _, rfl⟩ := install_ok h
    exact .inl rfl
  | transferred hphase h =>
    obtain ⟨_, _, _, _, rfl⟩ := transfer_ok h
    exact .inl rfl
  | advanced _ h =>
    obtain ⟨_, _, _, _, _, _, rfl⟩ := applyTransition_ok h
    exact .inl rfl

theorem claims_kept (s : CustodyState) (ops : List CustodyOp) :
    Trace.Every CustodyState.step (fun s op => ∀ task, s.state.protectedTaskHeld task = true →
      KeptOrLapsed op.sweep (s.state.claims.get? task)
        ((s.step op).state.claims.get? task)) s ops := by
  induction ops generalizing s with
  | nil => trivial
  | cons op rest ih => exact ⟨fun _ hheld => claim_step op hheld, ih _⟩

/-! ## Transitions -/

namespace AppliedTransition

def begins (t : AppliedTransition) : Bool :=
  match t.request.body with
  | .begin _ _ => true
  | _ => false

def settles (t : AppliedTransition) : Bool :=
  match t.request.body with
  | .settle _ => true
  | _ => false

/-- The revocation is effective after it. -/
def effective (t : AppliedTransition) : Bool := t.after.revocationPhase = some .effective

end AppliedTransition

/-- The reservation has moved on from its admission. -/
def Left (s : CustodyState) (id : String) : Prop :=
  ∃ r, s.reservations.get? id = some r ∧ r.result.body.operationPhase ≠ some .admitted

theorem Left.step {s : CustodyState} {id : String} (hleft : Left s id) (op : CustodyOp) :
    Left (s.step op) id := by
  obtain ⟨r, hr, hphase⟩ := hleft
  have houtcome := step_outcome s op
  generalize s.step op = s' at houtcome
  cases houtcome with
  | refused => exact ⟨r, hr, hphase⟩
  | verb op => exact ⟨r, hr, hphase⟩
  | installed _ h =>
    obtain ⟨_, _, hfree, _, rfl⟩ := install_ok h
    refine ⟨r, ?_, hphase⟩
    have hne : ∀ {a}, s.reservations.get? a = none → a ≠ id := by
      intro a ha heq
      rw [heq, hr] at ha
      cases ha
    exact (Dict.get?_set_ne _ _ (hne hfree)).trans hr
  | transferred _ h =>
    obtain ⟨_, _, hfresh, _, rfl⟩ := transfer_ok h
    refine ⟨r, ?_, hphase⟩
    have hne : ∀ {a}, a ∉ s.retainedIds → a ≠ id := by
      intro a ha heq
      refine ha (mem_retainedIds.mpr (.inr (.inr ?_)))
      rw [heq, hr]
      intro hno
      cases hno
    exact (Dict.get?_set_ne _ _ (hne hfresh)).trans hr
  | @advanced _ previous updated _ _ _ _ _ hadvanced h =>
    obtain ⟨_, _, _, _, _, _, rfl⟩ := applyTransition_ok h
    by_cases heq : previous.admission.reservationId = id
    · refine ⟨updated, ?_, ?_⟩
      · show (s.reservations.set _ _).get? id = some updated
        rw [← heq]
        exact Dict.get?_set_self _ _ _
      · rw [hadvanced.answer]
        exact hadvanced.left
    · exact ⟨r, (Dict.get?_set_ne _ _ heq).trans hr, hphase⟩

/-- What one applied transition was asked in. -/
structure Lawful (t : AppliedTransition) : Prop where
  begins : t.begins = true → t.before.operationPhase = some .admitted
  effective : t.effective = true →
    t.settles = true ∨ t.before.operationPhase = some .admitted ∨
      t.before.operationPhase = some .settled

theorem applied_step {s : CustodyState} {op : CustodyOp} {t : AppliedTransition}
    (h : s.applied op = some t) :
    Lawful t ∧ Left (s.step op) t.id ∧
      ∃ r, s.reservations.get? t.id = some r ∧ r.result.body = t.before := by
  have houtcome := step_outcome s op
  generalize s.step op = s' at houtcome
  cases houtcome with
  | refused _ hnone =>
    rw [h] at hnone
    cases hnone
  | verb op => cases h
  | installed _ _ hnone =>
    rw [h] at hnone
    cases hnone
  | transferred _ _ hnone =>
    rw [h] at hnone
    cases hnone
  | @advanced _ previous updated request result _ _ _ hadvanced hok happlied =>
    rw [h] at happlied
    cases happlied
    obtain ⟨hcurrent, _, _, _, _, _, rfl⟩ := applyTransition_ok hok
    refine ⟨⟨?_, ?_⟩, ⟨updated, Dict.get?_set_self _ _ _, ?_⟩, previous, hcurrent, rfl⟩
    · intro hbegins
      unfold AppliedTransition.begins at hbegins
      split at hbegins
      · exact hadvanced.begins _ _ ‹_›
      · cases hbegins
    · intro heffective
      rcases hadvanced.effective (of_decide_eq_true heffective) with ⟨settlement, hsettle⟩ | hold
      · left
        unfold AppliedTransition.settles
        dsimp only
        rw [hsettle]
      · exact .inr hold
    · rw [hadvanced.answer]
      exact hadvanced.left

theorem transitions_cons (s : CustodyState) (op : CustodyOp) (rest : List CustodyOp) :
    s.transitions (op :: rest) = (s.applied op).toList ++ (s.step op).transitions rest := by
  unfold transitions
  rw [Trace.trace, List.filterMap_cons]
  cases s.applied op <;> rfl

/-- A reservation that has moved on is never again seen as admitted. -/
theorem transitions_after {s : CustodyState} {id : String} (hleft : Left s id)
    (ops : List CustodyOp) : ∀ t ∈ s.transitions ops, t.id = id →
      Lawful t ∧ t.before.operationPhase ≠ some .admitted := by
  induction ops generalizing s with
  | nil =>
    intro t ht
    cases ht
  | cons op rest ih =>
    intro t ht heq
    rw [transitions_cons, List.mem_append] at ht
    rcases ht with ht | ht
    · obtain ⟨hlawful, -, r, hr, hbefore⟩ := applied_step (Option.mem_toList.mp ht)
      obtain ⟨r', hr', hphase⟩ := hleft
      rw [heq, hr'] at hr
      cases hr
      exact ⟨hlawful, hbefore ▸ hphase⟩
    · exact ih (hleft.step op) t ht heq

/-- Of two transitions of one reservation: no begin after an effective
revocation, and no revocation that takes effect under a writer who has begun
and not settled. -/
def Fenced (a b : AppliedTransition) : Prop :=
  a.id = b.id → (a.effective = true → b.begins = false) ∧
    (a.begins = true → b.effective = true →
      b.settles = true ∨ b.before.operationPhase = some .settled)

theorem transitions_fenced (s : CustodyState) (ops : List CustodyOp) :
    (s.transitions ops).Pairwise Fenced := by
  induction ops generalizing s with
  | nil => exact .nil
  | cons op rest ih =>
    rw [transitions_cons]
    cases happlied : s.applied op with
    | none => exact ih _
    | some a =>
      refine List.pairwise_cons.mpr ⟨?_, ih _⟩
      intro b hb hid
      obtain ⟨-, hleft, -⟩ := applied_step happlied
      obtain ⟨hlawful, hphase⟩ := transitions_after hleft rest b hb hid.symm
      constructor
      · intro _
        by_contra hbegins
        exact hphase (hlawful.begins (Bool.eq_true_of_not_eq_false hbegins))
      · intro _ heffective
        rcases hlawful.effective heffective with hsettles | hadmitted | hsettled
        · exact .inl hsettles
        · exact absurd hadmitted hphase
        · exact .inr hsettled

/-! ## Runs -/

/-- Along every run of claim verbs and protected writes: custody is held by
exactly the reservations that have neither settled nor been recovered, no two
domains meet, a claim under custody stays until its lease is over, custody
that was given up is not taken again, and the transitions of a reservation
are fenced. -/
theorem custody_exclusive (defaultTtl maxClaims maxOffers maxPaths : Json)
    (ops later : List CustodyOp) :
    let start := CustodyState.init defaultTtl maxClaims maxOffers maxPaths
    let s := Trace.run CustodyState.step start ops
    (∀ id ws, s.custody.get? id = some ws ↔ ∃ r, s.reservations.get? id = some r ∧
        r.holdsCustody = true ∧ s.recoveries.get? id = none ∧ ws = r.custody) ∧
      (∀ id id' ws ws', id ≠ id' → s.custody.get? id = some ws →
        s.custody.get? id' = some ws' → Apart ws ws') ∧
      Trace.Every CustodyState.step (fun s op => ∀ task, s.state.protectedTaskHeld task = true →
        KeptOrLapsed op.sweep (s.state.claims.get? task)
          ((s.step op).state.claims.get? task)) start ops ∧
      (∀ id, s.admissions.get? id ≠ none → s.custody.get? id = none →
        (Trace.run CustodyState.step s later).custody.get? id = none) ∧
      (start.transitions ops).Pairwise Fenced := by
  intro start s
  have hs : Consistent s :=
    Trace.invariant _ (fun _ op h => h.step op) (Consistent.empty _ _ _ _) ops
  refine ⟨hs.held, hs.apart, ?_, ?_, transitions_fenced start ops⟩
  · exact claims_kept start ops
  · intro id hadmitted hgone
    exact (Trace.invariant (P := fun t : CustodyState =>
      t.admissions.get? id ≠ none ∧ t.custody.get? id = none) _
      (fun _ op h => gone_step op h.1 h.2) ⟨hadmitted, hgone⟩ later).2

/-! ## A revocation after the settlement -/

section Settled

omit [Builtins]

/-- The proposal of one author over one claimed task. -/
def claimedProposal : Proposal where
  targetProject := "P"
  claims := [⟨"T", "author", 1, 0, 3601⟩]
  operations := "edit"
  executableIds := ["op"]
  contentReference := "c"
  recoveryPolicyRevision := "r"

/-- A request of the transaction from `sender`; its identity is its digest. -/
def askedBy (sender id : String) (body : RequestBody) : Request where
  sender
  target := "authority"
  requestId := id
  authorityId := "a"
  authorityContinuity := "a1"
  sessionId := sender
  transactionId := "t"
  proposalSha256 := "p"
  enrollmentRevision := "e"
  body
  digest := id
  proof := ""

/-- The answer of the authority to a request. -/
def answering (request : Request) (body : ResultBody) : Result where
  sender := "authority"
  target := request.sender
  requestId := request.requestId
  authorityId := "a"
  authorityContinuity := "a1"
  sessionId := request.sessionId
  transactionId := "t"
  proposalSha256 := "p"
  enrollmentRevision := "e"
  body := { body with
    requestType := "protected_write_" ++ request.body.verb
    requestDigest := request.digest }
  proof := some ""

def admittedBody : ResultBody where
  requestType := ""
  requestDigest := ""
  disposition := .accepted
  evidenceReference := none
  reasonCode := none
  reservationId := some "R"
  operationPhase := some .admitted
  revocationPhase := some .standing
  outcome := none
  writerPrincipal := some "writer"
  writerIncarnation := some "w1"
  admissionSequence := some 1
  beginSequence := none
  settlementSequence := none
  revocationSequence := none

def executingBody : ResultBody :=
  { admittedBody with operationPhase := some .executing, beginSequence := some 2 }

def committedBody : ResultBody :=
  { executingBody with
    operationPhase := some .settled
    outcome := some .committed
    settlementSequence := some 3
    evidenceReference := some "q" }

def revokedBody : ResultBody :=
  { committedBody with
    revocationPhase := some .effective
    revocationSequence := some 4
    disposition := .effective }

def admitRequest : Request := askedBy "author" "1" (.admitProposal claimedProposal)

/-- The author's session, and the journal at the admission. -/
def authorContext : ProtectedAdmissionContext where
  authorPrincipal := "author"
  authorityId := "a"
  authorityContinuity := "a1"
  writerPrincipal := "writer"
  writerIncarnation := "w1"
  admissionSequence := 1
  now := 2

def claimedAdmission : ProtectedWriteAdmission where
  reservationId := "R"
  operationKey :=
    letI := Builtins.ascii
    (operationKey admitRequest authorContext).toOption.getD ""
  request := admitRequest
  result := answering admitRequest admittedBody
  proposal := claimedProposal
  claimCustody := [⟨"T", "author", 1, 0, 3601, defaultWorktree, [], none⟩]

def beginRequest : Request := askedBy "writer" "2" (.begin "R" "w1")

def settleRequest : Request :=
  askedBy "writer" "3" (.settle ⟨"R", "w1", .committed, "j", [("op", .completed)], some "q"⟩)

def revokeRequest : Request := askedBy "operator" "4" (.revoke "R")

def begun : ProtectedWriteReservation :=
  { ProtectedWriteReservation.admitted claimedAdmission with
    request := beginRequest
    result := answering beginRequest executingBody
    transitionSequence := 2 }

def committed : ProtectedWriteReservation :=
  { begun with
    request := settleRequest
    result := answering settleRequest committedBody
    transitionSequence := 3 }

/-- A write that begins and commits, and is revoked afterwards. -/
def revokedAfterwards : List CustodyOp :=
  letI := Builtins.ascii
  let claims := (StateOp.next (SynapseState.init .null .null .null .null)
    (.claim "author" "T" 1 {})).claims
  let limits : Limits := ⟨100, []⟩
  [.verb (.claim "author" "T" 1 {}),
    .install admitRequest (answering admitRequest admittedBody) authorContext claims limits 8,
    .transition (.admitted claimedAdmission) beginRequest (answering beginRequest executingBody)
      ⟨"writer", "writer", .writer, 2⟩ limits none,
    .transition begun settleRequest (answering settleRequest committedBody)
      ⟨"writer", "writer", .writer, 3⟩ limits (some fun _ _ _ => true),
    .transition committed revokeRequest (answering revokeRequest revokedBody)
      ⟨"operator", "operator", .operator, 4⟩ limits none]

theorem begun_and_revoked :
    letI := Builtins.ascii
    ¬ ∀ a ∈ (CustodyState.init .null .null .null .null).transitions revokedAfterwards,
      ∀ b ∈ (CustodyState.init .null .null .null .null).transitions revokedAfterwards,
        a.id = b.id → a.begins = true → b.effective = false := by
  decide +kernel

end Settled

end SynapseChannel.ProtectedWrite
