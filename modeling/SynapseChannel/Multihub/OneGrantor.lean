import SynapseChannel.Multihub.ClaimForwarding

/-!
# Multihub — OneGrantor

Which leases a hub with an ownership map gives an owner: for each grant and
handoff, when the owner's namespace is one this hub may grant in.
-/

namespace SynapseChannel.ClaimHub

open Py

variable [Builtins]

/-- Every lease keeps its owner, or was granted or handed over to an agent
whose own namespace this hub owns, uncontested by what is observed. -/
def GrantsOwned (o : NamespaceOwnership) (h : ClaimHub) (s : ClaimStep) : Prop :=
  ∀ task claim, (h.step s).state.claims.get? task = some claim →
    (h.granted s ≠ some task ∧
      ∃ old, h.state.claims.get? task = some old ∧ old.owner = claim.owner) ∨
    (o.resolve (projectOf claim.owner)
      (h.observedAssertingHubs (projectOf claim.owner))).grantsLocally = true

/-- When a step is safe: nobody else is observed asserting the namespace of
the agent that is granted, a forwarded claim is asked for in its claimant's
own namespace or one that is also assigned here, and a handoff goes to an
agent of a namespace assigned here. -/
def Fit (o : NamespaceOwnership) (h : ClaimHub) : ClaimStep → Prop
  | .apply slot _ _ =>
    match h.calls[slot]? with
    | some (.direct sender _) => o.Uncontested (h.observedAssertingHubs (projectOf sender))
    | some (.forward _ request) =>
      (request.name = projectOf request.claimant ∨ o.Assigned (projectOf request.claimant)) ∧
        o.Uncontested (h.observedAssertingHubs (projectOf request.claimant))
    | _ => True
  | .handoff _ data _ _ =>
    let target := (handoffBody data).toAgent
    o.Assigned (projectOf target) ∧ o.Uncontested (h.observedAssertingHubs (projectOf target))
  | _ => True

/-- A claim in flight has passed its gate. -/
def Gated (o : NamespaceOwnership) : ClaimCall → Prop
  | .direct sender _ => o.Assigned (projectOf sender)
  | .forward _ request => o.Assigned request.name
  | _ => True

/-- What every run keeps: the map, and that what is in flight has passed its gate. -/
structure Gates (o : NamespaceOwnership) (h : ClaimHub) : Prop where
  map : h.ownership = some o
  calls : ∀ call ∈ h.calls, Gated o call

/-! ## The gates -/

omit [Builtins] in
theorem ownsNamespace_iff {o : NamespaceOwnership} {h : ClaimHub} (hmap : h.ownership = some o)
    (name : String) : h.ownsNamespace name = true ↔ o.Assigned name := by
  unfold ownsNamespace
  rw [hmap, NamespaceOwnership.resolve_grantsLocally]
  constructor
  · exact And.left
  · intro hassigned
    exact ⟨hassigned, fun hub hmem => absurd hmem List.not_mem_nil⟩

theorem refuseClaim_none {h : ClaimHub} {authorised : Bool} {request : ClaimForwardRequest}
    (hnone : h.refuseClaim authorised request = none) :
    authorised = true ∧ h.journalCorrupt = false ∧ h.ownsNamespace request.name = true := by
  unfold refuseClaim at hnone
  split at hnone
  · cases hnone
  · split at hnone
    · cases hnone
    · split at hnone
      · cases hnone
      · simp_all

theorem route_grant {o : NamespaceOwnership} {h : ClaimHub} (hmap : h.ownership = some o)
    {sender : String} {data : Members} {relayed : String → Bool}
    (hroute : h.authoriseClaimOwnership sender data relayed = .grant) :
    o.Assigned (projectOf sender) := by
  unfold authoriseClaimOwnership at hroute
  rw [hmap] at hroute
  dsimp only at hroute
  split at hroute
  · rename_i hlocal
    exact ((o.resolve_grantsLocally _ _).mp hlocal).1
  · split at hroute
    · cases hroute
    · split at hroute <;> cases hroute

section

omit [Builtins]

theorem gates_enter {o : NamespaceOwnership} {h : ClaimHub} (hs : Gates o h) {call : ClaimCall}
    (hcall : Gated o call) : Gates o (h.enter call) := by
  refine ⟨hs.map, ?_⟩
  intro c hc
  rcases List.mem_append.mp hc with hc | hc
  · exact hs.calls c hc
  · rw [List.mem_singleton.mp hc]
    exact hcall

theorem gates_state {o : NamespaceOwnership} {h : ClaimHub} (hs : Gates o h)
    (state : SynapseState) : Gates o { h with state } := ⟨hs.map, hs.calls⟩

/-- A call that moves on to a stage past its gate. -/
theorem gates_set {o : NamespaceOwnership} {h : ClaimHub} (hs : Gates o h) (state : SynapseState)
    (slot : Nat) {call : ClaimCall} (hcall : Gated o call) :
    Gates o { h with state, calls := h.calls.set slot call } := by
  refine ⟨hs.map, ?_⟩
  intro c hc
  rcases List.mem_or_eq_of_mem_set hc with hc | rfl
  · exact hs.calls c hc
  · exact hcall

end

theorem gates_step {o : NamespaceOwnership} {h : ClaimHub} (hs : Gates o h) (s : ClaimStep) :
    Gates o (h.step s) := by
  cases s with
  | observe feed => exact ⟨hs.map, hs.calls⟩
  | frame sender data relayed =>
    unfold step
    dsimp only
    split
    · rename_i hroute
      exact gates_enter hs (route_grant hs.map hroute)
    · exact hs
  | request peer data authorised now =>
    show Gates o (h.receive peer data authorised now).1
    unfold receive
    split
    · exact hs
    · split
      · exact hs
      · rename_i hpassed
        split
        · exact hs
        · obtain ⟨-, -, howns⟩ := refuseClaim_none hpassed
          exact gates_enter hs ((ownsNamespace_iff hs.map _).mp howns)
  | apply slot quota now =>
    unfold step
    dsimp only
    split
    · rename_i call state application _ _
      refine gates_set hs _ _ ?_
      unfold afterApply
      split <;> trivial
    · exact hs
  | answer slot now =>
    unfold step
    dsimp only
    split
    · exact gates_set hs _ _ trivial
    · exact hs
  | drop slot => exact gates_set hs _ _ trivial
  | handoff sender data online now => exact gates_state hs _
  | verb op => exact gates_state hs _

/-! ## Steps -/

/-- A step grants to `agent` alone, if it grants at all. -/
structure GrantsTo (h : ClaimHub) (s : ClaimStep) (agent : String) : Prop where
  kept : OwnersKept h.state (h.step s).state fun task claim =>
    h.granted s = some task ∧ claim.owner = agent
  stored : ∀ task, h.granted s = some task →
    ∃ claim, (h.step s).state.claims.get? task = some claim ∧ claim.owner = agent

theorem GrantsTo.grantsOwned_iff {o : NamespaceOwnership} {h : ClaimHub} {s : ClaimStep}
    {agent : String} (hto : GrantsTo h s agent) :
    GrantsOwned o h s ↔ h.granted s = none ∨
      o.Assigned (projectOf agent) ∧
        o.Uncontested (h.observedAssertingHubs (projectOf agent)) := by
  rw [← o.resolve_grantsLocally]
  constructor
  · intro howned
    cases hgranted : h.granted s with
    | none => exact .inl rfl
    | some task =>
      obtain ⟨claim, hclaim, rfl⟩ := hto.stored task hgranted
      rcases howned task claim hclaim with ⟨hother, -⟩ | hlocal
      · exact absurd hgranted hother
      · exact .inr hlocal
  · intro hsafe task claim hclaim
    by_cases hgranted : h.granted s = some task
    · obtain ⟨stored, hstored, howner⟩ := hto.stored task hgranted
      rw [hclaim] at hstored
      cases hstored
      rw [howner]
      rcases hsafe with hnone | hlocal
      · rw [hnone] at hgranted
        cases hgranted
      · exact .inr hlocal
    · refine .inl ⟨hgranted, (hto.kept task claim hclaim).resolve_right ?_⟩
      intro hnew
      exact hgranted hnew.1

/-- A step that leaves every owner as it was, or drops leases. -/
theorem GrantsTo.nobody {h : ClaimHub} {s : ClaimStep} (hgranted : h.granted s = none)
    (hkept : OwnersKept h.state (h.step s).state fun _ _ => False) : GrantsTo h s "" := by
  refine ⟨?_, ?_⟩
  · intro task claim hclaim
    exact .inl ((hkept task claim hclaim).resolve_right id)
  · intro task hsome
    rw [hgranted] at hsome
    cases hsome

/-- An applied claim grants to its claimant. -/
theorem grantsTo_apply {h : ClaimHub} {slot : Nat} {quota bucket claimant : String}
    {body : Members} {now : Float} {call : ClaimCall} (hcall : h.calls[slot]? = some call)
    (hflight : h.inFlight slot quota = some (bucket, claimant, body)) :
    GrantsTo h (.apply slot quota now) claimant := by
  have hstate : (h.step (.apply slot quota now)).state =
      (h.state.applyClaim claimant body (some bucket) now).1 := by
    rw [step_apply hcall hflight]
  have hgranted : h.granted (.apply slot quota now) =
      if (h.state.applyClaim claimant body (some bucket) now).2.claim.isSome
      then some (ClaimBody.taskId body) else none := by
    unfold granted
    dsimp only
    rw [hflight, applied_of_inFlight hflight]
  refine ⟨?_, ?_⟩
  · rw [hstate]
    intro task claim hclaim
    have hkept := h.state.applyClaim_ownersKept claimant body (some bucket) now
    rcases hkept task claim hclaim with hold | ⟨htask, howner, hsome⟩
    · exact .inl hold
    · right
      rw [hgranted, if_pos hsome, htask]
      exact ⟨rfl, howner⟩
  · intro task htask
    rw [hgranted] at htask
    split at htask
    · rename_i hsome
      cases htask
      obtain ⟨claim, hclaim⟩ := Option.isSome_iff_exists.mp hsome
      have hobtained := SynapseState.applyClaim_obtained hclaim
      rw [hstate]
      exact ⟨claim, hobtained.stored, hobtained.owner⟩
    · cases htask

theorem handoff_stored {s : SynapseState} {agent task target m : String} {now : Float}
    {note : Option String} {epoch : Option Int}
    (h : (s.handoff agent task target now note epoch).2 = .ok m) :
    ∃ claim, (s.handoff agent task target now note epoch).1.claims.get? (strip task) =
      some claim ∧ claim.owner = strip target := by
  have hstep := s.handoff_step agent task target now note epoch
  generalize s.handoff agent task target now note epoch = r at h hstep
  cases hstep with
  | moved => exact ⟨_, Dict.get?_set_self _ _ _, rfl⟩
  | invalid => cases h
  | refused => cases h

theorem grantsTo_handoff (h : ClaimHub) (sender : String) (data : Members)
    (online : String → Bool) (now : Float) :
    GrantsTo h (.handoff sender data online now) (handoffBody data).toAgent := by
  have htarget : strip (handoffBody data).toAgent = (handoffBody data).toAgent := strip_strip _
  have hstate : (h.step (.handoff sender data online now)).state =
      (h.handoff sender data online now).1 := by
    simp only [step]
  by_cases hoffline : (handoffBody data).toAgent ≠ "" ∧ online (handoffBody data).toAgent = false
  · have hnone : (h.handoff sender data online now).1 = h.state ∧
        h.granted (.handoff sender data online now) = none := by
      unfold granted handoff
      dsimp only
      rw [if_pos hoffline]
      exact ⟨rfl, rfl⟩
    refine ⟨?_, ?_⟩
    · rw [hstate, hnone.1]
      exact .refl _ _
    · intro task htask
      rw [hnone.2] at htask
      cases htask
  · have heq : h.handoff sender data online now =
        h.state.handoff sender (handoffBody data).taskId (handoffBody data).toAgent now
          (handoffBody data).note (handoffBody data).epoch := by
      unfold handoff
      dsimp only
      rw [if_neg hoffline]
    have hkept := StateOp.ownersKept h.state (.handoff sender (handoffBody data).taskId
      (handoffBody data).toAgent now (handoffBody data).note (handoffBody data).epoch)
    unfold StateOp.next StateOp.Acquires StateOp.apply at hkept
    dsimp only at hkept
    refine ⟨?_, ?_⟩
    · rw [hstate, heq]
      intro task claim hclaim
      rcases hkept task claim hclaim with hold | ⟨htask, howner, m, hok⟩
      · exact .inl hold
      · right
        constructor
        · unfold granted
          dsimp only
          rw [heq, hok, htask]
        · exact howner.trans htarget
    · intro task htask
      unfold granted at htask
      dsimp only at htask
      rw [heq] at htask
      rw [hstate, heq]
      have hstored := @handoff_stored _ h.state sender (handoffBody data).taskId
        (handoffBody data).toAgent
      generalize hr : h.state.handoff sender (handoffBody data).taskId (handoffBody data).toAgent
        now (handoffBody data).note (handoffBody data).epoch = r at htask ⊢
      split at htask
      · rename_i m hok
        injection htask with htask
        obtain ⟨claim, hclaim, howner⟩ := hstored (hr ▸ hok)
        rw [hr, htask] at hclaim
        exact ⟨claim, hclaim, howner.trans htarget⟩
      · cases htask

/-- The step of a claim that is not in flight, or of no claim, grants nothing. -/
theorem grantsTo_idle {h : ClaimHub} {slot : Nat} {quota : String} {now : Float}
    (hflight : h.inFlight slot quota = none) : GrantsTo h (.apply slot quota now) "" := by
  apply GrantsTo.nobody
  · unfold granted
    dsimp only
    rw [hflight]
  · rw [step_apply_idle hflight]
    exact .refl _ _

/-- The registry under the steps that neither apply a claim nor hand one over. -/
theorem grantsTo_other {h : ClaimHub} {s : ClaimStep} (hgranted : h.granted s = none)
    (hstate : (h.step s).state = h.state) : GrantsTo h s "" := by
  apply GrantsTo.nobody hgranted
  rw [hstate]
  exact .refl _ _

theorem grantsTo_verb (h : ClaimHub) (op : { op : StateOp // op.acquires = false }) :
    GrantsTo h (.verb op) "" := by
  apply GrantsTo.nobody rfl
  intro task claim hclaim
  refine .inl ((StateOp.ownersKept h.state op.1 task claim hclaim).resolve_right ?_)
  intro hnew
  have hop := op.2
  generalize op.1 = verb at hop hnew
  cases verb <;> first | exact hnew | cases hop

/-- A step meets the rule exactly when it grants nothing or is safe. -/
theorem grantsOwned_iff {o : NamespaceOwnership} {h : ClaimHub} (hs : Gates o h) (s : ClaimStep) :
    GrantsOwned o h s ↔ h.granted s = none ∨ Fit o h s := by
  have hquiet : GrantsTo h s "" → h.granted s = none → (GrantsOwned o h s ↔
      h.granted s = none ∨ Fit o h s) := by
    intro hto hnone
    rw [hto.grantsOwned_iff]
    simp only [hnone, true_or]
  cases s with
  | observe feed => exact hquiet (grantsTo_other rfl rfl) rfl
  | frame sender data relayed =>
    refine hquiet (grantsTo_other rfl ?_) rfl
    unfold step
    dsimp only
    split <;> rfl
  | request peer data authorised now =>
    exact hquiet (grantsTo_other rfl (h.step_request_state peer data authorised now)) rfl
  | apply slot quota now =>
    cases hcall : h.calls[slot]? with
    | none =>
      have hflight : h.inFlight slot quota = none := by
        unfold inFlight
        rw [hcall]
      refine hquiet (grantsTo_idle hflight) ?_
      unfold granted
      dsimp only
      rw [hflight]
    | some call =>
      have hgate := hs.calls call (List.mem_of_getElem? hcall)
      unfold Fit
      dsimp only
      rw [hcall]
      cases call with
      | direct sender body =>
        have hflight : h.inFlight slot quota = some (quota, sender, body) := by
          unfold inFlight
          rw [hcall]
        rw [(grantsTo_apply hcall hflight).grantsOwned_iff]
        dsimp only
        have hassigned : o.Assigned (projectOf sender) := hgate
        simp only [hassigned, true_and]
      | forward peer request =>
        have hflight : h.inFlight slot quota =
            some (s!"federation-peer:{peer}", request.claimant, request.claim) := by
          unfold inFlight
          rw [hcall]
        rw [(grantsTo_apply hcall hflight).grantsOwned_iff]
        dsimp only
        have hassigned : o.Assigned request.name := hgate
        have hown : request.name = projectOf request.claimant ∨
            o.Assigned (projectOf request.claimant) ↔ o.Assigned (projectOf request.claimant) :=
          or_iff_right_of_imp fun heq => heq ▸ hassigned
        rw [hown]
      | answering request application =>
        have hflight : h.inFlight slot quota = none := by
          unfold inFlight
          rw [hcall]
        rw [(grantsTo_idle hflight).grantsOwned_iff]
        simp [granted, hflight]
      | done =>
        have hflight : h.inFlight slot quota = none := by
          unfold inFlight
          rw [hcall]
        rw [(grantsTo_idle hflight).grantsOwned_iff]
        simp [granted, hflight]
  | answer slot now =>
    refine hquiet (grantsTo_other rfl ?_) rfl
    unfold step
    dsimp only
    split <;> rfl
  | drop slot => exact hquiet (grantsTo_other rfl rfl) rfl
  | handoff sender data online now =>
    rw [(grantsTo_handoff h sender data online now).grantsOwned_iff]
    rfl
  | verb op => exact hquiet (grantsTo_verb h op) rfl

/-! ## Runs -/

/-- On a hub with an ownership map, whatever leases it starts with: along every
run, a step that grants, renews or hands over a lease leaves it with an agent
of a namespace this hub owns, uncontested, exactly when the step is safe, and
every other step keeps the owners. A run of safe steps therefore keeps one
grantor for each namespace. -/
theorem one_grantor (o : NamespaceOwnership) (hubId : String) (journalCorrupt : Bool)
    (feed : String → List String) (state : SynapseState) (steps : List ClaimStep) :
    let start : ClaimHub := { hubId, ownership := some o, journalCorrupt, feed, state }
    Trace.Every step (fun h s => GrantsOwned o h s ↔ h.granted s = none ∨ Fit o h s)
        start steps ∧
      (Trace.Every step (fun h s => Fit o h s) start steps →
        Trace.Every step (fun h s => GrantsOwned o h s) start steps) := by
  intro start
  have hstart : Gates o start := by
    refine ⟨rfl, ?_⟩
    intro call hcall
    cases hcall
  constructor
  · have hall : Trace.Every step (fun _ _ => True) start steps :=
      Trace.Every.of_forall step (P := fun _ => True) fun _ _ => trivial
    exact (Trace.every_invariant step (I := Gates o) (P := fun _ _ => True)
      (fun h s hs _ => gates_step hs s)
      (fun h s hs _ => grantsOwned_iff hs s) hstart hall).2
  · intro hfit
    exact (Trace.every_invariant step (I := Gates o) (fun h s hs _ => gates_step hs s)
      (fun h s hs hsafe => (grantsOwned_iff hs s).mpr (.inr hsafe)) hstart hfit).2

/-! ## Grants the rule forbids -/

section Forbidden

omit [Builtins]

/-- Hub `h` owns `P` and no other namespace. -/
def ownsP : NamespaceOwnership := ⟨Dict.empty.set "P" "h", "h"⟩

/-- The hub `h`, while hub `x` is seen granting. -/
def contestedHub : ClaimHub where
  hubId := "h"
  ownership := some ownsP
  feed := fun _ => ["x"]
  state := letI := Builtins.ascii; SynapseState.init .null .null .null .null

/-- A forwarded claim of `claimant` on `T` in the namespace `P`. -/
def forwardedFrame (claimant : String) (claim : Members) : Json :=
  .obj [("namespace", .str "P"), ("claimant", .str claimant), ("task_id", .str "T"),
    ("claim", .obj claim)]

/-- The claim goes through although the namespace is contested. -/
theorem contested_forward_granted :
    letI := Builtins.ascii
    ¬ Trace.Every step (GrantsOwned ownsP) contestedHub
      [.request "peer" (forwardedFrame "P/a" [("task_id", .str "T")]) true 1,
        .apply 0 "" 1] := by
  let _ : Builtins := Builtins.ascii
  intro hevery
  obtain ⟨-, happly, -⟩ := hevery
  have hstart : Gates ownsP contestedHub := by
    refine ⟨rfl, ?_⟩
    intro call hcall
    cases hcall
  rcases (grantsOwned_iff (gates_step hstart _) _).mp happly with hnone | hsafe
  · exact absurd hnone (by decide +kernel)
  · have hfree : ownsP.Uncontested ["x"] := hsafe.2
    exact absurd hfree (by decide +kernel)

end Forbidden

end SynapseChannel.ClaimHub
