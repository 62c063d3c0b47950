import SynapseChannel.Core.SpendBound

/-!
# Core — SpendOnce

An idempotency scope is granted at most once and a usage reference is
charged at most once, since the answer stored under a scope is never
replaced. A retry of a reservation reads that answer only after the fold
of its pool, so it is answered exactly while the pool is legible.
-/

namespace SynapseChannel.Spend

open Py Outcome

/-! ## Legible pools -/

variable [Readers]

/-- An event the fold reads: a configuration validates, and an expiry is
not longer as text than the reader of times allows. -/
def Event.Legible : Event → Prop
  | .poolConfig body => ∃ config, validateConfig (.obj body) = .ok config
  | .grant body =>
    body.expiresAt.wall % 1000000 = 0 ∨ body.expiresAt.offset.natAbs % 1000000 = 0
  | _ => True

theorem foldEvent_legible {state next : PoolState} {event : Event}
    (h : foldEvent state event = .ok next) : event.Legible := by
  cases event with
  | poolConfig body =>
    obtain ⟨config, hconfig, -⟩ := foldEvent_poolConfig h
    exact ⟨config, hconfig⟩
  | grant body =>
    obtain ⟨config, -, hlen, -⟩ := foldEvent_grant h
    exact body.expiresAt.len_isoformat_le_iff.mp hlen
  | _ => trivial

theorem foldlM_legible {events : List Event} {state next : PoolState}
    (h : events.foldlM foldEvent state = .ok next) : ∀ event ∈ events, event.Legible := by
  induction events generalizing state with
  | nil =>
    intro event hevent
    cases hevent
  | cons first rest ih =>
    rw [List.foldlM_cons] at h
    obtain ⟨mid, hmid, hrest⟩ := bind_ok h
    intro event hevent
    rcases List.mem_cons.mp hevent with rfl | hevent
    · exact foldEvent_legible hmid
    · exact ih hrest event hevent

theorem foldEvent_poolConfig_ok {state : PoolState} {body : Members}
    (h : (Event.poolConfig body).Legible) :
    ∃ next, foldEvent state (.poolConfig body) = .ok next := by
  obtain ⟨config, hconfig⟩ := h
  exact ⟨_, bind_of_ok hconfig rfl⟩

/-- A legible grant folds onto any configured pool. -/
theorem foldEvent_grant_ok {state : PoolState} {config : PoolConfig} {body : Grant}
    (hconfig : state.config = some config) (h : (Event.grant body).Legible) :
    ∃ next, foldEvent state (.grant body) = .ok next := by
  have hlen : len body.expiresAt.isoformat ≤ maxTime :=
    body.expiresAt.len_isoformat_le_iff.mpr h
  have htime : storedTime body.expiresAt = .ok body.expiresAt := if_neg (not_lt.mpr hlen)
  unfold foldEvent
  dsimp only
  rw [hconfig]
  exact ⟨_, bind_of_ok htime rfl⟩

theorem foldEvent_settlement_ok {state : PoolState} {r : Reservation} {body : Settlement}
    (hr : state.reservations.get? body.reservationId = some r)
    (htotal : ∃ total, r.settled.add body.amount = .ok total) :
    ∃ next, foldEvent state (.settlement body) = .ok next := by
  obtain ⟨total, htotal⟩ := htotal
  have hsettle : ∃ charged, r.settle body = .ok charged := ⟨_, bind_of_ok htotal rfl⟩
  obtain ⟨charged, hcharged⟩ := hsettle
  unfold foldEvent
  dsimp only
  rw [hr]
  exact ⟨_, bind_of_ok hcharged rfl⟩

theorem foldEvent_reconciliation_ok {state : PoolState} {r : Reservation} {body : Reconciliation}
    (hr : state.reservations.get? body.reservationId = some r) :
    ∃ next, foldEvent state (.reconciliation body) = .ok next := by
  unfold foldEvent
  dsimp only
  rw [hr]
  exact ⟨_, rfl⟩

theorem foldlM_singleton {state next : PoolState} {event : Event}
    (h : foldEvent state event = .ok next) : [event].foldlM foldEvent state = .ok next := by
  rw [List.foldlM_cons]
  exact bind_of_ok h rfl

/-- Legible events that a call adds fold onto what the pool held. -/
theorem records_fold {L : SpendLedger} {poolId : String} {events : List Event}
    (hrecords : L.Records poolId events) {before : PoolState}
    (hbefore : fold (L.poolEvents poolId) = .ok before)
    (hlegible : ∀ event ∈ events, event.Legible) :
    ∃ next, events.foldlM foldEvent before = .ok next := by
  cases hrecords with
  | nothing => exact ⟨before, rfl⟩
  | poolConfig body =>
    obtain ⟨next, hnext⟩ := foldEvent_poolConfig_ok (hlegible _ (List.mem_singleton_self _))
    exact ⟨next, foldlM_singleton hnext⟩
  | grant hstate hconfig hadmitted hexposure hwindow =>
    cases hbefore.symm.trans hstate
    obtain ⟨next, hnext⟩ := foldEvent_grant_ok hconfig (hlegible _ (List.mem_singleton_self _))
    exact ⟨next, foldlM_singleton hnext⟩
  | settlement hstate hr hopen hamount htotal =>
    cases hbefore.symm.trans hstate
    obtain ⟨next, hnext⟩ := foldEvent_settlement_ok hr htotal
    exact ⟨next, foldlM_singleton hnext⟩
  | refusal caller reason request => exact ⟨before, rfl⟩
  | reconciliation hstate hr hclosed hamount =>
    cases hbefore.symm.trans hstate
    obtain ⟨next, hnext⟩ := foldEvent_reconciliation_ok hr
    exact ⟨next, foldlM_singleton hnext⟩
  | ownerRevocation body => exact ⟨_, rfl⟩
  | failOver revocation body =>
    obtain ⟨next, hnext⟩ := foldEvent_poolConfig_ok (hlegible (.poolConfig body) (by simp))
    refine ⟨next, ?_⟩
    rw [List.foldlM_cons]
    exact bind_of_ok rfl (foldlM_singleton hnext)

open SpendLedger

/-- The fold of a pool of a run fails only on an illegible event. -/
theorem run_fold_ok_iff (ownerHubId poolId : String) (calls : List Call) :
    (∃ state, fold ((run ownerHubId calls).poolEvents poolId) = .ok state) ↔
      ∀ event ∈ (run ownerHubId calls).poolEvents poolId, event.Legible := by
  constructor
  · rintro ⟨state, hstate⟩
    exact foldlM_legible hstate
  · intro hlegible
    induction calls using List.reverseRecOn with
    | nil => exact ⟨{}, rfl⟩
    | append_singleton calls call ih =>
      rw [run_append] at hlegible ⊢
      obtain ⟨added, hadded, hrecords⟩ := step_records (run ownerHubId calls) call poolId
      rw [hadded] at hlegible ⊢
      obtain ⟨before, hbefore⟩ := ih fun e he => hlegible e (List.mem_append_left _ he)
      rw [fold_append_of_ok hbefore]
      exact records_fold hrecords hbefore fun e he => hlegible e (List.mem_append_right _ he)

/-! ## Stored answers -/

/-- The identity of the window in force. -/
def windowOf (events : List Event) : String :=
  match (configs events).getLast? with
  | some config => config.windowId
  | none => ""

/-- The idempotency scope of a request: caller, pool, window, seat, task,
operation, key. -/
def scopeOf (L : SpendLedger) (caller : String) (request : ReservationRequest) : String :=
  scope ["reserve", caller, request.poolId, windowOf (L.poolEvents request.poolId), request.seat,
    request.task, request.operation, request.key]

theorem requestScope_eq {L : SpendLedger} {state : PoolState} {caller : String}
    {request : ReservationRequest} (h : fold (L.poolEvents request.poolId) = .ok state) :
    requestScope state caller request = scopeOf L caller request := by
  have hconfig := fold_config h
  unfold requestScope reserveScope scopeOf windowOf
  cases hlast : (configs (L.poolEvents request.poolId)).getLast? with
  | none =>
    rw [hlast] at hconfig
    simp only [hconfig]
  | some config =>
    rw [hlast] at hconfig
    simp only [hconfig]

section

omit [Readers]

/-- A row of the operations table is never replaced. -/
def Keeps (L next : SpendLedger) : Prop :=
  ∀ s row, L.operations.get? s = some row → next.operations.get? s = some row

theorem Keeps.refl (L : SpendLedger) : Keeps L L := fun _ _ h => h

theorem keeps_store {L appended : SpendLedger} {s digest : String} {response : Members}
    (hnone : L.operations.get? s = none) (hsame : appended.operations = L.operations) :
    Keeps L (appended.store s digest response) := by
  intro t row hrow
  have hne : s ≠ t := by
    intro heq
    rw [← heq, hnone] at hrow
    cases hrow
  rw [← hrow, ← hsame]
  exact Dict.get?_set_ne _ _ hne

end

theorem decideRequest_operations {L next : SpendLedger} {state : PoolState}
    {caller s : String} {request : ReservationRequest} {now : Datetime} {response : Members}
    (h : L.decideRequest state caller request s now = .ok (next, response)) :
    next.operations = L.operations := by
  obtain ⟨reason, rfl⟩ | ⟨-, config, body, -, -, -, -, -, rfl⟩ := decideRequest_ok h <;> rfl

theorem charge_operations {L next : SpendLedger} {caller poolId : String} {document : Members}
    {body : Settlement} {now : Datetime} {response : Members}
    (h : L.charge caller poolId document body now = .ok (next, response)) :
    next.operations = L.operations := by
  obtain ⟨reason, rfl⟩ | ⟨state, r, -, -, -, -, -, rfl⟩ := charge_ok h <;> rfl

theorem step_keeps (L : SpendLedger) (call : Call) : Keeps L (L.step call) := by
  unfold step
  cases hanswer : L.answer call with
  | error e => exact .refl L
  | ok result =>
    obtain ⟨next, response⟩ := result
    cases call with
    | configure document now =>
      obtain ⟨pool, body, rfl⟩ := configure_ok hanswer
      exact .refl L
    | reserve caller document now =>
      obtain ⟨rfl, -⟩ | ⟨request, state, -, -, ⟨rfl, -⟩ | ⟨decided, hnone, hdecided, rfl⟩⟩ :=
        reserve_ok hanswer
      · exact .refl _
      · exact .refl _
      · exact keeps_store hnone (decideRequest_operations hdecided)
    | settle caller document now =>
      obtain ⟨rfl, -⟩ | ⟨data, pool, body, -, ⟨rfl, -⟩ | ⟨charged, hnone, hcharged, rfl⟩⟩ :=
        settle_ok hanswer
      · exact .refl _
      · exact .refl _
      · exact keeps_store hnone (charge_operations hcharged)
    | reconcile document now =>
      obtain ⟨pool, body, state, r, -, -, -, -, rfl⟩ := reconcile_ok hanswer
      exact .refl L
    | query caller document =>
      rw [query_keeps hanswer]
      exact .refl L
    | recordRevocation pool verified now =>
      obtain rfl | ⟨revocation, rfl⟩ := recordRevocation_ok hanswer <;> exact .refl _
    | failOver pool verified now =>
      obtain ⟨revocation, body, rfl⟩ := failOver_ok hanswer
      exact .refl L
    | reopen ownerHubId =>
      cases hanswer
      exact .refl L

theorem run_keeps (ownerHubId : String) (before after : List Call) :
    Keeps (run ownerHubId before) (run ownerHubId (before ++ after)) := by
  induction after using List.reverseRecOn with
  | nil =>
    rw [List.append_nil]
    exact .refl _
  | append_singleton after call ih =>
    rw [← List.append_assoc, run_append]
    intro s row hrow
    exact step_keeps _ call s row (ih s row hrow)

omit [Readers] in
/-- What a stored row answers survives. -/
theorem Keeps.stored {L next : SpendLedger} (h : Keeps L next) {s digest field : String}
    {response : Members} (hstored : L.stored s digest field = some response) :
    next.stored s digest field = some response := by
  unfold SpendLedger.stored at hstored ⊢
  obtain ⟨row, hrow, hanswer⟩ := Option.map_eq_some_iff.mp hstored
  rw [h s row hrow]
  exact congrArg some hanswer

omit [Readers] in
theorem stored_store (L : SpendLedger) (s digest field : String) (response : Members) :
    (L.store s digest response).stored s digest field = some response := by
  unfold SpendLedger.stored SpendLedger.store
  rw [Dict.get?_set_self]
  simp

/-- After a valid reservation call its scope answers it again. -/
theorem reserve_stored {L next : SpendLedger} {caller : String} {document : Json}
    {now : Datetime} {response : Members} {request : ReservationRequest}
    (hrequest : validateRequest document = .ok request)
    (h : L.reserve caller document now = .ok (next, response)) :
    next.stored (scopeOf L caller request) (requestDigest caller request) "admitted" =
      some response := by
  obtain ⟨-, e, he⟩ | ⟨request', state, hrequest', hstate, hcase⟩ := reserve_ok h
  · cases hrequest.symm.trans he
  · cases hrequest.symm.trans hrequest'
    rw [requestScope_eq hstate] at hcase
    obtain ⟨rfl, hstored⟩ | ⟨decided, -, -, rfl⟩ := hcase
    · exact hstored
    · exact stored_store ..

theorem settle_stored {L next : SpendLedger} {caller poolId : String} {document : Json}
    {now : Datetime} {response data : Members} {body : Settlement}
    (hvalid : validateSettlement document = .ok (data, poolId, body))
    (h : L.settle caller document now = .ok (next, response)) :
    next.stored (settleScope caller poolId body) (digestOf (("caller", .str caller) :: data))
      "settled" = some response := by
  obtain ⟨-, e, he⟩ | ⟨data', poolId', body', hvalid', hcase⟩ := settle_ok h
  · cases hvalid.symm.trans he
  · cases hvalid.symm.trans hvalid'
    obtain ⟨rfl, hstored⟩ | ⟨charged, -, -, rfl⟩ := hcase
    · exact hstored
    · exact stored_store ..

/-- Where the scope has an answer, a reservation call repeats it exactly
when the pool folds. -/
theorem reserve_again_iff {L : SpendLedger} {caller : String} {document : Json}
    {now : Datetime} {response : Members} {request : ReservationRequest}
    (hrequest : validateRequest document = .ok request)
    (hstored : L.stored (scopeOf L caller request) (requestDigest caller request) "admitted" =
      some response) :
    L.reserve caller document now = .ok (L, response) ↔
      ∃ state, fold (L.poolEvents request.poolId) = .ok state := by
  unfold reserve
  rw [hrequest]
  constructor
  · intro h
    obtain ⟨state, hstate, -⟩ := bind_ok h
    exact ⟨state, hstate⟩
  · rintro ⟨state, hstate⟩
    refine bind_of_ok hstate ?_
    dsimp only
    rw [requestScope_eq hstate, hstored]
    rfl

theorem settle_again {L : SpendLedger} {caller poolId : String} {document : Json}
    {now : Datetime} {response data : Members} {body : Settlement}
    (hvalid : validateSettlement document = .ok (data, poolId, body))
    (hstored : L.stored (settleScope caller poolId body)
      (digestOf (("caller", .str caller) :: data)) "settled" = some response) :
    L.settle caller document now = .ok (L, response) := by
  unfold settle
  rw [hvalid]
  dsimp only
  rw [hstored]
  rfl

/-! ## Changed requests -/

/-- The text a reservation's digest is taken of. -/
def requestText (caller : String) (request : ReservationRequest) : String :=
  dumps (.obj (("caller", .str caller) :: request.document))

def settlementText (caller : String) (data : Members) : String :=
  dumps (.obj (("caller", .str caller) :: data))

omit [Readers] in
theorem eq_of_perm_of_names {l l' : Members} (hperm : l.Perm l')
    (hnames : l.map Prod.fst = l'.map Prod.fst) (hnodup : (l.map Prod.fst).Nodup) : l = l' := by
  induction l generalizing l' with
  | nil => exact (List.nil_perm.mp hperm).symm
  | cons m rest ih =>
    cases l' with
    | nil => cases hnames
    | cons m' rest' =>
      obtain ⟨hname, hrest⟩ := List.cons.inj hnames
      obtain ⟨hfresh, hnodup⟩ := List.nodup_cons.mp hnodup
      have hmem : m ∈ m' :: rest' := hperm.subset List.mem_cons_self
      rcases List.mem_cons.mp hmem with rfl | hlater
      · rw [ih hperm.cons_inv hrest hnodup]
      · refine absurd ?_ hfresh
        rw [hrest]
        exact List.mem_map_of_mem hlater

theorem requestText_inj {caller : String} {request changed : ReservationRequest}
    (h : requestText caller request = requestText caller changed) :
    request.document = changed.document := by
  have hscalar : ∀ r : ReservationRequest,
      ∀ m ∈ ("caller", Json.str caller) :: r.document, Scalar m.2 := by
    intro r m hm
    simp only [ReservationRequest.document, List.mem_cons, List.not_mem_nil, or_false] at hm
    rcases hm with rfl | rfl | rfl | rfl | rfl | rfl | rfl | rfl | rfl | rfl | rfl | rfl | rfl <;>
      trivial
  have hnodup : ((("caller", Json.str caller) :: request.document).map Prod.fst).Nodup := by
    show ("caller" :: requestFields).Nodup
    decide
  have hsame := eq_of_perm_of_names (dumps_obj_inj (hscalar request) (hscalar changed) h) rfl hnodup
  exact (List.cons.inj hsame).2

theorem requestDigest_ne {caller : String} {request changed : ReservationRequest}
    (hfree : NoCollision [requestText caller request, requestText caller changed])
    (hchanged : request.document ≠ changed.document) :
    requestDigest caller request ≠ requestDigest caller changed := by
  intro heq
  exact hchanged (requestText_inj (hfree _ (by simp) _ (by simp) heq))

omit [Readers] in
theorem stored_changed {L : SpendLedger} {s digest digest' field : String} {response : Members}
    (hrow : L.operations.get? s = some (digest, response)) (hne : digest ≠ digest') :
    L.stored s digest' field = some (conflict field) := by
  unfold SpendLedger.stored
  rw [hrow]
  simp [hne]

/-- The call that first uses a scope stores its digest and its answer. -/
theorem reserve_fresh {L next : SpendLedger} {caller : String} {document : Json}
    {now : Datetime} {response : Members} {request : ReservationRequest}
    (hrequest : validateRequest document = .ok request)
    (hfresh : L.operations.get? (scopeOf L caller request) = none)
    (h : L.reserve caller document now = .ok (next, response)) :
    next.operations.get? (scopeOf L caller request) =
      some (requestDigest caller request, response) := by
  obtain ⟨-, e, he⟩ | ⟨request', state, hrequest', hstate, hcase⟩ := reserve_ok h
  · cases hrequest.symm.trans he
  · cases hrequest.symm.trans hrequest'
    rw [requestScope_eq hstate] at hcase
    obtain ⟨-, hstored⟩ | ⟨decided, -, -, rfl⟩ := hcase
    · unfold SpendLedger.stored at hstored
      rw [hfresh] at hstored
      cases hstored
    · exact Dict.get?_set_self ..

theorem settle_fresh {L next : SpendLedger} {caller poolId : String} {document : Json}
    {now : Datetime} {response data : Members} {body : Settlement}
    (hvalid : validateSettlement document = .ok (data, poolId, body))
    (hfresh : L.operations.get? (settleScope caller poolId body) = none)
    (h : L.settle caller document now = .ok (next, response)) :
    next.operations.get? (settleScope caller poolId body) =
      some (digestOf (("caller", .str caller) :: data), response) := by
  obtain ⟨-, e, he⟩ | ⟨data', poolId', body', hvalid', hcase⟩ := settle_ok h
  · cases hvalid.symm.trans he
  · cases hvalid.symm.trans hvalid'
    obtain ⟨-, hstored⟩ | ⟨charged, -, -, rfl⟩ := hcase
    · unfold SpendLedger.stored at hstored
      rw [hfresh] at hstored
      cases hstored
    · exact Dict.get?_set_self ..

/-! ## One grant, one charge -/

omit [Readers] in
/-- The reservation id a row grants. -/
def grantId (row : EventRow) : Option String :=
  match row.event with
  | .grant body => some body.reservationId
  | _ => none

omit [Readers] in
/-- The pool, reservation and usage reference a row charges. -/
def chargeKey (row : EventRow) : Option (String × String × String) :=
  match row.event with
  | .settlement body => some (row.poolId, body.reservationId, body.usageRef)
  | _ => none

/-- The stored scopes have distinct reservation ids. -/
def ScopesDistinct (L : SpendLedger) : Prop :=
  ∀ s t, L.operations.contains s → L.operations.contains t →
    reservationIdOf s = reservationIdOf t → s = t

/-- Every grant is of a stored scope, and every charge is stored under the
scope of the caller its reservation was granted to. -/
structure Keyed (L : SpendLedger) : Prop where
  grants : ∀ row ∈ L.events, ∀ body, row.event = .grant body →
    ∃ s, L.operations.contains s ∧ reservationIdOf s = body.reservationId
  charges : ∀ row ∈ L.events, ∀ body, row.event = .settlement body →
    ∃ granted ∈ L.events, ∃ grant, granted.event = .grant grant ∧
      grant.reservationId = body.reservationId ∧
      L.operations.contains (settleScope grant.caller row.poolId body)
  grants_nodup : (L.events.filterMap grantId).Nodup
  charges_nodup : (L.events.filterMap chargeKey).Nodup

section

omit [Readers]

theorem eq_of_nodup_filterMap {α β : Type} {f : α → Option β} {l : List α} {a b : α} {k : β}
    (h : (l.filterMap f).Nodup) (ha : a ∈ l) (hb : b ∈ l) (hka : f a = some k)
    (hkb : f b = some k) : a = b := by
  induction l with
  | nil => cases ha
  | cons first rest ih =>
    have hfirst : f first = some k → k ∉ rest.filterMap f := by
      intro hk
      rw [List.filterMap_cons_some hk] at h
      exact (List.nodup_cons.mp h).1
    by_cases hfa : a = first
    · by_cases hfb : b = first
      · rw [hfa, hfb]
      · have hlater := List.mem_of_ne_of_mem hfb hb
        exact absurd (List.mem_filterMap.mpr ⟨b, hlater, hkb⟩) (hfirst (hfa ▸ hka))
    · have hlater := List.mem_of_ne_of_mem hfa ha
      by_cases hfb : b = first
      · exact absurd (List.mem_filterMap.mpr ⟨a, hlater, hka⟩) (hfirst (hfb ▸ hkb))
      · refine ih (h.sublist ?_) hlater (List.mem_of_ne_of_mem hfb hb)
        exact (List.sublist_cons_self first rest).filterMap f

theorem nodup_filterMap_append {α β : Type} {f : α → Option β} {l : List α} {a : α}
    (h : (l.filterMap f).Nodup) (hnew : ∀ k, f a = some k → k ∉ l.filterMap f) :
    ((l ++ [a]).filterMap f).Nodup := by
  rw [List.filterMap_append]
  cases hk : f a with
  | none =>
    rw [List.filterMap_cons_none hk, List.filterMap_nil, List.append_nil]
    exact h
  | some k =>
    rw [List.filterMap_cons_some hk, List.filterMap_nil, ← List.concat_eq_append]
    exact h.concat (hnew k hk)

theorem Keeps.contains {L next : SpendLedger} (h : Keeps L next) {s : String}
    (hs : L.operations.contains s) : next.operations.contains s := by
  obtain ⟨row, hrow⟩ := Option.isSome_iff_exists.mp hs
  exact Option.isSome_iff_exists.mpr ⟨row, h s row hrow⟩

theorem not_contains {L : SpendLedger} {s : String} (h : L.operations.get? s = none) :
    ¬ L.operations.contains s := by
  simp [Dict.contains, h]

theorem grantId_eq {row : EventRow} {rid : String} (h : grantId row = some rid) :
    ∃ body, row.event = .grant body ∧ body.reservationId = rid := by
  unfold grantId at h
  split at h
  · rename_i body hbody
    exact ⟨body, hbody, Option.some.inj h⟩
  · cases h

theorem chargeKey_eq {row : EventRow} {key : String × String × String}
    (h : chargeKey row = some key) :
    ∃ body, row.event = .settlement body ∧ key = (row.poolId, body.reservationId, body.usageRef) := by
  unfold chargeKey at h
  split at h
  · rename_i body hbody
    exact ⟨body, hbody, (Option.some.inj h).symm⟩
  · cases h

end

namespace Keyed

variable {L next : SpendLedger} {row : EventRow}

/-- A grant under an unused scope is of a new reservation. -/
theorem fresh_grant (h : Keyed L) (hkeeps : Keeps L next) (hdistinct : ScopesDistinct next)
    {s : String} (hs : next.operations.contains s) (hfresh : L.operations.get? s = none) :
    reservationIdOf s ∉ L.events.filterMap grantId := by
  intro hmem
  obtain ⟨old, hold, hid⟩ := List.mem_filterMap.mp hmem
  obtain ⟨body, hbody, hsame⟩ := grantId_eq hid
  obtain ⟨t, ht, heq⟩ := h.grants old hold body hbody
  have hst := hdistinct t s (hkeeps.contains ht) hs (heq.trans hsame)
  rw [hst] at ht
  exact not_contains hfresh ht

/-- A charge under an unused scope is of a new usage reference. -/
theorem fresh_charge (h : Keyed L) {granted : EventRow} {grant : Grant} {poolId : String}
    {body : Settlement} (hgranted : granted ∈ L.events) (hgrant : granted.event = .grant grant)
    (hid : grant.reservationId = body.reservationId)
    (hfresh : L.operations.get? (settleScope grant.caller poolId body) = none) :
    (poolId, body.reservationId, body.usageRef) ∉ L.events.filterMap chargeKey := by
  intro hmem
  obtain ⟨old, hold, hkey⟩ := List.mem_filterMap.mp hmem
  obtain ⟨oldBody, hbody, hkeys⟩ := chargeKey_eq hkey
  obtain ⟨hpool, hkeys⟩ := Prod.mk.inj hkeys
  obtain ⟨hrid, href⟩ := Prod.mk.inj hkeys
  obtain ⟨granted', hgranted', grant', hgrant', hid', hs⟩ := h.charges old hold oldBody hbody
  -- both reservations are the one grant, so the callers are the same
  have hsame : granted' = granted := by
    apply eq_of_nodup_filterMap h.grants_nodup hgranted' hgranted
    · show grantId granted' = some body.reservationId
      rw [grantId, hgrant', hrid, ← hid']
    · rw [grantId, hgrant, ← hid]
  rw [hsame, hgrant] at hgrant'
  cases hgrant'
  have hscope : settleScope grant.caller old.poolId oldBody =
      settleScope grant.caller poolId body := by
    unfold settleScope
    rw [hpool, hrid, href]
  rw [hscope] at hs
  exact not_contains hfresh hs

/-- One more row keeps the ledger keyed where a grant, and a charge, is
stored under a scope that was unused. -/
theorem append (h : Keyed L) (hkeeps : Keeps L next) (hdistinct : ScopesDistinct next)
    (hevents : next.events = L.events ++ [row])
    (hgrant : ∀ body, row.event = .grant body → ∃ s, next.operations.contains s ∧
      reservationIdOf s = body.reservationId ∧ L.operations.get? s = none)
    (hcharge : ∀ body, row.event = .settlement body → ∃ granted ∈ L.events, ∃ grant,
      granted.event = .grant grant ∧ grant.reservationId = body.reservationId ∧
      next.operations.contains (settleScope grant.caller row.poolId body) ∧
      L.operations.get? (settleScope grant.caller row.poolId body) = none) : Keyed next := by
  have hnew : ∀ {r : EventRow}, r ∈ next.events → r ∈ L.events ∨ r = row := by
    intro r hr
    rw [hevents] at hr
    rcases List.mem_append.mp hr with hr | hr
    · exact .inl hr
    · exact .inr (List.mem_singleton.mp hr)
  have hold : ∀ {r : EventRow}, r ∈ L.events → r ∈ next.events := by
    intro r hr
    rw [hevents]
    exact List.mem_append_left _ hr
  constructor
  · intro r hr body hbody
    rcases hnew hr with hr | rfl
    · obtain ⟨s, hs, hid⟩ := h.grants r hr body hbody
      exact ⟨s, hkeeps.contains hs, hid⟩
    · obtain ⟨s, hs, hid, -⟩ := hgrant body hbody
      exact ⟨s, hs, hid⟩
  · intro r hr body hbody
    rcases hnew hr with hr | rfl
    · obtain ⟨granted, hmem, grant, hgranted, hid, hs⟩ := h.charges r hr body hbody
      exact ⟨granted, hold hmem, grant, hgranted, hid, hkeeps.contains hs⟩
    · obtain ⟨granted, hmem, grant, hgranted, hid, hs, -⟩ := hcharge body hbody
      exact ⟨granted, hold hmem, grant, hgranted, hid, hs⟩
  · rw [hevents]
    refine nodup_filterMap_append h.grants_nodup fun rid hrid => ?_
    obtain ⟨body, hbody, rfl⟩ := grantId_eq hrid
    obtain ⟨s, hs, hid, hfresh⟩ := hgrant body hbody
    rw [← hid]
    exact h.fresh_grant hkeeps hdistinct hs hfresh
  · rw [hevents]
    refine nodup_filterMap_append h.charges_nodup fun key hkey => ?_
    obtain ⟨body, hbody, rfl⟩ := chargeKey_eq hkey
    obtain ⟨granted, hmem, grant, hgranted, hid, -, hfresh⟩ := hcharge body hbody
    exact h.fresh_charge hmem hgranted hid hfresh

/-- One more row that neither grants nor charges keeps the ledger keyed. -/
theorem other (h : Keyed L) (hkeeps : Keeps L next) (hdistinct : ScopesDistinct next)
    (hevents : next.events = L.events ++ [row]) (hgrant : grantId row = none)
    (hcharge : chargeKey row = none) : Keyed next := by
  refine h.append hkeeps hdistinct hevents ?_ ?_
  · intro body hbody
    simp [grantId, hbody] at hgrant
  · intro body hbody
    simp [chargeKey, hbody] at hcharge

end Keyed

omit [Readers] in
theorem settle_caller {r charged : Reservation} {body : Settlement}
    (h : r.settle body = .ok charged) : charged.caller = r.caller := by
  unfold Reservation.settle at h
  obtain ⟨settled, -, h⟩ := bind_ok h
  cases h
  rfl

/-- A reservation has the caller of the grant that opened it. -/
theorem foldEvent_caller {state next : PoolState} {event : Event}
    (h : foldEvent state event = .ok next) {rid : String} {r : Reservation}
    (hr : next.reservations.get? rid = some r) :
    (∃ grant, event = .grant grant ∧ grant.reservationId = rid ∧ grant.caller = r.caller) ∨
      ∃ old, state.reservations.get? rid = some old ∧ old.caller = r.caller := by
  cases event with
  | poolConfig body =>
    obtain ⟨config, -, rfl⟩ := foldEvent_poolConfig h
    exact .inr ⟨r, hr, rfl⟩
  | grant body =>
    obtain ⟨config, -, -, rfl⟩ := foldEvent_grant h
    change (state.reservations.set _ _).get? rid = some r at hr
    by_cases hid : body.reservationId = rid
    · rw [hid, Dict.get?_set_self] at hr
      cases hr
      exact .inl ⟨body, rfl, hid, rfl⟩
    · rw [Dict.get?_set_ne _ _ hid] at hr
      exact .inr ⟨r, hr, rfl⟩
  | settlement body =>
    obtain ⟨old, charged, hold, hcharged, rfl⟩ := foldEvent_settlement h
    change (state.reservations.set _ _).get? rid = some r at hr
    by_cases hid : body.reservationId = rid
    · rw [hid, Dict.get?_set_self] at hr
      cases hr
      exact .inr ⟨old, hid ▸ hold, (settle_caller hcharged).symm⟩
    · rw [Dict.get?_set_ne _ _ hid] at hr
      exact .inr ⟨r, hr, rfl⟩
  | refusal caller reason request =>
    cases h
    exact .inr ⟨r, hr, rfl⟩
  | reconciliation body =>
    obtain ⟨old, hold, rfl⟩ := foldEvent_reconciliation h
    change (state.reservations.set _ _).get? rid = some r at hr
    by_cases hid : body.reservationId = rid
    · rw [hid, Dict.get?_set_self] at hr
      cases hr
      exact .inr ⟨old, hid ▸ hold, rfl⟩
    · rw [Dict.get?_set_ne _ _ hid] at hr
      exact .inr ⟨r, hr, rfl⟩
  | ownerRevocation body =>
    cases h
    exact .inr ⟨r, hr, rfl⟩

theorem fold_caller {events : List Event} {state : PoolState} (h : fold events = .ok state)
    {rid : String} {r : Reservation} (hr : state.reservations.get? rid = some r) :
    ∃ grant, .grant grant ∈ events ∧ grant.reservationId = rid ∧ grant.caller = r.caller := by
  induction events using List.reverseRecOn generalizing state r with
  | nil =>
    cases h
    cases hr
  | append_singleton events event ih =>
    obtain ⟨before, hbefore, hlast⟩ := fold_append h
    obtain ⟨grant, rfl, hid, hcaller⟩ | ⟨old, hold, hcaller⟩ :=
      foldEvent_caller (fold_singleton hlast) hr
    · exact ⟨grant, by simp, hid, hcaller⟩
    · obtain ⟨grant, hmem, hid, hsame⟩ := ih hbefore hold
      exact ⟨grant, List.mem_append_left _ hmem, hid, hsame.trans hcaller⟩

namespace Keyed

variable {L next : SpendLedger} {response : Members}

theorem reserve (h : Keyed L) {caller : String} {document : Json} {now : Datetime}
    (hkeeps : Keeps L next) (hdistinct : ScopesDistinct next)
    (hanswer : L.reserve caller document now = .ok (next, response)) : Keyed next := by
  obtain ⟨rfl, -⟩ | ⟨request, state, -, -, ⟨rfl, -⟩ | ⟨decided, hfresh, hdecided, rfl⟩⟩ :=
    reserve_ok hanswer
  · exact h
  · exact h
  · obtain ⟨reason, rfl⟩ | ⟨-, config, body, -, -, -, -, hid, rfl⟩ := decideRequest_ok hdecided
    · exact h.other hkeeps hdistinct rfl rfl rfl
    · refine h.append hkeeps hdistinct rfl ?_ nofun
      intro granted hgranted
      cases hgranted
      refine ⟨_, ?_, hid.symm, hfresh⟩
      exact Option.isSome_iff_exists.mpr ⟨_, Dict.get?_set_self ..⟩

theorem settle (h : Keyed L) {caller : String} {document : Json} {now : Datetime}
    (hkeeps : Keeps L next) (hdistinct : ScopesDistinct next)
    (hanswer : L.settle caller document now = .ok (next, response)) : Keyed next := by
  obtain ⟨rfl, -⟩ | ⟨data, poolId, body, -, ⟨rfl, -⟩ | ⟨charged, hfresh, hcharged, rfl⟩⟩ :=
    settle_ok hanswer
  · exact h
  · exact h
  · obtain ⟨reason, rfl⟩ | ⟨state, r, hstate, hr, hcaller, -, -, rfl⟩ := charge_ok hcharged
    · exact h.other hkeeps hdistinct rfl rfl rfl
    · refine h.append hkeeps hdistinct rfl nofun ?_
      intro settled hsettled
      cases hsettled
      obtain ⟨grant, hgrant, hid, hgranted⟩ := fold_caller hstate hr
      obtain ⟨row, hrow, hevent⟩ := List.mem_map.mp hgrant
      rw [hcaller] at hgranted
      rw [← hgranted] at hfresh
      refine ⟨row, (List.mem_filter.mp hrow).1, grant, hevent, hid, ?_, hfresh⟩
      rw [hgranted]
      exact Option.isSome_iff_exists.mpr ⟨_, Dict.get?_set_self ..⟩

theorem step (h : Keyed L) {call : Call} (hdistinct : ScopesDistinct (L.step call)) :
    Keyed (L.step call) := by
  have hkeeps := step_keeps L call
  unfold SpendLedger.step at hkeeps hdistinct ⊢
  cases hanswer : L.answer call with
  | error e => exact h
  | ok result =>
    obtain ⟨next, response⟩ := result
    rw [hanswer] at hkeeps hdistinct
    cases call with
    | configure document now =>
      obtain ⟨pool, body, rfl⟩ := configure_ok hanswer
      exact h.other hkeeps hdistinct rfl rfl rfl
    | reserve caller document now => exact h.reserve hkeeps hdistinct hanswer
    | settle caller document now => exact h.settle hkeeps hdistinct hanswer
    | reconcile document now =>
      obtain ⟨pool, body, state, r, -, -, -, -, rfl⟩ := reconcile_ok hanswer
      exact h.other hkeeps hdistinct rfl rfl rfl
    | query caller document =>
      rw [query_keeps hanswer]
      exact h
    | recordRevocation pool verified now =>
      obtain rfl | ⟨revocation, rfl⟩ := recordRevocation_ok hanswer
      · exact h
      · exact h.other hkeeps hdistinct rfl rfl rfl
    | failOver pool verified now =>
      obtain ⟨revocation, body, rfl⟩ := failOver_ok hanswer
      have hrevoked : Keyed (L.append pool (.ownerRevocation revocation) now).1 :=
        h.other (.refl L) hdistinct rfl rfl rfl
      exact hrevoked.other (.refl _) hdistinct rfl rfl rfl
    | reopen ownerHubId =>
      cases hanswer
      exact ⟨h.grants, h.charges, h.grants_nodup, h.charges_nodup⟩

end Keyed

omit [Readers] in
theorem Keeps.distinct [Readers] {L next : SpendLedger} (h : Keeps L next)
    (hdistinct : ScopesDistinct next) : ScopesDistinct L :=
  fun s t hs ht => hdistinct s t (h.contains hs) (h.contains ht)

theorem run_keyed (ownerHubId : String) (calls : List Call)
    (hdistinct : ScopesDistinct (run ownerHubId calls)) : Keyed (run ownerHubId calls) := by
  induction calls using List.reverseRecOn with
  | nil =>
    constructor
    · intro row hrow
      cases hrow
    · intro row hrow
      cases hrow
    · exact List.nodup_nil
    · exact List.nodup_nil
  | append_singleton calls call ih =>
    rw [run_append] at hdistinct ⊢
    exact (ih ((step_keeps _ call).distinct hdistinct)).step hdistinct

/-! ## Retries in a run -/

/-- A request with the same idempotency key. -/
def SameKey (request changed : ReservationRequest) : Prop :=
  changed.poolId = request.poolId ∧ changed.seat = request.seat ∧ changed.task = request.task ∧
    changed.operation = request.operation ∧ changed.key = request.key

omit [Readers] in
/-- The ledger's tables after `before` and one more call are a part of
those at the end of the run. -/
theorem run_keeps_step [Readers] {ownerHubId : String} {before after : List Call} {call : Call}
    {next : SpendLedger} {response : Members}
    (h : (run ownerHubId before).answer call = .ok (next, response)) :
    Keeps next (run ownerHubId (before ++ call :: after)) := by
  have hstep : run ownerHubId (before ++ [call]) = next := by
    rw [run_append, SpendLedger.step, h]
  have hkeeps := run_keeps ownerHubId (before ++ [call]) after
  rw [hstep, List.append_assoc] at hkeeps
  exact hkeeps

section
variable {ownerHubId caller : String} {before after : List Call} {document : Json}
  {now : Datetime} {request : ReservationRequest} {next : SpendLedger} {response : Members}

/-- An identical reservation under the same window repeats the first answer
exactly while the pool is legible. -/
theorem retry_iff (hrequest : validateRequest document = .ok request)
    (hfirst : (run ownerHubId before).reserve caller document now = .ok (next, response))
    (hwindow : windowOf ((run ownerHubId (before ++ .reserve caller document now :: after)).poolEvents
      request.poolId) = windowOf ((run ownerHubId before).poolEvents request.poolId))
    (retried : Datetime) :
    let L := run ownerHubId (before ++ .reserve caller document now :: after)
    L.answer (.reserve caller document retried) = .ok (L, response) ↔
      ∀ event ∈ L.poolEvents request.poolId, event.Legible := by
  intro L
  have hstored := (@run_keeps_step _ _ _ after (.reserve caller document now) _ _
    hfirst).stored (reserve_stored hrequest hfirst)
  have hscope : scopeOf (run ownerHubId before) caller request = scopeOf L caller request := by
    unfold scopeOf
    rw [hwindow]
  rw [hscope] at hstored
  show L.reserve caller document retried = .ok (L, response) ↔ _
  rw [reserve_again_iff hrequest hstored, run_fold_ok_iff]

/-- A changed reservation under a used scope is a conflict exactly while
the pool is legible. -/
theorem changed_iff (hrequest : validateRequest document = .ok request)
    (hfresh : (run ownerHubId before).operations.get?
      (scopeOf (run ownerHubId before) caller request) = none)
    (hfirst : (run ownerHubId before).reserve caller document now = .ok (next, response))
    (hwindow : windowOf ((run ownerHubId (before ++ .reserve caller document now :: after)).poolEvents
      request.poolId) = windowOf ((run ownerHubId before).poolEvents request.poolId))
    {other : Json} {changed : ReservationRequest} (hother : validateRequest other = .ok changed)
    (hkey : SameKey request changed) (hchanged : request.document ≠ changed.document)
    (hfree : NoCollision [requestText caller request, requestText caller changed])
    (retried : Datetime) :
    let L := run ownerHubId (before ++ .reserve caller document now :: after)
    L.answer (.reserve caller other retried) = .ok (L, conflict "admitted") ↔
      ∀ event ∈ L.poolEvents request.poolId, event.Legible := by
  intro L
  have hrow := @run_keeps_step _ _ _ after (.reserve caller document now) _ _ hfirst _ _
    (reserve_fresh hrequest hfresh hfirst)
  have hscope : scopeOf (run ownerHubId before) caller request = scopeOf L caller changed := by
    obtain ⟨hpool, hseat, htask, hoperation, hkey⟩ := hkey
    unfold scopeOf
    rw [hpool, hseat, htask, hoperation, hkey, hwindow]
  rw [hscope] at hrow
  have hstored := @stored_changed _ _ _ _ "admitted" _ hrow (requestDigest_ne hfree hchanged)
  show L.reserve caller other retried = .ok (L, conflict "admitted") ↔ _
  rw [reserve_again_iff hother hstored, run_fold_ok_iff, hkey.1]

variable {data : Members} {poolId : String} {body : Settlement}

theorem settle_retry (hvalid : validateSettlement document = .ok (data, poolId, body))
    (hfirst : (run ownerHubId before).settle caller document now = .ok (next, response))
    (retried : Datetime) :
    let L := run ownerHubId (before ++ .settle caller document now :: after)
    L.answer (.settle caller document retried) = .ok (L, response) := by
  intro L
  have hkeeps := @run_keeps_step _ _ _ after (.settle caller document now) _ _ hfirst
  exact settle_again hvalid (hkeeps.stored (settle_stored hvalid hfirst))

theorem settle_changed (hvalid : validateSettlement document = .ok (data, poolId, body))
    (hfresh : (run ownerHubId before).operations.get? (settleScope caller poolId body) = none)
    (hfirst : (run ownerHubId before).settle caller document now = .ok (next, response))
    {other : Json} {changed : Members} {charge : Settlement}
    (hother : validateSettlement other = .ok (changed, poolId, charge))
    (hscope : settleScope caller poolId charge = settleScope caller poolId body)
    (hchanged : settlementText caller data ≠ settlementText caller changed)
    (hfree : NoCollision [settlementText caller data, settlementText caller changed])
    (retried : Datetime) :
    let L := run ownerHubId (before ++ .settle caller document now :: after)
    L.answer (.settle caller other retried) = .ok (L, conflict "settled") := by
  intro L
  have hrow := @run_keeps_step _ _ _ after (.settle caller document now) _ _ hfirst _ _
    (settle_fresh hvalid hfresh hfirst)
  have hdigest : digestOf (("caller", .str caller) :: data) ≠
      digestOf (("caller", .str caller) :: changed) := by
    intro heq
    exact hchanged (hfree _ (by simp) _ (by simp) heq)
  rw [← hscope] at hrow
  exact settle_again hother (stored_changed hrow hdigest)

end

/-! ## Exactly once -/

/-- What a ledger owes a request it answered: an identical one the same
answer, and a changed one under its key a conflict, with no event. -/
structure AnswersAgain (L : SpendLedger) (caller : String) (document : Json)
    (request : ReservationRequest) (response : Members) (fresh : Prop) : Prop where
  identical : ∀ now, L.answer (.reserve caller document now) = .ok (L, response)
  changed : fresh → ∀ other changed, validateRequest other = .ok changed →
    SameKey request changed → request.document ≠ changed.document →
    NoCollision [requestText caller request, requestText caller changed] →
    ∀ now, L.answer (.reserve caller other now) = .ok (L, conflict "admitted")

/-- What a ledger owes a settlement it answered. -/
structure SettlesAgain (L : SpendLedger) (caller : String) (document : Json) (data : Members)
    (poolId : String) (body : Settlement) (response : Members) (fresh : Prop) : Prop where
  identical : ∀ now, L.answer (.settle caller document now) = .ok (L, response)
  changed : fresh → ∀ other changed charge,
    validateSettlement other = .ok (changed, poolId, charge) →
    charge.reservationId = body.reservationId → charge.usageRef = body.usageRef →
    settlementText caller data ≠ settlementText caller changed →
    NoCollision [settlementText caller data, settlementText caller changed] →
    ∀ now, L.answer (.settle caller other now) = .ok (L, conflict "settled")

/-- In every run a scope is granted at most once, a usage reference is
charged at most once, and settlements are answered again. A reservation
made under the window still in force is answered again exactly while every
event of its pool is legible. -/
theorem answered_again_iff (ownerHubId : String) (calls : List Call)
    (hdistinct : ScopesDistinct (run ownerHubId calls)) :
    let L := run ownerHubId calls
    (∀ caller poolId window seat task operation key,
      (L.events.filterMap grantId).count (reservationIdOf
        (scope ["reserve", caller, poolId, window, seat, task, operation, key])) ≤ 1) ∧
    (∀ poolId reservationId usageRef,
      (L.events.filterMap chargeKey).count (poolId, reservationId, usageRef) ≤ 1) ∧
    (∀ before after caller document now data poolId body next response,
      calls = before ++ .settle caller document now :: after →
      validateSettlement document = .ok (data, poolId, body) →
      (run ownerHubId before).settle caller document now = .ok (next, response) →
      SettlesAgain L caller document data poolId body response
        ((run ownerHubId before).operations.get? (settleScope caller poolId body) = none)) ∧
    ∀ before after caller document now request next response,
      calls = before ++ .reserve caller document now :: after →
      validateRequest document = .ok request →
      (run ownerHubId before).reserve caller document now = .ok (next, response) →
      windowOf (L.poolEvents request.poolId) =
        windowOf ((run ownerHubId before).poolEvents request.poolId) →
      (AnswersAgain L caller document request response
          ((run ownerHubId before).operations.get?
            (scopeOf (run ownerHubId before) caller request) = none) ↔
        ∀ event ∈ L.poolEvents request.poolId, event.Legible) := by
  intro L
  have hkeyed := run_keyed ownerHubId calls hdistinct
  refine ⟨?_, ?_, ?_, ?_⟩
  · intro caller poolId window seat task operation key
    exact List.nodup_iff_count_le_one.mp hkeyed.grants_nodup _
  · intro poolId reservationId usageRef
    exact List.nodup_iff_count_le_one.mp hkeyed.charges_nodup _
  · rintro before after caller document now data poolId body next response rfl hvalid hfirst
    constructor
    · exact settle_retry hvalid hfirst
    · intro hfresh other changed charge hother hid href hchanged hfree
      refine settle_changed hvalid hfresh hfirst hother ?_ hchanged hfree
      rw [settleScope, hid, href, settleScope]
  · rintro before after caller document now request next response rfl hrequest hfirst hwindow
    constructor
    · intro h
      exact (retry_iff hrequest hfirst hwindow now).mp (h.identical now)
    · intro hlegible
      constructor
      · intro retried
        exact (retry_iff hrequest hfirst hwindow retried).mpr hlegible
      · intro hfresh other changed hother hkey hchanged hfree retried
        exact (changed_iff hrequest hfresh hfirst hwindow hother hkey hchanged hfree retried).mpr
          hlegible

theorem scopesDistinct_of_nodup {L : SpendLedger}
    (h : (L.operations.keys.map reservationIdOf).Nodup) : ScopesDistinct L := by
  intro s t hs ht heq
  have hkey : ∀ u, L.operations.contains u → u ∈ L.operations.keys := by
    intro u hu
    exact (Dict.mem_keys_iff _ u).mpr (Option.isSome_iff_ne_none.mp hu)
  exact List.inj_on_of_nodup_map h (hkey s hs) (hkey t ht) heq

/-! ## A window that ends on a fraction of a second -/

/-- 2027-01-01T00:00:00.100+01:02:03.400000, whose ISO text has 42 characters. -/
def fractionalEnd : Datetime :=
  ⟨739981 * microsPerDay + 100000, 3723400000, by decide, by decide⟩

omit [Readers] in
theorem utc_lt : (0 : Int).natAbs < microsPerDay := by decide

/-- Ten seconds before. -/
def beforeEnd : Datetime := ⟨739981 * microsPerDay - 3733400000, 0, by decide, utc_lt⟩

omit [Readers] in
/-- The grant that expires with such a window is recorded, and then its
identical retry raises. -/
theorem retry_after_fractional_expiry :
    letI := Readers.listed [("2026-12-01T00:00:00+00:00", midnight 739950),
      ("2027-01-01T00:00:00.100+01:02:03.400000", fractionalEnd)]
    let configured : Call :=
      .configure (smallPool "2027-01-01T00:00:00.100+01:02:03.400000") (midnight 739960)
    let reserved : Call := .reserve "A" (smallRequest "k" "5") beforeEnd
    let before := run "hub" [configured]
    let L := run "hub" [configured, reserved]
    (∃ result, before.answer reserved = .ok result) ∧
      (L.poolEvents "pool").map Event.kind = ["pool_config", "grant"] ∧
      windowOf (L.poolEvents "pool") = windowOf (before.poolEvents "pool") ∧
      ∀ result, L.answer reserved ≠ .ok result := by
  let _ := Readers.listed [("2026-12-01T00:00:00+00:00", midnight 739950),
    ("2027-01-01T00:00:00.100+01:02:03.400000", fractionalEnd)]
  intro configured reserved before L
  refine ⟨exists_ok_of_isSome (by decide +kernel), by decide +kernel, by decide +kernel, ?_⟩
  exact not_ok_of_isNone (by decide +kernel)

omit [Readers] in
/-- In a window that ends on a whole second the retry is answered again. -/
theorem answered_again_iff_small_pool :
    letI := Readers.listed [("2026-12-01T00:00:00+00:00", midnight 739950),
      ("2027-01-01T00:00:00+00:00", midnight 739981)]
    let configured : Call := .configure (smallPool "2027-01-01T00:00:00+00:00") (midnight 739960)
    let reserved : Call := .reserve "A" (smallRequest "k" "5") (midnight 739960)
    let L := run "hub" [configured, reserved]
    (L.poolEvents "pool").map Event.kind = ["pool_config", "grant"] ∧
      ∃ response, ∀ now,
        L.answer (.reserve "A" (smallRequest "k" "5") now) = .ok (L, response) := by
  let _ := Readers.listed [("2026-12-01T00:00:00+00:00", midnight 739950),
    ("2027-01-01T00:00:00+00:00", midnight 739981)]
  intro configured reserved L
  refine ⟨by decide +kernel, ?_⟩
  have hdistinct : ScopesDistinct L := scopesDistinct_of_nodup (by decide +kernel)
  have hvalid : (validateRequest (smallRequest "k" "5")).toOption.isSome := by decide +kernel
  obtain ⟨request, hrequest⟩ := exists_ok_of_isSome hvalid
  have hpool : request.poolId = "pool" := by
    have hread : (validateRequest (smallRequest "k" "5")).toOption.map (·.poolId) = some "pool" := by
      decide +kernel
    rw [hrequest] at hread
    exact Option.some.inj hread
  have hanswered : ((run "hub" [configured]).reserve "A" (smallRequest "k" "5")
      (midnight 739960)).toOption.isSome := by decide +kernel
  obtain ⟨⟨next, response⟩, hfirst⟩ := exists_ok_of_isSome hanswered
  have hfolds : (fold (L.poolEvents "pool")).toOption.isSome := by decide +kernel
  obtain ⟨state, hstate⟩ := exists_ok_of_isSome hfolds
  have hlegible := (run_fold_ok_iff "hub" "pool" [configured, reserved]).mp ⟨state, hstate⟩
  have hagain := (answered_again_iff "hub" [configured, reserved] hdistinct).2.2.2 [configured] [] "A"
    (smallRequest "k" "5") (midnight 739960) request next response rfl hrequest hfirst
    (by rw [hpool]; decide +kernel)
  rw [hpool] at hagain
  exact ⟨response, (hagain.mpr hlegible).identical⟩

end SynapseChannel.Spend
