import SynapseChannel.Core.SpendLedger

/-!
# Core — SpendBound

A shared pool never charges and holds more than its hard bound plus what
reservations were settled above their exposure. Each reservation commits
its exposure while it is open and the smaller of its exposure and its
charge once closed; the sum of these is what admission bounds.
-/

namespace SynapseChannel.Spend

open Py Outcome

/-! ## Charges of one reservation -/

namespace Reservation

/-- What the reservation still holds, exactly. -/
def held (r : Reservation) : ℚ := if r.closed then 0 else max (r.exposure.value - r.settled.value) 0

/-- What was settled above the exposure. -/
def excess (r : Reservation) : ℚ := max 0 (r.settled.value - r.exposure.value)

/-- What the reservation takes from the bound. -/
def committed (r : Reservation) : ℚ :=
  if r.closed then min r.settled.value r.exposure.value else r.exposure.value

/-- Charged and held is committed and excess. -/
theorem settled_add_held (r : Reservation) : r.settled.value + r.held = r.committed + r.excess := by
  unfold held committed excess
  by_cases hle : r.settled.value ≤ r.exposure.value
  · have hheld : max (r.exposure.value - r.settled.value) 0 = r.exposure.value - r.settled.value :=
      max_eq_left (by linarith)
    have hexcess : max 0 (r.settled.value - r.exposure.value) = 0 := max_eq_left (by linarith)
    rw [hheld, hexcess, min_eq_left hle]
    split <;> ring
  · have hlt : r.exposure.value < r.settled.value := not_le.mp hle
    have hheld : max (r.exposure.value - r.settled.value) 0 = 0 := max_eq_right (by linarith)
    have hexcess : max 0 (r.settled.value - r.exposure.value) =
        r.settled.value - r.exposure.value := max_eq_right (by linarith)
    rw [hheld, hexcess, min_eq_right hlt.le]
    split <;> ring

theorem excess_nonneg (r : Reservation) : 0 ≤ r.excess := le_max_left _ _

theorem openExposure_value {r : Reservation} {d : Decimal} (h : r.openExposure = .ok d) :
    d.value = r.held := by
  unfold openExposure at h
  unfold held
  by_cases hclosed : r.closed = true
  · rw [if_pos hclosed] at h ⊢
    cases h
    exact Decimal.value_zero
  · rw [if_neg hclosed] at h ⊢
    cases hsub : r.exposure.sub r.settled with
    | error e =>
      rw [hsub] at h
      cases h
    | ok difference =>
      rw [hsub] at h
      cases h
      rw [Decimal.value_max, Decimal.value_sub hsub, Decimal.value_zero]

/-- What every recorded reservation satisfies. -/
structure Sound (r : Reservation) : Prop where
  exposure_nonneg : 0 ≤ r.exposure.value
  settled_nonneg : 0 ≤ r.settled.value
  overrun : r.overrunOpen = true → r.exposure.value < r.settled.value

theorem Sound.committed_nonneg {r : Reservation} (h : r.Sound) : 0 ≤ r.committed := by
  unfold committed
  split
  · exact le_min h.settled_nonneg h.exposure_nonneg
  · exact h.exposure_nonneg

/-- A settlement of an open reservation commits no more, and flags an overrun. -/
theorem settle_spec {r next : Reservation} {body : Settlement} (hr : r.Sound)
    (hopen : r.closed = false) (hamount : 0 ≤ body.amount.value)
    (h : r.settle body = .ok next) :
    next.Sound ∧ next.committed ≤ r.committed ∧ next.window = r.window ∧
      (r.overrunOpen = true → next.overrunOpen = true) := by
  unfold settle at h
  obtain ⟨settled, hsettled, h⟩ := bind_ok h
  cases h
  have hvalue := Decimal.value_add hsettled
  have hnonneg := hr.settled_nonneg
  refine ⟨⟨hr.exposure_nonneg, ?_, ?_⟩, ?_, rfl, ?_⟩
  · show 0 ≤ settled.value
    linarith
  · intro hflag
    show r.exposure.value < settled.value
    simp only [Bool.or_eq_true, decide_eq_true_eq] at hflag
    rcases hflag with hold | hnew
    · have := hr.overrun hold
      linarith
    · exact hnew
  · unfold committed
    rw [hopen]
    dsimp only
    split
    · exact min_le_right _ _
    · exact le_rfl
  · intro hold
    simp [hold]

/-- A reconciliation of an open or overrun reservation commits no more. -/
theorem reconcile_spec {r : Reservation} {body : Reconciliation} (hr : r.Sound)
    (hclosed : r.closed = true → r.overrunOpen = true) (hamount : 0 ≤ body.amount.value) :
    (r.reconcile body).Sound ∧ (r.reconcile body).committed ≤ r.committed ∧
      (r.reconcile body).window = r.window := by
  refine ⟨⟨hr.exposure_nonneg, hamount, ?_⟩, ?_, rfl⟩
  · intro hflag
    cases hflag
  · show min body.amount.value r.exposure.value ≤ r.committed
    have hle := min_le_right body.amount.value r.exposure.value
    unfold committed
    by_cases hc : r.closed = true
    · rw [if_pos hc, min_eq_right (hr.overrun (hclosed hc)).le]
      exact hle
    · rw [if_neg hc]
      exact hle

end Reservation

/-! ## Charges of a pool -/

namespace PoolState

variable (state : PoolState)

/-- The sum over reservations of what was settled above their exposure. -/
def excess : ℚ := (state.reservations.values.map Reservation.excess).sum

def committed : ℚ := (state.reservations.values.map Reservation.committed).sum

/-- What reservations of `window` charged, exactly. -/
def charged (window : String) : ℚ :=
  ((state.reservations.values.filter (·.window == window)).map (·.settled.value)).sum

/-- What reservations hold, exactly. -/
def heldTotal : ℚ := (state.reservations.values.map Reservation.held).sum

variable {state}

theorem settled_value {window : String} {s : Decimal} (h : state.settled window = .ok s) :
    s.value = state.charged window := by
  rw [Decimal.value_sum h, charged, List.map_map]
  rfl

theorem mapM_openExposure {items : List Reservation} {held : List Decimal}
    (h : items.mapM Reservation.openExposure = .ok held) :
    held.map Decimal.value = items.map Reservation.held := by
  induction items generalizing held with
  | nil =>
    cases h
    rfl
  | cons r rest ih =>
    rw [List.mapM_cons] at h
    obtain ⟨d, hd, h⟩ := bind_ok h
    obtain ⟨ds, hds, h⟩ := bind_ok h
    cases h
    rw [List.map_cons, List.map_cons, ih hds, Reservation.openExposure_value hd]

theorem outstanding_value {s : Decimal} (h : state.outstanding = .ok s) :
    s.value = state.heldTotal := by
  unfold outstanding at h
  obtain ⟨held, hheld, h⟩ := bind_ok h
  rw [Decimal.value_sum h, mapM_openExposure hheld, heldTotal]

/-- Where every reservation is of one window, charged and held is
committed and excess. -/
theorem charged_add_held {window : String}
    (hwindow : ∀ r ∈ state.reservations.values, r.window = window) :
    state.charged window + state.heldTotal = state.committed + state.excess := by
  have hall : state.reservations.values.filter (·.window == window) = state.reservations.values := by
    rw [List.filter_eq_self]
    intro r hr
    rw [hwindow r hr, BEq.rfl]
  rw [charged, hall, heldTotal, committed, excess, ← List.sum_map_add, ← List.sum_map_add]
  exact congrArg List.sum (List.map_congr_left fun r _ => r.settled_add_held)

theorem excess_nonneg : 0 ≤ state.excess := by
  apply List.sum_nonneg
  intro x hx
  obtain ⟨r, -, rfl⟩ := List.mem_map.mp hx
  exact r.excess_nonneg

end PoolState

/-! ## What a validated amount is -/

section
variable [Readers]

theorem quantity_nonneg {raw : Json} {name : String} {d : Decimal}
    (h : quantity raw name = .ok d) : 0 ≤ d.value := by
  unfold quantity at h
  split at h
  · split at h
    · cases h
    · split at h
      · cases h
      · split_ifs at h with hneg
        cases h
        exact not_lt.mp hneg
      · cases h
  · cases h

/-- The amounts of a configuration are not negative. -/
structure PoolConfig.Nonneg (config : PoolConfig) : Prop where
  hardBound : 0 ≤ config.hardBound.value
  fixedFee : 0 ≤ config.fixedFee.value
  minimumCharge : 0 ≤ config.minimumCharge.value

theorem validateConfig_nonneg {document : Json} {config : PoolConfig}
    (h : validateConfig document = .ok config) : config.Nonneg := by
  unfold validateConfig at h
  obtain ⟨data, -, h⟩ := bind_ok h
  obtain ⟨basis, -, h⟩ := bind_ok h
  obtain ⟨limits, -, h⟩ := bind_ok h
  obtain ⟨epoch, -, h⟩ := bind_ok h
  obtain ⟨unit, -, h⟩ := bind_ok h
  obtain ⟨tax, -, h⟩ := bind_ok h
  split_ifs at h
  obtain ⟨starts, -, h⟩ := bind_ok h
  obtain ⟨ends, -, h⟩ := bind_ok h
  split_ifs at h
  obtain ⟨grantees, -, h⟩ := bind_ok h
  obtain ⟨cause, -, h⟩ := bind_ok h
  obtain ⟨poolId, -, h⟩ := bind_ok h
  obtain ⟨ownerHubId, -, h⟩ := bind_ok h
  obtain ⟨accountRef, -, h⟩ := bind_ok h
  obtain ⟨billingSurface, -, h⟩ := bind_ok h
  obtain ⟨priceRevision, -, h⟩ := bind_ok h
  obtain ⟨hardBound, hhardBound, h⟩ := bind_ok h
  obtain ⟨fixedFee, hfixedFee, h⟩ := bind_ok h
  obtain ⟨minimumCharge, hminimumCharge, h⟩ := bind_ok h
  obtain ⟨maxDepth, -, h⟩ := bind_ok h
  obtain ⟨maxAgents, -, h⟩ := bind_ok h
  obtain ⟨maxWallSeconds, -, h⟩ := bind_ok h
  obtain ⟨keys, -, h⟩ := bind_ok h
  cases h
  exact ⟨quantity_nonneg hhardBound, quantity_nonneg hfixedFee, quantity_nonneg hminimumCharge⟩

end

theorem PoolConfig.Nonneg.exposure {config : PoolConfig} (h : config.Nonneg) {upper d : Decimal}
    (hd : config.exposure upper = .ok d) : 0 ≤ d.value := by
  have hmin := h.minimumCharge
  have hfee := h.fixedFee
  have hmax := le_max_right upper.value config.minimumCharge.value
  rw [Decimal.value_add hd, Decimal.value_max]
  linarith

/-- An admitted request fits under the hard bound, and no overrun is open. -/
theorem refusalReason_none {ownerHubId : String} {state : PoolState} {caller : String}
    {request : ReservationRequest} {now : Datetime} {config : PoolConfig} {exposure : Decimal}
    (hconfig : state.config = some config)
    (hexposure : config.exposure request.upperBound = .ok exposure)
    (h : refusalReason ownerHubId state caller request now = .ok none) :
    state.charged config.windowId + state.heldTotal + exposure.value ≤ config.hardBound.value ∧
      ∀ r ∈ state.reservations.values, r.overrunOpen = false := by
  unfold refusalReason at h
  rw [hconfig] at h
  obtain ⟨settled, hsettled, h⟩ := bind_ok h
  obtain ⟨outstanding, houtstanding, h⟩ := bind_ok h
  obtain ⟨charged, hcharged, h⟩ := bind_ok h
  obtain ⟨exposure', hexposure', h⟩ := bind_ok h
  obtain ⟨total, htotal, h⟩ := bind_ok h
  have hsame : exposure' = exposure := (Except.ok.inj (hexposure.symm.trans hexposure')).symm
  rw [hsame] at htotal
  have hfind := Option.map_eq_none_iff.mp (Except.ok.inj h)
  rw [List.find?_eq_none] at hfind
  have hbound := hfind (decide (config.hardBound.value < total.value), "bound_exceeded")
    (by simp [admissionChecks])
  have hoverruns := hfind (!state.overruns.isEmpty, "unreconciled_overrun")
    (by simp [admissionChecks])
  simp only [decide_eq_true_eq, not_lt] at hbound
  constructor
  · rw [Decimal.value_add htotal, Decimal.value_add hcharged, PoolState.settled_value hsettled,
      PoolState.outstanding_value houtstanding] at hbound
    exact hbound
  · intro r hr
    obtain ⟨rid, hrid⟩ := (Dict.mem_values_iff _ r).mp hr
    by_contra hflag
    have hmem : rid ∈ state.overruns := by
      unfold PoolState.overruns
      rw [mem_sortedBy, List.mem_map]
      exact ⟨(rid, r), by simpa [(Dict.mem_items_iff _ rid r).mpr hrid] using hflag, rfl⟩
    simp only [Bool.not_eq_true', Bool.not_eq_false, List.isEmpty_iff] at hoverruns
    rw [hoverruns] at hmem
    cases hmem

/-! ## One event -/

/-- What admission keeps: open exposures and closed charges fit under the
hard bound of the configuration in force. -/
structure PoolState.Within (state : PoolState) : Prop where
  sound : ∀ r ∈ state.reservations.values, r.Sound
  unconfigured : state.config = none → state.reservations.values = []
  bounded : ∀ config, state.config = some config → config.Nonneg ∧
    (∀ r ∈ state.reservations.values, r.window = config.windowId) ∧
    state.committed ≤ config.hardBound.value

/-- A configuration that may follow another: the same window, and a hard
bound that is not lower. -/
def PoolConfig.Follows (previous config : PoolConfig) : Prop :=
  previous.windowId = config.windowId ∧ previous.hardBound.value ≤ config.hardBound.value

instance (previous config : PoolConfig) : Decidable (previous.Follows config) :=
  inferInstanceAs (Decidable (_ ∧ _))

namespace PoolState.Within

theorem empty : ({} : PoolState).Within := by
  constructor
  · intro r hr
    cases hr
  · intro _
    rfl
  · intro config hconfig
    cases hconfig

/-- A reservation that commits no more may replace one. -/
theorem replace {state : PoolState} (h : state.Within) {rid : String} {r next : Reservation}
    (hr : state.reservations.get? rid = some r) (hsound : next.Sound)
    (hle : next.committed ≤ r.committed) (hwindow : next.window = r.window) :
    ({ state with reservations := state.reservations.set rid next } : PoolState).Within := by
  have hmem : r ∈ state.reservations.values := (Dict.mem_values_iff _ r).mpr ⟨rid, hr⟩
  constructor
  · intro w hw
    rcases Dict.mem_values_set hw with rfl | hw
    · exact hsound
    · exact h.sound w hw
  · intro hconfig
    rw [h.unconfigured hconfig] at hmem
    cases hmem
  · intro config hconfig
    obtain ⟨hnonneg, hwindows, hbound⟩ := h.bounded config hconfig
    refine ⟨hnonneg, ?_, ?_⟩
    · intro w hw
      rcases Dict.mem_values_set hw with rfl | hw
      · rw [hwindow, hwindows r hmem]
      · exact hwindows w hw
    · have hsum := Dict.sum_values_set_some Reservation.committed next hr
      unfold PoolState.committed at hbound ⊢
      linarith

/-- An admitted grant stays under the bound, even one that reuses an id. -/
theorem grant {state : PoolState} (h : state.Within) {config : PoolConfig} {rid : String}
    {next : Reservation} (hconfig : state.config = some config) (hsound : next.Sound)
    (hwindow : next.window = config.windowId) (hopen : next.closed = false)
    (hadmitted : state.charged config.windowId + state.heldTotal + next.exposure.value ≤
      config.hardBound.value) :
    ({ state with reservations := state.reservations.set rid next } : PoolState).Within := by
  obtain ⟨hnonneg, hwindows, -⟩ := h.bounded config hconfig
  rw [PoolState.charged_add_held hwindows] at hadmitted
  have hexcess := state.excess_nonneg
  have hcommitted : next.committed = next.exposure.value := by
    unfold Reservation.committed
    rw [if_neg (by simp [hopen])]
  constructor
  · intro w hw
    rcases Dict.mem_values_set hw with rfl | hw
    · exact hsound
    · exact h.sound w hw
  · intro hnone
    cases hnone.symm.trans hconfig
  · intro config' hconfig'
    cases hconfig.symm.trans hconfig'
    refine ⟨hnonneg, ?_, ?_⟩
    · intro w hw
      rcases Dict.mem_values_set hw with rfl | hw
      · exact hwindow
      · exact hwindows w hw
    · unfold PoolState.committed at hadmitted ⊢
      cases hold : state.reservations.get? rid with
      | none =>
        rw [Dict.sum_values_set_none Reservation.committed next hold]
        linarith
      | some old =>
        have hsum := Dict.sum_values_set_some Reservation.committed next hold
        have hmem : old ∈ state.reservations.values := (Dict.mem_values_iff _ old).mpr ⟨rid, hold⟩
        have hpos := (h.sound old hmem).committed_nonneg
        linarith

/-- A configuration that follows the one in force keeps the pool within. -/
theorem configure {state : PoolState} (h : state.Within) {config : PoolConfig} {revision : Nat}
    (hnonneg : config.Nonneg)
    (hfollows : ∀ previous, state.config = some previous → previous.Follows config) :
    ({ state with config := some config, revision := revision } : PoolState).Within := by
  constructor
  · exact h.sound
  · intro hnone
    cases hnone
  · intro config' hconfig'
    cases hconfig'
    refine ⟨hnonneg, ?_, ?_⟩
    · intro r hr
      cases hprevious : state.config with
      | none =>
        rw [h.unconfigured hprevious] at hr
        cases hr
      | some previous =>
        rw [(h.bounded previous hprevious).2.1 r hr]
        exact (hfollows previous hprevious).1
    · cases hprevious : state.config with
      | none =>
        unfold PoolState.committed
        rw [h.unconfigured hprevious]
        exact hnonneg.hardBound
      | some previous =>
        exact (h.bounded previous hprevious).2.2.trans (hfollows previous hprevious).2

/-- The bound itself, from what is within. -/
theorem bound {state : PoolState} (h : state.Within) {config : PoolConfig}
    (hconfig : state.config = some config) :
    state.charged config.windowId + state.heldTotal ≤ config.hardBound.value + state.excess := by
  obtain ⟨-, hwindows, hbound⟩ := h.bounded config hconfig
  rw [PoolState.charged_add_held hwindows]
  linarith

end PoolState.Within

/-! ## The events of a pool -/

variable [Readers]

/-- The configuration an event puts in force. -/
def configOf : Event → Option PoolConfig
  | .poolConfig body => (validateConfig (.obj body)).toOption
  | _ => none

/-- The configurations of a pool, in order. -/
def configs (events : List Event) : List PoolConfig := events.filterMap configOf

/-- All configurations keep one window and never lower the hard bound. -/
def Steady (events : List Event) : Prop := (configs events).Pairwise PoolConfig.Follows

theorem Steady.left {events more : List Event} (h : Steady (events ++ more)) : Steady events := by
  unfold Steady configs at h ⊢
  rw [List.filterMap_append, List.pairwise_append] at h
  exact h.1

theorem foldEvent_config {state next : PoolState} {event : Event}
    (h : foldEvent state event = .ok next) : next.config = (configOf event).or state.config := by
  cases event with
  | poolConfig body =>
    obtain ⟨config, hconfig, rfl⟩ := foldEvent_poolConfig h
    show some config = ((validateConfig (.obj body)).toOption).or state.config
    rw [hconfig]
    rfl
  | grant body =>
    obtain ⟨config, -, -, rfl⟩ := foldEvent_grant h
    rfl
  | settlement body =>
    obtain ⟨r, charged, -, -, rfl⟩ := foldEvent_settlement h
    rfl
  | refusal caller reason request =>
    cases h
    rfl
  | reconciliation body =>
    obtain ⟨r, -, rfl⟩ := foldEvent_reconciliation h
    rfl
  | ownerRevocation body =>
    cases h
    rfl

/-- The configuration in force is the last one recorded. -/
theorem foldlM_config {events : List Event} {state next : PoolState}
    (h : events.foldlM foldEvent state = .ok next) :
    next.config = (configs events).getLast?.or state.config := by
  induction events generalizing state with
  | nil =>
    cases h
    rfl
  | cons event rest ih =>
    rw [List.foldlM_cons] at h
    obtain ⟨mid, hmid, hrest⟩ := bind_ok h
    rw [ih hrest, foldEvent_config hmid]
    cases hevent : configOf event with
    | none =>
      have hcons : configs (event :: rest) = configs rest := List.filterMap_cons_none hevent
      rw [hcons]
      rfl
    | some config =>
      have hcons : configs (event :: rest) = config :: configs rest :=
        List.filterMap_cons_some hevent
      rw [hcons, List.getLast?_cons]
      cases (configs rest).getLast? <;> rfl

theorem fold_config {events : List Event} {state : PoolState} (h : fold events = .ok state) :
    state.config = (configs events).getLast? := by
  rw [foldlM_config h]
  exact Option.or_none

theorem fold_append {events more : List Event} {next : PoolState}
    (h : fold (events ++ more) = .ok next) :
    ∃ state, fold events = .ok state ∧ more.foldlM foldEvent state = .ok next := by
  unfold fold at h
  rw [List.foldlM_append] at h
  exact bind_ok h

theorem fold_append_of_ok {events more : List Event} {state : PoolState}
    (h : fold events = .ok state) : fold (events ++ more) = more.foldlM foldEvent state := by
  unfold fold at h ⊢
  rw [List.foldlM_append, h]
  rfl

/-- The next configuration of a steady pool follows the one in force. -/
theorem Steady.follows {events : List Event} {body : Members} {state : PoolState}
    {config : PoolConfig} (h : Steady (events ++ [.poolConfig body]))
    (hstate : fold events = .ok state) (hconfig : validateConfig (.obj body) = .ok config) :
    ∀ previous, state.config = some previous → previous.Follows config := by
  intro previous hprevious
  rw [fold_config hstate] at hprevious
  have hmem : previous ∈ configs events := List.mem_of_getLast? hprevious
  have hnew : configs [.poolConfig body] = [config] := by
    show [Event.poolConfig body].filterMap configOf = [config]
    simp [configOf, hconfig, Except.toOption]
  unfold Steady at h
  rw [show configs (events ++ [.poolConfig body]) = configs events ++ [config] by
    rw [← hnew]; exact List.filterMap_append, List.pairwise_append] at h
  exact h.2.2 previous hmem config (by simp)

theorem Within.poolConfig {events : List Event} {body : Members} {state next : PoolState}
    (h : state.Within) (hsteady : Steady (events ++ [.poolConfig body]))
    (hstate : fold events = .ok state) (hfold : foldEvent state (.poolConfig body) = .ok next) :
    next.Within := by
  obtain ⟨config, hconfig, rfl⟩ := foldEvent_poolConfig hfold
  exact h.configure (validateConfig_nonneg hconfig) (hsteady.follows hstate hconfig)

theorem Within.ownerRevocation {body : OwnerRevocation} {state next : PoolState}
    (h : state.Within) (hfold : foldEvent state (.ownerRevocation body) = .ok next) :
    next.Within := by
  cases hfold
  exact ⟨h.sound, h.unconfigured, h.bounded⟩

theorem Within.opened {state next : PoolState} {config : PoolConfig} {body : Grant}
    (h : state.Within) (hconfig : state.config = some config)
    (hexposure : 0 ≤ body.exposure.value) (hwindow : body.window = some config.windowId)
    (hadmitted : state.charged config.windowId + state.heldTotal + body.exposure.value ≤
      config.hardBound.value) (hfold : foldEvent state (.grant body) = .ok next) :
    next.Within := by
  obtain ⟨config', hconfig', -, rfl⟩ := foldEvent_grant hfold
  cases hconfig.symm.trans hconfig'
  have hsound : (body.opened config body.expiresAt).Sound := by
    constructor
    · exact hexposure
    · exact Decimal.value_zero.ge
    · intro hflag
      cases hflag
  have hwindow' : (body.opened config body.expiresAt).window = config.windowId := by
    unfold Grant.opened
    rw [hwindow]
    rfl
  exact h.grant hconfig hsound hwindow' rfl hadmitted

theorem Within.settlement {state next : PoolState} {r : Reservation} {body : Settlement}
    (h : state.Within) (hr : state.reservations.get? body.reservationId = some r)
    (hopen : r.closed = false) (hamount : 0 ≤ body.amount.value)
    (hfold : foldEvent state (.settlement body) = .ok next) : next.Within := by
  obtain ⟨r', charged, hr', hcharged, rfl⟩ := foldEvent_settlement hfold
  cases hr.symm.trans hr'
  have hsound := h.sound r ((Dict.mem_values_iff _ r).mpr ⟨_, hr⟩)
  obtain ⟨hsound', hle, hwindow, -⟩ := Reservation.settle_spec hsound hopen hamount hcharged
  exact h.replace hr hsound' hle hwindow

theorem Within.reconciliation {state next : PoolState} {r : Reservation} {body : Reconciliation}
    (h : state.Within) (hr : state.reservations.get? body.reservationId = some r)
    (hclosed : r.closed = true → r.overrunOpen = true) (hamount : 0 ≤ body.amount.value)
    (hfold : foldEvent state (.reconciliation body) = .ok next) : next.Within := by
  obtain ⟨r', hr', rfl⟩ := foldEvent_reconciliation hfold
  cases hr.symm.trans hr'
  have hsound := h.sound r ((Dict.mem_values_iff _ r).mpr ⟨_, hr⟩)
  obtain ⟨hsound', hle, hwindow⟩ := Reservation.reconcile_spec hsound hclosed hamount
  exact h.replace hr hsound' hle hwindow

theorem fold_singleton {state next : PoolState} {event : Event}
    (h : [event].foldlM foldEvent state = .ok next) : foldEvent state event = .ok next := by
  rw [List.foldlM_cons] at h
  obtain ⟨mid, hmid, h⟩ := bind_ok h
  cases h
  exact hmid

/-- What a call records keeps the pool within its bound. -/
theorem records_within {L : SpendLedger} {poolId : String} {events : List Event}
    (hrecords : L.Records poolId events) (hsteady : Steady (L.poolEvents poolId ++ events))
    {state next : PoolState} (hstate : fold (L.poolEvents poolId) = .ok state)
    (h : state.Within) (hfold : events.foldlM foldEvent state = .ok next) : next.Within := by
  cases hrecords with
  | nothing =>
    cases hfold
    exact h
  | poolConfig body => exact Within.poolConfig h hsteady hstate (fold_singleton hfold)
  | grant hstate' hconfig hadmitted hexposure hwindow =>
    cases hstate.symm.trans hstate'
    have hpos := (h.bounded _ hconfig).1.exposure hexposure
    exact Within.opened h hconfig hpos hwindow (refusalReason_none hconfig hexposure hadmitted).1
      (fold_singleton hfold)
  | settlement hstate' hr hopen hamount htotal =>
    cases hstate.symm.trans hstate'
    obtain ⟨raw, hraw⟩ := hamount
    exact Within.settlement h hr hopen (quantity_nonneg hraw) (fold_singleton hfold)
  | refusal caller reason request =>
    cases hfold
    exact h
  | reconciliation hstate' hr hclosed hamount =>
    cases hstate.symm.trans hstate'
    obtain ⟨raw, hraw⟩ := hamount
    exact Within.reconciliation h hr hclosed (quantity_nonneg hraw) (fold_singleton hfold)
  | ownerRevocation body => exact Within.ownerRevocation h (fold_singleton hfold)
  | failOver revocation body =>
    -- the revocation leaves the charges alone, so the successor follows as a configuration does
    rw [List.foldlM_cons] at hfold
    obtain ⟨mid, hmid, hfold⟩ := bind_ok hfold
    have hevents : fold (L.poolEvents poolId ++ [.ownerRevocation revocation]) = .ok mid := by
      rw [fold_append_of_ok hstate]
      exact bind_of_ok hmid rfl
    refine Within.poolConfig (Within.ownerRevocation h hmid) ?_ hevents (fold_singleton hfold)
    rw [List.append_assoc]
    exact hsteady

/-! ## Unreconciled overruns -/

/-- The event closes `rid` at the operator's amount. -/
def Event.Reconciles (rid : String) : Event → Prop
  | .reconciliation body => body.reservationId = rid
  | _ => False

/-- Some settlement left `rid` above its exposure, and no reconciliation of
it follows. -/
def Overrun (events : List Event) (rid : String) : Prop :=
  ∃ before body after state r, events = before ++ .settlement body :: after ∧
    body.reservationId = rid ∧ fold (before ++ [.settlement body]) = .ok state ∧
    state.reservations.get? rid = some r ∧ r.exposure.value < r.settled.value ∧
    ∀ event ∈ after, ¬ event.Reconciles rid

theorem not_overrun_nil (rid : String) : ¬ Overrun [] rid := by
  rintro ⟨before, body, after, state, r, hevents, -⟩
  cases before <;> cases hevents

/-- The last event is the settlement above the exposure, or the overrun was
there before and the event does not reconcile it. -/
theorem Overrun.append_singleton {events : List Event} {event : Event} {rid : String}
    (h : Overrun (events ++ [event]) rid) :
    (∃ body state r, event = .settlement body ∧ body.reservationId = rid ∧
      fold (events ++ [event]) = .ok state ∧ state.reservations.get? rid = some r ∧
      r.exposure.value < r.settled.value) ∨
      Overrun events rid ∧ ¬ event.Reconciles rid := by
  obtain ⟨before, body, after, state, r, hevents, hid, hfold, hr, hlt, hafter⟩ := h
  cases after using List.reverseRecOn with
  | nil =>
    obtain ⟨rfl, hlast⟩ := List.append_inj' hevents rfl
    cases hlast
    exact .inl ⟨body, state, r, rfl, hid, hfold, hr, hlt⟩
  | append_singleton after last =>
    rw [← List.cons_append, ← List.append_assoc] at hevents
    obtain ⟨hold, hlast⟩ := List.append_inj' hevents rfl
    cases hlast
    right
    constructor
    · refine ⟨before, body, after, state, r, hold, hid, hfold, hr, hlt, ?_⟩
      intro e he
      exact hafter e (List.mem_append_left _ he)
    · exact hafter event (by simp)

/-- The fold flags the reservation. -/
def PoolState.Flags (state : PoolState) (rid : String) : Prop :=
  ∃ r, state.reservations.get? rid = some r ∧ r.overrunOpen = true

theorem settlement_flags {state next : PoolState} {body : Settlement} {r : Reservation}
    (hfold : foldEvent state (.settlement body) = .ok next)
    (hr : next.reservations.get? body.reservationId = some r)
    (hlt : r.exposure.value < r.settled.value) : next.Flags body.reservationId := by
  obtain ⟨old, charged, -, hcharged, rfl⟩ := foldEvent_settlement hfold
  have hget : (state.reservations.set body.reservationId charged).get? body.reservationId =
      some r := hr
  rw [Dict.get?_set_self] at hget
  rw [← Option.some.inj hget] at hlt
  refine ⟨charged, Dict.get?_set_self .., ?_⟩
  unfold Reservation.settle at hcharged
  obtain ⟨settled, hsettled, hcharged⟩ := bind_ok hcharged
  cases hcharged
  show (old.overrunOpen || decide (old.exposure.value < settled.value)) = true
  rw [decide_eq_true hlt, Bool.or_true]

/-- Only a reconciliation or a grant of the same reservation unflags it. -/
theorem foldEvent_flags {state next : PoolState} {event : Event} {rid : String}
    (hfold : foldEvent state event = .ok next) (hgrant : ∀ body, event ≠ .grant body)
    (hkeeps : ¬ event.Reconciles rid) (h : state.Flags rid) : next.Flags rid := by
  obtain ⟨r, hr, hflag⟩ := h
  cases event with
  | poolConfig body =>
    obtain ⟨config, -, rfl⟩ := foldEvent_poolConfig hfold
    exact ⟨r, hr, hflag⟩
  | grant body => exact absurd rfl (hgrant body)
  | settlement body =>
    obtain ⟨old, charged, hold, hcharged, rfl⟩ := foldEvent_settlement hfold
    by_cases hid : rid = body.reservationId
    · subst hid
      cases hr.symm.trans hold
      refine ⟨charged, Dict.get?_set_self .., ?_⟩
      unfold Reservation.settle at hcharged
      obtain ⟨settled, -, hcharged⟩ := bind_ok hcharged
      cases hcharged
      show (r.overrunOpen || decide (r.exposure.value < settled.value)) = true
      rw [hflag, Bool.true_or]
    · refine ⟨r, ?_, hflag⟩
      rw [← hr]
      exact Dict.get?_set_ne _ _ (Ne.symm hid)
  | refusal caller reason request =>
    cases hfold
    exact ⟨r, hr, hflag⟩
  | reconciliation body =>
    obtain ⟨old, hold, rfl⟩ := foldEvent_reconciliation hfold
    refine ⟨r, ?_, hflag⟩
    rw [← hr]
    exact Dict.get?_set_ne _ _ hkeeps
  | ownerRevocation body =>
    cases hfold
    exact ⟨r, hr, hflag⟩

omit [Readers] in
theorem PoolState.Flags.not_admitted {state : PoolState} {rid : String} (h : state.Flags rid) :
    ¬ ∀ r ∈ state.reservations.values, r.overrunOpen = false := by
  intro hall
  obtain ⟨r, hr, hflag⟩ := h
  rw [hall r ((Dict.mem_values_iff _ r).mpr ⟨rid, hr⟩)] at hflag
  cases hflag

theorem Overrun.flags {events : List Event} {event : Event} {rid : String}
    {before next : PoolState} (h : Overrun (events ++ [event]) rid)
    (hbefore : fold events = .ok before) (hnext : foldEvent before event = .ok next)
    (hold : Overrun events rid → before.Flags rid)
    (hgrant : ∀ body, event = .grant body → ¬ Overrun events rid) : next.Flags rid := by
  obtain ⟨body, state, r, rfl, rfl, hstate, hr, hlt⟩ | ⟨h, hkeeps⟩ := h.append_singleton
  · have hsame : state = next := by
      obtain ⟨mid, hmid, hlast⟩ := fold_append hstate
      cases hbefore.symm.trans hmid
      exact Except.ok.inj ((fold_singleton hlast).symm.trans hnext)
    rw [hsame] at hr
    exact settlement_flags hnext hr hlt
  · refine foldEvent_flags hnext ?_ hkeeps (hold h)
    intro body hbody
    exact hgrant body hbody h

theorem records_flags {L : SpendLedger} {poolId : String} {events : List Event}
    (hrecords : L.Records poolId events) {before next : PoolState} {rid : String}
    (hbefore : fold (L.poolEvents poolId) = .ok before)
    (hrest : events.foldlM foldEvent before = .ok next)
    (hold : Overrun (L.poolEvents poolId) rid → before.Flags rid)
    (h : Overrun (L.poolEvents poolId ++ events) rid) : next.Flags rid := by
  cases hrecords with
  | nothing =>
    cases hrest
    rw [List.append_nil] at h
    exact hold h
  | grant hstate hconfig hadmitted hexposure hwindow =>
    -- an admitted request found no overrun flagged, so none is open
    cases hbefore.symm.trans hstate
    refine h.flags hbefore (fold_singleton hrest) hold ?_
    intro body _ hoverrun
    exact (hold hoverrun).not_admitted (refusalReason_none hconfig hexposure hadmitted).2
  | failOver revocation body =>
    rw [List.foldlM_cons] at hrest
    obtain ⟨mid, hmid, hrest⟩ := bind_ok hrest
    have hfold : fold (L.poolEvents poolId ++ [.ownerRevocation revocation]) = .ok mid := by
      rw [fold_append_of_ok hbefore]
      exact bind_of_ok hmid rfl
    rw [List.append_cons] at h
    refine h.flags hfold (fold_singleton hrest) ?_ (fun _ hne => nomatch hne)
    intro hrevoked
    exact hrevoked.flags hbefore hmid hold (fun _ hne => nomatch hne)
  | _ => exact h.flags hbefore (fold_singleton hrest) hold (fun _ hne => nomatch hne)

/-! ## Runs -/

section
variable (ownerHubId poolId : String)

open SpendLedger

theorem run_append (calls : List Call) (call : Call) :
    run ownerHubId (calls ++ [call]) = (run ownerHubId calls).step call :=
  Trace.run_append step _ calls call

/-- Every ledger of a run whose configurations are steady is within its bound. -/
theorem run_within (calls : List Call) (hsteady : Steady ((run ownerHubId calls).poolEvents poolId))
    {state : PoolState} (hstate : fold ((run ownerHubId calls).poolEvents poolId) = .ok state) :
    state.Within := by
  induction calls using List.reverseRecOn generalizing state with
  | nil =>
    cases hstate
    exact .empty
  | append_singleton calls call ih =>
    rw [run_append] at hsteady hstate
    obtain ⟨added, hadded, hrecords⟩ := step_records (run ownerHubId calls) call poolId
    rw [hadded] at hsteady hstate
    obtain ⟨before, hbefore, hrest⟩ := fold_append hstate
    exact records_within hrecords hsteady hbefore (ih hsteady.left hbefore) hrest

theorem overrun_flags (calls : List Call) {rid : String}
    (h : Overrun ((run ownerHubId calls).poolEvents poolId) rid) {state : PoolState}
    (hstate : fold ((run ownerHubId calls).poolEvents poolId) = .ok state) : state.Flags rid := by
  induction calls using List.reverseRecOn generalizing state with
  | nil => exact absurd h (not_overrun_nil rid)
  | append_singleton calls call ih =>
    rw [run_append] at h hstate
    obtain ⟨added, hadded, hrecords⟩ := step_records (run ownerHubId calls) call poolId
    rw [hadded] at h hstate
    obtain ⟨before, hbefore, hrest⟩ := fold_append hstate
    have hold : Overrun ((run ownerHubId calls).poolEvents poolId) rid → before.Flags rid :=
      fun old => ih old hbefore
    exact records_flags hrecords hbefore hrest hold h

theorem run_prefix {pre calls : List Call} (h : pre <+: calls) :
    ∃ more, (run ownerHubId calls).poolEvents poolId =
      (run ownerHubId pre).poolEvents poolId ++ more := by
  obtain ⟨rest, rfl⟩ := h
  induction rest using List.reverseRecOn with
  | nil => exact ⟨[], by simp⟩
  | append_singleton rest call ih =>
    obtain ⟨more, hmore⟩ := ih
    obtain ⟨added, hadded, -⟩ := step_records (run ownerHubId (pre ++ rest)) call poolId
    rw [← List.append_assoc, run_append, hadded, hmore]
    exact ⟨more ++ added, List.append_assoc ..⟩

theorem grant_overrun_free (pre : List Call) (call : Call) {body : Grant}
    (hgrant : (run ownerHubId (pre ++ [call])).poolEvents poolId =
      (run ownerHubId pre).poolEvents poolId ++ [.grant body]) (rid : String) :
    ¬ Overrun ((run ownerHubId pre).poolEvents poolId) rid := by
  obtain ⟨added, hadded, hrecords⟩ := step_records (run ownerHubId pre) call poolId
  rw [run_append, hadded] at hgrant
  cases List.append_cancel_left hgrant
  cases hrecords with
  | grant hstate hconfig hadmitted hexposure hwindow =>
    intro hoverrun
    exact (overrun_flags ownerHubId poolId pre hoverrun hstate).not_admitted
      (refusalReason_none hconfig hexposure hadmitted).2

/-- At every point of a run whose configurations of the pool are steady,
what its reservations charged and hold is at most the hard bound and what
was settled above exposures; `settled` and `outstanding` return exactly
these. No grant is appended over an unreconciled overrun. -/
theorem shared_pool_bound (calls : List Call)
    (hsteady : Steady ((run ownerHubId calls).poolEvents poolId)) :
    (∀ pre, pre <+: calls → ∀ state config,
      fold ((run ownerHubId pre).poolEvents poolId) = .ok state → state.config = some config →
        state.charged config.windowId + state.heldTotal ≤
            config.hardBound.value + state.excess ∧
          (∀ s, state.settled config.windowId = .ok s →
            s.value = state.charged config.windowId) ∧
          ∀ s, state.outstanding = .ok s → s.value = state.heldTotal) ∧
      ∀ pre call body, pre ++ [call] <+: calls →
        (run ownerHubId (pre ++ [call])).poolEvents poolId =
          (run ownerHubId pre).poolEvents poolId ++ [.grant body] →
        ∀ rid, ¬ Overrun ((run ownerHubId pre).poolEvents poolId) rid := by
  constructor
  · intro pre hpre state config hstate hconfig
    obtain ⟨more, hmore⟩ := run_prefix ownerHubId poolId hpre
    rw [hmore] at hsteady
    have hwithin := run_within ownerHubId poolId pre hsteady.left hstate
    exact ⟨hwithin.bound hconfig, fun _ => PoolState.settled_value,
      fun _ => PoolState.outstanding_value⟩
  · intro pre call body _ hgrant
    exact grant_overrun_free ownerHubId poolId pre call hgrant

end

/-! ## A small pool -/

/-- A bound of 10 in a window that ends at `endsAt`. -/
def smallPool (endsAt : String) : Json :=
  .obj [("pool_id", .str "pool"), ("owner_hub_id", .str "hub"), ("epoch", .int 1),
    ("account_ref", .str "acct"), ("billing_surface", .str "api"), ("unit", .str "tok"),
    ("window_starts_at", .str "2026-12-01T00:00:00+00:00"), ("window_ends_at", .str endsAt),
    ("price_revision", .str "r1"), ("hard_bound", .str "10"),
    ("cost_basis", .obj [("tax", .str "not_applicable"), ("fixed_fee", .str "1"),
      ("minimum_charge", .str "2")]),
    ("limits", .obj [("max_depth", .int 3), ("max_agents", .int 4),
      ("max_wall_seconds", .int 60)]),
    ("grantees", .arr [.obj [("hub", .str "A"), ("project", .str "p")]]), ("cause", .str "trial")]

def smallRequest (key upperBound : String) : Json :=
  .obj [("pool_id", .str "pool"), ("seat", .str "s"), ("project", .str "p"), ("task", .str "t"),
    ("operation", .str "op"), ("key", .str key), ("unit", .str "tok"),
    ("tax", .str "not_applicable"), ("price_revision", .str "r1"),
    ("upper_bound", .str upperBound), ("depth", .int 1), ("wall_seconds", .int 30)]

def smallSettlement (reservationId amount : String) : Json :=
  .obj [("pool_id", .str "pool"), ("reservation_id", .str reservationId), ("usage_ref", .str "u"),
    ("amount", .str amount), ("provenance", .str "measured"), ("final", .bool false)]

/-- Midnight of a day, in UTC. -/
def midnight (days : Nat) (h : days < 3652059 := by decide) : Datetime :=
  ⟨days * microsPerDay, 0, Nat.mul_lt_mul_of_pos_right h (by decide), by decide⟩

open SpendLedger in
omit [Readers] in
/-- A grant of 6, a settlement of 7 against it, and a refused request. -/
theorem shared_pool_bound_overrun :
    letI := Readers.listed [("2026-12-01T00:00:00+00:00", midnight 739950),
      ("2027-01-01T00:00:00+00:00", midnight 739981)]
    let calls : List Call := [.configure (smallPool "2027-01-01T00:00:00+00:00") (midnight 739960),
      .reserve "A" (smallRequest "k" "5") (midnight 739960),
      .settle "A" (smallSettlement "rsv-7eca609d5915a6f17b966b6c0edf446e" "7") (midnight 739960),
      .reserve "A" (smallRequest "l" "1") (midnight 739960)]
    let events := (run "hub" calls).poolEvents "pool"
    events.map Event.kind = ["pool_config", "grant", "settlement", "refusal"] ∧
      Steady events ∧
      ∀ state config, fold events = .ok state → state.config = some config →
        state.charged config.windowId + state.heldTotal ≤
          config.hardBound.value + state.excess := by
  let _ := Readers.listed [("2026-12-01T00:00:00+00:00", midnight 739950),
    ("2027-01-01T00:00:00+00:00", midnight 739981)]
  intro calls events
  have hsteady : Steady events := by
    unfold Steady
    decide +kernel
  refine ⟨by decide +kernel, hsteady, ?_⟩
  intro state config hstate hconfig
  exact ((shared_pool_bound "hub" "pool" calls hsteady).1 calls (List.prefix_refl calls) state
    config hstate hconfig).1

end SynapseChannel.Spend
