import SynapseChannel.Core.SpendBound

/-!
# Core — SpendBasis

What the amounts of a pool are measured in. Beside the fold of a pool's
events the books keep every amount with the unit, billing surface, account
and tax basis in force when it was recorded. Admission sums amounts of one
basis exactly as long as no accepted configuration gives a quota window
another basis than its charges have.
-/

namespace SynapseChannel.Spend

open Py Outcome

/-- What a pool's amounts are measured in and charged to. -/
structure Basis where
  unit : String
  billingSurface : String
  accountRef : String
  tax : String
deriving DecidableEq

def PoolConfig.basis (config : PoolConfig) : Basis :=
  { unit := config.unit
    billingSurface := config.billingSurface
    accountRef := config.accountRef
    tax := config.tax }

theorem changesIdentity_eq_false {previous config : PoolConfig} :
    SpendLedger.changesIdentity previous config = false ↔ previous.basis = config.basis := by
  simp [SpendLedger.changesIdentity, PoolConfig.basis, and_assoc]

/-! ## The books -/

/-- An amount, with the basis in force when it was recorded. -/
structure Entry where
  amount : Decimal
  basis : Option Basis

/-- What is recorded of one reservation: its exposure, and the amounts that
make up its charge. -/
structure Account where
  exposure : Entry
  charges : List Entry

def Account.total (account : Account) : ℚ := (account.charges.map (·.amount.value)).sum

structure Books where
  basis : Option Basis := none
  accounts : Dict String Account := Dict.empty

namespace Books

/-- An amount recorded now. -/
def entry (books : Books) (amount : Decimal) : Entry := ⟨amount, books.basis⟩

def put (books : Books) (rid : String) (account : Account) : Books :=
  { books with accounts := books.accounts.set rid account }

/-- Change an account that the books have. -/
def change (books : Books) (rid : String) (f : Account → Account) : Books :=
  match books.accounts.get? rid with
  | none => books
  | some account => books.put rid (f account)

/-- The amounts of a reservation that are summed against a bound on
`window`: its charge if it is of the window, and all it recorded while it
is open. -/
def summedFor (books : Books) (window : String) (rid : String) (r : Reservation) : List Entry :=
  match books.accounts.get? rid with
  | none => []
  | some account =>
    (if r.window = window then account.charges else []) ++
      if r.closed then [] else account.exposure :: account.charges

/-- The charges of the reservations of `window`. -/
def chargesOf (books : Books) (state : PoolState) (window : String) : List Entry :=
  state.reservations.items.flatMap fun item =>
    match books.accounts.get? item.1 with
    | none => []
    | some account => if item.2.window = window then account.charges else []

/-- The recorded amounts that admission sums. -/
def summed (books : Books) (state : PoolState) (window : String) : List Entry :=
  state.reservations.items.flatMap fun item => books.summedFor window item.1 item.2

section
variable [Readers]

/-- Record one event. A reconciliation replaces the charge. -/
def post (books : Books) : Event → Books
  | .poolConfig body =>
    { books with basis := ((configOf (.poolConfig body)).map (·.basis)).or books.basis }
  | .grant body =>
    books.put body.reservationId { exposure := books.entry body.exposure, charges := [] }
  | .settlement body =>
    books.change body.reservationId fun account =>
      { account with charges := account.charges ++ [books.entry body.amount] }
  | .reconciliation body =>
    books.change body.reservationId fun account =>
      { account with charges := [books.entry body.amount] }
  | .refusal .. => books
  | .ownerRevocation _ => books

theorem post_settlement (books : Books) {body : Settlement} {account : Account}
    (h : books.accounts.get? body.reservationId = some account) :
    books.post (.settlement body) = books.put body.reservationId
      { account with charges := account.charges ++ [books.entry body.amount] } := by
  simp [post, change, h]

theorem post_reconciliation (books : Books) {body : Reconciliation} {account : Account}
    (h : books.accounts.get? body.reservationId = some account) :
    books.post (.reconciliation body) = books.put body.reservationId
      { account with charges := [books.entry body.amount] } := by
  simp [post, change, h]

end

end Books

variable [Readers]

/-- The books of a pool. -/
def booksOf (events : List Event) : Books := events.foldl Books.post {}

theorem booksOf_append (events more : List Event) :
    booksOf (events ++ more) = more.foldl Books.post (booksOf events) := by
  unfold booksOf
  rw [List.foldl_append]

/-- Every amount that the next admission sums, the new exposure included,
is of the basis of the configuration in force. -/
def OneBasis (events : List Event) : Prop :=
  ∀ state config, fold events = .ok state → state.config = some config →
    (booksOf events).basis = some config.basis ∧
      ∀ entry ∈ (booksOf events).summed state config.windowId, entry.basis = some config.basis

/-! ## Membership -/

section

omit [Readers]

theorem mem_summedFor {books : Books} {window rid : String} {r : Reservation} {entry : Entry} :
    entry ∈ books.summedFor window rid r ↔ ∃ account, books.accounts.get? rid = some account ∧
      ((r.window = window ∧ entry ∈ account.charges) ∨
        (r.closed = false ∧ entry ∈ account.exposure :: account.charges)) := by
  unfold Books.summedFor
  cases books.accounts.get? rid with
  | none => simp
  | some account =>
    by_cases hwindow : r.window = window <;> cases hclosed : r.closed <;> simp [hwindow]

theorem mem_summed {books : Books} {state : PoolState} {window : String} {entry : Entry} :
    entry ∈ books.summed state window ↔ ∃ rid r, state.reservations.get? rid = some r ∧
      entry ∈ books.summedFor window rid r := by
  unfold Books.summed
  simp only [List.mem_flatMap, Prod.exists]
  constructor
  · rintro ⟨rid, r, hitem, hentry⟩
    exact ⟨rid, r, (Dict.mem_items_iff _ rid r).mp hitem, hentry⟩
  · rintro ⟨rid, r, hget, hentry⟩
    exact ⟨rid, r, (Dict.mem_items_iff _ rid r).mpr hget, hentry⟩

theorem mem_chargesOf {books : Books} {state : PoolState} {window : String} {entry : Entry} :
    entry ∈ books.chargesOf state window ↔ ∃ rid r account,
      state.reservations.get? rid = some r ∧ books.accounts.get? rid = some account ∧
        r.window = window ∧ entry ∈ account.charges := by
  unfold Books.chargesOf
  simp only [List.mem_flatMap, Prod.exists]
  constructor
  · rintro ⟨rid, r, hitem, hentry⟩
    cases haccount : books.accounts.get? rid with
    | none => simp [haccount] at hentry
    | some account =>
      by_cases hwindow : r.window = window
      · simp only [haccount, hwindow, if_true] at hentry
        exact ⟨rid, r, account, (Dict.mem_items_iff _ rid r).mp hitem, haccount, hwindow, hentry⟩
      · simp [haccount, hwindow] at hentry
  · rintro ⟨rid, r, account, hget, haccount, hwindow, hentry⟩
    refine ⟨rid, r, (Dict.mem_items_iff _ rid r).mpr hget, ?_⟩
    simp only [haccount, hwindow, if_true]
    exact hentry

/-- Of the amounts summed after one reservation and its account are set,
those of other reservations were summed before. -/
theorem mem_summed_set {books : Books} {state : PoolState} {window rid : String} {r : Reservation}
    {account : Account} {entry : Entry}
    (h : entry ∈ (books.put rid account).summed
      { state with reservations := state.reservations.set rid r } window) :
    (r.window = window ∧ entry ∈ account.charges) ∨
      (r.closed = false ∧ entry ∈ account.exposure :: account.charges) ∨
      entry ∈ books.summed state window := by
  obtain ⟨other, r', hr', hentry⟩ := mem_summed.mp h
  obtain ⟨account', haccount', hentry⟩ := mem_summedFor.mp hentry
  by_cases hrid : rid = other
  · subst hrid
    have hget := Dict.get?_set_self state.reservations rid r
    have haccount := Dict.get?_set_self books.accounts rid account
    cases hget.symm.trans hr'
    cases haccount.symm.trans haccount'
    rcases hentry with hcharge | hopen
    · exact .inl hcharge
    · exact .inr (.inl hopen)
  · have hget := Dict.get?_set_ne state.reservations r hrid
    have haccount := Dict.get?_set_ne books.accounts account hrid
    right
    right
    exact mem_summed.mpr ⟨other, r', hget.symm.trans hr',
      mem_summedFor.mpr ⟨account', haccount.symm.trans haccount', hentry⟩⟩

end

/-! ## The books agree with the fold -/

/-- The books hold the exposure and the charge of every reservation, under
the basis of the configuration in force. -/
structure Posted (state : PoolState) (books : Books) : Prop where
  basis : books.basis = state.config.map PoolConfig.basis
  accounts : Dict.Agree (fun _ (r : Reservation) account =>
    r.exposure = account.exposure.amount ∧ r.settled.value = account.total)
    state.reservations books.accounts
  configured : ∀ rid r, state.reservations.get? rid = some r → ∃ config, state.config = some config

omit [Readers] in
theorem Posted.account {state : PoolState} {books : Books} (h : Posted state books) {rid : String}
    {r : Reservation} (hr : state.reservations.get? rid = some r) :
    ∃ account, books.accounts.get? rid = some account ∧ r.exposure = account.exposure.amount ∧
      r.settled.value = account.total :=
  h.accounts.2 rid r hr

theorem posted_nil : Posted {} (booksOf []) := by
  refine ⟨rfl, ?_, ?_⟩
  · constructor
    · rfl
    · intro rid r hr
      cases hr
  · intro rid r hr
    cases hr

omit [Readers] in
/-- A reservation and its account may be set together. -/
theorem Posted.set {state : PoolState} {books : Books} (h : Posted state books) {rid : String}
    {r : Reservation} {account : Account} {config : PoolConfig}
    (hconfig : state.config = some config) (hexposure : r.exposure = account.exposure.amount)
    (htotal : r.settled.value = account.total) :
    Posted { state with reservations := state.reservations.set rid r } (books.put rid account) := by
  refine ⟨h.basis, h.accounts.set ⟨hexposure, htotal⟩, ?_⟩
  intro _ _ _
  exact ⟨config, hconfig⟩

theorem Posted.foldEvent {state next : PoolState} {books : Books} {event : Event}
    (h : Posted state books) (hfold : foldEvent state event = .ok next) :
    Posted next (books.post event) := by
  cases event with
  | poolConfig body =>
    obtain ⟨config, hconfig, rfl⟩ := foldEvent_poolConfig hfold
    refine ⟨?_, h.accounts, ?_⟩
    · show ((configOf (.poolConfig body)).map (·.basis)).or books.basis = some config.basis
      simp [configOf, hconfig, Except.toOption]
    · intro _ _ _
      exact ⟨config, rfl⟩
  | grant body =>
    obtain ⟨config, hconfig, -, rfl⟩ := foldEvent_grant hfold
    exact h.set hconfig rfl (by simp [Account.total, Grant.opened])
  | settlement body =>
    obtain ⟨r, charged, hr, hcharged, rfl⟩ := foldEvent_settlement hfold
    obtain ⟨account, haccount, hexposure, htotal⟩ := h.account hr
    obtain ⟨config, hconfig⟩ := h.configured _ _ hr
    unfold Reservation.settle at hcharged
    obtain ⟨settled, hsettled, hcharged⟩ := bind_ok hcharged
    cases hcharged
    rw [books.post_settlement haccount]
    refine h.set hconfig hexposure ?_
    show settled.value = _
    rw [Decimal.value_add hsettled, htotal]
    simp [Account.total, Books.entry]
  | reconciliation body =>
    obtain ⟨r, hr, rfl⟩ := foldEvent_reconciliation hfold
    obtain ⟨account, haccount, hexposure, htotal⟩ := h.account hr
    obtain ⟨config, hconfig⟩ := h.configured _ _ hr
    rw [books.post_reconciliation haccount]
    exact h.set hconfig hexposure (by simp [Account.total, Books.entry, Reservation.reconcile])
  | refusal caller reason request =>
    cases hfold
    exact h
  | ownerRevocation body =>
    cases hfold
    exact ⟨h.basis, h.accounts, h.configured⟩

/-- The books of a pool agree with its fold. -/
theorem posted {events : List Event} {state : PoolState} (h : fold events = .ok state) :
    Posted state (booksOf events) := by
  induction events using List.reverseRecOn generalizing state with
  | nil =>
    cases h
    exact posted_nil
  | append_singleton events event ih =>
    obtain ⟨before, hbefore, hlast⟩ := fold_append h
    rw [booksOf_append]
    exact (ih hbefore).foldEvent (fold_singleton hlast)

theorem oneBasis_iff {events : List Event} {state : PoolState} (hstate : fold events = .ok state) :
    OneBasis events ↔ ∀ config, state.config = some config →
      ∀ entry ∈ (booksOf events).summed state config.windowId, entry.basis = some config.basis := by
  constructor
  · intro h config hconfig
    exact (h state config hstate hconfig).2
  · intro h state' config hstate' hconfig
    cases hstate.symm.trans hstate'
    refine ⟨?_, h config hconfig⟩
    rw [(posted hstate).basis, hconfig]
    rfl

/-! ## Calls -/

/-- The configuration may follow what is in force. -/
def Accepts (state : PoolState) (config : PoolConfig) : Prop :=
  ∀ previous, state.config = some previous → previous.epoch ≤ config.epoch ∧
    (state.unresolved = true → SpendLedger.changesIdentity previous config = false)

theorem validateConfig_obj {document : Json} {config : PoolConfig}
    (h : validateConfig document = .ok config) : ∃ body, document = .obj body := by
  unfold validateConfig at h
  obtain ⟨data, hdata, -⟩ := bind_ok h
  cases document with
  | obj body => exact ⟨body, rfl⟩
  | _ => cases hdata

namespace SpendLedger

theorem configure_spec {L next : SpendLedger} {document : Json} {now : Datetime}
    {response : Members} (h : L.configure document now = .ok (next, response)) :
    ∃ config body state, validateConfig document = .ok config ∧ document = .obj body ∧
      fold (L.poolEvents config.poolId) = .ok state ∧ Accepts state config ∧
      next = (L.append config.poolId (.poolConfig body) now).1 := by
  unfold configure at h
  obtain ⟨config, hconfig, h⟩ := bind_ok h
  obtain ⟨state, hstate, h⟩ := bind_ok h
  obtain ⟨body, rfl⟩ := validateConfig_obj hconfig
  dsimp only at h
  cases hprevious : state.config with
  | none =>
    rw [hprevious] at h
    cases h
    refine ⟨config, body, state, hconfig, rfl, hstate, ?_, rfl⟩
    intro previous hsome
    cases hprevious.symm.trans hsome
  | some previous =>
    rw [hprevious] at h
    dsimp only at h
    split_ifs at h with hepoch hidentity
    cases h
    refine ⟨config, body, state, hconfig, rfl, hstate, ?_, rfl⟩
    intro previous' hsome
    cases hprevious.symm.trans hsome
    constructor
    · exact not_lt.mp hepoch
    · intro hunresolved
      simpa [hunresolved] using hidentity

/-- A configuration that may follow is recorded. -/
theorem step_configure {L : SpendLedger} {body : Members} {now : Datetime} {config : PoolConfig}
    {state : PoolState} (hconfig : validateConfig (.obj body) = .ok config)
    (hstate : fold (L.poolEvents config.poolId) = .ok state) (haccepts : Accepts state config) :
    L.step (.configure (.obj body) now) = (L.append config.poolId (.poolConfig body) now).1 := by
  have hanswer : L.configure (.obj body) now =
      .ok ((L.append config.poolId (.poolConfig body) now).1,
        [("pool_id", .str config.poolId), ("revision", .int (state.revision + 1))]) := by
    refine bind_of_ok hconfig (bind_of_ok hstate ?_)
    cases hprevious : state.config with
    | none => rfl
    | some previous =>
      obtain ⟨hepoch, hidentity⟩ := haccepts previous hprevious
      dsimp only
      rw [if_neg (not_lt.mpr hepoch), if_neg]
      · rfl
      · rintro ⟨hunresolved, hchanges⟩
        rw [hidentity hunresolved] at hchanges
        cases hchanges
  have hcall : L.answer (.configure (.obj body) now) = _ := hanswer
  rw [step, hcall]

end SpendLedger

/-- The call hands the pool to another owner. -/
def Call.failsOver : Call → Bool
  | .failOver .. => true
  | _ => false

def Event.configures : Event → Bool
  | .poolConfig _ => true
  | _ => false

namespace SpendLedger

omit [Readers] in
theorem configures_append (L : SpendLedger) (pool poolId : String) {event : Event}
    (h : event.configures = false) (now : Datetime) :
    ((L.append pool event now).1.poolEvents poolId).filter Event.configures =
      (L.poolEvents poolId).filter Event.configures := by
  rw [poolEvents_append, List.filter_append]
  by_cases hpool : pool = poolId <;> simp [hpool, h]

theorem step_configures (L : SpendLedger) {call : Call} (poolId : String)
    (hcall : ∀ document now, call ≠ .configure document now) (hover : call.failsOver = false) :
    ((L.step call).poolEvents poolId).filter Event.configures =
      (L.poolEvents poolId).filter Event.configures := by
  unfold step
  cases hanswer : L.answer call with
  | error e => rfl
  | ok result =>
    obtain ⟨next, response⟩ := result
    show (next.poolEvents poolId).filter Event.configures = _
    cases call with
    | configure document now => exact absurd rfl (hcall document now)
    | reserve caller document now =>
      obtain ⟨rfl, -⟩ | ⟨request, state, -, -, ⟨rfl, -⟩ | ⟨decided, -, hdecided, rfl⟩⟩ :=
        reserve_ok hanswer
      · rfl
      · rfl
      · rw [poolEvents_store]
        obtain ⟨reason, rfl⟩ | ⟨-, config, body, -, -, -, -, -, rfl⟩ := decideRequest_ok hdecided
        · exact configures_append L _ poolId rfl now
        · exact configures_append L _ poolId rfl now
    | settle caller document now =>
      obtain ⟨rfl, -⟩ | ⟨data, pool, body, -, ⟨rfl, -⟩ | ⟨charged, -, hcharged, rfl⟩⟩ :=
        settle_ok hanswer
      · rfl
      · rfl
      · rw [poolEvents_store]
        obtain ⟨reason, rfl⟩ | ⟨state, r, -, -, -, -, -, rfl⟩ := charge_ok hcharged
        · exact configures_append L _ poolId rfl now
        · exact configures_append L _ poolId rfl now
    | reconcile document now =>
      obtain ⟨pool, body, state, r, -, -, -, -, rfl⟩ := reconcile_ok hanswer
      exact configures_append L _ poolId rfl now
    | query caller document => rw [query_keeps hanswer]
    | recordRevocation pool verified now =>
      obtain rfl | ⟨revocation, rfl⟩ := recordRevocation_ok hanswer
      · rfl
      · exact configures_append L _ poolId rfl now
    | failOver pool verified now => cases hover
    | reopen ownerHubId =>
      cases hanswer
      rfl

/-- What such a call adds. -/
theorem step_records_plain (L : SpendLedger) {call : Call} (poolId : String)
    (hcall : ∀ document now, call ≠ .configure document now) (hover : call.failsOver = false) :
    ∃ events, (L.step call).poolEvents poolId = L.poolEvents poolId ++ events ∧
      Records L poolId events ∧ events.filter Event.configures = [] := by
  obtain ⟨events, hevents, hrecords⟩ := L.step_records call poolId
  have hplain := L.step_configures poolId hcall hover
  rw [hevents, List.filter_append] at hplain
  exact ⟨events, hevents, hrecords, List.append_right_eq_self.mp hplain⟩

end SpendLedger

/-! ## One step -/

/-- An event that leaves the configuration, and adds amounts of its basis only. -/
theorem OneBasis.post {events : List Event} {event : Event} (h : OneBasis events)
    (hnew : ∀ state next, fold events = .ok state → foldEvent state event = .ok next →
      next.config = state.config ∧ ∀ config, state.config = some config →
        ∀ entry ∈ ((booksOf events).post event).summed next config.windowId,
          entry.basis = (booksOf events).basis ∨
            entry ∈ (booksOf events).summed state config.windowId) :
    OneBasis (events ++ [event]) := by
  intro next config hfold hconfig
  obtain ⟨state, hstate, hlast⟩ := fold_append hfold
  obtain ⟨hkept, hnew⟩ := hnew state next hstate (fold_singleton hlast)
  refine (oneBasis_iff hfold).mpr ?_ next config hfold hconfig
  intro config' hconfig' entry hentry
  rw [hkept] at hconfig'
  obtain ⟨hbasis, hall⟩ := h state config' hstate hconfig'
  rw [booksOf_append] at hentry
  rcases hnew config' hconfig' entry hentry with hnow | hold
  · exact hnow.trans hbasis
  · exact hall entry hold

omit [Readers] in
theorem mem_summed_of_open {books : Books} {state : PoolState} {rid window : String}
    {r : Reservation} {account : Account} {entry : Entry}
    (hr : state.reservations.get? rid = some r) (haccount : books.accounts.get? rid = some account)
    (hopen : r.closed = false) (h : entry ∈ account.exposure :: account.charges) :
    entry ∈ books.summed state window :=
  mem_summed.mpr ⟨rid, r, hr, mem_summedFor.mpr ⟨account, haccount, .inr ⟨hopen, h⟩⟩⟩

theorem OneBasis.grant {events : List Event} {body : Grant} (h : OneBasis events) :
    OneBasis (events ++ [.grant body]) := by
  apply h.post
  intro state next _ hnext
  obtain ⟨config, hconfig, -, rfl⟩ := foldEvent_grant hnext
  refine ⟨rfl, ?_⟩
  intro config' _ entry hentry
  rcases mem_summed_set hentry with ⟨-, hcharge⟩ | ⟨-, hopen⟩ | hold
  · cases hcharge
  · rw [List.mem_singleton] at hopen
    rw [hopen]
    exact .inl rfl
  · exact .inr hold

theorem OneBasis.settlement {events : List Event} {body : Settlement} {state : PoolState}
    {r : Reservation} (h : OneBasis events) (hstate : fold events = .ok state)
    (hr : state.reservations.get? body.reservationId = some r) (hopen : r.closed = false) :
    OneBasis (events ++ [.settlement body]) := by
  apply h.post
  intro state' next hstate' hnext
  cases hstate.symm.trans hstate'
  obtain ⟨r', charged, hr', hcharged, rfl⟩ := foldEvent_settlement hnext
  cases hr.symm.trans hr'
  obtain ⟨account, haccount, -, -⟩ := (posted hstate).account hr
  refine ⟨rfl, ?_⟩
  intro config _ entry hentry
  rw [Books.post_settlement _ haccount] at hentry
  -- the open reservation had its exposure and charges summed already
  have hold : ∀ old ∈ account.exposure :: account.charges,
      old ∈ (booksOf events).summed state config.windowId :=
    fun old => mem_summed_of_open hr haccount hopen
  rcases mem_summed_set hentry with ⟨-, hcharge⟩ | ⟨-, hmem⟩ | hother
  · rcases List.mem_append.mp hcharge with hcharge | hnow
    · exact .inr (hold entry (List.mem_cons_of_mem _ hcharge))
    · rw [List.mem_singleton.mp hnow]
      exact .inl rfl
  · rcases List.mem_cons.mp hmem with rfl | hcharge
    · exact .inr (hold _ List.mem_cons_self)
    · rcases List.mem_append.mp hcharge with hcharge | hnow
      · exact .inr (hold entry (List.mem_cons_of_mem _ hcharge))
      · rw [List.mem_singleton.mp hnow]
        exact .inl rfl
  · exact .inr hother

theorem OneBasis.reconciliation {events : List Event} {body : Reconciliation}
    (h : OneBasis events) : OneBasis (events ++ [.reconciliation body]) := by
  apply h.post
  intro state next hstate hnext
  obtain ⟨r, hr, rfl⟩ := foldEvent_reconciliation hnext
  obtain ⟨account, haccount, -, -⟩ := (posted hstate).account hr
  refine ⟨rfl, ?_⟩
  intro config _ entry hentry
  rw [Books.post_reconciliation _ haccount] at hentry
  rcases mem_summed_set hentry with ⟨-, hcharge⟩ | ⟨hclosed, -⟩ | hother
  · rw [List.mem_singleton.mp hcharge]
    exact .inl rfl
  · cases hclosed
  · exact .inr hother

/-- An event that changes neither the fold nor the books. -/
theorem OneBasis.idle {events : List Event} {event : Event} (h : OneBasis events)
    (hfold : ∀ state next, foldEvent state event = .ok next →
      next.config = state.config ∧ next.reservations = state.reservations)
    (hpost : ∀ books : Books, books.post event = books) : OneBasis (events ++ [event]) := by
  apply h.post
  intro state next _ hnext
  obtain ⟨hconfig, hreservations⟩ := hfold state next hnext
  refine ⟨hconfig, ?_⟩
  intro config _ entry hentry
  rw [hpost, mem_summed, hreservations] at hentry
  exact .inr (mem_summed.mpr hentry)

/-- Each call but a configuration and a failover records amounts of the
basis in force. -/
theorem records_oneBasis {L : SpendLedger} {poolId : String} {events : List Event}
    (hrecords : L.Records poolId events) (hplain : events.filter Event.configures = [])
    (h : OneBasis (L.poolEvents poolId)) : OneBasis (L.poolEvents poolId ++ events) := by
  cases hrecords with
  | nothing =>
    rw [List.append_nil]
    exact h
  | poolConfig body => cases hplain
  | grant hstate hconfig hadmitted hexposure hwindow => exact h.grant
  | settlement hstate hr hopen hamount htotal => exact h.settlement hstate hr hopen
  | refusal caller reason request =>
    refine h.idle ?_ (fun _ => rfl)
    intro state next hnext
    cases hnext
    exact ⟨rfl, rfl⟩
  | reconciliation hstate hr hclosed hamount => exact h.reconciliation
  | ownerRevocation body =>
    refine h.idle ?_ (fun _ => rfl)
    intro state next hnext
    cases hnext
    exact ⟨rfl, rfl⟩
  | failOver revocation body => cases hplain

/-! ## Configurations -/

/-- What is summed once `config` is recorded. -/
theorem oneBasis_configured {events : List Event} {body : Members} {config : PoolConfig}
    {state : PoolState} (hconfig : validateConfig (.obj body) = .ok config)
    (hstate : fold events = .ok state) :
    OneBasis (events ++ [.poolConfig body]) ↔
      ∀ entry ∈ (booksOf events).summed state config.windowId, entry.basis = some config.basis := by
  have hfold : fold (events ++ [.poolConfig body]) =
      .ok { state with config := some config, revision := state.revision + 1 } := by
    rw [fold_append_of_ok hstate]
    exact bind_of_ok (bind_of_ok hconfig rfl) rfl
  rw [oneBasis_iff hfold, booksOf_append]
  constructor
  · intro h entry hentry
    exact h config rfl entry (mem_summed.mpr (mem_summed.mp hentry))
  · intro h config' hconfig' entry hentry
    cases hconfig'
    exact h entry (mem_summed.mpr (mem_summed.mp hentry))

/-- An accepted configuration keeps one basis exactly when the charges of
its window have its basis: what is still open has it already. -/
theorem accepts_oneBasis {events : List Event} {body : Members} {config : PoolConfig}
    {state : PoolState} (h : OneBasis events) (hconfig : validateConfig (.obj body) = .ok config)
    (hstate : fold events = .ok state) (haccepts : Accepts state config) :
    OneBasis (events ++ [.poolConfig body]) ↔
      ∀ entry ∈ (booksOf events).chargesOf state config.windowId,
        entry.basis = some config.basis := by
  rw [oneBasis_configured hconfig hstate]
  constructor
  · intro hall entry hentry
    obtain ⟨rid, r, account, hr, haccount, hwindow, hcharge⟩ := mem_chargesOf.mp hentry
    exact hall entry (mem_summed.mpr ⟨rid, r, hr,
      mem_summedFor.mpr ⟨account, haccount, .inl ⟨hwindow, hcharge⟩⟩⟩)
  · intro hcharges entry hentry
    obtain ⟨rid, r, hr, hentry⟩ := mem_summed.mp hentry
    obtain ⟨account, haccount, ⟨hwindow, hcharge⟩ | ⟨hopen, hmem⟩⟩ := mem_summedFor.mp hentry
    · exact hcharges entry (mem_chargesOf.mpr ⟨rid, r, account, hr, haccount, hwindow, hcharge⟩)
    · obtain ⟨previous, hprevious⟩ := (posted hstate).configured rid r hr
      have hunresolved : state.unresolved = true := by
        unfold PoolState.unresolved
        rw [List.any_eq_true]
        exact ⟨r, (Dict.mem_values_iff _ r).mpr ⟨rid, hr⟩, by simp [hopen]⟩
      have hsame := changesIdentity_eq_false.mp ((haccepts previous hprevious).2 hunresolved)
      rw [← hsame]
      exact (h state previous hstate hprevious).2 entry (mem_summed_of_open hr haccount hopen hmem)

/-- The call is no accepted configuration of `poolId` for a window whose
charges were recorded in another basis. -/
def KeepsWindow (poolId : String) (L : SpendLedger) : Call → Prop
  | .configure document _ =>
    ∀ config state, validateConfig document = .ok config → config.poolId = poolId →
      fold (L.poolEvents poolId) = .ok state → Accepts state config →
      ∀ entry ∈ (booksOf (L.poolEvents poolId)).chargesOf state config.windowId,
        entry.basis = some config.basis
  | _ => True

theorem configure_oneBasis {L : SpendLedger} {document : Json} {now : Datetime} {poolId : String}
    (h : OneBasis (L.poolEvents poolId)) :
    OneBasis ((L.step (.configure document now)).poolEvents poolId) ↔
      KeepsWindow poolId L (.configure document now) := by
  constructor
  · intro hafter config state hconfig hpool hstate haccepts
    obtain ⟨body, rfl⟩ := validateConfig_obj hconfig
    subst hpool
    rw [SpendLedger.step_configure hconfig hstate haccepts, SpendLedger.poolEvents_append,
      if_pos rfl] at hafter
    exact (accepts_oneBasis h hconfig hstate haccepts).mp hafter
  · intro hkeeps
    unfold SpendLedger.step
    cases hanswer : L.answer (.configure document now) with
    | error e => exact h
    | ok result =>
      obtain ⟨next, response⟩ := result
      obtain ⟨config, body, state, hconfig, rfl, hstate, haccepts, rfl⟩ :=
        SpendLedger.configure_spec hanswer
      dsimp only
      rw [SpendLedger.poolEvents_append]
      by_cases hpool : config.poolId = poolId
      · subst hpool
        rw [if_pos rfl, accepts_oneBasis h hconfig hstate haccepts]
        exact hkeeps config state hconfig rfl hstate haccepts
      · rw [if_neg hpool, List.append_nil]
        exact h

/-- One call: the pool has one basis after it exactly when it keeps the
basis of the windows. -/
theorem step_oneBasis {L : SpendLedger} {call : Call} {poolId : String}
    (hover : call.failsOver = false) (h : OneBasis (L.poolEvents poolId)) :
    OneBasis ((L.step call).poolEvents poolId) ↔ KeepsWindow poolId L call := by
  by_cases hcall : ∃ document now, call = .configure document now
  · obtain ⟨document, now, rfl⟩ := hcall
    exact configure_oneBasis h
  · have hplain : ∀ document now, call ≠ .configure document now :=
      fun document now hsame => hcall ⟨document, now, hsame⟩
    obtain ⟨events, hevents, hrecords, hnone⟩ := L.step_records_plain poolId hplain hover
    have hkeeps : KeepsWindow poolId L call := by
      cases call with
      | configure document now => exact absurd rfl (hplain document now)
      | _ => trivial
    rw [hevents]
    exact iff_of_true (records_oneBasis hrecords hnone h) hkeeps

theorem oneBasis_nil : OneBasis [] := by
  intro state config hstate hconfig
  cases hstate
  cases hconfig

/-! ## Runs -/

section
variable (ownerHubId poolId : String)

open SpendLedger

/-- The books of a run agree with what its ledger folds to, and every amount
admission sums is of the basis of the configuration in force, at every point
of the run exactly when no call configures a window whose charges have
another basis. -/
theorem one_basis_per_bound_iff (calls : List Call)
    (hover : ∀ call ∈ calls, call.failsOver = false) :
    (∀ pre, pre <+: calls → ∀ state, fold ((run ownerHubId pre).poolEvents poolId) = .ok state →
        Posted state (booksOf ((run ownerHubId pre).poolEvents poolId))) ∧
      ((∀ pre, pre <+: calls → OneBasis ((run ownerHubId pre).poolEvents poolId)) ↔
        Trace.Every step (KeepsWindow poolId) { ownerHubId := ownerHubId } calls) := by
  constructor
  · intro pre _ state hstate
    exact posted hstate
  · rw [Trace.every_iff]
    constructor
    · intro h pre call hpre
      have hbefore := h pre ((List.prefix_append pre [call]).trans hpre)
      have hafter := h (pre ++ [call]) hpre
      rw [run_append] at hafter
      exact (step_oneBasis (hover call (hpre.subset (by simp))) hbefore).mp hafter
    · intro h pre
      induction pre using List.reverseRecOn with
      | nil =>
        intro _
        exact oneBasis_nil
      | append_singleton pre call ih =>
        intro hpre
        have hbefore := ih ((List.prefix_append pre [call]).trans hpre)
        rw [run_append]
        exact (step_oneBasis (hover call (hpre.subset (by simp))) hbefore).mpr (h pre call hpre)

end

/-! ## A pool that changes its unit -/

instance (events : List Event) : Decidable (OneBasis events) :=
  match hstate : fold events with
  | .error _ => isTrue fun _ _ hfold => by cases hstate.symm.trans hfold
  | .ok state =>
    match hconfig : state.config with
    | none => isTrue fun state' config hfold hsome => by
        cases hstate.symm.trans hfold
        cases hconfig.symm.trans hsome
    | some config =>
      decidable_of_iff
        (∀ entry ∈ (booksOf events).summed state config.windowId, entry.basis = some config.basis)
        ((oneBasis_iff hstate).trans ⟨fun h => h config hconfig, fun h config' hsome =>
          Option.some.inj (hconfig.symm.trans hsome) ▸ h⟩).symm

/-- The small pool in another unit. -/
def smallPoolIn (unit endsAt : String) : Json :=
  match smallPool endsAt with
  | .obj members => .obj (Dict.put "unit" (.str unit) members)
  | other => other

def finalSettlement (reservationId amount : String) : Json :=
  match smallSettlement reservationId amount with
  | .obj members => .obj (Dict.put "final" (.bool true) members)
  | other => other

/-- A grant of 6 tokens settled at 5, and then the window counts requests. -/
def rebased : List Call :=
  [.configure (smallPool "2027-01-01T00:00:00+00:00") (midnight 739960),
    .reserve "A" (smallRequest "k" "5") (midnight 739960),
    .settle "A" (finalSettlement "rsv-7eca609d5915a6f17b966b6c0edf446e" "5") (midnight 739960),
    .configure (smallPoolIn "req" "2027-01-01T00:00:00+00:00") (midnight 739960)]

omit [Readers] in
/-- The 5 tokens charged count against the bound on requests. -/
theorem settled_tokens_count_as_requests :
    letI := Readers.listed [("2026-12-01T00:00:00+00:00", midnight 739950),
      ("2027-01-01T00:00:00+00:00", midnight 739981)]
    ¬ ∀ pre, pre <+: rebased → OneBasis ((SpendLedger.run "hub" pre).poolEvents "pool") := by
  let _ := Readers.listed [("2026-12-01T00:00:00+00:00", midnight 739950),
    ("2027-01-01T00:00:00+00:00", midnight 739981)]
  intro h
  have hlast : ¬ OneBasis ((SpendLedger.run "hub" rebased).poolEvents "pool") := by decide +kernel
  exact hlast (h rebased List.prefix_rfl)

omit [Readers] in
/-- Before the change of unit every amount is in tokens. -/
theorem one_basis_per_bound_iff_settled :
    letI := Readers.listed [("2026-12-01T00:00:00+00:00", midnight 739950),
      ("2027-01-01T00:00:00+00:00", midnight 739981)]
    OneBasis ((SpendLedger.run "hub" (rebased.take 3)).poolEvents "pool") := by
  let _ := Readers.listed [("2026-12-01T00:00:00+00:00", midnight 739950),
    ("2027-01-01T00:00:00+00:00", midnight 739981)]
  refine (one_basis_per_bound_iff "hub" "pool" (rebased.take 3) (by decide)).2.mpr ?_ _
    List.prefix_rfl
  refine ⟨?_, trivial, trivial, trivial⟩
  intro config state _ _ hstate _ entry hentry
  cases hstate
  cases hentry

end SynapseChannel.Spend
