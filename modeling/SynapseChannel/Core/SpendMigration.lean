import SynapseChannel.Lib.DictMove
import SynapseChannel.Lib.Segments
import SynapseChannel.Core.SpendOnce

/-!
# Core — SpendMigration

A ledger file of the first schema stored a reservation's answer under a
scope without the quota window. Its first open moves every such answer to
the scope of the window it was decided in, in one transaction.
-/

namespace SynapseChannel.Spend

open Py Outcome SpendLedger

/-! ## Opening a file -/

def schemaVersion : Nat := 2

def legacySchemaVersion : Nat := 1

/-- What a ledger file holds: its `user_version` and its tables. -/
structure LedgerFile where
  version : Nat
  tables : SpendLedger

/-- An open connection: the file, and the copy the statements of the open
transaction have changed. -/
structure Connection where
  file : LedgerFile
  working : LedgerFile

/-- A stored answer: its scope, its request digest and its response. -/
abbrev OperationRow := String × String × Members

abbrev Operations := Dict String (String × Members)

namespace Connection

/-- `BEGIN IMMEDIATE` and `ROLLBACK`. -/
def reset (c : Connection) : Connection := { c with working := c.file }

def commit (c : Connection) : Connection := { c with file := c.working }

def setOperations (c : Connection) (operations : Operations) : Connection :=
  { c with working := { c.working with
      tables := { c.working.tables with operations := operations } } }

def setVersion (c : Connection) (version : Nat) : Connection :=
  { c with working := { c.working with version := version } }

end Connection

def unmatched : String :=
  "a version 1 reservation answer has no matching ledger event; " ++
    "the ledger needs operator repair before it can be used"

def malformed : String :=
  "a version 1 reservation answer is malformed; " ++
    "the ledger needs operator repair before it can be used"

/-- The grant id of a stored grant, or `scope` for a stored refusal. -/
def legacyDecision (scope : String) (answer : Members) : Except String String :=
  match Members.get answer "admitted" with
  | .bool true =>
    match Members.get answer "reservation_id" with
    | .str grantId => .ok grantId
    | _ => .error malformed
  | _ => .ok scope

/-- `request[name]`. -/
def member (request : Members) (name : String) : Except String Json :=
  match request.get? name with
  | some value => .ok value
  | none => .error ("'" ++ name ++ "'")

/-- `_scope(*parts)` of decoded values. -/
def scopeOfValues (values : List Json) : Except String String := do
  let parts ← values.mapM fun
    | .str s => Except.ok s
    | _ => .error "expected str instance"
  return scope parts

/-- The window each grant and each refused scope was decided in, and the
window each pool is in. -/
structure LegacyWindows where
  windows : Dict String String := Dict.empty
  current : Dict String String := Dict.empty

namespace LegacyWindows

/-- `current.get(pool_id, "")`. -/
def inForce (state : LegacyWindows) (poolId : String) : String :=
  (state.current.get? poolId).getD ""

/-- Note a decision made in the pool's window. -/
def decide (state : LegacyWindows) (key poolId : String) : LegacyWindows :=
  { state with windows := state.windows.set key (state.inForce poolId) }

end LegacyWindows

section
variable [Readers]

/-- Replay one event. -/
def legacyWindow (state : LegacyWindows) (row : EventRow) : Except String LegacyWindows :=
  match row.event with
  | .poolConfig body => do
    let config ← validateConfig (.obj body)
    return { state with current := state.current.set row.poolId config.windowId }
  | .grant body => .ok (state.decide body.reservationId row.poolId)
  | .refusal caller _ request =>
    if request.contains "key" then do
      let values ← ["seat", "task", "operation", "key"].mapM (member request)
      let scope ← scopeOfValues ([.str "reserve", .str caller, .str row.poolId] ++ values)
      return state.decide scope row.poolId
    else .ok state
  | _ => .ok state

/-- Map each grant id and each refused scope to the window it was decided
in. -/
def legacyWindows (events : List EventRow) : Except String (Dict String String) :=
  match events.foldlM legacyWindow {} with
  | .ok state => .ok state.windows
  | .error e => .error ("a version 1 ledger event cannot be read for migration: " ++ e)

section

omit [Readers]

/-- Where one stored answer moves; other rows stay. -/
def newScope (windows : Dict String String) (row : OperationRow) :
    Except String (Option String) :=
  let parts := split row.1 '\x00'
  if parts.head? ≠ some "reserve" ∨ parts.length ≠ 7 then .ok none
  else do
    match windows.get? (← legacyDecision row.1 row.2.2) with
    | none => .error unmatched
    | some window => return some (scope (parts.take 3 ++ window :: parts.drop 3))

/-- `UPDATE operations SET scope = ? WHERE scope = ?` for one stored row. -/
def moveRow (windows : Dict String String) (operations : Operations) (row : OperationRow) :
    Except String Operations := do
  match ← newScope windows row with
  | none => return operations
  | some moved => operations.move row.1 moved

/-- The rows in turn; the statements before a failing one have run. -/
def moveRows (windows : Dict String String) :
    List OperationRow → Connection → Connection × Except String Unit
  | [], c => (c, .ok ())
  | row :: rest, c =>
    match moveRow windows c.working.tables.operations row with
    | .error e => (c, .error e)
    | .ok operations => moveRows windows rest (c.setOperations operations)

end

/-- The statements between `BEGIN` and `COMMIT`. -/
def rekeyAnswers (c : Connection) : Connection × Except String Unit :=
  match legacyWindows c.working.tables.events with
  | .error e => (c, .error e)
  | .ok windows =>
    match moveRows windows c.working.tables.operations.items c with
    | (c, .error e) => (c, .error e)
    | (c, .ok ()) => (c.setVersion schemaVersion, .ok ())

/-- Re-key version 1 reservation answers to their window. -/
def migrateWindowScopes (c : Connection) : Connection × Except String Unit :=
  match rekeyAnswers c.reset with
  | (c, .error e) => (c.reset, .error e)
  | (c, .ok ()) => (c.commit, .ok ())

/-- Open an existing ledger file: the file afterwards, and what opening it
raises. -/
def connect (file : LedgerFile) : LedgerFile × Except String Unit :=
  if file.version = 0 then (file, .error "an unversioned spend ledger is refused")
  else if file.version = legacySchemaVersion then
    let (c, outcome) := migrateWindowScopes ⟨file, file⟩
    (c.file, outcome)
  else if file.version ≠ schemaVersion then
    (file, .error ("unsupported spend ledger version " ++ toString file.version))
  else (file, .ok ())

/-! ## A failed migration -/

omit [Readers] in
theorem moveRows_file {windows : Dict String String} {rows : List OperationRow}
    {c : Connection} : (moveRows windows rows c).1.file = c.file := by
  induction rows generalizing c with
  | nil => rfl
  | cons row rest ih =>
    unfold moveRows
    split
    · rfl
    · exact ih

/-- Until the commit the file is as it was. -/
theorem rekeyAnswers_file {c : Connection} : (rekeyAnswers c).1.file = c.file := by
  unfold rekeyAnswers
  cases hwindows : legacyWindows c.working.tables.events with
  | error e => rfl
  | ok windows =>
    have hfile := @moveRows_file windows c.working.tables.operations.items c
    dsimp only
    cases hmoved : moveRows windows c.working.tables.operations.items c with
    | mk c' outcome =>
      rw [hmoved] at hfile
      cases outcome with
      | error e => exact hfile
      | ok _ => exact hfile

theorem migrateWindowScopes_error {c : Connection} {e : String}
    (h : (migrateWindowScopes c).2 = .error e) : (migrateWindowScopes c).1.file = c.file := by
  have hfile := @rekeyAnswers_file _ c.reset
  unfold migrateWindowScopes at h ⊢
  cases hrekeyed : rekeyAnswers c.reset with
  | mk c' outcome =>
    rw [hrekeyed] at h hfile
    cases outcome with
    | error e' => exact hfile
    | ok _ => cases h

theorem connect_legacy {tables : SpendLedger} :
    connect ⟨legacySchemaVersion, tables⟩ =
      ((migrateWindowScopes ⟨⟨legacySchemaVersion, tables⟩, ⟨legacySchemaVersion, tables⟩⟩).1.file,
        (migrateWindowScopes ⟨⟨legacySchemaVersion, tables⟩,
          ⟨legacySchemaVersion, tables⟩⟩).2) := rfl

/-- An open that raises leaves the file as it was. -/
theorem connect_error {file : LedgerFile} {e : String} (h : (connect file).2 = .error e) :
    (connect file).1 = file := by
  by_cases hlegacy : file.version = legacySchemaVersion
  · obtain ⟨version, tables⟩ := file
    obtain rfl : version = legacySchemaVersion := hlegacy
    rw [connect_legacy] at h ⊢
    exact migrateWindowScopes_error h
  · unfold connect at h ⊢
    rw [if_neg hlegacy] at h ⊢
    split
    · rfl
    · split <;> rfl

omit [Readers] in
theorem moveRows_eq {windows : Dict String String} {rows : List OperationRow} {c : Connection}
    {operations : Operations}
    (h : rows.foldlM (moveRow windows) c.working.tables.operations = .ok operations) :
    moveRows windows rows c = (c.setOperations operations, .ok ()) := by
  induction rows generalizing c with
  | nil =>
    cases h
    rfl
  | cons row rest ih =>
    rw [List.foldlM_cons] at h
    obtain ⟨mid, hmid, hrest⟩ := bind_ok h
    unfold moveRows
    rw [hmid]
    exact ih (c := c.setOperations mid) hrest

/-! ## Version 1 ledgers -/

omit [Readers] in
/-- A request's scope in the first schema. -/
def legacyScope (caller : String) (request : ReservationRequest) : String :=
  scope ["reserve", caller, request.poolId, request.seat, request.task, request.operation,
    request.key]

end

/-- What one call left in the tables of a version 1 ledger. The admission
rules of that version are not looked at: any decision may be recorded. -/
inductive LegacyEntry where
  | configured (poolId : String) (body : Members) (now : Datetime)
  | granted (caller : String) (request : ReservationRequest) (body : Grant) (answer : Members)
      (now : Datetime)
  | refused (caller : String) (request : ReservationRequest) (reason : String) (now : Datetime)
  | charged (caller poolId : String) (data : Members) (body : Settlement) (answer : Members)
      (now : Datetime)
  | notCharged (caller poolId : String) (data : Members) (body : Settlement) (now : Datetime)
  | reconciled (poolId : String) (body : Reconciliation) (now : Datetime)
  | revoked (poolId : String) (body : OwnerRevocation) (now : Datetime)

namespace LegacyEntry

def poolId : LegacyEntry → String
  | configured poolId .. | charged _ poolId .. | notCharged _ poolId .. | reconciled poolId ..
  | revoked poolId .. => poolId
  | granted _ request .. | refused _ request .. => request.poolId

def event : LegacyEntry → Event
  | configured _ body _ => .poolConfig body
  | granted _ _ body _ _ => .grant body
  | refused caller request reason _ => .refusal caller reason request.document
  | charged _ _ _ body _ _ => .settlement body
  | notCharged caller _ data _ _ => .refusal caller "settlement_not_accepted" data
  | reconciled _ body _ => .reconciliation body
  | revoked _ body _ => .ownerRevocation body

def now : LegacyEntry → Datetime
  | configured _ _ now | granted _ _ _ _ now | refused _ _ _ now | charged _ _ _ _ _ now
  | notCharged _ _ _ _ now | reconciled _ _ now | revoked _ _ now => now

/-- A reservation that was answered: the caller, the request and the
answer. -/
def decision : LegacyEntry → Option (String × ReservationRequest × Members)
  | granted caller request _ answer _ => some (caller, request, answer)
  | refused caller request _ _ => some (caller, request, refusal "admitted")
  | _ => none

/-- A settlement that was answered. -/
def settlement : LegacyEntry → Option (String × String × Members × Settlement × Members)
  | charged caller poolId data body answer _ => some (caller, poolId, data, body, answer)
  | notCharged caller poolId data body _ => some (caller, poolId, data, body, refusal "settled")
  | _ => none

variable [Readers]

/-- The row the entry stored. -/
def stored : LegacyEntry → Option OperationRow
  | granted caller request _ answer _ =>
    some (legacyScope caller request, requestDigest caller request, answer)
  | refused caller request _ _ =>
    some (legacyScope caller request, requestDigest caller request, refusal "admitted")
  | charged caller poolId data body answer _ =>
    some (settleScope caller poolId body, digestOf (("caller", .str caller) :: data), answer)
  | notCharged caller poolId data body _ =>
    some (settleScope caller poolId body, digestOf (("caller", .str caller) :: data),
      refusal "settled")
  | _ => none

end LegacyEntry

variable [Readers]

namespace SpendLedger

/-- The tables with one more entry. -/
def record (L : SpendLedger) (entry : LegacyEntry) : SpendLedger :=
  let appended := (L.append entry.poolId entry.event entry.now).1
  match entry.stored with
  | none => appended
  | some (s, digest, answer) => appended.store s digest answer

/-- A request that validated, of a caller whose name has no NUL, under a
scope without an answer. -/
structure Asked (L : SpendLedger) (caller : String) (request : ReservationRequest) : Prop where
  plain : '\x00' ∉ caller.toList
  valid : ∃ document, validateRequest document = .ok request
  fresh : L.operations.get? (legacyScope caller request) = none

/-- A settlement that validated, under a scope without an answer. -/
structure Settles (L : SpendLedger) (caller poolId : String) (data : Members)
    (body : Settlement) : Prop where
  valid : ∃ document, validateSettlement document = .ok (data, poolId, body)
  fresh : L.operations.get? (settleScope caller poolId body) = none

/-- An entry a version 1 call could leave: an answer is stored once, and a
granted one names the grant's id, which is derived from the scope. -/
def Written (L : SpendLedger) : LegacyEntry → Prop
  | .granted caller request body answer _ =>
    L.Asked caller request ∧ body.reservationId = reservationIdOf (legacyScope caller request) ∧
      Members.get answer "admitted" = .bool true ∧
      Members.get answer "reservation_id" = .str body.reservationId
  | .refused caller request _ _ => L.Asked caller request
  | .charged caller poolId data body _ _ | .notCharged caller poolId data body _ =>
    L.Settles caller poolId data body
  | _ => True

end SpendLedger

/-- The tables of a version 1 ledger after a sequence of entries. -/
def legacyRun (ownerHubId : String) (entries : List LegacyEntry) : SpendLedger :=
  Trace.run SpendLedger.record { ownerHubId := ownerHubId } entries

/-- The entries of a version 1 ledger. -/
def LegacyLedger (ownerHubId : String) (entries : List LegacyEntry) : Prop :=
  Trace.Every SpendLedger.record SpendLedger.Written { ownerHubId := ownerHubId } entries

/-! ## What an entry records -/

theorem record_events (L : SpendLedger) (entry : LegacyEntry) :
    (L.record entry).events =
      L.events ++ [⟨L.lastSeq + 1, entry.poolId, entry.now, entry.event⟩] := by
  unfold SpendLedger.record
  cases entry.stored <;> rfl

theorem record_poolEvents (L : SpendLedger) (entry : LegacyEntry) (poolId : String) :
    (L.record entry).poolEvents poolId =
      L.poolEvents poolId ++ if entry.poolId = poolId then [entry.event] else [] := by
  unfold SpendLedger.record
  cases entry.stored with
  | none => exact poolEvents_append ..
  | some row => exact poolEvents_append ..

theorem record_get? (L : SpendLedger) (entry : LegacyEntry) (s : String) :
    (L.record entry).operations.get? s =
      match entry.stored with
      | some row => if row.1 = s then some row.2 else L.operations.get? s
      | none => L.operations.get? s := by
  unfold SpendLedger.record
  cases entry.stored with
  | none => rfl
  | some row => exact Dict.get?_set ..

theorem SpendLedger.Written.fresh {L : SpendLedger} {entry : LegacyEntry} (h : L.Written entry)
    {row : OperationRow} (hrow : entry.stored = some row) : L.operations.get? row.1 = none := by
  cases entry with
  | granted =>
    cases hrow
    exact h.1.fresh
  | refused =>
    cases hrow
    exact Asked.fresh h
  | charged =>
    cases hrow
    exact Settles.fresh h
  | notCharged =>
    cases hrow
    exact Settles.fresh h
  | _ => cases hrow

theorem SpendLedger.Written.record_keeps {L : SpendLedger} {entry : LegacyEntry} (h : L.Written entry) :
    Keeps L (L.record entry) := by
  intro s row hrow
  rw [record_get?]
  cases hstored : entry.stored with
  | none => exact hrow
  | some kept =>
    have hne : kept.1 ≠ s := by
      rintro rfl
      rw [h.fresh hstored] at hrow
      cases hrow
    simp only [if_neg hne, hrow]

section
variable {ownerHubId : String}

theorem legacyRun_append (entries : List LegacyEntry) (entry : LegacyEntry) :
    legacyRun ownerHubId (entries ++ [entry]) = (legacyRun ownerHubId entries).record entry :=
  Trace.run_append ..

theorem LegacyLedger.written {entries pre : List LegacyEntry} {entry : LegacyEntry}
    (h : LegacyLedger ownerHubId entries) (hpre : pre ++ [entry] <+: entries) :
    (legacyRun ownerHubId pre).Written entry :=
  (Trace.every_iff _).mp h pre entry hpre

theorem LegacyLedger.init {entries : List LegacyEntry} {entry : LegacyEntry}
    (h : LegacyLedger ownerHubId (entries ++ [entry])) : LegacyLedger ownerHubId entries :=
  Trace.Every.of_prefix _ h (List.prefix_append _ _)

/-- A stored row is an entry's, and every entry's row is stored. -/
theorem LegacyLedger.get?_iff {entries : List LegacyEntry} (h : LegacyLedger ownerHubId entries)
    {row : OperationRow} :
    (legacyRun ownerHubId entries).operations.get? row.1 = some row.2 ↔
      ∃ pre entry, pre ++ [entry] <+: entries ∧ entry.stored = some row := by
  induction entries using List.reverseRecOn with
  | nil =>
    constructor
    · intro hrow
      cases hrow
    · rintro ⟨pre, entry, hpre, -⟩
      simp at hpre
  | append_singleton entries last ih =>
    have hwritten : (legacyRun ownerHubId entries).Written last := h.written List.prefix_rfl
    rw [legacyRun_append]
    constructor
    · intro hrow
      rw [record_get?] at hrow
      cases hstored : last.stored with
      | none =>
        rw [hstored] at hrow
        obtain ⟨pre, entry, hpre, hentry⟩ := (ih h.init).mp hrow
        exact ⟨pre, entry, hpre.trans (List.prefix_append _ _), hentry⟩
      | some kept =>
        rw [hstored] at hrow
        dsimp only at hrow
        by_cases hkey : kept.1 = row.1
        · rw [if_pos hkey] at hrow
          refine ⟨entries, last, List.prefix_rfl, hstored.trans (congrArg some ?_)⟩
          exact Prod.ext hkey (Option.some.inj hrow)
        · rw [if_neg hkey] at hrow
          obtain ⟨pre, entry, hpre, hentry⟩ := (ih h.init).mp hrow
          exact ⟨pre, entry, hpre.trans (List.prefix_append _ _), hentry⟩
    · rintro ⟨pre, entry, hpre, hentry⟩
      rcases List.prefix_concat_iff.mp hpre with heq | hpre
      · obtain ⟨rfl, hlast⟩ := List.append_inj' heq rfl
        cases hlast
        rw [record_get?, hentry]
        exact if_pos rfl
      · exact hwritten.record_keeps _ _ ((ih h.init).mpr ⟨pre, entry, hpre, hentry⟩)

end

/-! ## Texts without a NUL -/

omit [Readers] in
theorem token_plain {value : Json} {name s : String} (h : token value name = .ok s) :
    '\x00' ∉ s.toList := by
  unfold token at h
  split at h
  · split_ifs at h with hs
    cases h
    intro hmem
    have hchar := List.all_eq_true.mp hs.2.2 _ hmem
    exact absurd hchar (by decide)
  · cases h

/-- The parts of a request's scope are plain. -/
structure PlainRequest (request : ReservationRequest) : Prop where
  poolId : '\x00' ∉ request.poolId.toList
  seat : '\x00' ∉ request.seat.toList
  task : '\x00' ∉ request.task.toList
  operation : '\x00' ∉ request.operation.toList
  key : '\x00' ∉ request.key.toList

theorem validateRequest_plain {document : Json} {request : ReservationRequest}
    (h : validateRequest document = .ok request) : PlainRequest request := by
  unfold validateRequest at h
  obtain ⟨data, -, h⟩ := bind_ok h
  obtain ⟨upper, -, h⟩ := bind_ok h
  split_ifs at h
  obtain ⟨depth, -, h⟩ := bind_ok h
  obtain ⟨tax, -, h⟩ := bind_ok h
  obtain ⟨poolId, hpoolId, h⟩ := bind_ok h
  obtain ⟨seat, hseat, h⟩ := bind_ok h
  obtain ⟨project, -, h⟩ := bind_ok h
  obtain ⟨task, htask, h⟩ := bind_ok h
  obtain ⟨operation, hoperation, h⟩ := bind_ok h
  obtain ⟨key, hkey, h⟩ := bind_ok h
  obtain ⟨unit, -, h⟩ := bind_ok h
  obtain ⟨priceRevision, -, h⟩ := bind_ok h
  obtain ⟨wallSeconds, -, h⟩ := bind_ok h
  cases h
  exact ⟨token_plain hpoolId, token_plain hseat, token_plain htask, token_plain hoperation,
    token_plain hkey⟩

omit [Readers] in
theorem nul_not_mem_pad (width n : Nat) : '\x00' ∉ Datetime.pad width n := by
  induction width generalizing n with
  | zero => exact List.not_mem_nil
  | succ width ih =>
    intro hmem
    rcases List.mem_append.mp hmem with hmem | hmem
    · exact ih _ hmem
    · have hdigit : ∀ d < 10, '\x00' ≠ Nat.digitChar d := by decide
      exact hdigit (n % 10) (Nat.mod_lt _ (by decide)) (List.mem_singleton.mp hmem)

omit [Readers] in
theorem isoformat_plain (t : Datetime) : '\x00' ∉ t.isoformat.toList := by
  have hclock : ∀ seconds, '\x00' ∉ Datetime.clock seconds := by
    intro seconds
    simp [Datetime.clock, nul_not_mem_pad]
  have hfraction : ∀ micros, '\x00' ∉ Datetime.fraction micros := by
    intro micros
    unfold Datetime.fraction
    split <;> simp [nul_not_mem_pad]
  have hoffset : '\x00' ∉ Datetime.offsetText t.offset := by
    unfold Datetime.offsetText
    dsimp only
    split <;> split <;> simp [nul_not_mem_pad, hclock, hfraction]
  unfold Datetime.isoformat
  simp [nul_not_mem_pad, hclock, hfraction, hoffset]

theorem windowOf_plain (events : List Event) : '\x00' ∉ (windowOf events).toList := by
  unfold windowOf
  split
  · simp [PoolConfig.windowId, isoformat_plain]
  · exact List.not_mem_nil

/-! ## Scopes and their parts -/

section

omit [Readers]

theorem toList_scope (parts : List String) :
    (scope parts).toList = ['\x00'].intercalate (parts.map String.toList) :=
  String.toList_intercalate ..

theorem split_scope {parts : List String} (hne : parts ≠ [])
    (hplain : ∀ part ∈ parts, '\x00' ∉ part.toList) : split (scope parts) '\x00' = parts := by
  have hfree : Free '\x00' (parts.map String.toList) := by
    intro name hname
    obtain ⟨part, hpart, rfl⟩ := List.mem_map.mp hname
    exact hplain part hpart
  unfold split
  rw [toList_scope, splitOn_joined hfree (by simpa using hne), List.map_map]
  have hid : String.ofList ∘ String.toList = id := funext fun s => String.ofList_toList
  rw [hid, List.map_id]

/-- The first part of a scope, whatever the later ones hold. -/
theorem split_scope_head {first second : String} {rest : List String}
    (h : '\x00' ∉ first.toList) :
    (split (scope (first :: second :: rest)) '\x00').head? = some first := by
  unfold split
  rw [toList_scope, List.map_cons, List.map_cons, List.intercalate_cons_cons, List.append_assoc,
    List.singleton_append, List.splitOn_append_cons_self_of_not_mem h, List.map_cons,
    List.head?_cons, String.ofList_toList]

end

/-! ## Replaying the windows -/

/-- The window in force after an event. -/
def windowAfter (window : String) (event : Event) : String :=
  match configOf event with
  | some config => config.windowId
  | none => window

theorem windowOf_append (events : List Event) (event : Event) :
    windowOf (events ++ [event]) = windowAfter (windowOf events) event := by
  unfold windowOf windowAfter configs
  cases hconfig : configOf event with
  | none => rw [List.filterMap_append, List.filterMap_cons_none hconfig, List.filterMap_nil,
      List.append_nil]
  | some config => rw [List.filterMap_append, List.filterMap_cons_some hconfig,
      List.filterMap_nil, List.getLast?_concat]

omit [Readers] in
/-- Where the window of an entry's decision is noted. -/
def LegacyEntry.windowKey : LegacyEntry → Option String
  | granted _ _ body _ _ => some body.reservationId
  | refused caller request _ _ => some (legacyScope caller request)
  | _ => none

/-- A configuration entry holds a configuration. -/
def LegacyEntry.Readable (entry : LegacyEntry) : Prop :=
  ∀ body, entry.event = .poolConfig body → ∃ config, validateConfig (.obj body) = .ok config

/-- What replaying one entry's event does. -/
structure Replays (state next : LegacyWindows) (entry : LegacyEntry) : Prop where
  inForce : ∀ poolId, next.inForce poolId =
    if entry.poolId = poolId then windowAfter (state.inForce poolId) entry.event
    else state.inForce poolId
  windows : ∀ key, next.windows.get? key =
    if entry.windowKey = some key then some (state.inForce entry.poolId)
    else state.windows.get? key

theorem Replays.other {state : LegacyWindows} {entry : LegacyEntry}
    (hconfig : configOf entry.event = none) (hkey : entry.windowKey = none) :
    Replays state state entry := by
  constructor
  · intro poolId
    simp [windowAfter, hconfig]
  · intro key
    simp [hkey]

theorem Replays.decided {state : LegacyWindows} {entry : LegacyEntry} {key poolId : String}
    (hpool : entry.poolId = poolId) (hconfig : configOf entry.event = none)
    (hkey : entry.windowKey = some key) : Replays state (state.decide key poolId) entry := by
  subst hpool
  constructor
  · intro poolId
    simp [windowAfter, hconfig, LegacyWindows.decide, LegacyWindows.inForce]
  · intro other
    rw [hkey]
    simp [LegacyWindows.decide, Dict.get?_set]

theorem Replays.configured {state : LegacyWindows} {poolId : String} {body : Members}
    {now : Datetime} {config : PoolConfig} (hconfig : validateConfig (.obj body) = .ok config) :
    Replays state { state with current := state.current.set poolId config.windowId }
      (.configured poolId body now) := by
  have hconfigOf : configOf (.poolConfig body) = some config := by
    show (validateConfig (.obj body)).toOption = some config
    rw [hconfig]
    rfl
  constructor
  · intro other
    show (((state.current.set poolId config.windowId).get? other).getD "") =
      if poolId = other then windowAfter _ (.poolConfig body) else _
    rw [Dict.get?_set, windowAfter, hconfigOf]
    split <;> rfl
  · intro key
    simp [LegacyEntry.windowKey]

omit [Readers] in
/-- A checked object has no other members. -/
theorem fields_names {document : Json} {required : List String} {name : String} {data : Members}
    (h : fields document required name = .ok data) : ∀ m ∈ data, m.1 ∈ required := by
  unfold fields at h
  split at h
  · split_ifs at h with hnames
    cases h
    intro m hm
    have hmem := List.all_eq_true.mp hnames.2 m hm
    simpa using hmem
  · cases h

omit [Readers] in
theorem mapM_member_document (request : ReservationRequest) :
    ["seat", "task", "operation", "key"].mapM (member request.document) =
      .ok [.str request.seat, .str request.task, .str request.operation, .str request.key] := by
  simp [member, ReservationRequest.document, Members.get?, Dict.find]
  rfl

theorem validateSettlement_no_key {document : Json} {data : Members} {poolId : String}
    {body : Settlement} (h : validateSettlement document = .ok (data, poolId, body)) :
    Members.contains data "key" = false := by
  unfold validateSettlement at h
  obtain ⟨data', hfields, h⟩ := bind_ok h
  obtain ⟨poolId', -, h⟩ := bind_ok h
  obtain ⟨reservationId, -, h⟩ := bind_ok h
  obtain ⟨usageRef, -, h⟩ := bind_ok h
  obtain ⟨amount, -, h⟩ := bind_ok h
  obtain ⟨provenance, -, h⟩ := bind_ok h
  split at h
  · cases h
    have hnames := fields_names hfields
    cases hkey : Members.get? data "key" with
    | none =>
      unfold Members.contains
      rw [hkey]
      rfl
    | some value =>
      have hmem : "key" ∈ settleFields := hnames _ (Dict.mem_of_find hkey)
      exact absurd hmem (by decide)
  · cases h

theorem legacyWindow_written {L : SpendLedger} {entry : LegacyEntry} (h : L.Written entry)
    (hreadable : entry.Readable) (state : LegacyWindows) (seq : Nat) :
    ∃ next, legacyWindow state ⟨seq, entry.poolId, entry.now, entry.event⟩ = .ok next ∧
      Replays state next entry := by
  cases entry with
  | configured poolId body now =>
    obtain ⟨config, hconfig⟩ := hreadable body rfl
    exact ⟨_, bind_of_ok hconfig rfl, .configured hconfig⟩
  | granted caller request body answer now => exact ⟨_, rfl, .decided rfl rfl rfl⟩
  | refused caller request reason now =>
    refine ⟨state.decide (legacyScope caller request) request.poolId, ?_, .decided rfl rfl rfl⟩
    have hkey : request.document.contains "key" = true := by
      simp [ReservationRequest.document, Members.contains, Members.get?, Dict.find]
    unfold legacyWindow
    dsimp only [LegacyEntry.event]
    rw [if_pos hkey]
    exact bind_of_ok (mapM_member_document request) rfl
  | charged caller poolId data body answer now => exact ⟨state, rfl, .other rfl rfl⟩
  | notCharged caller poolId data body now =>
    refine ⟨state, ?_, .other rfl rfl⟩
    obtain ⟨document, hdocument⟩ := Settles.valid h
    unfold legacyWindow
    dsimp only [LegacyEntry.event]
    rw [validateSettlement_no_key hdocument]
    rfl
  | reconciled poolId body now => exact ⟨state, rfl, .other rfl rfl⟩
  | revoked poolId body now => exact ⟨state, rfl, .other rfl rfl⟩

theorem SpendLedger.Written.windowKey {L : SpendLedger} {entry : LegacyEntry}
    (h : L.Written entry) {key : String} (hkey : entry.windowKey = some key) :
    ∃ caller request row, entry.stored = some (legacyScope caller request, row) ∧
      (key = reservationIdOf (legacyScope caller request) ∨ key = legacyScope caller request) := by
  cases entry with
  | granted caller request body answer now =>
    cases hkey
    exact ⟨caller, request, _, rfl, .inl h.2.1⟩
  | refused caller request reason now =>
    cases hkey
    exact ⟨caller, request, _, rfl, .inr rfl⟩
  | _ => cases hkey

theorem reservationIdOf_ne_legacyScope (s caller : String) (request : ReservationRequest) :
    reservationIdOf s ≠ legacyScope caller request := by
  intro heq
  have hchars := congrArg (fun t => t.toList[1]?) heq
  have hid : (reservationIdOf s).toList[1]? = some 's' := by
    unfold reservationIdOf
    rw [String.toList_append]
    rfl
  have hscope : (legacyScope caller request).toList[1]? = some 'e' := by
    unfold legacyScope
    rw [toList_scope, List.map_cons, List.map_cons, List.intercalate_cons_cons]
    rfl
  rw [hid, hscope] at hchars
  exact absurd hchars (by decide)

section
variable {ownerHubId : String} {entries : List LegacyEntry}

/-- Two decisions of one ledger are noted under different keys. -/
theorem LegacyLedger.windowKey_ne {last : LegacyEntry}
    (h : LegacyLedger ownerHubId (entries ++ [last]))
    (hdistinct : ScopesDistinct (legacyRun ownerHubId (entries ++ [last])))
    {pre : List LegacyEntry} {entry : LegacyEntry} (hpre : pre ++ [entry] <+: entries)
    {key : String} (hkey : entry.windowKey = some key) : last.windowKey ≠ some key := by
  intro hlast
  have hall : pre ++ [entry] <+: entries ++ [last] := hpre.trans (List.prefix_append _ _)
  obtain ⟨caller, request, row, hstored, hform⟩ := (h.written hall).windowKey hkey
  obtain ⟨caller', request', row', hstored', hform'⟩ :=
    (h.written List.prefix_rfl).windowKey hlast
  have hrow := h.init.get?_iff.mpr ⟨pre, entry, hpre, hstored⟩
  have hfresh := (h.written List.prefix_rfl).fresh hstored'
  have hne : legacyScope caller request ≠ legacyScope caller' request' := by
    intro heq
    dsimp only at hrow hfresh
    rw [heq, hfresh] at hrow
    cases hrow
  have hcontains : ∀ {s : String} {row : String × Members},
      (legacyRun ownerHubId (entries ++ [last])).operations.get? s = some row →
      (legacyRun ownerHubId (entries ++ [last])).operations.contains s = true := by
    intro s row hs
    exact Option.isSome_iff_exists.mpr ⟨row, hs⟩
  have hin := hcontains (h.get?_iff.mpr ⟨pre, entry, hall, hstored⟩)
  have hin' := hcontains (h.get?_iff.mpr ⟨entries, last, List.prefix_rfl, hstored'⟩)
  rcases hform with rfl | rfl <;> rcases hform' with heq | heq
  · exact hne (hdistinct _ _ hin hin' heq)
  · exact reservationIdOf_ne_legacyScope _ _ _ heq
  · exact reservationIdOf_ne_legacyScope _ _ _ heq.symm
  · exact hne heq

/-- Every recorded configuration is one. -/
def ConfigsRead (events : List EventRow) : Prop :=
  ∀ row ∈ events, ∀ body, row.event = .poolConfig body →
    ∃ config, validateConfig (.obj body) = .ok config

/-- The replay knows the window in force in every pool, and the one every
decision was made in. -/
structure Recovered (ownerHubId : String) (entries : List LegacyEntry) (state : LegacyWindows) :
    Prop where
  inForce : ∀ poolId,
    state.inForce poolId = windowOf ((legacyRun ownerHubId entries).poolEvents poolId)
  windows : ∀ pre entry, pre ++ [entry] <+: entries → ∀ key, entry.windowKey = some key →
    state.windows.get? key = some (windowOf ((legacyRun ownerHubId pre).poolEvents entry.poolId))

theorem Recovered.step {state next : LegacyWindows} {last : LegacyEntry}
    (h : Recovered ownerHubId entries state) (hreplays : Replays state next last)
    (hne : ∀ pre entry, pre ++ [entry] <+: entries → ∀ key, entry.windowKey = some key →
      last.windowKey ≠ some key) : Recovered ownerHubId (entries ++ [last]) next := by
  constructor
  · intro poolId
    rw [hreplays.inForce, h.inForce, legacyRun_append, record_poolEvents]
    by_cases hpool : last.poolId = poolId
    · rw [if_pos hpool, if_pos hpool, windowOf_append]
    · rw [if_neg hpool, if_neg hpool, List.append_nil]
  · intro pre entry hpre key hkey
    rw [hreplays.windows]
    rcases List.prefix_concat_iff.mp hpre with heq | hpre
    · obtain ⟨rfl, hlast⟩ := List.append_inj' heq rfl
      cases hlast
      rw [if_pos hkey, h.inForce]
    · rw [if_neg (hne pre entry hpre key hkey)]
      exact h.windows pre entry hpre key hkey

/-- Where every configuration is one, the replay recovers every window. -/
theorem LegacyLedger.recovered (h : LegacyLedger ownerHubId entries)
    (hdistinct : ScopesDistinct (legacyRun ownerHubId entries))
    (hread : ConfigsRead (legacyRun ownerHubId entries).events) :
    ∃ state, (legacyRun ownerHubId entries).events.foldlM legacyWindow {} = .ok state ∧
      Recovered ownerHubId entries state := by
  induction entries using List.reverseRecOn with
  | nil =>
    refine ⟨{}, rfl, ?_, ?_⟩
    · intro poolId
      rfl
    · intro pre entry hpre
      simp at hpre
  | append_singleton entries last ih =>
    have hwritten : (legacyRun ownerHubId entries).Written last := h.written List.prefix_rfl
    have hevents := record_events (legacyRun ownerHubId entries) last
    rw [← legacyRun_append] at hevents
    rw [hevents] at hread ⊢
    have hkept := hwritten.record_keeps
    rw [← legacyRun_append] at hkept
    obtain ⟨state, hstate, hrecovered⟩ := ih h.init (hkept.distinct hdistinct)
      (fun row hrow => hread row (List.mem_append_left _ hrow))
    have hreadable : last.Readable := fun body hbody =>
      hread _ (List.mem_append_right _ (List.mem_singleton.mpr rfl)) body hbody
    obtain ⟨next, hnext, hreplays⟩ := legacyWindow_written hwritten hreadable state
      ((legacyRun ownerHubId entries).lastSeq + 1)
    refine ⟨next, ?_, hrecovered.step hreplays ?_⟩
    · rw [List.foldlM_append]
      refine bind_of_ok hstate ?_
      rw [List.foldlM_cons]
      exact bind_of_ok hnext rfl
    · intro pre entry hpre key hkey
      exact h.windowKey_ne hdistinct hpre hkey

/-- A replay that does not fail read every configuration. -/
theorem legacyWindow_read {events : List EventRow} {state next : LegacyWindows}
    (h : events.foldlM legacyWindow state = .ok next) : ConfigsRead events := by
  induction events generalizing state with
  | nil =>
    intro row hrow
    cases hrow
  | cons first rest ih =>
    rw [List.foldlM_cons] at h
    obtain ⟨mid, hmid, hrest⟩ := bind_ok h
    intro row hrow body hbody
    rcases List.mem_cons.mp hrow with rfl | hrow
    · unfold legacyWindow at hmid
      rw [hbody] at hmid
      obtain ⟨config, hconfig, -⟩ := bind_ok hmid
      exact ⟨config, hconfig⟩
    · exact ih hrest row hrow body hbody

/-! ## Moving the rows -/

/-- A decision of a ledger: what its entry stored, and the key
`legacyDecision` finds for it. -/
structure Decided (entry : LegacyEntry) (caller : String) (request : ReservationRequest)
    (answer : Members) : Prop where
  stored : entry.stored = some (legacyScope caller request, requestDigest caller request, answer)
  poolId : entry.poolId = request.poolId
  plain : '\x00' ∉ caller.toList
  plainRequest : PlainRequest request
  noted : ∃ key, legacyDecision (legacyScope caller request) answer = .ok key ∧
    entry.windowKey = some key

theorem SpendLedger.Written.decided {L : SpendLedger} {entry : LegacyEntry}
    (h : L.Written entry) {caller : String} {request : ReservationRequest} {answer : Members}
    (hdecision : entry.decision = some (caller, request, answer)) :
    Decided entry caller request answer := by
  cases entry with
  | granted caller request body answer now =>
    cases hdecision
    obtain ⟨hasked, -, hadmitted, hid⟩ := h
    obtain ⟨document, hdocument⟩ := hasked.valid
    refine ⟨rfl, rfl, hasked.plain, validateRequest_plain hdocument, body.reservationId, ?_, rfl⟩
    unfold legacyDecision
    rw [hadmitted, hid]
  | refused caller request reason now =>
    cases hdecision
    obtain ⟨document, hdocument⟩ := Asked.valid h
    exact ⟨rfl, rfl, Asked.plain h, validateRequest_plain hdocument, _, rfl, rfl⟩
  | _ => cases hdecision

/-- A row is a decision's or a settlement's. -/
theorem LegacyLedger.row_cases (h : LegacyLedger ownerHubId entries) (row : OperationRow)
    (hrow : (legacyRun ownerHubId entries).operations.get? row.1 = some row.2) :
    (∃ pre entry caller request answer, pre ++ [entry] <+: entries ∧
      Decided entry caller request answer ∧
      row = (legacyScope caller request, requestDigest caller request, answer)) ∨
    ∃ caller poolId body, row.1 = settleScope caller poolId body := by
  obtain ⟨pre, entry, hpre, hstored⟩ := h.get?_iff.mp hrow
  have hwritten := h.written hpre
  cases entry with
  | granted caller request body answer now =>
    cases hstored
    exact .inl ⟨pre, _, caller, request, answer, hpre, hwritten.decided rfl, rfl⟩
  | refused caller request reason now =>
    cases hstored
    exact .inl ⟨pre, _, caller, request, _, hpre, hwritten.decided rfl, rfl⟩
  | charged caller poolId data body answer now =>
    cases hstored
    exact .inr ⟨caller, poolId, body, rfl⟩
  | notCharged caller poolId data body now =>
    cases hstored
    exact .inr ⟨caller, poolId, body, rfl⟩
  | _ => cases hstored

omit [Readers] in
theorem split_legacyScope {caller : String} {request : ReservationRequest}
    (hcaller : '\x00' ∉ caller.toList) (hrequest : PlainRequest request) :
    split (legacyScope caller request) '\x00' = ["reserve", caller, request.poolId, request.seat,
      request.task, request.operation, request.key] := by
  obtain ⟨hpool, hseat, htask, hoperation, hkey⟩ := hrequest
  refine split_scope (by simp) ?_
  simp [hcaller, hpool, hseat, htask, hoperation, hkey]

theorem split_scopeOf {L : SpendLedger} {caller : String} {request : ReservationRequest}
    (hcaller : '\x00' ∉ caller.toList) (hrequest : PlainRequest request) :
    split (scopeOf L caller request) '\x00' = ["reserve", caller, request.poolId,
      windowOf (L.poolEvents request.poolId), request.seat, request.task, request.operation,
      request.key] := by
  obtain ⟨hpool, hseat, htask, hoperation, hkey⟩ := hrequest
  refine split_scope (by simp) ?_
  simp [hcaller, hpool, hseat, htask, hoperation, hkey, windowOf_plain]

omit [Readers] in
theorem split_settleScope (caller poolId : String) (body : Settlement) :
    (split (settleScope caller poolId body) '\x00').head? = some "settle" :=
  split_scope_head (by decide)

omit [Readers] in
theorem newScope_settle (windows : Dict String String) {row : OperationRow}
    {caller poolId : String} {body : Settlement} (hrow : row.1 = settleScope caller poolId body) :
    newScope windows row = .ok none := by
  unfold newScope
  dsimp only
  rw [hrow, split_settleScope, if_pos (.inl (by decide))]

/-- An answer moves to the scope of the window it was decided in. -/
theorem Recovered.newScope {state : LegacyWindows} (h : Recovered ownerHubId entries state)
    {pre : List LegacyEntry} {entry : LegacyEntry} (hpre : pre ++ [entry] <+: entries)
    {caller : String} {request : ReservationRequest} {answer : Members}
    (hdecided : Decided entry caller request answer) :
    newScope state.windows (legacyScope caller request, requestDigest caller request, answer) =
      .ok (some (scopeOf (legacyRun ownerHubId pre) caller request)) := by
  obtain ⟨key, hkey, hnoted⟩ := hdecided.noted
  have hwindow := h.windows pre entry hpre key hnoted
  rw [hdecided.poolId] at hwindow
  unfold Spend.newScope
  dsimp only
  rw [hkey, split_legacyScope hdecided.plain hdecided.plainRequest, if_neg (by simp)]
  refine bind_of_ok rfl ?_
  rw [hwindow]
  rfl

omit [Readers] in
/-- Where each stored scope moves. -/
def movedScope (windows : Dict String String) (operations : Operations) (s : String) : String :=
  match operations.get? s with
  | none => s
  | some row =>
    match newScope windows (s, row) with
    | .ok (some moved) => moved
    | _ => s

omit [Readers] in
theorem movedScope_eq {windows : Dict String String} {operations : Operations}
    {row : OperationRow} {target : Option String} (hrow : operations.get? row.1 = some row.2)
    (hnew : Spend.newScope windows row = .ok target) :
    movedScope windows operations row.1 = target.getD row.1 := by
  unfold movedScope
  rw [hrow]
  dsimp only
  rw [hnew]
  cases target <;> rfl

/-- Where the rows of one ledger move: a decision's to its window's scope,
a settlement's nowhere. -/
theorem Recovered.moved_cases {state : LegacyWindows} (h : LegacyLedger ownerHubId entries)
    (hrecovered : Recovered ownerHubId entries state) (row : OperationRow)
    (hrow : (legacyRun ownerHubId entries).operations.get? row.1 = some row.2) :
    let moved := movedScope state.windows (legacyRun ownerHubId entries).operations row.1
    (∃ L caller request, '\x00' ∉ caller.toList ∧ PlainRequest request ∧
      row.1 = legacyScope caller request ∧ moved = scopeOf L caller request ∧
      Spend.newScope state.windows row = .ok (some moved)) ∨
    ((∃ caller poolId body, row.1 = settleScope caller poolId body) ∧ moved = row.1 ∧
      Spend.newScope state.windows row = .ok none) := by
  intro moved
  rcases h.row_cases row hrow with ⟨pre, entry, caller, request, answer, hpre, hdecided, rfl⟩ |
    ⟨caller, poolId, body, hsettle⟩
  · have hnew := hrecovered.newScope hpre hdecided
    have hmoved : moved = scopeOf (legacyRun ownerHubId pre) caller request :=
      movedScope_eq hrow hnew
    exact .inl ⟨_, caller, request, hdecided.plain, hdecided.plainRequest, rfl, hmoved, hmoved ▸ hnew⟩
  · have hnew := newScope_settle state.windows hsettle
    exact .inr ⟨⟨caller, poolId, body, hsettle⟩, movedScope_eq hrow hnew, hnew⟩

omit [Readers] in
theorem legacyScope_congr {caller caller' : String} {request request' : ReservationRequest}
    (hcaller : '\x00' ∉ caller.toList) (hcaller' : '\x00' ∉ caller'.toList)
    (hrequest : PlainRequest request) (hrequest' : PlainRequest request')
    {L L' : SpendLedger} [Readers]
    (heq : scopeOf L caller request = scopeOf L' caller' request') :
    legacyScope caller request = legacyScope caller' request' := by
  have hparts := congrArg (split · '\x00') heq
  rw [split_scopeOf hcaller hrequest, split_scopeOf hcaller' hrequest'] at hparts
  simp only [List.cons.injEq, and_true, true_and] at hparts
  obtain ⟨h1, h2, -, h3, h4, h5, h6⟩ := hparts
  unfold legacyScope
  rw [h1, h2, h3, h4, h5, h6]

theorem scopeOf_ne_legacyScope {L : SpendLedger} {caller caller' : String}
    {request request' : ReservationRequest} (hcaller : '\x00' ∉ caller.toList)
    (hcaller' : '\x00' ∉ caller'.toList) (hrequest : PlainRequest request)
    (hrequest' : PlainRequest request') :
    scopeOf L caller request ≠ legacyScope caller' request' := by
  intro heq
  have hparts := congrArg (fun s => (split s '\x00').length) heq
  rw [split_scopeOf hcaller hrequest, split_legacyScope hcaller' hrequest'] at hparts
  simp at hparts

theorem scopeOf_ne_settleScope {L : SpendLedger} {caller caller' poolId : String}
    {request : ReservationRequest} {body : Settlement} (hcaller : '\x00' ∉ caller.toList)
    (hrequest : PlainRequest request) :
    scopeOf L caller request ≠ settleScope caller' poolId body := by
  intro heq
  have hparts := congrArg (fun s => (split s '\x00').head?) heq
  rw [split_scopeOf hcaller hrequest, split_settleScope] at hparts
  simp at hparts

/-- The rows can be moved one at a time. -/
theorem Recovered.movable {state : LegacyWindows} (h : LegacyLedger ownerHubId entries)
    (hrecovered : Recovered ownerHubId entries state) :
    Dict.Movable (movedScope state.windows (legacyRun ownerHubId entries).operations)
      (legacyRun ownerHubId entries).operations.items := by
  have hcases : ∀ s ∈ (legacyRun ownerHubId entries).operations.items.map Prod.fst, ∃ row,
      (legacyRun ownerHubId entries).operations.get? s = some row := by
    intro s hs
    obtain ⟨item, hitem, rfl⟩ := List.mem_map.mp hs
    exact ⟨item.2, (Dict.mem_items_iff _ _ _).mp hitem⟩
  constructor
  · exact (legacyRun ownerHubId entries).operations.nodup
  · intro s hs t ht heq
    obtain ⟨row, hrow⟩ := hcases s hs
    obtain ⟨row', hrow'⟩ := hcases t ht
    rcases hrecovered.moved_cases h (s, row) hrow with
      ⟨L, caller, request, hcaller, hrequest, hs, hmoved, -⟩ | ⟨⟨caller, poolId, body, hs⟩, hmoved, -⟩ <;>
      rcases hrecovered.moved_cases h (t, row') hrow' with
        ⟨L', caller', request', hcaller', hrequest', ht, hmoved', -⟩ |
          ⟨⟨caller', poolId', body', ht⟩, hmoved', -⟩ <;>
      dsimp only at hs ht hmoved hmoved' <;>
      rw [hmoved, hmoved'] at heq
    · rw [hs, ht]
      exact legacyScope_congr hcaller hcaller' hrequest hrequest' heq
    · rw [ht] at heq
      exact absurd heq (scopeOf_ne_settleScope hcaller hrequest)
    · rw [hs] at heq
      exact absurd heq.symm (scopeOf_ne_settleScope hcaller' hrequest')
    · exact heq
  · intro s hs hmem
    obtain ⟨row, hrow⟩ := hcases s hs
    obtain ⟨row', hrow'⟩ := hcases _ hmem
    rcases hrecovered.moved_cases h (s, row) hrow with
      ⟨L, caller, request, hcaller, hrequest, hs, hmoved, -⟩ | ⟨-, hmoved, -⟩
    · dsimp only at hmoved
      rw [hmoved] at hrow' ⊢
      rcases h.row_cases (_, row') hrow' with
        ⟨pre, entry, caller', request', answer, -, hdecided, hkey⟩ | ⟨caller', poolId', body', hkey⟩
      · exact absurd (congrArg Prod.fst hkey)
          (scopeOf_ne_legacyScope hcaller hdecided.plain hrequest hdecided.plainRequest)
      · exact absurd hkey (scopeOf_ne_settleScope hcaller hrequest)
    · exact hmoved

/-- Every row moves, and the table holds the same answers. -/
theorem Recovered.moveRows {state : LegacyWindows} (h : LegacyLedger ownerHubId entries)
    (hrecovered : Recovered ownerHubId entries state) :
    let operations := (legacyRun ownerHubId entries).operations
    ∃ next, operations.items.foldlM (moveRow state.windows) operations = .ok next ∧
      ∀ a row, next.get? a = some row ↔
        ∃ s, operations.get? s = some row ∧ movedScope state.windows operations s = a := by
  intro operations
  have hf : ∀ item ∈ operations.items, ∀ e, moveRow state.windows e item =
      if movedScope state.windows operations item.1 = item.1 then .ok e
      else e.move item.1 (movedScope state.windows operations item.1) := by
    intro item hitem e
    have hrow := (Dict.mem_items_iff operations item.1 item.2).mp hitem
    rcases hrecovered.moved_cases h item hrow with
      ⟨L, caller, request, hcaller, hrequest, hs, hmoved, hnew⟩ | ⟨-, hmoved, hnew⟩
    · have hne : movedScope state.windows operations item.1 ≠ item.1 := by
        rw [show movedScope state.windows operations item.1 = _ from hmoved, hs]
        exact scopeOf_ne_legacyScope hcaller hcaller hrequest hrequest
      rw [if_neg hne]
      unfold moveRow
      rw [hnew]
      rfl
    · rw [if_pos hmoved]
      unfold moveRow
      rw [hnew]
      rfl
  obtain ⟨next, hnext, hmoved⟩ := Dict.foldlM_moved (Dict.Moved.start _ operations)
    (hrecovered.movable h) hf
  refine ⟨next, hnext, ?_⟩
  intro a row
  rw [hmoved a row]
  simp only [List.nil_append, List.not_mem_nil, or_false, Dict.mem_items_iff]
  exact Iff.rfl

/-! ## What a migration leaves -/

/-- The file of a migrated ledger. `only` says that the moved rows and the
old ones are the same, under new scopes that tell them apart. -/
structure Migrated (ownerHubId : String) (entries : List LegacyEntry) (file : LedgerFile) :
    Prop where
  events : file.tables.events = (legacyRun ownerHubId entries).events
  rekeyed : ∀ pre entry, pre ++ [entry] <+: entries → ∀ caller request answer,
    entry.decision = some (caller, request, answer) →
    file.tables.operations.get? (scopeOf (legacyRun ownerHubId pre) caller request) =
      some (requestDigest caller request, answer)
  kept : ∀ pre entry, pre ++ [entry] <+: entries → ∀ caller poolId data body answer,
    entry.settlement = some (caller, poolId, data, body, answer) →
    file.tables.operations.get? (settleScope caller poolId body) =
      some (digestOf (("caller", .str caller) :: data), answer)
  only : ∃ moved : String → String,
    (∀ s ∈ (legacyRun ownerHubId entries).operations.keys,
      ∀ t ∈ (legacyRun ownerHubId entries).operations.keys, moved s = moved t → s = t) ∧
    ∀ a row, file.tables.operations.get? a = some row ↔
      ∃ s, (legacyRun ownerHubId entries).operations.get? s = some row ∧ moved s = a
  reopened : connect file = (file, .ok ())

omit [Readers] in
theorem legacyWindows_ok [Readers] {events : List EventRow} {windows : Dict String String}
    (h : legacyWindows events = .ok windows) :
    ∃ state, events.foldlM legacyWindow {} = .ok state ∧ state.windows = windows := by
  unfold legacyWindows at h
  cases hstate : events.foldlM legacyWindow {} with
  | error e =>
    rw [hstate] at h
    cases h
  | ok state =>
    rw [hstate] at h
    cases h
    exact ⟨state, rfl, rfl⟩

/-- A migration that reads every event and moves every row. -/
theorem connect_migrated {L : SpendLedger} {windows : Dict String String}
    {operations : Operations} (hwindows : legacyWindows L.events = .ok windows)
    (hmoved : L.operations.items.foldlM (moveRow windows) L.operations = .ok operations) :
    connect ⟨legacySchemaVersion, L⟩ =
      (⟨schemaVersion, { L with operations := operations }⟩, .ok ()) := by
  have hrows := moveRows_eq (c := ⟨⟨legacySchemaVersion, L⟩, ⟨legacySchemaVersion, L⟩⟩) hmoved
  rw [connect_legacy]
  unfold migrateWindowScopes rekeyAnswers Connection.reset
  dsimp only
  rw [hwindows]
  dsimp only
  rw [hrows]
  rfl

/-- A migration that does not raise read every configuration. -/
theorem connect_read {L : SpendLedger}
    (h : (connect ⟨legacySchemaVersion, L⟩).2 = .ok ()) : ConfigsRead L.events := by
  rw [connect_legacy] at h
  unfold migrateWindowScopes rekeyAnswers Connection.reset at h
  dsimp only at h
  cases hwindows : legacyWindows L.events with
  | error e =>
    rw [hwindows] at h
    cases h
  | ok windows =>
    obtain ⟨state, hstate, -⟩ := legacyWindows_ok hwindows
    exact legacyWindow_read hstate

theorem LegacyLedger.migrated (h : LegacyLedger ownerHubId entries)
    (hdistinct : ScopesDistinct (legacyRun ownerHubId entries))
    (hread : ConfigsRead (legacyRun ownerHubId entries).events) :
    (connect ⟨legacySchemaVersion, legacyRun ownerHubId entries⟩).2 = .ok () ∧
      Migrated ownerHubId entries
        (connect ⟨legacySchemaVersion, legacyRun ownerHubId entries⟩).1 := by
  obtain ⟨state, hstate, hrecovered⟩ := h.recovered hdistinct hread
  obtain ⟨operations, hmoved, hrows⟩ := hrecovered.moveRows h
  have hwindows : legacyWindows (legacyRun ownerHubId entries).events = .ok state.windows := by
    unfold legacyWindows
    rw [hstate]
  rw [connect_migrated hwindows hmoved]
  -- a row lands where `newScope` sends it
  have hlanded : ∀ (row : OperationRow) target,
      (legacyRun ownerHubId entries).operations.get? row.1 = some row.2 →
      Spend.newScope state.windows row = .ok target →
      operations.get? (target.getD row.1) = some row.2 := by
    intro row target hrow hnew
    exact (hrows _ _).mpr ⟨row.1, hrow, movedScope_eq hrow hnew⟩
  refine ⟨rfl, rfl, ?_, ?_, ?_, rfl⟩
  · intro pre entry hpre caller request answer hdecision
    have hdecided := (h.written hpre).decided hdecision
    have hrow := h.get?_iff.mpr ⟨pre, entry, hpre, hdecided.stored⟩
    exact hlanded _ _ hrow (hrecovered.newScope hpre hdecided)
  · intro pre entry hpre caller poolId data body answer hsettled
    have hstored : entry.stored = some (settleScope caller poolId body,
        digestOf (("caller", .str caller) :: data), answer) := by
      cases entry <;> cases hsettled <;> rfl
    have hrow := h.get?_iff.mpr ⟨pre, entry, hpre, hstored⟩
    exact hlanded _ _ hrow (newScope_settle state.windows rfl)
  · refine ⟨movedScope state.windows (legacyRun ownerHubId entries).operations, ?_, hrows⟩
    exact (hrecovered.movable h).inj

/-! ## Retries after the migration -/

/-- Later calls keep the rows. -/
theorem run_keeps_from (L : SpendLedger) (calls : List Call) :
    Keeps L (Trace.run SpendLedger.step L calls) := by
  induction calls generalizing L with
  | nil => exact .refl L
  | cons call rest ih =>
    intro s row hrow
    exact ih (L.step call) s row (step_keeps L call s row hrow)

omit [Readers] in
theorem stored_of_row {L : SpendLedger} {s digest : String} {response : Members}
    (hrow : L.operations.get? s = some (digest, response)) (field : String) :
    L.stored s digest field = some response := by
  unfold SpendLedger.stored
  rw [hrow]
  simp

/-- What a migrated ledger answers, after any later calls: an identical
reservation under the window of its first answer repeats that answer exactly
while the pool's events can be read, and an identical settlement always
does. -/
structure Replayed (ownerHubId : String) (entries : List LegacyEntry) (tables : SpendLedger) :
    Prop where
  reservations : ∀ pre entry, pre ++ [entry] <+: entries → ∀ caller request answer,
    entry.decision = some (caller, request, answer) →
    ∀ document, validateRequest document = .ok request → ∀ calls now,
    let L := Trace.run SpendLedger.step tables calls
    windowOf (L.poolEvents request.poolId) =
      windowOf ((legacyRun ownerHubId pre).poolEvents request.poolId) →
    (L.answer (.reserve caller document now) = .ok (L, answer) ↔
      ∃ state, fold (L.poolEvents request.poolId) = .ok state)
  settlements : ∀ pre entry, pre ++ [entry] <+: entries → ∀ caller poolId data body answer,
    entry.settlement = some (caller, poolId, data, body, answer) →
    ∀ document, validateSettlement document = .ok (data, poolId, body) → ∀ calls now,
    let L := Trace.run SpendLedger.step tables calls
    L.answer (.settle caller document now) = .ok (L, answer)

theorem Migrated.replayed {file : LedgerFile} (h : Migrated ownerHubId entries file) :
    Replayed ownerHubId entries file.tables := by
  constructor
  · intro pre entry hpre caller request answer hdecision document hdocument calls now L hwindow
    have hrow := run_keeps_from file.tables calls _ _
      (h.rekeyed pre entry hpre caller request answer hdecision)
    have hscope : scopeOf (legacyRun ownerHubId pre) caller request = scopeOf L caller request := by
      unfold scopeOf
      rw [hwindow]
    rw [hscope] at hrow
    exact reserve_again_iff hdocument (stored_of_row hrow "admitted")
  · intro pre entry hpre caller poolId data body answer hsettled document hdocument calls now L
    have hrow := run_keeps_from file.tables calls _ _
      (h.kept pre entry hpre caller poolId data body answer hsettled)
    exact settle_again hdocument (stored_of_row hrow "settled")

/-- The first open of a version 1 ledger migrates it exactly when its
configurations can be read; an open that raises leaves the file as it was. -/
theorem migration_keeps_answers (ownerHubId : String) (entries : List LegacyEntry)
    (h : LegacyLedger ownerHubId entries)
    (hdistinct : ScopesDistinct (legacyRun ownerHubId entries)) :
    let file : LedgerFile := ⟨legacySchemaVersion, legacyRun ownerHubId entries⟩
    ((connect file).2 = .ok () ↔ ConfigsRead (legacyRun ownerHubId entries).events) ∧
      ((connect file).2 = .ok () → Migrated ownerHubId entries (connect file).1 ∧
        Replayed ownerHubId entries (connect file).1.tables) ∧
      ∀ (file : LedgerFile) (e : String), (connect file).2 = .error e → (connect file).1 = file := by
  intro file
  refine ⟨⟨connect_read, fun hread => (h.migrated hdistinct hread).1⟩, ?_,
    fun file e => connect_error⟩
  intro hok
  have hmigrated := (h.migrated hdistinct (connect_read hok)).2
  exact ⟨hmigrated, hmigrated.replayed⟩

end

/-! ## A small ledger -/

deriving instance DecidableEq for ReservationRequest

omit [Readers] in
/-- `smallRequest key "5"`, validated. -/
def fiveTokens (key : String) : ReservationRequest where
  poolId := "pool"
  seat := "s"
  project := "p"
  task := "t"
  operation := "op"
  key := key
  unit := "tok"
  tax := "not_applicable"
  priceRevision := "r1"
  upperBound := ⟨false, 5, 0⟩
  depth := 1
  wallSeconds := 30

/-- A version 1 grant of the request, and its answer. -/
def fiveTokensGrant (key : String) : Grant where
  reservationId := reservationIdOf (legacyScope "A" (fiveTokens key))
  caller := "A"
  seat := "s"
  project := "p"
  task := "t"
  operation := "op"
  depth := 1
  requestedUpper := ⟨false, 5, 0⟩
  exposure := ⟨false, 6, 0⟩
  epoch := 1
  configRevision := 1
  expiresAt := midnight 739961
  window := none

def fiveTokensAnswer (key : String) : Members :=
  [("admitted", .bool true), ("reservation_id", .str (fiveTokensGrant key).reservationId)]

omit [Readers] in
def smallConfig (endsAt : String) : Members :=
  match smallPool endsAt with
  | .obj members => members
  | _ => []

omit [Readers] in
theorem callDay_lt : 739960 < 3652059 := by decide

/-- A pool, a grant and a refusal. -/
def smallLegacy : List LegacyEntry :=
  [.configured "pool" (smallConfig "2027-01-01T00:00:00+00:00") (midnight 739960 callDay_lt),
    .granted "A" (fiveTokens "k") (fiveTokensGrant "k") (fiveTokensAnswer "k")
      (midnight 739960 callDay_lt),
    .refused "A" (fiveTokens "k2") "bound_exceeded" (midnight 739960 callDay_lt)]

/-- The pool afterwards configured for a longer window. -/
def reconfiguredLegacy : List LegacyEntry :=
  smallLegacy ++
    [.configured "pool" (smallConfig "2027-02-01T00:00:00+00:00") (midnight 739960 callDay_lt)]

omit [Readers]

/-- Readers of the three times of the ledger. -/
abbrev twoWindows : Readers :=
  Readers.listed [("2026-12-01T00:00:00+00:00", midnight 739950),
    ("2027-01-01T00:00:00+00:00", midnight 739981),
    ("2027-02-01T00:00:00+00:00", midnight 740012)]

theorem fiveTokens_valid {key : String} (hkey : key = "k" ∨ key = "k2") :
    letI := twoWindows
    validateRequest (smallRequest key "5") = .ok (fiveTokens key) := by
  let _ := twoWindows
  have hread : (validateRequest (smallRequest key "5")).toOption = some (fiveTokens key) := by
    rcases hkey with rfl | rfl <;> decide +kernel
  cases hrequest : validateRequest (smallRequest key "5") with
  | error e =>
    rw [hrequest] at hread
    cases hread
  | ok request =>
    rw [hrequest] at hread
    exact congrArg _ (Option.some.inj hread)

theorem legacyLedger_reconfigured :
    letI := twoWindows
    LegacyLedger "hub" reconfiguredLegacy := by
  let _ := twoWindows
  exact ⟨trivial,
    ⟨⟨by decide, ⟨_, fiveTokens_valid (.inl rfl)⟩, by decide +kernel⟩, rfl, rfl, rfl⟩,
    ⟨by decide, ⟨_, fiveTokens_valid (.inr rfl)⟩, by decide +kernel⟩, trivial, trivial⟩

/-- After the pool moved to another window, the retry of the grant is a new
decision, which the bound refuses. -/
theorem reconfigured_pool_decides_again :
    letI := twoWindows
    let file : LedgerFile := ⟨legacySchemaVersion, legacyRun "hub" reconfiguredLegacy⟩
    LegacyLedger "hub" reconfiguredLegacy ∧ (connect file).2 = .ok () ∧
      ¬ ∀ pre entry, pre ++ [entry] <+: reconfiguredLegacy → ∀ caller request answer,
        entry.decision = some (caller, request, answer) →
        ∀ document, validateRequest document = .ok request → ∀ now, ∃ next,
          (connect file).1.tables.answer (.reserve caller document now) = .ok (next, answer) := by
  let _ := twoWindows
  intro file
  refine ⟨legacyLedger_reconfigured, ?_, ?_⟩
  · obtain ⟨done, hdone⟩ := exists_ok_of_isSome (x := (connect file).2) (by decide +kernel)
    exact hdone
  · intro h
    obtain ⟨next, hnext⟩ := h (reconfiguredLegacy.take 1) (reconfiguredLegacy.get ⟨1, by decide⟩)
      ⟨reconfiguredLegacy.drop 2, rfl⟩ _ _ _ rfl _ (fiveTokens_valid (.inl rfl)) (midnight 739960)
    have hadmitted : ((connect file).1.tables.answer
        (.reserve "A" (smallRequest "k" "5") (midnight 739960))).toOption.map
          (fun result => (Members.get result.2 "admitted").truthy) = some false := by decide +kernel
    rw [hnext] at hadmitted
    cases hadmitted

/-- In the window of their decisions both answers are replayed. -/
theorem migration_keeps_answers_small :
    letI := twoWindows
    let file : LedgerFile := ⟨legacySchemaVersion, legacyRun "hub" smallLegacy⟩
    let L := (connect file).1.tables
    (connect file).2 = .ok () ∧ ∀ now,
      L.answer (.reserve "A" (smallRequest "k" "5") now) = .ok (L, fiveTokensAnswer "k") ∧
        L.answer (.reserve "A" (smallRequest "k2" "5") now) = .ok (L, refusal "admitted") := by
  let _ := twoWindows
  intro file L
  have hlegacy : LegacyLedger "hub" smallLegacy :=
    Trace.Every.of_prefix _ legacyLedger_reconfigured (List.prefix_append _ _)
  obtain ⟨-, hmigrated, -⟩ := migration_keeps_answers "hub" smallLegacy hlegacy
    (scopesDistinct_of_nodup (by decide +kernel))
  obtain ⟨done, hdone⟩ := exists_ok_of_isSome (x := (connect file).2) (by decide +kernel)
  have hreplayed := (hmigrated hdone).2
  have hfolds := exists_ok_of_isSome (x := fold (L.poolEvents "pool")) (by decide +kernel)
  refine ⟨hdone, fun now => ⟨?_, ?_⟩⟩
  · exact (hreplayed.reservations (smallLegacy.take 1) (smallLegacy.get ⟨1, by decide⟩)
      ⟨smallLegacy.drop 2, rfl⟩ _ _ _ rfl _ (fiveTokens_valid (.inl rfl)) [] now
      (by decide +kernel)).mpr hfolds
  · exact (hreplayed.reservations (smallLegacy.take 2) (smallLegacy.get ⟨2, by decide⟩)
      ⟨smallLegacy.drop 3, rfl⟩ _ _ _ rfl _ (fiveTokens_valid (.inr rfl)) [] now
      (by decide +kernel)).mpr hfolds

end SynapseChannel.Spend
