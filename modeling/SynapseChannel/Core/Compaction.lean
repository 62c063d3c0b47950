import SynapseChannel.Core.EventAuthentication
import SynapseChannel.Lib.Group

/-!
# Core — Compaction

Bounded retention for the event log: the policy, the three scans for what
it dooms, and the deletion, which keeps the rows that other tables still
need. What a sweep reports is what it selected; it is what it removed
when the deletion kept none of it.
-/

namespace SynapseChannel

open Py

/-! ## The deletion -/

/-- The log and the tables whose rows keep its rows from deletion. -/
structure EventTables where
  events : EventTable
  /-- `legacy_seq` and `receipt_id`; `none` is a store without the table. -/
  aefOutbox : Option (List (Int × Option String)) := none
  /-- `first_event_seq` and `commit_seq`. -/
  operations : List (Int × Int) := []

/-- The kinds whose rows are kept once there is protected-write history. -/
def guardedKinds : List String :=
  [EventKind.claim, EventKind.taskUpdate, EventKind.checkpoint, EventKind.handoff, EventKind.release]

/-- `kind = 'protected_write' OR kind GLOB 'protected_write_*'`; no BLOB matches a pattern. -/
def isProtectedHistory : SqlValue → Bool
  | .text kind => decide (kind = "protected_write") || startsWith kind "protected_write_"
  | _ => false

namespace EventTables

/-- A row with this sequence whose receipt is not recorded. -/
def pendingOutbox (tables : EventTables) (seq : Int) : Bool :=
  tables.aefOutbox.any fun rows => rows.any fun entry => entry.1 = seq && entry.2.isNone

/-- A keyed operation whose events span this sequence. -/
def spannedByOperation (tables : EventTables) (seq : Int) : Bool :=
  tables.operations.any fun span => span.1 ≤ seq && seq ≤ span.2

/-- The conditions of the `DELETE` on a row; a kind that is NULL satisfies no comparison. -/
def deletable (tables : EventTables) (row : EventRow) : Bool :=
  match row.kind with
  | .null => false
  | _ =>
    !isProtectedHistory row.kind &&
      !(StoreConnection.ofKinds (some guardedKinds) row &&
        tables.events.rows.any fun r => isProtectedHistory r.kind) &&
      !tables.pendingOutbox row.seq && !tables.spannedByOperation row.seq

/-- One statement of the deletion, and the rows it removed. -/
def deleteSeq (tables : EventTables) (seq : Int) : EventTables × Nat :=
  ({ tables with
      events := tables.events.restrict fun row => !(decide (row.seq = seq) && tables.deletable row) },
    tables.events.rows.countP fun row => decide (row.seq = seq) && tables.deletable row)

/-- Delete the events of these sequences, with how many were removed. -/
def delete (tables : EventTables) (seqs : List Int) : EventTables × Nat :=
  seqs.foldl (fun (acc : EventTables × Nat) seq =>
    let (tables, removed) := acc.1.deleteSeq seq
    (tables, acc.2 + removed)) (tables, 0)

end EventTables

/-! ## The policy and the scans -/

/-- How much of the memory log to keep; a policy that would corrupt replay or invert time is not
built. -/
structure RetentionPolicy where
  maxCheckpointsPerTask : Option Nat := none
  findingGraceSeconds : Option Float := none
  dropCorruptRows : Bool := false
  keepsLatest : ∀ keep, maxCheckpointsPerTask = some keep → 1 ≤ keep := by simp
  notNegative : ∀ grace, findingGraceSeconds = some grace → ¬ grace < 0 := by simp

def RetentionPolicy.isNoop (policy : RetentionPolicy) : Bool :=
  policy.maxCheckpointsPerTask.isNone && policy.findingGraceSeconds.isNone &&
    !policy.dropCorruptRows

/-- What one sweep reports as removed. -/
structure CompactionResult where
  checkpointsRemoved : Nat
  findingsRemoved : Nat
  floorSeq : Int
  corruptRowsRemoved : Nat := 0
  deriving DecidableEq

/-- A finding's `validity.valid_to`, or `none` inside when it is open or absent; `none` outside is
the `OverflowError` of an integer that no float reaches. -/
def validTo (payload : Members) : Option (Option Float) :=
  match payload.get "validity" with
  | .obj validity =>
    match Members.get validity "valid_to" with
    | .int n => if (Float.ofInt n).isFinite then some (some (Float.ofInt n)) else none
    | .float x => some (some x)
    | _ => some none
  | _ => some none

variable [Builtins]

/-- `str(payload.get("task_id", ""))`. -/
def checkpointTask (event : StoredEvent) : String := (event.payload.getD "task_id" (.str "")).toStr

/-- The sequences of checkpoints at or below the floor beyond the latest `keep` of each task. -/
def supersededCheckpoints (conn : StoreConnection) (table : EventTable) (floor : Int) (keep : Nat) :
    List Int :=
  let settled := (conn.readSince table 0 (some [EventKind.checkpoint]) none).filter (·.seq ≤ floor)
  let byTask := groupBy checkpointTask (·.seq) settled
  byTask.values.flatMap fun seqs =>
    let seqs := sortedBy (fun a b => decide (a < b)) id seqs
    if keep < seqs.length then seqs.take (seqs.length - keep) else []

/-- The findings at or below the floor whose validity closed at or before `cutoff`. -/
def expiredFindings (conn : StoreConnection) (table : EventTable) (floor : Int) (cutoff : Float) :
    Option (List Int) :=
  let settled := (conn.readSince table 0 (some [EventKind.finding]) none).filter (·.seq ≤ floor)
  settled.foldlM (fun doomed event =>
    (validTo event.payload).map fun
      | some closed => if closed ≤ cutoff then doomed ++ [event.seq] else doomed
      | none => doomed) []

/-- The markers of the malformed rows, in sequence order. -/
def corruptRows (table : EventTable) (throughSeq : Option Int) : List CorruptEventRow :=
  (table.rows.filter fun row => throughSeq.all fun ceiling => decide (row.seq ≤ ceiling)).filterMap
    fun row => (decodeEventRow row).corruption

namespace RetentionPolicy

def doomedCheckpoints (policy : RetentionPolicy) (conn : StoreConnection) (table : EventTable)
    (floor : Int) : List Int :=
  match policy.maxCheckpointsPerTask with
  | some keep => supersededCheckpoints conn table floor keep
  | none => []

def doomedFindings (policy : RetentionPolicy) (conn : StoreConnection) (table : EventTable)
    (floor : Int) (now : Float) : Option (List Int) :=
  match policy.findingGraceSeconds with
  | some grace => expiredFindings conn table floor (now - grace)
  | none => some []

def doomedCorrupt (policy : RetentionPolicy) (table : EventTable) (floor : Int) : List Int :=
  if policy.dropCorruptRows then (corruptRows table (some floor)).map (·.seq) else []

end RetentionPolicy

/-- Apply a retention policy, deleting at or below the floor only; `none` is the `OverflowError` of
a scan, raised before anything is deleted. -/
def compact (conn : StoreConnection) (tables : EventTables) (policy : RetentionPolicy) (floor : Int)
    (now : Float) (dryRun : Bool) : Option (EventTables × CompactionResult) :=
  if policy.isNoop then some (tables, ⟨0, 0, floor, 0⟩)
  else do
    let checkpoints := policy.doomedCheckpoints conn tables.events floor
    let findings ← policy.doomedFindings conn tables.events floor now
    let corrupt := policy.doomedCorrupt tables.events floor
    let seqs := checkpoints ++ findings ++ corrupt
    return (if !seqs.isEmpty && !dryRun then (tables.delete seqs).1 else tables,
      ⟨checkpoints.length, findings.length, floor, corrupt.length⟩)

/-! ## What the deletion removes -/

namespace EventTables

omit [Builtins]

/-- A row that is removed is no history, so the conditions on the others stay as they are. -/
theorem deletable_history {tables : EventTables} {row : EventRow} (h : tables.deletable row = true) :
    isProtectedHistory row.kind = false := by
  unfold deletable at h
  split at h
  · cases h
  · simp only [Bool.and_eq_true, Bool.not_eq_true'] at h
    exact h.1.1.1

/-- The conditions on the rows stay as they are while the history stays. -/
theorem deletable_restrict {tables : EventTables} {p : EventRow → Bool}
    (h : ∀ row ∈ tables.events.rows, isProtectedHistory row.kind = true → p row = true)
    (row : EventRow) :
    ({ tables with events := tables.events.restrict p } : EventTables).deletable row =
      tables.deletable row := by
  have hany : ((tables.events.restrict p).rows.any fun r => isProtectedHistory r.kind) =
      tables.events.rows.any fun r => isProtectedHistory r.kind := by
    rw [Bool.eq_iff_iff, List.any_eq_true, List.any_eq_true]
    constructor
    · rintro ⟨r, hr, hkind⟩
      exact ⟨r, (List.mem_filter.mp hr).1, hkind⟩
    · rintro ⟨r, hr, hkind⟩
      exact ⟨r, List.mem_filter.mpr ⟨hr, h r hr hkind⟩, hkind⟩
  unfold deletable
  dsimp only
  rw [hany]
  rfl

theorem deletable_guarded {tables : EventTables} (selects : EventRow → Bool) (row : EventRow) :
    ({ tables with events := tables.events.restrict fun row =>
      !(selects row && tables.deletable row) } : EventTables).deletable row = tables.deletable row := by
  refine deletable_restrict (fun r _ hkind => ?_) row
  cases hdel : tables.deletable r with
  | false => rw [Bool.and_false, Bool.not_false]
  | true =>
    rw [deletable_history hdel] at hkind
    cases hkind

@[simp] theorem deleteSeq_deletable (tables : EventTables) (seq : Int) (row : EventRow) :
    (tables.deleteSeq seq).1.deletable row = tables.deletable row :=
  deletable_guarded (fun row => decide (row.seq = seq)) row

/-- One pass over the log does what the statements do one after the other. -/
theorem delete_eq (tables : EventTables) (seqs : List Int) :
    (tables.delete seqs).1 = { tables with
      events := tables.events.restrict fun row => !(seqs.contains row.seq && tables.deletable row) } := by
  have fold : ∀ (seqs : List Int) (tables : EventTables) (count : Nat),
      (seqs.foldl (fun (acc : EventTables × Nat) seq =>
        ((acc.1.deleteSeq seq).1, acc.2 + (acc.1.deleteSeq seq).2)) (tables, count)).1 =
      { tables with events := tables.events.restrict fun row =>
          !(seqs.contains row.seq && tables.deletable row) } := by
    intro seqs
    induction seqs with
    | nil =>
      intro tables count
      obtain ⟨⟨rows, lastSeq, ordered⟩, outbox, operations⟩ := tables
      simp [EventTable.restrict]
    | cons seq rest ih =>
      intro tables count
      rw [List.foldl_cons, ih]
      simp only [deleteSeq_deletable]
      simp only [deleteSeq, EventTable.restrict, List.filter_filter, EventTables.mk.injEq,
        EventTable.mk.injEq, and_true]
      refine List.filter_congr fun row _ => ?_
      rw [List.contains_cons, beq_eq_decide]
      cases tables.deletable row <;> cases rest.contains row.seq <;> cases decide (row.seq = seq) <;>
        rfl
  exact fold seqs tables 0

end EventTables

/-! ## How a connection reads rows -/

/-- A connection that no key was enabled on, or one that was enabled on the log as it stood. -/
inductive StoreConnection.Opened : StoreConnection → Prop where
  | plain : Opened {}
  | keyed {key : RowMacKey} {table : EventTable} {conn : StoreConnection}
      (h : enableRowMac key table = some conn) : Opened conn

/-- Whether a row does not decode. -/
def malformed (row : EventRow) : Bool := (decodeEventRow row).corruption.isSome

theorem decodeEventRow_malformed {row : EventRow} (h : malformed row = true) :
    ∃ ts marker, marker.seq = row.seq ∧
      decodeEventRow row = ⟨row.seq, ts, corruptEventKind, marker.asPayload, some marker⟩ := by
  unfold malformed decodeEventRow at h
  unfold decodeEventRow
  split at h
  · cases h
  · exact ⟨_, _, rfl, rfl⟩

theorem decodeEventRow_wellFormed {row : EventRow} (h : malformed row = false) :
    ∃ ts kind payload, row.kind = .text kind ∧ kind ≠ corruptEventKind ∧
      decodeEventRow row = ⟨row.seq, ts, kind, payload, none⟩ := by
  unfold malformed decodeEventRow at h
  unfold decodeEventRow
  split at h
  · rename_i ts kind payload hts hkind hpayload
    exact ⟨ts, kind, payload, (decodeKind_ne hkind).1, (decodeKind_ne hkind).2, rfl⟩
  · cases h

namespace StoreConnection

variable {conn : StoreConnection}

theorem Opened.marker (h : conn.Opened) {seq : Int} {marker : CorruptEventRow}
    (hget : conn.rowQuarantine.get? seq = some marker) : marker.seq = seq := by
  cases h with
  | plain => cases hget
  | keyed h =>
    have hquarantines := enableRowMac_quarantines h
    obtain ⟨row, hrow, rfl, hsince, hverify⟩ := hquarantines.present seq marker hget
    rw [hquarantines.marked row hrow hsince hverify] at hget
    rw [← Option.some.inj hget]
    rfl

/-- A row is read as a marker, or as the event it decodes to. -/
theorem Opened.read_cases (h : conn.Opened) (row : EventRow) :
    (∃ ts, ∃ marker : CorruptEventRow, marker.seq = row.seq ∧
      conn.decodeEvent row true = ⟨row.seq, ts, corruptEventKind, marker.asPayload⟩) ∨
    (malformed row = false ∧ conn.rowQuarantine.get? row.seq = none ∧
      ∃ ts kind payload, row.kind = .text kind ∧ kind ≠ corruptEventKind ∧
        conn.decodeEvent row true = ⟨row.seq, ts, kind, payload⟩) := by
  unfold decodeEvent
  rw [if_pos rfl]
  cases hget : conn.rowQuarantine.get? row.seq with
  | some marker =>
    have hseq := h.marker hget
    refine .inl ⟨0, marker, hseq, ?_⟩
    rw [← hseq]
    rfl
  | none =>
    cases hbad : malformed row with
    | true =>
      obtain ⟨ts, marker, hseq, hdecode⟩ := decodeEventRow_malformed hbad
      refine .inl ⟨ts, marker, hseq, ?_⟩
      dsimp only
      rw [hdecode]
      rfl
    | false =>
      obtain ⟨ts, kind, payload, hkind, hne, hdecode⟩ := decodeEventRow_wellFormed hbad
      refine .inr ⟨rfl, rfl, ts, kind, payload, hkind, hne, ?_⟩
      dsimp only
      rw [hdecode]
      rfl

theorem Opened.read_seq (h : conn.Opened) (row : EventRow) :
    (conn.decodeEvent row true).seq = row.seq := by
  rcases h.read_cases row with ⟨ts, marker, -, hread⟩ | ⟨-, -, ts, kind, payload, -, -, hread⟩ <;>
    rw [hread]

/-- A row that does not decode is read as a marker under any key. -/
theorem Opened.read_malformed (h : conn.Opened) {row : EventRow} (hbad : malformed row = true) :
    (conn.decodeEvent row true).kind = corruptEventKind := by
  rcases h.read_cases row with ⟨ts, marker, -, hread⟩ | ⟨hgood, -⟩
  · rw [hread]
  · rw [hbad] at hgood
    cases hgood

theorem Opened.read_kind (h : conn.Opened) {row : EventRow} {kind : String}
    (hkind : row.kind = .text kind) :
    (conn.decodeEvent row true).kind = corruptEventKind ∨
      (conn.decodeEvent row true).kind = kind := by
  rcases h.read_cases row with ⟨ts, marker, -, hread⟩ | ⟨-, -, ts, stored, payload, hstored, -, hread⟩
  · exact .inl (by rw [hread])
  · rw [hkind] at hstored
    cases hstored
    exact .inr (by rw [hread])

omit [Builtins] in
theorem ofKinds_singleton {kind : String} {row : EventRow} :
    ofKinds (some [kind]) row = true ↔ row.kind = .text kind := by
  unfold ofKinds
  split
  · rename_i hnone
    cases hnone
  · rename_i kinds stored hkinds hstored
    cases hkinds
    rw [hstored, List.contains_eq_mem, decide_eq_true_iff, List.mem_singleton]
    exact ⟨fun h => h ▸ rfl, fun h => by cases h; rfl⟩
  · rename_i hother
    exact iff_of_false Bool.false_ne_true (hother _)

end StoreConnection

/-! ## What the scans select -/

section Scans

omit [Builtins] in
theorem EventTable.seq_inj {table : EventTable} {row other : EventRow} (h : row ∈ table.rows)
    (h' : other ∈ table.rows) (hseq : row.seq = other.seq) : row = other :=
  List.inj_on_of_nodup_map ((List.pairwise_map.mpr (table.ordered.imp fun hlt => hlt.ne)) :
    (table.rows.map EventRow.seq).Nodup) h h' hseq

/-- Sequences that stand for the rows of a table that satisfy `p`, each once. -/
structure Dooms (table : EventTable) (p : EventRow → Bool) (seqs : List Int) : Prop where
  once : seqs.Nodup
  mem : ∀ seq, seq ∈ seqs ↔ ∃ row ∈ table.rows, row.seq = seq ∧ p row = true

namespace Dooms

variable {table : EventTable} {p : EventRow → Bool} {seqs : List Int}

omit [Builtins]

theorem filter (table : EventTable) (p : EventRow → Bool) :
    Dooms table p ((table.rows.filter p).map (·.seq)) where
  once := List.pairwise_map.mpr ((table.ordered.sublist List.filter_sublist).imp fun hlt => hlt.ne)
  mem := by
    intro seq
    simp only [List.mem_map, List.mem_filter]
    exact ⟨fun ⟨row, ⟨hrow, hp⟩, hseq⟩ => ⟨row, hrow, hseq, hp⟩,
      fun ⟨row, hrow, hseq, hp⟩ => ⟨row, ⟨hrow, hp⟩, hseq⟩⟩

theorem length (h : Dooms table p seqs) : seqs.length = table.rows.countP p := by
  have hfilter := filter table p
  have hperm := (List.perm_ext_iff_of_nodup h.once hfilter.once).mpr fun seq =>
    (h.mem seq).trans (hfilter.mem seq).symm
  rw [hperm.length_eq, List.length_map, List.countP_eq_length_filter]

theorem mem_iff (h : Dooms table p seqs) {row : EventRow} (hrow : row ∈ table.rows) :
    row.seq ∈ seqs ↔ p row = true := by
  rw [h.mem]
  constructor
  · rintro ⟨other, hother, hseq, hp⟩
    rwa [← table.seq_inj hother hrow hseq]
  · exact fun hp => ⟨row, hrow, rfl, hp⟩

end Dooms

/-- A row of the scan over one kind, up to the floor. -/
def settledOf (kind : String) (floor : Int) (row : EventRow) : Bool :=
  decide (0 < row.seq) && StoreConnection.ofKinds (some [kind]) row && decide (row.seq ≤ floor)

/-- The task a checkpoint row is read under. -/
def readTask (conn : StoreConnection) (row : EventRow) : String :=
  checkpointTask (conn.decodeEvent row true)

/-- The settled checkpoint rows after a row that are read under its task. -/
def laterCheckpoints (conn : StoreConnection) (table : EventTable) (floor : Int) (row : EventRow) :
    List EventRow :=
  table.rows.filter fun r =>
    settledOf EventKind.checkpoint floor r && decide (readTask conn r = readTask conn row) &&
      decide (row.seq < r.seq)

/-- A settled checkpoint row with `keep` or more later ones of its task. -/
def superseded (conn : StoreConnection) (table : EventTable) (floor : Int) (keep : Nat)
    (row : EventRow) : Bool :=
  settledOf EventKind.checkpoint floor row &&
    decide (keep ≤ (laterCheckpoints conn table floor row).length)

/-- A settled finding row whose validity closed at or before `cutoff`. -/
def expired (conn : StoreConnection) (floor : Int) (cutoff : Float) (row : EventRow) : Bool :=
  settledOf EventKind.finding floor row &&
    match validTo (conn.decodeEvent row true).payload with
    | some (some closed) => decide (closed ≤ cutoff)
    | _ => false

variable {conn : StoreConnection} {table : EventTable} {floor : Int}

theorem settled_eq (h : conn.Opened) (kind : String) :
    (conn.readSince table 0 (some [kind]) none).filter (·.seq ≤ floor) =
      (table.rows.filter (settledOf kind floor)).map (conn.decodeEvent · true) := by
  unfold StoreConnection.readSince StoreConnection.sinceRows
  dsimp only
  rw [List.filter_map, List.filter_filter]
  refine congrArg _ (List.filter_congr fun row _ => ?_)
  rw [Function.comp_apply, h.read_seq, Bool.and_comm]
  rfl

/-- The sequences of one task's settled checkpoints. -/
def groupSeqs (conn : StoreConnection) (table : EventTable) (floor : Int) (task : String) : List Int :=
  (table.rows.filter fun row =>
    settledOf EventKind.checkpoint floor row && decide (readTask conn row = task)).map (·.seq)

theorem groupSeqs_ordered (task : String) :
    (groupSeqs conn table floor task).Pairwise (· < ·) :=
  List.pairwise_map.mpr (table.ordered.sublist List.filter_sublist)

theorem mem_groupSeqs {task : String} {seq : Int} :
    seq ∈ groupSeqs conn table floor task ↔ ∃ row ∈ table.rows, row.seq = seq ∧
      settledOf EventKind.checkpoint floor row = true ∧ readTask conn row = task := by
  simp only [groupSeqs, List.mem_map, List.mem_filter, Bool.and_eq_true, decide_eq_true_eq]
  exact ⟨fun ⟨row, ⟨hrow, hp⟩, hseq⟩ => ⟨row, hrow, hseq, hp⟩,
    fun ⟨row, hrow, hseq, hp⟩ => ⟨row, ⟨hrow, hp⟩, hseq⟩⟩

/-- The settled checkpoints of each task, by the task they are read under. -/
def checkpointGroups (conn : StoreConnection) (table : EventTable) (floor : Int) :
    Dict String (List Int) :=
  groupBy checkpointTask (·.seq)
    ((table.rows.filter (settledOf EventKind.checkpoint floor)).map (conn.decodeEvent · true))

theorem checkpointGroups_some (h : conn.Opened) {task : String} {seqs : List Int}
    (hget : (checkpointGroups conn table floor).get? task = some seqs) :
    seqs = groupSeqs conn table floor task := by
  unfold groupSeqs
  rw [get?_groupBy_eq_some hget, List.filter_map, List.map_map, List.filter_filter]
  simp only [Bool.and_comm (settledOf EventKind.checkpoint floor _)]
  show (table.rows.filter _).map _ = (table.rows.filter _).map _
  exact List.map_congr_left fun row _ => h.read_seq row

/-- A group already stands in ascending order, and the scan takes all of it but its end. -/
theorem supersededCheckpoints_eq (h : conn.Opened) (keep : Nat) :
    supersededCheckpoints conn table floor keep =
      (checkpointGroups conn table floor).values.flatMap fun seqs => seqs.take (seqs.length - keep) := by
  unfold supersededCheckpoints
  rw [settled_eq h]
  refine List.flatMap_congr fun seqs hseqs => ?_
  obtain ⟨task, hget⟩ := (Dict.mem_values_iff _ _).mp hseqs
  have hsorted : sortedBy (fun a b => decide (a < b)) id seqs = seqs := by
    rw [checkpointGroups_some h hget]
    exact sortedBy_eq_self _ ((groupSeqs_ordered task).imp fun hlt => by simpa using hlt.le)
  rw [hsorted]
  dsimp only
  split
  · rfl
  · rw [Nat.sub_eq_zero_of_le (by omega), List.take_zero]

/-- What stands above a checkpoint in its group are the later checkpoints of its task. -/
theorem mem_take_groupSeqs {keep : Nat} {row : EventRow} (hrow : row ∈ table.rows) {task : String} :
    row.seq ∈ (groupSeqs conn table floor task).take ((groupSeqs conn table floor task).length - keep) ↔
      readTask conn row = task ∧ superseded conn table floor keep row = true := by
  have hlater : readTask conn row = task →
      ((groupSeqs conn table floor task).filter (row.seq < ·)).length =
        (laterCheckpoints conn table floor row).length := by
    rintro rfl
    unfold groupSeqs laterCheckpoints
    rw [List.filter_map, List.length_map, List.filter_filter]
    simp only [Bool.and_comm _ (decide (row.seq < _))]
    rfl
  rw [mem_take_sub_iff (groupSeqs_ordered task), mem_groupSeqs]
  unfold superseded
  rw [Bool.and_eq_true, decide_eq_true_eq]
  constructor
  · rintro ⟨⟨other, hother, hseq, hsettled, htask⟩, hle⟩
    obtain rfl := table.seq_inj hother hrow hseq
    exact ⟨htask, hsettled, hlater htask ▸ hle⟩
  · rintro ⟨htask, hsettled, hle⟩
    exact ⟨⟨row, hrow, rfl, hsettled, htask⟩, hlater htask ▸ hle⟩

theorem dooms_superseded (h : conn.Opened) (keep : Nat) :
    Dooms table (superseded conn table floor keep)
      (supersededCheckpoints conn table floor keep) := by
  rw [supersededCheckpoints_eq h]
  -- every sequence of a group is the sequence of a row of its task
  have hrows : ∀ {task : String} {seqs : List Int}, (checkpointGroups conn table floor).get? task =
      some seqs → ∀ seq ∈ seqs.take (seqs.length - keep), ∃ row ∈ table.rows, row.seq = seq ∧
        readTask conn row = task ∧ superseded conn table floor keep row = true := by
    intro task seqs hget seq hseq
    rw [checkpointGroups_some h hget] at hseq
    obtain ⟨row, hrow, rfl, -⟩ := mem_groupSeqs.mp (List.mem_of_mem_take hseq)
    exact ⟨row, hrow, rfl, (mem_take_groupSeqs hrow).mp hseq⟩
  constructor
  · rw [List.nodup_flatMap]
    constructor
    · intro seqs hseqs
      obtain ⟨task, hget⟩ := (Dict.mem_values_iff _ _).mp hseqs
      rw [checkpointGroups_some h hget]
      exact ((groupSeqs_ordered task).imp fun hlt => hlt.ne).sublist (List.take_sublist _ _)
    · unfold Dict.values
      rw [List.pairwise_map]
      have hkeys := List.pairwise_map.mp (checkpointGroups conn table floor).nodup
      refine hkeys.imp_of_mem fun {group other} hgroup hother hne => ?_
      rintro seq hseq hseq'
      obtain ⟨row, hrow, hrowseq, htask, -⟩ := hrows ((Dict.mem_items_iff _ _ _).mp hgroup) seq hseq
      obtain ⟨row', hrow', hrowseq', htask', -⟩ :=
        hrows ((Dict.mem_items_iff _ _ _).mp hother) seq hseq'
      obtain rfl := table.seq_inj hrow hrow' (hrowseq.trans hrowseq'.symm)
      exact hne (htask.symm.trans htask')
  · intro seq
    rw [List.mem_flatMap]
    constructor
    · rintro ⟨seqs, hseqs, hseq⟩
      obtain ⟨task, hget⟩ := (Dict.mem_values_iff _ _).mp hseqs
      obtain ⟨row, hrow, hrowseq, -, hsup⟩ := hrows hget seq hseq
      exact ⟨row, hrow, hrowseq, hsup⟩
    · rintro ⟨row, hrow, rfl, hsup⟩
      have hsettled : settledOf EventKind.checkpoint floor row = true := (Bool.and_eq_true_iff.mp hsup).1
      have hmem : conn.decodeEvent row true ∈
          (table.rows.filter (settledOf EventKind.checkpoint floor)).map (conn.decodeEvent · true) :=
        List.mem_map_of_mem (List.mem_filter.mpr ⟨hrow, hsettled⟩)
      have hget : (checkpointGroups conn table floor).get? (readTask conn row) = some _ :=
        get?_groupBy_of_mem hmem
      refine ⟨_, (Dict.mem_values_iff _ _).mpr ⟨_, hget⟩, ?_⟩
      rw [checkpointGroups_some h hget]
      exact (mem_take_groupSeqs hrow).mpr ⟨rfl, hsup⟩

/-- The scan over the findings ends exactly when the validity of each can be read. -/
theorem expiredFindings_some (h : conn.Opened) {cutoff : Float} {doomed : List Int} :
    expiredFindings conn table floor cutoff = some doomed ↔
      (∀ row ∈ table.rows, settledOf EventKind.finding floor row = true →
        (validTo (conn.decodeEvent row true).payload).isSome = true) ∧
      doomed = (table.rows.filter (expired conn floor cutoff)).map (·.seq) := by
  let closes (row : EventRow) : Bool :=
    match validTo (conn.decodeEvent row true).payload with
    | some (some closed) => decide (closed ≤ cutoff)
    | _ => false
  have fold : ∀ (rows : List EventRow) (acc : List Int),
      (rows.map (conn.decodeEvent · true)).foldlM (fun (doomed : List Int) event =>
        (validTo event.payload).map fun
          | some closed => if closed ≤ cutoff then doomed ++ [event.seq] else doomed
          | none => doomed) acc = some doomed ↔
      (∀ row ∈ rows, (validTo (conn.decodeEvent row true).payload).isSome = true) ∧
        doomed = acc ++ (rows.filter closes).map (·.seq) := by
    intro rows
    induction rows with
    | nil =>
      intro acc
      show some acc = some doomed ↔ _ ∧ doomed = acc ++ []
      rw [List.append_nil]
      exact ⟨fun hacc => ⟨by simp, (Option.some.inj hacc).symm⟩, fun ⟨_, hacc⟩ => congrArg some hacc.symm⟩
    | cons row rest ih =>
      intro acc
      rw [List.map_cons, List.foldlM_cons, List.forall_mem_cons]
      cases hvalid : validTo (conn.decodeEvent row true).payload with
      | none => exact iff_of_false (by simp) fun hall => by cases hall.1.1
      | some validity =>
        rw [Option.map_some, Option.bind_eq_bind, Option.bind_some, ih, and_assoc]
        refine Iff.trans (and_congr_right fun _ => ?_) (and_iff_right rfl).symm
        cases validity with
        | none =>
          rw [List.filter_cons_of_neg (by simp [closes, hvalid])]
        | some closed =>
          by_cases hle : closed ≤ cutoff
          · rw [List.filter_cons_of_pos (by simp [closes, hvalid, hle])]
            simp [hle, h.read_seq]
          · rw [List.filter_cons_of_neg (by simp [closes, hvalid, hle])]
            simp [hle]
  unfold expiredFindings
  rw [settled_eq h, fold, List.filter_filter, List.nil_append]
  simp only [List.mem_filter, and_imp]
  refine and_congr_right fun _ => ?_
  rw [show (fun row => closes row && settledOf EventKind.finding floor row) =
    expired conn floor cutoff from funext fun row => Bool.and_comm _ _]

theorem corruptRows_seqs (table : EventTable) (throughSeq : Option Int) :
    (corruptRows table throughSeq).map (·.seq) =
      (table.rows.filter fun row => malformed row &&
        throughSeq.all fun ceiling => decide (row.seq ≤ ceiling)).map (·.seq) := by
  have scan : ∀ rows : List EventRow,
      (rows.filterMap fun row => (decodeEventRow row).corruption).map (·.seq) =
        (rows.filter malformed).map (·.seq) := by
    intro rows
    induction rows with
    | nil => rfl
    | cons row rest ih =>
      cases hbad : malformed row with
      | false =>
        obtain ⟨ts, kind, payload, -, -, hdecode⟩ := decodeEventRow_wellFormed hbad
        rw [List.filter_cons_of_neg (by simp [hbad]), List.filterMap_cons_none (by rw [hdecode]), ih]
      | true =>
        obtain ⟨ts, marker, hseq, hdecode⟩ := decodeEventRow_malformed hbad
        rw [List.filter_cons_of_pos hbad, List.filterMap_cons_some (b := marker) (by rw [hdecode]),
          List.map_cons, List.map_cons, ih, hseq]
  unfold corruptRows
  rw [scan, List.filter_filter]

end Scans

/-! ## What a sweep does -/

namespace EventTable

omit [Builtins]

theorem restrict_congr {table : EventTable} {p q : EventRow → Bool}
    (h : ∀ row ∈ table.rows, p row = q row) : table.restrict p = table.restrict q := by
  have hrows := List.filter_congr h
  unfold restrict
  congr 1

theorem restrict_eq_self {table : EventTable} {p : EventRow → Bool}
    (h : ∀ row ∈ table.rows, p row = true) : table.restrict p = table := by
  have hrows := List.filter_eq_self.mpr h
  unfold restrict
  congr 1

end EventTable

namespace RetentionPolicy

/-- A checkpoint row that the policy gives up. -/
def supersedes (policy : RetentionPolicy) (conn : StoreConnection) (table : EventTable) (floor : Int)
    (row : EventRow) : Bool :=
  policy.maxCheckpointsPerTask.any fun keep => superseded conn table floor keep row

/-- A finding row that the policy gives up. -/
def expires (policy : RetentionPolicy) (conn : StoreConnection) (floor : Int) (now : Float)
    (row : EventRow) : Bool :=
  policy.findingGraceSeconds.any fun grace => expired conn floor (now - grace) row

/-- A row that does not decode and that the policy gives up. -/
def drops (policy : RetentionPolicy) (floor : Int) (row : EventRow) : Bool :=
  policy.dropCorruptRows && (malformed row && decide (row.seq ≤ floor))

/-- A row that the policy gives up. -/
def selects (policy : RetentionPolicy) (conn : StoreConnection) (table : EventTable) (floor : Int)
    (now : Float) (row : EventRow) : Bool :=
  policy.supersedes conn table floor row || policy.expires conn floor now row ||
    policy.drops floor row

/-- The validity of every finding in reach of the policy can be read. -/
def Readable (policy : RetentionPolicy) (conn : StoreConnection) (table : EventTable) (floor : Int) :
    Prop :=
  policy.findingGraceSeconds.isSome = true → ∀ row ∈ table.rows,
    settledOf EventKind.finding floor row = true →
      (validTo (conn.decodeEvent row true).payload).isSome = true

end RetentionPolicy

section Sweep

variable {conn : StoreConnection} {tables : EventTables} {policy : RetentionPolicy} {floor : Int}
  {now : Float}

omit [Builtins] in
/-- The deletion of three scans' sequences, which may overlap, keeps the guarded rows. -/
theorem delete_dooms {p q r : EventRow → Bool} {checkpoints findings corrupt : List Int}
    (hp : Dooms tables.events p checkpoints) (hq : Dooms tables.events q findings)
    (hr : Dooms tables.events r corrupt) (dryRun : Bool) :
    (if !(checkpoints ++ findings ++ corrupt).isEmpty && !dryRun then
        (tables.delete (checkpoints ++ findings ++ corrupt)).1 else tables) =
      if dryRun then tables else { tables with events := tables.events.restrict fun row =>
        !((p row || q row || r row) && tables.deletable row) } := by
  have hdelete : (tables.delete (checkpoints ++ findings ++ corrupt)).1 =
      { tables with events := tables.events.restrict fun row =>
        !((p row || q row || r row) && tables.deletable row) } := by
    rw [EventTables.delete_eq]
    congr 1
    refine EventTable.restrict_congr fun row hrow => ?_
    have hmem : (checkpoints ++ findings ++ corrupt).contains row.seq = (p row || q row || r row) := by
      rw [Bool.eq_iff_iff, List.contains_eq_mem, decide_eq_true_eq, List.mem_append, List.mem_append,
        hp.mem_iff hrow, hq.mem_iff hrow, hr.mem_iff hrow, Bool.or_eq_true, Bool.or_eq_true]
    rw [hmem]
  cases dryRun with
  | true => simp
  | false =>
    rw [← hdelete]
    cases hseqs : checkpoints ++ findings ++ corrupt <;> rfl

theorem dooms_doomedCheckpoints (h : conn.Opened) :
    Dooms tables.events (policy.supersedes conn tables.events floor)
      (policy.doomedCheckpoints conn tables.events floor) := by
  unfold RetentionPolicy.supersedes RetentionPolicy.doomedCheckpoints
  cases policy.maxCheckpointsPerTask with
  | some keep => exact dooms_superseded h keep
  | none => exact ⟨List.nodup_nil, by simp⟩

theorem doomedFindings_some (h : conn.Opened) {doomed : List Int} :
    policy.doomedFindings conn tables.events floor now = some doomed ↔
      policy.Readable conn tables.events floor ∧
        doomed = (tables.events.rows.filter (policy.expires conn floor now)).map (·.seq) := by
  unfold RetentionPolicy.Readable RetentionPolicy.expires RetentionPolicy.doomedFindings
  cases policy.findingGraceSeconds with
  | some grace =>
    refine (expiredFindings_some h).trans ?_
    exact and_congr_left fun _ => ⟨fun hread _ => hread, fun hread => hread rfl⟩
  | none =>
    simp only [Option.isSome_none, Option.any_none, List.filter_false, List.map_nil, Option.some.injEq]
    exact ⟨fun heq => ⟨fun hread => (Bool.false_ne_true hread).elim, heq.symm⟩, fun h => h.2.symm⟩

theorem doomedCorrupt_eq : policy.doomedCorrupt tables.events floor =
    (tables.events.rows.filter (policy.drops floor)).map (·.seq) := by
  unfold RetentionPolicy.drops RetentionPolicy.doomedCorrupt
  cases policy.dropCorruptRows with
  | true => exact corruptRows_seqs _ _
  | false => simp

/-- What a sweep reports is what the policy selects. -/
theorem compact_some (h : conn.Opened) {dryRun : Bool} {swept : EventTables}
    {result : CompactionResult} :
    compact conn tables policy floor now dryRun = some (swept, result) ↔
      policy.Readable conn tables.events floor ∧
      swept = (if dryRun then tables else { tables with events := tables.events.restrict fun row =>
        !(policy.selects conn tables.events floor now row && tables.deletable row) }) ∧
      result = ⟨tables.events.rows.countP (policy.supersedes conn tables.events floor),
        tables.events.rows.countP (policy.expires conn floor now), floor,
        tables.events.rows.countP (policy.drops floor)⟩ := by
  have hcheckpoints : Dooms tables.events (policy.supersedes conn tables.events floor) _ :=
    dooms_doomedCheckpoints h
  unfold compact
  split
  · rename_i hnoop
    obtain ⟨⟨hmax, hgrace⟩, hdrop⟩ : (policy.maxCheckpointsPerTask = none ∧
        policy.findingGraceSeconds = none) ∧ policy.dropCorruptRows = false := by
      simpa [RetentionPolicy.isNoop] using hnoop
    -- a policy without a knob gives up no row
    have hsupersedes : policy.supersedes conn tables.events floor = fun _ => false := by
      funext row
      unfold RetentionPolicy.supersedes
      rw [hmax]
      rfl
    have hexpires : policy.expires conn floor now = fun _ => false := by
      funext row
      unfold RetentionPolicy.expires
      rw [hgrace]
      rfl
    have hdrops : policy.drops floor = fun _ => false := by
      funext row
      unfold RetentionPolicy.drops
      rw [hdrop]
      rfl
    have hread : policy.Readable conn tables.events floor := by
      unfold RetentionPolicy.Readable
      rw [hgrace]
      exact fun hsome => (Bool.false_ne_true hsome).elim
    have hkept : tables.events.restrict (fun row =>
        !(policy.selects conn tables.events floor now row && tables.deletable row)) = tables.events := by
      refine EventTable.restrict_eq_self fun row _ => ?_
      unfold RetentionPolicy.selects
      rw [hsupersedes, hexpires, hdrops]
      rfl
    rw [hkept, ite_self, hsupersedes, hexpires, hdrops, List.countP_false, Function.const_apply,
      Option.some.injEq, Prod.mk.injEq]
    exact ⟨fun ⟨htables, hresult⟩ => ⟨hread, htables.symm, hresult.symm⟩,
      fun ⟨_, htables, hresult⟩ => ⟨htables.symm, hresult.symm⟩⟩
  · rw [Option.bind_eq_bind, Option.bind_eq_some_iff, doomedCorrupt_eq]
    constructor
    · rintro ⟨findings, hscan, heq⟩
      obtain ⟨hread, rfl⟩ := (doomedFindings_some h).mp hscan
      obtain ⟨rfl, rfl⟩ := Prod.mk.inj (Option.some.inj heq)
      refine ⟨hread, ?_, ?_⟩
      · exact delete_dooms hcheckpoints (Dooms.filter _ _) (Dooms.filter _ _) dryRun
      · rw [hcheckpoints.length, (Dooms.filter _ _).length, (Dooms.filter _ _).length]
    · rintro ⟨hread, rfl, rfl⟩
      refine ⟨_, (doomedFindings_some h).mpr ⟨hread, rfl⟩, congrArg some (Prod.ext ?_ ?_)⟩
      · exact delete_dooms hcheckpoints (Dooms.filter _ _) (Dooms.filter _ _) dryRun
      · dsimp only
        rw [hcheckpoints.length, (Dooms.filter _ _).length, (Dooms.filter _ _).length]

/-! ## What a sweep reports -/

/-- The rows of one state of the log that another does not have. -/
def EventTables.removed (before after : EventTables) : List EventRow :=
  before.events.rows.filter fun row => !(after.events.rows.map (·.seq)).contains row.seq

/-- Whether a row is read under a kind. -/
def readAs (conn : StoreConnection) (kind : String) (row : EventRow) : Bool :=
  decide ((conn.decodeEvent row true).kind = kind)

/-- The counts of a result are the numbers of checkpoints, findings and markers among the rows
removed. -/
structure Accounts (conn : StoreConnection) (before after : EventTables) (result : CompactionResult) :
    Prop where
  checkpoints : result.checkpointsRemoved =
    (before.removed after).countP (readAs conn EventKind.checkpoint)
  findings : result.findingsRemoved = (before.removed after).countP (readAs conn EventKind.finding)
  corrupt : result.corruptRowsRemoved = (before.removed after).countP (readAs conn corruptEventKind)

omit [Builtins] in
theorem removed_restrict (p : EventRow → Bool) :
    tables.removed { tables with events := tables.events.restrict fun row => !p row } =
      tables.events.rows.filter p := by
  refine List.filter_congr fun row hrow => ?_
  rw [Bool.not_eq_eq_eq_not, Bool.eq_iff_iff, List.contains_eq_mem, decide_eq_true_eq, List.mem_map]
  constructor
  · rintro ⟨other, hother, hseq⟩
    obtain ⟨hmem, hp⟩ := List.mem_filter.mp hother
    rwa [← tables.events.seq_inj hmem hrow hseq]
  · exact fun hp => ⟨row, List.mem_filter.mpr ⟨hrow, hp⟩, rfl⟩

omit [Builtins] in
theorem settledOf_some {kind : String} {row : EventRow} (h : settledOf kind floor row = true) :
    row.kind = .text kind ∧ row.seq ≤ floor := by
  unfold settledOf at h
  obtain ⟨⟨-, hkind⟩, hle⟩ := by simpa only [Bool.and_eq_true] using h
  exact ⟨StoreConnection.ofKinds_singleton.mp hkind, of_decide_eq_true hle⟩

theorem supersedes_some {row : EventRow}
    (h : policy.supersedes conn tables.events floor row = true) :
    row.kind = .text EventKind.checkpoint ∧ row.seq ≤ floor := by
  obtain ⟨keep, -, hkeep⟩ := (Option.any_eq_true _ _).mp h
  exact settledOf_some (Bool.and_eq_true_iff.mp hkeep).1

/-- A marker names no validity, so only a finding that is read as one is given up for its age. -/
theorem expires_some (hconn : conn.Opened) {row : EventRow}
    (h : policy.expires conn floor now row = true) :
    (conn.decodeEvent row true).kind = EventKind.finding ∧ row.seq ≤ floor := by
  obtain ⟨grace, -, hgrace⟩ := (Option.any_eq_true _ _).mp h
  obtain ⟨hsettled, hclosed⟩ := Bool.and_eq_true_iff.mp hgrace
  obtain ⟨hkind, hle⟩ := settledOf_some hsettled
  refine ⟨?_, hle⟩
  rcases hconn.read_cases row with ⟨ts, marker, -, hread⟩ | ⟨-, -, ts, kind, payload, hstored, -, hread⟩
  · rw [hread] at hclosed
    cases hclosed
  · rw [hread]
    rw [hkind] at hstored
    exact (SqlValue.text.inj hstored).symm

theorem drops_some (hconn : conn.Opened) {row : EventRow} (h : policy.drops floor row = true) :
    (conn.decodeEvent row true).kind = corruptEventKind ∧ row.seq ≤ floor := by
  obtain ⟨-, h⟩ := Bool.and_eq_true_iff.mp h
  obtain ⟨hbad, hle⟩ := Bool.and_eq_true_iff.mp h
  exact ⟨hconn.read_malformed hbad, of_decide_eq_true hle⟩

theorem selects_iff {table : EventTable} {row : EventRow} :
    policy.selects conn table floor now row = true ↔
      policy.supersedes conn table floor row = true ∨
        policy.expires conn floor now row = true ∨ policy.drops floor row = true := by
  unfold RetentionPolicy.selects
  rw [Bool.or_eq_true, Bool.or_eq_true, or_assoc]

theorem selects_le (hconn : conn.Opened) {row : EventRow}
    (h : policy.selects conn tables.events floor now row = true) : row.seq ≤ floor := by
  rcases selects_iff.mp h with h | h | h
  · exact (supersedes_some h).2
  · exact (expires_some hconn h).2
  · exact (drops_some hconn h).2

/-- What the rows that a policy gives up are read as. -/
theorem readAs_selects (hconn : conn.Opened) (row : EventRow) :
    (readAs conn EventKind.checkpoint row && policy.selects conn tables.events floor now row) =
        (policy.supersedes conn tables.events floor row && !readAs conn corruptEventKind row) ∧
      (readAs conn EventKind.finding row && policy.selects conn tables.events floor now row) =
        policy.expires conn floor now row ∧
      (readAs conn corruptEventKind row && policy.selects conn tables.events floor now row) =
        (policy.drops floor row ||
          (policy.supersedes conn tables.events floor row && readAs conn corruptEventKind row)) := by
  have hsup : policy.supersedes conn tables.events floor row = true →
      (conn.decodeEvent row true).kind = corruptEventKind ∨
        (conn.decodeEvent row true).kind = EventKind.checkpoint :=
    fun h => hconn.read_kind (supersedes_some h).1
  have hexp : policy.expires conn floor now row = true → _ := fun h => (expires_some hconn h).1
  have hdrop : policy.drops floor row = true → _ := fun h => (drops_some hconn h).1
  have hfinding : EventKind.checkpoint ≠ EventKind.finding := by decide
  have hmarker : EventKind.checkpoint ≠ corruptEventKind := by decide
  have hmarker' : EventKind.finding ≠ corruptEventKind := by decide
  unfold RetentionPolicy.selects readAs
  cases hs : policy.supersedes conn tables.events floor row <;>
    cases he : policy.expires conn floor now row <;>
    cases hd : policy.drops floor row <;> grind

omit [Builtins] in
/-- As many items satisfy both conditions as the first exactly when the first implies the second. -/
theorem countP_and_eq_iff {α : Type} {p q : α → Bool} {l : List α} :
    l.countP p = l.countP (fun a => p a && q a) ↔ ∀ a ∈ l, p a = true → q a = true := by
  have hfilter : l.countP (fun a => p a && q a) = (l.filter p).countP q := by
    rw [List.countP_filter]
    exact List.countP_congr fun a _ => by rw [Bool.and_comm]
  rw [hfilter, List.countP_eq_length_filter, eq_comm, List.countP_eq_length]
  simp only [List.mem_filter, and_imp]

/-- The counts of a sweep are those of the rows it removed exactly when no row that the policy gives
up is kept by the deletion and no checkpoint it gives up is read as a marker. -/
theorem accounts_iff (hconn : conn.Opened) :
    Accounts conn tables { tables with events := tables.events.restrict fun row =>
        !(policy.selects conn tables.events floor now row && tables.deletable row) }
      ⟨tables.events.rows.countP (policy.supersedes conn tables.events floor),
        tables.events.rows.countP (policy.expires conn floor now), floor,
        tables.events.rows.countP (policy.drops floor)⟩ ↔
      (∀ row ∈ tables.events.rows, policy.selects conn tables.events floor now row = true →
        tables.deletable row = true) ∧
      ∀ row ∈ tables.events.rows, policy.supersedes conn tables.events floor row = true →
        readAs conn corruptEventKind row = false := by
  let selects := policy.selects conn tables.events floor now
  have hcount : ∀ kind, (tables.removed { tables with events := tables.events.restrict fun row =>
        !(selects row && tables.deletable row) }).countP (readAs conn kind) =
      tables.events.rows.countP fun row => (readAs conn kind row && selects row) && tables.deletable row := by
    intro kind
    rw [removed_restrict, List.countP_filter]
    exact List.countP_congr fun row _ => by rw [Bool.and_assoc]
  have hcheckpoints : tables.events.rows.countP (policy.supersedes conn tables.events floor) =
      (tables.events.rows.countP fun row =>
        (readAs conn EventKind.checkpoint row && selects row) && tables.deletable row) ↔
      ∀ row ∈ tables.events.rows, policy.supersedes conn tables.events floor row = true →
        (!readAs conn corruptEventKind row && tables.deletable row) = true := by
    rw [← countP_and_eq_iff]
    refine Iff.of_eq (congrArg _ (List.countP_congr fun row _ => ?_))
    rw [(readAs_selects hconn row).1, Bool.and_assoc]
  have hfindings : tables.events.rows.countP (policy.expires conn floor now) =
      (tables.events.rows.countP fun row =>
        (readAs conn EventKind.finding row && selects row) && tables.deletable row) ↔
      ∀ row ∈ tables.events.rows, policy.expires conn floor now row = true →
        tables.deletable row = true := by
    rw [← countP_and_eq_iff]
    refine Iff.of_eq (congrArg _ (List.countP_congr fun row _ => ?_))
    rw [(readAs_selects hconn row).2.1]
  -- once no superseded checkpoint is read as a marker, the markers removed are the rows dropped
  have hcorrupt : (∀ row ∈ tables.events.rows, policy.supersedes conn tables.events floor row = true →
        readAs conn corruptEventKind row = false) →
      (tables.events.rows.countP (policy.drops floor) =
        (tables.events.rows.countP fun row =>
          (readAs conn corruptEventKind row && selects row) && tables.deletable row) ↔
      ∀ row ∈ tables.events.rows, policy.drops floor row = true → tables.deletable row = true) := by
    intro hread
    rw [← countP_and_eq_iff]
    refine Iff.of_eq (congrArg _ (List.countP_congr fun row hrow => ?_))
    rw [(readAs_selects hconn row).2.2]
    cases hs : policy.supersedes conn tables.events floor row with
    | false => rw [Bool.false_and, Bool.or_false]
    | true => rw [hread row hrow hs, Bool.and_false, Bool.or_false]
  constructor
  · rintro ⟨hc, hf, hx⟩
    rw [hcount] at hc hf hx
    have hc := hcheckpoints.mp hc
    have hf := hfindings.mp hf
    have hread : ∀ row ∈ tables.events.rows, policy.supersedes conn tables.events floor row = true →
        readAs conn corruptEventKind row = false := fun row hrow hs => by
      simpa using (Bool.and_eq_true_iff.mp (hc row hrow hs)).1
    have hx := (hcorrupt hread).mp hx
    refine ⟨fun row hrow hsel => ?_, hread⟩
    rcases selects_iff.mp hsel with hs | he | hd
    · exact (Bool.and_eq_true_iff.mp (hc row hrow hs)).2
    · exact hf row hrow he
    · exact hx row hrow hd
  · rintro ⟨hdel, hread⟩
    constructor
    · rw [hcount]
      refine hcheckpoints.mpr fun row hrow hs => ?_
      rw [hread row hrow hs, hdel row hrow (selects_iff.mpr (.inl hs))]
      rfl
    · rw [hcount]
      exact hfindings.mpr fun row hrow he => hdel row hrow (selects_iff.mpr (.inr (.inl he)))
    · rw [hcount]
      exact (hcorrupt hread).mpr fun row hrow hd => hdel row hrow (selects_iff.mpr (.inr (.inr hd)))

/-- A row that a policy gives up among fewer rows, it gives up among all. -/
theorem selects_restrict {p : EventRow → Bool} {row : EventRow}
    (h : policy.selects conn (tables.events.restrict p) floor now row = true) :
    policy.selects conn tables.events floor now row = true := by
  have hlater : (laterCheckpoints conn (tables.events.restrict p) floor row).length ≤
      (laterCheckpoints conn tables.events floor row).length :=
    (List.filter_sublist.filter _).length_le
  rw [selects_iff] at h ⊢
  rcases h with h | h | h
  · obtain ⟨keep, hmax, hsup⟩ := (Option.any_eq_true _ _).mp h
    obtain ⟨hsettled, hkeep⟩ := Bool.and_eq_true_iff.mp hsup
    refine .inl ((Option.any_eq_true _ _).mpr ⟨keep, hmax, Bool.and_eq_true_iff.mpr ⟨hsettled, ?_⟩⟩)
    exact decide_eq_true ((of_decide_eq_true hkeep).trans hlater)
  · exact .inr (.inl h)
  · exact .inr (.inr h)

/-- A second sweep finds what the deletion kept, and the deletion keeps it again. -/
theorem compact_again (hconn : conn.Opened) {swept : EventTables} {result : CompactionResult}
    (h : compact conn tables policy floor now false = some (swept, result)) :
    ∃ again count, compact conn swept policy floor now false = some (again, count) ∧
      again.events.rows = swept.events.rows := by
  obtain ⟨hread, rfl, rfl⟩ := (compact_some hconn).mp h
  rw [if_neg Bool.false_ne_true]
  refine ⟨_, _, (compact_some hconn).mpr ⟨fun hsome row hrow => hread hsome row
    (List.mem_filter.mp hrow).1, rfl, rfl⟩, ?_⟩
  refine List.filter_eq_self.mpr fun row hrow => ?_
  obtain ⟨hmem, hkept⟩ := List.mem_filter.mp hrow
  rw [EventTables.deletable_guarded (policy.selects conn tables.events floor now)]
  cases hsel : policy.selects conn (tables.events.restrict fun row =>
      !(policy.selects conn tables.events floor now row && tables.deletable row)) floor now row with
  | false => rfl
  | true => rwa [selects_restrict hsel] at hkept

/-- A sweep reports what it removes exactly when its deletion keeps no row that the policy gives up
and no checkpoint it gives up is read as a marker. The dry run, the floor and the second sweep hold
of every sweep. -/
theorem compaction_reports_iff (hconn : conn.Opened) {swept : EventTables} {result : CompactionResult}
    (h : compact conn tables policy floor now false = some (swept, result)) :
    (Accounts conn tables swept result ∧
      compact conn tables policy floor now true = some (tables, result) ∧
      (∀ row ∈ tables.events.rows, floor < row.seq → row ∈ swept.events.rows) ∧
      ∃ again count, compact conn swept policy floor now false = some (again, count) ∧
        again.events.rows = swept.events.rows) ↔
    (∀ row ∈ tables.events.rows, policy.selects conn tables.events floor now row = true →
      tables.deletable row = true) ∧
    ∀ row ∈ tables.events.rows, policy.supersedes conn tables.events floor row = true →
      readAs conn corruptEventKind row = false := by
  have hagain := compact_again hconn h
  obtain ⟨hread, hswept, hresult⟩ := (compact_some hconn).mp h
  have hdry : compact conn tables policy floor now true = some (tables, result) :=
    (compact_some hconn).mpr ⟨hread, rfl, hresult⟩
  have hfloor : ∀ row ∈ tables.events.rows, floor < row.seq → row ∈ swept.events.rows := by
    intro row hrow hlt
    rw [hswept]
    refine List.mem_filter.mpr ⟨hrow, ?_⟩
    cases hsel : policy.selects conn tables.events floor now row with
    | false => rfl
    | true => exact absurd (selects_le hconn hsel) (by omega)
  have hiff := @accounts_iff _ conn tables policy floor now hconn
  rw [if_neg Bool.false_ne_true] at hswept
  rw [← hswept, ← hresult] at hiff
  rw [← hiff]
  exact ⟨fun hall => hall.1, fun haccounts => ⟨haccounts, hdry, hfloor, hagain⟩⟩

/-! ## A row that is reported and kept -/

section Spanned

omit [Builtins]

/-- The row of a keyed operation, with a payload that is not JSON. -/
def spannedTables : EventTables where
  events := { rows := [⟨1, .real 1, .text "chat", .text "x", .null⟩], lastSeq := 1 }
  operations := [(1, 1)]

theorem compaction_reports_iff_unspanned :
    letI := Builtins.ascii
    let tables : EventTables := { spannedTables with operations := [] }
    ∃ swept result, compact {} tables { dropCorruptRows := true } 1 0 false = some (swept, result) ∧
      result.corruptRowsRemoved = 1 ∧ Accounts {} tables swept result := by
  let _ : Builtins := Builtins.ascii
  intro tables
  obtain ⟨⟨swept, result⟩, h, hone⟩ : ∃ outcome,
      compact {} tables { dropCorruptRows := true } 1 0 false = some outcome ∧
        outcome.2.corruptRowsRemoved = 1 := ⟨_, rfl, by decide +kernel⟩
  refine ⟨swept, result, h, hone, ((compaction_reports_iff .plain h).mpr ⟨?_, ?_⟩).1⟩
  · decide +kernel
  · decide +kernel

/-- The malformed row is counted as removed, and it is still in the log. -/
theorem spanned_row_kept :
    letI := Builtins.ascii
    ∃ swept result,
      compact {} spannedTables { dropCorruptRows := true } 1 0 false = some (swept, result) ∧
        result.corruptRowsRemoved = 1 ∧ swept.events.rows.length = 1 ∧
        ¬ Accounts {} spannedTables swept result := by
  let _ : Builtins := Builtins.ascii
  refine ⟨_, _, rfl, by decide +kernel, by decide +kernel, ?_⟩
  intro haccounts
  exact absurd haccounts.corrupt (by decide +kernel)

end Spanned

end Sweep

end SynapseChannel
