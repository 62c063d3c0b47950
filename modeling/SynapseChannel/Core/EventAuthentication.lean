import SynapseChannel.Core.EventRows
import SynapseChannel.Core.Journal

/-!
# Core — EventAuthentication

The event table under a row key: rows are inserted with their code, rows
that do not carry it are quarantined, and every read returns a
quarantined row as its marker. Replay folds what is read.
-/

namespace SynapseChannel

open Py

/-- The event table, by its primary key, and the sequence counter beside it. -/
structure EventTable where
  rows : List EventRow := []
  lastSeq : Int := 0
  ordered : rows.Pairwise fun a b => a.seq < b.seq := by simp

namespace EventTable

/-- The sequence of the next row: past the counter and past every row. -/
def nextSeq (table : EventTable) : Int :=
  max table.lastSeq (((table.rows.map EventRow.seq).max?).getD 0) + 1

theorem lt_nextSeq {table : EventTable} {row : EventRow} (h : row ∈ table.rows) :
    row.seq < table.nextSeq := by
  have hmem : row.seq ∈ table.rows.map EventRow.seq := List.mem_map_of_mem h
  have hle : row.seq ≤ ((table.rows.map EventRow.seq).max?).getD 0 := by
    cases hmax : (table.rows.map EventRow.seq).max? with
    | none => rw [List.max?_eq_none_iff.mp hmax] at hmem; cases hmem
    | some top => exact (List.max?_eq_some_iff.mp hmax).2 _ hmem
  unfold nextSeq
  omega

def append (table : EventTable) (ts kind payload mac : SqlValue) : EventTable where
  rows := table.rows ++ [⟨table.nextSeq, ts, kind, payload, mac⟩]
  lastSeq := table.nextSeq
  ordered := by
    rw [List.pairwise_append]
    refine ⟨table.ordered, List.pairwise_singleton _ _, ?_⟩
    intro row hrow other hother
    rw [List.mem_singleton.mp hother]
    exact lt_nextSeq hrow

/-- Keep the rows of a table that satisfy `p`. -/
def restrict (table : EventTable) (p : EventRow → Bool) : EventTable where
  rows := table.rows.filter p
  lastSeq := table.lastSeq
  ordered := table.ordered.sublist List.filter_sublist

/-- Delete the rows of the given sequences. -/
def delete (table : EventTable) (seqs : List Int) : EventTable :=
  table.restrict fun row => !seqs.contains row.seq

variable [Builtins]

/-- Insert one event row, with its code when a key is enabled; `none` is a refused statement or a
row that cannot be packed, and leaves the transaction to roll back. -/
def insertEvent (table : EventTable) (rowMac : Option RowMacKey) (ts : Float)
    (kind payload : String) : Option (EventTable × Int) :=
  let seq := table.nextSeq
  match SqlValue.ofReal ts with
  | .null => none
  | stored =>
    if seq < 2 ^ 63 then
      match rowMac with
      | none => some (table.append stored (.text kind) (.text payload) .null, seq)
      | some key =>
        (key.mac seq ts kind payload).map fun mac =>
          (table.append stored (.text kind) (.text payload) (.text mac), seq)
    else none

end EventTable

/-- The key and the quarantine of an open store. -/
structure StoreConnection where
  rowMac : Option RowMacKey := none
  rowQuarantine : Dict Int CorruptEventRow := Dict.empty

section Authentication

variable [Builtins]

/-- Note a row in the quarantine unless it carries the code of its fields. -/
def quarantineRow (key : RowMacKey) (quarantine : Dict Int CorruptEventRow) (row : EventRow) :
    Option (Dict Int CorruptEventRow) :=
  (key.verify row).map fun authentic =>
    if authentic then quarantine else quarantine.set row.seq (unauthenticatedRow row)

/-- Authenticate rows from now on and quarantine unauthenticated ones. -/
def enableRowMac (key : RowMacKey) (table : EventTable) : Option StoreConnection :=
  ((table.rows.filter fun row => key.sinceSeq < row.seq).foldlM (quarantineRow key)
    Dict.empty).map fun quarantine => { rowMac := some key, rowQuarantine := quarantine }

namespace StoreConnection

/-- The marker of a quarantined row as it is read. -/
def markerEvent (marker : CorruptEventRow) : StoredEvent :=
  ⟨marker.seq, 0, corruptEventKind, marker.asPayload⟩

/-- One validated event, or a marker. -/
def decodeEvent (conn : StoreConnection) (row : EventRow) (applyRowQuarantine : Bool) :
    StoredEvent :=
  match if applyRowQuarantine then conn.rowQuarantine.get? row.seq else none with
  | some marker => markerEvent marker
  | none => (decodeEventRow row).event

omit [Builtins] in
/-- `kind IN (...)`; without kinds, every row. -/
def ofKinds (kinds : Option (List String)) (row : EventRow) : Bool :=
  match kinds, row.kind with
  | none, _ => true
  | some kinds, .text kind => kinds.contains kind
  | some _, _ => false

omit [Builtins] in
/-- The rows that `iter_events` selects. -/
def iterRows (table : EventTable) (throughSeq : Option Int) (kinds : Option (List String))
    (afterSeq : Option Int) : List EventRow :=
  table.rows.filter fun row =>
    throughSeq.all (fun ceiling => decide (row.seq ≤ ceiling)) &&
      afterSeq.all (fun floor => decide (floor < row.seq)) && ofKinds kinds row

/-- The events of the log in ascending sequence. -/
def iterEvents (conn : StoreConnection) (table : EventTable) (throughSeq : Option Int)
    (kinds : Option (List String)) (afterSeq : Option Int) (applyRowQuarantine : Bool) :
    List StoredEvent :=
  (iterRows table throughSeq kinds afterSeq).map (conn.decodeEvent · applyRowQuarantine)

omit [Builtins] in
/-- The rows that `read_since` selects: the limit counts them before they are decoded. -/
def sinceRows (table : EventTable) (afterSeq : Int) (kinds : Option (List String))
    (limit : Option Int) : List EventRow :=
  let rows := table.rows.filter fun row => decide (afterSeq < row.seq) && ofKinds kinds row
  match limit with
  | none => rows
  | some limit => rows.take limit.toNat

/-- The events whose sequence is greater than a cursor, in order. -/
def readSince (conn : StoreConnection) (table : EventTable) (afterSeq : Int)
    (kinds : Option (List String)) (limit : Option Int) : List StoredEvent :=
  (sinceRows table afterSeq kinds limit).map (conn.decodeEvent · true)

end StoreConnection

/-! ## Replay of a store -/

/-- What a replay rebuilds. -/
structure StoreReplay (R : Type) where
  context : ReplayContext
  relayApprovals : R
  corruptRows : List CorruptEventRow := []

namespace StoreReplay

variable {R : Type}

/-- Restore one event; `restoreAudit` restores a relay approval. -/
def apply (restoreAudit : R → Members → Except String R) (r : StoreReplay R)
    (event : StoredEvent) : Except String (StoreReplay R) :=
  if event.kind = corruptEventKind then do
    let marker ← CorruptEventRow.fromPayload event.seq event.payload
    return { r with corruptRows := r.corruptRows ++ [marker] }
  else if event.kind = "operator_relay" then do
    let relayApprovals ← restoreAudit r.relayApprovals event.payload
    return { r with relayApprovals }
  else do
    let context ← r.context.applyEvent event
    return { r with context }

/-- The registry is rebuilt and expired at `now`. -/
def finish (r : StoreReplay R) (now : Float) : StoreReplay R :=
  { r with context := { r.context with
      state := (r.context.rebuilt.expireClaims now).expireResources now } }

/-- What was rebuilt, without the markers that make a gap observable. -/
def projections (r : StoreReplay R) : ReplayContext × R := (r.context, r.relayApprovals)

end StoreReplay

/-- Rebuild coordination state from the rows of a store. -/
def replayStore {R : Type} (restoreAudit : R → Members → Except String R) (config : ReplayConfig)
    (relayApprovals : R) (conn : StoreConnection) (table : EventTable) (upToSeq : Option Int)
    (eventKinds : Option (List String)) (now : Float) : Except String (StoreReplay R) := do
  let init : StoreReplay R :=
    { context := { state := config.state, blackboard := config.blackboard }, relayApprovals }
  let r ← (conn.iterEvents table upToSeq eventKinds none true).foldlM
    (StoreReplay.apply restoreAudit) init
  return r.finish now

/-! ## What the quarantine holds -/

theorem quarantineRow_some {key : RowMacKey} {q q' : Dict Int CorruptEventRow} {row : EventRow}
    (h : quarantineRow key q row = some q') :
    (key.verify row = some true ∧ q' = q) ∨
      (key.verify row ≠ some true ∧ q' = q.set row.seq (unauthenticatedRow row)) := by
  unfold quarantineRow at h
  obtain ⟨authentic, hverify, hq⟩ := Option.map_eq_some_iff.mp h
  cases authentic with
  | true => exact .inl ⟨hverify, hq.symm⟩
  | false =>
    refine .inr ⟨?_, hq.symm⟩
    rw [hverify]
    simp

theorem quarantineRow_fold {key : RowMacKey} {rows : List EventRow}
    (hordered : rows.Pairwise fun a b => a.seq < b.seq) {q q' : Dict Int CorruptEventRow}
    (h : rows.foldlM (quarantineRow key) q = some q') :
    (∀ row ∈ rows, key.verify row = some true → q'.get? row.seq = q.get? row.seq) ∧
      (∀ row ∈ rows, key.verify row ≠ some true →
        q'.get? row.seq = some (unauthenticatedRow row)) ∧
      ∀ seq, (∀ row ∈ rows, row.seq ≠ seq) → q'.get? seq = q.get? seq := by
  induction rows generalizing q with
  | nil =>
    cases h
    exact ⟨by simp, by simp, fun _ _ => rfl⟩
  | cons row rest ih =>
    rw [List.foldlM_cons] at h
    obtain ⟨middle, hmiddle, hrest⟩ := Option.bind_eq_some_iff.mp h
    obtain ⟨hlater, htail⟩ := List.pairwise_cons.mp hordered
    obtain ⟨hauthentic, hmarked, hother⟩ := ih htail hrest
    -- the row's own entry is not touched again, and it touches no later one
    have hself : q'.get? row.seq = middle.get? row.seq :=
      hother _ fun r hr => (hlater r hr).ne'
    have hkeeps : ∀ seq, row.seq ≠ seq → middle.get? seq = q.get? seq := by
      intro seq hne
      rcases quarantineRow_some hmiddle with ⟨-, rfl⟩ | ⟨-, rfl⟩
      · rfl
      · exact Dict.get?_set_ne _ _ hne
    refine ⟨?_, ?_, ?_⟩
    · intro r hr hverify
      rcases List.mem_cons.mp hr with rfl | hr
      · rw [hself]
        rcases quarantineRow_some hmiddle with ⟨-, rfl⟩ | ⟨hne, -⟩
        · rfl
        · exact absurd hverify hne
      · rw [hauthentic r hr hverify]
        exact hkeeps _ (hlater r hr).ne
    · intro r hr hverify
      rcases List.mem_cons.mp hr with rfl | hr
      · rw [hself]
        rcases quarantineRow_some hmiddle with ⟨hyes, -⟩ | ⟨-, rfl⟩
        · exact absurd hyes hverify
        · exact Dict.get?_set_self _ _ _
      · exact hmarked r hr hverify
    · intro seq hseq
      rw [hother seq fun r hr => hseq r (List.mem_cons_of_mem _ hr)]
      exact hkeeps seq (hseq row List.mem_cons_self)

/-- The quarantine of a table is its rows above the key's start that do not carry their code. -/
structure StoreConnection.Quarantines (conn : StoreConnection) (key : RowMacKey)
    (table : EventTable) : Prop where
  enabled : conn.rowMac = some key
  authentic : ∀ row ∈ table.rows, row.seq ≤ key.sinceSeq ∨ key.verify row = some true →
    conn.rowQuarantine.get? row.seq = none
  marked : ∀ row ∈ table.rows, key.sinceSeq < row.seq → key.verify row ≠ some true →
    conn.rowQuarantine.get? row.seq = some (unauthenticatedRow row)
  present : ∀ seq marker, conn.rowQuarantine.get? seq = some marker →
    ∃ row ∈ table.rows, row.seq = seq ∧ key.sinceSeq < row.seq ∧ key.verify row ≠ some true

theorem enableRowMac_quarantines {key : RowMacKey} {table : EventTable} {conn : StoreConnection}
    (h : enableRowMac key table = some conn) : conn.Quarantines key table := by
  unfold enableRowMac at h
  obtain ⟨q, hfold, rfl⟩ := Option.map_eq_some_iff.mp h
  obtain ⟨hauthentic, hmarked, hother⟩ :=
    quarantineRow_fold (table.ordered.sublist List.filter_sublist) hfold
  have hchecked : ∀ row, row ∈ table.rows.filter (fun row => key.sinceSeq < row.seq) ↔
      row ∈ table.rows ∧ key.sinceSeq < row.seq := by
    intro row
    rw [List.mem_filter, decide_eq_true_eq]
  refine ⟨rfl, ?_, ?_, ?_⟩
  · intro row hrow hpass
    by_cases hseq : key.sinceSeq < row.seq
    · rcases hpass with hlegacy | hverify
      · omega
      · exact hauthentic row ((hchecked row).mpr ⟨hrow, hseq⟩) hverify
    · refine hother row.seq ?_
      intro r hr heq
      have habove := ((hchecked r).mp hr).2
      omega
  · intro row hrow hseq hverify
    exact hmarked row ((hchecked row).mpr ⟨hrow, hseq⟩) hverify
  · intro seq marker hget
    by_contra hnone
    have habsent : q.get? seq = none := by
      by_cases hrow : ∃ row ∈ table.rows.filter (fun row => key.sinceSeq < row.seq), row.seq = seq
      · obtain ⟨row, hrow, rfl⟩ := hrow
        obtain ⟨hmem, hseq⟩ := (hchecked row).mp hrow
        by_cases hverify : key.verify row = some true
        · exact hauthentic row hrow hverify
        · exact absurd ⟨row, hmem, rfl, hseq, hverify⟩ hnone
      · exact hother seq fun row hmem heq => hrow ⟨row, hmem, heq⟩
    rw [habsent] at hget
    cases hget

/-- A table whose rows above the key's start all carry their code is enabled with nothing
quarantined. -/
theorem enableRowMac_clean {key : RowMacKey} {table : EventTable}
    (h : ∀ row ∈ table.rows, key.sinceSeq < row.seq → key.verify row = some true) :
    enableRowMac key table = some { rowMac := some key, rowQuarantine := Dict.empty } := by
  have fold : ∀ {rows : List EventRow}, (∀ row ∈ rows, key.verify row = some true) →
      ∀ q, rows.foldlM (quarantineRow key) q = some q := by
    intro rows hrows q
    induction rows with
    | nil => rfl
    | cons row rest ih =>
      have hrow : quarantineRow key q row = some q := by
        unfold quarantineRow
        rw [hrows row List.mem_cons_self]
        rfl
      rw [List.foldlM_cons, hrow]
      exact ih fun r hr => hrows r (List.mem_cons_of_mem _ hr)
  unfold enableRowMac
  rw [fold]
  · rfl
  · intro row hrow
    obtain ⟨hmem, hseq⟩ := List.mem_filter.mp hrow
    exact h row hmem (of_decide_eq_true hseq)

namespace StoreConnection

variable {conn : StoreConnection} {key : RowMacKey} {table : EventTable}

theorem Quarantines.decode_authentic (h : conn.Quarantines key table) {row : EventRow}
    (hrow : row ∈ table.rows) (hpass : row.seq ≤ key.sinceSeq ∨ key.verify row = some true) :
    conn.decodeEvent row true = (decodeEventRow row).event := by
  unfold decodeEvent
  rw [if_pos rfl, h.authentic row hrow hpass]

theorem Quarantines.decode_marked (h : conn.Quarantines key table) {row : EventRow}
    (hrow : row ∈ table.rows) (hseq : key.sinceSeq < row.seq) (hverify : key.verify row ≠ some true) :
    conn.decodeEvent row true = markerEvent (unauthenticatedRow row) := by
  unfold decodeEvent
  rw [if_pos rfl, h.marked row hrow hseq hverify]

section

omit [Builtins]

theorem iterRows_subset {throughSeq afterSeq : Option Int} {kinds : Option (List String)}
    {row : EventRow} (h : row ∈ iterRows table throughSeq kinds afterSeq) : row ∈ table.rows :=
  (List.mem_filter.mp h).1

theorem sinceRows_subset {afterSeq : Int} {kinds : Option (List String)} {limit : Option Int}
    {row : EventRow} (h : row ∈ sinceRows table afterSeq kinds limit) : row ∈ table.rows := by
  unfold sinceRows at h
  dsimp only at h
  split at h
  · exact (List.mem_filter.mp h).1
  · exact (List.mem_filter.mp (List.mem_of_mem_take h)).1

theorem iterRows_restrict (p : EventRow → Bool) (throughSeq : Option Int)
    (kinds : Option (List String)) (afterSeq : Option Int) :
    iterRows (table.restrict p) throughSeq kinds afterSeq =
      (iterRows table throughSeq kinds afterSeq).filter p := by
  unfold iterRows EventTable.restrict
  rw [List.filter_filter, List.filter_filter]
  exact List.filter_congr fun row _ => Bool.and_comm _ _

end

end StoreConnection

/-! ## Replay without the quarantined rows -/

namespace StoreReplay

variable {R : Type} (restoreAudit : R → Members → Except String R)

/-- A marker is noted and changes nothing else. -/
theorem apply_marker {marker : CorruptEventRow} (h : marker.Shaped) (r : StoreReplay R) :
    r.apply restoreAudit (StoreConnection.markerEvent marker) =
      .ok { r with corruptRows := r.corruptRows ++ [marker] } := by
  unfold apply
  rw [if_pos (show (StoreConnection.markerEvent marker).kind = corruptEventKind from rfl)]
  show (CorruptEventRow.fromPayload marker.seq marker.asPayload >>= _) = _
  rw [CorruptEventRow.fromPayload_asPayload h]
  rfl

/-- What an event does to the projections does not depend on the markers noted before it. -/
theorem apply_congr {r r' : StoreReplay R} (h : r.projections = r'.projections)
    (event : StoredEvent) :
    (r.apply restoreAudit event).map projections =
      (r'.apply restoreAudit event).map projections := by
  obtain ⟨context, relayApprovals, corruptRows⟩ := r
  obtain ⟨context', relayApprovals', corruptRows'⟩ := r'
  obtain ⟨rfl, rfl⟩ := Prod.mk.inj h
  unfold apply
  split
  · cases CorruptEventRow.fromPayload event.seq event.payload <;> rfl
  split
  · dsimp only
    cases restoreAudit relayApprovals event.payload <;> rfl
  · dsimp only
    cases context.applyEvent event <;> rfl

/-- Two folds of the same rows meet when one of them notes a marker where the other has no row. -/
theorem fold_without (d d' : EventRow → StoredEvent) (p : EventRow → Bool) {rows : List EventRow}
    (hsame : ∀ row ∈ rows, p row = true → d row = d' row)
    (hmarked : ∀ row ∈ rows, p row = false → ∃ marker : CorruptEventRow, marker.Shaped ∧
      d row = StoreConnection.markerEvent marker)
    {r r' : StoreReplay R} (h : r.projections = r'.projections) :
    ((rows.map d).foldlM (apply restoreAudit) r).map projections =
      (((rows.filter p).map d').foldlM (apply restoreAudit) r').map projections := by
  induction rows generalizing r r' with
  | nil => exact congrArg Except.ok h
  | cons row rest ih =>
    have hsame' := fun row' hrow => hsame row' (List.mem_cons_of_mem row hrow)
    have hmarked' := fun row' hrow => hmarked row' (List.mem_cons_of_mem row hrow)
    rw [List.map_cons, List.foldlM_cons]
    cases hp : p row with
    | false =>
      obtain ⟨marker, hshaped, hd⟩ := hmarked row List.mem_cons_self hp
      rw [List.filter_cons_of_neg (by simp [hp]), hd, apply_marker restoreAudit hshaped]
      exact ih hsame' hmarked' h
    | true =>
      rw [List.filter_cons_of_pos hp, List.map_cons, List.foldlM_cons,
        hsame row List.mem_cons_self hp]
      have hstep := apply_congr restoreAudit h (d' row)
      cases hr : r.apply restoreAudit (d' row) with
      | error e =>
        rw [hr] at hstep
        cases hr' : r'.apply restoreAudit (d' row) with
        | error e' =>
          rw [hr'] at hstep
          cases hstep
          rfl
        | ok next' => rw [hr'] at hstep; cases hstep
      | ok next =>
        rw [hr] at hstep
        cases hr' : r'.apply restoreAudit (d' row) with
        | error e' => rw [hr'] at hstep; cases hstep
        | ok next' =>
          rw [hr'] at hstep
          exact ih hsame' hmarked' (Except.ok.inj hstep)

omit [Builtins] in
/-- Finishing keeps what two results have in common. -/
theorem finish_congr {a b : Except String (StoreReplay R)}
    (h : a.map projections = b.map projections) (now : Float) :
    (a.map (finish · now)).map projections = (b.map (finish · now)).map projections := by
  cases a with
  | error e =>
    cases b with
    | error e' =>
      cases h
      rfl
    | ok r' => cases h
  | ok r =>
    cases b with
    | error e' => cases h
    | ok r' =>
      obtain ⟨context, relayApprovals, corruptRows⟩ := r
      obtain ⟨context', relayApprovals', corruptRows'⟩ := r'
      obtain ⟨rfl, rfl⟩ := Prod.mk.inj (Except.ok.inj h)
      rfl

end StoreReplay

/-- Replay of a table is, but for the markers noted, replay of the table without the rows that are
quarantined. -/
theorem replayStore_without {R : Type} (restoreAudit : R → Members → Except String R)
    (config : ReplayConfig) (relayApprovals : R) {conn clean : StoreConnection} {key : RowMacKey}
    {table : EventTable} (hsha : Sha256Spelled) (h : conn.Quarantines key table)
    (p : EventRow → Bool)
    (hp : ∀ row ∈ table.rows,
      p row = true ↔ row.seq ≤ key.sinceSeq ∨ key.verify row = some true)
    (hclean : clean.Quarantines key (table.restrict p))
    (upToSeq : Option Int) (eventKinds : Option (List String)) (now : Float) :
    (replayStore restoreAudit config relayApprovals conn table upToSeq eventKinds now).map
        StoreReplay.projections =
      (replayStore restoreAudit config relayApprovals clean (table.restrict p) upToSeq eventKinds
        now).map StoreReplay.projections := by
  have hsame : ∀ row ∈ StoreConnection.iterRows table upToSeq eventKinds none, p row = true →
      conn.decodeEvent row true = clean.decodeEvent row true := by
    intro row hrow hpass
    have hmem := StoreConnection.iterRows_subset hrow
    have hauthentic := (hp row hmem).mp hpass
    have hkept : row ∈ (table.restrict p).rows := List.mem_filter.mpr ⟨hmem, hpass⟩
    exact (h.decode_authentic hmem hauthentic).trans (hclean.decode_authentic hkept hauthentic).symm
  have hmarked : ∀ row ∈ StoreConnection.iterRows table upToSeq eventKinds none, p row = false →
      ∃ marker : CorruptEventRow, marker.Shaped ∧
        conn.decodeEvent row true = StoreConnection.markerEvent marker := by
    intro row hrow hfail
    have hmem := StoreConnection.iterRows_subset hrow
    have hnot : ¬ (row.seq ≤ key.sinceSeq ∨ key.verify row = some true) := by
      intro hpass
      rw [(hp row hmem).mpr hpass] at hfail
      cases hfail
    rw [not_or, Int.not_le] at hnot
    exact ⟨_, shaped_unauthenticatedRow hsha row, h.decode_marked hmem hnot.1 hnot.2⟩
  have hfold := StoreReplay.fold_without restoreAudit (conn.decodeEvent · true)
    (clean.decodeEvent · true) p hsame hmarked
    (r := { context := { state := config.state, blackboard := config.blackboard }, relayApprovals })
    rfl
  rw [← StoreConnection.iterRows_restrict] at hfold
  exact StoreReplay.finish_congr hfold now

end Authentication

end SynapseChannel
