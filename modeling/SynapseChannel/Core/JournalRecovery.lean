import SynapseChannel.Core.Compaction

/-!
# Core — JournalRecovery

The gate that refuses mutations while replay has met a quarantined row, and
the operator's way out of it: list the corrupt rows, compact them away,
and start the hub again under the same row key. The way out covers the
rows that do not decode.
-/

namespace SynapseChannel

open Py

/-! ## The gate -/

/-- The private refusal of one frame. -/
structure RecoveryDenial where
  target : String
  text : String
  corruptRows : Nat
  firstCorruptSeq : Int

def recoveryRequired : String :=
  "Mutation refused: durable journal recovery is required. " ++
    "Inspect degraded health and archive/remove settled corrupt rows " ++
    "with the explicit `synapse compact --drop-corrupt` workflow."

/-- Whether a frame is refused; `none` lets routing continue. -/
def refuseMutation (corruptRows : List CorruptEventRow) (gated : List String)
    (sender msgType : String) : Option RecoveryDenial :=
  match corruptRows with
  | [] => none
  | first :: _ =>
    if gated.contains msgType then
      some ⟨sender, recoveryRequired, corruptRows.length, first.seq⟩
    else none

/-- `COALESCE(MAX(seq), 0)`. -/
def EventTable.maxSeq (table : EventTable) : Int := ((table.rows.map EventRow.seq).max?).getD 0

theorem EventTable.le_maxSeq {table : EventTable} {row : EventRow} (h : row ∈ table.rows) :
    row.seq ≤ table.maxSeq := by
  have hmem : row.seq ∈ table.rows.map EventRow.seq := List.mem_map_of_mem h
  unfold maxSeq
  cases hmax : (table.rows.map EventRow.seq).max? with
  | none =>
    rw [List.max?_eq_none_iff.mp hmax] at hmem
    cases hmem
  | some top => exact (List.max?_eq_some_iff.mp hmax).2 _ hmem

variable [Builtins]

/-! ## What reads return as markers -/

/-- A row above the key's start that does not carry its code. -/
def EventRow.Unauthenticated (row : EventRow) (key : RowMacKey) : Prop :=
  key.sinceSeq < row.seq ∧ key.verify row ≠ some true

theorem StoreConnection.Quarantines.read_marker_iff {conn : StoreConnection} {key : RowMacKey}
    {table : EventTable} (h : conn.Quarantines key table) (hopen : conn.Opened) {row : EventRow}
    (hrow : row ∈ table.rows) :
    (conn.decodeEvent row true).kind = corruptEventKind ↔
      malformed row = true ∨ row.Unauthenticated key := by
  constructor
  · intro hkind
    by_cases hpass : row.seq ≤ key.sinceSeq ∨ key.verify row = some true
    · refine .inl ?_
      rw [h.decode_authentic hrow hpass] at hkind
      by_contra hgood
      obtain ⟨ts, kind, payload, -, hne, hdecode⟩ :=
        decodeEventRow_wellFormed (Bool.eq_false_iff.mpr hgood)
      rw [hdecode] at hkind
      exact hne hkind
    · rw [not_or, Int.not_le] at hpass
      exact .inr hpass
  · rintro (hbad | ⟨hsince, hverify⟩)
    · exact hopen.read_malformed hbad
    · rw [h.decode_marked hrow hsince hverify]
      rfl

/-- The scan for corrupt rows lists the rows that are read as markers exactly when every
unauthenticated row is malformed as well. -/
theorem corruptRows_listed_iff {conn : StoreConnection} {key : RowMacKey} {table : EventTable}
    (h : enableRowMac key table = some conn) :
    (corruptRows table none).map (·.seq) =
        ((conn.iterEvents table none none none true).filter
          fun event => event.kind = corruptEventKind).map (·.seq) ↔
      ∀ row ∈ table.rows, row.Unauthenticated key → malformed row = true := by
  have hquarantines := enableRowMac_quarantines h
  have hopen : conn.Opened := .keyed h
  let marked (row : EventRow) : Bool := decide ((conn.decodeEvent row true).kind = corruptEventKind)
  have hread : ((conn.iterEvents table none none none true).filter
      fun event => event.kind = corruptEventKind).map (·.seq) =
      (table.rows.filter marked).map (·.seq) := by
    have hall : StoreConnection.iterRows table none none none = table.rows :=
      List.filter_eq_self.mpr fun _ _ => rfl
    unfold StoreConnection.iterEvents
    rw [hall, List.filter_map, List.map_map]
    exact List.map_congr_left fun row _ => hopen.read_seq row
  have hscan : (corruptRows table none).map (·.seq) = (table.rows.filter malformed).map (·.seq) := by
    rw [corruptRows_seqs]
    simp
  rw [hread, hscan]
  constructor
  · intro heq row hrow hunauth
    have hmarked : marked row = true :=
      decide_eq_true ((hquarantines.read_marker_iff hopen hrow).mpr (.inr hunauth))
    have hmem := ((Dooms.filter table marked).mem_iff hrow).mpr hmarked
    rw [← heq] at hmem
    exact ((Dooms.filter table malformed).mem_iff hrow).mp hmem
  · intro hall
    refine congrArg _ (List.filter_congr fun row hrow => ?_)
    rw [Bool.eq_iff_iff, decide_eq_true_eq, hquarantines.read_marker_iff hopen hrow]
    exact ⟨.inl, fun h => h.elim id (hall row hrow)⟩

/-! ## A replay without markers -/

namespace StoreReplay

variable {R : Type} {restoreAudit : R → Members → Except String R}

theorem apply_corruptRows {event : StoredEvent} (hkind : event.kind ≠ corruptEventKind)
    {r next : StoreReplay R} (h : r.apply restoreAudit event = .ok next) :
    next.corruptRows = r.corruptRows := by
  unfold apply at h
  rw [if_neg hkind] at h
  split at h
  · obtain ⟨audit, -, heq⟩ := Outcome.bind_ok h
    cases heq
    rfl
  · obtain ⟨context, -, heq⟩ := Outcome.bind_ok h
    cases heq
    rfl

theorem fold_corruptRows {events : List StoredEvent}
    (hkinds : ∀ event ∈ events, event.kind ≠ corruptEventKind) {r last : StoreReplay R}
    (h : events.foldlM (apply restoreAudit) r = .ok last) : last.corruptRows = r.corruptRows := by
  induction events generalizing r with
  | nil =>
    cases h
    rfl
  | cons event rest ih =>
    rw [List.foldlM_cons] at h
    obtain ⟨next, hnext, hrest⟩ := Outcome.bind_ok h
    rw [ih (fun e he => hkinds e (List.mem_cons_of_mem _ he)) hrest]
    exact apply_corruptRows (hkinds event List.mem_cons_self) hnext

end StoreReplay

theorem replayStore_corruptRows {R : Type} {restoreAudit : R → Members → Except String R}
    {config : ReplayConfig} {relayApprovals : R} {conn : StoreConnection} {table : EventTable}
    {now : Float} {r : StoreReplay R}
    (hkinds : ∀ row ∈ table.rows, (conn.decodeEvent row true).kind ≠ corruptEventKind)
    (h : replayStore restoreAudit config relayApprovals conn table none none now = .ok r) :
    r.corruptRows = [] := by
  unfold replayStore at h
  obtain ⟨last, hlast, heq⟩ := Outcome.bind_ok h
  cases heq
  refine StoreReplay.fold_corruptRows (fun event hevent => ?_) hlast
  obtain ⟨row, hrow, rfl⟩ := List.mem_map.mp hevent
  exact hkinds row (StoreConnection.iterRows_subset hrow)

/-! ## The way out -/

/-- What recovery promises: the corrupt rows that are listed are those read as markers, and a hub
started on the compacted log under the same key quarantines no row and refuses no frame. -/
structure Recovers {R : Type} (restoreAudit : R → Members → Except String R) (config : ReplayConfig)
    (relayApprovals : R) (key : RowMacKey) (conn : StoreConnection) (before after : EventTable) :
    Prop where
  listed : (corruptRows before none).map (·.seq) =
    ((conn.iterEvents before none none none true).filter
      fun event => event.kind = corruptEventKind).map (·.seq)
  restarted : ∃ hub, enableRowMac key after = some hub ∧
    (∀ seq, hub.rowQuarantine.get? seq = none) ∧
    ∀ now r, replayStore restoreAudit config relayApprovals hub after none none now = .ok r →
      ∀ gated sender msgType, refuseMutation r.corruptRows gated sender msgType = none

theorem compact_malformed {worker : StoreConnection} (hworker : worker.Opened)
    {tables swept : EventTables} {policy : RetentionPolicy} (hdrop : policy.dropCorruptRows = true)
    {now : Float} {result : CompactionResult}
    (houtside : ∀ row ∈ tables.events.rows, malformed row = true → tables.deletable row = true)
    (h : compact worker tables policy tables.events.maxSeq now false = some (swept, result)) :
    ∀ row ∈ swept.events.rows, row ∈ tables.events.rows ∧ malformed row = false := by
  obtain ⟨-, rfl, -⟩ := (compact_some hworker).mp h
  intro row hrow
  obtain ⟨hmem, hkept⟩ := List.mem_filter.mp hrow
  refine ⟨hmem, Bool.eq_false_iff.mpr fun hbad => ?_⟩
  have hselected : policy.selects worker tables.events tables.events.maxSeq now row = true := by
    refine selects_iff.mpr (.inr (.inr ?_))
    unfold RetentionPolicy.drops
    rw [hdrop, hbad, decide_eq_true (EventTable.le_maxSeq hmem)]
    rfl
  rw [hselected, houtside row hmem hbad] at hkept
  cases hkept

/-- Recovery completes exactly for the logs whose unauthenticated rows are malformed as well. The
malformed rows are none that the deletion keeps for protected-write history, the outbox or a keyed
operation. -/
theorem recovery_completes_iff {R : Type} (restoreAudit : R → Members → Except String R)
    (config : ReplayConfig) (relayApprovals : R) {key : RowMacKey} {conn worker : StoreConnection}
    {tables swept : EventTables} {policy : RetentionPolicy} {now : Float} {result : CompactionResult}
    (hopen : enableRowMac key tables.events = some conn) (hworker : worker.Opened)
    (hdrop : policy.dropCorruptRows = true)
    (houtside : ∀ row ∈ tables.events.rows, malformed row = true → tables.deletable row = true)
    (h : compact worker tables policy tables.events.maxSeq now false = some (swept, result)) :
    Recovers restoreAudit config relayApprovals key conn tables.events swept.events ↔
      ∀ row ∈ tables.events.rows, row.Unauthenticated key → malformed row = true := by
  refine ⟨fun hrecovers => (corruptRows_listed_iff hopen).mp hrecovers.listed, fun hall => ?_⟩
  have hswept := compact_malformed hworker hdrop houtside h
  have hverify : ∀ row ∈ swept.events.rows, key.sinceSeq < row.seq → key.verify row = some true := by
    intro row hrow hsince
    obtain ⟨hmem, hgood⟩ := hswept row hrow
    by_contra hfails
    rw [hall row hmem ⟨hsince, hfails⟩] at hgood
    cases hgood
  have hclean := enableRowMac_clean hverify
  refine ⟨(corruptRows_listed_iff hopen).mpr hall, _, hclean, fun _ => rfl, ?_⟩
  intro hubNow r hreplay gated sender msgType
  have hkinds : ∀ row ∈ swept.events.rows,
      (StoreConnection.decodeEvent { rowMac := some key } row true).kind ≠ corruptEventKind := by
    intro row hrow hkind
    rcases ((enableRowMac_quarantines hclean).read_marker_iff (.keyed hclean) hrow).mp hkind with
      hbad | ⟨hsince, hfails⟩
    · rw [(hswept row hrow).2] at hbad
      cases hbad
    · exact hfails (hverify row hrow hsince)
  rw [replayStore_corruptRows hkinds hreplay]
  rfl

/-! ## A row that only its code betrays -/

section Unsigned

omit [Builtins]

/-- A log of one row that carries no code. -/
def unsignedTables (payload : String) : EventTables where
  events := { rows := [⟨1, .real 1, .text "chat", .text payload, .null⟩], lastSeq := 1 }

def unsignedKey : RowMacKey := ⟨[1], 0⟩

def unsignedConfig : ReplayConfig := .init (.int 60) (.int 8) (.int 8) (.int 8) 8 8 8

theorem recovery_completes_iff_malformed :
    letI := Builtins.checksum
    ∃ conn swept result, enableRowMac unsignedKey (unsignedTables "x").events = some conn ∧
      compact {} (unsignedTables "x") { dropCorruptRows := true } 1 0 false = some (swept, result) ∧
      Recovers (fun (_ : Unit) _ => .ok ()) unsignedConfig () unsignedKey conn (unsignedTables "x").events
        swept.events := by
  let _ : Builtins := Builtins.checksum
  obtain ⟨⟨swept, result⟩, hcompact⟩ : ∃ outcome, compact {} (unsignedTables "x")
      { dropCorruptRows := true } 1 0 false = some outcome := ⟨_, rfl⟩
  obtain ⟨conn, hopen⟩ : ∃ conn, enableRowMac unsignedKey (unsignedTables "x").events = some conn :=
    ⟨_, rfl⟩
  refine ⟨conn, swept, result, hopen, hcompact, ?_⟩
  refine (recovery_completes_iff _ _ _ hopen .plain rfl ?_ hcompact).mpr ?_
  · decide +kernel
  · intro row hrow _
    rw [List.mem_singleton.mp hrow]
    decide +kernel

/-- The row is not listed, compaction leaves it, and the hub that is started again quarantines it. -/
theorem unsigned_row_stays :
    letI := Builtins.checksum
    ∃ conn swept result, enableRowMac unsignedKey (unsignedTables "\x7b\x7d").events = some conn ∧
      compact {} (unsignedTables "\x7b\x7d") { dropCorruptRows := true } 1 0 false =
        some (swept, result) ∧
      ¬ Recovers (fun (_ : Unit) _ => .ok ()) unsignedConfig () unsignedKey conn
        (unsignedTables "\x7b\x7d").events swept.events ∧
      ∃ hub marker, enableRowMac unsignedKey swept.events = some hub ∧
        hub.rowQuarantine.get? 1 = some marker := by
  let _ : Builtins := Builtins.checksum
  refine ⟨_, _, _, rfl, rfl, ?_, _, _, rfl, rfl⟩
  intro hrecovers
  exact absurd hrecovers.listed (by decide +kernel)

end Unsigned

end SynapseChannel
