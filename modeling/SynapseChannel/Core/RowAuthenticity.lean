import SynapseChannel.Core.EventAuthentication

/-!
# Core — RowAuthenticity

A hub with a row key and its event table: what it writes, what it deletes,
its restarts, and changes made to the table by others. What is read as an
event above the key's start is what the hub wrote there.
-/

namespace SynapseChannel

open Py
open Framing (Bytes)

/-- A row as the hub inserted it. -/
structure RowWrite where
  seq : Int
  ts : Float
  kind : String
  payload : String

def RowWrite.material (w : RowWrite) : Option Bytes := rowMaterial w.seq w.ts w.kind w.payload

structure AuthenticatedHub where
  table : EventTable
  /-- The open store, while the hub runs. -/
  connection : Option StoreConnection := none
  /-- The rows the hub has inserted, kept and not kept. -/
  writes : List RowWrite := []

inductive HubStep where
  | insert (ts : Float) (kind payload : String)
  /-- A row whose transaction does not commit. -/
  | rollback (ts : Float) (kind payload : String)
  /-- Retention, by the hub or by an operator. -/
  | delete (seqs : List Int)
  | start
  | stop
  /-- Anything that is done to the table by others. -/
  | tamper (table : EventTable)

variable [Builtins]

namespace AuthenticatedHub

/-- The insertion of a row: the table with it, and what was written. -/
def inserted (h : AuthenticatedHub) (ts : Float) (kind payload : String) :
    Option (EventTable × RowWrite) :=
  match h.connection with
  | none => none
  | some conn =>
    (h.table.insertEvent conn.rowMac ts kind payload).map fun r =>
      (r.1, ⟨r.2, ts, kind, payload⟩)

def step (key : RowMacKey) (h : AuthenticatedHub) : HubStep → AuthenticatedHub
  | .insert ts kind payload =>
    match h.inserted ts kind payload with
    | some (table, write) => { h with table, writes := h.writes ++ [write] }
    | none => h
  | .rollback ts kind payload =>
    match h.inserted ts kind payload with
    | some (_, write) => { h with writes := h.writes ++ [write] }
    | none => h
  | .delete seqs => { h with table := h.table.delete seqs }
  | .start => { h with connection := enableRowMac key h.table }
  | .stop => { h with connection := none }
  | .tamper table => { h with table }

/-- A hub over the log that its key was created for. -/
def start (table : EventTable) : AuthenticatedHub := { table }

end AuthenticatedHub

/-- The rows that were there when the key was created. -/
structure EventTable.Legacy (table : EventTable) (key : RowMacKey) : Prop where
  rows : ∀ row ∈ table.rows, row.seq ≤ key.sinceSeq
  counter : key.sinceSeq ≤ table.lastSeq

/-- The stored fields are those of a row that the hub inserted at this sequence. -/
def EventRow.WrittenBy (row : EventRow) (w : RowWrite) : Prop :=
  row.seq = w.seq ∧ row.ts.number? = some w.ts ∧ row.kind = .text w.kind ∧
    row.payload = .text w.payload

/-- A row that the hub inserted, with the code it wrote beside it. -/
def EventRow.Genuine (row : EventRow) (key : RowMacKey) (writes : List RowWrite) : Prop :=
  ∃ w ∈ writes, row.WrittenBy w ∧ row.Carries key w.ts w.kind w.payload

/-- No row carries a valid code over what the hub never took a code over. -/
def AuthenticatedHub.Unforged (h : AuthenticatedHub) (key : RowMacKey) : Prop :=
  ∀ row ∈ h.table.rows, ∀ ts kind payload material, row.Carries key ts kind payload →
    rowMaterial row.seq ts kind payload = some material →
      ∃ w ∈ h.writes, w.material = some material

theorem RowMacKey.mac_some {key : RowMacKey} {seq : Int} {ts : Float} {kind payload tag : String}
    (h : key.mac seq ts kind payload = some tag) :
    ∃ material, rowMaterial seq ts kind payload = some material := by
  unfold RowMacKey.mac at h
  obtain ⟨material, hmaterial, -⟩ := Option.map_eq_some_iff.mp h
  exact ⟨material, hmaterial⟩

/-- A row passes exactly when the hub wrote it. -/
theorem AuthenticatedHub.Unforged.verify_iff {h : AuthenticatedHub} {key : RowMacKey}
    (hunforged : h.Unforged key) {row : EventRow} (hrow : row ∈ h.table.rows) :
    key.verify row = some true ↔ row.Genuine key h.writes := by
  rw [RowMacKey.verify_iff]
  constructor
  · rintro ⟨ts, kind, payload, hcarries⟩
    obtain ⟨tag, -, htag⟩ := hcarries.code
    obtain ⟨material, hmaterial⟩ := RowMacKey.mac_some htag
    obtain ⟨w, hw, hwritten⟩ := hunforged row hrow ts kind payload material hcarries hmaterial
    obtain ⟨hseq, rfl, rfl, rfl⟩ := rowMaterial_inj hmaterial hwritten
    exact ⟨w, hw, ⟨hseq, hcarries.stamp, hcarries.named, hcarries.stored⟩, hcarries⟩
  · rintro ⟨w, -, -, hcarries⟩
    exact ⟨w.ts, w.kind, w.payload, hcarries⟩

/-! ## A hub alone with its log -/

/-- Nobody but the hub changes the log, and no row is stamped with the negative zero, which the
store does not keep. -/
def HubStep.OfHub : HubStep → Prop
  | .insert ts _ _ => (ts == 0) = true → ts = 0
  | .tamper _ => False
  | _ => True

namespace AuthenticatedHub

/-- Every row above the key's start carries its code, and the store was opened with the key. -/
structure Own (h : AuthenticatedHub) (key : RowMacKey) : Prop where
  rows : ∀ row ∈ h.table.rows, key.sinceSeq < row.seq → key.verify row = some true
  counter : key.sinceSeq ≤ h.table.lastSeq
  opened : ∀ conn, h.connection = some conn → conn.rowMac = some key

omit [Builtins] in
/-- A timestamp that is not the negative zero is kept as it is, or refused. -/
theorem ofReal_kept {ts : Float} (h : (ts == 0) = true → ts = 0) :
    SqlValue.ofReal ts = .null ∨ SqlValue.ofReal ts = .real ts := by
  unfold SqlValue.ofReal
  split
  · exact .inl rfl
  split
  · rename_i hzero
    exact .inr (by rw [h hzero])
  · exact .inr rfl

/-- An inserted row carries its code, unless the store keeps another timestamp. -/
theorem insertEvent_carries {table table' : EventTable} {key : RowMacKey} {ts : Float}
    {kind payload : String} {seq : Int} (hts : (ts == 0) = true → ts = 0)
    (h : table.insertEvent (some key) ts kind payload = some (table', seq)) :
    ∃ row : EventRow, row.Carries key ts kind payload ∧ row.seq = table.nextSeq ∧
      table'.rows = table.rows ++ [row] ∧ table'.lastSeq = table.nextSeq := by
  unfold EventTable.insertEvent at h
  rcases ofReal_kept hts with hnull | hreal
  · rw [hnull] at h
    cases h
  · rw [hreal] at h
    dsimp only at h
    split at h
    · obtain ⟨tag, htag, heq⟩ := Option.map_eq_some_iff.mp h
      cases heq
      exact ⟨⟨table.nextSeq, .real ts, .text kind, .text payload, .text tag⟩,
        ⟨rfl, rfl, rfl, tag, rfl, htag⟩, rfl, rfl, rfl⟩
    · cases h

theorem Own.step {h : AuthenticatedHub} {key : RowMacKey} (hown : h.Own key) {s : HubStep}
    (hs : s.OfHub) : (h.step key s).Own key := by
  cases s with
  | insert ts kind payload =>
    show AuthenticatedHub.Own (match h.inserted ts kind payload with
      | some (table, write) => { h with table, writes := h.writes ++ [write] }
      | none => h) key
    unfold inserted
    cases hconn : h.connection with
    | none => exact hown
    | some conn =>
      dsimp only
      rw [hown.opened conn hconn]
      cases hinsert : h.table.insertEvent (some key) ts kind payload with
      | none => exact hown
      | some result =>
        obtain ⟨table', seq⟩ := result
        obtain ⟨row, hcarries, hseq, hrows, hlast⟩ := insertEvent_carries hs hinsert
        have hnext : h.table.lastSeq < h.table.nextSeq := by
          unfold EventTable.nextSeq
          omega
        refine ⟨?_, ?_, fun conn' hconn' => ?_⟩
        · intro r hr habove
          have hmem : r ∈ h.table.rows ++ [row] := hrows ▸ hr
          rcases List.mem_append.mp hmem with hold | hnew
          · exact hown.rows r hold habove
          · rw [List.mem_singleton.mp hnew]
            exact RowMacKey.verify_iff.mpr ⟨ts, kind, payload, hcarries⟩
        · show key.sinceSeq ≤ table'.lastSeq
          have hcounter := hown.counter
          omega
        · exact hown.opened conn' (hconn.trans hconn')
  | rollback ts kind payload =>
    show AuthenticatedHub.Own (match h.inserted ts kind payload with
      | some (_, write) => { h with writes := h.writes ++ [write] }
      | none => h) key
    split
    · exact ⟨hown.rows, hown.counter, hown.opened⟩
    · exact hown
  | delete seqs =>
    refine ⟨?_, hown.counter, hown.opened⟩
    intro row hrow habove
    exact hown.rows row (List.mem_filter.mp hrow).1 habove
  | start =>
    refine ⟨hown.rows, hown.counter, ?_⟩
    intro conn hconn
    exact (enableRowMac_quarantines hconn).enabled
  | stop =>
    refine ⟨hown.rows, hown.counter, ?_⟩
    intro conn hconn
    cases hconn
  | tamper table => exact absurd hs id

omit [Builtins] in
theorem Legacy.of_start {table : EventTable} {key : RowMacKey} (h : table.Legacy key) :
    (∀ row ∈ (start table).table.rows, ¬ key.sinceSeq < row.seq) ∧
      key.sinceSeq ≤ (start table).table.lastSeq := by
  refine ⟨?_, h.counter⟩
  intro row hrow
  have := h.rows row hrow
  omega

/-- A log that only the hub has touched is enabled with nothing quarantined. -/
theorem run_own {table : EventTable} {key : RowMacKey} (hlegacy : table.Legacy key)
    {steps : List HubStep} (hsteps : ∀ s ∈ steps, s.OfHub) :
    (Trace.run (step key) (start table) steps).Own key := by
  have hstart : (start table).Own key := by
    obtain ⟨hrows, hcounter⟩ := Legacy.of_start hlegacy
    refine ⟨fun row hrow habove => absurd habove (hrows row hrow), hcounter, ?_⟩
    intro conn hconn
    cases hconn
  exact (Trace.every_invariant (step key) (I := fun h => Own h key) (P := fun _ s => s.OfHub)
    (Q := fun _ _ => True) (fun _ _ hown hs => hown.step hs) (fun _ _ _ _ => trivial) hstart
    (Trace.Every.of_forall (step key) hsteps)).1

end AuthenticatedHub

/-! ## Forged rows -/

open Classical in
/-- In every run in which rows are appended, deleted, forged, edited and copied, and the hub
restarts: once the key is enabled, what is read above its start is an event exactly where the row
is one that the hub wrote there, with its code, and that decodes; the rest of the rows there are
quarantined, and replay rebuilds what it rebuilds without them. -/
theorem forged_rows_quarantined (hsha : Sha256Spelled) (key : RowMacKey) (table : EventTable)
    (steps : List HubStep) :
    let h := Trace.run (AuthenticatedHub.step key) (AuthenticatedHub.start table) steps
    (∀ conn, enableRowMac key h.table = some conn → h.Unforged key →
      (∀ row ∈ h.table.rows, key.sinceSeq < row.seq →
        ((conn.decodeEvent row true).kind ≠ corruptEventKind ↔
          row.Genuine key h.writes ∧ (decodeEventRow row).corruption = none) ∧
        (row.Genuine key h.writes → conn.decodeEvent row true = (decodeEventRow row).event)) ∧
      conn.iterEvents h.table none none none true = h.table.rows.map (conn.decodeEvent · true) ∧
      (∀ throughSeq kinds afterSeq, ∀ event ∈ conn.iterEvents h.table throughSeq kinds afterSeq true,
        ∃ row ∈ h.table.rows, event = conn.decodeEvent row true) ∧
      (∀ afterSeq kinds limit, ∀ event ∈ conn.readSince h.table afterSeq kinds limit,
        ∃ row ∈ h.table.rows, event = conn.decodeEvent row true) ∧
      ((∃ seq marker, conn.rowQuarantine.get? seq = some marker) ↔
        ∃ row ∈ h.table.rows, key.sinceSeq < row.seq ∧ ¬ row.Genuine key h.writes) ∧
      ∃ clean, enableRowMac key (h.table.restrict fun row =>
          decide (row.seq ≤ key.sinceSeq ∨ row.Genuine key h.writes)) = some clean ∧
        ∀ {R : Type} (restoreAudit : R → Members → Except String R) (config : ReplayConfig)
          (relayApprovals : R) (upToSeq : Option Int) (eventKinds : Option (List String))
          (now : Float),
          (replayStore restoreAudit config relayApprovals conn h.table upToSeq eventKinds now).map
              StoreReplay.projections =
            (replayStore restoreAudit config relayApprovals clean
              (h.table.restrict fun row =>
                decide (row.seq ≤ key.sinceSeq ∨ row.Genuine key h.writes))
              upToSeq eventKinds now).map StoreReplay.projections) ∧
    (table.Legacy key → (∀ s ∈ steps, s.OfHub) →
      enableRowMac key h.table = some { rowMac := some key, rowQuarantine := Dict.empty }) := by
  intro h
  refine ⟨?_, ?_⟩
  · intro conn henabled hunforged
    have hquarantine := enableRowMac_quarantines henabled
    refine ⟨?_, ?_, ?_, ?_, ?_, ?_⟩
    · intro row hrow habove
      have hverify := hunforged.verify_iff hrow
      by_cases hgenuine : row.Genuine key h.writes
      · have hdecode := hquarantine.decode_authentic hrow (.inr (hverify.mpr hgenuine))
        refine ⟨?_, fun _ => hdecode⟩
        rw [hdecode]
        rcases decodeEventRow_cases hsha row with ⟨ts, kind, payload, -, hkind, -, heq⟩ |
          ⟨ts, marker, -, -, heq⟩
        · rw [heq]
          exact iff_of_true (decodeKind_ne hkind).2 ⟨hgenuine, rfl⟩
        · rw [heq]
          refine iff_of_false (fun hne => hne rfl) ?_
          rintro ⟨-, hnone⟩
          cases hnone
      · have hdecode := hquarantine.decode_marked hrow habove (hgenuine ∘ hverify.mp)
        rw [hdecode]
        exact ⟨iff_of_false (fun hne => hne rfl) (fun hgood => hgenuine hgood.1),
          fun hgood => absurd hgood hgenuine⟩
    · have hall : StoreConnection.iterRows h.table none none none = h.table.rows :=
        List.filter_eq_self.mpr fun _ _ => rfl
      exact congrArg (List.map (conn.decodeEvent · true)) hall
    · intro throughSeq kinds afterSeq event hevent
      obtain ⟨row, hrow, rfl⟩ := List.mem_map.mp hevent
      exact ⟨row, StoreConnection.iterRows_subset hrow, rfl⟩
    · intro afterSeq kinds limit event hevent
      obtain ⟨row, hrow, rfl⟩ := List.mem_map.mp hevent
      exact ⟨row, StoreConnection.sinceRows_subset hrow, rfl⟩
    · constructor
      · rintro ⟨seq, marker, hmarker⟩
        obtain ⟨row, hrow, -, habove, hfail⟩ := hquarantine.present seq marker hmarker
        exact ⟨row, hrow, habove, fun hgenuine => hfail ((hunforged.verify_iff hrow).mpr hgenuine)⟩
      · rintro ⟨row, hrow, habove, hforged⟩
        exact ⟨row.seq, _, hquarantine.marked row hrow habove
          (hforged ∘ (hunforged.verify_iff hrow).mp)⟩
    · have hkept : ∀ row ∈ (h.table.restrict fun row =>
          decide (row.seq ≤ key.sinceSeq ∨ row.Genuine key h.writes)).rows,
          key.sinceSeq < row.seq → key.verify row = some true := by
        intro row hrow habove
        obtain ⟨hmem, hpass⟩ := List.mem_filter.mp hrow
        rcases of_decide_eq_true hpass with hlegacy | hgenuine
        · omega
        · exact (hunforged.verify_iff hmem).mpr hgenuine
      have hclean := enableRowMac_clean hkept
      refine ⟨_, hclean, ?_⟩
      intro R restoreAudit config relayApprovals upToSeq eventKinds now
      refine replayStore_without restoreAudit config relayApprovals hsha hquarantine _ ?_
        (enableRowMac_quarantines hclean) upToSeq eventKinds now
      intro row hrow
      rw [decide_eq_true_eq, hunforged.verify_iff hrow]
  · intro hlegacy hsteps
    exact enableRowMac_clean (AuthenticatedHub.run_own hlegacy hsteps).rows

/-! ## A row without its code -/

section Stripped

/-- The hub's first row, with its code removed. -/
def strippedTable : EventTable where
  rows := [⟨1, .real 1, .text "chat", .text "\x7b\x7d", .null⟩]
  lastSeq := 1

def strippedKey : RowMacKey := ⟨[1], 0⟩

def strippedSteps : List HubStep := [.start, .insert 1 "chat" "\x7b\x7d", .tamper strippedTable]

section

omit [Builtins]

theorem stripped_unforged :
    letI := Builtins.checksum
    let h := Trace.run (AuthenticatedHub.step strippedKey) (AuthenticatedHub.start {}) strippedSteps
    h.Unforged strippedKey ∧ ∃ conn, enableRowMac strippedKey h.table = some conn := by
  let _ : Builtins := Builtins.checksum
  refine ⟨?_, _, rfl⟩
  intro row hrow ts kind payload material hcarries
  obtain ⟨tag, htag, -⟩ := hcarries.code
  rw [List.mem_singleton.mp hrow] at htag
  cases htag

theorem forged_rows_quarantined_stripped :
    letI := Builtins.checksum
    let h := Trace.run (AuthenticatedHub.step strippedKey) (AuthenticatedHub.start {}) strippedSteps
    ∃ conn, enableRowMac strippedKey h.table = some conn ∧
      ∃ seq marker, conn.rowQuarantine.get? seq = some marker := by
  let _ : Builtins := Builtins.checksum
  intro h
  obtain ⟨hunforged, conn, henabled⟩ := stripped_unforged
  obtain ⟨-, -, -, -, hiff, -⟩ := (forged_rows_quarantined sha256Spelled_checksum strippedKey {}
    strippedSteps).1 conn henabled hunforged
  refine ⟨conn, henabled, hiff.mpr ⟨_, List.mem_singleton.mpr rfl, by decide, ?_⟩⟩
  rintro ⟨w, -, -, hcarries⟩
  obtain ⟨tag, htag, -⟩ := hcarries.code
  cases htag

/-- The stored fields are those the hub wrote there, and the row is not read as an event. -/
theorem stripped_row_quarantined :
    letI := Builtins.checksum
    let h := Trace.run (AuthenticatedHub.step strippedKey) (AuthenticatedHub.start {}) strippedSteps
    h.Unforged strippedKey ∧ ∃ row ∈ h.table.rows, strippedKey.sinceSeq < row.seq ∧
      (∃ w ∈ h.writes, row.WrittenBy w) ∧
      ∃ conn, enableRowMac strippedKey h.table = some conn ∧
        (conn.decodeEvent row true).kind = corruptEventKind := by
  let _ : Builtins := Builtins.checksum
  intro h
  obtain ⟨hunforged, conn, henabled⟩ := stripped_unforged
  have hrow : (⟨1, .real 1, .text "chat", .text "\x7b\x7d", .null⟩ : EventRow) ∈ h.table.rows :=
    List.mem_singleton.mpr rfl
  refine ⟨hunforged, _, hrow, by decide, ⟨⟨1, 1, "chat", "\x7b\x7d"⟩, ?_, rfl, rfl, rfl, rfl⟩, conn,
    henabled, ?_⟩
  · have hwrites : h.writes = [⟨1, 1, "chat", "\x7b\x7d"⟩] := by
      rfl
    rw [hwrites]
    exact List.mem_singleton.mpr rfl
  · have hquarantine := enableRowMac_quarantines henabled
    rw [hquarantine.decode_marked hrow (by decide) (by decide)]
    rfl

end

end Stripped

end SynapseChannel
