import SynapseChannel.Multihub.Follower

/-!
# Multihub — QuarantineJournal

The durable side of peer quarantines: the rows a follower writes when a
peer equivocates and when an operator recovers it, and the fold that
rebuilds the quarantines from them. A row names its peer by at most 256
bytes of its id.
-/

namespace SynapseChannel

open Py
open Framing (utf8)

def EventKind.multihubEquivocation : String := "multihub_equivocation"

def EventKind.multihubEquivocationRecovery : String := "multihub_equivocation_recovery"

/-! ## Rows -/

/-- The longest run of whole code points within `limit` bytes of UTF-8. -/
def takeUtf8 : Nat → List Char → List Char
  | _, [] => []
  | limit, c :: rest =>
    if c.utf8Size ≤ limit then c :: takeUtf8 (limit - c.utf8Size) rest else []

/-- `text.encode("utf-8")[:256].decode("utf-8", errors="ignore")`. -/
def boundedText (text : String) : String := String.ofList (takeUtf8 256 text.toList)

/-- A lowercase SHA-256 hexadecimal digest. -/
def validFingerprint : Json → Bool
  | .str text => len text == 64 && text.toList.all fun c => "0123456789abcdef".toList.contains c
  | _ => false

variable [Builtins]

/-- An operator label, bounded, with its exact digest. -/
def boundedIdentity (field text : String) : Members :=
  [(field, .str (boundedText text)), (field ++ "_sha256", .str (Builtins.sha256Hex (utf8 text))),
    (field ++ "_truncated", .bool (boundedText text != text))]

/-- The persisted quarantine, without raw event content. -/
def quarantinePayload (quarantine : FederationQuarantine) : Members :=
  boundedIdentity "peer_id" quarantine.peerId ++
    boundedIdentity "observer_id" quarantine.observerId ++
    [("seq", .int quarantine.seq),
      ("accepted_fingerprint", .str quarantine.acceptedFingerprint),
      ("conflicting_fingerprint", .str quarantine.conflictingFingerprint),
      ("detected_at", .float quarantine.detectedAt), ("status", .str "quarantined")]

/-- The payload of evidence that is well formed. -/
def boundedQuarantinePayload (quarantine : FederationQuarantine) : Except String Members :=
  if validFingerprint (.str quarantine.acceptedFingerprint) = false ∨
      validFingerprint (.str quarantine.conflictingFingerprint) = false then
    .error "multi-hub quarantine fingerprints must be lowercase SHA-256"
  else if strip quarantine.peerId = "" then .error "multi-hub quarantine requires a peer id"
  else if quarantine.seq < 1 then
    .error "multi-hub quarantine sequence must be a positive integer"
  else if quarantine.detectedAt.isFinite = false then
    .error "multi-hub quarantine detection time must be finite"
  else .ok (quarantinePayload quarantine)

/-- Append digest-only evidence and an active peer quarantine. -/
def recordMultihubEquivocation (store : EventStore) (quarantine : FederationQuarantine) :
    Except String EventStore :=
  (boundedQuarantinePayload quarantine).map fun payload =>
    (store.insertEnrolled quarantine.detectedAt EventKind.multihubEquivocation payload).1

/-- The persisted recovery, without its free-text reason. -/
def recoveryPayload (peerId recoveredBy reason newLogGeneration : String) (recoveredAt : Float) :
    Members :=
  boundedIdentity "peer_id" peerId ++ boundedIdentity "recovered_by" recoveredBy ++
    boundedIdentity "new_log_generation" newLogGeneration ++
    [("reason_sha256", .str (Builtins.sha256Hex (utf8 reason))),
      ("recovered_at", .float recoveredAt), ("explicit_recovery", .bool true),
      ("status", .str "recovered")]

/-- Append an explicit operator recovery. -/
def recordMultihubEquivocationRecovery (store : EventStore)
    (peerId recoveredBy reason newLogGeneration : String) (recoveredAt : Float) :
    Except String EventStore :=
  if strip peerId = "" then .error "multi-hub recovery requires a non-empty peer_id"
  else if strip recoveredBy = "" then .error "multi-hub recovery requires a non-empty recovered_by"
  else if strip reason = "" then .error "multi-hub recovery requires a non-empty reason"
  else if strip newLogGeneration = "" then
    .error "multi-hub recovery requires a non-empty new_log_generation"
  else if recoveredAt.isFinite = false then .error "multi-hub recovery time must be finite"
  else
    .ok (store.insertEnrolled recoveredAt EventKind.multihubEquivocationRecovery
      (recoveryPayload peerId recoveredBy reason newLogGeneration recoveredAt)).1

/-! ## Restore -/

/-- `str(data.get(key) or "").strip()`. -/
def strippedText (data : Members) (key : String) : String :=
  strip (((data.get key).or (.str "")).toStr)

/-- The fingerprint a row names, or zeros. -/
def restoredFingerprint (value : Json) : String :=
  if validFingerprint value then value.toStr else String.ofList (List.replicate 64 '0')

/-- The quarantine an equivocation row restores. -/
def restoredQuarantine (peerId : String) (event : StoredEvent) : FederationQuarantine where
  peerId := peerId
  seq :=
    match event.payload.get "seq" with
    | .int seq => seq
    | _ => 0
  acceptedFingerprint := restoredFingerprint (event.payload.get "accepted_fingerprint")
  conflictingFingerprint := restoredFingerprint (event.payload.get "conflicting_fingerprint")
  detectedAt := event.ts
  observerId := ((event.payload.get "observer_id").or (.str "")).toStr

/-- One row of the fold. -/
def restoreRow (active : Dict String FederationQuarantine) (event : StoredEvent) :
    Dict String FederationQuarantine :=
  let peerId := strippedText event.payload "peer_id"
  if event.kind = EventKind.multihubEquivocationRecovery then
    if peerId = "" then active
    else
      match event.payload.get "explicit_recovery" with
      | .bool true =>
        if strippedText event.payload "new_log_generation" = "" then active
        else active.erase peerId
      | _ => active
  else if event.kind = EventKind.multihubEquivocation then
    if peerId = "" then active else active.set peerId (restoredQuarantine peerId event)
  else active

/-- Fold the durable rows into the active peer quarantines. -/
def restoreActiveMultihubQuarantines (store : EventStore) : Dict String FederationQuarantine :=
  store.events.foldl restoreRow Dict.empty

/-- A follower constructed over a journal. -/
def Follower.rebuilt (observerId : String) (journal : EventStore) : Follower where
  observerId := observerId
  quarantines := restoreActiveMultihubQuarantines journal

/-! ## Runs -/

/-- A conflict whose evidence can be recorded. -/
structure RecordedConflict where
  peerId : String
  seq : Int
  acceptedFingerprint : String
  conflictingFingerprint : String
  detectedAt : Float
  nonblank : strip peerId ≠ ""
  positive : 1 ≤ seq
  accepted_valid : validFingerprint (.str acceptedFingerprint) = true
  conflicting_valid : validFingerprint (.str conflictingFingerprint) = true
  finite : detectedAt.isFinite = true

/-- The evidence a follower records. -/
def RecordedConflict.evidence (c : RecordedConflict) (observerId : String) :
    FederationQuarantine where
  peerId := c.peerId
  seq := c.seq
  acceptedFingerprint := c.acceptedFingerprint
  conflictingFingerprint := c.conflictingFingerprint
  detectedAt := c.detectedAt
  observerId := observerId

/-- A follower and its journal. -/
structure JournalledFollower where
  follower : Follower
  journal : EventStore

/-- What happens to a follower's quarantines, and other rows of its
journal. -/
inductive QuarantineOp where
  | conflict (c : RecordedConflict)
  | recover (peerId recoveredBy reason newLogGeneration : String) (now : Float)
  | restart
  | append (ts : Float) (kind : String) (payload : Members)
      (hkind : kind ≠ EventKind.multihubEquivocation ∧
        kind ≠ EventKind.multihubEquivocationRecovery)

namespace JournalledFollower

/-- A follower over an empty journal. -/
def init (observerId : String) : JournalledFollower where
  follower := Follower.rebuilt observerId {}
  journal := {}

/-- Freeze one peer, then record the evidence. -/
def quarantine (s : JournalledFollower) (c : RecordedConflict) : JournalledFollower :=
  let follower := s.follower.quarantine c.peerId c.seq c.acceptedFingerprint
    c.conflictingFingerprint c.detectedAt
  match recordMultihubEquivocation s.journal (c.evidence s.follower.observerId) with
  | .ok journal => { follower, journal }
  | .error _ => { follower, journal := s.journal }

/-- Record a recovery and clear the quarantine, if it is accepted. -/
def recoverPeer (s : JournalledFollower) (peerId recoveredBy reason newLogGeneration : String)
    (now : Float) : JournalledFollower :=
  let recorded := recordMultihubEquivocationRecovery s.journal peerId recoveredBy reason
    newLogGeneration now
  let recovery := s.follower.recoverPeer peerId recoveredBy reason newLogGeneration recorded.isOk
  match recovery.2, recorded with
  | .recovered, .ok journal => { follower := recovery.1, journal }
  | _, _ => { s with follower := recovery.1 }

def apply (s : JournalledFollower) : QuarantineOp → JournalledFollower
  | .conflict c => s.quarantine c
  | .recover peerId recoveredBy reason newLogGeneration now =>
    s.recoverPeer peerId recoveredBy reason newLogGeneration now
  | .restart => { s with follower := Follower.rebuilt s.follower.observerId s.journal }
  | .append ts kind payload _ => { s with journal := (s.journal.insertEnrolled ts kind payload).1 }

/-! ## What survives a restart -/

/-- The key a row of `peerId` restores under. -/
def durableKey (peerId : String) : String := strip (boundedText peerId)

/-- The journal restores exactly the peers quarantined in memory. -/
def Agrees (s : JournalledFollower) : Prop :=
  ∀ peer, (s.follower.quarantines.get? peer).isSome ↔
    ((restoreActiveMultihubQuarantines s.journal).get? peer).isSome

/-- Every quarantined peer is its own durable key, and no poll is in
flight. -/
structure OwnKeys (s : JournalledFollower) : Prop where
  key : ∀ peer, (s.follower.quarantines.get? peer).isSome → durableKey peer = peer
  idle : s.follower.inFlight = Dict.empty

/-- A recovery that the follower accepts. -/
def Recovers (s : JournalledFollower) (peerId recoveredBy reason newLogGeneration : String)
    (now : Float) : Prop :=
  (s.follower.quarantines.get? peerId).isSome ∧ strip peerId ≠ "" ∧ strip recoveredBy ≠ "" ∧
    strip reason ≠ "" ∧ strip newLogGeneration ≠ "" ∧ now.isFinite = true

/-- The row the step writes restores what the step did: a quarantined peer
is its own durable key, and a recovery names a generation within the
bound. -/
def Faithful (s : JournalledFollower) : QuarantineOp → Prop
  | .conflict c => durableKey c.peerId = c.peerId
  | .recover peerId recoveredBy reason newLogGeneration now =>
    s.Recovers peerId recoveredBy reason newLogGeneration now →
      strip (boundedText newLogGeneration) ≠ ""
  | _ => True

omit [Builtins] in
theorem insertEnrolled_events (store : EventStore) (ts : Float) (kind : String)
    (payload : Members) :
    ∃ seq, (store.insertEnrolled ts kind payload).1.events =
      store.events ++ [⟨seq, ts, kind, payload⟩] := by
  refine ⟨store.lastSeq + 1, ?_⟩
  unfold EventStore.insertEnrolled
  dsimp only
  split <;> rfl

/-- The fold over one more row. -/
theorem restore_insert (store : EventStore) (ts : Float) (kind : String) (payload : Members) :
    ∃ seq, restoreActiveMultihubQuarantines (store.insertEnrolled ts kind payload).1 =
      restoreRow (restoreActiveMultihubQuarantines store) ⟨seq, ts, kind, payload⟩ := by
  obtain ⟨seq, hevents⟩ := insertEnrolled_events store ts kind payload
  refine ⟨seq, ?_⟩
  unfold restoreActiveMultihubQuarantines
  rw [hevents, List.foldl_append]
  rfl

theorem strippedText_str {data : Members} {key text : String} (h : data.get? key = some (.str text)) :
    strippedText data key = strip text := by
  unfold strippedText Members.get Members.getD
  rw [h]
  by_cases hempty : text = ""
  · subst hempty
    rfl
  · simp [Json.or, Json.truthy, hempty, Json.toStr]

theorem restore_conflict (store : EventStore) (observer : String) (c : RecordedConflict) :
    ∃ journal, recordMultihubEquivocation store (c.evidence observer) = .ok journal ∧
      ∀ peer, ((restoreActiveMultihubQuarantines journal).get? peer).isSome ↔
        (durableKey c.peerId ≠ "" ∧ peer = durableKey c.peerId) ∨
          ((restoreActiveMultihubQuarantines store).get? peer).isSome := by
  have hvalid : boundedQuarantinePayload (c.evidence observer) =
      .ok (quarantinePayload (c.evidence observer)) := by
    have hseq : ¬ (c.evidence observer).seq < 1 := by
      have hpos : 1 ≤ (c.evidence observer).seq := c.positive
      omega
    have haccepted : validFingerprint (.str (c.evidence observer).acceptedFingerprint) = true :=
      c.accepted_valid
    have hconflicting : validFingerprint (.str (c.evidence observer).conflictingFingerprint) = true :=
      c.conflicting_valid
    have hblank : strip (c.evidence observer).peerId ≠ "" := c.nonblank
    have hfinite : (c.evidence observer).detectedAt.isFinite = true := c.finite
    unfold boundedQuarantinePayload
    rw [if_neg (by simp [haccepted, hconflicting]), if_neg hblank, if_neg hseq,
      if_neg (by simp [hfinite])]
  obtain ⟨seq, hrestore⟩ := restore_insert store (c.evidence observer).detectedAt
    EventKind.multihubEquivocation (quarantinePayload (c.evidence observer))
  refine ⟨_, congrArg (Except.map _) hvalid, ?_⟩
  intro peer
  have hkey : strippedText (quarantinePayload (c.evidence observer)) "peer_id" =
      durableKey c.peerId := strippedText_str (Members.get?_cons_self ..)
  rw [hrestore]
  unfold restoreRow
  dsimp only
  rw [hkey, if_neg (by decide), if_pos rfl]
  by_cases hblank : durableKey c.peerId = ""
  · simp [hblank]
  · rw [if_neg hblank, Dict.get?_set]
    by_cases hpeer : durableKey c.peerId = peer
    · subst hpeer
      simp [hblank]
    · rw [if_neg hpeer]
      simp [Ne.symm hpeer]

theorem restore_recovery (store : EventStore) {peerId recoveredBy reason generation : String}
    {now : Float} (hpeer : strip peerId ≠ "") (hby : strip recoveredBy ≠ "")
    (hreason : strip reason ≠ "") (hgeneration : strip generation ≠ "")
    (hfinite : now.isFinite = true) :
    ∃ journal, recordMultihubEquivocationRecovery store peerId recoveredBy reason generation now =
        .ok journal ∧
      ∀ peer, ((restoreActiveMultihubQuarantines journal).get? peer).isSome ↔
        ((restoreActiveMultihubQuarantines store).get? peer).isSome ∧
          (strip (boundedText generation) = "" ∨ durableKey peerId = "" ∨
            peer ≠ durableKey peerId) := by
  unfold recordMultihubEquivocationRecovery
  rw [if_neg hpeer, if_neg hby, if_neg hreason, if_neg hgeneration, if_neg (by simp [hfinite])]
  refine ⟨_, rfl, ?_⟩
  intro peer
  obtain ⟨seq, hrestore⟩ := restore_insert store now EventKind.multihubEquivocationRecovery
    (recoveryPayload peerId recoveredBy reason generation now)
  have hkey : strippedText (recoveryPayload peerId recoveredBy reason generation now) "peer_id" =
      durableKey peerId := strippedText_str (Members.get?_cons_self ..)
  have hnamed : strippedText (recoveryPayload peerId recoveredBy reason generation now)
      "new_log_generation" = strip (boundedText generation) := by
    apply strippedText_str
    unfold recoveryPayload boundedIdentity
    simp only [String.reduceAppend, List.cons_append, List.nil_append, Members.get?_cons_self,
      Members.get?_cons_ne, ne_eq, String.reduceEq, not_false_eq_true]
  have hexplicit : Members.get (recoveryPayload peerId recoveredBy reason generation now)
      "explicit_recovery" = .bool true := by
    unfold recoveryPayload boundedIdentity Members.get Members.getD
    simp only [String.reduceAppend, List.cons_append, List.nil_append, Members.get?_cons_self,
      Members.get?_cons_ne, ne_eq, String.reduceEq, not_false_eq_true, Option.getD_some]
  rw [hrestore]
  unfold restoreRow
  dsimp only
  rw [hkey, hnamed, hexplicit, if_pos rfl]
  by_cases hblank : durableKey peerId = ""
  · simp [hblank]
  · rw [if_neg hblank]
    dsimp only
    by_cases hbounded : strip (boundedText generation) = ""
    · simp [hbounded]
    · rw [if_neg hbounded, Dict.get?_erase]
      by_cases hsame : peer = durableKey peerId
      · simp [hsame, hbounded, hblank]
      · simp [hsame]

/-- Other rows restore nothing. -/
theorem restore_append (store : EventStore) (ts : Float) {kind : String} (payload : Members)
    (hkind : kind ≠ EventKind.multihubEquivocation ∧
      kind ≠ EventKind.multihubEquivocationRecovery) :
    restoreActiveMultihubQuarantines (store.insertEnrolled ts kind payload).1 =
      restoreActiveMultihubQuarantines store := by
  obtain ⟨seq, hrestore⟩ := restore_insert store ts kind payload
  rw [hrestore]
  unfold restoreRow
  dsimp only
  rw [if_neg hkind.2, if_neg hkind.1]

/-! ## Steps -/

/-- A conflict keeps the agreement exactly when the peer is its own
durable key. -/
theorem quarantine_agrees_iff {s : JournalledFollower} (h : s.Agrees) (hown : s.OwnKeys)
    (c : RecordedConflict) :
    (s.quarantine c).Agrees ↔ durableKey c.peerId = c.peerId := by
  obtain ⟨journal, hrecord, hrestored⟩ := restore_conflict s.journal s.follower.observerId c
  unfold quarantine
  dsimp only
  rw [hrecord]
  constructor
  · intro hagrees
    -- the restored keys are the durable key and keys that are their own
    have hlive : (((s.follower.quarantine c.peerId c.seq c.acceptedFingerprint
        c.conflictingFingerprint c.detectedAt).quarantines).get? c.peerId).isSome := by
      simp [Follower.quarantine]
    rcases (hrestored c.peerId).mp ((hagrees c.peerId).mp hlive) with ⟨-, hkey⟩ | hold
    · exact hkey.symm
    · exact hown.key c.peerId ((h c.peerId).mpr hold)
  · intro hkey peer
    have hblank : durableKey c.peerId ≠ "" := by
      rw [hkey]
      intro hempty
      exact c.nonblank (by rw [hempty]; rfl)
    rw [hrestored peer, ← h peer, hkey]
    show ((s.follower.quarantines.set c.peerId _).get? peer).isSome ↔ _
    rw [Dict.get?_set]
    by_cases hpeer : c.peerId = peer
    · subst hpeer
      simp [hkey ▸ hblank]
    · rw [if_neg hpeer]
      simp [Ne.symm hpeer]

theorem OwnKeys.quarantine {s : JournalledFollower} (hown : s.OwnKeys) {c : RecordedConflict}
    (hkey : durableKey c.peerId = c.peerId) : (s.quarantine c).OwnKeys := by
  obtain ⟨journal, hrecord, -⟩ := restore_conflict s.journal s.follower.observerId c
  unfold JournalledFollower.quarantine
  dsimp only
  rw [hrecord]
  refine ⟨?_, hown.idle⟩
  intro peer hpeer
  by_cases hsame : peer = c.peerId
  · rw [hsame, hkey]
  · apply hown.key peer
    have hget : ((s.follower.quarantines.set c.peerId _).get? peer).isSome := hpeer
    rwa [Dict.get?_set_ne _ _ (Ne.symm hsame)] at hget

/-- A recovery that is not accepted changes nothing. -/
theorem recoverPeer_refused {s : JournalledFollower} {peerId recoveredBy reason generation : String}
    {now : Float} (h : ¬ s.Recovers peerId recoveredBy reason generation now) :
    s.recoverPeer peerId recoveredBy reason generation now = s := by
  unfold recoverPeer Follower.recoverPeer
  dsimp only
  by_cases hheld : (s.follower.quarantines.get? peerId).isSome
  swap
  · simp [Dict.contains, hheld]
  by_cases hblank : strip recoveredBy = "" ∨ strip reason = "" ∨ strip generation = ""
  · simp [Dict.contains, hheld, hblank]
  · have hrecord : ∃ e, recordMultihubEquivocationRecovery s.journal peerId recoveredBy reason
        generation now = .error e := by
      simp only [not_or] at hblank
      unfold recordMultihubEquivocationRecovery
      by_cases hpeer : strip peerId = ""
      · exact ⟨_, if_pos hpeer⟩
      by_cases hfinite : now.isFinite = true
      · exact absurd ⟨hheld, hpeer, hblank.1, hblank.2.1, hblank.2.2, hfinite⟩ h
      · rw [if_neg hpeer, if_neg hblank.1, if_neg hblank.2.1, if_neg hblank.2.2,
          if_pos (Bool.eq_false_of_not_eq_true hfinite)]
        exact ⟨_, rfl⟩
    obtain ⟨e, he⟩ := hrecord
    rw [he]
    simp [Dict.contains, hheld, hblank, Except.isOk, Except.toBool]

theorem recoverPeer_accepted {s : JournalledFollower}
    {peerId recoveredBy reason generation : String} {now : Float}
    (h : s.Recovers peerId recoveredBy reason generation now) {journal : EventStore}
    (hrecord : recordMultihubEquivocationRecovery s.journal peerId recoveredBy reason generation
      now = .ok journal) :
    (s.recoverPeer peerId recoveredBy reason generation now).journal = journal ∧
      (s.recoverPeer peerId recoveredBy reason generation now).follower.quarantines =
        s.follower.quarantines.erase peerId ∧
      (s.recoverPeer peerId recoveredBy reason generation now).follower.inFlight =
        s.follower.inFlight := by
  obtain ⟨hheld, hpeer, hby, hreason, hgeneration, hfinite⟩ := h
  unfold recoverPeer Follower.recoverPeer
  rw [hrecord]
  simp [Dict.contains, hheld, hby, hreason, hgeneration, Except.isOk, Except.toBool]

/-- A recovery keeps the agreement exactly when it is refused or its
generation is within the bound. -/
theorem recover_agrees_iff {s : JournalledFollower} (h : s.Agrees) (hown : s.OwnKeys)
    (peerId recoveredBy reason generation : String) (now : Float) :
    (s.recoverPeer peerId recoveredBy reason generation now).Agrees ↔
      (s.Recovers peerId recoveredBy reason generation now →
        strip (boundedText generation) ≠ "") := by
  by_cases hrecovers : s.Recovers peerId recoveredBy reason generation now
  swap
  · rw [recoverPeer_refused hrecovers]
    simp [h, hrecovers]
  obtain ⟨hheld, hpeer, hby, hreason, hgeneration, hfinite⟩ := id hrecovers
  obtain ⟨journal, hrecord, hrestored⟩ :=
    restore_recovery s.journal hpeer hby hreason hgeneration hfinite
  obtain ⟨hjournal, hquarantines, -⟩ := recoverPeer_accepted hrecovers hrecord
  have hkey := hown.key peerId hheld
  have hblank : durableKey peerId ≠ "" := by
    rw [hkey]
    intro hempty
    exact hpeer (by rw [hempty]; rfl)
  unfold Agrees
  rw [hjournal, hquarantines]
  constructor
  · intro hagrees _ hbounded
    -- the row is passed over, so the peer is restored although it was recovered
    have hstill := (hagrees peerId).mpr
      ((hrestored peerId).mpr ⟨(h peerId).mp hheld, .inl hbounded⟩)
    simp at hstill
  · intro hbounded peer
    rw [hrestored peer, ← h peer, hkey, Dict.get?_erase]
    by_cases hsame : peer = peerId
    · simp [hsame, hbounded hrecovers, hkey ▸ hblank]
    · simp [hsame]

theorem OwnKeys.recoverPeer {s : JournalledFollower} (hown : s.OwnKeys)
    (peerId recoveredBy reason generation : String) (now : Float) :
    (s.recoverPeer peerId recoveredBy reason generation now).OwnKeys := by
  by_cases hrecovers : s.Recovers peerId recoveredBy reason generation now
  swap
  · rw [recoverPeer_refused hrecovers]
    exact hown
  obtain ⟨hheld, hpeer, hby, hreason, hgeneration, hfinite⟩ := id hrecovers
  obtain ⟨journal, hrecord, -⟩ :=
    restore_recovery s.journal hpeer hby hreason hgeneration hfinite
  obtain ⟨-, hquarantines, hidle⟩ := recoverPeer_accepted hrecovers hrecord
  refine ⟨?_, hidle.trans hown.idle⟩
  intro peer hsome
  rw [hquarantines, Dict.get?_erase] at hsome
  apply hown.key peer
  by_cases hsame : peer = peerId
  · simp [hsame] at hsome
  · simpa [hsame] using hsome

/-- One step keeps the agreement exactly when its row is faithful. -/
theorem apply_agrees_iff {s : JournalledFollower} (h : s.Agrees) (hown : s.OwnKeys)
    (op : QuarantineOp) : (s.apply op).Agrees ↔ s.Faithful op := by
  cases op with
  | conflict c => exact quarantine_agrees_iff h hown c
  | recover peerId recoveredBy reason generation now =>
    exact recover_agrees_iff h hown peerId recoveredBy reason generation now
  | restart => exact iff_of_true (fun _ => Iff.rfl) trivial
  | append ts kind payload hkind =>
    refine iff_of_true ?_ trivial
    intro peer
    show _ ↔ ((restoreActiveMultihubQuarantines
      (s.journal.insertEnrolled ts kind payload).1).get? peer).isSome
    rw [restore_append s.journal ts payload hkind]
    exact h peer

theorem OwnKeys.apply {s : JournalledFollower} (h : s.Agrees) (hown : s.OwnKeys)
    {op : QuarantineOp} (hop : s.Faithful op) : (s.apply op).OwnKeys := by
  cases op with
  | conflict c => exact hown.quarantine hop
  | recover peerId recoveredBy reason generation now =>
    exact hown.recoverPeer peerId recoveredBy reason generation now
  | restart => exact ⟨fun peer hpeer => hown.key peer ((h peer).mpr hpeer), rfl⟩
  | append ts kind payload hkind => exact ⟨hown.key, hown.idle⟩

/-! ## Runs -/

/-- The state after a sequence of steps. -/
def run (observerId : String) (ops : List QuarantineOp) : JournalledFollower :=
  Trace.run apply (init observerId) ops

/-- The steps of a run, each with the state it was made in. -/
def steps (observerId : String) (ops : List QuarantineOp) :
    List (JournalledFollower × QuarantineOp) :=
  Trace.trace apply (init observerId) ops

/-- The follower refuses to poll the peer. -/
def Refuses (f : Follower) (peer : String) : Prop :=
  ∃ held, (f.start peer).2 = .raised (.quarantined held)

omit [Builtins] in
theorem refuses_iff {f : Follower} (hidle : f.inFlight = Dict.empty) (peer : String) :
    Refuses f peer ↔ (f.quarantines.get? peer).isSome := by
  unfold Refuses Follower.start
  rw [hidle]
  cases f.quarantines.get? peer with
  | none => simp [Dict.contains]
  | some held => simp [Dict.contains]

theorem run_ownKeys (observerId : String) (ops : List QuarantineOp)
    (hfaithful : ∀ call ∈ steps observerId ops, call.1.Faithful call.2) :
    (run observerId ops).Agrees ∧ (run observerId ops).OwnKeys := by
  unfold run steps at *
  induction ops using List.reverseRecOn with
  | nil =>
    refine ⟨fun _ => Iff.rfl, ?_, rfl⟩
    intro peer hpeer
    cases hpeer
  | append_singleton ops op ih =>
    rw [Trace.trace_append] at hfaithful
    obtain ⟨hagrees, hown⟩ := ih fun call hcall => hfaithful call (List.mem_append_left _ hcall)
    have hop := hfaithful (Trace.run apply (init observerId) ops, op) (by simp)
    rw [Trace.run_append]
    exact ⟨(apply_agrees_iff hagrees hown op).mpr hop, hown.apply hagrees hop⟩

theorem steps_faithful_of_agrees (observerId : String) (ops : List QuarantineOp)
    (h : ∀ pre, pre <+: ops → (run observerId pre).Agrees) :
    ∀ call ∈ steps observerId ops, call.1.Faithful call.2 := by
  induction ops using List.reverseRecOn with
  | nil =>
    intro call hcall
    cases hcall
  | append_singleton ops op ih =>
    have hbefore := ih fun pre hpre => h pre (hpre.trans (List.prefix_append _ _))
    obtain ⟨hagrees, hown⟩ := run_ownKeys observerId ops hbefore
    have hafter := h (ops ++ [op]) (List.prefix_refl _)
    unfold run at hafter hagrees hown
    rw [Trace.run_append, apply_agrees_iff hagrees hown op] at hafter
    intro call hcall
    unfold steps at hcall
    rw [Trace.trace_append, List.mem_append, List.mem_singleton] at hcall
    rcases hcall with hcall | rfl
    · exact hbefore call hcall
    · exact hafter

end JournalledFollower

/-- Along a run of recorded equivocations, recoveries, restarts and other
rows, the journal restores exactly the quarantined peers in every state,
and a follower rebuilt from it refuses exactly the peers the old one did,
if and only if every quarantined peer id is its own durable key (at most
256 bytes and stripped) and every accepted recovery names a generation
that is not blank within its first 256 bytes. -/
theorem quarantine_survives_restart_iff (observerId : String) (ops : List QuarantineOp) :
    (∀ pre, pre <+: ops →
      (∀ peer, ((JournalledFollower.run observerId pre).follower.quarantines.get? peer).isSome ↔
        ((restoreActiveMultihubQuarantines
          (JournalledFollower.run observerId pre).journal).get? peer).isSome) ∧
      ∀ peer, JournalledFollower.Refuses (JournalledFollower.run observerId pre).follower peer ↔
        JournalledFollower.Refuses
          (Follower.rebuilt observerId (JournalledFollower.run observerId pre).journal) peer) ↔
      ∀ call ∈ JournalledFollower.steps observerId ops, call.1.Faithful call.2 := by
  constructor
  · intro h
    exact JournalledFollower.steps_faithful_of_agrees observerId ops fun pre hpre => (h pre hpre).1
  · intro hfaithful pre hpre
    have hbefore : ∀ call ∈ JournalledFollower.steps observerId pre, call.1.Faithful call.2 :=
      fun call hcall => hfaithful call (Trace.trace_sub JournalledFollower.apply hpre call hcall)
    obtain ⟨hagrees, hown⟩ := JournalledFollower.run_ownKeys observerId pre hbefore
    refine ⟨hagrees, ?_⟩
    intro peer
    rw [JournalledFollower.refuses_iff hown.idle, JournalledFollower.refuses_iff rfl]
    exact hagrees peer

section

omit [Builtins]

theorem length_takeUtf8 (limit : Nat) (cs : List Char) : (takeUtf8 limit cs).length ≤ limit := by
  induction cs generalizing limit with
  | nil => simp [takeUtf8]
  | cons c rest ih =>
    rw [takeUtf8]
    split
    · have hsize := c.utf8Size_pos
      have hrest := ih (limit - c.utf8Size)
      rw [List.length_cons]
      omega
    · simp

theorem len_durableKey (peerId : String) : len (JournalledFollower.durableKey peerId) ≤ 256 := by
  unfold JournalledFollower.durableKey boundedText
  have hstrip := len_strip_le (String.ofList (takeUtf8 256 peerId.toList))
  have htake := length_takeUtf8 256 peerId.toList
  have hlen : len (String.ofList (takeUtf8 256 peerId.toList)) =
      (takeUtf8 256 peerId.toList).length := by
    rw [len, String.toList_ofList]
  omega

theorem validFingerprint_replicate {c : Char} (h : "0123456789abcdef".toList.contains c = true) :
    validFingerprint (.str (String.ofList (List.replicate 64 c))) = true := by
  unfold validFingerprint len
  dsimp only
  rw [String.toList_ofList, List.length_replicate, BEq.rfl, Bool.true_and, List.all_eq_true]
  intro d hd
  rw [List.eq_of_mem_replicate hd]
  exact h

end

/-- A conflict of a peer whose id is longer than a row keeps does not survive a restart. -/
theorem JournalledFollower.long_peer_forgotten (observer : String) (c : RecordedConflict)
    (hlong : 256 < len c.peerId) :
    JournalledFollower.Refuses (JournalledFollower.run observer [.conflict c]).follower c.peerId ∧
      ¬ JournalledFollower.Refuses
        (Follower.rebuilt observer (JournalledFollower.run observer [.conflict c]).journal)
        c.peerId := by
  obtain ⟨journal, hrecord, hrestored⟩ := JournalledFollower.restore_conflict {} observer c
  have hkey : JournalledFollower.durableKey c.peerId ≠ c.peerId := by
    intro hsame
    have hle := len_durableKey c.peerId
    rw [hsame] at hle
    omega
  have hrun : JournalledFollower.run observer [.conflict c] =
      { follower := (Follower.rebuilt observer {}).quarantine c.peerId c.seq
          c.acceptedFingerprint c.conflictingFingerprint c.detectedAt
        journal := journal } := by
    show (JournalledFollower.init observer).quarantine c = _
    unfold JournalledFollower.quarantine
    have hrecord' : recordMultihubEquivocation (JournalledFollower.init observer).journal
        (c.evidence (JournalledFollower.init observer).follower.observerId) = .ok journal :=
      hrecord
    dsimp only
    rw [hrecord']
    rfl
  rw [hrun, JournalledFollower.refuses_iff rfl, JournalledFollower.refuses_iff rfl]
  constructor
  · simp [Follower.quarantine]
  · intro hrestoredPeer
    rcases (hrestored c.peerId).mp hrestoredPeer with ⟨-, hsame⟩ | hold
    · exact hkey hsame.symm
    · cases hold

omit [Builtins] in
theorem strip_longName : strip (String.ofList (List.replicate 257 'a')) ≠ "" := by
  rw [strip_replicate 257 (by decide)]
  intro h
  have hlen := congrArg len h
  rw [len, String.toList_ofList, List.length_replicate] at hlen
  cases hlen

omit [Builtins] in
theorem isFinite_zero : (0 : Float).isFinite = true := by decide +kernel

/-- A peer whose id is one byte longer than a row keeps. -/
def longPeer : RecordedConflict where
  peerId := String.ofList (List.replicate 257 'a')
  seq := 1
  acceptedFingerprint := String.ofList (List.replicate 64 '0')
  conflictingFingerprint := String.ofList (List.replicate 64 '1')
  detectedAt := 0
  nonblank := strip_longName
  positive := by decide
  accepted_valid := validFingerprint_replicate (by decide)
  conflicting_valid := validFingerprint_replicate (by decide)
  finite := isFinite_zero

omit [Builtins] in
theorem len_longPeer : len longPeer.peerId = 257 := by
  show (String.ofList (List.replicate 257 'a')).toList.length = 257
  rw [String.toList_ofList, List.length_replicate]

omit [Builtins] in
theorem long_peer_polled_after_restart :
    letI := Builtins.ascii
    JournalledFollower.Refuses
        (JournalledFollower.run "hub" [.conflict longPeer]).follower longPeer.peerId ∧
      ¬ JournalledFollower.Refuses
        (Follower.rebuilt "hub" (JournalledFollower.run "hub" [.conflict longPeer]).journal)
        longPeer.peerId := by
  let _ : Builtins := Builtins.ascii
  refine JournalledFollower.long_peer_forgotten "hub" longPeer ?_
  rw [len_longPeer]
  decide

end SynapseChannel
