import SynapseChannel.Core.Merkle
import SynapseChannel.Lib.JsonCanonical
import SynapseChannel.Lib.Trace

/-!
# Core — MerkleCheckpoint

Checkpoints of the event log, kept beside it: the hash-chained store of
anchored roots, the verification of a log against the latest one, and the
live accumulator of a serving hub.
-/

namespace SynapseChannel

open Py
open Framing (Bytes utf8)

/-- One durable attestation of the log's state. -/
structure MerkleCheckpoint where
  /-- The sequence the checkpoint attests through. -/
  seq : Int
  root : String
  createdAt : Float
  prevHash : String
  checkpointHash : String

/-- `iter_events`: the events in the range, in the order of their sequences. -/
def iterEvents (events : List StoredEvent) (throughSeq afterSeq : Option Int) : List StoredEvent :=
  (selectedEvents events throughSeq).filter fun event =>
    match afterSeq with
    | some floor => floor < event.seq
    | none => true

/-- `max_seq`: zero for an empty log. -/
def maxSeq (events : List StoredEvent) : Int := ((events.map StoredEvent.seq).max?).getD 0

variable [Builtins]

def checkpointHash (seq : Int) (root : String) (createdAt : Float) (prevHash : String) : String :=
  Builtins.sha256Hex (utf8 (toString seq ++ ":" ++ root ++ ":" ++ Builtins.repr (.float createdAt) ++
    ":" ++ prevHash))

/-- The root of the log through a sequence. -/
def rootThrough (events : List StoredEvent) (throughSeq : Option Int) : Except String String :=
  (RunningRoot.addAll {} (iterEvents events throughSeq none)).map fun running =>
    (running.commit throughSeq).root

/-- The table of checkpoints; the sequence is its key. -/
structure MerkleCheckpointStore where
  checkpoints : List MerkleCheckpoint := []

namespace MerkleCheckpointStore

omit [Builtins] in
/-- The newest checkpoint. -/
def latest (store : MerkleCheckpointStore) : Option MerkleCheckpoint :=
  (sortedBy (fun a b => decide (a < b)) MerkleCheckpoint.seq store.checkpoints).getLast?

/-- Append a checkpoint, or return the latest one where the log has not advanced past it. -/
def append (store : MerkleCheckpointStore) (seq : Int) (root : String) (now : Float) :
    MerkleCheckpointStore × MerkleCheckpoint :=
  let insert (prevHash : String) : MerkleCheckpointStore × MerkleCheckpoint :=
    let checkpoint : MerkleCheckpoint :=
      ⟨seq, root, now, prevHash, checkpointHash seq root now prevHash⟩
    (⟨store.checkpoints ++ [checkpoint]⟩, checkpoint)
  match store.latest with
  | some latest => if latest.seq ≥ seq then (store, latest) else insert latest.checkpointHash
  | none => insert ""

/-- Append a checkpoint attesting the log's current tip. -/
def anchor (store : MerkleCheckpointStore) (events : List StoredEvent) (now : Float) :
    Except String (MerkleCheckpointStore × MerkleCheckpoint) :=
  (rootThrough events none).map fun root => store.append (maxSeq events) root now

/-- Verify the log against the latest checkpoint. -/
def verify (store : MerkleCheckpointStore) (events : List StoredEvent) : Except String Unit :=
  match store.latest with
  | none => .ok ()
  | some latest =>
    let found := maxSeq events
    let seq := latest.seq
    if found < seq then
      .error (s!"durable log is SHORTER than its checkpoint: max_seq {found} " ++
        s!"< checkpoint seq {seq} — tail truncation detected")
    else do
      let prefixRoot ← rootThrough events (some seq)
      let root := latest.root
      if prefixRoot ≠ root then
        .error ("durable log prefix does not match its checkpoint: " ++
          s!"recomputed {prefixRoot} != checkpoint {root} at seq {seq} — log rewrite detected")
      else return ()

end MerkleCheckpointStore

/-- The accumulator of a serving hub, and the last sequence it has folded. -/
structure LiveCheckpoint where
  running : RunningRoot := {}
  through : Int := 0

namespace LiveCheckpoint

/-- Fold events until one is rejected. -/
def fold (live : LiveCheckpoint) : List StoredEvent → LiveCheckpoint × Except String Unit
  | [] => (live, .ok ())
  | event :: rest =>
    match live.running.add event with
    | (running, .ok ()) => LiveCheckpoint.fold ⟨running, event.seq⟩ rest
    | (running, .error e) => (⟨running, live.through⟩, .error e)

/-- Fold the events written since the last anchor and append a checkpoint if any. -/
def anchor (live : LiveCheckpoint) (store : MerkleCheckpointStore) (events : List StoredEvent)
    (now : Float) : LiveCheckpoint × MerkleCheckpointStore × Except String MerkleCheckpoint :=
  match live.fold (iterEvents events none (some live.through)) with
  | (live, .ok ()) =>
    let (store, checkpoint) := store.append live.through live.running.rootHex now
    (live, store, .ok checkpoint)
  | (live, .error e) => (live, store, .error e)

end LiveCheckpoint

/-- `open_checkpoint`: verify the log, then fold and anchor it. -/
def openCheckpoint (store : MerkleCheckpointStore) (events : List StoredEvent) (now : Float) :
    MerkleCheckpointStore × Except String LiveCheckpoint :=
  match store.verify events with
  | .error e => (store, .error e)
  | .ok () =>
    match LiveCheckpoint.anchor {} store events now with
    | (live, store, .ok _) => (store, .ok live)
    | (_, store, .error e) => (store, .error e)

/-! ## A hub and its checkpoints -/

structure CheckpointedHub where
  journal : EventStore
  store : MerkleCheckpointStore := {}
  /-- The accumulator, while the hub runs. -/
  live : Option LiveCheckpoint := none
  /-- The log as it was at the latest anchor. -/
  anchored : Option (List StoredEvent) := none

inductive CheckpointStep where
  | append (ts : Float) (kind : String) (payload : Members)
  /-- The anchor loop, or the anchor of a clean shutdown. -/
  | anchor (now : Float)
  /-- `anchor` of the store itself, without the hub's accumulator. -/
  | attest (now : Float)
  /-- The process ends, cleanly or not. -/
  | stop
  | start (now : Float)

namespace CheckpointedHub

def step (h : CheckpointedHub) : CheckpointStep → CheckpointedHub
  | .append ts kind payload => { h with journal := (h.journal.insertEvent ts kind payload).1 }
  | .anchor now =>
    match h.live with
    | none => h
    | some live =>
      match live.anchor h.store h.journal.events now with
      | (live, store, .ok _) =>
        { h with store, live := some live, anchored := some h.journal.events }
      | (live, store, .error _) => { h with store, live := some live }
  | .attest now =>
    match h.store.anchor h.journal.events now with
    | .ok (store, _) => { h with store, anchored := some h.journal.events }
    | .error _ => h
  | .stop => { h with live := none }
  | .start now =>
    match openCheckpoint h.store h.journal.events now with
    | (store, .ok live) => { h with store, live := some live, anchored := some h.journal.events }
    | (store, .error _) => { h with store, live := none }

end CheckpointedHub

/-! ## Logs in order -/

/-- The rows of a log that is only appended to: their sequences ascend from one. -/
structure Ascends (events : List StoredEvent) : Prop where
  ordered : events.Pairwise fun a b => a.seq < b.seq
  positive : ∀ event ∈ events, 0 < event.seq

namespace Ascends

section

omit [Builtins]

theorem of_prefix {pre events : List StoredEvent} (h : Ascends events) (hpre : pre <+: events) :
    Ascends pre :=
  ⟨h.ordered.sublist hpre.sublist, fun event hmem => h.positive event (hpre.subset hmem)⟩

theorem sorted {events : List StoredEvent} (h : Ascends events) :
    sortedBy (fun a b => decide (a < b)) StoredEvent.seq events = events := by
  apply sortedBy_eq_self
  refine h.ordered.imp ?_
  intro a b hlt
  rw [decide_eq_false_iff_not]
  omega

theorem selected_all {events : List StoredEvent} (h : Ascends events) :
    selectedEvents events none = events := h.sorted

theorem selected_through {events : List StoredEvent} (h : Ascends events) (ceiling : Int) :
    selectedEvents events (some ceiling) = events.filter fun event => event.seq ≤ ceiling := by
  unfold selectedEvents
  dsimp only
  rw [h.sorted]

end

end Ascends

section

omit [Builtins]

theorem maxSeq_concat {pre : List StoredEvent} {event : StoredEvent}
    (h : ∀ earlier ∈ pre, earlier.seq < event.seq) : maxSeq (pre ++ [event]) = event.seq := by
  have hmax : ((pre ++ [event]).map StoredEvent.seq).max? = some event.seq := by
    rw [List.max?_eq_some_iff]
    refine ⟨by simp, ?_⟩
    intro seq hseq
    obtain ⟨found, hfound, rfl⟩ := List.mem_map.mp hseq
    rcases List.mem_append.mp hfound with hearlier | hlast
    · exact (h found hearlier).le
    · rw [List.mem_singleton.mp hlast]
  unfold maxSeq
  rw [hmax]
  rfl

/-- The highest sequence of a part of a log lies between the part and the rest. -/
theorem maxSeq_splits {pre rest : List StoredEvent} (h : Ascends (pre ++ rest)) :
    (∀ event ∈ pre, event.seq ≤ maxSeq pre) ∧ ∀ event ∈ rest, maxSeq pre < event.seq := by
  induction pre using List.reverseRecOn with
  | nil =>
    refine ⟨by simp, ?_⟩
    intro event hevent
    exact h.positive event hevent
  | append_singleton pre last _ =>
    have hordered := List.pairwise_append.mp h.ordered
    have hpre := List.pairwise_append.mp hordered.1
    rw [maxSeq_concat fun earlier hearlier => hpre.2.2 earlier hearlier last (by simp)]
    constructor
    · intro event hevent
      rcases List.mem_append.mp hevent with hearlier | hlast
      · exact (hpre.2.2 event hearlier last (by simp)).le
      · rw [List.mem_singleton.mp hlast]
    · intro event hevent
      exact hordered.2.2 last (by simp) event hevent

/-- A part of a log that reaches as far as the log is all of it. -/
theorem eq_of_maxSeq {pre events : List StoredEvent} (h : Ascends events) (hpre : pre <+: events)
    (hreach : maxSeq events ≤ maxSeq pre) : pre = events := by
  obtain ⟨rest, rfl⟩ := hpre
  cases rest using List.reverseRecOn with
  | nil => exact (List.append_nil pre).symm
  | append_singleton rest last _ =>
    have hlater := (maxSeq_splits h).2 last (by simp)
    rw [← List.append_assoc] at hreach h
    rw [maxSeq_concat] at hreach
    · omega
    · intro earlier hearlier
      exact (List.pairwise_append.mp h.ordered).2.2 earlier hearlier last (by simp)

/-- What a reader sees of a log up to the end of its first part, and after it. -/
theorem iterEvents_parts {pre rest : List StoredEvent} (h : Ascends (pre ++ rest)) :
    iterEvents (pre ++ rest) (some (maxSeq pre)) none = pre ∧
      iterEvents (pre ++ rest) none (some (maxSeq pre)) = rest := by
  obtain ⟨hpre, hrest⟩ := maxSeq_splits h
  unfold iterEvents
  rw [h.selected_all, h.selected_through]
  constructor
  · rw [List.filter_eq_self.mpr fun _ _ => rfl, List.filter_append,
      List.filter_eq_self.mpr fun event hevent => by simpa using hpre event hevent,
      List.filter_eq_nil_iff.mpr fun event hevent => by simpa using hrest event hevent,
      List.append_nil]
  · dsimp only
    rw [List.filter_append,
      List.filter_eq_nil_iff.mpr fun event hevent => by simpa using hpre event hevent,
      List.filter_eq_self.mpr fun event hevent => by simpa using hrest event hevent,
      List.nil_append]

end

/-! ## Roots -/

/-- The root of a list of events, hashed at once. -/
def logRoot (events : List StoredEvent) : String := hex (merkleTreeHash (events.map leafHash))

/-- The streamed root of events in order is the one hashed at once. -/
theorem rootThrough_ok {events : List StoredEvent} {throughSeq : Option Int}
    (h : (iterEvents events throughSeq none).Pairwise fun a b => a.seq < b.seq) :
    rootThrough events throughSeq = .ok (logRoot (iterEvents events throughSeq none)) := by
  obtain ⟨running, blocks, hfold, hcommitted⟩ := addAll_folds _ h
  unfold rootThrough
  rw [hfold]
  exact congrArg Except.ok (congrArg hex hcommitted.accumulates.root)

theorem rootThrough_all {events : List StoredEvent} (h : Ascends events) :
    rootThrough events none = .ok (logRoot events) := by
  have hall : iterEvents events none none = events := by
    unfold iterEvents
    rw [h.selected_all]
    exact List.filter_eq_self.mpr fun _ _ => rfl
  have hroot := @rootThrough_ok _ events none (by rw [hall]; exact h.ordered)
  rw [hall] at hroot
  exact hroot

/-- The accumulator holds the first part of a log. -/
def LiveCheckpoint.Follows (live : LiveCheckpoint) (pre : List StoredEvent) : Prop :=
  (∃ blocks, live.running.Folds pre blocks) ∧ live.through = maxSeq pre

theorem LiveCheckpoint.Follows.root {live : LiveCheckpoint} {pre : List StoredEvent}
    (h : live.Follows pre) : live.running.rootHex = logRoot pre := by
  obtain ⟨blocks, hfolds⟩ := h.1
  exact congrArg hex hfolds.accumulates.root

theorem LiveCheckpoint.follows_nil : LiveCheckpoint.Follows {} [] :=
  ⟨⟨[], MerkleTree.Accumulates.nil nodeHash (sha256 []), rfl, fun _ hlast => by cases hlast⟩, rfl⟩

/-- The rest of the log is folded in as a whole. -/
theorem LiveCheckpoint.Follows.fold {live : LiveCheckpoint} {pre rest : List StoredEvent}
    (h : live.Follows pre) (hlog : Ascends (pre ++ rest)) :
    ∃ live', live.fold rest = (live', .ok ()) ∧ live'.Follows (pre ++ rest) := by
  induction rest generalizing live pre with
  | nil =>
    rw [List.append_nil]
    exact ⟨live, rfl, h⟩
  | cons event rest ih =>
    have hearlier : ∀ earlier ∈ pre, earlier.seq < event.seq := fun earlier hmem =>
      (List.pairwise_append.mp hlog.ordered).2.2 earlier hmem event List.mem_cons_self
    obtain ⟨⟨blocks, hfolds⟩, -⟩ := h
    obtain ⟨running, blocks', hadd, hnext⟩ := hfolds.add hearlier
    have hfollows : LiveCheckpoint.Follows ⟨running, event.seq⟩ (pre ++ [event]) :=
      ⟨⟨blocks', hnext⟩, (maxSeq_concat hearlier).symm⟩
    rw [List.append_cons] at hlog ⊢
    obtain ⟨live', hfold, hlive'⟩ := ih hfollows hlog
    refine ⟨live', ?_, hlive'⟩
    unfold LiveCheckpoint.fold
    rw [hadd]
    exact hfold

/-! ## The table of checkpoints -/

/-- The checkpoint attests to exactly these events. -/
structure MerkleCheckpoint.Attests (checkpoint : MerkleCheckpoint) (events : List StoredEvent) :
    Prop where
  seq : checkpoint.seq = maxSeq events
  root : checkpoint.root = logRoot events

/-- The rows of the table are in order, and the latest one attests to a first part of the log. -/
structure MerkleCheckpointStore.Anchors (store : MerkleCheckpointStore)
    (anchored : Option (List StoredEvent)) (events : List StoredEvent) : Prop where
  ordered : store.checkpoints.Pairwise fun a b => a.seq < b.seq
  fresh : anchored = none → store.checkpoints = []
  attested : ∀ pre, anchored = some pre → pre <+: events ∧
    ∃ checkpoint, store.checkpoints.getLast? = some checkpoint ∧ checkpoint.Attests pre

omit [Builtins] in
theorem MerkleCheckpointStore.latest_eq {store : MerkleCheckpointStore}
    (h : store.checkpoints.Pairwise fun a b => a.seq < b.seq) :
    store.latest = store.checkpoints.getLast? := by
  unfold MerkleCheckpointStore.latest
  rw [sortedBy_eq_self]
  refine h.imp ?_
  intro a b hlt
  rw [decide_eq_false_iff_not]
  omega

/-- Anchoring the whole log. -/
theorem MerkleCheckpointStore.Anchors.append {store : MerkleCheckpointStore}
    {anchored : Option (List StoredEvent)} {events : List StoredEvent}
    (h : store.Anchors anchored events) (hlog : Ascends events) {seq : Int} {root : String}
    (hseq : seq = maxSeq events) (hroot : root = logRoot events) (now : Float) :
    ∃ store' checkpoint, store.append seq root now = (store', checkpoint) ∧
      checkpoint.Attests events ∧ store'.Anchors (some events) events := by
  subst hseq hroot
  unfold MerkleCheckpointStore.append
  dsimp only
  rw [MerkleCheckpointStore.latest_eq h.ordered]
  -- a new row goes to the end
  have hinsert : ∀ (checkpoint : MerkleCheckpoint), checkpoint.Attests events →
      (∀ earlier ∈ store.checkpoints, earlier.seq < checkpoint.seq) →
      (⟨store.checkpoints ++ [checkpoint]⟩ : MerkleCheckpointStore).Anchors (some events) events := by
    intro checkpoint hattests hearlier
    refine ⟨?_, fun hnone => (by cases hnone), ?_⟩
    · refine List.pairwise_append.mpr ⟨h.ordered, List.pairwise_singleton _ _, ?_⟩
      intro earlier hmem last hlast
      rw [List.mem_singleton.mp hlast]
      exact hearlier earlier hmem
    · intro pre hpre
      cases hpre
      exact ⟨List.prefix_refl _, checkpoint, List.getLast?_concat, hattests⟩
  cases anchored with
  | none =>
    have hempty := h.fresh rfl
    rw [hempty] at hinsert ⊢
    exact ⟨_, _, rfl, ⟨rfl, rfl⟩, hinsert _ ⟨rfl, rfl⟩ (by simp)⟩
  | some pre =>
    obtain ⟨hpre, latest, hlatest, hattests⟩ := h.attested pre rfl
    rw [hlatest]
    dsimp only
    split
    · -- the log has not advanced: what was anchored is all of it
      rename_i hreach
      rw [hattests.seq] at hreach
      have hsame := eq_of_maxSeq hlog hpre hreach
      subst hsame
      exact ⟨store, latest, rfl, hattests, h⟩
    · rename_i hadvanced
      refine ⟨_, _, rfl, ⟨rfl, rfl⟩, hinsert _ ⟨rfl, rfl⟩ ?_⟩
      intro earlier hmem
      have hle : earlier.seq ≤ latest.seq := by
        obtain ⟨before, hbefore⟩ := List.getLast?_eq_some_iff.mp hlatest
        rw [hbefore] at hmem
        rcases List.mem_append.mp hmem with hfirst | hlast
        · have hordered := h.ordered
          rw [hbefore] at hordered
          exact ((List.pairwise_append.mp hordered).2.2 earlier hfirst latest (by simp)).le
        · rw [List.mem_singleton.mp hlast]
      show earlier.seq < maxSeq events
      omega

/-- A live anchor folds the rest of the log, and attests to all of it. -/
theorem LiveCheckpoint.Follows.anchor {live : LiveCheckpoint} {pre events : List StoredEvent}
    (h : live.Follows pre) (hlog : Ascends events) (hpre : pre <+: events)
    {store : MerkleCheckpointStore} {anchored : Option (List StoredEvent)}
    (hstore : store.Anchors anchored events) (now : Float) :
    ∃ live' store' checkpoint, live.anchor store events now = (live', store', .ok checkpoint) ∧
      live'.Follows events ∧ checkpoint.Attests events ∧ store'.Anchors (some events) events := by
  obtain ⟨rest, rfl⟩ := hpre
  obtain ⟨live', hfold, hlive'⟩ := h.fold hlog
  obtain ⟨store', checkpoint, happend, hattests, hstore'⟩ :=
    hstore.append hlog hlive'.2 hlive'.root now
  refine ⟨live', store', checkpoint, ?_, hlive', hattests, hstore'⟩
  unfold LiveCheckpoint.anchor
  rw [h.2, (iterEvents_parts hlog).2, hfold]
  dsimp only
  rw [happend]

theorem MerkleCheckpointStore.Anchors.verify {store : MerkleCheckpointStore}
    {anchored : Option (List StoredEvent)} {events log : List StoredEvent}
    (h : store.Anchors anchored events) (hlog : Ascends log)
    (hpart : ∀ pre, anchored = some pre → pre <+: log) : store.verify log = .ok () := by
  unfold MerkleCheckpointStore.verify
  rw [MerkleCheckpointStore.latest_eq h.ordered]
  cases anchored with
  | none =>
    rw [h.fresh rfl]
    rfl
  | some pre =>
    obtain ⟨-, latest, hlatest, hattests⟩ := h.attested pre rfl
    obtain ⟨rest, rfl⟩ := hpart pre rfl
    have hreach : ¬ maxSeq (pre ++ rest) < maxSeq pre := by
      intro hcut
      cases rest using List.reverseRecOn with
      | nil =>
        rw [List.append_nil] at hcut
        omega
      | append_singleton rest last _ =>
        have hlater := (maxSeq_splits hlog).2 last (by simp)
        rw [← List.append_assoc] at hcut hlog
        rw [maxSeq_concat] at hcut
        · omega
        · intro earlier hearlier
          exact (List.pairwise_append.mp hlog.ordered).2.2 earlier hearlier last (by simp)
    have hparts := (iterEvents_parts hlog).1
    have hroot := @rootThrough_ok _ (pre ++ rest) (some (maxSeq pre))
      (by rw [hparts]; exact (hlog.of_prefix (List.prefix_append _ _)).ordered)
    rw [hparts] at hroot
    rw [hlatest]
    dsimp only
    rw [hattests.seq, if_neg hreach, hroot, hattests.root]
    show (if logRoot pre ≠ logRoot pre then _ else _) = _
    rw [if_neg (by simp)]
    rfl

/-! ## Runs -/

/-- A journal whose sequences were drawn by its counter. -/
structure Journalled (journal : EventStore) : Prop where
  ascends : Ascends journal.events
  bounded : ∀ event ∈ journal.events, event.seq ≤ journal.lastSeq
  nonneg : 0 ≤ journal.lastSeq

omit [Builtins] in
theorem Journalled.insertEvent {journal : EventStore} (h : Journalled journal) (ts : Float)
    (kind : String) (payload : Members) : Journalled (journal.insertEvent ts kind payload).1 := by
  have hpositive := h.nonneg
  refine ⟨⟨?_, ?_⟩, ?_, ?_⟩
  · refine List.pairwise_append.mpr ⟨h.ascends.ordered, List.pairwise_singleton _ _, ?_⟩
    intro earlier hmem last hlast
    rw [List.mem_singleton.mp hlast]
    have hle := h.bounded earlier hmem
    show earlier.seq < journal.lastSeq + 1
    omega
  · intro event hmem
    rcases List.mem_append.mp hmem with hold | hnew
    · exact h.ascends.positive event hold
    · rw [List.mem_singleton.mp hnew]
      show 0 < journal.lastSeq + 1
      omega
  · intro event hmem
    show event.seq ≤ journal.lastSeq + 1
    rcases List.mem_append.mp hmem with hold | hnew
    · have hle := h.bounded event hold
      omega
    · rw [List.mem_singleton.mp hnew]
  · show 0 ≤ journal.lastSeq + 1
    omega

namespace CheckpointedHub

/-- What every anchor relies on. -/
structure Sound (h : CheckpointedHub) : Prop where
  journal : Journalled h.journal
  store : h.store.Anchors h.anchored h.journal.events
  live : ∀ live, h.live = some live → ∃ pre, pre <+: h.journal.events ∧ live.Follows pre

theorem sound_next {h : CheckpointedHub} (hs : h.Sound) (i : CheckpointStep) : (h.step i).Sound := by
  have hlog := hs.journal.ascends
  cases i with
  | append ts kind payload =>
    have hgrows : h.journal.events <+: (h.journal.insertEvent ts kind payload).1.events :=
      List.prefix_append _ _
    refine ⟨hs.journal.insertEvent ts kind payload, ⟨hs.store.ordered, hs.store.fresh, ?_⟩, ?_⟩
    · intro pre hpre
      obtain ⟨hpart, hattested⟩ := hs.store.attested pre hpre
      exact ⟨hpart.trans hgrows, hattested⟩
    · intro live hlive
      obtain ⟨pre, hpart, hfollows⟩ := hs.live live hlive
      exact ⟨pre, hpart.trans hgrows, hfollows⟩
  | anchor now =>
    unfold step
    dsimp only
    cases hlive : h.live with
    | none => exact hs
    | some live =>
      obtain ⟨pre, hpre, hfollows⟩ := hs.live live hlive
      obtain ⟨live', store', checkpoint, hanchor, hlive', -, hstore'⟩ :=
        hfollows.anchor hlog hpre hs.store now
      dsimp only
      rw [hanchor]
      refine ⟨hs.journal, hstore', ?_⟩
      intro other hother
      cases hother
      exact ⟨_, List.prefix_refl _, hlive'⟩
  | attest now =>
    obtain ⟨store', checkpoint, happend, -, hstore'⟩ := hs.store.append hlog rfl rfl now
    have hanchor : h.store.anchor h.journal.events now = .ok (store', checkpoint) := by
      unfold MerkleCheckpointStore.anchor
      rw [rootThrough_all hlog]
      exact congrArg Except.ok happend
    unfold step
    dsimp only
    rw [hanchor]
    refine ⟨hs.journal, hstore', ?_⟩
    intro live hlive
    exact hs.live live hlive
  | stop =>
    refine ⟨hs.journal, hs.store, ?_⟩
    intro live hlive
    cases hlive
  | start now =>
    have hverify := hs.store.verify hlog fun pre hpre => (hs.store.attested pre hpre).1
    obtain ⟨live', store', checkpoint, hanchor, hlive', -, hstore'⟩ :=
      LiveCheckpoint.follows_nil.anchor hlog List.nil_prefix hs.store now
    unfold step openCheckpoint
    rw [hverify]
    dsimp only
    rw [hanchor]
    refine ⟨hs.journal, hstore', ?_⟩
    intro other hother
    cases hother
    exact ⟨_, List.prefix_refl _, hlive'⟩

/-- A hub over a journal that was never anchored. -/
def onJournal (journal : EventStore) : CheckpointedHub := { journal }

theorem sound_onJournal {journal : EventStore} (h : Journalled journal) : (onJournal journal).Sound := by
  refine ⟨h, ⟨List.Pairwise.nil, fun _ => rfl, ?_⟩, ?_⟩
  · intro pre hpre
    cases hpre
  · intro live hlive
    cases hlive

end CheckpointedHub

/-! ## Tampering -/

/-- The messages that are hashed for the root of a log. -/
def logMessages (events : List StoredEvent) : List Bytes :=
  [] :: (events.map (fun event => leafPrefix :: canonicalEventBytes event) ++
    (MerkleTree.treeNodes nodeHash (sha256 []) (events.map leafHash)).map nodeMessage)

/-- SHA-256 has no collision between two logs. -/
def LogsCollisionFree (first second : List StoredEvent) : Prop :=
  ∀ m ∈ logMessages first, ∀ m' ∈ logMessages second, sha256 m = sha256 m' → m = m'

/-- Two rows of one content: a payload is read as a mapping. -/
structure SameEvent (event other : StoredEvent) : Prop where
  seq : event.seq = other.seq
  ts : event.ts = other.ts
  kind : event.kind = other.kind
  payload : keySorted (.obj event.payload) = keySorted (.obj other.payload)

theorem sameEvent_of_bytes (hfloats : FloatsSpelled) {event other : StoredEvent}
    (h : canonicalEventBytes event = canonicalEventBytes other) : SameEvent event other := by
  have htext := dumps_inj hfloats (Framing.utf8_inj h)
  rw [keySorted_obj, keySorted_obj, map_sortedBy _ _ _ Prod.fst _ fun _ _ => rfl,
    map_sortedBy _ _ _ Prod.fst _ fun _ _ => rfl] at htext
  have hperm := (sortedBy_perm (fun a b => decide (a < b)) Prod.fst _).symm.trans
    ((Json.obj.inj htext) ▸ sortedBy_perm (fun a b => decide (a < b)) Prod.fst _)
  -- each name stands once, so each member is found under its own
  have hfield : ∀ name value, (name, value) ∈ List.map (fun m : String × Json => (m.1, keySorted m.2))
      [("seq", .int event.seq), ("ts", .float event.ts), ("kind", .str event.kind),
        ("payload", .obj event.payload)] →
      (name, value) ∈ List.map (fun m : String × Json => (m.1, keySorted m.2))
        [("seq", .int other.seq), ("ts", .float other.ts), ("kind", .str other.kind),
          ("payload", .obj other.payload)] := fun name value hmem =>
        hperm.symm.subset hmem
  have hseq := hfield "seq" (keySorted (.int event.seq)) (by simp)
  have hts := hfield "ts" (keySorted (.float event.ts)) (by simp)
  have hkind := hfield "kind" (keySorted (.str event.kind)) (by simp)
  have hpayload := hfield "payload" (keySorted (.obj event.payload)) (by simp)
  simp at hseq hts hkind hpayload
  refine ⟨?_, ?_, ?_, hpayload⟩
  · simpa [keySorted] using hseq
  · simpa [keySorted] using hts
  · simpa [keySorted] using hkind

/-- The hashes of two logs without a collision meet only where what is hashed is the same. -/
theorem LogsCollisionFree.apart (hsha : Sha256Spelled) {first second : List StoredEvent}
    (h : LogsCollisionFree first second) :
    MerkleTree.Apart nodeHash (sha256 []) (first.map leafHash) (second.map leafHash) := by
  have hleaf : ∀ (events : List StoredEvent), ∀ x ∈ events.map leafHash,
      ∃ content ∈ events.map canonicalEventBytes, x = sha256 (leafPrefix :: content) := by
    intro events x hx
    obtain ⟨event, hevent, rfl⟩ := List.mem_map.mp hx
    exact ⟨_, List.mem_map_of_mem hevent, rfl⟩
  have hmessages : ∀ (events : List StoredEvent),
      hashedMessages (events.map canonicalEventBytes) (events.map leafHash) = logMessages events := by
    intro events
    rw [hashedMessages, logMessages, List.map_map]
    rfl
  refine apart_of_collisionFree hsha (hleaf first) (hleaf second) ?_
  rw [hmessages, hmessages]
  exact h

theorem same_of_logRoot (hsha : Sha256Spelled) (hfloats : FloatsSpelled)
    {first second : List StoredEvent} (hfree : LogsCollisionFree first second)
    (h : logRoot first = logRoot second) : List.Forall₂ SameEvent first second := by
  have hleaves := MerkleTree.treeHash_inj nodeHash (sha256 []) (hfree.apart hsha) (hex_inj h)
  have hsame : ∀ event ∈ first, ∀ other ∈ second, leafHash event = leafHash other →
      SameEvent event other := by
    intro event hevent other hother hhash
    have hmessage := hfree _
      (List.mem_cons_of_mem _ (List.mem_append_left _ (List.mem_map_of_mem hevent))) _
      (List.mem_cons_of_mem _ (List.mem_append_left _ (List.mem_map_of_mem hother))) hhash
    exact sameEvent_of_bytes hfloats (List.cons.inj hmessage).2
  clear h hfree
  induction first generalizing second with
  | nil =>
    have hnil : second = [] := by
      cases second with
      | nil => rfl
      | cons other rest => cases hleaves
    subst hnil
    exact .nil
  | cons event first ih =>
    cases second with
    | nil => cases hleaves
    | cons other second =>
      obtain ⟨hhead, htail⟩ := List.cons.inj hleaves
      refine .cons (hsame event List.mem_cons_self other List.mem_cons_self hhead) (ih htail ?_)
      intro e he o ho
      exact hsame e (List.mem_cons_of_mem _ he) o (List.mem_cons_of_mem _ ho)

/-- A log that differs at or below the anchored sequence, or ends before it, is refused. -/
theorem MerkleCheckpointStore.Anchors.refuses (hsha : Sha256Spelled) (hfloats : FloatsSpelled)
    {store : MerkleCheckpointStore} {pre events log : List StoredEvent}
    (h : store.Anchors (some pre) events) (hlog : (log.map StoredEvent.seq).Nodup)
    (hfree : LogsCollisionFree (selectedEvents log (some (maxSeq pre))) pre)
    (htampered : maxSeq log < maxSeq pre ∨
      ¬ List.Forall₂ SameEvent (selectedEvents log (some (maxSeq pre))) pre) :
    ∃ e, store.verify log = .error e := by
  obtain ⟨-, latest, hlatest, hattests⟩ := h.attested pre rfl
  unfold MerkleCheckpointStore.verify
  rw [MerkleCheckpointStore.latest_eq h.ordered, hlatest]
  dsimp only
  rw [hattests.seq, hattests.root]
  by_cases hcut : maxSeq log < maxSeq pre
  · rw [if_pos hcut]
    exact ⟨_, rfl⟩
  · rw [if_neg hcut]
    have hall : iterEvents log (some (maxSeq pre)) none = selectedEvents log (some (maxSeq pre)) :=
      List.filter_eq_self.mpr fun _ _ => rfl
    have hroot := @rootThrough_ok _ log (some (maxSeq pre))
      (by rw [hall]; exact selectedEvents_ascending hlog _)
    rw [hall] at hroot
    rw [hroot]
    have hdiffers : logRoot (selectedEvents log (some (maxSeq pre))) ≠ logRoot pre := by
      intro hsame
      rcases htampered with hshort | hchanged
      · exact hcut hshort
      · exact hchanged (same_of_logRoot hsha hfloats hfree hsame)
    refine ⟨_, if_pos hdiffers⟩

/-- The anti-rollback checkpoint is exact. In every state that appends, anchors and restarts reach,
an anchor of the serving hub, or of one that starts, has the root of the whole log; the log as it was at the latest anchor is
verified with whatever was appended to it; and a log that was cut below the anchored sequence, or
that differs at or below it, is refused. -/
theorem anti_rollback (hsha : Sha256Spelled) (hfloats : FloatsSpelled) {journal : EventStore}
    (hjournal : Journalled journal) (steps : List CheckpointStep) :
    let h := Trace.run CheckpointedHub.step (CheckpointedHub.onJournal journal) steps
    (∀ live, h.live = some live ∨ live = {} → ∀ now, ∃ live' store' checkpoint,
      live.anchor h.store h.journal.events now = (live', store', .ok checkpoint) ∧
        checkpoint.root = live'.running.rootHex ∧ checkpoint.seq = maxSeq h.journal.events ∧
        rootThrough h.journal.events none = .ok live'.running.rootHex) ∧
    ∀ anchored, h.anchored = some anchored →
      (∀ appended, Ascends (anchored ++ appended) →
        h.store.verify (anchored ++ appended) = .ok ()) ∧
      ∀ log, (log.map StoredEvent.seq).Nodup →
        LogsCollisionFree (selectedEvents log (some (maxSeq anchored))) anchored →
        (maxSeq log < maxSeq anchored ∨
          ¬ List.Forall₂ SameEvent (selectedEvents log (some (maxSeq anchored))) anchored) →
        ∃ e, h.store.verify log = .error e := by
  intro h
  have hs : h.Sound := Trace.invariant _ (P := CheckpointedHub.Sound)
    (fun _ i hs => CheckpointedHub.sound_next hs i) (CheckpointedHub.sound_onJournal hjournal) steps
  have hlog := hs.journal.ascends
  constructor
  · intro live hlive now
    obtain ⟨pre, hpre, hfollows⟩ : ∃ pre, pre <+: h.journal.events ∧ live.Follows pre := by
      rcases hlive with hserving | rfl
      · exact hs.live live hserving
      · exact ⟨[], List.nil_prefix, LiveCheckpoint.follows_nil⟩
    obtain ⟨live', store', checkpoint, hanchor, hlive', hattests, -⟩ :=
      hfollows.anchor hlog hpre hs.store now
    refine ⟨live', store', checkpoint, hanchor, hattests.root.trans hlive'.root.symm, hattests.seq,
      ?_⟩
    rw [rootThrough_all hlog, hlive'.root]
  · intro anchored hanchored
    have hstore := hs.store
    rw [hanchored] at hstore
    refine ⟨?_, ?_⟩
    · intro appended happended
      refine hstore.verify happended ?_
      intro pre hpre
      cases hpre
      exact List.prefix_append _ _
    · intro log hdistinct hfree htampered
      exact hstore.refuses hsha hfloats hdistinct hfree htampered

omit [Builtins] in
theorem anti_rollback_changed_kind :
    letI := Builtins.numeric
    let h := Trace.run CheckpointedHub.step (CheckpointedHub.onJournal {})
      [.append 0 "chat" [], .attest 0]
    h.store.verify [⟨1, 0, "chat", []⟩] = .ok () ∧
      ∃ e, h.store.verify [⟨1, 0, "claim", []⟩] = .error e := by
  let _ : Builtins := Builtins.numeric
  have hjournal : Journalled {} := ⟨⟨.nil, by simp⟩, by simp, le_refl _⟩
  obtain ⟨-, hanchored⟩ := anti_rollback sha256Spelled_numeric floatsSpelled_numeric hjournal
    [.append 0 "chat" [], .attest 0]
  have hlog : (Trace.run CheckpointedHub.step (CheckpointedHub.onJournal {})
      [.append 0 "chat" [], .attest 0]).anchored = some [⟨1, 0, "chat", []⟩] := rfl
  obtain ⟨hverified, hrefused⟩ := hanchored _ hlog
  have hselected : selectedEvents [⟨1, 0, "claim", []⟩] (some (maxSeq [⟨1, 0, "chat", []⟩])) =
      [⟨1, 0, "claim", []⟩] := rfl
  refine ⟨hverified [] ⟨List.pairwise_singleton _ _, by simp⟩, hrefused _ (by simp) ?_ (.inr ?_)⟩
  · rw [hselected]
    have hmessages : ∀ event, logMessages [event] =
        [[], leafPrefix :: canonicalEventBytes event] := by
      intro event
      simp [logMessages, MerkleTree.treeNodes]
    intro m hm m' hm'
    rw [hmessages] at hm hm'
    revert m m'
    decide +kernel
  · rw [hselected]
    intro hsame
    cases hsame with
    | cons hsame _ =>
      have hkind := hsame.kind
      revert hkind
      decide

/-- In every state that appends, anchors and restarts reach, an event at or below the latest anchor
has an inclusion proof against the anchored root, however much was appended since. -/
theorem anchored_events_proved {journal : EventStore} (hjournal : Journalled journal)
    (steps : List CheckpointStep) :
    let h := Trace.run CheckpointedHub.step (CheckpointedHub.onJournal journal) steps
    ∀ checkpoint, h.store.latest = some checkpoint →
      ∀ event ∈ h.journal.events, event.seq ≤ checkpoint.seq →
        ∃ proof, buildProof h.journal.events event.seq (some checkpoint.seq) = some proof ∧
          proof.root = checkpoint.root ∧ verifyInclusion proof = .ok true := by
  intro h checkpoint hlatest event hevent hle
  have hs : h.Sound := Trace.invariant _ (P := CheckpointedHub.Sound)
    (fun _ i hs => CheckpointedHub.sound_next hs i) (CheckpointedHub.sound_onJournal hjournal) steps
  have hlog := hs.journal.ascends
  rw [MerkleCheckpointStore.latest_eq hs.store.ordered] at hlatest
  cases hanchored : h.anchored with
  | none =>
    rw [hs.store.fresh hanchored] at hlatest
    cases hlatest
  | some pre =>
    obtain ⟨⟨rest, hrest⟩, latest, hlast, hattests⟩ := hs.store.attested pre hanchored
    obtain rfl := Option.some.inj (hlatest.symm.trans hlast)
    -- what was selected for the anchor is still what is selected at its sequence
    have hselected : selectedEvents h.journal.events (some checkpoint.seq) = pre := by
      have hparts := (iterEvents_parts (hrest ▸ hlog)).1
      rw [hrest, ← hattests.seq] at hparts
      exact (List.filter_eq_self.mpr fun _ _ => rfl).symm.trans hparts
    have hmem : event ∈ selectedEvents h.journal.events (some checkpoint.seq) := by
      rw [hlog.selected_through]
      exact List.mem_filter.mpr ⟨hevent, decide_eq_true hle⟩
    obtain ⟨proof, hbuilt, hroot, hverified⟩ := buildProof_verifies hmem
    rw [hselected] at hroot
    exact ⟨proof, hbuilt, hroot.trans hattests.root.symm, hverified⟩

omit [Builtins] in
theorem anchored_events_proved_grown :
    letI := Builtins.numeric
    let h := Trace.run CheckpointedHub.step (CheckpointedHub.onJournal {})
      [.append 0 "chat" [], .attest 0, .append 0 "claim" []]
    ∃ checkpoint proof, buildProof h.journal.events 1 (some 1) = some proof ∧
      h.store.latest = some checkpoint ∧ proof.root = checkpoint.root := by
  let _ : Builtins := Builtins.numeric
  have hjournal : Journalled {} := ⟨⟨.nil, by simp⟩, by simp, le_refl _⟩
  have hlatest : (Trace.run CheckpointedHub.step (CheckpointedHub.onJournal {})
      [.append 0 "chat" [], .attest 0, .append 0 "claim" []]).store.latest.map
        MerkleCheckpoint.seq = some 1 := rfl
  obtain ⟨checkpoint, hfound, hseq⟩ := Option.map_eq_some_iff.mp hlatest
  obtain ⟨proof, hbuilt, hroot, -⟩ := anchored_events_proved hjournal
    [.append 0 "chat" [], .attest 0, .append 0 "claim" []] checkpoint hfound ⟨1, 0, "chat", []⟩
    (List.mem_cons_self) (by rw [hseq])
  rw [hseq] at hbuilt
  exact ⟨checkpoint, proof, hbuilt, hfound, hroot⟩

end SynapseChannel
