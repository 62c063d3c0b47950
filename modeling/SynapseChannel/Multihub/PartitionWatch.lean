import SynapseChannel.Multihub.NamespaceOwnership
import SynapseChannel.Multihub.QuarantineJournal

/-!
# Multihub — PartitionWatch

The standing watch: it polls the configured peers, holds the view of who
asserts authority over which namespace, journals every partition it enters
and every heal, and starts again from the journal.
-/

namespace SynapseChannel

open Py

variable [Builtins]

/-! ## The journal's rows -/

def EventKind.multihubPartition : String := "multihub_partition"

def EventKind.multihubHeal : String := "multihub_heal"

/-- `_UNVERIFIED_PARTITION_CONTESTER`. -/
def unverifiedPartitionContester : String := "<unverified-persisted-contester>"

/-- The texts of a set, sorted. -/
def sortedTexts (texts : Finset String) : List String := texts.sort (· ≤ ·)

/-- The contestants a row names, once each and in order. -/
def restoredContesting (items : List Json) : List String :=
  let named := sortedTexts
    ((items.map fun hub => strip hub.toStr).filter (· ≠ "")).toFinset
  if named.isEmpty then [unverifiedPartitionContester] else named

/-- One row of the fold. -/
def restorePartitionRow (active : Dict String (List String)) (event : StoredEvent) :
    Dict String (List String) :=
  let name := strippedText event.payload "namespace"
  if event.kind = EventKind.multihubHeal then
    if name = "" then active
    else
      match event.payload.get "observation_refreshed" with
      | .bool true => active.erase name
      | _ => active
  else if event.kind = EventKind.multihubPartition then
    if name = "" then active
    else
      match event.payload.get "contesting_hubs" with
      | .arr items => active.set name (restoredContesting items)
      | _ => active.set name [unverifiedPartitionContester]
  else active

/-- `restore_active_multihub_partitions`. -/
def restoreActiveMultihubPartitions (store : EventStore) : Dict String (List String) :=
  store.events.foldl restorePartitionRow Dict.empty

def OwnershipOutcome.value : OwnershipOutcome → String
  | .local => "local"
  | .remote => "remote"
  | .ungoverned => "ungoverned"
  | .partitioned => "partitioned"

/-! ## The watch -/

/-- A name that survives the command line: stripped, and not empty. -/
def Stripped (name : String) : Prop := name ≠ "" ∧ strip name = name

/-- The peers to poll, in order. -/
abbrev WatchPeers := { peers : List String // ∀ peer ∈ peers, Stripped peer }

/-- An ownership map whose namespaces the command line has read. -/
structure WatchOwnership extends NamespaceOwnership where
  stripped : ∀ name owner, owners.get? name = some owner → Stripped name

omit [Builtins] in
/-- `value.partition("=")`; `none` where there is no `=`. -/
def splitAssignment (value : String) : Option (String × String) :=
  let cs := value.toList
  if cs.contains '=' then
    some (String.ofList (cs.takeWhile (· ≠ '=')),
      String.ofList ((cs.dropWhile (· ≠ '=')).drop 1))
  else none

/-- Read repeatable `NAME=VALUE` arguments of a flag; `usable` is a further
check of a pair, `taken` the message for a repeated name. -/
def parseAssignments (flag form : String) (usable : String → String → Except String Unit)
    (taken : String → String) : List String → Dict String String → Except String (Dict String String)
  | [], parsed => .ok parsed
  | value :: rest, parsed =>
    let named := (splitAssignment value).getD (value, "")
    let name := strip named.1
    let assigned := strip named.2
    if name = "" ∨ assigned = "" then
      let shown := Builtins.repr (.str value)
      .error s!"{flag} must use {form}, got {shown}"
    else
      match usable name assigned with
      | .error message => .error message
      | .ok _ =>
        if parsed.contains name then .error (taken (Builtins.repr (.str name)))
        else parseAssignments flag form usable taken rest (parsed.set name assigned)

/-- `_parse_namespace_owners`. -/
def parseNamespaceOwners (values : List String) : Except String (Dict String String) :=
  parseAssignments "--namespace-owner" "NS=HUB_ID" (fun _ _ => .ok ())
    (fun name => s!"--namespace-owner names namespace {name} twice") values .empty

/-- `parse_watch_peers`; `requirePeerUri` is the check of a URI. -/
def parseWatchPeers (requirePeerUri : String → String → Except String Unit)
    (values : List String) : Except String (Dict String String) :=
  parseAssignments "--multihub-watch" "PEER=URI" requirePeerUri
    (fun peer => s!"--multihub-watch names peer {peer} twice") values .empty

/-- The names that are read are stripped, and none is empty. -/
theorem parseAssignments_stripped {flag form : String}
    {usable : String → String → Except String Unit} {taken : String → String}
    {values : List String} {parsed result : Dict String String}
    (hparsed : ∀ name value, parsed.get? name = some value → Stripped name)
    (h : parseAssignments flag form usable taken values parsed = .ok result) :
    ∀ name value, result.get? name = some value → Stripped name := by
  induction values generalizing parsed with
  | nil =>
    cases h
    exact hparsed
  | cons value rest ih =>
    unfold parseAssignments at h
    dsimp only at h
    split at h
    · cases h
    · rename_i hnamed
      rw [not_or] at hnamed
      split at h
      · cases h
      · split at h
        · cases h
        · refine ih ?_ h
          intro name assigned hget
          rw [Dict.get?_set] at hget
          split at hget
          · rename_i heq
            exact heq ▸ ⟨hnamed.1, strip_strip _⟩
          · exact hparsed name assigned hget

theorem parseNamespaceOwners_stripped {values : List String} {owners : Dict String String}
    (h : parseNamespaceOwners values = .ok owners) :
    ∀ name owner, owners.get? name = some owner → Stripped name := by
  refine parseAssignments_stripped ?_ h
  intro name value hget
  cases hget

theorem parseWatchPeers_stripped {requirePeerUri : String → String → Except String Unit}
    {values : List String} {peers : Dict String String}
    (h : parseWatchPeers requirePeerUri values = .ok peers) :
    ∀ peer ∈ peers.keys, Stripped peer := by
  intro peer hmem
  obtain ⟨uri, huri⟩ := Option.ne_none_iff_exists'.mp ((peers.mem_keys_iff peer).mp hmem)
  refine parseAssignments_stripped ?_ h peer uri huri
  intro name value hget
  cases hget

/-- The ownership map of the arguments. -/
def WatchOwnership.ofArgs (values : List String) (localHubId : String) :
    Except String WatchOwnership :=
  match h : parseNamespaceOwners values with
  | .error message => .error message
  | .ok owners => .ok { owners, localHubId, stripped := parseNamespaceOwners_stripped h }

/-- The peers of the arguments. -/
def WatchPeers.ofArgs (requirePeerUri : String → String → Except String Unit)
    (values : List String) : Except String WatchPeers :=
  match h : parseWatchPeers requirePeerUri values with
  | .error message => .error message
  | .ok peers => .ok ⟨peers.keys, parseWatchPeers_stripped h⟩

structure Watch where
  ownership : WatchOwnership
  peers : WatchPeers
  /-- The follower and the journal it shares with the watch. -/
  source : JournalledFollower
  /-- The active partitions, with their contestants. -/
  partitioned : Dict String (List String)
  assertions : Dict String (Finset String)

/-- What a peer's fetch does. -/
inductive Fetched where
  | events (rows : List StoredEvent)
  /-- It raises the transport's error. -/
  | failed
  /-- It raises anything else, or is cancelled. -/
  | escaped

inductive Polled where
  | answered
  | failed
  /-- The round is over: what was raised is not absorbed. -/
  | escaped
  deriving DecidableEq

/-- What a round's polls came to. -/
structure RoundPolls where
  answered : Bool := false
  failed : List String := []

namespace Watch

/-- `follower.poll`, and the evidence of an equivocation in the journal. -/
def poll (s : JournalledFollower) (peer : String) (fetched : Fetched) (now : Float) :
    JournalledFollower × Polled :=
  match s.follower.start peer with
  | (_, .raised _) => (s, .failed)
  | (follower, _) =>
    match fetched with
    | .escaped => ({ s with follower := (follower.finish peer none now).1 }, .escaped)
    | .failed => ({ s with follower := (follower.finish peer none now).1 }, .failed)
    | .events rows =>
      match follower.finish peer (some rows) now with
      | (follower, .observed _) => ({ s with follower }, .answered)
      | (follower, .raised (.multihub (.equivocation _ _ _ _))) =>
        let recorded := (follower.quarantines.get? peer).elim (.ok s.journal)
          (recordMultihubEquivocation s.journal)
        ({ follower, journal := recorded.toOption.getD s.journal }, .failed)
      | (follower, .raised (.multihub (.sequence _ _ _ _))) => ({ s with follower }, .failed)
      | (follower, _) => ({ s with follower }, .escaped)

/-- The loop of `poll_once` over the peers; `none` where an exception leaves it. -/
def pollAll (fetch : String → Fetched) (now : Float) :
    List String → JournalledFollower → RoundPolls → JournalledFollower × Option RoundPolls
  | [], s, polls => (s, some polls)
  | peer :: rest, s, polls =>
    match poll s peer (fetch peer) now with
    | (s, .answered) => pollAll fetch now rest s { polls with answered := true }
    | (s, .failed) => pollAll fetch now rest s { polls with failed := polls.failed ++ [peer] }
    | (s, .escaped) => (s, none)

/-- The contestants whose suspicion a round does not lift: configured peers
that failed, or that have shown no history. -/
def retained (w : Watch) (s : JournalledFollower) (polls : RoundPolls)
    (contesting : List String) : Finset String :=
  (contesting.filter fun peer =>
    peer ∈ w.peers.1 && (peer ∈ polls.failed || s.follower.cursor peer = 0)).toFinset

/-- The view after the round's polls. -/
def refreshed (w : Watch) (s : JournalledFollower) (polls : RoundPolls) :
    Dict String (Finset String) :=
  let observed := assertingOwnersFromEvents s.follower.events.values projectOf
  w.partitioned.items.foldl
    (fun view entry =>
      let kept := w.retained s polls entry.2
      if kept = ∅ then view else view.set entry.1 ((view.get? entry.1).getD ∅ ∪ kept))
    observed

def decision (w : Watch) (view : Dict String (Finset String)) (name : String) :
    OwnershipDecision :=
  w.ownership.resolve name (sortedTexts ((view.get? name).getD ∅))

/-- `observed_asserting_hubs`. -/
def observedAssertingHubs (w : Watch) (name : String) : List String :=
  sortedTexts ((w.assertions.get? name).getD ∅)

def partitionPayload (w : Watch) (name : String) (contesting : List String) : Members :=
  [("namespace", .str name), ("local_hub_id", .str w.ownership.localHubId),
    ("owner_hub_id", .str ((w.ownership.owners.get? name).getD "")),
    ("contesting_hubs", .arr (contesting.map .str)),
    ("outcome", .str OwnershipOutcome.partitioned.value),
    ("transition", .str (if w.partitioned.contains name then "updated" else "entered"))]

def healPayload (w : Watch) (name : String) (decision : OwnershipDecision)
    (previous : List String) : Members :=
  [("namespace", .str name), ("local_hub_id", .str w.ownership.localHubId),
    ("owner_hub_id", .str (decision.ownerHubId.getD "")),
    ("previous_contesting_hubs", .arr (previous.map .str)),
    ("outcome", .str decision.outcome.value), ("observation_refreshed", .bool true)]

/-- One namespace of `_record_ownership_transitions`: the row to append, if
any, and the partitions after it. -/
def transition (w : Watch) (view : Dict String (Finset String)) (now : Float)
    (acc : EventStore × Dict String (List String)) (name : String) :
    EventStore × Dict String (List String) :=
  let decision := w.decision view name
  if decision.outcome = .partitioned then
    let contesting := decision.contesting
    if w.partitioned.get? name = some contesting then acc
    else
      ((acc.1.insertEnrolled now EventKind.multihubPartition
          (w.partitionPayload name contesting)).1, acc.2.set name contesting)
  else
    match w.partitioned.get? name with
    | none => acc
    | some previous =>
      ((acc.1.insertEnrolled now EventKind.multihubHeal (w.healPayload name decision previous)).1,
        acc.2.erase name)

/-- The namespaces a round looks at, in order. -/
def namespaces (w : Watch) (view : Dict String (Finset String)) : List String :=
  sortedTexts (view.keys ++ w.partitioned.keys).toFinset

/-- `_record_ownership_transitions`. -/
def recorded (w : Watch) (s : JournalledFollower) (view : Dict String (Finset String))
    (now : Float) : EventStore × Dict String (List String) :=
  (w.namespaces view).foldl (w.transition view now) (s.journal, w.partitioned)

/-- `poll_once`; `journalled` says whether the transitions could be written. -/
def pollOnce (w : Watch) (fetch : String → Fetched) (now : Float) (journalled : Bool) : Watch :=
  match pollAll fetch now w.peers.1 w.source {} with
  | (source, none) => { w with source }
  | (source, some polls) =>
    if polls.answered = false ∨ journalled = false then { w with source }
    else
      let view := w.refreshed source polls
      let after := w.recorded source view now
      { w with
        source := { source with journal := after.1 }
        partitioned := after.2
        assertions := view }

/-- A watch constructed over a journal. -/
def start (ownership : WatchOwnership) (peers : WatchPeers) (observerId : String)
    (journal : EventStore) : Watch :=
  let partitioned := restoreActiveMultihubPartitions journal
  { ownership, peers
    source := { follower := Follower.rebuilt observerId journal, journal }
    partitioned
    assertions := partitioned.filterMapValues fun contesting => some contesting.toFinset }

inductive Step where
  | round (fetch : String → Fetched) (now : Float) (journalled : Bool)
  /-- The hub starts again, with the peers then configured. -/
  | restart (peers : WatchPeers)
  /-- An operator clears the quarantine of a peer. -/
  | recover (peerId recoveredBy reason newLogGeneration : String) (now : Float)
  /-- Any other row of the journal. -/
  | append (ts : Float) (kind : String) (payload : Members)
      (hkind : kind ≠ EventKind.multihubPartition ∧ kind ≠ EventKind.multihubHeal)

def step (w : Watch) : Step → Watch
  | .round fetch now journalled => w.pollOnce fetch now journalled
  | .restart peers =>
    start w.ownership peers w.source.follower.observerId w.source.journal
  | .recover peerId recoveredBy reason newLogGeneration now =>
    { w with source := w.source.recoverPeer peerId recoveredBy reason newLogGeneration now }
  | .append ts kind payload _ =>
    { w with source := { w.source with journal := (w.source.journal.insertEnrolled ts kind payload).1 } }

end Watch

end SynapseChannel
