import SynapseChannel.Core.CausalRenumber
import SynapseChannel.Multihub.Merge

/-!
# Multihub — CausalFederation

Coordination causality over the merged logs of several hubs. The merged
order is renumbered and handed to the single-hub derivations. Where no
hub's timestamps step back the federated graph refines the local ones;
where one steps back it does not.
-/

namespace SynapseChannel

open Py Outcome

namespace CausalFederation

open Causality

/-! ## Nodes, edges and answers -/

def federation : String := "federation"

/-- The global identity of one event in a federated log. -/
structure HubEventRef where
  hubId : String
  seq : Int
deriving DecidableEq

structure FederatedNode where
  hubId : String
  seq : Int
  ts : Float
  kind : String
  taskId : String
  owner : String
  status : String
  paths : List String
  worktree : String
  dependsOn : List String
  text : String
deriving DecidableEq

def FederatedNode.ref (node : FederatedNode) : HubEventRef := ⟨node.hubId, node.seq⟩

structure FederatedEdge where
  src : HubEventRef
  dst : HubEventRef
  relation : String
  basis : String
  detail : String
deriving DecidableEq

structure FederatedCausalGraph where
  nodes : List FederatedNode
  edges : List FederatedEdge
  hubs : List String
deriving DecidableEq

structure FederatedLink where
  edge : FederatedEdge
  node : FederatedNode
deriving DecidableEq

structure FederatedQuery where
  ref : HubEventRef
  direction : Direction
  present : Bool
  node : Option FederatedNode
  direct : List FederatedLink
  transitive : List FederatedNode
  unsupported : List FederatedNode
  hubs : List String
  edges : List FederatedEdge
deriving DecidableEq

/-- Each hub's loaded events. -/
abbrev Logs := Dict String (List StoredEvent)

/-- The global identities of the synthetic sequences. -/
abbrev Refs := Dict Int HubEventRef

inductive FederationError
  | merge (error : MultiHubError)
  | value (message : String)

/-! ## Renumbering the merged log -/

def nameLt (a b : String) : Bool := decide (a < b)

def sortedLogs (logs : Logs) : List (String × List StoredEvent) := sortedBy nameLt Prod.fst logs.items

def sortedHubs (logs : Logs) : List String := sortedBy nameLt id logs.keys

/-- `enumerate(merged, start)`. -/
def numbered : Int → List HubEvent → List (Int × HubEvent)
  | _, [] => []
  | index, event :: rest => (index, event) :: numbered (index + 1) rest

def refOf (event : HubEvent) : HubEventRef := ⟨event.hubId, event.seq⟩

def refsOf (items : List (Int × HubEvent)) : Refs :=
  items.foldl (fun refs item => refs.set item.1 (refOf item.2)) Dict.empty

def syntheticEvent (item : Int × HubEvent) : StoredEvent where
  seq := item.1
  ts := item.2.ts
  kind := item.2.kind
  payload := item.2.payload

def taggedLogs (logs : Logs) : List HubEvent :=
  (sortedLogs logs).flatMap fun (hubId, events) => tagEvents hubId events

def merged [Builtins] (logs : Logs) : Except FederationError (List HubEvent) :=
  (mergeEventLogs [taggedLogs logs]).mapError .merge

def causalGraph [Builtins] (events : List StoredEvent) : Except FederationError CausalGraph :=
  (buildCausalGraph events).mapError .value

/-- The graph over a dense synthetic order of the merged events. -/
def synthesise [Builtins] (logs : Logs) : Except FederationError (CausalGraph × Refs) := do
  let items := numbered 1 (← merged logs)
  let graph ← causalGraph (items.map syntheticEvent)
  return (graph, refsOf items)

/-- `refs[seq]`. -/
def refAt (refs : Refs) (seq : Int) : Except FederationError HubEventRef :=
  match refs.get? seq with
  | some ref => .ok ref
  | none => .error (.value s!"KeyError: {seq}")

/-- A synthetic node under its global identity. -/
def nodeOf (ref : HubEventRef) (node : CausalNode) : FederatedNode where
  hubId := ref.hubId
  seq := ref.seq
  ts := node.ts
  kind := node.kind
  taskId := node.taskId
  owner := node.owner
  status := node.status
  paths := node.paths
  worktree := node.worktree
  dependsOn := node.dependsOn
  text := node.text

/-- An edge between global identities; one that crosses hubs is tagged. -/
def edgeOf (src dst : HubEventRef) (edge : CausalEdge) : FederatedEdge where
  src := src
  dst := dst
  relation := if src.hubId ≠ dst.hubId then federation else edge.relation
  basis := edge.relation
  detail := edge.detail

def federatedNode (refs : Refs) (node : CausalNode) : Except FederationError FederatedNode := do
  let ref ← refAt refs node.seq
  return nodeOf ref node

def federatedEdge (refs : Refs) (edge : CausalEdge) : Except FederationError FederatedEdge := do
  let src ← refAt refs edge.src
  let dst ← refAt refs edge.dst
  return edgeOf src dst edge

def federatedLink (refs : Refs) (link : CausalLink) : Except FederationError FederatedLink := do
  let edge ← federatedEdge refs link.edge
  let node ← federatedNode refs link.node
  return { edge := edge, node := node }

/-- Fold several hubs' event logs into one federated graph. -/
def buildFederatedGraph [Builtins] (logs : Logs) :
    Except FederationError FederatedCausalGraph := do
  let (inner, refs) ← synthesise logs
  let nodes ← inner.nodes.mapM (federatedNode refs)
  let edges ← inner.edges.mapM (federatedEdge refs)
  return { nodes := nodes, edges := edges, hubs := sortedHubs logs }

/-- The sequences of every node an answer names. -/
def members (answer : CausalQuery) : List Int :=
  answer.transitive.map CausalNode.seq ++ answer.unsupported.map CausalNode.seq ++
    answer.direct.map (fun link => link.node.seq) ++ (answer.node.map CausalNode.seq).toList

/-- The edges between nodes an answer names. -/
def inducedEdges (answer : CausalQuery) (edges : List CausalEdge) : List CausalEdge :=
  edges.filter fun edge => edge.src ∈ members answer ∧ edge.dst ∈ members answer

/-- Translate an answer back to global identities. -/
def federatedAnswer (answer : CausalQuery) (ref : HubEventRef) (refs : Refs) (hubs : List String)
    (graphEdges : List CausalEdge) : Except FederationError FederatedQuery := do
  let induced ← (inducedEdges answer graphEdges).mapM (federatedEdge refs)
  let node ← answer.node.mapM (federatedNode refs)
  let direct ← answer.direct.mapM (federatedLink refs)
  let transitive ← answer.transitive.mapM (federatedNode refs)
  let unsupported ← answer.unsupported.mapM (federatedNode refs)
  return {
    ref := ref, direction := answer.direction, present := answer.present, node := node,
    direct := direct, transitive := transitive, unsupported := unsupported, hubs := hubs,
    edges := induced }

/-- The synthetic sequence of a global identity. -/
def indexOf (refs : Refs) (ref : HubEventRef) : Int :=
  ((refs.items.foldl (fun (index : Dict HubEventRef Int) item => index.set item.2 item.1)
    Dict.empty).get? ref).getD 0

/-- Answer one query against a federated event reference. -/
def federatedQuery [Builtins] (logs : Logs) (direction : Direction) (ref : HubEventRef) :
    Except FederationError FederatedQuery :=
  if logs.contains ref.hubId = false then
    let hub := ref.hubId
    let known := join ", " (sortedHubs logs)
    .error (.value s!"unknown hub '{hub}' in event reference; merged hubs: {known}")
  else do
    let (inner, refs) ← synthesise logs
    let answer ← (query inner (indexOf refs ref) direction).mapError .value
    federatedAnswer answer ref refs (sortedHubs logs) inner.edges

/-! ## What the answers are compared with -/

/-- A local node, edge, graph and answer under the identities of one hub. -/
def localNode (hub : String) (node : CausalNode) : FederatedNode := nodeOf ⟨hub, node.seq⟩ node

def localEdge (hub : String) (edge : CausalEdge) : FederatedEdge :=
  edgeOf ⟨hub, edge.src⟩ ⟨hub, edge.dst⟩ edge

def localGraph (hub : String) (graph : CausalGraph) : FederatedCausalGraph where
  nodes := graph.nodes.map (localNode hub)
  edges := graph.edges.map (localEdge hub)
  hubs := [hub]

def localAnswer (hub : String) (graph : CausalGraph) (answer : CausalQuery) : FederatedQuery where
  ref := ⟨hub, answer.seq⟩
  direction := answer.direction
  present := answer.present
  node := answer.node.map (localNode hub)
  direct := answer.direct.map fun link =>
    { edge := localEdge hub link.edge, node := localNode hub link.node }
  transitive := answer.transitive.map (localNode hub)
  unsupported := answer.unsupported.map (localNode hub)
  hubs := [hub]
  edges := (inducedEdges answer graph.edges).map (localEdge hub)

/-! ## The numbering -/

/-- The item was given a synthetic sequence of the merged order. -/
theorem mem_numbered {start index : Int} {event : HubEvent} {merged : List HubEvent}
    (h : (index, event) ∈ numbered start merged) : start ≤ index ∧ event ∈ merged := by
  induction merged generalizing start with
  | nil => cases h
  | cons first rest ih =>
      rcases List.mem_cons.mp h with heq | h
      · obtain ⟨rfl, rfl⟩ := Prod.mk.inj heq
        exact ⟨Int.le_refl _, by simp⟩
      · obtain ⟨hle, hmem⟩ := ih h
        exact ⟨by omega, List.mem_cons_of_mem _ hmem⟩

/-- In a list that rises by `key`, the keys tell which pairs are related. -/
theorem related_of_lt {α : Type} {key : α → Int} {R : α → α → Prop} {l : List α}
    (h : l.Pairwise fun a b => key a < key b ∧ R a b) {a b : α} (ha : a ∈ l) (hb : b ∈ l)
    (hlt : key a < key b) : R a b := by
  let Related : α → α → Prop := fun a b => (key a < key b → R a b) ∧ (key b < key a → R b a)
  have hsymm : Std.Symm Related := ⟨fun a b hab => ⟨hab.2, hab.1⟩⟩
  have hrelated : l.Pairwise Related := h.imp fun hab => ⟨fun _ => hab.2, fun hba => by omega⟩
  have hself : ∀ x ∈ l, Related x x := fun x _ => ⟨fun hx => by omega, fun hx => by omega⟩
  exact (hrelated.forall_of_forall hself ha hb).1 hlt

/-- Numbers rise along the order of the events. -/
theorem numbered_pairwise {R : HubEvent → HubEvent → Prop} {merged : List HubEvent}
    (h : merged.Pairwise R) (start : Int) :
    (numbered start merged).Pairwise fun a b => a.1 < b.1 ∧ R a.2 b.2 := by
  induction merged generalizing start with
  | nil => exact .nil
  | cons first rest ih =>
      obtain ⟨hfirst, hrest⟩ := List.pairwise_cons.mp h
      refine List.pairwise_cons.mpr ⟨fun item hitem => ?_, ih hrest (start + 1)⟩
      obtain ⟨hle, hmem⟩ := mem_numbered hitem
      exact ⟨by dsimp only; omega, hfirst _ hmem⟩

theorem map_snd_numbered (start : Int) (merged : List HubEvent) :
    (numbered start merged).map Prod.snd = merged := by
  induction merged generalizing start with
  | nil => rfl
  | cons first rest ih => rw [numbered, List.map_cons, ih]

/-- The items of one merged log: numbers and identities tell them apart. -/
structure Items (items : List (Int × HubEvent)) : Prop where
  rising : items.Pairwise fun a b => a.1 < b.1
  identities : (items.map fun item => refOf item.2).Nodup

variable {items : List (Int × HubEvent)}

theorem Items.numbers (h : Items items) : (items.map Prod.fst).Nodup :=
  List.pairwise_map.mpr (h.rising.imp fun hlt => by omega)

theorem Items.refs (h : Items items) (index : Int) (ref : HubEventRef) :
    (refsOf items).get? index = some ref ↔ ∃ item ∈ items, item.1 = index ∧ refOf item.2 = ref :=
  get?_filled (fun item : Int × HubEvent => refOf item.2) h.numbers index ref

theorem Items.refAt_ok (h : Items items) {item : Int × HubEvent} (hitem : item ∈ items) :
    refAt (refsOf items) item.1 = .ok (refOf item.2) := by
  unfold refAt
  rw [(h.refs _ _).mpr ⟨item, hitem, rfl, rfl⟩]

theorem refsOf_items (h : (items.map Prod.fst).Nodup) :
    (refsOf items).items = items.map fun item => (item.1, refOf item.2) := by
  induction items using List.reverseRecOn with
  | nil => rfl
  | append_singleton items last ih =>
      rw [List.map_append, List.nodup_append] at h
      obtain ⟨hnodup, -, hlast⟩ := h
      have hset : refsOf (items ++ [last]) = (refsOf items).set last.1 (refOf last.2) := by
        simp [refsOf]
      have hfresh : (refsOf items).get? last.1 = none := by
        cases hget : (refsOf items).get? last.1 with
        | none => rfl
        | some ref =>
            obtain ⟨item, hitem, heq, -⟩ :=
              (get?_filled (fun item : Int × HubEvent => refOf item.2) hnodup _ _).mp hget
            exact absurd heq (hlast _ (List.mem_map_of_mem hitem) _ (by simp))
      rw [hset, Dict.items_set_of_none hfresh, ih hnodup, List.map_append]
      rfl

/-- The number of an event's identity, zero for one the log does not hold. -/
theorem Items.indexOf_cases (h : Items items) (ref : HubEventRef) :
    (∃ item ∈ items, refOf item.2 = ref ∧ indexOf (refsOf items) ref = item.1) ∨
      ((∀ item ∈ items, refOf item.2 ≠ ref) ∧ indexOf (refsOf items) ref = 0) := by
  have hindex : indexOf (refsOf items) ref = ((items.foldl (fun (index : Dict HubEventRef Int)
      item => index.set (refOf item.2) item.1) Dict.empty).get? ref).getD 0 := by
    unfold indexOf
    rw [refsOf_items h.numbers, List.foldl_map]
  rw [hindex]
  have hget : ∀ index, (items.foldl (fun (index : Dict HubEventRef Int) item =>
      index.set (refOf item.2) item.1) Dict.empty).get? ref = some index ↔
        ∃ item ∈ items, refOf item.2 = ref ∧ item.1 = index :=
    get?_filled Prod.fst h.identities ref
  cases hfound : (items.foldl (fun (index : Dict HubEventRef Int) item =>
      index.set (refOf item.2) item.1) Dict.empty).get? ref with
  | none =>
      refine .inr ⟨fun item hitem heq => ?_, rfl⟩
      rw [(hget item.1).mpr ⟨item, hitem, heq, rfl⟩] at hfound
      cases hfound
  | some index =>
      obtain ⟨item, hitem, heq, rfl⟩ := (hget index).mp hfound
      exact .inl ⟨item, hitem, heq, rfl⟩

/-! ## Families of hub logs -/

variable [Builtins]

/-- Logs of hubs: rising sequences, and rows that merge and decode. -/
structure Family (logs : Logs) : Prop where
  rising : ∀ hub log, logs.get? hub = some log → log.Pairwise fun a b => a.seq < b.seq
  committable : ∀ hub log, logs.get? hub = some log → ∀ event ∈ log,
    (HubEvent.fromStored hub event).Fingerprintable
  decodes : ∀ hub log, logs.get? hub = some log → ∀ event ∈ log, event.kind ∈ graphKinds →
    ∃ node, nodeFromEvent event = .ok node

variable {logs : Logs}

omit [Builtins] in
theorem mem_taggedLogs {event : HubEvent} : event ∈ taggedLogs logs ↔
    ∃ hub log, logs.get? hub = some log ∧ ∃ stored ∈ log, HubEvent.fromStored hub stored = event := by
  simp only [taggedLogs, List.mem_flatMap, sortedLogs, mem_sortedBy, tagEvents, List.mem_map]
  constructor
  · rintro ⟨⟨hub, log⟩, hitem, stored, hstored, heq⟩
    exact ⟨hub, log, (Dict.mem_items_iff _ _ _).mp hitem, stored, hstored, heq⟩
  · rintro ⟨hub, log, hget, stored, hstored, heq⟩
    exact ⟨(hub, log), (Dict.mem_items_iff _ _ _).mpr hget, stored, hstored, heq⟩

theorem Family.identities (h : Family logs) :
    ((taggedLogs logs).map HubEvent.identity).Nodup := by
  have hhubs : ((sortedLogs logs).map Prod.fst).Nodup :=
    ((sortedBy_perm nameLt Prod.fst logs.items).map Prod.fst).nodup_iff.mpr logs.nodup
  have hget : ∀ entry ∈ sortedLogs logs, logs.get? entry.1 = some entry.2 := fun entry hentry =>
    (Dict.mem_items_iff _ _ _).mp ((mem_sortedBy _).mp hentry)
  unfold taggedLogs
  rw [List.map_flatMap, List.nodup_flatMap]
  constructor
  · intro entry hentry
    show ((tagEvents entry.1 entry.2).map HubEvent.identity).Nodup
    unfold tagEvents
    rw [List.map_map]
    refine List.pairwise_map.mpr ((h.rising _ _ (hget entry hentry)).imp fun hlt heq => ?_)
    have := (Prod.mk.inj heq).2
    simp only [HubEvent.fromStored] at this
    omega
  · refine (List.pairwise_map.mp hhubs).imp fun hne => ?_
    intro k hk hk'
    obtain ⟨e, he, rfl⟩ := List.mem_map.mp hk
    obtain ⟨e', he', heq⟩ := List.mem_map.mp hk'
    obtain ⟨s, -, rfl⟩ := List.mem_map.mp he
    obtain ⟨s', -, rfl⟩ := List.mem_map.mp he'
    exact hne (Prod.mk.inj heq).1.symm

theorem Family.committed (h : Family logs) : ∀ event ∈ taggedLogs logs, event.Fingerprintable := by
  intro event hevent
  obtain ⟨hub, log, hget, stored, hstored, rfl⟩ := mem_taggedLogs.mp hevent
  exact h.committable hub log hget stored hstored

/-- The merged order of a family. -/
def mergedOf (logs : Logs) : List HubEvent := sortedBy keyLt HubEvent.orderKey (taggedLogs logs)

theorem Family.merged_ok (h : Family logs) : merged logs = .ok (mergedOf logs) := by
  unfold merged
  rw [mergeEventLogs_ok (by simpa using h.committed) (by simpa using h.identities)]
  simp [mergedOf, Except.mapError]

theorem Family.sorted (h : Family logs) :
    (mergedOf logs).Pairwise (fun a b => keyLt a.orderKey b.orderKey = true) ∧
      ((mergedOf logs).map HubEvent.identity).Nodup :=
  inOrder_sorted (fun event hevent => (h.committed event hevent).timed) h.identities

omit [Builtins] in
theorem mem_mergedOf {event : HubEvent} : event ∈ mergedOf logs ↔ event ∈ taggedLogs logs :=
  mem_sortedBy _

/-- The numbered events of a family. -/
def itemsOf (logs : Logs) : List (Int × HubEvent) := numbered 1 (mergedOf logs)

theorem Family.isItems (h : Family logs) : Items (itemsOf logs) where
  rising := (numbered_pairwise h.sorted.1 1).imp fun h => h.1
  identities := by
    have hmap : (itemsOf logs).map (fun item => refOf item.2)
        = (mergedOf logs).map refOf := by
      conv_rhs => rw [← map_snd_numbered 1 (mergedOf logs), List.map_map]
      rfl
    have hids := List.pairwise_map.mp h.sorted.2
    rw [hmap]
    refine List.pairwise_map.mpr (hids.imp fun hne heq => hne ?_)
    obtain ⟨hhub, hseq⟩ := HubEventRef.mk.inj heq
    exact Prod.ext hhub hseq

/-! ## The inner graph -/

theorem mapM_decodes {events : List StoredEvent}
    (h : ∀ event ∈ events, ∃ node, nodeFromEvent event = .ok node) :
    ∃ nodes, events.mapM nodeFromEvent = .ok nodes := by
  induction events with
  | nil => exact ⟨[], rfl⟩
  | cons event rest ih =>
      obtain ⟨node, hnode⟩ := h event (by simp)
      obtain ⟨nodes, hnodes⟩ := ih fun e he => h e (List.mem_cons_of_mem _ he)
      refine ⟨node :: nodes, ?_⟩
      rw [List.mapM_cons, hnode, hnodes]
      rfl

/-- The events that become nodes. -/
def kept (events : List StoredEvent) : List StoredEvent :=
  events.filter fun event => event.kind ∈ graphKinds

theorem buildCausalGraph_rising {events : List StoredEvent}
    (h : events.Pairwise fun a b => a.seq < b.seq)
    (hdecodes : ∀ event ∈ events, event.kind ∈ graphKinds →
      ∃ node, nodeFromEvent event = .ok node) :
    ∃ graph, buildCausalGraph events = .ok graph ∧ WellFormed graph ∧
      graph.nodes.map CausalNode.seq = (kept events).map StoredEvent.seq := by
  have hrising : (kept events).Pairwise fun a b => a.seq < b.seq :=
    List.Pairwise.sublist List.filter_sublist h
  have hsorted : sortedBy seqLt StoredEvent.seq (kept events) = kept events :=
    sortedBy_eq_self seqLt (hrising.imp fun hlt => by
      simp only [seqLt, decide_eq_false_iff_not]
      omega)
  have hkept : ∀ event ∈ kept events, ∃ node, nodeFromEvent event = .ok node := by
    intro event hevent
    obtain ⟨hevent, hkind⟩ := List.mem_filter.mp hevent
    exact hdecodes event hevent (of_decide_eq_true hkind)
  obtain ⟨nodes, hnodes⟩ := mapM_decodes hkept
  have hseqs := mapM_nodes_seq hnodes
  have hnodesRising : RisingNodes nodes := by
    rw [← List.pairwise_map (R := fun a b : Int => a < b), ← hseqs] at hrising
    exact List.pairwise_map.mp hrising
  refine ⟨graphOf nodes, ?_, graphOf_wellFormed hnodesRising, hseqs⟩
  unfold buildCausalGraph
  dsimp only
  rw [show (events.filter fun event => event.kind ∈ graphKinds) = kept events from rfl, hsorted,
    hnodes]
  rfl

/-! ## What a family builds -/

/-- The synthetic rows of a family. -/
def syntheticRows (logs : Logs) : List StoredEvent :=
  (itemsOf logs).map syntheticEvent

omit [Builtins] in
theorem mem_kept_synthetic {seq : Int} (h : seq ∈ (kept (syntheticRows logs)).map StoredEvent.seq) :
    ∃ item ∈ itemsOf logs, item.1 = seq ∧ item.2.kind ∈ graphKinds := by
  obtain ⟨event, hevent, rfl⟩ := List.mem_map.mp h
  obtain ⟨hevent, hkind⟩ := List.mem_filter.mp hevent
  obtain ⟨item, hitem, rfl⟩ := List.mem_map.mp hevent
  exact ⟨item, hitem, rfl, of_decide_eq_true hkind⟩

theorem Family.synthesise_ok (h : Family logs) :
    ∃ inner, buildCausalGraph (syntheticRows logs) = .ok inner ∧ WellFormed inner ∧
      inner.nodes.map CausalNode.seq = (kept (syntheticRows logs)).map StoredEvent.seq ∧
      synthesise logs = .ok (inner, refsOf (itemsOf logs)) := by
  have hrising : (syntheticRows logs).Pairwise fun a b => a.seq < b.seq :=
    List.pairwise_map.mpr h.isItems.rising
  obtain ⟨inner, hinner, hwf, hseqs⟩ := buildCausalGraph_rising hrising fun event hevent hkind => by
    obtain ⟨item, hitem, rfl⟩ := List.mem_map.mp hevent
    obtain ⟨hub, log, hget, stored, hstored, heq⟩ :=
      mem_taggedLogs.mp (mem_mergedOf.mp (mem_numbered hitem).2)
    obtain ⟨node, hnode⟩ := h.decodes hub log hget stored hstored (by
      simpa [syntheticEvent, ← heq, HubEvent.fromStored] using hkind)
    -- the row is the stored one under its number
    have hrow : syntheticEvent item = renumberEvent (fun _ => item.1) stored := by
      simp [syntheticEvent, ← heq, HubEvent.fromStored, renumberEvent]
    rw [hrow, nodeFromEvent_renumber, hnode]
    exact ⟨_, rfl⟩
  refine ⟨inner, hinner, hwf, hseqs, ?_⟩
  unfold synthesise causalGraph
  refine bind_of_ok h.merged_ok (bind_of_ok (a := inner) ?_ rfl)
  rw [show (numbered 1 (mergedOf logs)).map syntheticEvent = syntheticRows logs
    from rfl, hinner]
  rfl

/-- The global identity behind a synthetic sequence. -/
def globalOf (items : List (Int × HubEvent)) (seq : Int) : HubEventRef :=
  ((refsOf items).get? seq).getD ⟨"", 0⟩

omit [Builtins] in
theorem Items.globalOf_eq (h : Items items) {item : Int × HubEvent} (hitem : item ∈ items) :
    globalOf items item.1 = refOf item.2 := by
  unfold globalOf
  rw [(h.refs _ _).mpr ⟨item, hitem, rfl, rfl⟩]
  rfl

omit [Builtins] in
theorem Items.refAt_global (h : Items items) {seq : Int} (hseq : ∃ item ∈ items, item.1 = seq) :
    refAt (refsOf items) seq = .ok (globalOf items seq) := by
  obtain ⟨item, hitem, rfl⟩ := hseq
  rw [h.refAt_ok hitem, h.globalOf_eq hitem]

/-- A node and an edge under the identities behind their sequences. -/
def globalNode (items : List (Int × HubEvent)) (node : CausalNode) : FederatedNode :=
  nodeOf (globalOf items node.seq) node

def globalEdge (items : List (Int × HubEvent)) (edge : CausalEdge) : FederatedEdge :=
  edgeOf (globalOf items edge.src) (globalOf items edge.dst) edge

/-- The sequences of a graph number items of the log. -/
def Numbers (items : List (Int × HubEvent)) (inner : CausalGraph) : Prop :=
  ∀ seq ∈ inner.nodes.map CausalNode.seq, ∃ item ∈ items, item.1 = seq

variable {inner : CausalGraph}

omit [Builtins] in
theorem Items.federatedNode_ok (h : Items items) (hnumbers : Numbers items inner)
    {node : CausalNode} (hnode : node ∈ inner.nodes) :
    federatedNode (refsOf items) node = .ok (globalNode items node) :=
  bind_of_ok (h.refAt_global (hnumbers _ (List.mem_map_of_mem hnode))) rfl

omit [Builtins] in
theorem Items.federatedEdge_ok (h : Items items) (hnumbers : Numbers items inner)
    (hwf : WellFormed inner) {edge : CausalEdge} (hedge : edge ∈ inner.edges) :
    federatedEdge (refsOf items) edge = .ok (globalEdge items edge) := by
  have hascending := hwf.ascending edge hedge
  exact bind_of_ok (h.refAt_global (hnumbers _ hascending.src))
    (bind_of_ok (h.refAt_global (hnumbers _ hascending.dst)) rfl)

/-- The federated graph of a family is its inner graph under global
identities. -/
theorem Family.build (h : Family logs) : ∃ inner,
    buildCausalGraph (syntheticRows logs) = .ok inner ∧ WellFormed inner ∧
      inner.nodes.map CausalNode.seq = (kept (syntheticRows logs)).map StoredEvent.seq ∧
      synthesise logs = .ok (inner, refsOf (itemsOf logs)) ∧
      Numbers (itemsOf logs) inner ∧
      buildFederatedGraph logs = .ok {
        nodes := inner.nodes.map (globalNode (itemsOf logs))
        edges := inner.edges.map (globalEdge (itemsOf logs))
        hubs := sortedHubs logs } := by
  obtain ⟨inner, hinner, hwf, hseqs, hsynthesise⟩ := h.synthesise_ok
  have hnumbers : Numbers (itemsOf logs) inner := by
    intro seq hseq
    rw [hseqs] at hseq
    obtain ⟨item, hitem, heq, -⟩ := mem_kept_synthetic hseq
    exact ⟨item, hitem, heq⟩
  refine ⟨inner, hinner, hwf, hseqs, hsynthesise, hnumbers, ?_⟩
  unfold buildFederatedGraph
  refine bind_of_ok hsynthesise (bind_of_ok (mapM_ok fun node hnode => ?_)
    (bind_of_ok (mapM_ok fun edge hedge => ?_) rfl))
  · exact h.isItems.federatedNode_ok hnumbers hnode
  · exact h.isItems.federatedEdge_ok hnumbers hwf hedge

/-! ## Edges of steady logs -/

/-- The timestamps of the rows that become nodes never step back. -/
def Steady (log : List StoredEvent) : Prop := (kept log).Pairwise fun a b => ¬ b.ts < a.ts

omit [Builtins] in
/-- Of two rows of a steady log, the earlier in the merged order has the
lower sequence. -/
theorem Steady.seq_lt {log : List StoredEvent} (h : Steady log)
    (hrising : log.Pairwise fun a b => a.seq < b.seq) {hub : String} {a b : StoredEvent}
    (ha : a ∈ kept log) (hb : b ∈ kept log) (hts : a.ts.isNaN = false ∧ b.ts.isNaN = false)
    (hlt : keyLt (HubEvent.fromStored hub a).orderKey (HubEvent.fromStored hub b).orderKey = true) :
    a.seq < b.seq := by
  have hkept : (kept log).Pairwise fun a b => a.seq < b.seq :=
    List.Pairwise.sublist List.filter_sublist hrising
  have hboth : (kept log).Pairwise fun a b => a.seq < b.seq ∧ ¬ b.ts < a.ts := hkept.and h
  have hatimed : (HubEvent.fromStored hub a).orderKey.Timed := hts.1
  have hbtimed : (HubEvent.fromStored hub b).orderKey.Timed := hts.2
  have hkey := (keyLt_iff hatimed hbtimed).mp hlt
  simp only [HubEvent.fromStored, HubEvent.orderKey] at hkey
  by_contra hge
  have hts' : a.ts < b.ts := by
    rcases hkey with hkey | ⟨-, hkey | ⟨-, hkey⟩⟩
    · exact hkey
    · exact absurd hkey (String.lt_irrefl _)
    · exact absurd hkey hge
  rcases Int.lt_or_eq_of_le (Int.not_lt.mp hge) with hba | heq
  · exact related_of_lt hboth hb ha hba hts'
  · have hnodup : ((kept log).map StoredEvent.seq).Nodup :=
      List.pairwise_map.mpr (hkept.imp fun hlt => by omega)
    rw [List.inj_on_of_nodup_map hnodup hb ha heq, Ieee.lt_iff hts.1 hts.1, Ieee.RankLt] at hts'
    omega

/-- The events behind the ends of an edge, in the merged order. -/
theorem Family.ends (h : Family logs) {inner : CausalGraph} (hwf : WellFormed inner)
    (hseqs : inner.nodes.map CausalNode.seq = (kept (syntheticRows logs)).map StoredEvent.seq)
    {edge : CausalEdge} (hedge : edge ∈ inner.edges) :
    ∃ a ∈ mergedOf logs, ∃ b ∈ mergedOf logs, a.kind ∈ graphKinds ∧ b.kind ∈ graphKinds ∧
      globalOf (itemsOf logs) edge.src = refOf a ∧ globalOf (itemsOf logs) edge.dst = refOf b ∧
      keyLt a.orderKey b.orderKey = true := by
  have hascending := hwf.ascending edge hedge
  obtain ⟨src, hsrc, hsrcSeq, hsrcKind⟩ := mem_kept_synthetic (hseqs ▸ hascending.src)
  obtain ⟨dst, hdst, hdstSeq, hdstKind⟩ := mem_kept_synthetic (hseqs ▸ hascending.dst)
  refine ⟨src.2, (mem_numbered hsrc).2, dst.2, (mem_numbered hdst).2, hsrcKind, hdstKind, ?_, ?_, ?_⟩
  · rw [← hsrcSeq, h.isItems.globalOf_eq hsrc]
  · rw [← hdstSeq, h.isItems.globalOf_eq hdst]
  · have hlt := hascending.lt
    rw [← hsrcSeq, ← hdstSeq] at hlt
    exact related_of_lt (numbered_pairwise h.sorted.1 1) hsrc hdst hlt

omit [Builtins] in
/-- An event of the merged order comes from its hub's log. -/
theorem stored_of_merged {event : HubEvent} (h : event ∈ mergedOf logs) :
    ∃ log, logs.get? event.hubId = some log ∧ ∃ stored ∈ log,
      event = HubEvent.fromStored event.hubId stored := by
  obtain ⟨hub, log, hget, stored, hstored, rfl⟩ := mem_taggedLogs.mp (mem_mergedOf.mp h)
  exact ⟨log, hget, stored, hstored, rfl⟩

/-- Within a hub, no edge of the federated graph of steady logs falls. -/
theorem Family.edges_rise (h : Family logs)
    (hsteady : ∀ hub log, logs.get? hub = some log → Steady log) :
    ∃ graph, buildFederatedGraph logs = .ok graph ∧ ∀ edge ∈ graph.edges,
      edge.src.hubId = edge.dst.hubId → edge.src.seq < edge.dst.seq := by
  obtain ⟨inner, -, hwf, hseqs, -, -, hbuild⟩ := h.build
  refine ⟨_, hbuild, fun edge hedge hhub => ?_⟩
  obtain ⟨edge, hin, rfl⟩ := List.mem_map.mp hedge
  obtain ⟨a, ha, b, hb, hakind, hbkind, hsrc, hdst, hlt⟩ := h.ends hwf hseqs hin
  simp only [globalEdge, edgeOf, hsrc, hdst, refOf] at hhub ⊢
  obtain ⟨log, hget, x, hx, hax⟩ := stored_of_merged ha
  obtain ⟨log', hget', y, hy, hby⟩ := stored_of_merged hb
  rw [← hhub] at hget' hby
  cases hget.symm.trans hget'
  have hxkept : x ∈ kept log := by
    refine List.mem_filter.mpr ⟨hx, decide_eq_true ?_⟩
    rw [hax] at hakind
    exact hakind
  have hykept : y ∈ kept log := by
    refine List.mem_filter.mpr ⟨hy, decide_eq_true ?_⟩
    rw [hby] at hbkind
    exact hbkind
  rw [hax, hby] at hlt
  have hts := And.intro (h.committable _ _ hget x hx).timed (h.committable _ _ hget y hy).timed
  have := (hsteady _ _ hget).seq_lt (h.rising _ _ hget) hxkept hykept hts hlt
  rw [hax, hby]
  exact this

/-! ## One log -/

/-- The family of one hub. -/
def single (hub : String) (log : List StoredEvent) : Logs := Dict.empty.set hub log

variable {hub : String} {log : List StoredEvent}

omit [Builtins] in
theorem single_get? {hub' : String} {log' : List StoredEvent} :
    (single hub log).get? hub' = some log' ↔ hub = hub' ∧ log = log' := by
  unfold single
  rw [Dict.get?_set]
  by_cases h : hub = hub'
  · simp [h]
  · simp [h]

theorem Family.alone (h : Family logs) (hget : logs.get? hub = some log) :
    Family (single hub log) where
  rising := by
    intro hub' log' hget'
    obtain ⟨rfl, rfl⟩ := single_get?.mp hget'
    exact h.rising hub log hget
  committable := by
    intro hub' log' hget'
    obtain ⟨rfl, rfl⟩ := single_get?.mp hget'
    exact h.committable hub log hget
  decodes := by
    intro hub' log' hget'
    obtain ⟨rfl, rfl⟩ := single_get?.mp hget'
    exact h.decodes hub log hget

omit [Builtins] in
theorem taggedLogs_single : taggedLogs (single hub log) = tagEvents hub log := by
  show (List.flatMap _ [(hub, log)]) = _
  rw [List.flatMap_cons, List.flatMap_nil, List.append_nil]

def isKept (event : HubEvent) : Bool := decide (event.kind ∈ graphKinds)

omit [Builtins] in
theorem filter_tagEvents : (tagEvents hub log).filter isKept
    = (kept log).map (HubEvent.fromStored hub) := by
  unfold tagEvents
  rw [List.filter_map]
  rfl

/-- The single-log graph and answers are those of the local graph. -/
def AgreesWithLocal (hub : String) (log : List StoredEvent) : Prop :=
  ∃ graph, buildCausalGraph log = .ok graph ∧
    buildFederatedGraph (single hub log) = .ok (localGraph hub graph) ∧
    ∀ direction seq, ∃ answer, query graph seq direction = .ok answer ∧
      federatedQuery (single hub log) direction ⟨hub, seq⟩ = .ok (localAnswer hub graph answer)

/-- The merged order keeps the rows of a steady log in their order. -/
theorem Family.kept_merged (h : Family (single hub log)) (hsteady : Steady log) :
    (mergedOf (single hub log)).filter isKept
      = (kept log).map (HubEvent.fromStored hub) := by
  have hrising := h.rising hub log (single_get?.mpr ⟨rfl, rfl⟩)
  have htimed : ∀ event ∈ taggedLogs (single hub log), event.orderKey.Timed :=
    fun event hevent => (h.committed event hevent).timed
  have hperm : ((mergedOf (single hub log)).filter isKept).Perm
      ((kept log).map (HubEvent.fromStored hub)) := by
    rw [← filter_tagEvents, ← taggedLogs_single]
    exact (sortedBy_perm keyLt HubEvent.orderKey _).filter isKept
  have hmerged := List.Pairwise.sublist (List.filter_sublist (p := isKept)) h.sorted.1
  have hin : ∀ event ∈ (mergedOf (single hub log)).filter isKept,
      event.orderKey.Timed := fun event hevent =>
    htimed event (mem_mergedOf.mp (List.mem_filter.mp hevent).1)
  have hkept : ((kept log).map (HubEvent.fromStored hub)).Pairwise
      fun a b => keyLt a.orderKey b.orderKey = true := by
    have hboth := hsteady.and (List.Pairwise.sublist List.filter_sublist hrising)
    refine List.pairwise_map.mpr (hboth.imp_of_mem fun {a b} ha hb hab => ?_)
    have hat := hin _ (hperm.mem_iff.mpr (List.mem_map_of_mem ha))
    have hbt := hin _ (hperm.mem_iff.mpr (List.mem_map_of_mem hb))
    exact (keyLt_iff hat hbt).mpr (.inr ⟨hab.1, .inr ⟨rfl, hab.2⟩⟩)
  refine List.Perm.eq_of_pairwise (fun a b ha hb hab hba => ?_) hmerged hkept hperm
  have hcontra := keyLt_asymm (hin a ha) (hin b (hperm.mem_iff.mpr hb)) hab
  rw [hba] at hcontra
  cases hcontra

/-- The local sequence behind a synthetic one. -/
def localSeq (items : List (Int × HubEvent)) (index : Int) : Int := (globalOf items index).seq

def storedOf (event : HubEvent) : StoredEvent where
  seq := event.seq
  ts := event.ts
  kind := event.kind
  payload := event.payload

/-- Behind the kept synthetic rows of a steady log stand its kept rows. -/
theorem Family.kept_renumber (h : Family (single hub log))
    (hsteady : Steady log) :
    (kept (syntheticRows (single hub log))).map
      (renumberEvent (localSeq (itemsOf (single hub log)))) = kept log := by
  have hkept : kept (syntheticRows (single hub log))
      = ((itemsOf (single hub log)).filter fun item => isKept item.2).map
        syntheticEvent := by
    unfold kept syntheticRows
    rw [List.filter_map]
    rfl
  have hrow : ∀ item ∈ (itemsOf (single hub log)).filter fun item =>
      isKept item.2, renumberEvent (localSeq (itemsOf (single hub log)))
        (syntheticEvent item) = storedOf item.2 := by
    intro item hitem
    unfold renumberEvent localSeq
    rw [show (syntheticEvent item).seq = item.1 from rfl,
      h.isItems.globalOf_eq (List.mem_filter.mp hitem).1]
    rfl
  have hrows : ((itemsOf (single hub log)).filter fun item => isKept item.2).map
      (renumberEvent (localSeq (itemsOf (single hub log))) ∘ syntheticEvent)
      = ((itemsOf (single hub log)).filter fun item => isKept item.2).map
        fun item => storedOf item.2 := List.map_congr_left hrow
  rw [hkept, List.map_map, hrows]
  have hsnd : ((itemsOf (single hub log)).filter fun item => isKept item.2).map
      (fun item => storedOf item.2) = (((itemsOf (single hub log)).map
        Prod.snd).filter isKept).map storedOf := by
    rw [List.filter_map, List.map_map]
    rfl
  rw [hsnd, show (itemsOf (single hub log)).map Prod.snd
    = mergedOf (single hub log) from map_snd_numbered _ _,
    h.kept_merged hsteady, List.map_map]
  exact List.map_id _

theorem Family.keeps (h : Family (single hub log)) (hsteady : Steady log) :
    Keeps (localSeq (itemsOf (single hub log)))
      ((kept (syntheticRows (single hub log))).map StoredEvent.seq) := by
  have hrising := List.Pairwise.sublist (List.filter_sublist (l := log)
    (p := fun event => event.kind ∈ graphKinds)) (h.rising hub log (single_get?.mpr ⟨rfl, rfl⟩))
  have hsynthetic : (kept (syntheticRows (single hub log))).Pairwise
      fun a b => a.seq < b.seq :=
    List.Pairwise.sublist List.filter_sublist (List.pairwise_map.mpr h.isItems.rising)
  rw [show (log.filter fun event => event.kind ∈ graphKinds) = kept log from rfl,
    ← h.kept_renumber hsteady] at hrising
  have hboth := hsynthetic.and (List.pairwise_map.mp hrising)
  intro a ha b hb hlt
  obtain ⟨x, hx, rfl⟩ := List.mem_map.mp ha
  obtain ⟨y, hy, rfl⟩ := List.mem_map.mp hb
  exact related_of_lt hboth hx hy hlt

omit [Builtins] in
theorem kept_kept (events : List StoredEvent) : kept (kept events) = kept events := by
  simp [kept]

theorem buildCausalGraph_kept (events : List StoredEvent) :
    buildCausalGraph (kept events) = buildCausalGraph events := by
  unfold buildCausalGraph
  dsimp only
  rw [show ((kept events).filter fun event => event.kind ∈ graphKinds) = kept events from
    kept_kept events]
  rfl

omit [Builtins] in
theorem globalOf_single {index : Int} (h : Items (itemsOf (single hub log)))
    (hindex : ∃ item ∈ itemsOf (single hub log), item.1 = index) :
    globalOf (itemsOf (single hub log)) index
      = ⟨hub, localSeq (itemsOf (single hub log)) index⟩ := by
  obtain ⟨item, hitem, rfl⟩ := hindex
  obtain ⟨hub', log', hget, stored, -, heq⟩ :=
    mem_taggedLogs.mp (mem_mergedOf.mp (mem_numbered hitem).2)
  obtain ⟨rfl, rfl⟩ := single_get?.mp hget
  unfold localSeq
  rw [h.globalOf_eq hitem, ← heq]
  rfl

/-! ## The single-log graph and its answers -/

section

omit [Builtins]

theorem sortedHubs_single : sortedHubs (single hub log) = [hub] := rfl

theorem globalNode_single {inner : CausalGraph} (h : Items (itemsOf (single hub log)))
    (hnumbers : Numbers (itemsOf (single hub log)) inner) {node : CausalNode}
    (hnode : node ∈ inner.nodes) : globalNode (itemsOf (single hub log)) node
      = localNode hub (renumberNode (localSeq (itemsOf (single hub log))) node) := by
  unfold globalNode
  rw [globalOf_single h (hnumbers _ (List.mem_map_of_mem hnode))]
  rfl

theorem globalEdge_single {inner : CausalGraph} (h : Items (itemsOf (single hub log)))
    (hnumbers : Numbers (itemsOf (single hub log)) inner) (hwf : WellFormed inner)
    {edge : CausalEdge} (hedge : edge ∈ inner.edges) : globalEdge (itemsOf (single hub log)) edge
      = localEdge hub (renumberEdge (localSeq (itemsOf (single hub log))) edge) := by
  have hascending := hwf.ascending edge hedge
  unfold globalEdge
  rw [globalOf_single h (hnumbers _ hascending.src), globalOf_single h (hnumbers _ hascending.dst)]
  rfl

theorem members_renumber (g : Int → Int) (answer : CausalQuery) :
    members (renumberAnswer g answer) = (members answer).map g := by
  simp only [members, renumberAnswer, List.map_append, List.map_map, Option.map_map]
  cases answer.node <;> rfl

theorem member_within {inner : CausalGraph} {answer : CausalQuery} (h : Within inner answer)
    {seq : Int} (hseq : seq ∈ members answer) : seq ∈ inner.nodes.map CausalNode.seq := by
  simp only [members, List.mem_append, List.mem_map, Option.mem_toList,
    Option.map_eq_some_iff] at hseq
  rcases hseq with ((⟨node, hnode, rfl⟩ | ⟨node, hnode, rfl⟩) | ⟨link, hlink, rfl⟩) |
    ⟨node, hnode, rfl⟩
  · exact List.mem_map_of_mem (h.transitive node hnode)
  · exact List.mem_map_of_mem (h.unsupported node hnode)
  · exact List.mem_map_of_mem (h.direct link hlink).1
  · exact List.mem_map_of_mem (h.node node hnode)

theorem inducedEdges_renumber {inner : CausalGraph} {answer : CausalQuery} {g : Int → Int}
    (hwf : WellFormed inner) (hkeeps : Keeps g (inner.nodes.map CausalNode.seq))
    (h : Within inner answer) :
    inducedEdges (renumberAnswer g answer) (inner.edges.map (renumberEdge g))
      = (inducedEdges answer inner.edges).map (renumberEdge g) := by
  have hmem : ∀ seq ∈ inner.nodes.map CausalNode.seq,
      (g seq ∈ members (renumberAnswer g answer) ↔ seq ∈ members answer) := by
    intro seq hseq
    rw [members_renumber, List.mem_map]
    constructor
    · rintro ⟨other, hother, heq⟩
      rwa [← (hkeeps.eq_iff (member_within h hother) hseq).mp heq]
    · intro hin
      exact ⟨seq, hin, rfl⟩
  unfold inducedEdges
  rw [List.filter_map]
  congr 1
  refine List.filter_congr fun edge hedge => decide_eq_decide.mpr ?_
  have hascending := hwf.ascending edge hedge
  exact and_congr (hmem _ hascending.src) (hmem _ hascending.dst)

/-- An answer over the synthetic graph translates to the local one. -/
theorem federatedAnswer_single {inner : CausalGraph} (h : Items (itemsOf (single hub log)))
    (hnumbers : Numbers (itemsOf (single hub log)) inner) (hwf : WellFormed inner)
    (hkeeps : Keeps (localSeq (itemsOf (single hub log))) (inner.nodes.map CausalNode.seq))
    {answer : CausalQuery} (hwithin : Within inner answer) :
    federatedAnswer answer ⟨hub, localSeq (itemsOf (single hub log)) answer.seq⟩
        (refsOf (itemsOf (single hub log))) [hub] inner.edges
      = .ok (localAnswer hub (renumberGraph (localSeq (itemsOf (single hub log))) inner)
        (renumberAnswer (localSeq (itemsOf (single hub log))) answer)) := by
  have hnode : ∀ node ∈ inner.nodes, federatedNode (refsOf (itemsOf (single hub log))) node
      = .ok (localNode hub (renumberNode (localSeq (itemsOf (single hub log))) node)) :=
    fun node hin => by rw [h.federatedNode_ok hnumbers hin, globalNode_single h hnumbers hin]
  have hedge : ∀ edge ∈ inner.edges, federatedEdge (refsOf (itemsOf (single hub log))) edge
      = .ok (localEdge hub (renumberEdge (localSeq (itemsOf (single hub log))) edge)) :=
    fun edge hin => by
      rw [h.federatedEdge_ok hnumbers hwf hin, globalEdge_single h hnumbers hwf hin]
  have hlink : ∀ link ∈ answer.direct, federatedLink (refsOf (itemsOf (single hub log))) link
      = .ok { edge := localEdge hub (renumberEdge (localSeq (itemsOf (single hub log))) link.edge)
              node := localNode hub
                (renumberNode (localSeq (itemsOf (single hub log))) link.node) } :=
    fun link hin => bind_of_ok (hedge _ (hwithin.direct link hin).2)
      (bind_of_ok (hnode _ (hwithin.direct link hin).1) rfl)
  have hsource : answer.node.mapM (federatedNode (refsOf (itemsOf (single hub log))))
      = .ok (answer.node.map fun node =>
        localNode hub (renumberNode (localSeq (itemsOf (single hub log))) node)) := by
    cases hanswer : answer.node with
    | none => rfl
    | some node =>
        rw [Option.mapM_some, hnode node (hwithin.node node (by rw [hanswer]; rfl))]
        rfl
  unfold federatedAnswer localAnswer
  refine bind_of_ok (mapM_ok fun edge hin => hedge edge (List.mem_of_mem_filter hin))
    (bind_of_ok hsource (bind_of_ok (mapM_ok hlink)
      (bind_of_ok (mapM_ok fun node hin => hnode node (hwithin.transitive node hin))
        (bind_of_ok (mapM_ok fun node hin => hnode node (hwithin.unsupported node hin)) ?_))))
  rw [show (renumberGraph (localSeq (itemsOf (single hub log))) inner).edges
    = inner.edges.map (renumberEdge (localSeq (itemsOf (single hub log)))) from rfl,
    inducedEdges_renumber hwf hkeeps hwithin]
  simp only [renumberAnswer, List.map_map, Option.map_map]
  rfl

end

/-- A steady log alone is federated as it is. -/
theorem Family.agrees (h : Family (single hub log)) (hsteady : Steady log) :
    AgreesWithLocal hub log := by
  obtain ⟨inner, hinner, hwf, hseqs, hsynthesise, hnumbers, hbuild⟩ := h.build
  have hkeeps : Keeps (localSeq (itemsOf (single hub log))) (inner.nodes.map CausalNode.seq) := by
    rw [hseqs]
    exact h.keeps hsteady
  have hsyntheticRising : (kept (syntheticRows (single hub log))).Pairwise
      fun a b => a.seq < b.seq :=
    List.Pairwise.sublist List.filter_sublist (List.pairwise_map.mpr h.isItems.rising)
  have hlocal : buildCausalGraph log
      = .ok (renumberGraph (localSeq (itemsOf (single hub log))) inner) := by
    rw [← buildCausalGraph_kept log, ← h.kept_renumber hsteady,
      buildCausalGraph_renumber hsyntheticRising (h.keeps hsteady), buildCausalGraph_kept, hinner]
    rfl
  refine ⟨_, hlocal, hbuild.trans (congrArg Except.ok ?_), fun direction seq => ?_⟩
  · unfold localGraph renumberGraph
    rw [sortedHubs_single, List.map_map, List.map_map]
    congr 1
    · exact List.map_congr_left fun node hnode => globalNode_single h.isItems hnumbers hnode
    · exact List.map_congr_left fun edge hedge => globalEdge_single h.isItems hnumbers hwf hedge
  have hquery : federatedQuery (single hub log) direction ⟨hub, seq⟩ = (do
      let answer ← (query inner (indexOf (refsOf (itemsOf (single hub log))) ⟨hub, seq⟩)
        direction).mapError FederationError.value
      federatedAnswer answer ⟨hub, seq⟩ (refsOf (itemsOf (single hub log))) [hub] inner.edges) := by
    unfold federatedQuery
    rw [if_neg (by simp [Dict.contains, single])]
    exact bind_of_ok hsynthesise rfl
  by_cases hin : seq ∈ (renumberGraph (localSeq (itemsOf (single hub log))) inner).nodes.map
      CausalNode.seq
  · obtain ⟨node', hnode', rfl⟩ := List.mem_map.mp hin
    obtain ⟨node, hnode, rfl⟩ := List.mem_map.mp hnode'
    obtain ⟨answer, hanswer, hseq, hwithin, hrenumbered⟩ :=
      query_renumber hwf hkeeps direction hnode
    -- the identity's number is the synthetic sequence of the node
    have hglobal := globalOf_single h.isItems (hnumbers _ (List.mem_map_of_mem hnode))
    have hindex : indexOf (refsOf (itemsOf (single hub log)))
        ⟨hub, localSeq (itemsOf (single hub log)) node.seq⟩ = node.seq := by
      obtain ⟨item, hitem, hitemSeq⟩ := hnumbers _ (List.mem_map_of_mem hnode)
      have hitemRef : refOf item.2 = ⟨hub, localSeq (itemsOf (single hub log)) node.seq⟩ := by
        rw [← hglobal, ← hitemSeq, h.isItems.globalOf_eq hitem]
      rcases h.isItems.indexOf_cases ⟨hub, localSeq (itemsOf (single hub log)) node.seq⟩ with
        ⟨other, hother, href, hfound⟩ | ⟨hnone, -⟩
      · rw [hfound, ← hitemSeq,
          List.inj_on_of_nodup_map h.isItems.identities hother hitem (href.trans hitemRef.symm)]
      · exact absurd hitemRef (hnone item hitem)
    have hanswered := federatedAnswer_single h.isItems hnumbers hwf hkeeps hwithin
    rw [hseq] at hanswered
    have hasked : (query inner (indexOf (refsOf (itemsOf (single hub log)))
        ⟨hub, localSeq (itemsOf (single hub log)) node.seq⟩) direction).mapError
          FederationError.value = .ok answer := by
      rw [hindex, hanswer]
      rfl
    rw [show (renumberNode (localSeq (itemsOf (single hub log))) node).seq
      = localSeq (itemsOf (single hub log)) node.seq from rfl]
    exact ⟨_, hrenumbered, hquery.trans (bind_of_ok (f := fun answer => federatedAnswer answer
      ⟨hub, localSeq (itemsOf (single hub log)) node.seq⟩ (refsOf (itemsOf (single hub log)))
      [hub] inner.edges) hasked hanswered)⟩
  · refine ⟨_, query_absent (hwf.renumber hkeeps) direction hin, hquery.trans ?_⟩
    have habsent : indexOf (refsOf (itemsOf (single hub log))) ⟨hub, seq⟩
        ∉ inner.nodes.map CausalNode.seq := by
      intro hindex
      rcases h.isItems.indexOf_cases ⟨hub, seq⟩ with ⟨item, hitem, href, hfound⟩ | ⟨-, hzero⟩
      · rw [hfound] at hindex
        obtain ⟨node, hnode, heq⟩ := List.mem_map.mp hindex
        refine hin (List.mem_map.mpr
          ⟨renumberNode _ node, List.mem_map_of_mem hnode, ?_⟩)
        show localSeq (itemsOf (single hub log)) node.seq = seq
        unfold localSeq
        rw [heq, h.isItems.globalOf_eq hitem, href]
      · obtain ⟨item, hitem, heq⟩ := hnumbers _ hindex
        have := (mem_numbered hitem).1
        omega
    exact bind_of_ok (by rw [query_absent hwf direction habsent]; rfl) (by
      simp [federatedAnswer, localAnswer, inducedEdges, members]
      rfl)

/-! ## When the federated graph refines the local ones -/

omit [Builtins] in
theorem eq_of_map_eq {α β : Type} {f : α → β} {l l' : List α}
    (hinj : ∀ a ∈ l, ∀ b ∈ l', f a = f b → a = b) (h : l.map f = l'.map f) : l = l' := by
  induction l generalizing l' with
  | nil => exact (List.map_eq_nil_iff.mp h.symm).symm
  | cons a rest ih =>
      cases l' with
      | nil => cases h
      | cons b rest' =>
          obtain ⟨hhead, htail⟩ := List.cons.inj h
          rw [hinj a (by simp) b (by simp) hhead, ih (fun x hx y hy =>
            hinj x (List.mem_cons_of_mem _ hx) y (List.mem_cons_of_mem _ hy)) htail]

/-- A log whose federated nodes stand in local order is steady. -/
theorem Family.steady_of_agrees (h : Family (single hub log)) (hagrees : AgreesWithLocal hub log) :
    Steady log := by
  have hget : (single hub log).get? hub = some log := single_get?.mpr ⟨rfl, rfl⟩
  obtain ⟨graph, hgraph, hfederated, -⟩ := hagrees
  obtain ⟨inner, -, hwf, hseqs, -, hnumbers, hbuild⟩ := h.build
  obtain ⟨graph', hgraph', -, hlocalSeqs⟩ :=
    buildCausalGraph_rising (h.rising hub log hget) (h.decodes hub log hget)
  cases hgraph.symm.trans hgraph'
  -- the sequences of the federated nodes are those of the merged rows
  have hnodes := congrArg FederatedCausalGraph.nodes (Except.ok.inj (hbuild.symm.trans hfederated))
  have hsame : (inner.nodes.map CausalNode.seq).map (localSeq (itemsOf (single hub log)))
      = graph.nodes.map CausalNode.seq := by
    have hmapped := congrArg (List.map FederatedNode.seq) hnodes
    simp only [localGraph, List.map_map] at hmapped
    rw [List.map_map]
    exact hmapped
  have hmerged : (inner.nodes.map CausalNode.seq).map (localSeq (itemsOf (single hub log)))
      = ((mergedOf (single hub log)).filter isKept).map HubEvent.seq := by
    have hkept : kept (syntheticRows (single hub log))
        = ((itemsOf (single hub log)).filter fun item => isKept item.2).map syntheticEvent := by
      unfold kept syntheticRows
      rw [List.filter_map]
      rfl
    rw [hseqs, hkept, List.map_map, List.map_map, ← map_snd_numbered 1 (mergedOf (single hub log)),
      List.filter_map, List.map_map]
    refine List.map_congr_left fun item hitem => ?_
    show localSeq (itemsOf (single hub log)) item.1 = item.2.seq
    unfold localSeq
    rw [h.isItems.globalOf_eq (List.mem_filter.mp hitem).1]
    rfl
  have hrows : (mergedOf (single hub log)).filter isKept
      = (kept log).map (HubEvent.fromStored hub) := by
    have htags : ∀ event, event ∈ mergedOf (single hub log) → event.hubId = hub := by
      intro event hevent
      obtain ⟨hub', log', hget', stored, -, rfl⟩ := mem_taggedLogs.mp (mem_mergedOf.mp hevent)
      exact (single_get?.mp hget').1.symm
    have hmem : ∀ event ∈ (kept log).map (HubEvent.fromStored hub),
        event ∈ mergedOf (single hub log) := by
      intro event hevent
      obtain ⟨stored, hstored, rfl⟩ := List.mem_map.mp hevent
      exact mem_mergedOf.mpr (mem_taggedLogs.mpr
        ⟨hub, log, hget, stored, (List.mem_filter.mp hstored).1, rfl⟩)
    refine eq_of_map_eq (f := HubEvent.seq) (fun a ha b hb heq => ?_) ?_
    · have ha := (List.mem_filter.mp ha).1
      have hb := hmem b hb
      refine List.inj_on_of_nodup_map h.sorted.2 ha hb (Prod.ext ?_ heq)
      exact (htags a ha).trans (htags b hb).symm
    · rw [← hmerged, hsame, hlocalSeqs, List.map_map]
      rfl
  have hpairwise := List.Pairwise.sublist (List.filter_sublist (p := isKept)) h.sorted.1
  rw [hrows] at hpairwise
  have hrising := List.Pairwise.sublist (List.filter_sublist (l := log)
    (p := fun event => event.kind ∈ graphKinds)) (h.rising hub log hget)
  refine ((List.pairwise_map.mp hpairwise).and hrising).imp_of_mem fun {a b} ha hb hab => ?_
  have hat := (h.committable hub log hget a (List.mem_filter.mp ha).1).timed
  have hbt := (h.committable hub log hget b (List.mem_filter.mp hb).1).timed
  rcases (keyLt_iff hat hbt).mp hab.1 with hlt | hlt
  · intro hba
    have hata : a.ts.isNaN = false := hat
    have hbta : b.ts.isNaN = false := hbt
    have hlt' : a.ts < b.ts := hlt
    rw [Ieee.lt_iff hata hbta, Ieee.RankLt] at hlt'
    rw [Ieee.lt_iff hbta hata, Ieee.RankLt] at hba
    omega
  · exact hlt.1

/-- Within each hub the federated edges rise, and each log alone is
federated to its local graph and answers, exactly when no hub's graph rows
step back in time. -/
theorem federation_refines_iff (h : Family logs) :
    ((∃ graph, buildFederatedGraph logs = .ok graph ∧ ∀ edge ∈ graph.edges,
        edge.src.hubId = edge.dst.hubId → edge.src.seq < edge.dst.seq) ∧
      ∀ hub log, logs.get? hub = some log → AgreesWithLocal hub log) ↔
      ∀ hub log, logs.get? hub = some log → Steady log := by
  constructor
  · rintro ⟨-, hagrees⟩ hub log hget
    exact (h.alone hget).steady_of_agrees (hagrees hub log hget)
  · intro hsteady
    exact ⟨h.edges_rise hsteady, fun hub log hget => (h.alone hget).agrees (hsteady hub log hget)⟩

/-! ## A clock that steps back -/

theorem family_of_items (hrising : ∀ entry ∈ logs.items, entry.2.Pairwise fun a b => a.seq < b.seq)
    (hcommits : ∀ entry ∈ logs.items, ∀ event ∈ entry.2,
      (eventEncoding (HubEvent.fromStored entry.1 event)).toOption.isSome)
    (hdecodes : ∀ entry ∈ logs.items, ∀ event ∈ entry.2, (nodeFromEvent event).toOption.isSome) :
    Family logs where
  rising := fun hub log hget => hrising _ ((Dict.mem_items_iff _ hub log).mpr hget)
  committable := fun hub log hget event hevent =>
    exists_ok_of_isSome (hcommits _ ((Dict.mem_items_iff _ hub log).mpr hget) event hevent)
  decodes := fun hub log hget event hevent _ =>
    exists_ok_of_isSome (hdecodes _ ((Dict.mem_items_iff _ hub log).mpr hget) event hevent)

omit [Builtins] in
theorem steady_of_items (h : ∀ entry ∈ logs.items, (kept entry.2).Pairwise fun a b => ¬ b.ts < a.ts) :
    ∀ hub log, logs.get? hub = some log → Steady log :=
  fun hub log hget => h _ ((Dict.mem_items_iff _ hub log).mpr hget)

/-- A claim row of one task. -/
def taskRow (seq : Int) (ts : Float) (task : String) : StoredEvent where
  seq := seq
  ts := ts
  kind := EventKind.claim
  payload := [("task_id", .str task)]

/-- Two hubs whose clocks run on. -/
def steadyLogs : Logs :=
  (single "east" [taskRow 1 3 "t", taskRow 2 5 "u"]).set "west" [taskRow 7 4 "t"]

omit [Builtins] in
theorem federation_refines_iff_steady :
    letI : Builtins := Builtins.ascii
    ∃ graph, buildFederatedGraph steadyLogs = .ok graph ∧ ∀ edge ∈ graph.edges,
      edge.src.hubId = edge.dst.hubId → edge.src.seq < edge.dst.seq := by
  let _ : Builtins := Builtins.ascii
  have hfamily : Family steadyLogs :=
    family_of_items (by decide +kernel) (by decide +kernel) (by decide +kernel)
  exact ((federation_refines_iff hfamily).mpr (steady_of_items (by decide +kernel))).1

/-- The second row carries the earlier time. -/
def steppedBack : Logs := single "east" [taskRow 1 5 "t", taskRow 2 3 "t"]

omit [Builtins] in
/-- The lifecycle edge of a task falls from its second row to its first. -/
theorem stepped_back_edge_falls :
    letI : Builtins := Builtins.ascii
    Family steppedBack ∧ ¬ ∃ graph, buildFederatedGraph steppedBack = .ok graph ∧
      ∀ edge ∈ graph.edges, edge.src.hubId = edge.dst.hubId → edge.src.seq < edge.dst.seq := by
  let _ : Builtins := Builtins.ascii
  constructor
  · exact family_of_items (by decide +kernel) (by decide +kernel) (by decide +kernel)
  · rintro ⟨graph, hgraph, hrise⟩
    have hedges : (buildFederatedGraph steppedBack).toOption.map (fun graph =>
        graph.edges.map fun edge => (edge.src, edge.dst))
          = some [(⟨"east", 2⟩, ⟨"east", 1⟩)] := by decide +kernel
    rw [hgraph] at hedges
    have hends := Option.some.inj hedges
    obtain ⟨edge, hedge, heq⟩ := List.mem_map.mp (hends ▸ List.mem_singleton_self _)
    obtain ⟨hsrc, hdst⟩ := Prod.mk.inj heq
    have := hrise edge hedge (by rw [hsrc, hdst])
    rw [hsrc, hdst] at this
    exact absurd this (by decide)

end CausalFederation

end SynapseChannel
