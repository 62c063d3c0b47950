import SynapseChannel.Core.Journal
import SynapseChannel.Core.ReleaseIndex
import SynapseChannel.Lib.Dominance
import SynapseChannel.Lib.Group

/-!
# Core — Causality

The coordination-causality graph of an event log: lifecycle, dependency
and contention edges, each from a lower to a higher sequence, and the
queries over it. The counterfactual of an event is the set of events it
dominates.
-/

namespace SynapseChannel

open Py Outcome

namespace Causality

/-! ## Nodes and edges -/

def lifecycle : String := "lifecycle"

def dependency : String := "dependency"

def contention : String := "contention"

/-- Event kinds that become nodes. -/
def graphKinds : List String := EventKind.snapshots ++ [EventKind.release, EventKind.ledgerTask]

/-- Status markers that count a snapshot as a completion. -/
def doneStatuses : List String :=
  ["done", "released", "complete", "completed", "resolved", "closed"]

/-- A causal edge from an earlier event to a later one. -/
structure CausalEdge where
  src : Int
  dst : Int
  relation : String
  detail : String
deriving DecidableEq

structure CausalGraph where
  nodes : List CausalNode
  edges : List CausalEdge
  generatedFromSeq : Int
deriving DecidableEq

/-- Tasks and their nodes, in first-seen order. -/
abbrev ByTask := Dict String (List CausalNode)

section Nodes

variable [Builtins]

/-- The most useful text field an event carries. -/
def eventText (event : StoredEvent) : String :=
  let texts := ["title", "note", "text", "data_ref"].map fun key =>
    (event.payload.getD key (.str "")).toStr
  (texts.find? fun text => text ≠ "").getD ""

/-- An identity binds the display scope it came with. -/
def checkNodeScope (pathIdentity : Option ClaimScopeIdentity) (worktree : String)
    (paths : List String) : Except String Unit :=
  if pathIdentity.any fun x => !x.validatesDisplayScope worktree paths then
    .error "causality claim path identity does not match its display scope"
  else .ok ()

/-- Project a stored event into a node. -/
def nodeFromEvent (event : StoredEvent) : Except String CausalNode := do
  let payload := event.payload
  let pathIdentity ← parseOptionalClaimScopeIdentity payload
  let paths ← strings (payload.getD "paths" (.arr []))
  let worktree := (payload.getD "worktree" (.str "")).toStr
  checkNodeScope pathIdentity worktree paths
  let dependsOn ← strings (payload.getD "depends_on" (.arr []))
  return {
    seq := event.seq
    ts := event.ts
    kind := event.kind
    taskId := (payload.getD "task_id" (.str "")).toStr
    owner := (payload.getD "owner" (.str "")).toStr
    status := (payload.getD "status" (.str "")).toStr
    paths := paths
    worktree := worktree
    dependsOn := dependsOn
    text := eventText event
    pathIdentity := pathIdentity }

end Nodes

/-! ## Edge builders -/

def seqLt (a b : Int) : Bool := decide (a < b)

/-- Nodes in ascending sequence order. -/
def bySequence (nodes : List CausalNode) : List CausalNode := sortedBy seqLt CausalNode.seq nodes

/-- Edges between consecutive events of one task. -/
def lifecycleOf (nodes : List CausalNode) : List CausalEdge :=
  let ordered := bySequence nodes
  (ordered.zip ordered.tail).map fun (earlier, later) =>
    let before := earlier.kind
    let after := later.kind
    { src := earlier.seq, dst := later.seq, relation := lifecycle, detail := s!"{before} → {after}" }

def lifecycleEdges (byTask : ByTask) : List CausalEdge := byTask.values.flatMap lifecycleOf

/-- A task's earliest actual claim node. -/
def firstClaim (nodes : List CausalNode) : Option CausalNode :=
  nodes.find? fun node => node.kind ∈ EventKind.snapshots

/-- The dependencies declared by a task's latest ledger node. -/
def declaredDependencies (nodes : List CausalNode) : List String :=
  match nodes.reverse.find? fun node => node.kind = EventKind.ledgerTask ∧ node.dependsOn ≠ [] with
  | some node => node.dependsOn
  | none => []

/-- `max(nodes, key=seq)`, the first of equals. -/
def latestNode : List CausalNode → Option CausalNode
  | [] => none
  | node :: rest =>
    some (rest.foldl (fun best other => if best.seq < other.seq then other else best) node)

/-- A release, or a node whose status marks its task done. -/
def completes (node : CausalNode) : Bool :=
  node.kind == EventKind.release || decide (node.status ∈ doneStatuses)

/-- The latest completion of a task strictly before a sequence. -/
def completionBefore (nodes : List CausalNode) (beforeSeq : Int) : Option CausalNode :=
  latestNode (nodes.filter fun node => decide (node.seq < beforeSeq) && completes node)

/-- Edges from a dependency's completion to the first claim of one task. -/
def dependenciesOf (byTask : ByTask) (taskId : String) (nodes : List CausalNode) :
    List CausalEdge :=
  let ordered := bySequence nodes
  match firstClaim ordered with
  | none => []
  | some anchor =>
    (declaredDependencies ordered).filterMap fun dependencyId =>
      (completionBefore ((byTask.get? dependencyId).getD []) anchor.seq).map fun enabling =>
        { src := enabling.seq
          dst := anchor.seq
          relation := dependency
          detail := s!"task {taskId} depends on {dependencyId}" }

def dependencyEdges (byTask : ByTask) : List CausalEdge :=
  byTask.items.flatMap fun (taskId, nodes) => dependenciesOf byTask taskId nodes

section Contention

variable [Builtins]

/-- The live claims, the freed ones and the edges found so far. -/
structure Contending where
  live : Dict String CausalNode := Dict.empty
  released : ReleasedClaimIndex := {}
  edges : List CausalEdge := []

/-- The edge from the release that let a fresh claim proceed. -/
def contentionEdge (blocker : Int) (node : CausalNode) : CausalEdge :=
  let task := node.taskId
  { src := blocker
    dst := node.seq
    relation := contention
    detail := s!"claim on {task} freed by an overlapping release" }

/-- A release ends the live claim of its task. -/
def Contending.release (c : Contending) (node : CausalNode) : Contending :=
  { c with
    live := c.live.erase node.taskId
    released :=
      match c.live.get? node.taskId with
      | some held => c.released.add node.seq held
      | none => c.released }

/-- A snapshot holds its task; a fresh one is traced to a release. -/
def Contending.snapshot (c : Contending) (node : CausalNode) : Contending :=
  { c with
    live := c.live.set node.taskId node
    edges :=
      if c.live.contains node.taskId then c.edges
      else
        match c.released.latestConflicting node with
        | some blocker => c.edges ++ [contentionEdge blocker node]
        | none => c.edges }

def Contending.step (c : Contending) (node : CausalNode) : Contending :=
  if node.kind = EventKind.release then c.release node
  else if node.kind ∈ EventKind.snapshots then c.snapshot node
  else c

/-- Edges from a release to a later, path-overlapping fresh claim. -/
def contentionEdges (nodes : List CausalNode) : List CausalEdge :=
  (nodes.foldl Contending.step {}).edges

/-! ## The graph -/

/-- `(src, dst, relation)`. -/
def edgeKey (edge : CausalEdge) : Int × Int × String := (edge.src, edge.dst, edge.relation)

/-- `a < b` on edge keys. -/
def edgeKeyLt (a b : Int × Int × String) : Bool :=
  if a.1 = b.1 then
    if a.2.1 = b.2.1 then decide (a.2.2 < b.2.2) else decide (a.2.1 < b.2.1)
  else decide (a.1 < b.1)

/-- The nodes that name a task, under it. -/
def nodesByTask (nodes : List CausalNode) : ByTask :=
  groupBy CausalNode.taskId id (nodes.filter fun node => node.taskId ≠ "")

/-- Every edge of the nodes, unordered. -/
def edgesOf (nodes : List CausalNode) : List CausalEdge :=
  let byTask := nodesByTask nodes
  lifecycleEdges byTask ++ dependencyEdges byTask ++ contentionEdges nodes

def graphOf (nodes : List CausalNode) : CausalGraph where
  nodes := nodes
  edges := sortedBy edgeKeyLt edgeKey (edgesOf nodes)
  generatedFromSeq := ((latestNode nodes).map CausalNode.seq).getD 0

/-- Fold an event log into a coordination-causality graph. -/
def buildCausalGraph (events : List StoredEvent) : Except String CausalGraph := do
  let ordered := sortedBy seqLt StoredEvent.seq (events.filter fun event => event.kind ∈ graphKinds)
  let nodes ← ordered.mapM nodeFromEvent
  return graphOf nodes

end Contention

/-! ## Queries -/

inductive Direction
  | causes
  | effects
  | counterfactual
deriving DecidableEq

/-- A one-hop edge paired with the node at its far end. -/
structure CausalLink where
  edge : CausalEdge
  node : CausalNode
deriving DecidableEq

structure CausalQuery where
  seq : Int
  direction : Direction
  present : Bool
  node : Option CausalNode
  direct : List CausalLink
  transitive : List CausalNode
  unsupported : List CausalNode
deriving DecidableEq

/-- Edges under one of their ends. -/
abbrev Adjacency := Dict Int (List CausalEdge)

def forwardOf (edges : List CausalEdge) : Adjacency := groupBy CausalEdge.src id edges

def backwardOf (edges : List CausalEdge) : Adjacency := groupBy CausalEdge.dst id edges

/-- `adjacency.get(seq, ())`. -/
def edgesAt (adjacency : Adjacency) (seq : Int) : List CausalEdge :=
  (adjacency.get? seq).getD []

def nodesBySeq (nodes : List CausalNode) : Dict Int CausalNode :=
  nodes.foldl (fun bySeq node => bySeq.set node.seq node) Dict.empty

/-- `by_seq[seq]`. -/
def nodeAt (bySeq : Dict Int CausalNode) (seq : Int) : Except String CausalNode :=
  match bySeq.get? seq with
  | some node => .ok node
  | none => .error s!"KeyError: {seq}"

/-- `(node seq, relation)` of a link. -/
def linkKeyLt (a b : Int × String) : Bool :=
  if a.1 = b.1 then decide (a.2 < b.2) else decide (a.1 < b.1)

/-- Pair an edge with the node at its far end. -/
def linkAt (bySeq : Dict Int CausalNode) (endpoint : CausalEdge → Int) (edge : CausalEdge) :
    Except String CausalLink := do
  let node ← nodeAt bySeq (endpoint edge)
  return { edge := edge, node := node }

def directLinks (edges : List CausalEdge) (bySeq : Dict Int CausalNode)
    (endpoint : CausalEdge → Int) : Except String (List CausalLink) := do
  let links ← edges.mapM (linkAt bySeq endpoint)
  return sortedBy linkKeyLt (fun link => (link.node.seq, link.edge.relation)) links

/-- All sequences reachable from `start`; the search looks at a sequence
once, and `none` stands for one that looks at more than `limit`. -/
def reach (adjacency : Adjacency) (start : Int) (endpoint : CausalEdge → Int) (limit : Nat) :
    Option (List Int) :=
  Dominance.search (fun seq => (edgesAt adjacency seq).map endpoint) limit [start] [start]

/-- The saturated set of descendants whose every incoming edge starts at
`seq` or at another of them, the affected ones visited as `orders` says. -/
def unsupportedSeqs (seq : Int) (affected : List Int) (backward : Adjacency)
    (orders : Nat → List Int) : Option (List Int) :=
  Dominance.saturate (fun n => (edgesAt backward n).map CausalEdge.src) seq orders
    (affected.length + 1) 0 []

def ascending (seqs : List Int) : List Int := sortedBy seqLt id seqs

def finished {α : Type} : Option α → Except String α
  | some result => .ok result
  | none => .error "the search did not end"

/-- Descendants whose every recorded cause traces back through `seq`, the
affected ones visited as `orders` says. -/
def unsupportedNodes (orders : List Int → Nat → List Int) (seq : Int) (affected : List Int)
    (backward : Adjacency) (bySeq : Dict Int CausalNode) : Except String (List CausalNode) := do
  let lost ← finished (unsupportedSeqs seq affected backward (orders affected))
  (ascending lost).mapM (nodeAt bySeq)

/-- The unsupported nodes a direction asks for. -/
def unsupportedFor (orders : List Int → Nat → List Int) (direction : Direction) (seq : Int)
    (affected : List Int) (backward : Adjacency) (bySeq : Dict Int CausalNode) :
    Except String (List CausalNode) :=
  if direction = .counterfactual then unsupportedNodes orders seq affected backward bySeq
  else .ok []

/-- Answer one query at a node of the graph. -/
def answerAt (orders : List Int → Nat → List Int) (graph : CausalGraph)
    (bySeq : Dict Int CausalNode) (seq : Int) (node : CausalNode) (direction : Direction) :
    Except String CausalQuery := do
  let forward := forwardOf graph.edges
  let backward := backwardOf graph.edges
  let adjacency := if direction = .causes then backward else forward
  let endpoint := if direction = .causes then CausalEdge.src else CausalEdge.dst
  let direct ← directLinks (edgesAt adjacency seq) bySeq endpoint
  let seen ← finished (reach adjacency seq endpoint graph.nodes.length)
  let reached := ascending (seen.filter fun n => n ≠ seq)
  let transitive ← reached.mapM (nodeAt bySeq)
  let unsupported ← unsupportedFor orders direction seq reached backward bySeq
  return {
    seq := seq, direction := direction, present := true, node := some node,
    direct := direct, transitive := transitive, unsupported := unsupported }

/-- Answer one query against a sequence point. -/
def queryWith (orders : List Int → Nat → List Int) (graph : CausalGraph) (seq : Int)
    (direction : Direction) : Except String CausalQuery :=
  let bySeq := nodesBySeq graph.nodes
  match bySeq.get? seq with
  | none => .ok {
      seq := seq, direction := direction, present := false, node := none,
      direct := [], transitive := [], unsupported := [] }
  | some node => answerAt orders graph bySeq seq node direction

/-- The affected sequences in ascending order, in every pass. -/
def query (graph : CausalGraph) (seq : Int) (direction : Direction) : Except String CausalQuery :=
  queryWith (fun affected _ => affected) graph seq direction

def causes (graph : CausalGraph) (seq : Int) : Except String CausalQuery :=
  query graph seq .causes

def effects (graph : CausalGraph) (seq : Int) : Except String CausalQuery :=
  query graph seq .effects

def counterfactual (graph : CausalGraph) (seq : Int) : Except String CausalQuery :=
  query graph seq .counterfactual

/-! ## Ordered nodes -/

/-- The nodes stand in strictly rising sequence. -/
def RisingNodes (nodes : List CausalNode) : Prop := nodes.Pairwise fun a b => a.seq < b.seq

theorem sortedBy_seqLt {α : Type} (seq : α → Int) (items : List α) :
    (sortedBy seqLt seq items).Pairwise fun a b => seq a ≤ seq b := by
  have h : (sortedBy seqLt seq items).Pairwise fun a b => seqLt (seq b) (seq a) = false :=
    pairwise_sortedBy seqLt (P := fun _ => True)
      (fun _ _ _ hba hcb => by simp only [seqLt, decide_eq_false_iff_not] at *; omega)
      (fun _ _ => by simp only [seqLt, decide_eq_false_iff_not]; omega) seq fun _ _ => trivial
  exact h.imp fun hba => by simpa [seqLt] using hba

/-- Distinct sequences sort to strictly rising ones. -/
theorem sortedBy_rising {α : Type} {seq : α → Int} {items : List α} (h : (items.map seq).Nodup) :
    (sortedBy seqLt seq items).Pairwise fun a b => seq a < seq b := by
  have hle := sortedBy_seqLt seq items
  have hne : (sortedBy seqLt seq items).Pairwise fun a b => seq a ≠ seq b :=
    List.pairwise_map.mp (((sortedBy_perm seqLt seq items).map seq).nodup_iff.mpr h)
  exact (hle.and hne).imp fun h => by omega

theorem bySequence_eq {nodes : List CausalNode} (h : RisingNodes nodes) :
    bySequence nodes = nodes :=
  sortedBy_eq_self seqLt (h.imp fun hlt => by simp only [seqLt, decide_eq_false_iff_not]; omega)

theorem RisingNodes.sublist {nodes nodes' : List CausalNode} (h : RisingNodes nodes)
    (hsub : nodes'.Sublist nodes) : RisingNodes nodes' := List.Pairwise.sublist hsub h

theorem RisingNodes.nodup {nodes : List CausalNode} (h : RisingNodes nodes) :
    (nodes.map CausalNode.seq).Nodup :=
  List.pairwise_map.mpr (h.imp fun hlt => by omega)

theorem RisingNodes.inj {nodes : List CausalNode} (h : RisingNodes nodes) {a b : CausalNode}
    (ha : a ∈ nodes) (hb : b ∈ nodes) (heq : a.seq = b.seq) : a = b :=
  List.inj_on_of_nodup_map h.nodup ha hb heq

theorem nodeFromEvent_seq [Builtins] {event : StoredEvent} {node : CausalNode}
    (h : nodeFromEvent event = .ok node) : node.seq = event.seq := by
  unfold nodeFromEvent at h
  obtain ⟨_, -, h⟩ := bind_ok h
  obtain ⟨_, -, h⟩ := bind_ok h
  obtain ⟨_, -, h⟩ := bind_ok h
  obtain ⟨_, -, h⟩ := bind_ok h
  cases h
  rfl

theorem mapM_nodes_seq [Builtins] {events : List StoredEvent} {nodes : List CausalNode}
    (h : events.mapM nodeFromEvent = .ok nodes) :
    nodes.map CausalNode.seq = events.map StoredEvent.seq := by
  induction events generalizing nodes with
  | nil =>
      cases h
      rfl
  | cons event rest ih =>
      rw [List.mapM_cons] at h
      obtain ⟨node, hnode, h⟩ := bind_ok h
      obtain ⟨others, hothers, h⟩ := bind_ok h
      cases h
      simp [nodeFromEvent_seq hnode, ih hothers]

/-- A log with distinct sequences builds the graph of rising nodes. -/
theorem buildCausalGraph_ok [Builtins] {events : List StoredEvent} {graph : CausalGraph}
    (hlog : (events.map StoredEvent.seq).Nodup) (h : buildCausalGraph events = .ok graph) :
    ∃ nodes, RisingNodes nodes ∧ graph = graphOf nodes := by
  unfold buildCausalGraph at h
  obtain ⟨nodes, hnodes, h⟩ := bind_ok h
  cases h
  refine ⟨nodes, ?_, rfl⟩
  have hkept : ((events.filter fun event => event.kind ∈ graphKinds).map StoredEvent.seq).Nodup :=
    hlog.sublist (List.filter_sublist.map _)
  have hrising := sortedBy_rising hkept
  rw [← List.pairwise_map, ← mapM_nodes_seq hnodes, List.pairwise_map] at hrising
  exact hrising

/-! ## Edges go up -/

/-- An edge between two of the nodes, from a lower to a higher sequence. -/
structure Ascending (nodes : List CausalNode) (edge : CausalEdge) : Prop where
  src : edge.src ∈ nodes.map CausalNode.seq
  dst : edge.dst ∈ nodes.map CausalNode.seq
  lt : edge.src < edge.dst

theorem mem_zip_tail {α : Type} {R : α → α → Prop} {l : List α} (h : l.Pairwise R) {a b : α}
    (hab : (a, b) ∈ l.zip l.tail) : a ∈ l ∧ b ∈ l ∧ R a b := by
  induction l with
  | nil => cases hab
  | cons x rest ih =>
      cases rest with
      | nil => cases hab
      | cons y rest =>
          have hcons := List.pairwise_cons.mp h
          simp only [List.tail_cons, List.zip_cons_cons, List.mem_cons, Prod.mk.injEq] at hab
          rcases hab with ⟨rfl, rfl⟩ | hab
          · exact ⟨by simp, by simp, hcons.1 b (by simp)⟩
          · obtain ⟨ha, hb, hr⟩ := ih hcons.2 hab
            exact ⟨List.mem_cons_of_mem _ ha, List.mem_cons_of_mem _ hb, hr⟩

theorem lifecycleOf_ascending {nodes : List CausalNode} (h : RisingNodes nodes)
    {edge : CausalEdge} (hedge : edge ∈ lifecycleOf nodes) : Ascending nodes edge := by
  unfold lifecycleOf at hedge
  rw [bySequence_eq h] at hedge
  obtain ⟨⟨earlier, later⟩, hpair, rfl⟩ := List.mem_map.mp hedge
  obtain ⟨hsrc, hdst, hlt⟩ := mem_zip_tail h hpair
  exact ⟨List.mem_map_of_mem hsrc, List.mem_map_of_mem hdst, hlt⟩

/-- `max` keeps one of the items it compares. -/
theorem latest_fold_mem (best : CausalNode) (rest : List CausalNode) :
    (rest.foldl (fun best other => if best.seq < other.seq then other else best) best)
      ∈ best :: rest := by
  induction rest generalizing best with
  | nil => simp
  | cons other rest ih =>
      rw [List.foldl_cons]
      split
      · exact List.mem_cons_of_mem _ (ih other)
      · rcases List.mem_cons.mp (ih best) with heq | hmem
        · rw [heq]
          simp
        · exact List.mem_cons_of_mem _ (List.mem_cons_of_mem _ hmem)

theorem latestNode_mem {nodes : List CausalNode} {node : CausalNode}
    (h : latestNode nodes = some node) : node ∈ nodes := by
  cases nodes with
  | nil => cases h
  | cons first rest =>
      cases h
      exact latest_fold_mem first rest

theorem completionBefore_mem {nodes : List CausalNode} {beforeSeq : Int} {node : CausalNode}
    (h : completionBefore nodes beforeSeq = some node) : node ∈ nodes ∧ node.seq < beforeSeq := by
  have hmem := latestNode_mem h
  rw [List.mem_filter, Bool.and_eq_true] at hmem
  exact ⟨hmem.1, of_decide_eq_true hmem.2.1⟩

theorem nodesByTask_sublist {nodes values : List CausalNode} {task : String}
    (h : (nodesByTask nodes).get? task = some values) : values.Sublist nodes := by
  rw [get?_groupBy_eq_some h, List.map_id]
  exact List.filter_sublist.trans List.filter_sublist

theorem dependenciesOf_ascending {nodes values : List CausalNode} (h : RisingNodes nodes)
    {task : String} (hvalues : values.Sublist nodes) {edge : CausalEdge}
    (hedge : edge ∈ dependenciesOf (nodesByTask nodes) task values) : Ascending nodes edge := by
  unfold dependenciesOf at hedge
  rw [bySequence_eq (h.sublist hvalues)] at hedge
  cases hanchor : firstClaim values with
  | none => simp [hanchor] at hedge
  | some anchor =>
      simp only [hanchor, List.mem_filterMap, Option.map_eq_some_iff] at hedge
      obtain ⟨dependencyId, -, enabling, hcompletion, rfl⟩ := hedge
      obtain ⟨hin, hlt⟩ := completionBefore_mem hcompletion
      have henabling : enabling ∈ nodes := by
        cases hget : (nodesByTask nodes).get? dependencyId with
        | none => simp [hget] at hin
        | some others =>
            rw [hget] at hin
            exact (nodesByTask_sublist hget).subset hin
      have hdst : anchor ∈ nodes := hvalues.subset (List.mem_of_find?_eq_some hanchor)
      exact ⟨List.mem_map_of_mem henabling, List.mem_map_of_mem hdst, hlt⟩

/-! ## The walk over live claims -/

section Walk

variable [Builtins]

omit [Builtins] in
theorem Ascending.mono {nodes nodes' : List CausalNode} {edge : CausalEdge}
    (h : Ascending nodes edge) (hsub : nodes.Sublist nodes') : Ascending nodes' edge :=
  ⟨(hsub.map _).subset h.src, (hsub.map _).subset h.dst, h.lt⟩

/-- What the walk has collected from the nodes behind it. -/
structure Walked (behind : List CausalNode) (c : Contending)
    (releases : List ReleaseEntry) : Prop where
  index : c.released = ReleasedClaimIndex.addAll releases
  rising : ReleasedClaimIndex.Rising releases
  freed : ∀ entry ∈ releases, entry.1 ∈ behind.map CausalNode.seq
  edges : ∀ edge ∈ c.edges, Ascending behind edge

variable {behind : List CausalNode} {c : Contending} {releases : List ReleaseEntry}
  {node : CausalNode}

/-- What a release files: the live claim it ends, if there is one. -/
def Contending.freed (c : Contending) (node : CausalNode) : List ReleaseEntry :=
  if node.kind = EventKind.release then
    ((c.live.get? node.taskId).map fun held => (node.seq, held)).toList
  else []

theorem Walked.release (h : Walked behind c releases) (hkind : node.kind = EventKind.release)
    (hlast : ∀ n ∈ behind, n.seq < node.seq) :
    Walked (behind ++ [node]) (c.release node) (releases ++ c.freed node) := by
  have hedges : ∀ edge ∈ c.edges, Ascending (behind ++ [node]) edge := fun edge he =>
    (h.edges edge he).mono (List.sublist_append_left _ _)
  have hfreed : ∀ entry ∈ releases, entry.1 ∈ (behind ++ [node]).map CausalNode.seq :=
    fun entry he => by
      rw [List.map_append]
      exact List.mem_append_left _ (h.freed entry he)
  unfold Contending.release Contending.freed
  rw [if_pos hkind]
  cases hheld : c.live.get? node.taskId with
  | none =>
      rw [Option.map_none, Option.toList_none, List.append_nil]
      exact ⟨h.index, h.rising, hfreed, hedges⟩
  | some held =>
      rw [Option.map_some, Option.toList_some]
      refine ⟨?_, ?_, ?_, hedges⟩
      · simp [ReleasedClaimIndex.addAll, h.index]
      · refine List.pairwise_append.mpr ⟨h.rising, by simp, ?_⟩
        intro entry he last hl
        obtain ⟨n, hn, heq⟩ := List.mem_map.mp (h.freed entry he)
        rw [List.mem_singleton.mp hl, ← heq]
        exact hlast n hn
      · intro entry he
        rcases List.mem_append.mp he with he | he
        · exact hfreed entry he
        · rw [List.mem_singleton.mp he]
          simp

theorem Walked.snapshot (h : Walked behind c releases) :
    Walked (behind ++ [node]) (c.snapshot node) releases where
  index := h.index
  rising := h.rising
  freed := by
    intro entry he
    rw [List.map_append]
    exact List.mem_append_left _ (h.freed entry he)
  edges := by
    have hold : ∀ edge ∈ c.edges, Ascending (behind ++ [node]) edge := fun edge he =>
      (h.edges edge he).mono (List.sublist_append_left _ _)
    intro edge he
    simp only [Contending.snapshot] at he
    split at he
    · exact hold edge he
    · split at he
      · rename_i blocker hblocker
        rcases List.mem_append.mp he with he | he
        · exact hold edge he
        · -- the release that freed the scope is one of the nodes behind
          rw [h.index, ReleasedClaimIndex.latestConflicting_eq_scan h.rising,
            ReleasedClaimIndex.scanReleases_eq_some h.rising] at hblocker
          obtain ⟨⟨freed, hentry, hcontends⟩, -⟩ := hblocker
          rw [List.mem_singleton.mp he]
          refine ⟨?_, by simp [contentionEdge], hcontends.earlier⟩
          rw [List.map_append]
          exact List.mem_append_left _ (h.freed _ hentry)
      · exact hold edge he

theorem Walked.step (h : Walked behind c releases) (hlast : ∀ n ∈ behind, n.seq < node.seq) :
    Walked (behind ++ [node]) (c.step node) (releases ++ c.freed node) := by
  unfold Contending.step
  by_cases hrelease : node.kind = EventKind.release
  · rw [if_pos hrelease]
    exact h.release hrelease hlast
  · have hnone : c.freed node = [] := if_neg hrelease
    rw [if_neg hrelease, hnone, List.append_nil]
    split
    · exact h.snapshot
    · refine ⟨h.index, h.rising, fun entry he => ?_, fun edge he => ?_⟩
      · rw [List.map_append]
        exact List.mem_append_left _ (h.freed entry he)
      · exact (h.edges edge he).mono (List.sublist_append_left _ _)

theorem walked {nodes : List CausalNode} (h : RisingNodes nodes) :
    ∃ releases, Walked nodes (nodes.foldl Contending.step {}) releases := by
  induction nodes using List.reverseRecOn with
  | nil => exact ⟨[], rfl, .nil, by simp, by simp⟩
  | append_singleton nodes node ih =>
      obtain ⟨hnodes, -, hlast⟩ := List.pairwise_append.mp h
      obtain ⟨releases, hwalked⟩ := ih hnodes
      rw [List.foldl_append]
      exact ⟨_, hwalked.step fun n hn => hlast n hn node (by simp)⟩

theorem contentionEdges_ascending {nodes : List CausalNode} (h : RisingNodes nodes)
    {edge : CausalEdge} (hedge : edge ∈ contentionEdges nodes) : Ascending nodes edge := by
  obtain ⟨releases, hwalked⟩ := walked h
  exact hwalked.edges edge hedge

theorem edgesOf_ascending {nodes : List CausalNode} (h : RisingNodes nodes) {edge : CausalEdge}
    (hedge : edge ∈ edgesOf nodes) : Ascending nodes edge := by
  simp only [edgesOf, List.mem_append, lifecycleEdges, dependencyEdges, List.mem_flatMap] at hedge
  rcases hedge with (⟨values, hvalues, hedge⟩ | ⟨⟨task, values⟩, hitem, hedge⟩) | hedge
  · obtain ⟨task, hget⟩ := (Dict.mem_values_iff _ _).mp hvalues
    have hsub := nodesByTask_sublist hget
    exact (lifecycleOf_ascending (h.sublist hsub) hedge).mono hsub
  · have hsub := nodesByTask_sublist ((Dict.mem_items_iff _ _ _).mp hitem)
    exact dependenciesOf_ascending h hsub hedge
  · exact contentionEdges_ascending h hedge

theorem graphOf_ascending {nodes : List CausalNode} (h : RisingNodes nodes) {edge : CausalEdge}
    (hedge : edge ∈ (graphOf nodes).edges) : Ascending nodes edge :=
  edgesOf_ascending h ((mem_sortedBy _).mp hedge)

end Walk

/-! ## Reachability in a graph -/

/-- Rising nodes, and edges that rise between them. -/
structure WellFormed (graph : CausalGraph) : Prop where
  rising : RisingNodes graph.nodes
  ascending : ∀ edge ∈ graph.edges, Ascending graph.nodes edge

theorem graphOf_wellFormed [Builtins] {nodes : List CausalNode} (h : RisingNodes nodes) :
    WellFormed (graphOf nodes) :=
  ⟨h, fun _ => graphOf_ascending h⟩

/-- An edge of the graph leads from `a` to `b`. -/
def Leads (graph : CausalGraph) (a b : Int) : Prop :=
  ∃ edge ∈ graph.edges, edge.src = a ∧ edge.dst = b

variable {graph : CausalGraph}

theorem WellFormed.lt (h : WellFormed graph) {a b : Int} (hab : Leads graph a b) : a < b := by
  obtain ⟨edge, hedge, rfl, rfl⟩ := hab
  exact (h.ascending edge hedge).lt

theorem WellFormed.src (h : WellFormed graph) {a b : Int} (hab : Leads graph a b) :
    a ∈ graph.nodes.map CausalNode.seq := by
  obtain ⟨edge, hedge, rfl, rfl⟩ := hab
  exact (h.ascending edge hedge).src

theorem WellFormed.dst (h : WellFormed graph) {a b : Int} (hab : Leads graph a b) :
    b ∈ graph.nodes.map CausalNode.seq := by
  obtain ⟨edge, hedge, rfl, rfl⟩ := hab
  exact (h.ascending edge hedge).dst

/-- Edges rise among finitely many nodes, so none goes down forever. -/
theorem WellFormed.wellFounded (h : WellFormed graph) : WellFounded (Leads graph) := by
  let below : Int → Nat := fun b =>
    ((graph.nodes.map CausalNode.seq).toFinset.filter fun n => n < b).card
  refine Subrelation.wf (r := InvImage (· < ·) below) ?_ (InvImage.wf _ Nat.lt_wfRel.wf)
  intro a b hab
  have hlt := h.lt hab
  refine Finset.card_lt_card (Finset.ssubset_iff_of_subset ?_ |>.mpr ⟨a, ?_, ?_⟩)
  · intro n hn
    rw [Finset.mem_filter] at hn ⊢
    exact ⟨hn.1, by omega⟩
  · rw [Finset.mem_filter, List.mem_toFinset]
    exact ⟨h.src hab, hlt⟩
  · rw [Finset.mem_filter]
    omega

/-! ## Lookups -/

/-- A dictionary filled from items with distinct keys holds those items. -/
theorem get?_filled {α κ ν : Type} [DecidableEq κ] {key : α → κ} (val : α → ν) {items : List α}
    (h : (items.map key).Nodup) (k : κ) (v : ν) :
    (items.foldl (fun (d : Dict κ ν) a => d.set (key a) (val a)) Dict.empty).get? k = some v ↔
      ∃ a ∈ items, key a = k ∧ val a = v := by
  induction items using List.reverseRecOn with
  | nil => simp
  | append_singleton items last ih =>
      rw [List.map_append, List.nodup_append] at h
      obtain ⟨hnodup, -, hlast⟩ := h
      have hfresh : ∀ a ∈ items, key a ≠ key last := fun a ha =>
        hlast _ (List.mem_map_of_mem ha) _ (by simp)
      rw [List.foldl_append, List.foldl_cons, List.foldl_nil, Dict.get?_set]
      by_cases heq : key last = k
      · rw [if_pos heq, Option.some.injEq]
        constructor
        · intro hv
          exact ⟨last, by simp, heq, hv⟩
        · rintro ⟨a, ha, hk, hv⟩
          rcases List.mem_append.mp ha with ha | ha
          · exact absurd (hk.trans heq.symm) (hfresh a ha)
          · rw [← List.mem_singleton.mp ha]
            exact hv
      · rw [if_neg heq, ih hnodup]
        constructor
        · rintro ⟨a, ha, hk, hv⟩
          exact ⟨a, List.mem_append_left _ ha, hk, hv⟩
        · rintro ⟨a, ha, hk, hv⟩
          rcases List.mem_append.mp ha with ha | ha
          · exact ⟨a, ha, hk, hv⟩
          · rw [List.mem_singleton.mp ha] at hk
            exact absurd hk heq

theorem nodesBySeq_get? {nodes : List CausalNode} (h : RisingNodes nodes) (seq : Int)
    (node : CausalNode) :
    (nodesBySeq nodes).get? seq = some node ↔ node ∈ nodes ∧ node.seq = seq := by
  unfold nodesBySeq
  rw [get?_filled (fun node => node) h.nodup]
  constructor
  · rintro ⟨other, hother, hseq, rfl⟩
    exact ⟨hother, hseq⟩
  · rintro ⟨hnode, hseq⟩
    exact ⟨node, hnode, hseq, rfl⟩

theorem nodeAt_eq {nodes : List CausalNode} (h : RisingNodes nodes) {node : CausalNode}
    (hnode : node ∈ nodes) : nodeAt (nodesBySeq nodes) node.seq = .ok node := by
  unfold nodeAt
  rw [(nodesBySeq_get? h node.seq node).mpr ⟨hnode, rfl⟩]

theorem mapM_nodeAt {nodes picked : List CausalNode} (h : RisingNodes nodes)
    (hpicked : ∀ node ∈ picked, node ∈ nodes) :
    (picked.map CausalNode.seq).mapM (nodeAt (nodesBySeq nodes)) = .ok picked := by
  induction picked with
  | nil => rfl
  | cons node rest ih =>
      rw [List.map_cons, List.mapM_cons, nodeAt_eq h (hpicked node (by simp)),
        ih fun n hn => hpicked n (List.mem_cons_of_mem _ hn)]
      rfl

/-- Distinct sequences of nodes, sorted, are those of the nodes they pick. -/
theorem ascending_eq {nodes : List CausalNode} (h : RisingNodes nodes) {seqs : List Int}
    (hnodup : seqs.Nodup) {p : CausalNode → Bool}
    (hmem : ∀ n, n ∈ seqs ↔ ∃ node ∈ nodes, p node = true ∧ node.seq = n) :
    ascending seqs = (nodes.filter p).map CausalNode.seq := by
  have hsorted : (ascending seqs).Pairwise fun a b => a < b := by
    have hid : (seqs.map id).Nodup := by rwa [List.map_id]
    exact sortedBy_rising hid
  have hpicked : ((nodes.filter p).map CausalNode.seq).Pairwise fun a b => a < b :=
    List.pairwise_map.mpr (h.sublist List.filter_sublist)
  refine List.Perm.eq_of_pairwise (fun a b _ _ hab hba => by omega) hsorted hpicked ?_
  refine (List.perm_ext_iff_of_nodup (hsorted.imp fun h => by omega)
    (hpicked.imp fun h => by omega)).mpr fun n => ?_
  unfold ascending
  rw [mem_sortedBy, hmem, List.mem_map]
  simp only [List.mem_filter, and_assoc]

/-- The nodes the sequences name, in order. -/
theorem mapM_ascending {nodes : List CausalNode} (h : RisingNodes nodes) {seqs : List Int}
    (hnodup : seqs.Nodup) {p : CausalNode → Bool}
    (hmem : ∀ n, n ∈ seqs ↔ ∃ node ∈ nodes, p node = true ∧ node.seq = n) :
    (ascending seqs).mapM (nodeAt (nodesBySeq nodes)) = .ok (nodes.filter p) := by
  rw [ascending_eq h hnodup hmem]
  exact mapM_nodeAt h fun node hnode => (List.mem_filter.mp hnode).1

/-! ## What a query answers -/

theorem mem_edgesAt (key : CausalEdge → Int) (edges : List CausalEdge) (seq : Int)
    (edge : CausalEdge) :
    edge ∈ edgesAt (groupBy key id edges) seq ↔ edge ∈ edges ∧ key edge = seq := by
  unfold edgesAt
  rw [getD_groupBy, List.map_id, List.mem_filter, decide_eq_true_eq]

/-- One step of a query: down an edge, or up one for causes. -/
def Follows (graph : CausalGraph) (direction : Direction) (a b : Int) : Prop :=
  if direction = .causes then Leads graph b a else Leads graph a b

/-- The end of an edge a query looks up, and the far end it moves to. -/
def nearEnd (direction : Direction) : CausalEdge → Int :=
  if direction = .causes then CausalEdge.dst else CausalEdge.src

def farEnd (direction : Direction) : CausalEdge → Int :=
  if direction = .causes then CausalEdge.src else CausalEdge.dst

/-- The edges at one end of which a sequence stands. -/
def adjacentEdges (graph : CausalGraph) (direction : Direction) (seq : Int) : List CausalEdge :=
  edgesAt (groupBy (nearEnd direction) id graph.edges) seq

theorem mem_adjacent (direction : Direction) (a b : Int) :
    b ∈ (adjacentEdges graph direction a).map (farEnd direction) ↔ Follows graph direction a b := by
  simp only [adjacentEdges, List.mem_map, mem_edgesAt, Follows, Leads, nearEnd, farEnd]
  split
  · constructor
    · rintro ⟨edge, ⟨hedge, rfl⟩, rfl⟩
      exact ⟨edge, hedge, rfl, rfl⟩
    · rintro ⟨edge, hedge, rfl, rfl⟩
      exact ⟨edge, ⟨hedge, rfl⟩, rfl⟩
  · constructor
    · rintro ⟨edge, ⟨hedge, rfl⟩, rfl⟩
      exact ⟨edge, hedge, rfl, rfl⟩
    · rintro ⟨edge, hedge, rfl, rfl⟩
      exact ⟨edge, ⟨hedge, rfl⟩, rfl⟩

theorem WellFormed.follows (h : WellFormed graph) {direction : Direction} {a b : Int}
    (hab : Follows graph direction a b) : b ∈ graph.nodes.map CausalNode.seq := by
  unfold Follows at hab
  split at hab
  · exact h.src hab
  · exact h.dst hab

/-- Every sequence a search from a node meets is a node's. -/
theorem WellFormed.reached (h : WellFormed graph) (direction : Direction) {a b : Int}
    (ha : a ∈ graph.nodes.map CausalNode.seq)
    (hab : Relation.ReflTransGen (Follows graph direction) a b) :
    b ∈ graph.nodes.map CausalNode.seq := by
  induction hab with
  | refl => exact ha
  | tail _ hbc _ => exact h.follows hbc

open Classical in
/-- The nodes a query lists as reached, in order. -/
noncomputable def reachedNodes (graph : CausalGraph) (direction : Direction) (seq : Int) :
    List CausalNode :=
  graph.nodes.filter fun node => Dominance.Behind (Follows graph direction) seq node.seq

open Classical in
/-- The nodes behind a sequence that it dominates, in order. -/
noncomputable def dominatedNodes (graph : CausalGraph) (seq : Int) : List CausalNode :=
  graph.nodes.filter fun node =>
    Dominance.Behind (Leads graph) seq node.seq ∧ Dominance.Dominates (Leads graph) seq node.seq

theorem mem_dominatedNodes {seq : Int} {node : CausalNode} :
    node ∈ dominatedNodes graph seq ↔ node ∈ graph.nodes ∧
      Dominance.Behind (Leads graph) seq node.seq ∧
        Dominance.Dominates (Leads graph) seq node.seq := by
  simp only [dominatedNodes, List.mem_filter, decide_eq_true_eq]

/-- Each edge with the node at its far end, ordered. -/
def IsDirect (graph : CausalGraph) (direction : Direction) (seq : Int)
    (direct : List CausalLink) : Prop :=
  directLinks (adjacentEdges graph direction seq) (nodesBySeq graph.nodes) (farEnd direction)
    = .ok direct

theorem WellFormed.farEnd_mem (h : WellFormed graph) (direction : Direction) {edge : CausalEdge}
    (hedge : edge ∈ graph.edges) : farEnd direction edge ∈ graph.nodes.map CausalNode.seq := by
  have hascending := h.ascending edge hedge
  unfold farEnd
  split
  · exact hascending.src
  · exact hascending.dst

/-- Every edge of the graph has a node at its far end. -/
theorem WellFormed.linkAt_ok (h : WellFormed graph) (direction : Direction) {edge : CausalEdge}
    (hedge : edge ∈ graph.edges) : ∃ node ∈ graph.nodes, node.seq = farEnd direction edge ∧
      linkAt (nodesBySeq graph.nodes) (farEnd direction) edge = .ok ⟨edge, node⟩ := by
  obtain ⟨node, hnode, heq⟩ := List.mem_map.mp (h.farEnd_mem direction hedge)
  refine ⟨node, hnode, heq, ?_⟩
  unfold linkAt
  rw [← heq, nodeAt_eq h.rising hnode]
  rfl

theorem WellFormed.links_ok (h : WellFormed graph) (direction : Direction) {edges : List CausalEdge}
    (hedges : ∀ edge ∈ edges, edge ∈ graph.edges) :
    ∃ links, edges.mapM (linkAt (nodesBySeq graph.nodes) (farEnd direction)) = .ok links ∧
      ∀ link ∈ links, link.node ∈ graph.nodes ∧ link.edge ∈ graph.edges := by
  induction edges with
  | nil => exact ⟨[], rfl, by simp⟩
  | cons edge rest ih =>
      obtain ⟨links, hlinks, hnodes⟩ := ih fun e he => hedges e (List.mem_cons_of_mem _ he)
      obtain ⟨node, hnode, -, hlink⟩ := h.linkAt_ok direction (hedges edge (by simp))
      refine ⟨⟨edge, node⟩ :: links, ?_, ?_⟩
      · rw [List.mapM_cons, hlinks, hlink]
        rfl
      · intro link hlink
        rcases List.mem_cons.mp hlink with rfl | hlink
        · exact ⟨hnode, hedges edge (by simp)⟩
        · exact hnodes link hlink

theorem directLinks_ok (h : WellFormed graph) (direction : Direction) (seq : Int) :
    ∃ direct, IsDirect graph direction seq direct ∧
      ∀ link ∈ direct, link.node ∈ graph.nodes ∧ link.edge ∈ graph.edges := by
  have hedges : ∀ edge ∈ adjacentEdges graph direction seq, edge ∈ graph.edges :=
    fun edge hedge => ((mem_edgesAt _ _ _ _).mp hedge).1
  obtain ⟨links, hlinks, hmem⟩ := h.links_ok direction hedges
  unfold IsDirect directLinks
  rw [hlinks]
  exact ⟨_, rfl, fun link hlink => hmem link ((mem_sortedBy _).mp hlink)⟩

open Classical in
theorem reach_ok (h : WellFormed graph) (direction : Direction) {node : CausalNode}
    (hnode : node ∈ graph.nodes) :
    ∃ seen, reach (groupBy (nearEnd direction) id graph.edges) node.seq (farEnd direction)
        graph.nodes.length = some seen ∧ seen.Nodup ∧
      ∀ n, n ∈ seen ↔ Relation.ReflTransGen (Follows graph direction) node.seq n := by
  have hrel : (fun a b => b ∈ (edgesAt (groupBy (nearEnd direction) id graph.edges) a).map
      (farEnd direction)) = Follows graph direction := by
    funext a b
    exact propext (mem_adjacent direction a b)
  have hseqs : ∀ n, Relation.ReflTransGen (fun a b => b ∈ (edgesAt
      (groupBy (nearEnd direction) id graph.edges) a).map (farEnd direction)) node.seq n →
        n ∈ graph.nodes.map CausalNode.seq := by
    intro n hn
    rw [hrel] at hn
    exact h.reached direction (List.mem_map_of_mem hnode) hn
  have hsearch := Dominance.search_spec (fun a => (edgesAt
    (groupBy (nearEnd direction) id graph.edges) a).map (farEnd direction)) node.seq hseqs
  rw [List.length_map] at hsearch
  rwa [hrel] at hsearch

/-- A visiting order meets exactly the affected sequences in every pass. -/
def Visits (orders : List Int → Nat → List Int) : Prop :=
  ∀ affected k n, n ∈ orders affected k ↔ n ∈ affected

theorem unsupported_ok (h : WellFormed graph) (seq : Int) {orders : List Int → Nat → List Int}
    (horders : Visits orders) {affected : List Int}
    (haffected : ∀ n, n ∈ affected ↔ Dominance.Behind (Leads graph) seq n) :
    ∃ lost, unsupportedSeqs seq affected (backwardOf graph.edges) (orders affected) = some lost ∧
      lost.Nodup ∧ ∀ n, n ∈ lost ↔
        Dominance.Behind (Leads graph) seq n ∧ Dominance.Dominates (Leads graph) seq n := by
  have hrel : (fun s n => s ∈ (edgesAt (backwardOf graph.edges) n).map CausalEdge.src)
      = Leads graph := by
    funext s n
    exact propext (mem_adjacent .causes n s)
  obtain ⟨lost, hlost, hnodup, hmem⟩ := Dominance.saturate_spec
    (fun n => (edgesAt (backwardOf graph.edges) n).map CausalEdge.src) seq
    (fun k n => (horders affected k n).trans (haffected n)) fun n hn => (haffected n).mpr hn
  refine ⟨lost, hlost, hnodup, fun n => ?_⟩
  rw [hmem, hrel]
  exact Dominance.lost_iff h.wellFounded

open Classical in
/-- Whatever the visiting order, a query at a node answers with the nodes
it reaches and, for a counterfactual, those among them it dominates. -/
theorem queryWith_ok (h : WellFormed graph) {node : CausalNode} (hnode : node ∈ graph.nodes)
    {orders : List Int → Nat → List Int} (horders : Visits orders) (direction : Direction)
    {direct : List CausalLink} (hdirect : IsDirect graph direction node.seq direct) :
    queryWith orders graph node.seq direction = .ok {
      seq := node.seq
      direction := direction
      present := true
      node := some node
      direct := direct
      transitive := reachedNodes graph direction node.seq
      unsupported :=
        if direction = .counterfactual then dominatedNodes graph node.seq else [] } := by
  obtain ⟨seen, hseen, hnodup, hmem⟩ := reach_ok h direction hnode
  have hreached : ∀ n, n ∈ seen.filter (fun n => n ≠ node.seq) ↔
      Dominance.Behind (Follows graph direction) node.seq n := by
    intro n
    simp only [List.mem_filter, hmem, decide_eq_true_eq, Dominance.Behind]
    exact And.comm
  have htransitive := mapM_ascending h.rising (hnodup.filter fun n => n ≠ node.seq)
    (p := fun other => decide (Dominance.Behind (Follows graph direction) node.seq other.seq))
    (fun n => by
      simp only [decide_eq_true_eq]
      rw [hreached]
      constructor
      · intro hn
        obtain ⟨other, hother, rfl⟩ :=
          List.mem_map.mp (h.reached direction (List.mem_map_of_mem hnode) hn.2)
        exact ⟨other, hother, hn, rfl⟩
      · rintro ⟨other, -, hother, rfl⟩
        exact hother)
  have hadjacency : (if direction = .causes then backwardOf graph.edges
      else forwardOf graph.edges) = groupBy (nearEnd direction) id graph.edges := by
    cases direction <;> rfl
  have hunsupported : unsupportedFor orders direction node.seq
      (ascending (seen.filter fun n => n ≠ node.seq)) (backwardOf graph.edges)
      (nodesBySeq graph.nodes)
      = .ok (if direction = .counterfactual then dominatedNodes graph node.seq else []) := by
    unfold unsupportedFor
    by_cases hdirection : direction = .counterfactual
    · subst hdirection
      rw [if_pos rfl, if_pos rfl]
      have haffected : ∀ n, n ∈ ascending (seen.filter fun n => n ≠ node.seq) ↔
          Dominance.Behind (Leads graph) node.seq n := by
        intro n
        unfold ascending
        rw [mem_sortedBy]
        exact hreached n
      obtain ⟨lost, hlost, hnodup', hmem'⟩ := unsupported_ok h node.seq horders haffected
      refine bind_of_ok (a := lost) (by rw [hlost]; rfl) (mapM_ascending h.rising hnodup' ?_)
      intro n
      simp only [decide_eq_true_eq, hmem']
      constructor
      · intro hn
        obtain ⟨other, hother, rfl⟩ :=
          List.mem_map.mp (h.reached .effects (List.mem_map_of_mem hnode) hn.1.2)
        exact ⟨other, hother, hn, rfl⟩
      · rintro ⟨other, -, hother, rfl⟩
        exact hother
    · rw [if_neg hdirection, if_neg hdirection]
  unfold queryWith
  dsimp only
  rw [(nodesBySeq_get? h.rising node.seq node).mpr ⟨hnode, rfl⟩]
  unfold answerAt
  dsimp only
  rw [hadjacency]
  refine bind_of_ok (a := direct) hdirect (bind_of_ok (a := seen) ?_
    (bind_of_ok htransitive (bind_of_ok hunsupported rfl)))
  rw [show (if direction = Direction.causes then CausalEdge.src else CausalEdge.dst)
    = farEnd direction from rfl, hseen]
  rfl

theorem visits_same : Visits fun affected _ => affected := fun _ _ _ => Iff.rfl

/-! ## The counterfactual is dominance -/

/-- Edges go from lower to higher sequences, and the unsupported events of
a counterfactual are those its event dominates, whatever the order in
which the fixpoint visits the affected ones. -/
theorem counterfactual_is_dominance [Builtins] {events : List StoredEvent} {graph : CausalGraph}
    (hlog : (events.map StoredEvent.seq).Nodup) (hbuilt : buildCausalGraph events = .ok graph) :
    (∀ edge ∈ graph.edges, edge.src < edge.dst) ∧
      ∀ node ∈ graph.nodes, ∃ answer, counterfactual graph node.seq = .ok answer ∧
        (∀ orders, Visits orders →
          queryWith orders graph node.seq .counterfactual = .ok answer) ∧
        ∀ other, other ∈ answer.unsupported ↔ other ∈ graph.nodes ∧ other.seq ≠ node.seq ∧
          Relation.ReflTransGen (Leads graph) node.seq other.seq ∧
          Dominance.Dominates (Leads graph) node.seq other.seq := by
  obtain ⟨nodes, hrising, rfl⟩ := buildCausalGraph_ok hlog hbuilt
  have hwf := graphOf_wellFormed hrising
  refine ⟨fun edge hedge => (hwf.ascending edge hedge).lt, fun node hnode => ?_⟩
  obtain ⟨direct, hdirect, -⟩ := directLinks_ok hwf .counterfactual node.seq
  have hanswer := fun orders (horders : Visits orders) =>
    queryWith_ok hwf hnode horders .counterfactual hdirect
  refine ⟨_, hanswer _ visits_same, hanswer, fun other => ?_⟩
  rw [if_pos rfl, mem_dominatedNodes]
  constructor
  · rintro ⟨hother, ⟨hne, hreach⟩, hdominates⟩
    exact ⟨hother, hne, hreach, hdominates⟩
  · rintro ⟨hother, hne, hreach, hdominates⟩
    exact ⟨hother, ⟨hne, hreach⟩, hdominates⟩

/-- A claim snapshot row. -/
def claimRow (seq : Int) (kind taskId owner : String) : StoredEvent where
  seq := seq
  ts := 0
  kind := kind
  payload := [("task_id", .str taskId), ("owner", .str owner), ("paths", .arr [.str "src"])]

/-- A claim freed for another, and an update of that one. -/
def handedOver : List StoredEvent :=
  [claimRow 4 EventKind.taskUpdate "t2" "b", claimRow 1 EventKind.claim "t1" "a",
    claimRow 2 EventKind.release "t1" "a", claimRow 3 EventKind.claim "t2" "b"]

theorem counterfactual_is_dominance_handed_over :
    letI : Builtins := Builtins.ascii
    ∃ graph, buildCausalGraph handedOver = .ok graph ∧ graph.edges.length = 3 ∧
      ∀ edge ∈ graph.edges, edge.src < edge.dst := by
  let _ : Builtins := Builtins.ascii
  have hbuilt : (buildCausalGraph handedOver).toOption.map (fun graph => graph.edges.length)
      = some 3 := by decide +kernel
  obtain ⟨graph, hgraph, hlength⟩ := Option.map_eq_some_iff.mp hbuilt
  have hok : buildCausalGraph handedOver = .ok graph := by
    cases h : buildCausalGraph handedOver with
    | error e =>
        rw [h] at hgraph
        cases hgraph
    | ok built =>
        rw [h] at hgraph
        cases hgraph
        rfl
  exact ⟨graph, hok, hlength, (counterfactual_is_dominance (by decide) hok).1⟩

end Causality

end SynapseChannel
