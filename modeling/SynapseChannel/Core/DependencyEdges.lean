import SynapseChannel.Core.Causality

/-!
# Core — DependencyEdges

Dependency edges against the board. An edge into a task's first claim
follows the last row of the task that declares dependencies, wherever it
stands, and the builder's own completion marks; the board before the claim
follows the row in force and the terminal statuses.
-/

namespace SynapseChannel

open Py Outcome

namespace DependencyEdges

open Causality

variable [Builtins]

/-! ## Rows of a log -/

/-- `str(payload.get("status", ""))`. -/
def statusOf (event : StoredEvent) : String := (event.payload.getD "status" (.str "")).toStr

/-- The dependencies a row declares. -/
def dependsOf (event : StoredEvent) : List String :=
  (strings (event.payload.getD "depends_on" (.arr []))).toOption.getD []

/-- A ledger row of a task. -/
def LedgerRow (task : String) (event : StoredEvent) : Prop :=
  event.kind = EventKind.ledgerTask ∧ taskOf event.payload = task

instance (task : String) (event : StoredEvent) : Decidable (LedgerRow task event) :=
  inferInstanceAs (Decidable (_ ∧ _))

/-- The latest row of the log with the property. -/
def Latest (log : List StoredEvent) (p : StoredEvent → Prop) (event : StoredEvent) : Prop :=
  event ∈ log ∧ p event ∧ ∀ other ∈ log, p other → other.seq ≤ event.seq

/-- The ledger row of a task in force before a sequence. -/
def InForce (log : List StoredEvent) (task : String) (n : Int) (event : StoredEvent) : Prop :=
  Latest log (fun row => LedgerRow task row ∧ row.seq < n) event

/-- The last ledger row of a task, in the whole log, that declares any
dependency. -/
def LastDeclaring (log : List StoredEvent) (task : String) (event : StoredEvent) : Prop :=
  Latest log (fun row => LedgerRow task row ∧ dependsOf row ≠ []) event

/-- The first claim of a task has this sequence. -/
def FirstClaim (log : List StoredEvent) (task : String) (n : Int) : Prop :=
  (∃ event ∈ log, event.kind ∈ EventKind.snapshots ∧ taskOf event.payload = task ∧
    event.seq = n) ∧
  ∀ other ∈ log, other.kind ∈ EventKind.snapshots → taskOf other.payload = task → n ≤ other.seq

/-- A claim of the task was released before the sequence. -/
def Released (log : List StoredEvent) (task : String) (n : Int) : Prop :=
  ∃ event ∈ log, event.kind = EventKind.release ∧ taskOf event.payload = task ∧ event.seq < n

/-- A row of the task before the sequence carries a completion mark. -/
def Marked (log : List StoredEvent) (task : String) (n : Int) : Prop :=
  ∃ event ∈ log, event.kind ∈ graphKinds ∧ taskOf event.payload = task ∧ event.seq < n ∧
    statusOf event ∈ doneStatuses

instance (log : List StoredEvent) (task : String) (n : Int) : Decidable (Released log task n) :=
  inferInstanceAs (Decidable (∃ event ∈ log, _))

instance (log : List StoredEvent) (task : String) (n : Int) : Decidable (Marked log task n) :=
  inferInstanceAs (Decidable (∃ event ∈ log, _))

/-- The row in force for the task has a terminal status. -/
def Finished (log : List StoredEvent) (task : String) (n : Int) : Prop :=
  ∃ event, InForce log task n event ∧ statusOf event ∈ terminalLedgerStatuses

/-- The events before a sequence. -/
def rowsBefore (log : List StoredEvent) (n : Int) : List StoredEvent :=
  log.filter fun event => event.seq < n

/-- The board lists `dependsOn` among the task's dependencies. -/
def Lists (board : Blackboard) (task dependsOn : String) : Prop :=
  ∃ entry, board.tasks.get? task = some entry ∧ dependsOn ∈ entry.dependsOn

def Terminal (board : Blackboard) (task : String) : Prop :=
  ∃ entry, board.tasks.get? task = some entry ∧ entry.status ∈ terminalLedgerStatuses

omit [Builtins] in
/-- A dependency edge leads from an event of the task into `n`. -/
def DependencyInto (graph : CausalGraph) (task : String) (n : Int) : Prop :=
  ∃ edge ∈ graph.edges, edge.relation = dependency ∧ edge.dst = n ∧
    ∃ node ∈ graph.nodes, node.seq = edge.src ∧ node.taskId = task

/-- Into every first claim the graph has the dependency edges the board
before it calls for. -/
def MirrorsBoard (config : ReplayConfig) (now : Float) (log : List StoredEvent)
    (graph : CausalGraph) : Prop :=
  ∀ task n, task ≠ "" → FirstClaim log task n →
    ∃ context, replay config (rowsBefore log n) now = .ok context ∧
      ∀ dependsOn, dependsOn ≠ "" → (DependencyInto graph dependsOn n ↔
        Lists context.blackboard task dependsOn ∧
          (Terminal context.blackboard dependsOn ∨ Released log dependsOn n))

/-- When the builder's declarations and marks say what the board says. -/
structure Aligned (log : List StoredEvent) (task : String) (n : Int) (dependsOn : String) :
    Prop where
  /-- Of a released task, the row in force and the last declaring row tell
  the same. -/
  released : Released log dependsOn n →
    ((∃ event, LastDeclaring log task event ∧ dependsOn ∈ dependsOf event) ↔
      ∃ event, InForce log task n event ∧ dependsOn ∈ dependsOf event)
  /-- A task the row in force lists and the board has finished stays
  declared, and is marked. -/
  finished : ¬ Released log dependsOn n → Finished log dependsOn n →
    (∃ event, InForce log task n event ∧ dependsOn ∈ dependsOf event) →
      (∃ event, LastDeclaring log task event ∧ dependsOn ∈ dependsOf event) ∧
        Marked log dependsOn n
  /-- A marked task that is declared last was listed and finished. -/
  marked : ¬ Released log dependsOn n → Marked log dependsOn n →
    (∃ event, LastDeclaring log task event ∧ dependsOn ∈ dependsOf event) →
      (∃ event, InForce log task n event ∧ dependsOn ∈ dependsOf event) ∧
        Finished log dependsOn n

/-! ## Rows and nodes -/

omit [Builtins] in
/-- A property has one latest row. -/
theorem Latest.unique {log : List StoredEvent} {p : StoredEvent → Prop} {a b : StoredEvent}
    (ha : Latest log p a) (hlog : log.Pairwise fun x y => x.seq < y.seq) (hb : Latest log p b) :
    a = b := by
  have hseq : a.seq = b.seq := Int.le_antisymm (hb.2.2 a ha.1 ha.2.1) (ha.2.2 b hb.1 hb.2.1)
  exact List.inj_on_of_nodup_map (List.pairwise_map.mpr (hlog.imp fun hlt => by omega))
    ha.1 hb.1 hseq

theorem nodeFromEvent_fields {event : StoredEvent} {node : CausalNode}
    (h : nodeFromEvent event = .ok node) :
    node.seq = event.seq ∧ node.kind = event.kind ∧ node.taskId = taskOf event.payload ∧
      node.status = statusOf event ∧ node.dependsOn = dependsOf event := by
  unfold nodeFromEvent at h
  obtain ⟨_, -, h⟩ := bind_ok h
  obtain ⟨_, -, h⟩ := bind_ok h
  obtain ⟨_, -, h⟩ := bind_ok h
  obtain ⟨depends, hdepends, h⟩ := bind_ok h
  cases h
  refine ⟨rfl, rfl, rfl, rfl, ?_⟩
  unfold dependsOf
  rw [hdepends]
  rfl

/-- The nodes are those of the rows, one for one. -/
structure NodesOf (log : List StoredEvent) (nodes : List CausalNode) : Prop where
  rising : RisingNodes nodes
  row : ∀ node ∈ nodes, ∃ event ∈ log, event.kind ∈ graphKinds ∧ nodeFromEvent event = .ok node
  node : ∀ event ∈ log, event.kind ∈ graphKinds → ∃ node ∈ nodes, nodeFromEvent event = .ok node

theorem mapM_nodes {events : List StoredEvent} {nodes : List CausalNode}
    (h : events.mapM nodeFromEvent = .ok nodes) :
    (∀ node ∈ nodes, ∃ event ∈ events, nodeFromEvent event = .ok node) ∧
      ∀ event ∈ events, ∃ node ∈ nodes, nodeFromEvent event = .ok node := by
  induction events generalizing nodes with
  | nil =>
      cases h
      simp
  | cons event rest ih =>
      rw [List.mapM_cons] at h
      obtain ⟨first, hfirst, h⟩ := bind_ok h
      obtain ⟨others, hothers, h⟩ := bind_ok h
      cases h
      obtain ⟨hrow, hnode⟩ := ih hothers
      constructor
      · intro node hin
        rcases List.mem_cons.mp hin with rfl | hin
        · exact ⟨event, by simp, hfirst⟩
        · obtain ⟨e, he, hok⟩ := hrow node hin
          exact ⟨e, List.mem_cons_of_mem _ he, hok⟩
      · intro e he
        rcases List.mem_cons.mp he with rfl | he
        · exact ⟨first, by simp, hfirst⟩
        · obtain ⟨node, hin, hok⟩ := hnode e he
          exact ⟨node, List.mem_cons_of_mem _ hin, hok⟩

theorem nodesOf_build {log : List StoredEvent} {graph : CausalGraph}
    (hlog : (log.map StoredEvent.seq).Nodup) (h : buildCausalGraph log = .ok graph) :
    ∃ nodes, NodesOf log nodes ∧ graph = graphOf nodes := by
  obtain ⟨nodes, hrising, rfl⟩ := buildCausalGraph_ok hlog h
  refine ⟨nodes, ?_, rfl⟩
  unfold buildCausalGraph at h
  obtain ⟨nodes', hnodes', h⟩ := bind_ok h
  have hsame : nodes' = nodes := congrArg CausalGraph.nodes (Except.ok.inj h)
  subst hsame
  obtain ⟨hrow, hnode⟩ := mapM_nodes hnodes'
  refine ⟨hrising, fun node hin => ?_, fun event hevent hkind => ?_⟩
  · obtain ⟨event, hevent, hok⟩ := hrow node hin
    obtain ⟨hevent, hkind⟩ := List.mem_filter.mp ((mem_sortedBy _).mp hevent)
    exact ⟨event, hevent, of_decide_eq_true hkind, hok⟩
  · exact hnode event ((mem_sortedBy _).mpr (List.mem_filter.mpr ⟨hevent, decide_eq_true hkind⟩))

/-! ## The dependency edges of a graph -/

section Graph

omit [Builtins]

variable {nodes : List CausalNode}

/-- The first of rising items with a property is the least. -/
theorem find?_least {α : Type} {key : α → Int} {items : List α} {p : α → Bool} {a : α}
    (h : items.Pairwise fun x y => key x < key y) :
    items.find? p = some a ↔
      a ∈ items ∧ p a = true ∧ ∀ b ∈ items, p b = true → key a ≤ key b := by
  induction items with
  | nil => simp
  | cons x rest ih =>
      obtain ⟨hx, hrest⟩ := List.pairwise_cons.mp h
      rw [List.find?_cons]
      by_cases hp : p x = true
      · simp only [hp]
        constructor
        · intro heq
          cases heq
          refine ⟨by simp, hp, fun b hb _ => ?_⟩
          rcases List.mem_cons.mp hb with rfl | hb
          · exact Int.le_refl _
          · exact Int.le_of_lt (hx b hb)
        · rintro ⟨ha, -, hleast⟩
          rcases List.mem_cons.mp ha with rfl | ha
          · rfl
          · have hle := hleast x (by simp) hp
            have hlt := hx a ha
            omega
      · have hp' : p x = false := Bool.eq_false_iff.mpr hp
        simp only [hp']
        rw [ih hrest]
        constructor
        · rintro ⟨ha, hpa, hleast⟩
          refine ⟨List.mem_cons_of_mem _ ha, hpa, fun b hb hpb => ?_⟩
          rcases List.mem_cons.mp hb with rfl | hb
          · exact absurd hpb hp
          · exact hleast b hb hpb
        · rintro ⟨ha, hpa, hleast⟩
          rcases List.mem_cons.mp ha with rfl | ha
          · exact absurd hpa hp
          · exact ⟨ha, hpa, fun b hb hpb => hleast b (List.mem_cons_of_mem _ hb) hpb⟩

/-- The nodes filed under a task. -/
def filed (nodes : List CausalNode) (task : String) : List CausalNode :=
  nodes.filter fun node => decide (node.taskId = task)

theorem filed_rising (h : RisingNodes nodes) (task : String) : RisingNodes (filed nodes task) :=
  h.sublist List.filter_sublist

theorem mem_filed {task : String} {node : CausalNode} :
    node ∈ filed nodes task ↔ node ∈ nodes ∧ node.taskId = task := by
  simp [filed]

theorem getD_nodesByTask {task : String} (htask : task ≠ "") :
    ((nodesByTask nodes).get? task).getD [] = filed nodes task := by
  unfold nodesByTask filed
  rw [getD_groupBy, List.map_id, List.filter_filter]
  refine List.filter_congr fun node _ => ?_
  by_cases heq : node.taskId = task
  · simp [heq, htask]
  · simp [heq]

theorem firstClaim_iff (h : RisingNodes nodes) {node : CausalNode} :
    firstClaim nodes = some node ↔
      node ∈ nodes ∧ node.kind ∈ EventKind.snapshots ∧
        ∀ other ∈ nodes, other.kind ∈ EventKind.snapshots → node.seq ≤ other.seq := by
  unfold firstClaim
  rw [find?_least h]
  simp only [decide_eq_true_eq]

theorem mem_declaredDependencies (h : RisingNodes nodes) {dependsOn : String} :
    dependsOn ∈ declaredDependencies nodes ↔
      ∃ node ∈ nodes, node.kind = EventKind.ledgerTask ∧ dependsOn ∈ node.dependsOn ∧
        ∀ other ∈ nodes, other.kind = EventKind.ledgerTask → other.dependsOn ≠ [] →
          other.seq ≤ node.seq := by
  have hreverse : nodes.reverse.Pairwise fun a b => -a.seq < -b.seq := by
    rw [List.pairwise_reverse]
    exact h.imp fun hlt => by omega
  unfold declaredDependencies
  split
  · rename_i node hfind
    obtain ⟨hnode, hp, hleast⟩ := (find?_least hreverse).mp hfind
    simp only [decide_eq_true_eq, List.mem_reverse] at hnode hp hleast
    constructor
    · intro hin
      refine ⟨node, hnode, hp.1, hin, fun other hother hkind hne => ?_⟩
      have hle := hleast other hother ⟨hkind, hne⟩
      omega
    · rintro ⟨last, hlast, hkind, hin, hmost⟩
      have hne : last.dependsOn ≠ [] := List.ne_nil_of_mem hin
      have hle := hleast last hlast ⟨hkind, hne⟩
      have hge := hmost node hnode hp.1 hp.2
      have heq : last = node := h.inj hlast hnode (by omega)
      rwa [← heq]
  · rename_i hnone
    constructor
    · intro hin
      cases hin
    · rintro ⟨node, hnode, hkind, hin, -⟩
      have hno := List.find?_eq_none.mp hnone node (List.mem_reverse.mpr hnode)
      simp only [decide_eq_true_eq, not_and] at hno
      exact absurd (List.ne_nil_of_mem hin) (hno hkind)

theorem latestNode_isSome (hne : nodes ≠ []) : ∃ node, latestNode nodes = some node := by
  cases nodes with
  | nil => exact absurd rfl hne
  | cons first rest => exact ⟨_, rfl⟩

theorem completionBefore_isSome {n : Int} {node : CausalNode} (hnode : node ∈ nodes)
    (hlt : node.seq < n) (hdone : completes node = true) :
    ∃ enabling, completionBefore nodes n = some enabling :=
  latestNode_isSome (List.ne_nil_of_mem
    (List.mem_filter.mpr ⟨hnode, by rw [decide_eq_true hlt, hdone]; rfl⟩))

theorem completionBefore_completes {n : Int} {node : CausalNode}
    (h : completionBefore nodes n = some node) : completes node = true := by
  have hmem := latestNode_mem h
  rw [List.mem_filter, Bool.and_eq_true] at hmem
  exact hmem.2.2

end Graph

/-- No other builder writes a dependency edge. -/
theorem contentionEdges_relation (nodes : List CausalNode) :
    ∀ edge ∈ contentionEdges nodes, edge.relation = contention := by
  suffices hfold : ∀ c : Contending, (∀ edge ∈ c.edges, edge.relation = contention) →
      ∀ edge ∈ (nodes.foldl Contending.step c).edges, edge.relation = contention by
    exact hfold {} (by simp)
  induction nodes with
  | nil =>
      intro c h
      exact h
  | cons node rest ih =>
      intro c h
      rw [List.foldl_cons]
      refine ih _ ?_
      unfold Contending.step
      split
      · exact h
      split
      · intro edge hedge
        simp only [Contending.snapshot] at hedge
        split at hedge
        · exact h edge hedge
        · split at hedge
          · rcases List.mem_append.mp hedge with hedge | hedge
            · exact h edge hedge
            · rw [List.mem_singleton.mp hedge]
              rfl
          · exact h edge hedge
      · exact h

theorem dependency_edge_iff {nodes : List CausalNode} {edge : CausalEdge} :
    edge ∈ (graphOf nodes).edges ∧ edge.relation = dependency ↔
      edge ∈ dependencyEdges (nodesByTask nodes) := by
  unfold graphOf edgesOf
  simp only [mem_sortedBy, List.mem_append]
  constructor
  · rintro ⟨(hedge | hedge) | hedge, hrelation⟩
    · obtain ⟨values, -, hedge⟩ := List.mem_flatMap.mp hedge
      obtain ⟨⟨earlier, later⟩, -, rfl⟩ := List.mem_map.mp hedge
      have hlabel : lifecycle = dependency := hrelation
      exact absurd hlabel (by decide)
    · exact hedge
    · rw [contentionEdges_relation nodes edge hedge] at hrelation
      exact absurd hrelation (by decide)
  · intro hedge
    refine ⟨.inl (.inr hedge), ?_⟩
    obtain ⟨⟨task, values⟩, -, hedge⟩ := List.mem_flatMap.mp hedge
    unfold dependenciesOf at hedge
    dsimp only at hedge
    split at hedge
    · cases hedge
    · obtain ⟨dependencyId, -, hmap⟩ := List.mem_filterMap.mp hedge
      obtain ⟨enabling, -, rfl⟩ := Option.map_eq_some_iff.mp hmap
      rfl

omit [Builtins] in
theorem filed_item {nodes values : List CausalNode} {task : String}
    (h : (task, values) ∈ (nodesByTask nodes).items) : task ≠ "" ∧ values = filed nodes task := by
  have hget := (Dict.mem_items_iff _ _ _).mp h
  have hne : task ≠ "" := by
    obtain ⟨node, hnode, hid⟩ := (get?_groupBy_ne_none _ task).mp
      (by unfold nodesByTask at hget; rw [hget]; exact Option.some_ne_none _)
    have hnamed := (List.mem_filter.mp hnode).2
    rw [← hid]
    exact of_decide_eq_true hnamed
  refine ⟨hne, ?_⟩
  rw [← getD_nodesByTask hne, hget]
  rfl

/-- Into the first claim of a task leads an edge from each declared
dependency that completed before it. -/
theorem dependencyInto_graphOf {nodes : List CausalNode} (h : RisingNodes nodes)
    {task dependsOn : String} {anchor : CausalNode} (htask : task ≠ "") (hdep : dependsOn ≠ "")
    (hanchor : firstClaim (filed nodes task) = some anchor) :
    DependencyInto (graphOf nodes) dependsOn anchor.seq ↔
      dependsOn ∈ declaredDependencies (filed nodes task) ∧
        ∃ node ∈ filed nodes dependsOn, node.seq < anchor.seq ∧ completes node = true := by
  have hfiled := mem_filed.mp ((firstClaim_iff (filed_rising h task)).mp hanchor).1
  constructor
  · rintro ⟨edge, hedge, hrelation, hdst, node, hnode, hsrc, hid⟩
    have hbuilt := dependency_edge_iff.mp ⟨hedge, hrelation⟩
    obtain ⟨⟨other, values⟩, hitem, hbuilt⟩ := List.mem_flatMap.mp hbuilt
    obtain ⟨hother, rfl⟩ := filed_item hitem
    change edge ∈ dependenciesOf (nodesByTask nodes) other (filed nodes other) at hbuilt
    unfold dependenciesOf at hbuilt
    rw [bySequence_eq (filed_rising h other)] at hbuilt
    dsimp only at hbuilt
    split at hbuilt
    · cases hbuilt
    · rename_i first hfirst
      obtain ⟨dependencyId, hdeclared, hmap⟩ := List.mem_filterMap.mp hbuilt
      obtain ⟨enabling, hcompletion, rfl⟩ := Option.map_eq_some_iff.mp hmap
      -- the claim at the sequence is the claim of the one task
      have hclaim := mem_filed.mp ((firstClaim_iff (filed_rising h other)).mp hfirst).1
      have heq : first = anchor := h.inj hclaim.1 hfiled.1 hdst
      have hsame : other = task := by rw [← hclaim.2, heq, hfiled.2]
      subst hsame
      have hin := (completionBefore_mem hcompletion).1
      by_cases hnamed : dependencyId = ""
      · -- nothing is filed under the empty name
        have hnone : (nodesByTask nodes).get? dependencyId = none := by
          by_contra hsome
          obtain ⟨_, hget⟩ := Option.ne_none_iff_exists'.mp hsome
          exact (filed_item ((Dict.mem_items_iff _ _ _).mpr hget)).1 hnamed
        rw [hnone] at hin
        cases hin
      · rw [getD_nodesByTask hnamed] at hin hcompletion
        have henabling := mem_filed.mp hin
        have hsource : node = enabling := h.inj hnode henabling.1 hsrc
        have hdependency : dependencyId = dependsOn := by rw [← henabling.2, ← hsource, hid]
        subst hdependency
        exact ⟨hdeclared, enabling, hin, heq ▸ (completionBefore_mem hcompletion).2,
          completionBefore_completes hcompletion⟩
  · rintro ⟨hdeclared, node, hnode, hlt, hdone⟩
    obtain ⟨enabling, hcompletion⟩ := completionBefore_isSome hnode hlt hdone
    have hin := mem_filed.mp (completionBefore_mem hcompletion).1
    let edge : CausalEdge :=
      { src := enabling.seq
        dst := anchor.seq
        relation := dependency
        detail := s!"task {task} depends on {dependsOn}" }
    have hbuilt : edge ∈ dependencyEdges (nodesByTask nodes) := by
      have hvalues : (nodesByTask nodes).get? task = some (filed nodes task) := by
        rw [← getD_nodesByTask htask]
        cases hget : (nodesByTask nodes).get? task with
        | none =>
            have hempty := @getD_nodesByTask nodes task htask
            rw [hget] at hempty
            have hmem := mem_filed.mpr hfiled
            rw [← hempty] at hmem
            cases hmem
        | some values => rfl
      refine List.mem_flatMap.mpr ⟨(task, filed nodes task), (Dict.mem_items_iff _ _ _).mpr hvalues,
        ?_⟩
      show edge ∈ dependenciesOf (nodesByTask nodes) task (filed nodes task)
      unfold dependenciesOf
      rw [bySequence_eq (filed_rising h task)]
      simp only [hanchor]
      refine List.mem_filterMap.mpr ⟨dependsOn, hdeclared, ?_⟩
      rw [getD_nodesByTask hdep, hcompletion]
      rfl
    obtain ⟨hedge, hrelation⟩ := dependency_edge_iff.mpr hbuilt
    exact ⟨edge, hedge, hrelation, rfl, enabling, hin.1, rfl, hin.2⟩

/-! ## The same, on the log -/

section Log

variable {log : List StoredEvent} {nodes : List CausalNode} {graph : CausalGraph}
  {task dependsOn : String} {n : Int}

/-- A row of the log that becomes a node, with the node. -/
theorem NodesOf.get (h : NodesOf log nodes) {event : StoredEvent} (hevent : event ∈ log)
    (hkind : event.kind ∈ graphKinds) : ∃ node ∈ nodes, node.seq = event.seq ∧
      node.kind = event.kind ∧ node.taskId = taskOf event.payload ∧
        node.status = statusOf event ∧ node.dependsOn = dependsOf event := by
  obtain ⟨node, hnode, hok⟩ := h.node event hevent hkind
  exact ⟨node, hnode, nodeFromEvent_fields hok⟩

theorem NodesOf.event (h : NodesOf log nodes) {node : CausalNode} (hnode : node ∈ nodes) :
    ∃ event ∈ log, event.kind ∈ graphKinds ∧ node.seq = event.seq ∧
      node.kind = event.kind ∧ node.taskId = taskOf event.payload ∧
        node.status = statusOf event ∧ node.dependsOn = dependsOf event := by
  obtain ⟨event, hevent, hkind, hok⟩ := h.row node hnode
  exact ⟨event, hevent, hkind, nodeFromEvent_fields hok⟩

section

omit [Builtins]

theorem snapshot_graphKind {kind : String} (h : kind ∈ EventKind.snapshots) : kind ∈ graphKinds :=
  List.mem_append_left _ h

theorem ledgerTask_graphKind : EventKind.ledgerTask ∈ graphKinds :=
  List.mem_append_right _ (by simp)

theorem release_graphKind : EventKind.release ∈ graphKinds :=
  List.mem_append_right _ (by simp)

end

theorem NodesOf.firstClaim (h : NodesOf log nodes) (hfirst : FirstClaim log task n) :
    ∃ anchor, firstClaim (filed nodes task) = some anchor ∧ anchor.seq = n := by
  obtain ⟨⟨event, hevent, hkind, hid, rfl⟩, hleast⟩ := hfirst
  obtain ⟨node, hnode, hseq, hnodeKind, hnodeId, -⟩ := h.get hevent (snapshot_graphKind hkind)
  refine ⟨node, (firstClaim_iff (filed_rising h.rising task)).mpr
    ⟨mem_filed.mpr ⟨hnode, hnodeId.trans hid⟩, hnodeKind ▸ hkind, fun other hother hclaim => ?_⟩,
    hseq⟩
  obtain ⟨hin, hotherId⟩ := mem_filed.mp hother
  obtain ⟨row, hrow, -, hrowSeq, hrowKind, hrowId, -⟩ := h.event hin
  rw [hseq, hrowSeq]
  exact hleast row hrow (hrowKind ▸ hclaim) (hrowId.symm.trans hotherId)

theorem NodesOf.declared (h : NodesOf log nodes) :
    dependsOn ∈ declaredDependencies (filed nodes task) ↔
      ∃ event, LastDeclaring log task event ∧ dependsOn ∈ dependsOf event := by
  rw [mem_declaredDependencies (filed_rising h.rising task)]
  constructor
  · rintro ⟨node, hnode, hkind, hin, hmost⟩
    obtain ⟨hnode, hid⟩ := mem_filed.mp hnode
    obtain ⟨event, hevent, -, hseq, hrowKind, hrowId, -, hdepends⟩ := h.event hnode
    rw [hdepends] at hin
    refine ⟨event, ⟨hevent, ⟨⟨hrowKind.symm.trans hkind, hrowId.symm.trans hid⟩,
      List.ne_nil_of_mem hin⟩, ?_⟩, hin⟩
    rintro other hother ⟨⟨hotherKind, hotherId⟩, hne⟩
    obtain ⟨node', hnode', hseq', hkind', hid', -, hdepends'⟩ :=
      h.get hother (hotherKind ▸ ledgerTask_graphKind)
    have hle := hmost node' (mem_filed.mpr ⟨hnode', hid'.trans hotherId⟩)
      (hkind'.trans hotherKind) (hdepends' ▸ hne)
    omega
  · rintro ⟨event, ⟨hevent, ⟨⟨hkind, hid⟩, hne⟩, hmost⟩, hin⟩
    obtain ⟨node, hnode, hseq, hnodeKind, hnodeId, -, hdepends⟩ :=
      h.get hevent (hkind ▸ ledgerTask_graphKind)
    refine ⟨node, mem_filed.mpr ⟨hnode, hnodeId.trans hid⟩, hnodeKind.trans hkind,
      hdepends ▸ hin, fun other hother hotherKind hotherNe => ?_⟩
    obtain ⟨hother, hotherId⟩ := mem_filed.mp hother
    obtain ⟨row, hrow, -, hrowSeq, hrowKind, hrowId, -, hrowDepends⟩ := h.event hother
    have hle := hmost row hrow ⟨⟨hrowKind.symm.trans hotherKind, hrowId.symm.trans hotherId⟩,
      hrowDepends ▸ hotherNe⟩
    omega

theorem NodesOf.completed (h : NodesOf log nodes) :
    (∃ node ∈ filed nodes dependsOn, node.seq < n ∧ completes node = true) ↔
      Released log dependsOn n ∨ Marked log dependsOn n := by
  constructor
  · rintro ⟨node, hnode, hlt, hdone⟩
    obtain ⟨hnode, hid⟩ := mem_filed.mp hnode
    obtain ⟨event, hevent, hkind, hseq, hrowKind, hrowId, hstatus, -⟩ := h.event hnode
    rw [completes, Bool.or_eq_true, beq_iff_eq, decide_eq_true_eq] at hdone
    rcases hdone with hrelease | hdone
    · exact .inl ⟨event, hevent, hrowKind.symm.trans hrelease, hrowId.symm.trans hid, hseq ▸ hlt⟩
    · exact .inr ⟨event, hevent, hkind, hrowId.symm.trans hid, hseq ▸ hlt, hstatus ▸ hdone⟩
  · rintro (⟨event, hevent, hrelease, hid, hlt⟩ | ⟨event, hevent, hkind, hid, hlt, hdone⟩)
    · obtain ⟨node, hnode, hseq, hkind, hnodeId, -⟩ := h.get hevent (hrelease ▸ release_graphKind)
      refine ⟨node, mem_filed.mpr ⟨hnode, hnodeId.trans hid⟩, hseq ▸ hlt, ?_⟩
      simp [completes, hkind, hrelease]
    · obtain ⟨node, hnode, hseq, -, hnodeId, hstatus, -⟩ := h.get hevent hkind
      refine ⟨node, mem_filed.mpr ⟨hnode, hnodeId.trans hid⟩, hseq ▸ hlt, ?_⟩
      simp [completes, hstatus, hdone]

/-- The edges the builder draws, in terms of the rows. -/
theorem dependencyInto_iff (hlog : (log.map StoredEvent.seq).Nodup)
    (hgraph : buildCausalGraph log = .ok graph) (hfirst : FirstClaim log task n)
    (htask : task ≠ "") (hdep : dependsOn ≠ "") :
    DependencyInto graph dependsOn n ↔
      (∃ event, LastDeclaring log task event ∧ dependsOn ∈ dependsOf event) ∧
        (Released log dependsOn n ∨ Marked log dependsOn n) := by
  obtain ⟨nodes, hnodes, rfl⟩ := nodesOf_build hlog hgraph
  obtain ⟨anchor, hanchor, rfl⟩ := hnodes.firstClaim hfirst
  rw [dependencyInto_graphOf hnodes.rising htask hdep hanchor, hnodes.declared, hnodes.completed]

end Log

/-! ## The board before a claim -/

section Board

variable {log : List StoredEvent} {context context' : ReplayContext} {task : String} {n : Int}

theorem ledgerTask_fields {payload : Members} {entry : LedgerTask}
    (h : ledgerTaskFromPayload payload = .ok entry) :
    entry.taskId = taskOf payload ∧
      .ok entry.dependsOn = strings (payload.getD "depends_on" (.arr [])) ∧
      entry.status = (payload.getD "status" (.str "open")).toStr := by
  unfold ledgerTaskFromPayload at h
  obtain ⟨id, hid, h⟩ := bind_ok h
  obtain ⟨_, -, h⟩ := bind_ok h
  obtain ⟨_, -, h⟩ := bind_ok h
  obtain ⟨_, -, h⟩ := bind_ok h
  obtain ⟨_, -, h⟩ := bind_ok h
  obtain ⟨_, -, h⟩ := bind_ok h
  obtain ⟨depends, hdepends, h⟩ := bind_ok h
  obtain ⟨_, -, h⟩ := bind_ok h
  cases h
  refine ⟨?_, hdepends.symm, rfl⟩
  simp only [taskOf, Members.getD, required_ok hid, Option.getD_some]

theorem terminal_iff_statusOf (event : StoredEvent) :
    (event.payload.getD "status" (.str "open")).toStr ∈ terminalLedgerStatuses ↔
      statusOf event ∈ terminalLedgerStatuses := by
  unfold statusOf Members.getD
  cases event.payload.get? "status" with
  | none => simp [Json.toStr, terminalLedgerStatuses]
  | some status => rfl

theorem ledgerTask_entry {event : StoredEvent} {entry : LedgerTask}
    (h : ledgerTaskFromPayload event.payload = .ok entry) :
    entry.taskId = taskOf event.payload ∧ entry.dependsOn = dependsOf event ∧
      (entry.status ∈ terminalLedgerStatuses ↔ statusOf event ∈ terminalLedgerStatuses) := by
  obtain ⟨hid, hdepends, hstatus⟩ := ledgerTask_fields h
  refine ⟨hid, ?_, ?_⟩
  · unfold dependsOf
    rw [← hdepends]
    rfl
  · rw [hstatus]
    exact terminal_iff_statusOf event

/-- Only a ledger row touches the tasks of the board, and only its own. -/
theorem applyEvent_tasks {event : StoredEvent} (h : context.applyEvent event = .ok context') :
    (event.kind = EventKind.ledgerTask ∧ ∃ entry,
        ledgerTaskFromPayload event.payload = .ok entry ∧
          context'.blackboard.tasks = context.blackboard.tasks.set entry.taskId entry) ∨
      event.kind ≠ EventKind.ledgerTask ∧
        context'.blackboard.tasks = context.blackboard.tasks := by
  by_cases hledger : event.kind = EventKind.ledgerTask
  · refine .inl ⟨hledger, ?_⟩
    have hwrite : ReplayContext.isProtectedWrite event.kind = false := by
      rw [hledger]
      decide
    have hsnap : event.kind ∉ EventKind.snapshots := by
      rw [hledger]
      decide
    have hrelease : event.kind ≠ EventKind.release := by
      rw [hledger]
      decide
    have hresource : event.kind ≠ EventKind.resource := by
      rw [hledger]
      decide
    unfold ReplayContext.applyEvent at h
    rw [hwrite, if_neg Bool.false_ne_true, if_neg hsnap, if_neg hrelease, if_neg hresource,
      if_pos hledger] at h
    obtain ⟨entry, hentry, h⟩ := bind_ok h
    cases h
    exact ⟨entry, hentry, rfl⟩
  · refine .inr ⟨hledger, ?_⟩
    unfold ReplayContext.applyEvent at h
    rw [if_neg (c := event.kind = EventKind.ledgerTask) hledger] at h
    split at h
    · cases h
    split at h
    · obtain ⟨_, -, h⟩ := bind_ok h
      split at h
      · cases h
      · cases h
        rfl
    split at h
    · obtain ⟨_, -, h⟩ := bind_ok h
      split at h
      · cases h
      · cases h
        rfl
    split at h
    · obtain ⟨_, -, h⟩ := bind_ok h
      cases h
      rfl
    split at h
    · obtain ⟨_, -, h⟩ := bind_ok h
      cases h
      rfl
    split at h
    · obtain ⟨_, -, h⟩ := bind_ok h
      cases h
      rfl
    split at h
    · unfold ReplayContext.applyIdempotency at h
      dsimp only at h
      split at h
      · cases h
        rfl
      · obtain ⟨_, -, h⟩ := bind_ok h
        cases h
        rfl
    split at h
    · cases h
      unfold ReplayContext.applyFinding
      split
      · dsimp only
        split <;> rfl
      · rfl
    · cases h
      rfl

/-- Every task on a replayed board is the latest row of its ledger. -/
theorem replayEvents_tasks (hlog : log.Pairwise fun a b => a.seq < b.seq)
    (hempty : context.blackboard.tasks = Dict.empty)
    (h : replayEvents context log = .ok context') (task : String) :
    (context'.blackboard.tasks.get? task = none ↔ ∀ event ∈ log, ¬ LedgerRow task event) ∧
      ∀ entry, context'.blackboard.tasks.get? task = some entry →
        ∃ event, Latest log (LedgerRow task) event ∧
          ledgerTaskFromPayload event.payload = .ok entry := by
  induction log using List.reverseRecOn generalizing context' with
  | nil =>
      cases h
      rw [hempty]
      constructor
      · simp [Dict.get?_empty]
      · intro entry hentry
        rw [Dict.get?_empty] at hentry
        cases hentry
  | append_singleton log event ih =>
      obtain ⟨hlog, -, hlast⟩ := List.pairwise_append.mp hlog
      unfold replayEvents at h
      rw [List.foldlM_append] at h
      obtain ⟨before, hbefore, h⟩ := bind_ok h
      rw [List.foldlM_cons] at h
      obtain ⟨_, hafter, h⟩ := bind_ok h
      cases h
      obtain ⟨hnone, hsome⟩ := ih hlog hbefore
      have hle : ∀ other ∈ log ++ [event], other.seq ≤ event.seq := by
        intro other hother
        rcases List.mem_append.mp hother with hother | hother
        · exact Int.le_of_lt (hlast other hother event (by simp))
        · rw [List.mem_singleton.mp hother]
      have hkeep : ¬ LedgerRow task event →
          before.blackboard.tasks.get? task = context'.blackboard.tasks.get? task →
          (context'.blackboard.tasks.get? task = none ↔
              ∀ other ∈ log ++ [event], ¬ LedgerRow task other) ∧
            ∀ entry, context'.blackboard.tasks.get? task = some entry →
              ∃ other, Latest (log ++ [event]) (LedgerRow task) other ∧
                ledgerTaskFromPayload other.payload = .ok entry := by
        intro hrow hget
        rw [← hget]
        constructor
        · rw [hnone]
          constructor
          · intro hno other hother
            rcases List.mem_append.mp hother with hother | hother
            · exact hno other hother
            · rw [List.mem_singleton.mp hother]
              exact hrow
          · exact fun hno other hother => hno other (List.mem_append_left _ hother)
        · intro entry hentry
          obtain ⟨row, ⟨hin, hledger, hmost⟩, hok⟩ := hsome entry hentry
          refine ⟨row, ⟨List.mem_append_left _ hin, hledger, fun other hother hother' => ?_⟩, hok⟩
          rcases List.mem_append.mp hother with hother | hother
          · exact hmost other hother hother'
          · rw [List.mem_singleton.mp hother] at hother'
            exact absurd hother' hrow
      rcases applyEvent_tasks hafter with ⟨hkind, entry, hentry, htasks⟩ | ⟨hkind, htasks⟩
      · have hid := (ledgerTask_entry hentry).1
        by_cases hsame : taskOf event.payload = task
        · have hget : context'.blackboard.tasks.get? task = some entry := by
            rw [htasks, hid, hsame, Dict.get?_set_self]
          constructor
          · rw [hget]
            constructor
            · intro hno
              cases hno
            · intro hno
              exact absurd ⟨hkind, hsame⟩ (hno event (by simp))
          · intro found hfound
            rw [hget] at hfound
            cases hfound
            exact ⟨event, ⟨by simp, ⟨hkind, hsame⟩, fun other hother _ => hle other hother⟩,
              hentry⟩
        · refine hkeep (fun hrow => hsame hrow.2) ?_
          rw [htasks, hid, Dict.get?_set_ne _ _ hsame]
      · exact hkeep (fun hrow => hkind hrow.1) (by rw [htasks])

omit [Builtins] in
theorem mem_rowsBefore {event : StoredEvent} :
    event ∈ rowsBefore log n ↔ event ∈ log ∧ event.seq < n := by
  simp [rowsBefore]

theorem latest_rowsBefore {event : StoredEvent} :
    Latest (rowsBefore log n) (LedgerRow task) event ↔ InForce log task n event := by
  unfold InForce Latest
  simp only [mem_rowsBefore]
  constructor
  · rintro ⟨⟨hin, hlt⟩, hrow, hmost⟩
    exact ⟨hin, ⟨hrow, hlt⟩, fun other hother h => hmost other ⟨hother, h.2⟩ h.1⟩
  · rintro ⟨hin, ⟨hrow, hlt⟩, hmost⟩
    exact ⟨⟨hin, hlt⟩, hrow, fun other hother h => hmost other hother.1 ⟨h, hother.2⟩⟩

/-- What a property of the board's entry says of the row in force. -/
theorem entry_iff (hlog : log.Pairwise fun a b => a.seq < b.seq)
    (hempty : context.blackboard.tasks = Dict.empty)
    (h : replayEvents context (rowsBefore log n) = .ok context')
    {onEntry : LedgerTask → Prop} {onRow : StoredEvent → Prop}
    (hsame : ∀ event entry, ledgerTaskFromPayload event.payload = .ok entry →
      (onEntry entry ↔ onRow event)) :
    (∃ entry, context'.blackboard.tasks.get? task = some entry ∧ onEntry entry) ↔
      ∃ event, InForce log task n event ∧ onRow event := by
  have hrows : (rowsBefore log n).Pairwise fun a b => a.seq < b.seq :=
    hlog.sublist List.filter_sublist
  obtain ⟨hnone, hsome⟩ := replayEvents_tasks hrows hempty h task
  constructor
  · rintro ⟨entry, hentry, hon⟩
    obtain ⟨event, hlatest, hok⟩ := hsome entry hentry
    exact ⟨event, latest_rowsBefore.mp hlatest, (hsame event entry hok).mp hon⟩
  · rintro ⟨event, hforce, hon⟩
    have hlatest := latest_rowsBefore.mpr hforce
    have hne : context'.blackboard.tasks.get? task ≠ none := fun hno =>
      hnone.mp hno event hlatest.1 hlatest.2.1
    obtain ⟨entry, hentry⟩ := Option.ne_none_iff_exists'.mp hne
    obtain ⟨row, hrow, hok⟩ := hsome entry hentry
    have heq : row = event := hrow.unique hrows hlatest
    exact ⟨entry, hentry, (hsame event entry (heq ▸ hok)).mpr hon⟩

theorem replayEvents_rowsBefore (hlog : log.Pairwise fun a b => a.seq < b.seq)
    (h : replayEvents context log = .ok context') (n : Int) :
    ∃ before, replayEvents context (rowsBefore log n) = .ok before := by
  induction log generalizing context with
  | nil => exact ⟨context, rfl⟩
  | cons event rest ih =>
      obtain ⟨hfirst, hrest⟩ := List.pairwise_cons.mp hlog
      unfold rowsBefore
      by_cases hlt : event.seq < n
      · unfold replayEvents at h
        rw [List.foldlM_cons] at h
        obtain ⟨after, hafter, h⟩ := bind_ok h
        obtain ⟨before, hbefore⟩ := ih hrest h
        refine ⟨before, ?_⟩
        rw [List.filter_cons_of_pos (by simpa using hlt)]
        unfold replayEvents
        rw [List.foldlM_cons, hafter]
        exact hbefore
      · have hnil : rest.filter (fun row => decide (row.seq < n)) = [] := by
          refine List.filter_eq_nil_iff.mpr fun row hrow => ?_
          have hgt := hfirst row hrow
          simp only [decide_eq_true_eq]
          omega
        rw [List.filter_cons_of_neg (by simpa using hlt), hnil]
        exact ⟨context, rfl⟩

end Board

/-! ## Edges against the board -/

section Mirror

variable {log : List StoredEvent} {config : ReplayConfig} {now : Float} {graph : CausalGraph}

/-- The board before a sequence: it replays, and tells of a task what the
row in force does. -/
theorem board_before (hlog : log.Pairwise fun a b => a.seq < b.seq)
    (hempty : config.blackboard.tasks = Dict.empty)
    (hreplay : ∃ context, replay config log now = .ok context) (n : Int) :
    ∃ context, replay config (rowsBefore log n) now = .ok context ∧
      (∀ task dependsOn, Lists context.blackboard task dependsOn ↔
        ∃ event, InForce log task n event ∧ dependsOn ∈ dependsOf event) ∧
      ∀ task, Terminal context.blackboard task ↔ Finished log task n := by
  obtain ⟨whole, hwhole⟩ := hreplay
  obtain ⟨last, hlast, -⟩ := bind_ok hwhole
  obtain ⟨before, hbefore⟩ := replayEvents_rowsBefore hlog hlast n
  refine ⟨_, bind_of_ok hbefore rfl, fun task dependsOn => ?_, fun task => ?_⟩
  · exact entry_iff hlog hempty hbefore fun event entry hok => by rw [(ledgerTask_entry hok).2.1]
  · exact entry_iff hlog hempty hbefore fun event entry hok => (ledgerTask_entry hok).2.2

/-- The graph has the dependency edges the board calls for if and only if,
at every first claim and for every dependency, the declarations and the
completion marks the builder reads say what the board says. -/
theorem mirrorsBoard_iff (hlog : log.Pairwise fun a b => a.seq < b.seq)
    (hempty : config.blackboard.tasks = Dict.empty)
    (hreplay : ∃ context, replay config log now = .ok context)
    (hgraph : buildCausalGraph log = .ok graph) :
    MirrorsBoard config now log graph ↔
      ∀ task n, task ≠ "" → FirstClaim log task n →
        ∀ dependsOn, dependsOn ≠ "" → Aligned log task n dependsOn := by
  have hdistinct : (log.map StoredEvent.seq).Nodup :=
    List.pairwise_map.mpr (hlog.imp fun hlt => by omega)
  constructor
  · intro h task n htask hfirst dependsOn hdep
    obtain ⟨context, hok, hedges⟩ := h task n htask hfirst
    obtain ⟨board, hboard, hlists, hterminal⟩ := board_before hlog hempty hreplay n
    cases hboard.symm.trans hok
    have hedge := hedges dependsOn hdep
    rw [dependencyInto_iff hdistinct hgraph hfirst htask hdep, hlists, hterminal] at hedge
    constructor
    · intro hreleased
      simpa [hreleased] using hedge
    · intro hreleased hfinished hlisted
      simpa [hreleased] using hedge.mpr ⟨hlisted, .inl hfinished⟩
    · intro hreleased hmarked hdeclared
      simpa [hreleased] using hedge.mp ⟨hdeclared, .inr hmarked⟩
  · intro h task n htask hfirst
    obtain ⟨board, hboard, hlists, hterminal⟩ := board_before hlog hempty hreplay n
    refine ⟨board, hboard, fun dependsOn hdep => ?_⟩
    have haligned := h task n htask hfirst dependsOn hdep
    rw [dependencyInto_iff hdistinct hgraph hfirst htask hdep, hlists, hterminal]
    constructor
    · rintro ⟨hdeclared, hdone⟩
      by_cases hreleased : Released log dependsOn n
      · exact ⟨(haligned.released hreleased).mp hdeclared, .inr hreleased⟩
      · have hmarked := hdone.resolve_left hreleased
        obtain ⟨hlisted, hfinished⟩ := haligned.marked hreleased hmarked hdeclared
        exact ⟨hlisted, .inl hfinished⟩
    · rintro ⟨hlisted, hdone⟩
      by_cases hreleased : Released log dependsOn n
      · exact ⟨(haligned.released hreleased).mpr hlisted, .inl hreleased⟩
      · have hfinished := hdone.resolve_right hreleased
        obtain ⟨hdeclared, hmarked⟩ := haligned.finished hreleased hfinished hlisted
        exact ⟨hdeclared, .inr hmarked⟩

/-- Where the row in force is the last declaring row, the marks of what it
lists decide. -/
theorem aligned_of_row {task : String} {n : Int} {event : StoredEvent}
    (hlog : log.Pairwise fun a b => a.seq < b.seq) (hlast : LastDeclaring log task event)
    (hforce : InForce log task n event)
    (hmarks : ∀ dependsOn ∈ dependsOf event,
      (Marked log dependsOn n ↔ Finished log dependsOn n)) (dependsOn : String) :
    Aligned log task n dependsOn := by
  have hdeclared : (∃ row, LastDeclaring log task row ∧ dependsOn ∈ dependsOf row) ↔
      dependsOn ∈ dependsOf event := by
    constructor
    · rintro ⟨row, hrow, hin⟩
      rwa [← hrow.unique hlog hlast]
    · exact fun hin => ⟨event, hlast, hin⟩
  have hlisted : (∃ row, InForce log task n row ∧ dependsOn ∈ dependsOf row) ↔
      dependsOn ∈ dependsOf event := by
    constructor
    · rintro ⟨row, hrow, hin⟩
      rwa [← hrow.unique hlog hforce]
    · exact fun hin => ⟨event, hforce, hin⟩
  constructor
  · intro _
    rw [hdeclared, hlisted]
  · intro _ hfinished hin
    rw [hlisted] at hin
    exact ⟨hdeclared.mpr hin, (hmarks dependsOn hin).mpr hfinished⟩
  · intro _ hmarked hin
    rw [hdeclared] at hin
    exact ⟨hlisted.mpr hin, (hmarks dependsOn hin).mp hmarked⟩

/-! ## Two plans -/

/-- A ledger row of a plan task. -/
def planRow (seq : Int) (task : String) (dependsOn : List String) (status : String) :
    StoredEvent where
  seq := seq
  ts := 1
  kind := EventKind.ledgerTask
  payload := [("task_id", .str task), ("title", .str task), ("created_at", .int 1),
    ("updated_at", .int 1), ("depends_on", .arr (dependsOn.map .str)), ("status", .str status)]

def claimRow (seq : Int) (task : String) : StoredEvent where
  seq := seq
  ts := 1
  kind := EventKind.claim
  payload := [("task_id", .str task), ("owner", .str "amy"), ("claimed_at", .int 1),
    ("lease_expires_at", .int 9)]

/-- `t` depends on `d`, which takes a status before `t` is claimed. -/
def planLog (status : String) : List StoredEvent :=
  [planRow 1 "d" [] "open", planRow 2 "t" ["d"] "open", planRow 3 "d" [] status, claimRow 4 "t"]

def plainConfig : ReplayConfig := .init .null .null .null .null 10 10 10

theorem firstClaim_planLog {status task : String} {n : Int}
    (h : FirstClaim (planLog status) task n) (hid : taskOf (claimRow 4 "t").payload = "t") :
    task = "t" ∧ n = 4 := by
  obtain ⟨⟨event, hevent, hkind, htask, rfl⟩, -⟩ := h
  simp only [planLog, List.mem_cons, List.not_mem_nil, or_false] at hevent
  have hledger : EventKind.ledgerTask ∉ EventKind.snapshots := by decide
  rcases hevent with rfl | rfl | rfl | rfl
  · exact absurd hkind hledger
  · exact absurd hkind hledger
  · exact absurd hkind hledger
  · exact ⟨htask.symm.trans hid, rfl⟩

/-- The plan's row of `t`, and the last one of `d`. -/
theorem planLog_rows {status : String}
    (hrow : ∀ row ∈ planLog status, row.kind = EventKind.ledgerTask →
      (taskOf row.payload = "t" ↔ row.seq = 2))
    (hlast : ∀ row ∈ planLog status, taskOf row.payload = "d" → row.seq ≤ 3)
    (hd : taskOf (planRow 3 "d" [] status).payload = "d")
    (hdepends : dependsOf (planRow 2 "t" ["d"] "open") = ["d"]) :
    LastDeclaring (planLog status) "t" (planRow 2 "t" ["d"] "open") ∧
      InForce (planLog status) "t" 4 (planRow 2 "t" ["d"] "open") ∧
      InForce (planLog status) "d" 4 (planRow 3 "d" [] status) := by
  have hin : planRow 2 "t" ["d"] "open" ∈ planLog status := by simp [planLog]
  have ht : LedgerRow "t" (planRow 2 "t" ["d"] "open") := ⟨rfl, (hrow _ hin rfl).mpr rfl⟩
  have hle : ∀ row ∈ planLog status, LedgerRow "t" row → row.seq ≤ 2 :=
    fun row hmem hledger => Int.le_of_eq ((hrow row hmem hledger.1).mp hledger.2)
  refine ⟨⟨hin, ⟨ht, ?_⟩, fun row hmem h => hle row hmem h.1⟩,
    ⟨hin, ⟨ht, ?_⟩, fun row hmem h => hle row hmem h.1⟩,
    ⟨by simp [planLog], ⟨⟨rfl, hd⟩, ?_⟩, fun row hmem h => hlast row hmem h.1.2⟩⟩
  · rw [hdepends]
    simp
  · show (2 : Int) < 4
    omega
  · show (3 : Int) < 4
    omega

omit [Builtins] in
theorem mirrorsBoard_iff_done :
    letI : Builtins := Builtins.ascii
    ∃ graph, buildCausalGraph (planLog "done") = .ok graph ∧
      MirrorsBoard plainConfig 2 (planLog "done") graph := by
  let _ : Builtins := Builtins.ascii
  obtain ⟨graph, hgraph⟩ : ∃ graph, buildCausalGraph (planLog "done") = .ok graph :=
    exists_ok_of_isSome (by decide +kernel)
  have hreplay : ∃ context, replay plainConfig (planLog "done") 2 = .ok context :=
    exists_ok_of_isSome (by decide +kernel)
  have hlog : (planLog "done").Pairwise fun a b => a.seq < b.seq := by decide +kernel
  refine ⟨graph, hgraph, (mirrorsBoard_iff hlog rfl hreplay hgraph).mpr ?_⟩
  intro task n htask hfirst dependsOn hdep
  obtain ⟨rfl, rfl⟩ := firstClaim_planLog hfirst (by decide +kernel)
  have hdepends : dependsOf (planRow 2 "t" ["d"] "open") = ["d"] := by decide +kernel
  have hmarked : Marked (planLog "done") "d" 4 := by decide +kernel
  obtain ⟨hlast, hforce, hdone⟩ := @planLog_rows _ "done" (by decide +kernel)
    (by decide +kernel) (by decide +kernel) hdepends
  have hfinished : Finished (planLog "done") "d" 4 := ⟨_, hdone, by decide +kernel⟩
  refine aligned_of_row hlog hlast hforce ?_ dependsOn
  rw [hdepends]
  intro other hother
  rw [List.mem_singleton.mp hother]
  exact iff_of_true hmarked hfinished

omit [Builtins] in
/-- The board has finished a cancelled task, and no edge leaves it. -/
theorem cancelled_dependency_unmarked :
    letI : Builtins := Builtins.ascii
    ((planLog "cancelled").Pairwise fun a b => a.seq < b.seq) ∧
      (∃ context, replay plainConfig (planLog "cancelled") 2 = .ok context) ∧
      ∃ graph, buildCausalGraph (planLog "cancelled") = .ok graph ∧
        ¬ MirrorsBoard plainConfig 2 (planLog "cancelled") graph := by
  let _ : Builtins := Builtins.ascii
  obtain ⟨graph, hgraph⟩ : ∃ graph, buildCausalGraph (planLog "cancelled") = .ok graph :=
    exists_ok_of_isSome (by decide +kernel)
  have hreplay : ∃ context, replay plainConfig (planLog "cancelled") 2 = .ok context :=
    exists_ok_of_isSome (by decide +kernel)
  have hlog : (planLog "cancelled").Pairwise fun a b => a.seq < b.seq := by decide +kernel
  refine ⟨hlog, hreplay, graph, hgraph, fun hmirrors => ?_⟩
  have hfirst : FirstClaim (planLog "cancelled") "t" 4 :=
    ⟨⟨claimRow 4 "t", by simp [planLog], by decide +kernel, by decide +kernel, rfl⟩,
      by decide +kernel⟩
  obtain ⟨context, hok, hedges⟩ := hmirrors "t" 4 (by decide) hfirst
  obtain ⟨board, hboard, hlists, hterminal⟩ := board_before hlog rfl hreplay 4
  cases hboard.symm.trans hok
  have hdepends : dependsOf (planRow 2 "t" ["d"] "open") = ["d"] := by decide +kernel
  obtain ⟨-, hforce, hdone⟩ := @planLog_rows _ "cancelled" (by decide +kernel)
    (by decide +kernel) (by decide +kernel) hdepends
  have hlisted : Lists context.blackboard "t" "d" :=
    (hlists "t" "d").mpr ⟨_, hforce, by rw [hdepends]; simp⟩
  have hfinished : Terminal context.blackboard "d" :=
    (hterminal "d").mpr ⟨_, hdone, by decide +kernel⟩
  have hedge := (hedges "d" (by decide)).mpr ⟨hlisted, .inl hfinished⟩
  have hdistinct : ((planLog "cancelled").map StoredEvent.seq).Nodup := by decide +kernel
  have hmarked := ((dependencyInto_iff hdistinct hgraph hfirst (by decide) (by decide)).mp hedge).2
  exact absurd hmarked (by decide +kernel)

end Mirror

end DependencyEdges

end SynapseChannel
