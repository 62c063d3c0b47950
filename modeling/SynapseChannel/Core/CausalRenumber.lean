import SynapseChannel.Core.Causality
import SynapseChannel.Lib.DictMap

/-!
# Core — CausalRenumber

The causality graph reads sequences for order and identity alone: a
numbering that keeps the order of the events carries their graph, and
every answer over it, along.
-/

namespace SynapseChannel

namespace Causality

open Py Outcome

/-! ## Renumbering -/

/-- The numbering keeps the order of these sequences. -/
def Keeps (g : Int → Int) (seqs : List Int) : Prop :=
  ∀ a ∈ seqs, ∀ b ∈ seqs, a < b → g a < g b

def renumberEvent (g : Int → Int) (event : StoredEvent) : StoredEvent :=
  { event with seq := g event.seq }

def renumberNode (g : Int → Int) (node : CausalNode) : CausalNode :=
  { node with seq := g node.seq }

def renumberEdge (g : Int → Int) (edge : CausalEdge) : CausalEdge :=
  { edge with src := g edge.src, dst := g edge.dst }

def renumberEntry (g : Int → Int) (entry : ReleaseEntry) : ReleaseEntry :=
  (g entry.1, renumberNode g entry.2)

def renumberLink (g : Int → Int) (link : CausalLink) : CausalLink where
  edge := renumberEdge g link.edge
  node := renumberNode g link.node

variable {g : Int → Int} {seqs : List Int} {nodes : List CausalNode}

theorem Keeps.lt_iff (h : Keeps g seqs) {a b : Int} (ha : a ∈ seqs) (hb : b ∈ seqs) :
    g a < g b ↔ a < b := by
  constructor
  · intro hlt
    by_contra hge
    rcases Int.lt_or_eq_of_le (Int.not_lt.mp hge) with hba | rfl
    · have := h b hb a ha hba
      omega
    · omega
  · exact h a ha b hb

theorem Keeps.eq_iff (h : Keeps g seqs) {a b : Int} (ha : a ∈ seqs) (hb : b ∈ seqs) :
    g a = g b ↔ a = b := by
  constructor
  · intro heq
    have hab := h.lt_iff ha hb
    have hba := h.lt_iff hb ha
    omega
  · intro heq
    rw [heq]

theorem Keeps.sublist (h : Keeps g seqs) {seqs' : List Int} (hsub : ∀ a ∈ seqs', a ∈ seqs) :
    Keeps g seqs' :=
  fun a ha b hb => h a (hsub a ha) b (hsub b hb)

theorem RisingNodes.renumber (h : RisingNodes nodes)
    (hkeeps : Keeps g (nodes.map CausalNode.seq)) : RisingNodes (nodes.map (renumberNode g)) := by
  refine List.pairwise_map.mpr (h.imp_of_mem fun {a b} ha hb hlt => ?_)
  exact hkeeps _ (List.mem_map_of_mem ha) _ (List.mem_map_of_mem hb) hlt

/-! ## Nodes -/

section Nodes

variable [Builtins]

theorem nodeFromEvent_renumber (g : Int → Int) (event : StoredEvent) :
    nodeFromEvent (renumberEvent g event) = (nodeFromEvent event).map (renumberNode g) := by
  unfold nodeFromEvent renumberEvent
  dsimp only
  cases parseOptionalClaimScopeIdentity event.payload with
  | error e => rfl
  | ok pathIdentity =>
      cases strings (event.payload.getD "paths" (.arr [])) with
      | error e => rfl
      | ok paths =>
          dsimp only [bind, Except.bind]
          cases checkNodeScope pathIdentity (event.payload.getD "worktree" (.str "")).toStr paths with
          | error e => rfl
          | ok _ =>
              cases strings (event.payload.getD "depends_on" (.arr [])) with
              | error e => rfl
              | ok dependsOn => rfl

theorem mapM_renumber (g : Int → Int) (events : List StoredEvent) :
    (events.map (renumberEvent g)).mapM nodeFromEvent
      = (events.mapM nodeFromEvent).map (List.map (renumberNode g)) := by
  induction events with
  | nil => rfl
  | cons event rest ih =>
      rw [List.map_cons, List.mapM_cons, List.mapM_cons, nodeFromEvent_renumber, ih]
      cases nodeFromEvent event with
      | error e => rfl
      | ok node => cases rest.mapM nodeFromEvent <;> rfl

end Nodes

/-! ## Lifecycle and dependency edges -/

theorem nodesByTask_renumber (g : Int → Int) (nodes : List CausalNode) :
    nodesByTask (nodes.map (renumberNode g))
      = (nodesByTask nodes).mapValues (List.map (renumberNode g)) := by
  have hfilter : (nodes.map (renumberNode g)).filter (fun node => node.taskId ≠ "")
      = (nodes.filter fun node => node.taskId ≠ "").map (renumberNode g) := by
    rw [List.filter_map]
    rfl
  unfold nodesByTask
  rw [hfilter]
  induction nodes.filter (fun node => node.taskId ≠ "") using List.reverseRecOn with
  | nil => rfl
  | append_singleton items node ih =>
      rw [List.map_append, List.map_singleton, groupBy_concat, groupBy_concat, ih,
        Dict.mapValues_set]
      have hold : (((groupBy CausalNode.taskId id items).mapValues (List.map (renumberNode g))).get?
            node.taskId).getD []
          = (((groupBy CausalNode.taskId id items).get? node.taskId).getD []).map
            (renumberNode g) := by
        rw [Dict.get?_mapValues]
        cases (groupBy CausalNode.taskId id items).get? node.taskId <;> rfl
      rw [show (renumberNode g node).taskId = node.taskId from rfl, hold, List.map_append]
      rfl

theorem lifecycleOf_renumber (h : RisingNodes nodes) (hkeeps : Keeps g (nodes.map CausalNode.seq)) :
    lifecycleOf (nodes.map (renumberNode g)) = (lifecycleOf nodes).map (renumberEdge g) := by
  unfold lifecycleOf
  rw [bySequence_eq (h.renumber hkeeps), bySequence_eq h]
  dsimp only
  rw [← List.map_tail, List.zip_map, List.map_map, List.map_map]
  rfl

theorem firstClaim_renumber (g : Int → Int) (nodes : List CausalNode) :
    firstClaim (nodes.map (renumberNode g)) = (firstClaim nodes).map (renumberNode g) := by
  unfold firstClaim
  rw [List.find?_map]
  rfl

theorem declaredDependencies_renumber (g : Int → Int) (nodes : List CausalNode) :
    declaredDependencies (nodes.map (renumberNode g)) = declaredDependencies nodes := by
  unfold declaredDependencies
  rw [← List.map_reverse, List.find?_map]
  have hcomp : (fun node : CausalNode =>
      decide (node.kind = EventKind.ledgerTask ∧ node.dependsOn ≠ [])) ∘ renumberNode g
      = fun node => decide (node.kind = EventKind.ledgerTask ∧ node.dependsOn ≠ []) := rfl
  rw [hcomp]
  cases nodes.reverse.find? fun node =>
    decide (node.kind = EventKind.ledgerTask ∧ node.dependsOn ≠ []) <;> rfl

theorem latestNode_renumber (hkeeps : Keeps g (nodes.map CausalNode.seq)) :
    latestNode (nodes.map (renumberNode g)) = (latestNode nodes).map (renumberNode g) := by
  cases nodes with
  | nil => rfl
  | cons first rest =>
      have hfold : ∀ best, Keeps g ((best :: rest).map CausalNode.seq) →
          (rest.map (renumberNode g)).foldl (fun best other =>
            if best.seq < other.seq then other else best) (renumberNode g best)
          = renumberNode g (rest.foldl (fun best other =>
            if best.seq < other.seq then other else best) best) := by
        clear hkeeps
        induction rest with
        | nil => exact fun _ _ => rfl
        | cons other rest ih =>
            intro best hkeeps
            have hiff : (renumberNode g best).seq < (renumberNode g other).seq ↔
                best.seq < other.seq := hkeeps.lt_iff (by simp) (by simp)
            rw [List.map_cons, List.foldl_cons, List.foldl_cons]
            by_cases hlt : best.seq < other.seq
            · rw [if_pos (hiff.mpr hlt), if_pos hlt]
              exact ih other (hkeeps.sublist fun a ha => List.mem_cons_of_mem _ ha)
            · rw [if_neg (fun h => hlt (hiff.mp h)), if_neg hlt]
              refine ih best (hkeeps.sublist fun a ha => ?_)
              simp only [List.map_cons, List.mem_cons] at ha ⊢
              rcases ha with ha | ha
              · exact .inl ha
              · exact .inr (.inr ha)
      exact congrArg some (hfold first hkeeps)

theorem completionBefore_renumber {beforeSeq : Int}
    (hkeeps : Keeps g (beforeSeq :: nodes.map CausalNode.seq)) :
    completionBefore (nodes.map (renumberNode g)) (g beforeSeq)
      = (completionBefore nodes beforeSeq).map (renumberNode g) := by
  have hfilter : (nodes.map (renumberNode g)).filter
        (fun node => decide (node.seq < g beforeSeq) && completes node)
      = (nodes.filter fun node => decide (node.seq < beforeSeq) && completes node).map
        (renumberNode g) := by
    rw [List.filter_map]
    congr 1
    refine List.filter_congr fun node hnode => ?_
    have hiff : (renumberNode g node).seq < g beforeSeq ↔ node.seq < beforeSeq :=
      hkeeps.lt_iff (List.mem_cons_of_mem _ (List.mem_map_of_mem hnode)) (by simp)
    have hsame : completes (renumberNode g node) = completes node := rfl
    simp only [Function.comp_apply, hiff, hsame]
  unfold completionBefore
  rw [hfilter]
  refine latestNode_renumber (hkeeps.sublist fun a ha => ?_)
  exact List.mem_cons_of_mem _ ((List.filter_sublist.map _).subset ha)

theorem dependenciesOf_renumber {values : List CausalNode} (h : RisingNodes nodes)
    (hkeeps : Keeps g (nodes.map CausalNode.seq)) (task : String)
    (hvalues : values.Sublist nodes) :
    dependenciesOf (nodesByTask (nodes.map (renumberNode g))) task (values.map (renumberNode g))
      = (dependenciesOf (nodesByTask nodes) task values).map (renumberEdge g) := by
  have hrising := h.sublist hvalues
  have hkept : Keeps g (values.map CausalNode.seq) :=
    hkeeps.sublist fun a ha => (hvalues.map _).subset ha
  unfold dependenciesOf
  rw [bySequence_eq (hrising.renumber hkept), bySequence_eq hrising]
  dsimp only
  rw [firstClaim_renumber, declaredDependencies_renumber]
  cases hanchor : firstClaim values with
  | none => rfl
  | some anchor =>
      have hseq : anchor.seq ∈ nodes.map CausalNode.seq :=
        List.mem_map_of_mem (hvalues.subset (List.mem_of_find?_eq_some hanchor))
      simp only [Option.map_some, List.map_filterMap]
      refine List.filterMap_congr fun dependencyId _ => ?_
      rw [nodesByTask_renumber, Dict.get?_mapValues]
      have hothers : ∀ others : List CausalNode, (∀ n ∈ others, n ∈ nodes) →
          (completionBefore (others.map (renumberNode g)) (g anchor.seq)).map (fun enabling =>
            ({ src := enabling.seq, dst := g anchor.seq, relation := dependency,
               detail := s!"task {task} depends on {dependencyId}" } : CausalEdge))
          = ((completionBefore others anchor.seq).map (fun enabling =>
            ({ src := enabling.seq, dst := anchor.seq, relation := dependency,
               detail := s!"task {task} depends on {dependencyId}" } : CausalEdge))).map
            (renumberEdge g) := by
        intro others hothers
        rw [completionBefore_renumber (hkeeps.sublist fun a ha => ?_)]
        · cases completionBefore others anchor.seq <;> rfl
        · rcases List.mem_cons.mp ha with rfl | ha
          · exact hseq
          · obtain ⟨n, hn, rfl⟩ := List.mem_map.mp ha
            exact List.mem_map_of_mem (hothers n hn)
      cases hget : (nodesByTask nodes).get? dependencyId with
      | none => exact hothers [] (by simp)
      | some others => exact hothers others fun n hn => (nodesByTask_sublist hget).subset hn

theorem taskEdges_renumber (h : RisingNodes nodes) (hkeeps : Keeps g (nodes.map CausalNode.seq)) :
    lifecycleEdges (nodesByTask (nodes.map (renumberNode g)))
        = (lifecycleEdges (nodesByTask nodes)).map (renumberEdge g) ∧
      dependencyEdges (nodesByTask (nodes.map (renumberNode g)))
        = (dependencyEdges (nodesByTask nodes)).map (renumberEdge g) := by
  have hitems := Dict.items_mapValues (List.map (renumberNode g)) (nodesByTask nodes)
  rw [← nodesByTask_renumber] at hitems
  constructor
  · unfold lifecycleEdges Dict.values
    rw [hitems, List.map_map, List.flatMap_map, List.map_flatMap, List.flatMap_map]
    refine List.flatMap_congr fun item hitem => ?_
    have hsub := nodesByTask_sublist ((Dict.mem_items_iff _ _ _).mp hitem)
    exact lifecycleOf_renumber (h.sublist hsub) (hkeeps.sublist fun a ha => (hsub.map _).subset ha)
  · unfold dependencyEdges
    rw [hitems, List.flatMap_map, List.map_flatMap]
    refine List.flatMap_congr fun item hitem => ?_
    exact dependenciesOf_renumber h hkeeps item.1
      (nodesByTask_sublist ((Dict.mem_items_iff _ _ _).mp hitem))

/-! ## Contention edges -/

section Walk

variable [Builtins]

theorem contends_renumber {claim : CausalNode} {entry : ReleaseEntry}
    (hkeeps : Keeps g [entry.1, claim.seq]) :
    ReleasedClaimIndex.contends (renumberNode g claim) (renumberEntry g entry)
      = ReleasedClaimIndex.contends claim entry := by
  have hlt : g entry.1 < g claim.seq ↔ entry.1 < claim.seq := hkeeps.lt_iff (by simp) (by simp)
  have hge : decide ((renumberEntry g entry).1 ≥ (renumberNode g claim).seq)
      = decide (entry.1 ≥ claim.seq) := by
    rw [decide_eq_decide, ge_iff_le, ge_iff_le, ← Int.not_lt, ← Int.not_lt]
    exact not_congr hlt
  unfold ReleasedClaimIndex.contends
  rw [hge]
  rfl

omit [Builtins] in
theorem find?_of_eq {α : Type} {p q : α → Bool} {l : List α} (h : ∀ a ∈ l, p a = q a) :
    l.find? p = l.find? q := by
  induction l with
  | nil => rfl
  | cons a rest ih =>
      rw [List.find?_cons, List.find?_cons, h a (by simp),
        ih fun b hb => h b (List.mem_cons_of_mem _ hb)]

theorem scanReleases_renumber {releases : List ReleaseEntry} {claim : CausalNode}
    (hkeeps : Keeps g (claim.seq :: releases.map Prod.fst)) :
    ReleasedClaimIndex.scanReleases (releases.map (renumberEntry g)) (renumberNode g claim)
      = (ReleasedClaimIndex.scanReleases releases claim).map g := by
  unfold ReleasedClaimIndex.scanReleases
  rw [← List.map_reverse, List.find?_map, Option.map_map, Option.map_map]
  have hcongr : releases.reverse.find?
        (ReleasedClaimIndex.contends (renumberNode g claim) ∘ renumberEntry g)
      = releases.reverse.find? (ReleasedClaimIndex.contends claim) := by
    refine find?_of_eq fun entry hentry => contends_renumber (hkeeps.sublist fun a ha => ?_)
    have hin := List.mem_map_of_mem (f := Prod.fst) (List.mem_reverse.mp hentry)
    simp only [List.mem_cons, List.not_mem_nil, or_false] at ha ⊢
    rcases ha with rfl | rfl
    · exact .inr hin
    · exact .inl rfl
  rw [hcongr]
  rfl

/-- The walk over renumbered nodes is the walk renumbered. -/
structure Carried (g : Int → Int) (behind : List CausalNode) (c c' : Contending)
    (releases : List ReleaseEntry) : Prop where
  walked : Walked behind c releases
  index : c'.released = ReleasedClaimIndex.addAll (releases.map (renumberEntry g))
  live : c'.live = c.live.mapValues (renumberNode g)
  edges : c'.edges = c.edges.map (renumberEdge g)

variable {behind : List CausalNode} {c c' : Contending} {releases : List ReleaseEntry}
  {node : CausalNode}

theorem Carried.rising (h : Carried g behind c c' releases)
    (hkeeps : Keeps g (behind.map CausalNode.seq)) :
    ReleasedClaimIndex.Rising (releases.map (renumberEntry g)) := by
  refine List.pairwise_map.mpr (h.walked.rising.imp_of_mem fun {a b} ha hb hlt => ?_)
  exact hkeeps _ (h.walked.freed a ha) _ (h.walked.freed b hb) hlt

theorem Carried.blocker (h : Carried g behind c c' releases)
    (hkeeps : Keeps g ((behind ++ [node]).map CausalNode.seq)) :
    c'.released.latestConflicting (renumberNode g node)
      = (c.released.latestConflicting node).map g := by
  have hbehind : Keeps g (behind.map CausalNode.seq) := hkeeps.sublist fun a ha => by
    rw [List.map_append]
    exact List.mem_append_left _ ha
  rw [h.index, h.walked.index, ReleasedClaimIndex.latestConflicting_eq_scan (h.rising hbehind),
    ReleasedClaimIndex.latestConflicting_eq_scan h.walked.rising]
  refine scanReleases_renumber (hkeeps.sublist fun a ha => ?_)
  rw [List.map_append]
  rcases List.mem_cons.mp ha with rfl | ha
  · simp
  · obtain ⟨entry, hentry, rfl⟩ := List.mem_map.mp ha
    exact List.mem_append_left _ (h.walked.freed entry hentry)

theorem Carried.step (h : Carried g behind c c' releases)
    (hlast : ∀ n ∈ behind, n.seq < node.seq)
    (hkeeps : Keeps g ((behind ++ [node]).map CausalNode.seq)) :
    Carried g (behind ++ [node]) (c.step node) (c'.step (renumberNode g node))
      (releases ++ c.freed node) := by
  have hwalked := h.walked.step hlast
  have hget : c'.live.get? node.taskId = (c.live.get? node.taskId).map (renumberNode g) := by
    rw [h.live, Dict.get?_mapValues]
  have hkind : (renumberNode g node).kind = node.kind := rfl
  have htask : (renumberNode g node).taskId = node.taskId := rfl
  by_cases hrelease : node.kind = EventKind.release
  · have hstep : c.step node = c.release node := if_pos hrelease
    have hstep' : c'.step (renumberNode g node) = c'.release (renumberNode g node) :=
      if_pos (hkind.trans hrelease)
    rw [hstep] at hwalked ⊢
    rw [hstep']
    refine ⟨hwalked, ?_, ?_, h.edges⟩
    · unfold Contending.release Contending.freed
      rw [if_pos hrelease, htask, hget]
      cases c.live.get? node.taskId with
      | none => simpa using h.index
      | some held =>
          simp only [Option.map_some, Option.toList_some, List.map_append, List.map_singleton,
            ReleasedClaimIndex.addAll, List.foldl_append, h.index]
          rfl
    · simp only [Contending.release, h.live, htask, Dict.mapValues_erase]
  · have hnone : c.freed node = [] := if_neg hrelease
    rw [hnone, List.append_nil] at hwalked ⊢
    by_cases hsnap : node.kind ∈ EventKind.snapshots
    · have hstep : c.step node = c.snapshot node := by
        unfold Contending.step
        rw [if_neg hrelease, if_pos hsnap]
      have hstep' : c'.step (renumberNode g node) = c'.snapshot (renumberNode g node) := by
        unfold Contending.step
        rw [hkind, if_neg hrelease, if_pos hsnap]
      rw [hstep] at hwalked ⊢
      rw [hstep']
      refine ⟨hwalked, h.index, ?_, ?_⟩
      · simp only [Contending.snapshot, h.live, htask, Dict.mapValues_set]
      · have hcontains : c'.live.contains node.taskId = c.live.contains node.taskId := by
          simp only [Dict.contains, hget, Option.isSome_map]
        simp only [Contending.snapshot, htask, hcontains, h.blocker hkeeps]
        split
        · exact h.edges
        · cases c.released.latestConflicting node with
          | none => exact h.edges
          | some blocker =>
              simp only [Option.map_some, h.edges, List.map_append, List.map_singleton]
              rfl
    · have hstep : c.step node = c := by
        unfold Contending.step
        rw [if_neg hrelease, if_neg hsnap]
      have hstep' : c'.step (renumberNode g node) = c' := by
        unfold Contending.step
        rw [hkind, if_neg hrelease, if_neg hsnap]
      rw [hstep] at hwalked ⊢
      rw [hstep']
      exact ⟨hwalked, h.index, h.live, h.edges⟩

theorem carried (h : RisingNodes nodes) (hkeeps : Keeps g (nodes.map CausalNode.seq)) :
    ∃ releases, Carried g nodes (nodes.foldl Contending.step {})
      ((nodes.map (renumberNode g)).foldl Contending.step {}) releases := by
  induction nodes using List.reverseRecOn with
  | nil => exact ⟨[], ⟨rfl, .nil, by simp, by simp⟩, rfl, rfl, rfl⟩
  | append_singleton nodes node ih =>
      obtain ⟨hnodes, -, hlast⟩ := List.pairwise_append.mp h
      have hkept : Keeps g (nodes.map CausalNode.seq) := hkeeps.sublist fun a ha => by
        rw [List.map_append]
        exact List.mem_append_left _ ha
      obtain ⟨releases, hcarried⟩ := ih hnodes hkept
      rw [List.map_append, List.foldl_append, List.foldl_append]
      exact ⟨_, hcarried.step (fun n hn => hlast n hn node (by simp)) hkeeps⟩

/-! ## The graph -/

def renumberGraph (g : Int → Int) (graph : CausalGraph) : CausalGraph where
  nodes := graph.nodes.map (renumberNode g)
  edges := graph.edges.map (renumberEdge g)
  generatedFromSeq := ((latestNode (graph.nodes.map (renumberNode g))).map CausalNode.seq).getD 0

theorem edgesOf_renumber (h : RisingNodes nodes) (hkeeps : Keeps g (nodes.map CausalNode.seq)) :
    edgesOf (nodes.map (renumberNode g)) = (edgesOf nodes).map (renumberEdge g) := by
  obtain ⟨hlifecycle, hdependency⟩ := taskEdges_renumber h hkeeps
  obtain ⟨releases, hcarried⟩ := carried h hkeeps
  unfold edgesOf contentionEdges
  dsimp only
  rw [hlifecycle, hdependency, hcarried.edges, List.map_append, List.map_append]

theorem graphOf_renumber (h : RisingNodes nodes) (hkeeps : Keeps g (nodes.map CausalNode.seq)) :
    graphOf (nodes.map (renumberNode g)) = renumberGraph g (graphOf nodes) := by
  have hsorted : sortedBy edgeKeyLt edgeKey ((edgesOf nodes).map (renumberEdge g))
      = (sortedBy edgeKeyLt edgeKey (edgesOf nodes)).map (renumberEdge g) := by
    refine (List.map_insertionSort _ _ (renumberEdge g) (edgesOf nodes) fun a ha b hb => ?_).symm
    have ha := edgesOf_ascending h ha
    have hb := edgesOf_ascending h hb
    simp only [edgeKeyLt, edgeKey, renumberEdge, hkeeps.eq_iff hb.src ha.src,
      hkeeps.eq_iff hb.dst ha.dst, hkeeps.lt_iff hb.src ha.src, hkeeps.lt_iff hb.dst ha.dst]
    congr!
  unfold graphOf
  rw [edgesOf_renumber h hkeeps, hsorted]
  rfl

theorem buildCausalGraph_renumber {events : List StoredEvent}
    (h : events.Pairwise fun a b => a.seq < b.seq)
    (hkeeps : Keeps g (events.map StoredEvent.seq)) :
    buildCausalGraph (events.map (renumberEvent g))
      = (buildCausalGraph events).map (renumberGraph g) := by
  have hsorted : ∀ events : List StoredEvent, events.Pairwise (fun a b => a.seq < b.seq) →
      sortedBy seqLt StoredEvent.seq events = events := fun events h =>
    sortedBy_eq_self seqLt (h.imp fun hlt => by
      simp only [seqLt, decide_eq_false_iff_not]
      omega)
  have hfilter : (events.map (renumberEvent g)).filter (fun event => event.kind ∈ graphKinds)
      = (events.filter fun event => event.kind ∈ graphKinds).map (renumberEvent g) := by
    rw [List.filter_map]
    rfl
  have hkept : (events.filter fun event => event.kind ∈ graphKinds).Pairwise
      fun a b => a.seq < b.seq := List.Pairwise.sublist List.filter_sublist h
  have hmapped : ((events.filter fun event => event.kind ∈ graphKinds).map
      (renumberEvent g)).Pairwise fun a b => a.seq < b.seq := by
    refine List.pairwise_map.mpr (hkept.imp_of_mem fun {a b} ha hb hlt => ?_)
    exact hkeeps _ (List.mem_map_of_mem (List.mem_filter.mp ha).1) _
      (List.mem_map_of_mem (List.mem_filter.mp hb).1) hlt
  unfold buildCausalGraph
  dsimp only
  rw [hfilter, hsorted _ hmapped, hsorted _ hkept, mapM_renumber]
  cases hnodes : (events.filter fun event => event.kind ∈ graphKinds).mapM nodeFromEvent with
  | error e => rfl
  | ok nodes =>
      have hseqs := mapM_nodes_seq hnodes
      have hrising : RisingNodes nodes := by
        rw [← List.pairwise_map (R := fun a b : Int => a < b), ← hseqs] at hkept
        exact List.pairwise_map.mp hkept
      refine congrArg Except.ok (graphOf_renumber hrising (hkeeps.sublist fun a ha => ?_))
      rw [hseqs] at ha
      exact (List.filter_sublist.map _).subset ha

end Walk

/-! ## Answers -/

variable {graph : CausalGraph}

theorem WellFormed.renumber (h : WellFormed graph)
    (hkeeps : Keeps g (graph.nodes.map CausalNode.seq)) : WellFormed (renumberGraph g graph) where
  rising := h.rising.renumber hkeeps
  ascending := by
    intro edge' hedge'
    obtain ⟨edge, hedge, rfl⟩ := List.mem_map.mp hedge'
    have hascending := h.ascending edge hedge
    have hmem : ∀ a ∈ graph.nodes.map CausalNode.seq,
        g a ∈ (renumberGraph g graph).nodes.map CausalNode.seq := by
      intro a ha
      obtain ⟨node, hnode, rfl⟩ := List.mem_map.mp ha
      exact List.mem_map.mpr ⟨renumberNode g node, List.mem_map_of_mem hnode, rfl⟩
    exact ⟨hmem _ hascending.src, hmem _ hascending.dst,
      hkeeps _ hascending.src _ hascending.dst hascending.lt⟩

theorem leads_renumber (g : Int → Int) (graph : CausalGraph) (a' b' : Int) :
    Leads (renumberGraph g graph) a' b' ↔ ∃ a b, g a = a' ∧ g b = b' ∧ Leads graph a b := by
  constructor
  · rintro ⟨edge', hedge', rfl, rfl⟩
    obtain ⟨edge, hedge, rfl⟩ := List.mem_map.mp hedge'
    exact ⟨edge.src, edge.dst, rfl, rfl, edge, hedge, rfl, rfl⟩
  · rintro ⟨a, b, rfl, rfl, edge, hedge, rfl, rfl⟩
    exact ⟨renumberEdge g edge, List.mem_map_of_mem hedge, rfl, rfl⟩

theorem WellFormed.carries_leads (h : WellFormed graph)
    (hkeeps : Keeps g (graph.nodes.map CausalNode.seq)) :
    Dominance.Carries g (· ∈ graph.nodes.map CausalNode.seq) (Leads graph)
      (Leads (renumberGraph g graph)) where
  inj := fun ha hb heq => (hkeeps.eq_iff ha hb).mp heq
  within := fun hab => ⟨h.src hab, h.dst hab⟩
  step := leads_renumber g graph

theorem WellFormed.carries_follows (h : WellFormed graph)
    (hkeeps : Keeps g (graph.nodes.map CausalNode.seq)) (direction : Direction) :
    Dominance.Carries g (· ∈ graph.nodes.map CausalNode.seq) (Follows graph direction)
      (Follows (renumberGraph g graph) direction) where
  inj := fun ha hb heq => (hkeeps.eq_iff ha hb).mp heq
  within := by
    intro a b hab
    unfold Follows at hab
    split at hab
    · exact ⟨h.dst hab, h.src hab⟩
    · exact ⟨h.src hab, h.dst hab⟩
  step := by
    intro a' b'
    unfold Follows
    split
    · rw [leads_renumber]
      constructor
      · rintro ⟨b, a, hb, ha, hab⟩
        exact ⟨a, b, ha, hb, hab⟩
      · rintro ⟨a, b, ha, hb, hab⟩
        exact ⟨b, a, hb, ha, hab⟩
    · exact leads_renumber g graph a' b'

theorem reachedNodes_renumber (h : WellFormed graph)
    (hkeeps : Keeps g (graph.nodes.map CausalNode.seq)) (direction : Direction)
    {node : CausalNode} (hnode : node ∈ graph.nodes) :
    reachedNodes (renumberGraph g graph) direction (g node.seq)
      = (reachedNodes graph direction node.seq).map (renumberNode g) := by
  unfold reachedNodes
  rw [show (renumberGraph g graph).nodes = graph.nodes.map (renumberNode g) from rfl,
    List.filter_map]
  congr 1
  refine List.filter_congr fun other hother => decide_eq_decide.mpr ?_
  exact (h.carries_follows hkeeps direction).behind (List.mem_map_of_mem hnode)
    (List.mem_map_of_mem hother)

theorem dominatedNodes_renumber (h : WellFormed graph)
    (hkeeps : Keeps g (graph.nodes.map CausalNode.seq)) {node : CausalNode}
    (hnode : node ∈ graph.nodes) :
    dominatedNodes (renumberGraph g graph) (g node.seq)
      = (dominatedNodes graph node.seq).map (renumberNode g) := by
  have hcarries := h.carries_leads hkeeps
  have hseq := List.mem_map_of_mem (f := CausalNode.seq) hnode
  unfold dominatedNodes
  rw [show (renumberGraph g graph).nodes = graph.nodes.map (renumberNode g) from rfl,
    List.filter_map]
  congr 1
  refine List.filter_congr fun other hother => decide_eq_decide.mpr ?_
  have hother := List.mem_map_of_mem (f := CausalNode.seq) hother
  exact and_congr (hcarries.behind hseq hother) (hcarries.dominates hseq hother)

theorem adjacentEdges_renumber (h : WellFormed graph)
    (hkeeps : Keeps g (graph.nodes.map CausalNode.seq)) (direction : Direction)
    {node : CausalNode} (hnode : node ∈ graph.nodes) :
    adjacentEdges (renumberGraph g graph) direction (g node.seq)
      = (adjacentEdges graph direction node.seq).map (renumberEdge g) := by
  unfold adjacentEdges edgesAt
  rw [getD_groupBy, getD_groupBy, List.map_id, List.map_id,
    show (renumberGraph g graph).edges = graph.edges.map (renumberEdge g) from rfl,
    List.filter_map]
  congr 1
  refine List.filter_congr fun edge hedge => decide_eq_decide.mpr ?_
  have hnear : nearEnd direction (renumberEdge g edge) = g (nearEnd direction edge) := by
    cases direction <;> rfl
  have hin : nearEnd direction edge ∈ graph.nodes.map CausalNode.seq := by
    have hascending := h.ascending edge hedge
    unfold nearEnd
    split
    · exact hascending.dst
    · exact hascending.src
  rw [hnear]
  exact hkeeps.eq_iff hin (List.mem_map_of_mem hnode)

theorem farEnd_renumber (g : Int → Int) (direction : Direction) (edge : CausalEdge) :
    farEnd direction (renumberEdge g edge) = g (farEnd direction edge) := by
  cases direction <;> rfl

theorem links_renumber (h : WellFormed graph)
    (hkeeps : Keeps g (graph.nodes.map CausalNode.seq)) (direction : Direction)
    {edges : List CausalEdge} (hedges : ∀ edge ∈ edges, edge ∈ graph.edges) :
    (edges.map (renumberEdge g)).mapM
        (linkAt (nodesBySeq (renumberGraph g graph).nodes) (farEnd direction))
      = (edges.mapM (linkAt (nodesBySeq graph.nodes) (farEnd direction))).map
        (List.map (renumberLink g)) := by
  induction edges with
  | nil => rfl
  | cons edge rest ih =>
      obtain ⟨node, hnode, hseq, hlink⟩ := h.linkAt_ok direction (hedges edge (by simp))
      have hlink' : linkAt (nodesBySeq (renumberGraph g graph).nodes) (farEnd direction)
          (renumberEdge g edge) = .ok (renumberLink g ⟨edge, node⟩) := by
        unfold linkAt
        rw [farEnd_renumber, ← hseq]
        exact bind_of_ok (nodeAt_eq (h.renumber hkeeps).rising
          (List.mem_map_of_mem (f := renumberNode g) hnode)) rfl
      rw [List.map_cons, List.mapM_cons, List.mapM_cons, hlink, hlink',
        ih fun e he => hedges e (List.mem_cons_of_mem _ he)]
      cases rest.mapM (linkAt (nodesBySeq graph.nodes) (farEnd direction)) <;> rfl

theorem isDirect_renumber (h : WellFormed graph)
    (hkeeps : Keeps g (graph.nodes.map CausalNode.seq)) {direction : Direction}
    {node : CausalNode} (hnode : node ∈ graph.nodes) {direct : List CausalLink}
    (hdirect : IsDirect graph direction node.seq direct) :
    IsDirect (renumberGraph g graph) direction (g node.seq) (direct.map (renumberLink g)) := by
  have hedges : ∀ edge ∈ adjacentEdges graph direction node.seq, edge ∈ graph.edges :=
    fun edge hedge => ((mem_edgesAt _ _ _ _).mp hedge).1
  obtain ⟨links, hlinks, hnodes⟩ := h.links_ok direction hedges
  unfold IsDirect directLinks at hdirect ⊢
  rw [adjacentEdges_renumber h hkeeps direction hnode, links_renumber h hkeeps direction hedges]
  rw [hlinks] at hdirect ⊢
  cases hdirect
  refine congrArg Except.ok (List.map_insertionSort _ _ (renumberLink g) links ?_).symm
  intro a ha b hb
  have ha := List.mem_map_of_mem (f := CausalNode.seq) (hnodes a ha).1
  have hb := List.mem_map_of_mem (f := CausalNode.seq) (hnodes b hb).1
  simp only [linkKeyLt, renumberLink, renumberNode, renumberEdge, hkeeps.eq_iff hb ha,
    hkeeps.lt_iff hb ha]
  congr!

def renumberAnswer (g : Int → Int) (answer : CausalQuery) : CausalQuery where
  seq := g answer.seq
  direction := answer.direction
  present := answer.present
  node := answer.node.map (renumberNode g)
  direct := answer.direct.map (renumberLink g)
  transitive := answer.transitive.map (renumberNode g)
  unsupported := answer.unsupported.map (renumberNode g)

/-- A query at a sequence that is no node's has the empty answer. -/
theorem query_absent (h : WellFormed graph) (direction : Direction) {seq : Int}
    (hseq : seq ∉ graph.nodes.map CausalNode.seq) :
    query graph seq direction = .ok {
      seq := seq, direction := direction, present := false, node := none,
      direct := [], transitive := [], unsupported := [] } := by
  have hnone : (nodesBySeq graph.nodes).get? seq = none := by
    cases hget : (nodesBySeq graph.nodes).get? seq with
    | none => rfl
    | some node =>
        obtain ⟨hnode, rfl⟩ := (nodesBySeq_get? h.rising seq node).mp hget
        exact absurd (List.mem_map_of_mem hnode) hseq
  unfold query queryWith
  dsimp only
  rw [hnone]

/-- An answer names nodes and edges of its graph. -/
structure Within (graph : CausalGraph) (answer : CausalQuery) : Prop where
  node : ∀ node ∈ answer.node, node ∈ graph.nodes
  direct : ∀ link ∈ answer.direct, link.node ∈ graph.nodes ∧ link.edge ∈ graph.edges
  transitive : ∀ node ∈ answer.transitive, node ∈ graph.nodes
  unsupported : ∀ node ∈ answer.unsupported, node ∈ graph.nodes

theorem query_renumber (h : WellFormed graph)
    (hkeeps : Keeps g (graph.nodes.map CausalNode.seq)) (direction : Direction)
    {node : CausalNode} (hnode : node ∈ graph.nodes) :
    ∃ answer, query graph node.seq direction = .ok answer ∧ answer.seq = node.seq ∧
      Within graph answer ∧ query (renumberGraph g graph) (g node.seq) direction = .ok (renumberAnswer g answer) := by
  obtain ⟨direct, hdirect, hlinks⟩ := directLinks_ok h direction node.seq
  have hanswer := queryWith_ok h hnode visits_same direction hdirect
  have hanswer' := queryWith_ok (h.renumber hkeeps) (List.mem_map_of_mem (f := renumberNode g) hnode)
    visits_same direction (isDirect_renumber h hkeeps hnode hdirect)
  refine ⟨_, hanswer, rfl, ⟨?_, hlinks, ?_, ?_⟩, hanswer'.trans (congrArg Except.ok ?_)⟩
  · intro other hother
    rwa [← Option.some.inj hother]
  · exact fun other hother => List.mem_of_mem_filter hother
  · intro other hother
    dsimp only at hother
    split at hother
    · exact List.mem_of_mem_filter hother
    · cases hother
  · unfold renumberAnswer
    rw [show (renumberNode g node).seq = g node.seq from rfl,
      reachedNodes_renumber h hkeeps direction hnode, dominatedNodes_renumber h hkeeps hnode]
    congr 1
    split <;> rfl

end Causality

end SynapseChannel
