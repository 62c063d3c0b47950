import SynapseChannel.Lib.Search
import SynapseChannel.Core.StateSteps

/-!
# Core — Deadlock

The wait-for graph: waiter to task edges with cycle detection over live
ownership. A wait names the waited task; its holder is resolved from the
claims when the graph is read, so a change of owner moves the edges of
every waiter of the task without a cycle check.
-/

namespace SynapseChannel

open Py Search Relation

/-- The tasks each waiting agent waits for. -/
abbrev Waits := Dict String (List String)

/-- The owner name of a claimed task, unless it is empty. -/
def holderOf (claims : Dict String TaskClaim) (taskId : String) : Option String :=
  ((claims.get? taskId).map TaskClaim.owner).filter fun owner => owner ≠ ""

/-- Project waits onto live waiter to holder edges; a free task has no
holder. -/
def resolveWaitEdges (waits : Waits) (claims : Dict String TaskClaim) :
    Dict String (List String) :=
  waits.filterMapValues fun taskIds =>
    let owners := taskIds.filterMap (holderOf claims)
    if owners = [] then none else some owners

/-- Drop the waits whose task is not claimed, and waiters left with
none. -/
def pruneWaits (waits : Waits) (claims : Dict String TaskClaim) : Waits :=
  waits.filterMapValues fun taskIds =>
    let live := taskIds.filter claims.contains
    if live = [] then none else some live

/-- Whether `waiter` waiting for `holder` would close a cycle. -/
def wouldCreateCycle (waits : Waits) (claims : Dict String TaskClaim) (waiter holder : String) :
    Bool :=
  if waiter = holder then true
  else
    let edges := resolveWaitEdges waits claims
    dfs edges waiter (fuelFor edges) [holder] []

/-- Clear only the claimant's wait on the task it just acquired. -/
def clearSatisfiedWait (waits : Waits) (claimant taskId : String) : Waits :=
  match waits.get? claimant with
  | none => waits
  | some waited =>
    let left := waited.filter fun t => t ≠ taskId
    if left = [] then waits.erase claimant else waits.set claimant left

/-- `waits.setdefault(sender, set()).add(task_id)`. -/
def addWait (waits : Waits) (sender taskId : String) : Waits :=
  waits.set sender (((waits.get? sender).getD []).insert taskId)

/-! ## Who waits for what -/

/-- Whether the agent waits for the task. -/
def WaitsFor (waits : Waits) (agent taskId : String) : Prop :=
  taskId ∈ (waits.get? agent).getD []

/-- The agent graph of a wait table. -/
def WaitEdge (waits : Waits) (claims : Dict String TaskClaim) : String → String → Prop :=
  Edge (resolveWaitEdges waits claims)

theorem holderOf_eq_some {claims : Dict String TaskClaim} {taskId owner : String} :
    holderOf claims taskId = some owner ↔
      (∃ c, claims.get? taskId = some c ∧ c.owner = owner) ∧ owner ≠ "" := by
  rw [holderOf, Option.filter_eq_some_iff, Option.map_eq_some_iff]
  simp

theorem waitEdge_iff (waits : Waits) (claims : Dict String TaskClaim) (a b : String) :
    WaitEdge waits claims a b ↔ ∃ t, WaitsFor waits a t ∧ holderOf claims t = some b := by
  rw [WaitEdge, Edge, successors, resolveWaitEdges, Dict.get?_filterMapValues]
  unfold WaitsFor
  cases waits.get? a with
  | none => simp
  | some tasks =>
    rw [Option.bind_some, Option.getD_some]
    dsimp only
    split
    · rename_i hnone
      rw [List.filterMap_eq_nil_iff] at hnone
      constructor
      · rintro ⟨⟩
      · rintro ⟨t, ht, hb⟩
        rw [hnone t ht] at hb
        cases hb
    · rw [Option.getD_some, List.mem_filterMap]

theorem waitsFor_pruneWaits (waits : Waits) (claims : Dict String TaskClaim) (a t : String) :
    WaitsFor (pruneWaits waits claims) a t ↔ WaitsFor waits a t ∧ claims.contains t = true := by
  rw [WaitsFor, WaitsFor, pruneWaits, Dict.get?_filterMapValues]
  cases waits.get? a with
  | none => simp
  | some tasks =>
    rw [Option.bind_some, Option.getD_some]
    dsimp only
    split
    · rename_i hnone
      rw [List.filter_eq_nil_iff] at hnone
      constructor
      · rintro ⟨⟩
      · rintro ⟨ht, hlive⟩
        exact absurd hlive (hnone t ht)
    · rw [Option.getD_some, List.mem_filter]

theorem waitsFor_clearSatisfiedWait (waits : Waits) (claimant taskId a t : String) :
    WaitsFor (clearSatisfiedWait waits claimant taskId) a t ↔
      WaitsFor waits a t ∧ ¬ (a = claimant ∧ t = taskId) := by
  unfold WaitsFor clearSatisfiedWait
  by_cases ha : a = claimant
  · subst ha
    cases hw : waits.get? a with
    | none => simp [hw]
    | some waited =>
      dsimp only
      split
      · rename_i hnone
        rw [List.filter_eq_nil_iff] at hnone
        simp only [decide_eq_true_eq, not_not] at hnone
        simp only [Dict.get?_erase_self, Option.getD_none, Option.getD_some]
        constructor
        · rintro ⟨⟩
        · rintro ⟨ht, hne⟩
          exact absurd ⟨trivial, hnone t ht⟩ hne
      · simp
  · cases hw : waits.get? claimant with
    | none => simp [ha]
    | some waited =>
      dsimp only
      split
      · simp [Dict.get?_erase_ne waits ha, ha]
      · simp [Dict.get?_set_ne waits _ (Ne.symm ha), ha]

theorem waitsFor_addWait (waits : Waits) (sender taskId a t : String) :
    WaitsFor (addWait waits sender taskId) a t ↔
      WaitsFor waits a t ∨ (a = sender ∧ t = taskId) := by
  unfold WaitsFor addWait
  rw [Dict.get?_set]
  by_cases ha : sender = a
  · subst ha
    simp [or_comm]
  · simp [ha, Ne.symm ha]

theorem waitsFor_erase {waits : Waits} {agent a t : String}
    (h : WaitsFor (waits.erase agent) a t) : WaitsFor waits a t := by
  unfold WaitsFor at h ⊢
  rw [Dict.get?_erase] at h
  split at h
  · cases h
  · exact h

/-- Fewer waits and fewer claims give fewer edges. -/
theorem waitEdge_mono {waits waits' : Waits} {claims claims' : Dict String TaskClaim}
    (hwaits : ∀ a t, WaitsFor waits' a t → WaitsFor waits a t)
    (howners : ∀ t b, holderOf claims' t = some b → holderOf claims t = some b) (a b : String)
    (h : WaitEdge waits' claims' a b) : WaitEdge waits claims a b := by
  rw [waitEdge_iff] at h ⊢
  obtain ⟨t, ht, hb⟩ := h
  exact ⟨t, hwaits a t ht, howners t b hb⟩

theorem holderOf_sub {claims claims' : Dict String TaskClaim} (h : claims'.Sub claims)
    (t b : String) (hb : holderOf claims' t = some b) : holderOf claims t = some b := by
  rw [holderOf_eq_some] at hb ⊢
  obtain ⟨⟨c, hc, ho⟩, hne⟩ := hb
  exact ⟨⟨c, h t c hc, ho⟩, hne⟩

theorem holderOf_set (claims : Dict String TaskClaim) (taskId : String) (claim : TaskClaim)
    (t : String) :
    holderOf (claims.set taskId claim) t
      = if taskId = t then (some claim.owner).filter (fun owner => owner ≠ "")
        else holderOf claims t := by
  rw [holderOf, Dict.get?_set]
  split <;> rfl

/-- Overwriting a claim with one of the same owner moves no edge. -/
theorem holderOf_set_same {claims : Dict String TaskClaim} {taskId : String} {old claim : TaskClaim}
    (hold : claims.get? taskId = some old) (howner : claim.owner = old.owner) (t b : String)
    (hb : holderOf (claims.set taskId claim) t = some b) : holderOf claims t = some b := by
  rw [holderOf_set] at hb
  split at hb
  · rename_i htask
    subst htask
    rw [holderOf, hold, Option.map_some, ← howner]
    exact hb
  · exact hb

/-- The cycle check is exact: it refuses a wait when the holder reaches
the waiter. -/
theorem wouldCreateCycle_iff (waits : Waits) (claims : Dict String TaskClaim)
    (waiter holder : String) :
    wouldCreateCycle waits claims waiter holder = true ↔
      ReflTransGen (WaitEdge waits claims) holder waiter := by
  unfold wouldCreateCycle
  split
  · rename_i heq
    subst heq
    exact iff_of_true rfl .refl
  · exact dfs_iff _ _ _

/-! ## The hub's wait table -/

/-- The registry and the wait table over it. -/
structure WaitHub where
  state : SynapseState
  waits : Waits := Dict.empty

/-- A registry verb, a wait request, or an agent's disconnect. -/
inductive WaitOp where
  | verb (op : StateOp)
  | waitRequest (sender taskId : String)
  | disconnect (agent : String)

namespace WaitHub

/-- No agent waits, through any chain of holders, for itself. -/
def DeadlockFree (h : WaitHub) : Prop := Acyclic (WaitEdge h.waits h.state.claims)

/-- What the handler of a verb does to the waits once it has the
verdict. -/
def publishVerb (waits : Waits) (op : StateOp) (r : SynapseState × Verdict) : Waits :=
  match r.2 with
  | .error _ => waits
  | .ok _ =>
    match op with
    | .claim agent taskId _ _ => clearSatisfiedWait waits agent (strip taskId)
    | .renewClaim agent taskId _ _ _ => clearSatisfiedWait waits agent (strip taskId)
    | .handoff _ taskId toAgent _ _ _ => clearSatisfiedWait waits (strip toAgent) (strip taskId)
    | .release _ _ _ _ => pruneWaits waits r.1.claims
    | .heartbeat _ _ => pruneWaits waits r.1.claims
    | .updateTask _ _ _ _ => waits
    | .saveCheckpoint _ _ _ _ _ => waits
    | .forceRelease _ _ => waits
    | .snapshot _ => waits

/-- Register an advisory wait for a held task, refusing deadlock. -/
def handleWaitRequest (h : WaitHub) (sender taskId : String) : WaitHub × Verdict :=
  let task := strip taskId
  match h.state.claims.get? task with
  | none => (h, .error s!"Task '{task}' is not claimed; nothing to wait for.")
  | some claim =>
    let holder := claim.owner
    if holder = sender then (h, .error s!"You already hold '{task}'.")
    else if wouldCreateCycle h.waits h.state.claims sender holder then
      (h, .error s!"Waiting for '{task}' held by {holder} would deadlock.")
    else
      ({ h with waits := addWait h.waits sender task },
        .ok s!"Waiting for '{task}' held by {holder}.")

/-- Remove a disconnecting agent's waits. -/
def dropWaits (h : WaitHub) (agent : String) : WaitHub := { h with waits := h.waits.erase agent }

/-- The hub after one step. -/
def next [Builtins] (h : WaitHub) : WaitOp → WaitHub
  | .verb op => { state := (op.apply h.state).1, waits := publishVerb h.waits op (op.apply h.state) }
  | .waitRequest sender taskId => (h.handleWaitRequest sender taskId).1
  | .disconnect agent => h.dropWaits agent

/-- The hub after a sequence of steps. -/
def run [Builtins] (h : WaitHub) (ops : List WaitOp) : WaitHub := Trace.run next h ops

/-- Some other agent that `agent` already waits for, through any chain of
the holders of other tasks, waits for `task`. -/
def ClosesThrough (waits : Waits) (claims : Dict String TaskClaim) (agent task : String) : Prop :=
  agent ≠ "" ∧ ∃ w, w ≠ agent ∧ WaitsFor waits w task ∧
    ReflTransGen (WaitEdge waits (claims.erase task)) agent w

/-- A grant that gives a task to an agent which already waits, in the
registry the grant is decided in, for one of the waiters of the task. -/
def ClosesCycle [Builtins] (h : WaitHub) : WaitOp → Prop
  | .verb op => (∃ m, (op.apply h.state).2 = .ok m) ∧
    match op with
    | .claim agent taskId now _ =>
      ClosesThrough h.waits (h.state.heartbeat agent now).claims agent (strip taskId)
    | .handoff agent taskId toAgent now _ _ =>
      ClosesThrough h.waits (h.state.heartbeat agent now).claims (strip toAgent) (strip taskId)
    | _ => False
  | .waitRequest _ _ => False
  | .disconnect _ => False

/-- Two agents that wait for each other are a cycle. -/
theorem not_deadlockFree_of_mutual {h : WaitHub} (a b : String)
    (hab : Edge (resolveWaitEdges h.waits h.state.claims) a b)
    (hba : Edge (resolveWaitEdges h.waits h.state.claims) b a) : ¬ h.DeadlockFree :=
  fun hfree => hfree a (.tail (.single hab) hba)

/-! ## What a step does to the agent graph -/

/-- A grant closes a cycle exactly when its taker already waits for one of
the task's waiters. -/
theorem acyclic_grant_iff {waits : Waits} {claims : Dict String TaskClaim} {agent task : String}
    {claim : TaskClaim} (hfree : Acyclic (WaitEdge waits claims)) (howner : claim.owner = agent) :
    Acyclic (WaitEdge (clearSatisfiedWait waits agent task) (claims.set task claim)) ↔
      ¬ ClosesThrough waits claims agent task := by
  have hcleared : ∀ a t, WaitsFor (clearSatisfiedWait waits agent task) a t → WaitsFor waits a t :=
    fun a t ht => ((waitsFor_clearSatisfiedWait ..).mp ht).1
  by_cases hagent : agent = ""
  · -- an empty owner resolves to no edge
    refine iff_of_true (hfree.mono (waitEdge_mono hcleared fun t b hb => ?_))
      fun hcloses => hcloses.1 hagent
    rw [holderOf_set] at hb
    split at hb
    · simp [howner, hagent] at hb
    · exact hb
  · have hrest : Acyclic (WaitEdge waits (claims.erase task)) :=
      hfree.mono (waitEdge_mono (fun _ _ ht => ht) (holderOf_sub (Dict.Sub.erase claims task)))
    have hedges : ∀ a b, WaitEdge (clearSatisfiedWait waits agent task) (claims.set task claim) a b ↔
        WaitEdge waits (claims.erase task) a b ∨
          ((WaitsFor waits a task ∧ a ≠ agent) ∧ b = agent) := by
      intro a b
      rw [waitEdge_iff, waitEdge_iff]
      constructor
      · rintro ⟨t, ht, hb⟩
        obtain ⟨hwaits, hkept⟩ := (waitsFor_clearSatisfiedWait ..).mp ht
        by_cases htask : t = task
        · subst htask
          rw [holderOf_set, if_pos rfl, howner] at hb
          refine .inr ⟨⟨hwaits, fun ha => hkept ⟨ha, rfl⟩⟩, ?_⟩
          exact (Option.some.inj (Option.filter_eq_some_iff.mp hb).1).symm
        · refine .inl ⟨t, hwaits, ?_⟩
          rw [holderOf_set, if_neg (Ne.symm htask)] at hb
          rwa [holderOf, Dict.get?_erase_ne claims htask]
      · rintro (⟨t, ht, hb⟩ | ⟨⟨ht, ha⟩, rfl⟩)
        · have htask : t ≠ task := by
            rintro rfl
            simp [holderOf] at hb
          refine ⟨t, (waitsFor_clearSatisfiedWait ..).mpr ⟨ht, fun h => htask h.2⟩, ?_⟩
          rw [holderOf_set, if_neg (Ne.symm htask)]
          rwa [holderOf, Dict.get?_erase_ne claims htask] at hb
        · refine ⟨task, (waitsFor_clearSatisfiedWait ..).mpr ⟨ht, fun h => ha h.1⟩, ?_⟩
          rw [holderOf_set, if_pos rfl, howner]
          simp [hagent]
    rw [acyclic_into hedges]
    constructor
    · rintro ⟨-, hout⟩ ⟨-, w, hw, hwaits, hreach⟩
      exact hout w ⟨hwaits, hw⟩ hreach
    · exact fun hcloses => ⟨hrest, fun w hw hreach =>
        hcloses ⟨hagent, w, hw.2, hw.1, hreach⟩⟩

/-- A wait the cycle check admits closes no cycle. -/
theorem acyclic_addWait {waits : Waits} {claims : Dict String TaskClaim} {sender task : String}
    {claim : TaskClaim} (hfree : Acyclic (WaitEdge waits claims))
    (hheld : claims.get? task = some claim)
    (hsafe : wouldCreateCycle waits claims sender claim.owner = false) :
    Acyclic (WaitEdge (addWait waits sender task) claims) := by
  have hedges : ∀ a b, WaitEdge (addWait waits sender task) claims a b ↔
      WaitEdge waits claims a b ∨ ((a = sender ∧ claim.owner ≠ "") ∧ b = claim.owner) := by
    intro a b
    rw [waitEdge_iff, waitEdge_iff]
    constructor
    · rintro ⟨t, ht, hb⟩
      rcases (waitsFor_addWait ..).mp ht with ht | ⟨rfl, rfl⟩
      · exact .inl ⟨t, ht, hb⟩
      · obtain ⟨⟨c, hc, rfl⟩, hne⟩ := holderOf_eq_some.mp hb
        cases hheld.symm.trans hc
        exact .inr ⟨⟨rfl, hne⟩, rfl⟩
    · rintro (⟨t, ht, hb⟩ | ⟨⟨rfl, hne⟩, rfl⟩)
      · exact ⟨t, (waitsFor_addWait ..).mpr (.inl ht), hb⟩
      · exact ⟨task, (waitsFor_addWait ..).mpr (.inr ⟨rfl, rfl⟩),
          holderOf_eq_some.mpr ⟨⟨claim, hheld, rfl⟩, hne⟩⟩
  refine (acyclic_into hedges).mpr ⟨hfree, ?_⟩
  rintro w ⟨rfl, -⟩ hreach
  rw [← wouldCreateCycle_iff, hsafe] at hreach
  cases hreach

variable [Builtins]

/-- A verb keeps the graph acyclic exactly when it grants no task into a
chain of waits. -/
theorem verb_deadlockFree_iff {h : WaitHub} (hfree : h.DeadlockFree) (op : StateOp) :
    (h.next (.verb op)).DeadlockFree ↔ ¬ h.ClosesCycle (.verb op) := by
  have step := op.apply_step h.state
  -- every outcome but a grant only takes claims or waits away
  have shrinks {waits : Waits} {claims : Dict String TaskClaim}
      (hwaits : ∀ a t, WaitsFor waits a t → WaitsFor h.waits a t)
      (howners : ∀ t b, holderOf claims t = some b → holderOf h.state.claims t = some b) :
      Acyclic (WaitEdge waits claims) :=
    hfree.mono (waitEdge_mono hwaits howners)
  have pruned (claims : Dict String TaskClaim) (a t : String)
      (ht : WaitsFor (pruneWaits h.waits claims) a t) : WaitsFor h.waits a t :=
    ((waitsFor_pruneWaits ..).mp ht).1
  have cleared (agent task a t : String)
      (ht : WaitsFor (clearSatisfiedWait h.waits agent task) a t) : WaitsFor h.waits a t :=
    ((waitsFor_clearSatisfiedWait ..).mp ht).1
  have beat (agent : String) (now : Float) := holderOf_sub (h.state.heartbeat_claims_sub agent now)
  unfold DeadlockFree ClosesCycle next
  dsimp only
  generalize op.apply h.state = r at step ⊢
  cases step with
  | invalid _ m => exact iff_of_true hfree (by simp)
  | refused op agent now m =>
    exact iff_of_true (shrinks (fun _ _ ht => ht) (beat agent now)) (by simp)
  | claimed agent taskId now args m hadm =>
    have hbeat : Acyclic (WaitEdge h.waits (h.state.heartbeat agent now).claims) :=
      shrinks (fun _ _ ht => ht) (beat agent now)
    rw [and_iff_right ⟨m, rfl⟩]
    exact acyclic_grant_iff hbeat rfl
  | renewed agent taskId now epoch paths claim m hown =>
    refine iff_of_true (shrinks (cleared _ _) fun t b hb => beat agent now t b ?_) (by simp)
    exact @holderOf_set_same _ _ _ (SynapseState.renewedClaim claim now) hown.held rfl t b hb
  | updated agent task now args claim m hown =>
    refine iff_of_true (shrinks (fun _ _ ht => ht) fun t b hb => beat agent now t b ?_) (by simp)
    exact @holderOf_set_same _ _ _ (SynapseState.updatedClaim claim args) hown.held rfl t b hb
  | checkpointed agent taskId now checkpoint epoch claim m hown =>
    refine iff_of_true (shrinks (fun _ _ ht => ht) fun t b hb => beat agent now t b ?_) (by simp)
    exact @holderOf_set_same _ _ _ { claim with checkpoint, version := claim.version + 1 } hown.held
      rfl t b hb
  | released agent taskId now epoch claim m =>
    refine iff_of_true (shrinks (pruned _) fun t b hb => beat agent now t b ?_) (by simp)
    exact holderOf_sub (Dict.Sub.erase _ _) t b hb
  | revoked taskId operator claim m =>
    exact iff_of_true (shrinks (fun _ _ ht => ht) (holderOf_sub (Dict.Sub.erase _ _))) (by simp)
  | moved agent taskId toAgent now note epoch claim m =>
    have hbeat : Acyclic (WaitEdge h.waits (h.state.heartbeat agent now).claims) :=
      shrinks (fun _ _ ht => ht) (beat agent now)
    rw [and_iff_right ⟨m, rfl⟩]
    exact acyclic_grant_iff hbeat rfl
  | beat agent now m => exact iff_of_true (shrinks (pruned _) (beat agent now)) (by simp)
  | viewed now m =>
    obtain ⟨claims, _, _, _, hsub, heq⟩ := h.state.snapshot_eq now
    refine iff_of_true (shrinks (fun _ _ ht => ht) (holderOf_sub ?_)) (by simp)
    rw [heq]
    exact hsub

/-- One step keeps the graph acyclic exactly when it is not a grant into a
chain of waits. -/
theorem next_deadlockFree_iff {h : WaitHub} (hfree : h.DeadlockFree) (op : WaitOp) :
    (h.next op).DeadlockFree ↔ ¬ h.ClosesCycle op := by
  cases op with
  | verb op => exact verb_deadlockFree_iff hfree op
  | waitRequest sender taskId =>
    refine iff_of_true ?_ not_false
    unfold next handleWaitRequest
    dsimp only
    split
    · exact hfree
    rename_i claim hheld
    split
    · exact hfree
    split
    · exact hfree
    rename_i hsafe
    exact acyclic_addWait hfree hheld (by simpa using hsafe)
  | disconnect agent =>
    refine iff_of_true (hfree.mono ?_) not_false
    exact waitEdge_mono (fun _ _ ht => waitsFor_erase ht) fun _ _ hb => hb

/-- The states of a run are free of deadlock exactly when none of its
steps is a grant into a chain of waits. -/
theorem run_deadlockFree_iff {h : WaitHub} (hfree : h.DeadlockFree) (ops : List WaitOp) :
    (∀ done, done <+: ops → (h.run done).DeadlockFree) ↔
      ∀ call ∈ Trace.trace next h ops, ¬ call.1.ClosesCycle call.2 := by
  induction ops generalizing h with
  | nil =>
    refine iff_of_true (fun done hdone => ?_) (by simp [Trace.trace])
    rw [List.prefix_nil.mp hdone]
    exact hfree
  | cons op rest ih =>
    rw [Trace.trace, List.forall_mem_cons]
    constructor
    · intro hall
      have hnext : (h.next op).DeadlockFree := hall [op] (by simp)
      refine ⟨(next_deadlockFree_iff hfree op).mp hnext, (ih hnext).mp fun done hdone => ?_⟩
      exact hall (op :: done) (by simpa using hdone)
    · rintro ⟨hop, hrest⟩ done hdone
      have hnext : (h.next op).DeadlockFree := (next_deadlockFree_iff hfree op).mpr hop
      cases done with
      | nil => exact hfree
      | cons op' done =>
        obtain ⟨rfl, htail⟩ := List.cons_prefix_cons.mp hdone
        exact (ih hnext).mpr hrest done htail

/-- A hub before any request. -/
def init (defaultTtl maxClaims maxOffers maxPaths : Json) : WaitHub where
  state := SynapseState.init defaultTtl maxClaims maxOffers maxPaths

theorem init_deadlockFree (defaultTtl maxClaims maxOffers maxPaths : Json) :
    (init defaultTtl maxClaims maxOffers maxPaths).DeadlockFree := by
  intro a hcycle
  obtain ⟨b, hedge, -⟩ := TransGen.head'_iff.mp hcycle
  obtain ⟨t, ht, -⟩ := (waitEdge_iff ..).mp hedge
  cases ht

end WaitHub

variable [Builtins]

/-- Deadlock freedom: in every state of a run from an empty hub the agent
graph has no cycle, exactly when no grant of the run gives a task to an
agent that already waits for one of its waiters. -/
theorem wait_graph_deadlock_free (defaultTtl maxClaims maxOffers maxPaths : Json)
    (ops : List WaitOp) :
    let hub := WaitHub.init defaultTtl maxClaims maxOffers maxPaths
    (∀ done, done <+: ops → (hub.run done).DeadlockFree) ↔
      ∀ call ∈ Trace.trace WaitHub.next hub ops, ¬ call.1.ClosesCycle call.2 :=
  WaitHub.run_deadlockFree_iff (WaitHub.init_deadlockFree _ _ _ _) ops

/-- Two checked waits and a handoff: A waits for B, who waits for C, and C
hands its task to A. -/
def handoffIntoWait : List WaitOp :=
  [.verb (.claim "A" "T1" 1 { paths := ["a"] }), .verb (.claim "B" "T2" 1 { paths := ["b"] }),
    .verb (.claim "C" "T3" 1 { paths := ["c"] }), .waitRequest "A" "T2", .waitRequest "B" "T3",
    .verb (.handoff "C" "T3" "A" 2 none none)]

omit [Builtins] in
theorem handoff_closes_cycle :
    letI : Builtins := Builtins.ascii
    ¬ ∀ ops, ((WaitHub.init .null .null .null .null).run ops).DeadlockFree := by
  let _ : Builtins := Builtins.ascii
  intro h
  exact WaitHub.not_deadlockFree_of_mutual "A" "B" (by decide +kernel) (by decide +kernel)
    (h handoffIntoWait)

end SynapseChannel
