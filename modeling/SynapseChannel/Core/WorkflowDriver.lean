import SynapseChannel.Core.Ledger
import SynapseChannel.Core.Workflow

/-!
# Core — WorkflowDriver

The planning half of the workflow driver: compiled tasks sorted into phases by
the board's statuses and the evidence at hand. A driver that retires skipped
branches and finishes ready tasks never stalls.
-/

namespace SynapseChannel

open Py

namespace Workflows

def inProgressStatus : String := "in_progress"

/-- Assumed for a task the board has not reported. -/
def defaultStatus : String := "open"

/-- Board statuses by task id. -/
abbrev StatusMap := Dict String String

/-- Evidence values by task id, then predicate. -/
abbrev EvidenceSnapshot := Dict String (Dict String String)

def statusOf (status : StatusMap) (taskId : String) : String :=
  (status.get? taskId).getD defaultStatus

def isTerminal (status : String) : Bool := status ∈ terminalLedgerStatuses

inductive EdgeOutcome
  | satisfied
  /-- The dependency has ended in another way than required. -/
  | unreachable
  | pending
deriving DecidableEq

/-- Classify one dependency edge. -/
def edgeSatisfied (depId required : String) (status : StatusMap) : EdgeOutcome :=
  let depStatus := statusOf status depId
  let depTerminal := isTerminal depStatus
  if required = anyTerminal then if depTerminal then .satisfied else .pending
  else if depStatus = required then .satisfied
  else if depTerminal then .unreachable
  else .pending

/-- The evidence proves every predicate the task requires. -/
def evidenceSatisfied (task : CompiledTask) (evidence : EvidenceSnapshot) : Bool :=
  let actual := (evidence.get? task.taskId).getD Dict.empty
  task.evidenceRequirements.all fun (predicate, expected) =>
    (actual.get? predicate).getD "" = expected

inductive Phase
  | done
  | inFlight
  | ready
  | blocked
  | evidenceBlocked
  | skipped
deriving DecidableEq

/-- The phase of one task. -/
def phaseOf (status : StatusMap) (evidence : EvidenceSnapshot) (task : CompiledTask) : Phase :=
  let state := statusOf status task.taskId
  if isTerminal state then .done
  else if state = inProgressStatus then .inFlight
  else
    let outcomes := task.dependsOn.map fun depId =>
      edgeSatisfied depId (task.requiredStatus depId) status
    if .unreachable ∈ outcomes then .skipped
    else if outcomes.all fun outcome => outcome = .satisfied then
      if evidenceSatisfied task evidence then .ready else .evidenceBlocked
    else .blocked

/-- The tasks by phase. -/
structure WorkflowState where
  done : List String
  inFlight : List String
  ready : List String
  blocked : List String
  evidenceBlocked : List String
  skipped : List String
deriving DecidableEq

/-- Nothing is left to run, route, or retire. -/
def WorkflowState.complete (state : WorkflowState) : Bool :=
  !(!state.inFlight.isEmpty || !state.ready.isEmpty || !state.blocked.isEmpty ||
    !state.evidenceBlocked.isEmpty || !state.skipped.isEmpty)

/-- The ids of the tasks in a phase. -/
def inPhase (tasks : List CompiledTask) (status : StatusMap) (evidence : EvidenceSnapshot)
    (phase : Phase) : List String :=
  (tasks.filter fun task => phaseOf status evidence task = phase).map CompiledTask.taskId

/-- Sort compiled tasks into phases. -/
def deriveState (tasks : List CompiledTask) (status : StatusMap) (evidence : EvidenceSnapshot) :
    WorkflowState where
  done := inPhase tasks status evidence .done
  inFlight := inPhase tasks status evidence .inFlight
  ready := inPhase tasks status evidence .ready
  blocked := inPhase tasks status evidence .blocked
  evidenceBlocked := inPhase tasks status evidence .evidenceBlocked
  skipped := inPhase tasks status evidence .skipped

/-! ## Phases -/

theorem mem_inPhase {tasks : List CompiledTask} {status : StatusMap} {evidence : EvidenceSnapshot}
    {phase : Phase} {id : String} :
    id ∈ inPhase tasks status evidence phase ↔
      ∃ task ∈ tasks, phaseOf status evidence task = phase ∧ task.taskId = id := by
  unfold inPhase
  simp only [List.mem_map, List.mem_filter, decide_eq_true_eq]
  constructor
  · rintro ⟨task, ⟨htask, hphase⟩, hid⟩
    exact ⟨task, htask, hphase, hid⟩
  · rintro ⟨task, htask, hphase, hid⟩
    exact ⟨task, ⟨htask, hphase⟩, hid⟩

theorem inPhase_eq_nil {tasks : List CompiledTask} {status : StatusMap}
    {evidence : EvidenceSnapshot} {phase : Phase} :
    inPhase tasks status evidence phase = [] ↔
      ∀ task ∈ tasks, phaseOf status evidence task ≠ phase := by
  unfold inPhase
  rw [List.map_eq_nil_iff, List.filter_eq_nil_iff]
  simp

theorem phaseOf_done {status : StatusMap} {evidence : EvidenceSnapshot} {task : CompiledTask} :
    phaseOf status evidence task = .done ↔ isTerminal (statusOf status task.taskId) = true := by
  unfold phaseOf
  dsimp only
  split
  · rename_i h
    exact iff_of_true rfl h
  · rename_i h
    refine iff_of_false ?_ h
    split
    · simp
    · split
      · simp
      · split
        · split <;> simp
        · simp

theorem complete_iff {tasks : List CompiledTask} {status : StatusMap}
    {evidence : EvidenceSnapshot} :
    (deriveState tasks status evidence).complete = true ↔
      ∀ task ∈ tasks, isTerminal (statusOf status task.taskId) = true := by
  unfold WorkflowState.complete deriveState
  dsimp only
  simp only [Bool.not_or, Bool.not_not, Bool.and_eq_true, List.isEmpty_iff, inPhase_eq_nil]
  constructor
  · rintro ⟨⟨⟨⟨hflight, hready⟩, hblocked⟩, hevidence⟩, hskipped⟩ task htask
    rw [← @phaseOf_done _ evidence]
    cases hphase : phaseOf status evidence task with
    | done => rfl
    | inFlight => exact absurd hphase (hflight task htask)
    | ready => exact absurd hphase (hready task htask)
    | blocked => exact absurd hphase (hblocked task htask)
    | evidenceBlocked => exact absurd hphase (hevidence task htask)
    | skipped => exact absurd hphase (hskipped task htask)
  · intro hall
    have hdone : ∀ task ∈ tasks, phaseOf status evidence task = .done :=
      fun task htask => phaseOf_done.mpr (hall task htask)
    refine ⟨⟨⟨⟨?_, ?_⟩, ?_⟩, ?_⟩, ?_⟩ <;>
      · intro task htask
        rw [hdone task htask]
        simp

theorem phaseOf_inFlight {status : StatusMap} {evidence : EvidenceSnapshot} {task : CompiledTask} :
    phaseOf status evidence task = .inFlight ↔
      statusOf status task.taskId = inProgressStatus := by
  unfold phaseOf
  dsimp only
  split
  · rename_i h
    refine iff_of_false (by simp) fun hstarted => ?_
    rw [hstarted] at h
    exact absurd h (by decide)
  · split
    · rename_i h
      exact iff_of_true rfl h
    · rename_i h
      refine iff_of_false ?_ h
      split
      · simp
      · split
        · split <;> simp
        · simp

theorem phaseOf_ne_evidenceBlocked {status : StatusMap} {evidence : EvidenceSnapshot}
    {task : CompiledTask} (h : evidenceSatisfied task evidence = true) :
    phaseOf status evidence task ≠ .evidenceBlocked := by
  unfold phaseOf
  dsimp only
  rw [h]
  split
  · simp
  · split
    · simp
    · split
      · simp
      · split <;> simp

/-- An edge to an ended dependency is decided. -/
theorem edgeSatisfied_of_terminal {depId required : String} {status : StatusMap}
    (h : isTerminal (statusOf status depId) = true) :
    edgeSatisfied depId required status ≠ .pending := by
  unfold edgeSatisfied
  dsimp only
  rw [h]
  split
  · simp
  · split <;> simp

/-- A task whose dependencies have all ended is not blocked. -/
theorem phaseOf_ne_blocked {status : StatusMap} {evidence : EvidenceSnapshot} {task : CompiledTask}
    (h : ∀ dep ∈ task.dependsOn, isTerminal (statusOf status dep) = true) :
    phaseOf status evidence task ≠ .blocked := by
  unfold phaseOf
  dsimp only
  split
  · simp
  · split
    · simp
    · split
      · simp
      · rename_i hreachable
        rw [if_pos]
        · split <;> simp
        · rw [List.all_map, List.all_eq_true]
          intro dep hdep
          have hdecided : edgeSatisfied dep (task.requiredStatus dep) status ≠ .pending :=
            edgeSatisfied_of_terminal (h dep hdep)
          have hmet : edgeSatisfied dep (task.requiredStatus dep) status ≠ .unreachable := by
            intro hunreachable
            exact hreachable (List.mem_map.mpr ⟨dep, hdep, hunreachable⟩)
          show decide (edgeSatisfied dep (task.requiredStatus dep) status = .satisfied) = true
          rw [decide_eq_true_eq]
          cases houtcome : edgeSatisfied dep (task.requiredStatus dep) status with
          | satisfied => rfl
          | unreachable => exact absurd houtcome hmet
          | pending => exact absurd houtcome hdecided

/-! ## Progress -/

/-- Of the tasks that have not ended, the first is not blocked. -/
theorem exists_unblocked {tasks : List CompiledTask} (hposted : Posted tasks) {status : StatusMap}
    (evidence : EvidenceSnapshot)
    (h : ∃ task ∈ tasks, isTerminal (statusOf status task.taskId) = false) :
    ∃ task ∈ tasks, phaseOf status evidence task ≠ .done ∧
      phaseOf status evidence task ≠ .blocked := by
  have hfind : ∃ task, tasks.find? (fun task => !isTerminal (statusOf status task.taskId)) =
      some task := by
    obtain ⟨task, htask, hopen⟩ := h
    refine Option.isSome_iff_exists.mp (List.find?_isSome.mpr ⟨task, htask, ?_⟩)
    rw [hopen]
    rfl
  obtain ⟨task, hfind⟩ := hfind
  obtain ⟨hopen, pre, post, hsplit, hbefore⟩ := List.find?_eq_some_iff_append.mp hfind
  refine ⟨task, by rw [hsplit]; simp, ?_, phaseOf_ne_blocked fun dep hdep => ?_⟩
  · intro hdone
    rw [phaseOf_done.mp hdone] at hopen
    cases hopen
  · obtain ⟨earlier, hearlier, rfl⟩ := hposted pre task post hsplit dep hdep
    have hended := hbefore earlier hearlier
    rwa [Bool.not_not] at hended

/-- Without a task in progress, a workflow has ended or has a task to run, to
prove or to retire. -/
theorem exists_actionable {tasks : List CompiledTask} (hposted : Posted tasks)
    {status : StatusMap} {evidence : EvidenceSnapshot}
    (hflight : (deriveState tasks status evidence).inFlight = []) :
    (∀ task ∈ tasks, isTerminal (statusOf status task.taskId) = true) ∨
      (deriveState tasks status evidence).ready ≠ [] ∨
      (deriveState tasks status evidence).evidenceBlocked ≠ [] ∨
      (deriveState tasks status evidence).skipped ≠ [] := by
  by_cases hall : ∀ task ∈ tasks, isTerminal (statusOf status task.taskId) = true
  · exact .inl hall
  · obtain ⟨task, htask, hopen⟩ : ∃ task ∈ tasks,
        isTerminal (statusOf status task.taskId) = false := by
      simpa using hall
    obtain ⟨first, hfirst, hdone, hblocked⟩ := exists_unblocked hposted evidence
      ⟨task, htask, hopen⟩
    have hnone := inPhase_eq_nil.mp hflight first hfirst
    have hsome : ∀ {phase : Phase}, phaseOf status evidence first = phase →
        inPhase tasks status evidence phase ≠ [] :=
      fun hphase hnil => inPhase_eq_nil.mp hnil first hfirst hphase
    refine .inr ?_
    cases hphase : phaseOf status evidence first with
    | done => exact absurd hphase hdone
    | inFlight => exact absurd hphase hnone
    | blocked => exact absurd hphase hblocked
    | ready => exact .inl (hsome hphase)
    | evidenceBlocked => exact .inr (.inl (hsome hphase))
    | skipped => exact .inr (.inr (hsome hphase))

/-! ## Rounds -/

/-- All evidence that the tasks require is at hand. -/
def Evidenced (tasks : List CompiledTask) (evidence : EvidenceSnapshot) : Prop :=
  ∀ task ∈ tasks, evidenceSatisfied task evidence = true

/-- One round of a driver: every skipped task is cancelled, ready tasks end in
any way, at least one if there is one, and nothing else changes. -/
structure Round (tasks : List CompiledTask) (evidence : EvidenceSnapshot)
    (before after : StatusMap) (finished : List String) : Prop where
  cancelled : ∀ id ∈ (deriveState tasks before evidence).skipped,
    statusOf after id = "cancelled"
  ready : finished ⊆ (deriveState tasks before evidence).ready
  some : (deriveState tasks before evidence).ready ≠ [] → finished ≠ []
  ended : ∀ id ∈ finished, isTerminal (statusOf after id) = true
  others : ∀ id, id ∉ (deriveState tasks before evidence).skipped → id ∉ finished →
    statusOf after id = statusOf before id

/-- The tasks that have not ended. -/
def openTasks (tasks : List CompiledTask) (status : StatusMap) : Nat :=
  tasks.countP fun task => !isTerminal (statusOf status task.taskId)

theorem not_terminal_of_phase {tasks : List CompiledTask} {status : StatusMap}
    {evidence : EvidenceSnapshot} {phase : Phase} {id : String} (hphase : phase ≠ .done)
    (h : id ∈ inPhase tasks status evidence phase) : isTerminal (statusOf status id) = false := by
  obtain ⟨task, -, hfound, rfl⟩ := mem_inPhase.mp h
  rw [Bool.eq_false_iff]
  intro hterminal
  exact hphase (hfound.symm.trans (phaseOf_done.mpr hterminal))

/-- What has ended stays ended. -/
theorem Round.keeps {tasks : List CompiledTask} {evidence : EvidenceSnapshot}
    {before after : StatusMap} {finished : List String}
    (h : Round tasks evidence before after finished) {id : String}
    (hended : isTerminal (statusOf before id) = true) : isTerminal (statusOf after id) = true := by
  have hskipped : id ∉ (deriveState tasks before evidence).skipped := by
    intro hmem
    rw [not_terminal_of_phase (by simp) hmem] at hended
    cases hended
  have hfinished : id ∉ finished := by
    intro hmem
    rw [not_terminal_of_phase (by simp) (h.ready hmem)] at hended
    cases hended
  rw [h.others id hskipped hfinished]
  exact hended

theorem Round.flight {tasks : List CompiledTask} {evidence next : EvidenceSnapshot}
    {before after : StatusMap} {finished : List String}
    (h : Round tasks evidence before after finished)
    (hflight : (deriveState tasks before evidence).inFlight = []) :
    (deriveState tasks after next).inFlight = [] := by
  refine inPhase_eq_nil.mpr fun task htask hphase => ?_
  have hstarted : statusOf after task.taskId = inProgressStatus := phaseOf_inFlight.mp hphase
  have hrunning : isTerminal (statusOf after task.taskId) = false := by
    rw [hstarted]
    decide
  have hskipped : task.taskId ∉ (deriveState tasks before evidence).skipped := by
    intro hmem
    rw [h.cancelled _ hmem] at hrunning
    exact absurd hrunning (by decide)
  have hfinished : task.taskId ∉ finished := by
    intro hmem
    rw [h.ended _ hmem] at hrunning
    cases hrunning
  rw [h.others _ hskipped hfinished] at hstarted
  exact inPhase_eq_nil.mp hflight task htask (phaseOf_inFlight.mpr hstarted)

theorem countP_lt {α : Type} {p q : α → Bool} {l : List α} (himp : ∀ a ∈ l, q a = true → p a = true)
    (h : ∃ a ∈ l, p a = true ∧ q a = false) : l.countP q < l.countP p := by
  induction l with
  | nil =>
      obtain ⟨a, ha, -⟩ := h
      cases ha
  | cons head rest ih =>
      obtain ⟨hhead, hrest⟩ := List.forall_mem_cons.mp himp
      have hle : rest.countP q ≤ rest.countP p := List.countP_mono_left hrest
      obtain ⟨a, ha, hp, hq⟩ := h
      rw [List.countP_cons, List.countP_cons]
      rcases List.mem_cons.mp ha with rfl | ha
      · rw [hp, hq, if_pos rfl, if_neg Bool.false_ne_true]
        omega
      · have hlt := ih hrest ⟨a, ha, hp, hq⟩
        split
        · rename_i hqhead
          rw [if_pos (hhead hqhead)]
          omega
        · omega

/-- A round ends at least one task of a workflow that has not ended. -/
theorem Round.progress {tasks : List CompiledTask} (hposted : Posted tasks)
    {evidence : EvidenceSnapshot} {before after : StatusMap} {finished : List String}
    (h : Round tasks evidence before after finished) (hevidenced : Evidenced tasks evidence)
    (hflight : (deriveState tasks before evidence).inFlight = [])
    (hopen : (deriveState tasks before evidence).complete = false) :
    openTasks tasks after < openTasks tasks before := by
  have hkeeps : ∀ task ∈ tasks, (!isTerminal (statusOf after task.taskId)) = true →
      (!isTerminal (statusOf before task.taskId)) = true := by
    intro task _ hrunning
    cases hended : isTerminal (statusOf before task.taskId) with
    | false => rfl
    | true =>
        rw [h.keeps hended] at hrunning
        cases hrunning
  -- a task that was open and has ended
  have hended : ∀ {phase : Phase} {id : String}, phase ≠ .done →
      id ∈ inPhase tasks before evidence phase → isTerminal (statusOf after id) = true →
      openTasks tasks after < openTasks tasks before := by
    intro phase id hphase hmem hterminal
    obtain ⟨task, htask, -, rfl⟩ := mem_inPhase.mp hmem
    refine countP_lt hkeeps ⟨task, htask, ?_, ?_⟩
    · rw [not_terminal_of_phase hphase hmem]
      rfl
    · rw [hterminal]
      rfl
  rcases exists_actionable hposted hflight with hall | hready | hblocked | hskipped
  · rw [complete_iff.mpr hall] at hopen
    cases hopen
  · obtain ⟨id, hid⟩ := List.exists_mem_of_ne_nil _ (h.some hready)
    exact hended (by simp) (h.ready hid) (h.ended id hid)
  · refine absurd (inPhase_eq_nil.mpr fun task htask => ?_) hblocked
    exact phaseOf_ne_evidenceBlocked (hevidenced task htask)
  · obtain ⟨id, hid⟩ := List.exists_mem_of_ne_nil _ hskipped
    refine hended (by simp) hid ?_
    rw [h.cancelled id hid]
    decide

/-- Rounds go on as long as a workflow has not ended. -/
def Rounds (tasks : List CompiledTask) (statuses : Nat → StatusMap)
    (evidence : Nat → EvidenceSnapshot) : Prop :=
  ∀ n, (deriveState tasks (statuses n) (evidence n)).complete = false →
    ∃ finished, Round tasks (evidence n) (statuses n) (statuses (n + 1)) finished

/-- Every round ends a task, so that after a number of rounds at most the rest is
open. -/
theorem Rounds.remaining {tasks : List CompiledTask} (hposted : Posted tasks)
    {statuses : Nat → StatusMap} {evidence : Nat → EvidenceSnapshot}
    (h : Rounds tasks statuses evidence)
    (hevidenced : ∀ n, Evidenced tasks (evidence n))
    (hflight : (deriveState tasks (statuses 0) (evidence 0)).inFlight = []) (n : Nat) :
    (∃ m ≤ n, (deriveState tasks (statuses m) (evidence m)).complete = true) ∨
      ((deriveState tasks (statuses n) (evidence n)).inFlight = [] ∧
        openTasks tasks (statuses n) + n ≤ tasks.length) := by
  induction n with
  | zero => exact .inr ⟨hflight, List.countP_le_length⟩
  | succ n ih =>
      rcases ih with ⟨m, hm, hcomplete⟩ | ⟨hnone, hcount⟩
      · exact .inl ⟨m, Nat.le_succ_of_le hm, hcomplete⟩
      · cases hcomplete : (deriveState tasks (statuses n) (evidence n)).complete with
        | true => exact .inl ⟨n, Nat.le_succ n, hcomplete⟩
        | false =>
            obtain ⟨finished, hround⟩ := h n hcomplete
            have hless := hround.progress hposted (hevidenced n) hnone hcomplete
            exact .inr ⟨hround.flight hnone, by omega⟩

theorem complete_of_openTasks {tasks : List CompiledTask} {status : StatusMap}
    (evidence : EvidenceSnapshot) (h : openTasks tasks status = 0) :
    (deriveState tasks status evidence).complete = true := by
  refine complete_iff.mpr fun task htask => ?_
  have hnone := List.countP_eq_zero.mp h task htask
  simpa using hnone

/-- The workflow driver never stalls: without a task in progress, a compiled
workflow has ended or some task is ready, waits for evidence or is skipped; and
rounds that retire every skipped task and end some ready one complete it in at
most as many rounds as it has tasks. -/
theorem driver_never_stalls {workflow : Workflow} {tasks : List CompiledTask}
    (h : compileToTasks workflow = .ok tasks) :
    (∀ status evidence, (deriveState tasks status evidence).inFlight = [] →
      (∀ task ∈ tasks, isTerminal (statusOf status task.taskId) = true) ∨
        (deriveState tasks status evidence).ready ≠ [] ∨
        (deriveState tasks status evidence).evidenceBlocked ≠ [] ∨
        (deriveState tasks status evidence).skipped ≠ []) ∧
    (∀ statuses evidence, (deriveState tasks (statuses 0) (evidence 0)).inFlight = [] →
      (∀ n, Evidenced tasks (evidence n)) → Rounds tasks statuses evidence →
      ∃ n ≤ tasks.length, (deriveState tasks (statuses n) (evidence n)).complete = true) := by
  have hposted := posted_compile h
  refine ⟨fun status evidence hflight => exists_actionable hposted hflight, ?_⟩
  intro statuses evidence hflight hevidenced hrounds
  rcases hrounds.remaining hposted hevidenced hflight tasks.length with hdone | ⟨-, hcount⟩
  · exact hdone
  · exact ⟨tasks.length, Nat.le_refl _, complete_of_openTasks _ (by omega)⟩

/-- Of two branches on the outcome of `a` one is retired: three tasks, done in at
most three rounds. -/
theorem driver_never_stalls_branch :
    let workflow : Workflow := ⟨"w", [⟨"b", "B", "", "", [⟨"a", "done"⟩], [], []⟩,
      ⟨"c", "C", "", "", [⟨"a", "cancelled"⟩], [], []⟩, ⟨"a", "A", "", "", [], [], []⟩]⟩
    ∃ tasks, compileToTasks workflow = .ok tasks ∧
      tasks.map CompiledTask.taskId = ["w/a", "w/b", "w/c"] ∧
      ∀ statuses evidence, (deriveState tasks (statuses 0) (evidence 0)).inFlight = [] →
        (∀ n, Evidenced tasks (evidence n)) → Rounds tasks statuses evidence →
        ∃ n ≤ 3, (deriveState tasks (statuses n) (evidence n)).complete = true := by
  intro workflow
  have hids : (compileToTasks workflow).toOption.map (List.map CompiledTask.taskId) =
      some ["w/a", "w/b", "w/c"] := by decide +kernel
  obtain ⟨tasks, htasks, hmap⟩ := Option.map_eq_some_iff.mp hids
  have hcompiled : compileToTasks workflow = .ok tasks := by
    cases hresult : compileToTasks workflow with
    | error fault =>
        rw [hresult] at htasks
        cases htasks
    | ok found =>
        rw [hresult] at htasks
        cases htasks
        rfl
  have hlength : tasks.length = 3 := by
    have := congrArg List.length hmap
    rwa [List.length_map] at this
  refine ⟨tasks, hcompiled, hmap, fun statuses evidence hflight hevidenced hrounds => ?_⟩
  rw [← hlength]
  exact (driver_never_stalls hcompiled).2 statuses evidence hflight hevidenced hrounds

end Workflows

end SynapseChannel
