import SynapseChannel.Lib.Trace
import SynapseChannel.Core.Ledger

/-!
# Core — PlanDag

The dependencies of the declared tasks form no cycle in any run of
declarations and updates, so a board with work left always has a task
that is ready.
-/

namespace SynapseChannel

open Py Search Relation

namespace Blackboard

/-! ## The dependency relation -/

/-- The declared task `a` depends on `b`. -/
def DependsOn (board : Blackboard) (a b : String) : Prop :=
  ∃ task, board.tasks.get? a = some task ∧ b ∈ task.dependsOn

/-- The dependency relation once `tid` depends on `deps` instead. -/
def Installed (board : Blackboard) (tid : String) (deps : List String) (a b : String) : Prop :=
  (a ≠ tid ∧ board.DependsOn a b) ∨ (a = tid ∧ b ∈ deps)

/-- No declared task reaches itself along its dependencies. -/
def Planned (board : Blackboard) : Prop := Acyclic board.DependsOn

theorem edge_iff (board : Blackboard) (a b : String) :
    Edge board.edges a b ↔ board.DependsOn a b := by
  rw [Edge, successors, edges, Dict.get?_filterMapValues, DependsOn]
  cases board.tasks.get? a with
  | none => simp
  | some task => simp

/-- The walk finds a proposed dependency that leads back to the task, and
only then. -/
theorem wouldCycle_iff (board : Blackboard) (tid : String) (deps : List String) :
    board.wouldCycle tid deps = true ↔ ∃ d ∈ deps, ReflTransGen board.DependsOn d tid := by
  have hrel : Edge board.edges = board.DependsOn := by
    funext a b
    exact propext (board.edge_iff a b)
  rw [wouldCycle, dfs_iff_any, hrel]
  simp only [List.mem_reverse]

/-- On a plan without cycles, the walk refuses exactly the dependencies
that would close one. -/
theorem wouldCycle_closes {board : Blackboard} (h : board.Planned) (tid : String)
    (deps : List String) :
    board.wouldCycle tid deps = true ↔ ¬ Acyclic (board.Installed tid deps) := by
  have hout : Acyclic (board.Installed tid deps) ↔
      ∀ d, d ∈ deps → ¬ ReflTransGen board.DependsOn d tid :=
    acyclic_out_of (fun a b => Iff.rfl) h
  rw [wouldCycle_iff, hout]
  simp only [not_forall, not_not, exists_prop]

/-! ## What one change does -/

/-- What a change of the plan leaves behind: the board as it was, or one
task filed with its dependencies replaced or kept. -/
inductive Changed (board : Blackboard) : Blackboard × Except PlanRefusal String → Prop
  | refused (reason : PlanRefusal) : Changed board (board, .error reason)
  | posted (tid : String) (task : LedgerTask) (message : String)
      (hfiled : task.taskId = tid) (hstrip : strip tid = tid)
      (hcycle : board.wouldCycle tid task.dependsOn = false) :
      Changed board ({ board with tasks := board.tasks.set tid task }, .ok message)
  | updated (tid : String) (old task : LedgerTask) (message : String)
      (hold : board.tasks.get? tid = some old) (hid : task.taskId = old.taskId)
      (hdeps : task.dependsOn = old.dependsOn) :
      Changed board ({ board with tasks := board.tasks.set tid task }, .ok message)

/-- Every task is filed under its own id, which is stripped. -/
def Filed (board : Blackboard) : Prop :=
  ∀ k task, board.tasks.get? k = some task → task.taskId = k ∧ strip k = k

theorem postTask_changed {board : Blackboard} (hfiled : board.Filed) (args : PostTask)
    (now : Float) : Changed board (board.postTask args now) := by
  unfold postTask
  dsimp only
  split
  · exact .refused _
  split
  · exact .refused _
  split
  · exact .refused _
  rename_i hcycle
  split
  · exact .refused _
  split
  · exact .posted _ (declared args _ now) _ rfl (strip_strip _)
        (Bool.eq_false_of_not_eq_true hcycle)
  · rename_i task htask
    split
    · exact .refused _
    · have hid := (hfiled _ _ htask).1
      exact .posted _ (redeclared task args _ now) _ hid (strip_strip _)
        (Bool.eq_false_of_not_eq_true hcycle)

theorem updateTask_changed (board : Blackboard) (taskId : String) (args : UpdateTask)
    (now : Float) : Changed board (board.updateTask taskId args now) := by
  unfold updateTask
  dsimp only
  split
  · exact .refused _
  rename_i task htask
  split
  · exact .refused _
  split
  · exact .refused _
  · exact .updated _ task (updated task args now) _ htask rfl rfl

theorem apply_changed {board : Blackboard} (hfiled : board.Filed) (op : PlanOp) :
    Changed board (op.apply board) := by
  cases op with
  | post args now => exact postTask_changed hfiled args now
  | update taskId args now => exact updateTask_changed board taskId args now

/-- A refused change leaves the board as it was. -/
theorem refused_unchanged {board : Blackboard} (hfiled : board.Filed) {op : PlanOp}
    {reason : PlanRefusal} (h : (op.apply board).2 = .error reason) :
    (op.apply board).1 = board := by
  have hchanged := apply_changed hfiled op
  generalize op.apply board = result at h hchanged
  cases hchanged with
  | refused reason => rfl
  | posted tid task message => cases h
  | updated tid old task message => cases h

/-- Refusals on dependencies come from the walk alone. -/
theorem postTask_cycle_iff {board : Blackboard} {args : PostTask} (now : Float)
    (hid : strip args.taskId ≠ "") (htitle : strip args.title ≠ "") :
    (board.postTask args now).2 = .error (.cycle (strip args.taskId)) ↔
      board.wouldCycle (strip args.taskId)
        (cleanDependsOn (strip args.taskId) args.dependsOn) = true := by
  unfold postTask
  rw [if_neg hid, if_neg htitle]
  dsimp only
  split
  · rename_i hcycle
    simp only [hcycle]
  · rename_i hcycle
    simp only [hcycle, Bool.false_eq_true, iff_false]
    split
    · simp
    split
    · simp
    · split <;> simp

/-! ## Runs -/

/-- What holds of the board between any two changes. -/
structure Sound (board : Blackboard) : Prop where
  filed : board.Filed
  planned : board.Planned

theorem dependsOn_set (board : Blackboard) (tid : String) (task : LedgerTask) (a b : String) :
    DependsOn { board with tasks := board.tasks.set tid task } a b ↔
      board.Installed tid task.dependsOn a b := by
  unfold DependsOn Installed
  by_cases ha : a = tid
  · subst ha
    simp [Dict.get?_set_self]
  · rw [Dict.get?_set_ne _ _ (Ne.symm ha)]
    simp [ha, DependsOn]

theorem Filed.set {board : Blackboard} (h : board.Filed) {tid : String} {task : LedgerTask}
    (hid : task.taskId = tid) (hstrip : strip tid = tid) :
    Filed { board with tasks := board.tasks.set tid task } := by
  intro k other hk
  by_cases hkt : k = tid
  · subst hkt
    rw [Dict.get?_set_self] at hk
    cases hk
    exact ⟨hid, hstrip⟩
  · rw [Dict.get?_set_ne _ _ (Ne.symm hkt)] at hk
    exact h k other hk

/-- One change keeps the board sound. -/
theorem Sound.next {board : Blackboard} (h : board.Sound) (op : PlanOp) :
    Sound (op.next board) := by
  have hchanged := apply_changed h.filed op
  unfold PlanOp.next
  generalize op.apply board = result at hchanged
  cases hchanged with
  | refused reason => exact h
  | posted tid task message hid hstrip hcycle =>
    refine ⟨h.filed.set hid hstrip, ?_⟩
    have hopen : Acyclic (board.Installed tid task.dependsOn) := by
      by_contra hclosed
      rw [(wouldCycle_closes h.planned tid task.dependsOn).mpr hclosed] at hcycle
      cases hcycle
    exact hopen.mono fun a b => (dependsOn_set board tid task a b).mp
  | updated tid old task message hold hid hdeps =>
    obtain ⟨hfiled, hstrip⟩ := h.filed tid old hold
    refine ⟨h.filed.set (hid.trans hfiled) hstrip, h.planned.mono fun a b hab => ?_⟩
    -- the edges of the task are the ones it had
    rcases (dependsOn_set board tid task a b).mp hab with ⟨_, hdep⟩ | ⟨rfl, hdep⟩
    · exact hdep
    · exact ⟨old, hold, hdeps ▸ hdep⟩

theorem sound_init (maxProgress maxPerAuthor maxPerTask : Int) :
    Sound (init maxProgress maxPerAuthor maxPerTask) := by
  constructor
  · intro k task h
    cases h
  · intro a hcycle
    obtain ⟨_, ⟨task, htask, _⟩, _⟩ := TransGen.head'_iff.mp hcycle
    cases htask

/-! ## Ready tasks -/

/-- Nothing blocks a task whose dependencies are all finished. -/
theorem blockingDependencies_nil {board : Blackboard} {tid : String} {task : LedgerTask}
    (hstrip : strip tid = tid) (htask : board.tasks.get? tid = some task)
    (hdone : ∀ d ∈ task.dependsOn, ∃ other, board.tasks.get? d = some other ∧
      other.status ∈ terminalLedgerStatuses) : board.blockingDependencies tid = [] := by
  unfold blockingDependencies
  rw [hstrip, htask]
  dsimp only
  rw [List.filter_eq_nil_iff]
  intro d hd
  obtain ⟨other, hother, hstatus⟩ := hdone d hd
  rw [hother]
  simpa using hstatus

/-- A plan of finished and open tasks, some of them open, whose open tasks
depend on declared tasks only, has a task that is ready. -/
theorem Sound.ready {board : Blackboard} (h : board.Sound)
    (hdeclared : ∀ k task, board.tasks.get? k = some task → task.status = "open" →
      ∀ d ∈ task.dependsOn, ∃ other, board.tasks.get? d = some other)
    (hstatus : ∀ k task, board.tasks.get? k = some task →
      task.status = "open" ∨ task.status ∈ terminalLedgerStatuses)
    (hopen : ∃ k task, board.tasks.get? k = some task ∧ task.status = "open") :
    board.readyTasks ≠ [] := by
  let isOpen : String → Prop := fun k =>
    ∃ task, board.tasks.get? k = some task ∧ task.status = "open"
  have hfinite : ∀ k, isOpen k → k ∈ board.tasks.keys := by
    intro k hk
    obtain ⟨task, htask, _⟩ := hk
    rw [Dict.mem_keys_iff, htask]
    exact Option.some_ne_none task
  -- the last open task along the dependencies waits for finished tasks only
  obtain ⟨last, ⟨task, htask, hstat⟩, hlast⟩ := h.planned.exists_last hfinite hopen
  obtain ⟨hid, hstrip⟩ := h.filed last task htask
  have hblocked : board.blockingDependencies task.taskId = [] := by
    rw [hid]
    apply blockingDependencies_nil hstrip htask
    intro d hd
    obtain ⟨other, hother⟩ := hdeclared last task htask hstat d hd
    rcases hstatus d other hother with hstill | hdone
    · exact absurd ⟨other, hother, hstill⟩ (hlast d ⟨task, htask, hd⟩)
    · exact ⟨other, hother, hdone⟩
  have hmem : task ∈ board.readyTasks := by
    unfold readyTasks
    rw [mem_sortedBy, List.mem_filter]
    exact ⟨(board.tasks.mem_values_iff task).mpr ⟨last, htask⟩, by simp [hstat, hblocked]⟩
  exact List.ne_nil_of_mem hmem

end Blackboard

/-- After any sequence of declarations and updates the plan is a DAG; a
declaration with an id and a title is refused on its dependencies exactly
when they would close a cycle; a refused change leaves the board as it
was; and a board of open and finished tasks whose open ones depend on
declared tasks has a ready task unless all are finished. -/
theorem plan_dag (maxProgress maxPerAuthor maxPerTask : Int) (ops : List PlanOp) :
    let board := Trace.run PlanOp.next (Blackboard.init maxProgress maxPerAuthor maxPerTask) ops
    Acyclic board.DependsOn ∧
    (∀ (args : PostTask) (now : Float), strip args.taskId ≠ "" → strip args.title ≠ "" →
      ((board.postTask args now).2 = .error (.cycle (strip args.taskId)) ↔
        ¬ Acyclic (board.Installed (strip args.taskId)
          (Blackboard.cleanDependsOn (strip args.taskId) args.dependsOn)))) ∧
    (∀ (op : PlanOp) (reason : PlanRefusal), (op.apply board).2 = .error reason →
      (op.apply board).1 = board) ∧
    ((∀ k task, board.tasks.get? k = some task → task.status = "open" →
        ∀ d ∈ task.dependsOn, ∃ other, board.tasks.get? d = some other) →
      (∀ k task, board.tasks.get? k = some task →
        task.status = "open" ∨ task.status ∈ terminalLedgerStatuses) →
      (∃ k task, board.tasks.get? k = some task ∧ task.status = "open") →
      board.readyTasks ≠ []) := by
  intro board
  have hsound : board.Sound :=
    Trace.invariant PlanOp.next (fun s i h => h.next i)
      (Blackboard.sound_init maxProgress maxPerAuthor maxPerTask) ops
  refine ⟨hsound.planned, ?_, ?_, hsound.ready⟩
  · intro args now hid htitle
    rw [Blackboard.postTask_cycle_iff now hid htitle, Blackboard.wouldCycle_closes hsound.planned]
  · intro op reason hrefused
    exact Blackboard.refused_unchanged hsound.filed hrefused

/-- A dependency may be declared later, but not so as to close a cycle. -/
example :
    let board := PlanOp.next (Blackboard.init 10 10 10)
      (.post { taskId := "b", title := "B", author := "x", dependsOn := ["a"] } 0)
    (board.postTask { taskId := "a", title := "A", author := "x", dependsOn := ["b"] } 0).2
      = .error (.cycle "a") := by
  decide +kernel

end SynapseChannel
