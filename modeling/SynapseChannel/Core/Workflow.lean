import Mathlib.Data.List.Perm.Subperm
import SynapseChannel.Lib.Outcome

/-!
# Core — Workflow

Declarative workflows: validated steps, each compiled to one task or, where it
fans out, to one per item, in an order in which a task comes after the tasks it
depends on.
-/

namespace SynapseChannel

namespace Workflows

/-- A dependency edge, conditioned on an outcome unless `on` is empty. -/
structure StepDependency where
  step : String
  on : String
deriving DecidableEq

def anyTerminal : String := ""

structure WorkflowStep where
  stepId : String
  title : String
  taskClass : String
  description : String
  dependsOn : List StepDependency
  forEach : List String
  requires : List (String × String)
deriving DecidableEq

structure Workflow where
  name : String
  steps : List WorkflowStep
deriving DecidableEq

/-- A blackboard task declaration compiled from a workflow step. -/
structure CompiledTask where
  taskId : String
  title : String
  description : String
  dependsOn : List String
  taskClass : String
  conditions : List (String × String)
  evidenceRequirements : List (String × String)
deriving DecidableEq

inductive WorkflowError
  | duplicateStep (step : String)
  | selfDependency (step : String)
  | unknownStep (step dependency : String)
  | tooWide (step : String) (width : Nat)
  | duplicateTask (concreteId : String)
  | cycle (step : String)
  /-- The interpreter's recursion limit. -/
  | recursion
deriving DecidableEq

def fanoutMaxWidth : Nat := 64

/-- The concrete step ids a step expands to, with their items. -/
def expandStep (step : WorkflowStep) : List (String × String) :=
  if step.forEach = [] then [(step.stepId, "")]
  else step.forEach.map fun item => (step.stepId ++ "#" ++ item, item)

/-- The terminal status a dependency must reach; empty when any will do. -/
def CompiledTask.requiredStatus (task : CompiledTask) (depId : String) : String :=
  match task.conditions.find? fun condition => condition.1 = depId with
  | some condition => condition.2
  | none => anyTerminal

/-! ## Validation -/

/-- No step id twice. -/
def checkIds : List String → List WorkflowStep → Except WorkflowError (List String)
  | ids, [] => .ok ids
  | ids, step :: rest =>
    if step.stepId ∈ ids then .error (.duplicateStep step.stepId)
    else checkIds (ids ++ [step.stepId]) rest

/-- Every edge leads to another step. -/
def checkEdges (ids : List String) (step : WorkflowStep) : Except WorkflowError Unit :=
  step.dependsOn.forM fun dep =>
    if dep.step = step.stepId then .error (.selfDependency step.stepId)
    else if dep.step ∉ ids then .error (.unknownStep step.stepId dep.step)
    else .ok ()

/-- Bounded fan-out, and no concrete id twice. -/
def checkFanOut (concrete : List String) (step : WorkflowStep) :
    Except WorkflowError (List String) :=
  if step.forEach.length > fanoutMaxWidth then .error (.tooWide step.stepId step.forEach.length)
  else
    (expandStep step).foldlM
      (fun concrete entry =>
        if entry.1 ∈ concrete then .error (.duplicateTask entry.1) else .ok (concrete ++ [entry.1]))
      concrete

/-- The steps an id depends on. -/
def dependencies (steps : List WorkflowStep) (stepId : String) : List String :=
  match steps.find? fun step => step.stepId = stepId with
  | some step => step.dependsOn.map StepDependency.step
  | none => []

/-- Depth-first visit of a step below the steps on the current path; returns the
explored steps in the order they were finished. -/
def visit (deps : String → List String) :
    Nat → List String → String → List String → Except WorkflowError (List String)
  | 0, _, _, _ => .error .recursion
  | fuel + 1, path, node, explored =>
    ((deps node).foldlM
      (fun explored dep =>
        if dep ∈ node :: path then .error (.cycle node)
        else if dep ∈ explored then .ok explored
        else visit deps fuel (node :: path) dep explored)
      explored).map fun explored => explored ++ [node]

/-- Refuse a dependency cycle; a visit goes no deeper than there are steps. -/
def rejectCycle (steps : List WorkflowStep) : Except WorkflowError (List String) :=
  (steps.map WorkflowStep.stepId).foldlM
    (fun explored stepId =>
      if stepId ∈ explored then .ok explored
      else visit (dependencies steps) steps.length [] stepId explored)
    []

def validateWorkflow (workflow : Workflow) : Except WorkflowError Unit := do
  let ids ← checkIds [] workflow.steps
  workflow.steps.forM (checkEdges ids)
  let _ ← workflow.steps.foldlM checkFanOut []
  let _ ← rejectCycle workflow.steps

/-! ## Compilation -/

/-- Place a step after the steps it depends on. -/
def place (deps : String → List String) :
    Nat → List String → String → Except WorkflowError (List String)
  | 0, _, _ => .error .recursion
  | fuel + 1, ordered, stepId =>
    if stepId ∈ ordered then .ok ordered
    else ((deps stepId).foldlM (place deps fuel) ordered).map fun ordered => ordered ++ [stepId]

def placeAll (steps : List WorkflowStep) : Except WorkflowError (List String) :=
  (steps.map WorkflowStep.stepId).foldlM (place (dependencies steps) (steps.length + 1)) []

def taskId (name concreteStepId : String) : String := name ++ "/" ++ concreteStepId

/-- The step of an id. -/
def stepOf (steps : List WorkflowStep) (stepId : String) : Option WorkflowStep :=
  steps.find? fun step => step.stepId = stepId

/-- The concrete ids of a step. -/
def expansion (steps : List WorkflowStep) (stepId : String) : List (String × String) :=
  match stepOf steps stepId with
  | some step => expandStep step
  | none => []

/-- Every edge leads to all tasks of the step it names. -/
def dependencyIds (workflow : Workflow) (step : WorkflowStep) : List (String × String) :=
  step.dependsOn.flatMap fun dep =>
    (expansion workflow.steps dep.step).map fun entry => (taskId workflow.name entry.1, dep.on)

/-- The tasks of one step. -/
def compileStep (workflow : Workflow) (step : WorkflowStep) : List CompiledTask :=
  let depIds := dependencyIds workflow step
  (expandStep step).map fun (concreteId, item) =>
    { taskId := taskId workflow.name concreteId
      title := if item = "" then step.title else step.title ++ " [" ++ item ++ "]"
      description := step.description
      dependsOn := depIds.map Prod.fst
      taskClass := step.taskClass
      conditions := depIds.filter fun entry => entry.2 ≠ ""
      evidenceRequirements := step.requires }

/-- The tasks of the steps in an order. -/
def tasksOf (workflow : Workflow) (ordered : List String) : List CompiledTask :=
  ordered.flatMap fun stepId =>
    match stepOf workflow.steps stepId with
    | some step => compileStep workflow step
    | none => []

/-- Compile a workflow into ordered blackboard task declarations. -/
def compileToTasks (workflow : Workflow) : Except WorkflowError (List CompiledTask) := do
  validateWorkflow workflow
  let ordered ← placeAll workflow.steps
  return tasksOf workflow ordered

/-! ## The order of the steps -/

/-- Every member of the list comes after all it depends on. -/
def Layered {ν : Type} (deps : ν → List ν) (l : List ν) : Prop :=
  ∀ pre node post, l = pre ++ node :: post → ∀ dep ∈ deps node, dep ∈ pre

theorem Layered.nil {ν : Type} (deps : ν → List ν) : Layered deps [] := by
  intro pre node post h
  cases pre <;> cases h

theorem Layered.concat {ν : Type} {deps : ν → List ν} {l : List ν} {node : ν}
    (h : Layered deps l) (hdeps : ∀ dep ∈ deps node, dep ∈ l) : Layered deps (l ++ [node]) := by
  intro pre found post hsplit
  rcases List.append_eq_append_iff.mp hsplit with ⟨more, hpre, hrest⟩ | ⟨more, hl, hrest⟩
  · cases more with
    | nil =>
        rw [List.append_nil] at hpre
        obtain ⟨rfl, -⟩ := List.cons.inj hrest
        rw [hpre]
        exact hdeps
    | cons first more =>
        obtain ⟨-, hnil⟩ := List.cons.inj hrest
        cases more <;> cases hnil
  · cases more with
    | nil =>
        obtain ⟨rfl, -⟩ := List.cons.inj hrest
        rw [List.append_nil] at hl
        rw [← hl]
        exact hdeps
    | cons first more =>
        obtain ⟨rfl, hpost⟩ := List.cons.inj hrest
        exact h pre _ more hl

/-- What a walk makes of the steps found so far: more of them, still layered. -/
structure Extends {ν : Type} (deps : ν → List ν) (before after : List ν) : Prop where
  layered : Layered deps before → Layered deps after
  keeps : before ⊆ after

theorem Extends.refl {ν : Type} (deps : ν → List ν) (l : List ν) : Extends deps l l :=
  ⟨id, List.Subset.refl l⟩

theorem Extends.trans {ν : Type} {deps : ν → List ν} {a b c : List ν} (h : Extends deps a b)
    (h' : Extends deps b c) : Extends deps a c :=
  ⟨h'.layered ∘ h.layered, List.Subset.trans h.keeps h'.keeps⟩

/-- A walk over several nodes finds each of them. -/
theorem extends_foldlM {ν : Type} {deps : ν → List ν}
    {walk : List ν → ν → Except WorkflowError (List ν)}
    (hwalk : ∀ {before node after}, walk before node = .ok after →
      Extends deps before after ∧ node ∈ after)
    {nodes before after : List ν} (h : nodes.foldlM walk before = .ok after) :
    Extends deps before after ∧ nodes ⊆ after := by
  induction nodes generalizing before with
  | nil =>
      cases h
      exact ⟨Extends.refl deps _, List.nil_subset _⟩
  | cons node rest ih =>
      rw [List.foldlM_cons] at h
      obtain ⟨found, hfound, h⟩ := Outcome.bind_ok h
      obtain ⟨hfirst, hnode⟩ := hwalk hfound
      obtain ⟨hrest, hmem⟩ := ih h
      exact ⟨hfirst.trans hrest, List.cons_subset.mpr ⟨hrest.keeps hnode, hmem⟩⟩

theorem extends_concat {ν : Type} {deps : ν → List ν} {before after : List ν} {node : ν}
    (h : Extends deps before after) (hdeps : deps node ⊆ after) :
    Extends deps before (after ++ [node]) ∧ node ∈ after ++ [node] :=
  ⟨⟨fun hl => (h.layered hl).concat fun _ hdep => hdeps hdep,
    List.Subset.trans h.keeps (List.subset_append_left _ _)⟩, by simp⟩

theorem extends_place {deps : String → List String} {fuel : Nat} {before after : List String}
    {stepId : String} (h : place deps fuel before stepId = .ok after) :
    Extends deps before after ∧ stepId ∈ after := by
  induction fuel generalizing before after stepId with
  | zero => cases h
  | succ fuel ih =>
      unfold place at h
      split at h
      · rename_i hmem
        cases h
        exact ⟨Extends.refl deps _, hmem⟩
      · obtain ⟨found, hfound, rfl⟩ := Outcome.map_ok h
        obtain ⟨hextends, hdeps⟩ := extends_foldlM ih hfound
        exact extends_concat hextends hdeps

theorem Layered.init {ν : Type} {deps : ν → List ν} {l : List ν} {node : ν}
    (h : Layered deps (l ++ [node])) : Layered deps l ∧ ∀ dep ∈ deps node, dep ∈ l := by
  refine ⟨fun pre found post hsplit => ?_, h l node [] rfl⟩
  exact h pre found (post ++ [node]) (by rw [hsplit]; simp)

theorem layered_placeAll {steps : List WorkflowStep} {ordered : List String}
    (h : placeAll steps = .ok ordered) :
    Layered (dependencies steps) ordered ∧ steps.map WorkflowStep.stepId ⊆ ordered := by
  obtain ⟨hextends, hall⟩ := extends_foldlM extends_place h
  exact ⟨hextends.layered (Layered.nil _), hall⟩

/-! ## The order of the tasks -/

/-- Every task comes after the tasks it depends on. -/
def Posted (tasks : List CompiledTask) : Prop :=
  ∀ pre task post, tasks = pre ++ task :: post →
    ∀ dep ∈ task.dependsOn, ∃ earlier ∈ pre, earlier.taskId = dep

theorem Posted.append {earlier tasks : List CompiledTask} (h : Posted earlier)
    (htasks : ∀ task ∈ tasks, ∀ dep ∈ task.dependsOn, ∃ found ∈ earlier, found.taskId = dep) :
    Posted (earlier ++ tasks) := by
  intro pre task post hsplit dep hdep
  rcases List.append_eq_append_iff.mp hsplit with ⟨more, rfl, hrest⟩ | ⟨more, hearlier, hrest⟩
  · have hmem : task ∈ tasks := by
      rw [hrest]
      simp
    obtain ⟨found, hfound, hid⟩ := htasks task hmem dep hdep
    exact ⟨found, List.mem_append_left _ hfound, hid⟩
  · cases more with
    | nil =>
        rw [List.append_nil] at hearlier
        have hmem : task ∈ tasks := by
          rw [← List.nil_append tasks, ← hrest]
          exact List.mem_cons_self
        obtain ⟨found, hfound, hid⟩ := htasks task hmem dep hdep
        exact ⟨found, hearlier ▸ hfound, hid⟩
    | cons first more =>
        obtain ⟨rfl, hpost⟩ := List.cons.inj hrest
        exact h pre _ more hearlier dep hdep

theorem mem_tasksOf {workflow : Workflow} {ordered : List String} {stepId : String}
    {step : WorkflowStep} (hmem : stepId ∈ ordered)
    (hstep : stepOf workflow.steps stepId = some step) {task : CompiledTask}
    (htask : task ∈ compileStep workflow step) : task ∈ tasksOf workflow ordered := by
  refine List.mem_flatMap.mpr ⟨stepId, hmem, ?_⟩
  rw [hstep]
  exact htask

/-- An edge leads to the tasks of the step it names. -/
theorem exists_task_of_dependency {workflow : Workflow} {ordered : List String}
    {step : WorkflowStep} {stepId : String} (hstep : stepOf workflow.steps stepId = some step)
    (hdeps : ∀ dep ∈ dependencies workflow.steps stepId, dep ∈ ordered) {task : CompiledTask}
    (htask : task ∈ compileStep workflow step) {dep : String} (hdep : dep ∈ task.dependsOn) :
    ∃ found ∈ tasksOf workflow ordered, found.taskId = dep := by
  obtain ⟨entry, -, rfl⟩ := List.mem_map.mp htask
  obtain ⟨⟨depId, on⟩, hdepId, rfl⟩ := List.mem_map.mp hdep
  obtain ⟨edge, hedge, hentry⟩ := List.mem_flatMap.mp hdepId
  obtain ⟨⟨concreteId, item⟩, hexpanded, heq⟩ := List.mem_map.mp hentry
  cases heq
  have hordered : edge.step ∈ ordered := by
    refine hdeps edge.step ?_
    unfold dependencies
    rw [show (workflow.steps.find? fun found => found.stepId = stepId) = some step from hstep]
    exact List.mem_map_of_mem hedge
  unfold expansion at hexpanded
  cases hfound : stepOf workflow.steps edge.step with
  | none =>
      rw [hfound] at hexpanded
      cases hexpanded
  | some target =>
      rw [hfound] at hexpanded
      refine ⟨_, mem_tasksOf hordered hfound (List.mem_map_of_mem hexpanded), rfl⟩

theorem posted_tasksOf {workflow : Workflow} {ordered : List String}
    (h : Layered (dependencies workflow.steps) ordered) : Posted (tasksOf workflow ordered) := by
  induction ordered using List.reverseRecOn with
  | nil =>
      intro pre task post hsplit
      cases pre <;> cases hsplit
  | append_singleton ordered stepId ih =>
      obtain ⟨hinit, hdeps⟩ := h.init
      have hsplit : tasksOf workflow (ordered ++ [stepId]) =
          tasksOf workflow ordered ++ tasksOf workflow [stepId] := List.flatMap_append
      rw [hsplit]
      refine (ih hinit).append fun task htask => ?_
      obtain ⟨found, hfound, hcompiled⟩ := List.mem_flatMap.mp htask
      obtain rfl := List.mem_singleton.mp hfound
      cases hstep : stepOf workflow.steps found with
      | none =>
          rw [hstep] at hcompiled
          cases hcompiled
      | some step =>
          rw [hstep] at hcompiled
          exact fun dep hdep => exists_task_of_dependency hstep hdeps hcompiled hdep

theorem compile_ok {workflow : Workflow} {tasks : List CompiledTask}
    (h : compileToTasks workflow = .ok tasks) :
    validateWorkflow workflow = .ok () ∧ ∃ ordered,
      placeAll workflow.steps = .ok ordered ∧ tasks = tasksOf workflow ordered := by
  obtain ⟨⟨⟩, hvalid, h⟩ := Outcome.bind_ok h
  obtain ⟨ordered, hordered, h⟩ := Outcome.bind_ok h
  cases h
  exact ⟨hvalid, ordered, hordered, rfl⟩

/-- Compiled tasks come after the tasks they depend on. -/
theorem posted_compile {workflow : Workflow} {tasks : List CompiledTask}
    (h : compileToTasks workflow = .ok tasks) : Posted tasks := by
  obtain ⟨-, ordered, hordered, rfl⟩ := compile_ok h
  exact posted_tasksOf (layered_placeAll hordered).1

end Workflows

end SynapseChannel
