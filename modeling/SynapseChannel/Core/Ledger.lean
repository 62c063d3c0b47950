import SynapseChannel.Lib.Search
import SynapseChannel.Lib.Sorted
import SynapseChannel.Lib.Text

/-!
# Core — Ledger

The shared blackboard: declared tasks with their dependencies, which the
board refuses to close into a cycle, and the bounded stream of progress
notes.
-/

namespace SynapseChannel

open Py

def ledgerTaskStatuses : List String := ["open", "in_progress", "blocked", "done", "cancelled"]

/-- The statuses that satisfy a dependency. -/
def terminalLedgerStatuses : List String := ["done", "cancelled"]

/-- A declared unit of work on the shared plan. -/
structure LedgerTask where
  taskId : String
  title : String
  createdAt : Float
  updatedAt : Float
  description : String := ""
  dependsOn : List String := []
  status : String := "open"
  suggestedOwner : String := ""
  project : String := ""
  version : Int := 1
  createdBy : String := ""

/-- One structured entry of the progress ledger. -/
structure ProgressNote where
  taskId : String
  author : String
  kind : String
  text : String
  postedAt : Float

/-- The arguments of a task declaration. -/
structure PostTask where
  taskId : String
  title : String
  author : String
  description : String := ""
  dependsOn : List String := []
  suggestedOwner : String := ""
  project : String := ""
  expectedVersion : Option Int := none

/-- The optional changes of a plan update. -/
structure UpdateTask where
  status : Option String := none
  suggestedOwner : Option String := none
  project : Option String := none
  expectedVersion : Option Int := none

/-- Why a change of the plan is refused. -/
inductive PlanRefusal where
  | idRequired
  | titleRequired
  | cycle (task : String)
  | versionConflict (task : String) (expected current : Int)
  | projectConflict (task current requested : String)
  | unknownTask (task : String)
  | unknownStatus (status : String)
deriving DecidableEq

/-- The reason text. -/
def PlanRefusal.text : PlanRefusal → String
  | .idRequired => "Task ID is required."
  | .titleRequired => "Task title is required."
  | .cycle task => s!"Task '{task}' dependencies would form a cycle."
  | .versionConflict task expected current =>
    s!"Task '{task}' version conflict: expected v{expected}, board has v{current}."
  | .projectConflict task current requested =>
    s!"Task '{task}' project conflict: already scoped to '{current}', cannot re-scope to '{requested}'."
  | .unknownTask task => s!"Task '{task}' is not on the board."
  | .unknownStatus status => s!"Unknown ledger status '{status}'."

/-- The task ledger and the progress stream. -/
structure Blackboard where
  tasks : Dict String LedgerTask := Dict.empty
  progress : List ProgressNote := []
  maxProgress : Int
  maxProgressPerAuthor : Int
  maxProgressPerTask : Int

namespace Blackboard

def init (maxProgress maxPerAuthor maxPerTask : Int) : Blackboard where
  maxProgress := max maxProgress 1
  maxProgressPerAuthor := max maxPerAuthor 1
  maxProgressPerTask := max maxPerTask 1

/-- Drop the first `excess` notes that match. -/
def dropFirst (matching : ProgressNote → Bool) : Nat → List ProgressNote → List ProgressNote
  | 0, notes => notes
  | _, [] => []
  | excess + 1, note :: rest =>
    if matching note then dropFirst matching excess rest
    else note :: dropFirst matching (excess + 1) rest

/-- Drop the oldest retained notes that match until at most `maxCount`
of them are left. -/
def dropOldestMatching (matching : ProgressNote → Bool) (maxCount : Int)
    (notes : List ProgressNote) : List ProgressNote :=
  dropFirst matching ((notes.countP matching : Int) - maxCount).toNat notes

/-- Append a note, dropping the oldest beyond each bound. -/
def append (board : Blackboard) (note : ProgressNote) : Blackboard :=
  let notes := board.progress ++ [note]
  let notes := dropOldestMatching (fun _ => true) board.maxProgress notes
  let notes := dropOldestMatching (fun n => n.author == note.author)
    board.maxProgressPerAuthor notes
  let notes := dropOldestMatching (fun n => n.taskId == note.taskId)
    board.maxProgressPerTask notes
  { board with progress := notes }

/-- Restore one persisted progress note. -/
def restoreProgress (board : Blackboard) (note : ProgressNote) : Blackboard := board.append note

/-! ## The plan -/

/-- Strip a dependency list, and drop blanks, the task itself and
duplicates. -/
def cleanDependsOn (taskId : String) (dependsOn : List String) : List String :=
  dependsOn.foldl
    (fun seen raw =>
      let dep := strip raw
      if dep ≠ "" ∧ dep ≠ taskId ∧ dep ∉ seen then seen ++ [dep] else seen)
    []

/-- The dependency lists of the declared tasks, last dependency first: the
order in which the walk takes them from its stack. -/
def edges (board : Blackboard) : Dict String (List String) :=
  board.tasks.filterMapValues fun task => some task.dependsOn.reverse

/-- Walk the existing graph from each proposed dependency until one walk
reaches the task again. -/
def wouldCycle (board : Blackboard) (taskId : String) (dependsOn : List String) : Bool :=
  let stack := dependsOn.reverse
  Search.dfs board.edges taskId (Search.fuelFrom board.edges stack) stack []

/-- Replace the planning fields of a declared task. -/
def redeclared (task : LedgerTask) (args : PostTask) (deps : List String) (now : Float) :
    LedgerTask :=
  let scope := strip args.project
  { task with
    title := strip args.title
    description := strip args.description
    dependsOn := deps
    suggestedOwner := strip args.suggestedOwner
    project := if scope = "" then task.project else scope
    version := task.version + 1
    updatedAt := now }

/-- A task declared for the first time. -/
def declared (args : PostTask) (deps : List String) (now : Float) : LedgerTask where
  taskId := strip args.taskId
  title := strip args.title
  createdAt := now
  updatedAt := now
  description := strip args.description
  dependsOn := deps
  suggestedOwner := strip args.suggestedOwner
  project := strip args.project
  createdBy := args.author

/-- Declare or re-declare a task on the plan. -/
def postTask (board : Blackboard) (args : PostTask) (now : Float) :
    Blackboard × Except PlanRefusal String :=
  let tid := strip args.taskId
  if tid = "" then (board, .error .idRequired)
  else if strip args.title = "" then (board, .error .titleRequired)
  else
    let deps := cleanDependsOn tid args.dependsOn
    if board.wouldCycle tid deps then (board, .error (.cycle tid))
    else
      let existing := board.tasks.get? tid
      let current := (existing.map LedgerTask.version).getD 0
      match args.expectedVersion.filter fun expected => expected ≠ current with
      | some expected => (board, .error (.versionConflict tid expected current))
      | none =>
        match existing with
        | none =>
          let author := args.author
          ({ board with tasks := board.tasks.set tid (declared args deps now) },
            .ok s!"Task '{tid}' declared by {author}.")
        | some task =>
          let scope := strip args.project
          if scope ≠ "" ∧ task.project ≠ "" ∧ scope ≠ task.project then
            (board, .error (.projectConflict tid task.project scope))
          else
            let author := args.author
            ({ board with tasks := board.tasks.set tid (redeclared task args deps now) },
              .ok s!"Task '{tid}' re-declared by {author}.")

/-- A task with its planning status, owner or scope changed. -/
def updated (task : LedgerTask) (args : UpdateTask) (now : Float) : LedgerTask :=
  { task with
    status := args.status.getD task.status
    suggestedOwner := (args.suggestedOwner.map strip).getD task.suggestedOwner
    project := (args.project.map strip).getD task.project
    version := task.version + 1
    updatedAt := now }

/-- Change a declared task's planning status, owner, or project scope. -/
def updateTask (board : Blackboard) (taskId : String) (args : UpdateTask) (now : Float) :
    Blackboard × Except PlanRefusal String :=
  let tid := strip taskId
  match board.tasks.get? tid with
  | none => (board, .error (.unknownTask tid))
  | some task =>
    match args.status.filter fun status => status ∉ ledgerTaskStatuses with
    | some status => (board, .error (.unknownStatus status))
    | none =>
      match args.expectedVersion.filter fun expected => expected ≠ task.version with
      | some expected => (board, .error (.versionConflict tid expected task.version))
      | none =>
        ({ board with tasks := board.tasks.set tid (updated task args now) },
          .ok s!"Task '{tid}' plan updated.")

/-- The unmet dependencies of a task, in declaration order. -/
def blockingDependencies (board : Blackboard) (taskId : String) : List String :=
  match board.tasks.get? (strip taskId) with
  | none => []
  | some task =>
    task.dependsOn.filter fun dep =>
      match board.tasks.get? dep with
      | none => true
      | some other => other.status ∉ terminalLedgerStatuses

/-- The open tasks whose every dependency is finished, by task id. -/
def readyTasks (board : Blackboard) : List LedgerTask :=
  let ready := board.tasks.values.filter fun task =>
    task.status == "open" && (board.blockingDependencies task.taskId).isEmpty
  sortedBy (fun a b => decide (a < b)) LedgerTask.taskId ready

end Blackboard

/-- A change of the plan. -/
inductive PlanOp where
  | post (args : PostTask) (now : Float)
  | update (taskId : String) (args : UpdateTask) (now : Float)

/-- Apply one change. -/
def PlanOp.apply (board : Blackboard) : PlanOp → Blackboard × Except PlanRefusal String
  | .post args now => board.postTask args now
  | .update taskId args now => board.updateTask taskId args now

/-- The board after one change. -/
def PlanOp.next (board : Blackboard) (op : PlanOp) : Blackboard := (op.apply board).1

end SynapseChannel
