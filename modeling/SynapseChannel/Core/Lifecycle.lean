import Mathlib.Tactic.Common

/-!
# Core — Lifecycle

Typed lifecycle for a claimed task's status. Statuses travel as strings;
a transition is legal between known values along the table below.
-/

namespace SynapseChannel

/-- The legal status values of a claimed task. -/
inductive TaskStatus where
  | claimed
  | working
  | inputRequired
  | done
  | failed
deriving DecidableEq

namespace TaskStatus

/-- The literal string carried on the wire. -/
def value : TaskStatus → String
  | .claimed => "claimed"
  | .working => "working"
  | .inputRequired => "input_required"
  | .done => "done"
  | .failed => "failed"

def all : List TaskStatus := [.claimed, .working, .inputRequired, .done, .failed]

def ofValue? (status : String) : Option TaskStatus := all.find? fun s => s.value = status

def transitions : TaskStatus → List TaskStatus
  | .claimed => [.working, .done, .failed]
  | .working => [.inputRequired, .done, .failed]
  | .inputRequired => [.working, .done, .failed]
  | .done => []
  | .failed => []

end TaskStatus

/-- Whether a task may move from `current` to `target`. Re-affirming a
known status is always allowed. -/
def canTransition (current target : String) : Bool :=
  match TaskStatus.ofValue? target with
  | none => false
  | some t =>
    if current = target then true
    else
      match TaskStatus.ofValue? current with
      | none => false
      | some c => decide (t ∈ c.transitions)

end SynapseChannel
