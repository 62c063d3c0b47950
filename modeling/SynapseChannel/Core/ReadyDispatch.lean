import SynapseChannel.Lib.FirstBest
import SynapseChannel.Lib.FloatRound
import SynapseChannel.Lib.Group
import SynapseChannel.Lib.Json
import SynapseChannel.Lib.Outcome
import SynapseChannel.Lib.Sorted

/-!
# Core — ReadyDispatch

Which seat is nudged for which ready task: eligibility of tasks and
seats, one pass over the tasks by id, and for each the first best seat
with spare capacity in the order of the ranking.
-/

namespace SynapseChannel

open Py

namespace ReadyDispatch

/-! ## Snapshot data -/

/-- A normalized board task considered for dispatch. -/
structure DispatchTask where
  taskId : String
  /-- The scope; an empty one is never dispatchable. -/
  project : String
  suggestedOwner : String
  updatedAt : Float
  version : Int

/-- A normalized dispatchable seat. -/
structure DispatchCandidate where
  agent : String
  wakeIdentity : String
  wakeCapability : String
  taskClasses : List String
  skills : List String
  activeClaims : Nat
  advertisedAt : Float

/-- One planned nudge with its rationale. -/
structure DispatchAssignment where
  taskId : String
  owner : String
  wakeIdentity : String
  classScore : Nat
  reasons : List String

/-- Why a ready task was not assigned. -/
inductive SkipReason where
  | unscoped
  | scopedTo (project : String)
  | claimed
  | freshSuggestion (owner : String) (age ttl : Int)
  | noCandidate
  deriving DecidableEq

def SkipReason.text : SkipReason → String
  | unscoped => "task is unscoped"
  | scopedTo project => "task scoped to " ++ project
  | claimed => "an active claim already covers the task"
  | freshSuggestion owner age ttl =>
    "fresh suggestion for " ++ owner ++ " (" ++ toString age ++ "s < " ++ toString ttl ++ "s TTL)"
  | noCandidate => "no dispatchable candidate (project/online/wake/capacity gate)"

/-- The result of one selection pass. -/
structure DispatchPlan where
  assignments : List DispatchAssignment := []
  skipped : Dict String SkipReason := Dict.empty

/-- The snapshots a pass reads, and its bounds. -/
structure Pass where
  tasks : List Members
  readyIds : List String
  claims : List Members
  cards : List Members
  online : List String
  wakeCapabilities : Dict String String
  project : String
  now : Float
  suggestionTtl : Float := 900
  capacity : Int := 1

/-- `_WAKE_RANK`. -/
def wakeRank (capability : String) : Option Nat :=
  if capability = "pane_bridge" then some 2 else if capability = "direct" then some 1 else none

variable [Builtins]

/-- `str(raw.get(name) or "")`. -/
def textField (raw : Members) (name : String) : String := ((raw.get name).or (.str "")).toStr

/-- `float(value) if isinstance(value, (int, float)) else 0.0`; `none` is the `OverflowError` of an
integer that no float reaches. -/
def numberField (raw : Members) (name : String) : Option Float :=
  match raw.get name with
  | .bool b => (Json.bool b).toFloat?
  | .int n => (Json.int n).toFloat?
  | .float x => some x
  | _ => some 0

/-- `int(version) if isinstance(version, int) and version > 0 else 1`. -/
def versionField (raw : Members) : Int :=
  match raw.get "version" with
  | .int n => if 0 < n then n else 1
  | _ => 1

/-- The strings of a list member; any other member gives none. -/
def stringsField (raw : Members) (name : String) : List String :=
  match raw.get name with
  | .arr items => items.map Json.toStr
  | _ => []

/-- One body of the board; `none` inside is one that is not open or has no id. -/
def normalizeTask (raw : Members) : Option (Option DispatchTask) :=
  let taskId := strip (textField raw "task_id")
  if textField raw "status" ≠ "open" ∨ taskId = "" then some none
  else do
    let updatedAt ← numberField raw "updated_at"
    return some
      { taskId
        project := strip (textField raw "project")
        suggestedOwner := strip (textField raw "suggested_owner")
        updatedAt
        version := versionField raw }

/-- Keep only open tasks and normalize their fields. -/
def normalizeTasks (tasks : List Members) : Option (List DispatchTask) :=
  (tasks.mapM normalizeTask).map List.reduceOption

/-- The first identity of a seat that is online with a ranked capability. -/
def wakeOf (pass : Pass) (agent : String) : Option (String × String) :=
  [agent, agent ++ "-rx", agent ++ "-pane-rx"].findSome? fun identity =>
    let capability := (pass.wakeCapabilities.get? identity).getD ""
    if identity ∈ pass.online ∧ (wakeRank capability).isSome then some (identity, capability) else none

/-- The owners of the active claims. -/
def claimOwners (pass : Pass) : List String :=
  (pass.claims.map fun claim => strip (textField claim "owner")).filter (· ≠ "")

def claimedTasks (pass : Pass) : List String :=
  (pass.claims.map fun claim => strip (textField claim "task_id")).filter (· ≠ "")

/-- One card; `none` inside is one that is out of the project, opted out or not to be woken. -/
def normalizeCard (pass : Pass) (claimsPerAgent : Dict String Nat) (raw : Members) :
    Option (Option DispatchCandidate) :=
  let agent := strip (textField raw "agent")
  if agent = "" ∨ (agent ≠ pass.project ∧ startsWith agent (pass.project ++ "/") = false) then some none
  else
    match raw.get "dispatchable", wakeOf pass agent with
    | .bool false, _ => some none
    | _, none => some none
    | _, some (wakeIdentity, wakeCapability) => do
      let advertisedAt ← numberField raw "advertised_at"
      return some
        { agent, wakeIdentity, wakeCapability
          taskClasses := stringsField raw "task_classes"
          skills := stringsField raw "skills"
          activeClaims := (claimsPerAgent.get? agent).getD 0
          advertisedAt }

/-- Filter and normalize the dispatchable candidates. -/
def normalizeCards (pass : Pass) : Option (List DispatchCandidate) :=
  (pass.cards.mapM (normalizeCard pass (tally (claimOwners pass)))).map List.reduceOption

/-! ## The ranking -/

section

omit [Builtins]

/-- How long ago a seat's card was refreshed. -/
def DispatchCandidate.idle (candidate : DispatchCandidate) (now : Float) : Float :=
  now - candidate.advertisedAt

def DispatchCandidate.rank (candidate : DispatchCandidate) : Nat :=
  (wakeRank candidate.wakeCapability).getD 0

/-- The order of the candidates: higher wake rank, then longer idle, then smaller name. -/
def precedes (now : Float) (a b : DispatchCandidate) : Bool :=
  decide (b.rank < a.rank) || decide (a.rank = b.rank) &&
    (decide (b.idle now < a.idle now) || (a.idle now == b.idle now) && decide (a.agent < b.agent))

end

/-- Lowercase hint tokens of a task id; `lower` is `str.lower`. -/
def taskHintTokens (lower : String → String) (taskId : String) : List String :=
  (split (lower (replaceChar taskId '_' '-')) '-').filter (· ≠ "")

/-- Whether a token of the task is one of a seat's classes or skills. -/
def classScore (lower : String → String) (taskId : String) (candidate : DispatchCandidate) : Nat :=
  let tokens := taskHintTokens lower taskId
  if tokens.any (fun token => (candidate.taskClasses.map lower).contains token) ||
      tokens.any (fun token => (candidate.skills.map lower).contains token) then 1 else 0

omit [Builtins] in
/-- Whether a seat has room for one more. -/
def hasSpare (pass : Pass) (planned : Dict String Nat) (candidate : DispatchCandidate) : Bool :=
  !decide (pass.capacity ≤ ((candidate.activeClaims + (planned.get? candidate.agent).getD 0 : Nat) : Int))

/-! ## The pass -/

/-- The plan as far as it is made, and how many tasks each seat was given. -/
structure Progress where
  plan : DispatchPlan := {}
  planned : Dict String Nat := Dict.empty

def Progress.skip (progress : Progress) (task : DispatchTask) (reason : SkipReason) : Progress :=
  { progress with
    plan := { progress.plan with skipped := progress.plan.skipped.set task.taskId reason } }

/-- The rationale of an assignment; `none` is the error of `int` on an idle time that is not finite. -/
def assignmentReasons (pass : Pass) (task : DispatchTask) (score : Nat) (winner : DispatchCandidate) :
    Option (List String) := do
  let idle ← Json.truncFloat (winner.idle pass.now)
  let reasons :=
    ["wake " ++ winner.wakeCapability ++ " via " ++ winner.wakeIdentity,
      "class hint " ++ (if score ≠ 0 then "matched" else "no match"),
      "idle " ++ toString idle ++ "s since card refresh"]
  return if task.suggestedOwner ≠ "" then
    reasons ++ ["stale suggestion for " ++ task.suggestedOwner ++ " re-opened"] else reasons

/-- One task of the pass. -/
def planTask (lower : String → String) (pass : Pass) (candidates : List DispatchCandidate)
    (progress : Progress) (task : DispatchTask) : Option Progress :=
  if task.project ≠ pass.project then
    some (progress.skip task (if task.project = "" then .unscoped else .scopedTo task.project))
  else if task.taskId ∈ claimedTasks pass then some (progress.skip task .claimed)
  else if task.suggestedOwner ≠ "" ∧ pass.now - task.updatedAt < pass.suggestionTtl then do
    let age ← Json.truncFloat (pass.now - task.updatedAt)
    let ttl ← Json.truncFloat pass.suggestionTtl
    return progress.skip task (.freshSuggestion task.suggestedOwner age ttl)
  else
    match FirstBest.scan (hasSpare pass progress.planned) (classScore lower task.taskId) candidates with
    | none => some (progress.skip task .noCandidate)
    | some (score, winner) =>
      (assignmentReasons pass task score winner).map fun reasons =>
        { plan := { progress.plan with
            assignments := progress.plan.assignments ++
              [⟨task.taskId, winner.agent, winner.wakeIdentity, score, reasons⟩] }
          planned := progress.planned.set winner.agent
            ((progress.planned.get? winner.agent).getD 0 + 1) }

/-- The open tasks that are ready, by id. -/
def eligibleTasks (pass : Pass) : Option (List DispatchTask) :=
  (normalizeTasks pass.tasks).map fun tasks =>
    sortedBy (fun a b => decide (a < b)) DispatchTask.taskId
      (tasks.filter fun task => decide (task.taskId ∈ pass.readyIds))

/-- The candidates in the order of the ranking. -/
def rankedCandidates (pass : Pass) : Option (List DispatchCandidate) :=
  (normalizeCards pass).map (sortedBy (precedes pass.now) id)

/-- Compute the plan of one pass; `none` is an error of a number that no float or no integer holds. -/
def planDispatches (lower : String → String) (pass : Pass) : Option DispatchPlan := do
  let candidates ← rankedCandidates pass
  let tasks ← eligibleTasks pass
  let progress ← tasks.foldlM (planTask lower pass candidates) {}
  return progress.plan

/-! ## The snapshots' order does not matter -/

section Order

section

omit [Builtins]

theorem mapM_cons_some {α β : Type} {f : α → Option β} {a : α} {rest : List α} {values : List β} :
    (a :: rest).mapM f = some values ↔
      ∃ b bs, f a = some b ∧ rest.mapM f = some bs ∧ values = b :: bs := by
  rw [List.mapM_cons]
  simp only [Option.bind_eq_bind, Option.bind_eq_some_iff, Option.pure_def, Option.some.injEq]
  constructor
  · rintro ⟨b, hb, bs, hbs, rfl⟩
    exact ⟨b, bs, hb, hbs, rfl⟩
  · rintro ⟨b, bs, hb, hbs, rfl⟩
    exact ⟨b, hb, bs, hbs, rfl⟩

theorem mapM_mem {α β : Type} {f : α → Option β} {items : List α} {values : List β}
    (h : items.mapM f = some values) {b : β} (hb : b ∈ values) : ∃ a ∈ items, f a = some b :=
  Outcome.exists_of_forall₂ (Outcome.forall₂_of_mapM h) hb

theorem mapM_perm {α β : Type} {f : α → Option β} {items items' : List α} (h : items.Perm items')
    {values : List β} (hvalues : items.mapM f = some values) :
    ∃ values', items'.mapM f = some values' ∧ values.Perm values' := by
  induction h generalizing values with
  | nil => exact ⟨values, hvalues, .refl _⟩
  | cons a h ih =>
    obtain ⟨b, bs, hb, hbs, rfl⟩ := mapM_cons_some.mp hvalues
    obtain ⟨bs', hbs', hperm⟩ := ih hbs
    exact ⟨b :: bs', mapM_cons_some.mpr ⟨b, bs', hb, hbs', rfl⟩, hperm.cons b⟩
  | swap a a' rest =>
    obtain ⟨b, bs, hb, hbs, rfl⟩ := mapM_cons_some.mp hvalues
    obtain ⟨b', bs', hb', hbs', rfl⟩ := mapM_cons_some.mp hbs
    exact ⟨b' :: b :: bs', mapM_cons_some.mpr ⟨b', _, hb', mapM_cons_some.mpr ⟨b, bs', hb, hbs', rfl⟩, rfl⟩,
      .swap b' b bs'⟩
  | trans h h' ih ih' =>
    obtain ⟨middle, hmiddle, hperm⟩ := ih hvalues
    obtain ⟨values', hvalues', hperm'⟩ := ih' hmiddle
    exact ⟨values', hvalues', hperm.trans hperm'⟩

theorem reduceOption_perm {α : Type} {items items' : List (Option α)} (h : items.Perm items') :
    items.reduceOption.Perm items'.reduceOption :=
  h.filterMap id

end

/-- The idle time of every candidate is a number. -/
def Clocked (pass : Pass) : Prop :=
  ∀ seats, normalizeCards pass = some seats → ∀ seat ∈ seats, (seat.idle pass.now).isNaN = false

/-- No two open tasks have one id. -/
def DistinctTasks (pass : Pass) : Prop :=
  ∀ tasks, normalizeTasks pass.tasks = some tasks → (tasks.map DispatchTask.taskId).Nodup

/-- No two candidates are cards of one agent. -/
def OneCardEach (pass : Pass) : Prop :=
  ∀ seats, normalizeCards pass = some seats → (seats.map DispatchCandidate.agent).Nodup

/-- The idle time of a seat in units of the last place. -/
def idleUnits (now : Float) (seat : DispatchCandidate) : Int :=
  Ieee.units (seat.idle now).toModel.unpack

/-- A seat that does not come after another ranks at least as high, by the whole key. -/
def RanksAtLeast (now : Float) (a b : DispatchCandidate) : Prop :=
  b.rank < a.rank ∨ a.rank = b.rank ∧
    (b.idle now < a.idle now ∨ (a.idle now == b.idle now) = true ∧ a.agent ≤ b.agent)

variable {now : Float} {a b c : DispatchCandidate}

section

omit [Builtins]

theorem ranksAtLeast_units (ha : (a.idle now).isNaN = false) (hb : (b.idle now).isNaN = false) :
    RanksAtLeast now a b ↔ b.rank < a.rank ∨ a.rank = b.rank ∧
      (idleUnits now b < idleUnits now a ∨ idleUnits now a = idleUnits now b ∧ a.agent ≤ b.agent) := by
  have heq : (a.idle now == b.idle now) = true ↔ idleUnits now a = idleUnits now b := by
    rw [Ieee.beq_iff ha hb, Ieee.lt_iff_units ha hb, Ieee.lt_iff_units hb ha]
    unfold idleUnits
    omega
  unfold RanksAtLeast
  rw [heq, Ieee.lt_iff_units hb ha]
  rfl

theorem precedes_false (ha : (a.idle now).isNaN = false) (hb : (b.idle now).isNaN = false) :
    precedes now b a = false ↔ RanksAtLeast now a b := by
  have heq : (b.idle now == a.idle now) = true ↔ idleUnits now b = idleUnits now a := by
    rw [Ieee.beq_iff hb ha, Ieee.lt_iff_units ha hb, Ieee.lt_iff_units hb ha]
    unfold idleUnits
    omega
  have hlt : a.idle now < b.idle now ↔ idleUnits now a < idleUnits now b := Ieee.lt_iff_units ha hb
  have hname : ¬ b.agent < a.agent ↔ a.agent ≤ b.agent := not_lt
  rw [ranksAtLeast_units ha hb, ← Bool.not_eq_true]
  unfold precedes
  simp only [Bool.or_eq_true, Bool.and_eq_true, decide_eq_true_eq, heq, hlt]
  grind

theorem RanksAtLeast.trans (ha : (a.idle now).isNaN = false) (hb : (b.idle now).isNaN = false)
    (hc : (c.idle now).isNaN = false) (hab : RanksAtLeast now a b) (hbc : RanksAtLeast now b c) :
    RanksAtLeast now a c := by
  rw [ranksAtLeast_units ha hb] at hab
  rw [ranksAtLeast_units hb hc] at hbc
  rw [ranksAtLeast_units ha hc]
  have htrans : a.agent ≤ b.agent → b.agent ≤ c.agent → a.agent ≤ c.agent := le_trans
  grind

theorem RanksAtLeast.total (ha : (a.idle now).isNaN = false) (hb : (b.idle now).isNaN = false) :
    RanksAtLeast now a b ∨ RanksAtLeast now b a := by
  rw [ranksAtLeast_units ha hb, ranksAtLeast_units hb ha]
  have htotal : a.agent ≤ b.agent ∨ b.agent ≤ a.agent := le_total _ _
  grind

theorem RanksAtLeast.agent_eq (ha : (a.idle now).isNaN = false) (hb : (b.idle now).isNaN = false)
    (hab : RanksAtLeast now a b) (hba : RanksAtLeast now b a) : a.agent = b.agent := by
  rw [ranksAtLeast_units ha hb] at hab
  rw [ranksAtLeast_units hb ha] at hba
  have hanti : a.agent ≤ b.agent → b.agent ≤ a.agent → a.agent = b.agent := le_antisymm
  grind

end

/-- A pass that reads the same snapshots in another order. -/
structure Pass.Reordered (pass pass' : Pass) : Prop where
  tasks : pass.tasks.Perm pass'.tasks
  claims : pass.claims.Perm pass'.claims
  cards : pass.cards.Perm pass'.cards
  readyIds : pass.readyIds = pass'.readyIds
  online : pass.online = pass'.online
  wakeCapabilities : pass.wakeCapabilities = pass'.wakeCapabilities
  project : pass.project = pass'.project
  now : pass.now = pass'.now
  suggestionTtl : pass.suggestionTtl = pass'.suggestionTtl
  capacity : pass.capacity = pass'.capacity

omit [Builtins] in
theorem Pass.Reordered.symm {pass pass' : Pass} (h : pass.Reordered pass') : pass'.Reordered pass :=
  ⟨h.tasks.symm, h.claims.symm, h.cards.symm, h.readyIds.symm, h.online.symm,
    h.wakeCapabilities.symm, h.project.symm, h.now.symm, h.suggestionTtl.symm, h.capacity.symm⟩

variable {pass pass' : Pass}

theorem normalizeCard_reordered (h : pass.Reordered pass') :
    normalizeCard pass (tally (claimOwners pass)) =
      normalizeCard pass' (tally (claimOwners pass')) := by
  have howners : (claimOwners pass).Perm (claimOwners pass') := (h.claims.map _).filter _
  have hcount : ∀ agent, ((tally (claimOwners pass)).get? agent).getD 0 =
      ((tally (claimOwners pass')).get? agent).getD 0 := by
    intro agent
    rw [getD_tally, getD_tally, howners.count_eq]
  have hwake : wakeOf pass = wakeOf pass' := by
    unfold wakeOf
    rw [h.online, h.wakeCapabilities]
  funext raw
  unfold normalizeCard
  dsimp only
  rw [h.project, hwake, hcount]

theorem normalizeCards_reordered (h : pass.Reordered pass') {seats : List DispatchCandidate}
    (hseats : normalizeCards pass = some seats) :
    ∃ seats', normalizeCards pass' = some seats' ∧ seats.Perm seats' := by
  obtain ⟨values, hvalues, rfl⟩ := Option.map_eq_some_iff.mp hseats
  rw [normalizeCard_reordered h] at hvalues
  obtain ⟨values', hvalues', hperm⟩ := mapM_perm h.cards hvalues
  exact ⟨_, Option.map_eq_some_iff.mpr ⟨values', hvalues', rfl⟩, reduceOption_perm hperm⟩

theorem normalizeTasks_reordered (h : pass.Reordered pass') {tasks : List DispatchTask}
    (htasks : normalizeTasks pass.tasks = some tasks) :
    ∃ tasks', normalizeTasks pass'.tasks = some tasks' ∧ tasks.Perm tasks' := by
  obtain ⟨values, hvalues, rfl⟩ := Option.map_eq_some_iff.mp htasks
  obtain ⟨values', hvalues', hperm⟩ := mapM_perm h.tasks hvalues
  exact ⟨_, Option.map_eq_some_iff.mpr ⟨values', hvalues', rfl⟩, reduceOption_perm hperm⟩

theorem ranked_ordered (hclocked : Clocked pass) {seats : List DispatchCandidate}
    (hseats : normalizeCards pass = some seats) :
    (sortedBy (precedes pass.now) id seats).Pairwise (RanksAtLeast pass.now) := by
  have hnumber := hclocked seats hseats
  have hsorted := pairwise_sortedBy (precedes pass.now)
    (P := fun seat : DispatchCandidate => (seat.idle pass.now).isNaN = false) ?_ ?_ id hnumber
  · refine hsorted.imp_of_mem fun {a b} ha hb hab => ?_
    rw [mem_sortedBy] at ha hb
    exact (precedes_false (hnumber a ha) (hnumber b hb)).mp hab
  · intro a b c ha hb hc hab hbc
    rw [precedes_false ha hb] at hab
    rw [precedes_false hb hc] at hbc
    rw [precedes_false ha hc]
    exact hab.trans ha hb hc hbc
  · intro a b ha hb
    rw [precedes_false ha hb, precedes_false hb ha]
    exact RanksAtLeast.total ha hb

theorem rankedCandidates_reordered (h : pass.Reordered pass') (hclocked : Clocked pass)
    (hcards : OneCardEach pass) : rankedCandidates pass = rankedCandidates pass' := by
  unfold rankedCandidates
  cases hseats : normalizeCards pass with
  | none =>
    cases hseats' : normalizeCards pass' with
    | none => rw [Option.map_none, Option.map_none]
    | some seats' =>
      obtain ⟨seats, hsome, -⟩ := normalizeCards_reordered h.symm hseats'
      rw [hseats] at hsome
      cases hsome
  | some seats =>
    obtain ⟨seats', hseats', hperm⟩ := normalizeCards_reordered h hseats
    have hnow := h.now
    have hclocked' : Clocked pass' := by
      intro found hfound seat hseat
      rw [hseats'] at hfound
      cases hfound
      rw [← hnow]
      exact hclocked seats hseats seat (hperm.mem_iff.mpr hseat)
    have hnodup := hcards seats hseats
    have hordered := ranked_ordered hclocked hseats
    have hordered' := ranked_ordered hclocked' hseats'
    rw [← hnow] at hordered'
    rw [hseats', Option.map_some, Option.map_some, ← hnow]
    refine congrArg some ?_
    have hsorted := (sortedBy_perm (precedes pass.now) id seats).trans
      (hperm.trans (sortedBy_perm (precedes pass.now) id seats').symm)
    refine List.Perm.eq_of_pairwise ?_ hordered hordered' hsorted
    intro a b ha hb hab hba
    rw [mem_sortedBy] at ha hb
    rw [← hperm.mem_iff] at hb
    have hagent := hab.agent_eq (hclocked seats hseats a ha) (hclocked seats hseats b hb) hba
    exact List.inj_on_of_nodup_map hnodup ha hb hagent

omit [Builtins] in
theorem sortedIds_ordered (tasks : List DispatchTask) :
    (sortedBy (fun a b => decide (a < b)) DispatchTask.taskId tasks).Pairwise
      fun a b => a.taskId ≤ b.taskId := by
  have hsorted := pairwise_sortedBy (fun a b : String => decide (a < b)) (P := fun _ => True)
    (fun {a b c} _ _ _ hab hbc => ?_) (fun {a b} _ _ => ?_) DispatchTask.taskId
    (show ∀ task ∈ tasks, True from fun _ _ => trivial)
  · exact hsorted.imp fun h => not_lt.mp (of_decide_eq_false h)
  · exact decide_eq_false (not_lt.mpr ((not_lt.mp (of_decide_eq_false hab)).trans
      (not_lt.mp (of_decide_eq_false hbc))))
  · rcases le_total a b with h | h
    · exact .inl (decide_eq_false (not_lt.mpr h))
    · exact .inr (decide_eq_false (not_lt.mpr h))

theorem eligibleTasks_reordered (h : pass.Reordered pass') (htasks : DistinctTasks pass) :
    eligibleTasks pass = eligibleTasks pass' := by
  unfold eligibleTasks
  have hready := h.readyIds
  cases hopen : normalizeTasks pass.tasks with
  | none =>
    cases hopen' : normalizeTasks pass'.tasks with
    | none => rw [Option.map_none, Option.map_none]
    | some tasks' =>
      obtain ⟨tasks, hsome, -⟩ := normalizeTasks_reordered h.symm hopen'
      rw [hopen] at hsome
      cases hsome
  | some tasks =>
    obtain ⟨tasks', hopen', hperm⟩ := normalizeTasks_reordered h hopen
    have hnodup := htasks tasks hopen
    rw [hopen', Option.map_some, Option.map_some, ← hready]
    refine congrArg some ?_
    have hreadyPerm := hperm.filter fun task => decide (task.taskId ∈ pass.readyIds)
    have hsorted := (sortedBy_perm (fun a b => decide (a < b)) DispatchTask.taskId _).trans
      (hreadyPerm.trans (sortedBy_perm (fun a b => decide (a < b)) DispatchTask.taskId _).symm)
    refine List.Perm.eq_of_pairwise ?_ (sortedIds_ordered _) (sortedIds_ordered _) hsorted
    intro a b ha hb hab hba
    rw [mem_sortedBy] at ha hb
    rw [← hreadyPerm.mem_iff] at hb
    exact List.inj_on_of_nodup_map hnodup (List.mem_of_mem_filter ha) (List.mem_of_mem_filter hb)
      (le_antisymm hab hba)

theorem planTask_reordered (lower : String → String) (h : pass.Reordered pass') :
    planTask lower pass = planTask lower pass' := by
  have hclaimed : ∀ taskId, taskId ∈ claimedTasks pass ↔ taskId ∈ claimedTasks pass' := fun taskId =>
    (((h.claims.map _).filter _ : (claimedTasks pass).Perm (claimedTasks pass'))).mem_iff
  have hspare : hasSpare pass = hasSpare pass' := by
    funext planned candidate
    unfold hasSpare
    rw [h.capacity]
  have hreasons : assignmentReasons pass = assignmentReasons pass' := by
    funext task score winner
    unfold assignmentReasons
    rw [h.now]
  funext candidates progress task
  unfold planTask
  rw [hspare, hreasons, h.project, h.now, h.suggestionTtl]
  simp only [hclaimed]

/-- The plan does not depend on the order in which tasks, claims and cards come. -/
theorem planDispatches_reordered (lower : String → String) (h : pass.Reordered pass')
    (hclocked : Clocked pass) (htasks : DistinctTasks pass) (hcards : OneCardEach pass) :
    planDispatches lower pass = planDispatches lower pass' := by
  unfold planDispatches
  rw [rankedCandidates_reordered h hclocked hcards, eligibleTasks_reordered h htasks,
    planTask_reordered lower h]

end Order

/-! ## What a pass plans -/

section Plan

omit [Builtins]

/-- How many tasks a plan gives to a seat. -/
def assigned (plan : DispatchPlan) (agent : String) : Nat :=
  plan.assignments.countP fun a => decide (a.owner = agent)

/-- How many of the tasks before one, by id, a plan gives to a seat. -/
def assignedBefore (plan : DispatchPlan) (taskId agent : String) : Nat :=
  plan.assignments.countP fun a => decide (a.taskId < taskId) && decide (a.owner = agent)

/-- A seat with room for one more when a task has its turn. -/
def SpareAt (pass : Pass) (plan : DispatchPlan) (taskId : String) (seat : DispatchCandidate) : Prop :=
  (seat.activeClaims + assignedBefore plan taskId seat.agent : Int) < pass.capacity

/-- A seat that is the best choice for a task among those with room at its turn. -/
structure Best (lower : String → String) (pass : Pass) (seats : List DispatchCandidate)
    (plan : DispatchPlan) (taskId : String) (seat : DispatchCandidate) : Prop where
  spare : SpareAt pass plan taskId seat
  maximal : ∀ other ∈ seats, SpareAt pass plan taskId other →
    classScore lower taskId other < classScore lower taskId seat ∨
      classScore lower taskId other = classScore lower taskId seat ∧ RanksAtLeast pass.now seat other

/-- What holds of the plan after the tasks in `done`. -/
structure Planned (lower : String → String) (pass : Pass) (seats : List DispatchCandidate)
    (done : List DispatchTask) (progress : Progress) : Prop where
  covered : (progress.plan.assignments.map DispatchAssignment.taskId ++
    progress.plan.skipped.keys).Perm (done.map DispatchTask.taskId)
  counted : ∀ agent, (progress.planned.get? agent).getD 0 = assigned progress.plan agent
  bounded : ∀ seat ∈ seats, 0 < assigned progress.plan seat.agent →
    (seat.activeClaims + assigned progress.plan seat.agent : Int) ≤ pass.capacity
  wanting : ∀ taskId, progress.plan.skipped.get? taskId = some .noCandidate →
    ∀ seat ∈ seats, ¬ SpareAt pass progress.plan taskId seat
  best : ∀ a ∈ progress.plan.assignments, ∃ seat ∈ seats, seat.agent = a.owner ∧
    seat.wakeIdentity = a.wakeIdentity ∧ Best lower pass seats progress.plan a.taskId seat

/-- What is assigned to tasks from one id on does not count before it. -/
theorem assignedBefore_append {plan : DispatchPlan} {a : DispatchAssignment} {taskId agent : String}
    (h : taskId ≤ a.taskId) :
    assignedBefore { plan with assignments := plan.assignments ++ [a] } taskId agent =
      assignedBefore plan taskId agent := by
  unfold assignedBefore
  rw [List.countP_append, List.countP_cons_of_neg (by simp [not_lt.mpr h]), List.countP_nil,
    Nat.add_zero]

variable {lower : String → String} {pass : Pass} {seats : List DispatchCandidate}
  {done : List DispatchTask} {progress : Progress} {task : DispatchTask}

namespace Planned

theorem assigned_mem (h : Planned lower pass seats done progress) {a : DispatchAssignment}
    (ha : a ∈ progress.plan.assignments) : a.taskId ∈ done.map DispatchTask.taskId :=
  h.covered.mem_iff.mp (List.mem_append_left _ (List.mem_map_of_mem ha))

theorem skipped_mem (h : Planned lower pass seats done progress) {taskId : String}
    {reason : SkipReason} (hget : progress.plan.skipped.get? taskId = some reason) :
    taskId ∈ done.map DispatchTask.taskId := by
  refine h.covered.mem_iff.mp (List.mem_append_right _ ((Dict.mem_keys_iff _ _).mpr ?_))
  rw [hget]
  exact Option.some_ne_none _

/-- At the turn of a later task, every assignment counts. -/
theorem assignedBefore_eq (h : Planned lower pass seats done progress)
    (hlater : ∀ t ∈ done, t.taskId < task.taskId) (agent : String) :
    assignedBefore progress.plan task.taskId agent = assigned progress.plan agent := by
  refine List.countP_congr fun a ha => ?_
  obtain ⟨t, ht, heq⟩ := List.mem_map.mp (h.assigned_mem ha)
  rw [decide_eq_true (heq ▸ hlater t ht), Bool.true_and]

theorem spare_iff (h : Planned lower pass seats done progress)
    (hlater : ∀ t ∈ done, t.taskId < task.taskId) (seat : DispatchCandidate) :
    hasSpare pass progress.planned seat = true ↔ SpareAt pass progress.plan task.taskId seat := by
  unfold hasSpare SpareAt
  rw [h.assignedBefore_eq hlater, h.counted, Bool.not_eq_true', decide_eq_false_iff_not, Int.not_le]
  push_cast
  rfl

/-- A task that is skipped, for want of a candidate only where no seat has room. -/
theorem skip (h : Planned lower pass seats done progress)
    (hlater : ∀ t ∈ done, t.taskId < task.taskId) {reason : SkipReason}
    (hwanting : reason = .noCandidate →
      ∀ seat ∈ seats, ¬ SpareAt pass progress.plan task.taskId seat) :
    Planned lower pass seats (done ++ [task]) (progress.skip task reason) := by
  have hnone : progress.plan.skipped.get? task.taskId = none := by
    by_contra hsome
    obtain ⟨reason', hreason'⟩ := Option.ne_none_iff_exists'.mp hsome
    obtain ⟨t, ht, heq⟩ := List.mem_map.mp (h.skipped_mem hreason')
    exact lt_irrefl _ (heq ▸ hlater t ht)
  constructor
  · show (progress.plan.assignments.map _ ++ (progress.plan.skipped.set task.taskId reason).keys).Perm _
    rw [Dict.keys_set_of_none hnone, ← List.append_assoc, List.map_append]
    exact h.covered.append_right _
  · exact h.counted
  · exact h.bounded
  · intro taskId hget
    have hget : (progress.plan.skipped.set task.taskId reason).get? taskId = some .noCandidate := hget
    rw [Dict.get?_set] at hget
    split at hget
    · rename_i heq
      rw [← heq]
      exact hwanting (Option.some.inj hget)
    · exact h.wanting taskId hget
  · intro a ha
    obtain ⟨seat, hseat, howner, hwake, hbest⟩ := h.best a ha
    exact ⟨seat, hseat, howner, hwake, ⟨hbest.spare, hbest.maximal⟩⟩

/-- A task that is assigned to a seat that is the best at its turn. -/
theorem assign (h : Planned lower pass seats done progress)
    (hlater : ∀ t ∈ done, t.taskId < task.taskId)
    (hagents : (seats.map DispatchCandidate.agent).Nodup) {winner : DispatchCandidate}
    (hwinner : winner ∈ seats) (hbest : Best lower pass seats progress.plan task.taskId winner)
    (score : Nat) (reasons : List String) :
    Planned lower pass seats (done ++ [task])
      { plan := { progress.plan with
          assignments := progress.plan.assignments ++
            [⟨task.taskId, winner.agent, winner.wakeIdentity, score, reasons⟩] }
        planned := progress.planned.set winner.agent
          ((progress.planned.get? winner.agent).getD 0 + 1) } := by
  set given : DispatchAssignment :=
    ⟨task.taskId, winner.agent, winner.wakeIdentity, score, reasons⟩ with hgiven
  set plan : DispatchPlan :=
    { progress.plan with assignments := progress.plan.assignments ++ [given] } with hplan
  -- the turns of the tasks so far do not see the new assignment
  have hbefore : ∀ taskId, taskId ≤ task.taskId → ∀ seat,
      SpareAt pass plan taskId seat ↔ SpareAt pass progress.plan taskId seat := by
    intro taskId hle seat
    unfold SpareAt
    rw [assignedBefore_append hle]
  have hturn : ∀ {taskId seat}, taskId ≤ task.taskId → Best lower pass seats progress.plan taskId seat →
      Best lower pass seats plan taskId seat := fun hle hb =>
    ⟨(hbefore _ hle _).mpr hb.spare, fun other hother hspare =>
      hb.maximal other hother ((hbefore _ hle _).mp hspare)⟩
  have hcount : ∀ agent, assigned plan agent =
      assigned progress.plan agent + if winner.agent = agent then 1 else 0 := by
    intro agent
    unfold assigned
    rw [List.countP_append, List.countP_singleton]
    simp only [decide_eq_true_eq, hgiven]
  have hdone : ∀ {taskId}, taskId ∈ done.map DispatchTask.taskId → taskId ≤ task.taskId := by
    intro taskId hmem
    obtain ⟨t, ht, rfl⟩ := List.mem_map.mp hmem
    exact (hlater t ht).le
  constructor
  · show ((progress.plan.assignments ++ [given]).map _ ++ progress.plan.skipped.keys).Perm _
    rw [List.map_append, List.map_append, List.append_assoc]
    exact (List.perm_append_comm.append_left _).trans
      ((List.append_assoc _ _ _).symm ▸ h.covered.append_right _)
  · intro agent
    rw [hcount]
    show ((progress.planned.set _ _).get? agent).getD 0 = _
    rw [Dict.get?_set]
    split
    · rename_i heq
      rw [Option.getD_some, h.counted, heq]
    · exact h.counted agent
  · intro seat hseat hpos
    rw [hcount] at hpos ⊢
    split at hpos
    · rename_i heq
      have hsame : seat = winner := (List.inj_on_of_nodup_map hagents hseat hwinner heq.symm)
      have hroom := hbest.spare
      unfold SpareAt at hroom
      rw [h.assignedBefore_eq hlater] at hroom
      subst hsame
      rw [if_pos rfl]
      push_cast
      omega
    · rename_i hne
      rw [if_neg hne]
      exact h.bounded seat hseat hpos
  · intro taskId hget seat hseat hspare
    have hle := hdone (h.skipped_mem hget)
    exact h.wanting taskId hget seat hseat ((hbefore taskId hle seat).mp hspare)
  · intro a ha
    rcases List.mem_append.mp ha with hold | hnew
    · obtain ⟨seat, hseat, howner, hwake, hb⟩ := h.best a hold
      exact ⟨seat, hseat, howner, hwake, hturn (hdone (h.assigned_mem hold)) hb⟩
    · rw [List.mem_singleton.mp hnew]
      exact ⟨winner, hwinner, rfl, rfl, hturn le_rfl hbest⟩

/-- Before the first task. -/
theorem start : Planned lower pass seats [] {} where
  covered := .nil
  counted _ := rfl
  bounded _ _ h := absurd h (Nat.lt_irrefl 0)
  wanting _ h := nomatch h
  best _ h := nomatch h

variable [Builtins]

/-- One task of the pass. -/
theorem step (h : Planned lower pass seats done progress)
    (hlater : ∀ t ∈ done, t.taskId < task.taskId)
    (hagents : (seats.map DispatchCandidate.agent).Nodup)
    (hnumber : ∀ seat ∈ seats, (seat.idle pass.now).isNaN = false)
    (hordered : (sortedBy (precedes pass.now) id seats).Pairwise (RanksAtLeast pass.now))
    {next : Progress}
    (hstep : planTask lower pass (sortedBy (precedes pass.now) id seats) progress task = some next) :
    Planned lower pass seats (done ++ [task]) next := by
  unfold planTask at hstep
  split at hstep
  · cases hstep
    refine h.skip hlater fun heq => ?_
    split at heq <;> cases heq
  split at hstep
  · cases hstep
    exact h.skip hlater fun heq => by cases heq
  split at hstep
  · obtain ⟨age, -, hstep⟩ := Option.bind_eq_some_iff.mp hstep
    obtain ⟨ttl, -, hstep⟩ := Option.bind_eq_some_iff.mp hstep
    cases hstep
    exact h.skip hlater fun heq => by cases heq
  split at hstep
  · rename_i hscan
    cases hstep
    refine h.skip hlater fun _ seat hseat hspare => ?_
    have hfull := FirstBest.scan_none.mp hscan seat ((mem_sortedBy _).mpr hseat)
    rw [(h.spare_iff hlater seat).mpr hspare] at hfull
    cases hfull
  · rename_i score winner hscan
    obtain ⟨hmem, hspare, hscore, hmaximal⟩ := FirstBest.scan_some hordered hscan
    obtain ⟨reasons, -, rfl⟩ := Option.map_eq_some_iff.mp hstep
    have hwinner := (mem_sortedBy _).mp hmem
    refine h.assign hlater hagents hwinner ⟨(h.spare_iff hlater winner).mp hspare, ?_⟩ score reasons
    intro other hother hroom
    rcases hmaximal other ((mem_sortedBy _).mpr hother) ((h.spare_iff hlater other).mpr hroom) with
      hless | ⟨heq, rfl | hrank⟩
    · exact .inl hless
    · exact .inr ⟨rfl, (RanksAtLeast.total (hnumber other hother) (hnumber other hother)).elim id id⟩
    · exact .inr ⟨heq, hrank⟩

/-- The tasks of the pass, in order of their ids. -/
theorem run (hagents : (seats.map DispatchCandidate.agent).Nodup)
    (hnumber : ∀ seat ∈ seats, (seat.idle pass.now).isNaN = false)
    (hordered : (sortedBy (precedes pass.now) id seats).Pairwise (RanksAtLeast pass.now))
    {rest : List DispatchTask} (h : Planned lower pass seats done progress)
    (hids : (done ++ rest).Pairwise fun a b => a.taskId < b.taskId) {last : Progress}
    (hrun : rest.foldlM (planTask lower pass (sortedBy (precedes pass.now) id seats)) progress =
      some last) : Planned lower pass seats (done ++ rest) last := by
  induction rest generalizing done progress with
  | nil =>
    cases hrun
    rw [List.append_nil]
    exact h
  | cons task rest ih =>
    obtain ⟨next, hnext, hrun⟩ := Option.bind_eq_some_iff.mp hrun
    have hlater : ∀ t ∈ done, t.taskId < task.taskId := fun t ht =>
      (List.pairwise_append.mp hids).2.2 t ht task List.mem_cons_self
    rw [List.append_cons] at hids ⊢
    exact ih (h.step hlater hagents hnumber hordered hnext) hids hrun

end Planned

end Plan

/-! ## Every time is finite -/

/-- Every idle time and every age of a snapshot is finite, and so is the TTL. -/
structure Timed (pass : Pass) : Prop where
  tasks : ∃ tasks, normalizeTasks pass.tasks = some tasks ∧
    ∀ task ∈ tasks, (pass.now - task.updatedAt).isFinite = true
  cards : ∃ seats, normalizeCards pass = some seats ∧
    ∀ seat ∈ seats, (seat.idle pass.now).isFinite = true
  ttl : pass.suggestionTtl.isFinite = true

section Timed

variable (lower : String → String) {pass : Pass}

omit [Builtins] in
theorem truncFloat_some {x : Float} (h : x.isFinite = true) : ∃ n, Json.truncFloat x = some n :=
  ⟨_, if_pos h⟩

omit [Builtins] in
theorem assignmentReasons_some (task : DispatchTask) {winner : DispatchCandidate} (score : Nat)
    (h : (winner.idle pass.now).isFinite = true) :
    ∃ reasons, assignmentReasons pass task score winner = some reasons := by
  obtain ⟨idle, hidle⟩ := truncFloat_some h
  unfold assignmentReasons
  rw [hidle]
  exact ⟨_, rfl⟩

theorem planTask_some {candidates : List DispatchCandidate}
    (hcandidates : ∀ seat ∈ candidates, (seat.idle pass.now).isFinite = true)
    (httl : pass.suggestionTtl.isFinite = true) {task : DispatchTask}
    (htask : (pass.now - task.updatedAt).isFinite = true) (progress : Progress) :
    ∃ next, planTask lower pass candidates progress task = some next := by
  unfold planTask
  split
  · exact ⟨_, rfl⟩
  split
  · exact ⟨_, rfl⟩
  split
  · obtain ⟨age, hage⟩ := truncFloat_some htask
    obtain ⟨ttl, hlimit⟩ := truncFloat_some httl
    rw [hage, hlimit]
    exact ⟨_, rfl⟩
  split
  · exact ⟨_, rfl⟩
  · rename_i score winner hscan
    have hmem := (FirstBest.scan_some (List.pairwise_of_forall fun _ _ => trivial) hscan).1
    obtain ⟨reasons, hreasons⟩ := assignmentReasons_some task score (hcandidates winner hmem)
    rw [hreasons]
    exact ⟨_, rfl⟩

theorem run_some {candidates : List DispatchCandidate}
    (hcandidates : ∀ seat ∈ candidates, (seat.idle pass.now).isFinite = true)
    (httl : pass.suggestionTtl.isFinite = true) {tasks : List DispatchTask}
    (htasks : ∀ task ∈ tasks, (pass.now - task.updatedAt).isFinite = true) (progress : Progress) :
    ∃ last, tasks.foldlM (planTask lower pass candidates) progress = some last := by
  induction tasks generalizing progress with
  | nil => exact ⟨progress, rfl⟩
  | cons task rest ih =>
    obtain ⟨next, hnext⟩ := planTask_some lower hcandidates httl
      (htasks task List.mem_cons_self) progress
    obtain ⟨last, hlast⟩ := ih (fun t ht => htasks t (List.mem_cons_of_mem _ ht)) next
    exact ⟨last, Option.bind_eq_some_iff.mpr ⟨next, hnext, hlast⟩⟩

/-- Where every time is finite, a pass gives a plan. -/
theorem planDispatches_some (h : Timed pass) : ∃ plan, planDispatches lower pass = some plan := by
  obtain ⟨tasks, htasks, hages⟩ := h.tasks
  obtain ⟨seats, hseats, hidle⟩ := h.cards
  have hranked : rankedCandidates pass = some (sortedBy (precedes pass.now) id seats) := by
    unfold rankedCandidates
    rw [hseats, Option.map_some]
  have heligible : eligibleTasks pass = some (sortedBy (fun a b => decide (a < b)) DispatchTask.taskId
      (tasks.filter fun task => decide (task.taskId ∈ pass.readyIds))) := by
    unfold eligibleTasks
    rw [htasks, Option.map_some]
  obtain ⟨last, hlast⟩ := run_some lower
    (fun seat hseat => hidle seat ((mem_sortedBy _).mp hseat)) h.ttl
    (fun task htask => hages task (List.mem_of_mem_filter ((mem_sortedBy _).mp htask))) {}
  exact ⟨last.plan, Option.bind_eq_some_iff.mpr ⟨_, hranked,
    Option.bind_eq_some_iff.mpr ⟨_, heligible, Option.bind_eq_some_iff.mpr ⟨last, hlast, rfl⟩⟩⟩⟩

end Timed

/-! ## The plan of a pass -/

/-- The ready open tasks of a snapshot. -/
def readyTasks (pass : Pass) (tasks : List DispatchTask) : List String :=
  (tasks.filter fun task => decide (task.taskId ∈ pass.readyIds)).map DispatchTask.taskId

/-- What a plan says about the tasks and the seats it was made for. -/
structure Faithful (lower : String → String) (pass : Pass) (tasks : List DispatchTask)
    (seats : List DispatchCandidate) (plan : DispatchPlan) : Prop where
  covered : (plan.assignments.map DispatchAssignment.taskId ++ plan.skipped.keys).Perm
    (readyTasks pass tasks)
  once : (plan.assignments.map DispatchAssignment.taskId ++ plan.skipped.keys).Nodup
  claims : ∀ seat ∈ seats, seat.activeClaims = (claimOwners pass).count seat.agent
  bounded : ∀ seat ∈ seats, 0 < assigned plan seat.agent →
    (seat.activeClaims + assigned plan seat.agent : Int) ≤ pass.capacity
  wanting : ∀ taskId, plan.skipped.get? taskId = some .noCandidate →
    ∀ seat ∈ seats, ¬ SpareAt pass plan taskId seat
  best : ∀ a ∈ plan.assignments, ∃ seat ∈ seats, seat.agent = a.owner ∧
    seat.wakeIdentity = a.wakeIdentity ∧ Best lower pass seats plan a.taskId seat

theorem normalizeCards_claims {pass : Pass} {seats : List DispatchCandidate}
    (h : normalizeCards pass = some seats) {seat : DispatchCandidate} (hseat : seat ∈ seats) :
    seat.activeClaims = (claimOwners pass).count seat.agent := by
  obtain ⟨values, hvalues, rfl⟩ := Option.map_eq_some_iff.mp h
  obtain ⟨found, hfound, rfl⟩ := List.mem_filterMap.mp hseat
  obtain ⟨raw, -, hraw⟩ := mapM_mem hvalues hfound
  unfold normalizeCard at hraw
  dsimp only at hraw
  split at hraw
  · cases hraw
  split at hraw
  · cases hraw
  · cases hraw
  · obtain ⟨advertisedAt, -, hraw⟩ := Option.bind_eq_some_iff.mp hraw
    cases hraw
    exact getD_tally _ _

theorem planDispatches_faithful {lower : String → String} {pass : Pass} (hclocked : Clocked pass)
    (htasks : DistinctTasks pass) (hcards : OneCardEach pass) {plan : DispatchPlan}
    (h : planDispatches lower pass = some plan) :
    ∃ tasks seats, normalizeTasks pass.tasks = some tasks ∧ normalizeCards pass = some seats ∧
      Faithful lower pass tasks seats plan := by
  obtain ⟨candidates, hranked, h⟩ := Option.bind_eq_some_iff.mp h
  obtain ⟨eligible, heligible, h⟩ := Option.bind_eq_some_iff.mp h
  obtain ⟨last, hlast, h⟩ := Option.bind_eq_some_iff.mp h
  cases h
  obtain ⟨seats, hseats, rfl⟩ := Option.map_eq_some_iff.mp hranked
  obtain ⟨tasks, hopen, rfl⟩ := Option.map_eq_some_iff.mp heligible
  have hperm := sortedBy_perm (fun a b : String => decide (a < b)) DispatchTask.taskId
    (tasks.filter fun task => decide (task.taskId ∈ pass.readyIds))
  have hdistinct : (readyTasks pass tasks).Nodup :=
    (htasks tasks hopen).sublist (List.filter_sublist.map _)
  have hids := (sortedIds_ordered (tasks.filter fun task => decide (task.taskId ∈ pass.readyIds))).and
    (List.pairwise_map.mp ((hperm.map _).nodup_iff.mpr hdistinct))
  have hplanned := Planned.run (hcards seats hseats) (hclocked seats hseats)
    (ranked_ordered hclocked hseats) Planned.start
    (show ([] ++ _).Pairwise _ from hids.imp fun h => lt_of_le_of_ne h.1 h.2) hlast
  rw [List.nil_append] at hplanned
  have hcovered := hplanned.covered.trans (hperm.map _)
  exact ⟨tasks, seats, hopen, hseats, hcovered, hcovered.nodup_iff.mpr hdistinct,
    fun seat hseat => normalizeCards_claims hseats hseat, hplanned.bounded, hplanned.wanting,
    hplanned.best⟩

/-- A pass over distinct tasks and one card for each seat: the order of the snapshot does not
matter, a plan comes out where the times are finite, and it is faithful. -/
theorem dispatch_plan_spec (lower : String → String) (pass : Pass) (hclocked : Clocked pass)
    (htasks : DistinctTasks pass) (hcards : OneCardEach pass) :
    (∀ pass', pass.Reordered pass' → planDispatches lower pass = planDispatches lower pass') ∧
      (Timed pass → ∃ plan, planDispatches lower pass = some plan) ∧
      ∀ plan, planDispatches lower pass = some plan →
        ∃ tasks seats, normalizeTasks pass.tasks = some tasks ∧ normalizeCards pass = some seats ∧
          Faithful lower pass tasks seats plan :=
  ⟨fun _ h => planDispatches_reordered lower h hclocked htasks hcards, planDispatches_some lower,
    fun _ h => planDispatches_faithful hclocked htasks hcards h⟩

/-! Two ready tasks and two seats with room for one task each. -/

section TwoSeats

def seatCard (agent skill : String) : Members :=
  [("agent", .str agent), ("skills", .arr [.str skill]), ("advertised_at", .int 40)]

def openTask (taskId : String) : Members :=
  [("task_id", .str taskId), ("status", .str "open"), ("project", .str "p")]

def twoSeats : Pass where
  tasks := [openTask "fix-docs", openTask "add-docs"]
  readyIds := ["add-docs", "fix-docs"]
  claims := []
  cards := [seatCard "p/a" "code", seatCard "p/b" "docs"]
  online := ["p/a", "p/b"]
  wakeCapabilities := ⟨[("p/a", "direct"), ("p/b", "direct")], by decide⟩
  project := "p"
  now := 100

omit [Builtins] in
theorem dispatch_plan_spec_two :
    letI := Builtins.ascii
    ∃ plan tasks seats, planDispatches id twoSeats = some plan ∧
      plan.assignments.map (fun a => (a.taskId, a.owner)) =
        [("add-docs", "p/b"), ("fix-docs", "p/a")] ∧
      Faithful id twoSeats tasks seats plan := by
  let _ : Builtins := Builtins.ascii
  have hclocked : Clocked twoSeats := by
    intro seats hseats seat hseat
    have hall : ((normalizeCards twoSeats).getD []).all
        (fun seat => !(seat.idle twoSeats.now).isNaN) = true := by decide +kernel
    rw [hseats, Option.getD_some, List.all_eq_true] at hall
    simpa using hall seat hseat
  have hcards : OneCardEach twoSeats := by
    intro seats hseats
    have hnodup : (((normalizeCards twoSeats).getD []).map DispatchCandidate.agent).Nodup := by
      decide +kernel
    rw [hseats, Option.getD_some] at hnodup
    exact hnodup
  have htasks : DistinctTasks twoSeats := by
    intro tasks hopen
    have hnodup : (((normalizeTasks twoSeats.tasks).getD []).map DispatchTask.taskId).Nodup := by
      decide +kernel
    rw [hopen, Option.getD_some] at hnodup
    exact hnodup
  obtain ⟨plan, hplan⟩ : ∃ plan, planDispatches id twoSeats = some plan :=
    Option.isSome_iff_exists.mp (by decide +kernel)
  obtain ⟨tasks, seats, -, -, hfaithful⟩ :=
    (dispatch_plan_spec id twoSeats hclocked htasks hcards).2.2 plan hplan
  refine ⟨plan, tasks, seats, hplan, ?_, hfaithful⟩
  have hpairs : ((planDispatches id twoSeats).map fun plan =>
      plan.assignments.map fun a => (a.taskId, a.owner)) =
        some [("add-docs", "p/b"), ("fix-docs", "p/a")] := by decide +kernel
  rw [hplan, Option.map_some] at hpairs
  exact Option.some.inj hpairs

end TwoSeats

end ReadyDispatch

end SynapseChannel
