import SynapseChannel.Core.VerdictRecords

/-!
# Core — VerdictStaleness

The fold of the recorded evidence, verdict and correction notes: which
records count, the state of every counted verdict, and the gate's
decision on a subject. An object is a namespace and a hash, so the
decision on a subject reads the records of its own namespace only.
-/

namespace SynapseChannel

open Py VerdictRecords

/-- Deepest verdict-on-verdict chain followed before a verdict is
unbounded. -/
def maxDependencyDepth : Nat := 32

/-- The derived states. -/
inductive Staleness where
  | fresh
  | stale
  | inputsUnrecorded
  | unbounded
deriving DecidableEq

/-- An object's identity: its namespace and hash. -/
abbrev ObjectKey := String × String

/-- One progress note as the log holds it. -/
structure RecordedNote where
  seq : Int
  author : String
  kind : String
  text : String
deriving DecidableEq

/-- Who may write and correct records, by namespace and seat. -/
structure CorrectionPolicy where
  mayWrite : String → String → Bool
  mayCorrect : String → String → Bool

/-- The derived state of one recorded verdict. -/
structure VerdictState where
  seq : Int
  reviewer : String
  record : VerdictRecord
  state : Staleness
  unacknowledgedCorrections : List String

/-- Whether a subject may be approved, and why not when it may not. -/
structure GateDecision where
  «namespace» : String
  subjectSha256 : String
  passed : Bool
  reasons : List String

/-- Counted records and derived verdict states of one log. -/
structure VerdictFold where
  declarers : Dict ObjectKey (List String) := Dict.empty
  members : Dict ObjectKey (List String) := Dict.empty
  corrections : Dict ObjectKey (Dict String CorrectionRecord) := Dict.empty
  refused : List (Int × String) := []
  verdicts : List VerdictState := []

namespace VerdictFold

/-- Counted corrections of an object, by correction id. -/
def correctionsOf (fold : VerdictFold) (key : ObjectKey) : Dict String CorrectionRecord :=
  (fold.corrections.get? key).getD Dict.empty

def declarersOf (fold : VerdictFold) (key : ObjectKey) : List String :=
  (fold.declarers.get? key).getD []

def membersOf (fold : VerdictFold) (key : ObjectKey) : List String :=
  (fold.members.get? key).getD []

def refuse (fold : VerdictFold) (note : RecordedNote) (reason : String) : VerdictFold :=
  { fold with refused := fold.refused ++ [(note.seq, reason)] }

end VerdictFold

variable [Builtins]

/-- The notes of one kind in sequence order. -/
def sortedKind (notes : List RecordedNote) (kind : String) : List RecordedNote :=
  sortedBy (fun a b => decide (a < b)) RecordedNote.seq
    (notes.filter fun note => decide (note.kind = kind))

/-- Keep verdict-family notes whose body parses, and refuse the others. -/
def parsedNotes : List RecordedNote →
    Except RecordFailure (List RecordedNote × List (Int × String))
  | [] => .ok ([], [])
  | note :: rest =>
    match parseBody note.kind note.text with
    | none => parsedNotes rest
    | some (.error .unhashable) => .error .unhashable
    | some (.error (.malformed _)) => do
      let (kept, refused) ← parsedNotes rest
      return (kept, (note.seq, "malformed-record") :: refused)
    | some (.ok _) => do
      let (kept, refused) ← parsedNotes rest
      return (note :: kept, refused)

/-- Count one declaration. The notes read here parsed before, so the other
branch is never taken. -/
def countEvidence (policy : CorrectionPolicy) (fold : VerdictFold) (note : RecordedNote) :
    VerdictFold :=
  match parseEvidence note.text with
  | .error _ => fold
  | .ok record =>
    if !policy.mayWrite record.namespace note.author then
      fold.refuse note "evidence-not-authorised"
    else
      let key := (record.namespace, record.sha256)
      let fold := { fold with
        declarers := fold.declarers.set key ((fold.declarersOf key).insert note.author) }
      if record.members = [] then fold
      else { fold with members := fold.members.set key (fold.membersOf key ∪ record.members) }

/-- Count one correction, once every declaration is counted. -/
def countCorrection (policy : CorrectionPolicy) (fold : VerdictFold) (note : RecordedNote) :
    VerdictFold :=
  match parseCorrection note.text with
  | .error _ => fold
  | .ok record =>
    let key := (record.namespace, record.corrects)
    let declared := decide (note.author ∈ fold.declarersOf key)
    let allowed := fold.declarers.contains key && policy.mayCorrect record.namespace note.author
    if !(declared || allowed) then fold.refuse note "correction-not-authorised"
    else { fold with corrections :=
      fold.corrections.set key ((fold.correctionsOf key).set (correctionId record) record) }

/-- The verdicts that count so far, with the notes they stand in. -/
abbrev Counted := List (RecordedNote × VerdictRecord)

/-- Count one verdict. -/
def countVerdict (policy : CorrectionPolicy) (acc : VerdictFold × Counted) (note : RecordedNote) :
    VerdictFold × Counted :=
  match parseVerdict note.text with
  | .error _ => acc
  | .ok record =>
    if !policy.mayWrite record.namespace note.author then
      (acc.1.refuse note "verdict-not-authorised", acc.2)
    else (acc.1, acc.2 ++ [(note, record)])

/-- Keep one more entry when its sequence is its reviewer's highest so far;
entries of one sequence stay together. -/
def keepLatest {α : Type} (sequence : α → Int) (latest : Dict String (List α))
    (entry : String × α) : Dict String (List α) :=
  match latest.get? entry.1 with
  | some (first :: more) =>
    if sequence first < sequence entry.2 then latest.set entry.1 [entry.2]
    else if sequence entry.2 = sequence first then
      latest.set entry.1 (first :: more ++ [entry.2])
    else latest
  | _ => latest.set entry.1 [entry.2]

/-- Each reviewer's verdicts at its highest sequence. -/
def latestByReviewer (entries : List (String × VerdictRecord)) :
    Dict String (List VerdictRecord) :=
  entries.foldl (keepLatest VerdictRecord.reviewerSequence) Dict.empty

/-- The counted verdicts of every object. -/
def bySubject (counted : Counted) : Dict ObjectKey (List (String × VerdictRecord)) :=
  counted.foldl (fun subjects entry =>
    let key := (entry.2.namespace, entry.2.subjectSha256)
    subjects.set key ((subjects.get? key).getD [] ++ [(entry.1.author, entry.2)])) Dict.empty

/-- The latest verdicts on every object. -/
abbrev Upstream := Dict ObjectKey (List VerdictRecord)

def upstreamOf (counted : Counted) : Upstream :=
  (bySubject counted).filterMapValues fun entries => some (latestByReviewer entries).values.flatten

/-- What a frontier leads to: the members of its manifests and the inputs of
the latest verdicts on its objects. -/
def following (fold : VerdictFold) (upstream : Upstream) (project : String)
    (frontier : List ObjectKey) : List ObjectKey :=
  frontier.foldl (fun keys key =>
    let keys := keys ∪ (fold.membersOf key).map (project, ·)
    ((upstream.get? key).getD []).foldl (fun keys verdict =>
      keys ∪ verdict.inputs.map (project, ·)) keys) []

/-- Follow the chain for the levels that are left. -/
def follow (fold : VerdictFold) (upstream : Upstream) (project : String) :
    Nat → List ObjectKey → List ObjectKey → List ObjectKey × Bool
  | _, seen, [] => (seen, true)
  | 0, seen, _ => (seen, false)
  | levels + 1, seen, frontier =>
    let seen := seen ∪ frontier
    let next := (following fold upstream project frontier).filter (· ∉ seen)
    follow fold upstream project levels seen next

/-- Every object a verdict depends on, and whether the chain stayed
bounded. -/
def dependencies (fold : VerdictFold) (record : VerdictRecord) (upstream : Upstream) :
    List ObjectKey × Bool :=
  follow fold upstream record.namespace (maxDependencyDepth + 1) []
    (record.inputs.map (record.namespace, ·)).dedup

def deriveState (fold : VerdictFold) (note : RecordedNote) (record : VerdictRecord)
    (upstream : Upstream) : VerdictState :=
  let (keys, bounded) := dependencies fold record upstream
  let openCorrections := sortedBy (fun a b => decide (a < b)) id <|
    keys.flatMap fun key =>
      (fold.correctionsOf key).keys.filter (· ∉ record.acknowledgedCorrections)
  let state :=
    if !bounded then .unbounded
    else if openCorrections ≠ [] then .stale
    else if record.outcome = "accepted" ∧ record.inputs = [] then .inputsUnrecorded
    else .fresh
  { seq := note.seq, reviewer := note.author, record, state,
    unacknowledgedCorrections := openCorrections }

/-- Refusals in the order of their tuples. -/
def sortRefused (refused : List (Int × String)) : List (Int × String) :=
  sortedBy (fun a b => decide (a.1 < b.1) || (decide (a.1 = b.1) && decide (a.2 < b.2))) id refused

/-- Count the records of notes that parse. -/
def countNotes (policy : CorrectionPolicy) (kept : List RecordedNote)
    (refused : List (Int × String)) : VerdictFold × Counted :=
  let fold := (sortedKind kept evidenceNoteKind).foldl (countEvidence policy) { refused }
  let fold := (sortedKind kept correctionNoteKind).foldl (countCorrection policy) fold
  (sortedKind kept verdictNoteKind).foldl (countVerdict policy) (fold, [])

/-- Derive the state of every counted verdict. -/
def deriveStates (acc : VerdictFold × Counted) : VerdictFold :=
  let (fold, counted) := acc
  let upstream := upstreamOf counted
  { fold with
    verdicts := counted.map fun entry => deriveState fold entry.1 entry.2 upstream
    refused := sortRefused fold.refused }

/-- Count authorised records and derive every verdict's state:
declarations before corrections and corrections before verdicts. -/
def foldVerdicts (notes : List RecordedNote) (policy : CorrectionPolicy) :
    Except RecordFailure VerdictFold := do
  let (kept, refused) ← parsedNotes notes
  return deriveStates (countNotes policy kept refused)

/-- Why one reviewer's latest verdict blocks the gate. -/
def verdictReason (state : VerdictState) (allowUnrecordedInputs : Bool) : Option String :=
  if state.record.outcome ≠ "accepted" then some state.record.outcome
  else match state.state with
    | .stale =>
      some ("stale input, unacknowledged corrections " ++
        join ", " state.unacknowledgedCorrections)
    | .unbounded => some s!"dependency chain exceeds {maxDependencyDepth} levels"
    | .inputsUnrecorded =>
      if allowUnrecordedInputs then none else some "accepted without recorded inputs"
    | .fresh => none

/-- Each reviewer's latest states on a subject. -/
def latestStates (fold : VerdictFold) (project subjectSha256 : String) :
    Dict String (List VerdictState) :=
  (fold.verdicts.filter fun state =>
      decide ((state.record.namespace, state.record.subjectSha256) = (project, subjectSha256))).foldl
    (fun latest state =>
      keepLatest (fun s => s.record.reviewerSequence) latest (state.reviewer, state)) Dict.empty

/-- Why one reviewer's latest states block the gate. -/
def reviewerReason (allowUnrecordedInputs : Bool) (entry : String × List VerdictState) :
    Option String :=
  let (reviewer, states) := entry
  if (states.map VerdictState.record).dedup.length > 1 then
    some s!"{reviewer}: conflicting verdicts at one sequence"
  else
    match states with
    | first :: _ => (verdictReason first allowUnrecordedInputs).map fun reason =>
      s!"{reviewer}: {reason}"
    | [] => none

/-- Decide whether an object may be approved: every reviewer's latest
verdict is accepted and fresh, and there is one. -/
def gateDecision (fold : VerdictFold) (project subjectSha256 : String)
    (allowUnrecordedInputs : Bool) : GateDecision :=
  let latest := latestStates fold project subjectSha256
  if latest.items = [] then ⟨project, subjectSha256, false, ["no verdict recorded"]⟩
  else
    let reviewers := sortedBy (fun a b => decide (a < b)) Prod.fst latest.items
    let reasons := reviewers.filterMap (reviewerReason allowUnrecordedInputs)
    ⟨project, subjectSha256, decide (reasons = []), reasons⟩

end SynapseChannel
