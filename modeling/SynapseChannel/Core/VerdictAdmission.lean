import SynapseChannel.Core.VerdictLocality
import SynapseChannel.Core.Journal

/-!
# Core — VerdictAdmission

Progress posts on one hub. A post is checked against the notes that are
journalled when it arrives, and its note is appended later, behind the
state actor: other posts may come in between. A record that was admitted
counts wherever it lands. An approval passes the gate over the notes
before it as long as no record of the approver's namespace was appended
after its check.
-/

namespace SynapseChannel

open Py VerdictRecords

variable [Builtins]

/-! ## Approval notes -/

def approvalNoteKind : String := "approval"

/-- `str.split` at runs of whitespace. -/
def splitBlank (s : String) : List String :=
  ((s.toList.splitOnP isSpace).filter (· ≠ [])).map String.ofList

/-- `str.partition`: what comes before the first separator, whether there is
one, and what comes after it. -/
def partition (s sep : String) : String × Bool × String :=
  let cs := s.toList
  match (List.range (cs.length + 1)).find? fun i => sep.toList.isPrefixOf (cs.drop i) with
  | some i => (String.ofList (cs.take i), true, String.ofList (cs.drop (i + sep.toList.length)))
  | none => (s, false, "")

/-- The fields of an approval note. -/
structure ApprovalFields where
  subject : String
  state : String
  reason : String
deriving DecidableEq

/-- The recognised approval states. -/
def approvalStates : List String := ["requested", "approved", "rejected"]

/-- Parse a canonical approval-note body into its fields. -/
def parseApprovalNote (text : String) : Option ApprovalFields :=
  let (head, _, reason) := partition text " :: "
  match splitBlank head with
  | [] => none
  | first :: tokens =>
    if first ≠ "approval" then none
    else
      let pairs : Dict String String := tokens.foldl (fun pairs token =>
        let (key, separator, value) := partition token "="
        if separator then pairs.set key value else pairs) Dict.empty
      let subject := strip ((pairs.get? "subject").getD "")
      let state := strip ((pairs.get? "state").getD "")
      if subject = "" ∨ state ∉ approvalStates then none
      else some { subject, state, reason := strip reason }

/-! ## The hub's policy -/

/-- Hub configuration for verdict records and the approval gate. -/
structure VerdictHubPolicy where
  verdictAuthority : Dict String (List String) := Dict.empty
  gateEnabled : Bool := true
  allowUnrecordedInputs : Bool := false

/-- The project namespace of a seat: the part of its name before the first
slash. -/
def approverNamespace (seat : String) : String :=
  String.ofList (seat.toList.takeWhile fun c => decide (c ≠ '/'))

/-- The declaration and correction rules a hub enforces. -/
def VerdictHubPolicy.correctionPolicy (policy : VerdictHubPolicy) : CorrectionPolicy :=
  let allowed (project seat : String) : Bool :=
    decide (seat ∈ (policy.verdictAuthority.get? project).getD [])
  { mayWrite := fun project seat => decide (approverNamespace seat = project) || allowed project seat
    mayCorrect := allowed }

/-- The field of a note as `str(payload.get(name) or "")`. -/
def noteField (payload : Members) (name : String) : String :=
  ((Members.get payload name).or (.str "")).toStr

/-- The note of a journal row. -/
def noteOf (event : StoredEvent) : RecordedNote where
  seq := event.seq
  author := noteField event.payload "author"
  kind := noteField event.payload "kind"
  text := noteField event.payload "text"

/-- Every evidence, verdict and correction note in the journal, in order. -/
def recordedNotes (events : List StoredEvent) : List RecordedNote :=
  ((events.filter fun event => decide (event.kind = EventKind.ledgerProgress)).map noteOf).filter
    fun note => decide (note.kind ∈ verdictRecordKinds)

/-- A note with the sequence after the last one read. -/
def candidate (notes : List RecordedNote) (author kind text : String) : RecordedNote where
  seq := ((notes.map RecordedNote.seq).max?.getD 0) + 1
  author := author
  kind := kind
  text := text

/-- Why a new verdict-family note must be refused, or `none` to admit it. -/
def admissionRefusal (notes : List RecordedNote) (policy : VerdictHubPolicy)
    (author kind text : String) : Except RecordFailure (Option String) :=
  match validateRecordBody kind text with
  | .error (.malformed message) => .ok (some s!"malformed {kind} record: {message}")
  | .error .unhashable => .error .unhashable
  | .ok () => do
    let new := candidate notes author kind text
    let fold ← foldVerdicts (notes ++ [new]) policy.correctionPolicy
    return (fold.refused.find? fun entry => decide (entry.1 = new.seq)).map Prod.snd

/-- The SHA-256 an approval subject names. -/
def subjectDigest (subject : String) : Option String :=
  let cs := (strip subject).toList
  let hex := if "sha256:".toList.isPrefixOf cs then cs.drop 7 else cs
  if isSha256 (String.ofList hex) then some (String.ofList hex) else none

/-- The failed gate for an approver, or `none`. -/
def approvalRefusal (notes : List RecordedNote) (policy : VerdictHubPolicy)
    (subject approver : String) : Except RecordFailure (Option GateDecision) :=
  match subjectDigest subject with
  | none => .ok none
  | some digest =>
    if !policy.gateEnabled then .ok none
    else do
      let fold ← foldVerdicts notes policy.correctionPolicy
      let decision := gateDecision fold (approverNamespace approver) digest policy.allowUnrecordedInputs
      return if decision.passed then none else some decision

/-! ## The check of a post -/

def noJournalRefusal : String :=
  "evidence, verdict and correction records need a durable journal"

/-- What the check of a post returns, and the audit rows it appends. -/
structure ProgressCheck where
  refusal : Option String
  recorded : List RecordedNote
  rows : List (String × Members) := []

/-- The row that records a refused note, without its body. -/
def refusedRow (sender taskId kind reason : String) : String × Members :=
  ("verdict_record_refused", [("author", .str sender), ("kind", .str kind),
    ("task_id", .str taskId), ("reason", .str reason)])

/-- Gate one approval; with the gate switched off, the row says what it would
have decided. -/
def approvalGate (notes : List RecordedNote) (policy : VerdictHubPolicy) (sender subject : String) :
    Except RecordFailure (Option String × List (String × Members)) :=
  if policy.gateEnabled then do
    let decision ← approvalRefusal notes policy subject sender
    return (decision.map fun failed => "approval gate: " ++ join "; " failed.reasons, [])
  else if (subjectDigest subject).isSome then do
    let would ← approvalRefusal notes { policy with gateEnabled := true } subject sender
    let reasons := (would.map GateDecision.reasons).getD []
    return (none, [("verdict_gate_bypass", [("author", .str sender), ("subject", .str subject),
      ("gate_would_refuse", .bool would.isSome), ("reasons", .arr (reasons.map .str))])])
  else .ok (none, [])

/-- Why a note must be refused, and the notes read for it. -/
def progressRefusal (policy : VerdictHubPolicy) (journal : Option (List StoredEvent))
    (sender taskId kind text : String) : Except RecordFailure ProgressCheck :=
  if kind ∈ verdictRecordKinds then
    match journal with
    | none => .ok { refusal := some noJournalRefusal, recorded := [] }
    | some events => do
      let notes := recordedNotes events
      let refusal ← admissionRefusal notes policy sender kind text
      return {
        refusal, recorded := notes
        rows := refusal.toList.map (refusedRow sender taskId kind) }
  else if kind = approvalNoteKind then
    match journal, parseApprovalNote text with
    | some events, some fields =>
      if fields.state ≠ "approved" then .ok { refusal := none, recorded := [] }
      else do
        let notes := recordedNotes events
        let (refusal, rows) ← approvalGate notes policy sender fields.subject
        return {
          refusal, recorded := notes
          rows := rows ++ refusal.toList.map (refusedRow sender taskId kind) }
    | _, _ => .ok { refusal := none, recorded := [] }
  else .ok { refusal := none, recorded := [] }

/-! ## The board -/

/-- Allowed kinds of a progress note. -/
def progressKinds : List String :=
  ["note", "blocked", "assessment", "usage", "approval", "evidence", "verdict", "correction"]

/-- The journalled snapshot of a note. -/
def ProgressNote.asDict (note : ProgressNote) : Members :=
  [("task_id", .str note.taskId), ("author", .str note.author), ("kind", .str note.kind),
    ("text", .str note.text), ("posted_at", .float note.postedAt)]

/-- Append a structured progress note, or refuse its kind. -/
def Blackboard.postProgress (board : Blackboard) (taskId author text kind : String) (now : Float) :
    Blackboard × Except String ProgressNote :=
  if kind ∉ progressKinds then (board, .error s!"Unknown progress kind '{kind}'.")
  else
    let note : ProgressNote := { taskId := strip taskId, author, kind, text, postedAt := now }
    (board.append note, .ok note)

/-! ## Posts in progress -/

/-- An append-only journal: its sequences ascend. -/
structure NoteJournal where
  events : List StoredEvent := []
  lastSeq : Int := 0
  ordered : events.Pairwise fun a b => a.seq < b.seq
  bounded : ∀ event ∈ events, event.seq ≤ lastSeq

/-- Append one row under the next sequence. -/
def NoteJournal.append (journal : NoteJournal) (ts : Float) (kind : String) (payload : Members) :
    NoteJournal where
  events := journal.events ++ [⟨journal.lastSeq + 1, ts, kind, payload⟩]
  lastSeq := journal.lastSeq + 1
  ordered := by
    rw [List.pairwise_append]
    refine ⟨journal.ordered, by simp, ?_⟩
    intro earlier hearlier new hnew
    rw [List.mem_singleton.mp hnew]
    have := journal.bounded earlier hearlier
    show earlier.seq < journal.lastSeq + 1
    omega
  bounded := by
    intro event hevent
    rcases List.mem_append.mp hevent with hearlier | hnew
    · have := journal.bounded event hearlier
      omega
    · rw [List.mem_singleton.mp hnew]

def NoteJournal.appendRows (journal : NoteJournal) (ts : Float) (rows : List (String × Members)) :
    NoteJournal :=
  rows.foldl (fun journal row => journal.append ts row.1 row.2) journal

/-- A post whose check passed and whose note is not appended yet. -/
structure ProgressPost where
  sender : String
  taskId : String
  kind : String
  text : String
  /-- The notes the check read. -/
  recorded : List RecordedNote

/-- A hub with its journal, its board and the posts that wait for the state
actor. -/
structure ProgressHub where
  policy : VerdictHubPolicy
  journal : NoteJournal
  board : Blackboard
  posts : List ProgressPost := []

/-- A row of another handler: it is no progress note, or one of a kind that
no gate guards. -/
structure OtherRow where
  kind : String
  payload : Members
  unguarded : kind ≠ EventKind.ledgerProgress ∨
    (noteField payload "kind" ∉ verdictRecordKinds ∧ noteField payload "kind" ≠ approvalNoteKind)

/-- What happens on the hub. -/
inductive PostStep where
  /-- A progress frame arrives and is checked. -/
  | check (sender : String) (data : Members) (ts : Float)
  /-- The actor runs one post that passed its check. -/
  | append (place : Nat) (ts now : Float)
  /-- A post ends without a note: a keyed repeat, a failed write. -/
  | drop (place : Nat)
  | other (ts : Float) (row : OtherRow)

namespace ProgressHub

/-- A hub before any post. -/
def start (policy : VerdictHubPolicy) (journal : NoteJournal) (board : Blackboard) : ProgressHub :=
  { policy, journal, board }

/-- The first half of the handler: the check. -/
def check (hub : ProgressHub) (sender : String) (data : Members) (ts : Float) : ProgressHub :=
  let taskId := noteField data "task_id"
  let text := (((Members.get data "text").or (Members.get data "payload")).or (.str "")).toStr
  let kind := ((Members.get data "kind").or (.str "note")).toStr
  match progressRefusal hub.policy (some hub.journal.events) sender taskId kind text with
  | .error _ => hub
  | .ok checked =>
    let journal := hub.journal.appendRows ts checked.rows
    match checked.refusal with
    | some _ => { hub with journal }
    | none =>
      { hub with
        journal, posts := hub.posts ++ [{ sender, taskId, kind, text, recorded := checked.recorded }] }

/-- The second half of the handler: the note is posted and journalled. -/
def append (hub : ProgressHub) (place : Nat) (ts now : Float) : ProgressHub :=
  match hub.posts[place]? with
  | none => hub
  | some post =>
    let posts := hub.posts.eraseIdx place
    match hub.board.postProgress post.taskId post.sender post.text post.kind now with
    | (board, .ok note) =>
      { hub with
        posts, board, journal := hub.journal.append ts EventKind.ledgerProgress note.asDict }
    | (board, .error _) => { hub with posts, board }

def step (hub : ProgressHub) : PostStep → ProgressHub
  | .check sender data ts => hub.check sender data ts
  | .append place ts now => hub.append place ts now
  | .drop place => { hub with posts := hub.posts.eraseIdx place }
  | .other ts row => { hub with journal := hub.journal.append ts row.kind row.payload }

end ProgressHub

end SynapseChannel
