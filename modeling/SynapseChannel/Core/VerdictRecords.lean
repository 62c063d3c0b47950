import SynapseChannel.Lib.JsonSpelled

/-!
# Core — VerdictRecords

The bodies of evidence, verdict and correction notes: canonical JSON
with a schema tag, parsed strictly before a note enters the log.
-/

namespace SynapseChannel

open Py

def evidenceNoteKind : String := "evidence"

def verdictNoteKind : String := "verdict"

def correctionNoteKind : String := "correction"

/-- Progress-note kinds whose bodies this module owns. -/
def verdictRecordKinds : List String := [evidenceNoteKind, verdictNoteKind, correctionNoteKind]

namespace VerdictRecords

def evidenceSchema : String := "synapse.evidence.v1"

def verdictSchema : String := "synapse.verdict.v1"

def correctionSchema : String := "synapse.correction.v1"

/-- Outcomes a verdict may record. -/
def verdictOutcomes : List String := ["accepted", "rejected", "changes-required"]

def maxManifestMembers : Nat := 100000

def maxVerdictInputs : Nat := 1024

def maxAcknowledgedCorrections : Nat := 1024

def maxReasonBytes : Nat := 2048

end VerdictRecords

open VerdictRecords

/-- Why a body is not a record: its bounds are not met, or a check raises
before it can say so. -/
inductive RecordFailure where
  | malformed (message : String)
  /-- A list or an object as the outcome has no hash to look up. -/
  | unhashable
deriving DecidableEq

/-- A declared recorded object; a manifest also lists its member hashes. -/
structure EvidenceRecord where
  sha256 : String
  «namespace» : String
  members : List String := []
deriving DecidableEq

/-- A reviewer's outcome on a subject and the inputs it was based on. -/
structure VerdictRecord where
  «namespace» : String
  subjectSha256 : String
  outcome : String
  inputs : List String
  acknowledgedCorrections : List String
  author : String
  reviewerSequence : Int
deriving DecidableEq

/-- A declaration that an object of a namespace is superseded. -/
structure CorrectionRecord where
  «namespace» : String
  corrects : String
  replacement : String
  reason : String
deriving DecidableEq

namespace VerdictRecords

variable [Builtins]

/-- Load a canonical body with exactly the fields of a schema, given in
sorted order. -/
def load (text schema : String) (fields : List String) : Except RecordFailure Members :=
  match loads text with
  | none => .error (.malformed "record body is not JSON")
  | some (.obj payload) =>
    let tagged := match Members.get payload "schema" with
      | .str tag => decide (tag = schema)
      | _ => false
    let keys := payload.map Prod.fst
    if !tagged then .error (.malformed s!"record schema must be {schema}")
    else if !(keys.all (· ∈ fields) && fields.all (· ∈ keys)) then
      .error (.malformed ("record fields must be exactly " ++ join ", " fields))
    else if dumpsPlain (.obj payload) ≠ text then
      .error (.malformed "record body is not canonical JSON")
    else .ok payload
  | some _ => .error (.malformed "record body must be an object")

/-- 64 lowercase hexadecimal digits. -/
def isSha256 (value : String) : Bool :=
  let cs := value.toList
  cs.length == 64 && cs.all fun c => c.isDigit || (decide ('a' ≤ c) && decide (c ≤ 'f'))

/-- A namespace: a letter or digit, then up to 127 of letters, digits and
`._-`. -/
def isNamespace (value : String) : Bool :=
  match value.toList with
  | c :: rest =>
    c.isAlphanum && rest.all (fun c => c.isAlphanum || c ∈ ['.', '_', '-']) && rest.length ≤ 127
  | [] => false

/-- One part of a seat name. -/
def isSeatPart (part : List Char) : Bool :=
  match part with
  | c :: rest => c.isAlphanum && rest.all fun c => c.isAlphanum || c ∈ ['.', '_', '-']
  | [] => false

/-- A seat name: one part, or two with a slash between. -/
def isSeat (value : String) : Bool :=
  let parts := value.toList.splitOn '/'
  parts.all isSeatPart && (parts.length == 1 || parts.length == 2)

def namespaceOf (value : Json) : Except RecordFailure String :=
  match value with
  | .str s => if isNamespace s then .ok s else .error (.malformed "namespace is invalid")
  | _ => .error (.malformed "namespace is invalid")

def digest (value : Json) (field : String) : Except RecordFailure String :=
  let refused := RecordFailure.malformed s!"{field} must be 64 lowercase hexadecimal characters"
  match value with
  | .str s => if isSha256 s then .ok s else .error refused
  | _ => .error refused

def digestList (value : Json) (field : String) (maximum : Nat) :
    Except RecordFailure (List String) :=
  match value with
  | .arr values =>
    if values.length > maximum then .error (.malformed s!"{field} exceeds {maximum} entries")
    else do
      let items ← values.mapM fun item => digest item field
      if items ≠ sortedBy (fun a b => decide (a < b)) id items.dedup then
        .error (.malformed s!"{field} must be sorted and unique")
      else .ok items
  | _ => .error (.malformed s!"{field} must be a list")

/-- The canonical `evidence` note body of a record. -/
def formatEvidence (record : EvidenceRecord) : String :=
  dumpsPlain <| .obj [("members", .arr (record.members.map .str)),
    ("namespace", .str record.namespace), ("schema", .str evidenceSchema),
    ("sha256", .str record.sha256)]

/-- Parse and bound an `evidence` note body. -/
def parseEvidence (text : String) : Except RecordFailure EvidenceRecord := do
  let payload ← load text evidenceSchema ["members", "namespace", "schema", "sha256"]
  let project ← namespaceOf (payload.get "namespace")
  let sha256 ← digest (payload.get "sha256") "sha256"
  let members ← digestList (payload.get "members") "members" maxManifestMembers
  if sha256 ∈ members then .error (.malformed "a manifest cannot list itself as a member")
  else .ok { sha256, «namespace» := project, members }

/-- `outcome not in VERDICT_OUTCOMES` hashes the outcome first. -/
def checkOutcome (outcome : Json) : Except RecordFailure String :=
  let refused := RecordFailure.malformed "outcome must be accepted, rejected or changes-required"
  match outcome with
  | .arr _ | .obj _ => .error .unhashable
  | .str s => if s ∈ verdictOutcomes then .ok s else .error refused
  | _ => .error refused

def seatName (author : Json) : Except RecordFailure String :=
  match author with
  | .str s => if isSeat s then .ok s else .error (.malformed "author must be a seat name")
  | _ => .error (.malformed "author must be a seat name")

def positive (sequence : Json) : Except RecordFailure Int :=
  match sequence with
  | .int n =>
    if n < 1 then .error (.malformed "reviewer_sequence must be a positive integer") else .ok n
  | _ => .error (.malformed "reviewer_sequence must be a positive integer")

/-- The canonical `verdict` note body of a record. -/
def formatVerdict (record : VerdictRecord) : String :=
  dumpsPlain <| .obj [
    ("acknowledged_corrections", .arr (record.acknowledgedCorrections.map .str)),
    ("author", .str record.author), ("inputs", .arr (record.inputs.map .str)),
    ("namespace", .str record.namespace), ("outcome", .str record.outcome),
    ("reviewer_sequence", .int record.reviewerSequence), ("schema", .str verdictSchema),
    ("subject_sha256", .str record.subjectSha256)]

/-- Parse and bound a `verdict` note body. -/
def parseVerdict (text : String) : Except RecordFailure VerdictRecord := do
  let payload ← load text verdictSchema ["acknowledged_corrections", "author", "inputs",
    "namespace", "outcome", "reviewer_sequence", "schema", "subject_sha256"]
  let outcome ← checkOutcome (payload.get "outcome")
  let author ← seatName (payload.get "author")
  let reviewerSequence ← positive (payload.get "reviewer_sequence")
  let subjectSha256 ← digest (payload.get "subject_sha256") "subject_sha256"
  let inputs ← digestList (payload.get "inputs") "inputs" maxVerdictInputs
  if subjectSha256 ∈ inputs then
    .error (.malformed "a verdict cannot cite its own subject as an input")
  let acknowledgedCorrections ← digestList (payload.get "acknowledged_corrections")
    "acknowledged_corrections" maxAcknowledgedCorrections
  let project ← namespaceOf (payload.get "namespace")
  return {
    «namespace» := project, subjectSha256, outcome, inputs, acknowledgedCorrections, author,
    reviewerSequence }

def reasonText (reason : Json) : Except RecordFailure String :=
  match reason with
  | .str s => if strip s = "" then .error (.malformed "reason must be non-empty text") else .ok s
  | _ => .error (.malformed "reason must be non-empty text")

/-- The canonical `correction` note body of a record. -/
def formatCorrection (record : CorrectionRecord) : String :=
  dumpsPlain <| .obj [("corrects", .str record.corrects), ("namespace", .str record.namespace),
    ("reason", .str record.reason), ("replacement", .str record.replacement),
    ("schema", .str correctionSchema)]

/-- Parse and bound a `correction` note body. -/
def parseCorrection (text : String) : Except RecordFailure CorrectionRecord := do
  let payload ← load text correctionSchema
    ["corrects", "namespace", "reason", "replacement", "schema"]
  let corrects ← digest (payload.get "corrects") "corrects"
  let replacement ← digest (payload.get "replacement") "replacement"
  if corrects = replacement then
    .error (.malformed "a correction must name a different replacement")
  let reason ← reasonText (payload.get "reason")
  if (Framing.utf8 reason).length > maxReasonBytes then
    .error (.malformed s!"reason exceeds {maxReasonBytes} bytes")
  let project ← namespaceOf (payload.get "namespace")
  return { «namespace» := project, corrects, replacement, reason }

/-- The identity a verdict acknowledges: the hash of the canonical pair. -/
def correctionId (record : CorrectionRecord) : String :=
  Builtins.sha256Hex <| Framing.utf8 <| dumpsPlain <| .obj
    [("corrects", .str record.corrects), ("namespace", .str record.namespace),
      ("replacement", .str record.replacement)]

/-- The body of an owned kind. -/
inductive RecordBody where
  | evidence (record : EvidenceRecord)
  | verdict (record : VerdictRecord)
  | correction (record : CorrectionRecord)

/-- The namespace a record belongs to. -/
def RecordBody.namespace : RecordBody → String
  | evidence record => record.namespace
  | verdict record => record.namespace
  | correction record => record.namespace

/-- The parser of an owned kind, applied to a body. -/
def parseBody (kind text : String) : Option (Except RecordFailure RecordBody) :=
  if kind = evidenceNoteKind then some ((parseEvidence text).map .evidence)
  else if kind = verdictNoteKind then some ((parseVerdict text).map .verdict)
  else if kind = correctionNoteKind then some ((parseCorrection text).map .correction)
  else none

/-- Refuse a malformed body of one of the owned kinds. -/
def validateRecordBody (kind text : String) : Except RecordFailure Unit :=
  match parseBody kind text with
  | some (.ok _) => .ok ()
  | some (.error failure) => .error failure
  | none => .error (.malformed s!"unknown record kind '{kind}'")

/-! ## Round trips -/

/-- A list of hashes that a record may carry. -/
structure DigestList (items : List String) (maximum : Nat) : Prop where
  digests : ∀ item ∈ items, isSha256 item = true
  canonical : items = sortedBy (fun a b => decide (a < b)) id items.dedup
  bounded : items.length ≤ maximum

section

omit [Builtins]

theorem digest_str {value : String} (h : isSha256 value = true) (field : String) :
    digest (.str value) field = .ok value := by
  unfold digest
  dsimp only
  rw [if_pos h]

theorem digestList_arr {items : List String} {maximum : Nat} (h : DigestList items maximum)
    (field : String) : digestList (.arr (items.map .str)) field maximum = .ok items := by
  have hitems : ∀ l : List String, (∀ item ∈ l, isSha256 item = true) →
      (l.map Json.str).mapM (fun item => digest item field) = .ok l := by
    intro l
    induction l with
    | nil => exact fun _ => rfl
    | cons item rest ih =>
      intro hall
      rw [List.map_cons, List.mapM_cons, digest_str (hall item List.mem_cons_self),
        ih fun later hlater => hall later (List.mem_cons_of_mem _ hlater)]
      rfl
  unfold digestList
  dsimp only
  rw [List.length_map, if_neg (by have := h.bounded; omega), hitems items h.digests]
  show (if _ then _ else _) = _
  rw [if_neg (not_not_intro h.canonical)]

theorem namespaceOf_str {value : String} (h : isNamespace value = true) :
    namespaceOf (.str value) = .ok value := by
  unfold namespaceOf
  dsimp only
  rw [if_pos h]

end

/-- A text written from the fields of a schema loads. -/
theorem load_dumpsPlain {members : Members} {schema : String} {fields : List String}
    (hwritable : Writable (.obj members)) (htag : members.get "schema" = .str schema)
    (hfields : members.map Prod.fst = fields) :
    load (dumpsPlain (.obj members)) schema fields = .ok members := by
  subst hfields
  unfold load
  rw [loads_dumpsPlain hwritable]
  simp [htag]

omit [Builtins] in
theorem writable_strings (items : List String) : Writable (.arr (items.map .str)) := by
  refine .arr fun v hv => ?_
  obtain ⟨s, -, rfl⟩ := List.mem_map.mp hv
  exact .str s

/-- The bounds of a verdict body. -/
structure VerdictBounds (record : VerdictRecord) : Prop where
  project : isNamespace record.namespace = true
  outcome : record.outcome ∈ verdictOutcomes
  author : isSeat record.author = true
  positive : 1 ≤ record.reviewerSequence
  digits : (Nat.toDigits 10 record.reviewerSequence.natAbs).length ≤ maxStrDigits
  subject : isSha256 record.subjectSha256 = true
  inputs : DigestList record.inputs maxVerdictInputs
  apart : record.subjectSha256 ∉ record.inputs
  acknowledged : DigestList record.acknowledgedCorrections maxAcknowledgedCorrections

theorem parseVerdict_formatVerdict {record : VerdictRecord} (h : VerdictBounds record) :
    parseVerdict (formatVerdict record) = .ok record := by
  unfold parseVerdict formatVerdict
  rw [@load_dumpsPlain _ _ verdictSchema]
  · show (checkOutcome (.str record.outcome) >>= _) = _
    rw [show checkOutcome (.str record.outcome) = .ok record.outcome from if_pos h.outcome]
    show (seatName (.str record.author) >>= _) = _
    rw [show seatName (.str record.author) = .ok record.author from if_pos h.author]
    show (positive (.int record.reviewerSequence) >>= _) = _
    rw [show positive (.int record.reviewerSequence) = .ok record.reviewerSequence from
      if_neg (by have := h.positive; omega)]
    show (digest (.str record.subjectSha256) "subject_sha256" >>= _) = _
    rw [digest_str h.subject]
    show (digestList (.arr (record.inputs.map .str)) "inputs" maxVerdictInputs >>= _) = _
    rw [digestList_arr h.inputs]
    show (if _ then _ else _) = _
    rw [if_neg h.apart]
    show (digestList (.arr (record.acknowledgedCorrections.map .str)) "acknowledged_corrections"
      maxAcknowledgedCorrections >>= _) = _
    rw [digestList_arr h.acknowledged]
    show (namespaceOf (.str record.namespace) >>= _) = _
    rw [namespaceOf_str h.project]
    rfl
  · refine .obj ?_ ?_
    · simp only [List.pairwise_cons, List.mem_cons, List.not_mem_nil, or_false, forall_eq_or_imp,
        forall_eq, List.Pairwise.nil, and_true, false_implies, implies_true]
      decide
    simp only [List.mem_cons, List.not_mem_nil, or_false, forall_eq_or_imp, forall_eq]
    exact ⟨writable_strings _, .str _, writable_strings _, .str _, .str _, .int h.digits, .str _,
      .str _⟩
  · rfl
  · rfl

end VerdictRecords

end SynapseChannel
