import SynapseChannel.Core.VerdictStaleness
import SynapseChannel.Lib.FoldPart
import SynapseChannel.Lib.Outcome

/-!
# Core — VerdictCounting

Which notes the fold refuses. A note is refused for what it says, for the
seat that wrote it and, when it is a correction, for the declarations
that are recorded: none of this reads where a note stands, and more notes
never refuse one that counts.
-/

namespace SynapseChannel

open Py VerdictRecords

variable [Builtins]

/-! ## What a refusal is -/

/-- A note declares an object and counts. -/
def Declares (policy : CorrectionPolicy) (note : RecordedNote) (key : ObjectKey) : Prop :=
  ∃ record, parseEvidence note.text = .ok record ∧ (record.namespace, record.sha256) = key ∧
    policy.mayWrite record.namespace note.author = true

/-- A seat may correct an object, as far as the notes tell. -/
def MayCorrect (policy : CorrectionPolicy) (notes : List RecordedNote) (seat : String)
    (record : CorrectionRecord) : Prop :=
  ∃ note ∈ notes, note.kind = evidenceNoteKind ∧
    Declares policy note (record.namespace, record.corrects) ∧
    (note.author = seat ∨ policy.mayCorrect record.namespace seat = true)

/-- Why a note is refused among `notes`. -/
inductive RefusedFor (policy : CorrectionPolicy) (notes : List RecordedNote)
    (note : RecordedNote) : String → Prop
  | malformed {message : String}
      (hbody : parseBody note.kind note.text = some (.error (.malformed message))) :
      RefusedFor policy notes note "malformed-record"
  | evidence {record : EvidenceRecord} (hkind : note.kind = evidenceNoteKind)
      (hbody : parseEvidence note.text = .ok record)
      (hseat : policy.mayWrite record.namespace note.author = false) :
      RefusedFor policy notes note "evidence-not-authorised"
  | correction {record : CorrectionRecord} (hkind : note.kind = correctionNoteKind)
      (hbody : parseCorrection note.text = .ok record)
      (hseat : ¬ MayCorrect policy notes note.author record) :
      RefusedFor policy notes note "correction-not-authorised"
  | verdict {record : VerdictRecord} (hkind : note.kind = verdictNoteKind)
      (hbody : parseVerdict note.text = .ok record)
      (hseat : policy.mayWrite record.namespace note.author = false) :
      RefusedFor policy notes note "verdict-not-authorised"

/-- A note that is not refused is not refused among more notes, whatever
sequence it has there. -/
theorem RefusedFor.anti {policy : CorrectionPolicy} {notes more : List RecordedNote}
    {note moved : RecordedNote} {reason : String}
    (hsame : moved.author = note.author ∧ moved.kind = note.kind ∧ moved.text = note.text)
    (hsub : ∀ n ∈ notes, n ∈ more ∨ n.kind = note.kind)
    (h : RefusedFor policy more moved reason) : RefusedFor policy notes note reason := by
  obtain ⟨hauthor, hkind, htext⟩ := hsame
  cases h with
  | malformed hbody =>
    rw [hkind, htext] at hbody
    exact .malformed hbody
  | evidence hk hbody hseat =>
    rw [htext] at hbody
    rw [hauthor] at hseat
    exact .evidence (hkind ▸ hk) hbody hseat
  | correction hk hbody hseat =>
    rw [htext] at hbody
    rw [hauthor] at hseat
    refine .correction (hkind ▸ hk) hbody ?_
    rintro ⟨declared, hmem, hevidence, hrest⟩
    rcases hsub declared hmem with hmore | hother
    · exact hseat ⟨declared, hmore, hevidence, hrest⟩
    · -- a correction declares nothing
      rw [hevidence, ← hkind, hk] at hother
      exact absurd hother (by decide)
  | verdict hk hbody hseat =>
    rw [htext] at hbody
    rw [hauthor] at hseat
    exact .verdict (hkind ▸ hk) hbody hseat

/-! ## Notes that parse -/

/-- Whether a note is of an owned kind and its body parses. -/
def parses (note : RecordedNote) : Bool :=
  match parseBody note.kind note.text with
  | some (.ok _) => true
  | _ => false

/-- Whether a note is of an owned kind and its body is refused. -/
def isMalformed (note : RecordedNote) : Bool :=
  match parseBody note.kind note.text with
  | some (.error (.malformed _)) => true
  | _ => false

/-- No body stops the fold. -/
def Readable (notes : List RecordedNote) : Prop :=
  ∀ note ∈ notes, parseBody note.kind note.text ≠ some (.error .unhashable)

theorem parsedNotes_of_readable {notes : List RecordedNote} (h : Readable notes) :
    parsedNotes notes = .ok (notes.filter parses,
      (notes.filter isMalformed).map fun note => (note.seq, "malformed-record")) := by
  induction notes with
  | nil => rfl
  | cons note rest ih =>
    have hrest := ih fun later hlater => h later (List.mem_cons_of_mem _ hlater)
    have hnote := h note List.mem_cons_self
    unfold parsedNotes
    split <;> rename_i hbody
    · rw [hrest, List.filter_cons_of_neg (by simp [parses, hbody]),
        List.filter_cons_of_neg (by simp [isMalformed, hbody])]
    · exact absurd hbody hnote
    · rw [hrest, List.filter_cons_of_neg (by simp [parses, hbody]),
        List.filter_cons_of_pos (by simp [isMalformed, hbody])]
      rfl
    · rw [hrest, List.filter_cons_of_pos (by simp [parses, hbody]),
        List.filter_cons_of_neg (by simp [isMalformed, hbody])]
      rfl

theorem readable_of_parsedNotes {notes : List RecordedNote}
    {parsed : List RecordedNote × List (Int × String)} (h : parsedNotes notes = .ok parsed) :
    Readable notes := by
  induction notes generalizing parsed with
  | nil => simp [Readable]
  | cons note rest ih =>
    intro later hlater
    unfold parsedNotes at h
    rcases List.mem_cons.mp hlater with rfl | hrest
    · intro hbody
      rw [hbody] at h
      cases h
    · split at h
      · exact ih h later hrest
      · cases h
      · obtain ⟨parsed, hparsed, -⟩ := Outcome.bind_ok h
        exact ih hparsed later hrest
      · obtain ⟨parsed, hparsed, -⟩ := Outcome.bind_ok h
        exact ih hparsed later hrest

/-- The refusals of the notes that do not parse. -/
def malformedEntries (notes : List RecordedNote) : List (Int × String) :=
  (notes.filter isMalformed).map fun note => (note.seq, "malformed-record")

theorem foldVerdicts_of_readable {notes : List RecordedNote} (h : Readable notes)
    (policy : CorrectionPolicy) :
    foldVerdicts notes policy =
      .ok (deriveStates (countNotes policy (notes.filter parses) (malformedEntries notes))) := by
  unfold foldVerdicts
  rw [parsedNotes_of_readable h]
  rfl

theorem readable_of_foldVerdicts {notes : List RecordedNote} {policy : CorrectionPolicy}
    {fold : VerdictFold} (h : foldVerdicts notes policy = .ok fold) : Readable notes := by
  obtain ⟨parsed, hparsed, -⟩ := Outcome.bind_ok h
  exact readable_of_parsedNotes hparsed

theorem parses_iff {note : RecordedNote} :
    parses note = true ↔ ∃ body, parseBody note.kind note.text = some (.ok body) := by
  unfold parses
  split <;> rename_i h
  · simp [h]
  · constructor
    · intro hfalse
      cases hfalse
    · rintro ⟨body, hbody⟩
      exact absurd hbody (h body)

theorem isMalformed_iff {note : RecordedNote} :
    isMalformed note = true ↔
      ∃ message, parseBody note.kind note.text = some (.error (.malformed message)) := by
  unfold isMalformed
  split <;> rename_i h
  · simp [h]
  · constructor
    · intro hfalse
      cases hfalse
    · rintro ⟨message, hbody⟩
      exact absurd hbody (h message)

theorem parses_evidence {note : RecordedNote} (hkind : note.kind = evidenceNoteKind) :
    parses note = true ↔ ∃ record, parseEvidence note.text = .ok record := by
  rw [parses_iff, hkind, parseBody, if_pos rfl]
  cases parseEvidence note.text <;> simp [Except.map]

theorem parses_correction {note : RecordedNote} (hkind : note.kind = correctionNoteKind) :
    parses note = true ↔ ∃ record, parseCorrection note.text = .ok record := by
  rw [parses_iff, hkind, parseBody, if_neg (by decide), if_neg (by decide), if_pos rfl]
  cases parseCorrection note.text <;> simp [Except.map]

theorem parses_verdict {note : RecordedNote} (hkind : note.kind = verdictNoteKind) :
    parses note = true ↔ ∃ record, parseVerdict note.text = .ok record := by
  rw [parses_iff, hkind, parseBody, if_neg (by decide), if_pos rfl]
  cases parseVerdict note.text <;> simp [Except.map]

omit [Builtins] in
theorem mem_sortedKind {notes : List RecordedNote} {kind : String} {note : RecordedNote} :
    note ∈ sortedKind notes kind ↔ note ∈ notes ∧ note.kind = kind := by
  simp [sortedKind]

/-! ## Counting, one note at a time -/

theorem declarers_countEvidence (policy : CorrectionPolicy) (fold : VerdictFold)
    (note : RecordedNote) :
    (countEvidence policy fold note).declarers =
      match parseEvidence note.text with
      | .error _ => fold.declarers
      | .ok record =>
        if policy.mayWrite record.namespace note.author then
          fold.declarers.set (record.namespace, record.sha256)
            ((fold.declarersOf (record.namespace, record.sha256)).insert note.author)
        else fold.declarers := by
  unfold countEvidence
  cases parseEvidence note.text with
  | error failure => rfl
  | ok record =>
    dsimp only
    cases policy.mayWrite record.namespace note.author with
    | false => rfl
    | true =>
      rw [if_neg (by simp), if_pos rfl]
      split <;> rfl

theorem mem_declarers_countEvidence (policy : CorrectionPolicy) (key : ObjectKey) (seat : String)
    (fold : VerdictFold) (note : RecordedNote) :
    seat ∈ (countEvidence policy fold note).declarersOf key ↔
      seat ∈ fold.declarersOf key ∨ (Declares policy note key ∧ note.author = seat) := by
  unfold VerdictFold.declarersOf Declares
  rw [declarers_countEvidence]
  cases parseEvidence note.text with
  | error failure => simp
  | ok record =>
    dsimp only
    cases hseat : policy.mayWrite record.namespace note.author with
    | false => simp [hseat]
    | true =>
      rw [if_pos rfl, Dict.get?_set]
      by_cases hkey : (record.namespace, record.sha256) = key
      · subst hkey
        simp only [if_pos, Option.getD_some, List.mem_insert_iff, VerdictFold.declarersOf,
          Except.ok.injEq, exists_eq_left', hseat, true_and, and_self]
        rw [or_comm, eq_comm]
      · simp [hkey]

theorem contains_declarers_countEvidence (policy : CorrectionPolicy) (key : ObjectKey)
    (fold : VerdictFold) (note : RecordedNote) :
    (countEvidence policy fold note).declarers.contains key = true ↔
      fold.declarers.contains key = true ∨ Declares policy note key := by
  unfold Dict.contains Declares
  rw [declarers_countEvidence]
  cases parseEvidence note.text with
  | error failure => simp
  | ok record =>
    dsimp only
    cases hseat : policy.mayWrite record.namespace note.author with
    | false => simp [hseat]
    | true =>
      rw [if_pos rfl, Dict.get?_set]
      by_cases hkey : (record.namespace, record.sha256) = key
      · subst hkey
        simp [hseat]
      · simp [hkey]

theorem mem_refused_countEvidence (policy : CorrectionPolicy) (entry : Int × String)
    (fold : VerdictFold) (note : RecordedNote) :
    entry ∈ (countEvidence policy fold note).refused ↔
      entry ∈ fold.refused ∨ (entry = (note.seq, "evidence-not-authorised") ∧
        ∃ record, parseEvidence note.text = .ok record ∧
          policy.mayWrite record.namespace note.author = false) := by
  unfold countEvidence
  cases parseEvidence note.text with
  | error failure => simp
  | ok record =>
    dsimp only
    cases hseat : policy.mayWrite record.namespace note.author with
    | false => simp [VerdictFold.refuse, hseat]
    | true =>
      rw [if_neg (by simp)]
      split <;> simp [hseat]

theorem countCorrection_declarers (policy : CorrectionPolicy) (fold : VerdictFold)
    (note : RecordedNote) : (countCorrection policy fold note).declarers = fold.declarers := by
  unfold countCorrection
  split
  · rfl
  · dsimp only
    split <;> rfl

theorem mem_refused_countCorrection (policy : CorrectionPolicy) (entry : Int × String)
    (fold : VerdictFold) (note : RecordedNote) :
    entry ∈ (countCorrection policy fold note).refused ↔
      entry ∈ fold.refused ∨ (entry = (note.seq, "correction-not-authorised") ∧
        ∃ record, parseCorrection note.text = .ok record ∧
          ¬ (note.author ∈ fold.declarersOf (record.namespace, record.corrects) ∨
            fold.declarers.contains (record.namespace, record.corrects) = true ∧
              policy.mayCorrect record.namespace note.author = true)) := by
  unfold countCorrection
  cases parseCorrection note.text with
  | error failure => simp
  | ok record =>
    dsimp only
    split <;> rename_i hseat
    · simp only [Bool.not_eq_true', Bool.or_eq_false_iff, decide_eq_false_iff_not,
        Bool.and_eq_false_iff] at hseat
      have hno : ¬ (note.author ∈ fold.declarersOf (record.namespace, record.corrects) ∨
          fold.declarers.contains (record.namespace, record.corrects) = true ∧
            policy.mayCorrect record.namespace note.author = true) := by
        rintro (hdeclared | ⟨hknown, hallowed⟩)
        · exact hseat.1 hdeclared
        · rcases hseat.2 with hunknown | hrefused
          · rw [hknown] at hunknown
            cases hunknown
          · rw [hallowed] at hrefused
            cases hrefused
      simp only [VerdictFold.refuse, List.mem_append, List.mem_singleton, Except.ok.injEq,
        exists_eq_left', hno, not_false_eq_true, and_true]
    · simp only [Bool.not_eq_true', Bool.not_eq_false, Bool.or_eq_true, decide_eq_true_eq,
        Bool.and_eq_true] at hseat
      constructor
      · exact .inl
      · rintro (hin | ⟨-, found, hfound, hno⟩)
        · exact hin
        · cases hfound
          exact absurd hseat hno

theorem mem_refused_countVerdict (policy : CorrectionPolicy) (entry : Int × String)
    (acc : VerdictFold × Counted) (note : RecordedNote) :
    entry ∈ (countVerdict policy acc note).1.refused ↔
      entry ∈ acc.1.refused ∨ (entry = (note.seq, "verdict-not-authorised") ∧
        ∃ record, parseVerdict note.text = .ok record ∧
          policy.mayWrite record.namespace note.author = false) := by
  unfold countVerdict
  cases parseVerdict note.text with
  | error failure => simp
  | ok record =>
    dsimp only
    cases hseat : policy.mayWrite record.namespace note.author with
    | false => simp [VerdictFold.refuse, hseat]
    | true => simp [hseat]

/-! ## The whole fold -/

/-- What the declarations of the notes that parse leave behind. -/
theorem declared_iff (policy : CorrectionPolicy) (notes : List RecordedNote)
    (refused : List (Int × String)) (key : ObjectKey) (seat : String) :
    let fold := (sortedKind (notes.filter parses) evidenceNoteKind).foldl (countEvidence policy)
      { refused }
    (seat ∈ fold.declarersOf key ↔ ∃ note ∈ notes, note.kind = evidenceNoteKind ∧
      Declares policy note key ∧ note.author = seat) ∧
    (fold.declarers.contains key = true ↔ ∃ note ∈ notes, note.kind = evidenceNoteKind ∧
      Declares policy note key) := by
  have hmem : ∀ Q : RecordedNote → Prop, (∀ note, Q note → Declares policy note key) →
      ((∃ note ∈ sortedKind (notes.filter parses) evidenceNoteKind, Q note) ↔
        ∃ note ∈ notes, note.kind = evidenceNoteKind ∧ Q note) := by
    intro Q hQ
    constructor
    · rintro ⟨note, hnote, hq⟩
      obtain ⟨hkept, hkind⟩ := mem_sortedKind.mp hnote
      exact ⟨note, (List.mem_filter.mp hkept).1, hkind, hq⟩
    · rintro ⟨note, hnote, hkind, hq⟩
      obtain ⟨record, hbody, -⟩ := hQ note hq
      have hparses := (parses_evidence hkind).mpr ⟨record, hbody⟩
      exact ⟨note, mem_sortedKind.mpr ⟨List.mem_filter.mpr ⟨hnote, hparses⟩, hkind⟩, hq⟩
  intro fold
  constructor
  · rw [FoldPart.adds (I := fun _ => True) (P := fun fold => seat ∈ fold.declarersOf key)
      (fun _ _ _ => trivial)
      (fun fold note _ => mem_declarers_countEvidence policy key seat fold note) _ trivial,
      hmem _ fun note h => h.1]
    simp [VerdictFold.declarersOf]
  · rw [FoldPart.adds (I := fun _ => True)
      (P := fun fold : VerdictFold => fold.declarers.contains key = true)
      (fun _ _ _ => trivial)
      (fun fold note _ => contains_declarers_countEvidence policy key fold note) _ trivial,
      hmem _ fun note h => h]
    simp [Dict.contains]

theorem mayCorrect_iff (policy : CorrectionPolicy) (notes : List RecordedNote)
    (refused : List (Int × String)) (seat : String) (record : CorrectionRecord) :
    let fold := (sortedKind (notes.filter parses) evidenceNoteKind).foldl (countEvidence policy)
      { refused }
    (seat ∈ fold.declarersOf (record.namespace, record.corrects) ∨
      fold.declarers.contains (record.namespace, record.corrects) = true ∧
        policy.mayCorrect record.namespace seat = true) ↔ MayCorrect policy notes seat record := by
  intro fold
  obtain ⟨hseat, hknown⟩ :=
    declared_iff policy notes refused (record.namespace, record.corrects) seat
  rw [hseat, hknown]
  constructor
  · rintro (⟨note, hmem, hkind, hdeclares, hauthor⟩ | ⟨⟨note, hmem, hkind, hdeclares⟩, hallowed⟩)
    · exact ⟨note, hmem, hkind, hdeclares, .inl hauthor⟩
    · exact ⟨note, hmem, hkind, hdeclares, .inr hallowed⟩
  · rintro ⟨note, hmem, hkind, hdeclares, hauthor | hallowed⟩
    · exact .inl ⟨note, hmem, hkind, hdeclares, hauthor⟩
    · exact .inr ⟨⟨note, hmem, hkind, hdeclares⟩, hallowed⟩

/-- A note that parses and is of a kind is among the notes of that kind. -/
theorem mem_kept {notes : List RecordedNote} {kind : String} {note : RecordedNote} :
    note ∈ sortedKind (notes.filter parses) kind ↔
      note ∈ notes ∧ note.kind = kind ∧ parses note = true := by
  rw [mem_sortedKind, List.mem_filter]
  tauto

/-- A note is in the fold's refusals exactly when it is refused among the
notes. -/
theorem mem_refused {notes : List RecordedNote} {policy : CorrectionPolicy} {fold : VerdictFold}
    (h : foldVerdicts notes policy = .ok fold) (seq : Int) (reason : String) :
    (seq, reason) ∈ fold.refused ↔
      ∃ note ∈ notes, note.seq = seq ∧ RefusedFor policy notes note reason := by
  rw [foldVerdicts_of_readable (readable_of_foldVerdicts h)] at h
  cases h
  set refused := malformedEntries notes
  set declared := (sortedKind (notes.filter parses) evidenceNoteKind).foldl (countEvidence policy)
    { refused } with hdeclared
  show (seq, reason) ∈ sortRefused
    (countNotes policy (notes.filter parses) refused).1.refused ↔ _
  rw [sortRefused, mem_sortedBy, countNotes, ← hdeclared]
  -- the three passes add their refusals one after another
  rw [FoldPart.adds (I := fun _ => True)
      (P := fun acc : VerdictFold × Counted => (seq, reason) ∈ acc.1.refused)
      (fun _ _ _ => trivial)
      (fun acc note _ => mem_refused_countVerdict policy (seq, reason) acc note) _ trivial,
    FoldPart.adds (I := fun fold => fold.declarers = declared.declarers)
      (P := fun fold : VerdictFold => (seq, reason) ∈ fold.refused)
      (Q := fun note => (seq, reason) = (note.seq, "correction-not-authorised") ∧
        ∃ record, parseCorrection note.text = .ok record ∧
          ¬ MayCorrect policy notes note.author record)
      (fun fold note hkeep => (countCorrection_declarers policy fold note).trans hkeep)
      ?_ _ rfl,
    hdeclared, FoldPart.adds (I := fun _ => True)
      (P := fun fold : VerdictFold => (seq, reason) ∈ fold.refused)
      (fun _ _ _ => trivial)
      (fun fold note _ => mem_refused_countEvidence policy (seq, reason) fold note) _ trivial]
  · constructor
    · rintro (((hin | ⟨note, hkept, hentry, record, hbody, hseat⟩) |
        ⟨note, hkept, hentry, record, hbody, hseat⟩) |
        ⟨note, hkept, hentry, record, hbody, hseat⟩)
      · obtain ⟨note, hmem, hentry⟩ := List.mem_map.mp hin
        cases hentry
        obtain ⟨hnote, hbad⟩ := List.mem_filter.mp hmem
        obtain ⟨message, hbody⟩ := isMalformed_iff.mp hbad
        exact ⟨note, hnote, rfl, .malformed hbody⟩
      all_goals
        cases hentry
        obtain ⟨hnote, hkind, -⟩ := mem_kept.mp hkept
      · exact ⟨note, hnote, rfl, .evidence hkind hbody hseat⟩
      · exact ⟨note, hnote, rfl, .correction hkind hbody hseat⟩
      · exact ⟨note, hnote, rfl, .verdict hkind hbody hseat⟩
    · rintro ⟨note, hnote, rfl, hrefused⟩
      cases hrefused with
      | malformed hbody =>
        refine .inl (.inl (.inl (List.mem_map.mpr ⟨note, List.mem_filter.mpr ⟨hnote, ?_⟩, rfl⟩)))
        exact isMalformed_iff.mpr ⟨_, hbody⟩
      | evidence hkind hbody hseat =>
        refine .inl (.inl (.inr ⟨note, mem_kept.mpr ⟨hnote, hkind, ?_⟩, rfl, _, hbody, hseat⟩))
        exact (parses_evidence hkind).mpr ⟨_, hbody⟩
      | correction hkind hbody hseat =>
        refine .inl (.inr ⟨note, mem_kept.mpr ⟨hnote, hkind, ?_⟩, rfl, _, hbody, hseat⟩)
        exact (parses_correction hkind).mpr ⟨_, hbody⟩
      | verdict hkind hbody hseat =>
        refine .inr ⟨note, mem_kept.mpr ⟨hnote, hkind, ?_⟩, rfl, _, hbody, hseat⟩
        exact (parses_verdict hkind).mpr ⟨_, hbody⟩
  · intro fold note hkeep
    rw [mem_refused_countCorrection]
    unfold VerdictFold.declarersOf
    rw [hkeep]
    have hmay := fun record => mayCorrect_iff policy notes refused note.author record
    simp only [VerdictFold.declarersOf] at hmay
    simp only [hdeclared, hmay]

end SynapseChannel
