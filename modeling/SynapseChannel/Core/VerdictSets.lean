import SynapseChannel.Core.VerdictLocality
import SynapseChannel.Lib.Levels

/-!
# Core — VerdictSets

What the verdict fold counts, with sequence numbers, order and repetition
left out: which objects a manifest names, which corrections stand, which
verdicts count. The states and the gate read nothing else of the log.
-/

namespace SynapseChannel

open Py VerdictRecords Outcome

namespace VerdictSets

variable [Builtins]

/-! ## What the notes say -/

/-- What counts of a log, as sets. -/
structure Facts where
  /-- A seat declared the object. -/
  declared : ObjectKey → String → Prop
  /-- A counted manifest of the object names the hash. -/
  member : ObjectKey → String → Prop
  /-- A counted correction of the object has the id. -/
  corrected : ObjectKey → String → Prop
  /-- A verdict of a reviewer counts. -/
  verdict : String → VerdictRecord → Prop

/-- A note of a manifest that names the hash under the object, and counts. -/
def Names (policy : CorrectionPolicy) (note : RecordedNote) (key : ObjectKey) (hash : String) :
    Prop :=
  ∃ record, parseEvidence note.text = .ok record ∧ (record.namespace, record.sha256) = key ∧
    policy.mayWrite record.namespace note.author = true ∧ hash ∈ record.members

/-- A correction of the object that counts among the notes. -/
def Corrects (policy : CorrectionPolicy) (notes : List RecordedNote) (note : RecordedNote)
    (key : ObjectKey) (id : String) : Prop :=
  ∃ record, parseCorrection note.text = .ok record ∧ (record.namespace, record.corrects) = key ∧
    MayCorrect policy notes note.author record ∧ correctionId record = id

/-- A verdict that counts. -/
def Judges (policy : CorrectionPolicy) (note : RecordedNote) (record : VerdictRecord) : Prop :=
  parseVerdict note.text = .ok record ∧ policy.mayWrite record.namespace note.author = true

def factsOf (policy : CorrectionPolicy) (notes : List RecordedNote) : Facts where
  declared key seat := ∃ note ∈ notes, note.kind = evidenceNoteKind ∧ Declares policy note key ∧
    note.author = seat
  member key hash := ∃ note ∈ notes, note.kind = evidenceNoteKind ∧ Names policy note key hash
  corrected key id := ∃ note ∈ notes, note.kind = correctionNoteKind ∧
    Corrects policy notes note key id
  verdict seat record := ∃ note ∈ notes, note.kind = verdictNoteKind ∧ Judges policy note record ∧
    note.author = seat

section

omit [Builtins]

/-- A verdict at its reviewer's highest sequence on its subject. -/
def Facts.Latest (facts : Facts) (seat : String) (record : VerdictRecord) : Prop :=
  facts.verdict seat record ∧ ∀ other, facts.verdict seat other →
    (other.namespace, other.subjectSha256) = (record.namespace, record.subjectSha256) →
      other.reviewerSequence ≤ record.reviewerSequence

/-- An object leads to the members of its manifests and to the inputs of the
latest verdicts on it. -/
def Facts.Leads (facts : Facts) (project a b : String) : Prop :=
  facts.member (project, a) b ∨ ∃ seat record, facts.Latest seat record ∧
    (record.namespace, record.subjectSha256) = (project, a) ∧ b ∈ record.inputs

/-- The least set that contains the inputs of a verdict and is closed under
manifest members and the inputs of latest verdicts. -/
def Facts.Depends (facts : Facts) (record : VerdictRecord) : String → Prop :=
  Levels.Closure (· ∈ record.inputs) (facts.Leads record.namespace)

/-- An object lies within so many steps of an input. -/
def Facts.Within (facts : Facts) (record : VerdictRecord) (steps : Nat) (hash : String) : Prop :=
  ∃ n ≤ steps, Levels.Walk (· ∈ record.inputs) (facts.Leads record.namespace) n hash

/-- A correction of the object that the verdict does not acknowledge. -/
def Facts.Unacknowledged (facts : Facts) (record : VerdictRecord) (hash id : String) : Prop :=
  facts.corrected (record.namespace, hash) id ∧ id ∉ record.acknowledgedCorrections

end

/-! ## Bodies list a hash once -/

omit [Builtins] in
theorem digestList_nodup {value : Json} {field : String} {maximum : Nat} {items : List String}
    (h : digestList value field maximum = .ok items) : items.Nodup := by
  unfold digestList at h
  split at h
  · split at h
    · cases h
    · obtain ⟨found, -, h⟩ := bind_ok h
      split at h
      · cases h
      · rename_i hcanonical
        cases h
        rw [not_not.mp hcanonical]
        exact (sortedBy_perm _ id _).nodup_iff.mpr (List.nodup_dedup _)
  · cases h

theorem parseEvidence_members {text : String} {record : EvidenceRecord}
    (h : parseEvidence text = .ok record) : record.members.Nodup := by
  unfold parseEvidence at h
  obtain ⟨_, -, h⟩ := bind_ok h
  obtain ⟨_, -, h⟩ := bind_ok h
  obtain ⟨_, -, h⟩ := bind_ok h
  obtain ⟨members, hmembers, h⟩ := bind_ok h
  split at h
  · cases h
  · cases h
    exact digestList_nodup hmembers

theorem parseVerdict_inputs {text : String} {record : VerdictRecord}
    (h : parseVerdict text = .ok record) : record.inputs.Nodup := by
  unfold parseVerdict at h
  obtain ⟨_, -, h⟩ := bind_ok h
  obtain ⟨_, -, h⟩ := bind_ok h
  obtain ⟨_, -, h⟩ := bind_ok h
  obtain ⟨_, -, h⟩ := bind_ok h
  obtain ⟨_, -, h⟩ := bind_ok h
  obtain ⟨inputs, hinputs, h⟩ := bind_ok h
  dsimp only at h
  split at h
  · obtain ⟨_, hrefused, -⟩ := bind_ok h
    cases hrefused
  · obtain ⟨_, -, h⟩ := bind_ok h
    obtain ⟨_, -, h⟩ := bind_ok h
    cases h
    exact digestList_nodup hinputs

/-! ## What one note adds -/

theorem countEvidence_membersOf (policy : CorrectionPolicy) (fold : VerdictFold)
    (note : RecordedNote) (key : ObjectKey) :
    (countEvidence policy fold note).membersOf key = fold.membersOf key ∨
      ∃ record, parseEvidence note.text = .ok record ∧
        (record.namespace, record.sha256) = key ∧
        policy.mayWrite record.namespace note.author = true ∧
        (countEvidence policy fold note).membersOf key = fold.membersOf key ∪ record.members := by
  unfold countEvidence
  cases hbody : parseEvidence note.text with
  | error failure => exact .inl rfl
  | ok record =>
      dsimp only
      cases hseat : policy.mayWrite record.namespace note.author with
      | false => exact .inl rfl
      | true =>
          rw [if_neg (by simp)]
          split
          · exact .inl rfl
          · by_cases hkey : (record.namespace, record.sha256) = key
            · refine .inr ⟨record, rfl, hkey, hseat, ?_⟩
              subst hkey
              unfold VerdictFold.membersOf
              rw [Dict.get?_set_self]
              rfl
            · refine .inl ?_
              unfold VerdictFold.membersOf
              rw [Dict.get?_set_ne _ _ hkey]

theorem mem_members_countEvidence (policy : CorrectionPolicy) (key : ObjectKey) (hash : String)
    (fold : VerdictFold) (note : RecordedNote) :
    hash ∈ (countEvidence policy fold note).membersOf key ↔
      hash ∈ fold.membersOf key ∨ Names policy note key hash := by
  unfold Names countEvidence
  cases hbody : parseEvidence note.text with
  | error failure => simp
  | ok record =>
      dsimp only
      cases hseat : policy.mayWrite record.namespace note.author with
      | false => simp [VerdictFold.refuse, VerdictFold.membersOf, hseat]
      | true =>
          rw [if_neg (by simp)]
          split
          · rename_i hnone
            simp [VerdictFold.membersOf, hnone]
          · unfold VerdictFold.membersOf
            rw [Dict.get?_set]
            by_cases hkey : (record.namespace, record.sha256) = key
            · subst hkey
              simp [hseat, List.mem_union_iff]
            · simp [hkey]

theorem countCorrection_members (policy : CorrectionPolicy) (fold : VerdictFold)
    (note : RecordedNote) : (countCorrection policy fold note).members = fold.members := by
  unfold countCorrection
  split
  · rfl
  · dsimp only
    split <;> rfl

theorem countVerdict_fold (policy : CorrectionPolicy) (acc : VerdictFold × Counted)
    (note : RecordedNote) :
    (countVerdict policy acc note).1.declarers = acc.1.declarers ∧
      (countVerdict policy acc note).1.members = acc.1.members ∧
      (countVerdict policy acc note).1.corrections = acc.1.corrections := by
  unfold countVerdict
  split
  · exact ⟨rfl, rfl, rfl⟩
  · split <;> exact ⟨rfl, rfl, rfl⟩

theorem mem_corrections_countCorrection (policy : CorrectionPolicy) (key : ObjectKey) (id : String)
    (fold : VerdictFold) (note : RecordedNote) :
    id ∈ ((countCorrection policy fold note).correctionsOf key).keys ↔
      id ∈ (fold.correctionsOf key).keys ∨
        ∃ record, parseCorrection note.text = .ok record ∧
          (record.namespace, record.corrects) = key ∧
          (note.author ∈ fold.declarersOf (record.namespace, record.corrects) ∨
            fold.declarers.contains (record.namespace, record.corrects) = true ∧
              policy.mayCorrect record.namespace note.author = true) ∧
          correctionId record = id := by
  unfold countCorrection
  cases hbody : parseCorrection note.text with
  | error failure => simp
  | ok record =>
      dsimp only
      have hguard : (decide (note.author ∈ fold.declarersOf (record.namespace, record.corrects)) ||
          fold.declarers.contains (record.namespace, record.corrects) &&
            policy.mayCorrect record.namespace note.author) = true ↔
          note.author ∈ fold.declarersOf (record.namespace, record.corrects) ∨
            fold.declarers.contains (record.namespace, record.corrects) = true ∧
              policy.mayCorrect record.namespace note.author = true := by
        rw [Bool.or_eq_true, decide_eq_true_eq, Bool.and_eq_true]
      by_cases hseat : note.author ∈ fold.declarersOf (record.namespace, record.corrects) ∨
          fold.declarers.contains (record.namespace, record.corrects) = true ∧
            policy.mayCorrect record.namespace note.author = true
      · rw [hguard.mpr hseat, Bool.not_true, if_neg Bool.false_ne_true]
        simp only [VerdictFold.correctionsOf, Dict.get?_set, Dict.mem_keys_iff]
        by_cases hkey : (record.namespace, record.corrects) = key
        · subst hkey
          rw [if_pos rfl, Option.getD_some, Dict.get?_set]
          by_cases hid : correctionId record = id
          · simp [hid, hseat]
          · simp [hid]
        · simp [hkey]
      · rw [Bool.eq_false_iff.mpr fun h => hseat (hguard.mp h), Bool.not_false, if_pos rfl]
        constructor
        · exact .inl
        · rintro (hin | ⟨found, hfound, -, hmay, -⟩)
          · exact hin
          · cases hfound
            exact absurd hmay hseat

theorem mem_countVerdict (policy : CorrectionPolicy) (entry : RecordedNote × VerdictRecord)
    (acc : VerdictFold × Counted) (note : RecordedNote) :
    entry ∈ (countVerdict policy acc note).2 ↔
      entry ∈ acc.2 ∨ (entry.1 = note ∧ Judges policy note entry.2) := by
  unfold countVerdict Judges
  cases hbody : parseVerdict note.text with
  | error failure => simp
  | ok record =>
      dsimp only
      cases hseat : policy.mayWrite record.namespace note.author with
      | false =>
          rw [if_pos (by simp)]
          constructor
          · exact .inl
          · rintro (hin | ⟨-, hrecord, hmay⟩)
            · exact hin
            · cases hrecord
              rw [hseat] at hmay
              cases hmay
      | true =>
          rw [if_neg (by simp)]
          obtain ⟨found, verdict⟩ := entry
          simp only [List.mem_append, List.mem_singleton, Prod.mk.injEq, Except.ok.injEq]
          constructor
          · rintro (hin | ⟨rfl, rfl⟩)
            · exact .inl hin
            · exact .inr ⟨rfl, rfl, hseat⟩
          · rintro (hin | ⟨rfl, rfl, -⟩)
            · exact .inl hin
            · exact .inr ⟨rfl, rfl⟩

/-! ## What the passes leave -/

/-- The tables of a fold hold what the facts say. -/
structure Reads (facts : Facts) (acc : VerdictFold × Counted) : Prop where
  declared : ∀ key seat, seat ∈ acc.1.declarersOf key ↔ facts.declared key seat
  member : ∀ key hash, hash ∈ acc.1.membersOf key ↔ facts.member key hash
  once : ∀ key, (acc.1.membersOf key).Nodup
  corrected : ∀ key id, id ∈ (acc.1.correctionsOf key).keys ↔ facts.corrected key id
  verdict : ∀ seat record, (∃ note, (note, record) ∈ acc.2 ∧ note.author = seat) ↔
    facts.verdict seat record
  inputs : ∀ entry ∈ acc.2, entry.2.inputs.Nodup

theorem exists_kept {notes : List RecordedNote} {kind : String} {q : RecordedNote → Prop}
    (hparses : ∀ note, note.kind = kind → q note → parses note = true) :
    (∃ note ∈ sortedKind (notes.filter parses) kind, q note) ↔
      ∃ note ∈ notes, note.kind = kind ∧ q note := by
  constructor
  · rintro ⟨note, hkept, hq⟩
    obtain ⟨hnote, hkind, -⟩ := mem_kept.mp hkept
    exact ⟨note, hnote, hkind, hq⟩
  · rintro ⟨note, hnote, hkind, hq⟩
    exact ⟨note, mem_kept.mpr ⟨hnote, hkind, hparses note hkind hq⟩, hq⟩

theorem nodup_membersOf_countEvidence (policy : CorrectionPolicy) {fold : VerdictFold}
    (h : ∀ key, (fold.membersOf key).Nodup) (note : RecordedNote) (key : ObjectKey) :
    ((countEvidence policy fold note).membersOf key).Nodup := by
  rcases countEvidence_membersOf policy fold note key with hsame | ⟨record, hbody, -, -, hunion⟩
  · rw [hsame]
    exact h key
  · rw [hunion]
    exact List.Nodup.union _ (parseEvidence_members hbody)

/-- The third pass leaves the tables. -/
theorem foldl_countVerdict (policy : CorrectionPolicy) (notes : List RecordedNote)
    (acc : VerdictFold × Counted) :
    (notes.foldl (countVerdict policy) acc).1.declarers = acc.1.declarers ∧
      (notes.foldl (countVerdict policy) acc).1.members = acc.1.members ∧
      (notes.foldl (countVerdict policy) acc).1.corrections = acc.1.corrections := by
  induction notes generalizing acc with
  | nil => exact ⟨rfl, rfl, rfl⟩
  | cons note rest ih =>
      obtain ⟨hd, hm, hc⟩ := countVerdict_fold policy acc note
      obtain ⟨hd', hm', hc'⟩ := ih (countVerdict policy acc note)
      exact ⟨hd'.trans hd, hm'.trans hm, hc'.trans hc⟩

/-- The second pass leaves all but the corrections. -/
theorem foldl_countCorrection (policy : CorrectionPolicy) (notes : List RecordedNote)
    (fold : VerdictFold) :
    (notes.foldl (countCorrection policy) fold).declarers = fold.declarers ∧
      (notes.foldl (countCorrection policy) fold).members = fold.members := by
  induction notes generalizing fold with
  | nil => exact ⟨rfl, rfl⟩
  | cons note rest ih =>
      obtain ⟨hd, hm⟩ := ih (countCorrection policy fold note)
      exact ⟨hd.trans (countCorrection_declarers policy fold note),
        hm.trans (countCorrection_members policy fold note)⟩

/-- The first pass counts no correction. -/
theorem foldl_countEvidence (policy : CorrectionPolicy) (notes : List RecordedNote)
    (fold : VerdictFold) :
    (notes.foldl (countEvidence policy) fold).corrections = fold.corrections := by
  induction notes generalizing fold with
  | nil => rfl
  | cons note rest ih =>
      rw [List.foldl_cons, ih]
      unfold countEvidence
      split
      · rfl
      · dsimp only
        split
        · rfl
        · split <;> rfl

/-- The verdicts that count, with their notes. -/
theorem mem_counted (policy : CorrectionPolicy) (notes : List RecordedNote) (fold : VerdictFold)
    (entry : RecordedNote × VerdictRecord) :
    entry ∈ ((sortedKind (notes.filter parses) verdictNoteKind).foldl (countVerdict policy)
        (fold, [])).2 ↔
      entry.1 ∈ notes ∧ entry.1.kind = verdictNoteKind ∧ Judges policy entry.1 entry.2 := by
  rw [FoldPart.adds (I := fun _ => True)
    (P := fun acc : VerdictFold × Counted => entry ∈ acc.2) (fun _ _ _ => trivial)
    (fun acc note _ => mem_countVerdict policy entry acc note) _ trivial, exists_kept]
  · constructor
    · rintro (hnone | ⟨note, hnote, hkind, rfl, hjudges⟩)
      · cases hnone
      · exact ⟨hnote, hkind, hjudges⟩
    · rintro ⟨hnote, hkind, hjudges⟩
      exact .inr ⟨entry.1, hnote, hkind, rfl, hjudges⟩
  · rintro note hkind ⟨-, hbody, -⟩
    exact (parses_verdict hkind).mpr ⟨_, hbody⟩

theorem reads_countNotes (policy : CorrectionPolicy) (notes : List RecordedNote)
    (refused : List (Int × String)) :
    Reads (factsOf policy notes) (countNotes policy (notes.filter parses) refused) := by
  unfold countNotes
  set evidence := (sortedKind (notes.filter parses) evidenceNoteKind).foldl (countEvidence policy)
    { refused } with hevidence
  set corrections := (sortedKind (notes.filter parses) correctionNoteKind).foldl
    (countCorrection policy) evidence with hcorrections
  set acc := (sortedKind (notes.filter parses) verdictNoteKind).foldl (countVerdict policy)
    (corrections, []) with hacc
  have hthird : acc.1.declarers = corrections.declarers ∧ acc.1.members = corrections.members ∧
      acc.1.corrections = corrections.corrections := foldl_countVerdict policy _ _
  have hsecond : corrections.declarers = evidence.declarers ∧
      corrections.members = evidence.members := foldl_countCorrection policy _ _
  have hmembers : ∀ key, acc.1.membersOf key = evidence.membersOf key := by
    intro key
    unfold VerdictFold.membersOf
    rw [hthird.2.1, hsecond.2]
  constructor
  · intro key seat
    have hdeclared := (declared_iff policy notes refused key seat).1
    unfold VerdictFold.declarersOf at hdeclared ⊢
    rw [hthird.1, hsecond.1]
    exact hdeclared
  · intro key hash
    rw [hmembers, hevidence, FoldPart.adds (I := fun _ => True)
      (P := fun fold : VerdictFold => hash ∈ fold.membersOf key) (fun _ _ _ => trivial)
      (fun fold note _ => mem_members_countEvidence policy key hash fold note) _ trivial,
      exists_kept]
    · exact or_iff_right (by simp [VerdictFold.membersOf])
    · rintro note hkind ⟨record, hbody, -⟩
      exact (parses_evidence hkind).mpr ⟨record, hbody⟩
  · intro key
    rw [hmembers, hevidence]
    revert key
    refine List.foldlRecOn (motive := fun fold : VerdictFold => ∀ key, (fold.membersOf key).Nodup)
      _ _ ?_ ?_
    · intro key
      simp [VerdictFold.membersOf]
    · exact fun before h note _ => nodup_membersOf_countEvidence policy h note
  · intro key id
    have hkeys : (acc.1.correctionsOf key).keys = (corrections.correctionsOf key).keys := by
      unfold VerdictFold.correctionsOf
      rw [hthird.2.2]
    rw [hkeys, hcorrections, FoldPart.adds (I := fun fold => fold.declarers = evidence.declarers)
      (P := fun fold : VerdictFold => id ∈ (fold.correctionsOf key).keys)
      (Q := fun note => Corrects policy notes note key id)
      (fun fold note hkeep => (countCorrection_declarers policy fold note).trans hkeep) ?_ _ rfl,
      exists_kept]
    · refine or_iff_right ?_
      have hempty : evidence.corrections = Dict.empty := foldl_countEvidence policy _ _
      simp [VerdictFold.correctionsOf, hempty, Dict.mem_keys_iff]
    · rintro note hkind ⟨record, hbody, -⟩
      exact (parses_correction hkind).mpr ⟨record, hbody⟩
    · intro fold note hkeep
      have hmay := fun record => mayCorrect_iff policy notes refused note.author record
      rw [mem_corrections_countCorrection]
      unfold Corrects
      simp only [← hmay, VerdictFold.declarersOf, hkeep, hevidence]
  · intro seat record
    have hcounted := mem_counted policy notes corrections
    rw [← hacc] at hcounted
    constructor
    · rintro ⟨note, hin, hauthor⟩
      obtain ⟨hnote, hkind, hjudges⟩ := (hcounted _).mp hin
      exact ⟨note, hnote, hkind, hjudges, hauthor⟩
    · rintro ⟨note, hnote, hkind, hjudges, hauthor⟩
      exact ⟨note, (hcounted _).mpr ⟨hnote, hkind, hjudges⟩, hauthor⟩
  · rw [hacc]
    refine List.foldlRecOn
      (motive := fun acc : VerdictFold × Counted => ∀ entry ∈ acc.2, entry.2.inputs.Nodup)
      _ _ (by simp) ?_
    intro before h note _ entry hentry
    rcases (mem_countVerdict policy entry before note).mp hentry with hold | ⟨-, hbody, -⟩
    · exact h entry hold
    · exact parseVerdict_inputs hbody

end VerdictSets

end SynapseChannel
