import SynapseChannel.Core.VerdictCounting

/-!
# Core — VerdictLocality

The gate's decision on an object is a function of the records of the
object's namespace: the notes of other namespaces, and those that do not
parse, never change it.
-/

namespace SynapseChannel

open Py VerdictRecords

variable [Builtins]

/-- A note whose body parses and names the namespace. -/
def inProject (project : String) (note : RecordedNote) : Bool :=
  match parseBody note.kind note.text with
  | some (.ok body) => decide (body.namespace = project)
  | _ => false

/-- Two tables agree on the objects of one namespace. -/
def AgreeIn {ν : Type} (project : String) (d e : Dict ObjectKey ν) : Prop :=
  ∀ digest, d.get? (project, digest) = e.get? (project, digest)

omit [Builtins] in
theorem AgreeIn.set {ν : Type} {project : String} {d e : Dict ObjectKey ν}
    (h : AgreeIn project d e) {key : ObjectKey} {v w : ν} (hvalue : key.1 = project → v = w) :
    AgreeIn project (d.set key v) (e.set key w) := by
  intro digest
  rw [Dict.get?_set, Dict.get?_set]
  split <;> rename_i hkey
  · rw [hvalue (congrArg Prod.fst hkey)]
  · exact h digest

omit [Builtins] in
theorem AgreeIn.set_left {ν : Type} {project : String} {d e : Dict ObjectKey ν}
    (h : AgreeIn project d e) {key : ObjectKey} (hkey : key.1 ≠ project) (v : ν) :
    AgreeIn project (d.set key v) e := by
  intro digest
  rw [Dict.get?_set_ne]
  · exact h digest
  · rintro rfl
    exact hkey rfl

/-- Two folds agree on the objects of one namespace. -/
structure Local (project : String) (fold fold' : VerdictFold) : Prop where
  declarers : AgreeIn project fold.declarers fold'.declarers
  members : AgreeIn project fold.members fold'.members
  corrections : AgreeIn project fold.corrections fold'.corrections

namespace Local

variable {project : String} {fold fold' : VerdictFold}

section

omit [Builtins]

theorem declarersOf (h : Local project fold fold') {key : ObjectKey} (hkey : key.1 = project) :
    fold.declarersOf key = fold'.declarersOf key := by
  obtain ⟨_, digest⟩ := key
  subst hkey
  unfold VerdictFold.declarersOf
  rw [h.declarers digest]

theorem membersOf (h : Local project fold fold') {key : ObjectKey} (hkey : key.1 = project) :
    fold.membersOf key = fold'.membersOf key := by
  obtain ⟨_, digest⟩ := key
  subst hkey
  unfold VerdictFold.membersOf
  rw [h.members digest]

theorem correctionsOf (h : Local project fold fold') {key : ObjectKey} (hkey : key.1 = project) :
    fold.correctionsOf key = fold'.correctionsOf key := by
  obtain ⟨_, digest⟩ := key
  subst hkey
  unfold VerdictFold.correctionsOf
  rw [h.corrections digest]

theorem refuse (h : Local project fold fold') (note note' : RecordedNote) (reason : String) :
    Local project (fold.refuse note reason) (fold'.refuse note' reason) :=
  ⟨h.declarers, h.members, h.corrections⟩

theorem refuse_left (h : Local project fold fold') (note : RecordedNote) (reason : String) :
    Local project (fold.refuse note reason) fold' :=
  ⟨h.declarers, h.members, h.corrections⟩

end

/-- A declaration of the namespace, counted on both sides. -/
theorem evidence (h : Local project fold fold') (policy : CorrectionPolicy)
    (note : RecordedNote) :
    Local project (countEvidence policy fold note) (countEvidence policy fold' note) := by
  unfold countEvidence
  cases parseEvidence note.text with
  | error failure => exact h
  | ok record =>
    dsimp only
    split
    · exact h.refuse note note _
    · have hdeclarers : AgreeIn project
          (fold.declarers.set (record.namespace, record.sha256)
            ((fold.declarersOf (record.namespace, record.sha256)).insert note.author))
          (fold'.declarers.set (record.namespace, record.sha256)
            ((fold'.declarersOf (record.namespace, record.sha256)).insert note.author)) :=
        h.declarers.set fun hkey => by rw [h.declarersOf hkey]
      split
      · exact ⟨hdeclarers, h.members, h.corrections⟩
      · refine ⟨hdeclarers, h.members.set fun hkey => ?_, h.corrections⟩
        exact congrArg (· ∪ record.members) (h.membersOf hkey)

/-- A declaration of another namespace, counted on one side. -/
theorem evidence_left (h : Local project fold fold') (policy : CorrectionPolicy)
    {note : RecordedNote}
    (hother : ∀ record, parseEvidence note.text = .ok record → record.namespace ≠ project) :
    Local project (countEvidence policy fold note) fold' := by
  unfold countEvidence
  cases hbody : parseEvidence note.text with
  | error failure => exact h
  | ok record =>
    have hkey := hother record hbody
    dsimp only
    split
    · exact h.refuse_left note _
    · split
      · exact ⟨h.declarers.set_left hkey _, h.members, h.corrections⟩
      · exact ⟨h.declarers.set_left hkey _, h.members.set_left hkey _, h.corrections⟩

/-- A correction of the namespace, counted on both sides. -/
theorem correction (h : Local project fold fold') (policy : CorrectionPolicy)
    {note : RecordedNote} {record : CorrectionRecord}
    (hbody : parseCorrection note.text = .ok record) (hproject : record.namespace = project) :
    Local project (countCorrection policy fold note) (countCorrection policy fold' note) := by
  subst hproject
  have hknown : fold.declarers.contains (record.namespace, record.corrects) =
      fold'.declarers.contains (record.namespace, record.corrects) := by
    unfold Dict.contains
    rw [h.declarers record.corrects]
  unfold countCorrection
  rw [hbody]
  dsimp only
  rw [h.declarersOf rfl, hknown, h.correctionsOf rfl]
  split
  · exact h.refuse note note _
  · exact ⟨h.declarers, h.members, h.corrections.set fun _ => rfl⟩

/-- A correction of another namespace, counted on one side. -/
theorem correction_left (h : Local project fold fold') (policy : CorrectionPolicy)
    {note : RecordedNote}
    (hother : ∀ record, parseCorrection note.text = .ok record → record.namespace ≠ project) :
    Local project (countCorrection policy fold note) fold' := by
  unfold countCorrection
  cases hbody : parseCorrection note.text with
  | error failure => exact h
  | ok record =>
    dsimp only
    split
    · exact h.refuse_left note _
    · exact ⟨h.declarers, h.members, h.corrections.set_left (hother record hbody) _⟩

end Local

/-! ## The counted verdicts -/

/-- Notes in the order of the log. -/
def InOrder (notes : List RecordedNote) : Prop := notes.Pairwise fun a b => a.seq < b.seq

omit [Builtins] in
theorem sortedKind_of_inOrder {notes : List RecordedNote} (h : InOrder notes) (kind : String) :
    sortedKind notes kind = notes.filter fun note => decide (note.kind = kind) := by
  apply sortedBy_eq_self
  refine (h.filter _).imp ?_
  intro a b hlt
  rw [decide_eq_false_iff_not]
  omega

/-- A log of verdicts that all count. -/
theorem foldVerdicts_verdicts {policy : CorrectionPolicy} {notes : List RecordedNote}
    {records : List VerdictRecord} (horder : InOrder notes)
    (h : List.Forall₂ (fun note record => note.kind = verdictNoteKind ∧
      parseVerdict note.text = .ok record ∧ policy.mayWrite record.namespace note.author = true)
      notes records) :
    foldVerdicts notes policy = .ok (deriveStates ({}, notes.zip records)) := by
  have hall : ∀ note ∈ notes, note.kind = verdictNoteKind ∧ parses note = true := by
    clear horder
    induction h with
    | nil => simp
    | cons hnote _ ih =>
      intro found hfound
      rcases List.mem_cons.mp hfound with rfl | hlater
      · exact ⟨hnote.1, (parses_verdict hnote.1).mpr ⟨_, hnote.2.1⟩⟩
      · exact ih found hlater
  have hread : Readable notes := by
    intro note hnote hbody
    obtain ⟨body, hok⟩ := parses_iff.mp (hall note hnote).2
    rw [hbody] at hok
    cases hok
  have hkept : notes.filter parses = notes :=
    List.filter_eq_self.mpr fun note hnote => (hall note hnote).2
  have hmalformed : malformedEntries notes = [] := by
    unfold malformedEntries
    rw [List.filter_eq_nil_iff.mpr, List.map_nil]
    intro note hnote hbad
    obtain ⟨body, hok⟩ := parses_iff.mp (hall note hnote).2
    obtain ⟨message, hbody⟩ := isMalformed_iff.mp hbad
    rw [hbody] at hok
    cases hok
  have hother : ∀ kind, kind ≠ verdictNoteKind → sortedKind notes kind = [] := by
    intro kind hkind
    rw [sortedKind_of_inOrder horder, List.filter_eq_nil_iff]
    intro note hnote
    rw [decide_eq_true_eq, (hall note hnote).1]
    exact Ne.symm hkind
  have hverdicts : sortedKind notes verdictNoteKind = notes := by
    rw [sortedKind_of_inOrder horder, List.filter_eq_self]
    intro note hnote
    exact decide_eq_true (hall note hnote).1
  rw [foldVerdicts_of_readable hread, hkept, hmalformed, countNotes,
    hother evidenceNoteKind (by decide), hother correctionNoteKind (by decide), hverdicts]
  have hcounted : ∀ acc : VerdictFold × Counted,
      notes.foldl (countVerdict policy) acc = (acc.1, acc.2 ++ notes.zip records) := by
    clear hall hread hkept hmalformed hother hverdicts horder
    induction h with
    | nil => simp
    | @cons note record notes records hnote _ ih =>
      intro acc
      have hone : countVerdict policy acc note = (acc.1, acc.2 ++ [(note, record)]) := by
        unfold countVerdict
        rw [hnote.2.1]
        dsimp only
        rw [hnote.2.2, Bool.not_true, if_neg (by decide)]
      rw [List.foldl_cons, hone, ih, List.zip_cons_cons, List.append_assoc]
      rfl
  rw [List.foldl_nil, List.foldl_nil, hcounted, List.nil_append]

/-- The counted verdicts of one namespace. -/
def verdictsIn (project : String) (counted : Counted) : Counted :=
  counted.filter fun entry => decide (entry.2.namespace = project)

/-- What the third pass keeps in step on the two sides. -/
structure LocalVerdicts (project : String) (acc acc' : VerdictFold × Counted) : Prop where
  fold : Local project acc.1 acc'.1
  counted : verdictsIn project acc.2 = acc'.2

theorem LocalVerdicts.verdict {project : String} {acc acc' : VerdictFold × Counted}
    (h : LocalVerdicts project acc acc') (policy : CorrectionPolicy) {note : RecordedNote}
    {record : VerdictRecord} (hbody : parseVerdict note.text = .ok record)
    (hproject : record.namespace = project) :
    LocalVerdicts project (countVerdict policy acc note) (countVerdict policy acc' note) := by
  unfold countVerdict
  rw [hbody]
  dsimp only
  split
  · exact ⟨h.fold.refuse note note _, h.counted⟩
  · refine ⟨h.fold, ?_⟩
    rw [← h.counted]
    simp [verdictsIn, hproject]

theorem LocalVerdicts.verdict_left {project : String} {acc acc' : VerdictFold × Counted}
    (h : LocalVerdicts project acc acc') (policy : CorrectionPolicy) {note : RecordedNote}
    (hother : ∀ record, parseVerdict note.text = .ok record → record.namespace ≠ project) :
    LocalVerdicts project (countVerdict policy acc note) acc' := by
  unfold countVerdict
  cases hbody : parseVerdict note.text with
  | error failure => exact h
  | ok record =>
    dsimp only
    split
    · exact ⟨h.fold.refuse_left note _, h.counted⟩
    · refine ⟨h.fold, ?_⟩
      rw [← h.counted]
      simp [verdictsIn, hother record hbody]

/-- The namespace of a note that parses, by its kind. -/
theorem inProject_evidence {project : String} {note : RecordedNote} {record : EvidenceRecord}
    (hkind : note.kind = evidenceNoteKind) (hbody : parseEvidence note.text = .ok record) :
    inProject project note = decide (record.namespace = project) := by
  unfold inProject parseBody
  rw [if_pos hkind, hbody]
  rfl

theorem inProject_correction {project : String} {note : RecordedNote} {record : CorrectionRecord}
    (hkind : note.kind = correctionNoteKind) (hbody : parseCorrection note.text = .ok record) :
    inProject project note = decide (record.namespace = project) := by
  unfold inProject parseBody
  rw [hkind, if_neg (by decide), if_neg (by decide), if_pos rfl, hbody]
  rfl

theorem inProject_verdict {project : String} {note : RecordedNote} {record : VerdictRecord}
    (hkind : note.kind = verdictNoteKind) (hbody : parseVerdict note.text = .ok record) :
    inProject project note = decide (record.namespace = project) := by
  unfold inProject parseBody
  rw [hkind, if_neg (by decide), if_pos rfl, hbody]
  rfl

theorem countNotes_local {notes : List RecordedNote} (h : InOrder notes) (project : String)
    (policy : CorrectionPolicy) (hparses : ∀ note ∈ notes, parses note = true)
    (refused refused' : List (Int × String)) :
    LocalVerdicts project (countNotes policy notes refused)
      (countNotes policy (notes.filter (inProject project)) refused') := by
  have hpart : ∀ kind, sortedKind (notes.filter (inProject project)) kind =
      (sortedKind notes kind).filter (inProject project) := by
    intro kind
    rw [sortedKind_of_inOrder h, sortedKind_of_inOrder (h.filter _), List.filter_filter,
      List.filter_filter]
    simp only [Bool.and_comm]
  have hmem : ∀ {kind : String} {note : RecordedNote}, note ∈ sortedKind notes kind →
      note.kind = kind ∧ parses note = true := by
    intro kind note hnote
    obtain ⟨hin, hkind⟩ := mem_sortedKind.mp hnote
    exact ⟨hkind, hparses note hin⟩
  unfold countNotes
  dsimp only
  rw [hpart, hpart, hpart]
  apply FoldPart.filtered
  · intro note hnote hpicked acc acc' hacc
    obtain ⟨hkind, hok⟩ := hmem hnote
    obtain ⟨record, hbody⟩ := (parses_verdict hkind).mp hok
    rw [inProject_verdict hkind hbody, decide_eq_true_eq] at hpicked
    exact hacc.verdict policy hbody hpicked
  · intro note hnote hother acc acc' hacc
    refine hacc.verdict_left policy fun record hbody => ?_
    rw [inProject_verdict (hmem hnote).1 hbody, decide_eq_false_iff_not] at hother
    exact hother
  · refine ⟨?_, rfl⟩
    apply FoldPart.filtered
    · intro note hnote hpicked fold fold' hfold
      obtain ⟨hkind, hok⟩ := hmem hnote
      obtain ⟨record, hbody⟩ := (parses_correction hkind).mp hok
      rw [inProject_correction hkind hbody, decide_eq_true_eq] at hpicked
      exact hfold.correction policy hbody hpicked
    · intro note hnote hother fold fold' hfold
      refine hfold.correction_left policy fun record hbody => ?_
      rw [inProject_correction (hmem hnote).1 hbody, decide_eq_false_iff_not] at hother
      exact hother
    · apply FoldPart.filtered
      · intro note hnote hpicked fold fold' hfold
        exact hfold.evidence policy note
      · intro note hnote hother fold fold' hfold
        refine hfold.evidence_left policy fun record hbody => ?_
        rw [inProject_evidence (hmem hnote).1 hbody, decide_eq_false_iff_not] at hother
        exact hother
      · exact ⟨fun _ => rfl, fun _ => rfl, fun _ => rfl⟩

/-! ## The derived states -/

omit [Builtins] in
theorem bySubject_local (project : String) (counted : Counted) :
    AgreeIn project (bySubject counted) (bySubject (verdictsIn project counted)) := by
  unfold bySubject verdictsIn
  apply FoldPart.filtered (R := AgreeIn project)
  · intro entry _ hpicked d e hagree
    rw [decide_eq_true_eq] at hpicked
    subst hpicked
    apply hagree.set
    intro _
    rw [hagree]
  · intro entry _ hother d e hagree
    rw [decide_eq_false_iff_not] at hother
    exact hagree.set_left hother _
  · intro _
    rfl

omit [Builtins] in
theorem upstreamOf_local (project : String) (counted : Counted) :
    AgreeIn project (upstreamOf counted) (upstreamOf (verdictsIn project counted)) := by
  intro digest
  unfold upstreamOf
  rw [Dict.get?_filterMapValues, Dict.get?_filterMapValues, bySubject_local project counted digest]

/-- Every object of a list belongs to the namespace. -/
def AllIn (project : String) (keys : List ObjectKey) : Prop := ∀ key ∈ keys, key.1 = project

section

omit [Builtins]

theorem following_local {project : String} {fold fold' : VerdictFold} {upstream upstream' : Upstream}
    (hfold : Local project fold fold') (hupstream : AgreeIn project upstream upstream')
    {frontier : List ObjectKey} (hin : AllIn project frontier) :
    following fold upstream project frontier = following fold' upstream' project frontier := by
  unfold following
  apply FoldPart.both (R := Eq) _ rfl
  rintro ⟨_, digest⟩ hkey keys _ rfl
  obtain rfl : _ = project := hin _ hkey
  dsimp only
  rw [hfold.membersOf rfl, hupstream digest]

theorem allIn_following (fold : VerdictFold) (upstream : Upstream) (project : String)
    (frontier : List ObjectKey) : AllIn project (following fold upstream project frontier) := by
  have hunion : ∀ {keys : List ObjectKey} (digests : List String), AllIn project keys →
      AllIn project (keys ∪ digests.map (project, ·)) := by
    intro keys digests hkeys key hkey
    rcases List.mem_union_iff.mp hkey with hold | hnew
    · exact hkeys key hold
    · obtain ⟨digest, -, rfl⟩ := List.mem_map.mp hnew
      rfl
  unfold following
  apply List.foldlRecOn (motive := AllIn project)
  · intro key hkey
    cases hkey
  · intro keys hkeys key _
    apply List.foldlRecOn (motive := AllIn project)
    · exact hunion _ hkeys
    · intro keys hkeys verdict _
      exact hunion verdict.inputs hkeys

theorem follow_local {project : String} {fold fold' : VerdictFold} {upstream upstream' : Upstream}
    (hfold : Local project fold fold') (hupstream : AgreeIn project upstream upstream')
    (levels : Nat) (seen : List ObjectKey) {frontier : List ObjectKey}
    (hin : AllIn project frontier) :
    follow fold upstream project levels seen frontier =
      follow fold' upstream' project levels seen frontier := by
  induction levels generalizing seen frontier with
  | zero => cases frontier <;> rfl
  | succ levels ih =>
    cases frontier with
    | nil => rfl
    | cons key rest =>
      unfold follow
      dsimp only
      rw [following_local hfold hupstream hin]
      apply ih
      intro next hnext
      exact allIn_following fold' upstream' project _ next (List.mem_filter.mp hnext).1

theorem allIn_follow (fold : VerdictFold) (upstream : Upstream) (project : String) (levels : Nat)
    {seen frontier : List ObjectKey} (hseen : AllIn project seen) (hin : AllIn project frontier) :
    AllIn project (follow fold upstream project levels seen frontier).1 := by
  induction levels generalizing seen frontier with
  | zero => cases frontier <;> exact hseen
  | succ levels ih =>
    cases frontier with
    | nil => exact hseen
    | cons key rest =>
      unfold follow
      apply ih
      · intro found hfound
        rcases List.mem_union_iff.mp hfound with hold | hnew
        · exact hseen found hold
        · exact hin found hnew
      · intro next hnext
        exact allIn_following fold upstream project _ next (List.mem_filter.mp hnext).1

theorem deriveState_local {project : String} {fold fold' : VerdictFold}
    {upstream upstream' : Upstream} (hfold : Local project fold fold')
    (hupstream : AgreeIn project upstream upstream') (note : RecordedNote) {record : VerdictRecord}
    (hproject : record.namespace = project) :
    deriveState fold note record upstream = deriveState fold' note record upstream' := by
  subst hproject
  have hinputs : AllIn record.namespace (record.inputs.map (record.namespace, ·)).dedup := by
    intro key hkey
    obtain ⟨digest, -, rfl⟩ := List.mem_map.mp (List.mem_dedup.mp hkey)
    rfl
  have hkeys : AllIn record.namespace (dependencies fold' record upstream').1 :=
    allIn_follow _ _ _ _ (by simp [AllIn]) hinputs
  unfold deriveState
  rw [show dependencies fold record upstream = dependencies fold' record upstream' from
    follow_local hfold hupstream _ [] hinputs]
  have hflat : ((dependencies fold' record upstream').1.flatMap fun key =>
        (fold.correctionsOf key).keys.filter (· ∉ record.acknowledgedCorrections)) =
      (dependencies fold' record upstream').1.flatMap fun key =>
        (fold'.correctionsOf key).keys.filter (· ∉ record.acknowledgedCorrections) := by
    apply List.flatMap_congr
    intro key hkey
    rw [hfold.correctionsOf (hkeys key hkey)]
  dsimp only
  rw [hflat]

end

/-! ## The gate -/

/-- The states of the verdicts of one namespace. -/
def statesIn (project : String) (fold : VerdictFold) : List VerdictState :=
  fold.verdicts.filter fun state => decide (state.record.namespace = project)

omit [Builtins] in
/-- The gate reads the states of the subject's namespace only. -/
theorem gateDecision_congr {fold fold' : VerdictFold} {project : String}
    (h : statesIn project fold = statesIn project fold') (subject : String) (allow : Bool) :
    gateDecision fold project subject allow = gateDecision fold' project subject allow := by
  have hsubject : ∀ fold : VerdictFold, (fold.verdicts.filter fun state =>
      decide ((state.record.namespace, state.record.subjectSha256) = (project, subject))) =
      (statesIn project fold).filter fun state =>
        decide (state.record.subjectSha256 = subject) := by
    intro fold
    unfold statesIn
    rw [List.filter_filter]
    congr 1
    funext state
    simp [Bool.and_comm]
  unfold gateDecision latestStates
  rw [hsubject, hsubject, h]

omit [Builtins] in
theorem statesIn_deriveStates {project : String} {acc acc' : VerdictFold × Counted}
    (h : LocalVerdicts project acc acc') :
    statesIn project (deriveStates acc) = statesIn project (deriveStates acc') := by
  have hupstream := upstreamOf_local project acc.2
  rw [h.counted] at hupstream
  have hpart : verdictsIn project acc'.2 = acc'.2 := by
    rw [← h.counted]
    unfold verdictsIn
    rw [List.filter_filter]
    simp
  have hstates : ∀ acc : VerdictFold × Counted, statesIn project (deriveStates acc) =
      (verdictsIn project acc.2).map fun entry =>
        deriveState acc.1 entry.1 entry.2 (upstreamOf acc.2) := fun acc => List.filter_map
  rw [hstates, hstates, h.counted, hpart]
  apply List.map_congr_left
  intro entry hentry
  rw [← h.counted] at hentry
  exact deriveState_local h.fold hupstream entry.1
    (of_decide_eq_true (List.mem_filter.mp hentry).2)

/-- The states of one namespace come out of the notes of that namespace
alone. -/
theorem statesIn_foldVerdicts {notes : List RecordedNote} (horder : InOrder notes)
    {policy : CorrectionPolicy} {fold : VerdictFold} (h : foldVerdicts notes policy = .ok fold)
    (project : String) :
    ∃ part, foldVerdicts (notes.filter (inProject project)) policy = .ok part ∧
      statesIn project fold = statesIn project part := by
  have hread := readable_of_foldVerdicts h
  rw [foldVerdicts_of_readable hread] at h
  cases h
  have hpart : Readable (notes.filter (inProject project)) := fun note hnote =>
    hread note (List.mem_filter.mp hnote).1
  have hkept : (notes.filter (inProject project)).filter parses =
      (notes.filter parses).filter (inProject project) := by
    rw [List.filter_filter, List.filter_filter]
    congr 1
    funext note
    exact Bool.and_comm _ _
  refine ⟨_, foldVerdicts_of_readable hpart policy, ?_⟩
  have hlocal := countNotes_local (horder.filter parses) project policy
    (fun note hnote => (List.mem_filter.mp hnote).2) (malformedEntries notes)
    (malformedEntries (notes.filter (inProject project)))
  rw [hkept]
  exact statesIn_deriveStates hlocal

/-- Logs whose notes of a namespace are the same decide its objects
alike. -/
theorem gateDecision_local {notes notes' : List RecordedNote} (horder : InOrder notes)
    (horder' : InOrder notes') {policy : CorrectionPolicy} {fold fold' : VerdictFold}
    (h : foldVerdicts notes policy = .ok fold) (h' : foldVerdicts notes' policy = .ok fold')
    {project : String} (hsame : notes.filter (inProject project) = notes'.filter (inProject project))
    (subject : String) (allow : Bool) :
    gateDecision fold project subject allow = gateDecision fold' project subject allow := by
  obtain ⟨part, hpart, hstates⟩ := statesIn_foldVerdicts horder h project
  obtain ⟨part', hpart', hstates'⟩ := statesIn_foldVerdicts horder' h' project
  rw [hsame, hpart'] at hpart
  cases hpart
  exact gateDecision_congr (hstates.trans hstates'.symm) subject allow

end SynapseChannel
