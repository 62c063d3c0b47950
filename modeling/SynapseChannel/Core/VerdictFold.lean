import SynapseChannel.Core.VerdictClosure

/-!
# Core — VerdictFold

The verdict fold as a function of the set of recorded notes: the states and
the gate's decisions are the same under any numbering, order and repetition,
more evidence and corrections launder nothing, and the notes of other
namespaces do not leak.
-/

namespace SynapseChannel

open Py VerdictRecords Outcome

namespace VerdictSets

variable [Builtins]

/-! ## States decide the gate -/

section Gate

omit [Builtins]

variable {project : String} {fold fold' : VerdictFold}

/-- Two folds whose states in a namespace are the same but for sequence
numbers, one for each verdict of a reviewer. -/
structure Alike (project : String) (fold fold' : VerdictFold) : Prop where
  left : ∀ state ∈ fold.verdicts, state.record.namespace = project →
    ∃ state' ∈ fold'.verdicts, timeless state' = timeless state
  right : ∀ state' ∈ fold'.verdicts, state'.record.namespace = project →
    ∃ state ∈ fold.verdicts, timeless state' = timeless state
  one : ∀ state ∈ fold.verdicts, ∀ state' ∈ fold'.verdicts, state.record.namespace = project →
    state.reviewer = state'.reviewer → state.record = state'.record →
      timeless state' = timeless state

theorem Alike.symm (h : Alike project fold fold') : Alike project fold' fold where
  left := fun state hstate hin => by
    obtain ⟨other, hother, heq⟩ := h.right state hstate hin
    exact ⟨other, hother, heq.symm⟩
  right := fun state hstate hin => by
    obtain ⟨other, hother, heq⟩ := h.left state hstate hin
    exact ⟨other, hother, heq.symm⟩
  one := fun state hstate state' hstate' hin hseat hrecord =>
    (h.one state' hstate' state hstate (hrecord ▸ hin) hseat.symm hrecord.symm).symm

theorem timeless_fields {state state' : VerdictState} (h : timeless state' = timeless state) :
    state'.reviewer = state.reviewer ∧ state'.record = state.record ∧ state'.state = state.state ∧
      state'.unacknowledgedCorrections = state.unacknowledgedCorrections := by
  injection h with _ hreviewer hrecord hstate hopens
  exact ⟨hreviewer, hrecord, hstate, hopens⟩

/-- The states of a fold on a subject, under their reviewers. -/
def entriesOn (fold : VerdictFold) (project subject : String) : List (String × VerdictState) :=
  (fold.verdicts.filter fun state =>
    decide ((state.record.namespace, state.record.subjectSha256) = (project, subject))).map
      fun state => (state.reviewer, state)

theorem mem_entriesOn {fold : VerdictFold} {project subject seat : String} {state : VerdictState} :
    (seat, state) ∈ entriesOn fold project subject ↔ state ∈ fold.verdicts ∧
      (state.record.namespace, state.record.subjectSha256) = (project, subject) ∧
        state.reviewer = seat := by
  unfold entriesOn
  rw [List.mem_map]
  constructor
  · rintro ⟨found, hfound, heq⟩
    obtain ⟨hin, hkey⟩ := List.mem_filter.mp hfound
    cases heq
    exact ⟨hin, of_decide_eq_true hkey, rfl⟩
  · rintro ⟨hin, hkey, rfl⟩
    exact ⟨state, List.mem_filter.mpr ⟨hin, decide_eq_true hkey⟩, rfl⟩

theorem keptLatest_states (fold : VerdictFold) (project subject seat : String) :
    KeptLatest (fun state : VerdictState => state.record.reviewerSequence)
      (entriesOn fold project subject) seat ((latestStates fold project subject).get? seat) := by
  have h := @keptLatest _ (fun state : VerdictState => state.record.reviewerSequence)
    (entriesOn fold project subject) seat
  unfold entriesOn at h
  rw [List.foldl_map] at h
  exact h

/-- Two states of one verdict of one reviewer. -/
def SameVerdict (state state' : VerdictState) : Prop :=
  state'.reviewer = state.reviewer ∧ state'.record = state.record

/-- Where each side has the verdicts of the other, a latest state has its
verdict latest on the other side. -/
theorem latest_twin
    (hleft : ∀ state ∈ fold.verdicts, state.record.namespace = project →
      ∃ state' ∈ fold'.verdicts, SameVerdict state state')
    (hright : ∀ state' ∈ fold'.verdicts, state'.record.namespace = project →
      ∃ state ∈ fold.verdicts, SameVerdict state state')
    {subject seat : String} {state : VerdictState}
    (hlatest : LatestEntry (fun state : VerdictState => state.record.reviewerSequence)
      (entriesOn fold project subject) seat state) :
    ∃ state', LatestEntry (fun state : VerdictState => state.record.reviewerSequence)
      (entriesOn fold' project subject) seat state' ∧ SameVerdict state state' := by
  obtain ⟨hentry, hmost⟩ := hlatest
  obtain ⟨hin, hkey, hseat⟩ := mem_entriesOn.mp hentry
  obtain ⟨state', hin', hreviewer, hrecord⟩ := hleft state hin (congrArg Prod.fst hkey)
  refine ⟨state', ⟨mem_entriesOn.mpr ⟨hin', by rw [hrecord]; exact hkey, hreviewer.trans hseat⟩,
    fun other hother => ?_⟩, hreviewer, hrecord⟩
  obtain ⟨hotherIn, hotherKey, hotherSeat⟩ := mem_entriesOn.mp hother
  obtain ⟨twin, htwin, htwinSeat, htwinRecord⟩ := hright other hotherIn (congrArg Prod.fst hotherKey)
  have hle := hmost twin (mem_entriesOn.mpr ⟨htwin, by rw [← htwinRecord]; exact hotherKey,
    htwinSeat.symm.trans hotherSeat⟩)
  show other.record.reviewerSequence ≤ state'.record.reviewerSequence
  rw [htwinRecord, hrecord]
  exact hle

theorem sameVerdict_of_timeless {state state' : VerdictState}
    (h : timeless state' = timeless state) : SameVerdict state state' :=
  ⟨(timeless_fields h).1, (timeless_fields h).2.1⟩

theorem Alike.latest (h : Alike project fold fold') {subject seat : String} {state : VerdictState}
    (hlatest : LatestEntry (fun state : VerdictState => state.record.reviewerSequence)
      (entriesOn fold project subject) seat state) :
    ∃ state', LatestEntry (fun state : VerdictState => state.record.reviewerSequence)
      (entriesOn fold' project subject) seat state' ∧ timeless state' = timeless state := by
  have hleft : ∀ state ∈ fold.verdicts, state.record.namespace = project →
      ∃ state' ∈ fold'.verdicts, SameVerdict state state' := fun state hstate hin => by
    obtain ⟨other, hother, heq⟩ := h.left state hstate hin
    exact ⟨other, hother, sameVerdict_of_timeless heq⟩
  have hright : ∀ state' ∈ fold'.verdicts, state'.record.namespace = project →
      ∃ state ∈ fold.verdicts, SameVerdict state state' := fun state' hstate hin => by
    obtain ⟨other, hother, heq⟩ := h.right state' hstate hin
    exact ⟨other, hother, sameVerdict_of_timeless heq⟩
  obtain ⟨state', hlatest', hseat, hrecord⟩ := latest_twin hleft hright hlatest
  obtain ⟨hin, hkey, -⟩ := mem_entriesOn.mp hlatest.1
  exact ⟨state', hlatest', h.one state hin state' (mem_entriesOn.mp hlatest'.1).1
    (congrArg Prod.fst hkey) hseat.symm hrecord.symm⟩

/-- A list has more than one value exactly when two of its items differ. -/
theorem one_lt_dedup {α : Type} [DecidableEq α] {l : List α} :
    l.dedup.length > 1 ↔ ∃ a ∈ l, ∃ b ∈ l, a ≠ b := by
  have hnodup := List.nodup_dedup l
  simp only [← List.mem_dedup (l := l)]
  cases hl : l.dedup with
  | nil => simp
  | cons x rest =>
      rw [hl] at hnodup
      cases rest with
      | nil => simp
      | cons y rest =>
          refine iff_of_true (by simp) ⟨x, by simp, y, by simp, ?_⟩
          rintro rfl
          simp at hnodup

theorem conflicting_iff {group : List VerdictState} :
    (group.map VerdictState.record).dedup.length > 1 ↔
      ∃ a ∈ group, ∃ b ∈ group, a.record ≠ b.record := by
  rw [one_lt_dedup]
  simp only [List.mem_map, exists_exists_and_eq_and]

theorem verdictReason_congr {state state' : VerdictState} (h : timeless state' = timeless state)
    (allow : Bool) : verdictReason state' allow = verdictReason state allow := by
  obtain ⟨-, hrecord, hstate, hopens⟩ := timeless_fields h
  unfold verdictReason
  rw [hrecord, hstate, hopens]

/-- The reason of one reviewer is that of its latest states as a set. -/
theorem Alike.reason (h : Alike project fold fold') {subject seat : String} {group group' : List VerdictState}
    (hgroup : (latestStates fold project subject).get? seat = some group)
    (hgroup' : (latestStates fold' project subject).get? seat = some group') (allow : Bool) :
    reviewerReason allow (seat, group) = reviewerReason allow (seat, group') := by
  obtain ⟨hne, hmem⟩ := (keptLatest_states fold project subject seat).some group hgroup
  obtain ⟨hne', hmem'⟩ := (keptLatest_states fold' project subject seat).some group' hgroup'
  have hthere : ∀ a ∈ group, ∃ b ∈ group', timeless b = timeless a := fun a ha => by
    obtain ⟨b, hb, heq⟩ := h.latest ((hmem a).mp ha)
    exact ⟨b, (hmem' b).mpr hb, heq⟩
  have hback : ∀ b ∈ group', ∃ a ∈ group, timeless a = timeless b := fun b hb => by
    obtain ⟨a, ha, heq⟩ := h.symm.latest ((hmem' b).mp hb)
    exact ⟨a, (hmem a).mpr ha, heq⟩
  have hconflict : (∃ a ∈ group, ∃ b ∈ group, a.record ≠ b.record) ↔
      ∃ a ∈ group', ∃ b ∈ group', a.record ≠ b.record := by
    constructor
    · rintro ⟨a, ha, b, hb, hab⟩
      obtain ⟨a', ha', haeq⟩ := hthere a ha
      obtain ⟨b', hb', hbeq⟩ := hthere b hb
      refine ⟨a', ha', b', hb', ?_⟩
      rwa [(timeless_fields haeq).2.1, (timeless_fields hbeq).2.1]
    · rintro ⟨a, ha, b, hb, hab⟩
      obtain ⟨a', ha', haeq⟩ := hback a ha
      obtain ⟨b', hb', hbeq⟩ := hback b hb
      refine ⟨a', ha', b', hb', ?_⟩
      rwa [(timeless_fields haeq).2.1, (timeless_fields hbeq).2.1]
  unfold reviewerReason
  dsimp only
  by_cases hc : ∃ a ∈ group, ∃ b ∈ group, a.record ≠ b.record
  · rw [if_pos (conflicting_iff.mpr hc), if_pos (conflicting_iff.mpr (hconflict.mp hc))]
  · rw [if_neg fun hl => hc (conflicting_iff.mp hl),
      if_neg fun hl => hc (hconflict.mpr (conflicting_iff.mp hl))]
    cases group with
    | nil => exact absurd rfl hne
    | cons first rest =>
        cases group' with
        | nil => exact absurd rfl hne'
        | cons first' rest' =>
            dsimp only
            -- without a conflict the first states are of one verdict
            obtain ⟨twin, htwin, heq⟩ := hback first' (by simp)
            have hrecord : first.record = first'.record := by
              rw [← (timeless_fields heq).2.1]
              by_contra hdiffer
              exact hc ⟨first, by simp, twin, htwin, hdiffer⟩
            have hfirst := mem_entriesOn.mp ((hmem first).mp (by simp)).1
            have hfirst' := mem_entriesOn.mp ((hmem' first').mp (by simp)).1
            have hsame := h.one first hfirst.1 first' hfirst'.1 (congrArg Prod.fst hfirst.2.1)
              (hfirst.2.2.trans hfirst'.2.2.symm) hrecord
            rw [verdictReason_congr hsame]

theorem Alike.none_iff (h : Alike project fold fold') (subject seat : String) :
    (latestStates fold project subject).get? seat = none ↔
      (latestStates fold' project subject).get? seat = none := by
  have hone : ∀ {fold fold' : VerdictFold}, Alike project fold fold' →
      (latestStates fold project subject).get? seat = none →
        (latestStates fold' project subject).get? seat = none := by
    intro fold fold' h hnone
    by_contra hsome
    obtain ⟨group, hgroup⟩ := Option.ne_none_iff_exists'.mp hsome
    obtain ⟨hne, hmem⟩ := (keptLatest_states fold' project subject seat).some group hgroup
    obtain ⟨state, rest, rfl⟩ := List.exists_cons_of_ne_nil hne
    obtain ⟨twin, htwin, -⟩ := h.symm.latest ((hmem state).mp (by simp))
    exact (keptLatest_states fold project subject seat).none hnone twin htwin.1
  exact ⟨hone h, hone h.symm⟩

/-- The reviewers of a subject, sorted. -/
def reviewersOf (fold : VerdictFold) (project subject : String) : List String :=
  sortedBy (fun a b => decide (a < b)) id (latestStates fold project subject).keys

/-- The reasons of the gate, read off the sorted names. -/
theorem reasons_eq (fold : VerdictFold) (project subject : String) (allow : Bool) :
    (sortedBy (fun a b : String => decide (a < b)) Prod.fst
        (latestStates fold project subject).items).filterMap (reviewerReason allow) =
      (reviewersOf fold project subject).filterMap fun seat =>
        ((latestStates fold project subject).get? seat).bind fun group =>
          reviewerReason allow (seat, group) := by
  unfold reviewersOf Dict.keys
  rw [← map_sortedBy (fun a b : String => decide (a < b)) Prod.fst Prod.fst id
    (latestStates fold project subject).items fun _ _ => rfl, List.filterMap_map]
  refine List.filterMap_congr fun entry hentry => ?_
  obtain ⟨seat, group⟩ := entry
  have hget := (Dict.mem_items_iff _ seat group).mp ((mem_sortedBy _).mp hentry)
  show _ = ((latestStates fold project subject).get? seat).bind _
  rw [hget]
  rfl

theorem Alike.reviewers (h : Alike project fold fold') (subject : String) :
    reviewersOf fold project subject = reviewersOf fold' project subject := by
  refine sortedBy_eq_of_perm ((List.perm_ext_iff_of_nodup
    (latestStates fold project subject).nodup (latestStates fold' project subject).nodup).mpr
      fun seat => ?_)
  show seat ∈ (latestStates fold project subject).keys ↔
    seat ∈ (latestStates fold' project subject).keys
  rw [Dict.mem_keys_iff, Dict.mem_keys_iff, Ne, Ne, h.none_iff]

theorem Alike.decision (h : Alike project fold fold') (subject : String) (allow : Bool) :
    gateDecision fold project subject allow = gateDecision fold' project subject allow := by
  have hitems : ∀ fold : VerdictFold, (latestStates fold project subject).items = [] ↔
      reviewersOf fold project subject = [] := by
    intro fold
    have hperm := sortedBy_perm (fun a b : String => decide (a < b)) id
      (latestStates fold project subject).keys
    constructor
    · intro hnil
      unfold reviewersOf Dict.keys
      rw [hnil]
      rfl
    · intro hnil
      unfold reviewersOf at hnil
      rw [hnil] at hperm
      exact List.map_eq_nil_iff.mp (List.nil_perm.mp hperm)
  have hreviewers := h.reviewers subject
  have hreasons : (reviewersOf fold project subject).filterMap (fun seat =>
        ((latestStates fold project subject).get? seat).bind fun group =>
          reviewerReason allow (seat, group)) =
      (reviewersOf fold' project subject).filterMap fun seat =>
        ((latestStates fold' project subject).get? seat).bind fun group =>
          reviewerReason allow (seat, group) := by
    rw [hreviewers]
    refine List.filterMap_congr fun seat _ => ?_
    cases hget : (latestStates fold project subject).get? seat with
    | none => rw [(h.none_iff subject seat).mp hget]
    | some group =>
        cases hget' : (latestStates fold' project subject).get? seat with
        | none =>
            rw [(h.none_iff subject seat).mpr hget'] at hget
            cases hget
        | some group' => exact h.reason hget hget' allow
  unfold gateDecision
  dsimp only
  rw [reasons_eq, reasons_eq, hreasons]
  by_cases hnone : (latestStates fold project subject).items = []
  · have hnone' := (hitems fold').mpr (hreviewers ▸ (hitems fold).mp hnone)
    rw [if_pos hnone, if_pos hnone']
  · have hnone' : (latestStates fold' project subject).items ≠ [] := fun hnil =>
      hnone ((hitems fold).mpr (hreviewers ▸ (hitems fold').mp hnil))
    rw [if_neg hnone, if_neg hnone']

end Gate

/-! ## Notes as a set -/

section Notes

variable {policy : CorrectionPolicy} {notes more : List RecordedNote}

section

omit [Builtins]

/-- What a note is with its sequence number left out. -/
def content (note : RecordedNote) : String × String × String := (note.author, note.kind, note.text)

/-- Every note is among the others, under some sequence number. -/
def Covers (notes more : List RecordedNote) : Prop :=
  ∀ note ∈ notes, ∃ other ∈ more, content other = content note

/-- The same set of notes, in any order, repeated and numbered in any way. -/
def SameNotes (notes more : List RecordedNote) : Prop := Covers notes more ∧ Covers more notes

theorem content_fields {note other : RecordedNote} (h : content other = content note) :
    other.author = note.author ∧ other.kind = note.kind ∧ other.text = note.text := by
  injection h with hauthor hrest
  injection hrest with hkind htext
  exact ⟨hauthor, hkind, htext⟩

end

/-- A note of another namespace. -/
def Foreign (project : String) (note : RecordedNote) : Prop :=
  ∃ body, parseBody note.kind note.text = some (.ok body) ∧ body.namespace ≠ project

/-- Every note but those of other namespaces is among the others. -/
def CoversIn (project : String) (notes more : List RecordedNote) : Prop :=
  ∀ note ∈ notes, Foreign project note ∨ ∃ other ∈ more, content other = content note

theorem Covers.within (h : Covers notes more) (project : String) : CoversIn project notes more :=
  fun note hnote => .inr (h note hnote)

omit [Builtins] in
/-- What some facts say of a namespace, others say too. -/
structure Facts.LeIn (project : String) (facts facts' : Facts) : Prop where
  declared : ∀ hash seat, facts.declared (project, hash) seat → facts'.declared (project, hash) seat
  member : ∀ hash other, facts.member (project, hash) other → facts'.member (project, hash) other
  corrected : ∀ hash id, facts.corrected (project, hash) id → facts'.corrected (project, hash) id
  verdict : ∀ seat record, record.namespace = project → facts.verdict seat record →
    facts'.verdict seat record

omit [Builtins] in
theorem Facts.LeIn.concord {project : String} {facts facts' : Facts}
    (h : facts.LeIn project facts') (h' : facts'.LeIn project facts) :
    Concord project facts facts' where
  member := fun hash other => ⟨h.member hash other, h'.member hash other⟩
  corrected := fun hash id => ⟨h.corrected hash id, h'.corrected hash id⟩
  verdict := fun seat record hin => ⟨h.verdict seat record hin, h'.verdict seat record hin⟩

/-- A note that parses to a body of the namespace is covered. -/
theorem CoversIn.get {project : String} (h : CoversIn project notes more) {note : RecordedNote}
    (hnote : note ∈ notes) {body : RecordBody}
    (hbody : parseBody note.kind note.text = some (.ok body)) (hin : body.namespace = project) :
    ∃ other ∈ more, other.author = note.author ∧ other.kind = note.kind ∧ other.text = note.text := by
  rcases h note hnote with ⟨found, hfound, hother⟩ | ⟨other, hmore, hsame⟩
  · rw [hbody] at hfound
    cases hfound
    exact absurd hin hother
  · exact ⟨other, hmore, content_fields hsame⟩

theorem parseBody_evidence {note : RecordedNote} (hkind : note.kind = evidenceNoteKind)
    {record : EvidenceRecord} (hbody : parseEvidence note.text = .ok record) :
    parseBody note.kind note.text = some (.ok (.evidence record)) := by
  rw [hkind, parseBody, if_pos rfl, hbody]
  rfl

theorem parseBody_correction {note : RecordedNote} (hkind : note.kind = correctionNoteKind)
    {record : CorrectionRecord} (hbody : parseCorrection note.text = .ok record) :
    parseBody note.kind note.text = some (.ok (.correction record)) := by
  rw [hkind, parseBody, if_neg (by decide), if_neg (by decide), if_pos rfl, hbody]
  rfl

theorem parseBody_verdict {note : RecordedNote} (hkind : note.kind = verdictNoteKind)
    {record : VerdictRecord} (hbody : parseVerdict note.text = .ok record) :
    parseBody note.kind note.text = some (.ok (.verdict record)) := by
  rw [hkind, parseBody, if_neg (by decide), if_pos rfl, hbody]
  rfl

theorem CoversIn.declares {project hash : String} (h : CoversIn project notes more)
    {note : RecordedNote} (hnote : note ∈ notes) (hkind : note.kind = evidenceNoteKind)
    (hdeclares : Declares policy note (project, hash)) :
    ∃ other ∈ more, other.kind = evidenceNoteKind ∧ Declares policy other (project, hash) ∧
      other.author = note.author := by
  obtain ⟨record, hbody, hkey, hwrite⟩ := hdeclares
  obtain ⟨other, hother, hauthor, hotherKind, htext⟩ :=
    h.get hnote (parseBody_evidence hkind hbody) (congrArg Prod.fst hkey)
  exact ⟨other, hother, hotherKind.trans hkind, ⟨record, htext ▸ hbody, hkey, hauthor ▸ hwrite⟩,
    hauthor⟩

theorem CoversIn.mayCorrect {project : String} (h : CoversIn project notes more) {seat : String}
    {record : CorrectionRecord} (hin : record.namespace = project)
    (hmay : MayCorrect policy notes seat record) : MayCorrect policy more seat record := by
  subst hin
  obtain ⟨note, hnote, hkind, hdeclares, hseat⟩ := hmay
  obtain ⟨other, hother, hotherKind, hotherDeclares, hauthor⟩ := h.declares hnote hkind hdeclares
  exact ⟨other, hother, hotherKind, hotherDeclares, hauthor.symm ▸ hseat⟩

/-- More notes of a namespace say more of it. -/
theorem CoversIn.facts {project : String} (h : CoversIn project notes more) :
    (factsOf policy notes).LeIn project (factsOf policy more) where
  declared := by
    rintro hash seat ⟨note, hnote, hkind, hdeclares, hseat⟩
    obtain ⟨other, hother, hotherKind, hotherDeclares, hauthor⟩ := h.declares hnote hkind hdeclares
    exact ⟨other, hother, hotherKind, hotherDeclares, hauthor.trans hseat⟩
  member := by
    rintro hash member ⟨note, hnote, hkind, record, hbody, hkey, hwrite, hin⟩
    obtain ⟨other, hother, hauthor, hotherKind, htext⟩ :=
      h.get hnote (parseBody_evidence hkind hbody) (congrArg Prod.fst hkey)
    exact ⟨other, hother, hotherKind.trans hkind, record, htext ▸ hbody, hkey, hauthor ▸ hwrite, hin⟩
  corrected := by
    rintro hash id ⟨note, hnote, hkind, record, hbody, hkey, hmay, hid⟩
    obtain ⟨other, hother, hauthor, hotherKind, htext⟩ :=
      h.get hnote (parseBody_correction hkind hbody) (congrArg Prod.fst hkey)
    exact ⟨other, hother, hotherKind.trans hkind, record, htext ▸ hbody, hkey,
      hauthor ▸ h.mayCorrect (congrArg Prod.fst hkey) hmay, hid⟩
  verdict := by
    rintro seat record hin ⟨note, hnote, hkind, ⟨hbody, hwrite⟩, hseat⟩
    obtain ⟨other, hother, hauthor, hotherKind, htext⟩ :=
      h.get hnote (parseBody_verdict hkind hbody) hin
    exact ⟨other, hother, hotherKind.trans hkind, ⟨htext ▸ hbody, hauthor ▸ hwrite⟩,
      hauthor.trans hseat⟩

theorem CoversIn.concord {project : String} (h : CoversIn project notes more)
    (h' : CoversIn project more notes) :
    Concord project (factsOf policy notes) (factsOf policy more) :=
  h.facts.concord h'.facts

/-- The foreign notes aside, what stops a fold is covered too. -/
theorem CoversIn.readable {project : String} (h : CoversIn project notes more)
    (hread : Readable more) : Readable notes := by
  intro note hnote
  rcases h note hnote with ⟨body, hbody, -⟩ | ⟨other, hother, hsame⟩
  · rw [hbody]
    simp
  · obtain ⟨-, hkind, htext⟩ := content_fields hsame
    rw [← hkind, ← htext]
    exact hread other hother

/-- A body that cannot be hashed stops the fold. -/
theorem parsedNotes_unreadable (h : ¬ Readable notes) : parsedNotes notes = .error .unhashable := by
  induction notes with
  | nil => exact absurd (fun _ hin => absurd hin List.not_mem_nil) h
  | cons note rest ih =>
      unfold parsedNotes
      by_cases hnote : parseBody note.kind note.text = some (.error .unhashable)
      · rw [hnote]
      · have hrest : ¬ Readable rest := by
          intro hread
          apply h
          intro found hfound
          rcases List.mem_cons.mp hfound with rfl | hin
          · exact hnote
          · exact hread found hin
        rw [ih hrest]
        split <;> rfl

theorem foldVerdicts_unreadable (h : ¬ Readable notes) :
    foldVerdicts notes policy = .error .unhashable := by
  unfold foldVerdicts
  rw [parsedNotes_unreadable h]
  rfl

/-- A fold derives its states from tables that hold the facts. -/
theorem exists_reads {fold : VerdictFold} (h : foldVerdicts notes policy = .ok fold) :
    ∃ acc, Reads (factsOf policy notes) acc ∧ fold = deriveStates acc ∧
      ∀ entry, entry ∈ acc.2 ↔ entry.1 ∈ notes ∧ entry.1.kind = verdictNoteKind ∧
        Judges policy entry.1 entry.2 := by
  rw [foldVerdicts_of_readable (readable_of_foldVerdicts h)] at h
  cases h
  exact ⟨_, reads_countNotes policy notes _, rfl, mem_counted policy notes _⟩

section

omit [Builtins]

theorem mem_verdicts {acc : VerdictFold × Counted} {state : VerdictState} :
    state ∈ (deriveStates acc).verdicts ↔
      ∃ entry ∈ acc.2, deriveState acc.1 entry.1 entry.2 (upstreamOf acc.2) = state :=
  List.mem_map

/-- The states of a fold are those of the verdicts that count. -/
theorem Reads.verdicts {facts : Facts} {acc : VerdictFold × Counted} (h : Reads facts acc) :
    (∀ seat record, (∃ state ∈ (deriveStates acc).verdicts,
        state.reviewer = seat ∧ state.record = record) ↔ facts.verdict seat record) ∧
      ∀ state ∈ (deriveStates acc).verdicts, StateOf facts state := by
  constructor
  · intro seat record
    rw [← h.verdict]
    constructor
    · rintro ⟨state, hstate, hseat, hrecord⟩
      obtain ⟨⟨note, found⟩, hin, rfl⟩ := mem_verdicts.mp hstate
      have hfound : found = record := hrecord
      subst hfound
      exact ⟨note, hin, hseat⟩
    · rintro ⟨note, hin, hseat⟩
      exact ⟨_, mem_verdicts.mpr ⟨(note, record), hin, rfl⟩, hseat, rfl⟩
  · intro state hstate
    obtain ⟨entry, hin, rfl⟩ := mem_verdicts.mp hstate
    exact h.stateOf entry.1 entry.2

/-- Facts that agree on a namespace make folds that are alike there. -/
theorem Reads.alike {facts facts' : Facts} {acc acc' : VerdictFold × Counted}
    (h : Reads facts acc) (h' : Reads facts' acc') {project : String}
    (hsame : Concord project facts facts') :
    Alike project (deriveStates acc) (deriveStates acc') where
  left := by
    intro state hstate hin
    obtain ⟨⟨note, record⟩, hentry, rfl⟩ := mem_verdicts.mp hstate
    have hproject : record.namespace = project := hin
    subst hproject
    obtain ⟨note', hentry', hauthor⟩ := (h'.verdict note.author record).mpr
      ((hsame.verdict _ record rfl).mp ((h.verdict _ record).mp ⟨note, hentry, rfl⟩))
    exact ⟨_, mem_verdicts.mpr ⟨(note', record), hentry', rfl⟩,
      (h.timeless_eq h' hauthor.symm hsame).symm⟩
  right := by
    intro state hstate hin
    obtain ⟨⟨note', record⟩, hentry', rfl⟩ := mem_verdicts.mp hstate
    have hproject : record.namespace = project := hin
    subst hproject
    obtain ⟨note, hentry, hauthor⟩ := (h.verdict note'.author record).mpr
      ((hsame.verdict _ record rfl).mpr ((h'.verdict _ record).mp ⟨note', hentry', rfl⟩))
    exact ⟨_, mem_verdicts.mpr ⟨(note, record), hentry, rfl⟩,
      (h.timeless_eq h' hauthor hsame).symm⟩
  one := by
    intro state hstate state' hstate' hin hseat hrecord
    obtain ⟨⟨note, record⟩, hentry, rfl⟩ := mem_verdicts.mp hstate
    obtain ⟨⟨note', record'⟩, hentry', rfl⟩ := mem_verdicts.mp hstate'
    have hproject : record.namespace = project := hin
    subst hproject
    have hfound : record = record' := hrecord
    subst hfound
    exact (h.timeless_eq h' hseat hsame).symm

end

/-! ## The fold of a set of notes -/

/-- Two runs of the fold tell the same, sequence numbers aside. -/
inductive SameOutcome : Except RecordFailure VerdictFold → Except RecordFailure VerdictFold → Prop
  | counted {fold fold' : VerdictFold}
      (states : ∀ state, state ∈ fold.verdicts.map timeless ↔ state ∈ fold'.verdicts.map timeless)
      (decisions : ∀ project subject allow,
        gateDecision fold project subject allow = gateDecision fold' project subject allow) :
      SameOutcome (.ok fold) (.ok fold')
  | stopped (failure : RecordFailure) : SameOutcome (.error failure) (.error failure)

omit [Builtins] in
theorem SameOutcome.of_alike {fold fold' : VerdictFold} (h : ∀ project, Alike project fold fold') :
    SameOutcome (.ok fold) (.ok fold') := by
  refine .counted (fun state => ?_) fun project subject allow => (h project).decision subject allow
  simp only [List.mem_map]
  constructor
  · rintro ⟨found, hfound, rfl⟩
    exact (h found.record.namespace).left found hfound rfl
  · rintro ⟨found, hfound, rfl⟩
    obtain ⟨other, hother, heq⟩ := (h found.record.namespace).right found hfound rfl
    exact ⟨other, hother, heq.symm⟩

/-- The fold depends on the set of notes only, and a verdict is fresh exactly
when all it depends on is near, no correction of it is unacknowledged, and an
acceptance has inputs. -/
theorem foldVerdicts_exact (policy : CorrectionPolicy) (notes : List RecordedNote) :
    (∀ more, SameNotes notes more →
      SameOutcome (foldVerdicts notes policy) (foldVerdicts more policy)) ∧
    ∀ fold, foldVerdicts notes policy = .ok fold →
      (∀ seat record, (∃ state ∈ fold.verdicts, state.reviewer = seat ∧ state.record = record) ↔
        (factsOf policy notes).verdict seat record) ∧
      ∀ state ∈ fold.verdicts, state.state = .fresh ↔
        (∀ hash, (factsOf policy notes).Depends state.record hash →
          (factsOf policy notes).Within state.record maxDependencyDepth hash ∧
            ∀ id, (factsOf policy notes).corrected (state.record.namespace, hash) id →
              id ∈ state.record.acknowledgedCorrections) ∧
          (state.record.outcome = "accepted" → state.record.inputs ≠ []) := by
  constructor
  · intro more hsame
    by_cases hread : Readable notes
    · have hmore : Readable more := (hsame.2.within "").readable hread
      have hfold := foldVerdicts_of_readable hread policy
      have hfold' := foldVerdicts_of_readable hmore policy
      obtain ⟨acc, hreads, hacc, -⟩ := exists_reads hfold
      obtain ⟨acc', hreads', hacc', -⟩ := exists_reads hfold'
      rw [hfold, hfold', hacc, hacc']
      exact .of_alike fun project =>
        hreads.alike hreads' ((hsame.1.within project).concord (hsame.2.within project))
    · have hmore : ¬ Readable more := fun h => hread ((hsame.1.within "").readable h)
      rw [foldVerdicts_unreadable hread, foldVerdicts_unreadable hmore]
      exact .stopped _
  · intro fold hfold
    obtain ⟨acc, hreads, rfl, -⟩ := exists_reads hfold
    obtain ⟨hverdicts, hstates⟩ := hreads.verdicts
    refine ⟨hverdicts, fun state hstate => ?_⟩
    rw [(hstates state hstate).fresh]
    unfold Facts.Bounded Facts.Open Facts.Unacknowledged Unrecorded
    constructor
    · rintro ⟨hbounded, hopen, hrecorded⟩
      refine ⟨fun hash hdepends => ⟨hbounded hash hdepends, fun id hid => ?_⟩,
        fun haccepted hinputs => hrecorded ⟨haccepted, hinputs⟩⟩
      by_contra hnew
      exact hopen ⟨id, hash, hbounded hash hdepends, hid, hnew⟩
    · rintro ⟨hall, hinputs⟩
      refine ⟨fun hash hdepends => (hall hash hdepends).1, ?_,
        fun hrecorded => hinputs hrecorded.1 hrecorded.2⟩
      rintro ⟨id, hash, ⟨n, -, hwalk⟩, hid, hnew⟩
      exact hnew ((hall hash (Levels.closure_iff.mpr ⟨n, hwalk⟩)).2 id hid)

/-! ## A reviewer that disagrees with itself -/

omit [Builtins] in
/-- A verdict of one reviewer, always at its first sequence. -/
def splitVerdict (outcome : String) : VerdictRecord where
  «namespace» := "p"
  subjectSha256 := "aaaaaaaaaaaaaaaaaaaaaaaaaaaaaaaaaaaaaaaaaaaaaaaaaaaaaaaaaaaaaaaa"
  outcome := outcome
  inputs := []
  acknowledgedCorrections := []
  author := "p/r"
  reviewerSequence := 1

def splitNote (seq : Int) (outcome : String) : RecordedNote where
  seq := seq
  author := "p/r"
  kind := verdictNoteKind
  text := formatVerdict (splitVerdict outcome)

omit [Builtins] in
/-- Every seat may write, and none may correct. -/
def openPolicy : CorrectionPolicy where
  mayWrite _ _ := true
  mayCorrect _ _ := false

theorem sameNotes_split :
    SameNotes [splitNote 1 "accepted", splitNote 2 "rejected"]
      [splitNote 4 "rejected", splitNote 7 "accepted", splitNote 5 "rejected"] := by
  constructor
  · intro note hnote
    rcases List.mem_pair.mp hnote with rfl | rfl
    · exact ⟨splitNote 7 "accepted", by simp, rfl⟩
    · exact ⟨splitNote 4 "rejected", by simp, rfl⟩
  · intro note hnote
    simp only [List.mem_cons, List.not_mem_nil, or_false] at hnote
    rcases hnote with rfl | rfl | rfl
    · exact ⟨splitNote 2 "rejected", by simp, rfl⟩
    · exact ⟨splitNote 1 "accepted", by simp, rfl⟩
    · exact ⟨splitNote 2 "rejected", by simp, rfl⟩

omit [Builtins] in
/-- The two verdicts, in another order and one of them twice. -/
theorem foldVerdicts_exact_split :
    letI := Builtins.ascii
    SameOutcome (foldVerdicts [splitNote 1 "accepted", splitNote 2 "rejected"] openPolicy)
      (foldVerdicts [splitNote 4 "rejected", splitNote 7 "accepted", splitNote 5 "rejected"]
        openPolicy) := by
  let _ := Builtins.ascii
  exact (foldVerdicts_exact openPolicy _).1 _ sameNotes_split

/-! ## More evidence and corrections -/

section

omit [Builtins]

/-- A check that does not stop the fold. -/
def Soft {α : Type} (result : Except RecordFailure α) : Prop := result ≠ .error .unhashable

theorem Soft.bind {α β : Type} {x : Except RecordFailure α} {f : α → Except RecordFailure β}
    (h : Soft x) (hf : ∀ a, Soft (f a)) : Soft (x >>= f) := by
  cases x with
  | error failure =>
      intro heq
      have hfailure : (Except.error failure : Except RecordFailure β) = .error .unhashable := heq
      cases hfailure
      exact h rfl
  | ok a => exact hf a

theorem soft_malformed {α : Type} {message : String} :
    Soft (.error (.malformed message) : Except RecordFailure α) := by
  intro heq
  cases heq

theorem soft_ok {α : Type} {a : α} : Soft (.ok a : Except RecordFailure α) := by
  intro heq
  cases heq

theorem Soft.ite {α : Type} {c : Prop} [Decidable c] {a b : Except RecordFailure α} (ha : Soft a)
    (hb : Soft b) : Soft (if c then a else b) := by
  split
  · exact ha
  · exact hb

end

theorem soft_load (text schema : String) (fields : List String) : Soft (load text schema fields) := by
  unfold load
  split
  · exact soft_malformed
  · exact soft_malformed.ite (soft_malformed.ite (soft_malformed.ite soft_ok))
  · exact soft_malformed

section

omit [Builtins]

theorem soft_namespaceOf (value : Json) : Soft (namespaceOf value) := by
  unfold namespaceOf
  split
  · exact soft_ok.ite soft_malformed
  · exact soft_malformed

theorem soft_digest (value : Json) (field : String) : Soft (digest value field) := by
  unfold digest
  dsimp only
  split
  · exact soft_ok.ite soft_malformed
  · exact soft_malformed

theorem soft_digestList (value : Json) (field : String) (maximum : Nat) :
    Soft (digestList value field maximum) := by
  have hitems : ∀ values : List Json, Soft (values.mapM fun item => digest item field) := by
    intro values
    induction values with
    | nil => exact soft_ok
    | cons item rest ih =>
        rw [List.mapM_cons]
        exact (soft_digest item field).bind fun _ => ih.bind fun _ => soft_ok
  unfold digestList
  split
  · split
    · exact soft_malformed
    · refine (hitems _).bind fun items => ?_
      split
      · exact soft_malformed
      · exact soft_ok
  · exact soft_malformed

end

theorem soft_parseEvidence (text : String) : Soft (parseEvidence text) := by
  unfold parseEvidence
  refine (soft_load text _ _).bind fun _ => (soft_namespaceOf _).bind fun _ =>
    (soft_digest _ _).bind fun _ => (soft_digestList _ _ _).bind fun _ => ?_
  split
  · exact soft_malformed
  · exact soft_ok

theorem soft_parseCorrection (text : String) : Soft (parseCorrection text) := by
  have hreason : ∀ value, Soft (reasonText value) := by
    intro value
    unfold reasonText
    split
    · split
      · exact soft_malformed
      · exact soft_ok
    · exact soft_malformed
  unfold parseCorrection
  refine (soft_load text _ _).bind fun _ => (soft_digest _ _).bind fun _ =>
    (soft_digest _ _).bind fun _ => ?_
  dsimp only
  split
  · exact soft_malformed.bind fun _ => (hreason _).bind fun _ => by
      split
      · exact soft_malformed.bind fun _ => (soft_namespaceOf _).bind fun _ => soft_ok
      · exact (soft_namespaceOf _).bind fun _ => soft_ok
  · refine (hreason _).bind fun _ => ?_
    split
    · exact soft_malformed.bind fun _ => (soft_namespaceOf _).bind fun _ => soft_ok
    · exact (soft_namespaceOf _).bind fun _ => soft_ok

omit [Builtins] in
/-- A note of evidence or of a correction. -/
def Supports (note : RecordedNote) : Prop :=
  note.kind = evidenceNoteKind ∨ note.kind = correctionNoteKind

theorem readable_of_supports {note : RecordedNote} (h : Supports note) :
    parseBody note.kind note.text ≠ some (.error .unhashable) := by
  rcases h with hkind | hkind
  · rw [hkind, parseBody, if_pos rfl]
    have hsoft := soft_parseEvidence note.text
    cases hbody : parseEvidence note.text with
    | error failure =>
        rw [hbody] at hsoft
        intro heq
        cases heq
        exact hsoft rfl
    | ok record => simp [Except.map]
  · rw [hkind, parseBody, if_neg (by decide), if_neg (by decide), if_pos rfl]
    have hsoft := soft_parseCorrection note.text
    cases hbody : parseCorrection note.text with
    | error failure =>
        rw [hbody] at hsoft
        intro heq
        cases heq
        exact hsoft rfl
    | ok record => simp [Except.map]

/-- Facts with more evidence and corrections, and the same verdicts. -/
structure Facts.Supported (facts facts' : Facts) : Prop where
  declared : ∀ key seat, facts.declared key seat → facts'.declared key seat
  member : ∀ key hash, facts.member key hash → facts'.member key hash
  corrected : ∀ key id, facts.corrected key id → facts'.corrected key id
  verdict : ∀ seat record, facts.verdict seat record ↔ facts'.verdict seat record

section Supported

omit [Builtins]

variable {facts facts' : Facts}

theorem Facts.Supported.opens (h : facts.Supported facts') {record : VerdictRecord} {id : String}
    (hopen : facts.Open record id) : facts'.Open record id := by
  have hlatest : ∀ seat other, facts.Latest seat other → facts'.Latest seat other := by
    rintro seat other ⟨hverdict, hmost⟩
    exact ⟨(h.verdict seat other).mp hverdict, fun found hfound =>
      hmost found ((h.verdict seat found).mpr hfound)⟩
  have hleads : ∀ a b, facts.Leads record.namespace a b → facts'.Leads record.namespace a b := by
    rintro a b (hmember | ⟨seat, other, hl, hkey, hin⟩)
    · exact .inl (h.member _ _ hmember)
    · exact .inr ⟨seat, other, hlatest seat other hl, hkey, hin⟩
  obtain ⟨hash, ⟨n, hle, hwalk⟩, hcorrected, hnew⟩ := hopen
  exact ⟨hash, ⟨n, hle, hwalk.mono (fun _ hstart => hstart) hleads⟩, h.corrected _ _ hcorrected, hnew⟩

/-- A stale verdict is stale or unbounded once more is known. -/
theorem Facts.Supported.stale (h : facts.Supported facts') {state state' : VerdictState}
    (hstate : StateOf facts state) (hstate' : StateOf facts' state')
    (hrecord : state'.record = state.record) (hstale : state.state = .stale) :
    state'.state = .stale ∨ state'.state = .unbounded := by
  obtain ⟨-, id, hopen⟩ := hstate.stale.mp hstale
  have hopen' : ∃ id, facts'.Open state'.record id := ⟨id, hrecord ▸ h.opens hopen⟩
  by_cases hbounded : facts'.Bounded state'.record
  · exact .inl (hstate'.stale.mpr ⟨hbounded, hopen'⟩)
  · exact .inr (hstate'.unbounded.mpr hbounded)

/-- A reviewer's latest verdicts conflict, or one of them is stale. -/
def HeldBy (fold : VerdictFold) (project subject seat : String) : Prop :=
  ∃ group, (latestStates fold project subject).get? seat = some group ∧
    ((∃ a ∈ group, ∃ b ∈ group, a.record ≠ b.record) ∨ ∃ state ∈ group, state.state = .stale)

theorem reason_of_passed {fold : VerdictFold} {project subject : String} {allow : Bool}
    (h : (gateDecision fold project subject allow).passed = true) {seat : String}
    {group : List VerdictState} (hget : (latestStates fold project subject).get? seat = some group) :
    reviewerReason allow (seat, group) = none := by
  have hitem := (Dict.mem_items_iff _ seat group).mpr hget
  unfold gateDecision at h
  dsimp only at h
  rw [if_neg (List.ne_nil_of_mem hitem)] at h
  have hreasons := of_decide_eq_true h
  exact List.filterMap_eq_nil_iff.mp hreasons (seat, group) ((mem_sortedBy _).mpr hitem)

/-- A state that is stale or unbounded blocks the gate. -/
theorem verdictReason_of_held {state : VerdictState}
    (h : state.state = .stale ∨ state.state = .unbounded) (allow : Bool) :
    verdictReason state allow ≠ none := by
  unfold verdictReason
  split
  · exact Option.some_ne_none _
  · rcases h with hstate | hstate
    · rw [hstate]
      exact Option.some_ne_none _
    · rw [hstate]
      exact Option.some_ne_none _

/-- Latest verdicts of a reviewer that conflict, or are held back, block. -/
theorem reviewerReason_of_held {group : List VerdictState} {seat : String} (allow : Bool)
    (h : (∃ a ∈ group, ∃ b ∈ group, a.record ≠ b.record) ∨
      group ≠ [] ∧ ∀ state ∈ group, state.state = .stale ∨ state.state = .unbounded) :
    reviewerReason allow (seat, group) ≠ none := by
  unfold reviewerReason
  dsimp only
  by_cases hconflict : ∃ a ∈ group, ∃ b ∈ group, a.record ≠ b.record
  · rw [if_pos (conflicting_iff.mpr hconflict)]
    exact Option.some_ne_none _
  · obtain ⟨hne, hall⟩ := h.resolve_left hconflict
    rw [if_neg fun hl => hconflict (conflicting_iff.mp hl)]
    cases group with
    | nil => exact absurd rfl hne
    | cons first rest =>
        dsimp only
        rw [Ne, Option.map_eq_none_iff]
        exact verdictReason_of_held (hall first (by simp)) allow

/-- More evidence and corrections open no gate that a reviewer's stale or
conflicting verdict holds. -/
theorem Reads.gate_held {acc acc' : VerdictFold × Counted} (h : Reads facts acc)
    (h' : Reads facts' acc') (hmore : facts.Supported facts') {project subject seat : String}
    (hheld : HeldBy (deriveStates acc) project subject seat) (allow : Bool) :
    (gateDecision (deriveStates acc') project subject allow).passed = false := by
  have hverdicts := h.verdicts
  have hverdicts' := h'.verdicts
  have hleft : ∀ state ∈ (deriveStates acc).verdicts, state.record.namespace = project →
      ∃ state' ∈ (deriveStates acc').verdicts, SameVerdict state state' := by
    intro state hstate _
    obtain ⟨state', hin, hseat, hrecord⟩ := (hverdicts'.1 state.reviewer state.record).mpr
      ((hmore.verdict _ _).mp ((hverdicts.1 _ _).mp ⟨state, hstate, rfl, rfl⟩))
    exact ⟨state', hin, hseat, hrecord⟩
  have hright : ∀ state' ∈ (deriveStates acc').verdicts, state'.record.namespace = project →
      ∃ state ∈ (deriveStates acc).verdicts, SameVerdict state state' := by
    intro state' hstate _
    obtain ⟨state, hin, hseat, hrecord⟩ := (hverdicts.1 state'.reviewer state'.record).mpr
      ((hmore.verdict _ _).mpr ((hverdicts'.1 _ _).mp ⟨state', hstate, rfl, rfl⟩))
    exact ⟨state, hin, hseat.symm, hrecord.symm⟩
  obtain ⟨group, hget, hgroup⟩ := hheld
  obtain ⟨hne, hmem⟩ := (keptLatest_states _ project subject seat).some group hget
  have htwin : ∀ state ∈ group, ∃ state', LatestEntry
      (fun state : VerdictState => state.record.reviewerSequence)
      (entriesOn (deriveStates acc') project subject) seat state' ∧ SameVerdict state state' :=
    fun state hstate => latest_twin hleft hright ((hmem state).mp hstate)
  obtain ⟨some, rest, rfl⟩ := List.exists_cons_of_ne_nil hne
  obtain ⟨other, hother, -⟩ := htwin some (by simp)
  cases hget' : (latestStates (deriveStates acc') project subject).get? seat with
  | none => exact absurd hother.1 ((keptLatest_states _ project subject seat).none hget' other)
  | some group' =>
      obtain ⟨hne', hmem'⟩ := (keptLatest_states _ project subject seat).some group' hget'
      have hreason : reviewerReason allow (seat, group') ≠ none := by
        refine reviewerReason_of_held allow ?_
        by_cases hconflict : ∃ a ∈ group', ∃ b ∈ group', a.record ≠ b.record
        · exact .inl hconflict
        · refine .inr ⟨hne', fun state' hstate' => ?_⟩
          rcases hgroup with ⟨a, ha, b, hb, hab⟩ | ⟨state, hstate, hstale⟩
          · obtain ⟨a', ha', -, harecord⟩ := htwin a ha
            obtain ⟨b', hb', -, hbrecord⟩ := htwin b hb
            refine absurd ⟨a', (hmem' a').mpr ha', b', (hmem' b').mpr hb', ?_⟩ hconflict
            rwa [harecord, hbrecord]
          · -- without a conflict every latest state is of the stale verdict
            obtain ⟨twin, hlatest, -, hrecord⟩ := htwin state hstate
            have hsame : state'.record = twin.record := by
              by_contra hdiffer
              exact hconflict ⟨state', hstate', twin, (hmem' twin).mpr hlatest, hdiffer⟩
            have hin := (mem_entriesOn.mp ((hmem state).mp hstate).1).1
            have hin' := (mem_entriesOn.mp ((hmem' state').mp hstate').1).1
            exact hmore.stale (hverdicts.2 state hin) (hverdicts'.2 state' hin')
              (hsame.trans hrecord) hstale
      by_contra hpassed
      exact hreason (reason_of_passed (Bool.eq_true_of_not_eq_false hpassed) hget')

end Supported

section Added

variable {added : List RecordedNote}

omit [Builtins] in
/-- The notes and the added ones make up the others. -/
theorem SameNotes.covers_left (h : SameNotes more (notes ++ added)) : Covers notes more :=
  fun note hnote => h.2 note (List.mem_append_left _ hnote)

theorem supported_of_added (hadded : ∀ note ∈ added, Supports note)
    (h : SameNotes more (notes ++ added)) :
    (factsOf policy notes).Supported (factsOf policy more) := by
  have hle := fun project => @CoversIn.facts _ policy _ _ _ (h.covers_left.within project)
  refine ⟨fun key seat => (hle key.1).declared key.2 seat, fun key hash => (hle key.1).member key.2 hash,
    fun key id => (hle key.1).corrected key.2 id, fun seat record => ?_⟩
  constructor
  · exact (hle record.namespace).verdict seat record rfl
  · rintro ⟨note, hnote, hkind, ⟨hbody, hwrite⟩, hseat⟩
    obtain ⟨other, hother, hsame⟩ := h.1 note hnote
    obtain ⟨hauthor, hotherKind, htext⟩ := content_fields hsame
    rcases List.mem_append.mp hother with hold | hnew
    · exact ⟨other, hold, hotherKind.trans hkind, ⟨htext ▸ hbody, hauthor ▸ hwrite⟩,
        hauthor.trans hseat⟩
    · -- a note of evidence or of a correction is no verdict
      rcases hadded other hnew with hevidence | hcorrection
      · rw [hotherKind, hkind] at hevidence
        exact absurd hevidence (by decide)
      · rw [hotherKind, hkind] at hcorrection
        exact absurd hcorrection (by decide)

theorem readable_of_added (hadded : ∀ note ∈ added, Supports note)
    (h : SameNotes more (notes ++ added)) (hread : Readable notes) : Readable more := by
  intro note hnote
  obtain ⟨other, hother, hsame⟩ := h.1 note hnote
  obtain ⟨-, hkind, htext⟩ := content_fields hsame
  rw [← hkind, ← htext]
  rcases List.mem_append.mp hother with hold | hnew
  · exact hread other hold
  · exact readable_of_supports (hadded other hnew)

omit [Builtins] in
/-- What counts in a fold counts in another. -/
structure Keeps (fold fold' : VerdictFold) : Prop where
  declared : ∀ key seat, seat ∈ fold.declarersOf key → seat ∈ fold'.declarersOf key
  member : ∀ key hash, hash ∈ fold.membersOf key → hash ∈ fold'.membersOf key
  corrected : ∀ key id, id ∈ (fold.correctionsOf key).keys → id ∈ (fold'.correctionsOf key).keys

/-- Every note but those of other namespaces is among the others. -/
def KeepsIn (project : String) (notes more : List RecordedNote) : Prop :=
  ∀ note ∈ notes, Foreign project note ∨ note ∈ more

theorem KeepsIn.covers {project : String} (h : KeepsIn project notes more) :
    CoversIn project notes more :=
  fun note hnote => (h note hnote).imp_right fun hin => ⟨note, hin, rfl⟩

omit [Builtins] in
theorem eq_of_timeless {state state' : VerdictState} (h : timeless state = timeless state')
    (hseq : state.seq = state'.seq) : state = state' := by
  obtain ⟨seq, reviewer, record, derived, opens⟩ := state
  obtain ⟨seq', reviewer', record', derived', opens'⟩ := state'
  cases h
  cases hseq
  rfl

/-- The states of a namespace are those of its own notes. -/
theorem KeepsIn.verdicts {project : String} {fold fold' : VerdictFold}
    (hkeeps : KeepsIn project notes more) (hkeeps' : KeepsIn project more notes)
    (h : foldVerdicts notes policy = .ok fold) (h' : foldVerdicts more policy = .ok fold')
    {state : VerdictState} (hin : state.record.namespace = project) (hstate : state ∈ fold.verdicts) :
    state ∈ fold'.verdicts := by
  obtain ⟨acc, hreads, rfl, hcounted⟩ := exists_reads h
  obtain ⟨acc', hreads', rfl, hcounted'⟩ := exists_reads h'
  obtain ⟨⟨note, record⟩, hentry, rfl⟩ := mem_verdicts.mp hstate
  obtain ⟨hnote, hkind, hjudges⟩ := (hcounted _).mp hentry
  have hproject : record.namespace = project := hin
  subst hproject
  have hmore : note ∈ more := by
    rcases hkeeps note hnote with ⟨body, hbody, hother⟩ | hmore
    · have hown := parseBody_verdict hkind hjudges.1
      rw [hbody] at hown
      cases hown
      exact absurd rfl hother
    · exact hmore
  have hentry' := (hcounted' (note, record)).mpr ⟨hmore, hkind, hjudges⟩
  refine mem_verdicts.mpr ⟨(note, record), hentry', ?_⟩
  exact (eq_of_timeless
    (hreads.timeless_eq hreads' rfl (hkeeps.covers.concord hkeeps'.covers)) rfl).symm

/-- Added evidence and corrections take no record back, free no stale
verdict and open no gate held by a stale or a conflicting one; and notes of
other namespaces change no state and no decision of a namespace. -/
theorem foldVerdicts_supported {fold : VerdictFold} (h : foldVerdicts notes policy = .ok fold) :
    (∀ added more, (∀ note ∈ added, Supports note) → SameNotes more (notes ++ added) →
      ∃ fold', foldVerdicts more policy = .ok fold' ∧ Keeps fold fold' ∧
        (∀ state ∈ fold.verdicts, state.state = .stale →
          (∃ state' ∈ fold'.verdicts, SameVerdict state state') ∧
          ∀ state' ∈ fold'.verdicts, SameVerdict state state' →
            state'.state ≠ .fresh ∧ state'.state ≠ .inputsUnrecorded) ∧
        ∀ project subject seat allow, HeldBy fold project subject seat →
          (gateDecision fold' project subject allow).passed = false) ∧
    ∀ project more, KeepsIn project notes more → KeepsIn project more notes →
      ∃ fold', foldVerdicts more policy = .ok fold' ∧
        (∀ state, state.record.namespace = project →
          (state ∈ fold.verdicts ↔ state ∈ fold'.verdicts)) ∧
        ∀ subject allow,
          gateDecision fold project subject allow = gateDecision fold' project subject allow := by
  have hread := readable_of_foldVerdicts h
  constructor
  · intro added more hadded hmore
    have hfold := foldVerdicts_of_readable (readable_of_added hadded hmore hread) policy
    obtain ⟨acc, hreads, rfl, -⟩ := exists_reads h
    obtain ⟨acc', hreads', hacc', -⟩ := exists_reads hfold
    have hsupported := @supported_of_added _ policy _ _ _ hadded hmore
    refine ⟨deriveStates acc', hfold.trans (congrArg Except.ok hacc'), ⟨?_, ?_, ?_⟩, ?_, ?_⟩
    · intro key seat hseat
      exact (hreads'.declared key seat).mpr
        (hsupported.declared key seat ((hreads.declared key seat).mp hseat))
    · intro key hash hin
      exact (hreads'.member key hash).mpr
        (hsupported.member key hash ((hreads.member key hash).mp hin))
    · intro key id hid
      exact (hreads'.corrected key id).mpr
        (hsupported.corrected key id ((hreads.corrected key id).mp hid))
    · intro state hstate hstale
      constructor
      · obtain ⟨state', hin, hseat, hrecord⟩ := (hreads'.verdicts.1 state.reviewer state.record).mpr
          ((hsupported.verdict _ _).mp ((hreads.verdicts.1 _ _).mp ⟨state, hstate, rfl, rfl⟩))
        exact ⟨state', hin, hseat, hrecord⟩
      · rintro state' hstate' ⟨-, hrecord⟩
        rcases hsupported.stale (hreads.verdicts.2 state hstate) (hreads'.verdicts.2 state' hstate')
          hrecord hstale with hkeeps | hfar
        · rw [hkeeps]
          simp
        · rw [hfar]
          simp
    · intro project subject seat allow hheld
      exact hreads.gate_held hreads' hsupported hheld allow
  · intro project more hkeeps hkeeps'
    have hfold := foldVerdicts_of_readable (hkeeps'.covers.readable hread) policy
    refine ⟨_, hfold, fun state hin => ⟨hkeeps.verdicts hkeeps' h hfold hin,
      hkeeps'.verdicts hkeeps hfold h hin⟩, ?_⟩
    obtain ⟨acc, hreads, rfl, -⟩ := exists_reads h
    obtain ⟨acc', hreads', hacc', -⟩ := exists_reads hfold
    rw [hacc']
    exact (hreads.alike hreads' (hkeeps.covers.concord hkeeps'.covers)).decision

omit [Builtins] in
theorem split_bounds {outcome : String} (houtcome : outcome ∈ verdictOutcomes) :
    VerdictBounds (splitVerdict outcome) where
  project := by
    show isNamespace "p" = true
    decide +kernel
  outcome := houtcome
  author := by
    show isSeat "p/r" = true
    decide +kernel
  positive := by
    show (1 : Int) ≤ 1
    omega
  digits := by
    show (Nat.toDigits 10 (1 : Int).natAbs).length ≤ maxStrDigits
    decide
  subject := by
    show isSha256 "aaaaaaaaaaaaaaaaaaaaaaaaaaaaaaaaaaaaaaaaaaaaaaaaaaaaaaaaaaaaaaaa" = true
    decide +kernel
  inputs := ⟨by simp [splitVerdict], rfl, by simp [splitVerdict]⟩
  apart := by simp [splitVerdict]
  acknowledged := ⟨by simp [splitVerdict], rfl, by simp [splitVerdict]⟩

theorem split_fold :
    foldVerdicts [splitNote 1 "accepted", splitNote 2 "rejected"] openPolicy =
      .ok (deriveStates ({}, [(splitNote 1 "accepted", splitVerdict "accepted"),
        (splitNote 2 "rejected", splitVerdict "rejected")])) := by
  have haccepted := parseVerdict_formatVerdict (@split_bounds "accepted" (by decide))
  have hrejected := parseVerdict_formatVerdict (@split_bounds "rejected" (by decide))
  refine @foldVerdicts_verdicts _ _ _ [splitVerdict "accepted", splitVerdict "rejected"] ?_ ?_
  · refine List.pairwise_pair.mpr ?_
    show (1 : Int) < 2
    decide
  · exact .cons ⟨rfl, haccepted, rfl⟩ (.cons ⟨rfl, hrejected, rfl⟩ .nil)

/-- A manifest of the subject. -/
def splitEvidence : RecordedNote where
  seq := 3
  author := "p/c"
  kind := evidenceNoteKind
  text := formatEvidence {
    sha256 := "aaaaaaaaaaaaaaaaaaaaaaaaaaaaaaaaaaaaaaaaaaaaaaaaaaaaaaaaaaaaaaaa"
    «namespace» := "p" }

omit [Builtins] in
/-- The manifest does not settle the conflict. -/
theorem foldVerdicts_supported_split :
    letI := Builtins.ascii
    ∃ fold, foldVerdicts [splitNote 1 "accepted", splitNote 2 "rejected", splitEvidence]
        openPolicy = .ok fold ∧
      (gateDecision fold "p" (splitVerdict "accepted").subjectSha256 true).passed = false := by
  let _ := Builtins.ascii
  obtain ⟨fold, hfold, -, -, hgate⟩ := (foldVerdicts_supported split_fold).1 [splitEvidence]
    [splitNote 1 "accepted", splitNote 2 "rejected", splitEvidence] (by
      intro note hnote
      rw [List.mem_singleton.mp hnote]
      exact .inl rfl) ⟨fun note hnote => ⟨note, hnote, rfl⟩, fun note hnote => ⟨note, hnote, rfl⟩⟩
  refine ⟨fold, hfold, hgate "p" _ "p/r" true ?_⟩
  have hlatest : ((latestStates (deriveStates ({}, [(splitNote 1 "accepted",
      splitVerdict "accepted"), (splitNote 2 "rejected", splitVerdict "rejected")])) "p"
      (splitVerdict "accepted").subjectSha256).get? "p/r").map (fun group =>
        group.map fun state => state.record.outcome) = some ["accepted", "rejected"] := by
    decide +kernel
  obtain ⟨group, hget, houtcomes⟩ := Option.map_eq_some_iff.mp hlatest
  refine ⟨group, hget, .inl ?_⟩
  obtain ⟨a, ha, haccepted⟩ := List.mem_map.mp (houtcomes ▸ List.mem_cons_self)
  obtain ⟨b, hb, hrejected⟩ := List.mem_map.mp
    (houtcomes ▸ List.mem_cons_of_mem _ (List.mem_singleton_self _))
  refine ⟨a, ha, b, hb, fun heq => ?_⟩
  rw [heq, hrejected] at haccepted
  exact absurd haccepted (by decide)

end Added

end Notes

end VerdictSets

end SynapseChannel
