import SynapseChannel.Core.VerdictAdmission

/-!
# Core — VerdictGate

What the gate guarantees where a note lands: over every order of checks
and appends, a journalled record counts over the notes before it, and a
journalled approval passes the gate over the notes before it unless a
record of the approver's namespace came between its check and its append.
-/

namespace SynapseChannel

open Py VerdictRecords

variable [Builtins]

/-- The object an approved note is gated for, when the gate is enabled. -/
def gatedDigest (policy : VerdictHubPolicy) (kind text : String) : Option String :=
  if kind = approvalNoteKind ∧ policy.gateEnabled = true then
    match parseApprovalNote text with
    | some fields => if fields.state = "approved" then subjectDigest fields.subject else none
    | none => none
  else none

/-- A journalled record is counted over the notes before it. -/
def Counts (policy : VerdictHubPolicy) (before : List StoredEvent) (event : StoredEvent) : Prop :=
  event.kind = EventKind.ledgerProgress → (noteOf event).kind ∈ verdictRecordKinds →
    ∃ fold, foldVerdicts (recordedNotes before ++ [noteOf event]) policy.correctionPolicy =
        .ok fold ∧ ∀ reason, (event.seq, reason) ∉ fold.refused

/-- A journalled approval passes the gate over the notes before it. -/
def PassesGate (policy : VerdictHubPolicy) (before : List StoredEvent) (event : StoredEvent) :
    Prop :=
  event.kind = EventKind.ledgerProgress → ∀ digest,
    gatedDigest policy (noteOf event).kind (noteOf event).text = some digest →
    ∃ fold, foldVerdicts (recordedNotes before) policy.correctionPolicy = .ok fold ∧
      (gateDecision fold (approverNamespace (noteOf event).author) digest
        policy.allowUnrecordedInputs).passed = true

/-- Every row that a hub journalled after `first` rows has the property over
the rows before it. -/
def Lands (P : List StoredEvent → StoredEvent → Prop) (first : Nat) (events : List StoredEvent) :
    Prop :=
  ∀ before event after, events = before ++ event :: after → first ≤ before.length → P before event

omit [Builtins] in
theorem Lands.concat {P : List StoredEvent → StoredEvent → Prop} {first : Nat}
    {events : List StoredEvent} (h : Lands P first events) {event : StoredEvent}
    (hnew : P events event) : Lands P first (events ++ [event]) := by
  intro before found after hsplit hfirst
  cases after using List.reverseRecOn with
  | nil =>
    obtain ⟨rfl, hlast⟩ := List.append_inj' hsplit rfl
    cases hlast
    exact hnew
  | append_singleton after last _ =>
    rw [← List.cons_append, ← List.append_assoc] at hsplit
    exact h before found after (List.append_inj' hsplit rfl).1 hfirst

/-! ## The notes of a growing journal -/

/-- Whether a row is an evidence, verdict or correction note. -/
def isRecordRow (event : StoredEvent) : Bool :=
  decide (event.kind = EventKind.ledgerProgress) && decide ((noteOf event).kind ∈ verdictRecordKinds)

theorem recordedNotes_concat (events : List StoredEvent) (event : StoredEvent) :
    recordedNotes (events ++ [event]) =
      recordedNotes events ++ if isRecordRow event then [noteOf event] else [] := by
  unfold recordedNotes isRecordRow
  rw [List.filter_append, List.map_append, List.filter_append]
  by_cases hkind : event.kind = EventKind.ledgerProgress
  · by_cases hrecord : (noteOf event).kind ∈ verdictRecordKinds <;> simp [hkind, hrecord]
  · simp [hkind]

theorem inOrder_recordedNotes {events : List StoredEvent}
    (h : events.Pairwise fun a b => a.seq < b.seq) : InOrder (recordedNotes events) := by
  refine List.Pairwise.filter _ (List.pairwise_map.mpr ?_)
  exact h.filter _

/-- What was read, and the records that were admitted since. -/
def Grown (recorded notes : List RecordedNote) : Prop :=
  ∃ added, notes = recorded ++ added ∧ ∀ note ∈ added, parses note = true

theorem Grown.refl (notes : List RecordedNote) : Grown notes notes :=
  ⟨[], (List.append_nil notes).symm, by simp⟩

theorem Grown.concat {recorded notes : List RecordedNote} (h : Grown recorded notes)
    {note : RecordedNote} (hnote : parses note = true) : Grown recorded (notes ++ [note]) := by
  obtain ⟨added, rfl, hadded⟩ := h
  refine ⟨added ++ [note], List.append_assoc _ _ _, ?_⟩
  intro found hfound
  rcases List.mem_append.mp hfound with hold | hnew
  · exact hadded found hold
  · rw [List.mem_singleton.mp hnew]
    exact hnote

theorem Grown.readable {recorded notes : List RecordedNote} (h : Grown recorded notes)
    (hread : Readable recorded) : Readable notes := by
  obtain ⟨added, rfl, hadded⟩ := h
  intro note hnote
  rcases List.mem_append.mp hnote with hold | hnew
  · exact hread note hold
  · intro hbody
    obtain ⟨body, hok⟩ := parses_iff.mp (hadded note hnew)
    rw [hbody] at hok
    cases hok

/-! ## What a check admits -/

/-- What is known of a post whose check passed. -/
structure Admitted (policy : VerdictHubPolicy) (notes : List RecordedNote) (post : ProgressPost) :
    Prop where
  record : post.kind ∈ verdictRecordKinds → Grown post.recorded notes ∧
    ∃ fold, foldVerdicts
        (post.recorded ++ [candidate post.recorded post.sender post.kind post.text])
        policy.correctionPolicy = .ok fold ∧
      ∀ reason, ((candidate post.recorded post.sender post.kind post.text).seq, reason) ∉
        fold.refused
  approval : ∀ digest, gatedDigest policy post.kind post.text = some digest →
    Grown post.recorded notes ∧
    ∃ fold, foldVerdicts post.recorded policy.correctionPolicy = .ok fold ∧
      (gateDecision fold (approverNamespace post.sender) digest
        policy.allowUnrecordedInputs).passed = true

theorem Admitted.grow {policy : VerdictHubPolicy} {notes : List RecordedNote} {post : ProgressPost}
    (h : Admitted policy notes post) {note : RecordedNote} (hnote : parses note = true) :
    Admitted policy (notes ++ [note]) post :=
  ⟨fun hkind => ⟨(h.record hkind).1.concat hnote, (h.record hkind).2⟩,
    fun digest hdigest => ⟨(h.approval digest hdigest).1.concat hnote, (h.approval digest hdigest).2⟩⟩

theorem admitted_of_check {policy : VerdictHubPolicy} {events : List StoredEvent}
    {sender taskId kind text : String} {checked : ProgressCheck}
    (h : progressRefusal policy (some events) sender taskId kind text = .ok checked)
    (hpassed : checked.refusal = none) :
    Admitted policy (recordedNotes events)
      { sender, taskId, kind, text, recorded := checked.recorded } := by
  unfold progressRefusal at h
  by_cases hrecord : kind ∈ verdictRecordKinds
  · rw [if_pos hrecord] at h
    obtain ⟨refusal, hrefusal, h⟩ := Outcome.bind_ok h
    cases h
    obtain rfl : refusal = none := hpassed
    refine ⟨fun _ => ⟨Grown.refl _, ?_⟩, ?_⟩
    · unfold admissionRefusal at hrefusal
      split at hrefusal
      · cases hrefusal
      · cases hrefusal
      · obtain ⟨fold, hfold, hnone⟩ := Outcome.bind_ok hrefusal
        refine ⟨fold, hfold, ?_⟩
        intro reason hin
        have hfind := Except.ok.inj hnone
        rw [Option.map_eq_none_iff, List.find?_eq_none] at hfind
        exact hfind _ hin (decide_eq_true rfl)
    · intro digest hdigest
      unfold gatedDigest at hdigest
      split at hdigest <;> rename_i hgated
      · have hkind : kind = approvalNoteKind := hgated.1
        subst hkind
        exact absurd hrecord (by decide)
      · cases hdigest
  · rw [if_neg hrecord] at h
    refine ⟨fun hkind => absurd hkind hrecord, ?_⟩
    intro digest hdigest
    unfold gatedDigest at hdigest
    split at hdigest <;> rename_i hgated
    · rw [if_pos hgated.1] at h
      dsimp only at hdigest
      split at hdigest <;> rename_i fields hfields
      · rw [hfields] at h
        dsimp only at h
        split at hdigest <;> rename_i hstate
        · rw [if_neg (by simp [hstate])] at h
          obtain ⟨⟨refusal, rows⟩, hgate, h⟩ := Outcome.bind_ok h
          cases h
          obtain rfl : refusal = none := hpassed
          refine ⟨Grown.refl _, ?_⟩
          unfold approvalGate at hgate
          rw [if_pos hgated.2] at hgate
          obtain ⟨decision, hdecision, hgate⟩ := Outcome.bind_ok hgate
          have hnone : decision = none := by
            have := congrArg Prod.fst (Except.ok.inj hgate)
            simpa using this
          unfold approvalRefusal at hdecision
          rw [hdigest] at hdecision
          simp only [hgated.2, Bool.not_true, Bool.false_eq_true, if_false] at hdecision
          obtain ⟨fold, hfold, hdecision⟩ := Outcome.bind_ok hdecision
          refine ⟨fold, hfold, ?_⟩
          have hpass := Except.ok.inj hdecision
          rw [hnone] at hpass
          by_contra hfailed
          rw [if_neg hfailed] at hpass
          cases hpass
        · cases hdigest
      · cases hdigest
    · cases hdigest

theorem rows_of_check {policy : VerdictHubPolicy} {events : List StoredEvent}
    {sender taskId kind text : String} {checked : ProgressCheck}
    (h : progressRefusal policy (some events) sender taskId kind text = .ok checked) :
    ∀ row ∈ checked.rows, row.1 ≠ EventKind.ledgerProgress := by
  have hrefused : ∀ refusal : Option String,
      ∀ row ∈ refusal.toList.map (refusedRow sender taskId kind), row.1 ≠ EventKind.ledgerProgress := by
    intro refusal row hrow
    obtain ⟨reason, -, rfl⟩ := List.mem_map.mp hrow
    show "verdict_record_refused" ≠ EventKind.ledgerProgress
    decide
  unfold progressRefusal at h
  split at h
  · obtain ⟨refusal, -, h⟩ := Outcome.bind_ok h
    cases h
    exact hrefused refusal
  · split at h
    · split at h
      · split at h
        · cases h
          simp
        · obtain ⟨⟨refusal, rows⟩, hgate, h⟩ := Outcome.bind_ok h
          cases h
          intro row hrow
          rcases List.mem_append.mp hrow with hbypass | hrow
          · unfold approvalGate at hgate
            split at hgate
            · obtain ⟨decision, -, hgate⟩ := Outcome.bind_ok hgate
              cases hgate
              cases hbypass
            · split at hgate
              · obtain ⟨would, -, hgate⟩ := Outcome.bind_ok hgate
                cases hgate
                rw [List.mem_singleton.mp hbypass]
                show "verdict_gate_bypass" ≠ EventKind.ledgerProgress
                decide
              · cases hgate
                cases hbypass
          · exact hrefused refusal row hrow
      · cases h
        simp
    · cases h
      simp

/-! ## Where the note lands -/

theorem parses_of_admitted {policy : CorrectionPolicy} {recorded : List RecordedNote}
    {author kind text : String} (hkind : kind ∈ verdictRecordKinds) {fold : VerdictFold}
    (hfold : foldVerdicts (recorded ++ [candidate recorded author kind text]) policy = .ok fold)
    (hcounts : ∀ reason, ((candidate recorded author kind text).seq, reason) ∉ fold.refused) :
    parses (candidate recorded author kind text) = true := by
  have hread := readable_of_foldVerdicts hfold (candidate recorded author kind text) (by simp)
  have hno := hcounts "malformed-record"
  rw [mem_refused hfold] at hno
  rw [parses_iff]
  cases hbody : parseBody (candidate recorded author kind text).kind
      (candidate recorded author kind text).text with
  | none =>
    -- an owned kind has a parser
    have howned : (parseBody kind text).isSome := by
      unfold parseBody
      simp only [verdictRecordKinds, List.mem_cons, List.not_mem_nil, or_false] at hkind
      rcases hkind with rfl | rfl | rfl <;> simp [evidenceNoteKind, verdictNoteKind,
        correctionNoteKind]
    rw [show parseBody kind text = none from hbody] at howned
    cases howned
  | some outcome =>
    cases outcome with
    | ok body => exact ⟨body, rfl⟩
    | error failure =>
      cases failure with
      | unhashable => exact absurd hbody hread
      | malformed message =>
        exact absurd ⟨candidate recorded author kind text, by simp, rfl, .malformed hbody⟩ hno

/-- An admitted record counts after any records that were admitted since. -/
theorem counts_of_grown {policy : CorrectionPolicy} {recorded notes : List RecordedNote}
    (hgrown : Grown recorded notes) {note : RecordedNote} (hlast : ∀ n ∈ notes, n.seq < note.seq)
    {fold : VerdictFold}
    (hfold : foldVerdicts (recorded ++ [candidate recorded note.author note.kind note.text]) policy =
      .ok fold)
    (hcounts : ∀ reason,
      ((candidate recorded note.author note.kind note.text).seq, reason) ∉ fold.refused) :
    ∃ fold, foldVerdicts (notes ++ [note]) policy = .ok fold ∧
      ∀ reason, (note.seq, reason) ∉ fold.refused := by
  have hread := readable_of_foldVerdicts hfold
  have hall : Readable (notes ++ [note]) := by
    have hnotes := hgrown.readable fun n hn => hread n (List.mem_append_left _ hn)
    intro n hn
    rcases List.mem_append.mp hn with hold | hnew
    · exact hnotes n hold
    · rw [List.mem_singleton.mp hnew]
      exact hread (candidate recorded note.author note.kind note.text) (by simp)
  have hafter := foldVerdicts_of_readable hall policy
  refine ⟨_, hafter, ?_⟩
  intro reason hin
  obtain ⟨found, hfound, hseq, hrefused⟩ := (mem_refused hafter _ _).mp hin
  -- the sequence is the new note's alone
  obtain rfl : found = note := by
    rcases List.mem_append.mp hfound with hold | hnew
    · have := hlast found hold
      omega
    · exact List.mem_singleton.mp hnew
  refine hcounts reason ((mem_refused hfold _ _).mpr ⟨_, by simp, rfl, ?_⟩)
  have hsame : found.author = (candidate recorded found.author found.kind found.text).author ∧
      found.kind = (candidate recorded found.author found.kind found.text).kind ∧
      found.text = (candidate recorded found.author found.kind found.text).text := ⟨rfl, rfl, rfl⟩
  refine RefusedFor.anti hsame ?_ hrefused
  intro n hn
  obtain ⟨added, rfl, -⟩ := hgrown
  rcases List.mem_append.mp hn with hold | hnew
  · exact .inl (by simp [hold])
  · rw [List.mem_singleton.mp hnew]
    exact .inr rfl

theorem passes_of_grown {policy : VerdictHubPolicy} {recorded notes : List RecordedNote}
    (hgrown : Grown recorded notes) (horder : InOrder notes) {project digest : String}
    (hsame : notes.filter (inProject project) = recorded.filter (inProject project))
    {fold : VerdictFold} (hfold : foldVerdicts recorded policy.correctionPolicy = .ok fold)
    (hpassed : (gateDecision fold project digest policy.allowUnrecordedInputs).passed = true) :
    ∃ fold, foldVerdicts notes policy.correctionPolicy = .ok fold ∧
      (gateDecision fold project digest policy.allowUnrecordedInputs).passed = true := by
  have hall := hgrown.readable (readable_of_foldVerdicts hfold)
  have hafter := foldVerdicts_of_readable hall policy.correctionPolicy
  refine ⟨_, hafter, ?_⟩
  have horder' : InOrder recorded := by
    obtain ⟨added, rfl, -⟩ := hgrown
    exact (List.pairwise_append.mp horder).1
  rw [gateDecision_local horder horder' hafter hfold hsame]
  exact hpassed

/-! ## Runs -/

theorem orEmpty_str (s : String) : ((Json.str s).or (.str "")).toStr = s := by
  unfold Json.or
  split <;> rename_i h
  · rfl
  · simp only [Json.truthy, bne_iff_ne, ne_eq, not_not] at h
    rw [h]
    rfl

theorem noteOf_asDict (seq : Int) (ts : Float) (kind : String) (note : ProgressNote) :
    noteOf ⟨seq, ts, kind, note.asDict⟩ = ⟨seq, note.author, note.kind, note.text⟩ := by
  unfold noteOf
  congr 1
  · exact orEmpty_str note.author
  · exact orEmpty_str note.kind
  · exact orEmpty_str note.text

/-- A row of another handler. -/
def Unguarded (kind : String) (payload : Members) : Prop :=
  kind ≠ EventKind.ledgerProgress ∨
    (noteField payload "kind" ∉ verdictRecordKinds ∧ noteField payload "kind" ≠ approvalNoteKind)

namespace ProgressHub

/-- What every run keeps: what is known of the posts in progress, and that
the records journalled so far count. -/
structure Sound (policy : VerdictHubPolicy) (first : Nat) (hub : ProgressHub) : Prop where
  configured : hub.policy = policy
  reached : first ≤ hub.journal.events.length
  admitted : ∀ post ∈ hub.posts, Admitted policy (recordedNotes hub.journal.events) post
  counted : Lands (Counts policy) first hub.journal.events

/-- The approvals journalled so far passed the gate. -/
def Passed (policy : VerdictHubPolicy) (first : Nat) (hub : ProgressHub) : Prop :=
  Lands (PassesGate policy) first hub.journal.events

/-- No record of the approver's namespace was journalled between the check of
a gated approval and its append. -/
def Unraced (hub : ProgressHub) : PostStep → Prop
  | .append place _ _ => ∀ post, hub.posts[place]? = some post →
      gatedDigest hub.policy post.kind post.text ≠ none →
      (recordedNotes hub.journal.events).filter (inProject (approverNamespace post.sender)) =
        post.recorded.filter (inProject (approverNamespace post.sender))
  | _ => True

variable {policy : VerdictHubPolicy} {first : Nat} {hub : ProgressHub}

/-- A row that is no guarded note changes nothing that the gate reads. -/
theorem quiet (h : Sound policy first hub) (ts : Float) {kind : String} {payload : Members}
    (hrow : Unguarded kind payload) :
    Sound policy first { hub with journal := hub.journal.append ts kind payload } ∧
      (Passed policy first hub →
        Passed policy first { hub with journal := hub.journal.append ts kind payload }) := by
  have hnotes : recordedNotes (hub.journal.append ts kind payload).events =
      recordedNotes hub.journal.events := by
    show recordedNotes (hub.journal.events ++ [_]) = _
    rw [recordedNotes_concat, if_neg, List.append_nil]
    unfold isRecordRow
    rw [Bool.and_eq_true, decide_eq_true_eq, decide_eq_true_eq]
    rintro ⟨hkind, hrecord⟩
    rcases hrow with hother | hunguarded
    · exact hother hkind
    · exact hunguarded.1 hrecord
  refine ⟨⟨h.configured, ?_, ?_, ?_⟩, ?_⟩
  · show first ≤ (hub.journal.events ++ [_]).length
    have := h.reached
    rw [List.length_append]
    omega
  · intro post hpost
    show Admitted policy (recordedNotes (hub.journal.append ts kind payload).events) post
    rw [hnotes]
    exact h.admitted post hpost
  · apply h.counted.concat
    intro hkind hrecord
    rcases hrow with hother | hunguarded
    · exact absurd hkind hother
    · exact absurd hrecord hunguarded.1
  · intro hpassed
    apply hpassed.concat
    intro hkind digest hdigest
    rcases hrow with hother | hunguarded
    · exact absurd hkind hother
    · unfold gatedDigest at hdigest
      rw [if_neg] at hdigest
      · cases hdigest
      · exact fun hgated => hunguarded.2 hgated.1

omit [Builtins] in
theorem appendRows_cons (journal : NoteJournal) (ts : Float) (row : String × Members)
    (rest : List (String × Members)) :
    journal.appendRows ts (row :: rest) = (journal.append ts row.1 row.2).appendRows ts rest := rfl

theorem recordedNotes_appendRows (journal : NoteJournal) (ts : Float)
    {rows : List (String × Members)} (hrows : ∀ row ∈ rows, row.1 ≠ EventKind.ledgerProgress) :
    recordedNotes (journal.appendRows ts rows).events = recordedNotes journal.events := by
  induction rows generalizing journal with
  | nil => rfl
  | cons row rest ih =>
    rw [appendRows_cons, ih _ fun later hlater => hrows later (List.mem_cons_of_mem _ hlater)]
    show recordedNotes (journal.events ++ [_]) = _
    rw [recordedNotes_concat, if_neg, List.append_nil]
    simp [isRecordRow, hrows row List.mem_cons_self]

/-- Audit rows change nothing that the gate reads. -/
theorem quiet_rows (h : Sound policy first hub) (ts : Float) {rows : List (String × Members)}
    (hrows : ∀ row ∈ rows, row.1 ≠ EventKind.ledgerProgress) :
    Sound policy first { hub with journal := hub.journal.appendRows ts rows } ∧
      (Passed policy first hub →
        Passed policy first { hub with journal := hub.journal.appendRows ts rows }) := by
  induction rows generalizing hub with
  | nil => exact ⟨h, id⟩
  | cons row rest ih =>
    have hone := @quiet _ _ _ _ h ts row.1 row.2 (.inl (hrows row List.mem_cons_self))
    have hrest := ih hone.1 fun later hlater => hrows later (List.mem_cons_of_mem _ hlater)
    exact ⟨hrest.1, fun hpassed => hrest.2 (hone.2 hpassed)⟩

theorem sound_check (h : Sound policy first hub) (sender : String) (data : Members) (ts : Float) :
    Sound policy first (hub.check sender data ts) ∧
      (Passed policy first hub → Passed policy first (hub.check sender data ts)) := by
  unfold check
  dsimp only
  generalize noteField data "task_id" = taskId
  generalize (((Members.get data "text").or (Members.get data "payload")).or (.str "")).toStr = text
  generalize ((Members.get data "kind").or (.str "note")).toStr = kind
  cases hchecked : progressRefusal hub.policy (some hub.journal.events) sender taskId kind text with
  | error failure => exact ⟨h, id⟩
  | ok checked =>
    have hrows := rows_of_check hchecked
    obtain ⟨hsound, hpassed⟩ := quiet_rows h ts hrows
    dsimp only
    split <;> rename_i hrefusal
    · exact ⟨hsound, hpassed⟩
    · refine ⟨⟨hsound.configured, hsound.reached, ?_, hsound.counted⟩, hpassed⟩
      intro post hpost
      rcases List.mem_append.mp hpost with hold | hnew
      · exact hsound.admitted post hold
      · rw [List.mem_singleton.mp hnew]
        show Admitted policy (recordedNotes (hub.journal.appendRows ts checked.rows).events) _
        rw [recordedNotes_appendRows hub.journal ts hrows, ← h.configured]
        exact admitted_of_check hchecked hrefusal

theorem sound_append (h : Sound policy first hub) (place : Nat) (ts now : Float) :
    Sound policy first (hub.append place ts now) ∧
      (Unraced hub (.append place ts now) → Passed policy first hub →
        Passed policy first (hub.append place ts now)) := by
  unfold append
  cases hget : hub.posts[place]? with
  | none => exact ⟨h, fun _ => id⟩
  | some post =>
    have hadmitted := h.admitted post (List.mem_of_getElem? hget)
    have hothers : ∀ other ∈ hub.posts.eraseIdx place,
        Admitted policy (recordedNotes hub.journal.events) other := fun other hother =>
      h.admitted other (List.mem_of_mem_eraseIdx hother)
    dsimp only
    unfold Blackboard.postProgress
    by_cases hkind : post.kind ∈ progressKinds
    case neg =>
      rw [if_pos hkind]
      exact ⟨⟨h.configured, h.reached, hothers, h.counted⟩, fun _ => id⟩
    rw [if_neg (not_not_intro hkind)]
    dsimp only
    set note : ProgressNote := {
      taskId := strip post.taskId, author := post.sender, kind := post.kind, text := post.text,
      postedAt := now } with hnote
    set event : StoredEvent :=
      ⟨hub.journal.lastSeq + 1, ts, EventKind.ledgerProgress, note.asDict⟩ with hevent
    have hread : noteOf event = ⟨hub.journal.lastSeq + 1, post.sender, post.kind, post.text⟩ :=
      noteOf_asDict _ _ _ note
    have hlast : ∀ n ∈ recordedNotes hub.journal.events, n.seq < (noteOf event).seq := by
      intro n hn
      obtain ⟨earlier, hearlier, rfl⟩ := List.mem_map.mp (List.mem_filter.mp hn).1
      have := hub.journal.bounded earlier (List.mem_filter.mp hearlier).1
      rw [hread]
      show earlier.seq < hub.journal.lastSeq + 1
      omega
    refine ⟨⟨h.configured, ?_, ?_, ?_⟩, ?_⟩
    · show first ≤ (hub.journal.events ++ [event]).length
      have := h.reached
      rw [List.length_append]
      omega
    · intro other hother
      show Admitted policy (recordedNotes (hub.journal.events ++ [event])) other
      rw [recordedNotes_concat]
      split <;> rename_i hrecord
      · apply (hothers other hother).grow
        -- the appended record was admitted, so it parses
        have hrecordKind : post.kind ∈ verdictRecordKinds := by
          unfold isRecordRow at hrecord
          rw [Bool.and_eq_true, hread, decide_eq_true_eq, decide_eq_true_eq] at hrecord
          exact hrecord.2
        obtain ⟨-, fold, hfold, hcounts⟩ := hadmitted.record hrecordKind
        have hparses := parses_of_admitted hrecordKind hfold hcounts
        rw [hread]
        exact hparses
      · rw [List.append_nil]
        exact hothers other hother
    · apply h.counted.concat
      intro _ hrecord
      rw [hread] at hrecord
      obtain ⟨hgrown, fold, hfold, hcounts⟩ := hadmitted.record hrecord
      refine @counts_of_grown _ _ _ _ hgrown _ hlast fold ?_ ?_
      · rw [hread]
        exact hfold
      · rw [hread]
        exact hcounts
    · intro hunraced hpassed
      apply hpassed.concat
      intro _ digest hdigest
      rw [hread] at hdigest ⊢
      obtain ⟨hgrown, fold, hfold, hpass⟩ := hadmitted.approval digest hdigest
      refine passes_of_grown hgrown ?_ ?_ hfold hpass
      · exact inOrder_recordedNotes hub.journal.ordered
      · apply hunraced post hget
        rw [h.configured]
        intro hnone
        rw [hdigest] at hnone
        cases hnone

theorem sound_step (h : Sound policy first hub) (i : PostStep) :
    Sound policy first (hub.step i) ∧
      (Unraced hub i → Passed policy first hub → Passed policy first (hub.step i)) := by
  cases i with
  | check sender data ts => exact ⟨(sound_check h sender data ts).1, fun _ => (sound_check h sender data ts).2⟩
  | append place ts now => exact sound_append h place ts now
  | drop place =>
    refine ⟨⟨h.configured, h.reached, ?_, h.counted⟩, fun _ => id⟩
    intro other hother
    exact h.admitted other (List.mem_of_mem_eraseIdx hother)
  | other ts row => exact ⟨(quiet h ts row.unguarded).1, fun _ => (quiet h ts row.unguarded).2⟩

theorem sound_start (policy : VerdictHubPolicy) (journal : NoteJournal) (board : Blackboard) :
    Sound policy journal.events.length (start policy journal board) := by
  refine ⟨rfl, le_rfl, by simp [start], ?_⟩
  intro before event after hsplit hfirst
  -- no row is journalled yet
  have := congrArg List.length hsplit
  rw [List.length_append, List.length_cons] at this
  have : (start policy journal board).journal.events.length = journal.events.length := rfl
  omega

/-- Whatever the order of the posts, every record that a hub journals is
counted over the notes before it; and when no step appends a gated approval
after a record of the approver's namespace that came since its check, every
gated approval that the hub journals passes over the notes before it. -/
theorem verdict_gate (policy : VerdictHubPolicy) (journal : NoteJournal) (board : Blackboard)
    (steps : List PostStep) :
    let hub := Trace.run step (start policy journal board) steps
    Lands (Counts policy) journal.events.length hub.journal.events ∧
      (Trace.Every step Unraced (start policy journal board) steps →
        Lands (PassesGate policy) journal.events.length hub.journal.events) := by
  have hrun : ∀ hub, Sound policy journal.events.length hub →
      Sound policy journal.events.length (Trace.run step hub steps) ∧
      (Trace.Every step Unraced hub steps → Passed policy journal.events.length hub →
        Passed policy journal.events.length (Trace.run step hub steps)) := by
    induction steps with
    | nil => exact fun hub h => ⟨h, fun _ => id⟩
    | cons i rest ih =>
      intro hub h
      obtain ⟨hnext, hpassed⟩ := sound_step h i
      obtain ⟨hlast, hrest⟩ := ih (hub.step i) hnext
      exact ⟨hlast, fun hevery hfirst => hrest hevery.2 (hpassed hevery.1 hfirst)⟩
  obtain ⟨hsound, hpassed⟩ := hrun _ (sound_start policy journal board)
  refine ⟨hsound.counted, fun hevery => hpassed hevery ?_⟩
  intro before event after hsplit hfirst
  have hlength := congrArg List.length hsplit
  rw [List.length_append, List.length_cons] at hlength
  have : (start policy journal board).journal.events.length = journal.events.length := rfl
  omega

/-! ## A verdict between the check and the append -/

/-- The hash of 64 letters `a`. -/
def racedHash : String := "aaaaaaaaaaaaaaaaaaaaaaaaaaaaaaaaaaaaaaaaaaaaaaaaaaaaaaaaaaaaaaaa"

/-- A reviewer's verdicts on it. -/
def racedVerdict (outcome : String) (sequence : Int) : VerdictRecord where
  «namespace» := "p"
  subjectSha256 := racedHash
  outcome := outcome
  inputs := ["bbbbbbbbbbbbbbbbbbbbbbbbbbbbbbbbbbbbbbbbbbbbbbbbbbbbbbbbbbbbbbbb"]
  acknowledgedCorrections := []
  author := "p/r"
  reviewerSequence := sequence

def racedNote (outcome : String) (sequence : Int) : RecordedNote where
  seq := sequence
  author := "p/r"
  kind := "verdict"
  text := formatVerdict (racedVerdict outcome sequence)

/-- A journal that holds the reviewer's first verdict, an acceptance. -/
def racedJournal : NoteJournal :=
  NoteJournal.append { events := [], lastSeq := 0, ordered := by simp, bounded := by simp } 1
    EventKind.ledgerProgress
    { taskId := "", author := "p/r", kind := "verdict",
      text := formatVerdict (racedVerdict "accepted" 1), postedAt := 1 : ProgressNote }.asDict

def racedApproval : String := "approval subject=" ++ racedHash ++ " state=approved"

/-- An approval is checked, the reviewer rejects, the approval is appended. -/
def racedSteps : List PostStep :=
  [.check "p/c" [("kind", .str "approval"), ("text", .str racedApproval)] 2,
    .check "p/r" [("kind", .str "verdict"),
      ("text", .str (racedNote "rejected" 2).text)] 3,
    .append 1 4 4, .append 0 5 5]

omit [Builtins] in
theorem raced_bounds {outcome : String} (houtcome : outcome ∈ verdictOutcomes) {sequence : Int}
    (hsequence : sequence = 1 ∨ sequence = 2) : VerdictBounds (racedVerdict outcome sequence) where
  project := by
    show isNamespace "p" = true
    decide +kernel
  outcome := houtcome
  author := by
    show isSeat "p/r" = true
    decide +kernel
  positive := by
    show 1 ≤ sequence
    omega
  digits := by
    show (Nat.toDigits 10 sequence.natAbs).length ≤ maxStrDigits
    rcases hsequence with rfl | rfl <;> decide
  subject := by
    show isSha256 racedHash = true
    decide +kernel
  inputs := by
    refine ⟨?_, rfl, by simp [racedVerdict, maxVerdictInputs]⟩
    intro item hitem
    rw [List.mem_singleton.mp hitem]
    decide +kernel
  apart := by
    show racedHash ∉ ["bbbbbbbbbbbbbbbbbbbbbbbbbbbbbbbbbbbbbbbbbbbbbbbbbbbbbbbbbbbbbbbb"]
    decide +kernel
  acknowledged := ⟨by simp [racedVerdict], rfl, by simp [racedVerdict]⟩

theorem raced_parses {outcome : String} (houtcome : outcome ∈ verdictOutcomes) {sequence : Int}
    (hsequence : sequence = 1 ∨ sequence = 2) :
    parseVerdict (racedNote outcome sequence).text = .ok (racedVerdict outcome sequence) :=
  parseVerdict_formatVerdict (raced_bounds houtcome hsequence)

/-- The fold once the reviewer accepted, and once it rejected after that. -/
theorem raced_fold :
    foldVerdicts [racedNote "accepted" 1] (VerdictHubPolicy.correctionPolicy {}) =
        .ok (deriveStates ({}, [(racedNote "accepted" 1, racedVerdict "accepted" 1)])) ∧
      foldVerdicts [racedNote "accepted" 1, racedNote "rejected" 2]
          (VerdictHubPolicy.correctionPolicy {}) =
        .ok (deriveStates ({}, [(racedNote "accepted" 1, racedVerdict "accepted" 1),
          (racedNote "rejected" 2, racedVerdict "rejected" 2)])) := by
  have hseat : (VerdictHubPolicy.correctionPolicy {}).mayWrite "p" "p/r" = true := by decide +kernel
  have hfirst := @raced_parses _ "accepted" (by decide) _ (.inl rfl)
  have hsecond := @raced_parses _ "rejected" (by decide) _ (.inr rfl)
  constructor
  · refine @foldVerdicts_verdicts _ _ _ [racedVerdict "accepted" 1] ?_ ?_
    · exact List.pairwise_singleton _ _
    · exact .cons ⟨rfl, hfirst, hseat⟩ .nil
  · refine @foldVerdicts_verdicts _ _ _
      [racedVerdict "accepted" 1, racedVerdict "rejected" 2] ?_ ?_
    · refine List.pairwise_pair.mpr ?_
      show (1 : Int) < 2
      decide
    · exact .cons ⟨rfl, hfirst, hseat⟩ (.cons ⟨rfl, hsecond, hseat⟩ .nil)

theorem raced_journal : recordedNotes racedJournal.events = [racedNote "accepted" 1] := by
  show recordedNotes ([] ++ [_]) = _
  rw [recordedNotes_concat, if_pos]
  · show [noteOf _] = _
    rw [noteOf_asDict]
    rfl
  · unfold isRecordRow
    rw [noteOf_asDict]
    rfl

omit [Builtins] in
theorem raced_approval :
    parseApprovalNote racedApproval = some ⟨racedHash, "approved", ""⟩ ∧
      subjectDigest racedHash = some racedHash := by
  decide +kernel

omit [Builtins] in
/-- The gate over an acceptance, and over a later rejection. -/
theorem raced_gate :
    letI := Builtins.ascii
    (gateDecision (deriveStates ({}, [(racedNote "accepted" 1, racedVerdict "accepted" 1)]))
        "p" racedHash false).passed = true ∧
      (gateDecision (deriveStates ({}, [(racedNote "accepted" 1, racedVerdict "accepted" 1),
        (racedNote "rejected" 2, racedVerdict "rejected" 2)])) "p" racedHash false).passed = false := by
  decide +kernel

section Raced

theorem raced_check_approval
    (hpass : (gateDecision (deriveStates ({}, [(racedNote "accepted" 1, racedVerdict "accepted" 1)]))
      "p" racedHash false).passed = true) :
    progressRefusal {} (some racedJournal.events) "p/c" "" "approval" racedApproval =
      .ok { refusal := none, recorded := [racedNote "accepted" 1] } := by
  have hproject : approverNamespace "p/c" = "p" := by decide +kernel
  have hrefusal : approvalRefusal [racedNote "accepted" 1] {} racedHash "p/c" = .ok none := by
    unfold approvalRefusal
    rw [raced_approval.2]
    dsimp only
    rw [Bool.not_true, if_neg Bool.false_ne_true, raced_fold.1, hproject]
    show Except.ok (if _ then _ else _) = _
    rw [if_pos hpass]
  unfold progressRefusal
  rw [if_neg (by decide), if_pos (by decide), raced_approval.1]
  dsimp only
  rw [if_neg (by decide), raced_journal, approvalGate, if_pos rfl, hrefusal]
  rfl

/-- A verdict whose fold refuses nothing is admitted. -/
theorem check_verdict {policy : VerdictHubPolicy} {events : List StoredEvent}
    {sender taskId text : String} {record : VerdictRecord} {notes : List RecordedNote}
    {fold : VerdictFold} (hnotes : recordedNotes events = notes)
    (hbody : parseVerdict text = .ok record)
    (hfold : foldVerdicts (notes ++ [candidate notes sender "verdict" text])
      policy.correctionPolicy = .ok fold) (hrefused : fold.refused = []) :
    progressRefusal policy (some events) sender taskId "verdict" text =
      .ok { refusal := none, recorded := notes } := by
  have hvalid : validateRecordBody "verdict" text = .ok () := by
    unfold validateRecordBody parseBody
    rw [if_neg (by decide), if_pos (by decide), hbody]
    rfl
  unfold progressRefusal admissionRefusal
  rw [if_pos (by decide)]
  dsimp only
  rw [hnotes, hvalid]
  dsimp only
  rw [hfold]
  show Except.ok (ProgressCheck.mk ((fold.refused.find? _).map Prod.snd) notes _) = _
  rw [hrefused]
  rfl

/-- The rejection is admitted after the acceptance. -/
theorem raced_check_verdict :
    progressRefusal {} (some racedJournal.events) "p/r" "" "verdict" (racedNote "rejected" 2).text =
      .ok { refusal := none, recorded := [racedNote "accepted" 1] } :=
  check_verdict raced_journal (@raced_parses _ "rejected" (by decide) _ (.inr rfl))
    raced_fold.2 rfl

/-- Two posts are checked, and the second one is appended first. -/
theorem run_race {hub : ProgressHub} {i j : PostStep} {first second : ProgressPost}
    (hi : step hub i = { hub with posts := [first] })
    (hj : step { hub with posts := [first] } j = { hub with posts := [first, second] })
    (hfirst : first.kind ∈ progressKinds) (hsecond : second.kind ∈ progressKinds)
    (ts now ts' now' : Float) :
    (Trace.run step hub [i, j, .append 1 ts now, .append 0 ts' now']).journal.events =
      hub.journal.events ++
        [⟨hub.journal.lastSeq + 1, ts, EventKind.ledgerProgress, (ProgressNote.mk
          (strip second.taskId) second.sender second.kind second.text now).asDict⟩] ++
        [⟨hub.journal.lastSeq + 1 + 1, ts', EventKind.ledgerProgress, (ProgressNote.mk
          (strip first.taskId) first.sender first.kind first.text now').asDict⟩] := by
  have happend : ∀ (hub : ProgressHub) (place : Nat) (post : ProgressPost) (ts now : Float),
      hub.posts[place]? = some post → post.kind ∈ progressKinds →
      (hub.append place ts now).posts = hub.posts.eraseIdx place ∧
      (hub.append place ts now).journal = hub.journal.append ts EventKind.ledgerProgress
        (ProgressNote.mk (strip post.taskId) post.sender post.kind post.text now).asDict := by
    intro hub place post ts now hget hkind
    unfold append
    rw [hget]
    dsimp only
    rw [Blackboard.postProgress, if_neg (not_not_intro hkind)]
    exact ⟨rfl, rfl⟩
  simp only [Trace.run]
  rw [hi, hj]
  show ((append _ 1 ts now).append 0 ts' now').journal.events = _
  obtain ⟨hposts, hjournal⟩ :=
    happend { hub with posts := [first, second] } 1 second ts now rfl hsecond
  rw [(happend _ 0 first ts' now' (by rw [hposts]; rfl) hfirst).2, hjournal]
  rfl

/-- A frame of a kind and a text, whose check passes over the acceptance. -/
theorem step_check {hub : ProgressHub} {sender kind text : String} (ts : Float)
    (hkind : ((Json.str kind).or (.str "note")).toStr = kind)
    (hchecked : progressRefusal hub.policy (some hub.journal.events) sender "" kind text =
      .ok { refusal := none, recorded := [racedNote "accepted" 1] }) :
    step hub (.check sender [("kind", .str kind), ("text", .str text)] ts) =
      { hub with posts := hub.posts ++ [⟨sender, "", kind, text, [racedNote "accepted" 1]⟩] } := by
  have htext : (((Json.str text).or .null).or (.str "")).toStr = text := by
    by_cases h : text = ""
    · subst h
      rfl
    · rw [show (Json.str text).or .null = .str text from if_pos (bne_iff_ne.mpr h), orEmpty_str]
  show check hub sender _ ts = _
  unfold check
  dsimp only
  rw [show noteField [("kind", .str kind), ("text", .str text)] "task_id" = "" from rfl,
    show (((Members.get [("kind", .str kind), ("text", .str text)] "text").or
      (Members.get [("kind", .str kind), ("text", .str text)] "payload")).or (.str "")).toStr = text
      from htext,
    show ((Members.get [("kind", .str kind), ("text", .str text)] "kind").or (.str "note")).toStr =
      kind from hkind, hchecked]
  rfl

/-- The rejection lands between the check of the approval and its append. -/
theorem raced_fails
    (hpass : (gateDecision (deriveStates ({}, [(racedNote "accepted" 1, racedVerdict "accepted" 1)]))
      "p" racedHash false).passed = true)
    (hfail : (gateDecision (deriveStates ({}, [(racedNote "accepted" 1, racedVerdict "accepted" 1),
      (racedNote "rejected" 2, racedVerdict "rejected" 2)])) "p" racedHash false).passed = false) :
    ¬ Lands (PassesGate {}) racedJournal.events.length
      (Trace.run step (start {} racedJournal (Blackboard.init 10 10 10)) racedSteps).journal.events := by
  intro hlands
  have happroval := raced_approval
  have hchecked := raced_check_approval hpass
  have hverdict := raced_check_verdict
  have hfold := raced_fold.2
  have hnote : (⟨2, "p/r", "verdict", (racedNote "rejected" 2).text⟩ : RecordedNote) =
      racedNote "rejected" 2 := rfl
  have hjournal := raced_journal
  have hlast : racedJournal.lastSeq = 1 := rfl
  unfold racedSteps at hlands
  -- the texts and the journal play no part in the run itself
  generalize racedApproval = approval at hlands happroval hchecked
  generalize racedNote "rejected" 2 = rejected at hlands hverdict hfold hfail hnote
  generalize racedJournal = journal at hlands hverdict hchecked hjournal hlast
  have hi := @step_check _ (start {} journal (Blackboard.init 10 10 10)) "p/c" "approval" approval 2 rfl
    hchecked
  have hj := @step_check _ { start {} journal (Blackboard.init 10 10 10) with
    posts := [⟨"p/c", "", "approval", approval, [racedNote "accepted" 1]⟩] } "p/r" "verdict"
    rejected.text 3 rfl hverdict
  have hkinds : "approval" ∈ progressKinds ∧ "verdict" ∈ progressKinds := by decide
  have hrun := run_race hi hj hkinds.1 hkinds.2 4 4 5 5
  have hrow : recordedNotes (journal.events ++ [⟨journal.lastSeq + 1, 4, EventKind.ledgerProgress,
      (ProgressNote.mk (strip "") "p/r" "verdict" rejected.text 4).asDict⟩]) =
      [racedNote "accepted" 1, rejected] := by
    rw [recordedNotes_concat, hjournal, if_pos]
    · rw [noteOf_asDict, hlast]
      exact congrArg (fun note => [racedNote "accepted" 1, note]) hnote
    · unfold isRecordRow
      rw [noteOf_asDict]
      rfl
  obtain ⟨fold, hrejected, hpassed⟩ := hlands _ _ [] hrun (by simp [start]) rfl racedHash (by
    rw [noteOf_asDict]
    show gatedDigest {} "approval" approval = some racedHash
    unfold gatedDigest
    rw [if_pos (by decide), happroval.1]
    dsimp only
    rw [if_pos rfl, happroval.2])
  rw [noteOf_asDict] at hpassed
  have hproject : approverNamespace "p/c" = "p" := by decide +kernel
  have hafter : foldVerdicts [racedNote "accepted" 1, rejected]
      (VerdictHubPolicy.correctionPolicy {}) = .ok fold := by
    rw [← hrow]
    exact hrejected
  rw [hfold] at hafter
  cases hafter
  dsimp only at hpassed
  rw [hproject, hfail] at hpassed
  cases hpassed

/-- The approval alone, with nothing between its check and its append. -/
theorem undisturbed
    (hpass : (gateDecision (deriveStates ({}, [(racedNote "accepted" 1, racedVerdict "accepted" 1)]))
      "p" racedHash false).passed = true) :
    Trace.Every step Unraced (start {} racedJournal (Blackboard.init 10 10 10))
      [.check "p/c" [("kind", .str "approval"), ("text", .str racedApproval)] 2,
        .append 0 5 5] := by
  have hchecked := raced_check_approval hpass
  have hjournal := raced_journal
  generalize racedApproval = approval at hchecked ⊢
  generalize racedJournal = journal at hchecked hjournal ⊢
  have hi := @step_check _ (start {} journal (Blackboard.init 10 10 10)) "p/c" "approval" approval 2 rfl
    hchecked
  refine ⟨trivial, ?_, trivial⟩
  rw [hi]
  intro post hpost _
  cases hpost
  show (recordedNotes journal.events).filter _ = _
  rw [hjournal]

end Raced

omit [Builtins] in
theorem verdict_gate_undisturbed :
    letI := Builtins.ascii
    Lands (PassesGate {}) racedJournal.events.length
      (Trace.run step (start {} racedJournal (Blackboard.init 10 10 10))
        [.check "p/c" [("kind", .str "approval"), ("text", .str racedApproval)] 2,
          .append 0 5 5]).journal.events :=
  (@verdict_gate Builtins.ascii {} _ _ _).2 (@undisturbed Builtins.ascii raced_gate.1)

omit [Builtins] in
/-- A gated approval is checked over an acceptance, the reviewer rejects, and
the approval is journalled after the rejection. -/
theorem approval_after_rejection :
    ¬ ∀ [Builtins] (policy : VerdictHubPolicy) (journal : NoteJournal) (board : Blackboard)
      (steps : List PostStep),
      Lands (Counts policy) journal.events.length
          (Trace.run step (start policy journal board) steps).journal.events ∧
        Lands (PassesGate policy) journal.events.length
          (Trace.run step (start policy journal board) steps).journal.events := by
  intro hall
  let _ : Builtins := Builtins.ascii
  exact raced_fails raced_gate.1 raced_gate.2 (hall {} racedJournal _ racedSteps).2

end ProgressHub

end SynapseChannel
