import SynapseChannel.Core.VerdictSets
import SynapseChannel.Lib.Group

/-!
# Core — VerdictClosure

The state of a verdict out of the sets of facts: what it depends on, level
by level, and the corrections that are open for it. The latest verdicts of a
reviewer are those at its highest sequence, whatever the order.
-/

namespace SynapseChannel

open Py VerdictRecords Outcome

namespace VerdictSets

variable [Builtins]

/-! ## The latest entries of a reviewer -/

section Latest

omit [Builtins]

variable {α : Type} (sequence : α → Int)

/-- An entry at the highest sequence of its reviewer. -/
def LatestEntry (entries : List (String × α)) (seat : String) (a : α) : Prop :=
  (seat, a) ∈ entries ∧ ∀ b, (seat, b) ∈ entries → sequence b ≤ sequence a

/-- What stands under a reviewer once the entries are folded. -/
structure KeptLatest (entries : List (String × α)) (seat : String)
    (kept : Option (List α)) : Prop where
  none : kept = .none → ∀ a, (seat, a) ∉ entries
  some : ∀ group, kept = .some group →
    group ≠ [] ∧ ∀ a, a ∈ group ↔ LatestEntry sequence entries seat a

variable {sequence}

theorem LatestEntry.concat_ne {entries : List (String × α)} {entry : String × α} {seat : String}
    {a : α} (hne : entry.1 ≠ seat) :
    LatestEntry sequence (entries ++ [entry]) seat a ↔ LatestEntry sequence entries seat a := by
  have hmem : ∀ b, (seat, b) ∈ entries ++ [entry] ↔ (seat, b) ∈ entries := by
    intro b
    rw [List.mem_append, List.mem_singleton]
    refine or_iff_left ?_
    rintro rfl
    exact hne rfl
  unfold LatestEntry
  simp only [hmem]

theorem KeptLatest.step {entries : List (String × α)} {latest : Dict String (List α)}
    (h : ∀ seat, KeptLatest sequence entries seat (latest.get? seat)) (entry : String × α)
    (seat : String) :
    KeptLatest sequence (entries ++ [entry]) seat ((keepLatest sequence latest entry).get? seat) := by
  obtain ⟨name, e⟩ := entry
  by_cases hname : name = seat
  · subst hname
    have hmem : ∀ b, (name, b) ∈ entries ++ [(name, e)] ↔ (name, b) ∈ entries ∨ b = e := by
      intro b
      simp
    unfold keepLatest
    dsimp only
    cases hget : latest.get? name with
    | none =>
        have hno := (h name).none hget
        rw [Dict.get?_set_self]
        refine ⟨fun hnone => (by cases hnone), fun group hgroup => ?_⟩
        cases hgroup
        refine ⟨by simp, fun a => ?_⟩
        rw [List.mem_singleton]
        constructor
        · rintro rfl
          refine ⟨(hmem a).mpr (.inr rfl), fun b hb => ?_⟩
          rcases (hmem b).mp hb with hold | rfl
          · exact absurd hold (hno b)
          · exact Int.le_refl _
        · rintro ⟨ha, -⟩
          exact ((hmem a).mp ha).resolve_left (hno a)
    | some group =>
        obtain ⟨hne, hgroup⟩ := (h name).some group hget
        cases group with
        | nil => exact absurd rfl hne
        | cons first more =>
            dsimp only
            obtain ⟨hfirst, hmost⟩ := (hgroup first).mp (by simp)
            by_cases hlt : sequence first < sequence e
            · -- a higher sequence starts a new group
              rw [if_pos hlt, Dict.get?_set_self]
              refine ⟨fun hnone => (by cases hnone), fun found hfound => ?_⟩
              cases hfound
              refine ⟨by simp, fun a => ?_⟩
              rw [List.mem_singleton]
              constructor
              · rintro rfl
                refine ⟨(hmem a).mpr (.inr rfl), fun b hb => ?_⟩
                rcases (hmem b).mp hb with hold | rfl
                · have hle := hmost b hold
                  omega
                · exact Int.le_refl _
              · rintro ⟨ha, hmax⟩
                rcases (hmem a).mp ha with hold | heq
                · have hle := hmost a hold
                  have hge := hmax e ((hmem e).mpr (.inr rfl))
                  omega
                · exact heq
            · rw [if_neg hlt]
              by_cases heq : sequence e = sequence first
              · -- a tie joins the group
                rw [if_pos heq, Dict.get?_set_self]
                refine ⟨fun hnone => (by cases hnone), fun found hfound => ?_⟩
                cases hfound
                refine ⟨by simp, fun a => ?_⟩
                rw [List.mem_append, List.mem_singleton, hgroup]
                constructor
                · rintro (⟨ha, hmax⟩ | rfl)
                  · refine ⟨(hmem a).mpr (.inl ha), fun b hb => ?_⟩
                    rcases (hmem b).mp hb with hold | rfl
                    · exact hmax b hold
                    · rw [heq]
                      exact hmax first hfirst
                  · refine ⟨(hmem a).mpr (.inr rfl), fun b hb => ?_⟩
                    rcases (hmem b).mp hb with hold | rfl
                    · rw [heq]
                      exact hmost b hold
                    · exact Int.le_refl _
                · rintro ⟨ha, hmax⟩
                  rcases (hmem a).mp ha with hold | rfl
                  · exact .inl ⟨hold, fun b hb => hmax b ((hmem b).mpr (.inl hb))⟩
                  · exact .inr rfl
              · -- a lower sequence is dropped
                rw [if_neg heq, hget]
                refine ⟨fun hnone => (by cases hnone), fun found hfound => ?_⟩
                cases hfound
                refine ⟨hne, fun a => ?_⟩
                rw [hgroup]
                constructor
                · rintro ⟨ha, hmax⟩
                  refine ⟨(hmem a).mpr (.inl ha), fun b hb => ?_⟩
                  rcases (hmem b).mp hb with hold | rfl
                  · exact hmax b hold
                  · have hle := hmax first hfirst
                    omega
                · rintro ⟨ha, hmax⟩
                  rcases (hmem a).mp ha with hold | rfl
                  · exact ⟨hold, fun b hb => hmax b ((hmem b).mpr (.inl hb))⟩
                  · have hge := hmax first ((hmem first).mpr (.inl hfirst))
                    omega
  · have hget : (keepLatest sequence latest (name, e)).get? seat = latest.get? seat := by
      unfold keepLatest
      dsimp only
      split
      · split
        · exact Dict.get?_set_ne _ _ hname
        · split
          · exact Dict.get?_set_ne _ _ hname
          · rfl
      · exact Dict.get?_set_ne _ _ hname
    rw [hget]
    refine ⟨fun hnone a ha => ?_, fun group hgroup => ?_⟩
    · rw [List.mem_append, List.mem_singleton] at ha
      rcases ha with hold | heq
      · exact (h seat).none hnone a hold
      · exact hname (congrArg Prod.fst heq).symm
    · obtain ⟨hne, hmem⟩ := (h seat).some group hgroup
      exact ⟨hne, fun a => (hmem a).trans (LatestEntry.concat_ne hname).symm⟩

theorem keptLatest (entries : List (String × α)) (seat : String) :
    KeptLatest sequence entries seat
      ((entries.foldl (keepLatest sequence) Dict.empty).get? seat) := by
  induction entries using List.reverseRecOn generalizing seat with
  | nil => exact ⟨fun _ _ => List.not_mem_nil, fun group hgroup => by cases hgroup⟩
  | append_singleton entries entry ih =>
      rw [List.foldl_append]
      exact KeptLatest.step ih entry seat

end Latest

/-! ## The closure of a verdict's inputs -/

section Closure

omit [Builtins]

variable {facts : Facts} {acc : VerdictFold × Counted}

theorem mem_bySubject (counted : Counted) (key : ObjectKey) (entry : String × VerdictRecord) :
    entry ∈ ((bySubject counted).get? key).getD [] ↔
      ∃ note, (note, entry.2) ∈ counted ∧ (entry.2.namespace, entry.2.subjectSha256) = key ∧
        note.author = entry.1 := by
  have hgroup : bySubject counted =
      groupBy (fun e => (e.2.namespace, e.2.subjectSha256)) (fun e => (e.1.author, e.2)) counted :=
    rfl
  rw [hgroup, getD_groupBy, List.mem_map]
  obtain ⟨seat, record⟩ := entry
  constructor
  · rintro ⟨⟨note, found⟩, hmem, heq⟩
    obtain ⟨hin, hkey⟩ := List.mem_filter.mp hmem
    cases heq
    exact ⟨note, hin, of_decide_eq_true hkey, rfl⟩
  · rintro ⟨note, hin, hkey, hauthor⟩
    refine ⟨(note, record), List.mem_filter.mpr ⟨hin, decide_eq_true hkey⟩, ?_⟩
    exact Prod.ext hauthor rfl

/-- The upstream verdicts of an object are the latest on it. -/
theorem Reads.mem_upstream (h : Reads facts acc) (key : ObjectKey) (record : VerdictRecord) :
    record ∈ ((upstreamOf acc.2).get? key).getD [] ↔
      ∃ seat, facts.Latest seat record ∧ (record.namespace, record.subjectSha256) = key := by
  unfold upstreamOf
  rw [Dict.get?_filterMapValues]
  set entries := ((bySubject acc.2).get? key).getD [] with hentries
  have hvalues : (((bySubject acc.2).get? key).bind fun entries =>
      some (latestByReviewer entries).values.flatten).getD [] =
        (latestByReviewer entries).values.flatten := by
    rw [hentries]
    cases (bySubject acc.2).get? key <;> rfl
  have hmem : ∀ seat other, (seat, other) ∈ entries ↔ facts.verdict seat other ∧
      (other.namespace, other.subjectSha256) = key := by
    intro seat other
    rw [hentries, mem_bySubject, ← h.verdict]
    constructor
    · rintro ⟨note, hin, hkey, hauthor⟩
      exact ⟨⟨note, hin, hauthor⟩, hkey⟩
    · rintro ⟨⟨note, hin, hauthor⟩, hkey⟩
      exact ⟨note, hin, hkey, hauthor⟩
  rw [hvalues, List.mem_flatten]
  have hkept := fun seat => @keptLatest _ VerdictRecord.reviewerSequence entries seat
  constructor
  · rintro ⟨group, hgroup, hin⟩
    obtain ⟨seat, hget⟩ := (Dict.mem_values_iff _ _).mp hgroup
    obtain ⟨hentry, hmost⟩ := (((hkept seat).some group hget).2 record).mp hin
    obtain ⟨hverdict, hkey⟩ := (hmem seat record).mp hentry
    refine ⟨seat, ⟨hverdict, fun other hother hsame => ?_⟩, hkey⟩
    exact hmost other ((hmem seat other).mpr ⟨hother, hsame.trans hkey⟩)
  · rintro ⟨seat, ⟨hverdict, hmost⟩, hkey⟩
    have hentry := (hmem seat record).mpr ⟨hverdict, hkey⟩
    cases hget : (latestByReviewer entries).get? seat with
    | none => exact absurd hentry ((hkept seat).none hget record)
    | some group =>
        refine ⟨group, (Dict.mem_values_iff _ _).mpr ⟨seat, hget⟩,
          (((hkept seat).some group hget).2 record).mpr ⟨hentry, fun other hother => ?_⟩⟩
        obtain ⟨hcounts, hsame⟩ := (hmem seat other).mp hother
        exact hmost other hcounts (hsame.trans hkey.symm)

theorem mem_following (fold : VerdictFold) (upstream : Upstream) (project : String)
    (frontier : List ObjectKey) (next : ObjectKey) :
    next ∈ following fold upstream project frontier ↔
      next.1 = project ∧ ∃ key ∈ frontier, next.2 ∈ fold.membersOf key ∨
        ∃ verdict ∈ (upstream.get? key).getD [], next.2 ∈ verdict.inputs := by
  have hpair : ∀ hashes : List String,
      next ∈ hashes.map (project, ·) ↔ next.1 = project ∧ next.2 ∈ hashes := by
    intro hashes
    obtain ⟨name, hash⟩ := next
    simp only [List.mem_map, Prod.mk.injEq]
    constructor
    · rintro ⟨_, hin, rfl, rfl⟩
      exact ⟨rfl, hin⟩
    · rintro ⟨rfl, hin⟩
      exact ⟨hash, hin, rfl, rfl⟩
  unfold following
  rw [FoldPart.adds (I := fun _ => True) (P := fun keys : List ObjectKey => next ∈ keys)
    (Q := fun key => next.1 = project ∧ (next.2 ∈ fold.membersOf key ∨
      ∃ verdict ∈ (upstream.get? key).getD [], next.2 ∈ verdict.inputs))
    (fun _ _ _ => trivial) ?_ _ trivial]
  · constructor
    · rintro (hnil | ⟨key, hkey, hproject, hleads⟩)
      · cases hnil
      · exact ⟨hproject, key, hkey, hleads⟩
    · rintro ⟨hproject, key, hkey, hleads⟩
      exact .inr ⟨key, hkey, hproject, hleads⟩
  · intro keys key _
    rw [FoldPart.adds (I := fun _ => True) (P := fun keys : List ObjectKey => next ∈ keys)
      (Q := fun verdict : VerdictRecord => next.1 = project ∧ next.2 ∈ verdict.inputs)
      (fun _ _ _ => trivial)
      (fun keys verdict _ => by rw [List.mem_union_iff, hpair]) _ trivial,
      List.mem_union_iff, hpair]
    constructor
    · rintro ((hold | ⟨hproject, hin⟩) | ⟨verdict, hverdict, hproject, hin⟩)
      · exact .inl hold
      · exact .inr ⟨hproject, .inl hin⟩
      · exact .inr ⟨hproject, .inr ⟨verdict, hverdict, hin⟩⟩
    · rintro (hold | ⟨hproject, hin | ⟨verdict, hverdict, hin⟩⟩)
      · exact .inl (.inl hold)
      · exact .inl (.inr ⟨hproject, hin⟩)
      · exact .inr ⟨verdict, hverdict, hproject, hin⟩

/-- The objects a frontier of one namespace leads to. -/
theorem Reads.mem_next (h : Reads facts acc) {project : String} {frontier : List ObjectKey}
    (hin : AllIn project frontier) (next : ObjectKey) :
    next ∈ following acc.1 (upstreamOf acc.2) project frontier ↔
      next.1 = project ∧ ∃ hash, (project, hash) ∈ frontier ∧ facts.Leads project hash next.2 := by
  rw [mem_following]
  refine and_congr_right fun _ => ?_
  unfold Facts.Leads
  simp only [h.member, h.mem_upstream]
  constructor
  · rintro ⟨⟨name, hash⟩, hkey, hleads⟩
    obtain rfl : name = project := hin _ hkey
    refine ⟨hash, hkey, hleads.imp_right ?_⟩
    rintro ⟨verdict, ⟨seat, hlatest, hsame⟩, hinput⟩
    exact ⟨seat, verdict, hlatest, hsame, hinput⟩
  · rintro ⟨hash, hkey, hleads⟩
    refine ⟨(project, hash), hkey, hleads.imp_right ?_⟩
    rintro ⟨seat, verdict, hlatest, hsame, hinput⟩
    exact ⟨verdict, ⟨seat, hlatest, hsame⟩, hinput⟩

/-- The objects of a list are those of one namespace with the property. -/
def Holds (project : String) (p : String → Prop) (keys : List ObjectKey) : Prop :=
  ∀ key, key ∈ keys ↔ key.1 = project ∧ p key.2

theorem Reads.searched (h : Reads facts acc) {project : String} {start : String → Prop}
    {levels depth : Nat} {seen frontier : List ObjectKey}
    (hseen : Holds project (Levels.Seen start (facts.Leads project) depth) seen)
    (hfrontier : Holds project (Levels.Frontier start (facts.Leads project) depth) frontier) :
    Holds project (Levels.Seen start (facts.Leads project) (depth + levels))
        (follow acc.1 (upstreamOf acc.2) project levels seen frontier).1 ∧
      ((follow acc.1 (upstreamOf acc.2) project levels seen frontier).2 = true ↔
        ∀ hash, Levels.Closure start (facts.Leads project) hash →
          Levels.Seen start (facts.Leads project) (depth + levels) hash) := by
  have hin : AllIn project frontier := fun key hkey => ((hfrontier key).mp hkey).1
  induction levels generalizing depth seen frontier with
  | zero =>
      cases frontier with
      | nil =>
          refine ⟨hseen, iff_of_true rfl fun hash hclosed => ?_⟩
          obtain ⟨n, hwalk⟩ := Levels.closure_iff.mp hclosed
          refine Levels.seen_of_empty (fun a ha => ?_) hwalk
          exact absurd ((hfrontier (project, a)).mpr ⟨rfl, ha⟩) List.not_mem_nil
      | cons key rest =>
          refine ⟨hseen, iff_of_false Bool.false_ne_true fun hall => ?_⟩
          obtain ⟨-, hwalk, hnew⟩ := (hfrontier key).mp (by simp)
          exact hnew (hall key.2 (Levels.closure_iff.mpr ⟨depth, hwalk⟩))
  | succ levels ih =>
      cases frontier with
      | nil =>
          have hempty : ∀ a, ¬ Levels.Frontier start (facts.Leads project) depth a := fun a ha =>
            absurd ((hfrontier (project, a)).mpr ⟨rfl, ha⟩) List.not_mem_nil
          have hlater : ∀ hash, Levels.Seen start (facts.Leads project) (depth + (levels + 1)) hash ↔
              Levels.Seen start (facts.Leads project) depth hash := by
            intro hash
            constructor
            · rintro ⟨n, -, hwalk⟩
              exact Levels.seen_of_empty hempty hwalk
            · rintro ⟨n, hlt, hwalk⟩
              exact ⟨n, by omega, hwalk⟩
          refine ⟨fun key => ?_, iff_of_true rfl fun hash hclosed => ?_⟩
          · rw [hlater]
            exact hseen key
          · obtain ⟨n, hwalk⟩ := Levels.closure_iff.mp hclosed
            exact (hlater hash).mpr (Levels.seen_of_empty hempty hwalk)
      | cons key rest =>
          have hnext : Holds project (Levels.Seen start (facts.Leads project) (depth + 1))
              (seen ∪ key :: rest) := by
            intro found
            rw [List.mem_union_iff, hseen found, hfrontier found, Levels.seen_succ]
            tauto
          have hlevel : depth + (levels + 1) = depth + 1 + levels := by omega
          rw [hlevel]
          refine @ih (depth + 1) _ _ hnext ?_ ?_
          · intro found
            rw [List.mem_filter, h.mem_next hin, decide_eq_true_eq, hnext found,
              Levels.frontier_succ]
            simp only [hfrontier (project, _), true_and]
            constructor
            · rintro ⟨⟨hproject, hash, hfront, hleads⟩, hnew⟩
              exact ⟨hproject, ⟨hash, hfront, hleads⟩, fun hs => hnew ⟨hproject, hs⟩⟩
            · rintro ⟨hproject, ⟨hash, hfront, hleads⟩, hnew⟩
              exact ⟨⟨hproject, hash, hfront, hleads⟩, fun hs => hnew hs.2⟩
          · intro found hfound
            exact ((h.mem_next hin found).mp (List.mem_filter.mp hfound).1).1

end Closure

/-! ## The state of a verdict -/

section States

omit [Builtins]

/-- Everything a verdict depends on lies within the depth that is
followed. -/
def Facts.Bounded (facts : Facts) (record : VerdictRecord) : Prop :=
  ∀ hash, facts.Depends record hash → facts.Within record maxDependencyDepth hash

/-- A correction that is open for a verdict. -/
def Facts.Open (facts : Facts) (record : VerdictRecord) (id : String) : Prop :=
  ∃ hash, facts.Within record maxDependencyDepth hash ∧ facts.Unacknowledged record hash id

/-- Accepted, and on no recorded input. -/
def Unrecorded (record : VerdictRecord) : Prop :=
  record.outcome = "accepted" ∧ record.inputs = []

/-- A derived state is what the facts make of its verdict. -/
structure StateOf (facts : Facts) (state : VerdictState) : Prop where
  corrections : ∀ id, id ∈ state.unacknowledgedCorrections ↔ facts.Open state.record id
  unbounded : state.state = .unbounded ↔ ¬ facts.Bounded state.record
  stale : state.state = .stale ↔ facts.Bounded state.record ∧ ∃ id, facts.Open state.record id
  inputsUnrecorded : state.state = .inputsUnrecorded ↔ facts.Bounded state.record ∧
    (¬ ∃ id, facts.Open state.record id) ∧ Unrecorded state.record
  fresh : state.state = .fresh ↔ facts.Bounded state.record ∧
    (¬ ∃ id, facts.Open state.record id) ∧ ¬ Unrecorded state.record

variable {facts : Facts} {acc acc' : VerdictFold × Counted}

theorem seen_iff_within {record : VerdictRecord} {hash : String} :
    Levels.Seen (· ∈ record.inputs) (facts.Leads record.namespace) (maxDependencyDepth + 1) hash ↔
      facts.Within record maxDependencyDepth hash := by
  unfold Levels.Seen Facts.Within
  simp only [Nat.lt_succ_iff]

theorem Reads.keys (h : Reads facts acc) (record : VerdictRecord) :
    Holds record.namespace (facts.Within record maxDependencyDepth)
        (dependencies acc.1 record (upstreamOf acc.2)).1 ∧
      ((dependencies acc.1 record (upstreamOf acc.2)).2 = true ↔ facts.Bounded record) := by
  have hstart : Holds record.namespace
      (Levels.Frontier (· ∈ record.inputs) (facts.Leads record.namespace) 0)
      (record.inputs.map (record.namespace, ·)).dedup := by
    rintro ⟨name, hash⟩
    rw [List.mem_dedup, Levels.frontier_zero]
    simp only [List.mem_map, Prod.mk.injEq]
    constructor
    · rintro ⟨_, hin, rfl, rfl⟩
      exact ⟨rfl, hin⟩
    · rintro ⟨rfl, hin⟩
      exact ⟨hash, hin, rfl, rfl⟩
  have hnone : Holds record.namespace
      (Levels.Seen (· ∈ record.inputs) (facts.Leads record.namespace) 0) [] := fun key =>
    iff_of_false List.not_mem_nil fun hseen => Levels.not_seen_zero hseen.2
  obtain ⟨hkeys, hbounded⟩ := @Reads.searched _ _ h _ _ (maxDependencyDepth + 1) _ _ _ hnone hstart
  have hlevels : 0 + (maxDependencyDepth + 1) = maxDependencyDepth + 1 := Nat.zero_add _
  rw [hlevels] at hkeys hbounded
  refine ⟨fun key => (hkeys key).trans ?_, hbounded.trans ?_⟩
  · rw [seen_iff_within]
  · simp only [seen_iff_within]
    exact Iff.rfl

/-- The open corrections before they are sorted. -/
def openOf (fold : VerdictFold) (record : VerdictRecord) (keys : List ObjectKey) : List String :=
  keys.flatMap fun key => (fold.correctionsOf key).keys.filter (· ∉ record.acknowledgedCorrections)

theorem Reads.mem_openOf (h : Reads facts acc) (record : VerdictRecord) (id : String) :
    id ∈ openOf acc.1 record (dependencies acc.1 record (upstreamOf acc.2)).1 ↔
      facts.Open record id := by
  have hkeys := (h.keys record).1
  unfold openOf Facts.Open Facts.Unacknowledged
  simp only [List.mem_flatMap, List.mem_filter, decide_eq_true_eq, h.corrected]
  constructor
  · rintro ⟨⟨name, hash⟩, hkey, hcorrected, hnew⟩
    obtain ⟨hname, hwithin⟩ := (hkeys _).mp hkey
    dsimp only at hname
    subst hname
    exact ⟨hash, hwithin, hcorrected, hnew⟩
  · rintro ⟨hash, hwithin, hcorrected, hnew⟩
    exact ⟨(record.namespace, hash), (hkeys _).mpr ⟨rfl, hwithin⟩, hcorrected, hnew⟩

theorem deriveState_eq (fold : VerdictFold) (note : RecordedNote) (record : VerdictRecord)
    (upstream : Upstream) :
    deriveState fold note record upstream =
      let keys := dependencies fold record upstream
      let opens := sortedBy (fun a b => decide (a < b)) id (openOf fold record keys.1)
      { seq := note.seq, reviewer := note.author, record := record
        state :=
          if !keys.2 then .unbounded
          else if opens ≠ [] then .stale
          else if record.outcome = "accepted" ∧ record.inputs = [] then .inputsUnrecorded
          else .fresh
        unacknowledgedCorrections := opens } := rfl

theorem Reads.stateOf (h : Reads facts acc) (note : RecordedNote) (record : VerdictRecord) :
    StateOf facts (deriveState acc.1 note record (upstreamOf acc.2)) := by
  obtain ⟨-, hbounded⟩ := h.keys record
  rw [deriveState_eq]
  dsimp only
  set opens := sortedBy (fun a b => decide (a < b)) id
    (openOf acc.1 record (dependencies acc.1 record (upstreamOf acc.2)).1) with hopens
  have hopen : ∀ i, i ∈ opens ↔ facts.Open record i := fun i =>
    (mem_sortedBy _).trans (h.mem_openOf record i)
  have hsome : opens ≠ [] ↔ ∃ i, facts.Open record i := by
    rw [Ne, List.eq_nil_iff_forall_not_mem]
    simp only [hopen, not_forall, not_not]
  have hunrecorded : (record.outcome = "accepted" ∧ record.inputs = []) ↔ Unrecorded record :=
    Iff.rfl
  cases hkeys : (dependencies acc.1 record (upstreamOf acc.2)).2 with
  | false =>
      have hfar : ¬ facts.Bounded record := fun hb => by
        rw [← hbounded, hkeys] at hb
        cases hb
      rw [Bool.not_false, if_pos rfl]
      exact ⟨hopen, by simp [hfar], by simp [hfar], by simp [hfar], by simp [hfar]⟩
  | true =>
      have hnear : facts.Bounded record := hbounded.mp hkeys
      rw [Bool.not_true, if_neg Bool.false_ne_true]
      by_cases hstale : opens ≠ []
      · rw [if_pos hstale]
        have hex := hsome.mp hstale
        exact ⟨hopen, by simp [hnear], by simp [hnear, hex], by simp [hex], by simp [hex]⟩
      · rw [if_neg hstale]
        have hex : ¬ ∃ i, facts.Open record i := fun hopened => hstale (hsome.mpr hopened)
        by_cases hinputs : record.outcome = "accepted" ∧ record.inputs = []
        · rw [if_pos hinputs]
          have hunrec := hunrecorded.mp hinputs
          exact ⟨hopen, by simp [hnear], by simp [hex], by simp [hnear, hex, hunrec],
            by simp [hunrec]⟩
        · rw [if_neg hinputs]
          have hrec : ¬ Unrecorded record := fun hu => hinputs (hunrecorded.mpr hu)
          exact ⟨hopen, by simp [hnear], by simp [hex], by simp [hrec], by simp [hnear, hex, hrec]⟩

/-! ## Facts decide the states -/

/-- A state with its sequence number left out. -/
def timeless (state : VerdictState) : VerdictState := { state with seq := 0 }

theorem Reads.inputs_upstream (h : Reads facts acc) {key : ObjectKey} {record : VerdictRecord}
    (hrecord : record ∈ ((upstreamOf acc.2).get? key).getD []) : record.inputs.Nodup := by
  obtain ⟨seat, hlatest, -⟩ := (h.mem_upstream key record).mp hrecord
  obtain ⟨note, hin, -⟩ := (h.verdict seat record).mpr hlatest.1
  exact h.inputs _ hin

theorem nodup_pairs {project : String} {hashes : List String} (h : hashes.Nodup) :
    (hashes.map (project, ·)).Nodup :=
  h.map fun _ _ heq => congrArg Prod.snd heq

theorem Reads.nodup_following (h : Reads facts acc) (project : String)
    (frontier : List ObjectKey) :
    (following acc.1 (upstreamOf acc.2) project frontier).Nodup := by
  unfold following
  refine List.foldlRecOn (motive := List.Nodup) _ _ List.nodup_nil ?_
  intro keys _ key _
  refine List.foldlRecOn (motive := List.Nodup) _ _ (List.Nodup.union _ (nodup_pairs (h.once key))) ?_
  intro keys _ verdict hverdict
  exact List.Nodup.union _ (nodup_pairs (h.inputs_upstream hverdict))

theorem Reads.nodup_follow (h : Reads facts acc) (project : String) (levels : Nat)
    {seen frontier : List ObjectKey} (hseen : seen.Nodup) (hfrontier : frontier.Nodup) :
    (follow acc.1 (upstreamOf acc.2) project levels seen frontier).1.Nodup := by
  induction levels generalizing seen frontier with
  | zero => cases frontier <;> exact hseen
  | succ levels ih =>
      cases frontier with
      | nil => exact hseen
      | cons key rest =>
          exact ih (List.Nodup.union _ hfrontier) ((h.nodup_following project _).filter _)

/-- Lists that hold the same, in any order, sort to the same list. -/
theorem sortedBy_eq_of_perm {l l' : List String} (h : l.Perm l') :
    sortedBy (fun a b => decide (a < b)) id l = sortedBy (fun a b => decide (a < b)) id l' := by
  have hsorted : ∀ l : List String, (sortedBy (fun a b : String => decide (a < b)) id l).Pairwise
      fun a b => decide (b < a) = false := by
    intro l
    refine pairwise_sortedBy (fun a b => decide (a < b)) (P := fun _ => True) ?_ ?_ id
      fun _ _ => trivial
    · intro a b c _ _ _ hab hbc
      rw [decide_eq_false_iff_not, not_lt] at hab hbc ⊢
      exact le_trans hab hbc
    · intro a b _ _
      rw [decide_eq_false_iff_not, decide_eq_false_iff_not, not_lt, not_lt]
      exact le_total a b
  refine List.Perm.eq_of_pairwise ?_ (hsorted l) (hsorted l')
    (((sortedBy_perm _ _ l).trans h).trans (sortedBy_perm _ _ l').symm)
  intro a b _ _ hab hba
  rw [decide_eq_false_iff_not, not_lt] at hab hba
  exact le_antisymm hab hba

/-- Two sets of facts agree on the objects of a namespace. -/
structure Concord (project : String) (facts facts' : Facts) : Prop where
  member : ∀ hash other, facts.member (project, hash) other ↔ facts'.member (project, hash) other
  corrected : ∀ hash id, facts.corrected (project, hash) id ↔ facts'.corrected (project, hash) id
  verdict : ∀ seat record, record.namespace = project →
    (facts.verdict seat record ↔ facts'.verdict seat record)

variable {facts' : Facts} {project : String}

theorem Concord.leads (h : Concord project facts facts') :
    facts.Leads project = facts'.Leads project := by
  have hlatest : ∀ seat record, record.namespace = project →
      (facts.Latest seat record ↔ facts'.Latest seat record) := by
    intro seat record hin
    unfold Facts.Latest
    rw [h.verdict seat record hin]
    refine and_congr_right fun _ => forall_congr' fun other => ?_
    by_cases hother : other.namespace = project
    · rw [h.verdict seat other hother]
    · have hapart : ¬ (other.namespace, other.subjectSha256) =
          (record.namespace, record.subjectSha256) := fun heq =>
        hother ((congrArg Prod.fst heq).trans hin)
      simp only [hapart, false_implies, implies_true]
  funext a b
  refine propext (or_congr (h.member a b) ?_)
  refine exists_congr fun seat => exists_congr fun record => ?_
  constructor
  · rintro ⟨hl, hkey, hin⟩
    exact ⟨(hlatest seat record (congrArg Prod.fst hkey)).mp hl, hkey, hin⟩
  · rintro ⟨hl, hkey, hin⟩
    exact ⟨(hlatest seat record (congrArg Prod.fst hkey)).mpr hl, hkey, hin⟩

theorem Concord.bounded {record : VerdictRecord} (h : Concord record.namespace facts facts') :
    facts.Bounded record ↔ facts'.Bounded record := by
  unfold Facts.Bounded Facts.Depends Facts.Within
  rw [h.leads]

theorem Concord.within {record : VerdictRecord} (h : Concord record.namespace facts facts')
    (steps : Nat) (hash : String) :
    facts.Within record steps hash ↔ facts'.Within record steps hash := by
  unfold Facts.Within
  rw [h.leads]

theorem Concord.opens {record : VerdictRecord} (h : Concord record.namespace facts facts')
    (id : String) : facts.Open record id ↔ facts'.Open record id := by
  unfold Facts.Open Facts.Unacknowledged
  simp only [h.within, h.corrected]

/-- Tables that hold the same facts of the namespace open the same
corrections. -/
theorem Reads.perm_openOf (h : Reads facts acc) (h' : Reads facts' acc') {record : VerdictRecord}
    (hsame : Concord record.namespace facts facts') :
    (openOf acc.1 record (dependencies acc.1 record (upstreamOf acc.2)).1).Perm
      (openOf acc'.1 record (dependencies acc'.1 record (upstreamOf acc'.2)).1) := by
  have hnodup : ∀ {facts : Facts} {acc : VerdictFold × Counted}, Reads facts acc →
      (dependencies acc.1 record (upstreamOf acc.2)).1.Nodup := fun h =>
    h.nodup_follow _ _ List.nodup_nil (List.nodup_dedup _)
  have hkeys : (dependencies acc.1 record (upstreamOf acc.2)).1.Perm
      (dependencies acc'.1 record (upstreamOf acc'.2)).1 := by
    refine (List.perm_ext_iff_of_nodup (hnodup h) (hnodup h')).mpr fun key => ?_
    rw [(h.keys record).1 key, (h'.keys record).1 key, hsame.within]
  refine hkeys.flatMap fun key hkey => List.Perm.filter _ ?_
  have hin : key.1 = record.namespace := (((h.keys record).1 key).mp hkey).1
  refine (List.perm_ext_iff_of_nodup (acc.1.correctionsOf key).nodup
    (acc'.1.correctionsOf key).nodup).mpr fun id => ?_
  obtain ⟨name, hash⟩ := key
  dsimp only at hin
  subst hin
  exact ((h.corrected _ id).trans (hsame.corrected hash id)).trans (h'.corrected _ id).symm

theorem StateOf.state_eq {state state' : VerdictState} (h : StateOf facts state)
    (h' : StateOf facts' state') (hrecord : state'.record = state.record)
    (hsame : Concord state.record.namespace facts facts') : state.state = state'.state := by
  cases hstate : state'.state with
  | unbounded =>
      rw [h.unbounded, hsame.bounded, ← hrecord]
      exact h'.unbounded.mp hstate
  | stale =>
      rw [h.stale, hsame.bounded]
      simp only [hsame.opens]
      rw [← hrecord]
      exact h'.stale.mp hstate
  | inputsUnrecorded =>
      rw [h.inputsUnrecorded, hsame.bounded]
      simp only [hsame.opens]
      rw [← hrecord]
      exact h'.inputsUnrecorded.mp hstate
  | fresh =>
      rw [h.fresh, hsame.bounded]
      simp only [hsame.opens]
      rw [← hrecord]
      exact h'.fresh.mp hstate

/-- One verdict of one reviewer gets one state out of facts that agree on its
namespace. -/
theorem Reads.timeless_eq (h : Reads facts acc) (h' : Reads facts' acc')
    {note note' : RecordedNote} (hauthor : note.author = note'.author) {record : VerdictRecord}
    (hsame : Concord record.namespace facts facts') :
    timeless (deriveState acc.1 note record (upstreamOf acc.2)) =
      timeless (deriveState acc'.1 note' record (upstreamOf acc'.2)) := by
  have hstate : (deriveState acc.1 note record (upstreamOf acc.2)).state =
      (deriveState acc'.1 note' record (upstreamOf acc'.2)).state :=
    (h.stateOf note record).state_eq (h'.stateOf note' record) rfl hsame
  have hopens : (deriveState acc.1 note record (upstreamOf acc.2)).unacknowledgedCorrections =
      (deriveState acc'.1 note' record (upstreamOf acc'.2)).unacknowledgedCorrections :=
    sortedBy_eq_of_perm (h.perm_openOf h' hsame)
  show VerdictState.mk 0 note.author record _ _ = VerdictState.mk 0 note'.author record _ _
  exact congr (congr (congrArg (fun author => VerdictState.mk 0 author record) hauthor) hstate)
    hopens

end States

end VerdictSets

end SynapseChannel
