import SynapseChannel.Core.VersionConstraints
import SynapseChannel.Lib.Outcome

/-!
# Core — ConstraintMeaning

What a constraint asks for, said of single releases and not of intervals:
equal releases, releases that begin alike, releases from a bound on. The
lowered intervals hold exactly the releases asked for, once exclusions are set
aside, so the verdicts on two constraints are verdicts on their releases.
-/

namespace SynapseChannel

open Py Outcome Releases

namespace VersionConstraints

/-- Two readings of a constraint. -/
inductive Reading
  /-- Every clause counts as its syntax says. -/
  | literal
  /-- Exclusions are set aside and `===` reads as `==`. -/
  | ranges
deriving DecidableEq

/-! ## Clauses as conditions on a release -/

/-- The releases on one side of a version. -/
def Comparator.Holds (comparator : Comparator) (version v : Version) : Prop :=
  match comparator with
  | .atLeast => rank version ≤ rank v
  | .above => rank version < rank v
  | .atMost => rank v ≤ rank version
  | .below => rank v < rank version

/-- The release does not go beyond the bound; every release that begins with a
partial bound is within it. -/
def Within (bound v : Version) : Prop :=
  if bound.length < 3 then rank (v.take bound.length) ≤ rank bound else rank v ≤ rank bound

/-- The places up to the left-most one that is not zero. -/
def significant (version : Version) : Nat :=
  min version.length ((version.takeWhile (· = 0)).length + 1)

/-- The releases a Cargo or npm operator allows. -/
def RequirementOperator.Allows (operator : RequirementOperator) (version v : Version) : Prop :=
  match operator with
  | .caret => rank version ≤ rank v ∧ Agree (significant version) v version
  | .tilde => rank version ≤ rank v ∧ Agree (min 2 version.length) v version
  | .equal => if version.length < 3 then Agree version.length v version else rank v = rank version
  | .range .above => ¬ Within version v
  | .range .atMost => Within version v
  | .range .atLeast => rank version ≤ rank v
  | .range .below => rank v < rank version

section Meaning

variable [Decimals]

/-- The release a text spells, trailing zeros aside. -/
def Spells (text : List Char) (v : Version) : Prop :=
  ∃ version, parseVersion text = some version ∧ rank v = rank version

/-- `==`: the release itself, or any that begins with what stands before
`.*`. -/
def Matches (text : List Char) (v : Version) : Prop :=
  match beforeStar text with
  | some prefixText => ∃ base, parseVersion prefixText = some base ∧ Agree base.length v base
  | none => Spells text v

/-- The releases a PEP 440 operator allows; `===` compares texts, and no release
is spelled with a wildcard. -/
def PythonOperator.Allows (reading : Reading) (operator : PythonOperator) (text : List Char)
    (v : Version) : Prop :=
  match operator with
  | .equal => Matches text v
  | .arbitrary =>
    if reading = .literal then beforeStar text = none ∧ Spells text v else Matches text v
  | .exclude => reading = .literal → ¬ Matches text v
  | .compatible => ∃ version, parseVersion text = some version ∧ 2 ≤ version.length ∧
      rank version ≤ rank v ∧ Agree (version.length - 1) v version
  | .range comparator => ∃ version, parseVersion text = some version ∧ comparator.Holds version v

def PythonClause (reading : Reading) (clause : List Char) (v : Version) : Prop :=
  ∃ operator text, matchOperator pythonOperators clause = some (operator, text) ∧
    operator.Allows reading (trim text) v

/-- A clause with an operator, a version alone, or a version with a trailing
wildcard. -/
def RequirementClause (bareIsCaret : Bool) (clause : List Char) (v : Version) : Prop :=
  match matchOperator rangeOperators clause with
  | some (operator, text) =>
    ∃ version, parseVersion text = some version ∧ operator.Allows version v
  | none =>
    match parseVersion clause with
    | some version =>
      RequirementOperator.Allows (if bareIsCaret then .caret else .equal) version v
    | none => ∃ base, wildcardBase clause = some base ∧ Agree base.length v base

def GroupClause.Allows (clause : GroupClause) (v : Version) : Prop :=
  match clause with
  | .token text => RequirementClause false text v
  | .hyphen low high => ∃ least most, parseVersion low = some least ∧
      parseVersion high = some most ∧ rank least ≤ rank v ∧ Within most v

/-- The release satisfies the declared constraint. -/
def Satisfies (reading : Reading) (constraint : String) (ecosystem : Ecosystem) (v : Version) :
    Prop :=
  let text := trim constraint.toList
  match ecosystem with
  | .python => ∀ clause ∈ commaClauses text, PythonClause reading clause v
  | .rust => ∀ clause ∈ commaClauses text, RequirementClause true clause v
  | .javascript => ∃ group ∈ splitBars text, ∀ clause ∈ groupClauses (words (trim group)),
      clause.Allows v
  | .other => False

/-- What counts literally counts once exclusions are set aside. -/
theorem Satisfies.ranges {constraint : String} {ecosystem : Ecosystem} {v : Version}
    (h : Satisfies .literal constraint ecosystem v) : Satisfies .ranges constraint ecosystem v := by
  cases ecosystem with
  | python =>
      intro clause hclause
      obtain ⟨operator, text, hmatch, hallows⟩ := h clause hclause
      refine ⟨operator, text, hmatch, ?_⟩
      cases operator with
      | arbitrary =>
          obtain ⟨hstar, hspells⟩ : beforeStar (trim text) = none ∧ Spells (trim text) v := hallows
          show Matches (trim text) v
          unfold Matches
          rw [hstar]
          exact hspells
      | exclude =>
          intro hliteral
          cases hliteral
      | equal => exact hallows
      | compatible => exact hallows
      | range comparator => exact hallows
  | rust => exact h
  | javascript => exact h
  | other => exact h

/-! ## Intervals hold what the clauses allow -/

section

omit [Decimals]

theorem mem_rangeInterval {comparator : Comparator} {version v : Version} :
    Intervals.Mem rank (rangeInterval comparator version) v ↔ comparator.Holds version v := by
  cases comparator with
  | atLeast => exact (and_iff_left Intervals.below_none).trans Intervals.above_inclusive
  | above => exact (and_iff_left Intervals.below_none).trans Intervals.above_exclusive
  | atMost => exact (and_iff_right Intervals.above_none).trans Intervals.below_inclusive
  | below => exact (and_iff_right Intervals.above_none).trans Intervals.below_exclusive

/-- From a version to its next one at a place: the releases from the version on
that begin as it does. -/
theorem mem_span_bump {version v : Version} {place : Nat} (h : place < version.length) :
    Intervals.Mem rank
        { low := some version, high := some (bump version place), highInclusive := false } v ↔
      rank version ≤ rank v ∧ Agree (place + 1) v version := by
  rw [Intervals.mem_span]
  exact and_congr_right fun hle => lt_bump_iff_agree h hle

theorem mem_wildcardInterval {base v : Version} :
    Intervals.Mem rank (wildcardInterval base) v ↔ Agree base.length v base := by
  unfold wildcardInterval
  by_cases hbase : base = []
  · rw [if_pos hbase, hbase]
    exact iff_of_true (Intervals.mem_unbounded v) fun i hi => absurd hi (Nat.not_lt_zero i)
  · have hlength : 0 < base.length := List.length_pos_of_ne_nil hbase
    rw [if_neg hbase, mem_span_bump (Nat.sub_one_lt_of_lt hlength), Nat.sub_add_cancel hlength]
    exact and_iff_right_of_imp le_of_agree

/-- The place the caret range keeps is the last significant one. -/
theorem significant_eq {version : Version} (h : version ≠ []) :
    (version.findIdx? (· ≠ 0)).getD (version.length - 1) + 1 = significant version ∧
      (version.findIdx? (· ≠ 0)).getD (version.length - 1) < version.length := by
  unfold significant
  induction version with
  | nil => exact absurd rfl h
  | cons head rest ih =>
      rw [List.findIdx?_cons, List.takeWhile_cons]
      by_cases hhead : head = 0
      · cases rest with
        | nil => simp [hhead]
        | cons second rest =>
            obtain ⟨hplace, hlt⟩ := ih (List.cons_ne_nil second rest)
            cases hfound : (second :: rest).findIdx? (· ≠ 0) with
            | none =>
                rw [hfound] at hplace hlt
                simp only [hhead, Option.getD_none, List.length_cons] at *
                simp
                omega
            | some place =>
                rw [hfound] at hplace hlt
                simp only [hhead, Option.getD_some, List.length_cons] at *
                simp
                omega
      · simp [hhead]

theorem mem_caretInterval {version v : Version} (h : version ≠ []) :
    Intervals.Mem rank (caretInterval version) v ↔ RequirementOperator.caret.Allows version v := by
  obtain ⟨hplace, hlt⟩ := significant_eq h
  unfold caretInterval
  dsimp only
  rw [mem_span_bump hlt, hplace]
  rfl

theorem mem_tildeInterval {version v : Version} (h : version ≠ []) :
    Intervals.Mem rank (tildeInterval version) v ↔ RequirementOperator.tilde.Allows version v := by
  have hlength : 0 < version.length := List.length_pos_of_ne_nil h
  have hplaces : min 1 (version.length - 1) + 1 = min 2 version.length := by omega
  unfold tildeInterval
  rw [mem_span_bump (by omega), hplaces]
  rfl

/-- To stay below the next version at the last place is to be within a partial
bound. -/
theorem lt_bump_last_iff {version v : Version} (h : version ≠ []) :
    rank v < rank (bump version (version.length - 1)) ↔
      rank (v.take version.length) ≤ rank version := by
  have hlength : 0 < version.length := List.length_pos_of_ne_nil h
  rw [lt_bump_iff (Nat.sub_one_lt_of_lt hlength), Nat.sub_add_cancel hlength, List.take_length]

theorem mem_requirementOperatorInterval {operator : RequirementOperator} {version v : Version}
    (h : version ≠ []) :
    Intervals.Mem rank (requirementOperatorInterval operator version) v ↔
      operator.Allows version v := by
  cases operator with
  | caret => exact mem_caretInterval h
  | tilde => exact mem_tildeInterval h
  | equal =>
      unfold requirementOperatorInterval RequirementOperator.Allows
      dsimp only
      split
      · exact mem_wildcardInterval
      · exact Intervals.mem_point
  | range comparator =>
      unfold requirementOperatorInterval RequirementOperator.Allows Within
      by_cases hshort : version.length < 3
      · cases comparator with
        | above =>
            simp only [hshort, and_self, if_true]
            rw [← lt_bump_last_iff h, not_lt]
            exact (and_iff_left Intervals.below_none).trans Intervals.above_inclusive
        | atMost =>
            simp only [hshort, and_self, if_true, reduceCtorEq, and_false, if_false]
            rw [← lt_bump_last_iff h]
            exact (and_iff_right Intervals.above_none).trans Intervals.below_exclusive
        | atLeast =>
            simp only [reduceCtorEq, and_false, if_false]
            exact mem_rangeInterval
        | below =>
            simp only [reduceCtorEq, and_false, if_false]
            exact mem_rangeInterval
      · simp only [hshort, false_and, if_false]
        rw [mem_rangeInterval]
        cases comparator with
        | above => exact not_le.symm
        | atMost => exact Iff.rfl
        | atLeast => exact Iff.rfl
        | below => exact Iff.rfl

end

/-! ## Lowering -/

omit [Decimals] in
theorem exists_of_mapM {κ ω : Type} {f : κ → Option ω} {inputs : List κ} {found : List ω}
    (h : inputs.mapM f = some found) {w : ω} (hw : w ∈ found) : ∃ k ∈ inputs, f k = some w :=
  exists_of_forall₂ (forall₂_of_mapM h) hw

theorem parseVersion_ne_nil {text : List Char} {version : Version}
    (h : parseVersion text = some version) : version ≠ [] := by
  intro hnil
  have hlength := (forall₂_of_mapM h).length_eq
  rw [hnil, List.length_nil, List.length_eq_zero_iff] at hlength
  exact List.splitOn_ne_nil _ _ hlength

theorem mem_matches {text base : List Char} {interval : VersionInterval}
    (hstar : beforeStar text = some base)
    (h : (parseVersion base).map wildcardInterval = some interval) (v : Version) :
    Intervals.Mem rank interval v ↔ Matches text v := by
  obtain ⟨version, hparse, rfl⟩ := Option.map_eq_some_iff.mp h
  unfold Matches
  rw [mem_wildcardInterval, hstar]
  simp [hparse]

/-- A PEP 440 clause that is no exclusion is lowered to what it allows. -/
theorem mem_pythonClauseInterval {operator : PythonOperator} {text : List Char}
    {interval : VersionInterval} (hoperator : operator ≠ .exclude)
    (h : pythonClauseInterval operator text = some interval) (v : Version) :
    Intervals.Mem rank interval v ↔ operator.Allows .ranges (trim text) v := by
  have hpoint : ∀ {version : Version}, beforeStar (trim text) = none →
      parseVersion (trim text) = some version →
      (Intervals.Mem rank { low := some version, high := some version } v ↔
        Matches (trim text) v) := by
    intro version hstar hparse
    unfold Matches Spells
    rw [Intervals.mem_point, hstar]
    simp [hparse]
  unfold pythonClauseInterval at h
  dsimp only at h
  cases operator with
  | exclude => exact absurd rfl hoperator
  | equal =>
      show _ ↔ Matches (trim text) v
      rw [if_pos (.inl rfl)] at h
      cases hstar : beforeStar (trim text) with
      | some base =>
          rw [hstar] at h
          exact mem_matches hstar h v
      | none =>
          rw [hstar] at h
          obtain ⟨version, hparse, h⟩ := Option.bind_eq_some_iff.mp h
          cases h
          exact hpoint hstar hparse
  | arbitrary =>
      show _ ↔ Matches (trim text) v
      rw [if_pos (.inr rfl)] at h
      cases hstar : beforeStar (trim text) with
      | some base =>
          rw [hstar] at h
          exact mem_matches hstar h v
      | none =>
          rw [hstar] at h
          obtain ⟨version, hparse, h⟩ := Option.bind_eq_some_iff.mp h
          cases h
          exact hpoint hstar hparse
  | compatible =>
      rw [if_neg (by simp)] at h
      obtain ⟨version, hparse, h⟩ := Option.bind_eq_some_iff.mp h
      dsimp only at h
      split at h
      · cases h
      · rename_i hlength
        cases h
        rw [mem_span_bump (by omega), show version.length - 2 + 1 = version.length - 1 by omega]
        unfold PythonOperator.Allows
        simp only [hparse, Option.some.injEq, exists_eq_left']
        exact (and_iff_right (not_lt.mp hlength)).symm
  | range comparator =>
      rw [if_neg (by simp)] at h
      obtain ⟨version, hparse, h⟩ := Option.bind_eq_some_iff.mp h
      cases h
      rw [mem_rangeInterval]
      unfold PythonOperator.Allows
      simp only [hparse, Option.some.injEq, exists_eq_left']

theorem mem_pythonStep {clause : List Char} {interval : VersionInterval}
    (h : pythonStep clause = some interval) (v : Version) :
    Intervals.Mem rank interval v ↔ PythonClause .ranges clause v := by
  unfold PythonClause
  unfold pythonStep at h
  cases hmatch : matchOperator pythonOperators clause with
  | none =>
      rw [hmatch] at h
      cases h
  | some found =>
      obtain ⟨operator, text⟩ := found
      rw [hmatch] at h
      have hallows : Intervals.Mem rank interval v ↔ operator.Allows .ranges (trim text) v := by
        cases operator with
        | exclude =>
            cases h
            exact iff_of_true (Intervals.mem_unbounded v) fun hliteral => by cases hliteral
        | equal => exact mem_pythonClauseInterval (by simp) h v
        | arbitrary => exact mem_pythonClauseInterval (by simp) h v
        | compatible => exact mem_pythonClauseInterval (by simp) h v
        | range comparator => exact mem_pythonClauseInterval (by simp) h v
      rw [hallows]
      simp

theorem mem_requirementClauseInterval {bareIsCaret : Bool} {clause : List Char}
    {interval : VersionInterval} (h : requirementClauseInterval clause bareIsCaret = some interval)
    (v : Version) : Intervals.Mem rank interval v ↔ RequirementClause bareIsCaret clause v := by
  unfold RequirementClause
  unfold requirementClauseInterval at h
  cases hmatch : matchOperator rangeOperators clause with
  | some found =>
      obtain ⟨operator, text⟩ := found
      rw [hmatch] at h
      obtain ⟨version, hparse, rfl⟩ := Option.map_eq_some_iff.mp h
      rw [mem_requirementOperatorInterval (parseVersion_ne_nil hparse)]
      simp [hparse]
  | none =>
      rw [hmatch] at h
      cases hparse : parseVersion clause with
      | some version =>
          rw [hparse] at h
          cases h
          have hversion : version ≠ [] := parseVersion_ne_nil hparse
          unfold bareInterval
          cases bareIsCaret with
          | true => exact mem_caretInterval hversion
          | false =>
              show _ ↔ RequirementOperator.equal.Allows version v
              rw [← mem_requirementOperatorInterval hversion]
              unfold requirementOperatorInterval
              dsimp only
              by_cases hlength : version.length < 3
              · rw [if_neg Bool.false_ne_true, if_neg (by omega), if_pos hlength]
              · rw [if_neg Bool.false_ne_true, if_pos (by omega), if_neg hlength]
      | none =>
          rw [hparse] at h
          obtain ⟨base, hbase, rfl⟩ := Option.map_eq_some_iff.mp h
          rw [mem_wildcardInterval]
          simp [hbase]

theorem mem_groupClauseInterval {clause : GroupClause} {interval : VersionInterval}
    (h : groupClauseInterval clause = some interval) (v : Version) :
    Intervals.Mem rank interval v ↔ clause.Allows v := by
  cases clause with
  | token text => exact mem_requirementClauseInterval h v
  | hyphen low high =>
      obtain ⟨least, hleast, h⟩ := Option.bind_eq_some_iff.mp h
      obtain ⟨most, hmost, rfl⟩ := Option.map_eq_some_iff.mp h
      unfold GroupClause.Allows Within
      simp only [hleast, hmost, Option.some.injEq, exists_and_left, exists_eq_left']
      by_cases hlength : most.length < 3
      · rw [if_neg (by omega), if_pos hlength, Intervals.mem_span,
          lt_bump_last_iff (parseVersion_ne_nil hmost)]
      · rw [if_pos (by omega), if_neg hlength]
        unfold Intervals.Mem
        rw [Intervals.above_inclusive, Intervals.below_inclusive]

omit [Decimals] in
/-- Narrowing keeps what every clause allows. -/
theorem mem_narrow {κ : Type} {clauseInterval : κ → Option VersionInterval}
    {Allows : κ → Version → Prop}
    (hclause : ∀ {clause interval}, clauseInterval clause = some interval →
      ∀ v, Intervals.Mem rank interval v ↔ Allows clause v)
    {clauses : List κ} {start interval : VersionInterval}
    (h : narrow clauseInterval start clauses = some interval) (v : Version) :
    Intervals.Mem rank interval v ↔
      Intervals.Mem rank start v ∧ ∀ clause ∈ clauses, Allows clause v := by
  induction clauses generalizing start with
  | nil =>
      cases h
      simp
  | cons clause rest ih =>
      obtain ⟨found, hfound, h⟩ := Option.bind_eq_some_iff.mp h
      rw [ih h, List.forall_mem_cons, ← hclause hfound v]
      have hboth := ranked.mem_intersect start found v
      rw [show intersectIntervals start found = Intervals.intersect Releases.compare start found
        from rfl, hboth, and_assoc]

omit [Decimals] in
theorem mem_narrow_all {κ : Type} {clauseInterval : κ → Option VersionInterval}
    {Allows : κ → Version → Prop}
    (hclause : ∀ {clause interval}, clauseInterval clause = some interval →
      ∀ v, Intervals.Mem rank interval v ↔ Allows clause v)
    {clauses : List κ} {intervals : List VersionInterval}
    (h : (narrow clauseInterval {} clauses).map (fun interval => [interval]) = some intervals)
    (v : Version) :
    (∃ interval ∈ intervals, Intervals.Mem rank interval v) ↔
      ∀ clause ∈ clauses, Allows clause v := by
  obtain ⟨interval, hnarrow, rfl⟩ := Option.map_eq_some_iff.mp h
  have hmem := mem_narrow hclause hnarrow v
  simp only [List.mem_singleton, exists_eq_left, hmem]
  exact and_iff_right (Intervals.mem_unbounded v)

theorem mem_alternativeInterval {group : List Char} {interval : VersionInterval}
    (h : alternativeInterval group = some interval) (v : Version) :
    Intervals.Mem rank interval v ↔
      ∀ clause ∈ groupClauses (words (trim group)), clause.Allows v := by
  unfold alternativeInterval at h
  split at h
  · rename_i hempty
    cases h
    rw [hempty]
    exact iff_of_true (Intervals.mem_unbounded v) fun clause hclause => by cases hclause
  · have hmem := mem_narrow mem_groupClauseInterval h v
    rw [hmem]
    exact and_iff_right (Intervals.mem_unbounded v)

theorem mem_javascriptIntervals {text : List Char} {intervals : List VersionInterval}
    (h : javascriptIntervals text = some intervals) (v : Version) :
    (∃ interval ∈ intervals, Intervals.Mem rank interval v) ↔
      ∃ group ∈ splitBars text, ∀ clause ∈ groupClauses (words (trim group)), clause.Allows v := by
  have hall := forall₂_of_mapM h
  clear h
  generalize splitBars text = groups at hall ⊢
  induction hall with
  | nil => simp
  | cons hinterval _ ih =>
      rw [List.exists_mem_cons_iff, List.exists_mem_cons_iff]
      exact or_congr (mem_alternativeInterval hinterval v) ih

/-- The alternatives of a constraint hold the releases that satisfy it once
exclusions are set aside. -/
theorem exists_mem_iff_satisfies {constraint : String} {ecosystem : Ecosystem}
    {intervals : List VersionInterval}
    (h : constraintIntervals constraint ecosystem = some intervals) (v : Version) :
    (∃ interval ∈ intervals, Intervals.Mem rank interval v) ↔
      Satisfies .ranges constraint ecosystem v := by
  -- a text of blanks only is read as one alternative without clauses
  have hblank : ∀ {read : List Char → Option (List VersionInterval)},
      read [] = some [{}] →
      (if trim constraint.toList = [] then some [{}] else read (trim constraint.toList)) =
        some intervals → read (trim constraint.toList) = some intervals := by
    intro read hread hintervals
    split at hintervals
    · rename_i hempty
      rw [hempty, hread]
      exact hintervals
    · exact hintervals
  cases ecosystem with
  | other => cases h
  | python => exact mem_narrow_all mem_pythonStep (hblank rfl h) v
  | rust => exact mem_narrow_all mem_requirementClauseInterval (hblank rfl h) v
  | javascript => exact mem_javascriptIntervals (hblank rfl h) v

/-! ## The verdicts -/

/-- Alternatives of the two constraints meet, but only where one of them has no
end below and ends above before zero. -/
def MeetBelowZero (left right : String) (ecosystem : Ecosystem) : Prop :=
  ∃ leftIntervals rightIntervals,
    constraintIntervals left ecosystem = some leftIntervals ∧
    constraintIntervals right ecosystem = some rightIntervals ∧
    (∃ l ∈ leftIntervals, ∃ r ∈ rightIntervals, disjoint l r = false) ∧
    ∀ l ∈ leftIntervals, ∀ r ∈ rightIntervals, disjoint l r = false →
      Intervals.Sunken rank [0] l ∨ Intervals.Sunken rank [0] r

omit [Decimals] in
theorem exists_common {left right : VersionInterval} (h : disjoint left right = false) :
    (∃ v : Version, v ≠ [] ∧ Intervals.Mem rank left v ∧ Intervals.Mem rank right v) ∨
      Intervals.Sunken rank [0] left ∨ Intervals.Sunken rank [0] right := by
  have hempty : Intervals.isEmpty Releases.compare
      (Intervals.intersect Releases.compare left right) = false :=
    (ranked.disjoint_eq left right).symm.trans h
  by_cases hsunken : Intervals.Sunken rank [0] (Intervals.intersect Releases.compare left right)
  · exact .inr (ranked.sunken_of_intersect hsunken)
  · obtain ⟨v, hv⟩ := ranked.exists_mem hempty hsunken
    have hpadded : rank (v ++ [0]) = rank v := rank_eq_iff.mpr (part_append_zeros v 1)
    have hv' := (Intervals.mem_congr hpadded).mpr hv
    exact .inl ⟨v ++ [0], by simp, (ranked.mem_intersect left right _).mp hv'⟩

omit [Decimals] in
theorem not_common_of_disjoint {left right : VersionInterval} (h : disjoint left right = true)
    {v : Version} (hleft : Intervals.Mem rank left v) (hright : Intervals.Mem rank right v) :
    False := by
  have hempty : Intervals.isEmpty Releases.compare
      (Intervals.intersect Releases.compare left right) = true :=
    (ranked.disjoint_eq left right).symm.trans h
  exact ranked.not_mem_of_isEmpty hempty v ((ranked.mem_intersect left right v).mpr ⟨hleft, hright⟩)

theorem compareConstraints_decided {left right : String} {ecosystem : Ecosystem}
    (hleft : isReference left = false) (hright : isReference right = false)
    (h : compareConstraints left right ecosystem ≠ .notComparable) :
    ∃ leftIntervals rightIntervals,
      constraintIntervals left ecosystem = some leftIntervals ∧
      constraintIntervals right ecosystem = some rightIntervals ∧
      compareConstraints left right ecosystem =
        if overlap leftIntervals rightIntervals then .noConflict else .conflict := by
  unfold compareConstraints at h ⊢
  rw [hleft, hright] at h ⊢
  cases hl : constraintIntervals left ecosystem with
  | none =>
      rw [hl] at h
      exact absurd rfl h
  | some leftIntervals =>
      cases hr : constraintIntervals right ecosystem with
      | none =>
          rw [hl, hr] at h
          exact absurd rfl h
      | some rightIntervals => exact ⟨leftIntervals, rightIntervals, rfl, rfl, rfl⟩

theorem compareConstraints_reference {left right : String} {ecosystem : Ecosystem}
    (h : isReference left = true ∨ isReference right = true) :
    compareConstraints left right ecosystem = compareUrlPins left right := by
  unfold compareConstraints
  rw [if_pos ((Bool.or_eq_true _ _).mpr h)]

section

omit [Decimals]

theorem compareUrlPins_ne_conflict (left right : String) :
    compareUrlPins left right ≠ .conflict := by
  unfold compareUrlPins
  split
  · split <;> simp
  · simp

theorem same_of_compareUrlPins {left right : String} (h : compareUrlPins left right = .noConflict) :
    trim left.toList = trim right.toList := by
  unfold compareUrlPins at h
  split at h
  · split at h
    · assumption
    · cases h
  · cases h

theorem not_references {left right : String}
    (h : ¬ (isReference left = true ∨ isReference right = true)) :
    isReference left = false ∧ isReference right = false := by
  rw [not_or, Bool.not_eq_true, Bool.not_eq_true] at h
  exact h

end

/-- Releases both constraints accept make alternatives of theirs meet. -/
theorem overlap_of_common {left right : String} {ecosystem : Ecosystem}
    {leftIntervals rightIntervals : List VersionInterval}
    (hl : constraintIntervals left ecosystem = some leftIntervals)
    (hr : constraintIntervals right ecosystem = some rightIntervals) {v : Version}
    (hleft : Satisfies .ranges left ecosystem v) (hright : Satisfies .ranges right ecosystem v) :
    overlap leftIntervals rightIntervals = true := by
  obtain ⟨l, hlmem, hlv⟩ := (exists_mem_iff_satisfies hl v).mpr hleft
  obtain ⟨r, hrmem, hrv⟩ := (exists_mem_iff_satisfies hr v).mpr hright
  refine List.any_eq_true.mpr ⟨l, hlmem, List.any_eq_true.mpr ⟨r, hrmem, ?_⟩⟩
  cases hdisjoint : disjoint l r with
  | false => rfl
  | true => exact (not_common_of_disjoint hdisjoint hlv hrv).elim

/-- Alternatives that meet do so at a release both constraints accept, or below
zero. -/
theorem common_of_overlap {left right : String} {ecosystem : Ecosystem}
    {leftIntervals rightIntervals : List VersionInterval}
    (hl : constraintIntervals left ecosystem = some leftIntervals)
    (hr : constraintIntervals right ecosystem = some rightIntervals)
    (h : overlap leftIntervals rightIntervals = true) :
    (∃ v, v ≠ [] ∧ Satisfies .ranges left ecosystem v ∧ Satisfies .ranges right ecosystem v) ∨
      MeetBelowZero left right ecosystem := by
  by_cases hcommon :
      ∃ v, v ≠ [] ∧ Satisfies .ranges left ecosystem v ∧ Satisfies .ranges right ecosystem v
  · exact .inl hcommon
  · obtain ⟨l, hlmem, h⟩ := List.any_eq_true.mp h
    obtain ⟨r, hrmem, h⟩ := List.any_eq_true.mp h
    have hmeet : disjoint l r = false := Bool.not_eq_true' _ |>.mp h
    refine .inr ⟨leftIntervals, rightIntervals, hl, hr, ⟨l, hlmem, r, hrmem, hmeet⟩, ?_⟩
    intro l hlmem r hrmem hmeet
    rcases exists_common hmeet with ⟨v, hv, hlv, hrv⟩ | hsunken
    · exact absurd ⟨v, hv, (exists_mem_iff_satisfies hl v).mp ⟨l, hlmem, hlv⟩,
        (exists_mem_iff_satisfies hr v).mp ⟨r, hrmem, hrv⟩⟩ hcommon
    · exact hsunken

/-- No release satisfies two constraints in conflict, not even with exclusions
set aside. -/
theorem not_common_of_conflict {left right : String} {ecosystem : Ecosystem}
    (h : compareConstraints left right ecosystem = .conflict) {v : Version}
    (hleft : Satisfies .ranges left ecosystem v) (hright : Satisfies .ranges right ecosystem v) :
    False := by
  by_cases href : isReference left = true ∨ isReference right = true
  · rw [compareConstraints_reference href] at h
    exact compareUrlPins_ne_conflict left right h
  · obtain ⟨hl, hr⟩ := not_references href
    obtain ⟨leftIntervals, rightIntervals, hli, hri, hverdict⟩ :=
      compareConstraints_decided hl hr (by rw [h]; exact Verdict.noConfusion)
    rw [overlap_of_common hli hri hleft hright, h] at hverdict
    cases hverdict

/-- A conflict leaves no release that satisfies both constraints. Without one,
and exclusions set aside, some release does, unless the ranges meet below zero
only; for direct references it says that their texts are the same. -/
theorem compareConstraints_sound (left right : String) (ecosystem : Ecosystem) :
    (compareConstraints left right ecosystem = .conflict →
      ∀ v, ¬ (Satisfies .literal left ecosystem v ∧ Satisfies .literal right ecosystem v)) ∧
    (compareConstraints left right ecosystem = .noConflict →
      isReference left = false → isReference right = false →
      (∃ v, v ≠ [] ∧ Satisfies .ranges left ecosystem v ∧ Satisfies .ranges right ecosystem v) ∨
        MeetBelowZero left right ecosystem) ∧
    (compareConstraints left right ecosystem = .noConflict →
      isReference left = true ∨ isReference right = true →
      trim left.toList = trim right.toList) := by
  refine ⟨?conflict, ?noConflict, ?reference⟩
  case conflict =>
    intro hconflict v ⟨hleft, hright⟩
    exact not_common_of_conflict hconflict hleft.ranges hright.ranges
  case noConflict =>
    intro hnone hl hr
    obtain ⟨leftIntervals, rightIntervals, hli, hri, hverdict⟩ :=
      compareConstraints_decided hl hr (by rw [hnone]; exact Verdict.noConfusion)
    refine common_of_overlap hli hri ?_
    by_contra hoverlap
    rw [if_neg hoverlap, hnone] at hverdict
    cases hverdict
  case reference =>
    intro hnone href
    rw [compareConstraints_reference href] at hnone
    exact same_of_compareUrlPins hnone

end Meaning

/-- `>=6.1` leaves nothing of `~4.17 || ^5`, and `^5.2` does. -/
theorem compareConstraints_sound_alternatives :
    letI : Decimals := Decimals.ascii
    (¬ ∃ v, Satisfies .literal "~4.17 || ^5" .javascript v ∧
      Satisfies .literal ">=6.1" .javascript v) ∧
    ((∃ v, v ≠ [] ∧ Satisfies .ranges "~4.17 || ^5" .javascript v ∧
      Satisfies .ranges "^5.2" .javascript v) ∨
        MeetBelowZero "~4.17 || ^5" "^5.2" .javascript) ∧
    trim " @ git+https://h/p@v1 ".toList = trim "@ git+https://h/p@v1".toList := by
  let _ : Decimals := Decimals.ascii
  have hconflict := (compareConstraints_sound "~4.17 || ^5" ">=6.1" .javascript).1
    (by decide +kernel)
  exact ⟨fun ⟨v, hv⟩ => hconflict v hv,
    (compareConstraints_sound "~4.17 || ^5" "^5.2" .javascript).2.1
      (by decide +kernel) (by decide +kernel) (by decide +kernel),
    (compareConstraints_sound " @ git+https://h/p@v1 " "@ git+https://h/p@v1" .python).2.2
      (by decide +kernel) (.inl (by decide +kernel))⟩

/-- `==1.5` and `>=1,!=1.5` are said to be reconcilable, and no release satisfies
both. -/
theorem exclusion_set_aside :
    letI : Decimals := Decimals.ascii
    compareConstraints "==1.5" ">=1,!=1.5" .python = .noConflict ∧
      ¬ ∃ v, Satisfies .literal "==1.5" .python v ∧
        Satisfies .literal ">=1,!=1.5" .python v := by
  let _ : Decimals := Decimals.ascii
  refine ⟨by decide +kernel, ?_⟩
  rintro ⟨v, hleft, hright⟩
  have hequal : commaClauses (trim "==1.5".toList) = ["==1.5".toList] := by decide +kernel
  have hexcluded : "!=1.5".toList ∈ commaClauses (trim ">=1,!=1.5".toList) := by decide +kernel
  obtain ⟨operator, text, hmatch, hallows⟩ := hleft "==1.5".toList (by rw [hequal]; simp)
  obtain ⟨operator', text', hmatch', hallows'⟩ := hright "!=1.5".toList hexcluded
  have hfound : matchOperator pythonOperators "==1.5".toList = some (.equal, "1.5".toList) := by
    decide +kernel
  have hfound' : matchOperator pythonOperators "!=1.5".toList = some (.exclude, "1.5".toList) := by
    decide +kernel
  rw [hfound] at hmatch
  rw [hfound'] at hmatch'
  cases hmatch
  cases hmatch'
  exact hallows' rfl hallows

end VersionConstraints

end SynapseChannel
