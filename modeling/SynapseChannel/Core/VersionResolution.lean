import SynapseChannel.Core.ConstraintMeaning

/-!
# Core — VersionResolution

Advice on one package with conflicting declarations: the declarations whose
single removal leaves the others a common range, and a version one of the
others already names inside that range.
-/

namespace SynapseChannel

open Py Releases VersionConstraints

namespace VersionResolution

/-- One repository's declared constraint on the conflicting package. -/
structure ConsumerConstraint where
  repo : String
  constraint : String
  manifest : String
deriving DecidableEq

/-- A single declaration whose removal reconciles every other consumer. -/
structure OddOneOut where
  repo : String
  constraint : String
  remainder : String
  suggestedPin : Option String
  pinSource : Option String
deriving DecidableEq

/-- The resolution picture for one provably conflicting package. -/
structure ResolutionAdvice where
  package : String
  ecosystem : Ecosystem
  consumers : List ConsumerConstraint
  unassessed : List ConsumerConstraint
  oddOnesOut : List OddOneOut

/-- A declaration inside the interval model, with its alternatives. -/
abbrev Comparable := ConsumerConstraint × List VersionInterval

/-! ## Rendering -/

def dotted (version : Version) : String := ".".intercalate (version.map toString)

/-- One interval as operator text. -/
def renderInterval (interval : VersionInterval) : String :=
  match interval.low, interval.high with
  | none, none => "any version"
  | some low, none => (if interval.lowInclusive then ">=" else ">") ++ dotted low
  | none, some high => (if interval.highInclusive then "<=" else "<") ++ dotted high
  | some low, some high =>
    if low = high ∧ interval.lowInclusive ∧ interval.highInclusive then "==" ++ dotted low
    else (if interval.lowInclusive then ">=" else ">") ++ dotted low ++ ", " ++
      (if interval.highInclusive then "<=" else "<") ++ dotted high

def renderIntervals (intervals : List VersionInterval) : String :=
  " or ".intercalate (intervals.map renderInterval)

/-! ## The remainder and a version in it -/

/-- The nonempty intersections of two sets of alternatives. -/
def meetAlternatives (accumulated intervals : List VersionInterval) : List VersionInterval :=
  accumulated.flatMap fun left =>
    (intervals.map (intersectIntervals left)).filter fun candidate => !intervalIsEmpty candidate

/-- Intersect the alternatives of every declaration. -/
def intersectAll : List (List VersionInterval) → List VersionInterval
  | [] => []
  | first :: rest => rest.foldl meetAlternatives first

/-- The exact version lies inside any of the alternatives. -/
def versionInIntervals (version : Version) (intervals : List VersionInterval) : Bool :=
  intervals.any fun interval =>
    !intervalIsEmpty (intersectIntervals { low := some version, high := some version } interval)

/-- The inclusive ends of an interval. -/
def inclusiveEnds (interval : VersionInterval) : List Version :=
  (if interval.lowInclusive then interval.low.toList else []) ++
    (if interval.highInclusive then interval.high.toList else [])

/-- The versions in the remainder that remaining consumers name in inclusive
bounds. -/
def pinCandidates (remaining : List Comparable) (remainder : List VersionInterval) :
    List (Version × String) :=
  remaining.flatMap fun (declaration, intervals) =>
    ((intervals.flatMap inclusiveEnds).filter fun version =>
      versionInIntervals version remainder).map fun version => (version, declaration.repo)

/-- The order of candidates: the highest version first, then by repository. -/
def pinKey (width : Nat) (candidate : Version × String) : List Int × String :=
  ((padded candidate.1 width).map fun part => -(part : Int), candidate.2)

def keyLess (left right : List Int × String) : Bool :=
  left.1 < right.1 ∨ left.1 = right.1 ∧ left.2 < right.2

/-- Python's `min` with a key: the first of the least. -/
def minByPinKey (width : Nat) (first : Version × String) (rest : List (Version × String)) :
    Version × String :=
  rest.foldl
    (fun best candidate =>
      if keyLess (pinKey width candidate) (pinKey width best) then candidate else best)
    first

/-- Pick a declared version inside the remainder. -/
def suggestPin (remaining : List Comparable) (remainder : List VersionInterval) :
    Option (Version × String) :=
  match pinCandidates remaining remainder with
  | [] => none
  | first :: rest =>
    let width := ((first :: rest).map fun candidate => candidate.1.length).foldl max 0
    some (minByPinKey width first rest)

/-! ## Advice -/

/-- The advice to set one declaration aside, from the others. -/
def adviseWithout (declaration : ConsumerConstraint) (others : List Comparable) :
    Option OddOneOut :=
  if others.isEmpty then none
  else
    let remainder := intersectAll (others.map Prod.snd)
    if remainder.isEmpty then none
    else
      let pin := suggestPin others remainder
      some {
        repo := declaration.repo, constraint := declaration.constraint
        remainder := renderIntervals remainder
        suggestedPin := pin.map fun found => dotted found.1
        pinSource := pin.map Prod.snd }

section Advice

variable [Decimals]

def comparables (ecosystem : Ecosystem) (declarations : List ConsumerConstraint) :
    List Comparable :=
  declarations.filterMap fun declaration =>
    (constraintIntervals declaration.constraint ecosystem).map fun intervals =>
      (declaration, intervals)

/-- The odd-one-out advice for one package. -/
def advisePackage (package : String) (ecosystem : Ecosystem)
    (declarations : List ConsumerConstraint) : ResolutionAdvice :=
  let comparable := comparables ecosystem declarations
  { package, ecosystem
    consumers := comparable.map Prod.fst
    unassessed := declarations.filter fun declaration =>
      (constraintIntervals declaration.constraint ecosystem).isNone
    oddOnesOut := comparable.zipIdx.filterMap fun ((declaration, _), index) =>
      adviseWithout declaration (comparable.eraseIdx index) }

end Advice

/-! ## Releases of the remainder -/

theorem exists_mem_meetAlternatives (accumulated intervals : List VersionInterval) (v : Version) :
    (∃ interval ∈ meetAlternatives accumulated intervals, Intervals.Mem rank interval v) ↔
      (∃ interval ∈ accumulated, Intervals.Mem rank interval v) ∧
        ∃ interval ∈ intervals, Intervals.Mem rank interval v := by
  constructor
  · rintro ⟨interval, hinterval, hv⟩
    obtain ⟨left, hleft, hinterval⟩ := List.mem_flatMap.mp hinterval
    obtain ⟨right, hright, rfl⟩ := List.mem_map.mp (List.mem_filter.mp hinterval).1
    obtain ⟨hl, hr⟩ := (ranked.mem_intersect left right v).mp hv
    exact ⟨⟨left, hleft, hl⟩, right, hright, hr⟩
  · rintro ⟨⟨left, hleft, hl⟩, right, hright, hr⟩
    have hv := (ranked.mem_intersect left right v).mpr ⟨hl, hr⟩
    refine ⟨intersectIntervals left right, List.mem_flatMap.mpr ⟨left, hleft, ?_⟩, hv⟩
    refine List.mem_filter.mpr ⟨List.mem_map.mpr ⟨right, hright, rfl⟩, ?_⟩
    cases hempty : intervalIsEmpty (intersectIntervals left right) with
    | false => rfl
    | true => exact absurd hv (ranked.not_mem_of_isEmpty hempty v)

theorem exists_mem_foldl (first : List VersionInterval) (rest : List (List VersionInterval))
    (v : Version) :
    (∃ interval ∈ rest.foldl meetAlternatives first, Intervals.Mem rank interval v) ↔
      ∀ intervals ∈ first :: rest, ∃ interval ∈ intervals, Intervals.Mem rank interval v := by
  induction rest generalizing first with
  | nil => simp
  | cons second rest ih =>
      rw [List.foldl_cons, ih, List.forall_mem_cons, List.forall_mem_cons, List.forall_mem_cons,
        exists_mem_meetAlternatives, and_assoc]

/-- The remainder holds the releases every declaration allows. -/
theorem exists_mem_intersectAll {sets : List (List VersionInterval)} (h : sets ≠ []) (v : Version) :
    (∃ interval ∈ intersectAll sets, Intervals.Mem rank interval v) ↔
      ∀ intervals ∈ sets, ∃ interval ∈ intervals, Intervals.Mem rank interval v := by
  cases sets with
  | nil => exact absurd rfl h
  | cons first rest => exact exists_mem_foldl first rest v

theorem mem_meetAlternatives {accumulated intervals : List VersionInterval}
    {interval : VersionInterval} (h : interval ∈ meetAlternatives accumulated intervals) :
    intervalIsEmpty interval = false ∧ ∃ left ∈ accumulated, ∃ right ∈ intervals,
      interval = intersectIntervals left right := by
  obtain ⟨left, hleft, h⟩ := List.mem_flatMap.mp h
  obtain ⟨hmem, hempty⟩ := List.mem_filter.mp h
  obtain ⟨right, hright, rfl⟩ := List.mem_map.mp hmem
  exact ⟨Bool.not_eq_true' _ |>.mp hempty, left, hleft, right, hright, rfl⟩

/-- The remainder ends below zero only where an alternative of some declaration
does. -/
theorem sunken_of_foldl {first : List VersionInterval} {rest : List (List VersionInterval)}
    {interval : VersionInterval} (h : interval ∈ rest.foldl meetAlternatives first)
    (hsunken : Intervals.Sunken rank [0] interval) :
    ∃ intervals ∈ first :: rest, ∃ found ∈ intervals, Intervals.Sunken rank [0] found := by
  induction rest generalizing first with
  | nil => exact ⟨first, List.mem_cons_self, interval, h, hsunken⟩
  | cons second rest ih =>
      obtain ⟨intervals, hintervals, found, hfound, hends⟩ := ih h
      rcases List.mem_cons.mp hintervals with rfl | hrest
      · obtain ⟨-, left, hleft, right, hright, rfl⟩ := mem_meetAlternatives hfound
        rcases ranked.sunken_of_intersect hends with hl | hr
        · exact ⟨first, List.mem_cons_self, left, hleft, hl⟩
        · exact ⟨second, List.mem_cons_of_mem _ List.mem_cons_self, right, hright, hr⟩
      · exact ⟨intervals, List.mem_cons_of_mem _ (List.mem_cons_of_mem _ hrest), found, hfound,
          hends⟩

theorem isEmpty_of_foldl {first : List VersionInterval} {rest : List (List VersionInterval)}
    {interval : VersionInterval} (h : interval ∈ rest.foldl meetAlternatives first)
    (hrest : rest ≠ []) : intervalIsEmpty interval = false := by
  cases rest using List.reverseRecOn with
  | nil => exact absurd rfl hrest
  | append_singleton rest last _ =>
      rw [List.foldl_append] at h
      exact (mem_meetAlternatives h).1

/-! ## Ends are versions -/

/-- The ends of an interval have at least one component. -/
def Whole (interval : VersionInterval) : Prop :=
  interval.low ≠ some [] ∧ interval.high ≠ some []

theorem bump_ne_nil (version : Version) (place : Nat) : bump version place ≠ [] := by
  unfold bump
  simp

theorem whole_unbounded : Whole {} := by simp [Whole]

theorem whole_span_bump {version : Version} (h : version ≠ []) (place : Nat) :
    Whole { low := some version, high := some (bump version place), highInclusive := false } := by
  simp [Whole, h, bump_ne_nil]

theorem whole_wildcardInterval (base : Version) : Whole (wildcardInterval base) := by
  unfold wildcardInterval
  split
  · exact whole_unbounded
  · rename_i hbase
    exact whole_span_bump hbase _

theorem whole_rangeInterval {version : Version} (h : version ≠ []) (comparator : Comparator) :
    Whole (rangeInterval comparator version) := by
  cases comparator <;> simp [rangeInterval, Whole, h]

theorem whole_requirementOperatorInterval {version : Version} (h : version ≠ [])
    (operator : RequirementOperator) : Whole (requirementOperatorInterval operator version) := by
  cases operator with
  | caret => exact whole_span_bump h _
  | tilde => exact whole_span_bump h _
  | equal =>
      unfold requirementOperatorInterval
      dsimp only
      split
      · exact whole_wildcardInterval version
      · simp [Whole, h]
  | range comparator =>
      unfold requirementOperatorInterval
      dsimp only
      split
      · simp [Whole, bump_ne_nil]
      · split
        · simp [Whole, bump_ne_nil]
        · exact whole_rangeInterval h comparator

theorem Whole.intersect {left right : VersionInterval} (hleft : Whole left) (hright : Whole right) :
    Whole (intersectIntervals left right) := by
  unfold intersectIntervals
  constructor
  · rcases Intervals.low_intersect compareVersions left right with h | h
    · rw [h]
      exact hleft.1
    · rw [h]
      exact hright.1
  · rcases Intervals.high_intersect compareVersions left right with h | h
    · rw [h]
      exact hleft.2
    · rw [h]
      exact hright.2

theorem whole_narrow {κ : Type} {clauseInterval : κ → Option VersionInterval}
    (hclause : ∀ {clause interval}, clauseInterval clause = some interval → Whole interval)
    {clauses : List κ} {start interval : VersionInterval} (hstart : Whole start)
    (h : narrow clauseInterval start clauses = some interval) : Whole interval := by
  induction clauses generalizing start with
  | nil =>
      cases h
      exact hstart
  | cons clause rest ih =>
      obtain ⟨found, hfound, h⟩ := Option.bind_eq_some_iff.mp h
      exact ih (hstart.intersect (hclause hfound)) h

section Ends

variable [Decimals]

theorem whole_pythonClauseInterval {operator : PythonOperator} {text : List Char}
    {interval : VersionInterval} (h : pythonClauseInterval operator text = some interval) :
    Whole interval := by
  unfold pythonClauseInterval at h
  dsimp only at h
  split at h
  · obtain ⟨base, -, rfl⟩ := Option.map_eq_some_iff.mp h
    exact whole_wildcardInterval base
  · obtain ⟨version, hparse, h⟩ := Option.bind_eq_some_iff.mp h
    have hversion : version ≠ [] := parseVersion_ne_nil hparse
    cases operator with
    | equal =>
        cases h
        simp [Whole, hversion]
    | arbitrary =>
        cases h
        simp [Whole, hversion]
    | compatible =>
        dsimp only at h
        split at h
        · cases h
        · cases h
          exact whole_span_bump hversion _
    | range comparator =>
        cases h
        exact whole_rangeInterval hversion comparator
    | exclude =>
        cases h
        exact whole_rangeInterval hversion .below

theorem whole_pythonStep {clause : List Char} {interval : VersionInterval}
    (h : pythonStep clause = some interval) : Whole interval := by
  unfold pythonStep at h
  split at h
  · cases h
  · cases h
    exact whole_unbounded
  · exact whole_pythonClauseInterval h

theorem whole_requirementClauseInterval {bareIsCaret : Bool} {clause : List Char}
    {interval : VersionInterval}
    (h : requirementClauseInterval clause bareIsCaret = some interval) : Whole interval := by
  unfold requirementClauseInterval at h
  split at h
  · obtain ⟨version, hparse, rfl⟩ := Option.map_eq_some_iff.mp h
    exact whole_requirementOperatorInterval (parseVersion_ne_nil hparse) _
  · split at h
    · rename_i version hparse
      have hversion : version ≠ [] := parseVersion_ne_nil hparse
      cases h
      unfold bareInterval
      split
      · exact whole_span_bump hversion _
      · split
        · simp [Whole, hversion]
        · exact whole_wildcardInterval version
    · obtain ⟨base, -, rfl⟩ := Option.map_eq_some_iff.mp h
      exact whole_wildcardInterval base

theorem whole_groupClauseInterval {clause : GroupClause} {interval : VersionInterval}
    (h : groupClauseInterval clause = some interval) : Whole interval := by
  cases clause with
  | token text => exact whole_requirementClauseInterval h
  | hyphen low high =>
      obtain ⟨least, hleast, h⟩ := Option.bind_eq_some_iff.mp h
      obtain ⟨most, hmost, rfl⟩ := Option.map_eq_some_iff.mp h
      have hl : least ≠ [] := parseVersion_ne_nil hleast
      have hm : most ≠ [] := parseVersion_ne_nil hmost
      split <;> simp [Whole, hl, hm, bump_ne_nil]

theorem whole_alternativeInterval {group : List Char} {interval : VersionInterval}
    (h : alternativeInterval group = some interval) : Whole interval := by
  unfold alternativeInterval at h
  split at h
  · cases h
    exact whole_unbounded
  · exact whole_narrow whole_groupClauseInterval whole_unbounded h

theorem whole_of_constraintIntervals {constraint : String} {ecosystem : Ecosystem}
    {intervals : List VersionInterval}
    (h : constraintIntervals constraint ecosystem = some intervals) {interval : VersionInterval}
    (hinterval : interval ∈ intervals) : Whole interval := by
  have hblank : ∀ {read : Option (List VersionInterval)},
      (read = some intervals → Whole interval) →
      (if trim constraint.toList = [] then some [{}] else read) = some intervals →
        Whole interval := by
    intro read hread hintervals
    split at hintervals
    · cases hintervals
      rw [List.mem_singleton.mp hinterval]
      exact whole_unbounded
    · exact hread hintervals
  have hsingle : ∀ {lowered : Option VersionInterval},
      (∀ {found}, lowered = some found → Whole found) →
      lowered.map (fun found => [found]) = some intervals → Whole interval := by
    intro lowered hlowered hintervals
    obtain ⟨found, hfound, rfl⟩ := Option.map_eq_some_iff.mp hintervals
    rw [List.mem_singleton.mp hinterval]
    exact hlowered hfound
  cases ecosystem with
  | other => cases h
  | python => exact hblank (hsingle (whole_narrow whole_pythonStep whole_unbounded)) h
  | rust =>
      exact hblank (hsingle (whole_narrow whole_requirementClauseInterval whole_unbounded)) h
  | javascript =>
      refine hblank (fun hgroups => ?_) h
      obtain ⟨group, -, hgroup⟩ := exists_of_mapM hgroups hinterval
      exact whole_alternativeInterval hgroup

end Ends

/-! ## The suggested version -/

theorem mem_of_versionInIntervals {version : Version} {intervals : List VersionInterval}
    (h : versionInIntervals version intervals = true) :
    ∃ interval ∈ intervals, Intervals.Mem rank interval version := by
  obtain ⟨interval, hinterval, h⟩ := List.any_eq_true.mp h
  have hempty : intervalIsEmpty (intersectIntervals { low := some version, high := some version }
      interval) = false := Bool.not_eq_true' _ |>.mp h
  have hlow : (intersectIntervals { low := some version, high := some version } interval).low ≠
      none := by
    simp only [intersectIntervals, Intervals.intersect, Intervals.tighterLow]
    split
    · simp
    · split <;> simp
  obtain ⟨v, hv⟩ := ranked.exists_mem hempty fun hsunken => hlow hsunken.1
  obtain ⟨hpoint, hmem⟩ := (ranked.mem_intersect _ interval v).mp hv
  exact ⟨interval, hinterval, (Intervals.mem_congr (Intervals.mem_point.mp hpoint)).mp hmem⟩

theorem mem_minByPinKey (width : Nat) (first : Version × String) (rest : List (Version × String)) :
    minByPinKey width first rest ∈ first :: rest := by
  unfold minByPinKey
  induction rest generalizing first with
  | nil => exact List.mem_cons_self
  | cons candidate rest ih =>
      rw [List.foldl_cons]
      have hmem := ih (if keyLess (pinKey width candidate) (pinKey width first) then candidate
        else first)
      rcases List.mem_cons.mp hmem with heq | hrest
      · rw [heq]
        split <;> simp
      · exact List.mem_cons_of_mem _ (List.mem_cons_of_mem _ hrest)

theorem mem_inclusiveEnds {interval : VersionInterval} {version : Version}
    (h : version ∈ inclusiveEnds interval) :
    interval.low = some version ∨ interval.high = some version := by
  unfold inclusiveEnds at h
  rcases List.mem_append.mp h with h | h
  · split at h
    · exact .inl (Option.mem_toList.mp h)
    · cases h
  · split at h
    · exact .inr (Option.mem_toList.mp h)
    · cases h

/-- The suggested version lies in the remainder, and one of the remaining
consumers names it as the end of one of its alternatives. -/
theorem suggestPin_spec {remaining : List Comparable} {remainder : List VersionInterval}
    {version : Version} {source : String}
    (h : suggestPin remaining remainder = some (version, source)) :
    (∃ interval ∈ remainder, Intervals.Mem rank interval version) ∧
      ∃ declaration intervals, (declaration, intervals) ∈ remaining ∧ declaration.repo = source ∧
        ∃ interval ∈ intervals, interval.low = some version ∨ interval.high = some version := by
  have hmem : (version, source) ∈ pinCandidates remaining remainder := by
    unfold suggestPin at h
    split at h
    · cases h
    · rename_i first rest hcandidates
      rw [hcandidates, ← Option.some.inj h]
      exact mem_minByPinKey _ first rest
  obtain ⟨⟨declaration, intervals⟩, hremaining, hmem⟩ := List.mem_flatMap.mp hmem
  obtain ⟨candidate, hcandidate, heq⟩ := List.mem_map.mp hmem
  cases heq
  obtain ⟨hends, hinside⟩ := List.mem_filter.mp hcandidate
  obtain ⟨interval, hinterval, hend⟩ := List.mem_flatMap.mp hends
  exact ⟨mem_of_versionInIntervals hinside, declaration, intervals, hremaining, rfl, interval,
    hinterval, mem_inclusiveEnds hend⟩

/-! ## Declarations that are named -/

section Advised

variable [Decimals]

/-- The release satisfies every one of the declarations, exclusions set aside. -/
def Reconciles (ecosystem : Ecosystem) (declarations : List ConsumerConstraint) (v : Version) :
    Prop :=
  ∀ declaration ∈ declarations, Satisfies .ranges declaration.constraint ecosystem v

/-- Ranges without a release that the interval algebra takes for ranges with
one: a declaration that is empty on its own, when it is the only one, and an
alternative that ends below zero. -/
def Degenerate (ecosystem : Ecosystem) (declarations : List ConsumerConstraint) : Prop :=
  (declarations.length = 1 ∧ ¬ ∃ v, Reconciles ecosystem declarations v) ∨
    ∃ declaration ∈ declarations, ∃ intervals,
      constraintIntervals declaration.constraint ecosystem = some intervals ∧
      ∃ interval ∈ intervals, Intervals.Sunken rank [0] interval

/-- What the advice says when it names the consumer at a place. -/
structure Names (ecosystem : Ecosystem) (consumers : List ConsumerConstraint) (place : Nat)
    (odd : OddOneOut) : Prop where
  declaration : ∃ declaration, consumers[place]? = some declaration ∧
    odd.repo = declaration.repo ∧ odd.constraint = declaration.constraint
  pin : ∀ text, odd.suggestedPin = some text →
    ∃ v, v ≠ [] ∧ text = dotted v ∧ Reconciles ecosystem (consumers.eraseIdx place) v

theorem constraintIntervals_of_mem {ecosystem : Ecosystem}
    {declarations : List ConsumerConstraint} {declaration : ConsumerConstraint}
    {intervals : List VersionInterval}
    (h : (declaration, intervals) ∈ comparables ecosystem declarations) :
    constraintIntervals declaration.constraint ecosystem = some intervals := by
  obtain ⟨found, -, h⟩ := List.mem_filterMap.mp h
  obtain ⟨lowered, hlowered, heq⟩ := Option.map_eq_some_iff.mp h
  cases heq
  exact hlowered

/-- Alternatives lowered from their declarations. -/
def Lowered (ecosystem : Ecosystem) (others : List Comparable) : Prop :=
  ∀ declaration intervals, (declaration, intervals) ∈ others →
    constraintIntervals declaration.constraint ecosystem = some intervals

theorem Lowered.reconciles_iff {ecosystem : Ecosystem} {others : List Comparable}
    (h : Lowered ecosystem others) (hothers : others ≠ []) (v : Version) :
    (∃ interval ∈ intersectAll (others.map Prod.snd), Intervals.Mem rank interval v) ↔
      Reconciles ecosystem (others.map Prod.fst) v := by
  rw [exists_mem_intersectAll (by simpa using hothers)]
  unfold Reconciles
  rw [List.forall_mem_map, List.forall_mem_map]
  refine forall₂_congr fun other hother => ?_
  exact exists_mem_iff_satisfies (h other.1 other.2 hother) v

theorem Lowered.exists_ne_nil {ecosystem : Ecosystem} {others : List Comparable}
    (h : Lowered ecosystem others) (hothers : others ≠ []) {v : Version}
    (hv : Reconciles ecosystem (others.map Prod.fst) v) :
    ∃ w, w ≠ [] ∧ Reconciles ecosystem (others.map Prod.fst) w := by
  obtain ⟨interval, hinterval, hmem⟩ := (h.reconciles_iff hothers v).mpr hv
  have hpadded : rank (v ++ [0]) = rank v := rank_eq_iff.mpr (part_append_zeros v 1)
  exact ⟨v ++ [0], by simp, (h.reconciles_iff hothers _).mp
    ⟨interval, hinterval, (Intervals.mem_congr hpadded).mpr hmem⟩⟩

/-- A remainder without a release is degenerate. -/
theorem Lowered.degenerate {ecosystem : Ecosystem} {others : List Comparable}
    (h : Lowered ecosystem others) {interval : VersionInterval}
    (hinterval : interval ∈ intersectAll (others.map Prod.snd))
    (hnone : ¬ ∃ v, Reconciles ecosystem (others.map Prod.fst) v) :
    Degenerate ecosystem (others.map Prod.fst) := by
  cases others with
  | nil => cases hinterval
  | cons first rest =>
      by_cases hrest : rest = []
      · exact .inl ⟨by rw [hrest]; rfl, hnone⟩
      · have hempty : intervalIsEmpty interval = false :=
          isEmpty_of_foldl hinterval (by simpa using hrest)
        have hsunken : Intervals.Sunken rank [0] interval := by
          by_contra hsunken
          obtain ⟨v, hv⟩ := ranked.exists_mem hempty hsunken
          exact hnone ⟨v, (h.reconciles_iff (List.cons_ne_nil _ _) v).mp ⟨interval, hinterval, hv⟩⟩
        obtain ⟨intervals, hintervals, found, hfound, hends⟩ := sunken_of_foldl hinterval hsunken
        have hsets : intervals ∈ (first :: rest).map Prod.snd := hintervals
        obtain ⟨other, hother, rfl⟩ := List.mem_map.mp hsets
        exact .inr ⟨other.1, List.mem_map_of_mem hother, other.2, h other.1 other.2 hother, found,
          hfound, hends⟩

/-- The advice to set a declaration aside is given when a release satisfies the
others, and otherwise only where they are degenerate. -/
theorem adviseWithout_isSome {ecosystem : Ecosystem} {others : List Comparable}
    (h : Lowered ecosystem others) (declaration : ConsumerConstraint) (hothers : others ≠ []) :
    ((∃ v, Reconciles ecosystem (others.map Prod.fst) v) →
      (adviseWithout declaration others).isSome = true) ∧
    ((adviseWithout declaration others).isSome = true →
      (∃ v, v ≠ [] ∧ Reconciles ecosystem (others.map Prod.fst) v) ∨
        Degenerate ecosystem (others.map Prod.fst)) := by
  have hsome : (adviseWithout declaration others).isSome = true ↔
      intersectAll (others.map Prod.snd) ≠ [] := by
    unfold adviseWithout
    rw [if_neg (by simpa using hothers)]
    dsimp only
    split
    · rename_i hempty
      simpa using hempty
    · rename_i hempty
      simpa using hempty
  rw [hsome]
  constructor
  · rintro ⟨v, hv⟩ hnil
    obtain ⟨interval, hinterval, -⟩ := (h.reconciles_iff hothers v).mpr hv
    rw [hnil] at hinterval
    cases hinterval
  · intro hremainder
    obtain ⟨interval, hinterval⟩ := List.exists_mem_of_ne_nil _ hremainder
    by_cases hjoint : ∃ v, Reconciles ecosystem (others.map Prod.fst) v
    · obtain ⟨v, hv⟩ := hjoint
      exact .inl (h.exists_ne_nil hothers hv)
    · exact .inr (h.degenerate hinterval hjoint)

theorem adviseWithout_spec {ecosystem : Ecosystem} {others : List Comparable}
    (h : Lowered ecosystem others) {declaration : ConsumerConstraint} {odd : OddOneOut}
    (hodd : adviseWithout declaration others = some odd) :
    odd.repo = declaration.repo ∧ odd.constraint = declaration.constraint ∧
      ∀ text, odd.suggestedPin = some text →
        ∃ v, v ≠ [] ∧ text = dotted v ∧ Reconciles ecosystem (others.map Prod.fst) v := by
  unfold adviseWithout at hodd
  split at hodd
  · cases hodd
  · rename_i hothers
    dsimp only at hodd
    split at hodd
    · cases hodd
    · cases hodd
      refine ⟨rfl, rfl, fun text htext => ?_⟩
      obtain ⟨⟨version, source⟩, hpin, rfl⟩ := Option.map_eq_some_iff.mp htext
      obtain ⟨hinside, other, intervals, hother, -, interval, hinterval, hend⟩ :=
        suggestPin_spec hpin
      have hwhole := whole_of_constraintIntervals (h other intervals hother) hinterval
      refine ⟨version, ?_, rfl, (h.reconciles_iff (by simpa using hothers) version).mp hinside⟩
      rintro rfl
      exact hend.elim hwhole.1 hwhole.2

omit [Decimals] in
theorem forall₂_filterMap {α β : Type} {P : α → Prop} {f : α → Option β} {l : List α}
    (h : ∀ a ∈ l, P a) :
    List.Forall₂ (fun a b => P a ∧ f a = some b) (l.filter fun a => (f a).isSome)
      (l.filterMap f) := by
  induction l with
  | nil => exact .nil
  | cons head rest ih =>
      obtain ⟨hP, hrest⟩ := List.forall_mem_cons.mp h
      cases hhead : f head with
      | none =>
          rw [List.filterMap_cons_none hhead, List.filter_cons_of_neg (by simp [hhead])]
          exact ih hrest
      | some found =>
          rw [List.filterMap_cons_some hhead, List.filter_cons_of_pos (by simp [hhead])]
          exact .cons ⟨hP, hhead⟩ (ih hrest)

theorem consumers_eq (package : String) (ecosystem : Ecosystem)
    (declarations : List ConsumerConstraint) :
    (advisePackage package ecosystem declarations).consumers =
      declarations.filter fun declaration =>
        (constraintIntervals declaration.constraint ecosystem).isSome := by
  show (comparables ecosystem declarations).map Prod.fst = _
  unfold comparables
  induction declarations with
  | nil => rfl
  | cons declaration rest ih =>
      cases hfound : constraintIntervals declaration.constraint ecosystem with
      | none =>
          rw [List.filterMap_cons_none (by rw [hfound]; rfl),
            List.filter_cons_of_neg (by simp [hfound])]
          exact ih
      | some intervals =>
          rw [List.filterMap_cons_some (by rw [hfound]; rfl),
            List.filter_cons_of_pos (by simp [hfound])]
          exact congrArg (declaration :: ·) ih

/-- The advice names consumers by place, each once. A version it suggests
satisfies every other consumer, exclusions set aside; and of two or more
consumers one is named when a release satisfies all the others, and otherwise
only where these are degenerate. -/
theorem advisePackage_sound (package : String) (ecosystem : Ecosystem)
    (declarations : List ConsumerConstraint) :
    let advice := advisePackage package ecosystem declarations
    advice.consumers = declarations.filter (fun declaration =>
      (constraintIntervals declaration.constraint ecosystem).isSome) ∧
    ∃ named : List Nat, named.Pairwise (· < ·) ∧
      List.Forall₂ (Names ecosystem advice.consumers) named advice.oddOnesOut ∧
      ∀ place < advice.consumers.length, 2 ≤ advice.consumers.length →
        ((∃ v, Reconciles ecosystem (advice.consumers.eraseIdx place) v) → place ∈ named) ∧
        (place ∈ named →
          (∃ v, v ≠ [] ∧ Reconciles ecosystem (advice.consumers.eraseIdx place) v) ∨
            Degenerate ecosystem (advice.consumers.eraseIdx place)) := by
  intro advice
  let comparable := comparables ecosystem declarations
  let without : Comparable × Nat → Option OddOneOut := fun entry =>
    adviseWithout entry.1.1 (comparable.eraseIdx entry.2)
  have hlowered : ∀ place, Lowered ecosystem (comparable.eraseIdx place) :=
    fun place declaration intervals hmem =>
      constraintIntervals_of_mem (List.mem_of_mem_eraseIdx hmem)
  have hothers : ∀ place, (comparable.eraseIdx place).map Prod.fst =
      advice.consumers.eraseIdx place := fun place => (List.eraseIdx_map Prod.fst comparable place).symm
  let kept := comparable.zipIdx.filter fun entry => (without entry).isSome
  have hmem : ∀ place, place ∈ kept.map Prod.snd ↔
      ∃ found, comparable[place]? = some found ∧ (without (found, place)).isSome = true := by
    intro place
    constructor
    · intro hplace
      obtain ⟨⟨found, index⟩, hentry, rfl⟩ := List.mem_map.mp hplace
      obtain ⟨hzip, hadvised⟩ := List.mem_filter.mp hentry
      exact ⟨found, List.mem_zipIdx_iff_getElem?.mp hzip, hadvised⟩
    · rintro ⟨found, hfound, hadvised⟩
      exact List.mem_map.mpr ⟨(found, place), List.mem_filter.mpr
        ⟨List.mem_zipIdx_iff_getElem?.mpr hfound, hadvised⟩, rfl⟩
  refine ⟨consumers_eq package ecosystem declarations, kept.map Prod.snd, ?_, ?_, ?_⟩
  · have hsorted : (comparable.zipIdx.map Prod.snd).Pairwise (· < ·) := by
      rw [List.zipIdx_map_snd]
      exact List.pairwise_lt_range'
    exact hsorted.sublist (List.filter_sublist.map Prod.snd)
  · rw [List.forall₂_map_left_iff]
    have hentries : ∀ entry ∈ comparable.zipIdx, comparable[entry.2]? = some entry.1 :=
      fun entry hentry => List.mem_zipIdx_iff_getElem?.mp hentry
    refine (forall₂_filterMap hentries).imp ?_
    intro ⟨found, place⟩ odd ⟨hfound, hodd⟩
    obtain ⟨hrepo, hconstraint, hpin⟩ := adviseWithout_spec (hlowered place) hodd
    refine ⟨⟨found.1, ?_, hrepo, hconstraint⟩, ?_⟩
    · show (comparable.map Prod.fst)[place]? = _
      rw [List.getElem?_map, hfound]
      rfl
    · rw [← hothers]
      exact hpin
  · intro place hplace htwo
    have hplace' : place < comparable.length := by
      rwa [show advice.consumers = comparable.map Prod.fst from rfl, List.length_map] at hplace
    have hne : comparable.eraseIdx place ≠ [] := by
      intro hnil
      have hlength := congrArg List.length (hothers place)
      rw [hnil, List.length_eraseIdx_of_lt hplace] at hlength
      simp only [List.map_nil, List.length_nil] at hlength
      omega
    have hfound : comparable[place]? = some comparable[place] := List.getElem?_eq_getElem hplace'
    obtain ⟨hgiven, hjoint⟩ := adviseWithout_isSome (hlowered place) comparable[place].1 hne
    rw [hothers] at hgiven hjoint
    rw [hmem]
    constructor
    · intro hreconciled
      exact ⟨comparable[place], hfound, hgiven hreconciled⟩
    · rintro ⟨found, hsame, hadvised⟩
      rw [hfound] at hsame
      cases hsame
      exact hjoint hadvised

end Advised

/-- Of `==4.1`, `>=4.2` and `<5` the first is named, and `4.2` satisfies the
other two. -/
theorem advisePackage_sound_outlier :
    letI : Decimals := Decimals.ascii
    let declarations : List ConsumerConstraint :=
      [⟨"alpha", "==4.1", "a"⟩, ⟨"beta", ">=4.2", "b"⟩, ⟨"gamma", "<5", "c"⟩]
    let advice := advisePackage "pkg" .python declarations
    advice.consumers = declarations.filter (fun declaration =>
      (constraintIntervals declaration.constraint .python).isSome) ∧
    ∃ named : List Nat, named.Pairwise (· < ·) ∧
      List.Forall₂ (Names .python advice.consumers) named advice.oddOnesOut ∧
      (0 ∈ named →
        (∃ v, v ≠ [] ∧ Reconciles .python (advice.consumers.eraseIdx 0) v) ∨
          Degenerate .python (advice.consumers.eraseIdx 0)) := by
  let _ : Decimals := Decimals.ascii
  obtain ⟨hconsumers, named, hsorted, hnames, hplaces⟩ := advisePackage_sound "pkg" .python
    [⟨"alpha", "==4.1", "a"⟩, ⟨"beta", ">=4.2", "b"⟩, ⟨"gamma", "<5", "c"⟩]
  exact ⟨hconsumers, named, hsorted, hnames,
    (hplaces 0 (by decide +kernel) (by decide +kernel)).2⟩

/-- The suggested pin `2` is what the declaration it reconciles excludes. -/
theorem excluded_pin :
    letI : Decimals := Decimals.ascii
    ((advisePackage "pkg" .python [⟨"alpha", "==1", "a"⟩, ⟨"beta", ">=2,!=2", "b"⟩]).oddOnesOut.map
        fun odd => (odd.repo, odd.suggestedPin)) = [("alpha", some "2"), ("beta", some "1")] ∧
      ¬ Satisfies .literal ">=2,!=2" .python [2] := by
  let _ : Decimals := Decimals.ascii
  refine ⟨by decide +kernel, fun h => ?_⟩
  have hexcluded : "!=2".toList ∈ commaClauses (trim ">=2,!=2".toList) := by decide +kernel
  obtain ⟨operator, text, hmatch, hallows⟩ := h "!=2".toList hexcluded
  have hfound : matchOperator pythonOperators "!=2".toList = some (.exclude, "2".toList) := by
    decide +kernel
  rw [hfound] at hmatch
  cases hmatch
  have hstar : beforeStar (trim "2".toList) = none := by decide +kernel
  have hparse : parseVersion (trim "2".toList) = some [2] := by decide +kernel
  refine hallows rfl ?_
  unfold Matches
  rw [hstar]
  exact ⟨[2], hparse, rfl⟩

end VersionResolution

end SynapseChannel
