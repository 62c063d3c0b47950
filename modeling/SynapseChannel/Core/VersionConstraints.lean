import SynapseChannel.Lib.Releases
import SynapseChannel.Lib.Text

/-!
# Core — VersionConstraints

Declaration-level comparison of version constraints: the constraint texts of
three ecosystems are lowered to intervals of numeric release versions, and
two constraints conflict when no alternative of one meets one of the other.
-/

namespace SynapseChannel

open Py Releases

namespace VersionConstraints

/-- The decimal digits of the text reader, with their values. -/
class Decimals where
  digitOf : Char → Option Nat

/-- The digits `0` to `9`. -/
@[reducible]
def Decimals.ascii : Decimals where
  digitOf c := if c.isDigit then some (c.toNat - '0'.toNat) else none

abbrev VersionInterval := Intervals.Interval Version

/-- Verdicts on two constraints. -/
inductive Verdict
  /-- The two constraints are provably disjoint. -/
  | conflict
  /-- The declared ranges provably overlap. -/
  | noConflict
  /-- At least one constraint is outside the bounded numeric model. -/
  | notComparable
deriving DecidableEq

inductive Ecosystem
  | python
  | rust
  | javascript
  /-- `go` and unknown ecosystems. -/
  | other
deriving DecidableEq

/-- `>=`, `<=`, `>` and `<`. -/
inductive Comparator
  | atLeast
  | atMost
  | above
  | below
deriving DecidableEq

/-- Operators of a PEP 440 clause. -/
inductive PythonOperator
  | arbitrary
  | equal
  | exclude
  | compatible
  | range (comparator : Comparator)
deriving DecidableEq

/-- Operators of a Cargo or npm clause. -/
inductive RequirementOperator
  | range (comparator : Comparator)
  | caret
  | tilde
  | equal
deriving DecidableEq

/-- The operators in the order the pattern tries them. -/
def pythonOperators : List (List Char × PythonOperator) :=
  [(['=', '=', '='], .arbitrary), (['=', '='], .equal), (['!', '='], .exclude),
    (['~', '='], .compatible), (['>', '='], .range .atLeast), (['<', '='], .range .atMost),
    (['>'], .range .above), (['<'], .range .below)]

def rangeOperators : List (List Char × RequirementOperator) :=
  [(['>', '='], .range .atLeast), (['<', '='], .range .atMost), (['>'], .range .above),
    (['<'], .range .below), (['^'], .caret), (['~'], .tilde), (['='], .equal)]

/-- `str.strip` on code points. -/
def trim (cs : List Char) : List Char := stripChars isSpace cs

/-- An operator, blanks and then text up to the end of the line. -/
def matchOperator {ω : Type} (operators : List (List Char × ω)) (clause : List Char) :
    Option (ω × List Char) :=
  operators.findSome? fun (spelling, operator) =>
    if spelling.isPrefixOf clause then
      let text := (clause.drop spelling.length).dropWhile isSpace
      if text ≠ [] ∧ '\n' ∉ text then some (operator, text) else none
    else none

/-! ## Versions and intervals -/

section Parsing

variable [Decimals]

/-- `int(part)` of a nonempty run of decimal digits. -/
def number (digits : List Char) : Option Nat :=
  if digits = [] then none
  else (digits.mapM Decimals.digitOf).map fun values =>
    values.foldl (fun n digit => 10 * n + digit) 0

/-- Parse a plain numeric release version. -/
def parseVersion (text : List Char) : Option Version :=
  let candidate := trim text
  let candidate :=
    match candidate with
    | c :: rest => if c = 'v' ∨ c = 'V' then rest else c :: rest
    | [] => []
  (candidate.splitOn '.').mapM number

section

omit [Decimals]

/-- `-1`, `0` or `1` of two versions with zero padding. -/
abbrev compareVersions : Version → Version → Ordering := Releases.compare

/-- The caret range: the left-most non-zero segment may not change. -/
def caretInterval (version : Version) : VersionInterval :=
  let index := (version.findIdx? (· ≠ 0)).getD (version.length - 1)
  { low := some version, high := some (bump version index), highInclusive := false }

/-- The tilde range: patch-level changes only, minor ones when no minor is
given. -/
def tildeInterval (version : Version) : VersionInterval :=
  { low := some version, high := some (bump version (min 1 (version.length - 1))),
    highInclusive := false }

end

/-- The base of a trailing-wildcard version; empty for a bare wildcard. -/
def wildcardBase (text : List Char) : Option Version :=
  let parts := (trim text).splitOn '.'
  let kept := (parts.reverse.dropWhile fun part => part ∈ [['*'], ['x'], ['X']]).reverse
  if kept = [] then some [] else parseVersion (['.'].intercalate kept)

section

omit [Decimals]

/-- The interval a trailing-wildcard base spans. -/
def wildcardInterval (base : Version) : VersionInterval :=
  if base = [] then {}
  else { low := some base, high := some (bump base (base.length - 1)), highInclusive := false }

/-- The tightest interval both allow. -/
def intersectIntervals : VersionInterval → VersionInterval → VersionInterval :=
  Intervals.intersect compareVersions

def intervalIsEmpty : VersionInterval → Bool := Intervals.isEmpty compareVersions

def disjoint : VersionInterval → VersionInterval → Bool := Intervals.disjoint compareVersions

end

/-! ## Clauses -/

omit [Decimals] in
/-- The half-bounded interval of a comparison. -/
def rangeInterval (comparator : Comparator) (version : Version) : VersionInterval :=
  match comparator with
  | .atLeast => { low := some version }
  | .above => { low := some version, lowInclusive := false }
  | .atMost => { high := some version }
  | .below => { high := some version, highInclusive := false }

/-- The text before a trailing `.*`. -/
def beforeStar (text : List Char) : Option (List Char) :=
  if ['.', '*'].isSuffixOf text then some (text.take (text.length - 2)) else none

/-- The interval one PEP 440 clause allows. -/
def pythonClauseInterval (operator : PythonOperator) (versionText : List Char) :
    Option VersionInterval :=
  let text := trim versionText
  let star := if operator = .equal ∨ operator = .arbitrary then beforeStar text else none
  match star with
  | some base => (parseVersion base).map wildcardInterval
  | none =>
    (parseVersion text).bind fun version =>
      match operator with
      | .equal | .arbitrary => some { low := some version, high := some version }
      | .compatible =>
        if version.length < 2 then none
        else some {
          low := some version, high := some (bump version (version.length - 2)),
          highInclusive := false }
      | .range comparator => some (rangeInterval comparator version)
      | .exclude => some (rangeInterval .below version)

omit [Decimals] in
/-- A Cargo or npm operator, with omitted components expanded. -/
def requirementOperatorInterval (operator : RequirementOperator) (version : Version) :
    VersionInterval :=
  match operator with
  | .caret => caretInterval version
  | .tilde => tildeInterval version
  | .equal =>
    if version.length < 3 then wildcardInterval version
    else { low := some version, high := some version }
  | .range comparator =>
    if version.length < 3 ∧ comparator = .above then
      { low := some (bump version (version.length - 1)) }
    else if version.length < 3 ∧ comparator = .atMost then
      { high := some (bump version (version.length - 1)), highInclusive := false }
    else rangeInterval comparator version

omit [Decimals] in
/-- A version without an operator. -/
def bareInterval (bareIsCaret : Bool) (version : Version) : VersionInterval :=
  if bareIsCaret then caretInterval version
  else if version.length ≥ 3 then { low := some version, high := some version }
  else wildcardInterval version

/-- The interval one Cargo or npm clause allows. -/
def requirementClauseInterval (clause : List Char) (bareIsCaret : Bool) : Option VersionInterval :=
  match matchOperator rangeOperators clause with
  | some (operator, versionText) =>
    (parseVersion versionText).map (requirementOperatorInterval operator)
  | none =>
    match parseVersion clause with
    | some version => some (bareInterval bareIsCaret version)
    | none => (wildcardBase clause).map wildcardInterval

omit [Decimals] in
/-- Every clause narrows the interval; a clause outside the model ends it. -/
def narrow {κ : Type} (clauseInterval : κ → Option VersionInterval) :
    VersionInterval → List κ → Option VersionInterval
  | interval, [] => some interval
  | interval, clause :: rest =>
    (clauseInterval clause).bind fun found =>
      narrow clauseInterval (intersectIntervals interval found) rest

omit [Decimals] in
/-- The nonempty clauses between commas. -/
def commaClauses (constraint : List Char) : List (List Char) :=
  ((constraint.splitOn ',').map trim).filter fun clause => clause ≠ []

/-- One PEP 440 clause; an exclusion is dropped, which widens the range. -/
def pythonStep (clause : List Char) : Option VersionInterval :=
  match matchOperator pythonOperators clause with
  | none => none
  | some (.exclude, _) => some {}
  | some (operator, versionText) => pythonClauseInterval operator versionText

/-- A PEP 440 specifier set as one interval. -/
def pythonIntervals (constraint : List Char) : Option (List VersionInterval) :=
  (narrow pythonStep {} (commaClauses constraint)).map fun interval => [interval]

/-- A Cargo requirement. -/
def rustIntervals (constraint : List Char) : Option (List VersionInterval) :=
  (narrow (requirementClauseInterval · true) {} (commaClauses constraint)).map fun interval =>
    [interval]

/-! ## npm ranges -/

/-- A clause of an npm group: one token, or three that make a hyphen range. -/
inductive GroupClause
  | token (text : List Char)
  | hyphen (low high : List Char)

omit [Decimals] in
def groupClauses : List (List Char) → List GroupClause
  | low :: dash :: high :: rest =>
    if dash = ['-'] then .hyphen low high :: groupClauses rest
    else .token low :: groupClauses (dash :: high :: rest)
  | [token, last] => [.token token, .token last]
  | [token] => [.token token]
  | [] => []

/-- A partial upper bound of a hyphen range spans its whole prefix. -/
def hyphenInterval (low high : List Char) : Option VersionInterval :=
  (parseVersion low).bind fun low =>
    (parseVersion high).map fun high =>
      if high.length ≥ 3 then { low := some low, high := some high }
      else {
        low := some low, high := some (bump high (high.length - 1)), highInclusive := false }

def groupClauseInterval : GroupClause → Option VersionInterval
  | .token text => requirementClauseInterval text false
  | .hyphen low high => hyphenInterval low high

omit [Decimals] in
/-- `str.split()`. -/
def words (cs : List Char) : List (List Char) := (cs.splitOnP isSpace).filter fun word => word ≠ []

/-- One npm group: clauses between blanks. -/
def javascriptGroupInterval (group : List Char) : Option VersionInterval :=
  narrow groupClauseInterval {} (groupClauses (words group))

omit [Decimals] in
/-- `str.split("||")`. -/
def splitBars : List Char → List (List Char)
  | '|' :: '|' :: rest => [] :: splitBars rest
  | c :: rest =>
    match splitBars rest with
    | piece :: more => (c :: piece) :: more
    | [] => [[c]]
  | [] => [[]]

/-- One alternative of an npm range; an empty one is any version. -/
def alternativeInterval (group : List Char) : Option VersionInterval :=
  if trim group = [] then some {} else javascriptGroupInterval (trim group)

/-- An npm range: alternatives between double bars. -/
def javascriptIntervals (constraint : List Char) : Option (List VersionInterval) :=
  (splitBars constraint).mapM alternativeInterval

/-! ## Verdicts -/

/-- The alternatives a matching version may fall in. -/
def constraintIntervals (constraint : String) (ecosystem : Ecosystem) :
    Option (List VersionInterval) :=
  let text := trim constraint.toList
  match ecosystem with
  | .python => if text = [] then some [{}] else pythonIntervals text
  | .rust => if text = [] then some [{}] else rustIntervals text
  | .javascript => if text = [] then some [{}] else javascriptIntervals text
  | .other => none

section

omit [Decimals]

/-- `text.rpartition("@")`, when the sign occurs. -/
def lastAt (text : List Char) : Option (List Char × List Char) :=
  if '@' ∈ text then
    let revision := (text.reverse.takeWhile (· ≠ '@')).reverse
    some (text.take (text.length - revision.length - 1), revision)
  else none

/-- Split a direct-URL constraint into its base and revision. -/
def urlPin (constraint : String) : Option (List Char × List Char) :=
  match trim constraint.toList with
  | '@' :: text =>
    match lastAt (trim ((trim text).takeWhile (· ≠ '#'))) with
    | some (base, revision) => if base = [] ∨ revision = [] then none else some (base, revision)
    | none => none
  | _ => none

/-- Identical reference texts match as declarations only. -/
def compareUrlPins (left right : String) : Verdict :=
  match urlPin left, urlPin right with
  | some _, some _ =>
    if trim left.toList = trim right.toList then .noConflict else .notComparable
  | _, _ => .notComparable

/-- The text is a direct reference. -/
def isReference (constraint : String) : Bool := (trim constraint.toList).head? = some '@'

end

/-- Some alternative of one side meets one of the other. -/
def overlap (left right : List VersionInterval) : Bool :=
  left.any fun l => right.any fun r => !disjoint l r

/-- The verdict for two declared constraints on one package. -/
def compareConstraints (left right : String) (ecosystem : Ecosystem) : Verdict :=
  if isReference left || isReference right then compareUrlPins left right
  else
    match constraintIntervals left ecosystem, constraintIntervals right ecosystem with
    | some leftIntervals, some rightIntervals =>
      if overlap leftIntervals rightIntervals then .noConflict else .conflict
    | _, _ => .notComparable

end Parsing

end VersionConstraints

end SynapseChannel
