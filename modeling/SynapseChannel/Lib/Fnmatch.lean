import SynapseChannel.Lib.Text

/-!
# Lib — Fnmatch

`fnmatch.fnmatchcase`: shell-style patterns over whole strings. A star
takes any text, slashes included; a bracket that is never closed stands
for itself.
-/

namespace Py

/-- One element of a pattern. -/
inductive GlobToken where
  | star
  | any
  | lit (c : Char)
  | set (negated : Bool) (ranges : List (Char × Char))
deriving DecidableEq

/-- The ranges of a set: a hyphen between two characters spans them. -/
def setRanges : List Char → List (Char × Char)
  | [] => []
  | [c] => [(c, c)]
  | [c, d] => [(c, c), (d, d)]
  | c :: d :: e :: rest =>
    if d = '-' then (c, e) :: setRanges rest else (c, c) :: setRanges (d :: e :: rest)

def setToken : List Char → GlobToken
  | '!' :: items => .set true (setRanges items)
  | items => .set false (setRanges items)

/-- What stands between an opening bracket and the one that closes it; a bracket right after
the opening one, or after its negation, does not close. -/
def bracketBody (cs : List Char) : Option (List Char) :=
  let skip :=
    match cs with
    | '!' :: ']' :: _ => 2
    | '!' :: _ => 1
    | ']' :: _ => 1
    | _ => 0
  if ']' ∈ cs.drop skip then some (cs.take skip ++ (cs.drop skip).takeWhile (· ≠ ']')) else none

/-- The tokens of a pattern, after the characters a bracket has used up. -/
def globTokens : Nat → List Char → List GlobToken
  | _, [] => []
  | skip + 1, _ :: cs => globTokens skip cs
  | 0, c :: cs =>
    if c = '*' then .star :: globTokens 0 cs
    else if c = '?' then .any :: globTokens 0 cs
    else if c = '[' then
      match bracketBody cs with
      | none => .lit c :: globTokens 0 cs
      | some body => setToken body :: globTokens (body.length + 1) cs
    else .lit c :: globTokens 0 cs

/-- One character matches one token. -/
def GlobToken.accepts (c : Char) : GlobToken → Bool
  | star => false
  | any => true
  | lit d => c == d
  | set negated ranges => (ranges.any fun r => r.1 ≤ c && c ≤ r.2) != negated

def globMatches : List GlobToken → List Char → Bool
  | [], text => text.isEmpty
  | .star :: rest, text => text.tails.any (globMatches rest)
  | token :: rest, text =>
    match text with
    | [] => false
    | c :: cs => token.accepts c && globMatches rest cs

/-- `fnmatchcase(name, pattern)`. -/
def fnmatchcase (name pattern : String) : Bool :=
  globMatches (globTokens 0 pattern.toList) name.toList

/-! ## Patterns without pattern characters -/

/-- The text has none of the characters that a pattern reads. -/
def Plain (text : String) : Prop := '*' ∉ text.toList ∧ '?' ∉ text.toList ∧ '[' ∉ text.toList

instance (text : String) : Decidable (Plain text) := inferInstanceAs (Decidable (_ ∧ _ ∧ _))

example : fnmatchcase "/in/deep/x" "/in/*" = true ∧ fnmatchcase "b" "[!a-]" = true ∧
    fnmatchcase "[::1]:80" "[::1]:80" = false ∧ fnmatchcase "[ab" "[ab" = true := by decide

end Py
