import Mathlib.Data.List.Basic
import Mathlib.Tactic.Common

/-!
# Lib — Text

Strings as sequences of code points, with the string methods the
programs verified here call.
-/

namespace Py

/-! ## Whitespace and strip -/

/-- `str.isspace` on one code point. -/
def isSpace (c : Char) : Bool :=
  let n := c.toNat
  (9 ≤ n && n ≤ 13) || (28 ≤ n && n ≤ 32) || n == 0x85 || n == 0xa0 || n == 0x1680 ||
    (0x2000 ≤ n && n ≤ 0x200a) || n == 0x2028 || n == 0x2029 || n == 0x202f ||
    n == 0x205f || n == 0x3000

/-- Drop the code points satisfying `p` at both ends. -/
def stripChars (p : Char → Bool) (cs : List Char) : List Char :=
  ((cs.dropWhile p).reverse.dropWhile p).reverse

/-- `str.strip`. -/
def strip (s : String) : String := String.ofList (stripChars isSpace s.toList)

private theorem dropWhile_eq_self {p : Char → Bool} {cs : List Char}
    (h : ∀ c, cs.head? = some c → p c = false) : cs.dropWhile p = cs := by
  cases cs with
  | nil => rfl
  | cons c rest => simp [h c rfl]

private theorem head_dropWhile (p : Char → Bool) (cs : List Char) (c : Char)
    (h : (cs.dropWhile p).head? = some c) : p c = false := by
  induction cs with
  | nil => cases h
  | cons d rest ih =>
    cases hd : p d with
    | true => exact ih (by simpa [hd] using h)
    | false =>
      simp only [hd, Bool.false_eq_true, not_false_eq_true, List.dropWhile_cons_of_neg,
        List.head?_cons, Option.some.injEq] at h
      exact h ▸ hd

theorem stripChars_idem (p : Char → Bool) (cs : List Char) :
    stripChars p (stripChars p cs) = stripChars p cs := by
  -- both ends of a stripped list fail `p`, so neither pass drops anything
  generalize hds : (cs.dropWhile p).reverse = ds
  have hlast : ∀ c, ((ds.dropWhile p).reverse).head? = some c → p c = false := by
    intro c hc
    apply head_dropWhile p cs c
    have hsub : (ds.dropWhile p).reverse <+: ds.reverse := by
      obtain ⟨t, ht⟩ := List.dropWhile_suffix (l := ds) p
      exact ⟨t.reverse, by rw [← List.reverse_append, ht]⟩
    rw [← hds, List.reverse_reverse] at hsub
    obtain ⟨t, ht⟩ := hsub
    rw [← ht, List.head?_append, hds, hc]
    rfl
  have hfst : ∀ c, (ds.dropWhile p).head? = some c → p c = false := head_dropWhile p ds
  rw [stripChars, stripChars, hds, dropWhile_eq_self hlast, List.reverse_reverse,
    dropWhile_eq_self hfst]

@[simp] theorem strip_strip (s : String) : strip (strip s) = strip s := by
  simp only [strip, String.toList_ofList, stripChars_idem]

theorem length_stripChars_le (p : Char → Bool) (cs : List Char) :
    (stripChars p cs).length ≤ cs.length := by
  have hfront := (List.dropWhile_suffix p (l := cs)).length_le
  have hback := (List.dropWhile_suffix p (l := (cs.dropWhile p).reverse)).length_le
  rw [List.length_reverse] at hback
  rw [stripChars, List.length_reverse]
  omega

/-! ## Other methods -/

/-- `str.split` at one code point. -/
def split (s : String) (sep : Char) : List String :=
  (s.toList.splitOn sep).map String.ofList

/-- `sep.join`. -/
def join (sep : String) (parts : List String) : String := sep.intercalate parts

def startsWith (s pre : String) : Bool := pre.toList.isPrefixOf s.toList

def endsWith (s suf : String) : Bool := suf.toList.isSuffixOf s.toList

/-- `str.replace` of one code point by another. -/
def replaceChar (s : String) (a b : Char) : String :=
  String.ofList (s.toList.map fun c => if c = a then b else c)

/-- `str.count` of one code point. -/
def countChar (s : String) (c : Char) : Nat := s.toList.count c

/-- `len`. -/
def len (s : String) : Nat := s.toList.length

theorem len_strip_le (s : String) : len (strip s) ≤ len s := by
  rw [len, len, strip, String.toList_ofList]
  exact length_stripChars_le isSpace s.toList

theorem strip_replicate (n : Nat) {c : Char} (h : isSpace c = false) :
    strip (String.ofList (List.replicate n c)) = String.ofList (List.replicate n c) := by
  simp [strip, stripChars, h]

/-- The text after the last occurrence of a nonempty `sep`, the third
part of `str.rpartition`; `none` when `sep` does not occur. -/
def afterLast (s sep : String) : Option String :=
  let cs := s.toList
  let starts := (List.range (cs.length + 1)).filter fun i => sep.toList.isPrefixOf (cs.drop i)
  starts.getLast?.map fun i => String.ofList (cs.drop (i + sep.toList.length))

end Py
