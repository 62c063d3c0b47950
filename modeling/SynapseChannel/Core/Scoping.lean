import SynapseChannel.Lib.Json

/-!
# Core — Scoping

Worktree- and path-scoped overlap detection for task claims: declared
paths are files or directory subtrees, and two paths overlap when one is
the other or an ancestor directory of it.
-/

namespace SynapseChannel

open Py

/-- Label for the shared working tree when a claim names no worktree. -/
def defaultWorktree : String := ""

def maxDeclaredPaths : Int := 512

def maxPathLength : Nat := 4096

/-- The segments kept by `normalizePath`, or `none` at a `..`. -/
def collectSegments : List String → Option (List String)
  | [] => some []
  | segment :: rest =>
    if segment = "" ∨ segment = "." then collectSegments rest
    else if segment = ".." then none
    else (collectSegments rest).map (segment :: ·)

/-- Canonical in-worktree segments of a declared path. Absolute and
traversal-like paths widen to the tree root. -/
def normalizePath (path : String) : String :=
  let normalised := replaceChar (strip path) '\\' '/'
  if startsWith normalised "/" then ""
  else
    match collectSegments (split normalised '/') with
    | none => ""
    | some segments => join "/" segments

/-- Whether two declared paths cover any common file. -/
def pathsOverlap (a b : String) : Bool :=
  let na := normalizePath a
  let nb := normalizePath b
  if na = nb then true
  else if na = "" ∨ nb = "" then true
  else startsWith nb (na ++ "/") || startsWith na (nb ++ "/")

/-- The loop of `normalizePaths`; `out` is also the set of paths seen. -/
def normalizePathsLoop [Builtins] (cap : Int) : List String → List String → List String
  | out, [] => out
  | out, raw :: rest =>
    if len raw > maxPathLength then [""]
    else if !isPrintable raw then [""]
    else
      let norm := normalizePath raw
      if norm = "" then [""]
      else if norm ∈ out then normalizePathsLoop cap out rest
      else
        let out := out ++ [norm]
        if (out.length : Int) > cap then [""] else normalizePathsLoop cap out rest

/-- Normalise and de-duplicate declared paths, keeping their order; the
whole worktree when any of them is not a real declared scope. -/
def normalizePaths [Builtins] (paths : List String) (maxDeclared : Option Int) : List String :=
  let cap :=
    match maxDeclared with
    | none => maxDeclaredPaths
    | some n => max 1 n
  normalizePathsLoop cap [] paths

theorem pathsOverlap_comm (a b : String) : pathsOverlap a b = pathsOverlap b a := by
  simp only [pathsOverlap]
  by_cases h : normalizePath a = normalizePath b
  · simp [h]
  · rw [if_neg h, if_neg (Ne.symm h), Bool.or_comm]
    simp only [or_comm]

end SynapseChannel
