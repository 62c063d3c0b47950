import Mathlib.Data.List.Induction
import SynapseChannel.Lib.Segments

/-!
# Lib — PathWalk

Lexical resolution of paths: a path is a list of moves from a directory,
and the place it leads to is the list of names below the root. At the root
there is no way up.
-/

namespace Py

/-- What one segment of a path does: an empty one or a dot nothing, two dots leave the
directory. -/
inductive Move (ν : Type) where
  | stay
  | up
  | down (name : ν)

section Walks

variable {ν : Type}

def Move.apply (place : List ν) : Move ν → List ν
  | stay => place
  | up => place.dropLast
  | down name => place ++ [name]

/-- The place some moves lead to. -/
def walk (place : List ν) (moves : List (Move ν)) : List ν := moves.foldl Move.apply place

/-- The moves never leave the directory `depth` levels above where they start. -/
def stays : Nat → List (Move ν) → Bool
  | _, [] => true
  | depth, .stay :: rest => stays depth rest
  | 0, .up :: _ => false
  | depth + 1, .up :: rest => stays depth rest
  | depth, .down _ :: rest => stays (depth + 1) rest

@[simp] theorem walk_nil (place : List ν) : walk place [] = place := rfl

@[simp] theorem walk_cons (place : List ν) (move : Move ν) (rest : List (Move ν)) :
    walk place (move :: rest) = walk (move.apply place) rest := rfl

@[simp] theorem walk_append (place : List ν) (moves rest : List (Move ν)) :
    walk place (moves ++ rest) = walk (walk place moves) rest := List.foldl_append

/-- Moves that stay within `extra` do not touch what is above it. -/
theorem walk_of_stays {place extra : List ν} {moves : List (Move ν)}
    (h : stays extra.length moves = true) :
    walk (place ++ extra) moves = place ++ walk extra moves := by
  induction moves generalizing extra with
  | nil => rfl
  | cons move rest ih =>
    cases move with
    | stay => exact ih h
    | up =>
      cases extra using List.reverseRecOn with
      | nil => cases h
      | append_singleton before name =>
        rw [List.length_append, List.length_singleton] at h
        simp only [walk_cons, Move.apply, ← List.append_assoc, List.dropLast_concat]
        exact ih h
    | down name =>
      have hstays : stays (extra ++ [name]).length rest = true := by
        rw [List.length_append]
        exact h
      simpa [Move.apply] using ih hstays

/-- Enough steps up lead to the root. -/
theorem walk_ups {place : List ν} {n : Nat} (h : place.length ≤ n) :
    walk place (List.replicate n .up) = [] := by
  induction n generalizing place with
  | zero => exact List.eq_nil_of_length_eq_zero (Nat.le_zero.mp h)
  | succ n ih =>
    rw [List.replicate_succ, walk_cons]
    apply ih
    rw [Move.apply, List.length_dropLast]
    omega

theorem walk_stay (place : List ν) (n : Nat) : walk place (List.replicate n .stay) = place := by
  induction n with
  | zero => rfl
  | succ n ih => exact ih

end Walks

/-! ## Paths -/

def segmentMove (segment : List Char) : Move String :=
  if segment = [] ∨ segment = ['.'] then .stay
  else if segment = ['.', '.'] then .up
  else .down (String.ofList segment)

/-- The moves of a path's segments. -/
def pathMoves (path : List Char) : List (Move String) := (path.splitOn '/').map segmentMove

/-- The place a path leads to, from the root when it starts with a slash and from the working
directory when it does not. -/
def resolvePath (cwd : List String) (path : List Char) : List String :=
  walk (if path.head? = some '/' then [] else cwd) (pathMoves path)

@[simp] theorem pathMoves_nil : pathMoves [] = [.stay] := by
  simp [pathMoves, segmentMove]

/-- A slash parts the moves. -/
theorem pathMoves_append (front back : List Char) :
    pathMoves (front ++ '/' :: back) = pathMoves front ++ pathMoves back := by
  unfold pathMoves
  rw [List.splitOn_append_cons_self, List.map_append]

theorem pathMoves_slashes (front : List Char) (n : Nat) :
    pathMoves (front ++ List.replicate n '/') = pathMoves front ++ List.replicate n .stay := by
  induction n with
  | zero => simp
  | succ n ih =>
    rw [List.replicate_succ', ← List.append_assoc, pathMoves_append, ih, pathMoves_nil,
      List.append_assoc, ← List.replicate_succ']

/-- Two dots `n` times over are `n` steps up. -/
theorem pathMoves_ups (front : List Char) (n : Nat) :
    pathMoves (front ++ (List.replicate n ['/', '.', '.']).flatten) =
      pathMoves front ++ List.replicate n .up := by
  induction n with
  | zero => simp
  | succ n ih =>
    have hup : pathMoves ['.', '.'] = [.up] := by
      rw [pathMoves, List.splitOn_eq_singleton (by decide)]
      rfl
    rw [List.replicate_succ', List.flatten_concat, ← List.append_assoc, pathMoves_append, ih, hup,
      List.append_assoc, ← List.replicate_succ']

end Py
