import SynapseChannel.Lib.Json

/-!
# Core — NumericCoercion

The two coercions of the hub: the tolerant reading of a limit or a
duration, and the strict reading of an optional guard field.
-/

namespace SynapseChannel

open Py

/-- Apply a conversion, treating a boolean as unusable unless allowed. -/
def unlessBool {α : Type} (allowBool : Bool) (convert : Json → Option α) : Json → Option α
  | .bool b => if allowBool then convert (.bool b) else none
  | v => convert v

variable [Builtins]

/-- Read `value` as leniently as `int()`, clamp it, or fall back to
`default`, which is not clamped. -/
def safeInt (value : Json) (default : Option Int) (minValue maxValue : Option Int)
    (allowBool : Bool) : Option Int :=
  match unlessBool allowBool Json.toInt? value with
  | none => default
  | some result =>
    let result :=
      match minValue with
      | some lo => if result < lo then lo else result
      | none => result
    let result :=
      match maxValue with
      | some hi => if result > hi then hi else result
      | none => result
    some result

/-- Read `value` as leniently as `float()`; a value that is not finite
counts as unusable. -/
def safeFloat (value : Json) (default : Option Float) (allowBool : Bool) : Option Float :=
  match unlessBool allowBool Json.toFloat? value with
  | none => default
  | some result => if result.isFinite then some result else default

/-- An optional integer guard field: a number that is not a boolean, or
absent. -/
def optionalIntField (data : Members) (key : String) : Option Int :=
  match data.get key with
  | .int n => some n
  | .float x => safeInt (.float x) none none none false
  | _ => none

theorem safeFloat_finite {value : Json} {default : Option Float} {allowBool : Bool} {x : Float}
    (h : safeFloat value default allowBool = some x) : default = some x ∨ x.isFinite = true := by
  rw [safeFloat] at h
  split at h
  · exact .inl h
  · split at h
    · rename_i hfin
      cases h
      exact .inr hfin
    · exact .inl h

end SynapseChannel
