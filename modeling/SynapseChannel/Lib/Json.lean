import SynapseChannel.Lib.Dict
import SynapseChannel.Lib.Float
import SynapseChannel.Lib.Text

/-!
# Lib — Json

Decoded JSON values and the conversions `bool`, `int`, `float` and `str`
apply to them. An object is its list of members; a decoder never yields
two members of one name, and lookups read the first.
-/

namespace Py

/-- A decoded JSON value. -/
inductive Json where
  | null
  | bool (b : Bool)
  | int (n : Int)
  | float (x : Float)
  | str (s : String)
  | arr (items : List Json)
  | obj (members : List (String × Json))

/-- Built-ins whose tables and algorithms are not embedded: Unicode
normalisation, case folding and printability, reading and showing
numbers, and SHA-256. The theorems hold for every choice of them. -/
class Builtins where
  nfc : String → String
  casefold : String → String
  isPrintable : Char → Bool
  intOfStr : String → Option Int
  floatOfStr : String → Option Float
  /-- `repr` of a float, a list or a dict. -/
  repr : Json → String
  repr_ne_empty : ∀ v, repr v ≠ ""
  sha256Hex : List UInt8 → String

/-- The members of an object, in order. -/
abbrev Members := List (String × Json)

/-- `data.get(key)`; `none` is an absent member. -/
def Members.get? (data : Members) (key : String) : Option Json := Dict.find key data

/-- `data.get(key, default)`. -/
def Members.getD (data : Members) (key : String) (default : Json) : Json :=
  (data.get? key).getD default

/-- `data.get(key)` with `None` for an absent member. -/
def Members.get (data : Members) (key : String) : Json := data.getD key .null

def Members.contains (data : Members) (key : String) : Bool := (data.get? key).isSome

@[simp] theorem Members.get?_cons_self (key : String) (value : Json) (rest : Members) :
    Members.get? ((key, value) :: rest) key = some value := if_pos rfl

@[simp] theorem Members.get?_cons_ne {key other : String} (value : Json) (rest : Members)
    (h : other ≠ key) : Members.get? ((other, value) :: rest) key = rest.get? key := if_neg h

namespace Json

/-- Induction over a value, its items and the values of its members. -/
@[elab_as_elim]
theorem induction {P : Json → Prop} (null : P .null) (bool : ∀ b, P (.bool b))
    (int : ∀ n, P (.int n)) (float : ∀ x, P (.float x)) (str : ∀ s, P (.str s))
    (arr : ∀ items, (∀ v ∈ items, P v) → P (.arr items))
    (obj : ∀ members, (∀ m ∈ members, P m.2) → P (.obj members)) (v : Json) : P v := by
  refine Json.rec (motive_1 := P) (motive_2 := fun l => ∀ v ∈ l, P v)
    (motive_3 := fun l => ∀ m ∈ l, P m.2) (motive_4 := fun m => P m.2)
    null bool int float str arr obj ?_ ?_ ?_ ?_ ?_ v
  · simp
  · intro v rest hv hrest w hw
    rcases List.mem_cons.mp hw with rfl | hw
    · exact hv
    · exact hrest w hw
  · simp
  · intro m rest hm hrest w hw
    rcases List.mem_cons.mp hw with rfl | hw
    · exact hm
    · exact hrest w hw
  · intro _ v hv
    exact hv

/-- `bool(value)`. -/
def truthy : Json → Bool
  | .null => false
  | .bool b => b
  | .int n => n != 0
  | .float x => !(x == 0)
  | .str s => s != ""
  | .arr items => !items.isEmpty
  | .obj members => !members.isEmpty

/-- `a or b`. -/
def or (a b : Json) : Json := if a.truthy then a else b

/-- The integer part of a finite number. -/
def truncFloat (x : Float) : Option Int :=
  if x.isFinite then some (x.toModel.unpack.toInt 0 0) else none

/-- `int(value)`; `none` where it raises. -/
def toInt? [Builtins] : Json → Option Int
  | .bool b => some (if b then 1 else 0)
  | .int n => some n
  | .float x => truncFloat x
  | .str s => Builtins.intOfStr s
  | _ => none

/-- `float(value)`; `none` where it raises. -/
def toFloat? [Builtins] : Json → Option Float
  | .bool b => some (if b then 1 else 0)
  | .int n => if (Float.ofInt n).isFinite then some (Float.ofInt n) else none
  | .float x => some x
  | .str s => Builtins.floatOfStr s
  | _ => none

/-- `str(value)`. -/
def toStr [Builtins] : Json → String
  | .null => "None"
  | .bool b => if b then "True" else "False"
  | .int n => toString n
  | .str s => s
  | v => Builtins.repr v

end Json

/-- `str.isprintable`. -/
def isPrintable [Builtins] (s : String) : Bool := s.toList.all Builtins.isPrintable

/-- The built-ins on printable ASCII text without numbers, with a digest
that is the identity; for evaluating the definitions on small inputs. -/
abbrev Builtins.ascii : Builtins where
  nfc s := s
  casefold s := String.ofList (s.toList.map Char.toLower)
  isPrintable c := 32 ≤ c.toNat && c.toNat < 127
  intOfStr _ := none
  floatOfStr _ := none
  repr _ := "[]"
  repr_ne_empty _ := by decide
  sha256Hex bytes := String.ofList (bytes.map fun b => Char.ofNat b.toNat)

end Py
