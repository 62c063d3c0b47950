import SynapseChannel.Lib.Json

/-!
# Lib — JsonSame

Equality of decoded values up to the order of object members: two objects
are the same when every name is bound to the same value in both, or in
neither.
-/

namespace Py

theorem Members.get?_of_perm {data data' : Members} (hnames : (data.map Prod.fst).Nodup)
    (h : data.Perm data') (name : String) : data.get? name = data'.get? name :=
  Dict.find_of_perm hnames h name

namespace Json

/-- No object has two members of one name, as no `dict` has. -/
inductive Keyed : Json → Prop
  | null : Keyed .null
  | bool (b : Bool) : Keyed (.bool b)
  | int (n : Int) : Keyed (.int n)
  | float (x : Float) : Keyed (.float x)
  | str (s : String) : Keyed (.str s)
  | arr {items : List Json} (h : ∀ v ∈ items, Keyed v) : Keyed (.arr items)
  | obj {members : Members} (hnames : (members.map Prod.fst).Nodup)
      (h : ∀ m ∈ members, Keyed m.2) : Keyed (.obj members)

/-- The same value: types are kept apart, and so are numbers of one value and two types; the
order of members does not count. -/
inductive Same : Json → Json → Prop
  | null : Same .null .null
  | bool (b : Bool) : Same (.bool b) (.bool b)
  | int (n : Int) : Same (.int n) (.int n)
  | float (x : Float) : Same (.float x) (.float x)
  | str (s : String) : Same (.str s) (.str s)
  | arr {items items' : List Json} (h : List.Forall₂ Same items items') :
      Same (.arr items) (.arr items')
  | obj {members members' : Members}
      (h : ∀ name, Option.Rel Same (Members.get? members name) (Members.get? members' name)) :
      Same (.obj members) (.obj members')

end Json

end Py
