import SynapseChannel.Lib.Decimal
import SynapseChannel.Lib.Digest

/-!
# Lib — Datetime

Times with a fixed UTC offset: the wall clock in microseconds since the
start of year 1, and the offset. Two times compare as instants; the ISO
text shows the wall clock, so one instant has a text for each offset.
-/

namespace Py

def microsPerDay : Nat := 86400000000

/-- An offset-aware `datetime`. -/
structure Datetime where
  wall : Nat
  offset : Int
  /-- The last day is the end of year 9999. -/
  wall_lt : wall < 3652059 * microsPerDay
  /-- An offset is less than a day. -/
  offset_lt : offset.natAbs < microsPerDay
  deriving DecidableEq

namespace Datetime

/-- The instant in UTC. -/
def instant (t : Datetime) : Int := t.wall - t.offset

/-- `t + timedelta(seconds=n)`; the error is its `OverflowError`. -/
def addSeconds (t : Datetime) (n : Nat) : Except String Datetime :=
  if h : t.wall + n * 1000000 < 3652059 * microsPerDay then
    .ok { t with wall := t.wall + n * 1000000, wall_lt := h }
  else .error "date value out of range"

/-- `min(a, b)`: the first of two equal instants. -/
def min (a b : Datetime) : Datetime := if b.instant < a.instant then b else a

/-! ## The ISO text -/

/-- The last `width` decimal digits of `n`. -/
def pad : Nat → Nat → List Char
  | 0, _ => []
  | width + 1, n => pad width (n / 10) ++ [Nat.digitChar (n % 10)]

/-- Year, month and day of a count of days since the start of year 1; the
years are counted from the first of March of year 0. -/
def civil (days : Nat) : Nat × Nat × Nat :=
  let z := days + 306
  let day := z % 146097
  let year := (day - day / 1460 + day / 36524 - day / 146096) / 365
  let dayOfYear := day - (365 * year + year / 4 - year / 100)
  let month := (5 * dayOfYear + 2) / 153
  let m := if month < 10 then month + 3 else month - 9
  (year + z / 146097 * 400 + (if m ≤ 2 then 1 else 0), m, dayOfYear - (153 * month + 2) / 5 + 1)

def clock (seconds : Nat) : List Char :=
  pad 2 (seconds / 3600) ++ ':' :: pad 2 (seconds / 60 % 60) ++ ':' :: pad 2 (seconds % 60)

/-- `.ffffff`, left out when there are no microseconds. -/
def fraction (micros : Nat) : List Char := if micros = 0 then [] else '.' :: pad 6 micros

/-- `+HH:MM`, with its seconds and microseconds where it has them. -/
def offsetText (offset : Int) : List Char :=
  let micros := offset.natAbs
  let seconds := micros / 1000000
  (if offset < 0 then '-' else '+') ::
    (if micros % 60000000 = 0 then pad 2 (seconds / 3600) ++ ':' :: pad 2 (seconds / 60 % 60)
      else clock seconds ++ fraction (micros % 1000000))

/-- `t.isoformat()`. -/
def isoformat (t : Datetime) : String :=
  let (year, month, day) := civil (t.wall / microsPerDay)
  let micros := t.wall % microsPerDay
  String.ofList (pad 4 year ++ '-' :: pad 2 month ++ '-' :: pad 2 day ++
    'T' :: clock (micros / 1000000) ++ fraction (micros % 1000000) ++ offsetText t.offset)

example : isoformat ⟨63924854400000001, 3723456789, by decide, by decide⟩ =
    "2026-09-13T00:00:00.000001+01:02:03.456789" := by decide +kernel

@[simp] theorem length_pad (width n : Nat) : (pad width n).length = width := by
  induction width generalizing n with
  | zero => rfl
  | succ width ih => simp [pad, ih]

theorem length_clock (seconds : Nat) : (clock seconds).length = 8 := by simp [clock]

theorem length_fraction (micros : Nat) :
    (fraction micros).length = if micros = 0 then 0 else 7 := by
  unfold fraction
  split <;> simp

theorem length_offsetText (offset : Int) :
    (offsetText offset).length =
      if offset.natAbs % 1000000 ≠ 0 then 16 else if offset.natAbs % 60000000 = 0 then 6 else 9 := by
  unfold offsetText
  dsimp only
  by_cases hminute : offset.natAbs % 60000000 = 0
  · have hsecond : offset.natAbs % 1000000 = 0 := by omega
    simp [hminute, hsecond]
  · by_cases hsecond : offset.natAbs % 1000000 = 0 <;>
      simp [hminute, hsecond, length_clock, length_fraction]

theorem len_isoformat (t : Datetime) :
    len t.isoformat = 19 + (fraction (t.wall % microsPerDay % 1000000)).length +
      (offsetText t.offset).length := by
  unfold isoformat
  dsimp only
  rw [len, String.toList_ofList]
  simp only [List.length_append, List.length_cons, length_pad, length_clock]

/-- Only a fraction of a second both on the wall clock and in the offset
makes the text longer than 40. -/
theorem len_isoformat_le_iff (t : Datetime) :
    len t.isoformat ≤ 40 ↔ t.wall % 1000000 = 0 ∨ t.offset.natAbs % 1000000 = 0 := by
  have hday : t.wall % microsPerDay % 1000000 = t.wall % 1000000 :=
    Nat.mod_mod_of_dvd _ (by decide)
  rw [len_isoformat, hday, length_fraction, length_offsetText]
  split_ifs <;> omega

end Datetime

/-- A number a decimal numeral may spell. -/
inductive Numeral where
  | finite (d : Decimal)
  | infinite
  | nan

/-- Readers whose grammars are not embedded: `Decimal(text)` and
`datetime.fromisoformat(text)`, whose result may lack a UTC offset. The
theorems hold for every choice of them. -/
class Readers extends Builtins where
  decimalOfStr : String → Option Numeral
  datetimeOfIso : String → Option (Option Datetime)

/-- Readers of whole numbers and of the listed times; for evaluating the
definitions on small inputs. -/
abbrev Readers.listed (times : List (String × Datetime)) : Readers :=
  { Builtins.checksum with
    decimalOfStr := fun s =>
      if s ≠ "" ∧ s.toList.all Char.isDigit then
        some (.finite ⟨false, s.toList.foldl (fun n c => 10 * n + (c.toNat - 48)) 0, 0⟩)
      else none
    datetimeOfIso := fun s => (Dict.find s times).map some }

end Py
