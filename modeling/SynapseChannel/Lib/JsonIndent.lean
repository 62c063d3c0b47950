import SynapseChannel.Lib.JsonSpelled

/-!
# Lib — JsonIndent

`json.dumps` with `indent` and `sort_keys=True`, and that `json.loads`
reads the text back, members in the order of their names.
-/

namespace Py

/-! ## Writing -/

/-- A new line at a level of nesting. -/
def newline (width level : Nat) : List Char := '\n' :: List.replicate (width * level) ' '

mutual

/-- The text of a value at a level of nesting. -/
def indentText [Builtins] (width level : Nat) : Json → List Char
  | .null => ['n', 'u', 'l', 'l']
  | .bool true => ['t', 'r', 'u', 'e']
  | .bool false => ['f', 'a', 'l', 's', 'e']
  | .int n => (toString n).toList
  | .float x => (floatText x).toList
  | .str s => '"' :: s.toList.flatMap escapeChar ++ ['"']
  | .arr items =>
    if items.isEmpty then ['[', ']']
    else '[' :: (newline width (level + 1) ++
      (joinGap (newline width (level + 1)) (indentItems width (level + 1) items) ++
        (newline width level ++ [']'])))
  | .obj members =>
    if members.isEmpty then ['\x7b', '\x7d']
    else
      let texts := sortedBy (fun a b => decide (a < b)) Prod.fst
        (indentMembers width (level + 1) members)
      '\x7b' :: (newline width (level + 1) ++
        (joinGap (newline width (level + 1)) (texts.map fun m =>
            '"' :: m.1.toList.flatMap escapeChar ++ '"' :: ':' :: ([' '] ++ m.2)) ++
          (newline width level ++ ['\x7d'])))

def indentItems [Builtins] (width level : Nat) : List Json → List (List Char)
  | [] => []
  | v :: rest => indentText width level v :: indentItems width level rest

def indentMembers [Builtins] (width level : Nat) :
    List (String × Json) → List (String × List Char)
  | [] => []
  | (name, v) :: rest => (name, indentText width level v) :: indentMembers width level rest

end

/-- `json.dumps(value, indent=width, sort_keys=True)`. -/
def dumpsIndent [Builtins] (width : Nat) (v : Json) : String :=
  String.ofList (indentText width 0 v)

/-! ## Strings -/

theorem readString_escapeChar (c : Char) (fuel : Nat) (rest : List Char) :
    readString (fuel + 1) (escapeChar c ++ rest) =
      (readString fuel rest).map fun read => (c :: read.1, read.2) := by
  by_cases hplain : c.toNat < 127
  · have hsame : escapeChar c = escapePlain c := by
      unfold escapeChar escapePlain
      dsimp only
      split_ifs <;> first | rfl | omega
    rw [hsame, readString_escapePlain]
  · have hpair : ∀ read : Option (List Char × List Char),
        (read >>= fun tail => some (c :: tail.1, tail.2)) =
          read.map fun tail => (c :: tail.1, tail.2) := by
      intro read
      cases read <;> rfl
    unfold escapeChar
    dsimp only
    rw [if_neg (by omega), if_neg (by omega), if_neg (by omega), if_neg (by omega),
      if_neg (by omega), if_neg (by omega), if_neg (by omega), if_neg (by omega)]
    split
    · rename_i hbasic
      have hscalar : c.toNat < 0xd800 ∨ 0xe000 ≤ c.toNat := by
        rcases c.valid with h | h
        · exact .inl h
        · exact .inr h.1
      show (hexCode [hexDigit (c.toNat / 4096 % 16), hexDigit (c.toNat / 256 % 16),
        hexDigit (c.toNat / 16 % 16), hexDigit (c.toNat % 16)] >>= _) = _
      rw [hexCode_digits hbasic, Option.bind_eq_bind, Option.bind_some, if_neg (by omega),
        if_neg (by omega), Char.ofNat_toNat]
      exact hpair _
    · rename_i hbeyond
      have hmax : c.toNat < 0x110000 := by
        rcases c.valid with h | h
        · exact Nat.lt_trans h (by decide)
        · exact h.2
      generalize hhigh : 0xd800 + (c.toNat - 0x10000) / 1024 = high
      generalize hlow : 0xdc00 + (c.toNat - 0x10000) % 1024 = low
      show (hexCode [hexDigit (high / 4096 % 16), hexDigit (high / 256 % 16),
        hexDigit (high / 16 % 16), hexDigit (high % 16)] >>= _) = _
      rw [hexCode_digits (by omega), Option.bind_eq_bind, Option.bind_some, if_pos (by omega)]
      show (hexCode [hexDigit (low / 4096 % 16), hexDigit (low / 256 % 16),
        hexDigit (low / 16 % 16), hexDigit (low % 16)] >>= _) = _
      rw [hexCode_digits (by omega), Option.bind_eq_bind, Option.bind_some, if_pos (by omega),
        show 0x10000 + (high - 0xd800) * 0x400 + (low - 0xdc00) = c.toNat by omega,
        Char.ofNat_toNat]
      exact hpair _

theorem length_escapeChar_pos (c : Char) : 0 < (escapeChar c).length := by
  unfold escapeChar unicodeEscape
  dsimp only
  split_ifs <;> simp

/-- The escaped text of a string reads as the string. -/
theorem quotes_escaped (name : String) : Quotes name (name.toList.flatMap escapeChar) := by
  unfold Quotes
  generalize name.toList = cs
  induction cs with
  | nil =>
    refine ⟨Nat.le_refl 0, fun fuel rest hfuel => ?_⟩
    obtain ⟨fuel, rfl⟩ := Nat.exists_eq_add_of_lt hfuel
    rfl
  | cons c cs ih =>
    have hpos := length_escapeChar_pos c
    refine ⟨?_, fun fuel rest hfuel => ?_⟩
    · rw [List.flatMap_cons, List.length_append, List.length_cons]
      have := ih.1
      omega
    · obtain ⟨fuel, rfl⟩ : ∃ n, fuel = n + 1 := ⟨fuel - 1, by simp at hfuel; omega⟩
      rw [List.flatMap_cons, List.append_assoc, readString_escapeChar, ih.2]
      · rfl
      · simpa using hfuel

/-! ## Numbers -/

/-- The fraction of a number, if it has one. -/
def FractionText (fraction : List Char) : Prop :=
  fraction = [] ∨ ∃ ds, ds ≠ [] ∧ (∀ c ∈ ds, c.isDigit = true) ∧ fraction = '.' :: ds

/-- The exponent of a number, if it has one. -/
def ExponentText (exponent : List Char) : Prop :=
  exponent = [] ∨ ∃ sign ds, (sign = [] ∨ sign = ['+'] ∨ sign = ['-']) ∧ ds ≠ [] ∧
    (∀ c ∈ ds, c.isDigit = true) ∧ exponent = 'e' :: sign ++ ds

/-- A decimal text that is not one of an integer. -/
def DecimalText (text : List Char) : Prop :=
  ∃ negative : Bool, ∃ whole fraction exponent, FractionText fraction ∧ ExponentText exponent ∧
    (fraction ≠ [] ∨ exponent ≠ []) ∧
    text = (if negative then ['-'] else []) ++ Nat.toDigits 10 whole ++ fraction ++ exponent

variable [Builtins] in
/-- `repr` of a finite float is a decimal text, and `float` reads it back. -/
def FloatsRead : Prop :=
  ∀ x : Float, x.isFinite = true → DecimalText (Builtins.repr (.float x)).toList ∧
    Builtins.floatOfStr (Builtins.repr (.float x)) = some x

theorem ExponentText.digitsEnd {exponent rest : List Char} (h : ExponentText exponent)
    (hrest : NumberEnds rest) : DigitsEnd (exponent ++ rest) := by
  rcases h with rfl | ⟨sign, ds, -, -, -, rfl⟩
  · exact hrest.digitsEnd
  · intro c hc
    cases hc
    rfl

theorem ExponentText.read {exponent rest : List Char} (h : ExponentText exponent)
    (hrest : NumberEnds rest) : readExponent (exponent ++ rest) = (exponent, rest) := by
  rcases h with rfl | ⟨sign, ds, hsign, hne, hds, rfl⟩
  · exact hrest.exponent
  · obtain ⟨htake, hdrop⟩ := hrest.digitsEnd.digits hds
    have hletter : ('e' = 'e' ∨ 'e' = 'E') ∧ (ds ++ rest).takeWhile Char.isDigit ≠ [] :=
      ⟨.inl rfl, by rw [htake]; exact hne⟩
    unfold readExponent
    rcases hsign with rfl | rfl | rfl
    · have hsplit : ∀ c tail, ds ++ rest = c :: tail → c ≠ '+' ∧ c ≠ '-' := by
        intro c tail heq
        have hdigit : c.isDigit = true := by
          obtain ⟨d, more, rfl⟩ := List.exists_cons_of_ne_nil hne
          rw [← (List.cons.inj heq).1]
          exact hds d List.mem_cons_self
        constructor <;> rintro rfl <;> cases hdigit
      dsimp only [List.cons_append, List.nil_append]
      split
      · rename_i heq
        exact absurd rfl (hsplit _ _ heq).1
      · rename_i heq
        exact absurd rfl (hsplit _ _ heq).2
      · rw [if_pos hletter, htake, hdrop]
        rfl
    · exact (if_pos hletter).trans (Prod.ext (congrArg (['e', '+'] ++ ·) htake) hdrop)
    · exact (if_pos hletter).trans (Prod.ext (congrArg (['e', '-'] ++ ·) htake) hdrop)

theorem FractionText.digitsEnd {fraction exponent rest : List Char} (h : FractionText fraction)
    (hexp : ExponentText exponent) (hrest : NumberEnds rest) :
    DigitsEnd (fraction ++ (exponent ++ rest)) := by
  rcases h with rfl | ⟨ds, -, -, rfl⟩
  · exact hexp.digitsEnd hrest
  · intro c hc
    cases hc
    rfl

theorem FractionText.read {fraction exponent rest : List Char} (h : FractionText fraction)
    (hexp : ExponentText exponent) (hrest : NumberEnds rest) :
    readFraction (fraction ++ (exponent ++ rest)) = (fraction, exponent ++ rest) := by
  rcases h with rfl | ⟨ds, hne, hds, rfl⟩
  · rcases hexp with rfl | ⟨sign, ds, -, -, -, rfl⟩
    · exact hrest.fraction
    · rfl
  · obtain ⟨htake, hdrop⟩ := (hexp.digitsEnd hrest).digits hds
    have hsome : (ds ++ (exponent ++ rest)).takeWhile Char.isDigit ≠ [] := by
      rw [htake]
      exact hne
    exact (if_neg hsome).trans (Prod.ext (congrArg ('.' :: ·) htake) hdrop)

variable [Builtins]

/-- A decimal text reads as the float that `float` makes of it. -/
theorem readValue_decimal (fuel : Nat) {text : List Char} (h : DecimalText text) {x : Float}
    (hx : Builtins.floatOfStr (String.ofList text) = some x) {rest : List Char}
    (hrest : NumberEnds rest) : readValue (fuel + 1) (text ++ rest) = some (.float x, rest) := by
  obtain ⟨negative, whole, fraction, exponent, hfraction, hexponent, hproper, rfl⟩ := h
  obtain ⟨c, tail, hdigits, hc⟩ := head_toDigits whole
  have hmagnitude : readMagnitude negative
      (Nat.toDigits 10 whole ++ (fraction ++ (exponent ++ rest))) = some (.float x, rest) := by
    unfold readMagnitude
    rw [readWhole_toDigits whole (hfraction.digitsEnd hexponent hrest)]
    dsimp only
    rw [if_neg Nat.toDigits_ne_nil, hfraction.read hexponent hrest]
    dsimp only
    rw [hexponent.read hrest]
    dsimp only
    rw [if_neg (by tauto), hx]
    rfl
  rw [hdigits] at hmagnitude ⊢
  simp only [List.append_assoc, List.cons_append] at hmagnitude ⊢
  cases negative with
  | false =>
    simp only [Bool.false_eq_true, if_false, List.nil_append]
    rw [readValue_digit fuel hc, hmagnitude]
  | true =>
    simp only [if_true, List.cons_append, List.nil_append]
    rw [readValue_sign fuel hc, hmagnitude]

/-! ## Values without parts -/

omit [Builtins] in
theorem starts_decimal {text : List Char} (h : DecimalText text) : Starts text := by
  obtain ⟨negative, whole, fraction, exponent, -, -, -, rfl⟩ := h
  obtain ⟨c, tail, hdigits, hc⟩ := head_toDigits whole
  rw [hdigits]
  cases negative with
  | true => exact ⟨'-', _, rfl, by decide⟩
  | false =>
    refine ⟨c, _, rfl, ?_⟩
    rintro (rfl | rfl | rfl | rfl | rfl | rfl)
    all_goals exact absurd hc (by decide)

theorem scans_float (hfloats : FloatsRead) (x : Float) : Scans (.float x) (floatText x).toList := by
  unfold floatText
  split
  · rename_i hfinite
    obtain ⟨hdecimal, hread⟩ := hfloats x hfinite
    refine ⟨starts_decimal hdecimal, fun fuel rest _ hrest => ?_⟩
    exact readValue_decimal fuel hdecimal (by rw [String.ofList_toList, hread]) hrest.number
  · rename_i hfinite
    have hfinite : x.isFinite = false := by simpa using hfinite
    split
    · rename_i hnan
      rw [Ieee.eq_of_isNaN hnan (show (0 / 0 : Float).isNaN = true by decide +kernel)]
      exact ⟨⟨'N', _, rfl, by decide⟩, fun _ _ _ _ => rfl⟩
    · rename_i hnan
      have hnan : x.isNaN = false := by simpa using hnan
      have hnamed : ∀ y : Float, y.isFinite = false → y.isNaN = false → (0 < x ↔ 0 < y) → x = y :=
        fun y hy hyn => Ieee.eq_of_infinite hfinite hnan hy hyn
      split
      · rename_i hpos
        rw [hnamed (1 / 0) (by decide +kernel) (by decide +kernel)
          (iff_of_true hpos (by decide +kernel))]
        exact ⟨⟨'I', _, rfl, by decide⟩, fun _ _ _ _ => rfl⟩
      · rename_i hneg
        rw [hnamed (-1 / 0) (by decide +kernel) (by decide +kernel)
          (iff_of_false hneg (by decide +kernel))]
        exact ⟨⟨'-', _, rfl, by decide⟩, fun _ _ _ _ => rfl⟩

/-! ## Reading what was written -/

/-- A value that its text gives back: integers within the limit, and no name twice in an object. -/
inductive Readable : Json → Prop
  | null : Readable .null
  | bool (b : Bool) : Readable (.bool b)
  | int {n : Int} (h : (Nat.toDigits 10 n.natAbs).length ≤ maxStrDigits) : Readable (.int n)
  | float (x : Float) : Readable (.float x)
  | str (s : String) : Readable (.str s)
  | arr {items : List Json} (h : ∀ v ∈ items, Readable v) : Readable (.arr items)
  | obj {members : Members} (hnames : (members.map Prod.fst).Nodup)
      (h : ∀ m ∈ members, Readable m.2) : Readable (.obj members)

theorem indentItems_eq_map (width level : Nat) (items : List Json) :
    indentItems width level items = items.map (indentText width level) := by
  induction items with
  | nil => rfl
  | cons v rest ih =>
    unfold indentItems
    rw [ih, List.map_cons]

theorem indentMembers_eq_map (width level : Nat) (members : Members) :
    indentMembers width level members = members.map fun m => (m.1, indentText width level m.2) := by
  induction members with
  | nil => rfl
  | cons m rest ih =>
    obtain ⟨name, v⟩ := m
    unfold indentMembers
    rw [ih, List.map_cons]

omit [Builtins] in
theorem gap_newline (width level : Nat) : Gap (newline width level) := by
  intro c hc
  rcases List.mem_cons.mp hc with rfl | hc
  · rfl
  · rw [List.eq_of_mem_replicate hc]
    rfl

/-- One member of an object as it is written. -/
def fieldOf (width level : Nat) (m : String × Json) : FieldText where
  name := m.1
  body := m.1.toList.flatMap escapeChar
  value := keySorted m.2
  text := indentText width level m.2

theorem spelled_indentText (hfloats : FloatsRead) (width : Nat) {v : Json} (h : Readable v)
    (level : Nat) : Spelled (keySorted v) (indentText width level v) := by
  induction h generalizing level with
  | null => exact .scalar ⟨⟨'n', _, rfl, by decide⟩, fun _ _ _ _ => rfl⟩
  | bool b => cases b <;> exact .scalar ⟨⟨_, _, rfl, by decide⟩, fun _ _ _ _ => rfl⟩
  | int hlimit => exact .scalar (scans_int hlimit)
  | float x => exact .scalar (scans_float hfloats x)
  | str s => exact .scalar (scans_quoted (quotes_escaped s))
  | @arr items h ih =>
    have hgap := gap_newline width
    rw [keySorted_arr]
    unfold indentText
    cases items with
    | nil => exact @Spelled.arr _ [] [] [] [] Gap.nil Gap.nil Gap.nil (fun _ hp => nomatch hp)
    | cons v rest =>
      have hspelled := @Spelled.arr _
        ((v :: rest).map fun w => (keySorted w, indentText width (level + 1) w)) _ _ _
        (hgap (level + 1)) (hgap (level + 1)) (hgap level) fun p hp => by
          obtain ⟨w, hw, rfl⟩ := List.mem_map.mp hp
          exact ih w hw (level + 1)
      rw [List.map_map, List.map_map] at hspelled
      rw [indentItems_eq_map]
      exact hspelled
  | @obj members hnames h ih =>
    have hgap := gap_newline width
    rw [keySorted_obj]
    unfold indentText
    cases members with
    | nil =>
      exact @Spelled.obj _ [] [] [] [] [] Gap.nil Gap.nil Gap.nil Gap.nil .nil
        (fun _ hf => nomatch hf) (fun _ hf => nomatch hf)
    | cons m rest =>
      generalize hall : m :: rest = members at *
      have hne : members.isEmpty = false := by
        rw [← hall]
        rfl
      set sorted := sortedBy (fun a b : String => decide (a < b)) Prod.fst members with hsorted
      have hmem : ∀ {n}, n ∈ sorted → n ∈ members := fun hn => mem_sortedBy _ |>.mp hn
      have hspelled := @Spelled.obj _ (sorted.map (fieldOf width (level + 1))) _ _ _ _
        (hgap (level + 1)) (show Gap [' '] from fun c hc => by rw [List.mem_singleton.mp hc]; rfl)
        (hgap (level + 1)) (hgap level)
        (by
          rw [List.map_map]
          exact ((sortedBy_perm _ Prod.fst members).map Prod.fst).nodup_iff.mpr hnames)
        (fun f hf => by
          obtain ⟨n, -, rfl⟩ := List.mem_map.mp hf
          exact quotes_escaped n.1)
        (fun f hf => by
          obtain ⟨n, hn, rfl⟩ := List.mem_map.mp hf
          exact ih n (hmem hn) (level + 1))
      rw [List.map_map, List.map_map] at hspelled
      rw [hne, if_neg Bool.false_ne_true, indentMembers_eq_map]
      dsimp only
      rw [← map_sortedBy _ (fun m : String × Json => (m.1, indentText width (level + 1) m.2))
        Prod.fst Prod.fst members (fun _ _ => rfl), List.map_map]
      exact hspelled

theorem loads_dumpsIndent (hfloats : FloatsRead) (width : Nat) {v : Json} (h : Readable v)
    {after : List Char} (hafter : Gap after) :
    loads (dumpsIndent width v ++ String.ofList after) = some (keySorted v) := by
  have hloads := loads_of_spelled (spelled_indentText hfloats width h 0) Gap.nil hafter
  rw [List.nil_append, String.ofList_append] at hloads
  exact hloads

instance decidableValid (spec : Float.Model.Format) (b : BitVec spec.numBits) :
    Decidable (spec.Valid b) :=
  decidable_of_iff (Float.Model.UnpackedFloat.unpackExponent b = -1#_ →
      Float.Model.UnpackedFloat.unpackMantissa b ≠ 0#_ →
        b = Float.Model.UnpackedFloat.packedNaN spec)
    ⟨fun h => ⟨h⟩, fun h => h.eq_packedNaN⟩

omit [Builtins] in
/-- The float of some bits; `none` where they are those of no float. -/
def floatOfBits (n : Nat) : Option Float :=
  if h : Float.Model.Format.binary64.Valid (UInt64.ofNat n).toBitVec then some ⟨⟨UInt64.ofNat n, h⟩⟩
  else none

omit [Builtins] in
theorem floatOfBits_toBits (x : Float) : floatOfBits x.toBits.toNat = some x := by
  obtain ⟨⟨bits, valid⟩⟩ := x
  show floatOfBits bits.toNat = _
  unfold floatOfBits
  have hbits : UInt64.ofNat bits.toNat = bits := UInt64.ofNat_toNat
  rw [hbits, dif_pos valid]

/-- The built-ins of `Builtins.checksum` with a spelling of floats that is read back; for evaluating
the definitions on small inputs. -/
abbrev Builtins.spelled : Builtins :=
  { Builtins.checksum with
    floatOfStr := fun s => floatOfBits (digitsValue (s.toList.takeWhile Char.isDigit))
    repr := fun
      | .float x => x.toBits.toNat.repr ++ ".0"
      | _ => "[]"
    repr_ne_empty := by
      intro v
      split
      · intro h
        have hlast := congrArg (fun text : String => text.toList.getLast?) h
        simp at hlast
      · decide }

omit [Builtins] in
theorem floatsRead_spelled : @FloatsRead Builtins.spelled := by
  intro x _
  have htext : (x.toBits.toNat.repr ++ ".0").toList = Nat.toDigits 10 x.toBits.toNat ++ ['.', '0'] := by
    rw [String.toList_append, Nat.toList_repr]
    rfl
  have hdigits : ∀ c ∈ Nat.toDigits 10 x.toBits.toNat, c.isDigit = true := fun c hc =>
    Nat.isDigit_of_mem_toDigits (by decide) (by decide) hc
  have hpoint : DigitsEnd ['.', '0'] := by
    intro c hc
    cases hc
    rfl
  constructor
  · refine ⟨false, x.toBits.toNat, ['.', '0'], [], .inr ⟨['0'], by simp, by simp, rfl⟩, .inl rfl,
      .inl (by simp), ?_⟩
    show (x.toBits.toNat.repr ++ ".0").toList = _
    simp [htext]
  · show floatOfBits (digitsValue ((x.toBits.toNat.repr ++ ".0").toList.takeWhile Char.isDigit)) = _
    rw [htext, (hpoint.digits hdigits).1]
    unfold digitsValue
    rw [Nat.ofDigitChars_ten_toDigits, floatOfBits_toBits]

end Py
