import SynapseChannel.Lib.JsonText

/-!
# Lib — JsonRead

`json.loads`, and `json.dumps` with `ensure_ascii=False`. A text that
holds a surrogate outside a pair has no value here.
-/

namespace Py

/-! ## Writing -/

/-- One code point inside a JSON string with `ensure_ascii=False`. -/
def escapePlain (c : Char) : List Char :=
  let n := c.toNat
  if n = 34 then ['\\', '"']
  else if n = 92 then ['\\', '\\']
  else if n = 10 then ['\\', 'n']
  else if n = 13 then ['\\', 'r']
  else if n = 9 then ['\\', 't']
  else if n = 12 then ['\\', 'f']
  else if n = 8 then ['\\', 'b']
  else if n < 32 then unicodeEscape n
  else [c]

def quotePlain (s : String) : List Char := '"' :: s.toList.flatMap escapePlain ++ ['"']

/-- Texts with a comma between. -/
def joinTexts : List (List Char) → List Char
  | [] => []
  | [text] => text
  | text :: rest => text ++ ',' :: joinTexts rest

mutual

/-- The code points of a value's text. -/
def plainText [Builtins] : Json → List Char
  | .null => ['n', 'u', 'l', 'l']
  | .bool true => ['t', 'r', 'u', 'e']
  | .bool false => ['f', 'a', 'l', 's', 'e']
  | .int n => (toString n).toList
  | .float x => (floatText x).toList
  | .str s => quotePlain s
  | .arr items => '[' :: joinTexts (plainItems items) ++ [']']
  | .obj members =>
    let texts := sortedBy (fun a b => decide (a < b)) Prod.fst (plainMembers members)
    '\x7b' :: joinTexts (texts.map fun m => quotePlain m.1 ++ ':' :: m.2) ++ ['\x7d']

def plainItems [Builtins] : List Json → List (List Char)
  | [] => []
  | v :: rest => plainText v :: plainItems rest

def plainMembers [Builtins] : List (String × Json) → List (String × List Char)
  | [] => []
  | (name, v) :: rest => (name, plainText v) :: plainMembers rest

end

/-- `json.dumps(value, ensure_ascii=False, sort_keys=True, separators=(",", ":"))`. -/
def dumpsPlain [Builtins] (v : Json) : String := String.ofList (plainText v)

/-! ## Reading -/

/-- The text from the first code point that is not JSON whitespace. -/
def skipBlanks (cs : List Char) : List Char :=
  cs.dropWhile fun c => c = ' ' || c = '\t' || c = '\n' || c = '\r'

/-- The number four hexadecimal digits of either case spell. -/
def hexCode (cs : List Char) : Option Nat :=
  match cs.mapM fun c => if c.isUpper then hexValue c.toLower else hexValue c with
  | some [a, b, c, d] => some (((a * 16 + b) * 16 + c) * 16 + d)
  | _ => none

/-- The rest of a string after its opening quote, and the text after its
closing one. -/
def readString : Nat → List Char → Option (List Char × List Char)
  | 0, _ => none
  | _ + 1, '"' :: rest => some ([], rest)
  | fuel + 1, '\\' :: 'u' :: a :: b :: c :: d :: rest => do
    let high ← hexCode [a, b, c, d]
    if 0xd800 ≤ high ∧ high < 0xdc00 then
      match rest with
      | '\\' :: 'u' :: a :: b :: c :: d :: rest =>
        let low ← hexCode [a, b, c, d]
        if 0xdc00 ≤ low ∧ low < 0xe000 then
          let (tail, rest) ← readString fuel rest
          some (Char.ofNat (0x10000 + (high - 0xd800) * 0x400 + (low - 0xdc00)) :: tail, rest)
        else none
      | _ => none
    else if 0xdc00 ≤ high ∧ high < 0xe000 then none
    else
      let (tail, rest) ← readString fuel rest
      some (Char.ofNat high :: tail, rest)
  | fuel + 1, '\\' :: c :: rest => do
    let read ← ([('"', '"'), ('\\', '\\'), ('/', '/'), ('b', '\x08'), ('f', '\x0c'), ('n', '\n'),
      ('r', '\r'), ('t', '\t')] : List (Char × Char)).lookup c
    let (tail, rest) ← readString fuel rest
    some (read :: tail, rest)
  | fuel + 1, c :: rest =>
    if c.toNat < 32 then none
    else do
      let (tail, rest) ← readString fuel rest
      some (c :: tail, rest)
  | _, [] => none

/-- Most digits `int` reads from a text. -/
def maxStrDigits : Nat := 4300

/-- The number a run of decimal digits spells. -/
def digitsValue (ds : List Char) : Nat := Nat.ofDigitChars 10 ds 0

/-- The fraction of a number: a point and at least one digit. -/
def readFraction : List Char → List Char × List Char
  | '.' :: rest =>
    if rest.takeWhile Char.isDigit = [] then ([], '.' :: rest)
    else ('.' :: rest.takeWhile Char.isDigit, rest.dropWhile Char.isDigit)
  | rest => ([], rest)

/-- The exponent of a number: a letter, an optional sign and at least one
digit. -/
def readExponent : List Char → List Char × List Char
  | e :: rest =>
    let (sign, digits) := match rest with
      | '+' :: digits => (['+'], digits)
      | '-' :: digits => (['-'], digits)
      | digits => ([], digits)
    if (e = 'e' ∨ e = 'E') ∧ digits.takeWhile Char.isDigit ≠ [] then
      (e :: sign ++ digits.takeWhile Char.isDigit, digits.dropWhile Char.isDigit)
    else ([], e :: rest)
  | [] => ([], [])

/-- The integer part of a number; a leading zero is all of it. -/
def readWhole : List Char → List Char × List Char
  | '0' :: rest => (['0'], rest)
  | cs => (cs.takeWhile Char.isDigit, cs.dropWhile Char.isDigit)

/-- A number after its sign. -/
def readMagnitude [Builtins] (negative : Bool) (cs : List Char) : Option (Json × List Char) :=
  let (whole, rest) := readWhole cs
  if whole = [] then none
  else
    let (fraction, rest) := readFraction rest
    let (exponent, rest) := readExponent rest
    if fraction = [] ∧ exponent = [] then
      if whole.length > maxStrDigits then none
      else
        let n : Int := digitsValue whole
        some (.int (if negative then -n else n), rest)
    else do
      let sign := if negative then ['-'] else []
      let x ← Builtins.floatOfStr (String.ofList (sign ++ whole ++ fraction ++ exponent))
      some (.float x, rest)

/-- A number at the front of a text. -/
def readNumber [Builtins] : List Char → Option (Json × List Char)
  | '-' :: rest => readMagnitude true rest
  | cs => readMagnitude false cs

/-- The rest of the text after one of the words that name a value. -/
def readName (cs : List Char) : Option (Json × List Char) :=
  let names : List (String × Json) := [("null", .null), ("true", .bool true),
    ("false", .bool false), ("NaN", .float (0 / 0)), ("Infinity", .float (1 / 0)),
    ("-Infinity", .float (-1 / 0))]
  (names.find? fun name => name.1.toList.isPrefixOf cs).map fun name =>
    (name.2, cs.drop name.1.toList.length)

mutual

/-- A value at the front of a text, and the text after it. -/
def readValue [Builtins] : Nat → List Char → Option (Json × List Char)
  | 0, _ => none
  | fuel + 1, '"' :: rest => do
    let (s, rest) ← readString (fuel + 1) rest
    some (.str (String.ofList s), rest)
  | fuel + 1, '[' :: rest =>
    match skipBlanks rest with
    | ']' :: rest => some (.arr [], rest)
    | rest => do
      let (items, rest) ← readItems fuel rest
      some (.arr items, rest)
  | fuel + 1, '\x7b' :: rest =>
    match skipBlanks rest with
    | '\x7d' :: rest => some (.obj [], rest)
    | rest => do
      let (members, rest) ← readMembers fuel [] rest
      some (.obj members, rest)
  | _ + 1, cs => (readName cs).or (readNumber cs)

/-- The items of an array up to its closing bracket. -/
def readItems [Builtins] : Nat → List Char → Option (List Json × List Char)
  | 0, _ => none
  | fuel + 1, cs => do
    let (v, rest) ← readValue fuel cs
    match skipBlanks rest with
    | ',' :: rest =>
      let (items, rest) ← readItems fuel (skipBlanks rest)
      some (v :: items, rest)
    | ']' :: rest => some ([v], rest)
    | _ => none

/-- The members of an object up to its closing brace; a name that comes
again overwrites its value. -/
def readMembers [Builtins] : Nat → Members → List Char → Option (Members × List Char)
  | 0, _, _ => none
  | fuel + 1, members, '"' :: rest => do
    let (name, rest) ← readString (fuel + 1) rest
    match skipBlanks rest with
    | ':' :: rest =>
      let (v, rest) ← readValue fuel (skipBlanks rest)
      let members := Dict.put (String.ofList name) v members
      match skipBlanks rest with
      | ',' :: rest => readMembers fuel members (skipBlanks rest)
      | '\x7d' :: rest => some (members, rest)
      | _ => none
    | _ => none
  | _ + 1, _, _ => none

end

/-- `json.loads(text)`; `none` is a `ValueError`. -/
def loads [Builtins] (text : String) : Option Json := do
  -- every value is preceded by a code point of its own or by a separator
  let (v, rest) ← readValue (2 * len text + 2) (skipBlanks text.toList)
  if skipBlanks rest = [] then some v else none

/-! ## Reading what was written -/

theorem hexCode_digits {n : Nat} (h : n < 65536) :
    hexCode [hexDigit (n / 4096 % 16), hexDigit (n / 256 % 16), hexDigit (n / 16 % 16),
      hexDigit (n % 16)] = some n := by
  have hdigit : ∀ k, (if (hexDigit (k % 16)).isUpper then hexValue (hexDigit (k % 16)).toLower
      else hexValue (hexDigit (k % 16))) = some (k % 16) := by
    have hall : ∀ d < 16, (if (hexDigit d).isUpper then hexValue (hexDigit d).toLower
        else hexValue (hexDigit d)) = some d := by decide
    exact fun k => hall (k % 16) (by omega)
  unfold hexCode
  simp only [List.mapM_cons, List.mapM_nil, hdigit, Option.pure_def, Option.bind_eq_bind,
    Option.bind_some, Option.some.injEq]
  omega

theorem readString_escapePlain (c : Char) (fuel : Nat) (rest : List Char) :
    readString (fuel + 1) (escapePlain c ++ rest) =
      (readString fuel rest).map fun read => (c :: read.1, read.2) := by
  have hpair : ∀ read : Option (List Char × List Char), ∀ d : Char,
      (read >>= fun tail => some (d :: tail.1, tail.2)) = read.map fun tail => (d :: tail.1, tail.2) := by
    intro read d
    cases read <;> rfl
  have hchar : ∀ d : Char, c.toNat = d.toNat → c = d := fun d h => Char.toNat_inj.mp h
  unfold escapePlain
  dsimp only
  split_ifs with h34 h92 h10 h13 h9 h12 h8 hcontrol
  · rw [hchar '"' h34]
    exact hpair _ _
  · rw [hchar '\\' h92]
    exact hpair _ _
  · rw [hchar '\n' h10]
    exact hpair _ _
  · rw [hchar '\r' h13]
    exact hpair _ _
  · rw [hchar '\t' h9]
    exact hpair _ _
  · rw [hchar '\x0c' h12]
    exact hpair _ _
  · rw [hchar '\x08' h8]
    exact hpair _ _
  · show (hexCode [hexDigit (c.toNat / 4096 % 16), hexDigit (c.toNat / 256 % 16),
      hexDigit (c.toNat / 16 % 16), hexDigit (c.toNat % 16)] >>= _) = _
    rw [hexCode_digits (by omega), Option.bind_eq_bind, Option.bind_some, if_neg (by omega),
      if_neg (by omega), Char.ofNat_toNat]
    exact hpair _ _
  · have hquote : c ≠ '"' := fun h => h34 (by rw [h]; rfl)
    have hslash : c ≠ '\\' := fun h => h92 (by rw [h]; rfl)
    rw [List.singleton_append, readString, if_neg hcontrol]
    · exact hpair _ _
    · exact hquote
    · exact fun _ _ _ _ _ h => absurd h hslash
    · exact fun _ _ h => absurd h hslash

theorem readString_quoted (cs : List Char) {fuel : Nat} (hfuel : cs.length < fuel)
    (rest : List Char) :
    readString fuel (cs.flatMap escapePlain ++ '"' :: rest) = some (cs, rest) := by
  induction cs generalizing fuel with
  | nil =>
    obtain ⟨fuel, rfl⟩ := Nat.exists_eq_add_of_lt hfuel
    rfl
  | cons c cs ih =>
    obtain ⟨fuel, rfl⟩ : ∃ n, fuel = n + 1 := ⟨fuel - 1, by simp at hfuel; omega⟩
    rw [List.flatMap_cons, List.append_assoc, readString_escapePlain, ih]
    · rfl
    · simpa using hfuel

/-! ### Numbers -/

theorem toDigits_zero_cons {n : Nat} {tail : List Char}
    (h : Nat.toDigits 10 n = '0' :: tail) : n = 0 := by
  induction n using Nat.strongRecOn generalizing tail with
  | ind n ih =>
    by_cases hlt : n < 10
    · rw [Nat.toDigits_of_lt_base hlt] at h
      have hdigit : ∀ d < 10, Nat.digitChar d = '0' → d = 0 := by decide
      exact hdigit n hlt (List.cons.inj h).1
    · rw [Nat.toDigits_of_base_le (by decide) (by omega)] at h
      cases hhigh : Nat.toDigits 10 (n / 10) with
      | nil => exact absurd hhigh Nat.toDigits_ne_nil
      | cons c rest =>
        rw [hhigh, List.cons_append] at h
        rw [(List.cons.inj h).1] at hhigh
        have := ih (n / 10) (by omega) hhigh
        omega

/-- What may follow a run of digits. -/
def DigitsEnd (rest : List Char) : Prop := ∀ c, rest.head? = some c → c.isDigit = false

/-- What may follow the text of a number. -/
def NumberEnds (rest : List Char) : Prop :=
  ∀ c, rest.head? = some c → c.isDigit = false ∧ c ≠ '.' ∧ c ≠ 'e' ∧ c ≠ 'E'

theorem NumberEnds.digitsEnd {rest : List Char} (h : NumberEnds rest) : DigitsEnd rest :=
  fun c hc => (h c hc).1

/-- Digits are taken up to what is none. -/
theorem DigitsEnd.digits {rest : List Char} (h : DigitsEnd rest) {ds : List Char}
    (hds : ∀ c ∈ ds, c.isDigit = true) :
    (ds ++ rest).takeWhile Char.isDigit = ds ∧ (ds ++ rest).dropWhile Char.isDigit = rest := by
  have hrest : rest.takeWhile Char.isDigit = [] ∧ rest.dropWhile Char.isDigit = rest := by
    cases rest with
    | nil => exact ⟨rfl, rfl⟩
    | cons c tail =>
      have hc : ¬ c.isDigit = true := by simp [h c rfl]
      exact ⟨List.takeWhile_cons_of_neg hc, List.dropWhile_cons_of_neg hc⟩
  rw [List.takeWhile_append_of_pos hds, List.dropWhile_append_of_pos hds, hrest.1, hrest.2,
    List.append_nil]
  exact ⟨rfl, rfl⟩

theorem NumberEnds.fraction {rest : List Char} (h : NumberEnds rest) :
    readFraction rest = ([], rest) := by
  unfold readFraction
  split
  · exact absurd rfl (h '.' rfl).2.1
  · rfl

theorem NumberEnds.exponent {rest : List Char} (h : NumberEnds rest) :
    readExponent rest = ([], rest) := by
  cases rest with
  | nil => rfl
  | cons c tail =>
    unfold readExponent
    dsimp only
    rw [if_neg]
    rintro ⟨he | he, -⟩
    · exact (h c rfl).2.2.1 he
    · exact (h c rfl).2.2.2 he

theorem readWhole_toDigits (n : Nat) {rest : List Char} (h : DigitsEnd rest) :
    readWhole (Nat.toDigits 10 n ++ rest) = (Nat.toDigits 10 n, rest) := by
  have hdigits : ∀ c ∈ Nat.toDigits 10 n, c.isDigit = true := fun c hc =>
    Nat.isDigit_of_mem_toDigits (by decide) (by decide) hc
  unfold readWhole
  split <;> rename_i heq
  · -- the number is zero
    cases hlist : Nat.toDigits 10 n with
    | nil => exact absurd hlist Nat.toDigits_ne_nil
    | cons c tail =>
      rw [hlist, List.cons_append] at heq
      obtain ⟨rfl, htail⟩ := List.cons.inj heq
      have hzero := toDigits_zero_cons hlist
      subst hzero
      have htail' : tail = [] := (List.cons.inj (hlist.symm.trans (Nat.toDigits_zero 10))).2
      subst htail'
      rw [← htail]
      rfl
  · rw [(h.digits hdigits).1, (h.digits hdigits).2]

variable [Builtins]

theorem readMagnitude_toDigits (negative : Bool) {n : Nat}
    (hlimit : (Nat.toDigits 10 n).length ≤ maxStrDigits) {rest : List Char} (h : NumberEnds rest) :
    readMagnitude negative (Nat.toDigits 10 n ++ rest) =
      some (.int (if negative then -(n : Int) else n), rest) := by
  unfold readMagnitude
  rw [readWhole_toDigits n h.digitsEnd]
  dsimp only
  rw [if_neg Nat.toDigits_ne_nil, h.fraction, h.exponent]
  dsimp only
  rw [if_pos ⟨rfl, rfl⟩, if_neg (by omega)]
  unfold digitsValue
  rw [Nat.ofDigitChars_ten_toDigits]

omit [Builtins] in
theorem head_toDigits (n : Nat) :
    ∃ c tail, Nat.toDigits 10 n = c :: tail ∧ c.isDigit = true := by
  cases hlist : Nat.toDigits 10 n with
  | nil => exact absurd hlist Nat.toDigits_ne_nil
  | cons c tail =>
    refine ⟨c, tail, rfl, Nat.isDigit_of_mem_toDigits (b := 10) (n := n) (by decide) (by decide) ?_⟩
    rw [hlist]
    exact List.mem_cons_self

omit [Builtins] in
theorem eq_digit {c : Char} (hc : c.isDigit = true) : ∃ d < 10, c = Nat.digitChar d := by
  have hbounds : 48 ≤ c.toNat ∧ c.toNat ≤ 57 := by
    simpa [Char.isDigit, UInt32.le_iff_toNat_le] using hc
  refine ⟨c.toNat - 48, by omega, ?_⟩
  have hvalue : ∀ n < 58, 48 ≤ n → (Nat.digitChar (n - 48)).toNat = n := by decide
  exact (Char.toNat_inj.mp (hvalue c.toNat (by omega) hbounds.1)).symm

theorem readValue_digit (fuel : Nat) {c : Char} (hc : c.isDigit = true) (tail : List Char) :
    readValue (fuel + 1) (c :: tail) = readMagnitude false (c :: tail) := by
  obtain ⟨d, hd, rfl⟩ := eq_digit hc
  interval_cases d <;> rfl

theorem readValue_sign (fuel : Nat) {c : Char} (hc : c.isDigit = true) (tail : List Char) :
    readValue (fuel + 1) ('-' :: c :: tail) = readMagnitude true (c :: tail) := by
  obtain ⟨d, hd, rfl⟩ := eq_digit hc
  interval_cases d <;> rfl

theorem readValue_int (fuel : Nat) {n : Int}
    (hlimit : (Nat.toDigits 10 n.natAbs).length ≤ maxStrDigits) {rest : List Char}
    (h : NumberEnds rest) :
    readValue (fuel + 1) (plainText (.int n) ++ rest) = some (.int n, rest) := by
  obtain ⟨c, tail, hdigits, hc⟩ := head_toDigits n.natAbs
  show readValue (fuel + 1) ((toString n).toList ++ rest) = _
  rw [Int.toString_eq_repr, Int.repr_eq_if]
  split_ifs with hsign
  · rw [Nat.toList_repr, show n.toNat = n.natAbs by omega, hdigits, List.cons_append,
      readValue_digit fuel hc, ← List.cons_append, ← hdigits, readMagnitude_toDigits false hlimit h]
    simp only [Bool.false_eq_true, if_false, Option.some.injEq, Prod.mk.injEq, and_true,
      Json.int.injEq]
    omega
  · rw [String.toList_append, Nat.toList_repr, show (-n).toNat = n.natAbs by omega, hdigits]
    show readValue (fuel + 1) ('-' :: c :: (tail ++ rest)) = _
    rw [readValue_sign fuel hc, ← List.cons_append, ← hdigits, readMagnitude_toDigits true hlimit h]
    simp only [if_true, Option.some.injEq, Prod.mk.injEq, and_true, Json.int.injEq]
    omega

/-! ### Parts of a text -/

omit [Builtins]

/-- A character that starts a value: no blank and no closing bracket. -/
abbrev Opens (c : Char) : Prop :=
  ¬ (c = ' ' ∨ c = '\t' ∨ c = '\n' ∨ c = '\r' ∨ c = ']' ∨ c = '\x7d')

theorem skipBlanks_cons {c : Char} (h : Opens c) (tail : List Char) :
    skipBlanks (c :: tail) = c :: tail := by
  unfold skipBlanks
  rw [List.dropWhile_cons_of_neg]
  simp only [Bool.or_eq_true, decide_eq_true_eq]
  rintro (((rfl | rfl) | rfl) | rfl)
  all_goals exact h (by decide)

theorem joinTexts_cons_cons (text next : List Char) (more : List (List Char)) :
    joinTexts (text :: next :: more) = text ++ ',' :: joinTexts (next :: more) := rfl

theorem joinTexts_head {text : List Char} {c : Char} {tail : List Char} (h : text = c :: tail)
    (more : List (List Char)) : ∃ tail, joinTexts (text :: more) = c :: tail := by
  subst h
  cases more <;> exact ⟨_, rfl⟩

theorem length_escapePlain_pos (c : Char) : 0 < (escapePlain c).length := by
  unfold escapePlain unicodeEscape
  dsimp only
  split_ifs <;> simp

theorem length_le_escaped (cs : List Char) : cs.length ≤ (cs.flatMap escapePlain).length := by
  induction cs with
  | nil => rfl
  | cons c rest ih =>
    rw [List.flatMap_cons, List.length_append, List.length_cons]
    have := length_escapePlain_pos c
    omega

end Py
