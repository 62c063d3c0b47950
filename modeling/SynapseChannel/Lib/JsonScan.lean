import SynapseChannel.Lib.JsonRead
import SynapseChannel.Lib.Outcome

/-!
# Lib — JsonScan

`json.loads` with its hooks, over texts that may hold surrogates outside a
pair. Reading with any hooks is reading the syntax tree and then calling
the hooks along it, innermost values first.
-/

namespace Py

/-! ## Code points -/

/-- A code point of a `str`: a scalar value or a surrogate. -/
inductive CodePoint where
  | char (c : Char)
  | surrogate (n : Fin 2048)
  deriving DecidableEq

abbrev Points := List CodePoint

/-- A text without surrogates. -/
def points (cs : List Char) : Points := cs.map .char

/-- `chr(n)`. -/
def chr (n : Nat) : CodePoint :=
  if h : 0xd800 ≤ n ∧ n < 0xe000 then .surrogate ⟨n - 0xd800, by omega⟩
  else .char (Char.ofNat n)

/-- The characters of a text; `none` when it holds a surrogate. -/
def scalars (text : Points) : Option (List Char) :=
  text.mapM fun
    | .char c => some c
    | .surrogate _ => none

/-- `raw.decode("utf-8", errors="strict")`. -/
def decodeUtf8 (raw : ByteArray) : Option Points :=
  raw.utf8Decode?.map fun cs => points cs.toList

@[simp] theorem scalars_points (cs : List Char) : scalars (points cs) = some cs := by
  unfold scalars points
  induction cs with
  | nil => rfl
  | cons c rest ih => simp [List.mapM_cons, ih]

theorem eq_points_of_scalars {text : Points} {cs : List Char} (h : scalars text = some cs) :
    text = points cs := by
  unfold scalars at h
  induction text generalizing cs with
  | nil =>
    cases h
    rfl
  | cons p rest ih =>
    rw [List.mapM_cons] at h
    cases p with
    | surrogate n => cases h
    | char c =>
      obtain ⟨d, hd, h⟩ := Option.bind_eq_some_iff.mp h
      obtain ⟨tail, htail, h⟩ := Option.bind_eq_some_iff.mp h
      cases hd
      cases h
      exact congrArg _ (ih htail)

/-- A text has characters exactly when no surrogate is in it. -/
theorem scalars_isSome_iff (text : Points) :
    (scalars text).isSome ↔ ∀ n, CodePoint.surrogate n ∉ text := by
  unfold scalars
  induction text with
  | nil => simp
  | cons p rest ih =>
    rw [List.mapM_cons]
    cases p with
    | surrogate n =>
      constructor
      · intro h
        cases h
      · intro h
        exact absurd List.mem_cons_self (h n)
    | char c =>
      simp only [Option.bind_eq_bind, Option.bind_some, Option.isSome_bind, Option.pure_def,
        Option.isSome_some, Option.any_true, List.mem_cons, reduceCtorEq, false_or]
      exact ih

theorem decodeUtf8_encode (cs : List Char) : decodeUtf8 cs.utf8Encode = some (points cs) := by
  unfold decodeUtf8
  rw [List.utf8Decode?_utf8Encode]
  rfl

namespace Scan

/-! ## Lexemes -/

/-- The text from the first code point that is not JSON whitespace. -/
def skipSpace (cs : Points) : Points :=
  cs.dropWhile fun c => c = .char ' ' || c = .char '\t' || c = .char '\n' || c = .char '\r'

/-- Put a code point before what is read next. -/
def before (c : CodePoint) (read : Option (Points × Points)) : Option (Points × Points) :=
  read.map fun (text, rest) => (c :: text, rest)

/-- What a backslash and one character stand for. -/
def shortEscape (c : Char) : Option Char :=
  ([('"', '"'), ('\\', '\\'), ('/', '/'), ('b', '\x08'), ('f', '\x0c'), ('n', '\n'), ('r', '\r'),
    ('t', '\t')] : List (Char × Char)).lookup c

/-- The rest of a string after its opening quote, and the text after its
closing one. An escaped high surrogate is joined to an escaped low one
right after it. -/
def string : Nat → Points → Option (Points × Points)
  | 0, _ => none
  | _ + 1, .char '"' :: rest => some ([], rest)
  | fuel + 1, .char '\\' :: .char 'u' :: a :: b :: c :: d :: rest => do
    let n ← (scalars [a, b, c, d]).bind hexCode
    if 0xd800 ≤ n ∧ n < 0xdc00 then
      match rest with
      | .char '\\' :: .char 'u' :: a :: b :: c :: d :: later =>
        let low ← (scalars [a, b, c, d]).bind hexCode
        if 0xdc00 ≤ low ∧ low < 0xe000 then
          before (.char (Char.ofNat (0x10000 + (n - 0xd800) * 0x400 + (low - 0xdc00))))
            (string fuel later)
        else before (chr n) (string fuel rest)
      | _ => before (chr n) (string fuel rest)
    else before (chr n) (string fuel rest)
  | fuel + 1, .char '\\' :: .char c :: rest => do
    let read ← shortEscape c
    before (.char read) (string fuel rest)
  | _ + 1, .char '\\' :: _ => none
  | fuel + 1, .char c :: rest => if c.toNat < 32 then none else before (.char c) (string fuel rest)
  | fuel + 1, c :: rest => before c (string fuel rest)
  | _ + 1, [] => none

/-- A run of decimal digits. -/
def digits : Points → List Char × Points
  | .char c :: rest =>
    if c.isDigit then (c :: (digits rest).1, (digits rest).2) else ([], .char c :: rest)
  | cs => ([], cs)

def sign : Points → List Char × Points
  | .char '-' :: rest => (['-'], rest)
  | cs => ([], cs)

/-- The integer part of a number; a leading zero is all of it. -/
def whole : Points → List Char × Points
  | .char '0' :: rest => (['0'], rest)
  | cs => digits cs

/-- A point and at least one digit. -/
def fraction : Points → List Char × Points
  | .char '.' :: rest =>
    if (digits rest).1 = [] then ([], .char '.' :: rest)
    else ('.' :: (digits rest).1, (digits rest).2)
  | cs => ([], cs)

/-- A letter, an optional sign and at least one digit. -/
def exponent : Points → List Char × Points
  | .char e :: rest =>
    let (sign, after) := match rest with
      | .char '+' :: after => (['+'], after)
      | .char '-' :: after => (['-'], after)
      | after => ([], after)
    if (e = 'e' ∨ e = 'E') ∧ (digits after).1 ≠ [] then
      (e :: sign ++ (digits after).1, (digits after).2)
    else ([], .char e :: rest)
  | cs => ([], cs)

/-- Whether a number has neither fraction nor exponent, its text, and the
text after it. -/
def number (cs : Points) : Option (Bool × List Char × Points) :=
  let (minus, rest) := sign cs
  let (integer, rest) := whole rest
  let (decimals, rest) := fraction rest
  let (power, rest) := exponent rest
  if integer = [] then none
  else some (decimals = [] && power = [], minus ++ integer ++ decimals ++ power, rest)

/-- A word that names a value. -/
inductive Literal where
  | null
  | bool (b : Bool)
  | constant (name : String)
  deriving DecidableEq

def literal (cs : Points) : Option (Literal × Points) :=
  let names : List (String × Literal) := [("null", .null), ("true", .bool true),
    ("false", .bool false), ("NaN", .constant "NaN"), ("Infinity", .constant "Infinity"),
    ("-Infinity", .constant "-Infinity")]
  (names.find? fun name => (points name.1.toList).isPrefixOf cs).map fun name =>
    (name.2, cs.drop name.1.toList.length)

/-! ## Values -/

/-- What `json.loads` calls: `parse_int`, `parse_float`, `parse_constant`
and `object_pairs_hook`, beside the values it builds itself. -/
structure Hooks (V : Type) where
  null : V
  bool : Bool → V
  str : Points → V
  arr : List V → V
  parseInt : List Char → Except String V
  parseFloat : List Char → Except String V
  parseConstant : String → Except String V
  pairs : List (Points × V) → Except String V

/-- A `JSONDecodeError`, or what a hook raised. -/
inductive ScanError where
  | decode
  | raised (message : String)

variable {V : Type}

namespace Hooks

def literal (H : Hooks V) : Literal → Except String V
  | .null => .ok H.null
  | .bool b => .ok (H.bool b)
  | .constant name => H.parseConstant name

def number (H : Hooks V) (integral : Bool) (lexeme : List Char) : Except String V :=
  if integral then H.parseInt lexeme else H.parseFloat lexeme

end Hooks

/-- A hook's result, before the rest of the text. -/
def called (result : Except String V) (rest : Points) : Except ScanError (V × Points) :=
  match result with
  | .ok v => .ok (v, rest)
  | .error e => .error (.raised e)

mutual

/-- A value at the front of a text, and the text after it. -/
def value (H : Hooks V) : Nat → Points → Except ScanError (V × Points)
  | 0, _ => .error .decode
  | fuel + 1, .char '"' :: rest =>
    match string (fuel + 1) rest with
    | some (s, rest) => .ok (H.str s, rest)
    | none => .error .decode
  | fuel + 1, .char '[' :: rest =>
    match skipSpace rest with
    | .char ']' :: rest => .ok (H.arr [], rest)
    | rest => do
      let (items, rest) ← items H fuel rest
      .ok (H.arr items, rest)
  | fuel + 1, .char '\x7b' :: rest =>
    match skipSpace rest with
    | .char '\x7d' :: rest => called (H.pairs []) rest
    | rest => do
      let (pairs, rest) ← members H fuel rest
      called (H.pairs pairs) rest
  | _ + 1, cs =>
    match literal cs with
    | some (word, rest) => called (H.literal word) rest
    | none =>
      match number cs with
      | some (integral, lexeme, rest) => called (H.number integral lexeme) rest
      | none => .error .decode

/-- The items of an array up to its closing bracket. -/
def items (H : Hooks V) : Nat → Points → Except ScanError (List V × Points)
  | 0, _ => .error .decode
  | fuel + 1, cs => do
    let (v, rest) ← value H fuel cs
    match skipSpace rest with
    | .char ',' :: rest =>
      let (later, rest) ← items H fuel (skipSpace rest)
      .ok (v :: later, rest)
    | .char ']' :: rest => .ok ([v], rest)
    | _ => .error .decode

/-- The members of an object up to its closing brace. -/
def members (H : Hooks V) : Nat → Points → Except ScanError (List (Points × V) × Points)
  | 0, _ => .error .decode
  | fuel + 1, .char '"' :: rest =>
    match string (fuel + 1) rest with
    | none => .error .decode
    | some (name, rest) =>
      match skipSpace rest with
      | .char ':' :: rest => do
        let (v, rest) ← value H fuel (skipSpace rest)
        match skipSpace rest with
        | .char ',' :: rest =>
          let (later, rest) ← members H fuel (skipSpace rest)
          .ok ((name, v) :: later, rest)
        | .char '\x7d' :: rest => .ok ([(name, v)], rest)
        | _ => .error .decode
      | _ => .error .decode
  | _ + 1, _ => .error .decode

end

/-- `json.loads(text, **hooks)`. -/
def loads (H : Hooks V) (text : Points) : Except ScanError V :=
  if text.head? = some (.char (Char.ofNat 0xfeff)) then .error .decode
  else do
    -- every value is preceded by a code point of its own or by a separator
    let (v, rest) ← value H (2 * text.length + 2) (skipSpace text)
    if skipSpace rest = [] then .ok v else .error .decode

/-! ## Syntax trees -/

/-- A document as it is written: numbers by their text, the members of an
object in their order, repeated names included. -/
inductive Tree where
  | literal (word : Literal)
  | str (s : Points)
  | number (integral : Bool) (lexeme : List Char)
  | arr (items : List Tree)
  | obj (members : List (Points × Tree))

/-- Hooks that keep everything. -/
def Tree.hooks : Hooks Tree where
  null := .literal .null
  bool := fun b => .literal (.bool b)
  str := .str
  arr := .arr
  parseInt := fun lexeme => .ok (.number true lexeme)
  parseFloat := fun lexeme => .ok (.number false lexeme)
  parseConstant := fun name => .ok (.literal (.constant name))
  pairs := fun members => .ok (.obj members)

mutual

/-- Call the hooks along a tree. -/
def Tree.eval (H : Hooks V) : Tree → Except String V
  | .literal word => H.literal word
  | .str s => .ok (H.str s)
  | .number integral lexeme => H.number integral lexeme
  | .arr items => (evalItems H items).map H.arr
  | .obj members => evalMembers H members >>= H.pairs

def evalItems (H : Hooks V) : List Tree → Except String (List V)
  | [] => .ok []
  | t :: rest => do
    let v ← t.eval H
    let later ← evalItems H rest
    .ok (v :: later)

def evalMembers (H : Hooks V) : List (Points × Tree) → Except String (List (Points × V))
  | [] => .ok []
  | (name, t) :: rest => do
    let v ← t.eval H
    let later ← evalMembers H rest
    .ok ((name, v) :: later)

end

open Outcome

theorem called_ok {result : Except String V} {rest rest' : Points} {v : V} :
    called result rest = .ok (v, rest') ↔ result = .ok v ∧ rest = rest' := by
  cases result with
  | error e =>
    constructor
    · intro h
      cases h
    · rintro ⟨h, -⟩
      cases h
  | ok w =>
    constructor
    · intro h
      cases h
      exact ⟨rfl, rfl⟩
    · rintro ⟨h, rfl⟩
      cases h
      rfl

theorem evalItems_cons {H : Hooks V} {t : Tree} {rest : List Tree} {vs : List V} :
    evalItems H (t :: rest) = .ok vs ↔
      ∃ v later, t.eval H = .ok v ∧ evalItems H rest = .ok later ∧ vs = v :: later := by
  constructor
  · intro h
    obtain ⟨v, hv, h⟩ := bind_ok h
    obtain ⟨later, hlater, h⟩ := bind_ok h
    cases h
    exact ⟨v, later, hv, hlater, rfl⟩
  · rintro ⟨v, later, hv, hlater, rfl⟩
    exact bind_of_ok hv (bind_of_ok hlater rfl)

theorem evalMembers_cons {H : Hooks V} {name : Points} {t : Tree} {rest : List (Points × Tree)}
    {vs : List (Points × V)} :
    evalMembers H ((name, t) :: rest) = .ok vs ↔
      ∃ v later, t.eval H = .ok v ∧ evalMembers H rest = .ok later ∧ vs = (name, v) :: later := by
  constructor
  · intro h
    obtain ⟨v, hv, h⟩ := bind_ok h
    obtain ⟨later, hlater, h⟩ := bind_ok h
    cases h
    exact ⟨v, later, hv, hlater, rfl⟩
  · rintro ⟨v, later, hv, hlater, rfl⟩
    exact bind_of_ok hv (bind_of_ok hlater rfl)

/-- A reading with hooks and one of the tree, which gives the value the
hooks give along the tree. -/
def Agrees {α β : Type} (eval : β → Except String α) (x : Except ScanError (α × Points))
    (y : Except ScanError (β × Points)) : Prop :=
  ∀ a rest, x = .ok (a, rest) ↔ ∃ b, y = .ok (b, rest) ∧ eval b = .ok a

theorem Agrees.failed {α β : Type} (eval : β → Except String α) (e e' : ScanError) :
    Agrees eval (.error e) (.error e') := by
  intro a rest
  constructor
  · intro h
    cases h
  · rintro ⟨b, h, -⟩
    cases h

theorem Agrees.read {α β : Type} {eval : β → Except String α} {a : α} {b : β}
    (h : eval b = .ok a) (rest : Points) : Agrees eval (.ok (a, rest)) (.ok (b, rest)) := by
  intro a' rest'
  constructor
  · intro heq
    cases heq
    exact ⟨b, rfl, h⟩
  · rintro ⟨b', heq, hb'⟩
    cases heq
    rw [h] at hb'
    cases hb'
    rfl

/-- A hook's call, against the node that keeps its arguments. -/
theorem Agrees.called {H : Hooks V} {result : Except String V} (t : Tree)
    (h : t.eval H = result) (rest : Points) :
    Agrees (Tree.eval H) (called result rest) (called (.ok t) rest) := by
  intro v rest'
  rw [called_ok]
  constructor
  · rintro ⟨hv, rfl⟩
    exact ⟨t, rfl, h.trans hv⟩
  · rintro ⟨t', ht', hv⟩
    cases ht'
    exact ⟨h.symm.trans hv, rfl⟩

/-- One reading after another. -/
theorem Agrees.bind {α β γ δ : Type} {eval : β → Except String α} {eval' : δ → Except String γ}
    {x : Except ScanError (α × Points)} {y : Except ScanError (β × Points)}
    {f : α × Points → Except ScanError (γ × Points)}
    {g : β × Points → Except ScanError (δ × Points)} (h : Agrees eval x y)
    (hthen : ∀ a b rest, eval b = .ok a → Agrees eval' (f (a, rest)) (g (b, rest)))
    (hpart : ∀ b rest d rest' c, g (b, rest) = .ok (d, rest') → eval' d = .ok c →
      ∃ a, eval b = .ok a) : Agrees eval' (x >>= f) (y >>= g) := by
  intro c rest
  constructor
  · intro hx
    obtain ⟨⟨a, mid⟩, ha, hf⟩ := bind_ok hx
    obtain ⟨b, hb, heval⟩ := (h a mid).mp ha
    obtain ⟨d, hd, hc⟩ := (hthen a b mid heval c rest).mp hf
    exact ⟨d, bind_of_ok hb hd, hc⟩
  · rintro ⟨d, hy, hc⟩
    obtain ⟨⟨b, mid⟩, hb, hg⟩ := bind_ok hy
    obtain ⟨a, heval⟩ := hpart b mid d rest c hg hc
    exact bind_of_ok ((h a mid).mpr ⟨b, hb, heval⟩) ((hthen a b mid heval c rest).mpr ⟨d, hg, hc⟩)

/-- Reading with hooks is reading the tree and calling them. -/
structure Fused (H : Hooks V) (fuel : Nat) : Prop where
  value : ∀ cs, Agrees (Tree.eval H) (value H fuel cs) (Scan.value Tree.hooks fuel cs)
  items : ∀ cs, Agrees (evalItems H) (items H fuel cs) (Scan.items Tree.hooks fuel cs)
  members : ∀ cs, Agrees (evalMembers H) (members H fuel cs) (Scan.members Tree.hooks fuel cs)

theorem Fused.value_succ {H : Hooks V} {fuel : Nat} (ih : Fused H fuel) (cs : Points) :
    Agrees (Tree.eval H) (Scan.value H (fuel + 1) cs) (Scan.value Tree.hooks (fuel + 1) cs) := by
  unfold Scan.value
  split
  · rename_i heq
    cases heq
  · split
    · apply Agrees.read
      rfl
    · exact .failed _ _ _
  · rename_i heq
    obtain rfl := Nat.succ.inj heq
    split
    · apply Agrees.read
      rfl
    · refine (ih.items _).bind ?_ ?_
      · intro vs ts rest hts
        refine .read ?_ rest
        show (evalItems H ts).map H.arr = _
        rw [hts]
        rfl
      · intro ts rest t rest' v ht hv
        cases ht
        obtain ⟨vs, hvs, -⟩ := map_ok hv
        exact ⟨vs, hvs⟩
  · rename_i heq
    obtain rfl := Nat.succ.inj heq
    split
    · exact Agrees.called (.obj []) rfl _
    · refine (ih.members _).bind ?_ ?_
      · intro vs ts rest hts
        refine Agrees.called (.obj ts) ?_ rest
        show evalMembers H ts >>= H.pairs = _
        rw [hts]
        rfl
      · intro ts rest t rest' v ht hv
        cases ht
        obtain ⟨vs, hvs, -⟩ := bind_ok hv
        exact ⟨vs, hvs⟩
  · split
    · rename_i word rest hword
      cases word with
      | null => exact Agrees.called (.literal .null) rfl rest
      | bool b => exact Agrees.called (.literal (.bool b)) rfl rest
      | constant name => exact Agrees.called (.literal (.constant name)) rfl rest
    · split
      · rename_i integral lexeme rest hnumber
        cases integral with
        | true => exact Agrees.called (.number true lexeme) rfl rest
        | false => exact Agrees.called (.number false lexeme) rfl rest
      · exact .failed _ _ _

theorem Fused.items_succ {H : Hooks V} {fuel : Nat} (ih : Fused H fuel) (cs : Points) :
    Agrees (evalItems H) (Scan.items H (fuel + 1) cs) (Scan.items Tree.hooks (fuel + 1) cs) := by
  unfold Scan.items
  refine (ih.value cs).bind ?_ ?_
  · intro v t rest ht
    dsimp only
    split
    · refine (ih.items _).bind ?_ ?_
      · intro later trees rest htrees
        exact .read (evalItems_cons.mpr ⟨v, later, ht, htrees, rfl⟩) rest
      · intro trees rest all rest' vs hall hvs
        cases hall
        obtain ⟨-, later, -, hlater, -⟩ := evalItems_cons.mp hvs
        exact ⟨later, hlater⟩
    · exact .read (evalItems_cons.mpr ⟨v, [], ht, rfl, rfl⟩) _
    · exact .failed _ _ _
  · intro t rest trees rest' vs htrees hvs
    have hfirst : ∃ later, trees = t :: later := by
      dsimp only at htrees
      split at htrees
      · obtain ⟨⟨later, mid⟩, -, h⟩ := bind_ok htrees
        cases h
        exact ⟨later, rfl⟩
      · cases htrees
        exact ⟨[], rfl⟩
      · cases htrees
    obtain ⟨later, rfl⟩ := hfirst
    obtain ⟨v, -, hv, -⟩ := evalItems_cons.mp hvs
    exact ⟨v, hv⟩

theorem Fused.members_succ {H : Hooks V} {fuel : Nat} (ih : Fused H fuel) (cs : Points) :
    Agrees (evalMembers H) (Scan.members H (fuel + 1) cs)
      (Scan.members Tree.hooks (fuel + 1) cs) := by
  unfold Scan.members
  split
  · rename_i heq
    cases heq
  · rename_i heq
    obtain rfl := Nat.succ.inj heq
    split
    · exact .failed _ _ _
    · rename_i name after hname
      split
      · refine (ih.value _).bind ?_ ?_
        · intro v t rest ht
          dsimp only
          split
          · refine (ih.members _).bind ?_ ?_
            · intro later trees rest htrees
              exact .read (evalMembers_cons.mpr ⟨v, later, ht, htrees, rfl⟩) rest
            · intro trees rest all rest' vs hall hvs
              cases hall
              obtain ⟨-, later, -, hlater, -⟩ := evalMembers_cons.mp hvs
              exact ⟨later, hlater⟩
          · exact .read (evalMembers_cons.mpr ⟨v, [], ht, rfl, rfl⟩) _
          · exact .failed _ _ _
        · intro t rest trees rest' vs htrees hvs
          have hfirst : ∃ later, trees = (name, t) :: later := by
            dsimp only at htrees
            split at htrees
            · obtain ⟨⟨later, mid⟩, -, h⟩ := bind_ok htrees
              cases h
              exact ⟨later, rfl⟩
            · cases htrees
              exact ⟨[], rfl⟩
            · cases htrees
          obtain ⟨later, rfl⟩ := hfirst
          obtain ⟨v, -, hv, -⟩ := evalMembers_cons.mp hvs
          exact ⟨v, hv⟩
      · exact .failed _ _ _
  · exact .failed _ _ _

theorem fused (H : Hooks V) (fuel : Nat) : Fused H fuel := by
  induction fuel with
  | zero =>
    constructor <;> intro cs
    · unfold Scan.value
      exact .failed _ _ _
    · unfold Scan.items
      exact .failed _ _ _
    · unfold Scan.members
      exact .failed _ _ _
  | succ fuel ih => exact ⟨ih.value_succ, ih.items_succ, ih.members_succ⟩

/-- Loading with hooks gives what the hooks give along the document. -/
theorem loads_ok_iff (H : Hooks V) (text : Points) (v : V) :
    loads H text = .ok v ↔ ∃ t, loads Tree.hooks text = .ok t ∧ t.eval H = .ok v := by
  unfold loads
  by_cases hmark : text.head? = some (.char (Char.ofNat 0xfeff))
  · simp only [if_pos hmark]
    simp
  · simp only [if_neg hmark]
    have hvalue := (fused H (2 * text.length + 2)).value (skipSpace text)
    constructor
    · intro h
      obtain ⟨⟨v', rest⟩, hv', h⟩ := bind_ok h
      dsimp only at h
      split_ifs at h with hrest
      cases h
      obtain ⟨t, ht, heval⟩ := (hvalue v rest).mp hv'
      exact ⟨t, bind_of_ok ht (if_pos hrest), heval⟩
    · rintro ⟨t, h, heval⟩
      obtain ⟨⟨t', rest⟩, ht', h⟩ := bind_ok h
      dsimp only at h
      split_ifs at h with hrest
      cases h
      exact bind_of_ok ((hvalue v rest).mpr ⟨t, ht', heval⟩) (if_pos hrest)

/-! ## Reading what was written -/

/-- A string of characters, quoted. -/
def quoted (cs : List Char) : List Char := '"' :: cs.flatMap escapePlain ++ ['"']

/-- The text of a word. -/
def Literal.text : Literal → List Char
  | .null => "null".toList
  | .bool true => "true".toList
  | .bool false => "false".toList
  | .constant name => name.toList

/-- The characters of a text without surrogates. -/
def charsOf (text : Points) : List Char := (scalars text).getD []

mutual

/-- The text of a tree, without blanks. -/
def Tree.text : Tree → List Char
  | .literal word => word.text
  | .str s => quoted (charsOf s)
  | .number _ lexeme => lexeme
  | .arr items => '[' :: joinTexts (itemTexts items) ++ [']']
  | .obj members => '\x7b' :: joinTexts (memberTexts members) ++ ['\x7d']

def itemTexts : List Tree → List (List Char)
  | [] => []
  | t :: rest => t.text :: itemTexts rest

def memberTexts : List (Points × Tree) → List (List Char)
  | [] => []
  | (name, t) :: rest => (quoted (charsOf name) ++ ':' :: t.text) :: memberTexts rest

end

/-- A tree that its text gives back. -/
inductive Written : Tree → Prop
  | null : Written (.literal .null)
  | bool (b : Bool) : Written (.literal (.bool b))
  | str (cs : List Char) : Written (.str (points cs))
  | int (n : Int) : Written (.number true (toString n).toList)
  | arr {items : List Tree} (h : ∀ t ∈ items, Written t) : Written (.arr items)
  | obj {members : List (Points × Tree)} (hnames : ∀ m ∈ members, ∃ cs, m.1 = points cs)
      (h : ∀ m ∈ members, Written m.2) : Written (.obj members)

theorem itemTexts_eq_map (items : List Tree) : itemTexts items = items.map Tree.text := by
  induction items with
  | nil => rfl
  | cons t rest ih =>
    unfold itemTexts
    rw [ih, List.map_cons]

/-- The text of one member. -/
def memberText (m : Points × Tree) : List Char := quoted (charsOf m.1) ++ ':' :: m.2.text

theorem memberTexts_eq_map (members : List (Points × Tree)) :
    memberTexts members = members.map memberText := by
  induction members with
  | nil => rfl
  | cons m rest ih =>
    obtain ⟨name, t⟩ := m
    unfold memberTexts
    rw [ih, List.map_cons]
    rfl

@[simp] theorem charsOf_points (cs : List Char) : charsOf (points cs) = cs := by
  unfold charsOf
  rw [scalars_points]
  rfl

@[simp] theorem points_nil : points [] = [] := rfl

@[simp] theorem points_cons (c : Char) (cs : List Char) : points (c :: cs) = .char c :: points cs :=
  rfl

@[simp] theorem points_append (cs ds : List Char) : points (cs ++ ds) = points cs ++ points ds :=
  List.map_append

@[simp] theorem length_points (cs : List Char) : (points cs).length = cs.length := List.length_map _

/-- Reading undoes the escape of one character. -/
theorem string_escapePlain (c : Char) (fuel : Nat) (rest : Points) :
    string (fuel + 1) (points (escapePlain c) ++ rest) = before (.char c) (string fuel rest) := by
  have hchar : ∀ d : Char, c.toNat = d.toNat → c = d := fun d h => Char.toNat_inj.mp h
  unfold escapePlain
  dsimp only
  split_ifs with h34 h92 h10 h13 h9 h12 h8 hcontrol
  · rw [hchar '"' h34]
    rfl
  · rw [hchar '\\' h92]
    rfl
  · rw [hchar '\n' h10]
    rfl
  · rw [hchar '\r' h13]
    rfl
  · rw [hchar '\t' h9]
    rfl
  · rw [hchar '\x0c' h12]
    rfl
  · rw [hchar '\x08' h8]
    rfl
  · show (((scalars (points [hexDigit (c.toNat / 4096 % 16), hexDigit (c.toNat / 256 % 16),
      hexDigit (c.toNat / 16 % 16), hexDigit (c.toNat % 16)])).bind hexCode) >>= _) = _
    rw [scalars_points, Option.bind_some, hexCode_digits (by omega), Option.bind_eq_bind,
      Option.bind_some, if_neg (by omega)]
    have hchr : chr c.toNat = .char c := by
      unfold chr
      rw [dif_neg (by omega), Char.ofNat_toNat]
    rw [hchr]
    rfl
  · have hquote : c ≠ '"' := fun h => h34 (by rw [h]; rfl)
    have hslash : c ≠ '\\' := fun h => h92 (by rw [h]; rfl)
    show string (fuel + 1) (.char c :: rest) = _
    rw [string, if_neg hcontrol]
    · exact hquote
    · exact fun _ _ _ _ _ _ h => hslash h
    · exact fun _ _ _ h => hslash h
    · exact hslash

theorem string_quoted (cs : List Char) {fuel : Nat} (hfuel : cs.length < fuel) (rest : Points) :
    string fuel (points (cs.flatMap escapePlain) ++ .char '"' :: rest) = some (points cs, rest) := by
  induction cs generalizing fuel with
  | nil =>
    obtain ⟨fuel, rfl⟩ := Nat.exists_eq_add_of_lt hfuel
    rfl
  | cons c cs ih =>
    obtain ⟨fuel, rfl⟩ : ∃ n, fuel = n + 1 := ⟨fuel - 1, by simp at hfuel; omega⟩
    rw [List.flatMap_cons, points_append, List.append_assoc, string_escapePlain, ih]
    · rfl
    · simpa using hfuel

/-! ### Numbers -/

/-- What may follow a value inside a text. -/
def Delimits (rest : Points) : Prop :=
  ∀ c, rest.head? = some c → c = .char ',' ∨ c = .char ']' ∨ c = .char '\x7d'

theorem delimits_cons {c : Char} (h : c = ',' ∨ c = ']' ∨ c = '\x7d') (tail : Points) :
    Delimits (.char c :: tail) := by
  intro d hd
  cases hd
  rcases h with rfl | rfl | rfl <;> simp

theorem digits_append {ds : List Char} (hds : ∀ c ∈ ds, c.isDigit = true) {rest : Points}
    (h : Delimits rest) : digits (points ds ++ rest) = (ds, rest) := by
  induction ds with
  | nil =>
    cases rest with
    | nil => rfl
    | cons c tail => rcases h c rfl with rfl | rfl | rfl <;> rfl
  | cons c ds ih =>
    have htail := ih fun d hd => hds d (List.mem_cons_of_mem _ hd)
    rw [points_cons, List.cons_append, digits, if_pos (hds c List.mem_cons_self), htail]

theorem whole_toDigits (n : Nat) {rest : Points} (h : Delimits rest) :
    whole (points (Nat.toDigits 10 n) ++ rest) = (Nat.toDigits 10 n, rest) := by
  have hdigits : ∀ c ∈ Nat.toDigits 10 n, c.isDigit = true := fun c hc =>
    Nat.isDigit_of_mem_toDigits (by decide) (by decide) hc
  unfold whole
  split
  · -- the number is zero
    rename_i rest' heq
    cases hlist : Nat.toDigits 10 n with
    | nil => exact absurd hlist Nat.toDigits_ne_nil
    | cons c tail =>
      rw [hlist, points_cons, List.cons_append] at heq
      obtain ⟨hc, htail⟩ := List.cons.inj heq
      cases hc
      have hzero := toDigits_zero_cons hlist
      subst hzero
      have hempty : tail = [] := (List.cons.inj (hlist.symm.trans (Nat.toDigits_zero 10))).2
      subst hempty
      rw [← htail]
      rfl
  · exact digits_append hdigits h

theorem Delimits.fraction {rest : Points} (h : Delimits rest) : fraction rest = ([], rest) := by
  cases rest with
  | nil => rfl
  | cons c tail => rcases h c rfl with rfl | rfl | rfl <;> rfl

theorem Delimits.exponent {rest : Points} (h : Delimits rest) : exponent rest = ([], rest) := by
  cases rest with
  | nil => rfl
  | cons c tail =>
    obtain ⟨d, rfl, hd⟩ : ∃ d, c = .char d ∧ ¬ (d = 'e' ∨ d = 'E') := by
      rcases h c rfl with rfl | rfl | rfl <;> exact ⟨_, rfl, by decide⟩
    unfold Scan.exponent
    dsimp only
    rw [if_neg]
    rintro ⟨he, -⟩
    exact hd he

/-- The digits of an integer after its sign. -/
theorem toList_int (n : Int) : (toString n).toList =
    if n < 0 then '-' :: Nat.toDigits 10 n.natAbs else Nat.toDigits 10 n.natAbs := by
  rw [Int.toString_eq_repr, Int.repr_eq_if]
  split_ifs with hle hneg hneg
  · omega
  · rw [Nat.toList_repr, show n.toNat = n.natAbs by omega]
  · rw [String.toList_append, Nat.toList_repr, show (-n).toNat = n.natAbs by omega]
    rfl
  · omega

theorem sign_digit {c : Char} (hc : c.isDigit = true) (tail : Points) :
    sign (.char c :: tail) = ([], .char c :: tail) := by
  unfold sign
  split
  · rename_i heq
    cases heq
    exact absurd hc (by decide)
  · rfl

theorem number_int (n : Int) {rest : Points} (h : Delimits rest) :
    number (points (toString n).toList ++ rest) = some (true, (toString n).toList, rest) := by
  have hne : Nat.toDigits 10 n.natAbs ≠ [] := Nat.toDigits_ne_nil
  have hsign : sign (points (toString n).toList ++ rest) =
      (if n < 0 then ['-'] else [], points (Nat.toDigits 10 n.natAbs) ++ rest) := by
    rw [toList_int]
    split_ifs
    · rfl
    · obtain ⟨c, tail, hdigits, hc⟩ := head_toDigits n.natAbs
      rw [hdigits]
      exact sign_digit hc _
  unfold number
  rw [hsign]
  dsimp only
  rw [whole_toDigits _ h]
  dsimp only
  rw [h.fraction]
  dsimp only
  rw [h.exponent]
  dsimp only
  rw [if_neg hne, toList_int]
  split_ifs <;> simp

theorem value_digit (H : Hooks V) (fuel : Nat) {c : Char} (hc : c.isDigit = true) (tail : Points) :
    value H (fuel + 1) (.char c :: tail) =
      match number (.char c :: tail) with
      | some (integral, lexeme, rest) => called (H.number integral lexeme) rest
      | none => .error .decode := by
  obtain ⟨d, hd, rfl⟩ := eq_digit hc
  interval_cases d <;> rfl

theorem value_minus (H : Hooks V) (fuel : Nat) {c : Char} (hc : c.isDigit = true) (tail : Points) :
    value H (fuel + 1) (.char '-' :: .char c :: tail) =
      match number (.char '-' :: .char c :: tail) with
      | some (integral, lexeme, rest) => called (H.number integral lexeme) rest
      | none => .error .decode := by
  obtain ⟨d, hd, rfl⟩ := eq_digit hc
  interval_cases d <;> rfl

theorem value_int (H : Hooks V) (fuel : Nat) (n : Int) {rest : Points} (h : Delimits rest) :
    value H (fuel + 1) (points (toString n).toList ++ rest) =
      called (H.parseInt (toString n).toList) rest := by
  have hnumber := number_int n h
  obtain ⟨c, tail, hdigits, hc⟩ := head_toDigits n.natAbs
  have htext := toList_int n
  rw [hdigits] at htext
  split_ifs at htext with hsign
  · rw [htext] at hnumber ⊢
    have hvalue := value_minus H fuel hc (points tail ++ rest)
    simp only [points_cons, List.cons_append] at hnumber ⊢
    rw [hvalue, hnumber]
    rfl
  · rw [htext] at hnumber ⊢
    have hvalue := value_digit H fuel hc (points tail ++ rest)
    simp only [points_cons, List.cons_append] at hnumber ⊢
    rw [hvalue, hnumber]
    rfl

/-! ### Trees -/

theorem skipSpace_cons {c : Char} (h : Opens c) (tail : Points) :
    skipSpace (.char c :: tail) = .char c :: tail := by
  unfold skipSpace
  rw [List.dropWhile_cons_of_neg]
  simp only [Bool.or_eq_true, decide_eq_true_eq, CodePoint.char.injEq]
  rintro (((rfl | rfl) | rfl) | rfl)
  all_goals exact h (by decide)

/-- Every written tree opens with such a character of ASCII. -/
theorem text_head {t : Tree} (h : Written t) :
    ∃ c tail, t.text = c :: tail ∧ Opens c ∧ c.toNat < 128 := by
  cases h with
  | null => exact ⟨'n', _, rfl, by decide⟩
  | bool b => cases b <;> exact ⟨_, _, rfl, by decide⟩
  | str cs => exact ⟨'"', _, rfl, by decide⟩
  | arr h => exact ⟨'[', _, rfl, by decide⟩
  | obj hnames h => exact ⟨'\x7b', _, rfl, by decide⟩
  | int n =>
    obtain ⟨c, tail, hdigits, hc⟩ := head_toDigits n.natAbs
    show ∃ c tail, (toString n).toList = c :: tail ∧ Opens c ∧ c.toNat < 128
    rw [toList_int, hdigits]
    split_ifs
    · exact ⟨'-', _, rfl, by decide⟩
    · refine ⟨c, tail, rfl, ?_⟩
      obtain ⟨d, hd, rfl⟩ := eq_digit hc
      interval_cases d <;> decide

/-- What reading a tree's text gives. -/
def ReadBack (t : Tree) : Prop :=
  ∀ fuel rest, 2 * t.text.length ≤ fuel → Delimits rest →
    value Tree.hooks fuel (points t.text ++ rest) = .ok (t, rest)

theorem items_joinTexts {ts : List Tree} (hne : ts ≠ []) (hwritten : ∀ t ∈ ts, Written t)
    (hread : ∀ t ∈ ts, ReadBack t) {fuel : Nat} {rest : Points}
    (hfuel : 2 * ((joinTexts (ts.map Tree.text)).length + 1) ≤ fuel) :
    items Tree.hooks fuel (points (joinTexts (ts.map Tree.text)) ++ .char ']' :: rest) =
      .ok (ts, rest) := by
  induction ts generalizing fuel with
  | nil => exact absurd rfl hne
  | cons t later ih =>
    obtain ⟨fuel, rfl⟩ : ∃ n, fuel = n + 1 := ⟨fuel - 1, by omega⟩
    have ht := hread t List.mem_cons_self
    cases later with
    | nil =>
      simp only [List.map_cons, List.map_nil, joinTexts] at hfuel ⊢
      unfold items
      rw [ht fuel _ (by omega) (delimits_cons (by decide) rest)]
      rfl
    | cons u later =>
      obtain ⟨c, tail, htext, hopens, -⟩ := text_head (hwritten u (by simp))
      obtain ⟨tail, hjoin⟩ := joinTexts_head htext (later.map Tree.text)
      have hnext := @ih (by simp) (fun x hx => hwritten x (List.mem_cons_of_mem _ hx))
        (fun x hx => hread x (List.mem_cons_of_mem _ hx)) fuel
      rw [List.map_cons, hjoin] at hnext
      rw [List.map_cons, List.map_cons, joinTexts_cons_cons, hjoin] at hfuel ⊢
      simp only [List.length_append, List.length_cons] at hfuel hnext
      rw [points_append, List.append_assoc]
      unfold items
      rw [points_cons, List.cons_append, ht fuel _ (by omega) (delimits_cons (by decide) _)]
      show (items Tree.hooks fuel (skipSpace (.char c :: (points tail ++ .char ']' :: rest))) >>= _) = _
      rw [skipSpace_cons hopens]
      have hlater := hnext (by omega)
      rw [points_cons, List.cons_append] at hlater
      rw [hlater]
      rfl

/-- One member is read, whatever comes after it. -/
theorem members_member {cs : List Char} {t : Tree} (ht : ReadBack t) (hwritten : Written t)
    {fuel : Nat} (hfuel : 2 * (memberText (points cs, t)).length ≤ fuel + 1) {d : Char}
    (hd : d = ',' ∨ d = '\x7d') (next : Points) :
    members Tree.hooks (fuel + 1) (points (memberText (points cs, t)) ++ .char d :: next) =
      if d = ',' then (members Tree.hooks fuel (skipSpace next)).map fun read =>
        ((points cs, t) :: read.1, read.2)
      else .ok ([(points cs, t)], next) := by
  obtain ⟨c, tail, htext, hopens, -⟩ := text_head hwritten
  have hlength := length_le_escaped cs
  have hmember : points (memberText (points cs, t)) ++ .char d :: next = .char '"' ::
      (points (cs.flatMap escapePlain) ++ .char '"' :: .char ':' :: (points t.text ++ .char d :: next)) := by
    simp [memberText, quoted]
  have hsize : (memberText (points cs, t)).length =
      (cs.flatMap escapePlain).length + t.text.length + 3 := by
    simp only [memberText, quoted, charsOf_points, List.length_append, List.length_cons,
      List.length_nil]
    omega
  have hvalue : skipSpace (points t.text ++ .char d :: next) = points t.text ++ .char d :: next := by
    rw [htext, points_cons, List.cons_append, skipSpace_cons hopens]
  have hdelimits : Delimits (.char d :: next) := by
    apply delimits_cons
    rcases hd with rfl | rfl <;> decide
  rw [hmember, members, string_quoted cs (by omega)]
  show (value Tree.hooks fuel (skipSpace (points t.text ++ .char d :: next)) >>= _) = _
  rw [hvalue, ht fuel _ (by omega) hdelimits]
  rcases hd with rfl | rfl
  · show (members Tree.hooks fuel (skipSpace next) >>= _) = _
    cases members Tree.hooks fuel (skipSpace next) <;> rfl
  · rfl

theorem members_joinTexts {ms : List (Points × Tree)} (hne : ms ≠ [])
    (hnames : ∀ m ∈ ms, ∃ cs, m.1 = points cs) (hwritten : ∀ m ∈ ms, Written m.2)
    (hread : ∀ m ∈ ms, ReadBack m.2) {fuel : Nat} {rest : Points}
    (hfuel : 2 * ((joinTexts (ms.map memberText)).length + 1) ≤ fuel) :
    members Tree.hooks fuel (points (joinTexts (ms.map memberText)) ++ .char '\x7d' :: rest) =
      .ok (ms, rest) := by
  induction ms generalizing fuel with
  | nil => exact absurd rfl hne
  | cons m later ih =>
    obtain ⟨name, t⟩ := m
    obtain ⟨cs, rfl⟩ : ∃ cs, name = points cs := hnames (name, t) List.mem_cons_self
    obtain ⟨fuel, rfl⟩ : ∃ n, fuel = n + 1 := ⟨fuel - 1, by omega⟩
    have ht : ReadBack t := hread (_, t) List.mem_cons_self
    have hw : Written t := hwritten (_, t) List.mem_cons_self
    cases later with
    | nil =>
      simp only [List.map_cons, List.map_nil, joinTexts] at hfuel ⊢
      rw [members_member ht hw (by omega) (.inr rfl), if_neg (by decide)]
    | cons n later =>
      obtain ⟨tail, hjoin⟩ := @joinTexts_head (memberText n) '"' _ rfl (later.map memberText)
      have hnext := @ih (by simp) (fun x hx => hnames x (List.mem_cons_of_mem _ hx))
        (fun x hx => hwritten x (List.mem_cons_of_mem _ hx))
        (fun x hx => hread x (List.mem_cons_of_mem _ hx)) fuel
      rw [List.map_cons, hjoin] at hnext
      rw [List.map_cons, List.map_cons, joinTexts_cons_cons, hjoin] at hfuel ⊢
      simp only [List.length_append, List.length_cons] at hfuel hnext
      have hlater := hnext (by omega)
      rw [points_cons, List.cons_append] at hlater
      rw [points_append, List.append_assoc, points_cons, List.cons_append,
        members_member ht hw (by omega) (.inl rfl), if_pos rfl, points_cons, List.cons_append,
        skipSpace_cons (by decide), hlater]
      rfl

theorem readBack_of_written {t : Tree} (h : Written t) : ReadBack t := by
  induction h with
  | null =>
    intro fuel rest hfuel _
    obtain ⟨fuel, rfl⟩ : ∃ n, fuel = n + 1 := ⟨fuel - 1, by
      simp [Tree.text, Literal.text] at hfuel
      omega⟩
    rfl
  | bool b =>
    intro fuel rest hfuel _
    obtain ⟨fuel, rfl⟩ : ∃ n, fuel = n + 1 := ⟨fuel - 1, by
      cases b <;> simp [Tree.text, Literal.text] at hfuel <;> omega⟩
    cases b <;> rfl
  | int n =>
    intro fuel rest hfuel hrest
    obtain ⟨c, tail, htext, -⟩ := text_head (Written.int n)
    rw [htext, List.length_cons] at hfuel
    obtain ⟨fuel, rfl⟩ : ∃ n, fuel = n + 1 := ⟨fuel - 1, by omega⟩
    exact value_int Tree.hooks fuel n hrest
  | str cs =>
    intro fuel rest hfuel _
    have hlength := length_le_escaped cs
    simp only [Tree.text, quoted, charsOf_points, List.length_cons, List.length_append] at hfuel
    obtain ⟨fuel, rfl⟩ : ∃ n, fuel = n + 1 := ⟨fuel - 1, by omega⟩
    have htext : points (Tree.str (points cs)).text ++ rest =
        .char '"' :: (points (cs.flatMap escapePlain) ++ .char '"' :: rest) := by
      simp [Tree.text, quoted]
    rw [htext, value, string_quoted cs (by omega)]
    rfl
  | @arr ts h ih =>
    intro fuel rest hfuel _
    simp only [Tree.text, itemTexts_eq_map, List.length_cons, List.length_append] at hfuel ⊢
    obtain ⟨fuel, rfl⟩ : ∃ n, fuel = n + 1 := ⟨fuel - 1, by omega⟩
    cases ts with
    | nil => rfl
    | cons t later =>
      obtain ⟨c, tail, htext, hopens, -⟩ := text_head (h t List.mem_cons_self)
      obtain ⟨tail, hjoin⟩ := joinTexts_head htext (later.map Tree.text)
      have hitems := @items_joinTexts _ (by simp) h ih fuel rest
      rw [List.map_cons, hjoin] at hitems hfuel
      simp only [List.length_cons, List.length_nil] at hfuel hitems
      have hread := hitems (by omega)
      rw [points_cons, List.cons_append] at hread
      rw [List.map_cons, hjoin]
      have htext : points ('[' :: c :: tail ++ [']']) ++ rest =
          .char '[' :: .char c :: (points tail ++ .char ']' :: rest) := by simp
      rw [htext, value, skipSpace_cons hopens]
      split
      · rename_i heq
        have hc := CodePoint.char.inj (List.cons.inj heq).1
        exact absurd hc fun hc => hopens (by rw [hc]; decide)
      · rw [hread]
        rfl
  | @obj ms hnames h ih =>
    intro fuel rest hfuel _
    simp only [Tree.text, memberTexts_eq_map, List.length_cons, List.length_append] at hfuel ⊢
    obtain ⟨fuel, rfl⟩ : ∃ n, fuel = n + 1 := ⟨fuel - 1, by omega⟩
    cases ms with
    | nil => rfl
    | cons m later =>
      obtain ⟨tail, hjoin⟩ := @joinTexts_head (memberText m) '"' _ rfl (later.map memberText)
      have hmembers := @members_joinTexts _ (by simp) hnames h ih fuel rest
      rw [List.map_cons, hjoin] at hmembers hfuel
      simp only [List.length_cons, List.length_nil] at hfuel hmembers
      have hread := hmembers (by omega)
      rw [points_cons, List.cons_append] at hread
      rw [List.map_cons, hjoin]
      have htext : points ('\x7b' :: '"' :: tail ++ ['\x7d']) ++ rest =
          .char '\x7b' :: .char '"' :: (points tail ++ .char '\x7d' :: rest) := by simp
      rw [htext, value, skipSpace_cons (by decide)]
      show (members Tree.hooks fuel (.char '"' :: (points tail ++ .char '\x7d' :: rest)) >>= _) = _
      rw [hread]
      rfl

theorem loads_text {t : Tree} (h : Written t) : loads Tree.hooks (points t.text) = .ok t := by
  obtain ⟨c, tail, htext, hopens, hascii⟩ := text_head h
  have hread := readBack_of_written h (2 * (points t.text).length + 2) []
    (by rw [length_points]; omega) (by simp [Delimits])
  rw [List.append_nil] at hread
  have hskip : skipSpace (points t.text) = points t.text := by
    rw [htext, points_cons, skipSpace_cons hopens]
  have hmark : (points t.text).head? ≠ some (.char (Char.ofNat 0xfeff)) := by
    rw [htext]
    intro heq
    rw [CodePoint.char.inj (Option.some.inj heq)] at hascii
    exact absurd hascii (by decide)
  unfold loads
  rw [if_neg hmark, hskip, hread]
  rfl

end Scan

end Py
