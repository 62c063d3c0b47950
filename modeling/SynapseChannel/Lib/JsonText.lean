import SynapseChannel.Lib.Digest
import SynapseChannel.Lib.Sorted

/-!
# Lib — JsonText

`json.dumps` with `ensure_ascii=True`, `sort_keys=True` and
`separators=(",", ":")`: the one text of a value whose objects are read
as mappings.
-/

namespace Py

/-- `\uXXXX`. -/
def unicodeEscape (n : Nat) : List Char :=
  ['\\', 'u', hexDigit (n / 4096 % 16), hexDigit (n / 256 % 16), hexDigit (n / 16 % 16),
    hexDigit (n % 16)]

/-- One code point inside a JSON string; one beyond the basic plane is
written as its surrogate pair. -/
def escapeChar (c : Char) : List Char :=
  let n := c.toNat
  if n = 34 then ['\\', '"']
  else if n = 92 then ['\\', '\\']
  else if n = 10 then ['\\', 'n']
  else if n = 13 then ['\\', 'r']
  else if n = 9 then ['\\', 't']
  else if n = 12 then ['\\', 'f']
  else if n = 8 then ['\\', 'b']
  else if 32 ≤ n ∧ n ≤ 126 then [c]
  else if n < 0x10000 then unicodeEscape n
  else
    let m := n - 0x10000
    unicodeEscape (0xd800 + m / 1024) ++ unicodeEscape (0xdc00 + m % 1024)

def quote (s : String) : String := String.ofList ('"' :: s.toList.flatMap escapeChar ++ ['"'])

/-- A float; the three that are not finite have names. -/
def floatText [Builtins] (x : Float) : String :=
  if x.isFinite then Builtins.repr (.float x)
  else if x.isNaN then "NaN"
  else if 0 < x then "Infinity"
  else "-Infinity"

mutual

/-- Whether a value holds a number that JSON cannot write. -/
def hasNonFinite : Json → Bool
  | .float x => !x.isFinite
  | .arr items => itemsNonFinite items
  | .obj members => membersNonFinite members
  | _ => false

def itemsNonFinite : List Json → Bool
  | [] => false
  | v :: rest => hasNonFinite v || itemsNonFinite rest

def membersNonFinite : List (String × Json) → Bool
  | [] => false
  | (_, v) :: rest => hasNonFinite v || membersNonFinite rest

end

mutual

/-- `json.dumps(value, ensure_ascii=True, sort_keys=True, separators=(",", ":"))`. -/
def dumps [Builtins] : Json → String
  | .null => "null"
  | .bool true => "true"
  | .bool false => "false"
  | .int n => toString n
  | .float x => floatText x
  | .str s => quote s
  | .arr items => "[" ++ join "," (dumpsItems items) ++ "]"
  | .obj members =>
    let texts := sortedBy (fun a b => decide (a < b)) Prod.fst (dumpsMembers members)
    "\x7b" ++ join "," (texts.map fun m => quote m.1 ++ ":" ++ m.2) ++ "\x7d"

def dumpsItems [Builtins] : List Json → List String
  | [] => []
  | v :: rest => dumps v :: dumpsItems rest

def dumpsMembers [Builtins] : List (String × Json) → List (String × String)
  | [] => []
  | (name, v) :: rest => (name, dumps v) :: dumpsMembers rest

end

/-! ## Reading a string back -/

/-- The number that four hexadecimal digits spell. -/
def hexNumber (a b c d : Char) : Nat :=
  let digit (c : Char) := (hexValue c).getD 0
  ((digit a * 16 + digit b) * 16 + digit c) * 16 + digit d

/-- After `\u`: a code point, or a surrogate and the one that follows it. -/
def readUnicode : List Char → Nat × List Char
  | a :: b :: c :: d :: rest =>
    let n := hexNumber a b c d
    if 0xd800 ≤ n ∧ n < 0xdc00 then
      match rest with
      | _ :: _ :: a :: b :: c :: d :: rest =>
        (0x10000 + (n - 0xd800) * 1024 + (hexNumber a b c d - 0xdc00), rest)
      | rest => (n, rest)
    else (n, rest)
  | rest => (0, rest)

/-- The code point after a backslash. -/
def escaped (c : Char) : Nat :=
  if c = 'n' then 10 else if c = 'r' then 13 else if c = 't' then 9
  else if c = 'f' then 12 else if c = 'b' then 8 else c.toNat

/-- The first code point of the text inside a JSON string. -/
def readChar : List Char → Nat × List Char
  | '\\' :: c :: rest => if c = 'u' then readUnicode rest else (escaped c, rest)
  | c :: rest => (c.toNat, rest)
  | [] => (0, [])

theorem hexNumber_digits {n : Nat} (h : n < 65536) :
    hexNumber (hexDigit (n / 4096 % 16)) (hexDigit (n / 256 % 16)) (hexDigit (n / 16 % 16))
      (hexDigit (n % 16)) = n := by
  have hdigit : ∀ k, (hexValue (hexDigit (k % 16))).getD 0 = k % 16 := by
    intro k
    rw [(hexDigit_spec (k % 16) (by omega)).1]
    rfl
  simp only [hexNumber, hdigit]
  omega

theorem readChar_unicodeEscape {n : Nat} (h : n < 65536) (hlow : n < 0xd800 ∨ 0xdc00 ≤ n)
    (rest : List Char) : readChar (unicodeEscape n ++ rest) = (n, rest) := by
  show readUnicode (hexDigit (n / 4096 % 16) :: hexDigit (n / 256 % 16) ::
    hexDigit (n / 16 % 16) :: hexDigit (n % 16) :: rest) = (n, rest)
  unfold readUnicode
  dsimp only
  rw [hexNumber_digits h, if_neg (by omega)]

theorem readChar_surrogates {high low : Nat} (hhigh : 0xd800 ≤ high ∧ high < 0xdc00)
    (hlow : low < 65536) (rest : List Char) :
    readChar (unicodeEscape high ++ unicodeEscape low ++ rest) =
      (0x10000 + (high - 0xd800) * 1024 + (low - 0xdc00), rest) := by
  rw [List.append_assoc]
  show readUnicode (hexDigit (high / 4096 % 16) :: hexDigit (high / 256 % 16) ::
    hexDigit (high / 16 % 16) :: hexDigit (high % 16) :: (unicodeEscape low ++ rest)) = _
  unfold readUnicode
  dsimp only
  rw [hexNumber_digits (by omega), if_pos hhigh]
  dsimp only [unicodeEscape, List.cons_append, List.nil_append]
  rw [hexNumber_digits hlow]

theorem readChar_escapeChar (c : Char) (rest : List Char) :
    readChar (escapeChar c ++ rest) = (c.toNat, rest) := by
  have hvalid : c.toNat < 0xd800 ∨ 0xdfff < c.toNat ∧ c.toNat < 0x110000 := c.valid
  unfold escapeChar
  dsimp only
  split_ifs with h34 h92 h10 h13 h9 h12 h8 hplain hbasic
  · rw [h34]; rfl
  · rw [h92]; rfl
  · rw [h10]; rfl
  · rw [h13]; rfl
  · rw [h9]; rfl
  · rw [h12]; rfl
  · rw [h8]; rfl
  · have hslash : c ≠ '\\' := fun heq => h92 (by rw [heq]; rfl)
    unfold readChar
    split
    · rename_i heq
      exact absurd (List.cons.inj heq).1 hslash
    · rename_i heq
      rw [← (List.cons.inj heq).1, ← (List.cons.inj heq).2]
      rfl
    · rename_i heq
      cases heq
  · exact readChar_unicodeEscape hbasic (by omega) rest
  · rw [readChar_surrogates (by omega) (by omega)]
    have hsum : 0x10000 + (0xd800 + (c.toNat - 0x10000) / 1024 - 0xd800) * 1024 +
        (0xdc00 + (c.toNat - 0x10000) % 1024 - 0xdc00) = c.toNat := by omega
    rw [hsum]

theorem head_escapeChar (c : Char) : ∃ d ds, escapeChar c = d :: ds ∧ d ≠ '"' := by
  unfold escapeChar
  dsimp only
  split_ifs with h34
  all_goals first
    | exact ⟨_, _, rfl, by decide⟩
    | exact ⟨c, [], rfl, fun heq => h34 (by rw [heq]; rfl)⟩

theorem quoted_inj {cs cs' rest rest' : List Char}
    (h : cs.flatMap escapeChar ++ '"' :: rest = cs'.flatMap escapeChar ++ '"' :: rest') :
    cs = cs' ∧ rest = rest' := by
  induction cs generalizing cs' with
  | nil =>
    cases cs' with
    | nil => exact ⟨rfl, (List.cons.inj h).2⟩
    | cons c' cs' =>
      obtain ⟨d, ds, hd, hne⟩ := head_escapeChar c'
      rw [List.flatMap_cons, hd] at h
      exact absurd (List.cons.inj h).1.symm hne
  | cons c cs ih =>
    cases cs' with
    | nil =>
      obtain ⟨d, ds, hd, hne⟩ := head_escapeChar c
      rw [List.flatMap_cons, hd] at h
      exact absurd (List.cons.inj h).1 hne
    | cons c' cs' =>
      rw [List.flatMap_cons, List.flatMap_cons, List.append_assoc, List.append_assoc] at h
      have hread := congrArg readChar h
      rw [readChar_escapeChar, readChar_escapeChar] at hread
      obtain ⟨hc, hrest⟩ := Prod.mk.inj hread
      obtain ⟨rfl, rfl⟩ := ih hrest
      exact ⟨congrArg (· :: cs) (Char.toNat_inj.mp hc), rfl⟩

theorem quote_append_inj {s t : String} {rest rest' : List Char}
    (h : (quote s).toList ++ rest = (quote t).toList ++ rest') : s = t ∧ rest = rest' := by
  unfold quote at h
  rw [String.toList_ofList, String.toList_ofList, List.append_assoc, List.append_assoc] at h
  obtain ⟨hchars, hrest⟩ := quoted_inj (List.cons.inj h).2
  exact ⟨String.toList_inj.mp hchars, hrest⟩

/-! ## Objects of scalars -/

/-- A text, an integer or a truth value. -/
def Scalar : Json → Prop
  | .str _ | .int _ | .bool _ => True
  | _ => False

/-- What may follow a member of an object. -/
def Ends (rest : List Char) : Prop := ∃ c tail, rest = c :: tail ∧ (c = ',' ∨ c = '\x7d')

def isNumberChar (c : Char) : Bool := c.isDigit || c == '-'

theorem all_digits (n : Nat) : ∀ c ∈ n.repr.toList, c.isDigit = true := by
  intro c hc
  rw [Nat.toList_repr] at hc
  exact Nat.isDigit_of_mem_toDigits (by decide) (by decide) hc

theorem repr_inj {m n : Nat} (h : m.repr = n.repr) : m = n := by
  have hlist := congrArg String.toList h
  rw [Nat.toList_repr, Nat.toList_repr] at hlist
  rw [← Nat.ofDigitChars_ten_toDigits (n := m), hlist, Nat.ofDigitChars_ten_toDigits]

theorem sign_inj {m n : Nat} (h : m.repr = "-" ++ n.repr) : False := by
  have hmem : '-' ∈ m.repr.toList := by
    rw [h, String.toList_append]
    exact List.mem_append_left _ (by decide)
  exact absurd (all_digits m '-' hmem) (by decide)

theorem toString_int_inj {m n : Int} (h : toString m = toString n) : m = n := by
  rw [Int.toString_eq_repr, Int.toString_eq_repr, Int.repr_eq_if, Int.repr_eq_if] at h
  split_ifs at h
  · have := repr_inj h
    omega
  · exact absurd h sign_inj
  · exact absurd h.symm sign_inj
  · have := repr_inj (String.append_right_inj _ |>.mp h)
    omega

theorem all_numberChar (n : Int) : ∀ c ∈ (toString n).toList, isNumberChar c = true := by
  intro c hc
  unfold isNumberChar
  rw [Int.toString_eq_repr, Int.repr_eq_if] at hc
  split_ifs at hc
  · rw [all_digits _ c hc, Bool.true_or]
  · rw [String.toList_append] at hc
    rcases List.mem_append.mp hc with hc | hc
    · rw [List.mem_singleton.mp hc]
      decide
    · rw [all_digits _ c hc, Bool.true_or]

theorem head_int (n : Int) : ∃ c tail, (toString n).toList = c :: tail ∧ isNumberChar c = true := by
  cases hlist : (toString n).toList with
  | nil =>
    rw [Int.toString_eq_repr, Int.repr_eq_if] at hlist
    split_ifs at hlist
    · rw [Nat.toList_repr] at hlist
      exact absurd hlist Nat.toDigits_ne_nil
    · rw [String.toList_append] at hlist
      cases (List.append_eq_nil_iff.mp hlist).1
  | cons c tail => exact ⟨c, tail, rfl, all_numberChar n c (by rw [hlist]; exact List.mem_cons_self)⟩

theorem Ends.takeWhile {rest : List Char} (h : Ends rest) : rest.takeWhile isNumberChar = [] := by
  obtain ⟨c, tail, rfl, rfl | rfl⟩ := h <;> rfl

theorem int_append_inj {m n : Int} {rest rest' : List Char} (hrest : Ends rest)
    (hrest' : Ends rest') (h : (toString m).toList ++ rest = (toString n).toList ++ rest') :
    m = n ∧ rest = rest' := by
  have hnumber := congrArg (List.takeWhile isNumberChar) h
  rw [List.takeWhile_append_of_pos (all_numberChar m),
    List.takeWhile_append_of_pos (all_numberChar n), hrest.takeWhile, hrest'.takeWhile,
    List.append_nil, List.append_nil] at hnumber
  rw [hnumber] at h
  exact ⟨toString_int_inj (String.toList_inj.mp hnumber), List.append_cancel_left h⟩

variable [Builtins]

/-- What the first character of a scalar's text tells. -/
def scalarKind (c : Char) : Nat := if c = '"' then 0 else if isNumberChar c then 1 else 2

theorem head_str (s : String) (rest : List Char) :
    ((dumps (.str s)).toList ++ rest).head?.map scalarKind = some 0 := by
  simp [dumps, quote, scalarKind]

theorem head_number (n : Int) (rest : List Char) :
    ((dumps (.int n)).toList ++ rest).head?.map scalarKind = some 1 := by
  obtain ⟨c, tail, hlist, hc⟩ := head_int n
  have hquote : c ≠ '"' := fun heq => by simp [heq, isNumberChar] at hc
  have htext : dumps (.int n) = toString n := by simp [dumps]
  rw [htext, hlist]
  simp [scalarKind, hquote, hc]

theorem head_bool (b : Bool) (rest : List Char) :
    ((dumps (.bool b)).toList ++ rest).head?.map scalarKind = some 2 := by
  cases b <;> unfold dumps <;> rfl

/-- A scalar is determined by its text and what follows it. -/
theorem dumps_append_inj {v w : Json} (hv : Scalar v) (hw : Scalar w) {rest rest' : List Char}
    (hrest : Ends rest) (hrest' : Ends rest')
    (h : (dumps v).toList ++ rest = (dumps w).toList ++ rest') : v = w ∧ rest = rest' := by
  have hkind := congrArg (fun text : List Char => text.head?.map scalarKind) h
  cases v with
  | str s =>
    cases w with
    | str t =>
      unfold dumps at h
      obtain ⟨rfl, hsame⟩ := quote_append_inj h
      exact ⟨rfl, hsame⟩
    | int n => simp only [head_str, head_number] at hkind; cases hkind
    | bool b => simp only [head_str, head_bool] at hkind; cases hkind
    | _ => cases hw
  | int m =>
    cases w with
    | str t => simp only [head_str, head_number] at hkind; cases hkind
    | int n =>
      unfold dumps at h
      obtain ⟨rfl, hsame⟩ := int_append_inj hrest hrest' h
      exact ⟨rfl, hsame⟩
    | bool b => simp only [head_number, head_bool] at hkind; cases hkind
    | _ => cases hw
  | bool a =>
    cases w with
    | str t => simp only [head_str, head_bool] at hkind; cases hkind
    | int n => simp only [head_number, head_bool] at hkind; cases hkind
    | bool b =>
      have htext : (dumps (.bool true)).toList = "true".toList ∧
          (dumps (.bool false)).toList = "false".toList := by
        unfold dumps
        exact ⟨rfl, rfl⟩
      cases a <;> cases b
      · exact ⟨rfl, List.append_cancel_left h⟩
      · rw [htext.1, htext.2] at h
        exact absurd (List.cons.inj h).1 (by decide)
      · rw [htext.1, htext.2] at h
        exact absurd (List.cons.inj h).1 (by decide)
      · exact ⟨rfl, List.append_cancel_left h⟩
    | _ => cases hw
  | _ => cases hv

/-- The text of an object's members, to its closing brace. -/
def membersText : Members → List Char
  | [] => ['\x7d']
  | [m] => (quote m.1 ++ ":" ++ dumps m.2).toList ++ ['\x7d']
  | m :: next :: rest =>
    (quote m.1 ++ ":" ++ dumps m.2).toList ++ ',' :: membersText (next :: rest)

/-- What follows the first member. -/
def afterMember : Members → List Char
  | [] => ['\x7d']
  | m :: rest => ',' :: membersText (m :: rest)

theorem membersText_cons (m : String × Json) (rest : Members) :
    membersText (m :: rest) =
      (quote m.1).toList ++ (':' :: ((dumps m.2).toList ++ afterMember rest)) := by
  cases rest <;> simp [membersText, afterMember]

theorem membersText_ne_nil (m : String × Json) (rest : Members) :
    membersText (m :: rest) ≠ membersText [] := by
  intro h
  rw [membersText_cons, quote, String.toList_ofList] at h
  exact absurd (List.cons.inj h).1 (by decide)

theorem ends_afterMember (rest : Members) : Ends (afterMember rest) := by
  cases rest with
  | nil => exact ⟨_, [], rfl, .inr rfl⟩
  | cons m rest => exact ⟨_, _, rfl, .inl rfl⟩

theorem membersText_inj {l l' : Members} (hl : ∀ m ∈ l, Scalar m.2) (hl' : ∀ m ∈ l', Scalar m.2)
    (h : membersText l = membersText l') : l = l' := by
  induction l generalizing l' with
  | nil =>
    cases l' with
    | nil => rfl
    | cons m' rest' => exact absurd h.symm (membersText_ne_nil m' rest')
  | cons m rest ih =>
    cases l' with
    | nil => exact absurd h (membersText_ne_nil m rest)
    | cons m' rest' =>
      rw [membersText_cons, membersText_cons] at h
      obtain ⟨hname, h⟩ := quote_append_inj h
      obtain ⟨hvalue, h⟩ := dumps_append_inj (hl m List.mem_cons_self) (hl' m' List.mem_cons_self)
        (ends_afterMember rest) (ends_afterMember rest') (List.cons.inj h).2
      have hrest : rest = rest' := by
        cases rest with
        | nil =>
          cases rest' with
          | nil => rfl
          | cons m' rest' => exact absurd (List.cons.inj h).1 (by decide)
        | cons next rest =>
          cases rest' with
          | nil => exact absurd (List.cons.inj h).1 (by decide)
          | cons next' rest' =>
            exact ih (fun x hx => hl x (List.mem_cons_of_mem _ hx))
              (fun x hx => hl' x (List.mem_cons_of_mem _ hx)) (List.cons.inj h).2
      rw [hrest, Prod.ext hname hvalue]

theorem dumpsMembers_eq_map (members : Members) :
    dumpsMembers members = members.map fun m => (m.1, dumps m.2) := by
  induction members with
  | nil => simp [dumpsMembers]
  | cons m rest ih =>
    unfold dumpsMembers
    rw [ih]
    rfl

theorem toList_join_members (members : Members) :
    (join "," (members.map fun m => quote m.1 ++ ":" ++ dumps m.2) ++ "\x7d").toList =
      membersText members := by
  induction members with
  | nil => simp [join, membersText]
  | cons m rest ih =>
    cases rest with
    | nil => simp [join, membersText]
    | cons next rest =>
      unfold membersText
      rw [← ih]
      simp [join]

theorem toList_dumps_obj (members : Members) :
    (dumps (.obj members)).toList =
      '\x7b' :: membersText (sortedBy (fun a b => decide (a < b)) Prod.fst members) := by
  unfold dumps
  dsimp only
  rw [dumpsMembers_eq_map, ← map_sortedBy _ (fun m : String × Json => (m.1, dumps m.2)) Prod.fst
    Prod.fst members (fun _ _ => rfl), List.map_map, String.append_assoc, String.toList_append,
    ← toList_join_members]
  rfl

/-- Two objects of scalars with one text have the same members. -/
theorem dumps_obj_inj {members members' : Members} (h : ∀ m ∈ members, Scalar m.2)
    (h' : ∀ m ∈ members', Scalar m.2) (htext : dumps (.obj members) = dumps (.obj members')) :
    members.Perm members' := by
  have hlist := congrArg String.toList htext
  rw [toList_dumps_obj, toList_dumps_obj] at hlist
  have hsorted := membersText_inj (fun m hm => h m ((mem_sortedBy _).mp hm))
    (fun m hm => h' m ((mem_sortedBy _).mp hm)) (List.cons.inj hlist).2
  exact (sortedBy_perm _ _ members).symm.trans (hsorted ▸ sortedBy_perm _ _ members')

end Py
