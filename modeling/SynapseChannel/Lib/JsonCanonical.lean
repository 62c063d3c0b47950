import SynapseChannel.Lib.JsonText

/-!
# Lib — JsonCanonical

The text of a value determines it up to the order of the members of its
objects, however deep: `dumps` is injective on values in key order.
-/

namespace Py

open Framing (utf8)

mutual

/-- The value with the members of every object in the order of their names. -/
def keySorted : Json → Json
  | .null => .null
  | .bool b => .bool b
  | .int n => .int n
  | .float x => .float x
  | .str s => .str s
  | .arr items => .arr (keySortedItems items)
  | .obj members =>
    .obj (sortedBy (fun a b => decide (a < b)) Prod.fst (keySortedMembers members))

def keySortedItems : List Json → List Json
  | [] => []
  | v :: rest => keySorted v :: keySortedItems rest

def keySortedMembers : List (String × Json) → List (String × Json)
  | [] => []
  | (name, v) :: rest => (name, keySorted v) :: keySortedMembers rest

end

theorem keySortedItems_eq_map (items : List Json) : keySortedItems items = items.map keySorted := by
  induction items with
  | nil => simp [keySortedItems]
  | cons v rest ih =>
    unfold keySortedItems
    rw [ih]
    rfl

theorem keySortedMembers_eq_map (members : Members) :
    keySortedMembers members = members.map fun m => (m.1, keySorted m.2) := by
  induction members with
  | nil => simp [keySortedMembers]
  | cons m rest ih =>
    unfold keySortedMembers
    rw [ih]
    rfl

theorem keySorted_arr (items : List Json) : keySorted (.arr items) = .arr (items.map keySorted) := by
  conv_lhs => unfold keySorted
  rw [keySortedItems_eq_map]

theorem keySorted_obj (members : Members) :
    keySorted (.obj members) =
      .obj ((sortedBy (fun a b => decide (a < b)) Prod.fst members).map
        fun m => (m.1, keySorted m.2)) := by
  conv_lhs => unfold keySorted
  rw [keySortedMembers_eq_map, ← map_sortedBy _ (fun m : String × Json => (m.1, keySorted m.2))
    Prod.fst Prod.fst members (fun _ _ => rfl)]

/-! ## Numbers -/

/-- A character of a finite number. -/
def isNumeric (c : Char) : Bool := c.isDigit || "+-.e".toList.contains c

/-- A float's text is made of the characters of a number, is not that of an integer, and tells
the float. -/
def FloatsSpelled [Builtins] : Prop :=
  (∀ x : Float, x.isFinite = true →
    (∀ c ∈ (Builtins.repr (.float x)).toList, isNumeric c = true) ∧
      ∃ c ∈ (Builtins.repr (.float x)).toList, isNumberChar c = false) ∧
  ∀ x y : Float, x.isFinite = true → y.isFinite = true →
    Builtins.repr (.float x) = Builtins.repr (.float y) → x = y

/-- What may follow a value: nothing, or the end of the value around it. -/
def Closes (rest : List Char) : Prop :=
  ∀ c, rest.head? = some c → c = ',' ∨ c = ']' ∨ c = '\x7d'

theorem Closes.numeric {rest : List Char} (h : Closes rest) : rest.takeWhile isNumeric = [] := by
  cases rest with
  | nil => rfl
  | cons c tail =>
    rcases h c rfl with rfl | rfl | rfl <;> rfl

theorem isNumeric_of_number {c : Char} (h : isNumberChar c = true) : isNumeric c = true := by
  unfold isNumberChar at h
  unfold isNumeric
  rw [Bool.or_eq_true] at h ⊢
  rcases h with hdigit | hsign
  · exact .inl hdigit
  · right
    rw [eq_of_beq hsign]
    decide

/-- The longest run of a number's characters tells the number from what follows. -/
theorem numeric_append_inj {s t rest rest' : List Char} (hs : ∀ c ∈ s, isNumeric c = true)
    (ht : ∀ c ∈ t, isNumeric c = true) (hrest : rest.takeWhile isNumeric = [])
    (hrest' : rest'.takeWhile isNumeric = []) (h : s ++ rest = t ++ rest') : s = t ∧ rest = rest' := by
  have hrun := congrArg (List.takeWhile isNumeric) h
  rw [List.takeWhile_append_of_pos hs, List.takeWhile_append_of_pos ht, hrest, hrest',
    List.append_nil, List.append_nil] at hrun
  rw [hrun] at h
  exact ⟨hrun, List.append_cancel_left h⟩

variable [Builtins]

/-- The text of a finite number. -/
structure NumberText (v : Json) (text : List Char) : Prop where
  chars : ∀ c ∈ text, isNumeric c = true
  ne_nil : text ≠ []
  int : ∀ n, v = .int n → ∀ c ∈ text, isNumberChar c = true
  float : ∀ x, v = .float x → ∃ c ∈ text, isNumberChar c = false

theorem int_text (n : Int) : NumberText (.int n) (dumps (.int n)).toList := by
  have htext : dumps (.int n) = toString n := by simp [dumps]
  rw [htext]
  refine ⟨fun c hc => isNumeric_of_number (all_numberChar n c hc), ?_, ?_, ?_⟩
  · obtain ⟨c, tail, hlist, -⟩ := head_int n
    rw [hlist]
    exact List.cons_ne_nil _ _
  · intro m hm
    cases hm
    exact all_numberChar n
  · intro x hx
    cases hx

theorem float_text (hfloats : FloatsSpelled) {x : Float} (hx : x.isFinite = true) :
    NumberText (.float x) (dumps (.float x)).toList := by
  have htext : dumps (.float x) = Builtins.repr (.float x) := by simp [dumps, floatText, hx]
  rw [htext]
  obtain ⟨hchars, hpoint⟩ := hfloats.1 x hx
  refine ⟨hchars, ?_, ?_, ?_⟩
  · obtain ⟨c, hc, -⟩ := hpoint
    exact List.ne_nil_of_mem hc
  · intro m hm
    cases hm
  · intro y hy
    cases hy
    exact hpoint

/-! ## What the first character tells -/

/-- The kinds of text a value may have, by the first character. -/
inductive TextKind where
  | null
  | true
  | false
  | number
  | nan
  | infinity
  | text
  | list
  | object
  deriving DecidableEq

section

omit [Builtins]

def textKind (c : Char) : TextKind :=
  if c = 'n' then .null else if c = 't' then .true else if c = 'f' then .false
  else if c = 'N' then .nan else if c = 'I' then .infinity else if c = '"' then .text
  else if c = '[' then .list else if c = '\x7b' then .object else .number

def kindOf : Json → TextKind
  | .null => .null
  | .bool true => .true
  | .bool false => .false
  | .int _ => .number
  | .float x =>
    if x.isFinite then .number else if x.isNaN then .nan else if 0 < x then .infinity else .number
  | .str _ => .text
  | .arr _ => .list
  | .obj _ => .object

theorem textKind_numeric {c : Char} (h : isNumeric c = true) : textKind c = .number := by
  unfold textKind
  split_ifs with hn ht hf hnan hinf htext hlist hobject
  all_goals first
    | rfl
    | (subst_vars; exact absurd h (by decide))

theorem NumberText.head {v : Json} {text : List Char} (h : NumberText v text) (rest : List Char) :
    (text ++ rest).head?.map textKind = some .number := by
  cases text with
  | nil => exact absurd rfl h.ne_nil
  | cons c tail => exact congrArg some (textKind_numeric (h.chars c List.mem_cons_self))

end

theorem dumps_head (hfloats : FloatsSpelled) (v : Json) (rest : List Char) :
    ((dumps v).toList ++ rest).head?.map textKind = some (kindOf v) := by
  cases v with
  | null => simp [dumps, kindOf]; rfl
  | bool b => cases b <;> simp [dumps, kindOf] <;> rfl
  | int n => exact (int_text n).head rest
  | float x =>
    unfold kindOf
    dsimp only
    by_cases hfinite : x.isFinite = true
    · rw [if_pos hfinite]
      exact (float_text hfloats hfinite).head rest
    · rw [if_neg hfinite]
      unfold dumps floatText
      rw [if_neg hfinite]
      split_ifs <;> rfl
  | str s => simp [dumps, quote, kindOf]; rfl
  | arr items => simp [dumps, kindOf]; rfl
  | obj members =>
    rw [toList_dumps_obj]
    rfl

/-- A float below zero that is not finite. -/
def NegativeInfinity (x : Float) : Prop :=
  x.isFinite = false ∧ x.isNaN = false ∧ ¬ 0 < x

/-- A value of this kind is the text of a finite number, or the negative infinity. -/
theorem number_text (hfloats : FloatsSpelled) {v : Json} (h : kindOf v = .number) :
    (NumberText v (dumps v).toList ∧ ∀ x, v = .float x → x.isFinite = true) ∨
      ∃ x, v = .float x ∧ NegativeInfinity x ∧ (dumps v).toList = "-Infinity".toList := by
  cases v with
  | int n => exact .inl ⟨int_text n, fun x hx => by cases hx⟩
  | float x =>
    by_cases hfinite : x.isFinite = true
    · refine .inl ⟨float_text hfloats hfinite, ?_⟩
      intro y hy
      cases hy
      exact hfinite
    · right
      unfold kindOf at h
      dsimp only at h
      rw [if_neg hfinite] at h
      have hinfinite := Bool.not_eq_true _ |>.mp hfinite
      split_ifs at h with hnan hpositive
      refine ⟨x, rfl, ⟨hinfinite, Bool.not_eq_true _ |>.mp hnan, hpositive⟩, ?_⟩
      unfold dumps floatText
      rw [if_neg hfinite, if_neg hnan, if_neg hpositive]
  | bool b => cases b <;> cases h
  | null => cases h
  | str s => cases h
  | arr items => cases h
  | obj members => cases h

omit [Builtins] in
/-- After the sign of the infinity comes no end of a value. -/
theorem number_ne_infinity {text rest rest' : List Char} (htext : ∀ c ∈ text, isNumeric c = true)
    (hrest : Closes rest) : text ++ rest ≠ "-Infinity".toList ++ rest' := by
  intro h
  have hsplit : "-Infinity".toList ++ rest' = ['-'] ++ ("Infinity".toList ++ rest') := rfl
  rw [hsplit] at h
  obtain ⟨-, hrests⟩ := numeric_append_inj htext (List.all_eq_true.mp (by decide)) hrest.numeric rfl h
  have hend := hrest 'I' (by rw [hrests]; rfl)
  exact absurd hend (by decide)

/-- Two finite numbers of one text. -/
theorem finite_inj (hfloats : FloatsSpelled) {v w : Json} (htext : NumberText v (dumps v).toList)
    (htext' : NumberText w (dumps w).toList) (hkind : kindOf v = .number)
    (hkind' : kindOf w = .number) (hfinite : ∀ x, v = .float x → x.isFinite = true)
    (hfinite' : ∀ x, w = .float x → x.isFinite = true) (h : dumps v = dumps w) : v = w := by
  -- the text of an integer has no point and no exponent
  have hkinds : ∀ {a b : Json} {n x}, NumberText a (dumps a).toList →
      NumberText b (dumps b).toList → dumps a = dumps b → ¬ (a = .int n ∧ b = .float x) := by
    rintro a b n x ha hb hsame ⟨hint, hfloat⟩
    obtain ⟨c, hc, hpoint⟩ := hb.float x hfloat
    rw [← hsame] at hc
    rw [ha.int n hint c hc] at hpoint
    cases hpoint
  cases v with
  | int m =>
    cases w with
    | int n =>
      simp only [dumps] at h
      rw [toString_int_inj h]
    | float x => exact absurd ⟨rfl, rfl⟩ (hkinds htext htext' h)
    | bool b => cases b <;> cases hkind'
    | null => cases hkind'
    | str s => cases hkind'
    | arr items => cases hkind'
    | obj members => cases hkind'
  | float x =>
    cases w with
    | int n => exact absurd ⟨rfl, rfl⟩ (hkinds htext' htext h.symm)
    | float y =>
      have hx := hfinite x rfl
      have hy := hfinite' y rfl
      simp only [dumps, floatText, hx, hy, if_true] at h
      rw [hfloats.2 x y hx hy h]
    | bool b => cases b <;> cases hkind'
    | null => cases hkind'
    | str s => cases hkind'
    | arr items => cases hkind'
    | obj members => cases hkind'
  | bool b => cases b <;> cases hkind
  | null => cases hkind
  | str s => cases hkind
  | arr items => cases hkind
  | obj members => cases hkind

/-- A number is determined by its text and what follows it. -/
theorem number_inj (hfloats : FloatsSpelled) {v w : Json} (hkind : kindOf v = .number)
    (hkind' : kindOf w = .number) {rest rest' : List Char} (hrest : Closes rest)
    (hrest' : Closes rest') (h : (dumps v).toList ++ rest = (dumps w).toList ++ rest') :
    v = w ∧ rest = rest' := by
  rcases number_text hfloats hkind with ⟨htext, hfinite⟩ | ⟨x, hx, hinfinite, htext⟩
  · rcases number_text hfloats hkind' with ⟨htext', hfinite'⟩ | ⟨y, -, -, htext'⟩
    · obtain ⟨hsame, hrests⟩ :=
        numeric_append_inj htext.chars htext'.chars hrest.numeric hrest'.numeric h
      exact ⟨finite_inj hfloats htext htext' hkind hkind' hfinite hfinite'
        (String.toList_inj.mp hsame), hrests⟩
    · rw [htext'] at h
      exact absurd h (number_ne_infinity htext.chars hrest)
  · rcases number_text hfloats hkind' with ⟨htext', -⟩ | ⟨y, hy, hinfinite', htext'⟩
    · rw [htext] at h
      exact absurd h.symm (number_ne_infinity htext'.chars hrest')
    · rw [htext, htext'] at h
      refine ⟨?_, List.append_cancel_left h⟩
      rw [hx, hy, Ieee.eq_of_infinite hinfinite.1 hinfinite.2.1 hinfinite'.1 hinfinite'.2.1
        (iff_of_false hinfinite.2.2 hinfinite'.2.2)]

/-! ## Lists -/

/-- The text of a list's items, to its closing bracket. -/
def itemsText : List Json → List Char
  | [] => [']']
  | [v] => (dumps v).toList ++ [']']
  | v :: next :: rest => (dumps v).toList ++ ',' :: itemsText (next :: rest)

/-- What follows the first item. -/
def afterItem : List Json → List Char
  | [] => [']']
  | v :: rest => ',' :: itemsText (v :: rest)

theorem itemsText_cons (v : Json) (rest : List Json) :
    itemsText (v :: rest) = (dumps v).toList ++ afterItem rest := by
  cases rest <;> simp [itemsText, afterItem]

theorem dumpsItems_eq_map (items : List Json) : dumpsItems items = items.map dumps := by
  induction items with
  | nil => simp [dumpsItems]
  | cons v rest ih =>
    unfold dumpsItems
    rw [ih]
    rfl

theorem toList_join_items (items : List Json) :
    (join "," (items.map dumps) ++ "]").toList = itemsText items := by
  induction items with
  | nil => simp [join, itemsText]
  | cons v rest ih =>
    cases rest with
    | nil => simp [join, itemsText]
    | cons next rest =>
      unfold itemsText
      rw [← ih]
      simp [join]

theorem toList_dumps_arr (items : List Json) :
    (dumps (.arr items)).toList = '[' :: itemsText items := by
  unfold dumps
  rw [dumpsItems_eq_map, String.append_assoc, String.toList_append, toList_join_items]
  rfl

/-! ## Values -/

/-- The value is determined, in key order, by its text and what follows it. -/
def Determined (v : Json) : Prop :=
  ∀ w rest rest', Closes rest → Closes rest' →
    (dumps v).toList ++ rest = (dumps w).toList ++ rest' →
    keySorted v = keySorted w ∧ rest = rest'

theorem closes_afterItem (items : List Json) (rest : List Char) :
    Closes (afterItem items ++ rest) := by
  intro c hc
  cases items with
  | nil =>
    cases hc
    exact .inr (.inl rfl)
  | cons v items =>
    cases hc
    exact .inl rfl

theorem closes_afterMember (members : Members) (rest : List Char) :
    Closes (afterMember members ++ rest) := by
  intro c hc
  cases members with
  | nil =>
    cases hc
    exact .inr (.inr rfl)
  | cons m members =>
    cases hc
    exact .inl rfl

theorem items_determined {items items' : List Json} (h : ∀ v ∈ items, Determined v)
    (hfloats : FloatsSpelled) {rest rest' : List Char}
    (htext : itemsText items ++ rest = itemsText items' ++ rest') :
    items.map keySorted = items'.map keySorted ∧ rest = rest' := by
  -- a closing bracket is not the start of a value
  have hclose : ∀ (v : Json) (after tail : List Char),
      (dumps v).toList ++ after ≠ ']' :: tail := by
    intro v after tail heq
    have hhead := dumps_head hfloats v after
    rw [heq] at hhead
    have hkind : kindOf v = .number := (Option.some.inj hhead).symm
    rcases number_text hfloats hkind with ⟨hnumber, -⟩ | ⟨x, -, -, hinfinite⟩
    · cases hlist : (dumps v).toList with
      | nil => exact hnumber.ne_nil hlist
      | cons c cs =>
        rw [hlist] at heq
        have hc := hnumber.chars c (by rw [hlist]; exact List.mem_cons_self)
        rw [(List.cons.inj heq).1] at hc
        exact absurd hc (by decide)
    · rw [hinfinite] at heq
      exact absurd (List.cons.inj heq).1 (by decide)
  induction items generalizing items' with
  | nil =>
    cases items' with
    | nil => exact ⟨rfl, (List.cons.inj htext).2⟩
    | cons v' items' =>
      rw [itemsText_cons, List.append_assoc] at htext
      exact absurd htext.symm (hclose v' _ _)
  | cons v items ih =>
    cases items' with
    | nil =>
      rw [itemsText_cons, List.append_assoc] at htext
      exact absurd htext (hclose v _ _)
    | cons v' items' =>
      rw [itemsText_cons, itemsText_cons, List.append_assoc, List.append_assoc] at htext
      obtain ⟨hvalue, hafter⟩ := h v List.mem_cons_self v' _ _ (closes_afterItem items rest)
        (closes_afterItem items' rest') htext
      rw [List.map_cons, List.map_cons, hvalue]
      cases items with
      | nil =>
        cases items' with
        | nil => exact ⟨rfl, (List.cons.inj hafter).2⟩
        | cons next' items' => exact absurd (List.cons.inj hafter).1 (by decide)
      | cons next items =>
        cases items' with
        | nil => exact absurd (List.cons.inj hafter).1 (by decide)
        | cons next' items' =>
          obtain ⟨hitems, hrest⟩ := ih (fun w hw => h w (List.mem_cons_of_mem _ hw))
            (List.cons.inj hafter).2
          exact ⟨congrArg _ hitems, hrest⟩

theorem members_determined {members members' : Members} (h : ∀ m ∈ members, Determined m.2)
    {rest rest' : List Char}
    (htext : membersText members ++ rest = membersText members' ++ rest') :
    (members.map fun m => (m.1, keySorted m.2)) = (members'.map fun m => (m.1, keySorted m.2)) ∧
      rest = rest' := by
  have hclose : ∀ (m : String × Json) (members : Members) (rest tail : List Char),
      membersText (m :: members) ++ rest ≠ '\x7d' :: tail := by
    intro m members rest tail heq
    rw [membersText_cons, quote, String.toList_ofList] at heq
    exact absurd (List.cons.inj heq).1 (by decide)
  induction members generalizing members' with
  | nil =>
    cases members' with
    | nil => exact ⟨rfl, (List.cons.inj htext).2⟩
    | cons m' members' => exact absurd htext.symm (hclose m' members' _ _)
  | cons m members ih =>
    cases members' with
    | nil => exact absurd htext (hclose m members _ _)
    | cons m' members' =>
      rw [membersText_cons, membersText_cons, List.append_assoc, List.append_assoc] at htext
      obtain ⟨hname, htext⟩ := quote_append_inj htext
      rw [List.cons_append, List.cons_append, List.append_assoc, List.append_assoc] at htext
      have htext := (List.cons.inj htext).2
      obtain ⟨hvalue, hafter⟩ := h m List.mem_cons_self m'.2 _ _ (closes_afterMember members rest)
        (closes_afterMember members' rest') htext
      rw [List.map_cons, List.map_cons, hname, hvalue]
      cases members with
      | nil =>
        cases members' with
        | nil => exact ⟨rfl, (List.cons.inj hafter).2⟩
        | cons next' members' => exact absurd (List.cons.inj hafter).1 (by decide)
      | cons next members =>
        cases members' with
        | nil => exact absurd (List.cons.inj hafter).1 (by decide)
        | cons next' members' =>
          obtain ⟨hmembers, hrest⟩ := ih (fun w hw => h w (List.mem_cons_of_mem _ hw))
            (List.cons.inj hafter).2
          exact ⟨congrArg _ hmembers, hrest⟩

section

omit [Builtins]

theorem float_kind (x : Float) :
    kindOf (.float x) ∈ [TextKind.number, TextKind.nan, TextKind.infinity] := by
  unfold kindOf
  dsimp only
  split_ifs <;> decide

/-- A float that has a name of its own is the only value of its kind. -/
theorem named_float {v : Json} (h : kindOf v = .nan ∨ kindOf v = .infinity) :
    ∃ x, v = .float x ∧ x.isFinite = false ∧ (kindOf v = .nan ↔ x.isNaN = true) ∧
      (kindOf v = .infinity → x.isNaN = false ∧ 0 < x) := by
  cases v with
  | float x =>
    refine ⟨x, rfl, ?_⟩
    unfold kindOf at h ⊢
    dsimp only at h ⊢
    split_ifs at h ⊢ <;> simp_all
  | bool b => cases b <;> simp [kindOf] at h
  | _ => simp [kindOf] at h

/-- The shape of a value that is neither a number nor undefined, by its kind. -/
theorem shape_of_kind {v w : Json} (h : kindOf v = kindOf w) :
    (v = .null → w = .null) ∧ (∀ b, v = .bool b → w = .bool b) ∧
      (∀ s, v = .str s → ∃ t, w = .str t) ∧ (∀ items, v = .arr items → ∃ items', w = .arr items') ∧
      ∀ members, v = .obj members → ∃ members', w = .obj members' := by
  have hfloat : ∀ x, w = .float x →
      kindOf v ∈ [TextKind.number, TextKind.nan, TextKind.infinity] := by
    intro x hx
    rw [h, hx]
    exact float_kind x
  refine ⟨?_, ?_, ?_, ?_, ?_⟩
  · rintro rfl
    cases w with
    | null => rfl
    | bool b => cases b <;> cases h
    | float x => exact absurd (hfloat x rfl) (by decide)
    | _ => cases h
  · rintro b rfl
    cases w with
    | bool b' => cases b <;> cases b' <;> first | rfl | cases h
    | float x => cases b <;> exact absurd (hfloat x rfl) (by decide)
    | _ => cases b <;> cases h
  · rintro s rfl
    cases w with
    | str t => exact ⟨t, rfl⟩
    | bool b => cases b <;> cases h
    | float x => exact absurd (hfloat x rfl) (by simp [kindOf])
    | _ => cases h
  · rintro items rfl
    cases w with
    | arr items' => exact ⟨items', rfl⟩
    | bool b => cases b <;> cases h
    | float x => exact absurd (hfloat x rfl) (by simp [kindOf])
    | _ => cases h
  · rintro members rfl
    cases w with
    | obj members' => exact ⟨members', rfl⟩
    | bool b => cases b <;> cases h
    | float x => exact absurd (hfloat x rfl) (by simp [kindOf])
    | _ => cases h

end

theorem determined (hfloats : FloatsSpelled) (v : Json) : Determined v := by
  have hkinds : ∀ {v w : Json} {rest rest' : List Char},
      (dumps v).toList ++ rest = (dumps w).toList ++ rest' → kindOf v = kindOf w := by
    intro v w rest rest' h
    have hhead := congrArg (fun text : List Char => text.head?.map textKind) h
    rw [dumps_head hfloats, dumps_head hfloats] at hhead
    exact Option.some.inj hhead
  induction v using Json.induction with
  | null =>
    intro w rest rest' _ _ h
    obtain rfl := (shape_of_kind (hkinds h)).1 rfl
    exact ⟨rfl, List.append_cancel_left h⟩
  | bool b =>
    intro w rest rest' _ _ h
    obtain rfl := (shape_of_kind (hkinds h)).2.1 b rfl
    exact ⟨rfl, List.append_cancel_left h⟩
  | int n =>
    intro w rest rest' hrest hrest' h
    obtain ⟨rfl, hsame⟩ := number_inj hfloats rfl (hkinds h).symm hrest hrest' h
    exact ⟨rfl, hsame⟩
  | float x =>
    intro w rest rest' hrest hrest' h
    have hsame := hkinds h
    by_cases hnumber : kindOf (.float x) = .number
    · obtain ⟨rfl, hrests⟩ := number_inj hfloats hnumber (hsame ▸ hnumber) hrest hrest' h
      exact ⟨rfl, hrests⟩
    · have hnamed : kindOf (.float x) = .nan ∨ kindOf (.float x) = .infinity := by
        have hkind := float_kind x
        simp only [List.mem_cons, List.not_mem_nil, or_false] at hkind
        exact hkind.resolve_left hnumber
      obtain ⟨x', hx, hfinite, hnan, hpositive⟩ := named_float hnamed
      obtain ⟨y, rfl, hfinite', hnan', hpositive'⟩ := named_float (hsame ▸ hnamed)
      cases hx
      have heq : x = y := by
        rcases hnamed with hkind | hkind
        · exact Ieee.eq_of_isNaN (hnan.mp hkind) (hnan'.mp (hsame ▸ hkind))
        · obtain ⟨hx, hxpos⟩ := hpositive hkind
          obtain ⟨hy, hypos⟩ := hpositive' (hsame ▸ hkind)
          exact Ieee.eq_of_infinite hfinite hx hfinite' hy (iff_of_true hxpos hypos)
      subst heq
      exact ⟨rfl, List.append_cancel_left h⟩
  | str s =>
    intro w rest rest' _ _ h
    obtain ⟨t, rfl⟩ := (shape_of_kind (hkinds h)).2.2.1 s rfl
    unfold dumps at h
    obtain ⟨rfl, hsame⟩ := quote_append_inj h
    exact ⟨rfl, hsame⟩
  | arr items ih =>
    intro w rest rest' _ _ h
    obtain ⟨items', rfl⟩ := (shape_of_kind (hkinds h)).2.2.2.1 items rfl
    rw [toList_dumps_arr, toList_dumps_arr] at h
    obtain ⟨hitems, hsame⟩ := items_determined ih hfloats (List.cons.inj h).2
    rw [keySorted_arr, keySorted_arr, hitems]
    exact ⟨rfl, hsame⟩
  | obj members ih =>
    intro w rest rest' _ _ h
    obtain ⟨members', rfl⟩ := (shape_of_kind (hkinds h)).2.2.2.2 members rfl
    rw [toList_dumps_obj, toList_dumps_obj] at h
    obtain ⟨hmembers, hsame⟩ := members_determined
      (fun m hmem => ih m ((mem_sortedBy _).mp hmem))
      (List.cons.inj h).2
    rw [keySorted_obj, keySorted_obj, hmembers]
    exact ⟨rfl, hsame⟩

/-- Two values with one text are the same in key order. -/
theorem dumps_inj (hfloats : FloatsSpelled) {v w : Json} (h : dumps v = dumps w) : keySorted v = keySorted w := by
  have hnothing : Closes [] := by
    intro c hc
    cases hc
  have htext : (dumps v).toList ++ [] = (dumps w).toList ++ [] := by rw [h]
  exact (determined hfloats v w [] [] hnothing hnothing htext).1

/-- The built-ins of `Builtins.checksum` with a spelling of floats; for evaluating the definitions on
small inputs. -/
abbrev Builtins.numeric : Builtins :=
  { Builtins.checksum with
    repr := fun
      | .float x => if x = 0 then "0.0" else x.toBits.toNat.repr ++ "e"
      | _ => "[]"
    repr_ne_empty := by
      intro v
      split
      · split
        · decide
        · intro h
          have hlength := congrArg (fun text : String => text.toList.getLast?) h
          simp at hlength
      · decide }

omit [Builtins] in
theorem sha256Spelled_numeric : @Sha256Spelled Builtins.numeric := sha256Spelled_checksum

omit [Builtins] in
theorem floatsSpelled_numeric : @FloatsSpelled Builtins.numeric := by
  have htext : ∀ x : Float, Builtins.numeric.repr (.float x) =
      if x = 0 then "0.0" else x.toBits.toNat.repr ++ "e" := fun x => rfl
  constructor
  · intro x _
    rw [htext]
    split
    · exact ⟨List.all_eq_true.mp (by decide), '.', by decide, by decide⟩
    · rw [String.toList_append]
      refine ⟨?_, 'e', List.mem_append_right _ (by decide), by decide⟩
      intro c hc
      rcases List.mem_append.mp hc with hdigit | hlast
      · unfold isNumeric
        rw [all_digits _ c hdigit]
        rfl
      · have hsame : c = 'e' := by simpa using hlast
        rw [hsame]
        decide
  · intro x y _ _ h
    rw [htext, htext] at h
    -- the text of zero has a point, that of any other float an exponent
    have hpoint : ∀ z : Float, "0.0" ≠ z.toBits.toNat.repr ++ "e" := by
      intro z hz
      have hlast := congrArg (fun text : String => text.toList.getLast?) hz
      simp at hlast
    split at h
    · rename_i hx
      split at h
      · rename_i hy
        exact hx.trans hy.symm
      · exact absurd h (hpoint y)
    · split at h
      · exact absurd h.symm (hpoint x)
      · have hbits := UInt64.toNat_inj.mp (repr_inj ((String.append_left_inj _).mp h))
        obtain ⟨⟨bits, valid⟩⟩ := x
        obtain ⟨⟨bits', valid'⟩⟩ := y
        cases hbits
        rfl

end Py
