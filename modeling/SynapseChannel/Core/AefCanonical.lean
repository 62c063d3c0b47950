import SynapseChannel.Lib.JsonScan

/-!
# Core — AefCanonical

The canonical JSON of AEF documents: integers only, members in the order of
their UTF-16 code units. The printer and the checking reader are separate
code; together they fix one text for each value.
-/

namespace SynapseChannel.AefCanonical

open Py Outcome Scan

def ijsonMaxInteger : Int := 2 ^ 53 - 1

def ijsonMinInteger : Int := -ijsonMaxInteger

/-- An in-memory value. `other` is one of a type outside the profile. -/
inductive Value where
  | null
  | bool (b : Bool)
  | int (n : Int)
  | str (s : Points)
  | list (items : List Value)
  | dict (members : List (Points × Value))
  | other (typeName : String)

/-! ## Printing -/

def requireIntegerRange (value : Int) : Except String Unit :=
  if ijsonMinInteger ≤ value ∧ value ≤ ijsonMaxInteger then .ok ()
  else .error ("AEF JSON integer " ++ toString value ++ " is outside the I-JSON exact range")

/-- The characters of a text without surrogates. -/
def requireUnicodeScalarText (value : Points) : Except String (List Char) :=
  match scalars value with
  | some cs => .ok cs
  | none => .error "AEF JSON strings must not contain unpaired surrogates"

def shortEscapes : List (Char × List Char) :=
  [('\x08', ['\\', 'b']), ('\t', ['\\', 't']), ('\n', ['\\', 'n']), ('\x0c', ['\\', 'f']),
    ('\r', ['\\', 'r'])]

/-- One character of a quoted string. -/
def rendered (character : Char) : List Char :=
  if character = '"' then ['\\', '"']
  else if character = '\\' then ['\\', '\\']
  else
    match shortEscapes.lookup character with
    | some escape => escape
    | none => if character.toNat ≤ 0x1f then unicodeEscape character.toNat else [character]

def quote (cs : List Char) : List Char := '"' :: cs.flatMap rendered ++ ['"']

/-- `jcs_string`. -/
def jcsString (value : Points) : Except String (List Char) :=
  (requireUnicodeScalarText value).map quote

/-- The UTF-16 code units of a character, big end first. -/
def utf16 (c : Char) : List Nat :=
  let n := c.toNat
  if n < 0x10000 then [n / 256, n % 256]
  else
    let high := 0xd800 + (n - 0x10000) / 0x400
    let low := 0xdc00 + (n - 0x10000) % 0x400
    [high / 256, high % 256, low / 256, low % 256]

/-- `value.encode("utf-16-be")`. -/
def utf16SortKey (cs : List Char) : List Nat := cs.flatMap utf16

/-- Members in the order of their names' code units. -/
def sortMembers {α : Type} (members : List (List Char × α)) : List (List Char × α) :=
  sortedBy (fun a b => decide (a < b)) (fun m => utf16SortKey m.1) members

mutual

def render : Value → Except String (List Char)
  | .null => .ok "null".toList
  | .bool true => .ok "true".toList
  | .bool false => .ok "false".toList
  | .int n => (requireIntegerRange n).map fun _ => (toString n).toList
  | .str s => jcsString s
  | .list items => (renderItems items).map fun texts => '[' :: joinTexts texts ++ [']']
  | .dict members => do
    let named ← (renderMembers members).mapM fun m =>
      (requireUnicodeScalarText m.1).map fun name => (name, m.2)
    let texts ← (sortMembers named).mapM fun m => m.2.map fun text => quote m.1 ++ ':' :: text
    .ok ('\x7b' :: joinTexts texts ++ ['\x7d'])
  | .other typeName => .error ("unsupported AEF JSON value type: " ++ typeName)

def renderItems : List Value → Except String (List (List Char))
  | [] => .ok []
  | v :: rest => do
    let text ← render v
    let texts ← renderItems rest
    .ok (text :: texts)

/-- Each member with what rendering its value gives; the values are looked
at in the order of the names. -/
def renderMembers : List (Points × Value) → List (Points × Except String (List Char))
  | [] => []
  | (name, v) :: rest => (name, render v) :: renderMembers rest

end

/-- Canonical AEF bytes of an in-memory value. -/
def canonicalJson (value : Value) : Except String ByteArray :=
  (render value).map fun text => (String.ofList text).toByteArray

/-! ## Reading -/

/-- `int(raw)`; `none` is its `ValueError` on a long text. -/
def intOf (raw : List Char) : Option Int :=
  let ds := if raw.head? = some '-' then raw.tail else raw
  if ds.length > maxStrDigits then none
  else some (if raw.head? = some '-' then -(digitsValue ds : Int) else digitsValue ds)

def parseInteger (raw : List Char) : Except String Value :=
  if raw = ['-', '0'] then .error "AEF JSON forbids negative zero"
  else
    match intOf raw with
    | none => .error "AEF JSON integer literal is too large to parse"
    | some value => (requireIntegerRange value).map fun _ => .int value

def rejectNonInteger (raw : List Char) : Except String Value :=
  .error ("AEF JSON accepts integers only, got " ++ String.ofList raw)

/-- The members in order; a name that comes again is refused. -/
def uniqueObject (result : List (Points × Value)) : List (Points × Value) → Except String Value
  | [] => .ok (.dict result)
  | (key, value) :: rest =>
    if key ∈ result.map Prod.fst then .error "duplicate AEF JSON object key"
    else uniqueObject (result ++ [(key, value)]) rest

/-- The hooks of the checking reader. -/
def hooks : Hooks Value where
  null := .null
  bool := .bool
  str := .str
  arr := .list
  parseInt := parseInteger
  parseFloat := rejectNonInteger
  parseConstant := fun name => rejectNonInteger name.toList
  pairs := uniqueObject []

/-- A JSON document as a `str` or as bytes. -/
inductive Raw where
  | text (s : Points)
  | bytes (raw : ByteArray)

def decode (raw : Raw) : Except String Points :=
  let text : Except String Points := match raw with
    | .text s => .ok s
    | .bytes raw =>
      match decodeUtf8 raw with
      | some s => .ok s
      | none => .error "AEF JSON must be valid UTF-8"
  text >>= fun text =>
    if text.head? = some (.char (Char.ofNat 0xfeff)) then
      .error "AEF JSON must not contain a UTF-8 BOM"
    else .ok text

/-- Parse JSON with hostile-input checks and return canonical AEF bytes. -/
def canonicalizeJson (raw : Raw) : Except String ByteArray := do
  let text ← decode raw
  match loads hooks text with
  | .ok value => canonicalJson value
  | .error (.raised message) => .error message
  | .error .decode => .error "invalid AEF JSON"

/-! ## Member order -/

theorem scalar_value (c : Char) :
    c.toNat < 0xd800 ∨ 0xdfff < c.toNat ∧ c.toNat < 0x110000 := c.valid

/-- Code units of characters that begin alike are those of one character. -/
theorem utf16_append_inj {c d : Char} {s t : List Nat} (h : utf16 c ++ s = utf16 d ++ t) :
    c = d ∧ s = t := by
  have hc := scalar_value c
  have hd := scalar_value d
  have heq : c.toNat = d.toNat → c = d := Char.toNat_inj.mp
  unfold utf16 at h
  dsimp only at h
  -- a code unit of the surrogate range starts no character of the basic plane
  split_ifs at h <;> simp only [List.cons_append, List.nil_append, List.cons.injEq] at h
  · exact ⟨heq (by omega), h.2.2⟩
  · omega
  · omega
  · exact ⟨heq (by omega), h.2.2.2.2⟩

theorem utf16SortKey_inj {cs ds : List Char} (h : utf16SortKey cs = utf16SortKey ds) : cs = ds := by
  unfold utf16SortKey at h
  induction cs generalizing ds with
  | nil =>
    cases ds with
    | nil => rfl
    | cons d rest =>
      rw [List.flatMap_cons] at h
      unfold utf16 at h
      dsimp only at h
      split at h <;> cases h
  | cons c rest ih =>
    cases ds with
    | nil =>
      rw [List.flatMap_cons] at h
      unfold utf16 at h
      dsimp only at h
      split at h <;> cases h
    | cons d rest' =>
      rw [List.flatMap_cons, List.flatMap_cons] at h
      obtain ⟨rfl, htail⟩ := utf16_append_inj h
      rw [ih htail]

/-! ## The value of a text -/

@[elab_as_elim]
theorem Value.induction {P : Value → Prop} (null : P .null) (bool : ∀ b, P (.bool b))
    (int : ∀ n, P (.int n)) (str : ∀ s, P (.str s))
    (list : ∀ items, (∀ v ∈ items, P v) → P (.list items))
    (dict : ∀ members, (∀ m ∈ members, P m.2) → P (.dict members))
    (other : ∀ typeName, P (.other typeName)) (v : Value) : P v := by
  refine Value.rec (motive_1 := P) (motive_2 := fun l => ∀ v ∈ l, P v)
    (motive_3 := fun l => ∀ m ∈ l, P m.2) (motive_4 := fun m => P m.2) null bool int str list dict
    other ?_ ?_ ?_ ?_ ?_ v
  · intro v hv
    cases hv
  · intro head tail hhead htail v hv
    rcases List.mem_cons.mp hv with rfl | hv
    · exact hhead
    · exact htail v hv
  · intro m hm
    cases hm
  · intro head tail hhead htail m hm
    rcases List.mem_cons.mp hm with rfl | hm
    · exact hhead
    · exact htail m hm
  · intro name v hv
    exact hv

/-- A value of the AEF profile. -/
inductive Profile : Value → Prop
  | null : Profile .null
  | bool (b : Bool) : Profile (.bool b)
  | int {n : Int} (h : ijsonMinInteger ≤ n ∧ n ≤ ijsonMaxInteger) : Profile (.int n)
  | str (cs : List Char) : Profile (.str (points cs))
  | list {items : List Value} (h : ∀ v ∈ items, Profile v) : Profile (.list items)
  | dict {members : List (Points × Value)} (hnames : ∀ m ∈ members, ∃ cs, m.1 = points cs)
      (h : ∀ m ∈ members, Profile m.2) : Profile (.dict members)

/-- The names of every dictionary are distinct, as those of a `dict` are. -/
inductive Keyed : Value → Prop
  | null : Keyed .null
  | bool (b : Bool) : Keyed (.bool b)
  | int (n : Int) : Keyed (.int n)
  | str (s : Points) : Keyed (.str s)
  | list {items : List Value} (h : ∀ v ∈ items, Keyed v) : Keyed (.list items)
  | dict {members : List (Points × Value)} (hnames : (members.map Prod.fst).Nodup)
      (h : ∀ m ∈ members, Keyed m.2) : Keyed (.dict members)
  | other (typeName : String) : Keyed (.other typeName)

/-- Members in the order of their names' code units. -/
def orderMembers {α : Type} (members : List (Points × α)) : List (Points × α) :=
  sortedBy (fun a b => decide (a < b)) (fun m => utf16SortKey (charsOf m.1)) members

mutual

/-- The value with the members of every dictionary in order. -/
def ordered : Value → Value
  | .null => .null
  | .bool b => .bool b
  | .int n => .int n
  | .str s => .str s
  | .list items => .list (orderedItems items)
  | .dict members => .dict (orderMembers (orderedMembers members))
  | .other typeName => .other typeName

def orderedItems : List Value → List Value
  | [] => []
  | v :: rest => ordered v :: orderedItems rest

def orderedMembers : List (Points × Value) → List (Points × Value)
  | [] => []
  | (name, v) :: rest => (name, ordered v) :: orderedMembers rest

end

mutual

/-- The document of a value, its members as they stand. -/
def treeOf : Value → Tree
  | .null => .literal .null
  | .bool b => .literal (.bool b)
  | .int n => .number true (toString n).toList
  | .str s => .str s
  | .list items => .arr (treeItems items)
  | .dict members => .obj (treeMembers members)
  | .other typeName => .literal (.constant typeName)

def treeItems : List Value → List Tree
  | [] => []
  | v :: rest => treeOf v :: treeItems rest

def treeMembers : List (Points × Value) → List (Points × Tree)
  | [] => []
  | (name, v) :: rest => (name, treeOf v) :: treeMembers rest

end

theorem orderedItems_eq_map (items : List Value) : orderedItems items = items.map ordered := by
  induction items with
  | nil => rfl
  | cons v rest ih =>
    unfold orderedItems
    rw [ih, List.map_cons]

theorem orderedMembers_eq_map (members : List (Points × Value)) :
    orderedMembers members = members.map fun m => (m.1, ordered m.2) := by
  induction members with
  | nil => rfl
  | cons m rest ih =>
    unfold orderedMembers
    rw [ih, List.map_cons]

theorem treeItems_eq_map (items : List Value) : treeItems items = items.map treeOf := by
  induction items with
  | nil => rfl
  | cons v rest ih =>
    unfold treeItems
    rw [ih, List.map_cons]

theorem treeMembers_eq_map (members : List (Points × Value)) :
    treeMembers members = members.map fun m => (m.1, treeOf m.2) := by
  induction members with
  | nil => rfl
  | cons m rest ih =>
    unfold treeMembers
    rw [ih, List.map_cons]

theorem renderMembers_eq_map (members : List (Points × Value)) :
    renderMembers members = members.map fun m => (m.1, render m.2) := by
  induction members with
  | nil => simp [renderMembers]
  | cons m rest ih =>
    unfold renderMembers
    rw [ih, List.map_cons]

theorem ordered_members (members : List (Points × Value)) : ordered (.dict members) =
    .dict (orderMembers (members.map fun m => (m.1, ordered m.2))) := by
  conv_lhs => unfold ordered
  rw [orderedMembers_eq_map]

theorem ordered_dict (members : List (Points × Value)) : ordered (.dict members) =
    .dict ((orderMembers members).map fun m => (m.1, ordered m.2)) := by
  rw [ordered_members]
  unfold orderMembers
  rw [map_sortedBy _ (fun m : Points × Value => (m.1, ordered m.2))
    (fun m => utf16SortKey (charsOf m.1)) (fun m => utf16SortKey (charsOf m.1)) members
    (fun _ _ => rfl)]

theorem ordered_list (items : List Value) : ordered (.list items) = .list (items.map ordered) := by
  conv_lhs => unfold ordered
  rw [orderedItems_eq_map]

/-! ## What is printed -/

theorem rendered_eq (c : Char) : rendered c = escapePlain c := by
  by_cases hshort : c ∈ ['"', '\\', '\x08', '\t', '\n', '\x0c', '\r']
  · simp only [List.mem_cons, List.not_mem_nil, or_false] at hshort
    rcases hshort with rfl | rfl | rfl | rfl | rfl | rfl | rfl <;> rfl
  · simp only [List.mem_cons, List.not_mem_nil, or_false, not_or] at hshort
    obtain ⟨hq, hs, hb, ht, hn, hf, hr⟩ := hshort
    have hcode : ∀ {d : Char}, c ≠ d → c.toNat ≠ d.toNat := fun h heq => h (Char.toNat_inj.mp heq)
    have hlookup : shortEscapes.lookup c = none := by
      simp only [shortEscapes, List.lookup_cons, List.lookup_nil, beq_eq_false_iff_ne.mpr hb,
        beq_eq_false_iff_ne.mpr ht, beq_eq_false_iff_ne.mpr hn, beq_eq_false_iff_ne.mpr hf,
        beq_eq_false_iff_ne.mpr hr]
    unfold rendered escapePlain
    dsimp only
    rw [if_neg hq, if_neg hs, hlookup, if_neg (show c.toNat ≠ 34 from hcode hq),
      if_neg (show c.toNat ≠ 92 from hcode hs), if_neg (show c.toNat ≠ 10 from hcode hn),
      if_neg (show c.toNat ≠ 13 from hcode hr), if_neg (show c.toNat ≠ 9 from hcode ht),
      if_neg (show c.toNat ≠ 12 from hcode hf), if_neg (show c.toNat ≠ 8 from hcode hb)]
    by_cases hcontrol : c.toNat ≤ 0x1f
    · rw [if_pos hcontrol, if_pos (show c.toNat < 32 by omega)]
    · rw [if_neg hcontrol, if_neg (show ¬ c.toNat < 32 by omega)]

theorem quote_eq (cs : List Char) : quote cs = quoted cs := by
  unfold quote quoted
  rw [show rendered = escapePlain from funext rendered_eq]

theorem requireUnicodeScalarText_ok {s : Points} {cs : List Char} :
    requireUnicodeScalarText s = .ok cs ↔ s = points cs := by
  unfold requireUnicodeScalarText
  constructor
  · intro h
    cases hscalars : scalars s with
    | none =>
      rw [hscalars] at h
      cases h
    | some ds =>
      rw [hscalars] at h
      cases h
      exact eq_points_of_scalars hscalars
  · rintro rfl
    rw [scalars_points]

theorem requireIntegerRange_ok {n : Int} :
    requireIntegerRange n = .ok () ↔ ijsonMinInteger ≤ n ∧ n ≤ ijsonMaxInteger := by
  unfold requireIntegerRange
  split_ifs with h
  · simp [h]
  · simp [h]

theorem renderItems_eq_mapM (items : List Value) : renderItems items = items.mapM render := by
  induction items with
  | nil =>
    unfold renderItems
    rfl
  | cons v rest ih =>
    unfold renderItems
    rw [ih, List.mapM_cons]
    rfl

/-- The members with their names read. -/
theorem mapM_names {members : List (Points × Value)}
    (hnames : ∀ m ∈ members, ∃ cs, m.1 = points cs) :
    (renderMembers members).mapM (fun m =>
      (requireUnicodeScalarText m.1).map fun name => (name, m.2)) =
      .ok (members.map fun m => (charsOf m.1, render m.2)) := by
  rw [renderMembers_eq_map, mapM_ok (g := fun m => (charsOf m.1, m.2)), List.map_map]
  · rfl
  · intro m hm
    obtain ⟨m', hm', rfl⟩ := List.mem_map.mp hm
    obtain ⟨cs, hcs⟩ := hnames m' hm'
    dsimp only
    rw [requireUnicodeScalarText_ok.mpr hcs, hcs, charsOf_points]
    rfl

/-- A printed dictionary: names of characters, and values printed. -/
theorem render_dict {members : List (Points × Value)}
    (hnames : ∀ m ∈ members, ∃ cs, m.1 = points cs)
    (hvalues : ∀ m ∈ members, render m.2 = .ok (treeOf (ordered m.2)).text) :
    render (.dict members) = .ok (treeOf (ordered (.dict members))).text := by
  have hsorted : sortMembers (members.map fun m => (charsOf m.1, render m.2)) =
      (orderMembers members).map fun m => (charsOf m.1, render m.2) :=
    (map_sortedBy _ _ _ _ members fun _ _ => rfl).symm
  have htexts : ((orderMembers members).map fun m => (charsOf m.1, render m.2)).mapM
      (fun m => m.2.map fun text => quote m.1 ++ ':' :: text) =
      .ok ((orderMembers members).map fun m => memberText (m.1, treeOf (ordered m.2))) := by
    rw [List.mapM_map, mapM_ok]
    intro m hm
    have hm' : m ∈ members := (mem_sortedBy _).mp hm
    show (render m.2).map _ = _
    rw [hvalues m hm', quote_eq]
    rfl
  unfold render
  refine bind_of_ok (mapM_names hnames) ?_
  rw [hsorted]
  refine bind_of_ok htexts ?_
  rw [ordered_dict]
  show Except.ok _ = Except.ok ('\x7b' :: joinTexts (memberTexts (treeMembers _)) ++ ['\x7d'])
  rw [treeMembers_eq_map, memberTexts_eq_map, List.map_map, List.map_map]
  rfl

/-- A value of the profile is printed as the document of its ordered
value. -/
theorem render_ok {v : Value} (h : Profile v) : render v = .ok (treeOf (ordered v)).text := by
  induction h with
  | null => rfl
  | bool b => cases b <;> rfl
  | int h =>
    unfold render
    rw [requireIntegerRange_ok.mpr h]
    rfl
  | str cs =>
    unfold render jcsString
    rw [requireUnicodeScalarText_ok.mpr rfl]
    show Except.ok (quote cs) = .ok (quoted (charsOf (points cs)))
    rw [quote_eq, charsOf_points]
  | @list items h ih =>
    unfold render
    rw [renderItems_eq_mapM, mapM_ok ih, ordered_list]
    show Except.ok _ = Except.ok ('[' :: joinTexts (itemTexts (treeItems (items.map ordered))) ++ [']'])
    rw [treeItems_eq_map, itemTexts_eq_map, List.map_map, List.map_map]
    rfl
  | dict hnames h ih => exact render_dict hnames ih

/-- Only values of the profile are printed. -/
theorem profile_of_render {v : Value} {text : List Char} (h : render v = .ok text) : Profile v := by
  induction v using Value.induction generalizing text with
  | null => exact .null
  | bool b => exact .bool b
  | int n =>
    unfold render at h
    obtain ⟨u, hu, -⟩ := map_ok h
    exact .int (requireIntegerRange_ok.mp hu)
  | str s =>
    unfold render jcsString at h
    obtain ⟨cs, hcs, -⟩ := map_ok h
    obtain rfl := requireUnicodeScalarText_ok.mp hcs
    exact .str cs
  | list items ih =>
    unfold render at h
    rw [renderItems_eq_mapM] at h
    obtain ⟨texts, htexts, -⟩ := map_ok h
    refine .list fun v hv => ?_
    obtain ⟨text, htext⟩ := mapM_ok_mem htexts v hv
    exact ih v hv htext
  | dict members ih =>
    unfold render at h
    obtain ⟨named, hnamed, h⟩ := bind_ok h
    obtain ⟨texts, htexts, -⟩ := bind_ok h
    have hnames : ∀ m ∈ members, ∃ cs, m.1 = points cs := by
      intro m hm
      have hmem : (m.1, render m.2) ∈ renderMembers members := by
        rw [renderMembers_eq_map]
        exact List.mem_map_of_mem hm
      obtain ⟨b, hb⟩ := mapM_ok_mem hnamed _ hmem
      obtain ⟨cs, hcs, -⟩ := map_ok hb
      exact ⟨cs, requireUnicodeScalarText_ok.mp hcs⟩
    have hall := Except.ok.inj (hnamed.symm.trans (mapM_names hnames))
    refine .dict hnames fun m hm => ?_
    have hmem : (charsOf m.1, render m.2) ∈ sortMembers named := by
      rw [sortMembers, mem_sortedBy, hall]
      exact List.mem_map_of_mem hm
    obtain ⟨text, htext⟩ := mapM_ok_mem htexts _ hmem
    obtain ⟨value, hvalue, -⟩ := map_ok htext
    exact ih m hm hvalue
  | other typeName =>
    unfold render at h
    cases h

/-! ## The ordered value -/

theorem Profile.ordered {v : Value} (h : Profile v) : Profile (ordered v) := by
  induction h with
  | null => exact .null
  | bool b => exact .bool b
  | int h => exact .int h
  | str cs => exact .str cs
  | list h ih =>
    rw [ordered_list]
    refine .list fun v hv => ?_
    obtain ⟨w, hw, rfl⟩ := List.mem_map.mp hv
    exact ih w hw
  | dict hnames h ih =>
    rw [ordered_dict]
    constructor
    · intro m hm
      obtain ⟨m', hm', rfl⟩ := List.mem_map.mp hm
      exact hnames m' ((mem_sortedBy _).mp hm')
    · intro m hm
      obtain ⟨m', hm', rfl⟩ := List.mem_map.mp hm
      exact ih m' ((mem_sortedBy _).mp hm')

theorem map_fst_ordered (members : List (Points × Value)) :
    (members.map fun m => (m.1, ordered m.2)).map Prod.fst = members.map Prod.fst := by
  rw [List.map_map]
  rfl

theorem Keyed.ordered {v : Value} (h : Keyed v) : Keyed (ordered v) := by
  induction h with
  | null => exact .null
  | bool b => exact .bool b
  | int n => exact .int n
  | str s => exact .str s
  | list h ih =>
    rw [ordered_list]
    refine .list fun v hv => ?_
    obtain ⟨w, hw, rfl⟩ := List.mem_map.mp hv
    exact ih w hw
  | @dict members hnames h ih =>
    rw [ordered_dict]
    constructor
    · rw [map_fst_ordered]
      exact ((sortedBy_perm _ _ members).map Prod.fst).nodup_iff.mpr hnames
    · intro m hm
      obtain ⟨m', hm', rfl⟩ := List.mem_map.mp hm
      exact ih m' ((mem_sortedBy _).mp hm')
  | other typeName => exact .other typeName

theorem orderMembers_pairwise {α : Type} (members : List (Points × α)) :
    (orderMembers members).Pairwise fun a b =>
      decide (utf16SortKey (charsOf b.1) < utf16SortKey (charsOf a.1)) = false := by
  unfold orderMembers
  exact pairwise_sortedBy_lt (fun m => utf16SortKey (charsOf m.1)) members

theorem ordered_ordered (v : Value) : ordered (ordered v) = ordered v := by
  induction v using Value.induction with
  | list items ih =>
    rw [ordered_list, ordered_list, List.map_map]
    congr 1
    exact List.map_congr_left ih
  | dict members ih =>
    have hsorted : orderMembers ((orderMembers members).map fun m => (m.1, ordered m.2)) =
        (orderMembers members).map fun m => (m.1, ordered m.2) := by
      apply sortedBy_eq_self
      rw [List.pairwise_map]
      exact orderMembers_pairwise members
    rw [ordered_dict, ordered_dict, hsorted, List.map_map]
    congr 1
    refine List.map_congr_left fun m hm => ?_
    exact congrArg (m.1, ·) (ih m ((mem_sortedBy _).mp hm))
  | _ => rfl

theorem written_treeOf {v : Value} (h : Profile v) : Written (treeOf v) := by
  induction h with
  | null => exact .null
  | bool b => exact .bool b
  | int h => exact .int _
  | str cs => exact .str cs
  | list h ih =>
    unfold treeOf
    rw [treeItems_eq_map]
    refine .arr fun t ht => ?_
    obtain ⟨v, hv, rfl⟩ := List.mem_map.mp ht
    exact ih v hv
  | dict hnames h ih =>
    unfold treeOf
    rw [treeMembers_eq_map]
    constructor
    · intro m hm
      obtain ⟨m', hm', rfl⟩ := List.mem_map.mp hm
      exact hnames m' hm'
    · intro m hm
      obtain ⟨m', hm', rfl⟩ := List.mem_map.mp hm
      exact ih m' hm'

/-! ## What is read -/

theorem head_ne_minus (n : Nat) : (Nat.toDigits 10 n).head? ≠ some '-' := by
  obtain ⟨c, tail, hdigits, hc⟩ := head_toDigits n
  rw [hdigits]
  intro heq
  rw [Option.some.inj heq] at hc
  exact absurd hc (by decide)

theorem intOf_toString {n : Int} (h : ijsonMinInteger ≤ n ∧ n ≤ ijsonMaxInteger) :
    intOf (toString n).toList = some n := by
  have hlength : (Nat.toDigits 10 n.natAbs).length ≤ 16 := by
    rw [Nat.length_toDigits_le_iff (by decide) (by decide)]
    unfold ijsonMinInteger ijsonMaxInteger at h
    omega
  have hvalue : digitsValue (Nat.toDigits 10 n.natAbs) = n.natAbs := Nat.ofDigitChars_ten_toDigits
  unfold intOf
  rw [toList_int]
  by_cases hneg : n < 0
  · simp only [if_pos hneg, List.head?_cons, if_true, List.tail_cons, maxStrDigits]
    rw [if_neg (by omega), hvalue]
    congr 1
    omega
  · simp only [if_neg hneg, if_neg (head_ne_minus n.natAbs), maxStrDigits]
    rw [if_neg (by omega), hvalue]
    congr 1
    omega

theorem parseInteger_toString {n : Int} (h : ijsonMinInteger ≤ n ∧ n ≤ ijsonMaxInteger) :
    parseInteger (toString n).toList = .ok (.int n) := by
  have hzero : (toString n).toList ≠ ['-', '0'] := by
    rw [toList_int]
    split_ifs with hneg
    · intro heq
      have hdigits := toDigits_zero_cons (List.cons.inj heq).2
      omega
    · intro heq
      exact head_ne_minus n.natAbs (by rw [heq]; rfl)
  unfold parseInteger
  rw [if_neg hzero, intOf_toString h]
  dsimp only
  rw [requireIntegerRange_ok.mpr h]
  rfl

/-- Members are kept when their names are distinct, and refused otherwise. -/
theorem uniqueObject_ok {result pairs : List (Points × Value)} {v : Value}
    (hresult : (result.map Prod.fst).Nodup) : uniqueObject result pairs = .ok v ↔
      ((result ++ pairs).map Prod.fst).Nodup ∧ v = .dict (result ++ pairs) := by
  induction pairs generalizing result with
  | nil =>
    rw [List.append_nil]
    unfold uniqueObject
    constructor
    · intro h
      cases h
      exact ⟨hresult, rfl⟩
    · rintro ⟨-, rfl⟩
      rfl
  | cons m rest ih =>
    obtain ⟨key, value⟩ := m
    unfold uniqueObject
    have hshift : result ++ (key, value) :: rest = (result ++ [(key, value)]) ++ rest := by simp
    by_cases hmem : key ∈ result.map Prod.fst
    · rw [if_pos hmem]
      constructor
      · intro h
        cases h
      · rintro ⟨hnodup, -⟩
        rw [List.map_append, List.nodup_append] at hnodup
        exact absurd rfl (hnodup.2.2 key hmem key (by simp))
    · rw [if_neg hmem, hshift]
      refine ih ?_
      rw [List.map_append, List.nodup_append]
      refine ⟨hresult, by simp, ?_⟩
      intro a ha b hb
      obtain rfl : b = key := by simpa using hb
      exact fun heq => hmem (heq ▸ ha)

theorem evalItems_eq_mapM (H : Hooks Value) (ts : List Tree) :
    evalItems H ts = ts.mapM (Tree.eval H) := by
  induction ts with
  | nil => rfl
  | cons t rest ih =>
    unfold evalItems
    rw [ih, List.mapM_cons]
    rfl

theorem evalMembers_eq_mapM (H : Hooks Value) (ms : List (Points × Tree)) :
    evalMembers H ms = ms.mapM fun m => (m.2.eval H).map (m.1, ·) := by
  induction ms with
  | nil => rfl
  | cons m rest ih =>
    obtain ⟨name, t⟩ := m
    unfold evalMembers
    rw [ih, List.mapM_cons]
    cases t.eval H <;> rfl

/-- The checking reader gives back a value of the profile. -/
theorem eval_treeOf {v : Value} (h : Profile v) (hkeyed : Keyed v) :
    (treeOf v).eval hooks = .ok v := by
  induction h with
  | null => rfl
  | bool b => rfl
  | int h => exact parseInteger_toString h
  | str cs => rfl
  | @list items h ih =>
    cases hkeyed with
    | list hkeyed =>
      have hvalues : evalItems hooks (treeItems items) = .ok items := by
        rw [treeItems_eq_map, evalItems_eq_mapM, List.mapM_map, mapM_ok (g := id), List.map_id]
        intro v hv
        exact ih v hv (hkeyed v hv)
      show (evalItems hooks (treeItems items)).map Value.list = _
      rw [hvalues]
      rfl
  | @dict members hnames h ih =>
    cases hkeyed with
    | dict hnodup hkeyed =>
      show evalMembers hooks (treeMembers members) >>= uniqueObject [] = _
      have hvalues : evalMembers hooks (treeMembers members) = .ok members := by
        rw [treeMembers_eq_map, evalMembers_eq_mapM, List.mapM_map, mapM_ok (g := id), List.map_id]
        intro m hm
        show ((treeOf m.2).eval hooks).map (m.1, ·) = _
        rw [ih m hm (hkeyed m hm)]
        rfl
      exact bind_of_ok hvalues ((uniqueObject_ok (by simp)).mpr ⟨hnodup, rfl⟩)

/-! ## Printing and reading together -/

theorem canonicalJson_ok {v : Value} {b : ByteArray} (h : canonicalJson v = .ok b) :
    Profile v ∧ b = (String.ofList (treeOf (ordered v)).text).toByteArray := by
  obtain ⟨text, htext, rfl⟩ := map_ok h
  have hprofile := profile_of_render htext
  rw [render_ok hprofile] at htext
  cases htext
  exact ⟨hprofile, rfl⟩

theorem canonicalJson_of_profile {v : Value} (h : Profile v) :
    canonicalJson v = .ok (String.ofList (treeOf (ordered v)).text).toByteArray := by
  unfold canonicalJson
  rw [render_ok h]
  rfl

/-- Reading the canonical text of a value gives its ordered value. -/
theorem loads_canonical {v : Value} (h : Profile v) (hkeyed : Keyed v) :
    loads hooks (points (treeOf (ordered v)).text) = .ok (ordered v) := by
  rw [loads_ok_iff]
  exact ⟨_, loads_text (written_treeOf h.ordered), eval_treeOf h.ordered hkeyed.ordered⟩

theorem decode_canonical {v : Value} (h : Profile v) :
    decode (.bytes (String.ofList (treeOf (ordered v)).text).toByteArray) =
      .ok (points (treeOf (ordered v)).text) := by
  obtain ⟨c, tail, htext, -, hascii⟩ := text_head (written_treeOf h.ordered)
  unfold decode
  dsimp only
  rw [String.toByteArray_ofList, decodeUtf8_encode]
  refine bind_of_ok rfl (if_neg ?_)
  rw [htext]
  intro heq
  rw [CodePoint.char.inj (Option.some.inj heq)] at hascii
  exact absurd hascii (by decide)

theorem canonicalizeJson_canonical {v : Value} {b : ByteArray} (hkeyed : Keyed v)
    (h : canonicalJson v = .ok b) : canonicalizeJson (.bytes b) = .ok b := by
  obtain ⟨hprofile, rfl⟩ := canonicalJson_ok h
  unfold canonicalizeJson
  refine bind_of_ok (decode_canonical hprofile) ?_
  rw [loads_canonical hprofile hkeyed]
  show canonicalJson (ordered v) = _
  rw [canonicalJson_of_profile hprofile.ordered, ordered_ordered]

/-! ## Values up to member order -/

/-- The same value, up to the order of members at every depth. -/
inductive Same : Value → Value → Prop
  | null : Same .null .null
  | bool (b : Bool) : Same (.bool b) (.bool b)
  | int (n : Int) : Same (.int n) (.int n)
  | str (s : Points) : Same (.str s) (.str s)
  | list {items items' : List Value} (h : List.Forall₂ Same items items') :
      Same (.list items) (.list items')
  | dict {members members' l l' : List (Points × Value)} (hperm : l.Perm members)
      (hperm' : l'.Perm members') (hnames : l.map Prod.fst = l'.map Prod.fst)
      (h : List.Forall₂ Same (l.map Prod.snd) (l'.map Prod.snd)) :
      Same (.dict members) (.dict members')
  | other (typeName : String) : Same (.other typeName) (.other typeName)

theorem forall₂_of_map_eq {α β γ : Type} {f : α → γ} {g : β → γ} {R : α → β → Prop}
    {l : List α} {l' : List β} (heq : l.map f = l'.map g)
    (h : ∀ a ∈ l, ∀ b, f a = g b → R a b) : List.Forall₂ R l l' := by
  induction l generalizing l' with
  | nil =>
    cases l' with
    | nil => exact .nil
    | cons b rest => cases heq
  | cons a rest ih =>
    cases l' with
    | nil => cases heq
    | cons b rest' =>
      rw [List.map_cons, List.map_cons, List.cons.injEq] at heq
      refine .cons (h a List.mem_cons_self b heq.1) (ih heq.2 ?_)
      intro a' ha'
      exact h a' (List.mem_cons_of_mem a ha')

theorem map_eq_of_forall₂ {α β γ : Type} {f : α → γ} {g : β → γ} {R : α → β → Prop}
    {l : List α} {l' : List β} (hrel : List.Forall₂ R l l')
    (h : ∀ a ∈ l, ∀ b ∈ l', R a b → f a = g b) : l.map f = l'.map g := by
  induction hrel with
  | nil => rfl
  | @cons a b rest rest' hab hrest ih =>
    have hhead : f a = g b := h a List.mem_cons_self b List.mem_cons_self hab
    rw [List.map_cons, List.map_cons, hhead, ih]
    intro a' ha' b' hb'
    exact h a' (List.mem_cons_of_mem a ha') b' (List.mem_cons_of_mem b hb')

/-- Values of one ordered value are the same. -/
theorem same_of_ordered {v w : Value} (h : ordered v = ordered w) : Same v w := by
  induction v using Value.induction generalizing w with
  | null => cases w <;> cases h; exact .null
  | bool b => cases w <;> cases h; exact .bool b
  | int n => cases w <;> cases h; exact .int n
  | str s => cases w <;> cases h; exact .str s
  | list items ih =>
    cases w with
    | list items' =>
      rw [ordered_list, ordered_list, Value.list.injEq] at h
      exact .list (forall₂_of_map_eq h fun v hv w heq => ih v hv heq)
    | _ =>
      rw [ordered_list] at h
      cases h
  | dict members ih =>
    cases w with
    | dict members' =>
      rw [ordered_dict, ordered_dict, Value.dict.injEq] at h
      have hnames := congrArg (List.map Prod.fst) h
      rw [map_fst_ordered, map_fst_ordered] at hnames
      refine .dict (sortedBy_perm _ _ members) (sortedBy_perm _ _ members') hnames ?_
      rw [List.forall₂_map_left_iff, List.forall₂_map_right_iff]
      refine forall₂_of_map_eq h fun m hm m' heq => ?_
      exact ih m ((mem_sortedBy _).mp hm) (Prod.mk.inj heq).2
    | _ =>
      rw [ordered_dict] at h
      cases h
  | other typeName => cases w <;> cases h; exact .other typeName

theorem orderMembers_eq {α : Type} {members members' : List (Points × α)}
    (hperm : members.Perm members') (hnodup : (members.map Prod.fst).Nodup)
    (hnames : ∀ m ∈ members, ∃ cs, m.1 = points cs) :
    orderMembers members = orderMembers members' := by
  have hsorted := @sortedBy_eq_of_perm _ _ _ _ _ _ _ (fun m : Points × α => utf16SortKey (charsOf m.1))
    members members' hperm
  refine hsorted fun a ha b hb hkey => ?_
  have hname : a.1 = b.1 := by
    obtain ⟨cs, hcs⟩ := hnames a ha
    obtain ⟨ds, hds⟩ := hnames b hb
    have hchars := utf16SortKey_inj hkey
    rw [hcs, hds, charsOf_points, charsOf_points] at hchars
    rw [hcs, hds, hchars]
  exact List.inj_on_of_nodup_map hnodup ha hb hname

theorem ordered_of_same {v w : Value} (hv : Profile v) (hkeyed : Keyed v) (h : Same v w) :
    ordered v = ordered w := by
  induction hv generalizing w with
  | null => cases h; rfl
  | bool b => cases h; rfl
  | int _ => cases h; rfl
  | str cs => cases h; rfl
  | list _ ih =>
    cases h with
    | list h =>
      cases hkeyed with
      | list hkeyed =>
        rw [ordered_list, ordered_list]
        congr 1
        exact map_eq_of_forall₂ h fun v hv w _ hsame => ih v hv (hkeyed v hv) hsame
  | @dict members hscalar _ ih =>
    cases h with
    | @dict _ members' l l' hperm hperm' hnames h =>
      cases hkeyed with
      | dict hnodup hkeyed =>
        have hvalues : (l.map Prod.snd).map ordered = (l'.map Prod.snd).map ordered := by
          refine map_eq_of_forall₂ h fun v hv w _ hsame => ?_
          obtain ⟨m, hm, rfl⟩ := List.mem_map.mp hv
          have hmem := hperm.mem_iff.mp hm
          exact ih m hmem (hkeyed m hmem) hsame
        have hmembers : l.map (fun m => (m.1, ordered m.2)) =
            l'.map fun m => (m.1, ordered m.2) := by
          rw [List.map_map, List.map_map] at hvalues
          refine List.ext_getElem (by simpa using congrArg List.length hnames) fun i hi hi' => ?_
          have hname := List.getElem_of_eq hnames (i := i) (by simpa using hi)
          have hvalue := List.getElem_of_eq hvalues (i := i) (by simpa using hi)
          rw [List.getElem_map, List.getElem_map] at hname hvalue ⊢
          exact Prod.ext hname hvalue
        rw [ordered_members, ordered_members]
        congr 1
        apply orderMembers_eq
        · have hpermMap := (hperm.map fun m => (m.1, ordered m.2)).symm
          rw [hmembers] at hpermMap
          exact hpermMap.trans (hperm'.map _)
        · rw [map_fst_ordered]
          exact hnodup
        · intro m hm
          obtain ⟨m', hm', rfl⟩ := List.mem_map.mp hm
          exact hscalar m' hm'

/-- Canonical bytes tell values apart up to the order of members. -/
theorem canonicalJson_eq_iff {v w : Value} (hv : Profile v) (hw : Profile w) (hkeyed : Keyed v)
    (hkeyed' : Keyed w) : canonicalJson v = canonicalJson w ↔ Same v w := by
  rw [canonicalJson_of_profile hv, canonicalJson_of_profile hw]
  constructor
  · intro h
    have htext : (treeOf (ordered v)).text = (treeOf (ordered w)).text :=
      String.ofList_injective (String.toByteArray_inj.mp (Except.ok.inj h))
    have hread := loads_canonical hv hkeyed
    rw [htext, loads_canonical hw hkeyed'] at hread
    exact same_of_ordered (Except.ok.inj hread).symm
  · intro h
    rw [ordered_of_same hv hkeyed h]

/-! ## What is refused -/

/-- A node of a document, at any depth. -/
inductive Within (node : Tree) : Tree → Prop
  | self : Within node node
  | item {items : List Tree} {t : Tree} (hmem : t ∈ items) (h : Within node t) :
      Within node (.arr items)
  | member {members : List (Points × Tree)} {m : Points × Tree} (hmem : m ∈ members)
      (h : Within node m.2) : Within node (.obj members)

/-- The integer a literal spells. -/
def literalValue (lexeme : List Char) : Int :=
  if lexeme.head? = some '-' then -(digitsValue lexeme.tail : Int) else digitsValue lexeme

/-- A node that the profile forbids. -/
inductive Offends : Tree → Prop
  | duplicate {members : List (Points × Tree)} (h : ¬ (members.map Prod.fst).Nodup) :
      Offends (.obj members)
  | negativeZero : Offends (.number true ['-', '0'])
  | nonInteger (lexeme : List Char) : Offends (.number false lexeme)
  | constant (name : String) : Offends (.literal (.constant name))
  | range {lexeme : List Char}
      (h : literalValue lexeme < ijsonMinInteger ∨ ijsonMaxInteger < literalValue lexeme) :
      Offends (.number true lexeme)
  /-- A literal longer than the interpreter reads. -/
  | long {lexeme : List Char} (h : intOf lexeme = none) : Offends (.number true lexeme)
  | str {s : Points} {n : Fin 2048} (h : CodePoint.surrogate n ∈ s) : Offends (.str s)
  | name {members : List (Points × Tree)} {m : Points × Tree} {n : Fin 2048} (hmem : m ∈ members)
      (h : CodePoint.surrogate n ∈ m.1) : Offends (.obj members)

theorem intOf_eq_some {lexeme : List Char} {n : Int} (h : intOf lexeme = some n) :
    n = literalValue lexeme := by
  unfold intOf at h
  dsimp only at h
  unfold literalValue
  by_cases hneg : lexeme.head? = some '-'
  · simp only [if_pos hneg] at h ⊢
    split_ifs at h
    exact (Option.some.inj h).symm
  · simp only [if_neg hneg] at h ⊢
    split_ifs at h
    exact (Option.some.inj h).symm

theorem parseInteger_ok {lexeme : List Char} {v : Value} (h : parseInteger lexeme = .ok v) :
    lexeme ≠ ['-', '0'] ∧ intOf lexeme = some (literalValue lexeme) ∧
      (ijsonMinInteger ≤ literalValue lexeme ∧ literalValue lexeme ≤ ijsonMaxInteger) ∧
      v = .int (literalValue lexeme) := by
  unfold parseInteger at h
  split_ifs at h with hzero
  split at h
  · cases h
  · rename_i n hn
    obtain ⟨u, hu, rfl⟩ := map_ok h
    obtain rfl := intOf_eq_some hn
    exact ⟨hzero, hn, requireIntegerRange_ok.mp hu, rfl⟩

@[elab_as_elim]
theorem tree_induction {P : Tree → Prop} (literal : ∀ word, P (.literal word))
    (str : ∀ s, P (.str s)) (number : ∀ integral lexeme, P (.number integral lexeme))
    (arr : ∀ items, (∀ t ∈ items, P t) → P (.arr items))
    (obj : ∀ members, (∀ m ∈ members, P m.2) → P (.obj members)) (t : Tree) : P t := by
  refine Tree.rec (motive_1 := P) (motive_2 := fun l => ∀ t ∈ l, P t)
    (motive_3 := fun l => ∀ m ∈ l, P m.2) (motive_4 := fun m => P m.2) literal str number arr obj
    ?_ ?_ ?_ ?_ ?_ t
  · intro t ht
    cases ht
  · intro head tail hhead htail t ht
    rcases List.mem_cons.mp ht with rfl | ht
    · exact hhead
    · exact htail t ht
  · intro m hm
    cases hm
  · intro head tail hhead htail m hm
    rcases List.mem_cons.mp hm with rfl | hm
    · exact hhead
    · exact htail m hm
  · intro name t ht
    exact ht

/-- What the reader gives for an array, item by item. -/
theorem eval_arr {items : List Tree} {v : Value} : (Tree.arr items).eval hooks = .ok v ↔
    ∃ vs, List.Forall₂ (fun t v => t.eval hooks = .ok v) items vs ∧ v = .list vs := by
  show (evalItems hooks items).map Value.list = _ ↔ _
  rw [evalItems_eq_mapM]
  constructor
  · intro h
    obtain ⟨vs, hvs, rfl⟩ := map_ok h
    exact ⟨vs, mapM_ok_values hvs, rfl⟩
  · rintro ⟨vs, hvs, rfl⟩
    rw [mapM_of_values hvs]
    rfl

/-- What it gives for an object, member by member. -/
theorem eval_obj {members : List (Points × Tree)} {v : Value} :
    (Tree.obj members).eval hooks = .ok v ↔ (members.map Prod.fst).Nodup ∧
      ∃ vs, List.Forall₂ (fun m w => m.1 = w.1 ∧ m.2.eval hooks = .ok w.2) members vs ∧
        v = .dict vs := by
  have hrel : ∀ vs, members.mapM (fun m => (m.2.eval hooks).map (m.1, ·)) = .ok vs ↔
      List.Forall₂ (fun m w => m.1 = w.1 ∧ m.2.eval hooks = .ok w.2) members vs := by
    intro vs
    constructor
    · intro h
      refine (mapM_ok_values h).imp fun m w hw => ?_
      obtain ⟨v, hv, rfl⟩ := map_ok hw
      exact ⟨rfl, hv⟩
    · intro h
      refine mapM_of_values (h.imp fun m w hw => ?_)
      rw [hw.2, hw.1]
      rfl
  have hnames : ∀ {vs}, List.Forall₂ (fun m w => m.1 = w.1 ∧ m.2.eval hooks = .ok w.2) members vs →
      members.map Prod.fst = vs.map Prod.fst :=
    fun h => map_eq_of_forall₂ h fun m _ w _ hw => hw.1
  show evalMembers hooks members >>= uniqueObject [] = _ ↔ _
  rw [evalMembers_eq_mapM]
  constructor
  · intro h
    obtain ⟨vs, hvs, h⟩ := bind_ok h
    obtain ⟨hnodup, rfl⟩ := (uniqueObject_ok (by simp)).mp h
    rw [hrel] at hvs
    exact ⟨hnames hvs ▸ hnodup, vs, hvs, rfl⟩
  · rintro ⟨hnodup, vs, hvs, rfl⟩
    exact bind_of_ok ((hrel vs).mpr hvs)
      ((uniqueObject_ok (by simp)).mpr ⟨hnames hvs ▸ hnodup, rfl⟩)

/-- The reader builds dictionaries of distinct names only. -/
theorem keyed_of_eval {t : Tree} {v : Value} (h : t.eval hooks = .ok v) : Keyed v := by
  induction t using tree_induction generalizing v with
  | literal word =>
    cases word with
    | null => cases h; exact .null
    | bool b => cases h; exact .bool b
    | constant name => cases h
  | str s =>
    cases h
    exact .str s
  | number integral lexeme =>
    cases integral with
    | false => cases h
    | true =>
      obtain ⟨-, -, -, rfl⟩ := parseInteger_ok h
      exact .int _
  | arr items ih =>
    obtain ⟨vs, hvs, rfl⟩ := eval_arr.mp h
    refine .list fun v hv => ?_
    obtain ⟨t, ht, heval⟩ := exists_of_forall₂ hvs hv
    exact ih t ht heval
  | obj members ih =>
    obtain ⟨hnodup, vs, hvs, rfl⟩ := eval_obj.mp h
    constructor
    · rw [← map_eq_of_forall₂ hvs fun m _ w _ hw => hw.1]
      exact hnodup
    · intro w hw
      obtain ⟨m, hm, heval⟩ := exists_of_forall₂ hvs hw
      exact ih m hm heval.2

/-- A node of a document that is read is read. -/
theorem eval_within {node t : Tree} {v : Value} (hwithin : Within node t)
    (h : t.eval hooks = .ok v) (hprofile : Profile v) :
    ∃ w, node.eval hooks = .ok w ∧ Profile w := by
  induction hwithin generalizing v with
  | self => exact ⟨v, h, hprofile⟩
  | item hmem _ ih =>
    obtain ⟨vs, hvs, rfl⟩ := eval_arr.mp h
    obtain ⟨w, hw, heval⟩ := exists_of_forall₂ hvs.flip hmem
    cases hprofile with
    | list hprofile => exact ih heval (hprofile w hw)
  | member hmem _ ih =>
    obtain ⟨-, vs, hvs, rfl⟩ := eval_obj.mp h
    obtain ⟨w, hw, -, heval⟩ := exists_of_forall₂ hvs.flip hmem
    cases hprofile with
    | dict _ hprofile => exact ih heval (hprofile w hw)

theorem surrogate_notMem (cs : List Char) (n : Fin 2048) : CodePoint.surrogate n ∉ points cs := by
  intro h
  obtain ⟨c, -, heq⟩ := List.mem_map.mp h
  cases heq

/-- A node that offends gives no value of the profile. -/
theorem not_eval_of_offends {node : Tree} (hoffends : Offends node) {v : Value}
    (h : node.eval hooks = .ok v) : ¬ Profile v := by
  intro hprofile
  cases hoffends with
  | duplicate hrepeated => exact hrepeated (eval_obj.mp h).1
  | negativeZero => cases h
  | nonInteger lexeme => cases h
  | constant name => cases h
  | range hrange =>
    obtain ⟨-, -, hvalue, -⟩ := parseInteger_ok h
    omega
  | long hlong =>
    obtain ⟨-, hread, -, -⟩ := parseInteger_ok h
    rw [hlong] at hread
    cases hread
  | str hmem =>
    cases h
    cases hprofile with
    | str cs => exact surrogate_notMem cs _ hmem
  | name hmem hsurrogate =>
    obtain ⟨-, vs, hvs, rfl⟩ := eval_obj.mp h
    obtain ⟨w, hw, hname, -⟩ := exists_of_forall₂ hvs.flip hmem
    cases hprofile with
    | dict hnames _ =>
      obtain ⟨cs, hcs⟩ := hnames w hw
      rw [hname, hcs] at hsurrogate
      exact surrogate_notMem cs _ hsurrogate

theorem points_of_no_surrogate {s : Points} (h : ∀ n, CodePoint.surrogate n ∉ s) :
    ∃ cs, s = points cs := by
  obtain ⟨cs, hcs⟩ := Option.isSome_iff_exists.mp ((scalars_isSome_iff s).mpr h)
  exact ⟨cs, eq_points_of_scalars hcs⟩

/-- A choice of results along a list. -/
theorem forall₂_of_exists {α β : Type} {R : α → β → Prop} {P : β → Prop} {l : List α}
    (h : ∀ a ∈ l, ∃ b, R a b ∧ P b) : ∃ bs, List.Forall₂ R l bs ∧ ∀ b ∈ bs, P b := by
  induction l with
  | nil => exact ⟨[], .nil, by simp⟩
  | cons a rest ih =>
    obtain ⟨b, hb, hP⟩ := h a List.mem_cons_self
    obtain ⟨later, hlater, hall⟩ := ih fun a' ha' => h a' (List.mem_cons_of_mem a ha')
    refine ⟨b :: later, .cons hb hlater, ?_⟩
    intro b' hb'
    rcases List.mem_cons.mp hb' with rfl | hb'
    · exact hP
    · exact hall b' hb'

/-- A document without an offending node gives a value of the profile. -/
theorem eval_of_no_offence {t : Tree} (h : ∀ node, Within node t → ¬ Offends node) :
    ∃ v, t.eval hooks = .ok v ∧ Profile v := by
  have hself := h t .self
  induction t using tree_induction with
  | literal word =>
    cases word with
    | null => exact ⟨.null, rfl, .null⟩
    | bool b => exact ⟨.bool b, rfl, .bool b⟩
    | constant name => exact absurd (.constant name) hself
  | str s =>
    obtain ⟨cs, rfl⟩ := points_of_no_surrogate fun n hn => hself (.str hn)
    exact ⟨.str (points cs), rfl, .str cs⟩
  | number integral lexeme =>
    cases integral with
    | false => exact absurd (.nonInteger lexeme) hself
    | true =>
      have hzero : lexeme ≠ ['-', '0'] := by
        rintro rfl
        exact hself .negativeZero
      cases hread : intOf lexeme with
      | none => exact absurd (.long hread) hself
      | some n =>
        obtain rfl := intOf_eq_some hread
        have hrange : ijsonMinInteger ≤ literalValue lexeme ∧
            literalValue lexeme ≤ ijsonMaxInteger := by
          by_contra hout
          exact hself (.range (by omega))
        refine ⟨.int (literalValue lexeme), ?_, .int hrange⟩
        show parseInteger lexeme = _
        unfold parseInteger
        rw [if_neg hzero, hread]
        show (requireIntegerRange (literalValue lexeme)).map _ = _
        rw [requireIntegerRange_ok.mpr hrange]
        rfl
  | arr items ih =>
    have hitems : ∀ t ∈ items, ∃ v, t.eval hooks = .ok v ∧ Profile v := by
      intro t ht
      exact ih t ht (fun node hnode => h node (.item ht hnode)) (h t (.item ht .self))
    obtain ⟨vs, hvs, hprofile⟩ := forall₂_of_exists hitems
    exact ⟨.list vs, eval_arr.mpr ⟨vs, hvs, rfl⟩, .list hprofile⟩
  | obj members ih =>
    have hmembers : ∀ m ∈ members, ∃ w : Points × Value,
        (m.1 = w.1 ∧ m.2.eval hooks = .ok w.2) ∧ (∃ cs, w.1 = points cs) ∧ Profile w.2 := by
      intro m hm
      obtain ⟨v, hv, hprofile⟩ := ih m hm (fun node hnode => h node (.member hm hnode))
        (h m.2 (.member hm .self))
      have hname := points_of_no_surrogate fun n hn => hself (.name hm hn)
      exact ⟨(m.1, v), ⟨rfl, hv⟩, hname, hprofile⟩
    obtain ⟨vs, hvs, hall⟩ := forall₂_of_exists hmembers
    have hnodup : (members.map Prod.fst).Nodup := by
      by_contra hrepeated
      exact hself (.duplicate hrepeated)
    refine ⟨.dict vs, eval_obj.mpr ⟨hnodup, vs, hvs, rfl⟩, ?_⟩
    exact .dict (fun w hw => (hall w hw).1) fun w hw => (hall w hw).2

/-! ## The canonical form -/

/-- A text is accepted when it is JSON without an offending node. -/
theorem canonicalizeJson_ok_iff (raw : Raw) : (∃ b, canonicalizeJson raw = .ok b) ↔
    ∃ text t, decode raw = .ok text ∧ loads Tree.hooks text = .ok t ∧
      ∀ node, Within node t → ¬ Offends node := by
  constructor
  · rintro ⟨b, h⟩
    obtain ⟨text, htext, h⟩ := bind_ok h
    split at h
    · rename_i v hv
      obtain ⟨t, ht, heval⟩ := (loads_ok_iff hooks text v).mp hv
      refine ⟨text, t, htext, ht, fun node hnode hoffends => ?_⟩
      obtain ⟨w, hw, hprofile⟩ := eval_within hnode heval (canonicalJson_ok h).1
      exact not_eval_of_offends hoffends hw hprofile
    · cases h
    · cases h
  · rintro ⟨text, t, htext, ht, hnodes⟩
    obtain ⟨v, heval, hprofile⟩ := eval_of_no_offence hnodes
    have hread := (loads_ok_iff hooks text v).mpr ⟨t, ht, heval⟩
    refine ⟨_, (bind_of_ok htext (r := canonicalJson v) ?_).trans (canonicalJson_of_profile hprofile)⟩
    rw [hread]

/-- An accepted text is canonicalized to the bytes of a keyed value. -/
theorem canonicalJson_of_canonicalizeJson {raw : Raw} {b : ByteArray}
    (h : canonicalizeJson raw = .ok b) : ∃ v, Keyed v ∧ canonicalJson v = .ok b := by
  obtain ⟨text, htext, h⟩ := bind_ok h
  split at h
  · rename_i v hv
    obtain ⟨t, -, heval⟩ := (loads_ok_iff hooks text v).mp hv
    exact ⟨v, keyed_of_eval heval, h⟩
  · cases h
  · cases h

/-- Canonical bytes tell the values of the profile apart up to the order of
members, and the reader gives them back, as it gives back its own results;
a text with a node that offends, at any depth, is refused. -/
theorem canonical_form :
    (∀ v w, Profile v → Profile w → Keyed v → Keyed w →
      (canonicalJson v = canonicalJson w ↔ Same v w)) ∧
    (∀ v b, Keyed v → canonicalJson v = .ok b → canonicalizeJson (.bytes b) = .ok b) ∧
    (∀ raw b, canonicalizeJson raw = .ok b → canonicalizeJson (.bytes b) = .ok b) ∧
    ∀ raw text t node, decode raw = .ok text → loads Tree.hooks text = .ok t → Within node t →
      Offends node → ∃ message, canonicalizeJson raw = .error message := by
  refine ⟨fun v w hv hw => canonicalJson_eq_iff hv hw, fun v b => canonicalizeJson_canonical, ?_, ?_⟩
  · intro raw b h
    obtain ⟨v, hkeyed, hv⟩ := canonicalJson_of_canonicalizeJson h
    exact canonicalizeJson_canonical hkeyed hv
  · intro raw text t node htext ht hwithin hoffends
    cases hresult : canonicalizeJson raw with
    | error message => exact ⟨message, rfl⟩
    | ok b =>
      obtain ⟨text', t', htext', ht', hnodes⟩ := (canonicalizeJson_ok_iff raw).mp ⟨b, hresult⟩
      obtain rfl := Except.ok.inj (htext.symm.trans htext')
      obtain rfl := Except.ok.inj (ht.symm.trans ht')
      exact absurd hoffends (hnodes node hwithin)

/-- `{"b": [-1], "a": null}`. -/
def smallValue : Value :=
  .dict [(points ['b'], .list [.int (-1)]), (points ['a'], .null)]

/-- Its members the other way round. -/
def smallSwapped : Value :=
  .dict [(points ['a'], .null), (points ['b'], .list [.int (-1)])]

theorem canonical_form_small :
    (∃ b, canonicalJson smallValue = .ok b ∧ canonicalJson smallSwapped = .ok b ∧
      canonicalizeJson (.bytes b) = .ok b) ∧
    ∃ message, canonicalizeJson (.text (points ['[', '-', '0', ']'])) = .error message := by
  obtain ⟨hsame, hback, -, hrefuse⟩ := canonical_form
  have hminus : Profile (.list [.int (-1)]) := by
    refine .list fun v hv => ?_
    obtain rfl := List.mem_singleton.mp hv
    exact .int (by decide)
  have hkeyedMinus : Keyed (.list [.int (-1)]) := by
    refine .list fun v hv => ?_
    obtain rfl := List.mem_singleton.mp hv
    exact .int (-1)
  have hprofile : Profile smallValue := by
    refine .dict ?_ ?_ <;> simp only [List.forall_mem_cons, List.not_mem_nil]
    · exact ⟨⟨_, rfl⟩, ⟨_, rfl⟩, by simp⟩
    · exact ⟨hminus, .null, by simp⟩
  have hprofile' : Profile smallSwapped := by
    refine .dict ?_ ?_ <;> simp only [List.forall_mem_cons, List.not_mem_nil]
    · exact ⟨⟨_, rfl⟩, ⟨_, rfl⟩, by simp⟩
    · exact ⟨.null, hminus, by simp⟩
  have hkeyed : Keyed smallValue := by
    refine .dict (by decide) ?_
    simp only [List.forall_mem_cons, List.not_mem_nil]
    exact ⟨hkeyedMinus, .null, by simp⟩
  have hkeyed' : Keyed smallSwapped := by
    refine .dict (by decide) ?_
    simp only [List.forall_mem_cons, List.not_mem_nil]
    exact ⟨.null, hkeyedMinus, by simp⟩
  have hswap : Same smallValue smallSwapped := by
    refine .dict (.swap _ _ _) (.refl _) rfl ?_
    exact .cons .null (.cons (.list (.cons (.int _) .nil)) .nil)
  constructor
  · obtain hb := canonicalJson_of_profile hprofile
    refine ⟨_, hb, ?_, hback _ _ hkeyed hb⟩
    rw [← (hsame _ _ hprofile hprofile' hkeyed hkeyed').mpr hswap, hb]
  · exact hrefuse _ _ (.arr [.number true ['-', '0']]) _ rfl rfl (.item List.mem_cons_self .self)
      .negativeZero

end SynapseChannel.AefCanonical
