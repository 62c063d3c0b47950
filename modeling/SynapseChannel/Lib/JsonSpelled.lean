import SynapseChannel.Lib.JsonCanonical
import SynapseChannel.Lib.JsonRead

/-!
# Lib — JsonSpelled

Texts of a value with blanks between its parts. `json.loads` reads every
such text back to the value, and `json.dumps` with an indent writes one.
-/

namespace Py

/-! ## Texts of a value -/

/-- JSON whitespace. -/
def isBlank (c : Char) : Bool := c = ' ' || c = '\t' || c = '\n' || c = '\r'

/-- What may stand between the parts of a value. -/
def Gap (gap : List Char) : Prop := ∀ c ∈ gap, isBlank c = true

/-- What may follow a value among blanks. -/
def Stops (rest : List Char) : Prop :=
  ∀ c, rest.head? = some c → isBlank c = true ∨ c = ',' ∨ c = ']' ∨ c = '\x7d'

/-- Texts with a comma and a gap between. -/
def joinGap (gap : List Char) : List (List Char) → List Char
  | [] => []
  | [text] => text
  | text :: rest => text ++ (',' :: gap ++ joinGap gap rest)

/-- A text that starts a value. -/
def Starts (text : List Char) : Prop := ∃ c tail, text = c :: tail ∧ Opens c

/-- The inside of a JSON string that reads as `name`. -/
def Quotes (name : String) (body : List Char) : Prop :=
  name.toList.length ≤ body.length ∧ ∀ fuel rest, name.toList.length < fuel →
    readString fuel (body ++ '"' :: rest) = some (name.toList, rest)

/-- A member of an object with its text. -/
structure FieldText where
  name : String
  body : List Char
  value : Json
  text : List Char

def FieldText.member (f : FieldText) : String × Json := (f.name, f.value)

def FieldText.spelled (colon : List Char) (f : FieldText) : List Char :=
  '"' :: f.body ++ '"' :: ':' :: (colon ++ f.text)

variable [Builtins]

/-- A text that reads as one value without parts. -/
structure Scans (v : Json) (text : List Char) : Prop where
  starts : Starts text
  reads : ∀ fuel rest, text.length ≤ fuel → Stops rest →
    readValue (fuel + 1) (text ++ rest) = some (v, rest)

/-- The texts of a value. -/
inductive Spelled : Json → List Char → Prop
  | scalar {v : Json} {text : List Char} (h : Scans v text) : Spelled v text
  | arr {parts : List (Json × List Char)} {start sep stop : List Char} (hstart : Gap start)
      (hsep : Gap sep) (hstop : Gap stop) (h : ∀ p ∈ parts, Spelled p.1 p.2) :
      Spelled (.arr (parts.map Prod.fst))
        ('[' :: (start ++ (joinGap sep (parts.map Prod.snd) ++ (stop ++ [']']))))
  | obj {fields : List FieldText} {start colon sep stop : List Char} (hstart : Gap start)
      (hcolon : Gap colon) (hsep : Gap sep) (hstop : Gap stop)
      (hnames : (fields.map FieldText.name).Nodup) (hbody : ∀ f ∈ fields, Quotes f.name f.body)
      (h : ∀ f ∈ fields, Spelled f.value f.text) :
      Spelled (.obj (fields.map FieldText.member))
        ('\x7b' :: (start ++ (joinGap sep (fields.map (FieldText.spelled colon)) ++
          (stop ++ ['\x7d']))))

/-! ## Blanks -/

section Blanks

omit [Builtins]

theorem skipBlanks_gap {gap : List Char} (h : Gap gap) (rest : List Char) :
    skipBlanks (gap ++ rest) = skipBlanks rest := by
  unfold skipBlanks
  exact List.dropWhile_append_of_pos fun c hc => by simpa [isBlank] using h c hc

theorem skipBlanks_starts {text : List Char} (h : Starts text) (rest : List Char) :
    skipBlanks (text ++ rest) = text ++ rest := by
  obtain ⟨c, tail, rfl, hopens⟩ := h
  rw [List.cons_append, skipBlanks_cons hopens]

theorem Gap.nil : Gap [] := fun _ h => nomatch h

theorem stops_gap {gap : List Char} (h : Gap gap) {c : Char} (hc : c = ',' ∨ c = ']' ∨ c = '\x7d')
    (rest : List Char) : Stops (gap ++ c :: rest) := by
  intro d hd
  cases gap with
  | nil =>
    cases hd
    exact .inr hc
  | cons b more =>
    cases hd
    exact .inl (h _ List.mem_cons_self)

theorem stops_cons {c : Char} (hc : c = ',' ∨ c = ']' ∨ c = '\x7d') (rest : List Char) :
    Stops (c :: rest) := stops_gap Gap.nil hc rest

theorem Stops.number {rest : List Char} (h : Stops rest) : NumberEnds rest := by
  intro c hc
  have hall := h c hc
  simp only [isBlank, Bool.or_eq_true, decide_eq_true_eq] at hall
  rcases hall with (((rfl | rfl) | rfl) | rfl) | rfl | rfl | rfl <;> decide

theorem joinGap_cons_cons (gap text next : List Char) (more : List (List Char)) :
    joinGap gap (text :: next :: more) = text ++ (',' :: gap ++ joinGap gap (next :: more)) := rfl

theorem starts_joinGap {text : List Char} (h : Starts text) (gap : List Char)
    (more : List (List Char)) : Starts (joinGap gap (text :: more)) := by
  obtain ⟨c, tail, rfl, hopens⟩ := h
  cases more with
  | nil => exact ⟨c, tail, rfl, hopens⟩
  | cons next more => exact ⟨c, _, rfl, hopens⟩

theorem starts_spelled (colon : List Char) (f : FieldText) : Starts (f.spelled colon) :=
  ⟨'"', _, rfl, by decide⟩

end Blanks

theorem Spelled.starts {v : Json} {text : List Char} (h : Spelled v text) : Starts text := by
  cases h with
  | scalar h => exact h.starts
  | arr => exact ⟨'[', _, rfl, by decide⟩
  | obj => exact ⟨'\x7b', _, rfl, by decide⟩

/-! ## Reading a text back -/

/-- What reading one text of a value gives. -/
def ReadsAs (v : Json) (text : List Char) : Prop :=
  ∀ fuel rest, 2 * text.length ≤ fuel → Stops rest → readValue fuel (text ++ rest) = some (v, rest)

theorem readItems_joinGap {parts : List (Json × List Char)} (hne : parts ≠ [])
    (hstarts : ∀ p ∈ parts, Starts p.2) (hreads : ∀ p ∈ parts, ReadsAs p.1 p.2)
    {sep stop : List Char} (hsep : Gap sep) (hstop : Gap stop) (fuel : Nat) (rest : List Char)
    (hfuel : 2 * ((joinGap sep (parts.map Prod.snd)).length + 1) ≤ fuel) :
    readItems fuel (joinGap sep (parts.map Prod.snd) ++ (stop ++ ']' :: rest)) =
      some (parts.map Prod.fst, rest) := by
  induction parts generalizing fuel with
  | nil => exact absurd rfl hne
  | cons p later ih =>
    obtain ⟨fuel, rfl⟩ : ∃ n, fuel = n + 1 := ⟨fuel - 1, by omega⟩
    have hp := hreads p List.mem_cons_self
    cases later with
    | nil =>
      simp only [List.map_cons, List.map_nil, joinGap] at hfuel ⊢
      unfold readItems
      rw [hp fuel _ (by omega) (stops_gap hstop (by decide) rest), Option.bind_eq_bind,
        Option.bind_some]
      dsimp only
      rw [skipBlanks_gap hstop]
      rfl
    | cons q later =>
      have hnext := ih (by simp) (fun x hx => hstarts x (List.mem_cons_of_mem _ hx))
        (fun x hx => hreads x (List.mem_cons_of_mem _ hx)) fuel
      rw [List.map_cons] at hnext
      have hopens := starts_joinGap (hstarts q (by simp)) sep (later.map Prod.snd)
      rw [List.map_cons, List.map_cons, joinGap_cons_cons] at hfuel ⊢
      simp only [List.length_append, List.length_cons] at hfuel
      rw [List.append_assoc, List.append_assoc]
      unfold readItems
      rw [List.cons_append, hp fuel _ (by omega) (stops_cons (.inl rfl) _), Option.bind_eq_bind,
        Option.bind_some]
      show (readItems fuel (skipBlanks (sep ++ (joinGap sep (q.2 :: later.map Prod.snd) ++ _))) >>= _) = _
      rw [skipBlanks_gap hsep, skipBlanks_starts hopens, hnext (by omega)]
      rfl

theorem readMembers_field {f : FieldText} (hbody : Quotes f.name f.body) (hstarts : Starts f.text)
    (hread : ReadsAs f.value f.text) {colon : List Char} (hcolon : Gap colon) {before : Members}
    (hfresh : Dict.find f.name before = none) {fuel : Nat}
    (hfuel : 2 * (f.spelled colon).length ≤ fuel + 1) {gap : List Char} (hgap : Gap gap) {d : Char}
    (hd : d = ',' ∨ d = '\x7d') (next : List Char) :
    readMembers (fuel + 1) before (f.spelled colon ++ (gap ++ d :: next)) =
      if d = ',' then readMembers fuel (before ++ [f.member]) (skipBlanks next)
      else some (before ++ [f.member], next) := by
  have hsize : (f.spelled colon).length = f.body.length + colon.length + f.text.length + 3 := by
    simp only [FieldText.spelled, List.length_append, List.length_cons]
    omega
  have hlength := hbody.1
  have hmember : f.spelled colon ++ (gap ++ d :: next) =
      '"' :: (f.body ++ '"' :: ':' :: (colon ++ (f.text ++ (gap ++ d :: next)))) := by
    simp [FieldText.spelled]
  have hdelimited : Stops (gap ++ d :: next) := stops_gap hgap (by tauto) next
  rw [hmember, readMembers, hbody.2 _ _ (by omega)]
  show (readValue fuel (skipBlanks (colon ++ (f.text ++ (gap ++ d :: next)))) >>= _) = _
  rw [skipBlanks_gap hcolon, skipBlanks_starts hstarts, hread fuel _ (by omega) hdelimited]
  simp only [Option.bind_eq_bind, Option.bind_some, String.ofList_toList,
    Dict.put_of_find_none f.value hfresh, skipBlanks_gap hgap]
  rcases hd with rfl | rfl <;> rfl

theorem readMembers_joinGap {fields : List FieldText} (hne : fields ≠ [])
    (hbody : ∀ f ∈ fields, Quotes f.name f.body) (hstarts : ∀ f ∈ fields, Starts f.text)
    (hreads : ∀ f ∈ fields, ReadsAs f.value f.text) {colon sep stop : List Char}
    (hcolon : Gap colon) (hsep : Gap sep) (hstop : Gap stop) (before : Members)
    (hnames : (before.map Prod.fst ++ fields.map FieldText.name).Nodup) (fuel : Nat)
    (rest : List Char)
    (hfuel : 2 * ((joinGap sep (fields.map (FieldText.spelled colon))).length + 1) ≤ fuel) :
    readMembers fuel before
        (joinGap sep (fields.map (FieldText.spelled colon)) ++ (stop ++ '\x7d' :: rest)) =
      some (before ++ fields.map FieldText.member, rest) := by
  induction fields generalizing fuel before with
  | nil => exact absurd rfl hne
  | cons f later ih =>
    obtain ⟨fuel, rfl⟩ : ∃ n, fuel = n + 1 := ⟨fuel - 1, by omega⟩
    have hf := hreads f List.mem_cons_self
    have hquotes := hbody f List.mem_cons_self
    have hopen := hstarts f List.mem_cons_self
    have hfresh : Dict.find f.name before = none := by
      rw [Dict.find_eq_none]
      intro hmem
      rw [List.nodup_append] at hnames
      exact hnames.2.2 f.name hmem f.name (by simp) rfl
    cases later with
    | nil =>
      simp only [List.map_cons, List.map_nil, joinGap] at hfuel ⊢
      rw [readMembers_field hquotes hopen hf hcolon hfresh (by omega) hstop (.inr rfl),
        if_neg (by decide)]
    | cons g later =>
      have hnext := ih (by simp) (fun x hx => hbody x (List.mem_cons_of_mem _ hx))
        (fun x hx => hstarts x (List.mem_cons_of_mem _ hx))
        (fun x hx => hreads x (List.mem_cons_of_mem _ hx)) (before ++ [f.member])
        (by simpa [FieldText.member] using hnames) fuel
      rw [List.map_cons] at hnext
      rw [List.map_cons, List.map_cons, joinGap_cons_cons] at hfuel ⊢
      simp only [List.length_append, List.length_cons] at hfuel
      have hfield := fun next =>
        @readMembers_field _ f hquotes hopen hf colon hcolon before hfresh fuel (by omega) [] Gap.nil
          ',' (.inl rfl) next
      simp only [List.nil_append] at hfield
      rw [List.append_assoc, List.append_assoc, List.cons_append, hfield, if_pos trivial,
        skipBlanks_gap hsep, skipBlanks_starts (starts_joinGap (starts_spelled colon g) _ _),
        hnext (by omega), List.append_assoc]
      rfl

/-- Reading any text of a value gives the value. -/
theorem readsAs_of_spelled {v : Json} {text : List Char} (h : Spelled v text) : ReadsAs v text := by
  induction h with
  | @scalar v text h =>
    intro fuel rest hfuel hrest
    obtain ⟨c, tail, htext, -⟩ := h.starts
    have hpos : 0 < text.length := by
      rw [htext]
      exact Nat.succ_pos _
    obtain ⟨fuel, rfl⟩ : ∃ n, fuel = n + 1 := ⟨fuel - 1, by omega⟩
    exact h.reads fuel rest (by omega) hrest
  | @arr parts start sep stop hstart hsep hstop h ih =>
    intro fuel rest hfuel _
    simp only [List.length_append, List.length_cons, List.length_nil] at hfuel
    obtain ⟨fuel, rfl⟩ : ∃ n, fuel = n + 1 := ⟨fuel - 1, by omega⟩
    simp only [List.cons_append, List.append_assoc, List.nil_append]
    rw [readValue, skipBlanks_gap hstart]
    cases parts with
    | nil =>
      dsimp only
      rw [List.map_nil, joinGap, List.nil_append, skipBlanks_gap hstop]
      rfl
    | cons p later =>
      have hopens := starts_joinGap (h p List.mem_cons_self).starts sep (later.map Prod.snd)
      have hitems := readItems_joinGap (List.cons_ne_nil p later) (fun q hq => (h q hq).starts) ih hsep
        hstop fuel rest (by omega)
      rw [List.map_cons] at hitems ⊢
      rw [skipBlanks_starts hopens]
      split
      · rename_i heq
        obtain ⟨c, tail, htext, hc⟩ := hopens
        rw [htext] at heq
        exact absurd (List.cons.inj heq).1 fun hc' => hc (by rw [hc']; decide)
      · rw [hitems]
        rfl
  | @obj fields start colon sep stop hstart hcolon hsep hstop hnames hbody h ih =>
    intro fuel rest hfuel _
    simp only [List.length_append, List.length_cons, List.length_nil] at hfuel
    obtain ⟨fuel, rfl⟩ : ∃ n, fuel = n + 1 := ⟨fuel - 1, by omega⟩
    simp only [List.cons_append, List.append_assoc, List.nil_append]
    rw [readValue, skipBlanks_gap hstart]
    cases fields with
    | nil =>
      dsimp only
      rw [List.map_nil, joinGap, List.nil_append, skipBlanks_gap hstop]
      rfl
    | cons f later =>
      have hopens := starts_joinGap (starts_spelled colon f) sep
        (later.map (FieldText.spelled colon))
      have hmembers := readMembers_joinGap (List.cons_ne_nil f later) hbody
        (fun g hg => (h g hg).starts) ih hcolon hsep hstop []
        (by simpa using hnames) fuel rest (by omega)
      rw [List.map_cons] at hmembers ⊢
      rw [skipBlanks_starts hopens]
      split
      · rename_i heq
        obtain ⟨c, tail, htext, hc⟩ := hopens
        rw [htext] at heq
        exact absurd (List.cons.inj heq).1 fun hc' => hc (by rw [hc']; decide)
      · rw [hmembers]
        rfl

/-- `json.loads` of a text of a value among blanks is the value. -/
theorem loads_of_spelled {v : Json} {text : List Char} (h : Spelled v text) {before after : List Char}
    (hbefore : Gap before) (hafter : Gap after) :
    loads (String.ofList (before ++ (text ++ after))) = some v := by
  have hstops : Stops after := by
    intro c hc
    exact .inl (hafter c (List.mem_of_mem_head? hc))
  have hread := readsAs_of_spelled h (2 * len (String.ofList (before ++ (text ++ after))) + 2) after
    (by simp only [len, String.toList_ofList, List.length_append]; omega) hstops
  have hblank : skipBlanks after = [] := by
    have hgap := skipBlanks_gap hafter []
    rw [List.append_nil] at hgap
    rw [hgap]
    rfl
  unfold loads
  rw [String.toList_ofList, skipBlanks_gap hbefore, skipBlanks_starts h.starts, hread]
  show (if skipBlanks after = [] then some v else none) = some v
  rw [if_pos hblank]

/-! ## Values without parts -/

theorem scans_quoted {s : String} {body : List Char} (h : Quotes s body) :
    Scans (.str s) ('"' :: body ++ ['"']) := by
  refine ⟨⟨'"', _, rfl, by decide⟩, fun fuel rest hfuel _ => ?_⟩
  have hlength := h.1
  simp only [List.length_cons, List.length_append] at hfuel
  rw [List.cons_append, List.cons_append, readValue, List.append_assoc, List.singleton_append,
    h.2 _ _ (by omega)]
  show some (Json.str (String.ofList s.toList), rest) = _
  rw [String.ofList_toList]

theorem scans_int {n : Int} (hlimit : (Nat.toDigits 10 n.natAbs).length ≤ maxStrDigits) :
    Scans (.int n) (toString n).toList := by
  obtain ⟨c, tail, hlist, hc⟩ := head_int n
  refine ⟨⟨c, tail, hlist, ?_⟩, fun fuel rest _ hrest => readValue_int fuel hlimit hrest.number⟩
  rintro (rfl | rfl | rfl | rfl | rfl | rfl)
  all_goals exact absurd hc (by decide)

/-! ## The text without blanks -/

/-- A value that its text gives back: no floats, integers within the limit,
and the members of objects in the order of their names. -/
inductive Writable : Json → Prop
  | null : Writable .null
  | bool (b : Bool) : Writable (.bool b)
  | int {n : Int} (h : (Nat.toDigits 10 n.natAbs).length ≤ maxStrDigits) : Writable (.int n)
  | str (s : String) : Writable (.str s)
  | arr {items : List Json} (h : ∀ v ∈ items, Writable v) : Writable (.arr items)
  | obj {members : Members} (hnames : members.Pairwise fun a b => a.1 < b.1)
      (h : ∀ m ∈ members, Writable m.2) : Writable (.obj members)

theorem plainItems_eq_map (items : List Json) : plainItems items = items.map plainText := by
  induction items with
  | nil => rfl
  | cons v rest ih =>
    unfold plainItems
    rw [ih, List.map_cons]

theorem plainMembers_eq_map (members : Members) :
    plainMembers members = members.map fun m => (m.1, plainText m.2) := by
  induction members with
  | nil => rfl
  | cons m rest ih =>
    obtain ⟨name, v⟩ := m
    unfold plainMembers
    rw [ih, List.map_cons]

/-- One member of an object as it is written. -/
def plainField (m : String × Json) : FieldText where
  name := m.1
  body := m.1.toList.flatMap escapePlain
  value := m.2
  text := plainText m.2

omit [Builtins] in
theorem joinGap_nil (texts : List (List Char)) : joinGap [] texts = joinTexts texts := by
  induction texts with
  | nil => rfl
  | cons text rest ih =>
    cases rest with
    | nil => rfl
    | cons next more => rw [joinGap_cons_cons, ih, joinTexts_cons_cons]; rfl

theorem plainText_obj {members : Members} (h : members.Pairwise fun a b => a.1 < b.1) :
    plainText (.obj members) =
      '\x7b' :: joinTexts (members.map fun m => (plainField m).spelled []) ++ ['\x7d'] := by
  have hsorted : sortedBy (fun a b : String => decide (a < b)) Prod.fst (plainMembers members) =
      plainMembers members := by
    apply sortedBy_eq_self
    rw [plainMembers_eq_map, List.pairwise_map]
    refine h.imp ?_
    intro a b hlt
    rw [decide_eq_false_iff_not]
    exact String.lt_asymm hlt
  unfold plainText
  dsimp only
  rw [hsorted, plainMembers_eq_map, List.map_map]
  simp [FieldText.spelled, plainField, quotePlain, Function.comp_def]

theorem spelled_plainText {v : Json} (h : Writable v) : Spelled v (plainText v) := by
  have hquotes : ∀ s : String, Quotes s (s.toList.flatMap escapePlain) := fun s =>
    ⟨length_le_escaped s.toList, fun _ rest hfuel => readString_quoted s.toList hfuel rest⟩
  induction h with
  | null => exact .scalar ⟨⟨'n', _, rfl, by decide⟩, fun _ _ _ _ => rfl⟩
  | bool b => cases b <;> exact .scalar ⟨⟨_, _, rfl, by decide⟩, fun _ _ _ _ => rfl⟩
  | int hlimit => exact .scalar (scans_int hlimit)
  | str s => exact .scalar (scans_quoted (hquotes s))
  | @arr items h ih =>
    have hspelled := @Spelled.arr _ (items.map fun w => (w, plainText w)) [] [] [] Gap.nil Gap.nil
      Gap.nil fun p hp => by
        obtain ⟨w, hw, rfl⟩ := List.mem_map.mp hp
        exact ih w hw
    rw [List.map_map, List.map_map, joinGap_nil] at hspelled
    simpa [plainText, plainItems_eq_map, Function.comp_def] using hspelled
  | @obj members hnames h ih =>
    have hspelled := @Spelled.obj _ (members.map plainField) [] [] [] [] Gap.nil Gap.nil Gap.nil
      Gap.nil
      (by
        rw [List.map_map, List.Nodup, List.pairwise_map]
        exact hnames.imp fun hlt => (String.ne_of_lt hlt))
      (fun f hf => by
        obtain ⟨m, -, rfl⟩ := List.mem_map.mp hf
        exact hquotes m.1)
      (fun f hf => by
        obtain ⟨m, hm, rfl⟩ := List.mem_map.mp hf
        exact ih m hm)
    rw [List.map_map, List.map_map, joinGap_nil] at hspelled
    rw [plainText_obj hnames]
    simpa [FieldText.member, plainField, Function.comp_def] using hspelled

theorem loads_dumpsPlain {v : Json} (h : Writable v) : loads (dumpsPlain v) = some v := by
  have hloads := loads_of_spelled (spelled_plainText h) Gap.nil Gap.nil
  rwa [List.nil_append, List.append_nil] at hloads

end Py
