import SynapseChannel.Core.EnrollmentStore

/-!
# Core — IdentityPins

Trust-on-first-use pins: the table of a name's key, its JSON file, and the
two calls that change both. A call whose file write fails is part of a run.
-/

namespace SynapseChannel

open Py Outcome

namespace Pins

/-! ## The pin file -/

/-- One durable name-to-key binding. -/
structure IdentityPin where
  keyId : String
  publicKey : String
  pinnedAt : Float

abbrev PinTable := Dict String IdentityPin

def rawPublicKeyBytes : Nat := 32

/-- `_validate_public_key`. -/
def validatePublicKey (publicKey : String) : Except String Unit :=
  match Base64.decode publicKey with
  | none => .error "identity pin public_key must be valid base64"
  | some raw =>
    if raw.length ≠ rawPublicKeyBytes then
      .error "identity pin public_key must be 32 raw Ed25519 bytes"
    else .ok ()

def pinMembers (pin : IdentityPin) : Members :=
  [("key_id", .str pin.keyId), ("public_key", .str pin.publicKey), ("pinned_at", .float pin.pinnedAt)]

/-- `dict(sorted(pins.items()))`, each pin as an object. -/
def pinEntries (pins : PinTable) : Members :=
  (sortedBy (fun a b => decide (a < b)) Prod.fst pins.items).map fun item =>
    (item.1, .obj (pinMembers item.2))

variable [Builtins]

/-- The text `_write_pins` replaces the file with. -/
def pinText (pins : PinTable) : String :=
  dumpsIndent 2 (.obj [("pins", .obj (pinEntries pins))]) ++ "\n"

/-- The stamp of an entry; one that is no number reads as zero. -/
def stampOf (entry : Members) : Except String Float :=
  match entry.getD "pinned_at" (.float 0) with
  | .bool b => .ok (if b then 1 else 0)
  | .int n =>
    if (Float.ofInt n).isFinite then .ok (Float.ofInt n) else .error "int too large to convert to float"
  | .float x => .ok x
  | _ => .ok 0

/-- One entry of a pin file. -/
def loadPin (pins : PinTable) (item : String × Json) : Except String PinTable :=
  match item.2 with
  | .obj entry => do
    let publicKey := (Members.getD entry "public_key" (.str "")).toStr
    validatePublicKey publicKey
    let stamp ← stampOf entry
    return pins.set item.1
      { keyId := (Members.getD entry "key_id" (.str "")).toStr, publicKey, pinnedAt := stamp }
  | _ => .error ("identity pin for " ++ Builtins.repr (.str item.1) ++ " must be an object")

/-- `_load_pins` on the text of the file. -/
def loadPins (text : String) : Except String PinTable :=
  match loads text with
  | none => .error "invalid identity pin file"
  | some (.obj data) =>
    match Members.get data "pins" with
    | .obj entries => entries.foldlM loadPin Dict.empty
    | _ => .error "identity pin file must be a mapping with a 'pins' object"
  | some _ => .error "identity pin file must be a mapping with a 'pins' object"

/-! ## The store -/

/-- A store over a file: the text in it, none where it is absent, and the pins in memory. -/
structure IdentityPinStore where
  file : Option String
  pins : PinTable

/-- The pins a new store takes from the file. -/
def opened : Option String → Except String PinTable
  | none => .ok Dict.empty
  | some text => loadPins text

def IdentityPinStore.init (file : Option String) : Except String IdentityPinStore :=
  (opened file).map fun pins => { file, pins }

/-- A call of the store, with its time and whether its file write succeeds. -/
inductive PinCall where
  | pin (name keyId publicKey : String) (now : Float) (writable : Bool)
  | reclaim (name expectedKeyId : String) (writable : Bool)

namespace IdentityPinStore

/-- Record and persist a pin; the table changes before the file. -/
def pin (store : IdentityPinStore) (name keyId publicKey : String) (now : Float) (writable : Bool) :
    IdentityPinStore × Except String Unit :=
  match validatePublicKey publicKey with
  | .error e => (store, .error e)
  | .ok () =>
    let pins := store.pins.set name { keyId, publicKey, pinnedAt := now }
    if writable then ({ file := some (pinText pins), pins }, .ok ())
    else ({ store with pins }, .error "the pin file could not be written")

/-- Remove a pin of the expected key; the file changes before the table. -/
def reclaim (store : IdentityPinStore) (name expectedKeyId : String) (writable : Bool) :
    IdentityPinStore × Except String (Option IdentityPin) :=
  match store.pins.get? name with
  | none => (store, .ok none)
  | some pin =>
    if pin.keyId ≠ expectedKeyId then (store, .ok none)
    else
      let remaining := store.pins.erase name
      if writable then ({ file := some (pinText remaining), pins := remaining }, .ok (some pin))
      else (store, .error "the pin file could not be written")

def step (store : IdentityPinStore) : PinCall → IdentityPinStore
  | .pin name keyId publicKey now writable => (store.pin name keyId publicKey now writable).1
  | .reclaim name expectedKeyId writable => (store.reclaim name expectedKeyId writable).1

/-- The pins in memory are the pins a new store would load from the file. -/
def Agrees (store : IdentityPinStore) : Prop :=
  ∃ loaded, opened store.file = .ok loaded ∧ Dict.Same loaded store.pins

/-- The file could be written, or the call leaves the table as it is: a key that is refused, the pin
the name already has, or a reclaim. -/
def Safe (store : IdentityPinStore) : PinCall → Prop
  | .pin name keyId publicKey now writable =>
    writable = true ∨ validatePublicKey publicKey ≠ .ok () ∨
      store.pins.get? name = some { keyId, publicKey, pinnedAt := now }
  | .reclaim .. => True

end IdentityPinStore

/-! ## A written table is read back -/

section Written

variable {pins : PinTable}

section

omit [Builtins]

/-- Every pinned key is one that a pin file is read with. -/
def Valid (pins : PinTable) : Prop :=
  ∀ name pin, pins.get? name = some pin → validatePublicKey pin.publicKey = .ok ()

theorem valid_empty : Valid Dict.empty := by
  intro name pin hpin
  cases hpin

theorem Valid.set {name : String} {pin : IdentityPin} (h : Valid pins)
    (hpin : validatePublicKey pin.publicKey = .ok ()) : Valid (pins.set name pin) := by
  intro other found hfound
  rw [Dict.get?_set] at hfound
  split_ifs at hfound
  · cases hfound
    exact hpin
  · exact h other found hfound

theorem Valid.erase (h : Valid pins) (name : String) : Valid (pins.erase name) := by
  intro other found hfound
  rw [Dict.get?_erase] at hfound
  split_ifs at hfound
  exact h other found hfound

end

/-- An entry is read by the names of its members, in any order. -/
theorem loadPin_written {pin : IdentityPin} (h : validatePublicKey pin.publicKey = .ok ())
    (pins : PinTable) (name : String) :
    loadPin pins (name, keySorted (.obj (pinMembers pin))) = .ok (pins.set name pin) := by
  have hmembers : (pinMembers pin).map (fun m => (m.1, keySorted m.2)) = pinMembers pin := by
    simp [pinMembers, keySorted]
  have hnames : ((pinMembers pin).map Prod.fst).Nodup := by simp [pinMembers]
  have hperm := sortedBy_perm (fun a b : String => decide (a < b)) Prod.fst (pinMembers pin)
  have hget : ∀ field default, Members.getD
      (sortedBy (fun a b : String => decide (a < b)) Prod.fst (pinMembers pin)) field default =
        Members.getD (pinMembers pin) field default := by
    intro field default
    unfold Members.getD
    rw [Members.get?_of_perm ((hperm.map Prod.fst).nodup_iff.mpr hnames) hperm]
  have hkey : Members.getD (pinMembers pin) "key_id" (.str "") = .str pin.keyId := rfl
  have hpublic : Members.getD (pinMembers pin) "public_key" (.str "") = .str pin.publicKey := rfl
  have hstamp : Members.getD (pinMembers pin) "pinned_at" (.float 0) = .float pin.pinnedAt := rfl
  rw [keySorted_obj, map_sortedBy _ (fun m : String × Json => (m.1, keySorted m.2)) Prod.fst Prod.fst _
    (fun _ _ => rfl), hmembers]
  unfold loadPin stampOf
  simp only [hget, hkey, hpublic, hstamp, Json.toStr, h]
  rfl

/-- Entries of distinct names are taken one by one. -/
theorem foldlM_loadPin {items : List (String × IdentityPin)} (hnames : (items.map Prod.fst).Nodup)
    (hvalid : ∀ item ∈ items, validatePublicKey item.2.publicKey = .ok ()) (pins : PinTable) :
    ∃ loaded, (items.map fun item => (item.1, keySorted (.obj (pinMembers item.2)))).foldlM loadPin
      pins = .ok loaded ∧ ∀ name, loaded.get? name = (Dict.find name items).or (pins.get? name) := by
  induction items generalizing pins with
  | nil => exact ⟨pins, rfl, by simp [Dict.find]⟩
  | cons item rest ih =>
    obtain ⟨name, pin⟩ := item
    simp only [List.map_cons, List.nodup_cons] at hnames
    obtain ⟨loaded, hloaded, hget⟩ := ih hnames.2
      (fun other hother => hvalid other (List.mem_cons_of_mem _ hother)) (pins.set name pin)
    refine ⟨loaded, ?_, fun other => ?_⟩
    · rw [List.map_cons, List.foldlM_cons]
      exact bind_of_ok (loadPin_written (hvalid (name, pin) List.mem_cons_self) pins name) hloaded
    · rw [hget, Dict.get?_set]
      by_cases hname : name = other
      · subst hname
        have hnone : Dict.find name rest = none := (Dict.find_eq_none _ _).mpr hnames.1
        simp [Dict.find, hnone]
      · simp [Dict.find, hname]

omit [Builtins] in
theorem readable_pins (pins : PinTable) : Py.Readable (.obj [("pins", .obj (pinEntries pins))]) := by
  refine .obj (List.nodup_singleton "pins") fun m hm => ?_
  rw [List.mem_singleton.mp hm]
  refine .obj ?_ fun entry hentry => ?_
  · have hnames : (pinEntries pins).map Prod.fst =
        (sortedBy (fun a b : String => decide (a < b)) Prod.fst pins.items).map Prod.fst := by
      unfold pinEntries
      rw [List.map_map]
      rfl
    rw [hnames, ((sortedBy_perm _ Prod.fst pins.items).map Prod.fst).nodup_iff]
    exact pins.nodup
  · obtain ⟨item, -, rfl⟩ := List.mem_map.mp hentry
    refine .obj (by simp [pinMembers]) fun field hfield => ?_
    simp only [pinMembers, List.mem_cons, List.not_mem_nil, or_false] at hfield
    rcases hfield with rfl | rfl | rfl
    · exact .str _
    · exact .str _
    · exact .float _

/-- A new store takes from a written file the table it was written from. -/
theorem opened_pinText (hfloats : FloatsRead) (h : Valid pins) :
    ∃ loaded, opened (some (pinText pins)) = .ok loaded ∧ Dict.Same loaded pins := by
  set lt : String → String → Bool := fun a b => decide (a < b) with hlt
  set items := sortedBy lt Prod.fst (sortedBy lt Prod.fst pins.items) with hitems
  have hperm : items.Perm pins.items :=
    (sortedBy_perm lt Prod.fst _).trans (sortedBy_perm lt Prod.fst pins.items)
  have hdocument : keySorted (.obj [("pins", .obj (pinEntries pins))]) =
      .obj [("pins", .obj (items.map fun item => (item.1, keySorted (.obj (pinMembers item.2)))))] := by
    rw [keySorted_obj, sortedBy_eq_self _ (List.pairwise_singleton _ _), List.map_singleton,
      keySorted_obj]
    unfold pinEntries
    rw [map_sortedBy _ (fun m : String × Json => (m.1, keySorted m.2)) Prod.fst Prod.fst _
      (fun _ _ => rfl), List.map_map, hitems,
      map_sortedBy lt (fun item : String × IdentityPin =>
        (item.1, keySorted (.obj (pinMembers item.2)))) Prod.fst Prod.fst _ (fun _ _ => rfl)]
    rfl
  have hloads : loads (pinText pins) = some (keySorted (.obj [("pins", .obj (pinEntries pins))])) :=
    loads_dumpsIndent hfloats 2 (readable_pins pins)
      (show Gap ['\n'] from fun c hc => by rw [List.mem_singleton.mp hc]; rfl)
  have hnames : (items.map Prod.fst).Nodup := (hperm.map Prod.fst).nodup_iff.mpr pins.nodup
  have hfound : ∀ name, Dict.find name items = pins.get? name := by
    intro name
    exact Dict.find_of_perm hnames hperm name
  obtain ⟨loaded, hloaded, hget⟩ := foldlM_loadPin hnames (fun item hitem => by
    obtain ⟨name, pin⟩ := item
    exact h name pin ((hfound name).symm.trans (Dict.find_of_mem hnames hitem))) Dict.empty
  refine ⟨loaded, ?_, fun name => ?_⟩
  · unfold opened loadPins
    dsimp only
    rw [hloads, hdocument]
    exact hloaded
  · rw [hget, hfound, Dict.get?_empty, Option.or_none]

end Written

/-! ## Runs -/

namespace IdentityPinStore

variable {store : IdentityPinStore}

/-- The table of a pin file holds keys that a pin file is read with. -/
theorem valid_opened {file : Option String} {pins : PinTable} (h : opened file = .ok pins) :
    Valid pins := by
  have hentries : ∀ (entries : Members) (before : PinTable), Valid before →
      entries.foldlM loadPin before = .ok pins → Valid pins := by
    intro entries
    induction entries with
    | nil =>
      intro before hbefore hrun
      cases hrun
      exact hbefore
    | cons entry rest ih =>
      intro before hbefore hrun
      rw [List.foldlM_cons] at hrun
      obtain ⟨next, hnext, hrun⟩ := bind_ok hrun
      refine ih next ?_ hrun
      unfold loadPin at hnext
      split at hnext
      · obtain ⟨⟨⟩, hvalid, hnext⟩ := bind_ok hnext
        obtain ⟨stamp, -, hnext⟩ := bind_ok hnext
        cases hnext
        exact hbefore.set hvalid
      · cases hnext
  cases file with
  | none =>
    cases h
    exact valid_empty
  | some text =>
    unfold opened loadPins at h
    dsimp only at h
    split at h
    · cases h
    · split at h
      · exact hentries _ _ valid_empty h
      · cases h
    · cases h

/-- After a call that keeps the table valid, the store agrees exactly when the call was safe. -/
theorem step_agrees_iff (hfloats : FloatsRead) (hvalid : Valid store.pins) (h : store.Agrees)
    (call : PinCall) : Valid (store.step call).pins ∧ ((store.step call).Agrees ↔ store.Safe call) := by
  cases call with
  | pin name keyId publicKey now writable =>
    unfold step pin Safe
    dsimp only
    cases hkey : validatePublicKey publicKey with
    | error e => exact ⟨hvalid, iff_of_true h (.inr (.inl (by simp)))⟩
    | ok =>
      have hset : Valid (store.pins.set name { keyId, publicKey, pinnedAt := now }) := hvalid.set hkey
      cases writable with
      | true => exact ⟨hset, iff_of_true (opened_pinText hfloats hset) (.inl rfl)⟩
      | false =>
        refine ⟨hset, ?_⟩
        obtain ⟨loaded, hloaded, hsame⟩ := h
        constructor
        · rintro ⟨again, hagain, hnew⟩
          cases hloaded.symm.trans hagain
          refine .inr (.inr ?_)
          rw [← hsame name, hnew name]
          exact Dict.get?_set_self _ _ _
        · rintro (hfalse | hrefused | hheld)
          · cases hfalse
          · exact absurd rfl hrefused
          · refine ⟨loaded, hloaded, fun other => ?_⟩
            show _ = (store.pins.set _ _).get? other
            rw [Dict.get?_set, hsame other]
            split_ifs with hother
            · rw [← hother, hheld]
            · rfl
  | reclaim name expectedKeyId writable =>
    unfold step reclaim Safe
    dsimp only
    split
    · exact ⟨hvalid, iff_of_true h trivial⟩
    · split_ifs with hother hwrite
      · exact ⟨hvalid, iff_of_true h trivial⟩
      · exact ⟨hvalid.erase name, iff_of_true (opened_pinText hfloats (hvalid.erase name)) trivial⟩
      · exact ⟨hvalid, iff_of_true h trivial⟩

/-- A store agrees after every call of a run exactly when every call was safe. -/
theorem run_agrees_iff (hfloats : FloatsRead) (hvalid : Valid store.pins) (h : store.Agrees)
    (calls : List PinCall) :
    (∀ pre, pre <+: calls → (Trace.run step store pre).Agrees) ↔
      Trace.Every step (fun store call => store.Safe call) store calls := by
  induction calls generalizing store with
  | nil =>
    refine iff_of_true (fun pre hpre => ?_) trivial
    rw [List.prefix_nil.mp hpre]
    exact h
  | cons call rest ih =>
    obtain ⟨hnext, hsafe⟩ := step_agrees_iff hfloats hvalid h call
    constructor
    · intro hall
      have hagrees : (store.step call).Agrees := hall [call] ⟨rest, rfl⟩
      refine ⟨hsafe.mp hagrees, (ih hnext hagrees).mp fun pre hpre => ?_⟩
      exact hall (call :: pre) (List.cons_prefix_cons.mpr ⟨rfl, hpre⟩)
    · rintro ⟨hcall, hrest⟩ pre hpre
      cases pre with
      | nil => exact h
      | cons first pre =>
        obtain ⟨rfl, hmore⟩ := List.cons_prefix_cons.mp hpre
        exact (ih hnext (hsafe.mpr hcall)).mpr hrest pre hmore

end IdentityPinStore

/-! ## Both stores -/

/-- The enrolled keys are reloaded exactly when their text is within the reader's limit, and the pins
agree with their file through a run exactly when every call of it is safe. -/
theorem identity_stores_survive_iff (hfloats : FloatsRead) :
    (∀ config file hub, Identity.Hub.boot config file = .ok hub → ∀ ops,
      Identity.Reloads (Trace.run Identity.Hub.step hub ops).enrolledIdentityKeys ↔
        (Identity.enrollmentText
          (Trace.run Identity.Hub.step hub ops).enrolledIdentityKeys).utf8ByteSize ≤
            Identity.maxEnrollmentStoreBytes) ∧
      ∀ file store, IdentityPinStore.init file = .ok store → ∀ calls,
        (∀ pre, pre <+: calls → (Trace.run IdentityPinStore.step store pre).Agrees) ↔
          Trace.Every IdentityPinStore.step (fun store call => store.Safe call) store calls := by
  constructor
  · intro config file hub hboot ops
    exact Identity.reloads_iff hfloats (Identity.run_storable hboot ops)
  · intro file store hinit calls
    unfold IdentityPinStore.init at hinit
    cases hopened : opened file with
    | error e =>
      rw [hopened] at hinit
      cases hinit
    | ok pins =>
      rw [hopened] at hinit
      cases hinit
      exact IdentityPinStore.run_agrees_iff hfloats (IdentityPinStore.valid_opened hopened)
        ⟨pins, hopened, Dict.Same.refl pins⟩ calls

/-! A store without a file, and a pin whose file cannot be written. -/

section Unwritten

/-- The base64 text of 32 zero bytes. -/
def zeroKey : String := Base64.encode (List.replicate 32 0)

omit [Builtins] in
theorem identity_stores_survive_iff_fresh :
    letI := Builtins.spelled
    ∃ store, IdentityPinStore.init none = .ok store ∧
      (Trace.run IdentityPinStore.step store [.pin "p/a" "k1" zeroKey 1 true]).Agrees := by
  let _ : Builtins := Builtins.spelled
  refine ⟨⟨none, Dict.empty⟩, rfl, ?_⟩
  have hall := ((identity_stores_survive_iff floatsRead_spelled).2 none ⟨none, Dict.empty⟩ rfl
    [.pin "p/a" "k1" zeroKey 1 true]).mpr ⟨.inl rfl, trivial⟩
  exact hall _ (List.prefix_refl _)

omit [Builtins] in
/-- The pin is in memory, and a new store would not load it. -/
theorem unwritten_pin_kept :
    letI := Builtins.spelled
    ∃ store, IdentityPinStore.init none = .ok store ∧
      (store.step (.pin "p/a" "k1" zeroKey 1 false)).file = none ∧
      ((store.step (.pin "p/a" "k1" zeroKey 1 false)).pins.get? "p/a").isSome = true ∧
      ¬ (store.step (.pin "p/a" "k1" zeroKey 1 false)).Agrees := by
  let _ : Builtins := Builtins.spelled
  have hpins : ((IdentityPinStore.step ⟨none, Dict.empty⟩ (.pin "p/a" "k1" zeroKey 1 false)).pins.get?
      "p/a").isSome = true := by decide +kernel
  refine ⟨⟨none, Dict.empty⟩, rfl, by decide +kernel, hpins, ?_⟩
  rintro ⟨loaded, hloaded, hsame⟩
  have hfile : (IdentityPinStore.step ⟨none, Dict.empty⟩ (.pin "p/a" "k1" zeroKey 1 false)).file =
      none := by decide +kernel
  rw [hfile] at hloaded
  cases hloaded
  rw [← hsame "p/a"] at hpins
  cases hpins

end Unwritten

end Pins

end SynapseChannel
