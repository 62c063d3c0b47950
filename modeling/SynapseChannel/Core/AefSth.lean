import SynapseChannel.Core.AefCanonical
import SynapseChannel.Core.AefChain
import SynapseChannel.Core.Merkle

/-!
# Core — AefSth

A signed tree head commits to the first receipts of a log, and an export is
compared with one position by position. Receipts are taken as presented: one
that fills no position is skipped, and two in one position are a fork.
-/

namespace SynapseChannel.AefSth

open Py Outcome MerkleTree AefCanonical Scan
open Framing (Bytes utf8)

def asText : Value → Option Points
  | .str s => some s
  | _ => none

/-- An integer; a truth value is none. -/
def asInt : Value → Option Int
  | .int n => some n
  | _ => none

/-- A receipt as decoded from JSON. -/
structure Receipt where
  dict : Dict Points Value
  keyed : ∀ m ∈ dict.items, Keyed m.2

namespace Receipt

def value (r : Receipt) : Value := .dict r.dict.items

theorem keyed_value (r : Receipt) : Keyed r.value := .dict r.dict.nodup r.keyed

def get (r : Receipt) (name : String) : Option Value := r.dict.get? (points name.toList)

def text (r : Receipt) (name : String) : Option Points := (r.get name).bind asText

def int (r : Receipt) (name : String) : Option Int := (r.get name).bind asInt

/-- `_seq`: a positive integer. -/
def seq (r : Receipt) : Option Int := (r.int "seq").filter fun n => decide (1 ≤ n)

def canonical (r : Receipt) : Except String Bytes :=
  (canonicalJson r.value).map fun bytes => bytes.data.toList

end Receipt

variable [Builtins]

def aefLeafHash (r : Receipt) : Except String Bytes :=
  r.canonical.map fun bytes => sha256 (leafPrefix :: bytes)

/-! ## Comparing an export -/

/-- What a tree head commits to. -/
structure TreeHead where
  logId : String
  treeSize : Nat
  root : String
  timestamp : Int
  deriving DecidableEq

/-- How the check of the tree head itself fails. -/
inductive AefInclusionVerdict where
  | sthUntrusted
  | sthInvalid
  deriving DecidableEq

inductive AefSthVerdict where
  | complete
  | truncated
  | rootMismatch
  | invalid
  | untrusted
  deriving DecidableEq

structure AefSthReport where
  logId : Option String
  treeSize : Option Nat
  verdict : AefSthVerdict
  detail : String
  deriving DecidableEq

/-- The position a receipt fills, with its leaf hash. -/
def placed (logId : String) (treeSize : Nat) (r : Receipt) : Option (Int × Bytes) :=
  match r.seq with
  | some n =>
    if r.text "log_id" ≠ some (points logId.toList) ∨ (treeSize : Int) < n then none
    else (aefLeafHash r).toOption.map fun leaf => (n, leaf)
  | none => none

/-- `_positions`: the distinct leaf hashes of a position. -/
def positions (receipts : List Receipt) (logId : String) (treeSize : Nat) (n : Int) : List Bytes :=
  (receipts.filterMap fun r => (placed logId treeSize r).bind fun p =>
    if p.1 = n then some p.2 else none).dedup

/-- `range(1, tree_size + 1)`. -/
def signedSeqs (treeSize : Nat) : List Int := (List.range treeSize).map fun i : Nat => (i : Int) + 1

/-- One leaf hash of each signed position. -/
def treeLeaves (positions : Int → List Bytes) (treeSize : Nat) : List Bytes :=
  (signedSeqs treeSize).map fun n => (positions n).headD []

/-- `verify_aef_sth`; `checked` is what `verified_sth` returns for the tree head. -/
def verifyAefSth (receipts : List Receipt) (checked : Except AefInclusionVerdict TreeHead) :
    AefSthReport :=
  match checked with
  | .error failure =>
    ⟨none, none, if failure = .sthUntrusted then .untrusted else .invalid,
      "the tree head itself does not verify"⟩
  | .ok sth =>
    let seqs := signedSeqs sth.treeSize
    let held := positions receipts sth.logId sth.treeSize
    let report := AefSthReport.mk (some sth.logId) (some sth.treeSize)
    match seqs.filter fun n => (held n).isEmpty with
    | first :: rest =>
      report .truncated (toString (rest.length + 1) ++ " of " ++ toString sth.treeSize ++
        " signed positions missing, first at seq " ++ toString first)
    | [] =>
      match seqs.filter fun n => decide (1 < (held n).length) with
      | forked :: _ => report .rootMismatch ("differing receipts at seq " ++ toString forked)
      | [] =>
        let computed := hex (merkleTreeHash (treeLeaves held sth.treeSize))
        if computed ≠ sth.root then
          report .rootMismatch ("root " ++ computed ++ " differs from the signed root")
        else
          report .complete ("seq 1.." ++ toString sth.treeSize ++ " match the signed root")

/-! ## Signing -/

inductive AefEmissionError where
  | noReceipt
  | misplaced (position : Nat)
  | undated (position : Nat)
  | refused (position : Nat) (verdict : Aef.AefVerdictCode)
  | broken
  | canonicalization (message : String)

/-- One receipt of a log to be signed, verified at its own issue time. -/
def checkReceipt (verify : Receipt → Int → Aef.AefVerification) (logId : String)
    (entry : Receipt × Nat) : Except AefEmissionError (Aef.AefReceipt × Aef.AefVerification) :=
  let (r, position) := entry
  if r.text "log_id" ≠ some (points logId.toList) ∨ r.seq ≠ some (position : Int) then
    .error (.misplaced position)
  else
    match r.int "issued_at" with
    | none => .error (.undated position)
    | some issuedAt =>
      let outcome := verify r issuedAt
      if outcome.verdict ≠ .valid then .error (.refused position outcome.verdict)
      else
        .ok (⟨logId, position, String.ofList (charsOf ((r.text "prev_receipt").getD []))⟩, outcome)

/-- `sign_aef_sth`, without the envelope: `logId` is derived from the signing key, and `verify` is
`verify_aef_receipt` under that key. -/
def signAefSth (verify : Receipt → Int → Aef.AefVerification) (logId : String)
    (receipts : List Receipt) : Except AefEmissionError TreeHead :=
  match receipts.getLast? with
  | none => .error .noReceipt
  | some newest => do
    let checked ← (receipts.zipIdx 1).mapM (checkReceipt verify logId)
    if !(Aef.verifyAefChain checked).all Aef.AefChainReport.continuous then .error .broken
    else
      match receipts.mapM aefLeafHash with
      | .error message => .error (.canonicalization message)
      | .ok leaves =>
        .ok
          { logId
            treeSize := receipts.length
            root := hex (merkleTreeHash leaves)
            timestamp := (newest.int "issued_at").getD 0 }

/-! ## Positions -/

section Positions

variable {receipts : List Receipt} {logId : String} {treeSize : Nat}

theorem mem_positions (n : Int) (leaf : Bytes) : leaf ∈ positions receipts logId treeSize n ↔
    ∃ r ∈ receipts, placed logId treeSize r = some (n, leaf) := by
  simp only [positions, List.mem_dedup, List.mem_filterMap, Option.bind_eq_some_iff,
    Option.ite_none_right_eq_some, Option.some.injEq, Prod.exists]
  constructor
  · rintro ⟨r, hr, _, _, hplaced, rfl, rfl⟩
    exact ⟨r, hr, hplaced⟩
  · rintro ⟨r, hr, hplaced⟩
    exact ⟨r, hr, n, leaf, hplaced, rfl, rfl⟩

/-- What a filled position says of the receipt in it. -/
theorem of_placed {r : Receipt} {n : Int} {leaf : Bytes} (h : placed logId treeSize r = some (n, leaf)) :
    n ∈ signedSeqs treeSize ∧
      ∃ bytes, r.canonical = .ok bytes ∧ leaf = sha256 (leafPrefix :: bytes) := by
  unfold placed at h
  split at h
  · rename_i m hseq
    split at h
    · cases h
    · rename_i hlog
      obtain ⟨l, hl, hpair⟩ := Option.map_eq_some_iff.mp h
      obtain ⟨rfl, rfl⟩ := Prod.mk.inj hpair
      have hpos : 1 ≤ m := by simpa using (Option.filter_eq_some_iff.mp hseq).2
      constructor
      · refine List.mem_map.mpr ⟨(m - 1).toNat, List.mem_range.mpr ?_, ?_⟩ <;> omega
      · unfold aefLeafHash at hl
        cases hbytes : r.canonical with
        | error e =>
          rw [hbytes] at hl
          cases hl
        | ok bytes =>
          rw [hbytes] at hl
          exact ⟨bytes, rfl, (Option.some.inj hl).symm⟩
  · cases h

end Positions

theorem complete_iff {receipts : List Receipt} {sth : TreeHead} :
    let held := positions receipts sth.logId sth.treeSize
    (verifyAefSth receipts (.ok sth)).verdict = .complete ↔
      (∀ n ∈ signedSeqs sth.treeSize, (held n).length = 1) ∧
        hex (merkleTreeHash (treeLeaves held sth.treeSize)) = sth.root := by
  intro held
  unfold verifyAefSth
  dsimp only
  split
  · rename_i first rest hmissing
    have hmem := List.mem_filter.mp (hmissing ▸ List.mem_cons_self (a := first) (l := rest))
    refine iff_of_false (by simp) fun hone => ?_
    have hlength := hone.1 first hmem.1
    rw [show held first = [] from List.isEmpty_iff.mp hmem.2] at hlength
    cases hlength
  rename_i hmissing
  split
  · rename_i forked rest hforked
    have hmem := List.mem_filter.mp (hforked ▸ List.mem_cons_self (a := forked) (l := rest))
    refine iff_of_false (by simp) fun hone => ?_
    have hlength := hone.1 forked hmem.1
    have hmany : 1 < (held forked).length := of_decide_eq_true hmem.2
    omega
  · rename_i hforked
    have hone : ∀ n ∈ signedSeqs sth.treeSize, (held n).length = 1 := by
      intro n hn
      have hsome : held n ≠ [] := fun h =>
        List.filter_eq_nil_iff.mp hmissing n hn (List.isEmpty_iff.mpr h)
      have hfew : ¬ 1 < (held n).length := fun h =>
        List.filter_eq_nil_iff.mp hforked n hn (decide_eq_true h)
      have hpos := List.length_pos_iff.mpr hsome
      omega
    split
    · rename_i hroot
      exact iff_of_false (by simp) fun h => hroot h.2
    · rename_i hroot
      exact iff_of_true rfl ⟨hone, not_not.mp hroot⟩

/-! ## Two exports under one head -/

/-- The canonical texts of the receipts that have one. -/
def contents (receipts : List Receipt) : List Bytes :=
  receipts.filterMap fun r => r.canonical.toOption

/-- The messages hashed to compare receipts with a head. -/
def messages (sth : TreeHead) (receipts : List Receipt) : List Bytes :=
  hashedMessages (contents receipts)
    (treeLeaves (positions receipts sth.logId sth.treeSize) sth.treeSize)

/-- SHA-256 has no collision between the receipts of two exports. -/
def CollisionFree (sth : TreeHead) (first second : List Receipt) : Prop :=
  ∀ m ∈ messages sth first, ∀ m' ∈ messages sth second, sha256 m = sha256 m' → m = m'

section Exports

variable {sth : TreeHead} {first second : List Receipt}

/-- Every leaf of a complete export's tree is the hash of a receipt. -/
theorem treeLeaves_hashed (h : (verifyAefSth first (.ok sth)).verdict = .complete) :
    ∀ x ∈ treeLeaves (positions first sth.logId sth.treeSize) sth.treeSize,
      ∃ bytes ∈ contents first, x = sha256 (leafPrefix :: bytes) := by
  intro x hx
  obtain ⟨n, hn, rfl⟩ := List.mem_map.mp hx
  obtain ⟨leaf, hleaf⟩ := List.length_eq_one_iff.mp ((complete_iff.mp h).1 n hn)
  obtain ⟨r, hr, hplaced⟩ := (mem_positions n leaf).mp (hleaf ▸ List.mem_singleton_self leaf)
  obtain ⟨-, bytes, hbytes, rfl⟩ := of_placed hplaced
  rw [hleaf]
  exact ⟨bytes, List.mem_filterMap.mpr ⟨r, hr, by rw [hbytes]; rfl⟩, rfl⟩

/-- Beside a complete export, another is complete when it fills each position with the same. -/
theorem complete_iff_placed (hsha : Sha256Spelled) (hfree : CollisionFree sth first second)
    (h : (verifyAefSth first (.ok sth)).verdict = .complete) :
    (verifyAefSth second (.ok sth)).verdict = .complete ↔
      ∀ n leaf, (∃ r ∈ second, placed sth.logId sth.treeSize r = some (n, leaf)) ↔
        ∃ r ∈ first, placed sth.logId sth.treeSize r = some (n, leaf) := by
  obtain ⟨hone, hroot⟩ := complete_iff.mp h
  simp only [← mem_positions]
  constructor
  · intro hsecond
    obtain ⟨hone', hroot'⟩ := complete_iff.mp hsecond
    have hleaves := treeHash_inj nodeHash (sha256 [])
      (apart_of_collisionFree hsha (treeLeaves_hashed h) (treeLeaves_hashed hsecond) hfree)
      (hex_inj (hroot.trans hroot'.symm))
    intro n leaf
    by_cases hn : n ∈ signedSeqs sth.treeSize
    · obtain ⟨x, hx⟩ := List.length_eq_one_iff.mp (hone n hn)
      obtain ⟨y, hy⟩ := List.length_eq_one_iff.mp (hone' n hn)
      have hsame := List.map_inj_left.mp hleaves n hn
      rw [hx, hy] at hsame ⊢
      rw [show x = y from hsame]
    · refine iff_of_false ?_ ?_ <;>
      · rw [mem_positions]
        rintro ⟨r, -, hplaced⟩
        exact hn (of_placed hplaced).1
  · intro hsame
    have hleaves : ∀ n ∈ signedSeqs sth.treeSize,
        positions second sth.logId sth.treeSize n =
          positions first sth.logId sth.treeSize n := by
      intro n hn
      obtain ⟨x, hx⟩ := List.length_eq_one_iff.mp (hone n hn)
      have hperm := (List.perm_ext_iff_of_nodup (List.nodup_dedup _) (List.nodup_dedup _)).mpr (hsame n)
      rw [← positions, ← positions, hx] at hperm
      rw [hx, hperm.eq_singleton]
    refine complete_iff.mpr ⟨fun n hn => (hleaves n hn).symm ▸ hone n hn, ?_⟩
    rw [← hroot, treeLeaves, List.map_congr_left fun n hn => by rw [hleaves n hn]]
    rfl

end Exports

/-! ## The signed log -/

/-- Receipts of one canonical text fill the same position. -/
theorem placed_congr {r r' : Receipt} {bytes : Bytes} (h : r.canonical = .ok bytes)
    (h' : r'.canonical = .ok bytes) (logId : String) (treeSize : Nat) :
    placed logId treeSize r = placed logId treeSize r' := by
  obtain ⟨text, htext, hbytes⟩ := map_ok h
  obtain ⟨text', htext', hbytes'⟩ := map_ok h'
  obtain rfl : text = text' := ByteArray.ext (Array.toList_inj.mp (hbytes.trans hbytes'.symm))
  have hprofile := (canonicalJson_ok htext).1
  have hsame := (canonicalJson_eq_iff hprofile (canonicalJson_ok htext').1 r.keyed_value
    r'.keyed_value).mp (htext.trans htext'.symm)
  have hordered := ordered_of_same hprofile r.keyed_value hsame
  unfold Receipt.value at hordered
  rw [ordered_members, ordered_members, Value.dict.injEq] at hordered
  have hperm := (sortedBy_perm _ _ _).symm.trans (List.Perm.of_eq hordered)
  have hread : ∀ {α : Type} (f : Value → Option α), (∀ v, f (ordered v) = f v) →
      ∀ name, (r.get name).bind f = (r'.get name).bind f := by
    intro α f hf name
    have hfind := Dict.find_of_perm (by rw [map_fst_ordered]; exact r.dict.nodup)
      (hperm.trans (sortedBy_perm _ _ _)) (points name.toList)
    rw [Dict.find_map, Dict.find_map] at hfind
    have hbind := congrArg (Option.bind · f) hfind
    simp only [Option.bind_map, Function.comp_def, hf] at hbind
    exact hbind
  have hseq : r.seq = r'.seq :=
    congrArg (Option.filter fun n => decide (1 ≤ n)) (hread asInt (fun v => by cases v <;> simp [ordered, asInt]) "seq")
  have hlog : r.text "log_id" = r'.text "log_id" :=
    hread asText (fun v => by cases v <;> simp [ordered, asText]) "log_id"
  unfold placed aefLeafHash
  rw [hseq, hlog, h, h']

/-- A log is complete under the head signed over it, and fills its positions. -/
theorem signAefSth_complete {verify : Receipt → Int → Aef.AefVerification} {logId : String}
    {committed : List Receipt} {sth : TreeHead} (h : signAefSth verify logId committed = .ok sth) :
    (verifyAefSth committed (.ok sth)).verdict = .complete ∧
      ∀ c ∈ committed, ∃ p, placed sth.logId sth.treeSize c = some p := by
  unfold signAefSth at h
  split at h
  · cases h
  obtain ⟨checked, hchecked, h⟩ := bind_ok h
  split at h
  · cases h
  split at h
  · cases h
  rename_i leaves hleaves
  obtain rfl := Except.ok.inj h
  have hvalues := mapM_ok_values hleaves
  have hlength := hvalues.length_eq
  have hplaced : ∀ i (hi : i < committed.length) (hi' : i < leaves.length),
      placed logId committed.length committed[i] = some ((i : Int) + 1, leaves[i]) := by
    intro i hi hi'
    have hmem : (committed[i], i + 1) ∈ committed.zipIdx 1 :=
      List.mk_mem_zipIdx_iff_le_and_getElem?_sub.mpr ⟨by omega, by simp⟩
    obtain ⟨_, hcheck⟩ := mapM_ok_mem hchecked _ hmem
    unfold checkReceipt at hcheck
    dsimp only at hcheck
    split at hcheck
    · cases hcheck
    · rename_i hgood
      rw [not_or, not_not, not_not] at hgood
      have hleaf : aefLeafHash committed[i] = .ok leaves[i] := hvalues.get hi hi'
      unfold placed
      rw [hgood.2]
      dsimp only
      have hwithin : ¬ (committed.length : Int) < (i + 1 : Nat) := by omega
      rw [if_neg (not_or.mpr ⟨not_not.mpr hgood.1, hwithin⟩), hleaf]
      rfl
  have hheld : ∀ i (hi : i < committed.length) (hi' : i < leaves.length),
      positions committed logId committed.length ((i : Int) + 1) = [leaves[i]] := by
    intro i hi hi'
    refine (List.perm_ext_iff_of_nodup (List.nodup_dedup _) (List.nodup_singleton _)).mpr ?_ |>.eq_singleton
    intro leaf
    rw [← positions, mem_positions, List.mem_singleton]
    constructor
    · rintro ⟨c, hc, hat⟩
      obtain ⟨j, hj, rfl⟩ := List.mem_iff_getElem.mp hc
      rw [hplaced j hj (hlength ▸ hj), Option.some.injEq, Prod.mk.injEq] at hat
      obtain rfl : j = i := by omega
      exact hat.2.symm
    · rintro rfl
      exact ⟨_, List.getElem_mem hi, hplaced i hi hi'⟩
  refine ⟨complete_iff.mpr ⟨?_, ?_⟩, ?_⟩
  · intro n hn
    obtain ⟨i, hi, rfl⟩ := List.mem_map.mp hn
    rw [List.mem_range] at hi
    rw [hheld i hi (hlength ▸ hi)]
    rfl
  · refine congrArg (fun l => hex (merkleTreeHash l)) ?_
    refine List.ext_getElem (by simp [treeLeaves, signedSeqs, hlength]) fun i hi hi' => ?_
    simp only [treeLeaves, signedSeqs, List.getElem_map, List.getElem_range]
    rw [hheld i (hlength ▸ hi') hi']
    rfl
  · intro c hc
    obtain ⟨i, hi, rfl⟩ := List.mem_iff_getElem.mp hc
    exact ⟨_, hplaced i hi (hlength ▸ hi)⟩

/-- An export is complete under a signed head exactly when it holds each receipt of the signed log
up to canonical form, and no other receipt in a signed position of that log. -/
theorem signed_head_completeness (hsha : Sha256Spelled)
    {verify : Receipt → Int → Aef.AefVerification} {logId : String}
    {committed exported : List Receipt} {sth : TreeHead}
    (hsign : signAefSth verify logId committed = .ok sth)
    (hfree : CollisionFree sth committed exported) :
    (verifyAefSth exported (.ok sth)).verdict = .complete ↔
      (∀ c ∈ committed, ∃ e ∈ exported, e.canonical = c.canonical) ∧
        ∀ e ∈ exported, placed sth.logId sth.treeSize e ≠ none →
          ∃ c ∈ committed, e.canonical = c.canonical := by
  obtain ⟨hcomplete, hplaced⟩ := signAefSth_complete hsign
  -- a leaf hash comes of one canonical text
  have hsame : ∀ {c e p}, c ∈ committed → e ∈ exported → placed sth.logId sth.treeSize c = some p →
      placed sth.logId sth.treeSize e = some p → e.canonical = c.canonical := by
    intro c e p hc he hplacedC hplacedE
    obtain ⟨-, bytes, hbytes, hleaf⟩ := of_placed hplacedC
    obtain ⟨-, bytes', hbytes', hleaf'⟩ := of_placed hplacedE
    have hmem : ∀ {r b rs}, r ∈ rs → r.canonical = .ok b → leafPrefix :: b ∈ messages sth rs := by
      intro r b rs hr hb
      exact List.mem_cons_of_mem _ (List.mem_append_left _ (List.mem_map_of_mem
        (List.mem_filterMap.mpr ⟨r, hr, by rw [hb]; rfl⟩)))
    have hmessage := hfree _ (hmem hc hbytes) _ (hmem he hbytes') (hleaf.symm.trans hleaf')
    rw [hbytes, hbytes', (List.cons.inj hmessage).2]
  have hsamePlace : ∀ {c e}, c ∈ committed → e.canonical = c.canonical →
      placed sth.logId sth.treeSize e = placed sth.logId sth.treeSize c := by
    intro c e hc hform
    obtain ⟨p, hp⟩ := hplaced c hc
    obtain ⟨-, bytes, hbytes, -⟩ := of_placed hp
    exact placed_congr (hform.trans hbytes) hbytes _ _
  rw [complete_iff_placed hsha hfree hcomplete]
  constructor
  · intro h
    constructor
    · intro c hc
      obtain ⟨p, hp⟩ := hplaced c hc
      obtain ⟨e, he, hp'⟩ := (h p.1 p.2).mpr ⟨c, hc, hp⟩
      exact ⟨e, he, hsame hc he hp hp'⟩
    · intro e he hne
      obtain ⟨p, hp⟩ := Option.ne_none_iff_exists'.mp hne
      obtain ⟨c, hc, hp'⟩ := (h p.1 p.2).mp ⟨e, he, hp⟩
      exact ⟨c, hc, hsame hc he hp' hp⟩
  · rintro ⟨hheld, honly⟩ n leaf
    constructor
    · rintro ⟨e, he, hp⟩
      obtain ⟨c, hc, hform⟩ := honly e he (by rw [hp]; exact Option.some_ne_none _)
      exact ⟨c, hc, hsamePlace hc hform ▸ hp⟩
    · rintro ⟨c, hc, hp⟩
      obtain ⟨e, he, hform⟩ := hheld c hc
      exact ⟨e, he, (hsamePlace hc hform).trans hp⟩

omit [Builtins] in
/-- The first receipt of a log. -/
def firstReceipt : Receipt where
  dict :=
    ⟨[(points "seq".toList, .int 1), (points "log_id".toList, .str (points ['a'])),
      (points "issued_at".toList, .int 5),
      (points "prev_receipt".toList, .str (points Aef.genesisReceipt.toList))], by decide +kernel⟩
  keyed := by
    simp only [List.forall_mem_cons, List.not_mem_nil, false_implies, implies_true, and_true]
    exact ⟨.int 1, .str _, .int 5, .str _⟩

omit [Builtins] in
theorem signed_head_completeness_one :
    letI := Builtins.checksum
    ∃ sth, signAefSth (fun _ _ => ⟨.valid, "aef1:b"⟩) "a" [firstReceipt] = .ok sth ∧
      (verifyAefSth [firstReceipt] (.ok sth)).verdict = .complete ∧
      (verifyAefSth [] (.ok sth)).verdict ≠ .complete := by
  let _ : Builtins := Builtins.checksum
  have hhead : (signAefSth (fun _ _ => ⟨.valid, "aef1:b"⟩) "a" [firstReceipt]).toOption.map
      (fun sth => (sth.logId, sth.treeSize)) = some ("a", 1) := by decide +kernel
  cases hsign : signAefSth (fun _ _ => ⟨.valid, "aef1:b"⟩) "a" [firstReceipt] with
  | error e =>
    rw [hsign] at hhead
    cases hhead
  | ok sth =>
    rw [hsign] at hhead
    obtain ⟨hlog, hsize⟩ := Prod.mk.inj (Option.some.inj hhead)
    refine ⟨sth, rfl, ?_, ?_⟩
    · refine (signed_head_completeness sha256Spelled_checksum hsign ?_).mpr ?_
      · unfold CollisionFree messages
        rw [hlog, hsize]
        decide +kernel
      · exact ⟨fun c hc => ⟨c, hc, rfl⟩, fun e he _ => ⟨e, he, rfl⟩⟩
    · intro hcomplete
      have hheld := ((signed_head_completeness sha256Spelled_checksum hsign ?_).mp hcomplete).1
      · obtain ⟨e, he, -⟩ := hheld firstReceipt List.mem_cons_self
        cases he
      · unfold CollisionFree messages
        rw [hlog, hsize]
        decide +kernel

end SynapseChannel.AefSth
