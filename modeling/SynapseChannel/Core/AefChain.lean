import Mathlib.Data.List.MinMax
import Mathlib.Data.String.Basic
import SynapseChannel.Lib.Group
import SynapseChannel.Lib.Sorted
import SynapseChannel.Lib.Text

/-!
# Core — AefChain

Whether the authentic receipts of an AEF export form one unbroken chain per
log. The findings come from separate passes; together they say exactly that
the receipts are a numbered chain.
-/

namespace SynapseChannel.Aef

open Py

/-! ## Verdicts -/

/-- The outcome of a receipt's own verification. -/
inductive AefVerdictCode where
  | valid
  | validLegacy
  | unverifiableType
  | malformed
  | unsupportedVersion
  | invalidDomain
  | unknownKey
  | revokedKey
  | keyWindowInvalid
  | senderScopeMismatch
  | invalidSignature
  | invalidReceiptId
  | expired
  | replayed
  | chainConflict
  | untrustedLog
  deriving DecidableEq

/-- The verdicts reached only after the content id and the signature verified. -/
def authenticVerdicts : List AefVerdictCode := [.valid, .expired]

structure AefVerification where
  verdict : AefVerdictCode
  receiptId : String
  deriving DecidableEq

/-- What the chain check reads of a receipt; an authentic one passed the
structure check that gives its members these types. -/
structure AefReceipt where
  logId : String
  seq : Int
  prevReceipt : String
  deriving DecidableEq

def genesisReceipt : String := "aef1:" ++ String.ofList (List.replicate 64 '0')

inductive AefChainCode where
  | continuous
  | openStart
  | gap
  | brokenLink
  | fork
  | duplicate
  | genesisInvalid
  deriving DecidableEq

def AefChainCode.value : AefChainCode → String
  | .continuous => "CHAIN_CONTINUOUS"
  | .openStart => "CHAIN_OPEN_START"
  | .gap => "CHAIN_GAP"
  | .brokenLink => "CHAIN_BROKEN_LINK"
  | .fork => "CHAIN_FORK"
  | .duplicate => "CHAIN_DUPLICATE"
  | .genesisInvalid => "CHAIN_GENESIS_INVALID"

/-- Findings that do not break a chain. -/
def informational : List AefChainCode := [.continuous, .openStart]

structure AefChainIssue where
  code : AefChainCode
  seq : Int
  detail : String
  deriving DecidableEq

structure AefChainReport where
  logId : String
  firstSeq : Int
  lastSeq : Int
  receipts : Nat
  issues : List AefChainIssue
  deriving DecidableEq

namespace AefChainReport

def continuous (r : AefChainReport) : Bool := r.issues.all fun i => informational.contains i.code

/-- `CHAIN_CONTINUOUS`, or the first finding that breaks the chain. -/
def verdict (r : AefChainReport) : AefChainCode :=
  match r.issues.find? fun i => !informational.contains i.code with
  | some i => i.code
  | none => .continuous

end AefChainReport

/-! ## The check of one log -/

/-- An authentic receipt of one log, under its receipt id. -/
structure Member where
  seq : Int
  receiptId : String
  prev : String
  deriving DecidableEq

def counts (members : List Member) : Dict String Nat := tally (members.map Member.receiptId)

/-- The number and predecessor of each receipt id; the last of several stands. -/
def unique (members : List Member) : Dict String (Int × String) :=
  members.foldl (fun d m => d.set m.receiptId (m.seq, m.prev)) Dict.empty

def bySeq (unique : Dict String (Int × String)) : Dict Int (List String) :=
  groupBy (fun entry => entry.2.1) Prod.fst unique.items

def byPrev (unique : Dict String (Int × String)) : Dict String (List String) :=
  groupBy (fun entry => entry.2.2) Prod.fst unique.items

def seqOf (unique : Dict String (Int × String)) (receiptId : String) : Int :=
  ((unique.get? receiptId).map Prod.fst).getD 0

def prevOf (unique : Dict String (Int × String)) (receiptId : String) : String :=
  ((unique.get? receiptId).map Prod.snd).getD ""

def duplicateIssue (unique : Dict String (Int × String)) (entry : String × Nat) :
    Option AefChainIssue :=
  if 1 < entry.2 then
    some ⟨.duplicate, seqOf unique entry.1, entry.1 ++ " x" ++ toString entry.2⟩
  else none

def seqForkIssue (entry : Int × List String) : Option AefChainIssue :=
  if 1 < entry.2.length then some ⟨.fork, entry.1, "different receipts share it"⟩ else none

/-- `max(unique[receipt_id][0] for receipt_id in ids)`. -/
def lastOf (unique : Dict String (Int × String)) (ids : List String) : Int :=
  ((ids.map (seqOf unique)).max?).getD 0

def prevForkIssue (unique : Dict String (Int × String)) (entry : String × List String) :
    Option AefChainIssue :=
  if 1 < entry.2.length then
    some ⟨.fork, lastOf unique entry.2, "several name " ++ entry.1⟩
  else none

/-- The link of the first number, or where the export starts. -/
def startIssues (unique : Dict String (Int × String)) (first : Int) : List AefChainIssue :=
  if first = 1 then
    if (((bySeq unique).get? 1).getD []).any fun id => prevOf unique id != genesisReceipt then
      [⟨.genesisInvalid, 1, "not genesis"⟩]
    else []
  else [⟨.openStart, first, "earlier seqs absent"⟩]

def span (start stop : Int) : String :=
  if start = stop then toString start else toString start ++ ".." ++ toString stop

def gapIssue (pair : Int × Int) : Option AefChainIssue :=
  if 1 < pair.2 - pair.1 then
    some ⟨.gap, pair.1 + 1, "seq " ++ span (pair.1 + 1) (pair.2 - 1) ++ " missing"⟩
  else none

/-- One finding for each run of numbers missing between two present ones. -/
def gaps (present : List Int) : List AefChainIssue :=
  (present.zip present.tail).filterMap gapIssue

def brokenIssue (unique : Dict String (Int × String)) (seq : Int) (previous : List String)
    (receiptId : String) : Option AefChainIssue :=
  if prevOf unique receiptId ∈ previous then none
  else
    some ⟨.brokenLink, seq, "prev " ++ prevOf unique receiptId ++ " not seq " ++ toString (seq - 1)⟩

/-- A link is checked only where the number before it is present. -/
def brokenAt (unique : Dict String (Int × String)) (seq : Int) : List AefChainIssue :=
  match (bySeq unique).get? (seq - 1) with
  | none => []
  | some previous =>
    (((bySeq unique).get? seq).getD []).filterMap (brokenIssue unique seq previous)

def brokenLinks (unique : Dict String (Int × String)) (present : List Int) : List AefChainIssue :=
  present.flatMap (brokenAt unique)

def present (unique : Dict String (Int × String)) : List Int :=
  sortedBy (fun a b => decide (a < b)) id (bySeq unique).keys

/-- The findings of the passes, in the order of the passes. -/
def findings (counts : Dict String Nat) (unique : Dict String (Int × String)) (first : Int) :
    List AefChainIssue :=
  counts.items.filterMap (duplicateIssue unique) ++ (bySeq unique).items.filterMap seqForkIssue ++
    (byPrev unique).items.filterMap (prevForkIssue unique) ++ startIssues unique first ++
    gaps (present unique) ++ brokenLinks unique (present unique)

/-- `(issue.seq, issue.code.value)` compared. -/
def issueLt (a b : Int × String) : Bool := decide (a.1 < b.1) || (a.1 == b.1 && decide (a.2 < b.2))

def AefChainIssue.key (i : AefChainIssue) : Int × String := (i.seq, i.code.value)

/-- The report of one log from its authentic receipts, of which there are some. -/
def report (logId : String) (members : List Member) : AefChainReport :=
  let unique := unique members
  let first := ((bySeq unique).keys.min?).getD 0
  { logId
    firstSeq := first
    lastSeq := ((bySeq unique).keys.max?).getD 0
    receipts := unique.items.length
    issues := sortedBy issueLt AefChainIssue.key (findings (counts members) unique first) }

/-! ## The check of an export -/

def authentic (entries : List (AefReceipt × AefVerification)) :
    List (AefReceipt × AefVerification) :=
  entries.filter fun e => authenticVerdicts.contains e.2.verdict

def memberOf (e : AefReceipt × AefVerification) : Member := ⟨e.1.seq, e.2.receiptId, e.1.prevReceipt⟩

def logs (entries : List (AefReceipt × AefVerification)) : Dict String (List Member) :=
  groupBy (fun e => e.1.logId) memberOf (authentic entries)

/-- One report for each log with an authentic receipt, in the order of their ids. -/
def verifyAefChain (entries : List (AefReceipt × AefVerification)) : List AefChainReport :=
  (sortedBy (fun a b => decide (a < b)) id (logs entries).keys).map fun logId =>
    report logId (((logs entries).get? logId).getD [])

/-! ## What an unbroken chain is -/

/-- The receipts of a log are a numbered chain from `a` to `b`: no receipt
twice, one to each number, each linked to the one before it, no two with one
predecessor, and the first linked to the genesis id if its number is 1. -/
structure Unbroken (members : List Member) (a b : Int) : Prop where
  distinct : (members.map Member.receiptId).Nodup
  oneEach : ∀ m ∈ members, ∀ m' ∈ members, m.seq = m'.seq → m = m'
  noFork : ∀ m ∈ members, ∀ m' ∈ members, m.prev = m'.prev → m = m'
  range : ∀ n, (∃ m ∈ members, m.seq = n) ↔ a ≤ n ∧ n ≤ b
  linked : ∀ m ∈ members, ∀ m' ∈ members, m.seq = m'.seq + 1 → m.prev = m'.receiptId
  genesis : a = 1 → ∀ m ∈ members, m.seq = 1 → m.prev = genesisReceipt

section Passes

variable {members : List Member}

theorem unique_concat (members : List Member) (m : Member) :
    unique (members ++ [m]) = (unique members).set m.receiptId (m.seq, m.prev) := by
  rw [unique, List.foldl_append]
  rfl

theorem get?_unique_ne_none (members : List Member) (id : String) :
    (unique members).get? id ≠ none ↔ ∃ m ∈ members, m.receiptId = id := by
  induction members using List.reverseRecOn with
  | nil => simp [unique]
  | append_singleton members m ih =>
    rw [unique_concat]
    by_cases hid : m.receiptId = id
    · rw [hid, Dict.get?_set_self]
      exact iff_of_true (Option.some_ne_none _) ⟨m, by simp, hid⟩
    · rw [Dict.get?_set_ne _ _ hid, ih]
      constructor
      · rintro ⟨m', hm', hid'⟩
        exact ⟨m', by simp [hm'], hid'⟩
      · rintro ⟨m', hm', hid'⟩
        rcases List.mem_append.mp hm' with hm' | hm'
        · exact ⟨m', hm', hid'⟩
        · rw [List.mem_singleton.mp hm'] at hid'
          exact absurd hid' hid

/-- What stands under an id is one of its receipts. -/
theorem mem_of_get?_unique {id : String} {seq : Int} {prev : String}
    (h : (unique members).get? id = some (seq, prev)) : (⟨seq, id, prev⟩ : Member) ∈ members := by
  induction members using List.reverseRecOn with
  | nil => cases h
  | append_singleton members m ih =>
    rw [unique_concat] at h
    by_cases hid : m.receiptId = id
    · rw [hid, Dict.get?_set_self] at h
      obtain ⟨hseq, hprev⟩ := Prod.mk.inj (Option.some.inj h)
      rw [← hseq, ← hprev, ← hid]
      simp
    · rw [Dict.get?_set_ne _ _ hid] at h
      exact List.mem_append_left _ (ih h)

/-- Receipts with one id agree. -/
def Agreeing (members : List Member) : Prop :=
  ∀ m ∈ members, ∀ m' ∈ members, m.receiptId = m'.receiptId → m = m'

theorem Agreeing.of_nodup (h : (members.map Member.receiptId).Nodup) : Agreeing members :=
  fun _ hm _ hm' heq => List.inj_on_of_nodup_map h hm hm' heq

theorem Agreeing.get?_unique (h : Agreeing members) {m : Member} (hm : m ∈ members) :
    (unique members).get? m.receiptId = some (m.seq, m.prev) := by
  obtain ⟨⟨seq, prev⟩, hget⟩ :=
    Option.ne_none_iff_exists'.mp ((get?_unique_ne_none members m.receiptId).mpr ⟨m, hm, rfl⟩)
  rw [hget, ← h _ (mem_of_get?_unique hget) m hm rfl]

/-- The receipts each once, by their id. -/
theorem Agreeing.mem_unique (h : Agreeing members) {id : String} {seq : Int} {prev : String} :
    (id, seq, prev) ∈ (unique members).items ↔ (⟨seq, id, prev⟩ : Member) ∈ members := by
  rw [Dict.mem_items_iff]
  exact ⟨mem_of_get?_unique, fun hm => h.get?_unique hm⟩

theorem Agreeing.prevOf (h : Agreeing members) {m : Member} (hm : m ∈ members) :
    prevOf (unique members) m.receiptId = m.prev := by
  rw [Aef.prevOf, h.get?_unique hm]
  rfl

theorem mem_bySeq_keys (h : Agreeing members) (n : Int) :
    n ∈ (bySeq (unique members)).keys ↔ ∃ m ∈ members, m.seq = n := by
  rw [bySeq, mem_keys_groupBy]
  constructor
  · rintro ⟨⟨id, seq, prev⟩, hentry, hseq⟩
    exact ⟨_, h.mem_unique.mp hentry, hseq⟩
  · rintro ⟨m, hm, hseq⟩
    exact ⟨(m.receiptId, m.seq, m.prev), h.mem_unique.mpr hm, hseq⟩

/-- The ids under a number that is present. -/
theorem mem_bySeq (h : Agreeing members) {n : Int} {ids : List String}
    (hids : (bySeq (unique members)).get? n = some ids) (id : String) :
    id ∈ ids ↔ ∃ m ∈ members, m.seq = n ∧ m.receiptId = id := by
  rw [get?_groupBy_eq_some hids]
  simp only [List.mem_map, List.mem_filter, decide_eq_true_eq]
  constructor
  · rintro ⟨⟨id', seq, prev⟩, ⟨hentry, hseq⟩, rfl⟩
    exact ⟨_, h.mem_unique.mp hentry, hseq, rfl⟩
  · rintro ⟨m, hm, hseq, hid⟩
    exact ⟨(m.receiptId, m.seq, m.prev), ⟨h.mem_unique.mpr hm, hseq⟩, hid⟩

/-! ### Duplicates and forks -/

theorem duplicates_eq_nil_iff (unique : Dict String (Int × String)) :
    (counts members).items.filterMap (duplicateIssue unique) = [] ↔
      (members.map Member.receiptId).Nodup := by
  rw [List.filterMap_eq_nil_iff, List.nodup_iff_count_le_one]
  constructor
  · intro h id
    by_cases hmem : id ∈ members.map Member.receiptId
    · obtain ⟨n, hn⟩ := Option.ne_none_iff_exists'.mp ((get?_tally_ne_none _ id).mpr hmem)
      have hnone := h (id, n) ((Dict.mem_items_iff _ _ _).mpr hn)
      rw [← get?_tally_eq_some hn]
      by_contra hlt
      rw [duplicateIssue, if_pos (not_le.mp hlt)] at hnone
      cases hnone
    · rw [List.count_eq_zero_of_not_mem hmem]
      exact Nat.zero_le 1
  · rintro h ⟨id, n⟩ hentry
    rw [duplicateIssue, if_neg]
    rw [get?_tally_eq_some ((Dict.mem_items_iff _ _ _).mp hentry)]
    exact not_lt.mpr (h id)

theorem nodup_items (d : Dict String (Int × String)) : d.items.Nodup :=
  List.Nodup.of_map _ d.nodup

/-- The groups of one key are all single if and only if it tells the receipts apart. -/
theorem forks_eq_nil_iff {κ : Type} [DecidableEq κ] (h : Agreeing members) (key : Int × String → κ)
    {issue : κ × List String → Option AefChainIssue}
    (hissue : ∀ entry, issue entry = none ↔ entry.2.length ≤ 1) :
    (groupBy (fun entry => key entry.2) Prod.fst (unique members).items).items.filterMap issue = [] ↔
      ∀ m ∈ members, ∀ m' ∈ members, key (m.seq, m.prev) = key (m'.seq, m'.prev) → m = m' := by
  have hsingle : (∀ k ids, (groupBy (fun entry => key entry.2) Prod.fst
      (unique members).items).get? k = some ids → ids.length ≤ 1) ↔ _ :=
    groupBy_single_iff (nodup_items (unique members))
  rw [List.filterMap_eq_nil_iff]
  constructor
  · intro hforks m hm m' hm' hkey
    have hentry := hsingle.mp
      (fun k ids hids => (hissue (k, ids)).mp (hforks (k, ids) ((Dict.mem_items_iff _ _ _).mpr hids)))
      (m.receiptId, m.seq, m.prev) (h.mem_unique.mpr hm)
      (m'.receiptId, m'.seq, m'.prev) (h.mem_unique.mpr hm') hkey
    exact h m hm m' hm' (congrArg Prod.fst hentry)
  · rintro hone ⟨k, ids⟩ hids
    refine (hissue (k, ids)).mpr (hsingle.mpr ?_ k ids ((Dict.mem_items_iff _ _ _).mp hids))
    rintro ⟨id, seq, prev⟩ hentry ⟨id', seq', prev'⟩ hentry' hkey
    have heq := hone _ (h.mem_unique.mp hentry) _ (h.mem_unique.mp hentry') hkey
    cases heq
    rfl

theorem seqForkIssue_eq_none (entry : Int × List String) :
    seqForkIssue entry = none ↔ entry.2.length ≤ 1 := by
  unfold seqForkIssue
  split_ifs with hfork
  · simp [hfork]
  · simp [not_lt.mp hfork]

theorem prevForkIssue_eq_none (unique : Dict String (Int × String)) (entry : String × List String) :
    prevForkIssue unique entry = none ↔ entry.2.length ≤ 1 := by
  unfold prevForkIssue
  split_ifs with hfork
  · simp [hfork]
  · simp [not_lt.mp hfork]

/-! ### Gaps and links -/

theorem mem_present (unique : Dict String (Int × String)) (n : Int) :
    n ∈ present unique ↔ n ∈ (bySeq unique).keys := by
  rw [present, mem_sortedBy]

theorem present_sorted (unique : Dict String (Int × String)) :
    (present unique).Pairwise (· < ·) := by
  have hle : (present unique).Pairwise fun a b => decide (b < a) = false := by
    refine pairwise_sortedBy (fun a b => decide (a < b)) (P := fun _ : Int => True) ?_ ?_ id
      fun _ _ => trivial
    · intro a b c _ _ _ hab hbc
      simp only [decide_eq_false_iff_not, not_lt] at *
      exact hab.trans hbc
    · intro a b _ _
      simp only [decide_eq_false_iff_not, not_lt]
      exact le_total a b
  have hne : (present unique).Nodup :=
    (sortedBy_perm _ id (bySeq unique).keys).nodup_iff.mpr (bySeq unique).nodup
  refine (hle.and hne).imp ?_
  intro a b hab
  simp only [decide_eq_false_iff_not, not_lt] at hab
  exact lt_of_le_of_ne hab.1 hab.2

/-- There is no gap finding if and only if every number between two present
ones is present. -/
theorem gaps_eq_nil_iff {l : List Int} (hsorted : l.Pairwise (· < ·)) :
    gaps l = [] ↔ ∀ n, (∃ x ∈ l, x ≤ n) → (∃ y ∈ l, n ≤ y) → n ∈ l := by
  induction l with
  | nil => simp [gaps]
  | cons x rest ih =>
    cases rest with
    | nil =>
      simp only [gaps, List.tail_cons, List.zip_nil_right, List.filterMap_nil, true_iff,
        List.mem_singleton, exists_eq_left]
      intro n hlow hhigh
      omega
    | cons y rest =>
      have hcons : gaps (x :: y :: rest) = [] ↔ gapIssue (x, y) = none ∧ gaps (y :: rest) = [] := by
        show (((x, y) :: (y :: rest).zip rest).filterMap gapIssue) = [] ↔ _
        rw [List.filterMap_eq_nil_iff, List.forall_mem_cons, ← List.filterMap_eq_nil_iff]
        rfl
      obtain ⟨hfirst, hrest⟩ := List.pairwise_cons.mp hsorted
      have hxy : x < y := hfirst y (by simp)
      have hnone : gapIssue (x, y) = none ↔ y = x + 1 := by
        unfold gapIssue
        split_ifs with hgap
        · simp only [false_iff]
          dsimp only at hgap
          omega
        · simp only [true_iff]
          dsimp only at hgap
          omega
      rw [hcons, hnone, ih hrest]
      constructor
      · rintro ⟨hnext, hall⟩ n ⟨low, hlow, hle⟩ ⟨high, hhigh, hge⟩
        by_cases hn : n = x
        · rw [hn]
          simp
        · refine List.mem_cons_of_mem _ (hall n ⟨y, by simp, ?_⟩ ⟨high, ?_, hge⟩)
          · rcases List.mem_cons.mp hlow with rfl | hlow
            · omega
            · have := hfirst low hlow
              omega
          · rcases List.mem_cons.mp hhigh with rfl | hhigh
            · rcases List.mem_cons.mp hlow with rfl | hlow
              · omega
              · have := hfirst low hlow
                omega
            · exact hhigh
      · intro hall
        refine ⟨?_, fun n hlow hhigh => ?_⟩
        · by_contra hnext
          have hmem := hall (x + 1) ⟨x, by simp, by omega⟩ ⟨y, by simp, by omega⟩
          rcases List.mem_cons.mp hmem with heq | hmem
          · omega
          · rcases List.mem_cons.mp hmem with heq | hmem
            · omega
            · have := (List.pairwise_cons.mp hrest).1 _ hmem
              omega
        · obtain ⟨low, hlow, hle⟩ := hlow
          obtain ⟨high, hhigh, hge⟩ := hhigh
          have hmem := hall n ⟨low, List.mem_cons_of_mem _ hlow, hle⟩
            ⟨high, List.mem_cons_of_mem _ hhigh, hge⟩
          rcases List.mem_cons.mp hmem with heq | hmem
          · have := hfirst low hlow
            omega
          · exact hmem

theorem brokenLinks_eq_nil_iff (h : Agreeing members)
    (hone : ∀ m ∈ members, ∀ m' ∈ members, m.seq = m'.seq → m = m') :
    brokenLinks (unique members) (present (unique members)) = [] ↔
      ∀ m ∈ members, ∀ m' ∈ members, m.seq = m'.seq + 1 → m.prev = m'.receiptId := by
  rw [brokenLinks, List.flatMap_eq_nil_iff]
  have hids : ∀ n, n ∈ (bySeq (unique members)).keys →
      ∃ ids, (bySeq (unique members)).get? n = some ids := fun n hn =>
    Option.ne_none_iff_exists'.mp ((Dict.mem_keys_iff _ _).mp hn)
  constructor
  · intro hlinks m hm m' hm' hseq
    obtain ⟨ids, hget⟩ := hids m.seq ((mem_bySeq_keys h _).mpr ⟨m, hm, rfl⟩)
    obtain ⟨previous, hprevious⟩ := hids m'.seq ((mem_bySeq_keys h _).mpr ⟨m', hm', rfl⟩)
    have hnone := hlinks m.seq
      ((mem_present _ _).mpr ((mem_bySeq_keys h _).mpr ⟨m, hm, rfl⟩))
    rw [brokenAt, show m.seq - 1 = m'.seq by omega, hprevious, hget] at hnone
    have hlink := List.filterMap_eq_nil_iff.mp hnone m.receiptId
      ((mem_bySeq h hget _).mpr ⟨m, hm, rfl, rfl⟩)
    rw [brokenIssue, h.prevOf hm] at hlink
    split_ifs at hlink with hmem
    obtain ⟨before, hbefore, hseq', hid⟩ := (mem_bySeq h hprevious _).mp hmem
    rw [← hid, hone before hbefore m' hm' hseq']
  · intro hlinked n hn
    unfold brokenAt
    split
    · rfl
    · rename_i previous hprevious
      rw [List.filterMap_eq_nil_iff]
      intro id hid
      obtain ⟨ids, hget⟩ := hids n ((mem_present _ _).mp hn)
      rw [hget] at hid
      obtain ⟨m, hm, hseq, rfl⟩ := (mem_bySeq h hget _).mp hid
      obtain ⟨m', hm', hseq'⟩ := (mem_bySeq_keys h (n - 1)).mp
        ((Dict.mem_keys_iff _ _).mpr (by rw [hprevious]; simp))
      rw [brokenIssue, h.prevOf hm, hlinked m hm m' hm' (by omega), if_pos]
      exact (mem_bySeq h hprevious _).mpr ⟨m', hm', hseq', rfl⟩

/-! ### The verdict -/

/-- A finding that breaks the chain. -/
def AefChainIssue.breaking (i : AefChainIssue) : Prop := informational.contains i.code = false

/-- A pass whose findings all break the chain is silent if none of them is there. -/
theorem forall_informational_iff {issues : List AefChainIssue} (h : ∀ i ∈ issues, i.breaking) :
    (∀ i ∈ issues, informational.contains i.code = true) ↔ issues = [] := by
  constructor
  · intro hinformational
    refine List.eq_nil_iff_forall_not_mem.mpr fun i hi => ?_
    have hbreaking := h i hi
    rw [AefChainIssue.breaking, hinformational i hi] at hbreaking
    cases hbreaking
  · rintro rfl i hi
    cases hi

theorem breaking_filterMap {α : Type} {items : List α} {f : α → Option AefChainIssue}
    (h : ∀ a i, f a = some i → i.breaking) : ∀ i ∈ items.filterMap f, i.breaking := by
  intro i hi
  obtain ⟨a, -, ha⟩ := List.mem_filterMap.mp hi
  exact h a i ha

theorem duplicateIssue_breaking (unique : Dict String (Int × String)) (entry : String × Nat)
    (i : AefChainIssue) (h : duplicateIssue unique entry = some i) : i.breaking := by
  unfold duplicateIssue at h
  split_ifs at h
  rw [← Option.some.inj h]
  rfl

theorem seqForkIssue_breaking (entry : Int × List String) (i : AefChainIssue)
    (h : seqForkIssue entry = some i) : i.breaking := by
  unfold seqForkIssue at h
  split_ifs at h
  rw [← Option.some.inj h]
  rfl

theorem prevForkIssue_breaking (unique : Dict String (Int × String)) (entry : String × List String)
    (i : AefChainIssue) (h : prevForkIssue unique entry = some i) : i.breaking := by
  unfold prevForkIssue at h
  split_ifs at h
  rw [← Option.some.inj h]
  rfl

theorem gaps_breaking (present : List Int) : ∀ i ∈ gaps present, i.breaking := by
  refine breaking_filterMap fun pair i h => ?_
  unfold gapIssue at h
  split_ifs at h
  rw [← Option.some.inj h]
  rfl

theorem brokenLinks_breaking (unique : Dict String (Int × String)) (present : List Int) :
    ∀ i ∈ brokenLinks unique present, i.breaking := by
  intro i hi
  obtain ⟨n, -, hi⟩ := List.mem_flatMap.mp hi
  unfold brokenAt at hi
  split at hi
  · cases hi
  · refine breaking_filterMap (fun id i h => ?_) i hi
    unfold brokenIssue at h
    split_ifs at h
    rw [← Option.some.inj h]
    rfl

theorem startIssues_informational_iff (h : Agreeing members) (first : Int) :
    (∀ i ∈ startIssues (unique members) first, informational.contains i.code = true) ↔
      (first = 1 → ∀ m ∈ members, m.seq = 1 → m.prev = genesisReceipt) := by
  unfold startIssues
  split_ifs with hfirst hforeign
  · simp only [hfirst, forall_const]
    refine iff_of_false (fun hall => absurd (hall _ List.mem_cons_self) (by decide)) ?_
    intro hgenesis
    obtain ⟨id, hid, hne⟩ := List.any_eq_true.mp hforeign
    cases hget : (bySeq (unique members)).get? 1 with
    | none =>
      rw [hget] at hid
      cases hid
    | some ids =>
      rw [hget] at hid
      obtain ⟨m, hm, hseq, rfl⟩ := (mem_bySeq h hget id).mp hid
      rw [h.prevOf hm, hgenesis m hm hseq] at hne
      simp at hne
  · refine iff_of_true (fun i hi => absurd hi List.not_mem_nil) fun _ m hm hseq => ?_
    obtain ⟨ids, hget⟩ := Option.ne_none_iff_exists'.mp
      ((Dict.mem_keys_iff _ _).mp ((mem_bySeq_keys h 1).mpr ⟨m, hm, hseq⟩))
    have hmem := (mem_bySeq h hget m.receiptId).mpr ⟨m, hm, hseq, rfl⟩
    by_contra hne
    refine hforeign (List.any_eq_true.mpr ⟨m.receiptId, by rw [hget]; exact hmem, ?_⟩)
    rw [h.prevOf hm]
    exact bne_iff_ne.mpr hne
  · refine iff_of_true ?_ fun heq => absurd heq hfirst
    intro i hi
    rw [List.mem_singleton.mp hi]
    rfl

/-- The lowest number is present and below the others. -/
theorem firstSeq_spec (h : Agreeing members) (hne : members ≠ []) :
    (∃ m ∈ members, m.seq = ((bySeq (unique members)).keys.min?).getD 0) ∧
      ∀ m ∈ members, ((bySeq (unique members)).keys.min?).getD 0 ≤ m.seq := by
  obtain ⟨m, hm⟩ := List.exists_mem_of_ne_nil members hne
  have hkeys : (bySeq (unique members)).keys ≠ [] :=
    List.ne_nil_of_mem ((mem_bySeq_keys h m.seq).mpr ⟨m, hm, rfl⟩)
  cases hmin : (bySeq (unique members)).keys.min? with
  | none => exact absurd (List.min?_eq_none_iff.mp hmin) hkeys
  | some first =>
    obtain ⟨hmem, hle⟩ := List.min?_eq_some_iff.mp hmin
    exact ⟨(mem_bySeq_keys h first).mp hmem,
      fun m hm => hle m.seq ((mem_bySeq_keys h _).mpr ⟨m, hm, rfl⟩)⟩

theorem lastSeq_spec (h : Agreeing members) (hne : members ≠ []) :
    (∃ m ∈ members, m.seq = ((bySeq (unique members)).keys.max?).getD 0) ∧
      ∀ m ∈ members, m.seq ≤ ((bySeq (unique members)).keys.max?).getD 0 := by
  obtain ⟨m, hm⟩ := List.exists_mem_of_ne_nil members hne
  have hkeys : (bySeq (unique members)).keys ≠ [] :=
    List.ne_nil_of_mem ((mem_bySeq_keys h m.seq).mpr ⟨m, hm, rfl⟩)
  cases hmax : (bySeq (unique members)).keys.max? with
  | none => exact absurd (List.max?_eq_none_iff.mp hmax) hkeys
  | some last =>
    obtain ⟨hmem, hle⟩ := List.max?_eq_some_iff.mp hmax
    exact ⟨(mem_bySeq_keys h last).mp hmem,
      fun m hm => hle m.seq ((mem_bySeq_keys h _).mpr ⟨m, hm, rfl⟩)⟩

theorem continuous_iff_findings (logId : String) (members : List Member) :
    (report logId members).continuous = true ↔
      ∀ i ∈ findings (counts members) (unique members) (report logId members).firstSeq,
        informational.contains i.code = true := by
  rw [AefChainReport.continuous, List.all_eq_true]
  simp only [report, mem_sortedBy]

/-- Of a continuous report each pass is silent. -/
theorem continuous_iff_passes (logId : String) (h : Agreeing members) :
    (report logId members).continuous = true ↔
      (members.map Member.receiptId).Nodup ∧
      (∀ m ∈ members, ∀ m' ∈ members, m.seq = m'.seq → m = m') ∧
      (∀ m ∈ members, ∀ m' ∈ members, m.prev = m'.prev → m = m') ∧
      ((report logId members).firstSeq = 1 → ∀ m ∈ members, m.seq = 1 → m.prev = genesisReceipt) ∧
      (∀ n, (∃ m ∈ members, m.seq ≤ n) → (∃ m ∈ members, n ≤ m.seq) → ∃ m ∈ members, m.seq = n) ∧
      brokenLinks (unique members) (present (unique members)) = [] := by
  have hpresent : ∀ n, n ∈ present (unique members) ↔ ∃ m ∈ members, m.seq = n := fun n => by
    rw [mem_present, mem_bySeq_keys h]
  have hgaps : gaps (present (unique members)) = [] ↔
      ∀ n, (∃ m ∈ members, m.seq ≤ n) → (∃ m ∈ members, n ≤ m.seq) → ∃ m ∈ members, m.seq = n := by
    rw [gaps_eq_nil_iff (present_sorted _)]
    simp only [hpresent]
    constructor
    · rintro hall n ⟨low, hlow, hle⟩ ⟨high, hhigh, hge⟩
      exact hall n ⟨low.seq, ⟨low, hlow, rfl⟩, hle⟩ ⟨high.seq, ⟨high, hhigh, rfl⟩, hge⟩
    · rintro hall n ⟨_, ⟨low, hlow, rfl⟩, hle⟩ ⟨_, ⟨high, hhigh, rfl⟩, hge⟩
      exact hall n ⟨low, hlow, hle⟩ ⟨high, hhigh, hge⟩
  rw [continuous_iff_findings, findings]
  simp only [List.forall_mem_append]
  rw [forall_informational_iff (breaking_filterMap (duplicateIssue_breaking _)),
    forall_informational_iff (breaking_filterMap seqForkIssue_breaking),
    forall_informational_iff (breaking_filterMap (prevForkIssue_breaking _)),
    forall_informational_iff (gaps_breaking _),
    forall_informational_iff (brokenLinks_breaking _ _), duplicates_eq_nil_iff,
    startIssues_informational_iff h]
  rw [show (bySeq (unique members)).items.filterMap seqForkIssue = [] ↔ _ from
      forks_eq_nil_iff h Prod.fst seqForkIssue_eq_none,
    show (byPrev (unique members)).items.filterMap (prevForkIssue (unique members)) = [] ↔ _ from
      forks_eq_nil_iff h Prod.snd (prevForkIssue_eq_none _), hgaps]
  simp only [and_assoc]

/-- The report of a log is continuous if and only if its receipts are an
unbroken chain, which then runs over the range reported. -/
theorem report_continuous_iff (logId : String) (hne : members ≠ []) :
    ((report logId members).continuous = true ↔ ∃ a b, Unbroken members a b) ∧
      ((report logId members).continuous = true →
        Unbroken members (report logId members).firstSeq (report logId members).lastSeq) := by
  have hdistinct : (report logId members).continuous = true →
      (members.map Member.receiptId).Nodup := by
    intro hcontinuous
    rw [continuous_iff_findings, findings] at hcontinuous
    simp only [List.forall_mem_append] at hcontinuous
    exact (duplicates_eq_nil_iff _).mp ((forall_informational_iff
      (breaking_filterMap (duplicateIssue_breaking _))).mp hcontinuous.1.1.1.1.1)
  have hforward : (report logId members).continuous = true →
      Unbroken members (report logId members).firstSeq (report logId members).lastSeq := by
    intro hcontinuous
    have h := Agreeing.of_nodup (hdistinct hcontinuous)
    obtain ⟨hnodup, hone, hfork, hgenesis, hrange, hlinks⟩ :=
      (continuous_iff_passes logId h).mp hcontinuous
    obtain ⟨⟨low, hlow, hlowSeq⟩, hfirst⟩ := firstSeq_spec h hne
    obtain ⟨⟨high, hhigh, hhighSeq⟩, hlast⟩ := lastSeq_spec h hne
    refine ⟨hnodup, hone, hfork, fun n => ⟨?_, fun ⟨hn, hn'⟩ => ?_⟩,
      (brokenLinks_eq_nil_iff h hone).mp hlinks, hgenesis⟩
    · rintro ⟨m, hm, rfl⟩
      exact ⟨hfirst m hm, hlast m hm⟩
    · exact hrange n ⟨low, hlow, hlowSeq.trans_le hn⟩ ⟨high, hhigh, hn'.trans hhighSeq.ge⟩
  refine ⟨⟨fun hcontinuous => ⟨_, _, hforward hcontinuous⟩, ?_⟩, hforward⟩
  rintro ⟨a, b, hchain⟩
  have h := Agreeing.of_nodup hchain.distinct
  obtain ⟨⟨low, hlow, hlowSeq⟩, hfirst⟩ := firstSeq_spec h hne
  refine (continuous_iff_passes logId h).mpr ⟨hchain.distinct, hchain.oneEach, hchain.noFork, ?_, ?_,
    (brokenLinks_eq_nil_iff h hchain.oneEach).mpr hchain.linked⟩
  · intro hone m hm hseq
    have hlowRange := (hchain.range low.seq).mp ⟨low, hlow, rfl⟩
    obtain ⟨start, hstart, hstartSeq⟩ := (hchain.range a).mpr ⟨le_refl a, hlowRange.1.trans hlowRange.2⟩
    have hle := hfirst start hstart
    change ((bySeq (unique members)).keys.min?).getD 0 = 1 at hone
    exact hchain.genesis (by omega) m hm hseq
  · rintro n ⟨m, hm, hle⟩ ⟨m', hm', hge⟩
    have hm := (hchain.range m.seq).mp ⟨m, hm, rfl⟩
    have hm' := (hchain.range m'.seq).mp ⟨m', hm', rfl⟩
    exact (hchain.range n).mpr ⟨hm.1.trans hle, hge.trans hm'.2⟩

/-! ### The order of the receipts -/

section Order

variable {members' : List Member}

theorem Agreeing.perm (h : Agreeing members) (hperm : members.Perm members') : Agreeing members' :=
  fun m hm m' hm' => h m (hperm.mem_iff.mpr hm) m' (hperm.mem_iff.mpr hm')

theorem get?_unique_perm (h : Agreeing members) (hperm : members.Perm members') (id : String) :
    (unique members).get? id = (unique members').get? id := by
  have h' := h.perm hperm
  cases hget : (unique members).get? id with
  | none =>
    cases hget' : (unique members').get? id with
    | none => rfl
    | some entry =>
      have hm := hperm.mem_iff.mpr (mem_of_get?_unique hget')
      exact absurd hget ((get?_unique_ne_none members id).mpr ⟨_, hm, rfl⟩)
  | some entry =>
    have hm := hperm.mem_iff.mp (mem_of_get?_unique hget)
    exact (h'.get?_unique hm).symm

theorem unique_perm (h : Agreeing members) (hperm : members.Perm members') :
    (unique members).items.Perm (unique members').items := by
  refine (List.perm_ext_iff_of_nodup (nodup_items _) (nodup_items _)).mpr ?_
  rintro ⟨id, entry⟩
  rw [Dict.mem_items_iff, Dict.mem_items_iff, get?_unique_perm h hperm]

/-- The two look-ups are alike. -/
theorem seqOf_perm (h : Agreeing members) (hperm : members.Perm members') :
    seqOf (unique members) = seqOf (unique members') := by
  funext id
  rw [seqOf, seqOf, get?_unique_perm h hperm]

theorem prevOf_perm (h : Agreeing members) (hperm : members.Perm members') :
    prevOf (unique members) = prevOf (unique members') := by
  funext id
  rw [prevOf, prevOf, get?_unique_perm h hperm]

theorem duplicates_perm (h : Agreeing members) (hperm : members.Perm members') :
    ((counts members).items.filterMap (duplicateIssue (unique members))).Perm
      ((counts members').items.filterMap (duplicateIssue (unique members'))) := by
  have hids := hperm.map Member.receiptId
  refine Dict.filterMap_items_perm (keys_tally_perm hids) ?_
  intro id n n' hn hn'
  rw [get?_tally_eq_some hn, get?_tally_eq_some hn', hids.count_eq]
  unfold duplicateIssue
  rw [seqOf_perm h hperm]

theorem seqForks_perm (h : Agreeing members) (hperm : members.Perm members') :
    ((bySeq (unique members)).items.filterMap seqForkIssue).Perm
      ((bySeq (unique members')).items.filterMap seqForkIssue) := by
  refine Dict.filterMap_items_perm (keys_groupBy_perm (unique_perm h hperm)) ?_
  intro n ids ids' hids hids'
  unfold seqForkIssue
  rw [(groupBy_perm (unique_perm h hperm) hids hids').length_eq]

theorem lastOf_perm (h : Agreeing members) (hperm : members.Perm members') {ids ids' : List String}
    (hids : ids.Perm ids') : lastOf (unique members) ids = lastOf (unique members') ids' := by
  unfold lastOf
  rw [seqOf_perm h hperm]
  cases hmax : (ids.map (seqOf (unique members'))).max? with
  | none =>
    have hnil : ids = [] := by simpa using List.max?_eq_none_iff.mp hmax
    rw [hnil] at hids
    rw [hids.symm.eq_nil]
    rfl
  | some last =>
    obtain ⟨hmem, hle⟩ := List.max?_eq_some_iff.mp hmax
    have hmax' : (ids'.map (seqOf (unique members'))).max? = some last :=
      List.max?_eq_some_iff.mpr ⟨(hids.map _).mem_iff.mp hmem,
        fun n hn => hle n ((hids.map _).mem_iff.mpr hn)⟩
    rw [hmax']

theorem prevForks_perm (h : Agreeing members) (hperm : members.Perm members') :
    ((byPrev (unique members)).items.filterMap (prevForkIssue (unique members))).Perm
      ((byPrev (unique members')).items.filterMap (prevForkIssue (unique members'))) := by
  refine Dict.filterMap_items_perm (keys_groupBy_perm (unique_perm h hperm)) ?_
  intro prev ids ids' hids hids'
  have hvalues := groupBy_perm (unique_perm h hperm) hids hids'
  unfold prevForkIssue
  rw [hvalues.length_eq, lastOf_perm h hperm hvalues]

theorem present_perm (h : Agreeing members) (hperm : members.Perm members') :
    present (unique members) = present (unique members') := by
  have hkeys : (present (unique members)).Perm (present (unique members')) :=
    (sortedBy_perm _ id _).trans ((keys_groupBy_perm (unique_perm h hperm)).trans
      (sortedBy_perm _ id _).symm)
  exact hkeys.eq_of_pairwise (fun a b _ _ hab hba => absurd hab (not_lt.mpr hba.le))
    (present_sorted _) (present_sorted _)

theorem getD_bySeq_perm (h : Agreeing members) (hperm : members.Perm members') (n : Int) :
    (((bySeq (unique members)).get? n).getD []).Perm (((bySeq (unique members')).get? n).getD []) := by
  rw [bySeq, bySeq, getD_groupBy, getD_groupBy]
  exact ((unique_perm h hperm).filter _).map _

theorem startIssues_perm (h : Agreeing members) (hperm : members.Perm members') (first : Int) :
    startIssues (unique members) first = startIssues (unique members') first := by
  unfold startIssues
  rw [prevOf_perm h hperm, (getD_bySeq_perm h hperm 1).any_eq]

theorem brokenAt_perm (h : Agreeing members) (hperm : members.Perm members') (n : Int) :
    (brokenAt (unique members) n).Perm (brokenAt (unique members') n) := by
  have hkeys : (bySeq (unique members)).keys.Perm (bySeq (unique members')).keys :=
    keys_groupBy_perm (unique_perm h hperm)
  have hids := getD_bySeq_perm h hperm n
  unfold brokenAt
  cases hprevious : (bySeq (unique members)).get? (n - 1) with
  | none =>
    have hnone : (bySeq (unique members')).get? (n - 1) = none := by
      by_contra hsome
      have hmem := hkeys.mem_iff.mpr ((Dict.mem_keys_iff (bySeq (unique members')) (n - 1)).mpr hsome)
      exact (Dict.mem_keys_iff (bySeq (unique members)) (n - 1)).mp hmem hprevious
    rw [hnone]
  | some previous =>
    have hsome : (bySeq (unique members')).get? (n - 1) ≠ none :=
      (Dict.mem_keys_iff _ _).mp (hkeys.mem_iff.mp
        ((Dict.mem_keys_iff (bySeq (unique members)) (n - 1)).mpr (by rw [hprevious]; simp)))
    obtain ⟨previous', hprevious'⟩ := Option.ne_none_iff_exists'.mp hsome
    rw [hprevious']
    have hvalues := groupBy_perm (unique_perm h hperm) hprevious hprevious'
    have hissue : brokenIssue (unique members) n previous =
        brokenIssue (unique members') n previous' := by
      funext id
      simp only [brokenIssue, prevOf_perm h hperm, hvalues.mem_iff]
    show ((((bySeq (unique members)).get? n).getD []).filterMap _).Perm _
    rw [hissue]
    exact hids.filterMap _

theorem findings_perm (h : Agreeing members) (hperm : members.Perm members') (first : Int) :
    (findings (counts members) (unique members) first).Perm
      (findings (counts members') (unique members') first) := by
  unfold findings
  rw [present_perm h hperm, startIssues_perm h hperm]
  refine List.Perm.append (List.Perm.append_right _ (List.Perm.append_right _
    (List.Perm.append (List.Perm.append ?_ ?_) ?_))) ?_
  · exact duplicates_perm h hperm
  · exact seqForks_perm h hperm
  · exact prevForks_perm h hperm
  · exact List.Perm.flatMap_left _ fun n _ => brokenAt_perm h hperm n

/-! ### Reports -/

theorem issueLt_false_iff {a b : Int × String} :
    issueLt b a = false ↔ a.1 < b.1 ∨ (a.1 = b.1 ∧ a.2 ≤ b.2) := by
  simp only [issueLt, Bool.or_eq_false_iff, Bool.and_eq_false_iff, decide_eq_false_iff_not,
    beq_eq_false_iff_ne, not_lt]
  constructor
  · rintro ⟨hle, hne | hle'⟩
    · exact .inl (lt_of_le_of_ne hle (Ne.symm hne))
    · rcases hle.lt_or_eq with hlt | heq
      · exact .inl hlt
      · exact .inr ⟨heq, hle'⟩
  · rintro (hlt | ⟨heq, hle⟩)
    · exact ⟨hlt.le, .inl (ne_of_gt hlt)⟩
    · exact ⟨heq.le, .inr hle⟩

/-- The findings of a report stand in the order of number and code. -/
theorem issues_sorted (issues : List AefChainIssue) :
    ((sortedBy issueLt AefChainIssue.key issues).map AefChainIssue.key).Pairwise
      fun a b => issueLt b a = false := by
  rw [List.pairwise_map]
  refine pairwise_sortedBy issueLt (P := fun _ => True) ?_ ?_ AefChainIssue.key fun _ _ => trivial
  · intro a b c _ _ _ hab hbc
    rw [issueLt_false_iff] at *
    rcases hab with hab | ⟨hab, hab'⟩ <;> rcases hbc with hbc | ⟨hbc, hbc'⟩
    · exact .inl (hab.trans hbc)
    · exact .inl (hbc ▸ hab)
    · exact .inl (hab ▸ hbc)
    · exact .inr ⟨hab.trans hbc, hab'.trans hbc'⟩
  · intro a b _ _
    rw [issueLt_false_iff, issueLt_false_iff]
    rcases lt_trichotomy a.1 b.1 with hlt | heq | hgt
    · exact .inl (.inl hlt)
    · rcases le_total a.2 b.2 with hle | hle
      · exact .inl (.inr ⟨heq, hle⟩)
      · exact .inr (.inr ⟨heq.symm, hle⟩)
    · exact .inr (.inl hgt)

/-- Findings that are the same ones stand under the same numbers and codes. -/
theorem keys_eq_of_perm {issues issues' : List AefChainIssue} (h : issues.Perm issues') :
    (sortedBy issueLt AefChainIssue.key issues).map AefChainIssue.key =
      (sortedBy issueLt AefChainIssue.key issues').map AefChainIssue.key := by
  have hperm := (((sortedBy_perm issueLt AefChainIssue.key issues).trans h).trans
    (sortedBy_perm issueLt AefChainIssue.key issues').symm).map AefChainIssue.key
  refine hperm.eq_of_pairwise ?_ (issues_sorted issues) (issues_sorted issues')
  rintro ⟨n, code⟩ ⟨n', code'⟩ - - hab hba
  rw [issueLt_false_iff] at hab hba
  rcases hab with hab | ⟨hab, hab'⟩ <;> rcases hba with hba | ⟨hba, hba'⟩
  · exact absurd hba (not_lt.mpr hab.le)
  · exact absurd hab (by rw [hba]; exact lt_irrefl _)
  · exact absurd hba (by rw [hab]; exact lt_irrefl _)
  · exact Prod.ext hab (le_antisymm hab' hba')

theorem AefChainCode.value_inj {a b : AefChainCode} (h : a.value = b.value) : a = b := by
  revert h
  cases a <;> cases b <;> decide

/-- Two reports that differ at most in the order of the findings that share
their number and code. -/
structure SameReport (r r' : AefChainReport) : Prop where
  logId : r.logId = r'.logId
  firstSeq : r.firstSeq = r'.firstSeq
  lastSeq : r.lastSeq = r'.lastSeq
  receipts : r.receipts = r'.receipts
  issues : r.issues.Perm r'.issues
  keys : r.issues.map AefChainIssue.key = r'.issues.map AefChainIssue.key
  continuous : r.continuous = r'.continuous
  verdict : r.verdict = r'.verdict

theorem verdict_of_keys {r r' : AefChainReport}
    (h : r.issues.map AefChainIssue.key = r'.issues.map AefChainIssue.key) :
    r.verdict = r'.verdict := by
  have hcodes : r.issues.map AefChainIssue.code = r'.issues.map AefChainIssue.code := by
    have hvalues := congrArg (List.map Prod.snd) h
    rw [List.map_map, List.map_map] at hvalues
    refine List.map_injective_iff.mpr (fun _ _ => AefChainCode.value_inj) ?_
    rw [List.map_map, List.map_map]
    exact hvalues
  have hverdict : ∀ r : AefChainReport, r.verdict =
      ((r.issues.map AefChainIssue.code).find? fun c => !informational.contains c).getD
        .continuous := by
    intro r
    rw [AefChainReport.verdict, List.find?_map]
    show _ = ((r.issues.find? fun i => !informational.contains i.code).map _).getD _
    cases r.issues.find? fun i => !informational.contains i.code with
    | none => rfl
    | some i => rfl
  rw [hverdict, hverdict, hcodes]

theorem report_perm (logId : String) (h : Agreeing members) (hperm : members.Perm members') :
    SameReport (report logId members) (report logId members') := by
  have h' := h.perm hperm
  have hfirst : (report logId members).firstSeq = (report logId members').firstSeq := by
    by_cases hne : members = []
    · subst hne
      rw [hperm.symm.eq_nil]
    · have hne' : members' ≠ [] := fun hnil => hne (by rw [hnil] at hperm; exact hperm.eq_nil)
      obtain ⟨⟨m, hm, hseq⟩, hle⟩ := firstSeq_spec h hne
      obtain ⟨⟨m', hm', hseq'⟩, hle'⟩ := firstSeq_spec h' hne'
      have h1 := hle m' (hperm.mem_iff.mpr hm')
      have h2 := hle' m (hperm.mem_iff.mp hm)
      show ((bySeq (unique members)).keys.min?).getD 0 = ((bySeq (unique members')).keys.min?).getD 0
      omega
  have hlast : (report logId members).lastSeq = (report logId members').lastSeq := by
    by_cases hne : members = []
    · subst hne
      rw [hperm.symm.eq_nil]
    · have hne' : members' ≠ [] := fun hnil => hne (by rw [hnil] at hperm; exact hperm.eq_nil)
      obtain ⟨⟨m, hm, hseq⟩, hle⟩ := lastSeq_spec h hne
      obtain ⟨⟨m', hm', hseq'⟩, hle'⟩ := lastSeq_spec h' hne'
      have h1 := hle m' (hperm.mem_iff.mpr hm')
      have h2 := hle' m (hperm.mem_iff.mp hm)
      show ((bySeq (unique members)).keys.max?).getD 0 = ((bySeq (unique members')).keys.max?).getD 0
      omega
  have hfindings : (findings (counts members) (unique members) (report logId members).firstSeq).Perm
      (findings (counts members') (unique members') (report logId members').firstSeq) := by
    rw [hfirst]
    exact findings_perm h hperm _
  have hissues : (report logId members).issues.Perm (report logId members').issues :=
    ((sortedBy_perm issueLt _ _).trans hfindings).trans (sortedBy_perm issueLt _ _).symm
  have hkeys := keys_eq_of_perm hfindings
  exact
    { logId := rfl
      firstSeq := hfirst
      lastSeq := hlast
      receipts := (unique_perm h hperm).length_eq
      issues := hissues
      keys := hkeys
      continuous := hissues.all_eq
      verdict := verdict_of_keys hkeys }

end Order

end Passes

/-! ## The check of an export, exactly -/

/-- A receipt id stands for one content: it is the digest of the receipt, and
is checked before the receipt counts as authentic. -/
def ContentAddressed (entries : List (AefReceipt × AefVerification)) : Prop :=
  ∀ e ∈ authentic entries, ∀ e' ∈ authentic entries, e.2.receiptId = e'.2.receiptId → e.1 = e'.1

instance (entries : List (AefReceipt × AefVerification)) : Decidable (ContentAddressed entries) :=
  inferInstanceAs (Decidable (∀ e ∈ authentic entries, ∀ e' ∈ authentic entries, _ → _))

/-- The authentic receipts of one log. -/
def membersOf (entries : List (AefReceipt × AefVerification)) (logId : String) : List Member :=
  ((authentic entries).filter fun e => decide (e.1.logId = logId)).map memberOf

theorem getD_logs (entries : List (AefReceipt × AefVerification)) (logId : String) :
    ((logs entries).get? logId).getD [] = membersOf entries logId :=
  getD_groupBy _ _

theorem mem_logs (entries : List (AefReceipt × AefVerification)) (logId : String) :
    logId ∈ (logs entries).keys ↔ membersOf entries logId ≠ [] := by
  rw [logs, mem_keys_groupBy, membersOf, Ne, List.map_eq_nil_iff, List.filter_eq_nil_iff]
  simp

theorem verdict_continuous_iff (r : AefChainReport) :
    r.verdict = .continuous ↔ r.continuous = true := by
  rw [AefChainReport.verdict, AefChainReport.continuous, List.all_eq_true]
  cases hfind : r.issues.find? fun i => !informational.contains i.code with
  | none =>
    refine iff_of_true rfl fun i hi => ?_
    simpa using List.find?_eq_none.mp hfind i hi
  | some i =>
    have hbreaking := List.find?_some hfind
    refine iff_of_false ?_ fun hall => ?_
    · intro hcode
      rw [show i.code = .continuous from hcode] at hbreaking
      exact absurd hbreaking (by decide)
    · rw [hall i (List.mem_of_find?_eq_some hfind)] at hbreaking
      cases hbreaking

theorem agreeing_membersOf {entries : List (AefReceipt × AefVerification)}
    (h : ContentAddressed entries) (logId : String) : Agreeing (membersOf entries logId) := by
  intro m hm m' hm' hid
  obtain ⟨e, he, rfl⟩ := List.mem_map.mp hm
  obtain ⟨e', he', rfl⟩ := List.mem_map.mp hm'
  have hcontent := h e (List.mem_filter.mp he).1 e' (List.mem_filter.mp he').1 hid
  change e.2.receiptId = e'.2.receiptId at hid
  simp only [memberOf, hcontent, hid]

theorem logs_perm {entries entries' : List (AefReceipt × AefVerification)}
    (hperm : entries.Perm entries') :
    sortedBy (fun a b => decide (a < b)) id (logs entries).keys =
      sortedBy (fun a b => decide (a < b)) id (logs entries').keys := by
  have hkeys : (logs entries).keys.Perm (logs entries').keys :=
    keys_groupBy_perm (hperm.filter _)
  refine @eq_of_sortedBy _ _ (fun a b : String => decide (a < b)) id _ _
    ((sortedBy_perm _ id _).nodup_iff.mpr (logs entries).nodup)
    ((sortedBy_perm _ id _).nodup_iff.mpr (logs entries').nodup) ?_ ?_ ?_ ?_
  · intro a
    rw [mem_sortedBy, mem_sortedBy, hkeys.mem_iff]
  · intro a b _ _ hab hba
    simp only [id_eq, decide_eq_false_iff_not, not_lt] at hab hba
    exact le_antisymm hab hba
  all_goals
    refine pairwise_sortedBy (fun a b => decide (a < b)) (P := fun _ : String => True) ?_ ?_ id
      fun _ _ => trivial
    · intro a b c _ _ _ hab hbc
      simp only [decide_eq_false_iff_not, not_lt] at *
      exact hab.trans hbc
    · intro a b _ _
      simp only [decide_eq_false_iff_not, not_lt]
      exact le_total a b

/-- There is one report for each log with an authentic receipt; it is
continuous if and only if the authentic receipts of the log are an unbroken
chain; and from the receipts in another order come the same reports, with
the findings of one number and code in some order. -/
theorem chain_verdict_exact (entries : List (AefReceipt × AefVerification)) :
    (∀ logId, (∃ r ∈ verifyAefChain entries, r.logId = logId) ↔ membersOf entries logId ≠ []) ∧
    (∀ r ∈ verifyAefChain entries,
      (r.verdict = .continuous ↔ r.continuous = true) ∧
      (r.continuous = true ↔ ∃ a b, Unbroken (membersOf entries r.logId) a b) ∧
      (r.continuous = true → Unbroken (membersOf entries r.logId) r.firstSeq r.lastSeq)) ∧
    ∀ entries', entries.Perm entries' → ContentAddressed entries →
      List.Forall₂ SameReport (verifyAefChain entries) (verifyAefChain entries') := by
  refine ⟨fun logId => ?_, fun r hr => ?_, fun entries' hperm hcontent => ?_⟩
  · rw [← mem_logs]
    constructor
    · rintro ⟨r, hr, rfl⟩
      obtain ⟨logId, hlog, rfl⟩ := List.mem_map.mp hr
      exact (mem_sortedBy _).mp hlog
    · intro hlog
      exact ⟨_, List.mem_map.mpr ⟨logId, (mem_sortedBy _).mpr hlog, rfl⟩, rfl⟩
  · obtain ⟨logId, hlog, rfl⟩ := List.mem_map.mp hr
    rw [getD_logs] at *
    have hne := (mem_logs entries logId).mp ((mem_sortedBy _).mp hlog)
    exact ⟨verdict_continuous_iff _, report_continuous_iff logId hne⟩
  · unfold verifyAefChain
    rw [logs_perm hperm, List.forall₂_map_left_iff, List.forall₂_map_right_iff]
    refine List.forall₂_same.mpr fun logId _ => ?_
    rw [getD_logs, getD_logs]
    exact report_perm logId (agreeing_membersOf hcontent logId) (((hperm.filter _).filter _).map _)

/-- A valid receipt of one log under an id of one repeated digit. -/
def receiptOf (seq : Int) (id prev : Char) : AefReceipt × AefVerification :=
  let text (c : Char) := "aef1:" ++ String.ofList (List.replicate 64 c)
  (⟨String.ofList (List.replicate 64 '5'), seq, text prev⟩, ⟨.valid, text id⟩)

/-- Two receipts after the first, neither linked to it: the same two findings
come in the order of the receipts. -/
theorem findings_follow_order :
    let entries := [receiptOf 1 'a' '0', receiptOf 2 'b' 'e', receiptOf 2 'c' 'f']
    let entries' := [receiptOf 1 'a' '0', receiptOf 2 'c' 'f', receiptOf 2 'b' 'e']
    entries.Perm entries' ∧ ContentAddressed entries ∧
      verifyAefChain entries ≠ verifyAefChain entries' := by
  decide +kernel

theorem chain_verdict_exact_fork :
    List.Forall₂ SameReport
      (verifyAefChain [receiptOf 1 'a' '0', receiptOf 2 'b' 'e', receiptOf 2 'c' 'f'])
      (verifyAefChain [receiptOf 1 'a' '0', receiptOf 2 'c' 'f', receiptOf 2 'b' 'e']) :=
  (chain_verdict_exact _).2.2 _ (by decide +kernel) (by decide +kernel)

end SynapseChannel.Aef
