import SynapseChannel.Core.PathIdentity

/-!
# Core — ReleaseIndex

Released claims filed by the worktree they can contend in. A fresh claim
is compared with the releases of a few buckets only, and still finds the
latest release of the whole log whose scope contends with its own.
-/

namespace SynapseChannel

open Py

/-- One coordination event placed in the causality graph. -/
structure CausalNode where
  seq : Int
  ts : Float
  kind : String
  taskId : String
  owner : String
  status : String
  paths : List String
  worktree : String
  dependsOn : List String
  text : String
  pathIdentity : Option ClaimScopeIdentity := none
deriving DecidableEq

/-- A release sequence and the claim it freed. -/
abbrev ReleaseEntry := Int × CausalNode

def casePolicies : List Bool := [true, false]

/-- Released claims, filed by every key under which they can contend. -/
structure ReleasedClaimIndex where
  legacyByDisplay : Dict String (List ReleaseEntry) := Dict.empty
  legacyByLabel : Dict (Bool × String) (List ReleaseEntry) := Dict.empty
  identityByFolded : Dict String (List ReleaseEntry) := Dict.empty
  identityByLabel : Dict (Bool × String) (List ReleaseEntry) := Dict.empty
  identityByObject : Dict (String × String) (List ReleaseEntry) := Dict.empty

namespace ReleasedClaimIndex

variable {κ : Type} [DecidableEq κ]

/-- `buckets[key]`, empty for a key never filed under. -/
def bucket (buckets : Dict κ (List ReleaseEntry)) (key : κ) : List ReleaseEntry :=
  (buckets.get? key).getD []

/-- `buckets[key].append(entry)`. -/
def fileUnder (buckets : Dict κ (List ReleaseEntry)) (key : κ) (entry : ReleaseEntry) :
    Dict κ (List ReleaseEntry) :=
  buckets.set key (bucket buckets key ++ [entry])

variable [Builtins]

/-- The namespace and root object a scope proves, if it proves both. -/
def objectKey (identity : ClaimScopeIdentity) : Option (String × String) :=
  if identity.filesystemNamespace ≠ "" ∧ identity.worktreeObjectId ≠ "" then
    some (identity.filesystemNamespace, objectKeyBase identity.worktreeObjectId)
  else none

/-- File the claim that `releaseSeq` released. -/
def add (index : ReleasedClaimIndex) (releaseSeq : Int) (freed : CausalNode) :
    ReleasedClaimIndex :=
  let entry := (releaseSeq, freed)
  match freed.pathIdentity with
  | none =>
    { index with
      legacyByDisplay := fileUnder index.legacyByDisplay freed.worktree entry
      legacyByLabel := casePolicies.foldl (fun buckets caseSensitive =>
        let label := comparisonWorktree freed.worktree caseSensitive
        fileUnder buckets (caseSensitive, label) entry) index.legacyByLabel }
  | some identity =>
    let folded := comparisonWorktree identity.worktreePath false
    { index with
      identityByFolded := fileUnder index.identityByFolded folded entry
      identityByLabel :=
        fileUnder index.identityByLabel (identity.caseSensitive, identity.worktreePath) entry
      identityByObject :=
        match objectKey identity with
        | some key => fileUnder index.identityByObject key entry
        | none => index.identityByObject }

/-- The buckets holding every release that can contend with `claim`. -/
def buckets (index : ReleasedClaimIndex) (claim : CausalNode) : List (List ReleaseEntry) :=
  match claim.pathIdentity with
  | none =>
    bucket index.legacyByDisplay claim.worktree :: casePolicies.map fun caseSensitive =>
      bucket index.identityByLabel
        (caseSensitive, comparisonWorktree claim.worktree caseSensitive)
  | some identity =>
    let folded := comparisonWorktree identity.worktreePath false
    [bucket index.identityByFolded folded,
      bucket index.legacyByLabel (identity.caseSensitive, identity.worktreePath)] ++
    match objectKey identity with
    | some key => [bucket index.identityByObject key]
    | none => []

section

omit [Builtins]

/-- Pass over the others that are newer than `entry`, put it down and go
on with `rest`. -/
def mergeHead (entry : ReleaseEntry) (entries : List ReleaseEntry)
    (rest : List ReleaseEntry → List ReleaseEntry) : List ReleaseEntry → List ReleaseEntry
  | [] => entry :: entries
  | other :: others =>
    if other.1 ≤ entry.1 then entry :: rest (other :: others)
    else other :: mergeHead entry entries rest others

/-- The newer of the two heads, the left one where they are equal, then
the rest. -/
def mergeTwo : List ReleaseEntry → List ReleaseEntry → List ReleaseEntry
  | [], others => others
  | entry :: entries, others => mergeHead entry entries (mergeTwo entries) others

/-- `heapq.merge` by falling release sequence; of equal entries the one
of the earlier bucket comes first. -/
def mergeNewest (buckets : List (List ReleaseEntry)) : List ReleaseEntry :=
  buckets.foldr mergeTwo []

/-- Skip the entries that repeat the sequence before them. -/
def skipRepeats : Option Int → List ReleaseEntry → List ReleaseEntry
  | _, [] => []
  | previous, entry :: rest =>
    if some entry.1 = previous then skipRepeats previous rest
    else entry :: skipRepeats (some entry.1) rest

end

/-- Each candidate once, newest release first. -/
def newestFirst (index : ReleasedClaimIndex) (claim : CausalNode) : List ReleaseEntry :=
  skipRepeats none (mergeNewest ((index.buckets claim).map List.reverse))

/-- An earlier release by another owner whose freed scope contends. -/
def contends (claim : CausalNode) (entry : ReleaseEntry) : Bool :=
  !(decide (entry.1 ≥ claim.seq) || decide (entry.2.owner = claim.owner)) &&
    claimScopesConflict entry.2.worktree entry.2.paths entry.2.pathIdentity
      claim.worktree claim.paths claim.pathIdentity

/-- The latest earlier release by another owner whose scope contends. -/
def latestConflicting (index : ReleasedClaimIndex) (claim : CausalNode) : Option Int :=
  ((index.newestFirst claim).find? (contends claim)).map Prod.fst

/-- The index after a sequence of releases. -/
def addAll (releases : List ReleaseEntry) : ReleasedClaimIndex :=
  releases.foldl (fun index entry => index.add entry.1 entry.2) {}

/-! ## What the buckets hold -/

section Buckets

omit [Builtins]

theorem bucket_empty (key : κ) : bucket Dict.empty key = [] := rfl

theorem bucket_fileUnder (filed : Dict κ (List ReleaseEntry)) (key : κ) (entry : ReleaseEntry)
    (k : κ) : bucket (fileUnder filed key entry) k =
      bucket filed k ++ if key = k then [entry] else [] := by
  unfold fileUnder
  by_cases h : key = k
  · subst h
    simp [bucket]
  · simp [bucket, Dict.get?_set_ne _ _ h, h]

/-- The entries are among the releases, in their order, and include all
that satisfy `p`. -/
def Lists (releases : List ReleaseEntry) (p : ReleaseEntry → Prop)
    (entries : List ReleaseEntry) : Prop :=
  entries.Sublist releases ∧ ∀ e ∈ releases, p e → e ∈ entries

variable {releases entries : List ReleaseEntry} {p : ReleaseEntry → Prop} {entry : ReleaseEntry}

theorem Lists.keep (h : Lists releases p entries) (hp : ¬ p entry) :
    Lists (releases ++ [entry]) p entries := by
  constructor
  · exact h.1.trans (List.sublist_append_left _ _)
  · intro e he hpe
    rcases List.mem_append.mp he with he | he
    · exact h.2 e he hpe
    · rw [List.mem_singleton.mp he] at hpe
      exact absurd hpe hp

theorem Lists.append (h : Lists releases p entries) :
    Lists (releases ++ [entry]) p (entries ++ [entry]) := by
  constructor
  · exact h.1.append (List.Sublist.refl _)
  · intro e he hpe
    rcases List.mem_append.mp he with he | he
    · exact List.mem_append_left _ (h.2 e he hpe)
    · exact List.mem_append_right _ he

theorem Lists.file {filed : Dict κ (List ReleaseEntry)} {key k : κ}
    (h : Lists releases p (bucket filed k)) (hp : p entry → key = k) :
    Lists (releases ++ [entry]) p (bucket (fileUnder filed key entry) k) := by
  rw [bucket_fileUnder]
  by_cases hk : key = k
  · rw [if_pos hk]
    exact h.append
  · rw [if_neg hk, List.append_nil]
    exact h.keep fun hpe => hk (hp hpe)

end Buckets

/-- The freed claim is a legacy one in such a worktree. -/
def Legacy (p : String → Prop) (entry : ReleaseEntry) : Prop :=
  entry.2.pathIdentity = none ∧ p entry.2.worktree

/-- The freed claim carries such an identity. -/
def Identified (p : ClaimScopeIdentity → Prop) (entry : ReleaseEntry) : Prop :=
  ∃ identity, entry.2.pathIdentity = some identity ∧ p identity

/-- Every bucket lists the releases filed under its key. -/
structure Holds (index : ReleasedClaimIndex) (releases : List ReleaseEntry) : Prop where
  display : ∀ key, Lists releases (Legacy fun worktree => worktree = key)
    (bucket index.legacyByDisplay key)
  label : ∀ key, Lists releases (Legacy fun worktree => comparisonWorktree worktree key.1 = key.2)
    (bucket index.legacyByLabel key)
  folded : ∀ key, Lists releases (Identified fun x => comparisonWorktree x.worktreePath false = key)
    (bucket index.identityByFolded key)
  path : ∀ key, Lists releases (Identified fun x => (x.caseSensitive, x.worktreePath) = key)
    (bucket index.identityByLabel key)
  object : ∀ key, Lists releases (Identified fun x => objectKey x = some key)
    (bucket index.identityByObject key)

section

omit [Builtins]

theorem Legacy.not {p : String → Prop} {entry : ReleaseEntry} {identity : ClaimScopeIdentity}
    (h : entry.2.pathIdentity = some identity) : ¬ Legacy p entry := by
  rintro ⟨hnone, -⟩
  rw [hnone] at h
  cases h

theorem Identified.not {p : ClaimScopeIdentity → Prop} {entry : ReleaseEntry}
    (h : entry.2.pathIdentity = none) : ¬ Identified p entry := by
  rintro ⟨identity, hsome, -⟩
  rw [hsome] at h
  cases h

theorem Identified.of_some {p : ClaimScopeIdentity → Prop} {entry : ReleaseEntry}
    {identity : ClaimScopeIdentity} (h : entry.2.pathIdentity = some identity) :
    Identified p entry → p identity := by
  rintro ⟨identity', hsome, hp⟩
  rw [hsome] at h
  cases h
  exact hp

end

theorem holds_empty : Holds {} [] := by
  constructor <;> exact fun key => ⟨by simp [bucket_empty], by simp⟩

theorem Holds.add {index : ReleasedClaimIndex} {releases : List ReleaseEntry}
    (h : Holds index releases) (entry : ReleaseEntry) :
    Holds (index.add entry.1 entry.2) (releases ++ [entry]) := by
  obtain ⟨releaseSeq, freed⟩ := entry
  cases hidentity : freed.pathIdentity with
  | none =>
      have hkeep : ∀ p, ¬ Identified p (releaseSeq, freed) := fun p => Identified.not hidentity
      unfold ReleasedClaimIndex.add
      simp only [hidentity]
      constructor
      · exact fun key => (h.display key).file fun hp => hp.2
      · rintro ⟨caseSensitive, label⟩
        -- the entry is filed once for each policy, and the key names one
        simp only [casePolicies, List.foldl_cons, List.foldl_nil]
        cases caseSensitive with
        | true =>
            rw [bucket_fileUnder]
            simp only [Prod.mk.injEq, Bool.false_eq_true, false_and, if_false, List.append_nil]
            exact (h.label _).file fun hp => Prod.ext rfl hp.2
        | false =>
            refine Lists.file ?_ fun hp => Prod.ext rfl hp.2
            rw [bucket_fileUnder]
            simp only [Prod.mk.injEq, Bool.true_eq_false, false_and, if_false, List.append_nil]
            exact h.label _
      · exact fun key => (h.folded key).keep (hkeep _)
      · exact fun key => (h.path key).keep (hkeep _)
      · exact fun key => (h.object key).keep (hkeep _)
  | some identity =>
      have hkeep : ∀ p, ¬ Legacy p (releaseSeq, freed) := fun p => Legacy.not hidentity
      have hof := fun p => @Identified.of_some p (releaseSeq, freed) identity hidentity
      unfold ReleasedClaimIndex.add
      simp only [hidentity]
      constructor
      · exact fun key => (h.display key).keep (hkeep _)
      · exact fun key => (h.label key).keep (hkeep _)
      · exact fun key => (h.folded key).file fun hp => hof _ hp
      · exact fun key => (h.path key).file fun hp => hof _ hp
      · intro key
        cases hkey : objectKey identity with
        | none =>
            refine (h.object key).keep fun hp => ?_
            have := hof _ hp
            rw [hkey] at this
            cases this
        | some key' =>
            refine (h.object key).file fun hp => ?_
            have := hof _ hp
            rw [hkey] at this
            exact Option.some.inj this

theorem holds_addAll (releases : List ReleaseEntry) : Holds (addAll releases) releases := by
  induction releases using List.reverseRecOn with
  | nil => exact holds_empty
  | append_singleton releases entry ih =>
      unfold addAll at ih ⊢
      rw [List.foldl_append]
      exact ih.add entry

/-! ## Every contending release is a candidate -/

omit [Builtins] in
theorem sameWorktreeKey_base {left right : String} (h : sameWorktreeKey left right = true) :
    objectKeyBase left = objectKeyBase right := by
  unfold sameWorktreeKey at h
  split at h
  · rw [beq_iff_eq.mp h]
  · exact beq_iff_eq.mp h

/-- Labels that agree under either policy agree once case is folded. -/
theorem comparisonWorktree_folded {a b : String} {caseSensitive : Bool}
    (h : comparisonWorktree a caseSensitive = comparisonWorktree b caseSensitive) :
    comparisonWorktree a false = comparisonWorktree b false := by
  have hfold : ∀ path, comparisonWorktree path false
      = Builtins.casefold (comparisonWorktree path true) := fun _ => rfl
  cases caseSensitive with
  | false => exact h
  | true => rw [hfold, hfold, h]

omit [Builtins] in
theorem objectKey_of_comparable {a b : ClaimScopeIdentity}
    (h : claimObjectIdsComparable (some a) (some b) = true) :
    objectKey b = some (b.filesystemNamespace, objectKeyBase b.worktreeObjectId) ∧
      objectKey a = objectKey b := by
  simp only [claimObjectIdsComparable, Bool.and_eq_true, bne_iff_ne, ne_eq, beq_iff_eq] at h
  obtain ⟨⟨⟨⟨hns, heq⟩, ha⟩, hb⟩, hkey⟩ := h
  have hbase := sameWorktreeKey_base hkey
  constructor
  · simp [objectKey, ← heq, hns, hb]
  · simp [objectKey, ← heq, hns, ha, hb, hbase]

omit [Builtins] in
theorem claimWorktreesMatch_path [Builtins] {displayA displayB : String}
    {a b : ClaimScopeIdentity}
    (h : claimWorktreesMatch displayA (some a) displayB (some b) = true) :
    comparisonWorktree a.worktreePath false = comparisonWorktree b.worktreePath false := by
  unfold claimWorktreesMatch at h
  by_contra hne
  have hdiff : comparisonWorktree a.worktreePath (a.caseSensitive && b.caseSensitive)
      ≠ comparisonWorktree b.worktreePath (a.caseSensitive && b.caseSensitive) :=
    fun heq => hne (comparisonWorktree_folded heq)
  simp [hdiff] at h

theorem match_of_conflict {claim : CausalNode} {entry : ReleaseEntry}
    (h : contends claim entry = true) :
    claimWorktreesMatch entry.2.worktree entry.2.pathIdentity claim.worktree
        claim.pathIdentity = true ∨
      claimObjectIdsComparable entry.2.pathIdentity claim.pathIdentity = true := by
  simp only [contends, Bool.and_eq_true, claimScopesConflict] at h
  by_contra hno
  simp only [not_or, Bool.not_eq_true] at hno
  simp [hno] at h

theorem candidate_of_contends {index : ReleasedClaimIndex} {releases : List ReleaseEntry}
    (hholds : Holds index releases) {claim : CausalNode} {entry : ReleaseEntry}
    (hentry : entry ∈ releases) (h : contends claim entry = true) :
    ∃ bucket ∈ index.buckets claim, entry ∈ bucket := by
  have hmatch := match_of_conflict h
  unfold buckets
  -- the cases of the worktree match: legacy or identity on either side
  cases hclaim : claim.pathIdentity with
  | none =>
      cases hfreed : entry.2.pathIdentity with
      | none =>
          rw [hclaim, hfreed] at hmatch
          have hdisplay : entry.2.worktree = claim.worktree := by
            simpa [claimWorktreesMatch, claimObjectIdsComparable] using hmatch
          exact ⟨_, by simp, (hholds.display _).2 entry hentry ⟨hfreed, hdisplay⟩⟩
      | some identity =>
          rw [hclaim, hfreed] at hmatch
          have hpath : comparisonWorktree claim.worktree identity.caseSensitive
              = identity.worktreePath := by
            simpa [claimWorktreesMatch, claimObjectIdsComparable] using hmatch
          refine ⟨bucket index.identityByLabel
            (identity.caseSensitive, comparisonWorktree claim.worktree identity.caseSensitive),
            ?_, (hholds.path _).2 entry hentry ⟨identity, hfreed, by rw [hpath]⟩⟩
          cases identity.caseSensitive <;> simp [casePolicies]
  | some known =>
      cases hfreed : entry.2.pathIdentity with
      | none =>
          rw [hclaim, hfreed] at hmatch
          have hpath : comparisonWorktree entry.2.worktree known.caseSensitive
              = known.worktreePath := by
            simpa [claimWorktreesMatch, claimObjectIdsComparable] using hmatch
          exact ⟨_, by simp, (hholds.label (known.caseSensitive, known.worktreePath)).2 entry
            hentry ⟨hfreed, hpath⟩⟩
      | some identity =>
          rw [hclaim, hfreed] at hmatch
          rcases hmatch with hpath | hobject
          · have hfolded := claimWorktreesMatch_path hpath
            exact ⟨_, by simp, (hholds.folded _).2 entry hentry ⟨identity, hfreed, hfolded⟩⟩
          · obtain ⟨hkey, heq⟩ := objectKey_of_comparable hobject
            simp only [hkey]
            exact ⟨_, by simp, (hholds.object _).2 entry hentry
              ⟨identity, hfreed, heq.trans hkey⟩⟩

theorem buckets_sublist {index : ReleasedClaimIndex} {releases : List ReleaseEntry}
    (hholds : Holds index releases) {claim : CausalNode} {entries : List ReleaseEntry}
    (h : entries ∈ index.buckets claim) : entries.Sublist releases := by
  unfold buckets at h
  cases hclaim : claim.pathIdentity with
  | none =>
      simp only [hclaim, casePolicies, List.map_cons, List.map_nil, List.mem_cons,
        List.not_mem_nil, or_false] at h
      rcases h with rfl | rfl | rfl
      · exact (hholds.display _).1
      · exact (hholds.path _).1
      · exact (hholds.path _).1
  | some identity =>
      simp only [hclaim, List.mem_append, List.mem_cons, List.not_mem_nil, or_false] at h
      rcases h with (rfl | rfl) | h
      · exact (hholds.folded _).1
      · exact (hholds.label _).1
      · split at h
        · rw [List.mem_singleton.mp h]
          exact (hholds.object _).1
        · cases h

/-! ## The newest candidate -/

section Newest

omit [Builtins]

/-- The newer of two entries stands first. -/
def Newer (a b : ReleaseEntry) : Prop := b.1 ≤ a.1

theorem mergeHead_eq {entry : ReleaseEntry} {entries : List ReleaseEntry}
    {rest : List ReleaseEntry → List ReleaseEntry}
    (h : ∀ others, rest others = entries.merge others fun a b => decide (b.1 ≤ a.1))
    (others : List ReleaseEntry) : mergeHead entry entries rest others
      = (entry :: entries).merge others fun a b => decide (b.1 ≤ a.1) := by
  induction others with
  | nil => simp [mergeHead]
  | cons other others ih => simp only [mergeHead, List.cons_merge_cons, decide_eq_true_eq, h, ih]

theorem mergeTwo_eq (entries others : List ReleaseEntry) :
    mergeTwo entries others = entries.merge others fun a b => decide (b.1 ≤ a.1) := by
  induction entries generalizing others with
  | nil => simp [mergeTwo]
  | cons entry entries ih => exact mergeHead_eq ih others

theorem mem_mergeNewest (buckets : List (List ReleaseEntry)) (e : ReleaseEntry) :
    e ∈ mergeNewest buckets ↔ ∃ bucket ∈ buckets, e ∈ bucket := by
  induction buckets with
  | nil => simp [mergeNewest]
  | cons bucket rest ih =>
      have : mergeNewest (bucket :: rest) = mergeTwo bucket (mergeNewest rest) := rfl
      rw [this, mergeTwo_eq, List.mem_merge, ih]
      simp

theorem mergeNewest_newer {buckets : List (List ReleaseEntry)}
    (h : ∀ bucket ∈ buckets, bucket.Pairwise Newer) : (mergeNewest buckets).Pairwise Newer := by
  induction buckets with
  | nil => exact .nil
  | cons bucket rest ih =>
      have hhead := h bucket (by simp)
      have htail := ih fun b hb => h b (List.mem_cons_of_mem _ hb)
      have hmerged : (bucket.merge (mergeNewest rest) fun a b => decide (b.1 ≤ a.1)).Pairwise
          fun a b => decide (b.1 ≤ a.1) = true := List.pairwise_merge
        (fun a b c hab hbc => by simp only [decide_eq_true_eq] at *; omega)
        (fun a b => by simp only [Bool.or_eq_true, decide_eq_true_eq]; omega)
        bucket (mergeNewest rest) (hhead.imp fun h => decide_eq_true (p := _ ≤ _) h)
        (htail.imp fun h => decide_eq_true (p := _ ≤ _) h)
      have : mergeNewest (bucket :: rest) = mergeTwo bucket (mergeNewest rest) := rfl
      rw [this, mergeTwo_eq]
      exact hmerged.imp fun h => of_decide_eq_true h

theorem skipRepeats_sublist (previous : Option Int) (entries : List ReleaseEntry) :
    (skipRepeats previous entries).Sublist entries := by
  induction entries generalizing previous with
  | nil => exact .slnil
  | cons e rest ih =>
      unfold skipRepeats
      split
      · exact (ih previous).cons e
      · exact (ih (some e.1)).cons_cons e

theorem mem_skipRepeats {previous : Option Int} {entries : List ReleaseEntry}
    (hinj : ∀ a ∈ entries, ∀ b ∈ entries, a.1 = b.1 → a = b) {e : ReleaseEntry}
    (he : e ∈ entries) (hprev : some e.1 ≠ previous) : e ∈ skipRepeats previous entries := by
  induction entries generalizing previous with
  | nil => cases he
  | cons a rest ih =>
      have hrest : ∀ b ∈ rest, ∀ c ∈ rest, b.1 = c.1 → b = c := fun b hb c hc =>
        hinj b (List.mem_cons_of_mem _ hb) c (List.mem_cons_of_mem _ hc)
      unfold skipRepeats
      by_cases ha : some a.1 = previous
      · rw [if_pos ha]
        rcases List.mem_cons.mp he with rfl | he
        · exact absurd ha hprev
        · exact ih hrest he hprev
      · rw [if_neg ha]
        by_cases hea : e.1 = a.1
        · rw [hinj e he a (by simp) hea]
          simp
        · rcases List.mem_cons.mp he with rfl | he
          · simp
          · exact List.mem_cons_of_mem _ (ih hrest he (by simpa using hea))

/-- The newest of the entries that satisfy `p`. -/
def IsNewest (p : ReleaseEntry → Bool) (entries : List ReleaseEntry) (e : ReleaseEntry) : Prop :=
  e ∈ entries ∧ p e = true ∧ ∀ e' ∈ entries, p e' = true → e'.1 ≤ e.1

theorem find?_newest {p : ReleaseEntry → Bool} {entries : List ReleaseEntry}
    (h : entries.Pairwise Newer) {e : ReleaseEntry} (hfind : entries.find? p = some e) :
    IsNewest p entries e := by
  obtain ⟨hp, before, after, rfl, hbefore⟩ := List.find?_eq_some_iff_append.mp hfind
  refine ⟨by simp, hp, fun e' he' hp' => ?_⟩
  rcases List.mem_append.mp he' with he' | he'
  · have := hbefore e' he'
    rw [hp'] at this
    cases this
  · rcases List.mem_cons.mp he' with rfl | he'
    · exact Int.le_refl _
    · exact (List.pairwise_cons.mp (List.pairwise_append.mp h).2.1).1 e' he'

/-- Two orders of entries with the same satisfying ones find one sequence. -/
theorem find?_seq_congr {p : ReleaseEntry → Bool} {entries entries' : List ReleaseEntry}
    (h : entries.Pairwise Newer) (h' : entries'.Pairwise Newer)
    (hmem : ∀ e, p e = true → (e ∈ entries ↔ e ∈ entries')) :
    (entries.find? p).map Prod.fst = (entries'.find? p).map Prod.fst := by
  cases hfind : entries.find? p with
  | none =>
      have : entries'.find? p = none := by
        rw [List.find?_eq_none] at hfind ⊢
        exact fun e he hp => hfind e ((hmem e hp).mpr he) hp
      rw [this]
  | some e =>
      obtain ⟨he, hp, hmax⟩ := find?_newest h hfind
      cases hfind' : entries'.find? p with
      | none => exact absurd hp (List.find?_eq_none.mp hfind' e ((hmem e hp).mp he))
      | some e' =>
          obtain ⟨he', hp', hmax'⟩ := find?_newest h' hfind'
          have hle := hmax e' ((hmem e' hp').mpr he') hp'
          have hge := hmax' e ((hmem e hp).mp he) hp
          have : e.1 = e'.1 := by omega
          simp [this]

end Newest

/-! ## The index and the scan -/

/-- The release sequences rise along the log. -/
def Rising (releases : List ReleaseEntry) : Prop := releases.Pairwise fun a b => a.1 < b.1

/-- The claim `entry` freed contends with a fresh `claim` of another owner. -/
structure Contends (claim : CausalNode) (entry : ReleaseEntry) : Prop where
  earlier : entry.1 < claim.seq
  owner : entry.2.owner ≠ claim.owner
  scope : claimScopesConflict entry.2.worktree entry.2.paths entry.2.pathIdentity
    claim.worktree claim.paths claim.pathIdentity = true

theorem contends_iff (claim : CausalNode) (entry : ReleaseEntry) :
    contends claim entry = true ↔ Contends claim entry := by
  simp only [contends, Bool.and_eq_true, Bool.not_eq_true', Bool.or_eq_false_iff,
    decide_eq_false_iff_not, ge_iff_le, Int.not_le]
  constructor
  · rintro ⟨⟨hearlier, howner⟩, hscope⟩
    exact ⟨hearlier, howner, hscope⟩
  · intro h
    exact ⟨⟨h.earlier, h.owner⟩, h.scope⟩

omit [Builtins] in
theorem Rising.inj {releases : List ReleaseEntry} (h : Rising releases) :
    ∀ a ∈ releases, ∀ b ∈ releases, a.1 = b.1 → a = b := by
  let Same : ReleaseEntry → ReleaseEntry → Prop := fun a b => a.1 = b.1 → a = b
  have hsymm : Std.Symm Same := ⟨fun a b hab heq => (hab heq.symm).symm⟩
  have hsame : releases.Pairwise Same := h.imp fun hlt heq => by omega
  intro a ha b hb
  exact hsame.forall_of_forall (fun _ _ _ => rfl) ha hb

omit [Builtins] in
theorem Rising.newer {releases : List ReleaseEntry} (h : Rising releases) :
    releases.reverse.Pairwise Newer :=
  List.pairwise_reverse.mpr (h.imp fun hlt => Int.le_of_lt hlt)

/-- Look through the releases one by one, the newest first. -/
def scanReleases (releases : List ReleaseEntry) (claim : CausalNode) : Option Int :=
  (releases.reverse.find? (contends claim)).map Prod.fst

theorem newestFirst_spec {releases : List ReleaseEntry} (h : Rising releases)
    (claim : CausalNode) : ((addAll releases).newestFirst claim).Pairwise Newer ∧
      (∀ e ∈ (addAll releases).newestFirst claim, e ∈ releases) ∧
      ∀ e ∈ releases, contends claim e = true → e ∈ (addAll releases).newestFirst claim := by
  have hholds := holds_addAll releases
  have hmem : ∀ e ∈ mergeNewest (((addAll releases).buckets claim).map List.reverse),
      e ∈ releases := by
    intro e he
    obtain ⟨entries, hentries, he⟩ := (mem_mergeNewest _ _).mp he
    obtain ⟨bucket, hbucket, rfl⟩ := List.mem_map.mp hentries
    exact (buckets_sublist hholds hbucket).subset (List.mem_reverse.mp he)
  have hsub := skipRepeats_sublist none
    (mergeNewest (((addAll releases).buckets claim).map List.reverse))
  refine ⟨?_, fun e he => hmem e (hsub.subset he), fun e he hcontends => ?_⟩
  · refine List.Pairwise.sublist hsub (mergeNewest_newer fun entries hentries => ?_)
    obtain ⟨bucket, hbucket, rfl⟩ := List.mem_map.mp hentries
    exact Rising.newer (List.Pairwise.sublist (buckets_sublist hholds hbucket) h)
  · obtain ⟨bucket, hbucket, hin⟩ := candidate_of_contends hholds he hcontends
    refine mem_skipRepeats (fun a ha b hb => h.inj a (hmem a ha) b (hmem b hb)) ?_ (by simp)
    exact (mem_mergeNewest _ _).mpr
      ⟨bucket.reverse, List.mem_map_of_mem hbucket, List.mem_reverse.mpr hin⟩

/-- The index answers as the scan does. -/
theorem latestConflicting_eq_scan {releases : List ReleaseEntry} (h : Rising releases)
    (claim : CausalNode) :
    latestConflicting (addAll releases) claim = scanReleases releases claim := by
  obtain ⟨hnewer, hsound, hcomplete⟩ := newestFirst_spec h claim
  refine find?_seq_congr hnewer h.newer fun e hp => ?_
  rw [List.mem_reverse]
  exact ⟨hsound e, fun he => hcomplete e he hp⟩

theorem scanReleases_eq_some {releases : List ReleaseEntry} (h : Rising releases)
    {claim : CausalNode} {releaseSeq : Int} :
    scanReleases releases claim = some releaseSeq ↔
      (∃ freed, (releaseSeq, freed) ∈ releases ∧ Contends claim (releaseSeq, freed)) ∧
        ∀ entry ∈ releases, Contends claim entry → entry.1 ≤ releaseSeq := by
  unfold scanReleases
  rw [Option.map_eq_some_iff]
  constructor
  · rintro ⟨entry, hfind, rfl⟩
    obtain ⟨hentry, hp, hmax⟩ := find?_newest h.newer hfind
    refine ⟨⟨entry.2, List.mem_reverse.mp hentry, (contends_iff _ _).mp hp⟩, ?_⟩
    exact fun e he hc => hmax e (List.mem_reverse.mpr he) ((contends_iff _ _).mpr hc)
  · rintro ⟨⟨freed, hentry, hc⟩, hmax⟩
    cases hfind : releases.reverse.find? (contends claim) with
    | none =>
        have hnone := List.find?_eq_none.mp hfind _ (List.mem_reverse.mpr hentry)
        exact absurd ((contends_iff _ _).mpr hc) hnone
    | some entry =>
        obtain ⟨he, hp, hle⟩ := find?_newest h.newer hfind
        have hge := hle _ (List.mem_reverse.mpr hentry) ((contends_iff _ _).mpr hc)
        have hle' := hmax entry (List.mem_reverse.mp he) ((contends_iff _ _).mp hp)
        have : entry.1 = releaseSeq := Int.le_antisymm hle' hge
        exact ⟨entry, rfl, this⟩

theorem scanReleases_eq_none {releases : List ReleaseEntry} {claim : CausalNode} :
    scanReleases releases claim = none ↔ ∀ entry ∈ releases, ¬ Contends claim entry := by
  unfold scanReleases
  rw [Option.map_eq_none_iff, List.find?_eq_none]
  simp only [List.mem_reverse, contends_iff]

/-- The index finds exactly the highest-sequence earlier release whose
freed claim has another owner and contends with the fresh claim. -/
theorem latest_conflicting_exact {releases : List ReleaseEntry} (h : Rising releases)
    (claim : CausalNode) :
    (∀ releaseSeq, latestConflicting (addAll releases) claim = some releaseSeq ↔
      (∃ freed, (releaseSeq, freed) ∈ releases ∧ Contends claim (releaseSeq, freed)) ∧
        ∀ entry ∈ releases, Contends claim entry → entry.1 ≤ releaseSeq) ∧
      (latestConflicting (addAll releases) claim = none ↔
        ∀ entry ∈ releases, ¬ Contends claim entry) := by
  rw [latestConflicting_eq_scan h]
  exact ⟨fun _ => scanReleases_eq_some h, scanReleases_eq_none⟩

/-! ## A legacy claim and an identity of one worktree -/

/-- A claim snapshot of `owner` on `paths` in `/Repo`. -/
def repoClaim (seq : Int) (owner : String) (paths : List String)
    (pathIdentity : Option ClaimScopeIdentity) : CausalNode where
  seq := seq
  ts := 0
  kind := "claim"
  taskId := owner
  owner := owner
  status := "claimed"
  paths := paths
  worktree := "/Repo"
  dependsOn := []
  text := ""
  pathIdentity := pathIdentity

/-- The folded identity of `/Repo` and of one path in it. -/
def repoIdentity (path : String) : ClaimScopeIdentity where
  worktreePath := "/repo"
  caseSensitive := false
  paths := [{ gitPath := path, filesystemPath := path }]

/-- A legacy and an identity-bearing claim, both released. -/
def mixedReleases : List ReleaseEntry :=
  [(3, repoClaim 1 "a" ["src"] none), (4, repoClaim 2 "b" ["docs"] (some (repoIdentity "docs")))]

omit [Builtins] in
theorem latest_conflicting_exact_mixed :
    letI : Builtins := Builtins.ascii
    (∃ freed, (3, freed) ∈ mixedReleases ∧
        Contends (repoClaim 5 "c" ["SRC/x"] (some (repoIdentity "src/x"))) (3, freed)) ∧
      ∀ entry ∈ mixedReleases,
        ¬ Contends (repoClaim 6 "d" ["tests"] (some (repoIdentity "tests"))) entry := by
  let _ : Builtins := Builtins.ascii
  have hrising : Rising mixedReleases := by
    unfold Rising
    decide
  have hfound := (latest_conflicting_exact hrising
    (repoClaim 5 "c" ["SRC/x"] (some (repoIdentity "src/x")))).1 3
  have hnone := (latest_conflicting_exact hrising
    (repoClaim 6 "d" ["tests"] (some (repoIdentity "tests")))).2
  exact ⟨(hfound.mp (by decide +kernel)).1, hnone.mp (by decide +kernel)⟩

end ReleasedClaimIndex

end SynapseChannel
