import SynapseChannel.Core.Journal
import SynapseChannel.Core.StateSteps

/-!
# Core — LeaseExpiry

The lease heap against a full scan of the claims. Superseded entries may
stay in the heap; what matters is that every claim has an entry with its
own expiry, and that the heap stays ordered.
-/

namespace SynapseChannel

open Py Ieee Outcome

variable [Builtins]

/-- The times of a claim are those of a clock. -/
structure TaskClaim.Clocked (claim : TaskClaim) : Prop where
  claimed : claim.claimedAt.isFinite = true
  expires : claim.leaseExpiresAt.isNaN = false

omit [Builtins] in
theorem leaseEntry_time (task : String) (claim : TaskClaim) :
    (leaseEntry task claim).1 = claim.leaseExpiresAt := rfl

/-- What the heap needs for the sweeps to be those of a full scan. -/
structure SynapseState.Indexed (s : SynapseState) : Prop where
  heap : Heapq.IsHeap keyLt s.leaseIndex.entries
  timed : Heapq.AllItems TimeKey.Timed s.leaseIndex.entries
  entry : ∀ {task claim}, s.claims.get? task = some claim →
    leaseEntry task claim ∈ s.leaseIndex.entries.toList
  own : ∀ {task claim}, s.claims.get? task = some claim → claim.taskId = task
  clocked : ∀ {task claim}, s.claims.get? task = some claim → claim.Clocked
  apart : ∀ {task}, s.claims.get? task ≠ none → s.expiredCheckpoints.get? task = none
  ttl : s.defaultTtlSeconds.isNaN = false

/-! ## The sweep -/

/-- What a full scan at `now` leaves of a task's claim. -/
def scannedClaim (now : Float) (held : Option TaskClaim) : Option TaskClaim :=
  held.filter fun claim => !decide (claim.leaseExpiresAt ≤ now)

/-- The checkpoint a full scan at `now` leaves for a task. -/
def scannedCheckpoint (now : Float) (held : Option TaskClaim) (kept : Option String) :
    Option String :=
  match held with
  | some claim =>
    if claim.leaseExpiresAt ≤ now ∧ claim.checkpoint ≠ "" then some claim.checkpoint else kept
  | none => kept

section

omit [Builtins]

theorem scannedClaim_due {now : Float} {claim : TaskClaim} (h : claim.leaseExpiresAt ≤ now) :
    scannedClaim now (some claim) = none := by
  have hdec : decide (claim.leaseExpiresAt ≤ now) = true := decide_eq_true h
  rw [scannedClaim, Option.filter_some, hdec]
  rfl

theorem scannedClaim_live {now : Float} {claim : TaskClaim} (h : ¬ claim.leaseExpiresAt ≤ now) :
    scannedClaim now (some claim) = some claim := by
  have hdec : decide (claim.leaseExpiresAt ≤ now) = false := decide_eq_false h
  rw [scannedClaim, Option.filter_some, hdec]
  rfl

theorem scannedCheckpoint_due {now : Float} {claim : TaskClaim} (kept : Option String)
    (h : claim.leaseExpiresAt ≤ now) :
    scannedCheckpoint now (some claim) kept =
      if claim.checkpoint = "" then kept else some claim.checkpoint := by
  unfold scannedCheckpoint
  dsimp only
  by_cases hempty : claim.checkpoint = ""
  · rw [if_pos hempty, if_neg (fun hboth => hboth.2 hempty)]
  · rw [if_neg hempty, if_pos ⟨h, hempty⟩]

theorem scannedCheckpoint_live {now : Float} {claim : TaskClaim} (kept : Option String)
    (h : ¬ claim.leaseExpiresAt ≤ now) : scannedCheckpoint now (some claim) kept = kept :=
  if_neg fun hboth => h hboth.1

end

/-- The entry applies to this claim of its task. -/
def Lapses (now : Float) (claim : TaskClaim) (e : LeaseEntry) : Prop :=
  claim.epoch = e.2.2 ∧ ¬ claim.leaseExpiresAt > now

namespace SynapseState

section

omit [Builtins]

/-- A due entry touches no other task. -/
theorem expireEntry_other (now : Float) (s : SynapseState) (e : LeaseEntry) {task : String}
    (h : task ≠ e.2.1) :
    (expireEntry now s e).claims.get? task = s.claims.get? task ∧
      (expireEntry now s e).expiredCheckpoints.get? task = s.expiredCheckpoints.get? task := by
  unfold expireEntry
  dsimp only
  split
  · exact ⟨rfl, rfl⟩
  · split
    · exact ⟨rfl, rfl⟩
    · refine ⟨Dict.get?_erase_ne _ h, ?_⟩
      dsimp only
      split
      · rfl
      · exact Dict.get?_set_ne _ _ h.symm

/-- A due entry that does not apply changes nothing. -/
theorem expireEntry_skip {now : Float} {s : SynapseState} {e : LeaseEntry}
    (h : ∀ claim, s.claims.get? e.2.1 = some claim → ¬ Lapses now claim e) :
    expireEntry now s e = s := by
  unfold expireEntry
  dsimp only
  split
  · rfl
  · rename_i claim hclaim
    apply if_pos
    by_contra hne
    rw [not_or, not_not] at hne
    exact h claim hclaim hne

/-- A due entry that applies removes the claim and keeps its checkpoint. -/
theorem expireEntry_drop {now : Float} {s : SynapseState} {e : LeaseEntry} {claim : TaskClaim}
    (hheld : s.claims.get? e.2.1 = some claim) (h : Lapses now claim e) :
    (expireEntry now s e).claims.get? e.2.1 = none ∧
      (expireEntry now s e).expiredCheckpoints.get? e.2.1 =
        if claim.checkpoint = "" then s.expiredCheckpoints.get? e.2.1
        else some claim.checkpoint := by
  unfold expireEntry
  dsimp only
  rw [hheld]
  dsimp only
  rw [if_neg (by rw [not_or, not_not]; exact h)]
  refine ⟨Dict.get?_erase_self _ _, ?_⟩
  dsimp only
  split
  · rfl
  · exact Dict.get?_set_self _ _ _

/-- A task none of whose due entries applies keeps its claim. -/
theorem expireEntries_keep (now : Float) (due : List LeaseEntry) {s : SynapseState} {task : String}
    (h : ∀ claim, s.claims.get? task = some claim → ∀ e ∈ due, e.2.1 = task →
      ¬ Lapses now claim e) :
    (due.foldl (expireEntry now) s).claims.get? task = s.claims.get? task ∧
      (due.foldl (expireEntry now) s).expiredCheckpoints.get? task =
        s.expiredCheckpoints.get? task := by
  induction due generalizing s with
  | nil => exact ⟨rfl, rfl⟩
  | cons e rest ih =>
    rw [List.foldl_cons]
    have hrest : ∀ claim, s.claims.get? task = some claim → ∀ e' ∈ rest, e'.2.1 = task →
        ¬ Lapses now claim e' :=
      fun claim hheld e' he' => h claim hheld e' (List.mem_cons_of_mem _ he')
    by_cases htask : e.2.1 = task
    · have hskip : expireEntry now s e = s := by
        apply expireEntry_skip
        intro claim hheld
        rw [htask] at hheld
        exact h claim hheld e List.mem_cons_self htask
      rw [hskip]
      exact ih hrest
    · obtain ⟨hclaims, hsaved⟩ := expireEntry_other now s e (Ne.symm htask)
      rw [← hclaims, ← hsaved]
      apply ih
      rw [hclaims]
      exact hrest

/-- A task one of whose due entries applies loses its claim, once. -/
theorem expireEntries_drop (now : Float) (due : List LeaseEntry) {s : SynapseState} {task : String}
    {claim : TaskClaim} (hheld : s.claims.get? task = some claim)
    (h : ∃ e ∈ due, e.2.1 = task ∧ Lapses now claim e) :
    (due.foldl (expireEntry now) s).claims.get? task = none ∧
      (due.foldl (expireEntry now) s).expiredCheckpoints.get? task =
        if claim.checkpoint = "" then s.expiredCheckpoints.get? task
        else some claim.checkpoint := by
  induction due generalizing s with
  | nil =>
    obtain ⟨e, he, -⟩ := h
    cases he
  | cons e rest ih =>
    rw [List.foldl_cons]
    obtain ⟨e', he', htask', hlapses'⟩ := h
    by_cases htask : e.2.1 = task
    · by_cases hlapses : Lapses now claim e
      · rw [← htask] at hheld
        obtain ⟨hgone, hsaved⟩ := expireEntry_drop hheld hlapses
        rw [htask] at hgone hsaved
        -- the entries after it find no claim of the task
        have hrest := expireEntries_keep now rest fun c hc => absurd (hgone ▸ hc) (by simp)
        exact ⟨hrest.1.trans hgone, hrest.2.trans hsaved⟩
      · have hskip : expireEntry now s e = s := by
          apply expireEntry_skip
          intro c hc
          rw [htask, hheld] at hc
          cases hc
          exact hlapses
        rw [hskip]
        rcases List.mem_cons.mp he' with rfl | he'
        · exact absurd hlapses' hlapses
        · exact ih hheld ⟨e', he', htask', hlapses'⟩
    · obtain ⟨hclaims, hsaved⟩ := expireEntry_other now s e (Ne.symm htask)
      rcases List.mem_cons.mp he' with rfl | he'
      · exact absurd htask' htask
      · have hdrop := ih (hclaims.trans hheld) ⟨e', he', htask', hlapses'⟩
        rw [hsaved] at hdrop
        exact hdrop

end

/-- The entries of a heap split at a time. -/
structure PoppedDue (now : Float) (index : LeaseIndex) (due : List LeaseEntry)
    (rest : LeaseIndex) : Prop where
  perm : index.entries.toList.Perm (due ++ rest.entries.toList)
  reached : ∀ e ∈ due, e.1 ≤ now
  later : ∀ e ∈ rest.entries.toList, ¬ e.1 ≤ now
  heap : Heapq.IsHeap keyLt rest.entries

omit [Builtins] in
theorem popDue_spec {index : LeaseIndex} (hheap : Heapq.IsHeap keyLt index.entries)
    (htimed : Heapq.AllItems TimeKey.Timed index.entries) (now : Float) :
    PoppedDue now index (index.popDue now).1 (index.popDue now).2 := by
  have hdue : ∀ {a b : TimeKey}, a.Timed → b.Timed → keyLt b a = false →
      decide (b.1 ≤ now) = true → decide (a.1 ≤ now) = true := by
    intro a b ha hb hlt hle
    rw [decide_eq_true_eq] at hle ⊢
    have hab : ¬ b.1 < a.1 := by
      intro h
      have hkey := (keyLt_iff hb ha).mpr (Or.inl h)
      rw [hkey] at hlt
      cases hlt
    exact Ieee.le_trans ((Ieee.not_lt hb ha).mp hab) hle
  obtain ⟨h1, h2, h3⟩ := Heapq.popWhile_split keyLt_ordering hdue index.entries.size htimed hheap
    (Nat.le_refl _)
  refine ⟨Heapq.popWhile_perm _ _ _ _, ?_, ?_, h3⟩
  · intro e he
    exact of_decide_eq_true (h1 e he)
  · intro e he
    exact of_decide_eq_false (h2 e he)

omit [Builtins] in
/-- The sweep by heap is the full scan. -/
theorem Indexed.sweep {s : SynapseState} (h : s.Indexed) (now : Float) (task : String) :
    (s.expireClaims now).claims.get? task = scannedClaim now (s.claims.get? task) ∧
      (s.expireClaims now).expiredCheckpoints.get? task =
        scannedCheckpoint now (s.claims.get? task) (s.expiredCheckpoints.get? task) := by
  have hpop := popDue_spec h.heap h.timed now
  have hdef : s.expireClaims now = (s.leaseIndex.popDue now).1.foldl (expireEntry now)
      { s with leaseIndex := (s.leaseIndex.popDue now).2 } := rfl
  rw [hdef]
  generalize hdue : (s.leaseIndex.popDue now).1 = due at hpop
  generalize hrest : (s.leaseIndex.popDue now).2 = rest at hpop
  cases hheld : s.claims.get? task with
  | none =>
    have hnever : ∀ claim, ({ s with leaseIndex := rest } : SynapseState).claims.get? task =
        some claim → ∀ e ∈ due, e.2.1 = task → ¬ Lapses now claim e :=
      fun claim hc => absurd (hheld ▸ hc) (by simp)
    have hkeep := expireEntries_keep now due hnever
    exact ⟨hkeep.1.trans hheld, hkeep.2⟩
  | some claim =>
    have hnum := (h.clocked hheld).expires
    by_cases hexp : claim.leaseExpiresAt ≤ now
    · have hmem := hpop.perm.mem_iff.mp (h.entry hheld)
      have hin : leaseEntry task claim ∈ due := by
        rcases List.mem_append.mp hmem with hin | hin
        · exact hin
        · have hlater := hpop.later _ hin
          rw [leaseEntry_time] at hlater
          exact absurd hexp hlater
      have hlapses : Lapses now claim (leaseEntry task claim) := by
        refine ⟨rfl, ?_⟩
        have hnow := (Ieee.isNaN_of_le hexp).2
        exact (Ieee.not_lt hnow hnum).mpr hexp
      have hdrop := expireEntries_drop now due (s := { s with leaseIndex := rest }) hheld
        ⟨_, hin, rfl, hlapses⟩
      rw [scannedClaim_due hexp, scannedCheckpoint_due _ hexp]
      exact hdrop
    · have hnone : ∀ c, s.claims.get? task = some c → ∀ e ∈ due, e.2.1 = task →
          ¬ Lapses now c e := by
        rintro c hc e he - ⟨-, hgt⟩
        rw [hheld] at hc
        cases hc
        have hnow := (Ieee.isNaN_of_le (hpop.reached e he)).2
        exact hexp ((Ieee.not_lt hnow hnum).mp hgt)
      have hkeep := expireEntries_keep now due (s := { s with leaseIndex := rest }) hnone
      rw [scannedClaim_live hexp, scannedCheckpoint_live _ hexp]
      exact ⟨hkeep.1.trans hheld, hkeep.2⟩

/-! ## The index is kept -/

section

omit [Builtins]

theorem expireEntries_index (now : Float) (due : List LeaseEntry) (s : SynapseState) :
    (due.foldl (expireEntry now) s).leaseIndex = s.leaseIndex ∧
      (due.foldl (expireEntry now) s).defaultTtlSeconds = s.defaultTtlSeconds := by
  induction due generalizing s with
  | nil => exact ⟨rfl, rfl⟩
  | cons e rest ih =>
    have hone : (expireEntry now s e).leaseIndex = s.leaseIndex ∧
        (expireEntry now s e).defaultTtlSeconds = s.defaultTtlSeconds := by
      unfold expireEntry
      dsimp only
      split
      · exact ⟨rfl, rfl⟩
      · split <;> exact ⟨rfl, rfl⟩
    rw [List.foldl_cons, (ih _).1, (ih _).2]
    exact hone

theorem scannedClaim_some {now : Float} {held : Option TaskClaim} {claim : TaskClaim}
    (h : scannedClaim now held = some claim) :
    held = some claim ∧ ¬ claim.leaseExpiresAt ≤ now := by
  obtain ⟨hheld, hlive⟩ := Option.filter_eq_some_iff.mp h
  refine ⟨hheld, ?_⟩
  rw [Bool.not_eq_true', decide_eq_false_iff_not] at hlive
  exact hlive

/-- A sweep keeps the entries of the claims it keeps. -/
theorem Indexed.expire {s : SynapseState} (h : s.Indexed) (now : Float) :
    (s.expireClaims now).Indexed := by
  have hpop := popDue_spec h.heap h.timed now
  obtain ⟨hindex, httl⟩ := expireEntries_index now (s.leaseIndex.popDue now).1
    { s with leaseIndex := (s.leaseIndex.popDue now).2 }
  have hindex : (s.expireClaims now).leaseIndex = (s.leaseIndex.popDue now).2 := hindex
  have httl : (s.expireClaims now).defaultTtlSeconds = s.defaultTtlSeconds := httl
  have hheld : ∀ {task claim}, (s.expireClaims now).claims.get? task = some claim →
      s.claims.get? task = some claim ∧ ¬ claim.leaseExpiresAt ≤ now := by
    intro task claim hget
    rw [(h.sweep now task).1] at hget
    exact scannedClaim_some hget
  constructor
  · rw [hindex]
    exact hpop.heap
  · rw [hindex]
    intro e he
    exact h.timed e (hpop.perm.mem_iff.mpr (List.mem_append_right _ he))
  · intro task claim hget
    obtain ⟨hold, hlive⟩ := hheld hget
    rw [hindex]
    rcases List.mem_append.mp (hpop.perm.mem_iff.mp (h.entry hold)) with hdue | hrest
    · have hreached := hpop.reached _ hdue
      rw [leaseEntry_time] at hreached
      exact absurd hreached hlive
    · exact hrest
  · exact fun hget => h.own (hheld hget).1
  · exact fun hget => h.clocked (hheld hget).1
  · intro task hget
    obtain ⟨claim, hclaim⟩ := Option.ne_none_iff_exists'.mp hget
    obtain ⟨hold, hlive⟩ := hheld hclaim
    rw [(h.sweep now task).2, hold, scannedCheckpoint_live _ hlive]
    exact h.apart (by simp [hold])
  · rw [httl]
    exact h.ttl

/-- Only the claims, the retained checkpoints and the heap matter. -/
theorem Indexed.congr {s t : SynapseState} (h : s.Indexed) (hclaims : t.claims = s.claims)
    (hsaved : t.expiredCheckpoints = s.expiredCheckpoints)
    (hindex : t.leaseIndex = s.leaseIndex) (httl : t.defaultTtlSeconds = s.defaultTtlSeconds) :
    t.Indexed := by
  obtain ⟨heap, timed, entry, own, clocked, apart, ttl⟩ := h
  rw [← hindex] at heap timed entry
  rw [← hclaims] at entry own clocked apart
  rw [← hsaved] at apart
  rw [← httl] at ttl
  exact ⟨heap, timed, entry, own, clocked, apart, ttl⟩

theorem Indexed.snapshot {s : SynapseState} (h : s.Indexed) (now : Float) :
    (s.snapshot now).Indexed :=
  (h.expire now).congr rfl rfl rfl rfl

theorem Indexed.heartbeat {s : SynapseState} (h : s.Indexed) (agent : String) (now : Float) :
    (s.heartbeat agent now).Indexed := by
  have hseen : { s with lastSeen := s.lastSeen.set agent now }.Indexed :=
    h.congr rfl rfl rfl rfl
  rw [heartbeat_eq_snapshot]
  exact hseen.snapshot now

/-- Forgetting a retained checkpoint. -/
theorem Indexed.forget {s : SynapseState} (h : s.Indexed) (task : String) :
    { s with expiredCheckpoints := s.expiredCheckpoints.erase task }.Indexed := by
  refine ⟨h.heap, h.timed, h.entry, h.own, h.clocked, ?_, h.ttl⟩
  intro other hother
  dsimp only at hother ⊢
  rw [Dict.get?_erase]
  split
  · rfl
  · exact h.apart hother

end

end SynapseState

/-! ## The heap of a tracked claim -/

omit [Builtins] in
theorem LeaseIndex.rebuild_entries (claims : Dict String TaskClaim) (e : LeaseEntry) :
    e ∈ (LeaseIndex.rebuild claims).entries.toList ↔
      ∃ task claim, claims.get? task = some claim ∧ e = leaseEntry task claim := by
  rw [rebuild]
  dsimp only
  rw [(Heapq.heapify_perm keyLt _).mem_iff]
  simp only [List.mem_map, Prod.exists, Dict.mem_items_iff]
  constructor
  · rintro ⟨task, claim, hget, rfl⟩
    exact ⟨task, claim, hget, rfl⟩
  · rintro ⟨task, claim, hget, rfl⟩
    exact ⟨task, claim, hget, rfl⟩

omit [Builtins] in
/-- A heap built from clocked claims. -/
theorem LeaseIndex.rebuild_heap {claims : Dict String TaskClaim}
    (h : ∀ {task claim}, claims.get? task = some claim → claim.Clocked) :
    Heapq.IsHeap keyLt (rebuild claims).entries ∧
      Heapq.AllItems TimeKey.Timed (rebuild claims).entries := by
  have hall : Heapq.AllItems TimeKey.Timed (rebuild claims).entries := by
    intro e he
    obtain ⟨task, claim, hget, rfl⟩ := (rebuild_entries claims e).mp he
    exact (h hget).expires
  refine ⟨?_, hall⟩
  apply Heapq.heapify_heap keyLt_ordering
  exact hall.perm (Heapq.heapify_perm keyLt _).symm

namespace SynapseState

section

omit [Builtins]

theorem indexed_rebuild {s : SynapseState}
    (hclocked : ∀ {task claim}, s.claims.get? task = some claim → claim.Clocked)
    (hown : ∀ {task claim}, s.claims.get? task = some claim → claim.taskId = task)
    (hapart : ∀ {task}, s.claims.get? task ≠ none → s.expiredCheckpoints.get? task = none)
    (httl : s.defaultTtlSeconds.isNaN = false)
    (hindex : s.leaseIndex = LeaseIndex.rebuild s.claims) : s.Indexed := by
  obtain ⟨hheap, hall⟩ := LeaseIndex.rebuild_heap hclocked
  rw [← hindex] at hheap hall
  refine ⟨hheap, hall, ?_, hown, hclocked, hapart, httl⟩
  intro task claim hget
  rw [hindex, LeaseIndex.rebuild_entries]
  exact ⟨task, claim, hget, rfl⟩

/-- A claim stored and tracked, whether the heap is compacted or not. -/
theorem Indexed.install {s : SynapseState} (h : s.Indexed) {task : String} {claim : TaskClaim}
    (hown : claim.taskId = task) (hclocked : claim.Clocked)
    (hfree : s.expiredCheckpoints.get? task = none) : (s.install task claim).Indexed := by
  have hget : ∀ {other c}, (s.claims.set task claim).get? other = some c →
      other = task ∧ c = claim ∨ other ≠ task ∧ s.claims.get? other = some c := by
    intro other c hc
    rw [Dict.get?_set] at hc
    split at hc
    · rename_i heq
      cases hc
      exact Or.inl ⟨heq.symm, rfl⟩
    · rename_i hne
      exact Or.inr ⟨Ne.symm hne, hc⟩
  have hclocked' : ∀ {other c}, (s.claims.set task claim).get? other = some c → c.Clocked := by
    intro other c hc
    rcases hget hc with ⟨-, rfl⟩ | ⟨-, hc⟩
    · exact hclocked
    · exact h.clocked hc
  have hown' : ∀ {other c}, (s.claims.set task claim).get? other = some c → c.taskId = other := by
    intro other c hc
    rcases hget hc with ⟨rfl, rfl⟩ | ⟨-, hc⟩
    · exact hown
    · exact h.own hc
  have hapart' : ∀ {other}, (s.claims.set task claim).get? other ≠ none →
      s.expiredCheckpoints.get? other = none := by
    intro other hne
    obtain ⟨c, hc⟩ := Option.ne_none_iff_exists'.mp hne
    rcases hget hc with ⟨rfl, -⟩ | ⟨-, hc⟩
    · exact hfree
    · exact h.apart (by simp [hc])
  by_cases hfull : (Heapq.heappush keyLt s.leaseIndex.entries
      (leaseEntry claim.taskId claim)).size >
        2 * (s.claims.set task claim).items.length + leaseHeapCompactFloor
  · apply indexed_rebuild (s := s.install task claim) hclocked' hown' hapart' h.ttl
    exact if_pos hfull
  · have hindex : (s.install task claim).leaseIndex.entries =
        Heapq.heappush keyLt s.leaseIndex.entries (leaseEntry claim.taskId claim) := by
      show (LeaseIndex.track s.leaseIndex claim (s.claims.set task claim)).entries = _
      unfold LeaseIndex.track
      dsimp only
      rw [if_neg hfull]
    have hperm := Heapq.heappush_perm keyLt s.leaseIndex.entries (leaseEntry claim.taskId claim)
    refine ⟨?_, ?_, ?_, hown', hclocked', hapart', h.ttl⟩
    · rw [hindex]
      exact Heapq.heappush_heap keyLt_ordering h.timed hclocked.expires h.heap
    · rw [hindex]
      intro e he
      rcases List.mem_cons.mp (hperm.mem_iff.mp he) with rfl | he
      · exact hclocked.expires
      · exact h.timed e he
    · intro other c hc
      rw [hindex, hperm.mem_iff, List.mem_cons]
      rcases hget hc with ⟨rfl, rfl⟩ | ⟨-, hc⟩
      · rw [hown]
        exact Or.inl rfl
      · exact Or.inr (h.entry hc)

/-- A claim overwritten in place keeps its heap entry. -/
theorem Indexed.putClaim {s : SynapseState} (h : s.Indexed) {task : String}
    {claim claim' : TaskClaim} (hheld : s.claims.get? task = some claim)
    (htask : claim'.taskId = claim.taskId) (hfrom : claim'.claimedAt = claim.claimedAt)
    (huntil : claim'.leaseExpiresAt = claim.leaseExpiresAt) (hepoch : claim'.epoch = claim.epoch) :
    (s.putClaim task claim').Indexed := by
  have hget : ∀ {other c}, (s.claims.set task claim').get? other = some c →
      other = task ∧ c = claim' ∨ s.claims.get? other = some c := by
    intro other c hc
    rw [Dict.get?_set] at hc
    split at hc
    · rename_i heq
      cases hc
      exact Or.inl ⟨heq.symm, rfl⟩
    · exact Or.inr hc
  refine ⟨h.heap, h.timed, ?_, ?_, ?_, ?_, h.ttl⟩
  · intro other c hc
    rcases hget hc with ⟨rfl, rfl⟩ | hc
    · have hentry := h.entry hheld
      rw [leaseEntry, ← huntil, ← hepoch] at hentry
      exact hentry
    · exact h.entry hc
  · intro other c hc
    rcases hget hc with ⟨rfl, rfl⟩ | hc
    · exact htask.trans (h.own hheld)
    · exact h.own hc
  · intro other c hc
    rcases hget hc with ⟨rfl, rfl⟩ | hc
    · have hold := h.clocked hheld
      exact ⟨hfrom ▸ hold.claimed, huntil ▸ hold.expires⟩
    · exact h.clocked hc
  · intro other hne
    obtain ⟨c, hc⟩ := Option.ne_none_iff_exists'.mp hne
    rcases hget hc with ⟨rfl, -⟩ | hc
    · exact h.apart (by simp [hheld])
    · exact h.apart (by simp [hc])

theorem Indexed.remove {s : SynapseState} (h : s.Indexed) (task : String) :
    (s.remove task).Indexed := by
  have hget : ∀ {other c}, (s.claims.erase task).get? other = some c →
      s.claims.get? other = some c :=
    fun hc => Dict.Sub.erase s.claims task _ _ hc
  refine ⟨h.heap, h.timed, fun hc => h.entry (hget hc), fun hc => h.own (hget hc),
    fun hc => h.clocked (hget hc), ?_, h.ttl⟩
  intro other hne
  obtain ⟨c, hc⟩ := Option.ne_none_iff_exists'.mp hne
  exact (h.forget task).apart (by simp [hget hc])

end

end SynapseState

/-! ## Calls -/

/-- The clock reading a call stamps a claim with. -/
def StateOp.stamp : StateOp → Option Float
  | .claim _ _ now _ => some now
  | .renewClaim _ _ now _ _ => some now
  | .handoff _ _ _ now _ _ => some now
  | _ => none

/-- The system clock is finite. -/
def StateOp.Clocked (op : StateOp) : Prop := ∀ now, op.stamp = some now → now.isFinite = true

omit [Builtins] in
theorem clampTtl_isNaN {x : Float} (hx : x.isNaN = false) : (clampTtl x).isNaN = false := by
  have hmin : minimumTtlSeconds.isNaN = false := by decide +kernel
  have hmax : maximumTtlSeconds.isNaN = false := by decide +kernel
  have hup : (pyMax x minimumTtlSeconds).isNaN = false := by
    unfold pyMax
    split
    · exact hmin
    · exact hx
  unfold clampTtl pyMin
  split
  · exact hmax
  · exact hup

/-- A lenient reading of a duration is a number when its default is one. -/
theorem safeFloat_isNaN {value : Json} {default : Float} {allowBool : Bool}
    (h : default.isNaN = false) :
    ((safeFloat value (some default) allowBool).getD default).isNaN = false := by
  cases hsafe : safeFloat value (some default) allowBool with
  | none => exact h
  | some x =>
    rw [Option.getD_some]
    rcases safeFloat_finite hsafe with heq | hfin
    · cases heq
      exact h
    · exact isFinite_isNaN hfin

omit [Builtins] in
theorem LeaseIndex.rebuild_empty : LeaseIndex.rebuild Dict.empty = {} := by
  simp [LeaseIndex.rebuild, Heapq.heapify, Heapq.heapifyFrom, Dict.empty]

namespace SynapseState

theorem init_indexed (defaultTtl maxClaims maxOffers maxPaths : Json) :
    (init defaultTtl maxClaims maxOffers maxPaths).Indexed := by
  have hdefault : (3600 : Float).isNaN = false := by decide +kernel
  apply indexed_rebuild
  · intro task claim h
    cases h
  · intro task claim h
    cases h
  · intro task _
    rfl
  · exact clampTtl_isNaN (safeFloat_isNaN hdefault)
  · exact LeaseIndex.rebuild_empty.symm

theorem Indexed.claimTtl {s : SynapseState} (h : s.Indexed) (ttlSeconds : Json) :
    (s.claimTtl ttlSeconds).isNaN = false := by
  unfold SynapseState.claimTtl
  split
  · exact h.ttl
  · exact clampTtl_isNaN (safeFloat_isNaN h.ttl)

section

omit [Builtins]

theorem Indexed.grantClaim {s : SynapseState} (h : s.Indexed) {agent task : String}
    {now ttl : Float} {principal : String} {paths : List String} {args : ClaimArgs}
    (hnow : now.isFinite = true) (httl : ttl.isNaN = false) :
    (s.grantClaim agent task now ttl principal paths args).Indexed := by
  have hclaim : (s.newClaim agent task now ttl principal paths args).Clocked :=
    ⟨hnow, isNaN_add_left hnow httl⟩
  have hforget : { s with epochSeq := s.epochSeq + 1,
                          expiredCheckpoints := s.expiredCheckpoints.erase task }.Indexed :=
    (h.forget task).congr rfl rfl rfl rfl
  have hfree := Dict.get?_erase_self s.expiredCheckpoints task
  unfold SynapseState.grantClaim
  dsimp only
  cases hheld : s.claims.get? task with
  | none => exact hforget.install rfl hclaim hfree
  | some e =>
    unfold claimCheckpoint
    dsimp only
    split
    · have hkeep : { s with epochSeq := s.epochSeq + 1 }.Indexed := h.congr rfl rfl rfl rfl
      exact hkeep.install rfl hclaim (h.apart (by simp [hheld]))
    · exact hforget.install rfl hclaim hfree

/-- A renewal may extend or shorten the lease under the same epoch. -/
theorem Indexed.renew {s : SynapseState} (h : s.Indexed) {task : String} {claim : TaskClaim}
    {now : Float} (hheld : s.claims.get? task = some claim) (hnow : now.isFinite = true) :
    (s.install task (renewedClaim claim now)).Indexed := by
  have hold := h.clocked hheld
  have hduration : (claim.leaseExpiresAt - claim.claimedAt).isNaN = false :=
    isNaN_sub hold.expires hold.claimed
  have hclaim : (renewedClaim claim now).Clocked := ⟨hnow, isNaN_add_left hnow hduration⟩
  have hsame : (renewedClaim claim now).taskId = claim.taskId := rfl
  exact h.install (hsame.trans (h.own hheld)) hclaim (h.apart (by simp [hheld]))

theorem Indexed.moveClaim {s : SynapseState} (h : s.Indexed) {task target : String}
    {claim : TaskClaim} {note : Option String} {now : Float}
    (hheld : s.claims.get? task = some claim) (hnow : now.isFinite = true) :
    (s.moveClaim task target claim note now).Indexed := by
  have hclaim : (s.movedClaim task target claim note now).Clocked :=
    ⟨hnow, isNaN_add_left hnow h.ttl⟩
  have hnext : { s with epochSeq := s.epochSeq + 1 }.Indexed := h.congr rfl rfl rfl rfl
  have hown : (s.movedClaim task target claim note now).taskId = task := rfl
  have hinstalled := hnext.install hown hclaim (h.apart (by simp [hheld]))
  exact hinstalled.congr rfl rfl rfl rfl

end

/-- Every call keeps the index. -/
theorem Indexed.next {s : SynapseState} (h : s.Indexed) {op : StateOp} (hop : op.Clocked) :
    (op.next s).Indexed := by
  have hstep := StateOp.apply_step s op
  unfold StateOp.next
  generalize op.apply s = r at hstep
  cases hstep with
  | invalid => exact h
  | refused _ agent now => exact h.heartbeat agent now
  | claimed agent taskId now args =>
    exact (h.heartbeat agent now).grantClaim (hop now rfl) (h.claimTtl _)
  | renewed agent taskId now epoch paths claim m howned =>
    exact (h.heartbeat agent now).renew howned.held (hop now rfl)
  | updated agent task now args claim m howned =>
    exact (h.heartbeat agent now).putClaim howned.held rfl rfl rfl rfl
  | checkpointed agent taskId now checkpoint epoch claim m howned =>
    exact (h.heartbeat agent now).putClaim howned.held rfl rfl rfl rfl
  | released agent taskId now => exact (h.heartbeat agent now).remove _
  | revoked => exact h.remove _
  | moved agent taskId toAgent now note epoch claim m htask htarget howned =>
    exact (h.heartbeat agent now).moveClaim howned.held (hop now rfl)
  | beat agent now => exact h.heartbeat agent now
  | viewed now => exact h.snapshot now

end SynapseState

/-! ## Replay -/

/-- A journal row whose claim, if it holds one, has the times of a clock. -/
def StoredEvent.Clocked (event : StoredEvent) : Prop :=
  ∀ claim, claimFromPayload event.payload = .ok claim → claim.Clocked

/-- A row touches neither the retained checkpoints nor the bounds. -/
theorem applyEvent_rest {context context' : ReplayContext} {event : StoredEvent}
    (h : context.applyEvent event = .ok context') :
    context'.state.expiredCheckpoints = context.state.expiredCheckpoints ∧
      context'.state.defaultTtlSeconds = context.state.defaultTtlSeconds := by
  unfold ReplayContext.applyEvent at h
  split at h
  · cases h
  split at h
  · obtain ⟨claim, -, h⟩ := bind_ok h
    split at h
    · cases h
    · cases h
      exact ⟨rfl, rfl⟩
  split at h
  · obtain ⟨task, -, h⟩ := bind_ok h
    split at h
    · cases h
    · cases h
      exact ⟨rfl, rfl⟩
  split at h
  · obtain ⟨_, -, h⟩ := bind_ok h
    cases h
    exact ⟨rfl, rfl⟩
  split at h
  · obtain ⟨_, -, h⟩ := bind_ok h
    cases h
    exact ⟨rfl, rfl⟩
  split at h
  · obtain ⟨_, -, h⟩ := bind_ok h
    cases h
    exact ⟨rfl, rfl⟩
  split at h
  · obtain ⟨_, -, h⟩ := bind_ok h
    cases h
    exact ⟨rfl, rfl⟩
  split at h
  · unfold ReplayContext.applyIdempotency at h
    dsimp only at h
    split at h
    · cases h
      exact ⟨rfl, rfl⟩
    · obtain ⟨_, -, h⟩ := bind_ok h
      cases h
      exact ⟨rfl, rfl⟩
  split at h
  · cases h
    unfold ReplayContext.applyFinding
    split
    · dsimp only
      split <;> exact ⟨rfl, rfl⟩
    · exact ⟨rfl, rfl⟩
  · cases h
    exact ⟨rfl, rfl⟩

/-- What replay keeps of the registry it fills. -/
structure ReplayContext.Clean (context : ReplayContext) : Prop where
  own : ∀ {task claim}, context.state.claims.get? task = some claim → claim.taskId = task
  clocked : ∀ {task claim}, context.state.claims.get? task = some claim → claim.Clocked
  empty : ∀ task, context.state.expiredCheckpoints.get? task = none
  ttl : context.state.defaultTtlSeconds.isNaN = false

theorem applyEvent_clean {context context' : ReplayContext} {event : StoredEvent}
    (hclean : context.Clean) (hrow : event.Clocked)
    (h : context.applyEvent event = .ok context') : context'.Clean := by
  obtain ⟨hsaved, httl⟩ := applyEvent_rest h
  have hempty : ∀ task, context'.state.expiredCheckpoints.get? task = none := by
    intro task
    rw [hsaved]
    exact hclean.empty task
  have httl : context'.state.defaultTtlSeconds.isNaN = false := by
    rw [httl]
    exact hclean.ttl
  have hclaims : ∀ {task claim}, context'.state.claims.get? task = some claim →
      claim.taskId = task ∧ claim.Clocked := by
    intro task claim hget
    cases applyEvent_applied h with
    | snapshot fresh _ hfresh =>
      have hget : (context.state.claims.set fresh.taskId fresh).get? task = some claim := hget
      rw [Dict.get?_set] at hget
      split at hget
      · rename_i heq
        cases hget
        exact ⟨heq, hrow _ hfresh⟩
      · exact ⟨hclean.own hget, hclean.clocked hget⟩
    | release =>
      have hold := Dict.Sub.erase context.state.claims _ _ _ hget
      exact ⟨hclean.own hold, hclean.clocked hold⟩
    | other _ _ hsame =>
      rw [hsame] at hget
      exact ⟨hclean.own hget, hclean.clocked hget⟩
  exact ⟨fun hget => (hclaims hget).1, fun hget => (hclaims hget).2, hempty, httl⟩

theorem replayEvents_clean {log : List StoredEvent} {context context' : ReplayContext}
    (hclean : context.Clean) (hrows : ∀ event ∈ log, event.Clocked)
    (h : replayEvents context log = .ok context') : context'.Clean := by
  induction log generalizing context with
  | nil =>
    cases h
    exact hclean
  | cons event rest ih =>
    rw [replayEvents, List.foldlM_cons] at h
    obtain ⟨middle, hmiddle, hrest⟩ := bind_ok h
    have hnext := applyEvent_clean hclean (hrows event List.mem_cons_self) hmiddle
    exact ih hnext (fun e he => hrows e (List.mem_cons_of_mem _ he)) hrest

/-- A registry rebuilt from a journal is indexed. -/
theorem replay_indexed {defaultTtl maxClaims maxOffers maxPaths : Json}
    {maxProgress maxPerAuthor maxPerTask : Int} {log : List StoredEvent} {now : Float}
    {context : ReplayContext} (hrows : ∀ event ∈ log, event.Clocked)
    (h : replay (.init defaultTtl maxClaims maxOffers maxPaths maxProgress maxPerAuthor maxPerTask)
      log now = .ok context) : context.state.Indexed := by
  have hinit := SynapseState.init_indexed defaultTtl maxClaims maxOffers maxPaths
  unfold replay at h
  obtain ⟨filled, hfilled, h⟩ := bind_ok h
  cases h
  have hclean : filled.Clean := by
    refine replayEvents_clean ⟨?_, ?_, ?_, ?_⟩ hrows hfilled
    · exact hinit.own
    · exact hinit.clocked
    · exact fun task => rfl
    · exact hinit.ttl
  have hrebuilt : filled.rebuilt.Indexed :=
    SynapseState.indexed_rebuild (s := filled.rebuilt) hclean.clocked hclean.own
      (fun _ => hclean.empty _) hclean.ttl rfl
  exact (hrebuilt.expire now).congr rfl rfl rfl rfl

/-! ## Rollback -/

/-- State needed to undo one synchronous claim mutation. -/
structure TaskStateSnapshot where
  taskId : String
  claim : Option TaskClaim
  checkpoint : Option String
  presence : List (String × Option Float)
  epochSeq : Int

namespace TaskStateSnapshot

section

omit [Builtins]

/-- Capture one task plus presence entries the mutation may update. -/
def capture (s : SynapseState) (task : String) (presenceAgents : List String) :
    TaskStateSnapshot where
  taskId := task
  claim := s.claims.get? task
  checkpoint := s.expiredCheckpoints.get? task
  presence := presenceAgents.eraseDups.map fun agent => (agent, s.lastSeen.get? agent)
  epochSeq := s.epochSeq

/-- The claim and the checkpoint to restore at `now`: a lease that expired
in between stays expired. -/
def restored (x : TaskStateSnapshot) (now : Float) : Option TaskClaim × Option String :=
  match x.claim with
  | none => (none, x.checkpoint)
  | some value =>
    if value.leaseExpiresAt ≤ now then
      (none, if value.checkpoint = "" then x.checkpoint else some value.checkpoint)
    else (some value, x.checkpoint)

/-- Restore the task and accounting captured before the mutation. -/
def restore (x : TaskStateSnapshot) (s : SynapseState) (now : Float) : SynapseState :=
  let claims :=
    match (x.restored now).1 with
    | none => s.claims.erase x.taskId
    | some value => s.claims.set x.taskId value
  { s with
    claims
    expiredCheckpoints :=
      match (x.restored now).2 with
      | some checkpoint => s.expiredCheckpoints.set x.taskId checkpoint
      | none => s.expiredCheckpoints.erase x.taskId
    lastSeen := x.presence.foldl
      (fun seen entry =>
        match entry.2 with
        | some timestamp => seen.set entry.1 timestamp
        | none => seen.erase entry.1)
      s.lastSeen
    epochSeq := x.epochSeq
    leaseIndex := LeaseIndex.rebuild claims }

end

end TaskStateSnapshot

omit [Builtins] in
/-- A claim that is restored was held when it was captured, so no checkpoint comes with it. -/
theorem TaskStateSnapshot.restored_some {before : SynapseState} (h : before.Indexed)
    {task : String} {agents : List String} {now : Float} {value : TaskClaim}
    (hvalue : ((capture before task agents).restored now).1 = some value) :
    before.claims.get? task = some value ∧
      ((capture before task agents).restored now).2 = none := by
  unfold restored capture at hvalue ⊢
  dsimp only at hvalue ⊢
  cases hheld : before.claims.get? task with
  | none =>
    rw [hheld] at hvalue
    cases hvalue
  | some claim =>
    rw [hheld] at hvalue
    dsimp only at hvalue ⊢
    split at hvalue
    · cases hvalue
    · cases hvalue
      rename_i hlive
      rw [if_neg hlive]
      exact ⟨rfl, h.apart (by simp [hheld])⟩

omit [Builtins] in
theorem TaskStateSnapshot.restore_indexed {before s : SynapseState} (hbefore : before.Indexed)
    (h : s.Indexed) (task : String) (agents : List String) (now : Float) :
    ((capture before task agents).restore s now).Indexed := by
  have hsome := @restored_some before hbefore task agents now
  unfold restore
  dsimp only
  generalize (capture before task agents).restored now = undone at hsome
  have htask : (capture before task agents).taskId = task := rfl
  rw [htask]
  obtain ⟨value, checkpoint⟩ := undone
  cases value with
  | none =>
    have hremoved := h.remove task
    apply SynapseState.indexed_rebuild
    · exact hremoved.clocked
    · exact hremoved.own
    · intro other hother
      dsimp only at hother ⊢
      have hne : other ≠ task := by
        rintro rfl
        exact hother (Dict.get?_erase_self _ _)
      have hold := hremoved.apart hother
      cases checkpoint with
      | none => exact hold
      | some saved =>
        dsimp only
        rw [Dict.get?_set_ne _ _ hne.symm]
        exact h.apart (Dict.get?_erase_ne s.claims hne ▸ hother)
    · exact h.ttl
    · rfl
  | some value =>
    obtain ⟨hheld, hnone⟩ := hsome rfl
    have hnone : checkpoint = none := hnone
    subst hnone
    have hget : ∀ {other c}, (s.claims.set task value).get? other = some c →
        other = task ∧ c = value ∨ s.claims.get? other = some c := by
      intro other c hc
      rw [Dict.get?_set] at hc
      split at hc
      · rename_i heq
        cases hc
        exact Or.inl ⟨heq.symm, rfl⟩
      · exact Or.inr hc
    apply SynapseState.indexed_rebuild
    · intro other c hc
      rcases hget hc with ⟨-, rfl⟩ | hc
      · exact hbefore.clocked hheld
      · exact h.clocked hc
    · intro other c hc
      rcases hget hc with ⟨rfl, rfl⟩ | hc
      · exact hbefore.own hheld
      · exact h.own hc
    · intro other hne
      obtain ⟨c, hc⟩ := Option.ne_none_iff_exists'.mp hne
      rcases hget hc with ⟨rfl, -⟩ | hc
      · exact Dict.get?_erase_self _ _
      · exact (h.forget task).apart (by simp [hc])
    · exact h.ttl
    · rfl

/-! ## Reachable registries -/

namespace SynapseState

/-- The registries of a hub: fresh or rebuilt from its journal, then any calls, rolled-back
calls, and changes elsewhere (offers, presence, protected custody). -/
inductive Reachable : SynapseState → Prop
  | fresh (defaultTtl maxClaims maxOffers maxPaths : Json) :
      Reachable (init defaultTtl maxClaims maxOffers maxPaths)
  | replayed (defaultTtl maxClaims maxOffers maxPaths : Json)
      (maxProgress maxPerAuthor maxPerTask : Int) (log : List StoredEvent) (now : Float)
      (context : ReplayContext) (hrows : ∀ event ∈ log, event.Clocked)
      (hreplay : replay (.init defaultTtl maxClaims maxOffers maxPaths maxProgress maxPerAuthor
        maxPerTask) log now = .ok context) : Reachable context.state
  | called {s : SynapseState} (h : Reachable s) (op : StateOp) (hop : op.Clocked) :
      Reachable (op.next s)
  | rolledBack {s : SynapseState} (h : Reachable s) (op : StateOp) (hop : op.Clocked)
      (task : String) (agents : List String) (now : Float) :
      Reachable ((TaskStateSnapshot.capture s task agents).restore (op.next s) now)
  | elsewhere {s t : SynapseState} (h : Reachable s) (hclaims : t.claims = s.claims)
      (hsaved : t.expiredCheckpoints = s.expiredCheckpoints)
      (hindex : t.leaseIndex = s.leaseIndex)
      (httl : t.defaultTtlSeconds = s.defaultTtlSeconds) : Reachable t

theorem Reachable.indexed {s : SynapseState} (h : s.Reachable) : s.Indexed := by
  induction h with
  | fresh defaultTtl maxClaims maxOffers maxPaths =>
    exact init_indexed defaultTtl maxClaims maxOffers maxPaths
  | replayed _ _ _ _ _ _ _ log now context hrows hreplay => exact replay_indexed hrows hreplay
  | called _ op hop ih => exact ih.next hop
  | rolledBack _ op hop task agents now ih =>
    exact TaskStateSnapshot.restore_indexed ih (ih.next hop) task agents now
  | elsewhere _ hclaims hsaved hindex httl ih => exact ih.congr hclaims hsaved hindex httl

/-- The heap sweeps of a registry are full scans, and no task has both a claim and a
retained checkpoint. -/
structure SweepsExactly (s : SynapseState) : Prop where
  apart : ∀ task, s.claims.get? task = none ∨ s.expiredCheckpoints.get? task = none
  heartbeat : ∀ agent ts task,
    (s.heartbeat agent ts).claims.get? task = scannedClaim ts (s.claims.get? task) ∧
      (s.heartbeat agent ts).expiredCheckpoints.get? task =
        scannedCheckpoint ts (s.claims.get? task) (s.expiredCheckpoints.get? task)
  snapshot : ∀ ts task,
    (s.snapshot ts).claims.get? task = scannedClaim ts (s.claims.get? task) ∧
      (s.snapshot ts).expiredCheckpoints.get? task =
        scannedCheckpoint ts (s.claims.get? task) (s.expiredCheckpoints.get? task)

/-- In every reachable registry the expiry by heap is that of a full scan. -/
theorem heap_expiry_exact {s : SynapseState} (h : s.Reachable) : s.SweepsExactly := by
  have hindexed := h.indexed
  refine ⟨?_, ?_, ?_⟩
  · intro task
    by_cases hheld : s.claims.get? task = none
    · exact Or.inl hheld
    · exact Or.inr (hindexed.apart hheld)
  · intro agent ts task
    have hseen : { s with lastSeen := s.lastSeen.set agent ts }.Indexed :=
      hindexed.congr rfl rfl rfl rfl
    exact hseen.sweep ts task
  · intro ts task
    exact hindexed.sweep ts task

omit [Builtins] in
/-- A claim renewed at an earlier clock reading, under the same epoch. -/
theorem heap_expiry_exact_renewed :
    letI := Builtins.ascii
    SweepsExactly ((StateOp.renewClaim "A" "T" 5 1 []).next
      ((StateOp.claim "A" "T" 10 {}).next (init .null .null .null .null))) := by
  let _ : Builtins := Builtins.ascii
  have hten : (10 : Float).isFinite = true := by decide +kernel
  have hfive : (5 : Float).isFinite = true := by decide +kernel
  apply heap_expiry_exact
  apply Reachable.called
  · apply Reachable.called
    · exact Reachable.fresh .null .null .null .null
    · rintro now ⟨⟩
      exact hten
  · rintro now ⟨⟩
    exact hfive

end SynapseState

end SynapseChannel
