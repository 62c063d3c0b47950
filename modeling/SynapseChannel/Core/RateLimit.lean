import Mathlib.Algebra.Order.Field.Rat
import Mathlib.Data.Rat.Defs
import SynapseChannel.Lib.Dict
import SynapseChannel.Lib.Refill
import SynapseChannel.Lib.Trace

/-!
# Core — RateLimit

The token-bucket limiter per agent, over exact rationals. A bucket refills
when it is asked and never above the burst; over all calls since it was made
it accepts exactly what the sustained rate and one burst allow.
-/

namespace SynapseChannel

open Py Refill

namespace RateLimit

def minimumRate : ℚ := 1 / 100

def minimumBurst : ℚ := 1

/-- Token-bucket state for one agent. -/
structure Bucket where
  tokens : ℚ
  updatedAt : ℚ

/-- Token-bucket limiter keyed by agent name. -/
structure RateLimiter where
  ratePerSecond : ℚ
  burst : ℚ
  buckets : Dict String Bucket
  rate_min : minimumRate ≤ ratePerSecond
  burst_min : minimumBurst ≤ burst

/-- Rate and burst are clamped up to their minimum. -/
def RateLimiter.new (ratePerSecond burst : ℚ) : RateLimiter where
  ratePerSecond := max ratePerSecond minimumRate
  burst := max burst minimumBurst
  buckets := Dict.empty
  rate_min := le_max_right _ _
  burst_min := le_max_right _ _

/-- The bucket of an agent, refilled up to now, or a full one. -/
def RateLimiter.refilled (limiter : RateLimiter) (agent : String) (now : ℚ) : Bucket :=
  match limiter.buckets.get? agent with
  | none => { tokens := limiter.burst, updatedAt := now }
  | some bucket =>
    let elapsed := max 0 (now - bucket.updatedAt)
    { tokens := min limiter.burst (bucket.tokens + elapsed * limiter.ratePerSecond)
      updatedAt := now }

/-- Refill the agent's bucket and consume the cost if it is there. -/
def RateLimiter.allow (limiter : RateLimiter) (agent : String) (now cost : ℚ) :
    RateLimiter × Bool :=
  let bucket := limiter.refilled agent now
  if bucket.tokens ≥ cost then
    ({ limiter with
        buckets := limiter.buckets.set agent { bucket with tokens := bucket.tokens - cost } }, true)
  else ({ limiter with buckets := limiter.buckets.set agent bucket }, false)

/-- Drop an agent's bucket. -/
def RateLimiter.forget (limiter : RateLimiter) (agent : String) : RateLimiter :=
  { limiter with buckets := limiter.buckets.erase agent }

/-! ## Runs -/

inductive Call
  | allow (agent : String) (now cost : ℚ)
  | forget (agent : String)

def step (limiter : RateLimiter) : Call → RateLimiter
  | .allow agent now cost => (limiter.allow agent now cost).1
  | .forget agent => limiter.forget agent

/-- The history of one agent: a call of its adds an entry, dropping its bucket
begins a new one. -/
def extend (agent : String) (history : List (Entry ℚ)) : RateLimiter × Call → List (Entry ℚ)
  | (limiter, .allow name now cost) =>
    if name = agent then history ++ [⟨now, cost, (limiter.allow agent now cost).2⟩] else history
  | (_, .forget name) => if name = agent then [] else history

/-- The calls of an agent since its bucket was made, with their answers. -/
def history (agent : String) (limiter : RateLimiter) (calls : List Call) : List (Entry ℚ) :=
  (Trace.trace step limiter calls).foldl (extend agent) []

/-- No reading is earlier than the one before. -/
def Monotone (entries : List (Entry ℚ)) : Prop :=
  entries.Pairwise fun earlier later => earlier.time ≤ later.time

/-- What the bucket of an agent has to do with its history. -/
structure Kept (limiter : RateLimiter) (agent : String) (entries : List (Entry ℚ)) : Prop where
  lawful : Lawful limiter.burst limiter.ratePerSecond entries
  fresh : limiter.buckets.get? agent = none → entries = []
  level : ∀ bucket, limiter.buckets.get? agent = some bucket →
    IsLevel limiter.burst limiter.ratePerSecond entries bucket.updatedAt bucket.tokens ∧
      0 ≤ bucket.tokens ∧ ∃ entry, entries.getLast? = some entry ∧ entry.time = bucket.updatedAt

theorem RateLimiter.rate_nonneg (limiter : RateLimiter) : 0 ≤ limiter.ratePerSecond :=
  le_trans (by unfold minimumRate; norm_num) limiter.rate_min

theorem RateLimiter.burst_nonneg (limiter : RateLimiter) : 0 ≤ limiter.burst :=
  le_trans (by unfold minimumBurst; norm_num) limiter.burst_min

theorem step_burst (limiter : RateLimiter) (call : Call) :
    (step limiter call).burst = limiter.burst ∧
      (step limiter call).ratePerSecond = limiter.ratePerSecond := by
  cases call with
  | forget agent => exact ⟨rfl, rfl⟩
  | allow agent now cost =>
      unfold step RateLimiter.allow
      dsimp only
      split <;> exact ⟨rfl, rfl⟩

/-- The bucket after a call holds what the refilled one did, less what was
accepted. -/
theorem get?_allow (limiter : RateLimiter) (agent name : String) (now cost : ℚ) :
    (limiter.allow agent now cost).1.buckets.get? name =
      if agent = name then
        some {
          tokens := (limiter.refilled agent now).tokens -
            (Entry.mk now cost (limiter.allow agent now cost).2).spent
          updatedAt := now }
      else limiter.buckets.get? name := by
  have hbucket : limiter.refilled agent now =
      { tokens := (limiter.refilled agent now).tokens, updatedAt := now } := by
    unfold RateLimiter.refilled
    split <;> rfl
  unfold RateLimiter.allow Entry.spent
  dsimp only
  split
  · rw [Dict.get?_set, hbucket]
    simp
  · rw [Dict.get?_set, if_neg Bool.false_ne_true, sub_zero, ← hbucket]

theorem allow_accepted (limiter : RateLimiter) (agent : String) (now cost : ℚ) :
    (limiter.allow agent now cost).2 = true ↔ cost ≤ (limiter.refilled agent now).tokens := by
  unfold RateLimiter.allow
  dsimp only
  split
  · rename_i h
    exact iff_of_true rfl h
  · rename_i h
    exact iff_of_false Bool.false_ne_true h

theorem Monotone.init {entries : List (Entry ℚ)} {entry : Entry ℚ}
    (h : Monotone (entries ++ [entry])) : Monotone entries := (List.pairwise_append.mp h).1

/-- A call of the agent keeps what its bucket has to do with its history. -/
theorem Kept.allow {limiter : RateLimiter} {agent : String} {entries : List (Entry ℚ)}
    (h : Kept limiter agent entries) (now cost : ℚ)
    (hmonotone : Monotone (entries ++ [⟨now, cost, (limiter.allow agent now cost).2⟩])) :
    Kept (limiter.allow agent now cost).1 agent
      (entries ++ [⟨now, cost, (limiter.allow agent now cost).2⟩]) := by
  obtain ⟨hburst, hrate⟩ := step_burst limiter (.allow agent now cost)
  let entry : Entry ℚ := ⟨now, cost, (limiter.allow agent now cost).2⟩
  have hget : (limiter.allow agent now cost).1.buckets.get? agent =
      some { tokens := (limiter.refilled agent now).tokens - entry.spent, updatedAt := now } :=
    (get?_allow limiter agent agent now cost).trans (if_pos rfl)
  have hpaid := allow_accepted limiter agent now cost
  -- the level before the entry is paid for, by whether there was a bucket
  have hlevel : IsLevel limiter.burst limiter.ratePerSecond (entries ++ [entry]) now
        ((limiter.refilled agent now).tokens - entry.spent) ∧
      0 ≤ (limiter.refilled agent now).tokens - entry.spent ∧
      (cost ≤ (limiter.refilled agent now).tokens ↔
        Admits limiter.burst limiter.ratePerSecond entries now cost) := by
    cases hbucket : limiter.buckets.get? agent with
    | none =>
        have hfull : (limiter.refilled agent now).tokens = limiter.burst := by
          unfold RateLimiter.refilled
          rw [hbucket]
        rw [hfull] at hpaid ⊢
        rw [h.fresh hbucket]
        refine ⟨IsLevel.first _ _ entry, ?_, ?_⟩
        · unfold Entry.spent
          split
          · rename_i haccepted
            exact sub_nonneg.mpr (hpaid.mp haccepted)
          · rw [sub_zero]
            exact limiter.burst_nonneg
        · exact (and_iff_left fun place hplace => absurd hplace (Nat.not_lt_zero _)).symm
    | some bucket =>
        obtain ⟨hold, hnonneg, last, hlast, htime⟩ := h.level bucket hbucket
        have helapsed : 0 ≤ now - bucket.updatedAt := by
          obtain ⟨-, -, hlater⟩ := List.pairwise_append.mp hmonotone
          have hle := hlater last (List.mem_of_getLast? hlast) entry List.mem_cons_self
          rw [htime] at hle
          exact sub_nonneg.mpr hle
        have hrefilled : (limiter.refilled agent now).tokens =
            refill limiter.burst limiter.ratePerSecond bucket.tokens (now - bucket.updatedAt) := by
          unfold RateLimiter.refilled refill
          rw [hbucket]
          dsimp only
          rw [max_eq_right helapsed, mul_comm]
        rw [hrefilled] at hpaid ⊢
        exact ⟨hold.append entry,
          refill_sub_nonneg limiter.burst_nonneg limiter.rate_nonneg hnonneg helapsed hpaid.mp,
          hold.le_refill_iff now cost⟩
  obtain ⟨hafter, hnonneg, hadmits⟩ := hlevel
  constructor
  · rw [show (limiter.allow agent now cost).1 = step limiter (.allow agent now cost) from rfl,
      hburst, hrate]
    exact h.lawful.append (hpaid.trans hadmits) hafter hnonneg
  · intro hnone
    rw [hget] at hnone
    cases hnone
  · intro bucket hbucket
    rw [hget] at hbucket
    cases hbucket
    rw [show (limiter.allow agent now cost).1 = step limiter (.allow agent now cost) from rfl,
      hburst, hrate]
    exact ⟨hafter, hnonneg, entry, List.getLast?_concat, rfl⟩

/-- Calls of other agents leave a bucket and its history alone. -/
theorem Kept.congr {limiter other : RateLimiter} {agent : String} {entries : List (Entry ℚ)}
    (h : Kept limiter agent entries) (hburst : other.burst = limiter.burst)
    (hrate : other.ratePerSecond = limiter.ratePerSecond)
    (hget : other.buckets.get? agent = limiter.buckets.get? agent) : Kept other agent entries := by
  constructor
  · rw [hburst, hrate]
    exact h.lawful
  · rw [hget]
    exact h.fresh
  · rw [hget, hburst, hrate]
    exact h.level

theorem Kept.forget (limiter : RateLimiter) (agent : String) :
    Kept (limiter.forget agent) agent [] where
  lawful := Lawful.nil _ _
  fresh := fun _ => rfl
  level := by
    intro bucket hbucket
    unfold RateLimiter.forget at hbucket
    rw [Dict.get?_erase, if_pos rfl] at hbucket
    cases hbucket

/-- As long as the readings of a history do not go back, a call keeps what the
bucket has to do with it. -/
theorem kept_step {limiter : RateLimiter} {agent : String} {entries : List (Entry ℚ)}
    (h : Monotone entries → Kept limiter agent entries) (call : Call)
    (hmonotone : Monotone (extend agent entries (limiter, call))) :
    Kept (step limiter call) agent (extend agent entries (limiter, call)) := by
  obtain ⟨hburst, hrate⟩ := step_burst limiter call
  unfold extend at hmonotone ⊢
  cases call with
  | allow name now cost =>
      dsimp only at hmonotone ⊢
      by_cases hname : name = agent
      · subst hname
        rw [if_pos rfl] at hmonotone ⊢
        exact (h hmonotone.init).allow now cost hmonotone
      · rw [if_neg hname] at hmonotone ⊢
        refine (h hmonotone).congr hburst hrate ?_
        exact (get?_allow limiter name agent now cost).trans (if_neg hname)
  | forget name =>
      dsimp only at hmonotone ⊢
      by_cases hname : name = agent
      · subst hname
        rw [if_pos rfl]
        exact Kept.forget limiter name
      · rw [if_neg hname] at hmonotone ⊢
        exact (h hmonotone).congr hburst hrate (Dict.get?_erase_ne _ (Ne.symm hname))

theorem history_concat (limiter : RateLimiter) (agent : String) (calls : List Call) (call : Call) :
    history agent limiter (calls ++ [call]) =
      extend agent (history agent limiter calls) (Trace.run step limiter calls, call) := by
  unfold history
  rw [Trace.trace_append, List.foldl_append]
  rfl

theorem kept_run (limiter : RateLimiter) (hfresh : limiter.buckets = Dict.empty) (agent : String)
    (calls : List Call) :
    Monotone (history agent limiter calls) →
      Kept (Trace.run step limiter calls) agent (history agent limiter calls) := by
  induction calls using List.reverseRecOn with
  | nil =>
      intro _
      refine ⟨Lawful.nil _ _, fun _ => rfl, fun bucket hbucket => ?_⟩
      rw [show Trace.run step limiter [] = limiter from rfl, hfresh] at hbucket
      cases hbucket
  | append_singleton calls call ih =>
      intro hmonotone
      rw [history_concat] at hmonotone ⊢
      rw [Trace.run_append]
      exact kept_step ih call hmonotone

theorem run_burst (limiter : RateLimiter) (calls : List Call) :
    (Trace.run step limiter calls).burst = limiter.burst ∧
      (Trace.run step limiter calls).ratePerSecond = limiter.ratePerSecond := by
  induction calls using List.reverseRecOn with
  | nil => exact ⟨rfl, rfl⟩
  | append_singleton calls call ih =>
      rw [Trace.run_append, (step_burst _ call).1, (step_burst _ call).2]
      exact ih

/-- Since its bucket was made, a call of an agent is accepted exactly when the
burst and every earlier call admit it, so no run of its calls takes more than the
burst and what the rate brings meanwhile. -/
theorem allow_lawful (ratePerSecond burst : ℚ) (agent : String) (calls : List Call)
    (hmonotone : Monotone (history agent (RateLimiter.new ratePerSecond burst) calls)) :
    Lawful (max burst minimumBurst) (max ratePerSecond minimumRate)
      (history agent (RateLimiter.new ratePerSecond burst) calls) := by
  have hkept := kept_run (RateLimiter.new ratePerSecond burst) rfl agent calls hmonotone
  obtain ⟨hburst, hrate⟩ := run_burst (RateLimiter.new ratePerSecond burst) calls
  have hlawful := hkept.lawful
  rw [hburst, hrate] at hlawful
  exact hlawful

/-- A second call half a second later is refused at one token a second, and one
of another agent is not counted. -/
theorem allow_lawful_refused :
    let calls : List Call :=
      [.allow "a" 0 1, .forget "a", .allow "a" 1 1, .allow "b" 1 1, .allow "a" (3 / 2) 1]
    history "a" (RateLimiter.new 1 1) calls = [⟨1, 1, true⟩, ⟨3 / 2, 1, false⟩] ∧
      Lawful (max 1 minimumBurst) (max 1 minimumRate)
        (history "a" (RateLimiter.new 1 1) calls) :=
  ⟨by decide +kernel, allow_lawful 1 1 "a" _ (by unfold Monotone; decide +kernel)⟩

/-! ## Other agents -/

def Call.of (agent : String) : Call → Bool
  | .allow name _ _ => decide (name = agent)
  | .forget name => decide (name = agent)

/-- Two limiters answer an agent alike. -/
structure Alike (agent : String) (limiter other : RateLimiter) : Prop where
  burst : limiter.burst = other.burst
  rate : limiter.ratePerSecond = other.ratePerSecond
  bucket : limiter.buckets.get? agent = other.buckets.get? agent

theorem Alike.allow {agent : String} {limiter other : RateLimiter} (h : Alike agent limiter other)
    (now cost : ℚ) : (limiter.allow agent now cost).2 = (other.allow agent now cost).2 := by
  have hrefilled : limiter.refilled agent now = other.refilled agent now := by
    unfold RateLimiter.refilled
    rw [h.burst, h.rate, h.bucket]
  rw [Bool.eq_iff_iff, allow_accepted, allow_accepted, hrefilled]

theorem Alike.step {agent : String} {limiter other : RateLimiter} (h : Alike agent limiter other)
    (call : Call) : Alike agent (step limiter call) (step other call) := by
  refine ⟨?_, ?_, ?_⟩
  · rw [(step_burst _ _).1, (step_burst _ _).1, h.burst]
  · rw [(step_burst _ _).2, (step_burst _ _).2, h.rate]
  cases call with
  | allow name now cost =>
      show (limiter.allow name now cost).1.buckets.get? agent = _
      refine (get?_allow _ _ _ _ _).trans (Eq.trans ?_ (get?_allow _ _ _ _ _).symm)
      split
      · rename_i hname
        subst hname
        rw [h.allow now cost]
        unfold RateLimiter.refilled
        rw [h.burst, h.rate, h.bucket]
      · exact h.bucket
  | forget name =>
      show (limiter.buckets.erase name).get? agent = (other.buckets.erase name).get? agent
      rw [Dict.get?_erase, Dict.get?_erase, h.bucket]

/-- A call of another agent changes nothing for this one. -/
theorem Alike.other {agent : String} {limiter other : RateLimiter} (h : Alike agent limiter other)
    {call : Call} (hcall : call.of agent = false) : Alike agent (RateLimit.step limiter call) other := by
  refine ⟨(step_burst _ _).1.trans h.burst, (step_burst _ _).2.trans h.rate, ?_⟩
  cases call with
  | allow name now cost =>
      exact ((get?_allow _ _ _ _ _).trans (if_neg (of_decide_eq_false hcall))).trans h.bucket
  | forget name =>
      exact (Dict.get?_erase_ne _ (Ne.symm (of_decide_eq_false hcall))).trans h.bucket

end RateLimit

end SynapseChannel
