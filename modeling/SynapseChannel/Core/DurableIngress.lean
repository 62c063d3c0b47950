import SynapseChannel.Lib.Dict
import SynapseChannel.Lib.FloatRound
import SynapseChannel.Lib.Text
import SynapseChannel.Lib.Window

/-!
# Core — DurableIngress

The sliding-window quota on durable chat: one bucket of admissions for
each principal, pruned when it is looked at, and idle buckets evicted to
make room. Recounted from the admissions of the whole run, the answers
are the same.
-/

namespace SynapseChannel

open Py

namespace DurableIngress

/-- One accepted chat inside a principal's window. -/
structure Admission where
  time : Float
  nbytes : Nat
  deriving DecidableEq

/-- Admissions and their running byte total for one principal. -/
structure Bucket where
  admissions : List Admission := []
  totalBytes : Int := 0

inductive Refusal where
  | events
  | bytes
  | oversized
  | principalCapacity
  deriving DecidableEq

/-- The reason code of a refusal. -/
def Refusal.code : Refusal → String
  | events => "events"
  | bytes => "bytes"
  | oversized => "oversized"
  | principalCapacity => "principal-capacity"

/-- The bounds of a quota, clamped. -/
structure Limits where
  maxEvents : Nat
  maxBytes : Nat
  windowSeconds : Float
  maxPrincipals : Nat
  oneEvent : 1 ≤ maxEvents
  oneByte : 1 ≤ maxBytes
  onePrincipal : 1 ≤ maxPrincipals

def Limits.init (maxEvents maxBytes : Int) (windowSeconds : Float) (maxPrincipals : Int) : Limits where
  maxEvents := max maxEvents.toNat 1
  maxBytes := max maxBytes.toNat 1
  windowSeconds := if windowSeconds < 0.001 then 0.001 else windowSeconds
  maxPrincipals := max maxPrincipals.toNat 1
  oneEvent := Nat.le_max_right _ _
  oneByte := Nat.le_max_right _ _
  onePrincipal := Nat.le_max_right _ _

abbrev Buckets := Dict String Bucket

/-- `str(principal or "").strip() or "anonymous"`. -/
def principalKey (principal : String) : String :=
  let key := strip principal
  if key = "" then "anonymous" else key

/-- Whether an admission has left the window `(now - W, now]`. -/
def stale (limits : Limits) (now : Float) (a : Admission) : Bool :=
  decide (a.time ≤ now - limits.windowSeconds)

/-- Let go of the admissions at the front that have left the window. -/
def prune (limits : Limits) (now : Float) : List Admission → Int → Bucket
  | [], total => ⟨[], total⟩
  | a :: rest, total =>
    if stale limits now a then prune limits now rest (total - a.nbytes) else ⟨a :: rest, total⟩

def Bucket.prune (bucket : Bucket) (limits : Limits) (now : Float) : Bucket :=
  DurableIngress.prune limits now bucket.admissions bucket.totalBytes

/-- Prune buckets from the least recently used on, and drop the first that is left idle. -/
def evict (limits : Limits) (now : Float) : List (String × Bucket) → List (String × Bucket)
  | [] => []
  | (key, bucket) :: rest =>
    let bucket := bucket.prune limits now
    if bucket.admissions = [] then rest else (key, bucket) :: evict limits now rest

theorem keys_evict_sublist (limits : Limits) (now : Float) (items : List (String × Bucket)) :
    ((evict limits now items).map Prod.fst).Sublist (items.map Prod.fst) := by
  induction items with
  | nil => exact .slnil
  | cons item rest ih =>
    unfold evict
    dsimp only
    split
    · exact List.sublist_cons_self ..
    · exact ih.cons_cons _

def evictIdle (limits : Limits) (now : Float) (buckets : Buckets) : Buckets :=
  ⟨evict limits now buckets.items, buckets.nodup.sublist (keys_evict_sublist limits now buckets.items)⟩

/-- `move_to_end(key)` for a key that holds `bucket`. -/
def moveToEnd (buckets : Buckets) (key : String) (bucket : Bucket) : Buckets :=
  (buckets.erase key).set key bucket

/-- The bucket of a key, made for a new one when there is room. -/
def findBucket (limits : Limits) (buckets : Buckets) (key : String) (now : Float) :
    Buckets × Option Bucket :=
  match buckets.get? key with
  | some bucket => (moveToEnd buckets key bucket, some bucket)
  | none =>
    let buckets :=
      if limits.maxPrincipals ≤ buckets.items.length then evictIdle limits now buckets else buckets
    if limits.maxPrincipals ≤ buckets.items.length then (buckets, none)
    else (buckets.set key {}, some {})

/-- Admit one chat, or refuse it. -/
def allow (limits : Limits) (buckets : Buckets) (principal : String) (nbytes : Int) (now : Float) :
    Buckets × Option Refusal :=
  let key := principalKey principal
  let cost := nbytes.toNat
  if limits.maxBytes < cost then (buckets, some .oversized)
  else
    match findBucket limits buckets key now with
    | (buckets, none) => (buckets, some .principalCapacity)
    | (buckets, some bucket) =>
      let bucket := bucket.prune limits now
      if limits.maxEvents < bucket.admissions.length + 1 then (buckets.set key bucket, some .events)
      else if limits.maxBytes < bucket.totalBytes + cost then (buckets.set key bucket, some .bytes)
      else
        let bucket : Bucket := ⟨bucket.admissions ++ [⟨now, cost⟩], bucket.totalBytes + cost⟩
        (moveToEnd buckets key bucket, none)

/-- The events and bytes counted for a principal. -/
def usage (limits : Limits) (buckets : Buckets) (principal : String) (now : Float) :
    Buckets × (Nat × Int) :=
  let key := principalKey principal
  match buckets.get? key with
  | none => (buckets, 0, 0)
  | some bucket =>
    let bucket := bucket.prune limits now
    if bucket.admissions = [] then (buckets.erase key, 0, 0)
    else (buckets.set key bucket, bucket.admissions.length, bucket.totalBytes)

/-! ## Runs -/

inductive Call where
  | allow (principal : String) (nbytes : Int) (now : Float)
  | usage (principal : String) (now : Float)

inductive Answer where
  | allowed (refusal : Option Refusal)
  | counted (events : Nat) (bytes : Int)
  deriving DecidableEq

def Call.now : Call → Float
  | allow _ _ now => now
  | usage _ now => now

def Call.key : Call → String
  | allow principal _ _ => principalKey principal
  | usage principal _ => principalKey principal

/-- Answer one call. -/
def answer (limits : Limits) (buckets : Buckets) : Call → Answer
  | .allow principal nbytes now => .allowed (allow limits buckets principal nbytes now).2
  | .usage principal now =>
    .counted (usage limits buckets principal now).2.1 (usage limits buckets principal now).2.2

def step (limits : Limits) (buckets : Buckets) : Call → Buckets
  | .allow principal nbytes now => (allow limits buckets principal nbytes now).1
  | .usage principal now => (usage limits buckets principal now).1

/-- The chats that were admitted, oldest first, each under its key. -/
abbrev History := List (String × Admission)

/-- A history with a call and its answer. -/
def History.note (history : History) (call : Call) (answer : Answer) : History :=
  match call, answer with
  | .allow principal nbytes now, .allowed none =>
    history ++ [(principalKey principal, ⟨now, nbytes.toNat⟩)]
  | _, _ => history

/-- The buckets and the history after a run of calls. -/
def runCalls (limits : Limits) : Buckets × History → List Call → Buckets × History
  | state, [] => state
  | (buckets, history), call :: rest =>
    runCalls limits
      (step limits buckets call, history.note call (answer limits buckets call)) rest

/-- The answers to a run of calls. -/
def answers (limits : Limits) : Buckets → List Call → List Answer
  | _, [] => []
  | buckets, call :: rest => answer limits buckets call :: answers limits (step limits buckets call) rest

/-! ## Recounting -/

/-- The admissions of one key. -/
def History.ofKey (history : History) (key : String) : List Admission :=
  (history.filter fun e => e.1 = key).map Prod.snd

/-- The admissions of one key in the window. -/
def History.window (history : History) (limits : Limits) (key : String) (now : Float) :
    List Admission :=
  (history.ofKey key).filter fun a => !stale limits now a

def bytesOf (admissions : List Admission) : Nat := (admissions.map Admission.nbytes).sum

/-- The other keys with admissions in the window, each once. -/
def History.others (history : History) (limits : Limits) (key : String) (now : Float) : List String :=
  ((history.filter fun e => !stale limits now e.2 && decide (e.1 ≠ key)).map Prod.fst).dedup

/-- The answer to a call, recounted from the whole history. -/
def recount (limits : Limits) (history : History) : Call → Answer
  | .allow principal nbytes now =>
    let key := principalKey principal
    let cost := nbytes.toNat
    let window := history.window limits key now
    .allowed <|
      if limits.maxBytes < cost then some .oversized
      else if (history.others limits key now).length = limits.maxPrincipals then some .principalCapacity
      else if limits.maxEvents < window.length + 1 then some .events
      else if limits.maxBytes < bytesOf window + cost then some .bytes
      else none
  | .usage principal now =>
    let window := history.window limits (principalKey principal) now
    .counted window.length (bytesOf window)

/-! ## Stale admissions -/

section Stale

open Ieee

/-- What is stale at one finite reading of the clock is stale at every later one. -/
theorem stale_mono {limits : Limits} {now later : Float} (hnow : now.isFinite = true)
    (hlater : later.isFinite = true) (hle : now ≤ later) {a : Admission}
    (h : stale limits now a = true) : stale limits later a = true := by
  have h := of_decide_eq_true h
  refine decide_eq_true ?_
  obtain ⟨-, hnumber⟩ := isNaN_of_le h
  by_cases hw : limits.windowSeconds.isFinite = true
  · exact le_trans h (sub_le_sub_finite hnow hlater hw hle)
  · -- a window without end leaves the same of every reading
    have hw' : limits.windowSeconds.toModel.unpack.isNaN = false := by
      cases hu : limits.windowSeconds.toModel.unpack with
      | notANumber =>
        rw [isNaN_sub_of (by rw [hu, sub_notANumber])] at hnumber
        cases hnumber
      | _ => rfl
    obtain ⟨sign, hsign⟩ := (isFinite_or_infinity hw').resolve_left hw
    have hsame : now - limits.windowSeconds = later - limits.windowSeconds := by
      apply eq_of_unpack
      · rw [unpack_sub_infinity (by rw [hsign, sub_infinity_right hnow]),
          unpack_sub_infinity (by rw [hsign, sub_infinity_right hlater])]
      · show (now - limits.windowSeconds).toModel.unpack.isFinite = false
        rw [unpack_sub_infinity (by rw [hsign, sub_infinity_right hnow])]
        rfl
    rwa [← hsame]

theorem stale_earlier {limits : Limits} {now : Float} {a b : Admission} (hle : a.time ≤ b.time)
    (h : stale limits now b = true) : stale limits now a = true :=
  decide_eq_true (le_trans hle (of_decide_eq_true h))

end Stale

theorem prune_eq (limits : Limits) (now : Float) (admissions : List Admission) (total : Int) :
    prune limits now admissions total = ⟨admissions.dropWhile (stale limits now),
      total - bytesOf (admissions.takeWhile (stale limits now))⟩ := by
  induction admissions generalizing total with
  | nil => simp [prune, bytesOf]
  | cons a rest ih =>
    unfold prune
    cases hs : stale limits now a with
    | true =>
      rw [if_pos rfl, ih, List.dropWhile_cons_of_pos hs, List.takeWhile_cons_of_pos hs]
      simp only [bytesOf, List.map_cons, List.sum_cons, Nat.cast_add, Bucket.mk.injEq, true_and]
      omega
    | false =>
      rw [if_neg Bool.false_ne_true, List.dropWhile_cons_of_neg (by simp [hs]),
        List.takeWhile_cons_of_neg (by simp [hs])]
      simp [bytesOf]

/-- A bucket's total is that of its admissions. -/
def Bucket.Counted (bucket : Bucket) : Prop := bucket.totalBytes = bytesOf bucket.admissions

theorem prune_admissions (bucket : Bucket) (limits : Limits) (now : Float) :
    (bucket.prune limits now).admissions = bucket.admissions.dropWhile (stale limits now) := by
  unfold Bucket.prune
  rw [prune_eq]

theorem prune_counted {bucket : Bucket} (h : bucket.Counted) (limits : Limits) (now : Float) :
    (bucket.prune limits now).Counted := by
  unfold Bucket.Counted Bucket.prune at *
  rw [prune_eq, h]
  have hsplit : bytesOf bucket.admissions = bytesOf (bucket.admissions.takeWhile (stale limits now)) +
      bytesOf (bucket.admissions.dropWhile (stale limits now)) := by
    unfold bytesOf
    rw [← List.sum_append, ← List.map_append, List.takeWhile_append_dropWhile]
  dsimp only
  rw [hsplit]
  push_cast
  omega

/-! ## The buckets represent the history -/

/-- What a dictionary keeps for a key. -/
def admissionsOf (buckets : Buckets) (key : String) : List Admission :=
  ((buckets.get? key).map Bucket.admissions).getD []

/-- The buckets hold, of each key's admissions, all but some that are stale. -/
structure Represents (limits : Limits) (buckets : Buckets) (history : History) (now : Float) :
    Prop where
  bounded : buckets.items.length ≤ limits.maxPrincipals
  kept : ∀ key, Window.Keeps (stale limits now) (history.ofKey key) (admissionsOf buckets key)
  counted : ∀ key bucket, buckets.get? key = some bucket → bucket.Counted
  ordered : history.Pairwise fun a b => a.2.time ≤ b.2.time
  finite : now.isFinite = true
  past : ∀ e ∈ history, e.2.time ≤ now

namespace Represents

variable {limits : Limits} {buckets : Buckets} {history : History} {now : Float}

theorem advance (h : Represents limits buckets history now) {later : Float}
    (hfinite : later.isFinite = true) (hle : now ≤ later) :
    Represents limits buckets history later where
  bounded := h.bounded
  kept := fun key => (h.kept key).mono fun _ hs => stale_mono h.finite hfinite hle hs
  counted := h.counted
  ordered := h.ordered
  finite := hfinite
  past := fun e he => Ieee.le_trans (h.past e he) hle

theorem ofKey_ordered (h : Represents limits buckets history now) (key : String) :
    (history.ofKey key).Pairwise fun a b => a.time ≤ b.time :=
  List.pairwise_map.mpr (h.ordered.sublist List.filter_sublist)

theorem prune_window (h : Represents limits buckets history now) {key : String} {bucket : Bucket}
    (hget : buckets.get? key = some bucket) :
    (bucket.prune limits now).admissions = history.window limits key now := by
  have hkept := h.kept key
  unfold admissionsOf at hkept
  rw [hget] at hkept
  rw [prune_admissions]
  exact hkept.prune_eq ((h.ofKey_ordered key).imp fun hle => stale_earlier hle)

/-- A key without a bucket has nothing in the window. -/
theorem window_absent (h : Represents limits buckets history now) {key : String}
    (hget : buckets.get? key = none) : history.window limits key now = [] := by
  have hkept := h.kept key
  unfold admissionsOf at hkept
  rw [hget] at hkept
  exact hkept.filter_eq.symm

/-- Buckets that are left alone, pruned, or dropped once pruning leaves them idle. -/
theorem replace (h : Represents limits buckets history now) {buckets' : Buckets}
    (hbounded : buckets'.items.length ≤ limits.maxPrincipals)
    (hkept : ∀ key, admissionsOf buckets' key = admissionsOf buckets key ∨
      admissionsOf buckets' key = (admissionsOf buckets key).dropWhile (stale limits now))
    (hcounted : ∀ key bucket, buckets'.get? key = some bucket → bucket.Counted) :
    Represents limits buckets' history now where
  bounded := hbounded
  kept := by
    intro key
    rcases hkept key with heq | heq
    · rw [heq]
      exact h.kept key
    · rw [heq]
      exact (h.kept key).prune
  counted := hcounted
  ordered := h.ordered
  finite := h.finite
  past := h.past

/-- A chat admitted under a key. -/
theorem accept (h : Represents limits buckets history now) {buckets' : Buckets} {key : String}
    {admissions : List Admission} {cost : Nat}
    (hkey : Window.Keeps (stale limits now) (history.ofKey key) admissions)
    (hbounded : buckets'.items.length ≤ limits.maxPrincipals)
    (hself : admissionsOf buckets' key = admissions ++ [⟨now, cost⟩])
    (hother : ∀ other, other ≠ key → admissionsOf buckets' other = admissionsOf buckets other)
    (hcounted : ∀ key bucket, buckets'.get? key = some bucket → bucket.Counted) :
    Represents limits buckets' (history ++ [(key, ⟨now, cost⟩)]) now where
  bounded := hbounded
  kept := by
    intro other
    unfold History.ofKey
    rw [List.filter_append, List.map_append]
    by_cases heq : other = key
    · rw [heq, hself, List.filter_cons_of_pos (by simp), List.filter_nil]
      exact hkey.push _
    · rw [List.filter_cons_of_neg (by simpa using Ne.symm heq), List.filter_nil, List.map_nil,
        List.append_nil, hother other heq]
      exact h.kept other
  counted := hcounted
  ordered := by
    refine List.pairwise_append.mpr ⟨h.ordered, List.pairwise_singleton _ _, ?_⟩
    intro e he last hlast
    rw [List.mem_singleton.mp hlast]
    exact h.past e he
  finite := h.finite
  past := by
    intro e he
    rcases List.mem_append.mp he with he | he
    · exact h.past e he
    · rw [List.mem_singleton.mp he]
      exact Ieee.le_refl (Ieee.isFinite_isNaN h.finite)

/-- Every other key in the window has a bucket. -/
theorem others_length_le (h : Represents limits buckets history now) (key : String) :
    (history.others limits key now).length ≤ (buckets.erase key).items.length := by
  rw [← Dict.length_keys]
  refine (List.Nodup.subperm (List.nodup_dedup _) fun other hother => ?_).length_le
  obtain ⟨e, he, rfl⟩ := List.mem_map.mp (List.mem_dedup.mp hother)
  obtain ⟨hmem, hcond⟩ := List.mem_filter.mp he
  obtain ⟨hlive, hne⟩ := Bool.and_eq_true_iff.mp hcond
  show e.1 ∈ (buckets.erase key).keys
  rw [Dict.mem_keys_iff, Dict.get?_erase_ne _ (of_decide_eq_true hne)]
  intro hnone
  have hwindow := h.window_absent hnone
  have hin : e.2 ∈ history.window limits e.1 now := by
    refine List.mem_filter.mpr ⟨List.mem_map_of_mem (List.mem_filter.mpr ⟨hmem, ?_⟩), hlive⟩
    simp
  rw [hwindow] at hin
  cases hin

/-- A key whose pruned bucket is not idle is in the window. -/
theorem mem_others (h : Represents limits buckets history now) {key other : String} {bucket : Bucket}
    (hget : buckets.get? other = some bucket) (hne : other ≠ key)
    (hbusy : (bucket.prune limits now).admissions ≠ []) : other ∈ history.others limits key now := by
  rw [h.prune_window hget] at hbusy
  obtain ⟨a, ha⟩ := List.exists_mem_of_ne_nil _ hbusy
  obtain ⟨hkey, hlive⟩ := List.mem_filter.mp ha
  obtain ⟨e, he, rfl⟩ := List.mem_map.mp hkey
  obtain ⟨hmem, heq⟩ := List.mem_filter.mp he
  have heq : e.1 = other := of_decide_eq_true heq
  refine List.mem_dedup.mpr (List.mem_map.mpr ⟨e, List.mem_filter.mpr ⟨hmem, ?_⟩, heq⟩)
  rw [heq, decide_eq_true hne, hlive]
  rfl

end Represents

/-! ## Looking a bucket up -/

/-- The scan stops at the first bucket that pruning leaves idle, and drops it. -/
theorem evict_cases (limits : Limits) (now : Float) (items : List (String × Bucket)) :
    (∃ pre item post, items = pre ++ item :: post ∧
      (item.2.prune limits now).admissions = [] ∧
      evict limits now items = pre.map (fun e => (e.1, e.2.prune limits now)) ++ post) ∨
    ((∀ e ∈ items, (e.2.prune limits now).admissions ≠ []) ∧
      evict limits now items = items.map fun e => (e.1, e.2.prune limits now)) := by
  induction items with
  | nil => exact .inr ⟨by simp, rfl⟩
  | cons item rest ih =>
    unfold evict
    dsimp only
    by_cases hidle : (item.2.prune limits now).admissions = []
    · rw [if_pos hidle]
      exact .inl ⟨[], item, rest, rfl, hidle, rfl⟩
    · rw [if_neg hidle]
      rcases ih with ⟨pre, idle, post, rfl, hnone, heq⟩ | ⟨hbusy, heq⟩
      · exact .inl ⟨item :: pre, idle, post, rfl, hnone, by rw [heq]; rfl⟩
      · exact .inr ⟨List.forall_mem_cons.mpr ⟨hidle, hbusy⟩, by rw [heq]; rfl⟩

theorem length_erase_of_get? {buckets : Buckets} {key : String} {bucket : Bucket}
    (h : buckets.get? key = some bucket) :
    (buckets.erase key).items.length + 1 = buckets.items.length := by
  have hmem : key ∈ buckets.keys := (Dict.mem_keys_iff _ _).mpr (by rw [h]; exact Option.some_ne_none _)
  have herase : (buckets.erase key).keys = buckets.keys.erase key := by
    rw [(show buckets.keys.Nodup from buckets.nodup).erase_eq_filter]
    unfold Dict.keys Dict.erase Dict.filterKeys
    rw [List.filter_map]
    refine congrArg _ (List.filter_congr fun e _ => ?_)
    simp [bne, beq_eq_decide]
  rw [← Dict.length_keys, ← Dict.length_keys, herase]
  exact List.length_erase_add_one hmem

theorem length_set_of_none {buckets : Buckets} {key : String} (h : buckets.get? key = none)
    (bucket : Bucket) : (buckets.set key bucket).items.length = buckets.items.length + 1 := by
  rw [Dict.items_set_of_none h, List.length_append]
  rfl

theorem length_set_of_some {buckets : Buckets} {key : String} {old : Bucket}
    (h : buckets.get? key = some old) (bucket : Bucket) :
    (buckets.set key bucket).items.length = buckets.items.length := by
  rw [← Dict.length_keys, ← Dict.length_keys, Dict.keys_set_of_some h]

theorem get?_moveToEnd (buckets : Buckets) (key other : String) (bucket : Bucket) :
    (moveToEnd buckets key bucket).get? other =
      if key = other then some bucket else buckets.get? other := by
  unfold moveToEnd
  rw [Dict.get?_set]
  split
  · rfl
  · rename_i hne
    rw [Dict.get?_erase_ne _ (Ne.symm hne)]

theorem length_moveToEnd {buckets : Buckets} {key : String} {old : Bucket}
    (h : buckets.get? key = some old) (bucket : Bucket) :
    (moveToEnd buckets key bucket).items.length = buckets.items.length := by
  unfold moveToEnd
  rw [length_set_of_none (Dict.get?_erase_self _ _), length_erase_of_get? h]

/-- Moving a bucket changes none. -/
theorem moveToEnd_same {buckets : Buckets} {key : String} {bucket : Bucket}
    (h : buckets.get? key = some bucket) (other : String) :
    (moveToEnd buckets key bucket).get? other = buckets.get? other := by
  rw [get?_moveToEnd]
  split
  · rename_i heq
    rw [← heq, h]
  · rfl

section Find

variable {limits : Limits} {buckets : Buckets} {history : History} {now : Float}

theorem Represents.same (h : Represents limits buckets history now) {buckets' : Buckets}
    (hlength : buckets'.items.length ≤ limits.maxPrincipals)
    (hget : ∀ key, buckets'.get? key = buckets.get? key) : Represents limits buckets' history now :=
  h.replace hlength (fun key => .inl (by unfold admissionsOf; rw [hget])) fun key bucket hb =>
    h.counted key bucket (by rw [← hget, hb])

theorem evictIdle_none {key : String} (h : buckets.get? key = none) :
    (evictIdle limits now buckets).get? key = none := by
  by_contra hsome
  have hmem := (keys_evict_sublist limits now buckets.items).mem ((Dict.mem_keys_iff _ _).mpr hsome)
  exact (Dict.mem_keys_iff buckets key).mp hmem h

/-- Eviction leaves a bucket alone, prunes it, or drops it idle. -/
theorem evictIdle_some {key : String} {bucket : Bucket} (h : buckets.get? key = some bucket) :
    (evictIdle limits now buckets).get? key = some bucket ∨
      (evictIdle limits now buckets).get? key = some (bucket.prune limits now) ∨
      (evictIdle limits now buckets).get? key = none ∧
        (bucket.prune limits now).admissions = [] := by
  have hmem := (Dict.mem_items_iff _ _ _).mpr h
  have hget : ∀ b, (key, b) ∈ evict limits now buckets.items →
      (evictIdle limits now buckets).get? key = some b := fun b hb =>
    (Dict.mem_items_iff (evictIdle limits now buckets) key b).mp hb
  rcases evict_cases limits now buckets.items with ⟨pre, item, post, hitems, hidle, heq⟩ | ⟨-, heq⟩
  · rw [heq] at hget
    rw [hitems] at hmem
    rcases List.mem_append.mp hmem with hpre | hpost
    · exact .inr (.inl (hget _ (List.mem_append_left _ (List.mem_map.mpr ⟨_, hpre, rfl⟩))))
    rcases List.mem_cons.mp hpost with hitem | hpost
    · rw [← hitem] at hidle
      refine .inr (.inr ⟨?_, hidle⟩)
      by_contra hsome
      have hkey : key ∈ (evict limits now buckets.items).map Prod.fst :=
        (Dict.mem_keys_iff (evictIdle limits now buckets) key).mpr hsome
      -- the dropped key is no other item's
      have hnodup := buckets.nodup
      rw [hitems, List.map_append, List.map_cons, List.nodup_append, List.nodup_cons] at hnodup
      rw [heq, List.map_append, List.map_map, List.mem_append] at hkey
      rcases hkey with hkey | hkey
      · exact hnodup.2.2 key hkey item.1 List.mem_cons_self (by rw [← hitem])
      · rw [← hitem] at hnodup
        exact hnodup.2.1.1 hkey
    · exact .inl (hget _ (List.mem_append_right _ hpost))
  · rw [heq] at hget
    exact .inr (.inl (hget _ (List.mem_map.mpr ⟨_, hmem, rfl⟩)))

theorem evictIdle_represents (h : Represents limits buckets history now) :
    Represents limits (evictIdle limits now buckets) history now := by
  have hlength : (evictIdle limits now buckets).items.length ≤ buckets.items.length := by
    rw [← Dict.length_keys, ← Dict.length_keys]
    exact (keys_evict_sublist limits now buckets.items).length_le
  refine h.replace (hlength.trans h.bounded) ?_ ?_
  · intro key
    unfold admissionsOf
    cases hget : buckets.get? key with
    | none =>
      rw [evictIdle_none hget]
      exact .inl rfl
    | some bucket =>
      have hpruned := prune_admissions bucket limits now
      rcases @evictIdle_some limits buckets now key bucket hget with heq | heq | ⟨heq, hidle⟩
      · rw [heq]
        exact .inl rfl
      · rw [heq]
        exact .inr hpruned
      · rw [heq]
        exact .inr (hidle.symm.trans hpruned)
  · intro key bucket' hbucket'
    cases hget : buckets.get? key with
    | none =>
      rw [evictIdle_none hget] at hbucket'
      cases hbucket'
    | some bucket =>
      have hcounted := h.counted key bucket hget
      rcases @evictIdle_some limits buckets now key bucket hget with heq | heq | ⟨heq, -⟩ <;>
        rw [heq] at hbucket'
      · exact Option.some.inj hbucket' ▸ hcounted
      · exact Option.some.inj hbucket' ▸ prune_counted hcounted limits now
      · cases hbucket'

/-- Eviction makes room unless no bucket is idle. -/
theorem evictIdle_length (limits : Limits) (buckets : Buckets) (now : Float) :
    (evictIdle limits now buckets).items.length < buckets.items.length ∨
      (evictIdle limits now buckets).items.length = buckets.items.length ∧
        ∀ key bucket, buckets.get? key = some bucket → (bucket.prune limits now).admissions ≠ [] := by
  show (evict limits now buckets.items).length < _ ∨ (evict limits now buckets.items).length = _ ∧ _
  rcases evict_cases limits now buckets.items with ⟨pre, item, post, hitems, -, heq⟩ | ⟨hbusy, heq⟩
  · rw [heq, hitems]
    simp only [List.length_append, List.length_map, List.length_cons]
    omega
  · rw [heq, List.length_map]
    exact .inr ⟨rfl, fun key bucket hget => hbusy _ ((Dict.mem_items_iff _ _ _).mpr hget)⟩

/-- What `_bucket` finds: the buckets still represent the history, and there is no bucket exactly
when every place is taken by another key in the window. -/
theorem findBucket_spec (h : Represents limits buckets history now) (key : String) :
    Represents limits (findBucket limits buckets key now).1 history now ∧
      match (findBucket limits buckets key now).2 with
      | none => (history.others limits key now).length = limits.maxPrincipals
      | some bucket => (findBucket limits buckets key now).1.get? key = some bucket ∧
          (history.others limits key now).length ≠ limits.maxPrincipals := by
  have hothers := h.others_length_le key
  have hbounded := h.bounded
  unfold findBucket
  cases hget : buckets.get? key with
  | some bucket =>
    have herase := length_erase_of_get? hget
    refine ⟨h.same (by rw [length_moveToEnd hget]; exact hbounded) (moveToEnd_same hget), ?_, by omega⟩
    rw [moveToEnd_same hget, hget]
  | none =>
    dsimp only
    -- a new bucket, where there is a place for it
    have hnew : ∀ {d : Buckets}, Represents limits d history now → d.get? key = none →
        d.items.length < limits.maxPrincipals → Represents limits (d.set key {}) history now := by
      intro d hd hnone hlt
      refine hd.replace (by rw [length_set_of_none hnone]; exact hlt) ?_ ?_
      · intro other
        unfold admissionsOf
        rw [Dict.get?_set]
        split
        · rename_i heq
          rw [← heq, hnone]
          exact .inl rfl
        · exact .inl rfl
      · intro other bucket hother
        rw [Dict.get?_set] at hother
        split at hother
        · rw [← Option.some.inj hother]
          rfl
        · exact hd.counted other bucket hother
    by_cases hfull : limits.maxPrincipals ≤ buckets.items.length
    · rw [if_pos hfull]
      have hevicted := evictIdle_represents h
      have hnone : (evictIdle limits now buckets).get? key = none := evictIdle_none hget
      rcases evictIdle_length limits buckets now with hlt | ⟨hlength, hbusy⟩
      · have hothers' := hevicted.others_length_le key
        have herase : ((evictIdle limits now buckets).erase key).items.length ≤
            (evictIdle limits now buckets).items.length := List.length_filter_le _ _
        rw [if_neg (by omega)]
        exact ⟨hnew hevicted hnone (by omega), Dict.get?_set_self _ _ _, by omega⟩
      · rw [if_pos (by omega)]
        refine ⟨hevicted, ?_⟩
        have herase : (buckets.erase key).items.length ≤ buckets.items.length := List.length_filter_le _ _
        -- every bucket's key is in the window, and none of them is this one
        have hall : buckets.keys ⊆ history.others limits key now := by
          intro other hother
          obtain ⟨bucket, hbucket⟩ := Option.ne_none_iff_exists'.mp ((Dict.mem_keys_iff _ _).mp hother)
          refine h.mem_others hbucket ?_ (hbusy other bucket hbucket)
          rintro rfl
          rw [hget] at hbucket
          cases hbucket
        have hle := ((show buckets.keys.Nodup from buckets.nodup).subperm hall).length_le
        rw [Dict.length_keys] at hle
        dsimp only
        omega
    · rw [if_neg hfull, if_neg hfull]
      have herase : (buckets.erase key).items.length ≤ buckets.items.length := List.length_filter_le _ _
      exact ⟨hnew h hget (by omega), Dict.get?_set_self _ _ _, by omega⟩

theorem Represents.set_prune (h : Represents limits buckets history now) {key : String} {bucket : Bucket}
    (hget : buckets.get? key = some bucket) :
    Represents limits (buckets.set key (bucket.prune limits now)) history now := by
  refine h.replace (by rw [length_set_of_some hget]; exact h.bounded) ?_ ?_
  · intro other
    unfold admissionsOf
    rw [Dict.get?_set]
    split
    · rename_i heq
      rw [← heq, hget]
      exact .inr (prune_admissions bucket limits now)
    · exact .inl rfl
  · intro other bucket' hother
    rw [Dict.get?_set] at hother
    split at hother
    · rw [← Option.some.inj hother]
      exact prune_counted (h.counted key bucket hget) limits now
    · exact h.counted other bucket' hother

theorem allow_spec (h : Represents limits buckets history now) (principal : String) (nbytes : Int) :
    answer limits buckets (.allow principal nbytes now) =
        recount limits history (.allow principal nbytes now) ∧
      Represents limits (step limits buckets (.allow principal nbytes now))
        (history.note (.allow principal nbytes now)
          (answer limits buckets (.allow principal nbytes now))) now := by
  unfold answer step recount allow
  dsimp only
  by_cases hoversized : limits.maxBytes < nbytes.toNat
  · rw [if_pos hoversized, if_pos hoversized]
    exact ⟨rfl, h⟩
  rw [if_neg hoversized, if_neg hoversized]
  obtain ⟨hfound, hbucket⟩ := findBucket_spec h (principalKey principal)
  cases hlookup : findBucket limits buckets (principalKey principal) now with
  | mk found bucket =>
    rw [hlookup] at hfound hbucket
    cases bucket with
    | none =>
      dsimp only at hbucket ⊢
      rw [if_pos hbucket]
      exact ⟨rfl, hfound⟩
    | some bucket =>
      obtain ⟨hget, hroom⟩ := hbucket
      dsimp only at hget hroom hfound ⊢
      rw [if_neg hroom]
      have hwindow := hfound.prune_window hget
      have hcounted := prune_counted (hfound.counted _ _ hget) limits now
      have hpruned := hfound.set_prune hget
      have hbytes : (limits.maxBytes : Int) < (bucket.prune limits now).totalBytes + nbytes.toNat ↔
          limits.maxBytes < bytesOf (history.window limits (principalKey principal) now) +
            nbytes.toNat := by
        rw [hcounted, hwindow]
        omega
      rw [hwindow]
      by_cases hevents : limits.maxEvents <
          (history.window limits (principalKey principal) now).length + 1
      · rw [if_pos hevents, if_pos hevents]
        exact ⟨rfl, hpruned⟩
      rw [if_neg hevents, if_neg hevents]
      by_cases hover : limits.maxBytes <
          bytesOf (history.window limits (principalKey principal) now) + nbytes.toNat
      · rw [if_pos hover, if_pos (hbytes.mpr hover)]
        exact ⟨rfl, hpruned⟩
      rw [if_neg hover, if_neg (mt hbytes.mp hover)]
      refine ⟨rfl, ?_⟩
      have hkept : Window.Keeps (stale limits now) (history.ofKey (principalKey principal))
          (history.window limits (principalKey principal) now) := by
        have hkept := hpruned.kept (principalKey principal)
        unfold admissionsOf at hkept
        rw [Dict.get?_set_self] at hkept
        exact hwindow ▸ hkept
      refine hfound.accept hkept ?_ ?_ ?_ ?_
      · rw [length_moveToEnd hget]
        exact hfound.bounded
      · unfold admissionsOf
        rw [get?_moveToEnd, if_pos rfl]
        rfl
      · intro other hne
        unfold admissionsOf
        rw [get?_moveToEnd, if_neg (Ne.symm hne)]
      · intro other bucket' hother
        rw [get?_moveToEnd] at hother
        split at hother
        · rw [← Option.some.inj hother]
          unfold Bucket.Counted
          dsimp only
          rw [hcounted, hwindow]
          unfold bytesOf
          simp
        · exact hfound.counted other bucket' hother

theorem usage_spec (h : Represents limits buckets history now) (principal : String) :
    answer limits buckets (.usage principal now) = recount limits history (.usage principal now) ∧
      Represents limits (step limits buckets (.usage principal now)) history now := by
  unfold answer step recount usage
  dsimp only
  cases hget : buckets.get? (principalKey principal) with
  | none =>
    dsimp only
    rw [h.window_absent hget]
    exact ⟨rfl, h⟩
  | some bucket =>
    dsimp only
    have hwindow := h.prune_window hget
    have hcounted := prune_counted (h.counted _ _ hget) limits now
    by_cases hidle : (bucket.prune limits now).admissions = []
    · rw [if_pos hidle]
      refine ⟨by rw [← hwindow, hidle]; rfl, h.replace ?_ ?_ ?_⟩
      · have hlength := length_erase_of_get? hget
        have hbounded := h.bounded
        dsimp only
        omega
      · intro other
        unfold admissionsOf
        by_cases heq : other = principalKey principal
        · rw [heq, Dict.get?_erase_self, hget]
          exact .inr (hidle.symm.trans (prune_admissions bucket limits now))
        · rw [Dict.get?_erase_ne _ heq]
          exact .inl rfl
      · intro other bucket' hother
        rw [Dict.get?_erase] at hother
        split at hother
        · cases hother
        · exact h.counted other bucket' hother
    · rw [if_neg hidle]
      dsimp only
      refine ⟨?_, h.set_prune hget⟩
      rw [hwindow, hcounted, hwindow]

end Find

/-! ## Runs represent their histories -/

/-- The readings of the clock are finite and never go back. -/
def Timely (calls : List Call) : Prop :=
  (∀ call ∈ calls, call.now.isFinite = true) ∧ calls.Pairwise fun a b => a.now ≤ b.now

theorem step_spec {limits : Limits} {buckets : Buckets} {history : History} {call : Call}
    (h : Represents limits buckets history call.now) :
    answer limits buckets call = recount limits history call ∧
      Represents limits (step limits buckets call)
        (history.note call (answer limits buckets call)) call.now := by
  cases call with
  | allow principal nbytes now => exact allow_spec h principal nbytes
  | usage principal now => exact usage_spec h principal

theorem represents_empty (limits : Limits) {now : Float} (h : now.isFinite = true) :
    Represents limits Dict.empty [] now where
  bounded := Nat.zero_le _
  kept := fun _ => Window.Keeps.nil
  counted := by
    intro key bucket hget
    cases hget
  ordered := .nil
  finite := h
  past := by simp

/-- Along a run the buckets represent the history that was noted. -/
theorem run_represents (limits : Limits) {calls : List Call} (hcalls : Timely calls) {buckets : Buckets}
    {history : History} {start now : Float} (h : Represents limits buckets history start)
    (hstart : ∀ call ∈ calls, start ≤ call.now) (hnow : now.isFinite = true)
    (hlast : ∀ call ∈ calls, call.now ≤ now) (hle : start ≤ now) :
    Represents limits (runCalls limits (buckets, history) calls).1
      (runCalls limits (buckets, history) calls).2 now := by
  induction calls generalizing buckets history start with
  | nil => exact h.advance hnow hle
  | cons call rest ih =>
    obtain ⟨hfinite, hpairwise⟩ := hcalls
    obtain ⟨hcall, hrest⟩ := List.pairwise_cons.mp hpairwise
    have hreading := h.advance (hfinite call List.mem_cons_self) (hstart call List.mem_cons_self)
    exact ih ⟨fun c hc => hfinite c (List.mem_cons_of_mem _ hc), hrest⟩ (step_spec hreading).2 hcall
      (fun c hc => hlast c (List.mem_cons_of_mem _ hc)) (hlast call List.mem_cons_self)

/-- The answers recounted along a run. -/
def recounts (limits : Limits) : History → List Call → List Answer
  | _, [] => []
  | history, call :: rest =>
    recount limits history call ::
      recounts limits (history.note call (recount limits history call)) rest

/-- The answers to a run depend on the history alone. -/
theorem answers_eq (limits : Limits) {calls : List Call} (hcalls : Timely calls) {buckets : Buckets}
    {history : History} {start : Float} (h : Represents limits buckets history start)
    (hstart : ∀ call ∈ calls, start ≤ call.now) :
    answers limits buckets calls = recounts limits history calls := by
  induction calls generalizing buckets history start with
  | nil => rfl
  | cons call rest ih =>
    obtain ⟨hfinite, hpairwise⟩ := hcalls
    obtain ⟨hcall, hrest⟩ := List.pairwise_cons.mp hpairwise
    obtain ⟨hanswer, hnext⟩ :=
      step_spec (h.advance (hfinite call List.mem_cons_self) (hstart call List.mem_cons_self))
    unfold answers recounts
    rw [← hanswer, ih ⟨fun c hc => hfinite c (List.mem_cons_of_mem _ hc), hrest⟩ hnext hcall]

/-! ## The quota is exact -/

/-- Where every place is taken by another key, this one has nothing in the window. -/
theorem Represents.window_of_full {limits : Limits} {buckets : Buckets} {history : History}
    {now : Float} (h : Represents limits buckets history now) {key : String}
    (hfull : (history.others limits key now).length = limits.maxPrincipals) :
    history.window limits key now = [] := by
  have hothers := h.others_length_le key
  have hbounded := h.bounded
  cases hget : buckets.get? key with
  | none => exact h.window_absent hget
  | some bucket =>
    have herase := length_erase_of_get? hget
    omega

theorem answer_iff {limits : Limits} {buckets : Buckets} {history : History} {now : Float}
    (h : Represents limits buckets history now) (principal : String) {nbytes : Int}
    (hcost : nbytes.toNat ≤ limits.maxBytes) :
    let window := history.window limits (principalKey principal) now
    let answered := answer limits buckets (.allow principal nbytes now)
    (answered = .allowed (some .principalCapacity) ↔
      (history.others limits (principalKey principal) now).length = limits.maxPrincipals) ∧
    (answered = .allowed (some .events) ↔ limits.maxEvents < window.length + 1) ∧
    (answered = .allowed (some .bytes) ↔
      window.length + 1 ≤ limits.maxEvents ∧ limits.maxBytes < bytesOf window + nbytes.toNat) := by
  intro window answered
  have hanswered : answered = recount limits history (.allow principal nbytes now) :=
    (allow_spec h principal nbytes).1
  have hempty := @Represents.window_of_full limits buckets history now h (principalKey principal)
  have hevents := limits.oneEvent
  rw [hanswered]
  unfold recount
  dsimp only
  rw [if_neg (Nat.not_lt.mpr hcost)]
  by_cases hfull : (history.others limits (principalKey principal) now).length = limits.maxPrincipals
  · have hwindow : window = [] := hempty hfull
    have hbytes : bytesOf window = 0 := by
      rw [hwindow]
      rfl
    have hlength : window.length = 0 := by
      rw [hwindow]
      rfl
    rw [if_pos hfull]
    refine ⟨iff_of_true rfl hfull, iff_of_false (by simp) (by omega), iff_of_false (by simp) ?_⟩
    rintro ⟨-, hover⟩
    omega
  · rw [if_neg hfull]
    by_cases hmany : limits.maxEvents < window.length + 1
    · rw [if_pos hmany]
      exact ⟨iff_of_false (by simp) hfull, iff_of_true rfl hmany,
        iff_of_false (by simp) fun hboth => Nat.not_lt.mpr hboth.1 hmany⟩
    · rw [if_neg hmany]
      by_cases hover : limits.maxBytes < bytesOf window + nbytes.toNat
      · rw [if_pos hover]
        exact ⟨iff_of_false (by simp) hfull, iff_of_false (by simp) hmany,
          iff_of_true rfl ⟨Nat.not_lt.mp hmany, hover⟩⟩
      · rw [if_neg hover]
        exact ⟨iff_of_false (by simp) hfull, iff_of_false (by simp) hmany,
          iff_of_false (by simp) fun hboth => hover hboth.2⟩

/-- The answers are those recounted from the history of the run: for capacity exactly when every
place is taken by another key in the window, for events exactly when one more would be too many, and
for bytes exactly when it would not but the bytes would. No run keeps more buckets than principals,
and a call that is not admitted changes no later answer. -/
theorem ingress_quota_exact (limits : Limits) {pre post : List Call} {call : Call}
    (hcalls : Timely (pre ++ call :: post)) :
    let buckets := (runCalls limits (Dict.empty, []) pre).1
    let history := (runCalls limits (Dict.empty, []) pre).2
    (∀ principal nbytes now, call = .allow principal nbytes now → nbytes.toNat ≤ limits.maxBytes →
      let window := history.window limits (principalKey principal) now
      (answer limits buckets call = .allowed (some .principalCapacity) ↔
        (history.others limits (principalKey principal) now).length = limits.maxPrincipals) ∧
      (answer limits buckets call = .allowed (some .events) ↔ limits.maxEvents < window.length + 1) ∧
      (answer limits buckets call = .allowed (some .bytes) ↔ window.length + 1 ≤ limits.maxEvents ∧
        limits.maxBytes < bytesOf window + nbytes.toNat)) ∧
    (step limits buckets call).items.length ≤ limits.maxPrincipals ∧
    (answer limits buckets call ≠ .allowed none →
      answers limits (step limits buckets call) post = answers limits buckets post) := by
  intro buckets history
  obtain ⟨hfinite, hpairwise⟩ := hcalls
  obtain ⟨hpre, hpost, hbefore⟩ := List.pairwise_append.mp hpairwise
  obtain ⟨hafter, hpost⟩ := List.pairwise_cons.mp hpost
  have hnow : call.now.isFinite = true := hfinite call (by simp)
  have hself : call.now ≤ call.now := Ieee.le_refl (Ieee.isFinite_isNaN hnow)
  have hrun : Represents limits buckets history call.now := by
    cases pre with
    | nil => exact represents_empty limits hnow
    | cons first rest =>
      have hfirst : first.now.isFinite = true := hfinite first (by simp)
      refine run_represents limits ⟨fun c hc => hfinite c (List.mem_append_left _ hc), hpre⟩
        (represents_empty limits hfirst) ?_ hnow (fun c hc => hbefore c hc call List.mem_cons_self)
        (hbefore first List.mem_cons_self call List.mem_cons_self)
      intro c hc
      rcases List.mem_cons.mp hc with rfl | hc
      · exact Ieee.le_refl (Ieee.isFinite_isNaN hfirst)
      · exact (List.pairwise_cons.mp hpre).1 c hc
  obtain ⟨-, hnext⟩ := step_spec hrun
  refine ⟨?_, hnext.bounded, ?_⟩
  · rintro principal nbytes now rfl hcost
    exact answer_iff hrun principal hcost
  · intro hrefused
    have hnote : history.note call (answer limits buckets call) = history := by
      unfold History.note
      split
      · rename_i heq
        exact absurd heq hrefused
      · rfl
    rw [hnote] at hnext
    have htimely : Timely post := ⟨fun c hc => hfinite c (by simp [hc]), hpost⟩
    rw [answers_eq limits htimely hnext hafter, answers_eq limits htimely hrun hafter]

section Both

/-- One event and ten bytes a minute, for one principal. -/
def tightLimits : Limits := .init 1 10 60 1

theorem ingress_quota_exact_events :
    answer tightLimits (runCalls tightLimits (Dict.empty, []) [.allow "a" 4 0]).1 (.allow "a" 1 0) =
      .allowed (some .events) := by
  have hexact := (@ingress_quota_exact tightLimits [.allow "a" 4 0] [] (.allow "a" 1 0)
    ⟨by decide, by decide⟩).1 "a" 1 0 rfl (by decide)
  exact hexact.2.1.mpr (by decide +kernel)

/-- The bytes would exceed their bound, and the refusal is for events. -/
theorem events_before_bytes :
    Timely [.allow "a" 10 0, .allow "a" 1 0] ∧
      let state := runCalls tightLimits (Dict.empty, []) [.allow "a" 10 0]
      tightLimits.maxBytes < bytesOf (state.2.window tightLimits "a" 0) + 1 ∧
      answer tightLimits state.1 (.allow "a" 1 0) ≠ .allowed (some .bytes) := by
  exact ⟨⟨by decide, by decide⟩, by decide +kernel, by decide +kernel⟩

end Both

end DurableIngress

end SynapseChannel
