import SynapseChannel.Core.MessageAuth

/-!
# Core — ReplayGuard

Processes that verify frames over replay caches: one cache in memory, or any
number behind one durable ledger, started and restarted at any point. The
store that decides the admissions follows the replay window.
-/

namespace SynapseChannel.MessageAuth

open Py ReplayWindow

/-! ## Processes -/

inductive Verification where
  | frame (message : Members) (keys : Dict String MessageAuthKey) (requiredSender : String)
  | event (message : Members) (keys : Dict String EventSignatureKey)
      (requiredSender requiredProject : String)

/-- What a process opens its cache with. -/
structure Settings where
  windowSeconds : Float
  maxEntries : Int
  futureSkewSeconds : Float
  durable : Option DurableMessageAuthReplayStore
  sequenceFloorMode : SequenceFloorMode

def Settings.cache (c : Settings) : MessageReplayCache :=
  .new c.windowSeconds c.maxEntries c.futureSkewSeconds c.durable c.sequenceFloorMode

structure System where
  ledger : Ledger := {}
  caches : List MessageReplayCache

inductive Op where
  | verify (place : Nat) (call : Verification) (now : Float) (fault : Option DriverFault)
  | start (settings : Settings)
  | restart (place : Nat) (settings : Settings)

def Op.reading : Op → Option Float
  | .verify _ _ now _ => some now
  | _ => none

section Calls

variable [Builtins] [EventSignatures]

/-- What the call asks the cache to admit, if it passes the checks before. -/
def Verification.admission (call : Verification) (cache : MessageReplayCache) (now : Float) :
    Option Admission :=
  match call with
  | .frame message keys requiredSender =>
    match checkFrame message keys cache now requiredSender with
    | .ok (.ok a) => some a
    | _ => none
  | .event message keys requiredSender requiredProject =>
    match checkEvent message keys cache now requiredSender requiredProject with
    | .ok (.ok a) => some a
    | _ => none

/-- Whether the call answers that the frame is authentic, and what it leaves behind. -/
def Verification.run (call : Verification) (cache : MessageReplayCache) (ledger : Ledger)
    (now : Float) (fault : Option DriverFault) : Bool × MessageReplayCache × Ledger :=
  match call with
  | .frame message keys requiredSender =>
    let (result, cache', ledger') := verifyFrame message keys cache ledger now requiredSender fault
    (match result with
      | .ok .ok => true
      | _ => false, cache', ledger')
  | .event message keys requiredSender requiredProject =>
    let (result, cache', ledger') :=
      verifyEventSignature message keys cache ledger now requiredSender requiredProject fault
    (match result with
      | .ok .valid => true
      | _ => false, cache', ledger')

namespace System

def step (s : System) : Op → System
  | .verify place call now fault =>
    match s.caches[place]? with
    | none => s
    | some cache =>
      let (_, cache', ledger') := call.run cache s.ledger now fault
      { ledger := ledger', caches := s.caches.set place cache' }
  | .start settings => { s with caches := s.caches ++ [settings.cache] }
  | .restart place settings => { s with caches := s.caches.set place settings.cache }

/-- What the step reports as authentic. -/
def accepted (s : System) : Op → Option (Acceptance Identity (String × String) Float Float)
  | .verify place call now fault =>
    match s.caches[place]? with
    | none => none
    | some cache =>
      if (call.run cache s.ledger now fault).1 then
        (call.admission cache now).map fun a =>
          ⟨a.identity, a.identity.floorKey, a.sequence, a.timestamp, now⟩
      else none
  | _ => none

end System

end Calls

/-! ## The store that decides -/

def Ledger.memory (ledger : Ledger) : Memory Identity (String × String) Float where
  held id := (ledger.nonces.get? id).map (·.authTimestamp)
  floors := ledger.floor

def MessageReplayCache.memory (cache : MessageReplayCache) :
    Memory Identity (String × String) Float where
  held := cache.entries.get?
  floors := cache.floors.get?

inductive Deployment where
  | inMemory
  | durable
  deriving DecidableEq

def System.memory (s : System) : Deployment → Memory Identity (String × String) Float
  | .inMemory => ((s.caches.head?).map (·.memory)).getD ⟨fun _ => none, fun _ => none⟩
  | .durable => s.ledger.memory

/-- A cache in memory of this window, or one behind a durable store of the same. -/
def Cached (d : Deployment) (w : Float) (cache : MessageReplayCache) : Prop :=
  cache.windowSeconds = w ∧
    match d with
    | .inMemory => cache.durable = none
    | .durable => ∃ store, cache.durable = some store ∧ store.windowSeconds = w

/-- One cache in memory, or any number behind the ledger; with `ordered`, all of them enforce
the sequence floors. -/
structure Deployed (d : Deployment) (w : Float) (ordered : Prop) (s : System) : Prop where
  cached : ∀ cache ∈ s.caches, Cached d w cache
  lone : d = .inMemory → s.caches.length = 1
  strict : ordered → ∀ cache ∈ s.caches, cache.sequenceFloorMode = .strict

/-- What can happen to a deployment: a cache in memory is not restarted, for it would
forget; a process behind the ledger opens a cache of the same window. -/
def Allowed (d : Deployment) (w : Float) (ordered : Prop) : Op → Prop
  | .verify _ _ _ _ => True
  | .start settings =>
    d = .durable ∧ Cached .durable w settings.cache ∧
      (ordered → settings.sequenceFloorMode = .strict)
  | .restart _ settings =>
    d = .durable ∧ Cached .durable w settings.cache ∧
      (ordered → settings.sequenceFloorMode = .strict)

/-- Outside the window: what an eviction drops and the freshness test refuses. -/
def Stale (w : Float) (timestamp now : Float) : Prop := timestamp < now - w

/-! ## One admission -/

theorem lt_of_raises {floor sequence : Int} (h : raises (some floor) sequence = true) :
    floor < sequence := by
  simpa [raises] using h

theorem held_deleteBefore (ledger : Ledger) (w now : Float) (id : Identity) (t : Float) :
    (ledger.deleteBefore (now - w)).memory.held id = some t ↔
      ledger.memory.held id = some t ∧ ¬ Stale w t now := by
  unfold Ledger.memory Ledger.deleteBefore
  dsimp only
  rw [Dict.get?_filterMapValues]
  cases ledger.nonces.get? id with
  | none => simp
  | some row =>
    by_cases hstale : row.authTimestamp < now - w
    · simp only [Option.bind_some, if_pos hstale, Option.map_none, Option.map_some]
      constructor
      · intro h
        cases h
      · rintro ⟨h, hfresh⟩
        cases h
        exact absurd hstale hfresh
    · simp only [Option.bind_some, if_neg hstale, Option.map_some, Option.some.injEq]
      constructor
      · rintro rfl
        exact ⟨rfl, hstale⟩
      · exact And.left

theorem held_evict (cache : MessageReplayCache) (now : Float) (id : Identity) (t : Float) :
    (cache.evict now).memory.held id = some t ↔
      cache.memory.held id = some t ∧ ¬ Stale cache.windowSeconds t now := by
  show (cache.entries.filterMapValues _).get? id = some t ↔ cache.entries.get? id = some t ∧ _
  rw [Dict.get?_filterMapValues]
  cases cache.entries.get? id with
  | none => simp
  | some known =>
    by_cases hstale : known < now - cache.windowSeconds
    · simp only [Option.bind_some, if_pos hstale]
      constructor
      · intro h
        cases h
      · rintro ⟨h, hfresh⟩
        cases h
        exact absurd hstale hfresh
    · simp only [Option.bind_some, if_neg hstale, Option.some.injEq]
      constructor
      · rintro rfl
        exact ⟨rfl, hstale⟩
      · exact And.left

theorem admitted_insert {ledger ledger' : Ledger} {w : Float} {id : Identity} {sequence : Int}
    {timestamp now : Float} {mode : SequenceFloorMode} {ordered : Prop}
    (hmode : ordered → mode = .strict)
    (hnew : (ledger.deleteBefore (now - w)).nonces.get? id = none)
    (hraises : mode = .strict → raises (ledger.floor id.floorKey) sequence = true)
    (h : (ledger.deleteBefore (now - w)).insert id sequence timestamp now mode = some ledger') :
    Admitted (Stale w) ordered ledger.memory ledger'.memory
      ⟨id, id.floorKey, sequence, timestamp, now⟩ := by
  have hheld : ∀ id' t, ledger'.memory.held id' = some t ↔
      if id = id' then t = timestamp
      else (ledger.deleteBefore (now - w)).memory.held id' = some t := by
    intro id' t
    have hnonces : ledger'.nonces =
        (ledger.deleteBefore (now - w)).nonces.set id ⟨sequence, timestamp⟩ := by
      unfold Ledger.insert at h
      split at h
      · cases h
      · split at h
        · split at h
          · cases h
          · cases h
            rfl
        · cases h
          rfl
    show (ledger'.nonces.get? id').map (·.authTimestamp) = some t ↔ _
    rw [hnonces, Dict.get?_set]
    split
    · simp only [Option.map_some, Option.some.injEq]
      exact eq_comm
    · exact Iff.rfl
  have hfloors : ∀ k, ledger'.floor k =
      if mode ≠ .off ∧ raises (ledger.floor id.floorKey) sequence = true ∧ id.floorKey = k then
        some sequence
      else ledger.floor k := by
    intro k
    unfold Ledger.insert at h
    split at h
    · cases h
    · split at h
      · rename_i hraise
        split at h
        · cases h
        · cases h
          show ((ledger.floors.set id.floorKey ⟨sequence, now⟩).get? k).map (·.floorSequence) = _
          rw [Dict.get?_set]
          by_cases hkey : id.floorKey = k
          · rw [if_pos hkey, if_pos ⟨hraise.1, hraise.2, hkey⟩]
            rfl
          · rw [if_neg hkey, if_neg (fun hall => hkey hall.2.2)]
            rfl
      · rename_i hraise
        cases h
        rw [if_neg (fun hall => hraise ⟨hall.1, hall.2.1⟩)]
        rfl
  constructor
  · intro t ht
    by_contra hfresh
    have hlive := (held_deleteBefore ledger w now id t).mpr ⟨ht, hfresh⟩
    change ((ledger.deleteBefore (now - w)).nonces.get? id).map (·.authTimestamp) = some t at hlive
    rw [hnew] at hlive
    cases hlive
  · exact (hheld id timestamp).mpr (by rw [if_pos rfl])
  · intro id' hid t
    rw [hheld id' t, if_neg (Ne.symm hid)]
    exact held_deleteBefore ledger w now id' t
  · intro hordered f hf
    have hup := hraises (hmode hordered)
    change ledger.floor id.floorKey = some f at hf
    rw [hf] at hup
    exact lt_of_raises hup
  · intro hordered
    have hstrict := hmode hordered
    show ledger'.floor id.floorKey = some sequence
    rw [hfloors, if_pos ⟨by rw [hstrict]; decide, hraises hstrict, rfl⟩]
  · intro k hk
    show ledger'.floor k = ledger.floor k
    rw [hfloors, if_neg (fun hall => hk hall.2.2.symm)]

/-- A durable admission, or a refusal that leaves the ledger or hides an admission. -/
theorem step_store {store : DurableMessageAuthReplayStore} {w : Float}
    (hw : store.windowSeconds = w) (ledger : Ledger) (id : Identity) (sequence : Int)
    (timestamp now : Float) {mode : SequenceFloorMode} (fault : Option DriverFault)
    {ordered : Prop} (hmode : ordered → mode = .strict)
    {result : Except StoreFailure DurableAdmitResult} {ledger' : Ledger}
    (h : store.admitOne ledger id sequence timestamp now mode fault = (result, ledger')) :
    Step (Stale w) ordered (some now) ledger.memory
      (match result with
        | .ok .accepted => some ⟨id, id.floorKey, sequence, timestamp, now⟩
        | _ => none) ledger'.memory := by
  unfold DurableMessageAuthReplayStore.admitOne at h
  rw [hw] at h
  split at h
  · cases h
    exact .idle _ _
  · split at h
    · cases h
      exact .idle _ _
    · dsimp only at h
      split at h
      · cases h
        exact .idle _ _
      · rename_i hnew
        split at h
        · cases h
          exact .idle _ _
        · rename_i hfloor
          split at h
          · cases h
            exact .idle _ _
          · split at h
            · cases h
              exact .idle _ _
            · rename_i ledger'' hinsert
              have hadmitted : Admitted (Stale w) ordered ledger.memory ledger''.memory
                  ⟨id, id.floorKey, sequence, timestamp, now⟩ := by
                refine admitted_insert hmode ?_ ?_ hinsert
                · simpa [Dict.contains] using hnew
                · intro hstrict
                  by_contra hlow
                  exact hfloor ⟨hstrict, Bool.eq_false_of_not_eq_true hlow⟩
              by_cases hlost : fault = some .committed
              · rw [if_pos hlost] at h
                cases h
                exact .unanswered hadmitted
              · rw [if_neg hlost] at h
                cases h
                exact .admitted hadmitted

/-! ## One verification -/

/-- A cache behind a durable store steps as the ledger does. -/
theorem step_admit_durable {cache cache' : MessageReplayCache} {w : Float} {ledger ledger' : Ledger}
    (hcached : Cached .durable w cache) {id : Identity} {sequence : Int} {timestamp now : Float}
    {fault : Option DriverFault} {ordered : Prop}
    (hmode : ordered → cache.sequenceFloorMode = .strict) {result : Option VerificationResult}
    (h : cache.admitOne ledger id sequence timestamp now fault = (result, cache', ledger')) :
    Step (Stale w) ordered (some now) ledger.memory
      (if result = none then some ⟨id, id.floorKey, sequence, timestamp, now⟩ else none)
      ledger'.memory := by
  obtain ⟨hw, store, hstore, hwindow⟩ := hcached
  unfold MessageReplayCache.admitOne at h
  rw [hstore] at h
  dsimp only at h
  generalize hadmit : store.admitOne ledger id sequence timestamp now cache.sequenceFloorMode fault = r
    at h
  obtain ⟨answer, ledger''⟩ := r
  have hstep := step_store hwindow ledger id sequence timestamp now fault hmode hadmit
  cases answer with
  | error failure =>
    cases h
    exact hstep
  | ok answer =>
    cases answer <;> cases h <;> exact hstep

theorem evict_windowSeconds (cache : MessageReplayCache) (now : Float) :
    (cache.evict now).windowSeconds = cache.windowSeconds := rfl

theorem length_evict_le (cache : MessageReplayCache) (now : Float) :
    (cache.evict now).entries.keys.length ≤ cache.entries.keys.length := by
  exact (Dict.keys_filterMap_sublist
    (fun timestamp => if timestamp < now - cache.windowSeconds then none else some timestamp)
    cache.entries.items).length_le

theorem recordMemory_new {cache : MessageReplayCache} {id : Identity} {now : Float}
    (hnew : (cache.evict now).entries.get? id = none)
    (hroom : (cache.evict now).entries.keys.length < cache.maxEntries) (sequence : Int)
    (timestamp : Float) (requireCapacity : Bool) :
    (cache.recordMemory id sequence timestamp now requireCapacity).entries =
        (cache.evict now).entries.set id timestamp ∧
      (cache.recordMemory id sequence timestamp now requireCapacity).floors =
        if cache.sequenceFloorMode ≠ .off ∧
            raises (cache.floors.get? id.floorKey) sequence then
          cache.floors.set id.floorKey sequence
        else cache.floors := by
  have hremember : (cache.evict now).remember id timestamp requireCapacity =
      some ((cache.evict now).entries.set id timestamp) := by
    unfold MessageReplayCache.remember
    rw [hnew]
    exact if_pos hroom
  unfold MessageReplayCache.recordMemory
  dsimp only
  rw [hremember]
  exact ⟨rfl, rfl⟩

/-- A cache in memory steps by itself, and no other cache or ledger with it. -/
theorem step_admit_memory {cache cache' : MessageReplayCache} {w : Float} {ledger ledger' : Ledger}
    (hcached : Cached .inMemory w cache) {id : Identity} {sequence : Int} {timestamp now : Float}
    {fault : Option DriverFault} {ordered : Prop}
    (hmode : ordered → cache.sequenceFloorMode = .strict) {result : Option VerificationResult}
    (h : cache.admitOne ledger id sequence timestamp now fault = (result, cache', ledger')) :
    Step (Stale w) ordered (some now) cache.memory
      (if result = none then some ⟨id, id.floorKey, sequence, timestamp, now⟩ else none)
      cache'.memory := by
  obtain ⟨hw, hstore⟩ := hcached
  have hevicted : Evicted (Stale w) now cache.memory.held (cache.evict now).memory.held := by
    intro id' t
    rw [held_evict, hw]
  unfold MessageReplayCache.admitOne at h
  rw [hstore] at h
  dsimp only at h
  split at h
  · cases h
    exact .forgot now hevicted rfl
  · rename_i hfloor
    split at h
    · cases h
      exact .forgot now hevicted rfl
    · rename_i hnew
      split at h
      · cases h
        exact .forgot now hevicted rfl
      · rename_i hroom
        -- The second eviction, at the same reading, finds nothing more.
        have htwice : ∀ id' t, ((cache.evict now).evict now).entries.get? id' = some t ↔
            cache.memory.held id' = some t ∧ ¬ Stale w t now := by
          intro id' t
          have hagain := held_evict (cache.evict now) now id' t
          rw [evict_windowSeconds, hw, hevicted id' t, and_assoc, and_self] at hagain
          exact hagain
        have hnone : ((cache.evict now).evict now).entries.get? id = none := by
          cases hfound : ((cache.evict now).evict now).entries.get? id with
          | none => rfl
          | some t =>
            have hlive := (hevicted id t).mpr ((htwice id t).mp hfound)
            change (cache.evict now).entries.get? id = some t at hlive
            exfalso
            apply hnew
            unfold Dict.contains
            rw [hlive]
            rfl
        have hlength := length_evict_le (cache.evict now) now
        obtain ⟨hentries, hfloors⟩ :=
          recordMemory_new hnone (Nat.lt_of_le_of_lt hlength (Nat.lt_of_not_le hroom)) sequence
            timestamp true
        cases h
        rw [if_pos rfl]
        refine .admitted (a := ⟨id, id.floorKey, sequence, timestamp, now⟩) ⟨?_, ?_, ?_, ?_, ?_, ?_⟩
        · intro t ht
          by_contra hfresh
          rw [(htwice id t).mpr ⟨ht, hfresh⟩] at hnone
          cases hnone
        · show (((cache.evict now).recordMemory id sequence timestamp now true).entries).get? id = _
          rw [hentries, Dict.get?_set_self]
        · intro id' hid t
          show (((cache.evict now).recordMemory id sequence timestamp now true).entries).get? id' =
            some t ↔ _
          rw [hentries, Dict.get?_set_ne _ _ (Ne.symm hid)]
          exact htwice id' t
        · intro hordered f hf
          have hraises : raises (cache.floors.get? id.floorKey) sequence = true := by
            by_contra hlow
            exact hfloor ⟨hmode hordered, Bool.eq_false_of_not_eq_true hlow⟩
          change cache.floors.get? id.floorKey = some f at hf
          rw [hf] at hraises
          exact lt_of_raises hraises
        · intro hordered
          have hraises : raises (cache.floors.get? id.floorKey) sequence = true := by
            by_contra hlow
            exact hfloor ⟨hmode hordered, Bool.eq_false_of_not_eq_true hlow⟩
          have hon : (cache.evict now).sequenceFloorMode ≠ .off := by
            show cache.sequenceFloorMode ≠ .off
            rw [hmode hordered]
            decide
          show (((cache.evict now).recordMemory id sequence timestamp now true).floors).get?
            id.floorKey = some sequence
          rw [hfloors, if_pos ⟨hon, hraises⟩]
          exact Dict.get?_set_self _ _ _
        · intro k hk
          show (((cache.evict now).recordMemory id sequence timestamp now true).floors).get? k =
            cache.floors.get? k
          rw [hfloors]
          split
          · exact Dict.get?_set_ne _ _ (Ne.symm hk)
          · rfl

theorem admit_ne_ok {cache cache' : MessageReplayCache} {ledger ledger' : Ledger} {id : Identity}
    {sequence : Int} {timestamp now : Float} {fault : Option DriverFault}
    {result : Option VerificationResult}
    (h : cache.admitOne ledger id sequence timestamp now fault = (result, cache', ledger')) :
    result ≠ some .ok := by
  unfold MessageReplayCache.admitOne at h
  split at h
  · split at h <;> cases h <;> decide
  · dsimp only at h
    split at h
    · cases h
      decide
    · split at h
      · cases h
        decide
      · split at h
        · cases h
          decide
        · cases h
          decide

theorem admit_keeps {cache cache' : MessageReplayCache} {ledger ledger' : Ledger} {id : Identity}
    {sequence : Int} {timestamp now : Float} {fault : Option DriverFault}
    {result : Option VerificationResult}
    (h : cache.admitOne ledger id sequence timestamp now fault = (result, cache', ledger')) :
    cache'.windowSeconds = cache.windowSeconds ∧ cache'.durable = cache.durable ∧
      cache'.sequenceFloorMode = cache.sequenceFloorMode := by
  have hrecord : ∀ (c : MessageReplayCache) (capacity : Bool),
      (c.recordMemory id sequence timestamp now capacity).windowSeconds = c.windowSeconds ∧
      (c.recordMemory id sequence timestamp now capacity).durable = c.durable ∧
      (c.recordMemory id sequence timestamp now capacity).sequenceFloorMode =
        c.sequenceFloorMode := by
    intro c capacity
    unfold MessageReplayCache.recordMemory
    dsimp only
    split <;> exact ⟨rfl, rfl, rfl⟩
  unfold MessageReplayCache.admitOne at h
  split at h
  · split at h <;> cases h
    · exact ⟨rfl, rfl, rfl⟩
    · exact ⟨rfl, rfl, rfl⟩
    · exact ⟨rfl, rfl, rfl⟩
    · exact ⟨rfl, rfl, rfl⟩
    · exact hrecord cache false
  · dsimp only at h
    split at h
    · cases h
      exact ⟨rfl, rfl, rfl⟩
    · split at h
      · cases h
        exact ⟨rfl, rfl, rfl⟩
      · split at h
        · cases h
          exact ⟨rfl, rfl, rfl⟩
        · cases h
          exact hrecord (cache.evict now) true

section Verified

variable [Builtins] [EventSignatures]

omit [EventSignatures] in
theorem checkFrame_ne_ok (message : Members) (keys : Dict String MessageAuthKey)
    (cache : MessageReplayCache) (now : Float) (requiredSender : String) :
    checkFrame message keys cache now requiredSender ≠ .ok (.error .ok) := by
  fun_cases checkFrame message keys cache now requiredSender <;> intro h <;> cases h

omit [EventSignatures] in
theorem signedPayload_ne_valid (message signature : Members) :
    signedPayload message signature ≠ .error .valid := by
  fun_cases signedPayload message signature <;> intro h <;> cases h

theorem checkEvent_ne_valid (message : Members) (keys : Dict String EventSignatureKey)
    (cache : MessageReplayCache) (now : Float) (requiredSender requiredProject : String) :
    checkEvent message keys cache now requiredSender requiredProject ≠ .ok (.error .valid) := by
  fun_cases checkEvent message keys cache now requiredSender requiredProject <;> intro h <;>
    try (cases h; done)
  injection h with h
  injection h with h
  subst h
  exact signedPayload_ne_valid _ _ ‹_›

omit [EventSignatures] in
/-- Only a frame inside the window reaches an admission. -/
theorem checkFrame_fresh {message : Members} {keys : Dict String MessageAuthKey}
    {cache : MessageReplayCache} {now : Float} {requiredSender : String} {a : Admission} :
    checkFrame message keys cache now requiredSender = .ok (.ok a) →
      outsideWindow cache a.timestamp now = false := by
  fun_cases checkFrame message keys cache now requiredSender <;> intro h <;> cases h
  exact Bool.eq_false_of_not_eq_true ‹_›

theorem checkEvent_fresh {message : Members} {keys : Dict String EventSignatureKey}
    {cache : MessageReplayCache} {now : Float} {requiredSender requiredProject : String}
    {a : Admission} :
    checkEvent message keys cache now requiredSender requiredProject = .ok (.ok a) →
      outsideWindow cache a.timestamp now = false := by
  fun_cases checkEvent message keys cache now requiredSender requiredProject <;> intro h <;>
    cases h
  exact Bool.eq_false_of_not_eq_true ‹_›

theorem admission_fresh {call : Verification} {cache : MessageReplayCache} {now : Float}
    {a : Admission} (h : call.admission cache now = some a) :
    outsideWindow cache a.timestamp now = false := by
  cases call with
  | frame message keys requiredSender =>
    unfold Verification.admission at h
    dsimp only at h
    split at h
    · rename_i hcheck
      cases h
      exact checkFrame_fresh hcheck
    · cases h
  | event message keys requiredSender requiredProject =>
    unfold Verification.admission at h
    dsimp only at h
    split at h
    · rename_i hcheck
      cases h
      exact checkEvent_fresh hcheck
    · cases h

/-- A verification that reaches no admission changes nothing; one that does answers as its
admission did. -/
theorem run_spec (call : Verification) (cache : MessageReplayCache) (ledger : Ledger)
    (now : Float) (fault : Option DriverFault) :
    match call.admission cache now with
    | none => call.run cache ledger now fault = (false, cache, ledger)
    | some a =>
      let (result, cache', ledger') :=
        cache.admitOne ledger a.identity a.sequence a.timestamp now fault
      call.run cache ledger now fault = (decide (result = none), cache', ledger') := by
  cases call with
  | frame message keys requiredSender =>
    unfold Verification.admission Verification.run verifyFrame
    dsimp only
    have hrefusal := checkFrame_ne_ok message keys cache now requiredSender
    cases hcheck : checkFrame message keys cache now requiredSender with
    | error raised => rfl
    | ok checked =>
      cases checked with
      | error refusal =>
        rw [hcheck] at hrefusal
        cases refusal <;> first | rfl | exact absurd rfl hrefusal
      | ok a =>
        dsimp only
        generalize hadmit : cache.admitOne ledger a.identity a.sequence a.timestamp now fault = r
        obtain ⟨result, cache', ledger'⟩ := r
        have hne := admit_ne_ok hadmit
        cases result with
        | none => rfl
        | some result =>
          cases result <;> first | rfl | exact absurd rfl hne
  | event message keys requiredSender requiredProject =>
    unfold Verification.admission Verification.run verifyEventSignature
    dsimp only
    have hrefusal := checkEvent_ne_valid message keys cache now requiredSender requiredProject
    cases hcheck : checkEvent message keys cache now requiredSender requiredProject with
    | error raised => rfl
    | ok checked =>
      cases checked with
      | error refusal =>
        rw [hcheck] at hrefusal
        cases refusal <;> first | rfl | exact absurd rfl hrefusal
      | ok a =>
        dsimp only
        generalize cache.admitOne ledger a.identity a.sequence a.timestamp now fault = r
        obtain ⟨result, cache', ledger'⟩ := r
        cases result with
        | none => rfl
        | some result => cases result <;> rfl

/-! ## Runs -/

namespace System

theorem step_verify {d : Deployment} {w : Float} {ordered : Prop} {s : System}
    (hdeployed : Deployed d w ordered s) (place : Nat) (call : Verification) (now : Float)
    (fault : Option DriverFault) :
    ReplayWindow.Step (Stale w) ordered (some now) (s.memory d)
      (s.accepted (.verify place call now fault))
      ((s.step (.verify place call now fault)).memory d) := by
  unfold step accepted
  dsimp only
  cases hplace : s.caches[place]? with
  | none => exact .idle _ _
  | some cache =>
    dsimp only
    have hmem : cache ∈ s.caches := List.mem_of_getElem? hplace
    have hcached := hdeployed.cached cache hmem
    have hmode : ordered → cache.sequenceFloorMode = .strict :=
      fun hordered => hdeployed.strict hordered cache hmem
    have hrun := run_spec call cache s.ledger now fault
    cases hadmission : call.admission cache now with
    | none =>
      rw [hadmission] at hrun
      dsimp only at hrun
      rw [hrun]
      obtain ⟨hlt, hget⟩ := List.getElem?_eq_some_iff.mp hplace
      have hsame : s.caches.set place cache = s.caches := by
        rw [← hget]
        exact List.set_getElem_self hlt
      rw [if_neg Bool.false_ne_true]
      dsimp only
      rw [hsame]
      exact .idle _ _
    | some a =>
      rw [hadmission] at hrun
      dsimp only at hrun
      generalize hadmit : cache.admitOne s.ledger a.identity a.sequence a.timestamp now fault = r
        at hrun
      obtain ⟨result, cache', ledger'⟩ := r
      dsimp only at hrun
      rw [hrun]
      simp only [decide_eq_true_eq, Option.map_some]
      cases d with
      | durable => exact step_admit_durable hcached hmode hadmit
      | inMemory =>
        obtain ⟨c, hc⟩ := List.length_eq_one_iff.mp (hdeployed.lone rfl)
        rw [hc] at hplace
        have hzero : place = 0 := by
          have := (List.getElem?_eq_some_iff.mp hplace).1
          simpa using this
        subst hzero
        have hcache : c = cache := by simpa using hplace
        subst hcache
        have hstep := step_admit_memory hcached hmode hadmit
        unfold System.memory
        rw [hc]
        exact hstep

theorem step_deployed {d : Deployment} {w : Float} {ordered : Prop} {s : System} {op : Op}
    (hdeployed : Deployed d w ordered s) (hallowed : Allowed d w ordered op) :
    Deployed d w ordered (s.step op) := by
  have hset : ∀ {P : MessageReplayCache → Prop} {place : Nat} {cache' : MessageReplayCache},
      (∀ cache ∈ s.caches, P cache) → P cache' → ∀ cache ∈ s.caches.set place cache', P cache := by
    intro P place cache' hall hnew cache hcache
    rcases List.mem_or_eq_of_mem_set hcache with hold | rfl
    · exact hall cache hold
    · exact hnew
  cases op with
  | verify place call now fault =>
    unfold step
    dsimp only
    cases hplace : s.caches[place]? with
    | none => exact hdeployed
    | some cache =>
      dsimp only
      have hmem : cache ∈ s.caches := List.mem_of_getElem? hplace
      have hkeeps : ∀ {answer cache' ledger'},
          call.run cache s.ledger now fault = (answer, cache', ledger') →
          cache'.windowSeconds = cache.windowSeconds ∧ cache'.durable = cache.durable ∧
            cache'.sequenceFloorMode = cache.sequenceFloorMode := by
        intro answer cache' ledger' h
        have hrun := run_spec call cache s.ledger now fault
        cases hadmission : call.admission cache now with
        | none =>
          rw [hadmission] at hrun
          rw [hrun] at h
          cases h
          exact ⟨rfl, rfl, rfl⟩
        | some a =>
          rw [hadmission] at hrun
          dsimp only at hrun
          generalize hadmit : cache.admitOne s.ledger a.identity a.sequence a.timestamp now fault = r
            at hrun
          obtain ⟨result, cache'', ledger''⟩ := r
          rw [hrun] at h
          cases h
          exact admit_keeps hadmit
      generalize hrun : call.run cache s.ledger now fault = r
      obtain ⟨answer, cache', ledger'⟩ := r
      obtain ⟨hw, hdurable, hmode⟩ := hkeeps hrun
      constructor
      · apply hset hdeployed.cached
        have hold := hdeployed.cached cache hmem
        unfold Cached at hold ⊢
        rw [hw, hdurable]
        exact hold
      · intro hd
        rw [List.length_set]
        exact hdeployed.lone hd
      · intro hordered
        apply hset (hdeployed.strict hordered)
        rw [hmode]
        exact hdeployed.strict hordered cache hmem
  | start settings =>
    obtain ⟨hd, hcached, hmode⟩ := hallowed
    subst hd
    constructor
    · intro cache hcache
      rcases List.mem_append.mp hcache with hold | hnew
      · exact hdeployed.cached cache hold
      · rw [List.mem_singleton.mp hnew]
        exact hcached
    · intro hd
      cases hd
    · intro hordered cache hcache
      rcases List.mem_append.mp hcache with hold | hnew
      · exact hdeployed.strict hordered cache hold
      · rw [List.mem_singleton.mp hnew]
        exact hmode hordered
  | restart place settings =>
    obtain ⟨hd, hcached, hmode⟩ := hallowed
    subst hd
    constructor
    · exact hset hdeployed.cached hcached
    · intro hd
      cases hd
    · intro hordered
      exact hset (hdeployed.strict hordered) (hmode hordered)

theorem step_follows {d : Deployment} {w : Float} {ordered : Prop} {s : System} {op : Op}
    (hdeployed : Deployed d w ordered s) (hallowed : Allowed d w ordered op) :
    ReplayWindow.Step (Stale w) ordered op.reading (s.memory d) (s.accepted op)
      ((s.step op).memory d) := by
  cases op with
  | verify place call now fault => exact step_verify hdeployed place call now fault
  | start settings =>
    obtain ⟨hd, -, -⟩ := hallowed
    subst hd
    exact .idle _ _
  | restart place settings =>
    obtain ⟨hd, -, -⟩ := hallowed
    subst hd
    exact .idle _ _

/-- What is accepted is inside the window at its own reading. -/
structure Sound (w : Float) (a : Acceptance Identity (String × String) Float Float) : Prop where
  fresh : ¬ Stale w a.timestamp a.reading
  channel : a.channel = a.identity.floorKey

theorem accepted_sound {d : Deployment} {w : Float} {ordered : Prop} {s : System} {op : Op}
    {a : Acceptance Identity (String × String) Float Float} (hdeployed : Deployed d w ordered s)
    (h : s.accepted op = some a) : Sound w a := by
  unfold accepted at h
  cases op with
  | start settings => cases h
  | restart place settings => cases h
  | verify place call now fault =>
    dsimp only at h
    split at h
    · cases h
    · rename_i cache hplace
      split at h
      · cases hadmission : call.admission cache now with
        | none =>
          rw [hadmission] at h
          cases h
        | some admission =>
          rw [hadmission] at h
          cases h
          have hfresh := admission_fresh hadmission
          have hw := (hdeployed.cached cache (List.mem_of_getElem? hplace)).1
          unfold outsideWindow at hfresh
          rw [hw] at hfresh
          constructor
          · intro hstale
            have hold : decide (admission.timestamp < now - w) = true := decide_eq_true hstale
            rw [hold] at hfresh
            cases hfresh
          · rfl
      · cases h

theorem log_sound {w : Float} {s : System} {ops : List Op}
    (h : Trace.Every step (fun s op => ∀ a, s.accepted op = some a → Sound w a) s ops) :
    ∀ a ∈ ReplayWindow.log step accepted s ops, Sound w a := by
  induction ops generalizing s with
  | nil =>
    intro a ha
    cases ha
  | cons op rest ih =>
    intro a ha
    rw [log_cons] at ha
    rcases List.mem_append.mp ha with hnow | hlater
    · exact h.1 a (by simpa using hnow)
    · exact ih h.2 a hlater

/-- A replay is refused for as long as its timestamp is inside the window: an identity is
accepted again only when the freshness test refuses the timestamp it was accepted with.
Sequences of a sender increase where the floors are enforced, and the store that decides
forgets nothing that is inside the window. -/
theorem replay_refused {d : Deployment} {w : Float} {ordered : Prop} {s : System}
    {ops : List Op} (hdeployed : Deployed d w ordered s)
    (hallowed : ∀ op ∈ ops, Allowed d w ordered op)
    (hclock : (ops.filterMap Op.reading).Pairwise (· ≤ ·)) :
    (ReplayWindow.log step accepted s ops).Pairwise (fun a b =>
        a.identity = b.identity →
          a.timestamp < b.reading - w ∧ ¬ b.timestamp < b.reading - w) ∧
      (ordered → (ReplayWindow.log step accepted s ops).Pairwise fun a b =>
        a.identity.floorKey = b.identity.floorKey → a.sequence < b.sequence) ∧
      Trace.Every step (fun s op => ∀ id t, (s.memory d).held id = some t →
        (∀ now, op.reading = some now → ¬ t < now - w) →
          ((s.step op).memory d).held id = some t) s ops := by
  have hmono : ∀ t c d : Float, c ≤ d → Stale w t c → Stale w t d :=
    fun _ _ _ hle hstale => Ieee.lt_sub_mono hle hstale
  obtain ⟨-, hsteps⟩ := Trace.every_invariant step (I := Deployed d w ordered)
    (P := fun _ op => Allowed d w ordered op)
    (Q := fun s op =>
      ReplayWindow.Step (Stale w) ordered op.reading (s.memory d) (s.accepted op)
        ((s.step op).memory d) ∧ ∀ a, s.accepted op = some a → Sound w a)
    (fun s op h hop => step_deployed h hop)
    (fun s op h hop => ⟨step_follows h hop, fun a ha => accepted_sound h ha⟩)
    hdeployed (Trace.Every.of_forall step hallowed)
  have hfollows : Follows step (System.memory · d) Op.reading accepted (Stale w) ordered s ops :=
    Trace.Every.imp step (fun _ _ h => h.1) hsteps
  have hsound := log_sound (Trace.Every.imp step (fun _ _ h => h.2) hsteps)
  refine ⟨?_, ?_, ?_⟩
  · refine (pairwise_stale hmono hfollows hclock).imp_of_mem ?_
    intro a b _ hb hstale hsame
    exact ⟨hstale hsame, (hsound b hb).fresh⟩
  · intro hordered
    refine (pairwise_increasing hordered hfollows).imp_of_mem ?_
    intro a b ha hb hincrease hsame
    apply hincrease
    rw [(hsound a ha).channel, (hsound b hb).channel]
    exact hsame
  · refine Trace.Every.imp step ?_ hsteps
    intro s op h id t hheld hfresh
    exact h.1.keeps hheld hfresh

end System

end Verified

/-! ## Runs on fixed frames -/

/-- No event is signed in these runs. -/
abbrev EventSignatures.unsigned : EventSignatures where
  b64decode _ := none
  verify _ _ _ := false

def sharedKey : MessageAuthKey := { keyId := "k", secret := [1, 2, 3], senders := ["a"] }

/-- A frame of `a` under the shared key, verified in the first process. -/
def received [Builtins] (nonce : String) (sequence : Int) (timestamp now : Float) : Op :=
  .verify 0 (.frame
    (signFrame [("type", .str "claim"), ("sender", .str "a")] sharedKey nonce sequence timestamp)
    (Dict.empty.set "k" sharedKey) "a") now none

/-- Strict floors behind a ledger of two nonces; the cache itself has room for one. -/
def strictSettings : Settings :=
  ⟨10.0, 1, 1.0, some (.new 2 10.0), .strict⟩

/-- A restart between a frame and its replay. -/
def restarted [Builtins] : List Op :=
  [received "n" 1 100 100, .restart 0 strictSettings, received "n" 1 100 101,
    received "m" 2 101 102]

theorem replay_refused_restarted :
    letI := Builtins.checksum
    letI := EventSignatures.unsigned
    let s : System := { caches := [strictSettings.cache] }
    ((ReplayWindow.log System.step System.accepted s restarted).map (·.identity.nonce) =
        ["n", "m"]) ∧
      (ReplayWindow.log System.step System.accepted s restarted).Pairwise (fun a b =>
        a.identity = b.identity →
          a.timestamp < b.reading - strictSettings.cache.windowSeconds ∧
            ¬ b.timestamp < b.reading - strictSettings.cache.windowSeconds) := by
  refine ⟨by decide +kernel, ?_⟩
  have hcached : Cached .durable strictSettings.cache.windowSeconds strictSettings.cache :=
    ⟨rfl, _, rfl, rfl⟩
  refine (@System.replay_refused Builtins.checksum EventSignatures.unsigned .durable
    strictSettings.cache.windowSeconds True { caches := [strictSettings.cache] }
    (@restarted Builtins.checksum) ⟨?_, ?_, ?_⟩ ?_ (by decide +kernel)).1
  · intro cache hcache
    rw [List.mem_singleton.mp hcache]
    exact hcached
  · intro hd
    cases hd
  · intro _ cache hcache
    rw [List.mem_singleton.mp hcache]
    rfl
  · intro op hop
    simp only [restarted, List.mem_cons, List.not_mem_nil, or_false] at hop
    rcases hop with rfl | rfl | rfl | rfl
    · trivial
    · exact ⟨rfl, hcached, fun _ => rfl⟩
    · trivial
    · trivial

/-- One cache in memory. -/
def memorySettings : Settings := ⟨10.0, 100, 1.0, none, .off⟩

/-- A nonce signed anew once its first timestamp has left the window is accepted again; and
the cache before a durable store drops an identity inside its window to make room. -/
theorem nonce_accepted_again :
    letI := Builtins.checksum
    letI := EventSignatures.unsigned
    (¬ ∀ (w : Float) (s : System) (ops : List Op), Deployed .inMemory w False s →
        (∀ op ∈ ops, Allowed .inMemory w False op) →
        (ops.filterMap Op.reading).Pairwise (· ≤ ·) →
        (ReplayWindow.log System.step System.accepted s ops).Pairwise fun a b =>
          a.identity ≠ b.identity) ∧
      ¬ ∀ (s : System) (op : Op) (id : Identity) (t : Float),
        s.caches.head?.bind (·.entries.get? id) = some t →
        (∀ cache ∈ s.caches, ∀ now, op.reading = some now → ¬ t < now - cache.windowSeconds) →
          (s.step op).caches.head?.bind (·.entries.get? id) = some t := by
  constructor
  · intro h
    have hpairwise := h memorySettings.cache.windowSeconds { caches := [memorySettings.cache] }
      [@received Builtins.checksum "n" 1 100 100, @received Builtins.checksum "n" 2 200 200]
      ⟨?_, fun _ => rfl, fun hno => hno.elim⟩ ?_ (by decide +kernel)
    · revert hpairwise
      decide +kernel
    · intro cache hcache
      rw [List.mem_singleton.mp hcache]
      exact ⟨rfl, rfl⟩
    · intro op hop
      simp only [List.mem_cons, List.not_mem_nil, or_false] at hop
      rcases hop with rfl | rfl <;> trivial
  · intro h
    have hkept := h (@System.step Builtins.checksum EventSignatures.unsigned
      { caches := [strictSettings.cache] } (@received Builtins.checksum "n" 1 100 100))
      (@received Builtins.checksum "m" 2 101 101) ⟨"k", "a", "n"⟩ 100 (by decide +kernel) ?_
    · revert hkept
      decide +kernel
    · intro cache hcache now hnow
      cases hnow
      have hwindow : ∀ cache ∈ (@System.step Builtins.checksum EventSignatures.unsigned
          { caches := [strictSettings.cache] } (@received Builtins.checksum "n" 1 100 100)).caches,
          ¬ (100 : Float) < 101 - cache.windowSeconds := by
        decide +kernel
      exact hwindow cache hcache

end SynapseChannel.MessageAuth
