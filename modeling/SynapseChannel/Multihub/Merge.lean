import SynapseChannel.Multihub.Equivocation

/-!
# Multihub — Merge

The content-bound union of event logs. A merge either yields one event
per identity in `(ts, hub_id, seq)` order, whatever the order and the
grouping its inputs came in, or fails.
-/

namespace SynapseChannel

open Py Outcome

/-! ## Operations -/

/-- A log's events tagged with its hub id. -/
def tagEvents (hubId : String) (events : List StoredEvent) : List HubEvent :=
  events.map (HubEvent.fromStored hubId)

def rememberAll [Builtins] (seen : EventMap) (log : List HubEvent) : Except MultiHubError EventMap :=
  log.foldlM rememberContentBoundEvent seen

/-- The remembered events in replay order. -/
def EventMap.inOrder (seen : EventMap) : List HubEvent :=
  sortedBy keyLt HubEvent.orderKey seen.values

/-- The deterministic union of several hub-tagged logs. -/
def mergeEventLogs [Builtins] (logs : List (List HubEvent)) :
    Except MultiHubError (List HubEvent) := do
  let seen ← logs.foldlM rememberAll Dict.empty
  return EventMap.inOrder seen

/-- High-water `seq` per hub. -/
def hubCursors (events : List HubEvent) : Dict String Int :=
  events.foldl (fun cursors event =>
    if (cursors.get? event.hubId).getD (-1) < event.seq then
      cursors.set event.hubId event.seq
    else cursors) Dict.empty

/-! ## Content sets -/

/-- `events` and `events'` hold the same contents. -/
def SameContent (events events' : List HubEvent) : Prop :=
  ∀ n, n ∈ events.map HubEvent.norm ↔ n ∈ events'.map HubEvent.norm

/-- Two events of one identity differ in content. -/
def Conflict (events : List HubEvent) : Prop :=
  ∃ a ∈ events, ∃ b ∈ events, a.identity = b.identity ∧ a.norm ≠ b.norm

/-- Every event can be committed, and no two conflict. -/
def Mergeable (events : List HubEvent) : Prop :=
  (∀ e ∈ events, e.Fingerprintable) ∧ ¬ Conflict events

@[simp] theorem norm_identity (e : HubEvent) : e.norm.identity = e.identity := rfl

@[simp] theorem norm_orderKey (e : HubEvent) : e.norm.orderKey = e.orderKey := rfl

theorem SameContent.symm {events events' : List HubEvent} (h : SameContent events events') :
    SameContent events' events := fun n => (h n).symm

theorem SameContent.find {events events' : List HubEvent} (h : SameContent events events')
    {e : HubEvent} (he : e ∈ events) : ∃ e' ∈ events', e'.norm = e.norm :=
  List.mem_map.mp ((h e.norm).mp (List.mem_map_of_mem he))

theorem SameContent.fingerprintable {events events' : List HubEvent}
    (h : SameContent events events') (hf : ∀ e ∈ events, e.Fingerprintable) :
    ∀ e ∈ events', e.Fingerprintable := by
  intro e he
  obtain ⟨e', he', hn⟩ := h.symm.find he
  exact (hf e' he').of_norm_eq hn

theorem SameContent.conflict {events events' : List HubEvent} (h : SameContent events events')
    (hc : Conflict events) : Conflict events' := by
  obtain ⟨a, ha, b, hb, hid, hne⟩ := hc
  obtain ⟨a', ha', hna⟩ := h.find ha
  obtain ⟨b', hb', hnb⟩ := h.find hb
  refine ⟨a', ha', b', hb', ?_, by rwa [hna, hnb]⟩
  rw [← norm_identity a', ← norm_identity b', hna, hnb, norm_identity, norm_identity, hid]

/-! ## The union -/

/-- `result` stands for `events`: from them, and with all their contents. -/
structure Represents (events result : List HubEvent) : Prop where
  sound : ∀ e ∈ result, e ∈ events
  complete : ∀ e ∈ events, ∃ r ∈ result, r.norm = e.norm

theorem Represents.append {events events' result result' : List HubEvent}
    (h : Represents events result) (h' : Represents events' result') :
    Represents (events ++ events') (result ++ result') := by
  constructor
  · intro e he
    rcases List.mem_append.mp he with he | he
    · exact List.mem_append_left _ (h.sound e he)
    · exact List.mem_append_right _ (h'.sound e he)
  · intro e he
    rcases List.mem_append.mp he with he | he
    · obtain ⟨r, hr, hn⟩ := h.complete e he
      exact ⟨r, List.mem_append_left _ hr, hn⟩
    · obtain ⟨r, hr, hn⟩ := h'.complete e he
      exact ⟨r, List.mem_append_right _ hr, hn⟩

theorem Represents.sameContent {events result : List HubEvent} (h : Represents events result) :
    SameContent result events := by
  intro n
  simp only [List.mem_map]
  constructor
  · rintro ⟨e, he, rfl⟩
    exact ⟨e, h.sound e he, rfl⟩
  · rintro ⟨e, he, rfl⟩
    exact h.complete e he

/-- `result` is the union of `events`: in strict replay order, one event
for each identity, with the contents of `events` and no others. -/
structure IsUnion (events result : List HubEvent) : Prop extends Represents events result where
  sorted : result.Pairwise fun a b => keyLt a.orderKey b.orderKey = true
  identities : (result.map HubEvent.identity).Nodup

theorem IsUnion.nodup {events result : List HubEvent} (h : IsUnion events result) :
    (result.map HubEvent.norm).Nodup := by
  refine List.Nodup.of_map HubEvent.identity ?_
  rw [List.map_map]
  exact h.identities

/-- Equal contents have one union. -/
theorem IsUnion.unique {events events' result result' : List HubEvent}
    (h : IsUnion events result) (h' : IsUnion events' result')
    (hsame : SameContent events events') (hf : ∀ e ∈ events, e.Fingerprintable) :
    result.map HubEvent.norm = result'.map HubEvent.norm := by
  have hmem : ∀ n, n ∈ result.map HubEvent.norm ↔ n ∈ result'.map HubEvent.norm := fun n =>
    (h.toRepresents.sameContent n).trans ((hsame n).trans (h'.toRepresents.sameContent n).symm)
  have htimed : ∀ n ∈ result.map HubEvent.norm, n.orderKey.Timed := by
    intro n hn
    obtain ⟨e, he, rfl⟩ := List.mem_map.mp hn
    exact (hf e (h.sound e he)).timed
  have hweak : ∀ {l : List HubEvent}, (∀ n ∈ l.map HubEvent.norm, n.orderKey.Timed) →
      (l.Pairwise fun a b => keyLt a.orderKey b.orderKey = true) →
      (l.map HubEvent.norm).Pairwise fun a b => keyLt b.orderKey a.orderKey = false := by
    intro l htl hl
    rw [List.pairwise_map]
    exact hl.imp_of_mem fun ha hb hab =>
      keyLt_asymm (htl _ (List.mem_map_of_mem ha)) (htl _ (List.mem_map_of_mem hb)) hab
  refine eq_of_sortedBy keyLt h.nodup h'.nodup hmem ?_ (hweak htimed h.sorted)
    (hweak (fun n hn => htimed n ((hmem n).mpr hn)) h'.sorted)
  intro a b ha hb hab hba
  have hb' := (hmem b).mpr hb
  have hid := keyLt_connected (htimed a ha) (htimed b hb') hba hab
  obtain ⟨e, he, rfl⟩ := List.mem_map.mp ha
  obtain ⟨f, hf, rfl⟩ := List.mem_map.mp hb'
  rw [List.inj_on_of_nodup_map h.identities he hf hid]

/-- Timed events that repeat no identity sort strictly. -/
theorem inOrder_sorted {events : List HubEvent} (htimed : ∀ e ∈ events, e.orderKey.Timed)
    (hnodup : (events.map HubEvent.identity).Nodup) :
    ((sortedBy keyLt HubEvent.orderKey events).Pairwise fun a b =>
      keyLt a.orderKey b.orderKey = true) ∧
    ((sortedBy keyLt HubEvent.orderKey events).map HubEvent.identity).Nodup := by
  have hperm := (sortedBy_perm keyLt HubEvent.orderKey events).map HubEvent.identity
  have hnodup' := hperm.symm.nodup hnodup
  have hweak := pairwise_sortedBy keyLt (P := TimeKey.Timed)
    (fun ha hb hc h h' => keyLt_false_trans ha hb hc h h')
    (fun {a b} ha hb => by
      cases hlt : keyLt b a with
      | true => exact .inr (keyLt_asymm hb ha hlt)
      | false => exact .inl rfl) HubEvent.orderKey htimed
  refine ⟨?_, hnodup'⟩
  have hne := List.pairwise_map.mp hnodup'
  refine (hweak.and hne).imp_of_mem fun {a b} ha hb hab => ?_
  rw [mem_sortedBy] at ha hb
  cases hlt : keyLt a.orderKey b.orderKey with
  | true => rfl
  | false => exact absurd (keyLt_connected (htimed a ha) (htimed b hb) hlt hab.1) hab.2

/-! ## Remembering a log -/

/-- `seen` binds the identities of `events` to their contents. -/
structure Remembers (seen : EventMap) (events : List HubEvent) : Prop where
  keyed : ∀ k e, seen.get? k = some e → e.identity = k
  sound : ∀ k e, seen.get? k = some e → e ∈ events
  complete : ∀ e ∈ events, ∃ s, seen.get? e.identity = some s ∧ s.norm = e.norm
  fingerprintable : ∀ e ∈ events, e.Fingerprintable

theorem remembers_empty : Remembers Dict.empty [] := by
  constructor <;> simp

theorem Remembers.mergeable {seen : EventMap} {events : List HubEvent}
    (h : Remembers seen events) : Mergeable events := by
  refine ⟨h.fingerprintable, ?_⟩
  rintro ⟨a, ha, b, hb, hid, hne⟩
  obtain ⟨s, hs, hsa⟩ := h.complete a ha
  obtain ⟨t, ht, htb⟩ := h.complete b hb
  rw [hid, ht] at hs
  cases hs
  exact hne (hsa ▸ htb)

theorem Remembers.isUnion {seen : EventMap} {events : List HubEvent}
    (h : Remembers seen events) : IsUnion events (EventMap.inOrder seen) := by
  have hvalues : ∀ e ∈ seen.values, seen.get? e.identity = some e := by
    intro e he
    obtain ⟨k, hk⟩ := (seen.mem_values_iff e).mp he
    rw [h.keyed k e hk, hk]
  have hkeys : seen.values.map HubEvent.identity = seen.keys := by
    rw [Dict.values, Dict.keys, List.map_map]
    refine List.map_congr_left fun item hitem => ?_
    exact h.keyed item.1 item.2 ((seen.mem_items_iff _ _).mp hitem)
  have htimed : ∀ e ∈ seen.values, e.orderKey.Timed := fun e he =>
    (h.fingerprintable e (h.sound _ e (hvalues e he))).timed
  obtain ⟨hsorted, hnodup⟩ := inOrder_sorted htimed (hkeys ▸ seen.nodup)
  refine ⟨⟨?_, ?_⟩, hsorted, hnodup⟩
  · intro e he
    rw [EventMap.inOrder, mem_sortedBy] at he
    exact h.sound _ e (hvalues e he)
  · intro e he
    obtain ⟨s, hs, hse⟩ := h.complete e he
    refine ⟨s, ?_, hse⟩
    rw [EventMap.inOrder, mem_sortedBy, Dict.mem_values_iff]
    exact ⟨_, hs⟩

/-- Why a merge fails: an event that cannot be committed, or a conflict. -/
def Cause (events : List HubEvent) (err : MultiHubError) : Prop :=
  (¬ err.IsEquivocation ∧ ∃ e ∈ events, ¬ e.Fingerprintable) ∨
    (err.IsEquivocation ∧ Conflict events)

theorem Cause.mono {events events' : List HubEvent} {err : MultiHubError}
    (h : Cause events err) (hsub : ∀ e ∈ events, e ∈ events') : Cause events' err := by
  rcases h with ⟨herr, e, he, hno⟩ | ⟨herr, a, ha, b, hb, hab⟩
  · exact .inl ⟨herr, e, hsub e he, hno⟩
  · exact .inr ⟨herr, a, hsub a ha, b, hsub b hb, hab⟩

theorem Cause.not_mergeable {events : List HubEvent} {err : MultiHubError}
    (h : Cause events err) : ¬ Mergeable events := by
  rintro ⟨hf, hno⟩
  rcases h with ⟨-, e, he, hne⟩ | ⟨-, hconf⟩
  · exact hne (hf e he)
  · exact hno hconf

variable [Builtins]

theorem Remembers.step {seen : EventMap} {events : List HubEvent} (h : Remembers seen events)
    {event : HubEvent} (hc : CollisionFree (events ++ [event])) :
    (∃ seen', rememberContentBoundEvent seen event = .ok seen' ∧
      Remembers seen' (events ++ [event])) ∨
    ∃ err, rememberContentBoundEvent seen event = .error err ∧ Cause (events ++ [event]) err := by
  have hcases : Remember seen event (rememberContentBoundEvent seen event) :=
    remember_cases hc
      (fun k e hk => ⟨by simp [h.sound k e hk], h.fingerprintable e (h.sound k e hk)⟩) (by simp)
  generalize rememberContentBoundEvent seen event = result at hcases
  cases hcases with
  | malformed err hno herr => exact .inr ⟨err, rfl, .inl ⟨herr, event, by simp, hno⟩⟩
  | fresh hnew hfp =>
    refine .inl ⟨_, rfl, ?_, ?_, ?_, ?_⟩
    · intro k e hk
      rw [Dict.get?_set] at hk
      split at hk
      · rename_i hkey
        cases hk
        exact hkey
      · exact h.keyed k e hk
    · intro k e hk
      rw [Dict.get?_set] at hk
      split at hk
      · cases hk
        simp
      · simp [h.sound k e hk]
    · intro e he
      rcases List.mem_append.mp he with he | he
      · obtain ⟨s, hs, hse⟩ := h.complete e he
        have hne : event.identity ≠ e.identity := by
          intro hid
          rw [hid, hs] at hnew
          cases hnew
        exact ⟨s, by rw [Dict.get?_set_ne _ _ hne, hs], hse⟩
      · cases List.mem_singleton.mp he
        exact ⟨event, by simp, rfl⟩
    · intro e he
      rcases List.mem_append.mp he with he | he
      · exact h.fingerprintable e he
      · exact List.mem_singleton.mp he ▸ hfp
  | known existing hold hfp hsame =>
    refine .inl ⟨_, rfl, h.keyed, ?_, ?_, ?_⟩
    · intro k e hk
      simp [h.sound k e hk]
    · intro e he
      rcases List.mem_append.mp he with he | he
      · exact h.complete e he
      · cases List.mem_singleton.mp he
        exact ⟨existing, hold, hsame⟩
    · intro e he
      rcases List.mem_append.mp he with he | he
      · exact h.fingerprintable e he
      · exact List.mem_singleton.mp he ▸ hfp
  | conflict existing accepted conflicting hold hfp hdiff =>
    refine .inr ⟨_, rfl, .inr ⟨trivial, existing, ?_, event, by simp, h.keyed _ _ hold, hdiff⟩⟩
    simp [h.sound _ _ hold]

theorem Remembers.log {seen : EventMap} {events : List HubEvent} (h : Remembers seen events)
    (log : List HubEvent) (hc : CollisionFree (events ++ log)) :
    (∃ seen', rememberAll seen log = .ok seen' ∧ Remembers seen' (events ++ log)) ∨
    ∃ err, rememberAll seen log = .error err ∧ Cause (events ++ log) err := by
  induction log generalizing seen events with
  | nil => exact .inl ⟨seen, rfl, by simpa using h⟩
  | cons event rest ih =>
    have happ : events ++ event :: rest = events ++ [event] ++ rest := by simp
    have hc' : CollisionFree (events ++ [event]) := hc.mono fun e he => ⟨e, by
      rw [happ]
      exact List.mem_append_left _ he, rfl⟩
    rcases h.step hc' with ⟨seen', hok, h'⟩ | ⟨err, herr, hcause⟩
    · rw [happ] at hc ⊢
      have hstep : rememberAll seen (event :: rest) = rememberAll seen' rest := by
        rw [rememberAll, List.foldlM_cons, hok]
        rfl
      rw [hstep]
      exact ih h' hc
    · refine .inr ⟨err, ?_, ?_⟩
      · rw [rememberAll, List.foldlM_cons, herr]
        rfl
      · rw [happ]
        exact hcause.mono fun e he => List.mem_append_left _ he

/-! ## Logs that repeat no identity -/

/-- Where no identity is repeated, remembering only appends. -/
theorem remember_new {seen seen' : EventMap} {event : HubEvent}
    (hnew : seen.get? event.identity = none)
    (h : rememberContentBoundEvent seen event = .ok seen') :
    event.Fingerprintable ∧ seen'.items = seen.items ++ [(event.identity, event)] := by
  rcases remember_ok_cases h with ⟨hfp, -, rfl⟩ | ⟨⟨existing, hold⟩, -⟩
  · exact ⟨hfp, Dict.items_set_of_none hnew event⟩
  · rw [hnew] at hold
    cases hold

theorem rememberAll_new {log : List HubEvent} {seen seen' : EventMap}
    (hnodup : (log.map HubEvent.identity).Nodup)
    (hnew : ∀ e ∈ log, seen.get? e.identity = none) (h : rememberAll seen log = .ok seen') :
    (∀ e ∈ log, e.Fingerprintable) ∧ seen'.values = seen.values ++ log := by
  induction log generalizing seen with
  | nil =>
    cases h
    exact ⟨by simp, by simp⟩
  | cons e rest ih =>
    rw [rememberAll, List.foldlM_cons] at h
    obtain ⟨middle, hmiddle, hrest⟩ := bind_ok h
    obtain ⟨hfp, hitems⟩ := remember_new (hnew e (by simp)) hmiddle
    rw [List.map_cons, List.nodup_cons] at hnodup
    have hnew' : ∀ e' ∈ rest, middle.get? e'.identity = none := by
      intro e' he'
      have hne : e'.identity ≠ e.identity := fun heq =>
        hnodup.1 (heq ▸ List.mem_map_of_mem he')
      have hkeys : e'.identity ∉ middle.keys := by
        have hseen : e'.identity ∉ seen.keys := fun hk =>
          (seen.mem_keys_iff _).mp hk (hnew e' (by simp [he']))
        rw [Dict.keys, hitems, List.map_append]
        simpa [hne, Dict.keys] using hseen
      exact not_not.mp fun hne' => hkeys ((middle.mem_keys_iff _).mpr hne')
    obtain ⟨hfps, hvalues⟩ := ih hnodup.2 hnew' hrest
    refine ⟨fun e' he' => ?_, ?_⟩
    · rcases List.mem_cons.mp he' with rfl | he'
      · exact hfp
      · exact hfps e' he'
    · rw [hvalues, Dict.values, hitems, Dict.values]
      simp

theorem remember_ok {seen : EventMap} {event : HubEvent} (hfp : event.Fingerprintable)
    (hnew : seen.get? event.identity = none) :
    rememberContentBoundEvent seen event = .ok (seen.set event.identity event) := by
  obtain ⟨b, -, hb⟩ := fingerprint_ok hfp
  rw [rememberContentBoundEvent, hnew]
  simp only [hb, bind, Except.bind]
  rfl

theorem rememberAll_ok {log : List HubEvent} {seen : EventMap}
    (hfp : ∀ e ∈ log, e.Fingerprintable) (hnodup : (log.map HubEvent.identity).Nodup)
    (hnew : ∀ e ∈ log, seen.get? e.identity = none) :
    ∃ seen', rememberAll seen log = .ok seen' := by
  induction log generalizing seen with
  | nil => exact ⟨seen, rfl⟩
  | cons e rest ih =>
    rw [List.map_cons, List.nodup_cons] at hnodup
    rw [rememberAll, List.foldlM_cons, remember_ok (hfp e (by simp)) (hnew e (by simp))]
    refine ih (fun e' he' => hfp e' (by simp [he'])) hnodup.2 fun e' he' => ?_
    have hne : e.identity ≠ e'.identity := fun heq =>
      hnodup.1 (heq ▸ List.mem_map_of_mem he')
    rw [Dict.get?_set_ne _ _ hne, hnew e' (by simp [he'])]

/-! ## Merges and merges of merges -/

/-- The outcome is an equivocation. -/
def Equivocates {α : Type} (outcome : Except MultiHubError α) : Prop :=
  ∃ err, outcome = .error err ∧ err.IsEquivocation

theorem remember_logs (logs : List (List HubEvent)) (seen : EventMap) :
    logs.foldlM rememberAll seen = rememberAll seen logs.flatten := by
  induction logs generalizing seen with
  | nil => rfl
  | cons log rest ih =>
    rw [List.foldlM_cons, List.flatten_cons, rememberAll, rememberAll, List.foldlM_append]
    exact bind_congr fun seen' => ih seen'

theorem mergeEventLogs_nodup {logs : List (List HubEvent)} {merged : List HubEvent}
    (hnodup : (logs.flatten.map HubEvent.identity).Nodup)
    (h : mergeEventLogs logs = .ok merged) :
    (∀ e ∈ logs.flatten, e.Fingerprintable) ∧
      merged = sortedBy keyLt HubEvent.orderKey logs.flatten := by
  rw [mergeEventLogs, remember_logs] at h
  obtain ⟨seen, hseen, hdone⟩ := bind_ok h
  obtain ⟨hfps, hvalues⟩ := rememberAll_new hnodup (fun _ _ => rfl) hseen
  cases hdone
  rw [EventMap.inOrder, hvalues]
  exact ⟨hfps, rfl⟩

theorem mergeEventLogs_ok {logs : List (List HubEvent)}
    (hfp : ∀ e ∈ logs.flatten, e.Fingerprintable)
    (hnodup : (logs.flatten.map HubEvent.identity).Nodup) :
    mergeEventLogs logs = .ok (sortedBy keyLt HubEvent.orderKey logs.flatten) := by
  obtain ⟨seen, hseen⟩ := @rememberAll_ok _ _ Dict.empty hfp hnodup fun _ _ => rfl
  have hmerge : mergeEventLogs logs = .ok (EventMap.inOrder seen) := by
    rw [mergeEventLogs, remember_logs, hseen]
    rfl
  rw [hmerge, (mergeEventLogs_nodup hnodup hmerge).2]

/-- What a merge of `events` comes to: their union, or a failure for a
cause among them. -/
inductive Merged (events : List HubEvent) : Except MultiHubError (List HubEvent) → Prop
  | union (result : List HubEvent) (hm : Mergeable events) (hu : IsUnion events result) :
      Merged events (.ok result)
  | failed (err : MultiHubError) (hcause : Cause events err) : Merged events (.error err)

theorem merge_outcome (logs : List (List HubEvent)) (hc : CollisionFree logs.flatten) :
    Merged logs.flatten (mergeEventLogs logs) := by
  rw [mergeEventLogs, remember_logs]
  rcases remembers_empty.log logs.flatten (by simpa using hc) with
    ⟨seen, hok, hseen⟩ | ⟨err, herr, hcause⟩
  · rw [hok]
    rw [List.nil_append] at hseen
    exact .union _ hseen.mergeable hseen.isUnion
  · rw [herr]
    exact .failed err (by simpa using hcause)

/-- A way of merging: take a log, or merge what other plans yield. -/
inductive MergePlan where
  | log (events : List HubEvent)
  | merge (parts : List MergePlan)

namespace MergePlan

mutual

/-- All the events that go into the plan. -/
def events : MergePlan → List HubEvent
  | .log events => events
  | .merge parts => allEvents parts
termination_by structural p => p

def allEvents : List MergePlan → List HubEvent
  | [] => []
  | part :: rest => events part ++ allEvents rest
termination_by structural l => l

end

mutual

def run : MergePlan → Except MultiHubError (List HubEvent)
  | .log events => .ok events
  | .merge parts => do
    let logs ← runAll parts
    mergeEventLogs logs
termination_by structural p => p

def runAll : List MergePlan → Except MultiHubError (List (List HubEvent))
  | [] => .ok []
  | part :: rest => do
    let log ← run part
    let logs ← runAll rest
    return log :: logs
termination_by structural l => l

end

omit [Builtins] in
@[elab_as_elim]
theorem induction {P : MergePlan → Prop} (log : ∀ events, P (.log events))
    (merge : ∀ parts, (∀ part ∈ parts, P part) → P (.merge parts)) (plan : MergePlan) :
    P plan := by
  refine MergePlan.rec (motive_1 := P) (motive_2 := fun l => ∀ part ∈ l, P part)
    log merge (by simp) ?_ plan
  intro part rest hpart hrest p hp
  rcases List.mem_cons.mp hp with rfl | hp
  · exact hpart
  · exact hrest p hp

end MergePlan

omit [Builtins] in
theorem Represents.isUnion {events middle result : List HubEvent} (h : Represents events middle)
    (hu : IsUnion middle result) : IsUnion events result := by
  refine ⟨⟨fun e he => h.sound e (hu.sound e he), fun e he => ?_⟩, hu.sorted, hu.identities⟩
  obtain ⟨m, hm, hme⟩ := h.complete e he
  obtain ⟨r, hr, hrm⟩ := hu.complete m hm
  exact ⟨r, hr, hrm.trans hme⟩

/-- A plan yields a representative of its events, or fails for a cause
among them. -/
def PlanOutcome (plan : MergePlan) : Prop :=
  (∃ result, plan.run = .ok result ∧ Represents plan.events result) ∨
    ∃ err, plan.run = .error err ∧ Cause plan.events err

theorem runAll_outcome (parts : List MergePlan) (h : ∀ part ∈ parts, PlanOutcome part) :
    (∃ logs, MergePlan.runAll parts = .ok logs ∧
      Represents (MergePlan.allEvents parts) logs.flatten) ∨
    ∃ err, MergePlan.runAll parts = .error err ∧ Cause (MergePlan.allEvents parts) err := by
  induction parts with
  | nil => exact .inl ⟨[], rfl, by simp [MergePlan.allEvents], by simp [MergePlan.allEvents]⟩
  | cons part rest ih =>
    rw [MergePlan.runAll, MergePlan.allEvents]
    rcases h part (by simp) with ⟨log, hlog, hrep⟩ | ⟨err, herr, hcause⟩
    · rw [hlog]
      rcases ih fun p hp => h p (by simp [hp]) with ⟨logs, hlogs, hreps⟩ | ⟨err, herr, hcause⟩
      · rw [hlogs]
        exact .inl ⟨log :: logs, rfl, hrep.append hreps⟩
      · rw [herr]
        exact .inr ⟨err, rfl, hcause.mono fun e he => List.mem_append_right _ he⟩
    · rw [herr]
      exact .inr ⟨err, rfl, hcause.mono fun e he => List.mem_append_left _ he⟩

theorem merge_parts_outcome (parts : List MergePlan) (h : ∀ part ∈ parts, PlanOutcome part)
    (hc : CollisionFree (MergePlan.allEvents parts)) :
    Merged (MergePlan.allEvents parts) (MergePlan.merge parts).run := by
  rw [MergePlan.run]
  rcases runAll_outcome parts h with ⟨logs, hlogs, hrep⟩ | ⟨err, herr, hcause⟩
  · rw [hlogs]
    have hc' : CollisionFree logs.flatten := hc.mono fun e he => ⟨e, hrep.sound e he, rfl⟩
    have hmerge := merge_outcome logs hc'
    show Merged _ (mergeEventLogs logs)
    generalize mergeEventLogs logs = outcome at hmerge
    cases hmerge with
    | union result hm hu =>
      exact .union result ⟨hrep.sameContent.fingerprintable hm.1,
        fun hconf => hm.2 (hrep.sameContent.symm.conflict hconf)⟩ (hrep.isUnion hu)
    | failed err hcause => exact .failed err (hcause.mono hrep.sound)
  · rw [herr]
    exact .failed err hcause

omit [Builtins] in
theorem allEvents_mem {parts : List MergePlan} {part : MergePlan} (h : part ∈ parts) :
    ∀ e ∈ part.events, e ∈ MergePlan.allEvents parts := by
  induction parts with
  | nil => cases h
  | cons p rest ih =>
    intro e he
    rw [MergePlan.allEvents]
    rcases List.mem_cons.mp h with rfl | h
    · exact List.mem_append_left _ he
    · exact List.mem_append_right _ (ih h e he)

theorem plan_outcome (plan : MergePlan) (hc : CollisionFree plan.events) : PlanOutcome plan := by
  induction plan using MergePlan.induction with
  | log events => exact .inl ⟨events, rfl, fun _ he => he, fun e he => ⟨e, he, rfl⟩⟩
  | merge parts ih =>
    have hparts : ∀ part ∈ parts, PlanOutcome part := fun part hpart =>
      ih part hpart (hc.mono fun e he => ⟨e, allEvents_mem hpart e he, rfl⟩)
    have hmerge := merge_parts_outcome parts hparts hc
    unfold PlanOutcome
    generalize (MergePlan.merge parts).run = outcome at hmerge
    cases hmerge with
    | union result hm hu => exact .inl ⟨result, rfl, hu.toRepresents⟩
    | failed err hcause => exact .inr ⟨err, rfl, hcause⟩

/-! ## The join -/

section

omit [Builtins]

/-- Both tuples, equal up to the member order of payloads, or both
failures. -/
def SameTuple : Except MultiHubError (List HubEvent) → Except MultiHubError (List HubEvent) → Prop
  | .ok a, .ok b => a.map HubEvent.norm = b.map HubEvent.norm
  | .error _, .error _ => True
  | _, _ => False

theorem Merged.ok_iff {events : List HubEvent} {outcome : Except MultiHubError (List HubEvent)}
    (h : Merged events outcome) : (∃ result, outcome = .ok result) ↔ Mergeable events := by
  cases h with
  | union result hm hu => exact ⟨fun _ => hm, fun _ => ⟨result, rfl⟩⟩
  | failed err hcause =>
    refine ⟨?_, fun hm => absurd hm hcause.not_mergeable⟩
    rintro ⟨result, hok⟩
    cases hok

theorem Merged.isUnion {events result : List HubEvent} (h : Merged events (.ok result)) :
    IsUnion events result := by
  cases h with
  | union _ _ hu => exact hu

theorem Merged.conflict {events : List HubEvent} {outcome : Except MultiHubError (List HubEvent)}
    (h : Merged events outcome) (heq : Equivocates outcome) : Conflict events := by
  obtain ⟨err, rfl, herr⟩ := heq
  cases h with
  | failed _ hcause =>
    rcases hcause with ⟨hne, -⟩ | ⟨-, hconf⟩
    · exact absurd herr hne
    · exact hconf

/-- Among events that can be committed, only a conflict fails a merge. -/
theorem Merged.equivocates_iff {events : List HubEvent}
    {outcome : Except MultiHubError (List HubEvent)} (h : Merged events outcome)
    (hf : ∀ e ∈ events, e.Fingerprintable) : Equivocates outcome ↔ Conflict events := by
  refine ⟨h.conflict, fun hconf => ?_⟩
  cases h with
  | union result hm hu => exact absurd hconf hm.2
  | failed err hcause =>
    rcases hcause with ⟨-, e, he, hno⟩ | ⟨herr, -⟩
    · exact absurd (hf e he) hno
    · exact ⟨err, rfl, herr⟩

/-- Merges of the same contents come to the same. -/
theorem Merged.sameTuple {events events' : List HubEvent}
    {outcome outcome' : Except MultiHubError (List HubEvent)} (h : Merged events outcome)
    (h' : Merged events' outcome') (hsame : SameContent events events') :
    SameTuple outcome outcome' := by
  have hmergeable : Mergeable events ↔ Mergeable events' :=
    ⟨fun ⟨hf, hno⟩ => ⟨hsame.fingerprintable hf, fun hconf => hno (hsame.symm.conflict hconf)⟩,
      fun ⟨hf, hno⟩ => ⟨hsame.symm.fingerprintable hf, fun hconf => hno (hsame.conflict hconf)⟩⟩
  cases h with
  | union result hm hu =>
    cases h' with
    | union result' _ hu' => exact hu.unique hu' hsame hm.1
    | failed err' hcause' => exact absurd (hmergeable.mp hm) hcause'.not_mergeable
  | failed err hcause =>
    cases h' with
    | union result' hm' _ => exact absurd (hmergeable.mpr hm') hcause.not_mergeable
    | failed err' _ => trivial

end

/-- The union of event logs is a join: it exists exactly for logs whose
events can be committed and do not conflict, is sorted with one event
per identity, and depends on the contents that went in only, however
they were ordered, repeated and grouped into partial merges. Among
events that can be committed, it fails by an equivocation exactly when
two of them conflict. -/
theorem merge_join (logs : List (List HubEvent)) (hc : CollisionFree logs.flatten) :
    ((∃ result, mergeEventLogs logs = .ok result) ↔ Mergeable logs.flatten) ∧
    (∀ result, mergeEventLogs logs = .ok result → IsUnion logs.flatten result) ∧
    (Equivocates (mergeEventLogs logs) → Conflict logs.flatten) ∧
    ((∀ e ∈ logs.flatten, e.Fingerprintable) →
      (Equivocates (mergeEventLogs logs) ↔ Conflict logs.flatten)) ∧
    ∀ parts : List MergePlan, SameContent (MergePlan.allEvents parts) logs.flatten →
      SameTuple (MergePlan.merge parts).run (mergeEventLogs logs) ∧
      ((∀ e ∈ logs.flatten, e.Fingerprintable) →
        (Equivocates (MergePlan.merge parts).run ↔ Equivocates (mergeEventLogs logs))) := by
  have hmerge := merge_outcome logs hc
  refine ⟨hmerge.ok_iff, fun result hok => (hok ▸ hmerge).isUnion, hmerge.conflict,
    hmerge.equivocates_iff, fun parts hsame => ?_⟩
  have hcp : CollisionFree (MergePlan.allEvents parts) := hc.mono fun e he => hsame.find he
  have hparts : ∀ part ∈ parts, PlanOutcome part := fun part hpart =>
    plan_outcome part (hcp.mono fun e he => ⟨e, allEvents_mem hpart e he, rfl⟩)
  have hplan := merge_parts_outcome parts hparts hcp
  refine ⟨hplan.sameTuple hmerge hsame, fun hf => ?_⟩
  rw [hmerge.equivocates_iff hf, hplan.equivocates_iff (hsame.symm.fingerprintable hf)]
  exact ⟨hsame.conflict, hsame.symm.conflict⟩

section

omit [Builtins]

/-- The identity digest has no collisions. -/
theorem collisionFree_ascii (events : List HubEvent) :
    letI : Builtins := Builtins.ascii
    CollisionFree events := by
  intro a _ b _ x y _ _ h
  refine List.map_injective_iff.mpr ?_ (String.ofList_injective h)
  intro m n hmn
  have hvalid : ∀ k : UInt8, (Char.ofNat k.toNat).toNat = k.toNat := by
    intro k
    have hk : k.toNat.isValidChar := .inl (Nat.lt_trans k.toNat_lt (by decide))
    rw [Char.ofNat, dif_pos hk]
    rfl
  have htoNat := congrArg Char.toNat hmn
  rw [hvalid, hvalid] at htoNat
  exact UInt8.toNat_inj.mp htoNat

/-- Two hubs' logs, merged in two steps with a repetition. -/
theorem merge_join_two_hubs :
    letI : Builtins := Builtins.ascii
    let a : HubEvent := ⟨"a", 1, 2, "claim", []⟩
    let b : HubEvent := ⟨"b", 1, 1, "claim", [("task_id", .str "T")]⟩
    SameTuple (MergePlan.merge [.merge [.log [a], .log [b]], .log [b]]).run
      (mergeEventLogs [[b, a]]) := by
  intro a b
  let _ : Builtins := Builtins.ascii
  refine ((merge_join [[b, a]] (collisionFree_ascii _)).2.2.2.2
    [.merge [.log [a], .log [b]], .log [b]] ?_).1
  intro n
  simp only [MergePlan.allEvents, MergePlan.events]
  simp
  tauto

/-- A conflict is not reported as one when the second content cannot be
committed: the merge refuses its not-a-number payload first. -/
theorem merge_malformed_conflict :
    letI : Builtins := Builtins.ascii
    let a : HubEvent := ⟨"h", 1, 1, "claim", []⟩
    let b : HubEvent := ⟨"h", 1, 1, "claim", [("x", .float (0 / 0))]⟩
    Conflict [[a, b]].flatten ∧ ¬ Equivocates (mergeEventLogs [[a, b]]) := by
  intro a b
  constructor
  · refine ⟨a, by simp, b, by simp, rfl, fun h => ?_⟩
    have hlen := congrArg (fun e : HubEvent => e.payload.length) h
    exact absurd hlen (by decide +kernel)
  · let _ : Builtins := Builtins.ascii
    have hrun : (match mergeEventLogs [[a, b]] with
        | .ok _ => false
        | .error (.value _) => true
        | .error .overflow => false
        | .error (.equivocation ..) => false
        | .error (.sequence ..) => false) = true := by decide +kernel
    rintro ⟨err, herr, heq⟩
    rw [herr] at hrun
    cases err with
    | equivocation => cases hrun
    | _ => exact heq

end

end SynapseChannel
