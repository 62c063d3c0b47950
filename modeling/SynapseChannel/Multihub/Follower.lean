import SynapseChannel.Multihub.Fold

/-!
# Multihub — Follower

The read-only follower: per-peer cursors over an accumulated union. A
poll of a peer holds that peer's lock, waits for its fetch, and publishes
in one step; polls of different peers overlap at the fetch.
-/

namespace SynapseChannel

open Py Outcome

/-- Digest-only evidence that prevents automatic polling of one peer. -/
structure FederationQuarantine where
  peerId : String
  seq : Int
  acceptedFingerprint : String
  conflictingFingerprint : String
  detectedAt : Float
  observerId : String

/-- The follower between two steps of its event loop. -/
structure Follower where
  observerId : String
  events : EventMap := Dict.empty
  cursors : Dict String Int := Dict.empty
  quarantines : Dict String FederationQuarantine
  /-- Peers whose lock is held, with the cursor their fetch asked for. -/
  inFlight : Dict String Int := Dict.empty

/-- What a poll raises. -/
inductive PollError where
  | quarantined (quarantine : FederationQuarantine)
  /-- The fetch raised or was cancelled. -/
  | fetch
  | multihub (error : MultiHubError)

/-- What one step shows to its caller. -/
inductive FollowerReply where
  /-- The poll waits: for its peer's lock, or for its fetch. -/
  | waiting
  | raised (error : PollError)
  | observed (view : ObservedState)
  | recovered
  | refused

/-- The steps of the follower: a poll up to its fetch, the rest of it once
the fetch is over, and an operator's recovery. -/
inductive FollowerOp where
  | start (peerId : String)
  /-- `none`: the fetch raised or was cancelled. -/
  | finish (peerId : String) (fetched : Option (List StoredEvent)) (now : Float)
  /-- `journalled`: the recovery record could be written. -/
  | recover (peerId recoveredBy reason newLogGeneration : String) (journalled : Bool)

/-- The step is an operator's recovery of `peer`. -/
def FollowerOp.recovers (peer : String) : FollowerOp → Prop
  | .recover peerId _ _ _ _ => peerId = peer
  | _ => False

namespace Follower

variable [Builtins]

section

omit [Builtins]

/-- The highest `seq` consumed for a peer. -/
def cursor (f : Follower) (peerId : String) : Int := (f.cursors.get? peerId).getD 0

/-- Take the lock, refuse a quarantined peer, and start the fetch. -/
def start (f : Follower) (peerId : String) : Follower × FollowerReply :=
  if f.inFlight.contains peerId then (f, .waiting)
  else
    match f.quarantines.get? peerId with
    | some quarantine => (f, .raised (.quarantined quarantine))
    | none => ({ f with inFlight := f.inFlight.set peerId (f.cursor peerId) }, .waiting)

/-- Freeze one peer; evidence that cannot be recorded changes nothing. -/
def quarantine (f : Follower) (peerId : String) (seq : Int) (accepted conflicting : String)
    (now : Float) : Follower :=
  { f with
    quarantines := f.quarantines.set peerId
      { peerId := peerId
        seq := seq
        acceptedFingerprint := accepted
        conflictingFingerprint := conflicting
        detectedAt := now
        observerId := f.observerId } }

end

/-- Validate what was fetched against the events held by now, fold the
union, and publish both, or raise. -/
def publish (f : Follower) (peerId : String) (cursor : Int) (fetched : List StoredEvent)
    (now : Float) : Follower × FollowerReply :=
  match validateContentBoundBatch f.events (tagEvents peerId fetched) peerId cursor with
  | .error (.equivocation peer seq accepted conflicting) =>
    (f.quarantine peer seq accepted conflicting now,
      .raised (.multihub (.equivocation peer seq accepted conflicting)))
  | .error error => (f, .raised (.multihub error))
  | .ok candidate =>
    match mergeEventLogs [candidate.values] >>= foldObservedState with
    | .error error => (f, .raised (.multihub error))
    | .ok view =>
      ({ f with events := candidate, cursors := hubCursors candidate.values }, .observed view)

/-- The rest of a poll after its fetch; the lock is released in any case. -/
def finish (f : Follower) (peerId : String) (fetched : Option (List StoredEvent)) (now : Float) :
    Follower × FollowerReply :=
  match f.inFlight.get? peerId with
  | none => (f, .waiting)
  | some cursor =>
    let f := { f with inFlight := f.inFlight.erase peerId }
    match fetched with
    | none => (f, .raised .fetch)
    | some fetched => f.publish peerId cursor fetched now

omit [Builtins] in
/-- Clear one quarantine and reset that peer's observed history. -/
def recoverPeer (f : Follower) (peerId recoveredBy reason newLogGeneration : String)
    (journalled : Bool) : Follower × FollowerReply :=
  if !f.quarantines.contains peerId then (f, .refused)
  else if strip recoveredBy = "" ∨ strip reason = "" ∨ strip newLogGeneration = "" then
    (f, .refused)
  else if !journalled then (f, .refused)
  else
    ({ f with
        events := f.events.filterKeys fun k => k.1 ≠ peerId
        cursors := f.cursors.erase peerId
        quarantines := f.quarantines.erase peerId }, .recovered)

/-- One step of the follower. -/
def apply (f : Follower) : FollowerOp → Follower × FollowerReply
  | .start peerId => f.start peerId
  | .finish peerId fetched now => f.finish peerId fetched now
  | .recover peerId recoveredBy reason generation journalled =>
    f.recoverPeer peerId recoveredBy reason generation journalled

/-- The follower after one step. -/
def next (f : Follower) (op : FollowerOp) : Follower := (f.apply op).1

/-- The follower after a sequence of steps. -/
def run (f : Follower) (ops : List FollowerOp) : Follower := Trace.run next f ops

/-! ## Cursors -/

omit [Builtins] in
/-- `top` is the greatest sequence of `hub` in `events`, if it has any. -/
def HighWater (events : List HubEvent) (hub : String) : Option Int → Prop
  | none => ∀ e ∈ events, e.hubId ≠ hub
  | some top => (∃ e ∈ events, e.hubId = hub ∧ e.seq = top) ∧
      ∀ e ∈ events, e.hubId = hub → e.seq ≤ top

omit [Builtins] in
theorem hubCursors_highWater (events : List HubEvent) (hpos : ∀ e ∈ events, 1 ≤ e.seq)
    (hub : String) : HighWater events hub ((hubCursors events).get? hub) := by
  unfold hubCursors
  induction events using List.reverseRecOn with
  | nil => simp [HighWater]
  | append_singleton events event ih =>
    have ih := ih fun e he => hpos e (by simp [he])
    have hevent := hpos event (by simp)
    rw [List.foldl_append, List.foldl_cons, List.foldl_nil]
    generalize events.foldl (fun cursors event =>
      if (cursors.get? event.hubId).getD (-1) < event.seq then
        cursors.set event.hubId event.seq
      else cursors) Dict.empty = cursors at ih
    by_cases hhub : event.hubId = hub
    · subst hhub
      split
      · rename_i hlt
        rw [Dict.get?_set_self]
        refine ⟨⟨event, by simp, rfl, rfl⟩, fun e he hsame => ?_⟩
        rcases List.mem_append.mp he with he | he
        · cases hc : cursors.get? event.hubId with
          | none =>
            rw [hc] at ih
            exact absurd hsame (ih e he)
          | some top =>
            rw [hc] at ih hlt
            have := ih.2 e he hsame
            simp only [Option.getD_some] at hlt
            omega
        · rw [List.mem_singleton.mp he]
      · rename_i hge
        cases hc : cursors.get? event.hubId with
        | none =>
          rw [hc] at hge
          simp only [Option.getD_none] at hge
          omega
        | some top =>
          rw [hc] at ih hge
          obtain ⟨⟨e, he, hsame⟩, htop⟩ := ih
          refine ⟨⟨e, by simp [he], hsame⟩, fun e he hsame => ?_⟩
          rcases List.mem_append.mp he with he | he
          · exact htop e he hsame
          · rw [List.mem_singleton.mp he]
            simp only [Option.getD_some] at hge
            omega
    · have hget : (if (cursors.get? event.hubId).getD (-1) < event.seq then
          cursors.set event.hubId event.seq else cursors).get? hub = cursors.get? hub := by
        split
        · exact Dict.get?_set_ne _ _ hhub
        · rfl
      rw [hget]
      cases hc : cursors.get? hub with
      | none =>
        rw [hc] at ih
        intro e he
        rcases List.mem_append.mp he with he | he
        · exact ih e he
        · exact List.mem_singleton.mp he ▸ hhub
      | some top =>
        rw [hc] at ih
        obtain ⟨⟨e, he, hsame⟩, htop⟩ := ih
        refine ⟨⟨e, by simp [he], hsame⟩, fun e he hsame => ?_⟩
        rcases List.mem_append.mp he with he | he
        · exact htop e he hsame
        · exact absurd (List.mem_singleton.mp he ▸ hsame) hhub

/-! ## The invariant -/

/-- What holds between any two steps: each peer's events are contiguous up
to its cursor, each event is filed under its identity, and a poll in flight
is of a peer that is not quarantined and fetches from its cursor. -/
structure Sound (f : Follower) : Prop where
  contiguous : ∀ peer, Contiguous f.events peer (f.cursor peer)
  nonneg : ∀ peer, 0 ≤ f.cursor peer
  filed : Filed f.events
  inFlight : ∀ peer cursor, f.inFlight.get? peer = some cursor →
    cursor = f.cursor peer ∧ f.quarantines.get? peer = none

omit [Builtins] in
/-- The recomputed cursor of a peer is the end of its events. -/
theorem cursor_of_contiguous {events : EventMap}
    (hfiled : Filed events)
    (hcont : ∀ peer, ∃ top, 0 ≤ top ∧ Contiguous events peer top) {peer : String} {top : Int}
    (htop : 0 ≤ top) (h : Contiguous events peer top) :
    ((hubCursors events.values).get? peer).getD 0 = top := by
  have hheld : ∀ e ∈ events.values, events.get? e.identity = some e := by
    intro e he
    obtain ⟨k, hk⟩ := (events.mem_values_iff e).mp he
    rw [(hfiled k e hk).1, hk]
  have hrange : ∀ e ∈ events.values, e.hubId = peer → 1 ≤ e.seq ∧ e.seq ≤ top := by
    intro e he hpeer
    refine (h e.seq).mp ?_
    rw [← hpeer]
    show events.get? e.identity ≠ none
    rw [hheld e he]
    simp
  have hlast : 1 ≤ top → ∃ e ∈ events.values, e.hubId = peer ∧ e.seq = top := by
    intro hone
    obtain ⟨e, he⟩ := Option.ne_none_iff_exists'.mp ((h top).mpr ⟨hone, le_refl _⟩)
    have hid := (hfiled _ e he).1
    exact ⟨e, (events.mem_values_iff e).mpr ⟨_, he⟩, congrArg Prod.fst hid, congrArg Prod.snd hid⟩
  have hpos : ∀ e ∈ events.values, 1 ≤ e.seq := by
    intro e he
    obtain ⟨t, -, ht⟩ := hcont e.hubId
    refine ((ht e.seq).mp ?_).1
    show events.get? e.identity ≠ none
    rw [hheld e he]
    simp
  have hwater := hubCursors_highWater events.values hpos peer
  cases hc : (hubCursors events.values).get? peer with
  | none =>
    rw [hc] at hwater
    by_contra hne
    obtain ⟨e, he, hpeer, -⟩ := hlast (by simp only [Option.getD_none] at hne; omega)
    exact hwater e he hpeer
  | some t =>
    rw [hc] at hwater
    obtain ⟨⟨e, he, hpeer, rfl⟩, hmax⟩ := hwater
    obtain ⟨hone, hle⟩ := hrange e he hpeer
    obtain ⟨e', he', hpeer', rfl⟩ := hlast (by omega)
    have := hmax e' he' hpeer'
    simp only [Option.getD_some]
    omega

omit [Builtins] in
theorem values_filed {events : EventMap} (hfiled : Filed events) :
    (∀ e ∈ events.values, e.Fingerprintable) ∧ (events.values.map HubEvent.identity).Nodup := by
  constructor
  · intro e he
    obtain ⟨k, hk⟩ := (events.mem_values_iff e).mp he
    exact (hfiled k e hk).2
  · have hkeys : events.values.map HubEvent.identity = events.keys := by
      rw [Dict.values, Dict.keys, List.map_map]
      refine List.map_congr_left fun item hitem => ?_
      exact (hfiled item.1 item.2 ((events.mem_items_iff _ _).mp hitem)).1
    exact hkeys ▸ events.nodup

theorem merge_filed {events : EventMap} (hfiled : Filed events) :
    mergeEventLogs [events.values] = .ok (sortedBy keyLt HubEvent.orderKey events.values) := by
  obtain ⟨hvalues, hnodup⟩ := values_filed hfiled
  have hflat : [events.values].flatten = events.values := by simp
  rw [mergeEventLogs_ok (by rwa [hflat]) (by rwa [hflat]), hflat]

theorem fold_filed {events : EventMap} (hfiled : Filed events) :
    ∃ view, (mergeEventLogs [events.values] >>= foldObservedState) = .ok view := by
  obtain ⟨hvalues, hnodup⟩ := values_filed hfiled
  have hsorted := inOrder_sorted (fun e he => (hvalues e he).timed) hnodup
  obtain ⟨view, hview⟩ := fold_ok (fun e he => hvalues e ((mem_sortedBy keyLt).mp he)) hsorted.2
  rw [merge_filed hfiled]
  exact ⟨view, hview⟩

omit [Builtins] in
/-- The follower with the poll of `peer` over. -/
def unlocked (f : Follower) (peer : String) : Follower :=
  { f with inFlight := f.inFlight.erase peer }

omit [Builtins] in
/-- The follower with the history of `peer` reset. -/
def reset (f : Follower) (peer : String) : Follower :=
  { f with
    events := f.events.filterKeys fun k => k.1 ≠ peer
    cursors := f.cursors.erase peer
    quarantines := f.quarantines.erase peer }

/-- What one step does and shows. -/
inductive FollowerStep (f : Follower) : FollowerOp → Follower × FollowerReply → Prop
  | waits (op : FollowerOp) : FollowerStep f op (f, .waiting)
  | blocked (peer : String) (held : FederationQuarantine)
      (hheld : f.quarantines.get? peer = some held) :
      FollowerStep f (.start peer) (f, .raised (.quarantined held))
  | started (peer : String) (hfree : f.quarantines.get? peer = none) :
      FollowerStep f (.start peer)
        ({ f with inFlight := f.inFlight.set peer (f.cursor peer) }, .waiting)
  | failed (peer : String) (fetched : Option (List StoredEvent)) (now : Float) (err : PollError)
      (herr : ∀ e, err = .multihub e → ¬ e.IsEquivocation) :
      FollowerStep f (.finish peer fetched now) (f.unlocked peer, .raised err)
  | equivocated (peer : String) (fetched : Option (List StoredEvent)) (now : Float) (seq : Int)
      (accepted conflicting : String) (hfree : f.quarantines.get? peer = none) :
      FollowerStep f (.finish peer fetched now)
        ((f.unlocked peer).quarantine peer seq accepted conflicting now,
          .raised (.multihub (.equivocation peer seq accepted conflicting)))
  | accepted (peer : String) (fetched : Option (List StoredEvent)) (now : Float)
      (candidate : EventMap) (view : ObservedState) (hfree : f.quarantines.get? peer = none)
      (hstaged : Staged peer f.events candidate (f.cursor peer)) :
      FollowerStep f (.finish peer fetched now)
        ({ f.unlocked peer with events := candidate, cursors := hubCursors candidate.values },
          .observed view)
  | refused (op : FollowerOp) : FollowerStep f op (f, .refused)
  | recovered (peer recoveredBy reason generation : String)
      (hheld : f.quarantines.get? peer ≠ none) :
      FollowerStep f (.recover peer recoveredBy reason generation true) (f.reset peer, .recovered)

theorem publish_step {f : Follower} (hs : f.Sound) {peer : String}
    (hfree : f.quarantines.get? peer = none) (fetched : List StoredEvent) (now : Float) :
    FollowerStep f (.finish peer (some fetched) now)
      ((f.unlocked peer).publish peer (f.cursor peer) fetched now) := by
  have hnonneg := hs.nonneg peer
  have hcont : Contiguous f.events peer (f.cursor peer + 1 - 1) := by
    rw [Int.add_sub_cancel]
    exact hs.contiguous peer
  unfold publish
  rw [show (f.unlocked peer).events = f.events from rfl]
  cases hv : validateContentBoundBatch f.events (tagEvents peer fetched) peer (f.cursor peer) with
  | error error =>
    cases error with
    | equivocation peer' seq accepted conflicting =>
      cases validateBatchLoop_equivocation hv
      exact .equivocated peer _ now seq accepted conflicting hfree
    | value message => exact .failed peer _ now (.multihub (.value message)) fun e he => by cases he; exact id
    | overflow => exact .failed peer _ now (.multihub .overflow) fun e he => by cases he; exact id
    | sequence p after observed expected =>
      exact .failed peer _ now (.multihub (.sequence p after observed expected))
        fun e he => by cases he; exact id
  | ok candidate =>
    have hstaged := validateBatchLoop_staged (by omega) hcont hv
    rw [Int.add_sub_cancel] at hstaged
    -- the staged events can be committed and repeat no identity, so the fold goes through
    obtain ⟨view, hview⟩ := fold_filed (hstaged.filed hs.filed)
    simp only [hview]
    exact .accepted peer _ now candidate view hfree hstaged

theorem apply_step {f : Follower} (hs : f.Sound) (op : FollowerOp) :
    FollowerStep f op (f.apply op) := by
  unfold apply
  cases op with
  | start peer =>
    dsimp only [start]
    split
    · exact .waits _
    · split
      · rename_i held hheld
        exact .blocked peer held hheld
      · rename_i hfree
        exact .started peer hfree
  | finish peer fetched now =>
    dsimp only [finish]
    cases hflight : f.inFlight.get? peer with
    | none => exact .waits _
    | some cursor =>
      obtain ⟨rfl, hfree⟩ := hs.inFlight peer cursor hflight
      cases fetched with
      | none => exact .failed peer none now .fetch fun e he => by cases he
      | some fetched => exact publish_step hs hfree fetched now
  | recover peer recoveredBy reason generation journalled =>
    dsimp only [recoverPeer]
    split
    · exact .refused _
    rename_i hheld
    split
    · exact .refused _
    split
    · exact .refused _
    rename_i hjournalled
    have hheld' : f.quarantines.get? peer ≠ none := by
      intro hnone
      simp [Dict.contains, hnone] at hheld
    cases journalled with
    | false => exact absurd rfl hjournalled
    | true => exact .recovered peer recoveredBy reason generation hheld'

/-! ## The invariant is kept -/

section

omit [Builtins]

theorem Sound.accept {f : Follower} (hs : f.Sound) {peer : String} {candidate : EventMap}
    (h : Staged peer f.events candidate (f.cursor peer))
    (hfree : f.inFlight.get? peer = none) :
    Sound { f with events := candidate, cursors := hubCursors candidate.values } := by
  obtain ⟨top', htop, hcont'⟩ := h.contiguous
  have hfiled := h.filed hs.filed
  have hother : ∀ p, p ≠ peer → Contiguous candidate p (f.cursor p) := by
    intro p hp seq
    rw [h.frame (p, seq) hp]
    exact hs.contiguous p seq
  have hnonneg := hs.nonneg peer
  have hall : ∀ p, ∃ top, 0 ≤ top ∧ Contiguous candidate p top := by
    intro p
    by_cases hp : p = peer
    · exact ⟨top', by omega, hp ▸ hcont'⟩
    · exact ⟨f.cursor p, hs.nonneg p, hother p hp⟩
  have hcursor : ∀ p top, 0 ≤ top → Contiguous candidate p top →
      ((hubCursors candidate.values).get? p).getD 0 = top := fun p top =>
    cursor_of_contiguous hfiled hall
  refine ⟨fun p => ?_, fun p => ?_, hfiled, fun p cursor hp => ?_⟩
  · obtain ⟨top, htop, hcont⟩ := hall p
    rw [cursor, hcursor p top htop hcont]
    exact hcont
  · obtain ⟨top, htop, hcont⟩ := hall p
    rw [cursor, hcursor p top htop hcont]
    exact htop
  · obtain ⟨hc, hq⟩ := hs.inFlight p cursor hp
    refine ⟨?_, hq⟩
    have hne : p ≠ peer := by
      rintro rfl
      rw [hfree] at hp
      cases hp
    rw [hc, Follower.cursor, Follower.cursor, hcursor p _ (hs.nonneg p) (hother p hne)]
    rfl

theorem Sound.unlocked {f : Follower} (hs : f.Sound) (peer : String) : (f.unlocked peer).Sound := by
  refine ⟨hs.contiguous, hs.nonneg, hs.filed, fun p cursor hp => ?_⟩
  have hp' : (f.inFlight.erase peer).get? p = some cursor := hp
  rw [Dict.get?_erase] at hp'
  split at hp'
  · cases hp'
  · exact hs.inFlight p cursor hp'

theorem unlocked_free (f : Follower) (peer : String) :
    (f.unlocked peer).inFlight.get? peer = none := Dict.get?_erase_self _ _

theorem Sound.quarantine {f : Follower} (hs : f.Sound) {peer : String}
    (hfree : f.inFlight.get? peer = none) (seq : Int) (accepted conflicting : String)
    (now : Float) : (f.quarantine peer seq accepted conflicting now).Sound := by
  refine ⟨hs.contiguous, hs.nonneg, hs.filed, fun p cursor hp => ?_⟩
  obtain ⟨hc, hq⟩ := hs.inFlight p cursor hp
  have hne : peer ≠ p := by
    rintro rfl
    rw [show f.inFlight.get? peer = some cursor from hp] at hfree
    cases hfree
  exact ⟨hc, (Dict.get?_set_ne _ _ hne).trans hq⟩

theorem reset_events (f : Follower) (peer p : String) (seq : Int) :
    (f.reset peer).events.get? (p, seq) = if p = peer then none else f.events.get? (p, seq) := by
  rw [reset, Dict.get?_filterKeys]
  by_cases hp : p = peer <;> simp [hp]

theorem reset_cursor (f : Follower) (peer p : String) :
    (f.reset peer).cursor p = if p = peer then 0 else f.cursor p := by
  rw [cursor, reset, Dict.get?_erase]
  split <;> rfl

theorem Sound.reset {f : Follower} (hs : f.Sound) {peer : String}
    (hheld : f.quarantines.get? peer ≠ none) : (f.reset peer).Sound := by
  refine ⟨fun p seq => ?_, fun p => ?_, fun k e hk => ?_, fun p cursor hp => ?_⟩
  · rw [reset_events, reset_cursor]
    split
    · simp only [ne_eq, not_true_eq_false, false_iff]
      omega
    · exact hs.contiguous p seq
  · rw [reset_cursor]
    split
    · exact le_refl _
    · exact hs.nonneg p
  · obtain ⟨p, seq⟩ := k
    rw [reset_events] at hk
    split at hk
    · cases hk
    · exact hs.filed _ e hk
  · obtain ⟨hc, hq⟩ := hs.inFlight p cursor hp
    have hne : p ≠ peer := fun heq => hheld (heq ▸ hq)
    rw [reset_cursor, if_neg hne]
    exact ⟨hc, (Dict.get?_erase_ne _ hne).trans hq⟩

end

theorem Sound.next {f : Follower} (hs : f.Sound) (op : FollowerOp) : (f.next op).Sound := by
  unfold Follower.next
  have hstep := apply_step hs op
  generalize f.apply op = result at hstep
  cases hstep with
  | waits => exact hs
  | blocked => exact hs
  | refused => exact hs
  | started peer hfree =>
    refine ⟨hs.contiguous, hs.nonneg, hs.filed, fun p cursor hp => ?_⟩
    have hp' : (f.inFlight.set peer (f.cursor peer)).get? p = some cursor := hp
    rw [Dict.get?_set] at hp'
    split at hp'
    · rename_i heq
      cases hp'
      exact heq ▸ ⟨rfl, hfree⟩
    · exact hs.inFlight p cursor hp'
  | failed peer => exact hs.unlocked peer
  | equivocated peer _ now seq accepted conflicting =>
    exact (hs.unlocked peer).quarantine (unlocked_free f peer) seq accepted conflicting now
  | accepted peer _ _ candidate view hfree hstaged =>
    exact (hs.unlocked peer).accept hstaged (unlocked_free f peer)
  | recovered peer _ _ _ hheld => exact hs.reset hheld

omit [Builtins] in
theorem sound_init (observerId : String) (quarantines : Dict String FederationQuarantine) :
    Sound { observerId := observerId, quarantines := quarantines } := by
  refine ⟨fun peer seq => ?_, fun peer => le_refl _, fun k e hk => ?_, fun peer cursor hp => ?_⟩
  · show none ≠ none ↔ 1 ≤ seq ∧ seq ≤ 0
    simp only [ne_eq, not_true_eq_false, false_iff]
    omega
  · cases hk
  · cases hp

theorem Sound.run {f : Follower} (hs : f.Sound) (ops : List FollowerOp) : (f.run ops).Sound :=
  Trace.invariant Follower.next (fun _ op h => h.next op) hs ops

/-! ## What a step keeps -/

/-- A step that raises publishes nothing. -/
theorem raised_unchanged {f : Follower} (hs : f.Sound) {op : FollowerOp} {err : PollError}
    (h : (f.apply op).2 = .raised err) :
    (f.next op).events = f.events ∧ (f.next op).cursors = f.cursors := by
  unfold Follower.next
  have hstep := apply_step hs op
  generalize f.apply op = result at hstep h
  cases hstep with
  | accepted => cases h
  | recovered => cases h
  | _ => exact ⟨rfl, rfl⟩

/-- An accepted event keeps its content unless its peer is recovered. -/
theorem kept_next {f : Follower} (hs : f.Sound) {op : FollowerOp} {peer : String} {seq : Int}
    {e : HubEvent} (h : f.events.get? (peer, seq) = some e) (hop : ¬ op.recovers peer) :
    (f.next op).events.get? (peer, seq) = some e := by
  unfold Follower.next
  have hstep := apply_step hs op
  generalize f.apply op = result at hstep
  cases hstep with
  | accepted _ _ _ candidate _ _ hstaged => exact hstaged.keeps _ _ h
  | recovered peer' =>
    have hne : peer ≠ peer' := fun heq => hop heq.symm
    rw [reset_events, if_neg hne, h]
  | _ => exact h

/-- A quarantine stays unless its peer is recovered. -/
theorem quarantined_next {f : Follower} (hs : f.Sound) {op : FollowerOp} {peer : String}
    (h : f.quarantines.get? peer ≠ none) (hop : ¬ op.recovers peer) :
    (f.next op).quarantines.get? peer ≠ none := by
  unfold Follower.next
  have hstep := apply_step hs op
  generalize f.apply op = result at hstep
  cases hstep with
  | equivocated peer' _ now seq accepted conflicting =>
    show (f.quarantines.set peer' _).get? peer ≠ none
    rw [Dict.get?_set]
    split
    · simp
    · exact h
  | recovered peer' =>
    have hne : peer ≠ peer' := fun heq => hop heq.symm
    show (f.quarantines.erase peer').get? peer ≠ none
    rwa [Dict.get?_erase_ne _ hne]
  | _ => exact h

theorem equivocation_quarantines {f : Follower} (hs : f.Sound) {op : FollowerOp} {peer : String}
    {seq : Int} {accepted conflicting : String}
    (h : (f.apply op).2 = .raised (.multihub (.equivocation peer seq accepted conflicting))) :
    (f.next op).quarantines.get? peer ≠ none := by
  unfold Follower.next
  have hstep := apply_step hs op
  generalize f.apply op = result at hstep h
  cases hstep with
  | failed _ _ _ err herr =>
    cases h
    exact absurd trivial (herr _ rfl)
  | equivocated peer' =>
    cases h
    show (f.quarantines.set peer _).get? peer ≠ none
    rw [Dict.get?_set_self]
    simp
  | waits => cases h
  | blocked => cases h
  | started => cases h
  | accepted => cases h
  | refused => cases h
  | recovered => cases h

/-- A quarantined peer is not polled. -/
theorem quarantined_refuses {f : Follower} (hs : f.Sound) {peer : String}
    (h : f.quarantines.get? peer ≠ none) :
    (∃ held, (f.apply (.start peer)).2 = .raised (.quarantined held)) ∧
      ∀ fetched now view, (f.apply (.finish peer fetched now)).2 ≠ .observed view := by
  obtain ⟨held, hheld⟩ := Option.ne_none_iff_exists'.mp h
  have hfree : f.inFlight.get? peer = none := by
    cases hflight : f.inFlight.get? peer with
    | none => rfl
    | some cursor => exact absurd (hs.inFlight peer cursor hflight).2 h
  constructor
  · exact ⟨held, by simp [apply, start, Dict.contains, hfree, hheld]⟩
  · intro fetched now view
    simp [apply, finish, hfree]

/-- What every step but a recovery of `peer` keeps lasts until one. -/
theorem run_keeps {f : Follower} (hs : f.Sound) {peer : String} (P : Follower → Prop)
    (hstep : ∀ g : Follower, g.Sound → ∀ op : FollowerOp, ¬ op.recovers peer → P g → P (g.next op))
    (h : P f) {later : List FollowerOp} (hlater : ∀ op ∈ later, ¬ op.recovers peer) :
    (f.run later).Sound ∧ P (f.run later) := by
  induction later generalizing f with
  | nil => exact ⟨hs, h⟩
  | cons op rest ih =>
    exact ih (hs.next op) (hstep f hs op (hlater op (by simp)) h)
      fun op' hop' => hlater op' (by simp [hop'])

/-! ## Safety -/

/-- Follower safety, in every state of every interleaving of polls and
recoveries: each peer's accepted events are the contiguous sequences up to
its cursor; an accepted identity keeps its content until its peer is
recovered; a poll that raises leaves all events and cursors; and after an
equivocation the peer's polls are refused until it is recovered. -/
theorem follower_safety (observerId : String) (quarantines : Dict String FederationQuarantine)
    (ops : List FollowerOp) :
    let f : Follower := run { observerId := observerId, quarantines := quarantines } ops
    (∀ peer seq, f.events.get? (peer, seq) ≠ none ↔ 1 ≤ seq ∧ seq ≤ f.cursor peer) ∧
    (∀ k e, f.events.get? k = some e → e.identity = k) ∧
    (∀ peer seq e later, f.events.get? (peer, seq) = some e →
      (∀ op ∈ later, ¬ FollowerOp.recovers peer op) →
      (f.run later).events.get? (peer, seq) = some e) ∧
    (∀ op err, (f.apply op).2 = .raised err →
      (f.next op).events = f.events ∧ (f.next op).cursors = f.cursors) ∧
    ∀ op peer seq accepted conflicting,
      (f.apply op).2 = .raised (.multihub (.equivocation peer seq accepted conflicting)) →
      ∀ later, (∀ op ∈ later, ¬ FollowerOp.recovers peer op) →
        (∃ held, (((f.next op).run later).apply (.start peer)).2 =
          .raised (.quarantined held)) ∧
        ∀ fetched now view,
          (((f.next op).run later).apply (.finish peer fetched now)).2 ≠ .observed view := by
  intro f
  have hs : f.Sound := (sound_init observerId quarantines).run ops
  refine ⟨hs.contiguous, fun k e hk => (hs.filed k e hk).1, ?_, fun op err h =>
    raised_unchanged hs h, ?_⟩
  · intro peer seq e later he hlater
    exact (run_keeps hs (fun g => g.events.get? (peer, seq) = some e)
      (fun g hg op hop h => kept_next hg h hop) he hlater).2
  · intro op peer seq accepted conflicting h later hlater
    obtain ⟨hs', hq⟩ := run_keeps (hs.next op) (fun g => g.quarantines.get? peer ≠ none)
      (fun g hg op hop h => quarantined_next hg h hop) (equivocation_quarantines hs h) hlater
    exact quarantined_refuses hs' hq

/-! ## Convergence -/

/-- The union of filed events does not depend on the order they were accepted in. -/
theorem merge_same {events events' : EventMap} (hfiled : Filed events) (hfiled' : Filed events')
    (h : events.Same events') : mergeEventLogs [events.values] = mergeEventLogs [events'.values] := by
  have hitems : events.items.Perm events'.items := by
    refine (List.perm_ext_iff_of_nodup (.of_map _ events.nodup) (.of_map _ events'.nodup)).mpr ?_
    intro item
    rw [events.mem_items_iff, events'.mem_items_iff, h]
  obtain ⟨hvalues, hnodup⟩ := values_filed hfiled
  obtain ⟨hvalues', hnodup'⟩ := values_filed hfiled'
  have hperm := (sortedBy_perm keyLt HubEvent.orderKey events.values).trans
    ((hitems.map Prod.snd).trans (sortedBy_perm keyLt HubEvent.orderKey events'.values).symm)
  rw [merge_filed hfiled, merge_filed hfiled']
  refine congrArg Except.ok (hperm.eq_of_pairwise ?_
    (inOrder_sorted (fun e he => (hvalues e he).timed) hnodup).1
    (inOrder_sorted (fun e he => (hvalues' e he).timed) hnodup').1)
  intro a b ha hb hab hba
  have hlater := keyLt_asymm (hvalues a ((mem_sortedBy keyLt).mp ha)).timed
    (hvalues' b ((mem_sortedBy keyLt).mp hb)).timed hab
  exact absurd hba (hlater ▸ Bool.false_ne_true)

/-- A view that is shown is the fold of the events accepted by then. -/
theorem observed_fold {f next : Follower} {op : FollowerOp} {view : ObservedState}
    (h : f.apply op = (next, .observed view)) :
    (mergeEventLogs [next.events.values] >>= foldObservedState) = .ok view := by
  cases op with
  | start peer =>
    dsimp only [apply, start] at h
    split at h
    · cases h
    · split at h <;> cases h
  | recover peer recoveredBy reason generation journalled =>
    dsimp only [apply, recoverPeer] at h
    split at h
    · cases h
    · split at h
      · cases h
      · split at h <;> cases h
  | finish peer fetched now =>
    dsimp only [apply, finish, publish] at h
    split at h
    · cases h
    split at h
    · cases h
    split at h
    · cases h
    · cases h
    split at h
    · cases h
    · rename_i hview
      cases h
      exact hview

/-- Followers that accepted the same events show the same view, in whatever order their polls and
recoveries ran; and what a follower accepted always merges and folds. -/
theorem followers_converge (observerId observerId' : String)
    (quarantines quarantines' : Dict String FederationQuarantine) (ops ops' : List FollowerOp) :
    let f : Follower := run { observerId := observerId, quarantines := quarantines } ops
    let g : Follower := run { observerId := observerId', quarantines := quarantines' } ops'
    (∃ view, (mergeEventLogs [f.events.values] >>= foldObservedState) = .ok view) ∧
    ∀ op op' view view', (f.apply op).2 = .observed view → (g.apply op').2 = .observed view' →
      (f.next op).events.Same (g.next op').events → view = view' := by
  intro f g
  have hf : f.Sound := (sound_init observerId quarantines).run ops
  have hg : g.Sound := (sound_init observerId' quarantines').run ops'
  refine ⟨fold_filed hf.filed, fun op op' view view' hview hview' hsame => ?_⟩
  have hfold := observed_fold (Prod.ext rfl hview : f.apply op = (f.next op, .observed view))
  rw [merge_same (hf.next op).filed (hg.next op').filed hsame,
    observed_fold (Prod.ext rfl hview' : g.apply op' = (g.next op', .observed view'))] at hfold
  exact (Except.ok.inj hfold).symm

end Follower

end SynapseChannel
