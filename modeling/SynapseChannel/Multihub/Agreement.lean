import SynapseChannel.Multihub.Fold

/-!
# Multihub — Agreement

One hub's log, read twice: by replay, which rebuilds its claims map, and
by a follower's folds, which derive the observed claims and the hubs
asserting a namespace. The two read the claim-family kinds differently;
they agree exactly on logs where that difference does not show.
-/

namespace SynapseChannel

open Py Outcome

variable [Builtins]

/-! ## Logs of one hub -/

/-- A row as a hub writes it: the task it names, and the owner a snapshot
names, are stripped and not empty. -/
structure CleanRow (event : StoredEvent) : Prop where
  task : strip (taskOf event.payload) = taskOf event.payload
  task_ne : taskOf event.payload ≠ ""
  owner : event.kind ≠ EventKind.release → strip (ownerOf event.payload) = ownerOf event.payload
  owner_ne : event.kind ≠ EventKind.release → ownerOf event.payload ≠ ""

/-- One hub's log: sequences increase, timestamps do not decrease, and
the rows of the claim family are as the hub writes them. -/
structure HubLog (log : List StoredEvent) : Prop where
  increasing : log.Pairwise fun a b => a.seq < b.seq
  timely : log.Pairwise fun a b => ¬ b.ts < a.ts
  clean : ∀ e ∈ log, e.kind ∈ EventKind.lease → CleanRow e

theorem HubLog.merged {log : List StoredEvent} (h : HubLog log) {hub : String}
    {merged : List HubEvent} (hm : mergeEventLogs [tagEvents hub log] = .ok merged) :
    merged = tagEvents hub log ∧ ∃ view, foldObservedState merged = .ok view := by
  have hlogs : HubLogs [(hub, tagEvents hub log)] := by
    refine ⟨by simp, fun entry hentry => ?_, fun entry hentry => ?_⟩
    · cases List.mem_singleton.mp hentry
      intro e he
      obtain ⟨event, -, rfl⟩ := List.mem_map.mp he
      rfl
    · cases List.mem_singleton.mp hentry
      exact List.pairwise_map.mpr h.increasing
  obtain ⟨hfp, heq⟩ := mergeEventLogs_nodup hlogs.identities hm
  obtain ⟨-, -, -, hview⟩ := hlogs.merged hm
  refine ⟨?_, hview⟩
  rw [List.map_singleton, List.flatten_singleton] at hfp heq
  rw [heq]
  apply sortedBy_eq_self
  refine List.pairwise_map.mpr ((h.increasing.and h.timely).imp_of_mem fun {a b} ha hb hab => ?_)
  have htimed : ∀ {e}, e ∈ log → (HubEvent.fromStored hub e).orderKey.Timed := fun he =>
    (hfp _ (List.mem_map_of_mem he)).timed
  rw [← Bool.not_eq_true, keyLt_iff (htimed hb) (htimed ha)]
  rintro (hlt | ⟨-, hlt | ⟨-, hlt⟩⟩)
  · exact hab.2 hlt
  · exact String.lt_irrefl _ hlt
  · have := hab.1
    simp only [HubEvent.orderKey, HubEvent.fromStored] at hlt
    omega

/-! ## The rows that decide -/

/-- The kinds a follower's folds read. -/
def observedKinds : List String := EventKind.release :: claimKinds

/-- The last row of the given kinds that names `task`. -/
def lastRow (kinds : List String) (task : String) (log : List StoredEvent) :
    Option StoredEvent :=
  LastWrite.last (fun e => decide (e.kind ∈ kinds) && taskOf e.payload == task) log

/-- Wherever a task's last claim-family row is one the folds pass over, a
checkpoint or a handoff, the last row they do read is a claim or an update
by the same owner. -/
def HeadsAgree (log : List StoredEvent) : Prop :=
  ∀ task e, lastRow EventKind.lease task log = some e →
    e.kind ∈ [EventKind.checkpoint, EventKind.handoff] →
    ∃ e', lastRow observedKinds task log = some e' ∧ e'.kind ∈ claimKinds ∧
      ownerOf e'.payload = ownerOf e.payload

omit [Builtins] in
theorem observedKinds_sub : ∀ k ∈ observedKinds, k ∈ EventKind.lease := by decide

omit [Builtins] in
theorem lease_cases : ∀ k ∈ EventKind.lease,
    k ∈ observedKinds ∨ k ∈ [EventKind.checkpoint, EventKind.handoff] := by decide

theorem lastRow_some {kinds : List String} {task : String} {log : List StoredEvent}
    {e : StoredEvent} (h : lastRow kinds task log = some e) :
    e ∈ log ∧ e.kind ∈ kinds ∧ taskOf e.payload = task := by
  obtain ⟨hmem, hp⟩ := LastWrite.last_eq_some _ h
  simp only [Bool.and_eq_true, decide_eq_true_eq, beq_iff_eq] at hp
  exact ⟨hmem, hp⟩

theorem lastRow_observed {task : String} {log : List StoredEvent} {e : StoredEvent}
    (h : lastRow EventKind.lease task log = some e) (hkind : e.kind ∈ observedKinds) :
    lastRow observedKinds task log = some e := by
  refine LastWrite.last_of_imp _ h ?_ fun b hb => ?_
  · simp [hkind, (lastRow_some h).2.2]
  · simp only [Bool.and_eq_true, decide_eq_true_eq] at hb ⊢
    exact ⟨observedKinds_sub _ hb.1, hb.2⟩

theorem lastRow_none {task : String} {log : List StoredEvent}
    (h : lastRow EventKind.lease task log = none) : lastRow observedKinds task log = none := by
  rw [lastRow, LastWrite.last_eq_none] at h ⊢
  intro e he
  rw [Bool.eq_false_iff]
  intro hp
  apply Bool.eq_false_iff.mp (h e he)
  simp only [Bool.and_eq_true, decide_eq_true_eq] at hp ⊢
  exact ⟨observedKinds_sub _ hp.1, hp.2⟩

/-! ## Owners on both sides -/

/-- The owner a deciding row leaves. -/
def rowOwner (e : StoredEvent) : Option String :=
  if e.kind = EventKind.release then none else some (ownerOf e.payload)

theorem replayed_owner {log : List StoredEvent} {start context : ReplayContext}
    (hstart : start.state.claims = Dict.empty) (h : replayEvents start log = .ok context)
    (task : String) :
    (context.state.claims.get? task).map TaskClaim.owner =
      (lastRow EventKind.lease task log).bind rowOwner := by
  have hlast := replayed_last h task
  rw [hstart, Dict.get?_empty] at hlast
  rw [hlast, show LastWrite.last (writesClaim task) log = lastRow EventKind.lease task log from rfl]
  cases hrow : lastRow EventKind.lease task log with
  | none => rfl
  | some e =>
    simp only [Option.map_some, Option.getD_some, Option.bind_some, claimAfter, rowOwner]
    split
    · rfl
    · rename_i hne
      obtain ⟨hmem, hkind, -⟩ := lastRow_some hrow
      obtain ⟨claim, hclaim⟩ := replayed_decodes h hmem
        (by simpa [EventKind.lease, hne] using hkind)
      simp [hclaim, Except.toOption, (claimFromPayload_names hclaim).2]

/-- A row of a hub's log writes a task's observed claim exactly when it is
of a kind the folds read and names the task. -/
theorem writes_iff_row {e : StoredEvent} (hclean : e.kind ∈ EventKind.lease → CleanRow e)
    (hub task : String) : writesObserved task (HubEvent.fromStored hub e) =
      (decide (e.kind ∈ observedKinds) && taskOf e.payload == task) := by
  rw [Bool.eq_iff_iff, writesObserved_iff]
  simp only [HubEvent.taskId, HubEvent.fromStored, observedKinds, List.mem_cons,
    Bool.and_eq_true, decide_eq_true_eq, beq_iff_eq]
  by_cases hkind : e.kind ∈ EventKind.lease
  · have h := hclean hkind
    rw [h.task]
    constructor
    · rintro ⟨rfl, hk | ⟨hk, -⟩⟩
      · exact ⟨.inl hk, rfl⟩
      · exact ⟨.inr hk, rfl⟩
    · rintro ⟨hk | hk, rfl⟩
      · exact ⟨rfl, .inl hk⟩
      · exact ⟨rfl, .inr ⟨hk, h.task_ne⟩⟩
  · have hno : ¬ (e.kind = EventKind.release ∨ e.kind ∈ claimKinds) := fun h =>
      hkind (observedKinds_sub _ (List.mem_cons.mpr h))
    rw [not_or] at hno
    simp [hno]

theorem lastRow_tagged {log : List StoredEvent} (hlog : HubLog log) (hub task : String) :
    LastWrite.last (writesObserved task) (tagEvents hub log) =
      (lastRow observedKinds task log).map (HubEvent.fromStored hub) :=
  LastWrite.last_map _ _ log fun e he => writes_iff_row (hlog.clean e he) hub task

theorem observed_owner {log : List StoredEvent} (hlog : HubLog log) {hub : String}
    {view : ObservedState} (h : foldObservedState (tagEvents hub log) = .ok view) (task : String) :
    (view.observedClaims.get? task).map (fun o => ownerOf o.claim) =
      (lastRow observedKinds task log).bind rowOwner := by
  rw [observed_last h task, lastRow_tagged hlog]
  cases lastRow observedKinds task log with
  | none => rfl
  | some e =>
    simp only [Option.map_some, Option.getD_some, Option.bind_some, observedAfter, rowOwner]
    show Option.map _ (if e.kind = EventKind.release then _ else _) = _
    split <;> rfl

/-- Both sides record the same owner for every task exactly when the
heads agree. -/
theorem owners_agree_iff (log : List StoredEvent) :
    (∀ task, (lastRow observedKinds task log).bind rowOwner =
      (lastRow EventKind.lease task log).bind rowOwner) ↔ HeadsAgree log := by
  constructor
  · intro h task e he hkind
    have hsame := h task
    have hne : e.kind ≠ EventKind.release := fun heq => absurd (heq ▸ hkind) (by decide)
    rw [he, Option.bind_some, rowOwner, if_neg hne, Option.bind_eq_some_iff] at hsame
    obtain ⟨e', he', howner⟩ := hsame
    unfold rowOwner at howner
    split at howner
    · cases howner
    · rename_i hne'
      refine ⟨e', he', ?_, Option.some.inj howner⟩
      have hmem := (lastRow_some he').2.1
      simpa [observedKinds, hne'] using hmem
  · intro h task
    cases he : lastRow EventKind.lease task log with
    | none => rw [lastRow_none he]
    | some e =>
      rcases lease_cases _ (lastRow_some he).2.1 with hkind | hkind
      · rw [lastRow_observed he hkind]
      · obtain ⟨e', he', hclaim, howner⟩ := h task e he hkind
        have hne : e.kind ≠ EventKind.release := fun heq => absurd (heq ▸ hkind) (by decide)
        have hne' : e'.kind ≠ EventKind.release := fun heq => absurd (heq ▸ hclaim) (by decide)
        simp [he', rowOwner, hne, hne', howner]

/-! ## Asserting hubs on both sides -/

/-- The event writes the live claim under `key`. -/
def writesLive (key : String × String) (event : HubEvent) : Bool :=
  (event.hubId, event.taskId) == key && decide (event.taskId ≠ "") &&
    decide (event.kind ∈ observedKinds)

theorem writesLive_iff {key : String × String} {event : HubEvent} :
    writesLive key event = true ↔ (event.hubId, event.taskId) = key ∧ event.taskId ≠ "" ∧
      event.kind ∈ observedKinds := by
  simp [writesLive, and_assoc]

/-- What a writing event leaves live. -/
def liveAfter (event : HubEvent) : Option Members :=
  if event.kind = EventKind.release then none else some event.payload

theorem live_last (events : List HubEvent) (key : String × String) :
    (events.foldl observeLive Dict.empty).get? key =
      ((LastWrite.last (writesLive key) events).map liveAfter).getD none := by
  refine LastWrite.foldl_decides (writesLive key) (fun d => d.get? key) liveAfter
    (fun live event hw => ?_) (fun live event hw => ?_) events Dict.empty
  · unfold observeLive
    dsimp only
    split
    · rfl
    · rename_i htask
      split
      · rename_i hkind
        refine Dict.get?_set_ne _ _ fun heq => ?_
        exact Bool.eq_false_iff.mp hw
          (writesLive_iff.mpr ⟨heq, htask, List.mem_cons_of_mem _ hkind⟩)
      · split
        · rename_i hkind
          refine Dict.get?_erase_ne _ fun heq => ?_
          exact Bool.eq_false_iff.mp hw
            (writesLive_iff.mpr ⟨heq.symm, htask, List.mem_cons.mpr (.inl hkind)⟩)
        · rfl
  · obtain ⟨rfl, htask, hkind⟩ := writesLive_iff.mp hw
    unfold observeLive
    rw [if_neg htask]
    rcases List.mem_cons.mp hkind with hkind | hkind
    · rw [if_neg (by rw [hkind]; decide), if_pos hkind, liveAfter, if_pos hkind]
      exact Dict.get?_erase_self _ _
    · rw [if_pos hkind, liveAfter, if_neg fun heq => absurd (heq ▸ hkind) (by decide)]
      exact Dict.get?_set_self _ _ _

/-- The asserters found in live claims of one hub: that hub, for each
namespace one of them belongs to. -/
def Asserts (projectOf : String → String) (hub : String)
    (items : List ((String × String) × Members)) (owners : Dict String (Finset String)) : Prop :=
  ∀ ns hubs, owners.get? ns = some hubs ↔
    (ns ≠ "" ∧ ∃ item ∈ items, namespaceOf projectOf item.2 = ns) ∧ hubs = {hub}

theorem Asserts.step {projectOf : String → String} {hub : String}
    {items : List ((String × String) × Members)} {owners : Dict String (Finset String)}
    (h : Asserts projectOf hub items owners) {item : (String × String) × Members}
    (hhub : item.1.1 = hub) :
    Asserts projectOf hub (items ++ [item]) (addAsserter projectOf owners item) := by
  intro ns hubs
  have hmem : (∃ i ∈ items ++ [item], namespaceOf projectOf i.2 = ns) ↔
      (∃ i ∈ items, namespaceOf projectOf i.2 = ns) ∨ namespaceOf projectOf item.2 = ns := by
    simp [or_and_right, exists_or]
  rw [hmem]
  unfold addAsserter
  dsimp only
  split
  · rename_i hempty
    rw [h ns hubs, hempty]
    constructor
    · rintro ⟨⟨hne, hitem⟩, hhubs⟩
      exact ⟨⟨hne, .inl hitem⟩, hhubs⟩
    · rintro ⟨⟨hne, hitem | heq⟩, hhubs⟩
      · exact ⟨⟨hne, hitem⟩, hhubs⟩
      · exact absurd heq.symm hne
  · rename_i hne
    rw [Dict.get?_set]
    split
    · rename_i heq
      have hset : insert hub ((owners.get? (namespaceOf projectOf item.2)).getD ∅) = {hub} := by
        cases hold : owners.get? (namespaceOf projectOf item.2) with
        | none => rfl
        | some old =>
          rw [((h _ _).mp hold).2]
          simp
      rw [hhub, hset, Option.some.injEq]
      constructor
      · intro hhubs
        exact ⟨⟨heq ▸ hne, .inr heq⟩, hhubs.symm⟩
      · rintro ⟨-, hhubs⟩
        exact hhubs.symm
    · rename_i heq
      rw [h ns hubs]
      simp [heq]

theorem asserts_foldl {projectOf : String → String} {hub : String}
    (items : List ((String × String) × Members)) (hhub : ∀ item ∈ items, item.1.1 = hub) :
    Asserts projectOf hub items (items.foldl (addAsserter projectOf) Dict.empty) := by
  induction items using List.reverseRecOn with
  | nil =>
    intro ns hubs
    simp
  | append_singleton items item ih =>
    rw [List.foldl_append, List.foldl_cons, List.foldl_nil]
    have hitems : ∀ i ∈ items, i.1.1 = hub := fun i hi => hhub i (List.mem_append_left _ hi)
    exact (ih hitems).step (hhub item (List.mem_append_right _ (List.mem_singleton.mpr rfl)))

theorem localLt_sorted {log : List StoredEvent} (hlog : HubLog log) (hub : String) :
    sortedBy localLt HubEvent.identity (tagEvents hub log) = tagEvents hub log := by
  apply sortedBy_eq_self
  refine List.pairwise_map.mpr (hlog.increasing.imp fun {a b} hab => ?_)
  simp only [localLt, HubEvent.identity, HubEvent.fromStored, String.lt_irrefl, decide_false,
    Bool.false_or, BEq.rfl, Bool.true_and]
  exact decide_eq_false (by omega)

theorem last_live_tagged {log : List StoredEvent} (hlog : HubLog log) (hub : String)
    (key : String × String) : LastWrite.last (writesLive key) (tagEvents hub log) =
      if key.1 = hub then (lastRow observedKinds key.2 log).map (HubEvent.fromStored hub)
      else none := by
  split
  · rename_i hhub
    refine LastWrite.last_map _ _ log fun e he => ?_
    show writesLive key (HubEvent.fromStored hub e) = _
    have hkey : (hub, strip (taskOf e.payload)) = key ↔ strip (taskOf e.payload) = key.2 := by
      rw [Prod.ext_iff]
      simp [hhub]
    rw [Bool.eq_iff_iff, writesLive_iff]
    show (hub, strip (taskOf e.payload)) = key ∧ strip (taskOf e.payload) ≠ "" ∧
      e.kind ∈ observedKinds ↔ _
    rw [hkey]
    simp only [Bool.and_eq_true, decide_eq_true_eq, beq_iff_eq]
    constructor
    · rintro ⟨htask, -, hkind⟩
      rw [(hlog.clean e he (observedKinds_sub _ hkind)).task] at htask
      exact ⟨hkind, htask⟩
    · rintro ⟨hkind, htask⟩
      have hclean := hlog.clean e he (observedKinds_sub _ hkind)
      rw [hclean.task]
      exact ⟨htask, hclean.task_ne, hkind⟩
  · rename_i hhub
    rw [LastWrite.last_eq_none]
    intro event hevent
    obtain ⟨e, -, rfl⟩ := List.mem_map.mp hevent
    rw [Bool.eq_false_iff]
    intro hw
    exact hhub (congrArg Prod.fst (writesLive_iff.mp hw).1).symm

theorem namespaceOf_clean {e : StoredEvent} (h : CleanRow e) (hkind : e.kind ∈ claimKinds)
    (projectOf : String → String) : namespaceOf projectOf e.payload = projectOf (ownerOf e.payload) := by
  have hne : e.kind ≠ EventKind.release := fun heq => absurd (heq ▸ hkind) (by decide)
  simp only [namespaceOf, h.owner hne, h.owner_ne hne, if_false]

/-- The namespaces a hub's log asserts are those of the owners its
observed claims record. -/
theorem asserting_owners_iff {log : List StoredEvent} (hlog : HubLog log) (hub : String)
    (projectOf : String → String) (ns : String) (hubs : Finset String) :
    (assertingOwnersFromEvents (tagEvents hub log) projectOf).get? ns = some hubs ↔
      (ns ≠ "" ∧ ∃ task owner, (lastRow observedKinds task log).bind rowOwner = some owner ∧
        projectOf owner = ns) ∧ hubs = {hub} := by
  unfold assertingOwnersFromEvents
  rw [localLt_sorted hlog]
  dsimp only
  generalize hlive : (tagEvents hub log).foldl observeLive Dict.empty = live
  -- a live claim is the payload of the task's last observed row
  have hitem : ∀ key payload, live.get? key = some payload ↔ key.1 = hub ∧
      ∃ e, lastRow observedKinds key.2 log = some e ∧ e.kind ∈ claimKinds ∧
        e.payload = payload := by
    intro key payload
    rw [← hlive, live_last, last_live_tagged hlog]
    split
    · rename_i hhub
      cases hrow : lastRow observedKinds key.2 log with
      | none => simp
      | some e =>
        have hkind := (lastRow_some hrow).2.1
        have hcases : e.kind = EventKind.release ∨ e.kind ∈ claimKinds := List.mem_cons.mp hkind
        simp only [Option.map_some, Option.getD_some, liveAfter, hhub, true_and,
          Option.some.injEq, exists_eq_left']
        show (if e.kind = EventKind.release then none else some e.payload) = some payload ↔ _
        split
        · rename_i hrel
          simp [hrel, claimKinds, EventKind.release, EventKind.claim, EventKind.taskUpdate]
        · rename_i hrel
          simp [hcases.resolve_left hrel]
    · rename_i hhub
      simp [hhub]
  have hitems : ∀ item ∈ live.items, item.1.1 = hub := fun item hi =>
    ((hitem item.1 item.2).mp ((live.mem_items_iff _ _).mp hi)).1
  rw [asserts_foldl live.items hitems ns hubs]
  refine and_congr_left fun _ => and_congr_right fun _ => ?_
  constructor
  · rintro ⟨item, hmem, hns⟩
    obtain ⟨-, e, he, hkind, hpayload⟩ := (hitem _ _).mp ((live.mem_items_iff _ _).mp hmem)
    refine ⟨item.1.2, ownerOf e.payload, ?_, ?_⟩
    · rw [he, Option.bind_some, rowOwner,
        if_neg fun heq => absurd (heq ▸ hkind) (by decide)]
    · rw [← hns, ← hpayload, namespaceOf_clean (hlog.clean e (lastRow_some he).1
        (observedKinds_sub _ (lastRow_some he).2.1)) hkind]
  · rintro ⟨task, owner, howner, hns⟩
    obtain ⟨e, he, hrow⟩ := Option.bind_eq_some_iff.mp howner
    unfold rowOwner at hrow
    split at hrow
    · cases hrow
    · rename_i hrel
      cases hrow
      have hkind : e.kind ∈ claimKinds :=
        (List.mem_cons.mp (lastRow_some he).2.1).resolve_left hrel
      refine ⟨((hub, task), e.payload), (live.mem_items_iff _ _).mpr
        ((hitem _ _).mpr ⟨rfl, e, he, hkind, rfl⟩), ?_⟩
      rw [← hns, namespaceOf_clean (hlog.clean e (lastRow_some he).1
        (observedKinds_sub _ (lastRow_some he).2.1)) hkind]

/-! ## Agreement -/

/-- The observed claims and the asserted namespaces of one hub's merged
log are those of the replayed claims. -/
def Agrees (hub : String) (merged : List HubEvent) (claims : Dict String TaskClaim) : Prop :=
  ∃ view, foldObservedState merged = .ok view ∧
    (∀ task, (view.observedClaims.get? task).map (fun o => ownerOf o.claim) =
      (claims.get? task).map TaskClaim.owner) ∧
    ∀ projectOf ns hubs, (assertingOwnersFromEvents merged projectOf).get? ns = some hubs ↔
      (ns ≠ "" ∧ ∃ task claim, claims.get? task = some claim ∧ projectOf claim.owner = ns) ∧
        hubs = {hub}

/-- A follower's view of one hub agrees with what replay rebuilds exactly
when no task's last word is a checkpoint or a handoff that the folds, which
pass over both, would have had to read. -/
theorem observed_agrees_iff {log : List StoredEvent} (hlog : HubLog log) (hub : String)
    {start context : ReplayContext} (hstart : start.state.claims = Dict.empty)
    (hreplay : replayEvents start log = .ok context) {merged : List HubEvent}
    (hmerge : mergeEventLogs [tagEvents hub log] = .ok merged) :
    Agrees hub merged context.state.claims ↔ HeadsAgree log := by
  obtain ⟨rfl, view, hview⟩ := hlog.merged hmerge
  have hreplayed := replayed_owner hstart hreplay
  rw [← owners_agree_iff]
  constructor
  · rintro ⟨view', hview', howners, -⟩ task
    rw [← observed_owner hlog hview', howners, hreplayed]
  · intro h
    refine ⟨view, hview, fun task => ?_, fun projectOf ns hubs => ?_⟩
    · rw [observed_owner hlog hview, h, hreplayed]
    · rw [asserting_owners_iff hlog]
      have hclaims : ∀ task owner, (lastRow observedKinds task log).bind rowOwner = some owner ↔
          ∃ claim, context.state.claims.get? task = some claim ∧ claim.owner = owner := by
        intro task owner
        rw [h, ← hreplayed, Option.map_eq_some_iff]
      refine and_congr_left fun _ => and_congr_right fun _ => exists_congr fun task => ?_
      constructor
      · rintro ⟨owner, howner, hns⟩
        obtain ⟨claim, hclaim, rfl⟩ := (hclaims task owner).mp howner
        exact ⟨claim, hclaim, hns⟩
      · rintro ⟨claim, hclaim, hns⟩
        exact ⟨claim.owner, (hclaims task _).mpr ⟨claim, hclaim, rfl⟩, hns⟩

/-- A claim on `T` as its owner journals it. -/
def sampleClaim (owner : String) (epoch : Int) : TaskClaim :=
  { taskId := "T", owner, note := "", claimedAt := 1, leaseExpiresAt := 3601,
    quotaPrincipal := owner, epoch, ownershipEpoch := epoch }

/-- `p/a` claims a task. -/
def sampleLog : List StoredEvent := [⟨1, 1, EventKind.claim, (sampleClaim "p/a" 1).asPersistedDict⟩]

/-- `p/a` claims a task and hands it to `q/b`. -/
def handoffLog : List StoredEvent :=
  sampleLog ++ [⟨2, 2, EventKind.handoff, (sampleClaim "q/b" 2).asPersistedDict⟩]

def emptyStart : ReplayContext where
  state := SynapseState.init .null .null .null .null
  blackboard := Blackboard.init 5000 1000 1000

omit [Builtins] in
theorem handoffLog_hubLog :
    letI : Builtins := Builtins.ascii
    HubLog handoffLog := by
  let _ : Builtins := Builtins.ascii
  refine ⟨by simp [handoffLog, sampleLog], ?_, ?_⟩
  · simp only [handoffLog, sampleLog, List.singleton_append, List.pairwise_cons, List.mem_singleton,
      forall_eq, List.not_mem_nil, false_implies, implies_true, List.Pairwise.nil, and_self,
      and_true]
    decide +kernel
  · intro e he _
    simp only [handoffLog, sampleLog, List.singleton_append, List.mem_cons, List.not_mem_nil,
      or_false] at he
    rcases he with rfl | rfl
    · exact ⟨by decide +kernel, by decide +kernel, fun _ => by decide +kernel,
        fun _ => by decide +kernel⟩
    · exact ⟨by decide +kernel, by decide +kernel, fun _ => by decide +kernel,
        fun _ => by decide +kernel⟩

omit [Builtins] in
/-- The two readings of a log that a handoff ends do not agree. -/
theorem observed_agrees_handoff :
    letI : Builtins := Builtins.ascii
    ∃ context merged, replayEvents emptyStart handoffLog = .ok context ∧
      mergeEventLogs [tagEvents "h" handoffLog] = .ok merged ∧
      (Agrees "h" merged context.state.claims ↔ HeadsAgree handoffLog) := by
  let _ : Builtins := Builtins.ascii
  have hreplay : (replayEvents emptyStart handoffLog).isOk = true := by decide +kernel
  have hmerge : (mergeEventLogs [tagEvents "h" handoffLog]).isOk = true := by decide +kernel
  cases hr : replayEvents emptyStart handoffLog with
  | error _ =>
    rw [hr] at hreplay
    cases hreplay
  | ok context =>
    cases hm : mergeEventLogs [tagEvents "h" handoffLog] with
    | error _ =>
      rw [hm] at hmerge
      cases hmerge
    | ok merged =>
      exact ⟨context, merged, rfl, rfl, observed_agrees_iff handoffLog_hubLog "h" rfl hr hm⟩

/-- The owner of `T` that the fold of a merge shows. -/
def shownOwner (merged : List HubEvent) : Option String :=
  match foldObservedState merged with
  | .ok view => (view.observedClaims.get? "T").map fun o => ownerOf o.claim
  | .error _ => none

omit [Builtins] in
/-- After a handoff the follower still shows the giver. -/
theorem handoff_unobserved :
    letI : Builtins := Builtins.ascii
    HubLog handoffLog ∧ ∃ context merged, replayEvents emptyStart handoffLog = .ok context ∧
      mergeEventLogs [tagEvents "h" handoffLog] = .ok merged ∧
      ¬ Agrees "h" merged context.state.claims := by
  let _ : Builtins := Builtins.ascii
  refine ⟨handoffLog_hubLog, ?_⟩
  have hreplay : ((replayEvents emptyStart handoffLog).toOption.bind
      fun context => (context.state.claims.get? "T").map TaskClaim.owner) = some "q/b" := by
    decide +kernel
  have hmerge : ((mergeEventLogs [tagEvents "h" handoffLog]).toOption.bind shownOwner) =
      some "p/a" := by decide +kernel
  cases hr : replayEvents emptyStart handoffLog with
  | error _ =>
    rw [hr] at hreplay
    cases hreplay
  | ok context =>
    cases hm : mergeEventLogs [tagEvents "h" handoffLog] with
    | error _ =>
      rw [hm] at hmerge
      cases hmerge
    | ok merged =>
      refine ⟨context, merged, rfl, rfl, ?_⟩
      rintro ⟨view, hview, howners, -⟩
      rw [hr] at hreplay
      rw [hm] at hmerge
      have hshown : (view.observedClaims.get? "T").map (fun o => ownerOf o.claim) = some "p/a" := by
        simpa [Except.toOption, shownOwner, hview] using hmerge
      have hreplayed : (context.state.claims.get? "T").map TaskClaim.owner = some "q/b" := hreplay
      rw [howners, hreplayed] at hshown
      exact absurd hshown (by decide)

end SynapseChannel
