import SynapseChannel.Core.Journal
import SynapseChannel.Multihub.Merge

/-!
# Multihub — Fold

The observed view of a merged multi-hub log: which claims peers are seen
to hold. It is compared with the claims map that replay rebuilds from the
same log, and with the order in which each hub recorded its events.
-/

namespace SynapseChannel

open Py Outcome

variable [Builtins]

/-! ## The observed view -/

omit [Builtins] in
/-- Event kinds that assert or refresh a claim on a task. -/
def claimKinds : List String := [EventKind.claim, EventKind.taskUpdate]

/-- A peer's claim as observed across hubs: advisory, never a grant. -/
structure ObservedClaim where
  taskId : String
  hubId : String
  claim : Members

/-- What the fold accumulates. The heads of the board, a display choice,
are picked from `boardEvents` afterwards and are not embedded. -/
structure ObservedState where
  boardEvents : Dict String (List HubEvent) := Dict.empty
  contentBoundTaskEvents : EventMap := Dict.empty
  progress : List Members := []
  observedClaims : Dict String ObservedClaim := Dict.empty

/-- The stripped task id an event carries. -/
def HubEvent.taskId (event : HubEvent) : String := strip (taskOf event.payload)

namespace ObservedState

/-- Take in one event. -/
def observe (view : ObservedState) (event : HubEvent) : Except MultiHubError ObservedState :=
  let task := event.taskId
  if event.kind = EventKind.ledgerTask then
    if task = "" then .ok view
    else do
      let before := view.contentBoundTaskEvents.items.length
      let remembered ← rememberContentBoundEvent view.contentBoundTaskEvents event
      if remembered.items.length ≠ before then
        let events := (view.boardEvents.get? task).getD [] ++ [event]
        return { view with
          contentBoundTaskEvents := remembered
          boardEvents := view.boardEvents.set task events }
      return { view with contentBoundTaskEvents := remembered }
  else if event.kind = EventKind.ledgerProgress then
    .ok { view with progress := view.progress ++ [event.payload] }
  else if event.kind ∈ claimKinds then
    if task = "" then .ok view
    else
      let claim : ObservedClaim := ⟨task, event.hubId, event.payload⟩
      .ok { view with observedClaims := view.observedClaims.set task claim }
  else if event.kind = EventKind.release then
    .ok { view with observedClaims := view.observedClaims.erase task }
  else .ok view

end ObservedState

/-- Fold a merged, ordered multi-hub log into the observed view. -/
def foldObservedState (events : List HubEvent) : Except MultiHubError ObservedState :=
  events.foldlM ObservedState.observe {}

/-! ## Asserting hubs -/

omit [Builtins] in
/-- Order of a hub's own sequence. -/
def localLt (a b : String × Int) : Bool :=
  decide (a.1 < b.1) || (a.1 == b.1 && decide (a.2 < b.2))

/-- Live claims keyed by hub and task. -/
def observeLive (live : Dict (String × String) Members) (event : HubEvent) :
    Dict (String × String) Members :=
  let task := event.taskId
  if task = "" then live
  else if event.kind ∈ claimKinds then live.set (event.hubId, task) event.payload
  else if event.kind = EventKind.release then live.erase (event.hubId, task)
  else live

/-- The namespace a claim's owner belongs to. -/
def namespaceOf (projectOf : String → String) (claim : Members) : String :=
  let owner := strip (ownerOf claim)
  if owner = "" then "" else projectOf owner

/-- Add a live claim's hub to the asserters of its namespace. -/
def addAsserter (projectOf : String → String) (owners : Dict String (Finset String))
    (item : (String × String) × Members) : Dict String (Finset String) :=
  let ns := namespaceOf projectOf item.2
  if ns = "" then owners else owners.set ns (insert item.1.1 ((owners.get? ns).getD ∅))

/-- The hubs that assert authority over each namespace, from claims keyed
by hub and task in each hub's own order. -/
def assertingOwnersFromEvents (events : List HubEvent) (projectOf : String → String) :
    Dict String (Finset String) :=
  let live := (sortedBy localLt HubEvent.identity events).foldl observeLive Dict.empty
  live.items.foldl (addAsserter projectOf) Dict.empty

/-! ## The last writer of a task -/

/-- The event writes the observed claim of `task`; a claim that names no
task is passed over. -/
def writesObserved (task : String) (event : HubEvent) : Bool :=
  event.taskId == task &&
    (decide (event.kind = EventKind.release) || (decide (event.kind ∈ claimKinds) && task != ""))

theorem writesObserved_iff {task : String} {event : HubEvent} :
    writesObserved task event = true ↔ event.taskId = task ∧
      (event.kind = EventKind.release ∨ (event.kind ∈ claimKinds ∧ task ≠ "")) := by
  simp [writesObserved]

/-- What a writing event leaves observed. -/
def observedAfter (event : HubEvent) : Option ObservedClaim :=
  if event.kind = EventKind.release then none
  else some ⟨event.taskId, event.hubId, event.payload⟩

theorem observe_skip {task : String} (view : ObservedState) (event : HubEvent)
    (view' : ObservedState) (hw : writesObserved task event = false)
    (h : view.observe event = .ok view') :
    view'.observedClaims.get? task = view.observedClaims.get? task := by
  unfold ObservedState.observe at h
  dsimp only at h
  split at h
  · split at h
    · cases h
      rfl
    · obtain ⟨remembered, -, h⟩ := bind_ok h
      split at h <;> (cases h; rfl)
  · split at h
    · cases h
      rfl
    · split at h
      · rename_i hkind
        split at h
        · cases h
          rfl
        · rename_i hne
          cases h
          refine Dict.get?_set_ne _ _ fun heq => ?_
          exact Bool.eq_false_iff.mp hw (writesObserved_iff.mpr ⟨heq, .inr ⟨hkind, heq ▸ hne⟩⟩)
      · split at h
        · rename_i hkind
          cases h
          refine Dict.get?_erase_ne _ fun heq => ?_
          exact Bool.eq_false_iff.mp hw (writesObserved_iff.mpr ⟨heq.symm, .inl hkind⟩)
        · cases h
          rfl

theorem observe_write {task : String} (view : ObservedState) (event : HubEvent)
    (view' : ObservedState) (hw : writesObserved task event = true)
    (h : view.observe event = .ok view') :
    view'.observedClaims.get? task = observedAfter event := by
  obtain ⟨rfl, hkind⟩ := writesObserved_iff.mp hw
  unfold ObservedState.observe at h
  rcases hkind with hkind | ⟨hkind, htask⟩
  · simp [hkind, claimKinds, EventKind.release, EventKind.claim, EventKind.taskUpdate,
      EventKind.ledgerTask, EventKind.ledgerProgress] at h
    subst h
    simp [observedAfter, hkind]
  · have hne : event.kind ≠ EventKind.release ∧ event.kind ≠ EventKind.ledgerTask ∧
        event.kind ≠ EventKind.ledgerProgress :=
      ⟨fun heq => absurd (heq ▸ hkind) (by decide), fun heq => absurd (heq ▸ hkind) (by decide),
        fun heq => absurd (heq ▸ hkind) (by decide)⟩
    simp only [hne, hkind, htask, if_false, if_true, Except.ok.injEq] at h
    subst h
    simp [observedAfter, hne]

/-- The observed claim of a task is what its last writer left. -/
theorem observed_last {events : List HubEvent} {view : ObservedState}
    (h : foldObservedState events = .ok view) (task : String) :
    view.observedClaims.get? task =
      ((LastWrite.last (writesObserved task) events).map observedAfter).getD none :=
  LastWrite.decides (writesObserved task) (fun v => v.observedClaims.get? task) observedAfter
    observe_skip observe_write h

/-! ## Folding a merge -/

/-- A fold of events that can be committed and repeat no identity does
not fail. -/
theorem fold_ok {events : List HubEvent} (hfp : ∀ e ∈ events, e.Fingerprintable)
    (hnodup : (events.map HubEvent.identity).Nodup) :
    ∃ view, foldObservedState events = .ok view := by
  suffices gen : ∀ view : ObservedState,
      (∀ e ∈ events, view.contentBoundTaskEvents.get? e.identity = none) →
      ∃ view', events.foldlM ObservedState.observe view = .ok view' from
    gen {} fun _ _ => rfl
  induction events with
  | nil => exact fun view _ => ⟨view, rfl⟩
  | cons e rest ih =>
    intro view hnew
    rw [List.map_cons, List.nodup_cons] at hnodup
    have hrest : ∀ e' ∈ rest, e.identity ≠ e'.identity := fun e' he' heq =>
      hnodup.1 (heq ▸ List.mem_map_of_mem he')
    have hstep : ∃ view', view.observe e = .ok view' ∧
        ∀ e' ∈ rest, view'.contentBoundTaskEvents.get? e'.identity = none := by
      have hsame : ∀ e' ∈ rest, view.contentBoundTaskEvents.get? e'.identity = none :=
        fun e' he' => hnew e' (by simp [he'])
      have hset : ∀ e' ∈ rest,
          (view.contentBoundTaskEvents.set e.identity e).get? e'.identity = none := by
        intro e' he'
        rw [Dict.get?_set_ne _ _ (hrest e' he'), hsame e' he']
      unfold ObservedState.observe
      dsimp only
      split
      · split
        · exact ⟨view, rfl, hsame⟩
        · rw [remember_ok (hfp e (by simp)) (hnew e (by simp))]
          simp only [bind, Except.bind]
          split
          · exact ⟨_, rfl, hset⟩
          · exact ⟨_, rfl, hset⟩
      · split
        · exact ⟨_, rfl, hsame⟩
        · split
          · split
            · exact ⟨_, rfl, hsame⟩
            · exact ⟨_, rfl, hsame⟩
          · split
            · exact ⟨_, rfl, hsame⟩
            · exact ⟨_, rfl, hsame⟩
    obtain ⟨view', hview, hnew'⟩ := hstep
    obtain ⟨view'', hfold⟩ := ih (fun e' he' => hfp e' (by simp [he'])) hnodup.2 view' hnew'
    exact ⟨view'', by rw [List.foldlM_cons, hview]; exact hfold⟩

omit [Builtins] in
/-- Logs of different hubs, each tagged with its hub and in its own
sequence order. -/
structure HubLogs (logs : List (String × List HubEvent)) : Prop where
  hubs : (logs.map Prod.fst).Nodup
  tagged : ∀ entry ∈ logs, ∀ e ∈ entry.2, e.hubId = entry.1
  increasing : ∀ entry ∈ logs, entry.2.Pairwise fun a b => a.seq < b.seq

omit [Builtins] in
theorem HubLogs.identities {logs : List (String × List HubEvent)} (h : HubLogs logs) :
    ((logs.map Prod.snd).flatten.map HubEvent.identity).Nodup := by
  rw [List.map_flatten, List.map_map, List.nodup_flatten]
  constructor
  · intro l hl
    obtain ⟨entry, hentry, rfl⟩ := List.mem_map.mp hl
    rw [Function.comp_apply, List.nodup_iff_pairwise_ne, List.pairwise_map]
    exact (h.increasing entry hentry).imp fun hlt heq => by
      have := (Prod.mk.inj heq).2
      omega
  · have hhubs := List.nodup_iff_pairwise_ne.mp h.hubs
    rw [List.pairwise_map] at hhubs ⊢
    refine hhubs.imp_of_mem fun {a b} ha hb hne => ?_
    intro k hka hkb
    simp only [Function.comp_apply, List.mem_map] at hka hkb
    obtain ⟨x, hx, rfl⟩ := hka
    obtain ⟨y, hy, heq⟩ := hkb
    have hhub := (Prod.mk.inj heq).1
    rw [h.tagged b hb y hy, h.tagged a ha x hx] at hhub
    exact hne hhub.symm

theorem HubLogs.merged {logs : List (String × List HubEvent)} (h : HubLogs logs)
    {merged : List HubEvent} (hm : mergeEventLogs (logs.map Prod.snd) = .ok merged) :
    merged.Pairwise (fun a b => keyLt a.orderKey b.orderKey = true) ∧
      (∀ e, e ∈ merged ↔ ∃ entry ∈ logs, e ∈ entry.2) ∧
      (∀ e ∈ merged, e.Fingerprintable) ∧ ∃ view, foldObservedState merged = .ok view := by
  obtain ⟨hfp, rfl⟩ := mergeEventLogs_nodup h.identities hm
  obtain ⟨hsorted, hnodup⟩ := inOrder_sorted (fun e he => (hfp e he).timed) h.identities
  have hfp' : ∀ e ∈ sortedBy keyLt HubEvent.orderKey (logs.map Prod.snd).flatten,
      e.Fingerprintable := fun e he => hfp e ((mem_sortedBy keyLt).mp he)
  refine ⟨hsorted, fun e => ?_, hfp', fold_ok hfp' hnodup⟩
  rw [mem_sortedBy, List.mem_flatten]
  constructor
  · rintro ⟨l, hl, he⟩
    obtain ⟨entry, hentry, rfl⟩ := List.mem_map.mp hl
    exact ⟨entry, hentry, he⟩
  · rintro ⟨entry, hentry, he⟩
    exact ⟨entry.2, List.mem_map_of_mem hentry, he⟩

/-! ## Which event decides -/

/-- A task's observed claim follows, of its claim, update and release
events, the last in replay order. Where one hub alone writes the task,
that is the last in the hub's own sequence as long as none of the others
carries a later timestamp: a release leaves no observed claim, a claim is
observed as it was recorded. -/
theorem observed_claim_last {logs : List (String × List HubEvent)} (hlogs : HubLogs logs)
    {merged : List HubEvent} (hm : mergeEventLogs (logs.map Prod.snd) = .ok merged)
    (task : String) :
    ∃ view, foldObservedState merged = .ok view ∧
      view.observedClaims.get? task =
        ((LastWrite.last (writesObserved task) merged).map observedAfter).getD none ∧
      ∀ hub log, (hub, log) ∈ logs →
        (∀ entry ∈ logs, entry.1 ≠ hub → ∀ e ∈ entry.2, e.taskId ≠ task) →
        ∀ last ∈ log, writesObserved task last = true →
          (∀ e ∈ log, writesObserved task e = true → e.seq ≤ last.seq ∧ ¬ last.ts < e.ts) →
          (last.kind = EventKind.release → view.observedClaims.get? task = none) ∧
          (last.kind ∈ claimKinds →
            view.observedClaims.get? task = some ⟨task, hub, last.payload⟩) := by
  obtain ⟨hsorted, hmem, hfp, view, hview⟩ := hlogs.merged hm
  have hlast := observed_last hview task
  refine ⟨view, hview, hlast, ?_⟩
  intro hub log hlog hother last hlastmem hwrites hmax
  -- no writer of the task comes after `last` in the merge
  have hin : last ∈ merged := (hmem last).mpr ⟨(hub, log), hlog, hlastmem⟩
  obtain ⟨before, after, rfl⟩ := List.append_of_mem hin
  have hafter : ∀ e ∈ after, writesObserved task e = false := by
    intro e he
    rw [Bool.eq_false_iff]
    intro hw
    have hemem : e ∈ before ++ last :: after := by simp [he]
    obtain ⟨entry, hentry, hee⟩ := (hmem e).mp hemem
    have htaske : e.taskId = task := (writesObserved_iff.mp hw).1
    have hhub : entry.1 = hub := by
      by_contra hne
      exact hother entry hentry hne e hee htaske
    have hentry_eq : entry = (hub, log) := List.inj_on_of_nodup_map hlogs.hubs hentry hlog hhub
    subst hentry_eq
    obtain ⟨hseq, hts⟩ := hmax e hee hw
    have hlt := (List.pairwise_cons.mp (List.pairwise_append.mp hsorted).2.1).1 e he
    rw [keyLt_iff (hfp last hin).timed (hfp e hemem).timed] at hlt
    rcases hlt with hlt | ⟨-, hlt | ⟨-, hlt⟩⟩
    · exact hts hlt
    · have h1 : e.hubId = hub := hlogs.tagged _ hentry e hee
      have h2 : last.hubId = hub := hlogs.tagged _ hlog last hlastmem
      simp only [HubEvent.orderKey, h1, h2] at hlt
      exact String.lt_irrefl _ hlt
    · simp only [HubEvent.orderKey] at hlt
      omega
  rw [LastWrite.last_of_split _ hwrites hafter] at hlast
  have htask := (writesObserved_iff.mp hwrites).1
  have hhub := hlogs.tagged _ hlog last hlastmem
  constructor
  · intro hkind
    rw [hlast]
    simp [observedAfter, hkind]
  · intro hkind
    rw [hlast]
    have hne : last.kind ≠ EventKind.release := by
      intro heq
      rw [heq] at hkind
      exact absurd hkind (by decide)
    simp [observedAfter, hne, htask, hhub]

omit [Builtins] in
/-- A claim and its release, a second apart. -/
theorem observed_claim_last_release :
    letI : Builtins := Builtins.ascii
    let claim : HubEvent := ⟨"h", 1, 5, "claim", [("task_id", .str "T"), ("owner", .str "p/a")]⟩
    let release : HubEvent := ⟨"h", 2, 6, "release", [("task_id", .str "T")]⟩
    ∃ merged view, mergeEventLogs [[claim, release]] = .ok merged ∧
      foldObservedState merged = .ok view ∧ view.observedClaims.get? "T" = none := by
  intro claim release
  let _ : Builtins := Builtins.ascii
  have hlogs : HubLogs [("h", [claim, release])] :=
    ⟨by simp, by simp [claim, release], by simp [claim, release]⟩
  have hok : (mergeEventLogs [[claim, release]]).isOk = true := by decide +kernel
  cases hm : mergeEventLogs [[claim, release]] with
  | error err =>
    rw [hm] at hok
    cases hok
  | ok merged =>
    obtain ⟨view, hview, -, hlast⟩ := observed_claim_last hlogs hm "T"
    refine ⟨merged, view, rfl, hview, ?_⟩
    refine (hlast "h" [claim, release] (by simp) (by simp) release (by simp) (by decide) ?_).1 rfl
    intro e he _
    simp only [List.mem_cons, List.not_mem_nil, or_false] at he
    rcases he with rfl | rfl
    · exact ⟨by decide, by decide +kernel⟩
    · exact ⟨by decide, by decide +kernel⟩

/-- The fold of a merge of logs shows a claim of `task`. -/
def showsClaim (logs : List (List HubEvent)) (task : String) : Bool :=
  match mergeEventLogs logs with
  | .ok merged =>
    match foldObservedState merged with
    | .ok view => view.observedClaims.contains task
    | .error _ => false
  | .error _ => false

omit [Builtins] in
/-- After a wall-clock step back a released task is observed as claimed:
the release sorts before the claim it released. -/
theorem observed_claim_resurrected :
    letI : Builtins := Builtins.ascii
    let claim : HubEvent := ⟨"h", 1, 10, "claim", [("task_id", .str "T"), ("owner", .str "p/a")]⟩
    let release : HubEvent := ⟨"h", 2, 5, "release", [("task_id", .str "T")]⟩
    HubLogs [("h", [claim, release])] ∧ showsClaim [[claim, release]] "T" = true := by
  intro claim release
  exact ⟨⟨by simp, by simp [claim, release], by simp [claim, release]⟩, by decide +kernel⟩

end SynapseChannel
