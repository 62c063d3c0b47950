import SynapseChannel.Multihub.PartitionWatch

/-!
# Multihub — PartitionEvidence

Evidence of a partition outlives failed polls and restarts: a namespace held
because of a configured peer is refused until that peer answers with a log
that no longer asserts it, and the journal always folds back to the active
partitions.
-/

namespace SynapseChannel

open Py

variable [Builtins]

/-! ## Decisions -/

namespace NamespaceOwnership

section

omit [Builtins]

theorem mem_contesting {o : NamespaceOwnership} {owner hub : String} {hubs : List String} :
    hub ∈ o.contesting owner hubs ↔ hub ∈ hubs ∧ hub ≠ owner ∧ hub ≠ o.localHubId := by
  unfold contesting
  rw [mem_sortedBy, List.mem_filter]
  simp

theorem mem_resolve_contesting {o : NamespaceOwnership} {name hub : String} {hubs : List String} :
    hub ∈ (o.resolve name hubs).contesting ↔
      ∃ owner, o.owners.get? name = some owner ∧ hub ∈ hubs ∧ hub ≠ owner ∧
        hub ≠ o.localHubId := by
  unfold resolve
  cases howner : o.owners.get? name with
  | none => simp
  | some owner =>
    dsimp only
    have hmem := @mem_contesting o owner hub hubs
    split
    · simp [hmem]
    · rename_i hempty
      have hnil : o.contesting owner hubs = [] := by simpa using hempty
      rw [hnil] at hmem
      have hnone : ¬ (hub ∈ hubs ∧ hub ≠ owner ∧ hub ≠ o.localHubId) := by
        rw [← hmem]
        exact List.not_mem_nil
      split <;> simpa using hnone

/-- Contestants make a partition, and there is none without. -/
theorem resolve_partitioned {o : NamespaceOwnership} {name : String} {hubs : List String} :
    (o.resolve name hubs).outcome = .partitioned ↔ (o.resolve name hubs).contesting ≠ [] := by
  unfold resolve
  cases o.owners.get? name with
  | none => simp
  | some owner =>
    dsimp only
    split
    · rename_i hsome
      simpa using hsome
    · split <;> simp

end

end NamespaceOwnership

/-! ## Sorted texts -/

section

omit [Builtins]

theorem mem_sortedTexts {texts : Finset String} {text : String} :
    text ∈ sortedTexts texts ↔ text ∈ texts := by
  unfold sortedTexts
  exact Finset.mem_sort _

theorem sortedTexts_nodup (texts : Finset String) : (sortedTexts texts).Nodup := by
  unfold sortedTexts
  exact Finset.sort_nodup _ _

theorem sortedTexts_filter (texts : Finset String) (p : String → Bool) :
    sortedTexts ((sortedTexts texts).filter p).toFinset = (sortedTexts texts).filter p := by
  unfold sortedTexts
  refine (List.toFinset_sort _ ?_).mpr ?_
  · exact (Finset.sort_nodup _ _).filter _
  · exact (Finset.pairwise_sort _ _).filter _

/-- Contestants come out of a set once each and in order. -/
theorem contesting_sortedTexts (o : NamespaceOwnership) (owner : String) (texts : Finset String) :
    o.contesting owner (sortedTexts texts) =
      (sortedTexts texts).filter fun hub => hub ≠ owner && hub ≠ o.localHubId := by
  unfold NamespaceOwnership.contesting
  apply sortedBy_eq_self
  have hsorted : (sortedTexts texts).Pairwise (· ≤ ·) := Finset.pairwise_sort _ _
  refine (hsorted.filter _).imp ?_
  intro a b hab
  exact decide_eq_false (not_lt.mpr hab)

theorem sortedTexts_contesting (o : NamespaceOwnership) (name : String) (texts : Finset String) :
    sortedTexts (o.resolve name (sortedTexts texts)).contesting.toFinset =
      (o.resolve name (sortedTexts texts)).contesting := by
  unfold NamespaceOwnership.resolve
  cases o.owners.get? name with
  | none => simp [sortedTexts]
  | some owner =>
    dsimp only
    split
    · rw [contesting_sortedTexts]
      exact sortedTexts_filter _ _
    · split <;> simp [sortedTexts]

end

/-! ## Asserted hubs -/

theorem assertingOwners_hub {P : String → Prop} {events : List HubEvent}
    (hevents : ∀ e ∈ events, P e.hubId) (projectOf : String → String) {name hub : String}
    (h : hub ∈ ((assertingOwnersFromEvents events projectOf).get? name).getD ∅) : P hub := by
  have hlive : ∀ key payload, ((sortedBy localLt HubEvent.identity events).foldl observeLive
      Dict.empty).get? key = some payload → P key.1 := by
    refine List.foldlRecOn (motive := fun live : Dict (String × String) Members =>
      ∀ key payload, live.get? key = some payload → P key.1) _ _ ?_ ?_
    · intro key payload hget
      cases hget
    · intro live ih event hmem key payload hget
      have hevent := hevents event ((mem_sortedBy localLt).mp hmem)
      unfold observeLive at hget
      dsimp only at hget
      split at hget
      · exact ih key payload hget
      · split at hget
        · rw [Dict.get?_set] at hget
          split at hget
          · rename_i hkey
            exact hkey ▸ hevent
          · exact ih key payload hget
        · split at hget
          · rw [Dict.get?_erase] at hget
            split at hget
            · cases hget
            · exact ih key payload hget
          · exact ih key payload hget
  have howners : ∀ name, ∀ hub ∈ ((assertingOwnersFromEvents events projectOf).get? name).getD ∅,
      P hub := by
    unfold assertingOwnersFromEvents
    dsimp only
    refine List.foldlRecOn (motive := fun owners : Dict String (Finset String) =>
      ∀ name, ∀ hub ∈ (owners.get? name).getD ∅, P hub) _ _ ?_ ?_
    · intro name hub hmem
      simp at hmem
    · intro owners ih item hitem name hub hmem
      unfold addAsserter at hmem
      dsimp only at hmem
      split at hmem
      · exact ih name hub hmem
      · rw [Dict.get?_set] at hmem
        split at hmem
        · rw [Option.getD_some, Finset.mem_insert] at hmem
          rcases hmem with rfl | hmem
          · exact hlive item.1 item.2 ((Dict.mem_items_iff _ _ _).mp hitem)
          · exact ih _ hub hmem
        · exact ih name hub hmem
  exact howners name hub h

/-! ## The journal -/

/-- The fold over one more row. -/
theorem restorePartitions_insert (store : EventStore) (ts : Float) (kind : String)
    (payload : Members) :
    ∃ seq, restoreActiveMultihubPartitions (store.insertEnrolled ts kind payload).1 =
      restorePartitionRow (restoreActiveMultihubPartitions store) ⟨seq, ts, kind, payload⟩ := by
  obtain ⟨seq, hevents⟩ := JournalledFollower.insertEnrolled_events store ts kind payload
  refine ⟨seq, ?_⟩
  unfold restoreActiveMultihubPartitions
  rw [hevents, List.foldl_append]
  rfl

/-- Other rows restore nothing. -/
theorem restorePartitions_append (store : EventStore) (ts : Float) {kind : String}
    (payload : Members)
    (hkind : kind ≠ EventKind.multihubPartition ∧ kind ≠ EventKind.multihubHeal) :
    restoreActiveMultihubPartitions (store.insertEnrolled ts kind payload).1 =
      restoreActiveMultihubPartitions store := by
  obtain ⟨seq, hrestore⟩ := restorePartitions_insert store ts kind payload
  rw [hrestore]
  unfold restorePartitionRow
  dsimp only
  rw [if_neg hkind.2, if_neg hkind.1]

theorem restorePartitions_stripped {store : EventStore} {name : String} {contesting : List String}
    (h : (restoreActiveMultihubPartitions store).get? name = some contesting) : Stripped name := by
  have hall : ∀ name contesting,
      (restoreActiveMultihubPartitions store).get? name = some contesting → Stripped name := by
    unfold restoreActiveMultihubPartitions
    refine List.foldlRecOn (motive := fun active : Dict String (List String) =>
      ∀ name contesting, active.get? name = some contesting → Stripped name) _ _ ?_ ?_
    · intro name contesting hget
      cases hget
    · intro active ih event _ name contesting hget
      have hset : ∀ value, strippedText event.payload "namespace" ≠ "" →
          (active.set (strippedText event.payload "namespace") value).get? name = some contesting →
          Stripped name := by
        intro value hblank hget
        rw [Dict.get?_set] at hget
        split at hget
        · rename_i hname
          exact hname ▸ ⟨hblank, strip_strip _⟩
        · exact ih name contesting hget
      unfold restorePartitionRow at hget
      dsimp only at hget
      split at hget
      · split at hget
        · exact ih name contesting hget
        · split at hget
          · rw [Dict.get?_erase] at hget
            split at hget
            · cases hget
            · exact ih name contesting hget
          · exact ih name contesting hget
      · split at hget
        · split at hget
          · exact ih name contesting hget
          · rename_i hblank
            split at hget
            · exact hset _ hblank hget
            · exact hset _ hblank hget
        · exact ih name contesting hget
  exact hall name contesting h

/-- The contestants that a row names are read back. -/
theorem restoredContesting_map {contesting : List String} (hne : contesting ≠ [])
    (hstripped : ∀ hub ∈ contesting, Stripped hub)
    (hsorted : sortedTexts contesting.toFinset = contesting) :
    restoredContesting (contesting.map .str) = contesting := by
  have hread : (contesting.map Json.str).map (fun hub => strip hub.toStr) = contesting := by
    rw [List.map_map]
    refine (List.map_congr_left ?_).trans (List.map_id contesting)
    intro hub hmem
    exact (hstripped hub hmem).2
  have hnamed : contesting.filter (· ≠ "") = contesting := by
    rw [List.filter_eq_self]
    intro hub hmem
    exact decide_eq_true (hstripped hub hmem).1
  unfold restoredContesting
  dsimp only
  rw [hread, hnamed, hsorted]
  simp [hne]

namespace Watch

/-- A partition's row sets the namespace. -/
theorem restore_partition {w : Watch} {name : String} {contesting : List String}
    (hname : Stripped name) (hread : restoredContesting (contesting.map .str) = contesting)
    (store : EventStore) (now : Float) :
    restoreActiveMultihubPartitions (store.insertEnrolled now EventKind.multihubPartition
        (w.partitionPayload name contesting)).1 =
      (restoreActiveMultihubPartitions store).set name contesting := by
  obtain ⟨seq, hrestore⟩ := restorePartitions_insert store now EventKind.multihubPartition
    (w.partitionPayload name contesting)
  have hkey : strippedText (w.partitionPayload name contesting) "namespace" = name :=
    (JournalledFollower.strippedText_str (Members.get?_cons_self ..)).trans hname.2
  have hitems : Members.get (w.partitionPayload name contesting) "contesting_hubs" =
      .arr (contesting.map .str) := by
    unfold partitionPayload Members.get Members.getD
    simp only [Members.get?_cons_self, Members.get?_cons_ne, ne_eq, String.reduceEq,
      not_false_eq_true, Option.getD_some]
  rw [hrestore]
  unfold restorePartitionRow
  dsimp only
  rw [hkey, if_neg (by decide), if_pos rfl, if_neg hname.1, hitems]
  dsimp only
  rw [hread]

/-- A heal's row removes the namespace. -/
theorem restore_heal {w : Watch} {name : String} (hname : Stripped name)
    (decision : OwnershipDecision) (previous : List String) (store : EventStore) (now : Float) :
    restoreActiveMultihubPartitions (store.insertEnrolled now EventKind.multihubHeal
        (w.healPayload name decision previous)).1 =
      (restoreActiveMultihubPartitions store).erase name := by
  obtain ⟨seq, hrestore⟩ := restorePartitions_insert store now EventKind.multihubHeal
    (w.healPayload name decision previous)
  have hkey : strippedText (w.healPayload name decision previous) "namespace" = name :=
    (JournalledFollower.strippedText_str (Members.get?_cons_self ..)).trans hname.2
  have hflag : Members.get (w.healPayload name decision previous) "observation_refreshed" =
      .bool true := by
    unfold healPayload Members.get Members.getD
    simp only [Members.get?_cons_self, Members.get?_cons_ne, ne_eq, String.reduceEq,
      not_false_eq_true, Option.getD_some]
  rw [hrestore]
  unfold restorePartitionRow
  dsimp only
  rw [hkey, if_pos rfl, if_neg hname.1, hflag]

/-! ## Transitions -/

/-- The namespace after a round that sees `view`. -/
def settled (w : Watch) (view : Dict String (Finset String)) (name : String) :
    Option (List String) :=
  if (w.decision view name).outcome = .partitioned then some (w.decision view name).contesting
  else none

section

omit [Builtins]

/-- A namespace that is decided partitioned has an owner. -/
theorem decision_stripped {w : Watch} {view : Dict String (Finset String)} {name : String}
    (h : (w.decision view name).outcome = .partitioned) : Stripped name := by
  unfold decision at h
  rw [NamespaceOwnership.resolve_partitioned] at h
  obtain ⟨hub, hmem⟩ := List.exists_mem_of_ne_nil _ h
  obtain ⟨owner, howner, -⟩ := NamespaceOwnership.mem_resolve_contesting.mp hmem
  exact w.ownership.stripped name owner howner

theorem mem_decision_contesting {w : Watch} {view : Dict String (Finset String)}
    {name hub : String} :
    hub ∈ (w.decision view name).contesting ↔
      ∃ owner, w.ownership.owners.get? name = some owner ∧
        hub ∈ (view.get? name).getD ∅ ∧ hub ≠ owner ∧ hub ≠ w.ownership.localHubId := by
  unfold decision
  rw [NamespaceOwnership.mem_resolve_contesting]
  simp only [mem_sortedTexts]

/-- One namespace's transition settles it, and leaves the others. -/
theorem transition_get? (w : Watch) (view : Dict String (Finset String)) (now : Float)
    (acc : EventStore × Dict String (List String)) {name : String}
    (hacc : acc.2.get? name = w.partitioned.get? name) (other : String) :
    (w.transition view now acc name).2.get? other =
      if name = other then w.settled view name else acc.2.get? other := by
  unfold transition settled
  dsimp only
  split
  · split
    · rename_i hsame
      split
      · rename_i heq
        rw [← heq, hacc, hsame]
      · rfl
    · exact Dict.get?_set _ _ _ _
  · split
    · rename_i hnone
      split
      · rename_i heq
        rw [← heq, hacc, hnone]
      · rfl
    · rw [Dict.get?_erase]
      by_cases heq : name = other
      · simp [heq]
      · simp [heq, Ne.symm heq]

end

/-- The row a transition writes, if any, restores what the transition did. -/
theorem transition_same {w : Watch} {view : Dict String (Finset String)} (now : Float)
    {acc : EventStore × Dict String (List String)} {name : String}
    (hview : ∀ hub ∈ (view.get? name).getD ∅, Stripped hub)
    (hheld : ∀ contesting, w.partitioned.get? name = some contesting → Stripped name)
    (h : (restoreActiveMultihubPartitions acc.1).Same acc.2) :
    (restoreActiveMultihubPartitions (w.transition view now acc name).1).Same
      (w.transition view now acc name).2 := by
  unfold transition
  dsimp only
  split
  · rename_i hpartitioned
    split
    · exact h
    · dsimp only
      have hne : (w.decision view name).contesting ≠ [] :=
        NamespaceOwnership.resolve_partitioned.mp hpartitioned
      have hread := restoredContesting_map hne
        (fun hub hmem => by
          obtain ⟨owner, -, hin, -⟩ := mem_decision_contesting.mp hmem
          exact hview hub hin)
        (sortedTexts_contesting w.ownership.toNamespaceOwnership name ((view.get? name).getD ∅))
      rw [restore_partition (decision_stripped hpartitioned) hread]
      exact h.set name _
  · split
    · exact h
    · rename_i previous hprevious
      dsimp only
      rw [restore_heal (hheld previous hprevious)]
      exact h.erase name

/-- The transitions of a round settle each namespace, and the journal with it. -/
theorem recorded_settled {w : Watch} (s : JournalledFollower) {view : Dict String (Finset String)}
    (now : Float) (hview : ∀ name, ∀ hub ∈ (view.get? name).getD ∅, Stripped hub)
    (hheld : ∀ name contesting, w.partitioned.get? name = some contesting → Stripped name)
    (hsame : (restoreActiveMultihubPartitions s.journal).Same w.partitioned) :
    (restoreActiveMultihubPartitions (w.recorded s view now).1).Same (w.recorded s view now).2 ∧
      ∀ name, (w.recorded s view now).2.get? name = w.settled view name := by
  have hfold : ∀ names : List String, names.Nodup →
      ∀ acc : EventStore × Dict String (List String),
      (∀ name ∈ names, acc.2.get? name = w.partitioned.get? name) →
      (restoreActiveMultihubPartitions acc.1).Same acc.2 →
      (restoreActiveMultihubPartitions (names.foldl (w.transition view now) acc).1).Same
        (names.foldl (w.transition view now) acc).2 ∧
      ∀ name, (names.foldl (w.transition view now) acc).2.get? name =
        if name ∈ names then w.settled view name else acc.2.get? name := by
    intro names
    induction names with
    | nil =>
      intro _ acc _ hacc
      exact ⟨hacc, by simp⟩
    | cons first rest ih =>
      intro hnodup acc hget hacc
      rw [List.nodup_cons] at hnodup
      have hfirst := transition_get? w view now acc (hget first List.mem_cons_self)
      have hrest : ∀ name ∈ rest, (w.transition view now acc first).2.get? name =
          w.partitioned.get? name := by
        intro name hmem
        have hne : first ≠ name := fun heq => hnodup.1 (heq ▸ hmem)
        rw [hfirst, if_neg hne, hget name (List.mem_cons_of_mem _ hmem)]
      obtain ⟨hsame', hget'⟩ := ih hnodup.2 _ hrest
        (transition_same now (hview first) (hheld first) hacc)
      refine ⟨hsame', ?_⟩
      intro name
      rw [List.foldl_cons, hget', hfirst]
      by_cases hname : name = first
      · subst hname
        simp [hnodup.1]
      · simp [hname, Ne.symm hname]
  obtain ⟨hsame', hget⟩ := hfold (w.namespaces view) (sortedTexts_nodup _)
    (s.journal, w.partitioned) (fun _ _ => rfl) hsame
  refine ⟨hsame', ?_⟩
  intro name
  refine (hget name).trans ?_
  split
  · rfl
  · -- a namespace the round does not look at is neither asserted nor held
    rename_i hunseen
    unfold namespaces at hunseen
    rw [mem_sortedTexts, List.mem_toFinset, List.mem_append, not_or, Dict.mem_keys_iff,
      Dict.mem_keys_iff, not_not, not_not] at hunseen
    unfold settled
    rw [if_neg]
    · exact hunseen.2
    · intro hpartitioned
      obtain ⟨hub, hmem⟩ := List.exists_mem_of_ne_nil _
        (NamespaceOwnership.resolve_partitioned.mp hpartitioned)
      obtain ⟨owner, -, hin, -⟩ := mem_decision_contesting.mp hmem
      rw [hunseen.1] at hin
      simp at hin

/-! ## The view of a round -/

/-- A round sees what the logs assert and what it retains. -/
theorem mem_refreshed {w : Watch} {s : JournalledFollower} {polls : RoundPolls}
    {name hub : String} :
    hub ∈ ((w.refreshed s polls).get? name).getD ∅ ↔
      hub ∈ ((assertingOwnersFromEvents s.follower.events.values projectOf).get? name).getD ∅ ∨
        ∃ contesting, w.partitioned.get? name = some contesting ∧
          hub ∈ w.retained s polls contesting := by
  have hfold : ∀ (entries : List (String × List String)) (view : Dict String (Finset String)),
      hub ∈ ((entries.foldl (fun view entry =>
          let kept := w.retained s polls entry.2
          if kept = ∅ then view else view.set entry.1 ((view.get? entry.1).getD ∅ ∪ kept))
        view).get? name).getD ∅ ↔
      hub ∈ (view.get? name).getD ∅ ∨
        ∃ contesting, (name, contesting) ∈ entries ∧ hub ∈ w.retained s polls contesting := by
    intro entries
    induction entries with
    | nil => simp
    | cons entry rest ih =>
      intro view
      rw [List.foldl_cons, ih]
      have hentry : hub ∈ ((if w.retained s polls entry.2 = ∅ then view
          else view.set entry.1 ((view.get? entry.1).getD ∅ ∪ w.retained s polls entry.2)).get?
            name).getD ∅ ↔
          hub ∈ (view.get? name).getD ∅ ∨
            (entry.1 = name ∧ hub ∈ w.retained s polls entry.2) := by
        split
        · rename_i hempty
          simp [hempty]
        · rw [Dict.get?_set]
          split
          · rename_i heq
            rw [← heq]
            simp
          · rename_i hne
            simp [hne]
      dsimp only
      rw [hentry, or_assoc]
      refine or_congr_right ?_
      constructor
      · rintro (⟨heq, hmem⟩ | ⟨contesting, hin, hmem⟩)
        · exact ⟨entry.2, heq ▸ List.mem_cons_self, hmem⟩
        · exact ⟨contesting, List.mem_cons_of_mem _ hin, hmem⟩
      · rintro ⟨contesting, hin, hmem⟩
        rcases List.mem_cons.mp hin with heq | hin
        · left
          rw [← heq]
          exact ⟨rfl, hmem⟩
        · exact .inr ⟨contesting, hin, hmem⟩
  unfold refreshed
  dsimp only
  rw [hfold]
  simp only [Dict.mem_items_iff]

omit [Builtins] in
theorem mem_retained {w : Watch} {s : JournalledFollower} {polls : RoundPolls}
    {contesting : List String} {hub : String} :
    hub ∈ w.retained s polls contesting ↔
      hub ∈ contesting ∧ hub ∈ w.peers.1 ∧ (hub ∈ polls.failed ∨ s.follower.cursor hub = 0) := by
  unfold retained
  rw [List.mem_toFinset, List.mem_filter]
  simp

/-! ## Polls -/

/-- A step of the follower adds events of the peer it polls only. -/
theorem next_events {f : Follower} (hs : f.Sound) {P : String → Prop}
    (hevents : ∀ hub seq, f.events.get? (hub, seq) ≠ none → P hub) {op : FollowerOp}
    (hop : ∀ peer fetched now, op = .finish peer fetched now → P peer) :
    ∀ hub seq, (f.next op).events.get? (hub, seq) ≠ none → P hub := by
  intro hub seq h
  unfold Follower.next at h
  have hstep := Follower.apply_step hs op
  generalize f.apply op = result at hstep h
  cases hstep with
  | accepted peer fetched now candidate _ _ hstaged =>
    by_cases hhub : hub = peer
    · exact hhub ▸ hop peer fetched now rfl
    · refine hevents hub seq ?_
      rw [← hstaged.frame (hub, seq) hhub]
      exact h
  | recovered peer =>
    dsimp only at h
    rw [Follower.reset_events] at h
    split at h
    · exact absurd rfl h
    · exact hevents hub seq h
  | _ => exact hevents hub seq h

theorem poll_follower (s : JournalledFollower) (peer : String) (fetched : Fetched) (now : Float) :
    (poll s peer fetched now).1.follower = s.follower ∨
      ∃ rows, (poll s peer fetched now).1.follower =
        (s.follower.next (.start peer)).next (.finish peer rows now) := by
  unfold poll
  split
  · exact .inl rfl
  · rename_i follower reply _ hstart
    have hnext : follower = s.follower.next (.start peer) := congrArg Prod.fst hstart.symm
    subst hnext
    right
    cases fetched with
    | escaped => exact ⟨none, rfl⟩
    | failed => exact ⟨none, rfl⟩
    | events rows =>
      refine ⟨some rows, ?_⟩
      dsimp only
      unfold Follower.next Follower.apply
      split <;> (rename_i hfinish; exact congrArg Prod.fst hfinish.symm)

/-- A poll writes nothing that restores a partition. -/
theorem poll_journal (s : JournalledFollower) (peer : String) (fetched : Fetched) (now : Float) :
    restoreActiveMultihubPartitions (poll s peer fetched now).1.journal =
      restoreActiveMultihubPartitions s.journal := by
  have hrecord : ∀ quarantine, restoreActiveMultihubPartitions
      ((recordMultihubEquivocation s.journal quarantine).toOption.getD s.journal) =
        restoreActiveMultihubPartitions s.journal := by
    intro quarantine
    unfold recordMultihubEquivocation
    cases boundedQuarantinePayload quarantine with
    | error _ => rfl
    | ok payload => exact restorePartitions_append _ _ _ (by decide)
  unfold poll
  split
  · rfl
  · split
    · rfl
    · rfl
    · split
      · rfl
      · rename_i follower _ _ _ _ _
        dsimp only
        cases follower.quarantines.get? peer with
        | none => rfl
        | some quarantine => exact hrecord quarantine
      · rfl
      · rfl

/-- A peer that answers was fetched. -/
theorem poll_answered {s : JournalledFollower} {peer : String} {fetched : Fetched} {now : Float}
    (h : (poll s peer fetched now).2 = .answered) : ∃ rows, fetched = .events rows := by
  unfold poll at h
  split at h
  · cases h
  · cases fetched with
    | escaped => cases h
    | failed => cases h
    | events rows => exact ⟨rows, rfl⟩

/-- What holds of the follower and its journal between polls: the follower is sound, every event
is of a peer that is polled, and the journal restores `active`. -/
structure Watched (peers : List String) (active : Dict String (List String))
    (s : JournalledFollower) : Prop where
  sound : s.follower.Sound
  events : ∀ hub seq, s.follower.events.get? (hub, seq) ≠ none → hub ∈ peers
  journal : (restoreActiveMultihubPartitions s.journal).Same active

theorem Watched.poll {peers : List String} {active : Dict String (List String)}
    {s : JournalledFollower} (h : Watched peers active s) {peer : String} (hpeer : peer ∈ peers)
    (fetched : Fetched) (now : Float) : Watched peers active (Watch.poll s peer fetched now).1 := by
  have hjournal : (restoreActiveMultihubPartitions (Watch.poll s peer fetched now).1.journal).Same
      active := by
    rw [poll_journal]
    exact h.journal
  rcases poll_follower s peer fetched now with heq | ⟨rows, heq⟩
  · exact ⟨heq ▸ h.sound, heq ▸ h.events, hjournal⟩
  · have hstarted := h.sound.next (.start peer)
    refine ⟨heq ▸ hstarted.next _, ?_, hjournal⟩
    rw [heq]
    refine next_events hstarted ?_ ?_
    · exact next_events h.sound h.events (by rintro _ _ _ ⟨⟩)
    · rintro _ _ _ ⟨⟩
      exact hpeer

theorem Watched.pollAll {peers : List String} {active : Dict String (List String)}
    {fetch : String → Fetched} {now : Float} {rest : List String} (hrest : ∀ peer ∈ rest, peer ∈ peers)
    {s : JournalledFollower} (h : Watched peers active s) (polls : RoundPolls) :
    Watched peers active (Watch.pollAll fetch now rest s polls).1 := by
  induction rest generalizing s polls with
  | nil => exact h
  | cons peer rest ih =>
    have hpolled := h.poll (hrest peer List.mem_cons_self) (fetch peer) now
    have hrest' := fun p hp => hrest p (List.mem_cons_of_mem peer hp)
    unfold Watch.pollAll
    split <;> rename_i heq <;> rw [heq] at hpolled
    · exact ih hrest' hpolled _
    · exact ih hrest' hpolled _
    · exact hpolled

/-- In a round that is over, a peer that has not failed was fetched. -/
theorem pollAll_fetched {fetch : String → Fetched} {now : Float} {rest : List String}
    {s source : JournalledFollower} {polls polls' : RoundPolls}
    (h : Watch.pollAll fetch now rest s polls = (source, some polls')) :
    (∀ peer ∈ polls.failed, peer ∈ polls'.failed) ∧
      ∀ peer ∈ rest, peer ∉ polls'.failed → ∃ rows, fetch peer = .events rows := by
  induction rest generalizing s polls with
  | nil =>
    cases h
    exact ⟨fun _ hmem => hmem, by simp⟩
  | cons first rest ih =>
    unfold Watch.pollAll at h
    split at h
    · rename_i heq
      obtain ⟨hfailed, hfetched⟩ := ih h
      refine ⟨hfailed, ?_⟩
      intro peer hmem hnot
      rcases List.mem_cons.mp hmem with rfl | hmem
      · exact poll_answered (congrArg Prod.snd heq)
      · exact hfetched peer hmem hnot
    · obtain ⟨hfailed, hfetched⟩ := ih h
      refine ⟨fun peer hmem => hfailed peer (List.mem_append_left _ hmem), ?_⟩
      intro peer hmem hnot
      rcases List.mem_cons.mp hmem with rfl | hmem
      · exact absurd (hfailed peer (List.mem_append_right _ List.mem_cons_self)) hnot
      · exact hfetched peer hmem hnot
    · cases h

/-- A recovery's row restores no partition. -/
theorem recordRecovery_journal {store journal : EventStore}
    {peerId recoveredBy reason generation : String} {now : Float}
    (h : recordMultihubEquivocationRecovery store peerId recoveredBy reason generation now =
      .ok journal) :
    restoreActiveMultihubPartitions journal = restoreActiveMultihubPartitions store := by
  unfold recordMultihubEquivocationRecovery at h
  split at h
  · cases h
  split at h
  · cases h
  split at h
  · cases h
  split at h
  · cases h
  split at h
  · cases h
  cases h
  exact restorePartitions_append _ _ _ (by decide)

theorem Watched.recoverPeer {peers : List String} {active : Dict String (List String)}
    {s : JournalledFollower} (h : Watched peers active s)
    (peerId recoveredBy reason generation : String) (now : Float) :
    Watched peers active (s.recoverPeer peerId recoveredBy reason generation now) := by
  have hnext : ∀ journalled, (s.follower.recoverPeer peerId recoveredBy reason generation
      journalled).1 = s.follower.next (.recover peerId recoveredBy reason generation journalled) :=
    fun _ => rfl
  have hsound := fun journalled =>
    h.sound.next (.recover peerId recoveredBy reason generation journalled)
  have hevents := fun journalled => @next_events _ _ h.sound _ h.events
    (.recover peerId recoveredBy reason generation journalled) (by rintro _ _ _ ⟨⟩)
  unfold JournalledFollower.recoverPeer
  dsimp only
  split
  · rename_i journal _ hrecorded
    refine ⟨?_, ?_, ?_⟩
    · dsimp only
      rw [hnext]
      exact hsound _
    · dsimp only
      rw [hnext]
      exact hevents _
    · dsimp only
      rw [recordRecovery_journal hrecorded]
      exact h.journal
  · refine ⟨?_, ?_, h.journal⟩
    · dsimp only
      rw [hnext]
      exact hsound _
    · dsimp only
      rw [hnext]
      exact hevents _

/-! ## Steps -/

/-- The namespace is refused as partitioned, and the peer is among the contestants. -/
def Held (w : Watch) (name peer : String) : Prop :=
  let decision := w.ownership.resolve name (w.observedAssertingHubs name)
  decision.outcome = .partitioned ∧ peer ∈ decision.contesting

/-- The step is a round in which the poll of `peer` succeeds, with a log that is not empty and
does not assert `name`. -/
def Clears (w : Watch) (name peer : String) : Step → Prop
  | .round fetch now _ =>
    ∃ source polls, pollAll fetch now w.peers.1 w.source {} = (source, some polls) ∧
      peer ∉ polls.failed ∧ (∃ rows, fetch peer = .events rows) ∧
      (∃ e ∈ source.follower.events.values, e.hubId = peer) ∧
      peer ∉ ((assertingOwnersFromEvents source.follower.events.values projectOf).get? name).getD ∅
  | _ => False

/-- What holds between any two steps. -/
structure Faithful (w : Watch) : Prop where
  watched : Watched w.peers.1 w.partitioned w.source
  stripped : ∀ name contesting, w.partitioned.get? name = some contesting → Stripped name
  /-- Whoever a namespace is refused for is a contestant of an active partition. -/
  covered : ∀ name peer, peer ∈ (w.decision w.assertions name).contesting →
    ∃ contesting, w.partitioned.get? name = some contesting ∧ peer ∈ contesting

omit [Builtins] in
theorem held_iff {w : Watch} {name peer : String} :
    w.Held name peer ↔ peer ∈ (w.decision w.assertions name).contesting := by
  constructor
  · intro h
    exact h.2
  · intro h
    exact ⟨NamespaceOwnership.resolve_partitioned.mpr (List.ne_nil_of_mem h), h⟩

theorem faithful_start (ownership : WatchOwnership) (peers : WatchPeers) (observerId : String)
    (journal : EventStore) : (start ownership peers observerId journal).Faithful := by
  refine ⟨⟨Follower.sound_init _ _, ?_, .refl _⟩, ?_, ?_⟩
  · intro hub seq h
    exact absurd rfl h
  · intro name contesting h
    exact restorePartitions_stripped h
  · intro name peer h
    obtain ⟨owner, -, hin, -⟩ := mem_decision_contesting.mp h
    have hin : peer ∈ (((restoreActiveMultihubPartitions journal).filterMapValues
        fun contesting => some contesting.toFinset).get? name).getD ∅ := hin
    rw [Dict.get?_filterMapValues] at hin
    cases hget : (restoreActiveMultihubPartitions journal).get? name with
    | none =>
      rw [hget] at hin
      simp at hin
    | some contesting =>
      rw [hget] at hin
      exact ⟨contesting, hget, by simpa using hin⟩

/-- A contestant is held again once the hub starts again. -/
theorem held_restart {w : Watch} (h : w.Faithful) {name peer : String} (hheld : w.Held name peer)
    (peers : WatchPeers) :
    (start w.ownership peers w.source.follower.observerId w.source.journal).Held name peer := by
  rw [held_iff] at hheld ⊢
  obtain ⟨contesting, hget, hmem⟩ := h.covered name peer hheld
  obtain ⟨owner, howner, -, hne⟩ := mem_decision_contesting.mp hheld
  refine mem_decision_contesting.mpr ⟨owner, howner, ?_, hne⟩
  show peer ∈ (((restoreActiveMultihubPartitions w.source.journal).filterMapValues
    fun contesting => some contesting.toFinset).get? name).getD ∅
  rw [Dict.get?_filterMapValues, h.watched.journal name, hget]
  simpa using hmem

theorem values_hub {peers : List String} {active : Dict String (List String)}
    {s : JournalledFollower} (h : Watched peers active s) :
    ∀ e ∈ s.follower.events.values, e.hubId ∈ peers := by
  intro e hmem
  obtain ⟨key, hkey⟩ := (Dict.mem_values_iff _ _).mp hmem
  have hhub : key.1 = e.hubId := congrArg Prod.fst (h.sound.filed key e hkey).1.symm
  rw [← hhub]
  refine h.events key.1 key.2 ?_
  rw [hkey]
  simp

/-- Every hub a round sees is a configured peer. -/
theorem refreshed_hub {w : Watch} {s : JournalledFollower}
    (h : Watched w.peers.1 w.partitioned s) (polls : RoundPolls) {name hub : String}
    (hmem : hub ∈ ((w.refreshed s polls).get? name).getD ∅) : hub ∈ w.peers.1 := by
  rcases mem_refreshed.mp hmem with hseen | ⟨contesting, -, hkept⟩
  · exact assertingOwners_hub (P := (· ∈ w.peers.1)) (values_hub h) projectOf hseen
  · exact (mem_retained.mp hkept).2.1

omit [Builtins] in
/-- A peer with a cursor has shown events. -/
theorem exists_event {f : Follower} (h : f.Sound) {peer : String} (hcursor : f.cursor peer ≠ 0) :
    ∃ e ∈ f.events.values, e.hubId = peer := by
  have hpos : 1 ≤ f.cursor peer := by
    have := h.nonneg peer
    omega
  have hsome := (h.contiguous peer (f.cursor peer)).mpr ⟨hpos, le_refl _⟩
  obtain ⟨e, he⟩ := Option.ne_none_iff_exists'.mp hsome
  exact ⟨e, (Dict.mem_values_iff _ _).mpr ⟨_, he⟩, congrArg Prod.fst (h.filed _ e he).1⟩

/-- What one step keeps: the journal restores the active partitions, and a contestant that is still
configured is held unless the step clears it. -/
theorem step_faithful {w : Watch} (h : w.Faithful) (i : Step) :
    (w.step i).Faithful ∧ ∀ name peer, w.Held name peer → peer ∈ (w.step i).peers.1 →
      (w.step i).Held name peer ∨ w.Clears name peer i := by
  cases i with
  | restart peers =>
    exact ⟨faithful_start _ _ _ _, fun name peer hheld _ => .inl (held_restart h hheld peers)⟩
  | recover peerId recoveredBy reason generation now =>
    exact ⟨⟨h.watched.recoverPeer .., h.stripped, h.covered⟩, fun _ _ hheld _ => .inl hheld⟩
  | append ts kind payload hkind =>
    refine ⟨⟨⟨h.watched.sound, h.watched.events, ?_⟩, h.stripped, h.covered⟩,
      fun _ _ hheld _ => .inl hheld⟩
    show (restoreActiveMultihubPartitions (w.source.journal.insertEnrolled ts kind payload).1).Same _
    rw [restorePartitions_append _ _ _ hkind]
    exact h.watched.journal
  | round fetch now journalled =>
    have hwatched := @Watched.pollAll _ _ _ fetch now _ (fun _ hmem => hmem) _ h.watched {}
    unfold step pollOnce
    dsimp only
    cases hpolls : pollAll fetch now w.peers.1 w.source {} with
    | mk source outcome =>
    rw [hpolls] at hwatched
    cases outcome with
    | none => exact ⟨⟨hwatched, h.stripped, h.covered⟩, fun _ _ hheld _ => .inl hheld⟩
    | some polls =>
      dsimp only
      split
      · exact ⟨⟨hwatched, h.stripped, h.covered⟩, fun _ _ hheld _ => .inl hheld⟩
      · obtain ⟨hsame, hsettled⟩ := @recorded_settled _ w source (w.refreshed source polls) now
          (fun name hub hmem => w.peers.2 hub (refreshed_hub hwatched polls hmem)) h.stripped
          hwatched.journal
        refine ⟨⟨⟨hwatched.sound, hwatched.events, hsame⟩, ?_, ?_⟩, ?_⟩
        · intro name contesting hget
          rw [hsettled] at hget
          unfold settled at hget
          split at hget
          · rename_i hpartitioned
            exact decision_stripped hpartitioned
          · cases hget
        · intro name peer hmem
          refine ⟨_, ?_, hmem⟩
          rw [hsettled]
          exact if_pos (NamespaceOwnership.resolve_partitioned.mpr (List.ne_nil_of_mem hmem))
        · intro name peer hheld hconfigured
          rw [held_iff] at hheld ⊢
          obtain ⟨contesting, hget, hmem⟩ := h.covered name peer hheld
          obtain ⟨owner, howner, -, hne⟩ := mem_decision_contesting.mp hheld
          by_cases hseen : peer ∈ ((w.refreshed source polls).get? name).getD ∅
          · exact .inl (mem_decision_contesting.mpr ⟨owner, howner, hseen, hne⟩)
          · -- a contestant the round drops has answered, has shown events, and asserts nothing
            right
            rw [mem_refreshed, not_or] at hseen
            have hkept : peer ∉ w.retained source polls contesting :=
              fun hkept => hseen.2 ⟨contesting, hget, hkept⟩
            rw [mem_retained] at hkept
            have hfailed : peer ∉ polls.failed :=
              fun hfailed => hkept ⟨hmem, hconfigured, .inl hfailed⟩
            have hcursor : source.follower.cursor peer ≠ 0 :=
              fun hcursor => hkept ⟨hmem, hconfigured, .inr hcursor⟩
            exact ⟨source, polls, hpolls, hfailed,
              (pollAll_fetched hpolls).2 peer hconfigured hfailed,
              exists_event hwatched.sound hcursor, hseen.1⟩

/-! ## Runs -/

/-- Evidence of a partition survives failures and restarts: after every run the journal restores
exactly the active partitions, and a namespace held because of a peer stays refused, as long as the
peer is configured, until a round in which the peer's poll succeeds with a log that is not empty
and no longer asserts it. -/
theorem partition_evidence (ownership : WatchOwnership) (peers : WatchPeers) (observerId : String)
    (journal : EventStore) (before later : List Step) :
    let w := Trace.run step (start ownership peers observerId journal) before
    (restoreActiveMultihubPartitions w.source.journal).Same w.partitioned ∧
      ∀ name peer, w.Held name peer →
        (∀ call ∈ Trace.trace step w later, peer ∈ (call.1.step call.2).peers.1) →
        (Trace.run step w later).Held name peer ∨
          ∃ call ∈ Trace.trace step w later, call.1.Clears name peer call.2 := by
  intro w
  have hw : w.Faithful := Trace.invariant step (P := Faithful) (fun _ i hs => (step_faithful hs i).1)
    (faithful_start ownership peers observerId journal) before
  refine ⟨hw.watched.journal, ?_⟩
  clear_value w
  induction later generalizing w with
  | nil =>
    intro name peer hheld _
    exact .inl hheld
  | cons i rest ih =>
    intro name peer hheld hconfigured
    obtain ⟨hnext, hkeeps⟩ := step_faithful hw i
    rcases hkeeps name peer hheld (hconfigured (w, i) List.mem_cons_self) with hheld | hclears
    · rcases ih (w.step i) hnext name peer hheld
        (fun call hcall => hconfigured call (List.mem_cons_of_mem _ hcall)) with hrun | ⟨call, hcall, h⟩
      · exact .inl hrun
      · exact .inr ⟨call, List.mem_cons_of_mem _ hcall, h⟩
    · exact .inr ⟨(w, i), List.mem_cons_self, hclears⟩

end Watch

end SynapseChannel
