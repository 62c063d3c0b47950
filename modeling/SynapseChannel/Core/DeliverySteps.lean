import SynapseChannel.Core.DeliveryOwnership
import SynapseChannel.Lib.Segments

/-!
# Core — DeliverySteps

What a committed call writes, said once a call: the deliveries that stay,
the members of a delivery no call changes, and the numbering of its
notifications.
-/

namespace SynapseChannel.Delivery

open Py
open Forward (parseHubQualified)

/-! ## Rows -/

/-- A later row of the same delivery. -/
structure Row.Grows (row later : Row) : Prop where
  sender : later.sender = row.sender
  request : later.request = row.request
  target : later.target = row.target
  targetIncarnation : later.targetIncarnation = row.targetIncarnation
  deadline : later.deadline = row.deadline
  ordinal : row.ordinal ≤ later.ordinal
  terminal : row.stage.terminal = true → later.stage = row.stage

namespace Row.Grows

variable {row later last : Row}

theorem refl (row : Row) : row.Grows row := ⟨rfl, rfl, rfl, rfl, rfl, le_refl _, fun _ => rfl⟩

theorem trans (h : row.Grows later) (h' : later.Grows last) : row.Grows last where
  sender := h'.sender.trans h.sender
  request := h'.request.trans h.request
  target := h'.target.trans h.target
  targetIncarnation := h'.targetIncarnation.trans h.targetIncarnation
  deadline := h'.deadline.trans h.deadline
  ordinal := h.ordinal.trans h'.ordinal
  terminal := by
    intro ht
    have hlater := h.terminal ht
    rw [← hlater] at ht ⊢
    exact h'.terminal ht

end Row.Grows

namespace Store

/-! ## Notification ids -/

theorem colon_not_mem_toString (n : Int) : ':' ∉ (toString n).toList := by
  intro hmem
  exact absurd (all_numberChar n ':' hmem) (by decide)

theorem notificationId_inj {key key' : String} {n n' : Int}
    (h : notificationId key n = notificationId key' n') : key = key' ∧ n = n' := by
  have hlist := congrArg String.toList h
  simp only [notificationId, String.toList_append, List.append_assoc] at hlist
  have hrest := List.append_cancel_left hlist
  have hsep : (":" : String).toList = [':'] := by decide
  rw [hsep, List.singleton_append, List.singleton_append] at hrest
  obtain ⟨hkey, hn⟩ :=
    append_sep_inj (colon_not_mem_toString n) (colon_not_mem_toString n') hrest
  exact ⟨String.toList_inj.mp hkey, toString_int_inj (String.toList_inj.mp hn)⟩

/-! ## Creations -/

section
variable [Builtins] {s s' : Store} {w : DeliveryWrite}

def Creation.notification (c : Creation) : Notification :=
  { operationKey := c.intent.operationKey, audience := c.intent.target, frame := c.offer }

/-- What a creation commits. -/
structure Created (s : Store) (c : Creation) (row : Row) (s' : Store) : Prop where
  fresh : s.requests.get? c.intent.operationKey = none
  row_eq : ∃ receiver, row = c.row receiver (s.lastSeq + 1 + 1)
  requests : s'.requests = s.requests.set c.intent.operationKey row
  mutations : s'.mutations = s.mutations
  unsent : s.notifications.get? (notificationId c.intent.operationKey 1) = none
  notifications :
    s'.notifications = s.notifications.set (notificationId c.intent.operationKey 1) c.notification
  quarantined : s'.quarantined = s.quarantined

omit [Builtins] in
theorem insertNotification_ok {id key audience : String} {frame : Members}
    (h : s.insertNotification id key audience frame = .ok s') :
    s.notifications.get? id = none ∧
      s' = { s with notifications := s.notifications.set id { operationKey := key, audience, frame } } := by
  unfold insertNotification at h
  split_ifs at h with hfinite hcontains
  refine ⟨?_, (Except.ok.inj h).symm⟩
  rw [Bool.not_eq_true] at hcontains
  simpa [Dict.contains] using hcontains

omit [Builtins] in
/-- A key that no row answers to has no row. -/
theorem get?_of_fetchEither {key sender idempotencyKey : String}
    (h : s.fetchEither key sender idempotencyKey = none) : s.requests.get? key = none := by
  cases hget : s.requests.get? key with
  | none => rfl
  | some row =>
    have hmem := (Dict.mem_items_iff _ _ _).mpr hget
    have hno := List.find?_eq_none.mp h _ hmem
    simp at hno

theorem create_ok {c : Creation} (h : s.create c = .ok (s', w)) :
    (w.disposition ≠ .inserted ∧ s' = s) ∨ (w.disposition = .inserted ∧ Created s c w.record s') := by
  obtain ⟨receiver, hcheck, h⟩ := Outcome.bind_ok h
  cases hfetch : s.fetchEither c.intent.operationKey c.intent.sender c.intent.idempotencyKey with
  | some found =>
    obtain ⟨key, row⟩ := found
    simp only [hfetch] at h
    split_ifs at h
    · obtain ⟨rfl, rfl⟩ := Prod.mk.inj (Except.ok.inj h)
      exact .inl ⟨by simp, rfl⟩
    · obtain ⟨rfl, rfl⟩ := Prod.mk.inj (Except.ok.inj h)
      exact .inl ⟨by simp, rfl⟩
  | none =>
    simp only [hfetch, admitCreation] at h
    split_ifs at h
    cases hinsert : insertNotification _ _ _ _ _ with
    | error e =>
      rw [hinsert] at h
      cases h
    | ok inserted =>
      rw [hinsert] at h
      obtain ⟨rfl, rfl⟩ := Prod.mk.inj (Except.ok.inj h)
      obtain ⟨hnone, rfl⟩ := insertNotification_ok hinsert
      exact .inr ⟨rfl, get?_of_fetchEither hfetch, ⟨receiver, rfl⟩, rfl, rfl, hnone, rfl, rfl⟩

/-! ## Transitions -/

def Mutation.notification (m : Mutation) (row : Row) (l : DeliveryLifecycle) (seq : Int) :
    Notification :=
  { operationKey := m.operationKey, audience := m.audience row, frame := m.frame row l seq }

/-- What a terminal stage does to the notifications. -/
def retirement (m : Mutation) (row : Row) (l : DeliveryLifecycle) (clock : Float)
    (n : Notification) : Notification :=
  if l.stage.terminal then n.retire m.operationKey row.request.target clock else n

/-- What a transition commits. -/
structure Committed (s : Store) (m : Mutation) (clock : Float) (prior : Row)
    (l : DeliveryLifecycle) (s' : Store) : Prop where
  authorised : m.authorise prior = .ok ()
  unused : s.mutations.get? (m.operationKey, m.mutationId) = none
  applied : m.apply prior = .ok l
  requests : s'.requests = s.requests.set m.operationKey (m.row prior l (s.lastSeq + 1))
  mutations :
    s'.mutations =
      s.mutations.set (m.operationKey, m.mutationId) (m.mutationDigest, s.lastSeq + 1)
  unsent : s.notifications.get? (notificationId m.operationKey (prior.ordinal + 1)) = none
  notifications : ∀ id, s'.notifications.get? id =
    ((s.notifications.set (notificationId m.operationKey (prior.ordinal + 1))
      (m.notification prior l (s.lastSeq + 1))).get? id).map (retirement m prior l clock)
  quarantined : s'.quarantined = s.quarantined

omit [Builtins] in
theorem apply_ok {m : Mutation} {prior : Row} {l : DeliveryLifecycle} {clock : Float}
    (h : s.apply m prior l clock = .ok (s', w)) (hauth : m.authorise prior = .ok ())
    (hunused : s.mutations.get? (m.operationKey, m.mutationId) = none)
    (happlied : m.apply prior = .ok l) :
    w = ⟨.inserted, m.row prior l (s.lastSeq + 1)⟩ ∧ Committed s m clock prior l s' := by
  simp only [apply] at h
  cases hinsert : insertNotification _ _ _ _ _ with
  | error e =>
    rw [hinsert] at h
    cases h
  | ok inserted =>
    rw [hinsert] at h
    obtain ⟨rfl, rfl⟩ := Prod.mk.inj (Except.ok.inj h)
    obtain ⟨hnone, rfl⟩ := insertNotification_ok hinsert
    refine ⟨rfl, hauth, hunused, happlied, rfl, rfl, hnone, ?_, rfl⟩
    intro id
    unfold retirement
    cases hterminal : l.stage.terminal with
    | false =>
      simp only [Bool.false_eq_true, if_false, Option.map_id']
      rfl
    | true =>
      simp only [if_true, Dict.get?_filterMapValues]
      exact Option.map_eq_bind.symm

/-- A transition that is answered without being committed: its mutation id
is used, or a cancellation is already requested. -/
structure Answered (s : Store) (m : Mutation) (prior : Row) : Prop where
  checked : m.check = .ok ()
  authorised : m.authorise prior = .ok ()
  used : s.mutations.get? (m.operationKey, m.mutationId) ≠ none ∨ m.stage = none

theorem mutate_ok {m : Mutation} {clock : Float} (h : s.mutate m clock = .ok (s', w)) :
    ∃ prior, s.requests.get? m.operationKey = some prior ∧
      ((w.disposition ≠ .inserted ∧ s' = s ∧ Answered s m prior) ∨
        ∃ l, w = ⟨.inserted, m.row prior l (s.lastSeq + 1)⟩ ∧ Committed s m clock prior l s') := by
  obtain ⟨_, hcheck, h⟩ := Outcome.bind_ok h
  cases hrow : s.requests.get? m.operationKey with
  | none =>
    rw [hrow] at h
    cases h
  | some prior =>
    refine ⟨prior, rfl, ?_⟩
    simp only [hrow] at h
    obtain ⟨_, hauth, h⟩ := Outcome.bind_ok h
    cases hused : s.mutations.get? (m.operationKey, m.mutationId) with
    | some used =>
      simp only [hused] at h
      obtain ⟨rfl, rfl⟩ := Prod.mk.inj (Except.ok.inj h)
      refine .inl ⟨?_, rfl, hcheck, hauth, .inl (by simp [hused])⟩
      show (if used.1 = m.mutationDigest then Disposition.replayed else .conflict) ≠ .inserted
      split <;> simp
    | none =>
      simp only [hused] at h
      obtain ⟨l, happlied, h⟩ := Outcome.bind_ok h
      split_ifs at h with hcancel
      · obtain ⟨rfl, rfl⟩ := Prod.mk.inj (Except.ok.inj h)
        exact .inl ⟨by simp, rfl, hcheck, hauth, .inr hcancel.1⟩
      · exact .inr ⟨l, apply_ok h hauth hused happlied⟩

omit [Builtins] in
/-- A transition that is applied follows from the prior stage; a
cancellation request keeps it. -/
theorem stage_of_apply {m : Mutation} {prior : Row} {l : DeliveryLifecycle}
    (h : m.apply prior = .ok l) :
    (∃ source, m.stage = some (l.stage, source) ∧ l.stage ∈ prior.stage.next) ∨
      (m.stage = none ∧ l.stage = prior.stage ∧ prior.stage.terminal = false) := by
  unfold Mutation.apply at h
  cases hstage : m.stage with
  | none =>
    simp only [hstage, DeliveryLifecycle.requestCancel] at h
    split_ifs at h with hterminal
    rw [← Except.ok.inj h]
    exact .inr ⟨rfl, rfl, by simpa using hterminal⟩
  | some claimed =>
    obtain ⟨stage, source⟩ := claimed
    simp only [hstage, DeliveryLifecycle.advance] at h
    split_ifs at h with h1 h2 h3 hnext
    rw [← Except.ok.inj h]
    exact .inl ⟨source, rfl, hnext⟩

omit [Builtins] in
theorem Mutation.row_grows {m : Mutation} {prior : Row} {l : DeliveryLifecycle}
    (h : m.apply prior = .ok l) (seq : Int) : prior.Grows (m.row prior l seq) where
  sender := rfl
  request := rfl
  target := rfl
  targetIncarnation := rfl
  deadline := rfl
  ordinal := by
    show prior.ordinal ≤ prior.ordinal + 1
    omega
  terminal := by
    intro hterminal
    rcases stage_of_apply h with ⟨_, -, hnext⟩ | ⟨-, heq, -⟩
    · rw [DeliveryStage.next_terminal hterminal] at hnext
      simp at hnext
    · exact heq

end

/-! ## Bindings -/

/-- What a binding of a legacy journal commits. -/
structure Bound (s s' : Store) : Prop where
  rows : ∀ key row, s.requests.get? key = some row →
    ∃ later, s'.requests.get? key = some later ∧ row.Grows later ∧ later.stage = row.stage
  fresh : ∀ key, s.requests.get? key = none → s'.requests.get? key = none
  mutations : s'.mutations = s.mutations
  notifications : s'.notifications = s.notifications
  quarantined : Dict.Sub s'.quarantined s.quarantined

namespace Bound

variable {s s' s'' : Store}

theorem refl (s : Store) : Bound s s where
  rows := fun _ row h => ⟨row, h, Row.Grows.refl row, rfl⟩
  fresh := fun _ h => h
  mutations := rfl
  notifications := rfl
  quarantined := Dict.Sub.refl _

theorem trans (h : Bound s s') (h' : Bound s' s'') : Bound s s'' where
  rows := by
    intro key row hrow
    obtain ⟨mid, hmid, hgrows, hstage⟩ := h.rows key row hrow
    obtain ⟨later, hlater, hgrows', hstage'⟩ := h'.rows key mid hmid
    exact ⟨later, hlater, hgrows.trans hgrows', hstage'.trans hstage⟩
  fresh := fun key hnone => h'.fresh key (h.fresh key hnone)
  mutations := h'.mutations.trans h.mutations
  notifications := h'.notifications.trans h.notifications
  quarantined := h'.quarantined.trans h.quarantined

end Bound

theorem bindRow_ok {hubId recoveryRef key : String} {retry : Bool} {s : Store} {n : Nat}
    {row : Row} {done : Store × Nat} (hrow : s.requests.get? key = some row)
    (h : bindRow hubId recoveryRef retry (s, n) (key, row) = .ok done) :
    Bound s done.1 ∧ ∀ other, other ≠ key → done.1.requests.get? other = s.requests.get? other := by
  simp only [bindRow] at h
  split_ifs at h
  · rw [← Except.ok.inj h]
    exact ⟨Bound.refl s, fun _ _ => rfl⟩
  all_goals
    rw [← Except.ok.inj h]
    have hne : ∀ other, other ≠ key → ∀ bound : Row,
        (s.requests.set key bound).get? other = s.requests.get? other :=
      fun other hother bound => Dict.get?_set_ne _ _ (Ne.symm hother)
    refine ⟨⟨?_, ?_, rfl, rfl, ?_⟩, fun other hother => hne other hother _⟩
    · intro other before hbefore
      by_cases hother : other = key
      · subst hother
        rw [hrow] at hbefore
        rw [← Option.some.inj hbefore]
        refine ⟨_, Dict.get?_set_self _ _ _, ⟨rfl, rfl, rfl, rfl, rfl, ?_, fun _ => rfl⟩, rfl⟩
        show row.ordinal ≤ row.ordinal + 1
        omega
      · exact ⟨before, (hne other hother _).trans hbefore, Row.Grows.refl before, rfl⟩
    · intro other hnone
      have hother : other ≠ key := by
        rintro rfl
        rw [hrow] at hnone
        cases hnone
      exact (hne other hother _).trans hnone
    · first
        | exact Dict.Sub.erase _ _
        | exact Dict.Sub.refl _

theorem bindRows_ok {hubId recoveryRef : String} {retry : Bool} {rows : List (String × Row)}
    (hnodup : (rows.map Prod.fst).Nodup) :
    ∀ {s : Store} {n : Nat} {done : Store × Nat},
      (∀ entry ∈ rows, s.requests.get? entry.1 = some entry.2) →
      rows.foldlM (bindRow hubId recoveryRef retry) (s, n) = .ok done → Bound s done.1 := by
  induction rows with
  | nil =>
    intro s n done _ h
    rw [List.foldlM_nil] at h
    rw [← Except.ok.inj h]
    exact Bound.refl s
  | cons entry rest ih =>
    intro s n done hrows h
    rw [List.foldlM_cons] at h
    obtain ⟨next, hnext, h⟩ := Outcome.bind_ok h
    obtain ⟨hbound, hothers⟩ := bindRow_ok (hrows entry (by simp)) hnext
    rw [List.map_cons, List.nodup_cons] at hnodup
    refine hbound.trans (ih hnodup.2 ?_ h)
    intro other hother
    have hne : other.1 ≠ entry.1 := by
      intro heq
      exact hnodup.1 (heq ▸ List.mem_map.mpr ⟨other, hother, rfl⟩)
    rw [hothers _ hne]
    exact hrows other (List.mem_cons_of_mem _ hother)

section
variable [Builtins] {s s' : Store}

theorem bind_ok {authentic : Except Failure Unit} {hubId recoveryRef : String} {retry : Bool}
    {n : Nat} (h : s.bindLegacyReceivingHub authentic hubId recoveryRef retry = .ok (s', n)) :
    Bound s s' := by
  obtain ⟨_, -, h⟩ := Outcome.bind_ok h
  obtain ⟨_, -, h⟩ := Outcome.bind_ok h
  obtain ⟨_, -, h⟩ := Outcome.bind_ok h
  obtain ⟨_, -, h⟩ := Outcome.bind_ok h
  obtain ⟨_, -, h⟩ := Outcome.bind_ok h
  obtain ⟨done, hdone, h⟩ := Outcome.bind_ok h
  obtain ⟨_, -, h⟩ := Outcome.bind_ok h
  rw [show s' = done.1 from congrArg Prod.fst (Except.ok.inj h).symm]
  refine bindRows_ok ?_ ?_ hdone
  · have hperm := (sortedBy_perm (fun a b : String => decide (a < b)) Prod.fst
      s.requests.items).map Prod.fst
    exact hperm.nodup_iff.mpr s.requests.nodup
  · intro entry hentry
    rw [mem_sortedBy] at hentry
    exact (Dict.mem_items_iff _ _ _).mp hentry

/-! ## Every call -/

/-- What a call can do to the store; a refused, replayed or conflicting one
does nothing. -/
inductive Commits (s : Store) : Call → Store → Prop
  | idle (c : Call) : Commits s c s
  | create {c : Creation} {row : Row} {s' : Store} (h : Created s c row s') : Commits s (.create c) s'
  | mutate {m : Mutation} {clock : Float} {prior : Row} {l : DeliveryLifecycle} {s' : Store}
      (hprior : s.requests.get? m.operationKey = some prior) (h : Committed s m clock prior l s') :
      Commits s (.mutate m clock) s'
  | quarantine (key reason : String) : Commits s (.quarantine key reason) (s.quarantine key reason)
  | bind {authentic : Except Failure Unit} {hubId recoveryRef : String} {retry : Bool} {s' : Store}
      (h : Bound s s') : Commits s (.bind authentic hubId recoveryRef retry) s'
  | mark (id : String) (clock : Float) :
      Commits s (.mark id clock) (s.markNotificationDelivered id clock)
  | otherEvent : Commits s .otherEvent { s with lastSeq := s.lastSeq + 1 }

theorem commits (s : Store) (c : Call) : Commits s c (s.step c) := by
  unfold step
  cases hcall : s.call c with
  | error e => exact .idle c
  | ok done =>
    obtain ⟨s', reply⟩ := done
    show Commits s c s'
    cases c with
    | create c =>
      obtain ⟨⟨s'', w⟩, hcreate, heq⟩ := Outcome.map_ok hcall
      rw [← (Prod.mk.inj heq).1]
      rcases create_ok hcreate with ⟨-, rfl⟩ | ⟨-, h⟩
      · exact .idle _
      · exact .create h
    | mutate m clock =>
      obtain ⟨⟨s'', w⟩, hmutate, heq⟩ := Outcome.map_ok hcall
      rw [← (Prod.mk.inj heq).1]
      obtain ⟨prior, hprior, ⟨-, rfl, -⟩ | ⟨l, -, h⟩⟩ := mutate_ok hmutate
      · exact .idle _
      · exact .mutate hprior h
    | quarantine key reason =>
      rw [← (Prod.mk.inj (Except.ok.inj hcall)).1]
      exact .quarantine key reason
    | bind authentic hubId recoveryRef retry =>
      obtain ⟨⟨s'', n⟩, hbind, heq⟩ := Outcome.map_ok hcall
      rw [← (Prod.mk.inj heq).1]
      exact .bind (bind_ok hbind)
    | mark id clock =>
      rw [← (Prod.mk.inj (Except.ok.inj hcall)).1]
      exact .mark id clock
    | otherEvent =>
      rw [← (Prod.mk.inj (Except.ok.inj hcall)).1]
      exact .otherEvent

section

omit [Builtins]

@[simp] theorem quarantine_requests (s : Store) (key reason : String) :
    (s.quarantine key reason).requests = s.requests := by
  unfold quarantine
  split <;> rfl

@[simp] theorem quarantine_mutations (s : Store) (key reason : String) :
    (s.quarantine key reason).mutations = s.mutations := by
  unfold quarantine
  split <;> rfl

@[simp] theorem quarantine_notifications (s : Store) (key reason : String) :
    (s.quarantine key reason).notifications = s.notifications := by
  unfold quarantine
  split <;> rfl

@[simp] theorem mark_requests (s : Store) (id : String) (clock : Float) :
    (s.markNotificationDelivered id clock).requests = s.requests := by
  unfold markNotificationDelivered
  split <;> rfl

@[simp] theorem mark_mutations (s : Store) (id : String) (clock : Float) :
    (s.markNotificationDelivered id clock).mutations = s.mutations := by
  unfold markNotificationDelivered
  split <;> rfl

end

/-- A delivery stays, under the members no call changes. -/
theorem step_grows {key : String} {row : Row} (h : s.requests.get? key = some row) (c : Call) :
    ∃ later, (s.step c).requests.get? key = some later ∧ row.Grows later := by
  have hstep := commits s c
  generalize s.step c = s' at hstep ⊢
  have hsame : ∃ later, s.requests.get? key = some later ∧ row.Grows later :=
    ⟨row, h, Row.Grows.refl row⟩
  cases hstep with
  | idle => exact hsame
  | create hcreated =>
    rename_i c created
    have hne : c.intent.operationKey ≠ key := by
      intro heq
      rw [← heq, hcreated.fresh] at h
      cases h
    rw [hcreated.requests, Dict.get?_set_ne _ _ hne]
    exact hsame
  | mutate hprior hcommitted =>
    rename_i m clock prior l
    rw [hcommitted.requests]
    by_cases hkey : m.operationKey = key
    · rw [← hkey, hprior] at h
      rw [hkey, Dict.get?_set_self, ← Option.some.inj h]
      exact ⟨_, rfl, Mutation.row_grows hcommitted.applied _⟩
    · rw [Dict.get?_set_ne _ _ hkey]
      exact hsame
  | quarantine key' reason =>
    rw [quarantine_requests]
    exact hsame
  | bind hbound =>
    obtain ⟨later, hlater, hgrows, -⟩ := hbound.rows key row h
    exact ⟨later, hlater, hgrows⟩
  | mark id clock =>
    rw [mark_requests]
    exact hsame
  | otherEvent => exact hsame

/-- Every row satisfies `P` under its key. -/
def Rows (P : String → Row → Prop) (s : Store) : Prop :=
  ∀ key row, s.requests.get? key = some row → P key row

theorem rows_step {P : String → Row → Prop}
    (hnew : ∀ (c : Creation) receiver seq, P c.intent.operationKey (c.row receiver seq))
    (hnext : ∀ (m : Mutation) prior l seq, m.apply prior = .ok l → P m.operationKey prior →
      P m.operationKey (m.row prior l seq))
    (hbind : ∀ key (row later : Row), row.Grows later → later.stage = row.stage → P key row →
      P key later)
    (h : s.Rows P) (c : Call) : (s.step c).Rows P := by
  have hstep := commits s c
  generalize s.step c = s' at hstep ⊢
  cases hstep with
  | idle => exact h
  | create hcreated =>
    rename_i c created
    intro key row hrow
    obtain ⟨receiver, heq⟩ := hcreated.row_eq
    rw [hcreated.requests] at hrow
    by_cases hkey : c.intent.operationKey = key
    · rw [hkey, Dict.get?_set_self] at hrow
      rw [← Option.some.inj hrow, heq, ← hkey]
      exact hnew c receiver _
    · rw [Dict.get?_set_ne _ _ hkey] at hrow
      exact h key row hrow
  | mutate hprior hcommitted =>
    rename_i m clock prior l
    intro key row hrow
    rw [hcommitted.requests] at hrow
    by_cases hkey : m.operationKey = key
    · rw [hkey, Dict.get?_set_self] at hrow
      rw [← Option.some.inj hrow, ← hkey]
      exact hnext m prior l _ hcommitted.applied (h _ prior hprior)
    · rw [Dict.get?_set_ne _ _ hkey] at hrow
      exact h key row hrow
  | quarantine key reason =>
    intro key' row hrow
    rw [quarantine_requests] at hrow
    exact h key' row hrow
  | bind hbound =>
    intro key later hlater
    cases hrow : s.requests.get? key with
    | none =>
      rw [hbound.fresh key hrow] at hlater
      cases hlater
    | some row =>
      obtain ⟨found, hfound, hgrows, hstage⟩ := hbound.rows key row hrow
      rw [hlater] at hfound
      rw [Option.some.inj hfound]
      exact hbind key row found hgrows hstage (h key row hrow)
  | mark id clock =>
    intro key row hrow
    rw [mark_requests] at hrow
    exact h key row hrow
  | otherEvent => exact h

omit [Builtins] in
/-- A queued delivery is past its acceptance. -/
def Begun (_ : String) (row : Row) : Prop := row.stage ≠ .accepted

theorem begun_step (h : s.Rows Begun) (c : Call) : (s.step c).Rows Begun := by
  refine rows_step ?_ ?_ ?_ h c
  · intro c receiver seq
    simp [Begun, Creation.row]
  · intro m prior l seq happlied hprior
    show l.stage ≠ .accepted
    rcases stage_of_apply happlied with ⟨-, -, hnext⟩ | ⟨-, heq, -⟩
    · intro haccepted
      rw [haccepted] at hnext
      revert hnext
      cases prior.stage <;> simp [DeliveryStage.next]
    · rw [heq]
      exact hprior
  · intro key row later _ hstage hrow
    rw [Begun, hstage]
    exact hrow

theorem begun_run (calls : List Call) : (run {} calls).Rows Begun :=
  Trace.invariant step (P := Rows Begun) (fun _ c h => begun_step h c) (fun _ _ h => by cases h)
    calls

/-- A row is under the key of its request. -/
def Keyed (key : String) (row : Row) : Prop := key = row.request.operationKey

theorem keyed_step (h : s.Rows Keyed) (c : Call) : (s.step c).Rows Keyed := by
  refine rows_step ?_ ?_ ?_ h c
  · intro c receiver seq
    rfl
  · intro m prior l seq _ hprior
    exact hprior
  · intro key row later hgrows _ hrow
    rw [Keyed, hgrows.request]
    exact hrow

theorem keyed_run (calls : List Call) : (run {} calls).Rows Keyed :=
  Trace.invariant step (P := Rows Keyed) (fun _ c h => keyed_step h c) (fun _ _ h => by cases h)
    calls

theorem run_grows {key : String} {row : Row} (h : s.requests.get? key = some row)
    (calls : List Call) :
    ∃ later, (s.run calls).requests.get? key = some later ∧ row.Grows later :=
  Trace.invariant step (P := fun s => ∃ later, s.requests.get? key = some later ∧ row.Grows later)
    (fun _ c ⟨_, hlater, hgrows⟩ =>
      have ⟨last, hlast, hgrows'⟩ := step_grows hlater c
      ⟨last, hlast, hgrows.trans hgrows'⟩)
    ⟨row, h, Row.Grows.refl row⟩ calls

/-! ## The numbering of notifications -/

omit [Builtins] in
/-- No notification is numbered past its delivery's ordinal. -/
def Numbered (s : Store) : Prop :=
  ∀ key ordinal, (∀ row, s.requests.get? key = some row → row.ordinal < ordinal) →
    s.notifications.get? (notificationId key ordinal) = none

omit [Builtins] in
theorem numbered_empty : Numbered {} := fun _ _ _ => rfl

theorem numbered_step (h : s.Numbered) (c : Call) : (s.step c).Numbered := by
  have hstep := commits s c
  generalize s.step c = s' at hstep ⊢
  cases hstep with
  | idle => exact h
  | create hcreated =>
    rename_i c created
    intro key ordinal hpast
    rw [hcreated.requests] at hpast
    rw [hcreated.notifications]
    by_cases hkey : c.intent.operationKey = key
    · obtain ⟨receiver, hcreatedRow⟩ := hcreated.row_eq
      have hordinal : created.ordinal < ordinal := hpast created (by rw [← hkey]; simp)
      have hone : created.ordinal = 1 := by rw [hcreatedRow]; rfl
      rw [Dict.get?_set_ne _ _ fun heq => by have := (notificationId_inj heq).2; omega]
      refine h key ordinal fun row hrow => ?_
      rw [← hkey, hcreated.fresh] at hrow
      cases hrow
    · rw [Dict.get?_set_ne _ _ fun heq => hkey (notificationId_inj heq).1]
      refine h key ordinal fun row hrow => hpast row ?_
      rw [Dict.get?_set_ne _ _ hkey]
      exact hrow
  | mutate hprior hcommitted =>
    rename_i m clock prior l
    intro key ordinal hpast
    rw [hcommitted.requests] at hpast
    rw [hcommitted.notifications]
    by_cases hkey : m.operationKey = key
    · have hordinal : prior.ordinal + 1 < ordinal := hpast _ (by rw [← hkey, Dict.get?_set_self])
      rw [Dict.get?_set_ne _ _ fun heq => by have := (notificationId_inj heq).2; omega]
      have hnone := h key ordinal fun row hrow => by
        rw [← hkey, hprior] at hrow
        rw [← Option.some.inj hrow]
        omega
      rw [hnone]
      rfl
    · rw [Dict.get?_set_ne _ _ fun heq => hkey (notificationId_inj heq).1]
      have hnone := h key ordinal fun row hrow => hpast row (by
        rw [Dict.get?_set_ne _ _ hkey]
        exact hrow)
      rw [hnone]
      rfl
  | quarantine key reason =>
    intro key' ordinal hpast
    rw [quarantine_requests] at hpast
    rw [quarantine_notifications]
    exact h key' ordinal hpast
  | bind hbound =>
    intro key ordinal hpast
    rw [hbound.notifications]
    refine h key ordinal fun row hrow => ?_
    obtain ⟨later, hlater, hgrows, -⟩ := hbound.rows key row hrow
    exact lt_of_le_of_lt hgrows.ordinal (hpast later hlater)
  | mark id clock =>
    intro key ordinal hpast
    rw [mark_requests] at hpast
    have hnone := h key ordinal hpast
    unfold markNotificationDelivered
    cases hget : s.notifications.get? id with
    | none => exact hnone
    | some n =>
      have hne : id ≠ notificationId key ordinal := by
        rintro rfl
        rw [hnone] at hget
        cases hget
      exact (Dict.get?_set_ne _ _ hne).trans hnone
  | otherEvent => exact h

theorem numbered_run (h : s.Numbered) (calls : List Call) : (s.run calls).Numbered :=
  Trace.invariant step (P := Numbered) (fun _ c h => numbered_step h c) h calls

/-- No delivery is lost, moved or reopened. In every state that calls reach, a delivery stands past
its acceptance under the key of its request, and no notification is numbered past its ordinal;
whatever calls follow, it keeps its parties, its request, its deadline and the stage it ended in. -/
theorem deliveries_kept (calls : List Call) :
    let reached := run {} calls
    reached.Rows (fun key row => Keyed key row ∧ Begun key row) ∧ reached.Numbered ∧
      ∀ more : List Call, reached.Rows fun key row =>
        ∃ later, (reached.run more).requests.get? key = some later ∧ row.Grows later := by
  intro reached
  refine ⟨?_, numbered_run numbered_empty calls, ?_⟩
  · intro key row hrow
    exact ⟨keyed_run calls key row hrow, begun_run calls key row hrow⟩
  · intro more key row hrow
    exact run_grows hrow more

/-! ## Refusals -/

section

omit [Builtins]

theorem authorise_refused {m : Mutation} {row : Row} {e : Failure}
    (h : m.authorise row = .error e) : ∃ code detail, e = .refusal code detail := by
  unfold Mutation.authorise at h
  split at h
  · split_ifs at h
    exact ⟨_, _, (Except.error.inj h).symm⟩
  · dsimp only at h
    split_ifs at h
    exact ⟨_, _, (Except.error.inj h).symm⟩

theorem apply_refused {m : Mutation} {row : Row} {e : Failure} (h : m.apply row = .error e) :
    ∃ code detail, e = .refusal code detail := by
  unfold Mutation.apply DeliveryLifecycle.requestCancel DeliveryLifecycle.advance at h
  split at h <;> split_ifs at h <;> exact ⟨_, _, (Except.error.inj h).symm⟩

end

theorem check_refused {m : Mutation} {e : Failure} (hfinite : hasNonFinite (.obj m.evidence) = false)
    (h : m.check = .error e) : ∃ code detail, e = .refusal code detail := by
  unfold Mutation.check at h
  rw [hfinite, if_neg Bool.false_ne_true] at h
  split_ifs at h <;> exact ⟨_, _, (Except.error.inj h).symm⟩

omit [Builtins] in
/-- A status frame is texts, numbers and truth values. -/
theorem frame_finite (m : Mutation) (row : Row) (l : DeliveryLifecycle) (seq : Int) :
    hasNonFinite (.obj (m.frame row l seq)) = false := by
  simp [Mutation.frame, hasNonFinite, membersNonFinite]

omit [Builtins] in
theorem apply_isOk {m : Mutation} {row : Row}
    (hunsent : s.notifications.get? (notificationId m.operationKey (row.ordinal + 1)) = none)
    (l : DeliveryLifecycle) (clock : Float) : ∃ done, s.apply m row l clock = .ok done := by
  simp only [apply, insertNotification]
  rw [if_neg (by rw [frame_finite]; exact Bool.false_ne_true), if_neg]
  · exact ⟨_, rfl⟩
  · show ¬ s.notifications.contains _ = true
    rw [Dict.contains, hunsent]
    exact Bool.false_ne_true

/-- A transition with finite evidence is refused at worst. -/
theorem mutate_refused (hnumbered : s.Numbered) {m : Mutation}
    (hfinite : hasNonFinite (.obj m.evidence) = false) {clock : Float} {e : Failure}
    (h : s.mutate m clock = .error e) : ∃ code detail, e = .refusal code detail := by
  rcases Outcome.bind_error h with hcheck | ⟨_, -, h⟩
  · exact check_refused hfinite hcheck
  cases hrow : s.requests.get? m.operationKey with
  | none =>
    rw [hrow] at h
    exact ⟨_, _, (Except.error.inj h).symm⟩
  | some row =>
    simp only [hrow] at h
    rcases Outcome.bind_error h with hauth | ⟨_, -, h⟩
    · exact authorise_refused hauth
    cases hused : s.mutations.get? (m.operationKey, m.mutationId) with
    | some used =>
      simp only [hused] at h
      cases h
    | none =>
      simp only [hused] at h
      rcases Outcome.bind_error h with happly | ⟨l, -, h⟩
      · exact apply_refused happly
      · have hunsent := hnumbered m.operationKey (row.ordinal + 1) fun other hother => by
          rw [hrow] at hother
          rw [← Option.some.inj hother]
          omega
        obtain ⟨done, hdone⟩ := apply_isOk hunsent l clock
        split_ifs at h
        rw [hdone] at h
        cases h

end

end Store

end SynapseChannel.Delivery
