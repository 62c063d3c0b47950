import SynapseChannel.Core.DeliverySteps

/-!
# Core — DeliveryNotices

Each transition of a delivery leaves a status notification for its sender. A
terminal stage retires what is still unsent to the recipient's name, and the
sender's notification with it where the two names are one.
-/

namespace SynapseChannel.Delivery

open Py

/-! ## Pending notifications -/

/-- A notification that a reconnecting audience is still sent. -/
def Notification.pendingFor (audience : String) (n : Notification) : Bool :=
  n.audience == audience && n.deliveredAt.isNone && n.retiredAt.isNone

namespace Store

def Pending (s : Store) (audience id : String) : Prop :=
  ∃ n, s.notifications.get? id = some n ∧ n.pendingFor audience = true

/-! ## What a call does to a notification -/

/-- The call marks the notification delivered. -/
def Call.Marks (id : String) : Call → Prop
  | .mark id' _ => id' = id
  | _ => False

/-- The call ends a delivery, and its recipient's name is the notification's audience. -/
def Retires (c : Call) (after : Store) (n : Notification) : Prop :=
  ∃ m clock row, c = .mutate m clock ∧ n.operationKey = m.operationKey ∧
    after.requests.get? m.operationKey = some row ∧ row.stage.terminal = true ∧
    n.audience = row.request.target

section
variable [Builtins] {s s' : Store}

section

omit [Builtins]

theorem retirement_retiredAt {m : Mutation} {row : Row} {l : DeliveryLifecycle} {clock : Float}
    {n : Notification} (h : (retirement m row l clock n).retiredAt ≠ none)
    (hunretired : n.retiredAt = none) :
    l.stage.terminal = true ∧ n.operationKey = m.operationKey ∧ n.audience = row.request.target ∧
      n.deliveredAt = none := by
  unfold retirement at h
  split at h
  · rename_i hterminal
    unfold Notification.retire at h
    split at h
    · rename_i hretired
      exact ⟨hterminal, hretired⟩
    · exact absurd hunretired h
  · exact absurd hunretired h

@[simp] theorem retirement_members (m : Mutation) (row : Row) (l : DeliveryLifecycle)
    (clock : Float) (n : Notification) :
    (retirement m row l clock n).operationKey = n.operationKey ∧
      (retirement m row l clock n).audience = n.audience ∧
      (retirement m row l clock n).deliveredAt = n.deliveredAt := by
  unfold retirement
  split
  · unfold Notification.retire
    split <;> simp
  · simp

theorem retires_of_committed {m : Mutation} {clock : Float} {prior : Row} {l : DeliveryLifecycle}
    (hcommitted : Committed s m clock prior l s') {n : Notification} (hunretired : n.retiredAt = none)
    (h : (retirement m prior l clock n).retiredAt ≠ none) :
    Retires (.mutate m clock) s' (retirement m prior l clock n) := by
  obtain ⟨hterminal, hkey, haudience, -⟩ := retirement_retiredAt h hunretired
  obtain ⟨hkey', haudience', -⟩ := retirement_members m prior l clock n
  refine ⟨m, clock, m.row prior l (s.lastSeq + 1), rfl, hkey'.trans hkey, ?_, hterminal,
    haudience'.trans haudience⟩
  rw [hcommitted.requests]
  exact Dict.get?_set_self _ _ _

end

/-- A notification is retired by a call that ends its delivery and is to the
recipient's name. -/
theorem retired_step {c : Call} {id : String} {n : Notification}
    (h : (s.step c).notifications.get? id = some n) (hretired : n.retiredAt ≠ none) :
    (∃ before, s.notifications.get? id = some before ∧ before.retiredAt ≠ none) ∨
      Retires c (s.step c) n := by
  have hstep := commits s c
  generalize s.step c = s' at hstep h ⊢
  cases hstep with
  | idle => exact .inl ⟨n, h, hretired⟩
  | create hcreated =>
    rename_i c created
    rw [hcreated.notifications] at h
    by_cases hid : notificationId c.intent.operationKey 1 = id
    · rw [hid, Dict.get?_set_self] at h
      rw [← Option.some.inj h] at hretired
      exact absurd rfl hretired
    · rw [Dict.get?_set_ne _ _ hid] at h
      exact .inl ⟨n, h, hretired⟩
  | mutate hprior hcommitted =>
    rename_i m clock prior l
    rw [hcommitted.notifications, Option.map_eq_some_iff] at h
    obtain ⟨before, hbefore, rfl⟩ := h
    by_cases hunretired : before.retiredAt = none
    · exact .inr (retires_of_committed hcommitted hunretired hretired)
    · left
      refine ⟨before, ?_, hunretired⟩
      by_cases hid : notificationId m.operationKey (prior.ordinal + 1) = id
      · rw [hid, Dict.get?_set_self] at hbefore
        rw [← Option.some.inj hbefore] at hunretired
        exact absurd rfl hunretired
      · rw [Dict.get?_set_ne _ _ hid] at hbefore
        exact hbefore
  | quarantine key reason =>
    rw [quarantine_notifications] at h
    exact .inl ⟨n, h, hretired⟩
  | bind hbound =>
    rw [hbound.notifications] at h
    exact .inl ⟨n, h, hretired⟩
  | mark id' clock =>
    left
    unfold markNotificationDelivered at h
    cases hget : s.notifications.get? id' with
    | none =>
      rw [hget] at h
      exact ⟨n, h, hretired⟩
    | some marked =>
      simp only [hget] at h
      by_cases hid : id' = id
      · rw [hid, Dict.get?_set_self] at h
        rw [← Option.some.inj h] at hretired
        exact ⟨marked, hid ▸ hget, hretired⟩
      · rw [Dict.get?_set_ne _ _ hid] at h
        exact ⟨n, h, hretired⟩
  | otherEvent => exact .inl ⟨n, h, hretired⟩

omit [Builtins] in
theorem pendingFor_iff {audience : String} {n : Notification} :
    n.pendingFor audience = true ↔
      n.audience = audience ∧ n.deliveredAt = none ∧ n.retiredAt = none := by
  simp only [Notification.pendingFor, Bool.and_eq_true, beq_iff_eq, Option.isNone_iff_eq_none,
    and_assoc]

/-- A notification that no call marks or retires is pending still. -/
theorem pending_step {c : Call} {audience id : String} {n : Notification}
    (h : s.notifications.get? id = some n) (hpending : n.pendingFor audience = true)
    (hmarks : ¬ c.Marks id)
    (hretires : ∀ n', n'.operationKey = n.operationKey → n'.audience = audience →
      ¬ Retires c (s.step c) n') :
    ∃ n', (s.step c).notifications.get? id = some n' ∧ n'.operationKey = n.operationKey ∧
      n'.pendingFor audience = true := by
  have hstep := commits s c
  generalize s.step c = s' at hstep hretires ⊢
  have hsame : ∃ n', s.notifications.get? id = some n' ∧ n'.operationKey = n.operationKey ∧
      n'.pendingFor audience = true := ⟨n, h, rfl, hpending⟩
  cases hstep with
  | idle => exact hsame
  | create hcreated =>
    rename_i c created
    rw [hcreated.notifications, Dict.get?_set_ne]
    · exact hsame
    · intro heq
      rw [← heq, hcreated.unsent] at h
      cases h
  | mutate hprior hcommitted =>
    rename_i m clock prior l
    have hne : notificationId m.operationKey (prior.ordinal + 1) ≠ id := by
      intro heq
      rw [← heq, hcommitted.unsent] at h
      cases h
    obtain ⟨haudience, hunsent, hunretired⟩ := pendingFor_iff.mp hpending
    obtain ⟨hkey, haudience', hdelivered⟩ := retirement_members m prior l clock n
    refine ⟨retirement m prior l clock n, ?_, hkey, pendingFor_iff.mpr ⟨?_, ?_, ?_⟩⟩
    · rw [hcommitted.notifications, Dict.get?_set_ne _ _ hne, h]
      rfl
    · rw [haudience', haudience]
    · rw [hdelivered, hunsent]
    · by_contra hretired
      exact hretires _ hkey (haudience'.trans haudience)
        (retires_of_committed hcommitted hunretired hretired)
  | quarantine key reason =>
    rw [quarantine_notifications]
    exact hsame
  | bind hbound =>
    rw [hbound.notifications]
    exact hsame
  | mark id' clock =>
    unfold markNotificationDelivered
    cases hget : s.notifications.get? id' with
    | none => exact hsame
    | some marked =>
      rw [Dict.get?_set_ne _ _ hmarks]
      exact hsame
  | otherEvent => exact hsame

/-! ## Runs -/

theorem run_append (s : Store) (calls more : List Call) :
    s.run (calls ++ more) = (s.run calls).run more := by
  induction calls generalizing s with
  | nil => rfl
  | cons c rest ih => exact ih (s.step c)

theorem run_snoc (s : Store) (calls : List Call) (c : Call) :
    s.run (calls ++ [c]) = (s.run calls).step c :=
  run_append s calls [c]

/-- The notification of each committed transition is pending for the sender
until it is marked. -/
def SenderNoticesKept (calls : List Call) : Prop :=
  ∀ pre m clock post, pre ++ .mutate m clock :: post <+: calls →
    ∀ s w, (run {} pre).mutate m clock = .ok (s, w) → w.disposition = .inserted →
      m.stage ≠ none →
      (∀ c ∈ post, ¬ c.Marks (notificationId m.operationKey w.record.ordinal)) →
      (run {} (pre ++ .mutate m clock :: post)).Pending w.record.sender
        (notificationId m.operationKey w.record.ordinal)

/-- Only a call that ends a delivery retires notifications, those to its
recipient's name. -/
def RecipientNoticesRetired (calls : List Call) : Prop :=
  ∀ pre c, pre ++ [c] <+: calls → ∀ id n, (run {} (pre ++ [c])).notifications.get? id = some n →
    n.retiredAt ≠ none →
    (∃ before, (run {} pre).notifications.get? id = some before ∧ before.retiredAt ≠ none) ∨
      Retires c (run {} (pre ++ [c])) n

/-- No delivery from a name to itself has ended. -/
def NoneEndedToSelf (s : Store) : Prop :=
  ∀ key row, s.requests.get? key = some row → row.sender = row.request.target →
    row.stage.terminal = false

theorem recipientNoticesRetired (calls : List Call) : RecipientNoticesRetired calls := by
  intro pre c _ id n h hretired
  rw [run_snoc] at h ⊢
  exact retired_step h hretired

/-- A delivery ended along the way is ended at the last. -/
theorem NoneEndedToSelf.of_prefix {pre calls : List Call} (hpre : pre <+: calls)
    (h : NoneEndedToSelf (run {} calls)) : NoneEndedToSelf (run {} pre) := by
  intro key row hrow hself
  obtain ⟨rest, rfl⟩ := hpre
  rw [run_append] at h
  obtain ⟨later, hlater, hgrows⟩ := run_grows hrow rest
  have hopen := h key later hlater (by rw [hgrows.sender, hgrows.request, hself])
  by_contra hterminal
  rw [Bool.not_eq_false] at hterminal
  rw [hgrows.terminal hterminal, hterminal] at hopen
  cases hopen

theorem mutate_inserted {m : Mutation} {clock : Float} {w : DeliveryWrite}
    (h : s.mutate m clock = .ok (s', w)) (hinserted : w.disposition = .inserted) :
    ∃ prior l, s.requests.get? m.operationKey = some prior ∧
      w.record = m.row prior l (s.lastSeq + 1) ∧ Committed s m clock prior l s' := by
  obtain ⟨prior, hprior, ⟨hkept, -⟩ | ⟨l, rfl, hcommitted⟩⟩ := mutate_ok h
  · exact absurd hinserted hkept
  · exact ⟨prior, l, hprior, rfl, hcommitted⟩

theorem step_mutate {m : Mutation} {clock : Float} {w : DeliveryWrite}
    (h : s.mutate m clock = .ok (s', w)) : s.step (.mutate m clock) = s' := by
  rw [step, call, h]
  rfl

omit [Builtins] in
/-- The transition's own notification, as the transition leaves it. -/
theorem committed_notice {m : Mutation} {clock : Float} {prior : Row} {l : DeliveryLifecycle}
    (h : Committed s m clock prior l s') :
    s'.notifications.get? (notificationId m.operationKey (prior.ordinal + 1)) =
      some (retirement m prior l clock (m.notification prior l (s.lastSeq + 1))) := by
  rw [h.notifications, Dict.get?_set_self]
  rfl

omit [Builtins] in
theorem audience_of_stage {m : Mutation} (h : m.stage ≠ none) (row : Row) :
    m.audience row = row.sender := by
  unfold Mutation.audience
  cases hstage : m.stage with
  | none => exact absurd hstage h
  | some stage => rfl

/-- Where no delivery to oneself has ended, no sender loses a notification. -/
theorem sender_notices_kept {calls : List Call} (hself : NoneEndedToSelf (run {} calls)) :
    SenderNoticesKept calls := by
  intro pre m clock post hpre s w hmutate hinserted hstage hmarks
  obtain ⟨prior, l, hprior, hrecord, hcommitted⟩ := mutate_inserted hmutate hinserted
  have hstep := step_mutate hmutate
  have hordinal : w.record.ordinal = prior.ordinal + 1 := by rw [hrecord]; rfl
  have hsender : w.record.sender = prior.sender := by rw [hrecord]; rfl
  have hrow : s.requests.get? m.operationKey = some w.record := by
    rw [hcommitted.requests, hrecord]
    exact Dict.get?_set_self _ _ _
  rw [hordinal] at hmarks ⊢
  have hrun : ∀ between, run {} (pre ++ .mutate m clock :: between) = s.run between := by
    intro between
    rw [run_append, ← hstep]
    rfl
  -- no call up to here retires what is to the sender of this delivery
  have hretires : ∀ between, pre ++ .mutate m clock :: between <+: calls →
      ∀ c n, n.operationKey = m.operationKey → n.audience = w.record.sender →
        ¬ Retires c (s.run between) n := by
    rintro between hbetween c n hkey haudience ⟨m', clock', row, -, hkey', hget, hterminal, htarget⟩
    rw [← hkey', hkey] at hget
    obtain ⟨later, hlater, hgrows⟩ := run_grows hrow between
    rw [hget] at hlater
    rw [← Option.some.inj hlater] at hgrows
    have hopen := hself.of_prefix hbetween m.operationKey row (by rw [hrun]; exact hget)
      (by rw [hgrows.sender, ← haudience, htarget])
    rw [hterminal] at hopen
    cases hopen
  have hpending : ∀ between, pre ++ .mutate m clock :: between <+: calls →
      (∀ c ∈ between, ¬ c.Marks (notificationId m.operationKey (prior.ordinal + 1))) →
      ∃ n, (s.run between).notifications.get?
          (notificationId m.operationKey (prior.ordinal + 1)) = some n ∧
        n.operationKey = m.operationKey ∧ n.pendingFor w.record.sender = true := by
    intro between
    induction between using List.reverseRecOn with
    | nil =>
      intro hbetween _
      obtain ⟨hkey, haudience, hunsent⟩ :=
        retirement_members m prior l clock (m.notification prior l ((run {} pre).lastSeq + 1))
      have hsent : (m.notification prior l ((run {} pre).lastSeq + 1)).audience = w.record.sender := by
        rw [hsender]
        exact audience_of_stage hstage prior
      refine ⟨_, committed_notice hcommitted, hkey, pendingFor_iff.mpr ⟨haudience.trans hsent, hunsent, ?_⟩⟩
      by_contra hretired
      exact hretires [] hbetween _ _ hkey (haudience.trans hsent)
        (retires_of_committed hcommitted rfl hretired)
    | append_singleton between c ih =>
      intro hbetween hunmarked
      have hbefore : pre ++ .mutate m clock :: between <+: calls := by
        refine List.IsPrefix.trans ⟨[c], ?_⟩ hbetween
        simp
      obtain ⟨n, hn, hkey, hpendingFor⟩ := ih hbefore
        fun c hc => hunmarked c (List.mem_append_left _ hc)
      rw [run_snoc]
      obtain ⟨n', hn', hkey', hpendingFor'⟩ := pending_step hn hpendingFor (hunmarked c (by simp))
        fun n' hn' haudience => by
          rw [← run_snoc]
          exact hretires (between ++ [c]) hbetween c n' (hn'.trans hkey) haudience
      exact ⟨n', hn', hkey'.trans hkey, hpendingFor'⟩
  obtain ⟨n, hn, -, hpendingFor⟩ := hpending post hpre hmarks
  exact ⟨n, by rw [hrun]; exact hn, hpendingFor⟩

/-- A committed transition that ends a delivery. -/
structure Ends (s : Store) (m : Mutation) (clock : Float) (w : DeliveryWrite) : Prop where
  committed : ∃ s', s.mutate m clock = .ok (s', w)
  inserted : w.disposition = .inserted
  transition : m.stage ≠ none
  terminal : w.record.stage.terminal = true

theorem ended_step {c : Call} {key : String} {row : Row}
    (h : (s.step c).requests.get? key = some row) (hterminal : row.stage.terminal = true) :
    (∃ before, s.requests.get? key = some before ∧ before.stage.terminal = true) ∨
      ∃ m clock w, c = .mutate m clock ∧ Ends s m clock w ∧ w.record = row := by
  have hstep := commits s c
  generalize hafter : s.step c = s' at hstep h
  cases hstep with
  | idle => exact .inl ⟨row, h, hterminal⟩
  | create hcreated =>
    rename_i c created
    obtain ⟨receiver, heq⟩ := hcreated.row_eq
    rw [hcreated.requests] at h
    by_cases hkey : c.intent.operationKey = key
    · rw [hkey, Dict.get?_set_self] at h
      rw [← Option.some.inj h, heq] at hterminal
      cases hterminal
    · rw [Dict.get?_set_ne _ _ hkey] at h
      exact .inl ⟨row, h, hterminal⟩
  | mutate hprior hcommitted =>
    rename_i m clock prior l
    by_cases hkey : m.operationKey = key
    · cases hmutate : s.mutate m clock with
      | error e =>
        rw [step, call, hmutate] at hafter
        change s = s' at hafter
        exact .inl ⟨row, hafter ▸ h, hterminal⟩
      | ok done =>
        obtain ⟨s'', w⟩ := done
        rw [step_mutate hmutate] at hafter
        subst hafter
        obtain ⟨prior', hprior', ⟨-, rfl, -⟩ | ⟨l', rfl, hcommitted'⟩⟩ := mutate_ok hmutate
        · exact .inl ⟨row, h, hterminal⟩
        · rw [hcommitted'.requests, hkey, Dict.get?_set_self] at h
          have hrow := Option.some.inj h
          rcases stage_of_apply hcommitted'.applied with ⟨source, hstage, -⟩ | ⟨-, hkeeps, hopen⟩
          · right
            refine ⟨m, clock, _, rfl, ⟨⟨_, hmutate⟩, rfl, by simp [hstage], ?_⟩, hrow⟩
            rw [hrow]
            exact hterminal
          · rw [← hrow] at hterminal
            change l'.stage.terminal = true at hterminal
            rw [hkeeps, hopen] at hterminal
            cases hterminal
    · rw [hcommitted.requests, Dict.get?_set_ne _ _ hkey] at h
      exact .inl ⟨row, h, hterminal⟩
  | quarantine key' reason =>
    rw [quarantine_requests] at h
    exact .inl ⟨row, h, hterminal⟩
  | bind hbound =>
    left
    cases hbefore : s.requests.get? key with
    | none =>
      rw [hbound.fresh key hbefore] at h
      cases h
    | some before =>
      obtain ⟨later, hlater, -, hstage⟩ := hbound.rows key before hbefore
      rw [h] at hlater
      rw [Option.some.inj hlater, hstage] at hterminal
      exact ⟨before, rfl, hterminal⟩
  | mark id clock =>
    rw [mark_requests] at h
    exact .inl ⟨row, h, hterminal⟩
  | otherEvent => exact .inl ⟨row, h, hterminal⟩

theorem ended_by (calls : List Call) {key : String} :
    ∀ {row : Row}, (run {} calls).requests.get? key = some row → row.stage.terminal = true →
      ∃ pre m clock w, pre ++ [.mutate m clock] <+: calls ∧ Ends (run {} pre) m clock w ∧
        w.record.sender = row.sender ∧ w.record.request = row.request := by
  induction calls using List.reverseRecOn with
  | nil =>
    intro row hrow
    cases hrow
  | append_singleton before c ih =>
    intro row hrow hterminal
    rw [run_snoc] at hrow
    rcases ended_step hrow hterminal with ⟨prior, hprior, hended⟩ | ⟨m, clock, w, rfl, hends, rfl⟩
    · obtain ⟨later, hlater, hgrows⟩ := step_grows hprior c
      rw [hrow] at hlater
      rw [Option.some.inj hlater, hgrows.sender, hgrows.request]
      obtain ⟨pre, m, clock, w, hpre, hrest⟩ := ih hprior hended
      exact ⟨pre, m, clock, w, hpre.trans (List.prefix_append _ _), hrest⟩
    · exact ⟨before, m, clock, w, List.prefix_rfl, hends, rfl, rfl⟩

/-- In every run, each sender's notification is pending until it is marked and
only what is to a recipient is retired, if and only if no delivery from a
name to itself has ended. -/
theorem sender_notices_iff (calls : List Call) :
    SenderNoticesKept calls ∧ RecipientNoticesRetired calls ↔ NoneEndedToSelf (run {} calls) := by
  constructor
  · rintro ⟨hkept, -⟩ key row hrow hself
    by_contra hopen
    rw [Bool.not_eq_false] at hopen
    obtain ⟨pre, m, clock, w, hpre, ⟨⟨s, hmutate⟩, hinserted, hstage, hended⟩, hsender, hrequest⟩ :=
      ended_by calls hrow hopen
    obtain ⟨n, hn, hpending⟩ := hkept pre m clock [] hpre s w hmutate hinserted hstage
      fun c hc => absurd hc List.not_mem_nil
    obtain ⟨prior, l, hprior, hrecord, hcommitted⟩ := mutate_inserted hmutate hinserted
    -- the terminal transition retires the notification it has just inserted
    rw [run_snoc, step_mutate hmutate, hrecord] at hn
    change s.notifications.get? (notificationId m.operationKey (prior.ordinal + 1)) = _ at hn
    rw [committed_notice hcommitted] at hn
    have hretired : n.retiredAt ≠ none := by
      rw [← Option.some.inj hn]
      have hterminal : l.stage.terminal = true := by rw [hrecord] at hended; exact hended
      have haudience : m.audience prior = prior.request.target := by
        rw [audience_of_stage hstage]
        rw [hrecord] at hsender hrequest
        change prior.sender = _ at hsender
        change prior.request = _ at hrequest
        rw [hsender, hself, hrequest]
      rw [retirement, if_pos hterminal, Notification.retire, if_pos ⟨rfl, haudience, rfl⟩]
      exact Option.some_ne_none _
    exact hretired (pendingFor_iff.mp hpending).2.2
  · intro hself
    exact ⟨sender_notices_kept hself, recipientNoticesRetired calls⟩

end

/-! ### A delivery to oneself -/

def ownCreation [Builtins] : Creation :=
  let intent : DeliveryIntent :=
    { sender := "a", originHub := "hub-1", requestId := "r1", idempotencyKey := "k1"
      target := "a"
      targetIncarnation := "0123456789abcdef0123456789abcdef0123456789abcdef0123456789abcdef"
      mode := .steer, allowedFallbacks := [], taskId := "t1", body := "go"
      deadline := Float.ofInt 100 }
  { intent, selectedMode := "steer", quality := .native, receivingHub := none
    offer :=
      [("notification_id", .str (notificationId intent.operationKey 1)),
        ("operation_key", .str intent.operationKey), ("target", .str "a"),
        ("target_incarnation", .str intent.targetIncarnation)] }

/-- The recipient turns the request down. -/
def ownRejection [Builtins] : Mutation where
  operationKey := ownCreation.intent.operationKey
  stage := some (.rejected, .recipient)
  mutationId := "m1"
  mutationDigest := DeliveryIntent.canonicalDigest
    (.arr [.str ownCreation.intent.operationKey, .str "m1", .str "rejected", .obj []])
  actor := "a"
  evidence := []

/-- The sender's notification of the rejection is retired as it is inserted. -/
theorem rejection_to_self_retired :
    letI : Builtins := Builtins.checksum
    ¬ SenderNoticesKept [.create ownCreation, .mutate ownRejection 50] := by
  let _ : Builtins := Builtins.checksum
  have hrun :
      ((run {} [.create ownCreation]).mutate ownRejection 50).toOption.map (fun done =>
        (done.2.disposition, done.2.record.ordinal,
          (done.1.notifications.get? (notificationId ownRejection.operationKey 2)).map
            Notification.retiredAt)) = some (.inserted, 2, some (some 50)) := by
    decide +kernel
  intro hkept
  obtain ⟨⟨s, w⟩, hmutate, heq⟩ := Option.map_eq_some_iff.mp hrun
  have hok : (run {} [.create ownCreation]).mutate ownRejection 50 = .ok (s, w) := by
    cases hm : (run {} [.create ownCreation]).mutate ownRejection 50 with
    | error e =>
      rw [hm] at hmutate
      cases hmutate
    | ok done =>
      rw [hm] at hmutate
      rw [Option.some.inj hmutate]
  obtain ⟨hinserted, hnotice⟩ := Prod.mk.inj heq
  obtain ⟨hordinal, hnotice⟩ := Prod.mk.inj hnotice
  obtain ⟨n, hn, hretired⟩ := Option.map_eq_some_iff.mp hnotice
  obtain ⟨n', hn', hpending⟩ := hkept [.create ownCreation] ownRejection 50 []
    List.prefix_rfl s w hok hinserted (Option.some_ne_none _) fun c hc => absurd hc List.not_mem_nil
  dsimp only at hordinal
  rw [run_snoc, step_mutate hok, hordinal, hn] at hn'
  rw [Option.some.inj hn', (pendingFor_iff.mp hpending).2.2] at hretired
  cases hretired

end Store

end SynapseChannel.Delivery
