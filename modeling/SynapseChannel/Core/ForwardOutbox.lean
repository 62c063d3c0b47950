import SynapseChannel.Core.MessageForwardWire

/-!
# Core — ForwardOutbox

The origin's durable outbox: one row a forwarded chat, written by
conditional updates.
-/

namespace SynapseChannel.Forward

open Py

/-- How a forward ended. -/
inductive Settlement where
  | accepted
  | duplicate
  | refused
  | expired
  deriving DecidableEq

inductive OutboxState where
  | pending
  | settled (how : Settlement)
  deriving DecidableEq

/-- One forwarded chat and its delivery state. -/
structure Outgoing where
  peerHub : String
  sender : String
  target : String
  request : Members
  createdAt : Float
  expiresAt : Float
  attempts : Nat := 0
  nextAttemptAt : Float
  state : OutboxState := .pending
  result : Members := []
  notifySender : Bool := false

structure OutboxRow extends Outgoing where
  senderNotifiedAt : Option Float := none

/-- A row as it was read. -/
structure OutboxEntry extends Outgoing where
  forwardId : String

def OutboxRow.entry (row : OutboxRow) (forwardId : String) : OutboxEntry :=
  { row.toOutgoing with forwardId }

abbrev Outbox := Dict String OutboxRow

namespace Outbox

/-- `UPDATE … WHERE forward_id = ?`, for a row that also meets `p`. -/
def update (o : Outbox) (forwardId : String) (p : OutboxRow → Bool) (f : OutboxRow → OutboxRow) :
    Outbox :=
  match o.get? forwardId with
  | none => o
  | some row => if p row then o.set forwardId (f row) else o

/-- The chat's row is written before the first attempt; its id is new. -/
def enqueue (o : Outbox) (forwardId peerHub sender target : String) (request : Members)
    (now expiresAt : Float) (notifySender : Bool) : Option (Outbox × OutboxEntry) :=
  if o.contains forwardId then none
  else
    let row : OutboxRow :=
      { peerHub, sender, target, request, createdAt := now, expiresAt, nextAttemptAt := now
        notifySender }
    some (o.set forwardId row, row.entry forwardId)

def outboxEntry (o : Outbox) (forwardId : String) : Option OutboxEntry :=
  (o.get? forwardId).map (·.entry forwardId)

def entries (o : Outbox) : List (OutboxRow × OutboxEntry) :=
  o.items.map fun (id, row) => (row, row.entry id)

/-- The order of pairs of times. -/
def earlier (a b : Float × Float) : Bool :=
  decide (a.1 < b.1) || (a.1 == b.1 && decide (a.2 < b.2))

/-- Pending entries whose attempt is due, the oldest attempt first. -/
def due (o : Outbox) (now : Float) (limit : Nat := 64) : List OutboxEntry :=
  let rows := o.entries.filter fun (row, _) =>
    row.state == .pending && decide (row.nextAttemptAt ≤ now) && decide (now < row.expiresAt)
  (sortedBy earlier (fun e => (e.nextAttemptAt, e.createdAt)) (rows.map Prod.snd)).take
    (max 1 limit)

/-- Count a failed transport attempt and schedule the next. -/
def recordFailedAttempt (o : Outbox) (forwardId : String) (nextAttemptAt : Float)
    (error : String) : Outbox :=
  o.update forwardId (·.state == .pending) fun row =>
    { row with
      attempts := row.attempts + 1
      nextAttemptAt
      result := [("last_error", .str (String.ofList (error.toList.take 512)))] }

/-- An entry that has settled keeps its first settlement. -/
def settle (o : Outbox) (forwardId : String) (how : Settlement) (result : Members) : Outbox :=
  o.update forwardId (·.state == .pending) fun row =>
    { row with
      state := .settled how
      result
      attempts := row.attempts + if how = .expired then 0 else 1 }

def expire (o : Outbox) (forwardId : String) : Outbox :=
  o.update forwardId (fun _ => true) fun row =>
    { row with
      state := .settled .expired
      result := [("detail", .str "peer did not answer before expiry")] }

/-- Pending entries whose deadline has passed. -/
def overdue (o : Outbox) (now : Float) : List String :=
  (o.items.filter fun (_, row) => row.state == .pending && decide (row.expiresAt ≤ now)).map
    Prod.fst

/-- Expire the first `count` overdue entries, each in its own transaction. -/
def expireFirst (o : Outbox) (now : Float) (count : Nat) : Outbox :=
  ((o.overdue now).take count).foldl expire o

/-- Expire every overdue entry; the lock is held from the selection on. -/
def expireDue (o : Outbox) (now : Float) : Outbox × List OutboxEntry :=
  let expired := (o.overdue now).foldl expire o
  (expired, (o.overdue now).filterMap expired.outboxEntry)

/-- Settled entries of `sender` that asked for a receipt and had none,
oldest first. -/
def pendingSenderNotifications (o : Outbox) (sender : String) : List OutboxEntry :=
  let rows := o.entries.filter fun (row, _) =>
    row.sender == sender && row.notifySender && row.senderNotifiedAt.isNone &&
      row.state != .pending
  sortedBy (fun a b => decide (a < b)) (·.createdAt) (rows.map Prod.snd)

def markSenderNotified (o : Outbox) (forwardId : String) (now : Float) : Outbox :=
  o.update forwardId (fun row => row.senderNotifiedAt.isNone && row.state != .pending) fun row =>
    { row with senderNotifiedAt := some now }

/-- Whether the settled forward still owes its sender a receipt. -/
def senderNotificationPending (o : Outbox) (forwardId : String) : Bool :=
  match o.get? forwardId with
  | none => false
  | some row => row.notifySender && row.senderNotifiedAt.isNone && row.state != .pending

end Outbox

/-! ## What a write keeps -/

/-- A settled row keeps its outcome, and a recorded notification stays. -/
structure OutboxRow.Later (row later : OutboxRow) : Prop where
  notifySender : later.notifySender = row.notifySender
  outcome : row.state ≠ .pending →
    later.state = row.state ∧ later.result = row.result ∧ later.attempts = row.attempts
  notified : row.senderNotifiedAt.isSome → later.senderNotifiedAt.isSome

namespace OutboxRow.Later

theorem refl (row : OutboxRow) : row.Later row :=
  ⟨rfl, fun _ => ⟨rfl, rfl, rfl⟩, id⟩

theorem trans {a b c : OutboxRow} (h : a.Later b) (h' : b.Later c) : a.Later c := by
  constructor
  · exact h'.notifySender.trans h.notifySender
  · intro hsettled
    obtain ⟨hstate, hresult, hattempts⟩ := h.outcome hsettled
    obtain ⟨hstate', hresult', hattempts'⟩ := h'.outcome (by rw [hstate]; exact hsettled)
    exact ⟨hstate'.trans hstate, hresult'.trans hresult, hattempts'.trans hattempts⟩
  · intro hnotified
    exact h'.notified (h.notified hnotified)

end OutboxRow.Later

/-- The same rows, each later. -/
def Outbox.Later (o later : Outbox) : Prop :=
  ∀ forwardId, match o.get? forwardId with
    | none => later.get? forwardId = none
    | some row => ∃ row', later.get? forwardId = some row' ∧ row.Later row'

namespace Outbox

theorem Later.row {o later : Outbox} (h : o.Later later) {id : String} {row : OutboxRow}
    (hrow : o.get? id = some row) : ∃ row', later.get? id = some row' ∧ row.Later row' := by
  have hid := h id
  rw [hrow] at hid
  exact hid

theorem Later.missing {o later : Outbox} (h : o.Later later) {id : String}
    (hrow : o.get? id = none) : later.get? id = none := by
  have hid := h id
  rw [hrow] at hid
  exact hid

theorem Later.refl (o : Outbox) : o.Later o := by
  intro id
  cases hrow : o.get? id with
  | none => rfl
  | some row => exact ⟨row, rfl, .refl row⟩

theorem Later.trans {a b c : Outbox} (h : a.Later b) (h' : b.Later c) : a.Later c := by
  intro id
  cases hrow : a.get? id with
  | none => exact h'.missing (h.missing hrow)
  | some row =>
    obtain ⟨row', hrow', hlater⟩ := h.row hrow
    obtain ⟨row'', hrow'', hlater'⟩ := h'.row hrow'
    exact ⟨row'', hrow'', hlater.trans hlater'⟩

/-- A row that was there is the later form of one that was. -/
theorem Later.of_some {o later : Outbox} (h : o.Later later) {id : String} {row' : OutboxRow}
    (hrow' : later.get? id = some row') : ∃ row, o.get? id = some row ∧ row.Later row' := by
  cases hrow : o.get? id with
  | none =>
    rw [h.missing hrow] at hrow'
    cases hrow'
  | some row =>
    obtain ⟨_, hlater, hle⟩ := h.row hrow
    rw [hrow'] at hlater
    cases hlater
    exact ⟨row, rfl, hle⟩

theorem get?_update_ne (o : Outbox) {id other : String} (p : OutboxRow → Bool)
    (f : OutboxRow → OutboxRow) (h : id ≠ other) : (o.update id p f).get? other = o.get? other := by
  unfold update
  split
  · rfl
  · split
    · exact Dict.get?_set_ne _ _ h
    · rfl

theorem get?_update_self {o : Outbox} {id : String} {row : OutboxRow} (p : OutboxRow → Bool)
    (f : OutboxRow → OutboxRow) (h : o.get? id = some row) :
    (o.update id p f).get? id = some (if p row then f row else row) := by
  unfold update
  rw [h]
  dsimp only
  split
  · rw [Dict.get?_set, if_pos rfl]
  · exact h

/-- An update whose condition protects the settled rows. -/
theorem update_later (o : Outbox) (id : String) {p : OutboxRow → Bool} {f : OutboxRow → OutboxRow}
    (h : ∀ row, o.get? id = some row → p row = true → row.Later (f row)) :
    o.Later (o.update id p f) := by
  intro other
  cases hrow : o.get? other with
  | none =>
    show (o.update id p f).get? other = none
    by_cases heq : id = other
    · subst heq
      unfold update
      rw [hrow]
      exact hrow
    · rw [get?_update_ne o p f heq, hrow]
  | some row =>
    by_cases heq : id = other
    · subst heq
      refine ⟨_, get?_update_self p f hrow, ?_⟩
      split
      · exact h row hrow ‹_›
      · exact .refl row
    · exact ⟨row, by rw [get?_update_ne o p f heq, hrow], .refl row⟩

theorem recordFailedAttempt_later (o : Outbox) (id : String) (next : Float) (error : String) :
    o.Later (o.recordFailedAttempt id next error) := by
  apply update_later
  intro row _ hpending
  constructor
  · rfl
  · intro hsettled
    exact absurd (beq_iff_eq.mp hpending) hsettled
  · intro hnotified
    exact hnotified

theorem settle_later (o : Outbox) (id : String) (how : Settlement) (result : Members) :
    o.Later (o.settle id how result) := by
  apply update_later
  intro row _ hpending
  constructor
  · rfl
  · intro hsettled
    exact absurd (beq_iff_eq.mp hpending) hsettled
  · intro hnotified
    exact hnotified

theorem markSenderNotified_later (o : Outbox) (id : String) (now : Float) :
    o.Later (o.markSenderNotified id now) := by
  apply update_later
  intro row _ _
  constructor
  · rfl
  · intro _
    exact ⟨rfl, rfl, rfl⟩
  · intro _
    rfl

/-- After the mark a settled row's notification is recorded. -/
theorem markSenderNotified_notified {o : Outbox} {id : String} {now : Float} {row : OutboxRow}
    (hrow : (o.markSenderNotified id now).get? id = some row) (hsettled : row.state ≠ .pending) :
    row.senderNotifiedAt.isSome := by
  cases hold : o.get? id with
  | none =>
    rw [(markSenderNotified_later o id now).missing hold] at hrow
    cases hrow
  | some old =>
    rw [markSenderNotified, get?_update_self _ _ hold] at hrow
    split at hrow
    · cases hrow
      rfl
    · rename_i hcond
      cases hrow
      cases hnotified : row.senderNotifiedAt with
      | none =>
        rw [hnotified, Bool.and_eq_true, bne_iff_ne] at hcond
        exact absurd ⟨rfl, hsettled⟩ hcond
      | some time => rfl

/-- The expiry update has no condition of its own: its row is still as it was selected. -/
theorem expire_fold_later {ids : List String} (hnodup : ids.Nodup) (o : Outbox)
    (hpending : ∀ id ∈ ids, ∀ row, o.get? id = some row → row.state = .pending) :
    o.Later (ids.foldl expire o) := by
  induction ids generalizing o with
  | nil => exact .refl o
  | cons id rest ih =>
    obtain ⟨hfresh, hrest⟩ := List.nodup_cons.mp hnodup
    have hfirst : o.Later (o.expire id) := by
      apply update_later
      intro row hrow _
      constructor
      · rfl
      · intro hsettled
        exact absurd (hpending id (List.mem_cons_self ..) row hrow) hsettled
      · intro hnotified
        exact hnotified
    refine hfirst.trans (ih hrest _ ?_)
    intro other hother row hrow
    have hne : id ≠ other := by
      rintro rfl
      exact hfresh hother
    rw [expire, get?_update_ne o _ _ hne] at hrow
    exact hpending other (List.mem_cons_of_mem _ hother) row hrow

theorem overdue_pending {o : Outbox} {now : Float} {id : String} (h : id ∈ o.overdue now)
    {row : OutboxRow} (hrow : o.get? id = some row) : row.state = .pending := by
  obtain ⟨⟨id', row'⟩, hmem, rfl⟩ := List.mem_map.mp h
  obtain ⟨hitem, hcond⟩ := List.mem_filter.mp hmem
  have hsame := (Dict.mem_items_iff o id' row').mp hitem
  rw [hrow] at hsame
  cases hsame
  simp only [Bool.and_eq_true, beq_iff_eq] at hcond
  exact hcond.1

theorem overdue_nodup (o : Outbox) (now : Float) : (o.overdue now).Nodup :=
  o.nodup.sublist (List.filter_sublist.map _)

theorem expireFirst_later (o : Outbox) (now : Float) (count : Nat) :
    o.Later (o.expireFirst now count) := by
  apply expire_fold_later ((overdue_nodup o now).sublist (List.take_sublist count _))
  intro id hid row hrow
  exact overdue_pending (List.mem_of_mem_take hid) hrow

theorem expireDue_later (o : Outbox) (now : Float) : o.Later (o.expireDue now).1 := by
  apply expire_fold_later (overdue_nodup o now)
  intro id hid row hrow
  exact overdue_pending hid hrow

theorem outboxEntry_some {o : Outbox} {id : String} {row : OutboxRow}
    (h : o.get? id = some row) : o.outboxEntry id = some (row.entry id) := by
  rw [outboxEntry, h]
  rfl

theorem mem_entries {o : Outbox} {row : OutboxRow} {entry : OutboxEntry}
    (h : (row, entry) ∈ o.entries) :
    o.get? entry.forwardId = some row ∧ entry = row.entry entry.forwardId := by
  obtain ⟨⟨id, row'⟩, hmem, heq⟩ := List.mem_map.mp h
  cases heq
  exact ⟨(Dict.mem_items_iff o _ _).mp hmem, rfl⟩

theorem mem_due {o : Outbox} {now : Float} {limit : Nat} {entry : OutboxEntry}
    (h : entry ∈ o.due now limit) : ∃ row, o.get? entry.forwardId = some row := by
  have hmem := List.mem_of_mem_take h
  rw [mem_sortedBy] at hmem
  obtain ⟨⟨row, entry'⟩, hrow, rfl⟩ := List.mem_map.mp hmem
  exact ⟨row, (mem_entries (List.mem_of_mem_filter hrow)).1⟩

/-- The sender is owed the outcome of a settled row. -/
theorem mem_pendingSenderNotifications {o : Outbox} {sender : String} {entry : OutboxEntry}
    (h : entry ∈ o.pendingSenderNotifications sender) :
    ∃ row, o.get? entry.forwardId = some row ∧ entry = row.entry entry.forwardId ∧
      row.state ≠ .pending := by
  rw [pendingSenderNotifications, mem_sortedBy] at h
  obtain ⟨⟨row, entry'⟩, hmem, rfl⟩ := List.mem_map.mp h
  obtain ⟨hrow, hcond⟩ := List.mem_filter.mp hmem
  obtain ⟨hget, hread⟩ := mem_entries hrow
  simp only [Bool.and_eq_true, bne_iff_ne] at hcond
  exact ⟨row, hget, hread, hcond.2⟩

theorem expire_fold_state {ids : List String} {o : Outbox} {id : String} {row : OutboxRow}
    (h : (ids.foldl expire o).get? id = some row) (hmem : id ∈ ids ∨
      ∀ row, o.get? id = some row → row.state = .settled .expired) :
    row.state = .settled .expired := by
  induction ids generalizing o with
  | nil =>
    rcases hmem with hmem | hstate
    · cases hmem
    · exact hstate row h
  | cons first rest ih =>
    apply ih h
    by_cases hrest : id ∈ rest
    · exact .inl hrest
    · right
      intro row' hrow'
      by_cases hfirst : first = id
      · subst hfirst
        cases hold : o.get? first with
        | none =>
          rw [expire, update, hold] at hrow'
          rw [hold] at hrow'
          cases hrow'
        | some old =>
          rw [expire, get?_update_self _ _ hold] at hrow'
          cases hrow'
          rfl
      · rw [expire, get?_update_ne _ _ _ hfirst] at hrow'
        rcases hmem with hmem | hstate
        · exact absurd (List.mem_of_ne_of_mem (Ne.symm hfirst) hmem) hrest
        · exact hstate row' hrow'

/-- The entries a sweep expired have settled. -/
theorem mem_expireDue {o : Outbox} {now : Float} {entry : OutboxEntry}
    (h : entry ∈ (o.expireDue now).2) :
    ∃ row, (o.expireDue now).1.get? entry.forwardId = some row ∧
      entry = row.entry entry.forwardId ∧ row.state ≠ .pending := by
  obtain ⟨id, hid, hentry⟩ := List.mem_filterMap.mp h
  obtain ⟨row, hrow, rfl⟩ := Option.map_eq_some_iff.mp hentry
  refine ⟨row, hrow, rfl, ?_⟩
  rw [expire_fold_state hrow (.inl hid)]
  intro hpending
  cases hpending

end Outbox

end SynapseChannel.Forward
