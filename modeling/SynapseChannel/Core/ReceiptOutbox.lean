import SynapseChannel.Core.ReceiptTable
import SynapseChannel.Lib.Outcome
import SynapseChannel.Lib.Slots
import SynapseChannel.Lib.Trace

/-!
# Core — ReceiptOutbox

The drains of the receipt outbox. A drain lists its sender's undelivered
frames, then sends them one at a time and records each attempt when its send
has ended; other drains may run while a send is awaited.
-/

namespace SynapseChannel.Receipts

open Py

inductive DrainStatus where
  | running
  | finished
  /-- The call was cancelled, or its process ended. -/
  | cut
  | raised
  deriving DecidableEq

/-- A call of `deliver_pending_receipt_notifications`. -/
structure Drain where
  sender : String
  /-- The notifications it has attempted, oldest first. -/
  attempted : List String := []
  /-- The listed notifications it has not attempted yet. -/
  rest : List PendingDeliveryNotification
  status : DrainStatus

namespace Drain

def restIds (d : Drain) : List String := d.rest.map (·.notificationId)

/-- What the call listed. -/
def listed (d : Drain) : List String := d.attempted ++ d.restIds

def list (sender : String) (pending : List PendingDeliveryNotification) : Drain :=
  { sender, rest := pending, status := if pending.isEmpty then .finished else .running }

def attempt (d : Drain) (id : String) (rest : List PendingDeliveryNotification) : Drain :=
  { d with
    attempted := d.attempted ++ [id]
    rest
    status := if rest.isEmpty then .finished else .running }

def raise (d : Drain) : Drain := { d with status := .raised }

def cut (d : Drain) : Drain := if d.status = .running then { d with status := .cut } else d

/-- The notification whose send is awaited. -/
def sending (d : Drain) : Option (PendingDeliveryNotification × List PendingDeliveryNotification) :=
  match d.status, d.rest with
  | .running, n :: rest => some (n, rest)
  | _, _ => none

theorem sending_some {d : Drain} {n : PendingDeliveryNotification}
    {rest : List PendingDeliveryNotification} (h : d.sending = some (n, rest)) :
    d.status = .running ∧ d.rest = n :: rest := by
  unfold sending at h
  split at h
  · rename_i hstatus hrest
    cases h
    exact ⟨hstatus, hrest⟩
  · cases h

theorem listed_attempt {d : Drain} {n : PendingDeliveryNotification}
    {rest : List PendingDeliveryNotification} (h : d.rest = n :: rest) :
    (d.attempt n.notificationId rest).listed = d.listed := by
  show (d.attempted ++ [n.notificationId]) ++ rest.map (·.notificationId) = _
  rw [List.append_assoc, listed, restIds, h]
  rfl

theorem listed_cut (d : Drain) : d.cut.listed = d.listed := by
  unfold cut
  split <;> rfl

end Drain

structure ReceiptHub where
  table : ReceiptTable := {}
  /-- The calls so far; a call's number is its place. -/
  drains : List Drain := []
  /-- The recorded attempts, oldest first, with whether the frame was sent. -/
  attempts : List (String × Bool) := []

inductive DrainStep where
  | request (chat requested : Members)
  | transition (transition : DeliveryReceiptTransition)
      (companion : Option DeliveryReceiptTransition)
  | drain (sender : String)
  /-- A send has ended. A send on a socket that raises is one that failed. -/
  | sent (drain : Nat) (delivered : Bool) (clock : Float)
  | cut (drain : Nat)
  | restart

namespace ReceiptHub

/-- A commit, or the table as it was where the commit raises. -/
def commits {α : Type} (h : ReceiptHub) (result : Except Failure (ReceiptTable × α)) : ReceiptHub :=
  match result with
  | .ok (table, _) => { h with table }
  | .error _ => h

def drain (h : ReceiptHub) (sender : String) : ReceiptHub :=
  match h.table.pendingDeliveryNotifications (some sender) with
  | .ok pending => { h with drains := h.drains ++ [Drain.list sender pending] }
  | .error _ => h

/-- The attempt of call `number` is recorded. -/
def recorded (h : ReceiptHub) (number : Nat) (d : Drain) (n : PendingDeliveryNotification)
    (rest : List PendingDeliveryNotification) (delivered : Bool) (clock : Float) : ReceiptHub :=
  match h.table.markDeliveryNotificationAttempt n.notificationId delivered clock with
  | .ok table =>
    { table
      drains := h.drains.set number (d.attempt n.notificationId rest)
      attempts := h.attempts ++ [(n.notificationId, delivered)] }
  | .error _ => { h with drains := h.drains.set number d.raise }

def sent (h : ReceiptHub) (number : Nat) (delivered : Bool) (clock : Float) : ReceiptHub :=
  match h.drains[number]? with
  | none => h
  | some d =>
    match d.sending with
    | none => h
    | some (n, rest) => h.recorded number d n rest delivered clock

def cut (h : ReceiptHub) (number : Nat) : ReceiptHub :=
  match h.drains[number]? with
  | none => h
  | some d => { h with drains := h.drains.set number d.cut }

def restart (h : ReceiptHub) : ReceiptHub := { h with drains := h.drains.map Drain.cut }

def step [Builtins] (h : ReceiptHub) : DrainStep → ReceiptHub
  | .request chat requested => h.commits (h.table.commitDeliveryReceiptRequest chat requested)
  | .transition transition companion =>
    h.commits (h.table.commitDeliveryReceiptTransition transition companion)
  | .drain sender => h.drain sender
  | .sent number delivered clock => h.sent number delivered clock
  | .cut number => h.cut number
  | .restart => h.restart

/-- The notifications recorded as delivered, oldest first. -/
def deliveries (h : ReceiptHub) : List String :=
  (h.attempts.filter Prod.snd).map Prod.fst

end ReceiptHub

/-! ## What a step does to the outbox -/

/-- Only new, unsent rows were added, at the end. -/
structure Extends (o later : Dict String OutboxRow) : Prop where
  keys : o.keys.Sublist later.keys
  kept : ∀ id row, o.get? id = some row → later.get? id = some row
  added : ∀ id row, later.get? id = some row →
    o.get? id = some row ∨
      (o.get? id = none ∧ id ≠ "" ∧ row.attempts = 0 ∧ row.deliveredAt = none)

namespace Extends

variable {o p q : Dict String OutboxRow}

theorem refl (o : Dict String OutboxRow) : Extends o o := by
  constructor
  · exact List.Sublist.refl _
  · intro id row h
    exact h
  · intro id row h
    exact .inl h

theorem trans (h : Extends o p) (h' : Extends p q) : Extends o q := by
  constructor
  · exact h.keys.trans h'.keys
  · intro id row hrow
    exact h'.kept id row (h.kept id row hrow)
  · intro id row hrow
    rcases h'.added id row hrow with hold | ⟨hnone, hnew⟩
    · exact h.added id row hold
    · right
      constructor
      · cases hget : o.get? id with
        | none => rfl
        | some old =>
          rw [h.kept id old hget] at hnone
          cases hnone
      · exact hnew

theorem set {id : String} {row : OutboxRow} (hnone : o.get? id = none) (hid : id ≠ "")
    (hattempts : row.attempts = 0) (hunsent : row.deliveredAt = none) :
    Extends o (o.set id row) := by
  constructor
  · rw [Dict.keys_set_of_none hnone]
    exact List.sublist_append_left _ _
  · intro other old hold
    have hne : id ≠ other := by
      intro hsame
      rw [hsame, hold] at hnone
      cases hnone
    rw [Dict.get?_set_ne _ _ hne]
    exact hold
  · intro other new hnew
    by_cases hsame : id = other
    · subst hsame
      rw [Dict.get?_set_self] at hnew
      cases hnew
      exact .inr ⟨hnone, hid, hattempts, hunsent⟩
    · rw [Dict.get?_set_ne _ _ hsame] at hnew
      exact .inl hnew

end Extends

theorem prepareTransition_id {t : DeliveryReceiptTransition} {p : Prepared}
    (h : prepareTransition t = .ok p) : p.notificationId ≠ "" := by
  unfold prepareTransition at h
  split at h
  · split at h
    · cases h
    · split at h
      · cases h
      · cases h
        exact notificationId_ne_empty _ _
  · cases h

namespace ReceiptTable

variable [Builtins] {t later : ReceiptTable}

theorem extends_request {chat requested : Members} {seq : Int}
    (h : t.commitDeliveryReceiptRequest chat requested = .ok (later, seq)) :
    Extends t.outbox later.outbox := by
  unfold commitDeliveryReceiptRequest at h
  dsimp only at h
  split at h
  · cases h
  · split at h
    · split at h
      · cases h
      · cases h
        exact Extends.refl _
    · cases h

theorem extends_insert {p : Prepared} (hid : p.notificationId ≠ "")
    (h : t.insertTransition p = .ok later) : Extends t.outbox later.outbox := by
  unfold insertTransition at h
  split at h
  · cases h
  · split at h
    · cases h
    · split at h
      · cases h
      · split at h
        · cases h
        · split at h
          · cases h
          · rename_i hcontains
            cases h
            have hnone : t.outbox.get? p.notificationId = none := by
              simpa [Dict.contains] using hcontains
            exact Extends.set hnone hid rfl rfl

theorem extends_transition {transition : DeliveryReceiptTransition}
    {companion : Option DeliveryReceiptTransition} {id : String}
    (h : t.commitDeliveryReceiptTransition transition companion = .ok (later, id)) :
    Extends t.outbox later.outbox := by
  unfold commitDeliveryReceiptTransition at h
  obtain ⟨p, hp, h⟩ := Outcome.bind_ok h
  cases companion with
  | none =>
    obtain ⟨mid, hmid, h⟩ := Outcome.bind_ok h
    cases h
    exact extends_insert (prepareTransition_id hp) hmid
  | some other =>
    obtain ⟨q, hq, h⟩ := Outcome.bind_ok h
    obtain ⟨mid, hmid, h⟩ := Outcome.bind_ok h
    obtain ⟨last, hlast, h⟩ := Outcome.bind_ok h
    cases h
    exact (extends_insert (prepareTransition_id hp) hmid).trans
      (extends_insert (prepareTransition_id hq) hlast)

omit [Builtins] in
/-- An attempt on an unsettled row is recorded on that row alone. -/
theorem mark_unsettled {id : String} {row : OutboxRow} (hid : id ≠ "")
    (hrow : t.outbox.get? id = some row) (hunsent : row.deliveredAt = none) (delivered : Bool)
    (clock : Float) :
    t.markDeliveryNotificationAttempt id delivered clock =
      .ok { t with
        outbox := t.outbox.set id
          { row with
            attempts := row.attempts + 1
            deliveredAt := if delivered then some clock else none } } := by
  unfold markDeliveryNotificationAttempt
  rw [if_neg hid, hrow]
  simp [hunsent]

omit [Builtins] in
/-- What is listed is undelivered, in insertion order. -/
theorem mem_pending {sender : String} {pending : List PendingDeliveryNotification}
    (h : t.pendingDeliveryNotifications (some sender) = .ok pending) :
    (pending.map (·.notificationId)).Sublist t.outbox.keys ∧
      ∀ n ∈ pending, ∃ row, t.outbox.get? n.notificationId = some row ∧ row.deliveredAt = none := by
  unfold pendingDeliveryNotifications at h
  rw [if_neg (by decide)] at h
  cases h
  constructor
  · rw [List.map_map]
    show (List.map Prod.fst _).Sublist (t.outbox.items.map Prod.fst)
    exact ((List.take_sublist _ _).trans List.filter_sublist).map Prod.fst
  · intro n hn
    obtain ⟨⟨id, row⟩, hmem, rfl⟩ := List.mem_map.mp hn
    have hkept := List.mem_of_mem_take hmem
    rw [List.mem_filter] at hkept
    obtain ⟨hitem, hdue⟩ := hkept
    have hunsent : row.deliveredAt.isNone = true := (Bool.and_eq_true_iff.mp hdue).1
    exact ⟨row, (Dict.mem_items_iff _ _ _).mp hitem, Option.isNone_iff_eq_none.mp hunsent⟩

end ReceiptTable

/-! ## What every run keeps -/

/-- No call raised, each attempted what it listed in insertion order, and a
row is delivered once, by the attempt that recorded it. -/
structure Tolerant (h : ReceiptHub) : Prop where
  quiet : ∀ d ∈ h.drains, d.status ≠ .raised
  inOrder : ∀ d ∈ h.drains, d.listed.Sublist h.table.outbox.keys
  complete : ∀ d ∈ h.drains, d.status = .finished → d.attempted = d.listed
  once : h.deliveries.Nodup
  delivered : ∀ id, id ∈ h.deliveries ↔
    ∃ row, h.table.outbox.get? id = some row ∧ row.deliveredAt.isSome
  counted : ∀ id row, h.table.outbox.get? id = some row →
    row.attempts = (h.attempts.map Prod.fst).count id

/-- A send succeeds while no other call has still to attempt its frame. -/
def Unshared (h : ReceiptHub) : DrainStep → Prop
  | .sent number true _ => ∀ d ∈ h.drains[number]?, ∀ n ∈ d.sending,
      ∀ other ∈ h.drains.eraseIdx number, other.status = .running →
        n.1.notificationId ∉ other.restIds
  | _ => True

instance (h : ReceiptHub) (s : DrainStep) : Decidable (Unshared h s) := by
  unfold Unshared
  split <;> infer_instance

structure Sound (h : ReceiptHub) : Prop extends Tolerant h where
  named : ∀ id row, h.table.outbox.get? id = some row → id ≠ ""
  known : ∀ a ∈ h.attempts, ∃ row, h.table.outbox.get? a.1 = some row
  waiting : ∀ d ∈ h.drains, d.status = .running → ∀ n ∈ d.rest,
    ∃ row, h.table.outbox.get? n.notificationId = some row ∧ row.deliveredAt = none

namespace Sound

theorem init : Sound {} := by
  constructor
  · constructor
    · intro d hd
      cases hd
    · intro d hd
      cases hd
    · intro d hd
      cases hd
    · exact List.nodup_nil
    · intro id
      constructor
      · intro hid
        cases hid
      · rintro ⟨row, hrow, -⟩
        cases hrow
    · intro id row hrow
      cases hrow
  · intro id row hrow
    cases hrow
  · intro a ha
    cases ha
  · intro d hd
    cases hd

variable {h : ReceiptHub}

theorem extend (hs : Sound h) {table : ReceiptTable} (he : Extends h.table.outbox table.outbox) :
    Sound { h with table } := by
  constructor
  · constructor
    · exact hs.quiet
    · intro d hd
      exact (hs.inOrder d hd).trans he.keys
    · exact hs.complete
    · exact hs.once
    · intro id
      constructor
      · intro hid
        obtain ⟨row, hrow, hsent⟩ := (hs.delivered id).mp hid
        exact ⟨row, he.kept id row hrow, hsent⟩
      · rintro ⟨row, hrow, hsent⟩
        rcases he.added id row hrow with hold | ⟨-, -, -, hunsent⟩
        · exact (hs.delivered id).mpr ⟨row, hold, hsent⟩
        · rw [hunsent] at hsent
          cases hsent
    · intro id row hrow
      rcases he.added id row hrow with hold | ⟨hnone, -, hzero, -⟩
      · exact hs.counted id row hold
      · rw [hzero]
        symm
        rw [List.count_eq_zero]
        intro hmem
        obtain ⟨a, ha, rfl⟩ := List.mem_map.mp hmem
        obtain ⟨old, hold⟩ := hs.known a ha
        rw [hold] at hnone
        cases hnone
  · intro id row hrow
    rcases he.added id row hrow with hold | ⟨-, hid, -⟩
    · exact hs.named id row hold
    · exact hid
  · intro a ha
    obtain ⟨row, hrow⟩ := hs.known a ha
    exact ⟨row, he.kept a.1 row hrow⟩
  · intro d hd hrunning n hn
    obtain ⟨row, hrow, hunsent⟩ := hs.waiting d hd hrunning n hn
    exact ⟨row, he.kept _ row hrow, hunsent⟩

/-- A change of the calls alone. -/
theorem redrain (hs : Sound h) {drains : List Drain}
    (hquiet : ∀ d ∈ drains, d.status ≠ .raised)
    (hinOrder : ∀ d ∈ drains, d.listed.Sublist h.table.outbox.keys)
    (hcomplete : ∀ d ∈ drains, d.status = .finished → d.attempted = d.listed)
    (hwaiting : ∀ d ∈ drains, d.status = .running → ∀ n ∈ d.rest,
      ∃ row, h.table.outbox.get? n.notificationId = some row ∧ row.deliveredAt = none) :
    Sound { h with drains } := by
  constructor
  · constructor
    · exact hquiet
    · exact hinOrder
    · exact hcomplete
    · exact hs.once
    · exact hs.delivered
    · exact hs.counted
  · exact hs.named
  · exact hs.known
  · exact hwaiting

theorem drain (hs : Sound h) (sender : String) : Sound (h.drain sender) := by
  unfold ReceiptHub.drain
  cases hlist : h.table.pendingDeliveryNotifications (some sender) with
  | error e => exact hs
  | ok pending =>
    obtain ⟨hsub, hunsent⟩ := ReceiptTable.mem_pending hlist
    have hnew : ∀ d ∈ h.drains ++ [Drain.list sender pending],
        d ∈ h.drains ∨ d = Drain.list sender pending := by
      intro d hd
      rcases List.mem_append.mp hd with hd | hd
      · exact .inl hd
      · exact .inr (List.mem_singleton.mp hd)
    apply hs.redrain
    · intro d hd
      rcases hnew d hd with hd | rfl
      · exact hs.quiet d hd
      · unfold Drain.list
        cases pending <;> simp
    · intro d hd
      rcases hnew d hd with hd | rfl
      · exact hs.inOrder d hd
      · exact hsub
    · intro d hd hfinished
      rcases hnew d hd with hd | rfl
      · exact hs.complete d hd hfinished
      · unfold Drain.list at hfinished
        cases pending with
        | nil => rfl
        | cons n rest => simp at hfinished
    · intro d hd hrunning
      rcases hnew d hd with hd | rfl
      · exact hs.waiting d hd hrunning
      · exact hunsent

theorem cutAll (hs : Sound h) {drains : List Drain}
    (hcut : ∀ d ∈ drains, ∃ old ∈ h.drains, d = old ∨ d = old.cut) : Sound { h with drains } := by
  have hstatus : ∀ d : Drain, d.cut.status = d.status ∨ d.cut.status = .cut := by
    intro d
    unfold Drain.cut
    split
    · exact .inr rfl
    · exact .inl rfl
  have hrunning : ∀ d : Drain, d.cut.status ≠ .running := by
    intro d
    unfold Drain.cut
    split
    · intro h
      cases h
    · assumption
  apply hs.redrain
  · intro d hd
    obtain ⟨old, hold, rfl | rfl⟩ := hcut d hd
    · exact hs.quiet d hold
    · rcases hstatus old with hsame | hsame
      · rw [hsame]
        exact hs.quiet old hold
      · rw [hsame]
        decide
  · intro d hd
    obtain ⟨old, hold, rfl | rfl⟩ := hcut d hd
    · exact hs.inOrder d hold
    · rw [Drain.listed_cut]
      exact hs.inOrder old hold
  · intro d hd hfinished
    obtain ⟨old, hold, rfl | rfl⟩ := hcut d hd
    · exact hs.complete d hold hfinished
    · rcases hstatus old with hsame | hsame
      · rw [Drain.listed_cut, ← hs.complete old hold (hsame ▸ hfinished)]
        unfold Drain.cut
        split <;> rfl
      · rw [hsame] at hfinished
        cases hfinished
  · intro d hd hrun
    obtain ⟨old, hold, rfl | rfl⟩ := hcut d hd
    · exact hs.waiting d hold hrun
    · exact absurd hrun (hrunning old)

theorem cut (hs : Sound h) (number : Nat) : Sound (h.cut number) := by
  unfold ReceiptHub.cut
  cases hget : h.drains[number]? with
  | none => exact hs
  | some d =>
    apply hs.cutAll
    intro x hx
    rcases Slots.mem_set_cases hx with rfl | hx
    · exact ⟨d, List.mem_of_getElem? hget, .inr rfl⟩
    · exact ⟨x, List.mem_of_mem_eraseIdx hx, .inl rfl⟩

theorem restart (hs : Sound h) : Sound h.restart := by
  apply hs.cutAll
  intro d hd
  obtain ⟨old, hold, rfl⟩ := List.mem_map.mp hd
  exact ⟨old, hold, .inr rfl⟩

/-- The awaited notification is unsettled, and it is in no other place of
the call's list. -/
theorem sending (hs : Sound h) {d : Drain} (hd : d ∈ h.drains) {n : PendingDeliveryNotification}
    {rest : List PendingDeliveryNotification} (hsending : d.sending = some (n, rest)) :
    (∃ row, h.table.outbox.get? n.notificationId = some row ∧ row.deliveredAt = none) ∧
      n.notificationId ∉ rest.map (·.notificationId) := by
  obtain ⟨hrunning, hrest⟩ := Drain.sending_some hsending
  constructor
  · exact hs.waiting d hd hrunning n (hrest ▸ List.mem_cons_self)
  · have hnodup : d.listed.Nodup := (hs.inOrder d hd).nodup h.table.outbox.nodup
    rw [Drain.listed, Drain.restIds, hrest] at hnodup
    have htail := (List.nodup_append.mp hnodup).2.1
    exact (List.nodup_cons.mp htail).1

/-! ### A recorded attempt -/

theorem deliveries_append (attempts : List (String × Bool)) (id : String) (delivered : Bool) :
    ((attempts ++ [(id, delivered)]).filter Prod.snd).map Prod.fst =
      (attempts.filter Prod.snd).map Prod.fst ++ if delivered then [id] else [] := by
  rw [List.filter_append, List.map_append]
  cases delivered <;> rfl

variable {id : String} {row : OutboxRow}

theorem not_delivered (hs : Sound h) (hrow : h.table.outbox.get? id = some row)
    (hunsent : row.deliveredAt = none) : id ∉ h.deliveries := by
  intro hmem
  obtain ⟨settled, hsettled, hsent⟩ := (hs.delivered id).mp hmem
  rw [hrow] at hsettled
  cases hsettled
  rw [hunsent] at hsent
  cases hsent

theorem once_recorded (hs : Sound h) (hrow : h.table.outbox.get? id = some row)
    (hunsent : row.deliveredAt = none) (delivered : Bool) :
    (((h.attempts ++ [(id, delivered)]).filter Prod.snd).map Prod.fst).Nodup := by
  rw [deliveries_append]
  apply List.Nodup.append hs.once
  · cases delivered
    · exact List.nodup_nil
    · exact List.nodup_singleton id
  · intro other hother hnew
    cases delivered with
    | false => cases hnew
    | true =>
      rw [List.mem_singleton.mp hnew] at hother
      exact hs.not_delivered hrow hunsent hother

theorem delivered_recorded (hs : Sound h) (hrow : h.table.outbox.get? id = some row)
    (hunsent : row.deliveredAt = none) (delivered : Bool) (clock : Float) (attempts : Nat)
    (other : String) :
    other ∈ ((h.attempts ++ [(id, delivered)]).filter Prod.snd).map Prod.fst ↔
      ∃ new, (h.table.outbox.set id
          { row with
            attempts
            deliveredAt := if delivered then some clock else none }).get? other = some new ∧
        new.deliveredAt.isSome := by
  rw [deliveries_append, List.mem_append]
  show other ∈ h.deliveries ∨ _ ↔ _
  rw [hs.delivered other]
  by_cases hsame : id = other
  · subst hsame
    rw [Dict.get?_set_self]
    cases delivered <;> simp [hrow, hunsent]
  · rw [Dict.get?_set_ne _ _ hsame]
    constructor
    · rintro (hold | hnew)
      · exact hold
      · cases delivered with
        | false => cases hnew
        | true => exact absurd (List.mem_singleton.mp hnew).symm hsame
    · exact .inl

theorem counted_recorded (hs : Sound h) (hrow : h.table.outbox.get? id = some row)
    (delivered : Bool) (settledAt : Option Float) (other : String) (new : OutboxRow)
    (hnew : (h.table.outbox.set id
      { row with attempts := row.attempts + 1, deliveredAt := settledAt }).get? other = some new) :
    new.attempts = ((h.attempts ++ [(id, delivered)]).map Prod.fst).count other := by
  rw [List.map_append, List.count_append]
  by_cases hsame : id = other
  · subst hsame
    rw [Dict.get?_set_self] at hnew
    cases hnew
    rw [← hs.counted _ row hrow]
    simp
  · rw [Dict.get?_set_ne _ _ hsame] at hnew
    rw [hs.counted other new hnew]
    simp [hsame]

/-- A call in progress waits for unsettled rows after another frame is sent,
or after a failed attempt at one of its own. -/
theorem waiting_recorded {rest : List PendingDeliveryNotification}
    (hwaiting : ∀ n ∈ rest,
      ∃ row, h.table.outbox.get? n.notificationId = some row ∧ row.deliveredAt = none)
    {new : OutboxRow}
    (hnew : new.deliveredAt = none ∨ id ∉ rest.map (·.notificationId)) :
    ∀ n ∈ rest, ∃ row, (h.table.outbox.set id new).get? n.notificationId = some row ∧
      row.deliveredAt = none := by
  intro n hn
  by_cases hsame : id = n.notificationId
  · rcases hnew with hunsent | habsent
    · rw [← hsame]
      exact ⟨new, Dict.get?_set_self _ _ _, hunsent⟩
    · exact absurd (List.mem_map.mpr ⟨n, hn, hsame.symm⟩) habsent
  · rw [Dict.get?_set_ne _ _ hsame]
    exact hwaiting n hn

theorem sent (hs : Sound h) {number : Nat} {delivered : Bool} {clock : Float}
    (hunshared : Unshared h (.sent number delivered clock)) :
    Sound (h.sent number delivered clock) := by
  unfold ReceiptHub.sent
  cases hget : h.drains[number]? with
  | none => exact hs
  | some d =>
    have hd : d ∈ h.drains := List.mem_of_getElem? hget
    dsimp only
    cases hsending : d.sending with
    | none => exact hs
    | some pair =>
      obtain ⟨n, rest⟩ := pair
      obtain ⟨⟨row, hrow, hunsent⟩, hlater⟩ := hs.sending hd hsending
      obtain ⟨hrunning, hrest⟩ := Drain.sending_some hsending
      dsimp only
      unfold ReceiptHub.recorded
      rw [ReceiptTable.mark_unsettled (hs.named _ row hrow) hrow hunsent]
      dsimp only
      have hdrains : ∀ x ∈ h.drains.set number (d.attempt n.notificationId rest),
          x = d.attempt n.notificationId rest ∨ x ∈ h.drains.eraseIdx number :=
        fun x hx => Slots.mem_set_cases hx
      have hold : ∀ x ∈ h.drains.eraseIdx number, x ∈ h.drains :=
        fun x hx => List.mem_of_mem_eraseIdx hx
      constructor
      · constructor
        · intro x hx
          rcases hdrains x hx with rfl | hx
          · show (if rest.isEmpty then DrainStatus.finished else .running) ≠ .raised
            split <;> decide
          · exact hs.quiet x (hold x hx)
        · intro x hx
          rw [Dict.keys_set_of_some hrow]
          rcases hdrains x hx with rfl | hx
          · rw [Drain.listed_attempt hrest]
            exact hs.inOrder d hd
          · exact hs.inOrder x (hold x hx)
        · intro x hx hfinished
          rcases hdrains x hx with rfl | hx
          · have hempty : rest = [] := by
              cases rest with
              | nil => rfl
              | cons => cases hfinished
            rw [hempty]
            exact (List.append_nil _).symm
          · exact hs.complete x (hold x hx) hfinished
        · exact hs.once_recorded hrow hunsent delivered
        · exact hs.delivered_recorded hrow hunsent delivered clock _
        · exact hs.counted_recorded hrow delivered _
      · intro other new hnew
        by_cases hsame : n.notificationId = other
        · exact hsame ▸ hs.named _ row hrow
        · rw [Dict.get?_set_ne _ _ hsame] at hnew
          exact hs.named other new hnew
      · intro a ha
        show ∃ new, (h.table.outbox.set n.notificationId _).get? a.1 = some new
        by_cases hsame : n.notificationId = a.1
        · rw [← hsame]
          exact ⟨_, Dict.get?_set_self _ _ _⟩
        · rw [Dict.get?_set_ne _ _ hsame]
          rcases List.mem_append.mp ha with ha | ha
          · exact hs.known a ha
          · exact absurd (List.mem_singleton.mp ha ▸ rfl) hsame
      · intro x hx hrun
        rcases hdrains x hx with rfl | hother
        · apply waiting_recorded
          · intro m hm
            exact hs.waiting d hd hrunning m (hrest ▸ List.mem_cons_of_mem _ hm)
          · exact .inr hlater
        · apply waiting_recorded (hs.waiting x (hold x hother) hrun)
          -- a frame that was sent is in no other call's list
          cases delivered with
          | false => exact .inl rfl
          | true => exact .inr (hunshared d hget (n, rest) hsending x hother hrun)

variable [Builtins]

theorem step (hs : Sound h) {s : DrainStep} (hunshared : Unshared h s) : Sound (h.step s) := by
  cases s with
  | request chat requested =>
    show Sound (h.commits _)
    unfold ReceiptHub.commits
    split
    · rename_i hcommit
      exact hs.extend (ReceiptTable.extends_request hcommit)
    · exact hs
  | transition transition companion =>
    show Sound (h.commits _)
    unfold ReceiptHub.commits
    split
    · rename_i hcommit
      exact hs.extend (ReceiptTable.extends_transition hcommit)
    · exact hs
  | drain sender => exact hs.drain sender
  | sent number delivered clock => exact hs.sent hunshared
  | cut number => exact hs.cut number
  | restart => exact hs.restart

end Sound

section
variable [Builtins]

/-- Drains of which none holds a frame that another has delivered. -/
theorem receipts_delivered_once (steps : List DrainStep)
    (hunshared : Trace.Every ReceiptHub.step Unshared {} steps) :
    Tolerant (Trace.run ReceiptHub.step {} steps) := by
  obtain ⟨hsound, -⟩ := Trace.every_invariant ReceiptHub.step (I := Sound) (Q := fun _ _ => True)
    (fun _ _ hs hunshared => hs.step hunshared) (fun _ _ _ _ => trivial) Sound.init hunshared
  exact hsound.toTolerant

end

/-! ## Two drains of one frame -/

def heldChat : Members := [("sender", .str "ALICE"), ("target", .str "BOB")]

def heldRequest : Members :=
  [("sender", .str "ALICE"), ("target", .str "BOB"), ("message_id", .int 1)]

def heldVerdict : DeliveryReceiptTransition where
  kind := .immediate
  payload :=
    [("sender", .str "ALICE"), ("target", .str "BOB"), ("message_id", .int 1),
      ("message_seq", .int 1), ("delivered", .bool false)]
  notification := [("target", .str "ALICE")]
  state := .pending

/-- A first chat's receipt is still being sent when an acknowledgement of
another chat starts a second drain. -/
def twoDrains : List DrainStep :=
  [.request heldChat heldRequest, .transition heldVerdict none, .drain "ALICE", .drain "ALICE",
    .sent 0 true 1, .sent 1 true 2]

/-- One drain at a time, with a failed send between two that succeed. -/
def oneDrain : List DrainStep :=
  [.request heldChat heldRequest, .transition heldVerdict none, .drain "ALICE", .sent 0 false 1,
    .drain "ALICE", .sent 1 true 2, .drain "ALICE"]

theorem receipts_delivered_once_one_drain :
    letI := Builtins.ascii
    Tolerant (Trace.run ReceiptHub.step {} oneDrain) := by
  let _ : Builtins := Builtins.ascii
  exact receipts_delivered_once oneDrain (by decide +kernel)

theorem second_drain_raises :
    letI := Builtins.ascii
    ¬ ∀ steps, Tolerant (Trace.run ReceiptHub.step {} steps) := by
  let _ : Builtins := Builtins.ascii
  intro htolerant
  have hraised : ((Trace.run ReceiptHub.step {} twoDrains).drains.map (·.status)) =
      [.finished, .raised] := by
    decide +kernel
  have hmem : DrainStatus.raised ∈
      (Trace.run ReceiptHub.step {} twoDrains).drains.map (·.status) := by
    rw [hraised]
    decide
  obtain ⟨d, hd, hstatus⟩ := List.mem_map.mp hmem
  exact (htolerant twoDrains).quiet d hd hstatus

end SynapseChannel.Receipts
