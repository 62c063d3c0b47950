import SynapseChannel.Core.ForwardOrigin

/-!
# Core — OutboxSettlement

An outbox entry settles once, over every run; its sender is told what it
settled as, and is told again only when the first telling failed or was cut
off.
-/

namespace SynapseChannel.Forward

open Py

/-! ## What a handler holds -/

/-- Entries a handler will attempt, or is attempting. -/
def Handler.inHand (t : Handler) : List OutboxEntry :=
  match t.phase with
  | .relaying entry => [entry]
  | .exchanging entry .chat => [entry]
  | .exchanging entry (.sweep own rest _) => entry :: own :: rest
  | _ => []

/-- Settled entries whose senders a handler will notify. -/
def Handler.waiting (t : Handler) : List OutboxEntry :=
  match t.phase with
  | .exchanging _ (.sweep _ _ settled) => settled
  | .sending _ rest => rest
  | _ => []

/-- The chat whose first receipt a handler has not sent yet. -/
def Handler.unreported (t : Handler) : Option String :=
  match t.phase with
  | .relaying entry => some entry.forwardId
  | .exchanging entry .chat => some entry.forwardId
  | _ => none

theorem Handler.inHand_of_unreported {t : Handler} {id : String} (h : t.unreported = some id) :
    ∃ entry ∈ t.inHand, entry.forwardId = id := by
  obtain ⟨number, phase⟩ := t
  cases phase with
  | relaying entry =>
    cases h
    exact ⟨entry, List.mem_singleton_self _, rfl⟩
  | exchanging entry caller =>
    cases caller with
    | chat =>
      cases h
      exact ⟨entry, List.mem_singleton_self _, rfl⟩
    | sweep own rest settled => cases h
  | reporting => cases h
  | sending entry rest => cases h

/-- The receipt did not end in a recorded notification. -/
def ReceiptStatus.Undone (status : ReceiptStatus) : Prop := status = .failed ∨ status = .cut

namespace Origin

/-- The entry is what its row says. -/
def Reads (h : Origin) (entry : OutboxEntry) : Prop :=
  ∃ row, h.outbox.get? entry.forwardId = some row ∧ entry = row.entry entry.forwardId

def Has (h : Origin) (entry : OutboxEntry) : Prop :=
  ∃ row, h.outbox.get? entry.forwardId = some row

/-- The entry is settled, and its row says so as long as there is an outbox. -/
structure SettledIn (durable : Bool) (drawn : List String) (outbox : Outbox)
    (entry : OutboxEntry) : Prop where
  state : entry.state ≠ .pending
  drawn : entry.forwardId ∈ drawn
  row : match outbox.get? entry.forwardId with
    | none => durable = false
    | some row => row.state = entry.state ∧ row.result = entry.result ∧
        row.attempts = entry.attempts ∧ row.notifySender = entry.notifySender

def Settled (h : Origin) (entry : OutboxEntry) : Prop :=
  SettledIn h.durable h.drawn h.outbox entry

theorem Settled.of_row {h : Origin} {entry : OutboxEntry} (hs : h.Settled entry) {row : OutboxRow}
    (hrow : h.outbox.get? entry.forwardId = some row) :
    row.state = entry.state ∧ row.result = entry.result ∧ row.attempts = entry.attempts ∧
      row.notifySender = entry.notifySender := by
  have hsame := hs.row
  rw [hrow] at hsame
  exact hsame

/-- What holds in every state of a run. The entries in `past` were settled
when `old` were the first receipts sent. -/
structure Sound (past : OutboxEntry → Prop) (old : List OutboxEntry) (h : Origin) : Prop where
  drawn : ∀ id row, h.outbox.get? id = some row → id ∈ h.drawn
  kept : ∀ entry, past entry → h.Settled entry
  inHand : ∀ t ∈ h.handlers, ∀ entry ∈ t.inHand, h.Has entry
  waiting : ∀ t ∈ h.handlers, ∀ entry ∈ t.waiting, h.Settled entry
  -- settled outcomes
  sent : ∀ r ∈ h.receipts, h.Settled r.entry ∧ r.entry.notifySender = true
  held : ∀ r ∈ h.receipts, r.status = .sending →
    (r.entry.forwardId, Work.notification) ∈ h.active
  recorded : ∀ r ∈ h.receipts, r.status = .recorded →
    ∀ row, h.outbox.get? r.entry.forwardId = some row → row.senderNotifiedAt.isSome
  once : h.receipts.Pairwise fun a b =>
    a.entry.forwardId = b.entry.forwardId → a.status.Undone
  -- first receipts
  chats : (h.handlers.filterMap Handler.unreported).Nodup
  unreported : ∀ id ∈ h.handlers.filterMap Handler.unreported,
    id ∉ h.reports.map (·.forwardId)
  reports : (h.reports.map (·.forwardId)).Nodup
  reported : ∀ entry ∈ h.reports, entry.forwardId ∈ h.drawn ∧ entry.state = .pending ∧
    entry.notifySender = true
  late : ∀ entry ∈ h.reports, ∀ settled, past settled →
    settled.forwardId = entry.forwardId → entry ∈ old

/-! ## Ledger writes -/

/-- Only rows were written, each to a later form. -/
structure Beside (h later : Origin) : Prop where
  durable : later.durable = h.durable
  drawn : later.drawn = h.drawn
  handlers : later.handlers = h.handlers
  reports : later.reports = h.reports
  outbox : h.outbox.Later later.outbox

namespace Beside

variable {h later : Origin}

theorem refl (h : Origin) : h.Beside h := ⟨rfl, rfl, rfl, rfl, .refl _⟩

theorem settled (hb : h.Beside later) {entry : OutboxEntry} (hs : h.Settled entry) :
    later.Settled entry := by
  constructor
  · exact hs.state
  · rw [hb.drawn]
    exact hs.drawn
  · have hrow := hs.row
    cases hget : h.outbox.get? entry.forwardId with
    | none =>
      rw [hget] at hrow
      rw [hb.outbox.missing hget, hb.durable]
      exact hrow
    | some row =>
      rw [hget] at hrow
      obtain ⟨row', hrow', hle⟩ := hb.outbox.row hget
      rw [hrow']
      obtain ⟨hstate, hresult, hattempts, hnotify⟩ := hrow
      obtain ⟨hstate', hresult', hattempts'⟩ := hle.outcome (hstate ▸ hs.state)
      exact ⟨hstate'.trans hstate, hresult'.trans hresult, hattempts'.trans hattempts,
        hle.notifySender.trans hnotify⟩

theorem has (hb : h.Beside later) {entry : OutboxEntry} (hh : h.Has entry) : later.Has entry := by
  obtain ⟨row, hrow⟩ := hh
  obtain ⟨row', hrow', -⟩ := hb.outbox.row hrow
  exact ⟨row', hrow'⟩

end Beside

variable {past : OutboxEntry → Prop} {old : List OutboxEntry} {h : Origin}

theorem Sound.settled_of_reads (hs : Sound past old h) {entry : OutboxEntry}
    (hreads : h.Reads entry) (hstate : entry.state ≠ .pending) : h.Settled entry := by
  obtain ⟨row, hrow, hentry⟩ := hreads
  constructor
  · exact hstate
  · exact hs.drawn _ _ hrow
  · rw [hrow, hentry]
    exact ⟨rfl, rfl, rfl, rfl⟩

theorem current_reads {entry : OutboxEntry} (hh : h.Has entry) : h.Reads (h.current entry) ∧
    (h.current entry).forwardId = entry.forwardId := by
  obtain ⟨row, hrow⟩ := hh
  have hcurrent : h.current entry = row.entry entry.forwardId := by
    rw [current, Outbox.outboxEntry_some hrow]
    rfl
  rw [hcurrent]
  exact ⟨⟨row, hrow, rfl⟩, rfl⟩

namespace Sound

theorem withOutbox (hs : Sound past old h) {outbox : Outbox} (hlater : h.outbox.Later outbox) :
    Sound past old { h with outbox } := by
  have hb : h.Beside { h with outbox } := ⟨rfl, rfl, rfl, rfl, hlater⟩
  constructor
  · intro id row hrow
    obtain ⟨row', hrow', -⟩ := hlater.of_some hrow
    exact hs.drawn id row' hrow'
  · intro entry hpast
    exact hb.settled (hs.kept entry hpast)
  · intro t ht entry hentry
    exact hb.has (hs.inHand t ht entry hentry)
  · intro t ht entry hentry
    exact hb.settled (hs.waiting t ht entry hentry)
  · intro r hr
    exact ⟨hb.settled (hs.sent r hr).1, (hs.sent r hr).2⟩
  · exact hs.held
  · intro r hr hrecorded row hrow
    obtain ⟨row', hrow', hle⟩ := hlater.of_some hrow
    exact hle.notified (hs.recorded r hr hrecorded row' hrow')
  · exact hs.once
  · exact hs.chats
  · exact hs.unreported
  · exact hs.reports
  · exact hs.reported
  · exact hs.late

/-! ## Handlers and slots -/

theorem drop (hs : Sound past old h) (number : Nat) : Sound past old (h.drop number) := by
  have hsub : List.Sublist (h.drop number).handlers h.handlers := List.filter_sublist
  constructor
  · exact hs.drawn
  · exact hs.kept
  · intro t ht
    exact hs.inHand t (hsub.subset ht)
  · intro t ht
    exact hs.waiting t (hsub.subset ht)
  · exact hs.sent
  · exact hs.held
  · exact hs.recorded
  · exact hs.once
  · exact hs.chats.sublist (hsub.filterMap _)
  · intro id hid
    exact hs.unreported id ((hsub.filterMap _).subset hid)
  · exact hs.reports
  · exact hs.reported
  · exact hs.late

/-- Slots may change as long as the receipts in flight keep theirs. -/
theorem withActive (hs : Sound past old h) {active : List (String × Work)}
    (hheld : ∀ id, (id, Work.notification) ∈ h.active → (id, Work.notification) ∈ active) :
    Sound past old { h with active } := by
  constructor
  · exact hs.drawn
  · exact hs.kept
  · exact hs.inHand
  · exact hs.waiting
  · exact hs.sent
  · intro r hr hsending
    exact hheld _ (hs.held r hr hsending)
  · exact hs.recorded
  · exact hs.once
  · exact hs.chats
  · exact hs.unreported
  · exact hs.reports
  · exact hs.reported
  · exact hs.late

theorem releaseAttempt (hs : Sound past old h) (id : String) :
    Sound past old (h.release id .attempt) := by
  apply hs.withActive
  intro other hmem
  exact List.mem_filter.mpr ⟨hmem, by simp⟩

/-- A new handler that holds settled entries and entries with a row. -/
theorem park (hs : Sound past old h) (number : Nat) {phase : Phase}
    (hinHand : ∀ entry ∈ (Handler.mk number phase).inHand, h.Has entry)
    (hwaiting : ∀ entry ∈ (Handler.mk number phase).waiting, h.Settled entry)
    (hchat : ∀ id ∈ (Handler.mk number phase).unreported,
      id ∉ h.handlers.filterMap Handler.unreported ∧ id ∉ h.reports.map (·.forwardId)) :
    Sound past old (h.park number phase) := by
  have hchats : (h.park number phase).handlers.filterMap Handler.unreported =
      h.handlers.filterMap Handler.unreported ++ (Handler.mk number phase).unreported.toList := by
    show (h.handlers ++ [_]).filterMap _ = _
    rw [List.filterMap_append]
    cases hnew : (Handler.mk number phase).unreported <;> simp [hnew]
  constructor
  · exact hs.drawn
  · exact hs.kept
  · intro t ht entry hentry
    rcases List.mem_append.mp ht with ht | ht
    · exact hs.inHand t ht entry hentry
    · rw [List.mem_singleton.mp ht] at hentry
      exact hinHand entry hentry
  · intro t ht entry hentry
    rcases List.mem_append.mp ht with ht | ht
    · exact hs.waiting t ht entry hentry
    · rw [List.mem_singleton.mp ht] at hentry
      exact hwaiting entry hentry
  · exact hs.sent
  · exact hs.held
  · exact hs.recorded
  · exact hs.once
  · rw [hchats]
    apply List.Nodup.append hs.chats
    · cases (Handler.mk number phase).unreported <;> simp
    · intro id hid hnew
      exact (hchat id (Option.mem_toList.mp hnew)).1 hid
  · intro id hid
    rw [hchats] at hid
    rcases List.mem_append.mp hid with hid | hid
    · exact hs.unreported id hid
    · exact (hchat id (Option.mem_toList.mp hid)).2
  · exact hs.reports
  · exact hs.reported
  · exact hs.late

end Sound

@[simp] theorem Receipt.resolve_entry (id : String) (status : ReceiptStatus) (r : Receipt) :
    (Receipt.resolve id status r).entry = r.entry := by
  unfold Receipt.resolve
  split <;> rfl

theorem Receipt.resolve_undone {id : String} {status : ReceiptStatus} {r : Receipt}
    (hundone : r.status.Undone) : Receipt.resolve id status r = r := by
  unfold Receipt.resolve
  rw [if_neg]
  rintro ⟨-, hsending⟩
  rw [hsending] at hundone
  rcases hundone with hfailed | hcut
  · cases hfailed
  · cases hcut

namespace Sound

/-- A receipt is done with: its slot is free, and it is recorded only when
its row is. -/
theorem resolve (hs : Sound past old h) {id : String} {status : ReceiptStatus}
    (hdone : status ≠ .sending)
    (hrecorded : status = .recorded → ∀ row, h.outbox.get? id = some row →
      row.state ≠ .pending → row.senderNotifiedAt.isSome) :
    Sound past old (h.resolve id status) := by
  constructor
  · exact hs.drawn
  · exact hs.kept
  · exact hs.inHand
  · exact hs.waiting
  · intro r hr
    obtain ⟨r, hmem, rfl⟩ := List.mem_map.mp hr
    rw [Receipt.resolve_entry]
    exact hs.sent r hmem
  · intro r hr hsending
    obtain ⟨r, hmem, rfl⟩ := List.mem_map.mp hr
    unfold Receipt.resolve at hsending ⊢
    split at hsending
    · exact absurd hsending hdone
    · rename_i hother
      rw [if_neg hother]
      refine List.mem_filter.mpr ⟨hs.held r hmem hsending, ?_⟩
      have hne : r.entry.forwardId ≠ id := fun heq => hother ⟨heq, hsending⟩
      simpa using hne
  · intro r hr hstatus row hrow
    obtain ⟨r, hmem, rfl⟩ := List.mem_map.mp hr
    rw [Receipt.resolve_entry] at hrow
    unfold Receipt.resolve at hstatus
    split at hstatus
    · rename_i hthis
      have hsettled := (hs.sent r hmem).1
      have hstate : row.state ≠ .pending := (hsettled.of_row hrow).1 ▸ hsettled.state
      exact hrecorded hstatus row (hthis.1 ▸ hrow) hstate
    · exact hs.recorded r hmem hstatus row hrow
  · show (h.receipts.map _).Pairwise _
    rw [List.pairwise_map]
    apply hs.once.imp
    intro a b hundone hsame
    rw [Receipt.resolve_entry, Receipt.resolve_entry] at hsame
    rw [Receipt.resolve_undone (hundone hsame)]
    exact hundone hsame
  · exact hs.chats
  · exact hs.unreported
  · exact hs.reports
  · exact hs.reported
  · exact hs.late

/-! ## Receipts -/

/-- A settled receipt is sent when no other of its forward is in flight and
none was recorded. -/
theorem send (hs : Sound past old h) (number : Nat) {entry : OutboxEntry}
    {rest : List OutboxEntry} (hentries : ∀ e ∈ entry :: rest, h.Settled e)
    (hfree : h.active.contains (entry.forwardId, Work.notification) = false)
    (howed : h.outbox.senderNotificationPending entry.forwardId = true) :
    Sound past old { h.park number (.sending entry rest) with
      active := (entry.forwardId, .notification) :: h.active
      receipts := h.receipts ++ [{ entry }] } := by
  have hsettled : h.Settled entry := hentries entry (List.mem_cons_self ..)
  have hparked : Sound past old (h.park number (.sending entry rest)) := by
    apply hs.park
    · intro e he
      cases he
    · intro e he
      exact hentries e (List.mem_cons_of_mem _ he)
    · intro id hid
      cases hid
  have hslot : (entry.forwardId, Work.notification) ∉ h.active := by simpa using hfree
  -- the row asks for a receipt and has none
  obtain ⟨row, hrow, hnotify, hunnotified⟩ : ∃ row, h.outbox.get? entry.forwardId = some row ∧
      row.notifySender = true ∧ row.senderNotifiedAt = none := by
    unfold Outbox.senderNotificationPending at howed
    split at howed
    · cases howed
    · rename_i row hrow
      simp only [Bool.and_eq_true, Option.isNone_iff_eq_none] at howed
      exact ⟨row, hrow, howed.1.1, howed.1.2⟩
  constructor
  · exact hparked.drawn
  · exact hparked.kept
  · exact hparked.inHand
  · exact hparked.waiting
  · intro r hr
    rcases List.mem_append.mp hr with hr | hr
    · exact hs.sent r hr
    · rw [List.mem_singleton.mp hr]
      exact ⟨hsettled, (hsettled.of_row hrow).2.2.2 ▸ hnotify⟩
  · intro r hr hsending
    rcases List.mem_append.mp hr with hr | hr
    · exact List.mem_cons_of_mem _ (hs.held r hr hsending)
    · rw [List.mem_singleton.mp hr]
      exact List.mem_cons_self ..
  · intro r hr hrecorded
    rcases List.mem_append.mp hr with hr | hr
    · exact hs.recorded r hr hrecorded
    · rw [List.mem_singleton.mp hr] at hrecorded
      cases hrecorded
  · show (h.receipts ++ [_]).Pairwise _
    rw [List.pairwise_append]
    refine ⟨hs.once, List.pairwise_singleton .., ?_⟩
    intro r hr new hnew hsame
    rw [List.mem_singleton.mp hnew] at hsame
    cases hstatus : r.status with
    | sending =>
      have hheld := hs.held r hr hstatus
      rw [hsame] at hheld
      exact absurd hheld hslot
    | recorded =>
      have hnotified := hs.recorded r hr hstatus row (by rw [hsame]; exact hrow)
      rw [hunnotified] at hnotified
      cases hnotified
    | failed => exact .inl rfl
    | cut => exact .inr rfl
  · exact hparked.chats
  · exact hparked.unreported
  · exact hs.reports
  · exact hs.reported
  · exact hs.late

theorem notifySenders (hs : Sound past old h) (number : Nat) {entries : List OutboxEntry}
    (hentries : ∀ e ∈ entries, h.Settled e) : Sound past old (h.notifySenders number entries) := by
  induction entries with
  | nil => exact hs
  | cons entry rest ih =>
    unfold Origin.notifySenders
    split
    · exact ih fun e he => hentries e (List.mem_cons_of_mem _ he)
    · rename_i hcond
      rw [Bool.not_eq_true, Bool.or_eq_false_iff, Bool.not_eq_false'] at hcond
      exact hs.send number hentries hcond.1 hcond.2

/-- The first receipt of a chat, which no handler has sent. -/
theorem initialForwardReceipt (hs : Sound past old h) (number : Nat) {entry : OutboxEntry}
    (hreads : h.Reads entry)
    (hchat : entry.forwardId ∉ h.handlers.filterMap Handler.unreported)
    (hreport : entry.forwardId ∉ h.reports.map (·.forwardId)) :
    Sound past old (h.initialForwardReceipt number entry) := by
  unfold Origin.initialForwardReceipt
  split
  · rename_i hnotify
    split
    · rename_i hpending
      have hparked : Sound past old (h.park number .reporting) := by
        apply hs.park
        · intro e he
          cases he
        · intro e he
          cases he
        · intro id hid
          cases hid
      have hhandlers : (h.park number .reporting).handlers.filterMap Handler.unreported =
          h.handlers.filterMap Handler.unreported := by
        show (h.handlers ++ [_]).filterMap _ = _
        rw [List.filterMap_append]
        exact List.append_nil _
      obtain ⟨row, hrow, hentry⟩ := hreads
      constructor
      · exact hparked.drawn
      · exact hparked.kept
      · exact hparked.inHand
      · exact hparked.waiting
      · exact hs.sent
      · exact hs.held
      · exact hs.recorded
      · exact hs.once
      · exact hparked.chats
      · intro id hid
        rw [List.map_append, List.mem_append, not_or]
        refine ⟨hparked.unreported id hid, ?_⟩
        intro hnew
        change id ∈ (h.park number .reporting).handlers.filterMap _ at hid
        rw [hhandlers, List.mem_singleton.mp hnew] at hid
        exact hchat hid
      · show ((h.reports ++ [entry]).map _).Nodup
        rw [List.map_append, List.map_singleton, ← List.concat_eq_append]
        exact hs.reports.concat hreport
      · intro e he
        rcases List.mem_append.mp he with he | he
        · exact hs.reported e he
        · rw [List.mem_singleton.mp he]
          exact ⟨hs.drawn _ _ hrow, hpending, hnotify⟩
      · intro e he settled hpast hsame
        rcases List.mem_append.mp he with he | he
        · exact hs.late e he settled hpast hsame
        · rw [List.mem_singleton.mp he] at hsame
          -- the row of an entry settled before is not pending
          have hsettled := hs.kept settled hpast
          rw [← hsame] at hrow
          have hstate := (hsettled.of_row hrow).1
          rw [show row.state = .pending by rw [← hpending, hentry]; rfl] at hstate
          exact absurd hstate.symm hsettled.state
    · rename_i how hsettled
      apply hs.notifySenders
      intro e he
      rw [List.mem_singleton.mp he]
      apply hs.settled_of_reads hreads
      rw [hsettled]
      intro hpending
      cases hpending
  · exact hs

/-! ## Attempts -/

theorem settle (hs : Sound past old h) (entry : OutboxEntry) (how : Settlement)
    (result : Members) : Sound past old (h.settle entry how result) :=
  hs.withOutbox (h.outbox.settle_later _ _ _)

theorem recordFailedAttempt (hs : Sound past old h) (entry : OutboxEntry) (clock : Float)
    (error : String) : Sound past old (h.recordFailedAttempt entry clock error) :=
  hs.withOutbox (h.outbox.recordFailedAttempt_later _ _ _)

end Sound

theorem settle_beside (h : Origin) (entry : OutboxEntry) (how : Settlement) (result : Members) :
    h.Beside (h.settle entry how result) :=
  ⟨rfl, rfl, rfl, rfl, h.outbox.settle_later _ _ _⟩

theorem recordFailedAttempt_beside (h : Origin) (entry : OutboxEntry) (clock : Float)
    (error : String) : h.Beside (h.recordFailedAttempt entry clock error) :=
  ⟨rfl, rfl, rfl, rfl, h.outbox.recordFailedAttempt_later _ _ _⟩

variable [Builtins]

/-- What an attempt leaves before its exchange: rows written at most, and
the entry as it is stored. -/
theorem Sound.beginAttempt (hs : Sound past old h) {entry : OutboxEntry} (hh : h.Has entry)
    (clock : Float) :
    match h.beginAttempt entry clock with
    | .returned later outcome => Sound past old later ∧ h.Beside later ∧ later.Reads outcome ∧
        outcome.forwardId = entry.forwardId
    | .exchanging later outcome => Sound past old later ∧ h.Beside later ∧
        later.Reads outcome ∧ outcome.forwardId = entry.forwardId := by
  obtain ⟨hreads, hid⟩ := current_reads hh
  have hcurrent : h.Has (h.current entry) := by
    obtain ⟨row, hrow, -⟩ := hreads
    exact ⟨row, hrow⟩
  unfold Origin.beginAttempt
  dsimp only
  by_cases howned : (h.active.contains ((h.current entry).forwardId, Work.attempt) ||
      (h.current entry).state != .pending) = true
  · rw [if_pos howned]
    exact ⟨hs, .refl h, hreads, hid⟩
  rw [if_neg howned]
  by_cases hpeer : (!h.messagePeers.contains (h.current entry).peerHub) = true
  · rw [if_pos hpeer]
    have hbeside := h.settle_beside (h.current entry) .refused
      [("reason_code", .str "peer_not_configured"),
        ("detail", .str ((h.current entry).peerHub ++ " is no longer a peer"))]
    obtain ⟨hread, hsame⟩ := current_reads (hbeside.has hcurrent)
    exact ⟨hs.settle _ _ _, hbeside, hread, hsame.trans hid⟩
  rw [if_neg hpeer]
  cases decodeMessageForwardRequest (.obj (h.current entry).request) with
  | error e =>
    have hbeside := h.recordFailedAttempt_beside (h.current entry) clock transportError
    obtain ⟨hread, hsame⟩ := current_reads (hbeside.has hcurrent)
    exact ⟨hs.recordFailedAttempt _ _ _, hbeside, hread, hsame.trans hid⟩
  | ok request =>
    refine ⟨?_, ⟨rfl, rfl, rfl, rfl, .refl _⟩, hreads, hid⟩
    apply hs.withActive
    intro id hmem
    exact List.mem_cons_of_mem _ hmem

section

omit [Builtins]

theorem Reads.has {entry : OutboxEntry} (hreads : h.Reads entry) : h.Has entry := by
  obtain ⟨row, hrow, -⟩ := hreads
  exact ⟨row, hrow⟩

/-- A first receipt of the chat was not sent, and no handler is about to. -/
def Unreported (h : Origin) (id : String) : Prop :=
  id ∉ h.handlers.filterMap Handler.unreported ∧ id ∉ h.reports.map (·.forwardId)

theorem Beside.unreported {later : Origin} (hb : h.Beside later) {id : String}
    (hu : h.Unreported id) : later.Unreported id := by
  unfold Unreported
  rw [hb.handlers, hb.reports]
  exact hu

/-- What a caller holds while it waits for an exchange. -/
def Ready (h : Origin) (id : String) : Caller → Prop
  | .chat => h.Unreported id
  | .sweep own rest settled => (∀ e ∈ own :: rest, h.Has e) ∧ ∀ e ∈ settled, h.Settled e

theorem Beside.ready {later : Origin} (hb : h.Beside later) {id : String} {caller : Caller}
    (hr : h.Ready id caller) : later.Ready id caller := by
  cases caller with
  | chat => exact hb.unreported hr
  | sweep own rest settled =>
    exact ⟨fun e he => hb.has (hr.1 e he), fun e he => hb.settled (hr.2 e he)⟩

end

namespace Sound

theorem attemptChat (hs : Sound past old h) (number : Nat) {entry : OutboxEntry}
    (hh : h.Has entry) (hu : h.Unreported entry.forwardId) (clock : Float) :
    Sound past old (h.attemptChat number entry clock) := by
  have hbegun := hs.beginAttempt hh clock
  unfold Origin.attemptChat
  cases hresult : h.beginAttempt entry clock with
  | returned later outcome =>
    rw [hresult] at hbegun
    obtain ⟨hlater, hb, hreads, hid⟩ := hbegun
    obtain ⟨hchat, hreport⟩ := hb.unreported hu
    rw [← hid] at hchat hreport
    exact hlater.initialForwardReceipt number hreads hchat hreport
  | exchanging later outcome =>
    rw [hresult] at hbegun
    obtain ⟨hlater, hb, hreads, hid⟩ := hbegun
    apply hlater.park
    · intro e he
      rw [List.mem_singleton.mp he]
      exact hreads.has
    · intro e he
      cases he
    · intro id hmem
      cases hmem
      rw [hid]
      exact hb.unreported hu

omit [Builtins] in
theorem collect (hs : Sound past old h) {settled : List OutboxEntry} {outcome : OutboxEntry}
    (hsettled : ∀ e ∈ settled, h.Settled e) (hreads : h.Reads outcome) :
    ∀ e ∈ collect settled outcome, h.Settled e := by
  intro e he
  unfold Origin.collect at he
  split at he
  · exact hsettled e he
  · rename_i hstate
    rcases List.mem_append.mp he with he | he
    · exact hsettled e he
    · rw [List.mem_singleton.mp he]
      exact hs.settled_of_reads hreads fun hpending => hstate (.inl hpending)

/-- A sweep goes through its due entries; the rows it writes keep what it
has collected. -/
theorem sweepOn (hs : Sound past old h) (number : Nat) (clock : Float)
    {settled rest : List OutboxEntry} (hrest : ∀ e ∈ rest, h.Has e)
    (hsettled : ∀ e ∈ settled, h.Settled e) :
    Sound past old (h.sweepOn number clock settled rest) := by
  induction rest generalizing h settled with
  | nil =>
    unfold Origin.sweepOn
    apply hs.notifySenders
    intro e he
    exact hsettled e (List.mem_of_mem_filter he)
  | cons entry rest ih =>
    have hafter : ∀ e ∈ rest, h.Has e := fun e he => hrest e (List.mem_cons_of_mem _ he)
    unfold Origin.sweepOn
    split
    · have hbegun := hs.beginAttempt (hrest entry (List.mem_cons_self ..)) clock
      cases hresult : h.beginAttempt entry clock with
      | returned later outcome =>
        rw [hresult] at hbegun
        obtain ⟨hlater, hb, hreads, -⟩ := hbegun
        apply ih hlater
        · intro e he
          exact hb.has (hafter e he)
        · exact hlater.collect (fun e he => hb.settled (hsettled e he)) hreads
      | exchanging later outcome =>
        rw [hresult] at hbegun
        obtain ⟨hlater, hb, hreads, -⟩ := hbegun
        apply hlater.park
        · intro e he
          rcases List.mem_cons.mp he with rfl | he
          · exact hreads.has
          · exact hb.has (hrest e he)
        · intro e he
          exact hb.settled (hsettled e he)
        · intro id hid
          cases hid
    · exact ih hs hafter hsettled

theorem goOn (hs : Sound past old h) (number : Nat) (clock : Float) {outcome : OutboxEntry}
    {caller : Caller} (hreads : h.Reads outcome) (hr : h.Ready outcome.forwardId caller) :
    Sound past old (h.goOn number clock outcome caller) := by
  cases caller with
  | chat => exact hs.initialForwardReceipt number hreads hr.1 hr.2
  | sweep own rest settled =>
    apply hs.sweepOn
    · intro e he
      exact hr.1 e (List.mem_cons_of_mem _ he)
    · exact hs.collect hr.2 hreads

theorem fail (hs : Sound past old h) (number : Nat) (clock : Float) {id : String}
    {caller : Caller} (hr : h.Ready id caller) : Sound past old (h.fail number clock caller) := by
  cases caller with
  | chat => exact hs
  | sweep own rest settled =>
    have hbeside := h.recordFailedAttempt_beside own clock internalErrorDetail
    have hfailed := hs.recordFailedAttempt own clock internalErrorDetail
    have hown := hbeside.has (hr.1 own (List.mem_cons_self ..))
    apply hfailed.sweepOn
    · intro e he
      exact hbeside.has (hr.1 e (List.mem_cons_of_mem _ he))
    · apply hfailed.collect
      · intro e he
        exact hbeside.settled (hr.2 e he)
      · exact (current_reads hown).1

/-- The outcome is recorded, and the caller goes on with the row. -/
theorem goOn_current {later : Origin} (hlater : Sound past old later)
    (hb : h.Beside later) (number : Nat) (clock : Float) {entry : OutboxEntry} {caller : Caller}
    (hh : h.Has entry) (hr : h.Ready entry.forwardId caller) :
    Sound past old (later.goOn number clock (later.current entry) caller) := by
  obtain ⟨hreads, hid⟩ := current_reads (hb.has hh)
  apply hlater.goOn _ _ hreads
  rw [hid]
  exact hb.ready hr

omit [Builtins] in
/-- The chat of a handler that is taken off is unreported. -/
theorem unreported_drop (hs : Sound past old h) {t : Handler} (ht : t ∈ h.handlers) {id : String}
    (hid : t.unreported = some id) : (h.drop t.number).Unreported id := by
  have hmem : id ∈ h.handlers.filterMap Handler.unreported :=
    List.mem_filterMap.mpr ⟨t, ht, hid⟩
  refine ⟨?_, hs.unreported id hmem⟩
  show id ∉ (h.handlers.filter _).filterMap Handler.unreported
  have hnodup := hs.chats
  generalize h.handlers = handlers at ht hnodup
  induction handlers with
  | nil => cases ht
  | cons first rest ih =>
    intro hother
    rw [List.filter_cons] at hother
    rcases List.mem_cons.mp ht with rfl | ht
    · rw [List.filterMap_cons_some hid, List.nodup_cons] at hnodup
      simp only [ne_eq, not_true_eq_false, decide_false, Bool.false_eq_true, if_false] at hother
      exact hnodup.1 ((List.filter_sublist.filterMap _).subset hother)
    · cases hfirst : first.unreported with
      | none =>
        rw [List.filterMap_cons_none hfirst] at hnodup
        split at hother
        · rw [List.filterMap_cons_none hfirst] at hother
          exact ih ht hnodup hother
        · exact ih ht hnodup hother
      | some other =>
        rw [List.filterMap_cons_some hfirst, List.nodup_cons] at hnodup
        split at hother
        · rw [List.filterMap_cons_some hfirst] at hother
          rcases List.mem_cons.mp hother with rfl | hother
          · exact hnodup.1 (List.mem_filterMap.mpr ⟨t, ht, hid⟩)
          · exact ih ht hnodup.2 hother
        · exact ih ht hnodup.2 hother

end Sound

omit [Builtins] in
theorem mem_of_phaseOf {number : Nat} {phase : Phase} (hphase : h.phaseOf number = some phase) :
    ∃ t ∈ h.handlers, t.number = number ∧ t.phase = phase := by
  obtain ⟨t, hfind, hsame⟩ := Option.map_eq_some_iff.mp hphase
  exact ⟨t, List.mem_of_find?_eq_some hfind, by simpa using List.find?_some hfind, hsame⟩

namespace Sound

theorem exchanged (hs : Sound past old h) {number : Nat} {entry : OutboxEntry} {caller : Caller}
    (hphase : h.phaseOf number = some (.exchanging entry caller)) (answer : PeerAnswer)
    (clock : Float) : Sound past old (h.exchanged number entry caller answer clock) := by
  obtain ⟨t, ht, rfl, hexchanging⟩ := mem_of_phaseOf hphase
  have hdropped := (hs.drop t.number).releaseAttempt entry.forwardId
  have hhas : ∀ e ∈ t.inHand, h.Has e := hs.inHand t ht
  have hwaiting : ∀ e ∈ t.waiting, h.Settled e := hs.waiting t ht
  unfold Handler.inHand at hhas
  unfold Handler.waiting at hwaiting
  rw [hexchanging] at hhas hwaiting
  have hentry : h.Has entry := by
    cases caller <;> exact hhas entry (List.mem_cons_self ..)
  have hready : ((h.drop t.number).release entry.forwardId .attempt).Ready entry.forwardId
      caller := by
    cases caller with
    | chat =>
      apply hs.unreported_drop ht
      unfold Handler.unreported
      rw [hexchanging]
    | sweep own rest settled =>
      exact ⟨fun e he => hhas e (List.mem_cons_of_mem _ he), hwaiting⟩
  unfold Origin.exchanged
  cases answer with
  | answered result =>
    dsimp only
    split
    · exact goOn_current (hdropped.settle _ _ _) (settle_beside ..) _ _ hentry hready
    · exact hdropped.fail _ _ hready
  | rejected =>
    exact goOn_current (hdropped.settle _ _ _) (settle_beside ..) _ _ hentry hready
  | unreachable =>
    exact goOn_current (hdropped.recordFailedAttempt _ _ _)
      (recordFailedAttempt_beside ..) _ _ hentry hready
  | unexpected => exact hdropped.fail _ _ hready

/-- The accepted chat is a new row of an id that was never drawn. -/
theorem forwardChat (hs : Sound past old h) {forwardId : String} (hfresh : forwardId ∉ h.drawn)
    (frame : ChatFrame) (clock : Float) :
    Sound past old (h.forwardChat forwardId frame clock) := by
  unfold Origin.forwardChat
  split
  · exact hs
  rename_i address fields _
  unfold Outbox.enqueue
  by_cases hcontains : h.outbox.contains forwardId = true
  · rw [if_pos hcontains]
    exact hs
  rw [if_neg hcontains]
  dsimp only
  generalize hrow : ({ peerHub := address.hubId, sender := frame.sender, target := address.text
                       request := fields, createdAt := clock
                       expiresAt := clock + h.messageForwardTtl, nextAttemptAt := clock
                       notifySender := (frame.data.get "receipt_requested").truthy } : OutboxRow) =
    row
  have hne : ∀ e, h.Settled e → forwardId ≠ e.forwardId := by
    rintro e he rfl
    exact hfresh he.drawn
  -- the new row changes nothing of the settled entries
  have hsettled : ∀ e, h.Settled e → SettledIn h.durable (forwardId :: h.drawn)
      (h.outbox.set forwardId row) e := by
    intro e he
    constructor
    · exact he.state
    · exact List.mem_cons_of_mem _ he.drawn
    · rw [Dict.get?_set_ne _ _ (hne e he)]
      exact he.row
  have hnew : Sound past old
      { h with
        outbox := h.outbox.set forwardId row, drawn := forwardId :: h.drawn
        nextHandler := h.nextHandler + 1 } := by
    constructor
    · intro id other hget
      by_cases heq : forwardId = id
      · rw [heq]
        exact List.mem_cons_self ..
      · rw [Dict.get?_set_ne _ _ heq] at hget
        exact List.mem_cons_of_mem _ (hs.drawn id other hget)
    · intro e he
      exact hsettled e (hs.kept e he)
    · intro t ht e he
      obtain ⟨old, hold⟩ := hs.inHand t ht e he
      refine ⟨old, ?_⟩
      have hother : forwardId ≠ e.forwardId := by
        rintro rfl
        exact hfresh (hs.drawn _ _ hold)
      rw [Dict.get?_set_ne _ _ hother]
      exact hold
    · intro t ht e he
      exact hsettled e (hs.waiting t ht e he)
    · intro r hr
      exact ⟨hsettled _ (hs.sent r hr).1, (hs.sent r hr).2⟩
    · exact hs.held
    · intro r hr hrecorded other hget
      rw [Dict.get?_set_ne _ _ (hne _ (hs.sent r hr).1)] at hget
      exact hs.recorded r hr hrecorded other hget
    · exact hs.once
    · exact hs.chats
    · exact hs.unreported
    · exact hs.reports
    · intro e he
      exact ⟨List.mem_cons_of_mem _ (hs.reported e he).1, (hs.reported e he).2⟩
    · exact hs.late
  have hhas : ∃ row', (h.outbox.set forwardId row).get? forwardId = some row' := by
    rw [Dict.get?_set, if_pos rfl]
    exact ⟨row, rfl⟩
  have hunreported : h.Unreported forwardId := by
    constructor
    · intro hmem
      obtain ⟨t, ht, hid⟩ := List.mem_filterMap.mp hmem
      obtain ⟨e, he, rfl⟩ := t.inHand_of_unreported hid
      obtain ⟨old, hold⟩ := hs.inHand t ht e he
      exact hfresh (hs.drawn _ _ hold)
    · intro hmem
      obtain ⟨e, he, rfl⟩ := List.mem_map.mp hmem
      exact hfresh (hs.reported e he).1
  split
  · apply hnew.attemptChat
    · exact hhas
    · exact hunreported
  · apply hnew.park
    · intro e he
      rw [List.mem_singleton.mp he]
      exact hhas
    · intro e he
      cases he
    · intro id hid
      cases hid
      exact hunreported

section

omit [Builtins]

theorem cutHandler (hs : Sound past old h) (number : Nat) :
    Sound past old (h.cutHandler number) := by
  unfold Origin.cutHandler
  split
  · exact (hs.drop number).releaseAttempt _
  · apply (hs.drop number).resolve
    · intro hsending
      cases hsending
    · intro hrecorded
      cases hrecorded
  · exact hs.drop number

/-- A receipt in flight is cut; a hub without a journal starts with no rows. -/
theorem restart (hs : Sound past old h) (messagePeers : List String) :
    Sound past old (h.restart messagePeers) := by
  have hoption : (h.restart messagePeers).outbox = h.outbox ∨
      h.durable = false ∧ (h.restart messagePeers).outbox = Dict.empty := by
    show (if h.durable then h.outbox else Dict.empty) = _ ∨
      _ ∧ (if h.durable then h.outbox else Dict.empty) = _
    cases h.durable with
    | true => exact .inl rfl
    | false => exact .inr ⟨rfl, rfl⟩
  have hrows : ∀ id row, (h.restart messagePeers).outbox.get? id = some row →
      h.outbox.get? id = some row := by
    intro id row hrow
    rcases hoption with hsame | ⟨-, hempty⟩
    · rw [hsame] at hrow
      exact hrow
    · rw [hempty] at hrow
      cases hrow
  have hsettled : ∀ e, h.Settled e → (h.restart messagePeers).Settled e := by
    intro e he
    constructor
    · exact he.state
    · exact he.drawn
    · rcases hoption with hsame | ⟨hmemory, hempty⟩
      · rw [hsame]
        exact he.row
      · rw [hempty]
        exact hmemory
  constructor
  · intro id row hrow
    exact hs.drawn id row (hrows id row hrow)
  · intro e he
    exact hsettled e (hs.kept e he)
  · intro t ht
    cases ht
  · intro t ht
    cases ht
  · intro r hr
    obtain ⟨r, hmem, rfl⟩ := List.mem_map.mp hr
    rw [Receipt.resolve_entry]
    exact ⟨hsettled _ (hs.sent r hmem).1, (hs.sent r hmem).2⟩
  · intro r hr hsending
    obtain ⟨r, hmem, rfl⟩ := List.mem_map.mp hr
    unfold Receipt.resolve at hsending
    split at hsending
    · cases hsending
    · rename_i hother
      exact absurd ⟨rfl, hsending⟩ hother
  · intro r hr hrecorded row hrow
    obtain ⟨r, hmem, rfl⟩ := List.mem_map.mp hr
    rw [Receipt.resolve_entry] at hrow
    unfold Receipt.resolve at hrecorded
    split at hrecorded
    · cases hrecorded
    · exact hs.recorded r hmem hrecorded row (hrows _ row hrow)
  · show (h.receipts.map _).Pairwise _
    rw [List.pairwise_map]
    apply hs.once.imp
    intro a b hundone hsame
    rw [Receipt.resolve_entry, Receipt.resolve_entry] at hsame
    rw [Receipt.resolve_undone (hundone hsame)]
    exact hundone hsame
  · exact List.nodup_nil
  · intro id hid
    cases hid
  · exact hs.reports
  · exact hs.reported
  · exact hs.late

theorem withNext (hs : Sound past old h) (nextHandler : Nat) :
    Sound past old { h with nextHandler } := by
  constructor
  · exact hs.drawn
  · exact hs.kept
  · exact hs.inHand
  · exact hs.waiting
  · exact hs.sent
  · exact hs.held
  · exact hs.recorded
  · exact hs.once
  · exact hs.chats
  · exact hs.unreported
  · exact hs.reports
  · exact hs.reported
  · exact hs.late

/-- A send that succeeded is recorded before its slot is released. -/
theorem notified (hs : Sound past old h) {number : Nat} {entry : OutboxEntry}
    {rest : List OutboxEntry} (hphase : h.phaseOf number = some (.sending entry rest)) (ok : Bool)
    (clock : Float) : Sound past old (h.sent number entry rest ok clock) := by
  obtain ⟨t, ht, rfl, hsending⟩ := mem_of_phaseOf hphase
  have hwaiting : ∀ e ∈ rest, h.Settled e := by
    intro e he
    apply hs.waiting t ht
    unfold Handler.waiting
    rw [hsending]
    exact he
  have hdropped := hs.drop t.number
  unfold Origin.sent
  dsimp only
  split
  · have hlater := h.outbox.markSenderNotified_later entry.forwardId clock
    have hb : h.Beside { h with outbox := h.outbox.markSenderNotified entry.forwardId clock } :=
      ⟨rfl, rfl, rfl, rfl, hlater⟩
    apply ((hdropped.withOutbox hlater).resolve _ _).notifySenders
    · intro e he
      exact hb.settled (hwaiting e he)
    · intro hstatus
      cases hstatus
    · intro _ row hrow hsettled
      exact Outbox.markSenderNotified_notified hrow hsettled
  · apply (hdropped.resolve _ _).notifySenders
    · exact hwaiting
    · intro hstatus
      cases hstatus
    · intro hstatus
      cases hstatus

end

theorem step (hs : Sound past old h) (s : Step) : Sound past old (h.step s) := by
  cases s with
  | chat forwardId frame clock =>
    unfold Origin.step
    dsimp only
    split
    · exact hs
    · rename_i hfresh
      apply hs.forwardChat
      intro hmem
      exact hfresh (by simpa using hmem)
  | relayed number clock =>
    unfold Origin.step
    dsimp only
    split
    · rename_i entry hphase
      obtain ⟨t, ht, rfl, hrelaying⟩ := mem_of_phaseOf hphase
      apply (hs.drop t.number).attemptChat
      · apply hs.inHand t ht
        unfold Handler.inHand
        rw [hrelaying]
        exact List.mem_singleton_self _
      · apply hs.unreported_drop ht
        unfold Handler.unreported
        rw [hrelaying]
    · exact hs
  | exchanged number answer clock =>
    unfold Origin.step
    dsimp only
    split
    · exact hs.exchanged ‹_› answer clock
    · exact hs
  | reported number =>
    unfold Origin.step
    dsimp only
    split
    · exact hs.drop number
    · exact hs
  | sent number ok clock =>
    unfold Origin.step
    dsimp only
    split
    · exact hs.notified ‹_› ok clock
    · exact hs
  | sweep now clock =>
    have hexpired := (hs.withOutbox (h.outbox.expireDue_later now)).withNext (h.nextHandler + 1)
    unfold Origin.step
    dsimp only
    apply hexpired.sweepOn
    · intro e he
      exact Outbox.mem_due he
    · intro e he
      obtain ⟨row, hrow, hread, hstate⟩ := Outbox.mem_expireDue he
      apply hexpired.settled_of_reads ⟨row, hrow, hread⟩
      rw [hread]
      exact hstate
  | sweepCut now count => exact hs.withOutbox (h.outbox.expireFirst_later now count)
  | registered sender =>
    apply (hs.withNext (h.nextHandler + 1)).notifySenders
    intro e he
    obtain ⟨row, hrow, hread, hstate⟩ := Outbox.mem_pendingSenderNotifications he
    apply hs.settled_of_reads ⟨row, hrow, hread⟩
    rw [hread]
    exact hstate
  | cut number => exact hs.cutHandler number
  | restart messagePeers => exact hs.restart messagePeers

end Sound

/-! ## Runs -/

omit [Builtins] in
theorem Sound.init (durable privateDirectedMessages : Bool) (messageForwardTtl : Float)
    (messagePeers : List String) : Sound (fun _ => False) []
      { durable, privateDirectedMessages, messageForwardTtl, messagePeers } := by
  constructor
  · intro id row hrow
    cases hrow
  · intro e he
    cases he
  · intro t ht
    cases ht
  · intro t ht
    cases ht
  · intro r hr
    cases hr
  · intro r hr
    cases hr
  · intro r hr
    cases hr
  · exact List.Pairwise.nil
  · exact List.nodup_nil
  · intro id hid
    cases hid
  · exact List.nodup_nil
  · intro e he
    cases he
  · intro e he
    cases he

omit [Builtins] in
/-- From here on, what is settled now stays so. -/
theorem Sound.since (hs : Sound past old h) : Sound h.Settled h.reports h := by
  constructor
  · exact hs.drawn
  · intro e he
    exact he
  · exact hs.inHand
  · exact hs.waiting
  · exact hs.sent
  · exact hs.held
  · exact hs.recorded
  · exact hs.once
  · exact hs.chats
  · exact hs.unreported
  · exact hs.reports
  · exact hs.reported
  · intro e he _ _ _
    exact he

theorem Sound.run (hs : Sound past old h) (steps : List Step) :
    Sound past old (Trace.run Origin.step h steps) :=
  Trace.invariant (P := Sound past old) Origin.step (fun _ s hs => hs.step s) hs steps

theorem run_sound (durable privateDirectedMessages : Bool) (messageForwardTtl : Float)
    (messagePeers : List String) (steps : List Step) : Sound (fun _ => False) []
      (run durable privateDirectedMessages messageForwardTtl messagePeers steps) :=
  (Sound.init ..).run steps

/-- In every run a settled entry keeps its state, result and attempts. Its
requested receipt is sent after it settled, and again only when the send
before failed or its handler was cut off; the one earlier report says that
the forward was pending, and none is sent once it settled. -/
theorem outbox_settles_once (durable privateDirectedMessages : Bool) (messageForwardTtl : Float)
    (messagePeers : List String) (steps : List Step) :
    let after := run durable privateDirectedMessages messageForwardTtl messagePeers
    let h := after steps
    (h.receipts.Pairwise fun a b =>
        a.entry.forwardId = b.entry.forwardId → a.status.Undone) ∧
      (∀ r ∈ h.receipts, h.Settled r.entry ∧ r.entry.notifySender = true) ∧
      (h.reports.map (·.forwardId)).Nodup ∧
      (∀ entry ∈ h.reports, entry.state = .pending ∧ entry.notifySender = true) ∧
      ∀ id row, h.outbox.get? id = some row → row.state ≠ .pending → ∀ more,
        (after (steps ++ more)).Settled (row.entry id) ∧
          ∀ entry ∈ (after (steps ++ more)).reports, entry.forwardId = id → entry ∈ h.reports := by
  intro after h
  have hs : Sound (fun _ => False) [] h := run_sound ..
  refine ⟨hs.once, hs.sent, hs.reports, fun e he => (hs.reported e he).2, ?_⟩
  intro id row hrow hstate more
  have hsettled : h.Settled (row.entry id) := hs.settled_of_reads ⟨row, hrow, rfl⟩ hstate
  have hmore : after (steps ++ more) = Trace.run Origin.step h more := by
    show Trace.run _ _ (steps ++ more) = Trace.run _ (Trace.run _ _ steps) more
    rw [Trace.run_eq_foldl, Trace.run_eq_foldl, Trace.run_eq_foldl, List.foldl_append]
  rw [hmore]
  have hlater := hs.since.run more
  refine ⟨hlater.kept _ hsettled, ?_⟩
  intro e he hid
  exact hlater.late e he _ hsettled hid.symm

/-! ## A small hub -/

/-- A chat with a receipt for a seat on a peer hub. -/
def smallChat : ChatFrame where
  sender := "P/a"
  data := [("target", .str "P/b@peer"), ("payload", .str "hi"), ("receipt_requested", .bool true)]
  msgId := 1
  timestamp := 0

def smallAnswer : PeerAnswer :=
  .answered { forwardId := "f1", disposition := .accepted, answeringHub := "peer" }

omit [Builtins] in
/-- The sender of an unreachable forward is told that it is pending, and told
again when it settled; cut off before it is recorded, the second is sent twice. -/
theorem receipt_before_and_after_settling :
    letI := Builtins.ascii
    let after := run true true 100 ["peer"]
    let pending : List Step := [.chat "f1" smallChat 0, .exchanged 0 .unreachable 0, .reported 0]
    let settled : List Step := pending ++ [.sweep 1 1, .exchanged 1 smallAnswer 2]
    let state (h : Origin) := (h.outbox.get? "f1").map (·.state)
    state (after pending) = some .pending ∧
      (after pending).reports.map (·.forwardId) = ["f1"] ∧
      (after (settled ++ [.sent 1 true 3])).receipts.map
        (fun r => (r.entry.forwardId, r.status)) = [("f1", .recorded)] ∧
      (after (settled ++ [.restart ["peer"], .registered "P/a", .sent 2 true 3])).receipts.map
        (fun r => (r.entry.forwardId, r.status)) = [("f1", .cut), ("f1", .recorded)] := by
  let _ := Builtins.ascii
  decide +kernel

omit [Builtins] in
/-- The settled entry stays as it is when the retry sweep and the peer go on. -/
theorem outbox_settles_once_small_hub :
    letI := Builtins.ascii
    let after := run true true 100 ["peer"]
    let settled : List Step := [.chat "f1" smallChat 0, .exchanged 0 smallAnswer 2]
    ∃ row, (after settled).outbox.get? "f1" = some row ∧ row.state = .settled .accepted ∧
      ∀ more, (after (settled ++ more)).Settled (row.entry "f1") := by
  let _ := Builtins.ascii
  intro after settled
  have hrow : ((after settled).outbox.get? "f1").map (·.state) = some (.settled .accepted) := by
    decide +kernel
  obtain ⟨row, hget, hstate⟩ := Option.map_eq_some_iff.mp hrow
  refine ⟨row, hget, hstate, ?_⟩
  intro more
  have hsettled : row.state ≠ .pending := by
    rw [hstate]
    intro hpending
    cases hpending
  exact ((outbox_settles_once true true 100 ["peer"] settled).2.2.2.2 "f1" row hget hsettled more).1

end Origin

end SynapseChannel.Forward
