import SynapseChannel.Core.ChatRouting
import SynapseChannel.Lib.Slots

/-!
# Core — ChatOnce

Copies of one chat reach recipients once while none reaches one beside
another copy in flight, and a copy that has reached one is remembered.
-/

namespace SynapseChannel.Chat

open Py

variable [Builtins]

/-! ## Conditions on a step -/

/-- The copy a step looks up in the memory. -/
def ChatStep.lookedUp : ChatStep → Option (Copy × Members)
  | .chat sender data now world =>
    if world.responseError.isSome then none else some (admitted sender data now)
  | _ => none

/-- A pair is looked up within the window of its accepted copies, and its
entry is not evicted. -/
structure Within (k : String × String) (h : ChatHub) (s : ChatStep) : Prop where
  window : ∀ c ∈ s.lookedUp, c.1.key = k → ∀ e ∈ h.reached, e.copy.key = k →
    h.dedupe.expired e.copy.acceptedAt c.1.acceptedAt = false
  kept : (h.dedupe.entries.get? k).isSome → ((h.step s).dedupe.entries.get? k).isSome

/-- No copy is looked up while another of its pair has reached a recipient
and is not remembered; none reaches one while another is in flight; and no
handler whose copy reached one is cut. -/
def Undisturbed (k : String × String) (h : ChatHub) : ChatStep → Prop
  | .chat sender data now world =>
    ∀ c ∈ (ChatStep.chat sender data now world).lookedUp, c.1.key = k →
      ∀ t ∈ h.handlers, t.copy.key = k →
        t.accepted = false ∧ (forwards (h.stamp c.2) world = true → t.inFlight = false)
  | .sent number successful => ∀ t ∈ h.handlers[number]?, t.copy.key = k →
      t.reaches successful = true →
        ∀ other ∈ h.handlers.eraseIdx number, other.copy.key = k → other.inFlight = false
  | .reported _ => True
  | .cut number successful => ∀ t ∈ h.handlers[number]?, t.copy.key = k →
      t.reaches successful = false ∧ t.accepted = false

instance (k : String × String) (h : ChatHub) (s : ChatStep) : Decidable (Within k h s) :=
  decidable_of_iff
    ((∀ c ∈ s.lookedUp, c.1.key = k → ∀ e ∈ h.reached, e.copy.key = k →
        h.dedupe.expired e.copy.acceptedAt c.1.acceptedAt = false) ∧
      ((h.dedupe.entries.get? k).isSome → ((h.step s).dedupe.entries.get? k).isSome))
    ⟨fun ⟨window, kept⟩ => ⟨window, kept⟩, fun hwithin => ⟨hwithin.window, hwithin.kept⟩⟩

instance (k : String × String) (h : ChatHub) (s : ChatStep) : Decidable (Undisturbed k h s) :=
  match s with
  | .chat .. => inferInstanceAs (Decidable (∀ c ∈ ChatStep.lookedUp _, _))
  | .sent .. => inferInstanceAs (Decidable (∀ t ∈ h.handlers[_]?, _))
  | .reported _ => inferInstanceAs (Decidable True)
  | .cut .. => inferInstanceAs (Decidable (∀ t ∈ h.handlers[_]?, _))

/-! ## What undisturbed runs keep -/

structure Kept (k : String × String) (h : ChatHub) : Prop where
  once : (h.reached.filter (·.copy.key = k)).length ≤ 1
  backed : ∀ e ∈ h.reached, e.copy.key = k →
    (∃ t ∈ h.handlers, t.accepted = true ∧ t.copy = e.copy ∧ t.data = e.data) ∨
      h.dedupe.entries.get? k = some ⟨e.copy.digest, e.copy.acceptedAt, recalled e.data⟩
  accepted : ∀ t ∈ h.handlers, t.copy.key = k → t.accepted = true → ⟨t.copy, t.data⟩ ∈ h.reached
  settled : ∀ e ∈ h.reached, e.copy.key = k → ∀ t ∈ h.handlers, t.copy.key = k →
    t.inFlight = true → t.accepted = true

omit [Builtins] in
theorem Handler.inFlight_of_accepted {t : Handler} (h : t.accepted = true) : t.inFlight = true := by
  obtain ⟨copy, data, phase⟩ := t
  cases phase with
  | ended => cases h
  | _ => rfl

/-- How a chat that is routed changes the hub. -/
inductive Parked (copy : Copy) (h h' : ChatHub) : Prop where
  | refused (reached : h'.reached = h.reached) (handlers : h'.handlers = h.handlers)
  | sending (t : Handler) (copy : t.copy = copy) (accepted : t.accepted = false)
      (reached : h'.reached = h.reached) (handlers : h'.handlers = h.handlers ++ [t])
  | enqueued (t : Handler) (copy : t.copy = copy) (accepted : t.accepted = true)
      (reached : h'.reached = h.reached ++ [⟨t.copy, t.data⟩])
      (handlers : h'.handlers = h.handlers ++ [t])

/-- How a handler that goes on changes the hub. -/
inductive Moved (number : Nat) (t : Handler) (successful : List String) (h h' : ChatHub) : Prop where
  | stays (same : h' = h)
  | waits (phase : Phase) (unaccepted : phase.accepted = false) (waiting : t.accepted = false)
      (flight : t.inFlight = true) (reached : h'.reached = h.reached)
      (handlers : h'.handlers = h.handlers.set number (t.enter phase))
      (dedupe : h'.dedupe = h.dedupe)
  | delivers (phase : Phase) (reaches : t.reaches successful = true) (waiting : t.accepted = false)
      (flight : t.inFlight = true) (reached : h'.reached = h.reached ++ [⟨t.copy, t.data⟩])
      (handlers : h'.handlers = h.handlers.set number (t.enter phase))
      (after : phase.accepted = true ∧ h'.dedupe = h.dedupe ∨
        phase = .ended ∧ h'.dedupe = h.dedupe.rememberCopy t.copy t.data)
  | remembers (accepted : t.accepted = true) (reached : h'.reached = h.reached)
      (handlers : h'.handlers = h.handlers.set number (t.enter .ended))
      (dedupe : h'.dedupe = h.dedupe.rememberCopy t.copy t.data)

omit [Builtins] in
/-- Without a completed write nobody is reached. -/
theorem Handler.reaches_nil (t : Handler) : t.reaches [] = false := by
  have hnone : ∀ (decision : DeliveryLiveness) (includeWaiters : Bool),
      (classifyCompletedDelivery decision [] includeWaiters).delivered = false := by
    intro decision includeWaiters
    unfold classifyCompletedDelivery
    cases hdelivered : decision.delivered with
    | false => simpa using hdelivered
    | true => simp [DeliveryLiveness.delivered]
  unfold Handler.reaches
  split
  · exact hnone _ _
  · exact hnone _ _
  · rfl

namespace ChatHub

section
omit [Builtins]

@[simp] theorem reached_journalled (h : ChatHub) (data : Members) (seq : Option Int) :
    (h.journalled data seq).reached = h.reached := by
  unfold journalled
  split <;> rfl

@[simp] theorem handlers_journalled (h : ChatHub) (data : Members) (seq : Option Int) :
    (h.journalled data seq).handlers = h.handlers := by
  unfold journalled
  split <;> rfl

@[simp] theorem dedupe_journalled (h : ChatHub) (data : Members) (seq : Option Int) :
    (h.journalled data seq).dedupe = h.dedupe := by
  unfold journalled
  split <;> rfl

end

omit [Builtins] in
theorem parked_park (h : ChatHub) (copy : Copy) (row data : Members) (seq : Option Int)
    {phase : Phase} (haccepted : phase.accepted = false) :
    ((h.journalled row seq).park copy data phase).dedupe = h.dedupe ∧
      Parked copy h ((h.journalled row seq).park copy data phase) := by
  constructor
  · exact dedupe_journalled h row seq
  · apply Parked.sending ⟨copy, data, phase⟩ rfl haccepted
    · exact reached_journalled h row seq
    · show (h.journalled row seq).handlers ++ _ = _
      rw [handlers_journalled]

omit [Builtins] in
theorem route_channel (h : ChatHub) (copy : Copy) (data : Members) (channel : String)
    (world : World) :
    (h.routeChannelChat copy data channel world).dedupe = h.dedupe ∧
      Parked copy h (h.routeChannelChat copy data channel world) ∧
        (h.routeChannelChat copy data channel world).reached = h.reached := by
  unfold routeChannelChat
  split
  · rename_i online seq _ _
    rw [← and_assoc]
    constructor
    · apply parked_park
      rfl
    · exact reached_journalled h data seq
  · exact ⟨rfl, .refused rfl rfl, rfl⟩

theorem route_local (h : ChatHub) (copy : Copy) (data : Members) (world : World) :
    (h.deliverLocalChat copy data world).dedupe = h.dedupe ∧
      Parked copy h (h.deliverLocalChat copy data world) ∧
        (h.deliverLocalChat copy data world).reached = h.reached := by
  unfold deliverLocalChat
  dsimp only
  split
  · exact ⟨rfl, .refused rfl rfl, rfl⟩
  · rename_i seq _
    rw [← and_assoc]
    constructor
    · apply parked_park
      rw [apply_ite Phase.accepted]
      exact ite_self false
    · exact reached_journalled h _ seq

theorem route_forward (h : ChatHub) (copy : Copy) (data : Members) (world : World) :
    (h.forwardChat copy data world).dedupe = h.dedupe ∧
      Parked copy h (h.forwardChat copy data world) ∧
        ((acceptedForward data world).isSome = false →
          (h.forwardChat copy data world).reached = h.reached) := by
  unfold forwardChat
  split
  · exact ⟨rfl, .refused rfl rfl, fun _ => rfl⟩
  · rename_i address forwardId seq haccepted
    refine ⟨dedupe_journalled h _ seq, ?_, ?_⟩
    · apply Parked.enqueued ⟨copy, _, .forwarding⟩ rfl rfl
      · show (h.journalled _ seq).reached ++ _ = _
        rw [reached_journalled]
      · show (h.journalled _ seq).handlers ++ _ = _
        rw [handlers_journalled]
    · intro hnone
      rw [haccepted] at hnone
      cases hnone

/-- A chat is parked at once, and reaches nobody at once unless it is for a
peer's seat. -/
theorem route_parked (h : ChatHub) (copy : Copy) (data : Members) (world : World) :
    (h.route copy data world).dedupe = h.dedupe ∧ Parked copy h (h.route copy data world) ∧
      (forwards (h.stamp data) world = false → (h.route copy data world).reached = h.reached) := by
  unfold route
  dsimp only
  by_cases hchannel : channelOf (h.stamp data) = ""
  · rw [if_neg (not_not.mpr hchannel)]
    by_cases hpeer : namesPeerSeat (h.stamp data) = true
    · rw [if_pos hpeer]
      obtain ⟨hdedupe, hparked, hreached⟩ :=
        route_forward { h with nextMsgId := h.nextMsgId + 1 } copy (h.stamp data) world
      refine ⟨hdedupe, ?_, ?_⟩
      · cases hparked with
        | refused reached handlers => exact .refused reached handlers
        | sending t copy accepted reached handlers => exact .sending t copy accepted reached handlers
        | enqueued t copy accepted reached handlers =>
          exact .enqueued t copy accepted reached handlers
      · intro hforwards
        apply hreached
        simpa [forwards, hchannel, hpeer] using hforwards
    · rw [if_neg hpeer]
      obtain ⟨hdedupe, hparked, hreached⟩ :=
        route_local { h with nextMsgId := h.nextMsgId + 1 } copy (h.stamp data) world
      refine ⟨hdedupe, ?_, fun _ => hreached⟩
      cases hparked with
      | refused reached handlers => exact .refused reached handlers
      | sending t copy accepted reached handlers => exact .sending t copy accepted reached handlers
      | enqueued t copy accepted reached handlers => exact .enqueued t copy accepted reached handlers
  · rw [if_pos hchannel]
    obtain ⟨hdedupe, hparked, hreached⟩ :=
      route_channel { h with nextMsgId := h.nextMsgId + 1 } copy (h.stamp data)
        (channelOf (h.stamp data)) world
    refine ⟨hdedupe, ?_, fun _ => hreached⟩
    cases hparked with
    | refused reached handlers => exact .refused reached handlers
    | sending t copy accepted reached handlers => exact .sending t copy accepted reached handlers
    | enqueued t copy accepted reached handlers => exact .enqueued t copy accepted reached handlers

theorem reached_finish (h : ChatHub) (number : Nat) (t : Handler) (delivered : Bool) :
    (h.finish number t delivered).reached = h.reached ∧
      (h.finish number t delivered).handlers = h.handlers.set number (t.enter .ended) := by
  unfold finish
  cases delivered <;> exact ⟨rfl, rfl⟩

theorem sent_moved (h : ChatHub) (number : Nat) (t : Handler) (successful : List String) :
    Moved number t successful h (h.sent number t successful) := by
  obtain ⟨copy, data, phase⟩ := t
  unfold sent
  cases hreaches : Handler.reaches ⟨copy, data, phase⟩ successful with
  | false =>
    dsimp only
    rw [if_neg Bool.false_ne_true]
    cases phase with
    | channel decision =>
      dsimp only
      split
      · exact .waits (.receipt false) rfl rfl rfl rfl rfl rfl
      · exact .waits .ended rfl rfl rfl rfl rfl rfl
    | fanout decision => exact .waits .ended rfl rfl rfl rfl rfl rfl
    | warning decision => exact .stays rfl
    | receipt delivered => exact .stays rfl
    | forwarding => exact .stays rfl
    | ended => exact .stays rfl
  | true =>
    dsimp only
    rw [if_pos rfl]
    cases phase with
    | channel decision =>
      dsimp only
      split
      · exact .delivers (.receipt true) hreaches rfl rfl rfl rfl (.inl ⟨rfl, rfl⟩)
      · obtain ⟨hreached, hhandlers⟩ :=
          reached_finish (h.reach copy data) number ⟨copy, data, .channel decision⟩ true
        exact .delivers .ended hreaches rfl rfl hreached hhandlers
          (.inr ⟨rfl, rfl⟩)
    | fanout decision =>
      obtain ⟨hreached, hhandlers⟩ :=
        reached_finish (h.reach copy data) number ⟨copy, data, .fanout decision⟩ true
      exact .delivers .ended hreaches rfl rfl hreached hhandlers
        (.inr ⟨rfl, rfl⟩)
    | warning decision => cases hreaches
    | receipt delivered => cases hreaches
    | forwarding => cases hreaches
    | ended => cases hreaches

theorem reported_moved (h : ChatHub) (number : Nat) (t : Handler) :
    Moved number t [] h (h.reported number t) := by
  obtain ⟨copy, data, phase⟩ := t
  cases phase with
  | warning decision => exact .waits (.fanout decision) rfl rfl rfl rfl rfl rfl
  | receipt delivered =>
    obtain ⟨hreached, hhandlers⟩ :=
      reached_finish h number ⟨copy, data, .receipt delivered⟩ delivered
    cases delivered with
    | false => exact .waits .ended rfl rfl rfl hreached hhandlers rfl
    | true => exact .remembers rfl hreached hhandlers rfl
  | forwarding =>
    obtain ⟨hreached, hhandlers⟩ := reached_finish h number ⟨copy, data, .forwarding⟩ true
    exact .remembers rfl hreached hhandlers rfl
  | channel decision => exact .stays rfl
  | fanout decision => exact .stays rfl
  | ended => exact .stays rfl

end ChatHub

namespace Kept

variable {k : String × String} {h : ChatHub}

omit [Builtins] in
theorem mem_filter {e : Reached} :
    e ∈ h.reached.filter (·.copy.key = k) ↔ e ∈ h.reached ∧ e.copy.key = k := by
  rw [List.mem_filter, decide_eq_true_iff]

/-- What is kept of a pair is about that pair alone. -/
theorem congr (hk : Kept k h) {h' : ChatHub}
    (hreached : h'.reached.filter (·.copy.key = k) = h.reached.filter (·.copy.key = k))
    (hhandlers : ∀ t : Handler, t.copy.key = k → (t ∈ h'.handlers ↔ t ∈ h.handlers))
    (hentry : h'.dedupe.entries.get? k = h.dedupe.entries.get? k) : Kept k h' := by
  have hmem : ∀ e : Reached, e.copy.key = k → (e ∈ h'.reached ↔ e ∈ h.reached) := by
    intro e he
    have hsame : e ∈ h'.reached.filter (·.copy.key = k) ↔ e ∈ h.reached.filter (·.copy.key = k) := by
      rw [hreached]
    rw [mem_filter, mem_filter] at hsame
    constructor
    · intro hold
      exact (hsame.mp ⟨hold, he⟩).1
    · intro hnew
      exact (hsame.mpr ⟨hnew, he⟩).1
  constructor
  · rw [hreached]
    exact hk.once
  · intro e he hkey
    rcases hk.backed e ((hmem e hkey).mp he) hkey with ⟨t, ht, haccepted, hcopy, hdata⟩ | hsome
    · left
      exact ⟨t, (hhandlers t (hcopy ▸ hkey)).mpr ht, haccepted, hcopy, hdata⟩
    · right
      rw [hentry]
      exact hsome
  · intro t ht hkey haccepted
    exact (hmem _ hkey).mpr (hk.accepted t ((hhandlers t hkey).mp ht) hkey haccepted)
  · intro e he hkey t ht htkey hflight
    exact hk.settled e ((hmem e hkey).mp he) hkey t ((hhandlers t htkey).mp ht) htkey hflight

/-- With no accepted copy there is nothing to keep beside the handlers. -/
theorem of_none (hnone : ∀ e ∈ h.reached, e.copy.key ≠ k)
    (hhandlers : ∀ t ∈ h.handlers, t.copy.key = k → t.accepted = false) : Kept k h := by
  have hempty : h.reached.filter (·.copy.key = k) = [] := by
    rw [List.filter_eq_nil_iff]
    intro e he hkey
    exact hnone e he (of_decide_eq_true hkey)
  constructor
  · rw [hempty]
    exact Nat.zero_le 1
  · intro e he hkey
    exact absurd hkey (hnone e he)
  · intro t ht hkey haccepted
    rw [hhandlers t ht hkey] at haccepted
    cases haccepted
  · intro e he hkey
    exact absurd hkey (hnone e he)

/-- The one accepted copy of the pair. -/
theorem unique (hk : Kept k h) {e e' : Reached} (he : e ∈ h.reached) (hkey : e.copy.key = k)
    (he' : e' ∈ h.reached) (hkey' : e'.copy.key = k) : e = e' := by
  have hmem : e ∈ h.reached.filter (·.copy.key = k) := mem_filter.mpr ⟨he, hkey⟩
  have hmem' : e' ∈ h.reached.filter (·.copy.key = k) := mem_filter.mpr ⟨he', hkey'⟩
  have honce := hk.once
  match hlist : h.reached.filter (·.copy.key = k) with
  | [] =>
    rw [hlist] at hmem
    cases hmem
  | [only] =>
    rw [hlist] at hmem hmem'
    rw [List.mem_singleton.mp hmem, List.mem_singleton.mp hmem']
  | _ :: _ :: _ =>
    rw [hlist] at honce
    simp at honce

/-! ### One step -/

theorem rememberCopy_self (d : ChatDedupe) {copy : Copy} (hid : copy.clientMsgId ≠ "")
    (data : Members) :
    (d.rememberCopy copy data).entries.get? copy.key =
      some ⟨copy.digest, copy.acceptedAt, recalled data⟩ := by
  unfold ChatDedupe.rememberCopy
  rw [if_neg hid]
  exact ChatDedupe.get?_remember_self _ _ _ _ _

/-- A pair's entry outlasts the remembering of others, unless it is evicted. -/
theorem rememberCopy_ne (d : ChatDedupe) {copy : Copy} (hne : copy.key ≠ k) (data : Members)
    (hkept : (d.entries.get? k).isSome → ((d.rememberCopy copy data).entries.get? k).isSome) :
    (d.rememberCopy copy data).entries.get? k = d.entries.get? k := by
  unfold ChatDedupe.rememberCopy at hkept ⊢
  by_cases hid : copy.clientMsgId = ""
  · rw [if_pos hid]
  · rw [if_neg hid] at hkept ⊢
    cases hnew : (d.remember copy.key copy.digest data copy.acceptedAt).entries.get? k with
    | some entry => exact (ChatDedupe.get?_remember_ne _ (Ne.symm hne) hnew).symm
    | none =>
      rw [hnew] at hkept
      cases hold : d.entries.get? k with
      | none => rfl
      | some entry =>
        rw [hold] at hkept
        cases hkept rfl

/-- A retry within the window of an accepted copy is answered from it. -/
theorem verdict_accepted {copy : Copy} (hid : copy.clientMsgId ≠ "") {entry : Entry}
    (hentry : h.dedupe.entries.get? copy.key = some entry)
    (hwindow : h.dedupe.expired entry.acceptedAt copy.acceptedAt = false) :
    h.verdict copy =
      if entry.digest ≠ copy.digest then .conflict else .duplicate entry.frame := by
  unfold ChatHub.verdict ChatDedupe.check
  rw [if_neg hid, hentry]
  dsimp only
  rw [hwindow]
  rfl

/-- A copy that is new beside an accepted one of its pair is looked up while
the accepted one is not remembered yet. -/
theorem no_accepted (hk : Kept k h) {copy : Copy} (hid : copy.clientMsgId ≠ "")
    (hkey : copy.key = k) (hnew : h.verdict copy = .new)
    (hwindow : ∀ e ∈ h.reached, e.copy.key = k →
      h.dedupe.expired e.copy.acceptedAt copy.acceptedAt = false)
    (hwaiting : ∀ t ∈ h.handlers, t.copy.key = k → t.accepted = false) :
    ∀ e ∈ h.reached, e.copy.key ≠ k := by
  intro e he hekey
  rcases hk.backed e he hekey with ⟨t, ht, haccepted, hcopy, -⟩ | hentry
  · rw [hwaiting t ht (hcopy ▸ hekey)] at haccepted
    cases haccepted
  · rw [← hkey] at hentry
    rw [verdict_accepted hid hentry (hwindow e he hekey)] at hnew
    split at hnew <;> cases hnew

theorem parked (hk : Kept k h) {copy : Copy} {h' : ChatHub} (hparked : Parked copy h h')
    (hdedupe : h'.dedupe = h.dedupe)
    (hfresh : copy.key = k → ∀ e ∈ h.reached, e.copy.key ≠ k)
    (hwaiting : copy.key = k → ∀ t ∈ h.handlers, t.copy.key = k →
      t.accepted = false ∧ (h'.reached ≠ h.reached → t.inFlight = false)) : Kept k h' := by
  by_cases hkey : copy.key = k
  · have hwait := hwaiting hkey
    have hnone := hfresh hkey
    cases hparked with
    | refused reached handlers => exact hk.congr (by rw [reached]) (by simp [handlers]) (by rw [hdedupe])
    | sending t hcopy haccepted reached handlers =>
      apply of_none
      · rw [reached]
        exact hnone
      · intro u hu hukey
        rw [handlers] at hu
        rcases List.mem_append.mp hu with hu | hu
        · exact (hwait u hu hukey).1
        · rw [List.mem_singleton.mp hu]
          exact haccepted
    | enqueued t hcopy haccepted reached handlers =>
      have hnew : h'.reached ≠ h.reached := by
        rw [reached]
        simp
      have hhandlers : ∀ u ∈ h'.handlers, u ∈ h.handlers ∨ u = t := by
        intro u hu
        rw [handlers] at hu
        rcases List.mem_append.mp hu with hu | hu
        · exact .inl hu
        · exact .inr (List.mem_singleton.mp hu)
      have hreached : ∀ e ∈ h'.reached, e.copy.key = k → e = ⟨t.copy, t.data⟩ := by
        intro e he hekey
        rw [reached] at he
        rcases List.mem_append.mp he with he | he
        · exact absurd hekey (hnone e he)
        · exact List.mem_singleton.mp he
      have hempty : h.reached.filter (·.copy.key = k) = [] := by
        rw [List.filter_eq_nil_iff]
        intro e he hekey
        exact hnone e he (of_decide_eq_true hekey)
      constructor
      · rw [reached, List.filter_append, hempty]
        exact List.length_filter_le _ _
      · intro e he hekey
        left
        rw [hreached e he hekey]
        refine ⟨t, ?_, haccepted, rfl, rfl⟩
        rw [handlers]
        exact List.mem_append_right _ (List.mem_singleton_self t)
      · intro u hu hukey huaccepted
        rcases hhandlers u hu with hu | rfl
        · rw [(hwait u hu hukey).1] at huaccepted
          cases huaccepted
        · rw [reached]
          exact List.mem_append_right _ (List.mem_singleton_self _)
      · intro e he hekey u hu hukey hflight
        rcases hhandlers u hu with hu | rfl
        · rw [(hwait u hu hukey).2 hnew] at hflight
          cases hflight
        · exact haccepted
  · have happend : ∀ (t u : Handler), t.copy = copy → u.copy.key = k →
        (u ∈ h.handlers ++ [t] ↔ u ∈ h.handlers) := by
      intro t u hcopy hukey
      rw [List.mem_append, List.mem_singleton]
      constructor
      · rintro (hu | rfl)
        · exact hu
        · exact absurd (hcopy ▸ hukey) hkey
      · exact .inl
    cases hparked with
    | refused reached handlers => exact hk.congr (by rw [reached]) (by simp [handlers]) (by rw [hdedupe])
    | sending t hcopy haccepted reached handlers =>
      apply hk.congr
      · rw [reached]
      · intro u hukey
        rw [handlers]
        exact happend t u hcopy hukey
      · rw [hdedupe]
    | enqueued t hcopy haccepted reached handlers =>
      apply hk.congr
      · rw [reached, List.filter_append]
        have hother : ([⟨t.copy, t.data⟩] : List Reached).filter (·.copy.key = k) = [] := by
          simp [hcopy, hkey]
        rw [hother, List.append_nil]
      · intro u hukey
        rw [handlers]
        exact happend t u hcopy hukey
      · rw [hdedupe]

/-- A handler of another pair moves. -/
theorem other {number : Nat} {t : Handler} {phase : Phase} {h' : ChatHub} (hk : Kept k h)
    (hget : h.handlers[number]? = some t) (hkey : t.copy.key ≠ k)
    (hreached : h'.reached = h.reached ∨ h'.reached = h.reached ++ [⟨t.copy, t.data⟩])
    (hhandlers : h'.handlers = h.handlers.set number (t.enter phase))
    (hdedupe : h'.dedupe = h.dedupe ∨ h'.dedupe = h.dedupe.rememberCopy t.copy t.data)
    (hkept : (h.dedupe.entries.get? k).isSome → (h'.dedupe.entries.get? k).isSome) :
    Kept k h' := by
  apply hk.congr
  · rcases hreached with hsame | hnew
    · rw [hsame]
    · rw [hnew, List.filter_append]
      have hother : ([⟨t.copy, t.data⟩] : List Reached).filter (·.copy.key = k) = [] := by
        simp [hkey]
      rw [hother, List.append_nil]
  · intro u hukey
    rw [hhandlers]
    constructor
    · intro hu
      rcases Slots.mem_set_cases hu with rfl | hu
      · exact absurd hukey hkey
      · exact List.mem_of_mem_eraseIdx hu
    · intro hu
      apply Slots.mem_set_of_ne hget hu
      rintro rfl
      exact hkey hukey
  · rcases hdedupe with hsame | hnew
    · rw [hsame]
    · rw [hnew] at hkept ⊢
      exact rememberCopy_ne h.dedupe hkey t.data hkept

/-- A handler that has reached nobody waits on, or ends. -/
theorem waits {number : Nat} {t : Handler} {phase : Phase} {h' : ChatHub} (hk : Kept k h)
    (hget : h.handlers[number]? = some t) (hunaccepted : phase.accepted = false)
    (hwaiting : t.accepted = false) (hflight : t.inFlight = true ∨ phase = .ended)
    (hreached : h'.reached = h.reached)
    (hhandlers : h'.handlers = h.handlers.set number (t.enter phase))
    (hdedupe : h'.dedupe = h.dedupe) : Kept k h' := by
  have ht : t ∈ h.handlers := List.mem_of_getElem? hget
  constructor
  · rw [hreached]
    exact hk.once
  · intro e he hekey
    rw [hreached] at he
    rcases hk.backed e he hekey with ⟨u, hu, haccepted, hcopy, hdata⟩ | hentry
    · left
      refine ⟨u, ?_, haccepted, hcopy, hdata⟩
      rw [hhandlers]
      apply Slots.mem_set_of_ne hget hu
      rintro rfl
      rw [hwaiting] at haccepted
      cases haccepted
    · right
      rw [hdedupe]
      exact hentry
  · intro u hu hukey huaccepted
    rw [hhandlers] at hu
    rw [hreached]
    rcases Slots.mem_set_cases hu with rfl | hu
    · rw [show Handler.accepted (t.enter phase) = false from hunaccepted] at huaccepted
      cases huaccepted
    · exact hk.accepted u (List.mem_of_mem_eraseIdx hu) hukey huaccepted
  · intro e he hekey u hu hukey huflight
    rw [hreached] at he
    rw [hhandlers] at hu
    rcases Slots.mem_set_cases hu with rfl | hu
    · rcases hflight with hflight | rfl
      · have haccepted := hk.settled e he hekey t ht hukey hflight
        rw [hwaiting] at haccepted
        cases haccepted
      · cases huflight
    · exact hk.settled e he hekey u (List.mem_of_mem_eraseIdx hu) hukey huflight

/-- A handler whose copy reaches a recipient while no other copy of the pair
is in flight. -/
theorem delivers {number : Nat} {t : Handler} {phase : Phase} {h' : ChatHub} (hk : Kept k h)
    (hid : k.2 ≠ "") (hkey : t.copy.key = k) (hget : h.handlers[number]? = some t)
    (hwaiting : t.accepted = false) (hflight : t.inFlight = true)
    (halone : ∀ other ∈ h.handlers.eraseIdx number, other.copy.key = k → other.inFlight = false)
    (hreached : h'.reached = h.reached ++ [⟨t.copy, t.data⟩])
    (hhandlers : h'.handlers = h.handlers.set number (t.enter phase))
    (hafter : phase.accepted = true ∧ h'.dedupe = h.dedupe ∨
      phase = .ended ∧ h'.dedupe = h.dedupe.rememberCopy t.copy t.data) : Kept k h' := by
  have ht : t ∈ h.handlers := List.mem_of_getElem? hget
  have hnone : ∀ e ∈ h.reached, e.copy.key ≠ k := by
    intro e he hekey
    have haccepted := hk.settled e he hekey t ht hkey hflight
    rw [hwaiting] at haccepted
    cases haccepted
  have hempty : h.reached.filter (·.copy.key = k) = [] := by
    rw [List.filter_eq_nil_iff]
    intro e he hekey
    exact hnone e he (of_decide_eq_true hekey)
  have honly : ∀ e ∈ h'.reached, e.copy.key = k → e = ⟨t.copy, t.data⟩ := by
    intro e he hekey
    rw [hreached] at he
    rcases List.mem_append.mp he with he | he
    · exact absurd hekey (hnone e he)
    · exact List.mem_singleton.mp he
  have halone' : ∀ u ∈ h'.handlers, u.copy.key = k → u.inFlight = true → u = t.enter phase := by
    intro u hu hukey huflight
    rw [hhandlers] at hu
    rcases Slots.mem_set_cases hu with rfl | hu
    · rfl
    · rw [halone u hu hukey] at huflight
      cases huflight
  constructor
  · rw [hreached, List.filter_append, hempty]
    exact List.length_filter_le _ _
  · intro e he hekey
    rw [honly e he hekey]
    rcases hafter with ⟨haccepted, -⟩ | ⟨-, hdedupe⟩
    · left
      refine ⟨t.enter phase, ?_, haccepted, rfl, rfl⟩
      rw [hhandlers]
      exact Slots.mem_set_self hget
    · right
      rw [hdedupe, ← hkey]
      apply rememberCopy_self
      rw [← hkey] at hid
      exact hid
  · intro u hu hukey huaccepted
    rw [halone' u hu hukey (Handler.inFlight_of_accepted huaccepted), hreached]
    exact List.mem_append_right _ (List.mem_singleton_self _)
  · intro e he hekey u hu hukey huflight
    have hsame := halone' u hu hukey huflight
    rcases hafter with ⟨haccepted, -⟩ | ⟨hended, -⟩
    · rw [hsame]
      exact haccepted
    · rw [hsame, hended] at huflight
      cases huflight

/-- A handler remembers the copy that has reached a recipient. -/
theorem remembers {number : Nat} {t : Handler} {h' : ChatHub} (hk : Kept k h) (hid : k.2 ≠ "")
    (hkey : t.copy.key = k) (hget : h.handlers[number]? = some t) (haccepted : t.accepted = true)
    (hreached : h'.reached = h.reached)
    (hhandlers : h'.handlers = h.handlers.set number (t.enter .ended))
    (hdedupe : h'.dedupe = h.dedupe.rememberCopy t.copy t.data) : Kept k h' := by
  have hmine : ⟨t.copy, t.data⟩ ∈ h.reached :=
    hk.accepted t (List.mem_of_getElem? hget) hkey haccepted
  have hold : ∀ u ∈ h'.handlers, u.inFlight = true → u ∈ h.handlers := by
    intro u hu huflight
    rw [hhandlers] at hu
    rcases Slots.mem_set_cases hu with rfl | hu
    · cases huflight
    · exact List.mem_of_mem_eraseIdx hu
  constructor
  · rw [hreached]
    exact hk.once
  · intro e he hekey
    right
    rw [hreached] at he
    rw [hk.unique he hekey hmine hkey, hdedupe, ← hkey]
    apply rememberCopy_self
    rw [← hkey] at hid
    exact hid
  · intro u hu hukey huaccepted
    rw [hreached]
    exact hk.accepted u (hold u hu (Handler.inFlight_of_accepted huaccepted)) hukey huaccepted
  · intro e he hekey u hu hukey huflight
    rw [hreached] at he
    exact hk.settled e he hekey u (hold u hu huflight) hukey huflight

theorem moved {number : Nat} {t : Handler} {successful : List String} {h' : ChatHub}
    (hk : Kept k h) (hid : k.2 ≠ "") (hget : h.handlers[number]? = some t)
    (hmoved : Moved number t successful h h')
    (hkept : (h.dedupe.entries.get? k).isSome → (h'.dedupe.entries.get? k).isSome)
    (halone : t.copy.key = k → t.reaches successful = true →
      ∀ other ∈ h.handlers.eraseIdx number, other.copy.key = k → other.inFlight = false) :
    Kept k h' := by
  by_cases hkey : t.copy.key = k
  · cases hmoved with
    | stays same => exact same ▸ hk
    | waits phase unaccepted waiting flight reached handlers dedupe =>
      exact hk.waits hget unaccepted waiting (.inl flight) reached handlers dedupe
    | delivers phase reaches waiting flight reached handlers after =>
      exact hk.delivers hid hkey hget waiting flight (halone hkey reaches) reached handlers after
    | remembers accepted reached handlers dedupe =>
      exact hk.remembers hid hkey hget accepted reached handlers dedupe
  · cases hmoved with
    | stays same => exact same ▸ hk
    | waits phase unaccepted waiting flight reached handlers dedupe =>
      exact hk.other hget hkey (.inl reached) handlers (.inl dedupe) hkept
    | delivers phase reaches waiting flight reached handlers after =>
      have hdedupe : h'.dedupe = h.dedupe ∨ h'.dedupe = h.dedupe.rememberCopy t.copy t.data := by
        rcases after with ⟨-, hsame⟩ | ⟨-, hnew⟩
        · exact .inl hsame
        · exact .inr hnew
      exact hk.other hget hkey (.inr reached) handlers hdedupe hkept
    | remembers accepted reached handlers dedupe =>
      exact hk.other hget hkey (.inl reached) handlers (.inr dedupe) hkept

theorem cut {number : Nat} {t : Handler} {successful : List String} (hk : Kept k h)
    (hget : h.handlers[number]? = some t)
    (hlost : t.copy.key = k → t.reaches successful = false ∧ t.accepted = false) :
    Kept k (h.cut number t successful) := by
  unfold ChatHub.cut
  by_cases hkey : t.copy.key = k
  · obtain ⟨hreaches, hwaiting⟩ := hlost hkey
    rw [hreaches]
    exact hk.waits hget rfl hwaiting (.inr rfl) rfl rfl rfl
  · cases hreaches : t.reaches successful with
    | false => exact hk.other hget hkey (.inl rfl) rfl (.inl rfl) id
    | true => exact hk.other hget hkey (.inr rfl) rfl (.inl rfl) id

theorem chat {sender : String} {data : Members} {now : Float} {world : World} (hk : Kept k h)
    (hid : k.2 ≠ "") (hwithin : Within k h (.chat sender data now world))
    (hundisturbed : Undisturbed k h (.chat sender data now world)) :
    Kept k (h.chat sender data now world) := by
  unfold ChatHub.chat
  by_cases herror : world.responseError.isSome = true
  · rw [if_pos herror]
    exact hk
  · rw [if_neg herror]
    have hlooked : (ChatStep.chat sender data now world).lookedUp =
        some (admitted sender data now) := if_neg herror
    cases hadmitted : admitted sender data now with
    | mk copy data' =>
    rw [hadmitted] at hlooked
    dsimp only
    split
    · rename_i hnew
      by_cases hquota : world.quota.isSome = true
      · rw [if_pos hquota]
        exact hk
      · rw [if_neg hquota]
        obtain ⟨hdedupe, hparked, hforwards⟩ := ChatHub.route_parked h copy data' world
        have hwaiting : copy.key = k → ∀ t ∈ h.handlers, t.copy.key = k →
            t.accepted = false ∧ (forwards (h.stamp data') world = true → t.inFlight = false) :=
          fun hkey => hundisturbed (copy, data') hlooked hkey
        apply hk.parked hparked hdedupe
        · intro hkey
          apply hk.no_accepted _ hkey hnew
          · intro e he hekey
            exact hwithin.window (copy, data') hlooked hkey e he hekey
          · intro t ht htkey
            exact (hwaiting hkey t ht htkey).1
          · rw [← hkey] at hid
            exact hid
        · intro hkey t ht htkey
          obtain ⟨haccepted, hflight⟩ := hwaiting hkey t ht htkey
          refine ⟨haccepted, fun hnew => hflight ?_⟩
          cases hforward : forwards (h.stamp data') world with
          | true => rfl
          | false => exact absurd (hforwards hforward) hnew
    · exact hk.congr rfl (fun _ _ => Iff.rfl) rfl

theorem step (hk : Kept k h) (hid : k.2 ≠ "") {s : ChatStep} (hwithin : Within k h s)
    (hundisturbed : Undisturbed k h s) : Kept k (h.step s) := by
  cases s with
  | chat sender data now world => exact hk.chat hid hwithin hundisturbed
  | sent number successful =>
    cases hget : h.handlers[number]? with
    | none =>
      rw [show h.step (.sent number successful) = h by simp [ChatHub.step, hget]]
      exact hk
    | some t =>
      have hstep : h.step (.sent number successful) = h.sent number t successful := by
        simp [ChatHub.step, hget]
      rw [hstep]
      apply hk.moved hid hget (ChatHub.sent_moved h number t successful)
      · exact hstep ▸ hwithin.kept
      · exact hundisturbed t hget
  | reported number =>
    cases hget : h.handlers[number]? with
    | none =>
      rw [show h.step (.reported number) = h by simp [ChatHub.step, hget]]
      exact hk
    | some t =>
      have hstep : h.step (.reported number) = h.reported number t := by
        simp [ChatHub.step, hget]
      rw [hstep]
      apply hk.moved hid hget (ChatHub.reported_moved h number t)
      · exact hstep ▸ hwithin.kept
      · intro _ hreaches
        rw [Handler.reaches_nil] at hreaches
        cases hreaches
  | cut number successful =>
    cases hget : h.handlers[number]? with
    | none =>
      rw [show h.step (.cut number successful) = h by simp [ChatHub.step, hget]]
      exact hk
    | some t =>
      rw [show h.step (.cut number successful) = h.cut number t successful by
        simp [ChatHub.step, hget]]
      exact hk.cut hget (hundisturbed t hget)

/-- A retry of an accepted copy that is not being settled is answered from
its stored outcome. -/
theorem answered (hk : Kept k h) {e : Reached} (he : e ∈ h.reached) (hekey : e.copy.key = k)
    (hwaiting : ∀ t ∈ h.handlers, t.copy.key = k → t.accepted = false) {copy : Copy}
    (hid : copy.clientMsgId ≠ "") (hkey : copy.key = k)
    (hwindow : h.dedupe.expired e.copy.acceptedAt copy.acceptedAt = false) :
    h.verdict copy =
      if e.copy.digest ≠ copy.digest then .conflict else .duplicate (recalled e.data) := by
  rcases hk.backed e he hekey with ⟨t, ht, haccepted, hcopy, -⟩ | hentry
  · rw [hwaiting t ht (hcopy ▸ hekey)] at haccepted
    cases haccepted
  · rw [← hkey] at hentry
    exact verdict_accepted hid hentry hwindow

end Kept

/-- A looked-up copy of an accepted chat gets the stored outcome, and one
that says something else is refused. -/
def Answered (e : Reached) (h : ChatHub) : ChatStep → Prop
  | .chat sender data now world =>
    ∀ c ∈ (ChatStep.chat sender data now world).lookedUp, c.1.key = e.copy.key →
      (c.1.content = e.copy.content →
        h.step (.chat sender data now world) = h.answer c.1 (.duplicate (recalled e.data))) ∧
      (c.1.content ≠ e.copy.content → NoCollision [c.1.content, e.copy.content] →
        h.step (.chat sender data now world) = h.answer c.1 .conflict)
  | _ => True

theorem Kept.answers {k : String × String} {h : ChatHub} (hk : Kept k h) (hid : k.2 ≠ "")
    {s : ChatStep} (hwithin : Within k h s) (hundisturbed : Undisturbed k h s) {e : Reached}
    (he : e ∈ h.reached) (hekey : e.copy.key = k) : Answered e h s := by
  cases s with
  | chat sender data now world =>
    rintro ⟨copy, data'⟩ hc hkey
    rw [hekey] at hkey
    have hlooked : (if world.responseError.isSome then none else some (admitted sender data now)) =
        some (copy, data') := hc
    have herror : ¬ world.responseError.isSome = true := by
      intro herror
      rw [if_pos herror] at hlooked
      cases hlooked
    rw [if_neg herror, Option.some.injEq] at hlooked
    have hverdict : h.verdict copy =
        if e.copy.digest ≠ copy.digest then .conflict else .duplicate (recalled e.data) := by
      apply hk.answered he hekey
      · intro t ht htkey
        exact (hundisturbed (copy, data') hc hkey t ht htkey).1
      · rw [← hkey] at hid
        exact hid
      · exact hkey
      · exact hwithin.window (copy, data') hc hkey e he hekey
    constructor
    · intro hsame
      have hdigest : ¬ e.copy.digest ≠ copy.digest := by
        rw [Copy.digest, Copy.digest, show copy.content = e.copy.content from hsame]
        exact not_not.mpr rfl
      show h.chat sender data now world = _
      unfold ChatHub.chat
      rw [if_neg herror, hlooked]
      dsimp only
      rw [hverdict, if_neg hdigest]
    · intro hother hcollision
      have hdigest : e.copy.digest ≠ copy.digest := by
        intro hsame
        apply hother
        apply hcollision
        · exact List.mem_cons_self
        · exact List.mem_cons_of_mem _ List.mem_cons_self
        · exact hsame.symm
      show h.chat sender data now world = _
      unfold ChatHub.chat
      rw [if_neg herror, hlooked]
      dsimp only
      rw [hverdict, if_pos hdigest]
  | sent number successful => trivial
  | reported number => trivial
  | cut number successful => trivial

/-- Copies of one client id, within the window and the capacity of the memory. -/
theorem chat_delivered_once {k : String × String} (hid : k.2 ≠ "") (hubId : String)
    (dedupe : ChatDedupe) (steps : List ChatStep)
    (hwithin : Trace.Every ChatHub.step (Within k) { hubId, dedupe } steps)
    (hundisturbed : Trace.Every ChatHub.step (Undisturbed k) { hubId, dedupe } steps) :
    ((Trace.run ChatHub.step { hubId, dedupe } steps).reached.filter (·.copy.key = k)).length ≤ 1 ∧
      Trace.Every ChatHub.step (fun h s => ∀ e ∈ h.reached, e.copy.key = k → Answered e h s)
        { hubId, dedupe } steps := by
  have hinit : Kept k { hubId, dedupe } := by
    apply Kept.of_none
    · intro e he
      cases he
    · intro t ht
      cases ht
  have hrun := Trace.every_invariant ChatHub.step (I := Kept k)
    (P := fun h s => Within k h s ∧ Undisturbed k h s)
    (Q := fun h s => ∀ e ∈ h.reached, e.copy.key = k → Answered e h s)
    (fun h s hk hcall => hk.step hid hcall.1 hcall.2)
    (fun h s hk hcall e he hekey => hk.answers hid hcall.1 hcall.2 he hekey)
    hinit (hwithin.and ChatHub.step hundisturbed)
  exact ⟨hrun.1.once, hrun.2⟩

/-! ## Two copies in flight -/

omit [Builtins]

/-- BOB is online and live, and nothing is refused. -/
def calm : World where
  responseError := none
  quota := none
  seq := .ok none
  members _ := none
  recipients _ := ["BOB"]
  stale _ := []
  forward _ := none

def hello : Members :=
  [("target", .str "BOB"), ("payload", .str "hello"), ("client_msg_id", .str "m1")]

/-- A chat and its retry after the first copy is delivered. -/
def retried : List ChatStep :=
  [.chat "ALICE" hello 1 calm, .sent 0 ["BOB"], .chat "ALICE" hello 2 calm]

/-- The retry comes while the first copy is sent. -/
def overlapping : List ChatStep :=
  [.chat "ALICE" hello 1 calm, .chat "ALICE" hello 2 calm, .sent 0 ["BOB"], .sent 1 ["BOB"]]

theorem chat_delivered_once_retried :
    letI := Builtins.ascii
    ((Trace.run ChatHub.step { hubId := "h", dedupe := .standard } retried).reached.filter
        (·.copy.key = ("ALICE", "m1"))).length ≤ 1 ∧
      Trace.Every ChatHub.step
        (fun h s => ∀ e ∈ h.reached, e.copy.key = ("ALICE", "m1") → Answered e h s)
        { hubId := "h", dedupe := .standard } retried := by
  exact @chat_delivered_once Builtins.ascii ("ALICE", "m1") (by decide) "h" .standard retried
    (by decide +kernel) (by decide +kernel)

theorem overlapping_copies_delivered :
    letI := Builtins.ascii
    ¬ ∀ steps, Trace.Every ChatHub.step (Within ("ALICE", "m1"))
        { hubId := "h", dedupe := .standard } steps →
      ((Trace.run ChatHub.step { hubId := "h", dedupe := .standard } steps).reached.filter
        (·.copy.key = ("ALICE", "m1"))).length ≤ 1 := by
  intro honce
  have htwice := honce overlapping (by decide +kernel)
  revert htwice
  decide +kernel

end SynapseChannel.Chat
