import SynapseChannel.Core.MessageForward

/-!
# Core — ForwardOnce

A forwarded chat is routed once while no other handler of its id runs
between the look-up and the stored answer, and no handler that routed ends
without storing it.
-/

namespace SynapseChannel.Forward

open Py Outcome

def Task.key (t : Task) : String × String := (t.peer, t.request.forwardId)

theorem Task.acts_id (t : Task) (id : Nat) (outcome : Except Refused (Option Members × Members)) :
    (t.acts id outcome).id = t.id := by
  unfold acts
  split <;> rfl

theorem Task.acts_key (t : Task) (id : Nat) (outcome : Except Refused (Option Members × Members)) :
    (t.acts id outcome).key = t.key := by
  unfold acts
  split <;> rfl

def Routed.key (entry : Routed) : String × String := (entry.peer, entry.request.forwardId)

/-- The payload of the chat a handler has routed. -/
def Task.verdict (t : Task) : Option Members :=
  match t.outcome with
  | some (.ok (some _, payload)) => some payload
  | _ => none

theorem Task.verdict_eq {t : Task} {chat payload : Members}
    (h : t.outcome = some (.ok (some chat, payload))) : t.verdict = some payload := by
  unfold verdict
  rw [h]

variable [Builtins]

/-- The forward is answered from its stored row. -/
def Recorded (r : Receiver) (entry : Routed) : Prop :=
  ∃ encoded, encodeMessageForwardResult (r.accepted entry.request entry.payload) = .ok encoded ∧
    r.inbound.get? entry.key = some ⟨requestDigest entry.request.fields, encoded⟩

/-- A request is looked up while no handler of its id runs, and no handler
that routed a chat ends before its answer is stored. -/
def Undisturbed (r : Receiver) : Step → Prop
  | .receive peer frame => ∀ request ∈ (decodeMessageForwardRequest frame).toOption,
      ∀ t ∈ r.tasks, t.key ≠ (peer, request.forwardId)
  | .act _ _ => True
  | .answer id => ∀ t ∈ r.tasks, t.id = id → ∀ payload ∈ t.verdict,
      (encodeMessageForwardResult (r.accepted t.request payload)).toOption.isSome
  | .lost id => ∀ t ∈ r.tasks, t.id = id → t.verdict = none
  | .restart => (r.durable = true ∨ r.routed = []) ∧ ∀ t ∈ r.tasks, t.verdict = none

instance (r : Receiver) (s : Step) : Decidable (Undisturbed r s) :=
  match s with
  | .receive .. => inferInstanceAs (Decidable (∀ request ∈ Except.toOption _, _))
  | .act .. => inferInstanceAs (Decidable True)
  | .answer _ => inferInstanceAs (Decidable (∀ t ∈ r.tasks, _))
  | .lost _ => inferInstanceAs (Decidable (∀ t ∈ r.tasks, _))
  | .restart => inferInstanceAs (Decidable (_ ∧ _))

/-- What an undisturbed run keeps. -/
structure Once (r : Receiver) : Prop where
  ids : (r.tasks.map Task.id).Nodup
  next : ∀ t ∈ r.tasks, t.id < r.nextTask
  keys : (r.tasks.map Task.key).Nodup
  pending : ∀ t ∈ r.tasks, r.inbound.get? t.key = none
  routed : (r.routed.map Routed.key).Nodup
  accounted : ∀ entry ∈ r.routed, Recorded r entry ∨ ∃ t ∈ r.tasks, t.peer = entry.peer ∧
    t.request = entry.request ∧ t.outcome = some (.ok (some entry.chat, entry.payload))

namespace Once

variable {r : Receiver}

theorem init (hubId : String) (durable : Bool) : Once { hubId, durable } := by
  constructor
  · exact List.nodup_nil
  · intro t ht
    cases ht
  · exact List.nodup_nil
  · intro t ht
    cases ht
  · exact List.nodup_nil
  · intro entry hentry
    cases hentry

theorem eq_of_id (h : Once r) {t u : Task} (ht : t ∈ r.tasks) (hu : u ∈ r.tasks)
    (hid : t.id = u.id) : t = u := List.inj_on_of_nodup_map h.ids ht hu hid

theorem eq_of_key (h : Once r) {t u : Task} (ht : t ∈ r.tasks) (hu : u ∈ r.tasks)
    (hkey : t.key = u.key) : t = u := List.inj_on_of_nodup_map h.keys ht hu hkey

theorem not_routed (h : Once r) {t : Task} (ht : t ∈ r.tasks) (hroutes : t.verdict = none) :
    t.key ∉ r.routed.map Routed.key := by
  intro hmem
  obtain ⟨entry, hentry, hkey⟩ := List.mem_map.mp hmem
  rcases h.accounted entry hentry with ⟨encoded, -, hstored⟩ | ⟨u, hu, hpeer, hrequest, houtcome⟩
  · rw [hkey, h.pending t ht] at hstored
    cases hstored
  · have hsame : u.key = t.key := by
      rw [← hkey, Task.key, hpeer, hrequest, Routed.key]
    rw [h.eq_of_key hu ht hsame] at houtcome
    rw [Task.verdict_eq houtcome] at hroutes
    cases hroutes

theorem receive (h : Once r) {peer : String} {frame : Json}
    (hundisturbed : Undisturbed r (.receive peer frame)) : Once (r.receive peer frame).1 := by
  unfold Receiver.receive
  cases hrequest : decodeMessageForwardRequest frame with
  | error e => exact h
  | ok request =>
    dsimp only
    rw [encode_decoded hrequest]
    dsimp only
    unfold Receiver.lookUp
    cases hstored : r.inbound.get? (peer, request.forwardId) with
    | some stored =>
      dsimp only
      split
      · exact h
      · split <;> exact h
    | none =>
      have hfresh := hundisturbed request (by rw [hrequest]; rfl)
      constructor
      · show ((r.tasks ++ [_]).map Task.id).Nodup
        rw [List.map_append, List.map_singleton, ← List.concat_eq_append]
        refine h.ids.concat ?_
        intro hmem
        obtain ⟨t, ht, hid⟩ := List.mem_map.mp hmem
        have hlt : t.id < r.nextTask := h.next t ht
        change t.id = r.nextTask at hid
        omega
      · intro t ht
        show t.id < r.nextTask + 1
        rcases List.mem_append.mp ht with ht | ht
        · exact Nat.lt_succ_of_lt (h.next t ht)
        · rw [List.mem_singleton.mp ht]
          exact Nat.lt_succ_self _
      · show ((r.tasks ++ [_]).map Task.key).Nodup
        rw [List.map_append, List.map_singleton, ← List.concat_eq_append]
        refine h.keys.concat ?_
        intro hmem
        obtain ⟨t, ht, hkey⟩ := List.mem_map.mp hmem
        exact hfresh t ht hkey
      · intro t ht
        rcases List.mem_append.mp ht with ht | ht
        · exact h.pending t ht
        · rw [List.mem_singleton.mp ht]
          exact hstored
      · exact h.routed
      · intro entry hentry
        rcases h.accounted entry hentry with hrecorded | ⟨t, ht, hrest⟩
        · exact .inl hrecorded
        · exact .inr ⟨t, List.mem_append_left _ ht, hrest⟩

/-- The handler that acts is the only one of its number. -/
theorem actOn (h : Once r) (id : Nat) (s : Surroundings) : Once (r.actOn id s) := by
  unfold Receiver.actOn
  cases hfind : r.tasks.find? fun t => t.id == id && t.outcome.isNone with
  | none => exact h
  | some t =>
    have ht : t ∈ r.tasks := List.mem_of_find?_eq_some hfind
    have hmatch := List.find?_some hfind
    simp only [Bool.and_eq_true, beq_iff_eq, Option.isNone_iff_eq_none] at hmatch
    obtain ⟨hid, hnone⟩ := hmatch
    have hroutes : t.verdict = none := by
      unfold Task.verdict
      rw [hnone]
    -- the chats routed so far, and the handlers they wait for, are of other numbers
    have hold : ∀ entry ∈ r.routed, Recorded r entry ∨ ∃ u ∈ r.tasks.map (Task.acts id (act s t.peer t.request)),
        u.peer = entry.peer ∧ u.request = entry.request ∧
          u.outcome = some (.ok (some entry.chat, entry.payload)) := by
      intro entry hentry
      rcases h.accounted entry hentry with hrecorded | ⟨u, hu, hpeer, hrequest, houtcome⟩
      · exact .inl hrecorded
      · have hother : u.id ≠ id := by
          intro heq
          rw [h.eq_of_id hu ht (heq.trans hid.symm), hnone] at houtcome
          cases houtcome
        refine .inr ⟨u, List.mem_map.mpr ⟨u, hu, if_neg hother⟩, hpeer, hrequest, houtcome⟩
    constructor
    · show ((r.tasks.map _).map Task.id).Nodup
      rw [List.map_map, List.map_congr_left fun u _ => u.acts_id id _]
      exact h.ids
    · intro u hu
      obtain ⟨v, hv, rfl⟩ := List.mem_map.mp hu
      rw [v.acts_id]
      exact h.next v hv
    · show ((r.tasks.map _).map Task.key).Nodup
      rw [List.map_map, List.map_congr_left fun u _ => u.acts_key id _]
      exact h.keys
    · intro u hu
      obtain ⟨v, hv, rfl⟩ := List.mem_map.mp hu
      rw [v.acts_key]
      exact h.pending v hv
    · dsimp only
      split
      · rw [List.map_append, List.map_singleton, ← List.concat_eq_append]
        exact h.routed.concat (h.not_routed ht hroutes)
      · exact h.routed
    · dsimp only
      split
      · rename_i chat payload houtcome
        intro entry hentry
        rcases List.mem_append.mp hentry with hentry | hentry
        · exact hold entry hentry
        · rw [List.mem_singleton.mp hentry]
          refine .inr ⟨_, List.mem_map.mpr ⟨t, ht, if_pos hid⟩, rfl, rfl, ?_⟩
          exact congrArg some houtcome
      · exact hold

/-- Without a handler that has not routed, every chat stays accounted for. -/
theorem drop (h : Once r) {id : Nat} (hroutes : ∀ t ∈ r.tasks, t.id = id → t.verdict = none) :
    Once (r.drop id) := by
  have hsub : List.Sublist (r.tasks.filter (fun t => t.id ≠ id)) r.tasks := List.filter_sublist
  constructor
  · exact h.ids.sublist (hsub.map _)
  · intro t ht
    exact h.next t (hsub.subset ht)
  · exact h.keys.sublist (hsub.map _)
  · intro t ht
    exact h.pending t (hsub.subset ht)
  · exact h.routed
  · intro entry hentry
    rcases h.accounted entry hentry with hrecorded | ⟨u, hu, hpeer, hrequest, houtcome⟩
    · exact .inl hrecorded
    · have hother : u.id ≠ id := by
        intro heq
        have hnone := hroutes u hu heq
        rw [Task.verdict_eq houtcome] at hnone
        cases hnone
      exact .inr ⟨u, List.mem_filter.mpr ⟨hu, by simpa using hother⟩, hpeer, hrequest, houtcome⟩

theorem restart (h : Once r) (hundisturbed : Undisturbed r .restart) : Once r.restart := by
  obtain ⟨hkept, hroutes⟩ := hundisturbed
  constructor
  · exact List.nodup_nil
  · intro t ht
    cases ht
  · exact List.nodup_nil
  · intro t ht
    cases ht
  · exact h.routed
  · intro entry hentry
    rcases h.accounted entry hentry with ⟨encoded, hencoded, hstored⟩ | ⟨u, hu, -, -, houtcome⟩
    · refine .inl ⟨encoded, hencoded, ?_⟩
      rcases hkept with hdurable | hnone
      · show (if r.durable then r.inbound else Dict.empty).get? entry.key = _
        rw [if_pos hdurable]
        exact hstored
      · rw [show r.restart.routed = [] from hnone] at hentry
        cases hentry
    · have hnone := hroutes u hu
      rw [Task.verdict_eq houtcome] at hnone
      cases hnone

/-- A handler that stores its answer accounts for the chat it routed. -/
theorem record (h : Once r) {t : Task} (ht : t ∈ r.tasks) {chat : Option Members}
    {payload encoded : Members} (houtcome : t.outcome = some (.ok (chat, payload)))
    (hencoded : encodeMessageForwardResult (r.accepted t.request payload) = .ok encoded) :
    Once ((r.drop t.id).recordInbound t.peer t.request.forwardId
      (requestDigest t.request.fields) encoded) := by
  have hpending : r.inbound.get? t.key = none := h.pending t ht
  have habsent : ¬ (r.drop t.id).inbound.contains (t.peer, t.request.forwardId) = true := by
    show ¬ (r.inbound.get? t.key).isSome = true
    rw [hpending]
    decide
  have hsub : List.Sublist (r.tasks.filter (fun u => u.id ≠ t.id)) r.tasks := List.filter_sublist
  have hother : ∀ u ∈ r.tasks.filter (fun u => u.id ≠ t.id), t.key ≠ u.key := by
    intro u hu hkey
    obtain ⟨hmem, hid⟩ := List.mem_filter.mp hu
    rw [h.eq_of_key ht hmem hkey] at hid
    simp at hid
  unfold Receiver.recordInbound
  rw [if_neg habsent]
  constructor
  · exact h.ids.sublist (hsub.map _)
  · intro u hu
    exact h.next u (hsub.subset hu)
  · exact h.keys.sublist (hsub.map _)
  · intro u hu
    show (r.inbound.set t.key _).get? u.key = none
    rw [Dict.get?_set_ne _ _ (hother u hu)]
    exact h.pending u (hsub.subset hu)
  · exact h.routed
  · intro entry hentry
    rcases h.accounted entry hentry with ⟨stored, hstored, hget⟩ | ⟨u, hu, hpeer, hrequest, hout⟩
    · refine .inl ⟨stored, hstored, ?_⟩
      have hne : t.key ≠ entry.key := by
        intro heq
        rw [← heq, hpending] at hget
        cases hget
      show (r.inbound.set t.key _).get? entry.key = _
      rw [Dict.get?_set_ne _ _ hne]
      exact hget
    · by_cases hid : u.id = t.id
      · have hsame := h.eq_of_id hu ht hid
        subst hsame
        rw [houtcome] at hout
        cases hout
        refine .inl ⟨encoded, hrequest ▸ hencoded, ?_⟩
        have hkey : entry.key = u.key := by rw [Routed.key, Task.key, hpeer, hrequest]
        show (r.inbound.set u.key _).get? entry.key = _
        rw [hkey, Dict.get?_set_self, hrequest]
      · have hkept : u ∈ r.tasks.filter (fun u => u.id ≠ t.id) :=
          List.mem_filter.mpr ⟨hu, by simpa using hid⟩
        exact .inr ⟨u, hkept, hpeer, hrequest, hout⟩

theorem answer (h : Once r) {id : Nat} (hundisturbed : Undisturbed r (.answer id)) :
    Once (r.answer id).1 := by
  unfold Receiver.answer
  cases hfind : r.tasks.find? (·.id == id) with
  | none => exact h
  | some t =>
    have ht : t ∈ r.tasks := List.mem_of_find?_eq_some hfind
    have hid : t.id = id := by simpa using List.find?_some hfind
    have honly : ∀ u ∈ r.tasks, u.id = id → u = t :=
      fun u hu heq => h.eq_of_id hu ht (heq.trans hid.symm)
    cases houtcome : t.outcome with
    | none =>
      dsimp only
      rw [houtcome]
      exact h
    | some outcome =>
      dsimp only
      rw [houtcome]
      cases outcome with
      | error refused =>
        have hdropped : Once (r.drop id) := by
          apply h.drop
          intro u hu heq
          rw [honly u hu heq]
          unfold Task.verdict
          rw [houtcome]
        dsimp only
        split <;> exact hdropped
      | ok result =>
        obtain ⟨chat, payload⟩ := result
        dsimp only
        split
        · rename_i encoded hencoded
          rw [← hid]
          exact h.record ht houtcome hencoded
        · rename_i e hencoded
          apply h.drop
          intro u hu heq
          rw [honly u hu heq]
          cases chat with
          | none =>
            unfold Task.verdict
            rw [houtcome]
          | some chat =>
            have hok := hundisturbed t ht hid payload (Task.verdict_eq houtcome)
            rw [hencoded] at hok
            cases hok

theorem step (h : Once r) {s : Step} (hundisturbed : Undisturbed r s) : Once (r.step s) := by
  cases s with
  | receive peer frame => exact h.receive hundisturbed
  | act id s => exact h.actOn id s
  | answer id => exact h.answer hundisturbed
  | lost id => exact h.drop hundisturbed
  | restart => exact h.restart hundisturbed

end Once

/-! ## Undisturbed runs -/

/-- Every step of the run is undisturbed where it is taken. -/
def UndisturbedRun (hubId : String) (durable : Bool) (steps : List Step) : Prop :=
  ∀ call ∈ Trace.trace Receiver.step { hubId, durable } steps, Undisturbed call.1 call.2

instance (hubId : String) (durable : Bool) (steps : List Step) :
    Decidable (UndisturbedRun hubId durable steps) :=
  inferInstanceAs (Decidable (∀ call ∈ Trace.trace Receiver.step _ steps, _))

theorem run_once {hubId : String} {durable : Bool} {steps : List Step}
    (h : UndisturbedRun hubId durable steps) : Once (Receiver.run hubId durable steps) := by
  unfold Receiver.run
  induction steps using List.reverseRecOn with
  | nil => exact .init hubId durable
  | append_singleton steps s ih =>
    unfold UndisturbedRun at h
    rw [Trace.trace_append] at h
    rw [Trace.run_append]
    have hbefore : UndisturbedRun hubId durable steps :=
      fun call hcall => h call (List.mem_append_left _ hcall)
    exact (ih hbefore).step (h _ (List.mem_append_right _ (List.mem_singleton_self _)))

/-- A request looked up while no handler of its id runs finds the stored
answer of the chat that was routed. -/
theorem Once.recorded {r : Receiver} (h : Once r) {entry : Routed} (hentry : entry ∈ r.routed)
    (hsettled : ∀ t ∈ r.tasks, t.key ≠ entry.key) : Recorded r entry := by
  rcases h.accounted entry hentry with hrecorded | ⟨t, ht, hpeer, hrequest, -⟩
  · exact hrecorded
  · exact absurd (by rw [Task.key, hpeer, hrequest, Routed.key]) (hsettled t ht)

/-! ## Answers -/

/-- The refusal of a reused id always encodes. -/
theorem conflict_encodes {r : Receiver} {frame : Json} {request : MessageForwardRequest}
    (hhub : isValidHubId r.hubId = true)
    (hrequest : decodeMessageForwardRequest frame = .ok request) :
    encodeMessageForwardResult (r.conflict request) = .ok (r.conflict request).fields :=
  encodeResult_refused (decoded_forwardId hrequest) hhub (by decide) (by decide +kernel)

/-- In an undisturbed run each forwarded chat is routed to local seats at
most once. A request of a routed id that is looked up undisturbed finds the
stored answer: with the same content it gets that answer as a duplicate,
with other content it is refused. -/
theorem forwarded_chat_once {hubId : String} {durable : Bool} {steps : List Step}
    (h : UndisturbedRun hubId durable steps) :
    let r := Receiver.run hubId durable steps
    (r.routed.map Routed.key).Nodup ∧
      ∀ entry ∈ r.routed, ∀ frame request, decodeMessageForwardRequest frame = .ok request →
        request.forwardId = entry.request.forwardId → Undisturbed r (.receive entry.peer frame) →
        ∃ stored, encodeMessageForwardResult (r.accepted entry.request entry.payload) = .ok stored ∧
          (dumps (.obj request.fields) = dumps (.obj entry.request.fields) →
            r.respond (.receive entry.peer frame) =
              (r, some (.result (Dict.put "disposition" (.str "duplicate") stored)))) ∧
          (dumps (.obj request.fields) ≠ dumps (.obj entry.request.fields) →
            NoCollision [dumps (.obj request.fields), dumps (.obj entry.request.fields)] →
            r.respond (.receive entry.peer frame) =
              (r, some (.result (r.conflict request).fields))) := by
  intro r
  have honce := run_once h
  refine ⟨honce.routed, ?_⟩
  intro entry hentry frame request hrequest hid hundisturbed
  have hkey : entry.key = (entry.peer, request.forwardId) := by rw [Routed.key, hid]
  obtain ⟨stored, hencoded, hget⟩ := honce.recorded hentry fun t ht => by
    rw [hkey]
    exact hundisturbed request (by rw [hrequest]; rfl) t ht
  rw [hkey] at hget
  have hrespond : r.respond (.receive entry.peer frame) =
      r.lookUp entry.peer request request.fields := by
    show r.receive entry.peer frame = _
    unfold Receiver.receive
    rw [hrequest]
    dsimp only
    rw [encode_decoded hrequest]
  refine ⟨stored, hencoded, ?_, ?_⟩
  · intro hsame
    have hdigest : requestDigest entry.request.fields = requestDigest request.fields := by
      rw [requestDigest, ← hsame, requestDigest]
    rw [hrespond]
    unfold Receiver.lookUp
    rw [hget]
    exact if_pos hdigest
  · intro hdiffers hfree
    have hdigest : ¬ requestDigest entry.request.fields = requestDigest request.fields := by
      intro heq
      exact hdiffers (hfree _ (by simp) _ (by simp) heq.symm)
    have hhub : isValidHubId r.hubId = true := (encodeResult_eq hencoded).2
    rw [hrespond]
    unfold Receiver.lookUp
    rw [hget]
    dsimp only
    rw [if_neg hdigest, conflict_encodes hhub hrequest]

/-! ## A small hub -/

/-- A chat from a peer's seat to a local one. -/
def smallForward (payload : String) : Json :=
  .obj [("forward_id", .str "f1"), ("kind", .str "chat"), ("sender_seat", .str "P/a"),
    ("target_seat", .str "P/b"), ("body", .obj [("payload", .str payload)])]

/-- A hub that serves every namespace and has one live recipient. -/
def liveSeat : Surroundings where
  policy := some fun _ => none
  corruptRows := false
  routeChat _ := .ok
    { seq := some 7, msgId := 7, delivered := true, recipients := ["P/b"]
      matchedRecipients := ["P/b"], staleRecipients := [], reason := "", directed := true }
  other _ := .error ⟨"unknown_request", "delivery request does not exist"⟩

omit [Builtins] in
open Receiver in
/-- While the first copy is routed, a duplicate is routed again, before and
after a restart, and so is other content under its id. -/
theorem duplicate_while_routing :
    letI := Builtins.checksum
    let routedPayloads (steps : List Step) :=
      (run "hub" true steps).routed.map fun entry =>
        (entry.key, Json.toStr (entry.chat.get "payload"))
    let first : List Step := [.receive "peer" (smallForward "hi"), .act 0 liveSeat]
    routedPayloads (first ++ [.receive "peer" (smallForward "hi"), .act 1 liveSeat, .answer 0,
        .answer 1]) = [(("peer", "f1"), "hi"), (("peer", "f1"), "hi")] ∧
      routedPayloads (first ++ [.restart, .receive "peer" (smallForward "hi"),
        .act 1 liveSeat]) = [(("peer", "f1"), "hi"), (("peer", "f1"), "hi")] ∧
      routedPayloads (first ++ [.receive "peer" (smallForward "bye"), .act 1 liveSeat]) =
        [(("peer", "f1"), "hi"), (("peer", "f1"), "bye")] := by
  let _ := Builtins.checksum
  decide +kernel

/-- The chat is looked up, routed and answered, and the hub restarts. -/
def smallRun : List Step :=
  [.receive "peer" (smallForward "hi"), .act 0 liveSeat, .answer 0, .restart]

omit [Builtins] in
theorem smallRun_undisturbed :
    letI := Builtins.checksum
    UndisturbedRun "hub" true smallRun := by
  let _ := Builtins.checksum
  decide +kernel

omit [Builtins] in
open Receiver in
/-- Sent again after the answer was stored, the chat is answered as a duplicate. -/
theorem forwarded_chat_once_small_hub :
    letI := Builtins.checksum
    let r := run "hub" true smallRun
    r.routed.map Routed.key = [("peer", "f1")] ∧
      ∃ stored, r.respond (.receive "peer" (smallForward "hi")) =
        (r, some (.result (Dict.put "disposition" (.str "duplicate") stored))) := by
  let _ := Builtins.checksum
  intro r
  have hkeys : r.routed.map Routed.key = [("peer", "f1")] := by decide +kernel
  refine ⟨hkeys, ?_⟩
  obtain ⟨entry, hentry, hkey⟩ := List.mem_map.mp (hkeys ▸ List.mem_singleton_self ("peer", "f1"))
  obtain ⟨hpeer, hid⟩ := Prod.mk.inj hkey
  have hdecodes : (decodeMessageForwardRequest (smallForward "hi")).toOption.isSome := by
    decide +kernel
  obtain ⟨request, hrequest⟩ := exists_ok_of_isSome hdecodes
  -- the request is the one the hub routed
  have hread : ∀ e ∈ r.routed, (decodeMessageForwardRequest (smallForward "hi")).toOption.map
      (fun q => (q.forwardId, dumps (.obj q.fields))) =
        some (e.request.forwardId, dumps (.obj e.request.fields)) := by decide +kernel
  have hsame := hread entry hentry
  rw [hrequest] at hsame
  obtain ⟨hforwardId, htext⟩ := Prod.mk.inj (Option.some.inj hsame)
  have hundisturbed : Undisturbed r (.receive "peer" (smallForward "hi")) := by decide +kernel
  obtain ⟨-, hanswers⟩ := forwarded_chat_once smallRun_undisturbed
  obtain ⟨stored, -, hduplicate, -⟩ :=
    hanswers entry hentry _ request hrequest hforwardId (hpeer ▸ hundisturbed)
  refine ⟨stored, ?_⟩
  rw [hpeer] at hduplicate
  exact hduplicate htext

end SynapseChannel.Forward
