import SynapseChannel.Core.Channels

/-!
# Core — ChannelPrivacy

The channel requests of one agent against two registries that differ
only in channels the agent has nothing to do with.
-/

namespace SynapseChannel

open Py

variable [Builtins]

/-! ## Handlers -/

/-- What a handler sends back. -/
inductive ChannelReply where
  | result (message channel : String) (ok : Bool) (members : List String)
  | list (channels : List String)
  | history (channel : String) (messages : List Members) (maxMessages : Int)

/-- A channel request of one agent. -/
inductive ChannelRequest where
  | invite (data : Members)
  | join (data : Members)
  | leave (data : Members)
  | list
  | history (data : Members)

namespace ChannelRegistry

omit [Builtins] in
/-- The result of a channel operation. The roster goes only to a current member, after a
successful operation. -/
def reply (r : ChannelRegistry) (sender channel : String) (verdict : ChannelVerdict) :
    ChannelReply :=
  match verdict with
  | .error reason => .result reason channel false []
  | .ok message =>
    .result message channel true
      (if r.isMember channel sender then (r.members channel).sort else [])

/-- A text field of a request, trimmed. -/
def textField (data : Members) (key : String) : String :=
  strip ((data.get key).or (.str "")).toStr

/-- The registry after a request, and the reply. -/
def handle (maxHistory : Int) (r : ChannelRegistry) (sender : String) :
    ChannelRequest → ChannelRegistry × ChannelReply
  | .invite data =>
    let channel := textField data "channel"
    let done := r.invite channel sender (textField data "invitee")
    (done.1, done.1.reply sender channel done.2)
  | .join data =>
    let channel := textField data "channel"
    let done := r.join channel sender
    (done.1, done.1.reply sender channel done.2)
  | .leave data =>
    let channel := textField data "channel"
    let done := r.leave channel sender
    (done.1, done.1.reply sender channel done.2)
  | .list => (r, .list (r.channelsFor sender))
  | .history data =>
    let channel := textField data "channel"
    let limit := (safeInt (data.getD "limit" (.int 20)) (some 20) (some 0) none true).getD 20
    if r.isMember channel sender then
      (r, .history channel (r.historyFor channel sender (some (.int limit))) maxHistory)
    else (r, r.reply sender channel (.error s!"not a member of channel '{channel}'"))

/-- The replies to a sequence of requests. -/
def replies (maxHistory : Int) (sender : String) :
    ChannelRegistry → List ChannelRequest → List ChannelReply
  | _, [] => []
  | r, request :: rest =>
    let done := r.handle maxHistory sender request
    done.2 :: replies maxHistory sender done.1 rest

end ChannelRegistry

/-! ## Hidden channels -/

omit [Builtins] in
/-- The agent is neither member nor owner nor invitee of the channel. -/
structure Channel.Hidden (name : String) (channel : Channel) : Prop where
  member : name ∉ channel.members
  owner : name ≠ channel.owner
  invite : name ∉ channel.invites

/-- Nothing is registered, or nothing the agent has to do with. -/
def HiddenFrom (name : String) (found : Option Channel) : Prop :=
  ∀ channel, found = some channel → channel.Hidden name

/-- Equal but for channels hidden from the agent. -/
def Alike (name : String) (r s : ChannelRegistry) : Prop :=
  ∀ cid, r.channels.get? cid = s.channels.get? cid ∨
    HiddenFrom name (r.channels.get? cid) ∧ HiddenFrom name (s.channels.get? cid)

/-- The id is registered in one of the two only. -/
def InOne (r s : ChannelRegistry) (cid : String) : Prop :=
  (r.channels.get? cid).isSome ≠ (s.channels.get? cid).isSome

/-- The request leaves an id that only one of the two has. -/
def LeavesInOne (r s : ChannelRegistry) : ChannelRequest → Prop
  | .leave data => InOne r s (normaliseId (ChannelRegistry.textField data "channel"))
  | _ => False

/-! ## One request -/

namespace ChannelRegistry

omit [Builtins] in
/-- A registry without channels. -/
def empty : ChannelRegistry where
  maxChannels := 0

/-- What two registries agree on after the same verb: its verdict and the channel of its id. -/
structure SameEffect (cid : String) (done done' : ChannelRegistry × ChannelVerdict) : Prop where
  verdict : done.2 = done'.2
  found : done.1.channels.get? cid = done'.1.channels.get? cid

section

omit [Builtins]

theorem invite_same {r s : ChannelRegistry} (channelId inviter invitee : String)
    (h : r.channels.get? (normaliseId channelId) = s.channels.get? (normaliseId channelId)) :
    SameEffect (normaliseId channelId) (r.invite channelId inviter invitee)
      (s.invite channelId inviter invitee) := by
  unfold invite
  dsimp only
  rw [h]
  cases hfound : s.channels.get? (normaliseId channelId) with
  | none => exact ⟨rfl, h⟩
  | some channel =>
    dsimp only
    by_cases howner : strip inviter ≠ channel.owner
    · simp only [if_pos howner]
      exact ⟨rfl, h⟩
    simp only [if_neg howner]
    by_cases hname : strip invitee = ""
    · simp only [if_pos hname]
      exact ⟨rfl, h⟩
    simp only [if_neg hname]
    by_cases hmember : strip invitee ∈ channel.members
    · simp only [if_pos hmember]
      exact ⟨rfl, h⟩
    simp only [if_neg hmember]
    by_cases hinvite : strip invitee ∈ channel.invites
    · simp only [if_pos hinvite]
      exact ⟨rfl, h⟩
    simp only [if_neg hinvite]
    exact ⟨rfl, (Dict.get?_set_self _ _ _).trans (Dict.get?_set_self _ _ _).symm⟩

theorem join_same {r s : ChannelRegistry} (channelId member : String)
    (h : r.channels.get? (normaliseId channelId) = s.channels.get? (normaliseId channelId)) :
    SameEffect (normaliseId channelId) (r.join channelId member) (s.join channelId member) := by
  unfold join
  dsimp only
  by_cases hname : strip member = ""
  · simp only [if_pos hname]
    exact ⟨rfl, h⟩
  simp only [if_neg hname]
  rw [h]
  cases hfound : s.channels.get? (normaliseId channelId) with
  | none => exact ⟨rfl, h⟩
  | some channel =>
    dsimp only
    by_cases hmember : strip member ∈ channel.members
    · simp only [if_pos hmember]
      exact ⟨rfl, h⟩
    simp only [if_neg hmember]
    by_cases hallowed : strip member ≠ channel.owner ∧ strip member ∉ channel.invites
    · simp only [if_pos hallowed]
      exact ⟨rfl, h⟩
    simp only [if_neg hallowed]
    exact ⟨rfl, (Dict.get?_set_self _ _ _).trans (Dict.get?_set_self _ _ _).symm⟩

theorem leave_same {r s : ChannelRegistry} (channelId member : String)
    (h : r.channels.get? (normaliseId channelId) = s.channels.get? (normaliseId channelId)) :
    SameEffect (normaliseId channelId) (r.leave channelId member) (s.leave channelId member) := by
  unfold leave
  dsimp only
  rw [h]
  cases hfound : s.channels.get? (normaliseId channelId) with
  | none => exact ⟨rfl, h⟩
  | some channel =>
    dsimp only
    by_cases hmember : strip member ∉ channel.members
    · simp only [if_pos hmember]
      exact ⟨rfl, h⟩
    simp only [if_neg hmember]
    by_cases hempty : channel.members.erase (strip member) = ∅
    · simp only [if_pos hempty]
      exact ⟨rfl, (Dict.get?_erase_self _ _).trans (Dict.get?_erase_self _ _).symm⟩
    · simp only [if_neg hempty]
      exact ⟨rfl, (Dict.get?_set_self _ _ _).trans (Dict.get?_set_self _ _ _).symm⟩

end

/-- A verb touches the channel of its own id only. -/
def TouchesOnly (cid : String) (r done : ChannelRegistry) : Prop :=
  ∀ other, other ≠ cid → done.channels.get? other = r.channels.get? other

section

omit [Builtins]

theorem touchesOnly_put (r : ChannelRegistry) (cid : String) (channel : Channel) :
    TouchesOnly cid r (r.put cid channel) :=
  fun _ hother => Dict.get?_set_ne _ _ (Ne.symm hother)

theorem invite_touches (r : ChannelRegistry) (channelId inviter invitee : String) :
    TouchesOnly (normaliseId channelId) r (r.invite channelId inviter invitee).1 := by
  rcases r.invite_cases channelId inviter invitee with ⟨reason, heq⟩ | ⟨_, _, -, -, -, heq⟩
  · rw [heq]
    exact fun _ _ => rfl
  · rw [heq]
    exact touchesOnly_put r _ _

theorem join_touches (r : ChannelRegistry) (channelId member : String) :
    TouchesOnly (normaliseId channelId) r (r.join channelId member).1 := by
  rcases r.join_cases channelId member with ⟨reason, heq⟩ | ⟨_, _, -, -, -, heq⟩
  · rw [heq]
    exact fun _ _ => rfl
  · rw [heq]
    exact touchesOnly_put r _ _

theorem leave_touches (r : ChannelRegistry) (channelId member : String) :
    TouchesOnly (normaliseId channelId) r (r.leave channelId member).1 := by
  rcases r.leave_cases channelId member with ⟨reason, heq⟩ | ⟨_, _, -, -, heq⟩
  · rw [heq]
    exact fun _ _ => rfl
  · rw [heq]
    dsimp only
    split
    · exact fun _ hother => Dict.get?_erase_ne _ hother
    · exact touchesOnly_put r _ _

/-- An invite to a hidden channel is refused as one to a missing channel is. -/
theorem invite_hidden {r : ChannelRegistry} {channelId inviter : String} (invitee : String)
    (h : HiddenFrom (strip inviter) (r.channels.get? (normaliseId channelId))) :
    r.invite channelId inviter invitee =
      (r, (empty.invite channelId inviter invitee).2) := by
  have hempty : (empty.channels.get? (normaliseId channelId)) = none := rfl
  unfold invite
  dsimp only
  rw [hempty]
  cases hfound : r.channels.get? (normaliseId channelId) with
  | none => rfl
  | some channel =>
    dsimp only
    rw [if_pos (h channel hfound).owner]

theorem join_hidden {r : ChannelRegistry} {channelId member : String}
    (h : HiddenFrom (strip member) (r.channels.get? (normaliseId channelId))) :
    r.join channelId member = (r, (empty.join channelId member).2) := by
  have hempty : (empty.channels.get? (normaliseId channelId)) = none := rfl
  unfold join
  dsimp only
  split
  · rfl
  rw [hempty]
  cases hfound : r.channels.get? (normaliseId channelId) with
  | none => rfl
  | some channel =>
    have hidden := h channel hfound
    dsimp only
    rw [if_neg hidden.member, if_pos ⟨hidden.owner, hidden.invite⟩]

theorem leave_hidden {r : ChannelRegistry} {channelId member : String}
    (h : HiddenFrom (strip member) (r.channels.get? (normaliseId channelId))) :
    r.leave channelId member =
      (r, .error (if (r.channels.get? (normaliseId channelId)).isSome then
          "not a member of '" ++ normaliseId channelId ++ "'"
        else "channel '" ++ normaliseId channelId ++ "' does not exist")) := by
  unfold leave
  dsimp only
  cases hfound : r.channels.get? (normaliseId channelId) with
  | none => rfl
  | some channel =>
    dsimp only
    rw [if_pos (h channel hfound).member]
    rfl

theorem empty_refuses_invite (channelId inviter invitee : String) :
    ∃ reason, (empty.invite channelId inviter invitee).2 = .error reason := by
  rcases empty.invite_cases channelId inviter invitee with ⟨reason, heq⟩ | ⟨_, _, hfound, -⟩
  · exact ⟨reason, by rw [heq]⟩
  · cases hfound

theorem empty_refuses_join (channelId member : String) :
    ∃ reason, (empty.join channelId member).2 = .error reason := by
  rcases empty.join_cases channelId member with ⟨reason, heq⟩ | ⟨_, _, hfound, -⟩
  · exact ⟨reason, by rw [heq]⟩
  · cases hfound

/-- A reply reads the verdict and the channel of its id only. -/
theorem reply_same {done done' : ChannelRegistry × ChannelVerdict} (sender : String)
    {channel : String} (h : SameEffect (normaliseId channel) done done') :
    done.1.reply sender channel done.2 = done'.1.reply sender channel done'.2 := by
  have hfind : done.1.find channel = done'.1.find channel := h.found
  rw [h.verdict]
  unfold reply
  cases done'.2 with
  | error reason => rfl
  | ok message =>
    dsimp only
    unfold isMember members
    rw [hfind]

theorem isMember_hidden {r : ChannelRegistry} {channelId name : String}
    (h : HiddenFrom (strip name) (r.channels.get? (normaliseId channelId))) :
    r.isMember channelId name = false := by
  unfold isMember find
  cases hfound : r.channels.get? (normaliseId channelId) with
  | none => rfl
  | some channel => exact decide_eq_false (h channel hfound).member

theorem mem_channelsFor (r : ChannelRegistry) (name cid : String) :
    cid ∈ r.channelsFor name ↔
      ∃ channel, r.channels.get? cid = some channel ∧ strip name ∈ channel.members := by
  unfold channelsFor
  rw [mem_sortedBy, List.mem_filter, Dict.mem_keys_iff]
  cases hfound : r.channels.get? cid with
  | none => simp
  | some channel => simp

theorem channelsFor_sorted (r : ChannelRegistry) (name : String) :
    (r.channelsFor name).Nodup ∧
      (r.channelsFor name).Pairwise fun a b => decide (b < a) = false := by
  unfold channelsFor
  constructor
  · rw [(sortedBy_perm _ _ _).nodup_iff]
    exact r.channels.nodup.filter _
  · exact pairwise_sortedBy_lt id _

/-- The list of the agent's channels does not show the hidden ones. -/
theorem channelsFor_alike {name : String} {r s : ChannelRegistry} (h : Alike (strip name) r s) :
    r.channelsFor name = s.channelsFor name := by
  obtain ⟨hnodup, hsorted⟩ := r.channelsFor_sorted name
  obtain ⟨hnodup', hsorted'⟩ := s.channelsFor_sorted name
  have hmem : ∀ cid, cid ∈ r.channelsFor name ↔ cid ∈ s.channelsFor name := by
    intro cid
    rw [mem_channelsFor, mem_channelsFor]
    rcases h cid with heq | ⟨hr, hs⟩
    · rw [heq]
    · constructor
      · rintro ⟨channel, hfound, hmember⟩
        exact absurd hmember (hr channel hfound).member
      · rintro ⟨channel, hfound, hmember⟩
        exact absurd hmember (hs channel hfound).member
  refine @eq_of_sortedBy _ _ (fun a b => decide (a < b)) id _ _ hnodup hnodup' hmem ?_
    hsorted hsorted'
  intro a b _ _ hba hab
  rw [decide_eq_false_iff_not, not_lt] at hba hab
  exact le_antisymm hba hab

end

/-! ## Two registries side by side -/

/-- The two stay alike over a request, and their replies tell them apart just when it
leaves an id that one of them has. -/
structure HandledAlike (name : String) (r s : ChannelRegistry) (request : ChannelRequest)
    (done done' : ChannelRegistry × ChannelReply) : Prop where
  alike : Alike name done.1 done'.1
  inOne : ∀ cid, InOne done.1 done'.1 cid ↔ InOne r s cid
  reply : done.2 = done'.2 ↔ ¬ LeavesInOne r s request

omit [Builtins] in
theorem alike_of_same {name cid : String} {r s : ChannelRegistry}
    {done done' : ChannelRegistry × ChannelVerdict} (h : Alike name r s)
    (heq : r.channels.get? cid = s.channels.get? cid) (hsame : SameEffect cid done done')
    (hr : TouchesOnly cid r done.1) (hs : TouchesOnly cid s done'.1) :
    Alike name done.1 done'.1 ∧ ∀ other, InOne done.1 done'.1 other ↔ InOne r s other := by
  constructor
  · intro other
    by_cases hother : other = cid
    · rw [hother]
      exact Or.inl hsame.found
    · rw [hr other hother, hs other hother]
      exact h other
  · intro other
    unfold InOne
    by_cases hother : other = cid
    · rw [hother, hsame.found, heq]
      exact iff_of_false (fun hne => hne rfl) fun hne => hne rfl
    · rw [hr other hother, hs other hother]

omit [Builtins] in
theorem leave_refusals_ne (cid : String) :
    "not a member of '" ++ cid ++ "'" ≠ "channel '" ++ cid ++ "' does not exist" := by
  intro h
  have hhead := congrArg (fun text => text.toList.head?) h
  simp at hhead

theorem handle_alike (maxHistory : Int) {sender : String} {r s : ChannelRegistry}
    (h : Alike (strip sender) r s) (request : ChannelRequest) :
    HandledAlike (strip sender) r s request (r.handle maxHistory sender request)
      (s.handle maxHistory sender request) := by
  cases request with
  | invite data =>
    unfold handle
    dsimp only
    generalize textField data "channel" = channel
    generalize textField data "invitee" = invitee
    rcases h (normaliseId channel) with heq | ⟨hr, hs⟩
    · have hsame := invite_same channel sender invitee heq
      obtain ⟨halike, hinOne⟩ := alike_of_same h heq hsame (r.invite_touches _ _ _)
        (s.invite_touches _ _ _)
      exact ⟨halike, hinOne, iff_of_true (reply_same sender hsame) id⟩
    · obtain ⟨reason, hreason⟩ := empty_refuses_invite channel sender invitee
      rw [invite_hidden invitee hr, invite_hidden invitee hs, hreason]
      exact ⟨h, fun _ => Iff.rfl, iff_of_true rfl id⟩
  | join data =>
    unfold handle
    dsimp only
    generalize textField data "channel" = channel
    rcases h (normaliseId channel) with heq | ⟨hr, hs⟩
    · have hsame := join_same channel sender heq
      obtain ⟨halike, hinOne⟩ := alike_of_same h heq hsame (r.join_touches _ _)
        (s.join_touches _ _)
      exact ⟨halike, hinOne, iff_of_true (reply_same sender hsame) id⟩
    · obtain ⟨reason, hreason⟩ := empty_refuses_join channel sender
      rw [join_hidden hr, join_hidden hs, hreason]
      exact ⟨h, fun _ => Iff.rfl, iff_of_true rfl id⟩
  | leave data =>
    have hleaves : LeavesInOne r s (.leave data) =
        InOne r s (normaliseId (textField data "channel")) := rfl
    unfold handle
    dsimp only
    generalize textField data "channel" = channel at hleaves
    rcases h (normaliseId channel) with heq | ⟨hr, hs⟩
    · have hsame := leave_same channel sender heq
      obtain ⟨halike, hinOne⟩ := alike_of_same h heq hsame (r.leave_touches _ _)
        (s.leave_touches _ _)
      refine ⟨halike, hinOne, iff_of_true (reply_same sender hsame) ?_⟩
      rw [hleaves, InOne, heq]
      exact fun hne => hne rfl
    · rw [leave_hidden hr, leave_hidden hs]
      refine ⟨h, fun _ => Iff.rfl, ?_⟩
      rw [hleaves, InOne, not_not]
      have hne := leave_refusals_ne (normaliseId channel)
      cases (r.channels.get? (normaliseId channel)).isSome <;>
        cases (s.channels.get? (normaliseId channel)).isSome
      · exact iff_of_true rfl rfl
      · refine iff_of_false ?_ Bool.false_ne_true
        intro heq
        exact hne (ChannelReply.result.inj heq).1.symm
      · refine iff_of_false ?_ Bool.false_ne_true.symm
        intro heq
        exact hne (ChannelReply.result.inj heq).1
      · exact iff_of_true rfl rfl
  | list =>
    unfold handle
    dsimp only
    rw [channelsFor_alike h]
    exact ⟨h, fun _ => Iff.rfl, iff_of_true rfl id⟩
  | history data =>
    unfold handle
    dsimp only
    generalize textField data "channel" = channel
    rcases h (normaliseId channel) with heq | ⟨hr, hs⟩
    · have hfind : r.find channel = s.find channel := heq
      have hmember : r.isMember channel sender = s.isMember channel sender := by
        unfold isMember
        rw [hfind]
      rw [hmember]
      split
      · refine ⟨h, fun _ => Iff.rfl, iff_of_true ?_ id⟩
        unfold historyFor
        rw [hfind]
      · exact ⟨h, fun _ => Iff.rfl, iff_of_true rfl id⟩
    · rw [isMember_hidden hr, isMember_hidden hs]
      exact ⟨h, fun _ => Iff.rfl, iff_of_true rfl id⟩

end ChannelRegistry

/-- The replies to one agent's requests hide the channels it has nothing to do with, except
that a leave tells whether the id it names is registered. -/
theorem private_channels_hidden_iff (maxHistory : Int) (sender : String) (r s : ChannelRegistry)
    (h : Alike (strip sender) r s) (requests : List ChannelRequest) :
    r.replies maxHistory sender requests = s.replies maxHistory sender requests ↔
      ∀ request ∈ requests, ¬ LeavesInOne r s request := by
  induction requests generalizing r s with
  | nil => exact iff_of_true rfl fun request hrequest => absurd hrequest List.not_mem_nil
  | cons request rest ih =>
    have hhandled := ChannelRegistry.handle_alike maxHistory h request
    have hlater : ∀ q, LeavesInOne (r.handle maxHistory sender request).1
        (s.handle maxHistory sender request).1 q ↔ LeavesInOne r s q := by
      intro q
      cases q with
      | leave data => exact hhandled.inOne _
      | invite => exact Iff.rfl
      | join => exact Iff.rfl
      | list => exact Iff.rfl
      | history => exact Iff.rfl
    rw [ChannelRegistry.replies, ChannelRegistry.replies, List.cons.injEq, hhandled.reply,
      ih _ _ hhandled.alike, List.forall_mem_cons]
    apply and_congr_right
    intro _
    exact forall_congr' fun q => imp_congr_right fun _ => not_congr (hlater q)

section

omit [Builtins]

/-- A channel of `B` alone. -/
def privateChannel : Channel where
  channelId := "x"
  owner := "B"
  label := "x"
  members := {"B"}

/-- The registry that has it, and the one that has no channel. -/
def withPrivate : ChannelRegistry where
  maxChannels := 1
  channels := Dict.empty.set "x" privateChannel

def withoutPrivate : ChannelRegistry where
  maxChannels := 1

theorem withPrivate_alike : Alike (strip "A") withPrivate withoutPrivate := by
  have hname : strip "A" = "A" := by decide +kernel
  intro cid
  rw [hname]
  right
  constructor
  · intro channel hfound
    unfold withPrivate at hfound
    dsimp only at hfound
    rw [Dict.get?_set] at hfound
    split at hfound
    · cases hfound
      exact ⟨by decide, by decide, by decide⟩
    · cases hfound
  · intro channel hfound
    cases hfound

/-- A join of the private channel is answered as one of a missing channel. -/
theorem private_channels_hidden_iff_join :
    letI := Builtins.ascii
    withPrivate.replies 20 "A" [.join [("channel", .str "x")]] =
      withoutPrivate.replies 20 "A" [.join [("channel", .str "x")]] := by
  let _ : Builtins := Builtins.ascii
  apply (private_channels_hidden_iff 20 "A" _ _ withPrivate_alike _).mpr
  intro request hrequest
  rw [List.mem_singleton] at hrequest
  subst hrequest
  exact id

/-- A leave of the private channel is not answered as one of a missing channel. -/
theorem leave_shows_private_channel :
    letI := Builtins.ascii
    Alike (strip "A") withPrivate withoutPrivate ∧
      withPrivate.replies 20 "A" [.leave [("channel", .str "x")]] ≠
        withoutPrivate.replies 20 "A" [.leave [("channel", .str "x")]] := by
  let _ : Builtins := Builtins.ascii
  refine ⟨withPrivate_alike, ?_⟩
  intro h
  have hreply := (List.cons.inj h).1
  have hcid : normaliseId (ChannelRegistry.textField [("channel", .str "x")] "channel") = "x" := by
    decide +kernel
  apply (ChannelRegistry.handle_alike 20 withPrivate_alike _).reply.mp hreply
  show InOne withPrivate withoutPrivate
    (normaliseId (ChannelRegistry.textField [("channel", .str "x")] "channel"))
  rw [hcid]
  exact fun heq => Bool.noConfusion heq

end

end SynapseChannel
