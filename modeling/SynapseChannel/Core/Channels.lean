import SynapseChannel.Lib.Sorted
import SynapseChannel.Lib.Trace
import SynapseChannel.Core.NumericCoercion

/-!
# Core — Channels

Private channels: an owner, the joined members, the pending invites and
a bounded history. A join needs an invite of the owner and consumes it;
a channel goes with its last member.
-/

namespace SynapseChannel

open Py

/-- Largest accepted channel id. -/
def maxChannelIdLength : Nat := 200

/-- Largest number of distinct channels retained. -/
def maxChannels : Int := 4096

/-- One private channel. -/
structure Channel where
  channelId : String
  owner : String
  label : String
  members : Finset String
  invites : Finset String := ∅
  history : List Members := []

/-- In-memory registry of private channels. -/
structure ChannelRegistry where
  maxChannels : Int
  channels : Dict String Channel := Dict.empty

/-- What a channel operation answers: its message, or the reason of a refusal. -/
abbrev ChannelVerdict := Except String String

/-- The trimmed channel id, or the empty text when it is unusable. -/
def normaliseId (channelId : String) : String :=
  let cid := strip channelId
  if cid = "" ∨ len cid > maxChannelIdLength then "" else cid

namespace ChannelRegistry

variable [Builtins]

/-- An empty registry. -/
def init (limit : Json) : ChannelRegistry where
  maxChannels := (safeInt limit (some SynapseChannel.maxChannels) (some 1) none true).getD 1

section

omit [Builtins]

/-- The registered channel an id names. -/
def find (r : ChannelRegistry) (channelId : String) : Option Channel :=
  r.channels.get? (normaliseId channelId)

/-- Store the channel of an id. -/
def put (r : ChannelRegistry) (cid : String) (channel : Channel) : ChannelRegistry :=
  { r with channels := r.channels.set cid channel }

/-- Create a channel owned by `owner`, its first member. -/
def create (r : ChannelRegistry) (channelId owner label : String) :
    ChannelRegistry × ChannelVerdict :=
  let cid := normaliseId channelId
  let ownerName := strip owner
  if cid = "" then (r, .error "invalid channel id")
  else if ownerName = "" then (r, .error "invalid owner")
  else if (r.channels.get? cid).isSome then (r, .error s!"channel '{cid}' already exists")
  else if (r.channels.items.length : Int) ≥ r.maxChannels then
    (r, .error "channel registry is full")
  else
    let shown := strip label
    let channel : Channel :=
      { channelId := cid
        owner := ownerName
        label := if shown = "" then cid else shown
        members := {ownerName} }
    (r.put cid channel, .ok s!"created channel '{cid}'")

/-- Record an owner-issued invite that lets `invitee` join once. -/
def invite (r : ChannelRegistry) (channelId inviter invitee : String) :
    ChannelRegistry × ChannelVerdict :=
  let cid := normaliseId channelId
  let refusal := s!"cannot invite to '{cid}': no such channel or you are not its owner"
  match r.channels.get? cid with
  | none => (r, .error refusal)
  | some channel =>
    if strip inviter ≠ channel.owner then (r, .error refusal)
    else
      let inviteeName := strip invitee
      if inviteeName = "" then (r, .error "invalid invitee")
      else if inviteeName ∈ channel.members then
        (r, .error s!"'{inviteeName}' is already a member of '{cid}'")
      else if inviteeName ∈ channel.invites then
        (r, .error s!"'{inviteeName}' is already invited to '{cid}'")
      else
        (r.put cid { channel with invites := insert inviteeName channel.invites },
          .ok s!"invited '{inviteeName}' to '{cid}'")

/-- Add an invited `member`, consuming its invite. -/
def join (r : ChannelRegistry) (channelId member : String) : ChannelRegistry × ChannelVerdict :=
  let cid := normaliseId channelId
  let memberName := strip member
  let refusal := s!"cannot join '{cid}': no such channel or you were not invited"
  if memberName = "" then (r, .error "invalid member")
  else
    match r.channels.get? cid with
    | none => (r, .error refusal)
    | some channel =>
      if memberName ∈ channel.members then (r, .error s!"already a member of '{cid}'")
      else if memberName ≠ channel.owner ∧ memberName ∉ channel.invites then
        (r, .error refusal)
      else
        (r.put cid
            { channel with
              members := insert memberName channel.members
              invites := channel.invites.erase memberName },
          .ok s!"joined '{cid}'")

/-- Remove `member`; the channel goes when it empties. -/
def leave (r : ChannelRegistry) (channelId member : String) : ChannelRegistry × ChannelVerdict :=
  let cid := normaliseId channelId
  match r.channels.get? cid with
  | none => (r, .error s!"channel '{cid}' does not exist")
  | some channel =>
    let memberName := strip member
    if memberName ∉ channel.members then (r, .error s!"not a member of '{cid}'")
    else
      let members := channel.members.erase memberName
      (if members = ∅ then { r with channels := r.channels.erase cid }
        else r.put cid { channel with members },
        .ok s!"left '{cid}'")

def isMember (r : ChannelRegistry) (channelId name : String) : Bool :=
  match r.find channelId with
  | none => false
  | some channel => decide (strip name ∈ channel.members)

/-- The current member names, none when the channel is absent. -/
def members (r : ChannelRegistry) (channelId : String) : Finset String :=
  match r.find channelId with
  | none => ∅
  | some channel => channel.members

/-- The sorted ids of the channels that `name` is a member of. -/
def channelsFor (r : ChannelRegistry) (name : String) : List String :=
  let memberName := strip name
  sortedBy (fun a b => decide (a < b)) id
    (r.channels.keys.filter fun cid =>
      (r.channels.get? cid).any fun channel => decide (memberName ∈ channel.members))

end

/-- Retain one live message, and the newest `maxMessages` of the channel. -/
def retainMessage (r : ChannelRegistry) (channelId : String) (message : Members)
    (maxMessages : Json) : ChannelRegistry :=
  match r.find channelId with
  | none => r
  | some channel =>
    let history := channel.history ++ [message]
    let keep := (safeInt maxMessages (some 1) (some 1) none true).getD 1
    let history :=
      if (history.length : Int) > keep then history.drop (history.length - keep.toNat)
      else history
    r.put (normaliseId channelId) { channel with history }

/-- The newest `limit` retained messages, for a current member. -/
def historyFor (r : ChannelRegistry) (channelId member : String) (limit : Option Json) :
    List Members :=
  match r.find channelId with
  | none => []
  | some channel =>
    if strip member ∉ channel.members then []
    else
      let keep :=
        match limit with
        | none => channel.history.length
        | some n => ((safeInt n (some 0) (some 0) none true).getD 0).toNat
      channel.history.drop (channel.history.length - keep)

end ChannelRegistry

/-! ## Calls -/

/-- A call that changes the registry. -/
inductive ChannelOp where
  | create (channelId owner label : String)
  | invite (channelId inviter invitee : String)
  | join (channelId member : String)
  | leave (channelId member : String)
  | retainMessage (channelId : String) (message : Members) (maxMessages : Json)

variable [Builtins]

/-- The registry after one call. -/
def ChannelOp.next (r : ChannelRegistry) : ChannelOp → ChannelRegistry
  | .create channelId owner label => (r.create channelId owner label).1
  | .invite channelId inviter invitee => (r.invite channelId inviter invitee).1
  | .join channelId member => (r.join channelId member).1
  | .leave channelId member => (r.leave channelId member).1
  | .retainMessage channelId message maxMessages => r.retainMessage channelId message maxMessages

/-- A call with the registry it is made in. -/
abbrev ChannelCall := ChannelRegistry × ChannelOp

/-- The owner's invite of a name is recorded. -/
def Invites (cid owner name : String) : ChannelCall → Prop
  | (r, .invite channelId inviter invitee) =>
    normaliseId channelId = cid ∧ strip inviter = owner ∧ strip invitee = name ∧
      (∃ channel, r.channels.get? cid = some channel ∧ channel.owner = owner) ∧
      ∃ message, (r.invite channelId inviter invitee).2 = .ok message
  | _ => False

/-- The name joins with its pending invite, which is gone after. -/
def JoinsInvited (cid name : String) : ChannelCall → Prop
  | (r, .join channelId member) =>
    normaliseId channelId = cid ∧ strip member = name ∧
      (∃ channel, r.channels.get? cid = some channel ∧ name ∈ channel.invites) ∧
      (∃ message, (r.join channelId member).2 = .ok message) ∧
      ∃ channel, (r.join channelId member).1.channels.get? cid = some channel ∧
        name ∈ channel.members ∧ name ∉ channel.invites
  | _ => False

/-- The name leaves the channel. -/
def Leaves (cid name : String) : ChannelCall → Prop
  | (r, .leave channelId member) =>
    normaliseId channelId = cid ∧ strip member = name ∧
      ∃ message, (r.leave channelId member).2 = .ok message
  | _ => False

omit [Builtins] in
/-- The message is appended to the channel's history. -/
def Retains (cid : String) (message : Members) : ChannelCall → Prop
  | (_, .retainMessage channelId sent _) => normaliseId channelId = cid ∧ sent = message
  | _ => False

/-- The channel is registered before and after: its incarnation goes on. -/
def Continues (cid : String) (call : ChannelCall) : Prop :=
  call.1.channels.get? cid ≠ none ∧ (call.2.next call.1).channels.get? cid ≠ none

/-- What one call does to the channel of an id. -/
inductive ChannelChange (r : ChannelRegistry) (op : ChannelOp) (cid : String) :
    Option Channel → Option Channel → Prop
  | kept (found : Option Channel) (hop : ∀ name, ¬ Leaves cid name (r, op)) :
      ChannelChange r op cid found found
  | created (channel : Channel) (hmembers : channel.members = {channel.owner})
      (hinvites : channel.invites = ∅) (hhistory : channel.history = []) :
      ChannelChange r op cid none (some channel)
  | invited (channel : Channel) (name : String) (hmember : name ∉ channel.members)
      (hop : Invites cid channel.owner name (r, op)) :
      ChannelChange r op cid (some channel)
        (some { channel with invites := insert name channel.invites })
  | joined (channel : Channel) (name : String) (hmember : name ∉ channel.members)
      (hop : name = channel.owner ∨ JoinsInvited cid name (r, op))
      (hjoin : ∃ channelId member, op = .join channelId member) :
      ChannelChange r op cid (some channel)
        (some { channel with
          members := insert name channel.members
          invites := channel.invites.erase name })
  | left (channel : Channel) (name : String) (hmember : name ∈ channel.members)
      (hrest : channel.members.erase name ≠ ∅)
      (hop : ∀ other, Leaves cid other (r, op) → other = name) :
      ChannelChange r op cid (some channel)
        (some { channel with members := channel.members.erase name })
  | dropped (channel : Channel) : ChannelChange r op cid (some channel) none
  | retained (channel : Channel) (message : Members) (history : List Members)
      (hhistory : ∀ m ∈ history, m ∈ channel.history ∨ m = message)
      (hop : Retains cid message (r, op)) :
      ChannelChange r op cid (some channel) (some { channel with history })

namespace ChannelRegistry

/-! ## What one call does -/

section

omit [Builtins]

/-- An invite is refused and changes nothing, or is the owner's and recorded. -/
theorem invite_cases (r : ChannelRegistry) (channelId inviter invitee : String) :
    (∃ reason, r.invite channelId inviter invitee = (r, .error reason)) ∨
      ∃ channel message, r.channels.get? (normaliseId channelId) = some channel ∧
        strip inviter = channel.owner ∧ strip invitee ∉ channel.members ∧
        r.invite channelId inviter invitee =
          (r.put (normaliseId channelId)
            { channel with invites := insert (strip invitee) channel.invites }, .ok message) := by
  unfold invite
  dsimp only
  split
  · exact Or.inl ⟨_, rfl⟩
  rename_i channel hfound
  split
  · exact Or.inl ⟨_, rfl⟩
  rename_i howner
  split
  · exact Or.inl ⟨_, rfl⟩
  split
  · exact Or.inl ⟨_, rfl⟩
  rename_i hmember
  split
  · exact Or.inl ⟨_, rfl⟩
  exact Or.inr ⟨channel, _, hfound, not_not.mp howner, hmember, rfl⟩

/-- A join is refused and changes nothing, or is the owner's or an invited name's. -/
theorem join_cases (r : ChannelRegistry) (channelId member : String) :
    (∃ reason, r.join channelId member = (r, .error reason)) ∨
      ∃ channel message, r.channels.get? (normaliseId channelId) = some channel ∧
        strip member ∉ channel.members ∧
        (strip member = channel.owner ∨ strip member ∈ channel.invites) ∧
        r.join channelId member =
          (r.put (normaliseId channelId)
            { channel with
              members := insert (strip member) channel.members
              invites := channel.invites.erase (strip member) }, .ok message) := by
  unfold join
  dsimp only
  split
  · exact Or.inl ⟨_, rfl⟩
  split
  · exact Or.inl ⟨_, rfl⟩
  rename_i channel hfound
  split
  · exact Or.inl ⟨_, rfl⟩
  rename_i hmember
  split
  · exact Or.inl ⟨_, rfl⟩
  rename_i hallowed
  refine Or.inr ⟨channel, _, hfound, hmember, ?_, rfl⟩
  by_cases howner : strip member = channel.owner
  · exact Or.inl howner
  · right
    by_contra hnot
    exact hallowed ⟨howner, hnot⟩

/-- A leave is refused and changes nothing, or takes a member out. -/
theorem leave_cases (r : ChannelRegistry) (channelId member : String) :
    (∃ reason, r.leave channelId member = (r, .error reason)) ∨
      ∃ channel message, r.channels.get? (normaliseId channelId) = some channel ∧
        strip member ∈ channel.members ∧
        r.leave channelId member =
          (if channel.members.erase (strip member) = ∅ then
              { r with channels := r.channels.erase (normaliseId channelId) }
            else r.put (normaliseId channelId)
              { channel with members := channel.members.erase (strip member) },
            .ok message) := by
  unfold leave
  dsimp only
  split
  · exact Or.inl ⟨_, rfl⟩
  rename_i channel hfound
  split
  · exact Or.inl ⟨_, rfl⟩
  rename_i hmember
  exact Or.inr ⟨channel, _, hfound, not_not.mp hmember, rfl⟩

/-- Writing the channel of one id leaves every other id alone. -/
theorem change_put {r : ChannelRegistry} {op : ChannelOp} {cid key : String} {channel : Channel}
    (hno : cid ≠ key → ∀ name, ¬ Leaves cid name (r, op))
    (h : cid = key → ChannelChange r op cid (r.channels.get? cid) (some channel)) :
    ChannelChange r op cid (r.channels.get? cid) ((r.put key channel).channels.get? cid) := by
  unfold put
  dsimp only
  by_cases hkey : cid = key
  · subst hkey
    rw [Dict.get?_set_self]
    exact h rfl
  · rw [Dict.get?_set_ne _ _ (Ne.symm hkey)]
    exact .kept _ (hno hkey)

theorem create_change (r : ChannelRegistry) (channelId owner label cid : String) :
    ChannelChange r (.create channelId owner label) cid (r.channels.get? cid)
      ((r.create channelId owner label).1.channels.get? cid) := by
  have hno : ∀ name, ¬ Leaves cid name (r, .create channelId owner label) := fun _ h => h
  unfold create
  dsimp only
  split
  · exact .kept _ hno
  split
  · exact .kept _ hno
  split
  · exact .kept _ hno
  rename_i hfresh
  split
  · exact .kept _ hno
  apply change_put (fun _ => hno)
  rintro rfl
  have hnone : r.channels.get? (normaliseId channelId) = none := by simpa using hfresh
  rw [hnone]
  exact .created _ rfl rfl rfl

theorem invite_change (r : ChannelRegistry) (channelId inviter invitee cid : String) :
    ChannelChange r (.invite channelId inviter invitee) cid (r.channels.get? cid)
      ((r.invite channelId inviter invitee).1.channels.get? cid) := by
  have hno : ∀ name, ¬ Leaves cid name (r, .invite channelId inviter invitee) := fun _ h => h
  rcases r.invite_cases channelId inviter invitee with ⟨reason, heq⟩ |
    ⟨channel, message, hfound, howner, hmember, heq⟩
  · rw [heq]
    exact .kept _ hno
  · have hverdict : (r.invite channelId inviter invitee).2 = .ok message := by rw [heq]
    rw [heq]
    apply change_put (fun _ => hno)
    rintro rfl
    rw [hfound]
    exact .invited channel (strip invitee) hmember
      ⟨rfl, howner, rfl, ⟨channel, hfound, rfl⟩, message, hverdict⟩

theorem join_change (r : ChannelRegistry) (channelId member cid : String) :
    ChannelChange r (.join channelId member) cid (r.channels.get? cid)
      ((r.join channelId member).1.channels.get? cid) := by
  have hno : ∀ name, ¬ Leaves cid name (r, .join channelId member) := fun _ h => h
  rcases r.join_cases channelId member with ⟨reason, heq⟩ |
    ⟨channel, message, hfound, hmember, hallowed, heq⟩
  · rw [heq]
    exact .kept _ hno
  · have hjoins : cid = normaliseId channelId → strip member ∈ channel.invites →
        JoinsInvited cid (strip member) (r, .join channelId member) := by
      rintro rfl hinvited
      refine ⟨rfl, rfl, ⟨channel, hfound, hinvited⟩, ⟨message, by rw [heq]⟩, ?_⟩
      rw [heq]
      refine ⟨_, Dict.get?_set_self _ _ _, ?_, ?_⟩
      · exact Finset.mem_insert_self _ _
      · exact Finset.notMem_erase _ _
    rw [heq]
    apply change_put (fun _ => hno)
    intro hcid
    rw [hcid, hfound, ← hcid]
    refine .joined channel (strip member) hmember ?_ ⟨channelId, member, rfl⟩
    rcases hallowed with howner | hinvited
    · exact Or.inl howner
    · exact Or.inr (hjoins hcid hinvited)

theorem leave_change (r : ChannelRegistry) (channelId member cid : String) :
    ChannelChange r (.leave channelId member) cid (r.channels.get? cid)
      ((r.leave channelId member).1.channels.get? cid) := by
  rcases r.leave_cases channelId member with ⟨reason, heq⟩ |
    ⟨channel, message, hfound, hmember, heq⟩
  · have hno : ∀ name, ¬ Leaves cid name (r, .leave channelId member) := by
      rintro name ⟨-, -, message, hok⟩
      rw [heq] at hok
      cases hok
    rw [heq]
    exact .kept _ hno
  · have hname : ∀ other, Leaves cid other (r, .leave channelId member) →
        other = strip member := by
      rintro other ⟨-, hother, -⟩
      exact hother.symm
    have hother : cid ≠ normaliseId channelId →
        ∀ name, ¬ Leaves cid name (r, .leave channelId member) := by
      rintro hne name ⟨hcid, -⟩
      exact hne hcid.symm
    rw [heq]
    dsimp only
    split
    · rename_i hempty
      by_cases hcid : cid = normaliseId channelId
      · rw [hcid, hfound, Dict.get?_erase_self]
        exact .dropped channel
      · rw [Dict.get?_erase_ne _ hcid]
        exact .kept _ (hother hcid)
    · rename_i hrest
      apply change_put hother
      intro hcid
      rw [hcid, hfound, ← hcid]
      exact .left channel (strip member) hmember hrest hname

end

theorem retainMessage_change (r : ChannelRegistry) (channelId : String) (message : Members)
    (maxMessages : Json) (cid : String) :
    ChannelChange r (.retainMessage channelId message maxMessages) cid (r.channels.get? cid)
      ((r.retainMessage channelId message maxMessages).channels.get? cid) := by
  have hno : ∀ name, ¬ Leaves cid name (r, .retainMessage channelId message maxMessages) :=
    fun _ h => h
  unfold retainMessage find
  split
  · exact .kept _ hno
  rename_i channel hfound
  dsimp only
  apply change_put (fun _ => hno)
  intro hcid
  rw [hcid, hfound, ← hcid]
  refine .retained channel message _ ?_ ⟨hcid.symm, rfl⟩
  have happend : ∀ m ∈ channel.history ++ [message], m ∈ channel.history ∨ m = message := by
    intro m hm
    rcases List.mem_append.mp hm with hm | hm
    · exact Or.inl hm
    · exact Or.inr (List.mem_singleton.mp hm)
  intro m hm
  split at hm
  · exact happend m (List.mem_of_mem_drop hm)
  · exact happend m hm

theorem next_change (r : ChannelRegistry) (op : ChannelOp) (cid : String) :
    ChannelChange r op cid (r.channels.get? cid) ((op.next r).channels.get? cid) := by
  cases op with
  | create channelId owner label => exact r.create_change channelId owner label cid
  | invite channelId inviter invitee => exact r.invite_change channelId inviter invitee cid
  | join channelId member => exact r.join_change channelId member cid
  | leave channelId member => exact r.leave_change channelId member cid
  | retainMessage channelId message maxMessages =>
    exact r.retainMessage_change channelId message maxMessages cid

end ChannelRegistry

/-! ## Where memberships come from -/

/-- No name is invited and a member, and some name is a member. -/
structure Channel.Sound (channel : Channel) : Prop where
  nonempty : channel.members ≠ ∅
  apart : ∀ name ∈ channel.invites, name ∉ channel.members

/-- The incarnation of the channel goes on and the name does not leave. -/
def Stays (cid name : String) (call : ChannelCall) : Prop :=
  Continues cid call ∧ ¬ Leaves cid name call

/-- The owner invited the name in this incarnation, and the name has not left since. -/
def Pending (cid owner name : String) (calls : List ChannelCall) : Prop :=
  ∃ before invite after, calls = before ++ invite :: after ∧ Invites cid owner name invite ∧
    ∀ call ∈ invite :: after, Stays cid name call

/-- The owner invited the name in this incarnation, the name joined with that invite, and it
has not left since. -/
def JoinedByInvite (cid owner name : String) (calls : List ChannelCall) : Prop :=
  ∃ before invite between join after, calls = before ++ invite :: (between ++ join :: after) ∧
    Invites cid owner name invite ∧ JoinsInvited cid name join ∧
    ∀ call ∈ invite :: (between ++ join :: after), Stays cid name call

theorem Pending.now {cid owner name : String} (calls : List ChannelCall) {call : ChannelCall}
    (h : Invites cid owner name call) (hstays : Stays cid name call) :
    Pending cid owner name (calls ++ [call]) := by
  refine ⟨calls, call, [], rfl, h, ?_⟩
  intro other hother
  rw [List.mem_singleton] at hother
  exact hother ▸ hstays

theorem Pending.later {cid owner name : String} {calls : List ChannelCall} {call : ChannelCall}
    (h : Pending cid owner name calls) (hstays : Stays cid name call) :
    Pending cid owner name (calls ++ [call]) := by
  obtain ⟨before, invite, after, rfl, hinvite, hafter⟩ := h
  refine ⟨before, invite, after ++ [call], by simp, hinvite, ?_⟩
  intro other hother
  rw [← List.cons_append, List.mem_append, List.mem_singleton] at hother
  rcases hother with hother | rfl
  · exact hafter other hother
  · exact hstays

theorem Pending.join {cid owner name : String} {calls : List ChannelCall} {call : ChannelCall}
    (h : Pending cid owner name calls) (hjoin : JoinsInvited cid name call)
    (hstays : Stays cid name call) : JoinedByInvite cid owner name (calls ++ [call]) := by
  obtain ⟨before, invite, between, rfl, hinvite, hbetween⟩ := h
  refine ⟨before, invite, between, call, [], by simp, hinvite, hjoin, ?_⟩
  intro other hother
  rw [← List.cons_append, List.mem_append, List.mem_singleton] at hother
  rcases hother with hother | rfl
  · exact hbetween other hother
  · exact hstays

theorem JoinedByInvite.later {cid owner name : String} {calls : List ChannelCall} {call : ChannelCall}
    (h : JoinedByInvite cid owner name calls) (hstays : Stays cid name call) :
    JoinedByInvite cid owner name (calls ++ [call]) := by
  obtain ⟨before, invite, between, join, after, rfl, hinvite, hjoin, hall⟩ := h
  refine ⟨before, invite, between, join, after ++ [call], by simp, hinvite, hjoin, ?_⟩
  intro other hother
  have hsplit : invite :: (between ++ join :: (after ++ [call])) =
      invite :: (between ++ join :: after) ++ [call] := by simp
  rw [hsplit, List.mem_append, List.mem_singleton] at hother
  rcases hother with hother | rfl
  · exact hall other hother
  · exact hstays

omit [Builtins] in
theorem not_leaves_of_invites {cid owner name : String} {call : ChannelCall}
    (h : Invites cid owner name call) (other : String) : ¬ Leaves cid other call := by
  obtain ⟨r, op⟩ := call
  cases op with
  | leave => exact absurd h id
  | create => exact id
  | invite => exact id
  | join => exact id
  | retainMessage => exact id

omit [Builtins] in
theorem not_leaves_of_retains {cid : String} {message : Members} {call : ChannelCall}
    (h : Retains cid message call) (other : String) : ¬ Leaves cid other call := by
  obtain ⟨r, op⟩ := call
  cases op with
  | leave => exact absurd h id
  | create => exact id
  | invite => exact id
  | join => exact id
  | retainMessage => exact id

/-- What the calls so far say of every registered channel. -/
structure ChannelRegistry.Accounted (r : ChannelRegistry) (calls : List ChannelCall) : Prop where
  sound : ∀ {cid channel}, r.channels.get? cid = some channel → channel.Sound
  pending : ∀ {cid channel name}, r.channels.get? cid = some channel →
    name ∈ channel.invites → Pending cid channel.owner name calls
  admitted : ∀ {cid channel name}, r.channels.get? cid = some channel →
    name ∈ channel.members → name ≠ channel.owner → JoinedByInvite cid channel.owner name calls
  retained : ∀ {cid channel message}, r.channels.get? cid = some channel →
    message ∈ channel.history →
      Trace.Since (fun call => Retains cid message call ∧ Continues cid call) (Continues cid) calls

namespace ChannelRegistry

/-- What is accounted for of one channel after one call. -/
structure AccountedChannel (cid : String) (channel : Channel) (calls : List ChannelCall) :
    Prop where
  sound : channel.Sound
  pending : ∀ name ∈ channel.invites, Pending cid channel.owner name calls
  admitted : ∀ name ∈ channel.members, name ≠ channel.owner →
    JoinedByInvite cid channel.owner name calls
  retained : ∀ message ∈ channel.history,
    Trace.Since (fun call => Retains cid message call ∧ Continues cid call) (Continues cid) calls

theorem Accounted.change {r : ChannelRegistry} {calls : List ChannelCall}
    (h : r.Accounted calls) {op : ChannelOp} {cid : String} {channel : Channel}
    (hget : (op.next r).channels.get? cid = some channel) :
    AccountedChannel cid channel (calls ++ [(r, op)]) := by
  have hchange := next_change r op cid
  have hgoes : r.channels.get? cid ≠ none → Continues cid (r, op) := by
    intro hold
    refine ⟨hold, ?_⟩
    show (op.next r).channels.get? cid ≠ none
    rw [hget]
    exact Option.some_ne_none channel
  rw [hget] at hchange
  generalize hold : r.channels.get? cid = old at hchange hgoes
  generalize hnew : some channel = new at hchange
  cases hchange with
  | kept _ hop =>
    subst hnew
    have hgoes := hgoes (Option.some_ne_none channel)
    refine ⟨h.sound hold, ?_, ?_, ?_⟩
    · intro name hname
      exact (h.pending hold hname).later ⟨hgoes, hop name⟩
    · intro name hname howner
      exact (h.admitted hold hname howner).later ⟨hgoes, hop name⟩
    · intro message hmessage
      exact (h.retained hold hmessage).later hgoes
  | created fresh hmembers hinvites hhistory =>
    cases hnew
    refine ⟨⟨?_, ?_⟩, ?_, ?_, ?_⟩
    · rw [hmembers]
      exact Finset.singleton_ne_empty _
    · rw [hinvites]
      intro name hname
      exact absurd hname (Finset.notMem_empty name)
    · rw [hinvites]
      intro name hname
      exact absurd hname (Finset.notMem_empty name)
    · rw [hmembers]
      intro name hname howner
      exact absurd (Finset.mem_singleton.mp hname) howner
    · rw [hhistory]
      intro message hmessage
      cases hmessage
  | invited before name hmember hop =>
    cases hnew
    have hgoes := hgoes (Option.some_ne_none before)
    have hno := not_leaves_of_invites hop
    have hsound := h.sound hold
    refine ⟨⟨hsound.nonempty, ?_⟩, ?_, ?_, ?_⟩
    · intro other hother
      rcases Finset.mem_insert.mp hother with rfl | hother
      · exact hmember
      · exact hsound.apart other hother
    · intro other hother
      rcases Finset.mem_insert.mp hother with rfl | hother
      · exact Pending.now calls hop ⟨hgoes, hno other⟩
      · exact (h.pending hold hother).later ⟨hgoes, hno other⟩
    · intro other hother howner
      exact (h.admitted hold hother howner).later ⟨hgoes, hno other⟩
    · intro message hmessage
      exact (h.retained hold hmessage).later hgoes
  | joined before name hmember hop hjoin =>
    cases hnew
    have hgoes := hgoes (Option.some_ne_none before)
    have hno : ∀ other, ¬ Leaves cid other (r, op) := by
      obtain ⟨channelId, member, rfl⟩ := hjoin
      exact fun _ => id
    have hsound := h.sound hold
    refine ⟨⟨Finset.insert_ne_empty _ _, ?_⟩, ?_, ?_, ?_⟩
    · intro other hother hin
      obtain ⟨hne, hother⟩ := Finset.mem_erase.mp hother
      rcases Finset.mem_insert.mp hin with heq | hin
      · exact hne heq
      · exact hsound.apart other hother hin
    · intro other hother
      exact (h.pending hold (Finset.mem_of_mem_erase hother)).later ⟨hgoes, hno other⟩
    · intro other hother howner
      rcases Finset.mem_insert.mp hother with rfl | hother
      · -- the name that joins was pending, or is the owner
        have hjoins := hop.resolve_left howner
        have hinvited : other ∈ before.invites := by
          obtain ⟨channelId, member, rfl⟩ := hjoin
          obtain ⟨-, -, ⟨found, hfound, hin⟩, -⟩ := hjoins
          have hsame : found = before := Option.some_inj.mp (hfound.symm.trans hold)
          exact hsame ▸ hin
        exact (h.pending hold hinvited).join hjoins ⟨hgoes, hno other⟩
      · exact (h.admitted hold hother howner).later ⟨hgoes, hno other⟩
    · intro message hmessage
      exact (h.retained hold hmessage).later hgoes
  | left before name hmember hrest hop =>
    cases hnew
    have hgoes := hgoes (Option.some_ne_none before)
    have hsound := h.sound hold
    refine ⟨⟨hrest, ?_⟩, ?_, ?_, ?_⟩
    · intro other hother hin
      exact hsound.apart other hother (Finset.mem_of_mem_erase hin)
    · intro other hother
      refine (h.pending hold hother).later ⟨hgoes, ?_⟩
      intro hleaves
      rw [hop other hleaves] at hother
      exact hsound.apart name hother hmember
    · intro other hother howner
      refine (h.admitted hold (Finset.mem_of_mem_erase hother) howner).later ⟨hgoes, ?_⟩
      intro hleaves
      exact Finset.ne_of_mem_erase hother (hop other hleaves)
    · intro message hmessage
      exact (h.retained hold hmessage).later hgoes
  | dropped before => cases hnew
  | retained before message history hhistory hop =>
    cases hnew
    have hgoes := hgoes (Option.some_ne_none before)
    have hno := not_leaves_of_retains hop
    have hsound := h.sound hold
    refine ⟨⟨hsound.nonempty, hsound.apart⟩, ?_, ?_, ?_⟩
    · intro other hother
      exact (h.pending hold hother).later ⟨hgoes, hno other⟩
    · intro other hother howner
      exact (h.admitted hold hother howner).later ⟨hgoes, hno other⟩
    · intro m hm
      rcases hhistory m hm with hm | rfl
      · exact (h.retained hold hm).later hgoes
      · exact Trace.Since.now calls ⟨hop, hgoes⟩

theorem Accounted.next {r : ChannelRegistry} {calls : List ChannelCall} (h : r.Accounted calls)
    (op : ChannelOp) : (op.next r).Accounted (calls ++ [(r, op)]) where
  sound hget := (h.change hget).sound
  pending hget hname := (h.change hget).pending _ hname
  admitted hget hname howner := (h.change hget).admitted _ hname howner
  retained hget hmessage := (h.change hget).retained _ hmessage

/-- Along every run from an empty registry. -/
theorem run_accounted (limit : Json) (ops : List ChannelOp) :
    (Trace.run ChannelOp.next (init limit) ops).Accounted
      (Trace.trace ChannelOp.next (init limit) ops) := by
  induction ops using List.reverseRecOn with
  | nil =>
    refine ⟨?_, ?_, ?_, ?_⟩
    · intro cid channel hget
      cases hget
    · intro cid channel name hget
      cases hget
    · intro cid channel name hget
      cases hget
    · intro cid channel message hget
      cases hget
  | append_singleton ops op ih =>
    rw [Trace.run_append, Trace.trace_append]
    exact ih.next op

end ChannelRegistry

/-- What a private channel promises after the calls. -/
structure PrivateAdmission (r : ChannelRegistry) (calls : List ChannelCall) : Prop where
  /-- A member is the owner, or was invited by the owner in this incarnation, joined with
  that invite, and has not left since. -/
  members : ∀ cid channel name, r.channels.get? cid = some channel → name ∈ channel.members →
    name = channel.owner ∨ JoinedByInvite cid channel.owner name calls
  apart : ∀ cid channel name, r.channels.get? cid = some channel →
    ¬ (name ∈ channel.invites ∧ name ∈ channel.members)
  nonempty : ∀ cid channel, r.channels.get? cid = some channel → channel.members ≠ ∅
  /-- History goes to a current member and holds what this incarnation retained. -/
  history : ∀ channelId member limit message, message ∈ r.historyFor channelId member limit →
    r.isMember channelId member = true ∧
      Trace.Since
        (fun call => Retains (normaliseId channelId) message call ∧
          Continues (normaliseId channelId) call)
        (Continues (normaliseId channelId)) calls

/-- Membership of a private channel comes from its owner's invites, in every run. -/
theorem private_channel_admission (limit : Json) (ops : List ChannelOp) :
    PrivateAdmission (Trace.run ChannelOp.next (ChannelRegistry.init limit) ops)
      (Trace.trace ChannelOp.next (ChannelRegistry.init limit) ops) := by
  have h := ChannelRegistry.run_accounted limit ops
  generalize Trace.run ChannelOp.next (ChannelRegistry.init limit) ops = r at h
  refine ⟨?_, ?_, ?_, ?_⟩
  · intro cid channel name hget hname
    by_cases howner : name = channel.owner
    · exact Or.inl howner
    · exact Or.inr (h.admitted hget hname howner)
  · rintro cid channel name hget ⟨hinvited, hmember⟩
    exact (h.sound hget).apart name hinvited hmember
  · intro cid channel hget
    exact (h.sound hget).nonempty
  · intro channelId member limit message hmessage
    unfold ChannelRegistry.historyFor at hmessage
    unfold ChannelRegistry.isMember
    cases hfound : r.find channelId with
    | none =>
      rw [hfound] at hmessage
      cases hmessage
    | some channel =>
      rw [hfound] at hmessage
      dsimp only at hmessage ⊢
      by_cases hmember : strip member ∈ channel.members
      · rw [if_neg (not_not.mpr hmember)] at hmessage
        exact ⟨decide_eq_true hmember, h.retained hfound (List.mem_of_mem_drop hmessage)⟩
      · rw [if_pos hmember] at hmessage
        cases hmessage

end SynapseChannel
