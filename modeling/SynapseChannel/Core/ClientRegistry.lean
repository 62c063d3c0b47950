import SynapseChannel.Lib.Digest

/-!
# Core — ClientRegistry

Who is bound to which name: the leases on names, the damping of takeovers,
and the two maps between names and sockets. Each function here runs without
an await.
-/

namespace SynapseChannel

open Py
open Framing (utf8)

/-- A connection, by the identity of its object. -/
abbrev Socket := Nat

variable [Builtins]

/-! ## Leases on names -/

/-- The digest a lease table keeps of a token. -/
def tokenDigest (token : String) : String := Builtins.sha256Hex (utf8 token)

structure NameOwnership where
  offlineTtl : Float
  tokenDigests : Dict String String := .empty
  offlineSince : Dict String Float := .empty

namespace NameOwnership

omit [Builtins] in
def release (o : NameOwnership) (name : String) : NameOwnership :=
  { o with tokenDigests := o.tokenDigests.erase name, offlineSince := o.offlineSince.erase name }

omit [Builtins] in
/-- `is_leased`: a lapsed lease is released on the spot. -/
def isLeased (o : NameOwnership) (name : String) (now : Float) : Bool × NameOwnership :=
  if o.tokenDigests.contains name then
    match o.offlineSince.get? name with
    | some since => if now - since ≥ o.offlineTtl then (false, o.release name) else (true, o)
    | none => (true, o)
  else (false, o)

/-- `grant` of a minted token. -/
def grant (o : NameOwnership) (name token : String) : NameOwnership :=
  { o with
    tokenDigests := o.tokenDigests.set name (tokenDigest token)
    offlineSince := o.offlineSince.erase name }

def «matches» (o : NameOwnership) (name token : String) (now : Float) : Bool × NameOwnership :=
  if token = "" then (false, o)
  else
    match o.isLeased name now with
    | (true, o) => (o.tokenDigests.get? name == some (tokenDigest token), o)
    | (false, o) => (false, o)

omit [Builtins] in
def markOnline (o : NameOwnership) (name : String) : NameOwnership :=
  { o with offlineSince := o.offlineSince.erase name }

omit [Builtins] in
/-- `mark_offline`: the earliest stamp stays. -/
def markOffline (o : NameOwnership) (name : String) (now : Float) : NameOwnership :=
  if o.tokenDigests.contains name && !o.offlineSince.contains name then
    { o with offlineSince := o.offlineSince.set name now }
  else o

end NameOwnership

/-! ## Takeovers -/

inductive TakeoverVerdict where
  | accept
  | cooldown
  | quarantineEnter
  | quarantineActive
  deriving DecidableEq

structure TakeoverDamping where
  takeoverCooldown : Float
  takeoverOscillationWindow : Float
  takeoverOscillationThreshold : Nat
  takeoverQuarantine : Float
  lastTakeover : Dict String Float := .empty
  takeoverTimes : Dict String (List Float) := .empty
  quarantineUntil : Dict String Float := .empty

omit [Builtins] in
/-- `_classify_takeover` past the quarantine. -/
def TakeoverDamping.classifyRecent (d : TakeoverDamping) (sender : String) (now : Float) :
    TakeoverDamping × TakeoverVerdict :=
  let tooSoon :=
    match d.lastTakeover.get? sender with
    | some last => decide (now - last < d.takeoverCooldown)
    | none => false
  if tooSoon then (d, .cooldown)
  else
    let cutoff := now - d.takeoverOscillationWindow
    let recent :=
      (((d.takeoverTimes.get? sender).getD []).filter fun stamp => stamp ≥ cutoff) ++ [now]
    if recent.length ≥ d.takeoverOscillationThreshold then
      ({ d with
          quarantineUntil := d.quarantineUntil.set sender (now + d.takeoverQuarantine)
          takeoverTimes := d.takeoverTimes.erase sender }, .quarantineEnter)
    else ({ d with takeoverTimes := d.takeoverTimes.set sender recent }, .accept)

omit [Builtins] in
/-- `_classify_takeover`. -/
def TakeoverDamping.classifyTakeover (d : TakeoverDamping) (sender : String) (now : Float) :
    TakeoverDamping × TakeoverVerdict :=
  match d.quarantineUntil.get? sender with
  | some expiry =>
    if now < expiry then (d, .quarantineActive)
    else
      TakeoverDamping.classifyRecent
        { d with
          quarantineUntil := d.quarantineUntil.erase sender
          takeoverTimes := d.takeoverTimes.erase sender } sender now
  | none => d.classifyRecent sender now

/-! ## The registry -/

/-- What a frame says of its sender. -/
structure SenderFrame where
  sender : String
  takeover : Bool
  lease : Bool
  ownerLease : String

/-- The fields a registration reads; `anonymous` names a socket whose frame names no sender. -/
def senderFrame (data : Members) (anonymous : String) : SenderFrame where
  sender :=
    let sender := strip (((data.get "sender").or (.str "")).toStr)
    if sender = "" then anonymous else sender
  takeover := (data.get "takeover").truthy
  lease := (data.get "lease").truthy
  ownerLease := ((data.get "owner_lease").or (.str "")).toStr

/-- The clock, each time a resolution reads it. -/
structure ResolveTimes where
  leased : Float
  matched : Float
  takeover : Float
  admitted : Float

/-- What comes of a resolution before it awaits anything. -/
inductive Resolution where
  /-- Refused; the socket is closed. -/
  | refused
  /-- The socket was bound to the name already. -/
  | known
  /-- Bound, with the lease granted to it, if any. -/
  | bound (granted : Option String)
  /-- Bound in the place of `owner`, which is closed. -/
  | superseded (owner : Socket) (granted : Option String)

structure HubClientRegistry where
  connectedClients : List Socket := []
  agentSockets : Dict String Socket := .empty
  socketAgent : Dict Socket String := .empty
  ownership : NameOwnership
  damping : TakeoverDamping

namespace HubClientRegistry

/-- `is_reserved_sender`. -/
def isReservedSender (sender : String) : Bool :=
  Builtins.casefold sender == Builtins.casefold "SynapseHub" ||
    Builtins.casefold sender == "synapse" || Builtins.casefold sender == "system" ||
    sender.toList.contains '@'

section

omit [Builtins]

def addClient (r : HubClientRegistry) (socket : Socket) : HubClientRegistry :=
  { r with connectedClients := r.connectedClients ++ [socket] }

/-- `drop_client`. -/
def dropClient (r : HubClientRegistry) (socket : Socket) (now : Float) : HubClientRegistry :=
  let r := { r with connectedClients := r.connectedClients.filter (· ≠ socket) }
  match r.socketAgent.get? socket with
  | none => r
  | some name =>
    let r := { r with socketAgent := r.socketAgent.erase socket }
    if r.agentSockets.get? name = some socket then
      { r with
        agentSockets := r.agentSockets.erase name
        ownership := r.ownership.markOffline name now }
    else r

/-- `revoke_name`. -/
def revokeName (r : HubClientRegistry) (name : String) : HubClientRegistry :=
  { r with
    agentSockets := r.agentSockets.erase name
    socketAgent :=
      match r.agentSockets.get? name with
      | some socket => r.socketAgent.erase socket
      | none => r.socketAgent
    ownership := r.ownership.release name }

def boundAgent (r : HubClientRegistry) (socket : Socket) : Option String := r.socketAgent.get? socket

/-- `set_agent_socket`. -/
def setAgentSocket (r : HubClientRegistry) (sender : String) (socket : Socket) : HubClientRegistry :=
  { r with agentSockets := r.agentSockets.set sender socket }

end

/-- `_admit_owner` up to its send: the lease granted, if one is. -/
def admitOwner (r : HubClientRegistry) (frame : SenderFrame) (now : Float) (minted : String) :
    HubClientRegistry × Option String :=
  let ownership := r.ownership.markOnline frame.sender
  if !frame.lease then ({ r with ownership }, none)
  else
    match ownership.isLeased frame.sender now with
    | (true, ownership) => ({ r with ownership }, none)
    | (false, ownership) =>
      ({ r with ownership := ownership.grant frame.sender minted }, some minted)

/-- The gate of a leased name: whether the claim is refused. -/
def nameOwned (r : HubClientRegistry) (frame : SenderFrame) (times : ResolveTimes) :
    Bool × HubClientRegistry :=
  match r.ownership.isLeased frame.sender times.leased with
  | (false, ownership) => (false, { r with ownership })
  | (true, ownership) =>
    match ownership.matches frame.sender frame.ownerLease times.matched with
    | (same, ownership) => (!same, { r with ownership })

/-- `resolve_sender` up to its first await; `minted` is the token that is drawn if a lease is
granted. -/
def resolveSender (r : HubClientRegistry) (frame : SenderFrame) (socket : Socket)
    (times : ResolveTimes) (minted : String) : HubClientRegistry × Resolution :=
  if isReservedSender frame.sender then (r, .refused)
  else
    match r.socketAgent.get? socket with
    | some known => (r, if known = frame.sender then .known else .refused)
    | none =>
      match r.nameOwned frame times with
      | (true, r) => (r, .refused)
      | (false, r) =>
        match r.agentSockets.get? frame.sender with
        | some owner =>
          if owner = socket then
            let admitted := HubClientRegistry.admitOwner
              { r with socketAgent := r.socketAgent.set socket frame.sender } frame times.admitted
              minted
            (admitted.1, .bound admitted.2)
          else if frame.takeover then
            match r.damping.classifyTakeover frame.sender times.takeover with
            | (damping, .accept) =>
              let admitted := HubClientRegistry.admitOwner
                { r with
                  damping :=
                    { damping with
                      lastTakeover := damping.lastTakeover.set frame.sender times.takeover }
                  socketAgent := (r.socketAgent.erase owner).set socket frame.sender
                  agentSockets := r.agentSockets.set frame.sender socket }
                frame times.admitted minted
              (admitted.1, .superseded owner admitted.2)
            | (damping, _) => ({ r with damping }, .refused)
          else (r, .refused)
        | none =>
          let admitted := HubClientRegistry.admitOwner
            { r with socketAgent := r.socketAgent.set socket frame.sender } frame times.admitted
            minted
          (admitted.1, .bound admitted.2)

end HubClientRegistry

/-! ## Frames and their awaits -/

/-- Where a frame of a socket waits. -/
inductive FramePhase where
  /-- In the frame gate. -/
  | admitting (frame : SenderFrame)
  /-- In the gates of `register_sender`. -/
  | authorising (frame : SenderFrame) (wasBound : Bool)
  /-- Sending the lease that was granted. -/
  | granting (sender : String) (wasBound : Bool) (evicted : Option Socket)
  /-- Closing the socket that was superseded. -/
  | evicting (sender : String) (wasBound : Bool)
  /-- Sending the welcome of a secured hub. -/
  | welcoming (sender : String) (wasBound : Bool)
  /-- Waiting for the state actor. -/
  | heartbeat (sender : String)
  /-- Past the actor, with its answer. -/
  | resumed (sender : String) (applied : Bool)
  /-- In the rest of the frame: a refusal, notices, the frame's handler. -/
  | closing

structure SocketHub where
  /-- Whether the hub has an authenticator. -/
  secured : Bool
  clients : HubClientRegistry
  /-- The frame each socket is in the middle of. -/
  frames : Dict Socket FramePhase := .empty
  /-- When a socket that was bound to a name last went. -/
  departed : Dict String Float := .empty

/-- What happens at a hub. Between two of these no coroutine runs. -/
inductive SocketStep where
  | connect (socket : Socket)
  /-- A frame arrives on a socket that is in no other. -/
  | arrive (socket : Socket) (data : Members)
  /-- The frame of a socket goes on from where it waits: `passes` is what the gate it waits for
  says, and the rest is what a resolution draws and reads. -/
  | proceed (socket : Socket) (passes : Bool) (times : ResolveTimes) (minted : String)
  /-- The handler of a socket ends: its peer has gone, or an await of its frame raised. -/
  | disconnect (socket : Socket) (now : Float)
  /-- An operator reclaims a name. -/
  | revoke (name : String)

namespace SocketHub

section

omit [Builtins]

/-- The hub with a socket's frame at `phase`. -/
def waitAt (h : SocketHub) (socket : Socket) (phase : FramePhase) : SocketHub :=
  { h with frames := h.frames.set socket phase }

/-- The hub with no frame of the socket. -/
def idle (h : SocketHub) (socket : Socket) : SocketHub :=
  { h with frames := h.frames.erase socket }

/-- The await that follows a resolution: the welcome of a secured hub, or the actor. -/
def registered (h : SocketHub) (socket : Socket) (sender : String) (wasBound : Bool) : SocketHub :=
  if h.secured && !wasBound then h.waitAt socket (.welcoming sender wasBound)
  else h.waitAt socket (.heartbeat sender)

end

/-- A resolved frame up to its next await. -/
def resolve (h : SocketHub) (socket : Socket) (frame : SenderFrame) (wasBound : Bool)
    (times : ResolveTimes) (minted : String) : SocketHub :=
  match h.clients.resolveSender frame socket times minted with
  | (clients, .refused) => { h with clients }.waitAt socket .closing
  | (clients, .known) => { h with clients }.registered socket frame.sender wasBound
  | (clients, .bound granted) =>
    if granted.isSome then { h with clients }.waitAt socket (.granting frame.sender wasBound none)
    else { h with clients }.registered socket frame.sender wasBound
  | (clients, .superseded owner granted) =>
    if granted.isSome then
      { h with clients }.waitAt socket (.granting frame.sender wasBound (some owner))
    else { h with clients }.waitAt socket (.evicting frame.sender wasBound)

/-- The frame of a socket from one await to the next. -/
def advance (h : SocketHub) (socket : Socket) (passes : Bool) (times : ResolveTimes)
    (minted : String) : FramePhase → SocketHub
  | .admitting frame =>
    if !passes then h.waitAt socket .closing
    else if HubClientRegistry.isReservedSender frame.sender then h.waitAt socket .closing
    else h.waitAt socket (.authorising frame (h.clients.boundAgent socket).isSome)
  | .authorising frame wasBound =>
    if !passes then h.waitAt socket .closing else h.resolve socket frame wasBound times minted
  | .granting sender wasBound (some _) => h.waitAt socket (.evicting sender wasBound)
  | .granting sender wasBound none => h.registered socket sender wasBound
  | .evicting sender wasBound => h.registered socket sender wasBound
  | .welcoming sender _ => h.waitAt socket (.heartbeat sender)
  | .heartbeat sender =>
    h.waitAt socket (.resumed sender (h.clients.boundAgent socket = some sender))
  | .resumed sender applied =>
    if applied = false ∨ h.clients.boundAgent socket ≠ some sender then h.idle socket
    else { h with clients := h.clients.setAgentSocket sender socket }.waitAt socket .closing
  | .closing => h.idle socket

def step (h : SocketHub) : SocketStep → SocketHub
  | .connect socket =>
    if socket ∈ h.clients.connectedClients then h
    else { h with clients := h.clients.addClient socket }
  | .arrive socket data =>
    if socket ∈ h.clients.connectedClients ∧ h.frames.get? socket = none then
      h.waitAt socket (.admitting (senderFrame data (String.append "anon-" (toString socket))))
    else h
  | .proceed socket passes times minted =>
    match h.frames.get? socket with
    | none => h
    | some phase => h.advance socket passes times minted phase
  | .disconnect socket now =>
    if socket ∈ h.clients.connectedClients then
      { h with
        clients := h.clients.dropClient socket now
        frames := h.frames.erase socket
        departed :=
          match h.clients.socketAgent.get? socket with
          | some name => h.departed.set name now
          | none => h.departed }
    else h
  | .revoke name => { h with clients := h.clients.revokeName name }

omit [Builtins] in
/-- A hub that no socket has reached. -/
def init (secured : Bool) (offlineTtl : Float) (damping : TakeoverDamping) : SocketHub where
  secured
  clients := { ownership := { offlineTtl }, damping }

end SocketHub

end SynapseChannel
