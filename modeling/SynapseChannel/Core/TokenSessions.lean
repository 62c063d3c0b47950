import SynapseChannel.Lib.Timers
import SynapseChannel.Lib.Trace
import SynapseChannel.Core.TokenSet

/-!
# Core — TokenSessions

Sessions admitted by a token set, followed until their socket closes. In
the closing mode each has a timer for the end of its token, and a set that
no longer admits its token ends it.
-/

namespace SynapseChannel.TokenSet

open Py

/-- Close reason for a session whose token reached its end of validity. -/
def expiryCloseReason : String := "connect token expired"

/-- Close reason for a session whose token left the set or no longer names
its agent. -/
def retiredCloseReason : String := "connect token retired"

/-- One followed session. `serial` tells one session object from another. -/
structure Session (τ : Type) where
  entry : TokenEntry τ
  agent : String
  timer : Option Nat := none
  ended : Option String := none
  closedByHub : Bool := false
  serial : Nat

/-- A session the hub ended, and the socket it asked to close. -/
structure Closing (ω τ : Type) where
  websocket : ω
  session : Session τ
  reason : String

/-- A journal row of a session that outlived its token. -/
structure SessionEnded where
  tokenId : String
  agent : String
  closed : Bool
  reason : String

/-- The tracker, with the token set it observes and the loop that runs its
timers. The loop's clock and the set's advance together. -/
structure TokenSessions (ω τ : Type) where
  authenticator : Authenticator τ
  audits : Bool
  sessions : Dict ω (Session τ) := Dict.empty
  loop : Timers ω τ := Timers.empty
  closing : List (Closing ω τ) := []
  rows : List SessionEnded := []
  created : Nat := 0

namespace TokenSessions

variable {ω τ : Type} [DecidableEq ω] [CommRing τ] [LinearOrder τ]

section
variable (T : TokenSessions ω τ)

/-- When a session's timer fires, if it is to have one. -/
def deadline (session : Session τ) : Option τ :=
  if T.authenticator.expiryClosesSessions then
    session.entry.notAfter.map fun notAfter =>
      T.authenticator.now + max 0 (notAfter - T.authenticator.now)
  else none

/-- Set the session's timer from its entry, replacing any old one. -/
def arm (websocket : ω) (session : Session τ) : TokenSessions ω τ :=
  let loop := T.loop.cancelHeld session.timer
  match T.deadline session with
  | none =>
    { T with
      loop := loop
      sessions := T.sessions.set websocket { session with timer := none } }
  | some due =>
    { T with
      loop := loop.callLater websocket due
      sessions := T.sessions.set websocket { session with timer := some loop.next } }

/-- Follow a session that `entry` admitted for `agent`. -/
def admitted (websocket : ω) (entry : TokenEntry τ) (agent : String) : TokenSessions ω τ :=
  { T with created := T.created + 1 }.arm websocket
    { entry := entry, agent := agent, serial := T.created }

/-- Close a followed session. -/
def finish (websocket : ω) (session : Session τ) (reason : String) : TokenSessions ω τ :=
  let session' := { session with timer := none, closedByHub := true }
  { T with
    loop := T.loop.cancelHeld session.timer
    sessions := T.sessions.set websocket session'
    closing := T.closing ++ [⟨websocket, session', reason⟩] }

/-- Close a session whose token reached its end of validity; `none` is the
`KeyError` of a socket that is not followed. -/
def expire (websocket : ω) : Option (TokenSessions ω τ) :=
  (T.sessions.get? websocket).map fun session =>
    T.finish websocket { session with ended := some "expired" } expiryCloseReason

/-- Mark a session whose token no longer admits it, and close it in the
closing mode. -/
def retire (websocket : ω) (session : Session τ) : TokenSessions ω τ :=
  let session' := { session with ended := session.ended.or (some "retired") }
  if T.authenticator.expiryClosesSessions then T.finish websocket session' retiredCloseReason
  else { T with sessions := T.sessions.set websocket session' }

/-- The entry of a session's token in the set in force that still admits it. -/
def admittingEntry (a : Authenticator τ) (session : Session τ) : Option (TokenEntry τ) :=
  (a.entries.get? session.entry.tokenId).filter fun entry =>
    a.stillAdmits entry session.entry session.agent

/-- Judge one session against the set now in force. -/
def judge (websocket : ω) (session : Session τ) : TokenSessions ω τ :=
  if session.closedByHub then T
  else
    match admittingEntry T.authenticator session with
    | none => T.retire websocket session
    | some entry =>
      if entry = session.entry then T else T.arm websocket { session with entry := entry }

/-- Re-judge every followed session against the set now in force. -/
def setApplied : TokenSessions ω τ :=
  T.sessions.items.foldl (fun T item => T.judge item.1 item.2) T

/-- Look at the token-set file. A rejected file changes no session. -/
def refresh (reading : Reading τ) : TokenSessions ω τ :=
  let T' := { T with authenticator := T.authenticator.refresh reading }
  match reading with
  | .valid _ => T'.setApplied
  | _ => T'

/-- Stop following a socket that closed; record it if it outlived its token. -/
def closed (websocket : ω) : TokenSessions ω τ :=
  match T.sessions.get? websocket with
  | none => T
  | some session =>
    let outlived := session.entry.notAfter.any fun notAfter =>
      decide (notAfter ≤ T.authenticator.now)
    let reason := session.ended.or (if outlived then some "expired" else none)
    { T with
      sessions := T.sessions.erase websocket
      loop := T.loop.cancelHeld session.timer
      rows :=
        match reason with
        | some reason =>
          if T.audits then
            T.rows ++ [⟨session.entry.tokenId, session.agent, session.closedByHub, reason⟩]
          else T.rows
        | none => T.rows }

/-- Run a pending timer that is due. A callback that raises has done nothing. -/
def fire (timer : Nat) : TokenSessions ω τ :=
  match T.loop.get? timer with
  | none => T
  | some (websocket, due) =>
    if due ≤ T.authenticator.now then
      let T' := { T with loop := T.loop.cancel timer }
      (T'.expire websocket).getD T'
    else T

end

variable [Builtins]

/-- Authenticate the first message of an unbound socket and follow the
session. With an audit, `recorded` is whether the admission was written. -/
def authenticate (T : TokenSessions ω τ) (websocket : ω) (token agent : String)
    (recorded : Bool) : TokenSessions ω τ :=
  match (T.authenticator.authenticateOutcome token agent).entry with
  | none => T
  | some entry => if T.audits && !recorded then T else T.admitted websocket entry agent

/-- What happens on the loop. An authentication looks at the file first, as
a step of its own. -/
inductive Step (ω τ : Type) where
  | clock (now : τ)
  | refresh (reading : Reading τ)
  | authenticate (websocket : ω) (token agent : String) (recorded : Bool)
  | fire (timer : Nat)
  | disconnect (websocket : ω)

def step (T : TokenSessions ω τ) : Step ω τ → TokenSessions ω τ
  | .clock now => { T with authenticator := { T.authenticator with now := now } }
  | .refresh reading => T.refresh reading
  | .authenticate websocket token agent recorded => T.authenticate websocket token agent recorded
  | .fire timer => T.fire timer
  | .disconnect websocket => T.closed websocket

/-- The tracker of a hub that starts with a set in force. -/
def start (authenticator : Authenticator τ) (audits : Bool) : TokenSessions ω τ :=
  { authenticator := authenticator, audits := audits }

def run (authenticator : Authenticator τ) (audits : Bool) (steps : List (Step ω τ)) :
    TokenSessions ω τ :=
  Trace.run step (start authenticator audits) steps

end TokenSessions

end SynapseChannel.TokenSet
