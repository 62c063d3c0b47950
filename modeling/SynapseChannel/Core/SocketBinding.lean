import SynapseChannel.Core.ClientRegistry
import SynapseChannel.Lib.Trace

/-!
# Core — SocketBinding

One live socket a name: what a resolution does to the two maps, what each
step of a hub does with it, and that the maps stay inverse exactly while no
socket is bound to a name that another one is still registering.
-/

namespace SynapseChannel

open Py

variable [Builtins]

/-! ## Leases -/

namespace NameOwnership

/-- The lease of every other name is as it was. -/
def KeepsOthers (o o' : NameOwnership) (name : String) : Prop :=
  ∀ other ≠ name, o'.tokenDigests.get? other = o.tokenDigests.get? other ∧
    o'.offlineSince.get? other = o.offlineSince.get? other

/-- The lease of the name is as it was, or gone. -/
def MayLapse (o o' : NameOwnership) (name : String) : Prop :=
  o' = o ∨ o' = o.release name

section

omit [Builtins]

theorem isLeased_mayLapse (o : NameOwnership) (name : String) (now : Float) :
    o.MayLapse (o.isLeased name now).2 name := by
  unfold isLeased
  split
  · split
    · split
      · exact .inr rfl
      · exact .inl rfl
    · exact .inl rfl
  · exact .inl rfl

theorem isLeased_live {o : NameOwnership} {name : String} {now : Float}
    (h : (o.isLeased name now).1 = true) : (o.isLeased name now).2 = o := by
  unfold isLeased at h ⊢
  split
  · split
    · split
      · rename_i hheld _ since hsince hlapsed
        simp only [hheld, hsince, hlapsed, if_true] at h
        cases h
      · rfl
    · rfl
  · rfl

theorem MayLapse.trans {o o' o'' : NameOwnership} {name : String} (h : o.MayLapse o' name)
    (h' : o'.MayLapse o'' name) : o.MayLapse o'' name := by
  rcases h with rfl | rfl
  · exact h'
  · rcases h' with rfl | rfl
    · exact .inr rfl
    · right
      unfold release
      dsimp only
      have hidem : ∀ {α : Type} (d : Dict String α), (d.erase name).erase name = d.erase name := by
        intro α d
        unfold Dict.erase Dict.filterKeys
        simp
      rw [hidem, hidem]

theorem MayLapse.keepsOthers {o o' : NameOwnership} {name : String} (h : o.MayLapse o' name) :
    o.KeepsOthers o' name := by
  intro other hother
  rcases h with rfl | rfl
  · exact ⟨rfl, rfl⟩
  · exact ⟨Dict.get?_erase_ne _ hother, Dict.get?_erase_ne _ hother⟩

end

theorem matches_mayLapse (o : NameOwnership) (name token : String) (now : Float) :
    o.MayLapse (o.matches name token now).2 name := by
  have hlapse := o.isLeased_mayLapse name now
  unfold NameOwnership.matches
  split
  · exact .inl rfl
  · split <;> (rename_i heq; rw [heq] at hlapse; exact hlapse)

end NameOwnership

namespace HubClientRegistry

/-- The maps are the same. -/
structure SameMaps (r r' : HubClientRegistry) : Prop where
  connectedClients : r'.connectedClients = r.connectedClients
  agentSockets : r'.agentSockets = r.agentSockets
  socketAgent : r'.socketAgent = r.socketAgent

/-- The frame showed the token of the lease, if one was live. -/
def Presented (r : HubClientRegistry) (frame : SenderFrame) (times : ResolveTimes) : Prop :=
  (r.ownership.isLeased frame.sender times.leased).1 = true →
    frame.ownerLease ≠ "" ∧
      r.ownership.tokenDigests.get? frame.sender = some (tokenDigest frame.ownerLease)

/-- What a claim that passes the gate has shown. -/
theorem nameOwned_passes {r r' : HubClientRegistry} {frame : SenderFrame} {times : ResolveTimes}
    (h : r.nameOwned frame times = (false, r')) :
    r.Presented frame times ∧ r.SameMaps r' ∧ r'.damping = r.damping ∧
      r.ownership.MayLapse r'.ownership frame.sender := by
  unfold nameOwned at h
  have hlapse := r.ownership.isLeased_mayLapse frame.sender times.leased
  cases hleased : r.ownership.isLeased frame.sender times.leased with
  | mk leased ownership =>
    rw [hleased] at h hlapse
    cases leased with
    | false =>
      cases h
      refine ⟨?_, ⟨rfl, rfl, rfl⟩, rfl, hlapse⟩
      intro hlive
      rw [hleased] at hlive
      cases hlive
    | true =>
      have hsame : ownership = r.ownership := by
        have hlive := @NameOwnership.isLeased_live r.ownership frame.sender times.leased
          (by rw [hleased])
        rw [hleased] at hlive
        exact hlive
      subst hsame
      dsimp only at h
      have hmatched := r.ownership.matches_mayLapse frame.sender frame.ownerLease times.matched
      cases hmatches : r.ownership.matches frame.sender frame.ownerLease times.matched with
      | mk same ownership =>
        rw [hmatches] at h hmatched
        cases same with
        | false => cases h
        | true =>
          cases h
          refine ⟨?_, ⟨rfl, rfl, rfl⟩, rfl, hmatched⟩
          intro _
          unfold NameOwnership.matches at hmatches
          split at hmatches
          · cases hmatches
          · rename_i hblank
            refine ⟨hblank, ?_⟩
            split at hmatches
            · rename_i live heq
              have hlive := @NameOwnership.isLeased_live r.ownership frame.sender times.matched
                (by rw [heq])
              rw [heq] at hlive
              subst hlive
              simpa using congrArg Prod.fst hmatches
            · cases hmatches

/-- What a claim that the gate refuses leaves. -/
theorem nameOwned_refuses {r r' : HubClientRegistry} {frame : SenderFrame} {times : ResolveTimes}
    (h : r.nameOwned frame times = (true, r')) :
    r.SameMaps r' ∧ r.ownership.MayLapse r'.ownership frame.sender := by
  unfold nameOwned at h
  have hlapse := r.ownership.isLeased_mayLapse frame.sender times.leased
  cases hleased : r.ownership.isLeased frame.sender times.leased with
  | mk leased ownership =>
    rw [hleased] at h hlapse
    cases leased with
    | false => cases h
    | true =>
      dsimp only at h
      have hmatched := ownership.matches_mayLapse frame.sender frame.ownerLease times.matched
      cases hmatches : ownership.matches frame.sender frame.ownerLease times.matched with
      | mk same ownership' =>
        rw [hmatches] at h hmatched
        have hr : r' = { r with ownership := ownership' } := (congrArg Prod.snd h).symm
        rw [hr]
        exact ⟨⟨rfl, rfl, rfl⟩, hlapse.trans hmatched⟩

/-- What the admission of an owner leaves: the maps, every other lease, and no offline stamp. -/
structure Admits (r r' : HubClientRegistry) (name : String) : Prop where
  maps : r.SameMaps r'
  others : r.ownership.KeepsOthers r'.ownership name
  online : r'.ownership.offlineSince.get? name = none

theorem admitOwner_admits (r : HubClientRegistry) (frame : SenderFrame) (now : Float)
    (minted : String) : r.Admits (r.admitOwner frame now minted).1 frame.sender := by
  have honline : r.ownership.KeepsOthers (r.ownership.markOnline frame.sender) frame.sender :=
    fun other hother => ⟨rfl, Dict.get?_erase_ne _ hother⟩
  have hstamp : (r.ownership.markOnline frame.sender).offlineSince.get? frame.sender = none :=
    Dict.get?_erase_self _ _
  have hlapse := (r.ownership.markOnline frame.sender).isLeased_mayLapse frame.sender now
  unfold admitOwner
  dsimp only
  split
  · exact ⟨⟨rfl, rfl, rfl⟩, honline, hstamp⟩
  · split
    · rename_i ownership heq
      have hlive := @NameOwnership.isLeased_live (r.ownership.markOnline frame.sender) frame.sender now
        (by rw [heq])
      rw [heq] at hlive
      subst hlive
      exact ⟨⟨rfl, rfl, rfl⟩, honline, hstamp⟩
    · rename_i ownership heq
      rw [heq] at hlapse
      refine ⟨⟨rfl, rfl, rfl⟩, ?_, Dict.get?_erase_self _ _⟩
      intro other hother
      obtain ⟨hdigest, hsince⟩ := hlapse.keepsOthers other hother
      obtain ⟨hdigest', hsince'⟩ := honline other hother
      constructor
      · exact (Dict.get?_set_ne _ _ (Ne.symm hother)).trans (hdigest.trans hdigest')
      · exact (Dict.get?_erase_ne _ hother).trans (hsince.trans hsince')

/-- What a resolution does before it awaits anything. -/
inductive Resolved (r : HubClientRegistry) (frame : SenderFrame) (socket : Socket)
    (times : ResolveTimes) : HubClientRegistry × Resolution → Prop
  | refused (r' : HubClientRegistry) (hmaps : r.SameMaps r')
      (hlapse : r.ownership.MayLapse r'.ownership frame.sender) :
      Resolved r frame socket times (r', .refused)
  | known (hknown : r.socketAgent.get? socket = some frame.sender) :
      Resolved r frame socket times (r, .known)
  | bound (r₀ r' : HubClientRegistry) (granted : Option String)
      (hfree : r.socketAgent.get? socket = none)
      (hentry : ∀ owner, r.agentSockets.get? frame.sender = some owner → owner = socket)
      (hpresented : r.Presented frame times) (hmaps : r.SameMaps r₀)
      (hlapse : r.ownership.MayLapse r₀.ownership frame.sender)
      (hadmits : HubClientRegistry.Admits
        { r₀ with socketAgent := r₀.socketAgent.set socket frame.sender } r' frame.sender) :
      Resolved r frame socket times (r', .bound granted)
  | superseded (r₀ r' : HubClientRegistry) (owner : Socket) (granted : Option String)
      (hfree : r.socketAgent.get? socket = none)
      (hentry : r.agentSockets.get? frame.sender = some owner) (hne : owner ≠ socket)
      (hpresented : r.Presented frame times) (hmaps : r.SameMaps r₀)
      (hlapse : r.ownership.MayLapse r₀.ownership frame.sender)
      (hadmits : HubClientRegistry.Admits
        { r₀ with
          socketAgent := (r₀.socketAgent.erase owner).set socket frame.sender
          agentSockets := r₀.agentSockets.set frame.sender socket } r' frame.sender) :
      Resolved r frame socket times (r', .superseded owner granted)

theorem resolveSender_resolved (r : HubClientRegistry) (frame : SenderFrame) (socket : Socket)
    (times : ResolveTimes) (minted : String) :
    Resolved r frame socket times (r.resolveSender frame socket times minted) := by
  unfold resolveSender
  split
  · exact .refused r ⟨rfl, rfl, rfl⟩ (.inl rfl)
  · split
    · rename_i known hknown
      by_cases hsame : known = frame.sender
      · rw [if_pos hsame]
        exact .known (hsame ▸ hknown)
      · rw [if_neg hsame]
        exact .refused r ⟨rfl, rfl, rfl⟩ (.inl rfl)
    · rename_i hfree
      split
      · rename_i r' howned
        obtain ⟨hmaps, hlapse⟩ := nameOwned_refuses howned
        exact .refused r' hmaps hlapse
      · rename_i r₀ hpasses
        obtain ⟨hpresented, hmaps, hdamping, hlapse⟩ := nameOwned_passes hpasses
        split
        · rename_i owner howner
          rw [hmaps.agentSockets] at howner
          split
          · rename_i hself
            refine .bound r₀ _ _ hfree ?_ hpresented hmaps hlapse (admitOwner_admits ..)
            intro other hother
            rw [howner] at hother
            exact (Option.some.inj hother) ▸ hself
          · rename_i hne
            split
            · split
              · rename_i damping hverdict
                refine .superseded r₀ _ owner _ hfree howner hne hpresented hmaps hlapse ?_
                obtain ⟨hadmitted, hothers, honline⟩ := admitOwner_admits
                  { r₀ with
                    damping :=
                      { damping with
                        lastTakeover := damping.lastTakeover.set frame.sender times.takeover }
                    socketAgent := (r₀.socketAgent.erase owner).set socket frame.sender
                    agentSockets := r₀.agentSockets.set frame.sender socket } frame times.admitted
                  minted
                exact ⟨⟨hadmitted.1, hadmitted.2, hadmitted.3⟩, hothers, honline⟩
              · rename_i damping _ _ _
                exact .refused _ ⟨hmaps.1, hmaps.2, hmaps.3⟩ hlapse
            · exact .refused r₀ hmaps hlapse
        · rename_i hnone
          rw [hmaps.agentSockets] at hnone
          refine .bound r₀ _ _ hfree ?_ hpresented hmaps hlapse (admitOwner_admits ..)
          intro owner howner
          rw [hnone] at howner
          cases howner

end HubClientRegistry

/-! ## Steps -/

/-- The name that a frame at this phase is binding its socket to. -/
def FramePhase.binding : FramePhase → Option String
  | .admitting _ => none
  | .authorising _ _ => none
  | .granting sender _ _ => some sender
  | .evicting sender _ => some sender
  | .welcoming sender _ => some sender
  | .heartbeat sender => some sender
  | .resumed sender applied => if applied then some sender else none
  | .closing => none

omit [Builtins] in
theorem FramePhase.resumed_binding (sender : String) (applied : Bool) :
    (FramePhase.resumed sender applied).binding = if applied then some sender else none := rfl

namespace SocketHub

/-- The name that the frame of a socket is binding it to. -/
def binding (h : SocketHub) (socket : Socket) : Option String :=
  (h.frames.get? socket).bind FramePhase.binding

/-- Only the frame of `socket` differs. -/
structure Elsewhere (h h' : SocketHub) (socket : Socket) : Prop where
  frames : ∀ other ≠ socket, h'.frames.get? other = h.frames.get? other
  departed : h'.departed = h.departed

section

omit [Builtins]

theorem waitAt_elsewhere (h : SocketHub) (clients : HubClientRegistry) (socket : Socket)
    (phase : FramePhase) : h.Elsewhere ({ h with clients }.waitAt socket phase) socket :=
  ⟨fun _ hother => Dict.get?_set_ne _ _ (Ne.symm hother), rfl⟩

theorem idle_elsewhere (h : SocketHub) (socket : Socket) : h.Elsewhere (h.idle socket) socket :=
  ⟨fun _ hother => Dict.get?_erase_ne _ hother, rfl⟩

@[simp] theorem waitAt_binding (h : SocketHub) (socket : Socket) (phase : FramePhase) :
    (h.waitAt socket phase).binding socket = phase.binding := by
  unfold binding waitAt
  rw [Dict.get?_set_self]
  rfl

theorem registered_spec (h : SocketHub) (clients : HubClientRegistry) (socket : Socket)
    (sender : String) (wasBound : Bool) :
    h.Elsewhere ({ h with clients }.registered socket sender wasBound) socket ∧
      ({ h with clients }.registered socket sender wasBound).clients = clients ∧
      ({ h with clients }.registered socket sender wasBound).binding socket = some sender := by
  unfold registered
  split
  · exact ⟨waitAt_elsewhere .., rfl, waitAt_binding ..⟩
  · exact ⟨waitAt_elsewhere .., rfl, waitAt_binding ..⟩

end

/-- What a frame does between two awaits. -/
inductive Proceeded (h : SocketHub) (socket : Socket) (times : ResolveTimes) : SocketHub → Prop
  | rests (h' : SocketHub) (helse : h.Elsewhere h' socket) (hmaps : h.clients.SameMaps h'.clients)
      (hlapse : ∃ name, h.clients.ownership.MayLapse h'.clients.ownership name)
      (hbinding : ∀ name, h.clients.socketAgent.get? socket = some name →
        h.binding socket = some name → h'.binding socket = some name) :
      Proceeded h socket times h'
  | resolved (h' : SocketHub) (frame : SenderFrame) (clients : HubClientRegistry)
      (resolution : Resolution) (helse : h.Elsewhere h' socket)
      (hclients : h'.clients = clients)
      (hresolved : h.clients.Resolved frame socket times (clients, resolution))
      (hframe : ∃ wasBound, h.frames.get? socket = some (.authorising frame wasBound))
      (hfree : h.clients.socketAgent.get? socket = none)
      (hbinding : clients.socketAgent.get? socket = some frame.sender →
        h'.binding socket = some frame.sender) :
      Proceeded h socket times h'
  | enters (h' : SocketHub) (name : String) (helse : h.Elsewhere h' socket)
      (hbound : h.clients.socketAgent.get? socket = some name)
      (hclients : h'.clients = h.clients.setAgentSocket name socket) :
      Proceeded h socket times h'

theorem rests_waitAt {h : SocketHub} {socket : Socket} {times : ResolveTimes} (phase : FramePhase)
    (hbinding : ∀ name, h.clients.socketAgent.get? socket = some name →
      h.binding socket = some name → phase.binding = some name) :
    Proceeded h socket times (h.waitAt socket phase) := by
  refine .rests _ (waitAt_elsewhere h h.clients socket phase) ⟨rfl, rfl, rfl⟩ ⟨"", .inl rfl⟩ ?_
  intro name hbound hbinds
  rw [waitAt_binding]
  exact hbinding name hbound hbinds

theorem resolve_proceeded {h : SocketHub} {socket : Socket} {frame : SenderFrame} {wasBound : Bool}
    (hframe : h.frames.get? socket = some (.authorising frame wasBound)) (times : ResolveTimes)
    (minted : String) : Proceeded h socket times (h.resolve socket frame wasBound times minted) := by
  have hresolved := h.clients.resolveSender_resolved frame socket times minted
  have hnone : h.binding socket = none := by
    unfold binding
    rw [hframe]
    rfl
  unfold resolve
  cases hres : h.clients.resolveSender frame socket times minted with
  | mk clients resolution =>
  rw [hres] at hresolved
  cases resolution with
  | refused =>
    cases hresolved with
    | refused _ hmaps hlapse =>
      refine .rests _ (waitAt_elsewhere ..) hmaps ⟨_, hlapse⟩ ?_
      intro name _ hbinds
      rw [hnone] at hbinds
      cases hbinds
  | known =>
    cases hresolved with
    | known hknown =>
      obtain ⟨helse, hclients, hbinding⟩ := registered_spec h h.clients socket frame.sender wasBound
      refine .rests _ helse ?_ ⟨"", .inl ?_⟩ ?_
      · rw [hclients]
        exact ⟨rfl, rfl, rfl⟩
      · rw [hclients]
      · intro name _ hbinds
        rw [hnone] at hbinds
        cases hbinds
  | bound granted =>
    have hfree : h.clients.socketAgent.get? socket = none := by
      cases hresolved
      assumption
    dsimp only
    split
    · refine .resolved _ frame clients _ (waitAt_elsewhere ..) rfl hresolved ⟨_, hframe⟩ hfree ?_
      intro _
      exact waitAt_binding ..
    · obtain ⟨helse, hclients, hbinding⟩ := registered_spec h clients socket frame.sender wasBound
      exact .resolved _ frame clients _ helse hclients hresolved ⟨_, hframe⟩ hfree fun _ => hbinding
  | superseded owner granted =>
    have hfree : h.clients.socketAgent.get? socket = none := by
      cases hresolved
      assumption
    dsimp only
    split
    · refine .resolved _ frame clients _ (waitAt_elsewhere ..) rfl hresolved ⟨_, hframe⟩ hfree ?_
      intro _
      exact waitAt_binding ..
    · refine .resolved _ frame clients _ (waitAt_elsewhere ..) rfl hresolved ⟨_, hframe⟩ hfree ?_
      intro _
      exact waitAt_binding ..

theorem proceed_proceeded (h : SocketHub) (socket : Socket) (passes : Bool) (times : ResolveTimes)
    (minted : String) :
    Proceeded h socket times (h.step (.proceed socket passes times minted)) := by
  unfold step
  dsimp only
  cases hframe : h.frames.get? socket with
  | none =>
    exact .rests h ⟨fun _ _ => rfl, rfl⟩ ⟨rfl, rfl, rfl⟩ ⟨"", .inl rfl⟩ fun _ _ hbinds => hbinds
  | some phase =>
    have hbinds : h.binding socket = phase.binding := by
      unfold binding
      rw [hframe]
      rfl
    have hregistered : ∀ sender wasBound, phase.binding = some sender →
        Proceeded h socket times (h.registered socket sender wasBound) := by
      intro sender wasBound hphase
      obtain ⟨helse, hclients, hbinding⟩ := registered_spec h h.clients socket sender wasBound
      refine .rests _ helse (hclients ▸ ⟨rfl, rfl, rfl⟩) ⟨"", .inl (by rw [hclients])⟩ ?_
      intro name _ hname
      rw [hbinds, hphase] at hname
      rw [hbinding, hname]
    dsimp only
    unfold advance
    cases phase with
    | admitting frame =>
      dsimp only
      split
      · exact rests_waitAt _ fun name _ hname => by rw [hbinds] at hname; cases hname
      · split
        · exact rests_waitAt _ fun name _ hname => by rw [hbinds] at hname; cases hname
        · exact rests_waitAt _ fun name _ hname => by rw [hbinds] at hname; cases hname
    | authorising frame wasBound =>
      dsimp only
      split
      · exact rests_waitAt _ fun name _ hname => by rw [hbinds] at hname; cases hname
      · exact resolve_proceeded hframe times minted
    | granting sender wasBound evicted =>
      cases evicted with
      | none => exact hregistered sender wasBound rfl
      | some owner => exact rests_waitAt _ fun name _ hname => hbinds ▸ hname
    | evicting sender wasBound => exact hregistered sender wasBound rfl
    | welcoming sender wasBound => exact rests_waitAt _ fun name _ hname => hbinds ▸ hname
    | heartbeat sender =>
      refine rests_waitAt _ ?_
      intro name hbound hname
      rw [hbinds] at hname
      cases hname
      rw [FramePhase.resumed_binding]
      unfold HubClientRegistry.boundAgent
      rw [hbound]
      simp
    | resumed sender applied =>
      dsimp only
      split
      · rename_i hdropped
        refine .rests _ (idle_elsewhere h socket) ⟨rfl, rfl, rfl⟩ ⟨"", .inl rfl⟩ ?_
        intro name hbound hname
        rw [hbinds] at hname
        rw [FramePhase.resumed_binding] at hname
        rcases hdropped with hfalse | hother
        · rw [hfalse] at hname
          cases hname
        · split at hname
          · cases hname
            exact absurd hbound hother
          · cases hname
      · rename_i hkept
        rw [not_or, not_not] at hkept
        exact .enters _ sender (waitAt_elsewhere ..) hkept.2 rfl
    | closing =>
      refine .rests _ (idle_elsewhere h socket) ⟨rfl, rfl, rfl⟩ ⟨"", .inl rfl⟩ ?_
      intro name _ hname
      rw [hbinds] at hname
      cases hname

/-! ## The maps -/

/-- The socket holds a map entry, or is in no frame. -/
def FullyRegistered (h : SocketHub) (socket : Socket) : Prop :=
  (∃ name, h.clients.agentSockets.get? name = some socket) ∨ h.frames.get? socket = none

/-- One live socket a name. A socket is open until its disconnect is processed. -/
structure OneLive (h : SocketHub) : Prop where
  inverse : ∀ socket, h.FullyRegistered socket → ∀ name,
    h.clients.socketAgent.get? socket = some name ↔ h.clients.agentSockets.get? name = some socket
  unique : ∀ socket other name, socket ∈ h.clients.connectedClients →
    other ∈ h.clients.connectedClients → h.clients.socketAgent.get? socket = some name →
    h.clients.socketAgent.get? other = some name → socket = other
  dropped : ∀ socket, socket ∉ h.clients.connectedClients →
    h.clients.socketAgent.get? socket = none ∧
      ∀ name, h.clients.agentSockets.get? name ≠ some socket

/-- A claim of a name that the gate lets through and no map entry holds finds no other socket bound
to the name. -/
def Alone (h : SocketHub) : SocketStep → Prop
  | .proceed socket passes times _ => ∀ frame wasBound,
      h.frames.get? socket = some (.authorising frame wasBound) → passes = true →
      HubClientRegistry.isReservedSender frame.sender = false →
      h.clients.socketAgent.get? socket = none → (h.clients.nameOwned frame times).1 = false →
      h.clients.agentSockets.get? frame.sender = none →
      ∀ other, h.clients.socketAgent.get? other ≠ some frame.sender
  | _ => True

/-- What holds in every state: an entry is of a socket that is bound to its name, and only an open
socket is bound or in a frame. -/
structure Wired (h : SocketHub) : Prop where
  entry : ∀ name socket, h.clients.agentSockets.get? name = some socket →
    h.clients.socketAgent.get? socket = some name
  «open» : ∀ socket name, h.clients.socketAgent.get? socket = some name →
    socket ∈ h.clients.connectedClients
  framed : ∀ socket phase, h.frames.get? socket = some phase →
    socket ∈ h.clients.connectedClients

/-- What holds while every claim was alone: no name is bound twice, and a bound socket without an
entry is in the frame that binds it. -/
structure Single (h : SocketHub) : Prop where
  wired : h.Wired
  unique : ∀ socket other name, h.clients.socketAgent.get? socket = some name →
    h.clients.socketAgent.get? other = some name → socket = other
  pending : ∀ socket name, h.clients.socketAgent.get? socket = some name →
    h.clients.agentSockets.get? name = some socket ∨ h.binding socket = some name

omit [Builtins] in
theorem Single.oneLive {h : SocketHub} (hs : h.Single) : h.OneLive := by
  refine ⟨?_, ?_, ?_⟩
  · intro socket hfull name
    refine ⟨?_, hs.wired.entry name socket⟩
    intro hbound
    rcases hfull with ⟨held, hheld⟩ | hidle
    · have hsame := hs.wired.entry held socket hheld
      rw [hbound] at hsame
      exact Option.some.inj hsame ▸ hheld
    · rcases hs.pending socket name hbound with hentry | hbinds
      · exact hentry
      · unfold binding at hbinds
        rw [hidle] at hbinds
        cases hbinds
  · intro socket other name _ _ hbound hother
    exact hs.unique socket other name hbound hother
  · intro socket hgone
    have hnone : h.clients.socketAgent.get? socket = none := by
      cases hbound : h.clients.socketAgent.get? socket with
      | none => rfl
      | some name => exact absurd (hs.wired.open socket name hbound) hgone
    refine ⟨hnone, ?_⟩
    intro name hentry
    rw [hs.wired.entry name socket hentry] at hnone
    cases hnone

/-! ### Binding -/

/-- The maps before and after a socket is bound in the place of whoever is `evicted`. -/
structure Binds (r r' : HubClientRegistry) (socket : Socket) (name : String)
    (evicted : Option Socket) : Prop where
  connectedClients : r'.connectedClients = r.connectedClients
  agentSockets : ∀ other, r'.agentSockets.get? other =
    if evicted.isSome ∧ other = name then some socket else r.agentSockets.get? other
  socketAgent : ∀ other, r'.socketAgent.get? other =
    if other = socket then some name
    else if evicted = some other then none else r.socketAgent.get? other
  evicts : ∀ owner, evicted = some owner → r.agentSockets.get? name = some owner ∧ owner ≠ socket
  free : evicted = none → r.agentSockets.get? name = none

/-- A resolved claim binds its socket, or changes no map. -/
theorem resolved_binds {h : SocketHub} (hw : h.Wired) {socket : Socket} {frame : SenderFrame}
    {times : ResolveTimes} {clients : HubClientRegistry} {resolution : Resolution}
    (hresolved : h.clients.Resolved frame socket times (clients, resolution))
    (hfree : h.clients.socketAgent.get? socket = none) :
    h.clients.SameMaps clients ∨ ∃ evicted, Binds h.clients clients socket frame.sender evicted := by
  cases hresolved with
  | refused _ hmaps => exact .inl hmaps
  | known hknown =>
    rw [hfree] at hknown
    cases hknown
  | bound r₀ _ granted _ hentry _ hmaps _ hadmits =>
    right
    refine ⟨none, ?_, ?_, ?_, ?_, ?_⟩
    · rw [hadmits.maps.connectedClients]
      exact hmaps.connectedClients
    · intro other
      rw [hadmits.maps.agentSockets]
      exact congrArg (fun d => Dict.get? d other) hmaps.agentSockets
    · intro other
      rw [hadmits.maps.socketAgent]
      show (r₀.socketAgent.set socket frame.sender).get? other = _
      rw [hmaps.socketAgent, Dict.get?_set]
      by_cases hother : other = socket
      · simp [hother]
      · simp [hother, Ne.symm hother]
    · intro owner howner
      cases howner
    · intro _
      cases hheld : h.clients.agentSockets.get? frame.sender with
      | none => rfl
      | some owner =>
        have hbound := hw.entry _ _ hheld
        rw [hentry owner hheld, hfree] at hbound
        cases hbound
  | superseded r₀ _ owner granted _ hentry hne _ hmaps _ hadmits =>
    right
    refine ⟨some owner, ?_, ?_, ?_, ?_, ?_⟩
    · rw [hadmits.maps.connectedClients]
      exact hmaps.connectedClients
    · intro other
      rw [hadmits.maps.agentSockets]
      show (r₀.agentSockets.set frame.sender socket).get? other = _
      rw [hmaps.agentSockets, Dict.get?_set]
      by_cases hother : other = frame.sender
      · simp [hother]
      · simp [hother, Ne.symm hother]
    · intro other
      rw [hadmits.maps.socketAgent]
      show ((r₀.socketAgent.erase owner).set socket frame.sender).get? other = _
      rw [hmaps.socketAgent, Dict.get?_set, Dict.get?_erase]
      by_cases hother : other = socket
      · simp [hother]
      · by_cases howner : other = owner
        · simp [howner, Ne.symm hne, hne]
        · simp [hother, howner, Ne.symm hother, Ne.symm howner]
    · intro other hother
      cases hother
      exact ⟨hentry, hne⟩
    · intro hnone
      cases hnone

section

omit [Builtins]

theorem dropClient_socketAgent (r : HubClientRegistry) (socket other : Socket) (now : Float) :
    (r.dropClient socket now).socketAgent.get? other =
      if other = socket then none else r.socketAgent.get? other := by
  unfold HubClientRegistry.dropClient
  dsimp only
  split
  · rename_i hnone
    split
    · rename_i heq
      rw [heq, hnone]
    · rfl
  · split <;> exact Dict.get?_erase _ _ _

theorem dropClient_agentSockets (r : HubClientRegistry) (socket : Socket) (now : Float)
    (name : String) :
    (r.dropClient socket now).agentSockets.get? name =
      if r.socketAgent.get? socket = some name ∧ r.agentSockets.get? name = some socket then none
      else r.agentSockets.get? name := by
  unfold HubClientRegistry.dropClient
  dsimp only
  split
  · rename_i hnone
    simp [hnone]
  · rename_i bound hbound
    split
    · rename_i hentry
      have herase : (r.agentSockets.erase bound).get? name =
        if name = bound then none else r.agentSockets.get? name := Dict.get?_erase _ _ _
      refine herase.trans ?_
      by_cases hname : name = bound
      · simp [hname, hbound, hentry]
      · simp [hname, hbound, Ne.symm hname]
    · rename_i hentry
      by_cases hname : name = bound
      · simp [hname, hentry]
      · simp [hbound, Ne.symm hname]

theorem dropClient_connected (r : HubClientRegistry) (socket : Socket) (now : Float) :
    (r.dropClient socket now).connectedClients = r.connectedClients.filter (· ≠ socket) := by
  unfold HubClientRegistry.dropClient
  dsimp only
  split
  · rfl
  · split <;> rfl

theorem revokeName_socketAgent (r : HubClientRegistry) (name : String) (socket : Socket) :
    (r.revokeName name).socketAgent.get? socket =
      if r.agentSockets.get? name = some socket then none else r.socketAgent.get? socket := by
  unfold HubClientRegistry.revokeName
  dsimp only
  split
  · rename_i owner howner
    rw [Dict.get?_erase]
    by_cases heq : socket = owner
    · simp [heq, howner]
    · simp [heq, howner, Ne.symm heq]
  · rename_i hnone
    simp [hnone]

theorem revokeName_agentSockets (r : HubClientRegistry) (name other : String) :
    (r.revokeName name).agentSockets.get? other =
      if other = name then none else r.agentSockets.get? other := Dict.get?_erase _ _ _

end

/-! ### Every state is wired -/

omit [Builtins] in
theorem Wired.of_same {h h' : SocketHub} (hw : h.Wired) (hmaps : h.clients.SameMaps h'.clients)
    (hframed : ∀ socket phase, h'.frames.get? socket = some phase →
      socket ∈ h.clients.connectedClients) : h'.Wired := by
  obtain ⟨hconnected, hagents, hsockets⟩ := hmaps
  refine ⟨?_, ?_, ?_⟩
  · intro name socket hentry
    rw [hagents] at hentry
    rw [hsockets]
    exact hw.entry name socket hentry
  · intro socket name hbound
    rw [hsockets] at hbound
    rw [hconnected]
    exact hw.open socket name hbound
  · intro socket phase hframe
    rw [hconnected]
    exact hframed socket phase hframe

theorem wired_proceed {h : SocketHub} (hw : h.Wired) {socket : Socket} {times : ResolveTimes}
    {h' : SocketHub} (hsocket : h.frames.get? socket = none → h' = h)
    (hproceeded : h.Proceeded socket times h') : h'.Wired := by
  -- the frames of a step are those before it and the frame that goes on
  have hframed : (∀ other ≠ socket, h'.frames.get? other = h.frames.get? other) →
      ∀ other phase, h'.frames.get? other = some phase →
        other ∈ h.clients.connectedClients := by
    intro helse other phase hframe
    by_cases hother : other = socket
    · cases hsome : h.frames.get? socket with
      | none =>
        rw [hsocket hsome] at hframe
        exact hw.framed other phase hframe
      | some before => exact hother ▸ hw.framed socket before hsome
    · rw [helse other hother] at hframe
      exact hw.framed other phase hframe
  cases hproceeded with
  | rests helse hmaps => exact hw.of_same hmaps (hframed helse.frames)
  | resolved frame clients resolution helse hclients hresolved hframe hfree =>
    have hframed := hframed helse.frames
    rcases resolved_binds hw hresolved hfree with hsame | ⟨evicted, hbinds⟩
    · exact hw.of_same (hclients ▸ hsame) hframed
    · rw [← hclients] at hbinds
      obtain ⟨wasBound, hframe⟩ := hframe
      refine ⟨?_, ?_, ?_⟩
      · intro name owner hentry
        rw [hbinds.agentSockets] at hentry
        rw [hbinds.socketAgent]
        split at hentry
        · rename_i hname
          cases hentry
          rw [if_pos rfl, hname.2]
        · rename_i hname
          have hbound := hw.entry name owner hentry
          rw [if_neg, if_neg]
          · exact hbound
          · -- the evicted socket held the entry of this name only
            intro howner
            obtain ⟨hheld, -⟩ := hbinds.evicts owner howner
            have hheld := hw.entry _ _ hheld
            rw [hbound] at hheld
            exact hname ⟨by rw [howner]; rfl, Option.some.inj hheld⟩
          · intro heq
            rw [heq, hfree] at hbound
            cases hbound
      · intro other name hbound
        rw [hbinds.connectedClients]
        rw [hbinds.socketAgent] at hbound
        split at hbound
        · rename_i heq
          exact heq ▸ hw.framed socket _ hframe
        · split at hbound
          · cases hbound
          · exact hw.open other name hbound
      · intro other phase hphase
        rw [hbinds.connectedClients]
        exact hframed other phase hphase
  | enters name helse hbound hclients =>
    have hframed := hframed helse.frames
    refine ⟨?_, ?_, ?_⟩
    · intro other owner hentry
      rw [hclients] at hentry ⊢
      have hentry : (h.clients.agentSockets.set name socket).get? other = some owner := hentry
      rw [Dict.get?_set] at hentry
      split at hentry
      · rename_i heq
        cases hentry
        exact heq ▸ hbound
      · exact hw.entry other owner hentry
    · intro other bound hother
      rw [hclients] at hother ⊢
      exact hw.open other bound hother
    · intro other phase hphase
      rw [hclients]
      exact hframed other phase hphase

theorem wired_next {h : SocketHub} (hw : h.Wired) (i : SocketStep) : (h.step i).Wired := by
  cases i with
  | connect socket =>
    unfold step
    dsimp only
    split
    · exact hw
    · have hgrows : ∀ other ∈ h.clients.connectedClients,
          other ∈ h.clients.connectedClients ++ [socket] := fun other hmem =>
        List.mem_append_left _ hmem
      exact ⟨hw.entry, fun other name hbound => hgrows other (hw.open other name hbound),
        fun other phase hframe => hgrows other (hw.framed other phase hframe)⟩
  | arrive socket data =>
    unfold step
    dsimp only
    split
    · rename_i harrives
      refine hw.of_same ⟨rfl, rfl, rfl⟩ ?_
      intro other phase hframe
      have hframe : (h.frames.set socket _).get? other = some phase := hframe
      rw [Dict.get?_set] at hframe
      split at hframe
      · rename_i heq
        exact heq ▸ harrives.1
      · exact hw.framed other phase hframe
    · exact hw
  | proceed socket passes times minted =>
    refine wired_proceed hw ?_ (h.proceed_proceeded socket passes times minted)
    intro hnone
    unfold step
    dsimp only
    rw [hnone]
  | disconnect socket now =>
    unfold step
    dsimp only
    split
    · refine ⟨?_, ?_, ?_⟩
      · intro name owner hentry
        rw [dropClient_agentSockets] at hentry
        rw [dropClient_socketAgent]
        split at hentry
        · cases hentry
        · rename_i hheld
          have hbound := hw.entry name owner hentry
          rw [if_neg]
          · exact hbound
          · intro heq
            subst heq
            exact hheld ⟨hbound, hentry⟩
      · intro other name hbound
        rw [dropClient_socketAgent] at hbound
        rw [dropClient_connected]
        split at hbound
        · cases hbound
        · rename_i hother
          rw [List.mem_filter]
          exact ⟨hw.open other name hbound, decide_eq_true hother⟩
      · intro other phase hframe
        have hframe : (h.frames.erase socket).get? other = some phase := hframe
        rw [Dict.get?_erase] at hframe
        rw [dropClient_connected]
        split at hframe
        · cases hframe
        · rename_i hother
          rw [List.mem_filter]
          exact ⟨hw.framed other phase hframe, decide_eq_true hother⟩
    · exact hw
  | revoke name =>
    refine ⟨?_, ?_, hw.framed⟩
    · intro other owner hentry
      have hentry : (h.clients.revokeName name).agentSockets.get? other = some owner := hentry
      rw [revokeName_agentSockets] at hentry
      show (h.clients.revokeName name).socketAgent.get? owner = some other
      rw [revokeName_socketAgent]
      split at hentry
      · cases hentry
      · rename_i hother
        have hbound := hw.entry other owner hentry
        rw [if_neg]
        · exact hbound
        · intro hheld
          have hheld := hw.entry name owner hheld
          rw [hbound] at hheld
          exact hother (Option.some.inj hheld)
    · intro socket other hbound
      have hbound : (h.clients.revokeName name).socketAgent.get? socket = some other := hbound
      rw [revokeName_socketAgent] at hbound
      split at hbound
      · cases hbound
      · exact hw.open socket other hbound

/-! ### No name is bound twice -/

omit [Builtins] in
/-- A step that changes the frame of one socket only. -/
theorem Elsewhere.binding {h h' : SocketHub} {socket other : Socket}
    (helse : h.Elsewhere h' socket) (hother : other ≠ socket) : h'.binding other = h.binding other := by
  unfold SocketHub.binding
  rw [helse.frames other hother]

/-- The maps after a frame that waits for the gates goes on. -/
theorem authorising_clients {h : SocketHub} {socket : Socket} {frame : SenderFrame}
    {wasBound : Bool} (hframe : h.frames.get? socket = some (.authorising frame wasBound))
    (passes : Bool) (times : ResolveTimes) (minted : String) :
    (h.step (.proceed socket passes times minted)).clients =
      if passes then (h.clients.resolveSender frame socket times minted).1 else h.clients := by
  unfold step
  dsimp only
  rw [hframe]
  dsimp only [advance]
  cases passes with
  | false => rfl
  | true =>
    simp only [Bool.not_true, Bool.false_eq_true, if_false, if_true]
    unfold resolve
    cases hres : h.clients.resolveSender frame socket times minted with
    | mk clients resolution =>
      cases resolution with
      | refused => rfl
      | known => exact (registered_spec h clients socket frame.sender wasBound).2.1
      | bound granted =>
        dsimp only
        split
        · rfl
        · exact (registered_spec h clients socket frame.sender wasBound).2.1
      | superseded owner granted =>
        dsimp only
        split <;> rfl

/-- A free socket that is bound by a step was let through the gates. -/
theorem bound_passed {h : SocketHub} {socket : Socket} {frame : SenderFrame} {wasBound : Bool}
    (hframe : h.frames.get? socket = some (.authorising frame wasBound))
    (hfree : h.clients.socketAgent.get? socket = none) {passes : Bool} {times : ResolveTimes}
    {minted name : String}
    (hbound : (h.step (.proceed socket passes times minted)).clients.socketAgent.get? socket =
      some name) :
    passes = true ∧ HubClientRegistry.isReservedSender frame.sender = false ∧
      (h.clients.nameOwned frame times).1 = false := by
  rw [authorising_clients hframe] at hbound
  cases passes with
  | false =>
    rw [if_neg Bool.false_ne_true, hfree] at hbound
    cases hbound
  | true =>
    rw [if_pos rfl] at hbound
    refine ⟨rfl, ?_⟩
    unfold HubClientRegistry.resolveSender at hbound
    split at hbound
    · rw [hfree] at hbound
      cases hbound
    · rename_i hreserved
      refine ⟨by simpa using hreserved, ?_⟩
      rw [hfree] at hbound
      dsimp only at hbound
      cases howned : h.clients.nameOwned frame times with
      | mk owned clients =>
        rw [howned] at hbound
        cases owned with
        | false => rfl
        | true =>
          have hsame := (HubClientRegistry.nameOwned_refuses howned).1.socketAgent
          dsimp only at hbound
          rw [hsame, hfree] at hbound
          cases hbound

/-- A claim of a name without an entry that the gates let through binds its socket. -/
theorem passed_binds {h : SocketHub} {socket : Socket} {frame : SenderFrame} {wasBound : Bool}
    (hframe : h.frames.get? socket = some (.authorising frame wasBound))
    (hfree : h.clients.socketAgent.get? socket = none) {times : ResolveTimes} (minted : String)
    (hreserved : HubClientRegistry.isReservedSender frame.sender = false)
    (howned : (h.clients.nameOwned frame times).1 = false)
    (hentry : h.clients.agentSockets.get? frame.sender = none) (other : Socket) :
    (h.step (.proceed socket true times minted)).clients.socketAgent.get? other =
      if other = socket then some frame.sender else h.clients.socketAgent.get? other := by
  rw [authorising_clients hframe, if_pos rfl]
  unfold HubClientRegistry.resolveSender
  rw [hreserved, hfree]
  cases hgate : h.clients.nameOwned frame times with
  | mk owned clients =>
    rw [hgate] at howned
    cases howned
    obtain ⟨-, hmaps, -, -⟩ := HubClientRegistry.nameOwned_passes hgate
    simp only [Bool.false_eq_true, if_false, hmaps.agentSockets, hentry]
    rw [(HubClientRegistry.admitOwner_admits ..).maps.socketAgent]
    show (clients.socketAgent.set socket frame.sender).get? other = _
    rw [hmaps.socketAgent, Dict.get?_set]
    by_cases hother : other = socket
    · rw [if_pos hother, if_pos hother.symm]
    · rw [if_neg hother, if_neg (Ne.symm hother)]

theorem single_proceed {h : SocketHub} (hs : h.Single) {socket : Socket} {times : ResolveTimes}
    {h' : SocketHub} (hproceeded : h.Proceeded socket times h') (hw : h'.Wired)
    (halone : ∀ frame wasBound, h.frames.get? socket = some (.authorising frame wasBound) →
      h.clients.socketAgent.get? socket = none →
      h'.clients.socketAgent.get? socket = some frame.sender →
      h.clients.agentSockets.get? frame.sender = none →
      ∀ other, h.clients.socketAgent.get? other ≠ some frame.sender) : h'.Single := by
  cases hproceeded with
  | rests helse hmaps _ hbinding =>
    refine ⟨hw, ?_, ?_⟩
    · rw [hmaps.socketAgent]
      exact hs.unique
    · intro other name hbound
      rw [hmaps.socketAgent] at hbound
      rw [hmaps.agentSockets]
      rcases hs.pending other name hbound with hentry | hbinds
      · exact .inl hentry
      · right
        by_cases hother : other = socket
        · subst hother
          exact hbinding name hbound hbinds
        · rw [helse.binding hother]
          exact hbinds
  | resolved frame clients resolution helse hclients hresolved hframe hfree hbinding =>
    obtain ⟨wasBound, hframe⟩ := hframe
    have hothers : ∀ other name, other ≠ socket → h.clients.socketAgent.get? other = some name →
        (h.clients.agentSockets.get? name = some other → h'.clients.agentSockets.get? name = some other) →
        h'.clients.agentSockets.get? name = some other ∨ h'.binding other = some name := by
      intro other name hother hbound hkept
      rcases hs.pending other name hbound with hentry | hbinds
      · exact .inl (hkept hentry)
      · right
        rw [helse.binding hother]
        exact hbinds
    rcases resolved_binds hs.wired hresolved hfree with hsame | ⟨evicted, hbinds⟩
    · rw [← hclients] at hsame
      refine ⟨hw, ?_, ?_⟩
      · rw [hsame.socketAgent]
        exact hs.unique
      · intro other name hbound
        rw [hsame.socketAgent] at hbound
        have hother : other ≠ socket := by
          rintro rfl
          rw [hfree] at hbound
          cases hbound
        exact hothers other name hother hbound fun hentry => hsame.agentSockets ▸ hentry
    · rw [← hclients] at hbinds hbinding
      have hself : h'.clients.socketAgent.get? socket = some frame.sender := by
        rw [hbinds.socketAgent, if_pos rfl]
      -- whoever was bound to the name is the socket that is evicted
      have hvacant : ∀ other, other ≠ socket →
          h'.clients.socketAgent.get? other ≠ some frame.sender := by
        intro other hother hbound
        rw [hbinds.socketAgent, if_neg hother] at hbound
        split at hbound
        · cases hbound
        · rename_i hkept
          cases evicted with
          | none => exact halone frame wasBound hframe hfree hself (hbinds.free rfl) other hbound
          | some owner =>
            have hheld := hs.wired.entry _ _ (hbinds.evicts owner rfl).1
            exact hkept (congrArg some (hs.unique owner other _ hheld hbound))
      refine ⟨hw, ?_, ?_⟩
      · intro first second name hfirst hsecond
        by_cases hf : first = socket
        · subst hf
          rw [hself] at hfirst
          cases hfirst
          by_contra hne
          exact hvacant second (Ne.symm hne) hsecond
        · by_cases hsec : second = socket
          · subst hsec
            rw [hself] at hsecond
            cases hsecond
            exact absurd hfirst (hvacant first hf)
          · rw [hbinds.socketAgent, if_neg hf] at hfirst
            rw [hbinds.socketAgent, if_neg hsec] at hsecond
            split at hfirst
            · cases hfirst
            · split at hsecond
              · cases hsecond
              · exact hs.unique first second name hfirst hsecond
      · intro other name hbound
        by_cases hother : other = socket
        · subst hother
          rw [hself] at hbound
          cases hbound
          exact .inr (hbinding hself)
        · have hname : name ≠ frame.sender := by
            rintro rfl
            exact hvacant other hother hbound
          rw [hbinds.socketAgent, if_neg hother] at hbound
          split at hbound
          · cases hbound
          · refine hothers other name hother hbound ?_
            intro hentry
            rw [hbinds.agentSockets, if_neg fun hboth => hname hboth.2]
            exact hentry
  | enters name helse hbound hclients =>
    refine ⟨hw, ?_, ?_⟩
    · rw [hclients]
      exact hs.unique
    · intro other held hother
      rw [hclients] at hother ⊢
      show (h.clients.agentSockets.set name socket).get? held = some other ∨ _
      rw [Dict.get?_set]
      by_cases hname : name = held
      · subst hname
        rw [if_pos rfl]
        exact .inl (congrArg some (hs.unique socket other name hbound hother))
      · rw [if_neg hname]
        have hne : other ≠ socket := by
          rintro rfl
          have hother : h.clients.socketAgent.get? other = some held := hother
          rw [hbound] at hother
          exact hname (Option.some.inj hother)
        rcases hs.pending other held hother with hentry | hbinds
        · exact .inl hentry
        · right
          rw [helse.binding hne]
          exact hbinds

/-- One step, where the claim it makes is alone. -/
theorem single_next {h : SocketHub} (hs : h.Single) {i : SocketStep} (halone : h.Alone i) :
    (h.step i).Single := by
  have hw := wired_next hs.wired i
  cases i with
  | connect socket =>
    unfold step at hw ⊢
    dsimp only at hw ⊢
    split
    · exact hs
    · rename_i hnew
      rw [if_neg hnew] at hw
      exact ⟨hw, hs.unique, hs.pending⟩
  | arrive socket data =>
    unfold step at hw ⊢
    dsimp only at hw ⊢
    split
    · rename_i harrives
      rw [if_pos harrives] at hw
      refine ⟨hw, hs.unique, ?_⟩
      intro other name hbound
      rcases hs.pending other name hbound with hentry | hbinds
      · exact .inl hentry
      · right
        have hother : other ≠ socket := by
          rintro rfl
          unfold binding at hbinds
          rw [harrives.2] at hbinds
          cases hbinds
        rw [(waitAt_elsewhere h h.clients socket _).binding hother]
        exact hbinds
    · exact hs
  | proceed socket passes times minted =>
    refine single_proceed hs (h.proceed_proceeded socket passes times minted) hw ?_
    intro frame wasBound hframe hfree hbound hentry
    obtain ⟨hpasses, hreserved, howned⟩ := bound_passed hframe hfree hbound
    exact halone frame wasBound hframe hpasses hreserved hfree howned hentry
  | disconnect socket now =>
    unfold step at hw ⊢
    dsimp only at hw ⊢
    split
    · rename_i hconnected
      rw [if_pos hconnected] at hw
      refine ⟨hw, ?_, ?_⟩
      · intro first second name hfirst hsecond
        rw [dropClient_socketAgent] at hfirst hsecond
        split at hfirst
        · cases hfirst
        · split at hsecond
          · cases hsecond
          · exact hs.unique first second name hfirst hsecond
      · intro other name hbound
        rw [dropClient_socketAgent] at hbound
        split at hbound
        · cases hbound
        · rename_i hother
          rw [dropClient_agentSockets]
          rcases hs.pending other name hbound with hentry | hbinds
          · left
            rw [if_neg]
            · exact hentry
            · intro hdropped
              rw [hentry] at hdropped
              exact hother (Option.some.inj hdropped.2)
          · right
            have helse : h.Elsewhere (h.idle socket) socket := idle_elsewhere h socket
            exact (helse.binding hother).trans hbinds
    · exact hs
  | revoke revoked =>
    refine ⟨hw, ?_, ?_⟩
    · intro first second name hfirst hsecond
      have hfirst : (h.clients.revokeName revoked).socketAgent.get? first = some name := hfirst
      have hsecond : (h.clients.revokeName revoked).socketAgent.get? second = some name := hsecond
      rw [revokeName_socketAgent] at hfirst hsecond
      split at hfirst
      · cases hfirst
      · split at hsecond
        · cases hsecond
        · exact hs.unique first second name hfirst hsecond
    · intro other name hbound
      have hbound : (h.clients.revokeName revoked).socketAgent.get? other = some name := hbound
      rw [revokeName_socketAgent] at hbound
      split at hbound
      · cases hbound
      · rename_i hkept
        rcases hs.pending other name hbound with hentry | hbinds
        · left
          show (h.clients.revokeName revoked).agentSockets.get? name = some other
          rw [revokeName_agentSockets, if_neg]
          · exact hentry
          · rintro rfl
            exact hkept hentry
        · exact .inr hbinds

/-- A step that leaves one live socket a name made a claim that was alone. -/
theorem OneLive.alone {h : SocketHub} (hs : h.Single) {i : SocketStep}
    (hlive : (h.step i).OneLive) : h.Alone i := by
  cases i with
  | proceed socket passes times minted =>
    intro frame wasBound hframe hpasses hreserved hfree howned hentry other hother
    subst hpasses
    have hbinds := passed_binds hframe hfree minted hreserved howned hentry
    have hne : other ≠ socket := by
      rintro rfl
      rw [hfree] at hother
      cases hother
    have hself := hbinds socket
    have hkept := hbinds other
    rw [if_pos rfl] at hself
    rw [if_neg hne, hother] at hkept
    have hw := wired_next hs.wired (.proceed socket true times minted)
    exact hne (hlive.unique other socket frame.sender (hw.open _ _ hkept) (hw.open _ _ hself)
      hkept hself)
  | connect _ => trivial
  | arrive _ _ => trivial
  | disconnect _ _ => trivial
  | revoke _ => trivial

omit [Builtins] in
theorem init_single (secured : Bool) (offlineTtl : Float) (damping : TakeoverDamping) :
    (init secured offlineTtl damping).Single := by
  refine ⟨⟨?_, ?_, ?_⟩, ?_, ?_⟩
  · intro name socket hentry
    cases hentry
  · intro socket name hbound
    cases hbound
  · intro socket phase hframe
    cases hframe
  · intro socket other name hbound
    cases hbound
  · intro socket name hbound
    cases hbound

/-- One live socket a name in every state of a run, exactly when every claim that the run binds
finds no other socket bound to its name. -/
theorem one_live_socket (secured : Bool) (offlineTtl : Float) (damping : TakeoverDamping)
    (steps : List SocketStep) :
    (∀ before, before <+: steps →
        (Trace.run step (init secured offlineTtl damping) before).OneLive) ↔
      Trace.Every step Alone (init secured offlineTtl damping) steps := by
  have hrun : ∀ (h : SocketHub), h.Single → (Trace.Every step Alone h steps ↔
      ∀ before, before <+: steps → (Trace.run step h before).OneLive) := by
    induction steps with
    | nil =>
      intro h hs
      refine ⟨?_, fun _ => trivial⟩
      intro _ before hbefore
      rw [List.prefix_nil.mp hbefore]
      exact hs.oneLive
    | cons i rest ih =>
      intro h hs
      constructor
      · intro hevery before hbefore
        cases before with
        | nil => exact hs.oneLive
        | cons j before =>
          obtain ⟨rfl, hrest⟩ := List.cons_prefix_cons.mp hbefore
          exact (ih _ (single_next hs hevery.1)).mp hevery.2 before hrest
      · intro hlive
        have halone : h.Alone i := OneLive.alone hs
          (hlive [i] (List.cons_prefix_cons.mpr ⟨rfl, List.nil_prefix⟩))
        refine ⟨halone, (ih _ (single_next hs halone)).mpr ?_⟩
        intro before hbefore
        exact hlive (i :: before) (List.cons_prefix_cons.mpr ⟨rfl, hbefore⟩)
  exact (hrun _ (init_single secured offlineTtl damping)).symm

/-- The clock of a hub that has just started. -/
def early : ResolveTimes := ⟨1, 1, 1, 1⟩

/-- Two sockets that claim one name, each resolved before the other's entry is set. -/
def race : List SocketStep :=
  let claim : Members := [("sender", .str "worker")]
  let goes (socket : Socket) : SocketStep := .proceed socket true early ""
  [.connect 1, .connect 2, .arrive 1 claim, .arrive 2 claim, goes 1, goes 2, goes 1, goes 2,
    goes 1, goes 2, goes 1, goes 2, goes 1, goes 2]

omit [Builtins] in
/-- Both stay open and bound to the name, and the first without an entry. -/
theorem race_binds_both :
    letI := Builtins.ascii
    let h := Trace.run step (init false 3600 ⟨2, 30, 5, 60, .empty, .empty, .empty⟩) race
    ¬ h.OneLive := by
  intro h hlive
  have hfirst : h.clients.socketAgent.get? 1 = some "worker" := by decide +kernel
  have hsecond : h.clients.socketAgent.get? 2 = some "worker" := by decide +kernel
  have hopen : 1 ∈ h.clients.connectedClients ∧ 2 ∈ h.clients.connectedClients := by decide +kernel
  have hsame := hlive.unique 1 2 "worker" hopen.1 hopen.2 hfirst hsecond
  cases hsame

end SocketHub

end SynapseChannel
