import SynapseChannel.Core.SocketBinding

/-!
# Core — NameLeases

The leases on names along a run: whoever is bound newly has shown the token
of a live lease, and a lease carries an offline stamp exactly while nobody
is bound to its name, as long as a socket that goes holds the entry of its
name exactly when it is the last one bound to it.
-/

namespace SynapseChannel

open Py

variable [Builtins]

namespace SocketHub

/-- Every lease can lapse: it carries no offline stamp while an open socket is bound to its name,
and that of the last departure otherwise. -/
def LeasesLapse (h : SocketHub) : Prop :=
  ∀ name, h.clients.ownership.tokenDigests.get? name ≠ none →
    (∀ socket, h.clients.socketAgent.get? socket = some name →
      h.clients.ownership.offlineSince.get? name = none) ∧
    ((∀ socket, h.clients.socketAgent.get? socket ≠ some name) →
      ∃ left, h.departed.get? name = some left ∧
        h.clients.ownership.offlineSince.get? name = some left)

/-- A socket that goes while it is bound to a leased name holds the entry of the name exactly when
no other socket is bound to it. -/
def LeavesLast (h : SocketHub) : SocketStep → Prop
  | .disconnect socket _ => socket ∈ h.clients.connectedClients →
      ∀ name, h.clients.socketAgent.get? socket = some name →
        h.clients.ownership.tokenDigests.get? name ≠ none →
        (h.clients.agentSockets.get? name = some socket ↔
          ∀ other ≠ socket, h.clients.socketAgent.get? other ≠ some name)
  | _ => True

/-- A step that binds a socket newly is the resolution of its frame, which showed the token of the
name's lease if one was live. -/
def TokenShown (h : SocketHub) (i : SocketStep) : Prop :=
  ∀ socket name, (h.step i).clients.socketAgent.get? socket = some name →
    h.clients.socketAgent.get? socket ≠ some name →
    ∃ passes times minted frame wasBound, i = .proceed socket passes times minted ∧
      h.frames.get? socket = some (.authorising frame wasBound) ∧ frame.sender = name ∧
      h.clients.Presented frame times

/-! ## What keeps a lease -/

/-- The bound sockets, the lease and the last departure of the name are as they were. -/
structure KeepsName (h h' : SocketHub) (name : String) : Prop where
  bound : ∀ socket, h'.clients.socketAgent.get? socket = some name ↔
    h.clients.socketAgent.get? socket = some name
  digest : h'.clients.ownership.tokenDigests.get? name = h.clients.ownership.tokenDigests.get? name
  stamp : h'.clients.ownership.offlineSince.get? name = h.clients.ownership.offlineSince.get? name
  departed : h'.departed.get? name = h.departed.get? name

/-- The lease of one name in `LeasesLapse`. -/
def Lapses (h : SocketHub) (name : String) : Prop :=
  h.clients.ownership.tokenDigests.get? name ≠ none →
    (∀ socket, h.clients.socketAgent.get? socket = some name →
      h.clients.ownership.offlineSince.get? name = none) ∧
    ((∀ socket, h.clients.socketAgent.get? socket ≠ some name) →
      ∃ left, h.departed.get? name = some left ∧
        h.clients.ownership.offlineSince.get? name = some left)

omit [Builtins] in
theorem Lapses.kept {h h' : SocketHub} {name : String} (hlapses : h.Lapses name)
    (hkeeps : h.KeepsName h' name) : h'.Lapses name := by
  intro hleased
  rw [hkeeps.digest] at hleased
  obtain ⟨honline, hoffline⟩ := hlapses hleased
  rw [hkeeps.stamp, hkeeps.departed]
  refine ⟨?_, ?_⟩
  · intro socket hbound
    exact honline socket ((hkeeps.bound socket).mp hbound)
  · intro hnobody
    refine hoffline ?_
    intro socket hbound
    exact hnobody socket ((hkeeps.bound socket).mpr hbound)

omit [Builtins] in
/-- The maps and the departures of a step that changes neither, where a lease may lapse. -/
theorem lapses_of_mayLapse {h h' : SocketHub} (hl : h.LeasesLapse)
    (hagents : h'.clients.socketAgent = h.clients.socketAgent) (hdeparted : h'.departed = h.departed)
    {lapsing : String} (hlapse : h.clients.ownership.MayLapse h'.clients.ownership lapsing) :
    h'.LeasesLapse := by
  intro name
  have hbound : ∀ socket, h'.clients.socketAgent.get? socket = some name ↔
      h.clients.socketAgent.get? socket = some name := fun socket => by rw [hagents]
  have hleft : h'.departed.get? name = h.departed.get? name := by rw [hdeparted]
  by_cases hname : name = lapsing
  · subst hname
    rcases hlapse with hsame | hreleased
    · exact Lapses.kept (hl name) ⟨hbound, by rw [hsame], by rw [hsame], hleft⟩
    · -- a released name has no lease
      intro hleased
      rw [hreleased] at hleased
      exact absurd (Dict.get?_erase_self _ _) hleased
  · obtain ⟨hdigest, hstamp⟩ := hlapse.keepsOthers name hname
    exact Lapses.kept (hl name) ⟨hbound, hdigest, hstamp, hleft⟩

/-! ## Steps -/

omit [Builtins] in
/-- A socket bound to a name in the place of whoever held it: every other name keeps who is bound
to it. -/
theorem Binds.bound_iff {h : SocketHub} (hw : h.Wired) {r' : HubClientRegistry} {socket : Socket}
    {sender : String} {evicted : Option Socket} (hbinds : Binds h.clients r' socket sender evicted)
    (hfree : h.clients.socketAgent.get? socket = none) {name : String} (hname : name ≠ sender)
    (other : Socket) :
    r'.socketAgent.get? other = some name ↔ h.clients.socketAgent.get? other = some name := by
  rw [hbinds.socketAgent]
  by_cases hother : other = socket
  · subst hother
    rw [if_pos rfl, hfree]
    constructor
    · intro hsender
      exact absurd (Option.some.inj hsender).symm hname
    · intro hnone
      cases hnone
  · rw [if_neg hother]
    by_cases hevicted : evicted = some other
    · rw [if_pos hevicted]
      have hheld := hw.entry _ _ (hbinds.evicts other hevicted).1
      rw [hheld]
      constructor
      · intro hnone
        cases hnone
      · intro hsender
        exact absurd (Option.some.inj hsender).symm hname
    · rw [if_neg hevicted]

/-- The owner that is admitted carries no stamp, and every other lease is as it was. -/
theorem resolved_ownership {r r' : HubClientRegistry} {frame : SenderFrame} {socket : Socket}
    {times : ResolveTimes} {resolution : Resolution}
    (hresolved : r.Resolved frame socket times (r', resolution))
    (hbound : r'.socketAgent.get? socket = some frame.sender)
    (hfree : r.socketAgent.get? socket = none) :
    r.ownership.KeepsOthers r'.ownership frame.sender ∧
      r'.ownership.offlineSince.get? frame.sender = none ∧ r.Presented frame times := by
  cases hresolved with
  | refused _ hmaps =>
    rw [hmaps.socketAgent, hfree] at hbound
    cases hbound
  | known hknown =>
    rw [hfree] at hknown
    cases hknown
  | bound r₀ _ granted _ _ hpresented _ hlapse hadmits =>
    refine ⟨?_, hadmits.online, hpresented⟩
    intro other hother
    obtain ⟨hdigest, hstamp⟩ := hadmits.others other hother
    obtain ⟨hdigest', hstamp'⟩ := hlapse.keepsOthers other hother
    exact ⟨hdigest.trans hdigest', hstamp.trans hstamp'⟩
  | superseded r₀ _ owner granted _ _ _ hpresented _ hlapse hadmits =>
    refine ⟨?_, hadmits.online, hpresented⟩
    intro other hother
    obtain ⟨hdigest, hstamp⟩ := hadmits.others other hother
    obtain ⟨hdigest', hstamp'⟩ := hlapse.keepsOthers other hother
    exact ⟨hdigest.trans hdigest', hstamp.trans hstamp'⟩

/-- A resolution that leaves its socket unbound lets a lease lapse, and no more. -/
theorem resolved_unbound {r r' : HubClientRegistry} {frame : SenderFrame} {socket : Socket}
    {times : ResolveTimes} {resolution : Resolution}
    (hresolved : r.Resolved frame socket times (r', resolution))
    (hunbound : r'.socketAgent.get? socket = none) :
    r.ownership.MayLapse r'.ownership frame.sender := by
  cases hresolved with
  | refused _ _ hlapse => exact hlapse
  | known hknown =>
    rw [hunbound] at hknown
    cases hknown
  | bound r₀ _ granted _ _ _ _ _ hadmits =>
    rw [hadmits.maps.socketAgent] at hunbound
    have hset : (r₀.socketAgent.set socket frame.sender).get? socket = none := hunbound
    rw [Dict.get?_set_self] at hset
    cases hset
  | superseded r₀ _ owner granted _ _ _ _ _ _ hadmits =>
    rw [hadmits.maps.socketAgent] at hunbound
    have hset : ((r₀.socketAgent.erase owner).set socket frame.sender).get? socket = none := hunbound
    rw [Dict.get?_set_self] at hset
    cases hset

theorem lapse_proceeded {h : SocketHub} (hw : h.Wired) (hl : h.LeasesLapse) {socket : Socket}
    {times : ResolveTimes} {h' : SocketHub} (hproceeded : h.Proceeded socket times h') :
    h'.LeasesLapse := by
  cases hproceeded with
  | rests helse hmaps hlapse =>
    obtain ⟨lapsing, hlapse⟩ := hlapse
    exact lapses_of_mayLapse hl hmaps.socketAgent helse.departed hlapse
  | resolved frame clients resolution helse hclients hresolved _ hfree =>
    subst hclients
    rcases resolved_binds hw hresolved hfree with hsame | ⟨evicted, hbinds⟩
    · have hlapse := resolved_unbound hresolved (by rw [hsame.socketAgent]; exact hfree)
      exact lapses_of_mayLapse hl hsame.socketAgent helse.departed hlapse
    · have hself : h'.clients.socketAgent.get? socket = some frame.sender := by
        rw [hbinds.socketAgent, if_pos rfl]
      obtain ⟨hothers, honline, -⟩ := resolved_ownership hresolved hself hfree
      intro name
      by_cases hname : name = frame.sender
      · subst hname
        intro _
        refine ⟨fun _ _ => honline, ?_⟩
        intro hnobody
        exact absurd hself (hnobody socket)
      · obtain ⟨hdigest, hstamp⟩ := hothers name hname
        exact Lapses.kept (hl name)
          ⟨hbinds.bound_iff hw hfree hname, hdigest, hstamp, by rw [helse.departed]⟩
  | enters name helse hbound hclients =>
    refine @lapses_of_mayLapse _ _ hl ?_ helse.departed name (.inl ?_)
    · rw [hclients]
      rfl
    · rw [hclients]
      rfl

section

omit [Builtins]

/-- The leases after a socket goes, where the name carried no stamp. -/
theorem dropClient_stamp (r : HubClientRegistry) (socket : Socket) (now : Float) {name : String}
    (hleased : r.ownership.tokenDigests.get? name ≠ none)
    (honline : r.ownership.offlineSince.get? name = none) :
    (r.dropClient socket now).ownership.offlineSince.get? name =
      if r.socketAgent.get? socket = some name ∧ r.agentSockets.get? name = some socket then some now
      else none := by
  unfold HubClientRegistry.dropClient
  dsimp only
  split
  · rename_i hnone
    simp [hnone, honline]
  · rename_i bound hbound
    split
    · rename_i hentry
      by_cases hname : bound = name
      · subst hname
        rw [if_pos ⟨hbound, hentry⟩]
        unfold NameOwnership.markOffline
        have hcontains : r.ownership.tokenDigests.contains bound = true := by
          rw [Dict.contains]
          exact Option.isSome_iff_ne_none.mpr hleased
        have hunstamped : r.ownership.offlineSince.contains bound = false := by
          rw [Dict.contains, honline]
          rfl
        simp only [hcontains, hunstamped, Bool.not_false, Bool.and_self, if_true]
        exact Dict.get?_set_self ..
      · rw [if_neg]
        · unfold NameOwnership.markOffline
          split
          · exact (Dict.get?_set_ne _ _ hname).trans honline
          · exact honline
        · rw [hbound]
          exact fun hboth => hname (Option.some.inj hboth.1)
    · rename_i hentry
      rw [if_neg]
      · exact honline
      · rintro ⟨hname, hheld⟩
        rw [hbound] at hname
        cases hname
        exact hentry hheld

/-- The leases after a socket goes: no digest is touched, nor any lease of a name that the socket
was not bound to. -/
theorem dropClient_kept (r : HubClientRegistry) (socket : Socket) (now : Float) (name : String) :
    (r.dropClient socket now).ownership.tokenDigests = r.ownership.tokenDigests ∧
      (r.socketAgent.get? socket ≠ some name →
        (r.dropClient socket now).ownership.offlineSince.get? name =
          r.ownership.offlineSince.get? name) := by
  unfold HubClientRegistry.dropClient NameOwnership.markOffline
  dsimp only
  split
  · exact ⟨rfl, fun _ => rfl⟩
  · rename_i bound hbound
    split
    · split
      · refine ⟨rfl, ?_⟩
        intro hother
        refine Dict.get?_set_ne _ _ ?_
        rintro rfl
        exact hother hbound
      · exact ⟨rfl, fun _ => rfl⟩
    · exact ⟨rfl, fun _ => rfl⟩

theorem disconnect_keeps {h : SocketHub} {socket : Socket} {now : Float} {name : String}
    (hother : h.clients.socketAgent.get? socket ≠ some name) :
    h.KeepsName
      { h with
        clients := h.clients.dropClient socket now
        frames := h.frames.erase socket
        departed :=
          match h.clients.socketAgent.get? socket with
          | some name => h.departed.set name now
          | none => h.departed } name := by
  obtain ⟨hdigests, hstamp⟩ := dropClient_kept h.clients socket now name
  refine ⟨?_, congrArg (fun d => Dict.get? d name) hdigests, hstamp hother, ?_⟩
  · intro bound
    rw [dropClient_socketAgent]
    by_cases hbound : bound = socket
    · subst hbound
      rw [if_pos rfl]
      constructor
      · intro hnone
        cases hnone
      · intro hheld
        exact absurd hheld hother
    · rw [if_neg hbound]
  · dsimp only
    split
    · rename_i left hleft
      refine Dict.get?_set_ne _ _ ?_
      rintro rfl
      exact hother hleft
    · rfl

end

/-- One step, where a socket that goes is the last of its name. -/
theorem lapse_next {h : SocketHub} (hw : h.Wired) (hl : h.LeasesLapse) {i : SocketStep}
    (hlast : h.LeavesLast i) : (h.step i).LeasesLapse := by
  cases i with
  | connect socket =>
    unfold step
    dsimp only
    split
    · exact hl
    · exact @lapses_of_mayLapse _ _ hl rfl rfl "" (.inl rfl)
  | arrive socket data =>
    unfold step
    dsimp only
    split
    · exact @lapses_of_mayLapse _ _ hl rfl rfl "" (.inl rfl)
    · exact hl
  | proceed socket passes times minted =>
    exact lapse_proceeded hw hl (h.proceed_proceeded socket passes times minted)
  | disconnect socket now =>
    unfold step
    dsimp only
    split
    · rename_i hconnected
      intro name
      by_cases hbound : h.clients.socketAgent.get? socket = some name
      · intro hleased
        have hleased : h.clients.ownership.tokenDigests.get? name ≠ none := by
          rw [← (dropClient_kept h.clients socket now name).1]
          exact hleased
        have honline := (hl name hleased).1 socket hbound
        have hlast := hlast hconnected name hbound hleased
        have hstamp := dropClient_stamp h.clients socket now hleased honline
        refine ⟨?_, ?_⟩
        · intro other hother
          rw [dropClient_socketAgent] at hother
          split at hother
          · cases hother
          · rename_i hne
            refine hstamp.trans (if_neg ?_)
            intro hheld
            exact hlast.mp hheld.2 other hne hother
        · intro hnobody
          refine ⟨now, ?_, ?_⟩
          · rw [hbound]
            exact Dict.get?_set_self ..
          · refine hstamp.trans (if_pos ⟨hbound, hlast.mpr ?_⟩)
            intro other hne hother
            refine hnobody other ?_
            rw [dropClient_socketAgent, if_neg hne]
            exact hother
      · exact Lapses.kept (hl name) (disconnect_keeps hbound)
    · exact hl
  | revoke revoked =>
    intro name
    by_cases hname : name = revoked
    · subst hname
      intro hleased
      exact absurd (Dict.get?_erase_self _ _) hleased
    · refine Lapses.kept (hl name) ⟨?_, ?_, ?_, rfl⟩
      · intro socket
        show (h.clients.revokeName revoked).socketAgent.get? socket = some name ↔ _
        rw [revokeName_socketAgent]
        split
        · rename_i hheld
          have hbound := hw.entry _ _ hheld
          rw [hbound]
          constructor
          · intro hnone
            cases hnone
          · intro hsame
            exact absurd (Option.some.inj hsame).symm hname
        · exact Iff.rfl
      · exact Dict.get?_erase_ne _ hname
      · exact Dict.get?_erase_ne _ hname

theorem LeasesLapse.leavesLast {h : SocketHub} (hl : h.LeasesLapse) {i : SocketStep}
    (hlapse : (h.step i).LeasesLapse) : h.LeavesLast i := by
  cases i with
  | disconnect socket now =>
    intro hconnected name hbound hleased
    have honline := (hl name hleased).1 socket hbound
    have hstamp := dropClient_stamp h.clients socket now hleased honline
    unfold step at hlapse
    dsimp only at hlapse
    rw [if_pos hconnected] at hlapse
    have hkept : (h.clients.dropClient socket now).ownership.tokenDigests.get? name ≠ none := by
      rw [(dropClient_kept h.clients socket now name).1]
      exact hleased
    obtain ⟨hheld, hleft⟩ := hlapse name hkept
    dsimp only at hheld hleft
    constructor
    · intro hentry other hne hother
      have hnone := hheld other (by rw [dropClient_socketAgent, if_neg hne]; exact hother)
      rw [hstamp, if_pos ⟨hbound, hentry⟩] at hnone
      cases hnone
    · intro hlast
      obtain ⟨left, -, hleft⟩ := hleft (by
        intro other hother
        rw [dropClient_socketAgent] at hother
        split at hother
        · cases hother
        · rename_i hne
          exact hlast other hne hother)
      rw [hstamp] at hleft
      split at hleft
      · rename_i hentry
        exact hentry.2
      · cases hleft
  | connect _ => trivial
  | arrive _ _ => trivial
  | proceed _ _ _ _ => trivial
  | revoke _ => trivial

/-! ## Runs -/

/-- Whoever is bound newly has shown the token, whatever happened before. -/
theorem token_shown {h : SocketHub} (hw : h.Wired) (i : SocketStep) : h.TokenShown i := by
  intro bound name hnow hbefore
  cases i with
  | connect socket =>
    unfold step at hnow
    dsimp only at hnow
    split at hnow <;> exact absurd hnow hbefore
  | arrive socket data =>
    unfold step at hnow
    dsimp only at hnow
    split at hnow <;> exact absurd hnow hbefore
  | proceed socket passes times minted =>
    have hproceeded := h.proceed_proceeded socket passes times minted
    generalize h.step (.proceed socket passes times minted) = h' at hproceeded hnow
    cases hproceeded with
    | rests helse hmaps =>
      rw [hmaps.socketAgent] at hnow
      exact absurd hnow hbefore
    | resolved frame clients resolution helse hclients hresolved hframe hfree =>
      subst hclients
      obtain ⟨wasBound, hframe⟩ := hframe
      rcases resolved_binds hw hresolved hfree with hsame | ⟨evicted, hbinds⟩
      · rw [hsame.socketAgent] at hnow
        exact absurd hnow hbefore
      · have hself : h'.clients.socketAgent.get? socket = some frame.sender := by
          rw [hbinds.socketAgent, if_pos rfl]
        obtain ⟨-, -, hpresented⟩ := resolved_ownership hresolved hself hfree
        by_cases hbound : bound = socket
        · subst hbound
          rw [hself] at hnow
          exact ⟨passes, times, minted, frame, wasBound, rfl, hframe, Option.some.inj hnow,
            hpresented⟩
        · rw [hbinds.socketAgent, if_neg hbound] at hnow
          split at hnow
          · cases hnow
          · exact absurd hnow hbefore
    | enters name helse hbound hclients =>
      rw [hclients] at hnow
      exact absurd hnow hbefore
  | disconnect socket now =>
    unfold step at hnow
    dsimp only at hnow
    split at hnow
    · rw [dropClient_socketAgent] at hnow
      split at hnow
      · cases hnow
      · exact absurd hnow hbefore
    · exact absurd hnow hbefore
  | revoke revoked =>
    have hnow : (h.clients.revokeName revoked).socketAgent.get? bound = some name := hnow
    rw [revokeName_socketAgent] at hnow
    split at hnow
    · cases hnow
    · exact absurd hnow hbefore

/-- Every lease can lapse in every state of a run exactly when each socket that goes while it is
bound to a leased name is the last one and holds its entry, or neither; and every newly bound
socket of any run has shown the token of a live lease. -/
theorem leases_lapse (secured : Bool) (offlineTtl : Float) (damping : TakeoverDamping)
    (steps : List SocketStep) :
    ((∀ before, before <+: steps →
        (Trace.run step (init secured offlineTtl damping) before).LeasesLapse) ↔
      Trace.Every step LeavesLast (init secured offlineTtl damping) steps) ∧
    Trace.Every step TokenShown (init secured offlineTtl damping) steps := by
  have hstart := (init_single secured offlineTtl damping).wired
  have hlapse : (init secured offlineTtl damping).LeasesLapse := fun name hleased =>
    absurd rfl hleased
  have hrun : ∀ (h : SocketHub), h.Wired → h.LeasesLapse → ((∀ before, before <+: steps →
      (Trace.run step h before).LeasesLapse) ↔ Trace.Every step LeavesLast h steps) := by
    induction steps with
    | nil =>
      intro h _ hl
      refine ⟨fun _ => trivial, ?_⟩
      intro _ before hbefore
      rw [List.prefix_nil.mp hbefore]
      exact hl
    | cons i rest ih =>
      intro h hw hl
      have hnext := wired_next hw i
      constructor
      · intro hall
        have hlast := hl.leavesLast
          (hall [i] (List.cons_prefix_cons.mpr ⟨rfl, List.nil_prefix⟩))
        refine ⟨hlast, (ih _ hnext (lapse_next hw hl hlast)).mp ?_⟩
        intro before hbefore
        exact hall (i :: before) (List.cons_prefix_cons.mpr ⟨rfl, hbefore⟩)
      · intro hevery before hbefore
        cases before with
        | nil => exact hl
        | cons j before =>
          obtain ⟨rfl, hrest⟩ := List.cons_prefix_cons.mp hbefore
          exact (ih _ hnext (lapse_next hw hl hevery.1)).mpr hevery.2 before hrest
  refine ⟨hrun _ hstart hlapse, ?_⟩
  have hany : Trace.Every step (fun _ _ => True) (init secured offlineTtl damping) steps :=
    Trace.Every.of_forall step fun _ _ => trivial
  exact (Trace.every_invariant step (I := Wired) (P := fun _ _ => True) (Q := TokenShown)
    (fun h i hw _ => wired_next hw i) (fun h i hw _ => token_shown hw i) hstart hany).2

/-- A registration that asks for a lease, and a send of the grant that raises. -/
def raisedGrant : List SocketStep :=
  let claim : Members := [("sender", .str "worker"), ("lease", .bool true)]
  [.connect 1, .arrive 1 claim, .proceed 1 true early "", .proceed 1 true early "token",
    .disconnect 1 2]

omit [Builtins] in
/-- No frame runs, no socket is bound, and the lease never lapses. -/
theorem lease_without_stamp :
    letI := Builtins.ascii
    let h := Trace.run step (init true 3600 ⟨2, 30, 5, 60, .empty, .empty, .empty⟩) raisedGrant
    h.frames.keys = [] ∧ h.clients.connectedClients = [] ∧ ¬ h.LeasesLapse := by
  intro h
  refine ⟨by decide +kernel, by decide +kernel, ?_⟩
  intro hlapse
  have hleased : h.clients.ownership.tokenDigests.get? "worker" ≠ none := by decide +kernel
  have hempty : h.clients.socketAgent.keys = [] := by decide +kernel
  have hunstamped : h.clients.ownership.offlineSince.get? "worker" = none := by decide +kernel
  obtain ⟨left, -, hstamp⟩ := (hlapse "worker" hleased).2 (by
    intro socket hbound
    have hmem := (Dict.mem_keys_iff _ _).mpr (by rw [hbound]; exact Option.some_ne_none _)
    rw [hempty] at hmem
    cases hmem)
  rw [hunstamped] at hstamp
  cases hstamp

end SocketHub

end SynapseChannel
