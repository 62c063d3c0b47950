import SynapseChannel.Core.ClientRegistry
import SynapseChannel.Core.Fencing
import SynapseChannel.Core.Journal

/-!
# Core — ClaimHolderPresence

What happens to a claim when its holder disconnects. Once the holder has
been away for the lease window, the next claim attempt releases what it
still holds. The attempt notes who is connected before it waits for the
actor that serializes the registry, and reads the claims after.
-/

namespace SynapseChannel.ClaimHolders

open Py

/-! ## Departures -/

/-- When each claim holder left, on the hub's monotonic clock. -/
structure ClaimHolderPresence where
  startedAt : Float
  window : Float
  offlineSince : Dict String Float := .empty

namespace ClaimHolderPresence

/-- An earlier stamp is kept. -/
def left (p : ClaimHolderPresence) (name : String) (now : Float) : ClaimHolderPresence :=
  if p.offlineSince.contains name then p
  else { p with offlineSince := p.offlineSince.set name now }

def returned (p : ClaimHolderPresence) (name : String) : ClaimHolderPresence :=
  { p with offlineSince := p.offlineSince.erase name }

/-- How long `name` has been offline; a departure nobody recorded counts
from the start of the hub. -/
def offlineSeconds (p : ClaimHolderPresence) (name : String) (online : Bool) (now : Float) :
    Option Float :=
  if online then none
  else
    let away := now - (p.offlineSince.get? name).getD p.startedAt
    some (if 0 < away then away else 0)

end ClaimHolderPresence

/-- One claim released because its holder stayed away for the window. -/
structure AbandonedRelease where
  taskId : String
  owner : String
  offlineSeconds : Float

/-- The claims whose holders have been offline for the whole window. -/
def abandonedClaims (state : SynapseState) (presence : ClaimHolderPresence) (online : List String)
    (now : Float) : List AbandonedRelease :=
  (sortedBy (fun a b => decide (a < b)) Prod.fst state.claims.items).filterMap fun entry =>
    let (taskId, claim) := entry
    match presence.offlineSeconds claim.owner (decide (claim.owner ∈ online)) now with
    | some away =>
      if away ≥ presence.window then some ⟨taskId, claim.owner, away⟩ else none
    | none => none

def holderOfflineActor : String := "hub:holder-offline"

/-- The loop of `mutate`; what a release answers is not looked at. -/
def releaseAbandoned (state : SynapseState) (released : List AbandonedRelease) : SynapseState :=
  released.foldl (fun s item => (s.forceRelease item.taskId holderOfflineActor).1) state

def recordRelease (store : EventStore) (ts : Float) (taskId : String) : EventStore :=
  (store.insertEnrolled ts EventKind.release [("task_id", .str taskId)]).1

/-- The rows of `persist_releases`, each stored on its own. -/
def persistReleases (store : EventStore) (stamps : Nat → Float) (released : List AbandonedRelease) :
    EventStore :=
  released.zipIdx.foldl (fun s item => recordRelease s (stamps item.2) item.1.taskId) store

/-! ## The hub -/

/-- What a sweep noted before it waits for the actor. -/
structure Look where
  online : List String
  now : Float

/-- The lock holder while its append runs, with its private copy. -/
inductive Turn where
  | sweep (caller : Nat) (look : Look) (candidate : SynapseState)
      (released : List AbandonedRelease)
  | verb (op : StateOp) (candidate : SynapseState) (granted : Bool)

def Turn.candidate : Turn → SynapseState
  | .sweep _ _ candidate _ => candidate
  | .verb _ candidate _ => candidate

/-- The registry under its actor, and who is connected. `journal` says
whether mutations are persisted. -/
structure Hub where
  journal : Bool
  agentSockets : Dict String Socket := .empty
  claimHolders : ClaimHolderPresence
  state : SynapseState
  store : EventStore := {}
  nextCaller : Nat := 0
  waiting : Dict Nat Look := .empty
  holder : Option Turn := none

/-- A turn of the event loop. -/
inductive Op where
  /-- `release_abandoned_claims` up to the actor. -/
  | look (now : Float)
  /-- A sweep that waits gets the lock. -/
  | enter (caller : Nat)
  /-- A sweep is cancelled while it waits. -/
  | abandon (caller : Nat)
  /-- A caller of a verb gets the lock. -/
  | verb (op : StateOp)
  /-- The append of the lock holder ends. A fault stands for the number of
  rows a sweep had stored when an append raised. -/
  | finish (fault : Option Nat) (stamps : Nat → Float)
  /-- A frame's heartbeat gets the lock; the name is bound in the same turn. -/
  | bind (name : String) (socket : Socket) (wasBound : Bool) (now : Float)
  /-- A connected name changes sockets. -/
  | takeover (name : String) (socket : Socket)
  /-- A connection ends. -/
  | drop (name : String) (socket : Socket) (now : Float)
  | revoke (name : String)
  /-- A view of the registry is built, outside the actor. -/
  | view (now : Float)

namespace Hub

/-- A sweep that finds nothing abandoned returns at once. -/
def look (h : Hub) (now : Float) : Hub :=
  let online := h.agentSockets.keys
  let h' := { h with nextCaller := h.nextCaller + 1 }
  if (abandonedClaims h.state h.claimHolders online now).isEmpty then h'
  else { h' with waiting := h.waiting.set h.nextCaller ⟨online, now⟩ }

/-- The sweep under the lock, up to its append if there is a journal. -/
def enter (h : Hub) (caller : Nat) : Hub :=
  match h.holder, h.waiting.get? caller with
  | none, some look =>
    let released := abandonedClaims h.state h.claimHolders look.online look.now
    let candidate := releaseAbandoned h.state released
    let h' := { h with waiting := h.waiting.erase caller }
    if h.journal then { h' with holder := some (.sweep caller look candidate released) }
    else { h' with state := candidate }
  | _, _ => h

/-- A connected name's departure starts its window when it holds a claim. -/
def drop (h : Hub) (name : String) (socket : Socket) (now : Float) : Hub :=
  if h.agentSockets.get? name = some socket then
    { h with
      agentSockets := h.agentSockets.erase name
      claimHolders :=
        if h.state.claims.values.any fun claim => claim.owner == name then
          h.claimHolders.left name now
        else h.claimHolders }
  else h

/-- The journal after the holder's append. -/
def appended (h : Hub) (turn : Turn) (fault : Option Nat) (stamps : Nat → Float) :
    EventStore :=
  match turn with
  | .sweep _ _ _ released =>
    persistReleases h.store stamps
      (match fault with
        | some stored => released.take stored
        | none => released)
  | .verb _ _ _ => h.store

/-- A failed append publishes nothing. -/
def finish (h : Hub) (fault : Option Nat) (stamps : Nat → Float) : Hub :=
  match h.holder with
  | none => h
  | some turn =>
    let h' := { h with holder := none, store := h.appended turn fault stamps }
    match fault with
    | some _ => h'
    | none => { h' with state := turn.candidate }

variable [Builtins]

def verb (h : Hub) (op : StateOp) : Hub :=
  match h.holder with
  | some _ => h
  | none =>
    let (candidate, verdict) := op.apply h.state
    if h.journal then { h with holder := some (.verb op candidate verdict.isOk) }
    else { h with state := candidate }

def bind (h : Hub) (name : String) (socket : Socket) (wasBound : Bool) (now : Float) :
    Hub :=
  match h.holder with
  | some _ => h
  | none =>
    { h with
      state := h.state.heartbeat name now
      agentSockets := h.agentSockets.set name socket
      claimHolders := if wasBound then h.claimHolders else h.claimHolders.returned name }

def step (h : Hub) : Op → Hub
  | .look now => h.look now
  | .enter caller => h.enter caller
  | .abandon caller => { h with waiting := h.waiting.erase caller }
  | .verb op => h.verb op
  | .finish fault stamps => h.finish fault stamps
  | .bind name socket wasBound now => h.bind name socket wasBound now
  | .takeover name socket =>
    if h.agentSockets.contains name then
      { h with agentSockets := h.agentSockets.set name socket }
    else h
  | .drop name socket now => h.drop name socket now
  | .revoke name => { h with agentSockets := h.agentSockets.erase name }
  | .view now => { h with state := h.state.snapshot now }

def run (h : Hub) (ops : List Op) : Hub := Trace.run step h ops

/-! ## What the steps commit -/

/-- The sweep whose removal a step commits. -/
def publishes (h : Hub) : Op → Option Nat
  | .enter caller =>
    if h.holder.isNone && !h.journal && (h.waiting.get? caller).isSome then some caller else none
  | .finish none _ =>
    match h.holder with
    | some (.sweep caller _ _ _) => some caller
    | _ => none
  | _ => none

/-- The granted verb a step commits. -/
def commits (h : Hub) : Op → Option StateOp
  | .verb op =>
    if h.holder.isNone && !h.journal && (op.apply h.state).2.isOk then some op else none
  | .finish none _ =>
    match h.holder with
    | some (.verb op _ true) => some op
    | _ => none
  | _ => none

/-- The step takes a claim out of the registry. -/
def Removes (h : Hub) (op : Op) (task : String) (claim : TaskClaim) : Prop :=
  h.state.claims.get? task = some claim ∧ (h.step op).state.claims.get? task = none

/-- The step stores a release row of the task. -/
def Journals (h : Hub) (op : Op) (task : String) : Prop :=
  ∃ event ∈ (h.step op).store.events.drop h.store.events.length,
    event.kind = EventKind.release ∧ event.payload = [("task_id", .str task)]

end Hub

/-- The task a granted verb leases, and to whom. -/
def conveys : StateOp → Option (String × String)
  | .claim agent taskId _ _ => some (strip taskId, agent)
  | .renewClaim agent taskId _ _ _ => some (strip taskId, agent)
  | .handoff _ taskId toAgent _ _ _ => some (strip taskId, strip toAgent)
  | _ => none

variable [Builtins]

/-- The call commits a claim, renewal or handoff of the task. -/
def Grants (task : String) (call : Hub × Op) : Prop :=
  ∃ op owner, call.1.commits call.2 = some op ∧ conveys op = some (task, owner)

/-- A sweep removes no claim whose holder is connected when the removal is
committed, or that was leased since the sweep looked, and a sweep that
fails removes the claims whose rows it stored. -/
structure Spares (h : Hub) (ops : List Op) : Prop where
  living : ∀ before now after op, before ++ .look now :: after ++ [op] <+: ops →
    (h.run (before ++ .look now :: after)).publishes op = some (h.run before).nextCaller →
      ∀ task claim, (h.run (before ++ .look now :: after)).Removes op task claim →
        (h.run (before ++ .look now :: after)).agentSockets.get? claim.owner = none ∧
          ∀ call ∈ Trace.trace Hub.step ((h.run before).look now) after, ¬ Grants task call
  rows : ∀ before stored stamps caller look candidate released,
    before ++ [.finish (some stored) stamps] <+: ops →
      (h.run before).holder = some (.sweep caller look candidate released) → ∀ task,
        (∃ claim, (h.run before).Removes (.finish (some stored) stamps) task claim) ↔
          (h.run before).Journals (.finish (some stored) stamps) task

/-- While a sweep waits, nobody it noted as away is bound while holding a
claim, or leases one; and no append of a sweep fails after one is stored. -/
def Clear (h : Hub) (op : Op) : Prop :=
  (∀ caller look, h.waiting.get? caller = some look →
    (∀ name socket wasBound now, op = .bind name socket wasBound now →
      name ∈ look.online ∨ ∀ task claim, h.state.claims.get? task = some claim → claim.owner ≠ name) ∧
    ∀ verb task owner, h.commits op = some verb → conveys verb = some (task, owner) →
      owner ∈ look.online) ∧
  ∀ stored stamps caller look candidate released, op = .finish (some stored) stamps →
    h.holder = some (.sweep caller look candidate released) → stored = 0 ∨ released = []

/-! ## The claims a verb leaves -/

/-- Claims are filed under ids without surrounding blanks. -/
def Filed (s : SynapseState) : Prop :=
  ∀ task claim, s.claims.get? task = some claim → strip task = task

/-- A claim after a verb was leased by it, or was there before under the
same owner. -/
theorem claim_owner {s : SynapseState} {op : StateOp} {r : SynapseState × Verdict}
    (step : StateStep s op r) {task : String} {c' : TaskClaim}
    (hc : r.1.claims.get? task = some c') :
    (r.2.isOk = true ∧ conveys op = some (task, c'.owner)) ∨
      ∃ c, s.claims.get? task = some c ∧ c.owner = c'.owner ∧
        (r.2.isOk = true → ∀ owner, conveys op ≠ some (task, owner)) := by
  have beat {agent : String} {now : Float} {c : TaskClaim}
      (h : (s.heartbeat agent now).claims.get? task = some c) : s.claims.get? task = some c :=
    s.heartbeat_claims_sub agent now task c h
  cases step with
  | invalid _ m => exact .inr ⟨c', hc, rfl, by intro h; cases h⟩
  | refused _ agent now m => exact .inr ⟨c', beat hc, rfl, by intro h; cases h⟩
  | claimed agent taskId now args m h =>
    simp only [SynapseState.grantClaim, SynapseState.install, Dict.get?_set] at hc
    split at hc
    · rename_i htask
      cases hc
      exact .inl ⟨rfl, by rw [← htask]; rfl⟩
    · rename_i htask
      exact .inr ⟨c', beat hc, rfl, fun _ owner => by simp [conveys, htask]⟩
  | renewed agent taskId now epoch paths claim m h hepoch hpaths =>
    simp only [SynapseState.install, Dict.get?_set] at hc
    split at hc
    · rename_i htask
      cases hc
      refine .inl ⟨rfl, ?_⟩
      rw [← htask]
      exact congrArg some (congrArg (strip taskId, ·) h.owner.symm)
    · rename_i htask
      exact .inr ⟨c', beat hc, rfl, fun _ owner => by simp [conveys, htask]⟩
  | updated agent task' now args claim m h =>
    simp only [SynapseState.putClaim, Dict.get?_set] at hc
    split at hc
    · rename_i htask
      cases hc
      exact .inr ⟨claim, beat (htask ▸ h.held), rfl, fun _ owner => by simp [conveys]⟩
    · exact .inr ⟨c', beat hc, rfl, fun _ owner => by simp [conveys]⟩
  | checkpointed agent taskId now checkpoint epoch claim m h =>
    simp only [SynapseState.putClaim, Dict.get?_set] at hc
    split at hc
    · rename_i htask
      cases hc
      exact .inr ⟨claim, beat (htask ▸ h.held), rfl, fun _ owner => by simp [conveys]⟩
    · exact .inr ⟨c', beat hc, rfl, fun _ owner => by simp [conveys]⟩
  | released agent taskId now epoch claim m =>
    simp only [SynapseState.remove, Dict.get?_erase] at hc
    split at hc
    · cases hc
    · exact .inr ⟨c', beat hc, rfl, fun _ owner => by simp [conveys]⟩
  | revoked taskId operator claim m =>
    simp only [SynapseState.remove, Dict.get?_erase] at hc
    split at hc
    · cases hc
    · exact .inr ⟨c', hc, rfl, fun _ owner => by simp [conveys]⟩
  | moved agent taskId toAgent now note epoch claim m htask htarget h =>
    simp only [SynapseState.moveClaim, SynapseState.install, Dict.get?_set] at hc
    split at hc
    · rename_i htask
      cases hc
      exact .inl ⟨rfl, by rw [← htask]; rfl⟩
    · rename_i htask
      exact .inr ⟨c', beat hc, rfl, fun _ owner => by simp [conveys, htask]⟩
  | beat agent now m => exact .inr ⟨c', beat hc, rfl, fun _ owner => by simp [conveys]⟩
  | viewed now m =>
    obtain ⟨claims, _, _, _, hsub, heq⟩ := s.snapshot_eq now
    simp only [heq] at hc
    exact .inr ⟨c', hsub task c' hc, rfl, fun _ owner => by simp [conveys]⟩

omit [Builtins] in
theorem Filed.of_sub {s s' : SynapseState} (h : Filed s) (hsub : s'.claims.Sub s.claims) :
    Filed s' := fun task claim hc => h task claim (hsub task claim hc)

omit [Builtins] in
theorem conveys_strip {op : StateOp} {task owner : String} (h : conveys op = some (task, owner)) :
    strip task = task := by
  cases op with
  | claim | renewClaim | handoff =>
    obtain ⟨rfl, -⟩ := Prod.mk.inj (Option.some.inj h)
    exact strip_strip _
  | _ => cases h

theorem Filed.apply {s : SynapseState} (h : Filed s) (op : StateOp) : Filed (op.apply s).1 := by
  intro task c' hc
  rcases claim_owner (op.apply_step s) hc with ⟨-, hop⟩ | ⟨c, hold, -, -⟩
  · exact conveys_strip hop
  · exact h task c hold

omit [Builtins] in
theorem snapshot_sub (s : SynapseState) (now : Float) : (s.snapshot now).claims.Sub s.claims := by
  obtain ⟨claims, _, _, _, hsub, heq⟩ := s.snapshot_eq now
  rw [heq]
  exact hsub

/-! ## The claims a sweep leaves -/

omit [Builtins] in
theorem mem_abandonedClaims {s : SynapseState} {p : ClaimHolderPresence} {online : List String}
    {now : Float} {item : AbandonedRelease} (h : item ∈ abandonedClaims s p online now) :
    ∃ claim, s.claims.get? item.taskId = some claim ∧ claim.owner ∉ online := by
  obtain ⟨⟨taskId, claim⟩, hmem, hentry⟩ := List.mem_filterMap.mp h
  rw [mem_sortedBy, Dict.mem_items_iff] at hmem
  dsimp only at hentry
  split at hentry
  · rename_i away haway
    split_ifs at hentry
    cases hentry
    refine ⟨claim, hmem, fun honline => ?_⟩
    rw [ClaimHolderPresence.offlineSeconds, decide_eq_true honline] at haway
    cases haway
  · cases hentry

theorem forceRelease_claims (s : SynapseState) (taskId operator : String) :
    (s.forceRelease taskId operator).1.claims.Sub s.claims ∧
      ∀ task, strip taskId ≠ task →
        (s.forceRelease taskId operator).1.claims.get? task = s.claims.get? task := by
  have hstep := s.forceRelease_step taskId operator
  generalize s.forceRelease taskId operator = r at hstep ⊢
  cases hstep with
  | invalid => exact ⟨.refl _, fun _ _ => rfl⟩
  | refused _ agent now m hcaller => cases hcaller
  | revoked claim m =>
    exact ⟨.erase _ _, fun task hne => Dict.get?_erase_ne _ (Ne.symm hne)⟩

theorem releaseAbandoned_sub (released : List AbandonedRelease) (s : SynapseState) :
    (releaseAbandoned s released).claims.Sub s.claims := by
  induction released generalizing s with
  | nil => exact .refl _
  | cons item rest ih =>
    have hfirst := (forceRelease_claims s item.taskId holderOfflineActor).1
    intro task claim hc
    exact hfirst task claim (ih _ task claim hc)

/-- Only the claims on the list are released. -/
theorem releaseAbandoned_keeps {released : List AbandonedRelease} {s : SynapseState} {task : String}
    (h : ∀ item ∈ released, strip item.taskId ≠ task) :
    (releaseAbandoned s released).claims.get? task = s.claims.get? task := by
  induction released generalizing s with
  | nil => rfl
  | cons item rest ih =>
    have hfirst := (forceRelease_claims s item.taskId holderOfflineActor).2 task
      (h item List.mem_cons_self)
    rw [← hfirst]
    exact ih fun item hitem => h item (List.mem_cons_of_mem _ hitem)

/-- A sweep keeps the claims of those it noted as connected. -/
theorem release_spares {s : SynapseState} (hfiled : Filed s) (p : ClaimHolderPresence)
    (look : Look) {task : String} {claim : TaskClaim} (hheld : s.claims.get? task = some claim) :
    (releaseAbandoned s (abandonedClaims s p look.online look.now)).claims.get? task = some claim ∨
      claim.owner ∉ look.online := by
  by_cases honline : claim.owner ∈ look.online
  · left
    rw [releaseAbandoned_keeps, hheld]
    intro item hitem htask
    obtain ⟨other, hother, hoffline⟩ := mem_abandonedClaims hitem
    rw [hfiled item.taskId other hother] at htask
    rw [htask, hheld] at hother
    cases hother
    exact hoffline honline
  · exact .inr honline

/-! ## A sweep that waits -/

/-- An owner that the sweep noted as away is not connected, and the task was
not leased in the calls. -/
def Absent (h : Hub) (look : Look) (calls : List (Hub × Op)) (task owner : String) : Prop :=
  owner ∉ look.online →
    h.agentSockets.get? owner = none ∧ ∀ call ∈ calls, ¬ Grants task call

def Quiet (h : Hub) (look : Look) (calls : List (Hub × Op)) : Prop :=
  ∀ task claim, h.state.claims.get? task = some claim → Absent h look calls task claim.owner

/-- The claims the lock holder would publish, but for the one it leases. -/
def QuietTurn (h : Hub) (look : Look) (calls : List (Hub × Op)) : Prop :=
  ∀ turn, h.holder = some turn → ∀ task claim, turn.candidate.claims.get? task = some claim →
    (∃ op s, turn = .verb op s true ∧ conveys op = some (task, claim.owner)) ∨
      (∀ op s owner, turn = .verb op s true → conveys op ≠ some (task, owner)) ∧
        Absent h look calls task claim.owner

/-- Sweep `caller` does not have the lock. -/
def Outside (h : Hub) (caller : Nat) : Prop :=
  ∀ look s released, h.holder ≠ some (.sweep caller look s released)

/-- Where sweep `caller`, which noted `look`, is after the calls. -/
inductive Watched (h : Hub) (caller : Nat) (look : Look) (calls : List (Hub × Op)) : Prop
  | waits (hwait : h.waiting.get? caller = some look) (hout : Outside h caller)
      (hstate : Quiet h look calls) (hturn : QuietTurn h look calls)
  | holds {s : SynapseState} {released : List AbandonedRelease}
      (hholder : h.holder = some (.sweep caller look s released))
      (hwait : h.waiting.get? caller = none) (hstate : Quiet h look calls)
      (hspared : ∀ task claim, h.state.claims.get? task = some claim →
        s.claims.get? task = some claim ∨ claim.owner ∉ look.online)
  | ended (hwait : h.waiting.get? caller = none) (hout : Outside h caller)

theorem Absent.step {h h' : Hub} {look : Look} {calls : List (Hub × Op)} {call : Hub × Op}
    {task owner : String} (habsent : Absent h look calls task owner)
    (hsocket : owner ∉ look.online → h.agentSockets.get? owner = none →
      h'.agentSockets.get? owner = none)
    (hgrant : owner ∉ look.online → ¬ Grants task call) :
    Absent h' look (calls ++ [call]) task owner := by
  intro haway
  obtain ⟨hoffline, hcalls⟩ := habsent haway
  refine ⟨hsocket haway hoffline, fun c hc => ?_⟩
  rcases List.mem_append.mp hc with hc | hc
  · exact hcalls c hc
  · rw [List.mem_singleton.mp hc]
    exact hgrant haway

omit [Builtins] in
theorem get?_erase_none {κ ν : Type} [DecidableEq κ] (d : Dict κ ν) (name other : κ)
    (hnone : d.get? other = none) : (d.erase name).get? other = none := by
  rw [Dict.get?_erase, hnone, ite_self]

theorem not_grants_of_none {h : Hub} {op : Op} (hcommits : h.commits op = none) (task : String) :
    ¬ Grants task (h, op) := by
  rintro ⟨verb, owner, hverb, -⟩
  rw [hcommits] at hverb
  cases hverb

/-- A step that leaves the lock and the sweep alone, and binds nobody. -/
theorem Watched.calm {h h' : Hub} {caller : Nat} {look : Look} {calls : List (Hub × Op)} {op : Op}
    (hwatched : Watched h caller look calls)
    (hwaiting : h'.waiting.get? caller = h.waiting.get? caller) (hholder : h'.holder = h.holder)
    (hsub : h'.state.claims.Sub h.state.claims)
    (hsockets : ∀ name, h.agentSockets.get? name = none → h'.agentSockets.get? name = none)
    (hcommits : h.commits op = none) : Watched h' caller look (calls ++ [(h, op)]) := by
  have habsent : ∀ {task owner}, Absent h look calls task owner →
      Absent h' look (calls ++ [(h, op)]) task owner := fun hold =>
    hold.step (fun _ => hsockets _) fun _ => not_grants_of_none hcommits _
  have hquiet : Quiet h look calls → Quiet h' look (calls ++ [(h, op)]) :=
    fun hold task claim hc => habsent (hold task claim (hsub task claim hc))
  have hout : Outside h caller → Outside h' caller := by
    intro hold l s released
    rw [hholder]
    exact hold l s released
  cases hwatched with
  | waits hwait hother hstate hturn =>
    refine .waits (hwaiting.trans hwait) (hout hother) (hquiet hstate) ?_
    intro turn hsome task claim hc
    rw [hholder] at hsome
    rcases hturn turn hsome task claim hc with hleased | ⟨hother, hold⟩
    · exact .inl hleased
    · exact .inr ⟨hother, habsent hold⟩
  | holds hheld hwait hstate hspared =>
    refine .holds (hholder.trans hheld) (hwaiting.trans hwait) (hquiet hstate) ?_
    exact fun task claim hc => hspared task claim (hsub task claim hc)
  | ended hwait hother => exact .ended (hwaiting.trans hwait) (hout hother)

/-- A sweep gets the lock. -/
theorem Watched.enter {h : Hub} {caller : Nat} {look : Look} {calls : List (Hub × Op)}
    (hwatched : Watched h caller look calls) (hfiled : Filed h.state) (other : Nat) :
    Watched (h.enter other) caller look (calls ++ [(h, .enter other)]) := by
  have hcommits : h.commits (.enter other) = none := rfl
  unfold Hub.enter
  split
  · rename_i noted hfree hnoted
    have hsub := releaseAbandoned_sub (abandonedClaims h.state h.claimHolders noted.online noted.now)
      h.state
    have habsent : ∀ {h' : Hub} {task owner}, h'.agentSockets = h.agentSockets →
        Absent h look calls task owner → Absent h' look (calls ++ [(h, .enter other)]) task owner :=
      fun hsame hold => hold.step (fun _ hnone => hsame ▸ hnone) fun _ => not_grants_of_none hcommits _
    dsimp only
    by_cases heq : other = caller
    · subst heq
      cases hwatched with
      | waits hwait hout hstate hturn =>
        obtain rfl := Option.some.inj (hnoted.symm.trans hwait)
        split
        · refine .holds rfl (Dict.get?_erase_self _ _) ?_ ?_
          · exact fun task claim hc => habsent rfl (hstate task claim hc)
          · exact fun task claim hc => release_spares hfiled h.claimHolders noted hc
        · refine .ended (Dict.get?_erase_self _ _) ?_
          intro l s released
          rw [hfree]
          simp
      | holds hheld =>
        rw [hfree] at hheld
        cases hheld
      | ended hwait =>
        rw [hwait] at hnoted
        cases hnoted
    · have hstill := Dict.get?_erase_ne h.waiting (Ne.symm heq)
      split
      · have hout : ∀ (l : Look) (s : SynapseState) (released : List AbandonedRelease),
            some (Turn.sweep other noted (releaseAbandoned h.state (abandonedClaims h.state
              h.claimHolders noted.online noted.now)) (abandonedClaims h.state h.claimHolders
              noted.online noted.now)) ≠ some (.sweep caller l s released) := by
          intro l s released hsome
          cases hsome
          exact heq rfl
        cases hwatched with
        | waits hwait _ hstate _ =>
          refine .waits (hstill.trans hwait) hout ?_ ?_
          · exact fun task claim hc => habsent rfl (hstate task claim hc)
          · rintro turn ⟨rfl⟩ task claim hc
            refine .inr ⟨fun op s owner hverb => ?_, habsent rfl (hstate task claim (hsub task claim hc))⟩
            cases hverb
        | holds hheld =>
          rw [hfree] at hheld
          cases hheld
        | ended hwait _ => exact .ended (hstill.trans hwait) hout
      · exact hwatched.calm hstill rfl hsub (fun _ hnone => hnone) hcommits
  · exact hwatched.calm rfl rfl (.refl _) (fun _ hnone => hnone) hcommits

/-- The lock holder's append ends. -/
theorem Watched.finish {h : Hub} {caller : Nat} {look : Look} {calls : List (Hub × Op)}
    (hwatched : Watched h caller look calls) (fault : Option Nat) (stamps : Nat → Float)
    (hclear : Clear h (.finish fault stamps)) :
    Watched (h.finish fault stamps) caller look (calls ++ [(h, .finish fault stamps)]) := by
  unfold Hub.finish
  split
  · rename_i hfree
    refine hwatched.calm rfl rfl (.refl _) (fun _ hnone => hnone) ?_
    unfold Hub.commits
    cases fault <;> simp [hfree]
  · rename_i turn hheld
    have hout : ∀ (l : Look) (s : SynapseState) (released : List AbandonedRelease),
        (none : Option Turn) ≠ some (.sweep caller l s released) := by simp
    cases hwatched with
    | waits hwait _ hstate hturn =>
      cases fault with
      | some stored =>
        refine .waits hwait hout ?_ (by intro turn hsome; cases hsome)
        intro task claim hc
        exact (hstate task claim hc).step (fun _ hnone => hnone) fun _ => not_grants_of_none rfl _
      | none =>
        refine .waits hwait hout ?_ (by intro turn hsome; cases hsome)
        intro task claim hc
        -- what the holder leased went to someone the sweep noted as connected
        have hleased : ∀ op s, turn = .verb op s true → ∀ owner, conveys op = some (task, owner) →
            owner ∈ look.online := by
          rintro op s rfl owner hconveys
          refine (hclear.1 caller look hwait).2 op task owner ?_ hconveys
          simp only [Hub.commits, hheld]
        rcases hturn turn hheld task claim hc with ⟨op, s, hverb, hconveys⟩ | ⟨hother, hold⟩
        · intro haway
          exact absurd (hleased op s hverb _ hconveys) haway
        · refine hold.step (fun _ hnone => hnone) ?_
          rintro - ⟨verb, owner, hverb, hconveys⟩
          simp only [Hub.commits, hheld] at hverb
          split at hverb
          · rename_i op s hturned
            cases hverb
            exact hother _ s owner (Option.some.inj hturned) hconveys
          · cases hverb
    | holds _ hwait _ _ =>
      cases fault with
      | some stored => exact .ended hwait hout
      | none => exact .ended hwait hout
    | ended hwait _ =>
      cases fault with
      | some stored => exact .ended hwait hout
      | none => exact .ended hwait hout

/-- A caller of a verb gets the lock. -/
theorem Watched.verb {h : Hub} {caller : Nat} {look : Look} {calls : List (Hub × Op)}
    (hwatched : Watched h caller look calls) (op : StateOp) (hclear : Clear h (.verb op)) :
    Watched (h.verb op) caller look (calls ++ [(h, .verb op)]) := by
  unfold Hub.verb
  split
  · rename_i turn hheld
    refine hwatched.calm rfl rfl (.refl _) (fun _ hnone => hnone) ?_
    simp [Hub.commits, hheld]
  · rename_i hfree
    have horigin := @claim_owner _ h.state op _ (op.apply_step h.state)
    dsimp only
    split
    · rename_i hjournal
      have hcommits : h.commits (.verb op) = none := by simp [Hub.commits, hjournal]
      have hout : ∀ (l : Look) (s : SynapseState) (released : List AbandonedRelease),
          some (Turn.verb op (op.apply h.state).1 (op.apply h.state).2.isOk) ≠
            some (.sweep caller l s released) := by simp
      cases hwatched with
      | waits hwait _ hstate _ =>
        refine .waits hwait hout ?_ ?_
        · intro task claim hc
          exact (hstate task claim hc).step (fun _ hnone => hnone)
            fun _ => not_grants_of_none hcommits _
        · rintro turn ⟨rfl⟩ task claim hc
          rcases horigin hc with ⟨hok, hconveys⟩ | ⟨c, hold, howner, hother⟩
          · exact .inl ⟨op, _, by rw [hok], hconveys⟩
          · right
            constructor
            · intro op' s owner hverb
              obtain ⟨rfl, -, hok⟩ := Turn.verb.inj hverb
              exact hother hok owner
            · rw [← howner]
              exact (hstate task c hold).step (fun _ hnone => hnone)
                fun _ => not_grants_of_none hcommits _
      | holds hheld =>
        rw [hfree] at hheld
        cases hheld
      | ended hwait _ => exact .ended hwait hout
    · rename_i hjournal
      have hout : Outside h caller := by
        intro l s released
        rw [hfree]
        simp
      cases hwatched with
      | waits hwait _ hstate _ =>
        refine .waits hwait hout ?_ (by intro turn hsome; rw [hfree] at hsome; cases hsome)
        intro task claim hc
        rcases horigin hc with ⟨hok, hconveys⟩ | ⟨c, hold, howner, hother⟩
        · intro haway
          refine absurd ((hclear.1 caller look hwait).2 op task claim.owner ?_ hconveys) haway
          simp [Hub.commits, hfree, hjournal, hok]
        · rw [← howner]
          refine (hstate task c hold).step (fun _ hnone => hnone) ?_
          rintro - ⟨verb, owner, hverb, hconveys⟩
          simp only [Hub.commits] at hverb
          split_ifs at hverb with hgranted
          cases hverb
          simp only [Bool.and_eq_true] at hgranted
          exact hother hgranted.2 owner hconveys
      | holds hheld =>
        rw [hfree] at hheld
        cases hheld
      | ended hwait _ => exact .ended hwait hout

/-- A frame's heartbeat gets the lock. -/
theorem Watched.bind {h : Hub} {caller : Nat} {look : Look} {calls : List (Hub × Op)}
    (hwatched : Watched h caller look calls) (name : String) (socket : Socket) (wasBound : Bool)
    (now : Float) (hclear : Clear h (.bind name socket wasBound now)) :
    Watched (h.bind name socket wasBound now) caller look
      (calls ++ [(h, .bind name socket wasBound now)]) := by
  have hcommits : h.commits (.bind name socket wasBound now) = none := rfl
  unfold Hub.bind
  split
  · exact hwatched.calm rfl rfl (.refl _) (fun _ hnone => hnone) hcommits
  · rename_i hfree
    have hout : Outside h caller := by
      intro l s released
      rw [hfree]
      simp
    cases hwatched with
    | waits hwait _ hstate _ =>
      refine .waits hwait hout ?_ (by intro turn hsome; rw [hfree] at hsome; cases hsome)
      intro task claim hc
      have hold := h.state.heartbeat_claims_sub name now task claim hc
      refine (hstate task claim hold).step ?_ fun _ => not_grants_of_none hcommits _
      intro haway hnone
      have hne : claim.owner ≠ name := by
        rintro heq
        rcases (hclear.1 caller look hwait).1 name socket wasBound now rfl with honline | hnobody
        · exact haway (heq ▸ honline)
        · exact hnobody task claim hold heq
      exact (Dict.get?_set_ne _ _ (Ne.symm hne)).trans hnone
    | holds hheld =>
      rw [hfree] at hheld
      cases hheld
    | ended hwait _ => exact .ended hwait hout

/-- One step of the hub, as a sweep that looked sees it. -/
theorem Watched.step {h : Hub} {caller : Nat} {look : Look} {calls : List (Hub × Op)}
    (hwatched : Watched h caller look calls) (hfresh : caller < h.nextCaller)
    (hfiled : Filed h.state) {op : Op} (hclear : Clear h op) :
    Watched (h.step op) caller look (calls ++ [(h, op)]) := by
  cases op with
  | look now =>
    have hne : caller ≠ h.nextCaller := Nat.ne_of_lt hfresh
    show Watched (h.look now) _ _ _
    unfold Hub.look
    dsimp only
    split
    · exact hwatched.calm rfl rfl (.refl _) (fun _ hnone => hnone) rfl
    · exact hwatched.calm (Dict.get?_set_ne _ _ hne.symm) rfl (.refl _) (fun _ hnone => hnone) rfl
  | enter other => exact hwatched.enter hfiled other
  | abandon other =>
    by_cases heq : other = caller
    · subst heq
      cases hwatched with
      | waits hwait hout _ _ => exact .ended (Dict.get?_erase_self _ _) hout
      | holds hheld hwait hstate hspared =>
        have hsame : (h.waiting.erase other).get? other = h.waiting.get? other := by
          rw [Dict.get?_erase_self, hwait]
        exact (Watched.holds hheld hwait hstate hspared).calm hsame rfl (.refl _)
          (fun _ hnone => hnone) rfl
      | ended hwait hout => exact .ended (Dict.get?_erase_self _ _) hout
    · exact hwatched.calm (Dict.get?_erase_ne _ (Ne.symm heq)) rfl (.refl _)
        (fun _ hnone => hnone) rfl
  | verb op => exact hwatched.verb op hclear
  | finish fault stamps => exact hwatched.finish fault stamps hclear
  | bind name socket wasBound now => exact hwatched.bind name socket wasBound now hclear
  | takeover name socket =>
    show Watched (if _ then _ else _) _ _ _
    split
    · rename_i hbound
      refine hwatched.calm rfl rfl (.refl _) ?_ rfl
      intro other hnone
      have hne : other ≠ name := by
        rintro rfl
        rw [Dict.contains, hnone] at hbound
        cases hbound
      exact (Dict.get?_set_ne _ _ hne.symm).trans hnone
    · exact hwatched.calm rfl rfl (.refl _) (fun _ hnone => hnone) rfl
  | drop name socket now =>
    show Watched (h.drop name socket now) _ _ _
    unfold Hub.drop
    split
    · exact hwatched.calm rfl rfl (.refl _) (get?_erase_none h.agentSockets name) rfl
    · exact hwatched.calm rfl rfl (.refl _) (fun _ hnone => hnone) rfl
  | revoke name =>
    exact hwatched.calm rfl rfl (.refl _) (get?_erase_none h.agentSockets name) rfl
  | view now => exact hwatched.calm rfl rfl (snapshot_sub h.state now) (fun _ hnone => hnone) rfl

/-! ## Runs -/

/-- What every reachable hub keeps. -/
structure Kept (h : Hub) : Prop where
  state : Filed h.state
  turn : ∀ turn, h.holder = some turn → Filed turn.candidate
  waiting : ∀ caller, h.nextCaller ≤ caller → h.waiting.get? caller = none
  holding : ∀ caller look s released, h.holder = some (.sweep caller look s released) →
    caller < h.nextCaller
  leased : ∀ op s task owner claim, h.holder = some (.verb op s true) →
    conveys op = some (task, owner) → s.claims.get? task = some claim → claim.owner = owner

omit [Builtins] in
/-- With the lock free nothing is asked of its holder. -/
theorem Kept.free {h : Hub} (hfree : h.holder = none) (hfiled : Filed h.state)
    (hwaiting : ∀ caller, h.nextCaller ≤ caller → h.waiting.get? caller = none) : Kept h where
  state := hfiled
  turn := by
    intro turn hsome
    rw [hfree] at hsome
    cases hsome
  waiting := hwaiting
  holding := by
    intro caller look s released hsome
    rw [hfree] at hsome
    cases hsome
  leased := by
    intro op s task owner claim hsome
    rw [hfree] at hsome
    cases hsome

omit [Builtins] in
/-- A step that leaves the lock and the numbering alone. -/
theorem Kept.calm {h h' : Hub} (hkept : Kept h) (hsub : h'.state.claims.Sub h.state.claims)
    (hholder : h'.holder = h.holder) (hnext : h'.nextCaller = h.nextCaller)
    (hwaiting : ∀ caller, h.waiting.get? caller = none → h'.waiting.get? caller = none) : Kept h' where
  state := hkept.state.of_sub hsub
  turn := fun turn hsome => hkept.turn turn (hholder ▸ hsome)
  waiting := fun caller hle => hwaiting caller (hkept.waiting caller (hnext ▸ hle))
  holding := fun caller look s released hsome => by
    rw [hnext]
    exact hkept.holding caller look s released (hholder ▸ hsome)
  leased := fun op s task owner claim hsome =>
    hkept.leased op s task owner claim (hholder ▸ hsome)

theorem Kept.enter {h : Hub} (hkept : Kept h) (caller : Nat) : Kept (h.enter caller) := by
  unfold Hub.enter
  split
  · rename_i noted hfree hnoted
    have hsub := releaseAbandoned_sub (abandonedClaims h.state h.claimHolders noted.online noted.now)
      h.state
    have hbelow : caller < h.nextCaller := by
      by_contra hle
      rw [hkept.waiting caller (Nat.le_of_not_lt hle)] at hnoted
      cases hnoted
    have hwaiting : ∀ other, h.nextCaller ≤ other → (h.waiting.erase caller).get? other = none :=
      fun other hle => get?_erase_none _ _ _ (hkept.waiting other hle)
    dsimp only
    split
    · refine ⟨hkept.state, ?_, hwaiting, ?_, ?_⟩
      · rintro turn ⟨rfl⟩
        exact hkept.state.of_sub hsub
      · rintro other look s released ⟨rfl⟩
        exact hbelow
      · intro op s task owner claim hsome
        cases hsome
    · exact .free hfree (hkept.state.of_sub hsub) hwaiting
  · exact hkept

theorem Kept.verb {h : Hub} (hkept : Kept h) (op : StateOp) : Kept (h.verb op) := by
  unfold Hub.verb
  split
  · exact hkept
  · rename_i hfree
    dsimp only
    split
    · refine ⟨hkept.state, ?_, hkept.waiting, ?_, ?_⟩
      · rintro turn ⟨rfl⟩
        exact hkept.state.apply op
      · intro other look s released hsome
        cases hsome
      · intro op' s task owner claim hsome hconveys hc
        obtain ⟨rfl, rfl, hok⟩ := Turn.verb.inj (Option.some.inj hsome)
        rcases claim_owner (op.apply_step h.state) hc with ⟨-, hleased⟩ | ⟨c, -, -, hother⟩
        · rw [hconveys] at hleased
          exact (Prod.mk.inj (Option.some.inj hleased)).2.symm
        · exact absurd hconveys (hother hok owner)
    · exact .free hfree (hkept.state.apply op) hkept.waiting

omit [Builtins] in
theorem Kept.finish {h : Hub} (hkept : Kept h) (fault : Option Nat) (stamps : Nat → Float) :
    Kept (h.finish fault stamps) := by
  unfold Hub.finish
  split
  · exact hkept
  · rename_i turn hheld
    cases fault with
    | some stored => exact .free rfl hkept.state hkept.waiting
    | none => exact .free rfl (hkept.turn turn hheld) hkept.waiting

omit [Builtins] in
theorem Kept.look {h : Hub} (hkept : Kept h) (now : Float) : Kept (h.look now) := by
  have hholding : ∀ caller look s released, h.holder = some (.sweep caller look s released) →
      caller < h.nextCaller + 1 :=
    fun caller look s released hsome => Nat.lt_succ_of_lt (hkept.holding caller look s released hsome)
  have hlater : ∀ caller, h.nextCaller + 1 ≤ caller → h.waiting.get? caller = none :=
    fun caller hle => hkept.waiting caller (Nat.le_of_succ_le hle)
  unfold Hub.look
  dsimp only
  split
  · exact ⟨hkept.state, hkept.turn, hlater, hholding, hkept.leased⟩
  · refine ⟨hkept.state, hkept.turn, fun caller hle => ?_, hholding, hkept.leased⟩
    exact (Dict.get?_set_ne _ _ (Nat.ne_of_lt hle)).trans (hlater caller hle)

theorem Kept.step {h : Hub} (hkept : Kept h) (op : Op) : Kept (h.step op) := by
  cases op with
  | look now => exact hkept.look now
  | enter caller => exact hkept.enter caller
  | abandon caller =>
    exact hkept.calm (.refl _) rfl rfl (get?_erase_none h.waiting caller)
  | verb op => exact hkept.verb op
  | finish fault stamps => exact hkept.finish fault stamps
  | bind name socket wasBound now =>
    show Kept (h.bind name socket wasBound now)
    unfold Hub.bind
    split
    · exact hkept
    · exact hkept.calm (h.state.heartbeat_claims_sub name now) rfl rfl fun _ hnone => hnone
  | takeover name socket =>
    show Kept (if _ then _ else _)
    split
    · exact hkept.calm (.refl _) rfl rfl fun _ hnone => hnone
    · exact hkept
  | drop name socket now =>
    show Kept (h.drop name socket now)
    unfold Hub.drop
    split
    · exact hkept.calm (.refl _) rfl rfl fun _ hnone => hnone
    · exact hkept
  | revoke name => exact hkept.calm (.refl _) rfl rfl fun _ hnone => hnone
  | view now => exact hkept.calm (snapshot_sub h.state now) rfl rfl fun _ hnone => hnone

theorem nextCaller_le (h : Hub) (op : Op) : h.nextCaller ≤ (h.step op).nextCaller := by
  cases op with
  | look now =>
    show _ ≤ (h.look now).nextCaller
    unfold Hub.look
    dsimp only
    split <;> exact Nat.le_succ _
  | enter caller =>
    show _ ≤ (h.enter caller).nextCaller
    unfold Hub.enter
    split
    · dsimp only
      split <;> exact Nat.le_refl _
    · exact Nat.le_refl _
  | verb op =>
    show _ ≤ (h.verb op).nextCaller
    unfold Hub.verb
    split
    · exact Nat.le_refl _
    · dsimp only
      split <;> exact Nat.le_refl _
  | finish fault stamps =>
    show _ ≤ (h.finish fault stamps).nextCaller
    unfold Hub.finish
    split
    · exact Nat.le_refl _
    · cases fault <;> exact Nat.le_refl _
  | bind name socket wasBound now =>
    show _ ≤ (h.bind name socket wasBound now).nextCaller
    unfold Hub.bind
    split <;> exact Nat.le_refl _
  | takeover name socket =>
    show _ ≤ (if _ then _ else _ : Hub).nextCaller
    split <;> exact Nat.le_refl _
  | drop name socket now =>
    show _ ≤ (h.drop name socket now).nextCaller
    unfold Hub.drop
    split <;> exact Nat.le_refl _
  | abandon caller => exact Nat.le_refl _
  | revoke name => exact Nat.le_refl _
  | view now => exact Nat.le_refl _

/-- What a sweep finds when it looks. -/
theorem watched_look {h : Hub} (hkept : Kept h) (now : Float) :
    Watched (h.look now) h.nextCaller ⟨h.agentSockets.keys, now⟩ [] := by
  have hfresh := hkept.waiting h.nextCaller (Nat.le_refl _)
  have hout : Outside h h.nextCaller := fun look s released hsome =>
    absurd (hkept.holding h.nextCaller look s released hsome) (Nat.lt_irrefl _)
  have habsent : ∀ {h' : Hub} (task owner : String), h'.agentSockets = h.agentSockets →
      Absent h' ⟨h.agentSockets.keys, now⟩ [] task owner := by
    intro h' task owner hsame haway
    rw [hsame]
    refine ⟨?_, by simp⟩
    by_contra hbound
    exact haway ((Dict.mem_keys_iff _ _).mpr hbound)
  unfold Hub.look
  dsimp only
  split
  · exact .ended hfresh hout
  · refine .waits (Dict.get?_set_self _ _ _) hout (fun task claim _ => habsent _ _ rfl) ?_
    intro turn hsome task claim hc
    by_cases hleased : ∃ op s, turn = .verb op s true ∧ conveys op = some (task, claim.owner)
    · exact .inl hleased
    · refine .inr ⟨?_, habsent _ _ rfl⟩
      rintro op s owner rfl hconveys
      have howner := hkept.leased op s task owner claim hsome hconveys hc
      exact hleased ⟨op, s, rfl, howner ▸ hconveys⟩

/-- What a sweep finds when its turn has come, however long it waited. -/
theorem watched_run {h : Hub} (hkept : Kept h) (now : Float) {after : List Op}
    (hclear : Trace.Every Hub.step Clear (h.look now) after) :
    Watched ((h.look now).run after) h.nextCaller ⟨h.agentSockets.keys, now⟩
        (Trace.trace Hub.step (h.look now) after) ∧
      Kept ((h.look now).run after) ∧ h.nextCaller < ((h.look now).run after).nextCaller := by
  induction after using List.reverseRecOn with
  | nil =>
    refine ⟨watched_look hkept now, hkept.look now, ?_⟩
    show _ < (h.look now).nextCaller
    unfold Hub.look
    dsimp only
    split <;> exact Nat.lt_succ_self _
  | append_singleton after op ih =>
    obtain ⟨hwatched, hk, hfresh⟩ := ih (hclear.of_prefix _ (List.prefix_append _ _))
    have hop : Clear ((h.look now).run after) op :=
      (Trace.every_iff _).mp hclear after op (List.prefix_refl _)
    unfold Hub.run at *
    rw [Trace.run_append, Trace.trace_append]
    exact ⟨hwatched.step hfresh hk.state hop, hk.step op,
      Nat.lt_of_lt_of_le hfresh (nextCaller_le _ op)⟩

/-- The removal a sweep commits. -/
theorem Watched.removes {h : Hub} {caller : Nat} {look : Look} {calls : List (Hub × Op)}
    (hwatched : Watched h caller look calls) (hfiled : Filed h.state) {op : Op}
    (hpublishes : h.publishes op = some caller) {task : String} {claim : TaskClaim}
    (hremoves : h.Removes op task claim) :
    h.agentSockets.get? claim.owner = none ∧ ∀ call ∈ calls, ¬ Grants task call := by
  obtain ⟨hheld, hgone⟩ := hremoves
  have haway : Quiet h look calls → claim.owner ∉ look.online → _ :=
    fun hstate => hstate task claim hheld
  cases op with
  | enter other =>
    simp only [Hub.publishes] at hpublishes
    split_ifs at hpublishes with hturn
    simp only [Bool.and_eq_true, Option.isNone_iff_eq_none, Bool.not_eq_true'] at hturn
    obtain ⟨⟨hfree, hjournal⟩, hwaits⟩ := hturn
    cases hpublishes
    cases hwatched with
    | waits hwait _ hstate _ =>
      refine haway hstate ?_
      rcases release_spares hfiled h.claimHolders look hheld with hkept | hoffline
      · simp only [Hub.step, Hub.enter, hfree, hwait, hjournal] at hgone
        rw [if_neg (by simp), hkept] at hgone
        cases hgone
      · exact hoffline
    | holds hheld =>
      rw [hfree] at hheld
      cases hheld
    | ended hwait _ =>
      rw [hwait] at hwaits
      cases hwaits
  | finish fault stamps =>
    cases fault with
    | some stored => cases hpublishes
    | none =>
      simp only [Hub.publishes] at hpublishes
      split at hpublishes
      · rename_i other look' s released hholder
        cases hpublishes
        cases hwatched with
        | waits _ hout => exact absurd hholder (hout look' s released)
        | holds hholder' _ hstate hspared =>
          obtain ⟨-, rfl, rfl, rfl⟩ := Turn.sweep.inj (Option.some.inj (hholder.symm.trans hholder'))
          refine haway hstate ?_
          rcases hspared task claim hheld with hkept | hoffline
          · simp only [Hub.step, Hub.finish, hholder, Turn.candidate] at hgone
            rw [hkept] at hgone
            cases hgone
          · exact hoffline
        | ended _ hout => exact absurd hholder (hout look' s released)
      · cases hpublishes
  | _ => cases hpublishes

section

omit [Builtins]

theorem recordRelease_events (store : EventStore) (ts : Float) (taskId : String) :
    (recordRelease store ts taskId).events =
      store.events ++ [⟨store.lastSeq + 1, ts, EventKind.release, [("task_id", .str taskId)]⟩] := by
  unfold recordRelease EventStore.insertEnrolled EventStore.insertEvent
  dsimp only
  split <;> rfl

/-- The rows of a sweep come after the others. -/
theorem persistReleases_events (items : List (AbandonedRelease × Nat)) (stamps : Nat → Float)
    (store : EventStore) :
    store.events <+: (items.foldl
      (fun s item => recordRelease s (stamps item.2) item.1.taskId) store).events := by
  induction items generalizing store with
  | nil => exact List.prefix_refl _
  | cons item rest ih =>
    refine List.IsPrefix.trans ?_ (ih _)
    rw [recordRelease_events]
    exact List.prefix_append _ _

/-- A sweep that fails publishes nothing. -/
theorem step_failed {h : Hub} {stored : Nat} {stamps : Nat → Float} {caller : Nat} {look : Look}
    {candidate : SynapseState} {released : List AbandonedRelease}
    (hheld : h.holder = some (.sweep caller look candidate released)) :
    h.finish (some stored) stamps = { h with
      holder := none
      store := persistReleases h.store stamps (released.take stored) } := by
  simp only [Hub.finish, hheld, Hub.appended]

end

/-- A sweep that fails agrees with its journal exactly when it stored no
row. -/
theorem rows_iff {h : Hub} {stored : Nat} {stamps : Nat → Float} {caller : Nat} {look : Look}
    {candidate : SynapseState} {released : List AbandonedRelease}
    (hheld : h.holder = some (.sweep caller look candidate released)) :
    (∀ task, (∃ claim, h.Removes (.finish (some stored) stamps) task claim) ↔
      h.Journals (.finish (some stored) stamps) task) ↔ stored = 0 ∨ released = [] := by
  have hstep : h.step (.finish (some stored) stamps) = { h with
      holder := none
      store := persistReleases h.store stamps (released.take stored) } := step_failed hheld
  have hremoves : ∀ task claim, ¬ h.Removes (.finish (some stored) stamps) task claim := by
    rintro task claim ⟨hc, hgone⟩
    rw [hstep] at hgone
    rw [show h.state.claims.get? task = none from hgone] at hc
    cases hc
  constructor
  · intro hrows
    by_contra hsome
    rw [not_or] at hsome
    obtain ⟨n, rfl⟩ := Nat.exists_eq_succ_of_ne_zero hsome.1
    obtain ⟨item, rest, rfl⟩ := List.exists_cons_of_ne_nil hsome.2
    -- the first row is in the journal
    have hjournals : h.Journals (.finish (some (n + 1)) stamps) item.taskId := by
      have hlater := persistReleases_events ((rest.take n).zipIdx 1) stamps
        (recordRelease h.store (stamps 0) item.taskId)
      rw [recordRelease_events] at hlater
      obtain ⟨rows, hrowsEq⟩ := hlater
      refine ⟨⟨h.store.lastSeq + 1, stamps 0, EventKind.release, [("task_id", .str item.taskId)]⟩, ?_,
        rfl, rfl⟩
      rw [hstep]
      show _ ∈ (List.foldl _ _ _ : EventStore).events.drop _
      rw [List.take_succ_cons, List.zipIdx_cons, List.foldl_cons, ← hrowsEq, List.append_assoc,
        List.drop_left]
      exact List.mem_cons_self
    obtain ⟨claim, hclaim⟩ := (hrows item.taskId).mpr hjournals
    exact hremoves _ _ hclaim
  · intro hnone task
    have htake : released.take stored = [] := by
      rcases hnone with rfl | rfl
      · rfl
      · exact List.take_nil
    refine iff_of_false (fun ⟨claim, hclaim⟩ => hremoves task claim hclaim) ?_
    rintro ⟨event, hevent, -⟩
    rw [hstep, htake] at hevent
    have hnone : event ∈ h.store.events.drop h.store.events.length := hevent
    rw [List.drop_length] at hnone
    cases hnone

/-- The holder of a claim that a sparing sweep removes is away. -/
theorem Spares.away {h : Hub} {before after : List Op} {now : Float} {op : Op}
    (hspares : Spares h (before ++ .look now :: after ++ [op]))
    (hpublishes : (h.run (before ++ .look now :: after)).publishes op =
      some (h.run before).nextCaller) (task owner : String)
    (howner : ((h.run (before ++ .look now :: after)).state.claims.get? task).map TaskClaim.owner =
      some owner)
    (hgone : (((h.run (before ++ .look now :: after)).step op).state.claims.get? task).isNone = true) :
    (h.run (before ++ .look now :: after)).agentSockets.get? owner = none := by
  obtain ⟨claim, hclaim, rfl⟩ := Option.map_eq_some_iff.mp howner
  exact (hspares.living before now after op (List.prefix_refl _) hpublishes task claim
    ⟨hclaim, Option.isNone_iff_eq_none.mp hgone⟩).1

theorem Spares.failed {h : Hub} {ops : List Op} {stored : Nat} {stamps : Nat → Float}
    (hspares : Spares h (ops ++ [.finish (some stored) stamps])) {caller : Nat} {look : Look}
    {candidate : SynapseState} {released : List AbandonedRelease}
    (hheld : (h.run ops).holder = some (.sweep caller look candidate released)) :
    stored = 0 ∨ released = [] :=
  (rows_iff hheld).mp fun task =>
    hspares.rows ops stored stamps caller look candidate released (List.prefix_refl _) hheld task

/-- As long as nobody a waiting sweep noted as away is bound while holding
a claim or leases one, and no sweep fails past its first row, a sweep spares
the living, and its removals are those in the journal. -/
theorem abandoned_release_spares {h : Hub} (hfiled : Filed h.state) (hfree : h.holder = none)
    (hnobody : h.waiting = .empty) (ops : List Op) (hclear : Trace.Every Hub.step Clear h ops) :
    Spares h ops := by
  have hkept : Kept h := .free hfree hfiled fun caller _ => by rw [hnobody]; rfl
  have hrun : ∀ ops, Kept (h.run ops) := Trace.invariant Hub.step (fun _ op hk => hk.step op) hkept
  constructor
  · intro before now after op hpre hpublishes task claim hremoves
    have hsplit : ∀ later, h.run (before ++ .look now :: later) =
        ((h.run before).look now).run later := by
      intro later
      unfold Hub.run
      rw [Trace.run_eq_foldl, Trace.run_eq_foldl, Trace.run_eq_foldl, List.foldl_append]
      rfl
    have hafter : Trace.Every Hub.step Clear ((h.run before).look now) after := by
      rw [Trace.every_iff] at hclear ⊢
      intro pre i hbegun
      have hclearOne := hclear (before ++ .look now :: pre) i ?_
      · rw [show Trace.run Hub.step h (before ++ .look now :: pre) = _ from hsplit pre] at hclearOne
        exact hclearOne
      · obtain ⟨rest, rfl⟩ := hbegun
        refine List.IsPrefix.trans ⟨rest ++ [op], ?_⟩ hpre
        simp
    obtain ⟨hwatched, hk, -⟩ := watched_run (hrun before) now hafter
    rw [hsplit] at hpublishes hremoves ⊢
    exact hwatched.removes hk.state hpublishes hremoves
  · intro before stored stamps caller look candidate released hpre hheld task
    have hop := (Trace.every_iff _).mp hclear before _ hpre
    exact (rows_iff hheld).mpr (hop.2 stored stamps caller look candidate released rfl hheld) task

/-- A hub with a journal, started at `0` with a window of 300 seconds. -/
def boot : Hub where
  journal := true
  claimHolders := { startedAt := 0, window := 300 }
  state := SynapseState.init .null .null .null .null

def Op.binds : Op → Bool
  | .bind .. => true
  | _ => false

def Op.fails : Op → Bool
  | .finish (some _) _ => true
  | _ => false

/-- A step while no sweep waits, or one that binds and leases nothing. -/
def still (h : Hub) (op : Op) : Bool :=
  (h.waiting.items.isEmpty || ((h.commits op).isNone && !op.binds)) && !op.fails

theorem clear_of_still {h : Hub} {op : Op} (hstill : still h op = true) : Clear h op := by
  simp only [still, Bool.and_eq_true, Bool.or_eq_true, Bool.not_eq_true', List.isEmpty_iff,
    Option.isNone_iff_eq_none] at hstill
  obtain ⟨hcalm, hfault⟩ := hstill
  constructor
  · intro caller look hwait
    rcases hcalm with hnobody | ⟨hcommits, hbind⟩
    · rw [Dict.get?, hnobody] at hwait
      cases hwait
    · constructor
      · rintro name socket wasBound now rfl
        cases hbind
      · intro verb task owner hverb
        rw [hcommits] at hverb
        cases hverb
  · rintro stored stamps caller look candidate released rfl
    cases hfault

/-- `A` leaves a claim and stays away; `B`'s attempt releases it. -/
def soundSweep : List Op :=
  [.bind "A" 1 false 1000, .verb (.claim "A" "T1" 1000 { worktree := "w1" }), .finish none fun _ => 1000,
    .drop "A" 1 10, .bind "B" 2 false 1100, .look 400, .enter 0, .finish none fun _ => 1400]

omit [Builtins] in
theorem abandoned_release_spares_sound :
    letI : Builtins := Builtins.ascii
    Spares boot soundSweep ∧ (boot.run soundSweep).state.claims.items.isEmpty = true := by
  let _ : Builtins := Builtins.ascii
  constructor
  · refine abandoned_release_spares (fun task claim hc => by cases hc) rfl rfl soundSweep ?_
    exact Trace.Every.imp Hub.step (P := fun h op => still h op = true) (fun h op => clear_of_still)
      (by decide +kernel)
  · decide +kernel

/-- `A` claims and leaves; while `C`'s claim is appended, `B`'s attempt looks
and waits, and `A` comes back before its turn. -/
def lateSweep : List Op :=
  [.bind "A" 1 false 1000, .verb (.claim "A" "T1" 1000 { worktree := "w1" }), .finish none fun _ => 1000,
    .drop "A" 1 10, .bind "B" 2 false 1100, .bind "C" 3 false 1100,
    .verb (.claim "C" "T2" 1400 { worktree := "w2" })]

def lateReturn : List Op :=
  [.finish none fun _ => 1400, .bind "A" 4 false 1400, .enter 0]

/-- `A` leaves two claims; storing the second release fails. -/
def tornSweep : List Op :=
  [.bind "A" 1 false 1000, .verb (.claim "A" "T1" 1000 { worktree := "w1" }), .finish none fun _ => 1000,
    .verb (.claim "A" "T2" 1000 { worktree := "w2" }), .finish none fun _ => 1000,
    .drop "A" 1 10, .bind "B" 2 false 1100, .look 400, .enter 0]

omit [Builtins] in
theorem returned_holder_loses_claim :
    letI : Builtins := Builtins.ascii
    ¬ Spares boot (lateSweep ++ .look 400 :: lateReturn ++ [.finish none fun _ => 1400]) ∧
      ¬ Spares boot (tornSweep ++ [.finish (some 1) fun _ => 1400]) := by
  let _ : Builtins := Builtins.ascii
  constructor
  · intro h
    have haway := h.away (by decide +kernel) "T1" "A" (by decide +kernel) (by decide +kernel)
    revert haway
    decide +kernel
  · intro h
    have hheld : (match (boot.run tornSweep).holder with
        | some (.sweep _ _ _ released) => released.length
        | _ => 0) = 2 := by decide +kernel
    cases hholder : (boot.run tornSweep).holder with
    | none =>
      rw [hholder] at hheld
      cases hheld
    | some turn =>
      cases turn with
      | verb op s granted =>
        rw [hholder] at hheld
        cases hheld
      | sweep caller look s released =>
        rw [hholder] at hheld
        rcases h.failed hholder with hzero | hnil
        · cases hzero
        · rw [hnil] at hheld
          cases hheld

end SynapseChannel.ClaimHolders
