import SynapseChannel.Lib.Trace
import SynapseChannel.Core.OperationCommit

/-!
# Core — StateTransaction

The actor that serializes durable state transitions. A caller waits for
the lock, mutates a private copy, and waits for its append; the event
loop may run other callers' steps at both waits, and a caller may be
cancelled at either. Another process may commit to the same store at any
time.
-/

namespace SynapseChannel

open Py

/-- A transition: the subject after it, and its result or what it
raised. -/
abbrev Mutation (σ ρ : Type) := σ → σ × Except Raised ρ

/-- The arguments of one keyed mutation. -/
structure AtomicArgs (σ ρ : Type) where
  key : String
  requestDigest : String
  mutate : Mutation σ ρ
  prepare : ρ → Except Raised (Option OperationDraft)
  conflict : OperationRecord → Members
  persistUncommitted : Bool := false
  allowLegacyDigestlessReplay : Bool := false
  requireCommittedResponse : Bool := false

/-- A request of the actor. -/
inductive ActorRequest (σ ρ : Type) where
  /-- `persist`: the transition has a journal append. -/
  | run (mutate : Mutation σ ρ) (persist : Bool)
  | atomic (args : AtomicArgs σ ρ)

/-- The append a lock holder waits for. -/
inductive Append (σ ρ : Type) where
  | persist
  | persistUncommitted
  | commit (args : AtomicArgs σ ρ) (draft : OperationDraft)

/-- The lock holder between its append's submission and its own
resumption. -/
structure InFlight (σ ρ : Type) where
  caller : Nat
  /-- The operation key of the request, if it has one. -/
  key : Option String
  mutate : Mutation σ ρ
  candidate : σ
  result : ρ
  append : Append σ ρ
  /-- What the worker returned or raised; a commit returns its result. -/
  outcome : Option (Except Raised (Option OperationCommitResult)) := none
  cancelled : Bool := false

/-- The actor, the live subject under it, and the store behind it. -/
structure Actor (σ ρ : Type) where
  subject : σ
  cache : IdempotencyCache
  store : EventStore
  nextCaller : Nat := 0
  waiting : Dict Nat (ActorRequest σ ρ) := Dict.empty
  holder : Option (InFlight σ ρ) := none

def OperationCommitResult.operation : OperationCommitResult → StoredOperation
  | .inserted stored => stored
  | .replayed stored => stored
  | .conflict stored => stored

/-- What a caller gets. -/
inductive ActorReply (ρ : Type) where
  | raised (failure : Raised)
  | returned (result : ρ)
  | executed (execution : AtomicExecution ρ)

/-- What a publication rests on: nothing durable, a journal append, or a
committed operation. -/
inductive Ground where
  | volatile
  | appended
  | committed (stored : StoredOperation)

/-- A mutation of a caller, with what it rests on. -/
structure Publication (σ ρ : Type) where
  caller : Nat
  key : Option String
  mutate : Mutation σ ρ
  ground : Ground

namespace Publication

variable {σ ρ : Type}

/-- The mutation rests on a journal append or a committed operation. -/
def durable (p : Publication σ ρ) : Bool :=
  match p.ground with
  | .volatile => false
  | .appended => true
  | .committed _ => true

/-- The operation the mutation was committed with. -/
def operation (p : Publication σ ρ) : Option StoredOperation :=
  match p.ground with
  | .committed stored => some stored
  | _ => none

end Publication

/-- A step's outcome: the actor after it, the answer it gives a caller,
and what it published, made durable, or failed to make durable. -/
structure ActorStep (σ ρ : Type) where
  actor : Actor σ ρ
  reply : Option (Nat × ActorReply ρ) := none
  published : Option (Publication σ ρ) := none
  persisted : Option (Publication σ ρ) := none
  failed : Option Nat := none

/-- The steps of the actor. -/
inductive ActorOp (σ ρ : Type) where
  | call (request : ActorRequest σ ρ)
  /-- The caller is cancelled while it waits for the lock. -/
  | abandon (caller : Nat)
  /-- The caller gets the free lock; `refusal` is what `authorize` or the
  lookup raises. -/
  | enter (caller : Nat) (refusal : Option Raised)
  /-- The worker thread of the holder's append ends. -/
  | worker (fault : Option Raised) (stamp : Float)
  /-- The holder is cancelled while it waits for its append. -/
  | cancel
  /-- The holder resumes after its append. -/
  | resume
  /-- Another process attempts a commit on the same store. -/
  | foreign (key digest : String) (draft : OperationDraft) (stamp : Float)
      (fault : Option Raised)

namespace Actor

variable {σ ρ : Type}

/-- `run_subject` under the lock, up to its append if it has one. -/
def enterRun (a : Actor σ ρ) (caller : Nat) (mutate : Mutation σ ρ) (persist : Bool) :
    ActorStep σ ρ :=
  if persist then
    match mutate a.subject with
    | (_, .error failure) => { actor := a, reply := some (caller, .raised failure) }
    | (candidate, .ok result) =>
      { actor :=
          { a with
            holder := some { caller, key := none, mutate, candidate, result, append := .persist } } }
  else
    -- a live transition that raises midway leaves what it did
    { actor := { a with subject := (mutate a.subject).1 }
      reply := some (caller,
        match (mutate a.subject).2 with
        | .error failure => .raised failure
        | .ok result => .returned result)
      published := some ⟨caller, none, mutate, .volatile⟩ }

/-- The answer to a key that has a record. -/
def replayExisting (args : AtomicArgs σ ρ) (existing : OperationRecord) : AtomicExecution ρ :=
  if existing.requestDigest = some args.requestDigest ∨
      (existing.requestDigest = none ∧ args.allowLegacyDigestlessReplay) then
    .replayed existing.response
  else .conflict (args.conflict existing)

/-- The first transition of a key, up to its append if it has one. -/
def enterFresh (a : Actor σ ρ) (caller : Nat) (args : AtomicArgs σ ρ) : ActorStep σ ρ :=
  match args.mutate a.subject with
  | (_, .error failure) => { actor := a, reply := some (caller, .raised failure) }
  | (candidate, .ok result) =>
    let waitFor (append : Append σ ρ) : ActorStep σ ρ :=
      { actor :=
          { a with
            holder := some
              { caller, key := some args.key, mutate := args.mutate, candidate, result, append } } }
    match args.prepare result with
    | .error failure => { actor := a, reply := some (caller, .raised failure) }
    | .ok (some draft) => waitFor (.commit args draft)
    | .ok none =>
      if args.requireCommittedResponse then
        { actor := a
          reply := some
            (caller, .raised (.error "this operation requires a durable response draft")) }
      else if args.persistUncommitted then waitFor .persistUncommitted
      else
        { actor := { a with subject := candidate }
          reply := some (caller, .executed (.uncommitted result))
          published := some ⟨caller, some args.key, args.mutate, .volatile⟩ }

/-- `run_atomic` under the lock. -/
def enterAtomic (a : Actor σ ρ) (caller : Nat) (args : AtomicArgs σ ρ) (refusal : Option Raised) :
    ActorStep σ ρ :=
  match refusal with
  | some failure => { actor := a, reply := some (caller, .raised failure) }
  | none =>
    match lookupOperation a.cache a.store args.key with
    | (cache, some existing) =>
      { actor := { a with cache }
        reply := some (caller, .executed (replayExisting args existing)) }
    | (cache, none) => enterFresh { a with cache } caller args

/-- The caller gets the lock, if it waits and the lock is free. -/
def enter (a : Actor σ ρ) (caller : Nat) (refusal : Option Raised) : ActorStep σ ρ :=
  match a.holder, a.waiting.get? caller with
  | none, some request =>
    let a := { a with waiting := a.waiting.erase caller }
    match request with
    | .run mutate persist => a.enterRun caller mutate persist
    | .atomic args => a.enterAtomic caller args refusal
  | _, _ => { actor := a }

/-- What the end of an append makes durable of the holder's mutation. -/
def earned (f : InFlight σ ρ) :
    Except Raised (Option OperationCommitResult) → Option (Publication σ ρ)
  | .ok none => some ⟨f.caller, f.key, f.mutate, .appended⟩
  | .ok (some (.inserted stored)) => some ⟨f.caller, f.key, f.mutate, .committed stored⟩
  | _ => none

/-- Run an append to its end; the rows of a `persist` are its own. -/
def runAppend (store : EventStore) (append : Append σ ρ) (fault : Option Raised) (stamp : Float) :
    EventStore × Except Raised (Option OperationCommitResult) :=
  match append with
  | .commit args draft =>
    let committed := commitOperation store args.key args.requestDigest draft stamp fault
    (committed.1, committed.2.map some)
  | _ =>
    (store,
      match fault with
      | some failure => .error failure
      | none => .ok none)

/-- The worker ends the holder's append. -/
def work (a : Actor σ ρ) (f : InFlight σ ρ) (fault : Option Raised) (stamp : Float) :
    ActorStep σ ρ :=
  let done := runAppend a.store f.append fault stamp
  { actor := { a with store := done.1, holder := some { f with outcome := some done.2 } }
    persisted := earned f done.2
    failed :=
      match done.2 with
      | .error _ => some f.caller
      | .ok _ => none }

/-- Answer a caller, or raise the cancellation that arrived while its
append was drained. -/
def answer (f : InFlight σ ρ) (reply : ActorReply ρ) : Option (Nat × ActorReply ρ) :=
  some (f.caller, if f.cancelled then .raised .cancelled else reply)

/-- The rest of a request after its append, lock released in any case. -/
def finish (a : Actor σ ρ) (f : InFlight σ ρ)
    (outcome : Except Raised (Option OperationCommitResult)) : ActorStep σ ρ :=
  let a := { a with holder := none }
  match outcome with
  | .error failure => { actor := a, reply := some (f.caller, .raised failure) }
  | .ok none =>
    { actor := { a with subject := f.candidate }
      reply := answer f
        (match f.append with
          | .persist => .returned f.result
          | _ => .executed (.uncommitted f.result))
      published := earned f (.ok none) }
  | .ok (some (.inserted stored)) =>
    { actor := { a with subject := f.candidate, cache := a.cache.put stored.record }
      reply := answer f (.executed (.inserted f.result stored.response))
      published := earned f (.ok (some (.inserted stored))) }
  | .ok (some (.replayed stored)) =>
    { actor := { a with cache := a.cache.put stored.record }
      reply := answer f (.executed (.replayed stored.response)) }
  | .ok (some (.conflict stored)) =>
    { actor := { a with cache := a.cache.put stored.record }
      reply := answer f (.executed (.conflict
        -- only a commit has a result
        (match f.append with
          | .commit args _ => args.conflict stored.record
          | _ => []))) }

/-- One step of the actor. -/
def apply (a : Actor σ ρ) : ActorOp σ ρ → ActorStep σ ρ
  | .call request =>
    { actor :=
        { a with waiting := a.waiting.set a.nextCaller request, nextCaller := a.nextCaller + 1 } }
  | .abandon caller =>
    match a.waiting.get? caller with
    | none => { actor := a }
    | some _ =>
      { actor := { a with waiting := a.waiting.erase caller }
        reply := some (caller, .raised .cancelled) }
  | .enter caller refusal => a.enter caller refusal
  | .worker fault stamp =>
    match a.holder with
    | none => { actor := a }
    | some f => if f.outcome.isSome then { actor := a } else a.work f fault stamp
  | .cancel =>
    match a.holder with
    | none => { actor := a }
    | some f => { actor := { a with holder := some { f with cancelled := true } } }
  | .resume =>
    match a.holder with
    | none => { actor := a }
    | some f =>
      match f.outcome with
      | none => { actor := a }
      | some outcome => a.finish f outcome
  | .foreign key digest draft stamp fault =>
    { actor := { a with store := (commitOperation a.store key digest draft stamp fault).1 } }

/-- The actor after one step. -/
def next (a : Actor σ ρ) (op : ActorOp σ ρ) : Actor σ ρ := (a.apply op).actor

/-- The actor after a sequence of steps. -/
def run (a : Actor σ ρ) (ops : List (ActorOp σ ρ)) : Actor σ ρ := Trace.run next a ops

/-- An actor before any call, over a subject, a cache and a store. -/
def start (subject : σ) (cache : IdempotencyCache) (store : EventStore) : Actor σ ρ where
  subject := subject
  cache := cache
  store := store

/-! ## What a step can do -/

/-- A cache none of whose records is new, or not the stored one. -/
def CacheKeeps (store : EventStore) (cache cache' : IdempotencyCache) : Prop :=
  ∀ key record, cache'.store.get? key = some record →
    cache.store.get? key = some record ∨
      ∃ stored, store.operations.get? key = some stored ∧ record = stored.record

theorem CacheKeeps.refl (store : EventStore) (cache : IdempotencyCache) :
    CacheKeeps store cache cache :=
  fun _ _ h => .inl h

/-- Remembering a stored operation. -/
theorem CacheKeeps.put {store : EventStore} (cache : IdempotencyCache) {stored : StoredOperation}
    (h : store.operations.get? stored.operationKey = some stored) :
    CacheKeeps store cache (cache.put stored.record) := by
  intro key record hrecord
  rcases IdempotencyCache.put_get? hrecord with ⟨hkey, rfl⟩ | ⟨-, hold⟩
  · exact .inr ⟨stored, hkey ▸ h, rfl⟩
  · exact .inl hold

theorem lookupOperation_cacheKeeps (cache : IdempotencyCache) (store : EventStore) (key : String) :
    CacheKeeps store cache (lookupOperation cache store key).1 := by
  have hsame := cache.getRecord_same key
  unfold lookupOperation
  generalize cache.getRecord key = found at hsame
  obtain ⟨moved, record⟩ := found
  cases record with
  | some record => exact fun k r hr => .inl ((hsame k).symm.trans hr)
  | none =>
    dsimp only
    cases hstored : store.operations.get? key with
    | none => exact fun k r hr => .inl ((hsame k).symm.trans hr)
    | some stored =>
      intro k r hr
      have hkey := store.keyed key stored hstored
      rcases CacheKeeps.put moved (hkey ▸ hstored) k r hr with hold | hnew
      · exact .inl ((hsame k).symm.trans hold)
      · exact .inr hnew

/-- The outcomes of one step. -/
inductive Transition (a : Actor σ ρ) : ActorStep σ ρ → Prop
  | idle : Transition a { actor := a }
  | called (request : ActorRequest σ ρ) :
      Transition a
        { actor :=
            { a with
              waiting := a.waiting.set a.nextCaller request
              nextCaller := a.nextCaller + 1 } }
  /-- A waiting caller leaves with an answer and no mutation. -/
  | left (caller : Nat) (reply : ActorReply ρ) (cache : IdempotencyCache)
      (hwaits : a.waiting.get? caller ≠ none) (hcache : CacheKeeps a.store a.cache cache) :
      Transition a
        { actor := { a with waiting := a.waiting.erase caller, cache }
          reply := some (caller, reply) }
  /-- A mutation without an append is published at once. -/
  | live (caller : Nat) (key : Option String) (mutate : Mutation σ ρ) (reply : ActorReply ρ)
      (cache : IdempotencyCache)
      (hwaits : a.waiting.get? caller ≠ none) (hcache : CacheKeeps a.store a.cache cache)
      (hfree : a.holder = none) :
      Transition a
        { actor :=
            { a with
              waiting := a.waiting.erase caller
              cache
              subject := (mutate a.subject).1 }
          reply := some (caller, reply)
          published := some ⟨caller, key, mutate, .volatile⟩ }
  | submitted (f : InFlight σ ρ) (cache : IdempotencyCache)
      (hwaits : a.waiting.get? f.caller ≠ none) (hcache : CacheKeeps a.store a.cache cache)
      (hfree : a.holder = none) (hcandidate : f.candidate = (f.mutate a.subject).1)
      (hpending : f.outcome = none) :
      Transition a
        { actor := { a with waiting := a.waiting.erase f.caller, cache, holder := some f } }
  | worked (f : InFlight σ ρ) (fault : Option Raised) (stamp : Float)
      (hholder : a.holder = some f) (hpending : f.outcome = none) :
      Transition a (a.work f fault stamp)
  | flagged (f : InFlight σ ρ) (hholder : a.holder = some f) :
      Transition a { actor := { a with holder := some { f with cancelled := true } } }
  | finished (f : InFlight σ ρ) (outcome : Except Raised (Option OperationCommitResult))
      (hholder : a.holder = some f) (hdone : f.outcome = some outcome) :
      Transition a (a.finish f outcome)
  | foreign (store : EventStore)
      (hgrows : a.store.operations.Sub store.operations) :
      Transition a { actor := { a with store } }

theorem commitOperation_sub (store : EventStore) (key digest : String) (draft : OperationDraft)
    (stamp : Float) (fault : Option Raised) :
    store.operations.Sub (commitOperation store key digest draft stamp fault).1.operations := by
  have hcommitted := commitOperation_committed store key digest draft stamp fault
  generalize commitOperation store key digest draft stamp fault = done at hcommitted
  cases hcommitted with
  | failed failure => exact Dict.Sub.refl _
  | replayed stored => exact Dict.Sub.refl _
  | conflict stored => exact Dict.Sub.refl _
  | inserted store' stored hnew hoperations =>
    intro k found hfound
    rw [hoperations, Dict.get?_set_ne]
    · exact hfound
    · rintro rfl
      rw [hnew] at hfound
      cases hfound

theorem enterRun_transition {a : Actor σ ρ} {caller : Nat} (mutate : Mutation σ ρ) (persist : Bool)
    (hwaits : a.waiting.get? caller ≠ none) (hfree : a.holder = none) :
    Transition a
      (enterRun { a with waiting := a.waiting.erase caller } caller mutate persist) := by
  unfold enterRun
  split
  · split
    · exact .left caller _ a.cache hwaits (.refl _ _)
    · rename_i candidate result hmutate
      exact .submitted { caller, key := none, mutate, candidate, result, append := .persist } a.cache
        hwaits (.refl _ _) hfree (congrArg Prod.fst hmutate).symm rfl
  · exact .live caller none mutate _ a.cache hwaits (.refl _ _) hfree

theorem enterFresh_transition {a : Actor σ ρ} {caller : Nat} (args : AtomicArgs σ ρ)
    {cache : IdempotencyCache} (hcache : CacheKeeps a.store a.cache cache)
    (hwaits : a.waiting.get? caller ≠ none) (hfree : a.holder = none) :
    Transition a
      (enterFresh { a with waiting := a.waiting.erase caller, cache } caller args) := by
  unfold enterFresh
  dsimp only
  split
  · exact .left caller _ cache hwaits hcache
  rename_i candidate result hmutate
  have hcandidate : candidate = (args.mutate a.subject).1 := (congrArg Prod.fst hmutate).symm
  have submitted (append : Append σ ρ) := Transition.submitted
    { caller, key := some args.key, mutate := args.mutate, candidate, result, append } cache hwaits
    hcache hfree hcandidate rfl
  split
  · exact .left caller _ cache hwaits hcache
  · exact submitted _
  · split
    · exact .left caller _ cache hwaits hcache
    · split
      · exact submitted _
      · rw [hcandidate]
        exact .live caller (some args.key) args.mutate _ cache hwaits hcache hfree

theorem enterAtomic_transition {a : Actor σ ρ} {caller : Nat} (args : AtomicArgs σ ρ)
    (refusal : Option Raised) (hwaits : a.waiting.get? caller ≠ none) (hfree : a.holder = none) :
    Transition a
      (enterAtomic { a with waiting := a.waiting.erase caller } caller args refusal) := by
  have hcache := lookupOperation_cacheKeeps a.cache a.store args.key
  unfold enterAtomic
  split
  · exact .left caller _ a.cache hwaits (.refl _ _)
  dsimp only
  generalize lookupOperation a.cache a.store args.key = found at hcache ⊢
  obtain ⟨cache, record⟩ := found
  cases record with
  | some existing => exact .left caller _ cache hwaits hcache
  | none => exact enterFresh_transition args hcache hwaits hfree

/-- Every step is one of the listed outcomes. -/
theorem apply_transition (a : Actor σ ρ) (op : ActorOp σ ρ) : Transition a (a.apply op) := by
  cases op with
  | call request => exact .called request
  | abandon caller =>
    unfold apply
    dsimp only
    split
    · exact .idle
    · rename_i request hrequest
      exact .left caller _ a.cache (by simp [hrequest]) (.refl _ _)
  | enter caller refusal =>
    unfold apply enter
    dsimp only
    split
    · rename_i request hfree hrequest
      have hwaits : a.waiting.get? caller ≠ none := by simp [hrequest]
      split
      · exact enterRun_transition _ _ hwaits hfree
      · exact enterAtomic_transition _ refusal hwaits hfree
    · exact .idle
  | worker fault stamp =>
    unfold apply
    dsimp only
    split
    · exact .idle
    · rename_i f hholder
      split
      · exact .idle
      · rename_i hpending
        exact .worked f fault stamp hholder (by simpa using hpending)
  | cancel =>
    unfold apply
    dsimp only
    split
    · exact .idle
    · rename_i f hholder
      exact .flagged f hholder
  | resume =>
    unfold apply
    dsimp only
    split
    · exact .idle
    · rename_i f hholder
      split
      · exact .idle
      · rename_i outcome hdone
        exact .finished f outcome hholder hdone
  | foreign key digest draft stamp fault =>
    exact .foreign _ (commitOperation_sub a.store key digest draft stamp fault)

/-! ## The subject and the journal -/

/-- What holds between any two steps: the private copy is the transition
of the live subject, and a commit's result is in the table. -/
structure Sound (a : Actor σ ρ) : Prop where
  candidate : ∀ f, a.holder = some f → f.candidate = (f.mutate a.subject).1
  result : ∀ f result, a.holder = some f → f.outcome = some (.ok (some result)) →
    a.store.operations.get? result.operation.operationKey = some result.operation

/-- The mutation that is durable and not yet published. -/
def pending (a : Actor σ ρ) : List (Publication σ ρ) :=
  match a.holder with
  | none => []
  | some f => (f.outcome.bind (earned f)).toList

theorem finish_published (a : Actor σ ρ) (f : InFlight σ ρ)
    (outcome : Except Raised (Option OperationCommitResult)) :
    (a.finish f outcome).published = earned f outcome := by
  unfold finish
  split <;> rfl

theorem finish_subject (a : Actor σ ρ) (f : InFlight σ ρ)
    (outcome : Except Raised (Option OperationCommitResult)) :
    (a.finish f outcome).actor.subject
      = if (earned f outcome).isSome then f.candidate else a.subject := by
  unfold finish
  split <;> rfl

theorem finish_holder (a : Actor σ ρ) (f : InFlight σ ρ)
    (outcome : Except Raised (Option OperationCommitResult)) :
    (a.finish f outcome).actor.holder = none := by
  unfold finish
  split <;> rfl

theorem finish_store (a : Actor σ ρ) (f : InFlight σ ρ)
    (outcome : Except Raised (Option OperationCommitResult)) :
    (a.finish f outcome).actor.store = a.store := by
  unfold finish
  split <;> rfl

theorem earned_mutate {f : InFlight σ ρ} {outcome : Except Raised (Option OperationCommitResult)}
    {p : Publication σ ρ} (h : earned f outcome = some p) :
    p.caller = f.caller ∧ p.mutate = f.mutate ∧ p.durable = true := by
  unfold earned at h
  split at h
  · cases h
    exact ⟨rfl, rfl, rfl⟩
  · cases h
    exact ⟨rfl, rfl, rfl⟩
  · cases h

/-- The subject changes by what a step publishes and by nothing else. -/
theorem Transition.subject {a : Actor σ ρ} {step : ActorStep σ ρ} (h : a.Sound)
    (t : Transition a step) :
    step.actor.subject = step.published.elim a.subject fun p => (p.mutate a.subject).1 := by
  cases t with
  | finished f outcome hholder hdone =>
    rw [finish_subject, finish_published]
    cases hearned : earned f outcome with
    | none => rfl
    | some p =>
      rw [Option.elim_some, (earned_mutate hearned).2.1]
      exact h.candidate f hholder
  | _ => rfl

/-- What becomes durable is published next, and nothing else durable
is. -/
theorem Transition.journal {a : Actor σ ρ} {step : ActorStep σ ρ} (t : Transition a step) :
    a.pending ++ step.persisted.toList
      = (step.published.filter Publication.durable).toList ++ step.actor.pending := by
  cases t with
  | idle => simp
  | called request => simp [pending]
  | left caller reply cache => simp [pending]
  | live caller key mutate reply cache hwaits hcache hfree =>
    simp [pending, hfree, Publication.durable]
  | submitted f cache hwaits hcache hfree hcandidate hpending => simp [pending, hfree, hpending]
  | worked f fault stamp hholder hpending =>
    simp only [pending, hholder, hpending, Option.bind_none, Option.toList_none, List.nil_append]
    rfl
  | flagged f hholder =>
    simp only [pending, hholder, Option.toList_none, List.append_nil, Option.filter_none,
      List.nil_append]
    rfl
  | finished f outcome hholder hdone =>
    have hpersisted : (a.finish f outcome).persisted = none := by
      unfold finish
      split <;> rfl
    rw [hpersisted, finish_published, pending, pending, finish_holder, hholder]
    simp only [hdone, Option.bind_some, Option.toList_none, List.append_nil]
    cases hearned : earned f outcome with
    | none => rfl
    | some p => rw [Option.filter_some, if_pos (earned_mutate hearned).2.2]
  | foreign store hgrows => simp [pending]

/-! ## The operation table -/

/-- No step forgets a stored operation. -/
theorem Transition.operations_sub {a : Actor σ ρ} {step : ActorStep σ ρ} (t : Transition a step) :
    a.store.operations.Sub step.actor.store.operations := by
  cases t with
  | worked f fault stamp =>
    unfold work runAppend
    dsimp only
    split
    · exact commitOperation_sub _ _ _ _ _ _
    · exact Dict.Sub.refl _
  | finished f outcome =>
    rw [finish_store]
    exact Dict.Sub.refl _
  | foreign store hgrows => exact hgrows
  | _ => exact Dict.Sub.refl _

/-- What an append that ended well holds of the table. -/
theorem runAppend_result {store : EventStore} {append : Append σ ρ} {fault : Option Raised}
    {stamp : Float} {result : OperationCommitResult}
    (h : (runAppend store append fault stamp).2 = .ok (some result)) :
    (runAppend store append fault stamp).1.operations.get? result.operation.operationKey
        = some result.operation ∧
      ∀ stored, result = .inserted stored → store.operations.get? stored.operationKey = none := by
  unfold runAppend at h ⊢
  cases append with
  | commit args draft =>
    dsimp only at h ⊢
    have hcommitted :=
      commitOperation_committed store args.key args.requestDigest draft stamp fault
    generalize commitOperation store args.key args.requestDigest draft stamp fault = done
      at hcommitted h ⊢
    cases hcommitted with
    | failed failure => cases h
    | replayed stored hstored =>
      cases h
      refine ⟨?_, by simp⟩
      rw [OperationCommitResult.operation, store.keyed _ _ hstored]
      exact hstored
    | conflict stored hstored =>
      cases h
      refine ⟨?_, by simp⟩
      rw [OperationCommitResult.operation, store.keyed _ _ hstored]
      exact hstored
    | inserted store' stored hnew hoperations hkey =>
      cases h
      refine ⟨?_, ?_⟩
      · rw [hoperations, OperationCommitResult.operation, hkey, Dict.get?_set_self]
      · rintro found hfound
        cases hfound
        rw [hkey]
        exact hnew
  | persist => cases fault <;> simp at h
  | persistUncommitted => cases fault <;> simp at h

theorem Transition.sound {a : Actor σ ρ} {step : ActorStep σ ρ} (h : a.Sound)
    (t : Transition a step) : step.actor.Sound := by
  cases t with
  | idle => exact h
  | called request => exact ⟨h.candidate, h.result⟩
  | left caller reply cache => exact ⟨h.candidate, h.result⟩
  | live caller key mutate reply cache hwaits hcache hfree =>
    refine ⟨fun f hf => ?_, fun f result hf => ?_⟩
    · simp [hfree] at hf
    · simp [hfree] at hf
  | submitted f cache hwaits hcache hfree hcandidate hpending =>
    refine ⟨fun g hg => ?_, fun g result hg hresult => ?_⟩
    · cases hg
      exact hcandidate
    · cases hg
      rw [hpending] at hresult
      cases hresult
  | worked f fault stamp hholder hpending =>
    refine ⟨fun g hg => ?_, fun g result hg hresult => ?_⟩
    · cases hg
      exact h.candidate f hholder
    · cases hg
      exact (runAppend_result (Option.some.inj hresult)).1
  | flagged f hholder =>
    refine ⟨fun g hg => ?_, fun g result hg hresult => ?_⟩
    · cases hg
      exact h.candidate f hholder
    · cases hg
      exact h.result f result hholder hresult
  | finished f outcome hholder hdone =>
    refine ⟨fun g hg => ?_, fun g result hg => ?_⟩
    · rw [finish_holder] at hg
      cases hg
    · rw [finish_holder] at hg
      cases hg
  | foreign store hgrows =>
    exact ⟨h.candidate, fun f result hf hresult => hgrows _ _ (h.result f result hf hresult)⟩

/-- A committed mutation stores its operation, the first of its key. -/
theorem Transition.persisted_operation {a : Actor σ ρ} {step : ActorStep σ ρ}
    (t : Transition a step) {p : Publication σ ρ} {stored : StoredOperation}
    (hp : step.persisted = some p) (hstored : p.operation = some stored) :
    a.store.operations.get? stored.operationKey = none ∧
      step.actor.store.operations.get? stored.operationKey = some stored := by
  cases t with
  | worked f fault stamp hholder hpending =>
    change earned f (runAppend a.store f.append fault stamp).2 = some p at hp
    unfold earned at hp
    split at hp
    · cases hp
      cases hstored
    · rename_i inserted hdone
      cases hp
      cases hstored
      obtain ⟨htable, hnew⟩ := runAppend_result hdone
      exact ⟨hnew _ rfl, htable⟩
    · cases hp
  | finished f outcome hholder hdone =>
    have hpersisted : (a.finish f outcome).persisted = none := by
      unfold finish
      split <;> rfl
    rw [hpersisted] at hp
    cases hp
  | _ => cases hp

/-! ## Replays -/

/-- The operation is in the table, and the cache holds no other record of
its key. -/
structure Replayable (a : Actor σ ρ) (stored : StoredOperation) : Prop where
  table : a.store.operations.get? stored.operationKey = some stored
  cache : ∀ record, a.cache.store.get? stored.operationKey = some record →
    record = stored.record

theorem Replayable.keeps {a : Actor σ ρ} {stored : StoredOperation} (h : a.Replayable stored)
    {cache : IdempotencyCache} (hcache : CacheKeeps a.store a.cache cache)
    (record : OperationRecord) (hrecord : cache.store.get? stored.operationKey = some record) :
    record = stored.record := by
  rcases hcache _ _ hrecord with hold | ⟨found, hfound, rfl⟩
  · exact h.cache record hold
  · rw [h.table] at hfound
    cases hfound
    rfl

theorem finish_cache {a : Actor σ ρ} (h : a.Sound) {f : InFlight σ ρ}
    {outcome : Except Raised (Option OperationCommitResult)} (hholder : a.holder = some f)
    (hdone : f.outcome = some outcome) :
    CacheKeeps a.store a.cache (a.finish f outcome).actor.cache := by
  have htable := h.result f
  rw [hdone] at htable
  unfold finish
  split
  · exact .refl _ _
  · exact .refl _ _
  · exact .put _ (htable _ hholder rfl)
  · exact .put _ (htable _ hholder rfl)
  · exact .put _ (htable _ hholder rfl)

/-- An operation stays replayable. -/
theorem Transition.replayable {a : Actor σ ρ} {step : ActorStep σ ρ} (hsound : a.Sound)
    (t : Transition a step) {stored : StoredOperation} (h : a.Replayable stored) :
    step.actor.Replayable stored := by
  refine ⟨t.operations_sub _ _ h.table, ?_⟩
  cases t with
  | left caller reply cache hwaits hcache => exact h.keeps hcache
  | live caller key mutate reply cache hwaits hcache => exact h.keeps hcache
  | submitted f cache hwaits hcache => exact h.keeps hcache
  | finished f outcome hholder hdone => exact h.keeps (finish_cache hsound hholder hdone)
  | _ => exact h.cache

theorem Transition.published_replayable {a : Actor σ ρ} {step : ActorStep σ ρ} (h : a.Sound)
    (t : Transition a step) {p : Publication σ ρ} {stored : StoredOperation}
    (hp : step.published = some p) (hstored : p.operation = some stored) :
    step.actor.Replayable stored := by
  cases t with
  | live caller key mutate reply cache =>
    cases hp
    cases hstored
  | finished f outcome hholder hdone =>
    rw [finish_published] at hp
    unfold earned at hp
    split at hp
    · cases hp
      cases hstored
    · rename_i inserted
      cases hp
      cases hstored
      refine ⟨h.result f _ hholder hdone, fun record hrecord => ?_⟩
      rcases IdempotencyCache.put_get? hrecord with ⟨-, rfl⟩ | ⟨hne, -⟩
      · rfl
      · exact absurd rfl hne
    · cases hp
  | _ => cases hp

theorem Replayable.lookup {a : Actor σ ρ} {stored : StoredOperation} (h : a.Replayable stored) :
    (lookupOperation a.cache a.store stored.operationKey).2 = some stored.record := by
  have hfound := a.cache.getRecord_snd stored.operationKey
  unfold lookupOperation
  generalize a.cache.getRecord stored.operationKey = found at hfound
  obtain ⟨moved, record⟩ := found
  cases record with
  | some record => rw [h.cache record hfound.symm]
  | none =>
    dsimp only
    rw [h.table]

/-- A request with the key of a replayable operation gets its response, or
a conflict when its digest differs. -/
theorem Replayable.enter {a : Actor σ ρ} {stored : StoredOperation} (h : a.Replayable stored)
    {caller : Nat} {args : AtomicArgs σ ρ} (hfree : a.holder = none)
    (hwaits : a.waiting.get? caller = some (.atomic args)) (hkey : args.key = stored.operationKey) :
    (a.apply (.enter caller none)).reply = some (caller, .executed
        (if stored.requestDigest = args.requestDigest then .replayed stored.response
          else .conflict (args.conflict stored.record))) ∧
      (a.apply (.enter caller none)).actor.subject = a.subject := by
  have hlookup := h.lookup
  rw [← hkey] at hlookup
  change (a.enter caller none).reply = _ ∧ (a.enter caller none).actor.subject = _
  unfold Actor.enter
  rw [hfree, hwaits]
  dsimp only
  unfold enterAtomic
  dsimp only
  generalize lookupOperation a.cache a.store args.key = found at hlookup ⊢
  obtain ⟨cache, record⟩ := found
  dsimp only at hlookup
  subst hlookup
  refine ⟨?_, rfl⟩
  simp [replayExisting, StoredOperation.record]

/-! ## Callers -/

/-- Callers are numbered in order of arrival; the lock holder waits no
more. -/
structure Numbered (a : Actor σ ρ) : Prop where
  waiting : ∀ i, a.waiting.get? i ≠ none → i < a.nextCaller
  holder : ∀ f, a.holder = some f → f.caller < a.nextCaller ∧ a.waiting.get? f.caller = none

/-- The caller is gone. -/
structure Gone (a : Actor σ ρ) (i : Nat) : Prop where
  numbered : i < a.nextCaller
  waiting : a.waiting.get? i = none
  holder : ∀ f, a.holder = some f → f.caller ≠ i

/-- The caller's append raised, and it has not resumed yet. -/
def Failing (a : Actor σ ρ) (i : Nat) : Prop :=
  ∃ f failure, a.holder = some f ∧ f.caller = i ∧ f.outcome = some (.error failure)

theorem finish_waiting (a : Actor σ ρ) (f : InFlight σ ρ)
    (outcome : Except Raised (Option OperationCommitResult)) :
    (a.finish f outcome).actor.waiting = a.waiting ∧
      (a.finish f outcome).actor.nextCaller = a.nextCaller := by
  unfold finish
  split <;> exact ⟨rfl, rfl⟩

theorem Transition.numbered {a : Actor σ ρ} {step : ActorStep σ ρ} (h : a.Numbered)
    (t : Transition a step) : step.actor.Numbered := by
  have erased (caller i : Nat) (hi : (a.waiting.erase caller).get? i ≠ none) :
      i < a.nextCaller := by
    rw [Dict.get?_erase] at hi
    split at hi
    · exact absurd rfl hi
    · exact h.waiting i hi
  have absent (caller i : Nat) (hi : a.waiting.get? i = none) :
      (a.waiting.erase caller).get? i = none := by
    rw [Dict.get?_erase, hi, ite_self]
  cases t with
  | idle => exact h
  | called request =>
    refine ⟨fun i hi => ?_, fun f hf => ?_⟩
    · rw [Dict.get?_set] at hi
      split at hi
      · rename_i heq
        exact heq ▸ Nat.lt_succ_self _
      · exact Nat.lt_succ_of_lt (h.waiting i hi)
    · obtain ⟨hlt, hnone⟩ := h.holder f hf
      refine ⟨Nat.lt_succ_of_lt hlt, ?_⟩
      rw [Dict.get?_set_ne _ _ (Nat.ne_of_gt hlt)]
      exact hnone
  | left caller reply cache =>
    exact ⟨erased caller, fun f hf => ⟨(h.holder f hf).1, absent _ _ (h.holder f hf).2⟩⟩
  | live caller key mutate reply cache =>
    exact ⟨erased caller, fun f hf => ⟨(h.holder f hf).1, absent _ _ (h.holder f hf).2⟩⟩
  | submitted f cache hwaits =>
    refine ⟨erased f.caller, fun g hg => ?_⟩
    cases hg
    exact ⟨h.waiting _ hwaits, Dict.get?_erase_self _ _⟩
  | worked f fault stamp hholder =>
    refine ⟨h.waiting, fun g hg => ?_⟩
    cases hg
    exact h.holder f hholder
  | flagged f hholder =>
    refine ⟨h.waiting, fun g hg => ?_⟩
    cases hg
    exact h.holder f hholder
  | finished f outcome hholder =>
    obtain ⟨hwaiting, hnext⟩ := a.finish_waiting f outcome
    refine ⟨by rw [hwaiting, hnext]; exact h.waiting, fun g hg => ?_⟩
    rw [finish_holder] at hg
    cases hg
  | foreign store => exact ⟨h.waiting, h.holder⟩

theorem Transition.gone {a : Actor σ ρ} {step : ActorStep σ ρ} (t : Transition a step) {i : Nat}
    (h : a.Gone i) : step.actor.Gone i := by
  have absent (caller : Nat) : (a.waiting.erase caller).get? i = none := by
    rw [Dict.get?_erase, h.waiting, ite_self]
  cases t with
  | idle => exact h
  | called request =>
    refine ⟨Nat.lt_succ_of_lt h.numbered, ?_, h.holder⟩
    rw [Dict.get?_set_ne _ _ (Nat.ne_of_gt h.numbered)]
    exact h.waiting
  | left caller reply cache => exact ⟨h.numbered, absent caller, h.holder⟩
  | live caller key mutate reply cache => exact ⟨h.numbered, absent caller, h.holder⟩
  | submitted f cache hwaits =>
    refine ⟨h.numbered, absent f.caller, fun g hg => ?_⟩
    cases hg
    rintro rfl
    exact hwaits h.waiting
  | worked f fault stamp hholder =>
    refine ⟨h.numbered, h.waiting, fun g hg => ?_⟩
    cases hg
    exact h.holder f hholder
  | flagged f hholder =>
    refine ⟨h.numbered, h.waiting, fun g hg => ?_⟩
    cases hg
    exact h.holder f hholder
  | finished f outcome hholder =>
    obtain ⟨hwaiting, hnext⟩ := a.finish_waiting f outcome
    refine ⟨by rw [hnext]; exact h.numbered, by rw [hwaiting]; exact h.waiting, fun g hg => ?_⟩
    rw [finish_holder] at hg
    cases hg
  | foreign store => exact ⟨h.numbered, h.waiting, h.holder⟩

/-- A caller whose append raised resumes without more ado, or waits to. -/
theorem Transition.failing {a : Actor σ ρ} {step : ActorStep σ ρ} (hnum : a.Numbered)
    (t : Transition a step) {i : Nat} (h : a.Failing i) :
    step.actor.Failing i ∨ step.actor.Gone i := by
  obtain ⟨f, failure, hf, rfl, houtcome⟩ := h
  cases t with
  | live caller key mutate reply cache hwaits hcache hfree => simp [hfree] at hf
  | submitted g cache hwaits hcache hfree => simp [hfree] at hf
  | worked g fault stamp hholder hpending =>
    rw [hholder] at hf
    cases hf
    rw [hpending] at houtcome
    cases houtcome
  | flagged g hholder =>
    rw [hholder] at hf
    cases hf
    exact .inl ⟨_, failure, rfl, rfl, houtcome⟩
  | finished g outcome hholder =>
    rw [hholder] at hf
    cases hf
    obtain ⟨hwaiting, hnext⟩ := a.finish_waiting f outcome
    obtain ⟨hlt, hnone⟩ := hnum.holder f hholder
    refine .inr ⟨by rw [hnext]; exact hlt, by rw [hwaiting]; exact hnone, fun g hg => ?_⟩
    rw [finish_holder] at hg
    cases hg
  | _ => exact .inl ⟨f, failure, hf, rfl, houtcome⟩

/-- A caller whose mutation is published was there until then, and its
append did not raise. -/
theorem Transition.published_caller {a : Actor σ ρ} {step : ActorStep σ ρ} (hnum : a.Numbered)
    (t : Transition a step) {p : Publication σ ρ} (hp : step.published = some p) :
    step.actor.Gone p.caller ∧ ¬ a.Gone p.caller ∧ ¬ a.Failing p.caller := by
  cases t with
  | live caller key mutate reply cache hwaits hcache hfree =>
    cases hp
    refine ⟨⟨hnum.waiting _ hwaits, Dict.get?_erase_self _ _, fun g hg => ?_⟩,
      fun hgone => hwaits hgone.waiting, ?_⟩
    · simp [hfree] at hg
    · rintro ⟨f, failure, hf, -⟩
      simp [hfree] at hf
  | finished f outcome hholder hdone =>
    rw [finish_published] at hp
    obtain ⟨hcaller, -, -⟩ := earned_mutate hp
    obtain ⟨hwaiting, hnext⟩ := a.finish_waiting f outcome
    obtain ⟨hlt, hnone⟩ := hnum.holder f hholder
    rw [hcaller]
    refine ⟨⟨by rw [hnext]; exact hlt, by rw [hwaiting]; exact hnone, fun g hg => ?_⟩,
      fun hgone => hgone.holder f hholder rfl, ?_⟩
    · rw [finish_holder] at hg
      cases hg
    · rintro ⟨g, failure, hg, -, houtcome⟩
      rw [hholder] at hg
      cases hg
      rw [hdone] at houtcome
      cases houtcome
      cases hp
  | _ => cases hp

/-- A caller whose append raises now holds the lock. -/
theorem Transition.failed_caller {a : Actor σ ρ} {step : ActorStep σ ρ} (t : Transition a step)
    {i : Nat} (hi : step.failed = some i) : step.actor.Failing i ∧ ¬ a.Gone i := by
  cases t with
  | worked f fault stamp hholder hpending =>
    unfold work at hi ⊢
    dsimp only at hi ⊢
    split at hi
    · rename_i failure hraised
      cases hi
      exact ⟨⟨_, failure, rfl, rfl, by rw [hraised]⟩, fun hgone => hgone.holder f hholder rfl⟩
    · cases hi
  | finished f outcome hholder hdone =>
    have hfailed : (a.finish f outcome).failed = none := by
      unfold finish
      split <;> rfl
    rw [hfailed] at hi
    cases hi
  | _ => cases hi

/-! ## Runs -/

/-- What the steps of a run show, in order. -/
def collect {α : Type} (read : ActorStep σ ρ → Option α) (a : Actor σ ρ)
    (ops : List (ActorOp σ ρ)) : List α :=
  (Trace.trace next a ops).filterMap fun call => read (call.1.apply call.2)

/-- The mutations a run publishes, in order. -/
def published (a : Actor σ ρ) (ops : List (ActorOp σ ρ)) : List (Publication σ ρ) :=
  collect ActorStep.published a ops

/-- The mutations a run makes durable, in commit order. -/
def persisted (a : Actor σ ρ) (ops : List (ActorOp σ ρ)) : List (Publication σ ρ) :=
  collect ActorStep.persisted a ops

/-- The callers whose append or commit raised. -/
def failed (a : Actor σ ρ) (ops : List (ActorOp σ ρ)) : List Nat := collect ActorStep.failed a ops

theorem collect_append {α : Type} (read : ActorStep σ ρ → Option α) (a : Actor σ ρ)
    (ops : List (ActorOp σ ρ)) (op : ActorOp σ ρ) :
    collect read a (ops ++ [op]) = collect read a ops ++ (read ((a.run ops).apply op)).toList := by
  unfold collect run
  rw [Trace.trace_append, List.filterMap_append]
  cases hread : read ((Trace.run next a ops).apply op) with
  | none => simp [hread]
  | some x => simp [hread]

theorem run_append (a : Actor σ ρ) (ops : List (ActorOp σ ρ)) (op : ActorOp σ ρ) :
    a.run (ops ++ [op]) = ((a.run ops).apply op).actor :=
  Trace.run_append next a ops op

theorem run_sound {a : Actor σ ρ} (h : a.Sound) (ops : List (ActorOp σ ρ)) : (a.run ops).Sound :=
  Trace.invariant _ (fun s op hs => (s.apply_transition op).sound hs) h ops

theorem run_numbered {a : Actor σ ρ} (h : a.Numbered) (ops : List (ActorOp σ ρ)) :
    (a.run ops).Numbered :=
  Trace.invariant _ (fun s op hs => (s.apply_transition op).numbered hs) h ops

/-- The subject is the published mutations applied in order. -/
theorem run_subject {a : Actor σ ρ} (h : a.Sound) (ops : List (ActorOp σ ρ)) :
    (a.run ops).subject = (a.published ops).foldl (fun s p => (p.mutate s).1) a.subject := by
  induction ops using List.reverseRecOn with
  | nil => rfl
  | append_singleton ops op ih =>
    rw [run_append, ((a.run ops).apply_transition op).subject (run_sound h ops), published,
      collect_append, List.foldl_append, ← published, ← ih]
    cases ((a.run ops).apply op).published <;> rfl

/-- The durable mutations are the published ones in the same order, but
for one whose append is over and whose caller has not resumed. -/
theorem run_journal {a : Actor σ ρ} (h : a.holder = none) (ops : List (ActorOp σ ρ)) :
    a.persisted ops = (a.published ops).filter Publication.durable ++ (a.run ops).pending := by
  induction ops using List.reverseRecOn with
  | nil =>
    change [] = [] ++ a.pending
    rw [pending, h]
    rfl
  | append_singleton ops op ih =>
    have hstep := ((a.run ops).apply_transition op).journal
    rw [persisted, published, collect_append, collect_append, ← persisted, ← published, ih,
      run_append, List.filter_append, List.append_assoc, hstep, List.append_assoc]
    congr 2
    cases ((a.run ops).apply op).published with
    | none => rfl
    | some p => cases hp : p.durable <;> simp [hp]

/-- The operations a run commits, in order. -/
def operations (a : Actor σ ρ) (ops : List (ActorOp σ ρ)) : List StoredOperation :=
  (a.persisted ops).filterMap Publication.operation

theorem run_operations_sub (a : Actor σ ρ) (ops : List (ActorOp σ ρ)) :
    a.store.operations.Sub (a.run ops).store.operations := by
  induction ops using List.reverseRecOn with
  | nil => exact Dict.Sub.refl _
  | append_singleton ops op ih =>
    rw [run_append]
    exact ih.trans ((a.run ops).apply_transition op).operations_sub

/-- No key is committed twice, and none that was stored at the start. -/
theorem run_once (a : Actor σ ρ) (ops : List (ActorOp σ ρ)) :
    ((a.operations ops).map StoredOperation.operationKey).Nodup ∧
      ∀ stored ∈ a.operations ops, a.store.operations.get? stored.operationKey = none ∧
        (a.run ops).store.operations.get? stored.operationKey = some stored := by
  induction ops using List.reverseRecOn with
  | nil => exact ⟨.nil, by rintro stored ⟨⟩⟩
  | append_singleton ops op ih =>
    obtain ⟨hnodup, hstored⟩ := ih
    have t := (a.run ops).apply_transition op
    have hsplit : a.operations (ops ++ [op]) = a.operations ops ++
        (((a.run ops).apply op).persisted.bind Publication.operation).toList := by
      rw [operations, persisted, collect_append, List.filterMap_append]
      cases ((a.run ops).apply op).persisted with
      | none => rfl
      | some p => cases hp : p.operation <;> simp [hp, operations, persisted]
    have hold : ∀ stored ∈ a.operations ops, a.store.operations.get? stored.operationKey = none ∧
        (a.run (ops ++ [op])).store.operations.get? stored.operationKey = some stored := by
      intro stored hmem
      obtain ⟨hnone, hsome⟩ := hstored stored hmem
      rw [run_append]
      exact ⟨hnone, t.operations_sub _ _ hsome⟩
    rw [hsplit]
    cases hnew : ((a.run ops).apply op).persisted.bind Publication.operation with
    | none => exact ⟨by simpa using hnodup, by simpa using hold⟩
    | some stored =>
      obtain ⟨p, hp, hoperation⟩ := Option.bind_eq_some_iff.mp hnew
      obtain ⟨hfree, hheld⟩ := t.persisted_operation hp hoperation
      constructor
      · rw [List.map_append, Option.toList_some, List.map_singleton, ← List.concat_eq_append,
          List.nodup_concat]
        refine ⟨fun hmem => ?_, hnodup⟩
        obtain ⟨old, hmem, hkey⟩ := List.mem_map.mp hmem
        rw [← hkey, (hstored old hmem).2] at hfree
        cases hfree
      · intro found hmem
        rcases List.mem_append.mp hmem with hmem | hmem
        · exact hold found hmem
        · cases List.mem_singleton.mp hmem
          rw [run_append]
          refine ⟨?_, hheld⟩
          cases hstart : a.store.operations.get? stored.operationKey with
          | none => rfl
          | some old =>
            rw [a.run_operations_sub ops _ _ hstart] at hfree
            cases hfree

/-- A published committed operation is replayable at the end of the
run. -/
theorem run_replayable {a : Actor σ ρ} (h : a.Sound) (ops : List (ActorOp σ ρ))
    {p : Publication σ ρ} (hp : p ∈ a.published ops) {stored : StoredOperation}
    (hstored : p.operation = some stored) : (a.run ops).Replayable stored := by
  induction ops using List.reverseRecOn with
  | nil => cases hp
  | append_singleton ops op ih =>
    have t := (a.run ops).apply_transition op
    rw [run_append]
    rw [published, collect_append] at hp
    rcases List.mem_append.mp hp with hp | hp
    · exact t.replayable (run_sound h ops) (ih hp)
    · exact t.published_replayable (run_sound h ops) (by simpa using hp) hstored

/-- Publishing callers are gone, failed ones are gone or about to be, and
no caller is both. -/
theorem run_failed {a : Actor σ ρ} (h : a.Numbered) (ops : List (ActorOp σ ρ)) :
    (∀ p ∈ a.published ops, (a.run ops).Gone p.caller) ∧
      (∀ i ∈ a.failed ops, (a.run ops).Failing i ∨ (a.run ops).Gone i) ∧
      ∀ i ∈ a.failed ops, ∀ p ∈ a.published ops, p.caller ≠ i := by
  induction ops using List.reverseRecOn with
  | nil => exact ⟨by rintro p ⟨⟩, by rintro i ⟨⟩, by rintro i ⟨⟩⟩
  | append_singleton ops op ih =>
    obtain ⟨hgone, hfailed, hne⟩ := ih
    have hnum := run_numbered h ops
    have t := (a.run ops).apply_transition op
    rw [run_append, published, failed, collect_append, collect_append, ← published, ← failed]
    have hnext : ∀ i ∈ a.failed ops, ((a.run ops).apply op).actor.Failing i ∨
        ((a.run ops).apply op).actor.Gone i :=
      fun i hi => (hfailed i hi).elim (t.failing hnum) fun hg => .inr (t.gone hg)
    refine ⟨fun p hp => ?_, fun i hi => ?_, fun i hi p hp => ?_⟩
    · rcases List.mem_append.mp hp with hp | hp
      · exact t.gone (hgone p hp)
      · exact (t.published_caller hnum (by simpa using hp)).1
    · rcases List.mem_append.mp hi with hi | hi
      · exact hnext i hi
      · exact .inl (t.failed_caller (by simpa using hi)).1
    · rcases List.mem_append.mp hp with hp | hp <;> rcases List.mem_append.mp hi with hi | hi
      · exact hne i hi p hp
      · rintro rfl
        exact (t.failed_caller (by simpa using hi)).2 (hgone p hp)
      · -- a publication now and a failure before: the caller is neither gone nor failing
        obtain ⟨-, hhere, hwell⟩ := t.published_caller hnum (by simpa using hp)
        rintro rfl
        exact (hfailed _ hi).elim hwell hhere
      · obtain ⟨hnow, -, -⟩ := t.published_caller hnum (by simpa using hp)
        obtain ⟨⟨f, failure, hf, hcaller, -⟩, -⟩ := t.failed_caller (by simpa using hi)
        exact fun heq => hnow.holder f hf (hcaller.trans heq.symm)

theorem start_sound (subject : σ) (cache : IdempotencyCache) (store : EventStore) :
    (start subject cache store : Actor σ ρ).Sound :=
  ⟨by rintro f ⟨⟩, by rintro f result ⟨⟩⟩

theorem start_numbered (subject : σ) (cache : IdempotencyCache) (store : EventStore) :
    (start subject cache store : Actor σ ρ).Numbered :=
  ⟨fun i hi => absurd rfl hi, by rintro f ⟨⟩⟩

/-- What the actor promises of a run. -/
structure Contract (a : Actor σ ρ) (ops : List (ActorOp σ ρ)) : Prop where
  /-- The subject is the published mutations applied in order. -/
  applied : (a.run ops).subject = (a.published ops).foldl (fun s p => (p.mutate s).1) a.subject
  /-- The durable ones among them are those made durable, in commit order,
  but for the one whose append is over and whose caller has not resumed. -/
  journalled :
    a.persisted ops = (a.published ops).filter Publication.durable ++ (a.run ops).pending
  /-- No key is committed twice, and none that was stored before. -/
  once : ((a.operations ops).map StoredOperation.operationKey).Nodup ∧
    ∀ stored ∈ a.operations ops, a.store.operations.get? stored.operationKey = none
  /-- Once a committed mutation is published, every request with its key
  that gets the lock gets the stored response, or a conflict when its digest
  differs, and changes nothing. -/
  replayed : ∀ p ∈ a.published ops, ∀ stored, p.operation = some stored → ∀ caller args,
    (a.run ops).holder = none → (a.run ops).waiting.get? caller = some (.atomic args) →
      args.key = stored.operationKey →
        let step := (a.run ops).apply (.enter caller none)
        step.reply = some (caller, .executed
            (if stored.requestDigest = args.requestDigest then .replayed stored.response
              else .conflict (args.conflict stored.record))) ∧
          step.actor.subject = (a.run ops).subject
  /-- A caller whose append or commit raised publishes nothing. -/
  unpublished : ∀ i ∈ a.failed ops, ∀ p ∈ a.published ops, p.caller ≠ i

end Actor

/-- Journal before publish and at most one committed mutation of a key,
over every interleaving of calls, cancellations, failures and commits of
other processes. -/
theorem journal_before_publish {σ ρ : Type} (subject : σ) (cache : IdempotencyCache)
    (store : EventStore) (ops : List (ActorOp σ ρ)) :
    (Actor.start subject cache store).Contract ops where
  applied := Actor.run_subject (Actor.start_sound ..) ops
  journalled := Actor.run_journal rfl ops
  once := ⟨(Actor.run_once _ ops).1, fun stored hmem => ((Actor.run_once _ ops).2 stored hmem).1⟩
  replayed := fun _ hp _ hstored _ _ hfree hwaits hkey =>
    (Actor.run_replayable (Actor.start_sound ..) ops hp hstored).enter hfree hwaits hkey
  unpublished := (Actor.run_failed (Actor.start_numbered ..) ops).2.2

/-- Two refused requests of one key: neither has a draft, and each
publishes its own copy. -/
def draftlessTwice : List (ActorOp Nat Unit) :=
  let args : AtomicArgs Nat Unit :=
    { key := "k"
      requestDigest := "d"
      mutate := fun n => (n + 1, .ok ())
      prepare := fun _ => .ok none
      conflict := fun _ => [] }
  [.call (.atomic args), .call (.atomic args), .enter 0 none, .enter 1 none]

theorem draftless_published_twice :
    ¬ ∀ (subject : Nat) (cache : IdempotencyCache) (store : EventStore)
      (ops : List (ActorOp Nat Unit)) (key : String),
      (((Actor.start subject cache store).published ops).filter
        fun p => p.key = some key).length ≤ 1 := by
  intro h
  have := h 0 ⟨1, Dict.empty⟩ {} draftlessTwice "k"
  revert this
  decide

end SynapseChannel
