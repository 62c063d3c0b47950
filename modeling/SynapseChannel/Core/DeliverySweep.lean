import SynapseChannel.Core.DeliverySteps

/-!
# Core — DeliverySweep

The hub ends deliveries under a mutation id of its own: those whose deadline
has passed, and those of a replaced recipient session. A sweep never fails
and stops, and it ends what it selects unless a participant has used the
hub's mutation id before it.
-/

namespace SynapseChannel.Delivery

open Py

/-! ## Sweeps -/

inductive Sweep where
  /-- `expire_due_deliveries`. -/
  | expiry
  /-- `supersede_old_delivery_sessions`. -/
  | supersession (target incarnation : String)

namespace Sweep

def stage : Sweep → DeliveryStage
  | .expiry => .expired
  | .supersession _ _ => .superseded

def mutationId : Sweep → String
  | .expiry => "hub-deadline-expired"
  | .supersession _ _ => "hub-session-superseded"

def evidence : Sweep → Members
  | .expiry => [("reason_code", .str "deadline_elapsed")]
  | .supersession _ _ => [("reason_code", .str "recipient_session_replaced")]

/-- The rows its query names, under the clock it is given. -/
def selects : Sweep → Float → Row → Bool
  | .expiry, now, row => decide (row.deadline ≤ now)
  | .supersession target incarnation, _, row =>
    row.target == target && row.targetIncarnation != incarnation

def pageLimit : Nat := 128

/-- The keys of its query past the cursor, in order. -/
def due (w : Sweep) (s : Store) (now : Float) (cursor : String) : List String :=
  ((sortedBy (fun a b => decide (a < b)) Prod.fst s.requests.items).filter fun (key, row) =>
    decide (cursor < key) && w.selects now row && row.stage.isOpen &&
      !s.quarantined.contains key).map Prod.fst

/-- `due_for_expiry` and `open_for_other_incarnations`. -/
def page (w : Sweep) (s : Store) (now : Float) (cursor : String) : List String :=
  (w.due s now cursor).take pageLimit

variable [Builtins]

/-- `_mutation_digest`. -/
def mutationDigest (key mutationId stage : String) (evidence : Members) : String :=
  DeliveryIntent.canonicalDigest (.arr [.str key, .str mutationId, .str stage, .obj evidence])

/-- The hub's transition of one delivery. -/
def mutation (w : Sweep) (hubId key : String) : Store.Mutation :=
  { operationKey := key
    stage := some (w.stage, .hub)
    mutationId := w.mutationId
    mutationDigest := mutationDigest key w.mutationId w.stage.text w.evidence
    actor := hubId
    evidence := w.evidence }

/-- Advance one delivery; a refused one is quarantined. The number is of
the deliveries ended. -/
def advance (w : Sweep) (hubId : String) (s : Store) (key : String) (clock : Float) :
    Except Failure (Store × Nat) :=
  match s.mutate (w.mutation hubId key) clock with
  | .ok (s, write) => .ok (s, if write.disposition = .inserted then 1 else 0)
  | .error (.refusal code _) => .ok (s.quarantine key code, 0)
  | .error e => .error e

end Sweep

/-- A sweep under way. -/
structure Sweeping where
  store : Store
  cursor : String := ""
  page : List String := []
  count : Nat := 0
  finished : Bool := false
  failed : Bool := false

/-- The sweep goes on, or another call on the store comes between. -/
inductive Turn where
  | own (clock : Float)
  | other (call : Store.Call)

namespace Sweeping

variable [Builtins] (w : Sweep) (hubId : String)

/-- Read the next page, or advance the next delivery of this one. -/
def own (p : Sweeping) (clock : Float) : Sweeping :=
  if p.finished || p.failed then p
  else
    match p.page with
    | [] =>
      match w.page p.store clock p.cursor with
      | [] => { p with finished := true }
      | key :: rest => { p with page := key :: rest }
    | key :: rest =>
      match w.advance hubId p.store key clock with
      | .ok (store, ended) => { p with store, cursor := key, page := rest, count := p.count + ended }
      | .error _ => { p with cursor := key, failed := true }

def turn (p : Sweeping) : Turn → Sweeping
  | .own clock => p.own w hubId clock
  | .other call => { p with store := p.store.step call }

def run (p : Sweeping) (turns : List Turn) : Sweeping := Trace.run (turn w hubId) p turns

end Sweeping

/-! ## What a sweep owes -/

namespace Sweep

variable (w : Sweep)

/-- An open delivery of the sweep that is not quarantined. -/
def Owes (s : Store) (t : Float) (key : String) : Prop :=
  ∃ row, s.requests.get? key = some row ∧ w.selects t row = true ∧ row.stage.isOpen = true ∧
    s.quarantined.get? key = none

instance (s : Store) (t : Float) (key : String) : Decidable (w.Owes s t key) :=
  decidable_of_iff
    ((s.requests.get? key).any fun row =>
      w.selects t row && row.stage.isOpen && !s.quarantined.contains key) (by
    simp only [Owes, Option.any_eq_true, Bool.and_eq_true, Bool.not_eq_true', Dict.contains,
      Option.isSome_eq_false_iff, Option.isNone_iff_eq_none, and_assoc])

/-- A delivery of the hub, under which the sweep's mutation id is used up. -/
def Taken (hubId : String) (s : Store) (key : String) : Prop :=
  ∃ row, s.requests.get? key = some row ∧ row.owner = some hubId ∧
    s.mutations.get? (key, w.mutationId) ≠ none

/-- Under the sweep's mutation id the call makes the sweep's transition. -/
def Spares : Store.Call → Prop
  | .mutate m _ => m.mutationId = w.mutationId → m.stage = some (w.stage, .hub)
  | _ => True

end Sweep

/-- The call is one the hub makes while it serves; a binding is offline. -/
def Store.Call.Online : Store.Call → Prop
  | .bind _ _ _ _ => False
  | _ => True

/-- The turn is no earlier than `t`, or a call the hub makes while it serves
that leaves the sweep's mutation id alone. -/
def Turn.Keeps (w : Sweep) (t : Float) : Turn → Prop
  | .own clock => t ≤ clock
  | .other call => call.Online ∧ w.Spares call

namespace Sweep

variable [Builtins] {w : Sweep} {hubId key : String} {s : Store}

section

omit [Builtins]

end

/-! ## One delivery -/

omit [Builtins] in
theorem stage_terminal : w.stage.terminal = true := by
  cases w <;> rfl

/-- The hub's transition is refused at worst. -/
theorem advance_ok (hnumbered : s.Numbered) (clock : Float) :
    ∃ done, w.advance hubId s key clock = .ok done := by
  unfold advance
  cases hmutate : s.mutate (w.mutation hubId key) clock with
  | ok done => exact ⟨_, rfl⟩
  | error e =>
    obtain ⟨code, detail, rfl⟩ := Store.mutate_refused hnumbered (by cases w <;> rfl) hmutate
    exact ⟨_, rfl⟩

/-- A delivery the hub is done with. -/
def Settled (s : Store) (key : String) : Prop :=
  ∃ row, s.requests.get? key = some row ∧
    (row.stage.terminal = true ∨ s.quarantined.get? key ≠ none)

omit [Builtins] in
/-- A transition recorded under the sweep's mutation id ends its delivery. -/
theorem committed_ends {m : Store.Mutation} {clock : Float} {prior : Row} {l : DeliveryLifecycle}
    {s' : Store} (h : s.Committed m clock prior l s') (hspares : w.Spares (.mutate m clock))
    (hused : ¬ s'.mutations.get? (key, w.mutationId) = s.mutations.get? (key, w.mutationId)) :
    ∃ row, s'.requests.get? key = some row ∧ row.stage.terminal = true := by
  rw [h.mutations] at hused
  by_cases hid : (m.operationKey, m.mutationId) = (key, w.mutationId)
  · obtain ⟨hkey, hid⟩ := Prod.mk.inj hid
    refine ⟨_, by rw [h.requests, hkey]; exact Dict.get?_set_self _ _ _, ?_⟩
    rcases Store.stage_of_apply h.applied with ⟨source, hstage, -⟩ | ⟨hstage, -⟩
    · rw [hspares hid] at hstage
      show l.stage.terminal = true
      rw [show l.stage = w.stage from congrArg Prod.fst (Option.some.inj hstage).symm]
      exact stage_terminal
    · rw [hspares hid] at hstage
      cases hstage
  · exact absurd (Dict.get?_set_ne _ _ hid) hused

/-- A delivery the sweep owes and can end. -/
def Awaits (w : Sweep) (hubId : String) (s : Store) (t : Float) (key : String) : Prop :=
  w.Owes s t key ∧ ¬ w.Taken hubId s key

end Sweep

/-! ## The run of a sweep -/

namespace Sweeping

variable [Builtins] {w : Sweep} {hubId : String}

/-- A sweep that reads keys in order and has not failed. -/
structure Sound (p : Sweeping) : Prop where
  numbered : p.store.Numbered
  begun : p.store.Rows Store.Begun
  ordered : (p.cursor :: p.page).Pairwise (· < ·)
  present : ∀ key ∈ p.page, p.store.requests.get? key ≠ none
  failed : p.failed = false

/-- What a sweep's own turn does. -/
inductive Goes (w : Sweep) (hubId : String) (p : Sweeping) (clock : Float) : Sweeping → Prop
  | stays (h : p.finished = true) : Goes w hubId p clock p
  | ends (hgoing : p.finished = false) (hpage : p.page = [])
      (hdue : w.page p.store clock p.cursor = []) : Goes w hubId p clock { p with finished := true }
  | reads (hgoing : p.finished = false) (hpage : p.page = [])
      (hdue : w.page p.store clock p.cursor ≠ []) :
      Goes w hubId p clock { p with page := w.page p.store clock p.cursor }
  | advances {key : String} {rest : List String} {store : Store} {ended : Nat}
      (hgoing : p.finished = false) (hpage : p.page = key :: rest)
      (h : w.advance hubId p.store key clock = .ok (store, ended)) :
      Goes w hubId p clock
        { p with store, cursor := key, page := rest, count := p.count + ended }

theorem goes {p : Sweeping} (hp : p.Sound) (clock : Float) :
    Goes w hubId p clock (p.own w hubId clock) := by
  obtain ⟨store, cursor, page, count, finished, failed⟩ := p
  have hfailed : failed = false := hp.failed
  subst hfailed
  cases finished with
  | true => exact .stays rfl
  | false =>
    cases page with
    | nil =>
      show Goes w hubId _ clock (match w.page store clock cursor with
        | [] => _
        | key :: rest => _)
      cases hdue : w.page store clock cursor with
      | nil => exact .ends rfl rfl hdue
      | cons key rest =>
        have hreads : Goes w hubId ⟨store, cursor, [], count, false, false⟩ clock
            ⟨store, cursor, w.page store clock cursor, count, false, false⟩ :=
          .reads rfl rfl (by rw [hdue]; simp)
        rw [hdue] at hreads
        exact hreads
    | cons key rest =>
      obtain ⟨⟨store', ended⟩, hadvance⟩ : ∃ done, w.advance hubId store key clock = .ok done :=
        w.advance_ok hp.numbered clock
      show Goes w hubId _ clock (match w.advance hubId store key clock with
        | .ok (store, ended) => _
        | .error _ => _)
      rw [hadvance]
      exact .advances rfl rfl hadvance

/-- A call on the store loses no delivery of the page. -/
theorem Sound.store {p : Sweeping} (hp : p.Sound) (c : Store.Call) :
    Sound { p with store := p.store.step c } where
  numbered := Store.numbered_step hp.numbered c
  begun := Store.begun_step hp.begun c
  ordered := hp.ordered
  present := by
    intro key hkey
    obtain ⟨row, hrow⟩ := Option.ne_none_iff_exists'.mp (hp.present key hkey)
    obtain ⟨later, hlater, -⟩ := Store.step_grows hrow c
    show (p.store.step c).requests.get? key ≠ none
    rw [hlater]
    simp
  failed := hp.failed

/-- How far the sweep has come: the keys up to its cursor, and the page it holds. -/
def work (p : Sweeping) : Nat :=
  2 * ((p.store.requests.keys.toFinset.filter (· ≤ p.cursor)).card) + if p.page = [] then 0 else 1

theorem sound_start (calls : List Store.Call) : Sound { store := Store.run {} calls } where
  numbered := Store.numbered_run Store.numbered_empty calls
  begun := Store.begun_run calls
  ordered := by simp
  present := fun key hkey => by cases hkey
  failed := rfl

end Sweeping

namespace Sweep

variable [Builtins] {w : Sweep}

/-- Every delivery with a transition under the sweep's mutation id is ended. -/
def Ended (w : Sweep) (s : Store) : Prop :=
  ∀ key, s.mutations.get? (key, w.mutationId) ≠ none →
    ∃ row, s.requests.get? key = some row ∧ row.stage.terminal = true

theorem ended_step {s : Store} {c : Store.Call} (h : w.Ended s) (hspares : w.Spares c) :
    w.Ended (s.step c) := by
  intro key hused
  by_cases hsame : (s.step c).mutations.get? (key, w.mutationId) =
      s.mutations.get? (key, w.mutationId)
  · obtain ⟨row, hrow, hterminal⟩ := h key (hsame ▸ hused)
    obtain ⟨later, hlater, hgrows⟩ := Store.step_grows hrow c
    exact ⟨later, hlater, by rw [hgrows.terminal hterminal]; exact hterminal⟩
  · have hstep := Store.commits s c
    generalize s.step c = s' at hstep hsame ⊢
    cases hstep with
    | idle => exact absurd rfl hsame
    | create hcreated => exact absurd (by rw [hcreated.mutations]) hsame
    | mutate hprior hcommitted => exact committed_ends hcommitted hspares hsame
    | quarantine key' reason => exact absurd (by rw [Store.quarantine_mutations]) hsame
    | bind hbound => exact absurd (by rw [hbound.mutations]) hsame
    | mark id clock => exact absurd (by rw [Store.mark_mutations]) hsame
    | otherEvent => exact absurd rfl hsame

end Sweep

namespace Sweeping

variable [Builtins] {w : Sweep} {hubId : String}

end Sweeping

/-! ### Two runs -/

namespace Sweeping

end Sweeping

end SynapseChannel.Delivery
