import SynapseChannel.Lib.Dict
import SynapseChannel.Lib.Sorted
import SynapseChannel.Lib.Text

/-!
# Multihub — NamespaceOwnership

Which hub may grant claims in a namespace: the operator's map of owners,
read against the hubs observed asserting authority.
-/

namespace SynapseChannel

open Py

/-- `project_of`: the part of an identity before its first slash; a bare name has none. -/
def projectOf (subject : String) : String :=
  if subject.toList.contains '/' then String.ofList (subject.toList.takeWhile (· ≠ '/')) else ""

inductive OwnershipOutcome where
  | local
  | remote
  | ungoverned
  | partitioned
  deriving DecidableEq

structure OwnershipDecision where
  outcome : OwnershipOutcome
  name : String
  ownerHubId : Option String := none
  contesting : List String := []
  deriving DecidableEq

/-- `grants_locally`. -/
def OwnershipDecision.grantsLocally (d : OwnershipDecision) : Bool := d.outcome = .local

structure NamespaceOwnership where
  owners : Dict String String
  localHubId : String

namespace NamespaceOwnership

/-- The hubs that contest the configured owner of a namespace. -/
def contesting (o : NamespaceOwnership) (owner : String) (assertingHubs : List String) :
    List String :=
  sortedBy (fun a b : String => decide (a < b)) id
    (assertingHubs.filter fun hub => hub ≠ owner && hub ≠ o.localHubId)

def resolve (o : NamespaceOwnership) (name : String) (assertingHubs : List String) :
    OwnershipDecision :=
  match o.owners.get? name with
  | none => { outcome := .ungoverned, name }
  | some owner =>
    let contesting := o.contesting owner assertingHubs
    if !contesting.isEmpty then { outcome := .partitioned, name, contesting }
    else if owner = o.localHubId then
      { outcome := .local, name, ownerHubId := some owner }
    else { outcome := .remote, name, ownerHubId := some owner }

/-- The map gives the namespace to this hub. -/
def Assigned (o : NamespaceOwnership) (name : String) : Prop :=
  o.owners.get? name = some o.localHubId

/-- Nobody but this hub is observed asserting authority. -/
def Uncontested (o : NamespaceOwnership) (assertingHubs : List String) : Prop :=
  ∀ hub ∈ assertingHubs, hub = o.localHubId

instance (o : NamespaceOwnership) (name : String) : Decidable (o.Assigned name) :=
  inferInstanceAs (Decidable (_ = _))

instance (o : NamespaceOwnership) (assertingHubs : List String) :
    Decidable (o.Uncontested assertingHubs) :=
  inferInstanceAs (Decidable (∀ hub ∈ assertingHubs, _))

theorem contesting_isEmpty (o : NamespaceOwnership) (owner : String)
    (assertingHubs : List String) :
    (o.contesting owner assertingHubs).isEmpty = true ↔
      ∀ hub ∈ assertingHubs, hub = owner ∨ hub = o.localHubId := by
  unfold contesting
  rw [List.isEmpty_iff]
  constructor
  · intro hempty hub hmem
    by_contra hother
    rw [not_or] at hother
    have hin : hub ∈ sortedBy (fun a b : String => decide (a < b)) id
        (assertingHubs.filter fun hub => hub ≠ owner && hub ≠ o.localHubId) := by
      rw [mem_sortedBy, List.mem_filter]
      simp [hmem, hother]
    rw [hempty] at hin
    cases hin
  · intro hall
    rw [List.eq_nil_iff_forall_not_mem]
    intro hub hin
    rw [mem_sortedBy, List.mem_filter] at hin
    obtain ⟨hmem, hother⟩ := hin
    simp only [ne_eq, decide_not, Bool.and_eq_true, Bool.not_eq_true', decide_eq_false_iff_not]
      at hother
    rcases hall hub hmem with heq | heq
    · exact hother.1 heq
    · exact hother.2 heq

/-- A hub grants in the namespaces the map gives it, while nobody else claims them. -/
theorem resolve_grantsLocally (o : NamespaceOwnership) (name : String)
    (assertingHubs : List String) :
    (o.resolve name assertingHubs).grantsLocally = true ↔
      o.Assigned name ∧ o.Uncontested assertingHubs := by
  unfold resolve OwnershipDecision.grantsLocally Assigned Uncontested
  cases howner : o.owners.get? name with
  | none => simp
  | some owner =>
    dsimp only
    by_cases hlocal : owner = o.localHubId
    · subst hlocal
      have hempty := o.contesting_isEmpty o.localHubId assertingHubs
      simp only [or_self] at hempty
      rw [← hempty]
      by_cases hfree : (o.contesting o.localHubId assertingHubs).isEmpty = true <;> simp [hfree]
    · have hne : ¬ (some owner = some o.localHubId) := by
        intro h
        exact hlocal (Option.some.inj h)
      simp only [hne, false_and, iff_false]
      split <;> simp

end NamespaceOwnership

end SynapseChannel
