import SynapseChannel.Lib.Fnmatch

/-!
# Core — Acl

Deny-by-default access rules: one verb on one kind of target, a pattern
for the target's value and a namespace. The first rule that matches
allows.
-/

namespace SynapseChannel.Acl

open Py

def sandbox : String := "sandbox"

/-- The permission vocabulary a rule may grant. -/
def permissions : List String :=
  ["message", "claim", "release", "board", "metrics", "dashboard", "a2a", "namespace", sandbox,
    "observe", "mailbox", "role-claim", "identity-pin-reclaim", "identity-enroll",
    "entitlement-advertise", "evidence", "recall", "delivery-control", "attachment-read",
    "attachment-write", "attachment-admin"]

inductive AclVerdict where
  | wouldAllow
  | wouldDeny
deriving DecidableEq

structure Target where
  kind : String
  value : String

structure AclRule where
  permission : String
  targetKind : String
  targetPattern : String
  namespace_ : String := ""
  reason : String := ""

/-- The rule grants `permission` on `target`. -/
def AclRule.grants (rule : AclRule) (project permission : String) (target : Target) : Bool :=
  rule.permission = permission && rule.targetKind = target.kind &&
    (rule.namespace_ = "" || rule.namespace_ = project) &&
    fnmatchcase target.value rule.targetPattern

structure AclDecision where
  decision : AclVerdict
  subject : String
  permission : String
  target : Target
  reason : String
  matchedRule : Option Nat := none

/-- The shadow decision for one access request. -/
def evaluateAccess (subject project permission : String) (target : Target) (rules : List AclRule) :
    AclDecision :=
  if permission ∉ permissions then
    { decision := .wouldDeny, subject, permission, target
      reason := s!"unknown permission '{permission}'" }
  else
    match rules.zipIdx.find? fun entry => entry.1.grants project permission target with
    | some (rule, index) =>
      { decision := .wouldAllow, subject, permission, target
        reason := if rule.reason = "" then s!"granted by rule {index}" else rule.reason
        matchedRule := some index }
    | none =>
      { decision := .wouldDeny, subject, permission, target
        reason := "no rule grants this access (deny by default)" }

/-- A request with a verb of the vocabulary is allowed exactly when some rule grants it. -/
theorem evaluateAccess_allows {subject project permission : String} {target : Target}
    {rules : List AclRule} (h : permission ∈ permissions) :
    (evaluateAccess subject project permission target rules).decision = .wouldAllow ↔
      ∃ rule ∈ rules, rule.grants project permission target = true := by
  unfold evaluateAccess
  rw [if_neg (not_not_intro h)]
  constructor
  · intro hallow
    split at hallow
    · next rule index hfind =>
      have hmem := List.mem_of_find?_eq_some hfind
      exact ⟨rule, List.fst_mem_of_mem_zipIdx hmem, by simpa using List.find?_some hfind⟩
    · cases hallow
  · rintro ⟨rule, hrule, hgrants⟩
    split
    · rfl
    · next hnone =>
      obtain ⟨index, hindex, rfl⟩ := List.mem_iff_getElem.mp hrule
      have hmem : (rules[index], index) ∈ rules.zipIdx := by
        rw [List.mk_mem_zipIdx_iff_getElem?]
        exact List.getElem?_eq_getElem hindex
      exact absurd hgrants (List.find?_eq_none.mp hnone _ hmem)

end SynapseChannel.Acl
