import SynapseChannel.Core.SandboxPolicy
import SynapseChannel.Lib.JsonText

/-!
# Core — SandboxAcl

The manifest as access rules: each grant is one rule whose pattern is the
grant's own text. A rule matches whole targets and knows no write right,
so the two forms part on paths below a grant and on writes.
-/

namespace SynapseChannel.Sandbox

open Py Outcome Acl

def targetFs : String := "fs"

def targetNet : String := "net"

/-- `f"{host}:{port}"`. -/
def endpointText (host : String) (port : Int) : String := host ++ ":" ++ toString port

/-- The grants of a manifest as rules. -/
def toAclRules (manifest : CapabilityManifest) : List AclRule :=
  (manifest.filesystem.map fun grant =>
    { permission := sandbox, targetKind := targetFs, targetPattern := grant.guestPath
      namespace_ := manifest.namespace_
      reason := manifest.toolId ++ " filesystem grant (" ++ grant.perms ++ ")" }) ++
  manifest.network.map fun endpoint =>
    { permission := sandbox, targetKind := targetNet
      targetPattern := endpointText endpoint.host endpoint.port
      namespace_ := manifest.namespace_
      reason := manifest.toolId ++ " network grant" }

/-- The rules allow the target to the subject, in the manifest's namespace. -/
def RulesAllow (manifest : CapabilityManifest) (subject : String) (target : Target) : Prop :=
  (evaluateAccess subject manifest.namespace_ sandbox target (toAclRules manifest)).decision =
    .wouldAllow

/-- The rules allow every path and every endpoint of the request. -/
def AclAllows (manifest : CapabilityManifest) (subject : String) (request : SandboxRequest) :
    Prop :=
  (∀ access ∈ request.filesystem, RulesAllow manifest subject ⟨targetFs, access.1⟩) ∧
    ∀ endpoint ∈ request.network,
      RulesAllow manifest subject ⟨targetNet, endpointText endpoint.1 endpoint.2⟩

/-! ## One access -/

/-- One thing a request asks for. -/
inductive Access where
  | path (guestPath : String) (write : Bool)
  | endpoint (host : String) (port : Int)

def SandboxRequest.accesses (request : SandboxRequest) : List Access :=
  (request.filesystem.map fun access => .path access.1 access.2) ++
    request.network.map fun endpoint => .endpoint endpoint.1 endpoint.2

/-- The manifest's own check lets the access through. -/
def Access.Granted (manifest : CapabilityManifest) : Access → Prop
  | path guestPath write => Covered manifest guestPath write
  | endpoint host port => Listed manifest host port

/-- Some pattern of the manifest matches the access. -/
def Access.Matched (manifest : CapabilityManifest) : Access → Prop
  | path guestPath _ =>
    ∃ grant ∈ manifest.filesystem, fnmatchcase guestPath grant.guestPath = true
  | endpoint host port => ∃ grant ∈ manifest.network,
      fnmatchcase (endpointText host port) (endpointText grant.host grant.port) = true

variable {manifest : CapabilityManifest} {request : SandboxRequest} {subject : String}

theorem rulesAllow_iff {target : Target} : RulesAllow manifest subject target ↔
    (target.kind = targetFs ∧
      ∃ grant ∈ manifest.filesystem, fnmatchcase target.value grant.guestPath = true) ∨
    (target.kind = targetNet ∧ ∃ grant ∈ manifest.network,
      fnmatchcase target.value (endpointText grant.host grant.port) = true) := by
  unfold RulesAllow
  rw [evaluateAccess_allows (by decide)]
  simp only [toAclRules, AclRule.grants, List.mem_append, List.mem_map, or_and_right, exists_or,
    Bool.and_eq_true, Bool.or_eq_true, decide_eq_true_eq]
  refine or_congr ?_ ?_
  · constructor
    · rintro ⟨_, ⟨grant, hgrant, rfl⟩, ⟨⟨-, hkind⟩, -⟩, hmatch⟩
      exact ⟨hkind.symm, grant, hgrant, hmatch⟩
    · rintro ⟨hkind, grant, hgrant, hmatch⟩
      exact ⟨_, ⟨grant, hgrant, rfl⟩, ⟨⟨rfl, hkind.symm⟩, .inr rfl⟩, hmatch⟩
  · constructor
    · rintro ⟨_, ⟨grant, hgrant, rfl⟩, ⟨⟨-, hkind⟩, -⟩, hmatch⟩
      exact ⟨hkind.symm, grant, hgrant, hmatch⟩
    · rintro ⟨hkind, grant, hgrant, hmatch⟩
      exact ⟨_, ⟨grant, hgrant, rfl⟩, ⟨⟨rfl, hkind.symm⟩, .inr rfl⟩, hmatch⟩

theorem aclAllows_iff :
    AclAllows manifest subject request ↔ ∀ access ∈ request.accesses, access.Matched manifest := by
  have hkinds : targetFs ≠ targetNet := by decide
  unfold AclAllows SandboxRequest.accesses
  simp only [rulesAllow_iff, hkinds, hkinds.symm, List.mem_append, or_imp, forall_and,
    List.forall_mem_map, Access.Matched, true_and, false_and, or_false, false_or]

theorem allowed_iff (hdigest : request.contentDigest = manifest.contentDigest)
    (hfits : Fits manifest request) : (authorise manifest request).allowed = true ↔
      ∀ access ∈ request.accesses, access.Granted manifest := by
  rw [authorise_allowed]
  simp only [hdigest, hfits, true_and, and_true, SandboxRequest.accesses, List.mem_append, or_imp,
    forall_and, List.forall_mem_map, Access.Granted]

/-- Each access of the request is told alike by both forms, or each form has one to refuse. -/
def Agreeing (manifest : CapabilityManifest) (request : SandboxRequest) : Prop :=
  (∀ access ∈ request.accesses, access.Granted manifest ↔ access.Matched manifest) ∨
    (∃ access ∈ request.accesses, ¬ access.Granted manifest) ∧
      ∃ access ∈ request.accesses, ¬ access.Matched manifest

theorem agree_iff (hdigest : request.contentDigest = manifest.contentDigest)
    (hfits : Fits manifest request) :
    ((authorise manifest request).allowed = true ↔ AclAllows manifest subject request) ↔
      Agreeing manifest request := by
  rw [allowed_iff hdigest hfits, aclAllows_iff, Agreeing]
  grind

/-! ## Manifests without pattern characters -/

/-- The path is spelled as some grant is. -/
def Spelled (manifest : CapabilityManifest) (guestPath : String) : Prop :=
  ∃ grant ∈ manifest.filesystem, grant.guestPath = guestPath

namespace PlainManifest

variable {guestPath host : String} {write : Bool} {port : Int}

end PlainManifest

end SynapseChannel.Sandbox
