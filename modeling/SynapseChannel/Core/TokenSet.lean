import SynapseChannel.Lib.Digest
import SynapseChannel.Lib.LastWrite

/-!
# Core — TokenSet

Connect tokens with an identifier, a validity window and agent names. The
set in force is the last file that was valid. Instants are of any ordered
ring, in seconds.
-/

namespace SynapseChannel.TokenSet

open Py
open Framing (utf8)

/-- One accepted connect token, identified without its secret. -/
structure TokenEntry (τ : Type) where
  tokenId : String
  digest : String
  agents : Finset String
  notBefore : Option τ
  notAfter : Option τ
deriving DecidableEq

/-- The entries of a valid file: no two of one identifier or one secret. -/
structure Entries (τ : Type) where
  items : List (TokenEntry τ)
  ids : (items.map (·.tokenId)).Nodup
  digests : (items.map (·.digest)).Nodup

variable {τ : Type}

/-- The last checks of `parse_token_set`. -/
def Entries.ofList (items : List (TokenEntry τ)) : Except String (Entries τ) :=
  if hids : (items.map (·.tokenId)).Nodup then
    if hdigests : (items.map (·.digest)).Nodup then .ok ⟨items, hids, hdigests⟩
    else .error "two entries share one secret"
  else .error "token ids must be unique"

/-- `current.get(token_id)` of the entries by identifier. -/
def Entries.get? (entries : Entries τ) (tokenId : String) : Option (TokenEntry τ) :=
  LastWrite.last (fun entry => entry.tokenId == tokenId) entries.items

/-- The token policy of a hub. -/
structure Policy where
  requireExpiry : Bool := false
  maxTokenDays : Option Int := none

/-- The set in force, with the clock that judges it. -/
structure Authenticator (τ : Type) where
  entries : Entries τ
  now : τ
  policy : Policy
  expiryClosesSessions : Bool
  staleCode : Option String := none

/-- What a look at the file finds. -/
inductive Reading (τ : Type) where
  | unchanged
  | missing
  | unsafeFile
  | invalid
  | valid (entries : Entries τ)

/-- Reload the file if it changed; keep the current set if it fails. -/
def Authenticator.refresh (a : Authenticator τ) : Reading τ → Authenticator τ
  | .unchanged => a
  | .missing => { a with staleCode := some "missing" }
  | .unsafeFile => { a with staleCode := some "unsafe" }
  | .invalid => { a with staleCode := some "invalid" }
  | .valid entries => { a with entries := entries, staleCode := none }

/-- The verdict on one presented connect token. -/
structure TokenOutcome (τ : Type) where
  ok : Bool
  reason : String
  principal : Option String
  tokenId : Option String
  code : String
  entry : Option (TokenEntry τ) := none

section
variable [CommRing τ] [LinearOrder τ]

/-- Why the policy refuses `entry` at `now`. -/
def Policy.refusal (policy : Policy) (entry : TokenEntry τ) (now : τ) : Option String :=
  if policy.requireExpiry && entry.notAfter.isNone then
    some ("Connect token '" ++ entry.tokenId ++
      "' has no end of validity, which this hub requires.")
  else
    match policy.maxTokenDays with
    | none => none
    | some days =>
      let long := match entry.notAfter with
        | none => true
        | some notAfter => decide (((days * 86400 : Int) : τ) < notAfter - now)
      if long then
        some ("Connect token '" ++ entry.tokenId ++ "' stays valid for more than " ++
          toString days ++ " days, longer than this hub allows.")
      else none

namespace Authenticator

variable (a : Authenticator τ)

/-- Why an entry admits no connection of `agent` now: the reason and its code. -/
def refusal (entry : TokenEntry τ) (agent : String) : Option (String × String) :=
  if entry.notBefore.any fun notBefore => decide (a.now < notBefore) then
    some ("Connect token '" ++ entry.tokenId ++ "' is not yet valid.", "not_yet_valid")
  else if entry.notAfter.any fun notAfter => decide (notAfter ≤ a.now) then
    some ("Connect token '" ++ entry.tokenId ++ "' has expired.", "expired")
  else if entry.agents ≠ ∅ ∧ agent ∉ entry.agents then
    some ("Token is not authorised for agent '" ++ agent ++ "'.", "agent_not_bound")
  else (a.policy.refusal entry a.now).map fun reason => (reason, "policy")

/-- Whether `entry` is the token of `held`, names the agent, has begun and
meets the policy. -/
def stillAdmits (entry held : TokenEntry τ) (agent : String) : Bool :=
  entry.digest == held.digest && (entry.agents = ∅ || decide (agent ∈ entry.agents)) &&
    !(entry.notBefore.any fun notBefore => decide (a.now < notBefore)) &&
    (a.policy.refusal entry a.now).isNone

variable [Builtins]

omit [CommRing τ] [LinearOrder τ] in
/-- The token-set digest of a secret. -/
def connectTokenDigest (secret : String) : String :=
  Builtins.sha256Hex (utf8 "synapse-channel:connect-token:v1\x00" ++ utf8 secret)

omit [CommRing τ] [LinearOrder τ] in
def quotaPrincipal (secret : String) : String :=
  "auth-token:" ++
    Builtins.sha256Hex (utf8 "synapse-channel:claim-quota-principal:v1\x00" ++ utf8 secret)

/-- Authenticate against the set in force. -/
def authenticateOutcome (token agent : String) : TokenOutcome τ :=
  if token = "" then
    ⟨false, "Authentication token required.", none, none, "missing", none⟩
  else
    match a.entries.items.find? fun entry => entry.digest == connectTokenDigest token with
    | none => ⟨false, "Invalid authentication token.", none, none, "unknown", none⟩
    | some matched =>
      match a.refusal matched agent with
      | some (reason, code) => ⟨false, reason, none, some matched.tokenId, code, none⟩
      | none =>
        ⟨true, "Authenticated.", some (quotaPrincipal token), some matched.tokenId, "admitted",
          some matched⟩

end Authenticator

end

end SynapseChannel.TokenSet
