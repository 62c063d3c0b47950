import SynapseChannel.Lib.Text

/-!
# Core — HubAddress

Names of seats on other hubs: `seat@hub_id`.
-/

namespace SynapseChannel.Forward

open Py

/-- `[A-Za-z0-9][A-Za-z0-9._-]{0,63}`. -/
def isValidHubId (value : String) : Bool :=
  match value.toList with
  | [] => false
  | c :: rest =>
    c.isAlphanum && rest.all (fun d => d.isAlphanum || ['.', '_', '-'].contains d) &&
      decide (rest.length ≤ 63)

/-- A seat name bound to the hub that hosts it. -/
structure HubQualifiedAddress where
  seat : String
  hubId : String

def HubQualifiedAddress.text (address : HubQualifiedAddress) : String :=
  address.seat ++ "@" ++ address.hubId

/-- Split `seat@hub_id` at its last separator. -/
def parseHubQualified (value : String) : Option HubQualifiedAddress :=
  match afterLast value "@" with
  | none => none
  | some hubId =>
    let seat := String.ofList (value.toList.take (len value - len hubId - 1))
    if seat = "" ∨ isValidHubId hubId = false then none
    else if seat.toList.contains '@' ∨ 256 < len seat then none
    else if seat ≠ strip seat ∨ seat.toList.any fun c => c.toNat < 0x20 || c.toNat == 0x7f then
      none
    else some ⟨seat, hubId⟩

/-- How a receiving hub names a sender that arrived from `originHub`. -/
def federatedSender (sender originHub : String) : String := sender ++ "@" ++ originHub

end SynapseChannel.Forward
