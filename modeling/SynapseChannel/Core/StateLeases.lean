import SynapseChannel.Lib.Tuple
import SynapseChannel.Core.StateModels

/-!
# Core — StateLeases

The lease-expiry heap of the coordination state. Superseded entries stay
in it until their expiry is reached or churn forces a rebuild.
-/

namespace SynapseChannel

open Py

/-- Slack before the lease heap is rebuilt to shed superseded entries. -/
def leaseHeapCompactFloor : Nat := 16

/-- Expiry, task and epoch; entries compare as tuples. -/
abbrev LeaseEntry := TimeKey

def leaseEntry (task : String) (claim : TaskClaim) : LeaseEntry :=
  (claim.leaseExpiresAt, task, claim.epoch)

/-- The min-heap used to expire task leases. -/
structure LeaseIndex where
  entries : Array LeaseEntry := #[]

namespace LeaseIndex

/-- Rebuild the heap from the live claims. -/
def rebuild (claims : Dict String TaskClaim) : LeaseIndex where
  entries := Heapq.heapify keyLt (claims.items.map fun e => leaseEntry e.1 e.2).toArray

/-- Index a claim lease, and compact the heap when renewal churn has
grown it. -/
def track (index : LeaseIndex) (claim : TaskClaim) (claims : Dict String TaskClaim) :
    LeaseIndex :=
  let entries := Heapq.heappush keyLt index.entries (leaseEntry claim.taskId claim)
  if entries.size > 2 * claims.items.length + leaseHeapCompactFloor then rebuild claims
  else { entries }

/-- The due entries, stale ones included, in heap order, and the index
without them. -/
def popDue (index : LeaseIndex) (now : Float) : List LeaseEntry × LeaseIndex :=
  let r := Heapq.popWhile keyLt (fun e => e.1 ≤ now) index.entries.size index.entries
  (r.1, ⟨r.2⟩)

end LeaseIndex

end SynapseChannel
