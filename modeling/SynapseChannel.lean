import SynapseChannel.Core.MutualExclusion
import SynapseChannel.Multihub.Agreement
import SynapseChannel.Core.Deadlock
import SynapseChannel.Core.StateTransaction
import SynapseChannel.Core.PlanDag
import SynapseChannel.Core.SpendBasis
import SynapseChannel.Core.ForwardOnce
import SynapseChannel.Core.OutboxSettlement
import SynapseChannel.Core.ReceiptOutbox
import SynapseChannel.Core.ChatOnce
import SynapseChannel.Core.ReplayGuard
import SynapseChannel.Core.CustodyExclusive
import SynapseChannel.Multihub.OneGrantor
import SynapseChannel.Multihub.ForwardedGrant
import SynapseChannel.Multihub.PartitionEvidence
import SynapseChannel.Multihub.TwoPersonRelay
import SynapseChannel.Core.NameLeases
import SynapseChannel.Core.MerkleCheckpoint
import SynapseChannel.Core.VerdictGate
import SynapseChannel.Core.RowAuthenticity
import SynapseChannel.Core.StoredScopes
import SynapseChannel.Core.LeaseExpiry
import SynapseChannel.Core.ChannelPrivacy
import SynapseChannel.Core.SessionEnds
import SynapseChannel.Core.ClaimQuota
import SynapseChannel.Core.VersionGuard
import SynapseChannel.Core.DeliverySweep
import SynapseChannel.Core.DeliveryNotices
import SynapseChannel.Core.AefSth
import SynapseChannel.Core.SpendMigration
import SynapseChannel.Core.ClaimHolderPresence
import SynapseChannel.Multihub.CausalFederation
import SynapseChannel.Core.DependencyEdges
import SynapseChannel.Core.VerdictFold
import SynapseChannel.Core.VersionResolution
import SynapseChannel.Core.RateLimit
import SynapseChannel.Core.WorkflowDriver
import SynapseChannel.Core.StreamReassembly
import SynapseChannel.Core.JournalRecovery
import SynapseChannel.Core.DurableIngress
import SynapseChannel.Core.ReadyDispatch
import SynapseChannel.Core.IdentityPins
import SynapseChannel.Core.ProgressRetention
import SynapseChannel.Multihub.FingerprintContent
import SynapseChannel.Core.SandboxAcl
