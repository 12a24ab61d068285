import Warphold.Proofs.Isolation
import Warphold.Proofs.CompleteIndex
import Warphold.Proofs.Enrollment
import Warphold.Proofs.Revocation
import Warphold.Proofs.PasswordChange
import Warphold.Proofs.Activation
import Warphold.Proofs.Provisioning
import Warphold.Proofs.PutIntegrity
import Warphold.Proofs.PackDeletion
import Warphold.Proofs.SnapshotGC
import Warphold.Proofs.Scheduling
import Warphold.Proofs.MirrorRaces
import Warphold.Proofs.HostileIndex
import Warphold.Proofs.CompactionView
import Warphold.Proofs.EpochMarkers
import Warphold.Proofs.Retention
import Warphold.Proofs.RewriteDelay
import Warphold.Proofs.CommandDelivery
import Warphold.Proofs.ManifestMap
import Warphold.Proofs.ManifestDeletion
import Warphold.Proofs.Rollback
import Warphold.Proofs.UpgradeLock
import Warphold.Proofs.ObjectVerify
import Warphold.Object.Names
import Warphold.Proofs.IgnoreRules
import Warphold.Proofs.RestoreRuns
import Warphold.Proofs.RestoreTarget
import Warphold.Proofs.PolicyTree
import Warphold.Proofs.Rewriting
import Warphold.Proofs.UploadTree
import Warphold.Proofs.EccRoundTrip
import Warphold.Proofs.PackRecovery
import Warphold.Proofs.Pagination
import Warphold.Proofs.Resealing
import Warphold.Proofs.ContentListing
import Warphold.Proofs.PackInvariants
import Warphold.Proofs.RangeIteration
import Warphold.Proofs.ClientLimits
import Warphold.Proofs.AgentStatus
import Warphold.Proofs.KitCommands
import Warphold.Proofs.DigestJobs
import Warphold.Proofs.AdminRemoval
import Warphold.Proofs.PolicyDefinitions
import Warphold.Proofs.Schedule
import Warphold.Proofs.DirBuilder
import Warphold.Proofs.LockUpdates
import Warphold.Proofs.LongestRange
