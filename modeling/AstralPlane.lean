import AstralPlane.WorkAdmission.Queue
import AstralPlane.WorkAdmission.Lease
import AstralPlane.WorkAdmission.Retention
import AstralPlane.Outbox.AuditDelivery
import AstralPlane.Authority.Replay
import AstralPlane.Database.Outcome
import AstralPlane.Audit.Retained
import AstralPlane.Reconciliation.Hooks
import AstralPlane.StopEpochs.KillSwitch
import AstralPlane.Scheduler.Ledger
import AstralPlane.Scheduler.Due
import AstralPlane.MeshEnrollment.Epochs
import AstralPlane.Boot.SingleFlight
import AstralPlane.BlobStore.OwnerLocks
import AstralPlane.Purge.Absence
import AstralPlane.Materialization.Lifecycle
import AstralPlane.Maintenance.Lifecycle
import AstralPlane.Push.Progress
import AstralPlane.Preferences.Feedback
import AstralPlane.CapabilityPublications
import AstralPlane.OfflineGrants
import AstralPlane.Preimages
