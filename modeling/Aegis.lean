import Aegis.Remediation.Duties
import Aegis.Temporal.Dispatcher
import Aegis.Temporal.RemediationApproval
import Aegis.Temporal.RemediationVerification
import Aegis.Temporal.SandboxCleanup
import Aegis.Remediation.Executions
import Aegis.Remediation.Compensations
import Aegis.Remediation.Kubernetes
import Aegis.Remediation.Plans
import Aegis.Ledgers
import Aegis.Interop.Circuit
import Aegis.Quotas
import Aegis.Interop.Parts
import Aegis.Interop.Replays
import Aegis.Interop.Provenance
import Aegis.Interop.Settlement
import Aegis.Interop.Submissions
import Aegis.Interop.Listings
import Aegis.Interop.Discovery
import Aegis.Temporal.Interop
import Aegis.Temporal.Evidence
import Aegis.Evidence.Vault
import Aegis.Evidence.Structures
import Aegis.Evidence.Dispositions
import Aegis.Access.KeyCache
import Aegis.Canonical
import Aegis.Memory.Context
import Aegis.Memory.Vectors
import Aegis.Model.Rates
import Aegis.Sandbox.Archives
import Aegis.Durability.Timeline
import Aegis.Orchestration.Merge
import Aegis.Memory.Isolation
import Aegis.Model.Policies
