import Ceo.Lib.Transition
import Ceo.Lib.Guard
import Ceo.Lib.Decimal
import Ceo.Lib.Pattern
import Ceo.Jobs.Immutable
import Ceo.Jobs.Passed
import Ceo.Jobs.Readers
import Ceo.Jobs.Listing
import Ceo.Jobs.Cancel
import Ceo.Jobs.Closure
import Ceo.Jobs.Readable
import Ceo.Workspace.Exclusion
import Ceo.Connector.Daemon
import Ceo.Connector.Claims
import Ceo.Attempt.Pending
import Ceo.Jobs.Fence
import Ceo.Jobs.Coordinator
import Ceo.Jobs.Managed
import Ceo.Jobs.Listed
import Ceo.Jobs.DeviceList
import Ceo.Attempt.Validators
import Ceo.Attempt.ManagedResult
import Ceo.Resource.Deliver
import Ceo.Resource.Unique
import Ceo.Jobs.StatusFilter
import Ceo.Jobs.PendingPoll
import Ceo.Resource.MetaDocument
import Ceo.Workspace.Git
import Ceo.Attempt.LaunchEvidence
import Ceo.Attempt.LockScope
import Ceo.Resource.Timestamps
import Ceo.Connector.RepoIdentity
import Ceo.Resource.Naming
import Ceo.Resource.Identity
import Ceo.Attempt.TargetGuard
import Ceo.Attempt.Preserved
import Ceo.Connector.ConfigWrites
import Ceo.Connector.ConfigMigration
import Ceo.Workspace.Visibility
import Ceo.OAuth.Metadata
import Ceo.Connector.Eligibility
import Ceo.Connector.ShellProfile
import Ceo.Connector.LoginRecovery
import Ceo.OAuth.Tokens
import Ceo.Connector.Authority
import Ceo.Connector.TargetRuns
import Ceo.Jobs.Submitted
import Ceo.Workspace.Apply
