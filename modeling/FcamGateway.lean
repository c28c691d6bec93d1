import FcamGateway.Runs
import FcamGateway.CreditIsolation
import FcamGateway.ForwardAttribution
import FcamGateway.IdempotencyReplay
import FcamGateway.RequestFingerprint
import FcamGateway.IdempotencyOwnership
import FcamGateway.IdempotencyOnce
import FcamGateway.ForwardRefusals
import FcamGateway.ConcurrencyCap
import FcamGateway.LeaseCounter
import FcamGateway.LeaseLife
import FcamGateway.RateLimitAgreement
import FcamGateway.Purge
import FcamGateway.Migration
import FcamGateway.TableCopy
import FcamGateway.AllowListDots
import FcamGateway.ClientAdmin
import FcamGateway.KeyRotation
import FcamGateway.RateLimitPeek
import FcamGateway.RuntimeRestart
import FcamGateway.SchedulingValues
import FcamGateway.ScoreOrder
import FcamGateway.ExploreRotation
import FcamGateway.LogPaging
import FcamGateway.HttpPoolUse
import FcamGateway.CreditDetailsOwned
import FcamGateway.DataPlaneQuota
import FcamGateway.ImportAccounting
import FcamGateway.ImportIdempotence
import FcamGateway.KeyRevival
import FcamGateway.ResponseBlame
import FcamGateway.RateLimitCooling
import FcamGateway.LeaseReturns
import FcamGateway.ResourceBindingMap
import FcamGateway.IdempotencyFidelity
import FcamGateway.IdempotencyRefusals
import FcamGateway.CreditEstimates
import FcamGateway.CreditProbes
import FcamGateway.RequestLogging
import FcamGateway.QuotaClock
import FcamGateway.DashboardChart
import FcamGateway.FailureMemory
import FcamGateway.FailureWindow
import FcamGateway.EnvOverrides
import FcamGateway.DatabaseUrl
import FcamGateway.RedactData
import FcamGateway.UsageRuns
import FcamGateway.KeyLifecycle
import FcamGateway.SharedLimiters
import FcamGateway.RefreshRounds
import FcamGateway.ClientTokens
import FcamGateway.JobStickiness
import FcamGateway.Refusals
