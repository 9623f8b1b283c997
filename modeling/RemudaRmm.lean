import RemudaRmm.Billing.ContractRenewal
import RemudaRmm.Billing.QuoteMath
import RemudaRmm.Billing.StripeCapture
import RemudaRmm.Billing.StripeRefund
import RemudaRmm.Billing.QuoteConversion
import RemudaRmm.Billing.InvoiceNumbering
import RemudaRmm.Agents.AgentReconnects
import RemudaRmm.Agents.CommandDelivery
import RemudaRmm.Auth.Logout
import RemudaRmm.Security.UrlSafety
import RemudaRmm.Security.SecretCrypto
import RemudaRmm.Security.DlpRedaction
import RemudaRmm.Devices.PatchSafety
import RemudaRmm.Backup.ChangedFiles
import RemudaRmm.Backup.Vault
import RemudaRmm.Agents.ResultTransports
import RemudaRmm.Auth.AccountLockout
import RemudaRmm.Endpoint.IpcDelivery
import RemudaRmm.Endpoint.IpcAdversary
import RemudaRmm.Endpoint.TunnelRuns
import RemudaRmm.Endpoint.TunnelGate
import RemudaRmm.Endpoint.WorkerPool
import RemudaRmm.Auth.SlidingWindow
import RemudaRmm.Deployments.DeploymentJobs
import RemudaRmm.Deployments.DeploymentCancel
import RemudaRmm.Tickets.TimeEntryRuns
import RemudaRmm.Tickets.TicketTenancy
import RemudaRmm.Tickets.BilledWork
import RemudaRmm.Recovery.DrOrder
import RemudaRmm.Recovery.DrSleep
import RemudaRmm.Approvals.ApprovalRuns
import RemudaRmm.Devices.PatchFanOut
import RemudaRmm.Billing.ContractCancels
import RemudaRmm.Endpoint.UpdaterFailures
import RemudaRmm.Audit.AuditTamper
import RemudaRmm.Audit.HonestAudit
import RemudaRmm.Discovery.TopologyAgeOut
import RemudaRmm.Policies.BatchAgreement
import RemudaRmm.Groups.MembershipAlone
import RemudaRmm.Groups.PinnedMembers
import RemudaRmm.Enrollment.EnrollmentLimits
import RemudaRmm.Alerts.EvaluationTurns
import RemudaRmm.Baselines.ScanSchedule
import RemudaRmm.Agents.OfflineDetector
import RemudaRmm.Logging.LogShipper
import RemudaRmm.Endpoint.DropIntegrity
import RemudaRmm.Baselines.BaselineStability
import RemudaRmm.Alerts.Suppression
import RemudaRmm.Alerts.OneOpenAlert
import RemudaRmm.Approvals.ElevationRuns
import RemudaRmm.Alerts.MonitorRuns
import RemudaRmm.BackupServer.DispatchRuns
import RemudaRmm.BackupServer.ProtectionRuns
import RemudaRmm.BackupServer.RetentionFaults
import RemudaRmm.BackupServer.RetentionVersions
import RemudaRmm.Policies.TimeWindows
import RemudaRmm.Security.DetectorArithmetic
import RemudaRmm.Security.CardDetector
import RemudaRmm.Approvals.PamRuleEngine
import RemudaRmm.Devices.VersionOrder
import RemudaRmm.Audit.AgentLog
import RemudaRmm.Approvals.PathGlob
import RemudaRmm.Billing.PeriodTiling
import RemudaRmm.Policies.CronMatching
import RemudaRmm.Endpoint.TerminalStream
