import FreeSdn.Lib.Json
import FreeSdn.Lib.JsonText
import FreeSdn.Lib.Dictionary
import FreeSdn.Lib.Decimal
import FreeSdn.Lib.Except
import FreeSdn.Lib.Program
import FreeSdn.Lib.Run
import FreeSdn.Lib.Table
import FreeSdn.Lib.Text
import FreeSdn.Lib.Pattern
import FreeSdn.Lib.Utc
import FreeSdn.Lib.OrderBy
import FreeSdn.Lib.HashChain
import FreeSdn.Staging.Change
import FreeSdn.Proxmox.Tasks
import FreeSdn.Proxmox.Readback
import FreeSdn.Proxmox.Observe
import FreeSdn.Staging.Validation
import FreeSdn.Staging.Outcome
import FreeSdn.Staging.Classification
import FreeSdn.Staging.Service
import FreeSdn.Staging.World
import FreeSdn.Staging.Moves
import FreeSdn.Staging.Dispatch
import FreeSdn.Staging.Segments
import FreeSdn.Staging.Exclusion
import FreeSdn.Staging.Observation
import FreeSdn.Hypervisor.Operations
import FreeSdn.Hypervisor.Submissions
import FreeSdn.Hypervisor.Idempotency
import FreeSdn.Hypervisor.Sizes
import FreeSdn.Hypervisor.Payloads
import FreeSdn.Hypervisor.Firewall
import FreeSdn.Hypervisor.FirewallEffect
import FreeSdn.Hypervisor.Creation
import FreeSdn.Hypervisor.CreationEvidence
import FreeSdn.Hypervisor.GuestChanges
import FreeSdn.Hypervisor.GuestPersistence
import FreeSdn.Audit.State
import FreeSdn.Audit.Codec
import FreeSdn.Audit.Record
import FreeSdn.Audit.Chain
import FreeSdn.Audit.Ledger
import FreeSdn.Audit.Continuity
import FreeSdn.Audit.Windows
import FreeSdn.Audit.Evidence
import FreeSdn.Sla.Delivery
import FreeSdn.Sla.Outbox
import FreeSdn.Sla.Breaches
import FreeSdn.Sla.Hysteresis
import FreeSdn.Lib.Lease
import FreeSdn.Fabric.Negotiator
import FreeSdn.Fabric.Firing
import FreeSdn.Fabric.Echo
import FreeSdn.Fabric.Patterns
import FreeSdn.Fabric.Chain
import FreeSdn.Fabric.Templates
import FreeSdn.Backup.Restore
import FreeSdn.Backup.Tenancy
import FreeSdn.Remote.Intent
import FreeSdn.Remote.Journal
import FreeSdn.Collector.Flush
import FreeSdn.Collector.Netflow
import FreeSdn.Collector.Templates
import FreeSdn.Collector.Exporter
import FreeSdn.Adapters.Pool
import FreeSdn.Adapters.Breaker
import FreeSdn.Adapters.Accounting
import FreeSdn.Adapters.Leases
import FreeSdn.Adapters.Invalidation
import FreeSdn.Artifact.Marker
import FreeSdn.Artifact.Directory
import FreeSdn.Artifact.Lease
import FreeSdn.Artifact.Answers
import FreeSdn.Artifact.Safety
import FreeSdn.Artifact.Store
import FreeSdn.Artifact.Custody
import FreeSdn.Lib.Rely
import FreeSdn.Releases.Owners
import FreeSdn.Releases.Promises
import FreeSdn.Releases.Decided
import FreeSdn.Releases.Retention
import FreeSdn.Releases.Ownership
import FreeSdn.Releases.Record
import FreeSdn.Releases.Request
import FreeSdn.Releases.Journal
import FreeSdn.Releases.Steps
import FreeSdn.Releases.Lifecycle
import FreeSdn.Releases.Capacity
import FreeSdn.Releases.Upload
import FreeSdn.Automation.Conditions
import FreeSdn.Automation.Engine
import FreeSdn.Automation.Isolation
import FreeSdn.Automation.Histories
import FreeSdn.Automation.Subscriptions
import FreeSdn.Lib.Gregorian
import FreeSdn.Lib.Zone
import FreeSdn.Sla.Calendar
import FreeSdn.Sla.NextRun
import FreeSdn.Correlation.Matching
import FreeSdn.Correlation.Incidents
import FreeSdn.Correlation.Bookkeeping
import FreeSdn.Correlation.Verdict
import FreeSdn.Backup.Accounts
import FreeSdn.Backup.Core
import FreeSdn.Backup.CoreSteps
import FreeSdn.Backup.Coherence
import FreeSdn.Lib.Lockstep
import FreeSdn.Backup.Identities
import FreeSdn.Backup.Agreement
import FreeSdn.Backup.Grants
import FreeSdn.Backup.Preview
import FreeSdn.Backup.Authority
import FreeSdn.Lib.TwoKeys
import FreeSdn.Backup.VaultGrants
import FreeSdn.Backup.VaultRestore
import FreeSdn.Backup.VaultErrors
import FreeSdn.Backup.VaultAuthority
import FreeSdn.Backup.TopologicalOrder
import FreeSdn.Backup.Dispatch
import FreeSdn.Security.TargetHost
import FreeSdn.Security.Redaction
import FreeSdn.Lib.Utf8
import FreeSdn.Lib.Ber
import FreeSdn.Collector.SnmpTrap
import FreeSdn.Collector.TrapMessage
import FreeSdn.Collector.TrapDecoding
import FreeSdn.Collector.TrapAcceptance
import FreeSdn.Collector.RateCap
import FreeSdn.Collector.Classifier
import FreeSdn.Gateway.Vlans
import FreeSdn.Gateway.Import
import FreeSdn.Gateway.ImportLoop
import FreeSdn.Gateway.Idempotence
import FreeSdn.Gateway.Alignment
import FreeSdn.Gateway.Orphans
import FreeSdn.Gateway.Offline
import FreeSdn.Gateway.Limbs
import FreeSdn.Gateway.Plans
import FreeSdn.Gateway.Retraction
import FreeSdn.Gateway.Execution
import FreeSdn.Gateway.Compensation
import FreeSdn.Gateway.DhcpDrift
import FreeSdn.Gateway.Derived
import FreeSdn.Lib.Dyadic
import FreeSdn.Lib.Pairs
import FreeSdn.Vpn.RouteConflicts
import FreeSdn.Lib.Decoder
import FreeSdn.Backup.Gunzip
import FreeSdn.Vpn.Reconnect
import FreeSdn.Signing.Storage
import FreeSdn.Signing.Journal
import FreeSdn.Tokens.Revocations
import FreeSdn.Signing.Activation
