import TelemetryTriggers.Main
import TelemetryTriggers.Exchange.Rows
import TelemetryTriggers.Saga.Timeline
import TelemetryTriggers.Proofs.Naming
import TelemetryTriggers.Proofs.Spelling
import TelemetryTriggers.Proofs.Deployments
import TelemetryTriggers.Proofs.Services.Broker
import TelemetryTriggers.Proofs.Saga.Alone
import TelemetryTriggers.Proofs.Recovery
import TelemetryTriggers.Proofs.Recognition
import TelemetryTriggers.Proofs.Convergence
import TelemetryTriggers.Proofs.Orchestrator.Names
import TelemetryTriggers.Proofs.Saga.Undo
import TelemetryTriggers.Proofs.Lifecycle.CreateFailure
import TelemetryTriggers.Proofs.Lifecycle.CreateSuccess
import TelemetryTriggers.Proofs.Lifecycle.Create
import TelemetryTriggers.Proofs.Lifecycle.Recovered
import TelemetryTriggers.Proofs.Orchestrator.Discipline
import TelemetryTriggers.Proofs.Orchestrator.Provisioned
import TelemetryTriggers.Proofs.Orchestrator.Holding
import TelemetryTriggers.Proofs.Orchestrator.Creation
import TelemetryTriggers.Proofs.Orchestrator.Operations
import TelemetryTriggers.Proofs.Orchestrator.Sweeping
import TelemetryTriggers.Proofs.Orchestrator.Committed
import TelemetryTriggers.Proofs.Orchestrator.SweepSafety
import TelemetryTriggers.Proofs.Lifecycle.Deletion
import TelemetryTriggers.Proofs.Orchestrator.Retries
import TelemetryTriggers.Proofs.Lifecycle.TargetChanges
import TelemetryTriggers.Proofs.Orchestrator.Runs
import TelemetryTriggers.Proofs.Registry.Spec
import TelemetryTriggers.Proofs.Registry.Image
import TelemetryTriggers.Proofs.Registry.Removal
import TelemetryTriggers.Proofs.Registry.Growth
import TelemetryTriggers.Proofs.Registry.Refinement
import TelemetryTriggers.Proofs.Orchestrator.Confined
import TelemetryTriggers.Proofs.Orchestrator.ConfinedWork
import TelemetryTriggers.Proofs.Orchestrator.Stages
import TelemetryTriggers.Proofs.Orchestrator.Interleaving
import TelemetryTriggers.Proofs.Orchestrator.Courses
import TelemetryTriggers.Proofs.Orchestrator.Serializability
import TelemetryTriggers.Proofs.Saga.Keep
import TelemetryTriggers.Proofs.Saga.Harm
import TelemetryTriggers.Proofs.Services.Pairing
import TelemetryTriggers.Proofs.Orchestrator.Serving
import TelemetryTriggers.Proofs.Orchestrator.ServingWork
import TelemetryTriggers.Proofs.Orchestrator.Phases
import TelemetryTriggers.Proofs.Orchestrator.InStep
import TelemetryTriggers.Proofs.Orchestrator.Notification
import TelemetryTriggers.Proofs.Lifecycle.OneTrigger
import TelemetryTriggers.Proofs.Selection
import TelemetryTriggers.Proofs.Registry.Accounts
import TelemetryTriggers.Proofs.Orchestrator.OneDeletion
import TelemetryTriggers.Proofs.Orchestrator.Insertion
import TelemetryTriggers.Proofs.Orchestrator.Snapshot
import TelemetryTriggers.Proofs.Orchestrator.TargetLimit
import TelemetryTriggers.Proofs.Saga.Abandonment
import TelemetryTriggers.Proofs.Orchestrator.Abandonment
import TelemetryTriggers.Proofs.Crossings
import TelemetryTriggers.Proofs.Orchestrator.Exclusion
import TelemetryTriggers.Proofs.Orchestrator.Tally
import TelemetryTriggers.Proofs.Purging
import TelemetryTriggers.Proofs.Scenario.Account
import TelemetryTriggers.Proofs.Services.FaultPlan
import TelemetryTriggers.Proofs.Lifecycle.TargetAddition
import TelemetryTriggers.Proofs.Decimal.Rounding
import TelemetryTriggers.Proofs.Decimal.RoundTrip
import TelemetryTriggers.Proofs.Unambiguity
import TelemetryTriggers.Proofs.Saga.Transcript
import TelemetryTriggers.Proofs.Lifecycle.CreateOrder
import TelemetryTriggers.Proofs.Transitions
import TelemetryTriggers.Proofs.Services.Dispatch
import TelemetryTriggers.Proofs.Requests.Validation
import TelemetryTriggers.Proofs.Services.Rows
import TelemetryTriggers.Proofs.Services.Resources
import TelemetryTriggers.Proofs.Saga.Unwinding
