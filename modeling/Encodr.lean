import Encodr.Lib.Files
import Encodr.Lib.Transition
import Encodr.Lib.Table
import Encodr.Lib.Result
import Encodr.Lib.Sessions
import Encodr.Lib.Recount
import Encodr.Lib.Versions
import Encodr.Lib.Like
import Encodr.Lib.Pages
import Encodr.Python.Path
import Encodr.Python.Text
import Encodr.Python.PathText
import Encodr.Python.Ancestry
import Encodr.Python.Json
import Encodr.Planning.Models
import Encodr.Replacement.Service
import Encodr.Replacement.Endings
import Encodr.Replacement.Outcome
import Encodr.Replacement.Survival
import Encodr.Replacement.Failure
import Encodr.Replacement.Success
import Encodr.Media.Models
import Encodr.Config.Rules
import Encodr.Config.Policy
import Encodr.Planning.Selection
import Encodr.Planning.Planner
import Encodr.Planning.Rules
import Encodr.Planning.Profiles
import Encodr.Planning.Compliance
import Encodr.Planning.Choice
import Encodr.Planning.Selected
import Encodr.Planning.AudioPartition
import Encodr.Media.Normalise
import Encodr.Execution.BackendSelection
import Encodr.Execution.RuntimeStatus
import Encodr.Execution.FfmpegBuilder
import Encodr.Execution.Metrics
import Encodr.Execution.Safety
import Encodr.Verification.Rules
import Encodr.Verification.Essential
import Encodr.Db.Models
import Encodr.Db.BackupPolicy
import Encodr.Db.JobRows
import Encodr.Db.Scheduling
import Encodr.Db.Openings
import Encodr.Db.FileQueries
import Encodr.Db.Database
import Encodr.Db.JobRepository
import Encodr.Db.Evolution
import Encodr.Db.BackupListing
import Encodr.Worker.Execution
import Encodr.Worker.LoopControl
import Encodr.Worker.Analysis
import Encodr.Api.PathSafety
import Encodr.Api.PathMappings
import Encodr.Api.DeepestMapping
import Encodr.Api.WorkerSuffix
import Encodr.Api.PayloadPaths
import Encodr.Api.FolderListing
import Encodr.Api.Setup
import Encodr.Api.Runnability
import Encodr.Api.Plans
import Encodr.Api.Jobs
import Encodr.Api.Review
import Encodr.Api.Workers
import Encodr.Api.Registration
import Encodr.Api.Orchestration
import Encodr.Api.ScheduleRefresh
import Encodr.Api.Dispatch
import Encodr.Backups.Service
import Encodr.Backups.Cleanup
import Encodr.Backups.ArtefactNames
import Encodr.Api.Library
import Encodr.Db.Telemetry
import Encodr.System.Machine
import Encodr.System.Moves
import Encodr.System.Invariant
import Encodr.System.Steps
import Encodr.System.LocalLoop
import Encodr.System.RefusedCancel
import Encodr.System.Exclusion
import Encodr.System.Statuses
import Encodr.System.Cancellation
import Encodr.System.Retries
import Encodr.System.Verified
import Encodr.System.Replaced
import Encodr.System.ReviewGate
import Encodr.Execution.IdealEncoder
import Encodr.Execution.IdealOutput
import Encodr.Verification.Completeness
import Encodr.Planning.Reselection
import Encodr.Execution.Convergence
import Encodr.System.Overlap
import Encodr.System.Telemetry
import Encodr.Auth.RefreshTokens
import Encodr.Api.BulkEnd
import Encodr.Api.BulkSelection
import Encodr.Api.BulkLedger
import Encodr.Python.Integer
import Encodr.Python.JsonText
import Encodr.Media.ProbeStreams
import Encodr.Media.ProbeParser
import Encodr.Api.Preferences
