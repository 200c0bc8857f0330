import SingleFlight.Action
import SingleFlight.Cancellation
import SingleFlight.Channel
import SingleFlight.Decimal.Binary64
import SingleFlight.Decimal.Reading
import SingleFlight.Decimal.Shortest
import SingleFlight.Duration
import SingleFlight.Failure
import SingleFlight.Files
import SingleFlight.Flight
import SingleFlight.Flight.Run
import SingleFlight.IoError
import SingleFlight.Log.Entry
import SingleFlight.Log.Filter
import SingleFlight.Log.Layout
import SingleFlight.Log.Setup
import SingleFlight.Log.Subject
import SingleFlight.OwnerLoop
import SingleFlight.OwnerLoop.Host
import SingleFlight.OwnerLoop.Job
import SingleFlight.Payload
import SingleFlight.Pool
import SingleFlight.Pool.Events
import SingleFlight.Pool.Settings
import SingleFlight.Pool.Threads
import SingleFlight.Proofs.Agreement
import SingleFlight.Proofs.Carriers
import SingleFlight.Proofs.Closing
import SingleFlight.Proofs.Drained
import SingleFlight.Proofs.Exclusion
import SingleFlight.Proofs.Flight.LateInputs
import SingleFlight.Proofs.Flight.Operations
import SingleFlight.Proofs.History
import SingleFlight.Proofs.InlineSessions
import SingleFlight.Proofs.LastTold
import SingleFlight.Proofs.LastWrite
import SingleFlight.Proofs.OpenRequests
import SingleFlight.Proofs.Origins
import SingleFlight.Proofs.OwnCancellations
import SingleFlight.Proofs.Ownership
import SingleFlight.Proofs.Pool.Accounts
import SingleFlight.Proofs.Pool.Attendance
import SingleFlight.Proofs.Pool.Bookkeeping
import SingleFlight.Proofs.Pool.Filling
import SingleFlight.Proofs.Pool.Interruptions
import SingleFlight.Proofs.Pool.Moves
import SingleFlight.Proofs.Pool.Partition
import SingleFlight.Proofs.Pool.Roster
import SingleFlight.Proofs.Pool.Runs
import SingleFlight.Proofs.Pool.Steps
import SingleFlight.Proofs.Pool.Timeouts
import SingleFlight.Proofs.PoolSteps
import SingleFlight.Proofs.PooledSessions
import SingleFlight.Proofs.Quiescence
import SingleFlight.Proofs.RealTime
import SingleFlight.Proofs.Refused
import SingleFlight.Proofs.Repeats
import SingleFlight.Proofs.Restart
import SingleFlight.Proofs.Restoring
import SingleFlight.Proofs.Room
import SingleFlight.Proofs.Rounds
import SingleFlight.Proofs.Scheduler.Air
import SingleFlight.Proofs.Scheduler.Backlog
import SingleFlight.Proofs.Scheduler.Beside
import SingleFlight.Proofs.Scheduler.Calls
import SingleFlight.Proofs.Scheduler.Changes
import SingleFlight.Proofs.Scheduler.Course
import SingleFlight.Proofs.Scheduler.Draining
import SingleFlight.Proofs.Scheduler.Enabled
import SingleFlight.Proofs.Scheduler.Frame
import SingleFlight.Proofs.Scheduler.Inline
import SingleFlight.Proofs.Scheduler.Invocations
import SingleFlight.Proofs.Scheduler.Latest
import SingleFlight.Proofs.Scheduler.Line
import SingleFlight.Proofs.Scheduler.Moves
import SingleFlight.Proofs.Scheduler.News
import SingleFlight.Proofs.Scheduler.Owing
import SingleFlight.Proofs.Scheduler.Refusals
import SingleFlight.Proofs.Scheduler.Requests
import SingleFlight.Proofs.Scheduler.Sane
import SingleFlight.Proofs.Scheduler.Single
import SingleFlight.Proofs.Scheduler.Standing
import SingleFlight.Proofs.Scheduler.Twins
import SingleFlight.Proofs.Scheduler.Workers
import SingleFlight.Proofs.Sessions
import SingleFlight.Proofs.Settling
import SingleFlight.Proofs.Shutdown
import SingleFlight.Proofs.Silence
import SingleFlight.Proofs.Snapshot
import SingleFlight.Proofs.Sources
import SingleFlight.Proofs.Steady
import SingleFlight.Proofs.System
import SingleFlight.Proofs.Unasked
import SingleFlight.Registration
import SingleFlight.Rehearsal.ActionScript
import SingleFlight.Rehearsal.FlightBench
import SingleFlight.Rehearsal.LogBench
import SingleFlight.Rehearsal.LoopBench
import SingleFlight.Rehearsal.PoolBench
import SingleFlight.Rehearsal.RegistrationBench
import SingleFlight.Rehearsal.ReplyPlan
import SingleFlight.Rehearsal.SchedulerBench
import SingleFlight.Rehearsal.SnapshotBench
import SingleFlight.Rehearsal.TokenBench
import SingleFlight.Rehearsal.Values
import SingleFlight.Rehearsal.Words
import SingleFlight.Rehearsal.Workshop
import SingleFlight.Scheduler.Entries
import SingleFlight.Scheduler.Event
import SingleFlight.Scheduler.Plan
import SingleFlight.Scheduler.State
import SingleFlight.Scheduler.Step
import SingleFlight.Snapshot
import SingleFlight.Text.Quoted
import SingleFlight.Text.Shape
import SingleFlight.Text.Visible
import SingleFlight.Proofs.Flight.Phases
import SingleFlight.Proofs.Flight.Tokens
import SingleFlight.Proofs.Flight.Retries
import SingleFlight.Proofs.Pool.Rejections
import SingleFlight.Proofs.Pool.Serial
import SingleFlight.Proofs.Pool.Intake
import SingleFlight.Proofs.Pool.Brackets
import SingleFlight.Proofs.PayloadPanics
import SingleFlight.Proofs.BreadthFirst
import SingleFlight.Proofs.Recognition
import SingleFlight.Proofs.Routing
import SingleFlight.Proofs.Scheduler.Bindings
import SingleFlight.Proofs.LeftBindings
import SingleFlight.Proofs.Pool.Spinning
import SingleFlight.Proofs.FiniteMaps
