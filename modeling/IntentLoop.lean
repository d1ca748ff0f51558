import IntentLoop.Scenario.Polling
import IntentLoop.Settings
import IntentLoop.Scenario.Operation
import IntentLoop.Scenario.Fetching
import IntentLoop.Scenario.Requesting
import IntentLoop.Scenario.Transferring
import IntentLoop.Proofs.Cache.Moves
import IntentLoop.Proofs.Cache.SingleFlight
import IntentLoop.Proofs.Cache.Barrier
import IntentLoop.Proofs.Cache.Keys
import IntentLoop.Proofs.Cache.Readability
import IntentLoop.Proofs.Cache.Callers
import IntentLoop.Proofs.Auth.Moves
import IntentLoop.Proofs.Auth.Acts
import IntentLoop.Proofs.Auth.Turn
import IntentLoop.Proofs.Auth.Supply
import IntentLoop.Proofs.Auth.Barrier
import IntentLoop.Proofs.Auth.SingleFlight
import IntentLoop.Proofs.Auth.Sharing
import IntentLoop.Proofs.Auth.Sources
import IntentLoop.Proofs.Auth.Marker
import IntentLoop.Proofs.Auth.Story
import IntentLoop.Proofs.Auth.Reports
import IntentLoop.Proofs.Auth.Routing
import IntentLoop.Proofs.Poll.Lanes
import IntentLoop.Proofs.Poll.Cancel
import IntentLoop.Proofs.Poll.Tally
import IntentLoop.Proofs.Poll.Rounds
import IntentLoop.Proofs.Poll.Pacing
import IntentLoop.Proofs.Engine.Runs
import IntentLoop.Proofs.Engine.Sequential
import IntentLoop.Proofs.Engine.Streams
import IntentLoop.Proofs.Engine.Rest
import IntentLoop.Proofs.Engine.Effects
import IntentLoop.Proofs.Engine.Replay
import IntentLoop.Proofs.Engine.Halting
import IntentLoop.Proofs.Engine.Handling
import IntentLoop.Proofs.Engine.Closing
import IntentLoop.Proofs.Engine.Intake
import IntentLoop.Proofs.Engine.Health
import IntentLoop.Proofs.Engine.Joining
import IntentLoop.Proofs.Engine.Failure
import IntentLoop.Proofs.Engine.Onlookers
import IntentLoop.Proofs.Engine.Isolation
import IntentLoop.Proofs.Engine.Repeats
import IntentLoop.Proofs.Engine.Turns
import IntentLoop.Proofs.Engine.OneThread
import IntentLoop.Proofs.Engine.Aftermath
import IntentLoop.Proofs.Engine.Calls
import IntentLoop.Proofs.Engine.Completion
import IntentLoop.Proofs.Engine.Status
import IntentLoop.Proofs.Transfer.Path
import IntentLoop.Proofs.Transfer.Parts
import IntentLoop.Proofs.Transfer.Phase
import IntentLoop.Proofs.Transfer.Course
import IntentLoop.Proofs.Cache.Needs
import IntentLoop.Proofs.Cache.Sharing
import IntentLoop.Proofs.Cache.Aborts
import IntentLoop.Proofs.Cache.InFlight
import IntentLoop.Proofs.Engine.Composition
