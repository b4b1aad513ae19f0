import Rollout.Generation.Record
import Rollout.Main
import Rollout.Render.Record
import Rollout.System.Listing
import Rollout.System.Machine
import Rollout.Text.Hex
import Rollout.Proofs.Generation.Name
import Rollout.Proofs.Generation.Sound
import Rollout.Proofs.Patch.Change
import Rollout.Proofs.Address
import Rollout.Proofs.Patch.Plan
import Rollout.Proofs.Patch.Line
import Rollout.Proofs.Patch.Table
import Rollout.Proofs.Patch.Patched
import Rollout.Proofs.Patch.Live
import Rollout.Proofs.Patch.Prefix
import Rollout.Proofs.Cycle.Honest
import Rollout.Proofs.Cycle.InStep
import Rollout.Proofs.Cycle.Settle
import Rollout.Proofs.Cycle.Unfinished
import Rollout.Proofs.Cycle.Layout
import Rollout.Proofs.Cycle.Gating
import Rollout.Proofs.Cycle.Replay
import Rollout.Proofs.Patch.Sent
import Rollout.Proofs.Render.Written
import Rollout.Proofs.Render.Read
import Rollout.Proofs.Render.Servers
import Rollout.Proofs.Generation.Routes
import Rollout.Proofs.Generation.Lookup
import Rollout.Proofs.Render.Map
import Rollout.Proofs.System.Path
import Rollout.Proofs.Render.Files
import Rollout.Proofs.Render.References
import Rollout.Proofs.System.Reading
import Rollout.Proofs.Daemon.Unloadable
import Rollout.Proofs.CommandLine.Agreement
import Rollout.Proofs.Daemon.Tasks
import Rollout.Proofs.Daemon.Session
import Rollout.Proofs.Render.Compare
import Rollout.Proofs.Patch.Frame
import Rollout.Proofs.Patch.GivenUp
import Rollout.Proofs.Patch.Room
import Rollout.Proofs.State.Record
import Rollout.Proofs.Text.Bytes
import Rollout.Proofs.Generation.Valid
import Rollout.Proofs.Generation.Order
import Rollout.Proofs.Generation.Match
import Rollout.Proofs.Generation.Keys
import Rollout.Proofs.Cycle.Service
import Rollout.Proofs.Generation.Reordered
import Rollout.Proofs.Render.Sections
import Rollout.Proofs.Render.Versions
import Rollout.Proofs.Render.Templates
import Rollout.Proofs.Render.Exposure
import Rollout.Proofs.Render.MainLast
import Rollout.Proofs.State.Padding
import Rollout.Proofs.State.Assigned
import Rollout.Proofs.State.Search
import Rollout.Proofs.State.Sorted
import Rollout.Proofs.Daemon.Watch
import Rollout.Proofs.System.Reached
import Rollout.Proofs.State.Saving
