import Rollout.Cycle.Outcome
import Rollout.Daemon.Error

/-!
# Daemon/History — what became of the daemon's cycles

A cycle ends with a summary, or with an error when the state could not be loaded.  `History.record`
counts both: a summary counts as a cycle, and an unsuccessful summary or an error as a failure.
-/

namespace Rollout

/-- Who asked for a cycle. -/
inductive CycleSource where
  | startup
  | watcher
  | resync
  | socket
  deriving DecidableEq, Repr

/-- The name of a source. -/
def CycleSource.name : CycleSource → String
  | .startup => "startup"
  | .watcher => "watcher"
  | .resync => "resync"
  | .socket => "socket"

/-- **What is told of a cycle.** -/
structure CycleSummary where
  source : CycleSource
  report : Report
  /-- When the cycle began and ended, in microseconds. -/
  started : Nat
  ended : Nat
  /-- When the cycle ended, in seconds since the beginning of 1970. -/
  finishedAt : Nat
  deriving DecidableEq, Repr

/-- A summary as a record. -/
def CycleSummary.toValue (s : CycleSummary) : Value :=
  .record [
    ("source", .text s.source.name),
    ("outcome", .text s.report.outcome.label),
    ("message", .text s.report.outcome.message),
    ("success", .bool s.report.outcome.isSuccess),
    ("timings", s.report.timingsValue s.started),
    ("duration_ms", .nat ((s.ended - s.started) / 1000)),
    ("finished_at_unix", .nat s.finishedAt)]

/-- **The cycles so far.** -/
structure History where
  /-- How many cycles ended with a summary. -/
  cycles : Nat := 0
  failures : Nat := 0
  lastCycle : Option CycleSummary := none
  lastError : Option DaemonError := none
  deriving DecidableEq, Repr, Inhabited

/-- **Enter how a cycle ended.** -/
def History.record (h : History) : Except DaemonError CycleSummary → History
  | .ok s =>
    { h with
      cycles := h.cycles + 1
      failures := if s.report.outcome.isSuccess then h.failures else h.failures + 1
      lastCycle := some s }
  | .error e => { h with failures := h.failures + 1, lastError := some e }

end Rollout
