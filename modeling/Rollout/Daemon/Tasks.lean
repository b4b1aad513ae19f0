import Rollout.Daemon.Run

/-!
# Daemon/Tasks — the parts of a daemon, in any order

Clients, the watcher and the resync timer ask for cycles.  Each time a `Job` is accepted and waits for
room in the queue.  One processor owns the instance: it runs the first cycle, then a cycle for one job
after the other, and answers each job.  Whoever asks for the status reads the history, anybody may
rewrite the files, and a request to stop may come, all at any moment.  `Step` says what can happen next,
`Run` what can have happened.
-/

namespace Rollout

/-- **A cycle that is asked for.**  Jobs are numbered as they are accepted. -/
structure Job where
  number : Nat
  source : CycleSource
  deriving DecidableEq, Repr

namespace Job

/-- The cycle that nobody asks for. -/
def startup : Job := ⟨0, .startup⟩

/-- What is told of the cycle of a job. -/
def result (j : Job) (started ended finishedAt : Nat) :
    Except StateError Report → Except DaemonError CycleSummary
  | .ok report => .ok { source := j.source, report, started, ended, finishedAt }
  | .error e => .error (.state e)

end Job

/-- **How far the processor is.** -/
inductive Stage where
  | starting
  | idle
  | begun (j : Job) (started : Nat)
  | loaded (j : Job) (started : Nat) (state : DesiredState)
  | ended (j : Job) (started : Nat) (r : Except StateError Report)
  | recorded (j : Job) (result : Except DaemonError CycleSummary)
  | stopped

namespace Stage

/-- A cycle that could not load its state has come to its end. -/
def afterLoading (j : Job) (started : Nat) : Except StateError DesiredState → Stage
  | .ok state => .loaded j started state
  | .error e => .ended j started (.error e)

end Stage

/-- **What happens in a daemon.** -/
inductive Event where
  | accepted (j : Job)
  | queued (j : Job)
  | began (j : Job)
  | loaded (j : Job) (r : Except StateError DesiredState)
  | updated (j : Job) (report : Report)
  /-- The end of a cycle is entered in the history. -/
  | recorded (j : Job) (result : Except DaemonError CycleSummary)
  | answered (j : Job) (result : Except DaemonError CycleSummary)
  /-- The first cycle is over, which has nobody to answer. -/
  | ready
  /-- The processor stopped before it came to a job. -/
  | refused (j : Job)
  /-- Somebody was told the status. -/
  | told (status : Value)
  | stopAsked
  | stopped
  /-- Something else changed the world, for one the state file. -/
  | changed

/-- **A daemon and who works for it**, in some world. -/
structure Tasks (σ : Type) where
  world : σ
  daemon : Daemon
  /-- The number of the next job. -/
  next : Nat := 1
  /-- The jobs that wait for room in the queue. -/
  offered : List Job := []
  queue : List Job := []
  stage : Stage := .starting
  stopping : Bool := false

namespace Tasks

/-- So many jobs fit into the queue. -/
def queueRoom : Nat := 64

variable {σ : Type}

/-- A daemon that was just started. -/
def start (deployment : Deployment) (startedAt : Nat) (w : σ) : Tasks σ where
  world := w
  daemon := { deployment, startedAt }

variable [FileSystem (StateM σ)] [LocalSockets (StateM σ)] [Launcher (StateM σ)]
  [Journal (StateM σ)] [Clock (StateM σ)]

/-- **What can happen next.** -/
inductive Step (s : Tasks σ) : Event → Tasks σ → Prop where
  | accept (source : CycleSource) (asked : source ≠ .startup) :
      Step s (.accepted ⟨s.next, source⟩)
        { s with next := s.next + 1, offered := s.offered ++ [⟨s.next, source⟩] }
  | enqueue {j : Job} (offered : j ∈ s.offered) (room : s.queue.length < queueRoom)
      (open' : s.stage ≠ .stopped) :
      Step s (.queued j) { s with offered := s.offered.erase j, queue := s.queue ++ [j] }
  | start {started : Nat} {w : σ} (stage : s.stage = .starting)
      (clock : (Clock.micros : StateM σ Nat) s.world = (started, w)) :
      Step s (.began .startup) { s with world := w, stage := .begun .startup started }
  | take {j : Job} {rest : List Job} {started : Nat} {w : σ} (stage : s.stage = .idle)
      (queue : s.queue = j :: rest)
      (clock : (Clock.micros : StateM σ Nat) s.world = (started, w)) :
      Step s (.began j) { s with world := w, queue := rest, stage := .begun j started }
  | load {j : Job} {started : Nat} {r : Except StateError DesiredState} {w : σ}
      (stage : s.stage = .begun j started)
      (run : (StateFormat.yaml.load s.daemon.settings.stateFile : StateM σ _) s.world = (r, w)) :
      Step s (.loaded j r) { s with world := w, stage := .afterLoading j started r }
  | update {j : Job} {started : Nat} {state : DesiredState} {report : Report}
      {deployment : Deployment} {w : σ} (stage : s.stage = .loaded j started state)
      (run : ((s.daemon.deployment.replace (.ofState state)).update : StateM σ _) s.world
        = ((report, deployment), w)) :
      Step s (.updated j report)
        { s with world := w, daemon := { s.daemon with deployment },
                 stage := .ended j started (.ok report) }
  | record {j : Job} {started ended finishedAt : Nat} {r : Except StateError Report} {w w' : σ}
      (stage : s.stage = .ended j started r)
      (clock : (Clock.micros : StateM σ Nat) s.world = (ended, w))
      (date : (Clock.unixSeconds : StateM σ Nat) w = (finishedAt, w')) :
      Step s (.recorded j (j.result started ended finishedAt r))
        { s with
          world := w'
          daemon := { s.daemon with
            history := s.daemon.history.record (j.result started ended finishedAt r) }
          stage := .recorded j (j.result started ended finishedAt r) }
  | answer {j : Job} {result : Except DaemonError CycleSummary}
      (stage : s.stage = .recorded j result) (asked : j ≠ .startup) :
      Step s (.answered j result) { s with stage := .idle }
  | settle {result : Except DaemonError CycleSummary} (stage : s.stage = .recorded .startup result) :
      Step s .ready { s with stage := .idle }
  | stop (stage : s.stage = .idle) (stopping : s.stopping = true) :
      Step s .stopped { s with stage := .stopped }
  | refuse {j : Job} (stage : s.stage = .stopped) (offered : j ∈ s.offered) :
      Step s (.refused j) { s with offered := s.offered.erase j }
  | drop {j : Job} (stage : s.stage = .stopped) (queued : j ∈ s.queue) :
      Step s (.refused j) { s with queue := s.queue.erase j }
  | tell {status : Value} {w : σ} (run : (s.daemon.status : StateM σ Value) s.world = (status, w)) :
      Step s (.told status) { s with world := w }
  | askStop : Step s .stopAsked { s with stopping := true }
  | change (w : σ) : Step s .changed { s with world := w }

/-- **What can have happened**: a run with its events. -/
inductive Run (s : Tasks σ) : List Event → Tasks σ → Prop where
  | nil : Run s [] s
  | snoc {es : List Event} {e : Event} {t u : Tasks σ} (before : Run s es t) (step : Step t e u) :
      Run s (es ++ [e]) u

end Tasks

end Rollout
