import Rollout.Daemon.Run
import Rollout.Proofs.Render.Files
import Rollout.Proofs.System.Reading
import Rollout.System.Machine

/-!
# Proofs/Daemon/Unloadable — cycles whose state cannot be loaded

A cycle of the daemon loads the state file before anything else, so one that cannot load it does
nothing at all: the deployment and the machine are left alone (`cycleAt_of_unloadable`).  What such a
cycle found in the place of the state file is replaced before the next one, so taking it out of a run
leaves every other cycle as it was (`passes_kept`).
-/

namespace Rollout

/-! ## Between cycles -/

/-- Let an entry lie at a place, or nothing. -/
def FileTree.put (p : Place) (t : FileTree) : Option Entry → FileTree
  | some e => t.insert p e
  | none => t.erase p

/-- **What is put at a place last counts.** -/
theorem FileTree.put_put (p : Place) (t : FileTree) (a b : Option Entry) :
    (t.put p a).put p b = t.put p b := by
  have hfilter (e : Option Entry) : (t.put p e).entries.filter (fun q => q.1 != p)
      = t.entries.filter fun q => q.1 != p := by
    cases e with
    | none => simp [put, erase]
    | some e => simp [put, insert]
  have hhome (e : Option Entry) : (t.put p e).home = t.home := by cases e <;> rfl
  cases b with
  | none => rw [put, erase, hfilter, hhome]; rfl
  | some b => rw [put, insert, hfilter, hhome]; rfl

/-- **What is the case when a cycle begins**: who asks for it, what lies in the place of the state
file, what the programs do, and what those who listen reply next. -/
structure Moment where
  source : CycleSource := .watcher
  stateFile : Option Entry
  programs : List Program := []
  replies : List ByteArray := []

/-- The machine when a cycle begins, where `p` is the place of the state file. -/
def Machine.meet (p : Place) (x : Moment) (w : Machine) : Machine :=
  { w with
    tree := w.tree.put p x.stateFile
    programs := x.programs
    listeners := w.listeners.map fun l => (l.1, { l.2 with replies := x.replies }) }

/-- **What was the case before does not matter any more.** -/
theorem Machine.meet_meet (p : Place) (x y : Moment) (w : Machine) :
    (w.meet p x).meet p y = w.meet p y := by
  simp only [meet, FileTree.put_put, List.map_map]
  rfl

/-! ## Runs -/

/-- **What came of a cycle**: how it ended, the two generations, and the machine with its files, what
its listeners received and which programs were run. -/
structure Passed where
  result : Except DaemonError CycleSummary
  generations : Instance
  machine : Machine

/-- Was the state of the cycle loaded? -/
def Passed.isLoaded (c : Passed) : Bool := c.result.isOk

/-- A cycle at some moment. -/
def cycleAt (p : Place) (x : Moment) (d : Daemon) (w : Machine) :
    (Except DaemonError CycleSummary × Daemon) × Machine :=
  (d.runCycle x.source : StateM Machine _) (w.meet p x)

/-- **The cycles of a daemon at some moments**, one after the other. -/
def passes (p : Place) : List Moment → Daemon → Machine → List Passed
  | [], _, _ => []
  | x :: xs, d, w =>
    let r := cycleAt p x d w
    ⟨r.1.1, r.1.2.deployment.generations, r.2⟩ :: passes p xs r.1.2 r.2

/-- The moments of a run at which the state could be loaded. -/
def kept (p : Place) (xs : List Moment) (d : Daemon) (w : Machine) : List Moment :=
  ((xs.zip (passes p xs d w)).filter fun x => x.2.isLoaded).map Prod.fst

/-- What the daemon tells of a cycle of its deployment. -/
def summarise (source : CycleSource) : Except StateError Report → Except DaemonError CycleSummary
  | .ok report => .ok { source, report, started := 0, ended := 0, finishedAt := 0 }
  | .error e => .error (.state e)

/-- **A cycle of the daemon is a cycle of its deployment**, whatever is in the history. -/
theorem Daemon.runCycle_eq (source : CycleSource) (d : Daemon) (w : Machine) :
    let r := (d.deployment.cycle : StateM Machine _) w
    let result := summarise source r.1.1
    (d.runCycle source : StateM Machine _) w
      = ((result, { d with deployment := r.1.2, history := d.history.record result }), r.2) := by
  intro r result
  have hresult : result = match r.1.1 with
      | .ok report => .ok { source, report, started := 0, ended := 0, finishedAt := 0 }
      | .error e => .error (.state e) := by
    simp only [result, summarise]
  rw [hresult]
  rfl

theorem cycleAt_eq (p : Place) (x : Moment) (d : Daemon) (w : Machine) :
    let r := (d.deployment.cycle : StateM Machine _) (w.meet p x)
    let result := summarise x.source r.1.1
    cycleAt p x d w
      = ((result, { d with deployment := r.1.2, history := d.history.record result }), r.2) :=
  d.runCycle_eq x.source (w.meet p x)

/-! ## Cycles without a state -/

/-- **A deployment that cannot load its state does nothing.** -/
theorem Deployment.cycle_of_unloadable {σ : Type} [HasFileTree σ] [LocalSockets (StateM σ)]
    [Launcher (StateM σ)] [Journal (StateM σ)] [Clock (StateM σ)] {d : Deployment} {w : σ}
    {e : StateError}
    (h : StateFormat.yaml.Unloadable (HasFileTree.tree w) d.settings.stateFile e) :
    (d.cycle : StateM σ _) w = ((.error e, d), w) := by
  have hload : (StateFormat.yaml.load d.settings.stateFile : StateM σ _) w = (.error e, w) :=
    (StateFormat.load_looks _ _ w).trans
      (congrArg (·, w) ((StateFormat.loaded_eq_error_iff ..).mpr h))
  simp only [cycle, bind, StateT.bind, hload]
  rfl

/-- A deployment that loads its state has something to report. -/
theorem Deployment.exists_report_of_loaded {σ : Type} [HasFileTree σ] [LocalSockets (StateM σ)]
    [Launcher (StateM σ)] [Journal (StateM σ)] [Clock (StateM σ)] {d : Deployment} {w : σ}
    {state : DesiredState}
    (h : StateFormat.yaml.loaded (HasFileTree.tree w) d.settings.stateFile = .ok state) :
    ∃ report, ((d.cycle : StateM σ _) w).1.1 = .ok report := by
  have hload : (StateFormat.yaml.load d.settings.stateFile : StateM σ _) w = (.ok state, w) :=
    (StateFormat.load_looks _ _ w).trans (congrArg (·, w) h)
  simp only [cycle, bind, StateT.bind, hload]
  exact ⟨_, rfl⟩

variable {p : Place} {x : Moment} {d : Daemon} {w : Machine}

/-- **How a cycle ends whose state cannot be loaded**: with the reason, and nothing else happened. -/
theorem cycleAt_of_unloadable {e : StateError}
    (h : StateFormat.yaml.Unloadable (w.meet p x).tree d.settings.stateFile e) :
    cycleAt p x d w = ((.error (.state e),
      { d with history := d.history.record (.error (.state e)) }), w.meet p x) := by
  have hcycle : (d.deployment.cycle : StateM Machine _) (w.meet p x)
      = ((.error e, d.deployment), w.meet p x) :=
    Deployment.cycle_of_unloadable (w := w.meet p x) h
  rw [cycleAt_eq, hcycle]
  rfl

/-- **A cycle fails exactly if its state cannot be loaded.** -/
theorem cycleAt_eq_error_iff {error : DaemonError} : (cycleAt p x d w).1.1 = .error error ↔
    ∃ e, StateFormat.yaml.Unloadable (w.meet p x).tree d.settings.stateFile e ∧
      .state e = error := by
  constructor
  · intro h
    cases hloaded : StateFormat.yaml.loaded (w.meet p x).tree d.settings.stateFile with
    | error e =>
      have hunloadable := (StateFormat.loaded_eq_error_iff ..).mp hloaded
      rw [cycleAt_of_unloadable hunloadable] at h
      exact ⟨e, hunloadable, Except.error.inj h⟩
    | ok state =>
      obtain ⟨report, hreport⟩ := Deployment.exists_report_of_loaded (d := d.deployment)
        (w := w.meet p x) hloaded
      rw [cycleAt_eq] at h
      simp only [hreport, summarise] at h
      exact nomatch h
  · rintro ⟨e, hunloadable, rfl⟩
    rw [cycleAt_of_unloadable hunloadable]

/-! ## Runs without them -/

/-- What comes of a cycle does not depend on the history, nor on what was the case before. -/
theorem cycleAt_congr {d' : Daemon} {w' : Machine} (hd : d'.deployment = d.deployment)
    (hw : w'.meet p x = w.meet p x) :
    (cycleAt p x d' w').1.1 = (cycleAt p x d w).1.1 ∧
      (cycleAt p x d' w').1.2.deployment = (cycleAt p x d w).1.2.deployment ∧
      (cycleAt p x d' w').2 = (cycleAt p x d w).2 := by
  rw [cycleAt_eq, cycleAt_eq, hd, hw]
  exact ⟨rfl, rfl, rfl⟩

/-- **A run goes on the same way from machines that only differ in what the next moment replaces.** -/
theorem passes_congr : ∀ {xs : List Moment} {d d' : Daemon} {w w' : Machine},
    d'.deployment = d.deployment → (∀ x, w'.meet p x = w.meet p x) →
      passes p xs d' w' = passes p xs d w
  | [], _, _, _, _, _, _ => rfl
  | x :: xs, d, d', w, w', hd, hw => by
      obtain ⟨hresult, hdeployment, hmachine⟩ := cycleAt_congr hd (hw x)
      have hrest : passes p xs (cycleAt p x d' w').1.2 (cycleAt p x d' w').2
          = passes p xs (cycleAt p x d w).1.2 (cycleAt p x d w).2 :=
        passes_congr hdeployment fun y => by rw [hmachine]
      simp only [passes, hresult, hdeployment, hmachine] at hrest ⊢
      rw [hrest]

theorem passes_cons (x : Moment) (xs : List Moment) (d : Daemon) (w : Machine) :
    passes p (x :: xs) d w =
      ⟨(cycleAt p x d w).1.1, (cycleAt p x d w).1.2.deployment.generations, (cycleAt p x d w).2⟩ ::
        passes p xs (cycleAt p x d w).1.2 (cycleAt p x d w).2 := rfl

/-- A moment is kept if its state could be loaded. -/
theorem kept_cons (x : Moment) (xs : List Moment) (d : Daemon) (w : Machine) :
    kept p (x :: xs) d w =
      if (cycleAt p x d w).1.1.isOk then x :: kept p xs (cycleAt p x d w).1.2 (cycleAt p x d w).2
      else kept p xs (cycleAt p x d w).1.2 (cycleAt p x d w).2 := by
  simp only [kept, passes, List.zip_cons_cons, List.filter_cons, Passed.isLoaded]
  split <;> rfl

/-- **Taking the cycles out of a run that could not load their state** takes out what came of them,
and leaves what came of the others. -/
theorem passes_kept : ∀ (xs : List Moment) (d : Daemon) (w : Machine),
    passes p (kept p xs d w) d w = (passes p xs d w).filter Passed.isLoaded
  | [], _, _ => rfl
  | x :: xs, d, w => by
      have hrest := passes_kept xs (cycleAt p x d w).1.2 (cycleAt p x d w).2
      rw [kept_cons, passes_cons, List.filter_cons]
      cases hresult : (cycleAt p x d w).1.1 with
      | ok summary =>
        change passes p (x :: _) d w = _ :: _
        rw [passes_cons, hrest, hresult]
      | error error =>
        obtain ⟨e, hunloadable, rfl⟩ := cycleAt_eq_error_iff.mp hresult
        have hcycle := cycleAt_of_unloadable hunloadable
        refine Eq.trans (passes_congr ?_ fun y => ?_) hrest
        · rw [hcycle]
        · rw [hcycle, Machine.meet_meet]

/-- **Headline: cycles whose state cannot be loaded do not interfere.**  The state file lies wherever
`p` says, and before each cycle it may be replaced by anything or taken away, as may the programs and
the replies of the proxy.  A cycle fails exactly if its state file is missing, unreadable or holds no
state; then the deployment with its two generations and the machine with its files, the proxy's
commands and the programs that were run are what they were.  Without such cycles the others of a run
end the same way and leave the same generations and the same machine behind. -/
theorem unloadable_cycles_do_not_interfere (p : Place) :
    (∀ (x : Moment) (d : Daemon) (w : Machine) (error : DaemonError),
      (cycleAt p x d w).1.1 = .error error ↔ ∃ e,
        StateFormat.yaml.Unloadable (w.meet p x).tree d.settings.stateFile e ∧ .state e = error) ∧
    (∀ (x : Moment) (d : Daemon) (w : Machine) (e : StateError),
      StateFormat.yaml.Unloadable (w.meet p x).tree d.settings.stateFile e →
        (cycleAt p x d w).1.2.deployment = d.deployment ∧ (cycleAt p x d w).2 = w.meet p x) ∧
    ∀ (xs : List Moment) (d : Daemon) (w : Machine),
      passes p (kept p xs d w) d w = (passes p xs d w).filter Passed.isLoaded := by
  refine ⟨fun x d w error => cycleAt_eq_error_iff, fun x d w e h => ?_, passes_kept⟩
  rw [cycleAt_of_unloadable h]
  exact ⟨rfl, rfl⟩

/-- The state file is missing, then declares a backend, then is a directory, and then holds no
state. -/
def unsteadyMoments : List Moment := [
  { source := .startup, stateFile := none },
  { stateFile := some (.file "backends:\n- id: web\n".toUTF8 false) },
  { source := .resync, stateFile := some .directory },
  { source := .socket, stateFile := some (.file "backends: web\n".toUTF8 false) }]

/-- A daemon with the built-in templates, all of whose files lie in the working directory. -/
def localDaemon : Daemon :=
  let s : Settings := { stateFile := "state.yaml", configFile := "haproxy.cfg", configDir := ".",
                        mapsDir := "maps" }
  { deployment := { settings := s, renderer := .builtin s.layout } }

/-- Three of the four cycles fail, and the one in between is the only one of the shorter run. -/
theorem unloadable_cycles_do_not_interfere_unsteady :
    let p : Place := ["state.yaml"]
    let missing : Moment := { source := .startup, stateFile := none }
    (StateFormat.yaml.Unloadable (({} : Machine).meet p missing).tree "state.yaml"
        (.notFound "state.yaml") ∧
      (cycleAt p missing localDaemon {}).2 = ({} : Machine).meet p missing) ∧
    (passes p unsteadyMoments localDaemon {}).map Passed.isLoaded = [false, true, false, false] ∧
    passes p (kept p unsteadyMoments localDaemon {}) localDaemon {}
      = (passes p unsteadyMoments localDaemon {}).filter Passed.isLoaded := by
  intro p missing
  obtain ⟨-, hsame, hothers⟩ := unloadable_cycles_do_not_interfere p
  have hmissing : StateFormat.yaml.Unloadable (({} : Machine).meet p missing).tree "state.yaml"
      (.notFound "state.yaml") := .missing (by decide +kernel)
  exact ⟨⟨hmissing, (hsame missing localDaemon {} _ hmissing).2⟩, by decide +kernel,
    hothers unsteadyMoments localDaemon {}⟩

end Rollout
