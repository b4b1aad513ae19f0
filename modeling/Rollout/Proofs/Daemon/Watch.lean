import Rollout.Proofs.Daemon.Tasks

/-!
# Proofs/Daemon/Watch — which changes of the state file start a cycle

A change starts a cycle unless one began less than the window before it; nothing is started later to make
up for a change that was held up.  What is remembered is only as good as it is old: forgetting cycles long
ago never lets a change through too early (`Debounce.Recalls`).  So the cycles lie a window apart, every
change has one at its time or shortly before it, and what the last change wrote is loaded exactly if the
last cycle before it is a window ago (`Daemon.watch_cycles`).
-/

namespace Rollout

/-! ## What is remembered -/

namespace Debounce

variable {path : String} {d : Debounce} {begun : List Nat} {s t now : Nat}

/-- Forgetting early makes no difference later. -/
theorem retain_retain (h : s ≤ t) (d : Debounce) : (d.retain s).retain t = d.retain t := by
  rw [retain, retain, List.filter_filter]
  refine List.filter_congr fun e _ => ?_
  rw [Bool.and_eq_left_iff_imp]
  simp only [decide_eq_true_eq]
  omega

theorem accept_retain (h : s ≤ t) (path : String) (d : Debounce) :
    (d.retain s).accept path t = d.accept path t := by
  simp only [accept, retain_retain h]

/-- **A change that was taken holds up others for the window.** -/
theorem accept_take (h : s ≤ t) (path : String) (d : Debounce) :
    ((d.take path s).accept path t).1 = true ↔ s + window ≤ t := by
  by_cases hkept : t - s ≤ retention
  · have hlookup : ((d.take path s).retain t).lookup path = some s := by
      rw [take, retain, List.filter_cons_of_pos (by simpa using hkept), List.lookup_cons_self]
    simp only [accept, hlookup]
    split_ifs with hlt
    · exact iff_of_false nofun (by omega)
    · exact iff_of_true rfl (by omega)
  · have hlookup : ((d.take path s).retain t).lookup path = none := by
      rw [take, retain, List.filter_cons_of_neg (by simpa using hkept)]
      refine List.lookup_eq_none_iff.mpr fun e he => ?_
      rw [bne_comm]
      exact (List.mem_filter.mp (List.mem_filter.mp he).1).2
    have hwindow : window ≤ retention := by decide
    simp only [accept, hlookup]
    exact iff_of_true trivial (by omega)

/-- What is remembered of a change that is taken, and of one that is held up. -/
theorem snd_accept (path : String) (t : Nat) (d : Debounce) : (d.accept path t).2 =
    if (d.accept path t).1 = true then (d.retain t).take path t else d.retain t := by
  rw [accept]
  split
  · split_ifs <;> first | rfl | contradiction
  · rfl

/-- **A memory recalls the cycles of a file** if it takes a change, from now on, exactly when each of them
began a window or more before it. -/
def Recalls (path : String) (begun : List Nat) (now : Nat) (d : Debounce) : Prop :=
  ∀ t, now ≤ t → ((d.accept path t).1 = true ↔ ∀ s ∈ begun, s + window ≤ t)

theorem recalls_nil (path : String) (now : Nat) : Recalls path [] now [] := fun _ _ => by
  simp [accept, retain]

/-- **Taking a change is remembered**: the one that is taken stands for those before it. -/
theorem Recalls.taken (h : d.Recalls path begun now) (hle : now ≤ t)
    (htaken : (d.accept path t).1 = true) : (d.accept path t).2.Recalls path (begun ++ [t]) t := by
  intro u hu
  rw [snd_accept, if_pos htaken, accept_take hu, List.forall_mem_append, List.forall_mem_singleton]
  have hearlier := (h t hle).mp htaken
  exact ⟨fun hlast => ⟨fun s hs => (hearlier s hs).trans hu, hlast⟩, And.right⟩

theorem Recalls.mono (h : d.Recalls path begun s) (hle : s ≤ t) : d.Recalls path begun t :=
  fun u hu => h u (hle.trans hu)

theorem Recalls.heldUp (h : d.Recalls path begun now) (hle : now ≤ t)
    (hheld : ¬ (d.accept path t).1 = true) : (d.accept path t).2.Recalls path begun t := by
  intro u hu
  rw [snd_accept, if_neg hheld, accept_retain hu]
  exact h.mono hle u hu

end Debounce

/-! ## Cycles that load their state -/

section

variable {σ : Type} [HasFileTree σ] [LocalSockets (StateM σ)] [Launcher (StateM σ)]
  [Journal (StateM σ)] [Clock (StateM σ)]

/-- **A cycle is an update with the state that the state file holds.** -/
theorem Deployment.cycle_of_loaded {d : Deployment} {w : σ} {state : DesiredState}
    (h : StateFormat.yaml.loaded (HasFileTree.tree w) d.settings.stateFile = .ok state) :
    let r := ((d.replace (.ofState state)).update : StateM σ _) w
    (d.cycle : StateM σ _) w = ((.ok r.1.1, r.1.2), r.2) :=
  cycle_of_ok ((StateFormat.load_looks _ _ w).trans (congrArg (·, w) h)) rfl

/-- A cycle does not change the settings. -/
theorem Deployment.settings_cycle (d : Deployment) (w : σ) :
    ((d.cycle : StateM σ _) w).1.2.settings = d.settings := by
  cases h : StateFormat.yaml.loaded (HasFileTree.tree w) d.settings.stateFile with
  | error e => rw [cycle_of_unloadable ((StateFormat.loaded_eq_error_iff ..).mp h)]
  | ok state =>
    rw [cycle_of_loaded h]
    rfl

end

/-! ## One change after the other -/

/-- **A change of a file that the daemon takes notice of.** -/
structure Sighting where
  path : String
  /-- When the daemon takes notice, in milliseconds. -/
  time : Nat
  /-- What became of the machine since the sighting before; for one, the file changed. -/
  become : Machine → Machine

/-- A cycle that began, and the machine it began on. -/
structure Begun where
  time : Nat
  machine : Machine

/-- **What came of some sightings**: the cycles that began, in order, the daemon and the machine. -/
structure Watched where
  begun : List Begun := []
  daemon : Daemon
  machine : Machine

/-- The daemon takes notice of a change, and waits for the end of the cycle if it starts one. -/
def Watched.see (s : Watched) (x : Sighting) : Watched :=
  let w := x.become s.machine
  let r := (s.daemon.notice x.path x.time : StateM Machine _) w
  { begun := s.begun ++ if r.1.1 then [⟨x.time, w⟩] else [], daemon := r.1.2, machine := r.2 }

/-- **A daemon takes notice of one change after the other.** -/
def Daemon.watch (d : Daemon) (w : Machine) (xs : List Sighting) : Watched :=
  xs.foldl Watched.see { daemon := d, machine := w }

theorem Daemon.watch_snoc (d : Daemon) (w : Machine) (xs : List Sighting) (x : Sighting) :
    d.watch w (xs ++ [x]) = (d.watch w xs).see x :=
  List.foldl_concat Watched.see _ x xs

section

variable {d : Daemon} {path : String} {now : Nat}
  (hpath : Path.fileName? path = Path.fileName? d.settings.stateFile)
include hpath

/-- **A change of the state file that is taken runs a cycle.** -/
theorem Daemon.notice_of_taken (h : (d.debounce.accept d.settings.stateFile now).1 = true)
    (w : Machine) :
    let d' : Daemon := { d with debounce := (d.debounce.accept d.settings.stateFile now).2 }
    let r := (d'.deployment.cycle : StateM Machine _) w
    (d.notice path now : StateM Machine _) w = ((true, { d' with
      deployment := r.1.2
      history := d'.history.record (summarise .watcher r.1.1) }), r.2) := by
  intro d' r
  have hcycle := d'.runCycle_eq .watcher w
  have hnotice : (d.notice path now : StateM Machine _) w
      = ((true, ((d'.runCycle .watcher : StateM Machine _) w).1.2),
        ((d'.runCycle .watcher : StateM Machine _) w).2) := by
    rw [notice]
    simp only [if_pos hpath, d']
    generalize d.debounce.accept d.settings.stateFile now = taken at h
    obtain ⟨_ | _, debounce⟩ := taken
    · exact absurd h nofun
    · rfl
  rw [hnotice, hcycle]

theorem Daemon.notice_of_not_taken
    (h : ¬ (d.debounce.accept d.settings.stateFile now).1 = true) (w : Machine) :
    (d.notice path now : StateM Machine _) w
      = ((false, { d with debounce := (d.debounce.accept d.settings.stateFile now).2 }), w) := by
  rw [notice]
  simp only [if_pos hpath]
  generalize d.debounce.accept d.settings.stateFile now = taken at h
  obtain ⟨_ | _, debounce⟩ := taken
  · rfl
  · exact absurd rfl h

end

namespace Watched

variable {file : String} {xs : List Sighting} {x : Sighting} {s : Watched}

/-- What comes of a change that starts a cycle. -/
structure Taken (s : Watched) (x : Sighting) (s' : Watched) : Prop where
  begun : s'.begun = s.begun ++ [⟨x.time, x.become s.machine⟩]
  /-- The state that the file holds after the change is put into effect. -/
  updated : ∀ state, StateFormat.yaml.loaded (x.become s.machine).tree
      s.daemon.settings.stateFile = .ok state →
    let r := ((s.daemon.deployment.replace (.ofState state)).update : StateM Machine _)
      (x.become s.machine)
    s'.daemon.deployment = r.1.2 ∧ s'.machine = r.2

/-- What comes of a change that is held up: nothing. -/
structure HeldUp (s : Watched) (x : Sighting) (s' : Watched) : Prop where
  begun : s'.begun = s.begun
  deployment : s'.daemon.deployment = s.daemon.deployment
  history : s'.daemon.history = s.daemon.history
  machine : s'.machine = x.become s.machine

/-- The change of a daemon's memory. -/
def accepted (s : Watched) (x : Sighting) : Bool × Debounce :=
  s.daemon.debounce.accept s.daemon.settings.stateFile x.time

section

variable (hpath : Path.fileName? x.path = Path.fileName? s.daemon.settings.stateFile)
include hpath

theorem see_of_accepted (h : (s.accepted x).1 = true) :
    s.Taken x (s.see x) ∧ (s.see x).daemon.settings = s.daemon.settings ∧
      (s.see x).daemon.debounce = (s.accepted x).2 := by
  rw [see, Daemon.notice_of_taken hpath h]
  refine ⟨⟨rfl, fun state hstate => ?_⟩, Deployment.settings_cycle s.daemon.deployment _, rfl⟩
  have hcycle := Deployment.cycle_of_loaded (d := s.daemon.deployment) (w := x.become s.machine)
    hstate
  exact ⟨congrArg (·.1.2) hcycle, congrArg (·.2) hcycle⟩

theorem see_of_not_accepted (h : ¬ (s.accepted x).1 = true) :
    s.HeldUp x (s.see x) ∧ (s.see x).daemon.settings = s.daemon.settings ∧
      (s.see x).daemon.debounce = (s.accepted x).2 := by
  rw [see, Daemon.notice_of_not_taken hpath h]
  exact ⟨⟨List.append_nil _, rfl, rfl, rfl⟩, rfl, rfl⟩

end

/-- **What holds after some sightings**, in the order of their times. -/
structure Follows (file : String) (xs : List Sighting) (s : Watched) : Prop where
  watches : s.daemon.settings.stateFile = file
  recalls : ∀ now, (∀ x ∈ xs, x.time ≤ now) →
    s.daemon.debounce.Recalls file (s.begun.map (·.time)) now
  sighted : ∀ b ∈ s.begun, ∃ x ∈ xs, x.time = b.time
  spaced : s.begun.Pairwise fun b c => b.time + Debounce.window ≤ c.time
  covered : ∀ x ∈ xs, ∃ b ∈ s.begun, b.time ≤ x.time ∧ x.time < b.time + Debounce.window

namespace Follows

variable (h : Follows file xs s) (hlast : ∀ y ∈ xs, y.time ≤ x.time)
include h hlast

theorem accepted_iff :
    (s.accepted x).1 = true ↔ ∀ b ∈ s.begun, b.time + Debounce.window ≤ x.time := by
  rw [accepted, h.watches]
  exact (h.recalls _ hlast _ (Nat.le_refl _)).trans List.forall_mem_map

variable (hpath : Path.fileName? x.path = Path.fileName? file)
include hpath

/-- **A change is taken exactly if all cycles began the window before it.** -/
theorem taken (hall : ∀ b ∈ s.begun, b.time + Debounce.window ≤ x.time) : s.Taken x (s.see x) :=
  (see_of_accepted (by rw [hpath, h.watches]) ((h.accepted_iff hlast).mpr hall)).1

theorem heldUp (hsome : ∃ b ∈ s.begun, x.time < b.time + Debounce.window) :
    s.HeldUp x (s.see x) := by
  obtain ⟨b, hb, hlt⟩ := hsome
  refine (see_of_not_accepted (by rw [hpath, h.watches]) fun hacc => ?_).1
  exact absurd ((h.accepted_iff hlast).mp hacc b hb) (Nat.not_le.mpr hlt)

/-- The next sighting keeps all that. -/
theorem see : Follows file (xs ++ [x]) (s.see x) := by
  have hfile : Path.fileName? x.path = Path.fileName? s.daemon.settings.stateFile := by
    rw [hpath, h.watches]
  by_cases hacc : (s.accepted x).1 = true
  · obtain ⟨⟨hbegun, -⟩, hsettings, hdebounce⟩ := see_of_accepted hfile hacc
    have hall := (h.accepted_iff hlast).mp hacc
    refine ⟨hsettings ▸ h.watches, fun now hnow => ?_, ?_, ?_, ?_⟩
    · rw [hdebounce, hbegun, List.map_append, accepted, h.watches]
      rw [accepted, h.watches] at hacc
      exact ((h.recalls _ hlast).taken (Nat.le_refl _) hacc).mono (hnow x (by simp))
    · rw [hbegun]
      refine List.forall_mem_append.mpr ⟨fun b hb => ?_, by simp⟩
      obtain ⟨y, hy, heq⟩ := h.sighted b hb
      exact ⟨y, List.mem_append_left _ hy, heq⟩
    · rw [hbegun]
      refine List.pairwise_append.mpr ⟨h.spaced, List.pairwise_singleton _ _, fun b hb c hc => ?_⟩
      rw [List.mem_singleton.mp hc]
      exact hall b hb
    · rw [hbegun]
      refine List.forall_mem_append.mpr ⟨fun y hy => ?_, ?_⟩
      · obtain ⟨b, hb, hbounds⟩ := h.covered y hy
        exact ⟨b, List.mem_append_left _ hb, hbounds⟩
      · exact List.forall_mem_singleton.mpr ⟨_, List.mem_append_right _ (List.mem_singleton_self _),
          Nat.le_refl _, Nat.lt_add_of_pos_right (by decide)⟩
  · obtain ⟨⟨hbegun, -, -, -⟩, hsettings, hdebounce⟩ := see_of_not_accepted hfile hacc
    refine ⟨hsettings ▸ h.watches, fun now hnow => ?_, ?_, hbegun ▸ h.spaced, ?_⟩
    · rw [hdebounce, hbegun, accepted, h.watches]
      rw [accepted, h.watches] at hacc
      exact ((h.recalls _ hlast).heldUp (Nat.le_refl _) hacc).mono (hnow x (by simp))
    · rw [hbegun]
      intro b hb
      obtain ⟨y, hy, heq⟩ := h.sighted b hb
      exact ⟨y, List.mem_append_left _ hy, heq⟩
    · rw [hbegun]
      refine List.forall_mem_append.mpr ⟨h.covered, List.forall_mem_singleton.mpr ?_⟩
      rw [h.accepted_iff hlast] at hacc
      push Not at hacc
      obtain ⟨b, hb, hlt⟩ := hacc
      obtain ⟨y, hy, heq⟩ := h.sighted b hb
      exact ⟨b, hb, heq ▸ hlast y hy, hlt⟩

end Follows

end Watched

namespace Daemon

variable {d : Daemon} {w : Machine} {xs : List Sighting}

/-- Whatever is sighted, the daemon follows. -/
theorem watch_follows (w : Machine) (hfresh : d.debounce = []) : ∀ xs : List Sighting,
    (∀ x ∈ xs, Path.fileName? x.path = Path.fileName? d.settings.stateFile) →
    (xs.Pairwise fun x y => x.time ≤ y.time) →
      (d.watch w xs).Follows d.settings.stateFile xs := by
  intro xs
  induction xs using List.reverseRecOn with
  | nil =>
    intro _ _
    refine ⟨rfl, fun now _ => ?_, nofun, .nil, nofun⟩
    exact hfresh ▸ Debounce.recalls_nil d.settings.stateFile now
  | append_singleton xs x ih =>
    intro hpath hsorted
    obtain ⟨hpaths, hlast⟩ := List.forall_mem_append.mp hpath
    obtain ⟨hbefore, -, hle⟩ := List.pairwise_append.mp hsorted
    rw [watch_snoc]
    exact (ih hpaths hbefore).see (fun y hy => hle y hy x (List.mem_singleton_self x))
      (hlast x (List.mem_singleton_self x))

section

variable {x : Sighting} (w) (hfresh : d.debounce = [])
  (hpath : ∀ y ∈ xs ++ [x], Path.fileName? y.path = Path.fileName? d.settings.stateFile)
  (hsorted : (xs ++ [x]).Pairwise fun x y => x.time ≤ y.time)
include hfresh hpath hsorted

/-- What precedes the last sighting, and what is known of that. -/
theorem watch_before : (d.watch w xs).Follows d.settings.stateFile xs ∧
    (∀ y ∈ xs, y.time ≤ x.time) ∧ Path.fileName? x.path = Path.fileName? d.settings.stateFile := by
  obtain ⟨hpaths, hlast⟩ := List.forall_mem_append.mp hpath
  obtain ⟨hbefore, -, hle⟩ := List.pairwise_append.mp hsorted
  exact ⟨watch_follows w hfresh xs hpaths hbefore,
    fun y hy => hle y hy x (List.mem_singleton_self x), hlast x (List.mem_singleton_self x)⟩

/-- **The last change is taken** if all cycles began the window before it. -/
theorem watch_taken (hall : ∀ b ∈ (d.watch w xs).begun, b.time + Debounce.window ≤ x.time) :
    (d.watch w xs).Taken x (d.watch w (xs ++ [x])) := by
  obtain ⟨hfollows, hle, hfile⟩ := watch_before w hfresh hpath hsorted
  rw [watch_snoc]
  exact hfollows.taken hle hfile hall

/-- **The last change is held up** if a cycle began less than the window before it. -/
theorem watch_heldUp (hsome : ∃ b ∈ (d.watch w xs).begun, x.time < b.time + Debounce.window) :
    (d.watch w xs).HeldUp x (d.watch w (xs ++ [x])) := by
  obtain ⟨hfollows, hle, hfile⟩ := watch_before w hfresh hpath hsorted
  rw [watch_snoc]
  exact hfollows.heldUp hle hfile hsome

end

/-- **Headline: a burst of changes starts one cycle, at its beginning.**  Changes of the state file are
sighted one after the other by a daemon that has just begun to watch it.  The cycles they start begin a
window apart, and each change has one that begins at its time or less than the window before it.  The last
change starts a cycle, which puts into effect what the file holds by then, if no cycle began less than the
window before it; so it does if all other changes are that old.  Otherwise it is held up, and nothing
happens on its account. -/
theorem watch_cycles (w : Machine) (xs : List Sighting) (hfresh : d.debounce = [])
    (hpath : ∀ x ∈ xs, Path.fileName? x.path = Path.fileName? d.settings.stateFile)
    (hsorted : xs.Pairwise fun x y => x.time ≤ y.time) :
    (d.watch w xs).begun.Pairwise (fun b c => b.time + Debounce.window ≤ c.time) ∧
      (∀ x ∈ xs, ∃ b ∈ (d.watch w xs).begun,
        b.time ≤ x.time ∧ x.time < b.time + Debounce.window) ∧
      ∀ before x, xs = before ++ [x] →
        ((∀ b ∈ (d.watch w before).begun, b.time + Debounce.window ≤ x.time) →
          (d.watch w before).Taken x (d.watch w xs)) ∧
        ((∃ b ∈ (d.watch w before).begun, x.time < b.time + Debounce.window) →
          (d.watch w before).HeldUp x (d.watch w xs)) ∧
        ((∀ y ∈ before, y.time + Debounce.window ≤ x.time) →
          (d.watch w before).Taken x (d.watch w xs)) := by
  have hall := watch_follows w hfresh xs hpath hsorted
  refine ⟨hall.spaced, hall.covered, ?_⟩
  rintro before x rfl
  refine ⟨watch_taken w hfresh hpath hsorted, watch_heldUp w hfresh hpath hsorted, fun hold => ?_⟩
  refine watch_taken w hfresh hpath hsorted fun b hb => ?_
  obtain ⟨y, hy, heq⟩ := (watch_before w hfresh hpath hsorted).1.sighted b hb
  exact heq ▸ hold y hy

end Daemon

/-- A machine with a state file that declares a backend, and nothing else. -/
def Machine.declaring (id : String) : Machine where
  tree := ({} : FileTree).insert ["state.yaml"]
    (.file ("backends:\n- id: " ++ id ++ "\n").toUTF8 false)

/-- The state file of an otherwise empty working directory is made to declare a backend. -/
def Sighting.declare (id : String) (time : Nat) : Sighting where
  path := "state.yaml"
  time
  become _ := .declaring id

/-- The ids of the backends in the state file of the working directory. -/
def Machine.declared (w : Machine) : Option (List String) :=
  (StateFormat.yaml.loaded w.tree "state.yaml").toOption.map (·.backends.map (·.id))

/-- The second of two writes is loaded if it comes late enough. -/
theorem Daemon.watch_cycles_late :
    let s := localDaemon.watch {} [.declare "web" 0]
    let last : Sighting := .declare "shop" 600
    s.Taken last (localDaemon.watch {} [.declare "web" 0, last]) ∧
      (last.become s.machine).declared = some ["shop"] := by
  intro s last
  obtain ⟨-, -, hlast⟩ := localDaemon.watch_cycles {} [.declare "web" 0, last] rfl (by decide)
    (by decide)
  exact ⟨(hlast [.declare "web" 0] last rfl).2.2 (by decide), by decide +kernel⟩

/-- **What is written last may never be loaded**: the second of two writes within the window starts no
cycle, at its time or later, and the only cycle loads what was written first. -/
theorem Daemon.watch_last_write_not_loaded :
    let s := localDaemon.watch {} [.declare "web" 0, .declare "shop" 100]
    (¬ ∃ b ∈ s.begun, 100 ≤ b.time) ∧ s.machine.declared = some ["shop"] ∧
      s.begun.map (·.machine.declared) = [some ["web"]] := by
  intro s
  have hfirst : (localDaemon.watch {} []).Taken (.declare "web" 0)
      (localDaemon.watch {} ([] ++ [.declare "web" 0])) :=
    localDaemon.watch_taken {} rfl (by decide) (by decide) nofun
  have hone : (localDaemon.watch {} [.declare "web" 0]).begun = [⟨0, .declaring "web"⟩] :=
    hfirst.begun
  have hsecond : (localDaemon.watch {} [.declare "web" 0]).HeldUp (.declare "shop" 100)
      (localDaemon.watch {} ([.declare "web" 0] ++ [.declare "shop" 100])) := by
    refine localDaemon.watch_heldUp {} rfl (by decide) (by decide) ?_
    rw [hone]
    decide
  have hbegun : s.begun = [⟨0, .declaring "web"⟩] := hsecond.begun.trans hone
  have hmachine : s.machine = .declaring "shop" := hsecond.machine
  rw [hbegun, hmachine]
  exact ⟨by decide, by decide +kernel, by decide +kernel⟩

end Rollout
