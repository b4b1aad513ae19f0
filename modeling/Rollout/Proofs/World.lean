import Rollout.Patch.Apply
import Rollout.Proofs.Patch.Patched

/-!
# Proofs/World — the world that a patch acts on

A `World` holds what a cycle can reach: the stored files and the servers of the running proxy, next
to the calls that were made so far.  What the proxy answers on its channel is left open; `Answers`
may depend on everything that happened before, so a line can be refused anywhere.

`sendAll_spec` says what sending comes to, `patch_spec` the same for a whole attempt to patch.
-/

namespace Rollout

/-- **A call that a cycle makes on its surroundings.** -/
inductive Call where
  | send (line : String)
  | write (g : Generation)
  | validate
  | reload
  deriving DecidableEq, Repr

/-- **What a cycle can reach.** -/
structure World where
  /-- The calls made so far, in order. -/
  calls : List Call := []
  /-- The generation whose files are stored. -/
  files : Option Generation := none
  /-- The servers of the running proxy. -/
  servers : ServerTable := []
  deriving DecidableEq, Repr

/-- What the proxy answers to a line, after some calls. -/
abbrev Answers := List Call → String → Except ControlError String

/-- Nobody reads the notes. -/
instance : Journal (StateM World) := ⟨fun _ => pure ()⟩

namespace World

/-- One more call. -/
def log (c : Call) (w : World) : World := { w with calls := w.calls ++ [c] }

/-- **The control channel of the world.**  The proxy obeys the lines it accepts. -/
def send (answers : Answers) : Channel (StateM World) := fun line w =>
  match answers w.calls line with
  | .ok reply => (.ok reply, { w.log (.send line) with servers := w.servers.obey line })
  | .error e => (.error e, w.log (.send line))

/-- The world after the proxy accepted some commands. -/
def accept (cs : List ServerCommand) (w : World) : World :=
  { w with
    calls := w.calls ++ cs.map fun c => .send c.text
    servers := runCommands cs w.servers }

@[simp] theorem accept_nil (w : World) : w.accept [] = w := by
  rw [accept, List.map_nil, List.append_nil]
  rfl

/-- Commands are accepted one after the other. -/
theorem accept_cons (c : ServerCommand) (cs : List ServerCommand) (w : World) :
    w.accept (c :: cs) = { w.log (.send c.text) with servers := c.run w.servers }.accept cs := by
  rw [accept, accept, log, List.map_cons, List.append_cons]
  rfl

end World

/-! ## Sending -/

/-- **How sending ends**: every command is accepted, or one is refused and those behind it are not
sent. -/
inductive Sends (answers : Answers) (cs : List ServerCommand) (w : World) :
    (Nat × Option ControlError) × World → Prop where
  | all : Sends answers cs w ((cs.length, none), w.accept cs)
  | refused (accepted : List ServerCommand) (c : ServerCommand) (rest : List ServerCommand)
      (e : ControlError) (split : cs = accepted ++ c :: rest)
      (answer : answers (w.accept accepted).calls c.text = .error e) :
      Sends answers cs w
        ((accepted.length, some e), (w.accept accepted).log (.send c.text))

/-- One more command is accepted in front. -/
theorem Sends.cons {answers : Answers} {c : ServerCommand} {cs : List ServerCommand} {w : World}
    {r : (Nat × Option ControlError) × World}
    (h : Sends answers cs { w.log (.send c.text) with servers := c.run w.servers } r) :
    Sends answers (c :: cs) w ((r.1.1 + 1, r.1.2), r.2) := by
  cases h with
  | all =>
    rw [← World.accept_cons]
    exact .all
  | refused accepted d rest e split answer =>
    rw [← World.accept_cons] at answer ⊢
    exact .refused (c :: accepted) d rest e (congrArg (c :: ·) split) answer

section

variable {answers : Answers} {c : ServerCommand} {cs : List ServerCommand} {w : World}

/-- A refused command is the last one. -/
theorem sendAll_cons_of_error {e : ControlError} (h : answers w.calls c.text = .error e) :
    sendAll (World.send answers) (c :: cs) w = ((0, some e), w.log (.send c.text)) := by
  simp only [sendAll, bind, StateT.bind, World.send, h]
  rfl

/-- Behind an accepted command the others are sent. -/
theorem sendAll_cons_of_ok {reply : String} (h : answers w.calls c.text = .ok reply) :
    sendAll (World.send answers) (c :: cs) w
      = let r := sendAll (World.send answers) cs
          { w.log (.send c.text) with servers := w.servers.obey c.text }
        ((r.1.1 + 1, r.1.2), r.2) := by
  simp only [sendAll, bind, StateT.bind, World.send, h]
  rfl

end

/-- **Commands are sent in order until one is refused.** -/
theorem sendAll_spec (answers : Answers) : ∀ {cs : List ServerCommand} (w : World),
    (∀ c ∈ cs, c.IsPlain) → Sends answers cs w (sendAll (World.send answers) cs w)
  | [], w, _ => by
      have hall : Sends answers [] w ((0, none), w.accept []) := .all
      rwa [World.accept_nil] at hall
  | c :: cs, w, hplain => by
      obtain ⟨hc, hcs⟩ := List.forall_mem_cons.mp hplain
      cases hanswer : answers w.calls c.text with
      | error e =>
        have hrefused : Sends answers (c :: cs) w ((0, some e), (w.accept []).log (.send c.text)) :=
          .refused [] c cs e rfl (by rwa [World.accept_nil])
        rw [World.accept_nil] at hrefused
        rw [sendAll_cons_of_error hanswer]
        exact hrefused
      | ok reply =>
        rw [sendAll_cons_of_ok hanswer, ServerTable.obey_text hc]
        exact (sendAll_spec answers _ hcs).cons

/-! ## Patching -/

/-- **How an attempt to patch goes**: a plan is made and every command of it accepted, a command of
it is refused, or nothing is sent at all. -/
inductive Attempt (channel : Option Answers) (increment : Nat) (previous : Option Generation)
    (current : Generation) (w : World) : (PatchResult × Generation) × World → Prop where
  | applied (old : Generation) (plans : List BackendPlan) (before : previous = some old)
      (planned : planPatch old current = some plans) :
      Attempt channel increment previous current w
        ((.applied (planCommands plans).length, adoptPlans plans current),
          w.accept (planCommands plans))
  | refused (old : Generation) (plans : List BackendPlan) (before : previous = some old)
      (planned : planPatch old current = some plans) (accepted : List ServerCommand)
      (c : ServerCommand) (rest : List ServerCommand)
      (split : planCommands plans = accepted ++ c :: rest) :
      Attempt channel increment previous current w
        ((.reloadRequired accepted.length, current.mapBackends (Backend.pad increment)),
          (w.accept accepted).log (.send c.text))
  | silent (reason : ∀ old plans, previous = some old → planPatch old current = some plans →
        channel = none ∧ planCommands plans ≠ []) :
      Attempt channel increment previous current w
        ((.reloadRequired 0, current.mapBackends (Backend.pad increment)), w)

section

variable {increment : Nat} {previous : Option Generation} {current : Generation} {w : World}
  {plans : List BackendPlan}

/-- Without a plan nothing is sent. -/
theorem patch_of_no_plan (channel : Option Answers)
    (h : (previous.bind fun o => planPatch o current) = none) :
    patch (channel.map World.send) increment previous current w
      = ((.reloadRequired 0, current.mapBackends (Backend.pad increment)), w) := by
  simp only [patch, h]
  rfl

/-- A plan without commands is adopted. -/
theorem patch_of_settled (channel : Option Answers)
    (h : (previous.bind fun o => planPatch o current) = some plans) (hcs : planCommands plans = []) :
    patch (channel.map World.send) increment previous current w
      = ((.applied 0, adoptPlans plans current), w) := by
  simp only [patch, h, applyPlans, hcs]
  rfl

/-- Without a channel nothing is sent. -/
theorem patch_of_no_channel (h : (previous.bind fun o => planPatch o current) = some plans)
    (hcs : planCommands plans ≠ []) :
    patch ((none : Option Answers).map World.send) increment previous current w
      = ((.reloadRequired 0, current.mapBackends (Backend.pad increment)), w) := by
  obtain ⟨c, cs, hcons⟩ := List.exists_cons_of_ne_nil hcs
  simp only [patch, h, applyPlans, hcons]
  rfl

/-- **With a channel the commands of the plan are sent**, and how that ends decides. -/
theorem patch_of_channel (answers : Answers)
    (h : (previous.bind fun o => planPatch o current) = some plans) :
    patch ((some answers).map World.send) increment previous current w
      = match sendAll (World.send answers) (planCommands plans) w with
        | ((n, some _), w') =>
          ((.reloadRequired n, current.mapBackends (Backend.pad increment)), w')
        | ((n, none), w') => ((.applied n, adoptPlans plans current), w') := by
  cases hcs : planCommands plans with
  | nil => exact patch_of_settled (some answers) h hcs
  | cons c cs =>
    simp only [patch, h, applyPlans, hcs, Option.map_some, Functor.map, StateT.map, bind,
      StateT.bind]
    rcases sendAll (World.send answers) (c :: cs) w with ⟨⟨n, _ | e⟩, w'⟩ <;> rfl

end

/-- **An attempt to patch goes one of the three ways.** -/
theorem patch_spec {channel : Option Answers} {increment : Nat} {previous : Option Generation}
    {current : Generation} {w : World}
    (hplain : ∀ old plans, previous = some old → planPatch old current = some plans →
      ∀ c ∈ planCommands plans, c.IsPlain) :
    Attempt channel increment previous current w
      (patch (channel.map World.send) increment previous current w) := by
  cases hplans : previous.bind fun o => planPatch o current with
  | none =>
    rw [patch_of_no_plan channel hplans]
    refine .silent fun old plans hold hplan => ?_
    rw [hold, Option.bind_some, hplan] at hplans
    exact nomatch hplans
  | some plans =>
    obtain ⟨old, rfl, hplan⟩ := Option.bind_eq_some_iff.mp hplans
    cases channel with
    | some answers =>
      have hsends := sendAll_spec answers w (hplain old plans rfl hplan)
      rw [patch_of_channel answers hplans]
      generalize sendAll (World.send answers) (planCommands plans) w = r at hsends
      cases hsends with
      | all => exact .applied old plans rfl hplan
      | refused accepted d rest e split =>
        exact .refused old plans rfl hplan accepted d rest split
    | none =>
      by_cases hcs : planCommands plans = []
      · have happlied : Attempt none increment (some old) current w
            ((.applied (planCommands plans).length, adoptPlans plans current),
              w.accept (planCommands plans)) := .applied old plans rfl hplan
        rw [hcs, World.accept_nil] at happlied
        rw [patch_of_settled none hplans hcs]
        exact happlied
      · rw [patch_of_no_channel hplans hcs]
        refine .silent fun old' plans' hold' hplan' => ⟨rfl, ?_⟩
        obtain rfl := Option.some.inj hold'
        obtain rfl := Option.some.inj (hplan.symm.trans hplan')
        exact hcs

end Rollout
