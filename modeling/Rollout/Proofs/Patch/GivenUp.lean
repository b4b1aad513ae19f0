import Rollout.Proofs.Patch.Live

/-!
# Proofs/Patch/GivenUp — what a patch that is given up leaves behind

A patch is given up without a plan, without a channel for a plan that needs one, and when the proxy
refuses a command.  By then a first part of the plan has been accepted (`sendAll_of_refusesAfter`),
but the pending generation is not patched: it takes the planned servers only once all commands are
accepted, and all that the padding for the reload adds is empty slots (`extends_pad`).
-/

namespace Rollout

/-! ## Refused commands -/

/-- **The proxy accepts `n` lines, one after the other, and refuses the one behind them.** -/
inductive RefusesAfter (answers : Answers) : (calls : List Call) → (lines : List String) →
    (n : Nat) → Prop where
  | now {calls : List Call} {line : String} {rest : List String} (e : ControlError)
      (answer : answers calls line = .error e) : RefusesAfter answers calls (line :: rest) 0
  | later {calls : List Call} {line : String} {rest : List String} {n : Nat} (reply : String)
      (answer : answers calls line = .ok reply)
      (behind : RefusesAfter answers (calls ++ [.send line]) rest n) :
      RefusesAfter answers calls (line :: rest) (n + 1)

/-- **What is sent to a proxy that refuses a line**: those before it, which it obeys, that line, and
nothing else. -/
theorem sendAll_of_refusesAfter {answers : Answers} : ∀ {cs : List ServerCommand} {n : Nat}
    (w : World), RefusesAfter answers w.calls (cs.map ServerCommand.text) n →
      ∃ e, sendAll (World.send answers) cs w = ((n, some e), { w with
        calls := w.calls ++ ((cs.map ServerCommand.text).take (n + 1)).map Call.send
        servers := w.servers.obeyAll ((cs.map ServerCommand.text).take n) })
  | _ :: _, 0, _, .now e answer => ⟨e, sendAll_cons_of_error answer⟩
  | c :: cs, n + 1, w, .later reply answer behind => by
      obtain ⟨e, he⟩ := sendAll_of_refusesAfter
        { w.log (.send c.text) with servers := w.servers.obey c.text } behind
      refine ⟨e, ?_⟩
      rw [sendAll_cons_of_ok answer, he]
      simp [World.log, ServerTable.obeyAll]

/-- **An attempt whose plan is refused** asks for a reload, with the number of accepted commands. -/
theorem patch_of_refusesAfter {answers : Answers} {increment n : Nat}
    {previous : Option Generation} {current : Generation} {plans : List BackendPlan} {w : World}
    (h : (previous.bind fun old => planPatch old current) = some plans)
    (hrefuses : RefusesAfter answers w.calls ((planCommands plans).map ServerCommand.text) n) :
    patch ((some answers).map World.send) increment previous current w
      = ((.reloadRequired n, current.mapBackends (Backend.pad increment)), { w with
          calls := w.calls
            ++ (((planCommands plans).map ServerCommand.text).take (n + 1)).map Call.send
          servers := w.servers.obeyAll (((planCommands plans).map ServerCommand.text).take n) }) := by
  obtain ⟨e, hsent⟩ := sendAll_of_refusesAfter w hrefuses
  rw [patch_of_channel answers h, hsent]

/-! ## Padded generations -/

/-- **A backend with more empty slots behind its servers**, and none if the increment is zero. -/
def Backend.Extends (increment : Nat) (b c : Backend) : Prop :=
  ∃ slots : List Server, c = { b with servers := b.servers ++ slots } ∧
    (∀ s ∈ slots, s = Server.emptySlot s.name) ∧ (increment = 0 → slots = [])

theorem Backend.extends_pad (increment : Nat) (b : Backend) :
    b.Extends increment (b.pad increment) := by
  refine ⟨(slotNames (b.servers.map (·.name)) (b.missingSlots increment)).map Server.emptySlot, ?_,
    fun s hs => ?_, fun h => ?_⟩
  · rw [← b.servers_pad, pad]
    split_ifs <;> rfl
  · obtain ⟨name, -, rfl⟩ := List.mem_map.mp hs
    rfl
  · rw [missingSlots, if_pos h]
    rfl

/-- **A generation that another one differs from by such slots only**: its routing, its settings and
its artifacts are the same, and so is every server that it lists. -/
structure Generation.Extends (increment : Nat) (g h : Generation) : Prop where
  elsewhere : h = g.withBackends h.backends
  backends : List.Forall₂ (Backend.Extends increment) g.backends h.backends

/-- Padding adds empty slots. -/
theorem Generation.extends_pad (increment : Nat) (g : Generation) :
    g.Extends increment (g.mapBackends (Backend.pad increment)) where
  elsewhere := rfl
  backends := List.forall₂_map_right_iff.mpr
    (List.forall₂_same.mpr fun b _ => b.extends_pad increment)

/-- **Giving up leaves the pending generation as desired.**  Take any previous generation or none, any
pending one, any increment and any channel, and let `lines` be those of the plan between the two.

If the proxy refuses a line after accepting `n`, the attempt asks for a reload after `n` commands.  The
proxy has been called with the first `n` lines, in order, which it obeyed, then with the refused one,
and not again.  Without a plan, or without a channel for a plan that has commands, the world stays as
it is, and the number is zero.  Each time, the pending generation only gains empty slots.  (The
previous generation is read and is no part of what comes back.) -/
theorem giving_up_leaves_pending (channel : Option Answers) (increment : Nat)
    (previous : Option Generation) (current : Generation) (w : World) :
    let plan := previous.bind fun old => planPatch old current
    let lines := ((plan.map planCommands).getD []).map ServerCommand.text
    let r := patch (channel.map World.send) increment previous current w
    (∀ answers n, channel = some answers → RefusesAfter answers w.calls lines n →
      r.1.1 = .reloadRequired n ∧
        r.2 = { w with
          calls := w.calls ++ (lines.take (n + 1)).map Call.send
          servers := w.servers.obeyAll (lines.take n) } ∧
        current.Extends increment r.1.2) ∧
    (plan = none ∨ channel = none ∧ lines ≠ [] →
      r.1.1 = .reloadRequired 0 ∧ r.2 = w ∧ current.Extends increment r.1.2) := by
  intro plan lines r
  have hpadded := current.extends_pad increment
  have hlines : ∀ {plans}, plan = some plans →
      lines = (planCommands plans).map ServerCommand.text := fun hplan => by
    simp only [lines, hplan]
    rfl
  have hno_lines : plan = none → lines = [] := fun hplan => by
    simp only [lines, hplan]
    rfl
  constructor
  · rintro answers n rfl hrefuses
    cases hplan : plan with
    | none => nomatch hno_lines hplan ▸ hrefuses
    | some plans =>
      rw [hlines hplan] at hrefuses ⊢
      rw [show r = _ from patch_of_refusesAfter hplan hrefuses]
      exact ⟨rfl, rfl, hpadded⟩
  · intro hreason
    cases hplan : plan with
    | none =>
      rw [show r = _ from patch_of_no_plan channel hplan]
      exact ⟨rfl, rfl, hpadded⟩
    | some plans =>
      obtain ⟨rfl, hsome⟩ := hreason.resolve_left (by rw [hplan]; exact nofun)
      have hcs : planCommands plans ≠ [] := fun hcs => hsome (by rw [hlines hplan, hcs]; rfl)
      rw [show r = _ from patch_of_no_channel hplan hcs]
      exact ⟨rfl, rfl, hpadded⟩

/-- The third of five lines is refused; without a channel, and without a previous generation, nothing
is sent. -/
theorem giving_up_leaves_pending_rollout :
    let refusing : Answers := fun calls line =>
      if calls.length < 2 then .ok "" else .error (.rejected line "No such server.")
    let refused := patch (some (World.send refusing)) 4 (some beforeRollout) afterRollout {}
    let silent := patch (m := StateM World) none 4 (some beforeRollout) afterRollout {}
    let first := patch (some (World.send refusing)) 4 none afterRollout {}
    (refused.1.1 = .reloadRequired 2 ∧
      refused.2.calls = [.send "set server app/srv001 weight 2",
        .send "set server app/srv002 state maint",
        .send "set server app/srv002 addr 10.0.0.3 port 80"] ∧
      afterRollout.Extends 4 refused.1.2) ∧
    (silent.1.1 = .reloadRequired 0 ∧ silent.2 = {} ∧ afterRollout.Extends 4 silent.1.2) ∧
    first.1.1 = .reloadRequired 0 ∧ first.2 = {} ∧ afterRollout.Extends 4 first.1.2 := by
  intro refusing refused silent first
  have hlines : ((((some beforeRollout).bind fun old => planPatch old afterRollout).map
      planCommands).getD []).map ServerCommand.text = ["set server app/srv001 weight 2",
        "set server app/srv002 state maint", "set server app/srv002 addr 10.0.0.3 port 80",
        "set server app/srv002 weight 1", "set server app/srv002 state ready"] := by
    decide +kernel
  refine ⟨?_, ?_, ?_⟩
  · have hrefused := (giving_up_leaves_pending (some refusing) 4 (some beforeRollout) afterRollout
      {}).1 refusing 2 rfl (by rw [hlines]; exact .later "" rfl (.later "" rfl (.now _ rfl)))
    refine ⟨hrefused.1, ?_, hrefused.2.2⟩
    rw [show refused.2 = _ from hrefused.2.1, hlines]
    rfl
  · exact (giving_up_leaves_pending none 4 (some beforeRollout) afterRollout {}).2
      (Or.inr ⟨rfl, by rw [hlines]; exact List.cons_ne_nil _ _⟩)
  · exact (giving_up_leaves_pending (some refusing) 4 none afterRollout {}).2 (Or.inl rfl)

end Rollout
