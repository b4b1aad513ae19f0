import Rollout.Proofs.Patch.Live

/-!
# Proofs/Patch/Sent — the lines that reach the proxy

Whatever the proxy answers, an attempt to patch sends the lines of a first part of the plan
(`Attempt.exists_sent`).  The three parts of a line come from different places: the id from the new
generation, the name of the slot from the old one, the address from an enabled server of the new one.
Each of them was checked where it came from, so a line decodes to the command that it was made of
(`ServerCommand.IsPlain.decodes`).
-/

namespace Rollout

/-! ## Lines -/

/-- A text without a control character; in particular, a single line. -/
def OneLine (s : String) : Prop := ∀ c ∈ s.toList, Text.isControl c = false

instance (s : String) : Decidable (OneLine s) :=
  List.decidableBAll (fun c => Text.isControl c = false) s.toList

theorem OneLine.append {s t : String} (hs : OneLine s) (ht : OneLine t) : OneLine (s ++ t) := by
  intro c hc
  rw [String.toList_append, List.mem_append] at hc
  exact hc.elim (hs c) (ht c)

theorem oneLine_decimal (n : Nat) : OneLine (Text.decimal n) := fun _ hc =>
  (Text.isDigit_harmless (Text.isDigit_of_mem_digits (Text.toList_decimal n ▸ hc))).2.2.2

theorem Address.oneLine_of_parse {s : String} (h : (parse s).isSome = true) : OneLine s :=
  fun c hc => (isAddressChar_harmless (isAddressChar_of_parse h c hc)).2

/-- The words of a plain action are one line. -/
theorem ServerAction.IsPlain.oneLine : ∀ {a : ServerAction}, a.IsPlain → OneLine a.text
  | .setWeight w, _ => OneLine.append (by decide) (oneLine_decimal w.toNat)
  | .maintain, _ | .makeReady, _ => by decide
  | .setAddress _ port, h =>
    (((by decide : OneLine "addr ").append (Address.oneLine_of_parse h)).append (by decide)).append
      (oneLine_decimal port.toNat)

namespace ServerCommand

/-- **What can be read off the line of a command**: it is one line, its words are those of one of the
four forms, what stands before and behind the first slash of the third word is the backend and the
server, an address among the words is one, and the whole command is found again. -/
structure Decodes (c : ServerCommand) : Prop where
  oneLine : OneLine c.text
  words : Rollout.words c.text
    = "set" :: "server" :: (c.backend ++ "/" ++ c.server) :: c.action.words
  target : (Rollout.words c.text)[2]?.bind splitAtSlash = some (c.backend, c.server)
  address : ∀ ip port, c.action = .setAddress ip port → (Address.parse ip).isSome = true
  read : ServerCommand.read c.text = some c

/-- **A plain command decodes.** -/
theorem IsPlain.decodes {c : ServerCommand} (h : c.IsPlain) : c.Decodes where
  oneLine :=
    (((((by decide : OneLine "set server ").append h.backend.no_control).append (by decide)).append
      h.server.no_control).append (by decide)).append h.action.oneLine
  words := words_text h
  target := by
    rw [words_text h]
    exact splitAtSlash_append h.backend.no_slash c.server
  address ip port heq := by
    have := h.action
    rwa [heq] at this
  read := read_text h

/-- Commands that decode differ in their lines. -/
theorem Decodes.eq_of_text {c d : ServerCommand} (hc : c.Decodes) (hd : d.Decodes)
    (h : c.text = d.text) : c = d :=
  Option.some.inj (hc.read.symm.trans ((congrArg ServerCommand.read h).trans hd.read))

end ServerCommand

/-! ## Attempts -/

/-- The commands of the plan between two generations, if there is one. -/
def plannedCommands (old current : Generation) : List ServerCommand :=
  ((planPatch old current).map planCommands).getD []

/-- **An attempt to patch sends a first part of the plan**, and makes no other call. -/
theorem Attempt.exists_sent {channel : Option Answers} {increment : Nat} {old current : Generation}
    {w : World} {r : (PatchResult × Generation) × World}
    (h : Attempt channel increment (some old) current w r) :
    ∃ sent, sent <+: plannedCommands old current ∧
      r.2.calls = w.calls ++ sent.map fun c => .send c.text := by
  cases h with
  | applied _ plans before planned =>
    obtain rfl := Option.some.inj before
    refine ⟨planCommands plans, ?_, rfl⟩
    rw [plannedCommands, planned]
    exact List.prefix_refl _
  | refused _ plans before planned accepted c rest split =>
    obtain rfl := Option.some.inj before
    refine ⟨accepted ++ [c], ?_, ?_⟩
    · rw [plannedCommands, planned]
      exact ⟨rest, (List.append_cons ..).symm.trans split.symm⟩
    · rw [List.map_append, ← List.append_assoc]
      rfl
  | silent => exact ⟨[], List.nil_prefix, (List.append_nil _).symm⟩

/-- A planned command belongs to a plan. -/
theorem exists_plan_of_mem_plannedCommands {old current : Generation} {c : ServerCommand}
    (hc : c ∈ plannedCommands old current) :
    ∃ plans, planPatch old current = some plans ∧ c ∈ planCommands plans := by
  rw [plannedCommands] at hc
  cases hplan : planPatch old current with
  | none => simp [hplan] at hc
  | some plans => exact ⟨plans, rfl, by simpa [hplan] using hc⟩

/-- **What is sent decodes.**  Between two built generations, an attempt to patch calls the proxy with
the lines of a first part of the planned commands, and does nothing else.  Each planned command is for
a backend of the new generation and a server of the old backend of that id, and its line decodes to
it.  Two planned commands with the same line are the same. -/
theorem sent_lines_decode {old current : Generation} (hold : old.IsBuilt)
    (hcurrent : current.IsBuilt) (channel : Option Answers) (increment : Nat) (w : World) :
    (∃ sent, sent <+: plannedCommands old current ∧
      (patch (channel.map World.send) increment (some old) current w).2.calls
        = w.calls ++ sent.map fun c => .send c.text) ∧
    (∀ c ∈ plannedCommands old current, (∃ b ∈ current.backends, b.id = c.backend) ∧
      (∃ o ∈ old.backends, o.id = c.backend ∧ c.server ∈ o.servers.map (·.name)) ∧ c.Decodes) ∧
    ∀ c ∈ plannedCommands old current, ∀ d ∈ plannedCommands old current,
      c.text = d.text → c = d := by
  have hplanned : ∀ plans, planPatch old current = some plans → Planned old current plans :=
    fun plans hplan => ⟨hold, hcurrent, hplan⟩
  have hdecodes : ∀ c ∈ plannedCommands old current, c.Decodes := by
    intro c hc
    obtain ⟨plans, hplan, hc⟩ := exists_plan_of_mem_plannedCommands hc
    exact ((hplanned plans hplan).isPlain c hc).decodes
  refine ⟨?_, fun c hc => ?_, fun c hc d hd h => (hdecodes c hc).eq_of_text (hdecodes d hd) h⟩
  · have hattempt : Attempt channel increment (some old) current w
        (patch (channel.map World.send) increment (some old) current w) :=
      patch_spec fun _ plans heq hplan =>
        (hplanned plans (Option.some.inj heq ▸ hplan)).isPlain
    exact hattempt.exists_sent
  · obtain ⟨plans, hplan, hcp⟩ := exists_plan_of_mem_plannedCommands hc
    obtain ⟨b, hb, o, ho, p, hid, hspec, hcp⟩ := (hplanned plans hplan).exists_spec_of_mem hcp
    obtain ⟨hbackend, hserver⟩ := hspec.targets c hcp
    exact ⟨⟨b, hb, hbackend.symm⟩, ⟨o, ho, hid.trans hbackend.symm, hserver⟩, hdecodes c hc⟩

/-- Five commands are planned, and the third is refused. -/
theorem sent_lines_decode_rollout :
    let refusing : Answers := fun calls line =>
      if calls.length < 2 then .ok "" else .error (.rejected line "No such server.")
    (∃ sent, sent <+: plannedCommands beforeRollout afterRollout ∧
      (patch ((some refusing).map World.send) 4 (some beforeRollout) afterRollout {}).2.calls
        = [] ++ sent.map fun c => .send c.text) ∧
    (∀ c ∈ plannedCommands beforeRollout afterRollout,
      (∃ b ∈ afterRollout.backends, b.id = c.backend) ∧
      (∃ o ∈ beforeRollout.backends, o.id = c.backend ∧ c.server ∈ o.servers.map (·.name)) ∧
      c.Decodes) ∧
    ∀ c ∈ plannedCommands beforeRollout afterRollout,
      ∀ d ∈ plannedCommands beforeRollout afterRollout, c.text = d.text → c = d :=
  sent_lines_decode ⟨by decide +kernel, by decide +kernel⟩ ⟨by decide +kernel, by decide +kernel⟩
    _ 4 {}

end Rollout
