import Rollout.Proofs.Cycle.Record
import Rollout.Proofs.Cycle.Run

/-!
# Proofs/Cycle/Gating — what a cycle does, when and in which order

Whatever its collaborators answer, a cycle goes one of a few ways, each with its effects in order, its
report and the generation it leaves (`PreparedBy`, `FinishedBy`, `Course`).  What decides about the
effects can be read off them: `Gated` says who is called and exactly when, which checkpoints are
passed and what becomes the previous generation.
-/

namespace Rollout

variable {σ : Type} [Journal (StateM σ)] {s : CycleSettings}

/-! ## The ways of a cycle -/

/-- **The ways of the first half of a cycle.** -/
inductive PreparedBy (s : CycleSettings) (previous : Option Generation) (g : Generation) :
    Prepared → List Effect → Prop where
  | failed (phase : BuildPhase) (error : BuildError) (left : Generation)
      (builds : g.build = (.error (phase, error), left)) :
      PreparedBy s previous g ⟨left, .error (.buildFailed phase error), []⟩ []
  | unchanged (built old : Generation) (builds : g.build = (.ok (), built))
      (before : previous = some old) (serves : built.serves old = true) :
      PreparedBy s previous g ⟨built.adoptServers old, .error .unchanged, []⟩ []
  | settled (built patched : Generation) (builds : g.build = (.ok (), built))
      (differs : built.matchesOld previous = false) :
      PreparedBy s previous g ⟨s.arrange patched, .ok (.applied 0), []⟩
        [.patch previous built (.applied 0) patched]
  | written (built patched : Generation) (result : PatchResult) (time : Nat)
      (builds : g.build = (.ok (), built)) (differs : built.matchesOld previous = false)
      (needed : result.needsWrite = true) :
      PreparedBy s previous g ⟨s.arrange patched, .ok result, [⟨.written, time⟩]⟩
        [.patch previous built result patched, .write (s.arrange patched) (.ok ())]
  | writeFailed (built patched : Generation) (result : PatchResult) (time : Nat)
      (error : RenderError) (builds : g.build = (.ok (), built))
      (differs : built.matchesOld previous = false) (needed : result.needsWrite = true) :
      PreparedBy s previous g ⟨s.arrange patched, .error (.writeFailed error), [⟨.written, time⟩]⟩
        [.patch previous built result patched, .write (s.arrange patched) (.error error)]

/-- **The ways of the second half of a cycle.** -/
inductive FinishedBy (s : CycleSettings) : PatchResult → Report → List Effect → Prop where
  | settled : FinishedBy s (.applied 0) ⟨.appliedLive 0, []⟩ []
  | patched (n : Nat) (trusted : s.validateConfig = false) :
      FinishedBy s (.applied (n + 1)) ⟨.appliedLive (n + 1), []⟩ []
  | validated (n time : Nat) (answer : Except ProcessError Unit) (asked : s.validateConfig = true) :
      FinishedBy s (.applied (n + 1)) ⟨.appliedLive (n + 1), [⟨.validated, time⟩]⟩
        [.validate answer]
  | reloaded (n time : Nat) :
      FinishedBy s (.reloadRequired n) ⟨.reloaded, [⟨.reloaded, time⟩]⟩ [.reload (.ok ())]
  | reloadFailed (n : Nat) (error : ProcessError) :
      FinishedBy s (.reloadRequired n) ⟨.reloadFailed error, []⟩ [.reload (.error error)]

/-- **The ways of a cycle.** -/
inductive Course (s : CycleSettings) (i : Instance) : Report × Instance → List Effect → Prop where
  | empty (nothing : i.pending = none) : Course s i (⟨.empty, []⟩, i) []
  | ended (g left : Generation) (outcome : Outcome) (ticks : List Tick) (effects : List Effect)
      (given : i.pending = some g)
      (prepared : PreparedBy s i.previous g ⟨left, .error outcome, ticks⟩ effects) :
      Course s i (⟨outcome, ticks⟩, { previous := some left }) effects
  | finished (g left : Generation) (result : PatchResult) (ticks : List Tick) (report : Report)
      (effects more : List Effect) (given : i.pending = some g)
      (prepared : PreparedBy s i.previous g ⟨left, .ok result, ticks⟩ effects)
      (finished : FinishedBy s result report more) :
      Course s i (⟨report.outcome, ticks ++ report.ticks⟩, { previous := some left })
        (effects ++ more)

/-- Nothing but equality with the previous generation keeps a built one from being applied. -/
theorem matchesOld_eq_false {previous : Option Generation} {built : Generation}
    (h : previous.filter built.serves = none) : built.matchesOld previous = false := by
  cases previous with
  | none => rfl
  | some old => simpa [Generation.matchesOld] using h

variable (c : Collaborators (StateM σ))

/-- **The first half of a cycle goes one of its ways.** -/
theorem prepare_records (s : CycleSettings) (previous : Option Generation) (g : Generation) :
    Records (prepare c.recorded s previous g) (prepare c s previous g)
      (PreparedBy s previous g) := by
  rw [prepare_eq, prepare_eq]
  rcases hbuild : g.build with ⟨⟨phase, error⟩ | ⟨⟩, built⟩
  · exact .note_bind <| .pure (.failed phase error built hbuild)
  cases hfilter : previous.filter built.serves with
  | some old =>
    obtain ⟨hbefore, hserves⟩ := Option.filter_eq_some_iff.mp hfilter
    simp only [applyBuilt, hfilter]
    exact .pure (.unchanged built old hbuild hbefore hserves)
  | none =>
    have hdiffers := matchesOld_eq_false hfilter
    simp only [applyBuilt, hfilter]
    refine .patch_bind fun result patched => ?_
    simp only [writePatched]
    split_ifs with hneeded
    · refine .write_bind fun answer => .pass_bind fun time => ?_
      cases answer with
      | ok => exact .pure (.written built patched result time hbuild hdiffers hneeded)
      | error error =>
        exact .note_bind <|
          .pure (.writeFailed built patched result time error hbuild hdiffers hneeded)
    · cases result with
      | applied n =>
        obtain rfl : n = 0 := by simpa [PatchResult.needsWrite] using hneeded
        exact .pure (.settled built patched hbuild hdiffers)
      | reloadRequired n => exact absurd rfl hneeded

/-- Validation is asked once, and whatever it says the checkpoint is passed. -/
theorem validatePatched_records : Records (validatePatched c.recorded) (validatePatched c)
    fun ticks effects => ∃ time answer, ticks = [⟨.validated, time⟩] ∧
      effects = [.validate answer] := by
  refine .validate_bind fun answer => ?_
  cases answer with
  | ok => exact .pass_bind fun time => .pure ⟨time, .ok (), rfl, rfl⟩
  | error error =>
    exact .note_bind <| .pass_bind fun time => .pure ⟨time, .error error, rfl, rfl⟩

/-- **The second half of a cycle goes one of its ways.** -/
theorem finish_records (s : CycleSettings) (result : PatchResult) :
    Records (finish c.recorded s result) (finish c s result) (FinishedBy s result) := by
  cases result with
  | applied n =>
    cases n with
    | zero => exact .note_bind <| .pure .settled
    | succ n =>
      simp only [finish]
      split_ifs with hasked
      · refine (validatePatched_records c).bind fun ticks effects hvalidated => ?_
        obtain ⟨time, answer, rfl, rfl⟩ := hvalidated
        exact .note_bind <| .pure (.validated n time answer hasked)
      · rw [pure_bind, pure_bind]
        exact .note_bind <| .pure (.patched n (by simpa using hasked))
  | reloadRequired n =>
    refine .reload_bind fun answer => ?_
    cases answer with
    | ok => exact .pass_bind fun time => .note_bind <| .pure (.reloaded n time)
    | error error => exact .note_bind <| .pure (.reloadFailed n error)

/-- **A cycle goes one of its ways.** -/
theorem update_records (s : CycleSettings) (i : Instance) :
    Records (i.update c.recorded s) (i.update c s) (Course s i) := by
  obtain ⟨previous, pending⟩ := i
  cases pending with
  | none => exact .note_bind <| .pure (.empty rfl)
  | some g =>
    refine (prepare_records c s previous g).bind fun p effects hprepared => ?_
    obtain ⟨left, outcome | result, ticks⟩ := p
    · refine .pure ?_
      rw [List.append_nil]
      exact .ended g left outcome ticks effects rfl hprepared
    · refine (finish_records c s result).bind fun report more hfinished => .pure ?_
      rw [List.append_nil]
      exact .finished g left result ticks report effects more rfl hprepared hfinished

/-! ## What decides about the effects -/

/-- The checkpoint behind a call, if the call gets there. -/
def Effect.checkpoint? : Effect → Option Checkpoint
  | .patch .. => none
  | .write .. => some .written
  | .validate _ => some .validated
  | .reload (.ok ()) => some .reloaded
  | .reload (.error _) => none

/-- **The effects of a cycle are gated**: what it calls, in which order and exactly when, which
checkpoints it passes and which generation it leaves behind. -/
structure Gated (s : CycleSettings) (i : Instance) (effects : List Effect) (report : Report)
    (after : Instance) : Prop where
  /-- Nobody is called twice.  First comes the updater, then the writer, and last one of the others. -/
  order : (effects.map Effect.collaborator).Sublist [.updater, .writer, .validator] ∨
    (effects.map Effect.collaborator).Sublist [.updater, .writer, .reloader]
  /-- The updater is called for a generation that passes both phases and differs from the previous
  one. -/
  updater : .updater ∈ effects.map Effect.collaborator ↔ ∃ g built, i.pending = some g ∧
    g.build = (.ok (), built) ∧ built.matchesOld i.previous = false
  /-- It gets just these two generations. -/
  updated : ∀ previous built result patched, .patch previous built result patched ∈ effects →
    previous = i.previous ∧ ∃ g, i.pending = some g ∧ g.build = (.ok (), built)
  /-- The writer is called if a reload is required or something was patched. -/
  writer : .writer ∈ effects.map Effect.collaborator ↔
    ∃ previous built result patched, .patch previous built result patched ∈ effects ∧
      ((∃ n, result = .reloadRequired n) ∨ ∃ n, 0 < n ∧ result = .applied n)
  /-- A reload happens if one is required and the files were written. -/
  reloader : .reloader ∈ effects.map Effect.collaborator ↔
    (∃ previous built n patched, .patch previous built (.reloadRequired n) patched ∈ effects) ∧
      ∃ g, .write g (.ok ()) ∈ effects
  /-- Validation happens if something was patched, the files were written, and it is asked for. -/
  validator : .validator ∈ effects.map Effect.collaborator ↔
    (∃ previous built n patched, 0 < n ∧ .patch previous built (.applied n) patched ∈ effects) ∧
      (∃ g, .write g (.ok ()) ∈ effects) ∧ s.validateConfig = true
  /-- The writer and validation pass their checkpoint whatever they answer, a reload only if it
  succeeds. -/
  ticks : report.ticks.map (·.checkpoint) = effects.filterMap Effect.checkpoint?
  /-- Nothing is pending any more. -/
  pending : after.pending = none
  /-- A generation that cannot be built becomes the previous one as the phases leave it. -/
  failed : ∀ g error left, i.pending = some g → g.build = (.error error, left) →
    after.previous = some left
  /-- One that equals the previous one takes over the server lists of that. -/
  adopted : ∀ g built old, i.pending = some g → g.build = (.ok (), built) →
    i.previous = some old → built.serves old = true →
      after.previous = some (built.adoptServers old)
  /-- Any other becomes the previous one as the updater left it, ordered if that is asked for. -/
  patched : ∀ previous built result patched, .patch previous built result patched ∈ effects →
    after.previous = some (s.arrange patched)
  /-- What is written is what becomes the previous generation. -/
  written : ∀ g answer, .write g answer ∈ effects → after.previous = some g
  /-- Without a pending generation nothing happens. -/
  empty : i.pending = none → effects = [] ∧ report = ⟨.empty, []⟩ ∧ after = i

namespace Course

variable {i : Instance} {r : Report × Instance} {effects : List Effect}

/-! Each part is read off way by way.  A generation that was written is never settled afterwards,
since writing was `needed`; this excludes one pair of halves every time. -/

theorem order (h : Course s i r effects) :
    (effects.map Effect.collaborator).Sublist [.updater, .writer, .validator] ∨
      (effects.map Effect.collaborator).Sublist [.updater, .writer, .reloader] := by
  cases h with
  | empty => simp
  | ended _ _ _ _ _ _ prepared => cases prepared <;> simp [Effect.collaborator]
  | finished _ _ _ _ _ _ _ _ prepared finished =>
    cases prepared <;> cases finished <;> simp [Effect.collaborator]

theorem updater (h : Course s i r effects) :
    .updater ∈ effects.map Effect.collaborator ↔ ∃ g built, i.pending = some g ∧
      g.build = (.ok (), built) ∧ built.matchesOld i.previous = false := by
  cases h with
  | empty nothing => simp [nothing]
  | ended _ _ _ _ _ given prepared =>
    cases prepared <;> simp_all [Effect.collaborator, Generation.matchesOld]
  | finished _ _ _ _ _ _ _ given prepared finished =>
    cases prepared <;> cases finished <;> simp_all [Effect.collaborator]

theorem updated (h : Course s i r effects) {previous : Option Generation}
    {built patched : Generation} {result : PatchResult}
    (hmem : .patch previous built result patched ∈ effects) :
    previous = i.previous ∧ ∃ g, i.pending = some g ∧ g.build = (.ok (), built) := by
  cases h with
  | empty => simp at hmem
  | ended _ _ _ _ _ given prepared => cases prepared <;> simp_all
  | finished _ _ _ _ _ _ _ given prepared finished =>
    cases prepared <;> cases finished <;> simp_all

theorem writer (h : Course s i r effects) :
    .writer ∈ effects.map Effect.collaborator ↔
      ∃ previous built result patched, .patch previous built result patched ∈ effects ∧
        ((∃ n, result = .reloadRequired n) ∨ ∃ n, 0 < n ∧ result = .applied n) := by
  cases h with
  | empty => simp
  | ended _ _ _ _ _ _ prepared =>
    cases prepared with
    | writeFailed _ _ result _ _ _ _ needed =>
      cases result <;> simp_all [Effect.collaborator, PatchResult.needsWrite]
    | _ => simp
  | finished _ _ _ _ _ _ _ _ prepared finished =>
    cases prepared <;> cases finished <;>
      simp_all [Effect.collaborator, PatchResult.needsWrite]

theorem reloader (h : Course s i r effects) :
    .reloader ∈ effects.map Effect.collaborator ↔
      (∃ previous built n patched, .patch previous built (.reloadRequired n) patched ∈ effects) ∧
        ∃ g, .write g (.ok ()) ∈ effects := by
  cases h with
  | empty => simp
  | ended _ _ _ _ _ _ prepared => cases prepared <;> simp [Effect.collaborator]
  | finished _ _ _ _ _ _ _ _ prepared finished =>
    cases prepared <;> cases finished <;> simp [Effect.collaborator]

theorem validator (h : Course s i r effects) :
    .validator ∈ effects.map Effect.collaborator ↔
      (∃ previous built n patched, 0 < n ∧ .patch previous built (.applied n) patched ∈ effects) ∧
        (∃ g, .write g (.ok ()) ∈ effects) ∧ s.validateConfig = true := by
  cases h with
  | empty => simp
  | ended _ _ _ _ _ _ prepared => cases prepared <;> simp [Effect.collaborator]
  | finished _ _ _ _ _ _ _ _ prepared finished =>
    cases prepared <;> cases finished <;>
      simp_all [Effect.collaborator, PatchResult.needsWrite]

theorem ticks (h : Course s i r effects) :
    r.1.ticks.map (·.checkpoint) = effects.filterMap Effect.checkpoint? := by
  cases h with
  | empty => rfl
  | ended _ _ _ _ _ _ prepared => cases prepared <;> rfl
  | finished _ _ _ _ _ _ _ _ prepared finished =>
    cases prepared <;> cases finished <;>
      simp_all [List.filterMap_cons, Effect.checkpoint?, PatchResult.needsWrite]

theorem pending (h : Course s i r effects) : r.2.pending = none := by
  cases h with
  | empty nothing => exact nothing
  | ended => rfl
  | finished => rfl

theorem failed (h : Course s i r effects) {g left : Generation} {error : BuildPhase × BuildError}
    (given : i.pending = some g) (builds : g.build = (.error error, left)) :
    r.2.previous = some left := by
  cases h with
  | empty => simp_all
  | ended _ _ _ _ _ _ prepared => cases prepared <;> simp_all
  | finished _ _ _ _ _ _ _ _ prepared => cases prepared <;> simp_all

theorem adopted (h : Course s i r effects) {g built old : Generation} (given : i.pending = some g)
    (builds : g.build = (.ok (), built)) (before : i.previous = some old)
    (serves : built.serves old = true) : r.2.previous = some (built.adoptServers old) := by
  cases h with
  | empty => simp_all
  | ended _ _ _ _ _ _ prepared => cases prepared <;> simp_all [Generation.matchesOld]
  | finished _ _ _ _ _ _ _ _ prepared => cases prepared <;> simp_all [Generation.matchesOld]

theorem patched (h : Course s i r effects) {previous : Option Generation}
    {built patched : Generation} {result : PatchResult}
    (hmem : .patch previous built result patched ∈ effects) :
    r.2.previous = some (s.arrange patched) := by
  cases h with
  | empty => simp at hmem
  | ended _ _ _ _ _ _ prepared => cases prepared <;> simp_all
  | finished _ _ _ _ _ _ _ _ prepared finished => cases prepared <;> cases finished <;> simp_all

theorem written (h : Course s i r effects) {g : Generation} {answer : Except RenderError Unit}
    (hmem : .write g answer ∈ effects) : r.2.previous = some g := by
  cases h with
  | empty => simp at hmem
  | ended _ _ _ _ _ _ prepared => cases prepared <;> simp_all
  | finished _ _ _ _ _ _ _ _ prepared finished => cases prepared <;> cases finished <;> simp_all

theorem empty_of_none (h : Course s i r effects) (nothing : i.pending = none) :
    effects = [] ∧ r.1 = ⟨.empty, []⟩ ∧ r.2 = i := by
  cases h with
  | empty => exact ⟨rfl, rfl, rfl⟩
  | ended _ _ _ _ _ given => simp [nothing] at given
  | finished _ _ _ _ _ _ _ given => simp [nothing] at given

/-- **A cycle's effects are gated**, whichever way it goes. -/
theorem gated (h : Course s i r effects) : Gated s i effects r.1 r.2 where
  order := h.order
  updater := h.updater
  updated _ _ _ _ := h.updated
  writer := h.writer
  reloader := h.reloader
  validator := h.validator
  ticks := h.ticks
  pending := h.pending
  failed _ _ _ := h.failed
  adopted _ _ _ := h.adopted
  patched _ _ _ _ := h.patched
  written _ _ := h.written
  empty := h.empty_of_none

end Course

/-! ## What does not decide -/

variable (c : Collaborators (StateM σ))

/-- After a patch the second half ends as the patch did. -/
theorem finish_applied_outcome (s : CycleSettings) (n : Nat) (w : σ) :
    (finish c s (.applied n) w).1.outcome = .appliedLive n := by
  obtain ⟨effects, -, hfinished⟩ := finish_records c s (.applied n) w []
  generalize (finish c s (.applied n) w).1 = report at hfinished
  cases hfinished <;> rfl

/-- The second half ends the same with any other validation. -/
theorem finish_outcome_of_validate (v : StateM σ (Except ProcessError Unit)) (s : CycleSettings)
    (result : PatchResult) (w : σ) :
    (finish { c with validate := v } s result w).1.outcome = (finish c s result w).1.outcome := by
  cases result with
  | applied n => rw [finish_applied_outcome, finish_applied_outcome]
  | reloadRequired n => rfl

/-- **Validation never decides how a cycle ends.** -/
theorem update_outcome_of_validate (v : StateM σ (Except ProcessError Unit)) (s : CycleSettings)
    (i : Instance) (w : σ) :
    (i.update { c with validate := v } s w).1.1.outcome = (i.update c s w).1.1.outcome := by
  obtain ⟨previous, pending⟩ := i
  cases pending with
  | none => rfl
  | some g =>
    have hprepare : prepare { c with validate := v } s previous g = prepare c s previous g := rfl
    simp only [Instance.update, bind, StateT.bind, hprepare]
    obtain ⟨⟨left, outcome | result, ticks⟩, w'⟩ := prepare c s previous g w
    · rfl
    · exact finish_outcome_of_validate c v s result w'

/-- **Headline: the effects of every cycle are gated.**  The collaborators act on an arbitrary state
and answer as they like.  With a record of their calls the cycle does the same as without; its calls
are gated, and no other way of validating makes it end differently. -/
theorem cycle_gates_effects (c : Collaborators (StateM σ)) (s : CycleSettings) (i : Instance)
    (w : σ) :
    ∃ effects, i.update c.recorded s (w, []) =
        ((i.update c s w).1, (i.update c s w).2, effects) ∧
      Gated s i effects (i.update c s w).1.1 (i.update c s w).1.2 ∧
      ∀ v, (i.update { c with validate := v } s w).1.1.outcome = (i.update c s w).1.1.outcome := by
  obtain ⟨effects, hrecorded, hcourse⟩ := update_records c s i w []
  exact ⟨effects, hrecorded, hcourse.gated, fun v => update_outcome_of_validate c v s i w⟩

end Rollout
