import Rollout.Cycle.Run

/-!
# Proofs/Cycle/Record — keeping a record of a cycle

Collaborators over an arbitrary state may answer as they like, also depending on what happened
before.  `Collaborators.recorded` has every one of them put its call, with the answer, into a record.
`Records` relates a program that keeps the record to the same program without it: both come to the
same, and what is put into the record fits the result.  It composes along `bind`, so one walk through
a program yields both.
-/

namespace Rollout

/-- **A call on a collaborator, with its answer.** -/
inductive Effect where
  | patch (previous : Option Generation) (built : Generation) (result : PatchResult)
      (patched : Generation)
  | write (g : Generation) (answer : Except RenderError Unit)
  | validate (answer : Except ProcessError Unit)
  | reload (answer : Except ProcessError Unit)

/-- Whom a call goes to. -/
inductive Collaborator where
  | updater
  | writer
  | validator
  | reloader
  deriving DecidableEq, Repr

/-- The collaborator of a call. -/
def Effect.collaborator : Effect → Collaborator
  | .patch .. => .updater
  | .write .. => .writer
  | .validate _ => .validator
  | .reload _ => .reloader

/-- Programs over some state that keep a record. -/
abbrev Recorded (σ : Type) := StateM (σ × List Effect)

variable {σ α β : Type}

/-- Run a program and put it into the record. -/
def recordAs (effect : α → Effect) (y : StateM σ α) : Recorded σ α := fun (w, es) =>
  ((y w).1, (y w).2, es ++ [effect (y w).1])

/-- Run a program that does not belong into the record. -/
def unrecorded (y : StateM σ α) : Recorded σ α := fun (w, es) => ((y w).1, (y w).2, es)

/-- Notes do not belong into the record. -/
instance [Journal (StateM σ)] : Journal (Recorded σ) := ⟨fun n => unrecorded (Journal.note n)⟩

/-- **Collaborators that keep a record of their calls.** -/
def Collaborators.recorded (c : Collaborators (StateM σ)) : Collaborators (Recorded σ) where
  patch previous g := recordAs (fun r => .patch previous g r.1 r.2) (c.patch previous g)
  write g := recordAs (.write g) (c.write g)
  validate := recordAs .validate c.validate
  reload := recordAs .reload c.reload
  clock := unrecorded c.clock

/-- **A program does the same as one without a record**, and puts effects into the record that fit
its result. -/
def Records (x : Recorded σ α) (y : StateM σ α) (fits : α → List Effect → Prop) : Prop :=
  ∀ w es, ∃ effects, x (w, es) = ((y w).1, (y w).2, es ++ effects) ∧ fits (y w).1 effects

namespace Records

variable {fits : α → List Effect → Prop}

protected theorem pure {a : α} (h : fits a []) :
    Records (pure a : Recorded σ α) (pure a) fits := fun w es =>
  ⟨[], congrArg (fun l => (a, w, l)) (List.append_nil es).symm, h⟩

/-- **One program after another** puts its effects behind those of the first. -/
protected theorem bind {x : Recorded σ α} {y : StateM σ α} {f : α → Recorded σ β}
    {k : α → StateM σ β} {fits' : β → List Effect → Prop} (h : Records x y fits)
    (hf : ∀ a effects, fits a effects →
      Records (f a) (k a) fun b more => fits' b (effects ++ more)) :
    Records (x >>= f) (y >>= k) fits' := by
  intro w es
  obtain ⟨effects, hx, hfits⟩ := h w es
  obtain ⟨more, hfa, hfits'⟩ := hf (y w).1 effects hfits (y w).2 (es ++ effects)
  refine ⟨effects ++ more, ?_, hfits'⟩
  have hrun : (x >>= f) (w, es) = f (y w).1 ((y w).2, es ++ effects) := by
    simp only [bind, StateT.bind, hx]
  rw [hrun, hfa, List.append_assoc]
  rfl

section

variable {f : α → Recorded σ β} {k : α → StateM σ β} {fits : β → List Effect → Prop}

/-- **A call comes first**, and then what depends on its answer. -/
theorem recordAs_bind (effect : α → Effect) (y : StateM σ α)
    (h : ∀ a, Records (f a) (k a) fun b more => fits b (effect a :: more)) :
    Records (recordAs effect y >>= f) (y >>= k) fits := by
  have hcall : Records (recordAs effect y) y fun a effects => effects = [effect a] :=
    fun w _ => ⟨[effect (y w).1], rfl, rfl⟩
  refine hcall.bind fun a effects heffects => ?_
  obtain rfl : effects = [effect a] := heffects
  exact h a

/-- What is not recorded leaves no effect. -/
theorem unrecorded_bind (y : StateM σ α) (h : ∀ a, Records (f a) (k a) fits) :
    Records (unrecorded y >>= f) (y >>= k) fits := by
  have hcall : Records (unrecorded y) y fun _ effects => effects = [] := fun w es =>
    ⟨[], congrArg (fun l => ((y w).1, (y w).2, l)) (List.append_nil es).symm, rfl⟩
  refine hcall.bind fun a effects hnone => ?_
  obtain rfl : effects = [] := hnone
  exact h a

/-! One rule for each call. -/

variable {c : Collaborators (StateM σ)}

theorem patch_bind {previous : Option Generation} {built : Generation}
    {f : PatchResult × Generation → Recorded σ β} {k : PatchResult × Generation → StateM σ β}
    (h : ∀ result patched, Records (f (result, patched)) (k (result, patched))
      fun b more => fits b (.patch previous built result patched :: more)) :
    Records (c.recorded.patch previous built >>= f) (c.patch previous built >>= k) fits :=
  recordAs_bind (fun r => .patch previous built r.1 r.2) (c.patch previous built) fun r => h r.1 r.2

theorem write_bind {g : Generation} {f : Except RenderError Unit → Recorded σ β}
    {k : Except RenderError Unit → StateM σ β}
    (h : ∀ answer, Records (f answer) (k answer) fun b more => fits b (.write g answer :: more)) :
    Records (c.recorded.write g >>= f) (c.write g >>= k) fits :=
  recordAs_bind (.write g) (c.write g) h

theorem validate_bind {f : Except ProcessError Unit → Recorded σ β}
    {k : Except ProcessError Unit → StateM σ β}
    (h : ∀ answer, Records (f answer) (k answer) fun b more => fits b (.validate answer :: more)) :
    Records (c.recorded.validate >>= f) (c.validate >>= k) fits :=
  recordAs_bind .validate c.validate h

theorem reload_bind {f : Except ProcessError Unit → Recorded σ β}
    {k : Except ProcessError Unit → StateM σ β}
    (h : ∀ answer, Records (f answer) (k answer) fun b more => fits b (.reload answer :: more)) :
    Records (c.recorded.reload >>= f) (c.reload >>= k) fits :=
  recordAs_bind .reload c.reload h

theorem pass_bind {p : Checkpoint} {f : Tick → Recorded σ β} {k : Tick → StateM σ β}
    (h : ∀ time, Records (f ⟨p, time⟩) (k ⟨p, time⟩) fits) :
    Records (c.recorded.pass p >>= f) (c.pass p >>= k) fits :=
  unrecorded_bind c.clock h

theorem note_bind [Journal (StateM σ)] {n : Note} {f : Unit → Recorded σ β}
    {k : Unit → StateM σ β} (h : Records (f ()) (k ()) fits) :
    Records (Journal.note n >>= f) (Journal.note n >>= k) fits :=
  unrecorded_bind (Journal.note n) fun _ => h

end

end Records

end Rollout
