import Rollout.State.Store
import Rollout.System.Tree

/-!
# Proofs/System/Reading — programs that only look at the files

A program `LeavesAlone` if it does not change the state, and it `Looks` if besides its result is a
function of the file tree in the state.  Reading does, and so does whatever is put together from programs
that do; `load_looks` says it of loading a desired state, `loaded_eq_error_iff` when that fails and how.
-/

namespace Rollout

variable {σ α β : Type} [HasFileTree σ]

/-- **A program that only looks**: it changes nothing, and its result is read off the file tree. -/
def Looks (x : StateM σ α) (seen : FileTree → α) : Prop :=
  ∀ w, x w = (seen (HasFileTree.tree w), w)

/-- **A program that changes nothing.** -/
def LeavesAlone (x : StateM σ α) : Prop := ∀ w, (x w).2 = w

namespace LeavesAlone

omit [HasFileTree σ]

protected theorem pure (a : α) : LeavesAlone (pure a : StateM σ α) := fun _ => rfl

protected theorem bind {x : StateM σ α} {f : α → StateM σ β} (hx : LeavesAlone x)
    (hf : ∀ a, LeavesAlone (f a)) : LeavesAlone (x >>= f) := fun w =>
  (hf (x w).1 (x w).2).trans (hx w)

/-- A program that changes nothing can be taken for its result. -/
theorem eq_of_fst {x : StateM σ α} {w : σ} {a : α} (hx : LeavesAlone x) (h : (x w).1 = a) :
    x w = (a, w) := Prod.ext h (hx w)

end LeavesAlone

namespace Looks

/-- **Who looks changes nothing.** -/
theorem leavesAlone {x : StateM σ α} {seen : FileTree → α} (h : Looks x seen) : LeavesAlone x :=
  fun w => congrArg Prod.snd (h w)

protected theorem pure (a : α) : Looks (pure a : StateM σ α) fun _ => a := fun _ => rfl

/-- **One look after another.** -/
protected theorem bind {x : StateM σ α} {f : α → StateM σ β} {seen : FileTree → α}
    (next : α → FileTree → β) (hx : Looks x seen) (hf : ∀ a, Looks (f a) (next a)) :
    Looks (x >>= f) fun t => next (seen t) t := by
  intro w
  have hrun : (x >>= f) w = f (seen (HasFileTree.tree w)) w := by
    simp only [bind, StateT.bind, hx w]
  rw [hrun, hf]

theorem read (path : String) : Looks (FileSystem.read path : StateM σ _) (·.read path) :=
  fun _ => rfl

theorem exists? (path : String) : Looks (FileSystem.exists? path : StateM σ _) (·.exists? path) :=
  fun _ => rfl

end Looks

/-! ## Texts -/

/-- The text of what was read. -/
def textOf : Except SystemFault ByteArray → Except SystemFault String
  | .error e => .error e
  | .ok bytes =>
    match String.fromUTF8? bytes with
    | some s => .ok s
    | none => .error .notText

/-- **The content of a file of the tree as text.** -/
def FileTree.readText (t : FileTree) (path : String) : Except SystemFault String :=
  textOf (t.read path)

theorem readText_looks (path : String) :
    Looks (FileSystem.readText path : StateM σ _) (·.readText path) := by
  refine (Looks.read path).bind (fun r _ => textOf r) fun r => ?_
  cases r with
  | error e => exact .pure _
  | ok bytes =>
    simp only [textOf]
    cases String.fromUTF8? bytes <;> exact .pure _

/-! ## Desired states -/

namespace StateFormat

variable (format : StateFormat) (t : FileTree) (path : String)

/-- The state that a text spells, if it could be read. -/
def decodeRead : Except SystemFault String → Except StateError DesiredState
  | .error e => .error (.io e)
  | .ok text =>
    match format.decode text with
    | some d => .ok d
    | none => .error (.parse path)

/-- **The state that a file of the tree holds.** -/
def loaded : Except StateError DesiredState :=
  if t.exists? path then format.decodeRead path (t.readText path) else .error (.notFound path)

/-- **Loading a state only looks at the tree.** -/
theorem load_looks : Looks (format.load path : StateM σ _) fun t => format.loaded t path := by
  refine (Looks.exists? path).bind (fun present t =>
    if present = true then format.decodeRead path (t.readText path) else .error (.notFound path))
    fun present => ?_
  cases present with
  | false => exact .pure _
  | true =>
    refine (readText_looks path).bind (fun r _ => format.decodeRead path r) fun r => ?_
    cases r with
    | error e => exact .pure _
    | ok text =>
      simp only [decodeRead]
      cases format.decode text <;> exact .pure _

/-- **A state that cannot be loaded, and why**: its file is missing, cannot be read as a text, or holds
a text that spells no state. -/
inductive Unloadable : StateError → Prop where
  | missing (absent : t.exists? path = false) : Unloadable (.notFound path)
  | unreadable (fault : SystemFault) (present : t.exists? path = true)
      (unread : t.readText path = .error fault) : Unloadable (.io fault)
  | malformed (text : String) (present : t.exists? path = true)
      (read : t.readText path = .ok text) (undecoded : format.decode text = none) :
      Unloadable (.parse path)

/-- **Loading fails exactly for these reasons.** -/
theorem loaded_eq_error_iff {e : StateError} :
    format.loaded t path = .error e ↔ format.Unloadable t path e := by
  constructor
  · intro h
    cases hpresent : t.exists? path with
    | false =>
      rw [loaded, hpresent] at h
      obtain rfl := Except.error.inj h
      exact .missing hpresent
    | true =>
      rw [loaded, hpresent, if_pos rfl] at h
      cases hread : t.readText path with
      | error fault =>
        rw [hread] at h
        obtain rfl := Except.error.inj h
        exact .unreadable fault hpresent hread
      | ok text =>
        rw [hread, decodeRead] at h
        cases hdecode : format.decode text with
        | none =>
          rw [hdecode] at h
          obtain rfl := Except.error.inj h
          exact .malformed text hpresent hread hdecode
        | some d => simp [hdecode] at h
  · rintro (absent | ⟨fault, present, unread⟩ | ⟨text, present, read, undecoded⟩)
    · rw [loaded, absent]
      rfl
    · rw [loaded, if_pos present, unread]
      rfl
    · rw [loaded, if_pos present, read, decodeRead, undecoded]

end StateFormat

end Rollout
