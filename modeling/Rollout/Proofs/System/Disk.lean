import Rollout.Render.Replace
import Rollout.System.Disk

/-!
# Proofs/System/Disk — runs on a disk

`Runs` says of a run on a disk what it answers and what disk it leaves, and that the disk holds good trees
only in between: after each operation, and where one breaks off.  Whatever is struck stays on record, so a
result that holds unless an operation was struck is not lost later on (`Disk.Hit.later`).  Each operation has
one lemma here, with a case for the mishap.
-/

namespace Rollout

open FileTree

variable {α β ε : Type} {d d' d'' : Disk} {t : FileTree} {path : String}

/-! ## One disk after another -/

namespace Disk

/-- **A disk some operations later**, which holds a certain tree. -/
structure Becomes (d : Disk) (t : FileTree) (d' : Disk) : Prop where
  now : d'.now = t
  struck : d.struck ⊆ d'.struck

/-- An operation of some kind was struck. -/
def Hit (kind : Operation → Prop) (d : Disk) : Prop := ∃ o ∈ d.struck, kind o

theorem Becomes.refl (d : Disk) : d.Becomes d.now d := ⟨rfl, List.Subset.refl _⟩

theorem Hit.later {kind : Operation → Prop} (h : Hit kind d) (hsub : d.struck ⊆ d'.struck) :
    Hit kind d' := h.imp fun _ ho => ⟨hsub ho.1, ho.2⟩

end Disk

/-! ## What breaks off -/

namespace FileTree

theorem writePart_cases (t : FileTree) (path : String) (content : ByteArray) (progress : Nat) :
    t.writePart path content progress = t ∨
      ∃ part, t.write path part = .ok (t.writePart path content progress) := by
  cases progress with
  | zero => exact .inl rfl
  | succ n =>
    rw [writePart]
    cases hrun : t.write path (content.extract 0 n) with
    | error e => exact .inl rfl
    | ok t' => exact .inr ⟨_, hrun⟩

theorem copyPart_cases (t : FileTree) (source target : String) (progress : Nat) :
    t.copyPart source target progress = t ∨
      ∃ cut, t.copyCut cut source target = .ok (t.copyPart source target progress) := by
  cases progress with
  | zero => exact .inl rfl
  | succ n =>
    rw [copyPart]
    cases hrun : t.copyCut (·.extract 0 n) source target with
    | error e => exact .inl rfl
    | ok t' => exact .inr ⟨_, hrun⟩

/-- What is left where not all directories can be made is what is left where the making breaks off. -/
theorem leftover_eq_createPart {e : SystemFault} (h : t.createDirectories path = .error e) :
    t.leftover (ancestors path path.length) = t.createPart path 0 := by
  rw [createDirectories] at h
  rw [createPart, List.drop_zero, h]
  rfl

end FileTree

/-! ## Runs -/

/-- **A run holds good trees only**, and answers and leaves what it should. -/
structure Runs (good : FileTree → Prop) (x : StateM Disk α) (d : Disk) (post : α → Disk → Prop) :
    Prop where
  ends : post (x d).1 (x d).2
  passes : ∀ g ∈ (x d).2.frames, good g ∨ g ∈ d.frames
  struck : d.struck ⊆ (x d).2.struck

/-- How a run ends that may fail. -/
def EndsIn (failed : Disk → Prop) (succeeded : α → Disk → Prop) : Except ε α → Disk → Prop
  | .error _, d => failed d
  | .ok a, d => succeeded a d

namespace Runs

variable {good good' : FileTree → Prop} {x y : StateM Disk α} {post mid : α → Disk → Prop}
  {failed failed' : Disk → Prop}

theorem mono (h : Runs good x d mid) (hgood : ∀ g, good g → good' g)
    (hpost : ∀ a d', mid a d' → post a d') : Runs good' x d post :=
  ⟨hpost _ _ h.ends, fun g hg => (h.passes g hg).imp_left (hgood g), h.struck⟩

/-- What was struck before is struck afterwards. -/
theorem strengthen (h : Runs good x d mid)
    (hpost : ∀ a d', d.struck ⊆ d'.struck → mid a d' → post a d') : Runs good x d post :=
  ⟨hpost _ _ h.struck h.ends, h.passes, h.struck⟩

protected theorem pure {a : α} (h : post a d) : Runs good (pure a : StateM Disk α) d post :=
  ⟨h, fun _ => .inr, List.Subset.refl _⟩

/-- **One run after the other.** -/
protected theorem bind {f : α → StateM Disk β} {post : β → Disk → Prop} (h : Runs good x d mid)
    (hnext : ∀ a d', d.struck ⊆ d'.struck → mid a d' → Runs good (f a) d' post) :
    Runs good (x >>= f) d post := by
  have hrest := hnext _ _ h.struck h.ends
  exact ⟨hrest.ends, fun g hg => (hrest.passes g hg).elim .inl (h.passes g),
    List.Subset.trans h.struck hrest.struck⟩

theorem congr (heq : x d = y d) (h : Runs good y d post) : Runs good x d post := by
  obtain ⟨hends, hpasses, hstruck⟩ := h
  rw [← heq] at hends hpasses hstruck
  exact ⟨hends, hpasses, hstruck⟩

/-! ### Operations -/

/-- **An operation is carried out, or struck.** -/
theorem attempt {o : Operation} {whole : StateM FileTree α} {broken : Mishap → StateM FileTree α}
    (hwhole : (good (whole d.now).2 ∨ (whole d.now).2 = d.now) ∧
      ∀ d', d.Becomes (whole d.now).2 d' → post (whole d.now).1 d')
    (hbroken : ∀ m, (good (broken m d.now).2 ∨ (broken m d.now).2 = d.now) ∧
      ∀ d', d.Becomes (broken m d.now).2 d' → o ∈ d'.struck → post (broken m d.now).1 d') :
    Runs good (Disk.attempt o whole broken) d post := by
  have hpasses {d' : Disk} (ht : good d'.now ∨ d'.now = d.now) (hpast : d'.past = d.frames) :
      ∀ g ∈ d'.frames, good g ∨ g ∈ d.frames := by
    intro g hg
    rw [Disk.frames, hpast] at hg
    rcases List.mem_cons.mp hg with rfl | hg
    · exact ht.imp_right fun heq => List.mem_cons.mpr (.inl heq)
    · exact .inr hg
  obtain ⟨now, past, mishaps, struck⟩ := d
  rcases mishaps with _ | ⟨_ | m, coming⟩
  · exact ⟨hwhole.2 _ ⟨rfl, List.Subset.refl _⟩, hpasses hwhole.1 rfl, List.Subset.refl _⟩
  · exact ⟨hwhole.2 _ ⟨rfl, List.Subset.refl _⟩, hpasses hwhole.1 rfl, List.Subset.refl _⟩
  · exact ⟨(hbroken m).2 _ ⟨rfl, List.subset_cons_self _ _⟩ List.mem_cons_self,
      hpasses (hbroken m).1 rfl, List.subset_cons_self _ _⟩

/-- **An operation on the tree** that may break off. -/
theorem change {o : Operation} {op : FileTree → Except SystemFault FileTree}
    {broken : Mishap → FileTree → FileTree} {succeeded : Unit → Disk → Prop}
    (hok : ∀ t, op d.now = .ok t → good t ∧ ∀ d', d.Becomes t d' → succeeded () d')
    (herror : ∀ e, op d.now = .error e → ∀ d', d.Becomes d.now d' → failed d')
    (hstruck : ∀ m, (good (broken m d.now) ∨ broken m d.now = d.now) ∧
      ∀ d', d.Becomes (broken m d.now) d' → o ∈ d'.struck → failed d') :
    Runs good (Disk.attempt o (onTree op) fun m t => (.error m.fault, broken m t)) d
      (EndsIn failed succeeded) := by
  refine attempt ?_ hstruck
  simp only [onTree, HasFileTree.tree, HasFileTree.setTree, id_eq]
  cases hop : op d.now with
  | error e => exact ⟨.inr rfl, herror e hop⟩
  | ok t => exact ⟨.inl (hok t hop).1, (hok t hop).2⟩

/-- **An operation that is done at once or not at all.** -/
theorem atOnce {o : Operation} {op : FileTree → Except SystemFault FileTree}
    {succeeded : Unit → Disk → Prop}
    (hok : ∀ t, op d.now = .ok t → good t ∧ ∀ d', d.Becomes t d' → succeeded () d')
    (herror : ∀ e, op d.now = .error e → ∀ d', d.Becomes d.now d' → failed d')
    (hstruck : ∀ d', d.Becomes d.now d' → o ∈ d'.struck → failed d') :
    Runs good (Disk.attemptAtOnce o (onTree op)) d (EndsIn failed succeeded) :=
  change hok herror fun _ => ⟨.inr rfl, hstruck⟩

/-- **Such an operation fails only if it is struck**, where the tree does not refuse it. -/
theorem atOnce_of_ok {o : Operation} {op : FileTree → Except SystemFault FileTree}
    (hok : op d.now = .ok t) (hgood : good t) : Runs good (Disk.attemptAtOnce o (onTree op)) d
      (EndsIn (fun d' => d'.now = d.now ∧ o ∈ d'.struck) fun _ d' => d'.now = t) := by
  refine atOnce (fun t' hrun => ?_) (fun e herror => nomatch herror.symm.trans hok)
    fun d' hd hstruck => ⟨hd.now, hstruck⟩
  obtain rfl := Except.ok.inj (hok.symm.trans hrun)
  exact ⟨hgood, fun d' hd => hd.now⟩

/-- **Making directories**: some are left where not all can be made, or the making breaks off. -/
theorem createDirectories {succeeded : Unit → Disk → Prop}
    (hok : ∀ t, d.now.createDirectories path = .ok t →
      good t ∧ ∀ d', d.Becomes t d' → succeeded () d')
    (hpart : ∀ n, good (d.now.createPart path n) ∧
      ∀ d', d.Becomes (d.now.createPart path n) d' → failed d') :
    Runs good (FileSystem.createDirectories path : StateM Disk _) d (EndsIn failed succeeded) := by
  refine attempt ?_ fun m => ⟨.inl (hpart m.progress).1, fun d' hd _ => (hpart m.progress).2 d' hd⟩
  simp only [FileSystem.createDirectories, HasFileTree.tree, HasFileTree.setTree, id_eq]
  cases hmade : d.now.createDirectories path with
  | error e =>
    simp only [leftover_eq_createPart hmade]
    exact ⟨.inl (hpart 0).1, (hpart 0).2⟩
  | ok t => exact ⟨.inl (hok t hmade).1, (hok t hmade).2⟩

/-- **Reading** changes nothing.  A mishap does not say that nothing is there. -/
theorem read (good : FileTree → Prop) (path : String) (d : Disk) :
    Runs good (FileSystem.read path : StateM Disk _) d fun r d' => d.Becomes d.now d' ∧
      (r = d.now.read path ∨ ∃ e, e ≠ .noEntry ∧ r = .error e) :=
  attempt ⟨.inr rfl, fun _ hd => ⟨hd, .inl rfl⟩⟩
    fun m => ⟨.inr rfl, fun _ hd _ => ⟨hd, .inr ⟨_, m.not_noEntry, rfl⟩⟩⟩

/-- **Looking whether something is there** changes nothing.  What is said to be there is there. -/
theorem ifThere
    (hthere : ∀ d', d.Becomes d.now d' → d.now.exists? path = true → Runs good x d' post)
    (hnot : ∀ d', d.Becomes d.now d' →
      .exists? path ∈ d'.struck ∨ d.now.exists? path = false → Runs good y d' post) :
    Runs good (do if ← FileSystem.exists? path then x else y) d post := by
  have hlook : Runs good (FileSystem.exists? path : StateM Disk Bool) d fun there d' =>
      d.Becomes d.now d' ∧ if there then d.now.exists? path = true
        else .exists? path ∈ d'.struck ∨ d.now.exists? path = false := by
    refine attempt ⟨.inr rfl, fun d' hd => ⟨hd, ?_⟩⟩
      fun m => ⟨.inr rfl, fun d' hd hstruck => ⟨hd, .inl hstruck⟩⟩
    change if d.now.exists? path = true then _ else _
    cases d.now.exists? path with
    | true => exact rfl
    | false => exact .inr rfl
  refine hlook.bind fun there d' _ ⟨hd, h⟩ => ?_
  cases there with
  | true => exact hthere d' hd h
  | false => exact hnot d' hd h

/-! ### Runs that may fail -/

/-- **Going on after a step that succeeded.** -/
theorem andThen {x : StateM Disk (Except ε α)} {f : α → StateM Disk (Except ε β)}
    {mid : α → Disk → Prop} {succeeded : β → Disk → Prop} (h : Runs good x d (EndsIn failed mid))
    (hfailed : ∀ d', d.struck ⊆ d'.struck → failed d' → failed' d')
    (hok : ∀ a d', d.struck ⊆ d'.struck → mid a d' →
      Runs good (f a) d' (EndsIn failed' succeeded)) :
    Runs good (Rollout.andThen x f) d (EndsIn failed' succeeded) := by
  refine h.bind fun r d' hsub hmid => ?_
  cases r with
  | error e => exact .pure (hfailed d' hsub hmid)
  | ok a => exact hok a d' hsub hmid

theorem monoEnds {x : StateM Disk (Except ε α)} {succeeded succeeded' : α → Disk → Prop}
    (h : Runs good x d (EndsIn failed succeeded)) (hgood : ∀ g, good g → good' g)
    (hfailed : ∀ d', d.struck ⊆ d'.struck → failed d' → failed' d')
    (hsucceeded : ∀ a d', d.struck ⊆ d'.struck → succeeded a d' → succeeded' a d') :
    Runs good' x d (EndsIn failed' succeeded') := by
  refine (h.strengthen fun r d' hsub hmid => ?_).mono hgood fun _ _ => id
  cases r with
  | error e => exact hfailed d' hsub hmid
  | ok a => exact hsucceeded a d' hsub hmid

/-- A fault is reported at a path. -/
theorem atPath {x : StateM Disk (Except SystemFault α)} {succeeded : α → Disk → Prop}
    (h : Runs good x d (EndsIn failed succeeded)) :
    Runs good (Rollout.atPath path x) d (EndsIn failed succeeded) := by
  have hreport : Rollout.atPath path x d = ((x d).1.mapError (.io path), (x d).2) := rfl
  refine ⟨?_, ?_, ?_⟩ <;> rw [hreport]
  · have hends := h.ends
    cases hr : (x d).1 <;> rwa [hr] at hends
  · exact h.passes
  · exact h.struck

end Runs

end Rollout
