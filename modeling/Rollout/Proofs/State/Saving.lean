import Rollout.Proofs.System.Disk
import Rollout.Proofs.System.Paved
import Rollout.Proofs.System.Reached
import Rollout.Proofs.System.Reading
import Rollout.Proofs.System.Site
import Rollout.Proofs.Text.Bytes
import Rollout.State.Store

/-!
# Proofs/State/Saving — a state is saved whole or not at all

A state is written to a draft, which is then moved onto the file.  The draft lies beside the file or, where
the path ends in no name, below it (`goal_draftPath_of_name`, `goal_draftPath_of_none`); it is never the file
itself.  So nothing is written in the place of the file before the draft is whole, and where it cannot be
moved it is taken away again; it is left behind only if its writing, its permissions or its removal was
struck (`SaveRun`).
-/

/-! ## Records as text -/

namespace Rollout.Yaml

variable {column listColumn : Nat}

theorem recordLines_nil : recordLines column [] = [] := by
  unfold recordLines
  rfl

/-- **A record is written field by field.** -/
theorem recordLines_cons (name : String) (v : Value) (fields : List (String × Value)) :
    recordLines column ((name, v) :: fields) = spaces column ++ name.toList
      ++ ':' :: nested column column v ++ recordLines column fields := by
  conv =>
    lhs
    unfold recordLines

theorem listLines_nil : listLines column [] = [] := by
  unfold listLines
  rfl

/-- **A list is written item by item.** -/
theorem listLines_cons (v : Value) (items : List Value) : listLines column (v :: items)
    = spaces column ++ '-' :: item column v ++ listLines column items := by
  conv =>
    lhs
    unfold listLines

theorem item_record (name : String) (v : Value) (fields : List (String × Value)) :
    item column (.record ((name, v) :: fields)) = ' ' :: name.toList
      ++ ':' :: nested (column + 2) (column + 2) v ++ recordLines (column + 2) fields := by
  unfold item
  rfl

theorem nested_record (f : String × Value) (fields : List (String × Value)) :
    nested column listColumn (.record (f :: fields))
      = '\n' :: recordLines (column + 2) (f :: fields) := by
  unfold nested
  rfl

theorem nested_list (v : Value) (items : List Value) :
    nested column listColumn (.list (v :: items)) = '\n' :: listLines listColumn (v :: items) := by
  unfold nested
  rfl

theorem nested_list_nil : nested column listColumn (.list []) = " []\n".toList := by
  unfold nested
  rfl

theorem nested_bool (b : Bool) : nested column listColumn (.bool b)
    = if b then " true\n".toList else " false\n".toList := by
  unfold nested
  rfl

theorem nested_int (n : Int) :
    nested column listColumn (.int n) = ' ' :: (Text.signed n).toList ++ ['\n'] := by
  unfold nested
  rfl

theorem nested_text (s : String) :
    nested column listColumn (.text s) = endLine (' ' :: scalarText (column + 2) s) := by
  unfold nested
  rfl

end Rollout.Yaml

namespace Rollout.StateFormat

open FileTree Disk

variable {disk : Disk} {t t' t₁ : FileTree} {path name : String}

/-! ## Where the draft lies -/

theorem isName_tmp (hname : Path.IsName name) : Path.IsName (name ++ ".tmp") :=
  hname.append (by decide) (by decide)

theorem draftPath_of_name (h : Path.fileName? path = some name) :
    draftPath path = Path.join ((Path.parent? path).getD "") (name ++ ".tmp") := by
  rw [draftPath, Path.withFileName, h, Option.getD_some]

theorem draftPath_of_none (h : Path.fileName? path = none) :
    draftPath path = Path.join path ".tmp" := by
  rw [draftPath, Path.withFileName, h]
  rfl

theorem endsInSlash_draftPath (path : String) : Path.endsInSlash (draftPath path) = false := by
  cases h : Path.fileName? path with
  | none =>
    rw [draftPath_of_none h]
    exact Path.endsInSlash_join _ ⟨by decide, by decide, by decide, by decide⟩
  | some name =>
    rw [draftPath_of_name h]
    exact Path.endsInSlash_join _ (isName_tmp (Path.fileName?_spec h).1)

/-- **The draft of a path that ends in a name lies beside it.** -/
theorem goal_draftPath_of_name (h : Path.fileName? path = some name) (t : FileTree) :
    ∃ dir, t.goal path = dir ++ [name] ∧ t.goal (draftPath path) = dir ++ [name ++ ".tmp"] := by
  obtain ⟨hname, hsteps, habsolute⟩ := Path.fileName?_spec h
  refine ⟨t.goal ((Path.parent? path).getD ""), ?_, ?_⟩
  · rw [goal, goal, startOf, startOf, hsteps, reach_append, habsolute, reach_cons, reach_nil, climb,
      if_neg hname.ne_above]
  · rw [draftPath_of_name h, goal_join t _ (isName_tmp hname)]

/-- **The draft of any other path lies below it.** -/
theorem goal_draftPath_of_none (h : Path.fileName? path = none) (t : FileTree) :
    t.goal (draftPath path) = t.goal path ++ [".tmp"] := by
  rw [draftPath_of_none h, goal_join t _ ⟨by decide, by decide, by decide, by decide⟩]

/-- The draft is not the file. -/
theorem goal_draftPath_ne (t : FileTree) (path : String) : t.goal (draftPath path) ≠ t.goal path := by
  cases h : Path.fileName? path with
  | none =>
    rw [goal_draftPath_of_none h]
    simp
  | some name =>
    obtain ⟨dir, hpath, hdraft⟩ := goal_draftPath_of_name h t
    rw [hpath, hdraft]
    intro heq
    have hlength := congrArg String.length (List.singleton_inj.mp (List.append_inj' heq rfl).2)
    rw [String.length_append] at hlength
    have htmp : ".tmp".length = 4 := rfl
    omega

/-- The draft of a path that ends in a name does not lie below it. -/
theorem goal_draftPath_apart (h : (Path.fileName? path).isSome = true) (t : FileTree) :
    ¬ t.goal path <+: t.goal (draftPath path) := by
  obtain ⟨name, hname⟩ := Option.isSome_iff_exists.mp h
  obtain ⟨dir, hpath, hdraft⟩ := goal_draftPath_of_name hname t
  refine fun hbegins => goal_draftPath_ne t path (hbegins.eq_of_length ?_).symm
  rw [hpath, hdraft, List.length_append, List.length_append]
  rfl

/-- **The draft of a path that can be moved onto** is what is called like the path with an extension. -/
theorem goal_append_tmp (hname : endsInName path = true) (hslash : Path.endsInSlash path = false)
    (t : FileTree) : t.goal (path ++ ".tmp") = t.goal (draftPath path) := by
  obtain ⟨base, name, hisName, rfl⟩ := exists_name_of_endsInName hname hslash
  have hfile : Path.fileName? (Path.join base name) = some name := by
    rw [Path.fileName?, Path.steps_join base hisName, List.getLast?_concat]
    split
    · rename_i habove
      exact absurd (Option.some.inj habove) hisName.ne_above
    · rfl
  obtain ⟨dir, hpath, hdraft⟩ := goal_draftPath_of_name hfile t
  rw [goal_join t base hisName] at hpath
  rw [Path.join_append base hisName (isName_tmp hisName), goal_join t base (isName_tmp hisName), hdraft,
    (List.append_inj' hpath rfl).1]

/-! ## Making way -/

/-- **What making the directories above a path has done**, whether or not all could be made: there are more
directories.  They lie above the place that the path means if the places that the path leaves upwards were
there. -/
structure Prepared (path : String) (t t' : FileTree) : Prop where
  regular : t'.Regular
  grows : Grows t t'
  paved : (∀ q ∈ t.turnsOf path, t.lookup q = some .directory) → Paved (t.goal path) t t'

theorem Prepared.refl (h : t.Regular) (path : String) : Prepared path t t :=
  ⟨h, .refl t, fun _ => .refl h _⟩

/-- More directories among files and directories. -/
theorem regular_of_grows (h : t.Regular) (hgrows : Grows t t') (hsound : t'.Sound) : t'.Regular :=
  ⟨hsound, fun p e hp => (hgrows.new p e hp).elim (h.kind p e) .inl⟩

theorem createPart_spec (hsound : t.Sound) (path : String) (missing : Nat) :
    Grows t (t.createPart path missing) ∧ (t.createPart path missing).Sound := by
  obtain ⟨paths, -, hleft | hmade⟩ := createPart_cases t path missing
  · rw [hleft]
    exact leftover_spec hsound paths
  · exact createAll_spec hsound hmade

theorem createParent_runs (h : disk.now.Regular) (path : String) :
    Runs (fun _ => True) (createParent path) disk
      (EndsIn (fun disk' => Prepared path disk.now disk'.now)
        fun _ disk' => Prepared path disk.now disk'.now) := by
  rw [createParent]
  cases hparent : (Path.parent? path).filter fun p => !p.isEmpty with
  | none => exact .pure (.refl h path)
  | some parent =>
    have habove := isAbove_of_parent? (Option.filter_eq_some_iff.mp hparent).1
    refine .createDirectories (fun t₁ hmade => ⟨trivial, fun disk' hd => ?_⟩)
      fun missing => ⟨trivial, fun disk' hd => ?_⟩ <;> rw [hd.now]
    · obtain ⟨hgrows, hsound⟩ := createDirectories_spec h.sound hmade
      exact ⟨regular_of_grows h hgrows hsound, hgrows,
        fun hturns => createAll_paved h (habove.ancestors parent.length) hturns hmade⟩
    · obtain ⟨hgrows, hsound⟩ := createPart_spec h.sound parent missing
      exact ⟨regular_of_grows h hgrows hsound, hgrows,
        fun hturns => createPart_paved h habove hturns missing⟩

namespace Prepared

variable (h : Prepared path t t')
include h

theorem goal_eq (x : String) : t'.goal x = t.goal x :=
  goal_congr (by rw [startOf, startOf, h.grows.home])

end Prepared

/-! ## A run -/

/-- **The operations on a draft that can leave it behind.** -/
def LeavesDraft (draft : String) (o : Operation) : Prop :=
  o = .write draft ∨ o = .makePrivate draft ∨ o = .remove draft

/-- **How saving a state goes**: it stops before anything is written; or the draft is left behind, which it is
only if an operation on it was struck; or it cannot be moved and is taken away; or it is moved. -/
inductive SaveRun (bytes : ByteArray) (path : String) (t : FileTree) :
    Except StateError Unit → Disk → Prop where
  | stopped {e : StateError} {disk : Disk} (prepared : Prepared path t disk.now) :
      SaveRun bytes path t (.error e) disk
  | left {e : StateError} {disk : Disk} {t₁ : FileTree} {part : ByteArray} {isPrivate : Bool}
      (prepared : Prepared path t t₁) (reached : t₁.Reaches (draftPath path))
      (leaf : t₁.lookup (t₁.goal (draftPath path)) ≠ some .directory)
      (now : disk.now = t₁.insert (t₁.goal (draftPath path)) (.file part isPrivate))
      (struck : Hit (LeavesDraft (draftPath path)) disk) : SaveRun bytes path t (.error e) disk
  | withdrawn {e : StateError} {disk : Disk} {t₁ : FileTree} (prepared : Prepared path t t₁)
      (leaf : t₁.lookup (t₁.goal (draftPath path)) ≠ some .directory)
      (now : disk.now = t₁.erase (t₁.goal (draftPath path))) : SaveRun bytes path t (.error e) disk
  | moved {disk : Disk} {t₁ : FileTree} (prepared : Prepared path t t₁)
      (reached : t₁.Reaches (draftPath path))
      (leaf : t₁.lookup (t₁.goal (draftPath path)) ≠ some .directory)
      (renamed : (t₁.insert (t₁.goal (draftPath path)) (.file bytes true)).rename (draftPath path) path
        = .ok disk.now) : SaveRun bytes path t (.ok ()) disk

/-- A directory is at the root. -/
theorem ne_nil_of_leaf {p : Place} (hleaf : t.lookup p ≠ some .directory) : p ≠ [] := by
  rintro rfl
  exact hleaf (lookup_nil t)

/-- **A tree with a private draft**: the path leads to it. -/
theorem reaches_draft (h : t.Regular) {draft : String} (hreached : t.Reaches draft)
    (hleaf : t.lookup (t.goal draft) ≠ some .directory) (bytes : ByteArray) (isPrivate : Bool) :
    let t' := t.insert (t.goal draft) (.file bytes isPrivate)
    t'.Regular ∧ t'.Reaches draft ∧ t'.goal draft = t.goal draft ∧
      t'.lookup (t.goal draft) = some (.file bytes isPrivate) :=
  ⟨hreached.insert_regular h hleaf, hreached.keep rfl fun _ => lookup_insert_directory hleaf, rfl,
    lookup_insert_self (ne_nil_of_leaf hleaf)⟩

/-- **Moving the draft onto the file.** -/
theorem commit_runs {bytes : ByteArray} (hprepared : Prepared path t t₁)
    (hreached : t₁.Reaches (draftPath path))
    (hleaf : t₁.lookup (t₁.goal (draftPath path)) ≠ some .directory)
    (hnow : disk.now = t₁.insert (t₁.goal (draftPath path)) (.file bytes true)) :
    Runs (fun _ => True) (commit (draftPath path) path) disk (SaveRun bytes path t) := by
  obtain ⟨hregular, hreached', hgoal, hfile⟩ :=
    reaches_draft hprepared.regular hreached hleaf bytes true
  have hmove : Runs (fun _ => True) (FileSystem.rename (draftPath path) path) disk
      (EndsIn (·.now = disk.now) fun _ disk' =>
        disk.now.rename (draftPath path) path = .ok disk'.now) :=
    .atOnce (fun t' hrun => ⟨trivial, fun disk' hd => hd.now ▸ hrun⟩) (fun _ _ _ hd => hd.now)
      fun _ hd _ => hd.now
  rw [commit]
  refine hmove.bind fun r disk₁ _ hends => ?_
  cases r with
  | ok u =>
    refine .pure (.moved hprepared hreached hleaf ?_)
    rw [← hnow]
    exact hends
  | error e =>
    have hsame : disk₁.now = disk.now := hends
    have hrun := hreached'.remove hregular hfile
    rw [hgoal, erase_insert, ← hnow, ← hsame] at hrun
    have hremove : Runs (fun _ => True) (FileSystem.remove (draftPath path)) disk₁ _ :=
      .atOnce_of_ok hrun trivial
    refine hremove.bind fun r disk₂ _ hends₂ => .pure ?_
    cases r with
    | error e' =>
      obtain ⟨hsame₂, hstruck⟩ : disk₂.now = disk₁.now ∧ _ := hends₂
      exact .left hprepared hreached hleaf (hsame₂.trans (hsame.trans hnow))
        ⟨_, hstruck, .inr (.inr rfl)⟩
    | ok u => exact .withdrawn hprepared hleaf hends₂

/-- **Writing the draft**, and then moving it. -/
theorem draft_runs (hprepared : Prepared path t disk.now) (text : String) :
    Runs (fun _ => True) (do
        match ← (FileSystem.writeText (draftPath path) text : StateM Disk _) with
        | .error e => pure (.error (.io e))
        | .ok () =>
          match ← FileSystem.makePrivate (draftPath path) with
          | .error e => pure (.error (.io e))
          | .ok () => commit (draftPath path) path) disk
      (SaveRun text.toUTF8 path t) := by
  have hwrite : Runs (fun _ => True) (FileSystem.writeText (draftPath path) text : StateM Disk _) disk
      (EndsIn (fun disk' => disk'.now = disk.now ∨ .write (draftPath path) ∈ disk'.struck ∧
          ∃ part, disk.now.write (draftPath path) part = .ok disk'.now)
        fun _ disk' => disk.now.write (draftPath path) text.toUTF8 = .ok disk'.now) := by
    rw [FileSystem.writeText]
    refine .change (fun t' hrun => ⟨trivial, fun disk' hd => hd.now ▸ hrun⟩)
      (fun _ _ _ hd => .inl hd.now) fun mishap => ⟨.inl trivial, fun disk' hd hstruck => ?_⟩
    rw [hd.now]
    exact (writePart_cases disk.now (draftPath path) text.toUTF8 mishap.progress).imp_right
      fun hpart => ⟨hstruck, hpart⟩
  refine hwrite.bind fun r disk₁ _ hends => ?_
  cases r with
  | error e =>
    obtain hsame | ⟨hstruck, part, hwritten⟩ := hends
    · rw [← hsame] at hprepared
      exact .pure (.stopped hprepared)
    · obtain ⟨hreached, hleaf, isPrivate, hnow⟩ :=
        hprepared.regular.write_eq_ok (endsInSlash_draftPath path) hwritten
      exact .pure (.left hprepared hreached hleaf hnow ⟨_, hstruck, .inl rfl⟩)
  | ok u =>
    obtain ⟨hreached, hleaf, isPrivate, hnow⟩ :=
      hprepared.regular.write_eq_ok (endsInSlash_draftPath path) hends
    obtain ⟨hregular, hreached', hgoal, hfile⟩ :=
      reaches_draft hprepared.regular hreached hleaf text.toUTF8 isPrivate
    have hrun := hreached'.makePrivate hregular hfile
    rw [hgoal, insert_insert, ← hnow] at hrun
    have hprivate : Runs (fun _ => True) (FileSystem.makePrivate (draftPath path)) disk₁ _ :=
      .atOnce_of_ok hrun trivial
    refine hprivate.bind fun r disk₂ _ hends₂ => ?_
    cases r with
    | error e =>
      obtain ⟨hsame, hstruck⟩ : disk₂.now = disk₁.now ∧ _ := hends₂
      exact .pure (.left hprepared hreached hleaf (hsame.trans hnow) ⟨_, hstruck, .inr (.inl rfl)⟩)
    | ok u => exact commit_runs hprepared hreached hleaf hends₂

/-- **Saving a state goes one of these ways.** -/
theorem save_runs (h : disk.now.Regular) (format : StateFormat) (path : String) (d : DesiredState) :
    Runs (fun _ => True) (format.save path d) disk
      (SaveRun (format.encode d).toUTF8 path disk.now) := by
  rw [save]
  refine (createParent_runs h path).bind fun r disk₁ _ hprepared => ?_
  cases r with
  | error e => exact .pure (.stopped hprepared)
  | ok u => exact draft_runs hprepared (format.encode d)

/-! ## Where it stops -/

/-- **All is as it was but at one place**, where no directory lay: nothing lies there, or something that was
left behind. -/
structure Withdrawn (p : Place) (isLeft : Prop) (t t' : FileTree) : Prop where
  regular : t'.Regular
  home : t'.home = t.home
  same : ∀ q, t'.lookup q = t.lookup q ∨ q = p ∧ t.lookup q ≠ some .directory ∧
    (t'.lookup q = none ∨ isLeft ∧ ∃ part isPrivate, t'.lookup q = some (.file part isPrivate))

namespace Withdrawn

variable {p : Place} {isLeft : Prop}

theorem refl (h : t.Regular) : Withdrawn p isLeft t t := ⟨h, rfl, fun _ => .inl rfl⟩

theorem erase (h : t.Regular) (hleaf : t.lookup p ≠ some .directory) :
    Withdrawn p isLeft t (t.erase p) := by
  refine ⟨h.erase hleaf, rfl, fun q => ?_⟩
  rcases eq_or_ne q p with rfl | hne
  · exact .inr ⟨rfl, hleaf, .inl (lookup_erase_self (ne_nil_of_leaf hleaf))⟩
  · exact .inl (lookup_erase_of_ne hne)

theorem insert {part : ByteArray} {isPrivate : Bool} (h : (t.insert p (.file part isPrivate)).Regular)
    (hleaf : t.lookup p ≠ some .directory) (hleft : isLeft) :
    Withdrawn p isLeft t (t.insert p (.file part isPrivate)) := by
  refine ⟨h, rfl, fun q => ?_⟩
  rcases eq_or_ne q p with rfl | hne
  · exact .inr ⟨rfl, hleaf, .inr ⟨hleft, part, isPrivate, lookup_insert_self (ne_nil_of_leaf hleaf)⟩⟩
  · exact .inl (lookup_insert_of_ne hne)

/-- The place of the file is another one than that of its draft. -/
theorem lookup_goal (h : Withdrawn (t₁.goal (draftPath path)) isLeft t t') :
    t'.lookup (t₁.goal path) = t.lookup (t₁.goal path) :=
  (h.same _).resolve_right fun hdraft => goal_draftPath_ne t₁ path hdraft.1.symm

end Withdrawn

/-- **What a save that failed has done to a disk.**  It may have made directories, and a file that lay where
the draft goes may be gone; there is no new file but a draft that was left behind, which it is only if its
writing, its permissions or its removal was struck.  What was found at the path is found there.  If the places
that the path leaves upwards were there before, nothing else is found there either, and where the path ends
in a name everything below it is as it was.  In any case, what is found there afterwards is a directory or
lay there all the time. -/
structure NotSaved (path : String) (t : FileTree) (disk : Disk) : Prop where
  elsewhere : ∀ q, disk.now.lookup q = t.lookup q ∨
    t.lookup q = none ∧ disk.now.lookup q = some .directory ∨
    q = t.goal (draftPath path) ∧ t.lookup q ≠ some .directory ∧
      (disk.now.lookup q = none ∨ Hit (LeavesDraft (draftPath path)) disk ∧
        ∃ part isPrivate, disk.now.lookup q = some (.file part isPrivate))
  no_new_file : ¬ Hit (LeavesDraft (draftPath path)) disk → ∀ q content isPrivate,
    disk.now.lookup q = some (.file content isPrivate) → t.lookup q = some (.file content isPrivate)
  kept : ∀ e, t.held path = some e → disk.now.held path = some e
  unchanged : (∀ q ∈ t.turnsOf path, t.lookup q = some .directory) →
    disk.now.held path = t.held path ∧
    ((Path.fileName? path).isSome = true → ∀ q, t.goal path <+: q → disk.now.lookup q = t.lookup q)
  found : ∀ e, disk.now.held path = some e → e = .directory ∨ t.lookup (t.goal path) = some e

namespace Prepared

section

variable (hprepared : Prepared path t t₁)
  (hwithdrawn : Withdrawn (t.goal (draftPath path)) (Hit (LeavesDraft (draftPath path)) disk)
    t₁ disk.now)
include hprepared hwithdrawn

/-- Directories stay. -/
theorem directory {q : Place} (hq : t.lookup q = some .directory) :
    disk.now.lookup q = some .directory := by
  have hq₁ := hprepared.grows.old q _ hq
  rcases hwithdrawn.same q with heq | ⟨-, hleaf, -⟩
  · rwa [heq]
  · exact absurd hq₁ hleaf

/-- What lies where. -/
theorem elsewhere (q : Place) : disk.now.lookup q = t.lookup q ∨
    t.lookup q = none ∧ disk.now.lookup q = some .directory ∨
    q = t.goal (draftPath path) ∧ t.lookup q ≠ some .directory ∧
      (disk.now.lookup q = none ∨ Hit (LeavesDraft (draftPath path)) disk ∧
        ∃ part isPrivate, disk.now.lookup q = some (.file part isPrivate)) := by
  rcases hwithdrawn.same q with heq | ⟨hq, hleaf, hnow⟩
  · rw [heq]
    cases hold : t.lookup q with
    | some e => exact .inl (hprepared.grows.old q e hold)
    | none =>
      cases hnew : t₁.lookup q with
      | none => exact .inl rfl
      | some e =>
        rcases hprepared.grows.new q e hnew with hsome | rfl
        · rw [hold] at hsome
          exact nomatch hsome
        · exact .inr (.inl ⟨rfl, rfl⟩)
  · exact .inr (.inr ⟨hq, fun hdir => hleaf (hprepared.grows.old q _ hdir), hnow⟩)

/-- There is no new file but a draft that was left behind. -/
theorem no_new_file (hnot : ¬ Hit (LeavesDraft (draftPath path)) disk) {q : Place} {content : ByteArray}
    {isPrivate : Bool} (hq : disk.now.lookup q = some (.file content isPrivate)) :
    t.lookup q = some (.file content isPrivate) := by
  rcases hprepared.elsewhere hwithdrawn q with heq | ⟨-, hdir⟩ | ⟨-, -, hnone | ⟨hleft, -⟩⟩
  · rwa [← heq]
  · rw [hq] at hdir
    cases hdir
  · rw [hq] at hnone
    cases hnone
  · exact absurd hleft hnot

theorem startOf_eq : disk.now.startOf path = t.startOf path := by
  rw [startOf, startOf, hwithdrawn.home, hprepared.grows.home]

/-- What was found at the path is found there. -/
theorem held_of_held (h : t.Regular) {e : Entry} (he : t.held path = some e) :
    disk.now.held path = some e := by
  have hstart := hprepared.startOf_eq hwithdrawn
  rw [held_eq_some_iff, h.status_eq_ok_iff] at he
  obtain ⟨haccepted, hturns, hslash, he⟩ := he
  rw [held_eq_some_iff, hwithdrawn.regular.status_eq_ok_iff, goal_congr hstart, turnsOf_congr hstart]
  exact ⟨haccepted, fun q hq => hprepared.directory hwithdrawn (hturns q hq), hslash,
    hwithdrawn.lookup_goal.trans (hprepared.grows.old _ e he)⟩

/-- What is found there is a directory or lay there all the time. -/
theorem held_cases {e : Entry} (he : disk.now.held path = some e) :
    e = .directory ∨ t.lookup (t.goal path) = some e := by
  rw [held_eq_some_iff, hwithdrawn.regular.status_eq_ok_iff,
    goal_congr (hprepared.startOf_eq hwithdrawn), hwithdrawn.lookup_goal] at he
  exact (hprepared.grows.new _ e he.2.2.2).symm

section

variable (hturns : ∀ q ∈ t.turnsOf path, t.lookup q = some .directory)
include hturns

/-- **Nothing else is found at a path that leads where it led.** -/
theorem held_eq (h : t.Regular) : disk.now.held path = t.held path := by
  refine h.held_congr hwithdrawn.regular (hprepared.startOf_eq hwithdrawn) (fun q hq => ?_) ?_
  · exact iff_of_true (hprepared.directory hwithdrawn (hturns q hq)) (hturns q hq)
  · rw [hwithdrawn.lookup_goal]
    exact (hprepared.paved hturns).same fun hnew => hnew.2 rfl

/-- Everything below a path that ends in a name is as it was. -/
theorem lookup_below (hname : (Path.fileName? path).isSome = true) {q : Place}
    (hq : t.goal path <+: q) : disk.now.lookup q = t.lookup q := by
  rcases hwithdrawn.same q with heq | ⟨hdraft, -⟩
  · rw [heq]
    exact (hprepared.paved hturns).same fun hnew =>
      hnew.2 (hnew.1.eq_of_length (Nat.le_antisymm hnew.1.length_le hq.length_le))
  · rw [hdraft] at hq
    exact absurd hq (goal_draftPath_apart hname t)

end

theorem notSaved (h : t.Regular) : NotSaved path t disk where
  elsewhere := hprepared.elsewhere hwithdrawn
  no_new_file hnot _ _ _ := hprepared.no_new_file hwithdrawn hnot
  kept _ := hprepared.held_of_held hwithdrawn h
  unchanged hturns := ⟨hprepared.held_eq hwithdrawn hturns h,
    fun hname _ => hprepared.lookup_below hwithdrawn hturns hname⟩
  found _ := hprepared.held_cases hwithdrawn

end

end Prepared

/-! ## Where it comes to its end -/

/-- **What is found after a state was saved**: it is loaded from its path, where a private file lies, and
nothing lies where the draft was. -/
structure Saved (format : StateFormat) (path : String) (d : DesiredState) (t' : FileTree) : Prop where
  loaded : format.loaded t' path = .ok d
  held : t'.held path = some (.file (format.encode d).toUTF8 true)
  no_draft : t'.held (draftPath path) = none
  no_extension : t'.held (path ++ ".tmp") = none

/-- **A state is loaded from a file** that holds its text. -/
theorem loaded_of_held {format : StateFormat} {d : DesiredState} {isPrivate : Bool}
    (hformat : format.decode (format.encode d) = some d)
    (hheld : t.held path = some (.file (format.encode d).toUTF8 isPrivate)) :
    format.loaded t path = .ok d := by
  have hread : t.readText path = .ok (format.encode d) := by
    rw [FileTree.readText, read_eq_ok_iff_held.mpr ⟨isPrivate, hheld⟩, textOf, Text.fromUTF8?_toUTF8]
  rw [loaded, exists?_eq_held, hheld, Option.isSome_some, if_pos rfl, hread, decodeRead]
  simp only [hformat]

theorem saved_of_moved {format : StateFormat} {d : DesiredState}
    (hformat : format.decode (format.encode d) = some d) (hprepared : Prepared path t t₁)
    (hreached : t₁.Reaches (draftPath path))
    (hleaf : t₁.lookup (t₁.goal (draftPath path)) ≠ some .directory)
    (hrenamed : (t₁.insert (t₁.goal (draftPath path)) (.file (format.encode d).toUTF8 true)).rename
      (draftPath path) path = .ok t') : Saved format path d t' := by
  obtain ⟨hregular, hreached', hgoal, hfile⟩ :=
    reaches_draft hprepared.regular hreached hleaf (format.encode d).toUTF8 true
  obtain ⟨hmoved, hname⟩ :=
    hregular.rename_file hreached' hfile (goal_draftPath_ne _ path) hrenamed
  have hstart (x : String) : t'.goal x = t₁.goal x :=
    goal_congr (by rw [startOf, startOf, hmoved.home]; rfl)
  have hheld : t'.held path = some (.file (format.encode d).toUTF8 true) := by
    rw [hmoved.reaches_target.held_eq hmoved.regular, hstart]
    exact hmoved.there
  have hnone : t'.lookup (t'.goal (draftPath path)) = none := by
    rw [hstart]
    exact hmoved.gone
  refine ⟨loaded_of_held hformat hheld, hheld, ?_, ?_⟩
  · rw [hmoved.reaches_source.held_eq hmoved.regular, hnone]
  · rw [← goal_append_tmp hname hmoved.reaches_target.slash] at hnone
    cases hext : t'.held (path ++ ".tmp") with
    | none => rfl
    | some e =>
      rw [held_eq_some_iff, hmoved.regular.status_eq_ok_iff] at hext
      rw [hext.2.2.2] at hnone
      cases hnone

/-- **Headline: a state is saved whole or not at all**, whatever is struck.  Among files and directories, for
a state that its format reads back: if saving it succeeds, loading yields the state and no draft is left; if
it fails, nothing that lay at the path is lost or changed, and there is no new file, unless it is a draft with
which an operation was struck (`NotSaved`). -/
theorem save_whole_or_not (h : t.Regular) (format : StateFormat) (path : String) (d : DesiredState)
    (mishaps : List (Option Mishap)) (hformat : format.decode (format.encode d) = some d) :
    let r := (format.save path d : StateM Disk _) { now := t, mishaps }
    (r.1 = .ok () → Saved format path d r.2.now) ∧ ∀ e, r.1 = .error e → NotSaved path t r.2 := by
  intro r
  have hsave : Runs _ (format.save path d) { now := t, mishaps } _ := save_runs h format path d
  have hrun : SaveRun (format.encode d).toUTF8 path t r.1 r.2 := hsave.ends
  generalize r.1 = result at hrun ⊢
  generalize r.2 = disk at hrun ⊢
  cases hrun with
  | stopped hprepared => exact ⟨nofun, fun _ _ => hprepared.notSaved (.refl hprepared.regular) h⟩
  | left hprepared hreached hleaf hnow hstruck =>
    refine ⟨nofun, fun _ _ => hprepared.notSaved ?_ h⟩
    rw [hnow, ← hprepared.goal_eq]
    exact .insert (hreached.insert_regular hprepared.regular hleaf) hleaf hstruck
  | withdrawn hprepared hleaf hnow =>
    refine ⟨nofun, fun _ _ => hprepared.notSaved ?_ h⟩
    rw [hnow, ← hprepared.goal_eq]
    exact .erase hprepared.regular hleaf
  | moved hprepared hreached hleaf hrenamed =>
    exact ⟨fun _ => saved_of_moved hformat hprepared hreached hleaf hrenamed, nofun⟩

/-- A host, and a backend with two servers. -/
def stocked : DesiredState where
  hosts := [{ hostname := "shop.local", routes := [⟨"/", "web"⟩] }]
  backends := [{ id := "web", servers := [{ name := "srv001", ip := "10.0.0.1", port := 8080 },
    { name := "srv002", ip := "10.0.0.2", port := 8080, weight := 3, enabled := false }] }]

/-- They are read back from YAML. -/
theorem decode_encode_stocked :
    StateFormat.yaml.decode (StateFormat.yaml.encode stocked) = some stocked := by
  have htext : StateFormat.yaml.encode stocked = String.ofList (Yaml.recordLines 0 [
      ("global", .record [("max_conn", .int 2000), ("timeout_connect", .text "5s"),
        ("timeout_client", .text "50s"), ("timeout_server", .text "50s"), ("ssl_redirect", .bool true),
        ("bind_http", .text ":80"), ("bind_https", .text ":443"), ("modsecurity_endpoints", .list [])]),
      ("hosts", .list [.record [("hostname", .text "shop.local"),
        ("paths", .list [.record [("path", .text "/"), ("backend", .text "web")]]),
        ("ssl_passthrough", .bool false)]]),
      ("backends", .list [.record [("id", .text "web"), ("mode", .text "http"),
        ("balance", .text "roundrobin"), ("endpoints", .list [
          .record [("name", .text "srv001"), ("ip", .text "10.0.0.1"), ("port", .int 8080),
            ("weight", .int 1), ("enabled", .bool true)],
          .record [("name", .text "srv002"), ("ip", .text "10.0.0.2"), ("port", .int 8080),
            ("weight", .int 3), ("enabled", .bool false)]])]])]) := rfl
  rw [htext]
  -- The text is read as the list of characters that it was made from, and never spelled out.
  simp only [StateFormat.yaml, Yaml.read?, Yaml.Document.ofText?, Yaml.tokens?, String.toList_ofList,
    Yaml.recordLines_nil, Yaml.recordLines_cons, Yaml.listLines_nil, Yaml.listLines_cons,
    Yaml.item_record, Yaml.nested_record, Yaml.nested_list, Yaml.nested_list_nil, Yaml.nested_bool,
    Yaml.nested_int, Yaml.nested_text]
  decide +kernel

/-- They are saved below a directory that is not there, not in the place of one that is, and not where the
draft may not be made private, which is left then. -/
theorem save_whole_or_not_stocked :
    let t : FileTree := { entries := [([], .directory), (["x"], .directory),
                                      (["state.yaml"], .file "old".toUTF8 true)] }
    let fresh := (StateFormat.yaml.save "conf/state.yaml" stocked : StateM Disk _) { now := t }
    let blocked := (StateFormat.yaml.save "x" stocked : StateM Disk _) { now := t }
    let refused := (StateFormat.yaml.save "state.yaml" stocked : StateM Disk _)
      { now := t, mishaps := [none, some { fault := .permission }] }
    (fresh.1 = .ok () ∧ Saved .yaml "conf/state.yaml" stocked fresh.2.now) ∧
      (blocked.1 = .error (.io .isDirectory) ∧ NotSaved "x" t blocked.2 ∧
        blocked.2.now.held "x.tmp" = none) ∧
      refused.1 = .error (.io .permission) ∧ NotSaved "state.yaml" t refused.2 ∧
        refused.2.now.held "state.yaml" = some (.file "old".toUTF8 true) := by
  intro t fresh blocked refused
  have hregular : t.Regular := .of_entries (by decide +kernel) (by decide +kernel) (by simp [t])
  have hfresh : fresh.1 = .ok () := by decide +kernel
  have hblocked : blocked.1 = .error (.io .isDirectory) ∧ blocked.2.now.held "x.tmp" = none := by
    decide +kernel
  have hrefused : refused.1 = .error (.io .permission) := by decide +kernel
  have hold : t.held "state.yaml" = some (.file "old".toUTF8 true) := by decide +kernel
  have hsave (path : String) (mishaps : List (Option Mishap)) (r : Except StateError Unit × Disk)
      (hr : (StateFormat.yaml.save path stocked : StateM Disk _) { now := t, mishaps } = r) :
      (r.1 = .ok () → Saved .yaml path stocked r.2.now) ∧ ∀ e, r.1 = .error e → NotSaved path t r.2 := by
    rw [← hr]
    exact save_whole_or_not hregular .yaml path stocked mishaps decode_encode_stocked
  have hnotSaved := (hsave _ _ refused rfl).2 _ hrefused
  exact ⟨⟨hfresh, (hsave _ _ fresh rfl).1 hfresh⟩,
    ⟨hblocked.1, (hsave _ _ blocked rfl).2 _ hblocked.1, hblocked.2⟩, hrefused, hnotSaved,
    hnotSaved.kept _ hold⟩

/-- **A save that fails may change what is found at its path.**  A path that goes up from a directory that is
not there leads to one when that has been made; and the draft of a path that ends in no name replaces a file
of the directory that it means, and is taken away. -/
theorem save_fails_with_changes :
    let t : FileTree := { entries := [([], .directory), (["x"], .directory),
                                      ([".tmp"], .file "kept".toUTF8 false)] }
    let above := (StateFormat.yaml.save "new/../x" {} : StateM Disk _) { now := t }
    let here := (StateFormat.yaml.save "." {} : StateM Disk _) { now := t }
    (above.1 = .error (.io .isDirectory) ∧ t.held "new/../x" = none ∧
        above.2.now.held "new/../x" = some .directory) ∧
      here.1 = .error (.io .busy) ∧ t.held "./.tmp" = some (.file "kept".toUTF8 false) ∧
        here.2.now.held "./.tmp" = none := by
  decide +kernel

end Rollout.StateFormat
