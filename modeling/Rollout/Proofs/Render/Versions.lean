import Mathlib.Data.List.Destutter
import Rollout.Proofs.Render.Replace
import Rollout.Proofs.System.Directory

/-!
# Proofs/Render/Versions — the earlier versions of a file

Replacing a file keeps a `Stack`: under its name lies the youngest text, and under the numbered names those
before it, the youngest first.  What succeeded in between is read off each step: removing the oldest version
makes room, moving the others up frees the first number (`shiftVersions_spec`), and the copy of the file
fills it (`Stack.keepVersion`); then the draft takes the place of the file (`Stack.commitDraft`).  So a file
that is written again and again, with nothing in its place at first, has under its numbered names the last
texts that it held, each one that was repeated once (`versions_are_last_texts`).
-/

namespace Rollout

open FileTree

variable {t t' : FileTree} {base name path : String} {d : Place}

/-- The directory of a file that is there is there. -/
theorem withDirectoryOf_of_opens (hname : Path.IsName name) (hopens : t.Opens base d)
    (hfits : Fits base name) : t.withDirectoryOf (Path.join base name) = .ok t := by
  obtain ⟨parent, hparent, hbefore⟩ := Path.parent?_join base hname
  rw [FileTree.withDirectoryOf, hparent]
  exact hopens.createDirectories hfits hbefore

/-! ## A file and its earlier versions -/

/-- **The versions of a file**: what its name stores, and what lies under the numbered names, the youngest
first and without gaps. -/
structure Stack (t : FileTree) (base : String) (d : Place) (name : String) (newest : Option String)
    (older : List String) : Prop where
  opens : t.Opens base d
  file : t.Stores base d name (newest.map String.toUTF8)
  zero : t.Stores base d (Path.numbered name 0) none
  version : ∀ i, t.Stores base d (Path.numbered name (i + 1)) (older[i]?.map String.toUTF8)

/-- A version is one of the first if its number is. -/
theorem numbered_mem_versionsOf_iff {maxOld k : Nat} :
    Path.numbered name k ∈ versionsOf name maxOld ↔ 0 < k ∧ k ≤ maxOld := by
  constructor
  · intro h
    obtain ⟨i, hi, heq⟩ := List.mem_map.mp h
    have hk := numbered_injective heq
    have hlt := List.mem_range.mp hi
    omega
  · exact fun h => mem_versionsOf h.1 h.2

/-- **Moving the versions one number up**, onto a number that is free, frees the first one. -/
theorem shiftVersions_spec (hname : Path.IsName name) : ∀ {n : Nat} {t t' : FileTree}
    {held : Nat → Option ByteArray}, t.Opens base d →
      (∀ i < n, t.Stores base d (Path.numbered name (i + 1)) (held i)) →
      t.Stores base d (Path.numbered name (n + 1)) none →
      (shiftVersions (Path.join base name) n : StateM FileTree _) t = (.ok (), t') →
        Alters base d (versionsOf name (n + 1)) t t' ∧
        t'.Stores base d (Path.numbered name 1) none ∧
        ∀ i < n, t'.Stores base d (Path.numbered name (i + 2)) (held i)
  | 0, t, t', held, hopens, _, hfree, hrun => by
      obtain rfl : t = t' := congrArg Prod.snd hrun
      exact ⟨⟨hopens, fun _ _ => rfl⟩, hfree, nofun⟩
  | n + 1, t, t', held, hopens, hheld, hfree, hrun => by
      obtain ⟨t₁, hmoved, hrest⟩ := shiftVersions_succ_eq_ok_iff.mp hrun
      rw [numbered_join hname, numbered_join hname, ifThere] at hmoved
      -- Whether or not there is a version, what it stores is one number up then.
      obtain ⟨hstep, hfree₁, hup⟩ :
          Alters base d [Path.numbered name (n + 1), Path.numbered name (n + 2)] t t₁ ∧
          t₁.Stores base d (Path.numbered name (n + 1)) none ∧
          t₁.Stores base d (Path.numbered name (n + 2)) (held n) := by
        have hlast := hheld n n.lt_succ_self
        split_ifs at hmoved with hthere
        · exact hopens.rename (isName_numbered hname _) (isName_numbered hname _)
            (fun heq => absurd (numbered_injective heq) (by omega)) hlast hfree hmoved
        · obtain rfl := Except.ok.inj hmoved
          have hnone := hopens.none_of_absent (isName_numbered hname _) hlast hthere
          rw [hnone] at hlast ⊢
          exact ⟨⟨hopens, fun _ _ => rfl⟩, hlast, hfree⟩
      have hlower : ∀ i < n, t₁.Stores base d (Path.numbered name (i + 1)) (held i) := by
        refine fun i hi => hstep.stores ?_ (hheld i (Nat.lt_succ_of_lt hi))
        simp only [List.mem_cons, List.not_mem_nil, or_false, numbered_injective.eq_iff]
        omega
      obtain ⟨hsteps, hfirst, hheld'⟩ := shiftVersions_spec hname hstep.opens hlower hfree₁ hrest
      refine ⟨(hstep.mono ?_).trans (hsteps.mono ?_), hfirst, fun i hi => ?_⟩
      · simp [List.subset_def, numbered_mem_versionsOf_iff]
      · intro x hx
        obtain ⟨k, hk, rfl⟩ := List.mem_map.mp hx
        exact List.mem_map.mpr ⟨k, List.mem_range.mpr (by have := List.mem_range.mp hk; omega), rfl⟩
      · rcases Nat.lt_succ_iff_lt_or_eq.mp hi with hi | rfl
        · exact hheld' i hi
        · refine hsteps.stores ?_ hup
          rw [numbered_mem_versionsOf_iff]
          omega

/-- A number that is not among the versions stores what it stored. -/
theorem FileTree.Alters.numbered {n k : Nat} {o : Option ByteArray}
    (h : Alters base d (versionsOf name n) t t') (hk : k = 0 ∨ n < k)
    (hstores : t.Stores base d (Path.numbered name k) o) :
    t'.Stores base d (Path.numbered name k) o := by
  refine h.stores ?_ hstores
  rw [numbered_mem_versionsOf_iff]
  omega

namespace Stack

variable {newest : Option String} {older : List String} {maxOld : Nat}

/-- Removing the oldest version leaves room for one more. -/
theorem remove_oldest (hname : Path.IsName name)
    (h : Stack t base d name newest (older.take (maxOld + 1)))
    (hrun : t.ifThere (Path.join base (Path.numbered name (maxOld + 1)))
      (·.remove (Path.join base (Path.numbered name (maxOld + 1)))) = .ok t') :
    Alters base d [Path.numbered name (maxOld + 1)] t t' ∧
      t'.Stores base d (Path.numbered name (maxOld + 1)) none := by
  have holdest := h.version maxOld
  rw [ifThere] at hrun
  split_ifs at hrun with hthere
  · exact h.opens.remove (isName_numbered hname _) holdest hrun
  · obtain rfl := Except.ok.inj hrun
    rw [h.opens.none_of_absent (isName_numbered hname _) holdest hthere] at holdest
    exact ⟨⟨h.opens, fun _ _ => rfl⟩, holdest⟩

/-- **Room for a version**: the others are moved one number up, but for the oldest one. -/
theorem makeRoom (hname : Path.IsName name) {t₁ : FileTree}
    (h : Stack t base d name newest (older.take (maxOld + 1)))
    (hremove : t.ifThere (Path.join base (Path.numbered name (maxOld + 1)))
      (·.remove (Path.join base (Path.numbered name (maxOld + 1)))) = .ok t₁)
    (hshift : (shiftVersions (Path.join base name) maxOld : StateM FileTree _) t₁ = (.ok (), t')) :
    Alters base d (versionsOf name (maxOld + 1)) t t' ∧
      t'.Stores base d (Path.numbered name 1) none ∧
      ∀ i, t'.Stores base d (Path.numbered name (i + 2))
        ((older.take maxOld)[i]?.map String.toUTF8) := by
  obtain ⟨hstep₁, hfree⟩ := h.remove_oldest hname hremove
  have hheld : ∀ i < maxOld, t₁.Stores base d (Path.numbered name (i + 1))
      (older[i]?.map String.toUTF8) := by
    intro i hi
    have hversion := h.version i
    rw [List.getElem?_take_of_lt (Nat.lt_succ_of_lt hi)] at hversion
    refine hstep₁.stores ?_ hversion
    simp only [List.mem_singleton, numbered_injective.eq_iff]
    omega
  obtain ⟨hstep₂, hfirst, hup⟩ := shiftVersions_spec hname hstep₁.opens hheld hfree hshift
  have hstep := (hstep₁.mono (by simp [List.subset_def, numbered_mem_versionsOf_iff])).trans hstep₂
  refine ⟨hstep, hfirst, fun i => ?_⟩
  rw [List.getElem?_take]
  split_ifs with hi
  · exact hup i hi
  · -- Nothing lies behind the oldest version, before and after.
    have hbehind := h.version (i + 1)
    rw [List.getElem?_take, if_neg fun hlt => hi (Nat.lt_of_succ_lt_succ hlt)] at hbehind
    exact hstep.numbered (.inr (by omega)) hbehind

/-- **Keeping a version puts it first**, and the oldest goes. -/
theorem keepVersion (hname : Path.IsName name) {text : String}
    (h : Stack t base d name (some text) (older.take (maxOld + 1)))
    (hrun : (keepVersion (Path.join base name) (maxOld + 1) : StateM FileTree _) t = (.ok (), t')) :
    Alters base d (versionsOf name (maxOld + 1)) t t' ∧
      Stack t' base d name (some text) ((text :: older).take (maxOld + 1)) := by
  obtain ⟨t₁, t₂, hremove, hshift, hcopy⟩ := keepVersion_eq_ok_iff.mp hrun
  rw [numbered_join hname] at hremove hcopy
  obtain ⟨hroom, hfirst, hup⟩ := h.makeRoom hname hremove hshift
  have hfile := hroom.stores (notMem_versionsOf name _).1 h.file
  obtain ⟨hcopied, hversion⟩ := hroom.opens.copy (isName_numbered hname 1) hfile hfirst hcopy
  have hstep := hroom.trans
    (hcopied.mono (by simp [List.subset_def, numbered_mem_versionsOf_iff]))
  refine ⟨hstep, hstep.opens, hstep.stores (notMem_versionsOf name _).1 h.file,
    hstep.numbered (.inl rfl) h.zero, fun i => ?_⟩
  cases i with
  | zero => exact hversion
  | succ i =>
    rw [List.take_succ_cons, List.getElem?_cons_succ]
    refine hcopied.stores ?_ (hup i)
    rw [List.mem_singleton, numbered_injective.eq_iff]
    omega

/-- **What was there is the first version then**, if versions are kept. -/
theorem keepIfAny (hname : Path.IsName name)
    (h : Stack t base d name newest (older.take maxOld))
    (hrun : (keepIfAny (Path.join base name) maxOld : StateM FileTree _) t = (.ok (), t')) :
    Alters base d (versionsOf name maxOld) t t' ∧
      Stack t' base d name newest ((newest.toList ++ older).take maxOld) := by
  rw [keepIfAny_eq_ok_iff, h.opens.exists?_eq hname h.file] at hrun
  split_ifs at hrun with hkept
  · obtain ⟨n, rfl⟩ := Nat.exists_eq_succ_of_ne_zero hkept.1.ne'
    cases newest with
    | none => exact nomatch hkept.2
    | some text => exact h.keepVersion hname hrun
  · subst hrun
    refine ⟨⟨h.opens, fun _ _ => rfl⟩, ?_⟩
    cases newest with
    | none => exact h
    | some text =>
      obtain rfl : maxOld = 0 := Nat.eq_zero_of_not_pos fun hpos => hkept ⟨hpos, rfl⟩
      exact h

/-- **A draft becomes the newest text.** -/
theorem commitDraft (hname : Path.IsName name) {text : String}
    (h : Stack t base d name newest (older.take maxOld))
    (hdraft : t.Stores base d (draftOf name) (some text.toUTF8))
    (hrun : (commitDraft (Path.join base name) (Path.join base (draftOf name)) maxOld :
      StateM FileTree _) t = (.ok (), t')) :
    Stack t' base d name (some text) ((newest.toList ++ older).take maxOld) ∧
      t'.Stores base d (draftOf name) none := by
  obtain ⟨t₁, hkeep, hrename⟩ := commitDraft_eq_ok_iff.mp hrun
  obtain ⟨hstep, hstack⟩ := h.keepIfAny hname hkeep
  have hdraft₁ := hstep.stores (notMem_versionsOf name maxOld).2 hdraft
  obtain ⟨hmove, hnone, hfile⟩ := hstack.opens.rename (isName_draft hname) hname (draftOf_ne name)
    hdraft₁ hstack.file hrename
  have hversion {k : Nat} {o : Option ByteArray}
      (hstores : t₁.Stores base d (Path.numbered name k) o) :
      t'.Stores base d (Path.numbered name k) o := by
    refine hmove.stores ?_ hstores
    simp [(numbered_ne name k).1, (numbered_ne name k).2]
  exact ⟨⟨hmove.opens, hfile, hversion hstack.zero, fun i => hversion (hstack.version i)⟩, hnone⟩

/-- **A text that is written and moved into its place becomes the newest one.** -/
theorem replaced (hname : Path.IsName name) {t₁ : FileTree} {text : String}
    (h : Stack t base d name newest (older.take maxOld))
    (hlink : ∀ p target,
      t.walk false (draftOf (Path.join base name)) ≠ .ok (.found p (.link target)))
    (hwrite : t.write (draftOf (Path.join base name)) text.toUTF8 = .ok t₁)
    (hcommit : (Rollout.commitDraft (Path.join base name) (draftOf (Path.join base name)) maxOld :
      StateM FileTree _) t₁ = (.ok (), t')) :
    Stack t' base d name (some text) ((newest.toList ++ older).take maxOld) ∧
      t'.Stores base d (draftOf name) none := by
  rw [draftOf_join hname] at hlink hwrite hcommit
  obtain ⟨hstep, hdraft⟩ := h.opens.write (isName_draft hname) hlink hwrite
  have hversion (k : Nat) : Path.numbered name k ∉ [draftOf name] := by
    rw [List.mem_singleton]
    exact (numbered_ne name k).2
  have hfile : name ∉ [draftOf name] := by
    rw [List.mem_singleton]
    exact (draftOf_ne name).symm
  have hstack : Stack t₁ base d name newest (older.take maxOld) :=
    ⟨hstep.opens, hstep.stores hfile h.file, hstep.stores (hversion 0) h.zero,
      fun i => hstep.stores (hversion (i + 1)) (h.version i)⟩
  exact hstack.commitDraft hname hdraft hcommit

end Stack

/-! ## Writing a file again and again -/

/-- **A file with the last of its earlier versions**, and no draft of it. -/
structure Settled (t : FileTree) (base : String) (d : Place) (name : String) (maxOld : Nat)
    (newest : String) (older : List String) : Prop where
  stack : Stack t base d name (some newest) (older.take maxOld)
  draft : t.Stores base d (draftOf name) none

namespace Settled

variable {newest : String} {older : List String} {maxOld : Nat}

/-! ### What can be read -/

section Read

variable (hname : Path.IsName name) (h : Settled t base d name maxOld newest older)
include hname h

theorem read_file : t.read (Path.join base name) = .ok newest.toUTF8 :=
  (h.stack.opens.read_eq_ok_iff hname h.stack.file).mpr rfl

/-- **A numbered version is one of the earlier texts**, counted from the youngest. -/
theorem read_version {i : Nat} (hi : i < min maxOld older.length) : ∃ text, older[i]? = some text ∧
    t.read (Path.numbered (Path.join base name) (i + 1)) = .ok text.toUTF8 := by
  obtain ⟨hkept, hthere⟩ := Nat.lt_min.mp hi
  have hversion := h.stack.version i
  rw [List.getElem?_take_of_lt hkept, List.getElem?_eq_getElem hthere] at hversion
  refine ⟨_, List.getElem?_eq_getElem hthere, ?_⟩
  rw [numbered_join hname]
  exact (h.stack.opens.read_eq_ok_iff (isName_numbered hname _) hversion).mpr rfl

/-- Nothing lies behind the last version. -/
theorem lacks_version {i : Nat} (hi : min maxOld older.length ≤ i) :
    t.Lacks (Path.numbered (Path.join base name) (i + 1)) := by
  have hversion := h.stack.version i
  rw [List.getElem?_eq_none (by rwa [List.length_take])] at hversion
  rw [numbered_join hname]
  exact (h.stack.opens.lacks_iff (isName_numbered hname _)).mpr hversion

theorem lacks_zero : t.Lacks (Path.numbered (Path.join base name) 0) := by
  rw [numbered_join hname]
  exact (h.stack.opens.lacks_iff (isName_numbered hname _)).mpr h.stack.zero

theorem lacks_draft : t.Lacks (draftOf (Path.join base name)) := by
  rw [draftOf_join hname]
  exact (h.stack.opens.lacks_iff (isName_draft hname)).mpr h.draft

end Read

/-! ### Writing once more -/

/-- **Replacing a file puts a text before the others**, unless it is the newest one already. -/
theorem replaceFile (hname : Path.IsName name) {content : String} {r : Replaced}
    (h : Settled t base d name maxOld newest older)
    (hrun : (replaceFile (Path.join base name) content maxOld : StateM FileTree _) t = (.ok r, t')) :
    newest = normalised content ∧ Settled t' base d name maxOld newest older ∨
      newest ≠ normalised content ∧
        Settled t' base d name maxOld (normalised content) (newest :: older) := by
  have hread (text : String) : t.read (Path.join base name) = .ok text.toUTF8 ↔ newest = text := by
    rw [h.stack.opens.read_eq_ok_iff hname h.stack.file, Option.map_some, Option.some.injEq]
    exact String.toByteArray_inj
  by_cases hsame : t.read (Path.join base name) = .ok (normalised content).toUTF8
  · rw [replaceFile_of_same hsame] at hrun
    obtain rfl : t = t' := congrArg Prod.snd hrun
    exact .inl ⟨(hread _).mp hsame, h⟩
  refine .inr ⟨fun heq => hsame ((hread _).mpr heq), ?_⟩
  obtain ⟨-, -, t₁, t₂, hmade, hwrite, hcommit⟩ := (replaceFile_eq_ok_iff hsame).mp hrun
  -- The directory is there, so making it changes nothing.
  rw [withDirectoryOf_of_opens hname h.stack.opens h.stack.file.1] at hmade
  obtain rfl := Except.ok.inj hmade
  obtain ⟨hstack, hdraft⟩ := h.stack.replaced hname
    (fun p target => h.lacks_draft hname p (.link target)) hwrite hcommit
  exact ⟨hstack, hdraft⟩

/-- **After a file is written again and again** its texts are those that were written, each one that was
repeated once, behind those it had. -/
theorem writeArtifacts (hname : Path.IsName name) : ∀ {contents : List String} {t t' : FileTree}
    {newest : String} {older : List String} {rs : List Replaced},
      Settled t base d name maxOld newest older →
      (writeArtifacts (contents.map fun c => ⟨Path.join base name, c, maxOld⟩) :
        StateM FileTree _) t = (.ok rs, t') →
      ∃ newest' older', Settled t' base d name maxOld newest' older' ∧
        newest' = (contents.map normalised).getLastD newest ∧
        older'.reverse ++ [newest']
          = older.reverse ++ (contents.map normalised).destutter' (· ≠ ·) newest
  | [], t, t', newest, older, rs, h, hrun => by
      obtain rfl : t = t' := congrArg Prod.snd hrun
      exact ⟨newest, older, h, rfl, rfl⟩
  | content :: contents, t, t', newest, older, rs, h, hrun => by
      obtain ⟨r, t₁, rs', hreplace, hrest, -⟩ := writeArtifacts_cons_eq_ok_iff.mp hrun
      rw [List.map_cons, List.getLastD_cons, List.destutter'_cons]
      rcases h.replaceFile hname hreplace with ⟨rfl, hsettled⟩ | ⟨hdiffers, hsettled⟩
      · obtain ⟨newest', older', h', hlast, htexts⟩ := writeArtifacts hname hsettled hrest
        exact ⟨newest', older', h', hlast, by rw [if_neg (not_not.mpr rfl), htexts]⟩
      · obtain ⟨newest', older', h', hlast, htexts⟩ := writeArtifacts hname hsettled hrest
        refine ⟨newest', older', h', hlast, ?_⟩
        rw [if_pos hdiffers, htexts, List.reverse_cons, List.append_assoc, List.singleton_append]

end Settled

/-! ## The first text -/

/-- **There is no file at a path yet, and no earlier version of one.**  What is asked of the tree is asked of
it with the directory of the path made, which a path such as `new/../name` may need to lead anywhere. -/
structure Unwritten (t : FileTree) (path : String) : Prop where
  sound : t.Sound
  absent : t.exists? path = false
  file : ∀ t₁, t.withDirectoryOf path = .ok t₁ → t₁.Lacks path
  version : ∀ t₁, t.withDirectoryOf path = .ok t₁ → ∀ k, t₁.Lacks (Path.numbered path k)
  /-- Writing a draft through a link would write elsewhere. -/
  draft : ∀ t₁, t.withDirectoryOf path = .ok t₁ → ∀ p target,
    t₁.walk false (draftOf path) ≠ .ok (.found p (.link target))

/-- In a directory that is there, nothing need be made. -/
theorem Unwritten.of_opens (hname : Path.IsName name) (hopens : t.Opens base d)
    (hfits : Fits base name) (hfile : t.Stores base d name none)
    (hversion : ∀ k, t.Stores base d (Path.numbered name k) none)
    (hdraft : t.Stores base d (draftOf name) none) : Unwritten t (Path.join base name) := by
  have hsame := withDirectoryOf_of_opens hname hopens hfits
  refine ⟨hopens.sound, hopens.exists?_eq hname hfile, fun t₁ hmade => ?_, fun t₁ hmade k => ?_,
    fun t₁ hmade p target => ?_⟩ <;> obtain rfl := Except.ok.inj (hsame.symm.trans hmade)
  · exact (hopens.lacks_iff hname).mpr hfile
  · rw [numbered_join hname]
    exact (hopens.lacks_iff (isName_numbered hname k)).mpr (hversion k)
  · rw [draftOf_join hname]
    exact (hopens.lacks_iff (isName_draft hname)).mpr hdraft p (.link target)

/-- **A draft can only be moved onto a path that ends in a name.** -/
theorem exists_name_of_commitDraft {maxOld : Nat} {text : String} {t₁ : FileTree} (hsound : t.Sound)
    (hlink : ∀ p target, t.walk false (draftOf path) ≠ .ok (.found p (.link target)))
    (hwrite : t.write (draftOf path) text.toUTF8 = .ok t₁)
    (hcommit : (commitDraft path (draftOf path) maxOld : StateM FileTree _) t₁ = (.ok (), t')) :
    ∃ base name, Path.IsName name ∧ Path.join base name = path := by
  obtain ⟨t₂, hkeep, hrename⟩ := commitDraft_eq_ok_iff.mp hcommit
  obtain ⟨⟨p, e, hsource, hdirectory⟩, -, hends⟩ := rename_eq_ok hrename
  refine exists_name_of_endsInName hends (Bool.eq_false_iff.mpr fun hslash => ?_)
  -- With a slash behind it, the path is that of a directory, which cannot be copied.
  obtain rfl : t₂ = t₁ := by
    rw [keepIfAny_eq_ok_iff] at hkeep
    split_ifs at hkeep
    · obtain ⟨_, t₃, -, -, hcopy⟩ := keepVersion_eq_ok_iff.mp hkeep
      obtain ⟨content, isPrivate, _, hstatus, -⟩ := copyCut_eq_ok hcopy
      cases isDirectory_of_status hslash hstatus
    · exact hkeep.symm
  have hname : Path.IsName ".haconf.tmp" := .of_length (by decide) (by decide)
  have hjoin : draftOf path = Path.join path ".haconf.tmp" := by
    rw [Path.join_of_front (.inr (beq_iff_eq.mp hslash)) hname.isAbsolute_eq, draftOf]
  rw [hjoin] at hlink hwrite hsource
  obtain ⟨d, hopens⟩ := Opens.exists_of_write hsound hname hwrite
  obtain ⟨hstep, hfits, isPrivate, hfile⟩ := hopens.write hname hlink hwrite
  rw [hstep.opens.into.walk_of_fits hfits, arrive_of_some hfile] at hsource
  obtain ⟨-, rfl⟩ := Walk.found.inj (Except.ok.inj hsource)
  rcases hdirectory with hdirectory | hnone
  · cases hdirectory
  · cases hslash.symm.trans hnone

/-- **The first text has no earlier versions.** -/
theorem Unwritten.replaceFile {content : String} {maxOld : Nat} {r : Replaced}
    (h : Unwritten t path)
    (hrun : (replaceFile path content maxOld : StateM FileTree _) t = (.ok r, t')) :
    ∃ base name d, Path.IsName name ∧ Path.join base name = path ∧
      Settled t' base d name maxOld (normalised content) [] := by
  have hdiffers : t.read path ≠ .ok (normalised content).toUTF8 := fun hread =>
    Bool.false_ne_true (h.absent.symm.trans (exists?_of_read hread))
  obtain ⟨-, -, t₁, t₂, hmade, hwrite, hcommit⟩ := (replaceFile_eq_ok_iff hdiffers).mp hrun
  obtain ⟨-, hsound⟩ := withDirectoryOf_spec h.sound hmade
  have hlink := h.draft t₁ hmade
  obtain ⟨base, name, hname, rfl⟩ := exists_name_of_commitDraft hsound hlink hwrite hcommit
  obtain ⟨d, hopens⟩ := Opens.exists_of_write hsound (isName_draft hname)
    (by rwa [draftOf_join hname] at hwrite)
  have hversion (k : Nat) : t₁.Stores base d (Path.numbered name k) none := by
    have hnone := h.version t₁ hmade k
    rw [numbered_join hname] at hnone
    exact (hopens.lacks_iff (isName_numbered hname k)).mp hnone
  have hstack : Stack t₁ base d name none (([] : List String).take maxOld) := by
    refine ⟨hopens, (hopens.lacks_iff hname).mp (h.file t₁ hmade), hversion 0, fun i => ?_⟩
    rw [List.take_nil]
    exact hversion (i + 1)
  obtain ⟨hstack', hdraft⟩ := hstack.replaced hname hlink hwrite hcommit
  exact ⟨base, name, d, hname, rfl, hstack', hdraft⟩

/-! ## All the texts of a file -/

/-- **The texts of some contents one after the other**, each one that is repeated once. -/
def textsOf (contents : List String) : List String :=
  (contents.map normalised).destutter (· ≠ ·)

/-- **The earlier versions of a file are the last texts it held.**  After some contents are written to a path
where there was nothing, the file holds the last of them, the numbered names hold the texts before it, as
many as are kept, and nothing lies under any other number or as a draft. -/
theorem versions_are_last_texts {contents : List String} {last : String} {maxOld : Nat}
    {rs : List Replaced} (h : Unwritten t path) (hlast : contents.getLast? = some last)
    (hrun : (writeArtifacts (contents.map fun c => ⟨path, c, maxOld⟩) : StateM FileTree _) t
      = (.ok rs, t')) :
    t'.read path = .ok (normalised last).toUTF8 ∧
      (∀ i, 1 ≤ i → i ≤ min maxOld ((textsOf contents).length - 1) →
        ∃ text, (textsOf contents)[(textsOf contents).length - 1 - i]? = some text ∧
          t'.read (Path.numbered path i) = .ok text.toUTF8) ∧
      (∀ i, i = 0 ∨ min maxOld ((textsOf contents).length - 1) < i →
        t'.Lacks (Path.numbered path i)) ∧
      t'.Lacks (draftOf path) := by
  cases contents with
  | nil => exact nomatch hlast
  | cons first contents =>
    obtain ⟨r, t₁, rs', hfirst, hrest, -⟩ := writeArtifacts_cons_eq_ok_iff.mp hrun
    obtain ⟨base, name, d, hname, rfl, hsettled⟩ := h.replaceFile hfirst
    obtain ⟨newest, older, hfinal, hnewest, htexts⟩ := hsettled.writeArtifacts hname hrest
    have hlist : textsOf (first :: contents) = older.reverse ++ [newest] := by
      rw [htexts, textsOf, List.map_cons, List.destutter_cons', List.reverse_nil, List.nil_append]
    have hcount : (textsOf (first :: contents)).length - 1 = older.length := by
      rw [hlist, List.length_append, List.length_reverse]
      rfl
    rw [hcount, hlist]
    refine ⟨?_, fun i hpos hi => ?_, fun i hi => ?_, ?_⟩
    · have hsame : newest = normalised last := by
        rw [List.getLast?_cons, Option.some.injEq] at hlast
        rw [hnewest, ← hlast]
        simp only [List.getLastD_eq_getLast?, List.getLast?_map, Option.getD_map]
      rw [← hsame]
      exact hfinal.read_file hname
    · obtain ⟨i, rfl⟩ := Nat.exists_eq_add_of_le' hpos
      obtain ⟨text, htext, hread⟩ := hfinal.read_version hname (i := i) (by omega)
      have hthere : i < older.length := by omega
      refine ⟨text, ?_, hread⟩
      rw [List.getElem?_append_left (by rw [List.length_reverse]; omega),
        List.getElem?_reverse (by omega), ← htext]
      congr 1
      omega
    · rcases hi with rfl | hi
      · exact hfinal.lacks_zero hname
      · obtain ⟨i, rfl⟩ := Nat.exists_eq_add_of_le' (Nat.zero_lt_of_lt hi)
        exact hfinal.lacks_version hname (by omega)
    · exact hfinal.lacks_draft hname

/-- Two versions are kept of a file that is written five times, and once with the text it has. -/
theorem versions_are_last_texts_twice : ∃ t' rs,
    (writeArtifacts (["a\n", "b\r\n", "b\n", "c\n", "d\n"].map fun c => ⟨"haproxy.cfg", c, 2⟩) :
      StateM FileTree _) {} = (.ok rs, t') ∧
    t'.read "haproxy.cfg" = .ok "d\n".toUTF8 ∧ t'.read "haproxy.cfg.1" = .ok "c\n".toUTF8 ∧
    t'.read "haproxy.cfg.2" = .ok "b\n".toUTF8 ∧ t'.Lacks "haproxy.cfg.3" ∧
    t'.Lacks "haproxy.cfg.haconf.tmp" := by
  have hname : Path.IsName "haproxy.cfg" := .of_length (by decide) (by decide)
  have hopens : ({} : FileTree).Opens "" [] := ⟨.of_entries rfl (by decide), rfl⟩
  have hempty (n : String) : ({} : FileTree).Stores "" [] n none := fun _ => rfl
  have hjoin : Path.join "" "haproxy.cfg" = "haproxy.cfg" := by decide +kernel
  have hunwritten : Unwritten {} "haproxy.cfg" := by
    rw [← hjoin]
    exact .of_opens hname hopens ⟨hname, by decide, by decide, by decide⟩ (hempty _)
      (fun _ => hempty _) (hempty _)
  have htexts : textsOf ["a\n", "b\r\n", "b\n", "c\n", "d\n"] = ["a\n", "b\n", "c\n", "d\n"] := by
    decide +kernel
  have hanswer : ((writeArtifacts (["a\n", "b\r\n", "b\n", "c\n", "d\n"].map
      fun c => ⟨"haproxy.cfg", c, 2⟩) : StateM FileTree _) {}).1 = .ok [.written "haproxy.cfg",
        .written "haproxy.cfg", .unchanged "haproxy.cfg", .written "haproxy.cfg",
        .written "haproxy.cfg"] := by decide +kernel
  generalize hrun : (writeArtifacts (["a\n", "b\r\n", "b\n", "c\n", "d\n"].map
      fun c => ⟨"haproxy.cfg", c, 2⟩) : StateM FileTree _) {} = p at hanswer
  obtain ⟨r, t'⟩ := p
  obtain rfl : r = _ := hanswer
  have hlast : ["a\n", "b\r\n", "b\n", "c\n", "d\n"].getLast? = some "d\n" := rfl
  have hnumbered : Path.numbered "haproxy.cfg" 1 = "haproxy.cfg.1" ∧
      Path.numbered "haproxy.cfg" 2 = "haproxy.cfg.2" ∧
      Path.numbered "haproxy.cfg" 3 = "haproxy.cfg.3" := by decide +kernel
  obtain ⟨hfile, hversion, hother, hdraft⟩ := versions_are_last_texts hunwritten hlast hrun
  rw [htexts] at hversion hother
  obtain ⟨c, hc, hfirst⟩ := hversion 1 (by decide) (by decide)
  obtain rfl : "c\n" = c := by simpa using hc
  obtain ⟨b, hb, hsecond⟩ := hversion 2 (by decide) (by decide)
  obtain rfl : "b\n" = b := by simpa using hb
  have hthird := hother 3 (.inr (by decide))
  rw [hnumbered.1] at hfirst
  rw [hnumbered.2.1] at hsecond
  rw [hnumbered.2.2] at hthird
  rw [show normalised "d\n" = "d\n" by decide +kernel] at hfile
  rw [show draftOf "haproxy.cfg" = "haproxy.cfg.haconf.tmp" by decide +kernel] at hdraft
  exact ⟨t', _, rfl, hfile, hfirst, hsecond, hthird, hdraft⟩

end Rollout
