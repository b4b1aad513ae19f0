import Rollout.Proofs.Render.Keeping

/-!
# Proofs/Render/Committing — a draft that becomes the file, or goes

A draft is written beside the file (`writeDraft_runs`).  Moving it into its place succeeds, or it is removed
(`commitDraft_runs`).  In between the file is what it was, or what the draft was.  What is left after a
failure is told by what was struck: the versions are as they were unless their moving on was, and the draft is
gone unless its removal was.
-/

namespace Rollout

open FileTree Disk Runs

variable {disk : Disk} {base name path draft : String} {d : Place} {maxOld : Nat}
  {movable : List String} {content : ByteArray} {isPrivate : Bool}

/-! ## Writing a draft -/

/-- **A name in a directory was written**, and nothing else. -/
structure Wrote (base : String) (d : Place) (movable : List String) (n : String) (content : ByteArray)
    (t t' : FileTree) : Prop where
  site : Site t base d movable
  kept : Confined base d movable [n] t t'
  fits : Fits base n
  file : ∃ isPrivate, t'.lookup (d ++ [n]) = some (.file content isPrivate)

/-- **A name below a path can be written** only if the path leads into a directory. -/
theorem FileTree.Regular.wrote {t t' : FileTree} {n : String} (hregular : t.Regular)
    (hn : Path.IsName n)
    (hclear : ∀ q ∈ t.wayInto base, ∀ m ∈ movable, ¬ t.goal base ++ [m] <+: q)
    (hrun : t.write (Path.join base n) content = .ok t') :
    Wrote base (t.goal base) movable n content t t' := by
  obtain ⟨d, hopens⟩ := Opens.exists_of_write hregular.sound hn hrun
  obtain rfl := (hregular.leadsInto_iff.mp hopens.into).2.2
  have hsite : Site t base (t.goal base) movable := ⟨hregular, hopens.into, hclear⟩
  obtain ⟨hfits, hleaf⟩ := hsite.leaf_of_write hn hrun
  have hfolder := hsite.folder (List.forall_mem_singleton.mpr hfits)
    (List.forall_mem_singleton.mpr hleaf)
  obtain ⟨t₁, hwrite, hedit, hfile⟩ := hfolder.write List.mem_cons_self content
  obtain rfl := Except.ok.inj (hwrite.symm.trans hrun)
  exact ⟨hsite, .edit hsite hfolder hedit, hfits, hfile⟩

/-- **Writing a name below a path**: it holds the text in the end, or a part of it if the writing is struck,
or nothing was done. -/
theorem writeDraft_runs {n : String} (text : String) (hregular : disk.now.Regular) (hn : Path.IsName n)
    (hclear : ∀ q ∈ disk.now.wayInto base, ∀ m ∈ movable, ¬ disk.now.goal base ++ [m] <+: q) :
    Runs (fun g => ∃ part, Wrote base (disk.now.goal base) movable n part disk.now g)
      (FileSystem.writeText (Path.join base n) text : StateM Disk _) disk
      (EndsIn (fun disk' => disk'.now = disk.now ∨ .write (Path.join base n) ∈ disk'.struck ∧
          ∃ part, Wrote base (disk.now.goal base) movable n part disk.now disk'.now)
        fun _ disk' => Wrote base (disk.now.goal base) movable n text.toUTF8 disk.now disk'.now) := by
  rw [FileSystem.writeText]
  refine .change (fun t hrun => ?_) (fun _ _ _ hd => .inl hd.now) fun mishap => ?_
  · have hwrote := hregular.wrote hn hclear hrun
    exact ⟨⟨_, hwrote⟩, fun disk' hd => hd.now ▸ hwrote⟩
  · rcases writePart_cases disk.now (Path.join base n) text.toUTF8 mishap.progress with
      hsame | ⟨part, hrun⟩
    · exact ⟨.inr hsame, fun disk' hd _ => .inl (hd.now.trans hsame)⟩
    · have hwrote := hregular.wrote hn hclear hrun
      exact ⟨.inl ⟨part, hwrote⟩, fun disk' hd hstruck => .inr ⟨hstruck, part, hd.now ▸ hwrote⟩⟩

/-! ## Moving it into its place -/

/-- **Keeping a version where versions are kept** changes versions only, and leaves everything as it is if it
fails, unless something is struck that moves the versions on. -/
theorem keepIfAny_runs (hname : Path.IsName name) (hsite : Site disk.now base d movable)
    (hmovable : versionsOf name (maxOld - 1) ⊆ movable) (hfits : Fits base (draftOf name))
    (hleaf : disk.now.lookup (d ++ [name]) ≠ some .directory) :
    Runs (Confined base d movable (versionsOf name maxOld) disk.now)
      (keepIfAny (Path.join base name) maxOld) disk
      (EndsIn (fun disk' => Confined base d movable (versionsOf name maxOld) disk.now disk'.now ∧
          (Hit Operation.Rotates disk' ∨ disk'.now = disk.now))
        fun _ disk' => Confined base d movable (versionsOf name maxOld) disk.now disk'.now) := by
  rw [keepIfAny]
  by_cases hpos : 0 < maxOld
  · rw [if_pos hpos]
    refine .ifThere (fun disk₁ hd hthere => ?_) fun disk₁ hd _ => .pure ?_
    · have hsome := ((hsite.exists?_iff hname).mp hthere).2
      obtain ⟨content, isPrivate, hfile⟩ := (hsite.regular.isPlain hleaf).exists_file hsome
      rw [← hd.now] at hsite hfile ⊢
      exact keepVersion_runs hname hsite hmovable hpos hfits hfile
    · rw [EndsIn, hd.now]
      exact .refl hsite
  · rw [if_neg hpos]
    exact .pure (.refl hsite)

/-- **Moving a file onto a name** that is no directory fails only if it is struck. -/
theorem moveOnto_runs {n m : String} (hsite : Site disk.now base d movable) (hn : Fits base n)
    (hm : Fits base m) (hne : n ≠ m)
    (hfile : disk.now.lookup (d ++ [n]) = some (.file content isPrivate))
    (hleaf : disk.now.lookup (d ++ [m]) ≠ some .directory) :
    Runs (fun g => Confined base d movable [n, m] disk.now g ∧
        g.lookup (d ++ [m]) = some (.file content isPrivate))
      (FileSystem.rename (Path.join base n) (Path.join base m)) disk
      (EndsIn (fun disk' => disk'.now = disk.now ∧ Hit Operation.Rotates disk')
        fun _ disk' => Confined base d movable [n, m] disk.now disk'.now ∧
          disk'.now.lookup (d ++ [m]) = some (.file content isPrivate)) := by
  have hfolder := hsite.folder_pair hn hm (by rw [hfile]; exact nofun) hleaf
  obtain ⟨t, hrename, hedit, -, hmoved⟩ := hfolder.rename List.mem_cons_self
    (List.mem_cons_of_mem _ List.mem_cons_self) hne (by rw [hfile]; rfl)
  have hkept : Confined base d movable [n, m] disk.now t ∧ _ :=
    ⟨.edit hsite hfolder hedit, hmoved.trans hfile⟩
  exact (atOnce_of_ok hrename hkept).monoEnds (fun _ => id)
    (fun disk' _ hfailed => ⟨hfailed.1, _, hfailed.2, trivial⟩) fun _ disk' _ hdone => hdone ▸ hkept

/-- **The draft is removed if it cannot be moved.** -/
theorem commitDraft_runs_of {good : FileTree → Prop} {failed removed : Disk → Prop}
    {succeeded : Unit → Disk → Prop}
    (h : Runs good (andThen (keepIfAny path maxOld) fun _ => FileSystem.rename draft path) disk
      (EndsIn failed succeeded))
    (hremove : ∀ disk', failed disk' → Runs good (FileSystem.remove draft) disk' fun _ => removed) :
    Runs good (commitDraft path draft maxOld) disk (EndsIn removed succeeded) := by
  refine h.bind fun r disk' _ hmid => ?_
  cases r with
  | ok _ => exact .pure hmid
  | error e => exact (hremove disk' hmid).bind fun _ _ _ hgone => .pure hgone

/-- A draft that is there is removed, unless that is struck. -/
theorem removeDraft_runs (hsite : Site disk.now base d movable) {n : String} (hfits : Fits base n)
    (hfile : disk.now.lookup (d ++ [n]) = some (.file content isPrivate)) :
    Runs (Confined base d movable [n] disk.now) (FileSystem.remove (Path.join base n)) disk
      fun _ disk' => Confined base d movable [n] disk.now disk'.now ∧
        (.remove (Path.join base n) ∈ disk'.struck ∨ disk'.now.lookup (d ++ [n]) = none) := by
  obtain ⟨t, hremove, hkept, hnone⟩ := hsite.exists_remove hfits (by rw [hfile]; rfl)
    (by rw [hfile]; exact nofun)
  have hrun : Runs (Confined base d movable [n] disk.now) (FileSystem.remove (Path.join base n)) disk _ :=
    atOnce_of_ok hremove hkept
  refine hrun.mono (fun _ => id) fun r disk' hend => ?_
  cases r with
  | error e =>
    obtain ⟨hsame, hstruck⟩ : disk'.now = disk.now ∧ _ := hend
    rw [hsame]
    exact ⟨.refl hsite, .inl hstruck⟩
  | ok _ =>
    obtain rfl : disk'.now = t := hend
    exact ⟨hkept, .inr hnone⟩

/-- **Nothing but the paths of a file is different**, and the file is what it was, or what its draft was. -/
structure Swapped (base : String) (d : Place) (movable : List String) (name : String) (maxOld : Nat)
    (t g : FileTree) : Prop where
  kept : Confined base d movable (pathsOf name maxOld) t g
  swapped : g.lookup (d ++ [name]) = t.lookup (d ++ [name]) ∨
    g.lookup (d ++ [name]) = t.lookup (d ++ [draftOf name])

/-- What leaves the file alone leaves it as it was. -/
theorem Confined.swapped {t g : FileTree} {names : List String} (h : Confined base d movable names t g)
    (hsub : names ⊆ pathsOf name maxOld) (hname : name ∉ names) :
    Swapped base d movable name maxOld t g :=
  ⟨h.mono hsub, .inl (h.within.lookup_of_notMem hname)⟩

/-- **A draft that did not become the file.** -/
structure Withdrawn (base : String) (d : Place) (movable : List String) (name : String) (maxOld : Nat)
    (t : FileTree) (disk : Disk) : Prop where
  kept : Confined base d movable (draftOf name :: versionsOf name maxOld) t disk.now
  versions : Hit Operation.Rotates disk ∨ Confined base d movable [draftOf name] t disk.now
  draft : .remove (Path.join base (draftOf name)) ∈ disk.struck ∨
    disk.now.lookup (d ++ [draftOf name]) = none

theorem draft_subset_pathsOf : [draftOf name] ⊆ pathsOf name maxOld :=
  List.cons_subset.mpr ⟨List.mem_cons_of_mem _ List.mem_cons_self, List.nil_subset _⟩

/-- **A draft becomes the file, or is withdrawn.** -/
theorem commitDraft_runs (hname : Path.IsName name) (hsite : Site disk.now base d movable)
    (hmovable : versionsOf name (maxOld - 1) ⊆ movable) (hfits : Fits base (draftOf name))
    (hdraft : disk.now.lookup (d ++ [draftOf name]) = some (.file content isPrivate))
    (hleaf : disk.now.lookup (d ++ [name]) ≠ some .directory) :
    Runs (Swapped base d movable name maxOld disk.now)
      (commitDraft (Path.join base name) (Path.join base (draftOf name)) maxOld) disk
      (EndsIn (Withdrawn base d movable name maxOld disk.now)
        fun _ disk' => Confined base d movable (pathsOf name maxOld) disk.now disk'.now ∧
          disk'.now.lookup (d ++ [name]) = some (.file content isPrivate)) := by
  obtain ⟨hfile, hdraft'⟩ := notMem_versionsOf name maxOld
  have hversions := versionsOf_subset name maxOld
  have hpair : [draftOf name, name] ⊆ pathsOf name maxOld := by simp [pathsOf]
  refine commitDraft_runs_of (.andThen ((keepIfAny_runs hname hsite hmovable hfits hleaf).monoEnds
    (fun g hg => hg.swapped hversions hfile) (fun _ _ => id) fun _ _ _ => id) (fun _ _ => id)
    fun _ disk₁ _ hkept => ?_) fun disk₁ hmid => ?_
  · have hsame := hkept.within.lookup_of_notMem hfile
    have hmove := moveOnto_runs hkept.site hfits (fits_of_draft hfits hname) (draftOf_ne name)
      ((hkept.within.lookup_of_notMem hdraft').trans hdraft) (by rwa [hsame])
    refine hmove.monoEnds (fun g hg => ⟨(hkept.mono hversions).trans (hg.1.mono hpair), .inr ?_⟩)
      (fun disk' _ hfailed => ⟨hfailed.1 ▸ hkept, .inl hfailed.2⟩) fun _ _ _ hdone =>
        ⟨(hkept.mono hversions).trans (hdone.1.mono hpair), hdone.2⟩
    rw [hg.2, hdraft]
  · obtain ⟨hkept, hversions'⟩ := hmid
    have hdraft₁ := (hkept.within.lookup_of_notMem hdraft').trans hdraft
    have hall : versionsOf name maxOld ⊆ draftOf name :: versionsOf name maxOld :=
      List.subset_cons_self _ _
    have hone : [draftOf name] ⊆ draftOf name :: versionsOf name maxOld := by simp
    refine ((removeDraft_runs hkept.site hfits hdraft₁).mono (fun g hg => ?_) fun _ _ => id).strengthen
      fun _ disk' hsub hend => ⟨(hkept.mono hall).trans (hend.1.mono hone),
        hversions'.imp (·.later hsub) fun hsame => ?_, hend.2⟩
    · refine ((hkept.mono hall).trans (hg.mono hone)).swapped (List.subset_cons_self _ _) ?_
      simp [(draftOf_ne name).symm, hfile]
    · rw [hsame] at hend
      exact hend.1

/-- Nothing lies at the empty path. -/
@[simp] theorem FileTree.held_empty (t : FileTree) : t.held "" = none := rfl

/-- **Nothing is moved onto the empty path**, and the draft goes. -/
theorem commitDraft_runs_of_empty (hsite : Site disk.now base d movable) {n : String}
    (hfits : Fits base n) (hfile : disk.now.lookup (d ++ [n]) = some (.file content isPrivate)) :
    Runs (Confined base d movable [n] disk.now) (commitDraft "" (Path.join base n) maxOld) disk
      (EndsIn (fun disk' => Confined base d movable [n] disk.now disk'.now ∧
          (.remove (Path.join base n) ∈ disk'.struck ∨ disk'.now.lookup (d ++ [n]) = none))
        fun _ _ => False) := by
  have hkeep {good : FileTree → Prop} : Runs good (keepIfAny "" maxOld) disk
      (EndsIn (·.now = disk.now) fun _ disk' => disk'.now = disk.now) := by
    unfold keepIfAny
    split_ifs
    · refine .ifThere (fun _ _ hthere => ?_) fun _ hd _ => .pure hd.now
      rw [exists?_eq_held, held_empty] at hthere
      exact nomatch hthere
    · exact .pure rfl
  have hmove {good : FileTree → Prop} : Runs good
      (andThen (keepIfAny "" maxOld) fun _ => FileSystem.rename (Path.join base n) "") disk
      (EndsIn (·.now = disk.now) fun _ _ => False) := by
    refine .andThen hkeep (fun _ _ => id) fun _ disk₁ _ hsame => ?_
    refine .atOnce (fun t hrun => ?_) (fun _ _ _ hd => hd.now.trans hsame)
      fun _ hd _ => hd.now.trans hsame
    obtain ⟨-, ⟨W, hwalk⟩, -⟩ := rename_eq_ok hrun
    exact nomatch hwalk
  refine commitDraft_runs_of hmove fun disk₁ hsame => ?_
  rw [← hsame] at hsite hfile ⊢
  exact removeDraft_runs hsite hfits hfile

end Rollout
