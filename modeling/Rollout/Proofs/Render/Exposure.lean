import Rollout.Proofs.Render.Committing
import Rollout.Proofs.System.Paved

/-!
# Proofs/Render/Exposure — what a reader may find while a file is replaced

While a file is replaced, its path leads to what was there or to the new text, whatever is in its way
and whatever is struck (`replaceFile_exposes_nothing`).  What fails leaves the file as it was; it leaves its
versions as they were, and no draft, unless an operation on just these was struck.  The path must stay: what
it leaves upwards by `..` has to be there, and must not be moved with a version.
-/

namespace Rollout

open FileTree Disk Runs

variable {disk : Disk} {base last path content : String} {bytes : ByteArray} {maxOld : Nat}
  {movable : List String} {t t₁ t' g : FileTree}

/-! ## Paths that stay -/

/-- **A path that leads on while versions are moved**: it goes up by `..` only from directories that are
there, and that neither are versions that may be moved nor lie in one. -/
def Straight (t : FileTree) (path : String) (maxOld : Nat) : Prop :=
  ∀ q ∈ t.turnsOf path, t.lookup q = some .directory ∧
    ∀ k, 0 < k → k < maxOld → ¬ t.goal (Path.numbered path k) <+: q

namespace Straight

variable (hs : Straight t path maxOld)
include hs

theorem turns : ∀ q ∈ t.turnsOf path, t.lookup q = some .directory := fun q hq => (hs q hq).1

/-- The way to the file passes no version that may be moved. -/
theorem clear (h : Path.Split path base last) :
    ∀ q ∈ t.wayInto base, ∀ m ∈ versionsOf last (maxOld - 1), ¬ t.goal base ++ [m] <+: q := by
  intro q hq m hm hbegins
  obtain ⟨k, hk, rfl⟩ := List.mem_map.mp hm
  have hlong : ¬ q <+: t.goal base := fun hshort => by
    have hlength := (hbegins.trans hshort).length_le
    rw [List.length_append, List.length_singleton] at hlength
    exact absurd hlength (Nat.not_succ_le_self _)
  rcases List.mem_append.mp hq with hway | hgoal
  · rcases passed_cases hway with ⟨r, hr, hqr⟩ | ⟨hbelow, -⟩
    · have hturn : r ∈ t.turnsOf path := by
        rw [turnsOf_eq_append h]
        exact List.mem_append_left _ hr
      have hlt := List.mem_range.mp hk
      refine (hs r hturn).2 (k + 1) k.succ_pos (by omega) ?_
      rw [goal_numbered h]
      exact hbegins.trans hqr
    · exact hlong hbelow
  · exact hlong (List.mem_singleton.mp hgoal ▸ List.prefix_refl _)

end Straight

/-! ### Where directories were made above -/

namespace FileTree.Paved

variable (hpaved : Paved (t.goal path) t t') (hregular : t.Regular) (hs : Straight t path maxOld)
include hpaved hregular hs

theorem held_path : t'.held path = t.held path :=
  hpaved.held_eq hregular hs.turns fun habove => habove.2 rfl

/-- The names beside the file lead to what they led to. -/
theorem held_join (h : Path.Split path base last) {n : String} (hn : Path.IsName n) :
    t'.held (Path.join base n) = t.held (Path.join base n) := by
  refine hpaved.held_eq hregular (fun q hq => hs.turns q ?_) ?_
  · rw [turnsOf_join t base hn] at hq
    rw [turnsOf_eq_append h]
    exact List.mem_append_left _ hq
  · rw [goal_join t base hn]
    exact not_above_goal h

end FileTree.Paved

/-- **A name that was not changed leads to what it led to.** -/
theorem Confined.held_eq {d : Place} {names movable' : List String}
    (hkept : Confined base d movable names t g) (hsite : Site t base d movable') {n : String}
    (hn : Path.IsName n) (hsame : g.lookup (d ++ [n]) = t.lookup (d ++ [n])) :
    g.held (Path.join base n) = t.held (Path.join base n) := by
  by_cases hfits : Fits base n
  · rw [hkept.site.held_of_fits hfits, hsite.held_of_fits hfits, hsame]
  · rw [hkept.site.held_of_not_fits hn hfits, hsite.held_of_not_fits hn hfits]

/-! ## What may be different -/

/-- The places of the paths that replacing a file is about. -/
def placesOf (t : FileTree) (path : String) (maxOld : Nat) : List Place :=
  (pathsOf path maxOld).map t.goal

/-- **Nothing but the paths of a file is different**, and directories above it that are new. -/
structure Reworked (path : String) (maxOld : Nat) (t g : FileTree) : Prop where
  regular : g.Regular
  same : ∀ q, (∀ p ∈ placesOf t path maxOld, ¬ p <+: q) → g.lookup q = t.lookup q ∨
    t.lookup q = none ∧ g.lookup q = some .directory ∧ q <+: t.goal path ∧ q ≠ t.goal path
  home : (∀ p ∈ placesOf t path maxOld, ¬ p <+: t.home) → g.home = t.home

theorem FileTree.Paved.reworked (h : Paved (t.goal path) t t') : Reworked path maxOld t t' :=
  ⟨h.regular, fun q _ => h.above q, fun _ => h.grows.home⟩

theorem Confined.reworked {d : Place} {names : List String} (hkept : Confined base d movable names t₁ g)
    (hpaved : Paved (t.goal path) t t₁) (hsub : placesIn d names ⊆ placesOf t path maxOld) :
    Reworked path maxOld t g := by
  refine ⟨hkept.site.regular, fun q hq => ?_, fun hhome => ?_⟩
  · rw [hkept.within.same q fun p hp => hq p (hsub hp)]
    exact hpaved.above q
  · have hstart := hkept.within.home fun p hp => by
      rw [hpaved.grows.home]
      exact hhome p (hsub hp)
    exact hstart.trans hpaved.grows.home

theorem placesIn_draft (h : Path.Split path base last) :
    placesIn (t.goal base) [draftOf last] ⊆ placesOf t path maxOld := by
  have hmem : t.goal (draftOf path) ∈ placesOf t path maxOld :=
    List.mem_map_of_mem (List.mem_cons_of_mem _ List.mem_cons_self)
  rw [goal_draftOf h] at hmem
  exact List.cons_subset.mpr ⟨hmem, List.nil_subset _⟩

theorem placesIn_pathsOf (hname : Path.IsName last) :
    placesIn (t.goal base) (pathsOf last maxOld) = placesOf t (Path.join base last) maxOld := by
  rw [placesOf, pathsOf_join hname, List.map_map]
  exact List.map_congr_left fun n hn => (goal_join t base (isName_of_mem_pathsOf hname hn)).symm

/-! ## While a file is replaced -/

/-- **What a reader may find**: the file is what it was, or has the new text. -/
structure Passing (path content : String) (maxOld : Nat) (t g : FileTree) : Prop where
  reworked : Reworked path maxOld t g
  file : g.held path = t.held path ∨
    ∃ isPrivate, g.held path = some (.file (normalised content).toUTF8 isPrivate)

/-- **The file has the new text**, and its path starts where it started. -/
structure Renewed (path content : String) (maxOld : Nat) (t t' : FileTree) : Prop where
  reworked : Reworked path maxOld t t'
  start : t'.startOf path = t.startOf path
  file : ∃ isPrivate, t'.held path = some (.file (normalised content).toUTF8 isPrivate)

/-- **The file is what it was.**  Its versions are too, unless an operation that moves them on was struck, and
no draft is left, unless its writing or its removal was struck. -/
structure Undone (path : String) (maxOld : Nat) (t : FileTree) (disk : Disk) : Prop where
  reworked : Reworked path maxOld t disk.now
  file : disk.now.held path = t.held path
  version : ¬ Hit Operation.Rotates disk →
    ∀ k, disk.now.held (Path.numbered path k) = t.held (Path.numbered path k)
  draft : .write (draftOf path) ∉ disk.struck → .remove (draftOf path) ∉ disk.struck →
    disk.now.held (draftOf path) = none ∨ disk.now.held (draftOf path) = t.held (draftOf path)

theorem Renewed.passing (h : Renewed path content maxOld t g) : Passing path content maxOld t g :=
  ⟨h.reworked, .inr h.file⟩

theorem Undone.of_same (h : t.Regular) (hsame : disk.now = t) : Undone path maxOld t disk := by
  obtain rfl := hsame
  exact ⟨(Paved.refl h _).reworked, rfl, fun _ _ => rfl, fun _ _ => .inr rfl⟩

/-! ### Up to the draft -/

/-- The directory of a file is made, or what can be made of it. -/
theorem createDirectoryOf_runs (hregular : disk.now.Regular)
    (hturns : ∀ q ∈ disk.now.turnsOf path, disk.now.lookup q = some .directory) :
    Runs (Paved (disk.now.goal path) disk.now) (createDirectoryOf path : StateM Disk _) disk
      (EndsIn (fun disk' => Paved (disk.now.goal path) disk.now disk'.now)
        fun _ disk' => Paved (disk.now.goal path) disk.now disk'.now) := by
  rw [createDirectoryOf]
  cases hparent : Path.parent? path with
  | none => exact .pure (.refl hregular _)
  | some parent =>
    have habove := isAbove_of_parent? hparent
    refine .atPath (.createDirectories (fun t hmade => ?_) fun n => ?_)
    · have hpaved := createAll_paved hregular (habove.ancestors parent.length) hturns hmade
      exact ⟨hpaved, fun disk' hd => hd.now ▸ hpaved⟩
    · have hpaved := createPart_paved hregular habove hturns n
      exact ⟨hpaved, fun disk' hd => hd.now ▸ hpaved⟩

/-- What is at a path is read, or said not to be there, or the reading fails. -/
theorem currentContent_runs {good : FileTree → Prop} :
    Runs good (currentContent path : StateM Disk _) disk
      (EndsIn (·.now = disk.now) fun current disk' => disk'.now = disk.now ∧
        (disk.now.read path = .error .noEntry ∧ current = none ∨
          ∃ bytes, disk.now.read path = .ok bytes ∧ current = some bytes)) := by
  refine (Runs.read good path disk).bind fun r disk' _ ⟨hd, hr⟩ => ?_
  obtain rfl | ⟨e, hentry, rfl⟩ := hr
  · cases disk.now.read path with
    | ok bytes => exact .pure ⟨hd.now, .inr ⟨bytes, rfl, rfl⟩⟩
    | error fault =>
      cases fault with
      | noEntry => exact .pure ⟨hd.now, .inl ⟨rfl, rfl⟩⟩
      | _ => exact .pure hd.now
  · cases e with
    | noEntry => exact absurd rfl hentry
    | _ => exact .pure hd.now

/-! ### Once the draft is written -/

theorem last_notMem_draft (last : String) : last ∉ [draftOf last] := by
  simpa using (draftOf_ne last).symm

/-- What is read, or said not to be there, is no directory. -/
theorem not_directory_of_read (hregular : t.Regular)
    (hturns : ∀ q ∈ t.turnsOf path, t.lookup q = some .directory) (haccepted : Accepted path)
    (hread : t.read path = .error .noEntry ∨ ∃ bytes, t.read path = .ok bytes) :
    t.lookup (t.goal path) ≠ some .directory := by
  intro hdir
  have hheld : t.held path = some .directory :=
    held_eq_some_iff.mpr (hregular.status_eq_ok_iff.mpr ⟨haccepted, hturns, fun _ => rfl, hdir⟩)
  obtain ⟨_, _, heq⟩ := file_of_held hread hheld
  exact nomatch heq

/-- **The draft of a file is written**, after directories were made above it. -/
structure Drafted (path base last : String) (bytes : ByteArray) (maxOld : Nat) (t t₁ t₂ : FileTree) : Prop
    extends Wrote base (t.goal base) (versionsOf last (maxOld - 1)) (draftOf last) bytes t₁ t₂ where
  paved : Paved (t.goal path) t t₁

namespace Drafted

variable {t₂ : FileTree} (hd : Drafted path base last bytes maxOld t t₁ t₂)
  (h : Path.Split path base last)
include hd h

theorem accepted : Accepted (draftOf path) := by
  have hwalk : t₁.walk true (Path.join base (draftOf last)) = _ := hd.site.walk hd.fits
  rw [← draftOf_eq_join h] at hwalk
  exact (hd.site.regular.walk_eq_ok_iff.mp hwalk).1

/-- Nothing but the paths of the file is different, if nothing but those is since then. -/
theorem reworked (hname : Path.IsName last)
    (hkept : Confined base (t.goal base) movable (pathsOf last maxOld) t₂ g) :
    Reworked path maxOld t g := by
  have hsub : placesIn (t.goal base) (pathsOf last maxOld) ⊆ placesOf t path maxOld := by
    rw [h.eq_join hname, placesIn_pathsOf hname]
    exact List.Subset.refl _
  exact ((hd.kept.mono draft_subset_pathsOf).trans hkept).reworked hd.paved hsub

/-- **Once the draft is moved**, the file holds what the draft held. -/
theorem moved (hname : Path.IsName last)
    (hkept : Confined base (t.goal base) movable (pathsOf last maxOld) t₂ g)
    (hfile : g.lookup (t.goal base ++ [last]) = t₂.lookup (t.goal base ++ [draftOf last])) :
    Reworked path maxOld t g ∧ g.startOf path = t.startOf path ∧
      ∃ isPrivate, g.held path = some (.file bytes isPrivate) := by
  obtain ⟨isPrivate, hdraft⟩ := hd.file
  refine ⟨hd.reworked h hname hkept, ?_, isPrivate, ?_⟩
  · have hstart := hkept.start.trans hd.kept.start
    rw [startOf, startOf, ← h.isAbsolute_eq, hd.paved.grows.home] at hstart
    exact hstart
  · rw [h.eq_join hname, hkept.site.held_of_fits (fits_of_draft hd.fits hname), hfile, hdraft]

/-- **When the draft is gone**, nothing is at its path. -/
theorem held_draft {names : List String} (hkept : Confined base (t.goal base) movable names t₁ g)
    (hgone : g.lookup (t.goal base ++ [draftOf last]) = none) : g.held (draftOf path) = none := by
  rw [draftOf_eq_join h, hkept.site.held_of_fits hd.fits, hgone]

variable (hregular : t.Regular) (hs : Straight t path maxOld)
include hregular hs

/-- **A name that was not changed** leads to what it led to before directories were made. -/
theorem held_join {names : List String} {n : String} (hn : Path.IsName n)
    (hkept : Confined base (t.goal base) movable names t₁ g)
    (hsame : g.lookup (t.goal base ++ [n]) = t₁.lookup (t.goal base ++ [n])) :
    g.held (Path.join base n) = t.held (Path.join base n) :=
  (hkept.held_eq hd.site hn hsame).trans (hd.paved.held_join hregular hs h hn)

/-- **The versions are what they were** while only the draft is different. -/
theorem held_version (hkept : Confined base (t.goal base) movable [draftOf last] t₁ g) (k : Nat) :
    g.held (Path.numbered path k) = t.held (Path.numbered path k) := by
  rw [numbered_eq_join h]
  exact hd.held_join h hregular hs (isName_numbered_of_component h.no_slash k) hkept
    (hkept.within.lookup_of_notMem (by simpa using (numbered_ne last k).2))

variable (hread : t.read path = .error .noEntry ∨ ∃ bytes, t.read path = .ok bytes)
include hread

/-- What can be read, or is not there, ends in a name, unless it is empty. -/
theorem isName_or_empty : Path.IsName last ∨ path = "" := by
  by_contra hneither
  obtain ⟨hlast, hne⟩ := not_or.mp hneither
  have hbegins := goal_begins_of_not_isName (t := t) h hlast
  have hsame : t₁.lookup (t.goal base) = t.lookup (t.goal base) :=
    hd.paved.same fun ⟨hup, hup'⟩ => hup' (hup.eq_of_length_le hbegins.length_le)
  have hdir := hd.site.isDirectory
  rw [hsame] at hdir
  exact not_directory_of_read hregular hs.turns (accepted_of_draftOf h hne (hd.accepted h)) hread
    (hregular.sound.directory_of_begins hbegins hdir)

/-- **What lies at the path is no directory.** -/
theorem not_directory (hname : Path.IsName last) :
    t₂.lookup (t.goal base ++ [last]) ≠ some .directory := by
  have hne : path ≠ "" := by
    intro hempty
    obtain ⟨cs, hcs, -⟩ := Path.exists_toList_join base hname
    rw [← h.eq_join hname, hempty] at hcs
    exact hname.ne_empty (String.toList_eq_nil_iff.mp (List.append_eq_nil_iff.mp hcs.symm).2)
  have hplace : t.goal path = t.goal base ++ [last] := by
    rw [h.eq_join hname, goal_join t base hname]
  rw [hd.kept.within.lookup_of_notMem (last_notMem_draft last), ← hplace,
    hd.paved.same fun habove => habove.2 rfl]
  exact not_directory_of_read hregular hs.turns (accepted_of_draftOf h hne (hd.accepted h)) hread

/-- **While only the draft is different, the file is what it was.** -/
theorem held_path (hkept : Confined base (t.goal base) movable [draftOf last] t₁ g) :
    g.held path = t.held path := by
  rcases hd.isName_or_empty h hregular hs hread with hname | rfl
  · rw [h.eq_join hname]
    exact hd.held_join h hregular hs hname hkept
      (hkept.within.lookup_of_notMem (last_notMem_draft last))
  · rw [held_empty, held_empty]

theorem passing (hkept : Confined base (t.goal base) movable [draftOf last] t₁ g) :
    Passing path content maxOld t g :=
  ⟨hkept.reworked hd.paved (placesIn_draft h), .inl (hd.held_path h hregular hs hread hkept)⟩

/-- **When nothing but the draft is different**, it is gone, or an operation on it was struck. -/
theorem undone (hkept : Confined base (t.goal base) movable [draftOf last] t₁ disk.now)
    (hgone : .write (draftOf path) ∈ disk.struck ∨ .remove (draftOf path) ∈ disk.struck ∨
      disk.now.lookup (t.goal base ++ [draftOf last]) = none) : Undone path maxOld t disk := by
  refine ⟨hkept.reworked hd.paved (placesIn_draft h), hd.held_path h hregular hs hread hkept,
    fun _ => hd.held_version h hregular hs hkept, fun hwrite hremove => .inl ?_⟩
  exact hd.held_draft h hkept ((hgone.resolve_left hwrite).resolve_left hremove)

end Drafted

/-! ### The whole run -/

/-- **Where only directories were made above a file**, everything is as it was. -/
theorem FileTree.Paved.undone (hpaved : Paved (t.goal path) t disk.now) (hregular : t.Regular)
    (hs : Straight t path maxOld) : Undone path maxOld t disk := by
  obtain ⟨base, last, h⟩ := Path.exists_split path
  refine ⟨hpaved.reworked, hpaved.held_path hregular hs, fun _ k => ?_, fun _ _ => .inr ?_⟩
  · rw [numbered_eq_join h]
    exact hpaved.held_join hregular hs h (isName_numbered_of_component h.no_slash k)
  · rw [draftOf_eq_join h]
    exact hpaved.held_join hregular hs h (isName_draft_of_component h.no_slash)

/-- **The file is what it was** while its name was not changed. -/
theorem Drafted.held_kept {t₂ : FileTree} (hd : Drafted path base last bytes maxOld t t₁ t₂)
    (h : Path.Split path base last) (hregular : t.Regular) (hs : Straight t path maxOld)
    (hname : Path.IsName last) {names : List String}
    (hkept : Confined base (t.goal base) movable names t₂ g)
    (hsame : g.lookup (t.goal base ++ [last]) = t₂.lookup (t.goal base ++ [last])) :
    g.held path = t.held path := by
  have hall := (hd.kept.mono (List.subset_append_left _ names)).trans
    (hkept.mono (List.subset_append_right [draftOf last] names))
  rw [h.eq_join hname]
  exact hd.held_join h hregular hs hname hall
    (hsame.trans (hd.kept.within.lookup_of_notMem (last_notMem_draft last)))

/-- **The draft is moved into its place, or removed.** -/
theorem Drafted.commitDraft_runs
    (hd : Drafted path base last (normalised content).toUTF8 maxOld t t₁ disk.now)
    (h : Path.Split path base last) (hregular : t.Regular) (hs : Straight t path maxOld)
    (hread : t.read path = .error .noEntry ∨ ∃ bytes, t.read path = .ok bytes) :
    Runs (Passing path content maxOld t) (commitDraft path (draftOf path) maxOld) disk
      (EndsIn (Undone path maxOld t) fun _ disk' => Renewed path content maxOld t disk'.now) := by
  obtain ⟨isPrivate, hdraft⟩ := hd.file
  have hnew {g : FileTree} (hname : Path.IsName last)
      (hkept : Confined base (t.goal base) (versionsOf last (maxOld - 1)) (pathsOf last maxOld)
        disk.now g)
      (hfile : g.lookup (t.goal base ++ [last]) = disk.now.lookup (t.goal base ++ [draftOf last])) :
      Renewed path content maxOld t g := by
    obtain ⟨hreworked, hstart, hheld⟩ := hd.moved h hname hkept hfile
    exact ⟨hreworked, hstart, hheld⟩
  rw [draftOf_eq_join h]
  rcases hd.isName_or_empty h hregular hs hread with hname | rfl
  · have hcommit := Rollout.commitDraft_runs hname hd.kept.site
      (List.Subset.refl (versionsOf last (maxOld - 1))) hd.fits hdraft
      (hd.not_directory h hregular hs hread hname)
    rw [← h.eq_join hname] at hcommit
    refine hcommit.monoEnds (fun g hg => ?_) (fun disk' _ hleft => ?_)
      fun _ disk' _ ⟨hkept, hfile⟩ => hnew hname hkept (hfile.trans hdraft.symm)
    · rcases hg.swapped with hold | hmoved
      · exact ⟨hd.reworked h hname hg.kept, .inl (hd.held_kept h hregular hs hname hg.kept hold)⟩
      · exact (hnew hname hg.kept hmoved).passing
    · obtain ⟨hfile, -⟩ := notMem_versionsOf last maxOld
      have hsame := hleft.kept.within.lookup_of_notMem (n := last)
        (by simp [(draftOf_ne last).symm, hfile])
      have hpaths : draftOf last :: versionsOf last maxOld ⊆ pathsOf last maxOld :=
        List.subset_cons_self _ _
      refine ⟨hd.reworked h hname (hleft.kept.mono hpaths),
        hd.held_kept h hregular hs hname hleft.kept hsame, fun hnot => ?_, fun _ hremove => .inl ?_⟩
      · exact hd.held_version h hregular hs (hd.kept.trans (hleft.versions.resolve_left hnot))
      · rw [draftOf_eq_join h] at hremove ⊢
        rw [hleft.kept.site.held_of_fits hd.fits]
        exact hleft.draft.resolve_left hremove
  · refine (commitDraft_runs_of_empty hd.kept.site hd.fits hdraft).monoEnds
      (fun g hkept => hd.passing h hregular hs hread (hd.kept.trans hkept))
      (fun disk' _ ⟨hkept, hgone⟩ => ?_) fun _ _ _ => False.elim
    rw [← draftOf_eq_join h] at hgone
    exact hd.undone h hregular hs hread (hd.kept.trans hkept) (.inr hgone)

/-- **Replacing a file** passes what was there and the new text only; it succeeds, or undoes what it did. -/
theorem replaceFile_runs (content : String) (hregular : disk.now.Regular)
    (hs : Straight disk.now path maxOld) :
    Runs (Passing path content maxOld disk.now) (replaceFile path content maxOld) disk
      (EndsIn (Undone path maxOld disk.now)
        fun _ disk' => Renewed path content maxOld disk.now disk'.now) := by
  obtain ⟨base, last, h⟩ := Path.exists_split path
  unfold replaceFile
  refine .andThen currentContent_runs (fun disk' _ hsame => .of_same hregular hsame)
    fun current disk₀ _ hmid => ?_
  obtain ⟨heq, hcurrent⟩ := hmid
  split_ifs with hsame
  · -- The text is there already.
    obtain ⟨-, rfl⟩ | ⟨bytes, hread, rfl⟩ := hcurrent
    · cases hsame
    obtain rfl : bytes = (normalised content).toUTF8 := Option.some.inj (eq_of_beq hsame)
    refine .pure ?_
    rw [EndsIn, heq]
    exact ⟨(Paved.refl hregular _).reworked, rfl, read_eq_ok_iff_held.mp hread⟩
  have hread : disk.now.read path = .error .noEntry ∨ ∃ bytes, disk.now.read path = .ok bytes :=
    hcurrent.imp And.left (Exists.imp fun _ => And.left)
  rw [← heq] at hregular hs hread ⊢
  refine .andThen ((createDirectoryOf_runs hregular hs.turns).monoEnds
    (fun g hg => ⟨hg.reworked, .inl (hg.held_path hregular hs)⟩) (fun _ _ => id) fun _ _ _ => id)
    (fun disk' _ hpaved => hpaved.undone hregular hs) fun _ disk₁ _ hpaved => ?_
  have hclear : ∀ q ∈ disk₁.now.wayInto base, ∀ m ∈ versionsOf last (maxOld - 1),
      ¬ disk₁.now.goal base ++ [m] <+: q := by
    rw [wayInto, hpaved.wayOf, hpaved.goal]
    exact hs.clear h
  have hwrite := writeDraft_runs (normalised content) hpaved.regular
    (isName_draft_of_component h.no_slash) hclear
  rw [hpaved.goal, ← draftOf_eq_join h] at hwrite
  refine .andThen (hwrite.atPath.monoEnds (fun g hpart => ?_) (fun _ _ => id) fun _ _ _ => id)
    (fun disk' _ hfailed => ?_) fun _ disk₂ _ hwrote => ?_
  · obtain ⟨part, hg⟩ := hpart
    exact Drafted.passing ⟨hg, hpaved⟩ h hregular hs hread hg.kept
  · obtain hsame | ⟨hstruck, part, hwrote⟩ := hfailed
    · exact (hsame ▸ hpaved : Paved _ _ disk'.now).undone hregular hs
    · exact Drafted.undone ⟨hwrote, hpaved⟩ h hregular hs hread hwrote.kept (.inl hstruck)
  · exact .andThen (Drafted.commitDraft_runs ⟨hwrote, hpaved⟩ h hregular hs hread).atPath
      (fun _ _ => id) fun _ disk₃ _ hrenewed => .pure hrenewed

/-- **Replacing a file never exposes half of it, and never loses it**, whatever is struck.  After each
operation the path leads to what was there, or to the new text.  After an error the path leads to what was
there; so do all its numbered versions, unless an operation that moves them on was struck; and no draft is
left, unless its writing or its removal was struck. -/
theorem replaceFile_exposes_nothing (content : String) (mishaps : List (Option Mishap))
    (hregular : t.Regular) (hs : Straight t path maxOld) :
    let run := (replaceFile path content maxOld : StateM Disk _) { now := t, mishaps }
    (∀ g ∈ run.2.frames, g.held path = t.held path ∨
      ∃ isPrivate, g.held path = some (.file (normalised content).toUTF8 isPrivate)) ∧
    ∀ e, run.1 = .error e → run.2.now.held path = t.held path ∧
      (¬ Hit Operation.Rotates run.2 →
        ∀ k, run.2.now.held (Path.numbered path k) = t.held (Path.numbered path k)) ∧
      (.write (draftOf path) ∉ run.2.struck → .remove (draftOf path) ∉ run.2.struck →
        run.2.now.held (draftOf path) = none ∨
          run.2.now.held (draftOf path) = t.held (draftOf path)) := by
  intro run
  have hrun : Runs _ (replaceFile path content maxOld) { now := t, mishaps } _ :=
    replaceFile_runs content hregular hs
  refine ⟨fun g hg => ?_, fun e he => ?_⟩
  · rcases hrun.passes g hg with hpassing | hfirst
    · exact hpassing.file
    · obtain rfl : g = t := List.mem_singleton.mp hfirst
      exact .inl rfl
  · have hundone : EndsIn (Undone path maxOld t) (fun _ _ => _) run.1 run.2 := hrun.ends
    rw [he] at hundone
    exact ⟨hundone.file, hundone.version, hundone.draft⟩

/-- The oldest of three versions cannot be removed, and the path goes up from another directory. -/
theorem replaceFile_exposes_nothing_denied :
    let t : FileTree := { entries := [(["x"], .file "old".toUTF8 false), (["x.1"], .file "older".toUTF8 true),
                                      (["x.2"], .file "oldest".toUTF8 false), (["conf"], .directory)] }
    let denied : Mishap := { fault := .permission }
    t.Regular ∧ Straight t "conf/../x" 2 ∧
    ∃ disk, (replaceFile "conf/../x" "new\r\n" 2 : StateM Disk _)
          { now := t, mishaps := [none, none, none, none, none, some denied] }
        = (.error (.io "conf/../x" .permission), disk) ∧
      disk.struck = [.remove "conf/../x.2"] ∧
      (∀ g ∈ disk.frames, g.held "conf/../x" = some (.file "old".toUTF8 false) ∨
        ∃ isPrivate, g.held "conf/../x" = some (.file "new\n".toUTF8 isPrivate)) ∧
      disk.now.held "conf/../x" = some (.file "old".toUTF8 false) ∧
      disk.now.held "conf/../x.2" = some (.file "oldest".toUTF8 false) ∧
      disk.now.held "conf/../x.haconf.tmp" = none := by
  intro t denied
  have hregular : t.Regular := .of_entries rfl (by decide) (by simp [t])
  have hturns : t.turnsOf "conf/../x" = [["conf"]] := by decide +kernel
  have hstraight : Straight t "conf/../x" 2 := by
    intro q hq
    rw [hturns] at hq
    obtain rfl := List.mem_singleton.mp hq
    refine ⟨rfl, fun k hpos hlt hbegins => ?_⟩
    obtain rfl : k = 1 := by omega
    exact absurd hbegins (by decide +kernel)
  have hold : t.held "conf/../x" = some (.file "old".toUTF8 false) := by decide +kernel
  have holdest : t.held "conf/../x.2" = some (.file "oldest".toUTF8 false) := by decide +kernel
  have hnone : t.held "conf/../x.haconf.tmp" = none := by decide +kernel
  have hnames : Path.numbered "conf/../x" 2 = "conf/../x.2" ∧
      draftOf "conf/../x" = "conf/../x.haconf.tmp" ∧ normalised "new\r\n" = "new\n" := by decide +kernel
  obtain ⟨hframes, hundone⟩ := replaceFile_exposes_nothing "new\r\n"
    [none, none, none, none, none, some denied] hregular hstraight
  have hrun : ((replaceFile "conf/../x" "new\r\n" 2 : StateM Disk _)
        { now := t, mishaps := [none, none, none, none, none, some denied] }).1
        = .error (.io "conf/../x" .permission) ∧
      ((replaceFile "conf/../x" "new\r\n" 2 : StateM Disk _)
        { now := t, mishaps := [none, none, none, none, none, some denied] }).2.struck
        = [.remove "conf/../x.2"] := by decide +kernel
  generalize (replaceFile "conf/../x" "new\r\n" 2 : StateM Disk _)
    { now := t, mishaps := [none, none, none, none, none, some denied] } = run at hrun hframes hundone ⊢
  obtain ⟨herror, hstruck⟩ := hrun
  obtain ⟨hfile, hversion, hdraft⟩ := hundone _ herror
  have holdest' := hversion (by rw [Hit, hstruck]; simp [Operation.Rotates]) 2
  rw [hnames.2.2, hold] at hframes
  rw [hnames.1, holdest] at holdest'
  rw [hnames.2.1, hnone, or_self, hstruck] at hdraft
  exact ⟨hregular, hstraight, run.2, Prod.ext herror rfl, hstruck, hframes, hfile.trans hold, holdest',
    hdraft (by decide) (by decide)⟩

/-- A disk that is full leaves the front of the draft, or the versions moved on, if it strikes just there. -/
example :
    let t : FileTree := { entries := [(["x"], .file "old".toUTF8 false), (["x.1"], .file "older".toUTF8 false)] }
    let full : Mishap := { fault := .inputOutput, progress := 3 }
    let written := (replaceFile "x" "new" 2 : StateM Disk _)
      { now := t, mishaps := [none, none, some full] }
    let copied := (replaceFile "x" "new" 2 : StateM Disk _)
      { now := t, mishaps := List.replicate 7 none ++ [some full] }
    written.2.now.held "x.haconf.tmp" = some (.file "ne".toUTF8 false) ∧
      written.2.now.held "x" = t.held "x" ∧
      copied.2.struck = [.copy "x" "x.1"] ∧ copied.2.now.held "x" = t.held "x" ∧
      copied.2.now.held "x.2" = t.held "x.1" ∧ copied.2.now.held "x.haconf.tmp" = none := by
  decide +kernel

/-- **A path that does not stay leads elsewhere after an error.**  One that goes up from a version is lost
when that version is moved away, and the draft cannot be removed; one that goes up from a directory that is
not there leads to another file once it is made. -/
theorem path_leads_elsewhere :
    let t : FileTree := { entries := [(["x"], .file "old".toUTF8 false), (["x.1"], .directory)] }
    let moved := (replaceFile "x.1/../x" "new" 2 : StateM Disk _) { now := t }
    let made := (replaceFile "new/../x" "new" 1 : StateM Disk _) { now := t }
    t.Regular ∧
      (moved.1 = .error (.io "x.1/../x" .noEntry) ∧
        t.held "x.1/../x" = some (.file "old".toUTF8 false) ∧
        moved.2.now.held "x.1/../x" = none ∧
        t.held "x.haconf.tmp" = none ∧
        moved.2.now.held "x.haconf.tmp" = some (.file "new".toUTF8 false)) ∧
      made.1 = .error (.io "new/../x" .isDirectory) ∧ t.held "new/../x" = none ∧
        made.2.now.held "new/../x" = some (.file "old".toUTF8 false) := by
  intro t moved made
  have hregular : t.Regular := .of_entries rfl (by decide) (by simp [t])
  refine ⟨hregular, ⟨?_, ?_, ?_, ?_, ?_⟩, ?_, ?_, ?_⟩ <;> decide +kernel

end Rollout
