import Rollout.Proofs.Render.Fitting
import Rollout.Proofs.System.Disk

/-!
# Proofs/Render/Keeping — keeping a version, or nothing

Whatever is struck while a version is kept, nothing but the versions is different at any time, and the way to
the file stays (`keepVersion_runs`).  If no look, move or copy is struck, keeping a version either fails
before it touches anything, or succeeds.  What fails then is that the oldest version is a directory, or that a
number is so long that the name of the version with it does not fit; in that case no version with a higher
number lies there that would have been moved before.
-/

namespace Rollout

open FileTree Disk Runs

variable {disk : Disk} {base name : String} {d : Place} {maxOld : Nat} {movable : List String}

/-- **The operations that move the versions on**, with the looks that decide which are moved.  The last move
puts the draft into its place. -/
def Operation.Rotates : Operation → Prop
  | .exists? _ | .rename _ _ | .copy _ _ => True
  | _ => False

theorem hit_of_look {path : String} (h : .exists? path ∈ disk.struck) :
    Hit Operation.Rotates disk := ⟨_, h, trivial⟩

/-- The places of some names in a directory. -/
def placesIn (d : Place) (names : List String) : List Place := names.map fun n => d ++ [n]

theorem placesIn_subset {names names' : List String} (h : names ⊆ names') :
    placesIn d names ⊆ placesIn d names' := List.map_subset _ h

/-- Two names of a directory are apart. -/
theorem not_begins {n m : String} (hne : n ≠ m) : ¬ d ++ [n] <+: d ++ [m] := fun hbegins =>
  hne (by simpa using hbegins.eq_of_length (by simp))

/-- What lies under other names is not changed. -/
theorem FileTree.Within.lookup_of_notMem {t t' : FileTree} {names : List String} {n : String}
    (h : Within (placesIn d names) t t') (hn : n ∉ names) :
    t'.lookup (d ++ [n]) = t.lookup (d ++ [n]) := by
  refine h.same _ fun p hp hbegins => ?_
  obtain ⟨m, hm, rfl⟩ := List.mem_map.mp hp
  exact not_begins (fun heq : m = n => hn (heq ▸ hm)) hbegins

/-- **A site, in which nothing was changed but some names.** -/
structure Confined (base : String) (d : Place) (movable names : List String) (t t' : FileTree) : Prop where
  site : Site t' base d movable
  within : Within (placesIn d names) t t'
  start : t'.startOf base = t.startOf base

namespace Confined

variable {names names' : List String} {t t' t'' : FileTree}

theorem refl (h : Site t base d movable) : Confined base d movable names t t := ⟨h, .refl _ t, rfl⟩

theorem trans {movable' : List String} (h : Confined base d movable' names t t')
    (h' : Confined base d movable names t' t'') : Confined base d movable names t t'' :=
  ⟨h'.site, h.within.trans h'.within, h'.start.trans h.start⟩

theorem mono (h : Confined base d movable names t t') (hsub : names ⊆ names') :
    Confined base d movable names' t t' := ⟨h.site, h.within.mono (placesIn_subset hsub), h.start⟩

theorem edit (h : Site t base d movable) (hfolder : t.Folder base d names)
    (hedit : Edits d names t t') : Confined base d movable names t t' := by
  refine ⟨h.edit hfolder hedit, hedit.within, ?_⟩
  rw [startOf, startOf, hedit.home]

/-- **Moving what may be moved**, or what is no directory, onto what gives way. -/
theorem move {n m : String} (h : Site t base d movable) (hne : n ≠ m)
    (hn : n ∈ movable ∨ t.lookup (d ++ [n]) ≠ some .directory)
    (hway : t.GivesWay (d ++ [n]) (d ++ [m])) :
    Confined base d movable [n, m] t (t.move (d ++ [n]) (d ++ [m])) := by
  have hapart : ∀ q ∈ t.wayInto base, ¬ d ++ [n] <+: q := fun q hq =>
    h.apart (List.forall_mem_singleton.mpr hn) q hq _ List.mem_cons_self
  have hstart : (t.move (d ++ [n]) (d ++ [m])).startOf base = t.startOf base := by
    have hfrom := hapart _ (startOf_mem_wayInto t base)
    rw [startOf] at hfrom
    rw [startOf, startOf]
    split_ifs at hfrom ⊢
    · rfl
    · exact carry_of_not_begins hfrom
  have hregular := h.regular.move (not_begins hne) (not_begins hne.symm) hway
    (by rw [List.dropLast_concat]; exact h.isDirectory)
  exact ⟨h.of_way hregular hstart fun q hq => hway.directory (not_begins hne) (not_begins hne.symm)
    (hapart q hq) ((h.regular.leadsInto_iff.mp h.into).1 q hq),
    .move (not_begins hne) (not_begins hne.symm) hway, hstart⟩

end Confined

/-! ## Moving the versions up -/

theorem versionsOf_mono (name : String) {j k : Nat} (h : j ≤ k) : versionsOf name j ⊆ versionsOf name k :=
  List.map_subset _ (List.range_subset.mpr h)

/-- **Moving something onto a free name** succeeds if the name fits, and nothing is struck. -/
theorem rename_runs {n m : String} (hsite : Site disk.now base d movable) (hn : Path.IsName n)
    (hm : Path.IsName m) (hne : n ≠ m) (hmovable : n ∈ movable)
    (hthere : disk.now.exists? (Path.join base n) = true)
    (hfree : Hit Operation.Rotates disk ∨ disk.now.exists? (Path.join base m) = false) :
    Runs (Confined base d movable [n, m] disk.now)
      (FileSystem.rename (Path.join base n) (Path.join base m)) disk
      (EndsIn (fun disk' => disk'.now = disk.now ∧ (Hit Operation.Rotates disk' ∨ ¬ Fits base m))
        fun _ disk' => Confined base d movable [n, m] disk.now disk'.now ∧ Fits base n ∧
          disk'.now.exists? (Path.join base n) = false) := by
  obtain ⟨hfits, hsome⟩ := (hsite.exists?_iff hn).mp hthere
  refine .atOnce (fun t hrun => ?_) (fun e herror disk' hd => ?_)
    fun disk' hd hstruck => ⟨hd.now, .inl ⟨_, hstruck, trivial⟩⟩
  · obtain ⟨-, -, hway, rfl⟩ := hsite.rename_eq_ok hn hm hne hrun
    have hmoved := Confined.move hsite hne (.inl hmovable) hway
    refine ⟨hmoved, fun disk' hd => ?_⟩
    rw [hd.now]
    refine ⟨hmoved, hfits, Bool.eq_false_iff.mpr fun hleft => ?_⟩
    have hsome' := ((hmoved.site.exists?_iff hn).mp hleft).2
    rw [hway.lookup_source (not_begins hne) (not_begins hne.symm)] at hsome'
    exact nomatch hsome'
  · refine ⟨hd.now, hfree.imp (·.later hd.struck) fun hnot hup => ?_⟩
    have hnone : disk.now.lookup (d ++ [m]) = none := by
      refine Option.not_isSome_iff_eq_none.mp fun hsome' => ?_
      rw [(hsite.exists?_iff hm).mpr ⟨hup, hsome'⟩] at hnot
      exact nomatch hnot
    exact nomatch herror.symm.trans (hsite.rename hfits hup hsome hnone)

/-- **Moving the versions one number up**, onto a number that is free, succeeds or leaves them where they
are, if nothing is struck: in the second case the name with the highest number does not fit. -/
theorem shiftVersions_runs (hname : Path.IsName name) {n : Nat}
    (hsite : Site disk.now base d movable) (hmovable : versionsOf name n ⊆ movable)
    (hfree : Hit Operation.Rotates disk ∨
      disk.now.exists? (Path.join base (Path.numbered name (n + 1))) = false) :
    Runs (Confined base d movable (versionsOf name (n + 1)) disk.now)
      (shiftVersions (Path.join base name) n) disk
      (EndsIn (fun disk' => Confined base d movable (versionsOf name (n + 1)) disk.now disk'.now ∧
          (Hit Operation.Rotates disk' ∨
            disk'.now = disk.now ∧ ¬ Fits base (Path.numbered name (n + 1))))
        fun _ disk' => Confined base d movable (versionsOf name (n + 1)) disk.now disk'.now ∧
          (Hit Operation.Rotates disk' ∨
            disk'.now.exists? (Path.join base (Path.numbered name 1)) = false)) := by
  induction n generalizing disk with
  | zero => exact .pure ⟨.refl hsite, hfree⟩
  | succ n ih =>
    have hsub : versionsOf name n ⊆ movable :=
      List.Subset.trans (versionsOf_mono name n.le_succ) hmovable
    have hwider := versionsOf_mono name (n + 1).le_succ
    have hpair : [Path.numbered name (n + 1), Path.numbered name (n + 2)]
        ⊆ versionsOf name (n + 2) := by
      simp only [List.cons_subset, List.nil_subset, and_true]
      exact ⟨mem_versionsOf n.succ_pos (by omega), mem_versionsOf (n + 1).succ_pos (by omega)⟩
    rw [shiftVersions, numbered_join hname, numbered_join hname]
    refine .ifThere (fun disk₁ hd hthere => ?_) fun disk₁ hd hnot => ?_
    · have hfree₁ := hfree.imp_left fun hhit => hhit.later hd.struck
      rw [← hd.now] at hsite hthere hfree₁ ⊢
      refine .andThen ((rename_runs hsite (isName_numbered hname _) (isName_numbered hname (n + 2))
        (fun heq => absurd (numbered_injective heq) (by omega))
        (hmovable (mem_versionsOf n.succ_pos (Nat.le_refl _))) hthere hfree₁).monoEnds
          (fun g hg => hg.mono hpair) (fun _ _ => id) fun _ _ _ => id)
        (fun disk' _ hfailed => ?_) fun _ disk₂ _ hmoved => ?_
      · rw [hfailed.1]
        exact ⟨.refl hsite, hfailed.2.imp_right (⟨rfl, ·⟩)⟩
      obtain ⟨hkept, hfits, hgone⟩ := hmoved
      have hkept₂ := hkept.mono hpair
      -- What fits once fits for all the lower numbers.
      refine (ih hkept.site hsub (.inr hgone)).monoEnds (fun g hg => hkept₂.trans (hg.mono hwider))
        (fun disk' _ hfailed => ?_) fun _ _ _ hdone => ⟨hkept₂.trans (hdone.1.mono hwider), hdone.2⟩
      exact ⟨hkept₂.trans (hfailed.1.mono hwider),
        hfailed.2.imp_right fun hunfit => absurd hfits hunfit.2⟩
    · have hfree₁ := hnot.imp_left hit_of_look
      rw [← hd.now] at hsite hfree₁ ⊢
      refine (ih hsite hsub hfree₁).monoEnds (fun g hg => hg.mono hwider)
        (fun disk' _ hfailed => ⟨hfailed.1.mono hwider, hfailed.2.imp_right fun hunfit => ?_⟩)
        fun _ _ _ hdone => ⟨hdone.1.mono hwider, hdone.2⟩
      exact ⟨hunfit.1, fun hup => hunfit.2 (fits_numbered_of_le hup hname (n + 1).le_succ)⟩

/-! ## Keeping a version -/

/-- **Removing what is no directory.** -/
theorem FileTree.Site.exists_remove {t : FileTree} {n : String} (hsite : Site t base d movable)
    (hfits : Fits base n) (hsome : (t.lookup (d ++ [n])).isSome)
    (hleaf : t.lookup (d ++ [n]) ≠ some .directory) :
    ∃ t', t.remove (Path.join base n) = .ok t' ∧ Confined base d movable [n] t t' ∧
      t'.lookup (d ++ [n]) = none := by
  have hfolder := hsite.folder (List.forall_mem_singleton.mpr hfits)
    (List.forall_mem_singleton.mpr hleaf)
  obtain ⟨t', hremove, hedit, hnone⟩ := hfolder.remove List.mem_cons_self hsome
  exact ⟨t', hremove, .edit hsite hfolder hedit, hnone⟩

/-- Removing the oldest version, if it is there. -/
theorem removeOldest_runs {n : String} (hsite : Site disk.now base d movable) (hn : Path.IsName n) :
    Runs (Confined base d movable [n] disk.now)
      (do
        if ← FileSystem.exists? (Path.join base n) then FileSystem.remove (Path.join base n)
        else pure (.ok ())) disk
      (EndsIn (·.now = disk.now) fun _ disk' => Confined base d movable [n] disk.now disk'.now ∧
        (Hit Operation.Rotates disk' ∨ disk'.now.exists? (Path.join base n) = false) ∧
          (Fits base n ∨ disk'.now = disk.now)) := by
  refine .ifThere (fun disk₁ hd hthere => ?_) fun disk₁ hd hnot => .pure ?_
  · obtain ⟨hfits, hsome⟩ := (hsite.exists?_iff hn).mp hthere
    rw [← hd.now] at hsite hsome ⊢
    refine .atOnce (fun t hrun => ?_) (fun _ _ _ hd₁ => hd₁.now) fun _ hd₁ _ => hd₁.now
    have hleaf : disk₁.now.lookup (d ++ [n]) ≠ some .directory := fun hdir =>
      nomatch (hsite.remove_directory hfits hdir).symm.trans hrun
    obtain ⟨t', hremove, hkept, hnone⟩ := hsite.exists_remove hfits hsome hleaf
    obtain rfl := Except.ok.inj (hremove.symm.trans hrun)
    refine ⟨hkept, fun disk₂ hd₁ => ?_⟩
    rw [hd₁.now]
    refine ⟨hkept, .inr (Bool.eq_false_iff.mpr fun hleft => ?_), .inl hfits⟩
    have hsome' := ((hkept.site.exists?_iff hn).mp hleft).2
    rw [hnone] at hsome'
    exact nomatch hsome'
  · rw [EndsIn, hd.now]
    exact ⟨.refl hsite, hnot.imp_left hit_of_look, .inr rfl⟩

theorem singleton_subset_versionsOf (name : String) {k : Nat} (hpos : 0 < k) (hle : k ≤ maxOld) :
    [Path.numbered name k] ⊆ versionsOf name maxOld :=
  List.cons_subset.mpr ⟨mem_versionsOf hpos hle, List.nil_subset _⟩

/-- **Copying a file, or the front of it,** changes the copy only. -/
theorem FileTree.Site.copyCut {t t' : FileTree} {n m : String} {cut : ByteArray → ByteArray}
    (hsite : Site t base d movable) (hn : Fits base n) (hm : Path.IsName m) {content : ByteArray}
    {isPrivate : Bool} (hfile : t.lookup (d ++ [n]) = some (.file content isPrivate))
    (hrun : t.copyCut cut (Path.join base n) (Path.join base m) = .ok t') :
    Confined base d movable [m] t t' := by
  obtain ⟨_, _, _, -, hwrite⟩ := copyCut_eq_ok hrun
  obtain ⟨hfits, hleaf⟩ := hsite.leaf_of_write hm hwrite
  have hfolder := hsite.folder_pair hn hfits (by rw [hfile]; exact nofun) hleaf
  obtain ⟨t₁, hcopy, hedit, -⟩ :=
    hfolder.copyCut cut List.mem_cons_self (List.mem_cons_of_mem _ List.mem_cons_self) hfile
  obtain rfl := Except.ok.inj (hcopy.symm.trans hrun)
  exact .edit hsite (hfolder.sub (List.subset_cons_self n _)) hedit

/-- **Copying a file to a free name succeeds**, if nothing is struck. -/
theorem copy_runs {n m : String} (hsite : Site disk.now base d movable) (hn : Fits base n)
    (hm : Fits base m) {content : ByteArray} {isPrivate : Bool}
    (hfile : disk.now.lookup (d ++ [n]) = some (.file content isPrivate))
    (hfree : Hit Operation.Rotates disk ∨ disk.now.exists? (Path.join base m) = false) :
    Runs (Confined base d movable [m] disk.now)
      (FileSystem.copy (Path.join base n) (Path.join base m)) disk
      (EndsIn (fun disk' => Confined base d movable [m] disk.now disk'.now ∧
          Hit Operation.Rotates disk')
        fun _ disk' => Confined base d movable [m] disk.now disk'.now) := by
  refine .change (fun t hcopy => ?_) (fun e herror disk' hd => ?_) fun mishap => ?_
  · have hkept := hsite.copyCut hn hm.isName hfile hcopy
    exact ⟨hkept, fun disk' hd => hd.now ▸ hkept⟩
  · rw [hd.now]
    refine ⟨.refl hsite, hfree.elim (·.later hd.struck) fun hnot => ?_⟩
    have hleaf : disk.now.lookup (d ++ [m]) ≠ some .directory := by
      intro hdir
      rw [(hsite.exists?_iff hm.isName).mpr ⟨hm, by rw [hdir]; rfl⟩] at hnot
      exact nomatch hnot
    obtain ⟨t, hcopy, -⟩ := (hsite.folder_pair hn hm (by rw [hfile]; exact nofun) hleaf).copy
      List.mem_cons_self (List.mem_cons_of_mem _ List.mem_cons_self) hfile
    exact nomatch herror.symm.trans hcopy
  · have hkept : Confined base d movable [m] disk.now
        (disk.now.copyPart (Path.join base n) (Path.join base m) mishap.progress) := by
      rcases copyPart_cases disk.now (Path.join base n) (Path.join base m) mishap.progress with
        hsame | ⟨cut, hcopy⟩
      · rw [hsame]
        exact .refl hsite
      · exact hsite.copyCut hn hm.isName hfile hcopy
    exact ⟨.inl hkept, fun disk' hd hstruck => ⟨hd.now ▸ hkept, _, hstruck, trivial⟩⟩

/-- **Keeping a version changes versions only**; it succeeds or leaves everything as it is, if nothing is
struck that moves the versions on. -/
theorem keepVersion_runs (hname : Path.IsName name) (hsite : Site disk.now base d movable)
    (hmovable : versionsOf name (maxOld - 1) ⊆ movable) (hpos : 0 < maxOld)
    (hfits : Fits base (draftOf name)) {content : ByteArray} {isPrivate : Bool}
    (hfile : disk.now.lookup (d ++ [name]) = some (.file content isPrivate)) :
    Runs (Confined base d movable (versionsOf name maxOld) disk.now)
      (keepVersion (Path.join base name) maxOld) disk
      (EndsIn (fun disk' => Confined base d movable (versionsOf name maxOld) disk.now disk'.now ∧
          (Hit Operation.Rotates disk' ∨ disk'.now = disk.now))
        fun _ disk' => Confined base d movable (versionsOf name maxOld) disk.now disk'.now) := by
  obtain ⟨n, rfl⟩ : ∃ n, maxOld = n + 1 := Nat.exists_eq_succ_of_ne_zero hpos.ne'
  have holdest := singleton_subset_versionsOf name n.succ_pos (Nat.le_refl _)
  have hfirst := singleton_subset_versionsOf name Nat.one_pos n.succ_pos
  have hsteps : (keepVersion (Path.join base name) (n + 1) : StateM Disk _)
      = andThen (do
          if ← FileSystem.exists? (Path.join base (Path.numbered name (n + 1))) then
            FileSystem.remove (Path.join base (Path.numbered name (n + 1)))
          else pure (.ok ()))
        fun _ => andThen (shiftVersions (Path.join base name) n) fun _ =>
          FileSystem.copy (Path.join base name) (Path.join base (Path.numbered name 1)) := by
    funext disk
    simp only [keepVersion, numbered_join hname, andThen, bind, StateT.bind]
    rcases (FileSystem.exists? (Path.join base (Path.numbered name (n + 1))) : StateM Disk _) disk
      with ⟨_ | _, disk'⟩ <;> rfl
  rw [hsteps]
  refine .andThen ((removeOldest_runs hsite (isName_numbered hname _)).monoEnds
    (fun g hg => hg.mono holdest) (fun _ _ => id) fun _ _ _ => id)
    (fun disk' _ hsame => ?_) fun _ disk₁ _ hremoved => ?_
  · rw [hsame]
    exact ⟨.refl hsite, .inr rfl⟩
  obtain ⟨hkept, hgone, hroom⟩ := hremoved
  have hkept₁ := hkept.mono holdest
  refine .andThen ((shiftVersions_runs hname hkept₁.site hmovable hgone).monoEnds
    (fun g hg => hkept₁.trans hg) (fun _ _ => id) fun _ _ _ => id)
    (fun disk' _ hfailed => ?_) fun _ disk₂ _ hshifted => ?_
  · -- What was removed had a name that fits.
    exact ⟨hkept₁.trans hfailed.1, hfailed.2.imp_right fun hunfit =>
      hunfit.1.trans (hroom.resolve_left hunfit.2)⟩
  obtain ⟨hkept₂, hfree⟩ := hshifted
  have hkept₂ := hkept₁.trans hkept₂
  have hsame := hkept₂.within.lookup_of_notMem (notMem_versionsOf name (n + 1)).1
  exact (copy_runs hkept₂.site (fits_of_draft hfits hname) (fits_first_of_draft hfits hname)
    (hsame.trans hfile) hfree).monoEnds (fun g hg => hkept₂.trans (hg.mono hfirst))
    (fun _ _ hfailed => ⟨hkept₂.trans (hfailed.1.mono hfirst), .inl hfailed.2⟩)
    fun _ _ _ hdone => hkept₂.trans (hdone.mono hfirst)

end Rollout
