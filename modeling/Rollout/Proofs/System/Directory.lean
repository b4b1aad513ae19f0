import Rollout.Proofs.System.Parent
import Rollout.Proofs.System.Tree

/-!
# Proofs/System/Directory — what an operation that succeeded did

A path `Opens` a directory if it leads into one of a sound file system.  What a name in it `Stores` is the
content of a regular file or nothing, and a name that the kernel refuses stores nothing.  An operation on
names that is said to have succeeded did what it is for, to these names and to no other one: it `Alters`
them.  Making the directory once more changes nothing (`Opens.createDirectories`).
-/

namespace Rollout.FileTree

variable {t t' t'' : FileTree} {base n m : String} {d : Place} {o o' : Option ByteArray} {W : Walk}

/-! ## Names that can be walked to -/

/-- **A name that can be walked to behind a path**: the kernel refuses neither of them. -/
structure Fits (base n : String) : Prop where
  isName : Path.IsName n
  no_nul : (Path.join base n).toList.contains (Char.ofNat 0) = false
  path : (Path.join base n).utf8ByteSize < maxPathBytes
  name : n.utf8ByteSize ≤ maxNameBytes

/-- **Walking to a name below a path that leads into a directory.** -/
theorem LeadsInto.walk_join (h : t.LeadsInto base d) (hn : Path.IsName n) :
    t.walk false (Path.join base n) =
      if (Path.join base n).toList.contains (Char.ofNat 0) then .error .nulInPath
      else if (Path.join base n).isEmpty then .error .noEntry
      else if (Path.join base n).utf8ByteSize ≥ maxPathBytes then .error .nameTooLong
      else t.arriveIn d n := by
  have hinto := walkFrom_into hn.ne_above h
  rw [walk_eq (Path.endsInSlash_join base hn), startOf, Path.isAbsolute_join base hn,
    Path.steps_join base hn, ← startOf, hinto]

/-- **A name that fits leads to what lies there.** -/
theorem LeadsInto.walk_of_fits (h : t.LeadsInto base d) (hfits : Fits base n) :
    t.walk false (Path.join base n) = .ok (t.arrive (d ++ [n])) := by
  have hempty : (Path.join base n).isEmpty = false := by
    obtain ⟨cs, hcs, -⟩ := Path.exists_toList_join base hfits.isName
    refine Bool.eq_false_iff.mpr fun hempty => hfits.isName.ne_empty ?_
    rw [String.isEmpty_iff.mp hempty] at hcs
    exact String.toList_eq_nil_iff.mp (List.append_eq_nil_iff.mp hcs.symm).2
  rw [h.walk_join hfits.isName, hfits.no_nul, if_neg Bool.false_ne_true, hempty,
    if_neg Bool.false_ne_true, if_neg (Nat.not_le.mpr hfits.path), arriveIn,
    if_neg (Nat.not_lt.mpr hfits.name)]

/-- A name that leads anywhere fits. -/
theorem LeadsInto.fits (h : t.LeadsInto base d) (hn : Path.IsName n)
    (hW : t.walk false (Path.join base n) = .ok W) : Fits base n := by
  rw [h.walk_join hn] at hW
  split_ifs at hW with hnul hempty hpath
  rw [arriveIn] at hW
  split_ifs at hW with hlong
  exact ⟨hn, Bool.eq_false_iff.mpr hnul, Nat.not_le.mp hpath, Nat.not_lt.mp hlong⟩

/-- A name that leads anywhere fits, links followed or not. -/
theorem LeadsInto.fits_of_walk {follows : Bool} (h : t.LeadsInto base d) (hn : Path.IsName n)
    (hW : t.walk follows (Path.join base n) = .ok W) : Fits base n := by
  cases follows with
  | false => exact h.fits hn hW
  | true =>
    obtain ⟨W', hW', -⟩ := walk_unfollowed (Path.endsInSlash_join base hn) hW
    exact h.fits hn hW'

/-- A path keeps leading into its directory. -/
theorem LeadsInto.keeps (h : t.LeadsInto base d) (hsound : t.Sound) (hkeeps : Keeps t t') :
    t'.LeadsInto base d := by
  have hwalk := hkeeps.walkFrom hsound (.inl rfl) (hsound.lookup_startOf base) h
  rwa [Walk.place, arrive_of_some (hkeeps.directory d (h.isDirectory hsound)), startOf,
    ← hkeeps.home, ← startOf] at hwalk

/-! ## What names store -/

/-- **A path that leads into a directory** of a sound file system. -/
structure Opens (t : FileTree) (base : String) (d : Place) : Prop where
  sound : t.Sound
  into : t.LeadsInto base d

/-- **What a name in a directory stores**: the content of a regular file, or nothing. -/
def Stores (t : FileTree) (base : String) (d : Place) (n : String) : Option ByteArray → Prop
  | none => Fits base n → t.lookup (d ++ [n]) = none
  | some content => Fits base n ∧ ∃ isPrivate, t.lookup (d ++ [n]) = some (.file content isPrivate)

/-- **Nothing lies at a path.** -/
def Lacks (t : FileTree) (path : String) : Prop :=
  ∀ p e, t.walk false path ≠ .ok (.found p e)

theorem Stores.isPlain (h : t.Stores base d n o) (hfits : Fits base n) : t.IsPlain (d ++ [n]) := by
  cases o with
  | none => exact .inl (h hfits)
  | some content =>
    obtain ⟨-, isPrivate, hfile⟩ := h
    exact .inr ⟨content, isPrivate, hfile⟩

/-- A name stores what it stored if what lies there has not changed. -/
theorem Stores.congr (h : t.Stores base d n o)
    (heq : t'.lookup (d ++ [n]) = t.lookup (d ++ [n])) : t'.Stores base d n o := by
  cases o with
  | none => exact fun hfits => heq.trans (h hfits)
  | some content =>
    obtain ⟨hfits, isPrivate, hfile⟩ := h
    exact ⟨hfits, isPrivate, heq.trans hfile⟩

/-- **Some names of a directory may be different**, and none but those. -/
structure Alters (base : String) (d : Place) (names : List String) (t t' : FileTree) : Prop where
  opens : t'.Opens base d
  same : ∀ n ∉ names, t'.lookup (d ++ [n]) = t.lookup (d ++ [n])

namespace Alters

variable {names names' : List String}

theorem trans (h : Alters base d names t t') (h' : Alters base d names t' t'') :
    Alters base d names t t'' :=
  ⟨h'.opens, fun n hn => (h'.same n hn).trans (h.same n hn)⟩

theorem mono (h : Alters base d names t t') (hsub : names ⊆ names') : Alters base d names' t t' :=
  ⟨h.opens, fun n hn => h.same n fun hmem => hn (hsub hmem)⟩

/-- The other names store what they stored. -/
theorem stores (h : Alters base d names t t') (hn : n ∉ names) (hstores : t.Stores base d n o) :
    t'.Stores base d n o := hstores.congr (h.same n hn)

end Alters

/-! ## What succeeded -/

/-- **What can be moved, and where to**: the source is there, and is a directory if a slash follows the
target, which ends in a name. -/
theorem rename_eq_ok {source target : String} (h : t.rename source target = .ok t') :
    (∃ p e, t.walk false source = .ok (.found p e) ∧
      (e.isDirectory = true ∨ Path.endsInSlash target = false)) ∧
      (∃ W, t.walk false target = .ok W) ∧ endsInName target = true := by
  rw [FileTree.rename] at h
  cases hsource : t.walk false source with
  | error fault => simp [hsource, bind, Except.bind] at h
  | ok s =>
    cases htarget : t.walk false target with
    | error fault => simp [hsource, htarget, bind, Except.bind] at h
    | ok W =>
      simp only [hsource, htarget, bind, Except.bind] at h
      split_ifs at h with hnames
      rw [Bool.not_eq_true, Bool.or_eq_false_iff, Bool.not_eq_false', Bool.not_eq_false'] at hnames
      cases s with
      | free p => simp at h
      | found p e =>
        refine ⟨⟨p, e, rfl, ?_⟩, ⟨W, rfl⟩, hnames.2⟩
        by_contra hnot
        rw [not_or, Bool.not_eq_true, Bool.not_eq_false] at hnot
        simp [hnot.1, hnot.2] at h

/-- What can be written to can be walked to. -/
theorem exists_walk_of_write {path : String} {content : ByteArray}
    (h : t.write path content = .ok t') : ∃ W, t.walk true path = .ok W := by
  cases hwalk : t.walk true path with
  | error fault => simp [FileTree.write, hwalk] at h
  | ok W => exact ⟨W, rfl⟩

/-- What can be read is there. -/
theorem exists?_of_read {path : String} {content : ByteArray} (h : t.read path = .ok content) :
    t.exists? path = true := by
  obtain ⟨p, isPrivate, hwalk⟩ := FileTree.read_eq_ok_iff.mp h
  rw [exists?, status, hwalk]
  rfl

/-- Nothing but a directory is found with a slash behind it. -/
theorem isDirectory_of_endsInSlash {path : String} {follows : Bool} {p : Place} {e : Entry}
    (hslash : Path.endsInSlash path = true) (h : t.walk follows path = .ok (.found p e)) :
    e.isDirectory = true := by
  rw [walk, hslash] at h
  split_ifs at h <;>
  · dsimp only at h
    split at h
    · split_ifs at h with hfile
      obtain ⟨-, rfl⟩ := Walk.found.inj (Except.ok.inj h)
      simpa using hfile
    · rename_i hother
      exact absurd h (hother p e)

theorem isDirectory_of_status {path : String} {e : Entry} (hslash : Path.endsInSlash path = true)
    (h : t.status path = .ok e) : e.isDirectory = true := by
  rw [status] at h
  cases hwalk : t.walk true path with
  | error fault => simp [hwalk] at h
  | ok W =>
    cases W with
    | free p => simp [hwalk] at h
    | found p e' =>
      obtain rfl : e' = e := by simpa [hwalk] using h
      exact isDirectory_of_endsInSlash hslash hwalk

/-- Copying copies a file. -/
theorem copyCut_eq_ok {cut : ByteArray → ByteArray} {source target : String}
    (h : t.copyCut cut source target = .ok t') :
    ∃ content isPrivate t₁, t.status source = .ok (.file content isPrivate) ∧
      t.write target (cut content) = .ok t₁ := by
  rw [FileTree.copyCut] at h
  cases hstatus : t.status source with
  | error fault => simp [hstatus] at h
  | ok e =>
    cases e with
    | file content isPrivate =>
      cases hwrite : t.write target (cut content) with
      | error fault => simp [hstatus, hwrite] at h
      | ok t₁ => exact ⟨content, isPrivate, t₁, rfl, hwrite⟩
    | _ => simp [hstatus] at h

namespace Opens

/-- Where a file can be written, there is a directory. -/
theorem exists_of_write (hsound : t.Sound) (hn : Path.IsName n) {content : ByteArray}
    (hrun : t.write (Path.join base n) content = .ok t') : ∃ d, t.Opens base d := by
  obtain ⟨W, hwalk⟩ := exists_walk_of_write hrun
  obtain ⟨W', hwalk', -⟩ := walk_unfollowed (Path.endsInSlash_join base hn) hwalk
  obtain ⟨d, hinto, -⟩ := exists_directory_of_walk hn hwalk'
  exact ⟨d, hsound, hinto⟩

variable (h : t.Opens base d)
include h

/-- Names that fit and store regular files or nothing make a folder. -/
theorem folder (names : List String) (hfits : ∀ n ∈ names, Fits base n)
    (hplain : ∀ n ∈ names, t.IsPlain (d ++ [n])) : t.Folder base d names :=
  ⟨h.sound, h.into.isDirectory h.sound, fun n hn => (hfits n hn).isName,
    fun n hn => h.into.walk_of_fits (hfits n hn), hplain⟩

theorem lacks_iff (hn : Path.IsName n) :
    t.Lacks (Path.join base n) ↔ t.Stores base d n none := by
  constructor
  · intro hlacks hfits
    have hwalk := h.into.walk_of_fits hfits
    rw [arrive] at hwalk
    cases he : t.lookup (d ++ [n]) with
    | none => rfl
    | some e => exact absurd (by rw [hwalk, he]) (hlacks (d ++ [n]) e)
  · intro hstores p e hwalk
    have hfits := h.into.fits hn hwalk
    rw [h.into.walk_of_fits hfits, arrive_of_none (hstores hfits)] at hwalk
    cases hwalk

/-- **There is something at a path if its name stores something.** -/
theorem exists?_eq (hn : Path.IsName n) (hstores : t.Stores base d n o) :
    t.exists? (Path.join base n) = o.isSome := by
  by_cases hfits : Fits base n
  · have hfolder := h.folder [n] (by simpa using hfits)
      (by simpa using hstores.isPlain hfits)
    rw [hfolder.exists?_eq List.mem_cons_self]
    cases o with
    | none => rw [hstores hfits]; rfl
    | some content =>
      obtain ⟨-, isPrivate, hfile⟩ := hstores
      rw [hfile]
      rfl
  · cases o with
    | some content => exact absurd hstores.1 hfits
    | none =>
      cases hwalk : t.walk true (Path.join base n) with
      | ok W => exact absurd (h.into.fits_of_walk hn hwalk) hfits
      | error fault =>
        rw [exists?, status, hwalk]
        rfl

/-- Where there is nothing, nothing is held. -/
theorem none_of_absent (hn : Path.IsName n) (hstores : t.Stores base d n o)
    (habsent : ¬ t.exists? (Path.join base n) = true) : o = none := by
  rw [h.exists?_eq hn hstores] at habsent
  exact Option.not_isSome_iff_eq_none.mp habsent

/-- **A file is read if its name stores it.** -/
theorem read_eq_ok_iff (hn : Path.IsName n) (hstores : t.Stores base d n o) {content : ByteArray} :
    t.read (Path.join base n) = .ok content ↔ o = some content := by
  cases o with
  | none =>
    have habsent := h.exists?_eq hn hstores
    constructor
    · intro hread
      cases (exists?_of_read hread).symm.trans habsent
    · intro hsome
      cases hsome
  | some held =>
    obtain ⟨hfits, isPrivate, hfile⟩ := id hstores
    have hfolder := h.folder [n] (by simpa using hfits)
      (by simpa using hstores.isPlain hfits)
    rw [hfolder.read_of_file List.mem_cons_self hfile, Except.ok.injEq, Option.some.injEq]

/-! ### Operations that succeeded -/

/-- An edit of a folder alters its names. -/
theorem alters {names : List String} (hfolder : t.Folder base d names)
    (hedit : Edits d names t t') : Alters base d names t t' :=
  ⟨⟨(hfolder.edit hedit).sound, h.into.keeps h.sound (hfolder.keeps hedit)⟩,
    fun _ hn => hedit.lookup_of_notMem hn⟩

/-- **What writing to a name did**, if there was no link. -/
theorem write (hn : Path.IsName n)
    (hlink : ∀ p target, t.walk false (Path.join base n) ≠ .ok (.found p (.link target)))
    {content : ByteArray} (hrun : t.write (Path.join base n) content = .ok t') :
    Alters base d [n] t t' ∧ t'.Stores base d n (some content) := by
  obtain ⟨W, hwalk⟩ := exists_walk_of_write hrun
  have hfits := h.into.fits_of_walk hn hwalk
  have hfalse := h.into.walk_of_fits hfits
  have hnone : ¬ t.IsLink (d ++ [n]) := fun ⟨target, he⟩ =>
    hlink (d ++ [n]) target (by rw [hfalse, arrive_of_some he])
  have htrue := (Keeps.refl t).walk h.sound (Path.endsInSlash_join base hn)
    (.inr ⟨rfl, by rwa [place_arrive]⟩) hfalse
  rw [place_arrive] at htrue
  have hplain : t.IsPlain (d ++ [n]) := by
    rw [FileTree.write, htrue] at hrun
    cases he : t.lookup (d ++ [n]) with
    | none => exact .inl he
    | some e =>
      cases e with
      | file held isPrivate => exact .inr ⟨held, isPrivate, he⟩
      | _ => simp [arrive_of_some he] at hrun
  have hfolder := h.folder [n] (by simpa using hfits) (by simpa using hplain)
  obtain ⟨t₁, hwrite, hedit, hfile⟩ := hfolder.write List.mem_cons_self content
  obtain rfl := Except.ok.inj (hwrite.symm.trans hrun)
  exact ⟨h.alters hfolder hedit, hfits, hfile⟩

/-- **What removing a name did.** -/
theorem remove (hn : Path.IsName n) (hstores : t.Stores base d n o)
    (hrun : t.remove (Path.join base n) = .ok t') :
    Alters base d [n] t t' ∧ t'.Stores base d n none := by
  cases hwalk : t.walk false (Path.join base n) with
  | error fault => simp [FileTree.remove, hwalk] at hrun
  | ok W =>
    have hfits := h.into.fits hn hwalk
    have hfolder := h.folder [n] (by simpa using hfits)
      (by simpa using hstores.isPlain hfits)
    have hsome : (t.lookup (d ++ [n])).isSome := by
      rw [FileTree.remove, h.into.walk_of_fits hfits] at hrun
      cases he : t.lookup (d ++ [n]) with
      | none => simp [arrive_of_none he] at hrun
      | some e => rfl
    obtain ⟨t₁, hremove, hedit, hnone⟩ := hfolder.remove List.mem_cons_self hsome
    obtain rfl := Except.ok.inj (hremove.symm.trans hrun)
    exact ⟨h.alters hfolder hedit, fun _ => hnone⟩

/-- **What moving one name to another one did.** -/
theorem rename (hn : Path.IsName n) (hm : Path.IsName m) (hne : n ≠ m)
    (hstores : t.Stores base d n o) (hstores' : t.Stores base d m o')
    (hrun : t.rename (Path.join base n) (Path.join base m) = .ok t') :
    Alters base d [n, m] t t' ∧ t'.Stores base d n none ∧ t'.Stores base d m o := by
  obtain ⟨⟨p, e, hsource, -⟩, ⟨W, htarget⟩, -⟩ := rename_eq_ok hrun
  have hfits := h.into.fits hn hsource
  have hfits' := h.into.fits hm htarget
  have hfolder := h.folder [n, m] (by simp [hfits, hfits'])
    (by simp [hstores.isPlain hfits, hstores'.isPlain hfits'])
  have hsome : (t.lookup (d ++ [n])).isSome := by
    rw [h.into.walk_of_fits hfits] at hsource
    cases he : t.lookup (d ++ [n]) with
    | none =>
      rw [arrive_of_none he] at hsource
      exact nomatch hsource
    | some e => rfl
  obtain ⟨t₁, hrename, hedit, hnone, hmoved⟩ :=
    hfolder.rename List.mem_cons_self (List.mem_cons_of_mem _ List.mem_cons_self) hne hsome
  obtain rfl := Except.ok.inj (hrename.symm.trans hrun)
  refine ⟨h.alters hfolder hedit, fun _ => hnone, ?_⟩
  cases o with
  | none =>
    rw [hstores hfits] at hsome
    exact nomatch hsome
  | some content =>
    obtain ⟨-, isPrivate, hfile⟩ := hstores
    exact ⟨hfits', isPrivate, hmoved.trans hfile⟩

/-- **What copying a file to a name did.** -/
theorem copy (hm : Path.IsName m) {content : ByteArray}
    (hstores : t.Stores base d n (some content)) (hstores' : t.Stores base d m o')
    (hrun : t.copy (Path.join base n) (Path.join base m) = .ok t') :
    Alters base d [m] t t' ∧ t'.Stores base d m (some content) := by
  obtain ⟨hfits, isPrivate, hfile⟩ := id hstores
  have hfits' : Fits base m := by
    obtain ⟨_, _, _, -, hwrite⟩ := copyCut_eq_ok hrun
    obtain ⟨W, hwalk⟩ := exists_walk_of_write hwrite
    exact h.into.fits_of_walk hm hwalk
  have hfolder := h.folder [n, m] (by simp [hfits, hfits'])
    (by simp [hstores.isPlain hfits, hstores'.isPlain hfits'])
  obtain ⟨t₁, hcopy, hedit, hcopied⟩ :=
    hfolder.copy List.mem_cons_self (List.mem_cons_of_mem _ List.mem_cons_self) hfile
  obtain rfl := Except.ok.inj (hcopy.symm.trans hrun)
  exact ⟨h.alters (hfolder.sub (List.subset_cons_self _ _)) hedit, hfits', hcopied⟩

/-- The directory that is there is found. -/
theorem walk_parent (hfits : Fits base n) {parent : String} (hparent : Path.IsBefore base n parent)
    (hne : parent ≠ "") (hslash : Path.endsInSlash parent = false) :
    t.walk true parent = .ok (.found d .directory) := by
  obtain ⟨rest, hrest⟩ := hparent.begins
  have hnul : parent.toList.contains (Char.ofNat 0) = false := by
    have hnone := hfits.no_nul
    rw [← hrest, String.toList_append, List.contains_eq_any_beq, List.any_append,
      Bool.or_eq_false_iff] at hnone
    rw [List.contains_eq_any_beq]
    exact hnone.1
  have hshort : parent.utf8ByteSize < maxPathBytes := by
    have hpath := hfits.path
    rw [← hrest, String.utf8ByteSize_append] at hpath
    omega
  rw [walk_eq hslash, hnul, if_neg Bool.false_ne_true,
    if_neg fun hempty => hne (String.isEmpty_iff.mp hempty), if_neg (Nat.not_le.mpr hshort),
    startOf, hparent.isAbsolute_eq hne, hparent.steps_eq, ← startOf]
  exact h.into

/-- **Making the directory that is there changes nothing.** -/
theorem createDirectories (hfits : Fits base n) {parent : String}
    (hparent : Path.IsBefore base n parent) : t.createDirectories parent = .ok t := by
  obtain ⟨outer, houter⟩ : ∃ outer, ancestors parent parent.length = parent :: outer := by
    cases parent.length with
    | zero => exact ⟨[], rfl⟩
    | succ fuel =>
      rw [ancestors]
      cases Path.parent? parent with
      | none => exact ⟨[], rfl⟩
      | some p => exact ⟨_, rfl⟩
  rw [FileTree.createDirectories, houter]
  unfold createAll
  split_ifs with hnone
  · rfl
  rw [Bool.or_eq_true, not_or] at hnone
  have hslash : Path.endsInSlash parent = false := by
    refine Bool.eq_false_iff.mpr fun hends => hnone.2 ?_
    rw [hparent.root hends]
    rfl
  have hwalk := h.walk_parent hfits hparent (fun heq => hnone.1 (String.isEmpty_iff.mpr heq)) hslash
  have hexists : t.createDirectory parent = .error .exists := by
    obtain ⟨W', hwalk', hends⟩ := walk_unfollowed hslash hwalk
    unfold createDirectory
    simp only [hslash, Bool.false_eq_true, if_false, hwalk']
    obtain rfl | ⟨p, target, rfl⟩ := hends <;> rfl
  have hthere : t.isDirectory parent = true := by
    rw [FileTree.isDirectory, status, hwalk]
    rfl
  unfold ensureDirectory
  rw [hexists]
  exact if_pos hthere

end Opens

end Rollout.FileTree
