import Rollout.Proofs.Render.Steps
import Rollout.Proofs.System.Tree
import Rollout.Proofs.Text.Number

/-!
# Proofs/Render/Replace — replacing a file where there is room

A file `HasRoom` if its directory can be made, and then nothing but regular files lies at its path, at that
of its draft and at those of its earlier versions.  These are names of one folder, so every step of
`replaceFile` succeeds there and edits nothing else (`replaceFile_of_room`).  When files are replaced one
after the other, each of them holds its text in the end, if none lies where another one has its draft or
earlier versions (`read_of_writeArtifacts`).
-/

namespace Rollout

open FileTree

variable {t t' : FileTree} {base name path : String} {d : Place}

/-! ## The names of a file -/

/-- The names of the earlier versions of a file, the youngest first. -/
def versionsOf (path : String) (maxOld : Nat) : List String :=
  (List.range maxOld).map fun k => Path.numbered path (k + 1)

/-- **The paths that replacing a file is about**: its own, that of its draft and those of its earlier
versions. -/
def pathsOf (path : String) (maxOld : Nat) : List String :=
  path :: draftOf path :: versionsOf path maxOld

theorem mem_versionsOf {maxOld k : Nat} (hpos : 0 < k) (hle : k ≤ maxOld) :
    Path.numbered path k ∈ versionsOf path maxOld :=
  List.mem_map.mpr ⟨k - 1, List.mem_range.mpr (by omega), by rw [Nat.sub_add_cancel hpos]⟩

/-- **A numbered version of what has no slash is a name.** -/
theorem isName_numbered_of_component (hslash : '/' ∉ name.toList) (k : Nat) :
    Path.IsName (Path.numbered name k) := by
  obtain ⟨c, cs, hcs⟩ := List.exists_cons_of_ne_nil (Text.digits_ne_nil k)
  have hdigit : ∀ c ∈ Text.digits k, Text.isDigit c = true := fun _ => Text.isDigit_of_mem_digits
  have hc : Text.isDigit c = true := hdigit c (by rw [hcs]; exact List.mem_cons_self)
  have hchars : (Path.numbered name k).toList = name.toList ++ '.' :: Text.digits k := by
    simp [Path.numbered]
  -- It has a digit, so it consists of more than points.
  have hne (ds : List Char) (hds : c ∉ ds) : Path.numbered name k ≠ String.ofList ds := fun heq => by
    have hmem : c ∈ (Path.numbered name k).toList := by simp [hchars, hcs]
    rw [heq, String.toList_ofList] at hmem
    exact hds hmem
  have hpoint : c ≠ '.' := fun heq => absurd (heq ▸ hc) (by decide)
  refine ⟨hne [] List.not_mem_nil, hne ['.'] (by simpa), hne ['.', '.'] (by simpa), ?_⟩
  rw [hchars, List.mem_append, List.mem_cons, not_or, not_or]
  exact ⟨hslash, by decide, fun hmem => absurd (hdigit _ hmem) (by decide)⟩

theorem isName_numbered (h : Path.IsName name) (k : Nat) : Path.IsName (Path.numbered name k) :=
  isName_numbered_of_component h.no_slash k

theorem numbered_join (h : Path.IsName name) (k : Nat) :
    Path.numbered (Path.join base name) k = Path.join base (Path.numbered name k) := by
  have hname := isName_numbered h k
  rw [Path.numbered, String.append_assoc] at hname ⊢
  rw [Path.numbered, String.append_assoc]
  exact Path.join_append base h hname

theorem isName_draft_of_component (hslash : '/' ∉ name.toList) : Path.IsName (draftOf name) := by
  refine .of_length ?_ ?_
  · rw [draftOf, String.toList_append, List.mem_append, not_or]
    exact ⟨hslash, by decide⟩
  · rw [draftOf, String.length_append]
    exact Nat.lt_of_lt_of_le (by decide) (Nat.le_add_left _ _)

theorem isName_draft (h : Path.IsName name) : Path.IsName (draftOf name) :=
  isName_draft_of_component h.no_slash

theorem draftOf_join (h : Path.IsName name) :
    draftOf (Path.join base name) = Path.join base (draftOf name) :=
  Path.join_append base h (isName_draft h)

theorem versionsOf_join (h : Path.IsName name) (maxOld : Nat) :
    versionsOf (Path.join base name) maxOld = (versionsOf name maxOld).map (Path.join base) := by
  rw [versionsOf, versionsOf, List.map_map]
  exact List.map_congr_left fun k _ => numbered_join h (k + 1)

/-- **The paths of a file are names below one path.** -/
theorem pathsOf_join (h : Path.IsName name) (maxOld : Nat) :
    pathsOf (Path.join base name) maxOld = (pathsOf name maxOld).map (Path.join base) := by
  rw [pathsOf, pathsOf, draftOf_join h, versionsOf_join h, List.map_cons, List.map_cons]

theorem isName_of_mem_pathsOf (h : Path.IsName name) {maxOld : Nat} {n : String}
    (hn : n ∈ pathsOf name maxOld) : Path.IsName n := by
  rcases List.mem_cons.mp hn with rfl | hn
  · exact h
  rcases List.mem_cons.mp hn with rfl | hn
  · exact isName_draft h
  obtain ⟨k, -, rfl⟩ := List.mem_map.mp hn
  exact isName_numbered h (k + 1)

theorem numbered_injective : Function.Injective (Path.numbered name) := fun j k h =>
  Text.digits_injective (by
    rw [Path.numbered, Path.numbered] at h
    have hcs := congrArg String.toList (String.append_right_inj _ |>.mp h)
    rwa [Text.toList_decimal, Text.toList_decimal] at hcs)

/-- A numbered name is neither that of the file nor that of its draft. -/
theorem numbered_ne (name : String) (k : Nat) :
    Path.numbered name k ≠ name ∧ Path.numbered name k ≠ draftOf name := by
  refine ⟨fun heq => ?_, fun heq => ?_⟩ <;> have hcs := congrArg String.toList heq
  · simp [Path.numbered] at hcs
  · have hdigits : 'h' ∉ Text.digits k := fun hmem =>
      absurd (Text.isDigit_of_mem_digits hmem) (by decide)
    have hsuffix : '.' :: Text.digits k = ".haconf.tmp".toList := by
      simpa [Path.numbered, draftOf] using hcs
    have hmem : 'h' ∈ '.' :: Text.digits k := by
      rw [hsuffix]
      decide
    exact hdigits (by simpa using hmem)

/-- A file is none of its earlier versions, and neither is its draft. -/
theorem notMem_versionsOf (name : String) (maxOld : Nat) :
    name ∉ versionsOf name maxOld ∧ draftOf name ∉ versionsOf name maxOld := by
  refine ⟨fun h => ?_, fun h => ?_⟩ <;> obtain ⟨k, -, heq⟩ := List.mem_map.mp h
  · exact (numbered_ne name (k + 1)).1 heq
  · exact (numbered_ne name (k + 1)).2 heq

theorem draftOf_ne (name : String) : draftOf name ≠ name := fun h => by
  have hcs := congrArg String.toList h
  simp [draftOf] at hcs

/-! ## Earlier versions -/

section Versions

variable {maxOld : Nat}

/-- The names of a file, of its draft and of its earlier versions are those of the folder. -/
theorem versionsOf_subset (name : String) (maxOld : Nat) :
    versionsOf name maxOld ⊆ pathsOf name maxOld := fun _ h =>
  List.mem_cons_of_mem _ (List.mem_cons_of_mem _ h)

/-- **Moving the versions one number up** edits versions only. -/
theorem shiftVersions_of_folder (hname : Path.IsName name) : ∀ {n : Nat} {t : FileTree},
    t.Folder base d (versionsOf name maxOld) → n + 1 ≤ maxOld →
      ∃ t', (shiftVersions (Path.join base name) n : StateM FileTree _) t = (.ok (), t') ∧
        Edits d (versionsOf name maxOld) t t'
  | 0, t, h, _ => ⟨t, rfl, h.edits_refl⟩
  | n + 1, t, h, hn => by
      have hsource : Path.numbered name (n + 1) ∈ versionsOf name maxOld :=
        mem_versionsOf n.succ_pos (by omega)
      have htarget : Path.numbered name (n + 2) ∈ versionsOf name maxOld :=
        mem_versionsOf (n + 1).succ_pos hn
      obtain ⟨t₁, hmoved, hedit⟩ : ∃ t₁, t.ifThere (Path.join base (Path.numbered name (n + 1)))
          (·.rename (Path.join base (Path.numbered name (n + 1)))
            (Path.join base (Path.numbered name (n + 2)))) = .ok t₁ ∧
          Edits d (versionsOf name maxOld) t t₁ := by
        rw [ifThere, h.exists?_eq hsource]
        split_ifs with hsome
        · obtain ⟨t₁, hrename, hedit, -, -⟩ := h.rename hsource htarget
            (fun heq => absurd (numbered_injective heq) (by omega)) hsome
          exact ⟨t₁, hrename, hedit.mono (by simp [List.subset_def, hsource, htarget]) h.plain⟩
        · exact ⟨t, rfl, h.edits_refl⟩
      obtain ⟨t₂, hrest, hedit₂⟩ := shiftVersions_of_folder hname (h.edit hedit) (n := n) (by omega)
      rw [← numbered_join hname, ← numbered_join hname] at hmoved
      exact ⟨t₂, shiftVersions_succ_eq_ok_iff.mpr ⟨t₁, hmoved, hrest⟩, hedit.trans hedit₂⟩

/-- Removing what is there, if anything is. -/
theorem remove_ifThere_of_folder {names : List String} {n : String} (h : t.Folder base d names)
    (hn : n ∈ names) : ∃ t', t.ifThere (Path.join base n) (·.remove (Path.join base n)) = .ok t' ∧
      Edits d names t t' := by
  rw [ifThere, h.exists?_eq hn]
  split_ifs with hsome
  · obtain ⟨t₁, hremove, hedit, -⟩ := h.remove hn hsome
    exact ⟨t₁, hremove, hedit.mono (by simpa using hn) h.plain⟩
  · exact ⟨t, rfl, h.edits_refl⟩

/-- **Keeping a version** edits versions only. -/
theorem keepVersion_of_folder (hname : Path.IsName name)
    (h : t.Folder base d (name :: versionsOf name maxOld)) (hpos : 0 < maxOld)
    (hthere : (t.lookup (d ++ [name])).isSome) :
    ∃ t', (keepVersion (Path.join base name) maxOld : StateM FileTree _) t = (.ok (), t') ∧
      Edits d (versionsOf name maxOld) t t' := by
  have hversions := h.sub (List.subset_cons_self name _)
  obtain ⟨t₁, hremove, hedit₁⟩ :=
    remove_ifThere_of_folder hversions (mem_versionsOf hpos (Nat.le_refl _))
  obtain ⟨t₂, hshift, hedit₂⟩ := shiftVersions_of_folder hname (hversions.edit hedit₁)
    (n := maxOld - 1) (by omega)
  have hedit := hedit₁.trans hedit₂
  have hfolder := h.edit (hedit.mono (List.subset_cons_self name _) h.plain)
  obtain ⟨content, isPrivate, hfile⟩ := (h.plain name List.mem_cons_self).exists_file hthere
  rw [← hedit.lookup_of_notMem (notMem_versionsOf name maxOld).1] at hfile
  have hfirst : Path.numbered name 1 ∈ versionsOf name maxOld := mem_versionsOf Nat.one_pos hpos
  obtain ⟨t₃, hcopy, hedit₃, -⟩ := hfolder.copy List.mem_cons_self
    (List.mem_cons_of_mem _ hfirst) hfile
  rw [← numbered_join hname] at hremove hcopy
  exact ⟨t₃, keepVersion_eq_ok_iff.mpr ⟨t₁, t₂, hremove, hshift, hcopy⟩,
    hedit.trans (hedit₃.mono (by simpa using hfirst) hedit.plain)⟩

/-- Keeping a version where versions are kept. -/
theorem keepIfAny_of_folder (hname : Path.IsName name)
    (h : t.Folder base d (name :: versionsOf name maxOld)) :
    ∃ t', (keepIfAny (Path.join base name) maxOld : StateM FileTree _) t = (.ok (), t') ∧
      Edits d (versionsOf name maxOld) t t' := by
  simp only [keepIfAny_eq_ok_iff, h.exists?_eq List.mem_cons_self]
  split_ifs with hthere
  · exact keepVersion_of_folder hname h hthere.1 hthere.2
  · exact ⟨t, rfl, (h.sub (List.subset_cons_self name _)).edits_refl⟩

/-- **A draft becomes the file.** -/
theorem commitDraft_of_folder (hname : Path.IsName name)
    (h : t.Folder base d (pathsOf name maxOld)) {content : ByteArray} {isPrivate : Bool}
    (hdraft : t.lookup (d ++ [draftOf name]) = some (.file content isPrivate)) :
    ∃ t', (commitDraft (Path.join base name) (Path.join base (draftOf name)) maxOld :
        StateM FileTree _) t = (.ok (), t') ∧ Edits d (pathsOf name maxOld) t t' ∧
      t'.lookup (d ++ [name]) = some (.file content isPrivate) := by
  have hsub : name :: versionsOf name maxOld ⊆ pathsOf name maxOld :=
    List.cons_subset_cons name (List.subset_cons_self _ _)
  obtain ⟨t₁, hkeep, hedit⟩ := keepIfAny_of_folder hname (h.sub hsub)
  have hedit₁ := hedit.mono (versionsOf_subset name maxOld) h.plain
  have hdraft₁ := (hedit.lookup_of_notMem (notMem_versionsOf name maxOld).2).trans hdraft
  have hmem : draftOf name ∈ pathsOf name maxOld := List.mem_cons_of_mem _ List.mem_cons_self
  obtain ⟨t₂, hrename, hedit₂, -, hmoved⟩ := (h.edit hedit₁).rename hmem List.mem_cons_self
    (draftOf_ne name) (by rw [hdraft₁]; rfl)
  refine ⟨t₂, commitDraft_eq_ok_iff.mpr ⟨t₁, hkeep, hrename⟩,
    hedit₁.trans (hedit₂.mono ?_ hedit₁.plain), hmoved.trans hdraft₁⟩
  simp [List.subset_def, pathsOf]

end Versions

/-! ## Room for a file -/

/-- **There is room for a file.**  Its path ends in a name, and either leads to a file or to nothing; its
directory can be made, and then nothing but regular files lies at the paths that replacing it is about. -/
structure HasRoom (t : FileTree) (path : String) (maxOld : Nat) : Prop where
  named : ∃ base name, Path.IsName name ∧ Path.join base name = path
  current : t.read path = .error .noEntry ∨ ∃ bytes, t.read path = .ok bytes
  room : ∃ t₁, t.withDirectoryOf path = .ok t₁ ∧ ∀ x ∈ pathsOf path maxOld, ∃ p,
    t₁.walk false x = .ok (t₁.arrive p) ∧ t₁.IsPlain p

/-- There is room if all paths of the file lead to some places with nothing but files. -/
theorem HasRoom.of_places {maxOld : Nat} (base name : String) (t₁ : FileTree) (places : List Place)
    (hname : Path.IsName name) (hjoin : Path.join base name = path)
    (hcurrent : t.read path = .error .noEntry ∨ ∃ bytes, t.read path = .ok bytes)
    (hmade : t.withDirectoryOf path = .ok t₁)
    (hplaces : ∀ x ∈ pathsOf path maxOld, ∃ p ∈ places,
      t₁.walk false x = .ok (t₁.arrive p) ∧ t₁.IsPlain p) : HasRoom t path maxOld :=
  ⟨⟨base, name, hname, hjoin⟩, hcurrent, t₁, hmade, fun x hx => (hplaces x hx).imp fun _ h => h.2⟩

theorem withDirectoryOf_spec (hsound : t.Sound) (h : t.withDirectoryOf path = .ok t') :
    Grows t t' ∧ t'.Sound := by
  rw [FileTree.withDirectoryOf] at h
  cases hparent : Path.parent? path with
  | none =>
    rw [hparent] at h
    obtain rfl := Except.ok.inj h
    exact ⟨.refl t, hsound⟩
  | some parent =>
    rw [hparent] at h
    exact createDirectories_spec hsound h

/-- **Where there is room, there is a folder**, once the directory is made. -/
theorem HasRoom.exists_folder {maxOld : Nat} (h : HasRoom t path maxOld) (hsound : t.Sound) :
    ∃ base name d t₁, Path.IsName name ∧ Path.join base name = path ∧
      t.withDirectoryOf path = .ok t₁ ∧ Grows t t₁ ∧ t₁.Folder base d (pathsOf name maxOld) := by
  obtain ⟨base, name, hname, rfl⟩ := h.named
  obtain ⟨t₁, hmade, hroom⟩ := h.room
  obtain ⟨hgrows, hsound₁⟩ := withDirectoryOf_spec hsound hmade
  have hpaths : ∀ n ∈ pathsOf name maxOld, ∃ p,
      t₁.walk false (Path.join base n) = .ok (t₁.arrive p) ∧ t₁.IsPlain p := fun n hn =>
    hroom _ (by rw [pathsOf_join hname]; exact List.mem_map_of_mem hn)
  obtain ⟨p, hwalk, -⟩ := hpaths name List.mem_cons_self
  obtain ⟨d, hinto, -⟩ := exists_directory_of_walk hname hwalk
  -- All the names lie in the directory that `base` leads into.
  have hplaces : ∀ n ∈ pathsOf name maxOld,
      t₁.walk false (Path.join base n) = .ok (t₁.arrive (d ++ [n])) ∧ t₁.IsPlain (d ++ [n]) := by
    intro n hn
    obtain ⟨p, hwalk, hplain⟩ := hpaths n hn
    obtain ⟨d', hinto', hplace⟩ := exists_directory_of_walk (isName_of_mem_pathsOf hname hn) hwalk
    rw [place_arrive] at hplace
    rw [hinto.unique hinto', ← hplace]
    exact ⟨hwalk, hplain⟩
  exact ⟨base, name, d, t₁, hname, rfl, hmade, hgrows, hsound₁, hinto.isDirectory hsound₁,
    fun n hn => isName_of_mem_pathsOf hname hn, fun n hn => (hplaces n hn).1,
    fun n hn => (hplaces n hn).2⟩

/-! ## Replacing a file -/

variable {content : String} {maxOld : Nat}

/-- **Replacing a file where there is room succeeds**, and edits the names that it is about. -/
theorem replaceFile_of_room (hsound : t.Sound) (h : HasRoom t path maxOld)
    (hdiffers : t.read path ≠ .ok (normalised content).toUTF8) :
    ∃ base name d t₁ t', Path.IsName name ∧ Path.join base name = path ∧ Grows t t₁ ∧
      t₁.Folder base d (pathsOf name maxOld) ∧ Edits d (pathsOf name maxOld) t₁ t' ∧
      (∃ isPrivate, t'.lookup (d ++ [name]) = some (.file (normalised content).toUTF8 isPrivate)) ∧
      (replaceFile path content maxOld : StateM FileTree _) t = (.ok (.written path), t') := by
  obtain ⟨base, name, d, t₁, hname, rfl, hmade, hgrows, hfolder⟩ := h.exists_folder hsound
  have hmem : draftOf name ∈ pathsOf name maxOld := List.mem_cons_of_mem _ List.mem_cons_self
  obtain ⟨t₂, hwrite, hedit, isPrivate, hdraft⟩ :=
    hfolder.write hmem (normalised content).toUTF8
  have hedit₂ := hedit.mono (by simpa using hmem) hfolder.plain
  obtain ⟨t₃, hcommit, hedit₃, hfile⟩ :=
    commitDraft_of_folder hname (hfolder.edit hedit₂) hdraft
  refine ⟨base, name, d, t₁, t₃, hname, rfl, hgrows, hfolder, hedit₂.trans hedit₃,
    ⟨isPrivate, hfile⟩, ?_⟩
  rw [← draftOf_join hname] at hwrite hcommit
  exact (replaceFile_eq_ok_iff hdiffers).mpr ⟨h.current, rfl, t₁, t₂, hmade, hwrite, hcommit⟩

/-! ## Replacing one file after the other -/

theorem endsInSlash_of_mem_pathsOf (hname : Path.IsName name) {x : String}
    (hx : x ∈ pathsOf (Path.join base name) maxOld) : Path.endsInSlash x = false := by
  rw [pathsOf_join hname] at hx
  obtain ⟨n, hn, rfl⟩ := List.mem_map.mp hx
  exact Path.endsInSlash_join base (isName_of_mem_pathsOf hname hn)

/-- **What replacing some files leaves alone**: the directories, the links, and every file that lies where
none of the paths leads that it is about. -/
structure Spares (xs : List String) (t t' : FileTree) : Prop where
  sound : t'.Sound
  keeps : Keeps t t'
  file : ∀ {x p content isPrivate}, Path.endsInSlash x = false →
    t.walk true x = .ok (.found p (.file content isPrivate)) →
    (∀ y ∈ xs, t'.placeOf? y ≠ some p) → t'.walk true x = .ok (.found p (.file content isPrivate))

/-- **Where there is room, a file comes to hold its text**, and everything else is spared. -/
theorem replaceFile_spec (content : String) (hsound : t.Sound) (h : HasRoom t path maxOld) :
    ∃ r t', (replaceFile path content maxOld : StateM FileTree _) t = (.ok r, t') ∧
      t'.read path = .ok (normalised content).toUTF8 ∧ Spares (pathsOf path maxOld) t t' := by
  by_cases hsame : t.read path = .ok (normalised content).toUTF8
  · exact ⟨_, t, replaceFile_of_same hsame, hsame, hsound, .refl t, fun _ hwalk _ => hwalk⟩
  obtain ⟨base, name, d, t₁, t', hname, rfl, hgrows, hfolder, hedit, ⟨isPrivate, hfile⟩, hrun⟩ :=
    replaceFile_of_room hsound h hsame
  have hfolder' := hfolder.edit hedit
  have hkeeps : Keeps t t' := hgrows.keeps.trans (hfolder.keeps hedit)
  refine ⟨_, t', hrun, hfolder'.read_of_file List.mem_cons_self hfile, hfolder'.sound, hkeeps,
    fun {x p bytes isPrivate} hslash hwalk hother => ?_⟩
  have hthere := hsound.lookup_of_walk hslash hwalk
  have hplaces : ∀ n ∈ pathsOf name maxOld, p ≠ d ++ [n] := by
    rintro n hn rfl
    refine hother (Path.join base n) ?_ ?_
    · rw [pathsOf_join hname]
      exact List.mem_map_of_mem hn
    · rw [placeOf?_of_walk (hfolder'.walk_true hn), place_arrive]
  have hthere' : t'.lookup p = some (.file bytes isPrivate) := by
    rw [hedit.same p hplaces]
    exact hgrows.old p _ hthere
  rw [hkeeps.walk hsound hslash (.inl rfl) hwalk, Walk.place, arrive_of_some hthere']

/-- **There is room for each of some files when its turn comes.** -/
def RoomForAll : List Artifact → FileTree → Prop
  | [], _ => True
  | a :: rest, t => HasRoom t a.path a.maxOldFiles ∧
    RoomForAll rest ((replaceFile a.path a.content a.maxOldFiles : StateM FileTree _) t).2

/-- The paths that replacing some files is about. -/
def pathsOfAll (as : List Artifact) : List String := as.flatMap fun a => pathsOf a.path a.maxOldFiles

theorem Spares.trans {xs ys : List String} {t'' : FileTree} (h : Spares xs t t')
    (h' : Spares ys t' t'') (hslash : ∀ x ∈ xs, Path.endsInSlash x = false) :
    Spares (xs ++ ys) t t'' :=
  ⟨h'.sound, h.keeps.trans h'.keeps, fun hx hwalk hother =>
    h'.file hx (h.file hx hwalk fun y hy hplace => hother y (List.mem_append_left _ hy)
      (h'.keeps.placeOf? h.sound (hslash y hy) hplace)) fun y hy =>
        hother y (List.mem_append_right _ hy)⟩

/-- **Files that find room are all replaced.** -/
theorem writeArtifacts_spec : ∀ {as : List Artifact} {t : FileTree}, t.Sound → RoomForAll as t →
    ∃ rs t', (writeArtifacts as : StateM FileTree _) t = (.ok rs, t') ∧ Spares (pathsOfAll as) t t'
  | [], t, hsound, _ => ⟨[], t, rfl, hsound, .refl t, fun _ hwalk _ => hwalk⟩
  | a :: rest, t, hsound, ⟨hroom, hrest⟩ => by
      obtain ⟨r, t₁, hrun, -, hspares⟩ := replaceFile_spec a.content hsound hroom
      rw [hrun] at hrest
      obtain ⟨rs, t', hruns, hspares'⟩ := writeArtifacts_spec hspares.sound hrest
      refine ⟨r :: rs, t', writeArtifacts_cons_eq_ok_iff.mpr ⟨r, t₁, rs, hrun, hruns, rfl⟩,
        hspares.trans hspares' fun x hx => ?_⟩
      obtain ⟨base, name, hname, hpath⟩ := hroom.named
      rw [← hpath] at hx
      exact endsInSlash_of_mem_pathsOf hname hx

/-- **No file lies where one that is replaced later, its draft or an earlier version of it lies.** -/
def Apart (t : FileTree) (as : List Artifact) : Prop :=
  as.Pairwise fun a b => ∀ y ∈ pathsOf b.path b.maxOldFiles, t.placeOf? y ≠ t.placeOf? a.path

/-- **After all files are replaced, each holds its text.** -/
theorem read_of_writeArtifacts : ∀ {as : List Artifact} {t t' : FileTree} {rs : List Replaced},
    t.Sound → RoomForAll as t → (writeArtifacts as : StateM FileTree _) t = (.ok rs, t') →
      Apart t' as → ∀ a ∈ as, t'.read a.path = .ok (normalised a.content).toUTF8
  | [], _, _, _, _, _, _, _, _, ha => nomatch ha
  | a :: rest, t, t', rs, hsound, ⟨hroom, hrest⟩, hwrite, hapart, b, hb => by
      obtain ⟨r, t₁, hrun, hread, hspares⟩ := replaceFile_spec a.content hsound hroom
      rw [hrun] at hrest
      obtain ⟨rs', t₂, hruns, hspares'⟩ := writeArtifacts_spec hspares.sound hrest
      have hwrite' := writeArtifacts_cons_eq_ok_iff.mpr ⟨r, t₁, rs', hrun, hruns, rfl⟩
      obtain rfl : t₂ = t' := congrArg Prod.snd (hwrite'.symm.trans hwrite)
      obtain ⟨hhead, htail⟩ := List.pairwise_cons.mp hapart
      rcases List.mem_cons.mp hb with rfl | hb
      · -- Its file is spared by all the later ones.
        obtain ⟨base, name, hname, hpath⟩ := hroom.named
        have hslash : Path.endsInSlash b.path = false := hpath ▸ Path.endsInSlash_join base hname
        obtain ⟨p, isPrivate, hwalk⟩ := read_eq_ok_iff.mp hread
        have hplace := hspares'.keeps.placeOf? hspares.sound hslash (placeOf?_of_walk hwalk)
        refine read_eq_ok_iff.mpr ⟨p, isPrivate, hspares'.file hslash hwalk fun y hy => ?_⟩
        obtain ⟨c, hc, hy⟩ := List.mem_flatMap.mp hy
        exact hplace ▸ hhead c hc y hy
      · exact read_of_writeArtifacts hspares.sound hrest hruns htail b hb

end Rollout
