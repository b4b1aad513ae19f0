import Rollout.Proofs.System.Directory
import Rollout.Proofs.System.Within

/-!
# Proofs/System/Site — a directory in which names are moved

A `Site` is a directory among files and directories, with the names in it that may be moved even if they are
directories: the path that leads into the directory passes none of them.  So it leads there still after such
a name, or any that is no directory, came to be something else (`Site.keep`).
-/

namespace Rollout.FileTree

variable {t t' : FileTree} {base n m : String} {d : Place} {names movable : List String}
  {follows : Bool} {W : Walk}

/-! ## The way into a directory -/

/-- The places of a path that leads into a directory, the directory included. -/
def wayInto (t : FileTree) (base : String) : List Place := t.wayOf base ++ [t.goal base]

theorem startOf_mem_wayInto (t : FileTree) (base : String) : t.startOf base ∈ t.wayInto base := by
  rw [wayInto, wayOf, goal]
  cases Path.steps base with
  | nil => exact List.mem_singleton_self _
  | cons name rest => exact List.mem_cons_self

theorem wayInto_congr {path : String} (hstart : t'.startOf path = t.startOf path) :
    t'.wayInto path = t.wayInto path := by
  rw [wayInto, wayInto, wayOf_congr hstart, goal_congr hstart]

theorem goal_mem_wayInto (t : FileTree) (path : String) : t.goal path ∈ t.wayInto path :=
  List.mem_append_right _ (List.mem_singleton_self _)

/-- What a path leaves upwards lies on its way. -/
theorem turnsOf_subset_wayInto (t : FileTree) (path : String) : t.turnsOf path ⊆ t.wayInto path :=
  List.Subset.trans turns_subset_passed (List.subset_append_left _ _)

/-- **A path leads into a directory if its whole way is one of directories.** -/
theorem Regular.leadsInto_iff (h : t.Regular) : t.LeadsInto base d ↔
    (∀ q ∈ t.wayInto base, t.lookup q = some .directory) ∧
      (∀ n ∈ Path.steps base, n.utf8ByteSize ≤ maxNameBytes) ∧ d = t.goal base := by
  rw [LeadsInto, h.walkFrom_eq_ok_iff (h.sound.lookup_startOf base), wayInto, List.forall_mem_append,
    List.forall_mem_singleton, goal, arrive]
  constructor
  · rintro ⟨hway, hnames, hW⟩
    cases he : t.lookup (reach (t.startOf base) (Path.steps base)) with
    | none => simp [he] at hW
    | some e =>
      simp only [he, Walk.found.injEq] at hW
      exact ⟨⟨hway, congrArg some hW.2.symm⟩, hnames, hW.1⟩
  · rintro ⟨⟨hway, he⟩, hnames, rfl⟩
    exact ⟨hway, hnames, by rw [he]⟩

/-- Where a name below a path leads. -/
theorem goal_join (t : FileTree) (base : String) (hn : Path.IsName n) :
    t.goal (Path.join base n) = t.goal base ++ [n] := by
  rw [goal, goal, Path.steps_join base hn, reach_append, startOf, startOf, Path.isAbsolute_join base hn,
    reach_cons, reach_nil, climb, if_neg hn.ne_above]

theorem turnsOf_join (t : FileTree) (base : String) (hn : Path.IsName n) :
    t.turnsOf (Path.join base n) = t.turnsOf base := by
  rw [turnsOf, turnsOf, Path.steps_join base hn, turns_append, startOf, startOf,
    Path.isAbsolute_join base hn, turns, if_neg hn.ne_above, turns, List.append_nil]

/-! ## Edits -/

namespace Edits

theorem within (h : Edits d names t t') : Within (names.map fun n => d ++ [n]) t t' :=
  ⟨fun _ hq => h.same _ fun n hn heq =>
    hq (d ++ [n]) (List.mem_map_of_mem hn) (heq ▸ List.prefix_refl _), fun _ => h.home⟩

/-- An edit of a folder keeps a tree of files and directories one. -/
theorem regular (h : Edits d names t t') (hfolder : t.Folder base d names) (hregular : t.Regular) :
    t'.Regular := by
  refine ⟨(hfolder.edit h).sound, fun p e hp => ?_⟩
  by_cases hmem : ∃ n ∈ names, p = d ++ [n]
  · obtain ⟨n, hn, rfl⟩ := hmem
    rcases h.plain n hn with hnone | ⟨content, isPrivate, hfile⟩
    · rw [hnone] at hp
      exact nomatch hp
    · rw [hfile] at hp
      exact .inr ⟨content, isPrivate, (Option.some.inj hp).symm⟩
  · rw [h.same p fun n hn heq => hmem ⟨n, hn, heq⟩] at hp
    exact hregular.kind p e hp

end Edits

/-! ## Sites -/

/-- **A directory in which some names may be moved**: the way into it passes none of them. -/
structure Site (t : FileTree) (base : String) (d : Place) (movable : List String) : Prop where
  regular : t.Regular
  into : t.LeadsInto base d
  clear : ∀ q ∈ t.wayInto base, ∀ n ∈ movable, ¬ d ++ [n] <+: q

namespace Site

variable (h : Site t base d movable)
include h

theorem isDirectory : t.lookup d = some .directory := h.into.isDirectory h.regular.sound

theorem mono {movable' : List String} (hsub : movable' ⊆ movable) : Site t base d movable' :=
  ⟨h.regular, h.into, fun q hq n hn => h.clear q hq n (hsub hn)⟩

/-- The way into the directory passes no name that may be moved, and none that is no directory. -/
theorem apart (hnames : ∀ n ∈ names, n ∈ movable ∨ t.lookup (d ++ [n]) ≠ some .directory) :
    ∀ q ∈ t.wayInto base, ∀ p ∈ names.map fun n => d ++ [n], ¬ p <+: q := by
  intro q hq p hp hbegins
  obtain ⟨n, hn, rfl⟩ := List.mem_map.mp hp
  rcases hnames n hn with hmovable | hleaf
  · exact h.clear q hq n hmovable hbegins
  · exact hleaf (h.regular.sound.directory_of_begins hbegins
      ((h.regular.leadsInto_iff.mp h.into).1 q hq))

/-- The path leads into the directory as long as its way is one of directories. -/
theorem of_way (hregular : t'.Regular) (hstart : t'.startOf base = t.startOf base)
    (hway : ∀ q ∈ t.wayInto base, t'.lookup q = some .directory) : Site t' base d movable := by
  obtain ⟨-, hshort, hgoal⟩ := h.regular.leadsInto_iff.mp h.into
  refine ⟨hregular, hregular.leadsInto_iff.mpr ⟨?_, hshort, ?_⟩, ?_⟩
  · rwa [wayInto_congr hstart]
  · rw [goal_congr hstart, hgoal]
  · rw [wayInto_congr hstart]
    exact h.clear

section Keep

variable (hwithin : Within (names.map fun n => d ++ [n]) t t')
  (hnames : ∀ n ∈ names, n ∈ movable ∨ t.lookup (d ++ [n]) ≠ some .directory)
include hwithin hnames

/-- The path starts where it started. -/
theorem startOf_eq : t'.startOf base = t.startOf base :=
  hwithin.startOf (h.apart hnames _ (startOf_mem_wayInto t base))

/-- **The way into the directory stays**, if only names that may be moved are changed, and others that are
no directories. -/
theorem keep (hregular : t'.Regular) : Site t' base d movable :=
  h.of_way hregular (h.startOf_eq hwithin hnames) fun q hq => by
    rw [hwithin.same q (h.apart hnames q hq), (h.regular.leadsInto_iff.mp h.into).1 q hq]

end Keep

/-- An edit of names that are no directories leaves the site as it is. -/
theorem edit (hfolder : t.Folder base d names) (hedit : Edits d names t t') :
    Site t' base d movable :=
  h.keep hedit.within (fun n hn => .inr (hfolder.plain n hn).not_directory)
    (hedit.regular hfolder h.regular)

/-! ### Looking -/

theorem walk (hfits : Fits base n) :
    t.walk follows (Path.join base n) = .ok (t.arrive (d ++ [n])) := by
  have hfalse := h.into.walk_of_fits hfits
  exact h.regular.walk_eq_ok_iff.mpr (h.regular.walk_eq_ok_iff.mp hfalse)

theorem held_of_fits (hfits : Fits base n) : t.held (Path.join base n) = t.lookup (d ++ [n]) := by
  rw [held, status, h.walk hfits, arrive]
  cases t.lookup (d ++ [n]) <;> rfl

theorem held_of_not_fits (hn : Path.IsName n) (hfits : ¬ Fits base n) :
    t.held (Path.join base n) = none := by
  rw [held, status]
  cases hwalk : t.walk true (Path.join base n) with
  | error fault => rfl
  | ok W => exact absurd (h.into.fits_of_walk hn hwalk) hfits

theorem exists?_iff (hn : Path.IsName n) : t.exists? (Path.join base n) = true ↔
    Fits base n ∧ (t.lookup (d ++ [n])).isSome := by
  rw [exists?_eq_held]
  by_cases hfits : Fits base n
  · rw [h.held_of_fits hfits, and_iff_right hfits]
  · rw [h.held_of_not_fits hn hfits]
    exact ⟨nofun, fun hboth => absurd hboth.1 hfits⟩

/-- Names under which no directory lies make a folder. -/
theorem folder (hfits : ∀ n ∈ names, Fits base n)
    (hleaf : ∀ n ∈ names, t.lookup (d ++ [n]) ≠ some .directory) : t.Folder base d names :=
  ⟨h.regular.sound, h.isDirectory, fun n hn => (hfits n hn).isName, fun n hn => h.walk (hfits n hn),
    fun n hn => h.regular.isPlain (hleaf n hn)⟩

theorem folder_pair (hn : Fits base n) (hm : Fits base m)
    (hleaf : t.lookup (d ++ [n]) ≠ some .directory)
    (hleaf' : t.lookup (d ++ [m]) ≠ some .directory) : t.Folder base d [n, m] := by
  refine h.folder (by simp [hn, hm]) fun k hk => ?_
  rcases List.mem_pair.mp hk with rfl | rfl
  · exact hleaf
  · exact hleaf'

/-! ### Moving and removing -/

/-- **Moving what is there onto a free name.** -/
theorem rename (hn : Fits base n) (hm : Fits base m)
    (hsome : (t.lookup (d ++ [n])).isSome) (hfree : t.lookup (d ++ [m]) = none) :
    t.rename (Path.join base n) (Path.join base m) = .ok (t.move (d ++ [n]) (d ++ [m])) := by
  obtain ⟨e, he⟩ := Option.isSome_iff_exists.mp hsome
  simp only [FileTree.rename, h.walk hn, h.walk hm, arrive_of_some he, arrive_of_none hfree,
    endsInName_join base hn.isName, endsInName_join base hm.isName,
    Path.endsInSlash_join base hm.isName, isBelow_siblings, bind, Except.bind]
  simp

/-- **What can be moved is there, and what lies under the other name gives way.** -/
theorem rename_eq_ok (hn : Path.IsName n) (hm : Path.IsName m) (hne : n ≠ m)
    (hrun : t.rename (Path.join base n) (Path.join base m) = .ok t') :
    Fits base n ∧ Fits base m ∧ t.GivesWay (d ++ [n]) (d ++ [m]) ∧
      t' = t.move (d ++ [n]) (d ++ [m]) := by
  obtain ⟨⟨p, e, hsource, -⟩, ⟨W, htarget⟩, -⟩ := FileTree.rename_eq_ok hrun
  have hfits := h.into.fits_of_walk hn hsource
  have hfits' := h.into.fits_of_walk hm htarget
  refine ⟨hfits, hfits', ?_⟩
  simp only [FileTree.rename, h.walk hfits, h.walk hfits', endsInName_join base hn,
    endsInName_join base hm, Path.endsInSlash_join base hm, bind, Except.bind] at hrun
  rw [h.walk hfits] at hsource
  cases hthere : t.lookup (d ++ [n]) with
  | none =>
    rw [arrive_of_none hthere] at hsource
    cases hsource
  | some e =>
    cases hother : t.lookup (d ++ [m]) with
    | none =>
      simp [arrive_of_some hthere, arrive_of_none hother, isBelow_siblings] at hrun
      exact ⟨h.regular.sound.givesWay (by simp [hother]), hrun.symm⟩
    | some f =>
      simp [arrive_of_some hthere, arrive_of_some hother, isBelow_siblings, hne] at hrun
      rcases h.regular.kind _ f hother with rfl | ⟨content, isPrivate, rfl⟩
      · -- A directory takes the place of an empty one.
        rcases h.regular.kind _ e hthere with rfl | ⟨_, _, rfl⟩
        · cases hchildren : t.hasChildren (d ++ [m]) with
          | true => simp [Entry.isDirectory, hchildren] at hrun
          | false =>
            simp only [Entry.isDirectory, hchildren, if_true, Bool.false_eq_true, if_false] at hrun
            rw [if_neg (by decide), Except.ok.injEq] at hrun
            exact ⟨⟨fun r hr => lookup_of_not_hasChildren hchildren hr, fun _ => hthere⟩, hrun.symm⟩
        · simp [Entry.isDirectory] at hrun
      · refine ⟨h.regular.sound.givesWay (by simp [hother]), ?_⟩
        rcases h.regular.kind _ e hthere with rfl | ⟨_, _, rfl⟩
        · simp [Entry.isDirectory] at hrun
        · simpa [Entry.isDirectory, eq_comm] using hrun

/-- A name that can be written to fits, and is no directory. -/
theorem leaf_of_write (hn : Path.IsName n) {content : ByteArray}
    (hrun : t.write (Path.join base n) content = .ok t') :
    Fits base n ∧ t.lookup (d ++ [n]) ≠ some .directory := by
  obtain ⟨W, hwalk⟩ := exists_walk_of_write hrun
  have hfits := h.into.fits_of_walk hn hwalk
  refine ⟨hfits, fun hdir => ?_⟩
  unfold FileTree.write at hrun
  simp [h.walk hfits, arrive_of_some hdir] at hrun

/-- Directories are not removed. -/
theorem remove_directory (hn : Fits base n) (hdir : t.lookup (d ++ [n]) = some .directory) :
    t.remove (Path.join base n) = .error .isDirectory := by
  rw [FileTree.remove, h.walk hn, arrive_of_some hdir]

end Site

/-! ## What fits -/

/-- **A name that fits where a longer one fits.** -/
theorem Fits.of_le (h : Fits base n) (hm : Path.IsName m)
    (hnul : Char.ofNat 0 ∈ m.toList → Char.ofNat 0 ∈ n.toList)
    (hsize : m.utf8ByteSize ≤ n.utf8ByteSize) : Fits base m := by
  obtain ⟨front, hfront⟩ : ∃ front, ∀ {k : String}, Path.IsName k →
      Path.join base k = front ++ k := by
    by_cases hbase : (base.isEmpty || Path.endsInSlash base) = true
    · refine ⟨base, fun hk => ?_⟩
      rw [Path.join, hk.isAbsolute_eq, if_neg Bool.false_ne_true, if_pos hbase]
    · refine ⟨base ++ "/", fun hk => ?_⟩
      rw [Path.join, hk.isAbsolute_eq, if_neg Bool.false_ne_true, if_neg hbase]
  have hnone := h.no_nul
  have hpath := h.path
  rw [hfront h.isName, String.toList_append] at hnone
  rw [hfront h.isName, String.utf8ByteSize_append] at hpath
  refine ⟨hm, ?_, ?_, hsize.trans h.name⟩
  · rw [hfront hm, String.toList_append]
    simp only [List.contains_eq_mem, List.mem_append, decide_eq_false_iff_not, not_or] at hnone ⊢
    exact ⟨hnone.1, fun hmem => hnone.2 (hnul hmem)⟩
  · rw [hfront hm, String.utf8ByteSize_append]
    exact Nat.lt_of_le_of_lt (Nat.add_le_add_left hsize _) hpath

end Rollout.FileTree
