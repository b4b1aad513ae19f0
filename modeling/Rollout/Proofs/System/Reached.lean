import Rollout.Proofs.System.Directory
import Rollout.Proofs.System.Within

/-!
# Proofs/System/Reached — what becomes of one file

A path that a kernel walks to its end, with no slash behind it, reaches its goal among files and directories
(`Regular.reaches_of_walk`).  It does so still when something other than a directory comes or goes anywhere
(`Reaches.keep`).  So each operation on a file is one change at its goal, and moving it is two.
-/

namespace Rollout.FileTree

variable {t t' : FileTree} {p : Place} {e : Entry} {path source target : String} {follows : Bool}
  {W : Walk} {content : ByteArray} {isPrivate : Bool}

/-! ## One place -/

/-- **What is put at a place last lies there.** -/
theorem insert_insert (t : FileTree) (p : Place) (e e' : Entry) :
    (t.insert p e).insert p e' = t.insert p e' := by
  rw [insert, insert, insert]
  simp

/-- What is put at a place and taken away again is as good as taken away. -/
theorem erase_insert (t : FileTree) (p : Place) (e : Entry) : (t.insert p e).erase p = t.erase p := by
  rw [insert, erase, erase]
  simp

/-! ## Reaching a place -/

/-- **A path that leads to its goal**, through directories all the way. -/
structure Reaches (t : FileTree) (path : String) : Prop where
  accepted : Accepted path
  way : ∀ q ∈ t.wayOf path, t.lookup q = some .directory
  slash : Path.endsInSlash path = false

/-- **Who can be walked to is reached.** -/
theorem Regular.reaches_of_walk (h : t.Regular) (hslash : Path.endsInSlash path = false)
    (hwalk : t.walk follows path = .ok W) : t.Reaches path ∧ W = t.arrive (t.goal path) := by
  obtain ⟨haccepted, hway, -, hW⟩ := h.walk_eq_ok_iff.mp hwalk
  exact ⟨⟨haccepted, hway, hslash⟩, hW⟩

namespace Reaches

/-- **A path is reached as long as no directory goes.** -/
theorem keep (hpath : t.Reaches path) (hhome : t'.home = t.home)
    (hdirectories : ∀ q, t.lookup q = some .directory → t'.lookup q = some .directory) :
    t'.Reaches path := by
  have hstart : t'.startOf path = t.startOf path := by rw [startOf, startOf, hhome]
  refine ⟨hpath.accepted, fun q hq => ?_, hpath.slash⟩
  rw [wayOf_congr hstart] at hq
  exact hdirectories q (hpath.way q hq)

variable (hpath : t.Reaches path) (h : t.Regular)
include hpath h

theorem walk (follows : Bool) : t.walk follows path = .ok (t.arrive (t.goal path)) :=
  h.walk_eq_ok_iff.mpr ⟨hpath.accepted, hpath.way, by rw [hpath.slash]; exact nofun, rfl⟩

/-- What lies at a path that is reached lies at its goal. -/
theorem held_eq : t.held path = t.lookup (t.goal path) := by
  rw [held, status, hpath.walk h]
  cases he : t.lookup (t.goal path) with
  | none =>
    rw [arrive_of_none he]
    rfl
  | some e =>
    rw [arrive_of_some he]
    rfl

/-- What is reached, and is no directory, lies in one. -/
theorem directory (hleaf : t.lookup (t.goal path) ≠ some .directory) :
    t.lookup (t.goal path).dropLast = some .directory := by
  cases he : t.lookup (t.goal path) with
  | none =>
    have hwalk := hpath.walk h false
    rw [arrive_of_none he] at hwalk
    obtain ⟨-, d, name, hgoal, hd⟩ := walk_free hwalk
    rwa [hgoal, List.dropLast_concat]
  | some e =>
    refine h.sound.directory_above (List.dropLast_prefix _) (fun heq => hleaf ?_) (by rw [he]; rfl)
    have hnil : t.goal path = [] := by
      by_contra hne
      have hlength := congrArg List.length heq
      rw [List.length_dropLast] at hlength
      have := List.length_pos_iff.mpr hne
      omega
    rw [hnil, lookup_nil]

/-- **A file at the goal of a path** instead of what is no directory. -/
theorem insert_regular (hleaf : t.lookup (t.goal path) ≠ some .directory) :
    (t.insert (t.goal path) (.file content isPrivate)).Regular :=
  h.insert (hpath.directory h hleaf) hleaf (.inr ⟨content, isPrivate, rfl⟩)

/-- **Making a file private.** -/
theorem makePrivate (hfile : t.lookup (t.goal path) = some (.file content isPrivate)) :
    t.makePrivate path = .ok (t.insert (t.goal path) (.file content true)) := by
  rw [FileTree.makePrivate, hpath.walk h, arrive_of_some hfile]

/-- **Removing a file.** -/
theorem remove (hfile : t.lookup (t.goal path) = some (.file content isPrivate)) :
    t.remove path = .ok (t.erase (t.goal path)) := by
  rw [FileTree.remove, hpath.walk h, arrive_of_some hfile]

end Reaches

/-- A place that is no directory is on the way to no other one. -/
theorem lookup_insert_directory (hleaf : t.lookup p ≠ some .directory) {q : Place}
    (hq : t.lookup q = some .directory) : (t.insert p e).lookup q = some .directory := by
  rwa [lookup_insert_of_ne]
  rintro rfl
  exact hleaf hq

theorem not_begins_of_not_below {q : Place} (hne : p ≠ q) (h : isBelow p q = false) : ¬ p <+: q :=
  fun hbegins => Bool.eq_false_iff.mp h (Bool.and_eq_true_iff.mpr
    ⟨List.isPrefixOf_iff_prefix.mpr hbegins, bne_iff_ne.mpr hne⟩)

/-- **Where a file is after it was moved**, and where it is not. -/
structure IsMoved (t t' : FileTree) (source target : String) (e : Entry) : Prop where
  regular : t'.Regular
  home : t'.home = t.home
  reaches_source : t'.Reaches source
  reaches_target : t'.Reaches target
  gone : t'.lookup (t.goal source) = none
  there : t'.lookup (t.goal target) = some e

namespace Regular

variable (h : t.Regular)
include h

/-- **Writing a file** puts it at the goal of its path. -/
theorem write_eq_ok (hslash : Path.endsInSlash path = false) (hrun : t.write path content = .ok t') :
    t.Reaches path ∧ t.lookup (t.goal path) ≠ some .directory ∧
      ∃ isPrivate, t' = t.insert (t.goal path) (.file content isPrivate) := by
  rw [write] at hrun
  cases hwalk : t.walk true path with
  | error fault => simp [hwalk] at hrun
  | ok W =>
    obtain ⟨hpath, rfl⟩ := h.reaches_of_walk hslash hwalk
    refine ⟨hpath, ?_⟩
    rw [hwalk] at hrun
    cases he : t.lookup (t.goal path) with
    | none =>
      simp only [arrive_of_none he, hslash, Bool.false_eq_true, if_false, Except.ok.injEq] at hrun
      exact ⟨by simp, false, hrun.symm⟩
    | some e =>
      rcases h.kind _ e he with rfl | ⟨old, isPrivate, rfl⟩
      · simp [arrive_of_some he] at hrun
      · simp only [arrive_of_some he, Except.ok.injEq] at hrun
        exact ⟨by simp, isPrivate, hrun.symm⟩

/-- **Moving a file** takes it from its place to the goal of the other path, where no directory lies. -/
theorem rename_eq_ok (hsource : t.Reaches source)
    (hfile : t.lookup (t.goal source) = some (.file content isPrivate))
    (hne : t.goal source ≠ t.goal target) (hrun : t.rename source target = .ok t') :
    t.Reaches target ∧ endsInName target = true ∧ t.lookup (t.goal target) ≠ some .directory ∧
      (¬ t.goal source <+: t.goal target ∧ ¬ t.goal target <+: t.goal source) ∧
      t' = t.move (t.goal source) (t.goal target) := by
  obtain ⟨⟨p, e, hwalk, hkind⟩, ⟨W, htarget⟩, hname⟩ := FileTree.rename_eq_ok hrun
  have hslash : Path.endsInSlash target = false := by
    rw [hsource.walk h, arrive_of_some hfile] at hwalk
    obtain ⟨rfl, rfl⟩ := Walk.found.inj (Except.ok.inj hwalk)
    exact hkind.resolve_left nofun
  obtain ⟨hreaches, rfl⟩ := h.reaches_of_walk hslash htarget
  refine ⟨hreaches, hname, ?_⟩
  rw [FileTree.rename, hsource.walk h, hreaches.walk h, arrive_of_some hfile] at hrun
  simp only [bind, Except.bind, hslash, hname, Entry.isDirectory, Bool.not_true, Bool.or_false,
    Bool.and_false, Bool.false_eq_true, if_false] at hrun
  split_ifs at hrun
  cases he : t.lookup (t.goal target) with
  | none =>
    simp only [arrive_of_none he] at hrun
    split_ifs at hrun with hbelow
    refine ⟨by simp, ⟨not_begins_of_not_below hne (Bool.not_eq_true _ ▸ hbelow), fun hbegins => ?_⟩,
      (Except.ok.inj hrun).symm⟩
    -- Nothing lies below a free place, so the file does not.
    have hdirectory := h.sound.directory_above hbegins hne.symm (by rw [hfile]; rfl)
    rw [he] at hdirectory
    cases hdirectory
  | some f =>
    simp only [arrive_of_some he, hne, if_false] at hrun
    rcases h.kind _ f he with rfl | ⟨old, wasPrivate, rfl⟩
    · simp only [if_true] at hrun
      split_ifs at hrun
    · split_ifs at hrun with hbelow habove
      exact ⟨by simp, ⟨not_begins_of_not_below hne (Bool.not_eq_true _ ▸ hbelow),
        not_begins_of_not_below hne.symm (Bool.not_eq_true _ ▸ habove)⟩, (Except.ok.inj hrun).symm⟩

theorem rename_file (hsource : t.Reaches source)
    (hfile : t.lookup (t.goal source) = some (.file content isPrivate))
    (hne : t.goal source ≠ t.goal target) (hrun : t.rename source target = .ok t') :
    IsMoved t t' source target (.file content isPrivate) ∧ endsInName target = true := by
  obtain ⟨htarget, hname, hleaf, ⟨hpq, hqp⟩, rfl⟩ := h.rename_eq_ok hsource hfile hne hrun
  -- No directory is moved, for none begins with a file.
  have hapart {q : Place} (hq : t.lookup q = some .directory) : ¬ t.goal source <+: q := fun hbegins => by
    rw [h.sound.directory_of_begins hbegins hq] at hfile
    exact nomatch hfile
  have hhome : (t.move (t.goal source) (t.goal target)).home = t.home :=
    carry_of_not_begins (hapart h.sound.home)
  have hway := h.sound.givesWay (p := t.goal source) hleaf
  have hdirectory (q : Place) (hq : t.lookup q = some .directory) :=
    hway.directory hpq hqp (hapart hq) hq
  have hthere := hway.lookup_append hpq hqp []
  rw [List.append_nil, List.append_nil, hfile] at hthere
  exact ⟨⟨h.move hpq hqp hway (htarget.directory h hleaf), hhome, hsource.keep hhome hdirectory,
    htarget.keep hhome hdirectory, hway.lookup_source hpq hqp, hthere⟩, hname⟩

end Regular

end Rollout.FileTree
