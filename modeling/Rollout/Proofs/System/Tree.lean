import Mathlib.Data.List.Induction
import Rollout.Proofs.System.Walk

/-!
# Proofs/System/Tree — files of one directory

A `Folder` is a directory of a file system with some names under which nothing lies but regular files, or
nothing at all.  Reading, writing, removing, moving and copying there succeed, and an operation `Edits` the
names it is about and nothing else; so the folder stays one, and every other path leads where it led.
-/

namespace Rollout.FileTree

variable {t t' t'' : FileTree} {p q r : Place} {e : Entry}

/-! ## What lies where after an operation -/

theorem lookup_of_ne_nil (h : p ≠ []) : t.lookup p = t.entries.lookup p := by
  rw [lookup, List.isEmpty_eq_false_iff.mpr h, if_neg Bool.false_ne_true]

/-- Leaving out entries by their place. -/
theorem lookup_filter (keep : Place → Bool) (r : Place) : ∀ l : List (Place × Entry),
    (l.filter fun x => keep x.1).lookup r = if keep r then l.lookup r else none
  | [] => by split_ifs <;> rfl
  | (k, e) :: l => by
      rw [List.filter_cons]
      by_cases hk : r = k
      · subst hk
        cases hkeep : keep r with
        | false => simp [lookup_filter keep r l, hkeep]
        | true => simp
      · have hne : (r == k) = false := beq_eq_false_iff_ne.mpr hk
        split_ifs with h h' h' <;> simp [List.lookup_cons, hne, lookup_filter keep r l, h']

theorem lookup_insert_self (h : p ≠ []) : (t.insert p e).lookup p = some e := by
  rw [lookup_of_ne_nil h]
  exact List.lookup_cons_self

theorem lookup_insert_of_ne (h : r ≠ p) : (t.insert p e).lookup r = t.lookup r := by
  rcases eq_or_ne r [] with rfl | hr
  · rfl
  have hne : (r == p) = false := beq_eq_false_iff_ne.mpr h
  rw [lookup_of_ne_nil hr, lookup_of_ne_nil hr, insert, List.lookup_cons, hne]
  exact (lookup_filter (· != p) r _).trans (if_pos (bne_iff_ne.mpr h))

theorem lookup_erase_self (h : p ≠ []) : (t.erase p).lookup p = none := by
  rw [lookup_of_ne_nil h]
  exact (lookup_filter (· != p) p _).trans (if_neg (by simp))

theorem lookup_erase_of_ne (h : r ≠ p) : (t.erase p).lookup r = t.lookup r := by
  rcases eq_or_ne r [] with rfl | hr
  · rfl
  rw [lookup_of_ne_nil hr, lookup_of_ne_nil hr]
  exact (lookup_filter (· != p) r _).trans (if_pos (bne_iff_ne.mpr h))

/-- What is carried along lies below the new place. -/
theorem carry_append (p q s : Place) : carry p q (p ++ s) = q ++ s := by
  rw [carry, if_pos (List.isPrefixOf_iff_prefix.mpr (List.prefix_append p s)), List.drop_left]

theorem carry_of_not_begins (h : ¬ p <+: r) : carry p q r = r := by
  rw [carry, if_neg fun hbegins => h (List.isPrefixOf_iff_prefix.mp hbegins)]

/-- **Moving entries renames their places**, if no entry lies at the new place or below it. -/
theorem lookup_map_carry {l : List (Place × Entry)}
    (hfree : ∀ x ∈ l, ¬ q <+: x.1) :
    (l.map fun x => (carry p q x.1, x.2)).lookup r
      = if q <+: r then l.lookup (p ++ r.drop q.length) else if p <+: r then none else l.lookup r := by
  induction l with
  | nil => split_ifs <;> rfl
  | cons x l ih =>
    obtain ⟨k, e⟩ := x
    have hk : ¬ q <+: k := hfree _ List.mem_cons_self
    have hrest := ih fun x hx => hfree x (List.mem_cons_of_mem _ hx)
    rw [List.map_cons, List.lookup_cons, hrest]
    by_cases hpk : p <+: k
    · obtain ⟨s, rfl⟩ := hpk
      rw [carry_append]
      split_ifs with hqr hpr
      · obtain ⟨s', rfl⟩ := hqr
        have hsame : (q ++ s' == q ++ s) = (p ++ s' == p ++ s) := by
          rw [Bool.eq_iff_iff, beq_iff_eq, beq_iff_eq, List.append_right_inj, List.append_right_inj]
        rw [List.drop_left, List.lookup_cons, hsame]
      · rw [beq_eq_false_iff_ne.mpr fun heq => hqr ⟨s, heq.symm⟩]
      · rw [beq_eq_false_iff_ne.mpr fun heq => hqr ⟨s, heq.symm⟩, List.lookup_cons,
          beq_eq_false_iff_ne.mpr fun heq => hpr ⟨s, heq.symm⟩]
    · rw [carry_of_not_begins hpk]
      split_ifs with hqr hpr
      · obtain ⟨s', rfl⟩ := hqr
        rw [List.drop_left, List.lookup_cons,
          beq_eq_false_iff_ne.mpr fun heq => hk ⟨s', heq⟩,
          beq_eq_false_iff_ne.mpr fun heq => hpk ⟨s', heq⟩]
      · rw [beq_eq_false_iff_ne.mpr fun heq : r = k => hpk (heq ▸ hpr)]
      · rw [List.lookup_cons]

/-- **Nothing lies below what is no directory.** -/
theorem Sound.lookup_below (h : t.Sound) (hp : t.lookup p ≠ some .directory)
    (hr : isBelow p r = true) : t.lookup r = none := by
  obtain ⟨hbegins, hne⟩ := Bool.and_eq_true_iff.mp hr
  obtain ⟨names, rfl⟩ := List.isPrefixOf_iff_prefix.mp hbegins
  have hnames : names ≠ [] := by
    rintro rfl
    exact bne_iff_ne.mp hne (List.append_nil p).symm
  clear hr hbegins hne
  induction names using List.reverseRecOn with
  | nil => exact absurd rfl hnames
  | append_singleton names name ih =>
    rw [← List.append_assoc]
    refine Option.not_isSome_iff_eq_none.mp fun hsome => ?_
    have habove := h.lodged _ _ hsome
    rcases eq_or_ne names [] with rfl | hrest
    · exact hp (by rwa [List.append_nil] at habove)
    · rw [ih hrest] at habove
      exact nomatch habove

/-- **What lies where after a move.** -/
theorem lookup_move (hpq : ¬ p <+: q) (hqp : ¬ q <+: p)
    (hbare : ∀ r, isBelow q r = true → t.lookup r = none) :
    (t.move p q).lookup r
      = if q <+: r then t.lookup (p ++ r.drop q.length) else if p <+: r then none else t.lookup r := by
  have hp : p ≠ [] := fun hnil => hpq (hnil ▸ List.nil_prefix)
  have hq : q ≠ [] := fun hnil => hqp (hnil ▸ List.nil_prefix)
  rcases eq_or_ne r [] with rfl | hr
  · rw [if_neg fun h => hq (List.prefix_nil.mp h), if_neg fun h => hp (List.prefix_nil.mp h)]
    rfl
  have hcut (r : Place) : (t.entries.filter fun x => x.1 != q).lookup r
      = if r != q then t.entries.lookup r else none := lookup_filter (· != q) r _
  have hfree : ∀ x ∈ t.entries.filter fun x => x.1 != q, ¬ q <+: x.1 := by
    intro x hx hbegins
    obtain ⟨hmem, hne⟩ := List.mem_filter.mp hx
    have hxne : x.1 ≠ [] := fun hnil => hq (List.prefix_nil.mp (hnil ▸ hbegins))
    have hbelow : isBelow q x.1 = true :=
      Bool.and_eq_true_iff.mpr ⟨List.isPrefixOf_iff_prefix.mpr hbegins,
        bne_iff_ne.mpr (Ne.symm (bne_iff_ne.mp hne))⟩
    have hnone := hbare x.1 hbelow
    rw [lookup_of_ne_nil hxne, List.lookup_eq_none_iff] at hnone
    exact absurd (hnone x hmem) (by simp)
  rw [lookup_of_ne_nil hr, move, lookup_map_carry hfree, hcut, hcut]
  split_ifs with hqr hmoved hpr hne
  · rw [lookup_of_ne_nil (List.append_ne_nil_of_left_ne_nil hp _)]
  · exact absurd ⟨_, bne_eq_false_iff_eq.mp (Bool.not_eq_true _ ▸ hmoved)⟩ hpq
  · rfl
  · rw [lookup_of_ne_nil hr]
  · exact absurd (bne_eq_false_iff_eq.mp (Bool.not_eq_true _ ▸ hne) ▸ List.prefix_rfl) hqr

/-- No name of a directory lies below another one. -/
theorem isBelow_siblings (d : Place) (n m : String) : isBelow (d ++ [n]) (d ++ [m]) = false := by
  refine Bool.eq_false_iff.mpr fun hbelow => ?_
  obtain ⟨hbegins, hne⟩ := Bool.and_eq_true_iff.mp hbelow
  exact bne_iff_ne.mp hne ((List.isPrefixOf_iff_prefix.mp hbegins).eq_of_length (by simp))

/-- The last of the pieces of a path that are not empty. -/
theorem getLast?_pieces {front last : List Char} (hfront : front = [] ∨ front.getLast? = some '/')
    (hslash : '/' ∉ last) (hempty : last ≠ []) :
    ((Path.pieces (front ++ last)).filter fun p => !p.isEmpty).getLast? = some last := by
  rw [Path.pieces, Text.splitAt_eq_splitOn]
  rcases hfront with rfl | hfront
  · rw [List.nil_append, List.splitOn_eq_singleton hslash]
    simp [hempty]
  · obtain ⟨before, rfl⟩ := List.getLast?_eq_some_iff.mp hfront
    rw [List.append_assoc, List.singleton_append, List.splitOn_append_cons_self,
      List.splitOn_eq_singleton hslash, List.filter_append,
      List.filter_cons_of_pos (by simpa using hempty), List.filter_nil, List.getLast?_concat]

/-- A path that ends in a name can be moved, and moved onto. -/
theorem endsInName_join (base : String) {name : String} (h : Path.IsName name) :
    endsInName (Path.join base name) = true := by
  obtain ⟨cs, hcs, hslash⟩ := Path.exists_toList_join base h
  have hempty : name.toList ≠ [] := fun heq => h.ne_empty (String.toList_eq_nil_iff.mp heq)
  rw [endsInName, hcs, getLast?_pieces hslash h.no_slash hempty]
  have hhere : name.toList ≠ ['.'] := fun heq => h.ne_here (String.toList_injective heq)
  have habove : name.toList ≠ ['.', '.'] := fun heq => h.ne_above (String.toList_injective heq)
  simp [hhere, habove]

/-- **A path that can be moved onto and ends in no slash is a name below a path.** -/
theorem exists_name_of_endsInName {path : String} (hname : endsInName path = true)
    (hslash : Path.endsInSlash path = false) :
    ∃ base name, Path.IsName name ∧ Path.join base name = path := by
  obtain ⟨base, last, hjoin, hnone, hpath, hfront⟩ := Path.exists_join path
  have hempty : last.toList ≠ [] := by
    intro hnil
    rw [hnil, List.append_nil] at hpath
    rcases hfront with hbase | hbase
    · rw [hbase] at hpath
      rw [endsInName, hpath] at hname
      exact absurd hname (by decide)
    · rw [Path.endsInSlash, hpath, hbase] at hslash
      exact absurd hslash (by decide)
  rw [endsInName, hpath, getLast?_pieces hfront hnone hempty, Bool.and_eq_true] at hname
  refine ⟨base, last, ⟨?_, ?_, ?_, hnone⟩, hjoin⟩ <;> rintro rfl
  · exact hempty rfl
  · exact absurd hname.1 (by decide)
  · exact absurd hname.2 (by decide)

/-! ## Folders -/

/-- **Nothing lies at the place, or a regular file.** -/
def IsPlain (t : FileTree) (p : Place) : Prop :=
  t.lookup p = none ∨ ∃ content isPrivate, t.lookup p = some (.file content isPrivate)

instance : Decidable (t.IsPlain p) :=
  match h : t.lookup p with
  | none => .isTrue (.inl h)
  | some (.file content isPrivate) => .isTrue (.inr ⟨content, isPrivate, h⟩)
  | some .directory | some (.link _) | some (.socket _) => .isFalse (by simp [IsPlain, h])

theorem IsPlain.not_directory (h : t.IsPlain p) : t.lookup p ≠ some .directory := by
  rcases h with h | ⟨_, _, h⟩ <;> rw [h] <;> exact nofun

theorem IsPlain.not_link (h : t.IsPlain p) : ¬ t.IsLink p := by
  rintro ⟨target, hlink⟩
  rcases h with h | ⟨_, _, h⟩ <;> rw [h] at hlink <;> exact nomatch hlink

/-- What lies at a plain place is a file. -/
theorem IsPlain.exists_file (h : t.IsPlain p) (hsome : (t.lookup p).isSome) :
    ∃ content isPrivate, t.lookup p = some (.file content isPrivate) := by
  rcases h with h | h
  · rw [h] at hsome
    exact nomatch hsome
  · exact h

/-- What is read is what the file at the place holds. -/
theorem read_eq_ok_iff {path : String} {content : ByteArray} : t.read path = .ok content ↔
    ∃ p isPrivate, t.walk true path = .ok (.found p (.file content isPrivate)) := by
  rw [read]
  cases t.walk true path with
  | error fault => simp
  | ok W =>
    cases W with
    | free p => simp
    | found p e => cases e <;> simp

/-- **A directory with names under which nothing but regular files lies.**  The path `base` leads into
it. -/
structure Folder (t : FileTree) (base : String) (d : Place) (names : List String) : Prop where
  sound : t.Sound
  isDirectory : t.lookup d = some .directory
  isName : ∀ n ∈ names, Path.IsName n
  leads : ∀ n ∈ names, t.walk false (Path.join base n) = .ok (t.arrive (d ++ [n]))
  plain : ∀ n ∈ names, t.IsPlain (d ++ [n])

/-- **What lies under some names of a directory may be different**, and nothing else.  Nothing but
regular files comes to lie there. -/
structure Edits (d : Place) (names : List String) (t t' : FileTree) : Prop where
  home : t'.home = t.home
  same : ∀ p, (∀ n ∈ names, p ≠ d ++ [n]) → t'.lookup p = t.lookup p
  plain : ∀ n ∈ names, t'.IsPlain (d ++ [n])

namespace Edits

variable {d : Place} {names names' : List String}

theorem trans (h : Edits d names t t') (h' : Edits d names t' t'') : Edits d names t t'' :=
  ⟨h'.home.trans h.home, fun p hp => (h'.same p hp).trans (h.same p hp), h'.plain⟩

/-- What lies under other names is not edited. -/
theorem lookup_of_notMem (h : Edits d names t t') {n : String} (hn : n ∉ names) :
    t'.lookup (d ++ [n]) = t.lookup (d ++ [n]) := by
  refine h.same _ fun m hm heq => hn ?_
  obtain rfl : n = m := by simpa using heq
  exact hm

/-- An edit of some names is one of more names, where nothing but regular files lies either. -/
theorem mono (h : Edits d names t t') (hsub : names ⊆ names')
    (hplain : ∀ n ∈ names', t.IsPlain (d ++ [n])) : Edits d names' t t' := by
  refine ⟨h.home, fun p hp => h.same p fun n hn => hp n (hsub hn), fun n hn => ?_⟩
  by_cases hmem : n ∈ names
  · exact h.plain n hmem
  · rw [IsPlain, h.lookup_of_notMem hmem]
    exact hplain n hn

end Edits

namespace Folder

variable {base : String} {d : Place} {names : List String} {n m : String}
  (h : t.Folder base d names)
include h

theorem edits_refl : Edits d names t t := ⟨rfl, fun _ _ => rfl, h.plain⟩

/-- **An edit keeps the directories and the links.** -/
theorem keeps (hedit : Edits d names t t') : Keeps t t' := by
  have hsame {p : Place} (hp : ¬ t.IsPlain p ∨ ¬ t'.IsPlain p) : t'.lookup p = t.lookup p := by
    refine hedit.same p fun n hn heq => ?_
    rcases hp with hp | hp
    · exact hp (heq ▸ h.plain n hn)
    · exact hp (heq ▸ hedit.plain n hn)
  refine ⟨hedit.home, fun p hp => ?_, fun p target => ⟨fun hp => ?_, fun hp => ?_⟩⟩
  · rw [hsame (.inl fun hplain => hplain.not_directory hp), hp]
  · rw [← hsame (.inr fun hplain => hplain.not_link ⟨target, hp⟩), hp]
  · rw [hsame (.inl fun hplain => hplain.not_link ⟨target, hp⟩), hp]

/-- **A folder stays one.** -/
theorem edit (hedit : Edits d names t t') : t'.Folder base d names := by
  have hkeeps := h.keeps hedit
  refine ⟨⟨?_, fun p name hsome => ?_⟩, hkeeps.directory d h.isDirectory, h.isName, fun n hn => ?_,
    hedit.plain⟩
  · rw [hedit.home]
    exact hkeeps.directory _ h.sound.home
  · by_cases hp : ∃ n ∈ names, p ++ [name] = d ++ [n]
    · obtain ⟨n, -, heq⟩ := hp
      rw [(List.append_inj' heq rfl).1]
      exact hkeeps.directory d h.isDirectory
    · rw [hedit.same _ fun n hn heq => hp ⟨n, hn, heq⟩] at hsome
      exact hkeeps.directory p (h.sound.lodged p name hsome)
  · have hwalk := hkeeps.walk h.sound (Path.endsInSlash_join base (h.isName n hn)) (.inl rfl)
      (h.leads n hn)
    rwa [place_arrive] at hwalk

/-- Fewer names make a folder, too. -/
theorem sub {names' : List String} (hsub : names' ⊆ names) : t.Folder base d names' :=
  ⟨h.sound, h.isDirectory, fun n hn => h.isName n (hsub hn), fun n hn => h.leads n (hsub hn),
    fun n hn => h.plain n (hsub hn)⟩

/-- The last name is no link, so following it changes nothing. -/
theorem walk_true (hn : n ∈ names) :
    t.walk true (Path.join base n) = .ok (t.arrive (d ++ [n])) := by
  have hwalk := (Keeps.refl t).walk h.sound (Path.endsInSlash_join base (h.isName n hn))
    (.inr ⟨rfl, by rw [place_arrive]; exact (h.plain n hn).not_link⟩) (h.leads n hn)
  rwa [place_arrive] at hwalk

/-! ### Looking -/

theorem exists?_eq (hn : n ∈ names) :
    t.exists? (Path.join base n) = (t.lookup (d ++ [n])).isSome := by
  rw [exists?, status, h.walk_true hn, arrive]
  cases t.lookup (d ++ [n]) <;> rfl

theorem read_of_file (hn : n ∈ names) {content : ByteArray} {isPrivate : Bool}
    (hfile : t.lookup (d ++ [n]) = some (.file content isPrivate)) :
    t.read (Path.join base n) = .ok content := by
  rw [read, h.walk_true hn, arrive_of_some hfile]

/-! ### Changing what lies there -/

omit h

theorem insert_edits (t : FileTree) (d : Place) (n : String) (content : ByteArray)
    (isPrivate : Bool) : Edits d [n] t (t.insert (d ++ [n]) (.file content isPrivate)) := by
  refine ⟨rfl, fun p hp => lookup_insert_of_ne (hp n List.mem_cons_self), fun m hm => ?_⟩
  obtain rfl := List.mem_singleton.mp hm
  exact .inr ⟨content, isPrivate, lookup_insert_self (by simp)⟩

theorem erase_edits (t : FileTree) (d : Place) (n : String) :
    Edits d [n] t (t.erase (d ++ [n])) := by
  refine ⟨rfl, fun p hp => lookup_erase_of_ne (hp n List.mem_cons_self), fun m hm => ?_⟩
  obtain rfl := List.mem_singleton.mp hm
  exact .inl (lookup_erase_self (by simp))

include h

/-- **Writing a file.** -/
theorem write (hn : n ∈ names) (content : ByteArray) :
    ∃ t', t.write (Path.join base n) content = .ok t' ∧ Edits d [n] t t' ∧
      ∃ isPrivate, t'.lookup (d ++ [n]) = some (.file content isPrivate) := by
  have hslash := Path.endsInSlash_join base (h.isName n hn)
  rcases h.plain n hn with hnone | ⟨_, isPrivate, hfile⟩
  · refine ⟨_, ?_, insert_edits t d n content false, false, lookup_insert_self (by simp)⟩
    simp only [FileTree.write, h.walk_true hn, arrive_of_none hnone, hslash, Bool.false_eq_true,
      if_false]
  · refine ⟨_, ?_, insert_edits t d n content isPrivate, isPrivate, lookup_insert_self (by simp)⟩
    simp only [FileTree.write, h.walk_true hn, arrive_of_some hfile]

/-- **Removing a file that is there.** -/
theorem remove (hn : n ∈ names) (hsome : (t.lookup (d ++ [n])).isSome) :
    ∃ t', t.remove (Path.join base n) = .ok t' ∧ Edits d [n] t t' ∧
      t'.lookup (d ++ [n]) = none := by
  obtain ⟨content, isPrivate, hfile⟩ := (h.plain n hn).exists_file hsome
  refine ⟨_, ?_, erase_edits t d n, lookup_erase_self (by simp)⟩
  simp only [FileTree.remove, h.leads n hn, arrive_of_some hfile]

/-- **Copying a part of a file that is there.** -/
theorem copyCut (cut : ByteArray → ByteArray) (hn : n ∈ names) (hm : m ∈ names)
    {content : ByteArray} {isPrivate : Bool}
    (hfile : t.lookup (d ++ [n]) = some (.file content isPrivate)) :
    ∃ t', t.copyCut cut (Path.join base n) (Path.join base m) = .ok t' ∧ Edits d [m] t t' ∧
      ∃ isPrivate', t'.lookup (d ++ [m]) = some (.file (cut content) isPrivate') := by
  obtain ⟨t₁, hwrite, hedit, isPrivate₁, hcopied⟩ := h.write hm (cut content)
  have hstatus : t.status (Path.join base n) = .ok (.file content isPrivate) := by
    rw [status, h.walk_true hn, arrive_of_some hfile]
  cases isPrivate with
  | false =>
    refine ⟨t₁, ?_, hedit, isPrivate₁, hcopied⟩
    simp only [FileTree.copyCut, hstatus, hwrite, Bool.false_eq_true, if_false]
  | true =>
    have hfolder := (h.sub (by simpa using hm)).edit hedit
    refine ⟨_, ?_, hedit.trans (insert_edits t₁ d m (cut content) true), true,
      lookup_insert_self (by simp)⟩
    simp only [FileTree.copyCut, hstatus, hwrite, if_true, makePrivate,
      hfolder.walk_true (List.mem_singleton_self m), arrive_of_some hcopied]

/-- **Copying a file that is there.** -/
theorem copy (hn : n ∈ names) (hm : m ∈ names) {content : ByteArray} {isPrivate : Bool}
    (hfile : t.lookup (d ++ [n]) = some (.file content isPrivate)) :
    ∃ t', t.copy (Path.join base n) (Path.join base m) = .ok t' ∧ Edits d [m] t t' ∧
      ∃ isPrivate', t'.lookup (d ++ [m]) = some (.file content isPrivate') :=
  h.copyCut id hn hm hfile

/-- **Moving a file that is there.** -/
theorem rename (hn : n ∈ names) (hm : m ∈ names) (hne : n ≠ m)
    (hsome : (t.lookup (d ++ [n])).isSome) :
    ∃ t', t.rename (Path.join base n) (Path.join base m) = .ok t' ∧ Edits d [n, m] t t' ∧
      t'.lookup (d ++ [n]) = none ∧ t'.lookup (d ++ [m]) = t.lookup (d ++ [n]) := by
  obtain ⟨content, isPrivate, hfile⟩ := (h.plain n hn).exists_file hsome
  have hapart {k l : String} (hkl : k ≠ l) : ¬ d ++ [k] <+: d ++ [l] := fun hbegins =>
    hkl (by simpa using hbegins.eq_of_length (by simp))
  have hmoved (r : Place) : (t.move (d ++ [n]) (d ++ [m])).lookup r
      = if d ++ [m] <+: r then t.lookup (d ++ [n] ++ r.drop (d ++ [m]).length)
        else if d ++ [n] <+: r then none else t.lookup r :=
    lookup_move (hapart hne) (hapart hne.symm) fun r hr =>
      h.sound.lookup_below (h.plain m hm).not_directory hr
  have hnew : (t.move (d ++ [n]) (d ++ [m])).lookup (d ++ [m]) = t.lookup (d ++ [n]) := by
    rw [hmoved, if_pos List.prefix_rfl, List.drop_length, List.append_nil]
  have hold : (t.move (d ++ [n]) (d ++ [m])).lookup (d ++ [n]) = none := by
    rw [hmoved, if_neg (hapart hne.symm), if_pos List.prefix_rfl]
  -- Below neither name there is anything, and relative paths start in a directory.
  have hbare {k : String} {r : Place} (hk : k ∈ names) (hbegins : d ++ [k] <+: r)
      (hr : r ≠ d ++ [k]) : t.lookup r = none :=
    h.sound.lookup_below (h.plain k hk).not_directory
      (Bool.and_eq_true_iff.mpr ⟨List.isPrefixOf_iff_prefix.mpr hbegins, bne_iff_ne.mpr hr.symm⟩)
  refine ⟨t.move (d ++ [n]) (d ++ [m]), ?_, ⟨?_, fun p hp => ?_, fun k hk => ?_⟩, hold, hnew⟩
  · have hnames : (!endsInName (Path.join base n) || !endsInName (Path.join base m)) = false := by
      rw [endsInName_join base (h.isName n hn), endsInName_join base (h.isName m hm)]
      rfl
    simp only [FileTree.rename, h.leads n hn, h.leads m hm, arrive_of_some hfile, hnames,
      Path.endsInSlash_join base (h.isName m hm), Entry.isDirectory, bind, Except.bind]
    rcases h.plain m hm with hnone | ⟨_, _, hthere⟩
    · simp [arrive_of_none hnone, isBelow_siblings]
    · simp [arrive_of_some hthere, isBelow_siblings, hne]
  · refine carry_of_not_begins fun hbegins => ?_
    rcases eq_or_ne t.home (d ++ [n]) with heq | hhome
    · exact (h.plain n hn).not_directory (heq ▸ h.sound.home)
    · cases (hbare hn hbegins hhome).symm.trans h.sound.home
  · rw [hmoved]
    split_ifs with hbelow hbelow'
    · obtain ⟨s, rfl⟩ := hbelow
      have hs : s ≠ [] := fun hnil => hp m (by simp) (by rw [hnil, List.append_nil])
      rw [List.drop_left, hbare hn (List.prefix_append _ _) (by simpa using hs),
        hbare hm (List.prefix_append _ _) (by simpa using hs)]
    · exact (hbare hn hbelow' (hp n (by simp))).symm
    · rfl
  · rcases List.mem_cons.mp hk with rfl | hk
    · exact .inl hold
    · obtain rfl := List.mem_singleton.mp hk
      exact .inr ⟨content, isPrivate, hnew.trans hfile⟩

end Folder

/-! ## Making directories -/

/-- **A tree with more directories**, and nothing else is different. -/
structure Grows (t t' : FileTree) : Prop where
  home : t'.home = t.home
  old : ∀ p e, t.lookup p = some e → t'.lookup p = some e
  new : ∀ p e, t'.lookup p = some e → t.lookup p = some e ∨ e = .directory

namespace Grows

theorem refl (t : FileTree) : Grows t t := ⟨rfl, fun _ _ => id, fun _ _ => .inl⟩

theorem trans (h : Grows t t') (h' : Grows t' t'') : Grows t t'' :=
  ⟨h'.home.trans h.home, fun p e hp => h'.old p e (h.old p e hp),
    fun p e hp => (h'.new p e hp).elim (h.new p e) .inr⟩

theorem keeps (h : Grows t t') : Keeps t t' :=
  ⟨h.home, fun p hp => h.old p _ hp, fun p _ =>
    ⟨fun hp => (h.new p _ hp).resolve_right nofun, fun hp => h.old p _ hp⟩⟩

theorem insert_directory (h : t.IsFree p) : Grows t (t.insert p .directory) := by
  obtain ⟨hnone, d, name, rfl, hd⟩ := h
  refine ⟨rfl, fun r e hr => ?_, fun r e hr => ?_⟩
  · rwa [lookup_insert_of_ne]
    rintro rfl
    rw [hnone] at hr
    exact nomatch hr
  · rcases eq_or_ne r (d ++ [name]) with rfl | hne
    · rw [lookup_insert_self (by simp)] at hr
      exact .inr (Option.some.inj hr).symm
    · rw [lookup_insert_of_ne hne] at hr
      exact .inl hr

end Grows

theorem Sound.insert_directory (hsound : t.Sound) (h : t.IsFree p) :
    (t.insert p .directory).Sound := by
  have hgrows := Grows.insert_directory h
  obtain ⟨hnone, d, name, rfl, hd⟩ := h
  refine ⟨hgrows.old _ _ hsound.home, fun q m hsome => ?_⟩
  rcases eq_or_ne (q ++ [m]) (d ++ [name]) with heq | hne
  · rw [(List.append_inj' heq rfl).1]
    exact hgrows.old _ _ hd
  · rw [lookup_insert_of_ne hne] at hsome
    exact hgrows.old _ _ (hsound.lodged q m hsome)

/-- A directory is made where nothing lay. -/
theorem exists_of_createDirectory {path : String} (h : t.createDirectory path = .ok t') : ∃ p,
    t.walk false (if Path.endsInSlash path then (Path.parent? (path ++ "x")).getD path else path)
      = .ok (.free p) ∧ t' = t.insert p .directory := by
  unfold createDirectory at h
  cases hwalk : t.walk false
      (if Path.endsInSlash path then (Path.parent? (path ++ "x")).getD path else path) with
  | error fault => simp [hwalk] at h
  | ok W =>
    cases W with
    | found p e => simp [hwalk] at h
    | free p =>
      simp only [hwalk, Except.ok.injEq] at h
      exact ⟨p, rfl, h.symm⟩

/-- A directory that is ensured is made, or is there already. -/
theorem ensureDirectory_cases {path : String} (h : t.ensureDirectory path = .ok t') :
    t.createDirectory path = .ok t' ∨ t' = t := by
  unfold ensureDirectory at h
  cases hcreate : t.createDirectory path with
  | ok t₁ =>
    simp only [hcreate, Except.ok.injEq] at h
    exact .inl (congrArg _ h)
  | error fault =>
    simp only [hcreate] at h
    split_ifs at h
    exact .inr (Except.ok.inj h).symm

/-- **Directories are made from the outside inwards.** -/
theorem createAll_cases {path : String} {outer : List String}
    (h : t.createAll (path :: outer) = .ok t') : t' = t ∨
      ∃ t₁, (t₁ = t ∨ t.createAll outer = .ok t₁) ∧ t₁.ensureDirectory path = .ok t' := by
  unfold createAll at h
  split_ifs at h
  · exact .inl (Except.ok.inj h).symm
  split at h
  · cases houter : t.createAll outer with
    | error fault =>
      rw [houter] at h
      exact nomatch h
    | ok t₁ =>
      rw [houter] at h
      exact .inr ⟨t₁, .inr rfl, h⟩
  · exact .inr ⟨t, .inl rfl, h⟩

/-- What is there after making directories failed: the outer ones, as far as they were made. -/
theorem leftover_cases (path : String) (outer : List String) :
    t.leftover (path :: outer) = t ∨ t.leftover (path :: outer) = t.leftover outer ∨
      t.createAll outer = .ok (t.leftover (path :: outer)) := by
  generalize hfewer : t.leftover outer = fewer
  unfold leftover
  rw [hfewer]
  split
  · cases houter : t.createAll outer with
    | error fault => exact .inr (.inl rfl)
    | ok t₁ => exact .inr (.inr rfl)
  · exact .inl rfl

theorem createDirectory_spec {path : String} (hsound : t.Sound)
    (h : t.createDirectory path = .ok t') : Grows t t' ∧ t'.Sound := by
  obtain ⟨p, hwalk, rfl⟩ := exists_of_createDirectory h
  exact ⟨.insert_directory (walk_free hwalk), hsound.insert_directory (walk_free hwalk)⟩

theorem ensureDirectory_spec {path : String} (hsound : t.Sound)
    (h : t.ensureDirectory path = .ok t') : Grows t t' ∧ t'.Sound := by
  obtain hcreate | rfl := ensureDirectory_cases h
  · exact createDirectory_spec hsound hcreate
  · exact ⟨.refl _, hsound⟩

theorem createAll_spec : ∀ {paths : List String} {t t' : FileTree}, t.Sound →
    t.createAll paths = .ok t' → Grows t t' ∧ t'.Sound
  | [], t, t', hsound, h => by
      obtain rfl := Except.ok.inj h
      exact ⟨.refl t, hsound⟩
  | path :: outer, t, t', hsound, h => by
      obtain rfl | ⟨t₁, rfl | houter, hensure⟩ := createAll_cases h
      · exact ⟨.refl _, hsound⟩
      · exact ensureDirectory_spec hsound hensure
      · obtain ⟨hgrows, hsound₁⟩ := createAll_spec hsound houter
        obtain ⟨hgrows', hsound'⟩ := ensureDirectory_spec hsound₁ hensure
        exact ⟨hgrows.trans hgrows', hsound'⟩

/-- What is there after making directories failed has more directories, too. -/
theorem leftover_spec (hsound : t.Sound) : ∀ paths : List String,
    Grows t (t.leftover paths) ∧ (t.leftover paths).Sound
  | [] => ⟨.refl t, hsound⟩
  | path :: outer => by
      obtain hnone | hfewer | hall := leftover_cases (t := t) path outer
      · rw [hnone]
        exact ⟨.refl t, hsound⟩
      · rw [hfewer]
        exact leftover_spec hsound outer
      · exact createAll_spec hsound hall

/-- **Making directories makes directories**, and changes nothing else. -/
theorem createDirectories_spec {path : String} (hsound : t.Sound)
    (h : t.createDirectories path = .ok t') : Grows t t' ∧ t'.Sound := createAll_spec hsound h

end Rollout.FileTree
