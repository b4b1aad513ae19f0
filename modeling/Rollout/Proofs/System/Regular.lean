import Rollout.Proofs.System.Tree

/-!
# Proofs/System/Regular — where paths lead without links

Among regular files and directories a path leads where its names say: down, and up at `..`.  That place is
its `goal`, whatever lies there, and it is reached if every place on the way holds a directory
(`Regular.walk_eq_ok_iff`).  A place that is passed is left upwards later on, or the goal lies below it
(`passed_cases`), so that it is enough to know of the places that are left upwards, the `turnsOf` the path.
-/

namespace Rollout.FileTree

variable {t t' : FileTree} {p q r : Place} {e : Entry} {name : String} {names rest : List String}
  {path : String} {follows : Bool} {W : Walk}

/-! ## Along names -/

/-- From a place along a name: up at `..`, down at any other one. -/
def climb (p : Place) (name : String) : Place := if name = ".." then p.dropLast else p ++ [name]

/-- **The place that names lead to.** -/
def reach (p : Place) (names : List String) : Place := names.foldl climb p

/-- The places that names are looked up in. -/
def passed (p : Place) : List String → List Place
  | [] => []
  | name :: rest => p :: passed (climb p name) rest

/-- **The places that are left upwards.** -/
def turns (p : Place) : List String → List Place
  | [] => []
  | name :: rest => if name = ".." then p :: turns p.dropLast rest else turns (p ++ [name]) rest

@[simp] theorem reach_nil (p : Place) : reach p [] = p := rfl

@[simp] theorem reach_cons (p : Place) (name : String) (rest : List String) :
    reach p (name :: rest) = reach (climb p name) rest := rfl

theorem reach_append (p : Place) (names rest : List String) :
    reach p (names ++ rest) = reach (reach p names) rest := List.foldl_append

theorem turns_append (p : Place) (names rest : List String) :
    turns p (names ++ rest) = turns p names ++ turns (reach p names) rest := by
  induction names generalizing p with
  | nil => rfl
  | cons name names ih =>
    rw [List.cons_append, turns, turns, reach_cons, climb]
    split_ifs
    · rw [ih, List.cons_append]
    · exact ih _

/-! Names without `..` only lead down. -/

theorem reach_of_downward (h : ".." ∉ names) (p : Place) : reach p names = p ++ names := by
  induction names generalizing p with
  | nil => exact (List.append_nil p).symm
  | cons name rest ih =>
    rw [List.mem_cons, not_or] at h
    rw [reach_cons, climb, if_neg (Ne.symm h.1), ih h.2, List.append_assoc, List.singleton_append]

theorem turns_of_downward (h : ".." ∉ names) (p : Place) : turns p names = [] := by
  induction names generalizing p with
  | nil => rfl
  | cons name rest ih =>
    rw [List.mem_cons, not_or] at h
    rw [turns, if_neg (Ne.symm h.1), ih h.2]

theorem length_reach_le (p : Place) (names : List String) :
    (reach p names).length ≤ p.length + names.length := by
  induction names generalizing p with
  | nil => exact Nat.le_refl _
  | cons name rest ih =>
    have hclimb : (climb p name).length ≤ p.length + 1 := by
      rw [climb]
      split_ifs
      · rw [List.length_dropLast]
        omega
      · exact Nat.le_of_eq List.length_append
    rw [reach_cons, List.length_cons]
    exact Nat.le_trans (ih _) (by omega)

/-- The places that are left later on are left. -/
theorem turns_climb_subset : turns (climb p name) rest ⊆ turns p (name :: rest) := by
  rw [turns, climb]
  split_ifs
  · exact List.subset_cons_self _ _
  · exact fun _ => id

theorem turns_subset_passed : turns p names ⊆ passed p names := by
  induction names generalizing p with
  | nil => exact List.nil_subset _
  | cons name rest ih =>
    rw [turns, passed, climb]
    split_ifs
    · exact List.cons_subset_cons p ih
    · exact List.Subset.trans ih (List.subset_cons_self _ _)

/-- What lies strictly below a place lies at its directory or below that. -/
theorem begins_dropLast (h : q <+: p) (hne : q ≠ p) : q <+: p.dropLast := by
  rcases List.eq_nil_or_concat p with rfl | ⟨d, name, rfl⟩
  · exact h
  · rw [List.concat_eq_append] at h hne ⊢
    rw [List.dropLast_concat]
    exact (List.prefix_concat_iff.mp h).resolve_left hne

/-- **Who is at a place, or below it, leaves it upwards or stays.** -/
theorem turns_or_below (names : List String) (h : q <+: p) : q ∈ turns p names ∨ q <+: reach p names := by
  induction names generalizing p with
  | nil => exact .inr h
  | cons name rest ih =>
    rw [turns, reach_cons, climb]
    split_ifs with habove
    · rcases eq_or_ne q p with rfl | hne
      · exact .inl List.mem_cons_self
      · exact (ih (begins_dropLast h hne)).imp_left (List.mem_cons_of_mem _)
    · exact ih (h.trans (List.prefix_append p [name]))

/-- **A place that names are looked up in is left upwards, or the goal lies strictly below it.** -/
theorem passed_cases (h : q ∈ passed p names) :
    (∃ r ∈ turns p names, q <+: r) ∨ q <+: reach p names ∧ q ≠ reach p names := by
  induction names generalizing p with
  | nil => exact nomatch h
  | cons name rest ih =>
    rcases List.mem_cons.mp h with rfl | h
    · rcases turns_or_below (name :: rest) (List.prefix_refl q) with hturn | hbelow
      · exact .inl ⟨q, hturn, List.prefix_refl q⟩
      by_cases habove : name = ".."
      · exact .inl ⟨q, by rw [turns, if_pos habove]; exact List.mem_cons_self, List.prefix_refl q⟩
      -- Whoever goes down first comes back only by leaving a place below.
      rcases turns_or_below rest (List.prefix_refl (q ++ [name])) with hturn | hdeep
      · refine .inl ⟨q ++ [name], ?_, List.prefix_append q [name]⟩
        rwa [turns, if_neg habove]
      · refine .inr ⟨hbelow, fun heq => ?_⟩
        rw [reach_cons, climb, if_neg habove] at heq
        have hlength := hdeep.length_le
        rw [← heq, List.length_append, List.length_singleton] at hlength
        exact absurd hlength (Nat.not_succ_le_self _)
    · refine (ih h).imp_left fun ⟨r, hr, hq⟩ => ⟨r, turns_climb_subset hr, hq⟩

/-! ## Trees of files and directories -/

/-- **A file system of regular files and directories.** -/
structure Regular (t : FileTree) : Prop where
  sound : t.Sound
  kind : ∀ p e, t.lookup p = some e →
    e = .directory ∨ ∃ content isPrivate, e = .file content isPrivate

/-- A tree is regular if all that it holds lies in a directory, and is one or a file. -/
theorem Regular.of_entries (hhome : t.lookup t.home = some .directory)
    (hlodged : ∀ q ∈ t.entries, t.lookup q.1.dropLast = some .directory)
    (hkind : ∀ q ∈ t.entries, q.2 = .directory ∨ ∃ content isPrivate, q.2 = .file content isPrivate) :
    t.Regular := by
  refine ⟨.of_entries hhome hlodged, fun p e he => ?_⟩
  rw [lookup] at he
  split_ifs at he
  · exact .inl (Option.some.inj he).symm
  · obtain ⟨before, after, hentries, -⟩ := List.lookup_eq_some_iff.mp he
    refine hkind (p, e) ?_
    rw [hentries]
    exact List.mem_append_right _ List.mem_cons_self

/-- What something lies below is a directory. -/
theorem Sound.directory_above (h : t.Sound) (hq : q <+: p) (hne : q ≠ p)
    (hp : (t.lookup p).isSome) : t.lookup q = some .directory := by
  by_contra hleaf
  rw [h.lookup_below hleaf (Bool.and_eq_true_iff.mpr
    ⟨List.isPrefixOf_iff_prefix.mpr hq, bne_iff_ne.mpr hne⟩)] at hp
  exact nomatch hp

/-- Above a directory there are directories. -/
theorem Sound.directory_of_begins (h : t.Sound) (hq : q <+: p)
    (hp : t.lookup p = some .directory) : t.lookup q = some .directory := by
  rcases eq_or_ne q p with rfl | hne
  · exact hp
  · exact h.directory_above hq hne (by rw [hp]; rfl)

namespace Regular

variable (h : t.Regular)
include h

theorem not_link (p : Place) : ¬ t.IsLink p := by
  rintro ⟨target, hp⟩
  rcases h.kind p _ hp with heq | ⟨_, _, heq⟩ <;> exact nomatch heq

/-- At each place there is a directory, a regular file or nothing. -/
theorem isPlain (hp : t.lookup p ≠ some .directory) : t.IsPlain p := by
  cases he : t.lookup p with
  | none => exact .inl he
  | some e =>
    rcases h.kind p e he with rfl | ⟨content, isPrivate, rfl⟩
    · exact absurd he hp
    · exact .inr ⟨content, isPrivate, he⟩

variable {follow : Place → List String → Except SystemFault Walk}

/-- What is no directory can only be the last place. -/
theorem enter_eq_ok_iff (hleaf : t.lookup (p ++ [name]) ≠ some .directory) :
    t.enter follows follow p name rest = .ok W ↔ rest = [] ∧ W = t.arrive (p ++ [name]) := by
  constructor
  · intro hW
    cases rest with
    | nil =>
      rw [enter_nil (h.not_link _)] at hW
      exact ⟨rfl, (Except.ok.inj hW).symm⟩
    | cons next rest =>
      unfold enter at hW
      cases he : t.lookup (p ++ [name]) with
      | none => simp [he] at hW
      | some e =>
        have hnames : next :: rest = [] := by
          rcases h.kind _ e he with rfl | ⟨content, isPrivate, rfl⟩
          · exact absurd he hleaf
          · rw [he] at hW
            exact (walkNames_of_leaf he nofun hW).1
        exact nomatch hnames
  · rintro ⟨rfl, rfl⟩
    exact enter_nil (h.not_link _)

/-- **Names lead somewhere if each is looked up in a directory**, and none is too long. -/
theorem walkNames_eq_ok_iff (hp : t.lookup p = some .directory) :
    t.walkNames follows follow p names = .ok W ↔
      (∀ q ∈ passed p names, t.lookup q = some .directory) ∧
        (∀ n ∈ names, n.utf8ByteSize ≤ maxNameBytes) ∧ W = t.arrive (reach p names) := by
  induction names generalizing p with
  | nil => simp [walkNames_nil hp, passed, eq_comm]
  | cons name rest ih =>
    rw [walkNames_cons hp, passed, List.forall_mem_cons, List.forall_mem_cons, reach_cons]
    by_cases hlong : name.utf8ByteSize > maxNameBytes
    · rw [if_pos hlong]
      exact ⟨nofun, fun hall => absurd hall.2.1.1 (Nat.not_le.mpr hlong)⟩
    rw [if_neg hlong, climb]
    simp only [hp, Nat.not_lt.mp hlong, true_and]
    split_ifs with habove
    · exact ih (h.sound.dropLast hp)
    by_cases hdir : t.lookup (p ++ [name]) = some .directory
    · rw [enter, hdir]
      exact ih hdir
    · rw [h.enter_eq_ok_iff hdir]
      cases rest with
      | nil => simp [passed]
      | cons next rest => simp [passed, hdir]

theorem walkFrom_eq_ok_iff {links : Nat} (hp : t.lookup p = some .directory) :
    t.walkFrom follows links p names = .ok W ↔
      (∀ q ∈ passed p names, t.lookup q = some .directory) ∧
        (∀ n ∈ names, n.utf8ByteSize ≤ maxNameBytes) ∧ W = t.arrive (reach p names) := by
  cases links <;> exact h.walkNames_eq_ok_iff hp

end Regular

/-! ## Paths -/

/-- **A path that a kernel accepts**, wherever it leads. -/
structure Accepted (path : String) : Prop where
  no_nul : path.toList.contains (Char.ofNat 0) = false
  ne_empty : path ≠ ""
  short : path.utf8ByteSize < maxPathBytes
  names : ∀ n ∈ Path.steps path, n.utf8ByteSize ≤ maxNameBytes

/-- **The place that a path means.** -/
def goal (t : FileTree) (path : String) : Place := reach (t.startOf path) (Path.steps path)

/-- The places that the names of a path are looked up in. -/
def wayOf (t : FileTree) (path : String) : List Place := passed (t.startOf path) (Path.steps path)

/-- **The places that a path leaves upwards**, by `..`. -/
def turnsOf (t : FileTree) (path : String) : List Place := turns (t.startOf path) (Path.steps path)

/-! A path that starts at the same place goes the same way. -/

section Start

variable (hstart : t'.startOf path = t.startOf path)
include hstart

theorem goal_congr : t'.goal path = t.goal path := by rw [goal, goal, hstart]

theorem wayOf_congr : t'.wayOf path = t.wayOf path := by rw [wayOf, wayOf, hstart]

theorem turnsOf_congr : t'.turnsOf path = t.turnsOf path := by rw [turnsOf, turnsOf, hstart]

end Start

namespace Regular

/-- **A path leads somewhere if its way is one of directories**, the kernel accepts it, and no slash
follows a file. -/
theorem walk_eq_ok_iff (h : t.Regular) : t.walk follows path = .ok W ↔
    Accepted path ∧ (∀ q ∈ t.wayOf path, t.lookup q = some .directory) ∧
      (Path.endsInSlash path = true → ¬ ∃ content isPrivate,
        t.lookup (t.goal path) = some (.file content isPrivate)) ∧ W = t.arrive (t.goal path) := by
  have hstart := h.sound.lookup_startOf path
  unfold walk
  by_cases hnul : path.toList.contains (Char.ofNat 0) = true
  · rw [if_pos hnul]
    exact ⟨nofun, fun hall => absurd hnul (Bool.eq_false_iff.mp hall.1.no_nul)⟩
  by_cases hempty : path.isEmpty = true
  · rw [if_neg hnul, if_pos hempty]
    exact ⟨nofun, fun hall => absurd (String.isEmpty_iff.mp hempty) hall.1.ne_empty⟩
  by_cases hlong : path.utf8ByteSize ≥ maxPathBytes
  · rw [if_neg hnul, if_neg hempty, if_pos hlong]
    exact ⟨nofun, fun hall => absurd hall.1.short (Nat.not_lt.mpr hlong)⟩
  rw [if_neg hnul, if_neg hempty, if_neg hlong]
  have haccepted (hnames : ∀ n ∈ Path.steps path, n.utf8ByteSize ≤ maxNameBytes) : Accepted path :=
    ⟨Bool.not_eq_true _ ▸ hnul, fun heq => hempty (String.isEmpty_iff.mpr heq), Nat.not_le.mp hlong,
      hnames⟩
  have hiff (V : Walk) :
      t.walkFrom (follows || Path.endsInSlash path) maxLinks (t.startOf path) (Path.steps path)
        = .ok V ↔ _ :=
    h.walkFrom_eq_ok_iff hstart
  unfold startOf at hiff
  dsimp only
  rcases hR : t.walkFrom (follows || Path.endsInSlash path) maxLinks
      (if Path.isAbsolute path = true then [] else t.home) (Path.steps path) with fault | V
  · refine ⟨nofun, fun hall => ?_⟩
    rw [(hiff _).mpr ⟨hall.2.1, hall.1.names, rfl⟩] at hR
    exact nomatch hR
  obtain ⟨hway, hnames, rfl⟩ := (hiff V).mp hR
  have hgoal : t.goal path = reach (if Path.isAbsolute path = true then [] else t.home)
    (Path.steps path) := rfl
  rw [wayOf, startOf, and_iff_right (haccepted hnames), and_iff_right hway, ← hgoal]
  have hok (V : Walk) : (.ok V : Except SystemFault Walk) = .ok W ↔ W = V := by
    rw [Except.ok.injEq, eq_comm]
  cases he : t.lookup (t.goal path) with
  | none => simp [arrive_of_none he, hok]
  | some e =>
    rw [arrive_of_some he]
    rcases h.kind _ e he with rfl | ⟨content, isPrivate, rfl⟩
    · simp [Entry.isDirectory, hok]
    · cases Path.endsInSlash path <;> simp [Entry.isDirectory, hok]

/-- **What lies at a path** is what lies at its goal, if the places that it leaves upwards are
directories. -/
theorem status_eq_ok_iff (h : t.Regular) : t.status path = .ok e ↔
    Accepted path ∧ (∀ q ∈ t.turnsOf path, t.lookup q = some .directory) ∧
      (Path.endsInSlash path = true → e = .directory) ∧ t.lookup (t.goal path) = some e := by
  have hstatus : t.status path = .ok e ↔ ∃ p, t.walk true path = .ok (.found p e) := by
    unfold status
    cases t.walk true path with
    | error fault => simp
    | ok W => cases W <;> simp
  simp only [hstatus, h.walk_eq_ok_iff]
  constructor
  · rintro ⟨p, haccepted, hway, hslash, hW⟩
    cases he : t.lookup (t.goal path) with
    | none =>
      rw [arrive_of_none he] at hW
      exact nomatch hW
    | some e' =>
      rw [arrive_of_some he] at hW
      obtain ⟨-, rfl⟩ := Walk.found.inj hW
      refine ⟨haccepted, fun q hq => hway q (turns_subset_passed hq), fun hends => ?_, rfl⟩
      exact (h.kind _ _ he).resolve_right fun ⟨content, isPrivate, heq⟩ =>
        hslash hends ⟨content, isPrivate, heq ▸ he⟩
  · rintro ⟨haccepted, hturns, hslash, he⟩
    refine ⟨t.goal path, haccepted, fun q hq => ?_, fun hends ⟨content, isPrivate, hfile⟩ => ?_,
      (arrive_of_some he).symm⟩
    · rcases passed_cases hq with ⟨r, hr, hbegins⟩ | ⟨hbegins, hne⟩
      · exact h.sound.directory_of_begins hbegins (hturns r hr)
      · exact h.sound.directory_above hbegins hne (by rw [← goal, he]; rfl)
    · rw [hslash hends, hfile] at he
      exact nomatch he

end Regular

/-! ## What lies at a path -/

/-- **What lies at a path**, if anything does. -/
def held (t : FileTree) (path : String) : Option Entry := (t.status path).toOption

theorem held_eq_some_iff : t.held path = some e ↔ t.status path = .ok e := by
  rw [held]
  cases t.status path <;> simp [Except.toOption]

/-- A file is read if it lies at the path. -/
theorem read_eq_ok_iff_held {content : ByteArray} :
    t.read path = .ok content ↔ ∃ isPrivate, t.held path = some (.file content isPrivate) := by
  simp only [held_eq_some_iff, read, status]
  cases t.walk true path with
  | error fault => simp
  | ok W =>
    cases W with
    | free p => simp
    | found p e => cases e <;> simp

theorem exists?_eq_held : t.exists? path = (t.held path).isSome := by
  rw [exists?, held]
  cases t.status path <;> rfl

/-- What is read, or said not to be there, is no directory. -/
theorem file_of_held
    (hread : t.read path = .error .noEntry ∨ ∃ bytes, t.read path = .ok bytes)
    (he : t.held path = some e) : ∃ content isPrivate, e = .file content isPrivate := by
  rw [held_eq_some_iff, status] at he
  rw [read] at hread
  cases hwalk : t.walk true path with
  | error fault => simp [hwalk] at he
  | ok W =>
    cases W with
    | free p => simp [hwalk] at he
    | found p e' =>
      obtain rfl : e' = e := by simpa [hwalk] using he
      cases e' with
      | file content isPrivate => exact ⟨content, isPrivate, rfl⟩
      | _ => simp [hwalk] at hread

namespace Regular

/-- **The same lies at a path in two trees** if the same lies at its goal, and the path leaves directories
upwards in both. -/
theorem held_congr (h : t.Regular) (h' : t'.Regular) (hstart : t'.startOf path = t.startOf path)
    (hturns : ∀ q ∈ t.turnsOf path, t'.lookup q = some .directory ↔ t.lookup q = some .directory)
    (hgoal : t'.lookup (t.goal path) = t.lookup (t.goal path)) : t'.held path = t.held path := by
  refine Option.ext fun e => ?_
  rw [held_eq_some_iff, held_eq_some_iff, h'.status_eq_ok_iff, h.status_eq_ok_iff, goal_congr hstart,
    turnsOf_congr hstart, hgoal, forall₂_congr hturns]

end Regular

end Rollout.FileTree
