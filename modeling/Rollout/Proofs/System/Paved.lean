import Rollout.Proofs.System.Parent
import Rollout.Proofs.System.Within
import Rollout.System.Disk

/-!
# Proofs/System/Paved — the directories that are made

Making the directories above a path makes them where nothing lies, and nowhere but strictly above the place
that the path means (`Paved`).  So it is, as far as it goes, when one of them cannot be made
(`leftover_paved`).  For this, each place that the path leaves upwards must be a directory already: what is
missing on its way is never left again.
-/

namespace Rollout.FileTree

variable {t t' t'' : FileTree} {p : Place} {path a : String} {paths : List String}

/-- **Directories were made above a place**, and nothing else is different. -/
structure Paved (p : Place) (t t' : FileTree) : Prop where
  regular : t'.Regular
  grows : Grows t t'
  above : ∀ q, t'.lookup q = t.lookup q ∨
    t.lookup q = none ∧ t'.lookup q = some .directory ∧ q <+: p ∧ q ≠ p

namespace Paved

theorem refl (h : t.Regular) (p : Place) : Paved p t t := ⟨h, .refl t, fun _ => .inl rfl⟩

theorem trans (h : Paved p t t') (h' : Paved p t' t'') : Paved p t t'' := by
  refine ⟨h'.regular, h.grows.trans h'.grows, fun q => ?_⟩
  rcases h.above q with heq | ⟨hnone, hdir, hq⟩
  · rw [← heq]
    exact h'.above q
  · exact .inr ⟨hnone, h'.grows.old q _ hdir, hq⟩

variable (h : Paved p t t')
include h

/-- The place itself is as it was. -/
theorem same {q : Place} (hq : ¬ (q <+: p ∧ q ≠ p)) : t'.lookup q = t.lookup q :=
  (h.above q).resolve_right fun hnew => hq hnew.2.2

theorem startOf (path : String) : t'.startOf path = t.startOf path := by
  rw [FileTree.startOf, FileTree.startOf, h.grows.home]

theorem goal (path : String) : t'.goal path = t.goal path := goal_congr (h.startOf path)

theorem turnsOf (path : String) : t'.turnsOf path = t.turnsOf path := turnsOf_congr (h.startOf path)

theorem wayOf (path : String) : t'.wayOf path = t.wayOf path := wayOf_congr (h.startOf path)

/-- **At a path there is what there was**, if what it leaves upwards is there and it does not mean one of the
new directories. -/
theorem held_eq (hregular : t.Regular) {x : String}
    (hturns : ∀ q ∈ t.turnsOf x, t.lookup q = some .directory)
    (hx : ¬ (t.goal x <+: p ∧ t.goal x ≠ p)) : t'.held x = t.held x := by
  refine hregular.held_congr h.regular (h.startOf x) (fun q hq => ?_) (h.same hx)
  exact iff_of_true (h.grows.old q _ (hturns q hq)) (hturns q hq)

end Paved

/-! ## The paths above a path -/

/-- **The path is empty or goes on to another one.** -/
def IsAbove (a path : String) : Prop :=
  a = "" ∨ Path.isAbsolute a = Path.isAbsolute path ∧
    ∃ names, names ≠ [] ∧ Path.steps path = Path.steps a ++ names

theorem isAbove_of_parent? {parent : String} (h : Path.parent? path = some parent) :
    IsAbove parent path := by
  rcases eq_or_ne parent "" with rfl | hne
  · exact .inl rfl
  · obtain ⟨⟨name, hsteps⟩, habsolute⟩ := Path.parent?_spec h hne
    exact .inr ⟨habsolute, [name], List.cons_ne_nil _ _, hsteps⟩

theorem IsAbove.parent? {parent : String} (h : IsAbove a path)
    (hparent : Path.parent? a = some parent) : IsAbove parent path := by
  rcases h with rfl | ⟨habsolute, names, -, hsteps⟩
  · cases hparent
  · rcases eq_or_ne parent "" with rfl | hne
    · exact .inl rfl
    · obtain ⟨⟨name, hsteps'⟩, habsolute'⟩ := Path.parent?_spec hparent hne
      refine .inr ⟨habsolute'.trans habsolute, name :: names, List.cons_ne_nil _ _, ?_⟩
      rw [hsteps, hsteps', List.append_assoc, List.singleton_append]

theorem IsAbove.ancestors (h : IsAbove a path) (fuel : Nat) :
    ∀ x ∈ ancestors a fuel, IsAbove x path := by
  induction fuel generalizing a with
  | zero => exact List.forall_mem_singleton.mpr h
  | succ fuel ih =>
    rw [FileTree.ancestors]
    cases hparent : Path.parent? a with
    | none => exact List.forall_mem_singleton.mpr h
    | some parent => exact List.forall_mem_cons.mpr ⟨h, ih (h.parent? hparent)⟩

/-- **What is missing above a path lies strictly above the place that the path means**, if the places that
the path leaves upwards are there. -/
theorem IsAbove.goal_above (h : IsAbove a path) (hne : a ≠ "") (hregular : t.Regular)
    (hturns : ∀ q ∈ t.turnsOf path, t.lookup q = some .directory)
    (hnone : t.lookup (t.goal a) = none) :
    t.goal a <+: t.goal path ∧ t.goal a ≠ t.goal path := by
  obtain ⟨habsolute, names, hnames, hsteps⟩ := h.resolve_left hne
  have hstart : t.startOf path = t.startOf a := by rw [startOf, startOf, habsolute]
  obtain ⟨first, rest, rfl⟩ := List.exists_cons_of_ne_nil hnames
  have hpassed : t.goal a ∈ passed (t.goal a) (first :: rest) := List.mem_cons_self
  have hgoal : t.goal path = reach (t.goal a) (first :: rest) := by
    rw [FileTree.goal, hstart, hsteps, reach_append, FileTree.goal]
  rw [hgoal]
  refine (passed_cases hpassed).resolve_left fun hleft => ?_
  obtain ⟨r, hr, hbegins⟩ := hleft
  have hturn : r ∈ t.turnsOf path := by
    rw [turnsOf, hstart, hsteps, turns_append]
    exact List.mem_append_right _ hr
  rw [hregular.sound.directory_of_begins hbegins (hturns r hturn)] at hnone
  cases hnone

/-! ## Making directories -/

/-- A slash at the end of a path can be left out. -/
theorem goal_of_trimmed {x : String} (hne : x ≠ "")
    (hx : (if Path.endsInSlash a then (Path.parent? (a ++ "x")).getD a else a) = x) :
    t.goal x = t.goal a := by
  split_ifs at hx with hslash
  · cases hparent : Path.parent? (a ++ "x") with
    | none => rw [← hx, hparent, Option.getD_none]
    | some parent =>
      obtain rfl : parent = x := by rwa [hparent, Option.getD_some] at hx
      obtain ⟨⟨name, hsteps⟩, habsolute⟩ := Path.parent?_spec hparent hne
      have hname : Path.IsName "x" := ⟨by decide, by decide, by decide, by decide⟩
      rw [Path.steps_append_of_front "x" (.inr (beq_iff_eq.mp hslash)), hname.steps_eq] at hsteps
      rw [Path.isAbsolute_append_of_front hname.no_slash] at habsolute
      rw [goal, goal, startOf, startOf, habsolute, (List.append_inj' hsteps rfl).1]
  · rw [hx]

/-- **Making a directory** puts it where nothing lay. -/
theorem createDirectory_eq_ok (hregular : t.Regular) (h : t.createDirectory a = .ok t') :
    a ≠ "" ∧ t.IsFree (t.goal a) ∧ t' = t.insert (t.goal a) .directory := by
  obtain ⟨p, hwalk, rfl⟩ := exists_of_createDirectory h
  generalize hx : (if Path.endsInSlash a then (Path.parent? (a ++ "x")).getD a else a) = x at hwalk
  obtain ⟨haccepted, -, -, hW⟩ := hregular.walk_eq_ok_iff.mp hwalk
  obtain rfl : p = t.goal x := by rw [← place_arrive t (t.goal x), ← hW, Walk.place]
  rw [goal_of_trimmed haccepted.ne_empty hx] at hwalk ⊢
  refine ⟨?_, walk_free hwalk, rfl⟩
  rintro rfl
  exact haccepted.ne_empty (by rw [← hx]; rfl)

theorem createDirectory_paved (hregular : t.Regular) (habove : IsAbove a path)
    (hturns : ∀ q ∈ t.turnsOf path, t.lookup q = some .directory)
    (h : t.createDirectory a = .ok t') : Paved (t.goal path) t t' := by
  obtain ⟨hne, hfree, rfl⟩ := createDirectory_eq_ok hregular h
  have hnew := habove.goal_above hne hregular hturns hfree.1
  obtain ⟨hnone, d, name, hplace, hd⟩ := id hfree
  refine ⟨hregular.insert ?_ (by rw [hnone]; exact nofun) (.inl rfl), .insert_directory hfree,
    fun q => ?_⟩
  · rwa [hplace, List.dropLast_concat]
  · rcases eq_or_ne q (t.goal a) with rfl | hq
    · exact .inr ⟨hnone, lookup_insert_self (by rw [hplace]; simp), hnew⟩
    · exact .inl (lookup_insert_of_ne hq)

theorem ensureDirectory_paved (hregular : t.Regular) (habove : IsAbove a path)
    (hturns : ∀ q ∈ t.turnsOf path, t.lookup q = some .directory)
    (h : t.ensureDirectory a = .ok t') : Paved (t.goal path) t t' := by
  obtain hcreate | rfl := ensureDirectory_cases h
  · exact createDirectory_paved hregular habove hturns hcreate
  · exact .refl hregular _

/-- What a path leaves upwards is there in a tree with more directories, too. -/
theorem Paved.turns {p : Place} (h : Paved p t t')
    (hturns : ∀ q ∈ t.turnsOf path, t.lookup q = some .directory) :
    ∀ q ∈ t'.turnsOf path, t'.lookup q = some .directory := by
  intro q hq
  rw [h.turnsOf] at hq
  exact h.grows.old q _ (hturns q hq)

/-- **Making the directories above a path.** -/
theorem createAll_paved (hregular : t.Regular) (habove : ∀ a ∈ paths, IsAbove a path)
    (hturns : ∀ q ∈ t.turnsOf path, t.lookup q = some .directory)
    (h : t.createAll paths = .ok t') : Paved (t.goal path) t t' := by
  induction paths generalizing t' with
  | nil => exact Except.ok.inj h ▸ .refl hregular _
  | cons a outer ih =>
    obtain ⟨ha, houter⟩ := List.forall_mem_cons.mp habove
    obtain rfl | ⟨t₁, rfl | hmade, hensure⟩ := createAll_cases h
    · exact .refl hregular _
    · exact ensureDirectory_paved hregular ha hturns hensure
    · have hpaved := ih houter hmade
      have hrest := ensureDirectory_paved hpaved.regular ha (hpaved.turns hturns) hensure
      rw [hpaved.goal] at hrest
      exact hpaved.trans hrest

/-- **What is there after making the directories above a path failed.** -/
theorem leftover_paved (hregular : t.Regular) (habove : ∀ a ∈ paths, IsAbove a path)
    (hturns : ∀ q ∈ t.turnsOf path, t.lookup q = some .directory) :
    Paved (t.goal path) t (t.leftover paths) := by
  induction paths with
  | nil => exact .refl hregular _
  | cons a outer ih =>
    obtain ⟨-, houter⟩ := List.forall_mem_cons.mp habove
    obtain hnone | hfewer | hall := leftover_cases (t := t) a outer
    · rw [hnone]
      exact .refl hregular _
    · rw [hfewer]
      exact ih houter
    · exact createAll_paved hregular houter hturns hall

/-- Where making directories breaks off, the outer ones are made as far as they can be. -/
theorem createPart_cases (t : FileTree) (a : String) (missing : Nat) :
    ∃ paths, paths ⊆ ancestors a a.length ∧ (t.createPart a missing = t.leftover paths ∨
      t.createAll paths = .ok (t.createPart a missing)) := by
  refine ⟨(ancestors a a.length).drop missing, List.drop_subset _ _, ?_⟩
  rw [createPart]
  cases hmade : t.createAll ((ancestors a a.length).drop missing) with
  | error e => exact .inl rfl
  | ok t' => exact .inr rfl

/-- **What is there after making the directories above a path broke off.** -/
theorem createPart_paved (hregular : t.Regular) (habove : IsAbove a path)
    (hturns : ∀ q ∈ t.turnsOf path, t.lookup q = some .directory) (missing : Nat) :
    Paved (t.goal path) t (t.createPart a missing) := by
  obtain ⟨paths, hsub, hpart⟩ := createPart_cases t a missing
  have habove' : ∀ x ∈ paths, IsAbove x path := fun x hx => habove.ancestors a.length x (hsub hx)
  rcases hpart with hleft | hmade
  · rw [hleft]
    exact leftover_paved hregular habove' hturns
  · exact createAll_paved hregular habove' hturns hmade

end Rollout.FileTree
