import Rollout.Proofs.System.Path
import Rollout.System.Tree

/-!
# Proofs/System/Walk — where a path leads

A walk that succeeds passes directories and links only, and ends at a place where anything may lie.  So it
leads to the same place in every tree that keeps the directories and has the same links, and finds there
what lies there now (`Keeps.walk`).  A walk along a path that ends in a name, and to no link, leads to that
name in the directory that the path before it leads to (`exists_directory_of_walk`).
-/

namespace Rollout.FileTree

variable {t t' : FileTree} {p : Place} {follows follows' : Bool} {W : Walk}

/-- What a walk finds that leads to a place. -/
def arrive (t : FileTree) (p : Place) : Walk :=
  match t.lookup p with
  | some e => .found p e
  | none => .free p

/-- The place that a walk leads to. -/
def Walk.place : Walk → Place
  | .found p _ => p
  | .free p => p

theorem arrive_of_some {e : Entry} (h : t.lookup p = some e) : t.arrive p = .found p e := by
  rw [arrive, h]

theorem arrive_of_none (h : t.lookup p = none) : t.arrive p = .free p := by rw [arrive, h]

@[simp] theorem place_arrive (t : FileTree) (p : Place) : (t.arrive p).place = p := by
  rw [arrive]
  cases t.lookup p <;> rfl

/-- **A file system in which everything lies in a directory.** -/
structure Sound (t : FileTree) : Prop where
  /-- Relative paths start in a directory. -/
  home : t.lookup t.home = some .directory
  lodged : ∀ p name, (t.lookup (p ++ [name])).isSome → t.lookup p = some .directory

@[simp] theorem lookup_nil (t : FileTree) : t.lookup [] = some .directory := rfl

/-- Above a directory there is a directory. -/
theorem Sound.dropLast (h : t.Sound) (hp : t.lookup p = some .directory) :
    t.lookup p.dropLast = some .directory := by
  rcases List.eq_nil_or_concat p with rfl | ⟨d, name, rfl⟩
  · rfl
  · rw [List.concat_eq_append] at hp ⊢
    rw [List.dropLast_concat]
    exact h.lodged d name (by rw [hp]; rfl)

/-- A tree is sound if all that it holds lies in a directory. -/
theorem Sound.of_entries (hhome : t.lookup t.home = some .directory)
    (h : ∀ q ∈ t.entries, t.lookup q.1.dropLast = some .directory) : t.Sound := by
  refine ⟨hhome, fun p name hsome => ?_⟩
  rw [lookup, if_neg (by simp)] at hsome
  obtain ⟨e, he⟩ := Option.isSome_iff_exists.mp hsome
  obtain ⟨before, after, hentries, -⟩ := List.lookup_eq_some_iff.mp he
  have hmem : (p ++ [name], e) ∈ t.entries := by
    rw [hentries]
    exact List.mem_append_right _ List.mem_cons_self
  simpa using h _ hmem

/-- **A tree that keeps the directories of another one, and has the same links.** -/
structure Keeps (t t' : FileTree) : Prop where
  home : t'.home = t.home
  directory : ∀ p, t.lookup p = some .directory → t'.lookup p = some .directory
  link : ∀ p target, t'.lookup p = some (.link target) ↔ t.lookup p = some (.link target)

theorem Keeps.refl (t : FileTree) : Keeps t t := ⟨rfl, fun _ => id, fun _ _ => Iff.rfl⟩

theorem Keeps.trans {t'' : FileTree} (h : Keeps t t') (h' : Keeps t' t'') : Keeps t t'' :=
  ⟨h'.home.trans h.home, fun p hp => h'.directory p (h.directory p hp),
    fun p target => (h'.link p target).trans (h.link p target)⟩

/-- Is there a link at the place? -/
def IsLink (t : FileTree) (p : Place) : Prop := ∃ target, t.lookup p = some (.link target)

/-! ## One walk in two trees -/

/-- Go on from a directory to what lies there under a name. -/
def enter (t : FileTree) (follows : Bool) (follow : Place → List String → Except SystemFault Walk)
    (p : Place) (name : String) (rest : List String) : Except SystemFault Walk :=
  match t.lookup (p ++ [name]) with
  | some (.link target) =>
    if rest.isEmpty && !follows then .ok (.found (p ++ [name]) (.link target))
    else follow (if Path.isAbsolute target then [] else p) (Path.steps target ++ rest)
  | some _ => t.walkNames follows follow (p ++ [name]) rest
  | none => if rest.isEmpty then .ok (.free (p ++ [name])) else .error .noEntry

variable {follow follow' : Place → List String → Except SystemFault Walk} {names rest : List String}
  {name : String}

theorem walkNames_nil (hp : t.lookup p = some .directory) :
    t.walkNames follows follow p [] = .ok (t.arrive p) := by
  simp only [walkNames, hp, arrive_of_some hp]

/-- **A walk goes name by name.** -/
theorem walkNames_cons (hp : t.lookup p = some .directory) :
    t.walkNames follows follow p (name :: rest) =
      if name.utf8ByteSize > maxNameBytes then .error .nameTooLong
      else if name = ".." then t.walkNames follows follow p.dropLast rest
      else t.enter follows follow p name rest := by
  simp only [walkNames, hp]
  rfl

/-- A walk that is at no directory is at its end. -/
theorem walkNames_of_leaf {e : Entry} (he : t.lookup p = some e) (hleaf : e ≠ .directory)
    (h : t.walkNames follows follow p names = .ok W) : names = [] ∧ t.arrive p = W := by
  rw [arrive_of_some he]
  cases names with
  | nil =>
    simp only [walkNames, he] at h
    exact ⟨rfl, Except.ok.inj h⟩
  | cons name rest =>
    simp only [walkNames, he] at h
    cases e with
    | directory => exact absurd rfl hleaf
    | _ => exact nomatch h

/-- **The last name leads to what lies there**, unless it is a link. -/
theorem enter_nil (h : ¬ t.IsLink (p ++ [name])) :
    t.enter follows follow p name [] = .ok (t.arrive (p ++ [name])) := by
  rw [enter]
  cases he : t.lookup (p ++ [name]) with
  | none => rw [arrive_of_none he]; rfl
  | some e =>
    cases e with
    | link target => exact absurd ⟨target, he⟩ h
    | _ => simp only [walkNames, he, arrive_of_some he]

section Keeps

variable (h : Keeps t t') (hflag : follows' = follows ∨ follows' = true ∧ ¬ t.IsLink W.place)
  (hfollow : ∀ {p names}, t.lookup p = some .directory → follow p names = .ok W →
    follow' p names = .ok (t'.arrive W.place))
include h hflag hfollow

/-- A link leads to the same place in both trees. -/
theorem Keeps.enter_link {target : String} (hp : t.lookup p = some .directory)
    (he : t.lookup (p ++ [name]) = some (.link target))
    (hW : t.enter follows follow p name rest = .ok W) :
    t'.enter follows' follow' p name rest = .ok (t'.arrive W.place) := by
  simp only [enter, he] at hW
  simp only [enter, (h.link _ target).mpr he]
  by_cases hend : (rest.isEmpty && !follows) = true
  · rw [if_pos hend] at hW
    obtain rfl := Except.ok.inj hW
    have hsame : follows' = follows := hflag.resolve_right fun hnone => hnone.2 ⟨target, he⟩
    rw [hsame, if_pos hend, Walk.place, arrive_of_some ((h.link _ target).mpr he)]
  · have hend' : ¬ (rest.isEmpty && !follows') = true := by
      rcases hflag with rfl | ⟨rfl, -⟩
      · exact hend
      · simp
    rw [if_neg hend] at hW
    rw [if_neg hend']
    refine hfollow ?_ hW
    split_ifs
    · rfl
    · exact hp

/-- **A name leads to the same place in both trees**, if what lies below it does. -/
theorem Keeps.enter (hp : t.lookup p = some .directory)
    (hbelow : t.lookup (p ++ [name]) = some .directory →
      t.walkNames follows follow (p ++ [name]) rest = .ok W →
        t'.walkNames follows' follow' (p ++ [name]) rest = .ok (t'.arrive W.place))
    (hW : t.enter follows follow p name rest = .ok W) :
    t'.enter follows' follow' p name rest = .ok (t'.arrive W.place) := by
  -- Whatever lies there but a directory or a link, the walk ends there in both trees.
  have hlast (hlink : ¬ t.IsLink (p ++ [name])) (hrest : rest = []) (hplace : W.place = p ++ [name]) :
      t'.enter follows' follow' p name rest = .ok (t'.arrive W.place) := by
    subst hrest
    rw [hplace]
    exact enter_nil fun ⟨target, he⟩ => hlink ⟨target, (h.link _ target).mp he⟩
  cases he : t.lookup (p ++ [name]) with
  | none =>
    simp only [FileTree.enter, he] at hW
    split_ifs at hW with hrest
    obtain rfl := Except.ok.inj hW
    exact hlast (by simp [IsLink, he]) (List.isEmpty_iff.mp hrest) rfl
  | some e =>
    cases e with
    | directory =>
      simp only [FileTree.enter, he] at hW
      rw [FileTree.enter, h.directory _ he]
      exact hbelow he hW
    | link target => exact h.enter_link hflag hfollow hp he hW
    | _ =>
      simp only [FileTree.enter, he] at hW
      obtain ⟨hrest, rfl⟩ := walkNames_of_leaf he nofun hW
      exact hlast (by simp [IsLink, he]) hrest (place_arrive t _)

/-- **A walk leads to the same place in both trees**, if a link at its end is followed in both or in
neither, or there is none. -/
theorem Keeps.walkNames (hsound : t.Sound) :
    ∀ {names : List String} {p : Place}, t.lookup p = some .directory →
      t.walkNames follows follow p names = .ok W →
        t'.walkNames follows' follow' p names = .ok (t'.arrive W.place)
  | [], p, hp, hW => by
      rw [walkNames_nil hp] at hW
      obtain rfl := Except.ok.inj hW
      rw [place_arrive, walkNames_nil (h.directory p hp)]
  | name :: rest, p, hp, hW => by
      rw [walkNames_cons hp] at hW
      rw [walkNames_cons (h.directory p hp)]
      split_ifs at hW ⊢ with hlong habove
      · exact Keeps.walkNames hsound (hsound.dropLast hp) hW
      · exact h.enter hflag hfollow hp (Keeps.walkNames hsound) hW

end Keeps

/-- **A walk leads to the same place in both trees**, with some links left to follow. -/
theorem Keeps.walkFrom (h : Keeps t t') (hsound : t.Sound)
    (hflag : follows' = follows ∨ follows' = true ∧ ¬ t.IsLink W.place) :
    ∀ {links : Nat} {p : Place} {names : List String}, t.lookup p = some .directory →
      t.walkFrom follows links p names = .ok W →
        t'.walkFrom follows' links p names = .ok (t'.arrive W.place)
  | 0, _, _, hp, hW => by
      rw [FileTree.walkFrom] at hW ⊢
      refine h.walkNames hflag ?_ hsound hp hW
      exact fun _ hW => nomatch hW
  | _ + 1, _, _, hp, hW => by
      rw [FileTree.walkFrom] at hW ⊢
      exact h.walkNames hflag (h.walkFrom hsound hflag) hsound hp hW

/-- The directory that a path starts from. -/
def startOf (t : FileTree) (path : String) : Place := if Path.isAbsolute path then [] else t.home

theorem Sound.lookup_startOf (h : t.Sound) (path : String) :
    t.lookup (t.startOf path) = some .directory := by
  rw [startOf]
  split_ifs
  · rfl
  · exact h.home

/-- **Walking along a path without a slash at its end** is walking along its steps, if the path can be
walked at all. -/
theorem walk_eq {path : String} (hslash : Path.endsInSlash path = false) :
    t.walk follows path =
      if path.toList.contains (Char.ofNat 0) then .error .nulInPath
      else if path.isEmpty then .error .noEntry
      else if path.utf8ByteSize ≥ maxPathBytes then .error .nameTooLong
      else t.walkFrom follows maxLinks (t.startOf path) (Path.steps path) := by
  simp only [walk, hslash, startOf, Bool.or_false, Bool.false_and, Bool.false_eq_true, if_false]
  split_ifs
  · rfl
  · rfl
  · rfl
  · cases t.walkFrom follows maxLinks [] (Path.steps path) with
    | error e => rfl
    | ok W => cases W <;> rfl
  · cases t.walkFrom follows maxLinks t.home (Path.steps path) with
    | error e => rfl
    | ok W => cases W <;> rfl

/-- **A path leads to the same place in every tree that keeps the directories and has the same links**,
if a link at its end is followed in both or in neither, or there is none. -/
theorem Keeps.walk (h : Keeps t t') (hsound : t.Sound) {path : String}
    (hslash : Path.endsInSlash path = false)
    (hflag : follows' = follows ∨ follows' = true ∧ ¬ t.IsLink W.place)
    (hW : t.walk follows path = .ok W) : t'.walk follows' path = .ok (t'.arrive W.place) := by
  rw [walk_eq hslash] at hW ⊢
  split_ifs at hW ⊢
  have hstart : t'.startOf path = t.startOf path := by rw [startOf, startOf, h.home]
  rw [hstart]
  exact h.walkFrom hsound hflag (hsound.lookup_startOf path) hW

/-- **A walk finds what lies at its place.** -/
theorem Sound.walk_eq_arrive (hsound : t.Sound) {path : String}
    (hslash : Path.endsInSlash path = false) (hW : t.walk follows path = .ok W) :
    t.arrive W.place = W :=
  (Except.ok.inj (hW.symm.trans ((Keeps.refl t).walk hsound hslash (.inl rfl) hW))).symm

/-- What a path leads to lies where it leads. -/
theorem Sound.lookup_of_walk (hsound : t.Sound) {path : String} {e : Entry}
    (hslash : Path.endsInSlash path = false) (hW : t.walk follows path = .ok (.found p e)) :
    t.lookup p = some e := by
  have harrive := hsound.walk_eq_arrive hslash hW
  rw [Walk.place, arrive] at harrive
  cases hp : t.lookup p with
  | none => simp [hp] at harrive
  | some e' => simpa [hp] using harrive

theorem placeOf?_of_walk {path : String} (h : t.walk true path = .ok W) :
    t.placeOf? path = some W.place := by
  rw [placeOf?, h]
  cases W <;> rfl

/-- A path that leads to a place keeps leading there. -/
theorem Keeps.placeOf? (h : Keeps t t') (hsound : t.Sound) {path : String}
    (hslash : Path.endsInSlash path = false) (hp : t.placeOf? path = some p) :
    t'.placeOf? path = some p := by
  rw [FileTree.placeOf?] at hp
  cases hW : t.walk true path with
  | error fault =>
    rw [hW] at hp
    exact nomatch hp
  | ok W =>
    have hplace : W.place = p := by
      rw [hW] at hp
      cases W <;> exact Option.some.inj hp
    rw [placeOf?_of_walk (h.walk hsound hslash (.inl rfl) hW), place_arrive, hplace]

/-! ## The last name of a path -/

theorem directory_of_walkNames (hne : names ≠ [])
    (hW : t.walkNames follows follow p names = .ok W) : t.lookup p = some .directory := by
  cases names with
  | nil => exact absurd rfl hne
  | cons name rest =>
    rw [walkNames] at hW
    cases hp : t.lookup p with
    | none => simp only [hp] at hW; exact nomatch hW
    | some e =>
      cases e with
      | directory => rfl
      | _ => simp only [hp] at hW; exact nomatch hW

/-- A walk that does not follow its last name is at its end there. -/
theorem enter_false_nil : t.enter false follow p name [] = .ok (t.arrive (p ++ [name])) := by
  rw [enter, arrive]
  cases he : t.lookup (p ++ [name]) with
  | none => rfl
  | some e => cases e <;> simp [walkNames, he]

/-- **A walk to a name leads into the directory that the names before it lead to.** -/
theorem walkNames_concat (hname : name ≠ "..")
    (hfollow : ∀ {p names}, follow p (names ++ [name]) = .ok W →
      ∃ d, follow' p names = .ok (.found d .directory) ∧ W.place = d ++ [name]) :
    ∀ {names : List String} {p : Place}, t.walkNames false follow p (names ++ [name]) = .ok W →
      ∃ d, t.walkNames true follow' p names = .ok (.found d .directory) ∧ W.place = d ++ [name]
  | [], p, hW => by
      have hp := directory_of_walkNames (by simp) hW
      rw [List.nil_append, walkNames_cons hp, if_neg hname, enter_false_nil] at hW
      split_ifs at hW with hlong
      obtain rfl := Except.ok.inj hW
      exact ⟨p, by rw [walkNames_nil hp, arrive_of_some hp], place_arrive t _⟩
  | first :: rest, p, hW => by
      have hp := directory_of_walkNames (by simp) hW
      rw [List.cons_append, walkNames_cons hp] at hW
      rw [walkNames_cons hp]
      split_ifs at hW ⊢ with hlong habove
      · exact walkNames_concat hname hfollow hW
      rw [enter] at hW ⊢
      cases he : t.lookup (p ++ [first]) with
      | none => simp [he] at hW
      | some e =>
        cases e with
        | link target =>
          simp only [he] at hW ⊢
          rw [if_neg (by simp), ← List.append_assoc] at hW
          rw [if_neg (by simp)]
          exact hfollow hW
        | _ =>
          simp only [he] at hW ⊢
          exact walkNames_concat hname hfollow hW

theorem walkFrom_concat (hname : name ≠ "..") : ∀ {links : Nat} {p : Place} {names : List String},
    t.walkFrom false links p (names ++ [name]) = .ok W →
      ∃ d, t.walkFrom true links p names = .ok (.found d .directory) ∧ W.place = d ++ [name]
  | 0, _, _, hW => by
      rw [walkFrom] at hW ⊢
      refine walkNames_concat hname ?_ hW
      exact fun hW => nomatch hW
  | _ + 1, _, _, hW => by
      rw [walkFrom] at hW ⊢
      exact walkNames_concat hname (walkFrom_concat hname) hW

/-- Step from a directory to a name in it. -/
def arriveIn (t : FileTree) (d : Place) (name : String) : Except SystemFault Walk :=
  if name.utf8ByteSize > maxNameBytes then .error .nameTooLong else .ok (t.arrive (d ++ [name]))

/-- **Where names lead into a directory, a name behind them leads to what lies there.** -/
theorem walkNames_into {d : Place} (hname : name ≠ "..")
    (hfollow : ∀ {p names}, follow p names = .ok (.found d .directory) →
      follow' p (names ++ [name]) = t.arriveIn d name) :
    ∀ {names : List String} {p : Place},
      t.walkNames true follow p names = .ok (.found d .directory) →
        t.walkNames false follow' p (names ++ [name]) = t.arriveIn d name
  | [], p, hW => by
      rw [walkNames] at hW
      cases hp : t.lookup p with
      | none => simp [hp] at hW
      | some e =>
        simp only [hp, Except.ok.injEq, Walk.found.injEq] at hW
        obtain ⟨rfl, rfl⟩ := hW
        rw [List.nil_append, walkNames_cons hp, if_neg hname, enter_false_nil, arriveIn]
  | first :: rest, p, hW => by
      have hp := directory_of_walkNames (List.cons_ne_nil _ _) hW
      rw [walkNames_cons hp] at hW
      rw [List.cons_append, walkNames_cons hp]
      split_ifs at hW ⊢ with hlong habove
      · exact walkNames_into hname hfollow hW
      rw [enter] at hW ⊢
      cases he : t.lookup (p ++ [first]) with
      | none =>
        simp only [he] at hW
        split_ifs at hW
        exact nomatch Except.ok.inj hW
      | some e =>
        cases e with
        | link target =>
          simp only [he] at hW ⊢
          rw [if_neg (by simp)] at hW
          rw [if_neg (by simp), ← List.append_assoc]
          exact hfollow hW
        | _ =>
          simp only [he] at hW ⊢
          exact walkNames_into hname hfollow hW

theorem walkFrom_into {d : Place} (hname : name ≠ "..") :
    ∀ {links : Nat} {p : Place} {names : List String},
      t.walkFrom true links p names = .ok (.found d .directory) →
        t.walkFrom false links p (names ++ [name]) = t.arriveIn d name
  | 0, _, _, hW => by
      rw [walkFrom] at hW ⊢
      refine walkNames_into hname ?_ hW
      exact fun hW => nomatch hW
  | _ + 1, _, _, hW => by
      rw [walkFrom] at hW ⊢
      exact walkNames_into hname (fun hW => walkFrom_into hname hW) hW

/-! ## Links at the end -/

/-- The same walk, or one that ends at a link before it. -/
def Walk.EndsAtOrBefore (W' W : Walk) : Prop := W' = W ∨ ∃ p target, W' = .found p (.link target)

theorem walkNames_unfollowed
    (hfollow : ∀ {p names}, follow p names = .ok W →
      ∃ W', follow' p names = .ok W' ∧ W'.EndsAtOrBefore W) :
    ∀ {names : List String} {p : Place}, t.walkNames true follow p names = .ok W →
      ∃ W', t.walkNames false follow' p names = .ok W' ∧ W'.EndsAtOrBefore W
  | [], p, hW => ⟨W, hW, .inl rfl⟩
  | name :: rest, p, hW => by
      have hp := directory_of_walkNames (List.cons_ne_nil _ _) hW
      rw [walkNames_cons hp] at hW ⊢
      split_ifs at hW ⊢ with hlong habove
      · exact walkNames_unfollowed hfollow hW
      rw [enter] at hW ⊢
      cases he : t.lookup (p ++ [name]) with
      | none =>
        simp only [he] at hW ⊢
        exact ⟨W, hW, .inl rfl⟩
      | some e =>
        cases e with
        | link target =>
          simp only [he] at hW ⊢
          rw [if_neg (by simp)] at hW
          by_cases hrest : (rest.isEmpty && !false) = true
          · rw [if_pos hrest]
            exact ⟨_, rfl, .inr ⟨_, _, rfl⟩⟩
          · rw [if_neg hrest]
            exact hfollow hW
        | _ =>
          simp only [he] at hW ⊢
          exact walkNames_unfollowed hfollow hW

theorem walkFrom_unfollowed : ∀ {links : Nat} {p : Place} {names : List String},
    t.walkFrom true links p names = .ok W →
      ∃ W', t.walkFrom false links p names = .ok W' ∧ W'.EndsAtOrBefore W
  | 0, _, _, hW => by
      rw [walkFrom] at hW ⊢
      refine walkNames_unfollowed ?_ hW
      exact fun hW => nomatch hW
  | _ + 1, _, _, hW => by
      rw [walkFrom] at hW ⊢
      exact walkNames_unfollowed walkFrom_unfollowed hW

/-- **A walk that follows a link at its end passes that link.** -/
theorem walk_unfollowed {path : String} (hslash : Path.endsInSlash path = false)
    (hW : t.walk true path = .ok W) : ∃ W', t.walk false path = .ok W' ∧ W'.EndsAtOrBefore W := by
  rw [walk_eq hslash] at hW ⊢
  split_ifs at hW ⊢
  exact walkFrom_unfollowed hW

/-! ## Free places -/

/-- **Nothing lies at the place, but in the directory around it.** -/
def IsFree (t : FileTree) (p : Place) : Prop :=
  t.lookup p = none ∧ ∃ d name, p = d ++ [name] ∧ t.lookup d = some .directory

theorem walkNames_free (hfollow : ∀ {q names}, follow q names = .ok (.free p) → t.IsFree p) :
    ∀ {names : List String} {q : Place}, t.walkNames follows follow q names = .ok (.free p) →
      t.IsFree p
  | [], q, hW => by
      rw [walkNames] at hW
      cases hq : t.lookup q <;> simp [hq] at hW
  | name :: rest, q, hW => by
      have hq := directory_of_walkNames (List.cons_ne_nil _ _) hW
      rw [walkNames_cons hq] at hW
      split_ifs at hW with hlong habove
      · exact walkNames_free hfollow hW
      rw [enter] at hW
      cases he : t.lookup (q ++ [name]) with
      | none =>
        simp only [he] at hW
        split_ifs at hW
        obtain rfl := Walk.free.inj (Except.ok.inj hW)
        exact ⟨he, q, name, rfl, hq⟩
      | some e =>
        cases e with
        | link target =>
          simp only [he] at hW
          by_cases hend : (rest.isEmpty && !follows) = true
          · rw [if_pos hend] at hW
            exact nomatch hW
          · rw [if_neg hend] at hW
            exact hfollow hW
        | _ =>
          simp only [he] at hW
          exact walkNames_free hfollow hW

theorem walkFrom_free : ∀ {links : Nat} {q : Place} {names : List String},
    t.walkFrom follows links q names = .ok (.free p) → t.IsFree p
  | 0, _, _, hW => by
      rw [walkFrom] at hW
      refine walkNames_free ?_ hW
      exact fun hW => nomatch hW
  | _ + 1, _, _, hW => by
      rw [walkFrom] at hW
      exact walkNames_free walkFrom_free hW

/-- **Where a path finds nothing, there is room for something.** -/
theorem walk_free {path : String} (hW : t.walk follows path = .ok (.free p)) : t.IsFree p := by
  rw [walk] at hW
  split_ifs at hW <;>
  · dsimp only at hW
    split at hW
    · split_ifs at hW
      exact nomatch hW
    · exact walkFrom_free hW

/-! ## Directories before the last name -/

/-- **The directory that a path leads to**, if it leads to one. -/
def LeadsInto (t : FileTree) (path : String) (d : Place) : Prop :=
  t.walkFrom true maxLinks (t.startOf path) (Path.steps path) = .ok (.found d .directory)

/-- A path leads into one directory at most. -/
theorem LeadsInto.unique {path : String} {d d' : Place} (h : t.LeadsInto path d)
    (h' : t.LeadsInto path d') : d = d' :=
  (Walk.found.inj (Except.ok.inj (h.symm.trans h'))).1

theorem LeadsInto.isDirectory {path : String} {d : Place} (h : t.LeadsInto path d)
    (hsound : t.Sound) : t.lookup d = some .directory := by
  have hwalk := (Keeps.refl t).walkFrom hsound (.inl rfl) (hsound.lookup_startOf path) h
  have harrive := Except.ok.inj (h.symm.trans hwalk)
  rw [Walk.place, arrive] at harrive
  cases hd : t.lookup d with
  | none =>
    rw [hd] at harrive
    exact nomatch harrive
  | some e =>
    rw [hd] at harrive
    rw [(Walk.found.inj harrive).2]

/-- **A path that ends in a name leads to that name**, in the directory that the path before it leads
into. -/
theorem exists_directory_of_walk {base : String} (hname : Path.IsName name)
    (hW : t.walk false (Path.join base name) = .ok W) :
    ∃ d, t.LeadsInto base d ∧ W.place = d ++ [name] := by
  rw [walk_eq (Path.endsInSlash_join base hname)] at hW
  split_ifs at hW
  rw [startOf, Path.isAbsolute_join base hname, Path.steps_join base hname] at hW
  exact walkFrom_concat hname.ne_above hW

end Rollout.FileTree
