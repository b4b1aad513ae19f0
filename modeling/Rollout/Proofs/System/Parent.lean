import Mathlib.Data.List.TakeWhile
import Rollout.Proofs.System.Path

/-!
# Proofs/System/Parent — the path before the last name

`Path.parent?` takes the last component off a path, with the slashes and points before it.  None of these
is a step (`steps_trimReversed`), so the directory of a name below a path is that path, but for what no
walk notices (`parent?_join`), and what is before the last component of any path has all its steps but the
last one (`parent?_spec`).  A path that ends in a name is that name below its parent, which is the empty path
if there is nothing else (`fileName?_spec`).
-/

namespace Rollout.Path

variable {base name path : String}

/-! ## Slashes and points at the end -/

/-- Trimming a path cuts it off somewhere. -/
theorem trimReversed_suffix (keep : Nat) (cs : List Char) : trimReversed keep cs <:+ cs := by
  fun_induction trimReversed keep cs with
  | case1 => exact List.suffix_refl _
  | case2 => exact List.suffix_refl _
  | case3 cs _ ih => exact ih.trans (List.suffix_cons _ _)
  | case4 => exact List.suffix_refl _
  | case5 => exact List.nil_suffix
  | case6 _ _ ih => exact ih.trans (List.suffix_cons _ _)
  | case7 => exact List.suffix_refl _
  | case8 => exact List.suffix_refl _

/-- **Trimming drops no step.** -/
theorem steps_trimReversed (keep : Nat) (cs : List Char) :
    steps (String.ofList (trimReversed keep cs).reverse) = steps (String.ofList cs.reverse) := by
  fun_induction trimReversed keep cs with
  | case1 => rfl
  | case2 => rfl
  | case3 cs _ ih =>
    rw [ih, List.reverse_cons, String.ofList_append]
    exact (steps_slash _).symm
  | case4 => rfl
  | case5 => rfl
  | case6 cs _ ih =>
    have hpoint := steps_append (String.ofList cs.reverse) "."
    rw [show steps "." = [] from rfl, List.append_nil] at hpoint
    rw [ih, List.reverse_cons, List.reverse_cons, List.reverse_cons, String.ofList_append,
      String.ofList_append, String.ofList_append]
    exact (steps_slash _).trans hpoint.symm
  | case7 => rfl
  | case8 => rfl

/-- A path that is trimmed ends in no slash, but for one that is kept. -/
theorem length_trimReversed {keep : Nat} {cs rest : List Char} (h : trimReversed keep cs = '/' :: rest) :
    rest.length < keep := by
  fun_induction trimReversed keep cs with
  | case1 => exact nomatch h
  | case2 cs hlt => exact (List.cons.inj h).2 ▸ hlt
  | case3 cs _ ih => exact ih h
  | case4 => exact absurd (List.cons.inj h).1 (by decide)
  | case5 => exact nomatch h
  | case6 _ _ ih => exact ih h
  | case7 => exact absurd (List.cons.inj h).1 (by decide)
  | case8 cs _ hslash => exact absurd h (hslash _)

/-- A path that is trimmed ends in no point between slashes, but for one that is kept. -/
theorem trimReversed_point {keep : Nat} {cs rest : List Char} (h : trimReversed keep cs = '.' :: rest) :
    rest.length < keep ∨ rest ≠ [] ∧ rest.head? ≠ some '/' := by
  fun_induction trimReversed keep cs with
  | case1 => exact nomatch h
  | case2 => exact absurd (List.cons.inj h).1 (by decide)
  | case3 cs _ ih => exact ih h
  | case4 cs hlt => exact .inl ((List.cons.inj h).2 ▸ hlt)
  | case5 => exact nomatch h
  | case6 _ _ ih => exact ih h
  | case7 cs _ hempty hslash =>
    obtain rfl := (List.cons.inj h).2
    refine .inr ⟨hempty, fun hhead => ?_⟩
    obtain ⟨rest, rfl⟩ := List.head?_eq_some_iff.mp hhead
    exact hslash rest rfl
  | case8 _ _ _ hpoint => exact absurd h (hpoint rest)

/-- Nothing is trimmed off a path that ends in neither a slash nor a point between slashes. -/
theorem trimReversed_eq_self (keep : Nat) {cs : List Char} (hslash : cs.head? ≠ some '/')
    (hpoint : ∀ rest, cs = '.' :: rest → rest ≠ [] ∧ rest.head? ≠ some '/') :
    trimReversed keep cs = cs := by
  fun_cases trimReversed keep cs with
  | case1 => rfl
  | case2 => rfl
  | case3 => exact absurd rfl hslash
  | case4 => rfl
  | case5 => exact absurd rfl (hpoint [] rfl).1
  | case6 => exact absurd rfl (hpoint _ rfl).2
  | case7 => rfl
  | case8 => rfl

/-- Nothing is trimmed off a name. -/
theorem trimReversed_of_name (keep : Nat) (h : IsName name) (cs : List Char) :
    trimReversed keep (name.toList.reverse ++ cs) = name.toList.reverse ++ cs := by
  have hempty : name.toList ≠ [] := fun heq => h.ne_empty (String.toList_eq_nil_iff.mp heq)
  have hhere : name.toList ≠ ['.'] := fun heq => h.ne_here (String.toList_injective heq)
  have hslash : '/' ∉ name.toList.reverse := fun hmem => h.no_slash (List.mem_reverse.mp hmem)
  cases hname : name.toList.reverse with
  | nil => exact absurd (List.reverse_eq_nil_iff.mp hname) hempty
  | cons c front =>
    rw [hname] at hslash
    refine trimReversed_eq_self keep ?_ fun rest heq => ?_
    · rintro hc
      exact hslash (Option.some.inj hc ▸ List.mem_cons_self)
    · obtain ⟨rfl, rfl⟩ := List.cons.inj heq
      cases front with
      | nil =>
        exact absurd (List.reverse_injective (hname.trans List.reverse_singleton.symm)) hhere
      | cons d front =>
        refine ⟨List.cons_ne_nil _ _, fun hd => hslash ?_⟩
        exact List.mem_cons_of_mem _ (Option.some.inj hd ▸ List.mem_cons_self)

/-! ## A path without its last name -/

/-- What is left without the last name, if that has nothing but slashes around it. -/
theorem parentReversed_of_name (h : IsName name) {keep : Nat} {cs : List Char}
    (hslash : cs = [] ∨ cs.head? = some '/') (hkeep : keep ≤ cs.length) :
    parentReversed keep (name.toList.reverse ++ cs) = some (trimReversed keep cs) := by
  have hpos : 0 < name.toList.reverse.length :=
    List.length_pos_iff.mpr fun heq =>
      h.ne_empty (String.toList_eq_nil_iff.mp (List.reverse_eq_nil_iff.mp heq))
  have hname : ∀ c ∈ name.toList.reverse, (c != '/') = true := fun c hc =>
    bne_iff_ne.mpr fun heq => h.no_slash (heq ▸ List.mem_reverse.mp hc)
  have hrest : (cs.take (cs.length - keep)).takeWhile (· != '/') = [] := by
    rcases hslash with rfl | hslash
    · rw [List.take_nil, List.takeWhile_nil]
    · obtain ⟨rest, rfl⟩ := List.head?_eq_some_iff.mp hslash
      cases ('/' :: rest).length - keep <;> rfl
  have hcut : (name.toList.reverse ++ cs).length - keep
      = name.toList.reverse.length + (cs.length - keep) := by
    rw [List.length_append, Nat.add_sub_assoc hkeep]
  rw [parentReversed, trimReversed_of_name keep h, if_neg (by rw [List.length_append]; omega), hcut,
    List.take_length_add_append, List.takeWhile_append_of_pos hname, hrest, List.append_nil]
  exact congrArg (some ∘ trimReversed keep) List.drop_left

theorem bodyStart_le_one (cs : List Char) : bodyStart cs ≤ 1 := by
  fun_cases bodyStart cs <;> decide

/-- Where the components of a path start that ends in a name. -/
theorem bodyStart_le (h : IsName name) (cs : List Char) :
    bodyStart (cs ++ name.toList) ≤ cs.length ∧ bodyStart (cs ++ name.toList) ≤ 1 := by
  cases cs with
  | cons c cs =>
    have hle := bodyStart_le_one (c :: cs ++ name.toList)
    exact ⟨Nat.le_trans hle (Nat.le_add_left 1 _), hle⟩
  | nil =>
    have hhere : name.toList ≠ ['.'] := fun heq => h.ne_here (String.toList_injective heq)
    have hzero : bodyStart name.toList = 0 := by
      have hslash := h.no_slash
      revert hhere hslash
      generalize name.toList = cs
      intro hhere hslash
      fun_cases bodyStart cs with
      | case1 => exact absurd List.mem_cons_self hslash
      | case2 => exact absurd rfl hhere
      | case3 => exact absurd (List.mem_cons_of_mem _ List.mem_cons_self) hslash
      | case4 => rfl
    rw [List.nil_append, hzero]
    exact ⟨Nat.le_refl _, Nat.zero_le _⟩

/-- **The path that another one is put before a name for**, but for slashes and points at its end. -/
structure IsBefore (base name parent : String) : Prop where
  steps_eq : steps parent = steps base
  isAbsolute_eq : parent ≠ "" → isAbsolute parent = isAbsolute base
  begins : ∃ rest, parent ++ rest = join base name
  root : endsInSlash parent = true → parent = "/"

/-- **The directory of a name below a path is that path.** -/
theorem parent?_join (base : String) (h : IsName name) :
    ∃ parent, parent? (join base name) = some parent ∧ IsBefore base name parent := by
  obtain ⟨cs, hcs, hslash⟩ := exists_toList_join base h
  obtain ⟨hkeep, hone⟩ := bodyStart_le h cs
  have hrev : cs.reverse = [] ∨ cs.reverse.head? = some '/' := by
    rwa [List.reverse_eq_nil_iff, List.head?_reverse]
  have hkeep' : bodyStart (cs ++ name.toList) ≤ cs.reverse.length := by
    rwa [List.length_reverse]
  have hfront : join (String.ofList cs) name = join base name := by
    rw [join_of_front (by rwa [String.toList_ofList]) h.isAbsolute_eq]
    exact String.toList_injective (by rw [String.toList_append, String.toList_ofList, hcs])
  have hbegins : (trimReversed (bodyStart (cs ++ name.toList)) cs.reverse).reverse
      <+: (join base name).toList := by
    rw [hcs]
    refine List.IsPrefix.trans ?_ (List.prefix_append cs _)
    simpa using List.reverse_prefix.mpr (trimReversed_suffix (bodyStart (cs ++ name.toList)) cs.reverse)
  refine ⟨String.ofList (trimReversed (bodyStart (cs ++ name.toList)) cs.reverse).reverse, ?_,
    ?_, fun hne => ?_, ?_, fun hends => ?_⟩
  · rw [parent?, hcs, List.reverse_append]
    exact congrArg (Option.map fun p => String.ofList p.reverse)
      (parentReversed_of_name h hrev hkeep')
  · have hsteps : steps (String.ofList cs) ++ [name] = steps base ++ [name] := by
      rw [← steps_join base h, ← steps_join _ h, hfront]
    rw [steps_trimReversed, List.reverse_reverse]
    exact List.append_cancel_right hsteps
  · rw [← isAbsolute_join base h, isAbsolute, isAbsolute, String.toList_ofList]
    obtain ⟨rest, hrest⟩ := hbegins
    rw [← hrest, List.head?_append_of_ne_nil]
    intro hnil
    rw [hnil] at hne
    exact hne rfl
  · obtain ⟨rest, hrest⟩ := hbegins
    refine ⟨String.ofList rest, String.toList_injective ?_⟩
    rw [String.toList_append, String.toList_ofList, String.toList_ofList, hrest]
  · rw [endsInSlash, beq_iff_eq, String.toList_ofList, List.getLast?_reverse] at hends
    obtain ⟨rest, hrest⟩ := List.head?_eq_some_iff.mp hends
    have hshort := length_trimReversed hrest
    obtain rfl : rest = [] := List.length_eq_zero_iff.mp (by omega)
    rw [hrest]
    rfl

/-! ## Any path without its last component -/

/-- Nothing but a slash, or a point before one, is kept at the front of a path. -/
theorem bodyStart_cases (cs : List Char) :
    bodyStart cs = 0 ∨ bodyStart cs = 1 ∧ (cs.head? = some '/' ∨ cs = ['.'] ∨ cs[1]? = some '/') := by
  fun_cases bodyStart cs with
  | case1 => exact .inr ⟨rfl, .inl rfl⟩
  | case2 => exact .inr ⟨rfl, .inr (.inl rfl)⟩
  | case3 => exact .inr ⟨rfl, .inr (.inr rfl)⟩
  | case4 => exact .inl rfl

/-- **What is kept at the front of a path**: nothing, or one character that a slash is or comes
behind. -/
def KeepsFront (keep : Nat) (cs : List Char) : Prop :=
  keep = 0 ∨ keep = 1 ∧ (cs.head? = some '/' ∨ cs[1]? = some '/')

/-- **The last component of a reversed path** that is longer than what is kept of it. -/
theorem exists_component {keep : Nat} {body : List Char} (hlong : keep < body.length)
    (hkeep : KeepsFront keep body.reverse) (hslash : body.head? ≠ some '/') :
    ∃ name front, (body.take (body.length - keep)).takeWhile (· != '/') = name ∧
      body = name ++ front ∧ name ≠ [] ∧ '/' ∉ name ∧ (front = [] ∨ front.head? = some '/') := by
  have hbody := List.take_append_drop (body.length - keep) body
  have hkept : (body.drop (body.length - keep)).length = keep := by
    rw [List.length_drop]
    omega
  have hshort : body.take (body.length - keep) ≠ [] := by
    rw [Ne, List.take_eq_nil_iff]
    rintro (hzero | rfl)
    · omega
    · exact absurd hlong (Nat.not_lt_zero _)
  generalize body.take (body.length - keep) = front at hbody hshort ⊢
  generalize body.drop (body.length - keep) = kept at hbody hkept
  subst hbody
  obtain ⟨c, rest, rfl⟩ := List.exists_cons_of_ne_nil hshort
  have hc : (c != '/') = true := by simpa using hslash
  refine ⟨_, (c :: rest).dropWhile (· != '/') ++ kept, rfl, ?_, ?_, fun hmem => ?_, ?_⟩
  · rw [← List.append_assoc, List.takeWhile_append_dropWhile]
  · rw [List.takeWhile_cons_of_pos (p := (· != '/')) hc]
    exact List.cons_ne_nil _ _
  · simpa using List.mem_takeWhile_imp hmem
  cases hdrop : (c :: rest).dropWhile (· != '/') with
  | cons d ds =>
    have hd := List.head?_dropWhile_not (· != '/') (c :: rest)
    rw [hdrop] at hd
    exact .inr (congrArg some (by simpa using hd))
  | nil =>
    -- The component goes down to what is kept, which is the slash then.
    rw [List.nil_append]
    rcases hkeep with rfl | ⟨rfl, hfirst | hsecond⟩
    · exact .inl (List.length_eq_zero_iff.mp hkept)
    · obtain ⟨d, rfl⟩ := List.length_eq_one_iff.mp hkept
      rw [List.reverse_append] at hfirst
      exact .inr hfirst
    · obtain ⟨d, rfl⟩ := List.length_eq_one_iff.mp hkept
      have hnone : '/' ∉ c :: rest := fun hmem => by
        simpa using List.dropWhile_eq_nil_iff.mp hdrop _ hmem
      refine absurd (List.mem_reverse.mp (List.mem_of_getElem? (i := 0) ?_)) hnone
      simpa using hsecond

/-- What begins a text starts at the root if the text does. -/
theorem isAbsolute_of_begins {s : String} (hne : s ≠ "") (h : s.toList <+: path.toList) :
    isAbsolute s = isAbsolute path := by
  obtain ⟨rest, hrest⟩ := h
  rw [isAbsolute, isAbsolute, ← hrest, List.head?_append_of_ne_nil]
  exact fun hnil => hne (String.toList_eq_nil_iff.mp hnil)

/-- What is left of a path after trimming keeps its front. -/
theorem KeepsFront.of_trimmed {cs : List Char}
    (hlong : bodyStart cs < (trimReversed (bodyStart cs) cs.reverse).length) :
    KeepsFront (bodyStart cs) (trimReversed (bodyStart cs) cs.reverse).reverse := by
  have hbegins := List.reverse_prefix.mpr (trimReversed_suffix (bodyStart cs) cs.reverse)
  rw [List.reverse_reverse] at hbegins
  obtain ⟨rest, hrest⟩ := hbegins
  generalize trimReversed (bodyStart cs) cs.reverse = body at hlong hrest ⊢
  have hget {i : Nat} (hi : i ≤ bodyStart cs) : body.reverse[i]? = cs[i]? := by
    rw [← hrest, List.getElem?_append_left (by rw [List.length_reverse]; omega)]
  rcases bodyStart_cases cs with hzero | ⟨hone, hfirst | rfl | hsecond⟩
  · exact .inl hzero
  · rw [List.head?_eq_getElem?] at hfirst
    exact .inr ⟨hone, .inl (by rw [List.head?_eq_getElem?, hget (Nat.zero_le _), hfirst])⟩
  · have hlength := congrArg List.length hrest
    rw [List.length_append, List.length_reverse, List.length_singleton] at hlength
    omega
  · exact .inr ⟨hone, .inr (by rw [hget (by omega), hsecond])⟩

/-- A path that is all front has nothing before its last component. -/
theorem parentReversed_of_short {keep : Nat} {cs rest : List Char}
    (hshort : (trimReversed keep cs).length ≤ keep) (h : parentReversed keep cs = some rest) :
    rest = [] := by
  rw [parentReversed, if_pos hshort] at h
  split_ifs at h
  exact (Option.some.inj h).symm

/-- **A path that is longer than its front** goes on with its last component from what is before it. -/
theorem exists_of_parentReversed {keep : Nat} {cs : List Char}
    (hlong : keep < (trimReversed keep cs).length)
    (hkeep : KeepsFront keep (trimReversed keep cs).reverse) :
    ∃ name front, trimReversed keep cs = name ++ front ∧
      parentReversed keep cs = some (trimReversed keep front) ∧
      name ≠ [] ∧ name ≠ ['.'] ∧ '/' ∉ name ∧ (front = [] ∨ front.head? = some '/') := by
  obtain ⟨name, front, hname, hbody, hempty, hslash, hfront⟩ := exists_component hlong hkeep
    fun hslash => by
      obtain ⟨cs', hcs⟩ := List.head?_eq_some_iff.mp hslash
      have hlt := length_trimReversed hcs
      rw [hcs, List.length_cons] at hlong
      omega
  refine ⟨name, front, hbody, ?_, hempty, ?_, hslash, hfront⟩
  · rw [parentReversed, if_neg (Nat.not_le.mpr hlong), hname, hbody]
    exact congrArg (some ∘ trimReversed keep) List.drop_left
  · rintro rfl
    rw [hbody, List.singleton_append, List.length_cons] at hlong
    rcases trimReversed_point hbody with hlt | ⟨hne, hnone⟩
    · exact absurd hlt (Nat.not_lt.mpr (Nat.le_of_lt_succ hlong))
    · exact hfront.elim hne hnone

/-- **The steps of a path that is longer than its front** are those before its last component, and that. -/
theorem steps_of_long (hlong : bodyStart path.toList
      < (trimReversed (bodyStart path.toList) path.toList.reverse).length) :
    ∃ name front, trimReversed (bodyStart path.toList) path.toList.reverse = name ++ front ∧
      parent? path = some (String.ofList (trimReversed (bodyStart path.toList) front).reverse) ∧
      '/' ∉ name ∧ steps path = steps (String.ofList front.reverse) ++ [String.ofList name.reverse] := by
  obtain ⟨name, front, hbody, hparent, hempty, hhere, hslash, hfront⟩ :=
    exists_of_parentReversed hlong (.of_trimmed hlong)
  refine ⟨name, front, hbody, by rw [parent?, hparent]; rfl, hslash, ?_⟩
  have hsteps := steps_trimReversed (bodyStart path.toList) path.toList.reverse
  rw [List.reverse_reverse, String.ofList_toList, hbody] at hsteps
  have hfront' : (String.ofList front.reverse).toList = [] ∨
      (String.ofList front.reverse).toList.getLast? = some '/' := by
    rwa [String.toList_ofList, List.reverse_eq_nil_iff, List.getLast?_reverse]
  have hname : steps (String.ofList name.reverse) = [String.ofList name.reverse] := by
    refine steps_of_component (fun heq => ?_) (fun heq => ?_) ?_
    · exact hempty (List.reverse_eq_nil_iff.mp (String.ofList_eq_empty_iff.mp heq))
    · exact hhere (List.reverse_injective (String.ofList_injective heq))
    · rwa [String.toList_ofList, List.mem_reverse]
  rw [← hsteps, List.reverse_append, String.ofList_append, steps_append_of_front _ hfront', hname]

/-- **The path before the last component of a path** has all its steps but the last one. -/
theorem parent?_spec {parent : String} (h : parent? path = some parent) (hne : parent ≠ "") :
    (∃ name, steps path = steps parent ++ [name]) ∧ isAbsolute parent = isAbsolute path := by
  have hlong : bodyStart path.toList
      < (trimReversed (bodyStart path.toList) path.toList.reverse).length := by
    by_contra hshort
    obtain ⟨rest, hrest, rfl⟩ := Option.map_eq_some_iff.mp h
    exact hne (by rw [parentReversed_of_short (Nat.not_lt.mp hshort) hrest]; rfl)
  obtain ⟨name, front, hbody, hparent, -, hsteps⟩ := steps_of_long hlong
  obtain rfl := Option.some.inj (hparent.symm.trans h)
  refine ⟨⟨String.ofList name.reverse, by rw [hsteps, steps_trimReversed]⟩, isAbsolute_of_begins hne ?_⟩
  have hends := trimReversed_suffix (bodyStart path.toList) path.toList.reverse
  rw [hbody] at hends
  have hbegins := List.reverse_prefix.mpr
    (((trimReversed_suffix (bodyStart path.toList) front).trans (List.suffix_append name front)).trans
      hends)
  rwa [List.reverse_reverse, ← String.toList_ofList (l := List.reverse _)] at hbegins

/-! ## Paths that end in a name -/

/-- **What the last component of a path is**, if it is a name. -/
theorem steps_of_fileName? (h : fileName? path = some name) :
    IsName name ∧ ∃ before, steps path = before ++ [name] := by
  have hlast : (steps path).getLast? = some name ∧ name ≠ ".." := by
    rw [fileName?] at h
    split at h
    · exact nomatch h
    · refine ⟨h, ?_⟩
      rintro rfl
      contradiction
  obtain ⟨before, hbefore⟩ := List.getLast?_eq_some_iff.mp hlast.1
  obtain ⟨hempty, hhere, hslash⟩ := of_mem_steps (List.mem_of_getLast? hlast.1)
  exact ⟨⟨hempty, hhere, hlast.2, hslash⟩, before, hbefore⟩

/-- Trimming does not touch what is kept at the front. -/
theorem le_length_trimReversed {keep : Nat} {cs : List Char} (h : keep ≤ cs.length) :
    keep ≤ (trimReversed keep cs).length := by
  fun_induction trimReversed keep cs with
  | case1 => exact h
  | case2 => exact h
  | case3 cs hlong ih => exact ih (Nat.not_lt.mp hlong)
  | case4 => exact h
  | case5 hlong => exact Nat.not_lt.mp hlong
  | case6 cs hlong ih => exact ih (Nat.not_lt.mp hlong)
  | case7 => exact h
  | case8 => exact h

/-- The front of a path is a slash or a point. -/
theorem head?_of_bodyStart {cs : List Char} (h : 0 < bodyStart cs) :
    cs.head? = some '/' ∨ cs.head? = some '.' := by
  fun_cases bodyStart cs with
  | case1 => exact .inl rfl
  | case2 => exact .inr rfl
  | case3 => exact .inr rfl
  | case4 cs hslash hhere hfront =>
    rw [bodyStart] at h
    · exact absurd h (Nat.lt_irrefl 0)
    · exact hslash
    · exact hhere
    · exact hfront

/-- A path that has a name in it is longer than its front. -/
theorem long_of_fileName? (h : fileName? path = some name) : bodyStart path.toList
    < (trimReversed (bodyStart path.toList) path.toList.reverse).length := by
  by_contra hshort
  have hsteps := steps_trimReversed (bodyStart path.toList) path.toList.reverse
  have hends := trimReversed_suffix (bodyStart path.toList) path.toList.reverse
  rw [List.reverse_reverse, String.ofList_toList] at hsteps
  generalize trimReversed (bodyStart path.toList) path.toList.reverse = body at hshort hsteps hends
  have hnothing : steps (String.ofList body.reverse) = [] := by
    cases body with
    | nil => rfl
    | cons c rest =>
      rw [List.length_cons] at hshort
      have hone := bodyStart_le_one path.toList
      obtain rfl : rest = [] := List.length_eq_zero_iff.mp (by omega)
      obtain ⟨behind, hbehind⟩ := hends
      have hhead : path.toList.head? = some c := by
        rw [← List.getLast?_reverse, ← hbehind, List.getLast?_concat]
      rcases head?_of_bodyStart (by omega : 0 < bodyStart path.toList) with hfirst | hfirst
      · obtain rfl := Option.some.inj (hhead.symm.trans hfirst)
        rfl
      · obtain rfl := Option.some.inj (hhead.symm.trans hfirst)
        rfl
  obtain ⟨-, before, hbefore⟩ := steps_of_fileName? h
  rw [← hsteps, hnothing] at hbefore
  exact absurd hbefore (by simp)

/-- A path whose front goes on with nothing but a name starts where that is looked up. -/
theorem isAbsolute_of_front_nil {name front : List Char}
    (hbody : trimReversed (bodyStart path.toList) path.toList.reverse = name ++ front)
    (hlong : bodyStart path.toList < (name ++ front).length) (hslash : '/' ∉ name)
    (hnil : trimReversed (bodyStart path.toList) front = []) : isAbsolute path = false := by
  have hkeep := KeepsFront.of_trimmed (hbody ▸ hlong)
  rw [hbody] at hkeep
  rcases hkeep with hzero | ⟨hone, hfront⟩
  · rw [isAbsolute]
    refine beq_eq_false_iff_ne.mpr fun hhead => ?_
    obtain ⟨rest, hrest⟩ := List.head?_eq_some_iff.mp hhead
    rw [hrest] at hzero
    exact absurd hzero Nat.one_ne_zero
  · -- Something is kept, so there is no front but in the name.
    obtain rfl : front = [] := by
      by_contra hne
      have hpos : bodyStart path.toList ≤ front.length := by
        rw [hone]
        exact List.length_pos_iff.mpr hne
      have hle := le_length_trimReversed hpos
      rw [hnil, hone] at hle
      exact absurd hle (by decide)
    rw [List.append_nil] at hfront
    refine absurd (List.mem_reverse.mp ?_) hslash
    rcases hfront with hfirst | hsecond
    · exact List.mem_of_mem_head? hfirst
    · exact List.mem_of_getElem? hsecond

/-- **A path that ends in a name** is that name below its parent. -/
theorem fileName?_spec (h : fileName? path = some name) : IsName name ∧
    steps path = steps ((parent? path).getD "") ++ [name] ∧
      isAbsolute ((parent? path).getD "") = isAbsolute path := by
  obtain ⟨hname, before, hsteps⟩ := steps_of_fileName? h
  have hlong := long_of_fileName? h
  obtain ⟨last, front, hbody, hparent, hslash, hsteps'⟩ := steps_of_long hlong
  have hlast : String.ofList last.reverse = name :=
    List.singleton_inj.mp (List.append_inj' (hsteps'.symm.trans hsteps) rfl).2
  refine ⟨hname, ?_, ?_⟩
  · rw [hparent, Option.getD_some, steps_trimReversed, hsteps', hlast]
  · rw [hparent, Option.getD_some]
    by_cases hne : String.ofList (trimReversed (bodyStart path.toList) front).reverse = ""
    · rw [hne, isAbsolute_of_front_nil hbody (hbody ▸ hlong) hslash
        (List.reverse_eq_nil_iff.mp (String.ofList_eq_empty_iff.mp hne))]
      rfl
    · exact (parent?_spec hparent hne).2

end Rollout.Path
