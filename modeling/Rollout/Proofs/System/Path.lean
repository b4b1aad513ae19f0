import Mathlib.Data.List.Basic
import Mathlib.Data.List.Induction
import Mathlib.Tactic.SplitIfs
import Rollout.System.Path

/-!
# Proofs/System/Path — one name below a path

A path is what it walks through: `Path.steps`.  Cutting a path at a slash cuts its steps
(`steps_append`), so hanging a single name below a path adds that name as the last step and nothing
else (`steps_join`), and does not change where the path starts (`isAbsolute_join`).
-/

namespace Rollout

/-- **The pieces of a text are those of the standard library.** -/
theorem Text.splitAt_eq_splitOn (sep : Char) : ∀ cs : List Char, splitAt sep cs = cs.splitOn sep
  | [] => by rw [splitAt, List.splitOn_nil]
  | c :: cs => by
      rw [splitAt, List.splitOn_cons_eq_if_modifyHead, splitAt_eq_splitOn sep cs]
      by_cases h : c = sep
      · rw [if_pos h, if_pos (beq_iff_eq.mpr h)]
      · rw [if_neg h, if_neg (by simpa using h)]
        cases hsplit : cs.splitOn sep with
        | nil => exact absurd hsplit (List.splitOn_ne_nil sep cs)
        | cons p ps => rfl

/-- No piece of a text holds the separator. -/
theorem Text.not_mem_of_mem_splitAt (sep : Char) : ∀ {cs p : List Char}, p ∈ splitAt sep cs → sep ∉ p
  | [], p, h => by
      rw [List.mem_singleton.mp h]
      exact List.not_mem_nil
  | c :: cs, p, h => by
      have ih {p : List Char} (hp : p ∈ splitAt sep cs) : sep ∉ p := not_mem_of_mem_splitAt sep hp
      rw [splitAt] at h
      split_ifs at h with hc
      · rcases List.mem_cons.mp h with rfl | h
        · exact List.not_mem_nil
        · exact ih h
      cases hsplit : splitAt sep cs with
      | nil =>
        rw [hsplit] at h
        rw [List.mem_singleton.mp h]
        exact fun hmem => hc (List.mem_singleton.mp hmem).symm
      | cons first rest =>
        rw [hsplit] at h ih
        rcases List.mem_cons.mp h with rfl | h
        · refine fun hmem => ?_
          rcases List.mem_cons.mp hmem with rfl | hmem
          · exact hc rfl
          · exact ih List.mem_cons_self hmem
        · exact ih (List.mem_cons_of_mem _ h)

namespace Path

/-- **The steps on either side of a slash.** -/
theorem steps_append (s t : String) : steps (s ++ "/" ++ t) = steps s ++ steps t := by
  have hchars : (s ++ "/" ++ t).toList = s.toList ++ '/' :: t.toList := by
    rw [String.toList_append, String.toList_append, List.append_assoc]
    rfl
  rw [steps, pieces, hchars, Text.splitAt_eq_splitOn, List.splitOn_append_cons_self,
    List.filter_append, List.map_append, steps, steps, pieces, pieces, Text.splitAt_eq_splitOn,
    Text.splitAt_eq_splitOn]

/-- A slash at the end is no step. -/
theorem steps_slash (s : String) : steps (s ++ "/") = steps s := by
  have hnothing := steps_append s ""
  rwa [String.append_empty, show steps "" = [] from rfl, List.append_nil] at hnothing

/-- **A component of a path is a step of it**, unless it stands for the directory it is in. -/
theorem steps_of_component {name : String} (hempty : name ≠ "") (hhere : name ≠ ".")
    (hslash : '/' ∉ name.toList) : steps name = [name] := by
  have hempty : name.toList ≠ [] := fun heq => hempty (String.toList_eq_nil_iff.mp heq)
  have hhere : name.toList ≠ ['.'] := fun heq => hhere (String.toList_injective heq)
  rw [steps, pieces, Text.splitAt_eq_splitOn, List.splitOn_eq_singleton hslash,
    List.filter_cons_of_pos (by simp [hempty, hhere]), List.filter_nil, List.map_singleton,
    String.ofList_toList]

/-- **The steps of a path are components** that do not stand for the directory they are in. -/
theorem of_mem_steps {path name : String} (h : name ∈ steps path) :
    name ≠ "" ∧ name ≠ "." ∧ '/' ∉ name.toList := by
  obtain ⟨piece, hpiece, rfl⟩ := List.mem_map.mp h
  obtain ⟨hmem, hkeep⟩ := List.mem_filter.mp hpiece
  have hslash := Text.not_mem_of_mem_splitAt '/' hmem
  refine ⟨?_, ?_, by rwa [String.toList_ofList]⟩
  · rw [Ne, String.ofList_eq_empty_iff]
    rintro rfl
    exact absurd hkeep (by decide)
  · intro heq
    rw [show "." = String.ofList ['.'] from rfl] at heq
    obtain rfl := String.ofList_injective heq
    exact absurd hkeep (by decide)

/-- **The name of something in a directory**: it is not empty, it is neither of the two that stand for
a directory itself and the one above, and it has no slash in it. -/
structure IsName (s : String) : Prop where
  ne_empty : s ≠ ""
  ne_here : s ≠ "."
  ne_above : s ≠ ".."
  no_slash : '/' ∉ s.toList

namespace IsName

variable {name : String}

/-- A text without a slash is a name if it is longer than two characters. -/
theorem of_length (hslash : '/' ∉ name.toList) (hlength : 2 < name.length) : IsName name := by
  refine ⟨?_, ?_, ?_, hslash⟩ <;> rintro rfl <;> exact absurd hlength (by decide)

/-- A name stays one with something behind it. -/
theorem append (h : IsName name) {suffix : String} (hslash : '/' ∉ suffix.toList)
    (hlength : 2 < suffix.length) : IsName (name ++ suffix) := by
  refine of_length ?_ ?_
  · rw [String.toList_append, List.mem_append, not_or]
    exact ⟨h.no_slash, hslash⟩
  · rw [String.length_append]
    exact Nat.lt_of_lt_of_le hlength (Nat.le_add_left _ _)

/-- **A path that is a name has one step.** -/
theorem steps_eq (h : IsName name) : steps name = [name] :=
  steps_of_component h.ne_empty h.ne_here h.no_slash

/-- A name does not start at the root. -/
theorem isAbsolute_eq (h : IsName name) : isAbsolute name = false := by
  rw [isAbsolute]
  exact beq_eq_false_iff_ne.mpr fun heq => h.no_slash (List.mem_of_mem_head? heq)

end IsName

variable {base name : String}

/-- What ends in a slash is something before the slash. -/
theorem exists_of_endsInSlash (h : endsInSlash base = true) : ∃ s, s ++ "/" = base := by
  obtain ⟨cs, hcs⟩ := List.getLast?_eq_some_iff.mp (beq_iff_eq.mp h)
  refine ⟨String.ofList cs, String.toList_injective ?_⟩
  rw [String.toList_append, String.toList_ofList, hcs]
  rfl

/-- Behind a slash, or nothing, the steps of a path go on. -/
theorem steps_append_of_front (last : String)
    (hfront : base.toList = [] ∨ base.toList.getLast? = some '/') :
    steps (base ++ last) = steps base ++ steps last := by
  rcases hfront with hnil | hslash
  · obtain rfl := String.toList_eq_nil_iff.mp hnil
    rw [String.empty_append]
    rfl
  · obtain ⟨s, rfl⟩ := exists_of_endsInSlash (beq_iff_eq.mpr hslash)
    rw [steps_append, steps_slash]

/-- Behind a slash, or nothing, what has no slash starts where the path before it does. -/
theorem isAbsolute_append_of_front {last : String} (hslash : '/' ∉ last.toList) :
    isAbsolute (base ++ last) = isAbsolute base := by
  rw [isAbsolute, isAbsolute, String.toList_append]
  cases hbase : base.toList with
  | cons c cs => rfl
  | nil =>
    rw [List.nil_append]
    refine (beq_eq_false_iff_ne.mpr fun heq => hslash (List.mem_of_mem_head? heq)).trans ?_
    rfl

/-- What is put behind a path that ends in a name is put behind the name. -/
theorem join_append (base : String) {suffix : String} (h : IsName name)
    (happend : IsName (name ++ suffix)) : join base name ++ suffix = join base (name ++ suffix) := by
  rw [join, join, h.isAbsolute_eq, happend.isAbsolute_eq, if_neg Bool.false_ne_true,
    if_neg Bool.false_ne_true]
  split_ifs
  · rw [String.append_assoc]
  · rw [String.append_assoc]

/-- **A name below a path is its last step.** -/
theorem steps_join (base : String) (h : IsName name) :
    steps (join base name) = steps base ++ [name] := by
  rw [join, h.isAbsolute_eq, if_neg Bool.false_ne_true]
  split_ifs with hbase
  · rcases Bool.or_eq_true_iff.mp hbase with hempty | hslash
    · obtain rfl : base = "" := String.isEmpty_iff.mp hempty
      rw [String.empty_append, h.steps_eq]
      rfl
    · obtain ⟨s, rfl⟩ := exists_of_endsInSlash hslash
      rw [steps_append, steps_slash, h.steps_eq]
  · rw [steps_append, h.steps_eq]

/-- **A name below a path starts where the path does.** -/
theorem isAbsolute_join (base : String) (h : IsName name) :
    isAbsolute (join base name) = isAbsolute base := by
  have happend {s t : String} (hs : s ≠ "") : isAbsolute (s ++ t) = isAbsolute s := by
    have hne : s.toList ≠ [] := fun heq => hs (String.toList_eq_nil_iff.mp heq)
    rw [isAbsolute, String.toList_append, List.head?_append_of_ne_nil _ hne, isAbsolute]
  rw [join, h.isAbsolute_eq, if_neg Bool.false_ne_true]
  by_cases hempty : base = ""
  · subst hempty
    exact h.isAbsolute_eq
  · split_ifs
    · exact happend hempty
    · rw [String.append_assoc]
      exact happend hempty

/-- What follows a path that is empty or ends in a slash follows it as it is. -/
theorem join_of_front (hfront : base.toList = [] ∨ base.toList.getLast? = some '/')
    (hname : isAbsolute name = false) : join base name = base ++ name := by
  have hends : (base.isEmpty || endsInSlash base) = true := by
    rw [Bool.or_eq_true_iff]
    refine hfront.imp (fun hnil => ?_) beq_iff_eq.mpr
    exact String.isEmpty_iff.mpr (String.toList_eq_nil_iff.mp hnil)
  rw [join, hname, if_neg Bool.false_ne_true, if_pos hends]

/-- **Every path is something without a slash below a path.** -/
theorem exists_join (path : String) : ∃ base last, join base last = path ∧ '/' ∉ last.toList ∧
    path.toList = base.toList ++ last.toList ∧
    (base.toList = [] ∨ base.toList.getLast? = some '/') := by
  obtain ⟨front, last, hpath, hslash, hfront⟩ : ∃ front last, path.toList = front ++ last ∧
      '/' ∉ last ∧ (front = [] ∨ front.getLast? = some '/') := by
    induction path.toList using List.reverseRecOn with
    | nil => exact ⟨[], [], rfl, List.not_mem_nil, .inl rfl⟩
    | append_singleton cs c ih =>
      by_cases hc : c = '/'
      · exact ⟨cs ++ [c], [], (List.append_nil _).symm, List.not_mem_nil,
          .inr (by rw [hc, List.getLast?_concat])⟩
      · obtain ⟨front, last, rfl, hslash, hfront⟩ := ih
        refine ⟨front, last ++ [c], List.append_assoc _ _ _, ?_, hfront⟩
        simpa [hslash] using Ne.symm hc
  have hname : isAbsolute (String.ofList last) = false := by
    rw [isAbsolute, String.toList_ofList]
    exact beq_eq_false_iff_ne.mpr fun heq => hslash (List.mem_of_mem_head? heq)
  refine ⟨String.ofList front, String.ofList last, ?_, by rwa [String.toList_ofList],
    by rwa [String.toList_ofList, String.toList_ofList], by rwa [String.toList_ofList]⟩
  rw [join_of_front (by rwa [String.toList_ofList]) hname]
  exact String.toList_injective (by rw [String.toList_append, String.toList_ofList,
    String.toList_ofList, hpath])

/-- The text of a name below a path ends in the name. -/
theorem exists_toList_join (base : String) (h : IsName name) :
    ∃ cs, (join base name).toList = cs ++ name.toList ∧ (cs = [] ∨ cs.getLast? = some '/') := by
  rw [join, h.isAbsolute_eq, if_neg Bool.false_ne_true]
  split_ifs with hbase
  · refine ⟨base.toList, String.toList_append, ?_⟩
    rcases Bool.or_eq_true_iff.mp hbase with hempty | hslash
    · exact .inl (String.toList_eq_nil_iff.mpr (String.isEmpty_iff.mp hempty))
    · exact .inr (beq_iff_eq.mp hslash)
  · refine ⟨base.toList ++ ['/'], ?_, .inr List.getLast?_concat⟩
    rw [String.toList_append, String.toList_append]
    rfl

/-- A name below a path is no directory by its text. -/
theorem endsInSlash_join (base : String) (h : IsName name) :
    endsInSlash (join base name) = false := by
  obtain ⟨cs, hcs, -⟩ := exists_toList_join base h
  have hne : name.toList ≠ [] := fun heq => h.ne_empty (String.toList_eq_nil_iff.mp heq)
  rw [endsInSlash, hcs, List.getLast?_append_of_ne_nil _ hne]
  exact beq_eq_false_iff_ne.mpr fun heq => h.no_slash (List.mem_of_getLast? heq)

/-! ## Any path -/

/-- **A path, cut behind its last slash.** -/
structure Split (path base last : String) : Prop where
  eq : base ++ last = path
  no_slash : '/' ∉ last.toList
  front : base.toList = [] ∨ base.toList.getLast? = some '/'

theorem exists_split (path : String) : ∃ base last, Split path base last := by
  obtain ⟨base, last, -, hslash, hpath, hfront⟩ := exists_join path
  exact ⟨base, last, String.toList_injective (by rw [String.toList_append, hpath]), hslash, hfront⟩

namespace Split

variable {path last : String} (h : Split path base last)
include h

theorem steps_eq : steps path = steps base ++ steps last := by
  rw [← h.eq, steps_append_of_front last h.front]

theorem isAbsolute_eq : isAbsolute path = isAbsolute base := by
  rw [← h.eq, isAbsolute_append_of_front h.no_slash]

/-- What is put behind a path is a name below its front. -/
theorem append {suffix : String} (hname : IsName (last ++ suffix)) :
    path ++ suffix = join base (last ++ suffix) := by
  rw [join_of_front h.front hname.isAbsolute_eq, ← h.eq, String.append_assoc]

theorem eq_join (hname : IsName last) : path = join base last := by
  rw [join_of_front h.front hname.isAbsolute_eq, h.eq]

end Split

/-- The last component of a path is a name, or stands for a directory. -/
theorem isName_or (hslash : '/' ∉ name.toList) :
    IsName name ∨ name = "" ∨ name = "." ∨ name = ".." := by
  by_cases hempty : name = ""
  · exact .inr (.inl hempty)
  by_cases hhere : name = "."
  · exact .inr (.inr (.inl hhere))
  by_cases habove : name = ".."
  · exact .inr (.inr (.inr habove))
  exact .inl ⟨hempty, hhere, habove, hslash⟩

/-- A component is one step at most. -/
theorem length_steps_le (hslash : '/' ∉ name.toList) : (steps name).length ≤ 1 := by
  rcases isName_or hslash with hname | rfl | rfl | rfl
  · rw [hname.steps_eq]
    exact Nat.le_refl 1
  · exact Nat.zero_le 1
  · exact Nat.zero_le 1
  · exact Nat.le_refl 1

end Path

end Rollout
