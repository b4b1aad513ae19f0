import Rollout.Proofs.Render.Replace
import Rollout.Proofs.System.Site
import Rollout.Proofs.Text.Bytes

/-!
# Proofs/Render/Fitting — which names of a file fit

The paths of a file are names below one path, whatever its own last component is (`numbered_eq_join`,
`draftOf_eq_join`).  The higher the number of a version, the longer its name, and the name of the draft is
longer than that of the file and that of the youngest version.  So where a version has room for its name,
all younger ones have (`fits_numbered_of_le`), and where the draft has, so have the file and the youngest
version.
-/

namespace Rollout

open FileTree

variable {base last name path : String} {t : FileTree} {k j : Nat}

/-! ## Bytes of a number -/

namespace Text

theorem utf8ByteSize_decimal (n : Nat) : (decimal n).utf8ByteSize = (digits n).length := by
  have hone : ∀ c ∈ digits n, c.utf8Size = 1 := fun c hc => by
    have hdigit := isDigit_iff_toNat.mp (isDigit_of_mem_digits hc)
    exact Char.utf8Size_eq_one_iff.mpr (UInt32.le_iff_toNat_le.mpr (hdigit.2.trans (by decide)))
  rw [← length_bytes, bytes_eq, toList_decimal, List.length_flatMap,
    List.map_congr_left fun c hc => (String.length_utf8EncodeChar c).trans (hone c hc)]
  simp

/-- The larger number has no fewer digits. -/
theorem length_digits_le (h : j ≤ k) : (digits j).length ≤ (digits k).length := by
  have hpos : 0 < (digits k).length := List.length_pos_iff.mpr (digits_ne_nil k)
  have hlt := (Nat.length_toDigits_le_iff (by decide) hpos).mp (Nat.le_refl (digits k).length)
  exact (Nat.length_toDigits_le_iff (by decide) hpos).mpr (Nat.lt_of_le_of_lt h hlt)

end Text

/-! ## Below the front of a path -/

section Split

variable (h : Path.Split path base last)
include h

/-- **A numbered version lies beside the path, or in it.** -/
theorem numbered_eq_join (k : Nat) :
    Path.numbered path k = Path.join base (Path.numbered last k) := by
  have hname := isName_numbered_of_component h.no_slash k
  rw [Path.numbered, String.append_assoc] at hname ⊢
  rw [Path.numbered, String.append_assoc]
  exact h.append hname

theorem draftOf_eq_join : draftOf path = Path.join base (draftOf last) :=
  h.append (isName_draft_of_component h.no_slash)

theorem goal_numbered (k : Nat) :
    t.goal (Path.numbered path k) = t.goal base ++ [Path.numbered last k] := by
  rw [numbered_eq_join h, goal_join t base (isName_numbered_of_component h.no_slash k)]

/-- Where a path leads, seen from its front. -/
theorem goal_eq_reach : t.goal path = reach (t.goal base) (Path.steps last) := by
  rw [goal, goal, h.steps_eq, reach_append, startOf, startOf, h.isAbsolute_eq]

theorem turnsOf_eq_append :
    t.turnsOf path = t.turnsOf base ++ turns (t.goal base) (Path.steps last) := by
  rw [turnsOf, turnsOf, goal, h.steps_eq, turns_append, startOf, startOf, h.isAbsolute_eq]

/-- No name below the front of a path leads above it. -/
theorem not_above_goal {n : String} :
    ¬ (t.goal base ++ [n] <+: t.goal path ∧ t.goal base ++ [n] ≠ t.goal path) := by
  rintro ⟨hbegins, hne⟩
  refine hne (hbegins.eq_of_length_le ?_)
  rw [goal_eq_reach h, List.length_append, List.length_singleton]
  exact Nat.le_trans (length_reach_le _ _) (Nat.add_le_add_left (Path.length_steps_le h.no_slash) _)

/-- A path that ends in no name leads to its front or above. -/
theorem goal_begins_of_not_isName (hlast : ¬ Path.IsName last) : t.goal path <+: t.goal base := by
  rw [goal_eq_reach h]
  rcases Path.isName_or h.no_slash with hname | rfl | rfl | rfl
  · exact absurd hname hlast
  · exact List.prefix_refl _
  · exact List.prefix_refl _
  · exact List.dropLast_prefix _

theorem goal_draftOf : t.goal (draftOf path) = t.goal base ++ [draftOf last] := by
  rw [draftOf_eq_join h, goal_join t base (isName_draft_of_component h.no_slash)]

end Split

/-! ## Names that fit -/

/-- **A version with a lower number fits where one with a higher number does.** -/
theorem fits_numbered_of_le (h : Fits base (Path.numbered name k)) (hname : Path.IsName name)
    (hle : j ≤ k) : Fits base (Path.numbered name j) := by
  refine h.of_le (isName_numbered hname j) (fun hmem => ?_) ?_
  · have hnone : Char.ofNat 0 ∉ Text.digits j := fun hmem =>
      absurd (Text.isDigit_of_mem_digits hmem) (by decide)
    simp only [Path.numbered, String.toList_append, List.mem_append, Text.toList_decimal] at hmem ⊢
    exact .inl (hmem.resolve_right hnone)
  · simp only [Path.numbered, String.utf8ByteSize_append, Text.utf8ByteSize_decimal]
    exact Nat.add_le_add_left (Text.length_digits_le hle) _

/-- The youngest version fits where the draft does. -/
theorem fits_first_of_draft (h : Fits base (draftOf name)) (hname : Path.IsName name) :
    Fits base (Path.numbered name 1) := by
  refine h.of_le (isName_numbered hname 1) (fun hmem => ?_) ?_
  · have hnone : Char.ofNat 0 ∉ (".".toList ++ (Text.decimal 1).toList) := by decide
    rw [draftOf, String.toList_append]
    rw [Path.numbered, String.toList_append, String.toList_append, List.append_assoc] at hmem
    exact List.mem_append_left _ ((List.mem_append.mp hmem).resolve_right hnone)
  · have hsize : ".".utf8ByteSize + (Text.decimal 1).utf8ByteSize ≤ ".haconf.tmp".utf8ByteSize := by
      decide
    rw [Path.numbered, draftOf, String.utf8ByteSize_append, String.utf8ByteSize_append,
      String.utf8ByteSize_append, Nat.add_assoc]
    exact Nat.add_le_add_left hsize _

/-- The file fits where the draft does. -/
theorem fits_of_draft (h : Fits base (draftOf name)) (hname : Path.IsName name) : Fits base name := by
  refine h.of_le hname (fun hmem => ?_) ?_
  · rw [draftOf, String.toList_append]
    exact List.mem_append_left _ hmem
  · rw [draftOf, String.utf8ByteSize_append]
    exact Nat.le_add_right _ _

/-- **A path is accepted if its draft is**, unless it is empty. -/
theorem accepted_of_draftOf (h : Path.Split path base last) (hne : path ≠ "")
    (hdraft : Accepted (draftOf path)) : Accepted path := by
  have hnone := hdraft.no_nul
  have hshort := hdraft.short
  have hnames := hdraft.names
  rw [draftOf, String.toList_append] at hnone
  rw [draftOf, String.utf8ByteSize_append] at hshort
  rw [draftOf_eq_join h, Path.steps_join base (isName_draft_of_component h.no_slash),
    List.forall_mem_append, List.forall_mem_singleton] at hnames
  refine ⟨?_, hne, Nat.lt_of_le_of_lt (Nat.le_add_right _ _) hshort, ?_⟩
  · simp only [List.contains_eq_mem, List.mem_append, decide_eq_false_iff_not, not_or] at hnone ⊢
    exact hnone.1
  · rw [h.steps_eq, List.forall_mem_append]
    refine ⟨hnames.1, ?_⟩
    have hlast : last.utf8ByteSize ≤ maxNameBytes := by
      refine Nat.le_trans ?_ hnames.2
      rw [draftOf, String.utf8ByteSize_append]
      exact Nat.le_add_right _ _
    rcases Path.isName_or h.no_slash with hname | rfl | rfl | rfl
    · rw [hname.steps_eq]
      exact List.forall_mem_singleton.mpr hlast
    · exact List.forall_mem_nil _
    · exact List.forall_mem_nil _
    · exact List.forall_mem_singleton.mpr hlast

end Rollout
