import Mathlib.Data.List.Infix
import Rollout.Generation.Build
import Rollout.Proofs.Text.Number

/-!
# Proofs/Generation/Name — what passes the check of a name

`SoundName` says what a name must be free of, and the check passes exactly the sound names
(`checkName_eq_ok_iff`).  A sound name is one token of a command or of a map line, and no path can
hide in it.  Every generated server name is sound (`soundName_serverName`).
-/

namespace Rollout

/-- **A name that may stand in a command, in a map line and in a file name.** -/
structure SoundName (s : String) : Prop where
  ne_empty : s ≠ ""
  no_slash : '/' ∉ s.toList
  no_doubleDot : ¬ ['.', '.'] <:+: s.toList
  no_blank : ∀ c ∈ s.toList, Text.isBlank c = false
  no_control : ∀ c ∈ s.toList, Text.isControl c = false

/-- The scan for two points finds them wherever they stand. -/
theorem hasDoubleDot_iff : ∀ {cs : List Char}, hasDoubleDot cs = true ↔ ['.', '.'] <:+: cs
  | [] => by simp [hasDoubleDot]
  | [c] => by
      have : ¬ ['.', '.'] <:+: [c] := fun h => by simpa using h.length_le
      simp [hasDoubleDot, this]
  | c :: d :: cs => by
      rw [List.infix_cons_iff, List.cons_prefix_cons, List.cons_prefix_cons]
      by_cases h : c = '.' ∧ d = '.'
      · obtain ⟨rfl, rfl⟩ := h
        simp [hasDoubleDot]
      · rw [hasDoubleDot, @hasDoubleDot_iff (d :: cs)]
        · refine ⟨Or.inr, fun h' => h'.resolve_left fun hp => h ⟨hp.1.symm, hp.2.1.symm⟩⟩
        · rintro _ rfl heq
          exact h ⟨rfl, (List.cons.inj heq).1⟩

theorem tokenFault_eq_none_iff {s : String} :
    tokenFault s = none ↔
      (∀ c ∈ s.toList, Text.isBlank c = false) ∧ ∀ c ∈ s.toList, Text.isControl c = false := by
  rw [tokenFault]
  split_ifs with hb hc
  · obtain ⟨c, hc, hblank⟩ := List.any_eq_true.mp hb
    simp only [false_iff, not_and]
    exact fun h => absurd hblank (by rw [h c hc]; decide)
  · obtain ⟨c, hc, hcontrol⟩ := List.any_eq_true.mp hc
    simp only [false_iff, not_and]
    exact fun _ h => absurd hcontrol (by rw [h c hc]; decide)
  · simpa using And.intro hb hc

theorem nameFault_eq_none_iff {s : String} : nameFault s = none ↔ SoundName s := by
  rw [nameFault]
  split_ifs with he hs hd
  · exact ⟨nofun, fun h => absurd (String.isEmpty_iff.mp he) h.ne_empty⟩
  · exact ⟨nofun, fun h => absurd (List.contains_iff_mem.mp hs) h.no_slash⟩
  · exact ⟨nofun, fun h => absurd (hasDoubleDot_iff.mp hd) h.no_doubleDot⟩
  · rw [tokenFault_eq_none_iff]
    refine ⟨fun h => ⟨?_, ?_, ?_, h.1, h.2⟩, fun h => ⟨h.no_blank, h.no_control⟩⟩
    · exact fun h => he (String.isEmpty_iff.mpr h)
    · exact fun h => hs (List.contains_iff_mem.mpr h)
    · exact fun h => hd (hasDoubleDot_iff.mpr h)

instance (s : String) : Decidable (SoundName s) := decidable_of_iff _ nameFault_eq_none_iff

/-- **The check passes exactly the sound names.** -/
theorem checkName_eq_ok_iff {kind : NameKind} {s : String} :
    checkName kind s = .ok () ↔ SoundName s := by
  rw [← nameFault_eq_none_iff, checkName]
  cases nameFault s <;> simp

namespace SoundName

variable {s : String}

/-- A sound name has no space in it. -/
theorem no_space (h : SoundName s) : ' ' ∉ s.toList := fun hm =>
  absurd (h.no_blank ' ' hm) (by decide)

end SoundName

/-! ## Generated names -/

theorem toList_serverName (n : Nat) :
    (serverName n).toList = 's' :: 'r' :: 'v' :: (Text.padded 3 n).toList := by
  rw [serverName, String.toList_append]
  rfl

/-- A character of a generated name is a digit or one of three letters. -/
theorem mem_serverName {n : Nat} {c : Char} (h : c ∈ (serverName n).toList) :
    c ∈ ['s', 'r', 'v'] ∨ Text.isDigit c = true := by
  rw [toList_serverName] at h
  rcases List.mem_append.mp (show c ∈ ['s', 'r', 'v'] ++ (Text.padded 3 n).toList from h) with h | h
  · exact Or.inl h
  · exact Or.inr (Text.isDigit_of_mem_padded h)

/-- The visible characters of ASCII are neither blank nor control characters. -/
theorem Text.visible_of_ascii {c : Char} (h : 33 ≤ c.toNat ∧ c.toNat ≤ 126) :
    Text.isBlank c = false ∧ Text.isControl c = false := by
  constructor
  · simp only [Text.isBlank, Bool.or_eq_false_iff, Bool.and_eq_false_iff, beq_eq_false_iff_ne,
      decide_eq_false_iff_not]
    omega
  · simp only [Text.isControl, Bool.or_eq_false_iff, Bool.and_eq_false_iff, decide_eq_false_iff_not]
    omega

/-- A digit is no point, no slash, no blank and no control character. -/
theorem Text.isDigit_harmless {c : Char} (h : Text.isDigit c = true) :
    c ≠ '.' ∧ c ≠ '/' ∧ Text.isBlank c = false ∧ Text.isControl c = false := by
  have hc := Text.isDigit_iff_toNat.mp h
  refine ⟨?_, ?_, Text.visible_of_ascii ⟨by omega, by omega⟩⟩
  · rintro rfl; revert h; decide
  · rintro rfl; revert h; decide

/-- **A generated name passes the check.** -/
theorem soundName_serverName (n : Nat) : SoundName (serverName n) := by
  have harmless : ∀ c ∈ (serverName n).toList,
      c ≠ '.' ∧ c ≠ '/' ∧ Text.isBlank c = false ∧ Text.isControl c = false := by
    intro c hc
    rcases mem_serverName hc with h | h
    · simp only [List.mem_cons, List.not_mem_nil, or_false] at h
      rcases h with rfl | rfl | rfl <;> decide
    · exact Text.isDigit_harmless h
  refine ⟨fun h => ?_, fun h => (harmless _ h).2.1 rfl, fun h => ?_,
    fun c hc => (harmless c hc).2.2.1, fun c hc => (harmless c hc).2.2.2⟩
  · have := congrArg String.toList h
    rw [toList_serverName] at this
    exact absurd this (List.cons_ne_nil _ _)
  · exact (harmless '.' (h.subset List.mem_cons_self)).1 rfl

end Rollout
