import Mathlib.Algebra.Group.Nat.Defs
import Rollout.Proofs.Text.Number
import Rollout.Text.Duration
import Rollout.Text.Magnitude

/-!
# Proofs/Text/Fraction — decimal fractions and their range

A fraction whose whole part has up to a hundred digits is a finite double, however many places it has
(`isFinite_of_lt`).  A duration is written with places, all of them digits.
-/

namespace Rollout.Text

/-- So many digits spell no more than their power of ten. -/
theorem ofDigitChars_lt {cs : List Char} (h : ∀ c ∈ cs, isDigit c = true) :
    Nat.ofDigitChars 10 cs 0 < 10 ^ cs.length := by
  induction cs with
  | nil => exact Nat.one_pos
  | cons c cs ih =>
    obtain ⟨hc, hcs⟩ := List.forall_mem_cons.mp h
    have hdigit : c.toNat - '0'.toNat ≤ 9 := Nat.sub_le_sub_right (isDigit_iff_toNat.mp hc).2 48
    rw [Nat.ofDigitChars_cons, Nat.ofDigitChars_eq_ofDigitChars_zero, List.length_cons, Nat.pow_succ]
    have hrest := ih hcs
    generalize 10 ^ cs.length = p at hrest ⊢
    calc p * (10 * 0 + (c.toNat - '0'.toNat)) + Nat.ofDigitChars 10 cs 0
        < p * 9 + p := Nat.add_lt_add_of_le_of_lt (Nat.mul_le_mul_left p (by omega)) hrest
      _ = p * 10 := (Nat.mul_succ p 9).symm

/-- **A fraction with a small whole part is finite.** -/
theorem isFinite_of_lt {whole : Nat} {places : List Char} (hne : places ≠ [])
    (hplaces : ∀ c ∈ places, isDigit c = true) (hwhole : whole < 10 ^ 100) :
    (Decimal.mk (digits whole) places 0).isFinite = true := by
  obtain ⟨k, hk⟩ : ∃ k, places.length = k + 1 :=
    Nat.exists_eq_succ_of_ne_zero (List.length_eq_zero_iff.not.mpr hne)
  have hdigits : ∀ c ∈ digits whole ++ places, isDigit c = true := fun c hc =>
    (List.mem_append.mp hc).elim isDigit_of_mem_digits (hplaces c)
  have hvalue : ofDigits 10 (digits whole ++ places)
      = some (10 ^ places.length * whole + Nat.ofDigitChars 10 places 0) := by
    rw [ofDigits, if_neg (by simp [digits_ne_nil]), extendDigits_of_isDigit _ _ hdigits,
      Nat.ofDigitChars_append, digits, Nat.ofDigitChars_ten_toDigits,
      Nat.ofDigitChars_eq_ofDigitChars_zero]
  have hbound : 10 ^ places.length * whole + Nat.ofDigitChars 10 places 0
      < 10 ^ (places.length + 100) := by
    calc 10 ^ places.length * whole + Nat.ofDigitChars 10 places 0
        < 10 ^ places.length * whole + 10 ^ places.length :=
          Nat.add_lt_add_left (ofDigitChars_lt hplaces) _
      _ = 10 ^ places.length * (whole + 1) := (Nat.mul_succ _ _).symm
      _ ≤ 10 ^ places.length * 10 ^ 100 := Nat.mul_le_mul_left _ hwhole
      _ = 10 ^ (places.length + 100) := (Nat.pow_add 10 _ _).symm
  have hexponent : (0 : Int) - (places.length : Int) = .negSucc k := by
    rw [hk]
    omega
  have hlength : (digits (10 ^ places.length * whole + Nat.ofDigitChars 10 places 0)).length
      ≤ k + 1 + 308 :=
    Nat.le_trans ((Nat.length_toDigits_le_iff (by decide) (by omega)).mpr hbound) (by omega)
  rw [Decimal.isFinite, hvalue, Option.getD_some, hexponent, fitsDouble, Bool.or_eq_true]
  exact .inl (decide_eq_true hlength)

theorem isDigit_of_mem_shortPlaces {places : List Char} (h : ∀ c ∈ places, isDigit c = true) :
    ∀ c ∈ shortPlaces places, isDigit c = true := by
  intro c hc
  rw [shortPlaces] at hc
  split at hc
  · rw [List.mem_singleton.mp hc]
    rfl
  · exact h c (List.mem_reverse.mp ((List.dropWhile_sublist _).subset (List.mem_reverse.mp hc)))

theorem shortPlaces_ne_nil (places : List Char) : shortPlaces places ≠ [] := by
  rw [shortPlaces]
  split
  · exact List.cons_ne_nil _ _
  · assumption

end Rollout.Text
