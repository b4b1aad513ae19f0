import Mathlib.Data.List.Basic
import Rollout.State.Servers

/-!
# Proofs/Text/Number — decimal spellings read back

`Text.ofDigits 10` inverts `Text.digits` (`ofDigits_digits`), and filling with zeros loses nothing
(`padded_injective`).  So no two numbers share a spelling, and none of the generated server names
`srv001`, `srv002`, … stands for two numbers (`serverName_injective`).
-/

namespace Rollout

namespace Text

/-! ## The characters of a spelling -/

/-- Core's digits are the digits. -/
theorem isDigit_eq_core (c : Char) : isDigit c = c.isDigit := rfl

theorem isDigit_of_mem_digits {n : Nat} {c : Char} (h : c ∈ digits n) : isDigit c = true := by
  rw [isDigit_eq_core]
  exact Nat.isDigit_of_mem_toDigits (by decide) (by decide) h

theorem digits_ne_nil (n : Nat) : digits n ≠ [] := Nat.toDigits_ne_nil

/-- A digit lies between `'0'` and `'9'`, as a code point. -/
theorem isDigit_iff_toNat {c : Char} : isDigit c = true ↔ 48 ≤ c.toNat ∧ c.toNat ≤ 57 := by
  rw [isDigit, Bool.and_eq_true, decide_eq_true_eq, decide_eq_true_eq]
  exact Iff.rfl

@[simp] theorem toList_decimal (n : Nat) : (decimal n).toList = digits n := String.toList_ofList

/-- The characters of a filled spelling are digits, too. -/
theorem isDigit_of_mem_padded {width n : Nat} {c : Char} (h : c ∈ (padded width n).toList) :
    isDigit c = true := by
  rw [padded, String.toList_ofList, List.mem_append] at h
  rcases h with h | h
  · rw [List.eq_of_mem_replicate h]
    decide
  · exact isDigit_of_mem_digits h

/-! ## Reading a spelling -/

/-- On digits, the reader computes what core's does. -/
theorem extendDigits_of_isDigit :
    ∀ (cs : List Char) (seen : Nat), (∀ c ∈ cs, isDigit c = true) →
      extendDigits 10 seen cs = some (Nat.ofDigitChars 10 cs seen)
  | [], seen, _ => by rw [extendDigits, Nat.ofDigitChars_nil]
  | c :: cs, seen, h => by
      have hc := isDigit_iff_toNat.mp (h c List.mem_cons_self)
      have hv : digitValue? 10 c = some (c.toNat - 48) := by
        have h09 : '0' ≤ c ∧ c ≤ '9' := by simpa [isDigit] using h c List.mem_cons_self
        simp only [digitValue?, if_pos h09, Option.filter_some]
        rw [if_pos (decide_eq_true (by omega))]
      rw [extendDigits, hv, Option.bind_some,
        extendDigits_of_isDigit cs _ fun d hd => h d (List.mem_cons_of_mem _ hd),
        Nat.ofDigitChars_cons, Nat.mul_comm]
      rfl

/-- **A decimal spelling reads back.** -/
theorem ofDigits_digits (n : Nat) : ofDigits 10 (digits n) = some n := by
  rw [ofDigits, List.isEmpty_eq_false_iff.mpr (digits_ne_nil n), if_neg (by decide),
    extendDigits_of_isDigit _ _ fun _ => isDigit_of_mem_digits]
  exact congrArg some Nat.ofDigitChars_ten_toDigits

theorem digits_injective : Function.Injective digits := fun m n h =>
  Option.some.inj ((ofDigits_digits m).symm.trans ((congrArg (ofDigits 10) h).trans
    (ofDigits_digits n)))

/-- **No two numbers share a filled spelling** — the zeros in front do not change the value. -/
theorem padded_injective (width : Nat) : Function.Injective (padded width) := by
  intro m n h
  have hcs := String.ofList_injective h
  have hv := congrArg (fun cs => Nat.ofDigitChars 10 cs 0) hcs
  simpa [Nat.ofDigitChars_append, digits] using hv

end Text

/-- **A generated name stands for one number.** -/
theorem serverName_injective : Function.Injective serverName := by
  intro m n h
  have hcs := congrArg String.toList h
  rw [serverName, serverName, String.toList_append, String.toList_append] at hcs
  exact Text.padded_injective 3 (String.toList_injective (List.append_cancel_left hcs))

end Rollout
