import Mathlib.Data.List.TakeWhile
import Rollout.Address
import Rollout.Proofs.Generation.Name

/-!
# Proofs/Address — the characters of an address

Every reader takes a run of address characters off the front (`Address.Takes`), so a text that
parses consists of them (`Address.isAddressChar_of_parse`): digits of either base, points and
colons.  In particular no address has a blank or a control character in it.
-/

namespace Rollout.Address

/-- A character that can occur in an address. -/
def isAddressChar (c : Char) : Bool := isHexDigit c || c == '.' || c == ':'

/-- **A reader takes address characters only**, and leaves the rest of the text as it is. -/
def Takes {α : Type} (r : Reader α) : Prop :=
  ∀ ⦃cs : List Char⦄ ⦃a : α⦄ ⦃rest : List Char⦄, r cs = some (a, rest) →
    ∃ taken, cs = taken ++ rest ∧ ∀ c ∈ taken, isAddressChar c = true

theorem isAddressChar_of_isHexDigit {c : Char} (h : isHexDigit c = true) :
    isAddressChar c = true := by rw [isAddressChar, h]; rfl

/-- A decimal digit is a hexadecimal one. -/
theorem isHexDigit_of_isDigit {c : Char} (h : Text.isDigit c = true) : isHexDigit c = true := by
  have h09 : '0' ≤ c ∧ c ≤ '9' := by simpa [Text.isDigit] using h
  have hle : c.toNat ≤ 57 := h09.2
  rw [isHexDigit, Text.digitValue?, if_pos h09, Option.filter_some,
    if_pos (decide_eq_true (by omega))]
  rfl

/-- The run of characters at the front, and what is behind it. -/
theorem eq_takeWhile_append_drop {p : Char → Bool} (cs : List Char) :
    cs = cs.takeWhile p ++ cs.drop (cs.takeWhile p).length :=
  (List.prefix_iff_eq_append.mp (List.takeWhile_prefix p)).symm

section Readers

variable {α β : Type} {r : Reader α}

/-- Reading one thing after another takes address characters if both do. -/
theorem Takes.bind (hr : Takes r) {k : α → Reader β} (hk : ∀ a, Takes (k a)) :
    Takes fun cs => (r cs).bind fun p => k p.1 p.2 := by
  intro cs b rest h
  obtain ⟨⟨a, mid⟩, hmid, hb⟩ := Option.bind_eq_some_iff.mp h
  obtain ⟨taken, rfl, htaken⟩ := hr hmid
  obtain ⟨taken', rfl, htaken'⟩ := hk a hb
  refine ⟨taken ++ taken', (List.append_assoc ..).symm, fun c hc => ?_⟩
  exact (List.mem_append.mp hc).elim (htaken c) (htaken' c)

theorem takes_pure (a : α) : Takes fun cs => some (a, cs) := by
  intro cs b rest h
  obtain ⟨-, rfl⟩ := Prod.mk.inj (Option.some.inj h)
  exact ⟨[], rfl, nofun⟩

theorem takes_char {c : Char} (hc : isAddressChar c = true) : Takes (char c)
  | d :: cs, (), rest, h => by
    rw [char] at h
    split_ifs at h with hd
    obtain rfl := (Prod.mk.inj (Option.some.inj h)).2
    exact ⟨[d], rfl, fun x hx => by rw [List.mem_singleton.mp hx, hd, hc]⟩

theorem takes_octet : Takes octet := by
  intro cs n rest h
  rw [octet] at h
  split_ifs at h
  split at h
  · split_ifs at h
    obtain rfl := (Prod.mk.inj (Option.some.inj h)).2
    exact ⟨_, eq_takeWhile_append_drop cs, fun c hc =>
      isAddressChar_of_isHexDigit (isHexDigit_of_isDigit (List.mem_takeWhile_imp hc))⟩
  · exact nomatch h

theorem takes_dotted : Takes dotted :=
  takes_octet.bind fun a => (takes_char (c := '.') (by decide)).bind fun _ =>
  takes_octet.bind fun b => (takes_char (c := '.') (by decide)).bind fun _ =>
  takes_octet.bind fun c => (takes_char (c := '.') (by decide)).bind fun _ =>
  takes_octet.bind fun d => takes_pure (((a * 256 + b) * 256 + c) * 256 + d)

theorem takes_group : Takes group := by
  intro cs n rest h
  rw [group] at h
  split_ifs at h
  obtain ⟨_, -, heq⟩ := Option.map_eq_some_iff.mp h
  obtain rfl := (Prod.mk.inj heq).2
  exact ⟨_, eq_takeWhile_append_drop cs, fun c hc =>
    isAddressChar_of_isHexDigit (List.mem_takeWhile_imp hc)⟩

theorem takes_separator (first : Bool) : Takes (separator first) := by
  cases first with
  | true => exact takes_pure ()
  | false => exact takes_char (by decide)

end Readers

/-- **A run of groups takes address characters only.** -/
theorem readGroups_spec : ∀ (limit : Nat) (first : Bool) (cs : List Char),
    ∃ taken, cs = taken ++ (readGroups limit first cs).rest ∧
      ∀ c ∈ taken, isAddressChar c = true
  | 0, _, cs => ⟨[], rfl, nofun⟩
  | limit + 1, first, cs => by
      rw [readGroups]
      split
      · next n rest htail =>
        have hlimit : ¬ limit = 0 := by
          rintro rfl
          exact nomatch htail
        rw [if_neg hlimit] at htail
        exact ((takes_separator first).bind fun _ => takes_dotted) htail
      · split
        · next g rest hgroup =>
          obtain ⟨taken, rfl, htaken⟩ := ((takes_separator first).bind fun _ => takes_group) hgroup
          obtain ⟨taken', hrest, htaken'⟩ := readGroups_spec limit false rest
          refine ⟨taken ++ taken', ?_, fun c hc => ?_⟩
          · rw [List.append_assoc, ← hrest]
          · exact (List.mem_append.mp hc).elim (htaken c) (htaken' c)
        · exact ⟨[], rfl, nofun⟩

theorem takes_colons : Takes colons := by
  intro cs n rest h
  obtain ⟨taken, hcs, htaken⟩ := readGroups_spec 8 true cs
  rw [colons] at h
  split_ifs at h
  · obtain rfl := (Prod.mk.inj (Option.some.inj h)).2
    exact ⟨taken, hcs, htaken⟩
  · split at h
    · next cs' hrest =>
      obtain rfl := (Prod.mk.inj (Option.some.inj h)).2
      obtain ⟨taken', hcs', htaken'⟩ :=
        readGroups_spec (8 - ((readGroups 8 true cs).groups.length + 1)) true cs'
      refine ⟨taken ++ ([':', ':'] ++ taken'), ?_, fun c hc => ?_⟩
      · rw [List.append_assoc, List.append_assoc, ← hcs', hcs, hrest]
        rfl
      · rcases List.mem_append.mp hc with hc | hc
        · exact htaken c hc
        · rcases List.mem_append.mp hc with hc | hc
          · simp only [List.mem_cons, List.not_mem_nil, or_false, or_self] at hc
            exact hc ▸ rfl
          · exact htaken' c hc
    · exact nomatch h

/-- **An address consists of digits, points and colons.** -/
theorem isAddressChar_of_parse {s : String} (h : (parse s).isSome = true) :
    ∀ c ∈ s.toList, isAddressChar c = true := by
  have whole {r : Reader Nat} (hr : Takes r) {n : Nat} {rest : List Char}
      (hread : r s.toList = some (n, rest)) (hrest : rest.isEmpty = true) :
      ∀ c ∈ s.toList, isAddressChar c = true := by
    obtain ⟨taken, hs, htaken⟩ := hr hread
    rw [List.isEmpty_iff.mp hrest, List.append_nil] at hs
    exact hs ▸ htaken
  rw [parse] at h
  split at h
  · next n rest hread =>
    split_ifs at h with hrest
    · exact whole takes_dotted hread hrest
    · exact nomatch h
  · split at h
    · next n rest hread =>
      split_ifs at h with hrest
      · exact whole takes_colons hread hrest
      · exact nomatch h
    · exact nomatch h

/-- An address character is neither blank nor a control character. -/
theorem isAddressChar_harmless {c : Char} (h : isAddressChar c = true) :
    Text.isBlank c = false ∧ Text.isControl c = false := by
  apply Text.visible_of_ascii
  rw [isAddressChar, Bool.or_eq_true, Bool.or_eq_true, beq_iff_eq, beq_iff_eq] at h
  rcases h with (h | rfl) | rfl
  · rw [isHexDigit, Text.digitValue?] at h
    split_ifs at h with h09 haf hAF
    · have : 48 ≤ c.toNat ∧ c.toNat ≤ 57 := h09
      omega
    · have : 97 ≤ c.toNat ∧ c.toNat ≤ 102 := haf
      omega
    · have : 65 ≤ c.toNat ∧ c.toNat ≤ 70 := hAF
      omega
    · exact absurd h Bool.false_ne_true
  · decide
  · decide

/-- **An address has no space in it.** -/
theorem no_space_of_parse {s : String} (h : (parse s).isSome = true) : ' ' ∉ s.toList := fun hm =>
  absurd (isAddressChar_harmless (isAddressChar_of_parse h ' ' hm)).1 (by decide)

end Rollout.Address
