import Mathlib.Data.String.Basic
import Mathlib.Tactic.SplitIfs

/-!
# Proofs/Text/Bytes — texts are ordered as their bytes are

Texts are compared character by character, while a file holds bytes.  In UTF-8 this comes to the same:
the bytes of the smaller of two characters are smaller, whatever follows either of them
(`utf8EncodeChar_append_lt`), and so are those of the smaller of two texts (`bytes_lt_iff`).  Nor does
it matter what the length of a beginning is counted in (`eq_of_prefix`), and lines end where their bytes do
(`newline_notMem_bytes`).
-/

namespace Rollout.Text

/-- The bytes of a text in UTF-8. -/
def bytes (s : String) : List UInt8 := s.toUTF8.data.toList

theorem bytes_eq (s : String) : bytes s = s.toList.flatMap String.utf8EncodeChar := by
  have hdata : s.toUTF8 = s.toList.utf8Encode := String.utf8Encode_toList.symm
  rw [bytes, hdata, List.utf8Encode, List.toList_data_toByteArray]

/-- **The bytes of a text read back.** -/
theorem fromUTF8?_toUTF8 (s : String) : String.fromUTF8? s.toUTF8 = some s := by
  rw [String.fromUTF8?, String.toUTF8_eq_toByteArray, dif_pos s.isValidUTF8]
  rfl

theorem length_bytes (s : String) : (bytes s).length = s.utf8ByteSize := by
  rw [bytes, Array.length_toList]
  rfl

/-- Lists of bytes compare at the first byte, if it fits. -/
theorem ofNat_cons_lt_iff {m n : Nat} (hm : m < 256) (hn : n < 256) {u v : List UInt8} :
    UInt8.ofNat m :: u < UInt8.ofNat n :: v ↔ m < n ∨ m = n ∧ u < v := by
  rw [List.cons_lt_cons_iff, UInt8.lt_iff_toNat_lt, ← UInt8.toNat_inj,
    UInt8.toNat_ofNat_of_lt' hm, UInt8.toNat_ofNat_of_lt' hn]

/-- **The smaller character has the smaller bytes**, whatever follows. -/
theorem utf8EncodeChar_append_lt {c d : Char} (h : c < d) (u v : List UInt8) :
    String.utf8EncodeChar c ++ u < String.utf8EncodeChar d ++ v := by
  have hlt : c.val.toNat < d.val.toNat := UInt32.lt_iff_toNat_lt.mp h
  have hbound : d.val.toNat < 0x110000 := by
    have hvalid := d.valid
    simp only [UInt32.isValidChar, Nat.isValidChar] at hvalid
    omega
  rw [String.utf8EncodeChar, String.utf8EncodeChar]
  generalize c.val.toNat = m at hlt
  generalize d.val.toNat = n at hlt hbound
  -- The first byte grows with the number of bytes; under the same first byte, the digits to the base
  -- 64 decide, the highest first.
  have hlow : m / 64 < n / 64 ∨ m / 64 = n / 64 ∧ m % 64 < n % 64 := by omega
  have hmid : m / 64 < n / 64 →
      m / 4096 < n / 4096 ∨ m / 4096 = n / 4096 ∧ m / 64 % 64 < n / 64 % 64 := by omega
  have hhigh : m / 4096 < n / 4096 →
      m / 262144 < n / 262144 ∨ m / 262144 = n / 262144 ∧ m / 4096 % 64 < n / 4096 % 64 := by omega
  have hm : m / 262144 % 8 = m / 262144 := Nat.mod_eq_of_lt (by omega)
  have hn : n / 262144 % 8 = n / 262144 := Nat.mod_eq_of_lt (by omega)
  split_ifs <;> simp (disch := omega) only [List.cons_append, List.nil_append, ofNat_cons_lt_iff] <;>
    omega

theorem flatMap_utf8EncodeChar_lt {cs ds : List Char} (h : List.Lex (· < ·) cs ds) :
    cs.flatMap String.utf8EncodeChar < ds.flatMap String.utf8EncodeChar := by
  induction h with
  | @nil d ds =>
    obtain ⟨b, bs, hbytes⟩ := List.exists_cons_of_ne_nil (String.utf8EncodeChar_ne_nil (c := d))
    rw [List.flatMap_nil, List.flatMap_cons, hbytes]
    exact List.nil_lt_cons _ _
  | rel hcd => exact utf8EncodeChar_append_lt hcd _ _
  | cons _ ih =>
    rw [List.flatMap_cons, List.flatMap_cons]
    exact List.append_left_lt ih

/-- **The smaller text has the smaller bytes.** -/
theorem bytes_lt_of_lt {s t : String} (h : s < t) : bytes s < bytes t := by
  rw [bytes_eq, bytes_eq]
  exact flatMap_utf8EncodeChar_lt h

/-- **Texts and their bytes have one order.** -/
theorem bytes_lt_iff {s t : String} : bytes s < bytes t ↔ s < t := by
  refine ⟨fun h => ?_, bytes_lt_of_lt⟩
  rcases lt_trichotomy s t with hlt | rfl | hgt
  · exact hlt
  · exact absurd h (List.lt_irrefl _)
  · exact absurd h (List.lt_asymm (bytes_lt_of_lt hgt))

/-- **Two beginnings of a text with equally many bytes are the same.** -/
theorem eq_of_prefix {s t q : String} (hs : s.toList <+: q.toList) (ht : t.toList <+: q.toList)
    (hlength : (bytes s).length = (bytes t).length) : s = t := by
  -- One begins with the other, and what is left of it takes no bytes.
  have hshort {u v : String} (huv : u.toList <+: v.toList)
      (hlength : (bytes v).length = (bytes u).length) : u = v := by
    obtain ⟨rest, hrest⟩ := huv
    rw [bytes_eq, bytes_eq, ← hrest, List.flatMap_append, List.length_append, Nat.add_eq_left,
      List.length_eq_zero_iff, List.flatMap_eq_nil_iff] at hlength
    have hnil : rest = [] := List.eq_nil_iff_forall_not_mem.mpr fun c hc =>
      String.utf8EncodeChar_ne_nil (hlength c hc)
    rw [hnil, List.append_nil] at hrest
    exact String.toList_injective hrest
  rcases List.prefix_or_prefix_of_prefix hs ht with hst | hts
  · exact hshort hst hlength.symm
  · exact (hshort hts hlength).symm

/-! ## Line feeds -/

/-- Only the line feed is written with the byte of the line feed. -/
theorem eq_newline_of_mem_utf8EncodeChar {c : Char} (h : 10 ∈ String.utf8EncodeChar c) : c = '\n' := by
  have hbyte {n : Nat} (hn : n < 256) (heq : (10 : UInt8) = UInt8.ofNat n) : n = 10 := by
    have := congrArg UInt8.toNat heq
    rw [UInt8.toNat_ofNat_of_lt' hn] at this
    exact this.symm
  rw [String.utf8EncodeChar] at h
  split_ifs at h with hone <;> simp only [List.mem_cons, List.not_mem_nil, or_false] at h
  · exact Char.toNat_inj.mp (hbyte (Nat.lt_of_le_of_lt hone (by decide)) h)
  -- The bytes of every other character are above all single ones.
  · rcases h with h | h <;> exact absurd (hbyte (by omega) h) (by omega)
  · rcases h with h | h | h <;> exact absurd (hbyte (by omega) h) (by omega)
  · rcases h with h | h | h | h <;> exact absurd (hbyte (by omega) h) (by omega)

/-- **A text without a line feed has no byte of one.** -/
theorem newline_notMem_bytes {s : String} (h : '\n' ∉ s.toList) : 10 ∉ bytes s := by
  rw [bytes_eq]
  intro hmem
  obtain ⟨c, hc, hbyte⟩ := List.mem_flatMap.mp hmem
  exact h (eq_newline_of_mem_utf8EncodeChar hbyte ▸ hc)

end Rollout.Text
