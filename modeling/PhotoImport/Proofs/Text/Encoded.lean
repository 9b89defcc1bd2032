import PhotoImport.Decimal.Padded
import PhotoImport.Text.Utf8

/-!
# Bytes of texts

What the bytes of a text tell about it: they determine it (`Utf8.encode_injective`), and a byte of
ASCII among them is a character of the text (`Utf8.mem_encode_iff`), since all bytes of a longer
character lie above ASCII. The decimal digits of a number determine it as well
(`Decimal.digits_injective`).
-/

namespace PhotoImport

namespace Utf8

/-- The bytes of a text determine it. -/
theorem encode_injective {s t : String} (h : encode s = encode t) : s = t := by
  have hbytes : ∀ u : String, (encode u).toByteArray = u.toByteArray := by
    intro u
    rw [← String.utf8Encode_toList]
    rfl
  rw [← String.toByteArray_inj, ← hbytes, ← hbytes, h]

theorem encode_append (s t : String) : encode (s ++ t) = encode s ++ encode t := by
  simp [encode]

/-- A character of ASCII is one byte, and the bytes of any other lie above ASCII. -/
theorem mem_utf8EncodeChar_iff {b : UInt8} (hb : b.toNat < 128) (c : Char) :
    b ∈ String.utf8EncodeChar c ↔ c.toNat = b.toNat := by
  have hc : c.val.toNat = c.toNat := rfl
  have high : ∀ n, 128 ≤ n → n < 256 → b ≠ UInt8.ofNat n := by
    rintro n _ _ rfl
    simp only [UInt8.toNat_ofNat'] at hb
    omega
  -- the bytes behind the first one, and the first ones of characters of two, three and four bytes
  have tail (n : Nat) := high (n % 0x40 + 0x80) (by omega) (by omega)
  have lead₂ (n : Nat) := high (n % 0x20 + 0xc0) (by omega) (by omega)
  have lead₃ (n : Nat) := high (n % 0x10 + 0xe0) (by omega) (by omega)
  have lead₄ (n : Nat) := high (n % 0x08 + 0xf0) (by omega) (by omega)
  unfold String.utf8EncodeChar
  simp only [hc]
  split
  · next hle =>
    rw [List.mem_singleton]
    constructor
    · rintro rfl
      simp only [UInt8.toNat_ofNat']
      omega
    · intro h
      exact UInt8.toNat_inj.1 (by simp only [UInt8.toNat_ofNat']; omega)
  · split
    · simp only [List.mem_cons, tail, lead₂, List.not_mem_nil, or_self, false_iff]
      omega
    · split
      · simp only [List.mem_cons, tail, lead₃, List.not_mem_nil, or_self, false_iff]
        omega
      · simp only [List.mem_cons, tail, lead₄, List.not_mem_nil, or_self, false_iff]
        omega

/-- A byte of ASCII stands in the bytes of a text where the text has the character. -/
theorem mem_encode_iff {b : UInt8} (hb : b.toNat < 128) (s : String) :
    b ∈ encode s ↔ ∃ c ∈ s.toList, c.toNat = b.toNat := by
  simp [encode, List.mem_flatMap, mem_utf8EncodeChar_iff hb]

end Utf8

namespace Decimal

/-- The digits of a number determine it. -/
theorem digits_injective {n k : Nat} (h : digits n = digits k) : n = k := by
  -- reading the digits gives the number back
  have := congrArg (fun ds => Nat.ofDigitChars 10 ds 0) h
  simpa [digits] using this

theorem isDigit_of_mem_digits {n : Nat} {c : Char} (h : c ∈ digits n) : c.isDigit = true :=
  Nat.isDigit_of_mem_toDigits (by decide) (by decide) h

theorem isDigit_of_mem_padded {n width : Nat} {c : Char} (h : c ∈ padded n width) :
    c.isDigit = true := by
  unfold padded at h
  simp only [Int.natAbs_natCast] at h
  rw [if_neg (by omega), List.nil_append, List.mem_append] at h
  rcases h with h | h
  · rw [List.eq_of_mem_replicate h]
    rfl
  · exact isDigit_of_mem_digits h

theorem padded_ne_nil (n width : Nat) : padded n width ≠ [] := by
  have : digits n ≠ [] := Nat.toDigits_ne_nil
  simp [padded, this]

end Decimal
end PhotoImport
