import Mathlib.Algebra.Group.Nat.Defs
import PhotoImport.Proofs.Text.Encoded

/-!
# Digits of decimal numbers

A number is written in as many digits as its size asks for, so that the larger of two numbers is not
the shorter one, filled up to a width or not (`length_digits_mono`, `length_padded_mono`). Filled up
with zeros it can still be read (`padded_injective`).

Digits that are read and written again lose the zeros in front and nothing else
(`digits_ofDigitChars_sublist`); filled up to as many places as there were, they are as they were
(`padded_ofDigitChars`).
-/

namespace PhotoImport.Decimal

/-! ### Lengths -/

theorem length_digits_pos (n : Nat) : 0 < (digits n).length := Nat.length_toDigits_pos

/-- The numbers below a power of ten are those that have no more digits. -/
theorem length_digits_le_iff {n width : Nat} (pos : 0 < width) :
    (digits n).length ≤ width ↔ n < 10 ^ width :=
  Nat.length_toDigits_le_iff (by decide) pos

/-- The larger of two numbers has no fewer digits. -/
theorem length_digits_mono {n k : Nat} (h : n ≤ k) : (digits n).length ≤ (digits k).length := by
  have largest : k < 10 ^ (digits k).length :=
    (length_digits_le_iff (length_digits_pos k)).1 (Nat.le_refl _)
  exact (length_digits_le_iff (length_digits_pos k)).2 (Nat.lt_of_le_of_lt h largest)

/-- A number is filled up with as many zeros as it is shorter than the width. -/
theorem padded_natCast (n width : Nat) :
    padded n width = List.replicate (width - (digits n).length) '0' ++ digits n := by
  have sign : ¬ (n : Int) < 0 := by omega
  simp [padded, sign]

theorem length_padded (n width : Nat) :
    (padded n width).length = max width (digits n).length := by
  rw [padded_natCast, List.length_append, List.length_replicate]
  omega

/-- The larger of two numbers is not the shorter one either if both are filled up. -/
theorem length_padded_mono {n k : Nat} (h : n ≤ k) (width : Nat) :
    (padded n width).length ≤ (padded k width).length := by
  have hle := length_digits_mono h
  rw [length_padded, length_padded]
  omega

/-- A number that is filled up can be read: the zeros count for nothing. -/
theorem ofDigitChars_padded (n width : Nat) : Nat.ofDigitChars 10 (padded n width) 0 = n := by
  rw [padded_natCast, Nat.ofDigitChars_append, Nat.ofDigitChars_replicate_zero, Nat.mul_zero]
  exact Nat.ofDigitChars_ten_toDigits

theorem padded_injective {n k width : Nat} (h : padded n width = padded k width) : n = k := by
  rw [← ofDigitChars_padded n width, h, ofDigitChars_padded]

/-! ### Digits that are read and written again -/

theorem digitChar_of_isDigit {c : Char} (digit : c.isDigit = true) :
    Nat.digitChar (c.toNat - '0'.toNat) = c ∧ c.toNat - '0'.toNat < 10 := by
  have bounds : 48 ≤ c.toNat ∧ c.toNat ≤ 57 := Char.isDigit_iff_toNat.1 digit
  have hzero : '0'.toNat = 48 := rfl
  rw [hzero]
  refine ⟨Char.toNat_inj.1 ?_, by omega⟩
  rw [Nat.toNat_digitChar_of_lt_ten (by omega)]
  omega

/-- Behind a number that is not zero every digit counts. -/
theorem digits_ofDigitChars_of_pos {chars : List Char} (isDigits : ∀ c ∈ chars, c.isDigit = true)
    {init : Nat} (pos : 0 < init) :
    digits (Nat.ofDigitChars 10 chars init) = digits init ++ chars := by
  induction chars generalizing init with
  | nil => simp
  | cons c chars ih =>
    rw [List.forall_mem_cons] at isDigits
    obtain ⟨hchar, hlt⟩ := digitChar_of_isDigit isDigits.1
    -- the number with one more digit is not zero either
    have last : digits (10 * init + (c.toNat - '0'.toNat)) = digits init ++ [c] := by
      rw [digits, ← Nat.toDigits_append_toDigits (by decide) pos hlt, Nat.toDigits_of_lt_base hlt,
        hchar]
      rfl
    rw [Nat.ofDigitChars_cons, ih isDigits.2 (by omega), last, List.append_assoc]
    rfl

/-- **Digits that are read and written again** lose zeros in front and nothing else. -/
theorem digits_ofDigitChars_sublist {chars : List Char}
    (isDigits : ∀ c ∈ chars, c.isDigit = true) (hne : chars ≠ []) :
    (digits (Nat.ofDigitChars 10 chars 0)).Sublist chars := by
  induction chars with
  | nil => exact absurd rfl hne
  | cons c chars ih =>
    rw [List.forall_mem_cons] at isDigits
    obtain ⟨hchar, hlt⟩ := digitChar_of_isDigit isDigits.1
    rw [Nat.ofDigitChars_cons, Nat.mul_zero, Nat.zero_add]
    by_cases zero : c.toNat - '0'.toNat = 0
    · rw [zero] at hchar ⊢
      by_cases alone : chars = []
      · -- a zero that stands alone is the number zero
        subst alone
        rw [← hchar]
        exact .refl _
      · exact (ih isDigits.2 alone).cons c
    · -- from the first digit that is not zero on, all are written again
      rw [digits_ofDigitChars_of_pos isDigits.2 (Nat.pos_of_ne_zero zero), digits,
        Nat.toDigits_of_lt_base hlt, hchar]
      exact .refl _

/-- A number that is filled up to one more place has one more zero in front, if it has not got that
many digits. -/
theorem padded_succ {n width : Nat} (h : (digits n).length ≤ width) :
    padded n (width + 1 : Nat) = '0' :: padded n width := by
  have more : width + 1 - (digits n).length = (width - (digits n).length) + 1 := by omega
  rw [padded_natCast, padded_natCast, more, List.replicate_succ, List.cons_append]

/-- **Digits that are read and written again**, filled up to as many places, are as they were. -/
theorem padded_ofDigitChars {chars : List Char} (isDigits : ∀ c ∈ chars, c.isDigit = true)
    (hne : chars ≠ []) : padded (Nat.ofDigitChars 10 chars 0) chars.length = chars := by
  induction chars with
  | nil => exact absurd rfl hne
  | cons c chars ih =>
    rw [List.forall_mem_cons] at isDigits
    obtain ⟨hchar, hlt⟩ := digitChar_of_isDigit isDigits.1
    rw [Nat.ofDigitChars_cons, Nat.mul_zero, Nat.zero_add, List.length_cons]
    by_cases zero : c.toNat - '0'.toNat = 0
    · rw [zero] at hchar ⊢
      by_cases alone : chars = []
      · -- a zero that stands alone is the number zero
        subst alone
        rw [← hchar]
        rfl
      · -- a zero in front of other digits is one to be filled up with
        have rest := ih isDigits.2 alone
        have short : (digits (Nat.ofDigitChars 10 chars 0)).length ≤ chars.length := by
          have hlen := congrArg List.length rest
          rw [length_padded] at hlen
          omega
        rw [padded_succ short, rest, ← hchar]
        rfl
    · -- from the first digit that is not zero on, there is nothing to fill up
      have written : digits (Nat.ofDigitChars 10 chars (c.toNat - '0'.toNat)) = c :: chars := by
        rw [digits_ofDigitChars_of_pos isDigits.2 (Nat.pos_of_ne_zero zero), digits,
          Nat.toDigits_of_lt_base hlt, hchar]
        rfl
      rw [padded_natCast, written, List.length_cons, Nat.sub_self]
      rfl

end PhotoImport.Decimal
