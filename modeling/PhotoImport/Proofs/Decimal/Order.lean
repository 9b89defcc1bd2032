import Mathlib.Data.Nat.Log
import Mathlib.Data.String.Basic
import PhotoImport.Proofs.Decimal.Padded

/-!
# Padded numbers sort by their values

Texts are sorted by their first difference. Of two numbers with as many digits each, the greater one
has the greater digit there: whatever the digits behind it are, they count for less than one more in
its place (`ofDigitChars_lt_pow`). So what comes first in the order of texts is the smaller number
(`ofDigitChars_lt_of_lt`), and two numbers that fit into a width are sorted alike as numbers and as
texts of that width (`padded_lt_padded_iff`).

How many digits a number has is a matter of its logarithm (`length_digits`).
-/

namespace PhotoImport.Decimal

variable {chars chars' : List Char} {n k width : Nat}

/-- A number has one digit more than its logarithm. -/
theorem length_digits (n : Nat) : (digits n).length = Nat.log 10 n + 1 := by
  apply Nat.le_antisymm
  · rw [length_digits_le_iff (Nat.succ_pos _)]
    exact Nat.lt_pow_succ_log_self (by decide) n
  · by_contra short
    have pos := length_digits_pos n
    have fits : (digits n).length ≤ Nat.log 10 n := by omega
    -- with so few digits the number would be below a power of ten that it reaches
    have below : n < 10 ^ Nat.log 10 n := (length_digits_le_iff (by omega)).1 fits
    have nonzero : n ≠ 0 := by
      rintro rfl
      rw [Nat.log_zero_right] at fits
      omega
    exact absurd (Nat.pow_log_le_self 10 nonzero) (Nat.not_le_of_lt below)

/-! ### The first difference decides -/

/-- Digits count for less than one more in the place before them. -/
theorem ofDigitChars_lt_pow (isDigits : ∀ c ∈ chars, c.isDigit = true) :
    Nat.ofDigitChars 10 chars 0 < 10 ^ chars.length := by
  induction chars with
  | nil => exact Nat.one_pos
  | cons c chars ih =>
    rw [List.forall_mem_cons] at isDigits
    have digit : c.toNat - '0'.toNat < 10 := (digitChar_of_isDigit isDigits.1).2
    have rest := ih isDigits.2
    rw [Nat.ofDigitChars_cons, Nat.mul_zero, Nat.zero_add, Nat.ofDigitChars_eq_ofDigitChars_zero]
    calc 10 ^ chars.length * (c.toNat - '0'.toNat) + Nat.ofDigitChars 10 chars 0
        < 10 ^ chars.length * (c.toNat - '0'.toNat) + 10 ^ chars.length := by omega
      _ = 10 ^ chars.length * (c.toNat - '0'.toNat + 1) := (Nat.mul_succ _ _).symm
      _ ≤ 10 ^ chars.length * 10 := Nat.mul_le_mul_left _ digit
      _ = 10 ^ (c :: chars).length := by rw [List.length_cons, Nat.pow_succ]

/-- What is less before some digits is less with them, if as many digits stand behind both. -/
theorem ofDigitChars_lt_of_init_lt {init init' : Nat} (isDigits : ∀ c ∈ chars, c.isDigit = true)
    (length : chars.length = chars'.length) (less : init < init') :
    Nat.ofDigitChars 10 chars init < Nat.ofDigitChars 10 chars' init' := by
  have rest := ofDigitChars_lt_pow isDigits
  calc Nat.ofDigitChars 10 chars init
      = 10 ^ chars.length * init + Nat.ofDigitChars 10 chars 0 :=
        Nat.ofDigitChars_eq_ofDigitChars_zero
    _ < 10 ^ chars.length * init + 10 ^ chars.length := by omega
    _ = 10 ^ chars.length * (init + 1) := (Nat.mul_succ _ _).symm
    _ ≤ 10 ^ chars.length * init' := Nat.mul_le_mul_left _ less
    _ = 10 ^ chars'.length * init' := by rw [length]
    _ ≤ 10 ^ chars'.length * init' + Nat.ofDigitChars 10 chars' 0 := Nat.le_add_right _ _
    _ = Nat.ofDigitChars 10 chars' init' := Nat.ofDigitChars_eq_ofDigitChars_zero.symm

/-- **Digits that come first** in the order of texts are those of the smaller number, if there are
as many of them. -/
theorem ofDigitChars_lt_of_lt (isDigits : ∀ c ∈ chars, c.isDigit = true)
    (isDigits' : ∀ c ∈ chars', c.isDigit = true) (length : chars.length = chars'.length)
    (less : chars < chars') (init : Nat) :
    Nat.ofDigitChars 10 chars init < Nat.ofDigitChars 10 chars' init := by
  -- along both texts, with the number that has been read so far
  induction chars generalizing chars' init with
  | nil =>
    cases chars' with
    | nil => cases less
    | cons => cases length
  | cons c chars ih =>
    cases chars' with
    | nil => cases length
    | cons c' chars' =>
      rw [List.forall_mem_cons] at isDigits isDigits'
      have behind : chars.length = chars'.length := Nat.succ.inj length
      rw [Nat.ofDigitChars_cons, Nat.ofDigitChars_cons]
      rcases List.cons_lt_cons_iff.1 less with first | ⟨rfl, rest⟩
      · -- here they differ, and so does what has been read
        have bounds : 48 ≤ c.toNat ∧ c.toNat ≤ 57 := Char.isDigit_iff_toNat.1 isDigits.1
        have values : c.toNat < c'.toNat := first
        have zero : '0'.toNat = 48 := rfl
        apply ofDigitChars_lt_of_init_lt isDigits.2 behind
        omega
      · exact ih isDigits.2 isDigits'.2 behind rest _

/-- **Padded numbers sort by their values**, if both fit into the width. -/
theorem padded_lt_padded_iff (hn : n < 10 ^ width) (hk : k < 10 ^ width) :
    padded n width < padded k width ↔ n < k := by
  have isDigits (i : Nat) : ∀ c ∈ padded i width, c.isDigit = true :=
    fun _ h => isDigit_of_mem_padded h
  -- both have the width, unless that is zero and they are zero as well
  have length : (padded n width).length = (padded k width).length := by
    rcases Nat.eq_zero_or_pos width with rfl | pos
    · rw [Nat.pow_zero, Nat.lt_one_iff] at hn hk
      rw [hn, hk]
    · have short := (length_digits_le_iff pos).2 hn
      have short' := (length_digits_le_iff pos).2 hk
      rw [length_padded, length_padded, Nat.max_eq_left short, Nat.max_eq_left short']
  have less {i j : Nat} (length : (padded i width).length = (padded j width).length)
      (h : padded i width < padded j width) : i < j := by
    have values := ofDigitChars_lt_of_lt (isDigits i) (isDigits j) length h 0
    rwa [ofDigitChars_padded, ofDigitChars_padded] at values
  constructor
  · exact less length
  · intro h
    rcases lt_trichotomy (padded n width) (padded k width) with lt | eq | gt
    · exact lt
    · exact absurd (padded_injective eq) (Nat.ne_of_lt h)
    · exact absurd (less length.symm gt) (Nat.lt_asymm h)

end PhotoImport.Decimal
