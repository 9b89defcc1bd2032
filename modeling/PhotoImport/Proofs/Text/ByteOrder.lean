import Mathlib.Data.String.Basic
import PhotoImport.Path.Basic
import PhotoImport.Proofs.Path.Order
import PhotoImport.Proofs.Text.Encoded

/-!
# The order of texts is that of their bytes

Texts are compared by their characters. The bytes of a greater character are greater where they first
differ (`compareBytes_of_lt`): a character with more bytes begins with a greater one, and among
characters of one length the bytes are the digits of the character, the highest first. So a text that
comes before another comes before it in the order of the bytes too (`compareBytes_encode`), and only
then (`compareBytes_encode_iff`).
-/

namespace PhotoImport.Utf8

open Path (compareBytes)

variable {x y : UInt8} {xs ys : Bytes} {c d : Char}

theorem compareBytes_cons_eq_lt_iff :
    compareBytes (x :: xs) (y :: ys) = .lt ↔
      x.toNat < y.toNat ∨ x.toNat = y.toNat ∧ compareBytes xs ys = .lt := by
  rw [compareBytes]
  split
  · next lt => simp [UInt8.lt_iff_toNat_lt.1 lt]
  · next notLt =>
    rw [UInt8.lt_iff_toNat_lt] at notLt
    split
    · next gt =>
      rw [UInt8.lt_iff_toNat_lt] at gt
      simp only [reduceCtorEq, false_iff]
      omega
    · next notGt =>
      rw [UInt8.lt_iff_toNat_lt] at notGt
      have same : x.toNat = y.toNat := by omega
      simp [same]

/-- What two byte strings begin with in common does not matter. -/
theorem compareBytes_append_left (front xs ys : Bytes) :
    compareBytes (front ++ xs) (front ++ ys) = compareBytes xs ys := by
  induction front with
  | nil => rfl
  | cons x front ih =>
    have irrefl : ¬ x < x := UInt8.lt_irrefl x
    rw [List.cons_append, List.cons_append, compareBytes, if_neg irrefl, if_neg irrefl, ih]

/-- **The bytes of a character** are its digits to the base of 64, with what tells their number added
to the first of them. -/
theorem utf8EncodeChar_cases (c : Char) :
    (∃ x, String.utf8EncodeChar c = [x] ∧ c.toNat < 0x80 ∧ x.toNat = c.toNat) ∨
    (∃ x₁ x₂, String.utf8EncodeChar c = [x₁, x₂] ∧ 0x80 ≤ c.toNat ∧ c.toNat < 0x800 ∧
      x₁.toNat = 0xC0 + c.toNat / 64 ∧ x₂.toNat = 0x80 + c.toNat % 64) ∨
    (∃ x₁ x₂ x₃, String.utf8EncodeChar c = [x₁, x₂, x₃] ∧ 0x800 ≤ c.toNat ∧ c.toNat < 0x10000 ∧
      x₁.toNat = 0xE0 + c.toNat / 4096 ∧ x₂.toNat = 0x80 + c.toNat / 64 % 64 ∧
      x₃.toNat = 0x80 + c.toNat % 64) ∨
    ∃ x₁ x₂ x₃ x₄, String.utf8EncodeChar c = [x₁, x₂, x₃, x₄] ∧ 0x10000 ≤ c.toNat ∧
      x₁.toNat = 0xF0 + c.toNat / 262144 ∧ x₂.toNat = 0x80 + c.toNat / 4096 % 64 ∧
      x₃.toNat = 0x80 + c.toNat / 64 % 64 ∧ x₄.toNat = 0x80 + c.toNat % 64 := by
  have hc : c.val.toNat = c.toNat := rfl
  have range : c.toNat < 0x110000 := by
    rcases c.valid with low | ⟨-, high⟩
    · exact Nat.lt_trans low (by decide)
    · exact high
  unfold String.utf8EncodeChar
  simp only [hc]
  split
  · refine .inl ⟨_, rfl, ?_⟩
    simp only [UInt8.toNat_ofNat']
    omega
  · split
    · refine .inr (.inl ⟨_, _, rfl, ?_⟩)
      simp only [UInt8.toNat_ofNat']
      omega
    · split
      · refine .inr (.inr (.inl ⟨_, _, _, rfl, ?_⟩))
        simp only [UInt8.toNat_ofNat']
        omega
      · refine .inr (.inr (.inr ⟨_, _, _, _, rfl, ?_⟩))
        simp only [UInt8.toNat_ofNat']
        omega

/-- **The bytes of a greater character are greater**, whatever stands behind them. -/
theorem compareBytes_of_lt (h : c < d) (xs ys : Bytes) :
    compareBytes (String.utf8EncodeChar c ++ xs) (String.utf8EncodeChar d ++ ys) = .lt := by
  have values : c.toNat < d.toNat := h
  -- the greater character has more bytes and so a greater first one, or as many
  rcases utf8EncodeChar_cases c with
    ⟨_, hc, _⟩ | ⟨_, _, hc, _⟩ | ⟨_, _, _, hc, _⟩ | ⟨_, _, _, _, hc, _⟩
  all_goals
    rcases utf8EncodeChar_cases d with
      ⟨_, hd, _⟩ | ⟨_, _, hd, _⟩ | ⟨_, _, _, hd, _⟩ | ⟨_, _, _, _, hd, _⟩
    all_goals
      simp only [hc, hd, List.cons_append, List.nil_append, compareBytes_cons_eq_lt_iff]
      omega

theorem compareBytes_flatMap {cs ds : List Char} (h : cs < ds) :
    compareBytes (cs.flatMap String.utf8EncodeChar) (ds.flatMap String.utf8EncodeChar) = .lt := by
  induction cs generalizing ds with
  | nil =>
    cases ds with
    | nil => cases h
    | cons d ds =>
      rw [List.flatMap_nil, List.flatMap_cons]
      cases hd : String.utf8EncodeChar d with
      | nil => exact absurd hd String.utf8EncodeChar_ne_nil
      | cons => rfl
  | cons c cs ih =>
    cases ds with
    | nil => cases h
    | cons d ds =>
      rw [List.flatMap_cons, List.flatMap_cons]
      -- the texts differ here, or behind a character that they share
      rcases List.cons_lt_cons_iff.1 h with lt | ⟨rfl, lt⟩
      · exact compareBytes_of_lt lt _ _
      · rw [compareBytes_append_left, ih lt]

/-- **A text before another** comes before it in the order of bytes. -/
theorem compareBytes_encode {s t : String} (h : s < t) :
    compareBytes (encode s) (encode t) = .lt :=
  compareBytes_flatMap (String.lt_iff_toList_lt.1 h)

/-- **The order of texts is that of their bytes.** -/
theorem compareBytes_encode_iff {s t : String} :
    compareBytes (encode s) (encode t) = .lt ↔ s < t := by
  have oriented : Std.OrientedCmp compareBytes := inferInstance
  have same : Std.ReflCmp compareBytes := inferInstance
  refine ⟨fun h => ?_, compareBytes_encode⟩
  -- the other way round the bytes would be equal, or compare the other way round
  rcases lt_trichotomy s t with lt | rfl | gt
  · exact lt
  · rw [same.compare_self] at h
    cases h
  · rw [oriented.eq_swap, compareBytes_encode gt] at h
    cases h

end PhotoImport.Utf8
