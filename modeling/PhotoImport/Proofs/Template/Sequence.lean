import Mathlib
import PhotoImport.Template.Render
import PhotoImport.Proofs.Decimal.Order
import PhotoImport.Proofs.Text.ByteOrder

/-!
# Sequence numbers in file names

A sequence number makes names different and puts them in order, for whoever sorts a folder by name.
It does so as far as its text is faithful (`Spells`): all digits of the number are there, only zeros
are added, and the text can be read. Then different numbers have different texts; and numbers that
fit into the width are sorted by their texts as they are by their values, since texts are compared by
their bytes and digits of ASCII have the order of their values (`sequence_texts_sort`).
-/

namespace PhotoImport

/-- **A text spells a number** that is filled up to a width. -/
structure Spells (width n : Nat) (text : String) : Prop where
  /-- There are as many characters as the width asks for, or as the number has digits if these are
  more: nothing is cut off. -/
  length : text.length = max width (Nat.log 10 n + 1)
  /-- They are digits of ASCII. -/
  digits : ∀ c ∈ text.toList, c.isDigit = true
  /-- They are read as the number. -/
  reads : text.toNat? = some n

/-- A text spells one number only. -/
theorem Spells.unique {width width' n k : Nat} {text : String} (h : Spells width n text)
    (h' : Spells width' k text) : n = k :=
  Option.some.inj (h.reads.symm.trans h'.reads)

/-- Digits are read as the number of which they are the decimal digits. -/
theorem toNat?_of_digits {text : String} (nonempty : text ≠ "")
    (digits : ∀ c ∈ text.toList, c.isDigit = true) :
    text.toNat? = some (Nat.ofDigitChars 10 text.toList 0) := by
  -- a reader of numbers skips underscores, of which there are none
  have plain : text.toList.filter (· != '_') = text.toList := by
    rw [List.filter_eq_self]
    rintro c hc
    rw [bne_iff_ne]
    rintro rfl
    exact absurd (digits '_' hc) (by decide)
  have read := String.toNat?_eq_some_ofDigitChars (String.isNat_of_isDigit nonempty digits)
  rwa [plain] at read

/-- The text of a padded number has digits only. -/
theorem isDigit_of_mem_toList_padded {width n : Nat} {c : Char}
    (h : c ∈ (String.ofList (Decimal.padded n width)).toList) : c.isDigit = true := by
  rw [String.toList_ofList] at h
  exact Decimal.isDigit_of_mem_padded h

theorem spells_padded (width n : Nat) :
    Spells width n (String.ofList (Decimal.padded n width)) where
  length := by rw [String.length_ofList, Decimal.length_padded, Decimal.length_digits]
  digits _ := isDigit_of_mem_toList_padded
  reads := by
    have nonempty : String.ofList (Decimal.padded n width) ≠ "" := by
      intro empty
      have nothing := congrArg String.toList empty
      rw [String.toList_ofList] at nothing
      exact Decimal.padded_ne_nil n width nothing
    rw [toNat?_of_digits nonempty fun _ => isDigit_of_mem_toList_padded, String.toList_ofList,
      Decimal.ofDigitChars_padded]

namespace Token

variable {scope : Scope} {s s' : Subject} {n k : Nat}

/-- What the marker of a counter reads as for a file that the counter has given a number. -/
theorem render_sequence (known : s.number scope = some n) (width : Option Nat) :
    render s (.sequence scope width) = String.ofList (Decimal.padded n (width.getD 1)) := by
  rw [render, known]

/-- **Sequence numbers are spelled faithfully and sort in order.** The text of a number has as many
digits as it asks for, spells the number, and so belongs to no other one. Of two numbers below the
power of ten that the width stands for, the smaller one is the one whose text has the smaller bytes.
A marker without a width asks for one digit. -/
theorem sequence_texts_sort (width : Option Nat) (hn : s.number scope = some n)
    (hk : s'.number scope = some k) :
    Spells (width.getD 1) n (render s (.sequence scope width)) ∧
    (render s (.sequence scope width) = render s' (.sequence scope width) → n = k) ∧
    (n < 10 ^ width.getD 1 → k < 10 ^ width.getD 1 →
      (n < k ↔ Path.compareBytes (Utf8.encode (render s (.sequence scope width)))
        (Utf8.encode (render s' (.sequence scope width))) = .lt)) := by
  rw [render_sequence hn, render_sequence hk]
  have spelled := spells_padded (width.getD 1) n
  have spelled' := spells_padded (width.getD 1) k
  refine ⟨spelled, fun same => ?_, fun small small' => ?_⟩
  · rw [← same] at spelled'
    exact spelled.unique spelled'
  · -- the order of the bytes is that of the characters, and that is the order of the numbers
    rw [Utf8.compareBytes_encode_iff, String.lt_iff_toList_lt, String.toList_ofList,
      String.toList_ofList, Decimal.padded_lt_padded_iff small small']

/-- The 42nd and the 1234th file of a batch, with numbers of four digits and of none. -/
theorem sequence_texts_sort_of_four_digits :
    let s : Subject := { path := .ofText "b.jpg", batchNumber := some 42 }
    let s' : Subject := { path := .ofText "a.jpg", batchNumber := some 1234 }
    s.number .batch = some 42 ∧ s'.number .batch = some 1234 ∧
    render s (.sequence .batch (some 4)) = "0042" ∧
    render s' (.sequence .batch (some 0)) = "1234" ∧
    Spells 4 42 (render s (.sequence .batch (some 4))) ∧
    Spells 0 1234 (render s' (.sequence .batch (some 0))) ∧
    Path.compareBytes (Utf8.encode (render s (.sequence .batch (some 4))))
      (Utf8.encode (render s' (.sequence .batch (some 4)))) = .lt := by
  intro s s'
  have four := @sequence_texts_sort .batch s s' 42 1234 (some 4) rfl rfl
  have none := @sequence_texts_sort .batch s' s 1234 42 (some 0) rfl rfl
  exact ⟨rfl, rfl, by decide, by decide, four.1, none.1,
    (four.2.2 (by decide) (by decide)).1 (by decide)⟩

end Token
end PhotoImport
