import PhotoImport.Path.Suffixed
import PhotoImport.Proofs.Path.Components
import PhotoImport.Proofs.Text.Encoded

/-!
# Numbered alternatives are different paths in one folder

`components_withSuffix` tells the steps of a numbered alternative: those of the folder, and a name
in which a blank and the number stand between stem and extension (`suffixedName`). No two numbers
give the same name, and none gives the name that was there, since the alternative is longer
(`withSuffix_same_iff`, `not_same_withSuffix`).
-/

namespace PhotoImport.Path

/-! ### Stem and extension -/

/-- The extension of a name with the dot before it, or nothing. -/
def dotted : Option Bytes → Bytes
  | none => []
  | some extension => dot :: extension

/-- A name is its stem and its extension. -/
theorem splitName_append (name : Bytes) :
    (splitName name).1 ++ dotted (splitName name).2 = name := by
  unfold splitName
  split
  · simp [dotted]
  · split
    · simp [dotted]
    · simp [dotted]
    · next last before _ hd =>
      -- the reversed name is its extension, the dot and the stem
      have hcut := List.takeWhile_append_dropWhile (p := (· != dot)) (l := name.reverse)
      have hdot : last = dot := by
        have := List.head?_dropWhile_not (· != dot) name.reverse
        rw [hd] at this
        simpa using this
      rw [hd, hdot] at hcut
      calc before.reverse ++ dot :: (name.reverse.takeWhile (· != dot)).reverse
          = (name.reverse.takeWhile (· != dot) ++ dot :: before).reverse := by simp
        _ = name := by rw [hcut, List.reverse_reverse]

/-- The text of the number in an alternative. -/
def numberText (n : Nat) : Bytes := Utf8.encode (String.ofList (' ' :: Decimal.digits n))

theorem numberText_injective {n k : Nat} (h : numberText n = numberText k) : n = k := by
  -- the bytes tell the text, and the text tells the digits
  have := congrArg String.toList (Utf8.encode_injective h)
  simp only [String.toList_ofList, List.cons.injEq, true_and] at this
  exact Decimal.digits_injective this

/-- The text of a number is a blank and digits. -/
theorem exists_numberText (n : Nat) :
    ∃ digits : Bytes, numberText n = 32 :: digits ∧ ∀ b ∈ digits, 48 ≤ b.toNat := by
  refine ⟨Utf8.encode (String.ofList (Decimal.digits n)), ?_, fun b hb => ?_⟩
  · rw [numberText, Utf8.encode, Utf8.encode, String.toList_ofList, String.toList_ofList,
      List.flatMap_cons]
    rfl
  · -- a lower byte would be a character of ASCII, and such a character is no digit
    by_contra low
    rw [Utf8.mem_encode_iff (by omega), String.toList_ofList] at hb
    obtain ⟨c, hc, hval⟩ := hb
    have digit := Char.isDigit_iff_toNat.1 (Decimal.isDigit_of_mem_digits hc)
    have zero : '0'.toNat = 48 := rfl
    omega

theorem blank_mem_numberText (n : Nat) : 32 ∈ numberText n := by
  obtain ⟨digits, hdigits, -⟩ := exists_numberText n
  rw [hdigits]
  exact List.mem_cons_self

/-- Of the bytes below the digits only the blank is in the text of a number. -/
theorem notMem_numberText {b : UInt8} (low : b.toNat < 48) (notBlank : b ≠ 32) (n : Nat) :
    b ∉ numberText n := by
  obtain ⟨digits, hdigits, high⟩ := exists_numberText n
  rw [hdigits, List.mem_cons, not_or]
  exact ⟨notBlank, fun hb => absurd (high b hb) (Nat.not_le_of_lt low)⟩

theorem slash_notMem_numberText (n : Nat) : slash ∉ numberText n :=
  notMem_numberText (by decide) (by decide) n

theorem dot_notMem_numberText (n : Nat) : dot ∉ numberText n :=
  notMem_numberText (by decide) (by decide) n

/-- The name of an alternative, for a path whose name may be missing. -/
def suffixedName (name? : Option Bytes) (n : Nat) : Bytes :=
  (name?.map (splitName · |>.1)).getD [] ++ numberText n
    ++ dotted (name?.bind (splitName · |>.2))

theorem suffixedName_injective {name? : Option Bytes} {n k : Nat}
    (h : suffixedName name? n = suffixedName name? k) : n = k := by
  unfold suffixedName at h
  rw [List.append_assoc, List.append_assoc] at h
  exact numberText_injective (List.append_cancel_right (List.append_cancel_left h))

/-- A number makes a name longer. -/
theorem suffixedName_ne (name : Bytes) (n : Nat) : suffixedName (some name) n ≠ name := by
  intro h
  have hlen := congrArg List.length h
  have hsplit := congrArg List.length (splitName_append name)
  have hpos := List.length_pos_of_mem (blank_mem_numberText n)
  simp only [suffixedName, Option.map_some, Option.getD_some, Option.bind_some,
    List.length_append] at hlen hsplit
  omega

/-- The name of an alternative is one. -/
theorem isName_suffixedName {name? : Option Bytes} (h : ∀ name, name? = some name → IsName name)
    (n : Nat) : IsName (suffixedName name? n) := by
  -- the blank before the number makes it no special piece, and no part brings in a slash
  have hblank : 32 ∈ suffixedName name? n := by
    simp [suffixedName, blank_mem_numberText n]
  have hslash : slash ∉ suffixedName name? n := by
    unfold suffixedName
    cases name? with
    | none => simpa [dotted] using slash_notMem_numberText n
    | some name =>
      have hname := (h name rfl).slash_notMem
      rw [← splitName_append name] at hname
      simp only [List.mem_append, not_or] at hname
      simpa [slash_notMem_numberText n] using hname
  refine ⟨hslash, ?_, ?_, ?_⟩ <;> intro he <;> rw [he] at hblank <;> revert hblank <;> decide

/-! ### The path of an alternative -/

/-- A numbered alternative is the path with another name. -/
theorem withSuffix_eq (p : Path) (n : Nat) :
    p.withSuffix n = p.withFileName (suffixedName p.fileName? n) := by
  unfold withSuffix suffixedName stem? extension? dotted
  cases p.fileName?.bind (splitName · |>.2) <;> simp [numberText]

/-- **The steps of a numbered alternative.** -/
theorem components_withSuffix (p : Path) (n : Nat) :
    (p.withSuffix n).components = folderSteps p ++ [.normal (suffixedName p.fileName? n)] := by
  have hname : IsName (suffixedName p.fileName? n) :=
    isName_suffixedName (fun _ h => isName_of_fileName? h) n
  rw [withSuffix_eq, components_withFileName p hname]

/-- Alternatives with different numbers are different paths. -/
theorem withSuffix_same_iff {p : Path} {n k : Nat} :
    Same (p.withSuffix n) (p.withSuffix k) ↔ n = k := by
  constructor
  · intro h
    unfold Same at h
    rw [components_withSuffix, components_withSuffix] at h
    have hlast := List.append_cancel_left h
    simp only [List.cons.injEq, Component.normal.injEq, and_true] at hlast
    exact suffixedName_injective hlast
  · rintro rfl
    exact Same.refl _

/-- An alternative is never the path itself. -/
theorem not_same_withSuffix (p : Path) (n : Nat) : ¬ Same p (p.withSuffix n) := by
  intro h
  unfold Same at h
  rw [components_withSuffix] at h
  cases hname : p.fileName? with
  | none =>
    -- without a name the alternative has one step more
    have hsteps : folderSteps p = p.components := by simp [folderSteps, hname]
    rw [hsteps] at h
    exact absurd (congrArg List.length h) (by simp)
  | some name =>
    -- with a name it has another one at its end, since the number makes it longer
    rw [components_of_fileName? hname, hname] at h
    have hlast := List.append_cancel_left h
    simp only [List.cons.injEq, Component.normal.injEq, and_true] at hlast
    exact suffixedName_ne name n hlast.symm

end PhotoImport.Path
