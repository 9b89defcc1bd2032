import PhotoImport.Proofs.Text.ByteOrder
import PhotoImport.Proofs.Text.Lossy

/-!
# Reading the bytes of a text

The bytes of a text are read back as that text (`decodeLossy_encode`): nothing in them is ill-formed.
Not every byte string is that of a text, but if one is, then so are its parts on both sides of a byte
of ASCII (`IsText.of_append_cons`), and with them all pieces of a path that is a text.
-/

namespace PhotoImport.Utf8

/-! ### Characters are read back -/

theorem step_last (value : Nat) {low high b : Nat} (h : low ≤ b ∧ b ≤ high) :
    step (.within value 0 low high) b
      = ([some (Char.ofNat (value * 64 + (b - 0x80)))], .idle) := by
  rw [step, if_pos h]

theorem step_between (value missing : Nat) {low high b : Nat} (h : low ≤ b ∧ b ≤ high) :
    step (.within value (missing + 1) low high) b
      = ([], .within (value * 64 + (b - 0x80)) missing 0x80 0xBF) := by
  rw [step, if_pos h]

/-- A byte that reads nothing only moves the reader. -/
theorem scan_cons_of_silent {s next : State} {b : UInt8} (h : step s b.toNat = ([], next))
    (rest : Bytes) : scan s (b :: rest) = scan next rest := by
  rw [scan_cons, h]
  rfl

/-- A byte that ends a character leaves the reader behind it. -/
theorem scan_cons_of_ending {s : State} {b : UInt8} {c : Char}
    (h : step s b.toNat = ([some c], .idle)) (rest : Bytes) :
    scan s (b :: rest) = some c :: scan .idle rest := by
  rw [scan_cons, h]
  rfl

/-- The first of three bytes bounds the second, so that nothing overlong and no surrogate is read. -/
theorem exists_opened_three {c : Char} {x₁ x₂ : Nat} (low : 0x800 ≤ c.toNat)
    (high : c.toNat < 0x10000) (h₁ : x₁ = 0xE0 + c.toNat / 4096)
    (h₂ : x₂ = 0x80 + c.toNat / 64 % 64) :
    ∃ value least greatest, begin x₁ = ([], .within value 1 least greatest) ∧
      (least ≤ x₂ ∧ x₂ ≤ greatest) ∧ value * 64 + (x₂ - 0x80) = c.toNat / 64 := by
  have valid : c.toNat < 0xD800 ∨ 0xDFFF < c.toNat ∧ c.toNat < 0x110000 := c.valid
  rcases Nat.lt_trichotomy x₁ 0xE0 with below | first | above
  · omega
  · refine ⟨0, 0xA0, 0xBF, ?_, by omega, by omega⟩
    rw [first]
    rfl
  · rcases Decidable.em (x₁ = 0xED) with surrogate | other
    · refine ⟨13, 0x80, 0x9F, ?_, by omega, by omega⟩
      rw [surrogate]
      rfl
    · refine ⟨x₁ - 0xE0, 0x80, 0xBF, ?_, by omega, by omega⟩
      rw [begin, if_neg (by omega), if_neg (by omega), if_neg (by omega), if_neg (by omega),
        if_neg other, if_pos (by omega)]

/-- The first of four bytes bounds the second, so that nothing overlong is read and nothing above
the last character. -/
theorem exists_opened_four {c : Char} {x₁ x₂ : Nat} (low : 0x10000 ≤ c.toNat)
    (h₁ : x₁ = 0xF0 + c.toNat / 262144) (h₂ : x₂ = 0x80 + c.toNat / 4096 % 64) :
    ∃ value least greatest, begin x₁ = ([], .within value 2 least greatest) ∧
      (least ≤ x₂ ∧ x₂ ≤ greatest) ∧ value * 64 + (x₂ - 0x80) = c.toNat / 4096 := by
  have valid : c.toNat < 0xD800 ∨ 0xDFFF < c.toNat ∧ c.toNat < 0x110000 := c.valid
  rcases Nat.lt_trichotomy x₁ 0xF4 with below | last | above
  · rcases Decidable.em (x₁ = 0xF0) with first | other
    · refine ⟨0, 0x90, 0xBF, ?_, by omega, by omega⟩
      rw [first]
      rfl
    · refine ⟨x₁ - 0xF0, 0x80, 0xBF, ?_, by omega, by omega⟩
      rw [begin, if_neg (by omega), if_neg (by omega), if_neg (by omega), if_neg (by omega),
        if_neg (by omega), if_neg (by omega), if_neg other, if_pos below]
  · refine ⟨4, 0x80, 0x8F, ?_, by omega, by omega⟩
    rw [last]
    rfl
  · omega

/-- **The bytes of a character** are read as that character, and the reader stands behind it. -/
theorem scan_utf8EncodeChar (c : Char) (rest : Bytes) :
    scan .idle (String.utf8EncodeChar c ++ rest) = some c :: scan .idle rest := by
  have code : ∀ n, n = c.toNat → Char.ofNat n = c := by
    rintro n rfl
    exact Char.ofNat_toNat c
  -- the number of bytes is told by the first of them, which also bounds the second
  rcases utf8EncodeChar_cases c with ⟨x, hc, low, hx⟩ | ⟨x₁, x₂, hc, low, high, h₁, h₂⟩ |
    ⟨x₁, x₂, x₃, hc, low, high, h₁, h₂, h₃⟩ | ⟨x₁, x₂, x₃, x₄, hc, low, h₁, h₂, h₃, h₄⟩
  · have here : begin x.toNat = ([some c], .idle) := by
      rw [begin, if_pos (by omega), code _ hx]
    rw [hc]
    exact scan_cons_of_ending (s := .idle) here rest
  · have opened : begin x₁.toNat = ([], .within (x₁.toNat - 0xC0) 0 0x80 0xBF) := by
      rw [begin, if_neg (by omega), if_neg (by omega), if_pos (by omega)]
    have behind : 0x80 ≤ x₂.toNat ∧ x₂.toNat ≤ 0xBF := by omega
    have ended := step_last (x₁.toNat - 0xC0) behind
    rw [code _ (by omega)] at ended
    rw [hc]
    calc scan .idle (x₁ :: x₂ :: rest)
        = scan (.within (x₁.toNat - 0xC0) 0 0x80 0xBF) (x₂ :: rest) :=
          scan_cons_of_silent (s := .idle) opened _
      _ = some c :: scan .idle rest := scan_cons_of_ending ended rest
  · obtain ⟨value, least, greatest, opened, inside, digits⟩ := exists_opened_three low high h₁ h₂
    have behind : 0x80 ≤ x₃.toNat ∧ x₃.toNat ≤ 0xBF := by omega
    have second := step_between value 0 inside
    have ended := step_last (value * 64 + (x₂.toNat - 0x80)) behind
    rw [code _ (by omega)] at ended
    rw [hc]
    calc scan .idle (x₁ :: x₂ :: x₃ :: rest)
        = scan (.within value 1 least greatest) (x₂ :: x₃ :: rest) :=
          scan_cons_of_silent (s := .idle) opened _
      _ = scan (.within (value * 64 + (x₂.toNat - 0x80)) 0 0x80 0xBF) (x₃ :: rest) :=
          scan_cons_of_silent second _
      _ = some c :: scan .idle rest := scan_cons_of_ending ended rest
  · obtain ⟨value, least, greatest, opened, inside, digits⟩ := exists_opened_four low h₁ h₂
    have behind₃ : 0x80 ≤ x₃.toNat ∧ x₃.toNat ≤ 0xBF := by omega
    have behind₄ : 0x80 ≤ x₄.toNat ∧ x₄.toNat ≤ 0xBF := by omega
    have second := step_between value 1 inside
    have third := step_between (value * 64 + (x₂.toNat - 0x80)) 0 behind₃
    have ended := step_last ((value * 64 + (x₂.toNat - 0x80)) * 64 + (x₃.toNat - 0x80)) behind₄
    rw [code _ (by omega)] at ended
    rw [hc]
    calc scan .idle (x₁ :: x₂ :: x₃ :: x₄ :: rest)
        = scan (.within value 2 least greatest) (x₂ :: x₃ :: x₄ :: rest) :=
          scan_cons_of_silent (s := .idle) opened _
      _ = scan (.within (value * 64 + (x₂.toNat - 0x80)) 1 0x80 0xBF) (x₃ :: x₄ :: rest) :=
          scan_cons_of_silent second _
      _ = scan (.within ((value * 64 + (x₂.toNat - 0x80)) * 64 + (x₃.toNat - 0x80)) 0 0x80 0xBF)
            (x₄ :: rest) := scan_cons_of_silent third _
      _ = some c :: scan .idle rest := scan_cons_of_ending ended rest

/-- What is read from the bytes of a text are its characters, none of them replaced. -/
theorem scan_encode (text : String) : scan .idle (encode text) = text.toList.map some := by
  show scan .idle (text.toList.flatMap String.utf8EncodeChar) = _
  induction text.toList with
  | nil => rfl
  | cons c rest ih => rw [List.flatMap_cons, scan_utf8EncodeChar, ih, List.map_cons]

/-- **A text is read back** from its bytes. -/
theorem decodeLossy_encode (text : String) : decodeLossy (encode text) = text := by
  rw [decodeLossy, scan_encode, List.map_map]
  calc String.ofList (text.toList.map ((·.getD replacement) ∘ some))
      = String.ofList (text.toList.map id) := rfl
    _ = text := by rw [List.map_id, String.ofList_toList]

/-- The bytes of a text are well-formed. -/
theorem decode?_encode (text : String) : decode? (encode text) = some text := by
  have all : ∀ cs : List Char, (cs.map some).mapM id = some cs := by
    intro cs
    induction cs with
    | nil => rfl
    | cons c cs ih => rw [List.map_cons, List.mapM_cons, ih]; rfl
  rw [decode?, scan_encode, all, Option.map_some, String.ofList_toList]

/-! ### The bytes of a text -/

/-- A byte of ASCII in the bytes of a character is all of them. -/
theorem utf8EncodeChar_eq_of_mem {b : UInt8} (hb : b.toNat < 0x80) {c : Char}
    (h : b ∈ String.utf8EncodeChar c) : String.utf8EncodeChar c = [b] := by
  have code : c.toNat = b.toNat := (mem_utf8EncodeChar_iff hb c).1 h
  rcases utf8EncodeChar_cases c with ⟨x, hc, low, hx⟩ | ⟨_, _, _, above, _⟩ |
    ⟨_, _, _, _, above, _⟩ | ⟨_, _, _, _, _, above, _⟩
  · rw [hc, UInt8.toNat_inj.1 (hx.trans code)]
  all_goals omega

/-- A byte of ASCII stands between two characters. -/
theorem exists_split_flatMap {cs : List Char} {b : UInt8} (hb : b.toNat < 0x80)
    {front rest : Bytes} (h : cs.flatMap String.utf8EncodeChar = front ++ b :: rest) :
    ∃ before after : List Char, front = before.flatMap String.utf8EncodeChar ∧
      rest = after.flatMap String.utf8EncodeChar := by
  induction cs generalizing front with
  | nil => simp at h
  | cons c cs ih =>
    rw [List.flatMap_cons] at h
    -- the first character ends at or before the byte, or the byte is in it
    rcases List.append_eq_append_iff.1 h with ⟨more, hfront, hrest⟩ | ⟨more, hchar, hrest⟩
    · obtain ⟨before, after, eq, htail⟩ := ih hrest
      exact ⟨c :: before, after, by rw [hfront, eq, List.flatMap_cons], htail⟩
    · cases more with
      | nil =>
        have next : cs.flatMap String.utf8EncodeChar = [] ++ b :: rest := hrest.symm
        obtain ⟨before, after, eq, htail⟩ := ih next
        refine ⟨c :: before, after, ?_, htail⟩
        rw [List.flatMap_cons, ← eq, List.append_nil, hchar, List.append_nil]
      | cons x more =>
        obtain ⟨rfl, htail⟩ : x = b ∧ more ++ cs.flatMap String.utf8EncodeChar = rest := by
          simpa [eq_comm] using hrest
        have whole : front ++ x :: more = [x] := by
          rw [← hchar]
          exact utf8EncodeChar_eq_of_mem hb (by simp [hchar])
        obtain ⟨rfl, rfl⟩ : front = [] ∧ more = [] := by
          cases front with
          | nil => exact ⟨rfl, by simpa using whole⟩
          | cons y front => simp at whole
        exact ⟨[], cs, rfl, htail.symm⟩

/-- These are the bytes of a text. -/
def IsText (bytes : Bytes) : Prop :=
  ∃ text, bytes = encode text

/-- Nothing is lost when the bytes of a text are read and written again. -/
theorem IsText.encode_decodeLossy {bytes : Bytes} (h : IsText bytes) :
    encode (decodeLossy bytes) = bytes := by
  obtain ⟨text, rfl⟩ := h
  rw [decodeLossy_encode]

/-- **Both sides** of a byte of ASCII in a text are texts. -/
theorem IsText.of_append_cons {front rest : Bytes} {b : UInt8} (hb : b.toNat < 0x80)
    (h : IsText (front ++ b :: rest)) : IsText front ∧ IsText rest := by
  obtain ⟨text, eq⟩ := h
  obtain ⟨before, after, hfront, hrest⟩ := exists_split_flatMap hb eq.symm
  refine ⟨⟨String.ofList before, ?_⟩, ⟨String.ofList after, ?_⟩⟩
  · rw [hfront, encode, String.toList_ofList]
  · rw [hrest, encode, String.toList_ofList]

/-- The pieces of a text between the occurrences of a character of ASCII are texts. -/
theorem IsText.of_mem_split {sep : UInt8} (hsep : sep.toNat < 0x80) {bytes piece : Bytes}
    (h : IsText bytes) (hpiece : piece ∈ Pieces.split sep bytes) : IsText piece := by
  have joined : IsText (Pieces.join sep (Pieces.split sep bytes)) := by
    rwa [Pieces.join_split]
  clear h
  generalize Pieces.split sep bytes = pieces at hpiece joined
  induction pieces with
  | nil => cases hpiece
  | cons p ps ih =>
    cases ps with
    | nil =>
      obtain rfl := List.mem_singleton.1 hpiece
      exact joined
    | cons q qs =>
      rw [Pieces.join_cons_cons] at joined
      rcases List.mem_cons.1 hpiece with rfl | hpiece
      · exact (joined.of_append_cons hsep).1
      · exact ih hpiece (joined.of_append_cons hsep).2

end PhotoImport.Utf8
