import Mathlib.Tactic.Ring
import PhotoImport.Text.Pieces
import PhotoImport.Text.Utf8

/-!
# What the lossy text of bytes still tells

Two byte strings may have the same lossy text, since every ill-formed part becomes the same
character. The bytes of ASCII survive, however, each at its place:

* `decodeLossy_append_cons` — a byte of ASCII ends whatever stood before it and is read as itself;
* `exists_mem_of_mem_decodeLossy` — a character of ASCII in the text was a byte;
* `eq_of_decodeLossy_eq_of_ascii` — a text of ASCII alone comes from one byte string only;
* `map_decodeLossy_split` — the text between two slashes is the text of the bytes between them.

All of this rests on one invariant of the reader, `State.Fits`: the codes that an open character may
still grow into are those of characters, and lie above ASCII.
-/

namespace PhotoImport.Utf8

/-! ### Open characters lie above ASCII -/

/-- What an open character may become is a character above ASCII. The codes that can still be
reached run from the one that continues with the least bytes to the one that continues with the
greatest. -/
def State.Fits : State → Prop
  | .idle => True
  | .within value missing low high =>
    0x80 ≤ low ∧
      0x80 ≤ (value * 64 + (low - 0x80)) * 64 ^ missing ∧
      ((value * 64 + (high - 0x80) + 1) * 64 ^ missing ≤ 0xD800 ∨
        (0xE000 ≤ (value * 64 + (low - 0x80)) * 64 ^ missing ∧
          (value * 64 + (high - 0x80) + 1) * 64 ^ missing ≤ 0x110000))

theorem idle_fits : State.idle.Fits := trivial

theorem begin_fits (b : Nat) : (begin b).2.Fits := by
  unfold begin
  repeat' split
  all_goals simp only [State.Fits, pow_zero, pow_one, mul_one, Nat.reducePow]
  all_goals omega

/-- A byte that continues a character leaves it in the range that it had. -/
theorem step_fits {s : State} (h : s.Fits) (b : Nat) : (step s b).2.Fits := by
  unfold step
  split
  · exact begin_fits b
  · next value missing low high =>
    split
    · next inside =>
      cases missing with
      | zero => trivial
      | succ missing =>
        obtain ⟨hlow, hleast, hrange⟩ := h
        -- the codes in reach after the byte are among those in reach before it
        have hlo : (value * 64 + (low - 0x80)) * 64 ^ (missing + 1)
            ≤ (value * 64 + (b - 0x80)) * 64 ^ (missing + 1) :=
          Nat.mul_le_mul_right _ (by omega)
        have hhi : (value * 64 + (b - 0x80) + 1) * 64 ^ (missing + 1)
            ≤ (value * 64 + (high - 0x80) + 1) * 64 ^ (missing + 1) :=
          Nat.mul_le_mul_right _ (by omega)
        have eqlo : ((value * 64 + (b - 0x80)) * 64 + (0x80 - 0x80)) * 64 ^ missing
            = (value * 64 + (b - 0x80)) * 64 ^ (missing + 1) := by
          rw [Nat.sub_self, Nat.add_zero]; ring
        have eqhi : ((value * 64 + (b - 0x80)) * 64 + (0xBF - 0x80) + 1) * 64 ^ missing
            = (value * 64 + (b - 0x80) + 1) * 64 ^ (missing + 1) := by
          rw [pow_succ]; ring
        simp only [State.Fits]
        rw [eqlo, eqhi]
        omega
    · -- a byte that does not continue the character begins anew
      exact begin_fits b

/-- The code of a character is the number that it was made from. -/
theorem toNat_ofNat {n : Nat} (h : n.isValidChar) : (Char.ofNat n).toNat = n := by
  rw [Char.ofNat, dif_pos h]
  rfl

theorem toNat_ofNat_of_ascii {n : Nat} (h : n < 0x80) : (Char.ofNat n).toNat = n :=
  toNat_ofNat (.inl (by omega))

/-- Between characters, what is read at one byte is that byte. -/
theorem toNat_of_mem_begin {b : Nat} {c : Char} (h : some c ∈ (begin b).1) :
    b < 0x80 ∧ c.toNat = b := by
  unfold begin at h
  split at h
  · next hlt =>
    simp only [List.mem_singleton, Option.some.injEq] at h
    rw [h]
    exact ⟨hlt, toNat_ofNat_of_ascii hlt⟩
  · exfalso
    revert h
    repeat' split
    all_goals simp

/-- A character that is read is a byte of ASCII or lies above ASCII. -/
theorem toNat_of_mem_step {s : State} (hs : s.Fits) {b : Nat} {c : Char}
    (h : some c ∈ (step s b).1) : (b < 0x80 ∧ c.toNat = b) ∨ 0x80 ≤ c.toNat := by
  unfold step at h
  split at h
  · exact .inl (toNat_of_mem_begin h)
  · next value missing low high =>
    split at h
    · next inside =>
      cases missing with
      | zero =>
        obtain ⟨hlow, hleast, hrange⟩ := hs
        simp only [pow_zero, mul_one] at hleast hrange
        simp only [List.mem_singleton, Option.some.injEq] at h
        -- nothing is missing any more, so the range is the code of the character alone
        have hvalid : (value * 64 + (b - 0x80)).isValidChar := by
          unfold Nat.isValidChar
          omega
        rw [h, toNat_ofNat hvalid]
        exact .inr (by omega)
      | succ missing => simp at h
    · simp only [List.mem_cons, reduceCtorEq, false_or] at h
      exact .inl (toNat_of_mem_begin h)

/-! ### A byte of ASCII is read as itself -/

@[simp] theorem scan_cons (s : State) (b : UInt8) (rest : Bytes) :
    scan s (b :: rest) = (step s b.toNat).1 ++ scan (step s b.toNat).2 rest := by
  cases s <;> rfl

/-- A byte of ASCII ends what stood before it, as the end of the bytes would have. -/
theorem step_of_ascii {s : State} (hs : s.Fits) {b : Nat} (hb : b < 0x80) :
    step s b = (scan s [] ++ [some (Char.ofNat b)], .idle) := by
  have hbegin : begin b = ([some (Char.ofNat b)], .idle) := by rw [begin, if_pos hb]
  cases s with
  | idle => exact hbegin
  | within value missing low high =>
    -- only bytes above ASCII continue a character
    have outside : ¬ (low ≤ b ∧ b ≤ high) := by
      have := hs.1
      omega
    simp only [step, if_neg outside, hbegin]
    rfl

theorem scan_append_cons {s : State} (hs : s.Fits) (front : Bytes) {b : UInt8}
    (hb : b.toNat < 0x80) (rest : Bytes) :
    scan s (front ++ b :: rest)
      = scan s front ++ some (Char.ofNat b.toNat) :: scan .idle rest := by
  induction front generalizing s with
  | nil => simp [step_of_ascii hs hb]
  | cons a front ih => simp [ih (step_fits hs a.toNat)]

theorem toList_decodeLossy (bytes : Bytes) :
    (decodeLossy bytes).toList = (scan .idle bytes).map (·.getD replacement) :=
  String.toList_ofList

/-- A byte of ASCII cuts the text at its place. -/
theorem decodeLossy_append_cons (front : Bytes) {b : UInt8} (hb : b.toNat < 0x80) (rest : Bytes) :
    (decodeLossy (front ++ b :: rest)).toList
      = (decodeLossy front).toList ++ Char.ofNat b.toNat :: (decodeLossy rest).toList := by
  simp only [toList_decodeLossy, scan_append_cons idle_fits front hb, List.map_append,
    List.map_cons, Option.getD_some]

/-! ### Where the ASCII of a text comes from -/

theorem exists_mem_of_mem_scan {s : State} (hs : s.Fits) {bytes : Bytes} {c : Char}
    (hc : c.toNat < 0x80) (h : some c ∈ scan s bytes) : ∃ b ∈ bytes, b.toNat = c.toNat := by
  induction bytes generalizing s with
  | nil => cases s <;> simp [scan] at h
  | cons b rest ih =>
    rw [scan_cons, List.mem_append] at h
    rcases h with h | h
    · -- read at the first byte, it is that byte, since it does not lie above ASCII
      rcases toNat_of_mem_step hs h with ⟨-, eq⟩ | above
      · exact ⟨b, List.mem_cons_self, eq.symm⟩
      · omega
    · obtain ⟨b', hb', eq⟩ := ih (step_fits hs _) h
      exact ⟨b', List.mem_cons_of_mem _ hb', eq⟩

/-- A character of ASCII in the text was a byte: the replacement lies above ASCII. -/
theorem exists_mem_of_mem_decodeLossy {bytes : Bytes} {c : Char} (hc : c.toNat < 0x80)
    (h : c ∈ (decodeLossy bytes).toList) : ∃ b ∈ bytes, b.toNat = c.toNat := by
  rw [toList_decodeLossy, List.mem_map] at h
  obtain ⟨part, hpart, rfl⟩ := h
  cases part with
  -- the replacement lies above ASCII
  | none => exact absurd hc (by decide)
  | some c => exact exists_mem_of_mem_scan idle_fits hc hpart

/-- A step that reads nothing but ASCII and ends between characters began there. -/
theorem step_of_parts_ascii {s : State} (hs : s.Fits) {b : Nat}
    (h : ∀ part ∈ (step s b).1, ∃ c : Char, part = some c ∧ c.toNat < 0x80)
    (hidle : (step s b).2 = .idle) :
    s = .idle ∧ b < 0x80 ∧ (step s b).1 = [some (Char.ofNat b)] := by
  cases s with
  | idle =>
    refine ⟨rfl, ?_⟩
    revert h hidle
    simp only [step, begin]
    split
    · next hlt => exact fun _ _ => ⟨hlt, rfl⟩
    · repeat' split
      all_goals simp
  | within value missing low high =>
    exfalso
    revert h hidle
    simp only [step]
    split
    · next inside =>
      cases missing with
      | zero =>
        intro h _
        obtain ⟨c, eq, ascii⟩ := h _ List.mem_cons_self
        -- the character that ends here was open, so it lies above ASCII
        rcases toNat_of_mem_step (s := .within value 0 low high) hs (b := b) (c := c)
          (by simp [step, inside, ← eq]) with ⟨hb, -⟩ | above
        · have := hs.1
          omega
        · omega
      | succ missing => simp
    · simp

/-- If all that is read is ASCII then no character was open and the bytes are what is read. -/
theorem scan_of_parts_ascii {s : State} (hs : s.Fits) {bytes : Bytes}
    (h : ∀ part ∈ scan s bytes, ∃ c : Char, part = some c ∧ c.toNat < 0x80) :
    s = .idle ∧ (∀ b ∈ bytes, b.toNat < 0x80) ∧
      scan s bytes = bytes.map fun b => some (Char.ofNat b.toNat) := by
  induction bytes generalizing s with
  | nil =>
    cases s with
    | idle => simp [scan]
    | within => simp [scan] at h
  | cons b rest ih =>
    rw [scan_cons] at h ⊢
    -- from the end backwards: the rest began between characters, so the first byte ended there
    obtain ⟨idle, hrest, eqrest⟩ := ih (step_fits hs b.toNat) fun part hpart =>
      h part (List.mem_append_right _ hpart)
    obtain ⟨rfl, hb, eqb⟩ := step_of_parts_ascii hs
      (fun part hpart => h part (List.mem_append_left _ hpart)) idle
    refine ⟨rfl, ?_, ?_⟩
    · simpa [hb] using hrest
    · rw [eqrest, eqb]
      rfl

/-- The text of bytes of ASCII. -/
theorem scan_of_ascii {bytes : Bytes} (h : ∀ b ∈ bytes, b.toNat < 0x80) :
    scan .idle bytes = bytes.map fun b => some (Char.ofNat b.toNat) := by
  induction bytes with
  | nil => rfl
  | cons b rest ih =>
    rw [List.forall_mem_cons] at h
    rw [scan_cons, step_of_ascii idle_fits h.1, ih h.2]
    rfl

/-- Bytes of ASCII are the only ones with their text. -/
theorem eq_of_decodeLossy_eq_of_ascii {a b : Bytes} (hb : ∀ x ∈ b, x.toNat < 0x80)
    (h : decodeLossy a = decodeLossy b) : a = b := by
  have htext : (scan .idle a).map (·.getD replacement) = b.map fun x => Char.ofNat x.toNat := by
    rw [← toList_decodeLossy, h, toList_decodeLossy, scan_of_ascii hb, List.map_map]
    rfl
  -- the text is one of ASCII, so nothing of `a` was replaced
  have hparts : ∀ part ∈ scan .idle a, ∃ c : Char, part = some c ∧ c.toNat < 0x80 := by
    intro part hpart
    have hmem : part.getD replacement ∈ b.map fun x => Char.ofNat x.toNat := by
      rw [← htext]
      exact List.mem_map_of_mem hpart
    obtain ⟨x, hx, eq⟩ := List.mem_map.1 hmem
    have ascii : (part.getD replacement).toNat < 0x80 := by
      rw [← eq, toNat_ofNat_of_ascii (hb x hx)]
      exact hb x hx
    cases part with
    | none => exact absurd ascii (by decide)
    | some c => exact ⟨c, rfl, ascii⟩
  obtain ⟨-, ha, eqa⟩ := scan_of_parts_ascii idle_fits hparts
  have hcodes : a.map (fun x => Char.ofNat x.toNat) = b.map fun x => Char.ofNat x.toNat := by
    rw [← htext, eqa, List.map_map]
    rfl
  -- characters of ASCII have the numbers of the bytes that they were read from
  have hnumbers : a.map UInt8.toNat = b.map UInt8.toNat := by
    have := congrArg (List.map Char.toNat) hcodes
    rw [List.map_map, List.map_map] at this
    calc a.map UInt8.toNat = a.map (Char.toNat ∘ fun x => Char.ofNat x.toNat) :=
          List.map_congr_left fun x hx => (toNat_ofNat_of_ascii (ha x hx)).symm
      _ = b.map (Char.toNat ∘ fun x => Char.ofNat x.toNat) := this
      _ = b.map UInt8.toNat := List.map_congr_left fun x hx => toNat_ofNat_of_ascii (hb x hx)
  exact (List.map_inj_right fun _ _ => UInt8.toNat_inj.1).1 hnumbers

/-! ### Texts in pieces -/

/-- A separator of ASCII separates the texts of the pieces as it does the pieces. -/
theorem toList_decodeLossy_join {sep : UInt8} (hsep : sep.toNat < 0x80) {pieces : List Bytes}
    (hne : pieces ≠ []) :
    (decodeLossy (Pieces.join sep pieces)).toList
      = Pieces.join (Char.ofNat sep.toNat)
          (pieces.map fun piece => (decodeLossy piece).toList) := by
  induction pieces with
  | nil => exact absurd rfl hne
  | cons p ps ih =>
    cases ps with
    | nil => rfl
    | cons q qs =>
      rw [Pieces.join_cons_cons, decodeLossy_append_cons p hsep, ih (List.cons_ne_nil _ _)]
      rfl

/-- The text between two occurrences of a character of ASCII is the text of the bytes between
them. -/
theorem map_decodeLossy_split {sep : UInt8} (hsep : sep.toNat < 0x80) (bytes : Bytes) :
    (Pieces.split sep bytes).map (fun piece => (decodeLossy piece).toList)
      = Pieces.split (Char.ofNat sep.toNat) (decodeLossy bytes).toList := by
  -- the separator is in the text of no piece, or it would have been a byte of the piece
  have hfree : ∀ piece ∈ Pieces.split sep bytes,
      Char.ofNat sep.toNat ∉ (decodeLossy piece).toList := by
    intro piece hpiece hmem
    have ascii := toNat_ofNat_of_ascii hsep
    obtain ⟨b, hb, eq⟩ := exists_mem_of_mem_decodeLossy (ascii.symm ▸ hsep) hmem
    have : b = sep := UInt8.toNat_inj.1 (eq.trans ascii)
    exact Pieces.not_mem_of_mem_split hpiece (this ▸ hb)
  have hsplit : Pieces.split (Char.ofNat sep.toNat) (Pieces.join (Char.ofNat sep.toNat)
      ((Pieces.split sep bytes).map fun piece => (decodeLossy piece).toList))
      = (Pieces.split sep bytes).map fun piece => (decodeLossy piece).toList :=
    Pieces.split_join (by simpa using Pieces.split_ne_nil sep bytes) (by simpa using hfree)
  rw [← hsplit, ← toList_decodeLossy_join hsep (Pieces.split_ne_nil sep bytes),
    Pieces.join_split]

end PhotoImport.Utf8
