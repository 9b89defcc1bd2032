import PhotoImport.Proofs.Path.Components
import PhotoImport.Proofs.Text.Lossy

/-!
# Spellings of one place that read alike

Two paths may name one place, and two paths may have one text: neither makes them equal. Together
they do (`eq_of_display_eq_of_same`). The text shows every slash and every piece that is no name, so
the pieces that are names stand at the same places of both paths; and naming one place, both paths
have the same names in the same order.

So a batch that is sorted by the text of its paths, and by the paths themselves where two texts
agree, has its files in one order only.
-/

namespace PhotoImport.Path

open Component (ofPiece)

theorem front_injective {a b : Bytes} (h : Component.front a = Component.front b) : a = b := by
  unfold Component.front at h
  grind

theorem dots_or_ofPiece (piece : Bytes) :
    (piece = [] ∨ piece = [dot] ∨ piece = [dot, dot]) ∨ ofPiece piece = some (.normal piece) := by
  unfold Component.ofPiece
  grind

/-- A piece of dots alone is told by its text. -/
theorem eq_of_decodeLossy_eq_of_dots {piece other : Bytes}
    (hdots : piece = [] ∨ piece = [dot] ∨ piece = [dot, dot])
    (h : Utf8.decodeLossy other = Utf8.decodeLossy piece) : other = piece := by
  refine Utf8.eq_of_decodeLossy_eq_of_ascii (fun x hx => ?_) h
  have : x = dot := by
    rcases hdots with rfl | rfl | rfl
    · exact absurd hx List.not_mem_nil
    · exact List.mem_singleton.1 hx
    · simpa using hx
  exact this ▸ by decide

/-- Pieces that read alike one by one and take the same steps are the same pieces. -/
theorem eq_of_map_decodeLossy_eq_of_steps_eq {as bs : List Bytes}
    (htext : as.map Utf8.decodeLossy = bs.map Utf8.decodeLossy)
    (hsteps : as.filterMap ofPiece = bs.filterMap ofPiece) : as = bs := by
  induction as generalizing bs with
  | nil => simpa using htext.symm
  | cons a as ih =>
    cases bs with
    | nil => simp at htext
    | cons b bs =>
      simp only [List.map_cons, List.cons.injEq] at htext
      obtain ⟨heads, tails⟩ := htext
      have hab : a = b := by
        -- a piece of dots alone is told by its text, whichever list has it
        rcases dots_or_ofPiece a with ha | ha
        · exact (eq_of_decodeLossy_eq_of_dots ha heads.symm).symm
        rcases dots_or_ofPiece b with hb | hb
        · exact eq_of_decodeLossy_eq_of_dots hb heads
        -- both are names, and so the first step of either list
        rw [List.filterMap_cons_some ha, List.filterMap_cons_some hb] at hsteps
        exact Component.normal.inj (List.cons.inj hsteps).1
      subst hab
      have hrest : as.filterMap ofPiece = bs.filterMap ofPiece := by
        cases hc : ofPiece a with
        | none => rwa [List.filterMap_cons_none hc, List.filterMap_cons_none hc] at hsteps
        | some c =>
          rw [List.filterMap_cons_some hc, List.filterMap_cons_some hc] at hsteps
          exact (List.cons.inj hsteps).2
      rw [ih tails hrest]

/-- The pieces of a path read as its text does between two slashes. -/
theorem map_decodeLossy_split_of_display {p q : Path} (h : p.display = q.display) :
    (Pieces.split slash p.bytes).map Utf8.decodeLossy
      = (Pieces.split slash q.bytes).map Utf8.decodeLossy := by
  have hslash : slash.toNat < 0x80 := by decide
  have htext := congrArg (fun text => Pieces.split (Char.ofNat slash.toNat) text.toList) h
  simp only [display, ← Utf8.map_decodeLossy_split hslash] at htext
  -- a slash of the text is a slash of the bytes, so both are cut at the same places
  refine (List.map_inj_right fun _ _ => String.toList_inj.1).1 ?_
  rw [List.map_map, List.map_map]
  exact htext

/-- **Reading alike and naming one place**, two paths are spelled alike. -/
theorem eq_of_display_eq_of_same {p q : Path} (hdisplay : p.display = q.display)
    (hsame : Same p q) : p = q := by
  by_cases hp : p = empty
  · rw [hp, hsame.eq_empty_iff.1 hp]
  have hq : q ≠ empty := fun hq => hp (hsame.eq_empty_iff.2 hq)
  obtain ⟨a, as, hsp⟩ := exists_split p
  obtain ⟨b, bs, hsq⟩ := exists_split q
  have htext := map_decodeLossy_split_of_display hdisplay
  rw [hsp, hsq, List.map_cons, List.map_cons, List.cons.injEq] at htext
  have hsteps : Component.front a :: as.filterMap ofPiece
      = Component.front b :: bs.filterMap ofPiece := by
    rw [← components_of_split hp hsp, ← components_of_split hq hsq]
    exact hsame
  rw [List.cons.injEq] at hsteps
  -- the first pieces are told by their steps alone, the others by steps and texts together
  have hpieces : Pieces.split slash p.bytes = Pieces.split slash q.bytes := by
    rw [hsp, hsq, front_injective hsteps.1,
      eq_of_map_decodeLossy_eq_of_steps_eq htext.2 hsteps.2]
  have hbytes : p.bytes = q.bytes := by
    rw [← Pieces.join_split slash p.bytes, hpieces, Pieces.join_split]
  cases p
  cases q
  exact congrArg Path.mk hbytes

end PhotoImport.Path
