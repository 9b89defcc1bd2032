import Mathlib.Data.List.Basic
import PhotoImport.Template.Compile

/-!
# Cutting a template at its markers

The compiler reads a template from the left and takes every marker that it meets. Here the same cut
is said without reading, as a property of the pieces: a `Cut` is a text, a marker, a text, and so on,
and it is `Leftmost` if no marker begins inside one of its texts, wherever that marker would end.

* `Cut.eq_of_leftmost` — a template has no two leftmost cuts, since a marker is known from its front
  (`marker?_written`);
* `exists_leftmost` — it has one;
* `Cut.segments_written` — and that is the one that the compiler makes.

A marker has a `#` at either end and none between. Whether a marker begins inside a text therefore
does not depend on what comes behind the text, as long as that begins with a `#`
(`markerFree_congr`).
-/

namespace PhotoImport

/-- The word for a category. -/
def Category.word : Category → List Char
  | .file => "file".toList
  | .exif => "exif".toList
  | .sequence => "sequence".toList

namespace Template

/-! ### Markers -/

/-- **A marker**: a category, and a body that is not empty and holds no `#`. -/
structure Marker where
  category : Category
  body : List Char
  body_ne_nil : body ≠ []
  hash_notMem_body : '#' ∉ body
deriving DecidableEq

namespace Marker

/-- What stands between the two ends of a marker. -/
def inner (m : Marker) : List Char := m.category.word ++ ':' :: m.body

/-- A marker as it is written. -/
def written (m : Marker) : List Char := '#' :: (m.inner ++ ['#'])

theorem hash_notMem_inner (m : Marker) : '#' ∉ m.inner := by
  have hword : '#' ∉ m.category.word := by cases m.category <;> decide
  simp [inner, hword, m.hash_notMem_body]

theorem written_append (m : Marker) (behind : List Char) :
    m.written ++ behind = '#' :: (m.category.word ++ ':' :: (m.body ++ '#' :: behind)) := by
  simp [written, inner]

theorem length_written (m : Marker) : m.written.length = m.inner.length + 2 := by
  simp [written]

end Marker

/-! ### Reading the front of a text -/

theorem after?_eq_some_iff {expected text rest : List Char} :
    after? expected text = some rest ↔ text = expected ++ rest := by
  fun_induction after? expected text with
  | case1 => simp [eq_comm]
  | case2 => simp
  | case3 e expected text ih => simpa using ih
  | case4 e expected c text hne => simp [Ne.symm hne]

theorem category?_append (category : Category) (rest : List Char) :
    category? (category.word ++ ':' :: rest) = some (category, rest) := by
  cases category <;> rfl

/-- **The category at the front of a text** is the one whose word stands there with a colon. -/
theorem category?_eq_some_iff {text rest : List Char} {category : Category} :
    category? text = some (category, rest) ↔ text = category.word ++ ':' :: rest := by
  constructor
  · intro h
    unfold category? at h
    split at h
    · next r hr =>
      cases h
      have front := after?_eq_some_iff.1 hr
      exact front
    · split at h
      · next r hr =>
        cases h
        have front := after?_eq_some_iff.1 hr
        exact front
      · obtain ⟨r, hr, hpair⟩ := Option.map_eq_some_iff.1 h
        cases hpair
        have front := after?_eq_some_iff.1 hr
        exact front
  · rintro rfl
    exact category?_append category rest

/-- **A marker is read from its front**, whatever comes behind it. -/
theorem marker?_written (m : Marker) (behind : List Char) :
    marker? (m.written ++ behind) = some ((m.category, m.body), behind) := by
  have hbody : ∀ c ∈ m.body, (c != '#') = true := by
    intro c hc
    simpa using fun hash : c = '#' => m.hash_notMem_body (hash ▸ hc)
  rw [m.written_append, marker?, if_pos rfl, category?_append]
  simp only [List.takeWhile_append_of_pos hbody, List.dropWhile_append_of_pos hbody]
  simp [m.body_ne_nil]

/-- What is read as a marker is one. -/
theorem exists_marker {text behind body : List Char} {category : Category}
    (h : marker? text = some ((category, body), behind)) :
    ∃ m : Marker, m.category = category ∧ m.body = body ∧ text = m.written ++ behind := by
  cases text with
  | nil => simp [marker?] at h
  | cons c text =>
    simp only [marker?] at h
    split at h
    · next hash =>
      split at h
      · cases h
      · next category' rest hcategory =>
        have hcut := List.takeWhile_append_dropWhile (p := (· != '#')) (l := rest)
        split at h
        · cases h
        · cases h
        · next last behind' hdrop htake =>
          cases h
          -- the body ends where the first `#` stands
          have hlast : last = '#' := by
            have stopped := List.head?_dropWhile_not (· != '#') rest
            rw [hdrop] at stopped
            simpa using stopped
          have hbody : '#' ∉ rest.takeWhile (· != '#') := by
            intro hmem
            have passed := List.all_eq_true.1 (List.all_takeWhile (p := (· != '#')) (l := rest))
            simpa using passed '#' hmem
          refine ⟨⟨category, rest.takeWhile (· != '#'), htake, hbody⟩, rfl, rfl, ?_⟩
          rw [Marker.written_append, category?_eq_some_iff.1 hcategory, hash]
          rw [hdrop, hlast] at hcut
          rw [hcut]
    · cases h

theorem marker?_eq_none_iff {text : List Char} :
    marker? text = none ↔ ∀ m : Marker, ¬ m.written <+: text := by
  constructor
  · rintro h m ⟨behind, rfl⟩
    rw [marker?_written] at h
    cases h
  · intro none
    by_contra h
    obtain ⟨⟨⟨category, body⟩, behind⟩, hsome⟩ := Option.ne_none_iff_exists'.1 h
    obtain ⟨m, -, -, rfl⟩ := exists_marker hsome
    exact none m (List.prefix_append _ _)

/-! ### Texts in which no marker begins -/

/-- **No marker begins** inside `chars` if `behind` comes behind it. -/
def MarkerFree (chars behind : List Char) : Prop :=
  ∀ i < chars.length, ∀ m : Marker, ¬ m.written <+: (chars ++ behind).drop i

theorem markerFree_nil (behind : List Char) : MarkerFree [] behind := nofun

theorem markerFree_cons {c : Char} {chars behind : List Char} :
    MarkerFree (c :: chars) behind ↔
      marker? (c :: (chars ++ behind)) = none ∧ MarkerFree chars behind := by
  rw [marker?_eq_none_iff]
  constructor
  · intro h
    exact ⟨h 0 (Nat.zero_lt_succ _), fun i hi => h (i + 1) (Nat.succ_lt_succ hi)⟩
  · rintro ⟨here, later⟩ i hi
    cases i with
    | zero => exact here
    | succ i => exact later i (Nat.lt_of_succ_lt_succ hi)

instance decidableMarkerFree :
    (chars behind : List Char) → Decidable (MarkerFree chars behind)
  | [], behind => .isTrue (markerFree_nil behind)
  | _ :: chars, behind =>
    have := decidableMarkerFree chars behind
    decidable_of_iff _ markerFree_cons.symm

/-- The next marker does not stand before the end of a text in which none begins. -/
theorem MarkerFree.length_le {chars behind before rest : List Char} {m : Marker}
    (h : MarkerFree chars behind) (same : chars ++ behind = before ++ (m.written ++ rest)) :
    chars.length ≤ before.length := by
  by_contra longer
  refine h before.length (by omega) m ?_
  rw [same, List.drop_left]
  exact List.prefix_append _ _

/-- A marker that begins inside a text ends with the first `#` behind it, at the latest. -/
theorem prefix_append_hash_iff {m : Marker} {chars behind : List Char} (hne : chars ≠ []) :
    m.written <+: chars ++ '#' :: behind ↔ m.written <+: chars ++ ['#'] := by
  have hsplit : chars ++ '#' :: behind = (chars ++ ['#']) ++ behind := by simp
  rw [hsplit]
  refine ⟨fun h => ?_, fun h => h.trans (List.prefix_append _ _)⟩
  by_cases hlen : m.written.length ≤ (chars ++ ['#']).length
  · exact List.prefix_of_prefix_length_le h (List.prefix_append _ _) hlen
  -- a longer one would have this `#` between its ends
  have hshort : chars ++ ['#'] <+: m.written :=
    List.prefix_of_prefix_length_le (List.prefix_append _ _) h (by omega)
  obtain ⟨rest, hrest⟩ := hshort
  obtain ⟨c, chars, rfl⟩ := List.exists_cons_of_ne_nil hne
  rw [Marker.written, List.cons_append, List.cons_append, List.cons.injEq] at hrest
  have hmem : '#' ∈ m.inner := by
    have hpos : rest ≠ [] := by
      rintro rfl
      simp only [List.length_append, List.length_cons, m.length_written] at hlen
      have := congrArg List.length hrest.2
      simp at this
      omega
    have htake := congrArg List.dropLast hrest.2
    rw [List.dropLast_concat, List.dropLast_append_of_ne_nil hpos] at htake
    rw [← htake]
    simp
  exact absurd hmem m.hash_notMem_inner

/-- Whether a marker begins inside a text does not depend on what comes behind the first `#` that
comes behind the text. -/
theorem markerFree_congr {chars behind behind' : List Char} :
    MarkerFree chars ('#' :: behind) ↔ MarkerFree chars ('#' :: behind') := by
  have key : ∀ behind, MarkerFree chars ('#' :: behind) ↔ MarkerFree chars ['#'] := by
    intro behind
    refine forall_congr' fun i => forall_congr' fun hi => forall_congr' fun m => ?_
    have hne : chars.drop i ≠ [] := by simpa using hi
    rw [List.drop_append_of_le_length (Nat.le_of_lt hi),
      List.drop_append_of_le_length (Nat.le_of_lt hi), prefix_append_hash_iff hne]
  rw [key, key behind']

/-! ### Cuts -/

/-- **A template cut at its markers**: its first text, and if a marker follows, that marker and the
cut of what comes behind it. Texts may be empty. -/
inductive Cut where
  | text (chars : List Char)
  | marker (chars : List Char) (m : Marker) (behind : Cut)
deriving DecidableEq

namespace Cut

/-- What a cut is put together to if something else is written for its markers. -/
def replace (f : Marker → List Char) : Cut → List Char
  | text chars => chars
  | marker chars m behind => chars ++ (f m ++ behind.replace f)

/-- The template that has been cut. -/
def written (cut : Cut) : List Char := cut.replace Marker.written

/-- The markers of a cut, in order. -/
def markers : Cut → List Marker
  | text _ => []
  | marker _ m behind => m :: behind.markers

/-- **A leftmost cut**: no marker begins before the one that has been cut out. -/
def Leftmost : Cut → Prop
  | text chars => MarkerFree chars []
  | marker chars m behind => MarkerFree chars (m.written ++ behind.written) ∧ behind.Leftmost

instance decidableLeftmost : (cut : Cut) → Decidable cut.Leftmost
  | text chars => inferInstanceAs (Decidable (MarkerFree chars []))
  | marker chars m behind =>
    have := decidableLeftmost behind
    inferInstanceAs
      (Decidable (MarkerFree chars (m.written ++ behind.written) ∧ behind.Leftmost))

@[simp] theorem written_text (chars : List Char) : (text chars).written = chars := rfl

@[simp] theorem written_marker (chars : List Char) (m : Marker) (behind : Cut) :
    (marker chars m behind).written = chars ++ (m.written ++ behind.written) := rfl

/-- **No two leftmost cuts** are cuts of the same template. -/
theorem eq_of_leftmost {cut cut' : Cut} (h : cut.Leftmost) (h' : cut'.Leftmost)
    (same : cut.written = cut'.written) : cut = cut' := by
  -- a text that ends the template is as long as the text before any marker, so there is no marker
  have no_marker : ∀ {chars chars' behind : List Char} {m : Marker}, MarkerFree chars [] →
      chars ≠ chars' ++ (m.written ++ behind) := by
    intro chars chars' behind m free heq
    have same : chars ++ [] = chars' ++ (m.written ++ behind) := by rw [List.append_nil, heq]
    have hle := free.length_le same
    rw [heq] at hle
    simp only [List.length_append, m.length_written] at hle
    omega
  induction cut generalizing cut' with
  | text chars =>
    cases cut' with
    | text chars' => exact congrArg text same
    | marker chars' m' behind' => exact absurd same (no_marker h)
  | marker chars m behind ih =>
    cases cut' with
    | text chars' => exact absurd same.symm (no_marker h')
    | marker chars' m' behind' =>
      obtain ⟨free, hbehind⟩ := h
      obtain ⟨free', hbehind'⟩ := h'
      rw [written_marker, written_marker] at same
      -- neither marker stands before the other
      have hlen : chars.length = chars'.length :=
        Nat.le_antisymm (free.length_le same) (free'.length_le same.symm)
      obtain ⟨rfl, hrest⟩ := List.append_inj same hlen
      have hread := congrArg marker? hrest
      rw [marker?_written, marker?_written] at hread
      obtain ⟨⟨hcategory, hbody⟩, hwritten⟩ := by simpa using hread
      obtain rfl : m = m' := by cases m; cases m'; simp_all
      rw [ih hbehind hbehind' hwritten]

/-! ### The cut that the compiler makes -/

/-- A cut with one more character in front. -/
def cons (c : Char) : Cut → Cut
  | text chars => text (c :: chars)
  | marker chars m behind => marker (c :: chars) m behind

theorem written_cons (c : Char) (cut : Cut) : (cut.cons c).written = c :: cut.written := by
  cases cut <;> rfl

theorem Leftmost.cons {c : Char} {cut : Cut} (h : cut.Leftmost)
    (none : marker? (c :: cut.written) = none) : (cut.cons c).Leftmost := by
  cases cut with
  | text chars => exact markerFree_cons.2 ⟨by simpa using none, h⟩
  | marker chars m behind => exact ⟨markerFree_cons.2 ⟨none, h.1⟩, h.2⟩

end Cut

/-- **Every template has a leftmost cut.** -/
theorem exists_leftmost (text : List Char) : ∃ cut : Cut, cut.written = text ∧ cut.Leftmost := by
  fun_induction segments text with
  | case1 => exact ⟨.text [], rfl, markerFree_nil []⟩
  | case2 c rest category body behind h ih =>
    -- a marker begins here, and the text before it is empty
    obtain ⟨cut, rfl, leftmost⟩ := ih
    obtain ⟨m, -, -, heq⟩ := exists_marker h
    exact ⟨.marker [] m cut, heq.symm, markerFree_nil _, leftmost⟩
  | case3 c rest h ih =>
    -- none begins here, and the character goes to the text before the next one
    obtain ⟨cut, rfl, leftmost⟩ := ih
    exact ⟨cut.cons c, cut.written_cons c, leftmost.cons h⟩

/-- The segment of a text, if there is any. -/
def textSegments (chars : List Char) : List Segment := if chars = [] then [] else [.text chars]

theorem segments_of_marker (m : Marker) (behind : List Char) :
    segments (m.written ++ behind) = .marker m.category m.body :: segments behind := by
  have hread := marker?_written m behind
  rw [Marker.written_append] at hread ⊢
  rw [segments]
  split
  · next heq =>
    rw [hread] at heq
    cases heq
    rfl
  · next heq =>
    rw [hread] at heq
    cases heq

theorem segments_of_none {c : Char} {rest : List Char} (none : marker? (c :: rest) = none) :
    segments (c :: rest) = Segment.cons c (segments rest) := by
  rw [segments]
  split
  · next heq =>
    rw [none] at heq
    cases heq
  · rfl

/-- What starts with no text is not joined to the text before it. -/
theorem segments_append {chars behind : List Char} (free : MarkerFree chars behind)
    (start : ∀ c, Segment.cons c (segments behind) = .text [c] :: segments behind) :
    segments (chars ++ behind) = textSegments chars ++ segments behind := by
  induction chars with
  | nil => rfl
  | cons c chars ih =>
    obtain ⟨none, later⟩ := markerFree_cons.1 free
    rw [List.cons_append, segments_of_none none, ih later]
    cases chars with
    | nil => exact start c
    | cons c' chars => rfl

/-- The segments of a cut. -/
def Cut.segments : Cut → List Segment
  | text chars => textSegments chars
  | marker chars m behind => textSegments chars ++ .marker m.category m.body :: behind.segments

/-- **The compiler makes the leftmost cut.** -/
theorem Cut.segments_written {cut : Cut} (h : cut.Leftmost) :
    Template.segments cut.written = cut.segments := by
  induction cut with
  | text chars =>
    have hseg := segments_append h fun c => by simp [Template.segments, Segment.cons]
    simpa [Template.segments, Cut.segments] using hseg
  | marker chars m behind ih =>
    obtain ⟨free, hbehind⟩ := h
    rw [written_marker, segments_append free, segments_of_marker, ih hbehind]
    · rfl
    · intro c
      rw [segments_of_marker]
      rfl

end Template
end PhotoImport
