import PhotoImport.Proofs.Import.AnyOrder
import PhotoImport.Proofs.Import.Numbering
import PhotoImport.Proofs.Template.Name

/-!
# Files that a template cannot tell apart

A template names metadata by its keys, and the two dates of a file by tokens of their own. What a
token reads as is decided by what it names (`render_eq_of_alike`), so two files that a template
cannot tell apart (`Alike`) are sent to the same name and counted in the same folder
(`number_eq_of_alike`). From there the counters of two batches go hand in hand
(`placements_eq_of_alike`), and since files are sorted by their paths alone the two batches stand in
the same order (`arrange_eq_of_alike`).
-/

namespace PhotoImport

/-- A file without its dates. -/
def SourceFile.undated (f : SourceFile) : SourceFile := { f with created := none, modified := none }

/-! ### What a template names -/

namespace Template

/-- The template names the creation date. -/
def NamesCreated (t : Template) : Prop := ∃ pattern, Token.file (.created pattern) ∈ t.tokens

/-- The template names the modification date. -/
def NamesModified (t : Template) : Prop := ∃ pattern, Token.file (.modified pattern) ∈ t.tokens

/-- The template names metadata. -/
def NamesMetadata (t : Template) : Prop := ∃ key pattern, Token.metadata key pattern ∈ t.tokens

theorem keys_eq_nil_iff {t : Template} : t.keys = [] ↔ ¬ t.NamesMetadata := by
  rw [List.eq_nil_iff_forall_not_mem, NamesMetadata, not_exists]
  exact forall_congr' fun key => not_congr mem_keys_iff

end Template

/-- **Values that agree** on some keys: for each key the same value, or none in either. -/
def Values.AgreeOn (keys : List String) (values values' : Values) : Prop :=
  ∀ key ∈ keys, values.lookup key = values'.lookup key

/-- **Dates that agree** as far as a template names them. -/
structure Template.SameDates (t : Template) (f f' : SourceFile) : Prop where
  created : t.NamesCreated → f.created = f'.created
  modified : t.NamesModified → f.modified = f'.modified

namespace Plan

variable {t : Template} {destination : Path} {f f' : SourceFile} {values values' : Values}

/-- **Two files that a template cannot tell apart**, with their values: their paths are the same, and
so is all that the template names. -/
structure Alike (t : Template) (entry entry' : SourceFile × Values) : Prop where
  paths : entry.1.undated = entry'.1.undated
  dates : t.SameDates entry.1 entry'.1
  values : Values.AgreeOn t.keys entry.2 entry'.2

theorem path_eq_of_undated (same : f.undated = f'.undated) : f.path = f'.path := by
  have path := congrArg SourceFile.path same
  exact path

theorem absolute_eq_of_undated (same : f.undated = f'.undated) : f.absolute = f'.absolute := by
  have absolute := congrArg SourceFile.absolute same
  exact absolute

/-! ### The stages of a plan -/

/-- **What a token reads as** is decided by the paths and by what the token names. -/
theorem render_eq_of_alike {token : Token} (htoken : token ∈ t.tokens)
    (h : Alike t (f, values) (f', values')) (place : Nat) (number : Option Nat) :
    token.render { subject f values place with folderNumber := number }
      = token.render { subject f' values' place with folderNumber := number } := by
  have path : f.path = f'.path := path_eq_of_undated h.paths
  cases token with
  | literal => rfl
  | separator => rfl
  | sequence scope => cases scope <;> rfl
  | metadata key pattern =>
    -- the key is one of those that the values agree on
    have agree : values.lookup key = values'.lookup key :=
      h.values key (Template.mem_keys_iff.2 ⟨pattern, htoken⟩)
    simp only [Token.render, Subject.metadata, subject, agree]
  | file property =>
    cases property with
    | created pattern =>
      have date : f.created = f'.created := h.dates.created ⟨pattern, htoken⟩
      simp only [Token.render, Subject.property, subject, date]
    | modified pattern =>
      have date : f.modified = f'.modified := h.dates.modified ⟨pattern, htoken⟩
      simp only [Token.render, Subject.property, subject, date]
    | _ => simp only [Token.render, Subject.property, subject, path]

theorem target_eq_of_alike (h : Alike t (f, values) (f', values')) (place : Nat)
    (number : Option Nat) :
    target t { subject f values place with folderNumber := number }
      = target t { subject f' values' place with folderNumber := number } := by
  unfold target
  rw [Template.render_congr fun token htoken => render_eq_of_alike htoken h place number]

/-- **Alike files are numbered alike**, and leave the same counters. -/
theorem number_eq_of_alike (h : Alike t (f, values) (f', values')) (counters : Counters)
    (place : Nat) :
    number t counters (subject f values place) = number t counters (subject f' values' place) := by
  -- the folder in which the files are counted is that of the name without a number
  have unnumbered : target t (subject f values place) = target t (subject f' values' place) :=
    target_eq_of_alike h place none
  unfold number countedIn
  simp only [unnumbered, target_eq_of_alike h place]

/-- **Batches of alike files** are placed alike, whatever has been counted before. -/
theorem placements_eq_of_alike {entries entries' : List (SourceFile × Values)}
    (h : List.Forall₂ (Alike t) entries entries') (place : Nat) (counters : Counters) :
    placements t destination place counters entries
      = placements t destination place counters entries' := by
  induction h generalizing place counters with
  | nil => rfl
  | @cons entry entry' entries entries' alike _ ih =>
    obtain ⟨f, values⟩ := entry
    obtain ⟨f', values'⟩ := entry'
    have path : f.path = f'.path := path_eq_of_undated alike.paths
    have absolute : f.absolute = f'.absolute := absolute_eq_of_undated alike.paths
    rw [placements_cons, placements_cons, number_eq_of_alike alike, ih]
    simp only [nameOrOwn, path, absolute]

/-- Entries with the same paths, one by one, are alike one by one if they are alike whenever their
paths are the same. -/
theorem forall₂_alike {entries entries' : List (SourceFile × Values)}
    (same : entries.map (·.1.undated) = entries'.map (·.1.undated))
    (h : ∀ entry ∈ entries, ∀ entry' ∈ entries', entry.1.undated = entry'.1.undated →
      Alike t entry entry') :
    List.Forall₂ (Alike t) entries entries' := by
  induction entries generalizing entries' with
  | nil =>
    obtain rfl : entries' = [] := List.map_eq_nil_iff.1 same.symm
    exact .nil
  | cons entry entries ih =>
    obtain ⟨entry', others, rfl, first, rest⟩ := List.map_eq_cons_iff.1 same.symm
    refine .cons ?_ (ih rest.symm ?_)
    · exact h _ List.mem_cons_self _ List.mem_cons_self first.symm
    · intro a ha b hb
      exact h a (List.mem_cons_of_mem _ ha) b (List.mem_cons_of_mem _ hb)

/-- Sorting looks at the paths alone. -/
theorem map_undated_mergeSort (entries : List (SourceFile × Values)) :
    ((entries.mergeSort precedes).map fun entry => (entry.1.undated, ([] : Values)))
      = (entries.map fun entry => (entry.1.undated, [])).mergeSort precedes := by
  apply List.map_mergeSort
  intro a _ b _
  rfl

/-- **Batches of files that a template cannot tell apart** are arranged in one way, in whatever order
they come. -/
theorem arrange_eq_of_alike {entries entries' : List (SourceFile × Values)}
    (distinct : entries.Pairwise fun a b => a.1.path ≠ b.1.path)
    (same : (entries.map (·.1.undated)).Perm (entries'.map (·.1.undated)))
    (h : ∀ entry ∈ entries, ∀ entry' ∈ entries', entry.1.undated = entry'.1.undated →
      Alike t entry entry') :
    arrange t destination entries = arrange t destination entries' := by
  unfold arrange
  apply placements_eq_of_alike
  apply forall₂_alike
  · -- of the paths alone, both batches are one batch in two orders
    have bare := same.map fun f : SourceFile => (f, ([] : Values))
    rw [List.map_map, List.map_map] at bare
    have sorted := mergeSort_eq_of_perm bare (List.pairwise_map.2 distinct)
    have stand : ((entries.mergeSort precedes).map fun entry => (entry.1.undated, ([] : Values)))
        = (entries'.mergeSort precedes).map fun entry => (entry.1.undated, []) :=
      (map_undated_mergeSort entries).trans (sorted.trans (map_undated_mergeSort entries').symm)
    have first := congrArg (List.map Prod.fst) stand
    rwa [List.map_map, List.map_map] at first
  · intro a ha b hb
    exact h a (List.mem_mergeSort.1 ha) b (List.mem_mergeSort.1 hb)

end Plan
end PhotoImport
