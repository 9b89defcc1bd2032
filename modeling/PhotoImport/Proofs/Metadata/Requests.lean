import Mathlib
import PhotoImport.Import.Basic
import PhotoImport.Json.Strict
import PhotoImport.Metadata.ExifTool
import PhotoImport.Text.Blank
import PhotoImport.Proofs.Import.Batch
import PhotoImport.Proofs.Import.Calls
import PhotoImport.Proofs.Order.SortedList
import PhotoImport.Proofs.Text.ByteOrder

/-!
# What the tool is started with

The tool reads its arguments as instructions, some of which change files. A host with a record of the
programs that it is asked to start (`Host.recorded`) shows what the tool is told.

A lookup starts the tool at most once. It does so exactly for a file that is there and for keys that
are all plain tag names (`Asked`), and asks for each key once, in the order of their bytes. An import
starts nothing but such lookups, one for a file that it has found (`starts_of_import`). Since a plain
tag name holds neither a sign of an edit nor a blank (`PlainTag.plainWord`), no template makes the
tool do anything but read (`only_plain_requests_start`).
-/

namespace PhotoImport.ExifTool

open PhotoImport.Action (Within Follows)

variable {σ τ : Type} {c : Char} {key : String} {keys : List String}

/-! ### Plain words -/

/-- A character of a tag name: a letter or a digit of ASCII, an underscore or a hyphen. -/
def IsTagCharacter (c : Char) : Prop :=
  ('a' ≤ c ∧ c ≤ 'z') ∨ ('A' ≤ c ∧ c ≤ 'Z') ∨ ('0' ≤ c ∧ c ≤ '9') ∨ c = '_' ∨ c = '-'

/-- **A plain tag name.** -/
structure PlainTag (key : String) : Prop where
  nonempty : key ≠ ""
  characters : ∀ c ∈ key.toList, IsTagCharacter c
  front : ¬ ['-'] <+: key.toList

/-- **A plain word** among the arguments: it holds no sign of an edit, of a group or of a file, and
is no option with a long name. -/
structure PlainWord (word : String) : Prop where
  ascii : ∀ c ∈ word.toList, c.toNat < 128
  unblank : ∀ c ∈ word.toList, isBlank c = false
  unsigned : ∀ c ∈ word.toList, c ≠ '=' ∧ c ≠ '<' ∧ c ≠ ':'
  front : ¬ ['-', '-'] <+: word.toList

theorem isTagCharacter_iff_toNat :
    IsTagCharacter c ↔ (97 ≤ c.toNat ∧ c.toNat ≤ 122) ∨ (65 ≤ c.toNat ∧ c.toNat ≤ 90) ∨
      (48 ≤ c.toNat ∧ c.toNat ≤ 57) ∨ c.toNat = 95 ∨ c.toNat = 45 := by
  have same : ∀ d : Char, c = d ↔ c.toNat = d.toNat := fun d => Char.toNat_inj.symm
  simp only [IsTagCharacter, same, Char.le_def, UInt32.le_iff_toNat_le]
  exact Iff.rfl

/-- All characters of a tag name but the hyphen may stand at its front. -/
theorem isTagStart_iff : isTagStart c = true ↔ IsTagCharacter c ∧ c ≠ '-' := by
  have same : ∀ d : Char, c = d ↔ c.toNat = d.toNat := fun d => Char.toNat_inj.symm
  rw [isTagCharacter_iff_toNat]
  simp only [isTagStart, Char.isAlphanum, Char.isAlpha, Char.isUpper, Char.isLower, Char.isDigit,
    Bool.or_eq_true, Bool.and_eq_true, decide_eq_true_eq, beq_iff_eq, ne_eq, same, ge_iff_le,
    UInt32.le_iff_toNat_le]
  change ((65 ≤ c.toNat ∧ c.toNat ≤ 90 ∨ 97 ≤ c.toNat ∧ c.toNat ≤ 122) ∨
    48 ≤ c.toNat ∧ c.toNat ≤ 57) ∨ c.toNat = 95 ↔ _ ∧ ¬ c.toNat = 45
  omega

theorem isTag_iff : isTag key = true ↔ PlainTag key := by
  unfold isTag
  cases hkey : key.toList with
  | nil =>
    have empty : key = "" := String.toList_eq_nil_iff.1 hkey
    exact ⟨nofun, fun h => absurd empty h.nonempty⟩
  | cons c rest =>
    have inner : ∀ d, (isTagStart d || d == '-') = true ↔ IsTagCharacter d := by
      intro d
      rw [Bool.or_eq_true, isTagStart_iff, beq_iff_eq]
      by_cases hyphen : d = '-'
      · simp [hyphen, isTagCharacter_iff_toNat]
      · simp [hyphen]
    simp only [Bool.and_eq_true, List.all_eq_true, inner, isTagStart_iff]
    constructor
    · rintro ⟨⟨first, front⟩, others⟩
      refine ⟨?_, ?_, ?_⟩
      · rintro rfl
        cases hkey
      · rw [hkey, List.forall_mem_cons]
        exact ⟨first, others⟩
      · rw [hkey, List.cons_prefix_cons]
        exact fun h => front h.1.symm
    · rintro ⟨-, characters, front⟩
      rw [hkey, List.forall_mem_cons] at characters
      rw [hkey, List.cons_prefix_cons] at front
      exact ⟨⟨characters.1, fun h => front ⟨h.symm, List.nil_prefix⟩⟩, characters.2⟩

/-- A character of a tag name is none of those that the tool reads as a sign. -/
theorem IsTagCharacter.plain (h : IsTagCharacter c) :
    c.toNat < 128 ∧ isBlank c = false ∧ c ≠ '=' ∧ c ≠ '<' ∧ c ≠ ':' := by
  have same : ∀ d : Char, c = d ↔ c.toNat = d.toNat := fun d => Char.toNat_inj.symm
  rw [isTagCharacter_iff_toNat] at h
  refine ⟨by omega, ?_, ?_⟩
  · simp only [isBlank, Bool.or_eq_false_iff, Bool.and_eq_false_iff, decide_eq_false_iff_not,
      beq_eq_false_iff_ne]
    omega
  · simp only [ne_eq, same]
    change ¬ c.toNat = 61 ∧ ¬ c.toNat = 60 ∧ ¬ c.toNat = 58
    omega

/-- **What asks for a plain tag is a plain word.** -/
theorem PlainTag.plainWord (h : PlainTag key) : PlainWord ("-" ++ key) := by
  have word : ("-" ++ key).toList = '-' :: key.toList := String.toList_append
  have plain : ∀ c ∈ ("-" ++ key).toList,
      c.toNat < 128 ∧ isBlank c = false ∧ c ≠ '=' ∧ c ≠ '<' ∧ c ≠ ':' := by
    rw [word, List.forall_mem_cons]
    exact ⟨by decide, fun c hc => (h.characters c hc).plain⟩
  refine ⟨fun c hc => (plain c hc).1, fun c hc => (plain c hc).2.1, fun c hc => (plain c hc).2.2, ?_⟩
  -- a second hyphen would stand at the front of the key
  rw [word, List.cons_prefix_cons]
  exact fun hyphens => h.front hyphens.2

/-! ### A host with a record -/

/-- A program that was asked for, with what it was to be started with. -/
structure Start where
  program : Path
  arguments : List Bytes

/-- **A host with a record** of the programs that it is asked to start. -/
def Host.recorded (host : Host σ) : Host (σ × List Start) where
  exists? p := (host.exists? p).onFirst
  run program arguments := .ofResult fun (s, starts) =>
    (((host.run program arguments).result s).1,
      ((host.run program arguments).result s).2, starts ++ [⟨program, arguments⟩])
  json := host.json

/-- **A lookup that starts the tool** for a file that is there and keys that are plain. -/
structure Asked (host : Host σ) (s : σ) (p : Path) (keys : List String) : Prop where
  present : ((host.exists? p).result s).1 = .ok true
  named : keys ≠ []
  plain : ∀ key ∈ keys, PlainTag key

variable {host : Host σ} {executable p : Path} {s : σ} {starts : List Start}

/-- A lookup is only watched by the record. -/
theorem follows_lookup (host : Host σ) (executable p : Path) (keys : List String) :
    Follows Prod.fst (lookup host.recorded executable p keys) (lookup host executable p keys) := by
  unfold lookup
  refine ((Action.follows_onFirst (host.exists? p)).mapError _).bind fun present => ?_
  split
  · exact Action.follows_throw _
  split
  · exact Action.follows_pure _
  split
  · exact Action.follows_throw _
  · refine Follows.bind (Follows.mapError (fun _ => rfl) _) fun run => ?_
    change Follows Prod.fst (MonadExcept.ofExcept (answer host.json run)) _
    cases answer host.json run with
    | error failure => exact Action.follows_throw _
    | ok values => exact Action.follows_pure _

theorem result_exists?_recorded (host : Host σ) (p : Path) (s : σ) (starts : List Start) :
    (host.recorded.exists? p).result (s, starts)
      = (((host.exists? p).result s).1, ((host.exists? p).result s).2, starts) := rfl

theorem find?_isTag_eq_none_iff :
    (keys.find? fun key => !isTag key) = none ↔ ∀ key ∈ keys, PlainTag key := by
  simp [isTag_iff]

/-- A start is on the record before the program answers or fails. -/
theorem starts_of_run (host : Host σ) (executable : Path) (arguments : List Bytes)
    (f : SystemFailure → LookupFailure) (s : σ) (starts : List Start) :
    (((host.recorded.run executable arguments).mapError f >>= fun run =>
      (MonadExcept.ofExcept (answer host.json run) :
        Action LookupFailure (σ × List Start) Values)).result (s, starts)).2.2
      = starts ++ [⟨executable, arguments⟩] := by
  have noted : ((host.recorded.run executable arguments).result (s, starts)).2.2
      = starts ++ [⟨executable, arguments⟩] := rfl
  rw [Action.result_bind, Action.result_mapError]
  rcases hrun : (host.recorded.run executable arguments).result (s, starts)
    with ⟨_ | run, s', starts'⟩
  all_goals rw [hrun] at noted
  · exact noted
  · have kept : ((MonadExcept.ofExcept (answer host.json run) :
        Action LookupFailure (σ × List Start) Values).result (s', starts')).2.2 = starts' := by
      cases answer host.json run <;> rfl
    exact kept.trans noted

/-- **A lookup that is asked starts the tool once.** -/
theorem starts_of_asked (h : Asked host s p keys) (executable : Path) (starts : List Start) :
    ((lookup host.recorded executable p keys).result (s, starts)).2.2
      = starts ++ [⟨executable, arguments keys p⟩] := by
  unfold lookup
  rw [Action.result_bind, Action.result_mapError, result_exists?_recorded, h.present]
  change ((if keys = [] then _ else _ : Action LookupFailure (σ × List Start) Values).result _).2.2
    = _
  rw [if_neg h.named, find?_isTag_eq_none_iff.2 h.plain]
  exact starts_of_run host executable _ _ _ starts

/-- **Any other lookup starts nothing.** -/
theorem starts_of_unasked (h : ¬ Asked host s p keys) (executable : Path) (starts : List Start) :
    ((lookup host.recorded executable p keys).result (s, starts)).2.2 = starts := by
  unfold lookup
  rw [Action.result_bind, Action.result_mapError, result_exists?_recorded]
  rcases hpresent : ((host.exists? p).result s).1 with _ | present
  · rfl
  cases present with
  | false => rfl
  | true =>
    change ((if keys = [] then _ else _ : Action LookupFailure (σ × List Start) Values).result _).2.2
      = _
    split
    · rfl
    · next named =>
      split
      · rfl
      · next plain =>
        exact absurd ⟨hpresent, named, find?_isTag_eq_none_iff.1 plain⟩ h

/-! ### The starts of an import -/

section Import

variable [Store σ] {options : ImportOptions} {source : Path}

/-- **A file that may be found** by an import, in some state of its store. -/
def MayFind (σ : Type) [Store σ] (options : ImportOptions) (source : Path) (f : SourceFile) : Prop :=
  ∃ (s : σ) (files : List SourceFile) (s' : σ), f ∈ files ∧
    (Store.find source options.filter options.recursive).result s = (.ok files, s')

/-- An import changes what stands beside its store by the lookups of files that it may find. -/
theorem within_importFiles {r : τ → τ → Prop} (refl : ∀ t, r t t)
    (trans : ∀ a b c, r a b → r b c → r a c) {lookup : Lookup (σ × τ)}
    (limited : ∀ f, MayFind σ options source f →
      Within (fun a b => r a.2 b.2) (lookup f.absolute options.template.keys)) (destination : Path) :
    Within (fun a b : σ × τ => r a.2 b.2) (importFiles lookup options source destination) := by
  have unchanged : ∀ {ε α : Type} (act : Action ε σ α),
      Within (fun a b : σ × τ => r a.2 b.2) act.onFirst := fun act s => refl s.2
  have trans' : ∀ a b c : σ × τ, r a.2 b.2 → r b.2 c.2 → r a.2 c.2 := fun _ _ _ => trans _ _ _
  unfold importFiles
  refine ((unchanged _).mapError _).bind_of_answers trans' fun s files s' hfind => ?_
  have planning : Within (fun a b : σ × τ => r a.2 b.2)
      (plan lookup files options.template destination) := by
    apply within_plan (fun s => refl s.2) trans'
    intro f hf
    -- what is found beside another state is found in the store alone
    have found := Action.result_of_mapError_ok hfind
    rw [Action.result_onFirst, Prod.mk.injEq] at found
    exact limited f ⟨s.1, files, _, hf, Prod.ext found.1 rfl⟩
  refine planning.bind trans' fun planned => ?_
  split
  · exact Action.within_pure (fun s => refl s.2) _
  · rw [Place.place_onFirst]
    exact (unchanged _).bind trans' fun _ => Action.within_pure (fun s => refl s.2) _

/-- **An import is only watched** if its lookups are. -/
theorem follows_importFiles {watched : Lookup (σ × τ)} {lookup : Lookup σ}
    (asks : ∀ p keys, Follows Prod.fst (watched p keys) (lookup p keys)) (options : ImportOptions)
    (source destination : Path) :
    Follows Prod.fst (importFiles watched options source destination)
      (importFiles lookup options source destination) := by
  unfold importFiles
  refine ((Action.follows_onFirst _).mapError _).bind fun files => ?_
  refine (follows_plan_of_lookups asks files _ _).bind fun planned => ?_
  split
  · exact Action.follows_pure _
  · rw [Place.place_onFirst]
    exact (Action.follows_onFirst _).bind fun _ => Action.follows_pure _

/-- **A request** of an import: the tool, asked for plain tags of a file that may be found. -/
def Request (σ : Type) [Store σ] (executable : Path) (options : ImportOptions) (source : Path)
    (start : Start) : Prop :=
  ∃ f, MayFind σ options source f ∧ (∀ key ∈ options.template.keys, PlainTag key) ∧
    start = ⟨executable, arguments options.template.keys f.absolute⟩

/-- **An import starts nothing but requests.** -/
theorem starts_of_import (host : Host σ) (executable : Path) (options : ImportOptions)
    (source destination : Path) (s : σ) :
    ∀ start ∈ ((importFiles (lookup host.recorded executable) options source destination).result
      (s, [])).2.2, Request σ executable options source start := by
  have limited : ∀ f, MayFind σ options source f →
      Within (fun a b => Extends (Request σ executable options source) a.2 b.2)
        (lookup host.recorded executable f.absolute options.template.keys) := by
    intro f found
    rintro ⟨s, starts⟩
    by_cases asked : Asked host s f.absolute options.template.keys
    · refine ⟨_, starts_of_asked asked executable starts, ?_⟩
      rw [List.forall_mem_singleton]
      exact ⟨f, found, asked.plain, rfl⟩
    · change Extends _ starts _
      rw [starts_of_unasked asked]
      exact .refl starts
  exact (within_importFiles Extends.refl Extends.trans limited destination (s, [])).forall_mem

end Import

/-! ### Plain requests only -/

/-- **Only plain requests start the tool.** A lookup of a set of keys starts it once if the file is
there and there are keys, all of them plain, and not at all otherwise. It is then asked for each of
the keys, in the order of their bytes, and given the path. An import starts it for nothing else: all
words that come from its template are plain. Neither is changed by being watched. -/
theorem only_plain_requests_start (host : Host σ) (executable : Path) :
    (∀ (p : Path) (named : List String) (s : σ) (starts : List Start),
      let keys := SortedList.ofList compare named
      let after := (lookup host.recorded executable p keys).result (s, starts)
      (after.1, after.2.1) = (lookup host executable p keys).result s ∧
      (Asked host s p named → after.2.2 = starts ++ [⟨executable,
        Utf8.encode "-json" :: keys.map (fun key => Utf8.encode ("-" ++ key)) ++ [p.bytes]⟩]) ∧
      (¬ Asked host s p named → after.2.2 = starts) ∧
      (∀ key, key ∈ keys ↔ key ∈ named) ∧
      keys.Pairwise fun a b => Path.compareBytes (Utf8.encode a) (Utf8.encode b) = .lt) ∧
    ∀ [Store σ] (options : ImportOptions) (source destination : Path) (s : σ),
      let after := (importFiles (lookup host.recorded executable) options source destination).result
        (s, [])
      (after.1, after.2.1)
        = (importFiles (lookup host executable) options source destination).result s ∧
      ∀ start ∈ after.2.2, start.program = executable ∧ ∃ (words : List String) (p : Path),
        start.arguments = Utf8.encode "-json" :: words.map Utf8.encode ++ [p.bytes] ∧
        ∀ word ∈ words, (∃ key ∈ options.template.keys, word = "-" ++ key) ∧ PlainWord word := by
  constructor
  · intro p named s starts keys after
    have same : ∀ key, key ∈ keys ↔ key ∈ named := fun key => SortedList.mem_ofList_iff
    have asked : Asked host s p named ↔ Asked host s p keys := by
      have empty : keys = [] ↔ named = [] := by simp only [List.eq_nil_iff_forall_not_mem, same]
      constructor
      · intro h
        exact ⟨h.present, mt empty.1 h.named, fun key hkey => h.plain key ((same key).1 hkey)⟩
      · intro h
        exact ⟨h.present, mt empty.2 h.named, fun key hkey => h.plain key ((same key).2 hkey)⟩
    refine ⟨follows_lookup host executable p keys (s, starts), ?_, ?_, same, ?_⟩
    · intro h
      exact starts_of_asked (asked.1 h) executable starts
    · intro h
      exact starts_of_unasked (mt asked.2 h) executable starts
    · apply (SortedList.pairwise_ofList named).imp
      intro a b before
      exact Utf8.compareBytes_encode (compare_lt_iff_lt.1 before)
  · intro _ options source destination s after
    refine ⟨follows_importFiles (follows_lookup host executable) options source destination (s, []),
      fun start hstart => ?_⟩
    obtain ⟨f, -, plain, rfl⟩ := starts_of_import host executable options source destination s start
      hstart
    refine ⟨rfl, options.template.keys.map ("-" ++ ·), f.absolute, ?_, ?_⟩
    · rw [List.map_map]
      rfl
    · intro word hword
      obtain ⟨key, hkey, rfl⟩ := List.mem_map.1 hword
      exact ⟨⟨key, hkey, rfl⟩, (plain key hkey).plainWord⟩

/-- Two tags, asked for by name and by a template, and an edit beside a tag. -/
theorem only_plain_requests_start_of_two_tags :
    let host : Host Memory :=
      { exists? := fun _ => pure true, run := fun _ _ => pure ⟨.exited 0, Utf8.encode "[]", []⟩,
        json := Json.strict }
    let tool : Path := .ofText "exiftool"
    let p : Path := .ofText "/card/a.jpg"
    let m : Memory := .ofFiles [(p, [1])]
    let options : ImportOptions :=
      { template := ⟨[.metadata "Model" none, .metadata "Artist" none]⟩, dryRun := true }
    let started : Start :=
      ⟨tool, [Utf8.encode "-json", Utf8.encode "-Artist", Utf8.encode "-Model", p.bytes]⟩
    Asked host m p ["Model", "Artist", "Model"] ∧
    ((lookup host.recorded tool p (SortedList.ofList compare ["Model", "Artist", "Model"])).result
      (m, [])).2.2 = [started] ∧
    ¬ Asked host m p ["Model", "all="] ∧
    ((lookup host.recorded tool p (SortedList.ofList compare ["Model", "all="])).result
      (m, [])).2.2 = [] ∧
    started ∈ ((importFiles (lookup host.recorded tool) options (.ofText "/card")
      (.ofText "/photos")).result (m, [])).2.2 ∧
    ∃ (words : List String) (p : Path),
      started.arguments = Utf8.encode "-json" :: words.map Utf8.encode ++ [p.bytes] ∧
      ∀ word ∈ words, (∃ key ∈ options.template.keys, word = "-" ++ key) ∧ PlainWord word := by
  intro host tool p m options started
  have asked : Asked host m p ["Model", "Artist", "Model"] :=
    ⟨rfl, by decide, find?_isTag_eq_none_iff.1 (by decide)⟩
  have unasked : ¬ Asked host m p ["Model", "all="] := by
    intro h
    have edit : isTag "all=" = true := isTag_iff.2 (h.plain "all=" (by decide))
    revert edit
    decide
  have sorted : SortedList.ofList compare ["Model", "Artist", "Model"] = ["Artist", "Model"] := by
    decide
  have recorded : ((importFiles (lookup host.recorded tool) options (.ofText "/card")
      (.ofText "/photos")).result (m, [])).2.2 = [started] := by cbv
  have listed : started ∈ ((importFiles (lookup host.recorded tool) options (.ofText "/card")
      (.ofText "/photos")).result (m, [])).2.2 := by
    rw [recorded]
    exact List.mem_singleton_self started
  have requests := only_plain_requests_start host tool
  refine ⟨asked, ?_, unasked, ?_, listed, ?_⟩
  · have once := (requests.1 p ["Model", "Artist", "Model"] m []).2.1 asked
    simp only [sorted] at once ⊢
    exact once
  · exact (requests.1 p ["Model", "all="] m []).2.2.1 unasked
  · exact ((requests.2 options (.ofText "/card") (.ofText "/photos") m).2 started listed).2

end PhotoImport.ExifTool
