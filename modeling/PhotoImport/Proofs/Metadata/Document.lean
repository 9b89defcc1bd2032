import PhotoImport.Proofs.Json.Ordered
import PhotoImport.Proofs.Metadata.Requests
import PhotoImport.Proofs.Text.Decoded

/-!
# What a document of the tool says

The tool answers with a document: a list of objects, of which the first tells about the file. It is
flattened to a text for each key, and nothing is lost on the way (`documents_are_flattened`):

* the keys are those of the first object whose values are not null, but for the one that repeats the
  path. Since no object has a key twice, neither have the values, and they are a map (`Flattens`);
* a text and a scalar are written as they are (`ownText`);
* a list is written as what its leaves are written as, with the separator between them
  (`joined_textsOf`). The leaves are found at any depth, from left to right (`leaves`). A list
  inside that has none of its own would still be given its place between two separators, so there
  must be no such list (`Filled`).

An output that is no document is an error about the output. A document counts whatever the tool has
reported by its exit status (`result_lookup`).
-/

namespace PhotoImport.ExifTool

/-! ### Leaves -/

mutual

/-- **The leaves of a value**: what is no list and not null, at any depth, from left to right. -/
def leaves {ν : Type} : Json.Value ν → List (Json.Value ν)
  | .null => []
  | .list items => leavesOf items
  | v => [v]

/-- The leaves of some values. -/
def leavesOf {ν : Type} : List (Json.Value ν) → List (Json.Value ν)
  | [] => []
  | v :: rest => leaves v ++ leavesOf rest

end

/-- A value stands somewhere inside a list. -/
inductive Inside {ν : Type} (v : Json.Value ν) : Json.Value ν → Prop
  | item {items : List (Json.Value ν)} (mem : v ∈ items) : Inside v (.list items)
  | deeper {w : Json.Value ν} {items : List (Json.Value ν)} (mem : w ∈ items)
      (inside : Inside v w) : Inside v (.list items)

/-- **A filled value**: every list inside has a leaf. -/
def Filled {ν : Type} (v : Json.Value ν) : Prop :=
  ∀ items, Inside (.list items) v → leavesOf items ≠ []

section Filled

variable {ν : Type}

/-- What is no list has no list inside. -/
theorem filled_of_ne_list {v : Json.Value ν} (single : ∀ items, v ≠ .list items) : Filled v := by
  rintro items (⟨_⟩ | ⟨_⟩)
  all_goals exact absurd rfl (single _)

/-- A list is filled if its items are, and the lists among them have leaves. -/
theorem filled_list_iff {items : List (Json.Value ν)} :
    Filled (.list items) ↔
      ∀ v ∈ items, Filled v ∧ ∀ inner, v = .list inner → leavesOf inner ≠ [] := by
  constructor
  · intro h v mem
    refine ⟨fun inner inside => h inner (.deeper mem inside), ?_⟩
    rintro inner rfl
    exact h inner (.item mem)
  · rintro h inner (⟨mem⟩ | ⟨mem, inside⟩)
    · exact (h _ mem).2 inner rfl
    · exact (h _ mem).1 inner inside

/-- A value that is neither null nor a list is its only leaf. -/
theorem leaves_eq_singleton {v : Json.Value ν} (present : v ≠ .null)
    (single : ∀ items, v ≠ .list items) : leaves v = [v] := by
  cases v with
  | null => exact absurd rfl present
  | list items => exact absurd rfl (single items)
  | bool | number | text | object => simp [leaves]

/-- In a filled list every item that is not null has a leaf. -/
theorem Filled.leaves_ne_nil {items : List (Json.Value ν)} {v : Json.Value ν}
    (h : Filled (.list items)) (mem : v ∈ items) (present : v ≠ .null) : leaves v ≠ [] := by
  by_cases nested : ∃ inner, v = .list inner
  · obtain ⟨inner, rfl⟩ := nested
    rw [leaves]
    exact (filled_list_iff.1 h _ mem).2 inner rfl
  · rw [leaves_eq_singleton present (not_exists.1 nested)]
    exact List.cons_ne_nil _ _

end Filled

/-! ### Own texts -/

/-- **The own text of a value**: a text is written without quotes, a truth value as a word, and a
number or an object as the library prints it. A null and a list have no text of their own. -/
def ownText (json : Json.Library) : json.Value → List Char
  | .text s => s.toList
  | .bool b => (toString b).toList
  | .number n => (json.numberText n).toList
  | .object members => (json.objectText members).toList
  | .null | .list _ => []

/-- The own texts of some values, with the separator between them. -/
def joined (json : Json.Library) (vs : List json.Value) : List Char :=
  listSeparator.intercalate (vs.map (ownText json))

section Texts

variable {json : Json.Library}

/-- A value that is neither null nor a list is written as its own text. -/
theorem textOf?_eq_ownText {v : json.Value} (present : v ≠ .null)
    (single : ∀ items, v ≠ .list items) : textOf? json v = some (ownText json v) := by
  cases v with
  | null => exact absurd rfl present
  | list items => exact absurd rfl (single items)
  | bool | number | text | object => rw [textOf?, ownText]

/-! ### Joining what has been joined -/

@[simp] theorem joined_singleton (v : json.Value) :
    joined json [v] = ownText json v :=
  List.intercalate_singleton

theorem joined_cons {v : json.Value} {vs : List json.Value}
    (more : vs ≠ []) : joined json (v :: vs) = ownText json v ++ listSeparator ++ joined json vs :=
  List.intercalate_cons_of_ne_nil (by simpa using more)

theorem joined_append {front back : List json.Value} (hfront : front ≠ [])
    (hback : back ≠ []) :
    joined json (front ++ back) = joined json front ++ listSeparator ++ joined json back := by
  induction front with
  | nil => exact absurd rfl hfront
  | cons v front ih =>
    by_cases alone : front = []
    · subst alone
      rw [List.singleton_append, joined_cons hback, joined_singleton]
    · have rest : front ++ back ≠ [] := List.append_ne_nil_of_left_ne_nil alone back
      calc joined json (v :: front ++ back)
          = ownText json v ++ listSeparator ++ joined json (front ++ back) := joined_cons rest
        _ = ownText json v ++ listSeparator ++ joined json front ++ listSeparator
              ++ joined json back := by
            rw [ih alone, ← List.append_assoc, ← List.append_assoc]
        _ = joined json (v :: front) ++ listSeparator ++ joined json back := by
            rw [joined_cons alone]

mutual

/-- **A filled value is written as its leaves.** -/
theorem textOf?_of_filled :
    ∀ v : json.Value, Filled v → v ≠ .null →
      textOf? json v = some (joined json (leaves v))
  | .null, _, present => absurd rfl present
  | .list items, filled, _ => by
    have each : ∀ v ∈ items, Filled v ∧ (v ≠ .null → leaves v ≠ []) :=
      fun v mem => ⟨(filled_list_iff.1 filled v mem).1, filled.leaves_ne_nil mem⟩
    rw [textOf?, leaves, ← (joined_textsOf items each).1]
    rfl
  | .bool _, _, present | .number _, _, present | .text _, _, present | .object _, _, present => by
    rw [textOf?_eq_ownText present nofun, leaves_eq_singleton present nofun, joined_singleton]

/-- **What the items of a filled list are written as**, one behind the other, is what their leaves
are written as. Neither is there without the other. -/
theorem joined_textsOf :
    ∀ items : List json.Value,
      (∀ v ∈ items, Filled v ∧ (v ≠ .null → leaves v ≠ [])) →
      listSeparator.intercalate (textsOf json items) = joined json (leavesOf items) ∧
      (textsOf json items = [] ↔ leavesOf items = [])
  | [], _ => by
    rw [textsOf, leavesOf]
    exact ⟨rfl, by simp⟩
  | v :: rest, filled => by
    rw [List.forall_mem_cons] at filled
    obtain ⟨⟨first, has_leaf⟩, others⟩ := filled
    obtain ⟨texts, none⟩ := joined_textsOf rest others
    rw [textsOf, leavesOf]
    by_cases null : v = .null
    · -- a null has neither a text nor a leaf
      subst null
      rw [textOf?, leaves]
      exact ⟨texts, none⟩
    · rw [textOf?_of_filled v first null, Option.toList_some, List.singleton_append]
      have leafy : leaves v ≠ [] := has_leaf null
      refine ⟨?_, by simp [leafy]⟩
      by_cases last : leavesOf rest = []
      · rw [last, List.append_nil, none.2 last, List.intercalate_singleton]
      · rw [List.intercalate_cons_of_ne_nil (mt none.1 last), texts, joined_append leafy last]

end

/-! ### The values of an object -/

/-- The value that a member of an object is flattened to, if it gives one. -/
def valueOf? (json : Json.Library) (member : String × json.Value) : Option (String × String) :=
  if member.1 = sourceKey then none
  else (textOf? json member.2).map fun text => (member.1, String.ofList text)

/-- The values that the members of an object are flattened to. -/
def flattened (json : Json.Library) (members : json.Members) : Values :=
  members.filterMap (valueOf? json)

variable {members : json.Members} {key text : String}

/-- A member gives the text of its value under its own key. -/
theorem valueOf?_eq_some_iff {member : String × json.Value} :
    valueOf? json member = some (key, text) ↔ member.1 = key ∧ key ≠ sourceKey ∧
      (textOf? json member.2).map String.ofList = some text := by
  unfold valueOf?
  split
  · next source => exact ⟨nofun, fun ⟨same, other, _⟩ => absurd (same ▸ source) other⟩
  · next other =>
    simp only [Option.map_eq_some_iff, Prod.mk.injEq]
    constructor
    · rintro ⟨chars, written, rfl, rfl⟩
      exact ⟨rfl, other, chars, written, rfl⟩
    · rintro ⟨rfl, -, chars, written, rfl⟩
      exact ⟨chars, written, rfl, rfl⟩

theorem mem_flattened_iff :
    (key, text) ∈ flattened json members ↔ key ≠ sourceKey ∧
      ∃ v, (key, v) ∈ members ∧ (textOf? json v).map String.ofList = some text := by
  simp only [flattened, List.mem_filterMap, Prod.exists, valueOf?_eq_some_iff]
  constructor
  · rintro ⟨_, v, mem, rfl, other, written⟩
    exact ⟨other, v, mem, written⟩
  · rintro ⟨other, v, mem, written⟩
    exact ⟨key, v, mem, rfl, other, written⟩

/-- Only a null has no text. -/
theorem textOf?_eq_none_iff {v : json.Value} : textOf? json v = none ↔ v = .null := by
  cases v with
  | null => exact ⟨fun _ => rfl, fun _ => by rw [textOf?]⟩
  | bool | number | text | list | object => exact ⟨by rw [textOf?]; nofun, nofun⟩

/-- The values come in the order of the members that they are drawn from. -/
theorem keys_flattened_sublist (members : json.Members) :
    ((flattened json members).map Prod.fst).Sublist (members.map Prod.fst) := by
  induction members with
  | nil => exact .refl _
  | cons member rest ih =>
    rw [flattened, List.filterMap_cons, List.map_cons]
    split
    · exact ih.cons _
    · next value drawn =>
      rw [List.map_cons, (valueOf?_eq_some_iff.1 drawn).1]
      exact ih.cons_cons _

/-- Where no key stands twice, a key has one value. -/
theorem eq_of_mem_members (h : (members.map Prod.fst).Nodup) {v w : json.Value}
    (hv : (key, v) ∈ members) (hw : (key, w) ∈ members) : v = w :=
  congrArg Prod.snd (List.inj_on_of_nodup_map h hv hw rfl)

/-- **An object that is flattened** to a map of texts. -/
structure Flattens (json : Json.Library) (members : json.Members) (values : Values) : Prop where
  /-- No key has two values. -/
  distinct : (values.map Prod.fst).Nodup
  /-- The keys are those of the members whose value is not null, but for the path of the file. -/
  keys : ∀ key, key ∈ values.map Prod.fst ↔ key ≠ sourceKey ∧ ∃ v, (key, v) ∈ members ∧ v ≠ .null
  /-- What is no list is written as it is. -/
  single : ∀ key v text, (key, v) ∈ members → (key, text) ∈ values → (∀ items, v ≠ .list items) →
    text = String.ofList (ownText json v)
  /-- A list all of whose inner lists have leaves is written as its own leaves. -/
  list : ∀ key items text, (key, .list items) ∈ members → (key, text) ∈ values →
    Filled (.list items) → text = String.ofList (joined json (leavesOf items))

theorem flattens_flattened (h : (members.map Prod.fst).Nodup) :
    Flattens json members (flattened json members) where
  distinct := h.sublist (keys_flattened_sublist members)
  keys := by
    intro key
    rw [List.mem_map]
    constructor
    · rintro ⟨⟨key, text⟩, mem, rfl⟩
      obtain ⟨other, v, hv, htext⟩ := mem_flattened_iff.1 mem
      refine ⟨other, v, hv, fun null => ?_⟩
      rw [textOf?_eq_none_iff.2 null] at htext
      cases htext
    · rintro ⟨other, v, hv, present⟩
      obtain ⟨chars, htext⟩ := Option.ne_none_iff_exists'.1 (mt textOf?_eq_none_iff.1 present)
      have mem : (key, String.ofList chars) ∈ flattened json members :=
        mem_flattened_iff.2 ⟨other, v, hv, by rw [htext]; rfl⟩
      exact ⟨_, mem, rfl⟩
  single := by
    intro key v text hv mem single
    obtain ⟨-, w, hw, htext⟩ := mem_flattened_iff.1 mem
    obtain rfl := eq_of_mem_members h hv hw
    have present : v ≠ .null := by
      rintro rfl
      rw [textOf?] at htext
      cases htext
    rw [textOf?_eq_ownText present single] at htext
    exact (Option.some.inj htext).symm
  list := by
    intro key items text hv mem filled
    obtain ⟨-, w, hw, htext⟩ := mem_flattened_iff.1 mem
    obtain rfl := eq_of_mem_members h hv hw
    rw [textOf?_of_filled _ filled nofun, leaves] at htext
    exact (Option.some.inj htext).symm

/-! ### Documents -/

/-- **A document**: an output that reads as a list of objects. -/
def Document (json : Json.Library) (output : Bytes) (objects : List json.Members) : Prop :=
  json.read? output = some (.list (objects.map .object))

variable {objects : List json.Members} {output : Bytes}

theorem mapM_members?_eq_some_iff {items : List json.Value} :
    items.mapM members? = some objects ↔ items = objects.map .object := by
  induction items generalizing objects with
  | nil =>
    rw [List.mapM_nil]
    constructor
    · rintro ⟨⟩
      rfl
    · intro h
      rw [List.map_eq_nil_iff.1 h.symm]
      rfl
  | cons v items ih =>
    simp only [List.mapM_cons, Option.pure_def, Option.bind_eq_bind, Option.bind_eq_some_iff, ih,
      Option.some.injEq]
    constructor
    · rintro ⟨first, hfirst, rest, rfl, rfl⟩
      cases v with
      | object members =>
        cases hfirst
        rfl
      | null | bool | number | text | list => cases hfirst
    · intro h
      obtain ⟨first, rest, rfl, rfl, rfl⟩ := List.map_eq_cons_iff.1 h.symm
      exact ⟨first, rfl, rest, rfl, rfl⟩

/-- A value has values of its own if it is a list of objects. -/
theorem documentValues?_eq_some_iff {v : json.Value} {values : Values} :
    documentValues? json v = some values ↔
      ∃ objects : List json.Members,
        v = .list (objects.map .object) ∧ flattened json (objects.head?.getD []) = values := by
  cases v with
  | list items =>
    simp only [documentValues?, Option.bind_eq_bind, Option.bind_eq_some_iff,
      mapM_members?_eq_some_iff, Option.some.injEq, Json.Value.list.injEq]
    rfl
  | null | bool | number | text | object => simp [documentValues?]

/-- **A document has the values of its first object**, and only a document has values. -/
theorem values?_eq_some_iff {values : Values} :
    values? json output = some values ↔
      ∃ objects, Document json output objects ∧
        flattened json (objects.head?.getD []) = values := by
  simp only [values?, Option.bind_eq_some_iff, documentValues?_eq_some_iff, Document]
  constructor
  · rintro ⟨v, read, objects, rfl, same⟩
    exact ⟨objects, read, same⟩
  · rintro ⟨objects, read, same⟩
    exact ⟨_, read, objects, rfl, same⟩

/-! ### Lookups -/

variable {σ : Type} {host : Host σ} {executable p : Path} {s s' : σ} {keys : List String}
  {run : ProgramRun}

/-- **A lookup that starts the tool** gives the answer of the run. -/
theorem result_lookup (asked : Asked host s p keys)
    (ran : (host.run executable (arguments keys p)).result ((host.exists? p).result s).2
      = (.ok run, s')) :
    (lookup host executable p keys).result s = (answer host.json run, s') := by
  unfold lookup
  rw [Action.result_bind, Action.result_mapError]
  rcases hpresent : (host.exists? p).result s with ⟨present, s₁⟩
  have there : present = .ok true := by
    have h := asked.present
    rwa [hpresent] at h
  rw [hpresent] at ran
  subst there
  show ((if keys = [] then _ else _ : Action LookupFailure σ Values).result s₁) = _
  rw [if_neg asked.named, find?_isTag_eq_none_iff.2 asked.plain]
  show (((host.run executable (arguments keys p)).mapError (startFailure executable) >>=
    fun run => MonadExcept.ofExcept (answer host.json run)).result s₁) = _
  rw [Action.result_bind, Action.result_mapError, ran]
  show (MonadExcept.ofExcept (answer host.json run) : Action LookupFailure σ Values).result s' = _
  cases answer host.json run <;> rfl

theorem values?_of_document (h : Document json output objects) :
    values? json output = some (flattened json (objects.head?.getD [])) :=
  values?_eq_some_iff.2 ⟨objects, h, rfl⟩

theorem values?_eq_none (h : ∀ objects, ¬ Document json output objects) :
    values? json output = none := by
  refine Option.eq_none_iff_forall_ne_some.2 fun values hvalues => ?_
  obtain ⟨objects, document, -⟩ := values?_eq_some_iff.1 hvalues
  exact h objects document

/-- The first object of a document has no key twice, also if there is no object. -/
theorem Document.nodup_keys (h : Document json output objects) (maps : json.ReadsMaps) :
    ((objects.head?.getD []).map Prod.fst).Nodup := by
  cases objects with
  | nil => exact .nil
  | cons first later => exact maps output _ h first List.mem_cons_self

end Texts

/-- **Documents are flattened without loss.** An output that reads as a list of objects is flattened
to the values of the first object, whatever the later objects are, and an output that does not has
no values. A lookup that starts the tool succeeds with the values of a document, whatever the exit
status is. If there is no document, the error is about the output, and tells of the exit status if
that reports a failure. All that is assumed of the library is that objects are read as maps. -/
theorem documents_are_flattened :
    (∀ json : Json.Library, json.ReadsMaps → ∀ (output : Bytes) (objects : List json.Members),
      Document json output objects →
      ∃ values, values? json output = some values ∧
        Flattens json (objects.head?.getD []) values) ∧
    (∀ (json : Json.Library) (output : Bytes), (∀ objects, ¬ Document json output objects) →
      values? json output = none) ∧
    (∀ (json : Json.Library) (output output' : Bytes) (objects objects' : List json.Members),
      Document json output objects → Document json output' objects' →
      objects.head? = objects'.head? → values? json output = values? json output') ∧
    ∀ (σ : Type) (host : Host σ) (executable p : Path) (keys : List String) (s s' : σ)
      (run : ProgramRun), Asked host s p keys →
      (host.run executable (arguments keys p)).result ((host.exists? p).result s).2
        = (.ok run, s') →
      (∀ objects, Document host.json run.output objects →
        ∃ values, values? host.json run.output = some values ∧
          (lookup host executable p keys).result s = (.ok values, s')) ∧
      ((∀ objects, ¬ Document host.json run.output objects) →
        (lookup host executable p keys).result s
          = (.error (.refused (if run.status.isSuccess then .invalidOutput MetadataError.notDocument
              else .toolFailed run.status (trimBlank (Utf8.decodeLossy run.complaint)))), s')) := by
  refine ⟨?_, fun _ _ => values?_eq_none, ?_, ?_⟩
  · intro json maps output objects document
    exact ⟨_, values?_of_document document, flattens_flattened (document.nodup_keys maps)⟩
  · intro json output output' objects objects' document document' same
    rw [values?_of_document document, values?_of_document document', same]
  · intro σ host executable p keys s s' run asked ran
    rw [result_lookup asked ran, answer]
    constructor
    · intro objects document
      have values := values?_of_document document
      exact ⟨_, values, by rw [values]⟩
    · intro none
      rw [values?_eq_none none]
      dsimp only
      split <;> rfl

/-- A text is a document of strict JSON if its value is a list of objects. -/
theorem document_strict_iff {text : String} {objects : List Json.strict.Members} :
    Document Json.strict (Utf8.encode text) objects
      ↔ Json.Value.read? text = some (.list (objects.map .object)) := by
  show (Utf8.decode? (Utf8.encode text)).bind _ = _ ↔ _
  rw [Utf8.decode?_encode]
  rfl

set_option maxRecDepth 4000 in
/-- A list with a list inside, from a tool that reports a failure, and an output that is no
document. -/
theorem documents_are_flattened_of_nested_list :
    let json : Json.Library := Json.strict
    let inner : List json.Value := [.null, .list [.text "y"]]
    let tags : List json.Value := [.text "x", .list inner]
    let first : json.Members := [("Flash", .null), ("ISO", .number (Json.Number.integer 9)),
      ("SourceFile", .text "a"), ("Tags", .list tags)]
    let objects : List json.Members := [first, []]
    let output : Bytes := Utf8.encode
      "[\x7b\"SourceFile\":\"a\",\"Tags\":[\"x\",[null,[\"y\"]]],\"ISO\":9,\"Flash\":null\x7d,\x7b\x7d]"
    let alone : Bytes := Utf8.encode
      "[\x7b\"SourceFile\":\"a\",\"Tags\":[\"x\",[null,[\"y\"]]],\"ISO\":9,\"Flash\":null\x7d]"
    let complaint : Bytes := Utf8.encode "not found"
    let host (output : Bytes) : Host Memory :=
      { exists? := fun _ => pure true, run := fun _ _ => pure ⟨.exited 1, output, complaint⟩, json }
    let tool : Path := .ofText "exiftool"
    let p : Path := .ofText "/card/a.jpg"
    let m : Memory := .ofFiles [(p, [1])]
    json.ReadsMaps ∧ Document json output objects ∧ Document json alone [first] ∧
    values? json output = values? json alone ∧
    (∃ values, (lookup (host output) tool p ["ISO", "Tags"]).result m = (.ok values, m) ∧
      "Flash" ∉ values.map Prod.fst ∧ ("ISO", "9") ∈ values ∧ ("Tags", "x, y") ∈ values) ∧
    (∀ objects, ¬ Document json complaint objects) ∧ values? json complaint = none ∧
    (lookup (host complaint) tool p ["ISO", "Tags"]).result m
      = (.error (.refused (.toolFailed (.exited 1) "not found")), m) := by
  intro json inner tags first objects output alone complaint host tool p m
  obtain ⟨flattening, no_values, same_first, lookups⟩ := documents_are_flattened
  have maps : json.ReadsMaps := Json.readsMaps_strict
  have document : Document json output objects := document_strict_iff.2 rfl
  have shorter : Document json alone [first] := document_strict_iff.2 rfl
  have none : ∀ objects, ¬ Document json complaint objects := by
    intro objects document
    cases document_strict_iff.1 document
  have asked : ∀ output, Asked (host output) m p ["ISO", "Tags"] :=
    fun _ => ⟨rfl, by decide, find?_isTag_eq_none_iff.1 (by decide)⟩
  refine ⟨maps, document, shorter, same_first _ _ _ _ _ document shorter rfl, ?_, none,
    no_values _ _ none, ?_⟩
  · obtain ⟨values, hvalues, flattens⟩ := flattening _ maps _ _ document
    obtain ⟨answered, hanswered, result⟩ := (lookups _ (host output) tool p ["ISO", "Tags"] m m
      ⟨.exited 1, output, complaint⟩ (asked output) rfl).1 objects document
    obtain rfl : values = answered := Option.some.inj (hvalues.symm.trans hanswered)
    have filled : Filled (.list tags) := by
      simp [filled_list_iff, filled_of_ne_list, tags, inner, leavesOf, leaves]
    have listed : ∀ key v, (key, v) ∈ first → key ≠ sourceKey → v ≠ .null →
        ∃ text, (key, text) ∈ values := by
      intro key v mem other present
      have hkey := (flattens.keys key).2 ⟨other, v, mem, present⟩
      obtain ⟨⟨key, text⟩, found, rfl⟩ := List.mem_map.1 hkey
      exact ⟨text, found⟩
    refine ⟨values, result, ?_, ?_, ?_⟩
    · intro flash
      obtain ⟨-, v, mem, present⟩ := (flattens.keys "Flash").1 flash
      exact present (by simpa [objects, first] using mem)
    · have iso : ("ISO", .number (Json.Number.integer 9)) ∈ first := by simp [first]
      obtain ⟨text, found⟩ := listed _ _ iso (by decide) nofun
      have nine : String.ofList (ownText json (.number (Json.Number.integer 9))) = "9" := by
        rw [ownText, String.ofList_toList]
        rfl
      rwa [flattens.single _ _ text iso found nofun, nine] at found
    · have list : ("Tags", .list tags) ∈ first := by simp [first]
      obtain ⟨text, found⟩ := listed _ _ list (by decide) nofun
      obtain rfl := flattens.list _ _ text list found filled
      exact found
  · rw [(lookups _ (host complaint) tool p ["ISO", "Tags"] m m
      ⟨.exited 1, complaint, complaint⟩ (asked complaint) rfl).2 none]
    have said : Utf8.decodeLossy complaint = "not found" := Utf8.decodeLossy_encode _
    simp only [said]
    rfl

end PhotoImport.ExifTool
