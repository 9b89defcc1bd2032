import Mathlib.Data.String.Basic
import PhotoImport.Json.Strict

/-!
# Objects that are read have each key once

Whatever text a value is read from, each of its objects has its members in ascending order of their
keys, at every depth (`ordered_of_read?`). So no key stands twice in an object, even if the text has
it twice, and an object that is read can be taken for a map.

The objects and lists that are still open are ordered as well: this is what every token keeps
(`ReadState.Ordered.step`), since a member that is put in its place leaves the order as it was
(`Fields.pairwise_insert`), and a value that a token brings along has no members at all
(`ordered_of_scan`).

So strict JSON is a library as it is relied on (`readsMaps_strict`).
-/

namespace PhotoImport

/-! ### One more field -/

namespace Fields

variable {α : Type} {name : String} {value : α} {fields : List (String × α)}

/-- A field that has been put in its place is the new one or an old one. -/
theorem eq_or_mem_of_mem_insert {field : String × α} (h : field ∈ insert name value fields) :
    field = (name, value) ∨ field ∈ fields := by
  fun_induction insert name value fields with
  | case1 => exact .inl (List.mem_singleton.1 h)
  | case2 => exact List.mem_cons.1 h
  | case3 =>
    rcases List.mem_cons.1 h with new | old
    · exact .inl new
    · exact .inr (List.mem_cons_of_mem _ old)
  | case4 n v rest _ _ ih =>
    rcases List.mem_cons.1 h with first | later
    · exact .inr (first ▸ List.mem_cons_self)
    · exact (ih later).imp_right (List.mem_cons_of_mem _)

/-- **A field in its place** leaves the others in their order. -/
theorem pairwise_insert (name : String) (value : α)
    (sorted : fields.Pairwise fun a b => a.1 < b.1) :
    (insert name value fields).Pairwise fun a b => a.1 < b.1 := by
  fun_induction insert name value fields with
  | case1 => exact List.pairwise_singleton _ _
  | case2 n v rest before =>
    rw [List.pairwise_cons] at sorted ⊢
    refine ⟨fun field hfield => ?_, List.pairwise_cons.2 sorted⟩
    rcases List.mem_cons.1 hfield with rfl | later
    · exact before
    · exact lt_trans before (sorted.1 field later)
  | case3 =>
    -- the old field of this name stood where the new one stands
    rw [List.pairwise_cons] at sorted ⊢
    exact sorted
  | case4 n v rest not_before other ih =>
    rw [List.pairwise_cons] at sorted ⊢
    have behind : n < name := lt_of_le_of_ne (not_lt.1 not_before) (Ne.symm other)
    refine ⟨fun field hfield => ?_, ih sorted.2⟩
    rcases eq_or_mem_of_mem_insert hfield with rfl | old
    · exact behind
    · exact sorted.1 field old

end Fields

namespace Json

/-! ### Ordered values -/

/-- **A value all of whose objects are ordered** by their keys, at every depth. -/
inductive Value.Ordered : Value Number → Prop
  | null : Ordered .null
  | bool (b : Bool) : Ordered (.bool b)
  | number (n : Number) : Ordered (.number n)
  | text (s : String) : Ordered (.text s)
  | list {items : List (Value Number)} (ordered : ∀ v ∈ items, v.Ordered) : Ordered (.list items)
  | object {members : List (String × Value Number)} (sorted : members.Pairwise fun a b => a.1 < b.1)
      (ordered : ∀ m ∈ members, m.2.Ordered) : Ordered (.object members)

/-- **Members in order**, with values that are ordered. -/
structure OrderedMembers (members : List (String × Value Number)) : Prop where
  sorted : members.Pairwise fun a b => a.1 < b.1
  ordered : ∀ m ∈ members, m.2.Ordered

theorem orderedMembers_nil : OrderedMembers [] := ⟨.nil, nofun⟩

/-- Members in ascending order of their keys have different keys. -/
theorem nodup_keys {α : Type} {members : List (String × α)}
    (sorted : members.Pairwise fun a b => a.1 < b.1) : (members.map Prod.fst).Nodup := by
  rw [List.Nodup, List.pairwise_map]
  exact sorted.imp fun before => ne_of_lt before

theorem OrderedMembers.insert {members : List (String × Value Number)} {key : String} {v : Value Number}
    (h : OrderedMembers members) (value : v.Ordered) :
    OrderedMembers (Fields.insert key v members) where
  sorted := Fields.pairwise_insert key v h.sorted
  ordered := by
    intro m hm
    rcases Fields.eq_or_mem_of_mem_insert hm with rfl | old
    · exact value
    · exact h.ordered m old

/-- What is open is ordered so far. -/
def Frame.Ordered : Frame → Prop
  | .list items => ∀ v ∈ items, v.Ordered
  | .member members _ => OrderedMembers members

/-- All that has been read is ordered so far. -/
def ReadState.Ordered : ReadState → Prop
  | .value frames _ => ∀ frame ∈ frames, frame.Ordered
  | .key frames members _ => (∀ frame ∈ frames, frame.Ordered) ∧ OrderedMembers members
  | .colon frames members _ => (∀ frame ∈ frames, frame.Ordered) ∧ OrderedMembers members
  | .listNext frames items => (∀ frame ∈ frames, frame.Ordered) ∧ ∀ v ∈ items, v.Ordered
  | .objectNext frames members => (∀ frame ∈ frames, frame.Ordered) ∧ OrderedMembers members
  | .done v => v.Ordered

/-- A value that a token brings along is ordered. -/
def Token.Ordered (t : Token) : Prop := ∀ v, t = .scalar v → v.Ordered

/-! ### Tokens -/

theorem ordered_of_wordValue? {word : List Char} {v : Value Number} (h : wordValue? word = some v) :
    v.Ordered := by
  unfold wordValue? at h
  split at h
  · cases h
    exact .null
  split at h
  · cases h
    exact .bool true
  split at h
  · cases h
    exact .bool false
  · obtain ⟨n, -, rfl⟩ := Option.map_eq_some_iff.1 h
    exact .number n

theorem ordered_of_scanBetween {c : Char} {tokens : List Token} {next : ScanState}
    (h : scanBetween c = some (tokens, next)) : ∀ t ∈ tokens, t.Ordered := by
  unfold scanBetween at h
  intro t ht v hv
  subst hv
  -- a value of its own is only read behind the word that spells it
  repeat' split at h
  all_goals cases h <;> simp at ht

theorem ordered_of_scanStep {s : ScanState} {c : Char} {tokens : List Token} {next : ScanState}
    (h : scanStep s c = some (tokens, next)) : ∀ t ∈ tokens, t.Ordered := by
  have silent : ∀ t ∈ ([] : List Token), t.Ordered := nofun
  cases s with
  | between => exact ordered_of_scanBetween h
  | word seen =>
    simp only [scanStep] at h
    split at h
    · cases h
      exact silent
    · -- the word has ended, and its value comes before what the character says
      simp only [Option.bind_eq_bind, Option.bind_eq_some_iff, Prod.exists, Option.some.injEq,
        Prod.mk.injEq] at h
      obtain ⟨v, word, tokens, next, between, rfl, rfl⟩ := h
      refine List.forall_mem_cons.2 ⟨?_, ordered_of_scanBetween between⟩
      rintro w ⟨⟩
      exact ordered_of_wordValue? word
  | text seen =>
    simp only [scanStep] at h
    split at h
    · cases h
      exact List.forall_mem_singleton.2 nofun
    repeat' split at h
    all_goals cases h <;> exact silent
  | escape seen =>
    simp only [scanStep] at h
    split at h
    · cases h
      exact silent
    · obtain ⟨e, -, result⟩ := Option.map_eq_some_iff.1 h
      cases result
      exact silent
  | code seen high missing value =>
    simp only [scanStep] at h
    split at h
    · cases h
    split at h
    · obtain ⟨s', -, result⟩ := Option.map_eq_some_iff.1 h
      cases result
      exact silent
    · cases h
      exact silent
  | pair seen high =>
    simp only [scanStep] at h
    split at h <;> cases h
    exact silent
  | pairEscape seen high =>
    simp only [scanStep] at h
    split at h <;> cases h
    exact silent

/-- **Every token of a text is ordered.** -/
theorem ordered_of_scan {s : ScanState} {text : List Char} {tokens : List Token}
    (h : scan s text = some tokens) : ∀ t ∈ tokens, t.Ordered := by
  induction text generalizing s tokens with
  | nil =>
    cases s with
    | between =>
      cases h
      nofun
    | word seen =>
      -- a word may end with the text
      obtain ⟨v, word, rfl⟩ := Option.map_eq_some_iff.1 h
      refine List.forall_mem_singleton.2 ?_
      rintro w ⟨⟩
      exact ordered_of_wordValue? word
    | text | escape | code | pair | pairEscape => cases h
  | cons c text ih =>
    simp only [scan, Option.bind_eq_bind, Option.bind_eq_some_iff, Prod.exists,
      Option.some.injEq] at h
    obtain ⟨tokens, next, step, rest, later, rfl⟩ := h
    intro t ht
    rcases List.mem_append.1 ht with here | there
    · exact ordered_of_scanStep step t here
    · exact ih later t there

/-! ### Values from tokens -/

theorem ordered_afterValue {frames : List Frame} {v : Value Number}
    (open_ : ∀ frame ∈ frames, frame.Ordered) (value : v.Ordered) :
    (afterValue frames v).Ordered := by
  cases frames with
  | nil => exact value
  | cons frame frames =>
    rw [List.forall_mem_cons] at open_
    cases frame with
    | list items => exact ⟨open_.2, List.forall_mem_cons.2 ⟨value, open_.1⟩⟩
    | member members key => exact ⟨open_.2, open_.1.insert value⟩

/-- **One token** keeps in order what has been read. -/
theorem ReadState.Ordered.step {s s' : ReadState} {t : Token} (state : s.Ordered)
    (token : t.Ordered) (h : readStep s t = some s') : s'.Ordered := by
  unfold readStep at h
  split at h
  · next frames _ v =>
    cases h
    exact ordered_afterValue state (token v rfl)
  · next frames _ text =>
    cases h
    exact ordered_afterValue state (.text text)
  · next frames _ =>
    -- a list begins with no items
    split at h <;> cases h
    exact List.forall_mem_cons.2 ⟨nofun, state⟩
  · next frames _ =>
    -- an object begins with no members
    split at h <;> cases h
    exact ⟨state, orderedMembers_nil⟩
  · next frames =>
    cases h
    exact ordered_afterValue (List.forall_mem_cons.1 state).2 (.list nofun)
  · next frames members _ key =>
    cases h
    exact state
  · next frames members =>
    cases h
    exact ordered_afterValue state.1 (.object state.2.sorted state.2.ordered)
  · next frames members key =>
    cases h
    exact List.forall_mem_cons.2 ⟨state.2, state.1⟩
  · next frames items =>
    cases h
    exact List.forall_mem_cons.2 ⟨state.2, state.1⟩
  · next frames items =>
    cases h
    exact ordered_afterValue state.1 (.list fun v hv => state.2 v (List.mem_reverse.1 hv))
  · next frames members =>
    cases h
    exact state
  · next frames members =>
    cases h
    exact ordered_afterValue state.1 (.object state.2.sorted state.2.ordered)
  · cases h

/-- What is ordered so far is ordered at the end of the tokens. -/
theorem ordered_of_foldlM {s s' : ReadState} {tokens : List Token} (state : s.Ordered)
    (ordered : ∀ t ∈ tokens, t.Ordered) (h : tokens.foldlM readStep s = some s') : s'.Ordered := by
  induction tokens generalizing s with
  | nil =>
    cases h
    exact state
  | cons t tokens ih =>
    rw [List.forall_mem_cons] at ordered
    rw [List.foldlM_cons, Option.bind_eq_bind, Option.bind_eq_some_iff] at h
    obtain ⟨next, step, rest⟩ := h
    exact ih (state.step ordered.1 step) ordered.2 rest

/-- **Whatever is read is ordered.** -/
theorem ordered_of_read? {text : String} {v : Value Number} (h : Value.read? text = some v) :
    v.Ordered := by
  unfold Value.read? at h
  split at h
  · cases h
  · next tokens scanned =>
    split at h
    · next w read =>
      cases h
      have start : (ReadState.value [] false).Ordered := nofun
      exact ordered_of_foldlM start (ordered_of_scan scanned) read
    · cases h

/-- **Strict JSON reads objects as maps**: the members of each object in a list are ordered. -/
theorem readsMaps_strict : strict.ReadsMaps := by
  intro document objects h members hmem
  obtain ⟨text, -, read⟩ := Option.bind_eq_some_iff.1 h
  cases ordered_of_read? read with
  | list items =>
    cases items _ (List.mem_map_of_mem hmem) with
    | object sorted _ => exact nodup_keys sorted

end Json
end PhotoImport
