import Mathlib.Data.List.Induction
import PhotoImport.Proofs.Import.Order
import PhotoImport.Proofs.Import.Window
import PhotoImport.Proofs.Order.SortedList

/-!
# The plan of a batch as a rule

The planner goes through a sorted batch once and keeps a counter for every folder. Here the same
plan is said without counters, as a rule for the file in each place (`ruled`): its number in the
batch is its place, and its number in its folder is one more than there are earlier files with that
folder.

* `placements_eq_ruled` — the loop follows the rule. Its invariant is `Counted`: the counter of
  every folder stands at the number of files counted there so far;
* `localNumbers_of_folder` — in each folder the files get the numbers 1, 2, … in order;
* `plan_follows_rule` — the plan of a batch whose lookups are all answered is that of the rule, for
  the files in their order.
-/

namespace PhotoImport

namespace Template

/-! ### The keys -/

/-- **The keys of a template** are those that its tokens name. -/
theorem mem_keys_iff {t : Template} {key : String} :
    key ∈ t.keys ↔ ∃ pattern, Token.metadata key pattern ∈ t.tokens := by
  have named : key ∈ t.tokens.filterMap key? ↔ ∃ pattern, Token.metadata key pattern ∈ t.tokens := by
    rw [List.mem_filterMap]
    constructor
    · rintro ⟨token, htoken, hkey⟩
      cases token with
      | metadata key' pattern =>
        cases hkey
        exact ⟨pattern, htoken⟩
      | _ => cases hkey
    · rintro ⟨pattern, htoken⟩
      exact ⟨_, htoken, rfl⟩
  rw [keys, SortedList.mem_ofList_iff, named]

/-- They ascend, so none is asked for twice. -/
theorem pairwise_keys (t : Template) : t.keys.Pairwise fun key key' => compare key key' = .lt :=
  SortedList.pairwise_ofList _

end Template

namespace Plan

/-! ### The rule -/

section Rule

variable (t : Template) (order : List (SourceFile × Values))

/-- What the template makes of a file in a place of the batch, with or without a number in its
folder, confined to the destination root. -/
def rendered (entry : SourceFile × Values) (place : Nat) (local? : Option Nat) : Path :=
  (Path.ofText (t.render
    { path := entry.1.path
      created := entry.1.created
      modified := entry.1.modified
      values := entry.2
      batchNumber := some place
      folderNumber := local? })).confine

/-- The folder in which a file in a place is counted: where it would be without a number in its
folder. -/
def scope (entry : SourceFile × Values) (place : Nat) : Path :=
  ((rendered t entry place none).parent?).getD Path.empty

/-- The folders of all files of a batch, in order. Places are counted from one. -/
def scopes : List Path := order.mapIdx fun k entry => scope t entry (k + 1)

/-- How many of some paths name a folder. -/
def countOf (folder : Path) (paths : List Path) : Nat :=
  paths.countP fun p => decide (Path.Same p folder)

/-- **The number of a file in its folder**: one more than there are files with that folder before
it, of which `k` come first. -/
def localNumber (k : Nat) (entry : SourceFile × Values) : Nat :=
  countOf (scope t entry (k + 1)) ((scopes t order).take k) + 1

/-- **Where a file goes** inside the destination root if `k` files come before it. -/
def ruled (k : Nat) (entry : SourceFile × Values) : Path :=
  let named := rendered t entry (k + 1)
    (if t.needsFolderNumber then some (localNumber t order k entry) else none)
  if named = Path.empty then ⟨entry.1.path.fileName?.getD []⟩ else named

/-- **The plan that follows the rule**, for a batch in order. -/
def ruledPlan (destination : Path) : List Placement :=
  order.mapIdx fun k entry => ⟨entry.1.absolute, destination.join (ruled t order k entry)⟩

/-- The folders of a batch with the number that each file has in its folder. -/
def localNumbers : List (Path × Nat) :=
  order.mapIdx fun k entry => (scope t entry (k + 1), localNumber t order k entry)

end Rule

variable {t : Template} {destination : Path}

/-! ### Counters -/

@[simp] theorem Counters.get_nil (folder : Path) : Counters.get [] folder = 0 := rfl

/-- A counter that is set has its count, and all others keep theirs. -/
theorem Counters.get_set (counters : Counters) (folder other : Path) (count : Nat) :
    (counters.set folder count).get other
      = if Path.Same folder other then count else counters.get other := by
  unfold Counters.get Counters.set
  by_cases same : Path.Same folder other
  · simp [same]
  · rw [if_neg same, List.find?_cons_of_neg (by simpa using same), List.find?_filter]
    congr 3
    funext entry
    -- an entry of the other folder is none of the folder that is set
    by_cases h : Path.Same entry.1 other
    · have apart : ¬ Path.Same entry.1 folder := fun h' => same (h'.symm.trans h)
      simp [h, apart]
    · simp [h]

/-- **What counters say**: the counter of every folder stands at the number of files counted there
so far. Nothing is counted for a template that does not ask. -/
def Counted (t : Template) (done : List (SourceFile × Values)) (counters : Counters) : Prop :=
  t.needsFolderNumber = true → ∀ folder, counters.get folder = countOf folder (scopes t done)

theorem counted_nil (t : Template) : Counted t [] [] := fun _ _ => rfl

@[simp] theorem length_scopes (t : Template) (order : List (SourceFile × Values)) :
    (scopes t order).length = order.length := List.length_mapIdx

theorem scopes_concat (t : Template) (done : List (SourceFile × Values))
    (entry : SourceFile × Values) :
    scopes t (done ++ [entry]) = scopes t done ++ [scope t entry (done.length + 1)] :=
  List.mapIdx_concat

/-- The folders of the first files of a batch do not depend on the others. -/
theorem take_scopes (t : Template) (done rest : List (SourceFile × Values)) :
    (scopes t (done ++ rest)).take done.length = scopes t done := by
  unfold scopes
  rw [List.mapIdx_append, List.take_left' List.length_mapIdx]

theorem countOf_concat (folder p : Path) (paths : List Path) :
    countOf folder (paths ++ [p])
      = if Path.Same p folder then countOf folder paths + 1 else countOf folder paths := by
  unfold countOf
  rw [List.countP_append, List.countP_singleton]
  by_cases h : Path.Same p folder <;> simp [h]

theorem countOf_congr {folder folder' : Path} (same : Path.Same folder folder')
    (paths : List Path) : countOf folder paths = countOf folder' paths := by
  simp only [countOf, same.congr_right]

/-- What is rendered with a number in the folder or without. -/
theorem number_eq (counters : Counters) (entry : SourceFile × Values) (place : Nat) :
    number t counters (subject entry.1 entry.2 place)
      = if t.needsFolderNumber then
          (rendered t entry place (some (counters.get (scope t entry place) + 1)),
            counters.set (scope t entry place) (counters.get (scope t entry place) + 1))
        else (rendered t entry place none, counters) := rfl

/-- The file in the next place gets the number that the rule gives it. -/
theorem Counted.number_fst {done : List (SourceFile × Values)} {counters : Counters}
    (h : Counted t done counters) (entry : SourceFile × Values)
    (rest : List (SourceFile × Values)) :
    (number t counters (subject entry.1 entry.2 (done.length + 1))).1
      = rendered t entry (done.length + 1) (if t.needsFolderNumber then
          some (localNumber t (done ++ entry :: rest) done.length entry) else none) := by
  rw [number_eq]
  split
  · next needed =>
    rw [h needed, localNumber, take_scopes]
  · rfl

/-- **Numbering a file** keeps what the counters say. -/
theorem Counted.number_snd {done : List (SourceFile × Values)} {counters : Counters}
    (h : Counted t done counters) (entry : SourceFile × Values) :
    Counted t (done ++ [entry])
      (number t counters (subject entry.1 entry.2 (done.length + 1))).2 := by
  intro needed folder
  rw [number_eq, if_pos needed, Counters.get_set, scopes_concat, countOf_concat, h needed, h needed]
  by_cases same : Path.Same (scope t entry (done.length + 1)) folder
  · rw [if_pos same, if_pos same]
    -- the counter that was advanced is that of the folder, however it is spelled
    rw [countOf_congr same]
  · rw [if_neg same, if_neg same]

/-! ### The loop follows the rule -/

theorem placements_cons (place : Nat) (counters : Counters) (entry : SourceFile × Values)
    (rest : List (SourceFile × Values)) :
    placements t destination place counters (entry :: rest)
      = ⟨entry.1.absolute, destination.join
            (nameOrOwn entry.1 (number t counters (subject entry.1 entry.2 place)).1)⟩ ::
          placements t destination (place + 1)
            (number t counters (subject entry.1 entry.2 place)).2 rest := rfl

/-- The rest of a batch is placed by the rule for the whole batch. -/
theorem placements_eq (done rest : List (SourceFile × Values)) {counters : Counters}
    (h : Counted t done counters) :
    placements t destination (done.length + 1) counters rest
      = rest.mapIdx fun i entry => ⟨entry.1.absolute,
          destination.join (ruled t (done ++ rest) (done.length + i) entry)⟩ := by
  induction rest generalizing done counters with
  | nil => rfl
  | cons entry rest ih =>
    -- the file is numbered like those before it, and then it is one of them
    have next := ih (done ++ [entry]) (h.number_snd entry)
    rw [List.length_append, List.length_singleton, List.append_assoc, List.singleton_append] at next
    rw [placements_cons, List.mapIdx_cons, next, h.number_fst entry rest]
    simp only [Nat.add_assoc, Nat.add_comm 1, Nat.add_zero]
    rfl

/-- **The loop follows the rule.** -/
theorem placements_eq_ruled (order : List (SourceFile × Values)) :
    placements t destination 1 [] order = ruledPlan t order destination := by
  have h : placements t destination 1 [] order = _ := placements_eq [] order (counted_nil t)
  simp only [List.length_nil, List.nil_append, Nat.zero_add] at h
  exact h

/-! ### Numbers without gaps -/

theorem localNumbers_concat (t : Template) (order : List (SourceFile × Values))
    (entry : SourceFile × Values) :
    localNumbers t (order ++ [entry]) = localNumbers t order
      ++ [(scope t entry (order.length + 1),
          countOf (scope t entry (order.length + 1)) (scopes t order) + 1)] := by
  unfold localNumbers
  rw [List.mapIdx_concat, localNumber, take_scopes]
  congr 1
  refine List.mapIdx_eq_mapIdx_iff.2 fun k hk => ?_
  -- the number of an earlier file depends on those before it, not on the last one
  have early : (scopes t (order ++ [entry])).take k = (scopes t order).take k := by
    rw [scopes_concat, List.take_append_of_le_length (by simpa using Nat.le_of_lt hk)]
  rw [localNumber, localNumber, early]

/-- **In each folder the files get the numbers 1, 2, … in order.** -/
theorem localNumbers_of_folder (t : Template) (order : List (SourceFile × Values)) (folder : Path) :
    ((localNumbers t order).filter fun entry => decide (Path.Same entry.1 folder)).map (·.2)
      = List.range' 1 (countOf folder (scopes t order)) := by
  induction order using List.reverseRecOn with
  | nil => rfl
  | append_singleton order entry ih =>
    rw [localNumbers_concat, List.filter_append, List.map_append, ih, scopes_concat, countOf_concat]
    -- the last file has the next number of its own folder, and none of any other
    by_cases same : Path.Same (scope t entry (order.length + 1)) folder
    · rw [if_pos same, List.range'_1_concat, ← countOf_congr same]
      simp [same, Nat.add_comm]
    · simp [same]

/-! ### The plan of a batch -/

theorem source_ruledPlan (t : Template) (order : List (SourceFile × Values)) (destination : Path) :
    (ruledPlan t order destination).map (·.source) = order.map (·.1.absolute) := by
  refine List.ext_getElem? fun k => ?_
  simp only [ruledPlan, List.getElem?_map, List.getElem?_mapIdx, Option.map_map]
  rfl

/-- The files of a batch with their values, as they are asked for one after another. Nothing is
asked for without keys. -/
def askedFor {σ : Type} (lookup : Lookup σ) (t : Template) (files : List SourceFile) :
    Action LookupFailure σ (List (SourceFile × Values)) :=
  if t.keys = [] then pure (files.map (·, [])) else Window.ask lookup t.keys files

section Plan

variable {σ : Type} {lookup : Lookup σ} {files : List SourceFile} {s s' : σ}

theorem exists_askedFor (answers : t.keys ≠ [] → ∀ f ∈ files, ∀ s,
      ∃ values s', (lookup f.absolute t.keys).result s = (.ok values, s')) (s : σ) :
    ∃ entries s', (askedFor lookup t files).result s = (.ok entries, s') ∧
      entries.map (·.1) = files := by
  unfold askedFor
  by_cases keyless : t.keys = []
  · refine ⟨files.map (·, []), s, by rw [if_pos keyless, Action.result_pure], ?_⟩
    simp [List.map_map, Function.comp_def]
  · rw [if_neg keyless]
    exact Window.exists_ask lookup t.keys (answers keyless) s

/-- A batch whose files are all answered is arranged. -/
theorem result_plan {entries : List (SourceFile × Values)}
    (asked : (askedFor lookup t files).result s = (.ok entries, s')) :
    (plan lookup files t destination).result s = (.ok (arrange t destination entries), s') := by
  unfold askedFor at asked
  unfold plan gather
  by_cases none : files = []
  · -- nothing is asked for an empty batch, which is what asking for none of its files does
    subst none
    have hnil : (askedFor lookup t []).result s = (.ok [], s) := by
      unfold askedFor
      by_cases keyless : t.keys = [] <;> simp [keyless]
    rw [askedFor, asked] at hnil
    cases hnil
    simp [arrange, placements]
  -- a batch with files is sorted with what was asked for, if anything was
  rw [if_neg (mt List.isEmpty_iff.1 none)]
  by_cases keyless : t.keys = []
  · rw [if_pos keyless, Action.result_pure] at asked
    cases asked
    rw [if_pos (List.isEmpty_iff.2 keyless)]
    rfl
  · rw [if_neg keyless] at asked
    have drained : ((Window.start files).drain lookup t.keys).result s = (.ok entries, s') := by
      rw [Window.drain_start, Action.result_mapError, asked]
      rfl
    rw [if_neg (mt List.isEmpty_iff.1 keyless), Action.result_bind_ok drained, Action.result_pure]

/-- A plan arranges the answers that its batch has got. -/
theorem exists_asked_of_plan {ps : List Placement}
    (h : (plan lookup files t destination).result s = (.ok ps, s')) :
    ∃ entries, (askedFor lookup t files).result s = (.ok entries, s') ∧
      ps = arrange t destination entries := by
  unfold askedFor
  unfold plan gather at h
  by_cases none : files = []
  · subst none
    cases h
    refine ⟨[], ?_, by simp [arrange, placements]⟩
    by_cases keyless : t.keys = [] <;> simp [keyless]
  rw [if_neg (mt List.isEmpty_iff.1 none)] at h
  obtain ⟨entries, s₁, gathered, h⟩ := Action.exists_of_bind_ok h
  cases h
  refine ⟨entries, ?_, rfl⟩
  by_cases keyless : t.keys = []
  · rw [if_pos (List.isEmpty_iff.2 keyless)] at gathered
    cases gathered
    rw [if_pos keyless, Action.result_pure]
  · rw [if_neg (mt List.isEmpty_iff.1 keyless), Window.drain_start] at gathered
    rw [if_neg keyless, Action.result_of_mapError_ok gathered]

/-- **What a batch is planned from.** Without keys its files have no values, and nothing is asked.
Otherwise the values are the replies for its files. -/
theorem askedFor_iff {entries : List (SourceFile × Values)} :
    (askedFor lookup t files).result s = (.ok entries, s') ↔
      entries.map (·.1) = files ∧ (t.keys = [] → (∀ entry ∈ entries, entry.2 = []) ∧ s' = s) ∧
        (t.keys ≠ [] → Window.Replies lookup t.keys entries s s') := by
  unfold askedFor
  by_cases keyless : t.keys = []
  · rw [if_pos keyless, Action.result_pure]
    constructor
    · rintro ⟨⟩
      exact ⟨by simp [List.map_map, Function.comp_def], fun _ => ⟨by simp, rfl⟩, absurd keyless⟩
    · rintro ⟨rfl, unasked, -⟩
      obtain ⟨bare, rfl⟩ := unasked keyless
      have same : (entries.map (·.1)).map (·, []) = entries := by
        rw [List.map_map]
        calc entries.map ((·, []) ∘ (·.1))
            = entries.map id := List.map_congr_left fun entry hentry =>
              Prod.ext rfl (bare entry hentry).symm
          _ = entries := List.map_id entries
      rw [same]
  · rw [if_neg keyless, Window.result_ask_iff]
    simp [keyless]

/-- The answers are those of the files of the batch. -/
theorem map_of_askedFor {entries : List (SourceFile × Values)}
    (asked : (askedFor lookup t files).result s = (.ok entries, s')) :
    entries.map (·.1) = files :=
  (askedFor_iff.1 asked).1

/-- **A batch that is planned by the rule**, from the values that its files have (`entries`) and
with its files in their order (`order`). -/
structure RulePlanned (lookup : Lookup σ) (files : List SourceFile) (t : Template)
    (destination : Path) (s : σ) (entries order : List (SourceFile × Values)) (s' : σ) : Prop where
  /-- The values are what is asked for. -/
  asked : (askedFor lookup t files).result s = (.ok entries, s')
  /-- The keys to ask for are those that tokens name. -/
  keys : ∀ key, key ∈ t.keys ↔ ∃ pattern, Token.metadata key pattern ∈ t.tokens
  /-- Each is asked for once, in ascending order. -/
  ascending : t.keys.Pairwise fun key key' => compare key key' = .lt
  /-- The values of a file are what the lookup replies for its full path and for these keys. The
  files are looked up one after another. -/
  replied : t.keys ≠ [] → Window.Replies lookup t.keys entries s s'
  /-- Where no token names a key, no file has values, and nothing is looked up. -/
  unasked : t.keys = [] → (∀ entry ∈ entries, entry.2 = []) ∧ s' = s
  /-- They are the values of the files of the batch. -/
  of_files : entries.map (·.1) = files
  /-- Every file has its place. -/
  perm : order.Perm entries
  /-- Each file stands before those that it comes before. -/
  sorted : order.Pairwise fun a b => a.1.Before b.1
  /-- The plan is what the rule says for the files in these places. -/
  planned : (plan lookup files t destination).result s
    = (.ok (ruledPlan t order destination), s')
  /-- There are as many placements as files. -/
  length_eq : (ruledPlan t order destination).length = files.length
  /-- Every file is the source of one placement. -/
  sources : ((ruledPlan t order destination).map (·.source)).Perm (files.map (·.absolute))
  /-- In each folder the files get the numbers 1, 2, … in order. -/
  gapless : ∀ folder, ((localNumbers t order).filter fun entry =>
      decide (Path.Same entry.1 folder)).map (·.2)
    = List.range' 1 (countOf folder (scopes t order))

/-- **The plan of a batch is that of the rule**, if the paths of its files are spelled differently
and every lookup that the template asks for is answered. -/
theorem plan_follows_rule (distinct : files.Pairwise fun f g => f.path ≠ g.path)
    (answers : t.keys ≠ [] → ∀ f ∈ files, ∀ s,
      ∃ values s', (lookup f.absolute t.keys).result s = (.ok values, s')) (s : σ) :
    ∃ entries order s', RulePlanned lookup files t destination s entries order s' := by
  obtain ⟨entries, s', asked, hfiles⟩ := exists_askedFor answers s
  have distinct' : entries.Pairwise fun a b => a.1.path ≠ b.1.path := by
    rw [← hfiles, List.pairwise_map] at distinct
    exact distinct
  have hperm : (entries.mergeSort precedes).Perm entries := List.mergeSort_perm entries precedes
  obtain ⟨-, unasked, replied⟩ := askedFor_iff.1 asked
  refine ⟨entries, entries.mergeSort precedes, s', asked, fun _ => Template.mem_keys_iff,
    t.pairwise_keys, replied, unasked, hfiles, hperm, pairwise_before_mergeSort distinct', ?_, ?_,
    ?_, fun folder => localNumbers_of_folder _ _ _⟩
  · rw [result_plan asked, arrange, placements_eq_ruled]
  · rw [ruledPlan, List.length_mapIdx, hperm.length_eq, ← hfiles, List.length_map]
  · rw [source_ruledPlan, ← hfiles, List.map_map]
    exact hperm.map _

/-- Two files from two folders with a lookup that counts how often it is asked. -/
theorem plan_follows_rule_of_two_files :
    let lookup : Lookup Nat := fun p _ => .ofResult fun n => (.ok [("Title", p.display)], n + 1)
    let files : List SourceFile :=
      [.under (.ofText "/card") (.ofText "b/2.jpg"), .under (.ofText "/card") (.ofText "a/1.jpg")]
    let t : Template := ⟨[.literal "all/", .metadata "Title" none, .sequence .folder none]⟩
    (files.Pairwise fun f g => f.path ≠ g.path) ∧
    (t.keys ≠ [] → ∀ f ∈ files, ∀ s,
      ∃ values s', (lookup f.absolute t.keys).result s = (.ok values, s')) ∧
    ∃ entries order s', RulePlanned lookup files t (.ofText "/photos") 0 entries order s' := by
  intro lookup files t
  have distinct : files.Pairwise fun f g => f.path ≠ g.path := by decide
  have answers : t.keys ≠ [] → ∀ f ∈ files, ∀ s,
      ∃ values s', (lookup f.absolute t.keys).result s = (.ok values, s') :=
    fun _ _ _ _ => ⟨_, _, rfl⟩
  exact ⟨distinct, answers, plan_follows_rule distinct answers 0⟩

end Plan

end Plan
end PhotoImport
