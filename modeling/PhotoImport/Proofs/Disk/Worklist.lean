import Mathlib.Logic.Hydra
import PhotoImport.Proofs.Disk.Reached

/-!
# Walks with a list of folders to read

A walk keeps a stack of folders that are to be read. It takes the first folder, reads its entries in
whatever order the system has them, and looks at one after another: a file is found, a folder comes
on the stack, and everything else is passed over. Here this is a relation between states
(`Walking.Step`), with the ways in which a walk breaks off (`Walking.Fails`) and those in which it
ends (`Walking.Run`).

On a hierarchy no walk goes on for ever, whatever its links do (`Walking.step_wellFounded`). Each
step replaces one thing that is to be done by others that are less (`Walking.cutExpand_of_step`):
what is in a folder lies deeper than the folder, and links are not entered.
-/

namespace PhotoImport.Disk

open PhotoImport.Path (Same IsName dot)

/-! ### The walk, step by step -/

/-- The entries of the folder that a path leads to. -/
def readFolder (d : Disk) (folder : Path) : Except SystemFailure (List (Bytes × DiskEntry)) :=
  match d.resolve folder with
  | .error failure => .error failure
  | .ok l => if d.isFolder l then .ok (d.entriesIn l) else .error .notFolder

/-- Only folders are read. -/
theorem exists_of_readFolder_ok {d : Disk} {folder : Path} {listing : List (Bytes × DiskEntry)}
    (listed : d.readFolder folder = .ok listing) :
    ∃ l, d.resolve folder = .ok l ∧ d.isFolder l = true ∧ listing = d.entriesIn l := by
  unfold readFolder at listed
  split at listed
  · cases listed
  · next l hl =>
    split at listed
    · next inside =>
      cases listed
      exact ⟨l, hl, inside, rfl⟩
    · cases listed

/-- What becomes of an entry. -/
inductive Verdict where
  | file (f : SourceFile)
  | descend (folder : Path)
  | skip

/-- The verdict on the entry of a folder that has this path, this name, and is of this kind. -/
def judge (d : Disk) (root : Path) (filter : MediaFilter) (recursive : Bool) (p : Path)
    (name : Bytes) (e : DiskEntry) : Except StorageError Verdict :=
  if name.head? = some dot then .ok .skip
  else if e = .folder then .ok (if recursive then .descend p else .skip)
  else (d.foundFile root filter p).map fun found => found.elim .skip .file

/-- **A walk under way.** -/
structure Walking where
  /-- The folders that are to be read, the next one first. -/
  stack : List Path
  /-- The folder that is being read. -/
  current : Path
  /-- Its entries that have not been looked at. -/
  reading : List (Bytes × DiskEntry)
  /-- The files that have been found. -/
  found : List SourceFile

namespace Walking

/-- A walk that begins. -/
def start (root : Path) : Walking := ⟨[root], root, [], []⟩

/-- The walk behind an entry. -/
def after (s : Walking) : Verdict → Walking
  | .file f => { s with found := s.found ++ [f] }
  | .descend folder => { s with stack := folder :: s.stack }
  | .skip => s

/-- Behind what may be a file, this has been found, if it is one. -/
theorem after_elim (s : Walking) (found : Option SourceFile) :
    s.after (found.elim .skip .file) = { s with found := s.found ++ found.toList } := by
  cases found with
  | none =>
    rw [Option.toList_none, List.append_nil]
    rfl
  | some f => rfl

section Runs

variable (d : Disk) (root : Path) (filter : MediaFilter) (recursive : Bool)

/-- **One step of a walk.** A folder is read if nothing is left of the one before it; one that has
gone is passed over, unless it is the root. -/
inductive Step : Walking → Walking → Prop
  | read {folder current : Path} {stack : List Path} {found : List SourceFile}
    {listing entries : List (Bytes × DiskEntry)} (listed : d.readFolder folder = .ok listing)
    (order : entries.Perm listing) :
    Step ⟨folder :: stack, current, [], found⟩ ⟨stack, folder, entries, found⟩
  | gone {folder current : Path} {stack : List Path} {found : List SourceFile}
    {failure : SystemFailure} (failed : d.readFolder folder = .error failure)
    (missing : failure.kind = .notFound ∧ ¬ Same folder root) :
    Step ⟨folder :: stack, current, [], found⟩ ⟨stack, current, [], found⟩
  | look {current : Path} {stack : List Path} {name : Bytes} {e : DiskEntry}
    {reading : List (Bytes × DiskEntry)} {found : List SourceFile} {verdict : Verdict}
    (judged : d.judge root filter recursive (current.join ⟨name⟩) name e = .ok verdict) :
    Step ⟨stack, current, (name, e) :: reading, found⟩
      (after ⟨stack, current, reading, found⟩ verdict)

/-- **How a walk breaks off.** -/
inductive Fails : Walking → StorageError → Prop
  | read {folder current : Path} {stack : List Path} {found : List SourceFile}
    {failure : SystemFailure} (failed : d.readFolder folder = .error failure)
    (fatal : ¬ (failure.kind = .notFound ∧ ¬ Same folder root)) :
    Fails ⟨folder :: stack, current, [], found⟩ (.ofFailure failure folder)
  | look {current : Path} {stack : List Path} {name : Bytes} {e : DiskEntry}
    {reading : List (Bytes × DiskEntry)} {found : List SourceFile} {error : StorageError}
    (judged : d.judge root filter recursive (current.join ⟨name⟩) name e = .error error) :
    Fails ⟨stack, current, (name, e) :: reading, found⟩ error

/-- **How a walk ends**: with the files that it has found, or at the first failure. -/
inductive Run : Walking → Except StorageError (List SourceFile) → Prop
  | done {current : Path} {found : List SourceFile} : Run ⟨[], current, [], found⟩ (.ok found)
  | failed {s : Walking} {error : StorageError} (h : Fails d root filter recursive s error) :
    Run s (.error error)
  | step {s s' : Walking} {r : Except StorageError (List SourceFile)}
    (h : Step d root filter recursive s s') (rest : Run s' r) : Run s r

end Runs

variable {d : Disk} {root : Path} {filter : MediaFilter} {recursive : Bool} {s s' : Walking}
  {r : Except StorageError (List SourceFile)} {l : Location}

/-- A walk is over, breaks off, or goes on. -/
theorem done_or_fails_or_step (d : Disk) (root : Path) (filter : MediaFilter) (recursive : Bool)
    (s : Walking) : (s.stack = [] ∧ s.reading = []) ∨
      (∃ error, Fails d root filter recursive s error) ∨
      ∃ s', Step d root filter recursive s s' := by
  obtain ⟨stack, current, reading, found⟩ := s
  cases reading with
  | cons entry reading =>
    refine .inr ?_
    cases hjudge : d.judge root filter recursive (current.join ⟨entry.1⟩) entry.1 entry.2 with
    | error error => exact .inl ⟨error, .look hjudge⟩
    | ok verdict => exact .inr ⟨_, .look hjudge⟩
  | nil =>
    cases stack with
    | nil => exact .inl ⟨rfl, rfl⟩
    | cons folder stack =>
      refine .inr ?_
      cases hread : d.readFolder folder with
      | ok listing => exact .inr ⟨_, .read hread (.refl listing)⟩
      | error failure =>
        by_cases missing : failure.kind = .notFound ∧ ¬ Same folder root
        · exact .inr ⟨_, .gone hread missing⟩
        · exact .inl ⟨_, .read hread missing⟩

/-! ### Walks come to an end -/

/-- **How much may be below a path**: twice as much as folders may lie one in another there. -/
def rank (d : Disk) (p : Path) : Nat :=
  match d.resolve p with
  | .error _ => 0
  | .ok l => if d.isFolder l then 2 * (d.entries.length + 1 - l.length) else 0

/-- How much an entry may lead to: more than its folder, if it is one. -/
def entryRank (d : Disk) (p : Path) (e : DiskEntry) : Nat := if e = .folder then rank d p + 1 else 0

/-- How much may be below each thing that is to be done. -/
def ranks (d : Disk) (s : Walking) : Multiset Nat :=
  (s.stack.map (rank d) : Multiset Nat) +
    (s.reading.map fun entry => entryRank d (s.current.join ⟨entry.1⟩) entry.2 : Multiset Nat)

/-- **What is in a folder** may lead to less than the folder. -/
theorem entryRank_lt (h : d.Hierarchy) {p : Path} (hp : d.resolve p = .ok l)
    (folder : d.isFolder l = true) {entry : Bytes × DiskEntry} (hentry : entry ∈ d.entriesIn l) :
    entryRank d (p.join ⟨entry.1⟩) entry.2 < rank d p := by
  -- no folder lies deeper than there are entries, so the difference does not run out
  have deep : l.length ≤ d.entries.length := h.length_le (isFolder_iff.1 folder)
  have above : rank d p = 2 * (d.entries.length + 1 - l.length) := by
    rw [rank, hp]
    exact if_pos folder
  unfold entryRank
  split
  · next isFolder =>
    have there : d.entryAt? (l ++ [entry.1]) = some .folder := by
      rw [h.entryAt?_iff (by simp), ← isFolder]
      exact mem_entriesIn.1 hentry
    have isName : IsName entry.1 := h.isName there _ (by simp)
    have below : rank d (p.join ⟨entry.1⟩) ≤ 2 * (d.entries.length - l.length) := by
      unfold rank
      split
      · exact Nat.zero_le _
      · next k hk =>
        -- where it leads, it leads one folder deeper
        obtain rfl := eq_of_resolve_join hp isName there folder hk
        split
        · rw [List.length_append, List.length_singleton]
          omega
        · exact Nat.zero_le _
    omega
  · omega

/-- Where a walk is to go on at an entry, this is a folder, and the walk goes on there. -/
theorem eq_of_judge_descend {p q : Path} {name : Bytes} {e : DiskEntry}
    (judged : d.judge root filter recursive p name e = .ok (.descend q)) : e = .folder ∧ q = p := by
  unfold judge at judged
  split at judged
  · cases judged
  · split at judged
    · next folder =>
      cases recursive with
      | true =>
        cases judged
        exact ⟨folder, rfl⟩
      | false => cases judged
    · rcases hfound : d.foundFile root filter p with error | _ | f
      all_goals
        rw [hfound] at judged
        cases judged

/-- The ranks of what comes on the stack with a verdict. -/
def ranksOf (d : Disk) : Verdict → Multiset Nat
  | .descend folder => {rank d folder}
  | _ => 0

theorem ranks_after (d : Disk) (s : Walking) (verdict : Verdict) :
    ranks d (s.after verdict) = ranks d s + ranksOf d verdict := by
  cases verdict with
  | descend folder =>
    show ((rank d folder :: s.stack.map (rank d) : List Nat) : Multiset Nat) + _ = _ + _ + _
    rw [← Multiset.cons_coe, ← Multiset.singleton_add]
    ac_rfl
  | file f => exact (add_zero _).symm
  | skip => exact (add_zero _).symm

theorem ranks_cons_stack (d : Disk) (folder current : Path) (stack : List Path)
    (found : List SourceFile) : ranks d ⟨folder :: stack, current, [], found⟩
      = (stack.map (rank d) : Multiset Nat) + {rank d folder} := by
  show ((rank d folder :: stack.map (rank d) : List Nat) : Multiset Nat) + 0 = _
  rw [← Multiset.cons_coe, ← Multiset.singleton_add]
  ac_rfl

theorem ranks_cons_reading (d : Disk) (stack : List Path) (current : Path)
    (entry : Bytes × DiskEntry) (reading : List (Bytes × DiskEntry)) (found : List SourceFile) :
    ranks d ⟨stack, current, entry :: reading, found⟩
      = ranks d ⟨stack, current, reading, found⟩ +
        {entryRank d (current.join ⟨entry.1⟩) entry.2} := by
  show _ + ((_ :: reading.map _ : List Nat) : Multiset Nat) = _ + _ + _
  rw [← Multiset.cons_coe, ← Multiset.singleton_add]
  ac_rfl

/-- **Each step replaces** one thing that is to be done by others that may lead to less. -/
theorem cutExpand_of_step (h : d.Hierarchy) (step : Step d root filter recursive s s') :
    Relation.CutExpand (· < ·) (ranks d s') (ranks d s) := by
  cases step with
  | @read folder current stack found listing entries listed order =>
    obtain ⟨l, hl, inside, rfl⟩ := exists_of_readFolder_ok listed
    rw [ranks_cons_stack]
    -- the folder is replaced by its entries
    refine (Relation.cutExpand_add_left _).2 (Relation.cutExpand_singleton fun n hn => ?_)
    rw [Multiset.mem_coe, List.mem_map] at hn
    obtain ⟨entry, hentry, rfl⟩ := hn
    exact entryRank_lt h hl inside (order.mem_iff.1 hentry)
  | @gone folder current stack found failure failed missing =>
    rw [ranks_cons_stack]
    exact (Relation.cutExpand_add_left _).2 (Relation.cutExpand_singleton nofun)
  | @look current stack name e reading found verdict judged =>
    rw [ranks_cons_reading, ranks_after]
    refine (Relation.cutExpand_add_left _).2 (Relation.cutExpand_singleton fun n hn => ?_)
    cases verdict with
    | descend q =>
      obtain ⟨rfl, rfl⟩ := eq_of_judge_descend judged
      obtain rfl := Multiset.mem_singleton.1 hn
      show _ < entryRank d (current.join ⟨name⟩) .folder
      rw [entryRank, if_pos rfl]
      exact Nat.lt_succ_self _
    | file f => exact absurd hn (Multiset.notMem_zero n)
    | skip => exact absurd hn (Multiset.notMem_zero n)

/-- **No walk goes on for ever.** -/
theorem step_wellFounded (h : d.Hierarchy) (root : Path) (filter : MediaFilter) (recursive : Bool) :
    WellFounded fun s' s => Step d root filter recursive s s' := by
  have replaced : WellFounded (Relation.CutExpand (fun n m : Nat => n < m)) :=
    wellFounded_lt.cutExpand
  exact Subrelation.wf (fun step => cutExpand_of_step h step) (InvImage.wf (ranks d) replaced)

end Walking

end PhotoImport.Disk
