import PhotoImport.Proofs.Import.Batch
import PhotoImport.Proofs.Import.Search

/-!
# The order of the calls of a batch

A batch in memory makes its calls in one order only. First come its folders in ascending order, and
then the attempts of one file after another; of the attempts of a file all but the last one find
their targets taken. It goes well if the last one of each does, and otherwise it ends with the first
call that fails for another reason. `Course` tells these endings apart.

* `Searches.exists_attempts` — all that the loop of one transfer can do in memory. A refused attempt
  leaves nothing behind but its note, so the targets that were found taken are taken from the start;
* `exists_landings`, `exists_failed_transfer` — the same for one file after another, by induction on
  the loop over them;
* `exists_course` — and so for the batch, of which `upTo` is the part before the failure.

The main result is `place_makes_calls_in_order`.
-/

namespace PhotoImport.Place

open Path (Same)

variable {mode : TransferMode} {p : Placement} {ps : List Placement} {n : Nat} {m m' : Memory}
  {xs : List Exchange}

/-! ### Exchanges -/

/-- The calls that make some folders. -/
def made (folders : List Path) : List Exchange :=
  folders.map fun folder => ⟨.createDir folder, .ok ()⟩

/-- An attempt whose target is taken. -/
def refusal (mode : TransferMode) (p : Placement) (n : Nat) : Exchange :=
  tried mode p n (.error (.alreadyExists (attempt p.destination n)))

/-- **The attempts of a transfer** from the `n`th on: some whose targets are taken, and a last one
with its answer. -/
def attempts (mode : TransferMode) (p : Placement) (n refused : Nat)
    (last : Except StorageError Unit) : List Exchange :=
  (List.range' n refused).map (refusal mode p) ++ [tried mode p (n + refused) last]

/-- **The attempts of files that land**, one after another, with the numbers of those whose targets
are taken. -/
def landings (mode : TransferMode) (ps : List Placement) (refused : List Nat) : List Exchange :=
  (List.zipWith (fun p k => attempts mode p 0 k (.ok ())) ps refused).flatten

theorem attempts_succ (mode : TransferMode) (p : Placement) (n refused : Nat)
    (last : Except StorageError Unit) :
    attempts mode p n (refused + 1) last
      = refusal mode p n :: attempts mode p (n + 1) refused last := by
  unfold attempts
  rw [List.range'_succ, List.map_cons, List.cons_append, Nat.add_assoc, Nat.add_comm 1 refused]

/-! ### One transfer -/

/-- **All that a transfer can do**: it finds some targets taken, and then its file lands at a free
one or an attempt fails for another reason. -/
theorem Searches.exists_attempts {r : Except ImportError Path} (h : Searches mode p n m xs r m') :
    ∃ k, (∀ j < k, m.occupied (attempt p.destination (n + j)) = true) ∧
      ((∃ f, m.file? p.source = some f ∧ m.occupied (attempt p.destination (n + k)) = false ∧
          xs = attempts mode p n k (.ok ()) ∧ r = .ok (attempt p.destination (n + k)) ∧
          m' = sent mode p.source (attempt p.destination (n + k)) f
            (m.noteAll (attemptCalls mode p n (k + 1)))) ∨
        ∃ e, (∀ q, e ≠ .alreadyExists q) ∧ xs = attempts mode p n k (.error e) ∧
          r = .error (.transfer e) ∧ m' = m.noteAll (attemptCalls mode p n (k + 1))) := by
  -- by induction on the loop: a refused attempt only leaves a note, and the rest begins after it
  induction h with
  | lands answered =>
    obtain ⟨f, found, free, rfl⟩ := exists_of_send_ok answered
    exact ⟨0, nofun, .inl ⟨f, found, (Memory.obstacle?_eq_none_iff.1 free).2.1, rfl, rfl, rfl⟩⟩
  | stops answered other =>
    exact ⟨0, nofun, .inr ⟨_, other, rfl, rfl, (of_send_error answered).1⟩⟩
  | @retries n m m₁ m' q xs r answered _ ih =>
    obtain ⟨rfl, refused⟩ := of_send_error answered
    obtain ⟨rfl, taken⟩ := refused q rfl
    obtain ⟨k, later, ending⟩ := ih
    -- the attempts of the rest are those from the next one on
    have shift : ∀ j, n + 1 + j = n + (j + 1) := fun j => by omega
    simp only [shift, Memory.noteAll_note, Memory.occupied_note, Memory.file?_note,
      ← attemptCalls_succ] at later ending
    refine ⟨k + 1, fun j hj => ?_, ?_⟩
    · cases j with
      | zero => exact taken
      | succ j => exact later j (Nat.lt_of_succ_lt_succ hj)
    · rcases ending with ⟨f, found, free, rfl, rfl, rfl⟩ | ⟨e, other, rfl, rfl, rfl⟩
      · exact .inl ⟨f, found, free, (attempts_succ _ _ _ _ _).symm, rfl, rfl⟩
      · exact .inr ⟨e, other, (attempts_succ _ _ _ _ _).symm, rfl, rfl⟩

/-! ### One after another -/

/-- Files that land make their attempts one after another. -/
theorem exists_landings (h : Loops (fun p => Searches mode p 0) ps m xs (.ok ()) m') :
    ∃ refused : List Nat, refused.length = ps.length ∧ xs = landings mode ps refused := by
  generalize hr : Except.ok () = r at h
  induction h with
  | done => exact ⟨[], rfl, rfl⟩
  | fails => cases hr
  | passes passed _ ih =>
    obtain ⟨refused, each, rfl⟩ := ih hr
    obtain ⟨k, -, ⟨f, -, -, rfl, -, -⟩ | ⟨e, -, -, failed, -⟩⟩ := passed.exists_attempts
    · exact ⟨k :: refused, congrArg Nat.succ each, rfl⟩
    · cases failed

/-- Folders that are made take one call each. -/
theorem exchanges_of_made {folders : List Path} (h : Loops Makes folders m xs (.ok ()) m') :
    xs = made folders := by
  generalize hr : Except.ok () = r at h
  induction h with
  | done => rfl
  | fails => cases hr
  | @passes folder folders m m₁ m' xs ys _ _ passed _ ih =>
    rw [ih hr, passed.exchanges_of_ok]
    rfl

/-- No file changes where folders are made, or fail to be made. -/
theorem Makes.files {folder : Path} {r : Except ImportError Unit} (h : Makes folder m xs r m') :
    m'.files = m.files := by
  cases h with
  | call answered =>
    rcases Memory.createDir_cases folder m with ⟨e, same⟩ | same
    all_goals
      rw [show Memory.createDir folder m = _ from answered] at same
      cases same
      rfl

theorem files_of_makes {folders : List Path} {r : Except ImportError Unit}
    (h : Loops Makes folders m xs r m') : m'.files = m.files := by
  induction h with
  | done => rfl
  | fails failed => exact failed.files
  | passes passed _ ih => exact ih.trans passed.files

/-! ### The batch -/

/-- **A batch cut short**: all its folders are made, but only its first files are transferred. -/
def upTo (ps : List Placement) (count : Nat) (mode : TransferMode) :
    Action ImportError Memory Unit := do
  (folders ps).forM fun folder => (Store.createDir folder).mapError .transfer
  (ps.take count).forM fun p => discard (transfer mode p)

theorem result_upTo {m₁ : Memory} {ys : List Exchange} {count : Nat}
    (makes : Loops Makes (folders ps) m xs (.ok ()) m₁)
    (transferred : Loops (fun p => Searches mode p 0) (ps.take count) m₁ ys (.ok ()) m') :
    (upTo ps count mode).result m = (.ok (), m') := by
  rw [upTo, Action.result_bind_ok (result_folders makes)]
  exact result_transfers transferred

/-- **The course of a batch**, for each way in which it may end. -/
inductive Course (mode : TransferMode) (ps : List Placement) (m : Memory) :
    List Exchange → Except ImportError Nat → Memory → Prop
  /-- All folders are made, and all files land. -/
  | placed {m' : Memory} {refused : List Nat} (each : refused.length = ps.length) :
      Course mode ps m (made (folders ps) ++ landings mode ps refused) (.ok ps.length) m'
  /-- A folder cannot be made. No file has changed. -/
  | unmade {m' : Memory} {before after : List Path} {folder : Path} {e : StorageError}
      (split : folders ps = before ++ folder :: after) (files : m'.files = m.files) :
      Course mode ps m (made before ++ [⟨.createDir folder, .error e⟩]) (.error (.transfer e)) m'
  /-- A file cannot be transferred, for another reason than that the targets that it was sent to are
  taken. All is as it is when the batch is cut short before this file. -/
  | stopped {m₁ m' : Memory} {before after : List Placement} {p : Placement} {refused : List Nat}
      {k : Nat} {e : StorageError} (split : ps = before ++ p :: after)
      (each : refused.length = before.length) (other : ∀ q, e ≠ .alreadyExists q)
      (earlier : (upTo ps before.length mode).result m = (.ok (), m₁))
      (files : m'.files = m₁.files) (dirs : m'.dirs = m₁.dirs) :
      Course mode ps m
        (made (folders ps) ++ (landings mode before refused ++ attempts mode p 0 k (.error e)))
        (.error (.transfer e)) m'

/-- **Every run of a batch** takes such a course. -/
theorem Places.course {r : Except ImportError Nat} (h : Places mode ps m xs r m') :
    Course mode ps m xs r m' := by
  cases h with
  | unmade failed =>
    have files := files_of_makes failed
    obtain ⟨before, folder, after, m₁, ys, zs, split, rfl, earlier, failed⟩ := failed.exists_failed
    rw [exchanges_of_made earlier]
    obtain ⟨e, rfl, rfl⟩ := failed.exists_of_error
    exact .unmade split files
  | @made _ _ xs ys r makes transferred =>
    rw [exchanges_of_made makes]
    cases r with
    | ok =>
      obtain ⟨refused, each, rfl⟩ := exists_landings transferred
      exact .placed each
    | error =>
      obtain ⟨before, p, after, m₂, ys, zs, split, rfl, earlier, failed⟩ :=
        transferred.exists_failed
      obtain ⟨refused, each, rfl⟩ := exists_landings earlier
      obtain ⟨k, -, ⟨f, -, -, -, landed, -⟩ | ⟨e, other, rfl, hr, rfl⟩⟩ := failed.exists_attempts
      · cases landed
      · cases hr
        -- the files before the one that fails are those that the batch cut short transfers
        have first : ps.take before.length = before := by rw [split, List.take_left]
        have cut : (upTo ps before.length mode).result m = (.ok (), m₂) :=
          result_upTo makes (by rwa [first])
        exact .stopped split each other cut rfl rfl

/-- Where files land all answers are good, or tell that a target is taken. -/
theorem exists_of_mem_landings {refused : List Nat} {x : Exchange}
    (h : x ∈ landings mode ps refused) : ∃ p n answer, x = tried mode p n answer ∧
      ∀ e, answer = .error e → ∃ q, e = .alreadyExists q := by
  obtain ⟨list, hlist, hx⟩ := List.mem_flatten.1 h
  rw [← List.map_uncurry_zip_eq_zipWith] at hlist
  obtain ⟨⟨p, k⟩, -, rfl⟩ := List.mem_map.1 hlist
  rcases List.mem_append.1 hx with hx | hx
  · obtain ⟨n, -, rfl⟩ := List.mem_map.1 hx
    exact ⟨p, n, _, rfl, fun e he => ⟨_, (Except.error.inj he).symm⟩⟩
  · rw [List.mem_singleton.1 hx]
    exact ⟨p, _, _, rfl, nofun⟩

theorem answer_of_mem_made {folders : List Path} {x : Exchange} (h : x ∈ made folders) :
    x.answer = .ok () := by
  obtain ⟨folder, -, rfl⟩ := List.mem_map.1 h
  rfl

/-- **A batch goes well** if and only if each folder is made and the last attempt of each file goes
well. -/
theorem Course.ok_iff {r : Except ImportError Nat} (h : Course mode ps m xs r m') :
    (∃ count, r = .ok count) ↔ ∃ refused : List Nat, refused.length = ps.length ∧
      xs = made (folders ps) ++ landings mode ps refused := by
  cases h with
  | @placed _ refused each => exact iff_of_true ⟨_, rfl⟩ ⟨refused, each, rfl⟩
  | @unmade _ before _ folder e split files =>
    refine iff_of_false nofun ?_
    rintro ⟨refused, -, same⟩
    -- the folder that could not be made would be made, or be an attempt
    have last : (⟨.createDir folder, .error e⟩ : Exchange) ∈ made (folders ps) ++
        landings mode ps refused := same ▸ List.mem_append_right _ (List.mem_singleton_self _)
    rcases List.mem_append.1 last with last | last
    · cases answer_of_mem_made last
    · obtain ⟨p, n, answer, htried, -⟩ := exists_of_mem_landings last
      cases mode <;> cases htried
  | @stopped _ _ before _ p _ k e split _ other =>
    refine iff_of_false nofun ?_
    rintro ⟨refused, -, same⟩
    -- the last answer would be good, or tell that a target is taken
    have last : tried mode p (0 + k) (.error e) ∈
        made (folders ps) ++ landings mode ps refused := by
      rw [← same]
      exact List.mem_append_right _ (List.mem_append_right _
        (List.mem_append_right _ (List.mem_singleton_self _)))
    rcases List.mem_append.1 last with last | last
    · cases answer_of_mem_made last
    · obtain ⟨p', n, answer, htried, taken⟩ := exists_of_mem_landings last
      obtain ⟨q, rfl⟩ := taken e (congrArg Exchange.answer htried).symm
      exact other q rfl

/-- **The calls of a batch.** -/
structure InOrder (mode : TransferMode) (ps : List Placement) (m : Memory) (xs : List Exchange)
    (r : Except ImportError Nat) (m' : Memory) : Prop where
  /-- This is how the batch ends. -/
  ends : (place ps mode : Action ImportError Memory Nat).result m = (r, m')
  /-- These are its calls, and their answers. -/
  performs : Performs m xs m'
  /-- The calls are noted, and nothing else is. -/
  noted : m'.calls = m.calls ++ xs.map (·.call)
  /-- Folders come first, in ascending order, and then the attempts of each file. -/
  course : Course mode ps m xs r m'
  /-- The batch goes well if each folder is made and the last attempt of each file goes well. -/
  ok_iff : (∃ count, r = .ok count) ↔ ∃ refused : List Nat, refused.length = ps.length ∧
    xs = made (folders ps) ++ landings mode ps refused

/-- **A batch makes its calls in order**, however it ends. The folders that it makes ascend, so none
of them is made twice, and they are those of the destinations. -/
theorem place_makes_calls_in_order (m : Memory) (ps : List Placement) (mode : TransferMode) :
    (∃ xs r m', InOrder mode ps m xs r m' ∧
      ∀ ys, Performs m ys m' → ys = xs) ∧
    (folders ps).Pairwise (fun p q => p.compare q = .lt) ∧
    (∀ folder ∈ folders ps, ∃ p ∈ ps, p.destination.parent? = some folder) ∧
    ∀ p ∈ ps, ∀ folder, p.destination.parent? = some folder → ∃ q ∈ folders ps, Same q folder := by
  refine ⟨?_, SortedList.pairwise_ofList _, fun _ => exists_of_mem_folders,
    fun p hp folder => exists_mem_folders hp⟩
  obtain ⟨xs, r, m', places⟩ := exists_places mode ps m
  have performs := places.performs
  refine ⟨xs, r, m', ⟨places.result_place, performs, performs.calls, places.course,
    places.course.ok_iff⟩, fun ys other => ?_⟩
  -- the notes of the store tell which calls were made, and the calls decide the answers
  refine (other.unique performs ?_).1
  exact List.append_cancel_left (other.calls.symm.trans performs.calls)

end PhotoImport.Place
