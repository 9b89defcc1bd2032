import PhotoImport.Proofs.Import.Transfer
import PhotoImport.Proofs.Storage.Performs

/-!
# The search for a free name ends

A transfer tries one alternative of its destination after another for as long as they are taken.
`Searches` is this loop without any bound: it goes on as often as an attempt is refused, and has a
run only if it ends. `Places` is a batch with such loops. A search that is long enough does what
the loop does (`Searches.result_search`), so its bound is none where the loop ends within it.

In memory it always does. The alternatives of a path are different places whatever the path looks
like, also where it has no name to put a number in, so one of the first is free
(`exists_first_free`), and at a free one an attempt is not refused (`send_cases`). The main result
is `place_ends`.
-/

namespace PhotoImport

namespace Place

variable {mode : TransferMode} {p : Placement} {ps : List Placement} {n : Nat}

/-! ### The loop -/

section Loop

variable {σ : Type} [Store σ] {s s' : σ} {xs : List Exchange} {r : Except ImportError Path}

/-- An attempt with its answer. -/
def tried (mode : TransferMode) (p : Placement) (n : Nat) (answer : Except StorageError Unit) :
    Exchange :=
  ⟨sendCall mode p.source (attempt p.destination n), answer⟩

/-- **The loop of a transfer**, from the `n`th attempt on: the file lands, or the attempt fails for
another reason than that its target is taken, or the next one is tried. -/
inductive Searches (mode : TransferMode) (p : Placement) :
    Nat → σ → List Exchange → Except ImportError Path → σ → Prop
  | lands {n : Nat} {s s' : σ}
      (sent : (send mode p.source (attempt p.destination n)).result s = (.ok (), s')) :
      Searches mode p n s [tried mode p n (.ok ())] (.ok (attempt p.destination n)) s'
  | stops {n : Nat} {s s' : σ} {e : StorageError}
      (failed : (send mode p.source (attempt p.destination n)).result s = (.error e, s'))
      (other : ∀ q, e ≠ .alreadyExists q) :
      Searches mode p n s [tried mode p n (.error e)] (.error (.transfer e)) s'
  | retries {n : Nat} {s s₁ s' : σ} {q : Path} {xs : List Exchange} {r : Except ImportError Path}
      (refused : (send mode p.source (attempt p.destination n)).result s
        = (.error (.alreadyExists q), s₁))
      (rest : Searches mode p (n + 1) s₁ xs r s') :
      Searches mode p n s (tried mode p n (.error (.alreadyExists q)) :: xs) r s'

/-- What a store answers decides how the loop goes on. -/
theorem Searches.unique : Functional (Searches mode p n (σ := σ)) := by
  intro s xs r s' ys r' s'' h h'
  -- by induction on the first run: the second one gets the same answer, so it goes the same way
  induction h generalizing ys with
  | lands sent =>
    cases h' with
    | lands sent' =>
      rw [sent] at sent'
      cases sent'
      exact ⟨rfl, rfl, rfl⟩
    | stops failed' _ => rw [sent] at failed'; cases failed'
    | retries refused' _ => rw [sent] at refused'; cases refused'
  | stops failed other =>
    cases h' with
    | lands sent' => rw [failed] at sent'; cases sent'
    | stops failed' _ =>
      rw [failed] at failed'
      cases failed'
      exact ⟨rfl, rfl, rfl⟩
    | retries refused' _ =>
      rw [failed] at refused'
      cases refused'
      exact absurd rfl (other _)
  | retries refused _ ih =>
    cases h' with
    | lands sent' => rw [refused] at sent'; cases sent'
    | stops failed' other' =>
      rw [refused] at failed'
      cases failed'
      exact absurd rfl (other' _)
    | retries refused' rest' =>
      rw [refused] at refused'
      cases refused'
      obtain ⟨rfl, rfl, rfl⟩ := ih rest'
      exact ⟨rfl, rfl, rfl⟩

/-- **A search that is long enough is the loop.** -/
theorem Searches.result_search (h : Searches mode p n s xs r s') {tries : Nat}
    (enough : xs.length ≤ tries) : (search mode p tries n).result s = (r, s') := by
  induction h generalizing tries with
  | lands sent =>
    obtain ⟨tries, rfl⟩ := Nat.exists_eq_add_of_le' enough
    exact search_of_sent sent
  | stops failed other =>
    obtain ⟨tries, rfl⟩ := Nat.exists_eq_add_of_le' enough
    exact search_of_failed failed other
  | retries refused _ ih =>
    -- one of the attempts is used up, and the others are enough for the rest
    obtain ⟨tries, rfl⟩ := Nat.exists_eq_add_of_le' (Nat.le_trans (Nat.le_add_left 1 _) enough)
    rw [search_of_taken refused]
    exact ih (Nat.le_of_succ_le_succ enough)

theorem make_tried (mode : TransferMode) (p : Placement) (n : Nat)
    (answer : Except StorageError Unit) :
    ((tried mode p n answer).call.make : Action StorageError σ Unit)
      = send mode p.source (attempt p.destination n) := by
  cases mode <;> rfl

/-- The loop makes calls only. -/
theorem Searches.performs (h : Searches mode p n s xs r s') : Performs s xs s' := by
  induction h with
  | lands sent => exact .single (by rw [make_tried]; exact sent)
  | stops failed _ => exact .single (by rw [make_tried]; exact failed)
  | retries refused _ ih => exact .cons (by rw [make_tried]; exact refused) ih

end Loop

/-! ### The loop in memory -/

section Memory

variable {m m' : Memory} {xs : List Exchange} {r : Except ImportError Path}

/-- **An attempt in memory** moves the file that is there to a target that nothing forbids; or the
target is taken; or it fails for another reason. Where it fails it is only noted. -/
theorem send_cases (mode : TransferMode) (source target : Path) (m : Memory) :
    (∃ f, m.file? source = some f ∧ m.obstacle? target = none ∧
      (send mode source target : Action StorageError Memory Unit).result m
        = (.ok (), sent mode source target f (m.note (sendCall mode source target)))) ∨
    (m.occupied target = true ∧
      (send mode source target : Action StorageError Memory Unit).result m
        = (.error (.alreadyExists target), m.note (sendCall mode source target))) ∨
    ∃ e, (∀ q, e ≠ .alreadyExists q) ∧
      (send mode source target : Action StorageError Memory Unit).result m
        = (.error e, m.note (sendCall mode source target)) := by
  cases found : m.file? source with
  | none => exact .inr (.inr ⟨.notFound source, nofun, result_send_missing found⟩)
  | some f =>
    cases obstacle : m.obstacle? target with
    | none => exact .inl ⟨f, rfl, rfl, result_send_ok found obstacle⟩
    | some e =>
      rcases Memory.obstacle?_cases obstacle with ⟨rfl, taken⟩ | other
      · exact .inr (.inl ⟨taken, result_send_error found obstacle⟩)
      · exact .inr (.inr ⟨e, other, result_send_error found obstacle⟩)

/-- An attempt that goes well finds its file, and nothing forbids its target. -/
theorem exists_of_send_ok {source target : Path}
    (answered : (send mode source target : Action StorageError Memory Unit).result m
      = (.ok (), m')) :
    ∃ f, m.file? source = some f ∧ m.obstacle? target = none ∧
      m' = sent mode source target f (m.note (sendCall mode source target)) := by
  rcases send_cases mode source target m with
    ⟨f, found, free, same⟩ | ⟨-, same⟩ | ⟨e, -, same⟩
  all_goals rw [answered] at same
  · exact ⟨f, found, free, (Prod.mk.inj same).2⟩
  · cases same
  · cases same

/-- An attempt that fails is only noted; and if it tells that a path is taken then it is its target,
and so it is. -/
theorem of_send_error {source target : Path} {e : StorageError}
    (answered : (send mode source target : Action StorageError Memory Unit).result m
      = (.error e, m')) :
    m' = m.note (sendCall mode source target) ∧
      ∀ q, e = .alreadyExists q → q = target ∧ m.occupied target = true := by
  rcases send_cases mode source target m with
    ⟨f, -, -, same⟩ | ⟨taken, same⟩ | ⟨e', other, same⟩
  all_goals
    rw [answered] at same
    cases same
  · refine ⟨rfl, fun q hq => ?_⟩
    cases hq
    exact ⟨rfl, taken⟩
  · exact ⟨rfl, fun q hq => absurd hq (other q)⟩

/-- The loop ends at a free alternative, if it does not end before. -/
theorem exists_searches_of_free {k : Nat}
    (free : m.occupied (attempt p.destination (n + k)) = false) :
    ∃ xs r m', Searches mode p n m xs r m' ∧ xs.length ≤ k + 1 := by
  induction k generalizing n m with
  | zero =>
    rcases send_cases mode p.source (attempt p.destination n) m with
      ⟨f, -, -, sent⟩ | ⟨taken, -⟩ | ⟨e, other, failed⟩
    · exact ⟨_, _, _, .lands sent, Nat.le_refl 1⟩
    · -- a free alternative is not taken
      rw [Nat.add_zero, taken] at free
      cases free
    · exact ⟨_, _, _, .stops failed other, Nat.le_refl 1⟩
  | succ k ih =>
    rcases send_cases mode p.source (attempt p.destination n) m with
      ⟨f, -, -, sent⟩ | ⟨-, refused⟩ | ⟨e, other, failed⟩
    · exact ⟨_, _, _, .lands sent, Nat.succ_le_succ (Nat.zero_le _)⟩
    · -- what is refused is only noted, so the free alternative is one step nearer
      have nearer : (m.note (sendCall mode p.source (attempt p.destination n))).occupied
          (attempt p.destination (n + 1 + k)) = false := by
        rw [Nat.add_assoc, Nat.add_comm 1 k]
        exact free
      obtain ⟨xs, r, m', rest, few⟩ := ih nearer
      exact ⟨_, r, m', .retries refused rest, Nat.succ_le_succ few⟩
    · exact ⟨_, _, _, .stops failed other, Nat.succ_le_succ (Nat.zero_le _)⟩

/-- **The loop ends** in every store in memory, after no more attempts than there are files and
folders, plus one. -/
theorem exists_searches (mode : TransferMode) (p : Placement) (m : Memory) :
    ∃ xs r m', Searches mode p 0 m xs r m' ∧ xs.length ≤ Store.size m + 1 := by
  obtain ⟨k, hk, -, free⟩ := exists_first_free m p.destination
  rw [← Nat.zero_add k] at free
  obtain ⟨xs, r, m', searches, few⟩ := exists_searches_of_free free
  exact ⟨xs, r, m', searches, Nat.le_trans few hk⟩

theorem Searches.length_le (h : Searches mode p 0 m xs r m') : xs.length ≤ Store.size m + 1 := by
  obtain ⟨ys, r', m'', searches, few⟩ := exists_searches mode p m
  obtain ⟨rfl, -, -⟩ := h.unique searches
  exact few

/-- **A transfer in memory is the loop.** -/
theorem Searches.result_transfer (h : Searches mode p 0 m xs r m') :
    (transfer mode p : Action ImportError Memory Path).result m = (r, m') := by
  rw [transfer, Action.result_bind_ok (Action.result_get m)]
  exact h.result_search h.length_le

end Memory

/-! ### Batches -/

section Batch

variable {σ : Type} [Store σ] {s s' : σ} {xs : List Exchange}

/-- A folder of a batch is made by one call. -/
inductive Makes (folder : Path) : σ → List Exchange → Except ImportError Unit → σ → Prop
  | call {s s' : σ} {answer : Except StorageError Unit}
      (answered : (Store.createDir folder).result s = (answer, s')) :
      Makes folder s [⟨.createDir folder, answer⟩] (answer.mapError .transfer) s'

theorem Makes.unique (folder : Path) : Functional (Makes folder (σ := σ)) := by
  rintro s xs r s' ys r' s'' ⟨answered⟩ ⟨answered'⟩
  rw [answered] at answered'
  cases answered'
  exact ⟨rfl, rfl, rfl⟩

/-- A folder is made by a call that answers well. -/
theorem Makes.exchanges_of_ok {folder : Path} (h : Makes folder s xs (.ok ()) s') :
    xs = [⟨.createDir folder, .ok ()⟩] := by
  generalize hr : Except.ok () = r at h
  cases h with
  | @call _ answer answered =>
    cases answer with
    | ok => rfl
    | error => cases hr

/-- Where a folder is not made the call tells why. -/
theorem Makes.exists_of_error {folder : Path} {e : ImportError}
    (h : Makes folder s xs (.error e) s') :
    ∃ cause, e = .transfer cause ∧ xs = [⟨.createDir folder, .error cause⟩] := by
  generalize hr : Except.error e = r at h
  cases h with
  | @call _ answer answered =>
    cases answer with
    | ok => cases hr
    | error cause =>
      cases hr
      exact ⟨cause, rfl, rfl⟩

theorem Makes.performs {folder : Path} {r : Except ImportError Unit} (h : Makes folder s xs r s') :
    Performs s xs s' := by
  cases h with
  | call answered => exact .single answered

theorem Makes.result_createDir {folder : Path} {r : Except ImportError Unit}
    (h : Makes folder s xs r s') :
    ((Store.createDir folder : Action StorageError σ Unit).mapError ImportError.transfer).result s
      = (r, s') := by
  cases h with
  | call answered => rw [Action.result_mapError, answered]

/-- **A batch with loops that have no bound**: its folders are made, and then its files are
transferred one after another, until anything fails. -/
inductive Places (mode : TransferMode) (ps : List Placement) :
    σ → List Exchange → Except ImportError Nat → σ → Prop
  | unmade {s s' : σ} {xs : List Exchange} {e : ImportError}
      (failed : Loops Makes (folders ps) s xs (.error e) s') : Places mode ps s xs (.error e) s'
  | made {s s₁ s' : σ} {xs ys : List Exchange} {r : Except ImportError Unit}
      (made : Loops Makes (folders ps) s xs (.ok ⟨⟩) s₁)
      (transferred : Loops (fun p => Searches mode p 0) ps s₁ ys r s') :
      Places mode ps s (xs ++ ys) (r.map fun _ => ps.length) s'

/-- A batch has one run at most. -/
theorem Places.unique : Functional (Places mode ps (σ := σ)) := by
  rintro s xs r s' ys r' s'' (failed | ⟨made, transferred⟩) (failed' | ⟨made', transferred'⟩)
  · obtain ⟨rfl, herror, rfl⟩ := Loops.unique Makes.unique failed failed'
    cases herror
    exact ⟨rfl, rfl, rfl⟩
  · cases (Loops.unique Makes.unique failed made').2.1
  · cases (Loops.unique Makes.unique made failed').2.1
  · obtain ⟨rfl, -, rfl⟩ := Loops.unique Makes.unique made made'
    obtain ⟨rfl, rfl, rfl⟩ := Loops.unique (fun _ => Searches.unique) transferred transferred'
    exact ⟨rfl, rfl, rfl⟩

/-- A batch makes calls only. -/
theorem Places.performs {r : Except ImportError Nat} (h : Places mode ps s xs r s') :
    Performs s xs s' := by
  cases h with
  | unmade failed => exact failed.performs fun _ _ _ _ _ => Makes.performs
  | made made transferred =>
    exact (made.performs fun _ _ _ _ _ => Makes.performs).append
      (transferred.performs fun _ _ _ _ _ => Searches.performs)

end Batch

section Memory

variable {m m' : Memory} {xs : List Exchange}

theorem result_folders {folders : List Path} {r : Except ImportError Unit}
    (h : Loops Makes folders m xs r m') :
    (folders.forM fun folder =>
        (Store.createDir folder : Action StorageError Memory Unit).mapError
          ImportError.transfer).result m = (r, m') := by
  refine h.result_forM fun folder s xs r s' made => ?_
  rw [made.result_createDir]
  cases r <;> rfl

theorem result_transfers {r : Except ImportError Unit}
    (h : Loops (fun p => Searches mode p 0) ps m xs r m') :
    (ps.forM fun p => discard (transfer mode p : Action ImportError Memory Path)).result m
      = (r, m') := by
  refine h.result_forM fun p m xs r m' searches => ?_
  show ((fun _ => PUnit.unit) <$> transfer mode p).result m = _
  rw [Action.result_map, searches.result_transfer]

/-- **A batch in memory** is the one whose loops have no bound. -/
theorem Places.result_place {r : Except ImportError Nat} (h : Places mode ps m xs r m') :
    (place ps mode : Action ImportError Memory Nat).result m = (r, m') := by
  unfold place
  cases h with
  | unmade failed => exact Action.result_bind_error (result_folders failed)
  | @made _ _ _ _ r made transferred =>
    rw [Action.result_bind_ok (result_folders made)]
    cases r with
    | error e => exact Action.result_bind_error (result_transfers transferred)
    | ok => exact Action.result_bind_ok (result_transfers transferred)

/-- Every batch in memory has a run. -/
theorem exists_places (mode : TransferMode) (ps : List Placement) (m : Memory) :
    ∃ xs r m', Places mode ps m xs r m' := by
  have makes : ∀ folder (m : Memory), ∃ xs r m', Makes folder m xs r m' :=
    fun folder m => ⟨_, _, _, .call rfl⟩
  have searches : ∀ p (m : Memory), ∃ xs r m', Searches mode p 0 m xs r m' := fun p m => by
    obtain ⟨xs, r, m', h, -⟩ := exists_searches mode p m
    exact ⟨xs, r, m', h⟩
  obtain ⟨xs, e | ⟨⟩, m₁, made⟩ := exists_loops makes (folders ps) m
  · exact ⟨xs, _, m₁, .unmade made⟩
  · obtain ⟨ys, r, m', transferred⟩ := exists_loops searches ps m₁
    exact ⟨xs ++ ys, _, m', .made made transferred⟩

/-- **Placing ends.** In memory the loop of a transfer has exactly one run, and it is what the
transfer does. It makes no more attempts than there are files and folders, plus one; so if there are
fewer than `UInt64.size - 1` of them, the attempts can be numbered from one in 64 bits. And so every
batch has exactly one run, and it is what placing does. -/
theorem place_ends (m : Memory) (mode : TransferMode) :
    (∀ p : Placement, ∃ xs r m', Searches mode p 0 m xs r m' ∧
      (∀ ys r' m'', Searches mode p 0 m ys r' m'' → ys = xs ∧ r' = r ∧ m'' = m') ∧
      (transfer mode p : Action ImportError Memory Path).result m = (r, m') ∧
      xs.length ≤ 1 + m.files.length + m.dirs.length ∧
      (m.files.length + m.dirs.length < UInt64.size - 1 → xs.length < UInt64.size)) ∧
    ∀ ps : List Placement, ∃ xs r m', Places mode ps m xs r m' ∧
      (∀ ys r' m'', Places mode ps m ys r' m'' → ys = xs ∧ r' = r ∧ m'' = m') ∧
      (place ps mode : Action ImportError Memory Nat).result m = (r, m') := by
  constructor
  · intro p
    obtain ⟨xs, r, m', searches, few⟩ := exists_searches mode p m
    have size : Store.size m = m.files.length + m.dirs.length := rfl
    refine ⟨xs, r, m', searches, fun ys r' m'' other => other.unique searches,
      searches.result_transfer, ?_, fun fits => ?_⟩
    all_goals omega
  · intro ps
    obtain ⟨xs, r, m', places⟩ := exists_places mode ps m
    exact ⟨xs, r, m', places, fun ys r' m'' other => other.unique places, places.result_place⟩

end Memory

end Place
end PhotoImport
