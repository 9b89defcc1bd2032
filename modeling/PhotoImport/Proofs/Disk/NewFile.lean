import PhotoImport.Disk.Transfer
import PhotoImport.Proofs.Disk.Tree

/-!
# Files that are made and taken away again

A copy makes its target before it knows whether there is anything to copy. What it does to a disk is
told by two facts. Where it makes a file there was nothing, so that whatever a path led to it leads
to on the disk with the file (`follow_of_kept`, `aim_of_kept`). In particular the target path points
to the file that has just been made, and taking that away leaves the disk that there was
(`removeFile_of_made`).

So a copy that fails has changed nothing, wherever it fails, and one that does not has added one
file (`copyWith_cases`). As long as nothing goes wrong by itself, its two ends tell which it is
(`copy_eq`).
-/

namespace PhotoImport.Disk

variable {d d' : Disk} {source target p : Path} {k l here : Location} {e e' : DiskEntry}
  {links : Nat} {pieces : List Bytes} {a : Aim} {faults : CopyFaults}

/-! ### Disks on which nothing is missing -/

/-- Pieces that lead somewhere lead there if nothing is missing. -/
theorem follow_of_kept (kept : Kept d d') (h : d.follow links here pieces = .ok l) :
    d'.follow links here pieces = .ok l := by
  fun_induction follow d links here pieces with
  | case1 links here =>
    rw [follow]
    exact h
  | case2 => cases h
  | case3 links here piece pieces inside silent ih =>
    have folder := kept.isFolder (Bool.not_eq_false _ ▸ inside)
    rw [follow, if_neg (by simp [folder]), if_pos silent]
    exact ih h
  | case4 links here pieces inside silent ih =>
    have folder := kept.isFolder (Bool.not_eq_false _ ▸ inside)
    rw [follow, if_neg (by simp [folder]), if_neg silent, if_pos rfl]
    exact ih h
  | case5 => cases h
  | case6 => cases h
  | case7 => cases h
  | case8 here piece pieces inside silent up short target there links ih =>
    have folder := kept.isFolder (Bool.not_eq_false _ ▸ inside)
    rw [follow, if_neg (by simp [folder]), if_neg silent, if_neg up, if_neg short,
      kept _ _ there]
    exact ih h
  | case9 links here piece pieces inside silent up short e noLink there ih =>
    have folder := kept.isFolder (Bool.not_eq_false _ ▸ inside)
    rw [follow, if_neg (by simp [folder]), if_neg silent, if_neg up, if_neg short,
      kept _ _ there]
    cases e with
    | link target => exact absurd rfl (noLink target)
    | folder => exact ih h
    | file => exact ih h

/-- A path that points somewhere points there if nothing is missing. -/
theorem aim_of_kept (kept : Kept d d') (working : d'.working = d.working) (h : d.aim p = .ok a) :
    d'.aim p = .ok a := by
  unfold aim at h ⊢
  rw [working]
  split at h
  · cases h
  · next spelled =>
    -- whatever the last piece is, those above it are followed on both disks
    cases hd : (Pieces.split Path.slash p.bytes).reverse.dropWhile (· = [])
    all_goals
      simp only [hd] at h ⊢
      split at h
      · cases h
      · next folder found =>
        rw [follow_of_kept kept found]
        split at h
        · next inside => simpa [kept.isFolder inside] using h
        · cases h

/-! ### One file more -/

/-- Replacing an entry that has just been made is making another. -/
theorem replace_add (free : d.entryAt? l = none) : (d.add l e).replace l e' = d.add l e' := by
  have elsewhere := (entryAt?_eq_none_iff (ne_nil_of_entryAt? free)).1 free
  have same : d.entries.map (fun old => if old.1 = l then (l, e') else old) = d.entries :=
    calc d.entries.map (fun old => if old.1 = l then (l, e') else old)
      _ = d.entries.map id :=
        List.map_congr_left fun entry hentry => if_neg (elsewhere entry hentry)
      _ = d.entries := List.map_id _
  rw [add, replace, add, List.map_append, same]
  simp

/-- Taking an entry away that has just been made leaves the disk that there was. -/
theorem remove_add (free : d.entryAt? l = none) : (d.add l e).remove l = d := by
  have elsewhere := (entryAt?_eq_none_iff (ne_nil_of_entryAt? free)).1 free
  have same : d.entries.filter (fun entry => decide (entry.1 ≠ l)) = d.entries :=
    List.filter_eq_self.2 fun entry hentry => decide_eq_true (elsewhere entry hentry)
  rw [add, remove, List.filter_append, same]
  simp

/-- Where a path would make a file, it points to a name in a folder at which there is nothing. -/
theorem exists_aim_of_freeLocation (h : d.freeLocation p = .ok l) :
    ∃ a name, d.aim p = .ok a ∧ a.name = some name ∧ a.slashed = false ∧
      name.length ≤ nameLimit ∧ l = a.location name ∧ d.entryAt? l = none := by
  unfold freeLocation at h
  split at h
  · cases h
  · next a haim =>
    split at h
    · cases h
    · next name hname =>
      split at h
      · cases h
      · next unslashed =>
        split at h
        · cases h
        · next short =>
          split at h
          · cases h
          · next free =>
            cases h
            exact ⟨a, name, haim, hname, Bool.eq_false_iff.2 unslashed, Nat.not_lt.1 short, rfl,
              free⟩

theorem free_at_freeLocation (h : d.freeLocation p = .ok l) : d.entryAt? l = none := by
  obtain ⟨_, _, -, -, -, -, -, free⟩ := exists_aim_of_freeLocation h
  exact free

/-- **What has just been made is found and taken away** by the path that it was made for. -/
theorem removeFile_of_made (h : d.freeLocation p = .ok l) (noFolder : e ≠ .folder) :
    (d.add l e).removeFile p = .ok d := by
  obtain ⟨a, name, haim, hname, unslashed, short, rfl, free⟩ := exists_aim_of_freeLocation h
  have aimed : (d.add (a.location name) e).aim p = .ok a :=
    aim_of_kept (kept_add free e) rfl haim
  have there : (d.add (a.location name) e).entryAt? (a.location name) = some e := by
    rw [entryAt?_add free, if_pos rfl]
  rw [removeFile, aimed]
  simp only [hname, if_neg (Nat.not_lt.2 short), there, unslashed]
  cases e with
  | folder => exact absurd rfl noFolder
  | file => rw [remove_add free]; rfl
  | link => rw [remove_add free]; rfl

/-! ### Copies, step by step -/

/-- What is at the target while it is filled, is a file. -/
theorem fill_cases (faults : CopyFaults) (e : DiskEntry) (free : d.entryAt? l = none)
    (g : DiskFile) :
    (∃ failure g', fill faults e l (d.add l (.file g)) = (.error failure, d.add l (.file g'))) ∨
    ∃ f, e = .file f ∧ faults.contents = none ∧ faults.permissions = none ∧
      fill faults e l (d.add l (.file g)) = (.ok (), d.add l (.file f.copied)) := by
  cases e with
  | folder => exact .inl ⟨_, g, rfl⟩
  | link => exact .inl ⟨_, g, rfl⟩
  | file f =>
    unfold fill
    cases hcontents : faults.contents with
    | some fault =>
      obtain ⟨count, failure⟩ := fault
      refine .inl ⟨failure, { data := f.data.take count }, ?_⟩
      simp only [replace_add free]
    | none =>
      cases hpermissions : faults.permissions with
      | some failure =>
        refine .inl ⟨failure, { data := f.data }, ?_⟩
        simp only [replace_add free]
      | none =>
        refine .inr ⟨f, rfl, rfl, rfl, ?_⟩
        simp only [replace_add free]

/-- **A copy fails and leaves the disk as it is, or makes one file**: it has the contents and the
rights of the file that the source leads to. No step has gone wrong then. -/
theorem copyWith_cases (faults : CopyFaults) (source target : Path) (d : Disk) :
    (∃ error, copyWith faults source target d = (.error error, d)) ∨
    ∃ f l, faults = {} ∧ d.lookUp source = .ok (.file f) ∧ d.freeLocation target = .ok l ∧
      copyWith faults source target d
        = (.ok (), d.add l (.file f.copied)) := by
  unfold copyWith
  cases hopened : faults.source with
  | some failure => exact .inl ⟨_, rfl⟩
  | none =>
    cases hsource : d.lookUp source with
    | error failure => exact .inl ⟨_, rfl⟩
    | ok e =>
      cases hmade : faults.target with
      | some failure => exact .inl ⟨_, rfl⟩
      | none =>
        cases htarget : d.freeLocation target with
        | error failure => exact .inl ⟨_, rfl⟩
        | ok l =>
          -- from here on the target is there, so a failure has to take it away
          rcases fill_cases faults e (free_at_freeLocation htarget) { data := [] } with
            ⟨failure, g, filled⟩ | ⟨f, rfl, hcontents, hpermissions, filled⟩
          · refine .inl ⟨.ofFailure failure target, ?_⟩
            simp only [filled, removeFile_of_made htarget (e := .file g) nofun]
          · have faultless : faults = {} := by
              cases faults
              cases hopened
              cases hmade
              cases hcontents
              cases hpermissions
              rfl
            refine .inr ⟨f, l, faultless, rfl, rfl, ?_⟩
            simp only [filled]

/-- **A copy of which no step goes wrong by itself** depends on what lies at its two ends. -/
theorem copy_eq (source target : Path) (d : Disk) : copy source target d
    = match d.lookUp source with
      | .error failure => (.error (.ofFailure failure source), d)
      | .ok e =>
        match d.freeLocation target with
        | .error failure => (.error (.ofFailure failure target), d)
        | .ok l =>
          match e with
          | .file f => (.ok (), d.add l (.file f.copied))
          | _ => (.error (.ofFailure .isFolder target), d) := by
  rw [copy, copyWith]
  cases d.lookUp source with
  | error failure => rfl
  | ok e =>
    cases htarget : d.freeLocation target with
    | error failure => rfl
    | ok l =>
      have free := free_at_freeLocation htarget
      have cleared := removeFile_of_made htarget (e := .file { data := [] }) nofun
      cases e with
      | folder => simp only [fill, cleared]
      | link => simp only [fill, cleared]
      | file f => simp only [fill, replace_add free]

end PhotoImport.Disk
