import PhotoImport.Proofs.Disk.NothingReplaced

/-!
# What transfers that fail leave behind

Nothing (`failed_transfers_leave_no_trace`): whatever goes wrong, and at whichever step, the disk is
as it was. This is so for every disk, whatever lies at the two ends of the transfer or on the way to
them. The one step that could leave something behind is the filling of a target that has been made,
and that is the target which the clean-up finds and takes away (`copyWith_cases`).

A copy that succeeds has made one file and changed nothing else (`Copied`). The file is where the
target path leads from then on (`resolve_of_made`), and has the contents and the permission bits of
the file that the source path leads to.
-/

namespace PhotoImport.Disk

variable {d d' : Disk} {source target p : Path} {l : Location} {f g : DiskFile}
  {faults : CopyFaults} {error : StorageError}

/-- **What has just been made** is where the path leads that it was made for. -/
theorem resolve_of_made (h : d.freeLocation p = .ok l) (g : DiskFile) :
    (d.add l (.file g)).resolve p = .ok l := by
  obtain ⟨a, name, haim, hname, unslashed, short, rfl, free⟩ := exists_aim_of_freeLocation h
  have aimed : (d.add (a.location name) (.file g)).aim p = .ok a :=
    aim_of_kept (kept_add free _) rfl haim
  have there : (d.add (a.location name) (.file g)).entryAt? (a.location name)
      = some (.file g) := by
    rw [entryAt?_add free, if_pos rfl]
  exact (reaches_of_aim aimed hname).resolve_of_file short there unslashed

/-- The folder is there in which a path would make a file. -/
theorem isFolder_of_freeLocation (h : d.freeLocation p = .ok l) :
    d.isFolder l.dropLast = true := by
  obtain ⟨a, name, haim, hname, -, -, rfl, -⟩ := exists_aim_of_freeLocation h
  rw [Aim.location, List.dropLast_concat]
  exact (reaches_of_aim haim hname).folder

/-- **What a copy leaves behind**: the disk `d'` is the disk `d` with one file `g` more, at the
location `l` to which the target leads, with what the file `f` has to which the source leads. -/
structure Copied (source target : Path) (d d' : Disk) (l : Location) (f g : DiskFile) : Prop where
  /-- The source leads to a file. -/
  source : d.lookUp source = .ok (.file f)
  /-- Nothing was at the location, and a folder is above it. -/
  free : d.entryAt? l = none
  folder : d.isFolder l.dropLast = true
  /-- The new file is there, and the target leads to it. -/
  there : d'.entryAt? l = some (.file g)
  target : d'.resolve target = .ok l
  /-- It has the contents and the permission bits of the source. -/
  data : g.data = f.data
  executable : g.executable = f.executable
  rights : g.rights = f.rights
  /-- Nothing else has changed. -/
  entries : d'.entries = d.entries ++ [(l, .file g)]
  others : ∀ k ≠ l, d'.entryAt? k = d.entryAt? k
  working : d'.working = d.working

/-- **A copy that fails** has changed nothing. -/
theorem eq_of_copyWith_error (h : copyWith faults source target d = (.error error, d')) :
    d' = d := by
  rcases copyWith_cases faults source target d with ⟨e, failed⟩ | ⟨f, l, -, -, -, copied⟩
  · rw [failed] at h
    exact (congrArg Prod.snd h).symm
  · rw [copied] at h
    cases h

/-- **A copy that succeeds** has made one file. -/
theorem exists_of_copyWith_ok (h : copyWith faults source target d = (.ok (), d')) :
    ∃ l f g, Copied source target d d' l f g := by
  rcases copyWith_cases faults source target d with
    ⟨e, failed⟩ | ⟨f, l, -, hsource, htarget, copied⟩
  · rw [failed] at h
    cases h
  · rw [copied] at h
    obtain rfl : d.add l (.file f.copied) = d' := congrArg Prod.snd h
    have free := free_at_freeLocation htarget
    refine ⟨l, f, f.copied, ?_⟩
    exact {
      source := hsource
      free
      folder := isFolder_of_freeLocation htarget
      there := by rw [entryAt?_add free, if_pos rfl]
      target := resolve_of_made htarget _
      data := rfl
      executable := rfl
      rights := rfl
      entries := rfl
      others := fun k hk => by rw [entryAt?_add free, if_neg hk]
      working := rfl }

/-- A copy succeeds if no step goes wrong by itself, the source leads to a file, and the target to
nothing in a folder. -/
theorem exists_copyWith_ok_iff : (∃ d', copyWith faults source target d = (.ok (), d')) ↔
    faults = {} ∧ (∃ f, d.lookUp source = .ok (.file f)) ∧ ∃ l, d.freeLocation target = .ok l := by
  constructor
  · rintro ⟨d', h⟩
    rcases copyWith_cases faults source target d with
      ⟨e, failed⟩ | ⟨f, l, faultless, hsource, htarget, -⟩
    · rw [failed] at h
      cases h
    · exact ⟨faultless, ⟨f, hsource⟩, l, htarget⟩
  · rintro ⟨rfl, ⟨f, hsource⟩, l, htarget⟩
    refine ⟨d.add l (.file f.copied), ?_⟩
    show copy source target d = _
    rw [copy_eq, hsource]
    simp only [htarget]

/-- **A move that fails** has changed nothing. -/
theorem eq_of_rename_error (h : rename source target d = (.error error, d')) : d' = d := by
  unfold rename at h
  split at h
  · exact (congrArg Prod.snd h).symm
  · exact (congrArg Prod.snd h).symm
  · split at h
    · exact (congrArg Prod.snd h).symm
    · cases h

/-- **Transfers that fail leave no trace.** On every disk, with any two paths, and wherever a copy
goes wrong, the disk is as it was before a copy or a move that fails. A copy that succeeds leaves one
new file behind, and one that meets a file, a free name in a folder and no fault does succeed. -/
theorem failed_transfers_leave_no_trace (d : Disk) (source target : Path) :
    (∀ faults error d', copyWith faults source target d = (.error error, d') → d' = d) ∧
    (∀ faults d', copyWith faults source target d = (.ok (), d') →
      ∃ l f g, Copied source target d d' l f g) ∧
    (∀ faults, (∃ d', copyWith faults source target d = (.ok (), d')) ↔ faults = {} ∧
      (∃ f, d.lookUp source = .ok (.file f)) ∧ ∃ l, d.freeLocation target = .ok l) ∧
    ∀ error d', rename source target d = (.error error, d') → d' = d := by
  refine ⟨?_, ?_, ?_, ?_⟩
  · intro faults error d' failed
    exact eq_of_copyWith_error failed
  · intro faults d' copied
    exact exists_of_copyWith_ok copied
  · intro faults
    exact exists_copyWith_ok_iff
  · intro error d' failed
    exact eq_of_rename_error failed

/-- A folder that is copied like a file, a copy that breaks off behind its first byte, a move to a
link that leads to itself, and a copy that nobody but its owner may read. -/
theorem failed_transfers_leave_no_trace_of_folder_and_loop :
    let f : DiskFile := { data := [1, 2], rights := 0b000_11_000_000 }
    let d : Disk := { entries := [([Utf8.encode "a.jpg"], .file f), ([Utf8.encode "day"], .folder),
      ([Utf8.encode "loop"], .link (.ofText "loop"))] }
    let broken : CopyFaults := { contents := some (1, .numbered .other "Input/output error" 5) }
    (∃ error, copy (.ofText "day") (.ofText "day/b.jpg") d = (.error error, d)) ∧
    (∃ error, copyWith broken (.ofText "a.jpg") (.ofText "day/b.jpg") d = (.error error, d)) ∧
    (∃ error, rename (.ofText "a.jpg") (.ofText "loop") d = (.error error, d)) ∧
    ∃ d' l g, copy (.ofText "a.jpg") (.ofText "day/b.jpg") d = (.ok (), d') ∧
      Copied (.ofText "a.jpg") (.ofText "day/b.jpg") d d' l f g := by
  intro f d broken
  have folder : d.lookUp (.ofText "day") = .ok .folder := by cbv
  have file : d.lookUp (.ofText "a.jpg") = .ok (.file f) := by cbv
  have free : d.freeLocation (.ofText "day/b.jpg")
      = .ok [Utf8.encode "day", Utf8.encode "b.jpg"] := by cbv
  have circular : d.exists? (.ofText "loop") = .error .tooManyLinks := by cbv
  refine ⟨?_, ?_, ?_, ?_⟩
  · obtain ⟨unchanged, -, succeeds, -⟩ :=
      failed_transfers_leave_no_trace d (.ofText "day") (.ofText "day/b.jpg")
    rcases h : copy (.ofText "day") (.ofText "day/b.jpg") d with ⟨error | made, d'⟩
    · exact ⟨error, by rw [unchanged {} error d' h]⟩
    · obtain ⟨-, ⟨g, hg⟩, -⟩ := (succeeds {}).1 ⟨d', h⟩
      rw [folder] at hg
      cases hg
  · obtain ⟨unchanged, -, succeeds, -⟩ :=
      failed_transfers_leave_no_trace d (.ofText "a.jpg") (.ofText "day/b.jpg")
    rcases h : copyWith broken (.ofText "a.jpg") (.ofText "day/b.jpg") d with ⟨error | made, d'⟩
    · exact ⟨error, by rw [unchanged broken error d' h]⟩
    · obtain ⟨faultless, -⟩ := (succeeds broken).1 ⟨d', h⟩
      cases congrArg CopyFaults.contents faultless
  · obtain ⟨-, -, -, unchanged⟩ :=
      failed_transfers_leave_no_trace d (.ofText "a.jpg") (.ofText "loop")
    rcases h : rename (.ofText "a.jpg") (.ofText "loop") d with ⟨error | made, d'⟩
    · exact ⟨error, by rw [unchanged error d' h]⟩
    · rw [rename, circular] at h
      cases h
  · obtain ⟨-, made, succeeds, -⟩ :=
      failed_transfers_leave_no_trace d (.ofText "a.jpg") (.ofText "day/b.jpg")
    obtain ⟨d', copied⟩ := (succeeds {}).2 ⟨rfl, ⟨f, file⟩, _, free⟩
    obtain ⟨l, f', g, h⟩ := made {} d' copied
    obtain rfl : f = f' := by
      have same := file.symm.trans h.source
      cases same
      rfl
    exact ⟨d', l, g, copied, h⟩

end PhotoImport.Disk
