import MailFilter.Proofs.Run

/-
  What is known of the files after a spool file was written
  or replaced.

  Files are numbered if no number that is given out next is
  in use. Making, writing, removing and renaming files keeps
  them numbered. A disk is reliable if it refuses nothing.

  Key definitions include:
    * `Files.IsNumbered`
    * `Files.IsReliable`
    * `Files.IsReady`
    * `Spool.Exit`

  Main statements:
    * `Spool.exists_exit`
    * `Spool.Exit.content?_of_ok`
    * `Spool.exists_replace`
-/

namespace MailFilter

namespace Files

/-
  The next number is above all that are in use, as stamps or
  in the paths of spool files.
-/
def IsNumbered
    (files : Files) : Prop :=
  ∀ path file, files.file? path = some file →
    file.stamp < files.next ∧
      ∀ dir number, path = .spooled dir number →
        number < files.next

/- Nothing is refused. -/
def IsReliable
    (files : Files) : Prop :=
  ∀ step path, files.refusal step path = none

/-
  New spool files can be made in a directory, and no operation
  fails on a file that is there.
-/
structure IsReady
    (files : Files)
    (dir : String) : Prop where
  reliable : files.IsReliable
  numbered : files.IsNumbered
  directory : files.hasDirectory (.named dir) = true

------------------------------------------------------------
-- Numbered Files
------------------------------------------------------------

/- A single file that was made before the next number. -/
theorem isNumbered_singleton
    {files : Files}
    {dir : String}
    {number : Nat}
    {file : File}
    (hEntries : files.entries = [(.spooled dir number, file)])
    (hStamp : file.stamp < files.next)
    (hNumber : number < files.next) :
    files.IsNumbered := by
  intro path found hFound
  rw [file?, hEntries, List.lookup_cons] at hFound
  split at hFound
  · rename_i hSame
    cases hFound
    refine ⟨hStamp, ?_⟩
    intro other place hPath
    rw [beq_iff_eq.mp hSame] at hPath
    cases hPath
    exact hNumber
  · cases hFound

/- Putting a file whose numbers are used by then. -/
theorem IsNumbered.put
    {files : Files}
    (hNumbered : files.IsNumbered)
    {path : Path}
    {file : File}
    {next : Nat}
    (hNext : files.next ≤ next)
    (hStamp : file.stamp < next)
    (hPath :
      ∀ dir number, path = .spooled dir number →
        number < next) :
    IsNumbered { files.put path file with next := next } := by
  intro other found hFound
  have hFile :
      (files.put path file).file? other = some found := hFound
  rw [file?_put] at hFile
  split at hFile
  · rename_i hSame
    cases hFile
    exact ⟨hStamp, hSame ▸ hPath⟩
  · rcases hNumbered other found hFile with ⟨hLess, hOther⟩
    refine ⟨Nat.lt_of_lt_of_le hLess hNext, ?_⟩
    intro dir number hEq
    exact Nat.lt_of_lt_of_le (hOther dir number hEq) hNext

/- A file that is there may be changed. -/
theorem IsNumbered.change
    {files : Files}
    (hNumbered : files.IsNumbered)
    {path : Path}
    {old file : File}
    (hOld : files.file? path = some old)
    (hStamp : file.stamp ≤ files.next) :
    IsNumbered
      { files.put path file with next := files.next + 1 } := by
  refine hNumbered.put (Nat.le_succ _)
    (Nat.lt_succ_of_le hStamp) ?_
  intro dir number hEq
  exact Nat.lt_succ_of_lt
    ((hNumbered path old hOld).2 dir number hEq)

theorem IsNumbered.create
    {files after : Files}
    (hNumbered : files.IsNumbered)
    {dir : String}
    {path : Path}
    (hCreate : files.create dir = .ok (path, after)) :
    after.IsNumbered := by
  unfold Files.create at hCreate
  dsimp only at hCreate
  split at hCreate
  · cases hCreate
  · split at hCreate
    · cases hCreate
      refine hNumbered.put (Nat.le_succ _)
        (Nat.lt_succ_self _) ?_
      intro place number hEq
      cases hEq
      exact Nat.lt_succ_self _
    · cases hCreate

theorem IsNumbered.write
    {files after : Files}
    (hNumbered : files.IsNumbered)
    {path : Path}
    {content : Bytes}
    (hWrite : files.write path content = .ok after) :
    after.IsNumbered := by
  unfold Files.write at hWrite
  split at hWrite
  · split at hWrite
    · cases hWrite
      exact hNumbered
    · cases hWrite
  · split at hWrite
    · cases hWrite
      exact hNumbered
    · rename_i file hFile
      cases hWrite
      exact hNumbered.change hFile (Nat.le_refl _)

theorem IsNumbered.drop
    {files : Files}
    (hNumbered : files.IsNumbered)
    (path : Path) :
    (files.drop path).IsNumbered := by
  intro other found hFound
  rw [file?_drop] at hFound
  split at hFound
  · cases hFound
  · exact hNumbered other found hFound

/- A file may take a path whose number was used. -/
theorem IsNumbered.rename
    {files after : Files}
    (hNumbered : files.IsNumbered)
    {source target : Path}
    (hTarget :
      ∀ dir number, target = .spooled dir number →
        number < files.next)
    (hRename : files.rename source target = .ok after) :
    after.IsNumbered := by
  unfold Files.rename at hRename
  split at hRename
  · cases hRename
  · split at hRename
    · cases hRename
    · rename_i file hFile
      cases hRename
      exact (hNumbered.drop source).put (Nat.le_refl _)
        (hNumbered source file hFile).1 hTarget

/- A disk is still ready when a file was made. -/
theorem IsReady.create
    {files after : Files}
    {dir : String}
    (hReady : files.IsReady dir)
    {place : String}
    {path : Path}
    (hCreate : files.create place = .ok (path, after)) :
    after.IsReady dir := by
  have hNumbered := hReady.numbered.create hCreate
  unfold Files.create at hCreate
  dsimp only at hCreate
  split at hCreate
  · cases hCreate
  · split at hCreate
    · cases hCreate
      exact ⟨hReady.reliable, hNumbered, hReady.directory⟩
    · cases hCreate

/- The files when a temporary file was discarded. -/
def without
    (files : Files)
    (path : Path) : Files :=
  match files.remove path with
  | .ok after => after
  | .error _ => files

/- A file that took another path left its own. -/
theorem file?_of_rename
    {files after : Files}
    {source target : Path}
    (hRename : files.rename source target = .ok after)
    {other : Path}
    (hTarget : other ≠ target) :
    after.file? other =
      if other = source then none else files.file? other := by
  unfold rename at hRename
  split at hRename
  · cases hRename
  · split at hRename
    · cases hRename
    · cases hRename
      rw [file?_put, if_neg hTarget, file?_drop]

/- The path of the next spool file is free. -/
theorem IsNumbered.ne_of_file?
    {files : Files}
    (hNumbered : files.IsNumbered)
    {path : Path}
    {file : File}
    (hFile : files.file? path = some file)
    (dir : String) :
    path ≠ .spooled dir files.next := by
  intro hEq
  exact Nat.lt_irrefl _
    ((hNumbered path file hFile).2 dir files.next hEq)

end Files

namespace Spool

------------------------------------------------------------
-- Replacing A File
------------------------------------------------------------

/- A new spool file is empty. -/
theorem file?_of_create
    {files after : Files}
    {dir : String}
    {path : Path}
    (hCreate : files.create dir = .ok (path, after)) :
    path = .spooled dir files.next ∧
      after.file? path =
          some ⟨files.next, files.next, []⟩ := by
  unfold Files.create at hCreate
  dsimp only at hCreate
  split at hCreate
  · cases hCreate
  · split at hCreate
    · cases hCreate
      refine ⟨rfl, ?_⟩
      change (files.put _ _).file? _ = _
      rw [Files.file?_put, if_pos rfl]
    · cases hCreate

/- A file that was written holds what was written. -/
theorem content?_of_write
    {files after : Files}
    {path : Path}
    {file : File}
    {content : Bytes}
    (hFile : files.file? path = some file)
    (hEmpty : file.content = [])
    (hWrite : files.write path content = .ok after) :
    after.content? path = some content := by
  unfold Files.write at hWrite
  split at hWrite
  · split at hWrite
    · rename_i hNone
      cases hWrite
      rw [List.isEmpty_iff] at hNone
      simp [Files.content?, hFile, hEmpty, hNone]
    · cases hWrite
  · rw [hFile] at hWrite
    cases hWrite
    change ((files.put _ _).file? _).map _ = _
    rw [Files.file?_put, if_pos rfl]
    rfl

/-
  A file that took the place of another one holds what it
  held before.
-/
theorem content?_of_rename
    {files after : Files}
    {fresh path : Path}
    (hRename :
      (files.drop path).rename fresh path = .ok after) :
    after.content? path = files.content? fresh := by
  unfold Files.rename at hRename
  split at hRename
  · cases hRename
  · split at hRename
    · cases hRename
    · rename_i file hFile
      cases hRename
      rw [Files.file?_drop] at hFile
      split at hFile
      · cases hFile
      · simp [Files.content?, hFile]

theorem eq_drop_of_remove
    {files after : Files}
    {path : Path}
    (hRemove : files.remove path = .ok after) :
    after = files.drop path := by
  unfold Files.remove at hRemove
  split at hRemove
  · cases hRemove
  · split at hRemove
    · cases hRemove
    · exact (Except.ok.inj hRemove).symm

/- Only the temporary file is gone when it was discarded. -/
theorem file?_without
    {files : Files}
    {path : Path}
    (hRemovable : files.refusal .remove path = none)
    (other : Path) :
    (files.without path).file? other =
      if other = path then none else files.file? other := by
  cases hFile : files.file? path with
  | none =>
      have hSame : files.without path = files := by
        simp only [Files.without, Files.remove, hRemovable, hFile]
      rw [hSame]
      split
      · rename_i hPath
        rw [hPath, hFile]
      · rfl
  | some file =>
      have hDrop : files.without path = files.drop path := by
        simp only [Files.without, Files.remove, hRemovable, hFile]
      rw [hDrop, Files.file?_drop]

theorem discard_eq
    (path : Path)
    (w : World) :
    discard path w =
      ((), { w with files := w.files.without path }) := by
  unfold discard Files.without
  cases w.files.remove path <;> rfl

/- A file is gone after its removal unless that is refused. -/
theorem remove_apply
    (path : Path)
    (w : World) :
    ∃ after,
      remove path w = ((), after) ∧
        after.journal = w.journal ∧
        (w.files.refusal .remove path = none →
          after.files.file? path = none) := by
  unfold remove
  cases hRemove : w.files.remove path with
  | ok files =>
      refine ⟨_, rfl, rfl, fun _ => ?_⟩
      change files.file? path = none
      rw [eq_drop_of_remove hRemove, Files.file?_drop,
        if_pos rfl]
  | error fault =>
      refine ⟨_, rfl, rfl, fun hAllowed => ?_⟩
      change w.files.file? path = none
      unfold Files.remove at hRemove
      rw [hAllowed] at hRemove
      dsimp only at hRemove
      split at hRemove
      · assumption
      · cases hRemove

/-
  How replacing the file at a path by some content can end: the
  steps are done in order up to the first that fails, which the
  error names, and then the temporary file is discarded.
-/
inductive Exit
    (dir : String)
    (path : Path)
    (content : Bytes)
    (before : Files) : Except SpoolError Unit → Files → Prop
  | notCreated {fault : Fault}
      (create : before.create dir = .error fault) :
      Exit dir path content before
        (.error ⟨.create, .named dir, fault⟩) before
  | notWritten {fresh : Path} {made : Files} {fault : Fault}
      (create : before.create dir = .ok (fresh, made))
      (write : made.write fresh content = .error fault) :
      Exit dir path content before
        (.error ⟨.write, fresh, fault⟩) (made.without fresh)
  | notSynced {fresh : Path} {made filled : Files}
      {fault : Fault}
      (create : before.create dir = .ok (fresh, made))
      (write : made.write fresh content = .ok filled)
      (sync : filled.sync fresh = .error fault) :
      Exit dir path content before
        (.error ⟨.write, fresh, fault⟩) (filled.without fresh)
  | notRemoved {fresh : Path} {made filled : Files}
      {fault : Fault}
      (create : before.create dir = .ok (fresh, made))
      (write : made.write fresh content = .ok filled)
      (sync : filled.sync fresh = .ok filled)
      (remove : filled.remove path = .error fault) :
      Exit dir path content before
        (.error ⟨.remove, path, fault⟩) (filled.without fresh)
  | notRenamed {fresh : Path} {made filled : Files}
      {fault : Fault}
      (create : before.create dir = .ok (fresh, made))
      (write : made.write fresh content = .ok filled)
      (sync : filled.sync fresh = .ok filled)
      (remove : filled.remove path = .ok (filled.drop path))
      (rename :
        (filled.drop path).rename fresh path = .error fault) :
      Exit dir path content before
        (.error ⟨.rename, path, fault⟩)
        ((filled.drop path).without fresh)
  | replaced {fresh : Path} {made filled after : Files}
      (create : before.create dir = .ok (fresh, made))
      (write : made.write fresh content = .ok filled)
      (sync : filled.sync fresh = .ok filled)
      (remove : filled.remove path = .ok (filled.drop path))
      (rename : (filled.drop path).rename fresh path = .ok after) :
      Exit dir path content before (.ok ()) after

/- Replacing a file takes one of the exits. -/
theorem exists_exit
    (dir : String)
    (path : Path)
    (parts : List Bytes)
    (w : World) :
    ∃ result after,
      replace dir path parts w =
          (result, { w with files := after }) ∧
        Exit dir path parts.flatten w.files result after := by
  simp only [replace, Run.bind_apply]
  cases hCreate : w.files.create dir with
  | error fault =>
      rw [create_of_error hCreate]
      exact ⟨_, _, rfl, .notCreated hCreate⟩
  | ok made =>
      rcases made with ⟨fresh, made⟩
      rw [create_of_ok hCreate]
      simp only [Run.bind_apply]
      rcases store_cases fresh parts.flatten
          { w with files := made } with
        ⟨fault, hWrite⟩ | ⟨filled, hWrite, ⟨fault, hSync⟩ | hSync⟩
      · rw [store_of_unwritten hWrite]
        simp only [Run.bind_apply, discard_eq]
        exact ⟨_, _, rfl, .notWritten hCreate hWrite⟩
      · rw [store_of_unsynced hWrite hSync]
        simp only [Run.bind_apply, discard_eq]
        exact ⟨_, _, rfl, .notSynced hCreate hWrite hSync⟩
      · rw [store_of_ok hWrite hSync]
        simp only [Run.bind_apply]
        cases hRemove : filled.remove path with
        | error fault =>
            rw [attempt_of_error hRemove]
            simp only [Run.bind_apply, discard_eq]
            exact ⟨_, _, rfl,
              .notRemoved hCreate hWrite hSync hRemove⟩
        | ok removed =>
            rw [attempt_of_ok hRemove]
            simp only [Run.bind_apply]
            have hDrop := eq_drop_of_remove hRemove
            subst hDrop
            cases hRename :
                (filled.drop path).rename fresh path with
            | error fault =>
                rw [attempt_of_error hRename]
                simp only [Run.bind_apply, discard_eq]
                exact ⟨_, _, rfl,
                  .notRenamed hCreate hWrite hSync hRemove
                    hRename⟩
            | ok after =>
                rw [attempt_of_ok hRename]
                exact ⟨_, _, rfl,
                  .replaced hCreate hWrite hSync hRemove hRename⟩

/- A file that was replaced holds the content. -/
theorem Exit.content?_of_ok
    {dir : String}
    {path : Path}
    {content : Bytes}
    {before after : Files}
    (hExit : Exit dir path content before (.ok ()) after) :
    after.content? path = some content := by
  cases hExit with
  | replaced create write sync remove rename =>
      rw [content?_of_rename rename]
      exact content?_of_write (file?_of_create create).2 rfl write

theorem content?_of_replace
    {w after : World}
    {dir : String}
    {path : Path}
    {parts : List Bytes}
    (hReplace : replace dir path parts w = (.ok (), after)) :
    after.files.content? path = some parts.flatten := by
  rcases exists_exit dir path parts w with
    ⟨result, files, hExits, hExit⟩
  cases hReplace.symm.trans hExits
  exact hExit.content?_of_ok

/- A new file is made in a directory that is ready for it. -/
theorem exists_create
    {files : Files}
    {dir : String}
    (hReady : files.IsReady dir) :
    ∃ after,
      files.create dir = .ok (.spooled dir files.next, after) ∧
        after.IsReady dir ∧
        ∀ other, other ≠ .spooled dir files.next →
          after.file? other = files.file? other := by
  have hCreate :
      files.create dir =
        .ok (.spooled dir files.next,
            { files.put (.spooled dir files.next)
                ⟨files.next, files.next, []⟩ with
              next := files.next + 1 }) := by
    unfold Files.create
    dsimp only
    rw [hReady.reliable, hReady.directory]
    rfl
  refine ⟨_, hCreate, hReady.create hCreate, ?_⟩
  intro other hOther
  change (files.put _ _).file? other = _
  rw [Files.file?_put, if_neg hOther]

/- A file that is there is written. -/
theorem exists_write
    {files : Files}
    {dir : String}
    (hReady : files.IsReady dir)
    {path : Path}
    {file : File}
    (hFile : files.file? path = some file)
    (content : Bytes) :
    ∃ after,
      files.write path content = .ok after ∧
        after.IsReady dir ∧
        after.content? path = some content ∧
        ∀ other, other ≠ path →
          after.file? other = files.file? other := by
  have hWrite :
      files.write path content =
        .ok { files.put path
            { file with
              content := content, stamp := files.next } with
            next := files.next + 1 } := by
    unfold Files.write
    rw [hReady.reliable, hFile]
  refine ⟨_, hWrite, ⟨hReady.reliable,
    hReady.numbered.write hWrite, hReady.directory⟩, ?_, ?_⟩
  · change ((files.put _ _).file? _).map _ = _
    rw [Files.file?_put, if_pos rfl]
    rfl
  · intro other hOther
    change (files.put _ _).file? other = _
    rw [Files.file?_put, if_neg hOther]

/- What is written to a reliable disk is kept. -/
theorem sync_of_isReliable
    {files : Files}
    (hReliable : files.IsReliable)
    (path : Path) :
    files.sync path = .ok files := by
  unfold Files.sync
  rw [hReliable]

/-
  A file takes the path of another one, which is removed
  before.
-/
theorem exists_rename
    {files : Files}
    {dir : String}
    (hReady : files.IsReady dir)
    {fresh path : Path}
    (hOther : fresh ≠ path)
    {old new : File}
    (hOld : files.file? path = some old)
    (hNew : files.file? fresh = some new) :
    ∃ after,
      files.remove path = .ok (files.drop path) ∧
        (files.drop path).rename fresh path = .ok after ∧
        after.IsReady dir := by
  have hRemove : files.remove path = .ok (files.drop path) := by
    unfold Files.remove
    rw [hReady.reliable, hOld]
  have hRename :
      (files.drop path).rename fresh path =
        .ok (((files.drop path).drop fresh).put path new) := by
    have hDropped : (files.drop path).file? fresh = some new := by
      rw [Files.file?_drop, if_neg hOther, hNew]
    have hRefusal :
        (files.drop path).refusal .rename path = none :=
      hReady.reliable .rename path
    unfold Files.rename
    rw [hRefusal, hDropped]
  have hNumbered :=
    (hReady.numbered.drop path).rename
      (hReady.numbered path old hOld).2 hRename
  exact ⟨_, hRemove, hRename,
    ⟨hReady.reliable, hNumbered, hReady.directory⟩⟩

/- A file that is there is replaced. -/
theorem exists_replace
    {w : World}
    {dir : String}
    (hReady : w.files.IsReady dir)
    {path : Path}
    {file : File}
    (hFile : w.files.file? path = some file)
    (parts : List Bytes) :
    ∃ files,
      replace dir path parts w =
          (.ok (), { w with files := files }) ∧
        files.IsReady dir := by
  have hFresh := hReady.numbered.ne_of_file? hFile dir
  rcases exists_create hReady with
    ⟨made, hCreate, hMade, hOthers⟩
  rcases exists_write hMade (file?_of_create hCreate).2
      parts.flatten with
    ⟨filled, hWrite, hFilled, hContent, hKept⟩
  have hOld : filled.file? path = some file := by
    rw [hKept path hFresh, hOthers path hFresh, hFile]
  rcases Option.map_eq_some_iff.mp hContent with
    ⟨new, hNew, _⟩
  rcases exists_rename hFilled hFresh.symm hOld hNew with
    ⟨after, hRemove, hRename, hAfter⟩
  refine ⟨after, ?_, hAfter⟩
  simp only [replace, Run.bind_apply]
  rw [create_of_ok hCreate]
  simp only [Run.bind_apply]
  rw [store_of_ok hWrite (sync_of_isReliable hFilled.reliable _)]
  simp only [Run.bind_apply]
  rw [attempt_of_ok hRemove]
  simp only [Run.bind_apply]
  rw [attempt_of_ok hRename]
  rfl

end Spool

end MailFilter
