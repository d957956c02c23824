import MailFilter.Spool.Basic

/-
  What running a computation on a world gives, step by step.

  Main statements:
    * `Run.bind_apply`
    * `World.files_say`
    * `Spool.read_apply`
    * `Spool.load_apply`
-/

namespace MailFilter

namespace Run

variable {α β : Type}

/- The second computation runs on what the first one left. -/
@[simp]
theorem bind_apply
    (first : Run α)
    (next : α → Run β)
    (w : World) :
    (first >>= next) w = next (first w).1 (first w).2 :=
  rfl

@[simp]
theorem pure_apply
    (a : α)
    (w : World) :
    (pure a : Run α) w = (a, w) :=
  rfl

@[simp]
theorem get_apply
    (w : World) :
    (get : Run World) w = (w, w) :=
  rfl

end Run

namespace World

@[simp]
theorem setFiles_apply
    (files : Files)
    (w : World) :
    setFiles files w = ((), { w with files := files }) :=
  rfl

@[simp]
theorem newTransaction_apply
    (w : World) :
    newTransaction w =
      ({ id := w.transactions },
        { w with transactions := w.transactions + 1 }) :=
  rfl

@[simp]
theorem files_say
    (level : Log.Level)
    (text : String)
    (w : World) :
    (say level text w).2.files = w.files :=
  rfl

end World

namespace Spool

/- What an operation makes of the files is kept. -/
theorem attempt_of_ok
    {operation : Files → Except Fault Files}
    {w : World}
    {files : Files}
    (hOk : operation w.files = .ok files)
    (step : Step)
    (path : Path) :
    attempt step path operation w =
      (.ok (), { w with files := files }) := by
  unfold attempt
  rw [hOk]

theorem attempt_of_error
    {operation : Files → Except Fault Files}
    {w : World}
    {fault : Fault}
    (hError : operation w.files = .error fault)
    (step : Step)
    (path : Path) :
    attempt step path operation w =
      (.error ⟨step, path, fault⟩, w) := by
  unfold attempt
  rw [hError]

theorem store_of_unwritten
    {w : World}
    {path : Path}
    {content : Bytes}
    {fault : Fault}
    (hWrite : w.files.write path content = .error fault) :
    store path content w = (.error ⟨.write, path, fault⟩, w) := by
  simp only [store, write, Run.bind_apply]
  rw [attempt_of_error hWrite]
  rfl

/- What was written stays where it is if it is not kept. -/
theorem store_of_unsynced
    {w : World}
    {path : Path}
    {content : Bytes}
    {written : Files}
    {fault : Fault}
    (hWrite : w.files.write path content = .ok written)
    (hSync : written.sync path = .error fault) :
    store path content w =
      (.error ⟨.write, path, fault⟩,
        { w with files := written }) := by
  simp only [store, write, Run.bind_apply]
  rw [attempt_of_ok hWrite]
  exact attempt_of_error hSync .write path

theorem store_of_ok
    {w : World}
    {path : Path}
    {content : Bytes}
    {written : Files}
    (hWrite : w.files.write path content = .ok written)
    (hSync : written.sync path = .ok written) :
    store path content w =
      (.ok (), { w with files := written }) := by
  simp only [store, write, Run.bind_apply]
  rw [attempt_of_ok hWrite]
  exact attempt_of_ok hSync .write path

/-
  Content is stored, or it is not written, or it is written
  and not kept.
-/
theorem store_cases
    (path : Path)
    (content : Bytes)
    (w : World) :
    (∃ fault, w.files.write path content = .error fault) ∨
      ∃ written, w.files.write path content = .ok written ∧
        ((∃ fault, written.sync path = .error fault) ∨
          written.sync path = .ok written) := by
  cases hWrite : w.files.write path content with
  | error fault => exact Or.inl ⟨fault, rfl⟩
  | ok written =>
      refine Or.inr ⟨written, rfl, ?_⟩
      unfold Files.sync
      cases written.refusal .sync path with
      | some fault => exact Or.inl ⟨fault, rfl⟩
      | none => exact Or.inr rfl

theorem create_of_ok
    {w : World}
    {dir : String}
    {path : Path}
    {files : Files}
    (hOk : w.files.create dir = .ok (path, files)) :
    create dir w = (.ok path, { w with files := files }) := by
  unfold create
  rw [hOk]

theorem create_of_error
    {w : World}
    {dir : String}
    {fault : Fault}
    (hError : w.files.create dir = .error fault) :
    create dir w =
      (.error ⟨.create, .named dir, fault⟩, w) := by
  unfold create
  rw [hError]

/- Reading gives what the file holds and changes nothing. -/
theorem read_apply
    (path : Path)
    (w : World) :
    read path w =
      ((match w.files.read path with
        | .ok content => .ok content
        | .error fault => .error ⟨.read, path, fault⟩), w) := by
  unfold read
  cases w.files.read path <;> rfl

/- Loading reads the file as a message and changes nothing. -/
theorem load_apply
    (path : Path)
    (w : World) :
    load path w =
      ((match w.files.read path with
        | .error fault =>
            .error (.spool ⟨.read, path, fault⟩)
        | .ok raw =>
            match Message.parse raw with
            | .error e => .error (.parse e)
            | .ok message => .ok message), w) := by
  simp only [load, Run.bind_apply, read_apply]
  cases w.files.read path with
  | error fault => rfl
  | ok raw =>
      dsimp only
      cases Message.parse raw <;> rfl

end Spool

namespace Files

------------------------------------------------------------
-- Content
------------------------------------------------------------

/- What is read is what the file holds. -/
theorem content?_of_read
    {files : Files}
    {path : Path}
    {content : Bytes}
    (hRead : files.read path = .ok content) :
    files.content? path = some content := by
  unfold read at hRead
  split at hRead
  · cases hRead
  · split at hRead
    · rename_i file hFile
      cases hRead
      rw [content?, hFile]
      rfl
    · split at hRead <;> cases hRead

/- A reliable disk reads what a file holds. -/
theorem read_of_content?
    {files : Files}
    {path : Path}
    (hReliable : files.refusal .read path = none)
    {content : Bytes}
    (hContent : files.content? path = some content) :
    files.read path = .ok content := by
  rcases Option.map_eq_some_iff.mp hContent with
    ⟨file, hFile, rfl⟩
  unfold read
  rw [hReliable, hFile]

end Files

end MailFilter
