import MailFilter.Proofs.Spool.Replace

/-
  Which paths lead to files, and what the operations on spool
  files change about that.

  Two states of the disk have the same places if the same
  paths lead to files in both, some paths aside. A replacement
  file takes the place of the file that it replaces or is
  discarded, so that replacing a file leaves the places of all
  other files.

  Key definitions include:
    * `Files.SamePlaces`
    * `Files.IsFresh`
    * `Files.LetsRemove`
    * `Files.OneMore`

  Main statements:
    * `Files.OneMore.close`
    * `Spool.samePlaces_of_remove`
    * `Spool.samePlaces_replace`
-/

namespace MailFilter

namespace Files

/- No file is kept from being removed. -/
def LetsRemove
    (files : Files) : Prop :=
  ∀ path, files.refusal .remove path = none

/-
  The same paths lead to files, those to be skipped aside. The
  links are the same too, no number is given out again, and
  files can be removed if they could be before.
-/
structure SamePlaces
    (skip : Path → Prop)
    (before after : Files) : Prop where
  present :
    ∀ path, ¬ skip path →
      (after.file? path).isSome = (before.file? path).isSome
  links : after.links = before.links
  next : before.next ≤ after.next
  removal : before.LetsRemove → after.LetsRemove

/- No spool file has a number that is still to be given out. -/
def IsFresh
    (skip : Path → Prop)
    (files : Files) : Prop :=
  ∀ dir number, ¬ skip (.spooled dir number) →
    files.next ≤ number →
    files.file? (.spooled dir number) = none

variable {skip : Path → Prop}
variable {files before between after : Files}

namespace SamePlaces

@[refl]
theorem refl
    (skip : Path → Prop)
    (files : Files) :
    SamePlaces skip files files :=
  ⟨fun _ _ => rfl, rfl, Nat.le_refl _, id⟩

theorem trans
    (hFirst : SamePlaces skip before between)
    (hSecond : SamePlaces skip between after) :
    SamePlaces skip before after := by
  refine ⟨?_, hSecond.links.trans hFirst.links,
    Nat.le_trans hFirst.next hSecond.next,
    fun hRemoval => hSecond.removal (hFirst.removal hRemoval)⟩
  intro path hPath
  exact (hSecond.present path hPath).trans
    (hFirst.present path hPath)

/- More paths may be skipped. -/
theorem mono
    (hSame : SamePlaces skip before after)
    {more : Path → Prop}
    (hMore : ∀ path, skip path → more path) :
    SamePlaces more before after :=
  ⟨fun path hPath =>
      hSame.present path fun hSkip => hPath (hMore path hSkip),
    hSame.links, hSame.next, hSame.removal⟩

/- A skipped path that leads where it did need not be skipped. -/
theorem close
    {other : Path}
    (hSame :
      SamePlaces (fun path => skip path ∨ path = other)
        before after)
    (hOther :
      ¬ skip other →
        (after.file? other).isSome =
          (before.file? other).isSome) :
    SamePlaces skip before after := by
  refine ⟨?_, hSame.links, hSame.next, hSame.removal⟩
  intro path hPath
  by_cases hEq : path = other
  · subst hEq
    exact hOther hPath
  · exact hSame.present path fun hSkip =>
      hSkip.elim hPath hEq

/- No number below those that are given out is used later. -/
theorem isFresh
    (hSame : SamePlaces skip before after)
    (hFresh : before.IsFresh skip) :
    after.IsFresh skip := by
  intro dir number hPath hNumber
  have hNone :=
    hFresh dir number hPath (Nat.le_trans hSame.next hNumber)
  have hPresent := hSame.present _ hPath
  rw [hNone] at hPresent
  simpa using hPresent

/- Links lead where they did. -/
theorem resolve
    (hSame : SamePlaces skip before after)
    (path : Path) :
    after.resolve path = before.resolve path := by
  unfold Files.resolve
  rw [hSame.links]

end SamePlaces

theorem IsFresh.mono
    (hFresh : files.IsFresh skip)
    {more : Path → Prop}
    (hMore : ∀ path, skip path → more path) :
    files.IsFresh more :=
  fun dir number hPath =>
    hFresh dir number fun hSkip => hPath (hMore _ hSkip)

/- Numbered files are in nobody's way. -/
theorem IsNumbered.isFresh
    (hNumbered : files.IsNumbered)
    (skip : Path → Prop) :
    files.IsFresh skip := by
  intro dir number _ hNumber
  rw [Option.eq_none_iff_forall_ne_some]
  intro file hFile
  have hLess :=
    (hNumbered _ file hFile).2 dir number rfl
  exact Nat.not_lt_of_le hNumber hLess

------------------------------------------------------------
-- Operations
------------------------------------------------------------

namespace SamePlaces

/- A path that leads to a file may lead to another one. -/
theorem put
    {path : Path}
    (hPath : ¬ skip path → (files.file? path).isSome = true)
    (file : File)
    {next : Nat}
    (hNext : files.next ≤ next) :
    SamePlaces skip files
      { files.put path file with next := next } := by
  refine ⟨?_, rfl, hNext, id⟩
  intro other hOther
  change ((files.put path file).file? other).isSome = _
  rw [file?_put]
  split
  · rename_i hEq
    subst hEq
    exact (hPath hOther).symm
  · rfl

theorem drop
    {path : Path}
    (hSkip : skip path)
    (files : Files) :
    SamePlaces skip files (files.drop path) := by
  refine ⟨?_, rfl, Nat.le_refl _, id⟩
  intro other hOther
  rw [file?_drop, if_neg]
  rintro rfl
  exact hOther hSkip

theorem create
    {dir : String}
    {path : Path}
    (hCreate : files.create dir = .ok (path, after))
    (hSkip : skip path) :
    SamePlaces skip files after := by
  unfold Files.create at hCreate
  dsimp only at hCreate
  split at hCreate
  · cases hCreate
  · split at hCreate
    · cases hCreate
      exact put (absurd hSkip) _ (Nat.le_succ _)
    · cases hCreate

theorem write
    {path : Path}
    {content : Bytes}
    (hWrite : files.write path content = .ok after) :
    SamePlaces skip files after := by
  unfold Files.write at hWrite
  split at hWrite
  · split at hWrite
    · cases hWrite
      rfl
    · cases hWrite
  · split at hWrite
    · cases hWrite
      rfl
    · rename_i file hFile
      cases hWrite
      exact put (fun _ => by rw [hFile]; rfl) _ (Nat.le_succ _)

theorem overwrite
    (files : Files)
    (path : Path)
    (content : Bytes)
    (keepStamp : Bool) :
    SamePlaces skip files
      (files.overwrite path content keepStamp) := by
  unfold Files.overwrite
  split
  · rfl
  · rename_i file hFile
    exact put (fun _ => by rw [hFile]; rfl) _ (Nat.le_succ _)

theorem remove
    {path : Path}
    (hRemove : files.remove path = .ok after)
    (hSkip : skip path) :
    SamePlaces skip files after := by
  rw [Spool.eq_drop_of_remove hRemove]
  exact drop hSkip files

theorem rename
    {source target : Path}
    (hRename : files.rename source target = .ok after)
    (hSource : skip source)
    (hTarget : skip target) :
    SamePlaces skip files after := by
  unfold Files.rename at hRename
  split at hRename
  · cases hRename
  · split at hRename
    · cases hRename
    · cases hRename
      exact (drop hSource files).trans
        (put (absurd hTarget) _ (Nat.le_refl _))

/- A copy is made where the path leads to. -/
theorem copy
    {source target : Path}
    (hCopy : files.copy source target = .ok after)
    (hTarget :
      ¬ skip (files.resolve target) →
        (files.file? (files.resolve target)).isSome = true) :
    SamePlaces skip files after := by
  unfold Files.copy at hCopy
  split at hCopy
  · cases hCopy
  · dsimp only at hCopy
    split at hCopy
    · cases hCopy
    · split at hCopy
      · cases hCopy
        rfl
      · cases hCopy
        exact put hTarget _ (Nat.le_succ _)

end SamePlaces

------------------------------------------------------------
-- One More File
------------------------------------------------------------

/-
  The same paths lead to files, but for one that led nowhere
  before and may lead to a file now.
-/
structure OneMore
    (skip : Path → Prop)
    (path : Path)
    (before after : Files) : Prop where
  places :
    SamePlaces (fun other => skip other ∨ other = path)
      before after
  unused : ¬ skip path → before.file? path = none

namespace OneMore

/- A file that was created is the one more. -/
theorem create
    {dir : String}
    {path : Path}
    (hCreate : between.create dir = .ok (path, after))
    (hSame : SamePlaces skip before between)
    (hFresh : before.IsFresh skip) :
    OneMore skip path before after := by
  refine ⟨?_, ?_⟩
  · exact (hSame.mono fun _ => Or.inl).trans
      (.create hCreate (Or.inr rfl))
  · rw [(Spool.file?_of_create hCreate).1]
    exact fun hNot => hFresh dir _ hNot hSame.next

/- What concerns the one more file may happen. -/
theorem trans
    {path : Path}
    (hMore : OneMore skip path before between)
    (hSame :
      SamePlaces (fun other => skip other ∨ other = path)
        between after) :
    OneMore skip path before after :=
  ⟨hMore.places.trans hSame, hMore.unused⟩

/- When it is gone all places are as they were. -/
theorem close
    {path : Path}
    (hMore : OneMore skip path before after)
    (hGone : ¬ skip path → after.file? path = none) :
    SamePlaces skip before after := by
  refine hMore.places.close ?_
  intro hNot
  rw [hGone hNot, hMore.unused hNot]

end OneMore

end Files

------------------------------------------------------------
-- Spool Files
------------------------------------------------------------

namespace Spool

variable {skip : Path → Prop}

/- Removing a file concerns its path only. -/
theorem samePlaces_remove
    {path : Path}
    (hSkip : skip path)
    (w : World) :
    Files.SamePlaces skip w.files (remove path w).2.files := by
  unfold remove
  cases hRemove : w.files.remove path with
  | ok files => exact .remove hRemove hSkip
  | error fault => rfl

/- When the one more file is removed none is left. -/
theorem samePlaces_of_remove
    {path : Path}
    {base : Files}
    {w : World}
    (hMore : Files.OneMore skip path base w.files)
    (hRemoval : base.LetsRemove) :
    Files.SamePlaces skip base (remove path w).2.files := by
  refine Files.OneMore.close
    (hMore.trans (samePlaces_remove (Or.inr rfl) w)) ?_
  intro hNot
  rcases remove_apply path w with ⟨after, hRemove, -, hGone⟩
  rw [hRemove]
  exact hGone (hMore.places.removal hRemoval path)

/- Writing a file leaves the paths as they are. -/
theorem samePlaces_write
    (path : Path)
    (content : Bytes)
    (w : World) :
    Files.SamePlaces skip w.files
      (write path content w).2.files := by
  unfold write
  cases hWrite : w.files.write path content with
  | ok files =>
      rw [attempt_of_ok hWrite]
      exact .write hWrite
  | error fault =>
      rw [attempt_of_error hWrite]

/- So does storing it. -/
theorem samePlaces_store
    (path : Path)
    (content : Bytes)
    (w : World) :
    Files.SamePlaces skip w.files
      (store path content w).2.files := by
  rcases store_cases path content w with
    ⟨fault, hWrite⟩ | ⟨filled, hWrite, ⟨fault, hSync⟩ | hSync⟩
  · rw [store_of_unwritten hWrite]
  · rw [store_of_unsynced hWrite hSync]
    exact .write hWrite
  · rw [store_of_ok hWrite hSync]
    exact .write hWrite

/- When the one more file is discarded none is left. -/
theorem samePlaces_without
    {path : Path}
    {base files : Files}
    (hMore : Files.OneMore skip path base files)
    (hRemoval : base.LetsRemove) :
    Files.SamePlaces skip base (files.without path) := by
  have hSame :
      Files.SamePlaces
        (fun other => skip other ∨ other = path) files
        (files.without path) := by
    unfold Files.without
    cases hRemove : files.remove path with
    | ok after => exact .remove hRemove (Or.inr rfl)
    | error fault => rfl
  refine (hMore.trans hSame).close ?_
  intro _
  rw [file?_without (hMore.places.removal hRemoval path),
    if_pos rfl]

/- A replaced file concerns its path only. -/
theorem Exit.samePlaces_of_ok
    {dir : String}
    {path : Path}
    {content : Bytes}
    {files after : Files}
    (hExit : Exit dir path content files (.ok ()) after)
    (hSkip : skip path)
    (hFresh : files.IsFresh skip) :
    Files.SamePlaces skip files after := by
  cases hExit with
  | replaced create write sync remove rename =>
      have hMade :=
        Files.OneMore.create create (.refl skip _) hFresh
      have hFilled := hMade.trans (.write write)
      have hRemoved :=
        hFilled.trans (.remove remove (Or.inl hSkip))
      have hRenamed :=
        hRemoved.trans
          (.rename rename (Or.inr rfl) (Or.inl hSkip))
      refine hRenamed.close ?_
      intro hNot
      rw [Files.file?_of_rename rename, if_pos rfl]
      rintro rfl
      exact hNot hSkip

/-
  Replacing a file concerns its path only. The temporary file
  is the one more file, and it is gone, whichever step failed.
-/
theorem Exit.samePlaces
    {dir : String}
    {path : Path}
    {content : Bytes}
    {files after : Files}
    {result : Except SpoolError Unit}
    (hExit : Exit dir path content files result after)
    (hSkip : skip path)
    (hFresh : files.IsFresh skip)
    (hRemoval : files.LetsRemove) :
    Files.SamePlaces skip files after := by
  have hMade :
      ∀ {fresh made}, files.create dir = .ok (fresh, made) →
        Files.OneMore skip fresh files made :=
    fun hCreate => .create hCreate (.refl skip _) hFresh
  cases hExit with
  | notCreated create => rfl
  | notWritten create write =>
      exact samePlaces_without (hMade create) hRemoval
  | notSynced create write sync =>
      have hFilled := (hMade create).trans (.write write)
      exact samePlaces_without hFilled hRemoval
  | notRemoved create write sync remove =>
      have hFilled := (hMade create).trans (.write write)
      exact samePlaces_without hFilled hRemoval
  | notRenamed create write sync remove rename =>
      have hFilled := (hMade create).trans (.write write)
      have hRemoved :=
        hFilled.trans (.remove remove (Or.inl hSkip))
      exact samePlaces_without hRemoved hRemoval
  | replaced create write sync remove rename =>
      have hOk : Exit dir path content files (.ok ()) after :=
        .replaced create write sync remove rename
      exact hOk.samePlaces_of_ok hSkip hFresh

/- So does every run that replaces it. -/
theorem samePlaces_replace
    (dir : String)
    {path : Path}
    (hSkip : skip path)
    (parts : List Bytes)
    {w : World}
    (hFresh : w.files.IsFresh skip)
    (hRemoval : w.files.LetsRemove) :
    Files.SamePlaces skip w.files
      (replace dir path parts w).2.files := by
  rcases exists_exit dir path parts w with
    ⟨result, after, hReplace, hExit⟩
  rw [hReplace]
  exact hExit.samePlaces hSkip hFresh hRemoval

end Spool

end MailFilter
