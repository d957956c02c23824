import MailFilter.Proofs.Chain.Flush

/-
  What is on the disk when a spool file was to be replaced,
  whichever step failed.

  The path leads to the old file, or to nothing, or to a file
  with all of the new content. Every other path leads where it
  did, and the temporary file is gone unless the disk keeps it.
  A transaction whose headers could not be written is what it
  was.

  Key definitions include:
    * `Files.HasFresh`
    * `Spool.failedStep?`
    * `Files.EndsWhole`

  Main statements:
    * `Spool.Exit.endsWhole`
    * `Chain.endsWhole_of_hasFresh`
-/

namespace MailFilter

namespace Files

/- The path of the temporary file that is made next. -/
def fresh
    (files : Files)
    (dir : String) : Path :=
  .spooled dir files.next

/- That path is not in use, and not the one of a spool file. -/
structure HasFresh
    (files : Files)
    (dir : String)
    (path : Path) : Prop where
  unused : files.file? (files.fresh dir) = none
  other : path ≠ files.fresh dir

/-
  How a path is left that was to get some content, if a step
  failed or none did. The temporary file is gone if nothing
  failed or if the disk does not refuse to remove it.
-/
structure EndsWhole
    (dir : String)
    (path : Path)
    (content : Bytes)
    (failure : Option Step)
    (before after : Files) : Prop where
  written : failure = none → after.content? path = some content
  intact :
    ∀ step, failure = some step → step ≠ .rename →
      after.file? path = before.file? path
  gone : failure = some .rename → after.file? path = none
  discarded :
    failure = none ∨
        before.refusal .remove (before.fresh dir) = none →
      after.file? (before.fresh dir) = none
  others :
    ∀ other, other ≠ path → other ≠ before.fresh dir →
      after.file? other = before.file? other

------------------------------------------------------------
-- Steps
------------------------------------------------------------

/-
  Every path but one leads where it did, and the disk refuses
  what it refused.
-/
structure SameBesides
    (path : Path)
    (before after : Files) : Prop where
  refusal : after.refusal = before.refusal
  others :
    ∀ other, other ≠ path →
      after.file? other = before.file? other

namespace SameBesides

variable {path : Path}
variable {files before between after : Files}

theorem trans
    (hFirst : SameBesides path before between)
    (hSecond : SameBesides path between after) :
    SameBesides path before after := by
  refine ⟨hSecond.refusal.trans hFirst.refusal, ?_⟩
  intro other hOther
  exact (hSecond.others other hOther).trans
    (hFirst.others other hOther)

theorem put
    (files : Files)
    (path : Path)
    (file : File)
    (next : Nat) :
    SameBesides path files
      { files.put path file with next := next } := by
  refine ⟨rfl, ?_⟩
  intro other hOther
  change (files.put path file).file? other = _
  rw [file?_put, if_neg hOther]

theorem drop
    (files : Files)
    (path : Path) :
    SameBesides path files (files.drop path) := by
  refine ⟨rfl, ?_⟩
  intro other hOther
  rw [file?_drop, if_neg hOther]

theorem create
    {dir : String}
    (hCreate : files.create dir = .ok (path, after)) :
    path = files.fresh dir ∧ SameBesides path files after := by
  unfold Files.create at hCreate
  dsimp only at hCreate
  split at hCreate
  · cases hCreate
  · split at hCreate
    · cases hCreate
      exact ⟨rfl, put _ _ _ _⟩
    · cases hCreate

theorem write
    {content : Bytes}
    (hWrite : files.write path content = .ok after) :
    SameBesides path files after := by
  unfold Files.write at hWrite
  split at hWrite
  · split at hWrite
    · cases hWrite
      exact ⟨rfl, fun _ _ => rfl⟩
    · cases hWrite
  · split at hWrite
    · cases hWrite
      exact ⟨rfl, fun _ _ => rfl⟩
    · cases hWrite
      exact put _ _ _ _

theorem without
    (files : Files)
    (path : Path) :
    SameBesides path files (files.without path) := by
  unfold Files.without
  cases hRemove : files.remove path with
  | ok after =>
      rw [Spool.eq_drop_of_remove hRemove]
      exact drop files path
  | error fault => exact ⟨rfl, fun _ _ => rfl⟩

end SameBesides

------------------------------------------------------------
-- Ends
------------------------------------------------------------

namespace EndsWhole

variable {dir : String}
variable {path : Path}
variable {content : Bytes}
variable {before between after : Files}

/- Nothing happened but to the temporary file. -/
theorem of_sameBesides
    (hFresh : before.HasFresh dir path)
    (hSame :
      SameBesides (before.fresh dir) before between)
    {step : Step}
    (hStep : step ≠ .rename) :
    EndsWhole dir path content (some step) before
      (between.without (before.fresh dir)) := by
  have hOthers :=
    (hSame.trans (.without between (before.fresh dir))).others
  refine {
    written := fun hNone => nomatch hNone
    intact := fun _ _ _ => hOthers path hFresh.other
    gone := fun hGone => absurd (Option.some.inj hGone) hStep
    discarded := ?_
    others := fun other _ hOther => hOthers other hOther }
  rintro (hNone | hRemovable)
  · cases hNone
  · rw [Spool.file?_without (hSame.refusal ▸ hRemovable),
      if_pos rfl]

/- The old file was removed, and no other one took its place. -/
theorem of_removed
    (hFresh : before.HasFresh dir path)
    (hSame :
      SameBesides (before.fresh dir) before between) :
    EndsWhole dir path content (some .rename) before
      ((between.drop path).without (before.fresh dir)) := by
  have hWithout :=
    SameBesides.without (between.drop path) (before.fresh dir)
  refine {
    written := fun hNone => nomatch hNone
    intact := fun step hRename hStep =>
      absurd (Option.some.inj hRename).symm hStep
    gone := fun _ => ?_
    discarded := ?_
    others := ?_ }
  · rw [hWithout.others path hFresh.other, file?_drop,
      if_pos rfl]
  · rintro (hNone | hRemovable)
    · cases hNone
    · have hRefusal :
          (between.drop path).refusal .remove (before.fresh dir) =
            none := hSame.refusal ▸ hRemovable
      rw [Spool.file?_without hRefusal, if_pos rfl]
  · intro other hPath hOther
    rw [hWithout.others other hOther, file?_drop, if_neg hPath,
      hSame.others other hOther]

/- The temporary file took the place of the old one. -/
theorem of_renamed
    (hFresh : before.HasFresh dir path)
    (hSame :
      SameBesides (before.fresh dir) before between)
    (hRename :
      (between.drop path).rename (before.fresh dir) path =
        .ok after)
    (hContent : after.content? path = some content) :
    EndsWhole dir path content none before after := by
  refine {
    written := fun _ => hContent
    intact := fun step hSome => nomatch hSome
    gone := fun hSome => nomatch hSome
    discarded := fun _ => ?_
    others := ?_ }
  · rw [file?_of_rename hRename hFresh.other.symm, if_pos rfl]
  · intro other hPath hOther
    rw [file?_of_rename hRename hPath, if_neg hOther,
      file?_drop, if_neg hPath, hSame.others other hOther]

end EndsWhole

end Files

------------------------------------------------------------
-- Replacing A File
------------------------------------------------------------

namespace Spool

/- The step that failed, if one did. -/
def failedStep?
    {α : Type} : Except SpoolError α → Option Step
  | .error e => some e.step
  | .ok _ => none

variable {dir : String}
variable {path : Path}
variable {content : Bytes}
variable {before after : Files}

/- Whichever exit it is, the file is whole. -/
theorem Exit.endsWhole
    {result : Except SpoolError Unit}
    (hFresh : before.HasFresh dir path)
    (hExit : Exit dir path content before result after) :
    Files.EndsWhole dir path content (failedStep? result) before
      after := by
  have hMade :
      ∀ {fresh made}, before.create dir = .ok (fresh, made) →
        fresh = before.fresh dir ∧
          Files.SameBesides (before.fresh dir) before made := by
    intro fresh made hCreate
    rcases Files.SameBesides.create hCreate with ⟨rfl, hSame⟩
    exact ⟨rfl, hSame⟩
  have hContent := fun hOk : result = .ok () =>
    (hOk ▸ hExit).content?_of_ok
  cases hExit with
  | notCreated create =>
      exact {
        written := fun hNone => nomatch hNone
        intact := fun _ _ _ => rfl
        gone := fun hGone => nomatch hGone
        discarded := fun _ => hFresh.unused
        others := fun _ _ _ => rfl }
  | notWritten create write =>
      rcases hMade create with ⟨rfl, hSame⟩
      exact .of_sameBesides hFresh hSame (fun hStep => nomatch hStep)
  | notSynced create write sync =>
      rcases hMade create with ⟨rfl, hSame⟩
      exact .of_sameBesides hFresh (hSame.trans (.write write))
        (fun hStep => nomatch hStep)
  | notRemoved create write sync remove =>
      rcases hMade create with ⟨rfl, hSame⟩
      exact .of_sameBesides hFresh (hSame.trans (.write write))
        (fun hStep => nomatch hStep)
  | notRenamed create write sync remove rename =>
      rcases hMade create with ⟨rfl, hSame⟩
      exact .of_removed hFresh (hSame.trans (.write write))
  | replaced create write sync remove rename =>
      rcases hMade create with ⟨rfl, hSame⟩
      exact .of_renamed hFresh (hSame.trans (.write write)) rename
        (hContent rfl)

/-
  However much of the temporary file was written, no part of
  it is left when it is discarded.
-/
theorem file?_of_discarded
    (hFresh : before.HasFresh dir path)
    {fresh : Path}
    {made : Files}
    (hCreate : before.create dir = .ok (fresh, made))
    (hRemovable : before.refusal .remove fresh = none)
    (torn : File)
    (other : Path) :
    ((made.put fresh torn).without fresh).file? other =
      before.file? other := by
  rcases Files.SameBesides.create hCreate with ⟨rfl, hSame⟩
  have hRefusal :
      (made.put (before.fresh dir) torn).refusal .remove
        (before.fresh dir) = none :=
    hSame.refusal ▸ hRemovable
  rw [file?_without hRefusal, Files.file?_put]
  by_cases hOther : other = before.fresh dir
  · rw [if_pos hOther, hOther, hFresh.unused]
  · rw [if_neg hOther, if_neg hOther, hSame.others other hOther]

end Spool

------------------------------------------------------------
-- Writing The Headers Back
------------------------------------------------------------

namespace Chain

/- What a spool file is to hold with the headers of a message. -/
def rewritten
    (message : Message)
    (content : Option Bytes) : Bytes :=
  message.block ++ (content.getD []).drop message.bodyOffset

/- If there is something to write the file is whole as well. -/
theorem Exit.endsWhole
    {before : Snapshot}
    {settings : Settings}
    {t flushed : Transaction}
    {files after : Files}
    {result : Except SpoolError Bool}
    (hFresh :
      files.HasFresh settings.global.queueDir
        t.envelope.messageFile)
    (hExit : Exit before settings t files result flushed after)
    {message : Message}
    (hMessage : t.message = some message)
    (hDirty : before.isDirty (.take (some message)) = true) :
    Files.EndsWhole settings.global.queueDir
      t.envelope.messageFile
      (rewritten message
        (files.content? t.envelope.messageFile))
      (Spool.failedStep? result) files after := by
  cases hExit with
  | unchanged clean =>
      have hClean := clean message hMessage
      rw [hDirty] at hClean
      cases hClean
  | notRead attached dirty read =>
      exact {
        written := fun hNone => nomatch hNone
        intact := fun _ _ _ => rfl
        gone := fun hGone => nomatch hGone
        discarded := fun _ => hFresh.unused
        others := fun _ _ _ => rfl }
  | notReplaced attached dirty read exit =>
      cases hMessage.symm.trans attached
      rw [Files.content?_of_read read]
      exact exit.endsWhole hFresh
  | written attached dirty read exit =>
      cases hMessage.symm.trans attached
      rw [Files.content?_of_read read]
      exact exit.endsWhole hFresh

/- Only a transaction whose headers were written is another. -/
theorem Exit.eq_of_error
    {before : Snapshot}
    {settings : Settings}
    {t flushed : Transaction}
    {files after : Files}
    {e : SpoolError}
    (hExit :
      Exit before settings t files (.error e) flushed after) :
    flushed = t := by
  cases hExit <;> rfl

/-
  Whatever the disk refuses, replacing a file and writing
  headers back end in one of their exits, in which the error
  names the step that failed. The file is whole, and a
  transaction whose headers were not written is what it was.
  However much of the temporary file was written before, no
  part of it is left when it is discarded.
-/
theorem endsWhole_of_hasFresh
    {w : World}
    {dir : String}
    {path : Path}
    (hFresh : w.files.HasFresh dir path) :
    (∀ parts, ∃ result after,
      Spool.replace dir path parts w =
          (result, { w with files := after }) ∧
        Spool.Exit dir path parts.flatten w.files result after ∧
        Files.EndsWhole dir path parts.flatten
          (Spool.failedStep? result) w.files after) ∧
      (∀ before settings t,
        settings.global.queueDir = dir →
        t.envelope.messageFile = path →
        ∃ result flushed after,
          flush before settings t w = ((result, flushed), after) ∧
            Exit before settings t w.files result flushed
              after.files ∧
            (∀ e, result = .error e → flushed = t) ∧
            ∀ message, t.message = some message →
              before.isDirty (.take (some message)) = true →
              Files.EndsWhole dir path
                (rewritten message (w.files.content? path))
                (Spool.failedStep? result) w.files after.files) ∧
      ∀ fresh made torn other,
        w.files.create dir = .ok (fresh, made) →
        w.files.refusal .remove fresh = none →
        ((made.put fresh torn).without fresh).file? other =
          w.files.file? other := by
  refine ⟨?_, ?_, ?_⟩
  · intro parts
    rcases Spool.exists_exit dir path parts w with
      ⟨result, after, hReplace, hExit⟩
    exact ⟨result, after, hReplace, hExit,
      hExit.endsWhole hFresh⟩
  · rintro before settings t rfl rfl
    rcases exists_exit before settings t w with
      ⟨result, flushed, after, hFlush, hExit⟩
    refine ⟨result, flushed, after, hFlush, hExit, ?_, ?_⟩
    · rintro e rfl
      exact hExit.eq_of_error
    · intro message hMessage hDirty
      exact hExit.endsWhole hFresh hMessage hDirty
  · intro fresh made torn other hCreate hRemovable
    exact Spool.file?_of_discarded hFresh hCreate hRemovable torn
      other

/- A world that refuses a step on the spool file. -/
def refusing
    (step : Step)
    (raw : Bytes) : World :=
  { World.holding raw with
    files := { (World.holding raw).files with
      refusal := fun other path =>
        if other = step ∧ path = .spooled "/q" 0 then
          some .badDescriptor
        else none } }

/-
  The header is to be removed, and the spool file cannot be
  removed, or cannot be put in its place.
-/
theorem endsWhole_refusing :
    let before : Snapshot :=
      .take (some { headers := [⟨"A", "1", none⟩] })
    let t : Transaction := .holding { bodyOffset := 2, crlf := true }
    let after : Step → Files := fun step =>
      (flush before .holding t (refusing step [13, 10])).2.files
    (∀ step,
        (refusing step [13, 10]).files.HasFresh "/q"
          (.spooled "/q" 0)) ∧
      (after .remove).content? (.spooled "/q" 0) =
        some [13, 10] ∧
      (after .rename).file? (.spooled "/q" 0) = none ∧
      (after .remove).file? (.spooled "/q" 1) = none ∧
      (after .rename).file? (.spooled "/q" 1) = none := by
  intro before t after
  have hFresh :
      ∀ step,
        (refusing step [13, 10]).files.HasFresh "/q"
          (.spooled "/q" 0) := by
    intro step
    have hOther : Path.spooled "/q" 0 ≠ .spooled "/q" 1 := by
      decide
    exact ⟨rfl, hOther⟩
  have hWhole :
      ∀ step, ∃ result,
        (flush before .holding t (refusing step [13, 10])).1.1 =
            result ∧
          Files.EndsWhole "/q" (.spooled "/q" 0) [13, 10]
            (Spool.failedStep? result)
            (refusing step [13, 10]).files (after step) := by
    intro step
    rcases (endsWhole_of_hasFresh (hFresh step)).2.1 before
        .holding t rfl rfl with
      ⟨result, flushed, final, hFlush, _, _, hEnds⟩
    refine ⟨result, by rw [hFlush], ?_⟩
    have hFinal : after step = final.files := by
      dsimp only [after]
      rw [hFlush]
    rw [hFinal]
    exact hEnds _ rfl (by decide)
  rcases hWhole .remove with ⟨_, rfl, hRemove⟩
  rcases hWhole .rename with ⟨_, rfl, hRename⟩
  refine ⟨hFresh, ?_, ?_, ?_, ?_⟩
  · unfold Files.content?
    rw [hRemove.intact .remove (by decide) (by decide)]
    rfl
  · exact hRename.gone (by decide)
  · exact hRemove.discarded (Or.inr rfl)
  · exact hRename.discarded (Or.inr rfl)

end Chain

end MailFilter
