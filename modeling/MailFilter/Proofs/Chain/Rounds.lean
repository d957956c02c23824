import MailFilter.Proofs.Chain.Body
import MailFilter.Proofs.Chain.Whole
import MailFilter.Proofs.Message.Rewrite
import MailFilter.Proofs.Spool.Places

/-
  Headers that are changed and written back again and again.

  A round takes a snapshot, changes the headers and writes
  them back. Some rounds replace the spool file and others
  leave it, and a message that was not written has headers
  that the file has not. The offset of its body is still the
  length of the header block in the file, so that every later
  round finds the body where it is.

  Key definitions include:
    * `Chain.round`
    * `Chain.Rounds`
    * `Chain.IsInStep`

  Main statements:
    * `Chain.IsInStep.round`
    * `Chain.IsInStep.rounds`
    * `Chain.exists_rounds`
    * `Chain.isInStep_of_rounds`
-/

namespace MailFilter

namespace Files

variable {dir : String}
variable {path : Path}
variable {content : Bytes}
variable {before after : Files}

/- No spool file has the path of the next temporary file. -/
theorem IsFresh.hasFresh
    (hFresh : before.IsFresh fun _ => False)
    (hContent : before.content? path = some content)
    (dir : String) :
    before.HasFresh dir path := by
  have hUnused : before.file? (before.fresh dir) = none :=
    hFresh dir before.next id (Nat.le_refl _)
  refine ⟨hUnused, ?_⟩
  rintro rfl
  rw [content?, hUnused] at hContent
  cases hContent

/- Nothing but the file is another when it was written. -/
theorem EndsWhole.file?_of_written
    (hEnds : EndsWhole dir path content none before after)
    (hFresh : before.HasFresh dir path)
    {other : Path}
    (hOther : other ≠ path) :
    after.file? other = before.file? other := by
  by_cases hTemporary : other = before.fresh dir
  · rw [hTemporary, hEnds.discarded (Or.inl rfl), hFresh.unused]
  · exact hEnds.others other hOther hTemporary

end Files

/-
  A file that was there and was replaced leaves the numbers
  that are still to be given out unused.
-/
theorem Spool.Exit.isFresh_of_ok
    {dir : String}
    {path : Path}
    {content old : Bytes}
    {before after : Files}
    (hExit : Exit dir path content before (.ok ()) after)
    (hFresh : before.IsFresh fun _ => False)
    (hContent : before.content? path = some old) :
    after.IsFresh fun _ => False := by
  have hSame :
      Files.SamePlaces (fun other => False ∨ other = path)
        before after :=
    hExit.samePlaces_of_ok (Or.inr rfl)
      (hFresh.mono fun _ => False.elim)
  refine (hSame.close fun _ => ?_).isFresh hFresh
  have hNew := hExit.content?_of_ok
  rw [Files.content?, Option.map_eq_some_iff] at hNew hContent
  rcases hNew with ⟨_, hNew, _⟩
  rcases hContent with ⟨_, hOld, _⟩
  rw [hNew, hOld]
  rfl

namespace Chain

------------------------------------------------------------
-- Rounds
------------------------------------------------------------

/- Take a snapshot, change the headers and write them back. -/
def round
    (settings : Settings)
    (edits : List Message.Edit)
    (t : Transaction) :
    Run (Except SpoolError Bool × Transaction) :=
  flush (.take t.message) settings
    (t.mapMessage (·.edited edits))

/-
  Rounds of changes that all succeed. The block is the header
  block of the message when the file was last written, and the
  one that it had at the start if it never was.
-/
inductive Rounds
    (settings : Settings)
    (head : Bytes)
    (start : Transaction × World) :
    List (List Message.Edit) → Bytes →
      Transaction × World → Prop
  | start : Rounds settings head start [] head start
  | kept {rounds : List (List Message.Edit)} {block : Bytes}
      {t after : Transaction} {w w' : World}
      {edits : List Message.Edit}
      (before : Rounds settings head start rounds block (t, w))
      (round : round settings edits t w = ((.ok false, after), w')) :
      Rounds settings head start (rounds ++ [edits]) block
        (after, w')
  | written {rounds : List (List Message.Edit)} {block : Bytes}
      {t after : Transaction} {w w' : World}
      {edits : List Message.Edit} {message : Message}
      (before : Rounds settings head start rounds block (t, w))
      (attached : t.message = some message)
      (round : round settings edits t w = ((.ok true, after), w')) :
      Rounds settings head start (rounds ++ [edits])
        (message.edited edits).block (after, w')

/-
  The file at a path is a header block and a body, the message
  has its body where the block ends, and no other file is
  another than at the start.
-/
structure IsInStep
    (path : Path)
    (base : Files)
    (body : Bytes)
    (block : Bytes)
    (t : Transaction)
    (files : Files) : Prop where
  file : t.envelope.messageFile = path
  message :
    ∃ message,
      t.message = some message ∧
        message.bodyOffset = block.length
  content : files.content? path = some (block ++ body)
  others :
    ∀ other, other ≠ path →
      files.file? other = base.file? other
  fresh : files.IsFresh fun _ => False

variable {settings : Settings}
variable {path : Path}
variable {base : Files}
variable {body block head : Bytes}
variable {t after : Transaction}
variable {w w' : World}

/- It is so at the start if the block ends at the offset. -/
theorem isInStep_start
    {message : Message}
    (hMessage : t.message = some message)
    (hOffset : message.bodyOffset = head.length)
    (hContent :
      w.files.content? t.envelope.messageFile =
        some (head ++ body))
    (hFresh : w.files.IsFresh fun _ => False) :
    IsInStep t.envelope.messageFile w.files body head t w.files where
  file := rfl
  message := ⟨message, hMessage, hOffset⟩
  content := hContent
  others := fun _ _ => rfl
  fresh := hFresh

/- The message of a transaction whose headers are changed. -/
theorem message_edited
    {message : Message}
    (hMessage : t.message = some message)
    (edits : List Message.Edit) :
    (t.mapMessage (·.edited edits)).message =
      some (message.edited edits) :=
  congrArg (Option.map (Message.edited · edits)) hMessage

/-
  What the file holds when it is written is the block of the
  message then, in front of the body that it had.
-/
theorem IsInStep.round
    (hStep : IsInStep path base body block t w.files)
    {edits : List Message.Edit}
    {written : Bool}
    (hRound :
      round settings edits t w = ((.ok written, after), w')) :
    ∃ message,
      t.message = some message ∧
        IsInStep path base body
          (if written then (message.edited edits).block
            else block)
          after w'.files := by
  rcases hStep with
    ⟨hPath, ⟨message, hMessage, hOffset⟩, hContent, hOthers,
      hFresh⟩
  refine ⟨message, hMessage, ?_⟩
  have hStart :
      (message.edited edits).bodyOffset = block.length :=
    (Message.eq_of_edited Message.bodyOffset
      Message.bodyOffset_edit message edits).trans hOffset
  have hChanged := message_edited hMessage edits
  rcases exists_exit (.take t.message) settings
      (t.mapMessage (·.edited edits)) w with
    ⟨result, flushed, final, hFlush, hExit⟩
  cases hRound.symm.trans hFlush
  generalize w'.files = files at hExit ⊢
  cases hExit with
  | unchanged clean =>
      exact {
        file := hPath
        message := ⟨_, hChanged, hStart⟩
        content := hContent
        others := hOthers
        fresh := hFresh }
  | @written attachedMessage raw _ attached dirty read exit =>
      cases hChanged.symm.trans attached
      have hSame :
          (t.mapMessage (·.edited edits)).envelope.messageFile =
            path := hPath
      rw [hSame] at exit read
      have hUnused := hFresh.hasFresh hContent
      have hNext := exit.isFresh_of_ok hFresh hContent
      rw [Files.content?_of_read read, Option.some_inj] at hContent
      rw [hContent, hStart, List.drop_left] at exit
      exact {
        file := hSame
        message := ⟨_, rfl, rfl⟩
        content := exit.content?_of_ok
        others := fun other hOther =>
          ((exit.endsWhole (hUnused _)).file?_of_written
            (hUnused _) hOther).trans (hOthers other hOther)
        fresh := hNext }

/- So it is after any number of rounds. -/
theorem IsInStep.rounds
    {start s : Transaction × World}
    (hStep : IsInStep path base body head start.1 start.2.files)
    {rounds : List (List Message.Edit)}
    (hRounds : Rounds settings head start rounds block s) :
    IsInStep path base body block s.1 s.2.files := by
  induction hRounds with
  | start => exact hStep
  | kept before round ih =>
      rcases ih.round round with ⟨_, _, hKept⟩
      exact hKept
  | written before attached round ih =>
      rcases ih.round round with ⟨_, hMessage, hWritten⟩
      cases attached.symm.trans hMessage
      exact hWritten

/- Headers can be written where the disk refuses nothing. -/
theorem exists_flush
    (before : Snapshot)
    {message : Message}
    (hMessage : t.message = some message)
    {raw : Bytes}
    (hContent :
      w.files.content? t.envelope.messageFile = some raw)
    (hReady : w.files.IsReady settings.global.queueDir) :
    ∃ written flushed w',
      flush before settings t w = ((.ok written, flushed), w') ∧
        w'.files.IsReady settings.global.queueDir := by
  have hRead :=
    Files.read_of_content? (hReady.reliable _ _) hContent
  rcases Option.map_eq_some_iff.mp hContent with
    ⟨file, hFile, _⟩
  unfold flush
  simp only [hMessage]
  split
  · simp only [Run.bind_apply, replaceBlock, Spool.read_apply,
      World.files_say, hRead]
    rcases Spool.exists_replace
        (w := (World.say .debug ("Headers changed, rewriting " ++
          t.envelope.messageFile.render) w).2)
        hReady hFile
        [message.block, raw.drop message.bodyOffset] with
      ⟨files, hReplace, hAfter⟩
    rw [hReplace]
    exact ⟨_, _, _, rfl, hAfter⟩
  · exact ⟨_, _, _, rfl, hReady⟩

/- So any number of rounds can be gone through there. -/
theorem exists_rounds
    {message : Message}
    (hMessage : t.message = some message)
    (hOffset : message.bodyOffset = head.length)
    (hContent :
      w.files.content? t.envelope.messageFile =
        some (head ++ body))
    (hReady : w.files.IsReady settings.global.queueDir)
    (rounds : List (List Message.Edit)) :
    ∃ block after w',
      Rounds settings head (t, w) rounds block (after, w') := by
  have hStart :=
    isInStep_start hMessage hOffset hContent
      (hReady.numbered.isFresh _)
  have hRuns :
      ∃ block after w',
        Rounds settings head (t, w) rounds block (after, w') ∧
          w'.files.IsReady settings.global.queueDir := by
    induction rounds using List.reverseRecOn with
    | nil => exact ⟨head, t, w, .start, hReady⟩
    | append_singleton rounds edits ih =>
        rcases ih with ⟨block, between, w'', hRounds, hBetween⟩
        rcases hStart.rounds hRounds with
          ⟨hFile, ⟨now, hNow, _⟩, hHeld, _, _⟩
        rcases exists_flush (.take between.message)
            (message_edited hNow edits) (hFile ▸ hHeld)
            hBetween with
          ⟨written, after, w', hRound, hAfter⟩
        cases written with
        | false =>
            exact ⟨_, _, _, hRounds.kept hRound, hAfter⟩
        | true =>
            exact ⟨_, _, _, hRounds.written hNow hRound, hAfter⟩
  rcases hRuns with ⟨block, after, w', hRounds, _⟩
  exact ⟨block, after, w', hRounds⟩

/-
  After any number of rounds the file is the header block that
  was written last, or the one at the start, and the body that
  it had, whatever that is. The message has its body where the
  block ends, and no other file was made, changed or removed.
-/
theorem isInStep_of_rounds
    {message : Message}
    (hMessage : t.message = some message)
    (hOffset : message.bodyOffset = head.length)
    (hContent :
      w.files.content? t.envelope.messageFile =
        some (head ++ body))
    (hFresh : w.files.IsFresh fun _ => False)
    {rounds : List (List Message.Edit)}
    (hRounds :
      Rounds settings head (t, w) rounds block (after, w')) :
    ∃ now,
      after.message = some now ∧
        after.envelope.messageFile = t.envelope.messageFile ∧
        now.bodyOffset = block.length ∧
        w'.files.content? t.envelope.messageFile =
          some (block ++ body) ∧
        (block ++ body).drop now.bodyOffset = body ∧
        ∀ other, other ≠ t.envelope.messageFile →
          w'.files.file? other = w.files.file? other := by
  have hStart :=
    isInStep_start hMessage hOffset hContent hFresh
  rcases hStart.rounds hRounds with
    ⟨hPath, ⟨now, hNow, hEnd⟩, hFile, hOthers, _⟩
  refine ⟨now, hNow, hPath, hEnd, hFile, ?_, hOthers⟩
  rw [hEnd, List.drop_left]

/- A message whose only field has two spaces in it. -/
def spacedMessage : Message where
  headers := [⟨"A", "1", some (Utf8.encode "A:  1")⟩]
  bodyOffset := 9
  crlf := true

/- The bytes that it is read from. -/
def spacedMail : Bytes :=
  Utf8.encode "A:  1\r\n\r\nbody"

/-
  The first round gives the field the value that it has. That
  writes nothing, though the field would be written in another
  way now. The second round adds a field.
-/
theorem exists_rounds_spacedMail :
    ∃ after w',
      Rounds .holding (Utf8.encode "A:  1\r\n\r\n")
        (.holding spacedMessage, .holding spacedMail)
        [[.set "A" "1"], [.append "B" "2"]]
        (Utf8.encode "A: 1\r\nB: 2\r\n\r\n") (after, w') := by
  rcases hFirst :
      round .holding [.set "A" "1"] (.holding spacedMessage)
        (.holding spacedMail) with
    ⟨⟨first, t₁⟩, w₁⟩
  rcases hSecond : round .holding [.append "B" "2"] t₁ w₁ with
    ⟨⟨second, t₂⟩, w₂⟩
  have hRuns :
      let once :=
        round .holding [.set "A" "1"] (.holding spacedMessage)
          (.holding spacedMail)
      once.1.1.toOption = some false ∧
        once.1.2.message =
          some (spacedMessage.edited [.set "A" "1"]) ∧
        (round .holding [.append "B" "2"] once.1.2
            once.2).1.1.toOption =
          some true := by
    decide +kernel
  dsimp only at hRuns
  rw [hFirst, hSecond] at hRuns
  rcases hRuns with ⟨hKept, hMessage, hWritten⟩
  have hBlock :
      ((spacedMessage.edited [.set "A" "1"]).edited
          [.append "B" "2"]).block =
        Utf8.encode "A: 1\r\nB: 2\r\n\r\n" := by
    decide +kernel
  cases first with
  | error e => cases hKept
  | ok written =>
      cases hKept
      cases second with
      | error e => cases hWritten
      | ok written =>
          cases hWritten
          exact ⟨t₂, w₂, hBlock ▸
            ((Rounds.start.kept hFirst).written hMessage
              hSecond)⟩

/-
  The body is there after those rounds. As the disk refuses
  nothing, any other rounds can be gone through as well, and
  they leave the body where the headers end.
-/
theorem isInStep_spacedMail :
    (∃ after w' now,
        Rounds .holding (Utf8.encode "A:  1\r\n\r\n")
            (.holding spacedMessage, .holding spacedMail)
            [[.set "A" "1"], [.append "B" "2"]]
            (Utf8.encode "A: 1\r\nB: 2\r\n\r\n") (after, w') ∧
          after.message = some now ∧
          now.bodyOffset = 14 ∧
          w'.files.content? (.spooled "/q" 0) =
            some (Utf8.encode "A: 1\r\nB: 2\r\n\r\nbody")) ∧
      ∀ rounds, ∃ block after w',
        Rounds .holding (Utf8.encode "A:  1\r\n\r\n")
            (.holding spacedMessage, .holding spacedMail) rounds
            block (after, w') ∧
          w'.files.content? (.spooled "/q" 0) =
            some (block ++ Utf8.encode "body") := by
  have hReady :
      (World.holding spacedMail).files.IsReady
        Settings.holding.global.queueDir :=
    World.isReady_holding spacedMail
  have hFresh := hReady.numbered.isFresh fun _ => False
  have hHolds :
      (World.holding spacedMail).files.content?
          (.spooled "/q" 0) =
        some (Utf8.encode "A:  1\r\n\r\n" ++
          Utf8.encode "body") := by
    decide
  have hOffset :
      spacedMessage.bodyOffset =
        (Utf8.encode "A:  1\r\n\r\n").length := by
    decide
  constructor
  · rcases exists_rounds_spacedMail with ⟨after, w', hRounds⟩
    rcases isInStep_of_rounds rfl hOffset hHolds hFresh
        hRounds with
      ⟨now, hNow, _, hEnd, hContent, _⟩
    exact ⟨after, w', now, hRounds, hNow,
      hEnd.trans (by decide), hContent.trans (by decide)⟩
  · intro rounds
    rcases exists_rounds (t := .holding spacedMessage) rfl hOffset
        hHolds hReady rounds with
      ⟨block, after, w', hRounds⟩
    rcases isInStep_of_rounds rfl hOffset hHolds hFresh
        hRounds with
      ⟨_, _, _, _, hContent, _⟩
    exact ⟨block, after, w', hRounds, hContent⟩

end Chain

end MailFilter
