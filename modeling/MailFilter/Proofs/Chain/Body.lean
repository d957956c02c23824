import MailFilter.Proofs.Chain.Agreement

/-
  When the body of a spool file survives that the headers are
  written back.

  The body is taken from the offset that the message was last
  read with. So it survives exactly if the file still has its
  body there. A module that writes the file and fails, or that
  keeps the stamp, can move the body without that being seen.

  Key definitions include:
    * `Stage.IsRead`
    * `Action.IsReadable`
    * `Module.LeavesTraces`

  Main statements:
    * `Queue.isRead_left`
    * `Queue.body_of_leavesTraces`
    * `Queue.body_iff`
-/

namespace MailFilter

open World

------------------------------------------------------------
-- Offsets
------------------------------------------------------------

namespace Message

/- Changing the headers does not move the body. -/
@[simp]
theorem bodyOffset_edit
    (edit : Edit)
    (message : Message) :
    (edit.apply message).bodyOffset = message.bodyOffset := by
  cases edit with
  | append name value => rfl
  | prepend name value => rfl
  | set name value =>
      change (message.setHeader name value).bodyOffset = _
      unfold setHeader
      split <;> rfl
  | remove name => rfl

/- The body starts within the bytes. -/
theorem bodyOffset_le
    {raw : Bytes}
    {message : Message}
    (hParse : parse raw = .ok message) :
    message.bodyOffset ≤ raw.length := by
  unfold parse at hParse
  split at hParse
  · cases hParse
  · cases hParse
    exact Nat.sub_le _ _

end Message

/- The message, if there is one, has its body at an offset. -/
def StartsAt
    (offset : Nat)
    (t : Transaction) : Prop :=
  ∀ message, t.message = some message →
    message.bodyOffset = offset

theorem StartsAt.mapMessage
    {offset : Nat}
    {t : Transaction}
    (hStarts : StartsAt offset t)
    {change : Message → Message}
    (hChange :
      ∀ message : Message,
        (change message).bodyOffset = message.bodyOffset) :
    StartsAt offset (t.mapMessage change) := by
  intro other hOther
  rcases Option.map_eq_some_iff.mp hOther with
    ⟨message, hMessage, rfl⟩
  rw [hChange]
  exact hStarts message hMessage

/- No action moves the body of a message. -/
theorem StartsAt.run
    {offset : Nat}
    {state : Transaction × Files}
    (hStarts : StartsAt offset state.1)
    (action : Action) :
    StartsAt offset (action.run state).1 := by
  rcases state with ⟨t, files⟩
  cases action with
  | edit change =>
      exact hStarts.mapMessage (Message.bodyOffset_edit change)
  | responseMsg text => exact hStarts
  | reply code text => exact hStarts
  | sender address => exact hStarts
  | recipients addresses => exact hStarts
  | dropMessage =>
      intro message hMessage
      cases hMessage
  | deleteSpool => exact hStarts
  | renameDirectory source target => exact hStarts
  | write content keepStamp => exact hStarts

------------------------------------------------------------
-- What A Message Was Read From
------------------------------------------------------------

/- The body of the message is where its source has it. -/
def Stage.IsRead
    (s : Stage) : Prop :=
  ∃ read,
    Message.parse s.source = .ok read ∧
      StartsAt read.bodyOffset s.transaction

namespace Stage

theorem IsRead.reload
    {s : Stage}
    (hRead : s.IsRead)
    (path : Path) :
    (s.reload path).IsRead := by
  unfold Stage.reload
  split
  · exact hRead
  · rename_i raw message hLoad
    refine ⟨message, (Files.load?_eq_some_iff.mp hLoad).2, ?_⟩
    intro other hOther
    cases hOther
    rfl

theorem IsRead.pass
    {m : Module}
    (hModule : m.Follows fun _ => True)
    (settings : Settings)
    {s : Stage}
    (hRead : s.IsRead) :
    (m.pass settings s).2.IsRead := by
  rcases hRead with ⟨read, hParse, hStarts⟩
  have hRun :
      StartsAt read.bodyOffset
        (m.run settings s.transaction s.files).2.1 :=
    hModule.keeps
      (fun state => StartsAt read.bodyOffset state.1)
      (fun action _ _ hState => hState.run action)
      settings hStarts
  unfold Module.pass
  dsimp only
  split
  · apply IsRead.reload
    exact ⟨read, hParse, hRun⟩
  · exact ⟨read, hParse, hRun⟩

end Stage

namespace Queue

variable {queue : Queue}
variable {settings : Settings}
variable {t after : Transaction}
variable {w w' : World}
variable {disposition : Disposition}
variable {raw : Bytes}
variable {before message : Message}

/-
  The message that a chain leaves has the offset that it was
  last read with.
-/
theorem isRead_left
    (hModules : ∀ m ∈ queue.modules, m.Follows fun _ => True)
    (hPolicy : queue.policy.KeepsMessage)
    (hParse : Message.parse raw = .ok before)
    (hMessage : t.message = some before)
    (settings : Settings)
    (w : World) :
    (queue.left settings t w raw).IsRead := by
  apply left_keeps hPolicy settings Stage.IsRead
  · rintro s other ⟨read, hSource, hStarts⟩ hSame _
    refine ⟨read, hSource, ?_⟩
    intro message hOther
    exact hStarts message (hSame.symm.trans hOther)
  · intro m hm s hRead
    exact hRead.pass (hModules m hm) settings
  · rintro s value ⟨read, hSource, hStarts⟩
    exact ⟨read, hSource, hStarts.mapMessage fun _ => rfl⟩
  · refine ⟨before, hParse, ?_⟩
    intro other hOther
    cases hMessage.symm.trans hOther
    rfl

/- What a file that was written back holds. -/
theorem content?_of_dirty
    (hMessage : t.message = some before)
    (hProcess :
      queue.process settings t w =
        ((.ok disposition, after), w'))
    (hProcessed : disposition.IsProcessed)
    {s : Stage}
    (hStage : queue.left settings t w raw = s)
    (hLeft : s.transaction.message = some message)
    (hDirty : ¬ message.entries.Perm before.entries) :
    ∃ old,
      s.files.content? s.path = some old ∧
        w'.files.content? s.path =
          some (message.block ++
            old.drop message.bodyOffset) := by
  subst hStage
  rcases steps_of_process hProcess hProcessed raw with
    ⟨between, written, flushed, w'', hFiles, hFlush, hHand⟩
  have hFile := queue.content?_handOn settings flushed w''
  rw [hHand] at hFile
  rcases Chain.flush_of_ok hFlush with
    ⟨_, _, hClean⟩ | ⟨found, old, hFound, _, hOld, hNew, rfl⟩
  · have hSame := hClean message hLeft
    rw [hMessage, Snapshot.isDirty_take_eq_false_iff] at hSame
    exact absurd hSame.symm hDirty
  · cases hLeft.symm.trans hFound
    refine ⟨old, ?_, hFile.trans hNew⟩
    rw [← hFiles]
    exact hOld

end Queue

------------------------------------------------------------
-- Chains That Leave Traces
------------------------------------------------------------

/- An action that leaves a spool file that can be read. -/
def Action.IsReadable : Action → Prop
  | .write content _ =>
      ∃ message, Message.parse content = .ok message
  | .deleteSpool => False
  | .renameDirectory _ _ => False
  | .edit _ => True
  | .responseMsg _ => True
  | .reply _ _ => True
  | .sender _ => True
  | .recipients _ => True
  | .dropMessage => True

/-
  A module that changes the content of the spool file succeeds
  and leaves another stamp.
-/
def Module.LeavesTraces
    (m : Module) : Prop :=
  ∀ settings t files,
    (m.run settings t files).2.2.content? t.envelope.messageFile ≠
        files.content? t.envelope.messageFile →
      (m.run settings t files).1 = 0 ∧
        (m.run settings t files).2.2.modified?
            t.envelope.messageFile ≠
          files.modified? t.envelope.messageFile

/- The spool file is there and reads as a message. -/
structure Readable
    (path : Path)
    (state : Transaction × Files) : Prop where
  file : state.1.envelope.messageFile = path
  parses :
    ∃ raw read,
      state.2.content? path = some raw ∧
        Message.parse raw = .ok read
  allowed : state.2.refusal .read path = none

namespace Readable

variable {path : Path}

theorem refusal_overwrite
    (files : Files)
    (content : Bytes)
    (keepStamp : Bool) :
    (files.overwrite path content keepStamp).refusal =
      files.refusal := by
  unfold Files.overwrite
  split <;> rfl

/- One case for each kind of action. -/
theorem run
    {action : Action}
    (hAction : action.IsReadable)
    {state : Transaction × Files}
    (hState : Readable path state) :
    Readable path (action.run state) := by
  rcases state with ⟨t, files⟩
  rcases hState with ⟨hFile, hParses, hAllowed⟩
  cases action with
  | edit change => exact ⟨hFile, hParses, hAllowed⟩
  | responseMsg text => exact ⟨hFile, hParses, hAllowed⟩
  | reply code text => exact ⟨hFile, hParses, hAllowed⟩
  | sender address => exact ⟨hFile, hParses, hAllowed⟩
  | recipients addresses => exact ⟨hFile, hParses, hAllowed⟩
  | dropMessage => exact ⟨hFile, hParses, hAllowed⟩
  | deleteSpool => exact hAction.elim
  | renameDirectory source target => exact hAction.elim
  | write content keepStamp =>
      rcases hAction with ⟨read, hRead⟩
      rcases hParses with ⟨old, _, hOld, _⟩
      refine ⟨hFile, ⟨content, read, ?_, hRead⟩, ?_⟩
      · rw [← hFile] at hOld ⊢
        exact Files.content?_overwrite hOld content keepStamp
      · change (files.overwrite _ content keepStamp).refusal
          .read path = none
        rw [refusal_overwrite]
        exact hAllowed

end Readable

/- The message was last read from what the file holds. -/
structure Stage.InStep
    (path : Path)
    (s : Stage) : Prop where
  readable : Readable path (s.transaction, s.files)
  content : s.files.content? path = some s.source

namespace Stage

variable {path : Path}

theorem InStep.reload
    {s : Stage}
    (hReadable : Readable path (s.transaction, s.files)) :
    (s.reload path).InStep path := by
  rcases hReadable.parses with ⟨raw, read, hRaw, hParse⟩
  have hRead :=
    Files.read_of_content? hReadable.allowed hRaw
  have hLoad :=
    Files.load?_eq_some_iff.mpr ⟨hRead, hParse⟩
  unfold Stage.reload
  rw [hLoad]
  exact ⟨⟨hReadable.file, hReadable.parses,
    hReadable.allowed⟩, hRaw⟩

theorem InStep.pass
    {m : Module}
    (hModule : m.Follows Action.IsReadable)
    (hTraces : m.LeavesTraces)
    (settings : Settings)
    {s : Stage}
    (hStep : s.InStep path) :
    (m.pass settings s).2.InStep path := by
  have hRun :=
    hModule.keeps (Readable path)
      (fun _ hAction _ hState => hState.run hAction)
      settings hStep.readable
  have hPath : s.transaction.envelope.messageFile = path :=
    hStep.readable.file
  have hTrace := hTraces settings s.transaction s.files
  rw [hPath] at hTrace
  unfold Module.pass Stage.path
  dsimp only
  rw [hPath]
  split
  · apply InStep.reload
    exact hRun
  · rename_i hNone
    refine ⟨hRun, ?_⟩
    by_contra hOther
    apply hNone
    apply hTrace
    rw [hStep.content]
    exact hOther

end Stage

namespace Queue

variable {queue : Queue}
variable {settings : Settings}
variable {t after : Transaction}
variable {w w' : World}
variable {disposition : Disposition}
variable {raw : Bytes}
variable {before message : Message}

/- Such a chain leaves what the message was read from. -/
theorem inStep_left
    (hModules :
      ∀ m ∈ queue.modules,
        m.Follows Action.IsReadable ∧ m.LeavesTraces)
    (hPolicy : queue.policy.KeepsMessage)
    (hParse : Message.parse raw = .ok before)
    (hSpool :
      w.files.content? t.envelope.messageFile = some raw)
    (hAllowed :
      w.files.refusal .read t.envelope.messageFile = none)
    (settings : Settings) :
    (queue.left settings t w raw).InStep
      t.envelope.messageFile := by
  apply left_keeps hPolicy settings
    (Stage.InStep t.envelope.messageFile)
  · rintro s other ⟨⟨hFile, hParses, hRefusal⟩, hContent⟩ _ hSame
    exact ⟨⟨hSame.trans hFile, hParses, hRefusal⟩, hContent⟩
  · intro m hm s hStep
    exact hStep.pass (hModules m hm).1 (hModules m hm).2
      settings
  · rintro s value ⟨⟨hFile, hParses, hRefusal⟩, hContent⟩
    exact ⟨⟨hFile, hParses, hRefusal⟩, hContent⟩
  · exact ⟨⟨rfl, ⟨raw, before, hSpool, hParse⟩, hAllowed⟩,
      hSpool⟩

/- If all modules leave traces the body survives. -/
theorem body_of_leavesTraces
    (hModules :
      ∀ m ∈ queue.modules,
        m.Follows Action.IsReadable ∧ m.LeavesTraces)
    (hPolicy : queue.policy.KeepsMessage)
    (hParse : Message.parse raw = .ok before)
    (hSpool :
      w.files.content? t.envelope.messageFile = some raw)
    (hAllowed :
      w.files.refusal .read t.envelope.messageFile = none)
    (hMessage : t.message = some before)
    (hProcess :
      queue.process settings t w =
        ((.ok disposition, after), w'))
    (hProcessed : disposition.IsProcessed)
    {s : Stage}
    (hStage : queue.left settings t w raw = s)
    (hLeft : s.transaction.message = some message)
    (hDirty : ¬ message.entries.Perm before.entries) :
    ∃ old now,
      s.files.content? s.path = some old ∧
        Message.parse old = .ok now ∧
        w'.files.content? s.path =
          some (message.block ++
            old.drop now.bodyOffset) := by
  rcases content?_of_dirty hMessage hProcess hProcessed hStage
      hLeft hDirty with
    ⟨old, hOld, hNew⟩
  have hStep :=
    inStep_left hModules hPolicy hParse hSpool hAllowed settings
  have hRead :=
    isRead_left
      (fun m hm => (hModules m hm).1.mono fun _ _ => trivial)
      hPolicy hParse hMessage settings w
  rw [hStage] at hStep hRead
  rcases hRead with ⟨now, hNow, hStarts⟩
  have hPath : s.path = t.envelope.messageFile :=
    hStep.readable.file
  have hSource : old = s.source := by
    have hContent := hStep.content
    rw [← hPath, hOld] at hContent
    exact Option.some.inj hContent
  rw [← hSource] at hNow
  rw [hStarts message hLeft] at hNew
  exact ⟨old, now, hOld, hNow, hNew⟩

------------------------------------------------------------
-- The Body Of The File
------------------------------------------------------------

/-
  The body that a written file has is the one it had, exactly
  if the old file has its body at the offset that the message
  was last read with. That holds for all modules and policies.
  If they do not attach a message of their own, the offset is
  that of the body in what the message was last read from. If
  moreover all modules leave traces the body survives.
-/
theorem body_iff
    (hParse : Message.parse raw = .ok before)
    (hMessage : t.message = some before)
    (hProcess :
      queue.process settings t w =
        ((.ok disposition, after), w'))
    (hProcessed : disposition.IsProcessed)
    {s : Stage}
    (hStage : queue.left settings t w raw = s)
    (hLeft : s.transaction.message = some message)
    (hDirty : ¬ message.entries.Perm before.entries) :
    ∃ old,
      s.files.content? s.path = some old ∧
        (∀ now, Message.parse old = .ok now →
          (w'.files.content? s.path =
              some (message.block ++ old.drop now.bodyOffset) ↔
            min message.bodyOffset old.length =
              now.bodyOffset)) ∧
        ((∀ m ∈ queue.modules, m.Follows fun _ => True) →
          queue.policy.KeepsMessage →
          ∃ read,
            Message.parse s.source = .ok read ∧
              message.bodyOffset = read.bodyOffset) ∧
        ((∀ m ∈ queue.modules,
            m.Follows Action.IsReadable ∧ m.LeavesTraces) →
          queue.policy.KeepsMessage →
          w.files.content? t.envelope.messageFile = some raw →
          w.files.refusal .read t.envelope.messageFile = none →
          ∃ now,
            Message.parse old = .ok now ∧
              w'.files.content? s.path =
                some (message.block ++
                  old.drop now.bodyOffset)) := by
  rcases content?_of_dirty hMessage hProcess hProcessed hStage
      hLeft hDirty with
    ⟨old, hOld, hNew⟩
  refine ⟨old, hOld, ?_, ?_, ?_⟩
  · intro now hNow
    have hEnd :
        min now.bodyOffset old.length = now.bodyOffset :=
      Nat.min_eq_left (Message.bodyOffset_le hNow)
    rw [hNew, Option.some_inj, List.append_cancel_left_eq,
      List.drop_eq_drop_iff, hEnd]
  · intro hModules hPolicy
    rcases isRead_left hModules hPolicy hParse hMessage settings
        w with
      ⟨read, hSource, hStarts⟩
    rw [hStage] at hSource hStarts
    exact ⟨read, hSource, hStarts message hLeft⟩
  · intro hModules hPolicy hSpool hAllowed
    rcases body_of_leavesTraces hModules hPolicy hParse hSpool
        hAllowed hMessage hProcess hProcessed hStage hLeft
        hDirty with
      ⟨other, now, hOther, hNow, hBody⟩
    cases hOld.symm.trans hOther
    exact ⟨now, hNow, hBody⟩

/- A field that was added leaves the body as it was. -/
theorem body_markOnce :
    ∃ after w' message,
      markOnce.process .holding (.holding plainMessage)
          (.holding plainMail) =
        ((.ok .completed, after), w') ∧
        after.message = some message ∧
        w'.files.content? (.spooled "/q" 0) =
          some (message.block ++ Utf8.encode "body\r\n") := by
  rcases hEnd :
      markOnce.process .holding (.holding plainMessage)
        (.holding plainMail) with
    ⟨⟨result, after⟩, w'⟩
  have hRun :
      (markOnce.process .holding (.holding plainMessage)
            (.holding plainMail)).1.1.toOption =
          some .completed ∧
        (markOnce.process .holding (.holding plainMessage)
            (.holding plainMail)).1.2.message =
          some {
            headers :=
              plainMessage.headers ++ [⟨"X-Seen", "1", none⟩]
            bodyOffset := 25
            crlf := true } := by
    decide +kernel
  rw [hEnd] at hRun
  rcases hRun with ⟨hResult, hMessage⟩
  cases result with
  | error e => cases hResult
  | ok disposition =>
      cases hResult
      refine ⟨after, w', _, rfl, hMessage, ?_⟩
      have hParse : Message.parse plainMail = .ok plainMessage := by
        decide +kernel
      have hLeft :
          (markOnce.left .holding (.holding plainMessage)
              (.holding plainMail)
              plainMail).transaction.message =
            some (plainMessage.appendHeader "X-Seen" "1") := by
        decide
      rcases body_iff hParse rfl hEnd (Or.inl rfl) rfl hLeft
          (by decide) with
        ⟨old, hOld, hBody, _⟩
      have hPlain : old = plainMail :=
        Option.some.inj (hOld.symm.trans (by decide +kernel))
      rw [hPlain] at hBody
      exact (hBody plainMessage hParse).mpr (by decide)

/-
  A module writes the spool file, adds a field to the headers
  that were read before, and fails.
-/
def writeAndAppend : Queue where
  modules := [
    .scripted "m1"
      [.write markedMail false, .edit (.append "B" "2")]
      2
  ]
  policy := Smtp.policy

/-
  The policy goes on, and part of the headers in the file
  becomes part of the body.
-/
theorem not_body_writeAndAppend :
    ∃ after w' message now,
      writeAndAppend.process .holding (.holding plainMessage)
          (.holding plainMail) =
        ((.ok .stopped, after), w') ∧
        after.message = some message ∧
        (writeAndAppend.left .holding (.holding plainMessage)
            (.holding plainMail)
            plainMail).files.content? (.spooled "/q" 0) =
          some markedMail ∧
        Message.parse markedMail = .ok now ∧
        markedMail.drop now.bodyOffset =
          Utf8.encode "body\r\n" ∧
        w'.files.content? (.spooled "/q" 0) =
          some (message.block ++
            Utf8.encode "Seen: 1\r\n\r\nbody\r\n") ∧
        w'.files.content? (.spooled "/q" 0) ≠
          some (message.block ++
            markedMail.drop now.bodyOffset) := by
  rcases hEnd :
      writeAndAppend.process .holding (.holding plainMessage)
        (.holding plainMail) with
    ⟨⟨result, after⟩, w'⟩
  have hRun :
      (writeAndAppend.process .holding (.holding plainMessage)
            (.holding plainMail)).1.1.toOption =
          some .stopped ∧
        (writeAndAppend.process .holding
            (.holding plainMessage)
            (.holding plainMail)).1.2.message =
          some {
            headers :=
              plainMessage.headers ++ [⟨"B", "2", none⟩]
            bodyOffset := 20
            crlf := true } ∧
        (writeAndAppend.left .holding (.holding plainMessage)
            (.holding plainMail)
            plainMail).files.content? (.spooled "/q" 0) =
          some markedMail ∧
        (writeAndAppend.process .holding
            (.holding plainMessage)
            (.holding plainMail)).2.files.content?
              (.spooled "/q" 0) =
          some (Utf8.encode "Subject: a\r\nB: 2\r\n\r\n" ++
            Utf8.encode "Seen: 1\r\n\r\nbody\r\n") := by
    decide +kernel
  rw [hEnd] at hRun
  rcases hRun with ⟨hResult, hMessage, hOld, hNew⟩
  cases result with
  | error e => cases hResult
  | ok disposition =>
      cases hResult
      refine ⟨after, w', _,
        { headers := [
            ⟨"Subject", "a", some (Utf8.encode "Subject: a")⟩,
            ⟨"X-Seen", "1", some (Utf8.encode "X-Seen: 1")⟩]
          bodyOffset := 25
          crlf := true },
        rfl, hMessage, hOld, by decide +kernel, by decide, hNew, ?_⟩
      rw [hNew]
      decide

end Queue

end MailFilter
