import MailFilter.Proofs.Chain.Flush
import MailFilter.Proofs.Message.ReadBack
import MailFilter.Proofs.Message.Snapshot

/-
  When the spool file that a chain leaves has the headers of
  the message that the transaction holds.

  Modules may change the headers, and write the file. The
  headers are compared with those from before the chain. So
  what a module wrote to the file stays there if the headers
  are changed back later.

  Key definitions include:
    * `Action.IsTidy`
    * `Files.ReadsAs`

  Main statements:
    * `Queue.isTidy_left`
    * `Queue.readsAs_iff`
-/

namespace MailFilter

open World

------------------------------------------------------------
-- Tidy Chains
------------------------------------------------------------

/-
  An action that names headers with printable names only, and
  writes nothing but terminated messages to the spool file.
-/
def Action.IsTidy : Action → Prop
  | .edit change => Header.IsPrintable change.name
  | .write content _ => Message.IsTerminated content
  | .deleteSpool => False
  | .renameDirectory _ _ => False
  | .responseMsg _ => True
  | .reply _ _ => True
  | .sender _ => True
  | .recipients _ => True
  | .dropMessage => True

/- A file reads as a message with these headers. -/
def Files.ReadsAs
    (files : Files)
    (path : Path)
    (entries : List (String × String)) : Prop :=
  ∃ raw read,
    files.content? path = some raw ∧
      Message.parse raw = .ok read ∧
      read.entries.Perm entries

/-
  The message, if there is one, has sound headers, and its
  spool file is terminated.
-/
structure Tidy
    (path : Path)
    (state : Transaction × Files) : Prop where
  file : state.1.envelope.messageFile = path
  sound :
    ∀ message, state.1.message = some message →
      message.IsSound
  terminated :
    ∃ raw,
      state.2.content? path = some raw ∧
        Message.IsTerminated raw

/- A file that was written in place holds what was written. -/
theorem Files.content?_overwrite
    {files : Files}
    {path : Path}
    {old : Bytes}
    (hOld : files.content? path = some old)
    (content : Bytes)
    (keepStamp : Bool) :
    (files.overwrite path content keepStamp).content? path =
      some content := by
  rcases Option.map_eq_some_iff.mp hOld with ⟨file, hFile, _⟩
  unfold Files.overwrite
  rw [hFile]
  change ((files.put _ _).file? path).map _ = _
  rw [Files.file?_put, if_pos rfl]
  rfl

namespace Tidy

variable {path : Path}

/- Another message may be attached if it is sound. -/
theorem withMessage
    {t : Transaction}
    {files : Files}
    (hTidy : Tidy path (t, files))
    {message : Option Message}
    (hSound :
      ∀ other, message = some other → other.IsSound) :
    Tidy path (t.withMessage message, files) :=
  ⟨hTidy.file, hSound, hTidy.terminated⟩

theorem mapMessage
    {t : Transaction}
    {files : Files}
    (hTidy : Tidy path (t, files))
    {change : Message → Message}
    (hChange :
      ∀ message : Message, message.IsSound →
        (change message).IsSound) :
    Tidy path (t.mapMessage change, files) := by
  apply hTidy.withMessage
  intro other hOther
  rcases Option.map_eq_some_iff.mp hOther with
    ⟨message, hMessage, rfl⟩
  exact hChange message (hTidy.sound message hMessage)

/- One case for each kind of action. -/
theorem run
    {action : Action}
    (hAction : action.IsTidy)
    {state : Transaction × Files}
    (hTidy : Tidy path state) :
    Tidy path (action.run state) := by
  rcases state with ⟨t, files⟩
  cases action with
  | edit change =>
      exact hTidy.mapMessage
        fun _ hSound => Message.isSound_edit hSound hAction
  | responseMsg text =>
      exact ⟨hTidy.file, hTidy.sound, hTidy.terminated⟩
  | reply code text =>
      exact ⟨hTidy.file, hTidy.sound, hTidy.terminated⟩
  | sender address =>
      exact ⟨hTidy.file, hTidy.sound, hTidy.terminated⟩
  | recipients addresses =>
      exact ⟨hTidy.file, hTidy.sound, hTidy.terminated⟩
  | dropMessage => exact hTidy.withMessage (by simp)
  | deleteSpool => exact hAction.elim
  | renameDirectory source target => exact hAction.elim
  | write content keepStamp =>
      refine ⟨hTidy.file, hTidy.sound, content, ?_, hAction⟩
      rcases hTidy.terminated with ⟨old, hOld, _⟩
      rw [← hTidy.file] at hOld ⊢
      exact Files.content?_overwrite hOld content keepStamp

/- The message that a tidy file reads as is sound. -/
theorem reload
    {s : Stage}
    (hTidy : Tidy path (s.transaction, s.files)) :
    Tidy path
      ((s.reload path).transaction, (s.reload path).files) := by
  unfold Stage.reload
  split
  · exact hTidy
  · rename_i raw message hLoad
    apply hTidy.withMessage
    intro other hOther
    cases hOther
    rcases Files.load?_eq_some_iff.mp hLoad with
      ⟨hRead, hParse⟩
    rcases hTidy.terminated with ⟨old, hOld, hRaw⟩
    rw [Files.content?_of_read hRead] at hOld
    cases hOld
    rcases Message.isSound_of_isTerminated hRaw with
      ⟨found, hFound, hSound⟩
    rw [hParse] at hFound
    cases hFound
    exact hSound

/- A module that does tidy actions only keeps a stage tidy. -/
theorem pass
    {m : Module}
    (hModule : m.Follows Action.IsTidy)
    (settings : Settings)
    {s : Stage}
    (hTidy : Tidy path (s.transaction, s.files)) :
    Tidy path
      ((m.pass settings s).2.transaction,
        (m.pass settings s).2.files) := by
  have hRun :=
    hModule.keeps (Tidy path)
      (fun _ hAction _ hState => hState.run hAction)
      settings hTidy
  have hPath : s.path = path := hTidy.file
  unfold Module.pass
  dsimp only
  split
  · rw [hPath]
    exact Tidy.reload hRun
  · exact hRun

end Tidy

------------------------------------------------------------
-- What A Chain Leaves
------------------------------------------------------------

namespace Queue

variable {queue : Queue}
variable {settings : Settings}
variable {t : Transaction}
variable {w : World}

theorem isPrintable_traceHeader :
    Header.IsPrintable traceHeader := by
  decide +kernel

/- A tidy chain leaves sound headers and a terminated file. -/
theorem isTidy_left
    (hModules : ∀ m ∈ queue.modules, m.Follows Action.IsTidy)
    (hPolicy : queue.policy.KeepsMessage)
    (hTidy : Tidy t.envelope.messageFile (t, w.files))
    (settings : Settings)
    (source : Bytes) :
    Tidy t.envelope.messageFile
      ((queue.left settings t w source).transaction,
        (queue.left settings t w source).files) := by
  apply left_keeps hPolicy settings fun s =>
    Tidy t.envelope.messageFile (s.transaction, s.files)
  · intro s other hInv hMessage hFile
    refine ⟨hFile.trans hInv.file, ?_, hInv.terminated⟩
    intro message hOther
    exact hInv.sound message (hMessage.symm.trans hOther)
  · intro m hm s hInv
    exact hInv.pass (hModules m hm) settings
  · intro s value hInv
    exact hInv.mapMessage fun _ hSound =>
      Message.isSound_appendHeader hSound
        isPrintable_traceHeader value
  · exact hTidy

------------------------------------------------------------
-- Agreement
------------------------------------------------------------

variable {after : Transaction}
variable {w' : World}
variable {disposition : Disposition}
variable {before message : Message}

/-
  A message with the headers from before the chain is not
  written. Its file is what the modules left.
-/
theorem content?_of_perm
    (hPolicy : queue.policy.KeepsMessage)
    (hMessage : t.message = some before)
    (hProcess :
      queue.process settings t w =
        ((.ok disposition, after), w'))
    (hProcessed : disposition.IsProcessed)
    (hHeld : after.message = some message)
    (hPerm : message.entries.Perm before.entries)
    (source : Bytes) :
    w'.files.content? after.envelope.messageFile =
      (queue.left settings t w source).files.content?
        (queue.left settings t w source).path := by
  rcases steps_of_process hProcess hProcessed source with
    ⟨between, written, flushed, w'', hFiles, hFlush, hHand⟩
  have hKept :=
    handOn_of_keepsMessage hPolicy settings flushed w''
  have hFile := queue.content?_handOn settings flushed w''
  rw [hHand] at hKept hFile
  rw [hKept.2, hFile]
  rcases Chain.flush_of_ok hFlush with
    ⟨rfl, hSame, _⟩ | ⟨found, raw, hFound, hDirty, _, _, rfl⟩
  · rw [hSame, hFiles]
    rfl
  · have hEq : found.rebase = message :=
      Option.some.inj (hKept.1.symm.trans hHeld)
    have hClean :=
      (Snapshot.isDirty_take_eq_false_iff before found).mpr (by
        rw [← hEq] at hPerm
        exact hPerm.symm)
    rw [hMessage, hClean] at hDirty
    cases hDirty

/-
  A message with other headers is written before the rest of
  the file.
-/
theorem content?_of_not_perm
    (hPolicy : queue.policy.KeepsMessage)
    (hMessage : t.message = some before)
    (hProcess :
      queue.process settings t w =
        ((.ok disposition, after), w'))
    (hProcessed : disposition.IsProcessed)
    (hHeld : after.message = some message)
    (hPerm : ¬ message.entries.Perm before.entries)
    (source : Bytes) :
    ∃ found raw,
      (queue.left settings t w source).transaction.message =
          some found ∧
        message = found.rebase ∧
        (queue.left settings t w source).files.content?
            (queue.left settings t w source).path =
          some raw ∧
        w'.files.content? after.envelope.messageFile =
          some (found.block ++ raw.drop found.bodyOffset) := by
  rcases steps_of_process hProcess hProcessed source with
    ⟨between, written, flushed, w'', hFiles, hFlush, hHand⟩
  have hKept :=
    handOn_of_keepsMessage hPolicy settings flushed w''
  have hFile := queue.content?_handOn settings flushed w''
  rw [hHand] at hKept hFile
  rw [hKept.2, hFile, ← hFiles]
  rcases Chain.flush_of_ok hFlush with
    ⟨rfl, _, hClean⟩
      | ⟨found, raw, hFound, _, hRaw, hContent, rfl⟩
  · have hSame := hClean message (hKept.1.symm.trans hHeld)
    rw [hMessage,
      Snapshot.isDirty_take_eq_false_iff] at hSame
    exact absurd hSame.symm hPerm
  · have hEq : found.rebase = message :=
      Option.some.inj (hKept.1.symm.trans hHeld)
    exact ⟨found, raw, hFound, hEq.symm, hRaw, hContent⟩

------------------------------------------------------------
-- Chains That Mark A Message
------------------------------------------------------------

/- A message with one field. -/
def plainMail : Bytes :=
  Utf8.encode "Subject: a\r\n\r\nbody\r\n"

/- The same message with a field more. -/
def markedMail : Bytes :=
  Utf8.encode "Subject: a\r\nX-Seen: 1\r\n\r\nbody\r\n"

/- What the message with one field is read as. -/
def plainMessage : Message where
  headers :=
    [⟨"Subject", "a", some (Utf8.encode "Subject: a")⟩]
  bodyOffset := 14
  crlf := true

/- One module adds the field, the next one removes it. -/
def markAndUnmark : Queue where
  modules := [
    .scripted "m1" [.write markedMail false] 0,
    .scripted "m2" [.edit (.remove "X-Seen")] 0
  ]
  policy := Smtp.policy

/- The only module adds the field to the headers. -/
def markOnce : Queue where
  modules := [
    .scripted "m1" [.edit (.append "X-Seen" "1")] 0
  ]
  policy := Smtp.policy

theorem isEntry_subject :
    Bytes.IsEntry (Utf8.encode "Subject: a\r\n") :=
  ⟨Or.inl ⟨Utf8.encode "Subject", Utf8.encode " a\r",
    by decide, by decide, by decide, by decide⟩,
    by decide, by decide⟩

theorem isTerminated_plainMail :
    Message.IsTerminated plainMail := by
  refine ⟨[Utf8.encode "Subject: a\r\n"], Utf8.encode "\r\n",
    Utf8.encode "body\r\n", by decide, ?_, by decide,
    Or.inr (by decide)⟩
  intro entry hEntry
  rw [List.mem_singleton.mp hEntry]
  exact isEntry_subject

theorem isTerminated_markedMail :
    Message.IsTerminated markedMail := by
  refine ⟨[Utf8.encode "Subject: a\r\n",
    Utf8.encode "X-Seen: 1\r\n"], Utf8.encode "\r\n",
    Utf8.encode "body\r\n", by decide, ?_, by decide,
    Or.inr (by decide)⟩
  intro entry hEntry
  simp only [List.mem_cons, List.not_mem_nil, or_false]
    at hEntry
  rcases hEntry with rfl | rfl
  · exact isEntry_subject
  · exact ⟨Or.inl ⟨Utf8.encode "X-Seen", Utf8.encode " 1\r",
      by decide, by decide, by decide, by decide⟩,
      by decide, by decide⟩

theorem isPrintable_seen :
    Header.IsPrintable "X-Seen" := by
  decide +kernel

theorem follows_markOnce :
    ∀ m ∈ markOnce.modules, m.Follows Action.IsTidy := by
  intro m hm
  rw [List.mem_singleton.mp hm]
  apply Module.follows_scripted
  intro action hAction
  rw [List.mem_singleton.mp hAction]
  exact isPrintable_seen

theorem follows_markAndUnmark :
    ∀ m ∈ markAndUnmark.modules,
      (m.Follows fun action =>
          action.IsTidy ∧
            ∀ content, action ≠ .write content true) ∧
        ∀ settings t files,
          (m.run settings t files).1 = 0 := by
  intro m hm
  simp only [markAndUnmark, List.mem_cons, List.not_mem_nil,
    or_false] at hm
  rcases hm with rfl | rfl
  · refine ⟨Module.follows_scripted ?_ _ _, fun _ _ _ => rfl⟩
    intro action hAction
    rw [List.mem_singleton.mp hAction]
    exact ⟨isTerminated_markedMail, by simp⟩
  · refine ⟨Module.follows_scripted ?_ _ _, fun _ _ _ => rfl⟩
    intro action hAction
    rw [List.mem_singleton.mp hAction]
    exact ⟨isPrintable_seen, by simp⟩

------------------------------------------------------------
-- The Headers Of The File
------------------------------------------------------------

/-
  The spool file has the headers of the message that is held,
  exactly in two cases. Either the headers are those from
  before the chain, and the file as the modules left it has
  them too. Or they are not, and they are read back as they
  are written.
-/
theorem readsAs_iff
    {raw : Bytes}
    (hModules : ∀ m ∈ queue.modules, m.Follows Action.IsTidy)
    (hPolicy : queue.policy.KeepsMessage)
    (hSpool :
      w.files.content? t.envelope.messageFile = some raw)
    (hRaw : Message.IsTerminated raw)
    (hParse : Message.parse raw = .ok before)
    (hMessage : t.message = some before)
    (hProcess :
      queue.process settings t w =
        ((.ok .completed, after), w'))
    (hHeld : after.message = some message) :
    w'.files.ReadsAs after.envelope.messageFile message.entries ↔
      (message.entries.Perm before.entries ∧
          (queue.left settings t w raw).files.ReadsAs
            t.envelope.messageFile before.entries) ∨
        (¬ message.entries.Perm before.entries ∧
          message.ReadsBack) := by
  have hProcessed : Disposition.completed.IsProcessed :=
    Or.inl rfl
  rcases Message.isSound_of_isTerminated hRaw with
    ⟨found, hFound, hSound⟩
  rw [hParse] at hFound
  cases hFound
  have hTidy : Tidy t.envelope.messageFile (t, w.files) := by
    refine ⟨rfl, ?_, raw, hSpool, hRaw⟩
    intro other hOther
    rw [hMessage] at hOther
    cases hOther
    exact hSound
  have hLeft :=
    isTidy_left hModules hPolicy hTidy settings raw
  have hPath :
      (queue.left settings t w raw).path =
        t.envelope.messageFile :=
    hLeft.file
  by_cases hPerm : message.entries.Perm before.entries
  · have hContent :=
      content?_of_perm hPolicy hMessage hProcess hProcessed
        hHeld hPerm raw
    rw [hPath] at hContent
    simp only [hPerm, true_and, not_true_eq_false, false_and,
      or_false, Files.ReadsAs, hContent]
    constructor
    · rintro ⟨kept, read, hKept, hRead, hSame⟩
      exact ⟨kept, read, hKept, hRead, hSame.trans hPerm⟩
    · rintro ⟨kept, read, hKept, hRead, hSame⟩
      exact ⟨kept, read, hKept, hRead, hSame.trans hPerm.symm⟩
  · rcases content?_of_not_perm hPolicy hMessage hProcess
        hProcessed hHeld hPerm raw with
      ⟨found, rest, hFound, rfl, _, hContent⟩
    have hSound : found.rebase.IsSound :=
      hLeft.sound found hFound
    have hRead :=
      Message.exists_perm_iff_readsBack hSound
        (rest.drop found.bodyOffset)
    simp only [hPerm, false_and, not_false_eq_true, true_and,
      false_or, Files.ReadsAs, hContent, ← hRead]
    constructor
    · rintro ⟨kept, read, hKept, hParsed, hSame⟩
      cases hKept
      exact ⟨read, hParsed, hSame⟩
    · rintro ⟨read, hParsed, hSame⟩
      exact ⟨_, read, rfl, hParsed, hSame⟩

/- A field that was added to the headers is in the file. -/
theorem readsAs_markOnce :
    ∃ after w' message,
      markOnce.process .holding (.holding plainMessage)
          (.holding plainMail) =
        ((.ok .completed, after), w') ∧
        after.message = some message ∧
        message.entries =
          [("subject", "a"), ("x-seen", "1")] ∧
        w'.files.ReadsAs after.envelope.messageFile
          message.entries := by
  rcases hEnd :
      markOnce.process .holding (.holding plainMessage)
        (.holding plainMail) with
    ⟨⟨result, after⟩, w'⟩
  have hRun :
      (markOnce.process .holding (.holding plainMessage)
            (.holding plainMail)).1.1.toOption =
          some .completed ∧
        (markOnce.process .holding (.holding plainMessage)
            (.holding plainMail)).1.2.message =
          some {
            headers :=
              plainMessage.headers ++ [⟨"X-Seen", "1", none⟩]
            bodyOffset := 25
            crlf := true } := by
    decide +kernel
  rw [hEnd] at hRun
  rcases hRun with ⟨hResult, hMessage⟩
  cases result with
  | error e => cases hResult
  | ok disposition =>
      cases hResult
      refine ⟨after, w', _, rfl, hMessage, by decide, ?_⟩
      apply (readsAs_iff follows_markOnce
        Smtp.keepsMessage_policy (by decide)
        isTerminated_plainMail (by decide +kernel) rfl hEnd
        hMessage).mpr
      refine Or.inr ⟨by decide, ?_, by decide, by decide⟩
      intro header hHeader
      simp only [plainMessage, List.cons_append,
        List.nil_append, List.mem_cons, List.not_mem_nil,
        or_false] at hHeader
      rcases hHeader with rfl | rfl
      · decide
      · decide

/-
  A field that is added in the file and removed from the
  headers stays in the file. All modules succeed, and the
  file is written with a new stamp.
-/
theorem not_readsAs_markAndUnmark :
    (∀ m ∈ markAndUnmark.modules,
        (m.Follows fun action =>
          action.IsTidy ∧
            ∀ content, action ≠ .write content true) ∧
          ∀ settings t files,
            (m.run settings t files).1 = 0) ∧
      Message.IsTerminated plainMail ∧
      Message.parse plainMail = .ok plainMessage ∧
      ∃ after w' message,
        markAndUnmark.process .holding (.holding plainMessage)
            (.holding plainMail) =
          ((.ok .completed, after), w') ∧
          after.message = some message ∧
          message.entries = [("subject", "a")] ∧
          w'.files.content? after.envelope.messageFile =
            some markedMail ∧
          ¬ w'.files.ReadsAs after.envelope.messageFile
            message.entries := by
  refine ⟨follows_markAndUnmark, isTerminated_plainMail,
    by decide +kernel, ?_⟩
  rcases hEnd :
      markAndUnmark.process .holding (.holding plainMessage)
        (.holding plainMail) with
    ⟨⟨result, after⟩, w'⟩
  have hRun :
      (markAndUnmark.process .holding (.holding plainMessage)
            (.holding plainMail)).1.1.toOption =
          some .completed ∧
        (markAndUnmark.process .holding
            (.holding plainMessage)
            (.holding plainMail)).1.2.message =
          some { plainMessage with bodyOffset := 25 } ∧
        (markAndUnmark.process .holding
              (.holding plainMessage)
              (.holding plainMail)).2.files.content?
            (markAndUnmark.process .holding
              (.holding plainMessage)
              (.holding plainMail)).1.2.envelope.messageFile =
          some markedMail := by
    decide +kernel
  rw [hEnd] at hRun
  rcases hRun with ⟨hResult, hMessage, hContent⟩
  cases result with
  | error e => cases hResult
  | ok disposition =>
      cases hResult
      refine ⟨after, w', _, rfl, hMessage, by decide,
        hContent, ?_⟩
      rintro ⟨raw, read, hRaw, hParse, hPerm⟩
      rw [hContent] at hRaw
      cases hRaw
      have hRead :
          (Message.parse markedMail).toOption.map
              (·.headers.length) =
            some 2 := by
        decide +kernel
      rw [hParse] at hRead
      have hLength := hPerm.length_eq
      simp only [Message.entries, List.length_map] at hLength
      rw [Except.toOption, Option.map_some, hLength] at hRead
      cases hRead

end Queue

end MailFilter
