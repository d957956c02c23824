import MailFilter.Pipe
import MailFilter.Proofs.Chain.Passive
import MailFilter.Proofs.Smtp.Places
import MailFilter.Proofs.Smtp.Readiness
import MailFilter.Proofs.Smtp.Reception

/-
  What is delivered to a file if the modules leave the message
  as it is.

  The pipe delivers its input byte for byte. A connection
  delivers the lines of a message without the dots in front,
  and with the fields and the blank line that the message
  lacks. One lemma follows the lines through each stage: they
  are read, spooled, completed, loaded and handed on.

  Key definitions include:
    * `Smtp.wireEnding`
    * `Smtp.completedText`

  Main statements:
    * `Pipe.exists_run_of_passive`
    * `Smtp.exists_load_of_lines`
    * `Smtp.exists_receiveLines`
    * `Smtp.exists_file_of_reaches`
    * `delivered_of_passive`
-/

namespace MailFilter

open Bytes
open World

------------------------------------------------------------
-- The Pipe
------------------------------------------------------------

/- A file that holds a message is loaded. -/
theorem Spool.load_of_content?
    {w : World}
    (hReliable : w.files.IsReliable)
    {path : Path}
    {raw : Bytes}
    (hContent : w.files.content? path = some raw)
    {message : Message}
    (hParse : Message.parse raw = .ok message) :
    load path w = (.ok message, w) := by
  have hRead := Files.read_of_content? (hReliable _ _) hContent
  rw [load_apply, hRead]
  simp only [hParse]

/-
  Input that can be spooled and is a message goes into the
  chain as it is.
-/
theorem Pipe.exists_processInput
    {settings : Settings}
    {queue : Queue}
    {name : String}
    (hModules :
      ∀ m ∈ queue.modules, m.IsPassive settings name)
    (hHeader : settings.global.addHeader = false)
    {raw : Bytes}
    {message : Message}
    (hParse : Message.parse raw = .ok message)
    {t : Transaction}
    (hPath : t.envelope.messageFile.IsSpooled)
    {file : File}
    {w : World}
    (hReady : w.files.IsReady settings.global.queueDir)
    (hFile : w.files.file? t.envelope.messageFile = some file)
    (hSends : w.files.SendsTo settings name) :
    ∃ left after,
      processInput settings queue ⟨raw, none⟩ t w =
          ((.ok .completed, left), after) ∧
        after.files.content? (.named name) = some raw := by
  rcases Spool.exists_write hReady hFile raw with
    ⟨files, hWrite, hKept, hContent, _⟩
  simp only [processInput, spoolInput, Spool.write,
    Run.bind_apply]
  rw [Spool.attempt_of_ok hWrite]
  simp only [Run.pure_apply, Run.bind_apply]
  generalize hSpooled :
    (sayOf .debug t _ { w with files := files }).2 = spooled
  have hSame : spooled.files = files := by
    rw [← hSpooled]
    rfl
  rw [← hSame] at hKept hContent
  have hLoad :=
    Spool.load_of_content? hKept.reliable hContent hParse
  have hCarries :
      Carries settings name raw message (address t message)
        spooled.files := by
    refine ⟨rfl, hContent, hKept.reliable, ?_⟩
    rw [hSame]
    exact hSends.congr (.write hPath hWrite)
  rcases Queue.exists_process_of_passive hModules hHeader hParse
      hCarries with
    ⟨left, after, hProcess, hDelivered⟩
  rw [hLoad]
  simp only [Run.bind_apply, hProcess]
  exact ⟨left, after, rfl, hDelivered⟩

/- What the pipe reads is what it delivers. -/
theorem Pipe.exists_run_of_passive
    {settings : Settings}
    {queue : Queue}
    {name : String}
    (hModules :
      ∀ m ∈ queue.modules, m.IsPassive settings name)
    (hHeader : settings.global.addHeader = false)
    {raw : Bytes}
    {message : Message}
    (hParse : Message.parse raw = .ok message)
    {w : World}
    (hReady : w.files.IsReady settings.global.queueDir)
    (hSends : w.files.SendsTo settings name) :
    ∃ after,
      run settings queue ⟨raw, none⟩ w = (.ok .completed, after) ∧
        after.files.content? (.named name) = some raw := by
  rcases Spool.exists_create hReady with
    ⟨files, hCreate, hMade, _⟩
  rcases Files.SameNamed.create hCreate with
    ⟨hPath, hCreated⟩
  rcases exists_processInput hModules hHeader hParse
      (t := {
        id := w.transactions
        envelope := {
          messageFile :=
            .spooled settings.global.queueDir w.files.next } })
      (w := { w with
        files := files
        transactions := w.transactions + 1 })
      hPath hMade (Spool.file?_of_create hCreate).2
      (hSends.congr hCreated) with
    ⟨left, processed, hProcess, hDelivered⟩
  have hRemoved :=
    (Spool.sameNamed_remove hPath processed).content? name
  simp only [run, Run.bind_apply]
  rw [Spool.create_of_ok hCreate]
  simp only [Run.bind_apply, newTransaction_apply, hProcess]
  exact ⟨_, rfl, hRemoved.trans hDelivered⟩

namespace Smtp

------------------------------------------------------------
-- Receiving
------------------------------------------------------------

/-
  The ending of the lines that are added to a message: that
  of its first line, and that of the wire if it has none.
-/
def wireEnding
    (texts : List Bytes) : Bytes :=
  if texts.head?.all endsInCrlf then crlf else [lf]

namespace Receiver

/- The first line decides on the ending of the lines. -/
theorem crlf_takeTexts
    (receiver : Receiver)
    (texts : List Bytes) :
    (texts.foldl takeText receiver).crlf =
      receiver.crlf.or (texts.head?.map endsInCrlf) := by
  induction texts generalizing receiver with
  | nil => simp
  | cons text texts ih =>
      have hCrlf :
          (receiver.takeText text).crlf =
            some (receiver.crlf.getD (endsInCrlf text)) := by
        simp only [takeText, track]
        repeat' split
        all_goals rfl
      rw [List.foldl_cons, ih, hCrlf]
      cases receiver.crlf <;> rfl

/- The lines that are added end as the first line does. -/
theorem lineEnding_ofLines
    {lines : List Bytes}
    (hLines : ∀ line ∈ lines, ¬ IsTerminator line)
    (path : Path) :
    Utf8.encode (ofLines path lines).received.lineEnding =
      wireEnding (lines.map unstuff) := by
  have hCrlf :
      (ofLines path lines).crlf =
        (lines.map unstuff).head?.map endsInCrlf := by
    rw [ofLines_eq hLines, crlf_takeTexts]
    rfl
  have hWire : Utf8.encode "\r\n" = Bytes.crlf := by decide
  have hUnix : Utf8.encode "\n" = [lf] := by decide
  simp only [Received.lineEnding, received, hCrlf, wireEnding]
  cases (lines.map unstuff).head? with
  | none => exact hWire
  | some text =>
      cases hEnds : endsInCrlf text with
      | true => simp [hEnds, hWire]
      | false => simp [hEnds, hUnix]

/- Spooling a message concerns the spool only. -/
theorem sameNamed_finish
    {receiver : Receiver}
    (hPath : receiver.path.IsSpooled)
    {maxSize : Nat}
    {w after : World}
    {received : Received}
    (hFinish :
      receiver.finish maxSize w =
        (.ok (.received received), after)) :
    Files.SameNamed w.files after.files := by
  rcases (exists_of_finish hFinish).2 with ⟨files, hWrite, rfl⟩
  exact .write hPath hWrite

end Receiver

/- So does completing it. -/
theorem Completion.sameNamed_apply
    {completion : Completion}
    {queueDir : String}
    {received : Received}
    (hPath : received.path.IsSpooled)
    {w after : World}
    {written : Bool}
    (hApply :
      completion.apply queueDir received w =
        (.ok written, after)) :
    Files.SameNamed w.files after.files := by
  rcases cases_of_apply hApply with
    ⟨_, _, rfl⟩ | ⟨_, _, raw, said, _, hFiles, hReplace⟩
  · rfl
  · rw [← hFiles]
    exact Spool.sameNamed_of_replace hPath hReplace

/- A message as it is completed. -/
def completedText
    (completion : Completion)
    (stamp : Stamp)
    (texts : List Bytes) : Bytes :=
  completed (wireEnding texts)
    (lacking completion stamp (splitBlock texts).1)
    (splitBlock texts).1 (splitBlock texts).2

/- A message that lacks nothing is complete as it is. -/
theorem completedText_eq_flatten
    (completion : Completion)
    (stamp : Stamp)
    {texts : List Bytes}
    (hFields :
      ∀ name ∈ standardNames,
        hasField (splitBlock texts).1 name = true)
    (hEnds : endsBlank (splitBlock texts).2 = true) :
    completedText completion stamp texts = texts.flatten := by
  have hLacking :
      lacking completion stamp (splitBlock texts).1 = [] := by
    rw [lacking, List.filter_eq_nil_iff]
    intro field hField
    have hHas := hFields field.1 (by
      rw [← map_fst_standard completion stamp]
      exact List.mem_map_of_mem hField)
    simp [hHas]
  rw [completedText, hLacking, completed, if_pos hEnds]
  simpa using flatten_splitBlock texts

section

variable {service : Service}
variable {t : Transaction}
variable {w : World}
variable {lines : List Bytes}

/- A message within the limit is spooled as it was sent. -/
theorem Receiver.exists_finish_of_lines
    {path : Path}
    (hPath : path.IsSpooled)
    {queueDir : String}
    (hReady : w.files.IsReady queueDir)
    {file : File}
    (hFile : w.files.file? path = some file)
    (hLines : ∀ line ∈ lines, ¬ IsTerminator line)
    {maxSize : Nat}
    (hSize :
      0 < maxSize →
        (lines.map unstuff).flatten.length ≤ maxSize) :
    ∃ files,
      (ofLines path lines).finish maxSize w =
          (.ok (.received (ofLines path lines).received),
              { w with files := files }) ∧
        files.IsReady queueDir ∧
        files.content? path = some (lines.map unstuff).flatten ∧
        Files.SameNamed w.files files := by
  have hSame := path_ofLines path lines
  have hContent := (ofLines_parts hLines path).1
  have hLength :
      (ofLines path lines).size =
        (lines.map unstuff).flatten.length := by
    rw [ofLines_eq hLines, size_takeTexts, Nat.zero_add]
  rw [finish_of_le (by rw [hLength]; exact hSize)]
  generalize ofLines path lines = receiver
    at hSame hContent hLength ⊢
  subst hSame
  rcases exists_finish hReady hFile with
    ⟨files, hFinish, hKept, hSpooled⟩
  rw [hContent] at hSpooled
  exact ⟨files, hFinish, hKept, hSpooled,
    sameNamed_finish hPath hFinish⟩

/- A spooled message is completed and loaded. -/
theorem exists_load_of_lines
    (hPath : t.envelope.messageFile.IsSpooled)
    (hReady : w.files.IsReady service.settings.global.queueDir)
    (hLines :
      ∀ line ∈ lines, line.IsLine ∧ ¬ IsTerminator line)
    (hContent :
      w.files.content? t.envelope.messageFile =
        some (lines.map Receiver.unstuff).flatten)
    (hHost : Text.IsOneLine service.hostname)
    (hSender :
      ∀ sender ∈ t.envelope.sender, Text.IsOneLine sender) :
    ∃ message loaded,
      loadReceived service
            (Receiver.ofLines t.envelope.messageFile
              lines).received t w =
          (.ok message, loaded) ∧
        Message.parse
            (completedText
              ⟨service.hostname, t.envelope.sender⟩ w.stamp
              (lines.map Receiver.unstuff)) =
          .ok message ∧
        loaded.files.IsReliable ∧
        loaded.files.content? t.envelope.messageFile =
          some (completedText
              ⟨service.hostname, t.envelope.sender⟩ w.stamp
              (lines.map Receiver.unstuff)) ∧
        Files.SameNamed w.files loaded.files := by
  have hEnds : ∀ line ∈ lines, ¬ IsTerminator line :=
    fun line hLine => (hLines line hLine).2
  have hTexts :
      ∀ text ∈ lines.map Receiver.unstuff, IsLine text := by
    intro text hText
    rcases List.mem_map.mp hText with ⟨line, hLine, rfl⟩
    exact Receiver.isLine_unstuff (hLines line hLine).1
  generalize hPath' : t.envelope.messageFile = path at *
  have hEnding := Receiver.lineEnding_ofLines hEnds path
  rcases Receiver.ofLines_parts hEnds path with
    ⟨-, hSeen, hEnd⟩
  have hSame := Receiver.path_ofLines path lines
  generalize Receiver.ofLines path lines = receiver at *
  generalize lines.map Receiver.unstuff = texts at *
  subst hSame
  rcases exists_apply hReady receiver.received hContent
      ⟨service.hostname, t.envelope.sender⟩ with
    ⟨written, after, hApply, hAfter, hCompleted⟩
  rw [content_completed receiver.received hSeen hEnd, hEnding]
    at hCompleted
  have hWritable :
      ∀ field ∈ lacking
          ⟨service.hostname, t.envelope.sender⟩ w.stamp
          (splitBlock texts).1, IsWritable field := by
    intro field hField
    exact isWritable_standard w.isPlain_stamp hHost hSender field
      (List.mem_of_mem_filter hField)
  have hBlank := isBlankLine_lineEnding receiver.received
  rw [hEnding] at hBlank
  rcases exists_parse_completed hWritable hTexts hBlank with
    ⟨message, hParse, -⟩
  refine ⟨message, after, ?_, hParse, hAfter.reliable,
    hCompleted, Completion.sameNamed_apply hPath hApply⟩
  simp only [loadReceived, Run.bind_apply]
  rw [hApply]
  exact Spool.load_of_content? hAfter.reliable hCompleted hParse

/-
  The lines of a message are delivered to a file as they were
  sent, with what the message lacked.
-/
theorem exists_receiveLines
    {name : String}
    (hModules :
      ∀ m ∈ service.queue.modules,
        m.IsPassive service.settings name)
    (hHeader : service.settings.global.addHeader = false)
    (hPath : t.envelope.messageFile.IsSpooled)
    (hReady : w.files.IsReady service.settings.global.queueDir)
    {file : File}
    (hFile : w.files.file? t.envelope.messageFile = some file)
    (hSends : w.files.SendsTo service.settings name)
    (hHost : Text.IsOneLine service.hostname)
    (hSender :
      ∀ sender ∈ t.envelope.sender, Text.IsOneLine sender)
    (hLines :
      ∀ line ∈ lines, line.IsLine ∧ ¬ IsTerminator line)
    (hSize :
      0 < service.settings.global.maxSize →
        (lines.map Receiver.unstuff).flatten.length ≤
          service.settings.global.maxSize) :
    ∃ result after,
      receiveLines service lines t w = (result, after) ∧
        after.files.content? (.named name) =
          some (completedText
              ⟨service.hostname, t.envelope.sender⟩ w.stamp
              (lines.map Receiver.unstuff)) := by
  have hEnds : ∀ line ∈ lines, ¬ IsTerminator line :=
    fun line hLine => (hLines line hLine).2
  rcases Receiver.exists_finish_of_lines hPath hReady hFile
      hEnds hSize with
    ⟨files, hFinish, hKept, hSpooled, hFinished⟩
  generalize hNoted :
    (sayOf .debug t
      ("Data complete, message size: " ++ toString
        (Receiver.ofLines t.envelope.messageFile
          lines).received.size)
      { w with files := files }).2 = noted
  have hFiles : noted.files = files := by
    rw [← hNoted]
    rfl
  have hSameStamp : noted.stamp = w.stamp := by
    rw [← hNoted]
    rfl
  rw [← hFiles] at hKept hSpooled hFinished
  rw [← hSameStamp]
  rcases exists_load_of_lines hPath hKept hLines hSpooled hHost
      hSender with
    ⟨message, loaded, hLoad, hParse, hReliable, hContent,
      hLoaded⟩
  have hCarries :
      Carries service.settings name _ message
        (t.withMessage (some message)) loaded.files :=
    ⟨rfl, hContent, hReliable,
      hSends.congr (hFinished.trans hLoaded)⟩
  rcases Queue.exists_process_of_passive hModules hHeader hParse
      hCarries with
    ⟨left, processed, hProcess, hDelivered⟩
  rw [← Receiver.path_ofLines t.envelope.messageFile lines]
    at hPath
  have hTaken :
      lines.foldl Receiver.takeLine
          { path := t.envelope.messageFile } =
        Receiver.ofLines t.envelope.messageFile lines := by
    rw [Receiver.ofLines_eq hEnds, Receiver.foldl_takeLine]
  simp only [receiveLines, Run.bind_apply]
  rw [hTaken, hFinish]
  simp only [processMessage, Run.bind_apply, hNoted]
  rw [hLoad]
  simp only [Run.bind_apply, hProcess]
  have hRemoved :=
    Spool.sameNamed_remove hPath
      (sayOf .info left
        ("Processing " ++ Disposition.completed.name)
        processed).2
  exact ⟨_, _, rfl, (hRemoved.content? name).trans hDelivered⟩

end

------------------------------------------------------------
-- Messages In A Connection
------------------------------------------------------------

/- DATA makes a spool file exactly if it is answered by 354. -/
theorem Phase.files_takeData
    {phase phase' : Phase}
    {context context' : Context}
    {answer : Answer}
    {w w' : World}
    (hStep :
      phase.takeData context w =
        ((phase', context', answer), w')) :
    (w'.files = w.files ∧ answer.code ≠ 354) ∨
      ∃ path,
        w.files.create context.settings.global.queueDir =
            .ok (path, w'.files) ∧
          context'.transaction.envelope.messageFile =
            path := by
  unfold takeData at hStep
  split at hStep
  · cases hStep
    exact Or.inl ⟨rfl, by decide⟩
  · cases hCreate :
        w.files.create context.settings.global.queueDir with
    | error fault =>
        simp only [Context.openSpool, Run.bind_apply,
          Spool.create_of_error hCreate] at hStep
        cases hStep
        refine Or.inl ⟨rfl, ?_⟩
        change Status.actionUnavailable.code ≠ 354
        decide
    | ok made =>
        rcases made with ⟨path, files⟩
        simp only [Context.openSpool, Run.bind_apply,
          Spool.create_of_ok hCreate] at hStep
        cases hStep
        exact Or.inr ⟨path, rfl, rfl⟩
  · cases hStep
    exact Or.inl ⟨rfl, by decide⟩

/-
  With the spool file closed, all that a command does to files
  is to make a new one.
-/
theorem Phase.files_step
    {phase phase' : Phase}
    {command : Command}
    {context context' : Context}
    {answer : Answer}
    {w w' : World}
    (hClosed : context.spoolOpen = false)
    (hStep :
      phase.step command context w =
        ((phase', context', answer), w')) :
    w'.files = w.files ∨
      ∃ path,
        w.files.create context.settings.global.queueDir =
          .ok (path, w'.files) := by
  have hReset : (context.reset w).2.files = w.files := by
    simp only [Context.reset, Context.closeSpool, hClosed,
      Bool.false_eq_true, if_false]
    rfl
  have hWelcome :
      ∀ host accepted,
        (phase.welcome host context accepted w).2.files =
          w.files := by
    intro host accepted
    unfold welcome
    split
    · rfl
    · split
      · rfl
      · exact hReset
  have hFiles := congrArg (fun result => result.2.files) hStep
  cases command with
  | helo host => exact Or.inl (hFiles ▸ hWelcome host _)
  | ehlo host => exact Or.inl (hFiles ▸ hWelcome host _)
  | rset => exact Or.inl (hFiles ▸ hReset)
  | data =>
      rcases files_takeData hStep with
        ⟨hSame, _⟩ | ⟨path, hCreate, _⟩
      · exact Or.inl hSame
      · exact Or.inr ⟨path, hCreate⟩
  | xforward address =>
      cases address <;> exact Or.inl hFiles.symm
  | mailFrom argument => exact Or.inl hFiles.symm
  | rcptTo argument => exact Or.inl hFiles.symm
  | noop => exact Or.inl hFiles.symm
  | quit => exact Or.inl hFiles.symm
  | invalid line => exact Or.inl hFiles.symm

/- There is a spool file when the message is read. -/
theorem exists_file_of_reaches
    {service : Service}
    {first s : Station}
    {history : List Exchange}
    {answer : Answer}
    (hReaches :
      first.Reaches service (.command .data answer :: history)
        s)
    (hAnswer : answer.code = 354) :
    s.dialog.transaction.envelope.messageFile.IsSpooled ∧
      ∃ file,
        s.world.files.file?
            s.dialog.transaction.envelope.messageFile =
          some file := by
  cases hReaches with
  | step _ hTurn =>
      rcases Station.exists_step_of_turn hTurn with
        ⟨_, before, after, hStep, _, hFiles⟩
      rw [hFiles]
      rcases Phase.files_takeData hStep with
        ⟨_, hNot⟩ | ⟨path, hCreate, hPath⟩
      · exact absurd hAnswer hNot
      · rw [Dialog.transaction, hPath]
        exact ⟨(Files.SameNamed.create hCreate).1, _,
          (Spool.file?_of_create hCreate).2⟩

/- A disk that is ready stays so as long as commands are read. -/
theorem Station.isReady_of_reaches
    {service : Service}
    {first s : Station}
    {history : List Exchange}
    (hReaches : first.Reaches service history s)
    (hCommands :
      ∀ exchange ∈ history,
        ∃ command answer, exchange = .command command answer)
    {dir : String}
    (hReady : first.world.files.IsReady dir) :
    s.world.files.IsReady dir := by
  induction hReaches with
  | refl => exact hReady
  | step _ hTurn ih =>
      rcases List.forall_mem_cons.mp hCommands with
        ⟨⟨command, answer, rfl⟩, hEarlier⟩
      have hBefore := ih hEarlier
      rcases exists_step_of_turn hTurn with
        ⟨hClosed, before, after, hStep, hSame, hFiles⟩
      rw [← hSame] at hBefore
      rw [hFiles]
      rcases Phase.files_step hClosed hStep with
        hKept | ⟨path, hCreate⟩
      · rw [hKept]
        exact hBefore
      · exact hBefore.create hCreate

/- What is done about a message is all that concerns files. -/
theorem Station.files_turn_of_open
    (service : Service)
    {s : Station}
    (hPhase : s.dialog.phase = .data)
    (hOpen : s.dialog.context.spoolOpen = true)
    {rest : Inbound}
    (hRest : (readMessage s.input).rest? = some rest) :
    (s.turn service).world.files =
      (replyTo service (readMessage s.input)
          s.dialog.transaction s.world).2.files := by
  rw [turn_of_open service hPhase hOpen, messageTurn,
    Turn.world_proceed, receive_of_rest service hRest]
  exact (Dialog.conclude_apply _ _ _).2

end Smtp

/-
  With modules that leave the message alone, what the nexthop
  leads to gets each message as it came. That of a pipe is the
  input. That of a connection are the lines that follow DATA
  without the dots in front. If the header block lacks fields
  they are put in front, and a blank line is put behind the
  block if it has none. Nothing else is changed.
-/
theorem delivered_of_passive
    {service : Smtp.Service}
    {name : String}
    (hModules :
      ∀ m ∈ service.queue.modules,
        m.IsPassive service.settings name)
    (hHeader : service.settings.global.addHeader = false) :
    (∀ (raw : Bytes) (message : Message) (w : World),
        Message.parse raw = .ok message →
        w.files.IsReady service.settings.global.queueDir →
        w.files.SendsTo service.settings name →
        ∃ after,
          Pipe.run service.settings service.queue ⟨raw, none⟩ w =
              (.ok .completed, after) ∧
            after.files.content? (.named name) = some raw) ∧
      ∀ (input : Smtp.Inbound) (writes : Option Nat)
          (w : World) (history : List Smtp.Exchange)
          (answer : Smtp.Answer) (s : Smtp.Station)
          (lines : List Bytes) (last rest : Bytes),
        (Smtp.Station.opening service input writes w).Reaches
            service (.command .data answer :: history) s →
        answer.code = 354 →
        s.input.data = lines.flatten ++ (last ++ rest) →
        (∀ line ∈ lines,
          line.IsLine ∧ ¬ Smtp.IsTerminator line ∧
            line.length ≤ Smtp.maxDataLine) →
        Smtp.IsTerminator last →
        (0 < service.settings.global.maxSize →
          (lines.map Smtp.Receiver.unstuff).flatten.length ≤
            service.settings.global.maxSize) →
        s.world.files.IsReady service.settings.global.queueDir →
        s.world.files.SendsTo service.settings name →
        Text.IsOneLine service.hostname →
        let texts := lines.map Smtp.Receiver.unstuff
        let fields := (Smtp.splitBlock texts).1
        let left := (Smtp.splitBlock texts).2
        let completion : Smtp.Completion :=
          ⟨service.hostname,
            s.dialog.transaction.envelope.sender⟩
        ∃ content,
          (s.turn service).world.files.content? (.named name) =
              some content ∧
            content =
              Smtp.completed (Smtp.wireEnding texts)
                (Smtp.lacking completion s.world.stamp fields)
                fields left ∧
            fields.flatten ++ left.flatten = texts.flatten ∧
            ((∀ header ∈ Smtp.standardNames,
                  Smtp.hasField fields header = true) →
                Smtp.endsBlank left = true →
                content = texts.flatten) := by
  constructor
  · intro raw message w hParse hReady hSends
    exact Pipe.exists_run_of_passive hModules hHeader hParse
      hReady hSends
  · intro input writes w history answer s lines last rest
      hReaches hAnswer hData hLines hLast hSize hReady hSends
      hHost
    dsimp only
    have hOrder :=
      Smtp.inOrder_of_reaches
        (Smtp.inOrder_opening service input writes w) hReaches
    have hSender :
        ∀ sender ∈ s.dialog.transaction.envelope.sender,
          Text.IsOneLine sender := by
      intro sender hMem
      exact (hOrder.mailboxes sender (List.mem_append_left _
        (Option.mem_toList.mpr hMem))).oneLine
    rcases Smtp.exists_file_of_reaches hReaches hAnswer with
      ⟨hPath, file, hFile⟩
    rcases Smtp.open_of_reaches hReaches hAnswer with
      ⟨hPhase, hOpen⟩
    have hRead :
        Smtp.readMessage s.input =
          .complete lines ⟨rest, s.input.ending⟩ := by
      rw [← Smtp.readMessage_of_lines hLines hLast rest
        s.input.ending, ← hData]
    have hRest :
        (Smtp.readMessage s.input).rest? =
          some ⟨rest, s.input.ending⟩ := by
      rw [hRead]
      rfl
    have hFiles :=
      Smtp.Station.files_turn_of_open service hPhase hOpen hRest
    rcases Smtp.exists_receiveLines hModules hHeader hPath hReady
        hFile hSends hHost hSender
        (fun line hLine =>
          ⟨(hLines line hLine).1, (hLines line hLine).2.1⟩)
        hSize with
      ⟨result, after, hReceive, hContent⟩
    rw [hRead, Smtp.replyTo, hReceive] at hFiles
    rw [← hFiles] at hContent
    exact ⟨_, hContent, rfl, Smtp.flatten_splitBlock _,
      Smtp.completedText_eq_flatten _ _⟩

/- A module that asks for a text in the reply. -/
def thanks : Module where
  name := "thanks"
  run := fun _ t files =>
    (0, { t with responseMsg := some "thanks" }, files)

theorem isPassive_thanks
    (settings : Settings)
    (name : String) :
    thanks.IsPassive settings name where
  value := fun _ _ => rfl
  message := fun _ _ => rfl
  path := fun _ _ => rfl
  content := fun _ _ => rfl
  reliable := fun _ _ hReliable => hReliable
  sends := fun _ _ hSends => hSends

/- A service with that module, which delivers to a link. -/
def serviceToLink : Smtp.Service where
  settings := {
    global := { queueDir := "/q", nexthop := some "/link" } }
  queue := { modules := [thanks], policy := Smtp.policy }
  hostname := "mx"

/- A world with the link and no file. -/
def worldWithLink : World where
  files := {
    directories := ["/q"]
    links := [(.named "/link", .named "/mail")] }
  stamp := .ofClock {}
  isPlain_stamp := Stamp.isPlain_ofClock {}

theorem isReady_worldWithLink :
    worldWithLink.files.IsReady "/q" where
  reliable := fun _ _ => rfl
  numbered := fun _ _ hFile => nomatch hFile
  directory := by decide

/- A connection with a message of two lines. -/
def openingToLink : Smtp.Station :=
  .opening serviceToLink
    ⟨["MAIL FROM:<a@x>", "RCPT TO:<b@x>", "DATA", "Date: d",
      "..", "."].flatMap fun line => Utf8.encode line ++ crlf,
      .closed⟩
    none worldWithLink

/-
  The pipe delivers a byte that is no text. A connection
  delivers a line without its dot, behind a blank line and the
  fields that are lacking.
-/
theorem delivered_dots :
    (∃ after,
        Pipe.run serviceToLink.settings serviceToLink.queue
            ⟨Utf8.encode "A: b\n\n" ++ [0xff], none⟩
            worldWithLink =
          (.ok .completed, after) ∧
        after.files.content? (.named "/mail") =
          some (Utf8.encode "A: b\n\n" ++ [0xff])) ∧
      ∃ history answer s,
        openingToLink.Reaches serviceToLink
            (.command .data answer :: history) s ∧
          (s.turn serviceToLink).world.files.content?
              (.named "/mail") =
            some (Utf8.encode (
              "Message-Id: <00000000000000000000000000@mx>\r\n" ++
                "From: <a@x>\r\n" ++
                "To: undisclosed-recipients:;\r\n" ++
                "Date: d\r\n\r\n.\r\n")) := by
  have hModules :
      ∀ m ∈ serviceToLink.queue.modules,
        m.IsPassive serviceToLink.settings "/mail" := by
    intro m hMem
    cases List.mem_singleton.mp hMem
    exact isPassive_thanks _ _
  rcases delivered_of_passive hModules rfl with ⟨hPipe, hSmtp⟩
  constructor
  · have hParse :
        Message.parse (Utf8.encode "A: b\n\n" ++ [0xff]) =
          .ok ⟨[⟨"A", "b", some (Utf8.encode "A: b")⟩], 6,
            false⟩ := by
      decide +kernel
    exact hPipe _ _ _ hParse isReady_worldWithLink
      ⟨⟨.named "/link", by decide +kernel, by decide⟩,
        by decide, by decide⟩
  · have hHistory :
        (openingToLink.take serviceToLink 3 []).1 =
          [
              .command .data Smtp.plainStart,
              .command (.rcptTo "<b@x>") Smtp.plainOk,
              .command (.mailFrom "<a@x>") Smtp.plainOk] := by
      decide +kernel
    have hReaches :
        openingToLink.Reaches serviceToLink _ _ :=
      Smtp.Station.reaches_take .refl 3
    rw [hHistory] at hReaches
    have hReady := Smtp.Station.isReady_of_reaches hReaches
      (by simp) isReady_worldWithLink
    have hLines :
        ∀ line ∈
          [Utf8.encode "Date: d\r\n", Utf8.encode "..\r\n"],
          line.IsLine ∧ ¬ Smtp.IsTerminator line ∧
            line.length ≤ Smtp.maxDataLine := by
      intro line hLine
      simp only [List.mem_cons, List.not_mem_nil, or_false]
        at hLine
      rcases hLine with rfl | rfl
      · exact ⟨⟨Utf8.encode "Date: d\r", by decide, by decide⟩,
          by decide, by decide⟩
      · exact ⟨⟨Utf8.encode "..\r", by decide, by decide⟩,
          by decide, by decide⟩
    have hSplit :
        Smtp.splitBlock
            ([Utf8.encode "Date: d\r\n",
              Utf8.encode "..\r\n"].map Smtp.Receiver.unstuff) =
          ([Utf8.encode "Date: d\r\n"],
              [Utf8.encode ".\r\n"]) :=
      Smtp.splitBlock_single (by decide) (by decide)
        (by decide) _
    rcases hSmtp _ _ _ _ _ _
        [Utf8.encode "Date: d\r\n", Utf8.encode "..\r\n"]
        (Utf8.encode ".\r\n") [] hReaches rfl (by decide +kernel)
        hLines (by decide)
        (fun hLimit => absurd hLimit (by decide)) hReady
        ⟨⟨.named "/link", by decide +kernel, by decide +kernel⟩,
          by decide +kernel, by decide +kernel⟩
        (by decide) with
      ⟨content, hContent, hText, _⟩
    refine ⟨_, _, _, hReaches, ?_⟩
    rw [hContent, hText, hSplit]
    exact congrArg some (by decide +kernel)

end MailFilter
