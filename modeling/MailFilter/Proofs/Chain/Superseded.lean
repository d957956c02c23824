import MailFilter.Proofs.Chain.Agreement
import MailFilter.Proofs.Chain.Answered
import MailFilter.Proofs.Message.Values

/-
  What is left of a field that a module added when a later
  module writes the spool file.

  The message is read again then, and what the modules before
  did to its headers is gone. So the field is in the file only
  if it was there before all modules, or if it is added again.

  Key definitions include:
    * `Action.Spares`
    * `Action.Adds`
    * `Module.Overwrites`
    * `Queue.reaching`
    * `Files.Shows`

  Main statements:
    * `Queue.exists_pass_scripts`
    * `Queue.exists_left_of_overwrites`
    * `Queue.shows_iff`
-/

namespace MailFilter

open World

------------------------------------------------------------
-- Scripts
------------------------------------------------------------

namespace Action

/-
  An action that changes neither the spool file nor the fields
  of a name, other than by adding some.
-/
def Spares
    (name : String) : Action → Prop
  | .edit change =>
      Header.IsPrintable change.name ∧ change.Spares name
  | .responseMsg _ => True
  | .reply _ _ => True
  | .sender _ => True
  | .recipients _ => True
  | .dropMessage => False
  | .deleteSpool => False
  | .renameDirectory _ _ => False
  | .write _ _ => False

/- The action adds a field. -/
def Adds
    (name value : String) : Action → Prop
  | .edit change => change.Adds name value
  | _ => False

end Action

/- The transaction holds a message and a path. -/
structure Transaction.Holds
    (t : Transaction)
    (path : Path)
    (message : Message) : Prop where
  message : t.message = some message
  file : t.envelope.messageFile = path

variable {name value : String}

/- One case for each kind of action. -/
theorem Action.exists_run
    {action : Action}
    (hSpares : action.Spares name)
    (value : String)
    {t : Transaction}
    {path : Path}
    {message : Message}
    (hHolds : t.Holds path message)
    (hSound : message.IsSound)
    (files : Files) :
    ∃ after other,
      action.run (t, files) = (after, files) ∧
        after.Holds path other ∧
        other.IsSound ∧
        (value ∈ other.values name ↔
          value ∈ message.values name ∨
            action.Adds name value) := by
  have hKept :
      ∀ after : Transaction, after.envelope.message = t.message →
        after.envelope.messageFile = t.envelope.messageFile →
        after.Holds path message :=
    fun _ hMessage hFile =>
      ⟨hMessage.trans hHolds.message, hFile.trans hHolds.file⟩
  have hSame :
      value ∈ message.values name ↔
        value ∈ message.values name ∨ False := by
    simp
  cases action with
  | edit change =>
      refine ⟨_, change.apply message, rfl, ⟨?_, hHolds.file⟩,
        Message.isSound_edit hSound hSpares.1,
        Message.mem_values_apply hSpares.2 message value⟩
      change t.message.map change.apply = _
      rw [hHolds.message]
      rfl
  | responseMsg text =>
      exact ⟨_, message, rfl, hKept _ rfl rfl, hSound, hSame⟩
  | reply code text =>
      exact ⟨_, message, rfl, hKept _ rfl rfl, hSound, hSame⟩
  | sender address =>
      exact ⟨_, message, rfl, hKept _ rfl rfl, hSound, hSame⟩
  | recipients addresses =>
      exact ⟨_, message, rfl, hKept _ rfl rfl, hSound, hSame⟩
  | dropMessage => exact hSpares.elim
  | deleteSpool => exact hSpares.elim
  | renameDirectory source target => exact hSpares.elim
  | write content keepStamp => exact hSpares.elim

/- A whole script adds what its actions add. -/
theorem Action.exists_foldl
    {actions : List Action}
    (hSpares : ∀ action ∈ actions, action.Spares name)
    (value : String)
    {t : Transaction}
    {path : Path}
    {message : Message}
    (hHolds : t.Holds path message)
    (hSound : message.IsSound)
    (files : Files) :
    ∃ after other,
      actions.foldl (fun state action => action.run state)
          (t, files) =
        (after, files) ∧
        after.Holds path other ∧
        other.IsSound ∧
        (value ∈ other.values name ↔
          value ∈ message.values name ∨
            ∃ action ∈ actions, action.Adds name value) := by
  induction actions generalizing t message with
  | nil => exact ⟨t, message, rfl, hHolds, hSound, by simp⟩
  | cons action rest ih =>
      rcases List.forall_mem_cons.mp hSpares with
        ⟨hFirst, hRest⟩
      rcases action.exists_run hFirst value hHolds hSound
          files with
        ⟨between, next, hRun, hNext, hBetween, hAdds⟩
      rcases ih hRest hNext hBetween with
        ⟨after, other, hFold, hAfter, hOther, hMore⟩
      refine ⟨after, other, ?_, hAfter, hOther, ?_⟩
      · rw [List.foldl_cons, hRun, hFold]
      · rw [hMore, hAdds, List.exists_mem_cons_iff, or_assoc]

/- A name and the actions of a module that succeeds. -/
abbrev Script :=
  String × List Action

/- The module that follows a script. -/
def Module.ofScript
    (script : Script) : Module :=
  .scripted script.1 script.2 0

namespace Queue

variable {queue : Queue}
variable {settings : Settings}

/- Scripts add what their actions add. -/
theorem exists_pass_scripts
    (settings : Settings)
    {scripts : List Script}
    (hSpares :
      ∀ script ∈ scripts, ∀ action ∈ script.2,
        action.Spares name)
    (value : String)
    {s : Stage}
    {message : Message}
    (hHolds : s.transaction.Holds s.path message)
    (hSound : message.IsSound) :
    ∃ after names other,
      queue.pass settings (scripts.map Module.ofScript) s =
          (none,
              { s with transaction := after, names := names }) ∧
        after.Holds s.path other ∧
        other.IsSound ∧
        (value ∈ other.values name ↔
          value ∈ message.values name ∨
            ∃ script ∈ scripts, ∃ action ∈ script.2,
              action.Adds name value) := by
  induction scripts generalizing s message with
  | nil =>
      exact ⟨s.transaction, s.names, message, rfl, hHolds,
        hSound, by simp⟩
  | cons script rest ih =>
      rcases List.forall_mem_cons.mp hSpares with
        ⟨hFirst, hRest⟩
      rcases Action.exists_foldl hFirst value hHolds hSound
          s.files with
        ⟨between, next, hFold, hNext, hBetween, hAdds⟩
      have hPass :
          (Module.ofScript script).pass settings s =
            (0, { s with
              transaction := between
              names := script.1 :: s.names }) := by
        simp [Module.ofScript, Module.scripted, Module.pass,
          hFold]
      rcases ih hRest (s := { s with
            transaction := between
            names := script.1 :: s.names })
          ⟨hNext.message, rfl⟩ hBetween with
        ⟨after, names, other, hLater, hAfter, hOther, hMore⟩
      refine ⟨after, names, other, ?_, ?_, hOther, ?_⟩
      · simp only [List.map_cons, pass, hPass, if_true]
        exact hLater
      · exact ⟨hAfter.message, hAfter.file.trans hNext.file⟩
      · rw [hMore, hAdds, List.exists_mem_cons_iff, or_assoc]

------------------------------------------------------------
-- The Run Of A Chain
------------------------------------------------------------

/- Modules after other ones get what those leave. -/
theorem pass_append
    (front rest : List Module)
    (s : Stage) :
    queue.pass settings (front ++ rest) s =
      match queue.pass settings front s with
      | (none, s) => queue.pass settings rest s
      | (some outcome, s) => (some outcome, s) := by
  induction front generalizing s with
  | nil => rfl
  | cons m front ih =>
      simp only [List.cons_append, pass]
      split
      · exact ih _
      · rfl

/- If a chain was completed every module returned zero. -/
theorem pass_of_completed
    {t after : Transaction}
    {w w' : World}
    (hProcess :
      queue.process settings t w =
        ((.ok .completed, after), w'))
    (source : Bytes) :
    (queue.pass settings queue.modules
      ⟨(queue.fetchUsers t w).1, w.files, source, []⟩).1 =
        none := by
  rcases queue.runModules_apply settings queue.modules
      ⟨(queue.fetchUsers t w).1, w.files, source, []⟩
      (queue.fetchUsers_apply t w).2 with
    ⟨between, hRun, _⟩
  simp only [process, Run.bind_apply] at hProcess
  rw [hRun] at hProcess
  generalize (queue.pass settings queue.modules
    ⟨(queue.fetchUsers t w).1, w.files, source, []⟩) = passed
    at hProcess
  rcases passed with ⟨outcome, s⟩
  cases outcome with
  | none => rfl
  | some outcome =>
      cases outcome with
      | abort => cases hProcess
      | stopAccept => cases hProcess
      | carryOn =>
          have hCases :=
            queue.finish_cases settings (.take t.message)
              s.names.reverse .stopped s.transaction between
          change queue.finish settings (.take t.message)
            s.names.reverse .stopped s.transaction between =
              _ at hProcess
          rw [hProcess] at hCases
          rcases hCases with
            ⟨_, hResult, _⟩
              | ⟨_, ⟨e, hResult⟩ | ⟨told, e, hResult⟩⟩
          · cases hResult
          · cases hResult
          · cases hResult

end Queue

/-
  A module that succeeds at a stage and leaves new content in
  the spool file, which can be read.
-/
structure Module.Overwrites
    (m : Module)
    (settings : Settings)
    (s : Stage)
    (content : Bytes) : Prop where
  file :
    (m.run settings s.transaction
      s.files).2.1.envelope.messageFile = s.path
  stamp :
    (m.run settings s.transaction s.files).2.2.modified? s.path ≠
      s.files.modified? s.path
  read :
    (m.run settings s.transaction s.files).2.2.read s.path =
      .ok content

/- The message is then the one that the content reads as. -/
theorem Module.Overwrites.pass
    {m : Module}
    {settings : Settings}
    {s : Stage}
    {content : Bytes}
    (hOverwrites : m.Overwrites settings s content)
    (hZero : (m.pass settings s).1 = 0)
    {fresh : Message}
    (hParse : Message.parse content = .ok fresh) :
    (m.pass settings s).2.transaction.Holds s.path fresh ∧
      (m.pass settings s).2.files.content? s.path =
        some content := by
  rcases hOverwrites with ⟨hFile, hStamp, hRead⟩
  unfold Module.pass at hZero ⊢
  rcases hRun : m.run settings s.transaction s.files with
    ⟨value, t, files⟩
  rw [hRun] at hFile hStamp hRead hZero
  dsimp only at hFile hStamp hRead hZero ⊢
  have hValue : value = 0 := by
    split at hZero
    · exact hZero
    · exact hZero
  rw [if_pos ⟨hValue, hStamp⟩]
  have hLoad :
      files.load? s.path = some (content, fresh) :=
    Files.load?_eq_some_iff.mpr ⟨hRead, hParse⟩
  unfold Stage.reload
  dsimp only
  rw [hLoad]
  exact ⟨⟨rfl, hFile⟩, Files.content?_of_read hRead⟩

namespace Queue

/- The stage at which the modules after some others start. -/
def reaching
    (queue : Queue)
    (settings : Settings)
    (front : List Module)
    (t : Transaction)
    (w : World) : Stage :=
  (queue.pass settings front
    ⟨(queue.fetchUsers t w).1, w.files, [], []⟩).2

variable {queue : Queue}
variable {settings : Settings}

/- Listing the modules adds no field of another name. -/
theorem exists_markModules
    (hName :
      settings.global.addHeader = true →
        Text.sameName traceHeader name = false)
    (names : List String)
    (value : String)
    {t : Transaction}
    {path : Path}
    {message : Message}
    (hHolds : t.Holds path message)
    (hSound : message.IsSound) :
    ∃ other,
      (markModules settings names t).Holds path other ∧
        other.IsSound ∧
        (value ∈ other.values name ↔
          value ∈ message.values name) := by
  unfold markModules
  split
  · rename_i hAdd
    let mark : Action := .edit (.append traceHeader
      ("processed " ++ ",".intercalate names))
    have hSpares : mark.Spares name :=
      ⟨isPrintable_traceHeader, True.intro⟩
    have hNot : ¬ mark.Adds name value := by
      intro hAdds
      have hSame : Text.sameName traceHeader name = true :=
        hAdds.1
      rw [hName hAdd] at hSame
      cases hSame
    rcases mark.exists_run hSpares value hHolds hSound {} with
      ⟨after, other, hRun, hAfter, hOther, hAdds⟩
    cases hRun
    exact ⟨other, hAfter, hOther,
      hAdds.trans (or_iff_left hNot)⟩
  · exact ⟨message, hHolds, hSound, Iff.rfl⟩

/-
  What a chain leaves if a module overwrites the spool file
  and all later ones follow scripts: the file with the content
  of that module, and the message that it reads as with what
  was added since.
-/
theorem exists_left_of_overwrites
    {front : List Module}
    {m : Module}
    {back : List Script}
    (hQueue :
      queue.modules = front ++ m :: back.map Module.ofScript)
    (hBack :
      ∀ script ∈ back, ∀ action ∈ script.2,
        action.Spares name)
    (hName :
      settings.global.addHeader = true →
        Text.sameName traceHeader name = false)
    {t after : Transaction}
    {w w' : World}
    {content : Bytes}
    (hOverwrites :
      m.Overwrites settings
        (queue.reaching settings front t w) content)
    {fresh : Message}
    (hParse : Message.parse content = .ok fresh)
    (hSound : fresh.IsSound)
    (hProcess :
      queue.process settings t w =
        ((.ok .completed, after), w'))
    (value : String) :
    ∃ found,
      (queue.left settings t w []).transaction.message =
          some found ∧
        (queue.left settings t w []).files.content?
            (queue.left settings t w []).path =
          some content ∧
        found.IsSound ∧
        (value ∈ found.values name ↔
          value ∈ fresh.values name ∨
            ∃ script ∈ back, ∃ action ∈ script.2,
              action.Adds name value) := by
  have hNone := pass_of_completed hProcess []
  unfold reaching at hOverwrites
  unfold left
  dsimp only
  rw [hQueue, pass_append] at hNone ⊢
  rcases hFront : queue.pass settings front
      ⟨(queue.fetchUsers t w).1, w.files, [], []⟩ with
    ⟨outcome, s⟩
  rw [hFront] at hNone hOverwrites
  cases outcome with
  | some outcome => cases hNone
  | none =>
      dsimp only at hNone hOverwrites ⊢
      simp only [pass] at hNone ⊢
      by_cases hZero : (m.pass settings s).1 = 0
      · rw [if_pos hZero] at hNone ⊢
        rcases hOverwrites.pass hZero hParse with
          ⟨hHolds, hContent⟩
        have hPath : (m.pass settings s).2.path = s.path :=
          hHolds.file
        rcases queue.exists_pass_scripts settings
            hBack value (s := (m.pass settings s).2)
            ⟨hHolds.message, rfl⟩ hSound with
          ⟨ended, names, other, hPass, hEnded, hOther, hAdds⟩
        rw [hPass]
        rcases exists_markModules hName
            names.reverse value hEnded hOther with
          ⟨found, hFound, hLast, hSame⟩
        refine ⟨found, hFound.message, ?_, hLast,
          hSame.trans hAdds⟩
        change (m.pass settings s).2.files.content?
          (markModules settings names.reverse
            ended).envelope.messageFile = some content
        rw [hFound.file, hPath]
        exact hContent
      · rw [if_neg hZero] at hNone
        cases hNone

/- What is held in the end has the fields of what was left. -/
theorem exists_left_of_held
    (hPolicy : queue.policy.KeepsMessage)
    {t after : Transaction}
    {w w' : World}
    {disposition : Disposition}
    (hProcess :
      queue.process settings t w =
        ((.ok disposition, after), w'))
    (hProcessed : disposition.IsProcessed)
    {message : Message}
    (hHeld : after.message = some message)
    (source : Bytes) :
    ∃ found,
      (queue.left settings t w source).transaction.message =
          some found ∧
        message.headers = found.headers := by
  rcases steps_of_process hProcess hProcessed source with
    ⟨between, written, flushed, w'', _, hFlush, hHand⟩
  have hKept :=
    handOn_of_keepsMessage hPolicy settings flushed w''
  rw [hHand] at hKept
  rw [hKept.1] at hHeld
  rcases Chain.flush_of_ok hFlush with
    ⟨rfl, _⟩ | ⟨found, raw, hFound, _, _, _, rfl⟩
  · exact ⟨message, hHeld, rfl⟩
  · cases hHeld
    exact ⟨found, hFound, rfl⟩

------------------------------------------------------------
-- The Fields Of The File
------------------------------------------------------------

end Queue

/- A file is read as a message with a field. -/
def Files.Shows
    (files : Files)
    (path : Path)
    (name value : String) : Prop :=
  ∃ raw read,
    files.content? path = some raw ∧
      Message.parse raw = .ok read ∧
      value ∈ read.values name

theorem Files.shows_iff_of_parse
    {files : Files}
    {path : Path}
    {raw : Bytes}
    (hContent : files.content? path = some raw)
    {read : Message}
    (hParse : Message.parse raw = .ok read) :
    files.Shows path name value ↔ value ∈ read.values name := by
  constructor
  · rintro ⟨raw, other, hRaw, hOther, hMem⟩
    cases hContent.symm.trans hRaw
    cases hParse.symm.trans hOther
    exact hMem
  · intro hMem
    exact ⟨raw, read, hContent, hParse, hMem⟩

namespace Queue

variable {queue : Queue}
variable {settings : Settings}

/-
  A module writes another body under the same header block,
  and all modules succeed. Then a field is in the spool file
  in the end exactly if it was in the message before all
  modules, or if a module added it after that one. What the
  modules before it added is gone.
-/
theorem shows_iff
    {front : List Module}
    {m : Module}
    {back : List Script}
    (hQueue :
      queue.modules = front ++ m :: back.map Module.ofScript)
    (hPolicy : queue.policy.KeepsMessage)
    (hBack :
      ∀ script ∈ back, ∀ action ∈ script.2,
        action.Spares name)
    (hName :
      settings.global.addHeader = true →
        Text.sameName traceHeader name = false)
    {entries : List Bytes}
    (hEntries : ∀ entry ∈ entries, entry.IsEntry)
    (hApart : Bytes.StandApart entries)
    {line : Bytes}
    (hLine : line.IsBlankLine)
    {body other : Bytes}
    {before message : Message}
    (hParse :
      Message.parse (entries.flatten ++ (line ++ body)) =
        .ok before)
    {t after : Transaction}
    {w w' : World}
    (hMessage : t.message = some before)
    (hOverwrites :
      m.Overwrites settings
        (queue.reaching settings front t w)
        (entries.flatten ++ (line ++ other)))
    (hProcess :
      queue.process settings t w =
        ((.ok .completed, after), w'))
    (hHeld : after.message = some message)
    (hReadsBack : message.ReadsBack)
    (value : String) :
    w'.files.Shows after.envelope.messageFile name value ↔
      value ∈ before.values name ∨
        ∃ script ∈ back, ∃ action ∈ script.2,
          action.Adds name value := by
  have hProcessed : Disposition.completed.IsProcessed :=
    Or.inl rfl
  rcases Message.exists_parse_entries hEntries hApart hLine
      other with
    ⟨fresh, hFresh, hEntriesOf, hSound⟩
  have hHeaders : fresh.headers = before.headers := by
    rcases Message.exists_parse_entries hEntries hApart hLine
        body with
      ⟨found, hFound, hSame, _⟩
    cases hParse.symm.trans hFound
    rw [hEntriesOf, hSame]
  rcases exists_left_of_overwrites hQueue hBack hName
      hOverwrites hFresh hSound hProcess value with
    ⟨found, hFound, hContent, hFoundSound, hAdds⟩
  rw [Message.values_of_headers_eq hHeaders] at hAdds
  rcases exists_left_of_held hPolicy hProcess hProcessed hHeld
      [] with
    ⟨left, hLeft, hSame⟩
  cases hFound.symm.trans hLeft
  rw [← hAdds, ← Message.values_of_headers_eq hSame]
  by_cases hPerm : message.entries.Perm before.entries
  · -- Nothing is written, and the file is that of the module.
    have hFile := content?_of_perm hPolicy hMessage hProcess
      hProcessed hHeld hPerm []
    rw [hContent] at hFile
    have hAlso : fresh.entries.Perm message.entries := by
      rw [Message.entries, hHeaders]
      exact hPerm.symm
    rw [← Message.mem_values_of_perm hAlso]
    exact Files.shows_iff_of_parse hFile hFresh
  · -- The headers that are held are written.
    rcases content?_of_not_perm hPolicy hMessage hProcess
        hProcessed hHeld hPerm [] with
      ⟨written, raw, hWritten, rfl, _, hFile⟩
    cases hFound.symm.trans hWritten
    rcases Message.exists_perm_of_readsBack
        (show found.rebase.IsSound from hFoundSound) hReadsBack
        (raw.drop found.bodyOffset) with
      ⟨read, hRead, hReadPerm⟩
    rw [← Message.mem_values_of_perm hReadPerm]
    exact Files.shows_iff_of_parse hFile hRead

/- The header block of the message with one field. -/
def plainEntries : List Bytes :=
  [Utf8.encode "Subject: a\r\n"]

/- The message with one field and a body. -/
def mailWith
    (body : Bytes) : Bytes :=
  plainEntries.flatten ++ ([Bytes.cr, Bytes.lf] ++ body)

/- Another body than that of the message. -/
def otherBody : Bytes :=
  Utf8.encode "other\r\n"

/- A module that adds a field. -/
def marker : Script :=
  ("m1", [.edit (.append "X-Seen" "1")])

/- A module that writes the other body to the spool file. -/
def bodyWriter : Module :=
  .scripted "m2" [.write (mailWith otherBody) false] 0

/- A module that adds another field. -/
def lateMarker : Script :=
  ("m3", [.edit (.append "X-Late" "2")])

/- A field is added and another body is written. -/
def markAndRewrite : Queue where
  modules := [.ofScript marker, bodyWriter]
  policy := Smtp.policy

/- Then another field is added. -/
def markAfterRewrite : Queue where
  modules := [.ofScript marker] ++
    bodyWriter :: [lateMarker].map Module.ofScript
  policy := Smtp.policy

theorem isEntry_of_mem_plainEntries :
    ∀ entry ∈ plainEntries, Bytes.IsEntry entry := by
  intro entry hEntry
  rw [List.mem_singleton.mp hEntry]
  exact isEntry_subject

/-
  The field that is added after the other body was written is
  in the file, and the one that was added before is not.
-/
theorem shows_markAfterRewrite :
    ∃ after w',
      markAfterRewrite.process .holding
          (.holding plainMessage) (.holding plainMail) =
        ((.ok .completed, after), w') ∧
        w'.files.Shows after.envelope.messageFile
          "X-Late" "2" ∧
        ¬ w'.files.Shows after.envelope.messageFile
          "X-Seen" "1" := by
  rcases hEnd :
      markAfterRewrite.process .holding
        (.holding plainMessage) (.holding plainMail) with
    ⟨⟨result, after⟩, w'⟩
  have hRun :
      (markAfterRewrite.process .holding
            (.holding plainMessage)
            (.holding plainMail)).1.1.toOption =
          some .completed ∧
        (markAfterRewrite.process .holding
            (.holding plainMessage)
            (.holding plainMail)).1.2.message =
          some {
            headers :=
              plainMessage.headers ++ [⟨"X-Late", "2", none⟩]
            bodyOffset := 25
            crlf := true } := by
    decide +kernel
  rw [hEnd] at hRun
  rcases hRun with ⟨hResult, hMessage⟩
  cases result with
  | error e => cases hResult
  | ok disposition =>
      cases hResult
      have hOverwrites :
          bodyWriter.Overwrites .holding
            (markAfterRewrite.reaching .holding
              [.ofScript marker] (.holding plainMessage)
              (.holding plainMail))
            (mailWith otherBody) :=
        ⟨by decide +kernel, by decide +kernel,
          by decide +kernel⟩
      have hParse :
          Message.parse (mailWith (Utf8.encode "body\r\n")) =
            .ok plainMessage := by
        decide +kernel
      have hShows :
          ∀ name value,
            Text.sameName traceHeader name = false →
            (w'.files.Shows after.envelope.messageFile name value ↔
              value ∈ plainMessage.values name ∨
                ∃ script ∈ [lateMarker],
                  ∃ action ∈ script.2,
                    action.Adds name value) := by
        intro name value hName
        apply shows_iff rfl Smtp.keepsMessage_policy ?_
          (fun _ => hName) isEntry_of_mem_plainEntries
          (by decide) (Or.inr rfl) hParse rfl hOverwrites hEnd
          hMessage
        · refine ⟨?_, by decide, by decide⟩
          intro header hHeader
          simp only [plainMessage, List.cons_append,
            List.nil_append, List.mem_cons, List.not_mem_nil,
            or_false] at hHeader
          rcases hHeader with rfl | rfl
          · decide
          · decide
        · intro script hScript action hAction
          rw [List.mem_singleton.mp hScript] at hAction
          rw [List.mem_singleton.mp hAction]
          exact ⟨by decide +kernel, True.intro⟩
      refine ⟨after, w', rfl, ?_, ?_⟩
      · apply (hShows _ _ (by decide)).mpr
        exact Or.inr ⟨_, List.mem_singleton_self _, _,
          List.mem_singleton_self _, by decide, rfl⟩
      · intro hSeen
        rcases (hShows _ _ (by decide)).mp hSeen with
          hOld | ⟨script, hScript, action, hAction, hAdds⟩
        · exact absurd hOld (by decide)
        · rw [List.mem_singleton.mp hScript] at hAction
          rw [List.mem_singleton.mp hAction] at hAdds
          exact absurd hAdds.1 (by decide)

/-
  A field that one module adds is lost if the next one writes
  another body under the same header block. Both succeed, and
  no module sets or removes the field.
-/
theorem not_shows_markAndRewrite :
    (∀ m ∈ markAndRewrite.modules, ∀ settings t files,
        (m.run settings t files).1 = 0) ∧
      plainMail = mailWith (Utf8.encode "body\r\n") ∧
      Message.parse plainMail = .ok plainMessage ∧
      bodyWriter.Overwrites .holding
        (markAndRewrite.reaching .holding [.ofScript marker]
          (.holding plainMessage) (.holding plainMail))
        (mailWith otherBody) ∧
      ∃ after w',
        markAndRewrite.process .holding
            (.holding plainMessage) (.holding plainMail) =
          ((.ok .completed, after), w') ∧
          w'.files.content? after.envelope.messageFile =
            some (mailWith otherBody) ∧
          ¬ w'.files.Shows after.envelope.messageFile
            "X-Seen" "1" := by
  refine ⟨?_, by decide, by decide +kernel,
    ⟨by decide +kernel, by decide +kernel, by decide +kernel⟩,
    ?_⟩
  · intro m hm
    simp only [markAndRewrite, List.mem_cons, List.not_mem_nil,
      or_false] at hm
    rcases hm with rfl | rfl
    · exact fun _ _ _ => rfl
    · exact fun _ _ _ => rfl
  rcases hEnd :
      markAndRewrite.process .holding
        (.holding plainMessage) (.holding plainMail) with
    ⟨⟨result, after⟩, w'⟩
  have hRun :
      (markAndRewrite.process .holding
            (.holding plainMessage)
            (.holding plainMail)).1.1.toOption =
          some .completed ∧
        (markAndRewrite.process .holding
              (.holding plainMessage)
              (.holding plainMail)).2.files.content?
            (markAndRewrite.process .holding
              (.holding plainMessage)
              (.holding plainMail)).1.2.envelope.messageFile =
          some (mailWith otherBody) := by
    decide +kernel
  rw [hEnd] at hRun
  rcases hRun with ⟨hResult, hContent⟩
  cases result with
  | error e => cases hResult
  | ok disposition =>
      cases hResult
      refine ⟨after, w', rfl, hContent, ?_⟩
      have hParse :
          Message.parse (mailWith otherBody) =
            .ok plainMessage := by
        decide +kernel
      rw [Files.shows_iff_of_parse hContent hParse]
      decide

end Queue

end MailFilter
