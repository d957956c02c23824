import MailFilter.Proofs.Smtp.Completion
import MailFilter.Proofs.Spool.Replace
import MailFilter.Smtp.Connection

/-
  Every message that is received without a failure can be
  completed and loaded, and is loaded as what was received.

  Key definitions include:
    * `Smtp.Receiver.ofLines`

  Main statements:
    * `Smtp.exists_loadReceived`
-/

namespace MailFilter

open Bytes

namespace Smtp

open Header World

------------------------------------------------------------
-- Received Messages
------------------------------------------------------------

/- A receiver that took lines. -/
def Receiver.ofLines
    (path : Path)
    (lines : List Bytes) : Receiver :=
  lines.foldl (fun receiver line => (receiver.push line).2)
    { path := path }

/- The text of a line is a line. -/
theorem Receiver.isLine_unstuff
    {line : Bytes}
    (hLine : line.IsLine) :
    (unstuff line).IsLine := by
  rcases hLine with ⟨front, rfl, hLf⟩
  cases front with
  | nil => exact ⟨[], rfl, by decide⟩
  | cons b front =>
      by_cases hDot : b = dot
      · subst hDot
        refine ⟨front, rfl, ?_⟩
        intro hMem
        exact hLf (List.mem_cons_of_mem _ hMem)
      · refine ⟨b :: front, ?_, hLf⟩
        unfold unstuff
        split
        · rename_i rest hSame
          cases hSame
          exact absurd rfl hDot
        · rfl

/- Lines that do not end the message are all taken. -/
theorem Receiver.ofLines_eq
    {lines : List Bytes}
    (hLines : ∀ line ∈ lines, ¬ IsTerminator line)
    (path : Path) :
    Receiver.ofLines path lines =
      (lines.map unstuff).foldl takeText { path := path } := by
  rw [← foldl_takeLine, ofLines]
  generalize ({ path := path } : Receiver) = receiver
  induction lines generalizing receiver with
  | nil => rfl
  | cons line lines ih =>
      rcases List.forall_mem_cons.mp hLines with
        ⟨hFirst, hLater⟩
      have hPush :
          (receiver.push line).2 = receiver.takeLine line := by
        rw [push, if_neg hFirst]
      rw [List.foldl_cons, List.foldl_cons, hPush, ih hLater]

/- What a receiver has after it took lines. -/
theorem Receiver.ofLines_parts
    {lines : List Bytes}
    (hLines : ∀ line ∈ lines, ¬ IsTerminator line)
    (path : Path) :
    (Receiver.ofLines path lines).content =
        (lines.map unstuff).flatten ∧
      (Receiver.ofLines path lines).seen =
        noteEnd (splitBlock (lines.map unstuff)).2
            (seenIn (splitBlock (lines.map unstuff)).1 {}) ∧
      (Receiver.ofLines path lines).headerEnd =
        (splitBlock (lines.map unstuff)).1.flatten.length := by
  rw [ofLines_eq hLines path]
  have hFresh :
      ({ path := path } : Receiver).seen.any = true →
        (lines.map unstuff).head?.any startsBlank = false := by
    intro hAny
    cases hAny
  have hSeen := seen_takeTexts rfl hFresh
  refine ⟨?_, hSeen.1, ?_⟩
  · rw [content, lines_takeTexts]
    simp
  · rw [hSeen.2]
    simp

theorem Receiver.path_ofLines
    (path : Path)
    (lines : List Bytes) :
    (Receiver.ofLines path lines).path = path := by
  have hPath :
      ∀ receiver : Receiver,
        (lines.foldl
          (fun receiver line => (receiver.push line).2)
          receiver).path = receiver.path := by
    induction lines with
    | nil =>
        intro receiver
        rfl
    | cons line lines ih =>
        intro receiver
        rw [List.foldl_cons, ih]
        simp only [push, takeLine, track]
        repeat' split
        all_goals rfl
  exact hPath _

/- What is handed on of a receiver whose message is complete. -/
def Receiver.received
    (receiver : Receiver) : Received where
  path := receiver.path
  size := receiver.size
  seen := receiver.seen
  headerEnd := receiver.headerEnd
  crlf := receiver.crlf.getD true

/- A message that may have any size is taken. -/
theorem Receiver.exists_finish
    {w : World}
    {queueDir : String}
    (hReady : w.files.IsReady queueDir)
    {receiver : Receiver}
    {file : File}
    (hFile : w.files.file? receiver.path = some file) :
    ∃ files,
      receiver.finish 0 w =
          (.ok (.received receiver.received),
              { w with files := files }) ∧
        files.IsReady queueDir ∧
        files.content? receiver.path =
          some receiver.content := by
  rcases Spool.exists_write hReady hFile receiver.content with
    ⟨files, hWrite, hKept, hContent, _⟩
  refine ⟨files, ?_, hKept, hContent⟩
  simp only [finish, Run.bind_apply]
  rw [Spool.store_of_ok hWrite
    (Spool.sync_of_isReliable hKept.reliable _)]
  rfl

/- A message within the limit is taken as if there was none. -/
theorem Receiver.finish_of_le
    {receiver : Receiver}
    {maxSize : Nat}
    (hSize : 0 < maxSize → receiver.size ≤ maxSize) :
    receiver.finish maxSize = receiver.finish 0 := by
  have hNot : ¬ (0 < maxSize ∧ maxSize < receiver.size) :=
    fun hLarge =>
      absurd (hSize hLarge.1) (Nat.not_le_of_lt hLarge.2)
  simp only [finish, if_neg hNot, Nat.lt_irrefl, false_and,
    if_false]

/- Conversely, a message that was taken has been written. -/
theorem Receiver.exists_of_finish
    {receiver : Receiver}
    {maxSize : Nat}
    {w spooled : World}
    {received : Received}
    (hFinish :
      receiver.finish maxSize w =
        (.ok (.received received), spooled)) :
    received = receiver.received ∧
      ∃ files,
        w.files.write receiver.path receiver.content = .ok files ∧
          spooled = { w with files := files } := by
  simp only [finish, Run.bind_apply] at hFinish
  rcases Spool.store_cases receiver.path receiver.content w with
    ⟨fault, hWrite⟩ | ⟨files, hWrite, ⟨fault, hSync⟩ | hSync⟩
  · rw [Spool.store_of_unwritten hWrite] at hFinish
    cases hFinish
  · rw [Spool.store_of_unsynced hWrite hSync] at hFinish
    cases hFinish
  · rw [Spool.store_of_ok hWrite hSync] at hFinish
    dsimp only at hFinish
    split at hFinish
    · cases hFinish
    · cases hFinish
      exact ⟨rfl, files, hWrite, rfl⟩

/- The bytes that completing a message writes. -/
def completedParts
    (completion : Completion)
    (stamp : Stamp)
    (received : Received)
    (content : Bytes) : List Bytes :=
  [ Utf8.encode (Completion.fields received.lineEnding
      (completion.missing stamp received.seen)),
    content.take received.headerEnd,
    Utf8.encode
      (if received.seen.terminated then ""
        else received.lineEnding),
    content.drop received.headerEnd ]

/- A message that was taken is completed. -/
theorem exists_apply
    {w : World}
    {queueDir : String}
    (hReady : w.files.IsReady queueDir)
    (received : Received)
    {content : Bytes}
    (hContent :
      w.files.content? received.path = some content)
    (completion : Completion) :
    ∃ written after,
      completion.apply queueDir received w = (.ok written, after) ∧
        after.files.IsReady queueDir ∧
        after.files.content? received.path =
          some (if received.seen.IsComplete then content
              else (completedParts completion w.stamp received
                content).flatten) := by
  have hRead :=
    Files.read_of_content? (hReady.reliable _ _) hContent
  by_cases hComplete : received.seen.IsComplete
  · refine ⟨false, w, ?_, hReady, ?_⟩
    · simp only [Completion.apply, if_pos hComplete]
      rfl
    · rw [hContent, if_pos hComplete]
  · rcases Option.map_eq_some_iff.mp hContent with
      ⟨file, hFile, _⟩
    let note := say .debug
      ("Adding missing headers to " ++ received.path.render ++
        ": " ++ String.ofList (Text.trimEnd
          (Completion.fields received.lineEnding
            (completion.missing w.stamp received.seen)).toList))
    have hReplace := Spool.exists_replace (w := (note w).2)
      hReady hFile
      (completedParts completion w.stamp received content)
    rcases hReplace with ⟨files, hReplace, hKept⟩
    refine ⟨true, { (note w).2 with files := files }, ?_,
      hKept, ?_⟩
    · simp only [Completion.apply, if_neg hComplete,
        Run.bind_apply, Spool.read_apply, hRead, Run.get_apply]
      simp only [note, completedParts] at hReplace
      rw [hReplace]
      rfl
    · rw [if_neg hComplete]
      exact Spool.content?_of_replace hReplace

/- Completing a message leaves it alone or replaces it. -/
theorem Completion.cases_of_apply
    {completion : Completion}
    {queueDir : String}
    {received : Received}
    {w after : World}
    {written : Bool}
    (hApply :
      completion.apply queueDir received w =
        (.ok written, after)) :
    (received.seen.IsComplete ∧ written = false ∧ after = w) ∨
      (¬ received.seen.IsComplete ∧ written = true ∧
        ∃ raw said,
          w.files.read received.path = .ok raw ∧
            said.files = w.files ∧
            Spool.replace queueDir received.path
                (completedParts completion w.stamp received raw)
                said =
              (.ok (), after)) := by
  unfold apply at hApply
  split at hApply
  · rename_i hComplete
    cases hApply
    exact Or.inl ⟨hComplete, rfl, rfl⟩
  · rename_i hLacks
    right
    simp only [Run.bind_apply, Spool.read_apply] at hApply
    cases hRead : w.files.read received.path with
    | error fault =>
        rw [hRead] at hApply
        cases hApply
    | ok raw =>
        rw [hRead] at hApply
        simp only [Run.bind_apply, Run.get_apply] at hApply
        generalize hSaid : (say .debug _ w).2 = said at hApply
        have hFiles : said.files = w.files := by
          rw [← hSaid]
          rfl
        rcases hReplace :
            Spool.replace queueDir received.path
              (completedParts completion w.stamp received raw)
              said with
          ⟨result, replaced⟩
        have hParts := hReplace
        rw [completedParts] at hParts
        rw [hParts] at hApply
        cases result with
        | error e => cases hApply
        | ok done =>
            cases hApply
            exact ⟨hLacks, rfl, raw, said, rfl, hFiles, hReplace⟩

/-
  Whether a message had to be completed or not, its spool
  file has the fields that it lacked in front.
-/
theorem content_completed
    {completion : Completion}
    {stamp : Stamp}
    (received : Received)
    {texts : List Bytes}
    (hSeen :
      received.seen =
        noteEnd (splitBlock texts).2
            (seenIn (splitBlock texts).1 {}))
    (hEnd :
      received.headerEnd =
        (splitBlock texts).1.flatten.length) :
    (if received.seen.IsComplete then texts.flatten
      else (completedParts completion stamp received
        texts.flatten).flatten) =
      completed (Utf8.encode received.lineEnding)
          (lacking completion stamp (splitBlock texts).1)
          (splitBlock texts).1 (splitBlock texts).2 := by
  have hWhole := flatten_splitBlock texts
  have hMissing :=
    missing_seen completion stamp (splitBlock texts).1
      (splitBlock texts).2
  have hFlags := seenIn_flags (splitBlock texts).1 {}
  rw [← hSeen] at hMissing
  rw [← hWhole]
  generalize (splitBlock texts).1 = fields at *
  generalize (splitBlock texts).2 = left at *
  have hTerminated :
      received.seen.terminated = endsBlank left := by
    have hNone : (seenIn fields {}).terminated = false :=
      terminated_seenIn fields {}
    rw [hSeen, noteEnd]
    cases endsBlank left with
    | true => rfl
    | false => exact hNone
  by_cases hComplete : received.seen.IsComplete
  · have hEnds : endsBlank left = true := by
      rw [← hTerminated]
      exact hComplete.2.2.2.2.2
    have hLacking : lacking completion stamp fields = [] := by
      rw [lacking, ← hMissing, Completion.missing]
      rcases hComplete with ⟨hId, hDate, hTo, hFrom, _⟩
      simp [hId, hDate, hTo, hFrom]
    rw [if_pos hComplete, hLacking, completed, if_pos hEnds]
    simp
  · have hBlank :
        Utf8.encode
            (if received.seen.terminated then ""
              else received.lineEnding) =
          if endsBlank left then []
              else Utf8.encode received.lineEnding := by
      rw [hTerminated]
      cases endsBlank left <;> rfl
    rw [if_neg hComplete, completedParts, hMissing, hBlank,
      hEnd, List.take_left, List.drop_left, encode_fields,
      completed, lacking]
    simp only [List.flatten_cons, List.flatten_nil,
      List.append_nil, List.append_assoc]

theorem isBlankLine_lineEnding
    (received : Received) :
    Bytes.IsBlankLine (Utf8.encode received.lineEnding) := by
  unfold Received.lineEnding
  split
  · exact Or.inr (by decide)
  · exact Or.inl (by decide)

/- Each of the standard fields is there or is added. -/
theorem exists_isNamed
    (completion : Completion)
    (stamp : Stamp)
    (fields : List Bytes)
    {name : String}
    (hName : name ∈ standardNames) :
    ∃ header ∈ (lacking completion stamp fields).map addedHeader ++
        fields.map ofField,
      header.isNamed name = true := by
  cases hHas : hasField fields name with
  | true =>
      rcases List.any_eq_true.mp hHas with
        ⟨entry, hEntry, hNamed⟩
      exact ⟨ofField entry,
        List.mem_append_right _ (List.mem_map_of_mem hEntry),
        hNamed⟩
  | false =>
      rw [← map_fst_standard completion stamp] at hName
      rcases List.mem_map.mp hName with ⟨field, hField, rfl⟩
      have hLacks : field ∈ lacking completion stamp fields :=
        List.mem_filter.mpr ⟨hField, by simp [hHas]⟩
      exact ⟨addedHeader field,
        List.mem_append_left _ (List.mem_map_of_mem hLacks),
        Text.sameName_refl field.1⟩

/- So each of them can be found in a message that has these. -/
theorem isSome_value?_standard
    {completion : Completion}
    {stamp : Stamp}
    {fields : List Bytes}
    {message : Message}
    (hHeaders :
      message.headers =
        (lacking completion stamp fields).map addedHeader ++
          fields.map ofField)
    {name : String}
    (hName : name ∈ standardNames) :
    (message.value? name).isSome = true := by
  rcases exists_isNamed completion stamp fields hName with
    ⟨header, hHeader, hNamed⟩
  rw [← hHeaders] at hHeader
  rw [Message.value?, Message.values, List.isSome_head?]
  exact List.ne_nil_of_mem (List.mem_map_of_mem
    (List.mem_filter.mpr ⟨hHeader, hNamed⟩))

------------------------------------------------------------
-- Receiving And Loading
------------------------------------------------------------

/- Lines that are taken are spooled without their dots. -/
theorem Receiver.exists_finish_ofLines
    {w : World}
    {queueDir : String}
    (hReady : w.files.IsReady queueDir)
    {path : Path}
    {file : File}
    (hFile : w.files.file? path = some file)
    {lines : List Bytes}
    (hLines : ∀ line ∈ lines, ¬ IsTerminator line) :
    ∃ files,
      (ofLines path lines).finish 0 w =
          (.ok (.received (ofLines path lines).received),
            { w with files := files }) ∧
        files.IsReady queueDir ∧
        files.content? path =
          some (lines.map unstuff).flatten := by
  rw [← path_ofLines path lines] at hFile
  rcases exists_finish hReady hFile with
    ⟨files, hFinish, hKept, hSpooled⟩
  rw [path_ofLines, (ofLines_parts hLines path).1] at hSpooled
  exact ⟨files, hFinish, hKept, hSpooled⟩

/- They are completed with the fields that they lack. -/
theorem exists_apply_ofLines
    {w : World}
    {queueDir : String}
    (hReady : w.files.IsReady queueDir)
    {path : Path}
    {lines : List Bytes}
    (hLines : ∀ line ∈ lines, ¬ IsTerminator line)
    (hContent :
      w.files.content? path =
        some (lines.map Receiver.unstuff).flatten)
    (completion : Completion) :
    ∃ written after,
      completion.apply queueDir
            (Receiver.ofLines path lines).received w =
          (.ok written, after) ∧
        after.files.IsReady queueDir ∧
        after.files.content? path =
          some (completed
            (Utf8.encode
              (Receiver.ofLines path lines).received.lineEnding)
            (lacking completion w.stamp
              (splitBlock (lines.map Receiver.unstuff)).1)
            (splitBlock (lines.map Receiver.unstuff)).1
            (splitBlock (lines.map Receiver.unstuff)).2) := by
  rcases Receiver.ofLines_parts hLines path with
    ⟨_, hSeen, hEnd⟩
  have hPath : (Receiver.ofLines path lines).received.path = path :=
    Receiver.path_ofLines path lines
  rw [← hPath] at hContent
  rcases exists_apply hReady
      (Receiver.ofLines path lines).received hContent completion
    with ⟨written, after, hApply, hAfter, hCompleted⟩
  rw [content_completed (Receiver.ofLines path lines).received
    hSeen hEnd, hPath] at hCompleted
  exact ⟨written, after, hApply, hAfter, hCompleted⟩

/- A message that was completed and can be read is loaded. -/
theorem loadReceived_of_apply
    {service : Service}
    {t : Transaction}
    {received : Received}
    {w after : World}
    {written : Bool}
    (hApply :
      (⟨service.hostname, t.envelope.sender⟩ : Completion).apply
          service.settings.global.queueDir received w =
        (.ok written, after))
    {content : Bytes}
    (hRead : after.files.read received.path = .ok content)
    {message : Message}
    (hParse : Message.parse content = .ok message) :
    loadReceived service received t w = (.ok message, after) := by
  simp only [loadReceived, Run.bind_apply]
  rw [hApply]
  simp only [Spool.load_apply, hRead, hParse]

/-
  A message that is received without a failure is completed
  and loaded. It has the fields that it lacked, in order, and
  then its own fields with the lines that continue them. Its
  body is what follows the blank line after its fields or,
  without one, all that follows its fields. The next message
  can be received in the same way.
-/
theorem exists_loadReceived
    {service : Service}
    {t : Transaction}
    {w : World}
    {file : File}
    (hReady : w.files.IsReady service.settings.global.queueDir)
    (hFile :
      w.files.file? t.envelope.messageFile = some file)
    (hHost :
      ∀ c ∈ service.hostname.toList,
        33 ≤ c.toNat ∧ c.toNat ≤ 126)
    (hSender :
      ∀ sender ∈ t.envelope.sender, Text.IsOneLine sender)
    {lines : List Bytes}
    (hLines :
      ∀ line ∈ lines, line.IsLine ∧ ¬ IsTerminator line) :
    ∃ received message spooled loaded content,
      (Receiver.ofLines t.envelope.messageFile lines).finish 0 w =
          (.ok (.received received), spooled) ∧
        loadReceived service received t spooled =
          (.ok message, loaded) ∧
        message.headers =
          (lacking ⟨service.hostname, t.envelope.sender⟩
                w.stamp
                (splitBlock (lines.map Receiver.unstuff)).1).map
              addedHeader ++
            (splitBlock (lines.map Receiver.unstuff)).1.map
              ofField ∧
        (∀ name ∈ standardNames,
            (message.value? name).isSome = true) ∧
        loaded.files.content? t.envelope.messageFile =
          some content ∧
        content.drop message.bodyOffset =
          bodyAfter (splitBlock (lines.map Receiver.unstuff)).2 ∧
        (lines.map Receiver.unstuff).flatten.drop
            received.headerEnd =
          (splitBlock
              (lines.map Receiver.unstuff)).2.flatten ∧
        loaded.files.IsReady
            service.settings.global.queueDir := by
  generalize hPath : t.envelope.messageFile = path at *
  generalize hTexts : lines.map Receiver.unstuff = texts
  have hInside : ∀ line ∈ lines, ¬ IsTerminator line :=
    fun line hLine => (hLines line hLine).2
  have hTextLines : ∀ text ∈ texts, IsLine text := by
    intro text hText
    rw [← hTexts] at hText
    rcases List.mem_map.mp hText with ⟨line, hLine, rfl⟩
    exact Receiver.isLine_unstuff (hLines line hLine).1
  have hAddable :
      ∀ field ∈ lacking
          ⟨service.hostname, t.envelope.sender⟩ w.stamp
          (splitBlock texts).1, IsAddable field := by
    intro field hField
    exact isAddable_standard w.isPlain_stamp hHost hSender field
      (List.mem_of_mem_filter hField)
  rcases Receiver.exists_finish_ofLines hReady hFile hInside with
    ⟨files, hFinish, hKept, hSpooled⟩
  rcases exists_apply_ofLines (w := { w with files := files })
      hKept hInside hSpooled
      ⟨service.hostname, t.envelope.sender⟩ with
    ⟨written, after, hApply, hAfter, hCompleted⟩
  rw [hTexts] at hCompleted
  rcases parse_completed hAddable hTextLines
      (isBlankLine_lineEnding
        (Receiver.ofLines path lines).received) with
    ⟨message, hParse, hHeaders, hBody⟩
  refine ⟨_, message, _, after, _, hFinish, ?_, hHeaders,
    fun name hName => isSome_value?_standard hHeaders hName,
    hCompleted, hBody, ?_, hAfter⟩
  · have hSame :
        (Receiver.ofLines path lines).received.path = path :=
      Receiver.path_ofLines path lines
    exact loadReceived_of_apply hApply
      (Files.read_of_content? (hAfter.reliable _ _)
        (hSame.symm ▸ hCompleted))
      hParse
  · have hEnd := (Receiver.ofLines_parts hInside path).2.2
    rw [hTexts] at hEnd
    rw [← flatten_splitBlock texts]
    change List.drop (Receiver.ofLines path lines).headerEnd _ = _
    rw [hEnd, List.drop_left]

/- A message with one field and a body that starts with a dot. -/
theorem exists_loadReceived_subject :
    ∃ received message spooled loaded content,
      (Receiver.ofLines (.spooled "/q" 0)
          [Utf8.encode "Subject: a\r\n", Utf8.encode "\r\n",
            Utf8.encode "..\r\n"]).finish 0
          { files := {
              entries := [(.spooled "/q" 0, ⟨0, 0, []⟩)]
              directories := ["/q"]
              next := 1 }
            stamp := .ofClock {}
            isPlain_stamp := Stamp.isPlain_ofClock {} } =
          (.ok (.received received), spooled) ∧
        loadReceived
            { settings := { global := { queueDir := "/q" } }
              queue := { policy := Smtp.policy }
              hostname := "mx" }
            received
            { id := 0
              envelope := { messageFile := .spooled "/q" 0 } }
            spooled =
          (.ok message, loaded) ∧
        message.headers.length = 5 ∧
        (∀ name ∈ standardNames,
            (message.value? name).isSome = true) ∧
        loaded.files.content? (.spooled "/q" 0) = some content ∧
        content.drop message.bodyOffset =
          Utf8.encode ".\r\n" := by
  have hSplit :
      splitBlock
          ([Utf8.encode "Subject: a\r\n", Utf8.encode "\r\n",
            Utf8.encode "..\r\n"].map Receiver.unstuff) =
        ([Utf8.encode "Subject: a\r\n"],
            [Utf8.encode "\r\n", Utf8.encode ".\r\n"]) := by
    exact splitBlock_single (by decide) (by decide) (by decide) _
  have hLines :
      ∀ line ∈
        [Utf8.encode "Subject: a\r\n", Utf8.encode "\r\n",
          Utf8.encode "..\r\n"],
        IsLine line ∧ ¬ IsTerminator line := by
    intro line hLine
    simp only [List.mem_cons, List.not_mem_nil, or_false]
      at hLine
    rcases hLine with rfl | rfl | rfl
    · exact ⟨⟨Utf8.encode "Subject: a\r", by decide, by decide⟩,
        by decide⟩
    · exact ⟨⟨Utf8.encode "\r", by decide, by decide⟩,
        by decide⟩
    · exact ⟨⟨Utf8.encode "..\r", by decide, by decide⟩,
        by decide⟩
  have hHost :
      ∀ c ∈ "mx".toList, 33 ≤ c.toNat ∧ c.toNat ≤ 126 := by
    intro c hMem
    have hCases : c = 'm' ∨ c = 'x' := by
      simpa using hMem
    rcases hCases with rfl | rfl <;> decide
  rcases @exists_loadReceived
      { settings := { global := { queueDir := "/q" } }
        queue := { policy := Smtp.policy }
        hostname := "mx" }
      { id := 0
        envelope := { messageFile := .spooled "/q" 0 } }
      { files := {
          entries := [(.spooled "/q" 0, ⟨0, 0, []⟩)]
          directories := ["/q"]
          next := 1 }
        stamp := .ofClock {}
        isPlain_stamp := Stamp.isPlain_ofClock {} }
      ⟨0, 0, []⟩
      ⟨fun _ _ => rfl,
        Files.isNumbered_singleton rfl (by decide) (by decide),
        by decide⟩
      rfl hHost
      (by simp) _ hLines with
    ⟨received, message, spooled, loaded, content, hFinish,
      hLoad, hHeaders, hNames, hContent, hBody, _⟩
  rw [hSplit] at hHeaders hBody
  refine ⟨received, message, spooled, loaded, content, hFinish,
    hLoad, ?_, hNames, hContent, ?_⟩
  · rw [hHeaders, List.length_append, List.length_map,
      List.length_map]
    decide
  · rw [hBody]
    decide

end Smtp

end MailFilter
