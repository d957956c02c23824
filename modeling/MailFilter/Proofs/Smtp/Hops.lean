import Mathlib.Logic.Function.Iterate
import MailFilter.Proofs.Smtp.FieldNames

/-
  A message that was completed once is never completed again.

  Every server on its way takes it with other line endings at
  most. So each of them finds all fields that a message needs
  and the blank line after them, and has nothing to add.

  Key definitions include:
    * `Smtp.Receiver.NeedsNothing`

  Main statements:
    * `Smtp.LacksNothing.isComplete`
    * `Smtp.content?_of_completed`
    * `Smtp.exists_content_hops`
-/

namespace MailFilter

open Bytes

namespace Smtp

------------------------------------------------------------
-- Messages That Lack Nothing
------------------------------------------------------------

theorem any_seenIn
    (fields : List Bytes)
    (seen : Seen) :
    (seenIn fields seen).any =
      (seen.any || !fields.isEmpty) := by
  induction fields generalizing seen with
  | nil => simp [seenIn]
  | cons entry fields ih =>
      have hRest := ih
        (seen.record ((fieldName entry).map toLower))
      rw [any_record, Bool.true_or] at hRest
      rw [List.isEmpty_cons, Bool.not_false, Bool.or_true]
      exact hRest

/- Who notes what its block has finds it complete. -/
theorem LacksNothing.isComplete
    {lines : List Bytes}
    (hWhole : LacksNothing lines) :
    (noteEnd (splitBlock lines).2
      (seenIn (splitBlock lines).1 {})).IsComplete := by
  have hFlags := seenIn_flags (splitBlock lines).1 {}
  have hHas :
      ∀ name ∈ standardNames,
        hasField (splitBlock lines).1 name = true :=
    fun name hName =>
      (hasField_iff_timesNamed name lines).mpr
        (hWhole.named name hName)
  have hSome :
      (seenIn (splitBlock lines).1 {}).any = true := by
    rw [any_seenIn]
    cases hFields : (splitBlock lines).1 with
    | nil =>
        have hDate := hHas "Date" (by decide)
        rw [hFields] at hDate
        cases hDate
    | cons entry fields => rfl
  rw [noteEnd, if_pos hWhole.ended]
  refine ⟨?_, ?_, ?_, ?_, hSome, rfl⟩
  · exact hFlags.1.trans (hHas "Message-Id" (by decide))
  · exact hFlags.2.1.trans (hHas "Date" (by decide))
  · exact hFlags.2.2.1.trans (hHas "To" (by decide))
  · exact hFlags.2.2.2.trans (hHas "From" (by decide))

/-
  The receiver has all of a message that needs nothing. It can
  be taken, and completing it does nothing then.
-/
structure Receiver.NeedsNothing
    (receiver : Receiver) : Prop where
  seen : receiver.seen.IsComplete
  taken :
    ∀ (w : World) (queueDir : String) (file : File),
      w.files.IsReady queueDir →
      w.files.file? receiver.path = some file →
      ∀ maxSize, (0 < maxSize → receiver.size ≤ maxSize) →
        ∃ files,
          receiver.finish maxSize w =
              (.ok (.received receiver.received),
                { w with files := files }) ∧
            files.content? receiver.path =
              some receiver.content
  unchanged :
    ∀ (maxSize : Nat) (w spooled : World) (received : Received),
      receiver.finish maxSize w =
          (.ok (.received received), spooled) →
      ∀ (completion : Completion) (queueDir : String),
        completion.apply queueDir received spooled =
          (.ok false, spooled)

theorem Receiver.needsNothing_of_isComplete
    {receiver : Receiver}
    (hSeen : receiver.seen.IsComplete) :
    receiver.NeedsNothing := by
  refine ⟨hSeen, ?_, ?_⟩
  · intro w queueDir file hReady hFile maxSize hSize
    rcases exists_finish hReady hFile with
      ⟨files, hFinish, _, hContent⟩
    refine ⟨files, ?_, hContent⟩
    rw [finish_of_le hSize, hFinish]
  · intro maxSize w spooled received hFinish completion queueDir
    have hReceived := (exists_of_finish hFinish).1
    have hComplete : received.seen.IsComplete := by
      rw [hReceived]
      exact hSeen
    rw [Completion.apply, if_pos hComplete]
    rfl

------------------------------------------------------------
-- Hops
------------------------------------------------------------

/- The lines of a message after any number of hops. -/
theorem lacksNothing_iterate
    {data : Bytes}
    (hWhole : LacksNothing (lines data))
    (hops : Nat) :
    LacksNothing (lines (toWire^[hops] data)) ∧
      ∀ name ∈ standardNames,
        timesNamed name (lines (toWire^[hops] data)) =
          timesNamed name (lines data) := by
  induction hops with
  | zero => exact ⟨hWhole, fun _ _ => rfl⟩
  | succ hops ih =>
      rcases ih with ⟨hLast, hTimes⟩
      rw [Function.iterate_succ_apply', lines_toWire]
      refine ⟨hLast.wireLines, ?_⟩
      intro name hName
      rw [timesNamed_wireLines hLast.isLine hName,
        hTimes name hName]

/- What is received of a message that lacks nothing. -/
theorem exists_needsNothing
    {data : Bytes}
    (hWhole : LacksNothing (lines data))
    (next : Path) :
    ∃ receiver,
      Receiver.pushAll { path := next }
          (lines (Relay.dotStuff data ++ Relay.terminator)) =
        (List.replicate (lines data).length false ++ [true],
            receiver) ∧
        receiver.path = next ∧
        receiver.content = data.toWire ∧
        receiver.NeedsNothing := by
  have hFresh :
      ({ path := next } : Receiver).seen.any = true →
        ((lines data).map wireLine).head?.any startsBlank =
          false := by
    intro hAny
    cases hAny
  have hSeen := (Receiver.seen_takeTexts rfl hFresh).1
  have hComplete := hWhole.wireLines.isComplete
  refine ⟨_, pushAll_stuffed _ data,
    Receiver.path_takeTexts _ _, ?_,
    Receiver.needsNothing_of_isComplete ?_⟩
  · rw [Receiver.content, Receiver.lines_takeTexts,
      toWire_eq_flatten]
    simp
  · rw [hSeen]
    exact hComplete

section

variable {path : Path}
variable {lines : List Bytes}
variable
  (hLines :
    ∀ line ∈ lines, line.IsLine ∧ ¬ IsTerminator line)
variable {w spooled after : World}
variable (hNew : w.files.content? path = some [])
variable {maxSize : Nat}
variable {received : Received}
variable
  (hFinish :
    (Receiver.ofLines path lines).finish maxSize w =
      (.ok (.received received), spooled))
variable {completion : Completion}
variable {queueDir : String}
variable {written : Bool}
variable
  (hApply :
    completion.apply queueDir received spooled =
      (.ok written, after))

include hLines hNew hFinish hApply in
/- What the spool file of a completed message holds. -/
theorem content?_of_completed :
    after.files.content? path =
      some (completed (Utf8.encode received.lineEnding)
          (lacking completion w.stamp
            (splitBlock (lines.map Receiver.unstuff)).1)
          (splitBlock (lines.map Receiver.unstuff)).1
          (splitBlock (lines.map Receiver.unstuff)).2) := by
  rcases Receiver.ofLines_parts
      (fun line hLine => (hLines line hLine).2) path with
    ⟨hContent, hSeen, hEnd⟩
  have hPath := Receiver.path_ofLines path lines
  rcases Receiver.exists_of_finish hFinish with
    ⟨hReceived, files, hWrite, rfl⟩
  have hSame : received.path = path := by
    rw [hReceived]
    exact hPath
  have hCompleted :=
    @content_completed completion w.stamp received
      (lines.map Receiver.unstuff)
      (by rw [hReceived]; exact hSeen)
      (by rw [hReceived]; exact hEnd)
  have hSpooled :
      files.content? path =
        some (lines.map Receiver.unstuff).flatten := by
    rcases Option.map_eq_some_iff.mp hNew with
      ⟨file, hFile, hEmpty⟩
    rw [hPath, hContent] at hWrite
    exact Spool.content?_of_write hFile hEmpty hWrite
  rcases Completion.cases_of_apply hApply with
    ⟨hComplete, _, rfl⟩
      | ⟨hLacks, _, raw, said, hRead, _, hReplace⟩
  · rw [if_pos hComplete] at hCompleted
    rw [hSpooled, hCompleted]
  · have hRaw := Files.content?_of_read hRead
    rw [hSame, hSpooled] at hRaw
    cases hRaw
    have hAfter := Spool.content?_of_replace hReplace
    rw [if_neg hLacks] at hCompleted
    rw [← hSame, hAfter, ← hCompleted]

include hLines hNew hFinish hApply in
/-
  However often a message that was received and completed is
  sent on, every server takes all of it, and has nothing to
  add. The fields that it needs stay as often as they were at
  first, but are there once at least.
-/
theorem exists_content_hops
    (hHost : Text.IsOneLine completion.hostname)
    (hSender :
      ∀ sender ∈ completion.sender, Text.IsOneLine sender) :
    ∃ content,
      after.files.content? path = some content ∧
        ∀ (hops : Nat) (next : Path),
          ∃ receiver,
            Receiver.pushAll { path := next }
                (Bytes.lines
                  (Relay.dotStuff (toWire^[hops] content) ++
                    Relay.terminator)) =
              (List.replicate
                    (Bytes.lines
                      (toWire^[hops] content)).length false ++
                  [true],
                receiver) ∧
              receiver.path = next ∧
              receiver.content = toWire^[hops + 1] content ∧
              receiver.NeedsNothing ∧
              ∀ name ∈ standardNames,
                timesNamed name (Bytes.lines receiver.content) =
                  max 1 (timesNamed name
                      (lines.map Receiver.unstuff)) := by
  have hTexts :
      ∀ text ∈ lines.map Receiver.unstuff, IsLine text := by
    intro text hText
    rcases List.mem_map.mp hText with ⟨line, hLine, rfl⟩
    exact Receiver.isLine_unstuff (hLines line hLine).1
  rcases lacksNothing_completed w.isPlain_stamp hHost hSender
      (isBlankLine_lineEnding received) hTexts with
    ⟨hWhole, hTimes⟩
  refine ⟨_, content?_of_completed hLines hNew hFinish hApply,
    ?_⟩
  intro hops next
  rcases exists_needsNothing
      (lacksNothing_iterate hWhole hops).1 next with
    ⟨receiver, hPush, hNext, hContent, hNeeds⟩
  rw [← Function.iterate_succ_apply' toWire] at hContent
  refine ⟨receiver, hPush, hNext, hContent, hNeeds, ?_⟩
  intro name hName
  rw [hContent,
    (lacksNothing_iterate hWhole (hops + 1)).2 name hName]
  exact hTimes name hName

end

/- A message with one field and no blank line after it. -/
theorem exists_content_hops_noBlank :
    let lines :=
      [Utf8.encode "Subject: a\n", Utf8.encode "body\n"]
    let path : Path := .spooled "/q" 0
    let w : World :=
      { World.holding [] with
        stamp := .ofClock {}
        isPlain_stamp := Stamp.isPlain_ofClock {} }
    ∃ received spooled written after content,
      (Receiver.ofLines path lines).finish 0 w =
          (.ok (.received received), spooled) ∧
        (⟨"mx", none⟩ : Completion).apply "/q" received spooled =
          (.ok written, after) ∧
        after.files.content? path = some content ∧
        ∀ hops,
          ∃ receiver : Receiver,
            (Receiver.pushAll { path := path }
                (Bytes.lines
                  (Relay.dotStuff (toWire^[hops] content) ++
                    Relay.terminator))).2 =
              receiver ∧
              receiver.NeedsNothing ∧
              ∀ name ∈ standardNames,
                timesNamed name (Bytes.lines receiver.content) =
                  1 := by
  intro lines path w
  have hLines :
      ∀ line ∈ lines, IsLine line ∧ ¬ IsTerminator line := by
    intro line hLine
    simp only [lines, List.mem_cons, List.not_mem_nil, or_false]
      at hLine
    rcases hLine with rfl | rfl
    · exact ⟨⟨Utf8.encode "Subject: a", by decide, by decide⟩,
        by decide⟩
    · exact ⟨⟨Utf8.encode "body", by decide, by decide⟩,
        by decide⟩
  have hReady : w.files.IsReady "/q" := World.isReady_holding []
  have hNames :
      fieldNames (lines.map Receiver.unstuff) =
        [Utf8.encode "Subject"] := by
    have hName :
        headerName? (Utf8.encode "Subject: a\n") =
          some (Utf8.encode "Subject") := by
      decide
    have hBody : fieldNames [Utf8.encode "body\n"] = [] := by
      rw [fieldNames, splitBlock, if_neg (by decide)]
      rfl
    have hSplit :=
      (fieldNames_of_headerName? hName [Utf8.encode "body\n"]).1
    have hDrop :
        [Utf8.encode "body\n"].dropWhile startsBlank =
          [Utf8.encode "body\n"] := by
      decide
    rw [hDrop, hBody] at hSplit
    exact hSplit
  have hNone :
      ∀ name ∈ standardNames,
        timesNamed name (lines.map Receiver.unstuff) = 0 := by
    intro name hName
    have hOther :
        ∀ name ∈ standardNames,
          isName name (Utf8.encode "Subject") = false := by
      decide +kernel
    rw [timesNamed_eq_countP hName, hNames]
    simp [hOther name hName]
  have hInside : ∀ line ∈ lines, ¬ IsTerminator line :=
    fun line hLine => (hLines line hLine).2
  have hFile : w.files.file? path = some ⟨0, 0, []⟩ := rfl
  rcases Receiver.exists_finish_ofLines hReady hFile hInside with
    ⟨files, hFinish, hKept, hSpooled⟩
  rcases exists_apply_ofLines (w := { w with files := files })
      hKept hInside hSpooled ⟨"mx", none⟩ with
    ⟨written, after, hApply, _⟩
  rcases exists_content_hops hLines rfl hFinish hApply
      (by decide) (by simp) with
    ⟨content, hContent, hHops⟩
  refine ⟨_, _, written, after, content, hFinish, hApply,
    hContent, ?_⟩
  intro hops
  rcases hHops hops path with
    ⟨receiver, hPush, _, _, hNeeds, hTimes⟩
  refine ⟨receiver, congrArg Prod.snd hPush, hNeeds, ?_⟩
  intro name hName
  rw [hTimes name hName, hNone name hName]
  rfl

end Smtp

end MailFilter
