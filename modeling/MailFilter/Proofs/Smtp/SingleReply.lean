import MailFilter.Proofs.Relay.Grammar
import MailFilter.Proofs.Smtp.Wording

/-
  Whether the reply to a message is one line.

  A text is sent as it is, wherever it comes from. So the
  reply is one line if the text has no line ending, and else
  the client gets more lines: one for each line feed. What
  follows the first one is read as a reply of its own.

  Key definitions include:
    * `Smtp.Service.Says`

  Main statements:
    * `Smtp.isReplyLine_replyLine_iff`
    * `Smtp.length_lines_replyLine`
    * `Smtp.parse_replyLine`
    * `Smtp.replies_followed`
    * `Smtp.says_replyTo`
    * `Smtp.isReplyLine_of_reaches`
-/

namespace MailFilter

------------------------------------------------------------
-- Line Feeds
------------------------------------------------------------

/- A line has one line feed. -/
theorem Bytes.IsLine.count_lf
    {line : Bytes}
    (hLine : line.IsLine) :
    line.count lf = 1 := by
  rcases hLine with ⟨front, rfl, hFront⟩
  rw [List.count_append, List.count_eq_zero_of_not_mem hFront,
    List.count_singleton_self]

/- There are as many lines as there are line feeds. -/
theorem Bytes.length_lines_append_lf
    (data : Bytes) :
    (lines (data ++ [lf])).length = data.count lf + 1 := by
  induction data using lineInduction with
  | tail data hNone =>
      have hOne := lines_cons ⟨data, rfl, hNone⟩ []
      rw [List.append_nil] at hOne
      rw [hOne, List.count_eq_zero_of_not_mem hNone]
      rfl
  | line line rest hLine ih =>
      rw [List.append_assoc, lines_cons hLine, List.length_cons,
        ih, List.count_append, hLine.count_lf]
      omega

/- A text has as many line feeds as its bytes. -/
theorem Utf8.count_lf_encodeChars
    (text : List Char) :
    (encodeChars text).count Bytes.lf = text.count '\n' := by
  induction text with
  | nil => rfl
  | cons c rest ih =>
      rw [encodeChars_cons, List.count_append, ih]
      by_cases hFeed : c = '\n'
      · rw [hFeed, List.count_cons_self, Nat.add_comm]
        rfl
      · have hNone : Bytes.lf ∉ String.utf8EncodeChar c :=
          fun hMem =>
            hFeed (eq_of_mem_encodeChar (by decide) hMem).symm
        rw [List.count_cons_of_ne hFeed,
          List.count_eq_zero_of_not_mem hNone, Nat.zero_add]

namespace Smtp

------------------------------------------------------------
-- The Line Of A Reply
------------------------------------------------------------

variable {reply : Reply}

/- The line of a reply is its code, a space, and its text. -/
theorem replyLine_eq
    (reply : Reply) :
    replyLine reply =
      Utf8.encode (toString reply.status.code) ++
        Bytes.space :: (Utf8.encode reply.text ++ Bytes.crlf) := by
  simp [replyLine, Reply.render, Status.render, Utf8.encode]
  rfl

/- It is one line if the text is on one line. -/
theorem isReplyLine_replyLine_iff :
    IsReplyLine (replyLine reply) ↔ Text.IsPlain reply.text :=
  isReplyLine_sentLine_iff.trans Reply.isPlain_render_iff

/- Each line feed of the text makes one more line. -/
theorem length_lines_replyLine
    (reply : Reply) :
    (Bytes.lines (replyLine reply)).length =
      reply.text.toList.count '\n' + 1 := by
  have hCode : '\n' ∉ (reply.status.render ++ " ").toList :=
    (Text.isPlain_append (Text.isPlain_toString _) (by decide)).2
  have hSplit :
      replyLine reply =
        (Utf8.encode reply.render ++ [Bytes.cr]) ++
          [Bytes.lf] := by
    rw [replyLine, List.append_assoc]
    rfl
  rw [hSplit, Bytes.length_lines_append_lf, List.count_append,
    Utf8.encode, Utf8.count_lf_encodeChars, Reply.render,
    String.toList_append, List.count_append,
    List.count_eq_zero_of_not_mem hCode, Nat.zero_add]
  rfl

/- A code of a reply is written with three characters. -/
theorem isSpelling_render
    {status : Status}
    (hCode : status.IsReplyCode) :
    Relay.Response.IsSpelling status.code status.render.toList := by
  rcases hCode with ⟨hLow, hHigh⟩
  have hDigits :
      status.render.toList = Nat.toDigits 10 status.code :=
    String.toList_ofList
  have hMost :=
    Nat.length_toDigits_le_iff (n := status.code) (b := 10) (k := 3)
      (by decide) (by decide)
  have hLeast :=
    Nat.length_toDigits_le_iff (n := status.code) (b := 10) (k := 2)
      (by decide) (by decide)
  rw [hDigits]
  exact ⟨by omega, false, 0, rfl⟩

/- The line of a reply is read as it was written. -/
theorem lineText_replyLine
    (reply : Reply) :
    Relay.Response.lineText (replyLine reply) = reply.render := by
  have hChomp :
      Bytes.chomp (replyLine reply) = Utf8.encode reply.render := by
    simp [replyLine, Bytes.chomp, Bytes.dropCr]
  rw [Relay.Response.lineText, hChomp, Utf8.decodeLossy_encode]

theorem IsReplyLine.isLine
    {line : Bytes}
    (hLine : IsReplyLine line) :
    line.IsLine := by
  rcases hLine with ⟨front, rfl, -, hNone⟩
  refine ⟨front ++ [Bytes.cr], ?_, ?_⟩
  · rw [List.append_assoc]
    rfl
  · rw [List.mem_append, List.mem_singleton]
    rintro (hMem | hSame)
    · exact hNone hMem
    · exact absurd hSame (by decide)

/- A plain reply is read as that reply, and nothing else. -/
theorem parse_replyLine
    (hCode : reply.status.IsReplyCode)
    (hPlain : Text.IsPlain reply.text)
    (rest : Bytes) :
    Relay.Response.parse (replyLine reply ++ rest) =
      .ok (some (⟨reply.status.code, [reply.text]⟩, rest)) := by
  have hText :
      (Relay.Response.lineText (replyLine reply)).toList =
        reply.status.render.toList ++ ' ' :: reply.text.toList := by
    rw [lineText_replyLine, Reply.render, String.toList_append,
      String.toList_append, List.append_assoc]
    rfl
  have hEnds :
      Relay.Response.Ends Relay.Response.IsSpelling
        reply.status.code (replyLine reply) reply.text :=
    ⟨(isReplyLine_replyLine_iff.mpr hPlain).isLine, _,
      isSpelling_render hCode, Or.inl hText⟩
  have hReply :
      Relay.Response.IsReply Relay.Response.IsSpelling
        ⟨reply.status.code, [reply.text]⟩ [replyLine reply] :=
    ⟨[], _, [], _, rfl, rfl, .nil, hEnds⟩
  have hParse := Relay.Response.parse_of_isReply hReply rest
  rwa [List.flatten_singleton] at hParse

theorem replies_replyLine
    (hProper : reply.IsProper Text.IsPlain)
    (rest : Bytes) :
    Relay.replies (replyLine reply ++ rest) =
      ⟨reply.status.code, [reply.text]⟩ :: Relay.replies rest := by
  have hParse := parse_replyLine hProper.code hProper.text []
  rw [List.append_nil] at hParse
  exact Relay.replies_of_parse hParse rest

/- A text can hold the line of another reply. -/
theorem replyLine_followed
    (first second : Reply) :
    replyLine
        ⟨first.status, first.text ++ ("\r\n" ++ second.render)⟩ =
      replyLine first ++ replyLine second := by
  have hRender :
      (⟨first.status, first.text ++ ("\r\n" ++ second.render)⟩ :
          Reply).render =
        first.render ++ ("\r\n" ++ second.render) :=
    String.append_assoc.symm
  have hFeed : Utf8.encode "\r\n" = Bytes.crlf := by
    decide
  rw [replyLine, hRender, Utf8.encode_append, Utf8.encode_append,
    hFeed, replyLine, replyLine, List.append_assoc,
    List.append_assoc, List.append_assoc]

/- Then the client gets two replies for one. -/
theorem replies_followed
    {first second : Reply}
    (hFirst : first.IsProper Text.IsPlain)
    (hSecond : second.IsProper Text.IsPlain) :
    Relay.replies
        (replyLine
          ⟨first.status, first.text ++ ("\r\n" ++ second.render)⟩) =
      [⟨first.status.code, [first.text]⟩,
          ⟨second.status.code, [second.text]⟩] := by
  have hNone : Relay.Response.parse [] = .ok none :=
    Relay.Response.parse_of_isBegun (n := 0) .nil (by simp)
  have hEmpty : Relay.replies [] = [] :=
    Relay.replies_eq_nil (by simp [hNone])
  have hLast := replies_replyLine hSecond []
  rw [List.append_nil, hEmpty] at hLast
  rw [replyLine_followed, replies_replyLine hFirst, hLast]

------------------------------------------------------------
-- Where The Text Comes From
------------------------------------------------------------

/-
  A text that the program has, that is set, or that a module
  wants to be sent.
-/
inductive Service.Says
    (service : Service) : String → Prop where
  | own
      {text : String}
      (hOwn : ∀ allowed, OwnTexts allowed → allowed text) :
      Says service text
  | configured
      {status : Status}
      {text : String}
      (hText : service.settings.replyText status = some text) :
      Says service text
  | nexthop :
      Says service service.settings.smtpd.nexthopFailMsg
  | module
      {m : Module}
      {t : Transaction}
      {files : Files}
      {text : String}
      (hMem : m ∈ service.queue.modules)
      (hBefore : t.responseMsg ≠ some text)
      (hText :
        (m.run service.settings t files).2.1.responseMsg =
          some text) :
      Says service text

/- What a module leaves was there before or is set by it. -/
theorem Service.speaks_says
    {service : Service}
    {m : Module}
    (hMem : m ∈ service.queue.modules) :
    m.Speaks service.Says service.settings := by
  intro t files hBefore text hText
  by_cases hSame : t.responseMsg = some text
  · exact hBefore text hSame
  · exact .module hMem hSame hText

/- The reply to a message has one of these texts. -/
theorem says_replyTo
    {service : Service}
    (hPolicy : service.queue.policy = policy)
    (hKeeps :
      ∀ m ∈ service.queue.modules,
        m.KeepsReply service.settings)
    {read : MessageRead}
    {rest : Inbound}
    (hRest : read.rest? = some rest)
    {t : Transaction}
    (hNone : t.decision = (none, none))
    (w : World) :
    (replyTo service read t w).1.1.IsProper service.Says := by
  have hOwn : OwnTexts service.Says := {
    default := fun status =>
      .own fun _ hOwn => hOwn.default status
    refusal := fun command reply hRefuses =>
      .own fun _ hOwn => hOwn.refusal command reply hRefuses
    accepted := .own fun _ hOwn => hOwn.accepted
    lineTooLong := .own fun _ hOwn => hOwn.lineTooLong }
  have hSettings : service.settings.Speaks service.Says :=
    ⟨fun _ _ hText => .configured hText, .nexthop⟩
  exact isProper_replyTo hOwn hSettings hPolicy hKeeps
    (fun _ hMem => Service.speaks_says hMem) hRest
    (.of_undecided hNone) w

/-
  What ends a message, in every connection, with all settings
  and modules. One reply is written: its code, a space, its
  text as it is, and a line ending. That is one line exactly
  if the text has no line ending, and each line feed in it
  makes one more line. If no module decides on the reply
  itself, the code is one of a reply, and the text is one of
  the program, of the settings, or one that a module set. If
  this one is plain, the client reads that reply and nothing
  else.
-/
theorem isReplyLine_of_reaches
    {service : Service}
    {input : Inbound}
    {writes : Option Nat}
    {w : World}
    {history : List Exchange}
    {answer : Answer}
    {s : Station}
    (hReaches :
      (Station.opening service input writes w).Reaches service
        (.command .data answer :: history) s)
    (hAnswer : answer.code = 354)
    (hEnds :
      ∃ line ∈ Bytes.lines s.input.data, IsTerminator line)
    (hWrites : s.dialog.outbound.writes ≠ some 0) :
    ∃ (reply : Reply) (next : Station),
      s.turn service = .next (.message (readMessage s.input)) next ∧
        next.dialog.outbound.written =
          replyLine reply :: s.dialog.outbound.written ∧
        replyLine reply =
          Utf8.encode (toString reply.status.code) ++
            Bytes.space ::
              (Utf8.encode reply.text ++ Bytes.crlf) ∧
        (IsReplyLine (replyLine reply) ↔
          Text.IsPlain reply.text) ∧
        (Bytes.lines (replyLine reply)).length =
          reply.text.toList.count '\n' + 1 ∧
        (service.queue.policy = policy →
          (∀ m ∈ service.queue.modules,
            m.KeepsReply service.settings) →
          reply.status.IsReplyCode ∧
            service.Says reply.text ∧
            (Text.IsPlain reply.text → ∀ rest,
              Relay.Response.parse (replyLine reply ++ rest) =
                .ok (some
                  (⟨reply.status.code, [reply.text]⟩, rest)))) := by
  rcases open_of_reaches hReaches hAnswer with ⟨hPhase, hOpen⟩
  rcases exists_rest_of_mem hEnds with ⟨rest, hRest⟩
  rcases Station.exists_turn_of_rest service hPhase hOpen hRest
      hWrites with
    ⟨next, hTurn, -, -, -, hWritten⟩
  refine ⟨_, next, hTurn, hWritten, replyLine_eq _,
    isReplyLine_replyLine_iff, length_lines_replyLine _, ?_⟩
  intro hPolicy hKeeps
  have hProper :=
    says_replyTo hPolicy hKeeps hRest
      (decision_of_reaches hReaches) s.world
  exact ⟨hProper.code, hProper.text,
    parse_replyLine hProper.code⟩

/- No text in use there has a line ending. -/
theorem isPlain_of_says_taking
    {text : String}
    (hSays : takingService.Says text) :
    Text.IsPlain text := by
  cases hSays with
  | own hOwn => exact hOwn _ isPlain_ownTexts
  | configured hText => cases hText
  | nexthop => decide
  | module hMem hBefore hText =>
      cases List.mem_singleton.mp hMem
      exact absurd hText hBefore

/- The reply to a message that a module takes is one line. -/
theorem isReplyLine_taken :
    ∃ history s next reply,
      takingOpening.Reaches takingService
          (.command .data plainStart :: history) s ∧
        s.turn takingService =
          .next (.message (readMessage s.input)) next ∧
        next.dialog.outbound.written =
          replyLine reply :: s.dialog.outbound.written ∧
        IsReplyLine (replyLine reply) := by
  rcases exists_reaches_taking with
    ⟨history, s, hReaches, hEnds, hWrites, -⟩
  rcases isReplyLine_of_reaches hReaches (by decide) hEnds
      hWrites with
    ⟨reply, next, hTurn, hWritten, -, hIff, -, hSource⟩
  rcases hSource rfl keepsReply_taking with ⟨-, hSays, -⟩
  exact ⟨history, s, next, reply, hReaches, hTurn, hWritten,
    hIff.mpr (isPlain_of_says_taking hSays)⟩

/- A service whose only module refuses with a reply of its own. -/
def blockingService : Service where
  settings := plainService.settings
  queue := {
    policy := policy
    modules := [
      Module.scripted "m"
        [.responseMsg (some "Blocked\r\n250 OK")] 554] }
  hostname := plainService.hostname

/- A connection to it that sends an empty line as a message. -/
def blockingOpening : Station :=
  .opening blockingService
    ⟨Utf8.encode
        "MAIL FROM:<a@x>\r\nRCPT TO:<b@x>\r\nDATA\r\n\r\n.\r\n",
      .closed⟩
    none { files := { directories := ["/q"] } }

/- The one reply to the message is read as two. -/
theorem not_isReplyLine_blocked :
    ∃ history s next line,
      blockingOpening.Reaches blockingService
          (.command .data plainStart :: history) s ∧
        s.turn blockingService =
          .next (.message (readMessage s.input)) next ∧
        next.dialog.outbound.written =
          line :: s.dialog.outbound.written ∧
        ¬ IsReplyLine line ∧
        Relay.replies line =
          [⟨554, ["Blocked"]⟩, ⟨250, ["OK"]⟩] := by
  have hHistory :
      (blockingOpening.take blockingService 3 []).1 =
        [
            .command .data plainStart,
            .command (.rcptTo "<b@x>") plainOk,
            .command (.mailFrom "<a@x>") plainOk] := by
    decide +kernel
  have hReaches :=
    Station.reaches_take
      (.refl : blockingOpening.Reaches blockingService [] _) 3
  have hEnds :
      ∃ line ∈
        Bytes.lines (blockingOpening.take blockingService 3
          []).2.input.data, IsTerminator line := by
    decide +kernel
  have hWrites :
      (blockingOpening.take blockingService 3
        []).2.dialog.outbound.writes ≠ some 0 := by
    decide +kernel
  have hReply :
      (replyTo blockingService
          (readMessage (blockingOpening.take blockingService 3
            []).2.input)
          (blockingOpening.take blockingService 3
            []).2.dialog.transaction
          (blockingOpening.take blockingService 3
            []).2.world).1.1 =
        ⟨.ofCode 554, "Blocked\r\n250 OK"⟩ := by
    decide +kernel
  rw [hHistory] at hReaches
  generalize (blockingOpening.take blockingService 3 []).2 = s
    at hReaches hEnds hWrites hReply
  rcases open_of_reaches hReaches (by decide) with
    ⟨hPhase, hOpen⟩
  rcases exists_rest_of_mem hEnds with ⟨rest, hRest⟩
  rcases Station.exists_turn_of_rest blockingService hPhase hOpen
      hRest hWrites with
    ⟨next, hTurn, -, -, -, hWritten⟩
  rw [hReply] at hWritten
  refine ⟨_, s, next, _, hReaches, hTurn, hWritten, ?_, ?_⟩
  · rw [isReplyLine_replyLine_iff]
    decide
  · have hBlocked :
        (⟨.ofCode 554, "Blocked"⟩ : Reply).IsProper Text.IsPlain :=
      ⟨by decide, by decide⟩
    have hOk : (⟨.ok, "OK"⟩ : Reply).IsProper Text.IsPlain :=
      ⟨by decide, by decide⟩
    have hText :
        "Blocked\r\n250 OK" =
          "Blocked" ++ ("\r\n" ++ (⟨.ok, "OK"⟩ : Reply).render) := by
      decide +kernel
    have hTwo := replies_followed hBlocked hOk
    rw [← hText] at hTwo
    exact hTwo

end Smtp

end MailFilter
