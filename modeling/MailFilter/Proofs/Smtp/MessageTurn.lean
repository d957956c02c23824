import MailFilter.Proofs.Smtp.Envelope
import MailFilter.Proofs.Smtp.Framing
import MailFilter.Proofs.Spool.Replace

/-
  What happens around the message that follows a DATA command.

  A message that ends is dealt with and replied to, and what
  comes after its last line is what the next command is read
  from. If it does not end, the connection is over, and no
  module has seen it.

  Key definitions include:
    * `Smtp.replyLine`
    * `Smtp.idleReply`

  Main statements:
    * `Smtp.receive_of_ended`
    * `Smtp.Station.framing_of_reaches`
-/

namespace MailFilter.Smtp

open Bytes
open World

------------------------------------------------------------
-- Replying To A Message
------------------------------------------------------------

/- The line that is sent for a reply. -/
def replyLine
    (reply : Reply) : Bytes :=
  Utf8.encode reply.render ++ crlf

/- A reply is sent, or the connection is broken. -/
theorem Dialog.reply_apply
    (d : Dialog)
    (reply : Reply)
    (w : World) :
    ∃ after,
      d.reply reply w = (d.write reply.render, after) ∧
        after.journal = w.journal ∧
        after.files = w.files := by
  refine ⟨(emit {
    span := .outgoing
    transaction := some d.transaction.id
    text := reply.render } w).2, ?_, rfl, rfl⟩
  simp only [Dialog.reply, send, Run.bind_apply]
  rcases d.write reply.render with ⟨result, sent⟩
  cases result with
  | error e => rfl
  | ok done => rfl

theorem Dialog.write_of_writes
    {d : Dialog}
    (hWrites : d.outbound.writes ≠ some 0)
    (line : String) :
    d.write line =
      (.ok (), { d with
        outbound := {
          written :=
            (Utf8.encode line ++ crlf) :: d.outbound.written
          writes := d.outbound.writes.map (· - 1) } }) := by
  unfold write
  split
  · rename_i hNone
    exact absurd hNone hWrites
  · rfl

theorem Dialog.write_of_broken
    {d : Dialog}
    (hWrites : d.outbound.writes = some 0)
    (line : String) :
    d.write line = (.error (.connection .brokenPipe), d) := by
  simp only [write, hWrites]

/- A client that can be replied to is. -/
theorem Dialog.conclude_of_writes
    {d : Dialog}
    (hWrites : d.outbound.writes ≠ some 0)
    (reply : Reply)
    (w : World) :
    ∃ next after,
      d.conclude reply w = ((.ok (), next), after) ∧
        next.phase = .helo ∧
        next.context.spoolOpen = d.context.spoolOpen ∧
        next.outbound.written =
          replyLine reply :: d.outbound.written := by
  rcases d.reply_apply reply w with ⟨after, hReply, _⟩
  simp only [conclude, Run.bind_apply, hReply,
    write_of_writes hWrites]
  exact ⟨_, _, rfl, rfl, rfl, rfl⟩

theorem Dialog.conclude_of_broken
    {d : Dialog}
    (hWrites : d.outbound.writes = some 0)
    (reply : Reply)
    (w : World) :
    ∃ after,
      d.conclude reply w =
        ((.error (.connection .brokenPipe), d), after) := by
  rcases d.reply_apply reply w with ⟨after, hReply, _⟩
  simp only [conclude, Run.bind_apply, hReply,
    write_of_broken hWrites]
  exact ⟨_, rfl⟩

------------------------------------------------------------
-- Messages That Do Not End
------------------------------------------------------------

/- The reply that tells a client it was idle for too long. -/
def idleReply
    (d : Dialog) : Reply :=
  .configured d.context.settings .unavailable

/- A client that is gone is at most told that it was idle. -/
theorem Dialog.lose_apply
    (d : Dialog)
    (ending : Ending)
    (w : World) :
    ∃ result lost after,
      d.lose ending w = ((result, lost), after) ∧
        after.journal = w.journal ∧
        after.files = w.files ∧
        (lost.outbound.written = d.outbound.written ∨
          lost.outbound.written =
            replyLine (idleReply d) :: d.outbound.written) := by
  cases ending with
  | closed => exact ⟨_, _, _, rfl, rfl, rfl, Or.inl rfl⟩
  | failed text => exact ⟨_, _, _, rfl, rfl, rfl, Or.inl rfl⟩
  | stalled =>
      rcases d.reply_apply (idleReply d) w with
        ⟨after, hReply, hJournal, hFiles⟩
      rw [idleReply] at hReply
      simp only [lose, Run.bind_apply, hReply]
      by_cases hWrites : d.outbound.writes = some 0
      · rw [write_of_broken hWrites]
        exact ⟨_, _, _, rfl, hJournal, hFiles, Or.inl rfl⟩
      · rw [write_of_writes hWrites]
        exact ⟨_, _, _, rfl, hJournal, hFiles, Or.inr rfl⟩

/-
  After a message that does not end no module was invoked,
  and the client got no more than the notice that it was
  idle. The chain has no part in it.
-/
theorem receive_of_ended
    (service : Service)
    (ending : Ending)
    (d : Dialog)
    (w : World) :
    ∃ result lost after,
      (∀ queue,
        receive { service with queue := queue } (.ended ending)
          d w = ((result, lost), after)) ∧
        after.journal = w.journal ∧
        (lost.outbound.written = d.outbound.written ∨
          lost.outbound.written =
            replyLine (idleReply d) :: d.outbound.written) ∧
        (w.files.refusal .remove
              d.transaction.envelope.messageFile = none →
          after.files.file? d.transaction.envelope.messageFile =
            none) := by
  by_cases hClosed : ending = .closed
  · subst hClosed
    rcases Spool.remove_apply d.transaction.envelope.messageFile
        (sayOf .warn d.transaction
          "Connection closed during DATA" w).2 with
      ⟨after, hRemove, hJournal, hGone⟩
    refine ⟨.ok (), d.closed, after, ?_, hJournal, Or.inl rfl,
      hGone⟩
    intro queue
    have hGone := congrArg Prod.snd hRemove
    dsimp only at hGone
    rw [← hGone]
    rfl
  · rcases d.closed.lose_apply ending w with
      ⟨result, lost, between, hLose, hLost, hFiles, hSent⟩
    rcases Spool.remove_apply d.transaction.envelope.messageFile
        between with
      ⟨after, hRemove, hJournal, hGone⟩
    rw [hFiles] at hGone
    refine ⟨result, lost, after, ?_, hJournal.trans hLost,
      hSent, hGone⟩
    intro queue
    have hReceive :
        receive { service with queue := queue } (.ended ending)
            d w =
          (do
              let result ← d.closed.lose ending
              Spool.remove d.transaction.envelope.messageFile
              return result : Run Progress) w := by
      cases ending with
      | closed => exact absurd rfl hClosed
      | stalled => rfl
      | failed text => rfl
    rw [hReceive]
    simp only [Run.bind_apply, hLose, hRemove, Run.pure_apply]

------------------------------------------------------------
-- The Connection Around A Message
------------------------------------------------------------

/- A spool file is open after DATA was answered by 354. -/
theorem open_of_reaches
    {service : Service}
    {first s : Station}
    {history : List Exchange}
    {answer : Answer}
    (hReaches :
      first.Reaches service (.command .data answer :: history)
        s)
    (hAnswer : answer.code = 354) :
    s.dialog.phase = .data ∧
      s.dialog.context.spoolOpen = true := by
  cases hReaches with
  | step _ hTurn => exact opens_of_startMailInput hTurn hAnswer

/- With an open spool file the next turn is a message. -/
theorem Station.turn_of_open
    (service : Service)
    {s : Station}
    (hPhase : s.dialog.phase = .data)
    (hOpen : s.dialog.context.spoolOpen = true) :
    s.turn service = s.messageTurn service := by
  rw [turn, hPhase, if_neg (by decide), if_pos hOpen]

namespace Station

variable (service : Service)
variable {s : Station}

/- The turn of a message that ended and can be replied to. -/
theorem exists_turn_of_rest
    (hPhase : s.dialog.phase = .data)
    (hOpen : s.dialog.context.spoolOpen = true)
    {rest : Inbound}
    (hRest : (readMessage s.input).rest? = some rest)
    (hWrites : s.dialog.outbound.writes ≠ some 0) :
    ∃ next,
      s.turn service =
          .next (.message (readMessage s.input)) next ∧
        next.input = rest ∧
        next.dialog.phase = .helo ∧
        next.dialog.context.spoolOpen = false ∧
        next.dialog.outbound.written =
          replyLine
              (replyTo service (readMessage s.input)
                s.dialog.transaction s.world).1.1 ::
            s.dialog.outbound.written := by
  have hReceive :=
    receive_of_rest service hRest s.dialog s.world
  generalize replyTo service (readMessage s.input)
    s.dialog.transaction s.world = replied at hReceive ⊢
  rcases Dialog.conclude_of_writes
      (d := s.dialog.closed.withTransaction replied.1.2)
      hWrites replied.1.1 replied.2 with
    ⟨next, after, hNext, hHelo, hClosed, hWritten⟩
  rw [hNext] at hReceive
  refine ⟨⟨rest, next, after⟩, ?_, rfl, hHelo, hClosed,
    hWritten⟩
  rw [turn_of_open service hPhase hOpen, messageTurn]
  simp only [hReceive, hRest, Turn.proceed]

/- A message that ended is followed by the next command. -/
theorem resume_of_rest
    (hPhase : s.dialog.phase = .data)
    (hOpen : s.dialog.context.spoolOpen = true)
    {rest : Inbound}
    (hRest : (readMessage s.input).rest? = some rest) :
    (s.dialog.outbound.writes ≠ some 0 →
        ∃ next,
          s.turn service =
              .next (.message (readMessage s.input)) next ∧
            next.input = rest ∧
            next.dialog.phase = .helo ∧
            s.resume service =
              serve service rest next.dialog next.world) ∧
      (s.dialog.outbound.writes = some 0 →
        ∃ d after,
          s.resume service =
            ((.error (.connection .brokenPipe), d),
                after)) := by
  constructor
  · intro hWrites
    rcases exists_turn_of_rest service hPhase hOpen hRest
        hWrites with
      ⟨next, hTurn, hInput, hHelo, hClosed, _⟩
    refine ⟨next, hTurn, hInput, hHelo, ?_⟩
    rw [resume_eq, hTurn, ← hInput]
    exact resume_of_closed service (by simp [hHelo]) hClosed
  · intro hWrites
    have hReceive :=
      receive_of_rest service hRest s.dialog s.world
    generalize replyTo service (readMessage s.input)
      s.dialog.transaction s.world = replied at hReceive
    rcases Dialog.conclude_of_broken
        (d := s.dialog.closed.withTransaction replied.1.2)
        hWrites replied.1.1 replied.2 with
      ⟨after, hBroken⟩
    rw [hBroken] at hReceive
    refine ⟨s.dialog.closed.withTransaction replied.1.2, after,
      ?_⟩
    rw [resume_eq, turn_of_open service hPhase hOpen,
      messageTurn]
    simp only [hReceive, Turn.proceed, finish]

/- A message that does not end is the end of everything. -/
theorem resume_of_splitMessage?_eq_none
    (hPhase : s.dialog.phase = .data)
    (hOpen : s.dialog.context.spoolOpen = true)
    (hSplit : splitMessage? s.input.data = none) :
    ∃ result d after,
      (∀ queue,
        s.turn { service with queue := queue } =
          .over (result, d) after) ∧
        s.resume service = ((result, d), after) ∧
        after.journal = s.world.journal ∧
        (d.outbound.written = s.dialog.outbound.written ∨
          d.outbound.written =
            replyLine (idleReply s.dialog) ::
              s.dialog.outbound.written) ∧
        (s.world.files.refusal .remove
              s.dialog.transaction.envelope.messageFile =
                none →
          after.files.file?
              s.dialog.transaction.envelope.messageFile =
            none) := by
  have hRead : readMessage s.input = .ended s.input.ending := by
    rw [readMessage_eq, hSplit]
  rcases receive_of_ended service s.input.ending s.dialog
      s.world with
    ⟨result, d, after, hReceive, hJournal, hSent, hGone⟩
  have hOver :
      ∀ queue,
        s.turn { service with queue := queue } =
          .over (result, d) after := by
    intro queue
    rw [turn_of_open _ hPhase hOpen, messageTurn]
    simp only [hRead, hReceive queue, MessageRead.rest?]
    cases result with
    | error e => rfl
    | ok done => rfl
  refine ⟨result, d, after, hOver, ?_, hJournal, hSent, hGone⟩
  rw [resume_eq, hOver service.queue]
  rfl

end Station

/-
  Whatever follows a DATA that was answered by 354: if one of
  its lines can end a message, the first such line does, and
  what follows it is what the next command is read from. If
  not, no module is invoked, nothing is accepted, the spool
  file is removed, and the connection is over.
-/
theorem Station.framing_of_reaches
    {service : Service}
    {input : Inbound}
    {writes : Option Nat}
    {w : World}
    {history : List Exchange}
    {answer : Answer}
    {s : Station}
    (hReaches :
      (Station.opening service input writes w).Reaches service
        (.command .data answer :: history) s)
    (hAnswer : answer.code = 354) :
    (∀ (before : List Bytes) (last : Bytes)
        (later : List Bytes),
        lines s.input.data = before ++ last :: later →
        (∀ line ∈ before, ¬ IsTerminator line) →
        IsTerminator last →
        (readMessage s.input).rest? =
            some ⟨later.flatten, s.input.ending⟩ ∧
          (s.dialog.outbound.writes ≠ some 0 →
            ∃ next,
              s.turn service =
                  .next (.message (readMessage s.input)) next ∧
                next.input = ⟨later.flatten, s.input.ending⟩ ∧
                next.dialog.phase = .helo ∧
                s.resume service =
                  serve service
                    ⟨later.flatten, s.input.ending⟩
                    next.dialog next.world) ∧
          (s.dialog.outbound.writes = some 0 →
            ∃ d after,
              s.resume service =
                ((.error (.connection .brokenPipe), d),
                    after))) ∧
      ((∀ line ∈ lines s.input.data,
            ¬ IsTerminator line) →
        ∃ result d after,
          (∀ queue,
            s.turn { service with queue := queue } =
              .over (result, d) after) ∧
            s.resume service = ((result, d), after) ∧
            after.journal = s.world.journal ∧
            (d.outbound.written = s.dialog.outbound.written ∨
              d.outbound.written =
                replyLine (idleReply s.dialog) ::
                  s.dialog.outbound.written) ∧
            (s.world.files.refusal .remove
                  s.dialog.transaction.envelope.messageFile =
                    none →
              after.files.file?
                  s.dialog.transaction.envelope.messageFile =
                none)) := by
  rcases open_of_reaches hReaches hAnswer with
    ⟨hPhase, hOpen⟩
  constructor
  · intro before last later hData hBefore hEnds
    have hSplit := splitMessage?_of_lines hData hBefore hEnds
    have hRest :
        (readMessage s.input).rest? =
          some ⟨later.flatten, s.input.ending⟩ := by
      rw [rest?_readMessage, hSplit]
      rfl
    exact ⟨hRest, resume_of_rest service hPhase hOpen hRest⟩
  · intro hNone
    exact resume_of_splitMessage?_eq_none service hPhase hOpen
      (splitMessage?_of_forall hNone)

/-
  A line of two dots does not end a message, a line of one dot
  does, and the next command follows. Without such a line the
  connection ends, and nobody was asked about the message.
-/
theorem framing_dots :
    (∃ history s next,
      (plainOpening
          ["MAIL FROM:<a@x>", "RCPT TO:<b@x>", "DATA", "..",
            ".", "NOOP"]).Reaches plainService
          (.command .data plainStart :: history) s ∧
        s.turn plainService =
          .next (.message (readMessage s.input)) next ∧
        next.input.data = Utf8.encode "NOOP\r\n") ∧
      ∃ history s result d after,
        (plainOpening
            ["MAIL FROM:<a@x>", "RCPT TO:<b@x>", "DATA", "..",
              "NOOP"]).Reaches plainService
            (.command .data plainStart :: history) s ∧
          s.turn plainService = .over (result, d) after ∧
          after.journal = s.world.journal := by
  have hHistory :
      ∀ lines ∈ [["..", ".", "NOOP"], ["..", "NOOP"]],
        ((plainOpening
              (["MAIL FROM:<a@x>", "RCPT TO:<b@x>", "DATA"] ++
                lines)).take plainService 3 []).1 =
          [
              .command .data plainStart,
              .command (.rcptTo "<b@x>") plainOk,
              .command (.mailFrom "<a@x>") plainOk] := by
    decide +kernel
  constructor
  · have hReaches := reaches_plainOpening 3
      (hHistory ["..", ".", "NOOP"] (by decide))
    rcases (Station.framing_of_reaches hReaches (by decide)).1
        [Utf8.encode "..\r\n"] (Utf8.encode ".\r\n")
        [Utf8.encode "NOOP\r\n"] (by decide +kernel)
        (by decide) (by decide) with
      ⟨_, hSent, _⟩
    rcases hSent (by decide +kernel) with
      ⟨next, hTurn, hInput, _⟩
    refine ⟨_, _, next, hReaches, hTurn, ?_⟩
    rw [hInput]
    decide
  · have hReaches := reaches_plainOpening 3
      (hHistory ["..", "NOOP"] (by decide))
    rcases (Station.framing_of_reaches hReaches (by decide)).2
        (by decide +kernel) with
      ⟨result, d, after, hOver, _, hJournal, _⟩
    exact ⟨_, _, result, d, after, hReaches,
      hOver plainService.queue, hJournal⟩

end MailFilter.Smtp
