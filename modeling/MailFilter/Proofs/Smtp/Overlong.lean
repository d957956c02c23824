import MailFilter.Proofs.Smtp.CommandLines
import MailFilter.Proofs.Smtp.Readiness
import MailFilter.Proofs.Smtp.Refusals

/-
  How client and server stay in step over lines of any length.

  What a client sends is taken line by line. A line that is
  short enough for a command is carried out as one, whole. One
  that is too long is dropped in pieces, up to its line feed
  and no further. It is answered once, and as with commands
  that are refused nothing else comes of it.

  Key definitions include:
    * `Smtp.Exchange.Takes`
    * `Smtp.Exchange.IsTurnedDown`
    * `Smtp.Station.ReadsLine`

  Main statements:
    * `Smtp.Station.exists_taken_of_reaches`
    * `Smtp.Station.unchanged_of_reaches`
    * `Smtp.Station.inStep_of_reaches`
-/

namespace MailFilter.Smtp

open Bytes
open World

------------------------------------------------------------
-- The Lines Of A Turn
------------------------------------------------------------

/- The lines of the client that an exchange is about. -/
inductive Exchange.Takes : Exchange → List Bytes → Prop where
  | command
      {line : Bytes}
      (answer : Answer) :
      Fits line →
      Takes (.command (.ofBytes line) answer) [line]
  | overlong
      {line : Bytes} :
      maxCommandLine < line.length →
      Takes .overlong [line]
  | message
      {before : List Bytes}
      {last : Bytes}
      (read : MessageRead) :
      (∀ line ∈ before, ¬ IsTerminator line) →
      IsTerminator last →
      Takes (.message read) (before ++ [last])

namespace Station

variable {service : Service}
variable {s next : Station}
variable {exchange : Exchange}

/- A message is taken with the line that ends it. -/
theorem exists_taken_of_messageTurn
    (hTurn : s.messageTurn service = .next exchange next) :
    ∃ taken,
      exchange.Takes taken ∧
        lines s.input.data =
          taken ++ lines next.input.data := by
  rcases Turn.of_proceed_eq_next hTurn with
    ⟨rfl, hRest, -, -⟩
  rw [rest?_readMessage, Option.map_eq_some_iff] at hRest
  rcases hRest with ⟨⟨before, rest⟩, hSplit, hNext⟩
  rcases exists_lines_of_splitMessage? hSplit with
    ⟨last, hLines, hLast, hBefore⟩
  refine ⟨before ++ [last], .message _ hBefore hLast, ?_⟩
  rw [hLines, ← hNext]
  simp

/- A command line is taken whole, be it too long or not. -/
theorem exists_taken_of_commandTurn
    (hTurn : s.commandTurn = .next exchange next) :
    ∃ taken,
      exchange.Takes taken ∧
        lines s.input.data =
          taken ++ lines next.input.data := by
  unfold commandTurn at hTurn
  dsimp only at hTurn
  cases hRead : readCommand s.input with
  | ended ending =>
      rw [hRead] at hTurn
      cases hTurn
  | tooLong skip =>
      rw [hRead] at hTurn
      cases skip with
      | ended ending => cases hTurn
      | through rest =>
          rcases Turn.of_proceed_eq_next hTurn with
            ⟨rfl, hRest, -, -⟩
          cases hRest
          rcases lines_of_readCommand_through hRead with
            ⟨line, hLines, hLong⟩
          exact ⟨[line], .overlong hLong, hLines⟩
  | line line rest =>
      rw [hRead] at hTurn
      unfold answerTurn at hTurn
      rcases Turn.of_proceed_eq_next hTurn with
        ⟨rfl, hRest, -, -⟩
      cases hRest
      rcases lines_of_readCommand_line hRead with
        ⟨hLines, hFits⟩
      exact ⟨[line], .command _ hFits, hLines⟩

theorem exists_taken_of_turn
    (hTurn : s.turn service = .next exchange next) :
    ∃ taken,
      exchange.Takes taken ∧
        lines s.input.data =
          taken ++ lines next.input.data := by
  rcases turn_cases hTurn with
    ⟨-, hMessage⟩ | ⟨-, hCommand⟩
  · exact exists_taken_of_messageTurn hMessage
  · exact exists_taken_of_commandTurn hCommand

/-
  The lines of the client are those that the turns so far were
  about, in their order, and those that are left.
-/
theorem exists_taken_of_reaches
    {first : Station}
    {history : List Exchange}
    (hReaches : first.Reaches service history s) :
    ∃ taken,
      List.Forall₂ Exchange.Takes history taken ∧
        lines first.input.data =
          taken.reverse.flatten ++ lines s.input.data := by
  induction hReaches with
  | refl => exact ⟨[], .nil, rfl⟩
  | step _ hTurn ih =>
      rcases ih with ⟨taken, hTaken, hLines⟩
      rcases exists_taken_of_turn hTurn with
        ⟨more, hTakes, hNext⟩
      refine ⟨more :: taken, .cons hTakes hTaken, ?_⟩
      rw [hLines, hNext]
      simp

end Station

------------------------------------------------------------
-- Lines That Are Too Long
------------------------------------------------------------

/- A dialogue in which one more reply was sent. -/
def Dialog.told
    (d : Dialog)
    (reply : Reply) : Dialog :=
  { d with
    outbound := {
      written := replyLine reply :: d.outbound.written
      writes := d.outbound.writes.map (· - 1) } }

/- What is sent is logged, and nothing else is done. -/
theorem Dialog.logged_reply
    (d : Dialog)
    (reply : Reply)
    (w : World) :
    w.Logged (d.reply reply w).2 := by
  simp only [Dialog.reply, send, Run.bind_apply]
  rcases d.write reply.render with ⟨result, sent⟩
  cases result with
  | error e => exact logged_emit _ w
  | ok done => exact logged_emit _ w

namespace Station

variable {service : Service}
variable {s : Station}

/-
  What becomes of the first line of the client if the rest
  follows. It is carried out if it is short enough, and then
  the next turn starts with the rest. If it is not, the next
  turn starts there as well, and all that differs is the one
  reply that was sent. If it cannot be sent, the connection is
  over.
-/
structure ReadsLine
    (service : Service)
    (s : Station)
    (line rest : Bytes) : Prop where
  carriedOut :
    (∃ text more, readCommand s.input = .line text more) ↔
      line.length ≤ maxCommandLine
  whole :
    line.length ≤ maxCommandLine →
      readCommand s.input = .line line ⟨rest, s.input.ending⟩ ∧
        s.turn service =
          answerTurn (.ofBytes line) ⟨rest, s.input.ending⟩
            s.dialog s.world
  turnedDown :
    maxCommandLine < line.length →
      s.dialog.outbound.writes ≠ some 0 →
      ∃ after,
        s.world.Logged after ∧
          s.turn service =
            .next .overlong
              ⟨⟨rest, s.input.ending⟩,
                s.dialog.told Refusal.lineTooLong, after⟩ ∧
          serve service s.input s.dialog s.world =
            serve service ⟨rest, s.input.ending⟩
              (s.dialog.told Refusal.lineTooLong) after
  unheard :
    maxCommandLine < line.length →
      s.dialog.outbound.writes = some 0 →
      ∃ after,
        s.world.Logged after ∧
          s.turn service =
            .over (.error (.connection .brokenPipe), s.dialog)
              after

/- A line that is too long is answered once and dropped. -/
theorem exists_overlong
    (service : Service)
    (hAwaits : s.AwaitsCommand)
    {rest : Inbound}
    (hRead : readCommand s.input = .tooLong (.through rest)) :
    ∃ after,
      s.world.Logged after ∧
        (s.dialog.outbound.writes ≠ some 0 →
          s.turn service =
            .next .overlong
              ⟨rest, s.dialog.told Refusal.lineTooLong, after⟩) ∧
        (s.dialog.outbound.writes = some 0 →
          s.turn service =
            .over (.error (.connection .brokenPipe), s.dialog)
              after) := by
  have hNoted : s.world.Logged (noteTooLong s.dialog s.world).2 :=
    logged_emit _ s.world
  have hLogged :=
    s.dialog.logged_reply Refusal.lineTooLong
      (noteTooLong s.dialog s.world).2
  rcases s.dialog.reply_apply Refusal.lineTooLong
      (noteTooLong s.dialog s.world).2 with
    ⟨after, hReply, -⟩
  rw [hReply] at hLogged
  rw [turn_of_awaitsCommand service hAwaits, commandTurn]
  simp only [hRead, hReply]
  refine ⟨after, hNoted.trans hLogged, ?_, ?_⟩
  · intro hWrites
    rw [Dialog.write_of_writes hWrites]
    rfl
  · intro hBroken
    rw [Dialog.write_of_broken hBroken]
    rfl

/- If the connection goes on, only the reply was sent. -/
theorem exists_of_overlong
    {next : Station}
    (hTurn : s.turn service = .next .overlong next) :
    ∃ rest after,
      s.world.Logged after ∧
        next =
          ⟨rest, s.dialog.told Refusal.lineTooLong, after⟩ := by
  have hAwaits : s.AwaitsCommand := by
    refine ⟨?_, ?_⟩
    · intro hQuit
      rw [turn, if_pos hQuit] at hTurn
      cases hTurn
    · rcases turn_cases hTurn with ⟨-, hMessage⟩ | ⟨hClosed, -⟩
      · cases (of_messageTurn_eq_next hMessage).1
      · exact hClosed
  have hRead :
      ∃ rest, readCommand s.input = .tooLong (.through rest) := by
    have hCommand := hTurn
    rw [turn_of_awaitsCommand service hAwaits, commandTurn]
      at hCommand
    split at hCommand
    · cases hCommand
    · cases hCommand
    · rename_i rest hRead
      exact ⟨rest, hRead⟩
    · unfold answerTurn at hCommand
      cases (Turn.of_proceed_eq_next hCommand).1
  rcases hRead with ⟨rest, hRead⟩
  rcases exists_overlong service hAwaits hRead with
    ⟨after, hLogged, hNext, hOver⟩
  by_cases hBroken : s.dialog.outbound.writes = some 0
  · rw [hOver hBroken] at hTurn
    cases hTurn
  · rw [hNext hBroken] at hTurn
    cases hTurn
    exact ⟨rest, after, hLogged, rfl⟩

/- The first line is read, whatever its length is. -/
theorem AwaitsCommand.readsLine
    (hAwaits : s.AwaitsCommand)
    {line rest : Bytes}
    (hLine : line.IsLine)
    (hData : s.input.data = line ++ rest) :
    s.ReadsLine service line rest := by
  have hInput : s.input = ⟨line ++ rest, s.input.ending⟩ := by
    rw [← hData]
  by_cases hFits : line.length ≤ maxCommandLine
  · have hRead :=
      readCommand_line hLine hFits rest s.input.ending
    rw [← hInput] at hRead
    have hShort := Nat.not_lt_of_le hFits
    refine ⟨iff_of_true ⟨_, _, hRead⟩ hFits, fun _ => ⟨hRead, ?_⟩,
      fun hLong => absurd hLong hShort,
      fun hLong => absurd hLong hShort⟩
    rw [turn_of_awaitsCommand service hAwaits, commandTurn]
    simp only [hRead]
  · have hLong := Nat.lt_of_not_le hFits
    have hRead :=
      readCommand_overlong hLine hLong rest s.input.ending
    rw [← hInput] at hRead
    rcases exists_overlong service hAwaits hRead with
      ⟨after, hLogged, hNext, hOver⟩
    refine ⟨iff_of_false ?_ hFits, fun hShort => absurd hShort hFits,
      fun _ hWrites => ⟨after, hLogged, hNext hWrites, ?_⟩,
      fun _ hBroken => ⟨after, hLogged, hOver hBroken⟩⟩
    · rintro ⟨text, more, hText⟩
      rw [hRead] at hText
      cases hText
    · have hResume := resume_eq service s
      rw [hNext hWrites, resume_of_closed service hAwaits.phase
        hAwaits.closed] at hResume
      exact hResume.trans
        (resume_of_closed service hAwaits.phase hAwaits.closed)

end Station

------------------------------------------------------------
-- Exchanges That Change Nothing
------------------------------------------------------------

/- The client was told that nothing was done. -/
def Exchange.IsTurnedDown : Exchange → Prop
  | .command _ answer => answer.IsRefusal
  | .overlong => True
  | .message _ => False

namespace Station

/-
  However many commands are refused and however many lines are
  too long, the connection goes on as it was.
-/
theorem unchanged_of_reaches
    {service : Service}
    {first s : Station}
    {history : List Exchange}
    (hReaches : first.Reaches service history s)
    (hTurnedDown : ∀ exchange ∈ history, exchange.IsTurnedDown) :
    s.dialog.phase = first.dialog.phase ∧
      s.dialog.context = first.dialog.context ∧
      s.world.files = first.world.files := by
  induction hReaches with
  | refl => exact ⟨rfl, rfl, rfl⟩
  | step hBefore hTurn ih =>
      rename_i history s next exchange
      rcases List.forall_mem_cons.mp hTurnedDown with
        ⟨hLast, hEarlier⟩
      rcases ih hEarlier with ⟨hPhase, hContext, hFiles⟩
      rw [← hPhase, ← hContext, ← hFiles]
      cases exchange with
      | message read => exact hLast.elim
      | command command answer =>
          rcases exists_step_of_turn hTurn with
            ⟨-, before, after, hStep, hStart, hEnd⟩
          rcases exists_step_of_isRefusal
              (by rw [hStep]; exact hLast) with
            ⟨reply, other, -, hOther, hLogged⟩
          injection hStep.symm.trans hOther with hResult hWorld
          injection hResult with hSame hRest
          injection hRest with hKept _
          rw [← hWorld] at hLogged
          exact ⟨hSame, hKept,
            hEnd.trans (hLogged.files.trans hStart)⟩
      | overlong =>
          rcases exists_of_overlong hTurn with
            ⟨rest, after, hLogged, rfl⟩
          exact ⟨rfl, rfl, hLogged.files⟩

end Station

------------------------------------------------------------
-- Client And Server In Step
------------------------------------------------------------

/-
  However a connection came to where it is, it has taken whole
  lines from the client, each once and in their order: those
  that were carried out fit, and those that were turned down
  do not. Wherever a command is to be read, the next line is
  taken in the same way, whatever its length is and whatever
  follows. However many lines are turned down from then on,
  the connection is as it was. What is left of it is what the
  server does from there.
-/
theorem Station.inStep_of_reaches
    {service : Service}
    {input : Inbound}
    {writes : Option Nat}
    {w : World}
    {history : List Exchange}
    {s : Station}
    (hReaches :
      (Station.opening service input writes w).Reaches service
        history s) :
    (∃ taken,
        List.Forall₂ Exchange.Takes history taken ∧
          lines input.data =
            taken.reverse.flatten ++ lines s.input.data) ∧
      (s.dialog.phase ∈ commandPhases →
          ∀ line rest : Bytes, line.IsLine →
            s.input.data = line ++ rest →
            s.ReadsLine service line rest) ∧
      (∀ later last, s.Reaches service later last →
          (∀ exchange ∈ later, exchange.IsTurnedDown) →
          last.dialog.phase = s.dialog.phase ∧
            last.dialog.context = s.dialog.context ∧
            last.world.files = s.world.files) ∧
      (Station.opening service input writes w).resume service =
        s.resume service := by
  refine ⟨exists_taken_of_reaches hReaches, ?_,
    fun _ _ hLater hTurnedDown =>
      unchanged_of_reaches hLater hTurnedDown,
    resume_eq_of_reaches hReaches⟩
  intro hPhase line rest hLine hData
  have hOrder :=
    inOrder_of_reaches (inOrder_opening service input writes w)
      hReaches
  have hAwaits : s.AwaitsCommand := by
    refine ⟨?_, hOrder.closed ?_⟩
    · intro hQuit
      rw [hQuit] at hPhase
      exact absurd hPhase (by decide)
    · intro hData
      rw [hData] at hPhase
      exact absurd hPhase (by decide)
  exact hAwaits.readsLine hLine hData

/- A line of one byte more than a command can have. -/
def longLine : Bytes :=
  List.replicate maxCommandLine 65 ++ [lf]

/- A client that greets, then sends that line, and goes on. -/
def longTalk : Bytes :=
  Utf8.encode "HELO c\r\n" ++ (longLine ++ Utf8.encode "NOOP\r\n")

/- Its last piece is a line feed, and NOOP is read after it. -/
theorem Station.inStep_longLine :
    ∃ s next,
      (Station.opening plainService ⟨longTalk, .closed⟩ none
          {}).Reaches plainService
          [.command (.helo "c") (.single ⟨.ok, "mx"⟩)] s ∧
        s.turn plainService = .next .overlong next ∧
        next.dialog.phase = .helo ∧
        next.dialog.context = s.dialog.context ∧
        next.dialog.outbound.written =
          Utf8.encode "500 Line too long\r\n" ::
            s.dialog.outbound.written ∧
        next.input.data = Utf8.encode "NOOP\r\n" := by
  have hHistory :
      ((Station.opening plainService ⟨longTalk, .closed⟩ none
          {}).take plainService 1 []).1 =
        [.command (.helo "c") (.single ⟨.ok, "mx"⟩)] := by
    decide +kernel
  have hStart :
      (Station.opening plainService ⟨longTalk, .closed⟩ none
          {}).Reaches plainService []
        (.opening plainService ⟨longTalk, .closed⟩ none {}) :=
    .refl
  have hReaches := reaches_take hStart 1
  have hPhase :
      ((Station.opening plainService ⟨longTalk, .closed⟩ none
          {}).take plainService 1 []).2.dialog.phase =
        .helo := by
    decide +kernel
  have hWrites :
      ((Station.opening plainService ⟨longTalk, .closed⟩ none
          {}).take plainService 1 []).2.dialog.outbound.writes =
        none := by
    decide +kernel
  have hData :
      ((Station.opening plainService ⟨longTalk, .closed⟩ none
          {}).take plainService 1 []).2.input.data =
        longLine ++ Utf8.encode "NOOP\r\n" := by
    decide +kernel
  rw [hHistory] at hReaches
  generalize ((Station.opening plainService ⟨longTalk, .closed⟩
      none {}).take plainService 1 []).2 = s
    at hReaches hPhase hWrites hData
  have hLine : longLine.IsLine :=
    ⟨_, rfl, fun hMem =>
      absurd (List.eq_of_mem_replicate hMem) (by decide)⟩
  have hLong : maxCommandLine < longLine.length := by
    rw [longLine, List.length_append, List.length_replicate]
    exact Nat.lt_succ_self _
  have hMem : s.dialog.phase ∈ commandPhases := by
    rw [hPhase]
    decide
  rcases ((inStep_of_reaches hReaches).2.1 hMem _ _ hLine
      hData).turnedDown hLong (by rw [hWrites]; simp) with
    ⟨after, -, hTurn, -⟩
  exact ⟨s, _, hReaches, hTurn, hPhase, rfl,
    congrArg (· :: _) (by decide +kernel), rfl⟩

end MailFilter.Smtp
