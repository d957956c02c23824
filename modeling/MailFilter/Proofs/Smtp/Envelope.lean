import MailFilter.Proofs.Smtp.Dialogue

/-
  What the envelope of a message is made of, by what the
  client said before.

  The sender is that of the last MAIL command that was
  accepted. The recipients are all that were accepted since
  the transaction was started. Another MAIL command does not
  start a transaction. So recipients that were accepted before
  it are carried over to the message that follows.

  Key definitions include:
    * `Smtp.Act`
    * `Smtp.Exchange.act`
    * `Smtp.lastMail?`
    * `Smtp.sinceMail`
    * `Smtp.sinceRestart`
    * `Smtp.carriedOver`
    * `Smtp.Tracks`

  Main statements:
    * `Smtp.Tracks.step`
    * `Smtp.tracks_of_reaches`
    * `Smtp.envelope_of_reaches`
-/

namespace MailFilter.Smtp

open World

------------------------------------------------------------
-- What The Client Did
------------------------------------------------------------

/- The code of an answer. -/
def Answer.code : Answer → Nat
  | .single reply => reply.status.code
  | .extended _ _ => Status.ok.code

/- What an exchange means to the envelope. -/
inductive Act where
  /- A transaction was started. -/
  | restart
  /- A sender was accepted. -/
  | sender (argument : String)
  /- A recipient was accepted. -/
  | recipient (argument : String)
  | other
deriving DecidableEq

/- What a command means if it was accepted. -/
def Command.act : Command → Act
  | .helo _ => .restart
  | .ehlo _ => .restart
  | .rset => .restart
  | .mailFrom argument => .sender argument
  | .rcptTo argument => .recipient argument
  | .xforward _ => .other
  | .data => .other
  | .noop => .other
  | .quit => .other
  | .invalid _ => .other

/- A command counts if it was answered by 250. -/
def Exchange.act : Exchange → Act
  | .command given answer =>
      if answer.code = 250 then given.act else .other
  | .overlong => .other
  | .message _ => .restart

theorem Exchange.act_of_accepted
    {answer : Answer}
    (hCode : answer.code = 250)
    (given : Command) :
    (Exchange.command given answer).act = given.act :=
  if_pos hCode

theorem Exchange.act_of_refused
    {answer : Answer}
    (hCode : answer.code ≠ 250)
    (given : Command) :
    (Exchange.command given answer).act = .other :=
  if_neg hCode

/- Some commands mean nothing, whatever the answer is. -/
theorem Exchange.act_of_other
    {given : Command}
    (hGiven : given.act = .other)
    (answer : Answer) :
    (Exchange.command given answer).act = .other := by
  by_cases hCode : answer.code = 250
  · rw [act_of_accepted hCode, hGiven]
  · exact act_of_refused hCode given

/- The argument of the last sender. -/
def lastMail? : List Act → Option String
  | [] => none
  | .sender argument :: _ => some argument
  | .restart :: acts => lastMail? acts
  | .recipient _ :: acts => lastMail? acts
  | .other :: acts => lastMail? acts

/- The mailboxes of the recipients after the last sender. -/
def sinceMail : List Act → List String
  | [] => []
  | .sender _ :: _ => []
  | .restart :: acts => sinceMail acts
  | .recipient argument :: acts =>
      sinceMail acts ++ [mailbox argument]
  | .other :: acts => sinceMail acts

/- The mailboxes of the recipients in this transaction. -/
def sinceRestart : List Act → List String
  | [] => []
  | .restart :: _ => []
  | .sender _ :: acts => sinceRestart acts
  | .recipient argument :: acts =>
      sinceRestart acts ++ [mailbox argument]
  | .other :: acts => sinceRestart acts

/-
  The mailboxes of the recipients in this transaction before
  the last sender.
-/
def carriedOver : List Act → List String
  | [] => []
  | .restart :: _ => []
  | .sender _ :: acts => sinceRestart acts
  | .recipient _ :: acts => carriedOver acts
  | .other :: acts => carriedOver acts

/- The sender in an argument, which may be the null sender. -/
def senderOf
    (argument : String) : Option String :=
  if (mailbox argument).isEmpty then none
  else some (mailbox argument)

------------------------------------------------------------
-- The Envelope And The History
------------------------------------------------------------

/- A sender was accepted and the transaction goes on. -/
def Phase.HasSender
    (phase : Phase) : Prop :=
  phase = .mail ∨ phase = .rcpt ∨ phase = .data

instance
    (phase : Phase) :
    Decidable phase.HasSender := by
  unfold Phase.HasSender
  infer_instance

/- The envelope is what the client made of it. -/
structure Tracks
    (phase : Phase)
    (envelope : Envelope)
    (acts : List Act) : Prop where
  recipients : envelope.recipients = sinceRestart acts
  fresh : phase = .init → envelope.recipients = []
  sender :
    phase.HasSender →
      ∃ argument,
        lastMail? acts = some argument ∧
          envelope.sender = senderOf argument
  split :
    phase.HasSender →
      sinceRestart acts = carriedOver acts ++ sinceMail acts

namespace Tracks

variable {phase : Phase}
variable {envelope : Envelope}
variable {acts : List Act}

/- Without a sender only the recipients have to be known. -/
theorem of_not_hasSender
    (hNone : ¬ phase.HasSender)
    (hRecipients : envelope.recipients = sinceRestart acts)
    (hFresh : phase = .init → envelope.recipients = []) :
    Tracks phase envelope acts :=
  ⟨hRecipients, hFresh, fun hSender => absurd hSender hNone,
    fun hSender => absurd hSender hNone⟩

/- A transaction that was just started. -/
theorem restart
    {other : Phase}
    (hNone : ¬ other.HasSender)
    {fresh : Envelope}
    (hFresh : fresh.recipients = []) :
    Tracks other fresh (.restart :: acts) :=
  of_not_hasSender hNone hFresh fun _ => hFresh

/- What means nothing to the envelope leaves it. -/
theorem other
    (hTracks : Tracks phase envelope acts) :
    Tracks phase envelope (.other :: acts) :=
  ⟨hTracks.recipients, hTracks.fresh, hTracks.sender,
    hTracks.split⟩

/- A refused command leaves the envelope. -/
theorem refused
    (hTracks : Tracks phase envelope acts)
    {command : Command}
    {answer : Answer}
    (hCode : answer.code ≠ 250) :
    Tracks phase envelope
      ((Exchange.command command answer).act :: acts) := by
  rw [Exchange.act_of_refused hCode]
  exact hTracks.other

end Tracks

------------------------------------------------------------
-- Steps
------------------------------------------------------------

/-
  DATA either opens a spool file, and is answered by 354, or
  changes nothing, and is answered otherwise.
-/
theorem Phase.takeData_cases
    {phase phase' : Phase}
    {context context' : Context}
    {answer : Answer}
    {w w' : World}
    (hStep :
      phase.takeData context w =
        ((phase', context', answer), w')) :
    (phase' = phase ∧ context' = context ∧ answer.code ≠ 354) ∨
      (phase = .rcpt ∧ phase' = .data ∧
        answer.code = 354 ∧
        ∃ path,
          context' =
            { context.mapEnvelope fun e =>
                { e with messageFile := path } with
              spoolOpen := true }) := by
  unfold Phase.takeData at hStep
  split at hStep
  · cases hStep
    exact Or.inl ⟨rfl, rfl, by decide⟩
  · simp only [Context.openSpool, Run.bind_apply] at hStep
    cases hCreate :
        (Spool.create context.settings.global.queueDir w).1 with
    | ok path =>
        simp only [hCreate] at hStep
        cases hStep
        exact Or.inr ⟨rfl, rfl, rfl, path, rfl⟩
    | error e =>
        simp only [hCreate] at hStep
        cases hStep
        refine Or.inl ⟨rfl, rfl, ?_⟩
        change Status.actionUnavailable.code ≠ 354
        decide
  · cases hStep
    exact Or.inl ⟨rfl, rfl, by decide⟩

theorem Context.envelope_mapEnvelope
    (context : Context)
    (change : Envelope → Envelope) :
    (context.mapEnvelope change).transaction.envelope =
      change context.transaction.envelope :=
  rfl

namespace Tracks

variable {phase phase' : Phase}
variable {context context' : Context}
variable {answer : Answer}
variable {w w' : World}
variable {acts : List Act}

theorem welcome
    (hTracks : Tracks phase context.transaction.envelope acts)
    {command : Command}
    (hCommand : command.act = .restart)
    {host : String}
    {accepted : Answer}
    (hAccepted : accepted.code = 250)
    (hStep :
      phase.welcome host context accepted w =
        ((phase', context', answer), w')) :
    Tracks phase' context'.transaction.envelope
      ((Exchange.command command answer).act :: acts) := by
  unfold Phase.welcome at hStep
  split at hStep
  · cases hStep
    exact hTracks.refused (by decide)
  · have hAct :
        (Exchange.command command accepted).act = .restart := by
      rw [Exchange.act_of_accepted hAccepted, hCommand]
    split at hStep
    · rename_i hInit
      cases hStep
      rw [hAct]
      exact restart (by decide) (hTracks.fresh hInit)
    · simp only [Run.bind_apply, Run.pure_apply] at hStep
      cases hStep
      rw [hAct]
      exact restart (by decide) rfl

theorem takeSender
    (hTracks : Tracks phase context.transaction.envelope acts)
    {argument : String}
    (hStep :
      phase.takeSender argument context =
        (phase', context', answer)) :
    Tracks phase' context'.transaction.envelope
      ((Exchange.command (.mailFrom argument) answer).act ::
        acts) := by
  unfold Phase.takeSender at hStep
  split at hStep
  · rename_i hMail
    cases hStep
    rw [← hMail]
    exact hTracks.refused (by decide)
  · split at hStep
    · cases hStep
      exact hTracks.refused (by decide)
    · cases hStep
      rw [Exchange.act_of_accepted rfl, Command.act,
        Context.envelope_mapEnvelope]
      refine ⟨?_, by simp, ?_, ?_⟩
      · rw [sinceRestart]
        exact hTracks.recipients
      · intro _
        refine ⟨argument, rfl, ?_⟩
        rw [senderOf]
      · intro _
        rw [sinceRestart, carriedOver, sinceMail,
          List.append_nil]

theorem takeRecipient
    (hTracks : Tracks phase context.transaction.envelope acts)
    {argument : String}
    (hStep :
      phase.takeRecipient argument context =
        (phase', context', answer)) :
    Tracks phase' context'.transaction.envelope
      ((Exchange.command (.rcptTo argument) answer).act ::
        acts) := by
  unfold Phase.takeRecipient at hStep
  split at hStep
  · rename_i hPhase
    dsimp only at hStep
    have hSender : phase.HasSender := by
      rcases hPhase with rfl | rfl
      · exact Or.inl rfl
      · exact Or.inr (Or.inl rfl)
    split at hStep
    · cases hStep
      exact hTracks.refused (by decide)
    · cases hStep
      rw [Exchange.act_of_accepted rfl, Command.act]
      refine ⟨?_, by simp, fun _ => hTracks.sender hSender, ?_⟩
      · rw [sinceRestart, ← hTracks.recipients]
        rfl
      · intro _
        rw [sinceRestart, carriedOver, sinceMail,
          hTracks.split hSender, List.append_assoc]
  · cases hStep
    exact hTracks.refused (by decide)

theorem takeData
    (hTracks : Tracks phase context.transaction.envelope acts)
    (hStep :
      phase.takeData context w =
        ((phase', context', answer), w')) :
    Tracks phase' context'.transaction.envelope
      ((Exchange.command .data answer).act :: acts) := by
  rw [Exchange.act_of_other rfl]
  rcases Phase.takeData_cases hStep with
    ⟨rfl, rfl, _⟩ | ⟨rfl, rfl, _, path, rfl⟩
  · exact hTracks.other
  · have hSender : Phase.HasSender .rcpt := Or.inr (Or.inl rfl)
    exact ⟨hTracks.recipients, by simp,
      fun _ => hTracks.sender hSender,
      fun _ => hTracks.split hSender⟩

/- One case for each command. -/
theorem step
    (hTracks : Tracks phase context.transaction.envelope acts)
    {command : Command}
    (hStep :
      phase.step command context w =
        ((phase', context', answer), w')) :
    Tracks phase' context'.transaction.envelope
      ((Exchange.command command answer).act :: acts) := by
  cases command with
  | helo host => exact hTracks.welcome rfl rfl hStep
  | ehlo host => exact hTracks.welcome rfl rfl hStep
  | xforward address =>
      rw [Exchange.act_of_other rfl]
      cases address with
      | none =>
          cases hStep
          exact hTracks.other
      | some address =>
          cases hStep
          exact of_not_hasSender (by decide)
            hTracks.recipients (by simp)
  | mailFrom argument =>
      exact hTracks.takeSender (congrArg Prod.fst hStep)
  | rcptTo argument =>
      exact hTracks.takeRecipient (congrArg Prod.fst hStep)
  | data => exact hTracks.takeData hStep
  | rset =>
      cases hStep
      rw [Exchange.act_of_accepted rfl]
      exact restart (by decide) rfl
  | noop =>
      cases hStep
      rw [Exchange.act_of_other rfl]
      exact hTracks.other
  | quit =>
      cases hStep
      rw [Exchange.act_of_other rfl]
      exact of_not_hasSender (by decide) hTracks.recipients
        (by simp)
  | invalid line =>
      cases hStep
      rw [Exchange.act_of_other rfl]
      exact hTracks.other

end Tracks

------------------------------------------------------------
-- Dialogues
------------------------------------------------------------

/- The envelope is tracked in all of a dialogue. -/
theorem tracks_of_reaches
    {service : Service}
    {first s : Station}
    {history : List Exchange}
    (hFirst :
      Tracks first.dialog.phase first.dialog.transaction.envelope
        [])
    (hReaches : first.Reaches service history s) :
    Tracks s.dialog.phase s.dialog.transaction.envelope
      (history.map Exchange.act) := by
  induction hReaches with
  | refl => exact hFirst
  | step _ hTurn ih =>
      rename_i history s next exchange
      rcases Station.turn_cases hTurn with
        ⟨-, hMessage⟩ | ⟨-, hCommand⟩
      · rcases Station.of_messageTurn_eq_next hMessage with
          ⟨rfl, hPhase, _, id, helo, address, hNew⟩
        rw [hPhase, hNew]
        exact Tracks.restart (by decide) rfl
      · rcases Station.of_commandTurn_eq_next hCommand with
          ⟨rfl, hPhase, hContext⟩
            | ⟨command, answer, before, after, rfl, hStep⟩
        · rw [hPhase, Dialog.transaction, hContext]
          exact ih.other
        · exact ih.step hStep

/- DATA that was answered by 354 has opened a spool file. -/
theorem opens_of_startMailInput
    {service : Service}
    {s next : Station}
    {answer : Answer}
    (hTurn :
      s.turn service = .next (.command .data answer) next)
    (hAnswer : answer.code = 354) :
    next.dialog.phase = .data ∧
      next.dialog.context.spoolOpen = true := by
  rcases Station.exists_step_of_turn hTurn with
    ⟨_, before, after, hStep, _⟩
  rcases Phase.takeData_cases hStep with
    ⟨_, _, hNot⟩ | ⟨_, hPhase, _, path, hContext⟩
  · exact absurd hAnswer hNot
  · refine ⟨hPhase, ?_⟩
    rw [hContext]

/- The message follows a DATA that was answered by 354. -/
theorem phase_of_startMailInput
    {service : Service}
    {s next : Station}
    {answer : Answer}
    (hTurn :
      s.turn service = .next (.command .data answer) next)
    (hAnswer : answer.code = 354) :
    next.dialog.phase = .data :=
  (opens_of_startMailInput hTurn hAnswer).1

/- A new connection has an empty envelope. -/
theorem tracks_opening
    (service : Service)
    (input : Inbound)
    (writes : Option Nat)
    (w : World) :
    Tracks
      (Station.opening service input writes w).dialog.phase
      (Station.opening service input writes
        w).dialog.transaction.envelope
      [] := by
  rcases Station.opening_apply service input writes w with
    ⟨hPhase, _, hNew⟩
  rw [hPhase, hNew]
  exact Tracks.of_not_hasSender (by decide) rfl fun _ => rfl

------------------------------------------------------------
-- A Small Service
------------------------------------------------------------

/- A service without modules. -/
def plainService : Service where
  settings := { global := { queueDir := "/q" } }
  queue := { policy := policy }
  hostname := "mx"

/- The start of a connection that sends some lines to it. -/
def plainOpening
    (lines : List String) : Station :=
  .opening plainService
    ⟨lines.flatMap fun line => Utf8.encode line ++ Bytes.crlf,
      .closed⟩
    none { files := { directories := ["/q"] } }

/- The answers to commands that are accepted. -/
def plainOk : Answer :=
  .single ⟨.ok, "OK"⟩

def plainStart : Answer :=
  .single ⟨.startMailInput, "End data with <CR><LF>.<CR><LF>"⟩

/- What is reached in some turns. -/
theorem reaches_plainOpening
    (n : Nat)
    {lines : List String}
    {history : List Exchange}
    (hHistory :
      ((plainOpening lines).take plainService n []).1 =
        history) :
    (plainOpening lines).Reaches plainService history
      ((plainOpening lines).take plainService n []).2 := by
  rw [← hHistory]
  exact Station.reaches_take .refl n

------------------------------------------------------------
-- The Envelope Of A Message
------------------------------------------------------------

/-
  When DATA is answered by 354, the sender is that of the last
  MAIL command that was accepted, and the recipients are those
  of the transaction. They are those after that command
  exactly if none was accepted before it.
-/
theorem envelope_of_reaches
    {service : Service}
    {input : Inbound}
    {writes : Option Nat}
    {w : World}
    {history : List Exchange}
    {answer : Answer}
    {s : Station}
    (hReaches :
      (Station.opening service input writes w).Reaches service
        (.command .data answer :: history) s)
    (hAnswer : answer.code = 354) :
    (∃ argument,
        lastMail? (history.map Exchange.act) = some argument ∧
          s.dialog.transaction.envelope.sender =
            senderOf argument) ∧
      s.dialog.transaction.envelope.recipients =
        sinceRestart (history.map Exchange.act) ∧
      (s.dialog.transaction.envelope.recipients =
            sinceMail (history.map Exchange.act) ↔
          carriedOver (history.map Exchange.act) = []) := by
  have hTracks :=
    tracks_of_reaches (tracks_opening service input writes w)
      hReaches
  have hData : s.dialog.phase.HasSender := by
    cases hReaches with
    | step _ hTurn =>
        exact Or.inr
          (Or.inr (phase_of_startMailInput hTurn hAnswer))
  rw [List.map_cons, Exchange.act_of_other rfl] at hTracks
  refine ⟨hTracks.sender hData, hTracks.recipients, ?_⟩
  have hSplit := hTracks.split hData
  have hRecipients := hTracks.recipients
  change _ = sinceRestart (history.map Exchange.act)
    at hRecipients
  change sinceRestart (history.map Exchange.act) =
      carriedOver (history.map Exchange.act) ++
        sinceMail (history.map Exchange.act)
    at hSplit
  rw [hRecipients, hSplit]
  exact List.append_left_eq_self

/- One sender and two recipients. -/
theorem envelope_two_recipients :
    ∃ history s,
      (plainOpening
          ["MAIL FROM:<a@x>", "RCPT TO:<b@x>", "RCPT TO:<c@x>",
            "DATA"]).Reaches plainService
          (.command .data plainStart :: history) s ∧
        history.length = 3 ∧
        s.dialog.transaction.envelope.sender = some "a@x" ∧
        s.dialog.transaction.envelope.recipients =
          ["b@x", "c@x"] := by
  have hHistory :
      ((plainOpening
            ["MAIL FROM:<a@x>", "RCPT TO:<b@x>",
              "RCPT TO:<c@x>", "DATA"]).take
          plainService 4 []).1 =
        [
            .command .data plainStart,
            .command (.rcptTo "<c@x>") plainOk,
            .command (.rcptTo "<b@x>") plainOk,
            .command (.mailFrom "<a@x>") plainOk] := by
    decide +kernel
  have hReaches := reaches_plainOpening 4 hHistory
  rcases envelope_of_reaches hReaches (by decide) with
    ⟨⟨argument, hLast, hSender⟩, _, hRecipients⟩
  cases hLast
  refine ⟨_, _, hReaches, rfl, hSender, ?_⟩
  exact hRecipients.mpr (by decide)

/-
  A recipient that was accepted for a sender who was given up
  gets the message of the next one.
-/
theorem recipients_ne_sinceMail :
    ∃ history s,
      (plainOpening
          ["HELO c", "MAIL FROM:<a@x>", "RCPT TO:<b@x>",
            "MAIL FROM:<c@x>", "RCPT TO:<d@x>",
            "DATA"]).Reaches plainService
          (.command .data plainStart :: history) s ∧
        plainStart.code = 354 ∧
        history.map Exchange.act =
          [.recipient "<d@x>", .sender "<c@x>",
            .recipient "<b@x>", .sender "<a@x>", .restart] ∧
        sinceMail (history.map Exchange.act) = ["d@x"] ∧
        s.dialog.transaction.envelope.recipients =
          ["b@x", "d@x"] := by
  have hHistory :
      ((plainOpening
            ["HELO c", "MAIL FROM:<a@x>", "RCPT TO:<b@x>",
              "MAIL FROM:<c@x>", "RCPT TO:<d@x>",
              "DATA"]).take plainService 6 []).1 =
        [
            .command .data plainStart,
            .command (.rcptTo "<d@x>") plainOk,
            .command (.mailFrom "<c@x>") plainOk,
            .command (.rcptTo "<b@x>") plainOk,
            .command (.mailFrom "<a@x>") plainOk,
            .command (.helo "c") (.single ⟨.ok, "mx"⟩)] := by
    decide +kernel
  have hReaches := reaches_plainOpening 6 hHistory
  exact ⟨_, _, hReaches, rfl, by decide, by decide,
    by decide +kernel⟩

end MailFilter.Smtp
