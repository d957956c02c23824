import MailFilter.Proofs.Relay.Safety
import MailFilter.Proofs.Smtp.Answers
import MailFilter.Proofs.Smtp.Arguments
import MailFilter.Proofs.Smtp.Completion
import MailFilter.Proofs.Smtp.Ending
import MailFilter.Proofs.Smtp.MessageTurn

/-
  What holds of a connection whenever a command is read.

  A spool file is open in one phase only, and in that phase no
  command is read. Before the first greeting and after RSET
  nothing is known of the client, so the greeting has nothing
  to throw away. What was named as sender or recipient is a
  mailbox that can be put into one line.

  Key definitions include:
    * `Envelope.mailboxes`
    * `Smtp.InOrder`

  Main statements:
    * `Smtp.InOrder.step`
    * `Smtp.inOrder_of_reaches`
    * `Smtp.Station.standing_of_reaches`
-/

namespace MailFilter

/- All that were named in an envelope. -/
def Envelope.mailboxes
    (envelope : Envelope) : List String :=
  envelope.sender.toList ++ envelope.recipients

namespace Smtp

open Bytes
open Relay (commandLine)
open World

------------------------------------------------------------
-- Contexts In Order
------------------------------------------------------------

/-
  How a context is in a phase. Nothing is left of an earlier
  message, and what the phase promises is there.
-/
structure InOrder
    (phase : Phase)
    (context : Context) : Prop where
  spool : context.spoolOpen = true ↔ phase = .data
  message : context.transaction.message = none
  reply : context.transaction.reply = none
  responseMsg : context.transaction.responseMsg = none
  fresh :
    phase = .init →
      context.transaction = { id := context.transaction.id }
  recipients :
    phase = .rcpt →
      context.transaction.envelope.recipients ≠ []
  mailboxes :
    ∀ box ∈ context.transaction.envelope.mailboxes,
      IsMailbox box

namespace InOrder

variable {phase phase' : Phase}
variable {context context' : Context}
variable {answer : Answer}
variable {w w' : World}

theorem closed
    (hOrder : InOrder phase context)
    (hPhase : phase ≠ .data) :
    context.spoolOpen = false :=
  Bool.eq_false_iff.mpr
    fun hOpen => hPhase (hOrder.spool.mp hOpen)

/- A context whose transaction has just been started. -/
theorem of_isNew
    (hData : phase ≠ .data)
    (hRcpt : phase ≠ .rcpt)
    (hInit : phase ≠ .init)
    (hClosed : context.spoolOpen = false)
    (hNew : IsNew context.transaction) :
    InOrder phase context := by
  rcases hNew with ⟨id, helo, address, hNew⟩
  refine ⟨?_, ?_, ?_, ?_, ?_, ?_, ?_⟩
  · rw [hClosed]
    exact iff_of_false (by decide) hData
  · rw [hNew]
    rfl
  · rw [hNew]
  · rw [hNew]
  · exact fun hPhase => absurd hPhase hInit
  · exact fun hPhase => absurd hPhase hRcpt
  · intro box hBox
    rw [hNew] at hBox
    cases hBox

/- A connection of which nothing is known. -/
theorem of_init
    {id : Nat}
    (hClosed : context.spoolOpen = false)
    (hNew : context.transaction = { id := id }) :
    InOrder .init context := by
  refine ⟨?_, ?_, ?_, ?_, ?_, ?_, ?_⟩
  · rw [hClosed]
    exact iff_of_false (by decide) (by decide)
  · rw [hNew]
    rfl
  · rw [hNew]
  · rw [hNew]
  · intro _
    rw [hNew]
  · intro hPhase
    cases hPhase
  · intro box hBox
    rw [hNew] at hBox
    cases hBox

/-
  A context that goes to another phase. Only the phases that
  promise something ask for more.
-/
theorem move
    (hOrder : InOrder phase context)
    (hPhase : phase ≠ .data)
    (hData : phase' ≠ .data)
    (hInit : phase' ≠ .init)
    (hRcpt : phase' ≠ .rcpt) :
    InOrder phase' context :=
  ⟨by
      rw [hOrder.closed hPhase]
      exact iff_of_false (by decide) hData,
    hOrder.message, hOrder.reply, hOrder.responseMsg,
    fun hSame => absurd hSame hInit,
    fun hSame => absurd hSame hRcpt, hOrder.mailboxes⟩

/- A change of the envelope that names mailboxes only. -/
theorem mapEnvelope
    (hOrder : InOrder phase context)
    (hPhase : phase ≠ .data)
    (hData : phase' ≠ .data)
    (hInit : phase' ≠ .init)
    {change : Envelope → Envelope}
    (hMessage : ∀ envelope,
      (change envelope).message = envelope.message)
    (hRecipients :
      phase' = .rcpt →
        (change context.transaction.envelope).recipients ≠ [])
    (hMailboxes :
      ∀ box ∈ (change context.transaction.envelope).mailboxes,
        IsMailbox box) :
    InOrder phase' (context.mapEnvelope change) := by
  refine ⟨?_, ?_, hOrder.reply, hOrder.responseMsg, ?_,
    hRecipients, hMailboxes⟩
  · exact iff_of_false
      (by simp [Context.mapEnvelope, hOrder.closed hPhase])
      hData
  · exact (hMessage _).trans hOrder.message
  · exact fun hSame => absurd hSame hInit

------------------------------------------------------------
-- Steps
------------------------------------------------------------

/- In the first phase a greeting finds nothing to reset. -/
theorem welcome
    (hOrder : InOrder phase context)
    (hPhase : phase ≠ .data)
    {host : String}
    {accepted : Answer}
    (hStep :
      phase.welcome host context accepted w =
        ((phase', context', answer), w')) :
    InOrder phase' context' := by
  unfold Phase.welcome at hStep
  split at hStep
  · cases hStep
    exact hOrder
  · split at hStep
    · rename_i hInit
      cases hStep
      apply of_isNew (by decide) (by decide) (by decide)
      · exact hOrder.closed hPhase
      · unfold Context.greet
        dsimp only
        rw [hOrder.fresh hInit]
        exact ⟨_, _, _, rfl⟩
    · rcases context.exists_reset w with ⟨id, after, hReset⟩
      simp only [Run.bind_apply, hReset] at hStep
      cases hStep
      apply of_isNew (by decide) (by decide) (by decide)
      · rfl
      · exact ⟨_, _, _, rfl⟩

theorem takeSender
    (hOrder : InOrder phase context)
    (hPhase : phase ≠ .data)
    {argument : String}
    (hLine : Text.IsOneLine argument)
    (hStep :
      phase.takeSender argument context =
        (phase', context', answer)) :
    InOrder phase' context' := by
  unfold Phase.takeSender at hStep
  split at hStep
  · rename_i hMail
    cases hStep
    exact hMail ▸ hOrder
  · split at hStep
    · cases hStep
      exact hOrder
    · cases hStep
      apply hOrder.mapEnvelope hPhase (by decide) (by decide)
      · exact fun _ => rfl
      · exact fun hSame => nomatch hSame
      · intro box hBox
        rcases List.mem_append.mp hBox with hSender | hOld
        · split at hSender
          · cases hSender
          · rename_i hSome
            rw [List.mem_singleton.mp hSender]
            exact isMailbox_mailbox hLine
              (Bool.eq_false_iff.mpr hSome)
        · exact hOrder.mailboxes box
            (List.mem_append_right _ hOld)

theorem takeRecipient
    (hOrder : InOrder phase context)
    (hPhase : phase ≠ .data)
    {argument : String}
    (hLine : Text.IsOneLine argument)
    (hStep :
      phase.takeRecipient argument context =
        (phase', context', answer)) :
    InOrder phase' context' := by
  unfold Phase.takeRecipient at hStep
  split at hStep
  · dsimp only at hStep
    split at hStep
    · cases hStep
      exact hOrder
    · rename_i hSome
      cases hStep
      apply hOrder.mapEnvelope hPhase (by decide) (by decide)
      · exact fun _ => rfl
      · intro _
        exact List.append_ne_nil_of_right_ne_nil _
          (List.cons_ne_nil _ _)
      · intro box hBox
        rw [Envelope.mailboxes, ← List.append_assoc] at hBox
        rcases List.mem_append.mp hBox with hOld | hNew
        · exact hOrder.mailboxes box hOld
        · rw [List.mem_singleton.mp hNew]
          exact isMailbox_mailbox hLine
            (Bool.eq_false_iff.mpr hSome)
  · cases hStep
    exact hOrder

theorem takeData
    (hOrder : InOrder phase context)
    (hStep :
      phase.takeData context w =
        ((phase', context', answer), w')) :
    InOrder phase' context' := by
  rcases Phase.takeData_cases hStep with
    ⟨rfl, rfl, _⟩ | ⟨rfl, rfl, _, path, rfl⟩
  · exact hOrder
  · exact ⟨iff_of_true rfl rfl, hOrder.message, hOrder.reply,
      hOrder.responseMsg, by simp, by simp, hOrder.mailboxes⟩

/- One case for each command. -/
theorem step
    (hOrder : InOrder phase context)
    (hPhase : phase ≠ .data)
    {command : Command}
    (hLines :
      command.IsRecognized →
        ∀ text, command.argument? = some text →
          Text.IsOneLine text)
    (hStep :
      phase.step command context w =
        ((phase', context', answer), w')) :
    InOrder phase' context' := by
  cases command with
  | helo host => exact hOrder.welcome hPhase hStep
  | ehlo host => exact hOrder.welcome hPhase hStep
  | xforward address =>
      cases address with
      | none =>
          cases hStep
          exact hOrder
      | some address =>
          cases hStep
          refine ⟨?_, hOrder.message, hOrder.reply,
            hOrder.responseMsg, by simp, by simp,
            hOrder.mailboxes⟩
          exact iff_of_false
            (by simp [hOrder.closed hPhase]) (by decide)
  | mailFrom argument =>
      exact hOrder.takeSender hPhase
        (hLines True.intro argument rfl)
        (congrArg Prod.fst hStep)
  | rcptTo argument =>
      exact hOrder.takeRecipient hPhase
        (hLines True.intro argument rfl)
        (congrArg Prod.fst hStep)
  | data => exact hOrder.takeData hStep
  | rset =>
      rcases context.exists_reset w with ⟨id, after, hReset⟩
      simp only [Phase.step, Run.bind_apply, hReset] at hStep
      cases hStep
      exact of_init rfl rfl
  | noop =>
      cases hStep
      exact hOrder
  | quit =>
      cases hStep
      exact hOrder.move hPhase (by decide) (by decide)
        (by decide)
  | invalid line =>
      cases hStep
      exact hOrder

end InOrder

------------------------------------------------------------
-- Dialogues
------------------------------------------------------------

/- All contexts of a connection are in order. -/
theorem inOrder_of_reaches
    {service : Service}
    {first s : Station}
    {history : List Exchange}
    (hFirst : InOrder first.dialog.phase first.dialog.context)
    (hReaches : first.Reaches service history s) :
    InOrder s.dialog.phase s.dialog.context := by
  induction hReaches with
  | refl => exact hFirst
  | step hBefore hTurn ih =>
      rename_i history s next exchange
      rcases Station.turn_cases hTurn with
        ⟨-, hMessage⟩ | ⟨hClosed, hCommand⟩
      · rcases Station.of_messageTurn_eq_next hMessage with
          ⟨rfl, hPhase, hClosed, hNew⟩
        rw [hPhase]
        exact InOrder.of_isNew (by decide) (by decide)
          (by decide) hClosed hNew
      · have hData : s.dialog.phase ≠ .data :=
          fun hSame =>
            Bool.eq_false_iff.mp hClosed (ih.spool.mpr hSame)
        rcases Station.of_commandTurn_eq_next hCommand with
          ⟨rfl, hPhase, hContext⟩
            | ⟨command, answer, before, after, rfl, hStep⟩
        · rw [hPhase, hContext]
          exact ih
        · rcases Station.exists_line_of_commandTurn hCommand with
            ⟨line, rest, hRead, rfl⟩
          exact ih.step hData
            (fun hArgument _ =>
              Command.isOneLine_of_argument?
                (isLine_or_of_readCommand hRead) hArgument)
            hStep

/- A new connection is in order. -/
theorem inOrder_opening
    (service : Service)
    (input : Inbound)
    (writes : Option Nat)
    (w : World) :
    InOrder
      (Station.opening service input writes w).dialog.phase
      (Station.opening service input writes
        w).dialog.context := by
  rcases Station.opening_apply service input writes w with
    ⟨hPhase, hClosed, hNew⟩
  rw [hPhase]
  exact InOrder.of_init hClosed hNew

------------------------------------------------------------
-- Where A Command Is Read
------------------------------------------------------------

/- The phases in which a command is read. -/
def commandPhases : List Phase :=
  [.init, .helo, .xfwd, .mail, .rcpt]

theorem mem_commandPhases
    {phase : Phase}
    (hQuit : phase ≠ .quit)
    (hData : phase ≠ .data) :
    phase ∈ commandPhases := by
  cases phase with
  | init => decide
  | helo => decide
  | xfwd => decide
  | mail => decide
  | rcpt => decide
  | data => exact absurd rfl hData
  | quit => exact absurd rfl hQuit

/-
  However a connection came to where it is, it is over after
  QUIT, reads a message after DATA, and otherwise reads a
  command. When it does, no spool file is open and nothing is
  left of a message, a connection that was not greeted is as
  it was created, a transaction that was given a recipient has
  one, and all mailboxes can be put into the lines that they
  are put into later.
-/
theorem Station.standing_of_reaches
    {service : Service}
    {input : Inbound}
    {writes : Option Nat}
    {w : World}
    {history : List Exchange}
    {s : Station}
    (hReaches :
      (Station.opening service input writes w).Reaches service
        history s) :
    (s.dialog.phase = .quit ∧
        s.turn service =
          .over (.ok (), s.dialog) s.world) ∨
      (s.dialog.phase = .data ∧
        s.dialog.context.spoolOpen = true ∧
        s.turn service = s.messageTurn service) ∨
      (s.turn service = s.commandTurn ∧
        s.resume service =
          serve service s.input s.dialog s.world ∧
        s.dialog.phase ∈ commandPhases ∧
        s.dialog.context.spoolOpen = false ∧
        InOrder s.dialog.phase s.dialog.context ∧
        ∀ box ∈ s.dialog.transaction.envelope.mailboxes,
          IsLine (commandLine ("MAIL FROM:<" ++ box ++ ">")) ∧
            IsLine (commandLine ("RCPT TO:<" ++ box ++ ">")) ∧
            ∀ ending : Bytes, ending.IsBlankLine →
              IsLine
                (Utf8.encode
                    (fieldText ("From", "<" ++ box ++ ">")) ++
                  ending)) := by
  have hOrder :=
    inOrder_of_reaches (inOrder_opening service input writes w)
      hReaches
  by_cases hQuit : s.dialog.phase = .quit
  · refine Or.inl ⟨hQuit, ?_⟩
    rw [turn, if_pos hQuit]
  · by_cases hData : s.dialog.phase = .data
    · have hOpen := hOrder.spool.mpr hData
      exact Or.inr (Or.inl
        ⟨hData, hOpen, turn_of_open service hData hOpen⟩)
    · have hClosed := hOrder.closed hData
      refine Or.inr (Or.inr
        ⟨turn_of_awaitsCommand service ⟨hQuit, hClosed⟩,
          resume_of_closed service hQuit hClosed,
          mem_commandPhases hQuit hData, hClosed, hOrder, ?_⟩)
      intro box hBox
      have hMailbox := hOrder.mailboxes box hBox
      refine ⟨?_, ?_, ?_⟩
      · exact hMailbox.isLine (by decide) (by decide)
          (Or.inr rfl)
      · exact hMailbox.isLine (by decide) (by decide)
          (Or.inr rfl)
      · intro ending hEnding
        apply isLine_encode _ hEnding
        simp only [fieldText, Text.isOneLine_append]
        exact ⟨⟨by decide, by decide⟩,
          ⟨by decide, hMailbox.oneLine⟩, by decide⟩

/-
  Blanks around a mailbox are dropped, and it is named in one
  line.
-/
theorem Station.standing_mailbox :
    ∃ history s,
      (plainOpening
          ["HELO c", "MAIL FROM:<a@x>", "RCPT TO: < b@x > ",
            "NOOP"]).Reaches plainService history s ∧
        s.dialog.phase = .rcpt ∧
        s.turn plainService = s.commandTurn ∧
        s.dialog.context.spoolOpen = false ∧
        s.dialog.transaction.envelope.mailboxes =
          ["a@x", "b@x"] ∧
        IsMailbox "b@x" ∧
        IsLine (commandLine "RCPT TO:<b@x>") := by
  have hHistory :
      ((plainOpening
            ["HELO c", "MAIL FROM:<a@x>", "RCPT TO: < b@x > ",
              "NOOP"]).take plainService 3 []).1 =
        [
            .command (.rcptTo "< b@x >") plainOk,
            .command (.mailFrom "<a@x>") plainOk,
            .command (.helo "c") (.single ⟨.ok, "mx"⟩)] := by
    decide +kernel
  have hPhase :
      ((plainOpening
            ["HELO c", "MAIL FROM:<a@x>", "RCPT TO: < b@x > ",
              "NOOP"]).take plainService 3
          []).2.dialog.phase = .rcpt := by
    decide +kernel
  have hBoxes :
      ((plainOpening
            ["HELO c", "MAIL FROM:<a@x>", "RCPT TO: < b@x > ",
              "NOOP"]).take plainService 3
          []).2.dialog.transaction.envelope.mailboxes =
        ["a@x", "b@x"] := by
    decide +kernel
  have hReaches := reaches_plainOpening 3 hHistory
  generalize ((plainOpening _).take plainService 3 []).2 = s
    at hReaches hPhase hBoxes
  rcases Station.standing_of_reaches hReaches with
    ⟨hQuit, _⟩ | ⟨hData, _⟩
      | ⟨hTurn, _, _, hClosed, hOrder, hLines⟩
  · rw [hPhase] at hQuit
    cases hQuit
  · rw [hPhase] at hData
    cases hData
  · have hBox : "b@x" ∈ ["a@x", "b@x"] := by decide
    rw [← hBoxes] at hBox
    exact ⟨_, _, hReaches, hPhase, hTurn, hClosed, hBoxes,
      hOrder.mailboxes "b@x" hBox, (hLines "b@x" hBox).2.1⟩

end Smtp

end MailFilter
