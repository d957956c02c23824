import MailFilter.Proofs.Chain.Answered
import MailFilter.Proofs.Smtp.Envelope

/-
  What a client is told in answer to a command.

  Every command gets one of a few answers. The answer tells
  what became of the command: only one with code 354 opens a
  spool file, and only QUIT ends the dialogue.

  Key definitions include:
    * `Smtp.Refuses`
    * `Smtp.Answers`
    * `Smtp.Reacts`

  Main statements:
    * `Smtp.reacts_step`
-/

namespace MailFilter.Smtp

open World

------------------------------------------------------------
-- Answers
------------------------------------------------------------

/- The refusals of a command. -/
inductive Refuses : Command → Reply → Prop where
  | helo {host : String} :
      host.isEmpty →
      Refuses (.helo host) Refusal.emptyHelo
  | ehlo {host : String} :
      host.isEmpty →
      Refuses (.ehlo host) Refusal.emptyHelo
  | xforward : Refuses (.xforward none) Refusal.emptyXforward
  | nestedMail
      (argument : String) :
      Refuses (.mailFrom argument) Refusal.nestedMail
  | emptyMailFrom {argument : String} :
      argument.isEmpty →
      Refuses (.mailFrom argument) Refusal.emptyMailFrom
  | needMail
      (argument : String) :
      Refuses (.rcptTo argument) Refusal.needMail
  | emptyRcptTo {argument : String} :
      (mailbox argument).isEmpty →
      Refuses (.rcptTo argument) Refusal.emptyRcptTo
  | noRecipients : Refuses .data Refusal.noRecipients
  | needRcpt : Refuses .data Refusal.needRcpt
  | unrecognized
      (line : String) :
      Refuses (.invalid line) Refusal.unrecognized

/- A command that is acknowledged by a configured text. -/
def Command.IsAcknowledged : Command → Prop
  | .xforward address => address ≠ none
  | .mailFrom argument => argument.isEmpty = false
  | .rcptTo argument => (mailbox argument).isEmpty = false
  | .rset => True
  | .noop => True
  | .helo _ => False
  | .ehlo _ => False
  | .data => False
  | .quit => False
  | .invalid _ => False

/- The answers that a command can get. -/
inductive Answers
    (settings : Settings)
    (hostname : String) : Command → Answer → Prop where
  | greeted {host : String} :
      host.isEmpty = false →
      Answers settings hostname (.helo host)
        (.single ⟨.ok, hostname⟩)
  | extended {host : String} :
      host.isEmpty = false →
      Answers settings hostname (.ehlo host)
        (.extended hostname settings.global.maxSize)
  | acknowledged {command : Command} :
      command.IsAcknowledged →
      Answers settings hostname command
        (.single (.configured settings .ok))
  | started :
      Answers settings hostname .data
        (.single (.configured settings .startMailInput))
  | failed :
      Answers settings hostname .data
        (.single (.configured settings .actionUnavailable))
  | left :
      Answers settings hostname .quit
        (.single (.configured settings .goodBye))
  | refused {command : Command} {reply : Reply} :
      Refuses command reply →
      Answers settings hostname command (.single reply)

namespace Answers

variable {settings : Settings}
variable {hostname : String}
variable {command : Command}
variable {answer : Answer}

/- The message data are asked for after DATA only. -/
theorem data_of_code
    (hAnswers : Answers settings hostname command answer)
    (hCode : answer.code = 354) :
    command = .data := by
  cases hAnswers with
  | started => rfl
  | failed => rfl
  | greeted => cases hCode
  | extended => cases hCode
  | acknowledged => cases hCode
  | left => cases hCode
  | refused hRefuses => cases hRefuses <;> cases hCode

/- QUIT is always answered by 221. -/
theorem code_of_quit
    (hAnswers : Answers settings hostname .quit answer) :
    answer.code = 221 := by
  cases hAnswers with
  | acknowledged hNot => exact hNot.elim
  | left => rfl
  | refused hRefuses => cases hRefuses

end Answers

------------------------------------------------------------
-- Steps
------------------------------------------------------------

/- A reset leaves a new transaction, and nothing open. -/
theorem Context.exists_reset
    (context : Context)
    (w : World) :
    ∃ id after,
      context.reset w =
        ({ context with
            transaction := { id := id }
            spoolOpen := false }, after) := by
  simp only [reset, closeSpool, Run.bind_apply]
  split
  · exact ⟨_, _, rfl⟩
  · exact ⟨_, _, rfl⟩

/- What a command makes of the state of a dialogue. -/
structure Reacts
    (phase : Phase)
    (context : Context)
    (command : Command)
    (phase' : Phase)
    (context' : Context)
    (answer : Answer) : Prop where
  answers :
    Answers context.settings context.hostname command answer
  settings : context'.settings = context.settings
  hostname : context'.hostname = context.hostname
  decision :
    context'.transaction.decision = context.transaction.decision ∨
      context'.transaction.decision = (none, none)
  opens :
    answer.code = 354 →
      phase' = .data ∧ context'.spoolOpen = true
  closed :
    answer.code ≠ 354 → context.spoolOpen = false →
      context'.spoolOpen = false
  quits : phase ≠ .quit → (phase' = .quit ↔ command = .quit)

namespace Reacts

variable {phase phase' : Phase}
variable {context context' : Context}
variable {command : Command}
variable {answer : Answer}
variable {w w' : World}

/- A refused command leaves everything as it was. -/
theorem refused
    {reply : Reply}
    (hRefuses : Refuses command reply) :
    Reacts phase context command phase context
      (.single reply) where
  answers := .refused hRefuses
  settings := rfl
  hostname := rfl
  decision := Or.inl rfl
  opens hCode := by
    cases hRefuses <;> cases hCode
  closed _ hClosed := hClosed
  quits hPhase := by
    refine iff_of_false hPhase ?_
    rintro rfl
    cases hRefuses

theorem welcome
    {host : String}
    {accepted : Answer}
    (hAccepted :
      host.isEmpty = false →
        Answers context.settings context.hostname command
          accepted)
    (hCode : accepted.code = 250)
    (hRefuses :
      host.isEmpty → Refuses command Refusal.emptyHelo)
    (hCommand : command ≠ .quit)
    (hStep :
      phase.welcome host context accepted w =
        ((phase', context', answer), w')) :
    Reacts phase context command phase' context' answer := by
  unfold Phase.welcome at hStep
  split at hStep
  · rename_i hEmpty
    cases hStep
    exact refused (hRefuses hEmpty)
  · rename_i hHost
    have hAnswers := hAccepted (Bool.eq_false_iff.mpr hHost)
    split at hStep
    · cases hStep
      refine ⟨hAnswers, rfl, rfl, Or.inl rfl, ?_, ?_, ?_⟩
      · rw [hCode]
        intro hNot
        cases hNot
      · exact fun _ hClosed => hClosed
      · exact fun _ => iff_of_false (by decide) hCommand
    · rcases context.exists_reset w with ⟨id, after, hReset⟩
      simp only [Run.bind_apply, hReset] at hStep
      cases hStep
      refine ⟨hAnswers, rfl, rfl, Or.inr rfl, ?_, ?_, ?_⟩
      · rw [hCode]
        intro hNot
        cases hNot
      · exact fun _ _ => rfl
      · exact fun _ => iff_of_false (by decide) hCommand

/- A command that is acknowledged. -/
theorem acknowledged
    (hCommand : command.IsAcknowledged)
    (hPhase : phase' ≠ .quit)
    (hSettings : context'.settings = context.settings)
    (hHostname : context'.hostname = context.hostname)
    (hDecision :
      context'.transaction.decision =
          context.transaction.decision ∨
        context'.transaction.decision = (none, none))
    (hClosed :
      context.spoolOpen = false → context'.spoolOpen = false) :
    Reacts phase context command phase' context'
      (context.configured .ok) where
  answers := .acknowledged hCommand
  settings := hSettings
  hostname := hHostname
  decision := hDecision
  opens hCode := by cases hCode
  closed _ := hClosed
  quits _ := by
    refine iff_of_false hPhase ?_
    rintro rfl
    exact hCommand

/- One that only changes the envelope. -/
theorem mapEnvelope
    (hCommand : command.IsAcknowledged)
    (hPhase : phase' ≠ .quit)
    (change : Envelope → Envelope) :
    Reacts phase context command phase'
      (context.mapEnvelope change) (context.configured .ok) :=
  acknowledged hCommand hPhase rfl rfl (Or.inl rfl) id

theorem takeSender
    {argument : String}
    (hStep :
      phase.takeSender argument context =
        (phase', context', answer)) :
    Reacts phase context (.mailFrom argument) phase' context'
      answer := by
  unfold Phase.takeSender at hStep
  split at hStep
  · rename_i hMail
    cases hStep
    rw [← hMail]
    exact refused (.nestedMail argument)
  · split at hStep
    · rename_i hEmpty
      cases hStep
      exact refused (.emptyMailFrom hEmpty)
    · rename_i hSome
      cases hStep
      apply mapEnvelope
      · exact Bool.eq_false_iff.mpr hSome
      · decide

theorem takeRecipient
    {argument : String}
    (hStep :
      phase.takeRecipient argument context =
        (phase', context', answer)) :
    Reacts phase context (.rcptTo argument) phase' context'
      answer := by
  unfold Phase.takeRecipient at hStep
  split at hStep
  · dsimp only at hStep
    split at hStep
    · rename_i hEmpty
      cases hStep
      exact refused (.emptyRcptTo hEmpty)
    · rename_i hSome
      cases hStep
      apply mapEnvelope
      · exact Bool.eq_false_iff.mpr hSome
      · decide
  · cases hStep
    exact refused (.needMail argument)

/- DATA is the only command whose file can fail. -/
theorem takeData
    (hStep :
      phase.takeData context w =
        ((phase', context', answer), w')) :
    Reacts phase context .data phase' context' answer := by
  unfold Phase.takeData at hStep
  split at hStep
  · cases hStep
    exact refused .noRecipients
  · simp only [Context.openSpool, Run.bind_apply] at hStep
    cases hCreate :
        (Spool.create context.settings.global.queueDir w).1 with
    | ok path =>
        simp only [hCreate] at hStep
        cases hStep
        refine ⟨.started, rfl, rfl, Or.inl rfl, ?_, ?_, ?_⟩
        · exact fun _ => ⟨rfl, rfl⟩
        · exact fun hNot => absurd rfl hNot
        · intro _
          refine iff_of_false ?_ (by simp)
          intro hQuit
          cases hQuit
    | error e =>
        simp only [hCreate] at hStep
        cases hStep
        refine ⟨.failed, rfl, rfl, Or.inl rfl, ?_, ?_, ?_⟩
        · intro hCode
          cases hCode
        · exact fun _ hClosed => hClosed
        · intro _
          refine iff_of_false ?_ (by simp)
          intro hQuit
          cases hQuit
  · cases hStep
    exact refused .needRcpt

end Reacts

/- One case for each command. -/
theorem reacts_step
    {phase phase' : Phase}
    {context context' : Context}
    {command : Command}
    {answer : Answer}
    {w w' : World}
    (hStep :
      phase.step command context w =
        ((phase', context', answer), w')) :
    Reacts phase context command phase' context' answer := by
  cases command with
  | helo host =>
      exact .welcome .greeted rfl .helo (by simp) hStep
  | ehlo host =>
      exact .welcome .extended rfl .ehlo (by simp) hStep
  | xforward address =>
      cases address with
      | none =>
          cases hStep
          exact .refused .xforward
      | some address =>
          cases hStep
          apply Reacts.acknowledged
          · simp [Command.IsAcknowledged]
          · decide
          · rfl
          · rfl
          · exact Or.inl rfl
          · exact fun hClosed => hClosed
  | mailFrom argument =>
      exact .takeSender (congrArg Prod.fst hStep)
  | rcptTo argument =>
      exact .takeRecipient (congrArg Prod.fst hStep)
  | data => exact .takeData hStep
  | rset =>
      rcases context.exists_reset w with ⟨id, after, hReset⟩
      simp only [Phase.step, Run.bind_apply, hReset] at hStep
      cases hStep
      apply Reacts.acknowledged
      · exact True.intro
      · decide
      · rfl
      · rfl
      · exact Or.inr rfl
      · exact fun _ => rfl
  | noop =>
      cases hStep
      refine ⟨.acknowledged True.intro, rfl, rfl, Or.inl rfl,
        ?_, ?_, ?_⟩
      · intro hCode
        cases hCode
      · exact fun _ hClosed => hClosed
      · exact fun hPhase => iff_of_false hPhase (by simp)
  | quit =>
      cases hStep
      refine ⟨.left, rfl, rfl, Or.inl rfl, ?_, ?_, ?_⟩
      · intro hCode
        cases hCode
      · exact fun _ hClosed => hClosed
      · exact fun _ => iff_of_true rfl rfl
  | invalid line =>
      cases hStep
      exact .refused (.unrecognized line)

end MailFilter.Smtp
