import MailFilter.Proofs.Smtp.Answers

/-
  Commands that are refused.

  A command is refused if it lacks its argument, if it comes
  out of turn, if it is no command, or if no spool file can be
  made for its message. Nothing is done before that is known.
  So a command that is refused leaves everything as it was,
  and only the log tells of it.

  Key definitions include:
    * `World.Logged`
    * `Smtp.Answer.IsRefusal`
    * `Smtp.IsRefused`

  Main statements:
    * `Smtp.IsRefused.exists_step`
    * `Smtp.exists_isRefused_or`
    * `Smtp.exists_step_of_isRefusal`
    * `Smtp.unchanged_of_isRefusal`
-/

namespace MailFilter

------------------------------------------------------------
-- Worlds In Which Only Something Was Logged
------------------------------------------------------------

namespace World

/- The second world is the first one with more in its log. -/
def Logged
    (w w' : World) : Prop :=
  ∃ events, w' = { w with log := events ++ w.log }

namespace Logged

variable {w w' w'' : World}

theorem refl
    (w : World) :
    Logged w w :=
  ⟨[], rfl⟩

theorem trans
    (hFirst : Logged w w')
    (hNext : Logged w' w'') :
    Logged w w'' := by
  rcases hFirst with ⟨events, rfl⟩
  rcases hNext with ⟨more, rfl⟩
  exact ⟨more ++ events, by simp⟩

theorem files
    (hLogged : Logged w w') :
    w'.files = w.files := by
  rcases hLogged with ⟨events, rfl⟩
  rfl

end Logged

theorem logged_emit
    (event : Log.Event)
    (w : World) :
    Logged w (emit event w).2 :=
  ⟨[event], rfl⟩

end World

namespace Smtp

open World

------------------------------------------------------------
-- Refusals
------------------------------------------------------------

/- The answer tells of a failure, for now or for good. -/
def Answer.IsRefusal
    (answer : Answer) : Prop :=
  400 ≤ answer.code ∧ answer.code ≤ 599

instance
    (answer : Answer) :
    Decidable answer.IsRefusal :=
  inferInstanceAs (Decidable (_ ∧ _))

/-
  The commands that are refused in a phase, and the reply to
  each of them.
-/
inductive IsRefused
    (context : Context)
    (files : Files) : Phase → Command → Reply → Prop where
  | emptyHelo
      (phase : Phase)
      {host : String} :
      host.isEmpty →
      IsRefused context files phase (.helo host)
        Refusal.emptyHelo
  | emptyEhlo
      (phase : Phase)
      {host : String} :
      host.isEmpty →
      IsRefused context files phase (.ehlo host)
        Refusal.emptyHelo
  | emptyXforward
      (phase : Phase) :
      IsRefused context files phase (.xforward none)
        Refusal.emptyXforward
  | nestedMail
      (argument : String) :
      IsRefused context files .mail (.mailFrom argument)
        Refusal.nestedMail
  | emptyMailFrom
      {phase : Phase}
      {argument : String} :
      phase ≠ .mail →
      argument.isEmpty →
      IsRefused context files phase (.mailFrom argument)
        Refusal.emptyMailFrom
  | needMail
      {phase : Phase}
      (argument : String) :
      ¬ (phase = .mail ∨ phase = .rcpt) →
      IsRefused context files phase (.rcptTo argument)
        Refusal.needMail
  | emptyRcptTo
      {phase : Phase}
      {argument : String} :
      phase = .mail ∨ phase = .rcpt →
      (mailbox argument).isEmpty →
      IsRefused context files phase (.rcptTo argument)
        Refusal.emptyRcptTo
  | noRecipients :
      IsRefused context files .mail .data Refusal.noRecipients
  | needRcpt
      {phase : Phase} :
      ¬ (phase = .mail ∨ phase = .rcpt) →
      IsRefused context files phase .data Refusal.needRcpt
  | noSpoolFile
      {fault : Fault} :
      files.create context.settings.global.queueDir =
          .error fault →
      IsRefused context files .rcpt .data
        (.configured context.settings .actionUnavailable)
  | unrecognized
      (phase : Phase)
      (line : String) :
      IsRefused context files phase (.invalid line)
        Refusal.unrecognized

variable {phase : Phase}
variable {context : Context}
variable {command : Command}
variable {reply : Reply}

/- They are all answered by a refusal. -/
theorem IsRefused.isRefusal
    {files : Files}
    (hRefused : IsRefused context files phase command reply) :
    (Answer.single reply).IsRefusal := by
  cases hRefused with
  | noSpoolFile _ =>
      exact show 400 ≤ 451 ∧ 451 ≤ 599 by decide
  | _ => decide

/- A refused command is answered, and nothing else is done. -/
theorem IsRefused.exists_step
    {w : World}
    (hRefused : IsRefused context w.files phase command reply) :
    ∃ w',
      phase.step command context w =
          ((phase, context, .single reply), w') ∧
        w.Logged w' := by
  cases hRefused with
  | emptyHelo _ hEmpty =>
      refine ⟨w, ?_, .refl w⟩
      simp only [Phase.step, Phase.welcome, if_pos hEmpty]
      rfl
  | emptyEhlo _ hEmpty =>
      refine ⟨w, ?_, .refl w⟩
      simp only [Phase.step, Phase.welcome, if_pos hEmpty]
      rfl
  | emptyXforward => exact ⟨w, rfl, .refl w⟩
  | nestedMail argument => exact ⟨w, rfl, .refl w⟩
  | emptyMailFrom hPhase hEmpty =>
      refine ⟨w, ?_, .refl w⟩
      simp only [Phase.step, Phase.takeSender, if_neg hPhase,
        if_pos hEmpty]
      rfl
  | needMail argument hPhase =>
      refine ⟨w, ?_, .refl w⟩
      simp only [Phase.step, Phase.takeRecipient,
        if_neg hPhase]
      rfl
  | emptyRcptTo hPhase hEmpty =>
      refine ⟨w, ?_, .refl w⟩
      simp only [Phase.step, Phase.takeRecipient,
        if_pos hPhase, if_pos hEmpty]
      rfl
  | noRecipients => exact ⟨w, rfl, .refl w⟩
  | needRcpt hPhase =>
      refine ⟨w, ?_, .refl w⟩
      cases phase with
      | mail => exact absurd (Or.inl rfl) hPhase
      | rcpt => exact absurd (Or.inr rfl) hPhase
      | init => rfl
      | helo => rfl
      | xfwd => rfl
      | data => rfl
      | quit => rfl
  | noSpoolFile hFault =>
      simp only [Phase.step, Phase.takeData,
        Context.openSpool, Run.bind_apply,
        Spool.create_of_error hFault]
      exact ⟨_, rfl, logged_emit _ w⟩
  | unrecognized _ line => exact ⟨w, rfl, .refl w⟩

------------------------------------------------------------
-- Commands That Are Carried Out
------------------------------------------------------------

/- A host that gives its name is greeted. -/
theorem code_of_welcome
    {host : String}
    (hHost : ¬ host.isEmpty)
    (answer : Answer)
    (w : World) :
    (phase.welcome host context answer w).1.2.2 = answer := by
  unfold Phase.welcome
  rw [if_neg hHost]
  split <;> rfl

/-
  A command is refused, or else it is answered by a code that
  tells of no failure.
-/
theorem exists_isRefused_or
    (phase : Phase)
    (command : Command)
    (context : Context)
    (w : World) :
    (∃ reply, IsRefused context w.files phase command reply) ∨
      (phase.step command context w).1.2.2.code < 400 := by
  have hGranted : 250 < 400 := by decide
  cases command with
  | helo host =>
      by_cases hEmpty : host.isEmpty
      · exact Or.inl ⟨_, .emptyHelo phase hEmpty⟩
      · refine Or.inr ?_
        simp only [Phase.step, code_of_welcome hEmpty]
        exact hGranted
  | ehlo host =>
      by_cases hEmpty : host.isEmpty
      · exact Or.inl ⟨_, .emptyEhlo phase hEmpty⟩
      · refine Or.inr ?_
        simp only [Phase.step, code_of_welcome hEmpty]
        exact hGranted
  | xforward address =>
      cases address with
      | none => exact Or.inl ⟨_, .emptyXforward phase⟩
      | some address => exact Or.inr hGranted
  | mailFrom argument =>
      by_cases hPhase : phase = .mail
      · subst hPhase
        exact Or.inl ⟨_, .nestedMail argument⟩
      · by_cases hEmpty : argument.isEmpty
        · exact Or.inl ⟨_, .emptyMailFrom hPhase hEmpty⟩
        · refine Or.inr ?_
          simp only [Phase.step, Phase.takeSender,
            if_neg hPhase, if_neg hEmpty]
          exact hGranted
  | rcptTo argument =>
      by_cases hPhase : phase = .mail ∨ phase = .rcpt
      · by_cases hEmpty : (mailbox argument).isEmpty
        · exact Or.inl ⟨_, .emptyRcptTo hPhase hEmpty⟩
        · refine Or.inr ?_
          simp only [Phase.step, Phase.takeRecipient,
            if_pos hPhase, if_neg hEmpty]
          exact hGranted
      · exact Or.inl ⟨_, .needMail argument hPhase⟩
  | data =>
      by_cases hPhase : phase = .mail ∨ phase = .rcpt
      · rcases hPhase with rfl | rfl
        · exact Or.inl ⟨_, .noRecipients⟩
        · cases hCreate :
              w.files.create context.settings.global.queueDir with
          | error fault => exact Or.inl ⟨_, .noSpoolFile hCreate⟩
          | ok made =>
              refine Or.inr ?_
              simp only [Phase.step, Phase.takeData,
                Context.openSpool, Run.bind_apply,
                Spool.create_of_ok hCreate]
              exact show 354 < 400 by decide
      · exact Or.inl ⟨_, .needRcpt hPhase⟩
  | rset => exact Or.inr hGranted
  | noop => exact Or.inr hGranted
  | quit => exact Or.inr (show 221 < 400 by decide)
  | invalid line => exact Or.inl ⟨_, .unrecognized phase line⟩

------------------------------------------------------------
-- What A Refusal Leaves
------------------------------------------------------------

/- Only a command that is refused is answered by a refusal. -/
theorem exists_step_of_isRefusal
    {w : World}
    (hRefusal :
      (phase.step command context w).1.2.2.IsRefusal) :
    ∃ reply w',
      IsRefused context w.files phase command reply ∧
        phase.step command context w =
          ((phase, context, .single reply), w') ∧
        w.Logged w' := by
  rcases exists_isRefused_or phase command context w with
    ⟨reply, hRefused⟩ | hGranted
  · rcases hRefused.exists_step with ⟨w', hStep, hLogged⟩
    exact ⟨reply, w', hRefused, hStep, hLogged⟩
  · exact absurd hRefusal.1 (Nat.not_le.mpr hGranted)

/-
  In every phase and context, and whatever the disk does, the
  answer is a refusal exactly if the command is one of those
  that are refused. Then the phase, the transaction and the
  open spool file are as before, and so is the world, where
  only something was logged.
-/
theorem unchanged_of_isRefusal
    {phase phase' : Phase}
    {context context' : Context}
    {command : Command}
    {answer : Answer}
    {w w' : World}
    (hStep :
      phase.step command context w =
        ((phase', context', answer), w')) :
    (answer.IsRefusal ↔
        ∃ reply,
          IsRefused context w.files phase command reply) ∧
      (answer.IsRefusal →
        phase' = phase ∧
          context' = context ∧
          w.Logged w' ∧
          ∃ reply,
            answer = .single reply ∧
              IsRefused context w.files phase command
                reply) := by
  refine ⟨⟨?_, ?_⟩, ?_⟩
  · intro hRefusal
    rcases exists_step_of_isRefusal
        (by rw [hStep]; exact hRefusal) with
      ⟨reply, -, hRefused, -⟩
    exact ⟨reply, hRefused⟩
  · rintro ⟨reply, hRefused⟩
    rcases hRefused.exists_step with ⟨after, hSame, -⟩
    cases hStep.symm.trans hSame
    exact hRefused.isRefusal
  · intro hRefusal
    rcases exists_step_of_isRefusal
        (by rw [hStep]; exact hRefusal) with
      ⟨reply, after, hRefused, hSame, hLogged⟩
    cases hStep.symm.trans hSame
    exact ⟨rfl, rfl, hLogged, reply, rfl, hRefused⟩

/- A transaction that is ready for the data of its message. -/
def readyContext : Context where
  settings := { global := { queueDir := "/gone" } }
  hostname := "mx"
  transaction := {
    id := 0
    envelope := { sender := some "a@x", recipients := ["b@x"] }
    helo := some "c" }

/- Without a queue directory the recipients are kept. -/
theorem unchanged_noQueue :
    ∃ phase context answer w',
      Phase.rcpt.step .data readyContext {} =
          ((phase, context, answer), w') ∧
        answer.code = 451 ∧
        phase = .rcpt ∧
        context = readyContext ∧
        World.Logged {} w' := by
  rcases hStep : Phase.rcpt.step .data readyContext {} with
    ⟨⟨phase, context, answer⟩, w'⟩
  have hCode : answer.code = 451 :=
    congrArg (fun result => result.1.2.2.code) hStep.symm
  have hRefusal : answer.IsRefusal := by
    rw [Answer.IsRefusal, hCode]
    decide
  rcases (unchanged_of_isRefusal hStep).2 hRefusal with
    ⟨hPhase, hContext, hLogged, -⟩
  exact ⟨phase, context, answer, w', rfl, hCode, hPhase,
    hContext, hLogged⟩

end Smtp

end MailFilter
