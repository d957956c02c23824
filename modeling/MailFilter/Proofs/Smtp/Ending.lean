import MailFilter.Proofs.Smtp.Dialogue

/-
  How a connection comes to its end.

  Every turn that is not the last one uses up some of what the
  client sends. So every connection is over after some turns,
  and then a spool file that is still open is removed.

  Key definitions include:
    * `Smtp.Station.AwaitsCommand`

  Main statements:
    * `Smtp.Station.length_of_turn`
    * `Smtp.Station.exists_over`
-/

namespace MailFilter.Smtp

open World

namespace Station

variable {service : Service}
variable {s next : Station}
variable {exchange : Exchange}

/- The next thing to be read is a command. -/
structure AwaitsCommand
    (s : Station) : Prop where
  phase : s.dialog.phase ≠ .quit
  closed : s.dialog.context.spoolOpen = false

/- The next turn reads it then. -/
theorem turn_of_awaitsCommand
    (service : Service)
    (hAwaits : s.AwaitsCommand) :
    s.turn service = s.commandTurn := by
  unfold turn
  rw [if_neg hAwaits.phase, if_neg (by simp [hAwaits.closed])]

/- What is left after a turn is shorter. -/
theorem length_of_turn
    (hTurn : s.turn service = .next exchange next) :
    next.input.data.length < s.input.data.length := by
  rcases turn_cases hTurn with
    ⟨-, hMessage⟩ | ⟨-, hCommand⟩
  · rcases Turn.of_proceed_eq_next hMessage with ⟨-, hRest, -⟩
    exact length_of_readMessageFrom hRest
  · unfold commandTurn at hCommand
    dsimp only at hCommand
    split at hCommand
    · cases hCommand
    · cases hCommand
    · rename_i rest hRead
      rcases Turn.of_proceed_eq_next hCommand with
        ⟨-, hRest, -⟩
      cases hRest
      exact length_of_readCommand_tooLong hRead
    · rename_i line rest hRead
      unfold answerTurn at hCommand
      rcases Turn.of_proceed_eq_next hCommand with
        ⟨-, hRest, -⟩
      cases hRest
      exact length_of_readCommand_line hRead

/- A turn comes before all that follow it. -/
theorem Reaches.head
    {last : Station}
    {history : List Exchange}
    (hTurn : s.turn service = .next exchange next)
    (hReaches : next.Reaches service history last) :
    s.Reaches service (history ++ [exchange]) last := by
  induction hReaches with
  | refl => exact .step .refl hTurn
  | step _ hStep ih => exact .step ih hStep

/- After some turns every connection is over. -/
theorem exists_over
    (service : Service)
    (s : Station) :
    ∃ history last progress w,
      s.Reaches service history last ∧
        last.turn service = .over progress w ∧
        s.resume service = (progress, w) := by
  rcases hTurn : s.turn service with
    ⟨progress, w⟩ | ⟨exchange, next⟩
  · refine ⟨[], s, progress, w, .refl, hTurn, ?_⟩
    rw [resume_eq, hTurn]
    rfl
  · have hShorter := length_of_turn hTurn
    rcases exists_over service next with
      ⟨history, last, progress, w, hReaches, hOver, hResume⟩
    refine ⟨_, last, progress, w, hReaches.head hTurn, hOver,
      ?_⟩
    rw [resume_eq, hTurn]
    exact hResume
termination_by s.input.data.length

end Station

/- A client that cannot be greeted is not served. -/
theorem files_run_of_broken
    (service : Service)
    (input : Inbound)
    (w : World) :
    (run service input (some 0) w).2.files = w.files := by
  rfl

end MailFilter.Smtp
