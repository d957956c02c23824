import MailFilter.Proofs.Smtp.CommandLines
import MailFilter.Proofs.Smtp.Ending
import MailFilter.Proofs.Smtp.Wording

/-
  Which answers a client gets, line by line.

  After the greeting there is one answer for every command
  line, and one reply for every message that was asked for and
  ends. Nothing comes after the answer to QUIT. If the last
  line is too long and was not ended, its length decides
  whether it is answered.

  Key definitions include:
    * `Smtp.Converses`
    * `Smtp.Station.Listens`
    * `Smtp.Station.Tells`
    * `Smtp.Station.IsAnswered`

  Main statements:
    * `Smtp.Station.isAnswered_of_listens`
    * `Smtp.exists_converses_run`
    * `Smtp.converses_run`
-/

namespace MailFilter.Smtp

open Bytes
open World

------------------------------------------------------------
-- Conversations
------------------------------------------------------------

/-
  The lines of a client and the answers to them, where a last
  line that is too long and was not ended is answered if it is
  one of those that `stray` tells.
-/
inductive Converses
    (stray : Bytes → Prop)
    (service : Service) : List Bytes → List Answer → Prop where
  | closed : Converses stray service [] []
  | command
      {line : Bytes}
      {rest : List Bytes}
      {answer : Answer}
      {answers : List Answer} :
      Fits line →
      Answers service.settings service.hostname
        (.ofBytes line) answer →
      Command.ofBytes line ≠ .quit →
      answer.code ≠ 354 →
      Converses stray service rest answers →
      Converses stray service (line :: rest)
        (answer :: answers)
  | quit
      {line : Bytes}
      {answer : Answer}
      (rest : List Bytes) :
      Fits line →
      Answers service.settings service.hostname
        (.ofBytes line) answer →
      Command.ofBytes line = .quit →
      answer.code = 221 →
      Converses stray service (line :: rest) [answer]
  | overlong
      {line : Bytes}
      {rest : List Bytes}
      {answers : List Answer} :
      IsLine line →
      maxCommandLine < line.length →
      Converses stray service rest answers →
      Converses stray service (line :: rest)
        (.single Refusal.lineTooLong :: answers)
  | cutOff
      {line : Bytes} :
      IsCutOff line →
      ¬ stray line →
      Converses stray service [line] []
  | stray
      {line : Bytes} :
      IsCutOff line →
      stray line →
      Converses stray service [line]
        [.single Refusal.lineTooLong]
  | message
      {line last : Bytes}
      {before rest : List Bytes}
      {answer : Answer}
      {answers : List Answer}
      (reply : Reply) :
      Fits line →
      Answers service.settings service.hostname
        (.ofBytes line) answer →
      Command.ofBytes line = .data →
      answer.code = 354 →
      (∀ text ∈ before, ¬ IsTerminator text) →
      IsTerminator last →
      Converses stray service rest answers →
      Converses stray service (line :: (before ++ last :: rest))
        (answer :: .single reply :: answers)
  | unfinished
      {line : Bytes}
      {rest : List Bytes}
      {answer : Answer} :
      Fits line →
      Answers service.settings service.hostname
        (.ofBytes line) answer →
      Command.ofBytes line = .data →
      answer.code = 354 →
      (∀ text ∈ rest, ¬ IsTerminator text) →
      Converses stray service (line :: rest) [answer]

/-
  Who agrees on the lines that were not ended agrees on the
  conversation.
-/
theorem Converses.congr
    {stray other : Bytes → Prop}
    {service : Service}
    {lines : List Bytes}
    {answers : List Answer}
    (hConverses : Converses stray service lines answers)
    (hSame :
      ∀ line ∈ lines, IsCutOff line →
        (stray line ↔ other line)) :
    Converses other service lines answers := by
  induction hConverses with
  | closed => exact .closed
  | command hFits hAnswers hQuit hCode _ ih =>
      exact .command hFits hAnswers hQuit hCode
        (ih fun line hMem => hSame line (.tail _ hMem))
  | quit rest hFits hAnswers hQuit hCode =>
      exact .quit rest hFits hAnswers hQuit hCode
  | overlong hLine hLong _ ih =>
      exact .overlong hLine hLong
        (ih fun line hMem => hSame line (.tail _ hMem))
  | cutOff hCut hNot =>
      have hIff := hSame _ List.mem_cons_self hCut
      exact .cutOff hCut fun hOther => hNot (hIff.mpr hOther)
  | stray hCut hStray =>
      have hIff := hSame _ List.mem_cons_self hCut
      exact .stray hCut (hIff.mp hStray)
  | message reply hFits hAnswers hData hCode hBefore hEnds _
      ih =>
      refine .message reply hFits hAnswers hData hCode hBefore
        hEnds (ih fun line hMem => hSame line ?_)
      exact .tail _ (List.mem_append_right _ (.tail _ hMem))
  | unfinished hFits hAnswers hData hCode hNone =>
      exact .unfinished hFits hAnswers hData hCode hNone

/- A line that was not ended and is too long, and no other. -/
theorem Converses.eq_nil_of_cutOff
    {stray : Bytes → Prop}
    {service : Service}
    {line : Bytes}
    {answers : List Answer}
    (hConverses : Converses stray service [line] answers)
    (hCut : IsCutOff line)
    (hNot : ¬ stray line) :
    answers = [] := by
  have hNoFit : ¬ Fits line := by
    rintro (⟨⟨front, rfl, -⟩, -⟩ | ⟨-, hShort⟩)
    · exact hCut.1 (by simp)
    · exact absurd hCut.2 (Nat.not_le_of_lt hShort)
  generalize hSingle : [line] = lines at hConverses
  cases hConverses with
  | closed => cases hSingle
  | command hFits =>
      cases hSingle
      exact absurd hFits hNoFit
  | quit rest hFits =>
      cases hSingle
      exact absurd hFits hNoFit
  | overlong hLine =>
      cases hSingle
      rcases hLine with ⟨front, rfl, -⟩
      exact absurd (by simp) hCut.1
  | cutOff => rfl
  | stray _ hStray =>
      cases hSingle
      exact absurd hStray hNot
  | message reply hFits =>
      cases (List.cons.inj hSingle).1
      exact absurd hFits hNoFit
  | unfinished hFits =>
      cases hSingle
      exact absurd hFits hNoFit

/- What a client is told before it has said anything. -/
def greeting
    (service : Service) : Answer :=
  .single ⟨.serviceReady, service.hostname ++ " spmfilter"⟩

------------------------------------------------------------
-- Sending
------------------------------------------------------------

/- Without a limit all lines are sent. -/
theorem Dialog.exists_send
    (lines : List String)
    {d : Dialog}
    (hUnlimited : d.outbound.writes = none)
    (w : World) :
    ∃ after,
      d.send lines w =
        ((.ok (), { d with
          outbound :=
            ⟨(lines.map sentLine).reverse ++
              d.outbound.written, none⟩ }), after) := by
  induction lines generalizing d w with
  | nil =>
      refine ⟨w, ?_⟩
      rw [List.map_nil, List.reverse_nil, List.nil_append,
        ← hUnlimited]
      rfl
  | cons line rest ih =>
      have hWrites : d.outbound.writes ≠ some 0 := by
        rw [hUnlimited]
        simp
      simp only [send, Run.bind_apply,
        Dialog.write_of_writes hWrites, hUnlimited]
      rcases ih (d := { d with
          outbound := ⟨sentLine line :: d.outbound.written, none⟩ })
          rfl _ with
        ⟨after, hSend⟩
      refine ⟨after, hSend.trans ?_⟩
      simp

------------------------------------------------------------
-- Stations
------------------------------------------------------------

namespace Station

/-
  A station at which the next command is read, and from which
  all that is to be sent can be sent.
-/
structure Listens
    (service : Service)
    (allowed : String → Prop)
    (s : Station) : Prop where
  awaits : s.AwaitsCommand
  unlimited : s.dialog.outbound.writes = none
  settings : s.dialog.context.settings = service.settings
  hostname : s.dialog.context.hostname = service.hostname
  proper : s.dialog.transaction.IsProper allowed

/- After QUIT the connection is over. -/
theorem resume_of_quit
    {service : Service}
    {s next : Station}
    {answer : Answer}
    (hTurn : s.turn service = .next (.command .quit answer) next) :
    next.resume service =
      ((.ok (), next.dialog), next.world) := by
  rcases exists_step_of_turn hTurn with
    ⟨-, before, after, hStep, -⟩
  have hPhase : next.dialog.phase = .quit :=
    (congrArg (fun result => result.1.1) hStep).symm
  unfold resume
  rw [if_pos hPhase]

/- What the client is told from a station up to the end. -/
structure Tells
    (service : Service)
    (allowed : String → Prop)
    (s : Station)
    (answers : List Answer) : Prop where
  ends : (s.resume service).1.1 = .ok ()
  written :
    (s.resume service).1.2.outbound.written.reverse =
      s.dialog.outbound.written.reverse ++
        answers.flatMap Answer.sent
  proper : ∀ answer ∈ answers, answer.IsProper allowed

variable {service : Service}
variable {allowed : String → Prop}
variable {s next : Station}

namespace Tells

/- Nothing is told when the connection is over. -/
theorem of_over
    {d : Dialog}
    {w : World}
    (hTurn : s.turn service = .over (.ok (), d) w)
    (hSame : d.outbound.written = s.dialog.outbound.written) :
    Tells service allowed s [] := by
  refine ⟨?_, ?_, by simp⟩
  · rw [resume_eq, hTurn]
    rfl
  · rw [resume_eq, hTurn, List.flatMap_nil, List.append_nil,
      ← hSame]
    rfl

/- An answer is followed by those of the later turns. -/
theorem prepend
    {exchange : Exchange}
    {answer : Answer}
    {answers : List Answer}
    (hNext : Tells service allowed next answers)
    (hTurn : s.turn service = .next exchange next)
    (hSent :
      next.dialog.outbound.written =
        answer.sent.reverse ++ s.dialog.outbound.written)
    (hProper : answer.IsProper allowed) :
    Tells service allowed s (answer :: answers) := by
  have hResume : s.resume service = next.resume service := by
    rw [resume_eq, hTurn]
    rfl
  refine ⟨?_, ?_, ?_⟩
  · rw [hResume]
    exact hNext.ends
  · rw [hResume, hNext.written, hSent]
    simp
  · exact List.forall_mem_cons.mpr ⟨hProper, hNext.proper⟩

end Tells

/- A command is carried out and answered. -/
theorem exists_commandTurn
    (hListens : s.Listens service allowed)
    {line : Bytes}
    {rest : Inbound}
    (hRead : readCommand s.input = .line line rest) :
    ∃ answer next,
      s.turn service =
          .next (.command (.ofBytes line) answer) next ∧
        next.input = rest ∧
        next.dialog.outbound =
          ⟨answer.sent.reverse ++ s.dialog.outbound.written,
            none⟩ ∧
        Reacts s.dialog.phase s.dialog.context (.ofBytes line)
          next.dialog.phase next.dialog.context answer := by
  rw [turn_of_awaitsCommand service hListens.awaits, commandTurn]
  simp only [hRead]
  unfold answerTurn
  rcases hOutcome :
      outcome (.ofBytes line) s.dialog s.world with
    ⟨⟨phase, context, answer⟩, between⟩
  rcases Dialog.exists_send answer.lines
      (d := ⟨phase, context, s.dialog.outbound⟩)
      hListens.unlimited between with
    ⟨after, hSend⟩
  simp only [hSend]
  exact ⟨answer, _, rfl, rfl, rfl, reacts_step hOutcome⟩

/- A command that is too long is refused. -/
theorem exists_overlongTurn
    (hListens : s.Listens service allowed)
    {rest : Inbound}
    (hRead : readCommand s.input = .tooLong (.through rest)) :
    ∃ next,
      s.turn service = .next .overlong next ∧
        next.input = rest ∧
        next.dialog.outbound.written =
          (Answer.single Refusal.lineTooLong).sent.reverse ++
            s.dialog.outbound.written ∧
        next.Listens service allowed := by
  rw [turn_of_awaitsCommand service hListens.awaits, commandTurn]
  simp only [hRead]
  rcases Dialog.exists_send [Refusal.lineTooLong.render]
      hListens.unlimited (noteTooLong s.dialog s.world).2 with
    ⟨after, hSend⟩
  simp only [Dialog.reply, hSend]
  refine ⟨_, rfl, rfl, rfl, ?_⟩
  exact ⟨⟨hListens.awaits.phase, hListens.awaits.closed⟩, rfl,
    hListens.settings, hListens.hostname, hListens.proper⟩

/- No command decides on what is not allowed. -/
theorem Listens.isProper_of_reacts
    (hListens : s.Listens service allowed)
    {command : Command}
    {answer : Answer}
    (hReacts :
      Reacts s.dialog.phase s.dialog.context command
        next.dialog.phase next.dialog.context answer) :
    next.dialog.transaction.IsProper allowed := by
  rcases hReacts.decision with hSame | hFresh
  · exact hListens.proper.congr hSame
  · exact .of_undecided hFresh

/- The next command follows unless DATA or QUIT was taken. -/
theorem Listens.of_reacts
    (hListens : s.Listens service allowed)
    {command : Command}
    {answer : Answer}
    (hReacts :
      Reacts s.dialog.phase s.dialog.context command
        next.dialog.phase next.dialog.context answer)
    (hUnlimited : next.dialog.outbound.writes = none)
    (hGoesOn : command ≠ .quit)
    (hNoData : answer.code ≠ 354) :
    next.Listens service allowed where
  awaits :=
    ⟨fun hQuit =>
        hGoesOn ((hReacts.quits hListens.awaits.phase).mp hQuit),
      hReacts.closed hNoData hListens.awaits.closed⟩
  unlimited := hUnlimited
  settings := hReacts.settings.trans hListens.settings
  hostname := hReacts.hostname.trans hListens.hostname
  proper := hListens.isProper_of_reacts hReacts

/- A message that ends is replied to. -/
theorem exists_messageTurn
    (hPhase : s.dialog.phase = .data)
    (hOpen : s.dialog.context.spoolOpen = true)
    (hUnlimited : s.dialog.outbound.writes = none)
    {rest : Inbound}
    (hRest : (readMessage s.input).rest? = some rest) :
    ∃ next,
      s.turn service =
          .next (.message (readMessage s.input)) next ∧
        next.input = rest ∧
        next.dialog.outbound.written =
          (Answer.single
              (replyTo service (readMessage s.input)
                s.dialog.transaction s.world).1.1).sent.reverse ++
            s.dialog.outbound.written ∧
        (s.dialog.context.settings = service.settings →
          s.dialog.context.hostname = service.hostname →
          next.Listens service allowed) := by
  have hReceive :=
    receive_of_rest service hRest s.dialog s.world
  generalize replyTo service (readMessage s.input)
    s.dialog.transaction s.world = replied at hReceive ⊢
  rcases Dialog.exists_send [replied.1.1.render]
      (d := s.dialog.closed.withTransaction replied.1.2)
      hUnlimited replied.2 with
    ⟨after, hSend⟩
  simp only [Dialog.conclude, Run.bind_apply, Dialog.reply,
    hSend] at hReceive
  rw [turn_of_open service hPhase hOpen, messageTurn]
  simp only [hReceive, hRest, Turn.proceed]
  refine ⟨_, rfl, rfl, rfl, ?_⟩
  intro hSettings hHostname
  refine ⟨⟨?_, rfl⟩, rfl, hSettings, hHostname,
    .of_undecided rfl⟩
  intro hQuit
  cases hQuit

/- After a message that does not end nothing is told. -/
theorem Tells.of_unfinished
    (hPhase : s.dialog.phase = .data)
    (hOpen : s.dialog.context.spoolOpen = true)
    (hRead : readMessage s.input = .ended .closed) :
    Tells service allowed s [] := by
  apply Tells.of_over (d := s.dialog.closed)
  · rw [turn_of_open service hPhase hOpen, messageTurn]
    simp only [hRead, receive, Run.bind_apply]
    rfl
  · rfl

/- After QUIT nothing is told. -/
theorem Tells.of_quit
    (hQuit : s.dialog.phase = .quit) :
    Tells service allowed s [] := by
  apply Tells.of_over (d := s.dialog)
  · rw [turn, if_pos hQuit]
  · rfl

/- A command that was carried out, and what the client is told. -/
theorem Tells.of_command
    (hOwn : OwnTexts allowed)
    (hSpeaks : service.Speaks allowed)
    {command : Command}
    {answer : Answer}
    {answers : List Answer}
    (hTurn : s.turn service = .next (.command command answer) next)
    (hOutbound :
      next.dialog.outbound =
        ⟨answer.sent.reverse ++ s.dialog.outbound.written,
          none⟩)
    (hAnswers :
      Answers service.settings service.hostname command answer)
    (hNext : Tells service allowed next answers) :
    Tells service allowed s (answer :: answers) := by
  apply hNext.prepend hTurn
  · rw [hOutbound]
  · exact hAnswers.isProper hOwn hSpeaks.settings
      hSpeaks.hostname

/- A client that is gone is told nothing. -/
theorem Tells.of_gone
    (hListens : s.Listens service allowed)
    (hRead :
      readCommand s.input = .ended .closed ∨
        readCommand s.input = .tooLong (.ended .closed)) :
    Tells service allowed s [] := by
  have hTurn := turn_of_awaitsCommand service hListens.awaits
  rcases hRead with hRead | hRead
  · apply Tells.of_over (d := s.dialog)
    · rw [hTurn, commandTurn, hRead]
      rfl
    · rfl
  · apply Tells.of_over (d := s.dialog)
    · rw [hTurn, commandTurn, hRead]
      rfl
    · rfl

/- All that is still to come is answered line by line. -/
def IsAnswered
    (service : Service)
    (allowed : String → Prop)
    (s : Station)
    (data : Bytes) : Prop :=
  ∃ answers,
    Tells service allowed s answers ∧
      Converses LeavesPiece service (lines data) answers

/- A line that is too long, and what comes after it. -/
theorem exists_tells_overlong
    (hOwn : OwnTexts allowed)
    (hListens : s.Listens service allowed)
    {rest : Bytes}
    (hRead :
      readCommand s.input = .tooLong (.through ⟨rest, .closed⟩))
    (hLater :
      ∀ after : Station,
        after.Listens service allowed →
        after.input = ⟨rest, .closed⟩ →
        IsAnswered service allowed after rest) :
    ∃ answers,
      Tells service allowed s
          (.single Refusal.lineTooLong :: answers) ∧
        Converses LeavesPiece service (lines rest) answers := by
  rcases exists_overlongTurn hListens hRead with
    ⟨next, hTurn, hNext, hSent, hAfter⟩
  rcases hLater next hAfter hNext with
    ⟨answers, hTells, hConverses⟩
  have hProper :
      (Answer.single Refusal.lineTooLong).IsProper allowed :=
    ⟨by decide, hOwn.lineTooLong⟩
  exact ⟨answers, hTells.prepend hTurn hSent hProper, hConverses⟩

section Turns

variable (hOwn : OwnTexts allowed)
variable (hSpeaks : service.Speaks allowed)
variable (hPolicy : service.queue.policy = policy)
variable (hKeeps :
  ∀ m ∈ service.queue.modules,
    m.KeepsReply service.settings)

include hOwn hSpeaks hPolicy hKeeps

/- A message that was asked for, and what comes after it. -/
theorem exists_tells_message
    (hPhase : s.dialog.phase = .data)
    (hOpen : s.dialog.context.spoolOpen = true)
    (hUnlimited : s.dialog.outbound.writes = none)
    (hSettings : s.dialog.context.settings = service.settings)
    (hHostname : s.dialog.context.hostname = service.hostname)
    (hProper : s.dialog.transaction.IsProper allowed)
    {data : Bytes}
    (hInput : s.input = ⟨data, .closed⟩)
    (hLater :
      ∀ (after : Station) (later : Bytes),
        after.Listens service allowed →
        after.input = ⟨later, .closed⟩ →
        later.length < data.length →
        IsAnswered service allowed after later) :
    ∃ answers,
      Tells service allowed s answers ∧
        ∀ (line : Bytes) (answer : Answer),
          Fits line →
          Answers service.settings service.hostname
            (.ofBytes line) answer →
          Command.ofBytes line = .data →
          answer.code = 354 →
          Converses LeavesPiece service (line :: lines data)
            (answer :: answers) := by
  cases hSplit : splitMessage? data with
  | none =>
      have hRead : readMessage s.input = .ended .closed := by
        rw [hInput, readMessage_eq, hSplit]
      refine ⟨[], .of_unfinished hPhase hOpen hRead, ?_⟩
      intro line answer hFits hAnswers hData hCode
      exact .unfinished hFits hAnswers hData hCode
        (not_isTerminator_of_splitMessage? hSplit)
  | some parts =>
      rcases parts with ⟨before, later⟩
      have hRest :
          (readMessage s.input).rest? =
            some ⟨later, .closed⟩ := by
        rw [rest?_readMessage, hInput, hSplit]
        rfl
      rcases exists_messageTurn hPhase hOpen hUnlimited hRest with
        ⟨after, hTurn, hAfter, hSent, hGoesOn⟩
      have hShorter := length_of_turn hTurn
      rw [hAfter, hInput] at hShorter
      rcases hLater after later (hGoesOn hSettings hHostname)
          hAfter hShorter with
        ⟨answers, hTells, hConverses⟩
      have hReply :=
        isProper_replyTo hOwn hSpeaks.settings hPolicy hKeeps
          hSpeaks.modules hRest hProper s.world
      refine ⟨_, hTells.prepend hTurn hSent hReply, ?_⟩
      intro line answer hFits hAnswers hData hCode
      rcases exists_lines_of_splitMessage? hSplit with
        ⟨last, hLines, hEnds, hBefore⟩
      rw [hLines]
      exact .message _ hFits hAnswers hData hCode hBefore hEnds
        hConverses

/- A command line, and what comes after it. -/
theorem isAnswered_command
    (hListens : s.Listens service allowed)
    {data line rest : Bytes}
    (hLines : lines data = line :: lines rest)
    (hFits : Fits line)
    (hRead : readCommand s.input = .line line ⟨rest, .closed⟩)
    (hLater :
      ∀ (after : Station) (later : Bytes),
        after.Listens service allowed →
        after.input = ⟨later, .closed⟩ →
        later.length ≤ rest.length →
        IsAnswered service allowed after later) :
    IsAnswered service allowed s data := by
  rcases exists_commandTurn hListens hRead with
    ⟨answer, next, hTurn, hNext, hOutbound, hReacts⟩
  have hUnlimited : next.dialog.outbound.writes = none := by
    rw [hOutbound]
  have hAnswers := hReacts.answers
  rw [hListens.settings, hListens.hostname] at hAnswers
  unfold IsAnswered
  rw [hLines]
  by_cases hQuit : Command.ofBytes line = .quit
  · have hOver :=
      (hReacts.quits hListens.awaits.phase).mpr hQuit
    have hTold : Tells service allowed s [answer] :=
      .of_command hOwn hSpeaks hTurn hOutbound hAnswers
        (.of_quit hOver)
    have hCode : answer.code = 221 := by
      rw [hQuit] at hAnswers
      exact hAnswers.code_of_quit
    exact ⟨_, hTold, .quit _ hFits hAnswers hQuit hCode⟩
  · by_cases hCode : answer.code = 354
    · rcases hReacts.opens hCode with ⟨hPhase, hOpen⟩
      rcases exists_tells_message hOwn hSpeaks hPolicy hKeeps
          hPhase hOpen hUnlimited
          (hReacts.settings.trans hListens.settings)
          (hReacts.hostname.trans hListens.hostname)
          (hListens.isProper_of_reacts hReacts) hNext
          (fun after later hAfter hInput hShorter =>
            hLater after later hAfter hInput
              (Nat.le_of_lt hShorter)) with
        ⟨answers, hTells, hConverses⟩
      have hTold : Tells service allowed s (answer :: answers) :=
        .of_command hOwn hSpeaks hTurn hOutbound hAnswers hTells
      exact ⟨_, hTold,
        hConverses line answer hFits hAnswers
          (hAnswers.data_of_code hCode) hCode⟩
    · rcases hLater next rest
          (hListens.of_reacts hReacts hUnlimited hQuit hCode)
          hNext (Nat.le_refl _) with
        ⟨answers, hTells, hConverses⟩
      have hTold : Tells service allowed s (answer :: answers) :=
        .of_command hOwn hSpeaks hTurn hOutbound hAnswers hTells
      exact ⟨_, hTold,
        .command hFits hAnswers hQuit hCode hConverses⟩

/-
  A client that sends whatever it likes and then closes the
  connection is answered line by line.
-/
theorem isAnswered_of_listens
    (hListens : s.Listens service allowed)
    {data : Bytes}
    (hInput : s.input = ⟨data, .closed⟩) :
    IsAnswered service allowed s data := by
  induction hLength : data.length using Nat.strong_induction_on
    generalizing s data with
  | _ length ih =>
      subst hLength
      rcases readCommand_cases data with
        ⟨rfl, hRead⟩
          | ⟨line, rest, hLines, hFits, hRead⟩
          | ⟨line, rest, hLines, hLine, hLong, hRead⟩
          | ⟨hLines, hCut, ⟨hPiece, hRead⟩ | ⟨hNone, hRead⟩⟩
      · rw [← hInput] at hRead
        exact ⟨[], .of_gone hListens (Or.inl hRead), .closed⟩
      · have hShorter := length_of_readCommand_line hRead
        rw [← hInput] at hRead
        apply isAnswered_command hOwn hSpeaks hPolicy hKeeps
          hListens hLines hFits hRead
        intro after later hAfter hRest hMore
        exact ih _ (Nat.lt_of_le_of_lt hMore hShorter) hAfter
          hRest rfl
      · have hShorter := length_of_readCommand_tooLong hRead
        rw [← hInput] at hRead
        rcases exists_tells_overlong hOwn hListens hRead
            (fun after hAfter hRest =>
              ih _ hShorter hAfter hRest rfl) with
          ⟨answers, hTells, hConverses⟩
        refine ⟨_, hTells, ?_⟩
        rw [hLines]
        exact .overlong hLine hLong hConverses
      · have hShorter := length_of_readCommand_tooLong hRead
        rw [← hInput] at hRead
        rcases exists_tells_overlong hOwn hListens hRead
            (fun after hAfter hRest =>
              ih _ hShorter hAfter hRest rfl) with
          ⟨answers, hTells, hConverses⟩
        cases hConverses
        refine ⟨_, hTells, ?_⟩
        rw [hLines]
        exact .stray hCut hPiece
      · rw [← hInput] at hRead
        refine ⟨[], .of_gone hListens (Or.inr hRead), ?_⟩
        rw [hLines]
        exact .cutOff hCut hNone

end Turns

/- A client that was greeted is listened to. -/
theorem listens_opening
    (service : Service)
    (allowed : String → Prop)
    (input : Inbound)
    (w : World) :
    (opening service input none w).input = input ∧
      (opening service input none w).Listens service allowed ∧
      (opening service input none
          w).dialog.outbound.written =
        (greeting service).sent := by
  rcases hCreate :
      Context.create service.settings service.hostname w with
    ⟨context, created⟩
  rcases Dialog.exists_send
      [(⟨.serviceReady, service.hostname ++ " spmfilter"⟩ :
        Reply).render]
      (d := { context := context, outbound := {} })
      rfl created with
    ⟨after, hSend⟩
  simp only [opening, hCreate, Dialog.reply, hSend]
  cases hCreate
  refine ⟨trivial, ⟨⟨by simp, rfl⟩, rfl, rfl, rfl, ?_⟩, rfl⟩
  exact .of_undecided rfl

end Station

------------------------------------------------------------
-- Whole Connections
------------------------------------------------------------

/- A connection without a failure is a conversation. -/
theorem exists_converses_run
    {service : Service}
    (hPolicy : service.queue.policy = policy)
    (hKeeps :
      ∀ m ∈ service.queue.modules,
        m.KeepsReply service.settings)
    (data : Bytes)
    (w : World) :
    ∃ answers written,
      (run service ⟨data, .closed⟩ none w).1 =
          (.ok (), written) ∧
        written.reverse =
          (greeting service :: answers).flatMap
            Answer.sent ∧
        Converses LeavesPiece service (lines data) answers ∧
        (∀ answer ∈ answers,
          200 ≤ answer.code ∧ answer.code ≤ 599) ∧
        (service.Speaks Text.IsPlain →
          ∀ line ∈ written, IsReplyLine line) := by
  -- Nothing is said of the texts of other services.
  let allowed : String → Prop := fun text =>
    service.Speaks Text.IsPlain → Text.IsPlain text
  have hOwn : OwnTexts allowed :=
    isPlain_ownTexts.mono fun _ hPlain _ => hPlain
  have hSpeaks : service.Speaks allowed :=
    service.speaks_imp Text.IsPlain
  rcases Station.listens_opening service allowed
      ⟨data, .closed⟩ w with
    ⟨hInput, hListens, hGreeting⟩
  rcases Station.isAnswered_of_listens hOwn hSpeaks hPolicy
      hKeeps hListens hInput with
    ⟨answers, hTells, hConverses⟩
  have hUnlimited : (none : Option Nat) ≠ some 0 := by
    simp
  have hRun := run_apply service ⟨data, .closed⟩ hUnlimited w
  rw [hTells.ends] at hRun
  have hWritten := hTells.written
  rw [hGreeting] at hWritten
  refine ⟨answers, _, hRun, ?_, hConverses, ?_, ?_⟩
  · rw [hWritten]
    rfl
  · intro answer hMem
    exact (hTells.proper answer hMem).isReplyCode
  · intro hPlain line hMem
    rw [← List.mem_reverse, hWritten] at hMem
    rcases List.mem_append.mp hMem with hFirst | hLater
    · have hGreeting :
          (greeting service).IsProper Text.IsPlain :=
        ⟨(by decide : Status.IsReplyCode .serviceReady),
          Text.isPlain_append hPlain.hostname (by decide)⟩
      exact hGreeting.isReplyLine (by simpa using hFirst)
    · rcases List.mem_flatMap.mp hLater with
        ⟨answer, hAnswer, hLine⟩
      have hProper :=
        (hTells.proper answer hAnswer).mono
          fun text hText => hText hPlain
      exact hProper.isReplyLine hLine

/-
  Whatever a client sends before it closes the connection, it
  is greeted and then answered line by line, in order, and
  once, with codes of replies. What is sent are single lines
  if no text in use has a line ending. A last line that was
  not ended makes the only difference: it may be answered
  although it was too long. After QUIT nothing is read.
-/
theorem converses_run
    {service : Service}
    (hPolicy : service.queue.policy = policy)
    (hKeeps :
      ∀ m ∈ service.queue.modules,
        m.KeepsReply service.settings)
    (data : Bytes)
    (w : World) :
    (∃ answers written,
        (run service ⟨data, .closed⟩ none w).1 =
            (.ok (), written) ∧
          written.reverse =
            (greeting service :: answers).flatMap Answer.sent ∧
          Converses LeavesPiece service (lines data) answers ∧
          ((∀ line ∈ lines data,
                IsCutOff line → ¬ LeavesPiece line) →
            Converses (fun _ => False) service (lines data)
              answers) ∧
          (∀ answer ∈ answers,
            200 ≤ answer.code ∧ answer.code ≤ 599) ∧
          (service.Speaks Text.IsPlain →
            ∀ line ∈ written, IsReplyLine line)) ∧
      ∀ history answer s,
        (Station.opening service ⟨data, .closed⟩ none w).Reaches
            service (.command .quit answer :: history) s →
        s.resume service = ((.ok (), s.dialog), s.world) := by
  constructor
  · rcases exists_converses_run hPolicy hKeeps data w with
      ⟨answers, written, hRun, hWritten, hConverses, hCodes,
        hLines⟩
    refine ⟨answers, written, hRun, hWritten, hConverses, ?_,
      hCodes, hLines⟩
    intro hNone
    apply hConverses.congr
    intro line hMem hCut
    exact iff_of_false (hNone line hMem hCut) id
  · intro history answer s hReaches
    cases hReaches with
    | step _ hTurn => exact Station.resume_of_quit hTurn

/- A client that gets a message taken and then quits. -/
def takenTalk : Bytes :=
  ["EHLO c", "FOO", "MAIL FROM:<a@x>", "RCPT TO:<b@x>", "DATA",
    "", ".", "QUIT", "NOOP"].flatMap sentLine

/- Of nine lines all but three are answered, one by three lines. -/
theorem converses_taken :
    ∃ answers written,
      (run takingService ⟨takenTalk, .closed⟩ none
          { files := { directories := ["/q"] } }).1 =
        (.ok (), written) ∧
        written.length = 10 ∧
        (∀ line ∈ written, IsReplyLine line) ∧
        Converses (fun _ => False) takingService
          (lines takenTalk) answers := by
  have hSpeaks : takingService.Speaks Text.IsPlain := by
    refine ⟨by decide, ⟨?_, by decide⟩, ?_⟩
    · intro status text hText
      cases hText
    · intro m hMem t files hBefore
      cases List.mem_singleton.mp hMem
      exact hBefore
  have hEnded :
      ∀ line ∈ lines takenTalk,
        IsCutOff line → ¬ LeavesPiece line := by
    intro line hMem hCut
    have hShort :
        ∀ line ∈ lines takenTalk,
          line.length < maxCommandLine := by
      decide +kernel
    exact absurd hCut.2 (Nat.not_le_of_lt (hShort line hMem))
  have hLength :
      (run takingService ⟨takenTalk, .closed⟩ none
        { files := { directories := ["/q"] } }).1.2.length =
        10 := by
    decide +kernel
  rcases (converses_run rfl keepsReply_taking takenTalk
      { files := { directories := ["/q"] } }).1 with
    ⟨answers, written, hRun, -, -, hConverses, -, hLines⟩
  rw [hRun] at hLength
  exact ⟨answers, written, hRun, hLength, hLines hSpeaks,
    hConverses hEnded⟩

/- One byte more than a command line may have. -/
def longFragment : Bytes :=
  List.replicate 513 65

/-
  A client that sends no more than that is told that the line
  is too long, although the line did not end.
-/
theorem not_converses_cutOff :
    ¬ ∃ answers,
      (run plainService ⟨longFragment, .closed⟩ none
          {}).1.2.reverse =
        (greeting plainService :: answers).flatMap Answer.sent ∧
        Converses (fun _ => False) plainService
          (lines longFragment) answers := by
  rintro ⟨answers, hWritten, hConverses⟩
  have hNone : lf ∉ longFragment := by
    intro hMem
    exact absurd (List.eq_of_mem_replicate hMem) (by decide)
  have hSize : longFragment.length = 513 :=
    List.length_replicate
  have hSome : longFragment ≠ [] := by
    intro hNil
    rw [hNil] at hSize
    cases hSize
  have hCut : IsCutOff longFragment := by
    refine ⟨hNone, ?_⟩
    rw [hSize]
    decide
  have hLength :
      (run plainService ⟨longFragment, .closed⟩ none
        {}).1.2.reverse.length = 2 := by
    decide +kernel
  rw [lines_of_lf_not_mem hNone hSome] at hConverses
  rw [hWritten, hConverses.eq_nil_of_cutOff hCut id] at hLength
  cases hLength

end MailFilter.Smtp
