import MailFilter.Proofs.Run
import MailFilter.Smtp.Connection

/-
  A client connection as a sequence of turns.

  A station is a connection between two turns: what the client
  is still going to send, how the dialogue stands, and the
  world. In one turn a command line is read and answered, or
  the message that follows a DATA command. Serving a client is
  taking turns up to the end.

  Key definitions include:
    * `Smtp.Exchange`
    * `Smtp.Station`
    * `Smtp.Turn.world`
    * `Smtp.Station.turn`
    * `Smtp.Station.resume`
    * `Smtp.Station.opening`
    * `Smtp.Station.Reaches`
    * `Smtp.Station.take`
    * `Smtp.Dialog.conclude`
    * `Smtp.IsNew`
    * `Smtp.replyTo`

  Main statements:
    * `Smtp.receive_of_rest`
    * `Smtp.Station.resume_eq`
    * `Smtp.Station.resume_eq_of_reaches`
    * `Smtp.Station.turn_cases`
    * `Smtp.Station.of_messageTurn_eq_next`
    * `Smtp.Station.exists_step_of_commandTurn`
    * `Smtp.Station.of_commandTurn_eq_next`
    * `Smtp.run_apply`
-/

namespace MailFilter.Smtp

open World

------------------------------------------------------------
-- Turns
------------------------------------------------------------

/- What client and server exchange in one turn. -/
inductive Exchange where
  /- A command and the answer to it, which was sent. -/
  | command (command : Command) (answer : Answer)
  /- A command line that was too long. -/
  | overlong
  /- A message that was received and replied to. -/
  | message (read : MessageRead)
deriving DecidableEq

/- A connection between two turns. -/
structure Station where
  input : Inbound
  dialog : Dialog
  world : World

/- How a turn ends. -/
inductive Turn where
  /- The connection is over. -/
  | over (progress : Progress) (world : World)
  /- The connection goes on. -/
  | next (exchange : Exchange) (station : Station)

namespace Turn

/- The world that is left after a turn. -/
def world : Turn → World
  | .over _ w => w
  | .next _ s => s.world

/-
  Go on with what is left of the input if nothing failed. If
  there is nothing left the connection is over.
-/
def proceed
    (exchange : Exchange)
    (rest? : Option Inbound) :
    Progress × World → Turn
  | ((.error e, d), w) => .over (.error e, d) w
  | ((.ok (), d), w) =>
      match rest? with
      | none => .over (.ok (), d) w
      | some rest => .next exchange ⟨rest, d, w⟩

@[simp]
theorem world_proceed
    (exchange : Exchange)
    (rest? : Option Inbound)
    (progress : Progress × World) :
    (proceed exchange rest? progress).world = progress.2 := by
  rcases progress with ⟨⟨result, d⟩, w⟩
  cases result with
  | error e => rfl
  | ok done => cases rest? <;> rfl

end Turn

namespace Station

/- Read a message, deal with it and reply to it. -/
def messageTurn
    (service : Service)
    (s : Station) : Turn :=
  let read := readMessage s.input
  .proceed (.message read) read.rest?
    (receive service read s.dialog s.world)

/- What a command is carried out to. -/
def outcome
    (command : Command)
    (d : Dialog) : Run (Phase × Context × Answer) := do
  emit {
    span := .incoming
    transaction := some d.transaction.id
    text := command.render }
  d.phase.step command d.context

/- Carry out a command and answer it. -/
def answerTurn
    (command : Command)
    (rest : Inbound)
    (d : Dialog)
    (w : World) : Turn :=
  let ((phase, context, answer), w) := outcome command d w
  .proceed (.command command answer) (some rest)
    (Dialog.send ⟨phase, context, d.outbound⟩ answer.lines w)

/- Read a command line and answer it. -/
def commandTurn
    (s : Station) : Turn :=
  let d := s.dialog
  match readCommand s.input with
  | .ended ending =>
      let (progress, w) := d.lose ending s.world
      .over progress w
  | .tooLong (.ended ending) =>
      let (progress, w) :=
        d.lose ending (noteTooLong d s.world).2
      .over progress w
  | .tooLong (.through rest) =>
      .proceed .overlong (some rest)
        (d.reply Refusal.lineTooLong (noteTooLong d s.world).2)
  | .line line rest =>
      answerTurn (.ofBytes line) rest d s.world

/-
  The next turn. After QUIT there is none. While a spool file
  is open it is that of the message.
-/
def turn
    (service : Service)
    (s : Station) : Turn :=
  if s.dialog.phase = .quit then .over (.ok (), s.dialog) s.world
  else if s.dialog.context.spoolOpen then s.messageTurn service
  else s.commandTurn

/- Serve the client from here up to the end. -/
def resume
    (service : Service)
    (s : Station) : Progress × World :=
  if s.dialog.phase = .quit then ((.ok (), s.dialog), s.world)
  else if s.dialog.context.spoolOpen then
    let read := readMessage s.input
    match receive service read s.dialog s.world with
    | ((.error e, d), w) => ((.error e, d), w)
    | ((.ok (), d), w) =>
        match read.rest? with
        | none => ((.ok (), d), w)
        | some rest => serve service rest d w
  else serve service s.input s.dialog s.world

/- The rest of the connection after a turn. -/
def finish
    (service : Service) : Turn → Progress × World
  | .over progress w => (progress, w)
  | .next _ s => s.resume service

/-
  What happened between two stations, with the newest
  exchange first.
-/
inductive Reaches
    (service : Service)
    (first : Station) : List Exchange → Station → Prop where
  | refl : Reaches service first [] first
  | step
      {history : List Exchange}
      {s next : Station}
      {exchange : Exchange} :
      Reaches service first history s →
      s.turn service = .next exchange next →
      Reaches service first (exchange :: history) next

end Station

------------------------------------------------------------
-- Sending
------------------------------------------------------------

/- Sending lines changes nothing but what was sent. -/
theorem Dialog.send_apply
    (lines : List String)
    (d : Dialog)
    (w : World) :
    (d.send lines w).1.2.phase = d.phase ∧
      (d.send lines w).1.2.context = d.context ∧
      (d.send lines w).2.files = w.files := by
  induction lines generalizing d w with
  | nil => exact ⟨rfl, rfl, rfl⟩
  | cons line rest ih =>
      simp only [send, Run.bind_apply]
      unfold write
      split
      · exact ⟨rfl, rfl, rfl⟩
      · exact ih _ _

------------------------------------------------------------
-- Replying To A Message
------------------------------------------------------------

/- Reply to a message and get ready for the next one. -/
def Dialog.conclude
    (d : Dialog)
    (reply : Reply) : Run Progress := do
  match ← d.reply reply with
  | (.error e, d) => return (.error e, d)
  | (.ok (), d) => return (.ok (), ← d.nextTransaction)

/-
  A transaction of which nothing is known but who the client
  is.
-/
def IsNew
    (t : Transaction) : Prop :=
  ∃ id helo address,
    t = { id := id, helo := helo, xforwardAddr := address }

/-
  A dialogue after a reply to a message. All that is left of
  the transaction is who the client is.
-/
theorem Dialog.exists_of_conclude
    {d after : Dialog}
    {reply : Reply}
    {w w' : World}
    (hNext : d.conclude reply w = ((.ok (), after), w')) :
    ∃ id,
      after.phase = .helo ∧
        after.context =
          { d.context with
            transaction := {
              id := id
              helo := d.transaction.helo
              xforwardAddr := d.transaction.xforwardAddr } } := by
  have hContext := (d.send_apply [reply.render] w).2.1
  simp only [conclude, Run.bind_apply, Dialog.reply] at hNext
  rcases hSend : d.send [reply.render] w with ⟨⟨result, sent⟩, w''⟩
  rw [hSend] at hNext hContext
  cases result with
  | error e => cases hNext
  | ok done =>
      cases hNext
      have hSame : sent.context = d.context := hContext
      refine ⟨w''.transactions, rfl, ?_⟩
      change _ =
        { d.context with
          transaction := {
            id := w''.transactions
            helo := d.context.transaction.helo
            xforwardAddr :=
              d.context.transaction.xforwardAddr } }
      rw [← hSame]
      rfl

/- Deal with a message that ended. Gives the reply to it. -/
def replyTo
    (service : Service)
    (read : MessageRead)
    (t : Transaction) : Run (Reply × Transaction) :=
  match read with
  | .complete lines _ => receiveLines service lines t
  | _ => do
      sayOf .warn t
        ("Message has a line longer than " ++
          toString maxDataLine ++ " bytes")
      Spool.remove t.envelope.messageFile
      return (Refusal.lineTooLong, t)

/- A dialogue whose spool file is closed. -/
def Dialog.closed
    (d : Dialog) : Dialog :=
  { d with context := { d.context with spoolOpen := false } }

/- A message that ended is dealt with and then replied to. -/
theorem receive_of_rest
    (service : Service)
    {read : MessageRead}
    {rest : Inbound}
    (hRest : read.rest? = some rest)
    (d : Dialog)
    (w : World) :
    receive service read d w =
      (d.closed.withTransaction
          (replyTo service read d.transaction w).1.2).conclude
          (replyTo service read d.transaction w).1.1
          (replyTo service read d.transaction w).2 := by
  cases read with
  | ended ending => cases hRest
  | tooLong more => rfl
  | complete lines more => rfl

/- What is left when a message was received. -/
theorem exists_of_receive
    {service : Service}
    {read : MessageRead}
    {d after : Dialog}
    {w w' : World}
    (hReceive :
      receive service read d w = ((.ok (), after), w'))
    {rest : Inbound}
    (hRest : read.rest? = some rest) :
    ∃ id,
      after.phase = .helo ∧
        after.context =
          { d.context with
            transaction := {
              id := id
              helo :=
                (replyTo service read d.transaction w).1.2.helo
              xforwardAddr :=
                (replyTo service read d.transaction
                  w).1.2.xforwardAddr }
            spoolOpen := false } := by
  rw [receive_of_rest service hRest] at hReceive
  exact Dialog.exists_of_conclude hReceive

theorem receive_of_ok
    {service : Service}
    {read : MessageRead}
    {d after : Dialog}
    {w w' : World}
    (hReceive :
      receive service read d w = ((.ok (), after), w'))
    {rest : Inbound}
    (hRest : read.rest? = some rest) :
    after.phase = .helo ∧
      after.context.spoolOpen = false ∧
      IsNew after.transaction := by
  rcases exists_of_receive hReceive hRest with
    ⟨id, hPhase, hContext⟩
  rw [Dialog.transaction, hContext]
  exact ⟨hPhase, rfl, id, _, _, rfl⟩

------------------------------------------------------------
-- Serving As Taking Turns
------------------------------------------------------------

namespace Station

/- Between two commands, resuming is serving. -/
theorem resume_of_closed
    (service : Service)
    {s : Station}
    (hPhase : s.dialog.phase ≠ .quit)
    (hClosed : s.dialog.context.spoolOpen = false) :
    s.resume service =
      serve service s.input s.dialog s.world := by
  unfold resume
  rw [if_neg hPhase, if_neg (by simp [hClosed])]

theorem resume_messageTurn
    (service : Service)
    {s : Station}
    (hPhase : s.dialog.phase ≠ .quit)
    (hOpen : s.dialog.context.spoolOpen = true) :
    s.resume service =
      finish service (s.messageTurn service) := by
  unfold resume messageTurn
  rw [if_neg hPhase, if_pos hOpen]
  dsimp only
  rcases hReceive :
      receive service (readMessage s.input) s.dialog s.world with
    ⟨⟨result, d⟩, w⟩
  cases result with
  | error e => rfl
  | ok done =>
      cases hRest : (readMessage s.input).rest? with
      | none => rfl
      | some rest =>
          rcases receive_of_ok hReceive hRest with
            ⟨hHelo, hClosed, _⟩
          exact (resume_of_closed service (s := ⟨rest, d, w⟩)
            (by simp [hHelo]) hClosed).symm

theorem answerLine_of_outcome
    {line : Bytes}
    {d : Dialog}
    {w between : World}
    {phase : Phase}
    {context : Context}
    {answer : Answer}
    (hOutcome :
      outcome (.ofBytes line) d w =
        ((phase, context, answer), between)) :
    answerLine line d w =
      Dialog.send ⟨phase, context, d.outbound⟩ answer.lines
        between := by
  simp only [outcome, Run.bind_apply] at hOutcome
  simp only [answerLine, Run.bind_apply]
  rw [hOutcome]

theorem resume_commandTurn
    (service : Service)
    {s : Station}
    (hPhase : s.dialog.phase ≠ .quit)
    (hClosed : s.dialog.context.spoolOpen = false) :
    s.resume service =
      finish service s.commandTurn := by
  rw [resume_of_closed service hPhase hClosed, serve]
  unfold commandTurn
  cases readCommand s.input with
  | ended ending => rfl
  | tooLong after =>
      cases after with
      | ended ending => rfl
      | through rest =>
          have hSame :=
            s.dialog.send_apply [Refusal.lineTooLong.render]
              (noteTooLong s.dialog s.world).2
          simp only [Run.bind_apply, Dialog.reply]
          rcases hSend :
              s.dialog.send [Refusal.lineTooLong.render]
                (noteTooLong s.dialog s.world).2 with
            ⟨⟨result, d⟩, w⟩
          rw [hSend] at hSame
          cases result with
          | error e => rfl
          | ok done =>
              symm
              apply resume_of_closed service (s := ⟨rest, d, w⟩)
              · rw [hSame.1]
                exact hPhase
              · rw [hSame.2.1]
                exact hClosed
  | line line rest =>
      rcases hOutcome :
          outcome (.ofBytes line) s.dialog s.world with
        ⟨⟨phase, context, answer⟩, between⟩
      simp only [Run.bind_apply, answerTurn, hOutcome,
        answerLine_of_outcome hOutcome]
      rcases Dialog.send ⟨phase, context, s.dialog.outbound⟩
          answer.lines between with
        ⟨⟨result, d⟩, w⟩
      cases result with
      | error e => rfl
      | ok done =>
          change _ = resume service ⟨rest, d, w⟩
          unfold resume
          dsimp only
          split
          · rfl
          · split
            · simp only [Run.bind_apply]
              rcases receive service (readMessage rest) d w with
                ⟨⟨result, d⟩, w⟩
              cases result with
              | error e => rfl
              | ok done =>
                  cases (readMessage rest).rest? with
                  | none => rfl
                  | some more => rfl
            · rfl

/- Serving a client is taking the next turn and going on. -/
theorem resume_eq
    (service : Service)
    (s : Station) :
    s.resume service = finish service (s.turn service) := by
  unfold turn
  split
  · rename_i hQuit
    unfold resume
    rw [if_pos hQuit]
    rfl
  · rename_i hPhase
    split
    · rename_i hOpen
      exact resume_messageTurn service hPhase hOpen
    · rename_i hClosed
      exact resume_commandTurn service hPhase
        (Bool.eq_false_iff.mpr hClosed)

/- Turns that were taken leave the rest of the connection. -/
theorem resume_eq_of_reaches
    {service : Service}
    {first s : Station}
    {history : List Exchange}
    (hReaches : first.Reaches service history s) :
    first.resume service = s.resume service := by
  induction hReaches with
  | refl => rfl
  | step _ hTurn ih =>
      rw [ih, resume_eq, hTurn]
      rfl

end Station

------------------------------------------------------------
-- Taking Turns
------------------------------------------------------------

namespace Station

/- Take turns, as long as there are any. -/
def take
    (service : Service) :
    Nat → List Exchange → Station → List Exchange × Station
  | 0, history, s => (history, s)
  | n + 1, history, s =>
      match s.turn service with
      | .over _ _ => (history, s)
      | .next exchange next =>
          take service n (exchange :: history) next

theorem reaches_take
    {service : Service}
    {first s : Station}
    {history : List Exchange}
    (hReaches : first.Reaches service history s)
    (n : Nat) :
    first.Reaches service (take service n history s).1
      (take service n history s).2 := by
  induction n generalizing history s with
  | zero => exact hReaches
  | succ n ih =>
      unfold take
      split
      · exact hReaches
      · rename_i exchange next hTurn
        exact ih (hReaches.step hTurn)

/- A turn that was taken. -/
theorem turn_of_take
    {service : Service}
    {s : Station}
    {exchange : Exchange}
    (hTaken : (take service 1 [] s).1 = [exchange]) :
    s.turn service = .next exchange (take service 1 [] s).2 := by
  unfold take at hTaken ⊢
  split at hTaken
  · cases hTaken
  · rename_i other next hTurn
    rw [hTurn]
    cases hTaken
    rfl

end Station

------------------------------------------------------------
-- What A Turn Can Do
------------------------------------------------------------

namespace Turn

theorem of_proceed_eq_next
    {exchange other : Exchange}
    {rest? : Option Inbound}
    {progress : Progress}
    {w : World}
    {next : Station}
    (hNext :
      proceed exchange rest? (progress, w) = .next other next) :
    exchange = other ∧
      rest? = some next.input ∧
      progress = (.ok (), next.dialog) ∧
      w = next.world := by
  rcases progress with ⟨result, d⟩
  cases result with
  | error e => cases hNext
  | ok done =>
      cases rest? with
      | none => cases hNext
      | some rest =>
          cases hNext
          exact ⟨rfl, rfl, rfl, rfl⟩

end Turn

namespace Station

variable {service : Service}
variable {s next : Station}
variable {exchange : Exchange}

/-
  A connection that goes on has received a message, if a spool
  file was open, or else has read a command line.
-/
theorem turn_cases
    (hTurn : s.turn service = .next exchange next) :
    (s.dialog.context.spoolOpen = true ∧
        s.messageTurn service = .next exchange next) ∨
      (s.dialog.context.spoolOpen = false ∧
        s.commandTurn = .next exchange next) := by
  unfold turn at hTurn
  split at hTurn
  · cases hTurn
  · split at hTurn
    · rename_i hOpen
      exact Or.inl ⟨hOpen, hTurn⟩
    · rename_i hClosed
      exact Or.inr ⟨Bool.eq_false_iff.mpr hClosed, hTurn⟩

/- A message that was replied to was received. -/
theorem exists_of_messageTurn
    (hTurn : s.messageTurn service = .next exchange next) :
    exchange = .message (readMessage s.input) ∧
      ∃ rest,
        (readMessage s.input).rest? = some rest ∧
          receive service (readMessage s.input) s.dialog
              s.world =
            ((.ok (), next.dialog), next.world) := by
  unfold messageTurn at hTurn
  dsimp only at hTurn
  rcases hReceive :
      receive service (readMessage s.input) s.dialog s.world with
    ⟨progress, w⟩
  rw [hReceive] at hTurn
  rcases Turn.of_proceed_eq_next hTurn with
    ⟨hExchange, hRest, rfl, rfl⟩
  exact ⟨hExchange.symm, next.input, hRest, rfl⟩

/- An open spool file is closed by the message for it. -/
theorem of_messageTurn_eq_next
    (hTurn : s.messageTurn service = .next exchange next) :
    exchange = .message (readMessage s.input) ∧
      next.dialog.phase = .helo ∧
      next.dialog.context.spoolOpen = false ∧
      IsNew next.dialog.transaction := by
  rcases exists_of_messageTurn hTurn with
    ⟨hExchange, rest, hRest, hReceive⟩
  exact ⟨hExchange, receive_of_ok hReceive hRest⟩

/- A command that was answered was read from a line. -/
theorem exists_line_of_commandTurn
    {command : Command}
    {answer : Answer}
    (hTurn :
      s.commandTurn = .next (.command command answer) next) :
    ∃ line rest,
      readCommand s.input = .line line rest ∧
        command = .ofBytes line := by
  unfold commandTurn at hTurn
  dsimp only at hTurn
  cases hRead : readCommand s.input with
  | ended ending =>
      rw [hRead] at hTurn
      cases hTurn
  | tooLong skip =>
      rw [hRead] at hTurn
      cases skip with
      | ended ending => cases hTurn
      | through rest =>
          cases (Turn.of_proceed_eq_next hTurn).1
  | line line rest =>
      rw [hRead] at hTurn
      unfold answerTurn at hTurn
      cases (Turn.of_proceed_eq_next hTurn).1
      exact ⟨line, rest, rfl, rfl⟩

/-
  A command that was answered was carried out. Around that
  nothing is done to the files.
-/
theorem exists_step_of_commandTurn
    {command : Command}
    {answer : Answer}
    (hTurn :
      s.commandTurn = .next (.command command answer) next) :
    ∃ before after,
      s.dialog.phase.step command s.dialog.context before =
          ((next.dialog.phase, next.dialog.context, answer),
            after) ∧
        before.files = s.world.files ∧
        next.world.files = after.files := by
  rcases exists_line_of_commandTurn hTurn with
    ⟨line, rest, hRead, rfl⟩
  unfold commandTurn at hTurn
  simp only [hRead, answerTurn, outcome, Run.bind_apply] at hTurn
  rcases hStep :
      s.dialog.phase.step (.ofBytes line) s.dialog.context
        (emit {
          span := .incoming
          transaction := some s.dialog.transaction.id
          text := (Command.ofBytes line).render }
          s.world).2 with
    ⟨⟨phase, context, given⟩, after⟩
  rw [hStep] at hTurn
  have hSame :=
    Dialog.send_apply given.lines
      ⟨phase, context, s.dialog.outbound⟩ after
  rcases Turn.of_proceed_eq_next hTurn with
    ⟨hExchange, _, hProgress, hWorld⟩
  cases hExchange
  rw [hProgress, hWorld] at hSame
  rcases hSame with ⟨hPhase, hContext, hFiles⟩
  dsimp only at hPhase hContext
  rw [← hPhase, ← hContext] at hStep
  exact ⟨_, after, hStep, rfl, hFiles⟩

/-
  A command line changes nothing if it is too long, and is
  carried out otherwise.
-/
theorem of_commandTurn_eq_next
    (hTurn : s.commandTurn = .next exchange next) :
    (exchange = .overlong ∧
        next.dialog.phase = s.dialog.phase ∧
        next.dialog.context = s.dialog.context) ∨
      ∃ command answer before after,
        exchange = .command command answer ∧
          s.dialog.phase.step command s.dialog.context before =
            ((next.dialog.phase, next.dialog.context, answer),
              after) := by
  cases hRead : readCommand s.input with
  | ended ending =>
      simp only [commandTurn, hRead] at hTurn
      cases hTurn
  | tooLong skip =>
      simp only [commandTurn, hRead] at hTurn
      cases skip with
      | ended ending => cases hTurn
      | through rest =>
          rcases Turn.of_proceed_eq_next hTurn with
            ⟨hExchange, _, hProgress, _⟩
          have hSame :=
            s.dialog.send_apply [Refusal.lineTooLong.render]
              (noteTooLong s.dialog s.world).2
          change (s.dialog.send [Refusal.lineTooLong.render]
            (noteTooLong s.dialog s.world).2).1 = _ at hProgress
          rw [hProgress] at hSame
          exact Or.inl
            ⟨hExchange.symm, hSame.1, hSame.2.1⟩
  | line line rest =>
      have hAnswer := hTurn
      simp only [commandTurn, hRead, answerTurn] at hAnswer
      cases (Turn.of_proceed_eq_next hAnswer).1
      rcases exists_step_of_commandTurn hTurn with
        ⟨before, after, hStep, _⟩
      exact Or.inr ⟨_, _, before, after, rfl, hStep⟩

/- Commands are carried out while no spool file is open. -/
theorem exists_step_of_turn
    {command : Command}
    {answer : Answer}
    (hTurn :
      s.turn service = .next (.command command answer) next) :
    s.dialog.context.spoolOpen = false ∧
      ∃ before after,
        s.dialog.phase.step command s.dialog.context before =
            ((next.dialog.phase, next.dialog.context, answer),
              after) ∧
          before.files = s.world.files ∧
          next.world.files = after.files := by
  rcases turn_cases hTurn with
    ⟨-, hMessage⟩ | ⟨hClosed, hCommand⟩
  · cases (of_messageTurn_eq_next hMessage).1
  · exact ⟨hClosed, exists_step_of_commandTurn hCommand⟩

end Station

------------------------------------------------------------
-- The Opening
------------------------------------------------------------

/- A new connection whose client has just been greeted. -/
def Station.opening
    (service : Service)
    (input : Inbound)
    (writes : Option Nat)
    (w : World) : Station :=
  let (context, w) :=
    Context.create service.settings service.hostname w
  let d : Dialog :=
    { context := context, outbound := { writes := writes } }
  let ((_, d), w) :=
    d.reply ⟨.serviceReady, service.hostname ++ " spmfilter"⟩ w
  ⟨input, d, w⟩

/- A new connection, in which only the greeting was sent. -/
theorem Station.context_opening
    (service : Service)
    (input : Inbound)
    (writes : Option Nat)
    (w : World) :
    (opening service input writes w).dialog.phase = .init ∧
      (opening service input writes w).dialog.context =
        ⟨service.settings, service.hostname,
            { id := w.transactions }, false⟩ ∧
      (opening service input writes w).world.files =
        w.files := by
  have hSame :=
    Dialog.send_apply
      [(⟨.serviceReady, service.hostname ++ " spmfilter"⟩ :
        Reply).render]
      { context :=
          (Context.create service.settings service.hostname w).1
        outbound := { writes := writes } }
      (Context.create service.settings service.hostname w).2
  exact ⟨hSame.1, hSame.2.1, hSame.2.2⟩

theorem Station.opening_apply
    (service : Service)
    (input : Inbound)
    (writes : Option Nat)
    (w : World) :
    (opening service input writes w).dialog.phase = .init ∧
      (opening service input writes
          w).dialog.context.spoolOpen = false ∧
      (opening service input writes w).dialog.transaction =
        { id := w.transactions } := by
  rcases context_opening service input writes w with
    ⟨hPhase, hContext, -⟩
  rw [Dialog.transaction, hContext]
  exact ⟨hPhase, rfl, rfl⟩

/- A line is sent as long as lines can be sent. -/
theorem Dialog.reply_of_writes
    {d : Dialog}
    (hWrites : d.outbound.writes ≠ some 0)
    (reply : Reply)
    (w : World) :
    (d.reply reply w).1.1 = .ok () := by
  simp only [Dialog.reply, send, Run.bind_apply]
  unfold write
  split
  · rename_i hNone
    exact absurd hNone hWrites
  · rfl

/-
  A client that can be greeted is served from the opening, and
  then its spool file is closed.
-/
theorem exists_run_apply
    (service : Service)
    (input : Inbound)
    {writes : Option Nat}
    (hWrites : writes ≠ some 0)
    (w : World) :
    ∃ progress between after,
      (Station.opening service input writes w).resume service =
          (progress, between) ∧
        run service input writes w =
          ((progress.1, progress.2.outbound.written), after) ∧
        after.files =
          (progress.2.context.closeSpool between).2.files := by
  rcases Station.opening_apply service input writes w with
    ⟨hPhase, hClosed, _⟩
  rw [Station.resume_of_closed service (by simp [hPhase])
    hClosed]
  rcases hCreate :
      Context.create service.settings service.hostname w with
    ⟨context, created⟩
  have hSent :=
    Dialog.reply_of_writes
      (d := { context := context, outbound := { writes := writes } })
      hWrites ⟨.serviceReady, service.hostname ++ " spmfilter"⟩
      created
  rcases hReply :
      Dialog.reply
        { context := context, outbound := { writes := writes } }
        ⟨.serviceReady, service.hostname ++ " spmfilter"⟩
        created with
    ⟨⟨result, d⟩, greeted⟩
  rw [hReply] at hSent
  cases hSent
  have hOpening :
      Station.opening service input writes w =
        ⟨input, d, greeted⟩ := by
    simp only [Station.opening, hCreate, hReply]
  rw [hOpening]
  simp only [run, greetAndServe, Run.bind_apply, hCreate, hReply]
  rcases serve service input d greeted with ⟨⟨ended, last⟩, w'⟩
  cases ended with
  | error e => exact ⟨_, _, _, rfl, rfl, rfl⟩
  | ok done => exact ⟨_, _, _, rfl, rfl, rfl⟩

theorem run_apply
    (service : Service)
    (input : Inbound)
    {writes : Option Nat}
    (hWrites : writes ≠ some 0)
    (w : World) :
    (run service input writes w).1 =
      ((((Station.opening service input writes w).resume
            service).1.1),
          ((Station.opening service input writes w).resume
            service).1.2.outbound.written) := by
  rcases exists_run_apply service input hWrites w with
    ⟨progress, between, after, hResume, hRun, -⟩
  rw [hResume, hRun]

end MailFilter.Smtp
