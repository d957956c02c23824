import MailFilter.Proofs.Chain.Places
import MailFilter.Proofs.Smtp.Ending
import MailFilter.Proofs.Smtp.MessageTurn
import MailFilter.Proofs.Smtp.Transparency

/-
  Which files there are in the course of a client connection.

  While a spool file is open there may be one more file than
  before. However the message for it ends, that file is gone
  when the next command is read, and when the connection is
  over.

  Key definitions include:
    * `Smtp.Context.Places`
    * `Smtp.Station.Places`

  Main statements:
    * `Smtp.samePlaces_receive`
    * `Smtp.Phase.places_step`
    * `Smtp.Station.places_of_reaches`
    * `Smtp.samePlaces_run`
-/

namespace MailFilter.Smtp

open World

variable {skip : Path → Prop}
variable {base : Files}

------------------------------------------------------------
-- Receiving
------------------------------------------------------------

/- A message that is too large is removed at once. -/
theorem Receiver.places_finish
    (receiver : Receiver)
    (maxSize : Nat)
    {w : World}
    (hMore : Files.OneMore skip receiver.path base w.files)
    (hRemoval : base.LetsRemove) :
    ∃ result after,
      receiver.finish maxSize w = (result, after) ∧
        match result with
        | .error _ =>
            Files.OneMore skip receiver.path base after.files
        | .ok (.tooLarge _) =>
            Files.SamePlaces skip base after.files
        | .ok (.received received) =>
            received.path = receiver.path ∧
              Files.OneMore skip receiver.path base
                after.files := by
  have hWritten :=
    hMore.trans
      (Spool.samePlaces_store receiver.path receiver.content w)
  simp only [finish, Run.bind_apply]
  rcases hWrite :
      Spool.store receiver.path receiver.content w with
    ⟨result, written⟩
  rw [hWrite] at hWritten
  cases result with
  | error e => exact ⟨_, _, rfl, hWritten⟩
  | ok done =>
      dsimp only
      split
      · refine ⟨_, _, rfl, ?_⟩
        exact Spool.samePlaces_of_remove hWritten hRemoval
      · exact ⟨_, _, rfl, rfl, hWritten⟩

/- Completing a message concerns its spool file only. -/
theorem Completion.samePlaces_apply
    (completion : Completion)
    (queueDir : String)
    {received : Received}
    (hPath : skip received.path)
    {w : World}
    (hFresh : w.files.IsFresh skip)
    (hRemoval : w.files.LetsRemove) :
    Files.SamePlaces skip w.files
      (completion.apply queueDir received w).2.files := by
  have hReplace :
      ∀ (parts : List Bytes) (between : World),
        between.files = w.files →
        Files.SamePlaces skip w.files
          (Spool.replace queueDir received.path parts
            between).2.files := by
    intro parts between hFiles
    rw [← hFiles] at hFresh hRemoval ⊢
    exact Spool.samePlaces_replace queueDir hPath parts hFresh
      hRemoval
  unfold apply
  split
  · rfl
  · simp only [Run.bind_apply, Spool.read_apply]
    cases w.files.read received.path with
    | error fault => rfl
    | ok raw =>
        simp only [Run.bind_apply, Run.get_apply]
        generalize hSaid : (say .debug _ w).2 = said
        generalize [_, _, _, _] = parts
        have hSame :=
          hReplace parts said (by rw [← hSaid]; rfl)
        rcases hDone :
            Spool.replace queueDir received.path parts said with
          ⟨result, after⟩
        rw [hDone] at hSame
        cases result with
        | error e => exact hSame
        | ok done => exact hSame

------------------------------------------------------------
-- Replying To A Message
------------------------------------------------------------

variable {service : Service}

/- Reading a completed message changes nothing more. -/
theorem samePlaces_loadReceived
    (service : Service)
    {received : Received}
    (hPath : skip received.path)
    (t : Transaction)
    {w : World}
    (hFresh : w.files.IsFresh skip)
    (hRemoval : w.files.LetsRemove) :
    Files.SamePlaces skip w.files
      (loadReceived service received t w).2.files := by
  have hApplied :=
    Completion.samePlaces_apply
      ⟨service.hostname, t.envelope.sender⟩
      service.settings.global.queueDir hPath hFresh hRemoval
  simp only [loadReceived, Run.bind_apply]
  rcases hApply : Completion.apply
      ⟨service.hostname, t.envelope.sender⟩
      service.settings.global.queueDir received w with
    ⟨result, applied⟩
  rw [hApply] at hApplied
  cases result with
  | error e => exact hApplied
  | ok written =>
      simp only [Spool.load_apply]
      exact hApplied

/- The chain gets a message whose path is skipped. -/
theorem samePlaces_processMessage
    (hSpares :
      service.queue.Spares service.settings skip base)
    {received : Received}
    (hPath : skip received.path)
    {t : Transaction}
    (hFile : t.envelope.messageFile = received.path)
    {w : World}
    (hSame : Files.SamePlaces skip base w.files) :
    Files.SamePlaces skip base
      (processMessage service received t w).2.files := by
  simp only [processMessage, Run.bind_apply]
  generalize hSaid : (sayOf .debug t _ w).2 = said
  have hFiles : said.files = w.files := by rw [← hSaid]; rfl
  rw [← hFiles] at hSame
  have hLoaded :=
    hSame.trans
      (samePlaces_loadReceived service hPath t
        (hSame.isFresh hSpares.fresh)
        (hSame.removal hSpares.removal))
  rcases hLoad : loadReceived service received t said with
    ⟨result, loaded⟩
  rw [hLoad] at hLoaded
  cases result with
  | error e => exact hLoaded
  | ok message =>
      have hProcessed :=
        (Queue.samePlaces_process hSpares
          (t := t.withMessage (some message))
          (by rw [← hFile] at hPath; exact hPath) hLoaded).2
      simp only [Run.bind_apply]
      rcases hProcess :
          service.queue.process service.settings
            (t.withMessage (some message)) loaded with
        ⟨⟨result, processed⟩, after⟩
      rw [hProcess] at hProcessed
      cases result with
      | error e => exact hProcessed
      | ok disposition => exact hProcessed

/- The spool file of a message that ended is gone. -/
theorem samePlaces_receiveLines
    (hSpares :
      service.queue.Spares service.settings skip base)
    (lines : List Bytes)
    {t : Transaction}
    {w : World}
    (hMore :
      Files.OneMore skip t.envelope.messageFile base w.files) :
    Files.SamePlaces skip base
      (receiveLines service lines t w).2.files := by
  let path := t.envelope.messageFile
  have hReceiver :
      (lines.foldl Receiver.takeLine { path := path }).path =
        path := by
    rw [Receiver.foldl_takeLine, Receiver.path_takeTexts]
  have hFinished :=
    Receiver.places_finish
      (lines.foldl Receiver.takeLine { path := path })
      service.settings.global.maxSize
      (by rw [hReceiver]; exact hMore) hSpares.removal
  rcases hFinished with ⟨result, finished, hFinish, hPlaces⟩
  rw [hReceiver] at hPlaces
  simp only [receiveLines, Run.bind_apply]
  rw [hFinish]
  cases result with
  | error e =>
      exact Spool.samePlaces_of_remove
        (w := (sayOf .error t e.text finished).2) hPlaces
        hSpares.removal
  | ok reception =>
      cases reception with
      | tooLarge size => exact hPlaces
      | received received =>
          rcases hPlaces with ⟨hPath, hMore⟩
          have hProcessed :
              Files.SamePlaces
                (fun other => skip other ∨ other = path) base
                (processMessage service received t finished
                  ).2.files := by
            apply samePlaces_processMessage
            · exact hSpares.mono fun _ => Or.inl
            · exact Or.inr hPath
            · exact hPath.symm
            · exact hMore.places
          simp only [Run.bind_apply, Run.pure_apply]
          rw [hPath]
          exact Spool.samePlaces_of_remove
            ⟨hProcessed, hMore.unused⟩ hSpares.removal

theorem samePlaces_replyTo
    (hSpares :
      service.queue.Spares service.settings skip base)
    (read : MessageRead)
    {t : Transaction}
    {w : World}
    (hMore :
      Files.OneMore skip t.envelope.messageFile base w.files) :
    Files.SamePlaces skip base
      (replyTo service read t w).2.files := by
  cases read with
  | complete lines rest =>
      exact samePlaces_receiveLines hSpares lines hMore
  | tooLong rest =>
      exact Spool.samePlaces_of_remove hMore hSpares.removal
  | ended ending =>
      exact Spool.samePlaces_of_remove hMore hSpares.removal

/- A reply concerns no files and closes nothing. -/
theorem Dialog.conclude_apply
    (d : Dialog)
    (reply : Reply)
    (w : World) :
    (d.conclude reply w).1.2.context.spoolOpen =
        d.context.spoolOpen ∧
      (d.conclude reply w).2.files = w.files := by
  rcases d.send_apply [reply.render] w with
    ⟨-, hContext, hFiles⟩
  simp only [conclude, Run.bind_apply, Dialog.reply]
  rcases hSend : d.send [reply.render] w with
    ⟨⟨result, sent⟩, after⟩
  rw [hSend] at hContext hFiles
  have hOpen := congrArg Context.spoolOpen hContext
  cases result with
  | error e => exact ⟨hOpen, hFiles⟩
  | ok done => exact ⟨hOpen, hFiles⟩

/- Neither does a client that is gone. -/
theorem Dialog.context_lose
    (d : Dialog)
    (ending : Ending)
    (w : World) :
    (d.lose ending w).1.2.context = d.context ∧
      (d.lose ending w).2.files = w.files := by
  cases ending with
  | closed => exact ⟨rfl, rfl⟩
  | failed text => exact ⟨rfl, rfl⟩
  | stalled =>
      rcases d.send_apply [(idleReply d).render] w with
        ⟨-, hContext, hFiles⟩
      simp only [lose, Run.bind_apply, Dialog.reply]
      rcases hSend : d.send [(idleReply d).render] w with
        ⟨⟨result, sent⟩, after⟩
      rw [hSend] at hContext hFiles
      rw [idleReply] at hSend
      rw [hSend]
      cases result with
      | error e => exact ⟨hContext, hFiles⟩
      | ok done => exact ⟨hContext, hFiles⟩

/- However the message ends, its spool file is gone. -/
theorem samePlaces_receive
    (hSpares :
      service.queue.Spares service.settings skip base)
    (read : MessageRead)
    {d : Dialog}
    {w : World}
    (hMore :
      Files.OneMore skip d.transaction.envelope.messageFile
        base w.files) :
    (receive service read d w).1.2.context.spoolOpen = false ∧
      Files.SamePlaces skip base
        (receive service read d w).2.files := by
  cases hRest : read.rest? with
  | some rest =>
      rw [receive_of_rest service hRest]
      have hReplied :=
        samePlaces_replyTo hSpares read
          (t := d.transaction) hMore
      rcases Dialog.conclude_apply
          (d.closed.withTransaction
            (replyTo service read d.transaction w).1.2)
          (replyTo service read d.transaction w).1.1
          (replyTo service read d.transaction w).2 with
        ⟨hClosed, hFiles⟩
      rw [hFiles]
      exact ⟨hClosed, hReplied⟩
  | none =>
      cases read with
      | complete lines rest => cases hRest
      | tooLong rest => cases hRest
      | ended ending =>
          by_cases hClosed : ending = .closed
          · subst hClosed
            exact ⟨rfl, Spool.samePlaces_of_remove
              (w := (sayOf .warn d.transaction
                "Connection closed during DATA" w).2)
              hMore hSpares.removal⟩
          · rcases d.closed.context_lose ending w with
              ⟨hContext, hFiles⟩
            rw [← hFiles] at hMore
            have hReceive :
                receive service (.ended ending) d w =
                  ((d.closed.lose ending w).1,
                    (Spool.remove
                      d.transaction.envelope.messageFile
                      (d.closed.lose ending w).2).2) := by
              cases ending with
              | closed => exact absurd rfl hClosed
              | stalled => rfl
              | failed text => rfl
            rw [hReceive]
            exact ⟨congrArg Context.spoolOpen hContext,
              Spool.samePlaces_of_remove hMore hSpares.removal⟩

------------------------------------------------------------
-- Commands
------------------------------------------------------------

/-
  A context leaves all places as they are, but for that of its
  spool file while it is open.
-/
def Context.Places
    (skip : Path → Prop)
    (base : Files)
    (context : Context)
    (files : Files) : Prop :=
  if context.spoolOpen then
    Files.OneMore skip context.transaction.envelope.messageFile
      base files
  else Files.SamePlaces skip base files

theorem Context.Places.of_closed
    {context : Context}
    {files : Files}
    (hClosed : context.spoolOpen = false)
    (hSame : Files.SamePlaces skip base files) :
    context.Places skip base files := by
  unfold Context.Places
  rw [if_neg (by simp [hClosed])]
  exact hSame

/- All that counts is the spool file and whether it is open. -/
theorem Context.Places.congr
    {context context' : Context}
    {files : Files}
    (hPlaces : context.Places skip base files)
    (hOpen : context'.spoolOpen = context.spoolOpen)
    (hFile :
      context'.transaction.envelope.messageFile =
        context.transaction.envelope.messageFile) :
    context'.Places skip base files := by
  unfold Context.Places at hPlaces ⊢
  rw [hOpen, hFile]
  exact hPlaces

/- Neither a sender nor a recipient is a file. -/
theorem Context.Places.mapEnvelope
    {context : Context}
    {files : Files}
    (hPlaces : context.Places skip base files)
    {change : Envelope → Envelope}
    (hChange :
      ∀ e : Envelope, (change e).messageFile = e.messageFile) :
    (context.mapEnvelope change).Places skip base files :=
  hPlaces.congr rfl (hChange context.transaction.envelope)

/- Closing the spool file removes it. -/
theorem Context.samePlaces_closeSpool
    {context : Context}
    {w : World}
    (hPlaces : context.Places skip base w.files)
    (hRemoval : base.LetsRemove) :
    (context.closeSpool w).1.spoolOpen = false ∧
      Files.SamePlaces skip base
        (context.closeSpool w).2.files := by
  unfold Context.Places at hPlaces
  unfold closeSpool
  split at hPlaces
  · rename_i hOpen
    rw [if_pos hOpen]
    exact ⟨rfl, Spool.samePlaces_of_remove hPlaces hRemoval⟩
  · rename_i hClosed
    rw [if_neg hClosed]
    exact ⟨rfl, hPlaces⟩

/- Opening a spool file makes the one more file. -/
theorem Context.places_openSpool
    {context context' : Context}
    {opened : Bool}
    {answer : Answer}
    {w w' : World}
    (hSame : Files.SamePlaces skip base w.files)
    (hFresh : base.IsFresh skip)
    (hClosed : context.spoolOpen = false)
    (hOpen :
      context.openSpool w = ((opened, context', answer), w')) :
    context'.Places skip base w'.files := by
  simp only [openSpool, Run.bind_apply] at hOpen
  cases hCreate :
      w.files.create context.settings.global.queueDir with
  | ok made =>
      rcases made with ⟨path, files⟩
      rw [Spool.create_of_ok hCreate] at hOpen
      cases hOpen
      exact Files.OneMore.create hCreate hSame hFresh
  | error fault =>
      rw [Spool.create_of_error hCreate] at hOpen
      cases hOpen
      exact .of_closed hClosed hSame

namespace Phase

variable {phase phase' : Phase}
variable {context context' : Context}
variable {answer : Answer}
variable {w w' : World}

theorem places_welcome
    (hPlaces : context.Places skip base w.files)
    (hRemoval : base.LetsRemove)
    {host : String}
    {accepted : Answer}
    (hStep :
      phase.welcome host context accepted w =
        ((phase', context', answer), w')) :
    context'.Places skip base w'.files := by
  unfold welcome at hStep
  split at hStep
  · cases hStep
    exact hPlaces
  · split at hStep
    · cases hStep
      exact hPlaces
    · cases hStep
      rcases Context.samePlaces_closeSpool hPlaces hRemoval with
        ⟨hClosed, hSame⟩
      exact .of_closed hClosed hSame

theorem places_takeSender
    {files : Files}
    (hPlaces : context.Places skip base files)
    {argument : String}
    (hStep :
      phase.takeSender argument context =
        (phase', context', answer)) :
    context'.Places skip base files := by
  unfold takeSender at hStep
  split at hStep
  · cases hStep
    exact hPlaces
  · split at hStep
    · cases hStep
      exact hPlaces
    · cases hStep
      exact hPlaces.mapEnvelope fun _ => rfl

theorem places_takeRecipient
    {files : Files}
    (hPlaces : context.Places skip base files)
    {argument : String}
    (hStep :
      phase.takeRecipient argument context =
        (phase', context', answer)) :
    context'.Places skip base files := by
  unfold takeRecipient at hStep
  split at hStep
  · dsimp only at hStep
    split at hStep
    · cases hStep
      exact hPlaces
    · cases hStep
      exact hPlaces.mapEnvelope fun _ => rfl
  · cases hStep
    exact hPlaces

/- DATA makes the one more file. -/
theorem places_takeData
    (hSame : Files.SamePlaces skip base w.files)
    (hFresh : base.IsFresh skip)
    (hClosed : context.spoolOpen = false)
    (hStep :
      phase.takeData context w =
        ((phase', context', answer), w')) :
    context'.Places skip base w'.files := by
  unfold takeData at hStep
  split at hStep
  · cases hStep
    exact .of_closed hClosed hSame
  · rcases hOpen : context.openSpool w with
      ⟨⟨opened, after, reply⟩, opening⟩
    simp only [Run.bind_apply, hOpen] at hStep
    cases hStep
    exact Context.places_openSpool hSame hFresh hClosed hOpen
  · cases hStep
    exact .of_closed hClosed hSame

/- One case for each command. -/
theorem places_step
    (hSame : Files.SamePlaces skip base w.files)
    (hFresh : base.IsFresh skip)
    (hRemoval : base.LetsRemove)
    (hClosed : context.spoolOpen = false)
    {command : Command}
    (hStep :
      phase.step command context w =
        ((phase', context', answer), w')) :
    context'.Places skip base w'.files := by
  have hPlaces : context.Places skip base w.files :=
    .of_closed hClosed hSame
  cases command with
  | quit =>
      cases hStep
      exact hPlaces
  | helo host => exact places_welcome hPlaces hRemoval hStep
  | ehlo host => exact places_welcome hPlaces hRemoval hStep
  | xforward address =>
      cases address with
      | none =>
          cases hStep
          exact hPlaces
      | some address =>
          cases hStep
          exact hPlaces.congr rfl rfl
  | mailFrom argument =>
      have hFiles : w = w' := congrArg Prod.snd hStep
      rw [← hFiles]
      exact places_takeSender hPlaces (congrArg Prod.fst hStep)
  | rcptTo argument =>
      have hFiles : w = w' := congrArg Prod.snd hStep
      rw [← hFiles]
      exact places_takeRecipient hPlaces
        (congrArg Prod.fst hStep)
  | data => exact places_takeData hSame hFresh hClosed hStep
  | rset =>
      cases hStep
      rcases Context.samePlaces_closeSpool hPlaces hRemoval with
        ⟨hClosed, hSame⟩
      exact .of_closed hClosed hSame
  | noop =>
      cases hStep
      exact hPlaces
  | invalid text =>
      cases hStep
      exact hPlaces

end Phase

------------------------------------------------------------
-- Turns
------------------------------------------------------------

/- A station leaves all places but that of its spool file. -/
def Station.Places
    (skip : Path → Prop)
    (base : Files)
    (s : Station) : Prop :=
  s.dialog.context.Places skip base s.world.files

namespace Turn

/- So does what a turn leads to. -/
def Places
    (skip : Path → Prop)
    (base : Files) : Turn → Prop
  | .over progress w =>
      progress.2.context.Places skip base w.files
  | .next _ s => s.Places skip base

theorem places_proceed
    {progress : Progress}
    {w : World}
    (hPlaces : progress.2.context.Places skip base w.files)
    (exchange : Exchange)
    (rest? : Option Inbound) :
    (proceed exchange rest? (progress, w)).Places skip base := by
  rcases progress with ⟨result, d⟩
  cases result with
  | error e => exact hPlaces
  | ok done =>
      cases rest? with
      | none => exact hPlaces
      | some rest => exact hPlaces

end Turn

namespace Station

variable {s : Station}

/- Sending lines concerns no files. -/
theorem places_send
    {d : Dialog}
    {w : World}
    (hPlaces : d.context.Places skip base w.files)
    (lines : List String) :
    (d.send lines w).1.2.context.Places skip base
      (d.send lines w).2.files := by
  rcases d.send_apply lines w with ⟨-, hContext, hFiles⟩
  rw [hContext, hFiles]
  exact hPlaces

theorem places_commandTurn
    (hSpares :
      service.queue.Spares service.settings skip base)
    (hClosed : s.dialog.context.spoolOpen = false)
    (hPlaces : s.Places skip base) :
    s.commandTurn.Places skip base := by
  have hLose :
      ∀ (ending : Ending) (w : World),
        w.files = s.world.files →
        (s.dialog.lose ending w).1.2.context.Places skip base
          (s.dialog.lose ending w).2.files := by
    intro ending w hFiles
    rcases s.dialog.context_lose ending w with
      ⟨hContext, hKept⟩
    rw [hContext, hKept, hFiles]
    exact hPlaces
  unfold commandTurn
  dsimp only
  split
  · exact hLose _ _ rfl
  · exact hLose _ _ rfl
  · apply Turn.places_proceed
    exact places_send (w := (noteTooLong s.dialog s.world).2)
      hPlaces [Refusal.lineTooLong.render]
  · rename_i line rest hRead
    unfold answerTurn
    rcases hOutcome :
        outcome (.ofBytes line) s.dialog s.world with
      ⟨⟨phase, context, answer⟩, w⟩
    apply Turn.places_proceed
    apply places_send
    unfold Station.Places Context.Places at hPlaces
    rw [hClosed, if_neg (by decide)] at hPlaces
    simp only [outcome, Run.bind_apply] at hOutcome
    refine Phase.places_step ?_ hSpares.fresh hSpares.removal
      hClosed hOutcome
    exact hPlaces

/- One case for each kind of turn. -/
theorem places_turn
    (hSpares :
      service.queue.Spares service.settings skip base)
    (hPlaces : s.Places skip base) :
    (s.turn service).Places skip base := by
  unfold turn
  split
  · exact hPlaces
  · split
    · rename_i hOpen
      unfold Station.Places Context.Places at hPlaces
      rw [if_pos hOpen] at hPlaces
      rcases samePlaces_receive hSpares (readMessage s.input)
          hPlaces with
        ⟨hClosed, hSame⟩
      exact Turn.places_proceed (.of_closed hClosed hSame) _ _
    · rename_i hClosed
      exact places_commandTurn hSpares
        (Bool.eq_false_iff.mpr hClosed) hPlaces

/- What every turn keeps holds after all of them. -/
theorem places_of_reaches
    (hSpares :
      service.queue.Spares service.settings skip base)
    {first : Station}
    (hPlaces : first.Places skip base)
    {history : List Exchange}
    (hReaches : first.Reaches service history s) :
    s.Places skip base := by
  induction hReaches with
  | refl => exact hPlaces
  | step _ hTurn ih =>
      have hNext := places_turn hSpares ih
      rw [hTurn] at hNext
      exact hNext

/- A connection starts out without a spool file. -/
theorem places_opening
    (service : Service)
    (input : Inbound)
    (writes : Option Nat)
    (w : World) :
    (opening service input writes w).Places skip w.files := by
  have hCreated :
      (Context.create service.settings service.hostname
          w).1.Places skip w.files
        (Context.create service.settings service.hostname
          w).2.files :=
    .of_closed rfl (.refl _ _)
  exact places_send
    (d := {
      context :=
        (Context.create service.settings service.hostname w).1
      outbound := { writes := writes } })
    hCreated
    [(⟨.serviceReady, service.hostname ++ " spmfilter"⟩ :
      Reply).render]

end Station

/- A command is read when no spool file is open. -/
theorem Station.Places.of_awaitsCommand
    {s : Station}
    (hPlaces : s.Places skip base)
    (hAwaits : s.AwaitsCommand) :
    Files.SamePlaces skip base s.world.files := by
  unfold Station.Places Context.Places at hPlaces
  rw [hAwaits.closed, if_neg (by decide)] at hPlaces
  exact hPlaces

/- When a connection is over all places are as they were. -/
theorem samePlaces_run
    {w : World}
    (hSpares :
      service.queue.Spares service.settings skip w.files)
    (input : Inbound)
    (writes : Option Nat) :
    Files.SamePlaces skip w.files
      (run service input writes w).2.files := by
  by_cases hWrites : writes = some 0
  · subst hWrites
    rw [files_run_of_broken]
  · rcases exists_run_apply service input hWrites w with
      ⟨progress, between, after, hResume, hRun, hFiles⟩
    rcases Station.exists_over service
        (Station.opening service input writes w) with
      ⟨history, last, reached, ended, hReaches, hOver, hSame⟩
    rw [hResume] at hSame
    cases hSame
    have hPlaces :=
      Station.places_turn hSpares
        (Station.places_of_reaches hSpares
          (Station.places_opening service input writes w)
          hReaches)
    rw [hOver] at hPlaces
    rw [hRun, hFiles]
    exact (Context.samePlaces_closeSpool hPlaces
      hSpares.removal).2

end MailFilter.Smtp
