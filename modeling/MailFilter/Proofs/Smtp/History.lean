import MailFilter.Proofs.Chain.Answered
import MailFilter.Proofs.Chain.Course
import MailFilter.Proofs.Smtp.Alike
import MailFilter.Proofs.Smtp.Readiness

/-
  What a connection remembers.

  After RSET it is as it was when it was opened, after a
  greeting as if that had been the first one, and after a
  message as if the client had only said who it is. Where it
  starts over that way, it does not depend on what it did
  before how it goes on.

  Key definitions include:
    * `Transaction.client`
    * `Module.KeepsClient`
    * `Smtp.Dialog.state`
    * `Smtp.Service.state`
    * `Smtp.Station.StartsOver`
    * `Smtp.Station.SameFuture`

  Main statements:
    * `Queue.client_process`
    * `Smtp.Station.StartsOver.state`
    * `Smtp.Station.SameFuture.of_state`
    * `Smtp.Station.startsOver_independent`
-/

namespace MailFilter

open World

------------------------------------------------------------
-- Who The Client Is
------------------------------------------------------------

/- What the client said about itself. -/
def Transaction.client
    (t : Transaction) : Option String × Option String :=
  (t.helo, t.xforwardAddr)

/- A module that leaves it alone. -/
def Module.KeepsClient
    (m : Module)
    (settings : Settings) : Prop :=
  ∀ t files, (m.run settings t files).2.1.client = t.client

theorem Transaction.client_of_settled
    {t after : Transaction}
    (hSame : after.settled = t.settled) :
    after.client = t.client := by
  have hClient := congrArg Transaction.client hSame
  exact hClient

namespace Smtp

/- The policy decides on replies only. -/
theorem client_judge
    (settings : Settings)
    (t : Transaction)
    (value : Int) :
    (judge settings t value).2.client = t.client := by
  unfold judge
  split
  · unfold judgeFailure
    split <;> rfl
  · split
    · rfl
    · split <;> rfl

end Smtp

namespace Queue

variable {queue : Queue}
variable {settings : Settings}
variable (hPolicy : queue.policy = Smtp.policy)
variable (hKeeps : ∀ m ∈ queue.modules, m.KeepsClient settings)

include hPolicy hKeeps

/- No step of a chain changes who the client is. -/
theorem client_takes
    {before : Snapshot}
    {step : Step}
    {s s' : Transaction × World}
    (hTakes : Step.Takes queue settings before step s s') :
    s'.1.client = s.1.client := by
  cases hTakes with
  | fetched t w =>
      exact Transaction.client_of_settled
        (settled_askAll queue.lookup _ t w)
  | invoked hMem hInvoke =>
      rename_i m value t after w w'
      have hSettled := m.settled_invoke settings t w
      rw [hInvoke] at hSettled
      exact (Transaction.client_of_settled hSettled).trans
        (hKeeps m hMem t w.files)
  | judged w hJudge =>
      rename_i value outcome t after
      have hClient := Smtp.client_judge settings t value
      rw [hPolicy] at hJudge
      change Smtp.judge settings t value = _ at hJudge
      rw [hJudge] at hClient
      exact hClient
  | marked names t w => rfl
  | flushed hFlush =>
      rename_i result t after w w'
      have hSettled := Chain.settled_flush before settings t w
      rw [hFlush] at hSettled
      exact Transaction.client_of_settled hSettled
  | delivered hFind hDeliver =>
      rename_i nexthop result t after w w'
      have hSettled := nexthop.settled_deliver t w
      rw [hDeliver] at hSettled
      exact Transaction.client_of_settled hSettled
  | told error t w =>
      rw [hPolicy]
      rfl

/- So neither does the chain. -/
theorem client_process
    (t : Transaction)
    (w : World) :
    (queue.process settings t w).1.2.client = t.client := by
  rcases queue.exists_performs settings t w with
    ⟨calls, verdicts, finish, -, hPerforms⟩
  apply hPerforms.keeps fun s => s.1.client = t.client
  · exact fun _ _ _ hClient => hClient
  · intro step s s' hTakes hClient
    exact (client_takes hPolicy hKeeps hTakes).trans hClient
  · rfl

end Queue

namespace Smtp

/- Whatever becomes of a message, the client stays who it is. -/
theorem client_replyTo
    {service : Service}
    (hPolicy : service.queue.policy = policy)
    (hKeeps :
      ∀ m ∈ service.queue.modules,
        m.KeepsClient service.settings)
    (read : MessageRead)
    (t : Transaction)
    (w : World) :
    (replyTo service read t w).1.2.client = t.client := by
  cases read with
  | ended ending => rfl
  | tooLong more => rfl
  | complete lines more =>
      simp only [replyTo, receiveLines, Run.bind_apply]
      rcases (lines.foldl Receiver.takeLine
          { path := t.envelope.messageFile }).finish
          service.settings.global.maxSize w with
        ⟨result, spooled⟩
      rcases result with e | received | size
      · rfl
      · simp only [Run.bind_apply, processMessage]
        rcases loadReceived service received t
            (sayOf .debug t ("Data complete, message size: " ++
              toString received.size) spooled).2 with
          ⟨result, between⟩
        cases result with
        | error e => rfl
        | ok message =>
            have hClient :=
              Queue.client_process hPolicy hKeeps
                (t.withMessage (some message)) between
            simp only [Run.bind_apply]
            generalize service.queue.process service.settings
              (t.withMessage (some message)) between = processed
              at hClient ⊢
            rcases processed with ⟨⟨result, after⟩, left⟩
            cases result with
            | error e => exact hClient
            | ok disposition => exact hClient
      · rfl

------------------------------------------------------------
-- States
------------------------------------------------------------

/- A command that greets, with the name that the client gives. -/
def Command.host? : Command → Option String
  | .helo host => some host
  | .ehlo host => some host
  | _ => none

/-
  How a dialogue stands, the number of its transaction and
  what was sent aside.
-/
def Dialog.state
    (d : Dialog) : Phase × Context :=
  (d.phase, { d.context with
    transaction := { d.transaction with id := 0 } })

/-
  How a dialogue stands of which nothing is known but its
  phase and who the client is.
-/
def Service.state
    (service : Service)
    (phase : Phase)
    (client : Option String × Option String) :
    Phase × Context :=
  (phase, {
    settings := service.settings
    hostname := service.hostname
    transaction :=
      { id := 0, helo := client.1, xforwardAddr := client.2 }
    spoolOpen := false })

namespace Dialog

variable {service : Service}
variable {d : Dialog}

/- The settings and the name are those of the service. -/
structure Belongs
    (service : Service)
    (d : Dialog) : Prop where
  settings : d.context.settings = service.settings
  hostname : d.context.hostname = service.hostname

/- A dialogue that has kept both still belongs to it. -/
theorem Belongs.of_context
    {before : Dialog}
    (hBelongs : before.Belongs service)
    (hSettings : d.context.settings = before.context.settings)
    (hHostname : d.context.hostname = before.context.hostname) :
    d.Belongs service :=
  ⟨hSettings.trans hBelongs.settings,
    hHostname.trans hBelongs.hostname⟩

/- Nothing is left but what is known of the client. -/
theorem state_of_context
    {before : Dialog}
    (hBelongs : before.Belongs service)
    {phase : Phase}
    {id : Nat}
    {client : Option String × Option String}
    (hPhase : d.phase = phase)
    (hContext :
      d.context =
        { before.context with
          transaction := {
            id := id
            helo := client.1
            xforwardAddr := client.2 }
          spoolOpen := false }) :
    d.state = service.state phase client := by
  unfold state transaction
  rw [hPhase, hContext]
  simp only [hBelongs.settings, hBelongs.hostname]
  rfl

end Dialog

------------------------------------------------------------
-- Starting Over
------------------------------------------------------------

namespace Phase

variable {phase phase' : Phase}
variable {context context' : Context}
variable {answer : Answer}
variable {w w' : World}

/-
  A greeting that is accepted leaves the name that was given.
  The first one need not throw anything away, since nothing is
  known before it.
-/
theorem context_of_welcome
    (hOrder : InOrder phase context)
    {host : String}
    {accepted : Answer}
    (hStep :
      phase.welcome host context accepted w =
        ((phase', context', answer), w'))
    (hCode : answer.code = 250) :
    phase' = .helo ∧
      ∃ id,
        context' =
          { context with
            transaction := { id := id, helo := some host }
            spoolOpen := false } := by
  unfold welcome at hStep
  split at hStep
  · cases hStep
    cases hCode
  · split at hStep
    · rename_i hInit
      cases hStep
      refine ⟨rfl, context.transaction.id, ?_⟩
      have hClosed : context.spoolOpen = false := by
        apply hOrder.closed
        rw [hInit]
        decide
      rw [Context.greet, hOrder.fresh hInit, ← hClosed]
    · rcases context.exists_reset w with ⟨id, after, hReset⟩
      simp only [Run.bind_apply, hReset] at hStep
      cases hStep
      exact ⟨rfl, id, rfl⟩

theorem context_of_host?
    (hOrder : InOrder phase context)
    {command : Command}
    {host : String}
    (hHost : command.host? = some host)
    (hStep :
      phase.step command context w =
        ((phase', context', answer), w'))
    (hCode : answer.code = 250) :
    phase' = .helo ∧
      ∃ id,
        context' =
          { context with
            transaction := { id := id, helo := some host }
            spoolOpen := false } := by
  cases command with
  | helo name =>
      cases hHost
      exact context_of_welcome hOrder hStep hCode
  | ehlo name =>
      cases hHost
      exact context_of_welcome hOrder hStep hCode
  | _ => cases hHost

theorem context_of_rset
    (hStep :
      phase.step .rset context w =
        ((phase', context', answer), w')) :
    phase' = .init ∧
      ∃ id,
        context' =
          { context with
            transaction := { id := id }
            spoolOpen := false } := by
  rcases context.exists_reset w with ⟨id, after, hReset⟩
  simp only [step, Run.bind_apply, hReset] at hStep
  cases hStep
  exact ⟨rfl, id, rfl⟩

end Phase

namespace Station

variable {service : Service}
variable {s next : Station}

/- All dialogues of a connection belong to the service. -/
theorem belongs_of_reaches
    {first : Station}
    {history : List Exchange}
    (hFirst : first.dialog.Belongs service)
    (hReaches : first.Reaches service history s) :
    s.dialog.Belongs service := by
  induction hReaches with
  | refl => exact hFirst
  | step _ hTurn ih =>
      rcases turn_cases hTurn with
        ⟨-, hMessage⟩ | ⟨-, hCommand⟩
      · rcases exists_of_messageTurn hMessage with
          ⟨-, rest, hRest, hReceive⟩
        rcases exists_of_receive hReceive hRest with
          ⟨id, -, hContext⟩
        exact ih.of_context (by rw [hContext]) (by rw [hContext])
      · rcases of_commandTurn_eq_next hCommand with
          ⟨rfl, hPhase, hContext⟩
            | ⟨command, answer, before, after, rfl, hStep⟩
        · exact ih.of_context (by rw [hContext])
            (by rw [hContext])
        · have hReacts := reacts_step hStep
          exact ih.of_context hReacts.settings hReacts.hostname

theorem belongs_opening
    (service : Service)
    (input : Inbound)
    (writes : Option Nat)
    (w : World) :
    (opening service input writes w).dialog.Belongs service := by
  rcases context_opening service input writes w with
    ⟨-, hContext, -⟩
  exact ⟨by rw [hContext], by rw [hContext]⟩

/- A message is received while a spool file is open. -/
theorem exists_receive_of_turn
    {read : MessageRead}
    (hTurn : s.turn service = .next (.message read) next) :
    ∃ rest,
      read.rest? = some rest ∧
        receive service read s.dialog s.world =
          ((.ok (), next.dialog), next.world) := by
  rcases turn_cases hTurn with
    ⟨-, hMessage⟩ | ⟨-, hCommand⟩
  · rcases exists_of_messageTurn hMessage with
      ⟨hRead, rest, hRest, hReceive⟩
    cases hRead
    exact ⟨rest, hRest, hReceive⟩
  · rcases of_commandTurn_eq_next hCommand with
      ⟨hExchange, -⟩ | ⟨_, _, _, _, hExchange, -⟩
    · cases hExchange
    · cases hExchange

/- What a message leaves is known of the client afterwards. -/
theorem client_of_message
    {read : MessageRead}
    (hTurn : s.turn service = .next (.message read) next) :
    next.dialog.transaction.client =
      (replyTo service read s.dialog.transaction
          s.world).1.2.client := by
  rcases exists_receive_of_turn hTurn with
    ⟨rest, hRest, hReceive⟩
  rcases exists_of_receive hReceive hRest with
    ⟨id, -, hContext⟩
  rw [Dialog.transaction, hContext]
  rfl

/- The first greeting has nothing to throw away. -/
theorem files_of_first_helo
    {host : String}
    {answer : Answer}
    (hInit : s.dialog.phase = .init)
    (hTurn :
      s.turn service =
        .next (.command (.helo host) answer) next) :
    next.world.files = s.world.files := by
  rcases exists_step_of_turn hTurn with
    ⟨-, before, after, hStep, hBefore, hAfter⟩
  rw [hInit, Phase.step, Phase.welcome] at hStep
  have hSame : before = after := by
    split at hStep
    · exact congrArg Prod.snd hStep
    · rw [if_pos rfl] at hStep
      exact congrArg Prod.snd hStep
  rw [hAfter, ← hSame, hBefore]

/- A connection comes to the station. -/
def Arises
    (service : Service)
    (s : Station) : Prop :=
  ∃ input writes w history,
    (opening service input writes w).Reaches service history s

/-
  A connection starts over when it is opened, after RSET,
  after a greeting that was accepted, and after a message,
  whatever became of it. Given are the phase it is in then and
  what is known of the client.
-/
inductive StartsOver
    (service : Service) :
    Station → Phase → Option String × Option String → Prop
    where
  | opened
      (input : Inbound)
      (writes : Option Nat)
      (w : World) :
      StartsOver service (opening service input writes w) .init
        (none, none)
  | reset
      {before next : Station}
      {answer : Answer} :
      before.Arises service →
      before.turn service = .next (.command .rset answer) next →
      StartsOver service next .init (none, none)
  | greeted
      {before next : Station}
      {command : Command}
      {host : String}
      {answer : Answer} :
      before.Arises service →
      before.turn service =
        .next (.command command answer) next →
      command.host? = some host →
      answer.code = 250 →
      StartsOver service next .helo (some host, none)
  | received
      {before next : Station}
      {read : MessageRead} :
      before.Arises service →
      before.turn service = .next (.message read) next →
      StartsOver service next .helo
        next.dialog.transaction.client

/- Two connections go on the same way from here. -/
structure SameFuture
    (service : Service)
    (s u : Station) : Prop where
  /- They end with the same error, or with none. -/
  ends : (s.resume service).1.1 = (u.resume service).1.1
  /- The client is told the same. -/
  sent :
    ∃ lines,
      (s.resume service).1.2.outbound.written =
          lines ++ s.dialog.outbound.written ∧
        (u.resume service).1.2.outbound.written =
          lines ++ u.dialog.outbound.written
  /- Modules, policy and look-up backend are shown the same. -/
  shown :
    SameNews Note.view? s.world.journal u.world.journal
      (s.resume service).2.journal (u.resume service).2.journal
  /- Relays are sent the same. -/
  relayed :
    ∃ transcripts,
      (s.resume service).2.network.transcripts =
          transcripts ++ s.world.network.transcripts ∧
        (u.resume service).2.network.transcripts =
          transcripts ++ u.world.network.transcripts

/- A new connection knows nothing of its client. -/
theorem state_opening
    (service : Service)
    (input : Inbound)
    (writes : Option Nat)
    (w : World) :
    (opening service input writes w).dialog.state =
      service.state .init (none, none) := by
  rcases context_opening service input writes w with
    ⟨hPhase, hContext, -⟩
  rw [Dialog.state, Dialog.transaction, hPhase, hContext]
  rfl

/- Where a connection starts over there is nothing else. -/
theorem StartsOver.state
    {phase : Phase}
    {client : Option String × Option String}
    (hStarts : s.StartsOver service phase client) :
    s.dialog.state = service.state phase client := by
  have hBelongs :
      ∀ {before : Station}, before.Arises service →
        before.dialog.Belongs service := by
    rintro before ⟨input, writes, w, history, hReaches⟩
    exact belongs_of_reaches
      (belongs_opening service input writes w) hReaches
  cases hStarts with
  | opened input writes w =>
      exact state_opening service input writes w
  | reset hArises hTurn =>
      rcases exists_step_of_turn hTurn with
        ⟨-, before, after, hStep, -⟩
      rcases Phase.context_of_rset hStep with
        ⟨hPhase, id, hContext⟩
      exact Dialog.state_of_context (hBelongs hArises) hPhase
        hContext
  | greeted hArises hTurn hHost hCode =>
      rcases exists_step_of_turn hTurn with
        ⟨-, before, after, hStep, -⟩
      rcases hArises with ⟨input, writes, w, history, hReaches⟩
      have hOrder := inOrder_of_reaches
        (inOrder_opening service input writes w) hReaches
      rcases Phase.context_of_host? hOrder hHost hStep hCode with
        ⟨hPhase, id, hContext⟩
      exact Dialog.state_of_context
        (hBelongs ⟨input, writes, w, history, hReaches⟩) hPhase
        hContext
  | received hArises hTurn =>
      rcases exists_receive_of_turn hTurn with
        ⟨rest, hRest, hReceive⟩
      rcases exists_of_receive hReceive hRest with
        ⟨id, hPhase, hContext⟩
      rw [client_of_message hTurn]
      exact Dialog.state_of_context (hBelongs hArises) hPhase
        hContext

/- After a message the client still is who it was. -/
theorem client_of_keepsClient
    (hPolicy : service.queue.policy = policy)
    (hKeeps :
      ∀ m ∈ service.queue.modules,
        m.KeepsClient service.settings)
    {read : MessageRead}
    (hTurn : s.turn service = .next (.message read) next) :
    next.dialog.transaction.client =
      s.dialog.transaction.client := by
  rw [client_of_message hTurn]
  exact client_replyTo hPolicy hKeeps read _ _

/-
  Connections in states that are the same go on the same way
  if the client sends the same and the worlds resemble one
  another.
-/
theorem SameFuture.of_state
    {u : Station}
    (hTreats :
      service.queue.TreatsAlike service.settings)
    {phase : Phase}
    {client : Option String × Option String}
    (hPhase : phase ≠ .quit)
    (hState : s.dialog.state = service.state phase client)
    (hOther : u.dialog.state = service.state phase client)
    (hInput : s.input = u.input)
    (hWrites :
      s.dialog.outbound.writes = u.dialog.outbound.writes)
    (hWorlds : s.world.Resembles u.world) :
    SameFuture service s u := by
  have hPhases : s.dialog.phase = phase :=
    congrArg Prod.fst hState
  have hPhaseOther : u.dialog.phase = phase :=
    congrArg Prod.fst hOther
  have hClosed : s.dialog.context.spoolOpen = false :=
    congrArg (fun state => state.2.spoolOpen) hState
  have hClosedOther : u.dialog.context.spoolOpen = false :=
    congrArg (fun state => state.2.spoolOpen) hOther
  have hStates := hState.trans hOther.symm
  have hDialogs :
      Dialog.Alike s.world u.world s.dialog.outbound.written
        u.dialog.outbound.written s.dialog u.dialog := {
    phase := congrArg Prod.fst hStates
    context := {
      settings :=
        congrArg (fun state => state.2.settings) hStates
      hostname :=
        congrArg (fun state => state.2.hostname) hStates
      spoolOpen :=
        congrArg (fun state => state.2.spoolOpen) hStates
      view :=
        congrArg (fun state => state.2.transaction.view) hStates
      path := by
        rw [hClosed]
        exact fun hOpen => nomatch hOpen }
    written := .refl _ _ _
    writes := hWrites }
  rcases alike_serve hTreats s.input hDialogs _ _
      hWorlds.alike with
    ⟨⟨hEnds, hAfter⟩, hLeft⟩
  rw [← resume_of_closed service (hPhases ▸ hPhase) hClosed]
    at hEnds hAfter hLeft
  rw [hInput, ← resume_of_closed service (hPhaseOther ▸ hPhase)
    hClosedOther] at hEnds hAfter hLeft
  exact {
    ends := hEnds
    sent := hAfter.written.exists_eq
    shown := hLeft.journal
    relayed := hLeft.transcripts.exists_eq }

/-
  Where two connections start over in the same phase, and know
  the same of the client, they are in the same state. A
  message leaves what is known of the client if the modules
  do. If the modules go by what they are shown, nothing that
  was before makes a difference later.
-/
theorem sameFuture_of_startsOver
    {u : Station}
    {phase : Phase}
    {client : Option String × Option String}
    (hStarts : s.StartsOver service phase client)
    (hOther : u.StartsOver service phase client) :
    s.dialog.state = service.state phase client ∧
      u.dialog.state = service.state phase client ∧
      (service.queue.policy = policy →
        (∀ m ∈ service.queue.modules,
          m.KeepsClient service.settings) →
        ∀ (before : Station) (read : MessageRead),
          before.turn service = .next (.message read) s →
          client = before.dialog.transaction.client) ∧
      (service.queue.policy = policy →
        (∀ m ∈ service.queue.modules,
          m.TreatsAlike service.settings) →
        s.input = u.input →
        s.dialog.outbound.writes = u.dialog.outbound.writes →
        s.world.Resembles u.world →
        SameFuture service s u) := by
  have hState := hStarts.state
  have hStateOther := hOther.state
  refine ⟨hState, hStateOther, ?_, ?_⟩
  · intro hPolicy hKeeps before read hTurn
    rw [← client_of_keepsClient hPolicy hKeeps hTurn]
    exact (congrArg (fun state => state.2.transaction.client)
      hState).symm
  · intro hPolicy hModules hInput hWrites hWorlds
    have hTreats :
        service.queue.TreatsAlike service.settings := by
      refine ⟨hModules, ?_⟩
      rw [hPolicy]
      exact treatsAlike_policy service.settings
    have hPhase : phase ≠ .quit := by
      cases hStarts <;> decide
    exact .of_state hTreats hPhase hState hStateOther hInput
      hWrites hWorlds

end Station

/- A module that adds a field to each message. -/
def marking : Module :=
  .scripted "marking" [.edit (.append "X-Seen" "1")] 0

theorem keepsClient_marking
    (settings : Settings) :
    marking.KeepsClient settings :=
  fun _ _ => rfl

theorem treatsAlike_marking
    (settings : Settings) :
    marking.TreatsAlike settings :=
  Module.treatsAlike_scripted _
    (by simp [Action.KeepsDirectories]) _ settings

/- A module that refuses one recipient and says so. -/
def refusing : Module where
  name := "refusing"
  run := fun _ t files =>
    if t.envelope.recipients = ["b@x"] then
      (550, { t with responseMsg := some "not for b" }, files)
    else (0, t, files)

theorem keepsClient_refusing
    (settings : Settings) :
    refusing.KeepsClient settings := by
  intro t files
  simp only [refusing]
  split <;> rfl

theorem treatsAlike_refusing
    (settings : Settings) :
    refusing.TreatsAlike settings := by
  intro a b t u files others hSame hFiles
  simp only [refusing]
  rw [hSame.part (·.envelope.recipients) fun _ => rfl]
  split
  · exact ⟨rfl, hSame.map
      (fun t => { t with responseMsg := some "not for b" })
      (fun _ => rfl) (fun _ => rfl), hFiles⟩
  · exact ⟨rfl, hSame, hFiles⟩

def refusingService : Service where
  settings := { global := { queueDir := "/q" } }
  queue := { modules := [marking, refusing], policy := policy }
  hostname := "mx"

/- A connection to it whose client sends some lines. -/
def refusingOpening
    (lines : List String)
    (w : World) : Station :=
  .opening refusingService
    ⟨lines.flatMap fun line => Utf8.encode line ++ Bytes.crlf,
      .closed⟩
    none w

/- What the client sends on both connections in the end. -/
def laterLines : List String :=
  ["MAIL FROM:<d@x>", "RCPT TO:<e@x>", "DATA", "A: b", ".",
    "QUIT"]

/- Where the message for the refused recipient is read. -/
def beforeRefusal : Station :=
  (Station.take refusingService 4 []
    (refusingOpening
      (["HELO c", "MAIL FROM:<a@x>", "RCPT TO:<b@x>", "DATA",
        "A: b", "."] ++ laterLines)
      { files := { directories := ["/q"] } })).2

/- Where it was refused. -/
def afterRefusal : Station :=
  (beforeRefusal.take refusingService 1 []).2

/- A new connection in the world that was left then. -/
def afterGreeting : Station :=
  (Station.take refusingService 1 []
    (refusingOpening ("HELO c" :: laterLines)
      afterRefusal.world)).2

theorem turn_beforeRefusal :
    beforeRefusal.turn refusingService =
      .next
        (.message (.complete [Utf8.encode "A: b\r\n"]
          afterRefusal.input))
        afterRefusal :=
  Station.turn_of_take (by decide +kernel)

theorem turn_beforeGreeting :
    (refusingOpening ("HELO c" :: laterLines)
        afterRefusal.world).turn refusingService =
      .next (.command (.helo "c") (.single ⟨.ok, "mx"⟩))
        afterGreeting :=
  Station.turn_of_take (by decide +kernel)

/- Only what the client said of itself is left of the past. -/
theorem startsOver_afterRefusal :
    afterRefusal.StartsOver refusingService .helo
      (some "c", none) := by
  have hClient :
      afterRefusal.dialog.transaction.client =
        (some "c", none) := by
    decide +kernel
  rw [← hClient]
  exact .received ⟨_, _, _, _, Station.reaches_take .refl 4⟩
    turn_beforeRefusal

theorem startsOver_afterGreeting :
    afterGreeting.StartsOver refusingService .helo
      (some "c", none) :=
  .greeted ⟨_, _, _, _, .refl⟩ turn_beforeGreeting rfl rfl

/- The greeting changes nothing that a later message meets. -/
theorem resembles_afterGreeting :
    afterRefusal.world.Resembles afterGreeting.world := by
  have hLeft :
      afterRefusal.world.files.entries = [] ∧
        afterRefusal.world.files.links = [] := by
    decide +kernel
  have hKept :
      afterRefusal.world.network.relays =
          afterGreeting.world.network.relays ∧
        afterRefusal.world.network.refusal =
          afterGreeting.world.network.refusal ∧
        afterRefusal.world.stamp = afterGreeting.world.stamp ∧
        afterRefusal.world.machine =
          afterGreeting.world.machine := by
    decide +kernel
  rcases hLeft with ⟨hEntries, hLinks⟩
  rcases hKept with ⟨hRelays, hUnreachable, hStamp, hMachine⟩
  have hOpened :=
    Station.context_opening refusingService
      (refusingOpening ("HELO c" :: laterLines)
        afterRefusal.world).input
      none afterRefusal.world
  have hFiles :
      afterGreeting.world.files = afterRefusal.world.files :=
    (Station.files_of_first_helo hOpened.1
      turn_beforeGreeting).trans hOpened.2.2
  refine .of_files hFiles ?_ ?_ hRelays hUnreachable hStamp
    hMachine
  · intro dir k
    rw [Files.file?, hEntries]
    rfl
  · intro name
    rw [Files.resolve, hLinks]
    exact ⟨name, rfl⟩

/-
  A message that was refused makes no difference to the next
  one. It is as if the client had just said HELO on a new
  connection.
-/
theorem sameFuture_afterRefusal :
    afterRefusal.StartsOver refusingService .helo
        (some "c", none) ∧
      afterGreeting.StartsOver refusingService .helo
        (some "c", none) ∧
      beforeRefusal.dialog.transaction.client =
        (some "c", none) ∧
      afterRefusal.dialog.outbound.written.head? =
        some (Utf8.encode "550 not for b\r\n") ∧
      afterRefusal.dialog.state = afterGreeting.dialog.state ∧
      Station.SameFuture refusingService afterRefusal
        afterGreeting := by
  rcases Station.sameFuture_of_startsOver startsOver_afterRefusal
      startsOver_afterGreeting with
    ⟨hState, hStateOther, hKept, hFuture⟩
  have hModules :
      ∀ m ∈ refusingService.queue.modules,
        m.KeepsClient refusingService.settings ∧
          m.TreatsAlike refusingService.settings := by
    intro m hMem
    rcases List.mem_pair.mp hMem with rfl | rfl
    · exact ⟨keepsClient_marking _, treatsAlike_marking _⟩
    · exact ⟨keepsClient_refusing _, treatsAlike_refusing _⟩
  refine ⟨startsOver_afterRefusal, startsOver_afterGreeting, ?_,
    by decide +kernel, hState.trans hStateOther.symm, ?_⟩
  · exact (hKept rfl (fun m hMem => (hModules m hMem).1) _ _
      turn_beforeRefusal).symm
  · exact hFuture rfl (fun m hMem => (hModules m hMem).2)
      (by decide +kernel) (by decide +kernel)
      resembles_afterGreeting

end Smtp

end MailFilter
