import MailFilter.Proofs.Chain.Alike
import MailFilter.Proofs.Smtp.Dialogue

/-
  A client cannot tell two connections apart if the modules
  cannot.

  The connections started in states that are the same up to
  the numbers of transactions and spool files. Whatever the
  client sends, it is told the same on both.

  Key definitions include:
    * `Smtp.Reception.Alike`
    * `Smtp.Context.Alike`
    * `Smtp.Dialog.Alike`

  Main statements:
    * `Smtp.treatsAlike_policy`
    * `Smtp.alike_receiveLines`
    * `Smtp.Phase.alike_step`
    * `Smtp.alike_receive`
    * `Smtp.alike_serve`
-/

namespace MailFilter.Smtp

open World

variable {a b : World}
variable {t u : Transaction}

------------------------------------------------------------
-- The Policy
------------------------------------------------------------

theorem alike_decide
    (hSame : Transaction.Alike a b t u)
    (reply : Reply) :
    Transaction.Alike a b (decide t reply) (decide u reply) :=
  hSame.map (decide · reply) (fun _ => rfl) fun _ => rfl

/- The policy goes by what can be viewed. -/
theorem treatsAlike_policy
    (settings : Settings) :
    policy.TreatsAlike settings where
  judge := by
    intro a b t u value hSame
    have hText := hSame.part (·.responseMsg) fun _ => rfl
    change Both Eq (Transaction.Alike a b)
      (judge settings t value) (judge settings u value)
    unfold judge
    rw [hText]
    split
    · unfold judgeFailure
      split
      · exact ⟨rfl, hSame⟩
      · exact ⟨rfl, alike_decide hSame _⟩
      · exact ⟨rfl, alike_decide hSame _⟩
      · exact ⟨rfl, hSame⟩
    · split
      · exact ⟨rfl, alike_decide hSame _⟩
      · split
        · exact ⟨rfl, hSame⟩
        · exact ⟨rfl, alike_decide hSame _⟩
  undelivered := fun _ _ _ _ _ _ hSame => alike_decide hSame _

------------------------------------------------------------
-- Receiving A Message
------------------------------------------------------------

/- What became of the same lines on each side. -/
inductive Reception.Alike
    (a b : World) : Reception → Reception → Prop where
  | received
      {path other : Path}
      (received : Received) :
      Path.Alike a b path other →
      Reception.Alike a b (.received { received with path := path })
        (.received { received with path := other })
  | tooLarge (size : Nat) :
      Reception.Alike a b (.tooLarge size) (.tooLarge size)

namespace Receiver

/- Where a message is spooled does not matter for its lines. -/
theorem takeLine_withPath
    (receiver : Receiver)
    (path : Path)
    (line : Bytes) :
    takeLine { receiver with path := path } line =
      { receiver.takeLine line with path := path } := by
  unfold takeLine track
  dsimp only
  split
  · split
    · rfl
    · split <;> rfl
  · rfl

theorem foldl_takeLine_withPath
    (lines : List Bytes)
    (receiver : Receiver)
    (path : Path) :
    lines.foldl takeLine { receiver with path := path } =
      { lines.foldl takeLine receiver with path := path } := by
  induction lines generalizing receiver with
  | nil => rfl
  | cons line rest ih =>
      rw [List.foldl_cons, takeLine_withPath, ih]
      rfl

theorem alike_finish
    (receiver : Receiver)
    (maxSize : Nat)
    {path other : Path}
    (hPath : Path.Alike a b path other) :
    Run.Alike a b (Agree (Reception.Alike a b))
      (finish { receiver with path := path } maxSize)
      (finish { receiver with path := other } maxSize) := by
  refine .bind (Spool.alike_store hPath _) ?_
  intro written twin hWritten
  cases hWritten with
  | error => exact .pure (.error _ _)
  | ok =>
      dsimp only
      split
      · refine .bind (.emit _ _) fun _ _ _ => ?_
        exact .bind (Spool.alike_remove hPath) fun _ _ _ =>
          .pure (.ok (.tooLarge _))
      · exact .pure (.ok (.received
          ⟨path, receiver.size, receiver.seen,
            receiver.headerEnd, receiver.crlf.getD true⟩ hPath))

end Receiver

/- The same fields are added on each side. -/
theorem Completion.alike_apply
    (completion : Completion)
    (dir : String)
    (received : Received)
    {path other : Path}
    (hPath : Path.Alike a b path other) :
    Run.Alike a b (Agree Eq)
      (completion.apply dir { received with path := path })
      (completion.apply dir { received with path := other }) := by
  unfold apply
  dsimp only
  split
  · exact .pure (.ok rfl)
  · refine .bind (Spool.alike_read hPath) ?_
    intro content twin hContent
    cases hContent with
    | error => exact .pure (.error _ _)
    | @ok raw _ hRaw =>
        subst hRaw
        refine .bind .get ?_
        intro w v hWorld
        rw [hWorld.stamp]
        refine .bind (.emit _ _) fun _ _ _ => ?_
        refine .bind (Spool.alike_replace dir hPath _) ?_
        intro replaced twin hReplaced
        cases hReplaced with
        | error => exact .pure (.error _ _)
        | ok => exact .pure (.ok rfl)

section

variable {service : Service}
variable (hTreats : service.queue.TreatsAlike service.settings)

theorem alike_loadReceived
    (service : Service)
    (received : Received)
    {path other : Path}
    (hPath : Path.Alike a b path other)
    (hSame : Transaction.Alike a b t u) :
    Run.Alike a b (Agree Eq)
      (loadReceived service { received with path := path } t)
      (loadReceived service { received with path := other } u) := by
  unfold loadReceived
  rw [hSame.part (·.envelope.sender) fun _ => rfl]
  refine .bind (Completion.alike_apply _ _ received hPath) ?_
  intro completed twin hCompleted
  cases hCompleted with
  | error => exact .pure (.error _ _)
  | ok => exact Spool.alike_load hPath

include hTreats

/- The same message gets the same reply. -/
theorem alike_processMessage
    (received : Received)
    {path other : Path}
    (hPath : Path.Alike a b path other)
    (hSame : Transaction.Alike a b t u) :
    Run.Alike a b (Both Eq (Transaction.Alike a b))
      (processMessage service { received with path := path } t)
      (processMessage service { received with path := other }
        u) := by
  refine .bind (.emit _ _) fun _ _ _ => ?_
  refine .bind (alike_loadReceived service received hPath hSame)
    ?_
  intro loaded twin hLoaded
  cases hLoaded with
  | error =>
      exact .bind (.emit _ _) fun _ _ _ => .pure ⟨rfl, hSame⟩
  | @ok message _ hMessage =>
      subst hMessage
      refine .bind (hTreats.process (hSame.withMessage _)) ?_
      rintro ⟨result, left⟩ ⟨other, twin⟩
        ⟨hResult, hLeft⟩
      cases hResult with
      | error =>
          exact .bind (.emit _ _) fun _ _ _ =>
            .pure ⟨rfl, hLeft⟩
      | @ok disposition _ hDisposition =>
          subst hDisposition
          refine .bind (.emit _ _) fun _ _ _ => ?_
          refine .pure ⟨?_, hLeft.map
            (fun t => { t with reply := none })
            (fun _ => rfl) fun _ => rfl⟩
          exact hLeft.part (finalReply service.settings disposition)
            fun _ => rfl

/- So do the same lines. -/
theorem alike_receiveLines
    (lines : List Bytes)
    (hSame : Transaction.Alike a b t u) :
    Run.Alike a b (Both Eq (Transaction.Alike a b))
      (receiveLines service lines t)
      (receiveLines service lines u) := by
  have hReceiver :
      ∀ path,
        lines.foldl Receiver.takeLine { path := path } =
          { lines.foldl Receiver.takeLine { path := .empty } with
            path := path } :=
    fun path => Receiver.foldl_takeLine_withPath lines
      { path := .empty } path
  unfold receiveLines
  dsimp only
  rw [hReceiver t.envelope.messageFile,
    hReceiver u.envelope.messageFile]
  refine .bind (Receiver.alike_finish _ _ hSame.path) ?_
  intro received twin hReceived
  cases hReceived with
  | error =>
      refine .bind (.emit _ _) fun _ _ _ => ?_
      exact .bind (Spool.alike_remove hSame.path) fun _ _ _ =>
        .pure ⟨rfl, hSame⟩
  | ok hReception =>
      cases hReception with
      | tooLarge => exact .pure ⟨rfl, hSame⟩
      | received received hPath =>
          refine .bind
            (alike_processMessage hTreats received hPath hSame) ?_
          intro result twin hResult
          exact .bind (Spool.alike_remove hPath) fun _ _ _ =>
            .pure hResult

end

------------------------------------------------------------
-- Contexts
------------------------------------------------------------

/-
  Contexts that differ in numbers only. Spool files that are
  open are those that were made at the same point.
-/
structure Context.Alike
    (a b : World)
    (context other : Context) : Prop where
  settings : context.settings = other.settings
  hostname : context.hostname = other.hostname
  spoolOpen : context.spoolOpen = other.spoolOpen
  view : context.transaction.view = other.transaction.view
  path :
    context.spoolOpen = true →
      Path.Alike a b context.transaction.envelope.messageFile
        other.transaction.envelope.messageFile

namespace Context

variable {context other : Context}

namespace Alike

theorem close
    (hSame : Context.Alike a b context other) :
    Context.Alike a b { context with spoolOpen := false }
      { other with spoolOpen := false } :=
  { hSame with
    spoolOpen := rfl
    path := fun hOpen => nomatch hOpen }

/- Without an open spool file only the views count. -/
theorem renew
    (hSame : Context.Alike a b context other)
    (hClosed : context.spoolOpen = false)
    (hView : t.view = u.view) :
    Context.Alike a b { context with transaction := t }
      { other with transaction := u } where
  settings := hSame.settings
  hostname := hSame.hostname
  spoolOpen := hSame.spoolOpen
  view := hView
  path := by
    intro hOpen
    rw [hClosed] at hOpen
    cases hOpen

/- A change of the transaction that does not go by numbers. -/
theorem map
    (hSame : Context.Alike a b context other)
    (change : Transaction → Transaction)
    (hView : ∀ t, (change t).view = (change t.view).view)
    (hPath :
      ∀ t, (change t).envelope.messageFile =
        t.envelope.messageFile) :
    Context.Alike a b
      { context with transaction := change context.transaction }
      { other with
        transaction := change other.transaction } where
  settings := hSame.settings
  hostname := hSame.hostname
  spoolOpen := hSame.spoolOpen
  view := by
    change (change _).view = (change _).view
    rw [hView, hSame.view, ← hView]
  path := by
    intro hOpen
    change Path.Alike a b (change _).envelope.messageFile
      (change _).envelope.messageFile
    rw [hPath, hPath]
    exact hSame.path hOpen

theorem greet
    (hSame : Context.Alike a b context other)
    (host : String) :
    Context.Alike a b (context.greet host) (other.greet host) :=
  hSame.map (fun t => { t with helo := some host })
    (fun _ => rfl) fun _ => rfl

/- The same replies are configured. -/
theorem configured
    (hSame : Context.Alike a b context other)
    (status : Status) :
    context.configured status = other.configured status := by
  unfold Context.configured
  rw [hSame.settings]

end Alike

theorem alike_closeSpool
    (hSame : Context.Alike a b context other) :
    Run.Alike a b
      (fun closed twin =>
        Context.Alike a b closed twin ∧
          closed.spoolOpen = false)
      context.closeSpool other.closeSpool := by
  unfold closeSpool
  rw [← hSame.spoolOpen]
  split
  · rename_i hOpen
    exact .bind (Spool.alike_remove (hSame.path hOpen))
      fun _ _ _ => .pure ⟨hSame.close, rfl⟩
  · exact .pure ⟨hSame.close, rfl⟩

theorem alike_reset
    (hSame : Context.Alike a b context other) :
    Run.Alike a b (Context.Alike a b) context.reset
      other.reset := by
  refine .bind (alike_closeSpool hSame) ?_
  rintro closed twin ⟨hAlike, hClosed⟩
  refine .bind (.emit _ _) fun _ _ _ => ?_
  exact .bind .newTransaction fun _ _ hView =>
    .pure (hAlike.renew hClosed hView)

theorem alike_openSpool
    (hSame : Context.Alike a b context other) :
    Run.Alike a b (Both Eq (Both (Context.Alike a b) Eq))
      context.openSpool other.openSpool := by
  unfold openSpool
  rw [hSame.settings]
  refine .bind (Spool.alike_create _) ?_
  intro made twin hMade
  cases hMade with
  | error e d =>
      refine .bind (.emit _ _) fun _ _ _ => ?_
      exact .pure ⟨rfl, hSame, hSame.configured _⟩
  | ok hPath =>
      refine .bind (.emit _ _) fun _ _ _ => ?_
      exact .pure ⟨rfl, ⟨hSame.settings, hSame.hostname, rfl,
        hSame.view, fun _ => hPath⟩, hSame.configured _⟩

end Context

------------------------------------------------------------
-- Commands
------------------------------------------------------------

namespace Phase

variable {context other : Context}

theorem alike_welcome
    (hSame : Context.Alike a b context other)
    (phase : Phase)
    (host : String)
    (answer : Answer) :
    Run.Alike a b (Both Eq (Both (Context.Alike a b) Eq))
      (phase.welcome host context answer)
      (phase.welcome host other answer) := by
  unfold welcome
  split
  · exact .pure ⟨rfl, hSame, rfl⟩
  · split
    · exact .pure ⟨rfl, hSame.greet host, rfl⟩
    · exact .bind (Context.alike_reset hSame) fun _ _ hReset =>
        .pure ⟨rfl, hReset.greet host, rfl⟩

theorem alike_takeSender
    (hSame : Context.Alike a b context other)
    (phase : Phase)
    (argument : String) :
    Both Eq (Both (Context.Alike a b) Eq)
      (phase.takeSender argument context)
      (phase.takeSender argument other) := by
  unfold takeSender
  split
  · exact ⟨rfl, hSame, rfl⟩
  · split
    · exact ⟨rfl, hSame, rfl⟩
    · exact ⟨rfl, hSame.map
        (fun t => { t with
          envelope := { t.envelope with
            sender :=
              if (mailbox argument).isEmpty then none
              else some (mailbox argument) } })
        (fun _ => rfl) (fun _ => rfl), hSame.configured _⟩

theorem alike_takeRecipient
    (hSame : Context.Alike a b context other)
    (phase : Phase)
    (argument : String) :
    Both Eq (Both (Context.Alike a b) Eq)
      (phase.takeRecipient argument context)
      (phase.takeRecipient argument other) := by
  unfold takeRecipient
  split
  · dsimp only
    split
    · exact ⟨rfl, hSame, rfl⟩
    · exact ⟨rfl, hSame.map
        (fun t => { t with
          envelope := { t.envelope with
            recipients :=
              t.envelope.recipients ++ [mailbox argument] } })
        (fun _ => rfl) (fun _ => rfl), hSame.configured _⟩
  · exact ⟨rfl, hSame, rfl⟩

theorem alike_takeData
    (hSame : Context.Alike a b context other)
    (phase : Phase) :
    Run.Alike a b (Both Eq (Both (Context.Alike a b) Eq))
      (phase.takeData context) (phase.takeData other) := by
  unfold takeData
  split
  · exact .pure ⟨rfl, hSame, rfl⟩
  · exact .bind_both (Context.alike_openSpool hSame)
      fun _ _ _ hLeft => .pure ⟨rfl, hLeft⟩
  · exact .pure ⟨rfl, hSame, rfl⟩

/- A command does the same on each side. -/
theorem alike_step
    (hSame : Context.Alike a b context other)
    (phase : Phase)
    (command : Command) :
    Run.Alike a b (Both Eq (Both (Context.Alike a b) Eq))
      (phase.step command context)
      (phase.step command other) := by
  cases command with
  | helo host =>
      unfold step
      rw [hSame.hostname]
      exact alike_welcome hSame _ _ _
  | ehlo host =>
      unfold step
      rw [hSame.hostname, hSame.settings]
      exact alike_welcome hSame _ _ _
  | xforward address =>
      cases address with
      | none => exact .pure ⟨rfl, hSame, rfl⟩
      | some address =>
          exact .pure ⟨rfl, hSame.map
            (fun t => { t with xforwardAddr := some address })
            (fun _ => rfl) (fun _ => rfl), hSame.configured _⟩
  | mailFrom argument =>
      exact .pure (alike_takeSender hSame phase argument)
  | rcptTo argument =>
      exact .pure (alike_takeRecipient hSame phase argument)
  | data => exact alike_takeData hSame phase
  | rset =>
      exact .bind (Context.alike_reset hSame) fun _ _ hReset =>
        .pure ⟨rfl, hReset, hReset.configured _⟩
  | noop => exact .pure ⟨rfl, hSame, hSame.configured _⟩
  | quit => exact .pure ⟨rfl, hSame, hSame.configured _⟩
  | invalid line => exact .pure ⟨rfl, hSame, rfl⟩

end Phase

------------------------------------------------------------
-- Dialogues
------------------------------------------------------------

/-
  Dialogues that stand alike, in which the same was sent since
  two points in the past.
-/
structure Dialog.Alike
    (a b : World)
    (sent sentOther : List Bytes)
    (d e : Dialog) : Prop where
  phase : d.phase = e.phase
  context : Context.Alike a b d.context e.context
  written :
    SameNews some sent sentOther d.outbound.written
      e.outbound.written
  writes : d.outbound.writes = e.outbound.writes

variable {sent sentOther : List Bytes}

/- A dialogue that has failed is over, and others go on. -/
theorem alike_goOn
    {R S : Dialog → Dialog → Prop}
    {run other : Run Progress}
    (hRun : Run.Alike a b (Both Eq R) run other)
    (hOver : ∀ d e, R d e → S d e)
    {next after : Dialog → Run Progress}
    (hNext :
      ∀ d e, R d e →
        Run.Alike a b (Both Eq S) (next d) (after e)) :
    Run.Alike a b (Both Eq S)
      (do
        match ← run with
        | (.error e, d) => return (.error e, d)
        | (.ok (), d) => next d)
      (do
        match ← other with
        | (.error e, d) => return (.error e, d)
        | (.ok (), d) => after d) := by
  refine .bind_both hRun ?_
  intro result d e hDialog
  cases result with
  | error e => exact .pure ⟨rfl, hOver _ _ hDialog⟩
  | ok done => exact hNext _ _ hDialog

namespace Dialog

variable {d e : Dialog}

theorem alike_write
    (hSame : Dialog.Alike a b sent sentOther d e)
    (line : String) :
    Both Eq (Dialog.Alike a b sent sentOther) (d.write line)
      (e.write line) := by
  unfold write
  rw [← hSame.writes]
  split
  · exact ⟨rfl, hSame⟩
  · exact ⟨rfl, hSame.phase, hSame.context,
      hSame.written.cons rfl, rfl⟩

theorem context_write
    (d : Dialog)
    (line : String) :
    (d.write line).2.context = d.context := by
  unfold write
  split <;> rfl

/-
  The same lines are sent, as many as can be. Nothing else is
  changed.
-/
theorem alike_send
    (lines : List String)
    (hSame : Dialog.Alike a b sent sentOther d e) :
    Run.Alike a b
      (Both Eq fun after twin =>
        Dialog.Alike a b sent sentOther after twin ∧
          after.context = d.context)
      (d.send lines) (e.send lines) := by
  induction lines generalizing d e with
  | nil => exact .pure ⟨rfl, hSame, rfl⟩
  | cons line rest ih =>
      refine .bind (.emit _ _) fun _ _ _ => ?_
      have hWrite := alike_write hSame line
      have hContext := d.context_write line
      rcases hWrite.exists_eq with
        ⟨result, after, twin, hEq, hTwin, hAfter⟩
      rw [hEq] at hContext ⊢
      rw [hTwin]
      change after.context = d.context at hContext
      cases result with
      | error e => exact .pure ⟨rfl, hAfter, hContext⟩
      | ok done =>
          dsimp only
          rw [← hContext]
          exact ih hAfter

/- The same reply is sent, or the connection is broken. -/
theorem alike_reply
    (hSame : Dialog.Alike a b sent sentOther d e)
    (reply : Reply) :
    Run.Alike a b
      (Both Eq fun after twin =>
        Dialog.Alike a b sent sentOther after twin ∧
          after.context = d.context)
      (d.reply reply) (e.reply reply) :=
  alike_send _ hSame

theorem alike_lose
    (hSame : Dialog.Alike a b sent sentOther d e)
    (ending : Ending) :
    Run.Alike a b (Both Eq (Dialog.Alike a b sent sentOther))
      (d.lose ending) (e.lose ending) := by
  cases ending with
  | closed => exact .pure ⟨rfl, hSame⟩
  | failed text => exact .pure ⟨rfl, hSame⟩
  | stalled =>
      unfold lose
      dsimp only
      rw [hSame.context.settings]
      exact alike_goOn (alike_reply hSame _)
        (fun _ _ hBoth => hBoth.1) fun _ _ hBoth =>
          .pure ⟨rfl, hBoth.1⟩

/- The next transaction knows the same of the client. -/
theorem alike_nextTransaction
    (hSame : Dialog.Alike a b sent sentOther d e)
    (hClosed : d.context.spoolOpen = false) :
    Run.Alike a b (Dialog.Alike a b sent sentOther)
      d.nextTransaction e.nextTransaction := by
  have hLast : d.transaction.view = e.transaction.view :=
    hSame.context.view
  refine .bind .newTransaction ?_
  intro t u hView
  refine .pure { hSame with
    phase := rfl
    context := hSame.context.renew hClosed ?_ }
  change
    { t.view with
      helo := d.transaction.view.helo
      xforwardAddr := d.transaction.view.xforwardAddr } =
    { u.view with
    helo := e.transaction.view.helo
    xforwardAddr := e.transaction.view.xforwardAddr }
  rw [hView, hLast]

theorem alike_conclude
    (hSame : Dialog.Alike a b sent sentOther d e)
    (hClosed : d.context.spoolOpen = false)
    (reply : Reply) :
    Run.Alike a b (Both Eq (Dialog.Alike a b sent sentOther))
      (d.conclude reply) (e.conclude reply) := by
  refine alike_goOn (alike_reply hSame _)
    (fun _ _ hBoth => hBoth.1) ?_
  rintro after twin ⟨hAfter, hContext⟩
  rw [← hContext] at hClosed
  exact .bind (alike_nextTransaction hAfter hClosed)
    fun _ _ hNext => .pure ⟨rfl, hNext⟩

end Dialog

section

variable {service : Service}
variable (hTreats : service.queue.TreatsAlike service.settings)
variable {d e : Dialog}
variable (hSame : Dialog.Alike a b sent sentOther d e)

include hTreats hSame

/- The message for an open spool file. -/
theorem alike_receive
    (hOpen : d.context.spoolOpen = true)
    (read : MessageRead) :
    Run.Alike a b (Both Eq (Dialog.Alike a b sent sentOther))
      (receive service read d) (receive service read e) := by
  have hTransaction :
      Transaction.Alike a b d.transaction e.transaction :=
    ⟨hSame.context.view, hSame.context.path hOpen⟩
  have hClosed :
      Dialog.Alike a b sent sentOther d.closed e.closed :=
    { hSame with context := hSame.context.close }
  cases read with
  | complete lines rest =>
      refine .bind_both
        (alike_receiveLines hTreats lines hTransaction) ?_
      intro reply t u hLeft
      have hDialog :
          Dialog.Alike a b sent sentOther
            (d.closed.withTransaction t)
            (e.closed.withTransaction u) :=
        { hClosed with
          context := hClosed.context.renew rfl hLeft.view }
      exact Dialog.alike_conclude hDialog rfl reply
  | tooLong rest =>
      refine .bind (.emit _ _) fun _ _ _ => ?_
      exact .bind (Spool.alike_remove hTransaction.path)
        fun _ _ _ => Dialog.alike_conclude hClosed rfl _
  | ended ending =>
      have hLost :
          Run.Alike a b
            (Both Eq (Dialog.Alike a b sent sentOther))
            (do
              let result ← d.closed.lose ending
              Spool.remove d.transaction.envelope.messageFile
              return result : Run Progress)
            (do
              let result ← e.closed.lose ending
              Spool.remove e.transaction.envelope.messageFile
              return result : Run Progress) :=
        .bind (Dialog.alike_lose hClosed ending)
          fun _ _ hResult =>
            .bind (Spool.alike_remove hTransaction.path)
              fun _ _ _ => .pure hResult
      cases ending with
      | closed =>
          refine .bind (.emit _ _) fun _ _ _ => ?_
          exact .bind (Spool.alike_remove hTransaction.path)
            fun _ _ _ => .pure ⟨rfl, hClosed⟩
      | stalled => exact hLost
      | failed text => exact hLost

omit hTreats in
theorem alike_answerLine
    (line : Bytes) :
    Run.Alike a b (Both Eq (Dialog.Alike a b sent sentOther))
      (answerLine line d) (answerLine line e) := by
  refine .bind (.emit _ _) fun _ _ _ => ?_
  rw [hSame.phase]
  refine .bind_both (Phase.alike_step hSame.context _ _) ?_
  rintro phase ⟨context, answer⟩ ⟨twin, other⟩
    ⟨hContext, hAnswer⟩
  change answer = other at hAnswer
  subst hAnswer
  have hDialog :
      Dialog.Alike a b sent sentOther
        ⟨phase, context, d.outbound⟩
        ⟨phase, twin, e.outbound⟩ :=
    { hSame with
      phase := rfl
      context := hContext }
  exact (Dialog.alike_send answer.lines hDialog).mono
    fun _ _ hBoth => ⟨hBoth.1, hBoth.2.1⟩

end

/-
  Whatever a client sends from here on, it is told the same.
  By induction on how much that is.
-/
theorem alike_serve
    {service : Service}
    (hTreats : service.queue.TreatsAlike service.settings)
    (input : Inbound)
    {d e : Dialog}
    (hSame : Dialog.Alike a b sent sentOther d e) :
    Run.Alike a b (Both Eq (Dialog.Alike a b sent sentOther))
      (serve service input d) (serve service input e) := by
  induction hLength : input.data.length
    using Nat.strongRecOn generalizing input d e with
  | ind n ih =>
      subst hLength
      rw [serve, serve]
      cases hRead : readCommand input with
      | ended ending => exact Dialog.alike_lose hSame ending
      | tooLong after =>
          cases after with
          | ended ending =>
              exact .bind (.emit _ _) fun _ _ _ =>
                Dialog.alike_lose hSame ending
          | through rest =>
              refine .bind (.emit _ _) fun _ _ _ => ?_
              refine alike_goOn (Dialog.alike_reply hSame _)
                (fun _ _ hBoth => hBoth.1) ?_
              intro d e hBoth
              exact ih _ (length_of_readCommand_tooLong hRead)
                rest hBoth.1 rfl
      | line line rest =>
          have hShorter := length_of_readCommand_line hRead
          refine alike_goOn (alike_answerLine hSame line)
            (fun _ _ hSame => hSame) ?_
          intro d e hSame
          rw [← hSame.phase, ← hSame.context.spoolOpen]
          split
          · exact .pure ⟨rfl, hSame⟩
          · split
            · rename_i hOpen
              refine alike_goOn
                (alike_receive hTreats hSame hOpen _)
                (fun _ _ hSame => hSame) ?_
              intro d e hSame
              cases hMore : (readMessage rest).rest? with
              | none => exact .pure ⟨rfl, hSame⟩
              | some more =>
                  have hLess := length_of_readMessageFrom hMore
                  exact ih _ (Nat.lt_trans hLess hShorter) more
                    hSame rfl
            · exact ih _ hShorter rest hSame rfl

end MailFilter.Smtp
