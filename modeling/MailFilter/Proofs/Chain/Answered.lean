import MailFilter.Chain.Queue
import MailFilter.Proofs.Run

/-
  What the modules of a chain answered, and what the chain
  makes of the reply that was decided on.

  The chain stops at the first value other than zero, which
  the policy judges. Besides the modules only the policy can
  decide on a reply.

  Key definitions include:
    * `Transaction.decision`
    * `Transaction.bare`
    * `Transaction.settled`
    * `Module.KeepsReply`
    * `Queue.firstValue`
    * `Queue.ran`
    * `Queue.value?`
    * `Queue.Passes`

  Main statements:
    * `Module.bare_invoke`
    * `Queue.runModules_cases`
    * `Queue.ran_cases`
    * `Queue.outcome_of_ran`
    * `Queue.process_eq`
    * `Queue.finish_cases`
-/

namespace MailFilter

open World

------------------------------------------------------------
-- Who Decides On A Reply
------------------------------------------------------------

/- What was decided on about the reply. -/
def Transaction.decision
    (t : Transaction) : Option Reply × Option String :=
  (t.reply, t.responseMsg)

/- A transaction without its envelope. -/
def Transaction.bare
    (t : Transaction) : Transaction :=
  { t with envelope := {} }

/-
  What the chain itself has no part in: all but the message,
  the recipients, and what is known of users.
-/
def Transaction.settled
    (t : Transaction) : Transaction :=
  { t with
    envelope := {}
    users := [] }

/- What is known of users is outside the envelope. -/
theorem Transaction.users_of_bare
    {t after : Transaction}
    (hSame : after.bare = t.bare) :
    after.users = t.users := by
  have hUsers := congrArg Transaction.users hSame
  exact hUsers

theorem Transaction.settled_of_bare
    {t after : Transaction}
    (hSame : after.bare = t.bare) :
    after.settled = t.settled := by
  have hSettled := congrArg Transaction.settled hSame
  exact hSettled

/- It includes what was decided on. -/
theorem Transaction.decision_of_settled
    {t after : Transaction}
    (hSame : after.settled = t.settled) :
    after.decision = t.decision := by
  have hDecision := congrArg Transaction.decision hSame
  exact hDecision

theorem Transaction.reply_of_settled
    {t after : Transaction}
    (hSame : after.settled = t.settled) :
    after.reply = t.reply :=
  congrArg Prod.fst (decision_of_settled hSame)

/- A module that decides on no reply. -/
def Module.KeepsReply
    (m : Module)
    (settings : Settings) : Prop :=
  ∀ t files, (m.run settings t files).2.1.reply = t.reply

namespace Module

/- Loading a message again changes the message only. -/
theorem bare_reload
    (m : Module)
    (path : Path)
    (t : Transaction)
    (w : World) :
    (m.reload path t w).1.bare = t.bare := by
  simp only [reload, Run.bind_apply]
  cases (Spool.load path _).1 with
  | error e => rfl
  | ok message => rfl

/- Only a module itself changes more when it is invoked. -/
theorem bare_invoke
    (m : Module)
    (settings : Settings)
    (t : Transaction)
    (w : World) :
    (m.invoke settings t w).1.2.bare =
      (m.run settings t w.files).2.1.bare := by
  rcases hRun : m.run settings t w.files with
    ⟨value, left, files⟩
  simp only [Module.invoke, Run.bind_apply, Run.get_apply, hRun]
  split
  · exact m.bare_reload _ _ _
  · rfl

theorem settled_invoke
    (m : Module)
    (settings : Settings)
    (t : Transaction)
    (w : World) :
    (m.invoke settings t w).1.2.settled =
      (m.run settings t w.files).2.1.settled :=
  Transaction.settled_of_bare (m.bare_invoke settings t w)

theorem KeepsReply.invoke
    {m : Module}
    {settings : Settings}
    (hKeeps : m.KeepsReply settings)
    (t : Transaction)
    (w : World) :
    (m.invoke settings t w).1.2.reply = t.reply := by
  have hInvoke :=
    Transaction.reply_of_settled (m.settled_invoke settings t w)
  exact hInvoke.trans (hKeeps t w.files)

end Module

namespace Queue

theorem settled_askAll
    (lookup : Lookup)
    (addresses : List String)
    (t : Transaction)
    (w : World) :
    (askAll lookup addresses t w).1.settled = t.settled := by
  induction addresses generalizing t w with
  | nil => rfl
  | cons address rest ih =>
      simp only [askAll, Run.bind_apply]
      cases lookup address with
      | ok answer => exact ih _ _
      | error e => exact ih _ _

theorem bare_markModules
    (settings : Settings)
    (names : List String)
    (t : Transaction) :
    (markModules settings names t).bare = t.bare := by
  unfold markModules
  split <;> rfl

theorem settled_markModules
    (settings : Settings)
    (names : List String)
    (t : Transaction) :
    (markModules settings names t).settled = t.settled :=
  Transaction.settled_of_bare (bare_markModules settings names t)

end Queue

/- Writing the headers back changes the message only. -/
theorem Chain.bare_flush
    (before : Snapshot)
    (settings : Settings)
    (t : Transaction)
    (w : World) :
    (flush before settings t w).1.2.bare = t.bare := by
  unfold flush
  cases t.message with
  | none => rfl
  | some message =>
      dsimp only
      split
      · simp only [Run.bind_apply]
        cases (replaceBlock settings.global.queueDir
          t.envelope.messageFile message.block
          message.bodyOffset _).1 with
        | error e => rfl
        | ok done => rfl
      · rfl

theorem Chain.settled_flush
    (before : Snapshot)
    (settings : Settings)
    (t : Transaction)
    (w : World) :
    (flush before settings t w).1.2.settled = t.settled :=
  Transaction.settled_of_bare (bare_flush before settings t w)

/- A delivery changes the recipients only. -/
theorem Nexthop.bare_deliver
    (nexthop : Nexthop)
    (t : Transaction)
    (w : World) :
    (nexthop.deliver t w).1.2.bare = t.bare := by
  cases nexthop with
  | file path => rfl
  | relay host port =>
      change (withRecipients t).bare = t.bare
      unfold withRecipients
      split <;> rfl

theorem Nexthop.settled_deliver
    (nexthop : Nexthop)
    (t : Transaction)
    (w : World) :
    (nexthop.deliver t w).1.2.settled = t.settled :=
  Transaction.settled_of_bare (nexthop.bare_deliver t w)

------------------------------------------------------------
-- What The Modules Answered
------------------------------------------------------------

namespace Queue

/- The first value other than zero that a module returns. -/
def firstValue
    (settings : Settings) :
    List Module → Transaction → Run (Option Int)
  | [], _ => return none
  | m :: rest, t => do
      sayOf .debug t ("Invoking module " ++ m.label)
      let (value, t) ← m.invoke settings t
      if value = 0 then firstValue settings rest t
      else return some value

/-
  Either all modules returned zero, or the policy judged the
  first other value. What every module keeps holds up to that
  point.
-/
theorem runModules_cases
    {queue : Queue}
    {settings : Settings}
    {names : List String}
    {modules : List Module}
    {t after : Transaction}
    {w w' : World}
    {outcome : Option Outcome}
    {ran : List String}
    (Inv : Transaction → Prop)
    (hKeeps :
      ∀ m ∈ modules, ∀ t w, Inv t →
        Inv (m.invoke settings t w).1.2)
    (hInv : Inv t)
    (hRun :
      queue.runModules settings names modules t w =
        ((outcome, ran, after), w')) :
    ((firstValue settings modules t w).1 = none ∧
        outcome = none ∧
        Inv after) ∨
      ∃ value judged stopped,
        (firstValue settings modules t w).1 = some value ∧
          value ≠ 0 ∧
          Inv judged ∧
          outcome = some stopped ∧
          queue.policy.judge settings judged value =
            (stopped, after) := by
  induction modules generalizing names t w with
  | nil =>
      cases hRun
      exact Or.inl ⟨rfl, rfl, hInv⟩
  | cons m rest ih =>
      rcases List.forall_mem_cons.mp hKeeps with
        ⟨hFirst, hRest⟩
      have hNext := hFirst t
        (sayOf .debug t ("Invoking module " ++ m.label) w).2 hInv
      simp only [runModules, Run.bind_apply] at hRun
      simp only [firstValue, Run.bind_apply]
      rcases hInvoke : m.invoke settings t
          (sayOf .debug t ("Invoking module " ++ m.label) w).2 with
        ⟨⟨value, left⟩, between⟩
      rw [hInvoke] at hRun hNext
      dsimp only at hRun hNext ⊢
      by_cases hZero : value = 0
      · rw [if_pos hZero] at hRun ⊢
        exact ih hRest hNext hRun
      · rw [if_neg hZero] at hRun ⊢
        rcases hJudge : queue.policy.judge settings left value with
          ⟨stopped, judged⟩
        simp only [Run.bind_apply, hJudge] at hRun
        cases hRun
        exact Or.inr
          ⟨value, left, stopped, rfl, hZero, hNext, rfl,
            hJudge⟩

/-
  What the modules leave: what was made of the value that
  stopped them, their names, and the transaction.
-/
def ran
    (queue : Queue)
    (settings : Settings)
    (t : Transaction) :
    Run (Option Outcome × List String × Transaction) := do
  let t ← queue.fetchUsers t
  queue.runModules settings [] queue.modules t

/- The value that stops the modules, if there is one. -/
def value?
    (queue : Queue)
    (settings : Settings)
    (t : Transaction) : Run (Option Int) := do
  let t ← queue.fetchUsers t
  firstValue settings queue.modules t

variable {queue : Queue}
variable {settings : Settings}

theorem ran_cases
    {t after : Transaction}
    {w w' : World}
    {outcome : Option Outcome}
    {names : List String}
    (hKeeps : ∀ m ∈ queue.modules, m.KeepsReply settings)
    (hRan :
      queue.ran settings t w = ((outcome, names, after), w')) :
    ((queue.value? settings t w).1 = none ∧
        outcome = none ∧
        after.reply = t.reply) ∨
      ∃ value judged stopped,
        (queue.value? settings t w).1 = some value ∧
          value ≠ 0 ∧
          judged.reply = t.reply ∧
          outcome = some stopped ∧
          queue.policy.judge settings judged value =
            (stopped, after) := by
  have hFetch : (queue.fetchUsers t w).1.reply = t.reply :=
    Transaction.reply_of_settled
      (settled_askAll queue.lookup (unknownAddresses t) t w)
  apply runModules_cases (·.reply = t.reply) _ hFetch hRan
  intro m hm other w hOther
  exact ((hKeeps m hm).invoke other w).trans hOther

/- What follows from the value, whatever the modules are. -/
theorem outcome_of_ran
    {t after : Transaction}
    {w w' : World}
    {outcome : Option Outcome}
    {names : List String}
    (hRan :
      queue.ran settings t w = ((outcome, names, after), w')) :
    ((queue.value? settings t w).1 = none ∧ outcome = none) ∨
      ∃ value judged stopped,
        (queue.value? settings t w).1 = some value ∧
          outcome = some stopped ∧
          queue.policy.judge settings judged value =
            (stopped, after) := by
  rcases runModules_cases (fun _ => True)
      (fun _ _ _ _ _ => True.intro) True.intro hRan with
    ⟨hValue, hOutcome, _⟩
      | ⟨value, judged, stopped, hValue, _, _, hOutcome, hJudge⟩
  · exact Or.inl ⟨hValue, hOutcome⟩
  · exact Or.inr
      ⟨value, judged, stopped, hValue, hOutcome, hJudge⟩

------------------------------------------------------------
-- What The Chain Ends With
------------------------------------------------------------

/-
  A chain that was stopped for good is over. Otherwise the
  message goes on to be written and handed on.
-/
theorem process_eq
    (queue : Queue)
    (settings : Settings)
    (t : Transaction)
    (w : World) :
    queue.process settings t w =
      match queue.ran settings t w with
      | ((some .abort, _, t), w) => ((.ok .aborted, t), w)
      | ((some .stopAccept, _, t), w) =>
          ((.ok .accepted, t), w)
      | ((some .carryOn, names, after), w) =>
          queue.finish settings (.take t.message) names
            .stopped after w
      | ((none, names, after), w) =>
          queue.finish settings (.take t.message) names
            .completed after w := by
  rcases hRan : queue.ran settings t w with
    ⟨⟨outcome, names, after⟩, w'⟩
  simp only [ran, Run.bind_apply] at hRan
  simp only [process, Run.bind_apply, hRan]
  cases outcome with
  | none => rfl
  | some outcome => cases outcome <;> rfl

/-
  The headers are written back, and the message is delivered
  if there is a nexthop.
-/
def Passes
    (settings : Settings)
    (before : Snapshot)
    (names : List String)
    (t : Transaction)
    (w : World) : Prop :=
  ∃ written flushed between,
    Chain.flush before settings (markModules settings names t) w =
        ((.ok written, flushed), between) ∧
      ∀ nexthop,
        Nexthop.find? between.files settings = some nexthop →
          (nexthop.deliver flushed between).1.1 = .ok ()

/-
  If the message cannot be written, that is the result. If it
  cannot be delivered the policy is told.
-/
theorem finish_cases
    (queue : Queue)
    (settings : Settings)
    (before : Snapshot)
    (names : List String)
    (disposition : Disposition)
    (t : Transaction)
    (w : World) :
    (Passes settings before names t w ∧
        (queue.finish settings before names disposition t
            w).1.1 = .ok disposition ∧
        (queue.finish settings before names disposition t
            w).1.2.reply = t.reply) ∨
      (¬ Passes settings before names t w ∧
        ((∃ e,
          (queue.finish settings before names disposition t
            w).1.1 = .error e) ∨
          ∃ undelivered e,
            (queue.finish settings before names disposition t
                w).1 =
              (.ok disposition,
                queue.policy.undelivered settings undelivered
                  e))) := by
  have hReply :=
    Transaction.reply_of_settled
      ((Chain.settled_flush before settings
        (markModules settings names t) w).trans
        (settled_markModules settings names t))
  unfold Passes
  simp only [finish, Run.bind_apply]
  rcases hFlush : Chain.flush before settings
      (markModules settings names t) w with
    ⟨⟨result, flushed⟩, between⟩
  rw [hFlush] at hReply
  cases result with
  | error e =>
      refine Or.inr ⟨?_, Or.inl ⟨e, rfl⟩⟩
      rintro ⟨written, other, after, hOther, _⟩
      cases hOther
  | ok written =>
      simp only [Run.bind_apply, handOn, Run.get_apply]
      cases hFind : Nexthop.find? between.files settings with
      | none =>
          refine Or.inl ⟨⟨_, _, _, rfl, ?_⟩, rfl, hReply⟩
          intro nexthop hSome
          rw [hFind] at hSome
          cases hSome
      | some nexthop =>
          have hKept :=
            Transaction.reply_of_settled
              (nexthop.settled_deliver flushed between)
          simp only [Run.bind_apply]
          rcases hDeliver : nexthop.deliver flushed between with
            ⟨⟨delivery, delivered⟩, after⟩
          rw [hDeliver] at hKept
          cases delivery with
          | ok done =>
              refine Or.inl
                ⟨⟨_, _, _, rfl, ?_⟩, rfl, hKept.trans hReply⟩
              intro other hOther
              rw [hFind] at hOther
              cases hOther
              rw [hDeliver]
          | error e =>
              refine Or.inr ⟨?_, Or.inr ⟨delivered, e, rfl⟩⟩
              rintro ⟨_, _, _, hSame, hPasses⟩
              cases hSame
              have hOk := hPasses nexthop hFind
              rw [hDeliver] at hOk
              cases hOk

end Queue

end MailFilter
