import Mathlib.Data.List.Nodup
import MailFilter.Proofs.Chain.Answered
import MailFilter.Proofs.Chain.Course
import MailFilter.Proofs.Chain.Flush
import MailFilter.Proofs.Chain.Passage

/-
  Whom the look-up backend is asked about.

  For every message the addresses that nothing is known of are
  picked from the sender and the recipients. Then the backend
  is asked about all that were picked. What it answers is
  known from then on, to this message and to the later ones,
  unless a module forgets it.

  An address that a message has twice is picked twice. So the
  backend may be asked again about an address that it has just
  answered for.

  Key definitions include:
    * `World.asked`
    * `Transaction.Remembers`
    * `Queue.KeepsUsers`
    * `Call`
    * `Call.AsksOnce`
    * `Call.SparesKnown`
    * `Call.CachesAnswers`
    * `Call.NeverAsksAgain`

  Main statements:
    * `Queue.lookup_fetchUsers`
    * `Queue.asked_process`
    * `Queue.remembers_process`
    * `Call.known_processAll`
    * `Call.asksOnce_iff`
-/

namespace MailFilter

open World

------------------------------------------------------------
-- Whom The Backend Was Asked About
------------------------------------------------------------

/- The address that the backend was asked about. -/
def Note.asked? : Note → Option String
  | .asked address => some address
  | _ => none

/- All addresses it was asked about, with the newest first. -/
def World.asked
    (w : World) : List String :=
  w.journal.filterMap Note.asked?

theorem World.asked_of_journal
    {w w' : World}
    (hSame : w'.journal = w.journal) :
    w'.asked = w.asked :=
  congrArg (List.filterMap Note.asked?) hSame

/- Loading a message leaves no note. -/
theorem Module.journal_reload
    (m : Module)
    (path : Path)
    (t : Transaction)
    (w : World) :
    (m.reload path t w).2.journal = w.journal := by
  simp only [reload, Run.bind_apply, Spool.load_apply]
  cases (say _ _ w).2.files.read path with
  | error fault => rfl
  | ok raw =>
      dsimp only
      cases Message.parse raw <;> rfl

/- A module asks nobody about users. -/
theorem Module.asked_invoke
    (m : Module)
    (settings : Settings)
    (t : Transaction)
    (w : World) :
    (m.invoke settings t w).2.asked = w.asked := by
  rcases hRun : m.run settings t w.files with
    ⟨value, left, files⟩
  simp only [invoke, Run.bind_apply, Run.get_apply, hRun]
  split
  · exact World.asked_of_journal
      (w := (record (.invoked m.name m.library.isSome t
        (w.files.content? t.envelope.messageFile)) w).2)
      (m.journal_reload _ _ _)
  · rfl

theorem Chain.journal_flush
    (before : Snapshot)
    (settings : Settings)
    (t : Transaction)
    (w : World) :
    (flush before settings t w).2.journal = w.journal := by
  unfold flush
  cases t.message with
  | none => rfl
  | some message =>
      dsimp only
      split
      · simp only [Run.bind_apply, replaceBlock,
          Spool.read_apply]
        cases (say _ _ w).2.files.read
            t.envelope.messageFile with
        | error fault => rfl
        | ok raw =>
            dsimp only
            rcases Spool.exists_exit settings.global.queueDir
                t.envelope.messageFile
                [message.block, raw.drop message.bodyOffset]
                (say .debug ("Headers changed, rewriting " ++
                  t.envelope.messageFile.render) w).2 with
              ⟨result, after, hReplace, _⟩
            rw [hReplace]
            cases result with
            | error e => rfl
            | ok done => rfl
      · rfl

theorem Nexthop.journal_deliver
    (nexthop : Nexthop)
    (t : Transaction)
    (w : World) :
    (nexthop.deliver t w).2.journal = w.journal := by
  cases nexthop with
  | file target =>
      simp only [deliver, copyTo, Run.bind_apply, Run.get_apply]
      cases (say _ _ w).2.files.copy
          t.envelope.messageFile target with
      | error fault => rfl
      | ok files => rfl
  | relay host port =>
      simp only [deliver, relayTo, Run.bind_apply,
        Run.get_apply]
      cases w.files.read
          (withRecipients t).envelope.messageFile with
      | error fault => rfl
      | ok data =>
          cases w.network.relays.lookup (host, port) with
          | none => rfl
          | some script => rfl

------------------------------------------------------------
-- What Is Known Of Users
------------------------------------------------------------

/- What was known of users is still known. -/
def Transaction.Remembers
    (t after : Transaction) : Prop :=
  ∀ address answer,
    t.users.lookup address = some answer →
      after.users.lookup address = some answer

namespace Transaction.Remembers

variable {t left after : Transaction}

theorem refl
    (t : Transaction) :
    t.Remembers t :=
  fun _ _ hKnown => hKnown

theorem trans
    (hFirst : t.Remembers left)
    (hNext : left.Remembers after) :
    t.Remembers after :=
  fun address answer hKnown =>
    hNext address answer (hFirst address answer hKnown)

theorem of_users
    (hSame : after.users = t.users) :
    t.Remembers after := by
  intro address answer hKnown
  rw [hSame]
  exact hKnown

end Transaction.Remembers

/-
  No module of a chain forgets what is known of a user, and
  neither does its policy.
-/
structure Queue.KeepsUsers
    (queue : Queue)
    (settings : Settings) : Prop where
  modules :
    ∀ m ∈ queue.modules, ∀ (t : Transaction) files,
      t.Remembers (m.run settings t files).2.1
  judge :
    ∀ (t : Transaction) value,
      t.Remembers (queue.policy.judge settings t value).2
  undelivered :
    ∀ (t : Transaction) e,
      t.Remembers (queue.policy.undelivered settings t e)

/- A module that only carries out actions forgets nothing. -/
theorem Module.Follows.users_run
    {m : Module}
    {allowed : Action → Prop}
    (hFollows : m.Follows allowed)
    (settings : Settings)
    (t : Transaction)
    (files : Files) :
    (m.run settings t files).2.1.users = t.users := by
  refine hFollows.keeps (fun s => s.1.users = t.users) ?_
    settings rfl
  rintro action _ ⟨now, current⟩ hSame
  cases action with
  | edit change => exact hSame
  | responseMsg text => exact hSame
  | reply code text => exact hSame
  | sender address => exact hSame
  | recipients addresses => exact hSame
  | dropMessage => exact hSame
  | deleteSpool => exact hSame
  | renameDirectory source target => exact hSame
  | write content keepStamp => exact hSame

/- The policy of the SMTP engine only decides on replies. -/
theorem Smtp.users_judge
    (settings : Settings)
    (t : Transaction)
    (value : Int) :
    (judge settings t value).2.users = t.users := by
  unfold judge judgeFailure
  repeat' split
  all_goals rfl

theorem Pipe.users_judge
    (settings : Settings)
    (t : Transaction)
    (value : Int) :
    (judge settings t value).2.users = t.users := by
  unfold judge
  repeat' split
  all_goals rfl

namespace Queue

/- So no chain of such modules does in either engine. -/
theorem keepsUsers_of_follows
    {queue : Queue}
    {allowed : Action → Prop}
    (hModules : ∀ m ∈ queue.modules, m.Follows allowed)
    (hPolicy :
      queue.policy = Smtp.policy ∨ queue.policy = Pipe.policy)
    (settings : Settings) :
    queue.KeepsUsers settings where
  modules := fun m hMem t files =>
    .of_users ((hModules m hMem).users_run settings t files)
  judge := fun t value => by
    rcases hPolicy with hSmtp | hPipe
    · rw [hSmtp]
      exact .of_users (Smtp.users_judge settings t value)
    · rw [hPipe]
      exact .of_users (Pipe.users_judge settings t value)
  undelivered := fun t e => by
    rcases hPolicy with hSmtp | hPipe
    · rw [hSmtp]
      exact .of_users rfl
    · rw [hPipe]
      exact .of_users rfl

------------------------------------------------------------
-- Asking
------------------------------------------------------------

theorem lookup_filter_ne
    {address other : String}
    (hOther : other ≠ address)
    (users : List (String × Option UserRecord)) :
    (users.filter (·.1 != address)).lookup other =
      users.lookup other := by
  induction users with
  | nil => rfl
  | cons user rest ih =>
      rcases user with ⟨name, known⟩
      by_cases hName : name = address
      · subst hName
        simp [List.lookup_cons, beq_eq_false_iff_ne.mpr hOther,
          ih]
      · simp [List.lookup_cons, hName, ih]

/- An answer counts for its own address only. -/
theorem lookup_remember
    (users : List (String × Option UserRecord))
    (address other : String)
    (answer : Option UserRecord) :
    (remember users address answer).lookup other =
      if other = address then some answer
        else users.lookup other := by
  unfold remember
  rw [List.lookup_cons]
  by_cases hOwn : other = address
  · simp [hOwn]
  · rw [if_neg hOwn, beq_eq_false_iff_ne.mpr hOwn]
    exact lookup_filter_ne hOwn users

/- The backend is asked about every address, one by one. -/
theorem asked_askAll
    (lookup : Lookup)
    (addresses : List String)
    (t : Transaction)
    (w : World) :
    (askAll lookup addresses t w).2.asked =
      addresses.reverse ++ w.asked := by
  induction addresses generalizing t w with
  | nil => rfl
  | cons address rest ih =>
      simp only [askAll, Run.bind_apply, List.reverse_cons,
        List.append_assoc]
      cases lookup address with
      | ok answer => exact ih _ _
      | error e => exact ih _ _

/-
  The answers are known then. A failure leaves what was known,
  and has no part in what becomes of the other addresses.
-/
theorem lookup_askAll
    (lookup : Lookup)
    (addresses : List String)
    (t : Transaction)
    (w : World)
    (address : String) :
    (askAll lookup addresses t w).1.users.lookup address =
      if address ∈ addresses then
          (lookup address).toOption.or (t.users.lookup address)
        else t.users.lookup address := by
  induction addresses generalizing t w with
  | nil => rfl
  | cons first rest ih =>
      simp only [askAll, Run.bind_apply]
      cases hLookup : lookup first with
      | ok answer =>
          dsimp only
          rw [ih, lookup_remember]
          by_cases hFirst : address = first
          · subst hFirst
            simp [hLookup, Except.toOption]
          · simp [hFirst]
      | error e =>
          simp only [Run.bind_apply]
          rw [ih]
          by_cases hFirst : address = first
          · subst hFirst
            simp [hLookup, Except.toOption]
          · simp [hFirst]

/- What was known stays, and the rest is what was answered. -/
theorem lookup_fetchUsers
    (queue : Queue)
    (t : Transaction)
    (w : World)
    (address : String) :
    (queue.fetchUsers t w).1.users.lookup address =
      (t.users.lookup address).or
          (if address ∈ t.envelope.sender.toList ++
                t.envelope.recipients ∧
              address ≠ "" then
            (queue.lookup address).toOption
          else none) := by
  unfold fetchUsers
  rw [lookup_askAll]
  cases hKnown : t.users.lookup address with
  | some answer => simp [unknownAddresses, hKnown]
  | none => simp [unknownAddresses, hKnown, or_and_right]

/- Nothing that was known is forgotten meanwhile. -/
theorem remembers_fetchUsers
    (queue : Queue)
    (t : Transaction)
    (w : World) :
    t.Remembers (queue.fetchUsers t w).1 := by
  intro address answer hKnown
  rw [lookup_fetchUsers, hKnown]
  rfl

------------------------------------------------------------
-- A Message On Its Way
------------------------------------------------------------

variable {queue : Queue}
variable {settings : Settings}
variable {before : Snapshot}

/- No later step asks the backend anything. -/
theorem Step.Takes.asked
    {step : Step}
    {s s' : Transaction × World}
    (hTakes : Takes queue settings before step s s')
    (hLater : 0 < step.rank) :
    s'.2.asked = s.2.asked := by
  cases hTakes with
  | fetched t w => exact absurd hLater (Nat.lt_irrefl 0)
  | @invoked m value t after w w' hMem hInvoke =>
      have hAsked := m.asked_invoke settings t w
      rw [hInvoke] at hAsked
      exact hAsked
  | judged w hJudge => rfl
  | marked names t w => rfl
  | @flushed result t after w w' hFlush =>
      have hJournal := Chain.journal_flush before settings t w
      rw [hFlush] at hJournal
      exact World.asked_of_journal hJournal
  | @delivered nexthop result t after w w' hFind hDeliver =>
      have hJournal := nexthop.journal_deliver t w
      rw [hDeliver] at hJournal
      exact World.asked_of_journal hJournal
  | told e t w => rfl

/- No step forgets what is known of a user. -/
theorem Step.Takes.remembers
    (hKeeps : queue.KeepsUsers settings)
    {step : Step}
    {s s' : Transaction × World}
    (hTakes : Takes queue settings before step s s') :
    s.1.Remembers s'.1 := by
  cases hTakes with
  | fetched t w => exact queue.remembers_fetchUsers t w
  | @invoked m value t after w w' hMem hInvoke =>
      have hUsers :=
        Transaction.users_of_bare (m.bare_invoke settings t w)
      rw [hInvoke] at hUsers
      exact (hKeeps.modules m hMem t w.files).trans
        (.of_users hUsers)
  | @judged value outcome t after w hJudge =>
      have hJudged := hKeeps.judge t value
      rw [hJudge] at hJudged
      exact hJudged
  | marked names t w => exact .of_users rfl
  | @flushed result t after w w' hFlush =>
      have hBare := Chain.bare_flush before settings t w
      rw [hFlush] at hBare
      exact .of_users (Transaction.users_of_bare hBare)
  | @delivered nexthop result t after w w' hFind hDeliver =>
      have hBare := nexthop.bare_deliver t w
      rw [hDeliver] at hBare
      exact .of_users (Transaction.users_of_bare hBare)
  | told e t w => exact hKeeps.undelivered t e

theorem Performs.asked
    {steps : List Step}
    {s s' : Transaction × World}
    (hPerforms : Performs queue settings before steps s s')
    (hLater : ∀ step ∈ steps, 0 < step.rank) :
    s'.2.asked = s.2.asked := by
  induction hPerforms with
  | done => rfl
  | logged event _ ih => exact ih hLater
  | step hTakes _ ih =>
      rcases List.forall_mem_cons.mp hLater with
        ⟨hFirst, hRest⟩
      exact (ih hRest).trans (hTakes.asked hFirst)

/-
  The backend is asked about the addresses that nothing is
  known of, however the message fares afterwards.
-/
theorem asked_process
    (queue : Queue)
    (settings : Settings)
    (t : Transaction)
    (w : World) :
    (queue.process settings t w).2.asked =
      (unknownAddresses t).reverse ++ w.asked := by
  rcases queue.exists_performs_fetched settings t w with
    ⟨calls, verdicts, finish, hCourse, hPerforms⟩
  exact (hPerforms.asked hCourse.rank_pos).trans
    (asked_askAll queue.lookup (unknownAddresses t) t w)

/- What is known after asking is known in the end. -/
theorem remembers_process
    (hKeeps : queue.KeepsUsers settings)
    (t : Transaction)
    (w : World) :
    (queue.fetchUsers t w).1.Remembers
      (queue.process settings t w).1.2 := by
  rcases queue.exists_performs_fetched settings t w with
    ⟨calls, verdicts, finish, _, hPerforms⟩
  exact hPerforms.keeps
    (fun s => (queue.fetchUsers t w).1.Remembers s.1)
    (fun _ _ _ hInv => hInv)
    (fun _ _ _ hTakes hInv =>
      hInv.trans (hTakes.remembers hKeeps))
    (.refl _)

end Queue

------------------------------------------------------------
-- Calls
------------------------------------------------------------

/-
  A message that is sent through a chain: who it is from and
  for, and the chain and the settings at that time. Both may
  be others for each message of a session.
-/
structure Call where
  queue : Queue
  settings : Settings
  sender : Option String
  recipients : List String

namespace Call

/- All addresses of a call. -/
def addresses
    (call : Call) : List String :=
  call.sender.toList ++ call.recipients

/- What is left of a session, with the envelope of a call. -/
def start
    (call : Call)
    (t : Transaction) : Transaction :=
  { t with
    envelope := { t.envelope with
      sender := call.sender
      recipients := call.recipients } }

/- The part of a call in which users are looked up. -/
def fetch
    (call : Call)
    (t : Transaction) : Run Transaction :=
  call.queue.fetchUsers (call.start t)

/- A whole call. -/
def process
    (call : Call)
    (t : Transaction) : Run Transaction := do
  let (_, t) ← call.queue.process call.settings (call.start t)
  return t

/- The calls of a session, one after the other. -/
def processAll :
    List Call → Transaction → Run Transaction
  | [], t => return t
  | call :: calls, t => do
      let t ← call.process t
      processAll calls t

/- The backend is asked at most once about each address. -/
def AsksOnce
    (call : Call)
    (t : Transaction)
    (w : World) : Prop :=
  ∀ address,
    (call.process t w).2.asked.count address ≤
      w.asked.count address + 1

/- The backend is asked about no address that is known. -/
def SparesKnown
    (call : Call)
    (t : Transaction)
    (w : World) : Prop :=
  ∀ address answer,
    t.users.lookup address = some answer →
      (call.process t w).2.asked.count address =
        w.asked.count address

/-
  What is known of users once they were looked up: what was
  known before, and every answer to a look-up of an address of
  the call that nothing was known of. A look-up that fails
  leaves nothing.
-/
structure CachesAnswers
    (call : Call)
    (t : Transaction)
    (w : World) : Prop where
  kept : t.Remembers (call.fetch t w).1
  answered :
    ∀ address ∈ call.addresses,
      address ≠ "" →
      t.users.lookup address = none →
        ∀ answer,
          call.queue.lookup address = .ok answer →
            (call.fetch t w).1.users.lookup address =
              some answer
  failed :
    ∀ address e,
      t.users.lookup address = none →
      call.queue.lookup address = .error e →
        (call.fetch t w).1.users.lookup address = none
  others :
    ∀ address,
      address ∉ call.addresses ∨ address = "" →
        (call.fetch t w).1.users.lookup address =
          t.users.lookup address

/-
  What is known once users were looked up stays known, and no
  later call asks about it.
-/
def NeverAsksAgain
    (call : Call)
    (later : List Call)
    (t : Transaction)
    (w : World) : Prop :=
  ∀ address answer,
    (call.fetch t w).1.users.lookup address = some answer →
      (processAll later (call.process t w).1
            (call.process t w).2).1.users.lookup address =
          some answer ∧
        (processAll later (call.process t w).1
              (call.process t w).2).2.asked.count address =
            (call.process t w).2.asked.count address

/- The call has no address twice that has to be looked up. -/
def NamesOnce
    (call : Call)
    (t : Transaction) : Prop :=
  ∀ address,
    address ≠ "" →
    t.users.lookup address = none →
      call.addresses.count address ≤ 1

/-
  The backend is asked as often about an address as the call
  has it, unless the address is empty or known.
-/
theorem count_asked_process
    (call : Call)
    (t : Transaction)
    (w : World)
    (address : String) :
    (call.process t w).2.asked.count address =
      (if address ≠ "" ∧ t.users.lookup address = none then
          call.addresses.count address
        else 0) + w.asked.count address := by
  have hAsked :
      (call.process t w).2.asked =
        (Queue.unknownAddresses (call.start t)).reverse ++
          w.asked :=
    call.queue.asked_process call.settings (call.start t) w
  have hUnknown :
      Queue.unknownAddresses (call.start t) =
        call.addresses.filter fun address =>
        !address.isEmpty && (t.users.lookup address).isNone :=
    rfl
  rw [hAsked, List.count_append, List.count_reverse, hUnknown]
  congr 1
  split
  · rename_i hNew
    exact List.count_filter (by simp [hNew])
  · rename_i hOld
    apply List.count_eq_zero.mpr
    intro hMem
    have hNew := (List.mem_filter.mp hMem).2
    exact hOld (by simpa using hNew)

theorem cachesAnswers
    (call : Call)
    (t : Transaction)
    (w : World) :
    call.CachesAnswers t w := by
  have hLookup :
      ∀ address,
        (call.fetch t w).1.users.lookup address =
          (t.users.lookup address).or
              (if address ∈ call.addresses ∧ address ≠ "" then
                (call.queue.lookup address).toOption
              else none) :=
    call.queue.lookup_fetchUsers (call.start t) w
  constructor
  case kept =>
    exact call.queue.remembers_fetchUsers (call.start t) w
  case answered =>
    intro address hMem hFilled hNew answer hAnswer
    rw [hLookup, hNew, if_pos ⟨hMem, hFilled⟩, hAnswer]
    rfl
  case failed =>
    intro address e hNew hFailed
    rw [hLookup, hNew, hFailed]
    simp [Except.toOption]
  case others =>
    intro address hOther
    have hNot :
        ¬ (address ∈ call.addresses ∧ address ≠ "") :=
      fun hBoth => hOther.elim (· hBoth.1) hBoth.2
    rw [hLookup, if_neg hNot, Option.or_none]

theorem sparesKnown
    (call : Call)
    (t : Transaction)
    (w : World) :
    call.SparesKnown t w := by
  intro address answer hKnown
  simp [count_asked_process, hKnown]

/- An address that is known stays so, and is not asked about. -/
theorem known_process
    {call : Call}
    (hKeeps : call.queue.KeepsUsers call.settings)
    {t : Transaction}
    {address : String}
    {answer : Option UserRecord}
    (hKnown : t.users.lookup address = some answer)
    (w : World) :
    (call.process t w).1.users.lookup address = some answer ∧
      (call.process t w).2.asked.count address =
        w.asked.count address := by
  have hFetched :=
    (call.cachesAnswers t w).kept address answer hKnown
  exact ⟨Queue.remembers_process hKeeps (call.start t) w
    address answer hFetched,
    call.sparesKnown t w address answer hKnown⟩

/- So it is not in a whole session. -/
theorem known_processAll
    {calls : List Call}
    (hKeeps :
      ∀ call ∈ calls, call.queue.KeepsUsers call.settings)
    {t : Transaction}
    {address : String}
    {answer : Option UserRecord}
    (hKnown : t.users.lookup address = some answer)
    (w : World) :
    (processAll calls t w).1.users.lookup address = some answer ∧
      (processAll calls t w).2.asked.count address =
        w.asked.count address := by
  induction calls generalizing t w with
  | nil => exact ⟨hKnown, rfl⟩
  | cons call rest ih =>
      rcases List.forall_mem_cons.mp hKeeps with
        ⟨hFirst, hRest⟩
      rcases known_process hFirst hKnown w with
        ⟨hStill, hCount⟩
      rcases ih hRest hStill (call.process t w).2 with
        ⟨hEnd, hSame⟩
      exact ⟨hEnd, hSame.trans hCount⟩

/-
  Whatever happened before in a session, a call asks about no
  address twice exactly if no address that has to be looked up
  is named twice. Whether or not this is so, no address that
  is known is asked about, the answers are kept, and a failure
  concerns its own address only. So what is known is never
  asked about in a later call, if the modules and policies do
  not forget it.
-/
theorem asksOnce_iff
    (call : Call)
    (t : Transaction)
    (w : World) :
    (call.AsksOnce t w ↔ call.NamesOnce t) ∧
      call.SparesKnown t w ∧
      call.CachesAnswers t w ∧
      ∀ later,
        (∀ other ∈ call :: later,
          other.queue.KeepsUsers other.settings) →
            call.NeverAsksAgain later t w := by
  refine ⟨⟨?_, ?_⟩, call.sparesKnown t w,
    call.cachesAnswers t w, ?_⟩
  · intro hOnce address hFilled hNew
    have hCount := hOnce address
    rw [count_asked_process, if_pos ⟨hFilled, hNew⟩] at hCount
    omega
  · intro hNames address
    rw [count_asked_process]
    split
    · rename_i hNew
      have hCount := hNames address hNew.1 hNew.2
      omega
    · omega
  · intro later hKeeps address answer hFetched
    rcases List.forall_mem_cons.mp hKeeps with
      ⟨hFirst, hLater⟩
    have hKnown :=
      Queue.remembers_process hFirst (call.start t) w address
        answer hFetched
    exact known_processAll hLater hKnown _

/- A backend that knows one user, and fails for one address. -/
def flaky : Lookup := fun address =>
  if address = "broken@x" then
    .error ⟨address, "backend down"⟩
  else if address = "a@x" then
    .ok (some ⟨address, []⟩)
  else
    .ok none

/- A call with that backend and a module that does nothing. -/
def ofAddresses
    (sender : Option String)
    (recipients : List String) : Call where
  queue := {
    modules := [.scripted "m1" [] 0]
    policy := Smtp.policy
    lookup := flaky
  }
  settings := {}
  sender := sender
  recipients := recipients

theorem keepsUsers_ofAddresses
    (sender : Option String)
    (recipients : List String) :
    (ofAddresses sender recipients).queue.KeepsUsers
      (ofAddresses sender recipients).settings := by
  have hFollows :
      ∀ m ∈ (ofAddresses sender recipients).queue.modules,
        m.Follows fun _ => False := by
    intro m hMem
    rw [List.mem_singleton.mp hMem]
    exact Module.follows_scripted (by simp) "m1" 0
  exact Queue.keepsUsers_of_follows hFollows (Or.inl rfl) _

/- A message from a stranger to a user and a broken address. -/
def fromStranger : Call :=
  ofAddresses (some "s@x") ["a@x", "broken@x"]

/-
  Only the address for which the backend fails is asked about
  again when the message is sent once more.
-/
theorem asksOnce_fromStranger :
    fromStranger.AsksOnce { id := 0 } {} ∧
      fromStranger.NeverAsksAgain [fromStranger] { id := 0 } {} ∧
      (processAll [fromStranger, fromStranger]
            { id := 0 } {}).2.asked =
          ["broken@x", "broken@x", "a@x", "s@x"] := by
  have hOnce := fromStranger.asksOnce_iff { id := 0 } {}
  refine ⟨hOnce.1.mpr ?_, hOnce.2.2.2 _ ?_, by decide +kernel⟩
  · intro address _ _
    exact List.nodup_iff_count_le_one.mp (by decide) address
  · intro other hOther
    simp only [List.mem_cons, List.not_mem_nil, or_false,
      or_self] at hOther
    rw [hOther]
    exact keepsUsers_ofAddresses _ _

/-
  The backend is asked twice about a recipient that is named
  twice, and about somebody who writes to themselves, though
  it had answered.
-/
theorem not_asksOnce_ofAddresses :
    flaky "a@x" = .ok (some ⟨"a@x", []⟩) ∧
      ((ofAddresses none ["a@x", "a@x"]).process
            { id := 0 } {}).2.asked =
          ["a@x", "a@x"] ∧
      ¬ (ofAddresses none ["a@x", "a@x"]).AsksOnce
        { id := 0 } {} ∧
      ((ofAddresses (some "a@x") ["a@x"]).process
            { id := 0 } {}).2.asked =
          ["a@x", "a@x"] ∧
      ¬ (ofAddresses (some "a@x") ["a@x"]).AsksOnce
        { id := 0 } {} := by
  refine ⟨rfl, by decide +kernel, ?_, by decide +kernel, ?_⟩
  · intro hOnce
    exact absurd (hOnce "a@x") (by decide +kernel)
  · intro hOnce
    exact absurd (hOnce "a@x") (by decide +kernel)

end Call

end MailFilter
