import MailFilter.Chain.Queue
import MailFilter.Chain.Script
import MailFilter.Proofs.Spool.Replace

/-
  How a message passes through a chain, the log and the
  journal aside.

  A stage is what the modules work on, together with the
  bytes that the message was last read from. Every module
  takes one stage to the next. An invariant of the stages
  that every module keeps holds when the chain has run.

  Key definitions include:
    * `Stage`
    * `Module.pass`
    * `Module.Follows`
    * `Queue.pass`
    * `Queue.left`
    * `Policy.KeepsMessage`
    * `World.holding`

  Main statements:
    * `Queue.runModules_apply`
    * `Queue.left_keeps`
    * `Queue.steps_of_process`
-/

namespace MailFilter

open World

------------------------------------------------------------
-- Stages
------------------------------------------------------------

/-
  Where a message stands in a chain: the transaction, the
  files, what the message was last read from, and the names
  of the modules that ran, with the newest first.
-/
structure Stage where
  transaction : Transaction
  files : Files
  source : Bytes
  names : List String := []

/- What a file holds and the message that it reads as. -/
def Files.load?
    (files : Files)
    (path : Path) : Option (Bytes × Message) :=
  match files.read path with
  | .error _ => none
  | .ok raw =>
      match Message.parse raw with
      | .error _ => none
      | .ok message => some (raw, message)

theorem Files.load?_eq_some_iff
    {files : Files}
    {path : Path}
    {raw : Bytes}
    {message : Message} :
    files.load? path = some (raw, message) ↔
      files.read path = .ok raw ∧
        Message.parse raw = .ok message := by
  unfold Files.load?
  constructor
  · intro hLoad
    split at hLoad
    · cases hLoad
    · rename_i content hRead
      split at hLoad
      · cases hLoad
      · rename_i read hParse
        cases hLoad
        exact ⟨hRead, hParse⟩
  · rintro ⟨hRead, hParse⟩
    rw [hRead]
    dsimp only
    rw [hParse]

namespace Stage

/- The path of the spool file. -/
def path
    (s : Stage) : Path :=
  s.transaction.envelope.messageFile

/- Read the message from a file, if it reads as one. -/
def reload
    (s : Stage)
    (path : Path) : Stage :=
  match s.files.load? path with
  | none => s
  | some (raw, message) =>
      { s with
        transaction := s.transaction.withMessage (some message)
        source := raw }

end Stage

namespace Module

/- The value of a module and the stage after it. -/
def pass
    (m : Module)
    (settings : Settings)
    (s : Stage) : Int × Stage :=
  let (value, t, files) := m.run settings s.transaction s.files
  let ran : Stage :=
    { s with
      transaction := t
      files := files
      names := m.name :: s.names }
  if value = 0 ∧
      files.modified? s.path ≠ s.files.modified? s.path then
    (value, ran.reload s.path)
  else
    (value, ran)

/-
  All that a module does is a sequence of actions of some
  kind. It may choose them, and its value, by what it sees.
-/
def Follows
    (m : Module)
    (allowed : Action → Prop) : Prop :=
  ∀ settings t files, ∃ actions : List Action,
    (∀ action ∈ actions, allowed action) ∧
      (m.run settings t files).2 =
        actions.foldl (fun state action => action.run state)
          (t, files)

end Module

namespace Queue

/-
  Run modules up to the first one that returns a value other
  than zero, and judge that value.
-/
def pass
    (queue : Queue)
    (settings : Settings) :
    List Module → Stage → Option Outcome × Stage
  | [], s => (none, s)
  | m :: rest, s =>
      let (value, s) := m.pass settings s
      if value = 0 then
        pass queue settings rest s
      else
        let (outcome, t) :=
          queue.policy.judge settings s.transaction value
        (some outcome, { s with transaction := t })

/-
  What the modules leave of a transaction whose message was
  read from `source`, with the header that lists them.
-/
def left
    (queue : Queue)
    (settings : Settings)
    (t : Transaction)
    (w : World)
    (source : Bytes) : Stage :=
  let s := (queue.pass settings queue.modules
    ⟨(queue.fetchUsers t w).1, w.files, source, []⟩).2
  { s with
    transaction :=
      markModules settings s.names.reverse s.transaction }

end Queue

------------------------------------------------------------
-- Policies
------------------------------------------------------------

/- Failures change neither the message nor its file. -/
structure Policy.KeepsMessage
    (policy : Policy) : Prop where
  judge :
    ∀ settings t value,
      (policy.judge settings t value).2.message = t.message ∧
        (policy.judge settings t
            value).2.envelope.messageFile =
          t.envelope.messageFile
  undelivered :
    ∀ settings t e,
      (policy.undelivered settings t e).message = t.message ∧
        (policy.undelivered settings t
            e).envelope.messageFile =
          t.envelope.messageFile

------------------------------------------------------------
-- Modules
------------------------------------------------------------

namespace Module

theorem reload_apply
    (m : Module)
    (path : Path)
    (s : Stage)
    {w : World}
    (hFiles : w.files = s.files) :
    ∃ after,
      m.reload path s.transaction w =
          ((s.reload path).transaction, after) ∧
        after.files = s.files := by
  simp only [reload, Run.bind_apply, Spool.load_apply,
    files_say, hFiles]
  unfold Stage.reload Files.load?
  cases s.files.read path with
  | error fault =>
      exact ⟨_, rfl, hFiles⟩
  | ok raw =>
      dsimp only
      cases Message.parse raw with
      | error e => exact ⟨_, rfl, hFiles⟩
      | ok message => exact ⟨_, rfl, hFiles⟩

/- Reading the message again leaves the rest as it was. -/
theorem files_reload
    (s : Stage)
    (path : Path) :
    (s.reload path).files = s.files ∧
      (s.reload path).names = s.names := by
  unfold Stage.reload
  split <;> exact ⟨rfl, rfl⟩

theorem invoke_apply
    (m : Module)
    (settings : Settings)
    (s : Stage)
    {w : World}
    (hFiles : w.files = s.files) :
    ∃ after,
      m.invoke settings s.transaction w =
          (((m.pass settings s).1,
            (m.pass settings s).2.transaction), after) ∧
        after.files = (m.pass settings s).2.files := by
  rcases hRun : m.run settings s.transaction s.files with
    ⟨value, t, files⟩
  simp only [invoke, pass, Stage.path, Run.bind_apply,
    Run.get_apply, setFiles_apply, hFiles, hRun]
  split
  · rcases m.reload_apply s.transaction.envelope.messageFile
        { s with
          transaction := t
          files := files
          names := m.name :: s.names }
        (w := { (record (Note.invoked m.name m.library.isSome
            s.transaction
            (s.files.content?
              s.transaction.envelope.messageFile)) w).2 with
          files := files })
        rfl with
      ⟨after, hReload, hAfter⟩
    simp only [Run.bind_apply, Run.pure_apply, hReload]
    refine ⟨after, rfl, ?_⟩
    rw [(files_reload _ _).1]
    exact hAfter
  · exact ⟨_, rfl, rfl⟩

theorem names_pass
    (m : Module)
    (settings : Settings)
    (s : Stage) :
    (m.pass settings s).2.names = m.name :: s.names := by
  unfold pass
  dsimp only
  split
  · exact (files_reload _ _).2
  · rfl

/- What every action keeps, a module that follows them keeps. -/
theorem Follows.keeps
    {m : Module}
    {allowed : Action → Prop}
    (hFollows : m.Follows allowed)
    (Inv : Transaction × Files → Prop)
    (hAction :
      ∀ action, allowed action → ∀ state, Inv state →
        Inv (action.run state))
    (settings : Settings)
    {t : Transaction}
    {files : Files}
    (hInv : Inv (t, files)) :
    Inv (m.run settings t files).2 := by
  rcases hFollows settings t files with ⟨actions, hAll, hRun⟩
  rw [hRun]
  clear hRun
  generalize (t, files) = state at hInv
  induction actions generalizing state with
  | nil => exact hInv
  | cons action rest ih =>
      rcases List.forall_mem_cons.mp hAll with
        ⟨hFirst, hRest⟩
      exact ih hRest _ (hAction action hFirst state hInv)

theorem Follows.mono
    {m : Module}
    {allowed other : Action → Prop}
    (hFollows : m.Follows allowed)
    (hOther : ∀ action, allowed action → other action) :
    m.Follows other := by
  intro settings t files
  rcases hFollows settings t files with ⟨actions, hAll, hRun⟩
  exact ⟨actions,
    fun action hAction => hOther action (hAll action hAction),
    hRun⟩

/- A scripted module follows the actions of its script. -/
theorem follows_scripted
    {allowed : Action → Prop}
    {actions : List Action}
    (hAllowed : ∀ action ∈ actions, allowed action)
    (name : String)
    (value : Int) :
    (scripted name actions value).Follows allowed :=
  fun _ _ _ => ⟨actions, hAllowed, rfl⟩

end Module

------------------------------------------------------------
-- The Run Of A Chain
------------------------------------------------------------

namespace Queue

/- Running the modules takes a stage through all of them. -/
theorem runModules_apply
    (queue : Queue)
    (settings : Settings)
    (modules : List Module)
    (s : Stage)
    {w : World}
    (hFiles : w.files = s.files) :
    ∃ after,
      queue.runModules settings s.names modules s.transaction w =
          (((queue.pass settings modules s).1,
            (queue.pass settings modules s).2.names.reverse,
            (queue.pass settings modules s).2.transaction),
            after) ∧
        after.files =
          (queue.pass settings modules s).2.files := by
  induction modules generalizing s w with
  | nil => exact ⟨w, rfl, hFiles⟩
  | cons m rest ih =>
      rcases m.invoke_apply settings s
          (w := (sayOf .debug s.transaction
            ("Invoking module " ++ m.label) w).2) hFiles with
        ⟨between, hInvoke, hBetween⟩
      simp only [runModules, pass, Run.bind_apply, hInvoke]
      rw [← m.names_pass settings s]
      split
      · exact ih _ hBetween
      · exact ⟨_, rfl, hBetween⟩

/- Asking about users changes neither envelope nor files. -/
theorem askAll_apply
    (lookup : Lookup)
    (addresses : List String)
    (t : Transaction)
    (w : World) :
    (askAll lookup addresses t w).1.envelope = t.envelope ∧
      (askAll lookup addresses t w).2.files = w.files := by
  induction addresses generalizing t w with
  | nil => exact ⟨rfl, rfl⟩
  | cons address rest ih =>
      simp only [askAll, Run.bind_apply]
      cases lookup address with
      | ok answer => exact ih _ _
      | error e => exact ih _ _

theorem fetchUsers_apply
    (queue : Queue)
    (t : Transaction)
    (w : World) :
    (queue.fetchUsers t w).1.envelope = t.envelope ∧
      (queue.fetchUsers t w).2.files = w.files :=
  askAll_apply queue.lookup (unknownAddresses t) t w

/-
  An invariant that every module keeps, and that judging
  keeps, holds when the chain has run.
-/
theorem pass_keeps
    (queue : Queue)
    (settings : Settings)
    (Inv : Stage → Prop)
    {modules : List Module}
    (hPass :
      ∀ m ∈ modules, ∀ s, Inv s → Inv (m.pass settings s).2)
    (hJudge :
      ∀ s value, Inv s →
        Inv { s with
          transaction :=
            (queue.policy.judge settings s.transaction
              value).2 })
    {s : Stage}
    (hInv : Inv s) :
    Inv (queue.pass settings modules s).2 := by
  induction modules generalizing s with
  | nil => exact hInv
  | cons m rest ih =>
      rcases List.forall_mem_cons.mp hPass with
        ⟨hFirst, hRest⟩
      have hNext := hFirst s hInv
      unfold pass
      dsimp only
      split
      · exact ih hRest hNext
      · exact hJudge _ _ hNext

/-
  An invariant of the message, its file and the files that
  every module keeps, and that listing the modules keeps,
  holds of what a chain leaves.
-/
theorem left_keeps
    {queue : Queue}
    (hPolicy : queue.policy.KeepsMessage)
    (settings : Settings)
    (Inv : Stage → Prop)
    (hSame :
      ∀ s t, Inv s →
        t.message = s.transaction.message →
        t.envelope.messageFile = s.path →
        Inv { s with transaction := t })
    (hPass :
      ∀ m ∈ queue.modules, ∀ s, Inv s →
        Inv (m.pass settings s).2)
    (hMark :
      ∀ s value, Inv s →
        Inv { s with
          transaction :=
            s.transaction.mapMessage
              (·.appendHeader traceHeader value) })
    {t : Transaction}
    {w : World}
    {source : Bytes}
    (hInv : Inv ⟨t, w.files, source, []⟩) :
    Inv (queue.left settings t w source) := by
  have hFetch := (queue.fetchUsers_apply t w).1
  have hStart :=
    hSame _ (queue.fetchUsers t w).1 hInv
      (congrArg Envelope.message hFetch)
      (congrArg Envelope.messageFile hFetch)
  have hJudge :
      ∀ s value, Inv s →
        Inv { s with
          transaction :=
            (queue.policy.judge settings s.transaction
              value).2 } := by
    intro s value hStage
    rcases hPolicy.judge settings s.transaction value with
      ⟨hMessage, hFile⟩
    exact hSame s _ hStage hMessage hFile
  have hEnd := pass_keeps queue settings Inv hPass hJudge hStart
  unfold left markModules
  dsimp only
  split
  · exact hMark _ _ hEnd
  · exact hEnd

/-
  A message that was processed went through the modules, then
  its headers were written back, then it was handed on.
-/
theorem steps_of_process
    {queue : Queue}
    {settings : Settings}
    {t after : Transaction}
    {w w' : World}
    {disposition : Disposition}
    (hProcess :
      queue.process settings t w =
        ((.ok disposition, after), w'))
    (hProcessed : disposition.IsProcessed)
    (source : Bytes) :
    ∃ between written flushed w'',
      between.files = (queue.left settings t w source).files ∧
        Chain.flush (.take t.message) settings
            (queue.left settings t w source).transaction between =
          ((.ok written, flushed), w'') ∧
        queue.handOn settings flushed w'' = (after, w') := by
  rcases queue.runModules_apply settings queue.modules
      ⟨(queue.fetchUsers t w).1, w.files, source, []⟩
      (queue.fetchUsers_apply t w).2 with
    ⟨between, hRun, hBetween⟩
  have hFinish :
      ∃ ended,
        queue.finish settings (.take t.message)
            (queue.pass settings queue.modules
              ⟨(queue.fetchUsers t w).1, w.files, source,
                []⟩).2.names.reverse ended
            (queue.pass settings queue.modules
              ⟨(queue.fetchUsers t w).1, w.files, source,
                []⟩).2.transaction between =
          ((.ok disposition, after), w') := by
    simp only [process, Run.bind_apply] at hProcess
    rw [hRun] at hProcess
    cases hOutcome :
        (queue.pass settings queue.modules
          ⟨(queue.fetchUsers t w).1, w.files, source, []⟩).1 with
    | none =>
        rw [hOutcome] at hProcess
        exact ⟨_, hProcess⟩
    | some outcome =>
        rw [hOutcome] at hProcess
        cases outcome with
        | abort =>
            cases hProcess
            exact absurd hProcessed (by decide)
        | stopAccept =>
            cases hProcess
            exact absurd hProcessed (by decide)
        | carryOn => exact ⟨_, hProcess⟩
  rcases hFinish with ⟨ended, hFinish⟩
  simp only [finish, Run.bind_apply] at hFinish
  refine ⟨between, ?_⟩
  rcases hFlush : Chain.flush (.take t.message) settings
      (queue.left settings t w source).transaction between with
    ⟨⟨result, flushed⟩, w''⟩
  have hSame := hFlush
  unfold left at hSame
  rw [hSame] at hFinish
  cases result with
  | error e => cases hFinish
  | ok written =>
      refine ⟨written, flushed, w'', hBetween, rfl, ?_⟩
      simp only [Run.bind_apply] at hFinish
      cases hFinish
      rfl

end Queue

------------------------------------------------------------
-- A Single Spool File
------------------------------------------------------------

/- A world with nothing but one spool file. -/
def World.holding
    (raw : Bytes) : World where
  files := {
    entries := [(.spooled "/q" 0, ⟨0, 0, raw⟩)]
    directories := ["/q"]
    next := 1
  }

/- Its disk refuses nothing. -/
theorem World.isReady_holding
    (raw : Bytes) :
    (World.holding raw).files.IsReady "/q" where
  reliable := fun _ _ => rfl
  numbered :=
    Files.isNumbered_singleton rfl Nat.one_pos Nat.one_pos
  directory := by
    change ["/q"].contains (Path.render (.named "/q")) = true
    decide

/- A transaction with the message of that file. -/
def Transaction.holding
    (message : Message) : Transaction where
  id := 0
  envelope := {
    messageFile := .spooled "/q" 0
    message := some message
  }

/- Settings for the directory of that file. -/
def Settings.holding : Settings where
  global := { queueDir := "/q" }

end MailFilter
