import MailFilter.Controller
import MailFilter.Proofs.Chain.Answered
import MailFilter.Proofs.Chain.Course
import MailFilter.Proofs.Chain.Passage

/-
  What the exit status of the pipe engine tells its caller.

  The status is fixed before the message is delivered, and the
  policy of the engine does nothing about a delivery that
  failed. So the status tells that a message came as far as
  its nexthop, and not what became of it there. Of that only
  the log tells.

  Key definitions include:
    * `Fate`
    * `Queue.fate`
    * `Pipe.fate`
    * `Pipe.exitStatus`

  Main statements:
    * `Queue.exitStatus_process`
    * `Pipe.exitStatus_run`
    * `Pipe.exitStatus_eq_zero_iff`
-/

namespace MailFilter

open World

------------------------------------------------------------
-- Fates
------------------------------------------------------------

/- How far a message comes. -/
inductive Fate where
  /- It was not spooled, or its spool file is no message. -/
  | unread (error : LoadError)
  /- A module returned a value other than 0 and 1. -/
  | stopped (value : Int)
  /- Its headers could not be written back. -/
  | unwritten (error : SpoolError)
  /- It has nowhere to go. -/
  | kept
  /- It was handed to its nexthop, which took it. -/
  | delivered (nexthop : Nexthop)
  /- It was handed to its nexthop in vain. -/
  | undelivered (nexthop : Nexthop) (error : DeliveryError)
deriving DecidableEq

namespace Fate

/- The fate of a message that was handed to a nexthop. -/
def handed
    (nexthop : Nexthop) :
    Except DeliveryError Unit → Fate
  | .ok () => .delivered nexthop
  | .error e => .undelivered nexthop e

/- The exit status that a fate comes to. -/
def status : Fate → Int
  | .unread _ => 1
  | .stopped _ => 1
  | .unwritten _ => 1
  | .kept => 0
  | .delivered _ => 0
  | .undelivered _ _ => 0

/- There are two exit statuses. -/
theorem status_eq_one
    {fate : Fate}
    (hStatus : fate.status ≠ 0) :
    fate.status = 1 := by
  cases fate with
  | unread e => rfl
  | stopped value => rfl
  | unwritten e => rfl
  | kept => exact absurd rfl hStatus
  | delivered nexthop => exact absurd rfl hStatus
  | undelivered nexthop e => exact absurd rfl hStatus

end Fate

/-
  How far a message comes that the chain lets pass: the headers
  are written back and it is handed to the nexthop.
-/
def Chain.fate
    (before : Snapshot)
    (settings : Settings)
    (t : Transaction) : Run Fate := do
  let (result, t) ← flush before settings t
  match result with
  | .error e => return .unwritten e
  | .ok _ =>
      match Nexthop.find? (← get).files settings with
      | none => return .kept
      | some nexthop =>
          let (result, _) ← nexthop.deliver t
          return .handed nexthop result

/-
  How far a message comes in a chain whose policy lets it go
  on after the value 1 only.
-/
def Queue.fate
    (queue : Queue)
    (settings : Settings)
    (t : Transaction) : Run Fate := do
  let value := (queue.value? settings t (← get)).1
  let (_, names, left) ← queue.ran settings t
  match value.filter (· ≠ 1) with
  | some value => return .stopped value
  | none =>
      Chain.fate (.take t.message) settings
        (markModules settings names left)

namespace Pipe

/- The message of the input as the chain gets it. -/
def received
    (settings : Settings)
    (input : Input) : Run (Except LoadError Transaction) := do
  match ← Spool.create settings.global.queueDir with
  | .error e => return .error (.spool e)
  | .ok path =>
      let t ← newTransaction
      let t : Transaction :=
        { t with envelope := { messageFile := path } }
      match ← spoolInput path input with
      | .error e => return .error (.spool e)
      | .ok size =>
          sayOf .debug t
            ("Spooled " ++ toString size ++ " bytes to " ++
              path.render)
          match ← Spool.load path with
          | .error e => return .error e
          | .ok message => return .ok (address t message)

/- How far the message of the input comes. -/
def fate
    (settings : Settings)
    (queue : Queue)
    (input : Input) : Run Fate := do
  match ← received settings input with
  | .error e => return .unread e
  | .ok t => queue.fate settings t

/- The exit status for what a run gives. -/
def exitStatus
    {ε : Type} :
    Except ε Disposition → Int
  | .error _ => 1
  | .ok disposition => exitCode disposition

end Pipe

/- A controller ends with the status of its pipe engine. -/
theorem Controller.runPipe_of_queue
    {c : Controller}
    {queue : Queue}
    {before w : World}
    (hQueue : c.queue Pipe.policy before = (.ok queue, w))
    (input : Pipe.Input) :
    (c.runPipe input before).1 =
      .ok {
        status :=
          Pipe.exitStatus
            (Pipe.run c.settings queue input w).1 } := by
  simp only [runPipe, Run.bind_apply, hQueue]
  cases (Pipe.run c.settings queue input w).1 <;> rfl

------------------------------------------------------------
-- What A Fate Leaves
------------------------------------------------------------

/- What is logged about a delivery that failed. -/
def Nexthop.complaint
    (nexthop : Nexthop)
    (id : Nat)
    (error : DeliveryError) : Log.Event :=
  .about .error id
    ("Delivery to " ++ nexthop.render ++ " failed: " ++
      error.text)

/-
  A world shows a fate that left another world: the relays and
  all files but those of the spool are the same, and a
  delivery that failed stands in the log.
-/
structure World.Shows
    (w : World)
    (fate : Fate)
    (left : World) : Prop where
  network : w.network = left.network
  named :
    ∀ name,
      w.files.content? (.named name) =
        left.files.content? (.named name)
  logged :
    ∀ nexthop e, fate = .undelivered nexthop e →
      ∃ id, nexthop.complaint id e ∈ w.log

namespace World.Shows

variable {w left : World}
variable {fate : Fate}

/- A world shows a fate that has nothing to be logged. -/
theorem refl
    (hFate : ∀ nexthop e, fate ≠ .undelivered nexthop e)
    (left : World) :
    left.Shows fate left where
  network := rfl
  named := fun _ => rfl
  logged := fun nexthop e hSame =>
    absurd hSame (hFate nexthop e)

/- What is logged later takes nothing back. -/
theorem emit
    (hShows : w.Shows fate left)
    (event : Log.Event) :
    (World.emit event w).2.Shows fate left where
  network := hShows.network
  named := hShows.named
  logged := by
    intro nexthop e hFate
    rcases hShows.logged nexthop e hFate with ⟨id, hLogged⟩
    exact ⟨id, List.mem_cons_of_mem _ hLogged⟩

/- Nor does the removal of a spool file. -/
theorem remove
    (hShows : w.Shows fate left)
    (dir : String)
    (number : Nat) :
    (Spool.remove (.spooled dir number) w).2.Shows fate
      left := by
  unfold Spool.remove
  cases hRemove : w.files.remove (.spooled dir number) with
  | error fault => exact hShows.emit _
  | ok files =>
      have hNamed :
          ∀ name,
            files.content? (.named name) =
              w.files.content? (.named name) := by
        intro name
        rw [Spool.eq_drop_of_remove hRemove]
        simp [Files.content?]
      refine Shows.emit (w := { w with files := files }) ?_ _
      exact {
        network := hShows.network
        named := fun name =>
          (hNamed name).trans (hShows.named name)
        logged := hShows.logged }

end World.Shows

------------------------------------------------------------
-- Chains
------------------------------------------------------------

/- A message that was written goes where there is to go. -/
theorem Chain.fate_ne_kept
    {settings : Settings}
    (hNexthop : settings.HasNexthop)
    (before : Snapshot)
    (t : Transaction)
    (w : World) :
    (fate before settings t w).1 ≠ .kept := by
  simp only [fate, Run.bind_apply]
  rcases flush before settings t w with
    ⟨⟨result, flushed⟩, between⟩
  cases result with
  | error e => exact Fate.noConfusion
  | ok written =>
      have hFound :=
        (Nexthop.isSome_find?_iff between.files settings).mpr
          hNexthop
      rcases Option.isSome_iff_exists.mp hFound with
        ⟨nexthop, hFind⟩
      simp only [Run.bind_apply, Run.get_apply, hFind]
      cases (nexthop.deliver flushed between).1.1 with
      | error e => exact Fate.noConfusion
      | ok done => exact Fate.noConfusion

/-
  The policy lets a message go on after the value 1. After any
  other value the status tells of a failure.
-/
theorem Pipe.judge_cases
    (settings : Settings)
    (t : Transaction)
    (value : Int) :
    (value = 1 ∧ judge settings t value = (.carryOn, t)) ∨
      (value ≠ 1 ∧
        (judge settings t value = (.stopAccept, t) ∨
          judge settings t value = (.abort, t))) := by
  unfold judge
  by_cases hOne : value = 1
  · subst hOne
    exact Or.inl ⟨rfl, rfl⟩
  · refine Or.inr ⟨hOne, ?_⟩
    rw [if_neg hOne]
    split
    · exact Or.inl rfl
    · exact Or.inr rfl

namespace Queue

variable {queue : Queue}
variable {settings : Settings}

/-
  Unless the headers cannot be written back the status is that
  of a success, whatever comes of the delivery.
-/
theorem exitStatus_finish
    (before : Snapshot)
    (names : List String)
    {disposition : Disposition}
    (hProcessed : disposition.IsProcessed)
    (t : Transaction)
    (w : World) :
    Pipe.exitStatus
        (queue.finish settings before names disposition t w).1.1 =
        (Chain.fate before settings
            (markModules settings names t) w).1.status ∧
      (queue.finish settings before names disposition t
          w).2.Shows
        (Chain.fate before settings
          (markModules settings names t) w).1
        (Chain.fate before settings
          (markModules settings names t) w).2 := by
  have hZero : Pipe.exitCode disposition = 0 :=
    if_pos hProcessed
  simp only [finish, Chain.fate, Run.bind_apply]
  rcases Chain.flush before settings
      (markModules settings names t) w with
    ⟨⟨result, flushed⟩, between⟩
  cases result with
  | error e => exact ⟨rfl, .refl (by simp) _⟩
  | ok written =>
      simp only [Run.bind_apply, handOn, Run.get_apply]
      cases Nexthop.find? between.files settings with
      | none => exact ⟨hZero, .refl (by simp) _⟩
      | some nexthop =>
          simp only [Run.bind_apply]
          rcases nexthop.deliver flushed between with
            ⟨⟨delivery, delivered⟩, after⟩
          cases delivery with
          | ok done =>
              refine ⟨hZero, ?_⟩
              have hDelivered :
                  ∀ other e,
                    Fate.handed nexthop (.ok done) ≠
                      .undelivered other e := by
                simp [Fate.handed]
              exact World.Shows.emit (.refl hDelivered _) _
          | error e =>
              refine ⟨hZero, rfl, fun _ => rfl, ?_⟩
              rintro other error ⟨⟩
              exact ⟨delivered.id, List.mem_cons_self⟩

/- The status tells how far a message came in a chain. -/
theorem exitStatus_process
    (hPolicy : queue.policy = Pipe.policy)
    (t : Transaction)
    (w : World) :
    Pipe.exitStatus (queue.process settings t w).1.1 =
        (queue.fate settings t w).1.status ∧
      (queue.process settings t w).2.Shows
        (queue.fate settings t w).1
        (queue.fate settings t w).2 := by
  rw [process_eq]
  simp only [fate, Run.bind_apply, Run.get_apply]
  rcases hRan : queue.ran settings t w with
    ⟨⟨outcome, names, after⟩, left⟩
  rcases outcome_of_ran hRan with
    ⟨hValue, rfl⟩
      | ⟨value, judged, stopped, hValue, rfl, hJudge⟩
  · rw [hValue]
    exact exitStatus_finish _ names (Or.inl rfl) after left
  · rw [hValue]
    rw [hPolicy] at hJudge
    change Pipe.judge settings judged value = _ at hJudge
    rcases Pipe.judge_cases settings judged value with
      ⟨rfl, hGoesOn⟩ | ⟨hOther, hAccept | hAbort⟩
    · rw [hGoesOn] at hJudge
      cases hJudge
      exact exitStatus_finish _ names (Or.inr rfl) _ left
    · rw [hAccept] at hJudge
      cases hJudge
      rw [Option.filter_some, if_pos (decide_eq_true hOther)]
      exact ⟨rfl, .refl (by simp) _⟩
    · rw [hAbort] at hJudge
      cases hJudge
      rw [Option.filter_some, if_pos (decide_eq_true hOther)]
      exact ⟨rfl, .refl (by simp) _⟩

end Queue

------------------------------------------------------------
-- The Pipe Engine
------------------------------------------------------------

namespace Pipe

variable {settings : Settings}
variable {queue : Queue}

/- The status tells how far the message of the input came. -/
theorem exitStatus_run
    (settings : Settings)
    (hPolicy : queue.policy = policy)
    (input : Input)
    (w : World) :
    exitStatus (run settings queue input w).1 =
        (fate settings queue input w).1.status ∧
      (run settings queue input w).2.Shows
        (fate settings queue input w).1
        (fate settings queue input w).2 := by
  have hUnread :
      ∀ e left, World.Shows left (.unread e) left :=
    fun _ left => .refl (fun _ _ => Fate.noConfusion) left
  simp only [run, fate, received, Run.bind_apply]
  cases hCreate : w.files.create settings.global.queueDir with
  | error fault =>
      rw [Spool.create_of_error hCreate]
      exact ⟨rfl, hUnread _ _⟩
  | ok made =>
      rcases made with ⟨path, files⟩
      rw [Spool.create_of_ok hCreate]
      have hPath := (Spool.file?_of_create hCreate).1
      subst hPath
      simp only [Run.bind_apply]
      rcases newTransaction { w with files := files } with
        ⟨t, started⟩
      simp only [processInput, Run.bind_apply]
      rcases spoolInput
          (.spooled settings.global.queueDir w.files.next)
          input started with
        ⟨result, written⟩
      cases result with
      | error e =>
          exact ⟨rfl, ((hUnread _ _).remove _ _).emit _⟩
      | ok size =>
          simp only [Run.bind_apply]
          generalize (sayOf .debug _ _ written).2 = said
          rcases Spool.load _ said with ⟨loaded, read⟩
          cases loaded with
          | error e =>
              exact ⟨rfl, ((hUnread _ _).remove _ _).emit _⟩
          | ok message =>
              simp only [Run.bind_apply]
              generalize address _ message = addressed
              rcases Queue.exitStatus_process hPolicy addressed
                  read with
                ⟨hStatus, hShows⟩
              rcases hProcess :
                  queue.process settings addressed read with
                ⟨⟨result, processed⟩, after⟩
              rw [hProcess] at hStatus hShows
              have hRemoved :=
                hShows.remove settings.global.queueDir
                  w.files.next
              cases result with
              | error e => exact ⟨hStatus, hRemoved.emit _⟩
              | ok disposition =>
                  exact ⟨hStatus, hRemoved.emit _⟩

/- With a nexthop no message is kept. -/
theorem fate_ne_kept
    (queue : Queue)
    (hNexthop : settings.HasNexthop)
    (input : Input)
    (w : World) :
    (fate settings queue input w).1 ≠ .kept := by
  simp only [fate, Run.bind_apply]
  rcases received settings input w with ⟨result, between⟩
  cases result with
  | error e => exact Fate.noConfusion
  | ok t =>
      simp only [Queue.fate, Run.bind_apply, Run.get_apply]
      generalize
        (queue.value? settings t between).1.filter (· ≠ 1) =
        value
      cases value with
      | some value => exact Fate.noConfusion
      | none => exact Chain.fate_ne_kept hNexthop _ _ _

------------------------------------------------------------
-- Delivery
------------------------------------------------------------

/- A message with an address to deliver it to. -/
def letter : Bytes :=
  Utf8.encode "From: <a@x>\r\nTo: <b@x>\r\n\r\nbody\r\n"

/- Messages go to a relay. -/
def settingsToRelay : Settings where
  global := {
    queueDir := "/q"
    nexthop := some "relay"
  }

/- A world whose relay refuses all recipients. -/
def worldThatRefuses : World where
  files := { directories := ["/q"] }
  network := {
    relays := [(("relay", 25), [
      Utf8.encode "220 hi\r\n", Utf8.encode "250 ok\r\n",
      Utf8.encode "250 ok\r\n", Utf8.encode "550 no\r\n"])] }

/-
  With a nexthop the exit status is 0 exactly if the message
  was spooled and parsed, no module returned a value other
  than 0 and 1 first, its headers were written back, and it
  was handed to the nexthop, which is when it was delivered or
  the delivery failed. Otherwise the status is 1. A failed delivery stands in the log, and
  what was delivered is what the fate of the message left. The
  status is that of a controller that runs the engine.
-/
theorem exitStatus_eq_zero_iff
    (hPolicy : queue.policy = policy)
    (hNexthop : settings.HasNexthop)
    (input : Input)
    (w : World) :
    (exitStatus (run settings queue input w).1 = 0 ↔
        ∃ nexthop,
          (fate settings queue input w).1 = .delivered nexthop ∨
            ∃ e, (fate settings queue input w).1 =
              .undelivered nexthop e) ∧
      (exitStatus (run settings queue input w).1 ≠ 0 →
        exitStatus (run settings queue input w).1 = 1) ∧
      (run settings queue input w).2.Shows
        (fate settings queue input w).1
        (fate settings queue input w).2 ∧
      ∀ (c : Controller) (before : World),
        c.settings = settings →
        c.queue policy before = (.ok queue, w) →
        (c.runPipe input before).1 =
          .ok ⟨exitStatus (run settings queue input w).1,
            []⟩ := by
  rcases exitStatus_run settings hPolicy input w with
    ⟨hStatus, hShows⟩
  have hNotKept := fate_ne_kept queue hNexthop input w
  refine ⟨?_, ?_, hShows, ?_⟩
  · rw [hStatus]
    generalize (fate settings queue input w).1 = fate
      at hNotKept ⊢
    cases fate with
    | kept => exact absurd rfl hNotKept
    | unread e => simp [Fate.status]
    | stopped value => simp [Fate.status]
    | unwritten e => simp [Fate.status]
    | delivered nexthop => simp [Fate.status]
    | undelivered nexthop e => simp [Fate.status]
  · rw [hStatus]
    exact Fate.status_eq_one
  · rintro c before rfl hQueue
    exact c.runPipe_of_queue hQueue input

/-
  The status is 0 for a message that is handed to a relay, if
  only in vain, and 1 for input that cannot be read.
-/
theorem exitStatus_letter :
    settingsToRelay.HasNexthop ∧
      exitStatus
          (run settingsToRelay { policy := policy }
            ⟨letter, none⟩ worldThatRefuses).1 =
        0 ∧
      exitStatus
          (run settingsToRelay { policy := policy }
            ⟨letter, some .brokenPipe⟩ worldThatRefuses).1 =
        1 := by
  have hNexthop : settingsToRelay.HasNexthop :=
    ⟨"relay", rfl, by decide +kernel⟩
  refine ⟨hNexthop, ?_, ?_⟩
  · apply (exitStatus_eq_zero_iff rfl hNexthop _ _).1.mpr
    exact ⟨.relay "relay" 25,
      Or.inr ⟨.rejected 550 "no", by decide +kernel⟩⟩
  · apply (exitStatus_eq_zero_iff rfl hNexthop _ _).2.1
    decide +kernel

/- The relay did not take the message that the status is of. -/
theorem exitStatus_eq_zero_of_undelivered :
    settingsToRelay.HasNexthop ∧
      exitStatus
          (run settingsToRelay { policy := policy }
            ⟨letter, none⟩ worldThatRefuses).1 =
        0 ∧
      ¬ ∃ nexthop,
        (fate settingsToRelay { policy := policy }
            ⟨letter, none⟩ worldThatRefuses).1 =
          .delivered nexthop := by
  have hFate :
      (fate settingsToRelay { policy := policy }
          ⟨letter, none⟩ worldThatRefuses).1 =
        .undelivered (.relay "relay" 25)
          (.rejected 550 "no") := by
    decide +kernel
  refine ⟨⟨"relay", rfl, by decide +kernel⟩,
    by decide +kernel, ?_⟩
  rw [hFate]
  rintro ⟨nexthop, hDelivered⟩
  cases hDelivered

end Pipe

end MailFilter
