import MailFilter.Chain.Queue
import MailFilter.Proofs.Run

/-
  What is done about a message on its way through a chain, and
  in which order.

  The processing of a message is a sequence of steps: modules
  are invoked, a value is judged, the modules are listed, the
  headers are written back, the message is delivered, and the
  policy is told that this failed. A course is such a sequence
  together with what each step makes of the transaction and
  the world, the log aside.

  Key definitions include:
    * `Queue.Step`
    * `Queue.Step.Takes`
    * `Queue.Performs`
    * `Queue.Tally`
    * `Queue.IsControlled`

  Main statements:
    * `Queue.Performs.keeps`
    * `Queue.exists_performs_runModules`
    * `Queue.exists_performs_finish`
    * `Queue.exists_performs`
    * `Queue.isControlled_process`
-/

namespace MailFilter

open World

/- The settings name somewhere for messages to go. -/
def Settings.HasNexthop
    (settings : Settings) : Prop :=
  ∃ value,
    settings.global.nexthop = some value ∧
      Text.trim value ≠ ""

/- A nexthop is found exactly if there is one. -/
theorem Nexthop.isSome_find?_iff
    (files : Files)
    (settings : Settings) :
    (find? files settings).isSome = true ↔
      settings.HasNexthop := by
  unfold find? Settings.HasNexthop
  cases settings.global.nexthop with
  | none => simp
  | some value =>
      by_cases hEmpty : Text.trim value = ""
      · simp [hEmpty]
      · simp [hEmpty]

namespace Queue

------------------------------------------------------------
-- Steps
------------------------------------------------------------

/- What is done about a message, with what came of it. -/
inductive Step where
  /- The users that are not known yet are looked up. -/
  | fetched
  /- A module is invoked. -/
  | invoked (m : Module) (value : Int)
  /- The policy judges a value. -/
  | judged (value : Int) (outcome : Outcome)
  /- The header that lists modules is appended. -/
  | marked (names : List String)
  /- The headers are written back if that is needed. -/
  | flushed (result : Except SpoolError Bool)
  /- The message is delivered. -/
  | delivered
      (nexthop : Nexthop)
      (result : Except DeliveryError Unit)
  /- The policy is told that the delivery failed. -/
  | told (error : DeliveryError)

namespace Step

/-
  What a step makes of the transaction and the world. The
  snapshot is that of the headers before all steps.
-/
inductive Takes
    (queue : Queue)
    (settings : Settings)
    (before : Snapshot) :
    Step → Transaction × World → Transaction × World → Prop
    where
  | fetched
      (t : Transaction)
      (w : World) :
      Takes queue settings before .fetched (t, w)
        (queue.fetchUsers t w)
  | invoked
      {m : Module}
      {value : Int}
      {t after : Transaction}
      {w w' : World} :
      m ∈ queue.modules →
      m.invoke settings t w = ((value, after), w') →
      Takes queue settings before (.invoked m value) (t, w)
        (after, w')
  | judged
      {value : Int}
      {outcome : Outcome}
      {t after : Transaction}
      (w : World) :
      queue.policy.judge settings t value = (outcome, after) →
      Takes queue settings before (.judged value outcome) (t, w)
        (after, (record (.judged value outcome) w).2)
  | marked
      (names : List String)
      (t : Transaction)
      (w : World) :
      Takes queue settings before (.marked names) (t, w)
        (t.mapMessage
          (·.appendHeader traceHeader
            ("processed " ++ ",".intercalate names)), w)
  | flushed
      {result : Except SpoolError Bool}
      {t after : Transaction}
      {w w' : World} :
      Chain.flush before settings t w = ((result, after), w') →
      Takes queue settings before (.flushed result) (t, w)
        (after, w')
  | delivered
      {nexthop : Nexthop}
      {result : Except DeliveryError Unit}
      {t after : Transaction}
      {w w' : World} :
      Nexthop.find? w.files settings = some nexthop →
      nexthop.deliver t w = ((result, after), w') →
      Takes queue settings before (.delivered nexthop result)
        (t, w) (after, w')
  | told
      (error : DeliveryError)
      (t : Transaction)
      (w : World) :
      Takes queue settings before (.told error) (t, w)
        (queue.policy.undelivered settings t error,
          (record (.undelivered error) w).2)

end Step

/-
  Steps lead from one state to another one. What is logged
  meanwhile counts for nothing.
-/
inductive Performs
    (queue : Queue)
    (settings : Settings)
    (before : Snapshot) :
    List Step → Transaction × World → Transaction × World → Prop
    where
  | done
      (s : Transaction × World) :
      Performs queue settings before [] s s
  | logged
      {steps : List Step}
      {t : Transaction}
      {w : World}
      {s : Transaction × World}
      (event : Log.Event) :
      Performs queue settings before steps
        (t, (emit event w).2) s →
      Performs queue settings before steps (t, w) s
  | step
      {step : Step}
      {steps : List Step}
      {s s' s'' : Transaction × World} :
      Step.Takes queue settings before step s s' →
      Performs queue settings before steps s' s'' →
      Performs queue settings before (step :: steps) s s''

namespace Performs

variable {queue : Queue}
variable {settings : Settings}
variable {before : Snapshot}

/- Steps that lead on from where other ones ended. -/
theorem append
    {front back : List Step}
    {s s' s'' : Transaction × World}
    (hFront : Performs queue settings before front s s')
    (hBack : Performs queue settings before back s' s'') :
    Performs queue settings before (front ++ back) s s'' := by
  induction hFront with
  | done => exact hBack
  | logged event _ ih => exact .logged event (ih hBack)
  | step hTakes _ ih => exact .step hTakes (ih hBack)

/- What every step keeps holds in the end. -/
theorem keeps
    {steps : List Step}
    {s s' : Transaction × World}
    (hPerforms : Performs queue settings before steps s s')
    (Inv : Transaction × World → Prop)
    (hLogged :
      ∀ t w event, Inv (t, w) → Inv (t, (emit event w).2))
    (hTakes :
      ∀ step s s', Step.Takes queue settings before step s s' →
        Inv s → Inv s')
    (hInv : Inv s) :
    Inv s' := by
  induction hPerforms with
  | done => exact hInv
  | logged event _ ih => exact ih (hLogged _ _ event hInv)
  | step hStep _ ih => exact ih (hTakes _ _ _ hStep hInv)

end Performs

------------------------------------------------------------
-- What The Modules Come To
------------------------------------------------------------

variable {queue : Queue}
variable {settings : Settings}

/- A module that was invoked, as a step. -/
def Step.ofCall
    (call : Module × Int) : Step :=
  .invoked call.1 call.2

/- A value that was judged, as a step. -/
def Step.ofVerdict
    (verdict : Int × Outcome) : Step :=
  .judged verdict.1 verdict.2

/-
  The modules of a chain, those that were invoked with what
  they returned, and the values that were judged. Only the
  last value may be other than zero, the modules that were
  passed over come after such a value, and it is judged.
-/
structure Fits
    (modules : List Module)
    (calls : List (Module × Int))
    (verdicts : List (Int × Outcome)) : Prop where
  invoked :
    ∃ passedOver,
      modules = calls.map Prod.fst ++ passedOver ∧
        (passedOver ≠ [] → ∃ call ∈ calls.getLast?, call.2 ≠ 0)
  zero : ∀ call ∈ calls.dropLast, call.2 = 0
  judged :
    verdicts.map Prod.fst =
      (calls.map Prod.snd).filter (· ≠ 0)

/- A module that returns zero is followed by the next one. -/
theorem Fits.cons
    {modules : List Module}
    {calls : List (Module × Int)}
    {verdicts : List (Int × Outcome)}
    (hFits : Fits modules calls verdicts)
    (m : Module) :
    Fits (m :: modules) ((m, 0) :: calls) verdicts := by
  rcases hFits with ⟨⟨passedOver, hModules, hLast⟩, hZero, hJudged⟩
  refine ⟨⟨passedOver, by rw [hModules]; rfl, ?_⟩, ?_, ?_⟩
  · intro hPassed
    rcases hLast hPassed with ⟨call, hCall, hValue⟩
    refine ⟨call, ?_, hValue⟩
    rw [List.getLast?_cons, Option.mem_def.mp hCall]
    rfl
  · cases calls with
    | nil => simp
    | cons call rest =>
        exact List.forall_mem_cons.mpr ⟨rfl, hZero⟩
  · simpa using hJudged

/- A module that returns another value is the last one. -/
theorem Fits.last
    (m : Module)
    (rest : List Module)
    {value : Int}
    (hValue : value ≠ 0)
    (outcome : Outcome) :
    Fits (m :: rest) [(m, value)] [(value, outcome)] := by
  refine ⟨⟨rest, rfl, fun _ => ⟨_, rfl, hValue⟩⟩, ?_, ?_⟩
  · simp
  · simp [hValue]

/-
  The modules are invoked up to the first value other than
  zero, which is judged.
-/
theorem exists_performs_runModules
    (before : Snapshot)
    (names : List String)
    {modules : List Module}
    (hModules : ∀ m ∈ modules, m ∈ queue.modules)
    {t after : Transaction}
    {w w' : World}
    {outcome : Option Outcome}
    {ran : List String}
    (hRun :
      queue.runModules settings names modules t w =
        ((outcome, ran, after), w')) :
    ∃ calls verdicts,
      Fits modules calls verdicts ∧
        verdicts.map Prod.snd = outcome.toList ∧
        ran = names.reverse ++ calls.map (·.1.name) ∧
        Performs queue settings before
          (calls.map Step.ofCall ++ verdicts.map Step.ofVerdict)
          (t, w) (after, w') := by
  induction modules generalizing names t w with
  | nil =>
      cases hRun
      refine ⟨[], [], ⟨⟨[], rfl, by simp⟩, by simp, rfl⟩, rfl,
        by simp, .done _⟩
  | cons m rest ih =>
      rcases List.forall_mem_cons.mp hModules with
        ⟨hFirst, hRest⟩
      simp only [runModules, Run.bind_apply] at hRun
      rcases hInvoke : m.invoke settings t
          (sayOf .debug t ("Invoking module " ++ m.label) w).2 with
        ⟨⟨value, left⟩, between⟩
      rw [hInvoke] at hRun
      dsimp only at hRun
      by_cases hZero : value = 0
      · subst hZero
        rw [if_pos rfl] at hRun
        rcases ih (m.name :: names) hRest hRun with
          ⟨calls, verdicts, hFits, hOutcome, hRan, hPerforms⟩
        refine ⟨(m, 0) :: calls, verdicts, hFits.cons m, hOutcome,
          ?_, ?_⟩
        · rw [hRan]
          simp
        · exact .logged _
            (.step (.invoked hFirst hInvoke) hPerforms)
      · rw [if_neg hZero] at hRun
        rcases hJudge : queue.policy.judge settings left value with
          ⟨verdict, judged⟩
        simp only [Run.bind_apply, hJudge] at hRun
        cases hRun
        refine ⟨[(m, value)], [(value, verdict)],
          .last m rest hZero verdict, rfl, by simp, ?_⟩
        exact .logged _
          (.step (.invoked hFirst hInvoke)
            (.step (.judged _ hJudge) (.logged _ (.done _))))

------------------------------------------------------------
-- What Is Done When The Modules Have Run
------------------------------------------------------------

/- The modules are listed if that is wanted. -/
def marks
    (settings : Settings)
    (names : List String) : List Step :=
  if settings.global.addHeader then [.marked names] else []

/-
  The headers are written back, and if that did not fail and
  there is a nexthop the message is delivered.
-/
inductive Finishes
    (settings : Settings)
    (names : List String)
    (disposition : Disposition) :
    List Step → Except SpoolError Disposition → Prop where
  | unwritten
      (e : SpoolError) :
      Finishes settings names disposition
        (marks settings names ++ [.flushed (.error e)])
        (.error e)
  | kept
      (written : Bool) :
      ¬ settings.HasNexthop →
      Finishes settings names disposition
        (marks settings names ++ [.flushed (.ok written)])
        (.ok disposition)
  | delivered
      (written : Bool)
      (nexthop : Nexthop) :
      settings.HasNexthop →
      Finishes settings names disposition
        (marks settings names ++
          [.flushed (.ok written),
            .delivered nexthop (.ok ())])
        (.ok disposition)
  | undelivered
      (written : Bool)
      (nexthop : Nexthop)
      (e : DeliveryError) :
      settings.HasNexthop →
      Finishes settings names disposition
        (marks settings names ++
          [.flushed (.ok written),
            .delivered nexthop (.error e), .told e])
        (.ok disposition)

/- Listing the modules is a step, or nothing. -/
theorem performs_marks
    (queue : Queue)
    (settings : Settings)
    (before : Snapshot)
    (names : List String)
    (t : Transaction)
    (w : World) :
    Performs queue settings before (marks settings names) (t, w)
      (markModules settings names t, w) := by
  unfold marks markModules
  split
  · exact .step (.marked names t w) (.done _)
  · exact .done _

theorem exists_performs_finish
    (queue : Queue)
    (settings : Settings)
    (before : Snapshot)
    (names : List String)
    (disposition : Disposition)
    (t : Transaction)
    (w : World) :
    ∃ steps,
      Finishes settings names disposition steps
          (queue.finish settings before names disposition t
            w).1.1 ∧
        Performs queue settings before steps (t, w)
          ((queue.finish settings before names disposition t
              w).1.2,
            (queue.finish settings before names disposition t
              w).2) := by
  have hMarks :=
    performs_marks queue settings before names t w
  simp only [finish, Run.bind_apply]
  rcases hFlush : Chain.flush before settings
      (markModules settings names t) w with
    ⟨⟨result, flushed⟩, between⟩
  cases result with
  | error e =>
      exact ⟨_, .unwritten e,
        hMarks.append (.step (.flushed hFlush) (.done _))⟩
  | ok written =>
      simp only [Run.bind_apply, handOn, Run.get_apply]
      have hFound :=
        Nexthop.isSome_find?_iff between.files settings
      cases hFind : Nexthop.find? between.files settings with
      | none =>
          rw [hFind] at hFound
          refine ⟨_, .kept written (by simpa using hFound), ?_⟩
          exact hMarks.append (.step (.flushed hFlush) (.done _))
      | some nexthop =>
          rw [hFind] at hFound
          have hHas : settings.HasNexthop := hFound.mp rfl
          simp only [Run.bind_apply]
          rcases hDeliver : nexthop.deliver flushed between with
            ⟨⟨delivery, delivered⟩, after⟩
          cases delivery with
          | ok done =>
              refine ⟨_, .delivered written nexthop hHas, ?_⟩
              exact hMarks.append (.step (.flushed hFlush)
                (.step (.delivered hFind hDeliver)
                  (.logged _ (.done _))))
          | error e =>
              refine ⟨_, .undelivered written nexthop e hHas,
                ?_⟩
              exact hMarks.append (.step (.flushed hFlush)
                (.step (.delivered hFind hDeliver)
                  (.logged _
                    (.step (.told e delivered _) (.done _)))))

/-
  What a whole course comes to: unless a module stopped it for
  good, the message is finished.
-/
inductive Course
    (queue : Queue)
    (settings : Settings)
    (calls : List (Module × Int)) :
    List (Int × Outcome) → List Step →
      Except SpoolError Disposition → Prop where
  | stopped
      {verdict : Int × Outcome} :
      Fits queue.modules calls [verdict] →
      verdict.2 ≠ .carryOn →
      Course queue settings calls [verdict] []
        (.ok (if verdict.2 = .abort then .aborted else .accepted))
  | finished
      {verdicts : List (Int × Outcome)}
      {finish : List Step}
      {result : Except SpoolError Disposition} :
      Fits queue.modules calls verdicts →
      (∀ verdict ∈ verdicts, verdict.2 = .carryOn) →
      Finishes settings (calls.map (·.1.name))
        (if verdicts = [] then .completed else .stopped)
        finish result →
      Course queue settings calls verdicts finish result

/- The steps of a course. -/
def courseSteps
    (calls : List (Module × Int))
    (verdicts : List (Int × Outcome))
    (finish : List Step) : List Step :=
  .fetched ::
    (calls.map Step.ofCall ++ verdicts.map Step.ofVerdict) ++
    finish

/-
  Every message takes a course through the chain, on which
  users are looked up first.
-/
theorem exists_performs_fetched
    (queue : Queue)
    (settings : Settings)
    (t : Transaction)
    (w : World) :
    ∃ calls verdicts finish,
      Course queue settings calls verdicts finish
          (queue.process settings t w).1.1 ∧
        Performs queue settings (.take t.message)
          (calls.map Step.ofCall ++ verdicts.map Step.ofVerdict ++
            finish)
          (queue.fetchUsers t w)
          ((queue.process settings t w).1.2,
            (queue.process settings t w).2) := by
  simp only [process, Run.bind_apply]
  rcases hRun :
      queue.runModules settings [] queue.modules
        (queue.fetchUsers t w).1 (queue.fetchUsers t w).2 with
    ⟨⟨outcome, names, after⟩, w'⟩
  rcases exists_performs_runModules (.take t.message) []
      (fun m hMem => hMem) hRun with
    ⟨calls, verdicts, hFits, hOutcome, hNames, hPerforms⟩
  rw [List.reverse_nil, List.nil_append] at hNames
  subst hNames
  cases outcome with
  | none =>
      rw [List.map_eq_nil_iff.mp hOutcome] at hFits hPerforms
      rcases exists_performs_finish queue settings
          (.take t.message) (calls.map (·.1.name)) .completed
          after w' with
        ⟨finish, hFinishes, hRest⟩
      exact ⟨calls, [], finish,
        .finished hFits (by simp) hFinishes, hPerforms.append hRest⟩
  | some outcome =>
      obtain ⟨verdict, rfl, rfl⟩ :=
        List.map_eq_singleton_iff.mp hOutcome
      rcases verdict with ⟨value, outcome⟩
      cases outcome with
      | abort =>
          exact ⟨calls, _, [], .stopped hFits (by simp),
            hPerforms.append (.done _)⟩
      | stopAccept =>
          exact ⟨calls, _, [], .stopped hFits (by simp),
            hPerforms.append (.done _)⟩
      | carryOn =>
          rcases exists_performs_finish queue settings
              (.take t.message) (calls.map (·.1.name)) .stopped
              after w' with
            ⟨finish, hFinishes, hRest⟩
          exact ⟨calls, _, finish,
            .finished hFits (by simp) hFinishes,
            hPerforms.append hRest⟩

theorem exists_performs
    (queue : Queue)
    (settings : Settings)
    (t : Transaction)
    (w : World) :
    ∃ calls verdicts finish,
      Course queue settings calls verdicts finish
          (queue.process settings t w).1.1 ∧
        Performs queue settings (.take t.message)
          (courseSteps calls verdicts finish) (t, w)
          ((queue.process settings t w).1.2,
            (queue.process settings t w).2) := by
  rcases queue.exists_performs_fetched settings t w with
    ⟨calls, verdicts, finish, hCourse, hPerforms⟩
  exact ⟨calls, verdicts, finish, hCourse,
    .step (.fetched t w) hPerforms⟩

------------------------------------------------------------
-- Tallies
------------------------------------------------------------

/- The place of a step among the kinds of steps. -/
def Step.rank : Step → Nat
  | .fetched => 0
  | .invoked _ _ => 1
  | .judged _ _ => 2
  | .marked _ => 3
  | .flushed _ => 4
  | .delivered _ _ => 5
  | .told _ => 6

/-
  What was done about a message, by kinds: the modules that
  were invoked with what they returned, the values that were
  judged with what they were judged to be, the names that were
  listed, what came of writing and delivering, and the errors
  that the policy was told of.
-/
structure Tally where
  calls : List (Module × Int) := []
  verdicts : List (Int × Outcome) := []
  marks : List (List String) := []
  flushes : List (Except SpoolError Bool) := []
  deliveries : List (Except DeliveryError Unit) := []
  complaints : List DeliveryError := []

namespace Tally

/- Count a step that comes before the other ones. -/
def count
    (step : Step)
    (tally : Tally) : Tally :=
  match step with
  | .fetched => tally
  | .invoked m value =>
      { tally with calls := (m, value) :: tally.calls }
  | .judged value outcome =>
      { tally with
        verdicts := (value, outcome) :: tally.verdicts }
  | .marked names =>
      { tally with marks := names :: tally.marks }
  | .flushed result =>
      { tally with flushes := result :: tally.flushes }
  | .delivered _ result =>
      { tally with deliveries := result :: tally.deliveries }
  | .told e =>
      { tally with complaints := e :: tally.complaints }

/- Count all steps. -/
def of
    (steps : List Step) : Tally :=
  steps.foldr count {}

/- No module stopped the message for good. -/
def GoesOn
    (tally : Tally) : Prop :=
  ∀ verdict ∈ tally.verdicts, verdict.2 = .carryOn

end Tally

/- What the policy has to be told of after a delivery. -/
def complaintsOf :
    Except DeliveryError Unit → List DeliveryError
  | .ok () => []
  | .error e => [e]

/-
  What may and has to be done about a message.

  The modules are invoked in order, each once, up to the first
  value other than zero, and the policy is asked about that
  value only. If it stops the message nothing else is done.
  If not, the modules that ran are listed if that is wanted,
  the headers are written back, and if that did not fail the
  message is delivered if it has somewhere to go. The policy
  is told of a failed delivery.
-/
structure IsControlled
    (queue : Queue)
    (settings : Settings)
    (tally : Tally)
    (result : Except SpoolError Disposition) : Prop where
  invoked :
    ∃ passedOver,
      queue.modules = tally.calls.map Prod.fst ++ passedOver ∧
        (passedOver ≠ [] →
          ∃ call ∈ tally.calls.getLast?, call.2 ≠ 0)
  zero : ∀ call ∈ tally.calls.dropLast, call.2 = 0
  judged :
    tally.verdicts.map Prod.fst =
      (tally.calls.map Prod.snd).filter (· ≠ 0)
  stopped :
    ∀ verdict ∈ tally.verdicts, verdict.2 ≠ .carryOn →
      tally.marks = [] ∧
        tally.flushes = [] ∧
        tally.deliveries = [] ∧
        tally.complaints = [] ∧
        result =
          .ok (if verdict.2 = .abort then .aborted
            else .accepted)
  listed :
    tally.GoesOn →
      tally.marks =
        if settings.global.addHeader then
            [tally.calls.map (·.1.name)]
          else []
  flushed :
    tally.GoesOn →
      ∃ written, tally.flushes = [written]
  unwritten :
    ∀ e, tally.flushes = [.error e] →
      tally.deliveries = [] ∧
        tally.complaints = [] ∧
        result = .error e
  ended :
    ∀ written, tally.flushes = [.ok written] →
      result =
        .ok (if tally.verdicts = [] then .completed
          else .stopped)
  undelivered :
    ¬ settings.HasNexthop →
      tally.deliveries = [] ∧ tally.complaints = []
  delivered :
    ∀ written, tally.flushes = [.ok written] →
      settings.HasNexthop →
      ∃ delivery,
        tally.deliveries = [delivery] ∧
          tally.complaints = complaintsOf delivery

------------------------------------------------------------
-- Control
------------------------------------------------------------

/- The tally of a course, by what came after the modules. -/
theorem Tally.of_courseSteps
    (calls : List (Module × Int))
    (verdicts : List (Int × Outcome))
    (finish : List Step) :
    Tally.of (courseSteps calls verdicts finish) =
      { Tally.of finish with
        calls := calls ++ (Tally.of finish).calls
        verdicts := verdicts ++ (Tally.of finish).verdicts } := by
  have hVerdicts :
      ∀ tally : Tally,
        (verdicts.map Step.ofVerdict).foldr count tally =
          { tally with
            verdicts := verdicts ++ tally.verdicts } := by
    intro tally
    induction verdicts with
    | nil => rfl
    | cons verdict rest ih =>
        rw [List.map_cons, List.foldr_cons, ih]
        rfl
  have hCalls :
      ∀ tally : Tally,
        (calls.map Step.ofCall).foldr count tally =
          { tally with calls := calls ++ tally.calls } := by
    intro tally
    induction calls with
    | nil => rfl
    | cons call rest ih =>
        rw [List.map_cons, List.foldr_cons, ih]
        rfl
  rw [Tally.of, courseSteps, List.cons_append,
    List.foldr_cons, List.foldr_append, List.foldr_append,
    hVerdicts, hCalls]
  rfl

/- A message that a module stopped. -/
theorem IsControlled.of_stopped
    {calls : List (Module × Int)}
    {verdict : Int × Outcome}
    (hFits : Fits queue.modules calls [verdict])
    (hStops : verdict.2 ≠ .carryOn) :
    IsControlled queue settings
      { calls := calls ++ []
        verdicts := [verdict] ++ [] }
      (.ok (if verdict.2 = .abort then .aborted
        else .accepted)) := by
  rw [List.append_nil, List.append_nil]
  have hNot :
      ¬ Tally.GoesOn { calls := calls, verdicts := [verdict] } :=
    fun hGoesOn => hStops (hGoesOn verdict (by simp))
  constructor
  case invoked => exact hFits.invoked
  case zero => exact hFits.zero
  case judged => exact hFits.judged
  case stopped =>
    intro other hOther _
    rw [List.mem_singleton.mp hOther]
    exact ⟨rfl, rfl, rfl, rfl, rfl⟩
  case listed => exact fun hGoesOn => absurd hGoesOn hNot
  case flushed => exact fun hGoesOn => absurd hGoesOn hNot
  case unwritten => intro e hFlush; cases hFlush
  case ended => intro written hFlush; cases hFlush
  case undelivered => exact fun _ => ⟨rfl, rfl⟩
  case delivered => intro written hFlush; cases hFlush

/- The tally with the listing of the modules, if any. -/
theorem tally_marks
    (settings : Settings)
    (names : List String)
    (later : List Step) :
    Tally.of (marks settings names ++ later) =
      { Tally.of later with
        marks :=
          (if settings.global.addHeader then [names] else []) ++
            (Tally.of later).marks } := by
  unfold marks
  split <;> rfl

/- What is done when the modules have run. -/
theorem Finishes.exists_tally
    {names : List String}
    {disposition : Disposition}
    {finish : List Step}
    {result : Except SpoolError Disposition}
    (hFinishes :
      Finishes settings names disposition finish result) :
    ∃ flush deliveries complaints,
      Tally.of finish =
          { marks :=
              if settings.global.addHeader then [names] else []
            flushes := [flush]
            deliveries := deliveries
            complaints := complaints } ∧
        (∀ e, flush = .error e →
          deliveries = [] ∧ complaints = [] ∧ result = .error e) ∧
        (∀ written, flush = .ok written →
          result = .ok disposition) ∧
        (¬ settings.HasNexthop →
          deliveries = [] ∧ complaints = []) ∧
        (∀ written, flush = .ok written →
          settings.HasNexthop →
          ∃ delivery,
            deliveries = [delivery] ∧
              complaints = complaintsOf delivery) := by
  cases hFinishes with
  | unwritten e =>
      refine ⟨.error e, [], [], ?_, ?_, ?_, ?_, ?_⟩
      · rw [tally_marks]
        simp [Tally.of, Tally.count]
      · rintro other hSame
        cases hSame
        exact ⟨rfl, rfl, rfl⟩
      · rintro written hSame
        cases hSame
      · exact fun _ => ⟨rfl, rfl⟩
      · rintro written hSame
        cases hSame
  | kept written hHas =>
      refine ⟨.ok written, [], [], ?_, ?_, ?_, ?_, ?_⟩
      · rw [tally_marks]
        simp [Tally.of, Tally.count]
      · rintro other hSame
        cases hSame
      · exact fun _ _ => rfl
      · exact fun _ => ⟨rfl, rfl⟩
      · exact fun _ _ hSome => absurd hSome hHas
  | delivered written nexthop hHas =>
      refine ⟨.ok written, [.ok ()], [], ?_, ?_, ?_, ?_, ?_⟩
      · rw [tally_marks]
        simp [Tally.of, Tally.count]
      · rintro other hSame
        cases hSame
      · exact fun _ _ => rfl
      · exact fun hNone => absurd hHas hNone
      · exact fun _ _ _ => ⟨_, rfl, rfl⟩
  | undelivered written nexthop e hHas =>
      refine ⟨.ok written, [.error e], [e], ?_, ?_, ?_, ?_, ?_⟩
      · rw [tally_marks]
        simp [Tally.of, Tally.count]
      · rintro other hSame
        cases hSame
      · exact fun _ _ => rfl
      · exact fun hNone => absurd hHas hNone
      · exact fun _ _ _ => ⟨_, rfl, rfl⟩

/- A message that no module stopped. -/
theorem IsControlled.of_finished
    {calls : List (Module × Int)}
    {verdicts : List (Int × Outcome)}
    {finish : List Step}
    {result : Except SpoolError Disposition}
    (hFits : Fits queue.modules calls verdicts)
    (hGoesOn : ∀ verdict ∈ verdicts, verdict.2 = .carryOn)
    (hFinishes :
      Finishes settings (calls.map (·.1.name))
        (if verdicts = [] then .completed else .stopped)
        finish result) :
    IsControlled queue settings
      { Tally.of finish with
        calls := calls ++ (Tally.of finish).calls
        verdicts := verdicts ++ (Tally.of finish).verdicts }
      result := by
  rcases hFinishes.exists_tally with
    ⟨flush, deliveries, complaints, hTally, hUnwritten, hEnded,
      hUndelivered, hDelivered⟩
  rw [hTally]
  dsimp only
  rw [List.append_nil, List.append_nil]
  constructor
  case invoked => exact hFits.invoked
  case zero => exact hFits.zero
  case judged => exact hFits.judged
  case stopped =>
    exact fun verdict hVerdict hStops =>
      absurd (hGoesOn verdict hVerdict) hStops
  case listed => exact fun _ => rfl
  case flushed => exact fun _ => ⟨flush, rfl⟩
  case unwritten =>
    intro e hFlush
    exact hUnwritten e (List.singleton_inj.mp hFlush)
  case ended =>
    intro written hFlush
    exact hEnded written (List.singleton_inj.mp hFlush)
  case undelivered => exact hUndelivered
  case delivered =>
    intro written hFlush
    exact hDelivered written (List.singleton_inj.mp hFlush)

/- The steps that finish are in order. -/
theorem Finishes.pairwise_rank
    {names : List String}
    {disposition : Disposition}
    {finish : List Step}
    {result : Except SpoolError Disposition}
    (hFinishes :
      Finishes settings names disposition finish result) :
    finish.Pairwise (·.rank ≤ ·.rank) ∧
      ∀ step ∈ finish, 3 ≤ step.rank := by
  cases hFinishes
  all_goals
    unfold marks
    split <;> simp [Step.rank]

/- Steps of one kind are in order. -/
theorem pairwise_rank_map
    {α : Type}
    (steps : List α)
    {make : α → Step}
    {rank : Nat}
    (hRank : ∀ a, (make a).rank = rank) :
    (steps.map make).Pairwise (·.rank ≤ ·.rank) := by
  rw [List.pairwise_map]
  refine List.pairwise_of_forall ?_
  intro a b
  exact Nat.le_of_eq ((hRank a).trans (hRank b).symm)

theorem Course.pairwise_rank_finish
    {calls : List (Module × Int)}
    {verdicts : List (Int × Outcome)}
    {finish : List Step}
    {result : Except SpoolError Disposition}
    (hCourse :
      Course queue settings calls verdicts finish result) :
    finish.Pairwise (·.rank ≤ ·.rank) ∧
      ∀ step ∈ finish, 3 ≤ step.rank := by
  cases hCourse with
  | stopped _ _ => simp
  | finished _ _ hFinishes => exact hFinishes.pairwise_rank

/- Users are looked up in the first step only. -/
theorem Course.rank_pos
    {calls : List (Module × Int)}
    {verdicts : List (Int × Outcome)}
    {finish : List Step}
    {result : Except SpoolError Disposition}
    (hCourse :
      Course queue settings calls verdicts finish result) :
    ∀ step ∈ calls.map Step.ofCall ++
        verdicts.map Step.ofVerdict ++ finish,
      0 < step.rank := by
  intro step hStep
  simp only [List.mem_append, List.mem_map] at hStep
  rcases hStep with (⟨_, _, rfl⟩ | ⟨_, _, rfl⟩) | hFinish
  · exact Nat.one_pos
  · exact Nat.two_pos
  · exact Nat.lt_of_lt_of_le (by decide)
      (hCourse.pairwise_rank_finish.2 step hFinish)

/- The steps of a course are in the order of their kinds. -/
theorem Course.pairwise_rank
    {calls : List (Module × Int)}
    {verdicts : List (Int × Outcome)}
    {finish : List Step}
    {result : Except SpoolError Disposition}
    (hCourse :
      Course queue settings calls verdicts finish result) :
    (courseSteps calls verdicts finish).Pairwise
      (·.rank ≤ ·.rank) := by
  have hFinish := hCourse.pairwise_rank_finish
  rw [courseSteps, List.cons_append, List.pairwise_cons,
    List.append_assoc, List.pairwise_append,
    List.pairwise_append]
  have hCalls : ∀ call, (Step.ofCall call).rank = 1 :=
    fun _ => rfl
  have hVerdicts :
      ∀ verdict, (Step.ofVerdict verdict).rank = 2 :=
    fun _ => rfl
  refine ⟨fun _ _ => Nat.zero_le _,
    pairwise_rank_map calls hCalls,
    ⟨pairwise_rank_map verdicts hVerdicts, hFinish.1, ?_⟩, ?_⟩
  · rw [List.forall_mem_map]
    exact fun _ _ step hStep =>
      Nat.le_of_succ_le (hFinish.2 step hStep)
  · rw [List.forall_mem_map]
    intro _ _ step hStep
    rcases List.mem_append.mp hStep with hVerdict | hLater
    · rcases List.mem_map.mp hVerdict with ⟨verdict, _, rfl⟩
      exact Nat.le_succ 1
    · exact Nat.le_trans (Nat.le_add_right 1 2)
        (hFinish.2 step hLater)

/-
  However its modules, its policy, the disk and the relays
  behave, a chain does about a message what it may and has to
  do, and in order. What is left of the transaction and of the
  world is what the steps made of them.
-/
theorem isControlled_process
    (queue : Queue)
    (settings : Settings)
    (t : Transaction)
    (w : World) :
    ∃ steps,
      Performs queue settings (.take t.message) steps (t, w)
          ((queue.process settings t w).1.2,
            (queue.process settings t w).2) ∧
        steps.Pairwise (·.rank ≤ ·.rank) ∧
        IsControlled queue settings (.of steps)
          (queue.process settings t w).1.1 := by
  rcases queue.exists_performs settings t w with
    ⟨calls, verdicts, finish, hCourse, hPerforms⟩
  refine ⟨_, hPerforms, hCourse.pairwise_rank, ?_⟩
  rw [Tally.of_courseSteps]
  generalize (queue.process settings t w).1.1 = result at hCourse
  cases hCourse with
  | stopped hFits hStops => exact .of_stopped hFits hStops
  | finished hFits hGoesOn hFinishes =>
      exact .of_finished hFits hGoesOn hFinishes

end Queue

end MailFilter
