import Mathlib.Algebra.GroupWithZero.Nat
import MailFilter.Server.Crew

/-
  What becomes of the jobs of a pool, whatever its workers
  and its callers do and in whatever order.

  The jobs that were accepted are at every moment those that
  were started, then those that were dropped, then those that
  are pending, all in the order in which they were accepted.
  Once the pool was closed no job is accepted or started any
  more. A job that was started runs on its worker until it
  ends there.

  Key definitions include:
    * `Server.Crew.IsAccounted`

  Main statements:
    * `Server.Crew.IsAccounted.step`
    * `Server.Crew.Step.busy`
    * `Server.Crew.accounts_of_runs`
-/

namespace MailFilter.Server

------------------------------------------------------------
-- Operations Of A Pool
------------------------------------------------------------

namespace Pool

variable {Job : Type}

/- When a job can be taken, and what is left then. -/
theorem next?_eq_some_iff
    {pool next : Pool Job}
    {job : Job} :
    pool.next? = some (job, next) ↔
      ∃ rest,
        pool.pending = job :: rest ∧
          pool.closed = false ∧
          0 < pool.idle ∧
          next = { pool with
            idle := pool.idle - 1
            pending := rest
            running := pool.running ++ [job]
            started := job :: pool.started } := by
  unfold next?
  constructor
  · intro hNext
    split at hNext
    · cases hNext
    · rename_i first rest hPending
      split at hNext
      · cases hNext
      · rename_i hFree
        simp only [Bool.or_eq_true, beq_iff_eq, not_or,
          Bool.not_eq_true] at hFree
        cases hNext
        exact ⟨rest, hPending, hFree.1,
          Nat.pos_of_ne_zero hFree.2, rfl⟩
  · rintro ⟨rest, hPending, hOpen, hIdle, rfl⟩
    simp only [hPending]
    rw [if_neg]
    simp only [hOpen, Bool.false_or, beq_iff_eq]
    omega

theorem submit_of_closed
    {pool : Pool Job}
    (hClosed : pool.closed = true)
    (job : Job) :
    pool.submit job = (false, pool) := by
  rw [submit, if_pos hClosed]

theorem submit_of_open
    {pool : Pool Job}
    (hOpen : pool.closed = false)
    (job : Job) :
    pool.submit job =
      (true, { pool with pending := pool.pending ++ [job] }) := by
  rw [submit, if_neg (by simp [hOpen])]

end Pool

------------------------------------------------------------
-- Accounts
------------------------------------------------------------

namespace Crew

variable {Job : Type}
variable {events : List (Event Job)} {event : Event Job}

@[simp]
theorem accepted_concat :
    accepted (events ++ [event]) =
      accepted events ++ event.accepted?.toList := by
  cases hEvent : event.accepted? <;> simp [accepted, hEvent]

@[simp]
theorem starts_concat :
    starts (events ++ [event]) =
      starts events ++ event.started?.toList := by
  cases hEvent : event.started? <;> simp [starts, hEvent]

@[simp]
theorem drops_concat :
    drops (events ++ [event]) =
      drops events ++ event.dropped?.toList := by
  cases hEvent : event.dropped? <;> simp [drops, hEvent]

@[simp]
theorem losses_concat :
    losses (events ++ [event]) =
      losses events ++ event.lost?.toList := by
  cases hEvent : event.lost? <;> simp [losses, hEvent]

/-
  No job was lost, doubled or put before another. The jobs
  that were dropped are counted by those who closed the pool.
-/
structure IsAccounted
    (events : List (Event Job))
    (pool : Pool Job) : Prop where
  parts :
    accepted events =
      (starts events).map Prod.snd ++
        pool.dropped.reverse ++ pool.pending
  kept : pool.closed = false → pool.dropped = []
  cleared : pool.closed = true → pool.pending = []
  counted : pool.dropped.length = (drops events).sum

namespace IsAccounted

variable {pool : Pool Job}

theorem create
    (size : Nat) :
    IsAccounted [] (Pool.create size : Pool Job) where
  parts := rfl
  kept _ := rfl
  cleared hClosed := by cases hClosed
  counted := rfl

/- An event by which no job moved changes no account. -/
theorem of_quiet
    (hAccounted : IsAccounted events pool)
    (hAccept : event.accepted? = none)
    (hStart : event.started? = none)
    (hDrop : event.dropped? = none)
    {other : Pool Job}
    (hPending : other.pending = pool.pending)
    (hDropped : other.dropped = pool.dropped)
    (hClosed : other.closed = pool.closed) :
    IsAccounted (events ++ [event]) other := by
  constructor
  · simpa [hAccept, hStart, hPending, hDropped]
      using hAccounted.parts
  · rw [hClosed, hDropped]
    exact hAccounted.kept
  · rw [hClosed, hPending]
    exact hAccounted.cleared
  · simpa [hDrop, hDropped] using hAccounted.counted

/- A job that is accepted comes after all others. -/
theorem submit
    (hAccounted : IsAccounted events pool)
    (job : Job) :
    IsAccounted
      (events ++ [.submitted job (pool.submit job).1])
      (pool.submit job).2 := by
  cases hClosed : pool.closed with
  | true =>
      rw [Pool.submit_of_closed hClosed]
      exact hAccounted.of_quiet rfl rfl rfl rfl rfl rfl
  | false =>
      rw [Pool.submit_of_open hClosed]
      refine ⟨?_, hAccounted.kept, ?_, ?_⟩
      · simp [hAccounted.parts, Event.accepted?, Event.started?]
      · intro hOther
        simp [hClosed] at hOther
      · simpa [Event.dropped?] using hAccounted.counted

/- The first job that is pending comes to be the last start. -/
theorem start
    (hAccounted : IsAccounted events pool)
    (worker : Nat)
    {job : Job}
    {after : Pool Job}
    (hNext : pool.next? = some (job, after)) :
    IsAccounted (events ++ [.started worker job]) after := by
  rcases Pool.next?_eq_some_iff.mp hNext with
    ⟨rest, hPending, hOpen, _, rfl⟩
  have hNone := hAccounted.kept hOpen
  refine ⟨?_, hAccounted.kept, ?_, ?_⟩
  · simp [hAccounted.parts, hNone, hPending, Event.accepted?,
      Event.started?]
  · intro hOther
    simp [hOpen] at hOther
  · simpa [Event.dropped?] using hAccounted.counted

/- All jobs that are pending come to be dropped. -/
theorem close
    (hAccounted : IsAccounted events pool) :
    IsAccounted (events ++ [.closed pool.close.1])
      pool.close.2 := by
  refine ⟨?_, ?_, fun _ => rfl, ?_⟩
  · simp [hAccounted.parts, Pool.close, Event.accepted?,
      Event.started?]
  · intro hOpen
    cases hOpen
  · simp [Pool.close, Event.dropped?, hAccounted.counted,
      Nat.add_comm]

end IsAccounted

end Crew

namespace Crew

variable {Job : Type} [BEq Job]
variable {crew next first : Crew Job}
variable {events : List (Event Job)} {event : Event Job}

------------------------------------------------------------
-- Runs
------------------------------------------------------------

/- What holds after a run is what each of its steps keeps. -/
theorem Runs.keeps
    {motive : List (Event Job) → Crew Job → Prop}
    (hRuns : Runs first events crew)
    (hFirst : motive [] first)
    (hStep :
      ∀ {events crew event next}, motive events crew →
        Step crew event next →
        motive (events ++ [event]) next) :
    motive events crew := by
  induction hRuns with
  | refl => exact hFirst
  | step _ hNext ih => exact hStep ih hNext

/- A run can be cut between any two events. -/
theorem Runs.split
    {front back : List (Event Job)}
    (hRuns : Runs first (front ++ back) crew) :
    ∃ middle,
      Runs first front middle ∧ Runs middle back crew := by
  generalize hEvents : front ++ back = events at hRuns
  induction hRuns generalizing back with
  | refl =>
      rcases List.append_eq_nil_iff.mp hEvents with ⟨rfl, rfl⟩
      exact ⟨first, .refl, .refl⟩
  | step hBefore hNext ih =>
      rcases List.eq_nil_or_concat back with rfl | ⟨rest, last, rfl⟩
      · rw [List.append_nil] at hEvents
        rw [hEvents]
        exact ⟨_, .step hBefore hNext, .refl⟩
      · rw [List.concat_eq_append, ← List.append_assoc] at hEvents
        rcases List.append_inj' hEvents rfl with ⟨hFront, hLast⟩
        cases hLast
        rcases ih hFront with ⟨middle, hFirst, hRest⟩
        rw [List.concat_eq_append]
        exact ⟨middle, hFirst, .step hRest hNext⟩

/- A run can be cut after any of its events. -/
theorem Runs.exists_step
    {before after : List (Event Job)}
    (hRuns : Runs first (before ++ event :: after) crew) :
    ∃ middle next,
      Runs first before middle ∧
        Step middle event next ∧
        Runs next after crew := by
  rw [List.append_cons] at hRuns
  rcases hRuns.split with ⟨next, hBefore, hAfter⟩
  generalize hEvents : before ++ [event] = events at hBefore
  cases hBefore with
  | refl => simp at hEvents
  | step hFirst hNext =>
      rcases List.append_inj' hEvents rfl with ⟨rfl, hLast⟩
      cases hLast
      exact ⟨_, next, hFirst, hNext, hAfter⟩

------------------------------------------------------------
-- Closed Pools
------------------------------------------------------------

/- A closed pool stays closed, and takes and gives nothing. -/
theorem Step.of_closed
    (hStep : Step crew event next)
    (hClosed : crew.pool.closed = true) :
    next.pool.closed = true ∧
      event.started? = none ∧
      event.accepted? = none := by
  cases hStep with
  | submit job =>
      rw [Pool.submit_of_closed hClosed]
      exact ⟨hClosed, rfl, rfl⟩
  | start _ hNext =>
      rcases Pool.next?_eq_some_iff.mp hNext with
        ⟨_, _, hOpen, _⟩
      rw [hOpen] at hClosed
      cases hClosed
  | stop => exact ⟨hClosed, rfl, rfl⟩
  | finish => exact ⟨hClosed, rfl, rfl⟩
  | fail => exact ⟨hClosed, rfl, rfl⟩
  | close => exact ⟨rfl, rfl, rfl⟩

theorem Runs.of_closed
    (hRuns : Runs first events crew)
    (hClosed : first.pool.closed = true) :
    crew.pool.closed = true ∧
      starts events = [] ∧
      accepted events = [] := by
  apply hRuns.keeps
    (motive := fun events crew =>
      crew.pool.closed = true ∧ starts events = [] ∧
        accepted events = [])
    ⟨hClosed, rfl, rfl⟩
  rintro events crew event next ⟨hKept, hStarts, hAccepted⟩ hStep
  rcases hStep.of_closed hKept with ⟨hNext, hStart, hAccept⟩
  exact ⟨hNext, by simp [hStarts, hStart],
    by simp [hAccepted, hAccept]⟩

------------------------------------------------------------
-- Jobs That Run
------------------------------------------------------------

/- Only its own end takes a worker off its job. -/
theorem Step.busy
    (hStep : Step crew event next)
    {worker : Nat}
    {job : Job}
    (hBusy : crew.workers[worker]? = some (.busy job)) :
    event = .finished worker job ∨
      event = .failed worker job ∨
      next.workers[worker]? = some (.busy job) := by
  -- Whoever else is assigned something is another worker.
  have hOther :
      ∀ {other : Nat} {state : Worker Job},
        crew.workers[other]? = some state →
        state ≠ .busy job →
        ∀ new : Worker Job,
          (crew.workers.set other new)[worker]? =
            some (.busy job) := by
    intro other state hState hNot new
    have hNe : other ≠ worker := by
      rintro rfl
      rw [hBusy] at hState
      cases hState
      exact hNot rfl
    rw [List.getElem?_set_ne hNe, hBusy]
  cases hStep with
  | submit => exact Or.inr (Or.inr hBusy)
  | start hWaiting =>
      exact Or.inr (Or.inr (hOther hWaiting (by simp) _))
  | stop hWaiting =>
      exact Or.inr (Or.inr (hOther hWaiting (by simp) _))
  | @finish other done hDone =>
      by_cases hSame : other = worker
      · subst hSame
        rw [hBusy] at hDone
        cases hDone
        exact Or.inl rfl
      · right; right
        exact (List.getElem?_set_ne hSame).trans hBusy
  | @fail other done hDone =>
      by_cases hSame : other = worker
      · subst hSame
        rw [hBusy] at hDone
        cases hDone
        exact Or.inr (Or.inl rfl)
      · right; right
        exact (List.getElem?_set_ne hSame).trans hBusy
  | close => exact Or.inr (Or.inr hBusy)

theorem Runs.busy
    (hRuns : Runs first events crew)
    {worker : Nat}
    {job : Job}
    (hBusy : first.workers[worker]? = some (.busy job)) :
    .finished worker job ∈ events ∨
      .failed worker job ∈ events ∨
      crew.workers[worker]? = some (.busy job) := by
  apply hRuns.keeps
    (motive := fun events crew =>
      .finished worker job ∈ events ∨
        .failed worker job ∈ events ∨
        crew.workers[worker]? = some (.busy job))
    (Or.inr (Or.inr hBusy))
  intro events crew event next hBefore hStep
  simp only [List.mem_append, List.mem_singleton]
  rcases hBefore with hDone | hDone | hStill
  · exact Or.inl (Or.inl hDone)
  · exact Or.inr (Or.inl (Or.inl hDone))
  · rcases hStep.busy hStill with rfl | rfl | hNext
    · exact Or.inl (Or.inr rfl)
    · exact Or.inr (Or.inl (Or.inr rfl))
    · exact Or.inr (Or.inr hNext)

/- A worker is busy with the job that it has just started. -/
theorem Step.busy_of_started
    {worker : Nat}
    {job : Job}
    (hStep : Step crew (.started worker job) next) :
    next.workers[worker]? = some (.busy job) := by
  cases hStep with
  | start hWaiting _ =>
      rcases List.getElem?_eq_some_iff.mp hWaiting with
        ⟨hSize, _⟩
      exact List.getElem?_set_self hSize

------------------------------------------------------------
-- Accounts Of A Run
------------------------------------------------------------

/- Each step keeps the accounts. -/
theorem IsAccounted.step
    (hAccounted : IsAccounted events crew.pool)
    (hStep : Step crew event next) :
    IsAccounted (events ++ [event]) next.pool := by
  cases hStep with
  | submit job => exact hAccounted.submit job
  | start _ hNext => exact hAccounted.start _ hNext
  | stop => exact hAccounted.of_quiet rfl rfl rfl rfl rfl rfl
  | finish => exact hAccounted.of_quiet rfl rfl rfl rfl rfl rfl
  | fail => exact hAccounted.of_quiet rfl rfl rfl rfl rfl rfl
  | close => exact hAccounted.close

theorem Runs.isAccounted
    {size : Nat}
    (hRuns : Runs (create size) events crew) :
    IsAccounted events crew.pool :=
  hRuns.keeps (motive := fun events crew =>
    IsAccounted events crew.pool) (.create size)
    IsAccounted.step

/-
  Whatever happens to a pool of any size, its accepted jobs
  are those that were started, dropped and are pending, in
  the order in which they were accepted, and the start at
  each place is that of the job accepted at that place. What
  closing the pool gave adds up to the jobs that were
  dropped. After the pool was closed for the first time no
  job is accepted, pending or started. A job that was started
  is with its worker until it ends or fails there.
-/
theorem accounts_of_runs
    {size : Nat}
    (hRuns : Runs (create size) events crew) :
    accepted events =
        (starts events).map Prod.snd ++
          crew.pool.dropped.reverse ++ crew.pool.pending ∧
      (∀ (place worker : Nat) (job : Job),
          (starts events)[place]? = some (worker, job) →
          (accepted events)[place]? = some job) ∧
      (drops events).sum = crew.pool.dropped.length ∧
      (∀ before count after,
          events = before ++ .closed count :: after →
          accepted after = [] ∧
            starts after = [] ∧
            crew.pool.pending = []) ∧
      (∀ before worker job after,
          events = before ++ .started worker job :: after →
          .finished worker job ∈ after ∨
            .failed worker job ∈ after ∨
            crew.workers[worker]? = some (.busy job)) := by
  have hAccounted := hRuns.isAccounted
  refine ⟨hAccounted.parts, ?_, hAccounted.counted.symm, ?_, ?_⟩
  · intro place worker job hPlace
    rcases List.getElem?_eq_some_iff.mp hPlace with ⟨hSize, _⟩
    rw [hAccounted.parts, List.append_assoc,
      List.getElem?_append_left (by simpa using hSize),
      List.getElem?_map, hPlace]
    rfl
  · rintro before count after rfl
    rcases hRuns.exists_step with ⟨_, next, _, hStep, hAfter⟩
    have hClosed : next.pool.closed = true := by
      cases hStep
      rfl
    rcases hAfter.of_closed hClosed with
      ⟨hLast, hStarts, hAccepted⟩
    exact ⟨hAccepted, hStarts, hAccounted.cleared hLast⟩
  · rintro before worker job after rfl
    rcases hRuns.exists_step with ⟨_, next, _, hStep, hAfter⟩
    exact hAfter.busy hStep.busy_of_started

/-
  The pool of one worker is closed twice, while a job runs
  and two are pending.
-/
theorem accounts_closed_while_busy :
    ∃ crew : Crew Nat,
      Runs (create 1)
          [.submitted 1 true, .submitted 2 true, .started 0 1,
            .submitted 3 true, .closed 2, .submitted 4 false,
            .closed 0] crew ∧
        [1, 2, 3] =
          [1] ++ crew.pool.dropped.reverse ++ crew.pool.pending ∧
        2 + 0 = crew.pool.dropped.length ∧
        crew.pool.pending = [] ∧
        crew.workers[0]? = some (.busy 1) := by
  have hRuns :=
    (((((((@Runs.refl Nat _ (create 1)).step (.submit 1)).step
      (.submit 2)).step (@Step.start _ _ _ 0 1 _ rfl rfl)).step
      (.submit 3)).step .close).step (.submit 4)).step .close
  rcases accounts_of_runs hRuns with
    ⟨hParts, _, hCount, hClosed, hBusy⟩
  have hLast := hClosed
    [.submitted 1 true, .submitted 2 true, .started 0 1,
      .submitted 3 true] 2 [.submitted 4 false, .closed 0] rfl
  have hStill := hBusy [.submitted 1 true, .submitted 2 true] 0 1
    [.submitted 3 true, .closed 2, .submitted 4 false, .closed 0]
    rfl
  refine ⟨_, hRuns, hParts, hCount, hLast.2.2, ?_⟩
  rcases hStill with hDone | hDone | hStill
  · exact absurd hDone (by decide)
  · exact absurd hDone (by decide)
  · exact hStill

end Crew

end MailFilter.Server
