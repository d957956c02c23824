import MailFilter.Proofs.Server.Jobs

/-
  When a job that is pending can be started.

  A job that fails takes its worker with it, and nobody
  replaces the worker. If no job runs and the pool was not
  closed, the next job can be started as long as fewer jobs
  failed than there are workers. Once as many failed, no job
  is started any more.

  Key definitions include:
    * `Server.Crew.IsStaffed`

  Main statements:
    * `Server.Crew.IsStaffed.step`
    * `Server.Crew.exists_start_iff`
-/

namespace MailFilter.Server

namespace Crew

variable {Job : Type} [DecidableEq Job]
variable {crew next first : Crew Job}
variable {events : List (Event Job)} {event : Event Job}

------------------------------------------------------------
-- Workers
------------------------------------------------------------

/- A worker that goes over from one state to another. -/
theorem count_set
    {workers : List (Worker Job)}
    {worker : Nat}
    {old : Worker Job}
    (hOld : workers[worker]? = some old)
    (new state : Worker Job) :
    (workers.set worker new).count state +
        (if old = state then 1 else 0) =
      workers.count state + (if new = state then 1 else 0) := by
  rcases List.getElem?_eq_some_iff.mp hOld with ⟨hSize, hGet⟩
  have hSet := List.count_set (a := new) (b := state) hSize
  simp only [hGet, beq_iff_eq] at hSet
  by_cases hSame : old = state
  · have hSome : 0 < workers.count state :=
      List.count_pos_iff.mpr
        (hSame ▸ List.mem_of_getElem? hOld)
    rw [hSet, if_pos hSame]
    omega
  · rw [hSet, if_neg hSame]
    omega

/-
  The workers are those that the pool knows of: those that
  are free, those that run a job, and those that were lost.
-/
structure IsStaffed
    (events : List (Event Job))
    (crew : Crew Job) : Prop where
  idle :
    crew.pool.idle =
      crew.workers.count .waiting + crew.workers.count .stopped
  running :
    ∀ job,
      crew.pool.running.count job = crew.workers.count (.busy job)
  lost : (losses events).length = crew.workers.count .lost
  stopped :
    .stopped ∈ crew.workers → crew.pool.closed = true

namespace IsStaffed

theorem create
    (size : Nat) :
    IsStaffed [] (Crew.create size : Crew Job) := by
  constructor
  · simp [Crew.create, Pool.create, List.count_replicate]
  · simp [Crew.create, Pool.create, List.count_replicate]
  · simp [Crew.create, losses, List.count_replicate]
  · intro hStopped
    cases List.eq_of_mem_replicate hStopped

/- A step that concerns no worker. -/
theorem of_workers
    (hStaffed : IsStaffed events crew)
    (hLost : event.lost? = none)
    {pool : Pool Job}
    (hIdle : pool.idle = crew.pool.idle)
    (hRunning : pool.running = crew.pool.running)
    (hClosed : crew.pool.closed = true → pool.closed = true) :
    IsStaffed (events ++ [event])
      { crew with pool := pool } where
  idle := hIdle.trans hStaffed.idle
  running job := by rw [hRunning, hStaffed.running]
  lost := by simpa [hLost] using hStaffed.lost
  stopped hStopped := hClosed (hStaffed.stopped hStopped)

/- A step by which one worker comes to do something else. -/
theorem of_assign
    (hStaffed : IsStaffed events crew)
    {worker : Nat}
    {old new : Worker Job}
    (hOld : crew.workers[worker]? = some old)
    {pool : Pool Job}
    (hIdle :
      pool.idle +
          ((if old = .waiting then 1 else 0) +
            (if old = .stopped then 1 else 0)) =
        crew.pool.idle +
          ((if new = .waiting then 1 else 0) +
            (if new = .stopped then 1 else 0)))
    (hRunning :
      ∀ job,
        pool.running.count job +
            (if old = .busy job then 1 else 0) =
          crew.pool.running.count job +
            (if new = .busy job then 1 else 0))
    (hLost :
      event.lost?.toList.length +
          (if old = .lost then 1 else 0) =
        if new = .lost then 1 else 0)
    (hClosed : crew.pool.closed = true → pool.closed = true)
    (hStopped : new = .stopped → pool.closed = true) :
    IsStaffed (events ++ [event])
      ({ crew with pool := pool }.assign worker new) := by
  have hSet := count_set hOld new
  constructor
  · have hWaits := hSet .waiting
    have hStops := hSet .stopped
    have hStaff := hStaffed.idle
    simp only [assign]
    omega
  · intro job
    have hBusy := hSet (.busy job)
    have hRuns := hRunning job
    rw [hStaffed.running job] at hRuns
    simp only [assign]
    omega
  · have hLosses := hSet .lost
    have hStaff := hStaffed.lost
    rw [losses_concat, List.length_append]
    simp only [assign]
    omega
  · intro hMem
    rcases List.mem_or_eq_of_mem_set hMem with hEarlier | hNew
    · exact hClosed (hStaffed.stopped hEarlier)
    · exact hStopped hNew.symm

/- The job of a busy worker is one of those that run. -/
theorem count_erase_running
    (hStaffed : IsStaffed events crew)
    {worker : Nat}
    {job : Job}
    (hBusy : crew.workers[worker]? = some (.busy job))
    (other : Job) :
    (crew.pool.running.erase job).count other +
        (if job = other then 1 else 0) =
      crew.pool.running.count other := by
  have hRuns : 0 < crew.pool.running.count job := by
    rw [hStaffed.running]
    exact List.count_pos_iff.mpr (List.mem_of_getElem? hBusy)
  by_cases hSame : job = other
  · subst hSame
    rw [List.count_erase_self, if_pos rfl]
    omega
  · rw [List.count_erase_of_ne (Ne.symm hSame), if_neg hSame]
    rfl

/- Each step keeps the pool and its workers together. -/
theorem step
    (hStaffed : IsStaffed events crew)
    (hStep : Step crew event next) :
    IsStaffed (events ++ [event]) next := by
  cases hStep with
  | submit job =>
      cases hClosed : crew.pool.closed with
      | true =>
          rw [Pool.submit_of_closed hClosed]
          exact hStaffed.of_workers rfl rfl rfl id
      | false =>
          rw [Pool.submit_of_open hClosed]
          exact hStaffed.of_workers rfl rfl rfl id
  | start hWaiting hNext =>
      rcases Pool.next?_eq_some_iff.mp hNext with
        ⟨rest, _, _, hIdle, rfl⟩
      have hTaken : crew.pool.idle - 1 + 1 = crew.pool.idle :=
        Nat.sub_add_cancel hIdle
      exact hStaffed.of_assign hWaiting (by simpa using hTaken)
        (by simp [List.count_singleton]) rfl id (by simp)
  | stop hWaiting hClosed =>
      exact hStaffed.of_assign hWaiting (by simp) (by simp) rfl
        id fun _ => hClosed
  | finish hBusy =>
      exact hStaffed.of_assign hBusy (by simp [Pool.finish])
        (by simpa [Pool.finish] using
          hStaffed.count_erase_running hBusy)
        rfl id (by simp)
  | fail hBusy =>
      exact hStaffed.of_assign hBusy (by simp [Pool.crash])
        (by simpa [Pool.crash] using
          hStaffed.count_erase_running hBusy)
        rfl id (by simp)
  | close => exact hStaffed.of_workers rfl rfl rfl fun _ => rfl

/- A worker that was not lost waits if no job runs. -/
theorem eq_waiting
    (hStaffed : IsStaffed events crew)
    (hOpen : crew.pool.closed = false)
    (hNone : crew.pool.running = [])
    {state : Worker Job}
    (hMem : state ∈ crew.workers)
    (hNot : state ≠ .lost) :
    state = .waiting := by
  cases state with
  | waiting => rfl
  | busy job =>
      have hCount := hStaffed.running job
      rw [hNone, List.count_nil] at hCount
      exact absurd hMem (List.count_eq_zero.mp hCount.symm)
  | stopped =>
      rw [hStaffed.stopped hMem] at hOpen
      cases hOpen
  | lost => exact absurd rfl hNot

/- So it can take the next job. -/
theorem exists_start
    (hStaffed : IsStaffed events crew)
    (hOpen : crew.pool.closed = false)
    {job : Job}
    (hPending : crew.pool.pending.head? = some job)
    (hMem : .waiting ∈ crew.workers) :
    ∃ worker next, Step crew (.started worker job) next := by
  rcases List.getElem?_of_mem hMem with ⟨worker, hWorker⟩
  rcases List.head?_eq_some_iff.mp hPending with ⟨rest, hRest⟩
  have hIdle : 0 < crew.pool.idle := by
    have hCount := List.count_pos_iff.mpr hMem
    have hStaff := hStaffed.idle
    omega
  exact ⟨worker, _, .start hWorker
    (Pool.next?_eq_some_iff.mpr
      ⟨rest, hRest, hOpen, hIdle, rfl⟩)⟩

end IsStaffed

theorem Runs.isStaffed
    {size : Nat}
    (hRuns : Runs (create size) events crew) :
    IsStaffed events crew :=
  hRuns.keeps (.create size) IsStaffed.step

theorem Step.length_workers
    (hStep : Step crew event next) :
    next.workers.length = crew.workers.length := by
  cases hStep with
  | submit => rfl
  | start => exact List.length_set
  | stop => exact List.length_set
  | finish => exact List.length_set
  | fail => exact List.length_set
  | close => rfl

/- There are as many workers as at the start. -/
theorem Runs.length_workers
    {size : Nat}
    (hRuns : Runs (create size) events crew) :
    crew.workers.length = max size 1 :=
  hRuns.keeps
    (motive := fun _ crew => crew.workers.length = max size 1)
    List.length_replicate
    fun hLength hStep => hStep.length_workers.trans hLength

/- A pool is closed only by closing it. -/
theorem Runs.open_of_not_mem
    {size : Nat}
    (hRuns : Runs (create size) events crew)
    (hOpen : ∀ count, .closed count ∉ events) :
    crew.pool.closed = false := by
  have hEither :
      crew.pool.closed = false ∨
        ∃ count, .closed count ∈ events := by
    apply hRuns.keeps
      (motive := fun events crew =>
        crew.pool.closed = false ∨
          ∃ count, .closed count ∈ events)
      (Or.inl rfl)
    rintro events crew event next (hBefore | ⟨count, hMem⟩) hStep
    · cases hStep with
      | submit job =>
          rw [Pool.submit_of_open hBefore]
          exact Or.inl hBefore
      | start _ hNext =>
          rcases Pool.next?_eq_some_iff.mp hNext with
            ⟨_, _, _, _, rfl⟩
          exact Or.inl hBefore
      | stop => exact Or.inl hBefore
      | finish => exact Or.inl hBefore
      | fail => exact Or.inl hBefore
      | close =>
          exact Or.inr ⟨_, List.mem_append_right _
            (List.mem_singleton_self _)⟩
    · exact Or.inr ⟨count, List.mem_append_left _ hMem⟩
  rcases hEither with hStill | ⟨count, hMem⟩
  · exact hStill
  · exact absurd hMem (hOpen count)

------------------------------------------------------------
-- Lost Workers
------------------------------------------------------------

theorem length_le_count_lost_iff
    {workers : List (Worker Job)} :
    workers.length ≤ workers.count .lost ↔
      ∀ worker ∈ workers, worker = .lost := by
  constructor
  · intro hMany worker hWorker
    have hSame := Nat.le_antisymm List.count_le_length hMany
    exact (List.count_eq_length.mp hSame worker hWorker).symm
  · intro hAll
    have hSame : workers.count .lost = workers.length :=
      List.count_eq_length.mpr
        fun worker hWorker => (hAll worker hWorker).symm
    exact Nat.le_of_eq hSame.symm

/- If all workers were lost, nobody does anything any more. -/
theorem Runs.starts_of_lost
    (hRuns : Runs first events crew)
    (hLost : ∀ worker ∈ first.workers, worker = .lost) :
    starts events = [] := by
  have hBoth :
      (∀ worker ∈ crew.workers, worker = .lost) ∧
        starts events = [] := by
    apply hRuns.keeps
      (motive := fun events crew =>
        (∀ worker ∈ crew.workers, worker = .lost) ∧
          starts events = [])
      ⟨hLost, rfl⟩
    rintro events crew event next ⟨hAll, hNone⟩ hStep
    have hNot :
        ∀ {worker : Nat} {state : Worker Job},
          crew.workers[worker]? = some state → state = .lost :=
      fun hState => hAll _ (List.mem_of_getElem? hState)
    cases hStep with
    | submit => exact ⟨hAll, by simp [hNone, Event.started?]⟩
    | start hWaiting => cases hNot hWaiting
    | stop hWaiting => cases hNot hWaiting
    | finish hBusy => cases hNot hBusy
    | fail hBusy => cases hNot hBusy
    | close => exact ⟨hAll, by simp [hNone, Event.started?]⟩
  exact hBoth.2

/-
  In a pool that was not closed and in which no job runs, the
  next job that is pending can be started if and only if
  fewer jobs have failed than the pool had workers. If as
  many have failed, no job is started ever after.
-/
theorem exists_start_iff
    {size : Nat}
    (hRuns : Runs (create size) events crew)
    (hOpen : ∀ count, .closed count ∉ events)
    (hNone : crew.pool.running = [])
    {job : Job}
    (hPending : crew.pool.pending.head? = some job) :
    ((∃ worker next, Step crew (.started worker job) next) ↔
        (losses events).length < max size 1) ∧
      (max size 1 ≤ (losses events).length →
          ∀ later last, Runs crew later last →
            starts later = []) := by
  have hStaffed := hRuns.isStaffed
  have hLength := hRuns.length_workers
  have hStill := hRuns.open_of_not_mem hOpen
  rw [hStaffed.lost, ← hLength]
  refine ⟨⟨?_, ?_⟩, ?_⟩
  · rintro ⟨worker, next, hStep⟩
    cases hStep with
    | start hWaiting _ =>
        apply Nat.lt_of_not_le
        intro hMany
        cases length_le_count_lost_iff.mp hMany _
          (List.mem_of_getElem? hWaiting)
  · intro hFew
    have hNotAll :=
      mt length_le_count_lost_iff.mpr (Nat.not_le_of_lt hFew)
    rcases not_forall.mp hNotAll with ⟨state, hState⟩
    rcases Classical.not_imp.mp hState with ⟨hMem, hNot⟩
    have hWaits :=
      hStaffed.eq_waiting hStill hNone hMem hNot
    exact hStaffed.exists_start hStill hPending (hWaits ▸ hMem)
  · intro hMany later last hLater
    exact hLater.starts_of_lost
      (length_le_count_lost_iff.mp hMany)

/- One of two workers was lost, and the other one goes on. -/
theorem exists_start_oneLost :
    ∃ crew : Crew Nat,
      Runs (create 2)
          [.submitted 1 true, .started 0 1, .failed 0 1,
            .submitted 2 true] crew ∧
        crew.pool.running = [] ∧
        crew.pool.pending.head? = some 2 ∧
        ∃ worker next, Step crew (.started worker 2) next := by
  have hRuns :=
    ((((@Runs.refl Nat _ (create 2)).step (.submit 1)).step
      (@Step.start _ _ _ 0 1 _ rfl rfl)).step
      (@Step.fail _ _ _ 0 1 rfl)).step (.submit 2)
  have hOpen :
      ∀ count : Nat,
        Event.closed count ∉
          [.submitted 1 true, .started 0 1, .failed 0 1,
            .submitted 2 true] := by
    simp
  have hStart := exists_start_iff hRuns hOpen rfl rfl
  exact ⟨_, hRuns, rfl, rfl, hStart.1.mpr (by decide)⟩

/-
  The only worker was lost with its job. The next job is
  pending, no job runs, and nobody can take it.
-/
theorem not_exists_start_allLost :
    ∃ crew : Crew Nat,
      Runs (create 1)
          [.submitted 1 true, .started 0 1, .failed 0 1,
            .submitted 2 true] crew ∧
        crew.pool.closed = false ∧
        crew.pool.running = [] ∧
        crew.pool.pending = [2] ∧
        ¬ ∃ worker job next,
            Step crew (.started worker job) next := by
  have hRuns :=
    ((((@Runs.refl Nat _ (create 1)).step (.submit 1)).step
      (@Step.start _ _ _ 0 1 _ rfl rfl)).step
      (@Step.fail _ _ _ 0 1 rfl)).step (.submit 2)
  refine ⟨_, hRuns, rfl, rfl, rfl, ?_⟩
  rintro ⟨worker, job, next, hStep⟩
  cases hStep with
  | start hWaiting _ =>
      cases List.mem_singleton.mp (List.mem_of_getElem? hWaiting)

end Crew

end MailFilter.Server
