/-
  This file defines the pool of workers that take jobs from
  one queue.

  Each operation is one step under the lock of the queue. A
  job that fails takes its worker with it.

  Key definitions include:
    * `Server.Pool`
    * `Server.Pool.create`
    * `Server.Pool.submit`
    * `Server.Pool.next?`
    * `Server.Pool.finish`
    * `Server.Pool.crash`
    * `Server.Pool.close`
    * `Server.Pool.dispatch`
    * `Server.Pool.settle`
-/

namespace MailFilter.Server

/-
  A pool: how many workers wait for a job, the jobs that wait
  for a worker, those that run, and whether it is closed. For
  the record it keeps the jobs that were started and those
  that were dropped, each with the newest first.
-/
structure Pool (Job : Type) where
  size : Nat
  idle : Nat
  pending : List Job := []
  running : List Job := []
  closed : Bool := false
  started : List Job := []
  dropped : List Job := []

namespace Pool

variable {Job : Type}

/- Start a pool. It has one worker at least. -/
def create
    (size : Nat) : Pool Job :=
  { size := max size 1, idle := max size 1 }

/- Queue a job. A pool that is closed takes none. -/
def submit
    (pool : Pool Job)
    (job : Job) : Bool × Pool Job :=
  if pool.closed then (false, pool)
  else (true, { pool with pending := pool.pending ++ [job] })

/- Let a worker take the next job. -/
def next?
    (pool : Pool Job) : Option (Job × Pool Job) :=
  match pool.pending with
  | [] => none
  | job :: rest =>
      if pool.closed || pool.idle == 0 then none
      else
        some (job, { pool with
          idle := pool.idle - 1
          pending := rest
          running := pool.running ++ [job]
          started := job :: pool.started })

/- A job ends, and its worker is free for another one. -/
def finish
    [BEq Job]
    (pool : Pool Job)
    (job : Job) : Pool Job :=
  { pool with
    idle := pool.idle + 1
    running := pool.running.erase job }

/- A job fails, and its worker is lost. -/
def crash
    [BEq Job]
    (pool : Pool Job)
    (job : Job) : Pool Job :=
  { pool with running := pool.running.erase job }

/- Stop taking jobs and drop those that wait. -/
def close
    (pool : Pool Job) : Nat × Pool Job :=
  (pool.pending.length, { pool with
    closed := true
    pending := []
    dropped := pool.pending.reverse ++ pool.dropped })

/- Let workers take jobs as long as there are both. -/
def dispatch
    (pool : Pool Job) : Pool Job :=
  match _ : pool.next? with
  | none => pool
  | some (_, next) => dispatch next
termination_by pool.pending.length
decreasing_by
  rename_i hStep
  unfold next? at hStep
  split at hStep
  · simp at hStep
  next job rest hWaiting =>
    split at hStep
    · simp at hStep
    · simp only [Option.some.injEq, Prod.mk.injEq] at hStep
      simp [← hStep.2, hWaiting]

/- The work that is left: each job waits, runs and ends. -/
def work
    (pool : Pool Job) : Nat :=
  2 * pool.pending.length + pool.running.length

/- Taking a job leaves less work. -/
theorem work_next?_lt
    {pool next : Pool Job}
    {job : Job}
    (hStep : pool.next? = some (job, next)) :
    next.work < pool.work := by
  unfold next? at hStep
  split at hStep
  · simp at hStep
  next first rest hWaiting =>
    split at hStep
    · simp at hStep
    · simp only [Option.some.injEq, Prod.mk.injEq] at hStep
      simp only [work, ← hStep.2, hWaiting, List.length_cons,
        List.length_append, List.length_nil]
      omega

/- Taking jobs leaves no more work. -/
theorem work_dispatch_le
    (pool : Pool Job) :
    pool.dispatch.work ≤ pool.work := by
  fun_induction dispatch pool with
  | case1 => exact Nat.le_refl _
  | case2 pool job next hStep ih =>
      exact Nat.le_trans ih (Nat.le_of_lt (work_next?_lt hStep))

/-
  Let running jobs end if they can, and others start, until
  nothing more happens.
-/
def settle
    [DecidableEq Job]
    (canEnd : Job → Bool)
    (pool : Pool Job) : Pool Job :=
  match _ : pool.dispatch.running.find? canEnd with
  | none => pool.dispatch
  | some job => settle canEnd (pool.dispatch.finish job)
termination_by pool.work
decreasing_by
  rename_i hFound
  have hMem := List.mem_of_find?_eq_some hFound
  have hShorter := List.length_erase_of_mem hMem
  have hPositive := List.length_pos_of_mem hMem
  have hLess := work_dispatch_le pool
  simp only [work, finish, hShorter] at hLess ⊢
  omega

end Pool

end MailFilter.Server
