import MailFilter.Server.Pool

/-
  This file defines the workers of a pool, and all that can
  happen to a pool and its workers.

  A worker takes a job, does it, and takes the next one. It
  stops when it finds the pool closed, and it is lost when
  its job fails. Jobs may be submitted and the pool may be
  closed at any time, and any number of times. Each of these
  is one step under the lock of the queue, so the steps come
  one after the other, in any order.

  Key definitions include:
    * `Server.Worker`
    * `Server.Crew`
    * `Server.Crew.Event`
    * `Server.Crew.Step`
    * `Server.Crew.Runs`
-/

namespace MailFilter.Server

/- What a worker does. -/
inductive Worker (Job : Type) where
  | waiting
  | busy (job : Job)
  /- It found the pool closed. -/
  | stopped
  /- Its job failed and took it along. -/
  | lost
deriving DecidableEq

/- A pool with its workers, which are known by number. -/
structure Crew (Job : Type) where
  pool : Pool Job
  workers : List (Worker Job)

namespace Crew

variable {Job : Type}

/- Start a pool. All its workers wait. -/
def create
    (size : Nat) : Crew Job :=
  let pool := Pool.create size
  { pool := pool
    workers := List.replicate pool.size .waiting }

/- Let a worker be seen to do something else. -/
def assign
    (crew : Crew Job)
    (worker : Nat)
    (state : Worker Job) : Crew Job :=
  { crew with workers := crew.workers.set worker state }

/- What can happen, with what the caller gets to know. -/
inductive Event (Job : Type) where
  /- A job was submitted, and was accepted or not. -/
  | submitted (job : Job) (accepted : Bool)
  /- A worker took a job. -/
  | started (worker : Nat) (job : Job)
  /- A worker got no job any more. -/
  | stopped (worker : Nat)
  /- The job of a worker ended. -/
  | finished (worker : Nat) (job : Job)
  /- The job of a worker failed. -/
  | failed (worker : Nat) (job : Job)
  /- The pool was closed, and that many jobs were dropped. -/
  | closed (dropped : Nat)
deriving DecidableEq

/- What a crew can do next. -/
inductive Step
    [BEq Job]
    (crew : Crew Job) : Event Job → Crew Job → Prop where
  | submit
      (job : Job) :
      Step crew (.submitted job (crew.pool.submit job).1)
        { crew with pool := (crew.pool.submit job).2 }
  | start
      {worker : Nat}
      {job : Job}
      {pool : Pool Job} :
      crew.workers[worker]? = some .waiting →
      crew.pool.next? = some (job, pool) →
      Step crew (.started worker job)
        ({ crew with pool := pool }.assign worker (.busy job))
  | stop
      {worker : Nat} :
      crew.workers[worker]? = some .waiting →
      crew.pool.closed = true →
      Step crew (.stopped worker) (crew.assign worker .stopped)
  | finish
      {worker : Nat}
      {job : Job} :
      crew.workers[worker]? = some (.busy job) →
      Step crew (.finished worker job)
        ({ crew with pool := crew.pool.finish job }.assign
          worker .waiting)
  | fail
      {worker : Nat}
      {job : Job} :
      crew.workers[worker]? = some (.busy job) →
      Step crew (.failed worker job)
        ({ crew with pool := crew.pool.crash job }.assign
          worker .lost)
  | close :
      Step crew (.closed crew.pool.close.1)
        { crew with pool := crew.pool.close.2 }

/-
  A crew comes to be another one while something happens. The
  events are given with the oldest first.
-/
inductive Runs
    [BEq Job]
    (first : Crew Job) : List (Event Job) → Crew Job → Prop where
  | refl : Runs first [] first
  | step
      {events : List (Event Job)}
      {event : Event Job}
      {crew next : Crew Job} :
      Runs first events crew →
      crew.Step event next →
      Runs first (events ++ [event]) next

------------------------------------------------------------
-- What Happened
------------------------------------------------------------

/- The job that an event had accepted. -/
def Event.accepted? : Event Job → Option Job
  | .submitted job true => some job
  | _ => none

/- The worker and the job that an event started. -/
def Event.started? : Event Job → Option (Nat × Job)
  | .started worker job => some (worker, job)
  | _ => none

/- The worker whose job failed by an event. -/
def Event.lost? : Event Job → Option Nat
  | .failed worker _ => some worker
  | _ => none

/- The number of jobs that an event reported as dropped. -/
def Event.dropped? : Event Job → Option Nat
  | .closed dropped => some dropped
  | _ => none

/- The jobs that were accepted, in order. -/
def accepted
    (events : List (Event Job)) : List Job :=
  events.filterMap Event.accepted?

/- The jobs that were started and by whom, in order. -/
def starts
    (events : List (Event Job)) : List (Nat × Job) :=
  events.filterMap Event.started?

/- The workers that were lost, in order. -/
def losses
    (events : List (Event Job)) : List Nat :=
  events.filterMap Event.lost?

/- The numbers that closing the pool gave, in order. -/
def drops
    (events : List (Event Job)) : List Nat :=
  events.filterMap Event.dropped?

end Crew

end MailFilter.Server
