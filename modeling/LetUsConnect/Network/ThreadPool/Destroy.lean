import LetUsConnect.Network.ThreadPool.Delivery

/-!
# The destruction of the pool

`thread_pool_destroy` with `THREAD_POOL_DESTROY_SOFT`, run by one thread step by
step among the workers, and what `main` does after it: `dictionary_destructor` on
the routes. No thread calls `add_work` any more.

The arrays `tids` and `threads_states` and the name of the semaphore are left out,
since no worker refers to them. A task is completed when its worker leaves the
work; the completed tasks are recorded.
-/

namespace LetUsConnect

universe u v

open Threads

/-- `curr_size` of a pool that `thread_pool_init` has accepted. -/
structure PoolSize where
  currSize : ℕ
  positive : 0 < currSize
  fits : currSize ≤ intMax

namespace PoolSize

abbrev Worker (size : PoolSize) := Fin size.currSize

/-- The worker a loop over the threads is at; `none` at its end. -/
def workerAt (size : PoolSize) (index : ℕ) : Option size.Worker :=
  if inside : index < size.currSize then some ⟨index, inside⟩ else none

variable {size : PoolSize} {index : ℕ}

theorem workerAt_eq_some {worker : size.Worker} (found : size.workerAt index = some worker) :
    index = worker ∧ index < size.currSize := by
  rw [workerAt] at found
  split_ifs at found with inside
  cases found
  exact ⟨rfl, inside⟩

theorem workerAt_eq_none (finished : size.workerAt index = none) : size.currSize ≤ index := by
  rw [workerAt] at finished
  split_ifs at finished with inside
  exact Nat.le_of_not_lt inside

end PoolSize

/-- The places of the thread that destroys the pool. -/
inductive DestroyPlace where
  | waitWork
  | mutexLock
  | terminate (index : ℕ)
  | unlock
  | semPost (index : ℕ)
  | join (index : ℕ)
  | freeState (index : ℕ)
  | semClose
  | freeLock
  | returned
  -- In `main`, after the call.
  | routesDestroyed
  deriving DecidableEq

/-- What is given back and a worker may refer to. -/
inductive PoolResource (Worker : Type) where
  | poolSem
  | poolLock
  | state (worker : Worker)
  | routes
  deriving DecidableEq

/-- What the next step of a worker refers to, apart from the pool itself. -/
def WorkerPlace.touches {Task : Type u} {Body : Type v} {Worker : Type} (worker : Worker) :
    WorkerPlace Task Body → List (PoolResource Worker)
  | .semWait => [.poolSem]
  | .mutexLock | .relock | .unlockBusy _ | .unlockIdle | .unlockFree | .unlockExit => [.poolLock]
  | .checkState | .setBusy _ | .recheckState | .setFree => [.state worker]
  | .work _ _ => [.routes]
  | _ => []

def WorkerPlace.hasExited {Task : Type u} {Body : Type v} : WorkerPlace Task Body → Bool
  | .exited => true
  | _ => false

structure Shutdown (Task : Type u) (Body : Type v) (size : PoolSize) (Adder : Type) where
  pool : ThreadPool Task Body size.Worker Adder
  place : DestroyPlace
  freed : PoolResource size.Worker → Bool
  completed : List Task

inductive ShutdownLabel (Body : Type v) (size : PoolSize) where
  | worker (worker : size.Worker)
  | interrupt (worker : size.Worker)
  | proceed (worker : size.Worker) (body : Body)
  | finishWork (worker : size.Worker)
  /-- A turn of the loop that waits for the work to be taken. -/
  | spin
  | destroy

namespace Shutdown

variable {Task : Type u} {Body : Type v} {size : PoolSize} {Adder : Type}

/-- The call of `thread_pool_destroy`. -/
def begin (pool : ThreadPool Task Body size.Worker Adder) : Shutdown Task Body size Adder where
  pool
  place := .waitWork
  freed := fun _ => false
  completed := []

def goto (state : Shutdown Task Body size Adder) (place : DestroyPlace) :
    Shutdown Task Body size Adder :=
  { state with place }

def free (state : Shutdown Task Body size Adder) (resource : PoolResource size.Worker) :
    Shutdown Task Body size Adder :=
  { state with freed := Function.update state.freed resource true }

def spin (state : Shutdown Task Body size Adder) : Option (Shutdown Task Body size Adder) :=
  if state.place = .waitWork ∧ 0 < state.pool.availableWork then some state else none

/-- One step of `thread_pool_destroy` by the thread named `destroyer`, or of `main` after it. -/
def destroyStep (destroyer : Adder) (state : Shutdown Task Body size Adder) :
    Option (Shutdown Task Body size Adder) :=
  match state.place with
  | .waitWork => if 0 < state.pool.availableWork then none else some (state.goto .mutexLock)
  | .mutexLock =>
      if state.pool.poolLock = none then
        some
          { state.goto (.terminate 0) with
            pool := { state.pool with poolLock := some (.adder destroyer) } }
      else none
  | .terminate index =>
      match size.workerAt index with
      | some worker =>
          let threadsStates := Function.update state.pool.threadsStates worker .terminated
          some
            { state.goto (.terminate (index + 1)) with pool := { state.pool with threadsStates } }
      | none => some (state.goto .unlock)
  | .unlock =>
      some { state.goto (.semPost 0) with pool := { state.pool with poolLock := none } }
  | .semPost index =>
      if index < size.currSize then
        some
          { state.goto (.semPost (index + 1)) with
            pool := { state.pool with poolSem := semPost state.pool.poolSem } }
      else some (state.goto (.join 0))
  | .join index =>
      match size.workerAt index with
      | some worker =>
          if (state.pool.workers worker).hasExited then some (state.goto (.freeState index))
          else none
      | none => some (state.goto .semClose)
  | .freeState index =>
      (size.workerAt index).map fun worker =>
        (state.free (.state worker)).goto (.join (index + 1))
  | .semClose => some ((state.free .poolSem).goto .freeLock)
  | .freeLock => some ((state.free .poolLock).goto .returned)
  | .returned => some ((state.free .routes).goto .routesDestroyed)
  | .routesDestroyed => none

variable [DecidableEq Adder] [Inhabited Body]

/-- A step of the pool among the steps of the destruction. -/
def ofPool (state : Shutdown Task Body size Adder)
    (after : Option (ThreadPool Task Body size.Worker Adder)) :
    Option (Shutdown Task Body size Adder) :=
  after.map fun pool => { state with pool }

/-- A worker leaves its work; the task is completed. -/
def finishWork (worker : size.Worker) (state : Shutdown Task Body size Adder) :
    Option (Shutdown Task Body size Adder) :=
  (state.pool.finishWork worker).map fun pool =>
    { state with
      pool
      completed := state.completed ++ (state.pool.workers worker).held.toList }

end Shutdown

/-- The soft destruction of a pool that no thread adds to any more. -/
def shutdownSystem (Task : Type u) (Body : Type v) (size : PoolSize) (Adder : Type)
    [DecidableEq Adder] [Inhabited Body] (destroyer : Adder) :
    Transition.System (Shutdown Task Body size Adder) (ShutdownLabel Body size) where
  initial state := ∃ pool : ThreadPool Task Body size.Worker Adder,
    (poolSystem Task Body size.Worker Adder).Reachable pool ∧
      (∀ adder, ∃ result, pool.adders adder = .returned result) ∧ state = Shutdown.begin pool
  step
    | .worker worker => fun state => state.ofPool (state.pool.workerStep worker)
    | .interrupt worker => fun state => state.ofPool (state.pool.interrupt worker)
    | .proceed worker body => fun state => state.ofPool (state.pool.proceed worker body)
    | .finishWork worker => Shutdown.finishWork worker
    | .spin => Shutdown.spin
    | .destroy => Shutdown.destroyStep destroyer

end LetUsConnect
