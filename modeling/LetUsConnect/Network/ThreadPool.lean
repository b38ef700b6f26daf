import LetUsConnect.Lib.Threads
import LetUsConnect.Lib.Transition
import LetUsConnect.Network.FifoQueue

/-!
# The thread pool

`src/network/thread_pool.c` for a pool of static size that is not being
destroyed: the loop of `_thread_task` around the work itself, and `add_work`, run
by any number of threads. A place in the program names the statement a thread
executes next; each step is one access to what the threads share.

The queue is only touched under `pool_lock`, so `push_last` and `pop_first` are
one step each. A run goes on only as long as the size of the queue and
`available_work` stay within `int`.

What a worker does with a task is left open: `Body` are the places of the work,
which begins at `default` and goes from place to place by `proceed`. The tasks
pushed and popped so far are recorded for the statements about runs.
-/

namespace LetUsConnect

universe u v

open Threads

inductive ThreadState where
  | free
  | busy
  | terminated
  deriving DecidableEq

/-- The places of a worker; the task is `none` when `pop_first` left it `NULL`. -/
inductive WorkerPlace (Task : Type u) (Body : Type v) where
  | semWait
  | mutexLock
  | checkState
  | checkWork
  | popFirst
  | takeWork (task : Option Task)
  | countBusy (task : Option Task)
  | setBusy (task : Option Task)
  | unlockBusy (task : Option Task)
  | unlockIdle
  | work (task : Option Task) (body : Body)
  | relock
  | recheckState
  | uncountBusy
  | setFree
  | unlockFree
  | unlockExit
  | exited
  deriving DecidableEq

/-- The places of a thread that calls `add_work`; outside it, what the last call returned. -/
inductive AdderPlace (Task : Type u) where
  | returned (result : ℤ)
  | mutexLock (task : Task)
  | pushLast (task : Task)
  | addWork
  | semPost
  | unlock
  deriving DecidableEq

inductive PoolThread (Worker Adder : Type) where
  | worker (worker : Worker)
  | adder (adder : Adder)
  deriving DecidableEq

def intMax : ℤ := 2147483647

def semValueMax : ℕ := 2147483647

/-- `sem_post`; at the maximum it fails and leaves the semaphore as it is. -/
def semPost (count : ℕ) : ℕ := if count < semValueMax then count + 1 else count

/-- `thread_pool_t` and the places of the threads that work on it. -/
structure ThreadPool (Task : Type u) (Body : Type v) (Worker Adder : Type) where
  availableWork : ℤ
  busyThreadsNum : ℤ
  poolLock : Option (PoolThread Worker Adder)
  poolSem : ℕ
  threadsStates : Worker → ThreadState
  queue : FifoQueue
  heap : Heap Task
  workers : Worker → WorkerPlace Task Body
  adders : Adder → AdderPlace Task
  added : List Task
  popped : List Task

namespace ThreadPool

variable {Task : Type u} {Body : Type v} {Worker Adder : Type}

/-- `thread_pool_init`, when `sem_open` returns a semaphore with this count. -/
def threadPoolInit (count : ℕ) : ThreadPool Task Body Worker Adder where
  availableWork := 0
  busyThreadsNum := 0
  poolLock := none
  poolSem := count
  threadsStates := fun _ => .free
  queue := fifoQueueInit
  heap := fun _ => none
  workers := fun _ => .semWait
  adders := fun _ => .returned 0
  added := []
  popped := []

section Worker

variable [DecidableEq Worker]

def moveWorker (pool : ThreadPool Task Body Worker Adder) (worker : Worker)
    (place : WorkerPlace Task Body) : ThreadPool Task Body Worker Adder :=
  { pool with workers := Function.update pool.workers worker place }

@[simp]
theorem workers_moveWorker (pool : ThreadPool Task Body Worker Adder) (worker : Worker)
    (place : WorkerPlace Task Body) :
    (pool.moveWorker worker place).workers = Function.update pool.workers worker place := rfl

@[simp]
theorem adders_moveWorker (pool : ThreadPool Task Body Worker Adder) (worker : Worker)
    (place : WorkerPlace Task Body) : (pool.moveWorker worker place).adders = pool.adders := rfl

@[simp]
theorem poolSem_moveWorker (pool : ThreadPool Task Body Worker Adder) (worker : Worker)
    (place : WorkerPlace Task Body) : (pool.moveWorker worker place).poolSem = pool.poolSem := rfl

end Worker

section Adder

variable [DecidableEq Adder]

def moveAdder (pool : ThreadPool Task Body Worker Adder) (adder : Adder) (place : AdderPlace Task) :
    ThreadPool Task Body Worker Adder :=
  { pool with adders := Function.update pool.adders adder place }

@[simp]
theorem workers_moveAdder (pool : ThreadPool Task Body Worker Adder) (adder : Adder)
    (place : AdderPlace Task) : (pool.moveAdder adder place).workers = pool.workers := rfl

@[simp]
theorem adders_moveAdder (pool : ThreadPool Task Body Worker Adder) (adder : Adder)
    (place : AdderPlace Task) :
    (pool.moveAdder adder place).adders = Function.update pool.adders adder place := rfl

end Adder

variable [DecidableEq Worker] [DecidableEq Adder] [Inhabited Body]

/-- One step of `_thread_task` outside the work. -/
def workerStep (worker : Worker) (pool : ThreadPool Task Body Worker Adder) :
    Option (ThreadPool Task Body Worker Adder) :=
  match pool.workers worker with
  | .semWait =>
      if 0 < pool.poolSem then
        some { pool.moveWorker worker .mutexLock with poolSem := pool.poolSem - 1 }
      else none
  | .mutexLock =>
      if pool.poolLock = none then
        some { pool.moveWorker worker .checkState with poolLock := some (.worker worker) }
      else none
  | .checkState =>
      some (pool.moveWorker worker
        (if pool.threadsStates worker = .terminated then .unlockExit else .checkWork))
  | .checkWork =>
      some (pool.moveWorker worker (if 0 < pool.availableWork then .popFirst else .unlockIdle))
  | .popFirst =>
      (popFirst pool.heap pool.queue).map fun (heap, queue, task) =>
        { pool.moveWorker worker (.takeWork task) with
          heap
          queue
          popped := pool.popped ++ task.toList }
  | .takeWork task =>
      some
        { pool.moveWorker worker (.countBusy task) with availableWork := pool.availableWork - 1 }
  | .countBusy task =>
      some { pool.moveWorker worker (.setBusy task) with busyThreadsNum := pool.busyThreadsNum + 1 }
  | .setBusy task =>
      some
        { pool.moveWorker worker (.unlockBusy task) with
          threadsStates := Function.update pool.threadsStates worker .busy }
  | .unlockBusy task => some { pool.moveWorker worker (.work task default) with poolLock := none }
  | .unlockIdle => some { pool.moveWorker worker .semWait with poolLock := none }
  | .work _ _ => none
  | .relock =>
      if pool.poolLock = none then
        some { pool.moveWorker worker .recheckState with poolLock := some (.worker worker) }
      else none
  | .recheckState =>
      some (pool.moveWorker worker
        (if pool.threadsStates worker = .terminated then .unlockExit else .uncountBusy))
  | .uncountBusy =>
      some { pool.moveWorker worker .setFree with busyThreadsNum := pool.busyThreadsNum - 1 }
  | .setFree =>
      some
        { pool.moveWorker worker .unlockFree with
          threadsStates := Function.update pool.threadsStates worker .free }
  | .unlockFree => some { pool.moveWorker worker .semWait with poolLock := none }
  | .unlockExit => some { pool.moveWorker worker .exited with poolLock := none }
  | .exited => none

/-- `sem_wait` returns without a token, as after a signal. -/
def interrupt (worker : Worker) (pool : ThreadPool Task Body Worker Adder) :
    Option (ThreadPool Task Body Worker Adder) :=
  match pool.workers worker with
  | .semWait => some (pool.moveWorker worker .mutexLock)
  | _ => none

/-- The work goes on. -/
def proceed (worker : Worker) (body : Body) (pool : ThreadPool Task Body Worker Adder) :
    Option (ThreadPool Task Body Worker Adder) :=
  match pool.workers worker with
  | .work task _ => some (pool.moveWorker worker (.work task body))
  | _ => none

def finishWork (worker : Worker) (pool : ThreadPool Task Body Worker Adder) :
    Option (ThreadPool Task Body Worker Adder) :=
  match pool.workers worker with
  | .work _ _ => some (pool.moveWorker worker .relock)
  | _ => none

/-- A call of `add_work` on a pool of static size. -/
def addWork (adder : Adder) (task : Task) (pool : ThreadPool Task Body Worker Adder) :
    Option (ThreadPool Task Body Worker Adder) :=
  match pool.adders adder with
  | .returned _ => some (pool.moveAdder adder (.mutexLock task))
  | _ => none

/-- One step of `add_work`; `newNode` is the address `malloc` returns. -/
def adderStep (adder : Adder) (newNode : Address) (pool : ThreadPool Task Body Worker Adder) :
    Option (ThreadPool Task Body Worker Adder) :=
  match pool.adders adder with
  | .returned _ => none
  | .mutexLock task =>
      if pool.poolLock = none then
        some { pool.moveAdder adder (.pushLast task) with poolLock := some (.adder adder) }
      else none
  | .pushLast task =>
      if pool.heap newNode = none ∧ pool.queue.size < intMax then
        (pushLast pool.heap pool.queue newNode task).map fun (heap, queue) =>
          { pool.moveAdder adder .addWork with heap, queue, added := pool.added ++ [task] }
      else none
  | .addWork =>
      if pool.availableWork < intMax then
        some { pool.moveAdder adder .semPost with availableWork := pool.availableWork + 1 }
      else none
  | .semPost => some { pool.moveAdder adder .unlock with poolSem := semPost pool.poolSem }
  | .unlock => some { pool.moveAdder adder (.returned 0) with poolLock := none }

end ThreadPool

inductive PoolLabel (Task : Type u) (Body : Type v) (Worker Adder : Type) where
  | worker (worker : Worker)
  | interrupt (worker : Worker)
  | proceed (worker : Worker) (body : Body)
  | finishWork (worker : Worker)
  | addWork (adder : Adder) (task : Task)
  | adder (adder : Adder) (newNode : Address)

/-- The pool from `thread_pool_init` on, with whatever count the semaphore already held. -/
def poolSystem (Task : Type u) (Body : Type v) (Worker Adder : Type) [DecidableEq Worker]
    [DecidableEq Adder] [Inhabited Body] :
    Transition.System (ThreadPool Task Body Worker Adder) (PoolLabel Task Body Worker Adder) where
  initial pool := ∃ count ≤ semValueMax, pool = ThreadPool.threadPoolInit count
  step
    | .worker worker => ThreadPool.workerStep worker
    | .interrupt worker => ThreadPool.interrupt worker
    | .proceed worker body => ThreadPool.proceed worker body
    | .finishWork worker => ThreadPool.finishWork worker
    | .addWork adder task => ThreadPool.addWork adder task
    | .adder adder newNode => ThreadPool.adderStep adder newNode

end LetUsConnect
