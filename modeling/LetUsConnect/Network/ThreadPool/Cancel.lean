import LetUsConnect.Connection
import LetUsConnect.Logger.Steps
import LetUsConnect.Network.ThreadPool.Destroy

/-!
# Cancelling the workers

`thread_pool_destroy` with `THREAD_POOL_DESTROY_HARD`, run by `main` among the
workers, and the `logger_destroy` after it. The workers do what `_thread_task`
does with their tasks, action by action; in `logger_log_request` they go
statement by statement.

A thread that was cancelled stops at a cancellation point: `sem_wait`, `recv`,
`send`, `sendfile`, `open`, `write`, `close` and the output of stdio. The call it
is in when it is cancelled may still be completed. Locking and unlocking a mutex
are no cancellation points, nor is `mkdir`.
-/

namespace LetUsConnect

open CString Threads

/-! ## The places -/

/-- The places of the work on a task. -/
inductive WorkPlace where
  | recv
  /-- Before the first of the actions; the descriptor may have to be closed after them. -/
  | act (actions : List Action) (closes : Bool)
  /-- In `logger_log_request`, with what comes after it. -/
  | logging (actions : List Action) (closes : Bool)

instance : Inhabited WorkPlace := ⟨.recv⟩

/-- The threads that use the logger. -/
inductive LoggingThread (Worker : Type) where
  | worker (worker : Worker)
  | main
  deriving DecidableEq

/-- The places of `main`: while the pool works, in `thread_pool_destroy` and after it. -/
inductive HardPlace where
  | serving
  | cancel (index : ℕ)
  | join (index : ℕ)
  | freeState (index : ℕ)
  | semClose
  | freeLock
  | returned
  | loggerDestroy
  | loggerDestroyed
  deriving DecidableEq

/-- The cancellation of a thread. -/
inductive Cancellation where
  | none
  /-- Requested in a cancellation point, which the thread may still complete. -/
  | atCurrent
  /-- The thread goes on to its next cancellation point. -/
  | atNext
  | stopped
  deriving DecidableEq

/-- Whether the action makes a call that is a cancellation point. -/
def Action.isCancellationPoint : Action → Bool
  | .sendHead _ len | .sendBody _ len => 0 < len
  | .sendFile _ _ _ size => 0 < toInt size
  | .openFile _ _ | .write _ _ _ | .closeFile _ | .printf _ => true
  | .mkdir _ | .logRequest _ _ _ _ _ => false

/-- The calls of stdio in the logger. -/
def LoggerPlace.isCancellationPoint : LoggerPlace → Bool
  | .logFprintf _ _ | .logFflush => true
  | _ => false

/-- The places of `main` at which the pool still exists. -/
def HardPlace.poolExists : HardPlace → Bool
  | .returned | .loggerDestroy | .loggerDestroyed => false
  | _ => true

/-! ## The state -/

structure HardShutdown (Task : Type) (size : PoolSize) (Adder File : Type) where
  pool : ThreadPool Task WorkPlace size.Worker Adder
  logger : LoggerState (LoggingThread size.Worker) File
  cancelled : size.Worker → Cancellation
  place : HardPlace

inductive HardShutdownLabel (Task : Type) (size : PoolSize) (Adder File : Type) where
  | worker (worker : size.Worker)
  | interrupt (worker : size.Worker)
  | recv (worker : size.Worker) (conn : ClientConnection) (arrival : Arrival)
  | act (worker : size.Worker)
  | logging (worker : size.Worker) (answer : LibraryAnswer File)
  | finishWork (worker : size.Worker)
  | addWork (adder : Adder) (task : Task)
  | adder (adder : Adder) (newNode : Address)
  /-- A cancelled worker stops. -/
  | stop (worker : size.Worker)
  | main (answer : LibraryAnswer File)

namespace HardShutdown

variable {Task : Type} {size : PoolSize} {Adder File : Type}

/-- After `thread_pool_init`, with the logger as `main` has left it. -/
def begin (count : ℕ) (logger : LoggerState (LoggingThread size.Worker) File) :
    HardShutdown Task size Adder File where
  pool := ThreadPool.threadPoolInit count
  logger
  cancelled := fun _ => .none
  place := .serving

def goto (state : HardShutdown Task size Adder File) (place : HardPlace) :
    HardShutdown Task size Adder File :=
  { state with place }

/-- Whether the next call of the worker is a cancellation point. -/
def atCancellationPoint (state : HardShutdown Task size Adder File) (worker : size.Worker) : Bool :=
  match state.pool.workers worker with
  | .semWait => true
  | .work (some _) .recv => true
  | .work (some _) (.act (action :: _) _) => action.isCancellationPoint
  -- `close(client_fd)`
  | .work (some _) (.act [] closes) => closes
  | .work (some _) (.logging _ _) => (state.logger.places (.worker worker)).isCancellationPoint
  | _ => false

/-- `pthread_cancel`. -/
def pthreadCancel (state : HardShutdown Task size Adder File) (worker : size.Worker) :
    HardShutdown Task size Adder File :=
  { state with
    cancelled := Function.update state.cancelled worker
      (match state.cancelled worker with
        | .none => if state.atCancellationPoint worker then .atCurrent else .atNext
        | requested => requested) }

/-- The worker stops for good. -/
def stop (worker : size.Worker) (state : HardShutdown Task size Adder File) :
    Option (HardShutdown Task size Adder File) :=
  if state.atCancellationPoint worker ∧
      (state.cancelled worker = .atCurrent ∨ state.cancelled worker = .atNext) then
    some { state with cancelled := Function.update state.cancelled worker .stopped }
  else none

/-- Whether the worker may complete its next call. -/
def mayGoOn (state : HardShutdown Task size Adder File) (worker : size.Worker) : Bool :=
  match state.cancelled worker with
  | .none | .atCurrent => true
  | .atNext => !state.atCancellationPoint worker
  | .stopped => false

/-- A step of a worker; a call that was still completed was the last one. -/
def workerMoves (worker : size.Worker) (state : HardShutdown Task size Adder File)
    (after : Option (HardShutdown Task size Adder File)) :
    Option (HardShutdown Task size Adder File) :=
  if state.mayGoOn worker then
    after.map fun after =>
      { after with
        cancelled := Function.update state.cancelled worker
          (if state.cancelled worker = .atCurrent then .atNext else state.cancelled worker) }
  else none

variable [DecidableEq Adder] [DecidableEq File]

/-- A step of the pool. -/
def ofPool (state : HardShutdown Task size Adder File)
    (after : Option (ThreadPool Task WorkPlace size.Worker Adder)) :
    Option (HardShutdown Task size Adder File) :=
  after.map fun pool => { state with pool }

/-- `recv` and everything up to the first action. -/
def recvStep (routes : Dictionary RouteHandler) (worker : size.Worker) (conn : ClientConnection)
    (arrival : Arrival) (state : HardShutdown Task size Adder File) :
    Option (HardShutdown Task size Adder File) :=
  match state.pool.workers worker with
  | .work (some _) .recv =>
      (threadTask routes arrival.env arrival.now conn arrival.result).bind fun outcome =>
        state.ofPool (state.pool.proceed worker (.act outcome.actions outcome.closed))
  | _ => none

/-- One action of the work, or the call of `logger_log_request`. -/
def actStep (worker : size.Worker) (state : HardShutdown Task size Adder File) :
    Option (HardShutdown Task size Adder File) :=
  match state.pool.workers worker with
  | .work (some _) (.act (.logRequest clientIp method path statusCode host :: rest) closes) =>
      (state.logger.call (.worker worker)
        (.logLock ⟨some clientIp, method, path, statusCode, host⟩)).bind fun logger =>
          { state with logger }.ofPool (state.pool.proceed worker (.logging rest closes))
  | .work (some _) (.act (_ :: rest) closes) =>
      state.ofPool (state.pool.proceed worker (.act rest closes))
  | .work (some _) (.act [] true) => state.ofPool (state.pool.proceed worker (.act [] false))
  | _ => none

/-- One statement of `logger_log_request`, or the return from it. -/
def loggingStep (worker : size.Worker) (answer : LibraryAnswer File)
    (state : HardShutdown Task size Adder File) : Option (HardShutdown Task size Adder File) :=
  match state.pool.workers worker with
  | .work (some _) (.logging rest closes) =>
      match state.logger.places (.worker worker) with
      | .returned _ => state.ofPool (state.pool.proceed worker (.act rest closes))
      | _ => (state.logger.threadStep (.worker worker) answer).map fun logger =>
          { state with logger }
  | _ => none

/-- The work is done, or the task is `NULL`. -/
def finishWork (worker : size.Worker) (state : HardShutdown Task size Adder File) :
    Option (HardShutdown Task size Adder File) :=
  match state.pool.workers worker with
  | .work (some _) (.act [] false) | .work none _ => state.ofPool (state.pool.finishWork worker)
  | _ => none

/-- One step of `thread_pool_destroy` by `main`, or of `logger_destroy` after it. -/
def mainStep (answer : LibraryAnswer File) (state : HardShutdown Task size Adder File) :
    Option (HardShutdown Task size Adder File) :=
  match state.place with
  | .serving => some (state.goto (.cancel 0))
  | .cancel index =>
      match size.workerAt index with
      | some worker => some ((state.pthreadCancel worker).goto (.cancel (index + 1)))
      | none => some (state.goto (.join 0))
  | .join index =>
      match size.workerAt index with
      | some worker =>
          if state.cancelled worker = .stopped ∨ (state.pool.workers worker).hasExited then
            some (state.goto (.freeState index))
          else none
      | none => some (state.goto .semClose)
  | .freeState index => some (state.goto (.join (index + 1)))
  | .semClose => some (state.goto .freeLock)
  | .freeLock => some (state.goto .returned)
  | .returned =>
      (state.logger.call .main .destroyLock).map fun logger =>
        { state.goto .loggerDestroy with logger }
  | .loggerDestroy =>
      match state.logger.places .main with
      | .returned _ => some (state.goto .loggerDestroyed)
      | _ => (state.logger.threadStep .main answer).map fun logger => { state with logger }
  | .loggerDestroyed => none

end HardShutdown

/--
The pool with these routes until it is destroyed. Other threads may add work as
long as the pool exists.
-/
def hardShutdownSystem (Task : Type) (size : PoolSize) (Adder File : Type) [DecidableEq Adder]
    [DecidableEq File] (routes : Dictionary RouteHandler) (contents : Option File → Bytes) :
    Transition.System (HardShutdown Task size Adder File)
      (HardShutdownLabel Task size Adder File) where
  initial state := ∃ count ≤ semValueMax,
    ∃ logger : LoggerState (LoggingThread size.Worker) File,
      (loggerSystem (LoggingThread size.Worker) File contents).Reachable logger ∧
        (∀ thread, ∃ result, logger.places thread = .returned result) ∧
          state = HardShutdown.begin count logger
  step
    | .worker worker => fun state =>
        state.workerMoves worker (state.ofPool (state.pool.workerStep worker))
    | .interrupt worker => fun state =>
        state.workerMoves worker (state.ofPool (state.pool.interrupt worker))
    | .recv worker conn arrival => fun state =>
        state.workerMoves worker (state.recvStep routes worker conn arrival)
    | .act worker => fun state => state.workerMoves worker (state.actStep worker)
    | .logging worker answer => fun state =>
        state.workerMoves worker (state.loggingStep worker answer)
    | .finishWork worker => fun state => state.workerMoves worker (state.finishWork worker)
    | .addWork adder task => fun state =>
        if state.place.poolExists then state.ofPool (state.pool.addWork adder task) else none
    | .adder adder newNode => fun state =>
        if state.place.poolExists then state.ofPool (state.pool.adderStep adder newNode) else none
    | .stop worker => HardShutdown.stop worker
    | .main answer => HardShutdown.mainStep answer

end LetUsConnect
