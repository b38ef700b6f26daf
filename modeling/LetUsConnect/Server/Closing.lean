import LetUsConnect.Network.ThreadPool.Drop
import LetUsConnect.Server.Answering
import LetUsConnect.Server.Conservation
import LetUsConnect.Server.Progress

/-!
# The server is shut down

`main` after `network_run_server` has returned: it closes the listening socket and
destroys the pool while the workers go on with the tasks they have and take those
that are still queued.

The workers do not notice. What they do for the connections they could have done in
a server that goes on, whose workers that have exited just sleep.
-/

namespace LetUsConnect

open Threads

/-- `network_shutdown`. -/
def ServerState.networkShutdown {Worker : Type} (serverFd : ℕ) (state : ServerState Worker) :
    ServerState Worker :=
  { state with descriptors := Function.update state.descriptors serverFd none }

/-- The server while `main` is in `thread_pool_destroy` or after it. -/
structure ClosingServer (size : PoolSize) where
  server : ServerState size.Worker
  place : DestroyPlace
  freed : PoolResource size.Worker → Bool
  completed : List ClientTask

inductive ClosingLabel (size : PoolSize) where
  | task (worker : size.Worker) (arrival : Arrival)
  | finishWork (worker : size.Worker)
  | worker (worker : size.Worker)
  | interrupt (worker : size.Worker)
  | spin
  | destroy

namespace ClosingLabel

variable {size : PoolSize}

/-- A step that brings the end closer: not the waiting and not a signal. -/
def advances : ClosingLabel size → Bool
  | .task _ _ | .finishWork _ | .worker _ | .destroy => true
  | _ => false

def interrupts : ClosingLabel size → Bool
  | .interrupt _ => true
  | _ => false

end ClosingLabel

namespace ClosingServer

variable {size : PoolSize}

/-- The call of `thread_pool_destroy`. -/
def begin (server : ServerState size.Worker) : ClosingServer size where
  server
  place := .waitWork
  freed := fun _ => false
  completed := []

/-- The pool and its destruction. -/
def shutdown (state : ClosingServer size) : Shutdown ClientTask TaskPlace size Unit where
  pool := state.server.pool
  place := state.place
  freed := state.freed
  completed := state.completed

/-- A step that concerns the pool only. -/
def ofShutdown (state : ClosingServer size) (label : ShutdownLabel TaskPlace size) :
    Option (ClosingServer size) :=
  ((shutdownSystem ClientTask TaskPlace size Unit ()).step label state.shutdown).map fun after =>
    { server := { state.server with pool := after.pool }
      place := after.place
      freed := after.freed
      completed := after.completed }

/-- A worker leaves its work under the same conditions as before. -/
def finishWork (worker : size.Worker) (state : ClosingServer size) : Option (ClosingServer size) :=
  if (state.server.finishWork worker).isSome then state.ofShutdown (.finishWork worker) else none

end ClosingServer

/-- The server from `network_shutdown` on. -/
def closingSystem (size : PoolSize) (routes : Dictionary RouteHandler) (serverFd : ℕ) :
    Transition.System (ClosingServer size) (ClosingLabel size) where
  initial state := ∃ server, (serverSystem size.Worker routes serverFd).Reachable server ∧
    server.reactor = .stopped ∧ state = .begin (server.networkShutdown serverFd)
  step
    | .task worker arrival => fun state =>
        (state.server.taskStep routes worker arrival).map fun server => { state with server }
    | .finishWork worker => ClosingServer.finishWork worker
    | .worker worker => fun state => state.ofShutdown (.worker worker)
    | .interrupt worker => fun state => state.ofShutdown (.interrupt worker)
    | .spin => fun state => state.ofShutdown .spin
    | .destroy => fun state => state.ofShutdown .destroy

/-! ## What the workers do for the connections -/

namespace ServerState

section Mirror

variable {Worker : Type} [Fintype Worker] {state after : ServerState Worker}
  {serverFd : ℕ} {worker : Worker} {task : ClientTask} {place : TaskPlace}
  {routes : Dictionary RouteHandler}

/-- The same connections after `network_shutdown`, served by another pool. -/
def closingWith (state : ServerState Worker) (serverFd : ℕ)
    (pool : ThreadPool ClientTask TaskPlace Worker Unit) : ServerState Worker :=
  { state.networkShutdown serverFd with pool }

/-- The descriptor of a task is not the one that was closed. -/
theorem Owned.named_closingWith (owned : state.Owned serverFd)
    (at_ : state.pool.workers worker = .work (some task) place) (working : place ≠ .done)
    (open_ : place ≠ .deactivate) (pool : ThreadPool ClientTask TaskPlace Worker Unit) :
    task.clientFd ≠ serverFd ∧
      (state.closingWith serverFd pool).descriptors task.clientFd =
        some (.client task.connection) := by
  have named := (owned.named_of_hand (inHand_of_work at_ working) (by simpa [at_] using open_)).1
  have differs : task.clientFd ≠ serverFd := by
    intro same
    rw [same, owned.ledger.listening] at named
    cases named
  exact ⟨differs, (Function.update_of_ne differs _ _).trans named⟩

variable [DecidableEq Worker]

/-- A worker goes on with its task as it would in a server that is not shut down. -/
theorem Owned.taskStep_closingWith (owned : state.Owned serverFd)
    {pool : ThreadPool ClientTask TaskPlace Worker Unit}
    (workers : pool.workers worker = state.pool.workers worker) (arrival : Arrival) :
    (state.closingWith serverFd pool).taskStep routes worker arrival =
      (state.taskStep routes worker arrival).map fun after =>
        after.closingWith serverFd (pool.moveWorker worker (after.pool.workers worker)) := by
  have sameWorkers : (state.closingWith serverFd pool).pool.workers worker =
      state.pool.workers worker := workers
  cases at_ : state.pool.workers worker with
  | work held place =>
      cases held with
      | none => simp only [ServerState.taskStep, sameWorkers, at_, Option.map_none]
      | some task =>
          simp only [ServerState.taskStep, sameWorkers, at_]
          cases place
          case recv =>
            have named := (owned.named_of_hand (inHand_of_work at_ (by simp)) (by simp [at_])).1
            have closing := (owned.named_closingWith at_ (by simp) (by simp) pool).2
            cases arrival.result with
            | received piece =>
                cases piece with
                | nil => simp only [ServerState.recvStep, named, closing, Option.map_none]
                | cons byte piece =>
                    simp only [ServerState.recvStep, named, closing, Option.map_map]
                    refine congrFun (congrArg Option.map (funext fun buffer => ?_)) _
                    simp [closingWith, networkShutdown, ServerState.proceed, setConn]
            | wouldBlock | ended | failed =>
                simp only [ServerState.recvStep, named, closing, Option.map_some]
                simp [closingWith, networkShutdown, ServerState.proceed]
          case advance bytesRead =>
            simp only [Option.map_map]
            refine congrFun (congrArg Option.map (funext fun buffer => ?_)) _
            simp [closingWith, networkShutdown, ServerState.proceed, setConn]
          case close =>
            have differs := (owned.named_closingWith at_ (by simp) (by simp) pool).1
            simp [closingWith, networkShutdown, ServerState.proceed, closeFd,
              Function.update_comm differs]
          case frame =>
            simp [closingWith, networkShutdown, ServerState.proceed]
            rfl
          case done => rfl
          all_goals simp [closingWith, networkShutdown, ServerState.proceed, setConn]
  | _ => simp only [ServerState.taskStep, sameWorkers, at_, Option.map_none]

end Mirror

end ServerState

/-! ## A server that goes on -/

namespace WorkerPlace

variable {Task Body : Type} {place : WorkerPlace Task Body}

/-- The worker has no task and does no work. -/
structure Unoccupied (place : WorkerPlace Task Body) : Prop where
  held : place.held = none
  body : place.body = none

/-- Once the workers are told to exit, one that takes a step outside its work gets no task. -/
theorem unoccupied_of_stops {Worker Adder : Type} [DecidableEq Worker] [DecidableEq Adder]
    [Inhabited Body] {pool after : ThreadPool Task Body Worker Adder} {worker : Worker}
    (stops : (pool.workers worker).stops) (taken : pool.workerStep worker = some after) :
    (pool.workers worker).Unoccupied ∧
      ∃ next, after.workers = Function.update pool.workers worker next ∧ next.Unoccupied := by
  cases at_ : pool.workers worker <;> rw [at_] at stops <;> try cases stops
  all_goals simp only [ThreadPool.workerStep, at_] at taken
  case semWait | mutexLock | relock =>
    split_ifs at taken
    cases taken
    exact ⟨⟨rfl, rfl⟩, _, rfl, rfl, rfl⟩
  case checkState | recheckState =>
    cases taken
    refine ⟨⟨rfl, rfl⟩, _, rfl, ?_, ?_⟩ <;> split_ifs <;> rfl
  case unlockExit =>
    cases taken
    exact ⟨⟨rfl, rfl⟩, _, rfl, rfl, rfl⟩
  case work | exited => cases taken

end WorkerPlace

namespace ClosingServer

open ServerState

variable {size : PoolSize} {routes : Dictionary RouteHandler} {serverFd : ℕ}
  {state after : ClosingServer size} {running : ServerState size.Worker} {worker : size.Worker}

/-- The server is what a running one, whose reactor has left its loop, is for its connections. -/
structure Mirrors (serverFd : ℕ) (state : ClosingServer size)
    (running : ServerState size.Worker) : Prop where
  stopped : running.reactor = .stopped
  server : state.server = running.closingWith serverFd state.server.pool
  same : state.place.isOpen → state.server.pool = running.pool
  emptied : state.place.isOpen = false → running.pool.queued = []
  /-- A worker that has been told to exit has no task in the running server either. -/
  workers : ∀ worker, state.server.pool.workers worker = running.pool.workers worker ∨
    (state.server.pool.workers worker).Unoccupied ∧ (running.pool.workers worker).Unoccupied

theorem Mirrors.workers_eq (mirrors : state.Mirrors serverFd running) {task : Option ClientTask}
    {place : TaskPlace} (at_ : state.server.pool.workers worker = .work task place) :
    running.pool.workers worker = .work task place := by
  rcases mirrors.workers worker with same | ⟨unoccupied, -⟩
  · rw [← same, at_]
  · rw [at_] at unoccupied
    cases unoccupied.body

/-- Both servers move a worker in the same way. -/
theorem Mirrors.moveWorker (mirrors : state.Mirrors serverFd running)
    {runningAfter : ServerState size.Worker} {place : WorkerPlace ClientTask TaskPlace}
    (stopped : runningAfter.reactor = running.reactor)
    (pool : runningAfter.pool = running.pool.moveWorker worker place)
    (server : after.server =
      runningAfter.closingWith serverFd (state.server.pool.moveWorker worker place))
    (samePlace : after.place = state.place) : after.Mirrors serverFd runningAfter := by
  have poolAfter : after.server.pool = state.server.pool.moveWorker worker place := by
    rw [server]
    rfl
  refine ⟨stopped.trans mirrors.stopped, by rw [poolAfter, server], ?_, ?_, ?_⟩
  · rw [samePlace, poolAfter, pool]
    exact fun isOpen => by rw [mirrors.same isOpen]
  · rw [samePlace, pool, ThreadPool.queued_moveWorker]
    exact mirrors.emptied
  · intro other
    rw [poolAfter, pool, ThreadPool.workers_moveWorker, ThreadPool.workers_moveWorker]
    by_cases isWorker : other = worker
    · rw [isWorker, Function.update_self, Function.update_self]
      exact Or.inl rfl
    · rw [Function.update_of_ne isWorker, Function.update_of_ne isWorker]
      exact mirrors.workers other

/-- As long as the pool is open both servers have the same pool. -/
theorem Mirrors.withPool (mirrors : state.Mirrors serverFd running) (isOpen : state.place.isOpen)
    (pool : ThreadPool ClientTask TaskPlace size.Worker Unit) :
    Mirrors serverFd { state with server := { state.server with pool } }
      { running with pool } := by
  refine ⟨mirrors.stopped, ?_, fun _ => rfl, fun closed => ?_, fun _ => Or.inl rfl⟩
  · change { state.server with pool } = { running.networkShutdown serverFd with pool }
    rw [mirrors.server]
    rfl
  · rw [isOpen] at closed
    cases closed

/-- A worker on its way to the exit takes a step; in the running server it stays. -/
theorem Mirrors.leaves (mirrors : state.Mirrors serverFd running)
    {pool : ThreadPool ClientTask TaskPlace size.Worker Unit}
    {place : WorkerPlace ClientTask TaskPlace} (closed : state.place.isOpen = false)
    (workers : pool.workers = Function.update state.server.pool.workers worker place)
    (before : (state.server.pool.workers worker).Unoccupied) (afterwards : place.Unoccupied) :
    Mirrors serverFd { state with server := { state.server with pool } } running := by
  refine ⟨mirrors.stopped, ?_, fun isOpen => ?_, fun _ => mirrors.emptied closed, fun other => ?_⟩
  · change { state.server with pool } = { running.networkShutdown serverFd with pool }
    rw [mirrors.server]
    rfl
  · rw [closed] at isOpen
    cases isOpen
  · change pool.workers other = _ ∨ (pool.workers other).Unoccupied ∧ _
    rw [workers]
    by_cases isWorker : other = worker
    · rw [isWorker, Function.update_self]
      refine Or.inr ⟨afterwards, ?_⟩
      rcases mirrors.workers worker with same | ⟨-, unoccupied⟩
      · exact same ▸ before
      · exact unoccupied
    · rw [Function.update_of_ne isWorker]
      exact mirrors.workers other

/-! ### Every step -/

theorem ofShutdown_cases {label : ShutdownLabel TaskPlace size}
    (taken : state.ofShutdown label = some after) :
    (shutdownSystem ClientTask TaskPlace size Unit ()).step label state.shutdown =
        some after.shutdown ∧
      after.server = { state.server with pool := after.server.pool } := by
  rcases Option.map_eq_some_iff.mp taken with ⟨shutdownAfter, moved, rfl⟩
  exact ⟨moved, rfl⟩

theorem finishWork_cases (taken : state.finishWork worker = some after) :
    (∃ task place, state.server.pool.workers worker = .work task place ∧
        (task = none ∨ place = .done)) ∧ state.ofShutdown (.finishWork worker) = some after := by
  rw [ClosingServer.finishWork] at taken
  split_ifs at taken with finishes
  refine ⟨?_, taken⟩
  unfold ServerState.finishWork at finishes
  split at finishes
  · exact ⟨_, _, ‹_›, Or.inr rfl⟩
  · exact ⟨_, _, ‹_›, Or.inl rfl⟩
  · cases finishes

/-- Every step is one of the destruction of the pool. -/
theorem shutdown_step {label : ClosingLabel size}
    (taken : (closingSystem size routes serverFd).step label state = some after) :
    ∃ move, (shutdownSystem ClientTask TaskPlace size Unit ()).step move state.shutdown =
      some after.shutdown := by
  cases label with
  | task worker arrival =>
      rcases Option.map_eq_some_iff.mp taken with ⟨server, moved, rfl⟩
      rcases taskStep_pool moved with ⟨task, place, placeAfter, at_, pool⟩
      refine ⟨.proceed worker placeAfter, ?_⟩
      change state.shutdown.ofPool (state.server.pool.proceed worker placeAfter) = _
      simp only [ThreadPool.proceed, at_, Shutdown.ofPool, Option.map_some, shutdown, pool]
  | finishWork worker => exact ⟨_, (ofShutdown_cases (finishWork_cases taken).2).1⟩
  | worker worker => exact ⟨_, (ofShutdown_cases taken).1⟩
  | interrupt worker => exact ⟨_, (ofShutdown_cases taken).1⟩
  | spin => exact ⟨_, (ofShutdown_cases taken).1⟩
  | destroy => exact ⟨_, (ofShutdown_cases taken).1⟩

/-- When the reactor has left its loop nobody is inside `add_work`. -/
theorem quiet_of_stopped (reached : (serverSystem size.Worker routes serverFd).Reachable running)
    (stopped : running.reactor = .stopped) (adder : Unit) :
    ∃ result, running.pool.adders adder = .returned result :=
  returned_of_reachable reached (by rw [stopped]; rfl)

theorem shutdown_reachable (reached : (closingSystem size routes serverFd).Reachable state) :
    (shutdownSystem ClientTask TaskPlace size Unit ()).Reachable state.shutdown := by
  refine Transition.System.Reachable.project shutdown ?_ ?_ reached
  · rintro state ⟨server, serverReached, stopped, rfl⟩
    exact ⟨server.pool, pool_reachable serverReached, quiet_of_stopped serverReached stopped, rfl⟩
  · intro state label after taken
    exact Or.inr (shutdown_step taken)

theorem orderly_of_reachable (reached : (closingSystem size routes serverFd).Reachable state) :
    state.shutdown.Orderly () :=
  Shutdown.orderly_of_reachable (shutdown_reachable reached)

theorem Mirrors.task (mirrors : state.Mirrors serverFd running)
    (owned : running.Owned serverFd) {arrival : Arrival} {server : ServerState size.Worker}
    (taken : state.server.taskStep routes worker arrival = some server) :
    ∃ runningAfter, running.taskStep routes worker arrival = some runningAfter ∧
      Mirrors serverFd { state with server } runningAfter := by
  rcases taskStep_pool taken with ⟨task, place, -, at_, -⟩
  have sameWorker := at_.trans (mirrors.workers_eq at_).symm
  rw [mirrors.server, owned.taskStep_closingWith sameWorker] at taken
  rcases Option.map_eq_some_iff.mp taken with ⟨runningAfter, moved, rfl⟩
  refine ⟨runningAfter, moved, ?_⟩
  rcases taskStep_pool moved with ⟨task', place', placeAfter, -, pool⟩
  have isStep : (serverSystem size.Worker routes serverFd).step (.task worker arrival) running =
      some runningAfter := moved
  refine mirrors.moveWorker (reactor_of_step rfl isStep) pool ?_ rfl
  rw [pool, ThreadPool.workers_moveWorker, Function.update_self]

theorem Mirrors.finishWork (mirrors : state.Mirrors serverFd running)
    (taken : state.finishWork worker = some after) :
    ∃ runningAfter, running.finishWork worker = some runningAfter ∧
      after.Mirrors serverFd runningAfter := by
  rcases finishWork_cases taken with ⟨⟨task, place, at_, ends⟩, finished⟩
  rcases Option.map_eq_some_iff.mp finished with ⟨shutdownAfter, moved, rfl⟩
  have runningAt := mirrors.workers_eq at_
  rcases Option.map_eq_some_iff.mp moved with ⟨pool, poolMoved, rfl⟩
  change state.server.pool.finishWork worker = some pool at poolMoved
  simp only [ThreadPool.finishWork, at_, Option.some.injEq] at poolMoved
  subst poolMoved
  refine ⟨{ running with pool := running.pool.moveWorker worker .relock }, ?_, ?_⟩
  · rcases ends with rfl | rfl
    · simp only [ServerState.finishWork, runningAt, ThreadPool.finishWork, Option.map_some]
    · cases task <;>
        simp only [ServerState.finishWork, runningAt, ThreadPool.finishWork, Option.map_some]
  · refine mirrors.moveWorker rfl rfl ?_ rfl
    conv_lhs => rw [mirrors.server]
    rfl

/-- A step of a worker outside its work. -/
theorem Mirrors.poolStep (mirrors : state.Mirrors serverFd running)
    (orderly : state.shutdown.Orderly ()) {label : ShutdownLabel TaskPlace size}
    (isPool : label = .worker worker ∨ label = .interrupt worker)
    (taken : state.ofShutdown label = some after) :
    ∃ runningAfter, (runningAfter = running ∨
        ∃ move, (serverSystem size.Worker routes serverFd).step move running = some runningAfter) ∧
      after.Mirrors serverFd runningAfter := by
  rcases Option.map_eq_some_iff.mp taken with ⟨shutdownAfter, moved, rfl⟩
  cases isOpen : state.place.isOpen
  · refine ⟨running, Or.inl rfl, ?_⟩
    have stops := orderly.stops isOpen worker
    rcases isPool with rfl | rfl <;>
      rcases Option.map_eq_some_iff.mp moved with ⟨pool, poolMoved, rfl⟩
    · rcases WorkerPlace.unoccupied_of_stops stops poolMoved with ⟨before, next, workers, free⟩
      exact mirrors.leaves isOpen workers before free
    · rcases ThreadPool.interrupt_cases poolMoved with ⟨at_, rfl⟩
      have before : (state.server.pool.workers worker).Unoccupied := by
        rw [show state.server.pool.workers worker = _ from at_]
        exact ⟨rfl, rfl⟩
      exact mirrors.leaves isOpen rfl before ⟨rfl, rfl⟩
  · have same := mirrors.same isOpen
    rcases isPool with rfl | rfl <;>
      rcases Option.map_eq_some_iff.mp moved with ⟨pool, poolMoved, rfl⟩
    · refine ⟨{ running with pool }, Or.inr ⟨.worker worker, ?_⟩, mirrors.withPool isOpen pool⟩
      change (running.pool.workerStep worker).map _ = _
      rw [← same, show state.server.pool.workerStep worker = _ from poolMoved]
      rfl
    · refine ⟨{ running with pool }, Or.inr ⟨.interrupt worker, ?_⟩, mirrors.withPool isOpen pool⟩
      change (running.pool.interrupt worker).map _ = _
      rw [← same, show state.server.pool.interrupt worker = _ from poolMoved]
      rfl

/-- While the pool is open `thread_pool_destroy` leaves it as it is. -/
theorem pool_of_destroyStep {before next : Shutdown ClientTask TaskPlace size Unit}
    (taken : before.destroyStep () = some next) (isOpen : next.place.isOpen) :
    before.place.isOpen ∧ next.pool = before.pool := by
  cases wasOpen : before.place.isOpen
  · rw [Shutdown.closed_of_destroyStep wasOpen taken] at isOpen
    cases isOpen
  · refine ⟨rfl, ?_⟩
    cases at_ : before.place <;> rw [at_] at wasOpen <;> try cases wasOpen
    all_goals
      simp only [Shutdown.destroyStep, at_] at taken
      split_ifs at taken
      cases taken
      first | rfl | cases isOpen

theorem Mirrors.destroy (mirrors : state.Mirrors serverFd running)
    (orderly : after.shutdown.Orderly ()) (taken : state.ofShutdown .destroy = some after) :
    after.Mirrors serverFd running := by
  rcases ofShutdown_cases taken with ⟨destroyed, server⟩
  have frame := Shutdown.destroyStep_frame destroyed
  have workers : after.server.pool.workers = state.server.pool.workers := frame.1
  refine ⟨mirrors.stopped, ?_, ?_, ?_, ?_⟩
  · rw [server, mirrors.server]
    rfl
  · intro isOpen
    rcases pool_of_destroyStep destroyed isOpen with ⟨wasOpen, samePool⟩
    exact samePool.trans (mirrors.same wasOpen)
  · intro closed
    cases wasOpen : state.place.isOpen
    · exact mirrors.emptied wasOpen
    · rw [← mirrors.same wasOpen]
      exact frame.2.1.symm.trans (orderly.emptied closed)
  · rw [workers]
    exact mirrors.workers

/-- Whatever is done while the server is shut down could be done in a running server. -/
theorem mirrors_of_reachable (reached : (closingSystem size routes serverFd).Reachable state) :
    ∃ running, (serverSystem size.Worker routes serverFd).Reachable running ∧
      state.Mirrors serverFd running := by
  refine @Transition.System.Reachable.exists_related _ _ _ _ _ _
    (fun state => state.shutdown.Orderly ()) (Mirrors serverFd)
    (fun _ => orderly_of_reachable) ?_ ?_ _ reached
  · rintro state ⟨server, serverReached, stopped, rfl⟩
    exact ⟨server, serverReached, stopped, rfl, fun _ => rfl, nofun, fun _ => Or.inl rfl⟩
  · intro state label after running orderly orderlyAfter runningReached mirrors taken
    cases label with
    | task worker arrival =>
        rcases Option.map_eq_some_iff.mp taken with ⟨server, moved, rfl⟩
        rcases mirrors.task (owned_of_reachable runningReached) moved with
          ⟨runningAfter, runningMoved, mirrorsAfter⟩
        exact ⟨runningAfter, Or.inr ⟨.task worker arrival, runningMoved⟩, mirrorsAfter⟩
    | finishWork worker =>
        rcases mirrors.finishWork taken with ⟨runningAfter, runningMoved, mirrorsAfter⟩
        exact ⟨runningAfter, Or.inr ⟨.finishWork worker, runningMoved⟩, mirrorsAfter⟩
    | worker worker => exact mirrors.poolStep orderly (Or.inl rfl) taken
    | interrupt worker => exact mirrors.poolStep orderly (Or.inr rfl) taken
    | destroy => exact ⟨running, Or.inl rfl, mirrors.destroy orderlyAfter taken⟩
    | spin =>
        refine ⟨running, Or.inl rfl, ?_⟩
        rcases Option.map_eq_some_iff.mp taken with ⟨shutdownAfter, spun, rfl⟩
        change state.shutdown.spin = some shutdownAfter at spun
        rw [Shutdown.spin] at spun
        split_ifs at spun
        cases spun
        exact mirrors

/-! ## The way to the end -/

/-- How much is left to do, the work on the tasks included. -/
def remaining (state : ClosingServer size) : ℕ :=
  12 * state.shutdown.remaining + total workRemaining state.server.pool.workers

theorem workRemaining_ofShutdown {label : ShutdownLabel TaskPlace size}
    (taken : state.ofShutdown label = some after) :
    total workRemaining after.server.pool.workers ≤
      total workRemaining state.server.pool.workers + 11 := by
  have moves : after.server.pool.workers = state.server.pool.workers ∨ ∃ worker place,
      after.server.pool.workers = Function.update state.server.pool.workers worker place := by
    rcases Shutdown.pool_of_step (ofShutdown_cases taken).1 with ⟨-, same⟩ | ⟨-, destroyed⟩ |
      ⟨move, worker, isMover, moved, -, -⟩
    · exact Or.inl (congrArg (fun shutdown => shutdown.pool.workers) same)
    · exact Or.inl (Shutdown.destroyStep_frame destroyed).1
    · rcases ThreadPool.moves_of_step isMover moved with ⟨place, moves⟩
      exact Or.inr ⟨worker, place, moves.workers⟩
  rcases moves with same | ⟨worker, place, workers⟩
  · rw [same]
    exact Nat.le_add_right _ _
  · have counted := total_update workRemaining state.server.pool.workers worker place
    have most := workRemaining_le place
    rw [workers]
    omega

theorem remaining_step {label : ClosingLabel size}
    (taken : (closingSystem size routes serverFd).step label state = some after) :
    after.remaining + label.advances.toNat ≤ state.remaining + 168 * label.interrupts.toNat := by
  have ofShutdown : ∀ move, move.works → move.interrupts = false →
      state.ofShutdown move = some after → after.remaining + 1 ≤ state.remaining := by
    intro move works quiet moved
    have less := Shutdown.remaining_step (ofShutdown_cases moved).1
    have work := workRemaining_ofShutdown moved
    rw [works, quiet, Bool.toNat_true, Bool.toNat_false] at less
    simp only [remaining]
    omega
  cases label with
  | task worker arrival =>
      rcases Option.map_eq_some_iff.mp taken with ⟨server, worked, rfl⟩
      have less := remaining_taskStep worked
      rcases taskStep_pool worked with ⟨task, place, placeAfter, at_, pool⟩
      have counted := total_update WorkerPlace.remaining state.server.pool.workers worker
        (.work (some task) placeAfter)
      have same := ThreadPool.remaining_moveWorker worker (.work (some task) placeAfter)
        state.server.pool
      rw [at_] at counted same
      have sameRemaining : (WorkerPlace.work (some task) placeAfter).remaining =
          (WorkerPlace.work (some task) place).remaining := rfl
      rw [poolRemaining, poolRemaining, pool, ThreadPool.workers_moveWorker] at less
      simp only [remaining, Shutdown.remaining, shutdown, pool, ThreadPool.workers_moveWorker,
        ThreadPool.poolSem_moveWorker, ClosingLabel.advances, ClosingLabel.interrupts,
        Bool.toNat_true, Bool.toNat_false]
      omega
  | finishWork worker => exact ofShutdown _ rfl rfl (finishWork_cases taken).2
  | worker worker => exact ofShutdown _ rfl rfl taken
  | destroy => exact ofShutdown _ rfl rfl taken
  | interrupt worker =>
      rcases Option.map_eq_some_iff.mp taken with ⟨shutdownAfter, moved, rfl⟩
      have paid : shutdownAfter.remaining ≤ state.shutdown.remaining + 14 :=
        Shutdown.remaining_step moved
      rcases Option.map_eq_some_iff.mp moved with ⟨pool, poolMoved, rfl⟩
      rcases ThreadPool.interrupt_cases poolMoved with ⟨at_, rfl⟩
      have counted := total_update workRemaining state.server.pool.workers worker .mutexLock
      have awakes : total workRemaining
          (Function.update state.server.pool.workers worker .mutexLock) ≤
          total workRemaining state.server.pool.workers :=
        (Nat.le_add_right _ _).trans counted.le
      simp only [remaining, shutdown, ThreadPool.workers_moveWorker, ClosingLabel.advances,
        ClosingLabel.interrupts, Bool.toNat_true, Bool.toNat_false] at paid awakes ⊢
      omega
  | spin =>
      rcases Option.map_eq_some_iff.mp taken with ⟨shutdownAfter, spun, rfl⟩
      change state.shutdown.spin = some shutdownAfter at spun
      rw [Shutdown.spin] at spun
      split_ifs at spun
      cases spun
      exact le_rfl

theorem remaining_begin (server : ServerState size.Worker) :
    (begin server).remaining ≤ 108 + 419 * size.currSize + 180 * server.pool.poolSem := by
  have steps : ∀ place : WorkerPlace ClientTask TaskPlace, place.remaining ≤ 15 := by
    intro place
    cases place <;> simp [WorkerPlace.remaining]
  have most := total_le_card_mul fun worker => steps (server.pool.workers worker)
  have works := total_le_card_mul fun worker => workRemaining_le (server.pool.workers worker)
  rw [Fintype.card_fin] at most works
  simp only [remaining, Shutdown.remaining, shutdown, begin, DestroyPlace.remaining]
  omega

/-! ## Nobody waits in vain -/

/-- A worker inside its work can go on with it or leave it. -/
theorem Mirrors.work_isSome (mirrors : state.Mirrors serverFd running)
    (reached : (serverSystem size.Worker routes serverFd).Reachable running)
    {held : Option ClientTask} {place : TaskPlace}
    (at_ : state.server.pool.workers worker = .work held place) :
    (state.server.finishWork worker).isSome ∨
      ∃ arrival, (state.server.taskStep routes worker arrival).isSome := by
  cases held with
  | none =>
      left
      simp [ServerState.finishWork, at_, ThreadPool.finishWork]
  | some task =>
      by_cases working : place = .done
      · left
        simp [ServerState.finishWork, at_, ThreadPool.finishWork, working]
      · right
        have sameWorker := at_.trans (mirrors.workers_eq at_).symm
        have goesOn := @taskStep_isSome _ _ _ _ _ _ _ reached (mirrors.workers_eq at_) working
          ⟨.failed, idle, 0⟩ trivial
        refine ⟨⟨.failed, idle, 0⟩, ?_⟩
        rw [mirrors.server, (owned_of_reachable reached).taskStep_closingWith sameWorker,
          Option.isSome_map]
        exact goesOn

/-- A step that counts can be taken. -/
def Advances (routes : Dictionary RouteHandler) (serverFd : ℕ) (state : ClosingServer size) :
    Prop :=
  ∃ label : ClosingLabel size, label.advances ∧
    ((closingSystem size routes serverFd).step label state).isSome

theorem advances_of_reachable (reached : (closingSystem size routes serverFd).Reachable state)
    (unfinished : state.place ≠ .routesDestroyed) : state.Advances routes serverFd := by
  have shutdownReached : (shutdownSystem ClientTask TaskPlace size Unit ()).Reachable
      state.shutdown := shutdown_reachable reached
  rcases Shutdown.enabled_of_reachable shutdownReached unfinished with ⟨label, works, takes⟩
  have ofShutdown : (state.ofShutdown label).isSome := by
    rw [ClosingServer.ofShutdown, Option.isSome_map]
    exact takes
  cases label with
  | worker worker => exact ⟨.worker worker, rfl, ofShutdown⟩
  | destroy => exact ⟨.destroy, rfl, ofShutdown⟩
  | finishWork worker =>
      rcases mirrors_of_reachable reached with ⟨running, runningReached, mirrors⟩
      have at_ : ∃ held place, state.server.pool.workers worker = .work held place := by
        rcases Option.isSome_iff_exists.mp takes with ⟨shutdownAfter, moved⟩
        rcases Option.map_eq_some_iff.mp moved with ⟨pool, poolMoved, -⟩
        change state.server.pool.finishWork worker = some pool at poolMoved
        unfold ThreadPool.finishWork at poolMoved
        split at poolMoved
        · exact ⟨_, _, ‹_›⟩
        · cases poolMoved
      rcases at_ with ⟨held, place, at_⟩
      rcases mirrors.work_isSome runningReached at_ with finishes | ⟨arrival, goesOn⟩
      · refine ⟨.finishWork worker, rfl, ?_⟩
        change (state.finishWork worker).isSome
        rw [ClosingServer.finishWork, if_pos finishes]
        exact ofShutdown
      · refine ⟨.task worker arrival, rfl, ?_⟩
        change ((state.server.taskStep routes worker arrival).map _).isSome
        rw [Option.isSome_map]
        exact goesOn
  | _ => cases works

/-! ## The server at the end -/

/-- The server when `thread_pool_destroy` has returned. -/
structure ClosedDown (routes : Dictionary RouteHandler) (start : ServerState size.Worker)
    (state : ClosingServer size) : Prop where
  exited : ∀ worker, state.server.pool.workers worker = .exited
  completed : state.completed.Perm (Shutdown.inHands start.pool ++ start.pool.queued)
  idle : ∀ slot, (state.server.conns slot).isActive → (state.server.conns slot).isBusy = false
  /-- What is not closed is left open in its slot. -/
  connections : ∀ connection < state.server.accepted, state.server.closes connection = 1 ∨
    state.server.closes connection = 0 ∧ ∃ slot, state.server.Seats slot connection ∧
      state.server.descriptors (state.server.conns slot).fd = some (.client connection)
  answered : ∀ connection, ∃ envs : List Environment,
    envs.length = (state.server.dispatched connection).length ∧
    state.server.answered connection = replies routes envs (state.server.dispatched connection)
  /-- Only the last request of a connection may ask to close it. -/
  persistent : ∀ connection, ∀ text ∈ (state.server.dispatched connection).dropLast,
    keepAlive (httpRequestConstructor text)
  ended : ∀ connection, ∀ text ∈ (state.server.dispatched connection).getLast?,
    keepAlive (httpRequestConstructor text) = false → state.server.closes connection = 1

/-- What holds in a state that the shutdown of a server leads to. -/
structure ShutsDown (routes : Dictionary RouteHandler) (serverFd : ℕ)
    (start : ServerState size.Worker) (labels : List (ClosingLabel size))
    (state : ClosingServer size) : Prop where
  /-- No worker refers to what was given back, the routes included. -/
  untouched : ∀ worker, ∀ resource ∈ (state.server.pool.workers worker).touches worker,
    state.freed resource = false
  advances : state.place ≠ .routesDestroyed → state.Advances routes serverFd
  bounded : labels.countP ClosingLabel.advances ≤
    108 + 419 * size.currSize + 180 * start.pool.poolSem +
      168 * labels.countP ClosingLabel.interrupts
  closedDown : state.place.isOver → state.ClosedDown routes start

/-- The running server has no task left when all workers have exited. -/
theorem Mirrors.unoccupied (mirrors : state.Mirrors serverFd running)
    (orderly : state.shutdown.Orderly ()) (ended : state.place.isOver) (worker : size.Worker) :
    (running.pool.workers worker).Unoccupied := by
  have exited : state.server.pool.workers worker = .exited := orderly.exited ended worker
  rcases mirrors.workers worker with same | ⟨-, unoccupied⟩
  · rw [← same, exited]
    exact ⟨rfl, rfl⟩
  · exact unoccupied

theorem Mirrors.inFlight_eq_zero (mirrors : state.Mirrors serverFd running)
    (reached : (serverSystem size.Worker routes serverFd).Reachable running)
    (orderly : state.shutdown.Orderly ()) (ended : state.place.isOver) (slot : Slot) :
    running.inFlight slot = 0 := by
  rcases quiet_of_stopped reached mirrors.stopped () with ⟨result, returned⟩
  have closed : state.place.isOpen = false := by
    cases at_ : state.place <;> rw [at_] at ended <;> first | rfl | cases ended
  have noHands : total (handCount slot) running.pool.workers = 0 := by
    apply total_eq_zero
    intro worker
    have unoccupied := mirrors.unoccupied orderly ended worker
    rw [handCount, inHand_eq_held (by simp [unoccupied.body]), unoccupied.held]
    rfl
  rw [ServerState.inFlight, mirrors.stopped, returned, mirrors.emptied closed, noHands]
  rfl

theorem Mirrors.idle (mirrors : state.Mirrors serverFd running)
    (reached : (serverSystem size.Worker routes serverFd).Reachable running)
    (orderly : state.shutdown.Orderly ()) (ended : state.place.isOver) {slot : Slot}
    (active : (running.conns slot).isActive) : (running.conns slot).isBusy = false := by
  have flight := (owned_of_reachable reached).flight slot
  rw [mirrors.inFlight_eq_zero reached orderly ended, ServerState.owned, active] at flight
  cases busy : (running.conns slot).isBusy
  · rfl
  · rw [busy] at flight
    cases flight

/-- A connection that is still open is in a slot. -/
theorem Mirrors.seated (mirrors : state.Mirrors serverFd running)
    (reached : (serverSystem size.Worker routes serverFd).Reachable running) {connection : ℕ}
    (old : connection < running.accepted) (open_ : running.closes connection = 0) :
    ∃ slot, running.Seats slot connection := by
  apply seats_of_seated
  have notAtDoor : running.phase connection ≠ .arriving := by
    intro arriving
    rcases atDoor_of_reachable reached connection arriving with ⟨fd, arrived⟩
    rw [mirrors.stopped] at arrived
    cases arrived
  rw [phase_of_open old open_] at notAtDoor ⊢
  split_ifs at notAtDoor ⊢
  · rfl
  · rfl
  · exact absurd rfl notAtDoor

theorem Mirrors.connections (mirrors : state.Mirrors serverFd running)
    (reached : (serverSystem size.Worker routes serverFd).Reachable running)
    (orderly : state.shutdown.Orderly ()) (ended : state.place.isOver) {connection : ℕ}
    (old : connection < running.accepted) :
    running.closes connection = 1 ∨ running.closes connection = 0 ∧ ∃ slot,
      running.Seats slot connection ∧ (running.conns slot).fd ≠ serverFd ∧
        running.descriptors (running.conns slot).fd = some (.client connection) := by
  have owned := owned_of_reachable reached
  by_cases open_ : running.closes connection = 0
  · refine Or.inr ⟨open_, ?_⟩
    rcases mirrors.seated reached old open_ with ⟨slot, active, rfl⟩
    have idle := mirrors.idle reached orderly ended active
    have named := (owned.named_of_idle active idle (by rw [mirrors.stopped]; rfl)
      (by rw [mirrors.stopped]; rfl)).2.1
    refine ⟨slot, ⟨active, rfl⟩, ?_, named⟩
    intro same
    rw [same, owned.ledger.listening] at named
    cases named
  · have once := owned.ledger.once connection
    exact Or.inl (by omega)

/-- Nobody works for a connection any more, and its records are complete. -/
theorem Mirrors.transcribed (mirrors : state.Mirrors serverFd running)
    (reached : (serverSystem size.Worker routes serverFd).Reachable running)
    (orderly : state.shutdown.Orderly ()) (ended : state.place.isOver) (connection : ℕ) :
    Transcribed routes .recv (running.closes connection) (running.dispatched connection)
      (running.answered connection) := by
  apply answering_of_reachable reached connection .recv
  refine Or.inr ⟨rfl, fun worker task place at_ _ => ?_⟩
  have unoccupied := mirrors.unoccupied orderly ended worker
  rw [at_] at unoccupied
  cases unoccupied.body

theorem Mirrors.closedDown (mirrors : state.Mirrors serverFd running)
    (reached : (serverSystem size.Worker routes serverFd).Reachable running)
    (orderly : state.shutdown.Orderly ()) (ended : state.place.isOver)
    {start : ServerState size.Worker}
    (tasks : (state.completed ++ Shutdown.inHands state.server.pool ++
      state.server.pool.queued).Perm (Shutdown.inHands start.pool ++ start.pool.queued)) :
    state.ClosedDown routes start := by
  have exited : ∀ worker, state.server.pool.workers worker = .exited := orderly.exited ended
  refine ⟨exited, ?_, ?_, ?_, ?_, ?_, ?_⟩
  · have noHands : Shutdown.inHands state.server.pool = [] := by
      apply List.filterMap_eq_nil_iff.mpr
      intro worker _
      rw [exited worker]
      rfl
    have noQueue : state.server.pool.queued = [] := orderly.emptied (by
      change state.place.isOpen = false
      cases at_ : state.place <;> rw [at_] at ended <;> first | rfl | cases ended)
    rwa [noHands, noQueue, List.append_nil, List.append_nil] at tasks
  · rw [mirrors.server]
    exact fun slot active => mirrors.idle reached orderly ended active
  · rw [mirrors.server]
    intro connection old
    rcases mirrors.connections reached orderly ended old with once | ⟨open_, slot, seats, fd, named⟩
    · exact Or.inl once
    · exact Or.inr ⟨open_, slot, seats, (Function.update_of_ne fd _ _).trans named⟩
  · rw [mirrors.server]
    intro connection
    exact (mirrors.transcribed reached orderly ended connection).replied
  · rw [mirrors.server]
    intro connection
    exact (mirrors.transcribed reached orderly ended connection).persistent
  · rw [mirrors.server]
    intro connection text isLast closing
    have last := (mirrors.transcribed reached orderly ended connection).last
    have once := (owned_of_reachable reached).ledger.once connection
    change running.closes connection = 1
    by_contra notOnce
    have kept : keepAlive (httpRequestConstructor text) := last (by omega) text isLast
    rw [kept] at closing
    cases closing

/--
When the reactor has left its loop `main` shuts the server down: no worker refers to
what was given back, the way to the end is never blocked and has a bounded length, and
at the end every task was completed once, every text dispatched is answered, and every
connection is closed or idle in a slot.
-/
theorem shutsDown_of_run {start : ServerState size.Worker} {labels : List (ClosingLabel size)}
    (reached : (serverSystem size.Worker routes serverFd).Reachable start)
    (stopped : start.reactor = .stopped)
    (ran : (closingSystem size routes serverFd).run labels
      (begin (start.networkShutdown serverFd)) = some state) :
    state.ShutsDown routes serverFd start labels := by
  have initially : (closingSystem size routes serverFd).Reachable
      (begin (start.networkShutdown serverFd)) := .start ⟨start, reached, stopped, rfl⟩
  have later := Transition.System.Reachable.run initially ran
  have orderly := orderly_of_reachable later
  refine ⟨fun worker resource touches => orderly.untouched touches, advances_of_reachable later,
    ?_, fun ended => ?_⟩
  · have paid := Transition.System.cost_le_of_run (fun _ _ _ => remaining_step) ran
    have most := remaining_begin (start.networkShutdown serverFd)
    rw [Transition.System.sum_map_toNat, List.sum_map_mul_left,
      Transition.System.sum_map_toNat] at paid
    change _ ≤ 108 + 419 * size.currSize + 180 * start.pool.poolSem at most
    omega
  · rcases mirrors_of_reachable later with ⟨running, runningReached, mirrors⟩
    refine mirrors.closedDown runningReached orderly ended ?_
    rcases Transition.System.Reachable.run_project (fun _ _ => trivial) shutdown
      (fun _ _ _ (_ : True) taken => Or.inr (shutdown_step taken)) initially ran with
      ⟨moves, moved, -⟩
    exact Shutdown.tasks_of_run (orderly_of_reachable initially) moved

/-- A connection is accepted and its task taken; then `select` fails. -/
def stopRun : List (ServerLabel Shutdown.twoWorkers.Worker) :=
  List.replicate 259 (.reactor quiet) ++ [.reactor { quiet with incoming := some 5 }] ++
    List.replicate 6 (.reactor quiet) ++ List.replicate 5 (.addWork 100) ++
    List.replicate 9 (.worker ThreadPool.firstWorker) ++ List.replicate 778 (.reactor quiet) ++
    [.reactor { quiet with ready := none }]

/-- The peer of the connection closes it while `main` waits for the worker. -/
def closingRun : List (ClosingLabel Shutdown.twoWorkers) :=
  List.replicate 9 .destroy ++ List.replicate 3 (.task ThreadPool.firstWorker ⟨.ended, idle, 0⟩) ++
    [.finishWork ThreadPool.firstWorker] ++ List.replicate 3 (.worker ThreadPool.firstWorker) ++
    List.replicate 4 (.worker ThreadPool.secondWorker) ++ List.replicate 8 .destroy

theorem closingRun_shutsDown :
    ∃ start state, (serverSystem Shutdown.twoWorkers.Worker dictionaryConstructor 3).run stopRun
        (serverStart 3 0) = some start ∧
      start.pool.workers ThreadPool.firstWorker = .work (some ⟨5, 0, 0⟩) .recv ∧
      (closingSystem Shutdown.twoWorkers dictionaryConstructor 3).run closingRun
        (begin (start.networkShutdown 3)) = some state ∧
      state.place = .routesDestroyed ∧ state.server.closes 0 = 1 ∧
      state.ShutsDown dictionaryConstructor 3 start closingRun := by
  have initially : (serverSystem Shutdown.twoWorkers.Worker dictionaryConstructor 3).initial
      (serverStart 3 0) := ⟨0, by decide, rfl⟩
  have stops : ((serverSystem Shutdown.twoWorkers.Worker dictionaryConstructor 3).run stopRun
      (serverStart 3 0)).map (fun state =>
        (state.reactor, state.pool.workers ThreadPool.firstWorker)) =
      some (.stopped, .work (some ⟨5, 0, 0⟩) .recv) := by decide +kernel
  have closes : ((serverSystem Shutdown.twoWorkers.Worker dictionaryConstructor 3).run stopRun
      (serverStart 3 0)).bind (fun start =>
        ((closingSystem Shutdown.twoWorkers dictionaryConstructor 3).run closingRun
          (begin (start.networkShutdown 3))).map fun state =>
            (state.place, state.server.closes 0)) = some (.routesDestroyed, 1) := by
    decide +kernel
  rcases Option.map_eq_some_iff.mp stops with ⟨start, ran, values⟩
  rw [ran, Option.bind_some] at closes
  rcases Option.map_eq_some_iff.mp closes with ⟨state, closed, results⟩
  exact ⟨start, state, ran, congrArg Prod.snd values, closed, congrArg Prod.fst results,
    congrArg Prod.snd results,
    shutsDown_of_run (Transition.System.Reachable.run (.start initially) ran)
      (congrArg Prod.fst values) closed⟩

end ClosingServer

end LetUsConnect
