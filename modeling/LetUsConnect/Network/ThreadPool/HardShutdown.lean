import LetUsConnect.Handler.Answers
import LetUsConnect.Logger.LifeCycle
import LetUsConnect.Network.ThreadPool.Cancel
import LetUsConnect.Network.ThreadPool.Termination

/-!
# What a hard shutdown leaves behind

A stopped worker keeps its places for good. It can only have stopped at a
cancellation point, and the only ones between a lock and its unlock are the
`fprintf` and the `fflush` of the logger. So `pool_lock` is free of stopped
workers in every run, and `log_mutex` is if and only if no worker was stopped in
these two calls.
-/

namespace LetUsConnect

open CString Threads Transition

namespace HardPlace

/-- Whether `main` has joined the worker. -/
def joined (worker : ℕ) : HardPlace → Bool
  | .serving | .cancel _ => false
  | .join index => worker < index
  | .freeState index => worker ≤ index
  | _ => true

end HardPlace

/-- The worker that is stopped by the step. -/
def HardShutdownLabel.stopping {Task : Type} {size : PoolSize} {Adder File : Type} :
    HardShutdownLabel Task size Adder File → Option size.Worker
  | .stop stopped => some stopped
  | _ => none

namespace HardShutdown

variable {Task : Type} {size : PoolSize} {Adder File : Type} [DecidableEq Adder]
  [DecidableEq File] {routes : Dictionary RouteHandler} {contents : Option File → Bytes}
  {state moved after : HardShutdown Task size Adder File} {worker : size.Worker}

/-! ## One step of a worker -/

/-- The worker is not in `logger_log_request`, or its work says so. -/
def Coupled (state : HardShutdown Task size Adder File) (worker : size.Worker) : Prop :=
  (∃ result, state.logger.places (.worker worker) = .returned result) ∨
    ∃ task rest closes, state.pool.workers worker = .work (some task) (.logging rest closes)

/-- What a worker does to the pool and the logger. -/
structure WorkerStep (contents : Option File → Bytes)
    (state moved : HardShutdown Task size Adder File) (worker : size.Worker) : Prop where
  place : moved.place = state.place
  cancelled : moved.cancelled = state.cancelled
  pool : moved.pool = state.pool ∨ ∃ move : PoolLabel Task WorkPlace size.Worker Adder,
    move.mover = some worker ∧ (poolSystem Task WorkPlace size.Worker Adder).step move state.pool =
      some moved.pool
  logger : moved.logger = state.logger ∨ ∃ label, label.mover = .worker worker ∧
    (loggerSystem (LoggingThread size.Worker) File contents).step label state.logger =
      some moved.logger
  coupled : state.Coupled worker → moved.Coupled worker

/-- A step of the pool that does not concern the logger. -/
theorem workerStep_ofPool (move : PoolLabel Task WorkPlace size.Worker Adder)
    (isMover : move.mover = some worker)
    (quiet : ∀ task rest closes,
      state.pool.workers worker ≠ .work (some task) (.logging rest closes))
    (taken : state.ofPool ((poolSystem Task WorkPlace size.Worker Adder).step move state.pool) =
      some moved) : WorkerStep contents state moved worker := by
  rcases Option.map_eq_some_iff.mp taken with ⟨pool, stepped, rfl⟩
  refine ⟨rfl, rfl, Or.inr ⟨move, isMover, stepped⟩, Or.inl rfl, ?_⟩
  rintro (returned | ⟨task, rest, closes, logging⟩)
  · exact Or.inl returned
  · exact absurd logging (quiet task rest closes)

theorem workerStep_worker
    (taken : state.ofPool (state.pool.workerStep worker) = some moved) :
    WorkerStep contents state moved worker := by
  refine workerStep_ofPool (.worker worker) rfl ?_ taken
  intro task rest closes logging
  simp [ThreadPool.workerStep, logging, ofPool] at taken

theorem workerStep_interrupt
    (taken : state.ofPool (state.pool.interrupt worker) = some moved) :
    WorkerStep contents state moved worker := by
  refine workerStep_ofPool (.interrupt worker) rfl ?_ taken
  intro task rest closes logging
  simp [ThreadPool.interrupt, logging, ofPool] at taken

theorem workerStep_recv {conn : ClientConnection} {arrival : Arrival}
    (taken : state.recvStep routes worker conn arrival = some moved) :
    WorkerStep contents state moved worker := by
  unfold recvStep at taken
  split at taken
  case h_2 => cases taken
  case h_1 task at_ =>
    rcases Option.bind_eq_some_iff.mp taken with ⟨outcome, -, proceeded⟩
    refine workerStep_ofPool (.proceed worker _) rfl ?_ proceeded
    intro other rest closes logging
    rw [at_] at logging
    cases logging

theorem workerStep_act (taken : state.actStep worker = some moved) :
    WorkerStep contents state moved worker := by
  unfold actStep at taken
  split at taken
  case h_1 task clientIp method path statusCode host rest closes at_ =>
    rcases Option.bind_eq_some_iff.mp taken with ⟨logger, called, proceeded⟩
    rcases Option.map_eq_some_iff.mp proceeded with ⟨pool, stepped, rfl⟩
    refine ⟨rfl, rfl, Or.inr ⟨.proceed worker _, rfl, stepped⟩,
      Or.inr ⟨.loggerLogRequest (.worker worker) _, rfl, called⟩, ?_⟩
    intro _
    right
    change ThreadPool.proceed worker _ state.pool = some pool at stepped
    rw [ThreadPool.proceed, at_] at stepped
    cases stepped
    exact ⟨task, rest, closes, Function.update_self _ _ _⟩
  case h_2 task action rest closes _ at_ =>
    refine workerStep_ofPool (.proceed worker _) rfl ?_ taken
    intro other left closes logging
    rw [at_] at logging
    cases logging
  case h_3 task at_ =>
    refine workerStep_ofPool (.proceed worker _) rfl ?_ taken
    intro other left closes logging
    rw [at_] at logging
    cases logging
  case h_4 => cases taken

theorem workerStep_logging {answer : LibraryAnswer File}
    (taken : state.loggingStep worker answer = some moved) :
    WorkerStep contents state moved worker := by
  unfold loggingStep at taken
  split at taken
  case h_2 => cases taken
  case h_1 task rest closes at_ =>
    split at taken
    case h_1 result returned =>
      rcases Option.map_eq_some_iff.mp taken with ⟨pool, stepped, rfl⟩
      exact ⟨rfl, rfl, Or.inr ⟨.proceed worker _, rfl, stepped⟩, Or.inl rfl,
        fun _ => Or.inl ⟨result, returned⟩⟩
    case h_2 =>
      rcases Option.map_eq_some_iff.mp taken with ⟨logger, stepped, rfl⟩
      exact ⟨rfl, rfl, Or.inl rfl, Or.inr ⟨.step (.worker worker) answer, rfl, stepped⟩,
        fun _ => Or.inr ⟨task, rest, closes, at_⟩⟩

theorem workerStep_finishWork (taken : state.finishWork worker = some moved) :
    WorkerStep contents state moved worker := by
  unfold finishWork at taken
  split at taken
  case h_3 => cases taken
  all_goals
    rename_i at_
    refine workerStep_ofPool (.finishWork worker) rfl ?_ taken
    intro task rest closes logging
    rw [at_] at logging
    cases logging

omit [DecidableEq Adder] [DecidableEq File] in
theorem workerMoves_cases {step : Option (HardShutdown Task size Adder File)}
    (taken : state.workerMoves worker step = some after) :
    state.mayGoOn worker = true ∧ ∃ moved, step = some moved ∧ after =
      { moved with
        cancelled := Function.update state.cancelled worker
          (if state.cancelled worker = .atCurrent then .atNext else state.cancelled worker) } := by
  rw [workerMoves] at taken
  by_cases goesOn : state.mayGoOn worker = true
  · rw [if_pos goesOn] at taken
    rcases Option.map_eq_some_iff.mp taken with ⟨moved, stepped, rfl⟩
    exact ⟨goesOn, moved, stepped, rfl⟩
  · rw [if_neg goesOn] at taken
    cases taken

/-! ## One step of any thread -/

/-- The workers that were stopped are those that are. -/
def SameStopped (state after : HardShutdown Task size Adder File) : Prop :=
  ∀ worker, after.cancelled worker = .stopped ↔ state.cancelled worker = .stopped

/-- What `main` does to the pool and the logger. -/
structure MainStep (contents : Option File → Bytes)
    (state after : HardShutdown Task size Adder File) : Prop where
  pool : after.pool = state.pool
  logger : after.logger = state.logger ∨ ∃ label, label.mover = .main ∧
    (loggerSystem (LoggingThread size.Worker) File contents).step label state.logger =
      some after.logger
  stopped : state.SameStopped after

omit [DecidableEq Adder] [DecidableEq File] in
theorem sameStopped_pthreadCancel : state.SameStopped (state.pthreadCancel worker) := by
  intro other
  change Function.update state.cancelled worker _ other = .stopped ↔ _
  by_cases same : other = worker
  · rw [same, Function.update_self]
    cases state.cancelled worker <;> simp
    split_ifs <;> simp
  · rw [Function.update_of_ne same]

omit [DecidableEq Adder] in
theorem mainStep_mainStep {answer : LibraryAnswer File}
    (taken : state.mainStep answer = some after) : MainStep contents state after := by
  have unchanged : state.SameStopped state := fun _ => Iff.rfl
  cases at_ : state.place <;> simp only [mainStep, at_] at taken
  case serving | freeState | semClose | freeLock =>
    cases taken
    exact ⟨rfl, Or.inl rfl, unchanged⟩
  case cancel index =>
    split at taken <;> cases taken
    · exact ⟨rfl, Or.inl rfl, sameStopped_pthreadCancel⟩
    · exact ⟨rfl, Or.inl rfl, unchanged⟩
  case join index =>
    split at taken
    · split_ifs at taken
      cases taken
      exact ⟨rfl, Or.inl rfl, unchanged⟩
    · cases taken
      exact ⟨rfl, Or.inl rfl, unchanged⟩
  case returned =>
    rcases Option.map_eq_some_iff.mp taken with ⟨logger, called, rfl⟩
    exact ⟨rfl, Or.inr ⟨.loggerDestroy .main, rfl, called⟩, unchanged⟩
  case loggerDestroy =>
    split at taken
    · cases taken
      exact ⟨rfl, Or.inl rfl, unchanged⟩
    · rcases Option.map_eq_some_iff.mp taken with ⟨logger, stepped, rfl⟩
      exact ⟨rfl, Or.inr ⟨.step .main answer, rfl, stepped⟩, unchanged⟩
  case loggerDestroyed => cases taken

omit [DecidableEq Adder] [DecidableEq File] in
theorem stop_cases (taken : state.stop worker = some after) :
    state.atCancellationPoint worker = true ∧
      after = { state with cancelled := Function.update state.cancelled worker .stopped } := by
  rw [HardShutdown.stop] at taken
  split_ifs at taken with may
  cases taken
  exact ⟨may.1, rfl⟩

/-- What a step does. -/
inductive Effect (contents : Option File → Bytes)
    (state after : HardShutdown Task size Adder File) :
    HardShutdownLabel Task size Adder File → Prop where
  | worker {label : HardShutdownLabel Task size Adder File} (worker : size.Worker)
      (goesOn : state.mayGoOn worker = true) (moved : HardShutdown Task size Adder File)
      (step : WorkerStep contents state moved worker)
      (isAfter : after =
        { moved with
          cancelled := Function.update state.cancelled worker
            (if state.cancelled worker = .atCurrent then .atNext else state.cancelled worker) }) :
      Effect contents state after label
  | adder {label : HardShutdownLabel Task size Adder File}
      (exists_ : state.place.poolExists = true)
      (pool : ThreadPool Task WorkPlace size.Worker Adder)
      (move : PoolLabel Task WorkPlace size.Worker Adder) (notWorker : move.mover = none)
      (step : (poolSystem Task WorkPlace size.Worker Adder).step move state.pool = some pool)
      (isAfter : after = { state with pool }) : Effect contents state after label
  | stop (worker : size.Worker) (taken : state.stop worker = some after) :
      Effect contents state after (.stop worker)
  | main (answer : LibraryAnswer File) (taken : state.mainStep answer = some after) :
      Effect contents state after (.main answer)

theorem effect_of_step {label : HardShutdownLabel Task size Adder File}
    (taken : (hardShutdownSystem Task size Adder File routes contents).step label state =
      some after) : Effect contents state after label := by
  cases label with
  | worker worker =>
      rcases workerMoves_cases taken with ⟨goesOn, moved, stepped, isAfter⟩
      exact .worker worker goesOn moved (workerStep_worker stepped) isAfter
  | interrupt worker =>
      rcases workerMoves_cases taken with ⟨goesOn, moved, stepped, isAfter⟩
      exact .worker worker goesOn moved (workerStep_interrupt stepped) isAfter
  | recv worker conn arrival =>
      rcases workerMoves_cases taken with ⟨goesOn, moved, stepped, isAfter⟩
      exact .worker worker goesOn moved (workerStep_recv stepped) isAfter
  | act worker =>
      rcases workerMoves_cases taken with ⟨goesOn, moved, stepped, isAfter⟩
      exact .worker worker goesOn moved (workerStep_act stepped) isAfter
  | logging worker answer =>
      rcases workerMoves_cases taken with ⟨goesOn, moved, stepped, isAfter⟩
      exact .worker worker goesOn moved (workerStep_logging stepped) isAfter
  | finishWork worker =>
      rcases workerMoves_cases taken with ⟨goesOn, moved, stepped, isAfter⟩
      exact .worker worker goesOn moved (workerStep_finishWork stepped) isAfter
  | addWork adder task =>
      change (if state.place.poolExists = true then _ else none) = some after at taken
      split_ifs at taken with exists_
      rcases Option.map_eq_some_iff.mp taken with ⟨pool, stepped, rfl⟩
      exact .adder exists_ pool (.addWork adder task) rfl stepped rfl
  | adder adder newNode =>
      change (if state.place.poolExists = true then _ else none) = some after at taken
      split_ifs at taken with exists_
      rcases Option.map_eq_some_iff.mp taken with ⟨pool, stepped, rfl⟩
      exact .adder exists_ pool (.adder adder newNode) rfl stepped rfl
  | stop worker => exact .stop worker taken
  | main answer => exact .main answer taken

/-! ### Stopped workers -/

omit [DecidableEq Adder] [DecidableEq File] in
theorem not_stopped_of_mayGoOn (goesOn : state.mayGoOn worker = true) :
    state.cancelled worker ≠ .stopped := by
  intro stopped
  rw [mayGoOn, stopped] at goesOn
  cases goesOn

/-- A step of a worker is no step of another one. -/
theorem WorkerStep.elsewhere {other : size.Worker} (step : WorkerStep contents state moved worker)
    (differs : other ≠ worker) :
    moved.pool.workers other = state.pool.workers other ∧
      moved.logger.places (.worker other) = state.logger.places (.worker other) := by
  constructor
  · rcases step.pool with same | ⟨move, isMover, stepped⟩
    · rw [same]
    · rcases ThreadPool.moves_of_step isMover stepped with ⟨place, moves⟩
      rw [moves.workers, Function.update_of_ne differs]
  · rcases step.logger with same | ⟨label, isMover, stepped⟩
    · rw [same]
    · refine LoggerState.places_step stepped ?_
      rw [isMover]
      simpa using differs.symm

omit [DecidableEq File] in
theorem workers_of_adder {move : PoolLabel Task WorkPlace size.Worker Adder}
    {pool : ThreadPool Task WorkPlace size.Worker Adder} (notWorker : move.mover = none)
    (step : (poolSystem Task WorkPlace size.Worker Adder).step move state.pool = some pool) :
    pool.workers = state.pool.workers := by
  cases move with
  | worker | interrupt | proceed | finishWork => cases notWorker
  | addWork adder task =>
      change ThreadPool.addWork adder task state.pool = some pool at step
      rw [ThreadPool.addWork] at step
      split at step <;> cases step
      rfl
  | adder adder newNode =>
      rcases ThreadPool.adderStep_moves step with ⟨place, -, workers, -⟩
      exact workers

/-- What holds of the places of a worker once it was stopped. -/
structure Frozen (state after : HardShutdown Task size Adder File) (worker : size.Worker) :
    Prop where
  stopped : after.cancelled worker = .stopped
  workers : after.pool.workers worker = state.pool.workers worker
  logger : after.logger.places (.worker worker) = state.logger.places (.worker worker)

/-- A stopped worker stays as it is. -/
theorem Effect.frozen {label : HardShutdownLabel Task size Adder File}
    (effect : Effect contents state after label) (stopped : state.cancelled worker = .stopped) :
    state.Frozen after worker := by
  cases effect with
  | worker mover goesOn moved step isAfter =>
      have differs : worker ≠ mover := by
        rintro rfl
        exact not_stopped_of_mayGoOn goesOn stopped
      have elsewhere := step.elsewhere differs
      rw [isAfter]
      refine ⟨?_, elsewhere.1, elsewhere.2⟩
      change Function.update state.cancelled mover _ worker = .stopped
      rw [Function.update_of_ne differs]
      exact stopped
  | adder exists_ pool move notWorker step isAfter =>
      rw [isAfter]
      exact ⟨stopped, congrFun (workers_of_adder notWorker step) worker, rfl⟩
  | stop other taken =>
      obtain ⟨-, rfl⟩ := stop_cases taken
      refine ⟨?_, rfl, rfl⟩
      change Function.update state.cancelled other _ worker = .stopped
      by_cases same : worker = other
      · rw [same, Function.update_self]
      · rw [Function.update_of_ne same]
        exact stopped
  | main answer taken =>
      have step : MainStep contents state after := mainStep_mainStep taken
      refine ⟨(step.stopped worker).mpr stopped, by rw [step.pool], ?_⟩
      rcases step.logger with same | ⟨label, isMover, stepped⟩
      · rw [same]
      · refine LoggerState.places_step stepped ?_
        rw [isMover]
        simp

omit [DecidableEq Adder] [DecidableEq File] in
theorem Frozen.atCancellationPoint (frozen : state.Frozen after worker) :
    after.atCancellationPoint worker = state.atCancellationPoint worker := by
  rw [HardShutdown.atCancellationPoint, HardShutdown.atCancellationPoint, frozen.workers,
    frozen.logger]

/-! ## Every run -/

/-- The worker takes no step any more. -/
def Done (state : HardShutdown Task size Adder File) (worker : size.Worker) : Prop :=
  state.cancelled worker = .stopped ∨ (state.pool.workers worker).hasExited

structure Sound (contents : Option File → Bytes) (state : HardShutdown Task size Adder File) :
    Prop where
  pool : (poolSystem Task WorkPlace size.Worker Adder).Reachable state.pool
  logger : (loggerSystem (LoggingThread size.Worker) File contents).Reachable state.logger
  coupled : ∀ worker, state.Coupled worker
  outside : state.place ≠ .loggerDestroy → ∃ result, state.logger.places .main = .returned result
  stopped : ∀ worker, state.cancelled worker = .stopped → state.atCancellationPoint worker = true
  joined : ∀ worker : size.Worker, state.place.joined worker → state.Done worker

theorem Effect.pool {label : HardShutdownLabel Task size Adder File}
    (effect : Effect contents state after label)
    (reached : (poolSystem Task WorkPlace size.Worker Adder).Reachable state.pool) :
    (poolSystem Task WorkPlace size.Worker Adder).Reachable after.pool := by
  cases effect with
  | worker mover goesOn moved step isAfter =>
      rw [isAfter]
      rcases step.pool with same | ⟨move, -, stepped⟩
      · change (poolSystem _ _ _ _).Reachable moved.pool
        rw [same]
        exact reached
      · exact .next reached trivial stepped
  | adder exists_ pool move notWorker step isAfter =>
      rw [isAfter]
      exact .next reached trivial step
  | stop other taken =>
      obtain ⟨-, rfl⟩ := stop_cases taken
      exact reached
  | main answer taken =>
      have step : MainStep contents state after := mainStep_mainStep taken
      rw [step.pool]
      exact reached

theorem Effect.logger {label : HardShutdownLabel Task size Adder File}
    (effect : Effect contents state after label)
    (reached : (loggerSystem (LoggingThread size.Worker) File contents).Reachable state.logger) :
    (loggerSystem (LoggingThread size.Worker) File contents).Reachable after.logger := by
  cases effect with
  | worker mover goesOn moved step isAfter =>
      rw [isAfter]
      rcases step.logger with same | ⟨label, -, stepped⟩
      · change (loggerSystem _ _ _).Reachable moved.logger
        rw [same]
        exact reached
      · exact .next reached trivial stepped
  | adder exists_ pool move notWorker step isAfter =>
      rw [isAfter]
      exact reached
  | stop other taken =>
      obtain ⟨-, rfl⟩ := stop_cases taken
      exact reached
  | main answer taken =>
      have step : MainStep contents state after := mainStep_mainStep taken
      rcases step.logger with same | ⟨label, -, stepped⟩
      · rw [same]
        exact reached
      · exact .next reached trivial stepped

omit [DecidableEq Adder] [DecidableEq File] in
theorem Coupled.congr (coupled : state.Coupled worker)
    (workers : after.pool.workers worker = state.pool.workers worker)
    (logger : after.logger.places (.worker worker) = state.logger.places (.worker worker)) :
    after.Coupled worker := by
  rw [Coupled, workers, logger]
  exact coupled

omit [DecidableEq Adder] in
theorem MainStep.places (step : MainStep contents state after) (worker : size.Worker) :
    after.logger.places (.worker worker) = state.logger.places (.worker worker) := by
  rcases step.logger with same | ⟨label, isMover, stepped⟩
  · rw [same]
  · refine LoggerState.places_step stepped ?_
    rw [isMover]
    simp

theorem Effect.coupled {label : HardShutdownLabel Task size Adder File}
    (effect : Effect contents state after label) (coupled : state.Coupled worker) :
    after.Coupled worker := by
  cases effect with
  | worker mover goesOn moved step isAfter =>
      rw [isAfter]
      by_cases same : worker = mover
      · subst same
        exact step.coupled coupled
      · have elsewhere := step.elsewhere same
        exact coupled.congr elsewhere.1 elsewhere.2
  | adder exists_ pool move notWorker step isAfter =>
      rw [isAfter]
      exact coupled.congr (congrFun (workers_of_adder notWorker step) worker) rfl
  | stop other taken =>
      obtain ⟨-, rfl⟩ := stop_cases taken
      exact coupled
  | main answer taken =>
      have step : MainStep contents state after := mainStep_mainStep taken
      exact coupled.congr (by rw [step.pool]) (step.places worker)

theorem Effect.outside {label : HardShutdownLabel Task size Adder File}
    (effect : Effect contents state after label)
    (outside : state.place ≠ .loggerDestroy →
      ∃ result, state.logger.places .main = .returned result)
    (elsewhere : after.place ≠ .loggerDestroy) :
    ∃ result, after.logger.places .main = .returned result := by
  cases effect with
  | worker mover goesOn moved step isAfter =>
      rw [isAfter] at elsewhere ⊢
      have samePlace : moved.logger.places .main = state.logger.places .main := by
        rcases step.logger with same | ⟨label, isMover, stepped⟩
        · rw [same]
        · refine LoggerState.places_step stepped ?_
          rw [isMover]
          simp
      change ∃ result, moved.logger.places .main = .returned result
      rw [samePlace]
      exact outside (step.place ▸ elsewhere)
  | adder exists_ pool move notWorker step isAfter =>
      rw [isAfter] at elsewhere ⊢
      exact outside elsewhere
  | stop other taken =>
      obtain ⟨-, rfl⟩ := stop_cases taken
      exact outside elsewhere
  | main answer taken =>
      cases at_ : state.place <;> simp only [mainStep, at_] at taken
      case serving | freeState | semClose | freeLock =>
        cases taken
        exact outside (by simp [at_])
      case cancel index =>
        split at taken <;> cases taken <;> exact outside (by simp [at_])
      case join index =>
        split at taken
        · split_ifs at taken
          cases taken
          exact outside (by simp [at_])
        · cases taken
          exact outside (by simp [at_])
      case returned =>
        rcases Option.map_eq_some_iff.mp taken with ⟨logger, -, rfl⟩
        exact absurd rfl elsewhere
      case loggerDestroy =>
        split at taken
        case h_1 result returned =>
          cases taken
          exact ⟨result, returned⟩
        case h_2 =>
          rcases Option.map_eq_some_iff.mp taken with ⟨logger, -, rfl⟩
          exact absurd rfl elsewhere
      case loggerDestroyed => cases taken

/-- A worker is stopped by its own step only. -/
theorem Effect.stopped_cases {label : HardShutdownLabel Task size Adder File}
    (effect : Effect contents state after label) (stopped : after.cancelled worker = .stopped) :
    state.cancelled worker = .stopped ∨
      label = .stop worker ∧ state.atCancellationPoint worker = true ∧
        after.pool = state.pool ∧ after.logger = state.logger := by
  cases effect with
  | worker mover goesOn moved step isAfter =>
      rw [isAfter] at stopped
      change Function.update state.cancelled mover _ worker = .stopped at stopped
      by_cases same : worker = mover
      · subst same
        rw [Function.update_self] at stopped
        split_ifs at stopped
        exact Or.inl stopped
      · rw [Function.update_of_ne same] at stopped
        exact Or.inl stopped
  | adder exists_ pool move notWorker step isAfter =>
      rw [isAfter] at stopped
      exact Or.inl stopped
  | stop other taken =>
      obtain ⟨may, rfl⟩ := stop_cases taken
      change Function.update state.cancelled other _ worker = .stopped at stopped
      by_cases same : worker = other
      · subst same
        exact Or.inr ⟨rfl, may, rfl, rfl⟩
      · rw [Function.update_of_ne same] at stopped
        exact Or.inl stopped
  | main answer taken =>
      have step : MainStep contents state after := mainStep_mainStep taken
      exact Or.inl ((step.stopped worker).mp stopped)

theorem Effect.stopped {label : HardShutdownLabel Task size Adder File}
    (effect : Effect contents state after label)
    (before : state.cancelled worker = .stopped → state.atCancellationPoint worker = true)
    (stopped : after.cancelled worker = .stopped) : after.atCancellationPoint worker = true := by
  rcases effect.stopped_cases stopped with already | ⟨-, at_, pool, logger⟩
  · rw [(effect.frozen already).atCancellationPoint]
    exact before already
  · rw [HardShutdown.atCancellationPoint, pool, logger]
    exact at_

theorem Effect.done {label : HardShutdownLabel Task size Adder File}
    (effect : Effect contents state after label) (done : state.Done worker) :
    after.Done worker := by
  rcases done with stopped | exited
  · exact Or.inl (effect.frozen stopped).stopped
  · right
    cases effect with
    | worker mover goesOn moved step isAfter =>
        rw [isAfter]
        change (moved.pool.workers worker).hasExited
        rcases step.pool with same | ⟨move, isMover, stepped⟩
        · rw [same]
          exact exited
        · rcases ThreadPool.moves_of_step isMover stepped with ⟨place, moves⟩
          have differs : worker ≠ mover := by
            rintro rfl
            rw [moves.active] at exited
            cases exited
          rw [moves.workers, Function.update_of_ne differs]
          exact exited
    | adder exists_ pool move notWorker step isAfter =>
        rw [isAfter]
        change (pool.workers worker).hasExited
        rw [workers_of_adder notWorker step]
        exact exited
    | stop other taken =>
        obtain ⟨-, rfl⟩ := stop_cases taken
        exact exited
    | main answer taken =>
        have step : MainStep contents state after := mainStep_mainStep taken
        rw [step.pool]
        exact exited

omit [DecidableEq Adder] in
/-- `main` counts a worker as joined when it is done. -/
theorem joined_mainStep {answer : LibraryAnswer File}
    (taken : state.mainStep answer = some after) (isJoined : after.place.joined worker) :
    state.place.joined worker ∨ state.Done worker := by
  cases at_ : state.place <;> simp only [mainStep, at_] at taken
  case serving =>
    cases taken
    cases isJoined
  case cancel index =>
    split at taken <;> cases taken
    · cases isJoined
    · exact absurd isJoined (by simp [goto, HardPlace.joined])
  case join index =>
    split at taken
    case h_1 other found =>
      split_ifs at taken with done
      cases taken
      have isIndex := (PoolSize.workerAt_eq_some found).1
      have upTo : (worker : ℕ) ≤ index := of_decide_eq_true isJoined
      rcases Nat.lt_or_eq_of_le upTo with earlier | same
      · exact Or.inl (decide_eq_true earlier)
      · right
        have isOther : worker = other := Fin.ext (same.trans isIndex)
        rw [isOther]
        exact done
    case h_2 finished =>
      left
      have all := PoolSize.workerAt_eq_none finished
      exact decide_eq_true (lt_of_lt_of_le worker.isLt all)
  case freeState index =>
    cases taken
    left
    have below : (worker : ℕ) < index + 1 := of_decide_eq_true isJoined
    exact decide_eq_true (Nat.le_of_lt_succ below)
  all_goals exact Or.inl rfl

theorem Effect.joined {label : HardShutdownLabel Task size Adder File}
    (effect : Effect contents state after label)
    (joined : state.place.joined worker → state.Done worker)
    (isJoined : after.place.joined worker) : after.Done worker := by
  apply effect.done
  have before : state.place.joined worker ∨ state.Done worker := by
    cases effect with
    | worker mover goesOn moved step isAfter =>
        rw [isAfter] at isJoined
        exact Or.inl (step.place ▸ isJoined)
    | adder exists_ pool move notWorker step isAfter =>
        rw [isAfter] at isJoined
        exact Or.inl isJoined
    | stop other taken =>
        obtain ⟨-, rfl⟩ := stop_cases taken
        exact Or.inl isJoined
    | main answer taken => exact joined_mainStep taken isJoined
  exact before.elim joined id

theorem Sound.step {label : HardShutdownLabel Task size Adder File}
    (sound : Sound contents state) (effect : Effect contents state after label) :
    Sound contents after where
  pool := effect.pool sound.pool
  logger := effect.logger sound.logger
  coupled := fun worker => effect.coupled (sound.coupled worker)
  outside := effect.outside sound.outside
  stopped := fun worker => effect.stopped (sound.stopped worker)
  joined := fun worker => effect.joined (sound.joined worker)

theorem sound_of_reachable
    (reached : (hardShutdownSystem Task size Adder File routes contents).Reachable state) :
    Sound contents state := by
  refine reached.invariant ?_ ?_
  · rintro state ⟨count, bound, logger, loggerReached, outside, rfl⟩
    refine ⟨.start ⟨count, bound, rfl⟩, loggerReached, ?_, fun _ => outside .main, ?_, ?_⟩
    · exact fun worker => Or.inl (outside (.worker worker))
    · intro worker stopped
      cases stopped
    · intro worker joined
      cases joined
  · intro state label after sound taken
    exact sound.step (effect_of_step taken)

/-! ## What is left behind -/

/-- No stopped worker holds a lock. -/
structure LeavesNoLockHeld (state : HardShutdown Task size Adder File) : Prop where
  poolLock : ∀ worker, state.cancelled worker = .stopped →
    state.pool.poolLock ≠ some (.worker worker)
  logMutex : ∀ worker, state.cancelled worker = .stopped →
    state.logger.logMutex ≠ some (.worker worker)

/-- The steps `main` has left after `thread_pool_destroy`. -/
def remaining (state : HardShutdown Task size Adder File) : ℕ :=
  match state.place with
  | .returned => 9
  | .loggerDestroy => (state.logger.places .main).remaining + 1
  | _ => 0

/-- Whatever happens, `main` goes on until `logger_destroy` has returned. -/
def LoggerDestroyReturns (routes : Dictionary RouteHandler) (contents : Option File → Bytes)
    (state : HardShutdown Task size Adder File) : Prop :=
  ∀ later, ((hardShutdownSystem Task size Adder File routes contents).startingAt state).Reachable
    later → later.place ≠ .loggerDestroyed → ∀ answer,
      ∃ after, later.mainStep answer = some after ∧ after.remaining < later.remaining

/-- A worker that stops is not in `fprintf` or `fflush` of the logger. -/
def StopsOutsideLogger (state : HardShutdown Task size Adder File)
    (label : HardShutdownLabel Task size Adder File) : Prop :=
  ∀ worker ∈ label.stopping, (state.logger.places (.worker worker)).isCancellationPoint = false

instance (state : HardShutdown Task size Adder File)
    (label : HardShutdownLabel Task size Adder File) : Decidable (state.StopsOutsideLogger label) :=
  inferInstanceAs (Decidable (∀ worker ∈ label.stopping, _ = false))

/-! ### The locks of the stopped workers -/

omit [DecidableEq Adder] [DecidableEq File] in
/-- No cancellation point lies between the lock and the unlock of `pool_lock`. -/
theorem not_atCancellationPoint (locked : (state.pool.workers worker).locked = true) :
    state.atCancellationPoint worker = false := by
  cases at_ : state.pool.workers worker
  case semWait | work =>
    rw [at_] at locked
    cases locked
  all_goals simp [atCancellationPoint, at_]

theorem Sound.poolLock (sound : Sound contents state)
    (stopped : state.cancelled worker = .stopped) :
    state.pool.poolLock ≠ some (.worker worker) := by
  intro holds
  have inside : (state.pool.workers worker).locked :=
    (ThreadPool.lockSound_of_reachable sound.pool (.worker worker)).mpr holds
  have at_ := sound.stopped worker stopped
  rw [not_atCancellationPoint inside] at at_
  cases at_

/-- A worker stopped elsewhere is not in the logger at all. -/
theorem Sound.outsideLogger (sound : Sound contents state)
    (stopped : state.cancelled worker = .stopped)
    (elsewhere : (state.logger.places (.worker worker)).isCancellationPoint = false) :
    ∃ result, state.logger.places (.worker worker) = .returned result := by
  rcases sound.coupled worker with returned | ⟨task, rest, closes, logging⟩
  · exact returned
  · have at_ := sound.stopped worker stopped
    rw [HardShutdown.atCancellationPoint, logging] at at_
    simp only [elsewhere] at at_
    cases at_

theorem Sound.outside_of_exited (sound : Sound contents state)
    (exited : (state.pool.workers worker).hasExited) :
    ∃ result, state.logger.places (.worker worker) = .returned result := by
  rcases sound.coupled worker with returned | ⟨task, rest, closes, logging⟩
  · exact returned
  · rw [logging] at exited
    cases exited

theorem Sound.exclusive (sound : Sound contents state) :
    Exclusive state.logger.logMutex fun thread => (state.logger.places thread).isInside :=
  (LoggerState.sound_of_reachable sound.logger).exclusive

theorem Sound.logMutex_of_returned {thread : LoggingThread size.Worker}
    (sound : Sound contents state)
    (returned : ∃ result, state.logger.places thread = .returned result) :
    state.logger.logMutex ≠ some thread := by
  intro holds
  have inside : (state.logger.places thread).isInside = true := (sound.exclusive thread).mpr holds
  rcases returned with ⟨result, returned⟩
  rw [returned] at inside
  cases inside

def StoppedElsewhere (state : HardShutdown Task size Adder File) : Prop :=
  ∀ worker, state.cancelled worker = .stopped →
    (state.logger.places (.worker worker)).isCancellationPoint = false

/-- In the runs that meet the guard every stopped worker has stopped outside the logger. -/
theorem stoppedElsewhere
    (reached : (hardShutdownSystem Task size Adder File routes contents).ReachableWhere
      StopsOutsideLogger state) : state.StoppedElsewhere := by
  have known : ∀ state, (hardShutdownSystem Task size Adder File routes contents).Reachable state →
      Sound contents state := fun _ => sound_of_reachable
  refine reached.invariant known ?_ ?_
  · rintro state ⟨count, -, logger, -, -, rfl⟩ worker stopped
    cases stopped
  · intro state label after _ elsewhere guarded taken worker stopped
    have effect : Effect contents _ _ label := effect_of_step taken
    rcases effect.stopped_cases stopped with already | ⟨isStop, -, -, logger⟩
    · rw [(effect.frozen already).logger]
      exact elsewhere worker already
    · rw [isStop] at guarded
      rw [logger]
      exact guarded worker rfl

/-! ### After `thread_pool_destroy` -/

omit [DecidableEq Adder] in
theorem poolExists_mainStep {answer : LibraryAnswer File}
    (taken : state.mainStep answer = some after) (gone : state.place.poolExists = false) :
    after.place.poolExists = false := by
  cases at_ : state.place <;> rw [at_] at gone <;> try cases gone
  all_goals simp only [mainStep, at_] at taken
  case returned =>
    rcases Option.map_eq_some_iff.mp taken with ⟨logger, -, rfl⟩
    rfl
  case loggerDestroy =>
    split at taken
    · cases taken
      rfl
    · rcases Option.map_eq_some_iff.mp taken with ⟨logger, -, rfl⟩
      rfl
  case loggerDestroyed => cases taken

/-- Only `main` is left, and no worker is in the logger. -/
structure Quiet (state : HardShutdown Task size Adder File) : Prop where
  gone : state.place.poolExists = false
  done : ∀ worker, state.Done worker
  outside : ∀ worker, ∃ result, state.logger.places (.worker worker) = .returned result

theorem Quiet.step {label : HardShutdownLabel Task size Adder File} (quiet : state.Quiet)
    (effect : Effect contents state after label) (sound : Sound contents after) : after.Quiet := by
  have done : ∀ worker, after.Done worker := fun worker => effect.done (quiet.done worker)
  refine ⟨?_, done, ?_⟩
  · cases effect with
    | worker mover goesOn moved step isAfter =>
        rw [isAfter]
        exact step.place ▸ quiet.gone
    | adder exists_ => exact absurd exists_ (by simp [quiet.gone])
    | stop other taken =>
        obtain ⟨-, rfl⟩ := stop_cases taken
        exact quiet.gone
    | main answer taken => exact poolExists_mainStep taken quiet.gone
  · intro worker
    rcases done worker with stopped | exited
    · rcases effect.stopped_cases stopped with already | ⟨-, -, -, logger⟩
      · rw [(effect.frozen already).logger]
        exact quiet.outside worker
      · rw [logger]
        exact quiet.outside worker
    · exact sound.outside_of_exited exited

/-- When only `main` is left, it goes on until `logger_destroy` has returned. -/
theorem Quiet.exists_mainStep (quiet : state.Quiet) (sound : Sound contents state)
    (unfinished : state.place ≠ .loggerDestroyed) (answer : LibraryAnswer File) :
    ∃ after, state.mainStep answer = some after ∧ after.remaining < state.remaining := by
  have gone := quiet.gone
  cases at_ : state.place <;> rw [at_] at gone <;> try cases gone
  case returned =>
    rcases sound.outside (by simp [at_]) with ⟨result, returned⟩
    refine ⟨{ state.goto .loggerDestroy with
      logger := state.logger.goto .main .destroyLock }, ?_, ?_⟩
    · simp [mainStep, at_, LoggerState.call, returned]
    · simp [remaining, goto, at_, LoggerState.places_goto, LoggerPlace.remaining]
  case loggerDestroy =>
    have unlocked :
        (state.logger.places .main).isInside = false → state.logger.logMutex = none := by
      intro outside
      refine Option.eq_none_iff_forall_ne_some.mpr fun thread holds => ?_
      have inside : (state.logger.places thread).isInside = true :=
        (sound.exclusive thread).mpr holds
      cases thread with
      | worker worker => exact sound.logMutex_of_returned (quiet.outside worker) holds
      | main =>
          rw [outside] at inside
          cases inside
    by_cases returned : ∃ result, state.logger.places .main = .returned result
    · rcases returned with ⟨result, returned⟩
      refine ⟨state.goto .loggerDestroyed, ?_, ?_⟩
      · simp [mainStep, at_, returned]
      · simp [remaining, goto, at_]
    · have enabled : ∃ logger, state.logger.threadStep .main answer = some logger := by
        cases inside : (state.logger.places .main).isInside with
        | true =>
            have kept := LoggerState.sound_of_reachable sound.logger
            exact LoggerState.exists_threadStep (kept.held .main (kept.exclusive.holder inside))
              inside answer
        | false =>
            exact LoggerState.exists_threadStep_of_free (unlocked inside) inside
              (not_exists.mp returned) answer
      rcases enabled with ⟨logger, stepped⟩
      rcases LoggerState.moves_threadStep stepped with ⟨place, moves⟩
      refine ⟨{ state with logger }, ?_, ?_⟩
      · rw [mainStep, at_]
        simp only
        split
        · next result same => exact absurd ⟨result, same⟩ returned
        · rw [stepped]
          rfl
      · simp only [remaining, at_, moves.places, Function.update_self]
        have nearer := moves.nearer
        omega
  case loggerDestroyed => exact absurd at_ unfinished

theorem Quiet.loggerDestroyReturns (quiet : state.Quiet)
    (reached : (hardShutdownSystem Task size Adder File routes contents).Reachable state) :
    LoggerDestroyReturns routes contents state := by
  intro later afterwards unfinished answer
  have still : Sound contents later ∧ later.Quiet := by
    refine @System.Reachable.invariant _ _ _ (fun later => Sound contents later ∧ later.Quiet)
      ?_ ?_ _ afterwards
    · rintro _ rfl
      exact ⟨sound_of_reachable reached, quiet⟩
    · rintro state label after ⟨sound, quiet⟩ taken
      have effect : Effect contents _ _ label := effect_of_step taken
      exact ⟨sound.step effect, quiet.step effect (sound.step effect)⟩
  exact still.2.exists_mainStep still.1 unfinished answer

/-- A stopped worker stays as it is for the rest of the run. -/
theorem frozen_of_run {labels : List (HardShutdownLabel Task size Adder File)}
    (stopped : state.cancelled worker = .stopped)
    (ran : (hardShutdownSystem Task size Adder File routes contents).run labels state =
      some after) : state.Frozen after worker := by
  refine @System.Reachable.invariant _ _ _ (fun later => state.Frozen later worker) ?_ ?_ _
    (System.reachable_of_run ran)
  · rintro _ rfl
    exact ⟨stopped, rfl, rfl⟩
  · intro middle label later frozen taken
    have effect : Effect contents _ _ label := effect_of_step taken
    have next := effect.frozen frozen.stopped
    exact ⟨next.stopped, next.workers.trans frozen.workers, next.logger.trans frozen.logger⟩

/-! ### The main result -/

/-- A worker stopped in the logger leaves `log_mutex` locked. -/
theorem logMutex_of_stop {labels : List (HardShutdownLabel Task size Adder File)}
    (reached : (hardShutdownSystem Task size Adder File routes contents).Reachable state)
    (inLogger : (state.logger.places (.worker worker)).isCancellationPoint = true)
    (stops : state.stop worker = some moved)
    (ran : (hardShutdownSystem Task size Adder File routes contents).run labels moved =
      some after) :
    after.cancelled worker = .stopped ∧ after.logger.logMutex = some (.worker worker) := by
  have movedReached : (hardShutdownSystem Task size Adder File routes contents).Reachable moved :=
    @System.ReachableWhere.next _ _ _ _ _ _ (.stop worker) reached trivial stops
  have isStopped : moved.cancelled worker = .stopped ∧ moved.logger = state.logger := by
    obtain ⟨-, rfl⟩ := stop_cases stops
    exact ⟨Function.update_self _ _ _, rfl⟩
  have frozen := frozen_of_run isStopped.1 ran
  have inside : (after.logger.places (.worker worker)).isInside = true := by
    rw [frozen.logger, isStopped.2]
    cases at_ : state.logger.places (.worker worker) <;> rw [at_] at inLogger <;>
      first | rfl | cases inLogger
  exact ⟨frozen.stopped, (sound_of_reachable (movedReached.run ran)).exclusive.holder inside⟩

/--
Every run in which `thread_pool_destroy` has returned: no stopped worker holds a
lock and `logger_destroy` returns, exactly when no worker of the run was stopped in
`fprintf` or `fflush` of the logger.
-/
theorem hardShutdown_leavesNoLockHeld_iff {start : HardShutdown Task size Adder File}
    {labels : List (HardShutdownLabel Task size Adder File)}
    (isInitial : (hardShutdownSystem Task size Adder File routes contents).initial start)
    (ran : (hardShutdownSystem Task size Adder File routes contents).run labels start = some state)
    (returned : state.place.poolExists = false) :
    state.LeavesNoLockHeld ∧ LoggerDestroyReturns routes contents state ↔
      (hardShutdownSystem Task size Adder File routes contents).runWhere StopsOutsideLogger
        labels start = some state := by
  have started : (hardShutdownSystem Task size Adder File routes contents).Reachable start :=
    .start isInitial
  have reached := started.run ran
  constructor
  · rintro ⟨free, -⟩
    rcases System.runWhere_or_violation StopsOutsideLogger ran with met |
      ⟨earlier, label, next, rest, earlierReached, breaks, stepped, later⟩
    · exact met
    · exfalso
      rcases not_forall.mp breaks with ⟨worker, notElsewhere⟩
      rcases Classical.not_imp.mp notElsewhere with ⟨isStop, inLogger⟩
      cases label <;> cases isStop
      have held := logMutex_of_stop (System.Reachable.of_startingAt started earlierReached)
        (Bool.eq_true_of_not_eq_false inLogger) stepped later
      exact free.logMutex worker held.1 held.2
  · intro met
    have sound := sound_of_reachable reached
    have begun : (hardShutdownSystem Task size Adder File routes contents).ReachableWhere
        StopsOutsideLogger start := .start isInitial
    have elsewhere := stoppedElsewhere (begun.runWhere met)
    have outside : ∀ worker, state.cancelled worker = .stopped →
        ∃ result, state.logger.places (.worker worker) = .returned result := fun worker stopped =>
      sound.outsideLogger stopped (elsewhere worker stopped)
    refine ⟨⟨fun worker stopped => sound.poolLock stopped, fun worker stopped =>
      sound.logMutex_of_returned (outside worker stopped)⟩, Quiet.loggerDestroyReturns ?_ reached⟩
    have done : ∀ worker, state.Done worker := fun worker => by
      apply sound.joined worker
      cases at_ : state.place <;> rw [at_] at returned <;> first | rfl | cases returned
    refine ⟨returned, done, fun worker => ?_⟩
    rcases done worker with stopped | exited
    · exact outside worker stopped
    · exact sound.outside_of_exited exited

/-! ### A pool with one thread -/

def singleThread : PoolSize where
  currSize := 1
  positive := Nat.one_pos
  fits := by decide

def onlyWorker : singleThread.Worker := ⟨0, Nat.one_pos⟩

/-- The logger before `logger_init`. -/
def unopenedLogger : LoggerState (LoggingThread singleThread.Worker) Unit :=
  LoggerState.initial fun _ => []

/-- The system of `main` with one thread in the pool. -/
abbrev singleThreadSystem : System (HardShutdown ℕ singleThread Unit Unit)
    (HardShutdownLabel ℕ singleThread Unit Unit) :=
  hardShutdownSystem ℕ singleThread Unit Unit Routes.ofMain.dictionary fun _ => []

def calmAnswer : LibraryAnswer Unit where
  fopen := some ()
  localtime := documentedTime
  written := 0

/-- `main` cancels the worker, which is stopped, joins it and frees the pool. -/
def cancelAndJoin : List (HardShutdownLabel ℕ singleThread Unit Unit) :=
  List.replicate 3 (.main calmAnswer) ++ .stop onlyWorker :: List.replicate 5 (.main calmAnswer)

theorem begin_initial (count : ℕ) (bound : count ≤ semValueMax) :
    singleThreadSystem.initial (begin count unopenedLogger) :=
  ⟨count, bound, unopenedLogger, .start rfl, fun _ => ⟨none, rfl⟩, rfl⟩

/-- A worker that waits for work is stopped in `sem_wait`. -/
theorem waitingWorker_leavesNoLockHeld :
    ∃ state, singleThreadSystem.run cancelAndJoin (begin 0 unopenedLogger) = some state ∧
      state.LeavesNoLockHeld ∧
        LoggerDestroyReturns Routes.ofMain.dictionary (fun _ => []) state := by
  refine ⟨_, rfl, ?_⟩
  have ran : singleThreadSystem.run cancelAndJoin (begin 0 unopenedLogger) = some _ := rfl
  exact (hardShutdown_leavesNoLockHeld_iff (begin_initial 0 (Nat.zero_le _)) ran rfl).mpr rfl

/-- What `recv` leads to when the worker was not cancelled. -/
theorem step_recv {task : Task} {conn : ClientConnection} {arrival : Arrival}
    {outcome : TaskOutcome} (at_ : state.pool.workers worker = .work (some task) .recv)
    (uncancelled : state.cancelled worker = .none)
    (ran : threadTask routes arrival.env arrival.now conn arrival.result = some outcome) :
    (hardShutdownSystem Task size Adder File routes contents).step (.recv worker conn arrival)
        state = some
      { state with
        pool := state.pool.moveWorker worker
          (.work (some task) (.act outcome.actions outcome.closed)) } := by
  change state.workerMoves worker (state.recvStep routes worker conn arrival) = _
  have goesOn : state.mayGoOn worker = true := by
    rw [mayGoOn, uncancelled]
  have unchanged : Function.update state.cancelled worker
      (if state.cancelled worker = .atCurrent then .atNext else state.cancelled worker) =
        state.cancelled := by
    rw [if_neg (by simp [uncancelled]), Function.update_eq_self]
  have received : state.recvStep routes worker conn arrival = some
      { state with
        pool := state.pool.moveWorker worker
          (.work (some task) (.act outcome.actions outcome.closed)) } := by
    simp only [recvStep, at_, ran, Option.bind_some, ThreadPool.proceed, ofPool, Option.map_some]
  rw [workerMoves, if_pos goesOn, received, Option.map_some, unchanged]

/-- The request for a page that does not exist, as it arrives. -/
def missingPage : Arrival where
  result := .received (bytes "GET /a HTTP/1.1\r\n\r\n")
  env := idle
  now := 0

/-- It is answered with 404, and then it is logged. -/
theorem missingPage_actions : ∃ outcome,
    threadTask Routes.ofMain.dictionary missingPage.env missingPage.now freshConnection
        missingPage.result = some outcome ∧ outcome.actions = refuse idle pageRequest 404 := by
  rcases @threadTask_complete Routes.ofMain.dictionary idle 0 freshConnection rfl
    (bytes "GET /a HTTP/1.1\r\n\r\n") (by decide) (by decide) (by decide) (by decide) with
    ⟨buffer, isText, ran⟩
  refine ⟨_, ran, ?_⟩
  rw [actions_answerRequest, isText, Routes.dispatch_eq, if_pos (by decide)]
  exact handleFilesystemRequest_of_asksForFile pageRequest_asks idle

/-- `logger_init("server.log")` by `main`. -/
def openServerLog : List (LoggerLabel (LoggingThread singleThread.Worker) Unit) :=
  .loggerInit .main (some (bytes "server.log")) :: List.replicate 6 (.step .main calmAnswer)

/-- A task is added, and the worker takes it. -/
def takeTask : List (HardShutdownLabel ℕ singleThread Unit Unit) :=
  .addWork () 0 :: List.replicate 5 (.adder () 1) ++ List.replicate 9 (.worker onlyWorker)

/-- The worker answers and comes to the `fprintf` of the logger. -/
def comeToFprintf : List (HardShutdownLabel ℕ singleThread Unit Unit) :=
  List.replicate 3 (.act onlyWorker) ++ List.replicate 4 (.logging onlyWorker calmAnswer)

/-- The logger on `server.log`. -/
def serverLog : LoggerState (LoggingThread singleThread.Worker) Unit :=
  ((loggerSystem (LoggingThread singleThread.Worker) Unit fun _ => []).run openServerLog
    unopenedLogger).getD unopenedLogger

theorem begin_serverLog_initial : singleThreadSystem.initial (begin 0 serverLog) := by
  refine ⟨0, Nat.zero_le _, serverLog, ?_, ?_, rfl⟩
  · have opened : (loggerSystem (LoggingThread singleThread.Worker) Unit fun _ => []).run
        openServerLog unopenedLogger = some serverLog := rfl
    exact System.Reachable.run (.start rfl) opened
  · intro thread
    cases thread with
    | worker worker => exact ⟨none, rfl⟩
    | main => exact ⟨some 0, rfl⟩

/-- The worker has the task and is about to read. -/
def taskTaken : HardShutdown ℕ singleThread Unit Unit :=
  (singleThreadSystem.run takeTask (begin 0 serverLog)).getD (begin 0 serverLog)

/-- The worker has read the request for the missing page. -/
def pageAsked (closes : Bool) : HardShutdown ℕ singleThread Unit Unit :=
  { taskTaken with
    pool := taskTaken.pool.moveWorker onlyWorker
      (.work (some 0) (.act (refuse idle pageRequest 404) closes)) }

/-- A worker is stopped in the `fprintf` for its request. -/
theorem pageAsked_keepsLogMutex (closes : Bool) :
    ∃ state, singleThreadSystem.run (comeToFprintf ++ cancelAndJoin) (pageAsked closes) =
        some state ∧ state.place = .returned ∧ state.cancelled onlyWorker = .stopped ∧
          state.logger.logMutex = some (.worker onlyWorker) :=
  ⟨_, rfl, rfl, rfl, rfl⟩

/-- The lock of the logger may stay with a stopped worker. -/
theorem loggingWorker_keepsLogMutex :
    ¬∀ (start state : HardShutdown ℕ singleThread Unit Unit)
        (labels : List (HardShutdownLabel ℕ singleThread Unit Unit)),
        singleThreadSystem.initial start → singleThreadSystem.run labels start = some state →
        state.place.poolExists = false →
        state.LeavesNoLockHeld ∧
          LoggerDestroyReturns Routes.ofMain.dictionary (fun _ => []) state := by
  intro always
  rcases missingPage_actions with ⟨outcome, ran, actions⟩
  rcases pageAsked_keepsLogMutex outcome.closed with ⟨state, rest, returned, stopped, held⟩
  have received : singleThreadSystem.step (.recv onlyWorker freshConnection missingPage) taskTaken =
      some (pageAsked outcome.closed) := by
    rw [pageAsked, ← actions]
    exact step_recv rfl rfl ran
  have whole : singleThreadSystem.run
      (takeTask ++ .recv onlyWorker freshConnection missingPage :: (comeToFprintf ++ cancelAndJoin))
        (begin 0 serverLog) = some state := by
    have took : singleThreadSystem.run takeTask (begin 0 serverLog) = some taskTaken := rfl
    rw [System.run_append, took, Option.bind_some, System.run, received, Option.bind_some]
    exact rest
  have clean := always _ state _ begin_serverLog_initial whole (by rw [returned]; rfl)
  exact clean.1.logMutex onlyWorker stopped held

end HardShutdown

end LetUsConnect
