import LetUsConnect.Network.ThreadPool.Completion
import LetUsConnect.Network.ThreadPool.Termination

/-!
# Soft shutdown

The tasks a pool has when its destruction begins are each completed once. As long
as the destruction has not ended some step that brings the end closer can be
taken, and there are only so many of these.
-/

namespace LetUsConnect

universe u v

open Threads

namespace WorkerPlace

variable {Task : Type u} {Body : Type v}

/-- The places of a worker that has not been told to exit. -/
def stays : WorkerPlace Task Body → Bool
  | .unlockExit | .exited => false
  | _ => true

/-- The number of steps to the next `sem_wait` on the longest way. -/
def remaining : WorkerPlace Task Body → ℕ
  | .mutexLock => 15
  | .checkState => 14
  | .checkWork => 13
  | .popFirst => 12
  | .takeWork _ => 11
  | .countBusy _ => 10
  | .setBusy _ => 9
  | .unlockBusy _ => 8
  | .work _ _ => 7
  | .relock => 6
  | .recheckState => 5
  | .uncountBusy => 4
  | .setFree => 3
  | .unlockFree | .unlockIdle => 2
  | .semWait | .unlockExit => 1
  | .exited => 0

variable {place : WorkerPlace Task Body}

/-- Where a worker may be outside the lock. -/
theorem outside_cases (outside : place.locked = false) (active : place.hasExited = false) :
    place = .semWait ∨ place = .mutexLock ∨ place = .relock ∨
      ∃ task body, place = .work task body := by
  cases place <;> simp_all [locked, hasExited]

end WorkerPlace

namespace DestroyPlace

/-- `thread_pool_destroy` has returned. -/
def isOver : DestroyPlace → Bool
  | .returned | .routesDestroyed => true
  | _ => false

/-- An upper bound for the steps to come, where a post is as much as the steps it leads to. -/
def remaining (count : ℕ) : DestroyPlace → ℕ
  | .waitWork => 9 + 19 * count
  | .mutexLock => 8 + 19 * count
  | .terminate index => 7 + 18 * count + (count - index)
  | .unlock => 6 + 18 * count
  | .semPost index => 5 + 2 * count + 16 * (count - index)
  | .join index => 4 + 2 * (count - index)
  | .freeState index => 3 + 2 * (count - index)
  | .semClose => 3
  | .freeLock => 2
  | .returned => 1
  | .routesDestroyed => 0

theorem locks_cases {place : DestroyPlace} (locks : place.locks) :
    (∃ index, place = .terminate index) ∨ place = .unlock := by
  cases place <;> simp_all [DestroyPlace.locks]

end DestroyPlace

/-- Steps that bring the end closer: not the waiting, the work itself and signals. -/
def ShutdownLabel.works {Body : Type v} {size : PoolSize} : ShutdownLabel Body size → Bool
  | .worker _ | .finishWork _ | .destroy => true
  | _ => false

def ShutdownLabel.interrupts {Body : Type v} {size : PoolSize} : ShutdownLabel Body size → Bool
  | .interrupt _ => true
  | _ => false

namespace Shutdown

variable {Task : Type u} {Body : Type v} {size : PoolSize} {Adder : Type}
  {destroyer : Adder}
  {state after : Shutdown Task Body size Adder} {worker : size.Worker}

/-! ## The tasks -/

/-- The destruction touches no task, and what it has terminated stays so. -/
theorem destroyStep_frame (taken : state.destroyStep destroyer = some after) :
    after.pool.workers = state.pool.workers ∧ after.pool.queued = state.pool.queued ∧
      after.completed = state.completed ∧
      ∀ worker, state.pool.threadsStates worker = .terminated →
        after.pool.threadsStates worker = .terminated := by
  cases at_ : state.place <;> simp only [Shutdown.destroyStep, at_] at taken
  case terminate =>
    split at taken
    case h_1 worker _ =>
      cases taken
      refine ⟨rfl, rfl, rfl, ?_⟩
      intro other terminated
      change Function.update state.pool.threadsStates worker .terminated other = .terminated
      by_cases same : other = worker
      · rw [same, Function.update_self]
      · rw [Function.update_of_ne same, terminated]
    case h_2 =>
      cases taken
      exact ⟨rfl, rfl, rfl, fun _ => id⟩
  case waitWork | mutexLock =>
    split_ifs at taken
    cases taken
    exact ⟨rfl, rfl, rfl, fun _ => id⟩
  case semPost => split_ifs at taken <;> cases taken <;> exact ⟨rfl, rfl, rfl, fun _ => id⟩
  case join =>
    split at taken
    · split_ifs at taken
      cases taken
      exact ⟨rfl, rfl, rfl, fun _ => id⟩
    · cases taken
      exact ⟨rfl, rfl, rfl, fun _ => id⟩
  case freeState =>
    rcases Option.map_eq_some_iff.mp taken with ⟨worker, -, rfl⟩
    exact ⟨rfl, rfl, rfl, fun _ => id⟩
  case routesDestroyed => cases taken
  all_goals
    cases taken
    exact ⟨rfl, rfl, rfl, fun _ => id⟩

variable [Fintype Adder] [DecidableEq Adder] [Inhabited Body]

/-- No step writes over `TERMINATED`. -/
theorem Orderly.terminated_kept (orderly : state.Orderly destroyer)
    {label : ShutdownLabel Body size}
    (taken : (shutdownSystem Task Body size Adder destroyer).step label state = some after)
    (terminated : state.pool.threadsStates worker = .terminated) :
    after.pool.threadsStates worker = .terminated := by
  rcases pool_of_step taken with ⟨-, rfl⟩ | ⟨-, destroyed⟩ |
    ⟨move, mover, isMover, moved, place, freed⟩
  · exact terminated
  · exact (destroyStep_frame destroyed).2.2.2 worker terminated
  · cases isOpen : state.place.isOpen
    · have stops := ThreadPool.stops_of_step isMover (orderly.stops isOpen mover)
        (orderly.terminated isOpen) moved
      rw [stops.threadsStates]
      exact terminated
    · have delivers := ThreadPool.delivers_of_reachable (orderly.reachable isOpen)
      exact absurd terminated (delivers.running worker)

/-- How many of the tasks meant are completed, in a worker's hand or in the queue. -/
def count (isMeant : Task → Bool) (state : Shutdown Task Body size Adder) : ℕ :=
  state.completed.countP isMeant + total (heldCount WorkerPlace.held isMeant) state.pool.workers +
    state.pool.queued.countP isMeant

omit [Fintype Adder] [DecidableEq Adder] in
theorem workerStep_held {pool after : ThreadPool Task Body size.Worker Adder}
    (stops : (pool.workers worker).stops) (taken : pool.workerStep worker = some after) :
    ∃ place, after.workers = Function.update pool.workers worker place ∧
      place.held = (pool.workers worker).held ∧ after.queued = pool.queued := by
  cases at_ : pool.workers worker <;> rw [at_] at stops <;> try cases stops
  all_goals simp only [ThreadPool.workerStep, at_] at taken
  case semWait | mutexLock | relock =>
    split_ifs at taken
    cases taken
    exact ⟨_, rfl, rfl, rfl⟩
  case checkState | recheckState =>
    cases taken
    refine ⟨_, rfl, ?_, rfl⟩
    split_ifs <;> rfl
  case unlockExit =>
    cases taken
    exact ⟨_, rfl, rfl, rfl⟩
  case work | exited => cases taken

theorem Orderly.workerStep_count (orderly : state.Orderly destroyer)
    {pool : ThreadPool Task Body size.Worker Adder}
    (taken : state.pool.workerStep worker = some pool) (isMeant : Task → Bool) :
    count isMeant { state with pool := pool } = state.count isMeant := by
  have moved : ∃ place, pool.workers = Function.update state.pool.workers worker place ∧
      (place.held = (state.pool.workers worker).held ∧ pool.queued = state.pool.queued ∨
        ∃ task, (state.pool.workers worker).held = none ∧ place = .takeWork (some task) ∧
          state.pool.queued = task :: pool.queued) := by
    cases isOpen : state.place.isOpen
    · rcases workerStep_held (orderly.stops isOpen worker) taken with ⟨place, workers, held, queued⟩
      exact ⟨place, workers, Or.inl ⟨held, queued⟩⟩
    · have reached := orderly.reachable isOpen
      rcases ThreadPool.workerStep_handover (ThreadPool.delivers_of_reachable reached)
        (ThreadPool.lockSound_of_reachable reached) taken with ⟨place, workers, -, -, -, moved⟩
      exact ⟨place, workers, moved⟩
  rcases moved with ⟨place, workers, moved⟩
  have hands := ThreadPool.hands_add_queue moved isMeant
  simp only [count, workers]
  omega

theorem Orderly.count_step (orderly : state.Orderly destroyer) {label : ShutdownLabel Body size}
    (taken : (shutdownSystem Task Body size Adder destroyer).step label state = some after)
    (isMeant : Task → Bool) : after.count isMeant = state.count isMeant := by
  have moveSame : ∀ worker place, place.held = (state.pool.workers worker).held →
      count isMeant { state with pool := state.pool.moveWorker worker place } =
        state.count isMeant := by
    intro worker place held
    have counted := total_update (heldCount WorkerPlace.held isMeant) state.pool.workers worker
      place
    rw [heldCount, heldCount, held] at counted
    simp only [count, ThreadPool.workers_moveWorker, ThreadPool.queued_moveWorker]
    omega
  cases label with
  | spin =>
      change state.spin = some after at taken
      rw [Shutdown.spin] at taken
      split_ifs at taken
      cases taken
      rfl
  | destroy =>
      rcases destroyStep_frame taken with ⟨workers, queued, completed, -⟩
      rw [count, workers, queued, completed, count]
  | worker worker =>
      rcases Option.map_eq_some_iff.mp taken with ⟨pool, moved, rfl⟩
      exact orderly.workerStep_count moved isMeant
  | interrupt worker =>
      rcases Option.map_eq_some_iff.mp taken with ⟨pool, moved, rfl⟩
      rcases ThreadPool.interrupt_cases moved with ⟨at_, rfl⟩
      exact moveSame _ _ (by rw [at_]; rfl)
  | proceed worker body =>
      rcases Option.map_eq_some_iff.mp taken with ⟨pool, moved, rfl⟩
      cases at_ : state.pool.workers worker <;> simp only [ThreadPool.proceed, at_] at moved <;>
        cases moved
      exact moveSame _ _ (by rw [at_]; rfl)
  | finishWork worker =>
      rcases Option.map_eq_some_iff.mp taken with ⟨pool, moved, rfl⟩
      cases at_ : state.pool.workers worker <;> simp only [ThreadPool.finishWork, at_] at moved <;>
        cases moved
      have counted := total_update (heldCount WorkerPlace.held isMeant) state.pool.workers worker
        .relock
      have afterwards : heldCount WorkerPlace.held isMeant
          (WorkerPlace.relock : WorkerPlace Task Body) = 0 := rfl
      rw [heldCount, afterwards, at_] at counted
      simp only [count, ThreadPool.workers_moveWorker, ThreadPool.queued_moveWorker,
        List.countP_append]
      omega

/-! ## The way to the end -/

/-- How much is left to do; the work of a task counts as one step. -/
def remaining (state : Shutdown Task Body size Adder) : ℕ :=
  state.place.remaining size.currSize + 15 * state.pool.poolSem +
    total WorkerPlace.remaining state.pool.workers

omit [Fintype Adder] [DecidableEq Adder] in
theorem workerStep_remaining {pool after : ThreadPool Task Body size.Worker Adder}
    (taken : pool.workerStep worker = some after) :
    ∃ place, after.workers = Function.update pool.workers worker place ∧
      place.remaining + 15 * after.poolSem + 1 ≤
        (pool.workers worker).remaining + 15 * pool.poolSem := by
  cases at_ : pool.workers worker <;> simp only [ThreadPool.workerStep, at_] at taken
  case semWait =>
    split_ifs at taken with token
    cases taken
    refine ⟨_, rfl, ?_⟩
    simp only [WorkerPlace.remaining]
    omega
  case mutexLock | relock =>
    split_ifs at taken
    cases taken
    exact ⟨_, rfl, by simp only [WorkerPlace.remaining, ThreadPool.poolSem_moveWorker]; omega⟩
  case checkState | checkWork | recheckState =>
    cases taken
    refine ⟨_, rfl, ?_⟩
    split_ifs <;> simp only [WorkerPlace.remaining, ThreadPool.poolSem_moveWorker] <;> omega
  case popFirst =>
    rcases Option.map_eq_some_iff.mp taken with ⟨popped, -, rfl⟩
    exact ⟨_, rfl, by simp only [WorkerPlace.remaining, ThreadPool.poolSem_moveWorker]; omega⟩
  case work | exited => cases taken
  all_goals
    cases taken
    exact ⟨_, rfl, by simp only [WorkerPlace.remaining, ThreadPool.poolSem_moveWorker]; omega⟩

omit [Fintype Adder] [DecidableEq Adder] [Inhabited Body] in
theorem destroyStep_remaining (taken : state.destroyStep destroyer = some after) :
    after.remaining + 1 ≤ state.remaining := by
  cases at_ : state.place <;> simp only [Shutdown.destroyStep, at_] at taken
  case waitWork | mutexLock =>
    split_ifs at taken
    cases taken
    simp only [remaining, at_, Shutdown.goto, DestroyPlace.remaining]
    omega
  case terminate index =>
    split at taken
    case h_1 worker found =>
      have bound := (PoolSize.workerAt_eq_some found).2
      cases taken
      simp only [remaining, at_, Shutdown.goto, DestroyPlace.remaining]
      omega
    case h_2 =>
      cases taken
      simp only [remaining, at_, Shutdown.goto, DestroyPlace.remaining]
      omega
  case semPost index =>
    split_ifs at taken with more
    · have posted := ThreadPool.Delivers.semPost_cases state.pool.poolSem
      cases taken
      simp only [remaining, at_, Shutdown.goto, DestroyPlace.remaining]
      omega
    · cases taken
      simp only [remaining, at_, Shutdown.goto, DestroyPlace.remaining]
      omega
  case join index =>
    split at taken
    case h_1 =>
      split_ifs at taken
      cases taken
      simp only [remaining, at_, Shutdown.goto, DestroyPlace.remaining]
      omega
    case h_2 =>
      cases taken
      simp only [remaining, at_, Shutdown.goto, DestroyPlace.remaining]
      omega
  case freeState index =>
    rcases Option.map_eq_some_iff.mp taken with ⟨worker, found, rfl⟩
    have bound := (PoolSize.workerAt_eq_some found).2
    simp only [remaining, at_, Shutdown.goto, Shutdown.free, DestroyPlace.remaining]
    omega
  case routesDestroyed => cases taken
  all_goals
    cases taken
    simp only [remaining, at_, Shutdown.goto, Shutdown.free, DestroyPlace.remaining]
    omega

omit [Fintype Adder] in
theorem remaining_step {label : ShutdownLabel Body size}
    (taken : (shutdownSystem Task Body size Adder destroyer).step label state = some after) :
    after.remaining + label.works.toNat ≤ state.remaining + 14 * label.interrupts.toNat := by
  have moved : ∀ worker place,
      remaining { state with pool := state.pool.moveWorker worker place } +
        (state.pool.workers worker).remaining = state.remaining + place.remaining := by
    intro worker place
    have counted := total_update WorkerPlace.remaining state.pool.workers worker place
    simp only [remaining, ThreadPool.moveWorker]
    omega
  cases label with
  | spin =>
      change state.spin = some after at taken
      rw [Shutdown.spin] at taken
      split_ifs at taken
      cases taken
      exact le_rfl
  | destroy => exact destroyStep_remaining taken
  | worker worker =>
      rcases Option.map_eq_some_iff.mp taken with ⟨pool, stepped, rfl⟩
      rcases workerStep_remaining stepped with ⟨place, workers, less⟩
      have counted := total_update WorkerPlace.remaining state.pool.workers worker place
      simp only [remaining, workers, ShutdownLabel.works, ShutdownLabel.interrupts, Bool.toNat_true,
        Bool.toNat_false]
      omega
  | interrupt worker =>
      rcases Option.map_eq_some_iff.mp taken with ⟨pool, stepped, rfl⟩
      rcases ThreadPool.interrupt_cases stepped with ⟨at_, rfl⟩
      have counted := moved worker .mutexLock
      rw [at_] at counted
      simp only [WorkerPlace.remaining, ShutdownLabel.works, ShutdownLabel.interrupts,
        Bool.toNat_true, Bool.toNat_false] at counted ⊢
      omega
  | proceed worker body =>
      rcases Option.map_eq_some_iff.mp taken with ⟨pool, stepped, rfl⟩
      cases at_ : state.pool.workers worker <;> simp only [ThreadPool.proceed, at_] at stepped
      case work task before =>
        cases stepped
        have counted := moved worker (.work task body)
        rw [at_] at counted
        simp only [WorkerPlace.remaining, ShutdownLabel.works, ShutdownLabel.interrupts,
          Bool.toNat_false] at counted ⊢
        omega
      all_goals cases stepped
  | finishWork worker =>
      rcases Option.map_eq_some_iff.mp taken with ⟨pool, stepped, rfl⟩
      cases at_ : state.pool.workers worker <;>
        simp only [ThreadPool.finishWork, at_] at stepped <;> cases stepped
      have counted := moved worker .relock
      rw [at_] at counted
      simp only [remaining, WorkerPlace.remaining, ShutdownLabel.works, ShutdownLabel.interrupts,
        Bool.toNat_true, Bool.toNat_false] at counted ⊢
      omega

omit [Fintype Adder] in
/-- The number of steps that count is bounded by what was left and by the signals. -/
theorem remaining_run {labels : List (ShutdownLabel Body size)}
    (ran : (shutdownSystem Task Body size Adder destroyer).run labels state = some after) :
    labels.countP ShutdownLabel.works + after.remaining ≤
      state.remaining + 14 * labels.countP ShutdownLabel.interrupts := by
  induction labels generalizing state with
  | nil =>
      cases ran
      simp
  | cons label labels ih =>
      rw [Transition.System.run] at ran
      rcases Option.bind_eq_some_iff.mp ran with ⟨middle, taken, rest⟩
      have first := remaining_step taken
      have later := ih rest
      rw [List.countP_cons, List.countP_cons]
      cases works : label.works <;> cases interrupts : label.interrupts <;>
        rw [works, interrupts] at first <;>
        simp only [Bool.toNat_true, Bool.toNat_false] at first <;>
        simp <;> omega

/-! ## Nobody waits in vain -/

/-- A step that counts can be taken. -/
def Enabled (destroyer : Adder) (state : Shutdown Task Body size Adder) : Prop :=
  ∃ label : ShutdownLabel Body size, label.works ∧
    ((shutdownSystem Task Body size Adder destroyer).step label state).isSome

omit [Fintype Adder] in
theorem enabled_of_worker (worker : size.Worker) (takes : (state.pool.workerStep worker).isSome) :
    state.Enabled destroyer := by
  refine ⟨.worker worker, rfl, ?_⟩
  change (state.ofPool (state.pool.workerStep worker)).isSome
  rw [ofPool, Option.isSome_map]
  exact takes

omit [Fintype Adder] in
theorem enabled_of_destroy (takes : (state.destroyStep destroyer).isSome) :
    state.Enabled destroyer :=
  ⟨.destroy, rfl, takes⟩

omit [Fintype Adder] [DecidableEq Adder] in
theorem workerStep_stays {pool after : ThreadPool Task Body size.Worker Adder}
    (running : pool.threadsStates worker ≠ .terminated) (stays : (pool.workers worker).stays)
    (taken : pool.workerStep worker = some after) :
    ∃ place, after.workers = Function.update pool.workers worker place ∧ place.stays := by
  cases at_ : pool.workers worker <;> rw [at_] at stays <;> try cases stays
  all_goals simp only [ThreadPool.workerStep, at_] at taken
  case semWait | mutexLock | relock =>
    split_ifs at taken
    cases taken
    exact ⟨_, rfl, rfl⟩
  case checkState | recheckState =>
    rw [if_neg running] at taken
    cases taken
    exact ⟨_, rfl, rfl⟩
  case checkWork =>
    cases taken
    refine ⟨_, rfl, ?_⟩
    split_ifs <;> rfl
  case popFirst =>
    rcases Option.map_eq_some_iff.mp taken with ⟨popped, -, rfl⟩
    exact ⟨_, rfl, rfl⟩
  case work => cases taken
  all_goals
    cases taken
    exact ⟨_, rfl, rfl⟩

/-- As long as the pool is open no worker exits. -/
theorem stays_of_reachable {pool : ThreadPool Task Body size.Worker Adder}
    (reached : (poolSystem Task Body size.Worker Adder).Reachable pool) (worker : size.Worker) :
    (pool.workers worker).stays := by
  refine @Transition.System.ReachableWhere.invariant _ _ _ _ (fun pool => pool.Delivers)
    (fun pool => ∀ worker, (pool.workers worker).stays) ?_ ?_ ?_ pool reached worker
  · exact fun _ reached => ThreadPool.delivers_of_reachable reached
  · rintro pool ⟨count, -, rfl⟩ worker
    rfl
  · intro pool label after delivers stays _ taken
    have moves : ∀ worker place, place.stays →
        ∀ other, (Function.update pool.workers worker place other).stays := by
      intro worker place placeStays other
      by_cases same : other = worker
      · rwa [same, Function.update_self]
      · rw [Function.update_of_ne same]
        exact stays other
    cases label with
    | worker worker =>
        rcases workerStep_stays (delivers.running worker) (stays worker) taken with
          ⟨place, workers, placeStays⟩
        rw [workers]
        exact moves worker place placeStays
    | interrupt worker =>
        rcases ThreadPool.interrupt_cases taken with ⟨-, rfl⟩
        exact moves worker _ rfl
    | proceed worker body =>
        change ThreadPool.proceed worker body pool = some after at taken
        cases at_ : pool.workers worker <;> simp only [ThreadPool.proceed, at_] at taken <;>
          cases taken
        exact moves worker _ rfl
    | finishWork worker =>
        change ThreadPool.finishWork worker pool = some after at taken
        cases at_ : pool.workers worker <;> simp only [ThreadPool.finishWork, at_] at taken <;>
          cases taken
        exact moves worker _ rfl
    | addWork adder task =>
        rcases ThreadPool.addWork_cases taken with ⟨-, rfl⟩
        exact stays
    | adder adder newNode =>
        rcases ThreadPool.adderStep_moves taken with ⟨-, -, workers, -⟩
        rw [workers]
        exact stays

theorem Orderly.enabled_of_locked (orderly : state.Orderly destroyer)
    (locked : (state.pool.workers worker).locked) : state.Enabled destroyer := by
  apply enabled_of_worker worker
  cases at_ : state.pool.workers worker <;> rw [at_] at locked <;> try cases locked
  case popFirst =>
    cases isOpen : state.place.isOpen
    · have stops := orderly.stops isOpen worker
      rw [at_] at stops
      cases stops
    · have reached := orderly.reachable isOpen
      rcases (ThreadPool.delivers_of_reachable reached).pop
        (ThreadPool.lockSound_of_reachable reached) at_ with ⟨heap, queue, task, popped, -, -⟩
      simp [ThreadPool.workerStep, at_, popped]
  all_goals simp [ThreadPool.workerStep, at_]

/-- Whoever is inside the lock can go on. -/
theorem Orderly.enabled_of_held (orderly : state.Orderly destroyer)
    (held : state.pool.poolLock ≠ none) : state.Enabled destroyer := by
  rcases Option.ne_none_iff_exists'.mp held with ⟨thread, lock⟩
  have isInside := (orderly.exclusive thread).mpr lock
  cases thread with
  | worker worker => exact orderly.enabled_of_locked isInside
  | adder adder =>
      rw [inside, Bool.and_eq_true] at isInside
      apply enabled_of_destroy
      rcases DestroyPlace.locks_cases isInside.2 with ⟨index, at_⟩ | at_
      · simp only [Shutdown.destroyStep, at_]
        split <;> rfl
      · simp [Shutdown.destroyStep, at_]

/-- A worker can go on unless it has exited or sleeps without a token. -/
theorem Orderly.enabled_of_active (orderly : state.Orderly destroyer)
    (active : (state.pool.workers worker).hasExited = false)
    (token : state.pool.workers worker = .semWait → 0 < state.pool.poolSem) :
    state.Enabled destroyer := by
  by_cases free : state.pool.poolLock = none
  · have outside : (state.pool.workers worker).locked = false :=
      orderly.exclusive.outside free (.worker worker)
    rcases WorkerPlace.outside_cases outside active with at_ | at_ | at_ | ⟨task, body, at_⟩
    · exact enabled_of_worker worker (by simp [ThreadPool.workerStep, at_, token at_])
    · exact enabled_of_worker worker (by simp [ThreadPool.workerStep, at_, free])
    · exact enabled_of_worker worker (by simp [ThreadPool.workerStep, at_, free])
    · refine ⟨.finishWork worker, rfl, ?_⟩
      change (state.finishWork worker).isSome
      simp [Shutdown.finishWork, ThreadPool.finishWork, at_]
  · exact orderly.enabled_of_held free

omit [Fintype Adder] in
theorem Orderly.asleep_le_poolSem (orderly : state.Orderly destroyer) {index : ℕ}
    (at_ : state.place = .join index) (waits : state.pool.workers worker = .semWait) :
    0 < state.pool.poolSem := by
  have announced := orderly.announced (by rw [at_]; rfl)
  have counted := le_total WorkerPlace.asleep state.pool.workers worker
  rw [at_] at announced
  change _ ≤ state.pool.poolSem + 0 at announced
  rw [waits, WorkerPlace.asleep] at counted
  omega

/-- The loop that waits for the work to be taken does not wait in vain. -/
theorem Orderly.enabled_of_waitWork (orderly : state.Orderly destroyer)
    (at_ : state.place = .waitWork) : state.Enabled destroyer := by
  by_cases waits : 0 < state.pool.availableWork
  · have reached := orderly.reachable (by rw [at_]; rfl)
    have announced := (ThreadPool.delivers_of_reachable reached).announced
    have posted : total AdderPlace.unposted state.pool.adders = 0 := by
      apply total_eq_zero
      intro adder
      rcases orderly.quiet adder with ⟨result, returned⟩
      rw [returned]
      rfl
    have exits : ∀ worker, (state.pool.workers worker).hasExited = false := by
      intro worker
      have stays := stays_of_reachable reached worker
      cases at' : state.pool.workers worker <;> first | rfl | (rw [at'] at stays; cases stays)
    by_cases token : 0 < state.pool.poolSem
    · exact orderly.enabled_of_active (exits ⟨0, size.positive⟩) fun _ => token
    · have someAwake : total WorkerPlace.awake state.pool.workers ≠ 0 := by omega
      have exists_ : ∃ worker, (state.pool.workers worker).awake ≠ 0 := by
        by_contra none_
        push Not at none_
        exact someAwake (total_eq_zero none_)
      rcases exists_ with ⟨worker, awake⟩
      apply orderly.enabled_of_active (exits worker)
      intro asleep
      rw [asleep] at awake
      exact absurd rfl awake
  · apply enabled_of_destroy
    simp [Shutdown.destroyStep, at_, waits]

omit [Fintype Adder] in
theorem inRange_of_reachable
    (reached : (shutdownSystem Task Body size Adder destroyer).Reachable state) {index : ℕ}
    (at_ : state.place = .freeState index) : (size.workerAt index).isSome := by
  refine @Transition.System.Reachable.invariant _ _ _
    (fun state => ∀ index, state.place = .freeState index → (size.workerAt index).isSome) ?_ ?_
    state reached index at_
  · rintro state ⟨pool, -, -, rfl⟩ index at_
    cases at_
  · intro state label after inRange taken index at_
    rcases pool_of_step taken with ⟨-, rfl⟩ | ⟨-, destroyed⟩ | ⟨-, -, -, -, place, -⟩
    · exact inRange index at_
    · cases before : state.place <;> simp only [Shutdown.destroyStep, before] at destroyed
      case join other =>
        cases found : size.workerAt other with
        | none =>
            simp only [found] at destroyed
            cases destroyed
            cases at_
        | some worker =>
            simp only [found] at destroyed
            split_ifs at destroyed
            cases destroyed
            cases at_
            rw [found]
            rfl
      case terminate =>
        split at destroyed <;> cases destroyed <;> cases at_
      case freeState =>
        rcases Option.map_eq_some_iff.mp destroyed with ⟨worker, -, rfl⟩
        cases at_
      case waitWork | mutexLock | semPost =>
        split_ifs at destroyed <;> cases destroyed <;> cases at_
      case routesDestroyed => cases destroyed
      all_goals
        cases destroyed
        cases at_
    · exact inRange index (place.symm.trans at_)

/-- Until all is given back some step that counts can be taken. -/
theorem enabled_of_reachable
    (reached : (shutdownSystem Task Body size Adder destroyer).Reachable state)
    (unfinished : state.place ≠ .routesDestroyed) : state.Enabled destroyer := by
  have orderly := orderly_of_reachable reached
  cases at_ : state.place
  case waitWork => exact orderly.enabled_of_waitWork at_
  case mutexLock =>
    by_cases free : state.pool.poolLock = none
    · exact enabled_of_destroy (by simp [Shutdown.destroyStep, at_, free])
    · exact orderly.enabled_of_held free
  case join index =>
    cases found : size.workerAt index with
    | none => exact enabled_of_destroy (by simp [Shutdown.destroyStep, at_, found])
    | some worker =>
        cases hasExited : (state.pool.workers worker).hasExited
        · exact orderly.enabled_of_active hasExited (orderly.asleep_le_poolSem at_)
        · exact enabled_of_destroy (by simp [Shutdown.destroyStep, at_, found, hasExited])
  case freeState index =>
    apply enabled_of_destroy
    simp [Shutdown.destroyStep, at_, inRange_of_reachable reached at_]
  case terminate index =>
    apply enabled_of_destroy
    simp only [Shutdown.destroyStep, at_]
    split <;> rfl
  case semPost index =>
    apply enabled_of_destroy
    simp only [Shutdown.destroyStep, at_]
    split_ifs <;> rfl
  case routesDestroyed => exact absurd at_ unfinished
  all_goals exact enabled_of_destroy (by simp [Shutdown.destroyStep, at_])

/-! ## The shutdown as a whole -/

/-- The tasks that workers have taken and not finished. -/
def inHands (pool : ThreadPool Task Body size.Worker Adder) : List Task :=
  (List.finRange size.currSize).filterMap fun worker => (pool.workers worker).held

omit [Fintype Adder] [DecidableEq Adder] [Inhabited Body] in
/-- They are what the workers hold. -/
theorem inHands_perm (pool : ThreadPool Task Body size.Worker Adder) :
    (inHands pool).Perm (holdings WorkerPlace.held pool.workers) := by
  apply List.Perm.filterMap
  rw [List.perm_ext_iff_of_nodup (List.nodup_finRange _) (Finset.nodup_toList _)]
  simp

omit [Fintype Adder] [DecidableEq Adder] [Inhabited Body] in
theorem countP_inHands (pool : ThreadPool Task Body size.Worker Adder) (isMeant : Task → Bool) :
    (inHands pool).countP isMeant = total (heldCount WorkerPlace.held isMeant) pool.workers := by
  rw [(inHands_perm pool).countP_eq, countP_holdings]

/-- The tasks the pool had when the destruction began are where they should be, each once. -/
theorem tasks_of_run {pool : ThreadPool Task Body size.Worker Adder}
    {labels : List (ShutdownLabel Body size)} (start : (begin pool).Orderly destroyer)
    (ran : (shutdownSystem Task Body size Adder destroyer).run labels (begin pool) = some state) :
    (state.completed ++ inHands state.pool ++ state.pool.queued).Perm
      (inHands pool ++ pool.queued) := by
  have kept : ∀ isMeant, state.count isMeant = (begin pool).count isMeant := by
    intro isMeant
    have reached := Transition.System.reachable_of_run ran
    refine (@Transition.System.Reachable.invariant _ _ _
      (fun state => state.Orderly destroyer ∧ state.count isMeant = (begin pool).count isMeant)
      ?_ ?_ state reached).2
    · rintro state rfl
      exact ⟨start, rfl⟩
    · rintro state label after ⟨orderly, same⟩ taken
      exact ⟨orderly.step taken, (orderly.count_step taken isMeant).trans same⟩
  classical
  apply List.perm_iff_count.mpr
  intro task
  have counted := kept (· == task)
  rw [count, count, ← countP_inHands, ← countP_inHands] at counted
  simp only [List.count, List.countP_append]
  change _ = List.countP _ ([] : List Task) + _ + _ at counted
  rw [List.countP_nil, Nat.zero_add] at counted
  exact counted

/-- What holds in a state that a soft shutdown of a pool leads to. -/
structure Soft (destroyer : Adder) (start : ThreadPool Task Body size.Worker Adder)
    (labels : List (ShutdownLabel Body size)) (state : Shutdown Task Body size Adder) : Prop where
  once : (state.completed ++ inHands state.pool ++ state.pool.queued).Perm
    (inHands start ++ start.queued)
  completed : state.place.isOver → state.completed.Perm (inHands start ++ start.queued)
  terminated : ∀ label after worker,
    (shutdownSystem Task Body size Adder destroyer).step label state = some after →
      state.pool.threadsStates worker = .terminated → after.pool.threadsStates worker = .terminated
  awake : ∀ index worker, state.place = .join index → size.workerAt index = some worker →
    state.pool.workers worker = .semWait → 0 < state.pool.poolSem
  untouched : ∀ worker, ∀ resource ∈ (state.pool.workers worker).touches worker,
    state.freed resource = false
  rests : state.place.isOver → ∀ label, label ≠ .destroy →
    (shutdownSystem Task Body size Adder destroyer).step label state = none
  /-- The way to the end is never blocked, and it is bounded. -/
  enabled : state.place ≠ .routesDestroyed → state.Enabled destroyer
  bounded : labels.countP ShutdownLabel.works + state.remaining ≤
    (begin start).remaining + 14 * labels.countP ShutdownLabel.interrupts

omit [Fintype Adder] in
theorem Orderly.exited (orderly : state.Orderly destroyer) (ended : state.place.isOver)
    (worker : size.Worker) : state.pool.workers worker = .exited := by
  have hasExited : (state.pool.workers worker).hasExited := by
    apply orderly.joined worker
    cases at_ : state.place <;> rw [at_] at ended <;> first | rfl | cases ended
  cases at_ : state.pool.workers worker <;> rw [at_] at hasExited <;> first | rfl | cases hasExited

omit [Fintype Adder] in
theorem Orderly.untouched (orderly : state.Orderly destroyer) {resource : PoolResource size.Worker}
    (touches : resource ∈ (state.pool.workers worker).touches worker) :
    state.freed resource = false := by
  apply Bool.eq_false_iff.mpr
  intro freed
  have notExited : (state.pool.workers worker).hasExited = false := by
    apply Bool.eq_false_iff.mpr
    intro hasExited
    rw [WorkerPlace.touches_of_hasExited hasExited] at touches
    cases touches
  have exited : (state.pool.workers worker).hasExited := by
    cases resource with
    | state other =>
        have own := WorkerPlace.state_of_touches touches
        exact own ▸ orderly.freedState other freed
    | poolSem | poolLock | routes => exact orderly.freedShared _ freed nofun worker
  rw [notExited] at exited
  cases exited

omit [Fintype Adder] in
theorem Orderly.rests (orderly : state.Orderly destroyer) (ended : state.place.isOver)
    {label : ShutdownLabel Body size} (differs : label ≠ .destroy) :
    (shutdownSystem Task Body size Adder destroyer).step label state = none := by
  by_contra moves
  rcases Option.ne_none_iff_exists'.mp moves with ⟨after, taken⟩
  rcases pool_of_step taken with ⟨rfl, -⟩ | ⟨isDestroy, -⟩ | ⟨move, worker, isMover, moved, -, -⟩
  · change state.spin = some after at taken
    rw [Shutdown.spin] at taken
    split_ifs at taken with waits
    rw [waits.1] at ended
    cases ended
  · exact differs isDestroy
  · rcases ThreadPool.moves_of_step isMover moved with ⟨place, moves⟩
    have active := moves.active
    rw [orderly.exited ended worker] at active
    cases active

/--
A soft destruction of a pool that nobody adds to completes every task once,
overwrites no `TERMINATED`, never waits for a worker that sleeps without a token,
and leaves no worker behind when it returns.
-/
theorem soft_of_run {start : ThreadPool Task Body size.Worker Adder}
    {labels : List (ShutdownLabel Body size)}
    (reached : (poolSystem Task Body size.Worker Adder).Reachable start)
    (quiet : ∀ adder, ∃ result, start.adders adder = .returned result)
    (ran : (shutdownSystem Task Body size Adder destroyer).run labels (begin start) =
      some state) : state.Soft destroyer start labels := by
  have later : (shutdownSystem Task Body size Adder destroyer).Reachable state :=
    Transition.System.Reachable.run (.start ⟨start, reached, quiet, rfl⟩) ran
  have orderly := orderly_of_reachable later
  have once := tasks_of_run (orderly_begin reached quiet) ran
  refine ⟨once, ?_, ?_, ?_, ?_, ?_, enabled_of_reachable later, remaining_run ran⟩
  · intro ended
    have noHands : inHands state.pool = [] := by
      apply List.filterMap_eq_nil_iff.mpr
      intro worker _
      rw [orderly.exited ended worker]
      rfl
    have noQueue := orderly.emptied (by
      cases at_ : state.place <;> rw [at_] at ended <;> first | rfl | cases ended)
    rwa [noHands, noQueue, List.append_nil, List.append_nil] at once
  · exact fun label after worker taken terminated => orderly.terminated_kept taken terminated
  · exact fun index worker at_ _ waits => orderly.asleep_le_poolSem at_ waits
  · exact fun worker resource touches => orderly.untouched touches
  · exact fun ended label differs => orderly.rests ended differs

def twoWorkers : PoolSize where
  currSize := 2
  positive := by decide
  fits := by decide

/-- One task is queued; the first worker takes it, the second one sleeps. -/
def queuedPool : List (PoolLabel ℕ Unit twoWorkers.Worker Unit) :=
  [.addWork () 7] ++ List.replicate 5 (.adder () 100)

/-- The worker that works and the one that sleeps both see that they are to exit. -/
def shutdownRun : List (ShutdownLabel Unit twoWorkers) :=
  let working : twoWorkers.Worker := ⟨0, by decide⟩
  let asleep : twoWorkers.Worker := ⟨1, by decide⟩
  List.replicate 9 (.worker working) ++ List.replicate 9 .destroy ++ [.finishWork working] ++
    List.replicate 3 (.worker working) ++ List.replicate 4 (.worker asleep) ++
    List.replicate 8 .destroy

theorem shutdownRun_soft :
    ∃ start state, (poolSystem ℕ Unit twoWorkers.Worker Unit).run queuedPool
        (ThreadPool.threadPoolInit 0) = some start ∧ start.queued = [7] ∧
      (shutdownSystem ℕ Unit twoWorkers Unit ()).run shutdownRun (begin start) = some state ∧
      state.place = .routesDestroyed ∧ state.completed = [7] ∧
      state.Soft () start shutdownRun := by
  have initially : (poolSystem ℕ Unit twoWorkers.Worker Unit).initial
      (ThreadPool.threadPoolInit 0) := ⟨0, by decide, rfl⟩
  have queues : ((poolSystem ℕ Unit twoWorkers.Worker Unit).run queuedPool
      (ThreadPool.threadPoolInit 0)).map (fun pool => (pool.queued, pool.adders ())) =
      some ([7], .returned 0) := by decide +kernel
  have finishes : ((poolSystem ℕ Unit twoWorkers.Worker Unit).run queuedPool
      (ThreadPool.threadPoolInit 0)).bind (fun pool =>
        ((shutdownSystem ℕ Unit twoWorkers Unit ()).run shutdownRun (begin pool)).map
          fun state => (state.place, state.completed)) =
      some (.routesDestroyed, [7]) := by decide +kernel
  rcases Option.map_eq_some_iff.mp queues with ⟨start, ran, values⟩
  rw [ran, Option.bind_some] at finishes
  rcases Option.map_eq_some_iff.mp finishes with ⟨state, finished, results⟩
  have returned : ∀ adder, ∃ result, start.adders adder = .returned result :=
    fun _ => ⟨0, congrArg Prod.snd values⟩
  exact ⟨start, state, ran, congrArg Prod.fst values, finished, congrArg Prod.fst results,
    congrArg Prod.snd results,
    soft_of_run (Transition.System.Reachable.run (.start initially) ran) returned finished⟩

end Shutdown

end LetUsConnect
