import LetUsConnect.Network.ThreadPool.Shutdown

/-!
# The books of an open pool

Every task that `add_work` was called with is completed, in the hands of one worker,
in the queue or still offered. The places of the threads also say what
`busy_threads_num` and the cells of the workers must be.
-/

namespace LetUsConnect

universe u v

open Threads

namespace WorkerPlace

variable {Task : Type u} {Body : Type v}

/-- A worker that `busy_threads_num` counts. -/
def counted : WorkerPlace Task Body → ℕ
  | .setBusy _ | .unlockBusy _ | .work _ _ | .relock | .recheckState | .uncountBusy => 1
  | _ => 0

/-- What a worker has last written into its cell. -/
def cell : WorkerPlace Task Body → ThreadState
  | .unlockBusy _ | .work _ _ | .relock | .recheckState | .uncountBusy | .setFree => .busy
  | _ => .free

theorem counted_le_one (place : WorkerPlace Task Body) : place.counted ≤ 1 := by
  cases place <;> simp [counted]

theorem counted_of_not_locked {place : WorkerPlace Task Body} (outside : place.locked = false) :
    place.counted = if place.cell = .busy then 1 else 0 := by
  cases place <;> simp_all [locked, counted, cell]

end WorkerPlace

namespace ThreadPool

variable {Task : Type u} {Body : Type v} {size : PoolSize} {Adder : Type} [Fintype Adder]
  [DecidableEq Adder] [Inhabited Body] {pool after : ThreadPool Task Body size.Worker Adder}
  {worker : size.Worker} {label : PoolLabel Task Body size.Worker Adder}
  {labels : List (PoolLabel Task Body size.Worker Adder)}

/-! ## Every task is somewhere -/

/-- The tasks of the calls of `add_work` that have not yet put them into the queue. -/
noncomputable def offers (pool : ThreadPool Task Body size.Worker Adder) : List Task :=
  holdings AdderPlace.offered pool.adders

/-- Each task brought in a run is completed, in one worker's hand, in the queue or offered. -/
theorem tasks_perm_of_run {count : ℕ} (isCount : count ≤ semValueMax)
    (ran : (poolSystem Task Body size.Worker Adder).run labels (threadPoolInit count) =
      some pool) :
    (completed labels (threadPoolInit count) ++ Shutdown.inHands pool ++ pool.queued ++
      pool.offers).Perm (labels.filterMap PoolLabel.brought) := by
  have delivers := delivers_of_reachable (.run (.start ⟨count, isCount, rfl⟩) ran)
  have taken := (((Shutdown.inHands_perm pool).append_left
    (completed labels (threadPoolInit count))).trans (popped_perm_of_run isCount ran))
  have added := taken.append_right pool.queued
  rw [delivers.order] at added
  exact (added.append_right pool.offers).trans (added_perm_of_run ran)

/-! ## The number of busy workers -/

/-- `busy_threads_num` and the cells are what the places of the workers say. -/
structure Booked (pool : ThreadPool Task Body size.Worker Adder) : Prop where
  busy : pool.busyThreadsNum = total WorkerPlace.counted pool.workers
  cells : ∀ worker, pool.threadsStates worker = (pool.workers worker).cell

namespace Booked

omit [Fintype Adder] [DecidableEq Adder] [Inhabited Body] in
/-- One worker goes to a new place and writes what the place says. -/
theorem update (booked : pool.Booked) {place : WorkerPlace Task Body}
    (workers : after.workers = Function.update pool.workers worker place)
    (busy : after.busyThreadsNum + (pool.workers worker).counted =
      pool.busyThreadsNum + place.counted)
    (cells : after.threadsStates = Function.update pool.threadsStates worker place.cell) :
    after.Booked where
  busy := by
    have moved := total_update WorkerPlace.counted pool.workers worker place
    have before := booked.busy
    rw [workers]
    omega
  cells := by
    intro other
    rw [workers, cells]
    by_cases same : other = worker
    · rw [same, Function.update_self, Function.update_self]
    · rw [Function.update_of_ne same, Function.update_of_ne same]
      exact booked.cells other

omit [Fintype Adder] [DecidableEq Adder] [Inhabited Body] in
/-- Where neither is written the new place says the same as the old one. -/
theorem keep (booked : pool.Booked) {place : WorkerPlace Task Body}
    (workers : after.workers = Function.update pool.workers worker place)
    (busy : after.busyThreadsNum = pool.busyThreadsNum)
    (cells : after.threadsStates = pool.threadsStates)
    (counted : place.counted = (pool.workers worker).counted)
    (cell : place.cell = (pool.workers worker).cell) : after.Booked := by
  apply booked.update workers
  · rw [busy, counted]
  · rw [cells, cell, ← booked.cells worker, Function.update_eq_self]

omit [Fintype Adder] [DecidableEq Adder] in
theorem workerStep (booked : pool.Booked) (stays : (pool.workers worker).stays)
    (running : pool.threadsStates worker ≠ .terminated)
    (taken : workerStep worker pool = some after) : after.Booked := by
  cases at_ : pool.workers worker <;> rw [at_] at stays <;> try cases stays
  all_goals simp only [ThreadPool.workerStep, at_] at taken
  case semWait | mutexLock | relock =>
    split_ifs at taken
    cases taken
    exact booked.keep rfl rfl rfl (by rw [at_]; rfl) (by rw [at_]; rfl)
  case checkState | recheckState =>
    rw [if_neg running] at taken
    cases taken
    exact booked.keep rfl rfl rfl (by rw [at_]; rfl) (by rw [at_]; rfl)
  case checkWork =>
    cases taken
    refine booked.keep rfl rfl rfl ?_ ?_
    · rw [at_]
      split_ifs <;> rfl
    · rw [at_]
      split_ifs <;> rfl
  case popFirst =>
    rcases Option.map_eq_some_iff.mp taken with ⟨popped, -, rfl⟩
    exact booked.keep rfl rfl rfl (by rw [at_]; rfl) (by rw [at_]; rfl)
  case countBusy task =>
    cases taken
    refine booked.update rfl ?_ ?_
    · rw [at_]
      simp [WorkerPlace.counted]
    · have cell := booked.cells worker
      rw [at_] at cell
      exact (Function.update_eq_self_iff.mpr cell.symm).symm
  case uncountBusy =>
    cases taken
    refine booked.update rfl ?_ ?_
    · rw [at_]
      simp [WorkerPlace.counted]
    · have cell := booked.cells worker
      rw [at_] at cell
      exact (Function.update_eq_self_iff.mpr cell.symm).symm
  case setBusy | setFree =>
    cases taken
    exact booked.update rfl (by rw [at_]; rfl) rfl
  case work => cases taken
  all_goals
    cases taken
    exact booked.keep rfl rfl rfl (by rw [at_]; rfl) (by rw [at_]; rfl)

omit [Fintype Adder] [Inhabited Body] in
theorem adderStep (booked : pool.Booked) {adder : Adder} {newNode : Address}
    (taken : adderStep adder newNode pool = some after) : after.Booked := by
  have same : after.busyThreadsNum = pool.busyThreadsNum ∧
      after.threadsStates = pool.threadsStates := by
    cases at_ : pool.adders adder <;> simp only [ThreadPool.adderStep, at_] at taken
    case returned => cases taken
    case mutexLock | addWork =>
      split_ifs at taken
      cases taken
      exact ⟨rfl, rfl⟩
    case pushLast =>
      split_ifs at taken
      rcases Option.map_eq_some_iff.mp taken with ⟨pushed, -, rfl⟩
      exact ⟨rfl, rfl⟩
    case semPost | unlock =>
      cases taken
      exact ⟨rfl, rfl⟩
  rcases adderStep_moves taken with ⟨-, -, workers, -⟩
  exact ⟨by rw [same.1, workers]; exact booked.busy, by rw [same.2, workers]; exact booked.cells⟩

theorem step (booked : pool.Booked)
    (reached : (poolSystem Task Body size.Worker Adder).Reachable pool)
    (taken : (poolSystem Task Body size.Worker Adder).step label pool = some after) :
    after.Booked := by
  cases label with
  | worker worker =>
      exact booked.workerStep (Shutdown.stays_of_reachable reached worker)
        ((delivers_of_reachable reached).running worker) taken
  | interrupt worker =>
      rcases interrupt_cases taken with ⟨at_, rfl⟩
      exact booked.keep rfl rfl rfl (by rw [at_]; rfl) (by rw [at_]; rfl)
  | proceed worker body =>
      change proceed worker body pool = some after at taken
      cases at_ : pool.workers worker <;> simp only [proceed, at_] at taken <;> cases taken
      exact booked.keep rfl rfl rfl (by rw [at_]; rfl) (by rw [at_]; rfl)
  | finishWork worker =>
      change finishWork worker pool = some after at taken
      cases at_ : pool.workers worker <;> simp only [finishWork, at_] at taken <;> cases taken
      exact booked.keep rfl rfl rfl (by rw [at_]; rfl) (by rw [at_]; rfl)
  | addWork adder task =>
      rcases addWork_cases taken with ⟨-, rfl⟩
      exact ⟨booked.busy, booked.cells⟩
  | adder adder newNode => exact booked.adderStep taken

end Booked

theorem booked_of_reachable (reached : (poolSystem Task Body size.Worker Adder).Reachable pool) :
    pool.Booked := by
  refine Transition.System.ReachableWhere.invariant (fun _ reached => reached) ?_ ?_ reached
  · rintro pool ⟨count, -, rfl⟩
    refine ⟨?_, fun _ => rfl⟩
    have nobody : total WorkerPlace.counted
        (threadPoolInit count : ThreadPool Task Body size.Worker Adder).workers = 0 :=
      total_eq_zero fun _ => rfl
    rw [nobody]
    rfl
  · intro pool label after reached booked _ taken
    exact booked.step reached taken

omit [Fintype Adder] [DecidableEq Adder] [Inhabited Body] in
theorem Booked.outside (booked : pool.Booked) (sound : pool.LockSound)
    (free : pool.poolLock = none) : pool.busyThreadsNum =
      (Finset.univ.filter fun worker => pool.threadsStates worker = .busy).card := by
  rw [booked.busy, Finset.card_filter, total]
  congr 1
  apply Finset.sum_congr rfl
  intro worker _
  have out : (pool.workers worker).locked = false := Exclusive.outside sound free (.worker worker)
  rw [booked.cells worker, WorkerPlace.counted_of_not_locked out]

/-! ## What the lock guards -/

/-- The fields of the pool that `pool_lock` guards are as they were. -/
structure Undisturbed (pool after : ThreadPool Task Body size.Worker Adder) : Prop where
  availableWork : after.availableWork = pool.availableWork
  busyThreadsNum : after.busyThreadsNum = pool.busyThreadsNum
  threadsStates : after.threadsStates = pool.threadsStates
  queue : after.queue = pool.queue
  heap : after.heap = pool.heap

omit [Fintype Adder] [DecidableEq Adder] in
theorem undisturbed_workerStep (outside : (pool.workers worker).locked = false)
    (taken : workerStep worker pool = some after) : pool.Undisturbed after := by
  cases at_ : pool.workers worker <;> rw [at_] at outside <;> try cases outside
  all_goals simp only [workerStep, at_] at taken
  case semWait | mutexLock | relock =>
    split_ifs at taken
    cases taken
    exact ⟨rfl, rfl, rfl, rfl, rfl⟩
  case work | exited => cases taken

omit [Fintype Adder] [Inhabited Body] in
theorem undisturbed_adderStep {adder : Adder} {newNode : Address}
    (outside : (pool.adders adder).locked = false)
    (taken : adderStep adder newNode pool = some after) : pool.Undisturbed after := by
  cases at_ : pool.adders adder <;> rw [at_] at outside <;> try cases outside
  all_goals simp only [adderStep, at_] at taken
  case returned => cases taken
  case mutexLock =>
    split_ifs at taken
    cases taken
    exact ⟨rfl, rfl, rfl, rfl, rfl⟩

omit [Fintype Adder] in
/-- Only the thread that holds the lock changes what it guards. -/
theorem holder_of_step (sound : pool.LockSound)
    (taken : (poolSystem Task Body size.Worker Adder).step label pool = some after) :
    pool.Undisturbed after ∨
      (∃ worker, label = .worker worker ∧ pool.poolLock = some (.worker worker)) ∨
      ∃ adder newNode, label = .adder adder newNode ∧ pool.poolLock = some (.adder adder) := by
  cases label with
  | worker worker =>
      cases outside : (pool.workers worker).locked
      · exact Or.inl (undisturbed_workerStep outside taken)
      · exact Or.inr (Or.inl ⟨worker, rfl, (sound (.worker worker)).mp outside⟩)
  | interrupt worker =>
      rcases interrupt_cases taken with ⟨-, rfl⟩
      exact Or.inl ⟨rfl, rfl, rfl, rfl, rfl⟩
  | proceed worker body =>
      change proceed worker body pool = some after at taken
      cases at_ : pool.workers worker <;> simp only [proceed, at_] at taken <;> cases taken
      exact Or.inl ⟨rfl, rfl, rfl, rfl, rfl⟩
  | finishWork worker =>
      change finishWork worker pool = some after at taken
      cases at_ : pool.workers worker <;> simp only [finishWork, at_] at taken <;> cases taken
      exact Or.inl ⟨rfl, rfl, rfl, rfl, rfl⟩
  | addWork adder task =>
      rcases addWork_cases taken with ⟨-, rfl⟩
      exact Or.inl ⟨rfl, rfl, rfl, rfl, rfl⟩
  | adder adder newNode =>
      cases outside : (pool.adders adder).locked
      · exact Or.inl (undisturbed_adderStep outside taken)
      · exact Or.inr (Or.inr ⟨adder, newNode, rfl, (sound (.adder adder)).mp outside⟩)

/-! ## The books as a whole -/

/-- What holds at the end of a run of the pool from `thread_pool_init` on. -/
structure Accounted (start : ThreadPool Task Body size.Worker Adder)
    (labels : List (PoolLabel Task Body size.Worker Adder))
    (pool : ThreadPool Task Body size.Worker Adder) : Prop where
  tasks : (completed labels start ++ Shutdown.inHands pool ++ pool.queued ++ pool.offers).Perm
    (labels.filterMap PoolLabel.brought)
  order : pool.popped ++ pool.queued = pool.added
  busy : pool.busyThreadsNum = total WorkerPlace.counted pool.workers
  cells : ∀ worker, pool.threadsStates worker = (pool.workers worker).cell
  inRange : 0 ≤ pool.busyThreadsNum ∧ pool.busyThreadsNum ≤ size.currSize
  outside : pool.poolLock = none → pool.busyThreadsNum =
    (Finset.univ.filter fun worker => pool.threadsStates worker = .busy).card
  guarded : ∀ label after,
    (poolSystem Task Body size.Worker Adder).step label pool = some after →
    pool.Undisturbed after ∨
      (∃ worker, label = .worker worker ∧ pool.poolLock = some (.worker worker)) ∨
      ∃ adder newNode, label = .adder adder newNode ∧ pool.poolLock = some (.adder adder)

/-- No task is lost or doubled, and the shared fields say what the threads are doing. -/
theorem accounted_of_run {count : ℕ} (isCount : count ≤ semValueMax)
    (ran : (poolSystem Task Body size.Worker Adder).run labels (threadPoolInit count) =
      some pool) : Accounted (threadPoolInit count) labels pool := by
  have reached : (poolSystem Task Body size.Worker Adder).Reachable pool :=
    Transition.System.Reachable.run (.start ⟨count, isCount, rfl⟩) ran
  have sound := lockSound_of_reachable reached
  have booked := booked_of_reachable reached
  refine ⟨tasks_perm_of_run isCount ran, ?_, booked.busy, booked.cells, ?_, booked.outside sound,
    fun label after taken => holder_of_step sound taken⟩
  · rcases (delivers_of_reachable reached).recorded with ⟨nodes, -, order, -⟩
    rw [queued, ← order, List.drop_left]
  · have most : total WorkerPlace.counted pool.workers ≤ Fintype.card size.Worker :=
      total_le_card fun worker => WorkerPlace.counted_le_one _
    rw [Fintype.card_fin] at most
    rw [booked.busy]
    constructor
    · exact Int.natCast_nonneg _
    · exact_mod_cast most

def firstWorker : Shutdown.twoWorkers.Worker := (0 : Fin 2)

def secondWorker : Shutdown.twoWorkers.Worker := (1 : Fin 2)

/-- One task is completed, one is being worked on and one is in the queue. -/
def threeTasks : List (PoolLabel ℕ Unit Shutdown.twoWorkers.Worker Unit) :=
  let add task newNode := .addWork () task :: List.replicate 5 (.adder () newNode)
  add 7 100 ++ List.replicate 9 (.worker firstWorker) ++ add 8 101 ++
    [.finishWork firstWorker] ++ List.replicate 9 (.worker secondWorker) ++ add 9 102

theorem threeTasks_accounted :
    ∃ pool, (poolSystem ℕ Unit Shutdown.twoWorkers.Worker Unit).run threeTasks
        (threadPoolInit 0) = some pool ∧
      completed threeTasks (threadPoolInit 0) = [7] ∧ Shutdown.inHands pool = [8] ∧
      pool.queued = [9] ∧ pool.busyThreadsNum = 2 ∧
      Accounted (threadPoolInit 0) threeTasks pool := by
  have works : ((poolSystem ℕ Unit Shutdown.twoWorkers.Worker Unit).run threeTasks
      (threadPoolInit 0)).map (fun pool =>
        (Shutdown.inHands pool, pool.queued, pool.busyThreadsNum)) = some ([8], [9], 2) := by
    decide +kernel
  have isCompleted : completed threeTasks
      (threadPoolInit 0 : ThreadPool ℕ Unit Shutdown.twoWorkers.Worker Unit) = [7] := by
    decide +kernel
  rcases Option.map_eq_some_iff.mp works with ⟨pool, ran, values⟩
  rw [Prod.mk.injEq, Prod.mk.injEq] at values
  exact ⟨pool, ran, isCompleted, values.1, values.2.1, values.2.2,
    accounted_of_run (by decide) ran⟩

end ThreadPool

end LetUsConnect
