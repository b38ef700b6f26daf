import LetUsConnect.Network.ThreadPool.Delivery

/-!
# What becomes of the tasks

Every call of `add_work` brings one task, and the end of the work on a task
completes it. In between the task is offered by its adder, in the queue or in the
hands of one worker. The tasks that were taken from the queue are therefore those
completed and those in a worker's hands, and the tasks brought are those added to
the queue and those still offered.
-/

namespace LetUsConnect

universe u v

open Threads

namespace PoolLabel

variable {Task : Type u} {Body : Type v} {Worker Adder : Type}

/-- The task that a call of `add_work` brings. -/
def brought : PoolLabel Task Body Worker Adder → Option Task
  | .addWork _ task => some task
  | _ => none

/-- The task whose work a step ends. -/
def ended (pool : ThreadPool Task Body Worker Adder) :
    PoolLabel Task Body Worker Adder → Option Task
  | .finishWork ending => (pool.workers ending).held
  | _ => none

end PoolLabel

namespace ThreadPool

variable {Task : Type u} {Body : Type v} {Worker Adder : Type} [Fintype Worker]
  [DecidableEq Worker] [DecidableEq Adder] [Inhabited Body]
  {pool after : ThreadPool Task Body Worker Adder} {worker : Worker} {adder : Adder}
  {label : PoolLabel Task Body Worker Adder} {labels : List (PoolLabel Task Body Worker Adder)}

/-- The tasks completed in the course of a run, in the order in which their work ended. -/
def completed : List (PoolLabel Task Body Worker Adder) →
    ThreadPool Task Body Worker Adder → List Task
  | [], _ => []
  | label :: labels, pool =>
      (label.ended pool).toList ++
        (((poolSystem Task Body Worker Adder).step label pool).map
          (completed labels)).getD []

/-! ## From the queue into the hands of a worker -/

omit [Inhabited Body] in
/-- A worker that keeps what it holds or takes the first task leaves hands and queue alike. -/
theorem hands_add_queue {workers : Worker → WorkerPlace Task Body}
    {place : WorkerPlace Task Body} {queue later : List Task}
    (moved : place.held = (workers worker).held ∧ later = queue ∨
      ∃ task, (workers worker).held = none ∧ place = .takeWork (some task) ∧
        queue = task :: later) (isMeant : Task → Bool) :
    total (heldCount WorkerPlace.held isMeant) (Function.update workers worker place) +
        later.countP isMeant =
      total (heldCount WorkerPlace.held isMeant) workers + queue.countP isMeant := by
  have counted := total_update (heldCount WorkerPlace.held isMeant) workers worker place
  rcases moved with ⟨held, rfl⟩ | ⟨task, nothing, rfl, rfl⟩
  · rw [heldCount, heldCount, held] at counted
    omega
  · have before : heldCount WorkerPlace.held isMeant (workers worker) = 0 := by
      rw [heldCount, nothing]
      rfl
    have afterwards : heldCount WorkerPlace.held isMeant
        (WorkerPlace.takeWork (some task) : WorkerPlace Task Body) =
          if isMeant task then 1 else 0 := List.countP_singleton
    rw [List.countP_cons]
    omega

variable [Fintype Adder]

omit [DecidableEq Worker] [DecidableEq Adder] [Inhabited Body] in
theorem Delivers.order (delivers : pool.Delivers) : pool.popped ++ pool.queued = pool.added := by
  rcases delivers.recorded with ⟨nodes, -, order, -⟩
  rw [queued, ← order, List.drop_left]

omit [Fintype Worker] [Fintype Adder] [DecidableEq Adder] in
theorem added_workerStep (taken : workerStep worker pool = some after) :
    after.added = pool.added := by
  cases at_ : pool.workers worker <;> simp only [workerStep, at_] at taken
  case semWait | mutexLock | relock =>
    split_ifs at taken
    cases taken
    rfl
  case popFirst =>
    rcases Option.map_eq_some_iff.mp taken with ⟨popped, -, rfl⟩
    rfl
  case work | exited => cases taken
  all_goals
    cases taken
    rfl

omit [Fintype Worker] [Fintype Adder] [DecidableEq Worker] [Inhabited Body] in
theorem popped_adderStep {newNode : Address} (taken : adderStep adder newNode pool = some after) :
    after.popped = pool.popped := by
  cases at_ : pool.adders adder <;> simp only [adderStep, at_] at taken
  case returned => cases taken
  case mutexLock | addWork =>
    split_ifs at taken
    cases taken
    rfl
  case pushLast =>
    split_ifs at taken
    rcases Option.map_eq_some_iff.mp taken with ⟨pushed, -, rfl⟩
    rfl
  case semPost | unlock =>
    cases taken
    rfl

/-- What a step takes from the queue comes into a hand, and what it completes was in one. -/
theorem popped_step (delivers : pool.Delivers) (sound : pool.LockSound)
    (taken : (poolSystem Task Body Worker Adder).step label pool = some after)
    (isMeant : Task → Bool) :
    total (heldCount WorkerPlace.held isMeant) after.workers +
        (label.ended pool).toList.countP isMeant + pool.popped.countP isMeant =
      total (heldCount WorkerPlace.held isMeant) pool.workers + after.popped.countP isMeant := by
  cases label with
  | worker worker =>
      have before := congrArg (List.countP isMeant) delivers.order
      have afterwards := congrArg (List.countP isMeant) (delivers.step sound taken).order
      rcases workerStep_handover delivers sound taken with ⟨place, workers, -, -, -, moved⟩
      have hands := hands_add_queue moved isMeant
      rw [added_workerStep taken, ← before, List.countP_append, List.countP_append] at afterwards
      rw [workers]
      change _ + 0 + _ = _
      omega
  | interrupt worker =>
      rcases interrupt_cases taken with ⟨at_, rfl⟩
      have counted := total_update (heldCount WorkerPlace.held isMeant) pool.workers worker
        .mutexLock
      rw [at_] at counted
      exact congrArg (· + pool.popped.countP isMeant) counted
  | proceed worker body =>
      change proceed worker body pool = some after at taken
      cases at_ : pool.workers worker <;> simp only [proceed, at_] at taken
      case work task before =>
        cases taken
        have counted := total_update (heldCount WorkerPlace.held isMeant) pool.workers worker
          (.work task body)
        rw [at_] at counted
        exact congrArg (· + pool.popped.countP isMeant) (Nat.add_right_cancel counted)
      all_goals cases taken
  | finishWork worker =>
      change finishWork worker pool = some after at taken
      cases at_ : pool.workers worker <;> simp only [finishWork, at_] at taken <;> cases taken
      have counted := total_update (heldCount WorkerPlace.held isMeant) pool.workers worker .relock
      exact congrArg (· + pool.popped.countP isMeant) counted
  | addWork adder task =>
      rcases addWork_cases taken with ⟨-, rfl⟩
      rfl
  | adder adder newNode =>
      rcases adderStep_handover delivers taken with ⟨-, -, workers, -⟩
      rw [workers, popped_adderStep taken]
      rfl

theorem popped_run (reached : (poolSystem Task Body Worker Adder).Reachable pool)
    (ran : (poolSystem Task Body Worker Adder).run labels pool = some after)
    (isMeant : Task → Bool) :
    total (heldCount WorkerPlace.held isMeant) after.workers +
        (completed labels pool).countP isMeant + pool.popped.countP isMeant =
      total (heldCount WorkerPlace.held isMeant) pool.workers + after.popped.countP isMeant := by
  induction labels generalizing pool with
  | nil =>
      simp only [Transition.System.run, Option.some.injEq] at ran
      rw [ran]
      rfl
  | cons label labels ih =>
      rw [Transition.System.run] at ran
      rcases Option.bind_eq_some_iff.mp ran with ⟨middle, taken, rest⟩
      have first := popped_step (delivers_of_reachable reached) (lockSound_of_reachable reached)
        taken isMeant
      have later := ih (.next reached trivial taken) rest
      rw [completed, taken, Option.map_some, Option.getD_some, List.countP_append]
      omega

/-- The tasks taken in a run are those completed in it and those in the workers' hands. -/
theorem popped_perm_of_run {count : ℕ} (isCount : count ≤ semValueMax)
    (ran : (poolSystem Task Body Worker Adder).run labels (threadPoolInit count) = some pool) :
    (completed labels (threadPoolInit count) ++ holdings WorkerPlace.held pool.workers).Perm
      pool.popped := by
  classical
  apply List.perm_iff_count.mpr
  intro task
  have counted := popped_run (.start ⟨count, isCount, rfl⟩) ran (· == task)
  have noHands : total (heldCount WorkerPlace.held (· == task))
      (threadPoolInit count : ThreadPool Task Body Worker Adder).workers = 0 :=
    total_eq_zero fun _ => rfl
  have nothing : (threadPoolInit count : ThreadPool Task Body Worker Adder).popped = [] := rfl
  rw [noHands, nothing, List.countP_nil] at counted
  simp only [List.count, List.countP_append, countP_holdings]
  omega

/-! ## From the caller of `add_work` into the queue -/

omit [Fintype Worker] in
/-- What a step adds to the queue was offered, and what it brings is. -/
theorem added_step (taken : (poolSystem Task Body Worker Adder).step label pool = some after)
    (isMeant : Task → Bool) :
    total (heldCount AdderPlace.offered isMeant) after.adders + after.added.countP isMeant =
      total (heldCount AdderPlace.offered isMeant) pool.adders + pool.added.countP isMeant +
        label.brought.toList.countP isMeant := by
  cases label with
  | worker worker =>
      rcases workerStep_moves taken with ⟨-, -, adders, -⟩
      rw [adders, added_workerStep taken]
      rfl
  | interrupt worker =>
      rcases interrupt_cases taken with ⟨-, rfl⟩
      rfl
  | proceed worker body =>
      change proceed worker body pool = some after at taken
      cases at_ : pool.workers worker <;> simp only [proceed, at_] at taken <;> cases taken
      rfl
  | finishWork worker =>
      change finishWork worker pool = some after at taken
      cases at_ : pool.workers worker <;> simp only [finishWork, at_] at taken <;> cases taken
      rfl
  | addWork adder task =>
      rcases addWork_cases taken with ⟨nothing, rfl⟩
      have counted := total_update (heldCount AdderPlace.offered isMeant) pool.adders adder
        (.mutexLock task)
      rw [heldCount, nothing] at counted
      change total _ (Function.update pool.adders adder (.mutexLock task)) +
        pool.added.countP isMeant = _ + _ + heldCount AdderPlace.offered isMeant (.mutexLock task)
      change _ + 0 = _ at counted
      omega
  | adder adder newNode =>
      change adderStep adder newNode pool = some after at taken
      have kept : ∀ place : AdderPlace Task, place.offered = (pool.adders adder).offered →
          total (heldCount AdderPlace.offered isMeant) (Function.update pool.adders adder place) =
            total (heldCount AdderPlace.offered isMeant) pool.adders := by
        intro place offered
        have counted := total_update (heldCount AdderPlace.offered isMeant) pool.adders adder place
        rw [heldCount, heldCount, offered] at counted
        exact Nat.add_right_cancel counted
      cases at_ : pool.adders adder <;> simp only [adderStep, at_] at taken
      case returned => cases taken
      case mutexLock | addWork =>
        split_ifs at taken
        cases taken
        exact congrArg (· + pool.added.countP isMeant) (kept _ (by rw [at_]; rfl))
      case pushLast task =>
        split_ifs at taken
        rcases Option.map_eq_some_iff.mp taken with ⟨pushed, -, rfl⟩
        have counted := total_update (heldCount AdderPlace.offered isMeant) pool.adders adder
          .addWork
        have offered : heldCount AdderPlace.offered isMeant (pool.adders adder) =
            if isMeant task then 1 else 0 := by
          rw [heldCount, at_]
          exact List.countP_singleton
        change total _ (Function.update pool.adders adder .addWork) +
          (pool.added ++ [task]).countP isMeant = _ + _ + 0
        change _ = _ + 0 at counted
        rw [List.countP_append, List.countP_singleton]
        omega
      case semPost | unlock =>
        cases taken
        exact congrArg (· + pool.added.countP isMeant) (kept _ (by rw [at_]; rfl))

omit [Fintype Worker] in
theorem added_run (ran : (poolSystem Task Body Worker Adder).run labels pool = some after)
    (isMeant : Task → Bool) :
    total (heldCount AdderPlace.offered isMeant) after.adders + after.added.countP isMeant =
      total (heldCount AdderPlace.offered isMeant) pool.adders + pool.added.countP isMeant +
        (labels.filterMap PoolLabel.brought).countP isMeant := by
  induction labels generalizing pool with
  | nil =>
      simp only [Transition.System.run, Option.some.injEq] at ran
      rw [ran]
      rfl
  | cons label labels ih =>
      rw [Transition.System.run] at ran
      rcases Option.bind_eq_some_iff.mp ran with ⟨middle, taken, rest⟩
      have first := added_step taken isMeant
      have later := ih rest
      have brings : ((label :: labels).filterMap PoolLabel.brought).countP isMeant =
          label.brought.toList.countP isMeant +
            (labels.filterMap PoolLabel.brought).countP isMeant := by
        cases brought : label.brought <;> simp [brought, List.countP_cons, add_comm]
      omega

omit [Fintype Worker] in
/-- The tasks brought in a run are those added to the queue and those still offered. -/
theorem added_perm_of_run {count : ℕ}
    (ran : (poolSystem Task Body Worker Adder).run labels (threadPoolInit count) = some pool) :
    (pool.added ++ holdings AdderPlace.offered pool.adders).Perm
      (labels.filterMap PoolLabel.brought) := by
  classical
  apply List.perm_iff_count.mpr
  intro task
  have counted := added_run ran (· == task)
  have noOffers : total (heldCount AdderPlace.offered (· == task))
      (threadPoolInit count : ThreadPool Task Body Worker Adder).adders = 0 :=
    total_eq_zero fun _ => rfl
  have nothing : (threadPoolInit count : ThreadPool Task Body Worker Adder).added = [] := rfl
  rw [noOffers, nothing, List.countP_nil] at counted
  simp only [List.count, List.countP_append, countP_holdings]
  omega

/-! ## The delivery as a whole -/

/--
Work that was added is delivered. The tasks taken from the queue in a run are those
completed in it and those in the hands of the workers.
-/
theorem work_delivered (reached : (poolSystem Task Body Worker Adder).Reachable pool) :
    (pool.poolLock = none →
      (∃ nodes, IsQueue pool.heap pool.queue nodes ∧ pool.queue.size = nodes.length ∧
        pool.availableWork = pool.queue.size ∧ pool.popped ++ nodes.map Prod.snd = pool.added) ∧
      pool.availableWork ≤ pool.poolSem + pool.undecided ∧
      ¬ pool.Stranded) ∧
    (pool.Stranded → ∃ adder, pool.adders adder = .addWork ∨ pool.adders adder = .semPost) ∧
    ∀ count ≤ semValueMax, ∀ labels,
      (poolSystem Task Body Worker Adder).run labels (threadPoolInit count) = some pool →
      (completed labels (threadPoolInit count) ++ holdings WorkerPlace.held pool.workers).Perm
        pool.popped := by
  have sound := lockSound_of_reachable reached
  have delivers := delivers_of_reachable reached
  refine ⟨?_, delivers.adder_of_stranded, fun count isCount labels => popped_perm_of_run isCount⟩
  intro free
  rcases delivers.outside sound free with ⟨recorded, announced⟩
  refine ⟨recorded, announced, ?_⟩
  intro stranded
  rcases delivers.adder_of_stranded stranded with ⟨adder, place⟩
  have out := Exclusive.outside sound free (.adder adder)
  rcases place with place | place <;> simp [inside, place, AdderPlace.locked] at out

/-- A call of `add_work`, and the worker it wakes up to the work itself. -/
def oneTaskRun : List (PoolLabel ℕ Unit (Fin 1) (Fin 1)) :=
  [.addWork 0 7] ++ List.replicate 5 (.adder 0 100) ++ List.replicate 9 (.worker 0)

theorem oneTask_delivered :
    ∃ pool : ThreadPool ℕ Unit (Fin 1) (Fin 1),
      (poolSystem ℕ Unit (Fin 1) (Fin 1)).run oneTaskRun (threadPoolInit 3) = some pool ∧
      pool.workers 0 = .work (some 7) () ∧
      (pool.poolLock = none →
        (∃ nodes, IsQueue pool.heap pool.queue nodes ∧ pool.queue.size = nodes.length ∧
          pool.availableWork = pool.queue.size ∧ pool.popped ++ nodes.map Prod.snd = pool.added) ∧
        pool.availableWork ≤ pool.poolSem + pool.undecided ∧
        ¬ pool.Stranded) ∧
      (pool.Stranded → ∃ adder, pool.adders adder = .addWork ∨ pool.adders adder = .semPost) ∧
      (completed oneTaskRun (threadPoolInit 3) ++ holdings WorkerPlace.held pool.workers).Perm
        pool.popped := by
  have initially : (poolSystem ℕ Unit (Fin 1) (Fin 1)).initial (threadPoolInit 3) :=
    ⟨3, by decide, rfl⟩
  have works : ((poolSystem ℕ Unit (Fin 1) (Fin 1)).run oneTaskRun (threadPoolInit 3)).map
      (fun pool => pool.workers 0) = some (.work (some 7) ()) := by decide
  rcases Option.map_eq_some_iff.mp works with ⟨pool, ran, place⟩
  have delivered := work_delivered (Transition.System.Reachable.run (.start initially) ran)
  exact ⟨pool, ran, place, delivered.1, delivered.2.1,
    delivered.2.2 3 (by decide) oneTaskRun ran⟩

end ThreadPool

end LetUsConnect
