import LetUsConnect.Network.ThreadPool.Accounts

/-!
# The pool comes to rest

A worker takes a bounded number of steps for each token of the semaphore, and a
call of `add_work` posts one. So the steps of a run are paid by the calls, the
signals and the tokens there were at the start, and no worker spins. Once no call
is under way, some worker can go on until all of them sleep, no token is left and
every task has been completed.
-/

namespace LetUsConnect

universe u v

open Threads

/-- The number of steps to the end of the call, where a post is the steps it leads to. -/
def AdderPlace.remaining {Task : Type u} : AdderPlace Task → ℕ
  | .mutexLock _ => 20
  | .pushLast _ => 19
  | .addWork => 18
  | .semPost => 17
  | .unlock => 1
  | .returned _ => 0

theorem WorkerPlace.remaining_pos {Task : Type u} {Body : Type v} {place : WorkerPlace Task Body}
    (stays : place.stays) : 0 < place.remaining := by
  cases place <;> simp_all [WorkerPlace.stays, WorkerPlace.remaining]

namespace PoolLabel

variable {Task : Type u} {Body : Type v} {Worker Adder : Type}

/-- A step of the pool itself, and not of the work it does. -/
def ofPool : PoolLabel Task Body Worker Adder → Bool
  | .proceed _ _ => false
  | _ => true

def adds : PoolLabel Task Body Worker Adder → Bool
  | .addWork _ _ => true
  | _ => false

def interrupts : PoolLabel Task Body Worker Adder → Bool
  | .interrupt _ => true
  | _ => false

/-- A step that a worker takes by itself, its work going to an end. -/
def advances : PoolLabel Task Body Worker Adder → Bool
  | .worker _ | .finishWork _ => true
  | _ => false

def income (label : PoolLabel Task Body Worker Adder) : ℕ :=
  21 * label.adds.toNat + 15 * label.interrupts.toNat

end PoolLabel

namespace ThreadPool

variable {Task : Type u} {Body : Type v} {size : PoolSize} {Adder : Type} [Fintype Adder]
  {pool after : ThreadPool Task Body size.Worker Adder}
  {worker : size.Worker} {label : PoolLabel Task Body size.Worker Adder}
  {labels : List (PoolLabel Task Body size.Worker Adder)}

/-! ## The steps of a run are paid for -/

/-- How much is left to do, where the work of a task counts as one step. -/
def remaining (pool : ThreadPool Task Body size.Worker Adder) : ℕ :=
  15 * pool.poolSem + total WorkerPlace.remaining pool.workers +
    total AdderPlace.remaining pool.adders

theorem remaining_moveWorker (worker : size.Worker) (place : WorkerPlace Task Body)
    (pool : ThreadPool Task Body size.Worker Adder) :
    (pool.moveWorker worker place).remaining + (pool.workers worker).remaining =
      pool.remaining + place.remaining := by
  have counted := total_update WorkerPlace.remaining pool.workers worker place
  simp only [remaining, workers_moveWorker, adders_moveWorker, poolSem_moveWorker]
  omega

variable [DecidableEq Adder]

omit [Fintype Adder] in
theorem adderStep_remaining {adder : Adder} {newNode : Address}
    (taken : adderStep adder newNode pool = some after) :
    ∃ place, after.adders = Function.update pool.adders adder place ∧
      after.workers = pool.workers ∧
      place.remaining + 15 * after.poolSem + 1 ≤
        (pool.adders adder).remaining + 15 * pool.poolSem := by
  cases at_ : pool.adders adder <;> simp only [adderStep, at_] at taken
  case returned => cases taken
  case mutexLock | addWork =>
    split_ifs at taken
    cases taken
    refine ⟨_, rfl, rfl, ?_⟩
    simp only [AdderPlace.remaining]
    exact (Nat.add_right_comm _ _ _).le
  case pushLast =>
    split_ifs at taken
    rcases Option.map_eq_some_iff.mp taken with ⟨pushed, -, rfl⟩
    refine ⟨_, rfl, rfl, ?_⟩
    simp only [AdderPlace.remaining]
    exact (Nat.add_right_comm _ _ _).le
  case semPost =>
    cases taken
    refine ⟨_, rfl, rfl, ?_⟩
    simp only [AdderPlace.remaining]
    rcases Delivers.semPost_cases pool.poolSem with posted | ⟨-, posted⟩ <;> omega
  case unlock =>
    cases taken
    refine ⟨_, rfl, rfl, ?_⟩
    simp only [AdderPlace.remaining]
    exact (Nat.add_right_comm _ _ _).le

variable [Inhabited Body]

theorem remaining_step
    (taken : (poolSystem Task Body size.Worker Adder).step label pool = some after) :
    after.remaining + label.ofPool.toNat ≤ pool.remaining + label.income := by
  cases label with
  | worker worker =>
      rcases workerStep_moves taken with ⟨-, -, adders, -⟩
      rcases Shutdown.workerStep_remaining taken with ⟨place, workers, less⟩
      have counted := total_update WorkerPlace.remaining pool.workers worker place
      simp only [remaining, workers, adders, PoolLabel.ofPool, Bool.toNat_true]
      omega
  | interrupt worker =>
      rcases interrupt_cases taken with ⟨at_, rfl⟩
      have counted := remaining_moveWorker worker .mutexLock pool
      rw [at_] at counted
      simp only [WorkerPlace.remaining, PoolLabel.income, PoolLabel.ofPool,
        PoolLabel.adds, PoolLabel.interrupts, Bool.toNat_true, Bool.toNat_false] at counted ⊢
      omega
  | proceed worker body =>
      change proceed worker body pool = some after at taken
      cases at_ : pool.workers worker <;> simp only [proceed, at_] at taken
      case work task before =>
        cases taken
        have counted := remaining_moveWorker worker (.work task body) pool
        rw [at_] at counted
        exact (Nat.add_right_cancel counted).le
      all_goals cases taken
  | finishWork worker =>
      change finishWork worker pool = some after at taken
      cases at_ : pool.workers worker <;> simp only [finishWork, at_] at taken <;> cases taken
      have counted := remaining_moveWorker worker .relock pool
      rw [at_] at counted
      simp only [WorkerPlace.remaining, PoolLabel.income, PoolLabel.ofPool,
        PoolLabel.adds, PoolLabel.interrupts, Bool.toNat_true, Bool.toNat_false] at counted ⊢
      omega
  | addWork adder task =>
      change addWork adder task pool = some after at taken
      cases at_ : pool.adders adder <;> simp only [addWork, at_] at taken <;> cases taken
      have counted := total_update AdderPlace.remaining pool.adders adder (.mutexLock task)
      rw [at_] at counted
      simp only [remaining, workers_moveAdder, adders_moveAdder, AdderPlace.remaining,
        PoolLabel.income, PoolLabel.ofPool, PoolLabel.adds, PoolLabel.interrupts,
        Bool.toNat_true, Bool.toNat_false] at counted ⊢
      change 15 * pool.poolSem + _ + _ + 1 ≤ _
      omega
  | adder adder newNode =>
      rcases adderStep_remaining taken with ⟨place, adders, workers, less⟩
      have counted := total_update AdderPlace.remaining pool.adders adder place
      simp only [remaining, workers, adders, PoolLabel.ofPool, Bool.toNat_true]
      omega

omit [DecidableEq Adder] [Inhabited Body] in
/-- The workers that sleep still have their first step to take. -/
theorem size_le_remaining (stays : ∀ worker, (pool.workers worker).stays) :
    size.currSize + 15 * pool.poolSem ≤ pool.remaining := by
  have most : ∑ _worker : size.Worker, 1 ≤ total WorkerPlace.remaining pool.workers :=
    Finset.sum_le_sum fun worker _ => WorkerPlace.remaining_pos (stays worker)
  rw [← Finset.card_eq_sum_ones, Finset.card_univ, Fintype.card_fin] at most
  rw [remaining]
  omega

omit [DecidableEq Adder] [Inhabited Body] in
theorem remaining_init (count : ℕ) :
    (threadPoolInit count : ThreadPool Task Body size.Worker Adder).remaining =
      15 * count + size.currSize := by
  have workers : total WorkerPlace.remaining
      (threadPoolInit count : ThreadPool Task Body size.Worker Adder).workers = size.currSize := by
    change ∑ _worker : size.Worker, 1 = size.currSize
    rw [← Finset.card_eq_sum_ones, Finset.card_univ, Fintype.card_fin]
  have adders : total AdderPlace.remaining
      (threadPoolInit count : ThreadPool Task Body size.Worker Adder).adders = 0 :=
    total_eq_zero fun _ => rfl
  rw [remaining, workers, adders]
  rfl

omit [Fintype Adder] [DecidableEq Adder] [Inhabited Body] in
theorem sum_income (labels : List (PoolLabel Task Body size.Worker Adder)) :
    (labels.map PoolLabel.income).sum =
      21 * labels.countP PoolLabel.adds + 15 * labels.countP PoolLabel.interrupts := by
  induction labels with
  | nil => rfl
  | cons label labels ih =>
      rw [List.map_cons, List.sum_cons, List.countP_cons, List.countP_cons, ih, PoolLabel.income]
      cases label.adds <;> cases label.interrupts <;> simp <;> omega

/-- The pool does not spin: what it does is paid by calls, signals and initial tokens. -/
theorem steps_le_of_run {count : ℕ} (isCount : count ≤ semValueMax)
    (ran : (poolSystem Task Body size.Worker Adder).run labels (threadPoolInit count) =
      some pool) :
    labels.countP PoolLabel.ofPool + 15 * pool.poolSem ≤
      15 * count + 21 * labels.countP PoolLabel.adds + 15 * labels.countP PoolLabel.interrupts := by
  have paid := Transition.System.cost_le_of_run (fun _ _ _ => remaining_step) ran
  have reached : (poolSystem Task Body size.Worker Adder).Reachable pool :=
    Transition.System.Reachable.run (.start ⟨count, isCount, rfl⟩) ran
  have least := size_le_remaining (Shutdown.stays_of_reachable reached)
  rw [Transition.System.sum_map_toNat, sum_income, remaining_init] at paid
  omega

/-! ## Some worker goes on until all sleep -/

/-- Every worker sleeps, no token is left and no call of `add_work` is under way. -/
structure Resting (pool : ThreadPool Task Body size.Worker Adder) : Prop where
  asleep : ∀ worker, pool.workers worker = .semWait
  noToken : pool.poolSem = 0
  quiet : ∀ adder, ∃ result, pool.adders adder = .returned result

/-- A worker can go on by itself. -/
def Advances (pool : ThreadPool Task Body size.Worker Adder) : Prop :=
  ∃ label : PoolLabel Task Body size.Worker Adder, label.advances ∧
    ((poolSystem Task Body size.Worker Adder).step label pool).isSome

omit [Fintype Adder] in
theorem advances_of_worker (worker : size.Worker) (takes : (workerStep worker pool).isSome) :
    pool.Advances := ⟨.worker worker, rfl, takes⟩

omit [DecidableEq Adder] in
/-- Whoever is inside the lock can go on. -/
theorem workerStep_of_locked (delivers : pool.Delivers) (sound : pool.LockSound)
    (locked : (pool.workers worker).locked) : (workerStep worker pool).isSome := by
  cases at_ : pool.workers worker <;> rw [at_] at locked <;> try cases locked
  case popFirst =>
    rcases delivers.pop sound at_ with ⟨heap, queue, task, popped, -, -⟩
    simp [workerStep, at_, popped]
  all_goals simp [workerStep, at_]

theorem advances_of_locked (delivers : pool.Delivers) (sound : pool.LockSound)
    (locked : (pool.workers worker).locked) : pool.Advances :=
  advances_of_worker worker (workerStep_of_locked delivers sound locked)

omit [Fintype Adder] in
theorem advances_of_free (free : pool.poolLock = none)
    (outside : (pool.workers worker).locked = false)
    (stays : (pool.workers worker).stays)
    (token : pool.workers worker = .semWait → 0 < pool.poolSem) : pool.Advances := by
  have active : (pool.workers worker).hasExited = false := by
    cases at_ : pool.workers worker <;> first | rfl | (rw [at_] at stays; cases stays)
  rcases WorkerPlace.outside_cases outside active with at_ | at_ | at_ | ⟨task, body, at_⟩
  · exact advances_of_worker worker (by simp [workerStep, at_, token at_])
  · exact advances_of_worker worker (by simp [workerStep, at_, free])
  · exact advances_of_worker worker (by simp [workerStep, at_, free])
  · refine ⟨.finishWork worker, rfl, ?_⟩
    change (finishWork worker pool).isSome
    simp [finishWork, at_]

/-- No call being under way, some worker can go on unless the pool rests. -/
theorem advances_or_resting (reached : (poolSystem Task Body size.Worker Adder).Reachable pool)
    (quiet : ∀ adder, ∃ result, pool.adders adder = .returned result) :
    pool.Advances ∨ pool.Resting := by
  have sound := lockSound_of_reachable reached
  cases lock : pool.poolLock with
  | some thread =>
      have isInside : pool.inside thread := (sound thread).mpr lock
      cases thread with
      | worker worker =>
          exact Or.inl (advances_of_locked (delivers_of_reachable reached) sound isInside)
      | adder adder =>
          rcases quiet adder with ⟨result, returned⟩
          rw [inside, returned] at isInside
          cases isInside
  | none =>
      have stays := Shutdown.stays_of_reachable reached
      have outside : ∀ worker, (pool.workers worker).locked = false :=
        fun worker => Exclusive.outside sound lock (.worker worker)
      by_cases asleep : ∀ worker, pool.workers worker = .semWait
      · by_cases token : 0 < pool.poolSem
        · have some_ : size.Worker := ⟨0, size.positive⟩
          exact Or.inl (advances_of_free lock (outside some_) (stays some_) fun _ => token)
        · exact Or.inr ⟨asleep, Nat.eq_zero_of_not_pos token, quiet⟩
      · push Not at asleep
        rcases asleep with ⟨worker, awake⟩
        exact Or.inl (advances_of_free lock (outside worker) (stays worker)
          fun waits => absurd waits awake)

omit [Fintype Adder] [DecidableEq Adder] [Inhabited Body] in
/-- A pool at rest has no work left. -/
theorem Resting.outside (resting : pool.Resting) (sound : pool.LockSound) :
    pool.poolLock = none := by
  by_contra held
  rcases Option.ne_none_iff_exists'.mp held with ⟨thread, lock⟩
  have isInside : pool.inside thread := (sound thread).mpr lock
  cases thread with
  | worker worker =>
      rw [inside, resting.asleep worker] at isInside
      cases isInside
  | adder adder =>
      rcases resting.quiet adder with ⟨result, returned⟩
      rw [inside, returned] at isInside
      cases isInside

theorem Resting.queue_empty (resting : pool.Resting)
    (reached : (poolSystem Task Body size.Worker Adder).Reachable pool) :
    pool.queue.size = 0 ∧ pool.availableWork = 0 ∧ pool.queued = [] := by
  have sound := lockSound_of_reachable reached
  rcases (delivers_of_reachable reached).outside sound (resting.outside sound) with
    ⟨⟨nodes, -, isSize, counted, order⟩, announced⟩
  have undecided : pool.undecided = 0 := by
    rw [ThreadPool.undecided, Finset.card_eq_zero, Finset.filter_eq_empty_iff]
    intro worker _
    rw [resting.asleep worker]
    intro isAsleep
    cases isAsleep
  rw [resting.noToken, undecided, counted, isSize] at announced
  have noNodes : nodes = [] := List.eq_nil_of_length_eq_zero (by omega)
  subst noNodes
  refine ⟨isSize, counted.trans isSize, ?_⟩
  rw [queued, ← order, List.map_nil, List.append_nil, List.drop_length]

theorem Resting.completed_perm (resting : pool.Resting) {count : ℕ} (isCount : count ≤ semValueMax)
    (ran : (poolSystem Task Body size.Worker Adder).run labels (threadPoolInit count) =
      some pool) :
    (completed labels (threadPoolInit count)).Perm (labels.filterMap PoolLabel.brought) := by
  have reached : (poolSystem Task Body size.Worker Adder).Reachable pool :=
    Transition.System.Reachable.run (.start ⟨count, isCount, rfl⟩) ran
  have tasks := tasks_perm_of_run isCount ran
  have noHands : Shutdown.inHands pool = [] := by
    apply List.filterMap_eq_nil_iff.mpr
    intro worker _
    rw [resting.asleep worker]
    rfl
  have noOffers : pool.offers = [] := by
    apply List.filterMap_eq_nil_iff.mpr
    intro adder _
    rcases resting.quiet adder with ⟨result, returned⟩
    rw [returned]
    rfl
  rwa [noHands, noOffers, (resting.queue_empty reached).2.2, List.append_nil, List.append_nil,
    List.append_nil] at tasks

/-- What holds at the end of a run that begins with `thread_pool_init`. -/
structure ComesToRest (count : ℕ) (labels : List (PoolLabel Task Body size.Worker Adder))
    (pool : ThreadPool Task Body size.Worker Adder) : Prop where
  bounded : labels.countP PoolLabel.ofPool + 15 * pool.poolSem ≤
    15 * count + 21 * labels.countP PoolLabel.adds + 15 * labels.countP PoolLabel.interrupts
  advances : (∀ adder, ∃ result, pool.adders adder = .returned result) →
    pool.Advances ∨ pool.Resting
  finished : pool.Resting →
    (completed labels (threadPoolInit count)).Perm (labels.filterMap PoolLabel.brought) ∧
    pool.queue.size = 0 ∧ pool.availableWork = 0 ∧ pool.busyThreadsNum = 0 ∧ pool.poolLock = none

/--
The pool takes a number of steps linear in the work it is given, some worker can
always go on until the pool rests, and then every task has been completed once.
-/
theorem comesToRest_of_run {count : ℕ} (isCount : count ≤ semValueMax)
    (ran : (poolSystem Task Body size.Worker Adder).run labels (threadPoolInit count) =
      some pool) : ComesToRest count labels pool := by
  have reached : (poolSystem Task Body size.Worker Adder).Reachable pool :=
    Transition.System.Reachable.run (.start ⟨count, isCount, rfl⟩) ran
  refine ⟨steps_le_of_run isCount ran, advances_or_resting reached, ?_⟩
  intro resting
  have empty := resting.queue_empty reached
  refine ⟨resting.completed_perm isCount ran, empty.1, empty.2.1, ?_,
    resting.outside (lockSound_of_reachable reached)⟩
  have nobody : total WorkerPlace.counted pool.workers = 0 := by
    apply total_eq_zero
    intro worker
    rw [resting.asleep worker]
    rfl
  rw [(booked_of_reachable reached).busy, nobody]
  rfl

/-- The run to the end of one task, and the way back of a worker that a spare token wakes. -/
def restRun : List (PoolLabel ℕ Unit Shutdown.twoWorkers.Worker Unit) :=
  [.addWork () 7] ++ List.replicate 5 (.adder () 100) ++
    List.replicate 9 (.worker firstWorker) ++ List.replicate 5 (.worker secondWorker) ++
    [.finishWork firstWorker] ++ List.replicate 5 (.worker firstWorker)

theorem restRun_comesToRest :
    ∃ pool, (poolSystem ℕ Unit Shutdown.twoWorkers.Worker Unit).run restRun (threadPoolInit 1) =
        some pool ∧
      pool.Resting ∧ completed restRun (threadPoolInit 1) = [7] ∧ ComesToRest 1 restRun pool := by
  have works : ((poolSystem ℕ Unit Shutdown.twoWorkers.Worker Unit).run restRun
      (threadPoolInit 1)).map (fun pool => (pool.workers ⟨0, by decide⟩,
        pool.workers ⟨1, by decide⟩, pool.poolSem, pool.adders ())) =
      some (.semWait, .semWait, 0, .returned 0) := by decide +kernel
  have isCompleted : completed restRun
      (threadPoolInit 1 : ThreadPool ℕ Unit Shutdown.twoWorkers.Worker Unit) = [7] := by
    decide +kernel
  rcases Option.map_eq_some_iff.mp works with ⟨pool, ran, values⟩
  rw [Prod.mk.injEq, Prod.mk.injEq, Prod.mk.injEq] at values
  rcases values with ⟨first, second, noToken, returned⟩
  have resting : pool.Resting := by
    refine ⟨?_, noToken, fun _ => ⟨0, returned⟩⟩
    intro worker
    match worker with
    | ⟨0, _⟩ => exact first
    | ⟨1, _⟩ => exact second
  exact ⟨pool, ran, resting, isCompleted, comesToRest_of_run (by decide) ran⟩

end ThreadPool

end LetUsConnect
