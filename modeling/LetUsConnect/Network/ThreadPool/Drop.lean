import LetUsConnect.Network.ThreadPool.Rest

/-!
# Dropping the queued work

`thread_pool_destroy` with `THREAD_POOL_DESTROY_DRAIN_AND_DROP` leaves out the loop
that waits for the queue and is the soft destruction otherwise. Once the lock has
been taken no worker looks at the work that waits any more, so the destruction
goes on as that of the pool without this work, which is a soft one. The tasks
left in the queue are never begun, and their nodes are never given back.
-/

namespace LetUsConnect

universe u v

open Threads

/-! ## A pool whose workers do not look at the work -/

namespace ThreadPool

variable {Task : Type u} {Body : Type v} {Worker Adder : Type}
  {pool after : ThreadPool Task Body Worker Adder}
  {worker : Worker} {label : PoolLabel Task Body Worker Adder}

/-- The pool as if the tasks in its queue had been taken. -/
def withoutWork (pool : ThreadPool Task Body Worker Adder) : ThreadPool Task Body Worker Adder :=
  { pool with availableWork := 0, popped := pool.added }

theorem queued_withoutWork : pool.withoutWork.queued = [] := List.drop_length

variable [DecidableEq Worker] [Inhabited Body]

theorem workerStep_withoutWork (stops : (pool.workers worker).stops) :
    workerStep worker pool.withoutWork = (workerStep worker pool).map withoutWork := by
  have same : pool.withoutWork.workers = pool.workers := rfl
  cases at_ : pool.workers worker <;> rw [at_] at stops <;> try cases stops
  all_goals simp only [workerStep, same, at_]
  case semWait =>
    have tokens : pool.withoutWork.poolSem = pool.poolSem := rfl
    rw [tokens]
    split_ifs <;> rfl
  case mutexLock | relock =>
    have lock : pool.withoutWork.poolLock = pool.poolLock := rfl
    rw [lock]
    split_ifs <;> rfl
  all_goals rfl

omit [Inhabited Body] in
theorem interrupt_withoutWork :
    interrupt worker pool.withoutWork = (interrupt worker pool).map withoutWork := by
  have same : pool.withoutWork.workers = pool.workers := rfl
  cases at_ : pool.workers worker <;> simp only [interrupt, same, at_] <;> rfl

omit [Inhabited Body] in
theorem proceed_withoutWork (body : Body) :
    proceed worker body pool.withoutWork = (proceed worker body pool).map withoutWork := by
  have same : pool.withoutWork.workers = pool.workers := rfl
  cases at_ : pool.workers worker <;> simp only [proceed, same, at_] <;> rfl

omit [Inhabited Body] in
theorem finishWork_withoutWork :
    finishWork worker pool.withoutWork = (finishWork worker pool).map withoutWork := by
  have same : pool.withoutWork.workers = pool.workers := rfl
  cases at_ : pool.workers worker <;> simp only [finishWork, same, at_] <;> rfl

/-- The queue and its nodes are as they were. -/
structure SameQueue (pool after : ThreadPool Task Body Worker Adder) : Prop where
  heap : after.heap = pool.heap
  queue : after.queue = pool.queue
  queued : after.queued = pool.queued

variable [DecidableEq Adder]

theorem sameQueue_of_step (isMover : label.mover = some worker)
    (stops : (pool.workers worker).stops)
    (taken : (poolSystem Task Body Worker Adder).step label pool = some after) :
    pool.SameQueue after := by
  cases label <;> cases isMover
  case worker =>
    change workerStep worker pool = some after at taken
    cases at_ : pool.workers worker <;> rw [at_] at stops <;> try cases stops
    all_goals simp only [workerStep, at_] at taken
    case semWait | mutexLock | relock =>
      split_ifs at taken
      cases taken
      exact ⟨rfl, rfl, rfl⟩
    case work | exited => cases taken
    all_goals
      cases taken
      exact ⟨rfl, rfl, rfl⟩
  case interrupt =>
    change interrupt worker pool = some after at taken
    cases at_ : pool.workers worker <;> simp only [interrupt, at_] at taken <;> cases taken
    exact ⟨rfl, rfl, rfl⟩
  case proceed =>
    change proceed worker _ pool = some after at taken
    cases at_ : pool.workers worker <;> simp only [proceed, at_] at taken <;> cases taken
    exact ⟨rfl, rfl, rfl⟩
  case finishWork =>
    change finishWork worker pool = some after at taken
    cases at_ : pool.workers worker <;> simp only [finishWork, at_] at taken <;> cases taken
    exact ⟨rfl, rfl, rfl⟩

/-- A worker takes tasks from the front of the queue only. -/
theorem queued_of_step [Fintype Worker] [Fintype Adder] (delivers : pool.Delivers)
    (sound : pool.LockSound) (isMover : label.mover = some worker)
    (taken : (poolSystem Task Body Worker Adder).step label pool = some after) :
    ∃ first, pool.queued = first ++ after.queued := by
  cases label <;> cases isMover
  case worker =>
    rcases workerStep_handover delivers sound taken with
      ⟨-, -, -, -, -, ⟨-, same⟩ | ⟨task, -, -, first⟩⟩
    · exact ⟨[], same.symm⟩
    · exact ⟨[task], first⟩
  case interrupt =>
    rcases interrupt_cases taken with ⟨-, rfl⟩
    exact ⟨[], rfl⟩
  case proceed =>
    change proceed worker _ pool = some after at taken
    cases at_ : pool.workers worker <;> simp only [proceed, at_] at taken <;> cases taken
    exact ⟨[], rfl⟩
  case finishWork =>
    change finishWork worker pool = some after at taken
    cases at_ : pool.workers worker <;> simp only [finishWork, at_] at taken <;> cases taken
    exact ⟨[], rfl⟩

end ThreadPool

namespace Shutdown

variable {Task : Type u} {Body : Type v} {size : PoolSize} {Adder : Type}
  {destroyer : Adder}
  {start : ThreadPool Task Body size.Worker Adder} {state after : Shutdown Task Body size Adder}
  {worker : size.Worker} {label : ShutdownLabel Body size}
  {labels : List (ShutdownLabel Body size)}

/-- The call of `thread_pool_destroy` with `THREAD_POOL_DESTROY_DRAIN_AND_DROP`. -/
def beginDrop (pool : ThreadPool Task Body size.Worker Adder) : Shutdown Task Body size Adder :=
  (begin pool).goto .mutexLock

def withoutWork (state : Shutdown Task Body size Adder) : Shutdown Task Body size Adder :=
  { state with pool := state.pool.withoutWork }

/-! ## The steps once the lock was taken -/

theorem destroyStep_withoutWork (closed : state.place.isOpen = false) :
    state.withoutWork.destroyStep destroyer =
      (state.destroyStep destroyer).map withoutWork := by
  have same : state.withoutWork.place = state.place := rfl
  cases at_ : state.place <;> rw [at_] at closed <;> try cases closed
  all_goals simp only [Shutdown.destroyStep, same, at_]
  case terminate index => cases size.workerAt index <;> rfl
  case semPost index => split_ifs <;> rfl
  case join index =>
    cases size.workerAt index with
    | none => rfl
    | some worker =>
        have workers : state.withoutWork.pool.workers = state.pool.workers := rfl
        simp only [workers]
        split_ifs <;> rfl
  case freeState index => cases size.workerAt index <;> rfl
  all_goals rfl

theorem ofPool_withoutWork (next : Option (ThreadPool Task Body size.Worker Adder)) :
    state.withoutWork.ofPool (next.map ThreadPool.withoutWork) =
      (state.ofPool next).map withoutWork := by
  cases next <;> rfl

variable [DecidableEq Adder] [Inhabited Body]

/-- The destruction goes on as that of the pool without the work that waits. -/
theorem step_withoutWork (closed : state.place.isOpen = false)
    (stops : ∀ worker, (state.pool.workers worker).stops) (label : ShutdownLabel Body size) :
    (shutdownSystem Task Body size Adder destroyer).step label state.withoutWork =
      ((shutdownSystem Task Body size Adder destroyer).step label state).map withoutWork := by
  cases label with
  | worker worker =>
      change state.withoutWork.ofPool (ThreadPool.workerStep worker state.pool.withoutWork) = _
      rw [ThreadPool.workerStep_withoutWork (stops worker), ofPool_withoutWork]
      rfl
  | interrupt worker =>
      change state.withoutWork.ofPool (ThreadPool.interrupt worker state.pool.withoutWork) = _
      rw [ThreadPool.interrupt_withoutWork, ofPool_withoutWork]
      rfl
  | proceed worker body =>
      change state.withoutWork.ofPool (ThreadPool.proceed worker body state.pool.withoutWork) = _
      rw [ThreadPool.proceed_withoutWork, ofPool_withoutWork]
      rfl
  | finishWork worker =>
      change state.withoutWork.finishWork worker = (state.finishWork worker).map withoutWork
      simp only [Shutdown.finishWork]
      change Option.map _ (ThreadPool.finishWork worker state.pool.withoutWork) = _
      rw [ThreadPool.finishWork_withoutWork, Option.map_map, Option.map_map]
      rfl
  | spin =>
      have waits : state.place ≠ .waitWork := by
        intro at_
        rw [at_] at closed
        cases closed
      change state.withoutWork.spin = state.spin.map withoutWork
      rw [spin, spin, if_neg fun both => waits both.1, if_neg fun both => waits both.1]
      rfl
  | destroy => exact destroyStep_withoutWork closed

omit [DecidableEq Adder] [Inhabited Body] in
theorem closed_of_destroyStep (closed : state.place.isOpen = false)
    (taken : state.destroyStep destroyer = some after) : after.place.isOpen = false := by
  cases at_ : state.place <;> rw [at_] at closed <;> try cases closed
  all_goals simp only [Shutdown.destroyStep, at_] at taken
  case terminate => split at taken <;> cases taken <;> rfl
  case semPost => split_ifs at taken <;> cases taken <;> rfl
  case join =>
    split at taken
    · split_ifs at taken
      cases taken
      rfl
    · cases taken
      rfl
  case freeState =>
    rcases Option.map_eq_some_iff.mp taken with ⟨worker, -, rfl⟩
    rfl
  case routesDestroyed => cases taken
  all_goals
    cases taken
    rfl

omit [DecidableEq Adder] [Inhabited Body] in
theorem destroyStep_sameQueue (taken : state.destroyStep destroyer = some after) :
    state.pool.SameQueue after.pool := by
  refine ⟨?_, ?_, (destroyStep_frame taken).2.1⟩
  all_goals
    cases at_ : state.place <;> simp only [Shutdown.destroyStep, at_] at taken
    case terminate => split at taken <;> cases taken <;> rfl
    case waitWork | mutexLock =>
      split_ifs at taken
      cases taken
      rfl
    case semPost => split_ifs at taken <;> cases taken <;> rfl
    case join =>
      split at taken
      · split_ifs at taken
        cases taken
        rfl
      · cases taken
        rfl
    case freeState =>
      rcases Option.map_eq_some_iff.mp taken with ⟨worker, -, rfl⟩
      rfl
    case routesDestroyed => cases taken
    all_goals
      cases taken
      rfl

/-! ## The course of the destruction -/

/-- How far the destruction is, and where the tasks are that the pool had at its call. -/
structure Dropping (destroyer : Adder) (start : ThreadPool Task Body size.Worker Adder)
    (state : Shutdown Task Body size Adder) : Prop where
  /-- Before the lock is taken the state is one of the soft destruction. -/
  opened : state.place.isOpen → state.place = .mutexLock ∧ (state.goto .waitWork).Orderly destroyer
  closed : state.place.isOpen = false → state.withoutWork.Orderly destroyer
  inQueue : ∃ nodes, IsQueue state.pool.heap state.pool.queue nodes ∧
    nodes.map Prod.snd = state.pool.queued
  order : ∃ taken, start.queued = taken ++ state.pool.queued
  kept : ∀ isMeant, state.count isMeant = (beginDrop start).count isMeant
  inRange : ∀ index, state.place = .freeState index → (size.workerAt index).isSome

variable [Fintype Adder]

theorem dropping_begin (reached : (poolSystem Task Body size.Worker Adder).Reachable start)
    (quiet : ∀ adder, ∃ result, start.adders adder = .returned result) :
    (beginDrop start).Dropping destroyer start where
  opened := fun _ => ⟨rfl, orderly_begin reached quiet⟩
  closed := nofun
  inQueue := (ThreadPool.delivers_of_reachable reached).queued_eq
  order := ⟨[], rfl⟩
  kept := fun _ => rfl
  inRange := nofun

namespace Dropping

omit [Fintype Adder] in
theorem stops (dropping : state.Dropping destroyer start) (closed : state.place.isOpen = false)
    (worker : size.Worker) : (state.pool.workers worker).stops :=
  (dropping.closed closed).stops closed worker

omit [Fintype Adder] in
theorem reachable (dropping : state.Dropping destroyer start) (isOpen : state.place.isOpen) :
    (poolSystem Task Body size.Worker Adder).Reachable state.pool :=
  (dropping.opened isOpen).2.reachable rfl

omit [Fintype Adder] in
theorem quiet (dropping : state.Dropping destroyer start) (isOpen : state.place.isOpen)
    (adder : Adder) : ∃ result, state.pool.adders adder = .returned result :=
  (dropping.opened isOpen).2.quiet adder

omit [Fintype Adder] in
/-- When the lock is taken the work that waits is left where it is. -/
theorem lock (dropping : state.Dropping destroyer start) (at_ : state.place = .mutexLock)
    (free : state.pool.poolLock = none) :
    Dropping destroyer start
      { state.goto (.terminate 0) with
        pool := { state.pool with poolLock := some (.adder destroyer) } } where
  opened := nofun
  closed := by
    intro _
    have orderly := (dropping.opened (by rw [at_]; rfl)).2
    have noneLocked : ∀ worker, (state.pool.workers worker).locked = false :=
      fun worker => orderly.exclusive.outside free (.worker worker)
    refine ⟨orderly.quiet, nofun, fun _ => le_rfl, ?_, fun _ => ThreadPool.queued_withoutWork, ?_,
      nofun, ?_, nofun, orderly.freedState, orderly.freedShared⟩
    · intro thread
      cases thread with
      | worker worker => simp [inside, withoutWork, ThreadPool.withoutWork, noneLocked]
      | adder adder => simp [inside, withoutWork, ThreadPool.withoutWork, goto, DestroyPlace.locks,
          eq_comm]
    · exact fun _ worker => WorkerPlace.stops_of_not_locked (noneLocked worker)
    · exact fun _ => (asleep_le state).trans (Nat.le_add_left _ _)
  inQueue := dropping.inQueue
  order := dropping.order
  kept := dropping.kept
  inRange := nofun

/-- A worker's step before the lock is taken. -/
theorem openMove (dropping : state.Dropping destroyer start) (isOpen : state.place.isOpen)
    {move : PoolLabel Task Body size.Worker Adder} (isMover : move.mover = some worker)
    (place : after.place = state.place)
    (moved : (poolSystem Task Body size.Worker Adder).step move state.pool = some after.pool)
    (taken : (shutdownSystem Task Body size Adder destroyer).step label (state.goto .waitWork) =
      some (after.goto .waitWork)) : after.Dropping destroyer start := by
  have orderly := (dropping.opened isOpen).2
  have orderlyAfter := orderly.step taken
  have reached := dropping.reachable isOpen
  have delivers := ThreadPool.delivers_of_reachable (orderlyAfter.reachable rfl)
  refine ⟨fun _ => ⟨place.trans (dropping.opened isOpen).1, orderlyAfter⟩, ?_, delivers.queued_eq,
    ?_, ?_, ?_⟩
  · rw [place, isOpen]
    nofun
  · rcases dropping.order with ⟨taken, order⟩
    rcases ThreadPool.queued_of_step (ThreadPool.delivers_of_reachable reached)
      (ThreadPool.lockSound_of_reachable reached) isMover moved with ⟨first, queued⟩
    exact ⟨taken ++ first, by rw [order, queued, List.append_assoc]⟩
  · intro isMeant
    exact (orderly.count_step taken isMeant).trans (dropping.kept isMeant)
  · intro index at_
    rw [place, (dropping.opened isOpen).1] at at_
    cases at_

/-- A step after the lock was taken is one of the pool without the work that waits. -/
theorem closedStep (dropping : state.Dropping destroyer start)
    (closed : state.place.isOpen = false) (closedAfter : after.place.isOpen = false)
    (sameQueue : state.pool.SameQueue after.pool)
    (inRange : ∀ index, after.place = .freeState index → (size.workerAt index).isSome)
    (taken : (shutdownSystem Task Body size Adder destroyer).step label state = some after) :
    after.Dropping destroyer start := by
  have orderly := dropping.closed closed
  have takenWithout : (shutdownSystem Task Body size Adder destroyer).step label
      state.withoutWork = some after.withoutWork := by
    rw [step_withoutWork closed (dropping.stops closed), taken]
    rfl
  refine ⟨?_, fun _ => orderly.step takenWithout, ?_, ?_, ?_, inRange⟩
  · rw [closedAfter]
    nofun
  · rw [sameQueue.heap, sameQueue.queue, sameQueue.queued]
    exact dropping.inQueue
  · rw [sameQueue.queued]
    exact dropping.order
  · intro isMeant
    have counted := orderly.count_step takenWithout isMeant
    have before := dropping.kept isMeant
    simp only [count, withoutWork, ThreadPool.queued_withoutWork, List.countP_nil] at counted
    change _ + total _ after.pool.workers + 0 = _ + total _ state.pool.workers + 0 at counted
    rw [← before, count, count, sameQueue.queued]
    omega

omit [Fintype Adder] [DecidableEq Adder] [Inhabited Body] in
theorem inRange_of_destroyStep (taken : state.destroyStep destroyer = some after) {index : ℕ}
    (at_ : after.place = .freeState index) : (size.workerAt index).isSome := by
  cases before : state.place <;> simp only [Shutdown.destroyStep, before] at taken
  case join other =>
    cases found : size.workerAt other with
    | none =>
        simp only [found] at taken
        cases taken
        cases at_
    | some worker =>
        simp only [found] at taken
        split_ifs at taken
        cases taken
        cases at_
        rw [found]
        rfl
  case terminate => split at taken <;> cases taken <;> cases at_
  case freeState =>
    rcases Option.map_eq_some_iff.mp taken with ⟨worker, -, rfl⟩
    cases at_
  case waitWork | mutexLock | semPost => split_ifs at taken <;> cases taken <;> cases at_
  case routesDestroyed => cases taken
  all_goals
    cases taken
    cases at_

omit [Fintype Adder] in
/-- Workers do not look at the place of the destruction. -/
theorem step_goto {place : DestroyPlace} (noSpin : label ≠ .spin) (noDestroy : label ≠ .destroy)
    (taken : (shutdownSystem Task Body size Adder destroyer).step label state = some after) :
    (shutdownSystem Task Body size Adder destroyer).step label (state.goto place) =
      some (after.goto place) := by
  cases label with
  | spin => exact absurd rfl noSpin
  | destroy => exact absurd rfl noDestroy
  | worker _ | interrupt _ | proceed _ _ | finishWork _ =>
      rcases Option.map_eq_some_iff.mp taken with ⟨pool, moved, rfl⟩
      exact Option.map_eq_some_iff.mpr ⟨pool, moved, rfl⟩

theorem step (dropping : state.Dropping destroyer start)
    (taken : (shutdownSystem Task Body size Adder destroyer).step label state = some after) :
    after.Dropping destroyer start := by
  cases isOpen : state.place.isOpen
  case true =>
    have at_ := (dropping.opened isOpen).1
    rcases pool_of_step taken with ⟨rfl, same⟩ | ⟨rfl, destroyed⟩ |
      ⟨move, worker, isMover, moved, place, -⟩
    · rw [same]
      exact dropping
    · simp only [Shutdown.destroyStep, at_] at destroyed
      split_ifs at destroyed with isFree
      cases destroyed
      exact dropping.lock at_ isFree
    · apply dropping.openMove isOpen isMover place moved
      apply step_goto _ _ taken
      · rintro rfl
        change state.spin = some after at taken
        rw [spin, at_, if_neg (by rintro ⟨⟨⟩, -⟩)] at taken
        cases taken
      · rintro rfl
        change state.destroyStep destroyer = some after at taken
        simp only [Shutdown.destroyStep, at_] at taken
        split_ifs at taken
        cases taken
        cases place.trans at_
  case false =>
    rcases pool_of_step taken with ⟨-, rfl⟩ | ⟨-, destroyed⟩ |
      ⟨move, worker, isMover, moved, place, -⟩
    · exact dropping
    · exact dropping.closedStep isOpen (closed_of_destroyStep isOpen destroyed)
        (destroyStep_sameQueue destroyed) (fun _ => inRange_of_destroyStep destroyed) taken
    · refine dropping.closedStep isOpen (place ▸ isOpen)
        (ThreadPool.sameQueue_of_step isMover (dropping.stops isOpen worker) moved) ?_ taken
      rw [place]
      exact dropping.inRange

end Dropping

theorem dropping_of_run (reached : (poolSystem Task Body size.Worker Adder).Reachable start)
    (quiet : ∀ adder, ∃ result, start.adders adder = .returned result)
    (ran : (shutdownSystem Task Body size Adder destroyer).run labels (beginDrop start) =
      some state) : state.Dropping destroyer start := by
  refine Transition.System.Reachable.invariant ?_ ?_ (Transition.System.reachable_of_run ran)
  · rintro state rfl
    exact dropping_begin reached quiet
  · intro state label after dropping taken
    exact dropping.step taken

/-! ## Nobody waits in vain -/

/-- After the lock was taken some step that counts can be taken until all is given back. -/
theorem Orderly.enabled_of_closed (orderly : state.Orderly destroyer)
    (closed : state.place.isOpen = false)
    (inRange : ∀ index, state.place = .freeState index → (size.workerAt index).isSome)
    (unfinished : state.place ≠ .routesDestroyed) : state.Enabled destroyer := by
  cases at_ : state.place <;> rw [at_] at closed <;> try cases closed
  case join index =>
    cases found : size.workerAt index with
    | none => exact enabled_of_destroy (by simp [Shutdown.destroyStep, at_, found])
    | some worker =>
        cases hasExited : (state.pool.workers worker).hasExited
        · exact orderly.enabled_of_active hasExited (orderly.asleep_le_poolSem at_)
        · exact enabled_of_destroy (by simp [Shutdown.destroyStep, at_, found, hasExited])
  case freeState index =>
    exact enabled_of_destroy (by simp [Shutdown.destroyStep, at_, inRange index at_])
  case terminate index =>
    apply enabled_of_destroy
    simp only [Shutdown.destroyStep, at_]
    split <;> rfl
  case semPost index =>
    apply enabled_of_destroy
    simp only [Shutdown.destroyStep, at_]
    split_ifs <;> rfl
  case routesDestroyed => exact absurd at_ unfinished
  all_goals exact enabled_of_destroy (by simp [Shutdown.destroyStep, at_])

omit [Fintype Adder] in
theorem enabled_of_withoutWork (closed : state.place.isOpen = false)
    (stops : ∀ worker, (state.pool.workers worker).stops)
    (enabled : state.withoutWork.Enabled destroyer) : state.Enabled destroyer := by
  rcases enabled with ⟨label, works, takes⟩
  refine ⟨label, works, ?_⟩
  rw [step_withoutWork closed stops, Option.isSome_map] at takes
  exact takes

omit [Fintype Adder] in
theorem enabled_of_advances (advances : state.pool.Advances) : state.Enabled destroyer := by
  rcases advances with ⟨label, advances, takes⟩
  cases label with
  | worker worker => exact enabled_of_worker worker takes
  | finishWork worker =>
      refine ⟨.finishWork worker, rfl, ?_⟩
      change (state.finishWork worker).isSome
      rw [Shutdown.finishWork, Option.isSome_map]
      exact takes
  | interrupt | proceed | addWork | adder => cases advances

namespace Dropping

theorem enabled (dropping : state.Dropping destroyer start)
    (unfinished : state.place ≠ .routesDestroyed) : state.Enabled destroyer := by
  cases isOpen : state.place.isOpen
  case true =>
    have at_ := (dropping.opened isOpen).1
    have reached := dropping.reachable isOpen
    have sound := ThreadPool.lockSound_of_reachable reached
    cases lock : state.pool.poolLock with
    | none => exact enabled_of_destroy (by simp [Shutdown.destroyStep, at_, lock])
    | some thread =>
        have isInside : state.pool.inside thread := (sound thread).mpr lock
        cases thread with
        | worker worker =>
            exact enabled_of_advances (ThreadPool.advances_of_locked
              (ThreadPool.delivers_of_reachable reached) sound isInside)
        | adder adder =>
            rcases dropping.quiet isOpen adder with ⟨result, returned⟩
            rw [ThreadPool.inside, returned] at isInside
            cases isInside
  case false =>
    exact enabled_of_withoutWork isOpen (dropping.stops isOpen)
      ((dropping.closed isOpen).enabled_of_closed isOpen dropping.inRange unfinished)

omit [Fintype Adder] [DecidableEq Adder] [Inhabited Body] in
theorem closed_of_isOver (ended : state.place.isOver) : state.place.isOpen = false := by
  cases at_ : state.place <;> rw [at_] at ended <;> first | rfl | cases ended

omit [Fintype Adder] in
theorem exited (dropping : state.Dropping destroyer start) (ended : state.place.isOver)
    (worker : size.Worker) : state.pool.workers worker = .exited :=
  (dropping.closed (closed_of_isOver ended)).exited ended worker

omit [Fintype Adder] in
theorem rests (dropping : state.Dropping destroyer start) (ended : state.place.isOver)
    (differs : label ≠ .destroy) :
    (shutdownSystem Task Body size Adder destroyer).step label state = none := by
  have closed := closed_of_isOver ended
  have stuck := (dropping.closed closed).rests ended differs
  rw [step_withoutWork closed (dropping.stops closed), Option.map_eq_none_iff] at stuck
  exact stuck

omit [Fintype Adder] in
theorem untouched (dropping : state.Dropping destroyer start) {resource : PoolResource size.Worker}
    (touches : resource ∈ (state.pool.workers worker).touches worker) :
    state.freed resource = false := by
  cases isOpen : state.place.isOpen
  case true => exact (dropping.opened isOpen).2.untouched touches
  case false => exact (dropping.closed isOpen).untouched touches

omit [Fintype Adder] in
theorem tasks (dropping : state.Dropping destroyer start) :
    (state.completed ++ inHands state.pool ++ state.pool.queued).Perm
      (inHands start ++ start.queued) := by
  classical
  apply List.perm_iff_count.mpr
  intro task
  have counted := dropping.kept (· == task)
  rw [count, count, ← countP_inHands, ← countP_inHands] at counted
  simp only [List.count, List.countP_append]
  change _ = List.countP _ ([] : List Task) + _ + _ at counted
  rw [List.countP_nil, Nat.zero_add] at counted
  exact counted

end Dropping

/-! ## The destruction as a whole -/

/-- What holds in a state that a destruction which drops the queued work leads to. -/
structure Drop (destroyer : Adder) (start : ThreadPool Task Body size.Worker Adder)
    (labels : List (ShutdownLabel Body size)) (state : Shutdown Task Body size Adder) : Prop where
  /-- The tasks that were taken come from the front of the queue, and those are completed. -/
  taken : ∃ taken, start.queued = taken ++ state.pool.queued ∧
    (state.completed ++ inHands state.pool).Perm (inHands start ++ taken) ∧
    (state.place.isOver → state.completed.Perm (inHands start ++ taken))
  /-- Once the lock was taken no further task is begun. -/
  dropped : state.place.isOpen = false → ∀ label after,
    (shutdownSystem Task Body size Adder destroyer).step label state = some after →
      after.pool.queued = state.pool.queued
  /-- The nodes of the tasks that are dropped are still there. -/
  leaked : ∃ nodes, IsQueue state.pool.heap state.pool.queue nodes ∧
    nodes.map Prod.snd = state.pool.queued
  exited : state.place.isOver → ∀ worker, state.pool.workers worker = .exited
  untouched : ∀ worker, ∀ resource ∈ (state.pool.workers worker).touches worker,
    state.freed resource = false
  rests : state.place.isOver → ∀ label, label ≠ .destroy →
    (shutdownSystem Task Body size Adder destroyer).step label state = none
  enabled : state.place ≠ .routesDestroyed → state.Enabled destroyer
  bounded : labels.countP ShutdownLabel.works + state.remaining ≤
    (beginDrop start).remaining + 14 * labels.countP ShutdownLabel.interrupts

omit [Fintype Adder] in
theorem Dropping.queued_kept (dropping : state.Dropping destroyer start)
    (closed : state.place.isOpen = false)
    (taken : (shutdownSystem Task Body size Adder destroyer).step label state = some after) :
    after.pool.queued = state.pool.queued := by
  rcases pool_of_step taken with ⟨-, rfl⟩ | ⟨-, destroyed⟩ | ⟨move, worker, isMover, moved, -, -⟩
  · rfl
  · exact (destroyStep_frame destroyed).2.1
  · exact (ThreadPool.sameQueue_of_step isMover (dropping.stops closed worker) moved).queued

/--
A destruction that drops the queued work completes the tasks that were taken, each
once, and begins no other. It is never blocked and leaves no worker behind, but the
tasks it drops stay where they are.
-/
theorem drop_of_run (reached : (poolSystem Task Body size.Worker Adder).Reachable start)
    (quiet : ∀ adder, ∃ result, start.adders adder = .returned result)
    (ran : (shutdownSystem Task Body size Adder destroyer).run labels (beginDrop start) =
      some state) : state.Drop destroyer start labels := by
  have dropping := dropping_of_run reached quiet ran
  refine ⟨?_, fun closed _ _ => dropping.queued_kept closed, dropping.inQueue,
    fun ended worker => dropping.exited ended worker, fun _ _ => dropping.untouched,
    fun ended _ => dropping.rests ended, dropping.enabled, remaining_run ran⟩
  rcases dropping.order with ⟨taken, order⟩
  have tasks := dropping.tasks
  rw [order, ← List.append_assoc, List.perm_append_right_iff] at tasks
  refine ⟨taken, order, tasks, ?_⟩
  intro ended
  have noHands : inHands state.pool = [] := by
    apply List.filterMap_eq_nil_iff.mpr
    intro worker _
    rw [dropping.exited ended worker]
    rfl
  rwa [noHands, List.append_nil] at tasks

/-- Two tasks are queued; one worker takes the first before the lock is taken. -/
def twoQueued : List (PoolLabel ℕ Unit twoWorkers.Worker Unit) :=
  [.addWork () 7] ++ List.replicate 5 (.adder () 100) ++ [.addWork () 8] ++
    List.replicate 5 (.adder () 101)

/-- The worker that works ends its task; the other one wakes up for the second task and exits. -/
def dropRun : List (ShutdownLabel Unit twoWorkers) :=
  let working := ThreadPool.firstWorker
  let asleep := ThreadPool.secondWorker
  List.replicate 9 (.worker working) ++ [.worker asleep] ++ List.replicate 8 .destroy ++
    [.finishWork working] ++ List.replicate 3 (.worker working) ++
    List.replicate 3 (.worker asleep) ++ List.replicate 8 .destroy

theorem dropRun_drop :
    ∃ start state, (poolSystem ℕ Unit twoWorkers.Worker Unit).run twoQueued
        (ThreadPool.threadPoolInit 0) = some start ∧ start.queued = [7, 8] ∧
      (shutdownSystem ℕ Unit twoWorkers Unit ()).run dropRun (beginDrop start) = some state ∧
      state.place = .routesDestroyed ∧ state.completed = [7] ∧ state.pool.queued = [8] ∧
      state.Drop () start dropRun := by
  have initially : (poolSystem ℕ Unit twoWorkers.Worker Unit).initial
      (ThreadPool.threadPoolInit 0) := ⟨0, by decide, rfl⟩
  have queues : ((poolSystem ℕ Unit twoWorkers.Worker Unit).run twoQueued
      (ThreadPool.threadPoolInit 0)).map (fun pool => (pool.queued, pool.adders ())) =
      some ([7, 8], .returned 0) := by decide +kernel
  have finishes : ((poolSystem ℕ Unit twoWorkers.Worker Unit).run twoQueued
      (ThreadPool.threadPoolInit 0)).bind (fun pool =>
        ((shutdownSystem ℕ Unit twoWorkers Unit ()).run dropRun (beginDrop pool)).map
          fun state => (state.place, state.completed, state.pool.queued)) =
      some (.routesDestroyed, [7], [8]) := by decide +kernel
  rcases Option.map_eq_some_iff.mp queues with ⟨start, ran, values⟩
  rw [ran, Option.bind_some] at finishes
  rcases Option.map_eq_some_iff.mp finishes with ⟨state, finished, results⟩
  rw [Prod.mk.injEq, Prod.mk.injEq] at results
  have returned : ∀ adder, ∃ result, start.adders adder = .returned result :=
    fun _ => ⟨0, congrArg Prod.snd values⟩
  exact ⟨start, state, ran, congrArg Prod.fst values, finished, results.1, results.2.1,
    results.2.2,
    drop_of_run (Transition.System.Reachable.run (.start initially) ran) returned finished⟩

end Shutdown

end LetUsConnect
