import Mathlib.Algebra.BigOperators.Ring.List
import Mathlib.Data.Fintype.EquivFin
import LetUsConnect.Network.ThreadPool.Rest
import LetUsConnect.Server.BufferBounds
import LetUsConnect.Server.Rounds

/-!
# No thread of the server is stuck

The reactor waits only for `add_work`, `add_work` only for `pool_lock`, and whoever
holds the lock can go on: there is room in the queue, since no slot has two tasks in
it. A worker with a task can go on whatever `recv` returns. Between two steps of the
reactor the others take a bounded number of steps, so no wait lasts for ever.
-/

namespace LetUsConnect

open Threads

namespace TaskPlace

/-- The number of steps to the end of the work on the longest way. -/
def remaining : TaskPlace → ℕ
  | .recv => 11
  | .advance _ => 10
  | .terminate => 9
  | .frame => 8
  | .construct => 7
  | .handle _ => 6
  | .resetLength _ => 5
  | .clearBuffer _ => 4
  | .checkActive _ => 3
  | .stamp | .close => 2
  | .release | .deactivate => 1
  | .done => 0

end TaskPlace

/-- The steps left of the work of a worker on a task. -/
def workRemaining : WorkerPlace ClientTask TaskPlace → ℕ
  | .work (some _) place => place.remaining
  | _ => 0

theorem AdderPlace.outside_cases {Task : Type} {place : AdderPlace Task}
    (outside : place.locked = false) :
    (∃ result, place = .returned result) ∨ ∃ task, place = .mutexLock task := by
  cases place <;> simp_all [AdderPlace.locked]

/-- The places of the reactor at which it is inside a call of `add_work`. -/
def ReactorPlace.submits : ReactorPlace → Bool
  | .submit _ _ _ | .readySubmit _ => true
  | _ => false

namespace ServerLabel

variable {Worker : Type}

def interrupts : ServerLabel Worker → Bool
  | .interrupt _ => true
  | _ => false

/-- The thread of the pool that takes the step; a caller of `add_work` counts as one. -/
def thread : ServerLabel Worker → Option (PoolThread Worker Unit)
  | .task mover _ | .finishWork mover | .worker mover | .interrupt mover => some (.worker mover)
  | .addWork _ => some (.adder ())
  | .reactor _ => none

/-- A step of a worker or of `add_work`, signals apart. -/
def serves : ServerLabel Worker → Bool
  | .task _ _ | .finishWork _ | .worker _ | .addWork _ => true
  | _ => false

end ServerLabel

namespace ServerState

variable {size : PoolSize} {state after : ServerState size.Worker} {serverFd : ℕ}
  {label : ServerLabel size.Worker} {labels : List (ServerLabel size.Worker)}
  {worker : size.Worker} {task : ClientTask} {place : TaskPlace}
  {routes : Dictionary RouteHandler}

/-! ## The other threads take a bounded number of steps -/

/-- How much the workers and `add_work` have left to do, the work on the tasks included. -/
def poolRemaining (pool : ThreadPool ClientTask TaskPlace size.Worker Unit) : ℕ :=
  15 * pool.remaining + total workRemaining pool.workers

theorem workRemaining_le (place : WorkerPlace ClientTask TaskPlace) : workRemaining place ≤ 11 := by
  cases place with
  | work task body =>
      cases task with
      | none => exact Nat.zero_le 11
      | some task => cases body <;> simp [workRemaining, TaskPlace.remaining]
  | _ => exact Nat.zero_le 11

/-- A step of the work brings its end nearer. -/
theorem remaining_taskStep {arrival : Arrival}
    (taken : state.taskStep routes worker arrival = some after) :
    poolRemaining after.pool + 1 ≤ poolRemaining state.pool := by
  have less : ∃ placeAfter, after.pool = state.pool.moveWorker worker placeAfter ∧
      placeAfter.remaining = (state.pool.workers worker).remaining ∧
      workRemaining placeAfter + 1 ≤ workRemaining (state.pool.workers worker) := by
    rw [ServerState.taskStep] at taken
    split at taken
    case h_2 => cases taken
    case h_1 task place at_ =>
      rw [at_]
      cases place <;> simp only at taken
      case recv =>
        unfold ServerState.recvStep at taken
        split at taken
        case h_2 =>
          rcases Option.map_eq_some_iff.mp taken with ⟨buffer, -, rfl⟩
          exact ⟨_, rfl, rfl, by simp [workRemaining, TaskPlace.remaining]⟩
        all_goals
          cases taken
          try exact ⟨_, rfl, rfl, by simp [workRemaining, TaskPlace.remaining]⟩
      case advance =>
        rcases Option.map_eq_some_iff.mp taken with ⟨buffer, -, rfl⟩
        exact ⟨_, rfl, rfl, by simp [workRemaining, TaskPlace.remaining]⟩
      case frame | checkActive =>
        cases taken
        refine ⟨_, rfl, rfl, ?_⟩
        split_ifs <;> simp [workRemaining, TaskPlace.remaining]
      case done => cases taken
      all_goals
        cases taken
        exact ⟨_, rfl, rfl, by simp [workRemaining, TaskPlace.remaining]⟩
  rcases less with ⟨placeAfter, pool, same, less⟩
  have counted := total_update workRemaining state.pool.workers worker placeAfter
  have moved := ThreadPool.remaining_moveWorker worker placeAfter state.pool
  simp only [poolRemaining, pool, ThreadPool.workers_moveWorker]
  omega

/-- A step of the pool outside the work, paid for by what the pool has left to do. -/
theorem poolRemaining_step {pool next : ThreadPool ClientTask TaskPlace size.Worker Unit}
    (move : PoolLabel ClientTask TaskPlace size.Worker Unit) (ofPool : move.ofPool)
    (taken : (poolSystem ClientTask TaskPlace size.Worker Unit).step move pool = some next) :
    poolRemaining next + 4 ≤ poolRemaining pool + 15 * move.income := by
  have paid := ThreadPool.remaining_step taken
  rw [ofPool, Bool.toNat_true] at paid
  have work : total workRemaining next.workers ≤ total workRemaining pool.workers + 11 := by
    rcases ThreadPool.step_moves taken with ⟨mover, place, workers, -⟩ | ⟨-, -, -, workers, -⟩
    · have counted := total_update workRemaining pool.workers mover place
      have most := workRemaining_le place
      rw [workers]
      omega
    · rw [workers]
      exact Nat.le_add_right _ _
  simp only [poolRemaining]
  omega

theorem remaining_step
    (taken : (serverSystem size.Worker routes serverFd).step label state = some after) :
    poolRemaining after.pool + label.serves.toNat ≤
      poolRemaining state.pool + (315 * label.isReactor.toNat + 225 * label.interrupts.toNat) := by
  have few : 1 ≤ 4 := by decide
  cases label with
  | reactor input =>
      rcases reactorStep_pool taken with unchanged | ⟨task, added⟩
      · rw [unchanged]
        exact Nat.le_add_right _ _
      · have paid := poolRemaining_step (.addWork () task) rfl added
        exact (Nat.le_add_right _ 4).trans paid
  | task worker arrival => exact (remaining_taskStep taken).trans (Nat.le_add_right _ _)
  | finishWork worker =>
      change state.finishWork worker = some after at taken
      unfold ServerState.finishWork at taken
      split at taken
      case h_3 => cases taken
      all_goals
        rcases Option.map_eq_some_iff.mp taken with ⟨pool, moved, rfl⟩
        have paid := poolRemaining_step (.finishWork worker) rfl moved
        exact (Nat.add_le_add_left few _).trans paid
  | worker worker =>
      rcases Option.map_eq_some_iff.mp taken with ⟨pool, moved, rfl⟩
      have paid := poolRemaining_step (.worker worker) rfl moved
      exact (Nat.add_le_add_left few _).trans paid
  | interrupt worker =>
      rcases Option.map_eq_some_iff.mp taken with ⟨pool, moved, rfl⟩
      have paid := poolRemaining_step (.interrupt worker) rfl moved
      exact (Nat.le_add_right _ 4).trans paid
  | addWork newNode =>
      rcases Option.map_eq_some_iff.mp taken with ⟨pool, moved, rfl⟩
      have paid := poolRemaining_step (.adder () newNode) rfl moved
      exact (Nat.add_le_add_left few _).trans paid

/-- What the others do is paid for by the steps of the reactor and by signals. -/
theorem serves_le_of_run
    (ran : (serverSystem size.Worker routes serverFd).run labels state = some after) :
    labels.countP ServerLabel.serves + poolRemaining after.pool ≤ poolRemaining state.pool +
      315 * labels.countP ServerLabel.isReactor + 225 * labels.countP ServerLabel.interrupts := by
  have paid := Transition.System.cost_le_of_run (fun _ _ _ => remaining_step) ran
  rw [Transition.System.sum_map_toNat, List.sum_map_add, List.sum_map_mul_left,
    List.sum_map_mul_left, Transition.System.sum_map_toNat, Transition.System.sum_map_toNat] at paid
  omega

/-! ## There is room in the queue -/

/-- No slot has two tasks in the queue. -/
theorem Owned.queued_length_le (owned : state.Owned serverFd) :
    state.pool.queued.length ≤ maxConns := by
  have distinct : (state.pool.queued.map ClientTask.conn).Nodup := by
    apply List.nodup_iff_count_le_one.mpr
    intro slot
    have flight := owned.flight slot
    have most := Bool.toNat_le (state.owned slot)
    have same : (state.pool.queued.map ClientTask.conn).count slot =
        state.pool.queued.countP (fun task => task.conn = slot) := by
      rw [List.count, List.countP_map]
      rfl
    rw [ServerState.inFlight] at flight
    omega
  calc state.pool.queued.length = (state.pool.queued.map ClientTask.conn).length := by simp
    _ ≤ Fintype.card Slot := distinct.length_le_card
    _ = maxConns := Fintype.card_fin _

theorem exists_fresh (delivers : state.pool.Delivers) :
    ∃ newNode, state.pool.heap newNode = none := by
  rcases delivers.queued_eq with ⟨nodes, isQueue, -⟩
  rcases Infinite.exists_notMem_finset (nodes.map Prod.fst).toFinset with ⟨newNode, fresh⟩
  refine ⟨newNode, ?_⟩
  rw [List.mem_toFinset, ← isQueue.allocated, Option.not_isSome_iff_eq_none] at fresh
  exact fresh

/-! ## Who holds the lock can go on -/

/-- The caller of `add_work` can go on inside the lock, whichever free block `malloc` returns. -/
theorem adderStep_of_locked (reached : (serverSystem size.Worker routes serverFd).Reachable state)
    (locked : (state.pool.adders ()).locked) {newNode : Address}
    (fresh : state.pool.heap newNode = none) : (state.pool.adderStep () newNode).isSome := by
  have sound := ThreadPool.lockSound_of_reachable (pool_reachable reached)
  have delivers := ThreadPool.delivers_of_reachable (pool_reachable reached)
  have short := (owned_of_reachable reached).queued_length_le
  rw [maxConns] at short
  have alone : total WorkerPlace.uncounted state.pool.workers = 0 := by
    apply total_eq_zero
    intro worker
    apply WorkerPlace.uncounted_of_not_locked
    apply Bool.eq_false_iff.mpr
    intro workerLocked
    have byWorker := Exclusive.holder sound
      (show state.pool.inside (.worker worker) from workerLocked)
    rw [Exclusive.holder sound (show state.pool.inside (.adder ()) from locked)] at byWorker
    cases byWorker
  rcases delivers.recorded with ⟨nodes, isQueue, order, counted⟩
  have length : nodes.length = state.pool.queued.length := by
    rw [ThreadPool.queued, ← order, List.drop_left, List.length_map]
  have size_ := isQueue.size
  cases at_ : state.pool.adders () <;> rw [at_] at locked <;> try cases locked
  case pushLast task =>
    rcases isQueue.push fresh task with ⟨heap, queue, pushed, -⟩
    have fits : state.pool.queue.size < intMax := by
      rw [intMax]
      omega
    simp [ThreadPool.adderStep, at_, fresh, fits, pushed]
  case addWork =>
    have fits : state.pool.availableWork < intMax := by
      rw [intMax]
      omega
    simp [ThreadPool.adderStep, at_, fits]
  all_goals simp [ThreadPool.adderStep, at_]

/-- A thread of the pool has a step of its own that it can take. -/
def GoesOn (routes : Dictionary RouteHandler) (serverFd : ℕ) (state : ServerState size.Worker)
    (thread : PoolThread size.Worker Unit) : Prop :=
  ∃ label : ServerLabel size.Worker, label.serves ∧ label.thread = some thread ∧
    ((serverSystem size.Worker routes serverFd).step label state).isSome

theorem goesOn_of_worker (takes : (state.pool.workerStep worker).isSome) :
    state.GoesOn routes serverFd (.worker worker) := by
  refine ⟨.worker worker, rfl, rfl, ?_⟩
  change ((state.pool.workerStep worker).map _).isSome
  rw [Option.isSome_map]
  exact takes

theorem goesOn_of_adder {newNode : Address} (takes : (state.pool.adderStep () newNode).isSome) :
    state.GoesOn routes serverFd (.adder ()) := by
  refine ⟨.addWork newNode, rfl, rfl, ?_⟩
  change ((state.pool.adderStep () newNode).map _).isSome
  rw [Option.isSome_map]
  exact takes

/-- Whoever holds the lock can go on. -/
theorem goesOn_of_holds (reached : (serverSystem size.Worker routes serverFd).Reachable state)
    {thread : PoolThread size.Worker Unit} (holds : state.pool.poolLock = some thread) :
    state.GoesOn routes serverFd thread := by
  have sound := ThreadPool.lockSound_of_reachable (pool_reachable reached)
  have delivers := ThreadPool.delivers_of_reachable (pool_reachable reached)
  have isInside : state.pool.inside thread := (sound thread).mpr holds
  cases thread with
  | worker worker =>
      exact goesOn_of_worker (ThreadPool.workerStep_of_locked delivers sound isInside)
  | adder adder =>
      rcases exists_fresh delivers with ⟨newNode, fresh⟩
      exact goesOn_of_adder (adderStep_of_locked reached isInside fresh)

/-- A call of `add_work` that has not returned goes on, or waits for a worker that does. -/
theorem goesOn_of_adding (reached : (serverSystem size.Worker routes serverFd).Reachable state)
    (adding : ∀ result, state.pool.adders () ≠ .returned result) :
    state.GoesOn routes serverFd (.adder ()) ∨
      ∃ worker, state.pool.poolLock = some (.worker worker) ∧
        state.GoesOn routes serverFd (.worker worker) := by
  cases lock : state.pool.poolLock with
  | none =>
      have outside : (state.pool.adders ()).locked = false :=
        Exclusive.outside (ThreadPool.lockSound_of_reachable (pool_reachable reached)) lock
          (.adder ())
      rcases AdderPlace.outside_cases outside with ⟨result, at_⟩ | ⟨task, at_⟩
      · exact absurd at_ (adding result)
      · exact Or.inl (@goesOn_of_adder _ _ _ _ 0 (by simp [ThreadPool.adderStep, at_, lock]))
  | some thread =>
      have goesOn := goesOn_of_holds reached lock
      cases thread with
      | worker worker => exact Or.inr ⟨worker, rfl, goesOn⟩
      | adder adder => exact Or.inl goesOn

/-! ## The reactor waits for `add_work` only -/

/-- Outside these places the last call has returned. -/
def Returned (state : ServerState size.Worker) : Prop :=
  state.reactor.submits = false → ∃ result, state.pool.adders () = .returned result

theorem Returned.reactorStep (returned : state.Returned) {input : ReactorInput}
    (taken : state.reactorStep serverFd input = some after) : after.Returned := by
  intro outsideAfter
  cases at_ : state.reactor <;> simp only [ServerState.reactorStep, at_] at taken
  case submit | readySubmit =>
    unfold ServerState.addWorkReturned at taken
    split at taken <;> cases taken
    exact ⟨_, ‹_›⟩
  case prepare | readyPrepare =>
    split_ifs at taken
    · rcases Option.map_eq_some_iff.mp taken with ⟨pool, -, rfl⟩
      cases outsideAfter
    · cases taken
      exact returned (by rw [at_]; rfl)
  case scan | ready | timeout =>
    cases taken
    rw [pool_visit]
    exact returned (by rw [at_]; rfl)
  case select =>
    split at taken
    · cases taken
      exact returned (by rw [at_]; rfl)
    · split_ifs at taken <;> cases taken <;> exact returned (by rw [at_]; rfl)
  case accept =>
    split at taken
    · cases taken
      exact returned (by rw [at_]; rfl)
    · split_ifs at taken
      cases taken
      exact returned (by rw [at_]; rfl)
  case claim => split at taken <;> cases taken <;> exact returned (by rw [at_]; rfl)
  case stopped => cases taken
  all_goals
    cases taken
    exact returned (by rw [at_]; rfl)

theorem Returned.step (returned : state.Returned)
    (taken : (serverSystem size.Worker routes serverFd).step label state = some after) :
    after.Returned := by
  have sameAdder : label.isReactor = false → after.pool.adders () = state.pool.adders () →
      after.Returned := by
    intro others same outside
    rw [reactor_of_step others taken] at outside
    rw [same]
    exact returned outside
  cases label with
  | reactor input => exact returned.reactorStep taken
  | task worker arrival =>
      rcases taskStep_pool taken with ⟨task, place, placeAfter, -, pool⟩
      exact sameAdder rfl (by rw [pool, ThreadPool.adders_moveWorker])
  | finishWork worker =>
      rcases finishWork_cases taken with ⟨-, rfl⟩
      exact sameAdder rfl rfl
  | worker worker =>
      rcases Option.map_eq_some_iff.mp taken with ⟨pool, moved, rfl⟩
      rcases ThreadPool.workerStep_moves moved with ⟨-, -, adders, -⟩
      exact sameAdder rfl (congrFun adders ())
  | interrupt worker =>
      rcases Option.map_eq_some_iff.mp taken with ⟨pool, moved, rfl⟩
      rcases ThreadPool.interrupt_cases moved with ⟨-, rfl⟩
      exact sameAdder rfl rfl
  | addWork newNode =>
      rcases Option.map_eq_some_iff.mp taken with ⟨pool, moved, rfl⟩
      intro outside
      rcases returned outside with ⟨result, at_⟩
      simp only [ThreadPool.adderStep, at_] at moved
      cases moved

theorem returned_of_reachable
    (reached : (serverSystem size.Worker routes serverFd).Reachable state) : state.Returned := by
  refine Transition.System.Reachable.invariant ?_ ?_ reached
  · rintro state ⟨count, -, rfl⟩ -
    exact ⟨0, rfl⟩
  · intro state label after returned taken
    exact returned.step taken

/-- What `select` and `accept` may return in a state. -/
def Offers (state : ServerState size.Worker) (input : ReactorInput) : Prop :=
  (∀ ready, input.ready = some ready → ready ⊆ state.readFds) ∧
    ∀ fd, input.incoming = some fd → state.descriptors fd = none

theorem reactorStep_isSome (running : state.reactor ≠ .stopped) {input : ReactorInput}
    (offers : state.Offers input)
    (returned : ∃ result, state.pool.adders () = .returned result) :
    (state.reactorStep serverFd input).isSome := by
  rcases returned with ⟨result, isReturned⟩
  cases at_ : state.reactor <;> simp only [ServerState.reactorStep, at_]
  case select =>
    cases ready : input.ready with
    | none => rfl
    | some ready => simp [offers.1 _ ‹_›]
  case accept =>
    cases incoming : input.incoming with
    | none => rfl
    | some fd => simp [offers.2 _ incoming]
  case claim =>
    split <;> rfl
  case prepare | readyPrepare =>
    split_ifs
    · simp [ServerState.handOver, ThreadPool.addWork, isReturned]
    · rfl
  case submit | readySubmit => simp [ServerState.addWorkReturned, isReturned]
  case stopped => exact absurd at_ running
  all_goals rfl

/-! ## A worker with a task can go on -/

/-- What `recv` may return in a slot. -/
def Arrives (state : ServerState size.Worker) (slot : Slot) : RecvResult → Prop
  | .received piece => piece ≠ [] ∧ piece.length ≤ (state.conns slot).room
  | _ => True

theorem advance_isSome (reached : (serverSystem size.Worker routes serverFd).Reachable state)
    {bytesRead : ℕ} (at_ : state.pool.workers worker = .work (some task) (.advance bytesRead)) :
    ((state.conns task.conn).advance bytesRead).isSome := by
  have works : state.WorkedAt task.conn (.advance bytesRead) :=
    Or.inl ⟨worker, task, at_, rfl, by simp⟩
  have counted := ((bounded_of_reachable (slotState_reachable reached works)).safe.counted
    bytesRead rfl).2
  have inside : (state.conns task.conn).readLength + bytesRead < bufferSize := by
    change ((state.conns task.conn).readLength : ℤ) + bytesRead ≤ 8191 at counted
    rw [bufferSize]
    omega
  rw [ReadBuffer.advance, dif_pos inside]
  rfl

theorem taskStep_isSome (reached : (serverSystem size.Worker routes serverFd).Reachable state)
    (at_ : state.pool.workers worker = .work (some task) place) (working : place ≠ .done)
    {arrival : Arrival} (arrives : state.Arrives task.conn arrival.result) :
    (state.taskStep routes worker arrival).isSome := by
  have hand := inHand_of_work at_ working
  cases place <;> simp only [ServerState.taskStep, at_]
  case recv =>
    have named := ((owned_of_reachable reached).named_of_hand hand (by rw [at_]; simp)).1
    cases result : arrival.result with
    | received piece =>
        rw [result] at arrives
        cases piece with
        | nil => exact absurd rfl arrives.1
        | cons byte piece =>
            simp only [ServerState.recvStep, named, ReadBuffer.store, dif_pos arrives.2]
            rfl
    | wouldBlock | ended | failed => simp [ServerState.recvStep, named]
  case advance bytesRead =>
    rw [Option.isSome_map]
    exact advance_isSome reached at_
  case done => exact absurd rfl working
  all_goals rfl

/-- What keeps the server going in a state. -/
structure Progresses (routes : Dictionary RouteHandler) (serverFd : ℕ)
    (state : ServerState size.Worker) : Prop where
  /-- The reactor can go on, or it waits for `add_work`, which goes on or waits for a worker. -/
  reactor : state.reactor ≠ .stopped →
    (∀ input, state.Offers input →
      ((serverSystem size.Worker routes serverFd).step (.reactor input) state).isSome) ∨
    state.reactor.submits ∧ (state.GoesOn routes serverFd (.adder ()) ∨
      ∃ worker, state.pool.poolLock = some (.worker worker) ∧
        state.GoesOn routes serverFd (.worker worker))
  /-- Whoever holds `pool_lock` can go on. -/
  holder : ∀ thread, state.pool.poolLock = some thread → state.GoesOn routes serverFd thread
  /-- The queue has room: it never holds more than one task for each slot. -/
  room : state.pool.queue.size = state.pool.queued.length ∧ state.pool.queued.length ≤ maxConns
  /-- A worker can go on with its task whatever it receives. -/
  task : ∀ worker task place, state.pool.workers worker = .work (some task) place →
    place ≠ .done → ∀ arrival, state.Arrives task.conn arrival.result →
    ((serverSystem size.Worker routes serverFd).step (.task worker arrival) state).isSome
  /-- The waiting ends: the others take a bounded number of steps. -/
  bounded : ∀ labels after,
    (serverSystem size.Worker routes serverFd).run labels state = some after →
    labels.countP ServerLabel.serves ≤ poolRemaining state.pool +
      315 * labels.countP ServerLabel.isReactor + 225 * labels.countP ServerLabel.interrupts

/--
In every reachable state whoever has something to do can do it or waits for somebody
who can, and no wait takes more than a bounded number of steps.
-/
theorem progresses_of_reachable
    (reached : (serverSystem size.Worker routes serverFd).Reachable state) :
    state.Progresses routes serverFd where
  reactor := by
    intro running
    by_cases returned : ∃ result, state.pool.adders () = .returned result
    · exact Or.inl fun input offers => reactorStep_isSome running offers returned
    · refine Or.inr ⟨?_, goesOn_of_adding reached (not_exists.mp returned)⟩
      by_contra outside
      exact returned (returned_of_reachable reached (Bool.eq_false_iff.mpr outside))
  holder := fun _ holds => goesOn_of_holds reached holds
  room := by
    have delivers := ThreadPool.delivers_of_reachable (pool_reachable reached)
    rcases delivers.queued_eq with ⟨nodes, isQueue, order⟩
    refine ⟨?_, (owned_of_reachable reached).queued_length_le⟩
    rw [isQueue.size, ← order, List.length_map]
  task := fun _ _ _ at_ working _ arrives => taskStep_isSome reached at_ working arrives
  bounded := fun _ _ ran => (Nat.le_add_right _ _).trans (serves_le_of_run ran)

/-- The reactor has called `add_work`, which waits for the lock a worker holds. -/
def waitingRun : List (ServerLabel Shutdown.twoWorkers.Worker) :=
  List.replicate 259 (.reactor quiet) ++ [.reactor { quiet with incoming := some 5 }] ++
    List.replicate 6 (.reactor quiet) ++
    [.interrupt ThreadPool.secondWorker, .worker ThreadPool.secondWorker]

theorem waitingRun_progresses :
    ∃ state, (serverSystem Shutdown.twoWorkers.Worker dictionaryConstructor 3).run waitingRun
        (serverStart 3 0) = some state ∧
      state.reactor.submits ∧ state.pool.adders () = .mutexLock ⟨5, 0, 0⟩ ∧
      state.pool.poolLock = some (.worker ⟨1, by decide⟩) ∧
      state.Progresses dictionaryConstructor 3 := by
  have initially : (serverSystem Shutdown.twoWorkers.Worker dictionaryConstructor 3).initial
      (serverStart 3 0) := ⟨0, by decide, rfl⟩
  have works : ((serverSystem Shutdown.twoWorkers.Worker dictionaryConstructor 3).run waitingRun
      (serverStart 3 0)).map (fun state =>
        (state.reactor.submits, state.pool.adders (), state.pool.poolLock)) =
      some (true, .mutexLock ⟨5, 0, 0⟩, some (.worker ⟨1, by decide⟩)) := by decide +kernel
  rcases Option.map_eq_some_iff.mp works with ⟨state, ran, facts⟩
  simp only [Prod.mk.injEq] at facts
  exact ⟨state, ran, facts.1, facts.2.1, facts.2.2,
    progresses_of_reachable (Transition.System.Reachable.run (.start initially) ran)⟩

end ServerState

end LetUsConnect
