import LetUsConnect.Network.ThreadPool.Destroy

/-!
# Telling the workers to exit

When the loop at the start of `thread_pool_destroy` ends, the queue is empty and no
worker is about to take from it. From then on a worker that looks at its state
leaves, so the workers asleep only become fewer, and the posts are enough to wake
them all. Nothing a worker refers to is given back before the worker has exited.
-/

namespace LetUsConnect

universe u v

open Threads

/-! ## The places of a worker after the queue was drained -/

namespace WorkerPlace

variable {Task : Type u} {Body : Type v}

/-- The places from which a worker of a terminated pool goes on to exit. -/
def stops : WorkerPlace Task Body → Bool
  | .semWait | .mutexLock | .checkState | .work _ _ | .relock | .recheckState | .unlockExit
  | .exited => true
  | _ => false

def asleep : WorkerPlace Task Body → ℕ
  | .semWait => 1
  | _ => 0

variable {place : WorkerPlace Task Body}

theorem touches_of_hasExited {Worker : Type} {worker : Worker} (exited : place.hasExited) :
    place.touches worker = [] := by
  cases place <;> first | rfl | cases exited

theorem state_of_touches {Worker : Type} {worker other : Worker}
    (touches : PoolResource.state other ∈ place.touches worker) : other = worker := by
  cases place <;> simp_all [WorkerPlace.touches]

end WorkerPlace

namespace PoolLabel

variable {Task : Type u} {Body : Type v} {Worker Adder : Type}

/-- The worker that takes a step of the pool. -/
def mover : PoolLabel Task Body Worker Adder → Option Worker
  | .worker moving | .interrupt moving | .proceed moving _ | .finishWork moving => some moving
  | .addWork _ _ | .adder _ _ => none

end PoolLabel

namespace ThreadPool

variable {Task : Type u} {Body : Type v} {Worker Adder : Type} [DecidableEq Worker]
  [DecidableEq Adder] [Inhabited Body] {pool after : ThreadPool Task Body Worker Adder}
  {worker : Worker} {label : PoolLabel Task Body Worker Adder}

/-- A step of one worker, towards its exit when the pool is terminated. -/
structure Moves (pool after : ThreadPool Task Body Worker Adder) (worker : Worker)
    (place : WorkerPlace Task Body) : Prop where
  workers : after.workers = Function.update pool.workers worker place
  adders : after.adders = pool.adders
  lock : LockMove (.worker worker) pool.poolLock (pool.workers worker).locked place.locked
    after.poolLock
  availableWork : after.availableWork ≤ pool.availableWork
  active : (pool.workers worker).hasExited = false

theorem moves_of_step (isMover : label.mover = some worker)
    (taken : (poolSystem Task Body Worker Adder).step label pool = some after) :
    ∃ place, pool.Moves after worker place := by
  cases label <;> cases isMover
  case worker =>
    rcases workerStep_moves taken with ⟨place, workers, adders, lock⟩
    change workerStep worker pool = some after at taken
    refine ⟨place, workers, adders, lock, ?_, ?_⟩
    · cases at_ : pool.workers worker <;> simp only [workerStep, at_] at taken
      case semWait | mutexLock | relock =>
        split_ifs at taken
        cases taken
        exact le_rfl
      case popFirst =>
        rcases Option.map_eq_some_iff.mp taken with ⟨popped, -, rfl⟩
        exact le_rfl
      case takeWork =>
        cases taken
        exact Int.sub_le_self _ (by decide)
      case work | exited => cases taken
      all_goals
        cases taken
        exact le_rfl
    · cases at_ : pool.workers worker <;> first | rfl | simp [workerStep, at_] at taken
  case interrupt =>
    change interrupt worker pool = some after at taken
    cases at_ : pool.workers worker <;> simp only [interrupt, at_] at taken <;> cases taken
    exact ⟨_, rfl, rfl, by rw [at_]; exact .stay _ _, le_rfl, by rw [at_]; rfl⟩
  case proceed =>
    change proceed worker _ pool = some after at taken
    cases at_ : pool.workers worker <;> simp only [proceed, at_] at taken <;> cases taken
    exact ⟨_, rfl, rfl, by rw [at_]; exact .stay _ _, le_rfl, by rw [at_]; rfl⟩
  case finishWork =>
    change finishWork worker pool = some after at taken
    cases at_ : pool.workers worker <;> simp only [finishWork, at_] at taken <;> cases taken
    exact ⟨_, rfl, rfl, by rw [at_]; exact .stay _ _, le_rfl, by rw [at_]; rfl⟩

/-- A worker that finds itself terminated gets closer to its exit and changes nothing else. -/
structure Stops (pool after : ThreadPool Task Body Worker Adder) (worker : Worker) : Prop where
  stops : (after.workers worker).stops
  awake : (after.workers worker).asleep = 0
  poolSem : pool.poolSem ≤ after.poolSem + (pool.workers worker).asleep
  threadsStates : after.threadsStates = pool.threadsStates
  queued : after.queued = pool.queued

theorem stops_of_step (isMover : label.mover = some worker) (stops : (pool.workers worker).stops)
    (marked : (pool.workers worker).locked → pool.threadsStates worker = .terminated)
    (taken : (poolSystem Task Body Worker Adder).step label pool = some after) :
    pool.Stops after worker := by
  cases label <;> cases isMover
  case worker =>
    change workerStep worker pool = some after at taken
    cases at_ : pool.workers worker <;> rw [at_] at stops <;> try cases stops
    all_goals simp only [workerStep, at_] at taken
    case semWait =>
      split_ifs at taken
      cases taken
      refine ⟨?_, ?_, ?_, rfl, rfl⟩
      · simp [moveWorker, WorkerPlace.stops]
      · simp [moveWorker, WorkerPlace.asleep]
      · rw [at_]
        simp only [WorkerPlace.asleep]
        omega
    case mutexLock | relock =>
      split_ifs at taken
      cases taken
      refine ⟨?_, ?_, Nat.le_add_right _ _, rfl, rfl⟩
      · simp [moveWorker, WorkerPlace.stops]
      · simp [moveWorker, WorkerPlace.asleep]
    case checkState | recheckState =>
      rw [if_pos (marked (by rw [at_]; rfl))] at taken
      cases taken
      refine ⟨?_, ?_, Nat.le_add_right _ _, rfl, rfl⟩
      · simp [moveWorker, WorkerPlace.stops]
      · simp [moveWorker, WorkerPlace.asleep]
    case unlockExit =>
      cases taken
      refine ⟨?_, ?_, Nat.le_add_right _ _, rfl, rfl⟩
      · simp [moveWorker, WorkerPlace.stops]
      · simp [moveWorker, WorkerPlace.asleep]
    case work | exited => cases taken
  case interrupt =>
    change interrupt worker pool = some after at taken
    cases at_ : pool.workers worker <;> simp only [interrupt, at_] at taken <;> cases taken
    refine ⟨?_, ?_, Nat.le_add_right _ _, rfl, rfl⟩
    · simp [moveWorker, WorkerPlace.stops]
    · simp [moveWorker, WorkerPlace.asleep]
  case proceed =>
    change proceed worker _ pool = some after at taken
    cases at_ : pool.workers worker <;> simp only [proceed, at_] at taken <;> cases taken
    refine ⟨?_, ?_, Nat.le_add_right _ _, rfl, rfl⟩
    · simp [moveWorker, WorkerPlace.stops]
    · simp [moveWorker, WorkerPlace.asleep]
  case finishWork =>
    change finishWork worker pool = some after at taken
    cases at_ : pool.workers worker <;> simp only [finishWork, at_] at taken <;> cases taken
    refine ⟨?_, ?_, Nat.le_add_right _ _, rfl, rfl⟩
    · simp [moveWorker, WorkerPlace.stops]
    · simp [moveWorker, WorkerPlace.asleep]

end ThreadPool

/-! ## The places of the destruction -/

namespace DestroyPlace

/-- The workers still serve the queue. -/
def isOpen : DestroyPlace → Bool
  | .waitWork | .mutexLock => true
  | _ => false

def locks : DestroyPlace → Bool
  | .terminate _ | .unlock => true
  | _ => false

/-- Whether the worker has been told to exit. -/
def marks (worker : ℕ) : DestroyPlace → Bool
  | .waitWork | .mutexLock => false
  | .terminate index => worker < index
  | _ => true

/-- The posts that are still to come. -/
def posts (count : ℕ) : DestroyPlace → ℕ
  | .semPost index => count - index
  | .terminate _ | .unlock => count
  | _ => 0

/-- Whether the worker has been joined. -/
def joined (worker : ℕ) : DestroyPlace → Bool
  | .join index => worker < index
  | .freeState index => worker ≤ index
  | .semClose | .freeLock | .returned | .routesDestroyed => true
  | _ => false

end DestroyPlace

namespace WorkerPlace

variable {Task : Type u} {Body : Type v} {place : WorkerPlace Task Body}

theorem stops_of_not_locked (outside : place.locked = false) : place.stops := by
  cases place <;> first | rfl | cases outside

end WorkerPlace

/-! ## The invariant of the destruction -/

namespace Shutdown

variable {Task : Type u} {Body : Type v} {size : PoolSize} {Adder : Type}
  [DecidableEq Adder] [Inhabited Body] {destroyer : Adder}
  {state after : Shutdown Task Body size Adder} {worker : size.Worker}

def inside (destroyer : Adder) (state : Shutdown Task Body size Adder) :
    PoolThread size.Worker Adder → Bool
  | .worker worker => (state.pool.workers worker).locked
  | .adder adder => adder = destroyer && state.place.locks

/-- How far the workers are when the destruction is at a place. -/
structure Orderly (destroyer : Adder) (state : Shutdown Task Body size Adder) : Prop where
  quiet : ∀ adder, ∃ result, state.pool.adders adder = .returned result
  reachable : state.place.isOpen → (poolSystem Task Body size.Worker Adder).Reachable state.pool
  drained : state.place ≠ .waitWork → state.pool.availableWork ≤ 0
  exclusive : Exclusive state.pool.poolLock (state.inside destroyer)
  emptied : state.place.isOpen = false → state.pool.queued = []
  stops : state.place.isOpen = false → ∀ worker, (state.pool.workers worker).stops
  marked : ∀ worker : size.Worker, state.place.marks worker →
    state.pool.threadsStates worker = .terminated
  announced : state.place.isOpen = false → total WorkerPlace.asleep state.pool.workers ≤
    state.pool.poolSem + state.place.posts size.currSize
  joined : ∀ worker : size.Worker, state.place.joined worker →
    (state.pool.workers worker).hasExited
  freedState : ∀ worker, state.freed (.state worker) → (state.pool.workers worker).hasExited
  freedShared : ∀ resource, state.freed resource → (∀ worker, resource ≠ .state worker) →
    ∀ worker, (state.pool.workers worker).hasExited

theorem orderly_begin {pool : ThreadPool Task Body size.Worker Adder}
    (reached : (poolSystem Task Body size.Worker Adder).Reachable pool)
    (quiet : ∀ adder, ∃ result, pool.adders adder = .returned result) :
    (begin pool).Orderly destroyer where
  quiet := quiet
  reachable := fun _ => reached
  drained := fun differs => absurd rfl differs
  exclusive := by
    intro thread
    refine Iff.trans ?_ (ThreadPool.lockSound_of_reachable reached thread)
    cases thread with
    | worker worker => exact Iff.rfl
    | adder adder =>
        rcases quiet adder with ⟨result, returned⟩
        simp [inside, ThreadPool.inside, begin, DestroyPlace.locks, returned, AdderPlace.locked]
  emptied := nofun
  stops := nofun
  marked := nofun
  announced := nofun
  joined := nofun
  freedState := nofun
  freedShared := nofun

theorem Orderly.not_locks (orderly : state.Orderly destroyer)
    (locked : (state.pool.workers worker).locked) : state.place.locks = false := by
  apply Bool.eq_false_iff.mpr
  intro locks
  have byWorker :=
    orderly.exclusive.holder (show state.inside destroyer (.worker worker) from locked)
  have isInside : state.inside destroyer (.adder destroyer) := by
    rw [inside, locks, decide_eq_true rfl]
    rfl
  rw [orderly.exclusive.holder isInside] at byWorker
  cases byWorker

theorem marks_of_closed {place : DestroyPlace} (closed : place.isOpen = false)
    (unlocked : place.locks = false) (worker : ℕ) : place.marks worker := by
  cases place <;> simp_all [DestroyPlace.isOpen, DestroyPlace.locks, DestroyPlace.marks]

/-- A worker inside the lock after the queue was drained finds itself terminated. -/
theorem Orderly.terminated (orderly : state.Orderly destroyer)
    (closed : state.place.isOpen = false) (locked : (state.pool.workers worker).locked) :
    state.pool.threadsStates worker = .terminated :=
  orderly.marked worker (marks_of_closed closed (orderly.not_locks locked) worker)

/-! ### Steps of the workers -/

theorem Orderly.move (orderly : state.Orderly destroyer)
    {label : PoolLabel Task Body size.Worker Adder} (isMover : label.mover = some worker)
    (taken : (poolSystem Task Body size.Worker Adder).step label state.pool = some after.pool)
    (place : after.place = state.place) (freed : after.freed = state.freed) :
    after.Orderly destroyer := by
  rcases ThreadPool.moves_of_step isMover taken with ⟨placeAfter, moves⟩
  have towardsExit : state.place.isOpen = false → state.pool.Stops after.pool worker :=
    fun closed =>
      ThreadPool.stops_of_step isMover (orderly.stops closed worker) (orderly.terminated closed)
        taken
  have exited : ∀ other, (state.pool.workers other).hasExited →
      (after.pool.workers other).hasExited := by
    intro other hasExited
    have differs : other ≠ worker := by
      rintro rfl
      rw [moves.active] at hasExited
      cases hasExited
    rwa [moves.workers, Function.update_of_ne differs]
  refine ⟨?_, ?_, ?_, ?_, ?_, ?_, ?_, ?_, ?_, ?_, ?_⟩
  · rw [moves.adders]
    exact orderly.quiet
  · rw [place]
    exact fun isOpen => .next (orderly.reachable isOpen) trivial taken
  · rw [place]
    exact fun differs => moves.availableWork.trans (orderly.drained differs)
  · have movedInside : LockMove (.worker worker) state.pool.poolLock
        (state.inside destroyer (.worker worker)) (after.inside destroyer (.worker worker))
        after.pool.poolLock := by
      simpa [inside, moves.workers] using moves.lock
    apply orderly.exclusive.move movedInside
    intro other differs
    cases other with
    | worker other =>
        have isOther : other ≠ worker := fun same => differs (congrArg _ same)
        simp [inside, moves.workers, isOther]
    | adder other => simp [inside, place]
  · rw [place]
    exact fun closed => (towardsExit closed).queued.trans (orderly.emptied closed)
  · rw [place]
    intro closed other
    by_cases same : other = worker
    · rw [same]
      exact (towardsExit closed).stops
    · rw [moves.workers, Function.update_of_ne same]
      exact orderly.stops closed other
  · rw [place]
    intro other marks
    have closed : state.place.isOpen = false := by
      cases at_ : state.place <;> rw [at_] at marks <;> first | rfl | cases marks
    rw [(towardsExit closed).threadsStates]
    exact orderly.marked other marks
  · rw [place]
    intro closed
    have stops := towardsExit closed
    have announced := orderly.announced closed
    have counted := total_update WorkerPlace.asleep state.pool.workers worker placeAfter
    have awake := stops.awake
    have tokens := stops.poolSem
    rw [moves.workers, Function.update_self] at awake
    rw [moves.workers]
    omega
  · rw [place]
    exact fun other joined => exited other (orderly.joined other joined)
  · rw [freed]
    exact fun other isFreed => exited other (orderly.freedState other isFreed)
  · rw [freed]
    exact fun resource isFreed shared other =>
      exited other (orderly.freedShared resource isFreed shared other)

/-- A step of a worker is its step in the pool. -/
theorem pool_of_step {label : ShutdownLabel Body size}
    (taken : (shutdownSystem Task Body size Adder destroyer).step label state = some after) :
    (label = .spin ∧ after = state) ∨
      (label = .destroy ∧ state.destroyStep destroyer = some after) ∨
      ∃ move worker, PoolLabel.mover move = some worker ∧
        (poolSystem Task Body size.Worker Adder).step move state.pool = some after.pool ∧
        after.place = state.place ∧ after.freed = state.freed := by
  cases label with
  | spin =>
      change state.spin = some after at taken
      rw [Shutdown.spin] at taken
      split_ifs at taken
      cases taken
      exact Or.inl ⟨rfl, rfl⟩
  | destroy => exact Or.inr (Or.inl ⟨rfl, taken⟩)
  | worker worker =>
      rcases Option.map_eq_some_iff.mp taken with ⟨pool, moved, rfl⟩
      exact Or.inr (Or.inr ⟨.worker worker, worker, rfl, moved, rfl, rfl⟩)
  | interrupt worker =>
      rcases Option.map_eq_some_iff.mp taken with ⟨pool, moved, rfl⟩
      exact Or.inr (Or.inr ⟨.interrupt worker, worker, rfl, moved, rfl, rfl⟩)
  | proceed worker body =>
      rcases Option.map_eq_some_iff.mp taken with ⟨pool, moved, rfl⟩
      exact Or.inr (Or.inr ⟨.proceed worker body, worker, rfl, moved, rfl, rfl⟩)
  | finishWork worker =>
      rcases Option.map_eq_some_iff.mp taken with ⟨pool, moved, rfl⟩
      exact Or.inr (Or.inr ⟨.finishWork worker, worker, rfl, moved, rfl, rfl⟩)

/-! ### Steps of the destruction -/

omit [DecidableEq Adder] [Inhabited Body] in
theorem asleep_le (state : Shutdown Task Body size Adder) :
    total WorkerPlace.asleep state.pool.workers ≤ size.currSize := by
  have most : ∀ worker, (state.pool.workers worker).asleep ≤ 1 := by
    intro worker
    cases state.pool.workers worker <;> simp [WorkerPlace.asleep]
  simpa using total_le_card most

variable [Fintype Adder]

/-- The queue is drained when the lock is taken. -/
theorem Orderly.lock (orderly : state.Orderly destroyer) (at_ : state.place = .mutexLock)
    (free : state.pool.poolLock = none) :
    Orderly destroyer
      { state.goto (.terminate 0) with
        pool := { state.pool with poolLock := some (.adder destroyer) } } := by
  have reached := orderly.reachable (by rw [at_]; rfl)
  have outside := (ThreadPool.delivers_of_reachable reached).outside
    (ThreadPool.lockSound_of_reachable reached) free
  have noneLocked : ∀ worker, (state.pool.workers worker).locked = false :=
    fun worker => orderly.exclusive.outside free (.worker worker)
  refine ⟨orderly.quiet, nofun, ?_, ?_, ?_, ?_, nofun, ?_, nofun, orderly.freedState,
    orderly.freedShared⟩
  · exact fun _ => orderly.drained (by rw [at_]; simp)
  · intro thread
    cases thread with
    | worker worker => simp [inside, noneLocked]
    | adder adder => simp [inside, goto, DestroyPlace.locks, eq_comm]
  · intro _
    rcases outside.1 with ⟨nodes, -, size_, work, order⟩
    have drained := orderly.drained (by rw [at_]; simp)
    have noNodes : nodes = [] := by
      apply List.eq_nil_of_length_eq_zero
      omega
    rw [noNodes, List.map_nil, List.append_nil] at order
    change state.pool.added.drop state.pool.popped.length = []
    rw [order, List.drop_length]
  · exact fun _ worker => WorkerPlace.stops_of_not_locked (noneLocked worker)
  · intro _
    exact (asleep_le state).trans (Nat.le_add_left _ _)

omit [Fintype Adder] in
/-- The destruction goes on to a place that promises no more than it has done. -/
theorem Orderly.goto (orderly : state.Orderly destroyer) {place : DestroyPlace}
    (closed : state.place.isOpen = false) (closedAfter : place.isOpen = false)
    (locks : place.locks = state.place.locks)
    (marked : ∀ worker : size.Worker, place.marks worker →
      state.pool.threadsStates worker = .terminated)
    (posts : state.place.posts size.currSize ≤ place.posts size.currSize)
    (joined : ∀ worker : size.Worker, place.joined worker →
      (state.pool.workers worker).hasExited) : (state.goto place).Orderly destroyer where
  quiet := orderly.quiet
  reachable := by
    intro isOpen
    rw [Shutdown.goto, closedAfter] at isOpen
    cases isOpen
  drained := by
    intro _
    apply orderly.drained
    intro at_
    rw [at_] at closed
    cases closed
  exclusive := by
    have same : (state.goto place).inside destroyer = state.inside destroyer := by
      funext thread
      cases thread with
      | worker worker => rfl
      | adder adder => simp [inside, Shutdown.goto, locks]
    rw [same]
    exact orderly.exclusive
  emptied := fun _ => orderly.emptied closed
  stops := fun _ => orderly.stops closed
  marked := marked
  announced := fun _ => (orderly.announced closed).trans (Nat.add_le_add_left posts _)
  joined := joined
  freedState := orderly.freedState
  freedShared := orderly.freedShared

omit [Fintype Adder] [DecidableEq Adder] [Inhabited Body] in
theorem freed_free_of_ne {resource other : PoolResource size.Worker} (differs : other ≠ resource) :
    (state.free resource).freed other = state.freed other :=
  Function.update_of_ne differs _ _

omit [Fintype Adder] in
theorem Orderly.free (orderly : state.Orderly destroyer) {resource : PoolResource size.Worker}
    (own : ∀ worker, resource = .state worker → (state.pool.workers worker).hasExited)
    (shared : (∀ worker, resource ≠ .state worker) →
      ∀ worker, (state.pool.workers worker).hasExited) : (state.free resource).Orderly destroyer :=
  { orderly with
    freedState := by
      intro worker isFreed
      by_cases same : PoolResource.state worker = resource
      · exact own worker same.symm
      · rw [freed_free_of_ne same] at isFreed
        exact orderly.freedState worker isFreed
    freedShared := by
      intro other isFreed isShared
      by_cases same : other = resource
      · exact shared (same ▸ isShared)
      · rw [freed_free_of_ne same] at isFreed
        exact orderly.freedShared other isFreed isShared }

omit [Fintype Adder] in
/-- The posts that fail come when there are tokens enough. -/
theorem Orderly.semPost (orderly : state.Orderly destroyer) {index : ℕ}
    (at_ : state.place = .semPost index) (more : index < size.currSize) :
    Orderly destroyer
      { state.goto (.semPost (index + 1)) with
        pool := { state.pool with poolSem := LetUsConnect.semPost state.pool.poolSem } } where
  quiet := orderly.quiet
  reachable := nofun
  drained := fun _ => orderly.drained (by rw [at_]; simp)
  exclusive := by
    intro thread
    refine Iff.trans ?_ (orderly.exclusive thread)
    cases thread with
    | worker worker => exact Iff.rfl
    | adder adder => simp [inside, Shutdown.goto, DestroyPlace.locks, at_]
  emptied := fun _ => orderly.emptied (by rw [at_]; rfl)
  stops := fun _ => orderly.stops (by rw [at_]; rfl)
  marked := fun worker _ => orderly.marked worker (by rw [at_]; rfl)
  announced := by
    intro _
    have announced := orderly.announced (by rw [at_]; rfl)
    have few := asleep_le state
    have fits := size.fits
    rw [at_, DestroyPlace.posts] at announced
    simp only [Shutdown.goto, DestroyPlace.posts]
    rcases ThreadPool.Delivers.semPost_cases state.pool.poolSem with posted | ⟨full, kept⟩
    · omega
    · rw [semValueMax] at full
      rw [intMax] at fits
      omega
  joined := nofun
  freedState := orderly.freedState
  freedShared := orderly.freedShared

omit [Fintype Adder] in
/-- `pool_lock` is given back when every worker has been told to exit. -/
theorem Orderly.unlock (orderly : state.Orderly destroyer) (at_ : state.place = .unlock) :
    Orderly destroyer
      { state.goto (.semPost 0) with pool := { state.pool with poolLock := none } } where
  quiet := orderly.quiet
  reachable := nofun
  drained := fun _ => orderly.drained (by rw [at_]; simp)
  exclusive := by
    have isInside : state.inside destroyer (.adder destroyer) = true := by
      simp [inside, at_, DestroyPlace.locks]
    intro thread
    have before := orderly.exclusive thread
    rw [orderly.exclusive.holder isInside] at before
    cases thread with
    | worker worker => simpa [inside] using before
    | adder adder => simp [inside, Shutdown.goto, DestroyPlace.locks]
  emptied := fun _ => orderly.emptied (by rw [at_]; rfl)
  stops := fun _ => orderly.stops (by rw [at_]; rfl)
  marked := fun worker _ => orderly.marked worker (by rw [at_]; rfl)
  announced := by
    intro _
    have announced := orderly.announced (by rw [at_]; rfl)
    rwa [at_] at announced
  joined := nofun
  freedState := orderly.freedState
  freedShared := orderly.freedShared

omit [Fintype Adder] in
theorem Orderly.terminate (orderly : state.Orderly destroyer) {index : ℕ}
    (at_ : state.place = .terminate index) (isWorker : index = worker) :
    Orderly destroyer
      { state.goto (.terminate (index + 1)) with
        pool := { state.pool with
          threadsStates := Function.update state.pool.threadsStates worker .terminated } } where
  quiet := orderly.quiet
  reachable := nofun
  drained := fun _ => orderly.drained (by rw [at_]; simp)
  exclusive := by
    intro thread
    refine Iff.trans ?_ (orderly.exclusive thread)
    cases thread with
    | worker worker => exact Iff.rfl
    | adder adder => simp [inside, Shutdown.goto, DestroyPlace.locks, at_]
  emptied := fun _ => orderly.emptied (by rw [at_]; rfl)
  stops := fun _ => orderly.stops (by rw [at_]; rfl)
  marked := by
    intro other marks
    change Function.update state.pool.threadsStates worker .terminated other = .terminated
    by_cases same : other = worker
    · rw [same, Function.update_self]
    · rw [Function.update_of_ne same]
      apply orderly.marked other
      rw [at_]
      have differs : (other : ℕ) ≠ worker := fun isSame => same (Fin.ext isSame)
      simp only [Shutdown.goto, DestroyPlace.marks, decide_eq_true_eq] at marks ⊢
      omega
  announced := by
    intro _
    have announced := orderly.announced (by rw [at_]; rfl)
    rwa [at_] at announced
  joined := nofun
  freedState := orderly.freedState
  freedShared := orderly.freedShared

omit [Fintype Adder] in
/-- The queue was seen empty. -/
theorem Orderly.waited (orderly : state.Orderly destroyer) (at_ : state.place = .waitWork)
    (empty : state.pool.availableWork ≤ 0) : (state.goto .mutexLock).Orderly destroyer where
  quiet := orderly.quiet
  reachable := fun _ => orderly.reachable (by rw [at_]; rfl)
  drained := fun _ => empty
  exclusive := by
    intro thread
    refine Iff.trans ?_ (orderly.exclusive thread)
    cases thread with
    | worker worker => exact Iff.rfl
    | adder adder => simp [inside, Shutdown.goto, DestroyPlace.locks, at_]
  emptied := nofun
  stops := nofun
  marked := nofun
  announced := nofun
  joined := nofun
  freedState := orderly.freedState
  freedShared := orderly.freedShared

omit [Fintype Adder] in
/-- A worker that has exited need not be waited for. -/
theorem Orderly.join (orderly : state.Orderly destroyer) (at_ : state.place = .join worker)
    (hasExited : (state.pool.workers worker).hasExited) :
    (state.goto (.freeState worker)).Orderly destroyer := by
  refine orderly.goto (by rw [at_]; rfl) rfl (by rw [at_]; rfl)
    (fun worker _ => orderly.marked worker (by rw [at_]; rfl)) (by rw [at_]; rfl) ?_
  intro other isJoined
  by_cases same : other = worker
  · rwa [same]
  · apply orderly.joined other
    rw [at_]
    have differs : (other : ℕ) ≠ worker := fun isSame => same (Fin.ext isSame)
    simp only [DestroyPlace.joined, decide_eq_true_eq] at isJoined ⊢
    omega

omit [Fintype Adder] in
theorem Orderly.freeState (orderly : state.Orderly destroyer)
    (at_ : state.place = .freeState worker) :
    ((state.free (.state worker)).goto (.join (worker + 1))).Orderly destroyer := by
  have exited : ∀ other : size.Worker, (other : ℕ) ≤ worker →
      (state.pool.workers other).hasExited :=
    fun other before => orderly.joined other (by rw [at_]; exact decide_eq_true before)
  have freed : (state.free (.state worker)).Orderly destroyer := by
    apply orderly.free
    · rintro other same
      cases same
      exact exited worker le_rfl
    · exact fun isShared => absurd rfl (isShared worker)
  have at' : (state.free (.state worker)).place = .freeState worker := at_
  refine freed.goto (by rw [at']; rfl) rfl (by rw [at']; rfl) ?_ (by rw [at']; rfl) ?_
  · exact fun worker _ => orderly.marked worker (by rw [at_]; rfl)
  · intro other isJoined
    apply exited other
    simp only [DestroyPlace.joined, decide_eq_true_eq] at isJoined
    omega

theorem Orderly.destroyStep (orderly : state.Orderly destroyer)
    (taken : state.destroyStep destroyer = some after) : after.Orderly destroyer := by
  cases at_ : state.place <;> simp only [Shutdown.destroyStep, at_] at taken
  case waitWork =>
    split_ifs at taken with waits
    cases taken
    exact orderly.waited at_ (Int.not_lt.mp waits)
  case mutexLock =>
    split_ifs at taken with isFree
    cases taken
    exact orderly.lock at_ isFree
  case terminate index =>
    split at taken
    case h_1 worker found =>
      cases taken
      exact orderly.terminate at_ (PoolSize.workerAt_eq_some found).1
    case h_2 finished =>
      cases taken
      have bound := PoolSize.workerAt_eq_none finished
      refine orderly.goto (by rw [at_]; rfl) rfl (by rw [at_]; rfl) ?_ (by rw [at_]; rfl) nofun
      intro worker _
      apply orderly.marked worker
      rw [at_]
      exact decide_eq_true (worker.isLt.trans_le bound)
  case unlock =>
    cases taken
    exact orderly.unlock at_
  case semPost index =>
    split_ifs at taken with more
    · cases taken
      exact orderly.semPost at_ more
    · cases taken
      refine orderly.goto (by rw [at_]; rfl) rfl (by rw [at_]; rfl) ?_ ?_ ?_
      · exact fun worker _ => orderly.marked worker (by rw [at_]; rfl)
      · rw [at_]
        exact (Nat.sub_eq_zero_of_le (Nat.le_of_not_lt more)).le
      · intro worker isJoined
        simp [DestroyPlace.joined] at isJoined
  case join index =>
    split at taken
    case h_1 worker found =>
      rcases PoolSize.workerAt_eq_some found with ⟨rfl, -⟩
      split_ifs at taken with hasExited
      cases taken
      exact orderly.join at_ hasExited
    case h_2 finished =>
      cases taken
      have bound := PoolSize.workerAt_eq_none finished
      refine orderly.goto (by rw [at_]; rfl) rfl (by rw [at_]; rfl)
        (fun worker _ => orderly.marked worker (by rw [at_]; rfl)) (by rw [at_]; rfl) ?_
      intro worker _
      apply orderly.joined worker
      rw [at_]
      exact decide_eq_true (worker.isLt.trans_le bound)
  case freeState index =>
    rcases Option.map_eq_some_iff.mp taken with ⟨worker, found, rfl⟩
    rcases PoolSize.workerAt_eq_some found with ⟨rfl, -⟩
    exact orderly.freeState at_
  case semClose | freeLock | returned =>
    cases taken
    have exited : ∀ worker, (state.pool.workers worker).hasExited :=
      fun worker => orderly.joined worker (by rw [at_]; rfl)
    have marked : ∀ worker : size.Worker, state.pool.threadsStates worker = .terminated :=
      fun worker => orderly.marked worker (by rw [at_]; rfl)
    have freed : ∀ resource, (state.free resource).Orderly destroyer :=
      fun _ => orderly.free (fun worker _ => exited worker) fun _ => exited
    refine (freed _).goto ?_ rfl ?_ (fun worker _ => marked worker) ?_
      (fun worker _ => exited worker)
    all_goals
      rw [Shutdown.free, at_]
      rfl
  case routesDestroyed => cases taken

theorem Orderly.step (orderly : state.Orderly destroyer) {label : ShutdownLabel Body size}
    (taken : (shutdownSystem Task Body size Adder destroyer).step label state = some after) :
    after.Orderly destroyer := by
  rcases pool_of_step taken with ⟨-, rfl⟩ | ⟨-, destroyed⟩ |
    ⟨move, worker, isMover, moved, place, freed⟩
  · exact orderly
  · exact orderly.destroyStep destroyed
  · exact orderly.move isMover moved place freed

theorem orderly_of_reachable
    (reached : (shutdownSystem Task Body size Adder destroyer).Reachable state) :
    state.Orderly destroyer := by
  refine Transition.System.Reachable.invariant ?_ ?_ reached
  · rintro state ⟨pool, poolReached, quiet, rfl⟩
    exact orderly_begin poolReached quiet
  · intro state label after orderly taken
    exact orderly.step taken

end Shutdown

end LetUsConnect
