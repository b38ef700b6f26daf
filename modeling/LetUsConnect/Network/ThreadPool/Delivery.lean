import LetUsConnect.Network.ThreadPool

/-!
# Delivery of work

The queue, `available_work` and the semaphore each record the work that waits,
and change at different moments. `Delivers` says how far apart they may be while
a thread is inside `pool_lock`, by counting the threads that have changed one
record and not yet the next; outside the lock these counts vanish.
-/

namespace LetUsConnect

universe u v

open Threads

section Places

variable {Task : Type u} {Body : Type v}

namespace WorkerPlace

/-- Whether a worker here holds `pool_lock`. -/
def locked : WorkerPlace Task Body → Bool
  | .semWait | .mutexLock | .work _ _ | .relock | .exited => false
  | _ => true

/-- A worker back from `sem_wait` that has not yet looked at `available_work`. -/
def undecided : WorkerPlace Task Body → Bool
  | .mutexLock | .checkState | .checkWork => true
  | _ => false

/-- A worker back from `sem_wait` that may still lower `available_work`. -/
def awake : WorkerPlace Task Body → ℕ
  | .mutexLock | .checkState | .checkWork | .popFirst | .takeWork _ => 1
  | _ => 0

/-- A worker that has popped a task which `available_work` still counts. -/
def uncounted : WorkerPlace Task Body → ℕ
  | .takeWork _ => 1
  | _ => 0

/-- The task a worker has taken and not finished. -/
def held : WorkerPlace Task Body → Option Task
  | .takeWork task | .countBusy task | .setBusy task | .unlockBusy task | .work task _ => task
  | _ => none

def body : WorkerPlace Task Body → Option Body
  | .work _ body => some body
  | _ => none

@[simp]
theorem body_work (task : Option Task) (body : Body) :
    (WorkerPlace.work task body).body = some body := rfl

variable {place : WorkerPlace Task Body}

theorem locked_of_uncounted (counted : place.uncounted ≠ 0) : place.locked := by
  cases place <;> simp_all [uncounted, locked]

theorem uncounted_of_not_locked (outside : place.locked = false) : place.uncounted = 0 := by
  cases place <;> simp_all [locked, uncounted]

theorem awake_of_not_locked (outside : place.locked = false) :
    place.awake = if place.undecided then 1 else 0 := by
  cases place <;> simp_all [locked, awake, undecided]

end WorkerPlace

namespace AdderPlace

def locked : AdderPlace Task → Bool
  | .returned _ | .mutexLock _ => false
  | _ => true

/-- A pushed task that `available_work` does not count yet. -/
def uncounted : AdderPlace Task → ℕ
  | .addWork => 1
  | _ => 0

/-- A counted task that the semaphore does not announce yet. -/
def unposted : AdderPlace Task → ℕ
  | .semPost => 1
  | _ => 0

/-- The task an adder has not yet put into the queue. -/
def offered : AdderPlace Task → Option Task
  | .mutexLock task | .pushLast task => some task
  | _ => none

variable {place : AdderPlace Task}

theorem uncounted_of_not_locked (outside : place.locked = false) : place.uncounted = 0 := by
  cases place <;> simp_all [locked, uncounted]

theorem unposted_of_not_locked (outside : place.locked = false) : place.unposted = 0 := by
  cases place <;> simp_all [locked, unposted]

end AdderPlace

end Places

/-! ## Mutual exclusion -/

namespace ThreadPool

variable {Task : Type u} {Body : Type v} {Worker Adder : Type}
  {pool after : ThreadPool Task Body Worker Adder} {worker : Worker} {adder : Adder}

def inside (pool : ThreadPool Task Body Worker Adder) : PoolThread Worker Adder → Bool
  | .worker worker => (pool.workers worker).locked
  | .adder adder => (pool.adders adder).locked

/-- `pool_lock` names the one thread inside. -/
def LockSound (pool : ThreadPool Task Body Worker Adder) : Prop :=
  Exclusive pool.poolLock pool.inside

section Exclusion

section AdderSteps

variable [DecidableEq Adder]

theorem adderStep_moves {newNode : Address} (taken : adderStep adder newNode pool = some after) :
    ∃ place, after.adders = Function.update pool.adders adder place ∧
      after.workers = pool.workers ∧
      LockMove (.adder adder) pool.poolLock (pool.adders adder).locked place.locked
        after.poolLock := by
  cases place : pool.adders adder <;> simp only [adderStep, place] at taken
  case returned => cases taken
  case mutexLock =>
    split_ifs at taken with free
    cases taken
    rw [free]
    exact ⟨_, rfl, rfl, .acquire⟩
  case pushLast =>
    split_ifs at taken
    rcases Option.map_eq_some_iff.mp taken with ⟨pushed, -, rfl⟩
    exact ⟨_, rfl, rfl, .stay _ _⟩
  case addWork =>
    split_ifs at taken
    cases taken
    exact ⟨_, rfl, rfl, .stay _ _⟩
  case semPost =>
    cases taken
    exact ⟨_, rfl, rfl, .stay _ _⟩
  case unlock =>
    cases taken
    exact ⟨_, rfl, rfl, .release _⟩

end AdderSteps

variable [DecidableEq Worker] [Inhabited Body]

theorem workerStep_moves (taken : workerStep worker pool = some after) :
    ∃ place, after.workers = Function.update pool.workers worker place ∧
      after.adders = pool.adders ∧
      LockMove (.worker worker) pool.poolLock (pool.workers worker).locked place.locked
        after.poolLock := by
  cases place : pool.workers worker <;> simp only [workerStep, place] at taken
  case semWait =>
    split_ifs at taken
    cases taken
    exact ⟨_, rfl, rfl, .stay _ _⟩
  case mutexLock | relock =>
    split_ifs at taken with free
    cases taken
    rw [free]
    exact ⟨_, rfl, rfl, .acquire⟩
  case checkState | checkWork | recheckState =>
    cases taken
    refine ⟨_, rfl, rfl, ?_⟩
    split_ifs <;> exact .stay _ _
  case popFirst =>
    rcases Option.map_eq_some_iff.mp taken with ⟨popped, -, rfl⟩
    exact ⟨_, rfl, rfl, .stay _ _⟩
  case takeWork | countBusy | setBusy | uncountBusy | setFree =>
    cases taken
    exact ⟨_, rfl, rfl, .stay _ _⟩
  case unlockBusy | unlockIdle | unlockFree | unlockExit =>
    cases taken
    exact ⟨_, rfl, rfl, .release _⟩
  case work | exited => cases taken

variable [DecidableEq Adder]

theorem step_moves {label : PoolLabel Task Body Worker Adder}
    (taken : (poolSystem Task Body Worker Adder).step label pool = some after) :
    (∃ worker place, after.workers = Function.update pool.workers worker place ∧
      after.adders = pool.adders ∧
      LockMove (.worker worker) pool.poolLock (pool.workers worker).locked place.locked
        after.poolLock) ∨
    ∃ adder place, after.adders = Function.update pool.adders adder place ∧
      after.workers = pool.workers ∧
      LockMove (.adder adder) pool.poolLock (pool.adders adder).locked place.locked
        after.poolLock := by
  cases label with
  | worker worker => exact Or.inl ⟨worker, workerStep_moves taken⟩
  | interrupt worker =>
      change interrupt worker pool = some after at taken
      cases place : pool.workers worker <;> simp only [interrupt, place] at taken <;> cases taken
      exact Or.inl ⟨worker, _, rfl, rfl, by rw [place]; exact .stay _ _⟩
  | proceed worker body =>
      change proceed worker body pool = some after at taken
      cases place : pool.workers worker <;> simp only [proceed, place] at taken <;> cases taken
      exact Or.inl ⟨worker, _, rfl, rfl, by rw [place]; exact .stay _ _⟩
  | finishWork worker =>
      change finishWork worker pool = some after at taken
      cases place : pool.workers worker <;> simp only [finishWork, place] at taken <;> cases taken
      exact Or.inl ⟨worker, _, rfl, rfl, by rw [place]; exact .stay _ _⟩
  | addWork adder task =>
      change addWork adder task pool = some after at taken
      cases place : pool.adders adder <;> simp only [addWork, place] at taken <;> cases taken
      exact Or.inr ⟨adder, _, rfl, rfl, by rw [place]; exact .stay _ _⟩
  | adder adder newNode => exact Or.inr ⟨adder, adderStep_moves taken⟩

theorem lockSound_of_reachable (reached : (poolSystem Task Body Worker Adder).Reachable pool) :
    pool.LockSound := by
  refine Transition.System.Reachable.invariant ?_ ?_ reached
  · rintro pool ⟨count, -, rfl⟩ thread
    cases thread <;> simp [threadPoolInit, inside, WorkerPlace.locked, AdderPlace.locked]
  · intro pool label after exclusive taken
    rcases step_moves taken with ⟨worker, place, workers, adders, moved⟩ |
      ⟨adder, place, adders, workers, moved⟩
    · have movedInside : LockMove (.worker worker) pool.poolLock (pool.inside (.worker worker))
          (after.inside (.worker worker)) after.poolLock := by
        simpa [inside, workers] using moved
      apply exclusive.move movedInside
      intro other differs
      cases other with
      | worker other =>
          have isOther : other ≠ worker := fun same => differs (congrArg _ same)
          simp [inside, workers, isOther]
      | adder other => simp [inside, adders]
    · have movedInside : LockMove (.adder adder) pool.poolLock (pool.inside (.adder adder))
          (after.inside (.adder adder)) after.poolLock := by
        simpa [inside, adders] using moved
      apply exclusive.move movedInside
      intro other differs
      cases other with
      | worker other => simp [inside, workers]
      | adder other =>
          have isOther : other ≠ adder := fun same => differs (congrArg _ same)
          simp [inside, adders, isOther]

end Exclusion

/-! ## The records of the work -/

theorem LockSound.alone (sound : pool.LockSound) (here : (pool.workers worker).locked)
    {other : Worker} (alsoHere : (pool.workers other).locked) : other = worker := by
  have first := Exclusive.holder sound (show pool.inside (.worker worker) from here)
  have second := Exclusive.holder sound (show pool.inside (.worker other) from alsoHere)
  rw [first] at second
  cases second
  rfl

section Records

variable [Fintype Worker]

theorem LockSound.total_uncounted_eq_zero (sound : pool.LockSound)
    (here : (pool.workers worker).locked) (counted : (pool.workers worker).uncounted = 0) :
    total WorkerPlace.uncounted pool.workers = 0 := by
  apply total_eq_zero
  intro other
  by_contra uncounted
  have same := sound.alone here (WorkerPlace.locked_of_uncounted uncounted)
  exact uncounted (same ▸ counted)

variable [Fintype Adder]

/-- How the records of the waiting work are related in every state. -/
structure Delivers (pool : ThreadPool Task Body Worker Adder) : Prop where
  running : ∀ worker, pool.threadsStates worker ≠ .terminated
  recorded : ∃ nodes, IsQueue pool.heap pool.queue nodes ∧
    pool.popped ++ nodes.map Prod.snd = pool.added ∧
    pool.availableWork + total AdderPlace.uncounted pool.adders =
      nodes.length + total WorkerPlace.uncounted pool.workers
  announced : pool.availableWork ≤
    pool.poolSem + total WorkerPlace.awake pool.workers + total AdderPlace.unposted pool.adders
  bounded : pool.availableWork ≤ intMax
  decided : ∀ worker, pool.workers worker = .popFirst → 0 < pool.availableWork
  succeeds : ∀ adder result, pool.adders adder = .returned result → result = 0

theorem delivers_init (count : ℕ) :
    (threadPoolInit count : ThreadPool Task Body Worker Adder).Delivers where
  running := by simp [threadPoolInit]
  recorded := by
    refine ⟨[], isQueue_init, rfl, ?_⟩
    simp [threadPoolInit, total, AdderPlace.uncounted, WorkerPlace.uncounted]
  announced := by
    simp only [threadPoolInit]
    omega
  bounded := by simp [threadPoolInit, intMax]
  decided := by simp [threadPoolInit]
  succeeds := by
    intro adder result place
    cases place
    rfl

namespace Delivers

section Worker

variable [DecidableEq Worker]

theorem pass (delivers : pool.Delivers) {place : WorkerPlace Task Body}
    {states : Worker → ThreadState} (running : ∀ worker, states worker ≠ .terminated)
    (lock : Option (PoolThread Worker Adder)) (count : ℕ) (busy : ℤ)
    (uncounted : place.uncounted = (pool.workers worker).uncounted)
    (awake : pool.availableWork ≤ 0 ∨
      pool.poolSem + (pool.workers worker).awake ≤ count + place.awake)
    (decided : place = .popFirst → 0 < pool.availableWork) :
    Delivers
      { pool.moveWorker worker place with
        poolLock := lock, poolSem := count, busyThreadsNum := busy, threadsStates := states } where
  running := running
  recorded := by
    rcases delivers.recorded with ⟨nodes, isQueue, order, counted⟩
    refine ⟨nodes, isQueue, order, ?_⟩
    have moved := total_update WorkerPlace.uncounted pool.workers worker place
    simp only [moveWorker]
    omega
  announced := by
    have announced := delivers.announced
    have moved := total_update WorkerPlace.awake pool.workers worker place
    simp only [moveWorker]
    omega
  bounded := delivers.bounded
  decided := by
    intro other popping
    by_cases same : other = worker
    · subst same
      exact decided (by simpa [moveWorker] using popping)
    · exact delivers.decided other (by simpa [moveWorker, same] using popping)
  succeeds := delivers.succeeds

theorem pop (delivers : pool.Delivers) (sound : pool.LockSound)
    (place : pool.workers worker = .popFirst) :
    ∃ heap queue task, popFirst pool.heap pool.queue = some (heap, queue, some task) ∧
      pool.added = pool.popped ++ task :: (pool.added.drop (pool.popped.length + 1)) ∧
      Delivers
        { pool.moveWorker worker (.takeWork (some task)) with
          heap := heap, queue := queue, popped := pool.popped ++ [task] } := by
  have noneUncounted : total WorkerPlace.uncounted pool.workers = 0 := by
    have here : (pool.workers worker).locked := by rw [place]; rfl
    exact sound.total_uncounted_eq_zero here (by rw [place]; rfl)
  rcases delivers.recorded with ⟨nodes, isQueue, order, counted⟩
  have waiting := delivers.decided worker place
  rcases nodes with - | ⟨⟨address, task⟩, nodes⟩
  · simp only [List.length_nil] at counted
    omega
  rcases isQueue.pop with ⟨heap, queue, popped, isQueueAfter⟩
  refine ⟨heap, queue, task, popped, ?_, ?_⟩
  · simp [← order]
  exact
    { running := delivers.running
      recorded := by
        refine ⟨nodes, isQueueAfter, ?_, ?_⟩
        · change pool.popped ++ [task] ++ nodes.map Prod.snd = pool.added
          rw [← order]
          simp
        · have moved := total_update WorkerPlace.uncounted pool.workers worker
            (.takeWork (some task))
          simp only [place, WorkerPlace.uncounted] at moved
          simp only [moveWorker, List.length_cons] at counted ⊢
          omega
      announced := by
        have announced := delivers.announced
        have moved := total_update WorkerPlace.awake pool.workers worker (.takeWork (some task))
        simp only [place, WorkerPlace.awake] at moved
        simp only [moveWorker]
        omega
      bounded := delivers.bounded
      decided := fun _ _ => waiting
      succeeds := delivers.succeeds }

theorem takeWork (delivers : pool.Delivers) (sound : pool.LockSound) {task : Option Task}
    (place : pool.workers worker = .takeWork task) :
    Delivers
      { pool.moveWorker worker (.countBusy task) with
        availableWork := pool.availableWork - 1 } where
  running := delivers.running
  recorded := by
    rcases delivers.recorded with ⟨nodes, isQueue, order, counted⟩
    refine ⟨nodes, isQueue, order, ?_⟩
    have moved := total_update WorkerPlace.uncounted pool.workers worker (.countBusy task)
    simp only [place, WorkerPlace.uncounted] at moved
    simp only [moveWorker]
    omega
  announced := by
    have announced := delivers.announced
    have moved := total_update WorkerPlace.awake pool.workers worker (.countBusy task)
    simp only [place, WorkerPlace.awake] at moved
    simp only [moveWorker]
    omega
  bounded := by
    have bounded := delivers.bounded
    change pool.availableWork - 1 ≤ intMax
    omega
  decided := by
    intro other popping
    by_cases same : other = worker
    · subst same
      simp [moveWorker] at popping
    · have otherPlace : pool.workers other = .popFirst := by
        simpa [moveWorker, same] using popping
      refine absurd (sound.alone ?_ ?_) same
      · simp [place, WorkerPlace.locked]
      · simp [otherPlace, WorkerPlace.locked]
  succeeds := delivers.succeeds

variable [Inhabited Body]

theorem workerStep (delivers : pool.Delivers) (sound : pool.LockSound)
    (taken : workerStep worker pool = some after) : after.Delivers := by
  have stays := delivers.running
  have running : ∀ state ≠ ThreadState.terminated, ∀ other,
      Function.update pool.threadsStates worker state other ≠ .terminated := by
    intro state differs other
    by_cases same : other = worker <;> simp [same, differs, stays]
  cases place : pool.workers worker <;> simp only [ThreadPool.workerStep, place] at taken
  case semWait =>
    split_ifs at taken with available
    cases taken
    refine delivers.pass stays _ _ _ (by rw [place]; rfl) (Or.inr ?_) nofun
    simp only [place, WorkerPlace.awake]
    omega
  case mutexLock | relock =>
    split_ifs at taken with free
    cases taken
    exact delivers.pass stays _ _ _ (by rw [place]; rfl) (Or.inr (by rw [place]; rfl)) nofun
  case checkState | recheckState =>
    cases taken
    rw [if_neg (stays worker)]
    exact delivers.pass stays _ _ _ (by rw [place]; rfl) (Or.inr (by rw [place]; rfl)) nofun
  case checkWork =>
    cases taken
    split_ifs with waiting
    · exact delivers.pass stays _ _ _ (by rw [place]; rfl) (Or.inr (by rw [place]; rfl))
        fun _ => waiting
    · exact delivers.pass stays _ _ _ (by rw [place]; rfl) (Or.inl (by omega)) nofun
  case popFirst =>
    rcases delivers.pop sound place with ⟨heap, queue, task, popped, -, deliversAfter⟩
    rw [popped] at taken
    cases taken
    exact deliversAfter
  case takeWork =>
    cases taken
    exact delivers.takeWork sound place
  case setBusy =>
    cases taken
    have notTerminated : ThreadState.busy ≠ .terminated := nofun
    exact delivers.pass (running _ notTerminated) _ _ _ (by rw [place]; rfl)
      (Or.inr (by rw [place]; rfl)) nofun
  case setFree =>
    cases taken
    have notTerminated : ThreadState.free ≠ .terminated := nofun
    exact delivers.pass (running _ notTerminated) _ _ _ (by rw [place]; rfl)
      (Or.inr (by rw [place]; rfl)) nofun
  case countBusy | unlockBusy | unlockIdle | uncountBusy | unlockFree | unlockExit =>
    cases taken
    exact delivers.pass stays _ _ _ (by rw [place]; rfl) (Or.inr (by rw [place]; rfl)) nofun
  case work | exited => cases taken

end Worker

section Adder

variable [DecidableEq Adder]

theorem succeeds_moveAdder (delivers : pool.Delivers) {place : AdderPlace Task}
    (noFailure : ∀ result, place = .returned result → result = 0) (other : Adder) (result : ℤ)
    (returned : (pool.moveAdder adder place).adders other = .returned result) : result = 0 := by
  by_cases same : other = adder
  · subst same
    exact noFailure result (by simpa [moveAdder] using returned)
  · exact delivers.succeeds other result (by simpa [moveAdder, same] using returned)

theorem passAdder (delivers : pool.Delivers) {place : AdderPlace Task}
    (lock : Option (PoolThread Worker Adder))
    (uncounted : place.uncounted = (pool.adders adder).uncounted)
    (unposted : (pool.adders adder).unposted = place.unposted)
    (noFailure : ∀ result, place = .returned result → result = 0) :
    Delivers { pool.moveAdder adder place with poolLock := lock } where
  running := delivers.running
  recorded := by
    rcases delivers.recorded with ⟨nodes, isQueue, order, counted⟩
    refine ⟨nodes, isQueue, order, ?_⟩
    have moved := total_update AdderPlace.uncounted pool.adders adder place
    simp only [moveAdder]
    omega
  announced := by
    have announced := delivers.announced
    have moved := total_update AdderPlace.unposted pool.adders adder place
    simp only [moveAdder]
    omega
  bounded := delivers.bounded
  decided := delivers.decided
  succeeds := delivers.succeeds_moveAdder noFailure

theorem push (delivers : pool.Delivers) {task : Task} {newNode : Address} {heap : Heap Task}
    {queue : FifoQueue} (place : pool.adders adder = .pushLast task)
    (fresh : pool.heap newNode = none)
    (pushed : pushLast pool.heap pool.queue newNode task = some (heap, queue)) :
    Delivers
      { pool.moveAdder adder .addWork with
        heap := heap, queue := queue, added := pool.added ++ [task] } where
  running := delivers.running
  recorded := by
    rcases delivers.recorded with ⟨nodes, isQueue, order, counted⟩
    rcases isQueue.push fresh task with ⟨_, _, pushedAlso, isQueueAfter⟩
    rw [pushed] at pushedAlso
    cases pushedAlso
    refine ⟨_, isQueueAfter, ?_, ?_⟩
    · simp [moveAdder, ← order]
    · have moved := total_update AdderPlace.uncounted pool.adders adder .addWork
      simp only [place, AdderPlace.uncounted] at moved
      simp only [moveAdder, List.length_append, List.length_singleton]
      omega
  announced := by
    have announced := delivers.announced
    have moved := total_update AdderPlace.unposted pool.adders adder .addWork
    simp only [place, AdderPlace.unposted] at moved
    simp only [moveAdder]
    omega
  bounded := delivers.bounded
  decided := delivers.decided
  succeeds := delivers.succeeds_moveAdder nofun

theorem addWork (delivers : pool.Delivers) (place : pool.adders adder = .addWork)
    (fits : pool.availableWork < intMax) :
    Delivers
      { pool.moveAdder adder .semPost with availableWork := pool.availableWork + 1 } where
  running := delivers.running
  recorded := by
    rcases delivers.recorded with ⟨nodes, isQueue, order, counted⟩
    refine ⟨nodes, isQueue, order, ?_⟩
    have moved := total_update AdderPlace.uncounted pool.adders adder .semPost
    simp only [place, AdderPlace.uncounted] at moved
    simp only [moveAdder]
    omega
  announced := by
    have announced := delivers.announced
    have moved := total_update AdderPlace.unposted pool.adders adder .semPost
    simp only [place, AdderPlace.unposted] at moved
    simp only [moveAdder]
    omega
  bounded := by
    change pool.availableWork + 1 ≤ intMax
    omega
  decided := by
    intro other popping
    have waiting := delivers.decided other popping
    change 0 < pool.availableWork + 1
    omega
  succeeds := delivers.succeeds_moveAdder nofun

theorem semPost_cases (count : ℕ) :
    LetUsConnect.semPost count = count + 1 ∨
      semValueMax ≤ count ∧ LetUsConnect.semPost count = count := by
  rw [LetUsConnect.semPost]
  split_ifs with room
  · exact Or.inl rfl
  · exact Or.inr ⟨Nat.le_of_not_lt room, rfl⟩

theorem semPost (delivers : pool.Delivers) (place : pool.adders adder = .semPost) :
    Delivers
      { pool.moveAdder adder .unlock with poolSem := LetUsConnect.semPost pool.poolSem } where
  running := delivers.running
  recorded := by
    rcases delivers.recorded with ⟨nodes, isQueue, order, counted⟩
    refine ⟨nodes, isQueue, order, ?_⟩
    have moved := total_update AdderPlace.uncounted pool.adders adder .unlock
    simp only [place, AdderPlace.uncounted] at moved
    simp only [moveAdder]
    omega
  announced := by
    have announced := delivers.announced
    have bounded := delivers.bounded
    have moved := total_update AdderPlace.unposted pool.adders adder .unlock
    simp only [place, AdderPlace.unposted] at moved
    simp only [moveAdder, intMax] at bounded ⊢
    rcases semPost_cases pool.poolSem with posted | ⟨full, kept⟩
    · omega
    · rw [semValueMax] at full
      omega
  bounded := delivers.bounded
  decided := delivers.decided
  succeeds := delivers.succeeds_moveAdder nofun

theorem adderStep {newNode : Address} (delivers : pool.Delivers)
    (taken : adderStep adder newNode pool = some after) : after.Delivers := by
  cases place : pool.adders adder <;> simp only [ThreadPool.adderStep, place] at taken
  case returned => cases taken
  case mutexLock =>
    split_ifs at taken
    cases taken
    exact delivers.passAdder _ (by rw [place]; rfl) (by rw [place]; rfl) nofun
  case pushLast =>
    split_ifs at taken with fits
    rcases Option.map_eq_some_iff.mp taken with ⟨⟨heap, queue⟩, pushed, rfl⟩
    exact delivers.push place fits.1 pushed
  case addWork =>
    split_ifs at taken with fits
    cases taken
    exact delivers.addWork place fits
  case semPost =>
    cases taken
    exact delivers.semPost place
  case unlock =>
    cases taken
    refine delivers.passAdder _ (by rw [place]; rfl) (by rw [place]; rfl) ?_
    intro result returned
    cases returned
    rfl

end Adder

variable [DecidableEq Worker] [DecidableEq Adder] [Inhabited Body]

theorem step (delivers : pool.Delivers) (sound : pool.LockSound)
    {label : PoolLabel Task Body Worker Adder}
    (taken : (poolSystem Task Body Worker Adder).step label pool = some after) :
    after.Delivers := by
  cases label with
  | worker worker => exact delivers.workerStep sound taken
  | interrupt worker =>
      change interrupt worker pool = some after at taken
      cases place : pool.workers worker <;> simp only [interrupt, place] at taken <;> cases taken
      refine delivers.pass delivers.running _ _ _ (by rw [place]; rfl) (Or.inr ?_) nofun
      simp [place, WorkerPlace.awake]
  | proceed worker body =>
      change proceed worker body pool = some after at taken
      cases place : pool.workers worker <;> simp only [proceed, place] at taken <;> cases taken
      exact delivers.pass delivers.running _ _ _ (by rw [place]; rfl)
        (Or.inr (by rw [place]; rfl)) nofun
  | finishWork worker =>
      change finishWork worker pool = some after at taken
      cases place : pool.workers worker <;> simp only [finishWork, place] at taken <;> cases taken
      exact delivers.pass delivers.running _ _ _ (by rw [place]; rfl)
        (Or.inr (by rw [place]; rfl)) nofun
  | addWork adder task =>
      change ThreadPool.addWork adder task pool = some after at taken
      cases place : pool.adders adder <;> simp only [ThreadPool.addWork, place] at taken <;>
        cases taken
      exact delivers.passAdder _ (by rw [place]; rfl) (by rw [place]; rfl) nofun
  | adder adder newNode => exact delivers.adderStep taken

end Delivers

variable [DecidableEq Worker] [DecidableEq Adder] [Inhabited Body]

theorem delivers_of_reachable (reached : (poolSystem Task Body Worker Adder).Reachable pool) :
    pool.Delivers := by
  refine Transition.System.ReachableWhere.invariant
    (fun _ reached => lockSound_of_reachable reached) ?_ ?_ reached
  · rintro pool ⟨count, -, rfl⟩
    exact delivers_init count
  · intro pool label after sound delivers _ taken
    exact delivers.step sound taken

end Records

/-! ## The way of a task through the pool -/

/-- The tasks in the queue. -/
def queued (pool : ThreadPool Task Body Worker Adder) : List Task :=
  pool.added.drop pool.popped.length

section Worker

variable [DecidableEq Worker]

@[simp]
theorem queued_moveWorker (place : WorkerPlace Task Body) :
    (pool.moveWorker worker place).queued = pool.queued := rfl

theorem interrupt_cases (taken : interrupt worker pool = some after) :
    pool.workers worker = .semWait ∧ after = pool.moveWorker worker .mutexLock := by
  cases place : pool.workers worker <;> simp only [interrupt, place] at taken <;> cases taken
  exact ⟨rfl, rfl⟩

end Worker

section Adder

variable [DecidableEq Adder]

@[simp]
theorem queued_moveAdder (place : AdderPlace Task) :
    (pool.moveAdder adder place).queued = pool.queued := rfl

theorem addWork_cases {task : Task} (taken : addWork adder task pool = some after) :
    (pool.adders adder).offered = none ∧ after = pool.moveAdder adder (.mutexLock task) := by
  cases place : pool.adders adder <;> simp only [addWork, place] at taken <;> cases taken
  exact ⟨rfl, rfl⟩

end Adder

variable [Fintype Worker] [Fintype Adder]

theorem Delivers.queued_eq (delivers : pool.Delivers) :
    ∃ nodes, IsQueue pool.heap pool.queue nodes ∧ nodes.map Prod.snd = pool.queued := by
  rcases delivers.recorded with ⟨nodes, isQueue, order, -⟩
  refine ⟨nodes, isQueue, ?_⟩
  rw [queued, ← order, List.drop_left]

section Worker

variable [DecidableEq Worker] [Inhabited Body]

/-- Outside the work a worker keeps what it holds, or takes the first task of the queue. -/
theorem workerStep_handover (delivers : pool.Delivers) (sound : pool.LockSound)
    (taken : workerStep worker pool = some after) :
    ∃ place, after.workers = Function.update pool.workers worker place ∧
      after.adders = pool.adders ∧
      (pool.workers worker).body = none ∧ (∀ body, place.body = some body → body = default) ∧
      (place.held = (pool.workers worker).held ∧ after.queued = pool.queued ∨
        ∃ task, (pool.workers worker).held = none ∧ place = .takeWork (some task) ∧
          pool.queued = task :: after.queued) := by
  cases place : pool.workers worker <;> simp only [workerStep, place] at taken
  case semWait | mutexLock | relock =>
    split_ifs at taken
    cases taken
    exact ⟨_, rfl, rfl, rfl, nofun, Or.inl ⟨rfl, rfl⟩⟩
  case checkState | checkWork | recheckState =>
    cases taken
    refine ⟨_, rfl, rfl, rfl, ?_, Or.inl ⟨?_, rfl⟩⟩
    · split_ifs <;> nofun
    · split_ifs <;> rfl
  case popFirst =>
    rcases delivers.pop sound place with ⟨heap, queue, task, popped, order, -⟩
    rw [popped] at taken
    cases taken
    refine ⟨_, rfl, rfl, rfl, nofun, Or.inr ⟨task, rfl, rfl, ?_⟩⟩
    change pool.added.drop pool.popped.length =
      task :: pool.added.drop (pool.popped ++ [task]).length
    rw [List.length_append, List.length_singleton]
    conv_lhs => rw [order]
    rw [List.drop_left]
  case unlockBusy =>
    cases taken
    refine ⟨_, rfl, rfl, rfl, ?_, Or.inl ⟨rfl, rfl⟩⟩
    intro body isBody
    cases isBody
    rfl
  case takeWork | countBusy | setBusy | unlockIdle | uncountBusy | setFree | unlockFree
      | unlockExit =>
    cases taken
    exact ⟨_, rfl, rfl, rfl, nofun, Or.inl ⟨rfl, rfl⟩⟩
  case work | exited => cases taken

end Worker

section Adder

variable [DecidableEq Adder]

/-- An adder keeps what it offers, or puts it at the end of the queue. -/
theorem adderStep_handover (delivers : pool.Delivers) {newNode : Address}
    (taken : adderStep adder newNode pool = some after) :
    ∃ place, after.adders = Function.update pool.adders adder place ∧
      after.workers = pool.workers ∧
      (place.offered = (pool.adders adder).offered ∧ after.queued = pool.queued ∨
        ∃ task, (pool.adders adder).offered = some task ∧ place.offered = none ∧
          after.queued = pool.queued ++ [task]) := by
  cases place : pool.adders adder <;> simp only [adderStep, place] at taken
  case returned => cases taken
  case mutexLock | addWork =>
    split_ifs at taken
    cases taken
    exact ⟨_, rfl, rfl, Or.inl ⟨rfl, rfl⟩⟩
  case pushLast task =>
    split_ifs at taken
    rcases Option.map_eq_some_iff.mp taken with ⟨⟨heap, queue⟩, -, rfl⟩
    refine ⟨_, rfl, rfl, Or.inr ⟨task, rfl, rfl, ?_⟩⟩
    rcases delivers.recorded with ⟨nodes, -, order, -⟩
    change (pool.added ++ [task]).drop pool.popped.length = _
    rw [queued, ← order, List.append_assoc, List.drop_left, List.drop_left]
  case semPost | unlock =>
    cases taken
    exact ⟨_, rfl, rfl, Or.inl ⟨rfl, rfl⟩⟩

end Adder

/-! ## Outside the lock -/

/-- The number of workers back from `sem_wait` that have not yet looked at `available_work`. -/
def undecided (pool : ThreadPool Task Body Worker Adder) : ℕ :=
  (Finset.univ.filter fun worker => (pool.workers worker).undecided).card

/-- Work waits, no token is left and every worker waits for one. -/
def Stranded (pool : ThreadPool Task Body Worker Adder) : Prop :=
  pool.queue.size ≠ 0 ∧ pool.poolSem = 0 ∧ ∀ worker, pool.workers worker = .semWait

theorem Delivers.outside (delivers : pool.Delivers) (sound : pool.LockSound)
    (free : pool.poolLock = none) :
    (∃ nodes, IsQueue pool.heap pool.queue nodes ∧ pool.queue.size = nodes.length ∧
      pool.availableWork = pool.queue.size ∧ pool.popped ++ nodes.map Prod.snd = pool.added) ∧
    pool.availableWork ≤ pool.poolSem + pool.undecided := by
  have workersOut : ∀ worker, (pool.workers worker).locked = false :=
    fun worker => Exclusive.outside sound free (.worker worker)
  have addersOut : ∀ adder, (pool.adders adder).locked = false :=
    fun adder => Exclusive.outside sound free (.adder adder)
  constructor
  · rcases delivers.recorded with ⟨nodes, isQueue, order, counted⟩
    have workersCounted : total WorkerPlace.uncounted pool.workers = 0 :=
      total_eq_zero fun worker => WorkerPlace.uncounted_of_not_locked (workersOut worker)
    have addersCounted : total AdderPlace.uncounted pool.adders = 0 :=
      total_eq_zero fun adder => AdderPlace.uncounted_of_not_locked (addersOut adder)
    have size := isQueue.size
    exact ⟨nodes, isQueue, size, by omega, order⟩
  · have announced := delivers.announced
    have awake : total WorkerPlace.awake pool.workers = pool.undecided := by
      rw [undecided, Finset.card_filter]
      apply Finset.sum_congr rfl
      intro worker _
      exact WorkerPlace.awake_of_not_locked (workersOut worker)
    have addersPosted : total AdderPlace.unposted pool.adders = 0 :=
      total_eq_zero fun adder => AdderPlace.unposted_of_not_locked (addersOut adder)
    omega

theorem Delivers.adder_of_stranded (delivers : pool.Delivers) (stranded : pool.Stranded) :
    ∃ adder, pool.adders adder = .addWork ∨ pool.adders adder = .semPost := by
  rcases stranded with ⟨waiting, noToken, allWait⟩
  by_contra nobody
  push Not at nobody
  have addersCounted : total AdderPlace.uncounted pool.adders = 0 := by
    apply total_eq_zero
    intro adder
    cases place : pool.adders adder <;> simp_all [AdderPlace.uncounted]
  have addersPosted : total AdderPlace.unposted pool.adders = 0 := by
    apply total_eq_zero
    intro adder
    cases place : pool.adders adder <;> simp_all [AdderPlace.unposted]
  have noneAwake : total WorkerPlace.awake pool.workers = 0 := by
    apply total_eq_zero
    intro worker
    rw [allWait worker]
    rfl
  rcases delivers.recorded with ⟨nodes, isQueue, -, counted⟩
  have announced := delivers.announced
  have size := isQueue.size
  omega

end ThreadPool

end LetUsConnect
