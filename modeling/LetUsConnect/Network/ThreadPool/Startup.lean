import LetUsConnect.Network.ThreadPool

/-!
# The start of the pool

`thread_pool_init` step by step, together with the first statements of the
threads it creates. The new threads read what they need from one block, `args`,
which the creating thread writes again in each round of its loop and frees at
the end; the semaphore `INIT_SEM` is meant to keep the rounds apart.

The answers of the operating system are part of the call: whether
`pthread_mutex_init`, each `sem_open` and each `pthread_create` succeed, and which
count `INIT_SEM` has when it is opened, since a semaphore of that name may be left
over. A semaphore that could not be opened must not be waited for; a process that
does so is taken to crash.
-/

namespace LetUsConnect

open Threads

def invalidInput : ℤ := 1

def errnoError : ℤ := 3

def sizeStatic : ℤ := 0

def sizeDynamic : ℤ := 1

def initialPoolSize : ℤ := 10

/-- A call of `thread_pool_init` with the answers the operating system gives during it. -/
structure StartupCall where
  maxThreadNum : ℤ
  sizeOption : ℤ
  /-- `pool_name` is not `NULL`. -/
  named : Bool
  mutexInit : Bool
  /-- The `sem_open` of the semaphore of the pool. -/
  poolSem : Bool
  /-- The count of `INIT_SEM`; `none` is `SEM_FAILED`. -/
  initSem : Option ℕ
  /-- The `pthread_create` of each round. -/
  created : ℕ → Bool

namespace StartupCall

def invalid (call : StartupCall) : Bool :=
  call.maxThreadNum < 1 || !call.named ||
    (call.sizeOption != sizeStatic && call.sizeOption != sizeDynamic)

/-- `curr_size`. -/
def currSize (call : StartupCall) : ℕ :=
  if call.sizeOption = sizeDynamic then
    (if call.maxThreadNum < initialPoolSize then call.maxThreadNum else initialPoolSize).toNat
  else call.maxThreadNum.toNat

abbrev Worker (call : StartupCall) := Fin call.currSize

end StartupCall

/-- The places of the thread that calls `thread_pool_init`. -/
inductive PoolStartupPlace (Worker : Type) where
  | checkInput
  | mutexInit
  | semOpen
  | openInitSem
  | loop (index : ℕ)
  | create (worker : Worker)
  | semWait (worker : Worker)
  | semUnlink
  | freeArgs
  | returned (code : ℤ)
  | crashed
  deriving DecidableEq

/-- The places of a new thread, with the cell it has read from `args->state`. -/
inductive StartPlace (Worker : Type) where
  | absent
  | readState
  | readPool (state : Option Worker)
  | readSem (state : Option Worker)
  | semPost (state : Option Worker)
  | started (state : Option Worker)
  /-- The thread has read from `args` after it was freed. -/
  | readFreed
  deriving DecidableEq

/-- What the threads share during the start; a cell of `threads_states` goes by its index. -/
structure PoolStartup (Worker : Type) where
  place : PoolStartupPlace Worker
  initSem : Option ℕ
  argsState : Option Worker
  argsFreed : Bool
  workers : Worker → StartPlace Worker

inductive PoolStartupLabel (Worker : Type) where
  | main
  | worker (worker : Worker)
  deriving DecidableEq

namespace PoolStartup

variable {call : StartupCall}

def begin : PoolStartup call.Worker where
  place := .checkInput
  initSem := none
  argsState := none
  argsFreed := false
  workers := fun _ => .absent

def goto (state : PoolStartup call.Worker) (place : PoolStartupPlace call.Worker) :
    PoolStartup call.Worker :=
  { state with place }

def moveWorker (state : PoolStartup call.Worker) (worker : call.Worker)
    (place : StartPlace call.Worker) : PoolStartup call.Worker :=
  { state with workers := Function.update state.workers worker place }

@[simp]
theorem workers_moveWorker_self (state : PoolStartup call.Worker) (worker : call.Worker)
    (place : StartPlace call.Worker) : (state.moveWorker worker place).workers worker = place :=
  Function.update_self _ _ _

theorem workers_moveWorker_of_ne (state : PoolStartup call.Worker) {worker other : call.Worker}
    (differs : other ≠ worker) (place : StartPlace call.Worker) :
    (state.moveWorker worker place).workers other = state.workers other :=
  Function.update_of_ne differs _ _

/-- What holds of the new place of the mover and of the places of the others holds of all. -/
theorem forall_moveWorker {state : PoolStartup call.Worker} {worker : call.Worker}
    {place : StartPlace call.Worker} {Holds : call.Worker → StartPlace call.Worker → Prop}
    (mover : Holds worker place)
    (others : ∀ other, other ≠ worker → Holds other (state.workers other)) (other : call.Worker) :
    Holds other ((state.moveWorker worker place).workers other) := by
  by_cases same : other = worker
  · rw [same, workers_moveWorker_self]
    exact mover
  · rw [workers_moveWorker_of_ne state same]
    exact others other same

/-- One step of `thread_pool_init`. -/
def mainStep (state : PoolStartup call.Worker) : Option (PoolStartup call.Worker) :=
  match state.place with
  | .checkInput =>
      some (state.goto (if call.invalid then .returned invalidInput else .mutexInit))
  | .mutexInit => some (state.goto (if call.mutexInit then .semOpen else .returned errnoError))
  | .semOpen => some (state.goto (if call.poolSem then .openInitSem else .returned errnoError))
  | .openInitSem => some { state.goto (.loop 0) with initSem := call.initSem }
  | .loop index =>
      if inside : index < call.currSize then
        some { state.goto (.create ⟨index, inside⟩) with argsState := some ⟨index, inside⟩ }
      else some (state.goto .semUnlink)
  -- The result of `pthread_create` is not looked at.
  | .create worker =>
      some
        ((if call.created worker then state.moveWorker worker .readState else state).goto
          (.semWait worker))
  | .semWait worker =>
      match state.initSem with
      | none => some (state.goto .crashed)
      | some 0 => none
      | some (count + 1) =>
          some { state.goto (.loop (worker + 1)) with initSem := some count }
  | .semUnlink => some (state.goto .freeArgs)
  | .freeArgs => some { state.goto (.returned 0) with argsFreed := true }
  | .returned _ | .crashed => none

/-- A read of a member of `args`. -/
def readArgs (state : PoolStartup call.Worker) (worker : call.Worker)
    (place : StartPlace call.Worker) : PoolStartup call.Worker :=
  state.moveWorker worker (if state.argsFreed then .readFreed else place)

/-- One step of `_thread_task` before its loop. -/
def workerStep (worker : call.Worker) (state : PoolStartup call.Worker) :
    Option (PoolStartup call.Worker) :=
  match state.workers worker with
  | .readState => some (state.readArgs worker (.readPool state.argsState))
  | .readPool cell => some (state.readArgs worker (.readSem cell))
  | .readSem cell => some (state.readArgs worker (.semPost cell))
  | .semPost cell =>
      match state.initSem with
      | none => some (state.goto .crashed)
      | some count =>
          some
            { state.moveWorker worker (.started cell) with
              initSem := some (LetUsConnect.semPost count) }
  | .absent | .started _ | .readFreed => none

/-- One step of the process; after a crash there is none. -/
def step (label : PoolStartupLabel call.Worker) (state : PoolStartup call.Worker) :
    Option (PoolStartup call.Worker) :=
  if state.place = .crashed then none
  else
    match label with
    | .main => state.mainStep
    | .worker worker => state.workerStep worker

end PoolStartup

/-- The runs of one call of `thread_pool_init` and the threads it creates. -/
def poolStartupSystem (call : StartupCall) :
    Transition.System (PoolStartup call.Worker) (PoolStartupLabel call.Worker) where
  initial state := state = PoolStartup.begin
  step := PoolStartup.step

/-! ## What the places say -/

/-- The thread has been created and will post on `INIT_SEM`. -/
def StartPlace.onItsWay {Worker : Type} : StartPlace Worker → Bool
  | .readState | .readPool _ | .readSem _ | .semPost _ => true
  | _ => false

/-- What the thread has read from `args->state`. -/
def StartPlace.cell {Worker : Type} : StartPlace Worker → Option (Option Worker)
  | .readPool cell | .readSem cell | .semPost cell | .started cell => some cell
  | _ => none

/-- The steps the thread can still take before its loop, once it is created. -/
def StartPlace.remaining {Worker : Type} : StartPlace Worker → ℕ
  | .readState => 4
  | .readPool _ => 3
  | .readSem _ => 2
  | .semPost _ => 1
  | .absent | .started _ | .readFreed => 0

namespace StartupCall

/-- The checks before the loop are passed. -/
structure Proceeds (call : StartupCall) : Prop where
  valid : call.invalid = false
  mutexInit : call.mutexInit
  poolSem : call.poolSem

theorem currSize_pos {call : StartupCall} (valid : call.invalid = false) : 0 < call.currSize := by
  simp only [invalid, Bool.or_eq_false_iff, decide_eq_false_iff_not, not_lt] at valid
  have positive := valid.1.1
  rw [currSize]
  split_ifs
  · omega
  · rw [initialPoolSize]
    omega
  · omega

end StartupCall

namespace PoolStartupPlace

variable {call : StartupCall}

/-- The checks have been passed. -/
def entered : PoolStartupPlace call.Worker → Bool
  | .checkInput | .mutexInit | .semOpen | .openInitSem => false
  | .returned code => code = 0
  | _ => true

/-- The checks that have been passed, or on which the call has returned. -/
def Passed : PoolStartupPlace call.Worker → Prop
  | .checkInput => True
  | .mutexInit => call.invalid = false
  | .semOpen => call.invalid = false ∧ call.mutexInit
  | .returned code => code = 0 ↔ call.Proceeds
  | _ => call.Proceeds

theorem Passed.proceeds {place : PoolStartupPlace call.Worker} (passed : place.Passed)
    (entered : place.entered) : call.Proceeds := by
  cases place with
  | checkInput | mutexInit | semOpen | openInitSem => cases entered
  | returned code => exact passed.mp (of_decide_eq_true entered)
  | _ => exact passed

/-- The number of `pthread_create` calls made. -/
def begun : PoolStartupPlace call.Worker → ℕ
  | .loop index => index
  | .create worker => worker
  | .semWait worker => worker + 1
  | .semUnlink | .freeArgs => call.currSize
  | .returned code => if code = 0 then call.currSize else 0
  | _ => 0

/-- The number of returns from `sem_wait`. -/
def waited : PoolStartupPlace call.Worker → ℕ
  | .loop index => index
  | .create worker | .semWait worker => worker
  | .semUnlink | .freeArgs => call.currSize
  | .returned code => if code = 0 then call.currSize else 0
  | _ => 0

/-- A bound of the steps still to come, with four for each thread to be created. -/
def remaining : PoolStartupPlace call.Worker → ℕ
  | .checkInput => 8 * call.currSize + 8
  | .mutexInit => 8 * call.currSize + 7
  | .semOpen => 8 * call.currSize + 6
  | .openInitSem => 8 * call.currSize + 5
  | .loop index => 8 * (call.currSize - index) + 4
  | .create worker => 8 * (call.currSize - worker) + 3
  | .semWait worker => 8 * (call.currSize - worker) - 2
  | .semUnlink => 3
  | .freeArgs => 2
  | .returned _ => 1
  | .crashed => 0

end PoolStartupPlace

namespace PoolStartup

variable {call : StartupCall} {state after : PoolStartup call.Worker}

/-- What a step of a new thread does. -/
theorem workerStep_cases {worker : call.Worker} (taken : state.workerStep worker = some after) :
    (state.workers worker).onItsWay ∧
      ((∃ cell, state.workers worker = .semPost cell ∧ state.initSem = none ∧
          after = state.goto .crashed) ∨
        (∃ cell count, state.workers worker = .semPost cell ∧ state.initSem = some count ∧
          after = { state.moveWorker worker (.started cell) with
            initSem := some (LetUsConnect.semPost count) }) ∨
        ∃ place : StartPlace call.Worker, place.onItsWay ∧
          place.remaining < (state.workers worker).remaining ∧
          place.cell = some ((state.workers worker).cell.getD state.argsState) ∧
          after = state.readArgs worker place) := by
  rw [workerStep] at taken
  cases at_ : state.workers worker with
  | readState | readPool cell | readSem cell =>
      rw [at_] at taken
      cases taken
      exact ⟨rfl, Or.inr (Or.inr ⟨_, rfl, Nat.lt_succ_self _, rfl, rfl⟩)⟩
  | semPost cell =>
      rw [at_] at taken
      refine ⟨rfl, ?_⟩
      cases opened : state.initSem with
      | none =>
          simp only [opened, Option.some.injEq] at taken
          exact Or.inl ⟨cell, rfl, rfl, taken.symm⟩
      | some count =>
          simp only [opened, Option.some.injEq] at taken
          exact Or.inr (Or.inl ⟨cell, count, rfl, rfl, taken.symm⟩)
  | absent | started cell | readFreed =>
      rw [at_] at taken
      cases taken

theorem step_cases {label : PoolStartupLabel call.Worker} (taken : state.step label = some after) :
    state.place ≠ .crashed ∧ (label = .main ∧ state.mainStep = some after ∨
      ∃ worker, label = .worker worker ∧ state.workerStep worker = some after) := by
  by_cases crashed : state.place = .crashed
  · simp [step, crashed] at taken
  · refine ⟨crashed, ?_⟩
    cases label with
    | main => exact Or.inl ⟨rfl, by simpa [step, crashed] using taken⟩
    | worker worker => exact Or.inr ⟨worker, rfl, by simpa [step, crashed] using taken⟩

/-! ## The call ends -/

/-- A bound of the steps of all threads. -/
def remaining (state : PoolStartup call.Worker) : ℕ :=
  state.place.remaining + total StartPlace.remaining state.workers

theorem remaining_lt (sameWorkers : after.workers = state.workers)
    (less : after.place.remaining < state.place.remaining) : after.remaining < state.remaining := by
  rw [remaining, remaining, sameWorkers]
  exact Nat.add_lt_add_right less _

theorem remaining_moveWorker (state : PoolStartup call.Worker) {worker : call.Worker}
    {place : StartPlace call.Worker} (less : place.remaining < (state.workers worker).remaining) :
    (state.moveWorker worker place).remaining < state.remaining := by
  have moved := total_update StartPlace.remaining state.workers worker place
  simp only [remaining, moveWorker]
  omega

theorem remaining_workerStep {worker : call.Worker}
    (taken : state.workerStep worker = some after) (running : state.place ≠ .crashed) :
    after.remaining < state.remaining := by
  rcases workerStep_cases taken with ⟨onItsWay, ⟨cell, at_, -, rfl⟩ | ⟨cell, count, at_, -, rfl⟩ |
    ⟨place, -, less, -, rfl⟩⟩
  · have positive : 0 < state.place.remaining := by
      cases at_ : state.place with
      | semWait worker =>
          have inside := worker.isLt
          simp only [PoolStartupPlace.remaining]
          omega
      | crashed => exact absurd at_ running
      | _ => simp [PoolStartupPlace.remaining]
    exact remaining_lt rfl positive
  · exact remaining_moveWorker state (by rw [at_]; exact Nat.one_pos)
  · rw [readArgs]
    split_ifs
    · exact remaining_moveWorker state (Nat.zero_lt_of_lt less)
    · exact remaining_moveWorker state less

theorem remaining_mainStep (taken : state.mainStep = some after) :
    after.remaining < state.remaining := by
  rw [mainStep] at taken
  cases at_ : state.place with
  | checkInput | mutexInit | semOpen =>
      simp only [at_, Option.some.injEq] at taken
      rw [← taken]
      refine remaining_lt rfl ?_
      rw [at_, goto]
      split_ifs <;> simp [PoolStartupPlace.remaining]
  | openInitSem =>
      simp only [at_, Option.some.injEq] at taken
      rw [← taken]
      refine remaining_lt rfl ?_
      simp [at_, goto, PoolStartupPlace.remaining]
  | loop index =>
      simp only [at_] at taken
      split_ifs at taken <;> cases taken <;> refine remaining_lt rfl ?_ <;>
        simp [at_, goto, PoolStartupPlace.remaining]
  | create worker =>
      simp only [at_, Option.some.injEq] at taken
      rw [← taken]
      have inside := worker.isLt
      -- The new thread has four steps to take, the caller has five fewer.
      split_ifs with created
      · have moved := total_update StartPlace.remaining state.workers worker .readState
        simp only [remaining, moveWorker, goto, at_, PoolStartupPlace.remaining,
          StartPlace.remaining] at moved ⊢
        omega
      · refine remaining_lt rfl ?_
        simp only [at_, goto, PoolStartupPlace.remaining]
        omega
  | semWait worker =>
      simp only [at_] at taken
      have inside := worker.isLt
      cases opened : state.initSem with
      | none =>
          simp only [opened, Option.some.injEq] at taken
          rw [← taken]
          refine remaining_lt rfl ?_
          simp only [at_, goto, PoolStartupPlace.remaining]
          omega
      | some count =>
          cases count with
          | zero => simp [opened] at taken
          | succ count =>
              simp only [opened, Option.some.injEq] at taken
              rw [← taken]
              refine remaining_lt rfl ?_
              simp only [at_, goto, PoolStartupPlace.remaining]
              omega
  | semUnlink | freeArgs =>
      simp only [at_, Option.some.injEq] at taken
      rw [← taken]
      refine remaining_lt rfl ?_
      simp [at_, goto, PoolStartupPlace.remaining]
  | returned code | crashed => simp [at_] at taken

/-- Every step of every call brings its end nearer. -/
theorem remaining_step (state : PoolStartup call.Worker) (label : PoolStartupLabel call.Worker)
    (after : PoolStartup call.Worker) (taken : state.step label = some after) :
    after.remaining < state.remaining := by
  rcases step_cases taken with ⟨running, ⟨-, taken⟩ | ⟨worker, -, taken⟩⟩
  · exact remaining_mainStep taken
  · exact remaining_workerStep taken running

/-! ## What holds during every call -/

/-- How the place of the caller, the semaphore and the new threads belong together. -/
structure Sound (state : PoolStartup call.Worker) : Prop where
  passed : state.place.Passed
  opened : state.place.entered → state.initSem.isSome = call.initSem.isSome
  waited : 0 < state.place.waited → call.initSem.isSome
  begun : ∀ worker : call.Worker, worker < state.place.begun → call.created worker →
    state.workers worker ≠ .absent
  born : ∀ worker, state.workers worker ≠ .absent → call.created worker ∧ state.place.entered
  toCome : ∀ worker, state.place = .semWait worker → call.created worker →
    ∀ count, state.initSem = some count → 0 < count ∨ (state.workers worker).onItsWay
  freed : state.argsFreed → state.place = .returned 0 ∨ state.place = .crashed
  crashed : state.place = .crashed → call.initSem = none

theorem semPost_pos (count : ℕ) : 0 < LetUsConnect.semPost count := by
  rw [LetUsConnect.semPost, semValueMax]
  split_ifs <;> omega

theorem ne_absent_of_onItsWay {place : StartPlace call.Worker} (onItsWay : place.onItsWay) :
    place ≠ .absent := by
  rintro rfl
  cases onItsWay

theorem sound_begin : (begin : PoolStartup call.Worker).Sound := by
  constructor <;> simp [begin, PoolStartupPlace.entered, PoolStartupPlace.waited,
    PoolStartupPlace.begun, PoolStartupPlace.Passed]

namespace Sound

theorem not_freed (sound : state.Sound) (notReturned : ∀ code, state.place ≠ .returned code)
    (running : state.place ≠ .crashed) : state.argsFreed = false := by
  rw [← Bool.not_eq_true]
  intro freed
  rcases sound.freed freed with returned | crashed
  · exact notReturned 0 returned
  · exact running crashed

/-- A step of a thread that has been created. -/
theorem moveWorker (sound : state.Sound) {worker : call.Worker} {place : StartPlace call.Worker}
    (onItsWay : (state.workers worker).onItsWay) (notAbsent : place ≠ .absent)
    {initSem : Option ℕ} (sameOpened : initSem.isSome = state.initSem.isSome)
    (posts : ∀ count, initSem = some count →
      0 < count ∨ initSem = state.initSem ∧ (place.onItsWay ∨ state.argsFreed)) :
    Sound { state.moveWorker worker place with initSem } where
  passed := sound.passed
  opened := fun entered => sameOpened.trans (sound.opened entered)
  waited := sound.waited
  begun := by
    intro other before created
    change (state.moveWorker worker place).workers other ≠ .absent
    by_cases same : other = worker
    · subst same
      rwa [workers_moveWorker_self]
    · rw [workers_moveWorker_of_ne state same]
      exact sound.begun other before created
  born := by
    intro other present
    change (state.moveWorker worker place).workers other ≠ .absent at present
    by_cases same : other = worker
    · subst same
      exact sound.born other (ne_absent_of_onItsWay onItsWay)
    · rw [workers_moveWorker_of_ne state same] at present
      exact sound.born other present
  toCome := by
    intro other at_ created count counted
    rcases posts count counted with positive | ⟨unchanged, moves⟩
    · exact Or.inl positive
    · rcases sound.toCome other at_ created count (unchanged ▸ counted) with positive | waits
      · exact Or.inl positive
      · right
        change ((state.moveWorker worker place).workers other).onItsWay
        by_cases same : other = worker
        · subst same
          rw [workers_moveWorker_self]
          rcases moves with moves | freed
          · exact moves
          · rcases sound.freed freed with returned | crashed
            · exact absurd (at_.symm.trans returned) (by simp)
            · exact absurd (at_.symm.trans crashed) (by simp)
        · rwa [workers_moveWorker_of_ne state same]
  freed := sound.freed
  crashed := sound.crashed

theorem workerStep (sound : state.Sound) {worker : call.Worker}
    (taken : state.workerStep worker = some after) : after.Sound := by
  rcases workerStep_cases taken with ⟨onItsWay, ⟨cell, at_, unopened, rfl⟩ |
    ⟨cell, count, at_, opened, rfl⟩ | ⟨place, moves, -, -, rfl⟩⟩
  · have entered := (sound.born worker (ne_absent_of_onItsWay onItsWay)).2
    have callUnopened : call.initSem = none := by
      have same := sound.opened entered
      rw [unopened] at same
      simpa using same.symm
    exact
      { passed := sound.passed.proceeds entered
        opened := fun _ => sound.opened entered
        waited := fun impossible => absurd impossible (Nat.lt_irrefl 0)
        begun := fun _ before => absurd before (Nat.not_lt_zero _)
        born := fun other present => ⟨(sound.born other present).1, rfl⟩
        toCome := fun _ at_ => by cases at_
        freed := fun _ => Or.inr rfl
        crashed := fun _ => callUnopened }
  · refine sound.moveWorker onItsWay (by simp) ?_ ?_
    · rw [opened]
      rfl
    · rintro other same
      rw [← Option.some.inj same]
      exact Or.inl (semPost_pos count)
  · rw [readArgs]
    refine sound.moveWorker onItsWay ?_ rfl ?_
    · split_ifs
      · simp
      · exact ne_absent_of_onItsWay moves
    · intro count _
      refine Or.inr ⟨rfl, ?_⟩
      split_ifs with freed
      · exact Or.inr freed
      · exact Or.inl moves

/-- A step of the checks before the loop. -/
theorem check (sound : state.Sound) (outside : state.place.entered = false)
    {place : PoolStartupPlace call.Worker} (passed : place.Passed)
    (stillOutside : place.entered = false) : (state.goto place).Sound := by
  have absent : ∀ worker, state.workers worker = .absent := by
    intro worker
    by_contra present
    exact absurd (sound.born worker present).2 (by rw [outside]; simp)
  have nothing : place.begun = 0 ∧ place.waited = 0 ∧ (∀ worker, place ≠ .semWait worker) ∧
      place ≠ .crashed := by
    cases place with
    | checkInput | mutexInit | semOpen | openInitSem => exact ⟨rfl, rfl, by simp, by simp⟩
    | returned code =>
        have nonzero : code ≠ 0 := of_decide_eq_false stillOutside
        simp [PoolStartupPlace.begun, PoolStartupPlace.waited, nonzero]
    | _ => cases stillOutside
  have notFreed : state.argsFreed = false := by
    rw [← Bool.not_eq_true]
    intro freed
    rcases sound.freed freed with at_ | at_ <;> rw [at_] at outside <;> cases outside
  exact
    { passed := passed
      opened := fun entered => absurd entered (by simp [goto, stillOutside])
      waited := fun positive => absurd positive (by simp [goto, nothing.2.1])
      begun := fun worker before => absurd before (by simp [goto, nothing.1])
      born := fun worker present => absurd (absent worker) present
      toCome := fun worker at_ => absurd at_ (nothing.2.2.1 worker)
      freed := fun freed => absurd freed (by simp [goto, notFreed])
      crashed := fun at_ => absurd at_ nothing.2.2.2 }

/-- A step of the caller after the checks, other than to its `sem_wait`. -/
theorem advance (sound : state.Sound) (entered : state.place.entered)
    (sameWorkers : after.workers = state.workers) (stillEntered : after.place.entered)
    (sameOpened : after.initSem.isSome = state.initSem.isSome)
    (waited : 0 < after.place.waited → call.initSem.isSome)
    (begun : after.place.begun ≤ state.place.begun)
    (elsewhere : ∀ worker, after.place ≠ .semWait worker)
    (freed : after.argsFreed → after.place = .returned 0)
    (crashed : after.place = .crashed → call.initSem = none) : after.Sound where
  passed := by
    have proceeds := sound.passed.proceeds entered
    cases at_ : after.place with
    | checkInput | mutexInit | semOpen | openInitSem =>
        simp [at_, PoolStartupPlace.entered] at stillEntered
    | returned code =>
        rw [at_] at stillEntered
        exact iff_of_true (of_decide_eq_true stillEntered) proceeds
    | _ => exact proceeds
  opened := fun _ => sameOpened.trans (sound.opened entered)
  waited := waited
  begun := by
    intro worker before created
    rw [sameWorkers]
    exact sound.begun worker (lt_of_lt_of_le before begun) created
  born := by
    intro worker present
    rw [sameWorkers] at present
    exact ⟨(sound.born worker present).1, stillEntered⟩
  toCome := fun worker at_ => absurd at_ (elsewhere worker)
  freed := fun isFreed => Or.inl (freed isFreed)
  crashed := crashed

theorem openInitSem (sound : state.Sound) (at_ : state.place = .openInitSem) :
    Sound { state.goto (.loop 0) with initSem := call.initSem } := by
  have absent : ∀ worker, state.workers worker = .absent := by
    intro worker
    by_contra present
    exact absurd (sound.born worker present).2 (by simp [at_, PoolStartupPlace.entered])
  have proceeds : call.Proceeds := by
    have passed := sound.passed
    rwa [at_] at passed
  have notFreed := sound.not_freed (by simp [at_]) (by simp [at_])
  exact
    { passed := proceeds
      opened := fun _ => rfl
      waited := fun impossible => absurd impossible (Nat.lt_irrefl 0)
      begun := fun _ before => absurd before (Nat.not_lt_zero _)
      born := fun worker present => absurd (absent worker) present
      toCome := fun _ at_ => by cases at_
      freed := fun freed => absurd freed (by simp [goto, notFreed])
      crashed := fun at_ => by cases at_ }

/-- A `pthread_create` that may have failed. -/
theorem create (sound : state.Sound) {worker : call.Worker} (at_ : state.place = .create worker) :
    ((if call.created worker then state.moveWorker worker .readState else state).goto
      (.semWait worker)).Sound := by
  have entered : state.place.entered := by
    rw [at_]
    rfl
  have notFreed := sound.not_freed (by simp [at_]) (by simp [at_])
  have proceeds := sound.passed.proceeds entered
  have waited := sound.waited
  have opened := sound.opened entered
  have begun := sound.begun
  rw [at_] at waited begun
  split_ifs with created
  · exact
      { passed := proceeds
        opened := fun _ => opened
        waited := waited
        begun := by
          intro other before otherCreated
          change (state.moveWorker worker .readState).workers other ≠ .absent
          by_cases same : other = worker
          · rw [same, workers_moveWorker_self]
            simp
          · rw [workers_moveWorker_of_ne state same]
            refine begun other ?_ otherCreated
            have differs : (other : ℕ) ≠ worker := fun isSame => same (Fin.ext isSame)
            change (other : ℕ) < worker + 1 at before
            change (other : ℕ) < worker
            omega
        born := by
          intro other present
          change (state.moveWorker worker .readState).workers other ≠ .absent at present
          by_cases same : other = worker
          · exact ⟨same ▸ created, rfl⟩
          · rw [workers_moveWorker_of_ne state same] at present
            exact ⟨(sound.born other present).1, rfl⟩
        toCome := by
          intro other here _ count _
          cases here
          right
          change ((state.moveWorker worker .readState).workers worker).onItsWay
          rw [workers_moveWorker_self]
          rfl
        freed := fun freed => absurd freed (by simp [goto, PoolStartup.moveWorker, notFreed])
        crashed := fun at_ => by cases at_ }
  · exact
      { passed := proceeds
        opened := fun _ => opened
        waited := waited
        begun := by
          intro other before otherCreated
          refine begun other ?_ otherCreated
          have differs : (other : ℕ) ≠ worker := fun isSame => created (isSame ▸ otherCreated)
          change (other : ℕ) < worker + 1 at before
          change (other : ℕ) < worker
          omega
        born := fun other present => ⟨(sound.born other present).1, rfl⟩
        toCome := by
          intro other here otherCreated
          cases here
          exact absurd otherCreated created
        freed := fun freed => absurd freed (by simp [goto, notFreed])
        crashed := fun at_ => by cases at_ }

theorem mainStep (sound : state.Sound) (taken : state.mainStep = some after) : after.Sound := by
  rw [PoolStartup.mainStep] at taken
  cases at_ : state.place with
  | checkInput =>
      simp only [at_, Option.some.injEq] at taken
      rw [← taken]
      refine sound.check (by rw [at_]; rfl) ?_ (by split_ifs <;> rfl)
      split_ifs with invalid
      · exact iff_of_false (by decide) fun proceeds => by simp [proceeds.valid] at invalid
      · exact (Bool.not_eq_true _).mp invalid
  | mutexInit =>
      simp only [at_, Option.some.injEq] at taken
      rw [← taken]
      have passed := sound.passed
      rw [at_] at passed
      refine sound.check (by rw [at_]; rfl) ?_ (by split_ifs <;> rfl)
      split_ifs with initialized
      · exact ⟨passed, initialized⟩
      · exact iff_of_false (by decide) fun proceeds => initialized proceeds.mutexInit
  | semOpen =>
      simp only [at_, Option.some.injEq] at taken
      rw [← taken]
      have passed := sound.passed
      rw [at_] at passed
      refine sound.check (by rw [at_]; rfl) ?_ (by split_ifs <;> rfl)
      split_ifs with opened
      · exact ⟨passed.1, passed.2, opened⟩
      · exact iff_of_false (by decide) fun proceeds => opened proceeds.poolSem
  | openInitSem =>
      simp only [at_, Option.some.injEq] at taken
      rw [← taken]
      exact sound.openInitSem at_
  | loop index =>
      simp only [at_] at taken
      have notFreed := sound.not_freed (by simp [at_]) (by simp [at_])
      have waited := sound.waited
      rw [at_] at waited
      split_ifs at taken with inside
      · cases taken
        exact sound.advance (by rw [at_]; rfl) rfl rfl rfl waited (by rw [at_]; rfl)
          (by simp [goto]) (by simp [goto, notFreed]) (by simp [goto])
      · cases taken
        have proceeds : call.Proceeds := sound.passed.proceeds (by rw [at_]; rfl)
        have some_ := StartupCall.currSize_pos proceeds.valid
        refine sound.advance (by rw [at_]; rfl) rfl rfl rfl (fun _ => waited ?_) ?_
          (by simp [goto]) (by simp [goto, notFreed]) (by simp [goto])
        · simp only [PoolStartupPlace.waited]
          omega
        · rw [at_]
          simp only [goto, PoolStartupPlace.begun]
          omega
  | create worker =>
      simp only [at_, Option.some.injEq] at taken
      rw [← taken]
      exact sound.create at_
  | semWait worker =>
      simp only [at_] at taken
      have notFreed := sound.not_freed (by simp [at_]) (by simp [at_])
      have same := sound.opened (by rw [at_]; rfl)
      cases opened : state.initSem with
      | none =>
          simp only [opened, Option.some.injEq] at taken
          rw [← taken]
          have unopened : call.initSem = none := by
            rw [opened] at same
            simpa using same.symm
          exact sound.advance (by rw [at_]; rfl) rfl rfl rfl
            (fun impossible => absurd impossible (Nat.lt_irrefl 0)) (Nat.zero_le _)
            (by simp [goto]) (by simp [goto, notFreed]) (fun _ => unopened)
      | some count =>
          cases count with
          | zero => simp [opened] at taken
          | succ count =>
              simp only [opened, Option.some.injEq] at taken
              rw [← taken]
              have isOpen : call.initSem.isSome := by rw [← same, opened]; rfl
              exact sound.advance (by rw [at_]; rfl) rfl rfl (by rw [opened]; rfl) (fun _ => isOpen)
                (by rw [at_]; rfl) (by simp [goto]) (by simp [goto, notFreed]) (by simp [goto])
  | semUnlink =>
      simp only [at_, Option.some.injEq] at taken
      rw [← taken]
      have notFreed := sound.not_freed (by simp [at_]) (by simp [at_])
      have waited := sound.waited
      rw [at_] at waited
      exact sound.advance (by rw [at_]; rfl) rfl rfl rfl waited (by rw [at_]; rfl) (by simp [goto])
        (by simp [goto, notFreed]) (by simp [goto])
  | freeArgs =>
      simp only [at_, Option.some.injEq] at taken
      rw [← taken]
      have waited := sound.waited
      rw [at_] at waited
      exact sound.advance (by rw [at_]; rfl) rfl rfl rfl waited (by rw [at_]; rfl) (by simp [goto])
        (fun _ => rfl) (by simp [goto])
  | returned code | crashed => simp [at_] at taken

end Sound

theorem sound_of_reachable (reached : (poolStartupSystem call).Reachable state) : state.Sound := by
  refine Transition.System.Reachable.invariant ?_ ?_ reached
  · rintro state rfl
    exact sound_begin
  · intro state label after sound taken
    rcases step_cases taken with ⟨-, ⟨-, taken⟩ | ⟨worker, -, taken⟩⟩
    · exact sound.mainStep taken
    · exact sound.workerStep taken

end PoolStartup

/-! ## Failures of the start -/

/--
`thread_pool_init` never waits for a post that does not come, it returns, and a
result of 0 means that there is a thread for each cell of `threads_states`.
-/
structure StartsReliably (call : StartupCall) : Prop where
  waits : ∀ state : PoolStartup call.Worker, (poolStartupSystem call).Reachable state →
    ∀ worker, state.place = .semWait worker → ∃ count, state.initSem = some count ∧
      (0 < count ∨ ∃ other, (state.workers other).onItsWay)
  finite : ∃ bound, ∀ labels (state : PoolStartup call.Worker),
    (poolStartupSystem call).run labels PoolStartup.begin = some state → labels.length ≤ bound
  returns : ∀ state : PoolStartup call.Worker, (poolStartupSystem call).Reachable state →
    (∀ label, (poolStartupSystem call).step label state = none) →
      ∃ code, state.place = .returned code
  created : ∀ state : PoolStartup call.Worker, (poolStartupSystem call).Reachable state →
    state.place = .returned 0 → ∀ worker, state.workers worker ≠ .absent

namespace PoolStartup

variable {call : StartupCall} {state : PoolStartup call.Worker}

theorem workerStep_of_onItsWay {worker : call.Worker}
    (onItsWay : (state.workers worker).onItsWay) : state.workerStep worker ≠ none := by
  rw [workerStep]
  cases at_ : state.workers worker with
  | readState | readPool | readSem => simp
  | semPost cell => cases state.initSem <;> simp
  | absent | started | readFreed =>
      rw [at_] at onItsWay
      cases onItsWay

theorem mainStep_eq_none (stuck : state.mainStep = none) :
    (∃ code, state.place = .returned code) ∨ state.place = .crashed ∨
      ∃ worker, state.place = .semWait worker ∧ state.initSem = some 0 := by
  rw [mainStep] at stuck
  cases at_ : state.place with
  | returned code => exact Or.inl ⟨code, rfl⟩
  | crashed => exact Or.inr (Or.inl rfl)
  | semWait worker =>
      cases opened : state.initSem with
      | none => simp [at_, opened] at stuck
      | some count =>
          cases count with
          | zero => exact Or.inr (Or.inr ⟨worker, rfl, rfl⟩)
          | succ count => simp [at_, opened] at stuck
  | loop index =>
      simp only [at_] at stuck
      split_ifs at stuck
  | checkInput | mutexInit | semOpen | openInitSem | create | semUnlink | freeArgs =>
      simp [at_] at stuck

/-- No run of any call is longer than this. -/
theorem length_le_remaining {labels : List (PoolStartupLabel call.Worker)}
    (ran : (poolStartupSystem call).run labels begin = some state) :
    labels.length ≤ (begin : PoolStartup call.Worker).remaining :=
  (Nat.le_add_right _ _).trans
    (@Transition.System.length_add_le_of_run _ _ (poolStartupSystem call) _ remaining_step _ _ _
      ran)

theorem waits_of_created (sound : state.Sound) (isOpen : call.initSem.isSome)
    (created : ∀ worker : call.Worker, call.created worker) {worker : call.Worker}
    (at_ : state.place = .semWait worker) :
    ∃ count, state.initSem = some count ∧ (0 < count ∨ (state.workers worker).onItsWay) := by
  have opened := sound.opened (by rw [at_]; rfl)
  rw [isOpen, Option.isSome_iff_exists] at opened
  rcases opened with ⟨count, counted⟩
  exact ⟨count, counted, sound.toCome worker at_ (created worker) count counted⟩

end PoolStartup

/-- A call that cannot start all threads does not return 0. -/
theorem StartsReliably.succeeds {call : StartupCall} (reliable : StartsReliably call)
    (proceeds : call.Proceeds) :
    call.initSem.isSome ∧ ∀ worker : call.Worker, call.created worker := by
  rcases @Transition.System.exists_run_to_end _ _ (poolStartupSystem call) _
    PoolStartup.remaining_step PoolStartup.begin with ⟨labels, state, ran, ends⟩
  have reached : (poolStartupSystem call).Reachable state :=
    Transition.System.Reachable.run (.start rfl) ran
  have sound := PoolStartup.sound_of_reachable reached
  rcases reliable.returns state reached ends with ⟨code, at_⟩
  have passed := sound.passed
  have waited := sound.waited
  rw [at_] at passed waited
  have isZero : code = 0 := passed.mpr proceeds
  subst isZero
  refine ⟨waited (StartupCall.currSize_pos proceeds.valid), fun worker => ?_⟩
  exact (sound.born worker (reliable.created state reached at_ worker)).1

/--
The start is reliable exactly when it fails before `INIT_SEM` is needed, or
`INIT_SEM` can be opened and every thread can be created.
-/
theorem startsReliably_iff (call : StartupCall) :
    StartsReliably call ↔ call.invalid ∨ ¬call.mutexInit ∨ ¬call.poolSem ∨
      call.initSem.isSome ∧ ∀ worker : call.Worker, call.created worker := by
  constructor
  · intro reliable
    by_cases proceeds : call.Proceeds
    · exact Or.inr (Or.inr (Or.inr (reliable.succeeds proceeds)))
    · by_contra fails
      push Not at fails
      exact proceeds ⟨(Bool.not_eq_true _).mp fails.1, fails.2.1, fails.2.2.1⟩
  · intro succeeds
    have opens : call.Proceeds →
        call.initSem.isSome ∧ ∀ worker : call.Worker, call.created worker := by
      intro proceeds
      rcases succeeds with invalid | noMutex | noSem | opens
      · exact absurd invalid (by simp [proceeds.valid])
      · exact absurd proceeds.mutexInit noMutex
      · exact absurd proceeds.poolSem noSem
      · exact opens
    exact
      { waits := by
          intro state reached worker at_
          have sound := PoolStartup.sound_of_reachable reached
          have proceeds := sound.passed.proceeds (by rw [at_]; rfl)
          rcases PoolStartup.waits_of_created sound (opens proceeds).1 (opens proceeds).2 at_ with
            ⟨count, counted, positive | waits⟩
          · exact ⟨count, counted, Or.inl positive⟩
          · exact ⟨count, counted, Or.inr ⟨worker, waits⟩⟩
        finite := ⟨_, fun _ _ ran => PoolStartup.length_le_remaining ran⟩
        returns := by
          intro state reached stuck
          have sound := PoolStartup.sound_of_reachable reached
          by_cases crashed : state.place = .crashed
          · have proceeds := sound.passed.proceeds (by rw [crashed]; rfl)
            have isOpen := (opens proceeds).1
            rw [sound.crashed crashed] at isOpen
            cases isOpen
          · have mainStuck : state.mainStep = none := by
              simpa [poolStartupSystem, PoolStartup.step, crashed] using stuck .main
            rcases PoolStartup.mainStep_eq_none mainStuck with returned | at_ | ⟨worker, at_, empty⟩
            · exact returned
            · exact absurd at_ crashed
            · have proceeds := sound.passed.proceeds (by rw [at_]; rfl)
              rcases PoolStartup.waits_of_created sound (opens proceeds).1 (opens proceeds).2 at_
                with ⟨count, counted, positive | onItsWay⟩
              · rw [empty, Option.some.injEq] at counted
                omega
              · have workerStuck : state.workerStep worker = none := by
                  simpa [poolStartupSystem, PoolStartup.step, crashed] using
                    stuck (.worker worker)
                exact absurd workerStuck (PoolStartup.workerStep_of_onItsWay onItsWay)
        created := by
          intro state reached at_ worker
          have sound := PoolStartup.sound_of_reachable reached
          have proceeds := sound.passed.proceeds (by rw [at_]; rfl)
          refine sound.begun worker ?_ ((opens proceeds).2 worker)
          rw [at_]
          exact worker.isLt }

/-- The call of `main` with its default number of threads, when no thread can be created. -/
def threadlessCall : StartupCall where
  maxThreadNum := 8
  sizeOption := sizeStatic
  named := true
  mutexInit := true
  poolSem := true
  initSem := some 0
  created := fun _ => false

/-- The failure of `pthread_create` is not reported. -/
theorem threadlessCall_unreliable :
    ¬∀ call : StartupCall, 1 ≤ call.maxThreadNum → StartsReliably call := by
  intro reliable
  have succeeds := (reliable threadlessCall (by decide)).succeeds ⟨by decide, rfl, rfl⟩
  exact absurd (succeeds.2 ⟨0, by decide⟩) (by decide)

end LetUsConnect
