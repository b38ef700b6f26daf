import LetUsConnect.Network.ThreadPool.Startup

/-!
# The handshake of the start

In each round `thread_pool_init` writes the cell of one thread into `args`,
creates the thread and waits on `INIT_SEM` until the thread has read it. This
keeps the rounds apart as long as every token of the semaphore comes from such a
thread. `sem_open` without `O_EXCL` takes over a semaphore that is left from
another run with its count, and then the caller is ahead of its threads.
-/

namespace LetUsConnect

open Threads

/-- The checks are passed, `INIT_SEM` has that count and every `pthread_create` succeeds. -/
structure StartupCall.Succeeds (call : StartupCall) (count : ℕ) : Prop extends
    call.Proceeds where
  initSem : call.initSem = some count
  created : ∀ worker : call.Worker, call.created worker

/--
Whatever a thread has read from `args->state` is its own cell, and no thread
reads from `args` after it is freed.
-/
def HandsOverCells (call : StartupCall) : Prop :=
  ∀ state : PoolStartup call.Worker, (poolStartupSystem call).Reachable state →
    ∀ worker, (∀ cell, (state.workers worker).cell = some cell → cell = some worker) ∧
      state.workers worker ≠ .readFreed

namespace PoolStartup

variable {call : StartupCall} {state after : PoolStartup call.Worker}

/-- The caller and the thread it has just created take turns. -/
structure InTurn (state : PoolStartup call.Worker) : Prop where
  cells : ∀ worker cell, (state.workers worker).cell = some cell → cell = some worker
  unfreed : ∀ worker, state.workers worker ≠ .readFreed
  onItsWay : ∀ worker, (state.workers worker).onItsWay →
    state.place = .semWait worker ∧ state.argsState = some worker ∧ state.initSem = some 0
  counted : state.place.entered →
    state.initSem = some 0 ∨ state.initSem = some 1 ∧ ∃ worker, state.place = .semWait worker
  written : ∀ worker, state.place = .create worker → state.argsState = some worker
  freed : state.argsFreed → state.place = .returned 0

theorem inTurn_begin : (begin : PoolStartup call.Worker).InTurn := by
  constructor <;> simp [begin, StartPlace.cell, StartPlace.onItsWay, PoolStartupPlace.entered]

namespace InTurn

theorem unique (turn : state.InTurn) {worker other : call.Worker}
    (onItsWay : (state.workers worker).onItsWay) (otherOnItsWay : (state.workers other).onItsWay) :
    other = worker := by
  have at_ := (turn.onItsWay worker onItsWay).1
  rw [(turn.onItsWay other otherOnItsWay).1] at at_
  simpa using at_

/-- A step of a thread, whose turn it is. -/
theorem moveWorker (turn : state.InTurn) {worker : call.Worker} {place : StartPlace call.Worker}
    (onItsWay : (state.workers worker).onItsWay)
    (cells : ∀ cell, place.cell = some cell → cell = some worker) (unfreed : place ≠ .readFreed)
    {initSem : Option ℕ}
    (counted : initSem = some 0 ∨ initSem = some 1 ∧ place.onItsWay = false) :
    InTurn { state.moveWorker worker place with initSem } := by
  rcases turn.onItsWay worker onItsWay with ⟨at_, written, -⟩
  have others : ∀ other, other ≠ worker → (state.workers other).onItsWay = false := by
    intro other differs
    rw [← Bool.not_eq_true]
    exact fun otherOnItsWay => differs (turn.unique onItsWay otherOnItsWay)
  constructor
  · apply @forall_moveWorker _ state worker place
      fun other place => ∀ cell, place.cell = some cell → cell = some other
    · exact cells
    · exact fun other _ => turn.cells other
  · apply @forall_moveWorker _ state worker place fun _ place => place ≠ .readFreed
    · exact unfreed
    · exact fun other _ => turn.unfreed other
  · apply @forall_moveWorker _ state worker place fun other place => place.onItsWay →
      state.place = .semWait other ∧ state.argsState = some other ∧ initSem = some 0
    · intro moves
      rcases counted with empty | ⟨-, stopped⟩
      · exact ⟨at_, written, empty⟩
      · rw [stopped] at moves
        cases moves
    · intro other differs impossible
      rw [others other differs] at impossible
      cases impossible
  · intro _
    rcases counted with empty | ⟨one, -⟩
    · exact Or.inl empty
    · exact Or.inr ⟨one, worker, at_⟩
  · exact turn.written
  · exact turn.freed

theorem workerStep (turn : state.InTurn) {worker : call.Worker}
    (taken : state.workerStep worker = some after) : after.InTurn := by
  rcases workerStep_cases taken with ⟨onItsWay, ⟨cell, -, unopened, rfl⟩ |
    ⟨cell, count, at_, opened, rfl⟩ | ⟨place, moves, -, reads, rfl⟩⟩
  all_goals rcases turn.onItsWay worker onItsWay with ⟨here, written, empty⟩
  · rw [unopened] at empty
    cases empty
  · rw [opened, Option.some.injEq] at empty
    subst empty
    refine turn.moveWorker onItsWay ?_ (by simp) (Or.inr ⟨by decide, rfl⟩)
    intro other same
    apply turn.cells worker other
    rwa [at_]
  · have notFreed : state.argsFreed = false := by
      rw [← Bool.not_eq_true]
      intro freed
      rw [turn.freed freed] at here
      cases here
    rw [readArgs, notFreed, if_neg Bool.false_ne_true]
    refine turn.moveWorker onItsWay ?_ ?_ (Or.inl empty)
    · intro cell same
      rw [reads, Option.some.injEq] at same
      cases read : (state.workers worker).cell with
      | none =>
          rw [← same, read]
          exact written
      | some earlier =>
          rw [← same, read]
          exact turn.cells worker earlier read
    · rintro rfl
      cases moves

/-- A step of the caller when no thread is on its way. -/
theorem advance (turn : state.InTurn) (idle : ∀ worker, (state.workers worker).onItsWay = false)
    (sameWorkers : after.workers = state.workers)
    (counted : after.place.entered → after.initSem = some 0)
    (written : ∀ worker, after.place = .create worker → after.argsState = some worker)
    (freed : after.argsFreed → after.place = .returned 0) : after.InTurn where
  cells := by
    rw [sameWorkers]
    exact turn.cells
  unfreed := by
    rw [sameWorkers]
    exact turn.unfreed
  onItsWay := by
    intro worker onItsWay
    rw [sameWorkers, idle worker] at onItsWay
    cases onItsWay
  counted := fun entered => Or.inl (counted entered)
  written := written
  freed := freed

theorem idle (turn : state.InTurn) (elsewhere : ∀ worker, state.place ≠ .semWait worker)
    (worker : call.Worker) : (state.workers worker).onItsWay = false := by
  rw [← Bool.not_eq_true]
  exact fun onItsWay => elsewhere worker (turn.onItsWay worker onItsWay).1

theorem empty (turn : state.InTurn) (entered : state.place.entered)
    (elsewhere : ∀ worker, state.place ≠ .semWait worker) : state.initSem = some 0 := by
  rcases turn.counted entered with empty | ⟨-, worker, at_⟩
  · exact empty
  · exact absurd at_ (elsewhere worker)

theorem not_freed (turn : state.InTurn) (notReturned : state.place ≠ .returned 0) :
    state.argsFreed = false := by
  rw [← Bool.not_eq_true]
  exact fun freed => notReturned (turn.freed freed)

/-- The creation of a thread, whose turn it is then. -/
theorem create (turn : state.InTurn) {worker : call.Worker} (at_ : state.place = .create worker) :
    InTurn ((state.moveWorker worker .readState).goto (.semWait worker)) := by
  have idle := turn.idle (by simp [at_])
  have empty := turn.empty (by rw [at_]; rfl) (by simp [at_])
  have notFreed := turn.not_freed (by simp [at_])
  constructor
  · apply @forall_moveWorker _ state worker .readState
      fun other place => ∀ cell, place.cell = some cell → cell = some other
    · exact fun _ impossible => by cases impossible
    · exact fun other _ => turn.cells other
  · apply @forall_moveWorker _ state worker .readState fun _ place => place ≠ .readFreed
    · simp
    · exact fun other _ => turn.unfreed other
  · apply @forall_moveWorker _ state worker .readState fun other place => place.onItsWay →
      PoolStartupPlace.semWait worker = .semWait other ∧ state.argsState = some other ∧
        state.initSem = some 0
    · exact fun _ => ⟨rfl, turn.written worker at_, empty⟩
    · intro other _ impossible
      rw [idle other] at impossible
      cases impossible
  · exact fun _ => Or.inl empty
  · exact fun _ impossible => by cases impossible
  · exact fun freed => absurd freed (by simp [goto, PoolStartup.moveWorker, notFreed])

theorem mainStep (turn : state.InTurn) (succeeds : call.Succeeds 0)
    (taken : state.mainStep = some after) : after.InTurn := by
  rw [PoolStartup.mainStep] at taken
  cases at_ : state.place with
  | checkInput | mutexInit | semOpen =>
      simp only [at_, succeeds.valid, succeeds.mutexInit, succeeds.poolSem, if_true,
        Bool.false_eq_true, if_false, Option.some.injEq] at taken
      rw [← taken]
      have notFreed := turn.not_freed (by simp [at_])
      exact turn.advance (turn.idle (by simp [at_])) rfl (fun impossible => by cases impossible)
        (fun _ impossible => by cases impossible) (by simp [goto, notFreed])
  | openInitSem =>
      simp only [at_, Option.some.injEq] at taken
      rw [← taken]
      have notFreed := turn.not_freed (by simp [at_])
      exact turn.advance (turn.idle (by simp [at_])) rfl (fun _ => succeeds.initSem)
        (fun _ impossible => by cases impossible) (by simp [goto, notFreed])
  | loop index =>
      simp only [at_] at taken
      have notFreed := turn.not_freed (by simp [at_])
      have empty := turn.empty (by rw [at_]; rfl) (by simp [at_])
      split_ifs at taken with inside
      · cases taken
        refine turn.advance (turn.idle (by simp [at_])) rfl (fun _ => empty) ?_
          (by simp [goto, notFreed])
        intro worker here
        cases here
        rfl
      · cases taken
        exact turn.advance (turn.idle (by simp [at_])) rfl (fun _ => empty)
          (fun _ impossible => by cases impossible) (by simp [goto, notFreed])
  | create worker =>
      simp only [at_, succeeds.created worker, if_true, Option.some.injEq] at taken
      rw [← taken]
      exact turn.create at_
  | semWait worker =>
      simp only [at_] at taken
      have notFreed := turn.not_freed (by simp [at_])
      rcases turn.counted (by rw [at_]; rfl) with empty | ⟨one, -⟩
      · simp [empty] at taken
      · have idle : ∀ other, (state.workers other).onItsWay = false := by
          intro other
          rw [← Bool.not_eq_true]
          intro onItsWay
          have empty := (turn.onItsWay other onItsWay).2.2
          rw [one] at empty
          cases empty
        simp only [one, Option.some.injEq] at taken
        rw [← taken]
        exact turn.advance idle rfl (fun _ => rfl) (fun _ impossible => by cases impossible)
          (by simp [goto, notFreed])
  | semUnlink =>
      simp only [at_, Option.some.injEq] at taken
      rw [← taken]
      have notFreed := turn.not_freed (by simp [at_])
      have empty := turn.empty (by rw [at_]; rfl) (by simp [at_])
      exact turn.advance (turn.idle (by simp [at_])) rfl (fun _ => empty)
        (fun _ impossible => by cases impossible) (by simp [goto, notFreed])
  | freeArgs =>
      simp only [at_, Option.some.injEq] at taken
      rw [← taken]
      have empty := turn.empty (by rw [at_]; rfl) (by simp [at_])
      exact turn.advance (turn.idle (by simp [at_])) rfl (fun _ => empty)
        (fun _ impossible => by cases impossible) (fun _ => rfl)
  | returned code | crashed => simp [at_] at taken

end InTurn

theorem inTurn_of_reachable (succeeds : call.Succeeds 0)
    (reached : (poolStartupSystem call).Reachable state) : state.InTurn := by
  refine Transition.System.Reachable.invariant ?_ ?_ reached
  · rintro state rfl
    exact inTurn_begin
  · intro state label after turn taken
    rcases step_cases taken with ⟨-, ⟨-, taken⟩ | ⟨worker, -, taken⟩⟩
    · exact turn.mainStep succeeds taken
    · exact turn.workerStep taken

/-! ## A token that is left over -/

/-- The caller has taken a token that the first thread did not post. -/
def ahead (first : call.Worker) (count : ℕ) : PoolStartup call.Worker where
  place := .loop 1
  initSem := some count
  argsState := some first
  argsFreed := false
  workers := Function.update (fun _ => .absent) first .readState

theorem ahead_reachable {count : ℕ} (succeeds : call.Succeeds (count + 1)) :
    (poolStartupSystem call).Reachable
      (ahead ⟨0, StartupCall.currSize_pos succeeds.valid⟩ count) := by
  have created := succeeds.created ⟨0, StartupCall.currSize_pos succeeds.valid⟩
  have ran : (poolStartupSystem call).run (List.replicate 7 .main) begin =
      some (ahead ⟨0, StartupCall.currSize_pos succeeds.valid⟩ count) := by
    simp [Transition.System.run, List.replicate, poolStartupSystem, step, mainStep, begin, goto,
      moveWorker, succeeds.valid, succeeds.mutexInit, succeeds.poolSem, succeeds.initSem,
      StartupCall.currSize_pos succeeds.valid, created, ahead]
  exact Transition.System.Reachable.run (.start rfl) ran

/-- The cell of the second thread is written before the first thread reads its own. -/
theorem ahead_mixes {first second : call.Worker} {count : ℕ} (isSecond : (second : ℕ) = 1) :
    (poolStartupSystem call).run [.main, .worker first] (ahead first count) =
      some { (ahead first count).moveWorker first (.readPool (some second)) with
        place := .create second
        argsState := some second } := by
  have inside : 1 < call.currSize := isSecond ▸ second.isLt
  have same : (⟨1, inside⟩ : call.Worker) = second := Fin.ext isSecond.symm
  simp [Transition.System.run, poolStartupSystem, step, mainStep, workerStep, readArgs, goto,
    moveWorker, ahead, inside, same]

/-- The block is freed before the only thread reads from it. -/
theorem ahead_frees {first : call.Worker} {count : ℕ} (single : ¬1 < call.currSize) :
    (poolStartupSystem call).run [.main, .main, .main, .worker first] (ahead first count) =
      some { (ahead first count).moveWorker first .readFreed with
        place := .returned 0
        argsFreed := true } := by
  simp [Transition.System.run, poolStartupSystem, step, mainStep, workerStep, readArgs, goto,
    moveWorker, ahead, single]

theorem not_handsOverCells {count : ℕ} (succeeds : call.Succeeds (count + 1)) :
    ¬HandsOverCells call := by
  intro handsOver
  have positive := StartupCall.currSize_pos succeeds.valid
  have reached := ahead_reachable succeeds
  by_cases several : 1 < call.currSize
  · have mixes := @ahead_mixes call ⟨0, positive⟩ ⟨1, several⟩ count rfl
    have wrong := (handsOver _ (reached.run mixes) ⟨0, positive⟩).1 (some ⟨1, several⟩)
      (by simp [moveWorker, StartPlace.cell])
    simp at wrong
  · have frees := @ahead_frees call ⟨0, positive⟩ count several
    exact (handsOver _ (reached.run frees) ⟨0, positive⟩).2 (by simp [moveWorker])

end PoolStartup

/-- Cells are handed over safely exactly when no token of `INIT_SEM` is left over. -/
theorem handsOverCells_iff {call : StartupCall} {count : ℕ} (succeeds : call.Succeeds count) :
    HandsOverCells call ↔ count = 0 := by
  constructor
  · intro handsOver
    cases count with
    | zero => rfl
    | succ count => exact absurd handsOver (PoolStartup.not_handsOverCells succeeds)
  · rintro rfl state reached worker
    have turn := PoolStartup.inTurn_of_reachable succeeds reached
    exact ⟨turn.cells worker, turn.unfreed worker⟩

/-- The call of `main` with its default number of threads, when all goes well. -/
def defaultCall (count : ℕ) : StartupCall where
  maxThreadNum := 8
  sizeOption := sizeStatic
  named := true
  mutexInit := true
  poolSem := true
  initSem := some count
  created := fun _ => true

theorem defaultCall_succeeds (count : ℕ) : (defaultCall count).Succeeds count :=
  ⟨⟨by rfl, rfl, rfl⟩, rfl, fun _ => rfl⟩

theorem defaultCall_handsOverCells : HandsOverCells (defaultCall 0) ↔ 0 = 0 :=
  handsOverCells_iff (defaultCall_succeeds 0)

/-- With one token left over the first two threads may share a cell. -/
theorem leftOverToken_mixes :
    ¬∀ (call : StartupCall) (count : ℕ), call.Succeeds count → HandsOverCells call :=
  fun always => PoolStartup.not_handsOverCells (defaultCall_succeeds 1)
    (always (defaultCall 1) 1 (defaultCall_succeeds 1))

end LetUsConnect
