import LetUsConnect.Server.Isolation

/-!
# Answers in order

Whatever the threads do, what is done to answer a connection is one answer after
the other to the texts dispatched for it, in the order in which they were
dispatched, and nothing is dispatched after a request that asks to close. The
invariant follows the one worker a connection has, if it has one.
-/

namespace LetUsConnect

open CString

/-- The answers to these texts, each given in circumstances of its own. -/
def replies (routes : Dictionary RouteHandler) (envs : List Environment) (texts : List Bytes) :
    List Action :=
  (envs.zip texts).flatMap fun reply => dispatch routes reply.1 (httpRequestConstructor reply.2)

namespace TaskPlace

/-- The texts that are answered when the work for a connection is at a place. -/
def settled (texts : List Bytes) : TaskPlace → List Bytes
  | .handle _ => texts.dropLast
  | _ => texts

/-- What the place of the work tells about the last text dispatched. -/
def Last (closes : ℕ) (last : Option Bytes) : TaskPlace → Prop
  | .handle text => last = some text
  | .resetLength keep | .clearBuffer keep | .checkActive keep =>
      ∀ text ∈ last, keepAlive (httpRequestConstructor text) = keep
  | .close => True
  | .deactivate => closes ≠ 0
  | _ => closes = 0 → ∀ text ∈ last, keepAlive (httpRequestConstructor text)

end TaskPlace

/-- The records of a connection while the work for it is at a place. -/
structure Transcribed (routes : Dictionary RouteHandler) (place : TaskPlace) (closes : ℕ)
    (dispatched : List Bytes) (answered : List Action) : Prop where
  replied : ∃ envs : List Environment, envs.length = (place.settled dispatched).length ∧
    answered = replies routes envs (place.settled dispatched)
  persistent : ∀ text ∈ dispatched.dropLast, keepAlive (httpRequestConstructor text)
  last : place.Last closes dispatched.getLast?

/-! ## The records along the work -/

section Records

variable {routes : Dictionary RouteHandler} {place placeAfter : TaskPlace} {closes closesAfter : ℕ}
  {dispatched : List Bytes} {answered : List Action} {text : Bytes}

theorem replies_append_singleton {envs : List Environment} {texts : List Bytes}
    (same : envs.length = texts.length) (env : Environment) (text : Bytes) :
    replies routes (envs ++ [env]) (texts ++ [text]) =
      replies routes envs texts ++ dispatch routes env (httpRequestConstructor text) := by
  rw [replies, List.zip_append same, List.flatMap_append, replies]
  simp

theorem Transcribed.goes (recorded : Transcribed routes place closes dispatched answered)
    (settled : placeAfter.settled dispatched = place.settled dispatched)
    (last : place.Last closes dispatched.getLast? →
      placeAfter.Last closesAfter dispatched.getLast?) :
    Transcribed routes placeAfter closesAfter dispatched answered where
  replied := by
    rw [settled]
    exact recorded.replied
  persistent := recorded.persistent
  last := last recorded.last

theorem TaskPlace.Last.mono {last : Option Bytes} (before : place.Last closes last)
    (closed : closes ≤ closesAfter) : place.Last closesAfter last := by
  cases place <;> try exact before
  case deactivate =>
    change closes ≠ 0 at before
    change closesAfter ≠ 0
    omega
  all_goals exact fun open_ => before (by omega)

theorem Transcribed.construct (recorded : Transcribed routes .construct 0 dispatched answered) :
    Transcribed routes (.handle text) 0 (dispatched ++ [text]) answered where
  replied := by
    rw [TaskPlace.settled, List.dropLast_concat]
    exact recorded.replied
  persistent := by
    rw [List.dropLast_concat]
    intro earlier member
    rcases List.eq_nil_or_concat' dispatched with rfl | ⟨front, final, rfl⟩
    · cases member
    · rcases List.mem_append.mp member with inFront | isFinal
      · exact recorded.persistent earlier (by rwa [List.dropLast_concat])
      · rw [List.mem_singleton.mp isFinal]
        exact recorded.last rfl final (by simp)
  last := by
    rw [TaskPlace.Last, List.getLast?_concat]

theorem Transcribed.handle (recorded : Transcribed routes (.handle text) closes dispatched answered)
    (env : Environment) :
    Transcribed routes (.resetLength (keepAlive (httpRequestConstructor text))) closes dispatched
      (answered ++ dispatch routes env (httpRequestConstructor text)) := by
  rcases List.getLast?_eq_some_iff.mp recorded.last with ⟨front, rfl⟩
  rcases recorded.replied with ⟨envs, length, replied⟩
  rw [TaskPlace.settled, List.dropLast_concat] at length replied
  refine ⟨⟨envs ++ [env], ?_, ?_⟩, recorded.persistent, ?_⟩
  · rw [TaskPlace.settled, List.length_append, List.length_append, length]
    · rfl
    · simp
  · rw [TaskPlace.settled, replies_append_singleton length, replied]
    simp
  · rw [TaskPlace.Last, List.getLast?_concat]
    intro same isSame
    cases isSame
    rfl

end Records

/-! ## The invariant -/

namespace ServerState

variable {Worker : Type} {state after : ServerState Worker}
  {serverFd connection : ℕ} {worker : Worker} {task : ClientTask} {place placeAfter : TaskPlace}
  {routes : Dictionary RouteHandler}

/-- Where the work for a connection is; a connection no worker works for waits for one. -/
def ServesAt (state : ServerState Worker) (connection : ℕ) (place : TaskPlace) : Prop :=
  (∃ worker task, state.pool.workers worker = .work (some task) place ∧
      task.connection = connection ∧ place ≠ .done) ∨
    place = .recv ∧ ∀ worker task other, state.pool.workers worker = .work (some task) other →
      task.connection = connection → other = .done

/-- The records of every connection are in order. -/
def Answering (routes : Dictionary RouteHandler) (state : ServerState Worker) : Prop :=
  ∀ connection place, state.ServesAt connection place →
    Transcribed routes place (state.closes connection) (state.dispatched connection)
      (state.answered connection)

theorem answering_start (routes : Dictionary RouteHandler) (serverFd count : ℕ) :
    Answering routes (serverStart serverFd count : ServerState Worker) := by
  rintro connection place (⟨worker, task, at_, -⟩ | ⟨rfl, -⟩)
  · cases at_
  · exact ⟨⟨[], rfl, rfl⟩, by simp [serverStart], fun _ => by simp [serverStart]⟩

/-! ## Steps that leave the records as they are -/

theorem Answering.of_frame (answering : Answering routes state)
    (closes : ∀ connection, state.closes connection ≤ after.closes connection)
    (dispatched : after.dispatched = state.dispatched) (answered : after.answered = state.answered)
    (servesAt : ∀ connection place, after.ServesAt connection place →
      state.ServesAt connection place) : Answering routes after := by
  intro connection place serves
  rw [dispatched, answered]
  exact (answering connection place (servesAt connection place serves)).goes rfl
    fun last => last.mono (closes connection)

theorem servesAt_of_workers (workers : after.pool.workers = state.pool.workers)
    (serves : after.ServesAt connection place) : state.ServesAt connection place := by
  rw [ServesAt, workers] at serves
  exact serves

variable [DecidableEq Worker]

theorem servesAt_moveWorker {place' : WorkerPlace ClientTask TaskPlace}
    (workers : after.pool.workers = Function.update state.pool.workers worker place')
    (before : ∀ task place, state.pool.workers worker = .work (some task) place → place = .done)
    (afterwards : ∀ task place, place' = .work (some task) place → place = .recv ∧
      ∀ other task' place, state.pool.workers other = .work (some task') place →
        task'.connection = task.connection → place = .done)
    (serves : after.ServesAt connection place) : state.ServesAt connection place := by
  rw [ServesAt, workers] at serves
  rcases serves with ⟨other, task, at_, isConnection, working⟩ | ⟨rfl, nobody⟩
  · by_cases same : other = worker
    · rw [same, Function.update_self] at at_
      rcases afterwards task place at_ with ⟨rfl, nobody⟩
      exact Or.inr ⟨rfl, fun other task' place' at' isConnection' =>
        nobody other task' place' at' (isConnection'.trans isConnection.symm)⟩
    · rw [Function.update_of_ne same] at at_
      exact Or.inl ⟨other, task, at_, isConnection, working⟩
  · refine Or.inr ⟨rfl, fun other task' place at_ isConnection => ?_⟩
    by_cases same : other = worker
    · subst same
      exact before task' place at_
    · exact nobody other task' place (by rw [Function.update_of_ne same, at_]) isConnection

variable [Fintype Worker]

/-- No two workers work for one connection. -/
theorem Owned.only_worker (owned : state.Owned serverFd)
    (hand : inHand (state.pool.workers worker) = some task) {other : Worker} {task' : ClientTask}
    (otherHand : inHand (state.pool.workers other) = some task')
    (same : task'.connection = task.connection) : other = worker := by
  have occupied := (owned.tasks task (Or.inr (Or.inr ⟨worker, hand⟩))).2
  have otherOccupied := (owned.tasks task' (Or.inr (Or.inr ⟨other, otherHand⟩))).2
  have isSlot : task'.conn = task.conn := by
    apply owned.ledger.distinct _ _ (owned.handsOn otherHand).isActive (owned.handsOn hand).isActive
    rw [occupied, otherOccupied, same]
  exact (owned.handsOn hand).unique hand otherHand isSlot

theorem Owned.servesAt_workerStep (owned : state.Owned serverFd) (delivers : state.pool.Delivers)
    (sound : state.pool.LockSound) {pool : ThreadPool ClientTask TaskPlace Worker Unit}
    (taken : state.pool.workerStep worker = some pool)
    (serves : ServesAt { state with pool := pool } connection place) :
    state.ServesAt connection place := by
  rcases ThreadPool.workerStep_handover delivers sound taken with
    ⟨place', workers, -, idle, begins, moved⟩
  refine servesAt_moveWorker workers ?_ ?_ serves
  · intro task place at_
    rw [at_] at idle
    cases idle
  · rintro task place rfl
    refine ⟨begins place rfl, ?_⟩
    intro other task' place at_ same
    by_contra working
    rcases moved with ⟨sameHeld, -⟩ | ⟨_, -, impossible, -⟩
    · have hand : inHand (state.pool.workers worker) = some task := by
        rw [inHand_eq_held (by simp [idle]), ← sameHeld]
        rfl
      have isWorker := owned.only_worker hand (inHand_of_work at_ working) same
      rw [← isWorker, at_] at idle
      cases idle
    · cases impossible

omit [Fintype Worker] in
/-- A worker with nothing in its hand goes on with nothing in its hand. -/
theorem servesAt_moveIdle {placeAfter : WorkerPlace ClientTask TaskPlace}
    (before : inHand (state.pool.workers worker) = none) (afterwards : placeAfter.body = none)
    (serves : ServesAt { state with pool := state.pool.moveWorker worker placeAfter } connection
      place) : state.ServesAt connection place := by
  refine servesAt_moveWorker rfl ?_ ?_ serves
  · exact fun task stage at_ => done_of_inHand_eq_none at_ before
  · rintro task stage rfl
    cases afterwards

omit [Fintype Worker] [DecidableEq Worker] in
theorem Answering.ofPool (answering : Answering routes state)
    {pool : ThreadPool ClientTask TaskPlace Worker Unit}
    (servesAt : ∀ connection place, ServesAt { state with pool := pool } connection place →
      state.ServesAt connection place) : Answering routes { state with pool := pool } :=
  answering.of_frame (fun _ => le_rfl) rfl rfl servesAt

omit [Fintype Worker] [DecidableEq Worker] in
theorem le_closeFd {place : ReactorPlace} {fd closing : ℕ} (connection : ℕ) :
    state.closes connection ≤ ((state.closeFd fd closing).goto place).closes connection := by
  change _ ≤ Function.update state.closes closing (state.closes closing + 1) connection
  by_cases same : connection = closing
  · rw [same, Function.update_self]
    exact Nat.le_succ _
  · rw [Function.update_of_ne same]

omit [Fintype Worker] [DecidableEq Worker] in
theorem Answering.reactorStep (answering : Answering routes state) {input : ReactorInput}
    (taken : state.reactorStep serverFd input = some after) : Answering routes after := by
  cases reactorMove_of_step taken with
  | rejects | closes => exact answering.of_frame le_closeFd rfl rfl fun _ _ serves => serves
  | handsOver added =>
      refine answering.of_frame (fun _ => le_rfl) rfl rfl fun _ _ => servesAt_of_workers ?_
      unfold ThreadPool.addWork at added
      split at added <;> cases added
      rfl
  | _ => exact answering.of_frame (fun _ => le_rfl) rfl rfl fun _ _ serves => serves

/-! ## Steps of the worker of a connection -/

/-- A move of a worker changes where the work is for its own connection only. -/
theorem Owned.servesAt_taskMove (owned : state.Owned serverFd)
    (at_ : state.pool.workers worker = .work (some task) place) (working : place ≠ .done)
    (pool : after.pool = state.pool.moveWorker worker (.work (some task) placeAfter))
    {stage : TaskPlace} (serves : after.ServesAt connection stage) :
    connection = task.connection ∧ stage = resting placeAfter ∨
      connection ≠ task.connection ∧ state.ServesAt connection stage := by
  have hand := inHand_of_work at_ working
  rw [ServesAt, pool, ThreadPool.workers_moveWorker] at serves
  by_cases own : connection = task.connection
  · refine Or.inl ⟨own, ?_⟩
    rcases serves with ⟨other, task', otherAt, same, otherWorks⟩ | ⟨rfl, nobody⟩
    · by_cases isWorker : other = worker
      · rw [isWorker, Function.update_self] at otherAt
        cases otherAt
        rw [resting, if_neg otherWorks]
      · rw [Function.update_of_ne isWorker] at otherAt
        have otherHand := inHand_of_work otherAt otherWorks
        exact absurd (owned.only_worker hand otherHand (same.trans own)) isWorker
    · have isDone := nobody worker task placeAfter (Function.update_self _ _ _) own.symm
      rw [resting, if_pos isDone]
  · refine Or.inr ⟨own, ?_⟩
    rcases serves with ⟨other, task', otherAt, same, otherWorks⟩ | ⟨rfl, nobody⟩
    · by_cases isWorker : other = worker
      · rw [isWorker, Function.update_self] at otherAt
        cases otherAt
        exact absurd same.symm own
      · rw [Function.update_of_ne isWorker] at otherAt
        exact Or.inl ⟨other, task', otherAt, same, otherWorks⟩
    · refine Or.inr ⟨rfl, fun other task' place' otherAt same => ?_⟩
      by_cases isWorker : other = worker
      · rw [isWorker, at_] at otherAt
        cases otherAt
        exact absurd same.symm own
      · exact nobody other task' place' (by rw [Function.update_of_ne isWorker, otherAt]) same

theorem Answering.taskMove (answering : Answering routes state) (owned : state.Owned serverFd)
    (at_ : state.pool.workers worker = .work (some task) place) (working : place ≠ .done)
    (pool : after.pool = state.pool.moveWorker worker (.work (some task) placeAfter))
    (others : ∀ connection, connection ≠ task.connection →
      after.closes connection = state.closes connection ∧
        after.dispatched connection = state.dispatched connection ∧
        after.answered connection = state.answered connection)
    (recorded : Transcribed routes place (state.closes task.connection)
        (state.dispatched task.connection) (state.answered task.connection) →
      Transcribed routes (resting placeAfter) (after.closes task.connection)
        (after.dispatched task.connection) (after.answered task.connection)) :
    Answering routes after := by
  intro connection stage serves
  rcases owned.servesAt_taskMove at_ working pool serves with ⟨rfl, rfl⟩ | ⟨differs, before⟩
  · exact recorded (answering _ place (Or.inl ⟨worker, task, at_, rfl, working⟩))
  · rcases others connection differs with ⟨closes, dispatched, answered⟩
    rw [closes, dispatched, answered]
    exact answering connection stage before

/-- A step that records nothing. -/
theorem Answering.quiet (answering : Answering routes state) (owned : state.Owned serverFd)
    (at_ : state.pool.workers worker = .work (some task) place) (working : place ≠ .done)
    (pool : after.pool = state.pool.moveWorker worker (.work (some task) placeAfter))
    (closes : after.closes = state.closes) (dispatched : after.dispatched = state.dispatched)
    (answered : after.answered = state.answered)
    (settled : ∀ texts, (resting placeAfter).settled texts = place.settled texts)
    (last : ∀ closes text, place.Last closes text → (resting placeAfter).Last closes text) :
    Answering routes after := by
  refine answering.taskMove owned at_ working pool ?_ ?_
  · intro connection _
    rw [closes, dispatched, answered]
    exact ⟨rfl, rfl, rfl⟩
  · rw [closes, dispatched, answered]
    exact fun recorded => recorded.goes (settled _) (last _ _)

theorem Answering.taskStep (answering : Answering routes state) (owned : state.Owned serverFd)
    {arrival : Arrival} (taken : state.taskStep routes worker arrival = some after) :
    Answering routes after := by
  rcases taskStep_pool taken with ⟨task, place, -, at_, -⟩
  simp only [ServerState.taskStep, at_] at taken
  cases place <;> simp only at taken
  case recv =>
    unfold ServerState.recvStep at taken
    split at taken
    case h_2 =>
      rcases Option.map_eq_some_iff.mp taken with ⟨buffer, -, rfl⟩
      exact answering.quiet owned at_ (by simp) rfl rfl rfl rfl (fun _ => rfl) fun _ _ last => last
    case h_1 | h_6 => cases taken
    all_goals
      cases taken
      first
        | exact answering.quiet owned at_ (by simp) rfl rfl rfl rfl (fun _ => rfl)
            fun _ _ last => last
        | exact answering.quiet owned at_ (by simp) rfl rfl rfl rfl (fun _ => rfl)
            fun _ _ _ => trivial
  case advance =>
    rcases Option.map_eq_some_iff.mp taken with ⟨buffer, -, rfl⟩
    exact answering.quiet owned at_ (by simp) rfl rfl rfl rfl (fun _ => rfl) fun _ _ last => last
  case terminate | resetLength | clearBuffer | stamp | release =>
    cases taken
    exact answering.quiet owned at_ (by simp) rfl rfl rfl rfl (fun _ => rfl) fun _ _ last => last
  case frame =>
    cases taken
    refine answering.quiet owned at_ (by simp) rfl rfl rfl rfl ?_ ?_
    · intro texts
      split_ifs <;> rfl
    · intro closes text last
      split_ifs <;> exact last
  case construct =>
    cases taken
    have open_ := (owned.named_of_hand (inHand_of_work at_ (by simp)) (by simp [at_])).2
    refine answering.taskMove owned at_ (by simp) rfl ?_ ?_
    · exact fun connection differs => ⟨rfl, Function.update_of_ne differs _ _, rfl⟩
    · intro recorded
      simp only [ServerState.proceed, Function.update_self, open_] at recorded ⊢
      exact recorded.construct
  case handle text =>
    cases taken
    refine answering.taskMove owned at_ (by simp) rfl ?_ ?_
    · exact fun connection differs => ⟨rfl, rfl, Function.update_of_ne differs _ _⟩
    · intro recorded
      simp only [ServerState.proceed, Function.update_self]
      exact recorded.handle arrival.env
  case checkActive keep =>
    cases taken
    refine answering.quiet owned at_ (by simp) rfl rfl rfl rfl ?_ ?_
    · intro texts
      split_ifs <;> rfl
    · intro closes text last
      split_ifs with kept
      · rw [Bool.and_eq_true] at kept
        exact fun _ other isLast => (last other isLast).trans kept.1
      · trivial
  case close =>
    cases taken
    refine answering.taskMove owned at_ (by simp) rfl ?_ ?_
    · exact fun connection differs => ⟨Function.update_of_ne differs _ _, rfl, rfl⟩
    · intro recorded
      refine recorded.goes rfl fun _ => ?_
      change Function.update _ _ _ _ ≠ 0
      rw [Function.update_self]
      exact Nat.succ_ne_zero _
  case deactivate =>
    cases taken
    exact answering.quiet owned at_ (by simp) rfl rfl rfl rfl (fun _ => rfl)
      fun _ _ closed open_ => absurd open_ closed
  case done => cases taken

theorem Answering.step (answering : Answering routes state) (owned : state.Owned serverFd)
    (delivers : state.pool.Delivers) (sound : state.pool.LockSound) {label : ServerLabel Worker}
    (taken : (serverSystem Worker routes serverFd).step label state = some after) :
    Answering routes after := by
  cases label with
  | reactor input => exact answering.reactorStep taken
  | task worker arrival => exact answering.taskStep owned taken
  | finishWork worker =>
      rcases finishWork_cases taken with ⟨idle, rfl⟩
      exact answering.ofPool fun _ _ => servesAt_moveIdle idle rfl
  | worker worker =>
      rcases Option.map_eq_some_iff.mp taken with ⟨pool, moved, rfl⟩
      exact answering.ofPool fun _ _ => owned.servesAt_workerStep delivers sound moved
  | interrupt worker =>
      rcases Option.map_eq_some_iff.mp taken with ⟨pool, moved, rfl⟩
      rcases ThreadPool.interrupt_cases moved with ⟨at_, rfl⟩
      exact answering.ofPool fun _ _ => servesAt_moveIdle (by rw [at_]; rfl) rfl
  | addWork newNode =>
      rcases Option.map_eq_some_iff.mp taken with ⟨pool, moved, rfl⟩
      rcases ThreadPool.adderStep_handover delivers moved with ⟨-, -, workers, -⟩
      exact answering.ofPool fun _ _ serves => servesAt_of_workers workers serves

theorem answering_of_reachable (reached : (serverSystem Worker routes serverFd).Reachable state) :
    Answering routes state := by
  refine @Transition.System.ReachableWhere.invariant _ _ _ _
    (fun state => state.Owned serverFd ∧ state.pool.Delivers ∧ state.pool.LockSound)
    (Answering routes) ?_ ?_ ?_ state reached
  · intro state reached
    exact ⟨owned_of_reachable reached, ThreadPool.delivers_of_reachable (pool_reachable reached),
      ThreadPool.lockSound_of_reachable (pool_reachable reached)⟩
  · rintro state ⟨count, -, rfl⟩
    exact answering_start routes serverFd count
  · intro state label after known answering _ taken
    exact answering.step known.1 known.2.1 known.2.2 taken

/-! ## What the invariant says of a connection -/

/-- A worker is at that place of its work for the connection. -/
def WorksAt (state : ServerState Worker) (connection : ℕ) (place : TaskPlace) : Prop :=
  ∃ worker task, state.pool.workers worker = .work (some task) place ∧ task.connection = connection

/-- The work is at a place from which the connection may be closed. -/
def closesNext : TaskPlace → Bool
  | .handle _ | .resetLength false | .clearBuffer false | .checkActive false | .close => true
  | _ => false

/-- What was done for a connection. -/
structure AnsweredInOrder (routes : Dictionary RouteHandler) (state : ServerState Worker)
    (connection : ℕ) : Prop where
  replied : ∃ (envs : List Environment) (texts : List Bytes), envs.length = texts.length ∧
    state.answered connection = replies routes envs texts ∧
    (state.dispatched connection = texts ∨ ∃ text, state.dispatched connection = texts ++ [text] ∧
      state.WorksAt connection (.handle text))
  persistent : ∀ text ∈ (state.dispatched connection).dropLast,
    keepAlive (httpRequestConstructor text)
  ends : ∀ text ∈ (state.dispatched connection).getLast?,
    keepAlive (httpRequestConstructor text) = false →
      state.closes connection ≠ 0 ∨ ∃ place, closesNext place ∧ state.WorksAt connection place

omit [DecidableEq Worker] in
theorem exists_servesAt (state : ServerState Worker) (connection : ℕ) :
    ∃ place, state.ServesAt connection place ∧
      (state.WorksAt connection place ∨ place = .recv) := by
  by_cases works : ∃ worker task place, state.pool.workers worker = .work (some task) place ∧
      task.connection = connection ∧ place ≠ .done
  · rcases works with ⟨worker, task, place, at_, own, working⟩
    exact ⟨place, Or.inl ⟨worker, task, at_, own, working⟩, Or.inl ⟨worker, task, at_, own⟩⟩
  · refine ⟨.recv, Or.inr ⟨rfl, fun worker task other at_ own => ?_⟩, Or.inr rfl⟩
    by_contra working
    exact works ⟨worker, task, other, at_, own, working⟩

/--
In every run each connection is answered text by text in the order of dispatch,
with at most the last text still to be answered by the worker that dispatched it,
and nothing follows a request that asks to close.
-/
theorem answeredInOrder_of_reachable
    (reached : (serverSystem Worker routes serverFd).Reachable state) (connection : ℕ) :
    AnsweredInOrder routes state connection := by
  rcases exists_servesAt state connection with ⟨place, serves, works⟩
  rcases answering_of_reachable reached connection place serves with ⟨replied, persistent, last⟩
  refine ⟨?_, persistent, ?_⟩
  · rcases replied with ⟨envs, length, isReplied⟩
    refine ⟨envs, _, length, isReplied, ?_⟩
    cases place with
    | handle text =>
        rcases List.getLast?_eq_some_iff.mp last with ⟨front, split⟩
        rcases works with works | impossible
        · refine Or.inr ⟨text, ?_, works⟩
          rw [split, TaskPlace.settled, List.dropLast_concat]
        · cases impossible
    | _ => exact Or.inl rfl
  · intro text isLast closing
    have worksThere : ∀ {here : TaskPlace}, place = here → here ≠ .recv → closesNext here →
        ∃ place, closesNext place ∧ state.WorksAt connection place := by
      rintro here rfl notWaiting next
      exact ⟨place, next, works.resolve_right notWaiting⟩
    cases place with
    | handle | close => exact Or.inr (worksThere rfl (by simp) rfl)
    | resetLength keep | clearBuffer keep | checkActive keep =>
        have isKeep : keepAlive (httpRequestConstructor text) = keep := last text isLast
        rw [closing] at isKeep
        subst isKeep
        exact Or.inr (worksThere rfl (by simp) rfl)
    | deactivate => exact Or.inl last
    | _ =>
        refine Or.inl fun open_ => ?_
        rw [last open_ text isLast] at closing
        cases closing

/-- A request that asks to close the connection. -/
def closingRequest : Bytes := bytes "GET / HTTP/1.1\r\nConnection: close\r\n\r\n"

/-- The first request of a connection is answered, and the worker waits again. -/
def firstReply : List (ServerLabel Unit) :=
  claimRun ++ List.replicate 11 (.task () (arrive (bytes "B\r\n\r\n"))) ++ [.finishWork ()] ++
    List.replicate 5 (.worker ())

/-- The reactor hands the connection over again, and the second request closes it. -/
def secondReply : List (ServerLabel Unit) :=
  List.replicate 780 (.reactor quiet) ++ [.reactor { quiet with ready := some {5} }] ++
    List.replicate 5 (.reactor quiet) ++ List.replicate 5 (.addWork 101) ++
    List.replicate 9 (.worker ()) ++ List.replicate 11 (.task () (arrive closingRequest))

theorem twoReplies_answeredInOrder :
    ∃ state, (serverSystem Unit dictionaryConstructor 3).run (firstReply ++ secondReply)
        (serverStart 3 0) = some state ∧
      state.dispatched 0 = [bytes "B\r\n\r\n", closingRequest] ∧ state.closes 0 = 1 ∧
      AnsweredInOrder dictionaryConstructor state 0 := by
  have initially : (serverSystem Unit dictionaryConstructor 3).initial (serverStart 3 0) :=
    ⟨0, by decide, rfl⟩
  have works : ((serverSystem Unit dictionaryConstructor 3).run (firstReply ++ secondReply)
      (serverStart 3 0)).map (fun state => (state.dispatched 0, state.closes 0)) =
      some ([bytes "B\r\n\r\n", closingRequest], 1) := by
    decide +kernel
  rcases Option.map_eq_some_iff.mp works with ⟨state, ran, values⟩
  have reached := Transition.System.Reachable.run (.start initially) ran
  exact ⟨state, ran, congrArg Prod.fst values, congrArg Prod.snd values,
    answeredInOrder_of_reachable reached 0⟩

end ServerState

end LetUsConnect
