import LetUsConnect.Handler.OpenFiles
import LetUsConnect.Server.Accounting
import Mathlib.Data.Set.Card

/-!
# The descriptors of the process

The server together with the files of its handlers: `accept` and `open` take
descriptors from one table, which also holds what was open when the program
started, the log file and the listening socket. A handler runs action by action,
with the steps of the other threads in between.

A worker serves one request at a time and a slot has one worker, so the handlers
hold no more files than there are slots. With the connections that is little
enough for every descriptor of a client to fit an `fd_set`.
-/

namespace LetUsConnect

open CString Threads

/-- `FD_SETSIZE`. -/
def fdSetSize : ℕ := 1024

def IsLowestUnused (isOpen : ℕ → Prop) (fd : ℕ) : Prop :=
  ¬isOpen fd ∧ ∀ lower < fd, isOpen lower

instance {isOpen : ℕ → Prop} [DecidablePred isOpen] {fd : ℕ} :
    Decidable (IsLowestUnused isOpen fd) :=
  inferInstanceAs (Decidable (_ ∧ _))

theorem IsLowestUnused.le_card {isOpen : ℕ → Prop} {fd : ℕ} (lowest : IsLowestUnused isOpen fd)
    {table : Finset ℕ} (covers : ∀ fd, isOpen fd → fd ∈ table) : fd ≤ table.card := by
  have below : Finset.range fd ⊆ table := by
    intro lower member
    exact covers lower (lowest.2 lower (Finset.mem_range.mp member))
  have counted := Finset.card_le_card below
  rwa [Finset.card_range] at counted

/-- What is open when `network_run_server` begins. -/
structure Startup where
  /-- What was open when the program started. -/
  inherited : Finset ℕ
  few : inherited.card ≤ 500
  /-- The stream that `logger_init` opens. -/
  logFd : ℕ
  logUnused : logFd ∉ inherited
  /-- The socket that `network_init` opens. -/
  serverFd : ℕ
  serverUnused : serverFd ∉ insert logFd inherited

/-- A handler that has been called: what its calls return and what it has yet to do. -/
structure HandlerRun where
  arrival : Arrival
  rest : List Action

structure DescriptorState (Worker : Type) where
  server : ServerState Worker
  handlers : Worker → Option HandlerRun
  /-- The worker whose handler has the file open. -/
  files : ℕ → Option Worker

/-- A worker about to call a handler, or in it. -/
def WorkerPlace.handles : WorkerPlace ClientTask TaskPlace → Bool
  | .work (some _) (.handle _) => true
  | _ => false

theorem WorkerPlace.handles_iff {place : WorkerPlace ClientTask TaskPlace} :
    place.handles ↔ ∃ task text, place = .work (some task) (.handle text) := by
  constructor
  · intro handles
    unfold WorkerPlace.handles at handles
    split at handles
    · exact ⟨_, _, rfl⟩
    · cases handles
  · rintro ⟨task, text, rfl⟩
    rfl

namespace DescriptorState

variable {Worker : Type}

def IsOpen (startup : Startup) (state : DescriptorState Worker) (fd : ℕ) : Prop :=
  fd ∈ startup.inherited ∨ fd = startup.logFd ∨ (state.server.descriptors fd).isSome ∨
    (state.files fd).isSome

instance (startup : Startup) (state : DescriptorState Worker) :
    DecidablePred (state.IsOpen startup) :=
  fun _ => inferInstanceAs (Decidable (_ ∨ _))

variable [DecidableEq Worker]

/-- A worker calls the handler of its request. -/
def callHandler (routes : Dictionary RouteHandler) (worker : Worker) (arrival : Arrival)
    (state : DescriptorState Worker) : Option (DescriptorState Worker) :=
  match state.server.pool.workers worker, state.handlers worker with
  | .work (some _) (.handle text), none =>
      let actions := dispatch routes arrival.env (httpRequestConstructor text)
      some
        { state with
          handlers := Function.update state.handlers worker (some ⟨arrival, actions⟩) }
  | _, _ => none

/-- The next action of a handler. -/
def act (startup : Startup) (worker : Worker) (state : DescriptorState Worker) :
    Option (DescriptorState Worker) :=
  match state.handlers worker with
  | some ⟨arrival, action :: rest⟩ =>
      let handlers := Function.update state.handlers worker (some ⟨arrival, rest⟩)
      match action with
      | .openFile _ (some fd) =>
          if IsLowestUnused (state.IsOpen startup) fd then
            some { state with handlers, files := Function.update state.files fd (some worker) }
          else none
      | .closeFile fd =>
          -- A handler never calls `close` on anything else; see `ownFile`.
          if state.files fd = some worker then
            some { state with handlers, files := Function.update state.files fd none }
          else none
      | _ => some { state with handlers }
  | _ => none

/-- A handler that has nothing left to do returns to its worker. -/
def handlerReturned (routes : Dictionary RouteHandler) (worker : Worker)
    (state : DescriptorState Worker) : Option (DescriptorState Worker) :=
  match state.handlers worker with
  | some ⟨arrival, []⟩ =>
      (state.server.taskStep routes worker arrival).map fun server =>
        { state with server, handlers := Function.update state.handlers worker none }
  | _ => none

/-- The steps the server takes as before: all but those of a handler. -/
def Allows (startup : Startup) (state : DescriptorState Worker) (label : ServerLabel Worker) :
    Prop :=
  match label with
  | .reactor input => state.server.reactor = .accept →
      input.incoming.elim True (IsLowestUnused (state.IsOpen startup))
  | .task worker _ => (state.server.pool.workers worker).handles = false
  | _ => True

instance (startup : Startup) (state : DescriptorState Worker) (label : ServerLabel Worker) :
    Decidable (state.Allows startup label) :=
  match label with
  | .reactor input =>
      match isIncoming : input.incoming with
      | none => .isTrue (by intro _; rw [isIncoming]; trivial)
      | some fd =>
          decidable_of_iff
            (state.server.reactor = .accept → IsLowestUnused (state.IsOpen startup) fd)
            (by rw [Allows, isIncoming]; rfl)
  | .task worker _ =>
      inferInstanceAs (Decidable ((state.server.pool.workers worker).handles = false))
  | .finishWork _ | .worker _ | .interrupt _ | .addWork _ => .isTrue trivial

end DescriptorState

inductive DescriptorLabel (Worker : Type) where
  | server (label : ServerLabel Worker)
  | callHandler (worker : Worker) (arrival : Arrival)
  | act (worker : Worker)
  | handlerReturned (worker : Worker)

/-- The server in a process that started like this. -/
def descriptorSystem (Worker : Type) [DecidableEq Worker] (routes : Dictionary RouteHandler)
    (startup : Startup) :
    Transition.System (DescriptorState Worker) (DescriptorLabel Worker) where
  initial state := ∃ count ≤ semValueMax,
    state = ⟨serverStart startup.serverFd count, fun _ => none, fun _ => none⟩
  step
    | .server label => fun state =>
        if state.Allows startup label then
          ((serverSystem Worker routes startup.serverFd).step label state.server).map fun server =>
            { state with server }
        else none
    | .callHandler worker arrival => DescriptorState.callHandler routes worker arrival
    | .act worker => DescriptorState.act startup worker
    | .handlerReturned worker => DescriptorState.handlerReturned routes worker

/-! ## What the steps of the server do to descriptors -/

namespace ServerState

variable {Worker : Type} {state after : ServerState Worker}
  {serverFd : ℕ} {slot : Slot} {worker : Worker} {task : ClientTask}

/-- A step that opens no descriptor and stores none in a slot. -/
structure OpensNothing (state after : ServerState Worker) : Prop where
  descriptors : ∀ fd, after.descriptors fd = state.descriptors fd ∨ after.descriptors fd = none
  stored : ∀ slot, (after.conns slot).fd = (state.conns slot).fd

theorem opensNothing_setConn {conn : ClientConnection}
    (conns : after.conns = Function.update state.conns slot conn)
    (descriptors : after.descriptors = state.descriptors)
    (fd : conn.fd = (state.conns slot).fd) : state.OpensNothing after := by
  refine ⟨fun fd => Or.inl (congrFun descriptors fd), ?_⟩
  rw [conns]
  exact see_update (·.fd) fd

theorem opensNothing_closeFd {fd : ℕ} (conns : after.conns = state.conns)
    (descriptors : after.descriptors = Function.update state.descriptors fd none) :
    state.OpensNothing after := by
  refine ⟨?_, fun slot => by rw [conns]⟩
  intro other
  rw [descriptors]
  by_cases same : other = fd
  · exact Or.inr (by rw [same, Function.update_self])
  · exact Or.inl (Function.update_of_ne same _ _)

/-- The reactor opens a descriptor only by `accept` and stores only what it has accepted. -/
theorem reactorStep_descriptors {input : ReactorInput}
    (taken : state.reactorStep serverFd input = some after) :
    state.OpensNothing after ∨
      (∃ fd, state.reactor = .accept ∧ input.incoming = some fd ∧ after.conns = state.conns ∧
        after.descriptors =
          Function.update state.descriptors fd (some (.client state.accepted))) ∨
      ∃ fd connection slot, state.reactor = .claimFd fd connection slot ∧
        after.descriptors = state.descriptors ∧
        after.conns = Function.update state.conns slot { state.conns slot with fd := fd } := by
  cases reactorMove_of_step taken with
  | goes | handsOver => exact Or.inl ⟨fun _ => Or.inl rfl, fun _ => rfl⟩
  | @accepts fd at_ incoming => exact Or.inr (Or.inl ⟨fd, at_, incoming, rfl, rfl⟩)
  | @claimsFd fd connection slot at_ =>
      exact Or.inr (Or.inr ⟨fd, connection, slot, at_, rfl, rfl⟩)
  | claimsTime | claimsActive | marks | givesUp => exact Or.inl (opensNothing_setConn rfl rfl rfl)
  | rejects | closes => exact Or.inl (opensNothing_closeFd rfl rfl)

variable [DecidableEq Worker]

theorem opensNothing_taskStep {routes : Dictionary RouteHandler} {arrival : Arrival}
    (taken : state.taskStep routes worker arrival = some after) : state.OpensNothing after := by
  have proceeds : ∀ task place, state.OpensNothing (state.proceed worker task place) :=
    fun _ _ => ⟨fun _ => Or.inl rfl, fun _ => rfl⟩
  rw [ServerState.taskStep] at taken
  split at taken
  case h_2 => cases taken
  case h_1 task place at_ =>
    cases place <;> simp only at taken
    case recv =>
      unfold ServerState.recvStep at taken
      split at taken
      case h_2 =>
        rcases Option.map_eq_some_iff.mp taken with ⟨buffer, -, rfl⟩
        exact opensNothing_setConn rfl rfl rfl
      case h_1 | h_6 => cases taken
      all_goals
        cases taken
        exact proceeds _ _
    case advance =>
      rcases Option.map_eq_some_iff.mp taken with ⟨buffer, -, rfl⟩
      exact opensNothing_setConn rfl rfl rfl
    case terminate | resetLength | clearBuffer | stamp | release | deactivate =>
      cases taken
      exact opensNothing_setConn rfl rfl rfl
    case frame | construct | handle | checkActive =>
      cases taken
      exact ⟨fun _ => Or.inl rfl, fun _ => rfl⟩
    case close =>
      cases taken
      exact opensNothing_closeFd rfl rfl
    case done => cases taken

end ServerState

namespace DescriptorState

variable {Worker : Type} [DecidableEq Worker] {state after : DescriptorState Worker}
  {startup : Startup} {routes : Routes} {worker : Worker} {held : Option ℕ}
  {fd : ℕ}

/-! ## The files of the handlers -/

theorem handlerReturned_cases {routes : Dictionary RouteHandler}
    (taken : state.handlerReturned routes worker = some after) :
    ∃ arrival server, state.handlers worker = some ⟨arrival, []⟩ ∧
      state.server.taskStep routes worker arrival = some server ∧
      after = { state with server, handlers := Function.update state.handlers worker none } := by
  unfold handlerReturned at taken
  split at taken
  case h_2 => cases taken
  case h_1 arrival at_ =>
    rcases Option.map_eq_some_iff.mp taken with ⟨server, returned, rfl⟩
    exact ⟨arrival, server, at_, returned, rfl⟩

theorem callHandler_cases {routes : Dictionary RouteHandler} {arrival : Arrival}
    (taken : state.callHandler routes worker arrival = some after) :
    ∃ task text, state.server.pool.workers worker = .work (some task) (.handle text) ∧
      state.handlers worker = none ∧
      after =
        { state with
          handlers := Function.update state.handlers worker
            (some ⟨arrival, dispatch routes arrival.env (httpRequestConstructor text)⟩) } := by
  unfold callHandler at taken
  split at taken
  case h_2 => cases taken
  case h_1 task text at_ idle =>
    cases taken
    exact ⟨task, text, at_, idle, rfl⟩

theorem act_server (taken : state.act startup worker = some after) :
    after.server = state.server := by
  unfold act at taken
  split at taken
  case h_2 => cases taken
  case h_1 =>
    simp only at taken
    split at taken
    case h_3 =>
      cases taken
      rfl
    all_goals
      split_ifs at taken
      cases taken
      rfl

/-- The server in a process is the server. -/
theorem server_reachable {routes : Dictionary RouteHandler}
    (reached : (descriptorSystem Worker routes startup).Reachable state) :
    (serverSystem Worker routes startup.serverFd).Reachable state.server := by
  refine Transition.System.Reachable.project (fun state => state.server) ?_ ?_ reached
  · rintro state ⟨count, bound, rfl⟩
    exact ⟨count, bound, rfl⟩
  · intro state label after taken
    cases label with
    | server label =>
        simp only [descriptorSystem] at taken
        split_ifs at taken
        rcases Option.map_eq_some_iff.mp taken with ⟨server, moved, rfl⟩
        exact Or.inr ⟨label, moved⟩
    | callHandler worker arrival =>
        rcases callHandler_cases taken with ⟨-, -, -, -, rfl⟩
        exact Or.inl rfl
    | act worker => exact Or.inl (act_server taken)
    | handlerReturned worker =>
        rcases handlerReturned_cases taken with ⟨arrival, server, -, returned, rfl⟩
        exact Or.inr ⟨.task worker arrival, returned⟩

/-- What a handler has yet to do. -/
def rest (state : DescriptorState Worker) (worker : Worker) : List Action :=
  (state.handlers worker).elim [] HandlerRun.rest

/-- The worker has this file open and no other, and will close it. -/
structure Holds (state : DescriptorState Worker) (worker : Worker) (held : Option ℕ) : Prop where
  files : ∀ fd, state.files fd = some worker ↔ held = some fd
  givesBack : GivesBack held (state.rest worker)

/-- The invariant of the handlers and their files. -/
structure Tidy (state : DescriptorState Worker) : Prop where
  handles : ∀ worker, (state.handlers worker).isSome →
    (state.server.pool.workers worker).handles
  holds : ∀ worker, ∃ held, state.Holds worker held

omit [DecidableEq Worker] in
theorem Holds.of_same (holds : state.Holds worker held)
    (files : ∀ fd, after.files fd = some worker ↔ state.files fd = some worker)
    (handlers : after.handlers worker = state.handlers worker) : after.Holds worker held := by
  refine ⟨fun fd => (files fd).trans (holds.files fd), ?_⟩
  rw [rest, handlers]
  exact holds.givesBack

omit [DecidableEq Worker] in
/-- A worker that is in no handler has no file open. -/
theorem Holds.nothing (holds : state.Holds worker held) (idle : state.rest worker = []) :
    held = none := by
  have givesBack := holds.givesBack
  rwa [idle] at givesBack

/-- A step of a worker in its handler, or into it or out of it. -/
theorem Tidy.update (tidy : state.Tidy) {run : Option HandlerRun}
    (handlers : after.handlers = Function.update state.handlers worker run)
    (places : ∀ other, other ≠ worker →
      after.server.pool.workers other = state.server.pool.workers other)
    (handles : run.isSome → (after.server.pool.workers worker).handles)
    (files : ∀ other fd, other ≠ worker →
      (after.files fd = some other ↔ state.files fd = some other))
    (own : ∀ fd, after.files fd = some worker ↔ held = some fd)
    (givesBack : GivesBack held (run.elim [] HandlerRun.rest)) : after.Tidy := by
  refine ⟨?_, ?_⟩
  · intro other isSome
    rw [handlers] at isSome
    by_cases same : other = worker
    · rw [same, Function.update_self] at isSome
      rw [same]
      exact handles isSome
    · rw [Function.update_of_ne same] at isSome
      rw [places other same]
      exact tidy.handles other isSome
  · intro other
    by_cases same : other = worker
    · subst same
      refine ⟨held, own, ?_⟩
      rw [rest, handlers, Function.update_self]
      exact givesBack
    · rcases tidy.holds other with ⟨otherHeld, holds⟩
      refine ⟨otherHeld, holds.of_same (fun fd => files other fd same) ?_⟩
      rw [handlers, Function.update_of_ne same]

theorem Tidy.callHandler (tidy : state.Tidy) {arrival : Arrival}
    (taken : state.callHandler routes.dictionary worker arrival = some after) : after.Tidy := by
  rcases callHandler_cases taken with ⟨task, text, at_, idle, rfl⟩
  rcases tidy.holds worker with ⟨held, holds⟩
  have nothing := holds.nothing (by rw [rest, idle]; rfl)
  refine tidy.update rfl (fun _ _ => rfl) ?_ (fun _ _ _ => Iff.rfl) holds.files ?_
  · intro _
    rw [at_]
    rfl
  · rw [nothing]
    exact givesBack_dispatch routes arrival.env _

theorem Tidy.handlerReturned (tidy : state.Tidy) {routes : Dictionary RouteHandler}
    (taken : state.handlerReturned routes worker = some after) : after.Tidy := by
  rcases handlerReturned_cases taken with ⟨arrival, server, returns, returned, rfl⟩
  rcases ServerState.taskStep_pool returned with ⟨_, _, _, -, pool⟩
  rcases tidy.holds worker with ⟨held, holds⟩
  have nothing := holds.nothing (by rw [rest, returns]; rfl)
  refine tidy.update rfl ?_ nofun (fun _ _ _ => Iff.rfl) holds.files ?_
  · intro other differs
    rw [pool, ThreadPool.workers_moveWorker, Function.update_of_ne differs]
  · rw [nothing]
    rfl

variable [Fintype Worker]

/-- A worker in a handler stays there while the server takes its steps. -/
theorem Tidy.server (tidy : state.Tidy) {routes : Dictionary RouteHandler}
    (delivers : state.server.pool.Delivers) (sound : state.server.pool.LockSound)
    {label : ServerLabel Worker} {server : ServerState Worker}
    (allowed : state.Allows startup label)
    (taken : (serverSystem Worker routes startup.serverFd).step label state.server = some server) :
    Tidy { state with server } := by
  refine ⟨?_, fun worker => ?_⟩
  · intro worker isSome
    have handles := tidy.handles worker isSome
    rcases WorkerPlace.handles_iff.mp handles with ⟨task, text, at_⟩
    rcases ServerState.work_of_step delivers sound at_ (by simp) taken with ⟨arrival, rfl⟩ | same
    · rw [Allows, handles] at allowed
      cases allowed
    · rw [same]
      rfl
  · rcases tidy.holds worker with ⟨held, holds⟩
    exact ⟨held, holds.files, holds.givesBack⟩

omit [Fintype Worker] in
theorem Tidy.act (tidy : state.Tidy) (taken : state.act startup worker = some after) :
    after.Tidy := by
  rcases tidy.holds worker with ⟨held, holds⟩
  unfold DescriptorState.act at taken
  split at taken
  case h_2 => cases taken
  case h_1 arrival action remaining at_ =>
    have isRest : state.rest worker = action :: remaining := by
      rw [rest, at_]
      rfl
    have givesBack := holds.givesBack
    rw [isRest] at givesBack
    have handles := tidy.handles worker (by rw [at_]; rfl)
    simp only at taken
    split at taken
    case h_1 path fd =>
      split_ifs at taken with lowest
      cases taken
      have unused : state.files fd = none :=
        Option.not_isSome_iff_eq_none.mp fun isSome =>
          lowest.1 (Or.inr (Or.inr (Or.inr isSome)))
      refine tidy.update rfl (fun _ _ => rfl) (fun _ => handles) ?_ ?_ givesBack.2
      · intro other otherFd differs
        by_cases same : otherFd = fd
        · simp [same, unused, Ne.symm differs]
        · simp [same]
      · intro otherFd
        have nothing := holds.files otherFd
        rw [givesBack.1] at nothing
        by_cases same : otherFd = fd
        · simp [same]
        · simp [same, Ne.symm same, nothing]
    case h_2 fd =>
      split_ifs at taken with own
      cases taken
      refine tidy.update rfl (fun _ _ => rfl) (fun _ => handles) ?_ ?_ givesBack.2
      · intro other otherFd differs
        by_cases same : otherFd = fd
        · simp [same, own, Ne.symm differs]
        · simp [same]
      · intro otherFd
        have only := holds.files otherFd
        rw [givesBack.1] at only
        by_cases same : otherFd = fd
        · simp [same]
        · simp [same, Ne.symm same, only]
    case h_3 notOpened notClosed =>
      cases taken
      refine tidy.update rfl (fun _ _ => rfl) (fun _ => handles) (fun _ _ _ => Iff.rfl)
        holds.files ?_
      cases action with
      | openFile path opened =>
          cases opened with
          | none => exact givesBack.1 ▸ givesBack.2
          | some fd => exact absurd rfl (notOpened path fd)
      | closeFile fd => exact absurd rfl (notClosed fd)
      | sendHead | sendBody | sendFile | mkdir | write | printf | logRequest => exact givesBack

theorem tidy_of_reachable
    (reached : (descriptorSystem Worker routes.dictionary startup).Reachable state) :
    state.Tidy := by
  refine @Transition.System.ReachableWhere.invariant _ _ _ _
    (fun state => state.server.pool.Delivers ∧ state.server.pool.LockSound)
    (fun state => state.Tidy) ?_ ?_ ?_ state reached
  · intro state reached
    have pool := ServerState.pool_reachable (server_reachable reached)
    exact ⟨ThreadPool.delivers_of_reachable pool, ThreadPool.lockSound_of_reachable pool⟩
  · rintro state ⟨count, -, rfl⟩
    exact ⟨nofun, fun worker => ⟨none, fun _ => ⟨nofun, nofun⟩, rfl⟩⟩
  · rintro state label after ⟨delivers, sound⟩ tidy - taken
    cases label with
    | server label =>
        simp only [descriptorSystem] at taken
        split_ifs at taken with allowed
        rcases Option.map_eq_some_iff.mp taken with ⟨server, moved, rfl⟩
        exact tidy.server delivers sound allowed moved
    | callHandler worker arrival => exact tidy.callHandler taken
    | act worker => exact tidy.act taken
    | handlerReturned worker => exact tidy.handlerReturned taken

/-! ## Counting -/

omit [Fintype Worker] [DecidableEq Worker] in
theorem Tidy.worker_of_file (tidy : state.Tidy) {fd : ℕ} (opened : state.files fd = some worker) :
    ∃ task text, state.server.pool.workers worker = .work (some task) (.handle text) := by
  rcases tidy.holds worker with ⟨held, holds⟩
  have held_ := (holds.files fd).mp opened
  apply WorkerPlace.handles_iff.mp
  apply tidy.handles worker
  by_contra idle
  have nothing := holds.nothing (by rw [rest, Option.not_isSome_iff_eq_none.mp idle]; rfl)
  rw [nothing] at held_
  cases held_

/-- The workers of one slot have one file open between them. -/
theorem Tidy.file_unique (tidy : state.Tidy) {serverFd : ℕ} (owned : state.server.Owned serverFd)
    {fd otherFd : ℕ} {other : Worker} {task otherTask : ClientTask} {text otherText : Bytes}
    (opened : state.files fd = some worker) (otherOpened : state.files otherFd = some other)
    (at_ : state.server.pool.workers worker = .work (some task) (.handle text))
    (otherAt : state.server.pool.workers other = .work (some otherTask) (.handle otherText))
    (sameSlot : otherTask.conn = task.conn) : otherFd = fd := by
  have hand := ServerState.inHand_of_work at_ (by simp)
  have otherHand := ServerState.inHand_of_work otherAt (by simp)
  have same := (owned.handsOn hand).unique hand otherHand sameSlot
  rw [same] at otherOpened
  rcases tidy.holds worker with ⟨held, holds⟩
  have isHeld := (holds.files fd).mp opened
  rw [(holds.files otherFd).mp otherOpened, Option.some.injEq] at isHeld
  exact isHeld

theorem Tidy.exists_fileOf (tidy : state.Tidy) {serverFd : ℕ}
    (owned : state.server.Owned serverFd) :
    ∃ fileOf : Slot → ℕ, ∀ fd, (state.files fd).isSome → ∃ slot, fileOf slot = fd := by
  have ofSlot : ∀ slot : Slot, ∃ file, ∀ fd worker task text, state.files fd = some worker →
      state.server.pool.workers worker = .work (some task) (.handle text) → task.conn = slot →
        file = fd := by
    intro slot
    by_cases used : ∃ fd worker task text, state.files fd = some worker ∧
        state.server.pool.workers worker = .work (some task) (.handle text) ∧ task.conn = slot
    · rcases used with ⟨fd, worker, task, text, opened, at_, isSlot⟩
      refine ⟨fd, ?_⟩
      intro otherFd other otherTask otherText otherOpened otherAt otherSlot
      exact (tidy.file_unique owned opened otherOpened at_ otherAt
        (otherSlot.trans isSlot.symm)).symm
    · refine ⟨0, ?_⟩
      intro fd worker task text opened at_ isSlot
      exact absurd ⟨fd, worker, task, text, opened, at_, isSlot⟩ used
  choose fileOf unique using ofSlot
  refine ⟨fileOf, ?_⟩
  intro fd isSome
  rcases Option.isSome_iff_exists.mp isSome with ⟨worker, opened⟩
  rcases tidy.worker_of_file opened with ⟨task, text, at_⟩
  exact ⟨task.conn, unique task.conn fd worker task text opened at_ rfl⟩

/-- All descriptors: what was there, the log, the socket, a newcomer and two for each slot. -/
theorem Tidy.exists_table (tidy : state.Tidy) (owned : state.server.Owned startup.serverFd)
    (accounted : state.server.Accounted startup.serverFd) :
    ∃ table : Finset ℕ, (∀ fd, state.IsOpen startup fd → fd ∈ table) ∧
      table.card ≤ 500 + 2 + 2 * maxConns + 1 := by
  rcases tidy.exists_fileOf owned with ⟨fileOf, isFile⟩
  let newcomer := (state.server.reactor.knows.arrival.map Prod.fst).getD startup.serverFd
  let clientOf (slot : Slot) := (state.server.conns slot).fd
  let few : Finset ℕ := {startup.logFd, startup.serverFd, newcomer}
  refine ⟨startup.inherited ∪ few ∪ (Finset.univ.image clientOf ∪ Finset.univ.image fileOf),
    ?_, ?_⟩
  · have placed : ∀ fd, (state.server.descriptors fd).isSome →
        fd ∈ few ∨ fd ∈ Finset.univ.image clientOf := by
      intro fd isSome
      rcases Option.isSome_iff_exists.mp isSome with ⟨descriptor, named⟩
      cases descriptor with
      | listener => exact Or.inl (by simp [few, accounted.listener fd named])
      | client connection =>
          rcases accounted.placed fd connection named with arrived | ⟨slot, occupied⟩
          · exact Or.inl (by simp [few, newcomer, arrived])
          · exact Or.inr (Finset.mem_image.mpr ⟨slot, Finset.mem_univ slot, occupied.fd⟩)
    rintro fd (inherited | isLog | client | file)
    · simp [inherited]
    · simp [isLog, few]
    · rcases placed fd client with member | member <;> simp [member]
    · rcases isFile fd file with ⟨slot, rfl⟩
      simp
  · have three : few.card ≤ 3 := Finset.card_le_three
    have clients : (Finset.univ.image clientOf).card ≤ maxConns :=
      Finset.card_image_le.trans (Finset.card_fin maxConns).le
    have files : (Finset.univ.image fileOf).card ≤ maxConns :=
      Finset.card_image_le.trans (Finset.card_fin maxConns).le
    calc _ ≤ (startup.inherited ∪ few).card +
            (Finset.univ.image clientOf ∪ Finset.univ.image fileOf).card :=
          Finset.card_union_le _ _
      _ ≤ startup.inherited.card + few.card +
            ((Finset.univ.image clientOf).card + (Finset.univ.image fileOf).card) :=
          Nat.add_le_add (Finset.card_union_le _ _) (Finset.card_union_le _ _)
      _ ≤ 500 + 3 + (maxConns + maxConns) :=
          Nat.add_le_add (Nat.add_le_add startup.few three) (Nat.add_le_add clients files)
      _ = 500 + 2 + 2 * maxConns + 1 := by rw [maxConns]

theorem lowest_lt_fdSetSize {isOpen : ℕ → Prop} {fd : ℕ} (lowest : IsLowestUnused isOpen fd)
    (few : ∃ table : Finset ℕ, (∀ fd, isOpen fd → fd ∈ table) ∧
      table.card ≤ 500 + 2 + 2 * maxConns + 1) : fd < fdSetSize := by
  rcases few with ⟨table, covers, card⟩
  have bound := lowest.le_card covers
  rw [maxConns] at card
  rw [fdSetSize]
  omega

/-! ## The numbers of the descriptors -/

/-- What the numbers in the tables of the process are. -/
structure Numbered (state : DescriptorState Worker) (startup : Startup) : Prop where
  clients : ∀ fd connection, state.server.descriptors fd = some (.client connection) →
    fd < fdSetSize
  stored : ∀ slot, (state.server.conns slot).fd < fdSetSize
  files : ∀ fd, (state.files fd).isSome → fd ∉ insert startup.logFd startup.inherited ∧
    state.server.descriptors fd = none
  sockets : ∀ fd, (state.server.descriptors fd).isSome →
    fd ∉ insert startup.logFd startup.inherited

omit [Fintype Worker] [DecidableEq Worker] in
theorem numbered_start (startup : Startup) (count : ℕ) :
    Numbered (⟨serverStart startup.serverFd count, fun _ => none, fun _ => none⟩ :
      DescriptorState Worker) startup where
  clients := by
    intro fd connection named
    simp only [serverStart] at named
    split_ifs at named
    cases named
  stored := fun _ => Nat.zero_lt_succ 1023
  files := nofun
  sockets := by
    intro fd isSome
    simp only [serverStart] at isSome
    split_ifs at isSome with isServer
    · rw [isServer]
      exact startup.serverUnused
    · cases isSome

omit [Fintype Worker] [DecidableEq Worker] in
theorem IsOpen.of_not (unused : ¬state.IsOpen startup fd) :
    fd ∉ insert startup.logFd startup.inherited ∧ state.server.descriptors fd = none ∧
      state.files fd = none := by
  rw [IsOpen, not_or, not_or, not_or] at unused
  rcases unused with ⟨notInherited, notLog, notSocket, notFile⟩
  refine ⟨?_, Option.not_isSome_iff_eq_none.mp notSocket, Option.not_isSome_iff_eq_none.mp notFile⟩
  rw [Finset.mem_insert, not_or]
  exact ⟨notLog, notInherited⟩

omit [Fintype Worker] [DecidableEq Worker] in
/-- A step of the server that opens nothing. -/
theorem Numbered.opensNothing (numbered : state.Numbered startup) {server : ServerState Worker}
    (opensNothing : state.server.OpensNothing server) : Numbered { state with server } startup := by
  have before : ∀ fd descriptor, server.descriptors fd = some descriptor →
      state.server.descriptors fd = some descriptor := by
    intro fd descriptor named
    rcases opensNothing.descriptors fd with same | closed
    · rw [← same, named]
    · rw [closed] at named
      cases named
  refine ⟨?_, ?_, ?_, ?_⟩
  · intro fd connection named
    exact numbered.clients fd connection (before fd _ named)
  · intro slot
    rw [opensNothing.stored]
    exact numbered.stored slot
  · intro fd isFile
    rcases numbered.files fd isFile with ⟨apart, unnamed⟩
    refine ⟨apart, ?_⟩
    rcases opensNothing.descriptors fd with same | closed
    · rw [same, unnamed]
    · exact closed
  · intro fd isSome
    rcases Option.isSome_iff_exists.mp isSome with ⟨descriptor, named⟩
    exact numbered.sockets fd (by rw [before fd descriptor named]; rfl)

omit [Fintype Worker] [DecidableEq Worker] in
theorem Numbered.accept (numbered : state.Numbered startup) {server : ServerState Worker} {fd : ℕ}
    (unused : ¬state.IsOpen startup fd) (low : fd < fdSetSize)
    (conns : server.conns = state.server.conns) {connection : ℕ}
    (descriptors : server.descriptors =
      Function.update state.server.descriptors fd (some (.client connection))) :
    Numbered { state with server } startup := by
  rcases IsOpen.of_not unused with ⟨apart, -, notFile⟩
  refine ⟨?_, ?_, ?_, ?_⟩
  · intro other otherConnection named
    by_cases same : other = fd
    · rwa [same]
    · rw [descriptors, Function.update_of_ne same] at named
      exact numbered.clients other otherConnection named
  · rw [conns]
    exact numbered.stored
  · intro other isFile
    have differs : other ≠ fd := by
      rintro rfl
      simp [notFile] at isFile
    rw [descriptors, Function.update_of_ne differs]
    exact numbered.files other isFile
  · intro other isSome
    by_cases same : other = fd
    · rwa [same]
    · rw [descriptors, Function.update_of_ne same] at isSome
      exact numbered.sockets other isSome

omit [DecidableEq Worker] in
/-- The descriptor a slot is claimed for is that of an open connection. -/
theorem Numbered.claimFd (numbered : state.Numbered startup)
    (owned : state.server.Owned startup.serverFd) {server : ServerState Worker} {slot : Slot}
    {fd connection : ℕ} (at_ : state.server.reactor = .claimFd fd connection slot)
    (descriptors : server.descriptors = state.server.descriptors)
    (conns : server.conns =
      Function.update state.server.conns slot { state.server.conns slot with fd := fd }) :
    Numbered { state with server } startup := by
  have arrived : state.server.reactor.knows.arrival = some (fd, connection) := by
    rw [at_]
    rfl
  have low := numbered.clients fd connection (owned.held_of_arrival arrived).named
  refine ⟨?_, ?_, ?_, ?_⟩
  · rw [descriptors]
    exact numbered.clients
  · intro other
    rw [conns]
    by_cases same : other = slot
    · rwa [same, Function.update_self]
    · rw [Function.update_of_ne same]
      exact numbered.stored other
  · rw [descriptors]
    exact numbered.files
  · rw [descriptors]
    exact numbered.sockets

theorem Numbered.server (numbered : state.Numbered startup) {routes : Dictionary RouteHandler}
    (owned : state.server.Owned startup.serverFd)
    (low : ∀ fd, IsLowestUnused (state.IsOpen startup) fd → fd < fdSetSize)
    {label : ServerLabel Worker} {server : ServerState Worker}
    (allowed : state.Allows startup label)
    (taken : (serverSystem Worker routes startup.serverFd).step label state.server = some server) :
    Numbered { state with server } startup := by
  have ofPool :
      ∀ pool, Numbered { state with server := { state.server with pool := pool } } startup :=
    fun _ => numbered.opensNothing ⟨fun _ => Or.inl rfl, fun _ => rfl⟩
  cases label with
  | reactor input =>
      rcases ServerState.reactorStep_descriptors taken with nothing |
        ⟨fd, at_, incoming, conns, descriptors⟩ | ⟨fd, connection, slot, at_, descriptors, conns⟩
      · exact numbered.opensNothing nothing
      · have lowest := allowed at_
        rw [incoming] at lowest
        exact numbered.accept lowest.1 (low fd lowest) conns descriptors
      · exact numbered.claimFd owned at_ descriptors conns
  | task worker arrival => exact numbered.opensNothing (ServerState.opensNothing_taskStep taken)
  | finishWork worker =>
      rcases ServerState.finishWork_cases taken with ⟨-, rfl⟩
      exact ofPool _
  | worker worker =>
      rcases Option.map_eq_some_iff.mp taken with ⟨pool, -, rfl⟩
      exact ofPool pool
  | interrupt worker =>
      rcases Option.map_eq_some_iff.mp taken with ⟨pool, -, rfl⟩
      exact ofPool pool
  | addWork newNode =>
      rcases Option.map_eq_some_iff.mp taken with ⟨pool, -, rfl⟩
      exact ofPool pool

omit [Fintype Worker] in
theorem Numbered.act (numbered : state.Numbered startup)
    (taken : state.act startup worker = some after) : after.Numbered startup := by
  unfold DescriptorState.act at taken
  split at taken
  case h_2 => cases taken
  case h_1 at_ =>
    simp only at taken
    split at taken
    case h_1 path fd =>
      split_ifs at taken with lowest
      cases taken
      rcases IsOpen.of_not lowest.1 with ⟨apart, notSocket, -⟩
      refine ⟨numbered.clients, numbered.stored, ?_, numbered.sockets⟩
      intro other isFile
      by_cases same : other = fd
      · rw [same]
        exact ⟨apart, notSocket⟩
      · exact numbered.files other (by simpa [same] using isFile)
    case h_2 fd =>
      split_ifs at taken
      cases taken
      refine ⟨numbered.clients, numbered.stored, ?_, numbered.sockets⟩
      intro other isFile
      apply numbered.files other
      by_cases same : other = fd
      · simp [same] at isFile
      · simpa [same] using isFile
    case h_3 =>
      cases taken
      exact ⟨numbered.clients, numbered.stored, numbered.files, numbered.sockets⟩

theorem numbered_of_reachable
    (reached : (descriptorSystem Worker routes.dictionary startup).Reachable state) :
    state.Numbered startup := by
  refine @Transition.System.ReachableWhere.invariant _ _ _ _
    (fun state => state.Tidy ∧ state.server.Owned startup.serverFd ∧
      state.server.Accounted startup.serverFd)
    (fun state => state.Numbered startup) ?_ ?_ ?_ state reached
  · intro state reached
    have server := server_reachable reached
    exact ⟨tidy_of_reachable reached, ServerState.owned_of_reachable server,
      ServerState.accounted_of_reachable server⟩
  · rintro state ⟨count, -, rfl⟩
    exact numbered_start startup count
  · rintro state label after ⟨tidy, owned, accounted⟩ numbered - taken
    cases label with
    | server label =>
        simp only [descriptorSystem] at taken
        split_ifs at taken with allowed
        rcases Option.map_eq_some_iff.mp taken with ⟨server, moved, rfl⟩
        apply numbered.server owned _ allowed moved
        intro fd lowest
        exact lowest_lt_fdSetSize lowest (tidy.exists_table owned accounted)
    | callHandler worker arrival =>
        rcases callHandler_cases taken with ⟨-, -, -, -, rfl⟩
        exact ⟨numbered.clients, numbered.stored, numbered.files, numbered.sockets⟩
    | act worker => exact numbered.act taken
    | handlerReturned worker =>
        rcases handlerReturned_cases taken with ⟨arrival, server, -, returned, rfl⟩
        have after := numbered.opensNothing (ServerState.opensNothing_taskStep returned)
        exact ⟨after.clients, after.stored, after.files, after.sockets⟩

/-! ## The bound -/

/-- What holds of the descriptors of the process in a state. -/
structure Bounded (state : DescriptorState Worker) (startup : Startup) : Prop where
  few : {fd | state.IsOpen startup fd}.encard ≤ 500 + 2 + 2 * maxConns + 1
  /-- The arguments of `FD_SET` and `FD_ISSET`, the listening socket apart. -/
  stored : ∀ slot, (state.server.conns slot).fd < fdSetSize
  listener : IsLowestUnused (· ∈ insert startup.logFd startup.inherited) startup.serverFd →
    startup.serverFd < fdSetSize
  accepts : ∀ fd, IsLowestUnused (state.IsOpen startup) fd → fd < fdSetSize
  /-- What a handler closes is its file, and nothing else has that number. -/
  ownFile : ∀ worker arrival fd rest,
    state.handlers worker = some ⟨arrival, .closeFile fd :: rest⟩ →
    state.files fd = some worker ∧ state.server.descriptors fd = none ∧
      fd ∉ insert startup.logFd startup.inherited

omit [Fintype Worker] [DecidableEq Worker] in
theorem Tidy.ownFile (tidy : state.Tidy) {arrival : Arrival} {remaining : List Action}
    (closes : state.handlers worker = some ⟨arrival, .closeFile fd :: remaining⟩) :
    state.files fd = some worker := by
  rcases tidy.holds worker with ⟨held, holds⟩
  have givesBack := holds.givesBack
  rw [rest, closes] at givesBack
  exact (holds.files fd).mpr givesBack.1

theorem serverFd_lt_fdSetSize (startup : Startup)
    (lowest : IsLowestUnused (· ∈ insert startup.logFd startup.inherited) startup.serverFd) :
    startup.serverFd < fdSetSize := by
  have bound := lowest.le_card fun _ member => member
  have card := Finset.card_insert_le startup.logFd startup.inherited
  have few := startup.few
  rw [fdSetSize]
  omega

/--
Whatever the number of workers, in every reachable state the descriptors are few
enough for those of the clients to fit an `fd_set`.
-/
theorem descriptors_bounded
    (reached : (descriptorSystem Worker routes.dictionary startup).Reachable state) :
    state.Bounded startup := by
  have server := server_reachable reached
  have tidy := tidy_of_reachable reached
  have numbered := numbered_of_reachable reached
  have table := tidy.exists_table (ServerState.owned_of_reachable server)
    (ServerState.accounted_of_reachable server)
  refine ⟨?_, numbered.stored, serverFd_lt_fdSetSize startup, ?_, ?_⟩
  · rcases table with ⟨table, covers, card⟩
    calc {fd | state.IsOpen startup fd}.encard ≤ (table : Set ℕ).encard :=
          Set.encard_le_encard fun fd isOpen => covers fd isOpen
      _ = table.card := Set.encard_coe_eq_coe_finsetCard table
      _ ≤ 500 + 2 + 2 * maxConns + 1 := by exact_mod_cast card
  · exact fun fd lowest => lowest_lt_fdSetSize lowest table
  · intro worker arrival fd rest closes
    have own := tidy.ownFile closes
    have apart := numbered.files fd (by rw [own]; rfl)
    exact ⟨own, apart.2, apart.1⟩

/-- A process started with standard error closed and one more descriptor left open. -/
def inheriting : Startup where
  inherited := {0, 1, 4}
  few := by decide
  logFd := 2
  logUnused := by decide
  serverFd := 3
  serverUnused := by decide

/-- The calls of a handler to which `open` returns 6. -/
def opening : Arrival where
  result := .failed
  env := { idle with openFile := fun _ => some 6 }
  now := 0

def emptyPost : Bytes := bytes "POST /a HTTP/1.1\r\nContent-Length: 0\r\n\r\n"

/-- A worker serves a first connection up to the `open` of its handler. -/
def openingRun : List (DescriptorLabel Unit) :=
  ServerState.claimRun.map .server ++
    List.replicate 5 (.server (.task () ⟨.received emptyPost, idle, 0⟩)) ++
    [.callHandler () opening] ++ List.replicate 3 (.act ())

theorem openingRun_bounded :
    ∃ state, (descriptorSystem Unit Routes.ofMain.dictionary inheriting).run openingRun
        ⟨serverStart 3 0, fun _ => none, fun _ => none⟩ = some state ∧
      state.files 6 = some () ∧ state.server.descriptors 5 = some (.client 0) ∧
      state.Bounded inheriting := by
  have initially : (descriptorSystem Unit Routes.ofMain.dictionary inheriting).initial
      ⟨serverStart 3 0, fun _ => none, fun _ => none⟩ := ⟨0, by decide, rfl⟩
  have evaluated : ((descriptorSystem Unit Routes.ofMain.dictionary inheriting).run openingRun
      ⟨serverStart 3 0, fun _ => none, fun _ => none⟩).map
      (fun state => (state.files 6, state.server.descriptors 5)) =
      some (some (), some (.client 0)) := by decide +kernel
  rcases Option.map_eq_some_iff.mp evaluated with ⟨state, ran, values⟩
  exact ⟨state, ran, congrArg Prod.fst values, congrArg Prod.snd values,
    descriptors_bounded (Transition.System.Reachable.run (.start initially) ran)⟩

end DescriptorState

end LetUsConnect
