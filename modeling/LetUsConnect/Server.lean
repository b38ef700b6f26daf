import LetUsConnect.Connection
import LetUsConnect.Network.ThreadPool

/-!
# The server

`network_run_server` with `check_keepalive_timeouts`, run by one thread, the
reactor, and the workers of a pool of static size that run `_thread_task` on the
slots of `client_conns`. Each access to what the threads share is a step of its
own. The buffer of a slot, which only the worker of its task touches, is read as
a whole.

A connection is known by the number of its `accept`; a slot, a task and a
descriptor each record the connection they stand for. Descriptors that are opened
and closed within a handler are left out, so `accept` may return any number that
names neither a client nor the listening socket.
-/

namespace LetUsConnect

open CString

def maxConns : ℕ := 256

instance : NeZero maxConns := ⟨by decide⟩

/-- An index of `client_conns`. -/
abbrev Slot := Fin maxConns

/-- The slot a loop over `client_conns` looks at; `none` at its end. -/
def slotAt (index : ℕ) : Option Slot :=
  if inside : index < maxConns then some ⟨index, inside⟩ else none

/-- What a descriptor names. -/
inductive Descriptor where
  | listener
  | client (connection : ℕ)
  deriving DecidableEq

/-- `struct ClientTask`; all tasks share the routes. -/
structure ClientTask where
  clientFd : ℕ
  conn : Slot
  connection : ℕ
  deriving DecidableEq

/-! ## Places in the program -/

/-- The places of a worker between taking a task and being done with it. -/
inductive TaskPlace where
  | recv
  | advance (bytesRead : ℕ)
  | terminate
  | frame
  | construct
  | handle (text : Bytes)
  | resetLength (keepAlive : Bool)
  | clearBuffer (keepAlive : Bool)
  | checkActive (keepAlive : Bool)
  | stamp
  | release
  | close
  | deactivate
  | done
  deriving DecidableEq

instance : Inhabited TaskPlace := ⟨.recv⟩

/-- The places of the reactor. -/
inductive ReactorPlace where
  | loopStart
  -- The first loop over the slots.
  | scan (index : ℕ)
  | scanBusy (slot : Slot)
  | scanSet (slot : Slot)
  | select
  -- The loop that accepts.
  | accept
  | claim (fd connection index : ℕ)
  | claimFd (fd connection : ℕ) (slot : Slot)
  | claimTime (fd connection : ℕ) (slot : Slot)
  | claimActive (fd connection : ℕ) (slot : Slot)
  | claimBusy (fd connection : ℕ) (slot : Slot)
  | reject (fd connection : ℕ)
  | prepare (fd connection : ℕ) (slot : Slot)
  | submit (fd connection : ℕ) (slot : Slot)
  | giveUp (fd connection : ℕ) (slot : Slot)
  | giveUpSlot (slot : Slot)
  -- The loop that hands over ready connections.
  | ready (index : ℕ)
  | readyBusy (slot : Slot)
  | readyIsSet (slot : Slot)
  | readyMark (slot : Slot)
  | readyPrepare (slot : Slot)
  | readySubmit (slot : Slot)
  | readyGiveUp (slot : Slot)
  | readyGiveUpSlot (slot : Slot)
  -- `check_keepalive_timeouts`.
  | timeouts
  | timeout (now : ℤ) (index : ℕ)
  | timeoutBusy (now : ℤ) (slot : Slot)
  | timeoutAge (now : ℤ) (slot : Slot)
  | timeoutClose (now : ℤ) (slot : Slot)
  | timeoutSlot (now : ℤ) (slot : Slot)
  | stopped
  deriving DecidableEq

/-! ## The state -/

structure ServerState (Worker : Type) where
  conns : Slot → ClientConnection
  readFds : Finset ℕ
  reactor : ReactorPlace
  pool : ThreadPool ClientTask TaskPlace Worker Unit
  descriptors : ℕ → Option Descriptor
  /-- The number of connections accepted so far. -/
  accepted : ℕ
  /-- The connection a slot was last claimed for. -/
  occupant : Slot → ℕ
  /-- How often `close` was called for a connection. -/
  closes : ℕ → ℕ
  /-- What `recv` has returned from a connection. -/
  heard : ℕ → List Bytes
  /-- The texts passed to `http_request_constructor` for a connection. -/
  dispatched : ℕ → List Bytes
  /-- What was done to answer a connection. -/
  answered : ℕ → List Action

/-- The part of a step of the reactor that comes from outside the program. -/
structure ReactorInput where
  /-- The descriptors `select` leaves in the set; `none` is an error other than `EINTR`. -/
  ready : Option (Finset ℕ)
  /-- What `accept` returns; `none` is -1. -/
  incoming : Option ℕ
  /-- What `time(NULL)` returns. -/
  now : ℤ
  /-- Whether `malloc` succeeds. -/
  allocated : Bool

namespace ServerState

variable {Worker : Type}

def setConn (state : ServerState Worker) (slot : Slot) (conn : ClientConnection) :
    ServerState Worker :=
  { state with conns := Function.update state.conns slot conn }

def goto (state : ServerState Worker) (place : ReactorPlace) : ServerState Worker :=
  { state with reactor := place }

/-- `close(fd)`, called for a connection. -/
def closeFd (state : ServerState Worker) (fd connection : ℕ) : ServerState Worker :=
  { state with
    descriptors := Function.update state.descriptors fd none
    closes := Function.update state.closes connection (state.closes connection + 1) }

/-- A loop over the slots goes on with the next slot that is in use. -/
def visit (state : ServerState Worker) (index : ℕ) (inUse : Slot → ReactorPlace)
    (next finished : ReactorPlace) : ServerState Worker :=
  match slotAt index with
  | none => state.goto finished
  | some slot => if (state.conns slot).isActive then state.goto (inUse slot) else state.goto next

/-- The call `add_work(pl, task)`, when `malloc` gave a task. -/
def handOver (state : ServerState Worker) (task : ClientTask) (submitted : ReactorPlace) :
    Option (ServerState Worker) :=
  (state.pool.addWork () task).map fun pool => { state.goto submitted with pool }

/-- The return of `add_work`. -/
def addWorkReturned (state : ServerState Worker) (succeeded failed : ReactorPlace) :
    Option (ServerState Worker) :=
  match state.pool.adders () with
  | .returned result => some (state.goto (if result ≠ 0 then failed else succeeded))
  | _ => none

/-- One step of `network_run_server`, or of `check_keepalive_timeouts` which it calls. -/
def reactorStep (serverFd : ℕ) (input : ReactorInput) (state : ServerState Worker) :
    Option (ServerState Worker) :=
  match state.reactor with
  | .loopStart => some { state.goto (.scan 0) with readFds := {serverFd} }
  | .scan index => some (state.visit index .scanBusy (.scan (index + 1)) .select)
  | .scanBusy slot =>
      some (state.goto (if (state.conns slot).isBusy then .scan (slot + 1) else .scanSet slot))
  | .scanSet slot =>
      some
        { state.goto (.scan (slot + 1)) with
          readFds := insert (state.conns slot).fd state.readFds }
  | .select =>
      match input.ready with
      | none => some (state.goto .stopped)
      | some ready =>
          if ready ⊆ state.readFds then
            some
              { state.goto (if serverFd ∈ ready then .accept else .ready 0) with readFds := ready }
          else none
  | .accept =>
      match input.incoming with
      | none => some (state.goto (.ready 0))
      | some fd =>
          if state.descriptors fd = none then
            some
              { state.goto (.claim fd state.accepted 0) with
                descriptors := Function.update state.descriptors fd (some (.client state.accepted))
                accepted := state.accepted + 1 }
          else none
  | .claim fd connection index =>
      match slotAt index with
      | none => some (state.goto (.reject fd connection))
      | some slot =>
          some (state.goto (if (state.conns slot).isActive then .claim fd connection (index + 1)
            else .claimFd fd connection slot))
  | .claimFd fd connection slot =>
      some
        { (state.setConn slot { state.conns slot with fd := fd }).goto
            (.claimTime fd connection slot) with
          occupant := Function.update state.occupant slot connection }
  | .claimTime fd connection slot =>
      some ((state.setConn slot { state.conns slot with lastActivity := input.now }).goto
        (.claimActive fd connection slot))
  | .claimActive fd connection slot =>
      some ((state.setConn slot { state.conns slot with isActive := true }).goto
        (.claimBusy fd connection slot))
  | .claimBusy fd connection slot =>
      some ((state.setConn slot { state.conns slot with isBusy := true }).goto
        (.prepare fd connection slot))
  | .reject fd connection => some ((state.closeFd fd connection).goto .accept)
  | .prepare fd connection slot =>
      if input.allocated then
        state.handOver ⟨fd, slot, connection⟩ (.submit fd connection slot)
      else some (state.goto (.giveUp fd connection slot))
  | .submit fd connection slot => state.addWorkReturned .accept (.giveUp fd connection slot)
  | .giveUp fd connection slot => some ((state.closeFd fd connection).goto (.giveUpSlot slot))
  | .giveUpSlot slot =>
      some ((state.setConn slot { state.conns slot with isActive := false }).goto .accept)
  | .ready index => some (state.visit index .readyBusy (.ready (index + 1)) .timeouts)
  | .readyBusy slot =>
      some (state.goto (if (state.conns slot).isBusy then .ready (slot + 1) else .readyIsSet slot))
  | .readyIsSet slot =>
      some (state.goto
        (if (state.conns slot).fd ∈ state.readFds then .readyMark slot else .ready (slot + 1)))
  | .readyMark slot =>
      some ((state.setConn slot { state.conns slot with isBusy := true }).goto (.readyPrepare slot))
  | .readyPrepare slot =>
      if input.allocated then
        state.handOver ⟨(state.conns slot).fd, slot, state.occupant slot⟩ (.readySubmit slot)
      else some (state.goto (.readyGiveUp slot))
  | .readySubmit slot => state.addWorkReturned (.ready (slot + 1)) (.readyGiveUp slot)
  | .readyGiveUp slot =>
      some
        ((state.closeFd (state.conns slot).fd (state.occupant slot)).goto (.readyGiveUpSlot slot))
  | .readyGiveUpSlot slot =>
      some ((state.setConn slot { state.conns slot with isActive := false }).goto
        (.ready (slot + 1)))
  | .timeouts => some (state.goto (.timeout input.now 0))
  | .timeout now index =>
      some (state.visit index (.timeoutBusy now) (.timeout now (index + 1)) .loopStart)
  | .timeoutBusy now slot =>
      some (state.goto
        (if (state.conns slot).isBusy then .timeout now (slot + 1) else .timeoutAge now slot))
  | .timeoutAge now slot =>
      some (state.goto
        (if now - (state.conns slot).lastActivity ≥ 10 then .timeoutClose now slot
        else .timeout now (slot + 1)))
  | .timeoutClose now slot =>
      some
        ((state.closeFd (state.conns slot).fd (state.occupant slot)).goto (.timeoutSlot now slot))
  | .timeoutSlot now slot =>
      some ((state.setConn slot { state.conns slot with isActive := false }).goto
        (.timeout now (slot + 1)))
  | .stopped => none

variable [DecidableEq Worker]

/-- The worker of a task goes on to another place of its work. -/
def proceed (state : ServerState Worker) (worker : Worker) (task : ClientTask)
    (place : TaskPlace) : ServerState Worker :=
  { state with pool := state.pool.moveWorker worker (.work (some task) place) }

/-- `recv`: the bytes come from whatever connection the descriptor names. -/
def recvStep (state : ServerState Worker) (worker : Worker) (task : ClientTask)
    (result : RecvResult) : Option (ServerState Worker) :=
  match state.descriptors task.clientFd, result with
  | some (.client _), .received [] => none
  | some (.client connection), .received piece =>
      ((state.conns task.conn).store piece).map fun buffer =>
        { (state.setConn task.conn { state.conns task.conn with toReadBuffer := buffer }).proceed
            worker task (.advance piece.length) with
          heard := Function.update state.heard connection (state.heard connection ++ [piece]) }
  | some (.client _), .wouldBlock => some (state.proceed worker task .release)
  | some (.client _), .ended => some (state.proceed worker task .close)
  | _, .failed => some (state.proceed worker task .close)
  | _, _ => none

/-- One step of the work of a worker on a task. -/
def taskStep (routes : Dictionary RouteHandler) (worker : Worker) (arrival : Arrival)
    (state : ServerState Worker) : Option (ServerState Worker) :=
  match state.pool.workers worker with
  | .work (some task) place =>
      let conn := state.conns task.conn
      match place with
      | .recv => state.recvStep worker task arrival.result
      | .advance bytesRead =>
          (conn.advance bytesRead).map fun buffer =>
            (state.setConn task.conn { conn with toReadBuffer := buffer }).proceed worker task
              .terminate
      | .terminate =>
          some ((state.setConn task.conn { conn with toReadBuffer := conn.terminate }).proceed
            worker task .frame)
      | .frame =>
          some (state.proceed worker task
            (if requestComplete conn.text conn.readLength then .construct else .stamp))
      | .construct =>
          some
            { state.proceed worker task (.handle conn.text) with
              dispatched := Function.update state.dispatched task.connection
                (state.dispatched task.connection ++ [conn.text]) }
      | .handle text =>
          let request := httpRequestConstructor text
          some
            { state.proceed worker task (.resetLength (keepAlive request)) with
              answered := Function.update state.answered task.connection
                (state.answered task.connection ++ dispatch routes arrival.env request) }
      | .resetLength keepAlive =>
          some ((state.setConn task.conn { conn with toReadBuffer := conn.resetLength }).proceed
            worker task (.clearBuffer keepAlive))
      | .clearBuffer keepAlive =>
          some ((state.setConn task.conn { conn with toReadBuffer := conn.clear }).proceed
            worker task (.checkActive keepAlive))
      | .checkActive keepAlive =>
          some (state.proceed worker task (if keepAlive && conn.isActive then .stamp else .close))
      | .stamp =>
          some ((state.setConn task.conn { conn with lastActivity := arrival.now }).proceed
            worker task .release)
      | .release =>
          some ((state.setConn task.conn { conn with isBusy := false }).proceed worker task .done)
      | .close =>
          some ((state.closeFd task.clientFd task.connection).proceed worker task .deactivate)
      | .deactivate =>
          some ((state.setConn task.conn { conn with isActive := false }).proceed worker task .done)
      | .done => none
  | _ => none

/-- A worker leaves its work once it is done, or when its task is `NULL`. -/
def finishWork (worker : Worker) (state : ServerState Worker) : Option (ServerState Worker) :=
  match state.pool.workers worker with
  | .work (some _) .done | .work none _ =>
      (state.pool.finishWork worker).map fun pool => { state with pool }
  | _ => none

end ServerState

/-- A slot as the loader and `network_init` leave it. -/
def unusedConnection : ClientConnection :=
  { ReadBuffer.zero with fd := 0, lastActivity := 0, isBusy := false, isActive := false }

/-- The server when `network_run_server` begins. -/
def serverStart {Worker : Type} (serverFd count : ℕ) : ServerState Worker where
  conns := fun _ => unusedConnection
  readFds := ∅
  reactor := .loopStart
  pool := ThreadPool.threadPoolInit count
  descriptors := fun fd => if fd = serverFd then some .listener else none
  accepted := 0
  occupant := fun _ => 0
  closes := fun _ => 0
  heard := fun _ => []
  dispatched := fun _ => []
  answered := fun _ => []

inductive ServerLabel (Worker : Type) where
  | reactor (input : ReactorInput)
  | task (worker : Worker) (arrival : Arrival)
  | finishWork (worker : Worker)
  | worker (worker : Worker)
  | interrupt (worker : Worker)
  | addWork (newNode : Address)

/-- The server with these routes on a listening socket. -/
def serverSystem (Worker : Type) [DecidableEq Worker] (routes : Dictionary RouteHandler)
    (serverFd : ℕ) : Transition.System (ServerState Worker) (ServerLabel Worker) where
  initial state := ∃ count ≤ semValueMax, state = serverStart serverFd count
  step
    | .reactor input => ServerState.reactorStep serverFd input
    | .task worker arrival => ServerState.taskStep routes worker arrival
    | .finishWork worker => ServerState.finishWork worker
    | .worker worker => fun state =>
        (state.pool.workerStep worker).map fun pool => { state with pool }
    | .interrupt worker => fun state =>
        (state.pool.interrupt worker).map fun pool => { state with pool }
    | .addWork newNode => fun state =>
        (state.pool.adderStep () newNode).map fun pool => { state with pool }

/-! ## The pool of the server -/

namespace ServerState

variable {Worker : Type} {state after : ServerState Worker} {serverFd : ℕ} {worker : Worker}
  {task : ClientTask} {routes : Dictionary RouteHandler}

@[simp]
theorem pool_visit (index : ℕ) (inUse : Slot → ReactorPlace) (next finished : ReactorPlace) :
    (state.visit index inUse next finished).pool = state.pool := by
  rw [ServerState.visit]
  split
  · rfl
  · split_ifs <;> rfl

theorem pool_handOver {place : ReactorPlace} (taken : state.handOver task place = some after) :
    state.pool.addWork () task = some after.pool := by
  rcases Option.map_eq_some_iff.mp taken with ⟨pool, added, rfl⟩
  exact added

theorem pool_addWorkReturned {succeeded failed : ReactorPlace}
    (taken : state.addWorkReturned succeeded failed = some after) : after.pool = state.pool := by
  unfold ServerState.addWorkReturned at taken
  split at taken <;> cases taken
  rfl

theorem reactorStep_pool {input : ReactorInput}
    (taken : state.reactorStep serverFd input = some after) :
    after.pool = state.pool ∨ ∃ task, state.pool.addWork () task = some after.pool := by
  cases at_ : state.reactor <;> simp only [ServerState.reactorStep, at_] at taken
  case scan | ready | timeout =>
    cases taken
    exact Or.inl (pool_visit _ _ _ _)
  case select =>
    split at taken
    · cases taken
      exact Or.inl rfl
    · split_ifs at taken <;> cases taken <;> exact Or.inl rfl
  case accept =>
    split at taken
    · cases taken
      exact Or.inl rfl
    · split_ifs at taken
      cases taken
      exact Or.inl rfl
  case claim => split at taken <;> cases taken <;> exact Or.inl rfl
  case prepare | readyPrepare =>
    split_ifs at taken
    · exact Or.inr ⟨_, pool_handOver taken⟩
    · cases taken
      exact Or.inl rfl
  case submit | readySubmit => exact Or.inl (pool_addWorkReturned taken)
  case stopped => cases taken
  all_goals
    cases taken
    exact Or.inl rfl

variable [DecidableEq Worker]

theorem taskStep_pool {arrival : Arrival}
    (taken : state.taskStep routes worker arrival = some after) :
    ∃ task place placeAfter, state.pool.workers worker = .work (some task) place ∧
      after.pool = state.pool.moveWorker worker (.work (some task) placeAfter) := by
  rw [ServerState.taskStep] at taken
  split at taken
  case h_2 => cases taken
  case h_1 task place at_ =>
    refine ⟨task, place, ?_⟩
    cases place <;> simp only at taken
    case recv =>
      unfold ServerState.recvStep at taken
      split at taken
      case h_2 =>
        rcases Option.map_eq_some_iff.mp taken with ⟨buffer, -, rfl⟩
        exact ⟨_, at_, rfl⟩
      all_goals
        cases taken
        try exact ⟨_, at_, rfl⟩
    case advance =>
      rcases Option.map_eq_some_iff.mp taken with ⟨buffer, -, rfl⟩
      exact ⟨_, at_, rfl⟩
    case done => cases taken
    all_goals
      cases taken
      exact ⟨_, at_, rfl⟩

/-- Every step of the server is a step of its pool or leaves the pool as it is. -/
theorem pool_step {label : ServerLabel Worker}
    (taken : (serverSystem Worker routes serverFd).step label state = some after) :
    after.pool = state.pool ∨
      ∃ move, (poolSystem ClientTask TaskPlace Worker Unit).step move state.pool =
        some after.pool := by
  cases label with
  | reactor input =>
      rcases reactorStep_pool taken with same | ⟨task, added⟩
      · exact Or.inl same
      · exact Or.inr ⟨.addWork () task, added⟩
  | task worker arrival =>
      rcases taskStep_pool taken with ⟨task, place, placeAfter, at_, moved⟩
      refine Or.inr ⟨.proceed worker placeAfter, ?_⟩
      change ThreadPool.proceed worker placeAfter state.pool = some after.pool
      rw [ThreadPool.proceed, at_, moved]
  | finishWork worker =>
      change state.finishWork worker = some after at taken
      unfold ServerState.finishWork at taken
      split at taken
      case h_3 => cases taken
      all_goals
        rcases Option.map_eq_some_iff.mp taken with ⟨pool, finished, rfl⟩
        exact Or.inr ⟨.finishWork worker, finished⟩
  | worker worker =>
      rcases Option.map_eq_some_iff.mp taken with ⟨pool, moved, rfl⟩
      exact Or.inr ⟨.worker worker, moved⟩
  | interrupt worker =>
      rcases Option.map_eq_some_iff.mp taken with ⟨pool, moved, rfl⟩
      exact Or.inr ⟨.interrupt worker, moved⟩
  | addWork newNode =>
      rcases Option.map_eq_some_iff.mp taken with ⟨pool, moved, rfl⟩
      exact Or.inr ⟨.adder () newNode, moved⟩

theorem pool_reachable (reached : (serverSystem Worker routes serverFd).Reachable state) :
    (poolSystem ClientTask TaskPlace Worker Unit).Reachable state.pool := by
  refine Transition.System.Reachable.project (fun state => state.pool) ?_ ?_ reached
  · rintro state ⟨count, bound, rfl⟩
    exact ⟨count, bound, rfl⟩
  · intro state label after taken
    exact pool_step taken

end ServerState

end LetUsConnect
