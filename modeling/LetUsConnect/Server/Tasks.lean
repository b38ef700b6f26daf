import LetUsConnect.Server.ReactorMoves

/-!
# Tasks among other threads

While a worker is at work on a task no other thread touches the slot of the task
or what is recorded of its connection. So whatever the other threads do in
between, the work as a whole is a `threadTask`.
-/

namespace LetUsConnect

open CString Threads

/-! ## How far a task has come -/

/-- What a task works on: its slot and the records of its connection. -/
structure TaskView where
  conn : ClientConnection
  dispatched : List Bytes
  answered : List Action
  closes : ℕ

namespace TaskView

def withBuffer (view : TaskView) (buffer : ReadBuffer) : TaskView :=
  { view with conn := { view.conn with toReadBuffer := buffer } }

def answer (view : TaskView) (routes : Dictionary RouteHandler) (env : Environment)
    (text : Bytes) : TaskView :=
  { view with
    dispatched := view.dispatched ++ [text]
    answered := view.answered ++ dispatch routes env (httpRequestConstructor text) }

/-- A piece that completes a request has been received into the buffer. -/
structure Completes (before : TaskView) (piece : Bytes) (buffer : ReadBuffer) : Prop where
  nonempty : piece ≠ []
  received : before.conn.receive piece = some buffer
  complete : requestComplete buffer.text buffer.readLength

/--
All but the last writes of a `threadTask` are done; `rest` is what they make of
the slot.
-/
structure Ends (before now : TaskView) (outcome : TaskOutcome)
    (rest : ClientConnection → ClientConnection) (closed : Bool) (closes : ℕ) : Prop where
  connection : outcome.connection = rest now.conn
  dispatched : now.dispatched = before.dispatched ++ outcome.dispatched.toList
  answered : now.answered = before.answered ++ outcome.actions
  closed : outcome.closed = closed
  closes : now.closes = before.closes + closes

/-- What a task that found `before` has made of it when it is at a place. -/
def Progress (routes : Dictionary RouteHandler) (before now : TaskView) : TaskPlace → Prop
  | .recv => now = before
  | .advance bytesRead => ∃ piece buffer, piece ≠ [] ∧ bytesRead = piece.length ∧
      before.conn.store piece = some buffer ∧ now = before.withBuffer buffer
  | .terminate => ∃ piece stored buffer, piece ≠ [] ∧ before.conn.store piece = some stored ∧
      stored.advance piece.length = some buffer ∧ now = before.withBuffer buffer
  | .frame => ∃ piece buffer, piece ≠ [] ∧ before.conn.receive piece = some buffer ∧
      now = before.withBuffer buffer
  | .construct => ∃ piece buffer, before.Completes piece buffer ∧ now = before.withBuffer buffer
  | .handle text => ∃ piece buffer, before.Completes piece buffer ∧ text = buffer.text ∧
      now = { before.withBuffer buffer with dispatched := before.dispatched ++ [text] }
  | .resetLength keep => ∃ piece buffer env, before.Completes piece buffer ∧
      keep = keepAlive (httpRequestConstructor buffer.text) ∧
      now = (before.answer routes env buffer.text).withBuffer buffer
  | .clearBuffer keep => ∃ piece buffer env, before.Completes piece buffer ∧
      keep = keepAlive (httpRequestConstructor buffer.text) ∧
      now = (before.answer routes env buffer.text).withBuffer buffer.resetLength
  | .checkActive keep => ∃ piece buffer env, before.Completes piece buffer ∧
      keep = keepAlive (httpRequestConstructor buffer.text) ∧
      now = (before.answer routes env buffer.text).withBuffer buffer.resetLength.clear
  | .stamp => ∃ result env, ∀ time, ∃ outcome,
      threadTask routes env time before.conn result = some outcome ∧
      Ends before now outcome
        (fun conn => { conn with lastActivity := time, isBusy := false }) false 0
  | .release => ∃ result env time outcome,
      threadTask routes env time before.conn result = some outcome ∧
      Ends before now outcome (fun conn => { conn with isBusy := false }) false 0
  | .close => ∃ result env time outcome,
      threadTask routes env time before.conn result = some outcome ∧
      Ends before now outcome (fun conn => { conn with isActive := false }) true 0
  | .deactivate => ∃ result env time outcome,
      threadTask routes env time before.conn result = some outcome ∧
      Ends before now outcome (fun conn => { conn with isActive := false }) true 1
  | .done => ∃ result env time outcome,
      threadTask routes env time before.conn result = some outcome ∧
      Ends before now outcome id outcome.closed outcome.closed.toNat

section Progress

variable {routes : Dictionary RouteHandler} {before now : TaskView} {piece : Bytes}
  {buffer : ReadBuffer}

theorem Completes.threadTask (completes : before.Completes piece buffer) (env : Environment)
    (time : ℤ) : threadTask routes env time before.conn (.received piece) =
      some (answerRequest routes env time before.conn buffer) := by
  cases piece with
  | nil => exact absurd rfl completes.nonempty
  | cons byte piece =>
      rw [LetUsConnect.threadTask, completes.received, Option.map_some, if_pos completes.complete]
      simp

theorem Progress.store (progress : Progress routes before now .recv) (nonempty : piece ≠ [])
    (stored : now.conn.store piece = some buffer) :
    Progress routes before (now.withBuffer buffer) (.advance piece.length) := by
  cases progress
  exact ⟨piece, buffer, nonempty, rfl, stored, rfl⟩

theorem Progress.wouldBlock (progress : Progress routes before now .recv) :
    Progress routes before now .release := by
  cases progress
  exact ⟨.wouldBlock, idle, 0, _, rfl, rfl, (List.append_nil _).symm, (List.append_nil _).symm, rfl,
    rfl⟩

theorem Progress.ended (progress : Progress routes before now .recv) :
    Progress routes before now .close := by
  cases progress
  exact ⟨.ended, idle, 0, _, rfl, rfl, (List.append_nil _).symm, (List.append_nil _).symm, rfl, rfl⟩

theorem Progress.advance {bytesRead : ℕ}
    (progress : Progress routes before now (.advance bytesRead))
    (advanced : now.conn.advance bytesRead = some buffer) :
    Progress routes before (now.withBuffer buffer) .terminate := by
  rcases progress with ⟨piece, stored, nonempty, rfl, isStored, rfl⟩
  exact ⟨piece, stored, buffer, nonempty, isStored, advanced, rfl⟩

theorem Progress.terminate (progress : Progress routes before now .terminate) :
    Progress routes before (now.withBuffer now.conn.terminate) .frame := by
  rcases progress with ⟨piece, stored, buffer, nonempty, isStored, advanced, rfl⟩
  refine ⟨piece, buffer.terminate, nonempty, ?_, rfl⟩
  rw [ReadBuffer.receive, isStored, Option.bind_some, advanced]
  rfl

theorem Progress.frame (progress : Progress routes before now .frame) :
    Progress routes before now
      (if requestComplete now.conn.text now.conn.readLength then .construct else .stamp) := by
  rcases progress with ⟨piece, buffer, nonempty, received, rfl⟩
  change Progress routes before _
    (if requestComplete buffer.text buffer.readLength then .construct else .stamp)
  split_ifs with complete
  · exact ⟨piece, buffer, ⟨nonempty, received, complete⟩, rfl⟩
  · refine ⟨.received piece, idle, fun time => ⟨awaitRest time before.conn buffer, ?_, ?_⟩⟩
    · cases piece with
      | nil => exact absurd rfl nonempty
      | cons byte piece =>
          rw [LetUsConnect.threadTask, received, Option.map_some, if_neg complete]
          simp
    · exact ⟨rfl, (List.append_nil _).symm, (List.append_nil _).symm, rfl, rfl⟩

theorem Progress.construct (progress : Progress routes before now .construct) :
    Progress routes before { now with dispatched := now.dispatched ++ [now.conn.text] }
      (.handle now.conn.text) := by
  rcases progress with ⟨piece, buffer, completes, rfl⟩
  exact ⟨piece, buffer, completes, rfl, rfl⟩

theorem Progress.handle {text : Bytes} (progress : Progress routes before now (.handle text))
    (env : Environment) :
    Progress routes before
      { now with answered := now.answered ++ dispatch routes env (httpRequestConstructor text) }
      (.resetLength (keepAlive (httpRequestConstructor text))) := by
  rcases progress with ⟨piece, buffer, completes, rfl, rfl⟩
  exact ⟨piece, buffer, env, completes, rfl, rfl⟩

theorem Progress.resetLength {keep : Bool}
    (progress : Progress routes before now (.resetLength keep)) :
    Progress routes before (now.withBuffer now.conn.resetLength) (.clearBuffer keep) := by
  rcases progress with ⟨piece, buffer, env, completes, isKeep, rfl⟩
  exact ⟨piece, buffer, env, completes, isKeep, rfl⟩

theorem Progress.clear {keep : Bool} (progress : Progress routes before now (.clearBuffer keep)) :
    Progress routes before (now.withBuffer now.conn.clear) (.checkActive keep) := by
  rcases progress with ⟨piece, buffer, env, completes, isKeep, rfl⟩
  exact ⟨piece, buffer, env, completes, isKeep, rfl⟩

theorem Progress.checkActive {keep : Bool}
    (progress : Progress routes before now (.checkActive keep)) :
    Progress routes before now (if keep && now.conn.isActive then .stamp else .close) := by
  rcases progress with ⟨piece, buffer, env, completes, rfl, rfl⟩
  change Progress routes before _
    (if keepAlive (httpRequestConstructor buffer.text) && before.conn.isActive then .stamp
      else .close)
  split_ifs with kept
  · refine ⟨.received piece, env, fun time => ⟨_, completes.threadTask env time, ?_⟩⟩
    have outcome : answerRequest routes env time before.conn buffer = _ := if_pos kept
    rw [outcome]
    exact ⟨rfl, rfl, rfl, rfl, rfl⟩
  · refine ⟨.received piece, env, 0, _, completes.threadTask env 0, ?_⟩
    have outcome : answerRequest routes env 0 before.conn buffer = _ := if_neg kept
    rw [outcome]
    exact ⟨rfl, rfl, rfl, rfl, rfl⟩

theorem Progress.stamp (progress : Progress routes before now .stamp) (time : ℤ) :
    Progress routes before { now with conn := { now.conn with lastActivity := time } }
      .release := by
  rcases progress with ⟨result, env, ends⟩
  rcases ends time with ⟨outcome, ran, ended⟩
  exact ⟨result, env, time, outcome, ran, ended.connection, ended.dispatched, ended.answered,
    ended.closed, ended.closes⟩

theorem Progress.release (progress : Progress routes before now .release) :
    Progress routes before { now with conn := { now.conn with isBusy := false } } .done := by
  rcases progress with ⟨result, env, time, outcome, ran, ended⟩
  refine ⟨result, env, time, outcome, ran, ended.connection, ended.dispatched, ended.answered, rfl,
    ?_⟩
  rw [ended.closed]
  exact ended.closes

theorem Progress.close (progress : Progress routes before now .close) :
    Progress routes before { now with closes := now.closes + 1 } .deactivate := by
  rcases progress with ⟨result, env, time, outcome, ran, ended⟩
  exact ⟨result, env, time, outcome, ran, ended.connection, ended.dispatched, ended.answered,
    ended.closed, congrArg (· + 1) ended.closes⟩

theorem Progress.deactivate (progress : Progress routes before now .deactivate) :
    Progress routes before { now with conn := { now.conn with isActive := false } } .done := by
  rcases progress with ⟨result, env, time, outcome, ran, ended⟩
  refine ⟨result, env, time, outcome, ran, ended.connection, ended.dispatched, ended.answered, rfl,
    ?_⟩
  rw [ended.closed]
  exact ended.closes

end Progress

end TaskView

/-! ## Steps of the other threads -/

namespace ServerState

variable {Worker : Type} [Fintype Worker] {state after : ServerState Worker}
  {serverFd : ℕ} {slot : Slot} {worker : Worker} {task : ClientTask}

/-- A step that leaves the slot of a task and the records of its connection as they are. -/
structure Spares (state after : ServerState Worker) (task : ClientTask) : Prop where
  conns : after.conns task.conn = state.conns task.conn
  dispatched : after.dispatched task.connection = state.dispatched task.connection
  answered : after.answered task.connection = state.answered task.connection
  closes : after.closes task.connection = state.closes task.connection

theorem HandsOn.ne_subject (handsOn : state.HandsOn task) (owned : state.Owned serverFd)
    (subject : state.reactor.knows.subject = some slot) : task.conn ≠ slot := by
  have knowledge := owned.knowledge
  have unprepared := handsOn.unprepared
  generalize state.reactor.knows = known at subject knowledge unprepared
  rintro rfl
  cases known <;> cases subject
  case idle | expiring =>
    have busy := handsOn.isBusy
    rw [knowledge.2] at busy
    cases busy
  case unclaimed =>
    have active := handsOn.isActive
    rw [knowledge.2] at active
    cases active
  case writing =>
    have active := handsOn.isActive
    rw [knowledge.2.1] at active
    cases active
  case marked | dropping | claiming | claimed =>
    have one : oneFor task.conn task.conn = 0 := unprepared
    rw [oneFor_self] at one
    cases one

omit [Fintype Worker] in
theorem spares_setConn {place : ReactorPlace} {conn : ClientConnection}
    (differs : task.conn ≠ slot) : state.Spares ((state.setConn slot conn).goto place) task :=
  ⟨Function.update_of_ne differs _ _, rfl, rfl, rfl⟩

omit [Fintype Worker] in
theorem spares_closeFd {place : ReactorPlace} {fd connection : ℕ}
    (differs : task.connection ≠ connection) :
    state.Spares ((state.closeFd fd connection).goto place) task :=
  ⟨rfl, rfl, rfl, Function.update_of_ne differs _ _⟩

theorem Owned.connection_ne (owned : state.Owned serverFd) (handsOn : state.HandsOn task)
    (occupied : state.occupant task.conn = task.connection) (differs : task.conn ≠ slot)
    (active : (state.conns slot).isActive) : task.connection ≠ state.occupant slot := by
  rw [← occupied]
  intro same
  exact differs (owned.ledger.distinct task.conn slot handsOn.isActive active same)

theorem Owned.reactorStep_spares (owned : state.Owned serverFd) (handsOn : state.HandsOn task)
    (occupied : state.occupant task.conn = task.connection) {input : ReactorInput}
    (taken : state.reactorStep serverFd input = some after) : state.Spares after task := by
  have apart : ∀ slot, state.reactor.knows.subject = some slot → task.conn ≠ slot :=
    fun _ => handsOn.ne_subject owned
  cases reactorMove_of_step taken with
  | goes | accepts | handsOver => exact ⟨rfl, rfl, rfl, rfl⟩
  | claimsFd at_ =>
      exact ⟨Function.update_of_ne (apart _ (by rw [at_]; rfl)) _ _, rfl, rfl, rfl⟩
  | claimsTime at_ | claimsActive at_ => exact spares_setConn (apart _ (by rw [at_]; rfl))
  | marks subject => exact spares_setConn (apart _ subject)
  | givesUp at_ =>
      apply spares_setConn
      apply apart
      rcases at_ with at_ | at_ | ⟨now, at_⟩ <;> rw [at_] <;> rfl
  | rejects at_ =>
      have knowledge := owned.knowledge
      rw [at_] at knowledge
      apply spares_closeFd
      rw [← occupied]
      exact knowledge.apart task.conn handsOn.isActive
  | closes _ subject holds =>
      rcases owned.occupied_of_closes holds with ⟨active, rfl⟩
      exact spares_closeFd (owned.connection_ne handsOn occupied (apart _ subject) active)

variable {routes : Dictionary RouteHandler}

variable [DecidableEq Worker]

omit [Fintype Worker] in
theorem spares_proceed {other : ClientTask} {place : TaskPlace} :
    state.Spares (state.proceed worker other place) task :=
  ⟨rfl, rfl, rfl, rfl⟩

omit [Fintype Worker] in
theorem spares_update {other : ClientTask} {place : TaskPlace} {conn : ClientConnection}
    (differs : task.conn ≠ slot) :
    state.Spares ((state.setConn slot conn).proceed worker other place) task :=
  ⟨Function.update_of_ne differs _ _, rfl, rfl, rfl⟩

omit [Fintype Worker] in
theorem taskStep_spares {other : ClientTask} {place : TaskPlace} {arrival : Arrival}
    (at_ : state.pool.workers worker = .work (some other) place)
    (otherSlot : task.conn ≠ other.conn) (otherConnection : task.connection ≠ other.connection)
    (taken : state.taskStep routes worker arrival = some after) : state.Spares after task := by
  simp only [ServerState.taskStep, at_] at taken
  cases place <;> simp only at taken
  case recv =>
    unfold ServerState.recvStep at taken
    split at taken
    case h_2 =>
      rcases Option.map_eq_some_iff.mp taken with ⟨buffer, -, rfl⟩
      exact ⟨Function.update_of_ne otherSlot _ _, rfl, rfl, rfl⟩
    case h_1 | h_6 => cases taken
    all_goals
      cases taken
      exact spares_proceed
  case advance =>
    rcases Option.map_eq_some_iff.mp taken with ⟨buffer, -, rfl⟩
    exact spares_update otherSlot
  case terminate | resetLength | clearBuffer | stamp | release | deactivate =>
    cases taken
    exact spares_update otherSlot
  case frame | checkActive =>
    cases taken
    exact spares_proceed
  case construct =>
    cases taken
    exact ⟨rfl, Function.update_of_ne otherConnection _ _, rfl, rfl⟩
  case handle =>
    cases taken
    exact ⟨rfl, rfl, Function.update_of_ne otherConnection _ _, rfl⟩
  case close =>
    cases taken
    exact ⟨rfl, rfl, rfl, Function.update_of_ne otherConnection _ _⟩
  case done => cases taken

/-- While a worker is at work, a step is its own or leaves the work alone. -/
theorem Owned.step_cases (owned : state.Owned serverFd) (delivers : state.pool.Delivers)
    (sound : state.pool.LockSound) {place : TaskPlace}
    (at_ : state.pool.workers worker = .work (some task) place) (working : place ≠ .done)
    {label : ServerLabel Worker}
    (taken : (serverSystem Worker routes serverFd).step label state = some after) :
    (∃ arrival, state.taskStep routes worker arrival = some after) ∨
      after.pool.workers worker = .work (some task) place ∧ state.Spares after task := by
  rcases work_of_step delivers sound at_ working taken with ⟨arrival, rfl⟩ | same
  · exact Or.inl ⟨arrival, taken⟩
  have hand := inHand_of_work at_ working
  have handsOn := owned.handsOn hand
  have occupied := (owned.tasks task (Or.inr (Or.inr ⟨worker, hand⟩))).2
  cases label with
  | reactor input => exact Or.inr ⟨same, owned.reactorStep_spares handsOn occupied taken⟩
  | task other arrival =>
      by_cases isWorker : other = worker
      · subst isWorker
        exact Or.inl ⟨arrival, taken⟩
      · rcases taskStep_pool taken with ⟨otherTask, otherPlace, placeAfter, otherAt, pool⟩
        have otherWorking : otherPlace ≠ .done := by
          rintro rfl
          change state.taskStep routes other arrival = some after at taken
          simp only [ServerState.taskStep, otherAt] at taken
          cases taken
        have otherHand := inHand_of_work otherAt otherWorking
        have otherSlot : task.conn ≠ otherTask.conn := fun same =>
          isWorker (handsOn.unique hand otherHand same.symm)
        have otherOccupied := (owned.tasks otherTask (Or.inr (Or.inr ⟨other, otherHand⟩))).2
        have otherConnection : task.connection ≠ otherTask.connection := by
          rw [← otherOccupied]
          exact owned.connection_ne handsOn occupied otherSlot (owned.handsOn otherHand).isActive
        exact Or.inr ⟨same, taskStep_spares otherAt otherSlot otherConnection taken⟩
  | finishWork other =>
      rcases finishWork_cases taken with ⟨-, rfl⟩
      exact Or.inr ⟨same, rfl, rfl, rfl, rfl⟩
  | worker other =>
      rcases Option.map_eq_some_iff.mp taken with ⟨pool, -, rfl⟩
      exact Or.inr ⟨same, rfl, rfl, rfl, rfl⟩
  | interrupt other =>
      rcases Option.map_eq_some_iff.mp taken with ⟨pool, -, rfl⟩
      exact Or.inr ⟨same, rfl, rfl, rfl, rfl⟩
  | addWork newNode =>
      rcases Option.map_eq_some_iff.mp taken with ⟨pool, -, rfl⟩
      exact Or.inr ⟨same, rfl, rfl, rfl, rfl⟩

/-! ## The work as a whole -/

/-- What a worker sees of its task. -/
def view (state : ServerState Worker) (task : ClientTask) : TaskView where
  conn := state.conns task.conn
  dispatched := state.dispatched task.connection
  answered := state.answered task.connection
  closes := state.closes task.connection

omit [Fintype Worker] [DecidableEq Worker] in
theorem Spares.view_eq (spares : state.Spares after task) : after.view task = state.view task := by
  rw [view, spares.conns, spares.dispatched, spares.answered, spares.closes]
  rfl

omit [Fintype Worker] in
theorem view_update {place : TaskPlace} {conn : ClientConnection} :
    ((state.setConn task.conn conn).proceed worker task place).view task =
      { state.view task with conn := conn } := by
  simp only [view, proceed, setConn, Function.update_self]

omit [Fintype Worker] in
theorem workers_proceed {place : TaskPlace} :
    (state.proceed worker task place).pool.workers worker = .work (some task) place :=
  Function.update_self _ _ _

theorem Owned.recv_progress (owned : state.Owned serverFd) {before : TaskView}
    {result : RecvResult} (at_ : state.pool.workers worker = .work (some task) .recv)
    (progress : before.Progress routes (state.view task) .recv)
    (taken : state.recvStep worker task result = some after) :
    ∃ placeAfter, after.pool.workers worker = .work (some task) placeAfter ∧
      before.Progress routes (after.view task) placeAfter := by
  have named : state.descriptors task.clientFd = some (.client task.connection) := by
    refine (owned.named_of_hand (inHand_of_work at_ (by simp)) ?_).1
    rw [at_]
    simp
  unfold ServerState.recvStep at taken
  rw [named] at taken
  cases result with
  | received piece =>
      cases piece with
      | nil => cases taken
      | cons byte piece =>
          rcases Option.map_eq_some_iff.mp taken with ⟨buffer, stored, rfl⟩
          refine ⟨_, workers_proceed, ?_⟩
          -- What `recv` returned is recorded outside the view.
          change before.Progress routes (((state.setConn task.conn
            { state.conns task.conn with toReadBuffer := buffer }).proceed worker task
              (.advance (byte :: piece).length)).view task) _
          rw [view_update]
          exact progress.store (by simp) stored
  | wouldBlock =>
      cases taken
      exact ⟨_, workers_proceed, progress.wouldBlock⟩
  | ended =>
      cases taken
      exact ⟨_, workers_proceed, progress.ended⟩
  | failed =>
      cases taken
      exact ⟨_, workers_proceed, progress.ended⟩

theorem Owned.progress (owned : state.Owned serverFd) {before : TaskView} {place : TaskPlace}
    {arrival : Arrival} (at_ : state.pool.workers worker = .work (some task) place)
    (progress : before.Progress routes (state.view task) place)
    (taken : state.taskStep routes worker arrival = some after) :
    ∃ placeAfter, after.pool.workers worker = .work (some task) placeAfter ∧
      before.Progress routes (after.view task) placeAfter := by
  simp only [ServerState.taskStep, at_] at taken
  cases place <;> simp only at taken
  case recv => exact owned.recv_progress at_ progress taken
  case advance bytesRead =>
    rcases Option.map_eq_some_iff.mp taken with ⟨buffer, advanced, rfl⟩
    refine ⟨_, workers_proceed, ?_⟩
    rw [view_update]
    exact progress.advance advanced
  case terminate =>
    cases taken
    refine ⟨_, workers_proceed, ?_⟩
    rw [view_update]
    exact progress.terminate
  case frame =>
    cases taken
    exact ⟨_, workers_proceed, progress.frame⟩
  case construct =>
    cases taken
    refine ⟨_, workers_proceed, ?_⟩
    simp only [view, Function.update_self]
    exact progress.construct
  case handle =>
    cases taken
    refine ⟨_, workers_proceed, ?_⟩
    simp only [view, Function.update_self]
    exact progress.handle arrival.env
  case resetLength keep =>
    cases taken
    refine ⟨_, workers_proceed, ?_⟩
    rw [view_update]
    exact progress.resetLength
  case clearBuffer keep =>
    cases taken
    refine ⟨_, workers_proceed, ?_⟩
    rw [view_update]
    exact progress.clear
  case checkActive keep =>
    cases taken
    exact ⟨_, workers_proceed, progress.checkActive⟩
  case stamp =>
    cases taken
    refine ⟨_, workers_proceed, ?_⟩
    rw [view_update]
    exact progress.stamp arrival.now
  case release =>
    cases taken
    refine ⟨_, workers_proceed, ?_⟩
    rw [view_update]
    exact progress.release
  case close =>
    cases taken
    refine ⟨_, workers_proceed, ?_⟩
    simp only [view, closeFd, proceed, Function.update_self]
    exact progress.close
  case deactivate =>
    cases taken
    refine ⟨_, workers_proceed, ?_⟩
    rw [view_update]
    exact progress.deactivate
  case done => cases taken

/-- The steps taken while a worker has not finished with a task. -/
def During (worker : Worker) (task : ClientTask) (state : ServerState Worker)
    (_ : ServerLabel Worker) : Prop :=
  inHand (state.pool.workers worker) = some task

/-- From its begin to its end a task makes progress only by its own steps. -/
theorem progress_of_run {start : ServerState Worker}
    (reached : (serverSystem Worker routes serverFd).Reachable start)
    (begins : start.pool.workers worker = .work (some task) .recv)
    (ran : ((serverSystem Worker routes serverFd).startingAt start).ReachableWhere
      (During worker task) state) :
    ∃ place, state.pool.workers worker = .work (some task) place ∧
      (start.view task).Progress routes (state.view task) place := by
  refine @Transition.System.ReachableWhere.invariant _ _ _ _
    (fun state => state.Owned serverFd ∧ state.pool.Delivers ∧ state.pool.LockSound)
    (fun state => ∃ place, state.pool.workers worker = .work (some task) place ∧
      (start.view task).Progress routes (state.view task) place) ?_ ?_ ?_ state ran
  · intro state later
    have reachable := reached.of_startingAt later
    exact ⟨owned_of_reachable reachable,
      ThreadPool.delivers_of_reachable (pool_reachable reachable),
      ThreadPool.lockSound_of_reachable (pool_reachable reachable)⟩
  · rintro state rfl
    exact ⟨.recv, begins, rfl⟩
  · rintro state label after ⟨owned, delivers, sound⟩ ⟨place, at_, progress⟩ during taken
    have working : place ≠ .done := by
      rintro rfl
      rw [During, at_] at during
      cases during
    rcases owned.step_cases delivers sound at_ working taken with ⟨arrival, own⟩ | ⟨same, spares⟩
    · exact owned.progress at_ progress own
    · rw [spares.view_eq]
      exact ⟨place, same, progress⟩

/--
Whatever the other threads do while a worker serves a task, when the work is done
the slot, the texts dispatched, the actions and the closes are those of one
`threadTask` on the slot as the work found it.
-/
theorem threadTask_of_run {start : ServerState Worker}
    (reached : (serverSystem Worker routes serverFd).Reachable start)
    (begins : start.pool.workers worker = .work (some task) .recv)
    (ran : ((serverSystem Worker routes serverFd).startingAt start).ReachableWhere
      (During worker task) state)
    (ends : state.pool.workers worker = .work (some task) .done) :
    ∃ result env time outcome,
      threadTask routes env time (start.conns task.conn) result = some outcome ∧
      state.conns task.conn = outcome.connection ∧
      state.dispatched task.connection =
        start.dispatched task.connection ++ outcome.dispatched.toList ∧
      state.answered task.connection = start.answered task.connection ++ outcome.actions ∧
      state.closes task.connection = start.closes task.connection + outcome.closed.toNat := by
  rcases progress_of_run reached begins ran with ⟨place, at_, progress⟩
  rw [ends] at at_
  cases at_
  rcases progress with ⟨result, env, time, outcome, isOutcome, ended⟩
  exact ⟨result, env, time, outcome, isOutcome, ended.connection.symm, ended.dispatched,
    ended.answered, ended.closes⟩

end ServerState

end LetUsConnect
