import LetUsConnect.Server.Isolation

/-!
# The time of the last activity

`last_activity` is written by the reactor when it claims a slot and by the worker
that has served it, and not on every path that clears `is_busy`. The server is run
with a clock, and the times are recorded at which data was received on a connection
or a response to it completed. Unless a worker is still about to write it, none of
these times is later than the `last_activity` of a slot in use.
-/

namespace LetUsConnect

open CString Threads

/-! ## The server with a clock -/

/-- What `time(NULL)` returns, should the step call it. -/
def ServerLabel.reads {Worker : Type} : ServerLabel Worker → Option ℤ
  | .reactor input => some input.now
  | .task _ arrival => some arrival.now
  | _ => none

namespace ServerState

variable {Worker : Type}

/-- The connection a descriptor names. -/
def peer (state : ServerState Worker) (fd : ℕ) : Option ℕ :=
  match state.descriptors fd with
  | some (.client connection) => some connection
  | _ => none

/-- The connection on which `recv` returns data in the step or a handler completes its response. -/
def touches (state : ServerState Worker) : ServerLabel Worker → Option ℕ
  | .task worker arrival =>
      match state.pool.workers worker, arrival.result with
      | .work (some task) .recv, .received _ => state.peer task.clientFd
      | .work (some task) (.handle _), _ => state.peer task.clientFd
      | _, _ => none
  | _ => none

end ServerState

/-- The server, the time, and when data was received or a response completed on each connection. -/
structure TimedState (Worker : Type) where
  server : ServerState Worker
  clock : ℤ
  activity : ℕ → List ℤ

structure TimedLabel (Worker : Type) where
  label : ServerLabel Worker
  time : ℤ

/-- What is recorded after a step. -/
def TimedState.record {Worker : Type} (timed : TimedState Worker) (move : TimedLabel Worker) :
    ℕ → List ℤ :=
  match timed.server.touches move.label with
  | some connection =>
      Function.update timed.activity connection (move.time :: timed.activity connection)
  | none => timed.activity

/-- The server on a machine whose clock does not go back. -/
def timedSystem (Worker : Type) [DecidableEq Worker] (routes : Dictionary RouteHandler)
    (serverFd : ℕ) : Transition.System (TimedState Worker) (TimedLabel Worker) where
  initial timed :=
    (serverSystem Worker routes serverFd).initial timed.server ∧
      ∀ connection, timed.activity connection = []
  step move timed :=
    if timed.clock ≤ move.time ∧ move.label.reads.getD move.time = move.time then
      ((serverSystem Worker routes serverFd).step move.label timed.server).map fun server =>
        { server, clock := move.time, activity := timed.record move }
    else none

/-- The places from which a worker still writes the time of its slot or gives the slot up. -/
def TaskPlace.attends : TaskPlace → Bool
  | .recv | .release | .done => false
  | _ => true

namespace ServerState

variable {Worker : Type} {state after : ServerState Worker} {label : ServerLabel Worker}
  {serverFd : ℕ} {slot : Slot} {worker : Worker} {task : ClientTask}
  {place placeAfter : TaskPlace} {routes : Dictionary RouteHandler}

/-! ## What a step can do -/

theorem closes_le_closeFd (fd connection other : ℕ) :
    state.closes other ≤ (state.closeFd fd connection).closes other := by
  change _ ≤ Function.update state.closes connection (state.closes connection + 1) other
  by_cases same : other = connection
  · rw [same, Function.update_self]
    exact Nat.le_succ _
  · rw [Function.update_of_ne same]

/-- What a step has done to a slot that is in use after it. -/
inductive Dates (state after : ServerState Worker) (label : ServerLabel Worker) (slot : Slot) :
    Prop where
  | kept (isActive : (state.conns slot).isActive)
      (occupant : after.occupant slot = state.occupant slot)
      (lastActivity : (after.conns slot).lastActivity = (state.conns slot).lastActivity)
  | stamped (reads : label.reads = some (after.conns slot).lastActivity)
  | claimed (newcomer : state.reactor.knows.newcomer = some (after.occupant slot))

/-- What a step does to the connections and to the slots they are in. -/
structure Effect (state after : ServerState Worker) (label : ServerLabel Worker) : Prop where
  accepted : state.accepted ≤ after.accepted
  closes : ∀ connection, state.closes connection ≤ after.closes connection
  newcomer : ∀ connection, after.reactor.knows.newcomer = some connection →
    state.reactor.knows.newcomer = some connection ∨ state.accepted ≤ connection
  slots : ∀ slot, (after.conns slot).isActive → state.Dates after label slot

/-- A step that leaves the times and the holders of the slots as they are. -/
theorem effect_of_same (accepted : state.accepted ≤ after.accepted)
    (closes : ∀ connection, state.closes connection ≤ after.closes connection)
    (newcomer : ∀ connection, after.reactor.knows.newcomer = some connection →
      state.reactor.knows.newcomer = some connection ∨ state.accepted ≤ connection)
    (isActive : ∀ slot, (after.conns slot).isActive → (state.conns slot).isActive)
    (occupant : ∀ slot, (state.conns slot).isActive → after.occupant slot = state.occupant slot)
    (lastActivity : ∀ slot, (state.conns slot).isActive →
      (after.conns slot).lastActivity = (state.conns slot).lastActivity) :
    state.Effect after label where
  accepted := accepted
  closes := closes
  newcomer := newcomer
  slots := by
    intro slot active
    have activeBefore := isActive slot active
    exact .kept activeBefore (occupant slot activeBefore) (lastActivity slot activeBefore)

theorem effect_of_pool {pool : ThreadPool ClientTask TaskPlace Worker Unit} :
    state.Effect { state with pool := pool } label :=
  effect_of_same le_rfl (fun _ => le_rfl) (fun _ => Or.inl) (fun _ => id) (fun _ _ => rfl)
    fun _ _ => rfl

/-- The reactor writes a slot without its time. -/
theorem effect_write {conn : ClientConnection} {place : ReactorPlace}
    (isActive : conn.isActive → (state.conns slot).isActive)
    (lastActivity : conn.lastActivity = (state.conns slot).lastActivity)
    (newcomer : place.knows.newcomer = none) :
    state.Effect ((state.setConn slot conn).goto place) label := by
  refine effect_of_same le_rfl (fun _ => le_rfl) (fun _ => Knowledge.no_newcomer newcomer) ?_
    (fun _ _ => rfl) (fun other _ => see_update (·.lastActivity) lastActivity other)
  intro other active
  change (Function.update state.conns slot conn other).isActive at active
  by_cases isSlot : other = slot
  · rw [isSlot, Function.update_self] at active
    rw [isSlot]
    exact isActive active
  · rwa [Function.update_of_ne isSlot] at active

theorem effect_close {fd connection : ℕ} {place : ReactorPlace}
    (newcomer : place.knows.newcomer = none) :
    state.Effect ((state.closeFd fd connection).goto place) label :=
  effect_of_same le_rfl (closes_le_closeFd fd connection)
    (fun _ => Knowledge.no_newcomer newcomer) (fun _ => id) (fun _ _ => rfl) fun _ _ => rfl

/-- The reactor writes a slot that is not in use. -/
theorem effect_claim {conn : ClientConnection}
    (conns : after.conns = Function.update state.conns slot conn)
    (accepted : after.accepted = state.accepted) (closes : after.closes = state.closes)
    (unused : (state.conns slot).isActive = false) (keeps : conn.isActive = false)
    (others : ∀ other, other ≠ slot → after.occupant other = state.occupant other)
    (newcomer : ∀ connection, after.reactor.knows.newcomer = some connection →
      state.reactor.knows.newcomer = some connection) : state.Effect after label := by
  have differs : ∀ other, (state.conns other).isActive → other ≠ slot := by
    rintro other active rfl
    rw [unused] at active
    cases active
  refine effect_of_same accepted.ge (fun _ => (congrFun closes _).ge)
    (fun _ isNew => Or.inl (newcomer _ isNew)) ?_ ?_ ?_
  · intro other active
    rw [conns] at active
    exact see_update (·.isActive) (keeps.trans unused.symm) other ▸ active
  · exact fun other active => others other (differs other active)
  · intro other active
    rw [conns, Function.update_of_ne (differs other active)]

variable [DecidableEq Worker]

/-- What a step of the work on a task does to its slot, to the others and to the connections. -/
structure Advances (state after : ServerState Worker) (worker : Worker) (task : ClientTask)
    (place placeAfter : TaskPlace) (now : ℤ) : Prop where
  pool : after.pool = state.pool.moveWorker worker (.work (some task) placeAfter)
  reactor : after.reactor = state.reactor
  accepted : after.accepted = state.accepted
  occupant : after.occupant = state.occupant
  closes : ∀ connection, state.closes connection ≤ after.closes connection
  others : ∀ slot, slot ≠ task.conn → after.conns slot = state.conns slot
  isActive : (after.conns task.conn).isActive → (state.conns task.conn).isActive
  lastActivity : (after.conns task.conn).lastActivity =
    if place = .stamp then now else (state.conns task.conn).lastActivity
  attends : place.attends →
    placeAfter.attends ∨ place = .stamp ∨ (after.conns task.conn).isActive = false

theorem advances_of_update {now : ℤ} {conn : ClientConnection}
    (conns : after.conns = Function.update state.conns task.conn conn)
    (pool : after.pool = state.pool.moveWorker worker (.work (some task) placeAfter))
    (reactor : after.reactor = state.reactor) (accepted : after.accepted = state.accepted)
    (occupant : after.occupant = state.occupant) (closes : after.closes = state.closes)
    (isActive : conn.isActive → (state.conns task.conn).isActive)
    (lastActivity : conn.lastActivity =
      if place = .stamp then now else (state.conns task.conn).lastActivity)
    (attends : place.attends →
      placeAfter.attends ∨ place = .stamp ∨ conn.isActive = false) :
    state.Advances after worker task place placeAfter now := by
  have here : after.conns task.conn = conn := by
    rw [conns, Function.update_self]
  exact
    { pool := pool
      reactor := reactor
      accepted := accepted
      occupant := occupant
      closes := fun connection => (congrFun closes connection).ge
      others := by
        intro slot differs
        rw [conns, Function.update_of_ne differs]
      isActive := by
        rw [here]
        exact isActive
      lastActivity := by
        rw [here]
        exact lastActivity
      attends := by
        rw [here]
        exact attends }

/-- A step of the work that leaves the slots as they are. -/
theorem advances_of_same {now : ℤ} (conns : after.conns = state.conns)
    (pool : after.pool = state.pool.moveWorker worker (.work (some task) placeAfter))
    (reactor : after.reactor = state.reactor) (accepted : after.accepted = state.accepted)
    (occupant : after.occupant = state.occupant) (closes : after.closes = state.closes)
    (working : place ≠ .stamp) (attends : place.attends → placeAfter.attends) :
    state.Advances after worker task place placeAfter now := by
  have update : after.conns =
      Function.update state.conns task.conn (state.conns task.conn) := by
    rw [conns, Function.update_eq_self]
  exact advances_of_update update pool reactor accepted occupant closes id (if_neg working).symm
    fun attending => Or.inl (attends attending)

theorem recvStep_advances {result : RecvResult} {now : ℤ}
    (taken : state.recvStep worker task result = some after) :
    ∃ placeAfter, state.Advances after worker task .recv placeAfter now := by
  unfold ServerState.recvStep at taken
  split at taken
  case h_2 =>
    rcases Option.map_eq_some_iff.mp taken with ⟨buffer, -, rfl⟩
    exact ⟨_, advances_of_update rfl rfl rfl rfl rfl rfl id rfl fun attends =>
      absurd attends Bool.false_ne_true⟩
  case h_1 | h_6 => cases taken
  all_goals
    cases taken
    exact ⟨_, advances_of_same rfl rfl rfl rfl rfl rfl (by simp) fun attends =>
      absurd attends Bool.false_ne_true⟩

theorem taskStep_advances {arrival : Arrival}
    (at_ : state.pool.workers worker = .work (some task) place)
    (taken : state.taskStep routes worker arrival = some after) :
    ∃ placeAfter, state.Advances after worker task place placeAfter arrival.now := by
  simp only [ServerState.taskStep, at_] at taken
  cases place <;> simp only at taken
  case recv => exact recvStep_advances taken
  case advance =>
    rcases Option.map_eq_some_iff.mp taken with ⟨buffer, -, rfl⟩
    exact ⟨_, advances_of_update rfl rfl rfl rfl rfl rfl id rfl fun _ => Or.inl rfl⟩
  case terminate | resetLength | clearBuffer =>
    cases taken
    exact ⟨_, advances_of_update rfl rfl rfl rfl rfl rfl id rfl fun _ => Or.inl rfl⟩
  case frame | checkActive =>
    cases taken
    refine ⟨_, advances_of_same rfl rfl rfl rfl rfl rfl (by simp) ?_⟩
    split_ifs <;> exact fun _ => rfl
  case construct | handle =>
    cases taken
    exact ⟨_, advances_of_same rfl rfl rfl rfl rfl rfl (by simp) fun _ => rfl⟩
  case stamp =>
    cases taken
    exact ⟨_, advances_of_update rfl rfl rfl rfl rfl rfl id rfl fun _ => Or.inr (Or.inl rfl)⟩
  case release =>
    cases taken
    exact ⟨_, advances_of_update rfl rfl rfl rfl rfl rfl id rfl fun attends =>
      absurd attends Bool.false_ne_true⟩
  case close =>
    cases taken
    exact ⟨.deactivate,
      { pool := rfl
        reactor := rfl
        accepted := rfl
        occupant := rfl
        closes := fun connection => closes_le_closeFd task.clientFd _ connection
        others := fun _ _ => rfl
        isActive := id
        lastActivity := rfl
        attends := fun _ => Or.inl rfl }⟩
  case deactivate =>
    cases taken
    exact ⟨_, advances_of_update rfl rfl rfl rfl rfl rfl (fun active =>
      absurd active Bool.false_ne_true) rfl fun _ => Or.inr (Or.inr rfl)⟩
  case done => cases taken

theorem recvStep_received {piece : Bytes}
    (taken : state.recvStep worker task (.received piece) = some after) :
    ∃ placeAfter, after.pool.workers worker = .work (some task) placeAfter ∧
      placeAfter.attends := by
  unfold ServerState.recvStep at taken
  split at taken
  case h_2 =>
    rcases Option.map_eq_some_iff.mp taken with ⟨buffer, -, rfl⟩
    exact ⟨_, Function.update_self _ _ _, rfl⟩
  all_goals contradiction

variable [Fintype Worker]

/-- A connection on which data is received or a response completed is in a worker's hand. -/
theorem Owned.touches_cases (owned : state.Owned serverFd) {label : ServerLabel Worker}
    {connection : ℕ} (touched : state.touches label = some connection) :
    ∃ worker arrival task place, label = .task worker arrival ∧
      state.pool.workers worker = .work (some task) place ∧ place ≠ .done ∧
      task.connection = connection ∧ state.closes connection = 0 ∧
      ∀ routes after, state.taskStep routes worker arrival = some after →
        ∃ placeAfter, after.pool.workers worker = .work (some task) placeAfter ∧
          placeAfter.attends := by
  have named : ∀ worker task place, state.pool.workers worker = .work (some task) place →
      place ≠ .done → place ≠ .deactivate → state.peer task.clientFd = some connection →
      task.connection = connection ∧ state.closes connection = 0 := by
    intro worker task place at_ working open_ peer
    have named := owned.named_of_hand (inHand_of_work at_ working) (by rw [at_]; simpa using open_)
    rw [ServerState.peer, named.1, Option.some.injEq] at peer
    exact ⟨peer, peer ▸ named.2⟩
  cases label with
  | task worker arrival =>
      rw [ServerState.touches] at touched
      split at touched
      case h_1 task piece at_ result =>
        rcases named worker task .recv at_ (by simp) (by simp) touched with ⟨isTask, unclosed⟩
        refine ⟨worker, arrival, task, .recv, rfl, at_, by simp, isTask, unclosed, ?_⟩
        intro routes after taken
        simp only [ServerState.taskStep, at_, result] at taken
        exact recvStep_received taken
      case h_2 task text at_ =>
        rcases named worker task (.handle text) at_ (by simp) (by simp) touched with
          ⟨isTask, unclosed⟩
        refine ⟨worker, arrival, task, .handle text, rfl, at_, by simp, isTask, unclosed, ?_⟩
        intro routes after taken
        simp only [ServerState.taskStep, at_] at taken
        cases taken
        exact ⟨_, Function.update_self _ _ _, rfl⟩
      case h_3 => cases touched
  | _ => cases touched

omit [DecidableEq Worker] in
theorem Owned.effect_claimActive (owned : state.Owned serverFd) {fd connection : ℕ}
    (at_ : state.reactor = .claimActive fd connection slot) :
    state.Effect ((state.setConn slot { state.conns slot with isActive := true }).goto
      (.claimBusy fd connection slot)) label where
  accepted := le_rfl
  closes := fun _ => le_rfl
  newcomer := fun _ => Knowledge.no_newcomer rfl
  slots := by
    intro other active
    by_cases isSlot : other = slot
    · have knowledge := owned.knowledge
      rw [at_] at knowledge
      refine .claimed ?_
      rw [at_, isSlot]
      exact congrArg some knowledge.2.2.2.symm
    · have same : ((state.setConn slot { state.conns slot with isActive := true }).goto
          (.claimBusy fd connection slot)).conns other = state.conns other :=
        Function.update_of_ne isSlot _ _
      rw [same] at active
      exact .kept active rfl (by rw [same])

omit [DecidableEq Worker] in
theorem Owned.reactorStep_effect (owned : state.Owned serverFd) {input : ReactorInput}
    (taken : state.reactorStep serverFd input = some after) :
    state.Effect after (.reactor input) := by
  have knowledge := owned.knowledge
  cases reactorMove_of_step taken with
  | goes place readFds arrival =>
      exact effect_of_same le_rfl (fun _ => le_rfl)
        (fun _ isNew => Or.inl ((Knowledge.newcomer_congr arrival).symm.trans isNew))
        (fun _ => id) (fun _ _ => rfl) fun _ _ => rfl
  | handsOver _ _ nobody =>
      exact effect_of_same le_rfl (fun _ => le_rfl)
        (fun _ => Knowledge.no_newcomer (Knowledge.newcomer_of_nobody nobody)) (fun _ => id)
        (fun _ _ => rfl) fun _ _ => rfl
  | accepts =>
      refine effect_of_same (Nat.le_succ _) (fun _ => le_rfl) ?_ (fun _ => id) (fun _ _ => rfl)
        fun _ _ => rfl
      intro connection isNew
      cases isNew
      exact Or.inr le_rfl
  | claimsFd at_ =>
      rw [at_] at knowledge
      refine effect_claim rfl rfl rfl knowledge.2 knowledge.2
        (fun other differs => Function.update_of_ne differs _ _) ?_
      rw [at_]
      exact fun _ => id
  | claimsTime at_ =>
      rw [at_] at knowledge
      refine effect_claim rfl rfl rfl knowledge.2.1 knowledge.2.1 (fun _ _ => rfl) ?_
      rw [at_]
      exact fun _ => id
  | claimsActive at_ => exact owned.effect_claimActive at_
  | marks _ _ nobody => exact effect_write id rfl (Knowledge.newcomer_of_nobody nobody)
  | givesUp _ nothing =>
      refine effect_write (fun active => absurd active Bool.false_ne_true) rfl ?_
      rw [nothing]
      rfl
  | rejects => exact effect_close rfl
  | closes _ _ _ _ nobody => exact effect_close (Knowledge.newcomer_of_nobody nobody)

omit [Fintype Worker] in
theorem taskStep_effect {arrival : Arrival}
    (taken : state.taskStep routes worker arrival = some after) :
    state.Effect after (.task worker arrival) := by
  rcases taskStep_pool taken with ⟨task, place, -, at_, -⟩
  rcases taskStep_advances at_ taken with ⟨placeAfter, advances⟩
  exact
    { accepted := advances.accepted.ge
      closes := advances.closes
      newcomer := by
        rw [advances.reactor]
        exact fun _ => Or.inl
      slots := by
        intro slot active
        by_cases isSlot : slot = task.conn
        · subst isSlot
          by_cases stamps : place = .stamp
          · have lastActivity := advances.lastActivity
            rw [if_pos stamps] at lastActivity
            exact .stamped (congrArg some lastActivity.symm)
          · have lastActivity := advances.lastActivity
            rw [if_neg stamps] at lastActivity
            exact .kept (advances.isActive active) (congrFun advances.occupant _) lastActivity
        · rw [advances.others slot isSlot] at active
          exact .kept active (congrFun advances.occupant _) (by rw [advances.others slot isSlot]) }

theorem Owned.effect (owned : state.Owned serverFd)
    (taken : (serverSystem Worker routes serverFd).step label state = some after) :
    state.Effect after label := by
  cases label with
  | reactor input => exact owned.reactorStep_effect taken
  | task worker arrival => exact taskStep_effect taken
  | finishWork worker =>
      rcases finishWork_cases taken with ⟨-, rfl⟩
      exact effect_of_pool
  | worker worker =>
      rcases Option.map_eq_some_iff.mp taken with ⟨pool, -, rfl⟩
      exact effect_of_pool
  | interrupt worker =>
      rcases Option.map_eq_some_iff.mp taken with ⟨pool, -, rfl⟩
      exact effect_of_pool
  | addWork newNode =>
      rcases Option.map_eq_some_iff.mp taken with ⟨pool, -, rfl⟩
      exact effect_of_pool

/-- A worker still has to write the time of the slot or to give the slot up. -/
def Attended (state : ServerState Worker) (slot : Slot) : Prop :=
  ∃ worker task place, state.pool.workers worker = .work (some task) place ∧ task.conn = slot ∧
    place.attends

theorem attended_of_step (delivers : state.pool.Delivers) (sound : state.pool.LockSound)
    (attended : state.Attended slot)
    (taken : (serverSystem Worker routes serverFd).step label state = some after) :
    after.Attended slot ∨ label.reads = some (after.conns slot).lastActivity ∨
      (after.conns slot).isActive = false := by
  rcases attended with ⟨worker, task, place, at_, rfl, attends⟩
  have working : place ≠ .done := by
    rintro rfl
    cases attends
  rcases work_of_step delivers sound at_ working taken with ⟨arrival, rfl⟩ | same
  · rcases taskStep_advances at_ taken with ⟨placeAfter, advances⟩
    rcases advances.attends attends with still | stamps | givenUp
    · refine Or.inl ⟨worker, task, placeAfter, ?_, rfl, still⟩
      rw [advances.pool, ThreadPool.workers_moveWorker, Function.update_self]
    · have lastActivity := advances.lastActivity
      rw [if_pos stamps] at lastActivity
      exact Or.inr (Or.inl (congrArg some lastActivity.symm))
    · exact Or.inr (Or.inr givenUp)
  · exact Or.inl ⟨worker, task, place, same, rfl, attends⟩

end ServerState

/-! ## The times of the slots in use -/

variable {Worker : Type} [Fintype Worker] [DecidableEq Worker]

/-- The invariant of the times. -/
structure TimedState.Dated (timed : TimedState Worker) : Prop where
  past : ∀ connection, ∀ time ∈ timed.activity connection, time ≤ timed.clock
  unheard : ∀ connection, timed.server.accepted ≤ connection → timed.activity connection = []
  silent : ∀ connection, timed.server.reactor.knows.newcomer = some connection →
    timed.activity connection = []
  dated : ∀ slot, (timed.server.conns slot).isActive →
    (∀ time ∈ timed.activity (timed.server.occupant slot),
      time ≤ (timed.server.conns slot).lastActivity) ∨ timed.server.Attended slot

namespace TimedState

open ServerState

variable {timed after : TimedState Worker} {move : TimedLabel Worker}
  {routes : Dictionary RouteHandler} {serverFd : ℕ} {connection : ℕ}

omit [Fintype Worker] in
theorem step_cases (taken : (timedSystem Worker routes serverFd).step move timed = some after) :
    timed.clock ≤ move.time ∧ move.label.reads.getD move.time = move.time ∧
      (serverSystem Worker routes serverFd).step move.label timed.server = some after.server ∧
      after.clock = move.time ∧ after.activity = timed.record move := by
  change (if timed.clock ≤ move.time ∧ move.label.reads.getD move.time = move.time then _
    else none) = some after at taken
  split_ifs at taken with allowed
  rcases Option.map_eq_some_iff.mp taken with ⟨server, step, rfl⟩
  exact ⟨allowed.1, allowed.2, step, rfl, rfl⟩

omit [Fintype Worker] [DecidableEq Worker] in
theorem record_of_touches (touched : timed.server.touches move.label = some connection) :
    timed.record move connection = move.time :: timed.activity connection := by
  rw [record, touched]
  exact Function.update_self _ _ _

omit [Fintype Worker] [DecidableEq Worker] in
theorem record_of_not_touches (untouched : timed.server.touches move.label ≠ some connection) :
    timed.record move connection = timed.activity connection := by
  rw [record]
  cases touched : timed.server.touches move.label with
  | none => rfl
  | some other =>
      apply Function.update_of_ne
      rintro rfl
      exact untouched touched

omit [Fintype Worker] [DecidableEq Worker] in
theorem mem_record {time : ℤ} (member : time ∈ timed.record move connection) :
    time = move.time ∨ time ∈ timed.activity connection := by
  by_cases touched : timed.server.touches move.label = some connection
  · rw [record_of_touches touched] at member
    exact List.mem_cons.mp member
  · rw [record_of_not_touches touched] at member
    exact Or.inr member

/-- The connection a step touches is in a slot that a worker serves and goes on attending. -/
theorem slot_of_touches (owned : timed.server.Owned serverFd)
    (touched : timed.server.touches move.label = some connection) :
    ∃ slot, (timed.server.conns slot).isActive ∧ timed.server.occupant slot = connection ∧
      ∀ routes after, (serverSystem Worker routes serverFd).step move.label timed.server =
        some after → after.Attended slot := by
  rcases owned.touches_cases touched with
    ⟨worker, arrival, task, place, isLabel, at_, working, isTask, -, attends⟩
  have hand := inHand_of_work at_ working
  have occupied := (owned.tasks task (Or.inr (Or.inr ⟨worker, hand⟩))).2
  refine ⟨task.conn, (owned.handsOn hand).isActive, occupied.trans isTask, ?_⟩
  intro routes after taken
  rw [isLabel] at taken
  rcases attends routes after taken with ⟨placeAfter, atAfter, attending⟩
  exact ⟨worker, task, placeAfter, atAfter, rfl, attending⟩

theorem untouched_of_newcomer (owned : timed.server.Owned serverFd)
    (isNewcomer : timed.server.reactor.knows.newcomer = some connection) :
    timed.server.touches move.label ≠ some connection := by
  intro touched
  rcases owned.held_of_newcomer isNewcomer with ⟨fd, held⟩
  rcases slot_of_touches owned touched with ⟨slot, active, occupied, -⟩
  exact held.apart slot active occupied

theorem untouched_of_recent (owned : timed.server.Owned serverFd)
    (recent : timed.server.accepted ≤ connection) :
    timed.server.touches move.label ≠ some connection := by
  intro touched
  rcases slot_of_touches owned touched with ⟨slot, active, rfl, -⟩
  exact absurd (owned.ledger.old slot active) (not_lt.mpr recent)

theorem Dated.step (dated : timed.Dated) (owned : timed.server.Owned serverFd)
    (delivers : timed.server.pool.Delivers) (sound : timed.server.pool.LockSound)
    (taken : (timedSystem Worker routes serverFd).step move timed = some after) : after.Dated := by
  rcases step_cases taken with ⟨later, reading, step, clock, activity⟩
  have effect := owned.effect step
  have past : ∀ connection, ∀ time ∈ after.activity connection, time ≤ move.time := by
    intro connection time member
    rw [activity] at member
    rcases mem_record member with rfl | before
    · exact le_rfl
    · exact (dated.past connection time before).trans later
  have readNow : ∀ time, move.label.reads = some time → time = move.time := by
    intro time reads
    rw [reads] at reading
    exact reading
  have silent : ∀ connection, timed.server.reactor.knows.newcomer = some connection →
      after.activity connection = [] := by
    intro connection isNewcomer
    rw [activity, record_of_not_touches (untouched_of_newcomer owned isNewcomer)]
    exact dated.silent connection isNewcomer
  have unheard : ∀ connection, timed.server.accepted ≤ connection →
      after.activity connection = [] := by
    intro connection recent
    rw [activity, record_of_not_touches (untouched_of_recent owned recent)]
    exact dated.unheard connection recent
  exact
    { past := by
        rw [clock]
        exact past
      unheard := fun connection recent => unheard connection (effect.accepted.trans recent)
      silent := by
        intro connection isNewcomer
        rcases effect.newcomer connection isNewcomer with before | recent
        · exact silent connection before
        · exact unheard connection recent
      dated := by
        intro slot active
        cases effect.slots slot active with
        | stamped reads =>
            rw [readNow _ reads]
            exact Or.inl (past _)
        | claimed newcomer =>
            rw [silent _ newcomer]
            exact Or.inl nofun
        | kept isActive occupant lastActivity =>
            rw [occupant]
            by_cases touched :
                timed.server.touches move.label = some (timed.server.occupant slot)
            · rcases slot_of_touches owned touched with ⟨other, otherActive, same, attends⟩
              have isSlot := owned.ledger.distinct other slot otherActive isActive same
              exact Or.inr (isSlot ▸ attends routes after.server step)
            · rw [activity, record_of_not_touches touched]
              rcases dated.dated slot isActive with settled | attended
              · rw [lastActivity]
                exact Or.inl settled
              · rcases attended_of_step delivers sound attended step with
                  still | reads | givenUp
                · exact Or.inr still
                · rw [readNow _ reads]
                  exact Or.inl fun time member => (dated.past _ time member).trans later
                · rw [givenUp] at active
                  cases active }

omit [Fintype Worker] in
theorem server_reachable (reached : (timedSystem Worker routes serverFd).Reachable timed) :
    (serverSystem Worker routes serverFd).Reachable timed.server := by
  refine Transition.System.Reachable.project (fun timed => timed.server) ?_ ?_ reached
  · exact fun _ initially => initially.1
  · intro timed move after taken
    exact Or.inr ⟨move.label, (step_cases taken).2.2.1⟩

theorem dated_of_reachable (reached : (timedSystem Worker routes serverFd).Reachable timed) :
    timed.Dated := by
  refine @Transition.System.ReachableWhere.invariant _ _ _ _
    (fun timed => timed.server.Owned serverFd ∧ timed.server.pool.Delivers ∧
      timed.server.pool.LockSound) (fun timed => timed.Dated) ?_ ?_ ?_ timed reached
  · intro timed reached
    have reachable := server_reachable reached
    exact ⟨owned_of_reachable reachable,
      ThreadPool.delivers_of_reachable (pool_reachable reachable),
      ThreadPool.lockSound_of_reachable (pool_reachable reachable)⟩
  · rintro timed ⟨⟨count, -, isStart⟩, nothing⟩
    exact
      { past := fun connection => by
          rw [nothing connection]
          nofun
        unheard := fun connection _ => nothing connection
        silent := fun connection _ => nothing connection
        dated := by
          rw [isStart]
          nofun }
  · rintro timed move after ⟨owned, delivers, sound⟩ dated _ taken
    exact dated.step owned delivers sound taken

end TimedState

end LetUsConnect
