import LetUsConnect.Server.ReactorMoves

/-!
# Every open connection has a place

A descriptor that `accept` returned is closed exactly once, before the slot of its
connection is given up. So at any time an open connection is the one the reactor
has just accepted or the one its slot is in use for, and there are never more of
them than slots, plus one.
-/

namespace LetUsConnect

open Threads

namespace ServerState

variable {Worker : Type} {state after : ServerState Worker}
  {serverFd : ℕ} {slot : Slot} {worker : Worker} {task : ClientTask}

/-- The slot is in use for the connection. -/
structure Occupies (state : ServerState Worker) (slot : Slot) (fd connection : ℕ) : Prop where
  isActive : (state.conns slot).isActive
  fd : (state.conns slot).fd = fd
  occupant : state.occupant slot = connection

/-- Where the server keeps the descriptor of a connection. -/
def Placed (state : ServerState Worker) (fd connection : ℕ) : Prop :=
  state.reactor.knows.arrival = some (fd, connection) ∨ ∃ slot, state.Occupies slot fd connection

/-- What the descriptors of the server stand for. -/
structure Accounted (state : ServerState Worker) (serverFd : ℕ) : Prop where
  listener : ∀ fd, state.descriptors fd = some .listener → fd = serverFd
  unclosed : ∀ fd connection, state.descriptors fd = some (.client connection) →
    state.closes connection = 0
  placed : ∀ fd connection, state.descriptors fd = some (.client connection) →
    state.Placed fd connection

theorem accounted_start (serverFd count : ℕ) :
    Accounted (serverStart serverFd count : ServerState Worker) serverFd := by
  have only : ∀ fd descriptor,
      (serverStart serverFd count : ServerState Worker).descriptors fd = some descriptor →
        fd = serverFd ∧ descriptor = .listener := by
    intro fd descriptor named
    simp only [serverStart] at named
    split_ifs at named with isServer
    cases named
    exact ⟨isServer, rfl⟩
  refine ⟨fun fd named => (only fd _ named).1, ?_, ?_⟩
  · intro fd connection named
    cases (only fd _ named).2
  · intro fd connection named
    cases (only fd _ named).2

/-! ## What a step may do to the connections -/

/-- The connections keep their descriptors. -/
theorem Accounted.of_frame (accounted : state.Accounted serverFd)
    (descriptors : after.descriptors = state.descriptors) (closes : after.closes = state.closes)
    (placed : ∀ fd connection, state.closes connection = 0 → state.Placed fd connection →
      after.Placed fd connection) : after.Accounted serverFd where
  listener := by
    rw [descriptors]
    exact accounted.listener
  unclosed := by
    rw [descriptors, closes]
    exact accounted.unclosed
  placed := by
    rw [descriptors]
    intro fd connection named
    apply placed
    · exact accounted.unclosed fd connection named
    · exact accounted.placed fd connection named

/-- The slots in use stay in use for the same connections. -/
theorem Accounted.of_slots (accounted : state.Accounted serverFd)
    (descriptors : after.descriptors = state.descriptors) (closes : after.closes = state.closes)
    (arrival : after.reactor.knows.arrival = state.reactor.knows.arrival)
    (occupies : ∀ slot fd connection, state.Occupies slot fd connection →
      after.Occupies slot fd connection) : after.Accounted serverFd := by
  apply accounted.of_frame descriptors closes
  rintro fd connection - (arrived | ⟨slot, occupied⟩)
  · exact Or.inl (arrival.trans arrived)
  · exact Or.inr ⟨slot, occupies slot fd connection occupied⟩

theorem Occupies.of_update {conn : ClientConnection} {fd connection : ℕ} {other : Slot}
    (occupied : state.Occupies other fd connection)
    (conns : after.conns = Function.update state.conns slot conn)
    (occupant : after.occupant = state.occupant) (sameFd : conn.fd = (state.conns slot).fd)
    (isActive : (state.conns slot).isActive → conn.isActive) :
    after.Occupies other fd connection := by
  refine ⟨?_, ?_, ?_⟩
  · by_cases same : other = slot
    · rw [conns, same, Function.update_self]
      exact isActive (same ▸ occupied.isActive)
    · rw [conns, Function.update_of_ne same]
      exact occupied.isActive
  · rw [conns]
    exact (see_update (·.fd) sameFd other).trans occupied.fd
  · rw [occupant]
    exact occupied.occupant

/-- A write to a slot that leaves it in use. -/
theorem Accounted.setConn (accounted : state.Accounted serverFd) {conn : ClientConnection}
    (conns : after.conns = Function.update state.conns slot conn)
    (occupant : after.occupant = state.occupant)
    (descriptors : after.descriptors = state.descriptors)
    (closes : after.closes = state.closes)
    (arrival : after.reactor.knows.arrival = state.reactor.knows.arrival)
    (fd : conn.fd = (state.conns slot).fd)
    (isActive : (state.conns slot).isActive → conn.isActive) : after.Accounted serverFd :=
  accounted.of_slots descriptors closes arrival fun _ _ _ occupied =>
    occupied.of_update conns occupant fd isActive

/-- A slot whose connection is closed is given up. -/
theorem Accounted.drop (accounted : state.Accounted serverFd) {conn : ClientConnection}
    (conns : after.conns = Function.update state.conns slot conn)
    (occupant : after.occupant = state.occupant)
    (descriptors : after.descriptors = state.descriptors)
    (closes : after.closes = state.closes)
    (arrival : after.reactor.knows.arrival = state.reactor.knows.arrival)
    (closed : state.closes (state.occupant slot) ≠ 0) : after.Accounted serverFd := by
  apply accounted.of_frame descriptors closes
  rintro fd connection unclosed (arrived | ⟨other, occupied⟩)
  · exact Or.inl (arrival.trans arrived)
  · have differs : other ≠ slot := by
      rintro rfl
      rw [occupied.occupant] at closed
      exact closed unclosed
    refine Or.inr ⟨other, ?_, ?_, ?_⟩
    · rw [conns, Function.update_of_ne differs]
      exact occupied.isActive
    · rw [conns, Function.update_of_ne differs]
      exact occupied.fd
    · rw [occupant]
      exact occupied.occupant

variable [Fintype Worker]

theorem Owned.held_of_arrival (owned : state.Owned serverFd) {fd connection : ℕ}
    (arrived : state.reactor.knows.arrival = some (fd, connection)) :
    state.Held fd connection := by
  have knowledge := owned.knowledge
  generalize state.reactor.knows = known at arrived knowledge
  cases known <;> cases arrived
  case accepted => exact knowledge
  case unclaimed => exact knowledge.1
  case writing => exact knowledge.1

/-- No two descriptors are open for one connection. -/
theorem Owned.placed_unique (owned : state.Owned serverFd) {fd other connection : ℕ}
    (placed : state.Placed fd connection) (otherPlaced : state.Placed other connection) :
    fd = other := by
  rcases placed with arrived | ⟨slot, occupied⟩
  · have held := owned.held_of_arrival arrived
    rcases otherPlaced with otherArrived | ⟨slot, occupied⟩
    · rw [arrived, Option.some.injEq, Prod.mk.injEq] at otherArrived
      exact otherArrived.1
    · exact absurd occupied.occupant (held.apart slot occupied.isActive)
  · rcases otherPlaced with otherArrived | ⟨otherSlot, otherOccupied⟩
    · have held := owned.held_of_arrival otherArrived
      exact absurd occupied.occupant (held.apart slot occupied.isActive)
    · have same := owned.ledger.distinct slot otherSlot occupied.isActive otherOccupied.isActive
        (occupied.occupant.trans otherOccupied.occupant.symm)
      rw [← occupied.fd, ← otherOccupied.fd, same]

/-- A connection is closed through the descriptor that names it. -/
theorem Accounted.close (accounted : state.Accounted serverFd) (owned : state.Owned serverFd)
    {fd connection : ℕ} (named : state.descriptors fd = some (.client connection))
    (conns : after.conns = state.conns) (occupant : after.occupant = state.occupant)
    (descriptors : after.descriptors = Function.update state.descriptors fd none)
    (closes : after.closes =
      Function.update state.closes connection (state.closes connection + 1))
    (arrival : ∀ other, other ≠ fd → ∀ connection,
      state.reactor.knows.arrival = some (other, connection) →
        after.reactor.knows.arrival = some (other, connection)) : after.Accounted serverFd := by
  have before : ∀ other descriptor, after.descriptors other = some descriptor →
      other ≠ fd ∧ state.descriptors other = some descriptor := by
    intro other descriptor isNamed
    have differs : other ≠ fd := by
      rintro rfl
      rw [descriptors, Function.update_self] at isNamed
      cases isNamed
    rw [descriptors, Function.update_of_ne differs] at isNamed
    exact ⟨differs, isNamed⟩
  refine ⟨?_, ?_, ?_⟩
  · intro other isNamed
    exact accounted.listener other (before other _ isNamed).2
  · intro other otherConnection isNamed
    rcases before other _ isNamed with ⟨differs, isNamed⟩
    have apart : otherConnection ≠ connection := by
      rintro rfl
      exact differs (owned.placed_unique (accounted.placed other _ isNamed)
        (accounted.placed fd _ named))
    rw [closes, Function.update_of_ne apart]
    exact accounted.unclosed other otherConnection isNamed
  · intro other otherConnection isNamed
    rcases before other _ isNamed with ⟨differs, isNamed⟩
    rcases accounted.placed other otherConnection isNamed with arrived | ⟨slot, occupied⟩
    · exact Or.inl (arrival other differs _ arrived)
    · refine Or.inr ⟨slot, ?_, ?_, ?_⟩
      · rw [conns]
        exact occupied.isActive
      · rw [conns]
        exact occupied.fd
      · rw [occupant]
        exact occupied.occupant

/-! ## Steps of the reactor -/

theorem Accounted.accept (accounted : state.Accounted serverFd) (owned : state.Owned serverFd)
    {fd : ℕ} (at_ : state.reactor = .accept) :
    Accounted
      { state.goto (.claim fd state.accepted 0) with
        descriptors := Function.update state.descriptors fd (some (.client state.accepted))
        accepted := state.accepted + 1 } serverFd := by
  have inUse : ∀ other connection, state.Placed other connection →
      ∃ slot, state.Occupies slot other connection := by
    rintro other connection (arrived | occupied)
    · rw [at_] at arrived
      cases arrived
    · exact occupied
  refine ⟨?_, ?_, ?_⟩
  · intro other named
    by_cases same : other = fd
    · simp [same] at named
    · exact accounted.listener other (by simpa [same] using named)
  · intro other connection named
    by_cases same : other = fd
    · simp only [same, Function.update_self, Option.some.injEq, Descriptor.client.injEq] at named
      rw [← named]
      exact owned.ledger.unseen _ le_rfl
    · exact accounted.unclosed other connection (by simpa [same] using named)
  · intro other connection named
    by_cases same : other = fd
    · simp only [same, Function.update_self, Option.some.injEq, Descriptor.client.injEq] at named
      rw [same, ← named]
      exact Or.inl rfl
    · rcases inUse other connection
          (accounted.placed other connection (by simpa [same] using named))
        with ⟨slot, occupied⟩
      exact Or.inr ⟨slot, occupied.isActive, occupied.fd, occupied.occupant⟩

theorem Accounted.claimFd (accounted : state.Accounted serverFd) (owned : state.Owned serverFd)
    {fd connection : ℕ} (at_ : state.reactor = .claimFd fd connection slot) :
    Accounted
      { (state.setConn slot { state.conns slot with fd := fd }).goto
          (.claimTime fd connection slot) with
        occupant := Function.update state.occupant slot connection } serverFd := by
  have knowledge := owned.knowledge
  rw [at_] at knowledge
  refine accounted.of_slots rfl rfl ?_ ?_
  · rw [at_]
    rfl
  · intro other otherFd otherConnection occupied
    have differs : other ≠ slot := by
      rintro rfl
      have active := occupied.isActive
      rw [knowledge.2] at active
      cases active
    refine ⟨?_, ?_, ?_⟩
    · simpa [ServerState.setConn, ServerState.goto, differs] using occupied.isActive
    · simpa [ServerState.setConn, ServerState.goto, differs] using occupied.fd
    · simpa [differs] using occupied.occupant

/-- The newcomer gets its slot. -/
theorem Accounted.claimActive (accounted : state.Accounted serverFd) (owned : state.Owned serverFd)
    {fd connection : ℕ} (at_ : state.reactor = .claimActive fd connection slot) :
    Accounted ((state.setConn slot { state.conns slot with isActive := true }).goto
      (.claimBusy fd connection slot)) serverFd := by
  have knowledge := owned.knowledge
  rw [at_] at knowledge
  rcases knowledge with ⟨-, -, named, occupied⟩
  refine accounted.of_frame rfl rfl ?_
  rintro other otherConnection - (arrived | ⟨otherSlot, isOccupied⟩)
  · rw [at_] at arrived
    cases arrived
    refine Or.inr ⟨slot, ?_, ?_, occupied⟩
    · simp [ServerState.setConn, ServerState.goto]
    · simpa [ServerState.setConn, ServerState.goto] using named
  · exact Or.inr ⟨otherSlot, isOccupied.of_update rfl rfl rfl fun _ => rfl⟩

/-- The reactor closes the descriptor of a slot. -/
theorem Accounted.closeSlot (accounted : state.Accounted serverFd) (owned : state.Owned serverFd)
    {place : ReactorPlace} {fd connection : ℕ}
    (delivers : state.pool.Delivers) (closes : state.AboutToClose fd connection)
    (arrival : ∀ other, other ≠ fd → ∀ connection,
      state.reactor.knows.arrival = some (other, connection) →
        place.knows.arrival = some (other, connection)) :
    Accounted ((state.closeFd fd connection).goto place) serverFd := by
  have named := ((owned.slotOwnership delivers).closesOwn fd connection closes).1
  exact accounted.close owned named rfl rfl rfl rfl arrival

/-- The reactor gives up only slots whose connection is closed. -/
theorem Owned.closed_of_reactor (owned : state.Owned serverFd)
    (closing : state.reactor.knows.closing slot = 1) :
    state.closes (state.occupant slot) ≠ 0 := by
  have active : (state.conns slot).isActive := by
    have knowledge := owned.knowledge
    generalize state.reactor.knows = known at closing knowledge
    cases known <;> simp only [Knowledge.closing, oneFor] at closing
    case expiring =>
      split_ifs at closing with same
      exact same ▸ knowledge.1
    case dropping =>
      split_ifs at closing with same
      exact same ▸ knowledge.1
    all_goals cases closing
  rw [owned.ledger.closed slot active, ServerState.closing]
  omega

theorem Accounted.reactorStep (accounted : state.Accounted serverFd) (owned : state.Owned serverFd)
    (delivers : state.pool.Delivers) {input : ReactorInput}
    (taken : state.reactorStep serverFd input = some after) : after.Accounted serverFd := by
  cases reactorMove_of_step taken with
  | goes place readFds arrival =>
      exact accounted.of_slots rfl rfl arrival fun _ _ _ occupied =>
        ⟨occupied.isActive, occupied.fd, occupied.occupant⟩
  | handsOver added arrival nobody =>
      exact accounted.of_slots rfl rfl (nobody.trans arrival.symm) fun _ _ _ occupied =>
        ⟨occupied.isActive, occupied.fd, occupied.occupant⟩
  | accepts at_ => exact accounted.accept owned at_
  | claimsFd at_ => exact accounted.claimFd owned at_
  | claimsTime at_ => exact accounted.setConn rfl rfl rfl rfl (by rw [at_]; rfl) rfl id
  | claimsActive at_ => exact accounted.claimActive owned at_
  | marks _ arrival nobody =>
      exact accounted.setConn rfl rfl rfl rfl (nobody.trans arrival.symm) rfl id
  | @givesUp slot place at_ nothing =>
      refine accounted.drop rfl rfl rfl rfl ?_ ?_
      · change place.knows.arrival = state.reactor.knows.arrival
        rw [nothing]
        rcases at_ with at_ | at_ | ⟨now, at_⟩ <;> rw [at_] <;> rfl
      · apply owned.closed_of_reactor
        rcases at_ with at_ | at_ | ⟨now, at_⟩ <;> rw [at_] <;> exact oneFor_self slot
  | rejects at_ =>
      apply accounted.closeSlot owned delivers (.reject at_)
      intro other differs _ arrived
      rw [at_] at arrived
      cases arrived
      exact absurd rfl differs
  | closes closes _ _ arrival =>
      apply accounted.closeSlot owned delivers closes
      intro other _ connection arrived
      rw [arrival] at arrived
      cases arrived

/-! ## Steps of the workers -/

variable [DecidableEq Worker]

omit [Fintype Worker] in
theorem Accounted.recvStep (accounted : state.Accounted serverFd) {result : RecvResult}
    (taken : state.recvStep worker task result = some after) : after.Accounted serverFd := by
  have proceeds : ∀ place, Accounted (state.proceed worker task place) serverFd := fun _ =>
    accounted.of_slots rfl rfl rfl fun _ _ _ occupied =>
      ⟨occupied.isActive, occupied.fd, occupied.occupant⟩
  unfold ServerState.recvStep at taken
  split at taken
  case h_2 =>
    rcases Option.map_eq_some_iff.mp taken with ⟨buffer, -, rfl⟩
    exact accounted.setConn rfl rfl rfl rfl rfl rfl id
  case h_1 | h_6 => cases taken
  all_goals
    cases taken
    exact proceeds _

theorem Accounted.taskStep (accounted : state.Accounted serverFd) (owned : state.Owned serverFd)
    (delivers : state.pool.Delivers) {routes : Dictionary RouteHandler} {arrival : Arrival}
    (taken : state.taskStep routes worker arrival = some after) : after.Accounted serverFd := by
  rw [ServerState.taskStep] at taken
  split at taken
  case h_2 => cases taken
  case h_1 task place at_ =>
    cases place <;> simp only at taken
    case recv => exact accounted.recvStep taken
    case advance =>
      rcases Option.map_eq_some_iff.mp taken with ⟨buffer, -, rfl⟩
      exact accounted.setConn rfl rfl rfl rfl rfl rfl id
    case terminate | resetLength | clearBuffer | stamp | release =>
      cases taken
      exact accounted.setConn rfl rfl rfl rfl rfl rfl id
    case frame | construct | handle | checkActive =>
      cases taken
      exact accounted.of_slots rfl rfl rfl fun _ _ _ occupied =>
        ⟨occupied.isActive, occupied.fd, occupied.occupant⟩
    case close =>
      cases taken
      have named := ((owned.slotOwnership delivers).closesOwn _ _ (.worker at_)).1
      exact accounted.close owned named rfl rfl rfl rfl fun _ _ _ arrived => arrived
    case deactivate =>
      have hand := inHand_of_work at_ (by simp)
      have handsOn := owned.handsOn hand
      cases taken
      refine accounted.drop rfl rfl rfl rfl rfl ?_
      have counted := le_total (closedHand task.conn) state.pool.workers worker
      rw [at_, closedHand_work, if_pos rfl, oneFor_self] at counted
      rw [owned.ledger.closed task.conn handsOn.isActive, ServerState.closing]
      omega
    case done => cases taken

/-! ## Runs -/

variable {routes : Dictionary RouteHandler}

theorem Accounted.step (accounted : state.Accounted serverFd) (owned : state.Owned serverFd)
    (delivers : state.pool.Delivers) {label : ServerLabel Worker}
    (taken : (serverSystem Worker routes serverFd).step label state = some after) :
    after.Accounted serverFd := by
  have ofPool : ∀ pool, Accounted { state with pool := pool } serverFd := fun _ =>
    accounted.of_slots rfl rfl rfl fun _ _ _ occupied =>
      ⟨occupied.isActive, occupied.fd, occupied.occupant⟩
  cases label with
  | reactor input => exact accounted.reactorStep owned delivers taken
  | task worker arrival => exact accounted.taskStep owned delivers taken
  | finishWork worker =>
      rcases finishWork_cases taken with ⟨-, rfl⟩
      exact ofPool _
  | worker worker =>
      rcases Option.map_eq_some_iff.mp taken with ⟨pool, -, rfl⟩
      exact ofPool pool
  | interrupt worker =>
      rcases Option.map_eq_some_iff.mp taken with ⟨pool, -, rfl⟩
      exact ofPool pool
  | addWork newNode =>
      rcases Option.map_eq_some_iff.mp taken with ⟨pool, -, rfl⟩
      exact ofPool pool

/-- In every reachable state each open connection has its place. -/
theorem accounted_of_reachable (reached : (serverSystem Worker routes serverFd).Reachable state) :
    state.Accounted serverFd := by
  refine @Transition.System.ReachableWhere.invariant _ _ _ _
    (fun state => state.Owned serverFd ∧ state.pool.Delivers)
    (fun state => state.Accounted serverFd) ?_ ?_ ?_ state reached
  · intro state reached
    exact ⟨owned_of_reachable reached, ThreadPool.delivers_of_reachable (pool_reachable reached)⟩
  · rintro state ⟨count, -, rfl⟩
    exact accounted_start serverFd count
  · intro state label after known accounted _ taken
    exact accounted.step known.1 known.2 taken

end ServerState

end LetUsConnect
