import LetUsConnect.Lib.Reception
import LetUsConnect.Server.Accounting

/-!
# The server as a reception

What becomes of a connection, read off the slots: it is at the door while the reactor
looks for a slot, served while its slot belongs to a task, and waits while the slot is
idle. Every step of the server is a move of a reception with as many seats as there are
slots, or changes nothing for any connection.
-/

namespace LetUsConnect

open Reception Threads

namespace ServerState

variable {Worker : Type} {state after : ServerState Worker} {slot : Slot} {connection : ℕ}

/-- The slot is in use for the connection. -/
def Seats (state : ServerState Worker) (slot : Slot) (connection : ℕ) : Prop :=
  (state.conns slot).isActive ∧ state.occupant slot = connection

instance (state : ServerState Worker) (slot : Slot) (connection : ℕ) :
    Decidable (state.Seats slot connection) := inferInstanceAs (Decidable (_ ∧ _))

/-- What has become of a connection. -/
def phase (state : ServerState Worker) (connection : ℕ) : Phase :=
  if state.accepted ≤ connection then .unseen
  else if state.closes connection ≠ 0 then .gone
  else if ∃ slot, state.Seats slot connection ∧ state.owned slot then .serving
  else if ∃ slot, state.Seats slot connection then .waiting
  else .arriving

def hall (state : ServerState Worker) : Hall where
  arrived := state.accepted
  phase := state.phase

/-! ## The phase of a connection -/

theorem phase_unseen (fresh : state.accepted ≤ connection) : state.phase connection = .unseen :=
  if_pos fresh

theorem phase_gone (old : connection < state.accepted) (closed : state.closes connection ≠ 0) :
    state.phase connection = .gone := by
  rw [phase, if_neg (Nat.not_le.mpr old), if_pos closed]

theorem phase_of_open (old : connection < state.accepted) (open_ : state.closes connection = 0) :
    state.phase connection =
      if ∃ slot, state.Seats slot connection ∧ state.owned slot then .serving
      else if ∃ slot, state.Seats slot connection then .waiting
      else .arriving := by
  rw [phase, if_neg (Nat.not_le.mpr old), if_neg (not_not.mpr open_)]

theorem phase_serving (slot : Slot) (old : connection < state.accepted)
    (open_ : state.closes connection = 0)
    (seats : state.Seats slot connection) (isOwned : state.owned slot) :
    state.phase connection = .serving := by
  rw [phase_of_open old open_, if_pos ⟨slot, seats, isOwned⟩]

theorem phase_waiting (old : connection < state.accepted) (open_ : state.closes connection = 0)
    (seats : state.Seats slot connection) (idle : state.owned slot = false)
    (only : ∀ other, state.Seats other connection → other = slot) :
    state.phase connection = .waiting := by
  rw [phase_of_open old open_, if_neg, if_pos ⟨slot, seats⟩]
  rintro ⟨other, otherSeats, isOwned⟩
  rw [only other otherSeats, idle] at isOwned
  cases isOwned

theorem phase_arriving (old : connection < state.accepted) (open_ : state.closes connection = 0)
    (standing : ∀ slot, ¬state.Seats slot connection) : state.phase connection = .arriving := by
  rw [phase_of_open old open_, if_neg, if_neg]
  · exact fun ⟨slot, seats⟩ => standing slot seats
  · exact fun ⟨slot, seats, _⟩ => standing slot seats

theorem seats_of_seated (seated : (state.phase connection).seated) :
    ∃ slot, state.Seats slot connection := by
  rw [phase] at seated
  split_ifs at seated with fresh closed serving waiting
  · cases seated
  · cases seated
  · exact ⟨serving.choose, serving.choose_spec.1⟩
  · exact waiting
  · cases seated

/-- A step that leaves the slots of an open connection alone. -/
theorem phase_congr (arrived : after.accepted ≤ connection ↔ state.accepted ≤ connection)
    (closes : after.closes connection = state.closes connection)
    (seats : state.closes connection = 0 → ∀ slot,
      after.Seats slot connection ↔ state.Seats slot connection)
    (isOwned : state.closes connection = 0 → ∀ slot, state.Seats slot connection →
      after.owned slot = state.owned slot) : after.phase connection = state.phase connection := by
  by_cases fresh : state.accepted ≤ connection
  · rw [phase_unseen fresh, phase_unseen (arrived.mpr fresh)]
  have old := Nat.lt_of_not_le fresh
  have oldAfter := Nat.lt_of_not_le (arrived.not.mpr fresh)
  by_cases open_ : state.closes connection = 0
  · have sameOwned : (∃ slot, after.Seats slot connection ∧ after.owned slot) ↔
        ∃ slot, state.Seats slot connection ∧ state.owned slot := by
      apply exists_congr
      intro slot
      rw [seats open_ slot]
      exact and_congr_right fun seated => by rw [isOwned open_ slot seated]
    have sameSeats : (∃ slot, after.Seats slot connection) ↔ ∃ slot, state.Seats slot connection :=
      exists_congr (seats open_)
    rw [phase_of_open old open_, phase_of_open oldAfter (closes.trans open_)]
    simp only [sameOwned, sameSeats]
  · rw [phase_gone old open_, phase_gone oldAfter (closes ▸ open_)]

theorem hall_eq (accepted : after.accepted = state.accepted)
    (phases : ∀ connection, after.phase connection = state.phase connection) :
    after.hall = state.hall := by
  rw [hall, hall, accepted, funext phases]

theorem hall_setPhase {next : Phase} (accepted : after.accepted = state.accepted)
    (here : after.phase connection = next)
    (others : ∀ other, other ≠ connection → after.phase other = state.phase other) :
    after.hall = state.hall.setPhase connection next := by
  have phases : after.phase = Function.update state.phase connection next := by
    funext other
    by_cases same : other = connection
    · rw [same, here, Function.update_self]
    · rw [others other same, Function.update_of_ne same]
  rw [hall, phases, accepted]
  rfl

/-! ## What a step does to the connections -/

/-- What a step makes of the hall and of the connection at the door. -/
inductive HallMove (state after : ServerState Worker) : Prop where
  | stays (hall : after.hall = state.hall)
      (door : after.reactor.knows.arrival = state.reactor.knows.arrival)
  | arrives {fd : ℕ} (hall : after.hall = state.hall.welcome)
      (doorBefore : state.reactor.knows.arrival = none)
      (door : after.reactor.knows.arrival = some (fd, state.accepted))
  | leavesDoor {fd connection : ℕ} {next : Phase}
      (at_ : state.phase connection = .arriving)
      (doorBefore : state.reactor.knows.arrival = some (fd, connection))
      (goes : next = .gone ∨ next = .serving ∧ ∃ slot, (state.conns slot).isActive = false)
      (hall : after.hall = state.hall.setPhase connection next)
  | turns {connection : ℕ} {next : Phase} (at_ : (state.phase connection).seated)
      (goes : next = .gone ∨ next.seated ∧ next ≠ state.phase connection)
      (hall : after.hall = state.hall.setPhase connection next)
      (door : after.reactor.knows.arrival = state.reactor.knows.arrival)

variable {serverFd : ℕ} {worker : Worker} {task : ClientTask}
  {input : ReactorInput}

/-- Whose phase only depends on what both states have in common. -/
theorem hall_of_same (same : state.SameSlots after)
    (claims : ∀ slot, after.reactor.knows.claims slot = state.reactor.knows.claims slot) :
    after.hall = state.hall := by
  apply hall_eq same.accepted
  intro connection
  apply phase_congr
  · rw [same.accepted]
  · rw [same.closes]
  · intro _ slot
    rw [Seats, Seats, same.isActive, same.occupant]
  · intro _ slot _
    rw [ServerState.owned, ServerState.owned, same.isActive, same.isBusy, claims]

/-- Only while a slot is being claimed is it in use without being marked busy. -/
theorem claims_of_reactorStep (taken : state.reactorStep serverFd input = some after) :
    (∃ fd connection slot, state.reactor = .claimActive fd connection slot) ∨
      (∃ fd connection slot, state.reactor = .claimBusy fd connection slot) ∨
      ∀ slot, after.reactor.knows.claims slot = false ∧
        state.reactor.knows.claims slot = false := by
  cases at_ : state.reactor <;> simp only [ServerState.reactorStep, at_] at taken
  case claimActive => exact Or.inl ⟨_, _, _, rfl⟩
  case claimBusy => exact Or.inr (Or.inl ⟨_, _, _, rfl⟩)
  all_goals refine Or.inr (Or.inr fun slot => ⟨?_, rfl⟩)
  case scan | ready | timeout =>
    cases taken
    rw [ServerState.visit]
    split
    · rfl
    · split_ifs <;> rfl
  case scanBusy | readyBusy | readyIsSet | timeoutBusy | timeoutAge =>
    cases taken
    simp only [ServerState.goto]
    split_ifs <;> rfl
  case select =>
    split at taken
    · cases taken
      rfl
    · split_ifs at taken <;> cases taken <;> rfl
  case accept =>
    split at taken
    · cases taken
      rfl
    · split_ifs at taken
      cases taken
      rfl
  case claim =>
    split at taken
    · cases taken
      rfl
    · cases taken
      simp only [ServerState.goto]
      split_ifs <;> rfl
  case prepare | readyPrepare =>
    split_ifs at taken
    · rcases Option.map_eq_some_iff.mp taken with ⟨pool, -, rfl⟩
      rfl
    · cases taken
      rfl
  case submit | readySubmit =>
    unfold ServerState.addWorkReturned at taken
    split at taken <;> cases taken
    simp only [ServerState.goto]
    split_ifs <;> rfl
  case stopped => cases taken
  all_goals
    cases taken
    rfl

/-- A step at one slot does not show for a connection that slot is not in use for. -/
theorem phase_of_elsewhere (slot : Slot)
    (others : ∀ other, other ≠ slot → after.conns other = state.conns other ∧
      after.occupant other = state.occupant other ∧
      after.reactor.knows.claims other = state.reactor.knows.claims other)
    (accepted : after.accepted = state.accepted)
    (closes : after.closes connection = state.closes connection)
    (notHere : state.closes connection = 0 → ¬state.Seats slot connection)
    (notThere : state.closes connection = 0 → ¬after.Seats slot connection) :
    after.phase connection = state.phase connection := by
  apply phase_congr (by rw [accepted]) closes
  · intro open_ other
    by_cases here : other = slot
    · subst here
      exact iff_of_false (notThere open_) (notHere open_)
    · rw [Seats, Seats, (others other here).1, (others other here).2.1]
  · intro open_ other seats
    have elsewhere : other ≠ slot := by
      rintro rfl
      exact notHere open_ seats
    rw [ServerState.owned, ServerState.owned, (others other elsewhere).1,
      (others other elsewhere).2.2]

variable [Fintype Worker]

theorem Owned.only_seats (owned : state.Owned serverFd) (seats : state.Seats slot connection)
    (other : Slot) (otherSeats : state.Seats other connection) : other = slot :=
  owned.ledger.distinct other slot otherSeats.1 seats.1 (otherSeats.2.trans seats.2.symm)

omit [Fintype Worker] in
theorem Held.phase_eq {fd : ℕ} (held : state.Held fd connection) :
    state.phase connection = .arriving :=
  phase_arriving held.old held.unclosed fun slot seats => held.apart slot seats.1 seats.2

theorem Owned.seated_of_seats (owned : state.Owned serverFd) (seats : state.Seats slot connection)
    (open_ : state.closes connection = 0) :
    state.phase connection = if state.owned slot then .serving else .waiting := by
  have old : connection < state.accepted := by
    rw [← seats.2]
    exact owned.ledger.old slot seats.1
  cases isOwned : state.owned slot with
  | true => exact phase_serving slot old open_ seats isOwned
  | false => exact phase_waiting old open_ seats isOwned (owned.only_seats seats)

/-! ### Steps of the reactor -/

theorem Owned.hall_accept (owned : state.Owned serverFd) {fd : ℕ} (at_ : state.reactor = .accept)
    (isAfter : after = { state.goto (.claim fd state.accepted 0) with
      descriptors := Function.update state.descriptors fd (some (.client state.accepted))
      accepted := state.accepted + 1 }) : state.HallMove after := by
  have sameOwned : ∀ slot, after.owned slot = state.owned slot := by
    intro slot
    rw [isAfter, ServerState.owned, ServerState.owned, at_]
    rfl
  have sameSeats :
      ∀ slot connection, after.Seats slot connection ↔ state.Seats slot connection := by
    intro slot connection
    rw [isAfter]
    rfl
  refine @HallMove.arrives _ _ _ fd ?_ (by rw [at_]; rfl) (by rw [isAfter]; rfl)
  have phases : after.phase = state.hall.welcome.phase := by
    funext connection
    by_cases isNew : connection = state.accepted
    · subst isNew
      rw [show state.accepted = state.hall.arrived from rfl, Hall.phase_welcome_self]
      apply phase_arriving
      · rw [isAfter]
        exact Nat.lt_succ_self _
      · rw [isAfter]
        exact owned.ledger.unseen _ le_rfl
      · intro slot seats
        have seatsBefore := (sameSeats slot _).mp seats
        have old := owned.ledger.old slot seatsBefore.1
        rw [seatsBefore.2] at old
        exact absurd old (lt_irrefl _)
    · rw [Hall.phase_welcome_of_ne isNew]
      refine phase_congr ?_ (by rw [isAfter]; rfl) (fun _ slot => sameSeats slot _)
        (fun _ slot _ => sameOwned slot)
      rw [isAfter]
      dsimp only [ServerState.goto]
      omega
  rw [hall, phases, isAfter]
  rfl

theorem Owned.hall_claimFd (owned : state.Owned serverFd) {fd : ℕ}
    (at_ : state.reactor = .claimFd fd connection slot)
    (isAfter : after = { (state.setConn slot { state.conns slot with fd := fd }).goto
        (.claimTime fd connection slot) with
      occupant := Function.update state.occupant slot connection }) : state.HallMove after := by
  have knowledge := owned.knowledge
  rw [at_] at knowledge
  have unused : (state.conns slot).isActive = false := knowledge.2
  have unusedAfter : (after.conns slot).isActive = false := by
    rw [isAfter]
    simpa [ServerState.setConn, ServerState.goto] using unused
  refine .stays (hall_eq (by rw [isAfter]; rfl) fun other => ?_) (by rw [isAfter, at_]; rfl)
  apply phase_of_elsewhere slot
  · intro elsewhere differs
    rw [isAfter, at_]
    exact ⟨Function.update_of_ne differs _ _, Function.update_of_ne differs _ _, rfl⟩
  · rw [isAfter]
    rfl
  · rw [isAfter]
    rfl
  · intro _ seats
    rw [seats.1] at unused
    cases unused
  · intro _ seats
    rw [seats.1] at unusedAfter
    cases unusedAfter

theorem Owned.hall_claimActive (owned : state.Owned serverFd) {fd : ℕ}
    (at_ : state.reactor = .claimActive fd connection slot)
    (isAfter : after = (state.setConn slot { state.conns slot with isActive := true }).goto
      (.claimBusy fd connection slot)) : state.HallMove after := by
  have knowledge := owned.knowledge
  rw [at_] at knowledge
  rcases knowledge with ⟨held, unused, -, occupied⟩
  have seatsAfter : after.Seats slot connection := by
    rw [isAfter]
    refine ⟨?_, occupied⟩
    simp [ServerState.setConn, ServerState.goto]
  refine .leavesDoor held.phase_eq (by rw [at_]; rfl) (.inr ⟨rfl, slot, unused⟩)
    (hall_setPhase (by rw [isAfter]; rfl) ?_ ?_)
  · apply phase_serving slot
    · rw [isAfter]
      exact held.old
    · rw [isAfter]
      exact held.unclosed
    · exact seatsAfter
    · rw [ServerState.owned, seatsAfter.1, isAfter]
      simp [ServerState.goto, ReactorPlace.knows, Knowledge.claims]
  · intro other differs
    apply phase_of_elsewhere slot
    · intro elsewhere notHere
      rw [isAfter, at_]
      refine ⟨Function.update_of_ne notHere _ _, rfl, ?_⟩
      simp [ServerState.goto, ReactorPlace.knows, Knowledge.claims, Ne.symm notHere]
    · rw [isAfter]
      rfl
    · rw [isAfter]
      rfl
    · intro _ seats
      rw [seats.1] at unused
      cases unused
    · intro _ seats
      exact differs (seats.2.symm.trans seatsAfter.2)

/-- `is_busy` is written to a slot that is not being claimed. -/
theorem Owned.hall_setBusy (owned : state.Owned serverFd) {conn : ClientConnection}
    (conns : after.conns = Function.update state.conns slot conn)
    (isActive : conn.isActive = (state.conns slot).isActive)
    (changed : conn.isBusy ≠ (state.conns slot).isBusy)
    (occupant : after.occupant = state.occupant) (accepted : after.accepted = state.accepted)
    (closes : after.closes = state.closes)
    (claims : ∀ other, after.reactor.knows.claims other = state.reactor.knows.claims other)
    (unclaimed : state.reactor.knows.claims slot = false)
    (door : after.reactor.knows.arrival = state.reactor.knows.arrival) :
    state.HallMove after := by
  have here : after.conns slot = conn := by rw [conns, Function.update_self]
  have sameActive : ∀ other, (after.conns other).isActive = (state.conns other).isActive :=
    fun other => conns ▸ see_update (·.isActive) isActive other
  have sameSeats : ∀ other connection, after.Seats other connection ↔
      state.Seats other connection := by
    intro other connection
    rw [Seats, Seats, occupant, sameActive]
  have elsewhere : ∀ connection, (state.closes connection = 0 → ¬state.Seats slot connection) →
      after.phase connection = state.phase connection := by
    intro connection notHere
    refine phase_of_elsewhere slot ?_ accepted (by rw [closes]) notHere
      fun open_ seats => notHere open_ ((sameSeats slot connection).mp seats)
    intro other differs
    exact ⟨by rw [conns, Function.update_of_ne differs], by rw [occupant], claims other⟩
  by_cases inUse : (state.conns slot).isActive ∧ state.closes (state.occupant slot) = 0
  · rcases inUse with ⟨active, open_⟩
    have seats : state.Seats slot (state.occupant slot) := ⟨active, rfl⟩
    have before := owned.seated_of_seats seats open_
    have ownedBefore : state.owned slot = (state.conns slot).isBusy := by
      rw [ServerState.owned, active, unclaimed, Bool.or_false, Bool.true_and]
    have ownedAfter : after.owned slot = conn.isBusy := by
      rw [ServerState.owned, claims, unclaimed, Bool.or_false, sameActive, active, here,
        Bool.true_and]
    have old : state.occupant slot < after.accepted := accepted ▸ owned.ledger.old slot active
    have openAfter : after.closes (state.occupant slot) = 0 := by rw [closes, open_]
    have others : ∀ other, other ≠ state.occupant slot → after.phase other = state.phase other :=
      fun other differs => elsewhere other fun _ seatsOther => differs seatsOther.2.symm
    rw [ownedBefore] at before
    cases busy : conn.isBusy with
    | true =>
        rw [busy] at changed ownedAfter
        rw [if_neg (Ne.symm changed)] at before
        have served := phase_serving slot old openAfter ((sameSeats slot _).mpr seats) ownedAfter
        refine .turns ?_ (.inr ⟨rfl, ?_⟩) (hall_setPhase accepted served others) door
        · rw [before]
          rfl
        · rw [before]
          rintro ⟨⟩
    | false =>
        rw [busy] at changed ownedAfter
        rw [if_pos (Bool.eq_true_of_not_eq_false (Ne.symm changed))] at before
        have waits := phase_waiting old openAfter ((sameSeats slot _).mpr seats) ownedAfter
          fun other otherSeats => owned.only_seats seats other ((sameSeats other _).mp otherSeats)
        refine .turns ?_ (.inr ⟨rfl, ?_⟩) (hall_setPhase accepted waits others) door
        · rw [before]
          rfl
        · rw [before]
          rintro ⟨⟩
  · refine .stays (hall_eq accepted fun connection => elsewhere connection ?_) door
    rintro open_ ⟨active, rfl⟩
    exact inUse ⟨active, open_⟩

theorem Owned.hall_claimBusy (owned : state.Owned serverFd) {fd : ℕ}
    (at_ : state.reactor = .claimBusy fd connection slot)
    (isAfter : after = (state.setConn slot { state.conns slot with isBusy := true }).goto
      (.prepare fd connection slot)) : state.HallMove after := by
  have knowledge := owned.knowledge
  rw [at_] at knowledge
  have conns : after.conns =
      Function.update state.conns slot { state.conns slot with isBusy := true } := by
    rw [isAfter]
    rfl
  have sameActive : ∀ other, (after.conns other).isActive = (state.conns other).isActive := by
    intro other
    by_cases here : other = slot
    · rw [conns, here, Function.update_self]
    · rw [conns, Function.update_of_ne here]
  refine .stays (hall_eq (by rw [isAfter]; rfl) fun other => ?_) (by rw [isAfter, at_]; rfl)
  apply phase_congr
  · rw [isAfter]
    rfl
  · rw [isAfter]
    rfl
  · intro _ elsewhere
    rw [Seats, Seats, sameActive, isAfter]
    rfl
  · intro _ elsewhere _
    rw [ServerState.owned, ServerState.owned, sameActive, isAfter, at_]
    by_cases here : elsewhere = slot
    · simp [here, ServerState.goto, ServerState.setConn, ReactorPlace.knows, Knowledge.claims]
    · simp [here, Ne.symm here, ServerState.goto, ServerState.setConn, ReactorPlace.knows,
        Knowledge.claims]

omit [Fintype Worker] in
/-- A slot is given up whose connection is closed already. -/
theorem hall_drop {conn : ClientConnection}
    (conns : after.conns = Function.update state.conns slot conn)
    (dropped : conn.isActive = false)
    (closed : state.closes (state.occupant slot) ≠ 0)
    (occupant : after.occupant = state.occupant) (accepted : after.accepted = state.accepted)
    (closes : after.closes = state.closes)
    (claims : ∀ other, after.reactor.knows.claims other = state.reactor.knows.claims other)
    (door : after.reactor.knows.arrival = state.reactor.knows.arrival) :
    state.HallMove after := by
  refine .stays (hall_eq accepted fun connection => ?_) door
  apply phase_of_elsewhere slot
  · intro other differs
    exact ⟨by rw [conns, Function.update_of_ne differs], by rw [occupant], claims other⟩
  · exact accepted
  · rw [closes]
  · rintro open_ ⟨-, rfl⟩
    exact closed open_
  · rintro - ⟨active, -⟩
    rw [conns, Function.update_self, dropped] at active
    cases active

omit [Fintype Worker] in
/-- A descriptor is closed for a connection. -/
theorem phase_of_close (conns : after.conns = state.conns)
    (occupant : after.occupant = state.occupant)
    (accepted : after.accepted = state.accepted)
    (closes : after.closes = Function.update state.closes connection (state.closes connection + 1))
    (claims : ∀ other, after.reactor.knows.claims other = state.reactor.knows.claims other)
    (old : connection < state.accepted) :
    after.hall = state.hall.setPhase connection .gone := by
  apply hall_setPhase accepted
  · apply phase_gone (accepted ▸ old)
    rw [closes, Function.update_self]
    exact Nat.succ_ne_zero _
  · intro other differs
    apply phase_congr
    · rw [accepted]
    · rw [closes, Function.update_of_ne differs]
    · intro _ slot
      rw [Seats, Seats, conns, occupant]
    · intro _ slot _
      rw [ServerState.owned, ServerState.owned, conns, claims]

theorem Owned.hall_reactorStep (owned : state.Owned serverFd) (delivers : state.pool.Delivers)
    (taken : state.reactorStep serverFd input = some after) : state.HallMove after := by
  rcases claims_of_reactorStep taken with
    ⟨fd, connection, slot, at_⟩ | ⟨fd, connection, slot, at_⟩ | unclaimed
  · simp only [ServerState.reactorStep, at_] at taken
    exact owned.hall_claimActive at_ (Option.some.inj taken).symm
  · simp only [ServerState.reactorStep, at_] at taken
    exact owned.hall_claimBusy at_ (Option.some.inj taken).symm
  have claims : ∀ other, after.reactor.knows.claims other = state.reactor.knows.claims other :=
    fun other => (unclaimed other).1.trans (unclaimed other).2.symm
  cases reactorMove_of_step taken with
  | goes place readFds arrival =>
      exact .stays (hall_of_same ⟨fun _ => rfl, fun _ => rfl, fun _ => rfl, rfl, rfl, rfl, rfl⟩
        claims) arrival
  | handsOver added arrival nobody =>
      exact .stays (hall_of_same ⟨fun _ => rfl, fun _ => rfl, fun _ => rfl, rfl, rfl, rfl, rfl⟩
        claims) (nobody.trans arrival.symm)
  | accepts at_ => exact owned.hall_accept at_ rfl
  | claimsFd at_ => exact owned.hall_claimFd at_ rfl
  | claimsTime at_ =>
      exact .stays (hall_of_same (sameSlots_of_update rfl rfl rfl rfl rfl rfl rfl rfl) claims)
        (by rw [at_]; rfl)
  | claimsActive at_ => exact owned.hall_claimActive at_ rfl
  | @marks slot place subject arrival nobody =>
      by_cases busy : (state.conns slot).isBusy
      · exact .stays (hall_of_same
          (sameSlots_of_update rfl rfl rfl busy.symm rfl rfl rfl rfl) claims)
          (nobody.trans arrival.symm)
      · exact owned.hall_setBusy rfl rfl (Ne.symm busy) rfl rfl rfl claims (unclaimed slot).2
          (nobody.trans arrival.symm)
  | @givesUp slot place at_ nothing =>
      refine hall_drop rfl rfl ?_ rfl rfl rfl claims ?_
      · apply owned.closed_of_reactor
        rcases at_ with at_ | at_ | ⟨now, at_⟩ <;> rw [at_] <;> exact oneFor_self slot
      · change place.knows.arrival = state.reactor.knows.arrival
        rw [nothing]
        rcases at_ with at_ | at_ | ⟨now, at_⟩ <;> rw [at_] <;> rfl
  | @rejects fd connection at_ =>
      have knowledge := owned.knowledge
      rw [at_] at knowledge
      exact .leavesDoor (Held.phase_eq knowledge) (by rw [at_]; rfl) (.inl rfl)
        (phase_of_close rfl rfl rfl rfl claims knowledge.old)
  | @closes fd connection slot place closes subject holds arrival nobody =>
      rcases owned.occupied_of_closes holds with ⟨active, rfl⟩
      have open_ := ((owned.slotOwnership delivers).closesOwn _ _ closes).2
      refine .turns ?_ (.inl rfl) (phase_of_close rfl rfl rfl rfl claims
        (owned.ledger.old slot active)) (nobody.trans arrival.symm)
      rw [owned.seated_of_seats ⟨active, rfl⟩ open_]
      split_ifs <;> rfl

/-! ### Steps of the workers -/

variable [DecidableEq Worker]

/-- What a step of a worker may make of the slots. -/
inductive TaskMove (state after : ServerState Worker) (worker : Worker) (task : ClientTask) :
    Prop where
  | works (same : state.SameSlots after)
  | releases (at_ : state.pool.workers worker = .work (some task) .release)
      (isAfter : after = (state.setConn task.conn
        { state.conns task.conn with isBusy := false }).proceed worker task .done)
  | closes (at_ : state.pool.workers worker = .work (some task) .close)
      (isAfter : after = (state.closeFd task.clientFd task.connection).proceed worker task
        .deactivate)
  | deactivates (at_ : state.pool.workers worker = .work (some task) .deactivate)
      (isAfter : after = (state.setConn task.conn
        { state.conns task.conn with isActive := false }).proceed worker task .done)

variable {routes : Dictionary RouteHandler} {arrival : Arrival}

omit [Fintype Worker] in
theorem taskMove_of_step {place : TaskPlace}
    (at_ : state.pool.workers worker = .work (some task) place)
    (taken : state.taskStep routes worker arrival = some after) :
    state.TaskMove after worker task := by
  simp only [ServerState.taskStep, at_] at taken
  cases place <;> simp only at taken
  case recv =>
    unfold ServerState.recvStep at taken
    split at taken
    case h_2 =>
      rcases Option.map_eq_some_iff.mp taken with ⟨buffer, -, rfl⟩
      exact .works (sameSlots_of_update rfl rfl rfl rfl rfl rfl rfl rfl)
    case h_1 | h_6 => cases taken
    all_goals
      cases taken
      exact .works ⟨fun _ => rfl, fun _ => rfl, fun _ => rfl, rfl, rfl, rfl, rfl⟩
  case advance =>
    rcases Option.map_eq_some_iff.mp taken with ⟨buffer, -, rfl⟩
    exact .works (sameSlots_of_update rfl rfl rfl rfl rfl rfl rfl rfl)
  case terminate | resetLength | clearBuffer | stamp =>
    cases taken
    exact .works (sameSlots_of_update rfl rfl rfl rfl rfl rfl rfl rfl)
  case frame | construct | handle | checkActive =>
    cases taken
    exact .works ⟨fun _ => rfl, fun _ => rfl, fun _ => rfl, rfl, rfl, rfl, rfl⟩
  case release => exact .releases at_ (Option.some.inj taken).symm
  case close => exact .closes at_ (Option.some.inj taken).symm
  case deactivate => exact .deactivates at_ (Option.some.inj taken).symm
  case done => cases taken

omit [Fintype Worker] in
theorem reactor_of_taskStep (taken : state.taskStep routes worker arrival = some after) :
    after.reactor = state.reactor := by
  rw [ServerState.taskStep] at taken
  split at taken
  case h_2 => cases taken
  case h_1 task place at_ =>
    cases place <;> simp only at taken
    case recv =>
      unfold ServerState.recvStep at taken
      split at taken
      case h_2 =>
        rcases Option.map_eq_some_iff.mp taken with ⟨buffer, -, rfl⟩
        rfl
      case h_1 | h_6 => cases taken
      all_goals
        cases taken
        rfl
    case advance =>
      rcases Option.map_eq_some_iff.mp taken with ⟨buffer, -, rfl⟩
      rfl
    case done => cases taken
    all_goals
      cases taken
      rfl

omit [DecidableEq Worker] in
/-- A connection whose descriptor a worker has closed is closed. -/
theorem Owned.closed_of_worker (owned : state.Owned serverFd)
    (at_ : state.pool.workers worker = .work (some task) .deactivate) :
    state.closes (state.occupant task.conn) ≠ 0 := by
  have handsOn := owned.handsOn (inHand_of_work at_ (by simp))
  have counted := le_total (closedHand task.conn) state.pool.workers worker
  rw [at_, closedHand_work, if_pos rfl, oneFor_self] at counted
  rw [owned.ledger.closed task.conn handsOn.isActive, ServerState.closing]
  omega

theorem Owned.hall_taskStep (owned : state.Owned serverFd)
    (taken : state.taskStep routes worker arrival = some after) : state.HallMove after := by
  rcases taskStep_pool taken with ⟨task, place, placeAfter, at_, -⟩
  have reactor := reactor_of_taskStep taken
  have claims : ∀ other, after.reactor.knows.claims other = state.reactor.knows.claims other :=
    fun other => by rw [reactor]
  have door : after.reactor.knows.arrival = state.reactor.knows.arrival := by rw [reactor]
  cases taskMove_of_step at_ taken with
  | works same => exact .stays (hall_of_same same claims) door
  | releases at_ isAfter =>
      have handsOn := owned.handsOn (inHand_of_work at_ (by simp))
      subst isAfter
      exact owned.hall_setBusy rfl rfl (by simp [handsOn.isBusy]) rfl rfl rfl claims
        handsOn.unclaimed door
  | closes at_ isAfter =>
      have hand := inHand_of_work at_ (by simp)
      have active := (owned.handsOn hand).isActive
      have occupied := (owned.tasks task (Or.inr (Or.inr ⟨worker, hand⟩))).2
      have open_ := (owned.named_of_hand hand (by rw [at_]; simp)).2
      subst isAfter
      refine .turns ?_ (.inl rfl) (phase_of_close rfl rfl rfl rfl
        claims ?_) door
      · rw [owned.seated_of_seats ⟨active, occupied⟩ open_]
        split_ifs <;> rfl
      · rw [← occupied]
        exact owned.ledger.old task.conn active
  | deactivates at_ isAfter =>
      have closed := owned.closed_of_worker at_
      subst isAfter
      exact hall_drop rfl rfl closed rfl rfl rfl claims door

theorem Owned.hallMove_of_step (owned : state.Owned serverFd) (delivers : state.pool.Delivers)
    {label : ServerLabel Worker}
    (taken : (serverSystem Worker routes serverFd).step label state = some after) :
    state.HallMove after := by
  cases label with
  | reactor input => exact owned.hall_reactorStep delivers taken
  | task worker arrival => exact owned.hall_taskStep taken
  | finishWork worker =>
      rcases finishWork_cases taken with ⟨-, rfl⟩
      exact .stays rfl rfl
  | worker worker =>
      rcases Option.map_eq_some_iff.mp taken with ⟨pool, -, rfl⟩
      exact .stays rfl rfl
  | interrupt worker =>
      rcases Option.map_eq_some_iff.mp taken with ⟨pool, -, rfl⟩
      exact .stays rfl rfl
  | addWork newNode =>
      rcases Option.map_eq_some_iff.mp taken with ⟨pool, -, rfl⟩
      exact .stays rfl rfl

/-! ## The server is a reception -/

/-- The connections at the door are the one the reactor has just accepted. -/
def AtDoor (state : ServerState Worker) : Prop :=
  ∀ connection, state.phase connection = .arriving →
    ∃ fd, state.reactor.knows.arrival = some (fd, connection)

omit [Fintype Worker] [DecidableEq Worker] in
theorem AtDoor.step (atDoor : state.AtDoor) (moves : state.HallMove after) : after.AtDoor := by
  intro other arriving
  cases moves with
  | stays hall door =>
      rw [door]
      apply atDoor
      rw [← arriving]
      exact (congrFun (congrArg Hall.phase hall) other).symm
  | @arrives fd hall doorBefore door =>
      have phase : after.phase other = state.hall.welcome.phase other :=
        congrFun (congrArg Hall.phase hall) other
      by_cases isNew : other = state.accepted
      · exact ⟨fd, by rw [door, isNew]⟩
      · rw [Hall.phase_welcome_of_ne isNew, arriving] at phase
        rcases atDoor other phase.symm with ⟨fd, some_⟩
        rw [doorBefore] at some_
        cases some_
  | @leavesDoor fd connection next at_ doorBefore goes hall =>
      have phase : after.phase other = (state.hall.setPhase connection next).phase other :=
        congrFun (congrArg Hall.phase hall) other
      by_cases same : other = connection
      · rw [same, Hall.phase_setPhase_self, ← same, arriving] at phase
        rcases goes with rfl | ⟨rfl, -⟩ <;> cases phase
      · rw [Hall.phase_setPhase_of_ne same, arriving] at phase
        rcases atDoor other phase.symm with ⟨otherFd, some_⟩
        rw [doorBefore, Option.some.injEq, Prod.mk.injEq] at some_
        exact absurd some_.2.symm same
  | @turns connection next at_ goes hall door =>
      have phase : after.phase other = (state.hall.setPhase connection next).phase other :=
        congrFun (congrArg Hall.phase hall) other
      by_cases same : other = connection
      · rw [same, Hall.phase_setPhase_self, ← same, arriving] at phase
        rcases goes with rfl | ⟨seated, -⟩
        · cases phase
        · rw [← phase] at seated
          cases seated
      · rw [Hall.phase_setPhase_of_ne same, arriving] at phase
        rw [door]
        exact atDoor other phase.symm

omit [Fintype Worker] [DecidableEq Worker] in
/-- A slot that is not in use leaves room for one more connection. -/
theorem seats_card_lt (unused : (state.conns slot).isActive = false) :
    state.hall.seats.card < maxConns := by
  let seatOf : ℕ → Slot := fun connection =>
    if seated : ∃ slot, state.Seats slot connection then seated.choose else slot
  have isSeat : ∀ connection ∈ state.hall.seats, state.Seats (seatOf connection) connection := by
    intro connection member
    have seated := seats_of_seated (Hall.mem_seats.mp member).2
    simp only [seatOf, dif_pos seated]
    exact seated.choose_spec
  have within : ∀ connection ∈ state.hall.seats, seatOf connection ∈ Finset.univ.erase slot := by
    intro connection member
    apply Finset.mem_erase.mpr ⟨_, Finset.mem_univ _⟩
    intro same
    have active := (isSeat connection member).1
    rw [same, unused] at active
    cases active
  have apart : Set.InjOn seatOf state.hall.seats := by
    intro first member second otherMember same
    rw [← (isSeat first member).2, ← (isSeat second otherMember).2, same]
  calc state.hall.seats.card ≤ (Finset.univ.erase slot).card :=
        Finset.card_le_card_of_injOn seatOf within apart
    _ < maxConns := by
        rw [Finset.card_erase_of_mem (Finset.mem_univ slot), Finset.card_fin]
        exact Nat.sub_lt (by decide) (by decide)

omit [Fintype Worker] [DecidableEq Worker] in
theorem AtDoor.doorFree (atDoor : state.AtDoor) (free : state.reactor.knows.arrival = none) :
    state.hall.DoorFree := by
  intro visitor _ arriving
  rcases atDoor visitor arriving with ⟨fd, some_⟩
  rw [free] at some_
  cases some_

omit [Fintype Worker] [DecidableEq Worker] in
/-- A step of the server is a move of the reception or shows for no connection. -/
theorem HallMove.simulates (moves : state.HallMove after) (atDoor : state.AtDoor) :
    after.hall = state.hall ∨
      ∃ move, (Reception.system maxConns).step move state.hall = some after.hall := by
  cases moves with
  | stays hall => exact Or.inl hall
  | arrives hall doorBefore =>
      refine Or.inr ⟨.arrive, ?_⟩
      rw [hall]
      exact if_pos (atDoor.doorFree doorBefore)
  | @leavesDoor fd connection next at_ doorBefore goes hall =>
      rw [hall]
      rcases goes with rfl | ⟨rfl, slot, unused⟩
      · exact Or.inr ⟨.refuse connection, if_pos at_⟩
      · refine Or.inr ⟨.seat connection, ?_⟩
        exact (if_pos (seats_card_lt unused)).trans (if_pos at_)
  | @turns connection next at_ goes hall =>
      refine Or.inr ?_
      rw [hall]
      rcases Phase.seated_cases at_ with before | before
      · rcases goes with rfl | ⟨seated, differs⟩
        · exact ⟨.finish connection, if_pos before⟩
        · rcases Phase.seated_cases seated with rfl | rfl
          · exact absurd before.symm differs
          · exact ⟨.rest connection, if_pos before⟩
      · rcases goes with rfl | ⟨seated, differs⟩
        · exact ⟨.expire connection, if_pos before⟩
        · rcases Phase.seated_cases seated with rfl | rfl
          · exact ⟨.call connection, if_pos before⟩
          · exact absurd before.symm differs

theorem atDoor_of_reachable (reached : (serverSystem Worker routes serverFd).Reachable state) :
    state.AtDoor := by
  refine @Transition.System.ReachableWhere.invariant _ _ _ _
    (fun state => state.Owned serverFd ∧ state.pool.Delivers) AtDoor ?_ ?_ ?_ state reached
  · intro state reached
    exact ⟨owned_of_reachable reached, ThreadPool.delivers_of_reachable (pool_reachable reached)⟩
  · rintro state ⟨count, -, rfl⟩ connection arriving
    rw [phase_unseen (Nat.zero_le _)] at arriving
    cases arriving
  · intro state label after known atDoor _ taken
    exact atDoor.step (known.1.hallMove_of_step known.2 taken)

theorem simulates_of_step (reached : (serverSystem Worker routes serverFd).Reachable state)
    {label : ServerLabel Worker}
    (taken : (serverSystem Worker routes serverFd).step label state = some after) :
    after.hall = state.hall ∨
      ∃ move, (Reception.system maxConns).step move state.hall = some after.hall :=
  ((owned_of_reachable reached).hallMove_of_step
    (ThreadPool.delivers_of_reachable (pool_reachable reached)) taken).simulates
    (atDoor_of_reachable reached)

omit [Fintype Worker] [DecidableEq Worker] in
theorem hall_serverStart (serverFd count : ℕ) :
    (serverStart serverFd count : ServerState Worker).hall = .empty := by
  have phases : (serverStart serverFd count : ServerState Worker).phase = fun _ => .unseen :=
    funext fun connection => phase_unseen (Nat.zero_le connection)
  rw [hall, phases]
  rfl

theorem hall_reachable (reached : (serverSystem Worker routes serverFd).Reachable state) :
    (Reception.system maxConns).Reachable state.hall := by
  refine Transition.System.Reachable.projectKnown (fun _ reached => reached) ServerState.hall ?_
    ?_ reached
  · rintro state ⟨count, -, rfl⟩
    exact hall_serverStart serverFd count
  · intro state label after reached taken
    exact simulates_of_step reached taken

/--
Seen from the connections, every run of the server is a run of a reception: it has no
more seats than slots, at most one connection is at its door, and each goes from one
phase to the next and never back.
-/
theorem reception_of_run (reached : (serverSystem Worker routes serverFd).Reachable state)
    {labels : List (ServerLabel Worker)}
    (ran : (serverSystem Worker routes serverFd).run labels state = some after) :
    (Reception.system maxConns).Reachable state.hall ∧ state.hall.Sound maxConns ∧
      (∃ moves, (Reception.system maxConns).run moves state.hall = some after.hall ∧
        moves.length ≤ labels.length) ∧
      ∀ connection, (state.phase connection).rank ≤ (after.phase connection).rank := by
  have sound := Hall.sound_of_reachable (hall_reachable reached)
  rcases Transition.System.Reachable.run_project (fun _ reached => reached) ServerState.hall
    (fun _ _ _ reached taken => simulates_of_step reached taken) reached ran with
    ⟨moves, hallRan, few⟩
  exact ⟨hall_reachable reached, sound, ⟨moves, hallRan, few⟩,
    fun connection => sound.rank_le_of_run hallRan connection⟩

/-- The connection accepted in this run is served at its end. -/
theorem claimRun_reception :
    ∃ state, (serverSystem Unit dictionaryConstructor 3).run claimRun (serverStart 3 0) =
        some state ∧
      state.phase 0 = .serving ∧
      ∃ moves, (Reception.system maxConns).run moves (serverStart 3 0 : ServerState Unit).hall =
          some state.hall ∧
        moves.length ≤ claimRun.length := by
  have initially : (serverSystem Unit dictionaryConstructor 3).initial (serverStart 3 0) :=
    ⟨0, by decide, rfl⟩
  have served : ((serverSystem Unit dictionaryConstructor 3).run claimRun (serverStart 3 0)).map
      (fun state => state.phase 0) = some .serving := by decide +kernel
  rcases Option.map_eq_some_iff.mp served with ⟨state, ran, phase⟩
  exact ⟨state, ran, phase, (reception_of_run (.start initially) ran).2.2.1⟩

end ServerState

end LetUsConnect
