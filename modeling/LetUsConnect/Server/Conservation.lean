import LetUsConnect.Server.Connections

/-!
# Connections are neither lost nor revived

Every accepted connection is open under one descriptor until it is closed, and there are
never more open connections than slots and one. Once it is closed nothing more is
received or answered on it, whatever its slot and its descriptor are used for later.
-/

namespace LetUsConnect

open Threads

namespace ServerState

variable {Worker : Type} [Fintype Worker] {state after : ServerState Worker}
  {serverFd connection : ℕ} {slot : Slot} {worker : Worker} {task : ClientTask}
  {routes : Dictionary RouteHandler}

/-! ## Closed for good -/

/-- A step that leaves the records of a connection as they are. -/
structure Unrecorded (state after : ServerState Worker) (connection : ℕ) : Prop where
  heard : after.heard connection = state.heard connection
  dispatched : after.dispatched connection = state.dispatched connection
  answered : after.answered connection = state.answered connection
  closes : after.closes connection = state.closes connection

theorem Owned.reactorStep_unrecorded (owned : state.Owned serverFd) (delivers : state.pool.Delivers)
    (closed : state.closes connection ≠ 0) {input : ReactorInput}
    (taken : state.reactorStep serverFd input = some after) :
    state.Unrecorded after connection := by
  have closesOther : ∀ fd other, state.AboutToClose fd other → connection ≠ other := by
    rintro fd other closes rfl
    exact closed ((owned.slotOwnership delivers).closesOwn fd connection closes).2
  cases reactorMove_of_step taken with
  | rejects at_ =>
      exact ⟨rfl, rfl, rfl, Function.update_of_ne (closesOther _ _ (.reject at_)) _ _⟩
  | closes closes => exact ⟨rfl, rfl, rfl, Function.update_of_ne (closesOther _ _ closes) _ _⟩
  | _ => exact ⟨rfl, rfl, rfl, rfl⟩

variable [DecidableEq Worker]

theorem Owned.taskStep_unrecorded (owned : state.Owned serverFd)
    (closed : state.closes connection ≠ 0) {arrival : Arrival}
    (taken : state.taskStep routes worker arrival = some after) :
    state.Unrecorded after connection := by
  rcases taskStep_pool taken with ⟨task, place, -, at_, -⟩
  have openTask : place ≠ .done → place ≠ .deactivate →
      state.descriptors task.clientFd = some (.client task.connection) ∧
        connection ≠ task.connection := by
    intro working open_
    have named := owned.named_of_hand (inHand_of_work at_ working) (by simpa [at_] using open_)
    refine ⟨named.1, ?_⟩
    rintro rfl
    exact closed named.2
  simp only [ServerState.taskStep, at_] at taken
  cases place <;> simp only at taken
  case recv =>
    rcases openTask (by simp) (by simp) with ⟨named, differs⟩
    unfold ServerState.recvStep at taken
    rw [named] at taken
    split at taken
    case h_2 heard _ _ sameDescriptor _ =>
      cases sameDescriptor
      rcases Option.map_eq_some_iff.mp taken with ⟨buffer, -, rfl⟩
      exact ⟨Function.update_of_ne differs _ _, rfl, rfl, rfl⟩
    case h_1 | h_6 => cases taken
    all_goals
      cases taken
      exact ⟨rfl, rfl, rfl, rfl⟩
  case advance =>
    rcases Option.map_eq_some_iff.mp taken with ⟨buffer, -, rfl⟩
    exact ⟨rfl, rfl, rfl, rfl⟩
  case construct =>
    cases taken
    exact ⟨rfl, Function.update_of_ne (openTask (by simp) (by simp)).2 _ _, rfl, rfl⟩
  case handle =>
    cases taken
    exact ⟨rfl, rfl, Function.update_of_ne (openTask (by simp) (by simp)).2 _ _, rfl⟩
  case close =>
    cases taken
    exact ⟨rfl, rfl, rfl, Function.update_of_ne (openTask (by simp) (by simp)).2 _ _⟩
  case done => cases taken
  all_goals
    cases taken
    exact ⟨rfl, rfl, rfl, rfl⟩

theorem Owned.unrecorded_of_step (owned : state.Owned serverFd) (delivers : state.pool.Delivers)
    (closed : state.closes connection ≠ 0) {label : ServerLabel Worker}
    (taken : (serverSystem Worker routes serverFd).step label state = some after) :
    state.Unrecorded after connection := by
  cases label with
  | reactor input => exact owned.reactorStep_unrecorded delivers closed taken
  | task worker arrival => exact owned.taskStep_unrecorded closed taken
  | finishWork worker =>
      rcases finishWork_cases taken with ⟨-, rfl⟩
      exact ⟨rfl, rfl, rfl, rfl⟩
  | worker worker =>
      rcases Option.map_eq_some_iff.mp taken with ⟨pool, -, rfl⟩
      exact ⟨rfl, rfl, rfl, rfl⟩
  | interrupt worker =>
      rcases Option.map_eq_some_iff.mp taken with ⟨pool, -, rfl⟩
      exact ⟨rfl, rfl, rfl, rfl⟩
  | addWork newNode =>
      rcases Option.map_eq_some_iff.mp taken with ⟨pool, -, rfl⟩
      exact ⟨rfl, rfl, rfl, rfl⟩

/-- The records of a closed connection do not change in any run. -/
theorem unrecorded_of_run (reached : (serverSystem Worker routes serverFd).Reachable state)
    {labels : List (ServerLabel Worker)}
    (ran : (serverSystem Worker routes serverFd).run labels state = some after)
    (closed : state.closes connection ≠ 0) : state.Unrecorded after connection := by
  induction labels generalizing state with
  | nil =>
      cases ran
      exact ⟨rfl, rfl, rfl, rfl⟩
  | cons label labels ih =>
      rw [Transition.System.run] at ran
      rcases Option.bind_eq_some_iff.mp ran with ⟨middle, taken, rest⟩
      have first := (owned_of_reachable reached).unrecorded_of_step
        (ThreadPool.delivers_of_reachable (pool_reachable reached)) closed taken
      have later := ih (.next reached trivial taken) rest (first.closes ▸ closed)
      exact ⟨later.heard.trans first.heard, later.dispatched.trans first.dispatched,
        later.answered.trans first.answered, later.closes.trans first.closes⟩

/-! ## Tasks of closed connections -/

omit [DecidableEq Worker] in
/-- The reactor closes the descriptor of a busy slot only when it prepared the task itself. -/
theorem Owned.closing_le_preparing (owned : state.Owned serverFd) (isOwned : state.owned slot) :
    state.reactor.knows.closing slot ≤ state.reactor.knows.preparing slot := by
  have knowledge := owned.knowledge
  rw [ServerState.owned, Bool.and_eq_true] at isOwned
  generalize state.reactor.knows = known at knowledge isOwned
  cases known <;> try exact Nat.zero_le _
  case expiring other =>
    by_cases same : slot = other
    · subst same
      rw [knowledge.2] at isOwned
      cases isOwned.2
    · rw [Knowledge.closing, oneFor, if_neg (Ne.symm same)]
      exact Nat.zero_le _
  case dropping other => exact le_rfl

omit [DecidableEq Worker] in
theorem Owned.open_of_waiting (owned : state.Owned serverFd)
    (carried : (state.pool.adders ()).offered = some task ∨ task ∈ state.pool.queued) :
    state.closes task.connection = 0 := by
  have carries : state.Carries task := carried.imp_right Or.inl
  rcases owned.owned_of_carries carries with ⟨isOwned, alone⟩
  have active : (state.conns task.conn).isActive := by
    rw [ServerState.owned, Bool.and_eq_true] at isOwned
    exact isOwned.1
  have closing := owned.ledger.closed task.conn active
  have split := total_handCount state task.conn
  have reactor := owned.closing_le_preparing isOwned
  rw [ServerState.inFlight] at alone
  rw [(owned.tasks task carries).2, ServerState.closing] at closing
  have elsewhere :
      1 ≤ ((state.pool.adders ()).offered.elim 0 fun task_ => oneFor task.conn task_.conn) +
      state.pool.queued.countP (fun task_ => task_.conn = task.conn) := by
    rcases carried with offered | queued
    · rw [offered, Option.elim_some, oneFor_self]
      exact Nat.le_add_right _ _
    · have counted : 0 < state.pool.queued.countP (fun task_ => task_.conn = task.conn) :=
        List.countP_pos_iff.mpr ⟨task, queued, by simp⟩
      omega
  omega

omit [DecidableEq Worker] in
/-- A task whose connection is closed is in the hand of a worker that gives up the slot. -/
theorem Owned.deactivates_of_carries (owned : state.Owned serverFd) (carried : state.Carries task)
    (closed : state.closes task.connection ≠ 0) :
    ∃ worker, state.pool.workers worker = .work (some task) .deactivate := by
  rcases carried with offered | queued | ⟨worker, hand⟩
  · exact absurd (owned.open_of_waiting (.inl offered)) closed
  · exact absurd (owned.open_of_waiting (.inr queued)) closed
  · refine ⟨worker, ?_⟩
    by_cases last : (state.pool.workers worker).body = some .deactivate
    · cases at_ : state.pool.workers worker <;> rw [at_] at last hand <;> cases last
      rw [inHand, if_neg (by simp)] at hand
      simp only [WorkerPlace.held] at hand
      rw [hand]
    · exact absurd (owned.named_of_hand hand last).2 closed

/-- What is left of a connection that was closed earlier. -/
structure ClosedForGood (before after : ServerState Worker) (connection : ℕ) : Prop where
  once : after.closes connection = 1
  heard : after.heard connection = before.heard connection
  dispatched : after.dispatched connection = before.dispatched connection
  answered : after.answered connection = before.answered connection
  unnamed : ∀ fd, after.descriptors fd ≠ some (.client connection)
  /-- No task is left for it, except one whose worker has only to give up the slot. -/
  abandoned : ∀ task, after.Carries task → task.connection = connection →
    ∃ worker, after.pool.workers worker = .work (some task) .deactivate
  gone : after.phase connection = .gone

/-- A connection stays closed, and nothing is received or answered on it any more. -/
theorem closedForGood_of_run (reached : (serverSystem Worker routes serverFd).Reachable state)
    {labels : List (ServerLabel Worker)}
    (ran : (serverSystem Worker routes serverFd).run labels state = some after)
    (closed : state.closes connection ≠ 0) : ClosedForGood state after connection := by
  have reachedAfter := Transition.System.Reachable.run reached ran
  have owned := owned_of_reachable reachedAfter
  have kept := unrecorded_of_run reached ran closed
  have closedAfter : after.closes connection ≠ 0 := kept.closes ▸ closed
  have old : connection < after.accepted := by
    by_contra fresh
    exact closedAfter (owned.ledger.unseen connection (Nat.le_of_not_lt fresh))
  refine ⟨?_, kept.heard, kept.dispatched, kept.answered, ?_, ?_, phase_gone old closedAfter⟩
  · exact le_antisymm (owned.ledger.once connection) (Nat.one_le_iff_ne_zero.mpr closedAfter)
  · intro fd named
    exact closedAfter ((accounted_of_reachable reachedAfter).unclosed fd connection named)
  · rintro task carried rfl
    exact owned.deactivates_of_carries carried closedAfter

/-! ## Every connection is accounted for -/

/-- The connections that were accepted and not yet closed. -/
def openConnections (state : ServerState Worker) : Finset ℕ :=
  (Finset.range state.accepted).filter fun connection => state.closes connection = 0

/-- The connections of the server. -/
structure Conserved (state : ServerState Worker) : Prop where
  /-- A connection is open exactly if a descriptor names it. -/
  named : ∀ connection < state.accepted,
    state.closes connection = 0 ↔ ∃ fd, state.descriptors fd = some (.client connection)
  unique : ∀ fd other connection, state.descriptors fd = some (.client connection) →
    state.descriptors other = some (.client connection) → fd = other
  /-- Its descriptor is the one the reactor has just got or the one in its slot. -/
  placed : ∀ fd connection, state.descriptors fd = some (.client connection) →
    state.Placed fd connection
  onlyAccepted : ∀ fd connection, state.descriptors fd = some (.client connection) →
    connection < state.accepted
  closedOnce : ∀ connection, state.closes connection ≤ 1
  few : state.openConnections.card ≤ maxConns + 1

omit [Fintype Worker] [DecidableEq Worker] in
theorem openConnections_subset (atDoor : state.AtDoor) :
    ∃ visitor, state.openConnections ⊆ insert visitor state.hall.seats := by
  have cases_ : ∀ connection ∈ state.openConnections,
      connection ∈ state.hall.seats ∨ state.phase connection = .arriving := by
    intro connection member
    rw [openConnections, Finset.mem_filter, Finset.mem_range] at member
    by_cases seated : (state.phase connection).seated
    · exact Or.inl (Reception.Hall.mem_seats.mpr ⟨member.1, seated⟩)
    · refine Or.inr ?_
      rw [phase_of_open member.1 member.2] at seated ⊢
      split_ifs at seated ⊢
      · exact absurd rfl seated
      · exact absurd rfl seated
      · rfl
  by_cases someone : ∃ visitor, state.phase visitor = .arriving
  · rcases someone with ⟨visitor, arriving⟩
    refine ⟨visitor, fun connection member => ?_⟩
    rcases cases_ connection member with seated | atDoor_
    · exact Finset.mem_insert_of_mem seated
    · rcases atDoor visitor arriving with ⟨fd, here⟩
      rcases atDoor connection atDoor_ with ⟨otherFd, otherHere⟩
      rw [here, Option.some.injEq, Prod.mk.injEq] at otherHere
      rw [otherHere.2]
      exact Finset.mem_insert_self _ _
  · refine ⟨0, fun connection member => ?_⟩
    rcases cases_ connection member with seated | arriving
    · exact Finset.mem_insert_of_mem seated
    · exact absurd ⟨connection, arriving⟩ someone

omit [DecidableEq Worker] in
theorem Owned.named_of_open (owned : state.Owned serverFd) (atDoor : state.AtDoor)
    (old : connection < state.accepted) (open_ : state.closes connection = 0) :
    ∃ fd, state.descriptors fd = some (.client connection) := by
  cases phase : state.phase connection with
  | arriving =>
      rcases atDoor connection phase with ⟨fd, arrived⟩
      exact ⟨fd, (owned.held_of_arrival arrived).named⟩
  | serving | waiting =>
      rcases seats_of_seated (show (state.phase connection).seated by rw [phase]; rfl) with
        ⟨slot, active, rfl⟩
      refine ⟨_, owned.ledger.named slot active ?_⟩
      rw [← owned.ledger.closed slot active, open_]
  | unseen | gone =>
      rw [phase_of_open old open_] at phase
      split_ifs at phase

theorem conserved_of_reachable (reached : (serverSystem Worker routes serverFd).Reachable state) :
    state.Conserved := by
  have owned := owned_of_reachable reached
  have accounted := accounted_of_reachable reached
  have atDoor := atDoor_of_reachable reached
  refine ⟨?_, ?_, accounted.placed, ?_, owned.ledger.once, ?_⟩
  · intro connection old
    constructor
    · exact owned.named_of_open atDoor old
    · rintro ⟨fd, named⟩
      exact accounted.unclosed fd connection named
  · intro fd other connection named otherNamed
    exact owned.placed_unique (accounted.placed fd _ named) (accounted.placed other _ otherNamed)
  · intro fd connection named
    rcases accounted.placed fd connection named with arrived | ⟨slot, occupied⟩
    · exact (owned.held_of_arrival arrived).old
    · rw [← occupied.occupant]
      exact owned.ledger.old slot occupied.isActive
  · rcases openConnections_subset atDoor with ⟨visitor, within⟩
    have room := (Reception.Hall.sound_of_reachable (hall_reachable reached)).room
    calc state.openConnections.card ≤ (insert visitor state.hall.seats).card :=
          Finset.card_le_card within
      _ ≤ state.hall.seats.card + 1 := Finset.card_insert_le _ _
      _ ≤ maxConns + 1 := Nat.add_le_add_right room 1

/-! ## A run -/

/-- After `claimRun`: the peer closes, and the worker with it. -/
def closeRun : List (ServerLabel Unit) :=
  claimRun ++ List.replicate 2 (.task () ⟨.ended, idle, 0⟩)

theorem closeRun_reachable {state : ServerState Unit}
    (ran : (serverSystem Unit dictionaryConstructor 3).run closeRun (serverStart 3 0) =
      some state) : (serverSystem Unit dictionaryConstructor 3).Reachable state :=
  Transition.System.Reachable.run (.start ⟨0, by decide, rfl⟩) ran

/-- The slot and the descriptor are used again. -/
def laterRun : List (ServerLabel Unit) :=
  [.task () ⟨.ended, idle, 0⟩, .finishWork (), .reactor { quiet with incoming := some 5 }] ++
    List.replicate 6 (.reactor quiet)

theorem closeRun_closedForGood :
    ∃ state after, (serverSystem Unit dictionaryConstructor 3).run closeRun (serverStart 3 0) =
        some state ∧
      (serverSystem Unit dictionaryConstructor 3).run laterRun state = some after ∧
      after.occupant 0 = 1 ∧ ClosedForGood state after 0 := by
  have works : ((serverSystem Unit dictionaryConstructor 3).run closeRun (serverStart 3 0)).map
      (fun state => (state.closes 0,
        ((serverSystem Unit dictionaryConstructor 3).run laterRun state).map
          fun after => after.occupant 0)) = some (1, some 1) := by decide +kernel
  rcases Option.map_eq_some_iff.mp works with ⟨state, ran, facts⟩
  rw [Prod.mk.injEq] at facts
  rcases Option.map_eq_some_iff.mp facts.2 with ⟨after, later, occupant⟩
  have closed : state.closes 0 ≠ 0 := by
    rw [facts.1]
    decide
  exact ⟨state, after, ran, later, occupant,
    closedForGood_of_run (closeRun_reachable ran) later closed⟩

theorem closeRun_conserved :
    ∃ state, (serverSystem Unit dictionaryConstructor 3).run closeRun (serverStart 3 0) =
      some state ∧ state.accepted = 1 ∧ state.Conserved := by
  have works : ((serverSystem Unit dictionaryConstructor 3).run closeRun (serverStart 3 0)).map
      (fun state => state.accepted) = some 1 := by decide +kernel
  rcases Option.map_eq_some_iff.mp works with ⟨state, ran, accepted⟩
  exact ⟨state, ran, accepted, conserved_of_reachable (closeRun_reachable ran)⟩

end ServerState

end LetUsConnect
