import LetUsConnect.Server.Flight

/-!
# The steps of the workers keep the slots in order

The steps of the pool hand tasks on without changing their number. A worker's
steps on its slot touch nothing the reactor relies on, because a slot with a task
in flight is in use and busy, and no other task is in flight for it.
-/

namespace LetUsConnect

open Threads

namespace ServerState

variable {Worker : Type} {state after : ServerState Worker}
  {serverFd : ℕ} {slot : Slot} {worker : Worker} {task : ClientTask}

/-! ## Steps of the pool -/

theorem inHand_eq_held {place : WorkerPlace ClientTask TaskPlace}
    (working : place.body ≠ some .done) : inHand place = place.held :=
  if_neg working

theorem closedHand_eq_zero {place : WorkerPlace ClientTask TaskPlace}
    (working : place.body ≠ some .deactivate) : closedHand slot place = 0 :=
  if_neg working

variable [Fintype Worker]

theorem Owned.ofPool (owned : state.Owned serverFd)
    {pool : ThreadPool ClientTask TaskPlace Worker Unit}
    (inFlight : ∀ slot, ServerState.inFlight { state with pool := pool } slot = state.inFlight slot)
    (closing : ∀ slot, ServerState.closing { state with pool := pool } slot = state.closing slot)
    (carries : ∀ task, Carries { state with pool := pool } task → state.Carries task) :
    Owned { state with pool := pool } serverFd := by
  have same : state.SameSlots { state with pool := pool } :=
    ⟨fun _ => rfl, fun _ => rfl, fun _ => rfl, rfl, rfl, rfl, rfl⟩
  apply owned.of_same same inFlight closing (fun _ => rfl) carries
  · exact same.knows owned.knowledge
  · intro monitoring
    exact same.monitors rfl (owned.monitored monitoring)

variable [DecidableEq Worker]

theorem Owned.workerStep (owned : state.Owned serverFd) (delivers : state.pool.Delivers)
    (sound : state.pool.LockSound) {pool : ThreadPool ClientTask TaskPlace Worker Unit}
    (taken : state.pool.workerStep worker = some pool) :
    Owned { state with pool := pool } serverFd := by
  rcases ThreadPool.workerStep_handover delivers sound taken with
    ⟨place, workers, adders, idle, begins, moved⟩
  have before : inHand (state.pool.workers worker) = (state.pool.workers worker).held :=
    inHand_eq_held (by simp [idle])
  have working : ∀ other : TaskPlace, other ≠ .recv → place.body ≠ some other := by
    intro other differs isOther
    exact differs (begins other isOther)
  have afterwards : inHand place = place.held := inHand_eq_held (working .done (by simp))
  apply owned.ofPool
  · intro slot
    have counted := total_update (handCount slot) state.pool.workers worker place
    have count : handCount slot (state.pool.workers worker) =
        (state.pool.workers worker).held.elim 0 fun task => oneFor slot task.conn := by
      rw [handCount, before]
    have countAfter : handCount slot place =
        place.held.elim 0 fun task => oneFor slot task.conn := by
      rw [handCount, afterwards]
    simp only [ServerState.inFlight, workers, adders]
    rcases moved with ⟨sameHeld, sameQueue⟩ | ⟨task, nothing, holds, queued⟩
    · rw [sameHeld] at countAfter
      rw [sameQueue]
      omega
    · have isHeld : place.held = some task := by
        rw [holds]
        rfl
      rw [nothing, Option.elim_none] at count
      rw [isHeld, Option.elim_some, oneFor] at countAfter
      rw [queued, List.countP_cons]
      simp only [decide_eq_true_eq]
      omega
  · intro slot
    have counted := total_update (closedHand slot) state.pool.workers worker place
    have count : closedHand slot (state.pool.workers worker) = 0 :=
      closedHand_eq_zero (by simp [idle])
    have countAfter : closedHand slot place = 0 :=
      closedHand_eq_zero (working .deactivate (by simp))
    simp only [ServerState.closing, workers]
    omega
  · rintro task (offered | queued | ⟨other, hand⟩)
    · rw [adders] at offered
      exact Or.inl offered
    · refine Or.inr (Or.inl ?_)
      rcases moved with ⟨-, sameQueue⟩ | ⟨_, -, -, queuedBefore⟩
      · rwa [sameQueue] at queued
      · rw [queuedBefore]
        exact List.mem_cons_of_mem _ queued
    · rw [workers] at hand
      by_cases same : other = worker
      · subst same
        rw [Function.update_self, afterwards] at hand
        rcases moved with ⟨sameHeld, -⟩ | ⟨popped, -, holds, queued⟩
        · exact Or.inr (Or.inr ⟨other, by rw [before, ← sameHeld, hand]⟩)
        · rw [holds, WorkerPlace.held, Option.some.injEq] at hand
          refine Or.inr (Or.inl ?_)
          rw [queued, hand]
          exact List.mem_cons_self
      · rw [Function.update_of_ne same] at hand
        exact Or.inr (Or.inr ⟨other, hand⟩)

section MoveWorker

variable {place : WorkerPlace ClientTask TaskPlace}

theorem inFlight_moveWorker (pool : after.pool = state.pool.moveWorker worker place)
    (reactor : after.reactor = state.reactor) (slot : Slot) :
    after.inFlight slot + handCount slot (state.pool.workers worker) =
      state.inFlight slot + handCount slot place := by
  have counted := total_update (handCount slot) state.pool.workers worker place
  simp only [ServerState.inFlight, pool, reactor, ThreadPool.workers_moveWorker,
    ThreadPool.adders_moveWorker, ThreadPool.queued_moveWorker]
  omega

theorem closing_moveWorker (pool : after.pool = state.pool.moveWorker worker place)
    (reactor : after.reactor = state.reactor) (slot : Slot) :
    after.closing slot + closedHand slot (state.pool.workers worker) =
      state.closing slot + closedHand slot place := by
  have counted := total_update (closedHand slot) state.pool.workers worker place
  simp only [ServerState.closing, pool, reactor, ThreadPool.workers_moveWorker]
  omega

omit [Fintype Worker] in
theorem carries_moveWorker (pool : after.pool = state.pool.moveWorker worker place)
    (carried : after.Carries task) : state.Carries task ∨ inHand place = some task := by
  rcases carried with offered | queued | ⟨other, hand⟩
  · rw [pool, ThreadPool.adders_moveWorker] at offered
    exact Or.inl (Or.inl offered)
  · rw [pool, ThreadPool.queued_moveWorker] at queued
    exact Or.inl (Or.inr (Or.inl queued))
  · rw [pool, ThreadPool.workers_moveWorker] at hand
    by_cases same : other = worker
    · subst same
      rw [Function.update_self] at hand
      exact Or.inr hand
    · rw [Function.update_of_ne same] at hand
      exact Or.inl (Or.inr (Or.inr ⟨other, hand⟩))

theorem handCount_of_inHand_eq_none (nothing : inHand place = none) : handCount slot place = 0 := by
  rw [handCount, nothing, Option.elim_none]

theorem closedHand_of_inHand_eq_none (nothing : inHand place = none) :
    closedHand slot place = 0 := by
  have split := openHand_add_closedHand slot place
  rw [handCount_of_inHand_eq_none nothing] at split
  omega

theorem Owned.quietWork (owned : state.Owned serverFd) (same : state.SameSlots after)
    (pool : after.pool = state.pool.moveWorker worker place)
    (reactor : after.reactor = state.reactor) (readFds : after.readFds = state.readFds)
    (hand : inHand place = inHand (state.pool.workers worker))
    (closed : ∀ slot, closedHand slot place = closedHand slot (state.pool.workers worker)) :
    after.Owned serverFd := by
  apply owned.of_same same
  · intro slot
    have counted := inFlight_moveWorker pool reactor slot
    rw [handCount, handCount, hand] at counted
    omega
  · intro slot
    have counted := closing_moveWorker pool reactor slot
    rw [closed] at counted
    omega
  · intro slot
    rw [reactor]
  · intro task carried
    rcases carries_moveWorker pool carried with carried | inHand'
    · exact carried
    · exact Or.inr (Or.inr ⟨worker, hand ▸ inHand'⟩)
  · rw [reactor]
    exact same.knows owned.knowledge
  · intro monitoring
    rw [reactor] at monitoring
    exact same.monitors readFds (owned.monitored monitoring)

end MoveWorker

omit [DecidableEq Worker] in
theorem Owned.adderStep (owned : state.Owned serverFd) (delivers : state.pool.Delivers)
    {newNode : Address} {pool : ThreadPool ClientTask TaskPlace Worker Unit}
    (taken : state.pool.adderStep () newNode = some pool) :
    Owned { state with pool := pool } serverFd := by
  rcases ThreadPool.adderStep_handover delivers taken with ⟨place, adders, workers, moved⟩
  have offers : (pool.adders ()).offered = place.offered := by
    rw [adders, Function.update_self]
  apply owned.ofPool
  · intro slot
    simp only [ServerState.inFlight, workers, offers]
    rcases moved with ⟨sameOffer, sameQueue⟩ | ⟨task, offered, nothing, queued⟩
    · rw [sameOffer, sameQueue]
    · rw [offered, nothing, queued, List.countP_append, List.countP_singleton]
      simp only [Option.elim_none, Option.elim_some, oneFor, decide_eq_true_eq]
      omega
  · intro slot
    simp only [ServerState.closing, workers]
  · rintro task (offered | queued | ⟨other, hand⟩)
    · rw [offers] at offered
      rcases moved with ⟨sameOffer, -⟩ | ⟨_, -, nothing, -⟩
      · exact Or.inl (sameOffer ▸ offered)
      · rw [nothing] at offered
        cases offered
    · rcases moved with ⟨-, sameQueue⟩ | ⟨pushed, offered, -, queuedAfter⟩
      · rw [sameQueue] at queued
        exact Or.inr (Or.inl queued)
      · rw [queuedAfter, List.mem_append, List.mem_singleton] at queued
        rcases queued with queued | rfl
        · exact Or.inr (Or.inl queued)
        · exact Or.inl offered
    · rw [workers] at hand
      exact Or.inr (Or.inr ⟨other, hand⟩)

/-! ## Steps of a worker on its slot -/

/-- What a task in a worker's hand says about its slot. -/
structure HandsOn (state : ServerState Worker) (task : ClientTask) : Prop where
  isActive : (state.conns task.conn).isActive
  isBusy : (state.conns task.conn).isBusy
  unprepared : state.reactor.knows.preparing task.conn = 0
  unclaimed : state.reactor.knows.claims task.conn = false
  alone : total (handCount task.conn) state.pool.workers = 1

omit [DecidableEq Worker] in
theorem Owned.handsOn (owned : state.Owned serverFd)
    (hand : inHand (state.pool.workers worker) = some task) : state.HandsOn task := by
  have carried : state.Carries task := Or.inr (Or.inr ⟨worker, hand⟩)
  rcases owned.owned_of_carries carried with ⟨isOwned, one⟩
  have counted := le_total (handCount task.conn) state.pool.workers worker
  have count : handCount task.conn (state.pool.workers worker) = 1 := by
    rw [handCount, hand, Option.elim_some, oneFor_self]
  rw [ServerState.inFlight] at one
  have unprepared : state.reactor.knows.preparing task.conn = 0 := by omega
  have unclaimed : state.reactor.knows.claims task.conn = false := by
    apply Bool.eq_false_iff.mpr
    intro claims
    rw [Knowledge.preparing_of_claims claims] at unprepared
    cases unprepared
  rw [ServerState.owned, unclaimed, Bool.or_false, Bool.and_eq_true] at isOwned
  exact ⟨isOwned.1, isOwned.2, unprepared, unclaimed, by omega⟩

theorem HandsOn.unique (handsOn : state.HandsOn task)
    (hand : inHand (state.pool.workers worker) = some task) {other : Worker} {task' : ClientTask}
    (otherHand : inHand (state.pool.workers other) = some task') (isSlot : task'.conn = task.conn) :
    other = worker := by
  by_contra differs
  have count : handCount task.conn (state.pool.workers worker) = 1 := by
    rw [handCount, hand, Option.elim_some, oneFor_self]
  have otherCount : handCount task.conn (state.pool.workers other) = 1 := by
    rw [handCount, otherHand, Option.elim_some, isSlot, oneFor_self]
  have removed := total_update (handCount task.conn) state.pool.workers worker .semWait
  have remains := le_total (handCount task.conn)
    (Function.update state.pool.workers worker .semWait) other
  rw [Function.update_of_ne differs, otherCount] at remains
  have alone := handsOn.alone
  have nothing : handCount task.conn .semWait = 0 := rfl
  omega

omit [DecidableEq Worker] in
theorem Owned.closing_eq_zero (owned : state.Owned serverFd)
    (hand : inHand (state.pool.workers worker) = some task)
    (working : (state.pool.workers worker).body ≠ some .deactivate) :
    state.closing task.conn = 0 := by
  have handsOn := owned.handsOn hand
  have count : openHand task.conn (state.pool.workers worker) = 1 := by
    rw [openHand, if_neg working, handCount, hand, Option.elim_some, oneFor_self]
  have counted := le_total (openHand task.conn) state.pool.workers worker
  have split := total_handCount state task.conn
  have alone := handsOn.alone
  have reactor : state.reactor.knows.closing task.conn = 0 := by
    have knowledge := owned.knowledge
    have unprepared := handsOn.unprepared
    generalize state.reactor.knows = known at knowledge unprepared
    cases known
    case expiring slot =>
      apply oneFor_of_ne
      rintro rfl
      have busy := handsOn.isBusy
      rw [knowledge.2] at busy
      cases busy
    case dropping slot => exact unprepared
    all_goals rfl
  rw [ServerState.closing]
  omega

omit [DecidableEq Worker] in
/-- A worker's step on its slot takes nothing from what the reactor knows. -/
theorem HandsOn.knows (handsOn : state.HandsOn task)
    (others : ∀ slot, slot ≠ task.conn → after.conns slot = state.conns slot)
    (seen : (after.conns task.conn).isActive ∨ (after.conns task.conn).isBusy)
    (occupant : after.occupant = state.occupant)
    (held : ∀ fd connection, state.Held fd connection → after.Held fd connection)
    (knowledge : state.Knows state.reactor.knows) : after.Knows state.reactor.knows := by
  have unprepared := handsOn.unprepared
  have ofIdle : ∀ slot, (state.conns slot).isBusy = false → slot ≠ task.conn := by
    rintro slot idle rfl
    rw [handsOn.isBusy] at idle
    cases idle
  have ofUnused : ∀ slot, (state.conns slot).isActive = false → slot ≠ task.conn := by
    rintro slot unused rfl
    rw [handsOn.isActive] at unused
    cases unused
  have ofPreparing : ∀ slot, oneFor task.conn slot = 0 → slot ≠ task.conn := by
    rintro slot none_ rfl
    rw [oneFor_self] at none_
    cases none_
  generalize state.reactor.knows = known at knowledge unprepared
  cases known with
  | nothing => trivial
  | seen slot =>
      by_cases same : slot = task.conn
      · exact same ▸ seen
      · rw [Knows, others slot same]
        exact knowledge
  | idle slot =>
      rw [Knows, others slot (ofIdle slot knowledge.2)]
      exact knowledge
  | expiring slot =>
      rw [Knows, others slot (ofIdle slot knowledge.2)]
      exact knowledge
  | accepted fd connection => exact held fd connection knowledge
  | unclaimed fd connection slot =>
      rw [Knows, others slot (ofUnused slot knowledge.2)]
      exact ⟨held fd connection knowledge.1, knowledge.2⟩
  | writing fd connection slot =>
      rw [Knows, others slot (ofUnused slot knowledge.2.1), occupant]
      exact ⟨held fd connection knowledge.1, knowledge.2⟩
  | claiming fd connection slot =>
      rw [Knows, others slot (ofPreparing slot unprepared), occupant]
      exact knowledge
  | claimed fd connection slot =>
      rw [Knows, others slot (ofPreparing slot unprepared), occupant]
      exact knowledge
  | marked slot =>
      rw [Knows, others slot (ofPreparing slot unprepared)]
      exact knowledge
  | dropping slot =>
      rw [Knows, others slot (ofPreparing slot unprepared)]
      exact knowledge

omit [DecidableEq Worker] in
theorem HandsOn.monitors (handsOn : state.HandsOn task)
    (others : ∀ slot, slot ≠ task.conn → after.conns slot = state.conns slot)
    (readFds : after.readFds = state.readFds) (monitors : state.Monitors serverFd) :
    after.Monitors serverFd := by
  intro fd member
  rw [readFds] at member
  rcases monitors fd member with isServer | ⟨slot, active, idle, named⟩
  · exact Or.inl isServer
  · have differs : slot ≠ task.conn := by
      rintro rfl
      rw [handsOn.isBusy] at idle
      cases idle
    refine Or.inr ⟨slot, ?_⟩
    rw [others slot differs]
    exact ⟨active, idle, named⟩

theorem HandsOn.flight_done (handsOn : state.HandsOn task)
    (flight : ∀ slot, state.inFlight slot = (state.owned slot).toNat)
    (hand : inHand (state.pool.workers worker) = some task)
    (pool : after.pool = state.pool.moveWorker worker (.work (some task) .done))
    (reactor : after.reactor = state.reactor)
    (others : ∀ slot, slot ≠ task.conn → after.conns slot = state.conns slot)
    (given : ((after.conns task.conn).isActive && (after.conns task.conn).isBusy) = false)
    (slot : Slot) : after.inFlight slot = (after.owned slot).toNat := by
  have counted := inFlight_moveWorker pool reactor slot
  have before := flight slot
  have countAfter : handCount slot (.work (some task) .done) = 0 := rfl
  rw [handCount, hand, Option.elim_some, countAfter] at counted
  by_cases same : slot = task.conn
  · subst same
    rw [oneFor_self] at counted
    have isOwned : state.owned task.conn = true := by
      rw [owned, handsOn.isActive, handsOn.isBusy]
      rfl
    have notOwned : after.owned task.conn = false := by
      rw [owned, reactor, handsOn.unclaimed, Bool.or_false, given]
    rw [isOwned] at before
    rw [notOwned]
    simp only [Bool.toNat_true, Bool.toNat_false] at before ⊢
    omega
  · rw [oneFor_of_ne (Ne.symm same)] at counted
    have sameOwned : after.owned slot = state.owned slot := by
      rw [owned, owned, reactor, others slot same]
    rw [sameOwned]
    omega

section Work

variable {place : TaskPlace}

theorem inHand_work (differs : place ≠ .done) :
    inHand (.work (some task) place) = some task := by
  rw [inHand, if_neg]
  · rfl
  · intro isDone
    exact differs (Option.some.inj isDone)

omit [Fintype Worker] [DecidableEq Worker] in
theorem inHand_of_work (at_ : state.pool.workers worker = .work (some task) place)
    (working : place ≠ .done) : inHand (state.pool.workers worker) = some task := by
  rw [at_, inHand_work working]

omit [Fintype Worker] [DecidableEq Worker] in
theorem done_of_inHand_eq_none (at_ : state.pool.workers worker = .work (some task) place)
    (nothing : inHand (state.pool.workers worker) = none) : place = .done := by
  by_contra working
  rw [inHand_of_work at_ working] at nothing
  cases nothing

omit [Fintype Worker] in
theorem finishWork_cases (taken : state.finishWork worker = some after) :
    inHand (state.pool.workers worker) = none ∧
      after = { state with pool := state.pool.moveWorker worker .relock } := by
  unfold ServerState.finishWork at taken
  split at taken
  case h_3 => cases taken
  case h_1 task at_ =>
    simp only [ThreadPool.finishWork, at_, Option.map_some, Option.some.injEq] at taken
    exact ⟨by rw [at_]; rfl, taken.symm⟩
  case h_2 place at_ =>
    simp only [ThreadPool.finishWork, at_, Option.map_some, Option.some.injEq] at taken
    exact ⟨by rw [at_]; cases place <;> rfl, taken.symm⟩

theorem closedHand_work (slot : Slot) :
    closedHand slot (.work (some task) place) =
      if place = .deactivate then oneFor slot task.conn else 0 := by
  cases place <;> rfl

/-- A worker gives back its slot, still open or given up. -/
theorem Owned.giveBack (owned : state.Owned serverFd)
    (at_ : state.pool.workers worker = .work (some task) place) (working : place ≠ .done)
    {conn : ClientConnection} (fd : conn.fd = (state.conns task.conn).fd)
    (stillOpen : conn.isActive → place ≠ .deactivate)
    (given : (conn.isActive && conn.isBusy) = false) (seen : conn.isActive ∨ conn.isBusy) :
    Owned ((state.setConn task.conn conn).proceed worker task .done) serverFd := by
  have hand := inHand_of_work at_ working
  have handsOn := owned.handsOn hand
  generalize isAfter : (state.setConn task.conn conn).proceed worker task .done = after
  have here : after.conns task.conn = conn := by
    rw [← isAfter]
    exact Function.update_self _ _ _
  have others : ∀ slot, slot ≠ task.conn → after.conns slot = state.conns slot := by
    intro slot differs
    rw [← isAfter]
    exact Function.update_of_ne differs _ _
  have pool : after.pool = state.pool.moveWorker worker (.work (some task) .done) := by
    rw [← isAfter]
    rfl
  have reactor : after.reactor = state.reactor := by
    rw [← isAfter]
    rfl
  have sameOccupant : after.occupant = state.occupant := by
    rw [← isAfter]
    rfl
  have held : ∀ fd connection, state.Held fd connection → after.Held fd connection := by
    intro fd connection held
    refine ⟨?_, ?_, ?_, ?_⟩
    · rw [← isAfter]
      exact held.named
    · rw [← isAfter]
      exact held.unclosed
    · rw [← isAfter]
      exact held.old
    · intro slot active
      rw [sameOccupant]
      apply held.apart slot
      by_cases same : slot = task.conn
      · exact same ▸ handsOn.isActive
      · rwa [others slot same] at active
  exact
    { flight := by
        apply handsOn.flight_done owned.flight hand pool reactor others
        rw [here, given]
      tasks := by
        intro other carried
        rcases carries_moveWorker pool carried with carried | nothing
        · rw [sameOccupant]
          rcases owned.tasks other carried with ⟨named, occupied⟩
          refine ⟨?_, occupied⟩
          by_cases same : other.conn = task.conn
          · rw [same, here, fd, ← same, named]
          · rw [others _ same, named]
        · cases nothing
      ledger := by
        apply owned.ledger.of_fewer _ (by rw [← isAfter]; rfl) (by rw [← isAfter]; rfl)
          (by rw [← isAfter]; rfl)
        · intro slot active
          have counted := closing_moveWorker pool reactor slot
          have countAfter : closedHand slot (.work (some task) .done) = 0 := closedHand_work slot
          have count : closedHand slot (state.pool.workers worker) = 0 := by
            rw [at_, closedHand_work]
            by_cases same : slot = task.conn
            · subst same
              rw [here] at active
              rw [if_neg (stillOpen active)]
            · rw [oneFor_of_ne (Ne.symm same), ite_self]
          omega
        · intro slot active
          rw [sameOccupant]
          by_cases same : slot = task.conn
          · subst same
            rw [here]
            exact ⟨handsOn.isActive, fd, rfl⟩
          · rw [others slot same] at active ⊢
            exact ⟨active, rfl, rfl⟩
      knowledge := by
        rw [reactor]
        apply handsOn.knows others (here ▸ seen) sameOccupant held owned.knowledge
      monitored := by
        intro monitoring
        rw [reactor] at monitoring
        exact handsOn.monitors others (by rw [← isAfter]; rfl) (owned.monitored monitoring) }

omit [DecidableEq Worker] in
/-- The descriptor in a worker's task names its connection until the worker closes it. -/
theorem Owned.named_of_hand (owned : state.Owned serverFd)
    (hand : inHand (state.pool.workers worker) = some task)
    (open_ : (state.pool.workers worker).body ≠ some .deactivate) :
    state.descriptors task.clientFd = some (.client task.connection) ∧
      state.closes task.connection = 0 := by
  have active := (owned.handsOn hand).isActive
  have notClosing := owned.closing_eq_zero hand open_
  rcases owned.tasks task (Or.inr (Or.inr ⟨worker, hand⟩)) with ⟨fd, occupant⟩
  rw [← fd, ← occupant]
  refine ⟨owned.ledger.named task.conn active notClosing, ?_⟩
  rw [owned.ledger.closed task.conn active, notClosing]

theorem Owned.closeTask (owned : state.Owned serverFd)
    (at_ : state.pool.workers worker = .work (some task) .close) :
    Owned ((state.closeFd task.clientFd task.connection).proceed worker task .deactivate)
      serverFd := by
  have hand := inHand_of_work at_ (by simp)
  have handsOn := owned.handsOn hand
  have open_ : (state.pool.workers worker).body ≠ some .deactivate := by
    rw [at_]
    simp
  rcases owned.named_of_hand hand open_ with ⟨named, unclosed⟩
  have occupied := (owned.tasks task (Or.inr (Or.inr ⟨worker, hand⟩))).2
  have old : task.connection < state.accepted := by
    rw [← occupied]
    exact owned.ledger.old task.conn handsOn.isActive
  generalize isAfter :
    (state.closeFd task.clientFd task.connection).proceed worker task .deactivate = after
  have conns : after.conns = state.conns := by rw [← isAfter]; rfl
  have occupant : after.occupant = state.occupant := by rw [← isAfter]; rfl
  have accepted : after.accepted = state.accepted := by rw [← isAfter]; rfl
  have reactor : after.reactor = state.reactor := by rw [← isAfter]; rfl
  have descriptors : after.descriptors =
      Function.update state.descriptors task.clientFd none := by rw [← isAfter]; rfl
  have closes : after.closes = Function.update state.closes task.connection
      (state.closes task.connection + 1) := by rw [← isAfter]; rfl
  have pool : after.pool = state.pool.moveWorker worker (.work (some task) .deactivate) := by
    rw [← isAfter]; rfl
  have held : ∀ fd connection, state.Held fd connection → after.Held fd connection := by
    intro fd connection held
    have differs : connection ≠ task.connection := by
      rw [← occupied]
      exact (held.apart task.conn handsOn.isActive).symm
    exact held.close named differs conns occupant accepted descriptors closes
  have sameHand : inHand (.work (some task) .deactivate) = inHand (state.pool.workers worker) := by
    rw [at_]
    rfl
  exact
    { flight := by
        intro slot
        have counted := inFlight_moveWorker pool reactor slot
        rw [handCount, handCount, sameHand] at counted
        have before := owned.flight slot
        rw [ServerState.owned] at before ⊢
        rw [conns, reactor]
        omega
      tasks := by
        intro other carried
        rw [conns, occupant]
        rcases carries_moveWorker pool carried with carried | isTask
        · exact owned.tasks other carried
        · rw [sameHand] at isTask
          exact owned.tasks other (Or.inr (Or.inr ⟨worker, isTask⟩))
      ledger := by
        apply owned.ledger.close named unclosed old conns occupant accepted descriptors closes
        intro slot active
        have counted := closing_moveWorker pool reactor slot
        rw [at_, closedHand_work, closedHand_work, if_neg (by simp), if_pos rfl] at counted
        by_cases same : slot = task.conn
        · rw [same, if_pos occupied]
          rw [same, oneFor_self] at counted
          omega
        · have differs : state.occupant slot ≠ task.connection := by
            intro sameOccupant
            rw [← occupied] at sameOccupant
            exact same (owned.ledger.distinct slot task.conn active handsOn.isActive sameOccupant)
          rw [if_neg differs]
          rw [oneFor_of_ne (Ne.symm same)] at counted
          omega
      knowledge := by
        rw [reactor]
        apply handsOn.knows (fun slot _ => congrFun conns slot) _ occupant held owned.knowledge
        rw [conns]
        exact Or.inl handsOn.isActive
      monitored := by
        intro monitoring
        rw [reactor] at monitoring
        exact handsOn.monitors (fun slot _ => congrFun conns slot) (by rw [← isAfter]; rfl)
          (owned.monitored monitoring) }

omit [Fintype Worker] [DecidableEq Worker] in
theorem see_update {Seen : Type} (see : ClientConnection → Seen) {conn : ClientConnection}
    (same : see conn = see (state.conns slot)) (other : Slot) :
    see (Function.update state.conns slot conn other) = see (state.conns other) := by
  by_cases isSlot : other = slot
  · rw [isSlot, Function.update_self, same]
  · rw [Function.update_of_ne isSlot]

omit [Fintype Worker] [DecidableEq Worker] in
theorem sameSlots_of_update {conn : ClientConnection}
    (conns : after.conns = Function.update state.conns slot conn)
    (fd : conn.fd = (state.conns slot).fd) (isActive : conn.isActive = (state.conns slot).isActive)
    (isBusy : conn.isBusy = (state.conns slot).isBusy) (occupant : after.occupant = state.occupant)
    (descriptors : after.descriptors = state.descriptors) (closes : after.closes = state.closes)
    (accepted : after.accepted = state.accepted) : state.SameSlots after := by
  exact
    { fd := conns ▸ see_update (·.fd) fd
      isActive := conns ▸ see_update (·.isActive) isActive
      isBusy := conns ▸ see_update (·.isBusy) isBusy
      occupant, descriptors, closes, accepted }

theorem Owned.quietTask (owned : state.Owned serverFd) {placeAfter : TaskPlace}
    (at_ : state.pool.workers worker = .work (some task) place)
    (same : state.SameSlots after)
    (pool : after.pool = state.pool.moveWorker worker (.work (some task) placeAfter))
    (reactor : after.reactor = state.reactor) (readFds : after.readFds = state.readFds)
    (working : place ≠ .done) (open_ : place ≠ .deactivate) (workingAfter : placeAfter ≠ .done)
    (openAfter : placeAfter ≠ .deactivate) : after.Owned serverFd := by
  apply owned.quietWork same pool reactor readFds
  · rw [at_, inHand_work working, inHand_work workingAfter]
  · intro slot
    rw [at_, closedHand_work, closedHand_work, if_neg open_, if_neg openAfter]

theorem Owned.recvStep (owned : state.Owned serverFd) {result : RecvResult}
    (at_ : state.pool.workers worker = .work (some task) .recv)
    (taken : state.recvStep worker task result = some after) : after.Owned serverFd := by
  have proceeds : ∀ placeAfter : TaskPlace, placeAfter ≠ .done → placeAfter ≠ .deactivate →
      Owned (state.proceed worker task placeAfter) serverFd := by
    intro placeAfter workingAfter openAfter
    exact owned.quietTask at_ ⟨fun _ => rfl, fun _ => rfl, fun _ => rfl, rfl, rfl, rfl, rfl⟩ rfl rfl
      rfl (by simp) (by simp) workingAfter openAfter
  unfold ServerState.recvStep at taken
  split at taken
  · cases taken
  · rcases Option.map_eq_some_iff.mp taken with ⟨buffer, -, rfl⟩
    exact owned.quietTask at_ (sameSlots_of_update rfl rfl rfl rfl rfl rfl rfl rfl) rfl rfl rfl
      (by simp) (by simp) (by simp) (by simp)
  · cases taken
    exact proceeds .release (by simp) (by simp)
  · cases taken
    exact proceeds .close (by simp) (by simp)
  · cases taken
    exact proceeds .close (by simp) (by simp)
  · cases taken

theorem Owned.taskStep (owned : state.Owned serverFd) {routes : Dictionary RouteHandler}
    {arrival : Arrival} (taken : state.taskStep routes worker arrival = some after) :
    after.Owned serverFd := by
  rw [ServerState.taskStep] at taken
  split at taken
  case h_2 => cases taken
  case h_1 task place at_ =>
    cases place <;> simp only at taken
    case recv => exact owned.recvStep at_ taken
    case advance bytesRead =>
      rcases Option.map_eq_some_iff.mp taken with ⟨buffer, -, rfl⟩
      exact owned.quietTask at_ (sameSlots_of_update rfl rfl rfl rfl rfl rfl rfl rfl) rfl rfl rfl
        (by simp) (by simp) (by simp) (by simp)
    case terminate | resetLength | clearBuffer | stamp =>
      cases taken
      exact owned.quietTask at_ (sameSlots_of_update rfl rfl rfl rfl rfl rfl rfl rfl) rfl rfl rfl
        (by simp) (by simp) (by simp) (by simp)
    case construct | handle =>
      cases taken
      exact owned.quietTask at_ ⟨fun _ => rfl, fun _ => rfl, fun _ => rfl, rfl, rfl, rfl, rfl⟩ rfl
        rfl rfl (by simp) (by simp) (by simp) (by simp)
    case frame | checkActive =>
      cases taken
      refine owned.quietTask at_ ⟨fun _ => rfl, fun _ => rfl, fun _ => rfl, rfl, rfl, rfl, rfl⟩ rfl
        rfl rfl (by simp) (by simp) ?_ ?_ <;> split_ifs <;> simp
    case release =>
      have handsOn := owned.handsOn (inHand_of_work at_ (by simp))
      cases taken
      refine owned.giveBack at_ (by simp) ?_ ?_ ?_ ?_
      · rfl
      · simp
      · exact Bool.and_false _
      · exact Or.inl handsOn.isActive
    case close =>
      cases taken
      exact owned.closeTask at_
    case deactivate =>
      have handsOn := owned.handsOn (inHand_of_work at_ (by simp))
      cases taken
      refine owned.giveBack at_ (by simp) ?_ ?_ ?_ ?_
      · rfl
      · simp
      · rfl
      · exact Or.inr handsOn.isBusy
    case done => cases taken

end Work

end ServerState

end LetUsConnect
