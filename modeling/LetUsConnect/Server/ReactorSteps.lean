import LetUsConnect.Server.WorkerSteps

/-!
# The steps of the reactor keep the slots in order

Most steps only look at the slots. The others claim a slot, hand a task over,
or close a descriptor and give its slot up; before each of them the reactor knows
that no task but its own is in flight for the slot.
-/

namespace LetUsConnect

open Threads

namespace ServerState

variable {Worker : Type} [Fintype Worker] {state after : ServerState Worker}
  {serverFd : ℕ} {slot : Slot} {worker : Worker} {task : ClientTask}

/-! ## Steps of the reactor -/

theorem inFlight_reactor (pool : after.pool = state.pool) (slot : Slot) :
    after.inFlight slot + state.reactor.knows.preparing slot =
      state.inFlight slot + after.reactor.knows.preparing slot := by
  rw [ServerState.inFlight, ServerState.inFlight, pool]
  omega

theorem closing_reactor (pool : after.pool = state.pool) (slot : Slot) :
    after.closing slot + state.reactor.knows.closing slot =
      state.closing slot + after.reactor.knows.closing slot := by
  rw [ServerState.closing, ServerState.closing, pool]
  omega

omit [Fintype Worker] in
theorem carries_reactor (pool : after.pool = state.pool) (carried : after.Carries task) :
    state.Carries task := by
  rw [Carries, pool] at carried
  exact carried

theorem Owned.ne_of_not_owned (owned : state.Owned serverFd) (free : state.owned slot = false)
    (carried : state.Carries task) : task.conn ≠ slot := by
  rintro rfl
  have isOwned := (owned.owned_of_carries carried).1
  rw [free] at isOwned
  cases isOwned

theorem flight_of_update (owned : state.Owned serverFd) (pool : after.pool = state.pool)
    (others : ∀ other, other ≠ slot → after.conns other = state.conns other)
    (preparing : ∀ other, other ≠ slot →
      after.reactor.knows.preparing other = state.reactor.knows.preparing other)
    (claims : ∀ other, other ≠ slot →
      after.reactor.knows.claims other = state.reactor.knows.claims other)
    (here : (after.owned slot).toNat + state.reactor.knows.preparing slot =
      (state.owned slot).toNat + after.reactor.knows.preparing slot) (other : Slot) :
    after.inFlight other = (after.owned other).toNat := by
  have counted := inFlight_reactor pool other
  have before := owned.flight other
  by_cases same : other = slot
  · rw [same] at counted before ⊢
    omega
  · have sameOwned : after.owned other = state.owned other := by
      rw [ServerState.owned, ServerState.owned, others other same, claims other same]
    rw [preparing other same] at counted
    rw [sameOwned]
    omega

/-- The reactor writes a value into a slot and goes on. -/
structure Writes (state after : ServerState Worker) (slot : Slot) (conn : ClientConnection)
    (place : ReactorPlace) : Prop where
  conns : after.conns = Function.update state.conns slot conn
  reactor : after.reactor = place
  pool : after.pool = state.pool
  occupant : after.occupant = state.occupant
  descriptors : after.descriptors = state.descriptors
  closes : after.closes = state.closes
  accepted : after.accepted = state.accepted
  heard : after.heard = state.heard
  dispatched : after.dispatched = state.dispatched

namespace Writes

variable {conn : ClientConnection} {place : ReactorPlace}

omit [Fintype Worker] in
theorem of_setConn (state : ServerState Worker) (slot : Slot) (conn : ClientConnection)
    (place : ReactorPlace) : state.Writes ((state.setConn slot conn).goto place) slot conn place :=
  ⟨rfl, rfl, rfl, rfl, rfl, rfl, rfl, rfl, rfl⟩

omit [Fintype Worker] in
theorem here (writes : state.Writes after slot conn place) : after.conns slot = conn := by
  rw [writes.conns, Function.update_self]

omit [Fintype Worker] in
theorem others (writes : state.Writes after slot conn place) {other : Slot}
    (differs : other ≠ slot) : after.conns other = state.conns other := by
  rw [writes.conns, Function.update_of_ne differs]

theorem tasks (writes : state.Writes after slot conn place) (owned : state.Owned serverFd)
    (fd : conn.fd = (state.conns slot).fd) (task : ClientTask) (carried : after.Carries task) :
    (after.conns task.conn).fd = task.clientFd ∧ after.occupant task.conn = task.connection := by
  have sameFd : (after.conns task.conn).fd = (state.conns task.conn).fd := by
    rw [writes.conns]
    exact see_update (·.fd) fd task.conn
  rw [sameFd, writes.occupant]
  exact owned.tasks task (carries_reactor writes.pool carried)

/-- A write that takes no slot into use and changes no descriptor. -/
theorem ledger (writes : state.Writes after slot conn place) (owned : state.Owned serverFd)
    (fd : conn.fd = (state.conns slot).fd) (isActive : conn.isActive → (state.conns slot).isActive)
    (closing : ∀ other, (after.conns other).isActive → after.closing other = state.closing other) :
    after.Ledger serverFd := by
  apply owned.ledger.of_fewer _ writes.descriptors writes.closes writes.accepted closing
  intro other active
  refine ⟨?_, ?_, congrFun writes.occupant other⟩
  · by_cases isSlot : other = slot
    · rw [isSlot, writes.here] at active
      rw [isSlot]
      exact isActive active
    · rw [writes.others isSlot] at active
      exact active
  · rw [writes.conns]
    exact see_update (·.fd) fd other

end Writes

theorem Owned.accept (owned : state.Owned serverFd) {fd : ℕ} (free : state.descriptors fd = none)
    (at_ : state.reactor = .accept) :
    Owned
      { state.goto (.claim fd state.accepted 0) with
        descriptors := Function.update state.descriptors fd (some (.client state.accepted))
        accepted := state.accepted + 1 } serverFd := by
  generalize isAfter : ({ state.goto (.claim fd state.accepted 0) with
    descriptors := Function.update state.descriptors fd (some (.client state.accepted))
    accepted := state.accepted + 1 } : ServerState Worker) = after
  have conns : after.conns = state.conns := by rw [← isAfter]; rfl
  have occupant : after.occupant = state.occupant := by rw [← isAfter]; rfl
  have closes : after.closes = state.closes := by rw [← isAfter]; rfl
  have accepted : after.accepted = state.accepted + 1 := by rw [← isAfter]
  have pool : after.pool = state.pool := by rw [← isAfter]; rfl
  have reactor : after.reactor = .claim fd state.accepted 0 := by rw [← isAfter]; rfl
  have descriptors : after.descriptors =
      Function.update state.descriptors fd (some (.client state.accepted)) := by rw [← isAfter]
  have closing : ∀ slot, after.closing slot = state.closing slot := by
    intro slot
    have counted := closing_reactor pool slot
    rw [reactor, at_] at counted
    exact counted
  exact
    { flight := by
        intro slot
        have counted := inFlight_reactor pool slot
        have before := owned.flight slot
        rw [reactor, at_] at counted
        rw [ServerState.owned, at_] at before
        rw [ServerState.owned, conns, reactor]
        exact counted.trans before
      tasks := by
        rw [conns, occupant]
        exact fun task carried => owned.tasks task (carries_reactor pool carried)
      ledger :=
        { distinct := by
            rw [conns, occupant]
            exact owned.ledger.distinct
          old := by
            rw [conns, occupant, accepted]
            exact fun slot active => Nat.lt_succ_of_lt (owned.ledger.old slot active)
          unseen := by
            rw [closes, accepted]
            exact fun connection recent => owned.ledger.unseen connection (Nat.le_of_succ_le recent)
          once := by
            rw [closes]
            exact owned.ledger.once
          closed := by
            intro slot active
            rw [conns] at active
            rw [closes, occupant, closing]
            exact owned.ledger.closed slot active
          named := by
            intro slot active open_
            rw [conns] at active ⊢
            rw [closing] at open_
            have named := owned.ledger.named slot active open_
            rw [descriptors, occupant, Function.update_of_ne]
            · exact named
            · rintro same
              rw [same, free] at named
              cases named
          listening := by
            rw [descriptors, Function.update_of_ne]
            · exact owned.ledger.listening
            · rintro same
              have listening := owned.ledger.listening
              rw [same, free] at listening
              cases listening }
      knowledge := by
        rw [reactor]
        refine ⟨?_, ?_, ?_, ?_⟩
        · rw [descriptors, Function.update_self]
        · rw [closes]
          exact owned.ledger.unseen _ le_rfl
        · rw [accepted]
          exact Nat.lt_succ_self _
        · intro slot active
          rw [conns] at active
          rw [occupant]
          exact (owned.ledger.old slot active).ne
      monitored := by
        rw [reactor]
        exact ReactorPlace.unmonitored rfl }

theorem Owned.claimFd (owned : state.Owned serverFd) {fd connection : ℕ}
    (at_ : state.reactor = .claimFd fd connection slot) :
    Owned
      { (state.setConn slot { state.conns slot with fd := fd }).goto
          (.claimTime fd connection slot) with
        occupant := Function.update state.occupant slot connection } serverFd := by
  have knowledge := owned.knowledge
  rw [at_] at knowledge
  rcases knowledge with ⟨held, unused⟩
  generalize isAfter : ({ (state.setConn slot { state.conns slot with fd := fd }).goto
    (.claimTime fd connection slot) with
    occupant := Function.update state.occupant slot connection } : ServerState Worker) = after
  have others : ∀ other, other ≠ slot →
      after.conns other = state.conns other ∧ after.occupant other = state.occupant other := by
    intro other differs
    rw [← isAfter]
    exact ⟨Function.update_of_ne differs _ _, Function.update_of_ne differs _ _⟩
  have here : after.conns slot = { state.conns slot with fd := fd } := by
    rw [← isAfter]
    exact Function.update_self _ _ _
  have pool : after.pool = state.pool := by rw [← isAfter]; rfl
  have reactor : after.reactor = .claimTime fd connection slot := by rw [← isAfter]; rfl
  have notActive : (after.conns slot).isActive = false := by
    rw [here]
    exact unused
  have inUse : ∀ other, (after.conns other).isActive → other ≠ slot := by
    rintro other active rfl
    rw [notActive] at active
    cases active
  have notOwned : state.owned slot = false := by
    rw [ServerState.owned, unused, Bool.false_and]
  exact
    { flight := by
        apply flight_of_update owned pool (fun other differs => (others other differs).1)
        · intro other _
          rw [reactor, at_]
          rfl
        · intro other _
          rw [reactor, at_]
          rfl
        · rw [notOwned, ServerState.owned, notActive, reactor, at_]
          rfl
      tasks := by
        intro task carried
        have carriedBefore := carries_reactor pool carried
        have differs := owned.ne_of_not_owned notOwned carriedBefore
        rw [(others _ differs).1, (others _ differs).2]
        exact owned.tasks task carriedBefore
      ledger := by
        apply owned.ledger.of_fewer _ (by rw [← isAfter]; rfl) (by rw [← isAfter]; rfl)
          (by rw [← isAfter]; rfl)
        · intro other _
          have counted := closing_reactor pool other
          rw [reactor, at_] at counted
          exact counted
        · intro other active
          have differs := inUse other active
          rw [(others other differs).1] at active ⊢
          exact ⟨active, rfl, (others other differs).2⟩
      knowledge := by
        rw [reactor]
        refine ⟨⟨?_, ?_, ?_, ?_⟩, notActive, ?_, ?_⟩
        · rw [← isAfter]
          exact held.named
        · rw [← isAfter]
          exact held.unclosed
        · rw [← isAfter]
          exact held.old
        · intro other active
          have differs := inUse other active
          rw [(others other differs).1] at active
          rw [(others other differs).2]
          exact held.apart other active
        · rw [here]
        · rw [← isAfter]
          exact Function.update_self _ _ _
      monitored := by
        rw [reactor]
        exact ReactorPlace.unmonitored rfl }

theorem Owned.claimTime (owned : state.Owned serverFd) {fd connection : ℕ} {now : ℤ}
    (at_ : state.reactor = .claimTime fd connection slot) :
    Owned ((state.setConn slot { state.conns slot with lastActivity := now }).goto
      (.claimActive fd connection slot)) serverFd := by
  have same : state.SameSlots ((state.setConn slot
      { state.conns slot with lastActivity := now }).goto (.claimActive fd connection slot)) :=
    sameSlots_of_update rfl rfl rfl rfl rfl rfl rfl rfl
  have knowledge := owned.knowledge
  rw [at_] at knowledge
  apply owned.of_same same
  · intro other
    rw [ServerState.inFlight, ServerState.inFlight, at_]
    rfl
  · intro other
    rw [ServerState.closing, ServerState.closing, at_]
    rfl
  · intro other
    rw [at_]
    rfl
  · exact fun _ carried => carried
  · exact same.knows knowledge
  · exact ReactorPlace.unmonitored rfl

/-- A held connection comes into its slot. -/
theorem Ledger.seat (ledger : state.Ledger serverFd) {fd connection : ℕ} {place : ReactorPlace}
    (held : state.Held fd connection)
    (writes : Writes state after slot { state.conns slot with isActive := true } place)
    (named : (state.conns slot).fd = fd) (occupied : state.occupant slot = connection)
    (notClosing : state.closing slot = 0)
    (closing : ∀ other, after.closing other = state.closing other) :
    after.Ledger serverFd where
  distinct := by
    intro one other active otherActive same
    rw [writes.occupant] at same
    by_cases isSlot : one = slot
    · by_cases otherIsSlot : other = slot
      · rw [isSlot, otherIsSlot]
      · rw [writes.others otherIsSlot] at otherActive
        rw [isSlot, occupied] at same
        exact absurd same.symm (held.apart other otherActive)
    · rw [writes.others isSlot] at active
      by_cases otherIsSlot : other = slot
      · rw [otherIsSlot, occupied] at same
        exact absurd same (held.apart one active)
      · rw [writes.others otherIsSlot] at otherActive
        exact ledger.distinct one other active otherActive same
  old := by
    intro other active
    rw [writes.occupant, writes.accepted]
    by_cases isSlot : other = slot
    · rw [isSlot, occupied]
      exact held.old
    · rw [writes.others isSlot] at active
      exact ledger.old other active
  unseen := by
    rw [writes.closes, writes.accepted]
    exact ledger.unseen
  once := by
    rw [writes.closes]
    exact ledger.once
  closed := by
    intro other active
    rw [writes.closes, writes.occupant, closing]
    by_cases isSlot : other = slot
    · rw [isSlot, occupied, held.unclosed, notClosing]
    · rw [writes.others isSlot] at active
      exact ledger.closed other active
  named := by
    intro other active open_
    rw [closing] at open_
    rw [writes.descriptors, writes.occupant]
    by_cases isSlot : other = slot
    · rw [isSlot, writes.here, occupied]
      exact named ▸ held.named
    · rw [writes.others isSlot] at active ⊢
      exact ledger.named other active open_
  listening := by
    rw [writes.descriptors]
    exact ledger.listening

/-- The slot comes into use. -/
theorem Owned.claimActive (owned : state.Owned serverFd) {fd connection : ℕ}
    (at_ : state.reactor = .claimActive fd connection slot) :
    Owned ((state.setConn slot { state.conns slot with isActive := true }).goto
      (.claimBusy fd connection slot)) serverFd := by
  have knowledge := owned.knowledge
  rw [at_] at knowledge
  rcases knowledge with ⟨held, unused, named, occupied⟩
  have writes := Writes.of_setConn state slot { state.conns slot with isActive := true }
    (.claimBusy fd connection slot)
  generalize (state.setConn slot { state.conns slot with isActive := true }).goto
    (.claimBusy fd connection slot) = after at writes
  have here := writes.here
  have closing : ∀ other, after.closing other = state.closing other := by
    intro other
    have counted := closing_reactor writes.pool other
    rw [writes.reactor, at_] at counted
    exact counted
  have notOwned : state.owned slot = false := by
    rw [ServerState.owned, unused, Bool.false_and]
  have noneInFlight : state.inFlight slot = 0 := by
    rw [owned.flight, notOwned]
    rfl
  have notClosing : state.closing slot = 0 := by
    have split := total_handCount state slot
    rw [ServerState.inFlight] at noneInFlight
    rw [ServerState.closing, at_]
    simp only [ReactorPlace.knows, Knowledge.closing]
    omega
  exact
    { flight := by
        apply flight_of_update owned writes.pool (fun other => writes.others)
        · intro other differs
          rw [writes.reactor, at_]
          exact oneFor_of_ne differs.symm
        · intro other differs
          rw [writes.reactor, at_]
          exact decide_eq_false differs.symm
        · rw [notOwned, ServerState.owned, here, writes.reactor, at_]
          simp [ReactorPlace.knows, Knowledge.claims, Knowledge.preparing]
      tasks := by
        intro task carried
        have carriedBefore := carries_reactor writes.pool carried
        rw [writes.others (owned.ne_of_not_owned notOwned carriedBefore), writes.occupant]
        exact owned.tasks task carriedBefore
      ledger := owned.ledger.seat held writes named occupied notClosing closing
      knowledge := by
        rw [writes.reactor]
        refine ⟨?_, ?_, ?_⟩
        · rw [here]
        · rw [here]
          exact named
        · rw [writes.occupant]
          exact occupied
      monitored := by
        rw [writes.reactor]
        exact ReactorPlace.unmonitored rfl }

theorem Owned.markBusy (owned : state.Owned serverFd) {place : ReactorPlace}
    (active : (state.conns slot).isActive)
    (ofKnown : state.reactor.knows = .idle slot ∨
      ∃ fd connection, state.reactor.knows = .claiming fd connection slot)
    (preparing : ∀ other, place.knows.preparing other = oneFor other slot)
    (closing : ∀ other, place.knows.closing other = 0)
    (claims : ∀ other, place.knows.claims other = false) (monitors : place.monitors = false)
    (knowledge : Knows ((state.setConn slot { state.conns slot with isBusy := true }).goto place)
      place.knows) :
    Owned ((state.setConn slot { state.conns slot with isBusy := true }).goto place) serverFd := by
  have writes := Writes.of_setConn state slot { state.conns slot with isBusy := true } place
  generalize (state.setConn slot { state.conns slot with isBusy := true }).goto place = after
    at knowledge writes
  have before : ∀ other, other ≠ slot → state.reactor.knows.preparing other = 0 ∧
      state.reactor.knows.claims other = false := by
    intro other differs
    rcases ofKnown with known | ⟨fd, connection, known⟩
    · rw [known]
      exact ⟨rfl, rfl⟩
    · rw [known]
      exact ⟨oneFor_of_ne differs.symm, decide_eq_false differs.symm⟩
  have notClosing : ∀ other, state.reactor.knows.closing other = 0 := by
    intro other
    rcases ofKnown with known | ⟨fd, connection, known⟩ <;> rw [known] <;> rfl
  exact
    { flight := by
        apply flight_of_update owned writes.pool (fun other => writes.others)
        · intro other differs
          rw [writes.reactor, preparing, (before other differs).1, oneFor_of_ne differs.symm]
        · intro other differs
          rw [writes.reactor, claims, (before other differs).2]
        · rw [writes.reactor, preparing, oneFor_self, ServerState.owned, writes.here,
            ServerState.owned, active]
          rcases ofKnown with known | ⟨fd, connection, known⟩
          · have idle := owned.knowledge
            rw [known] at idle
            rw [known, idle.2]
            rfl
          · rw [known]
            simp [Knowledge.claims, Knowledge.preparing]
      tasks := writes.tasks owned rfl
      ledger := by
        apply writes.ledger owned rfl id
        intro other _
        have counted := closing_reactor writes.pool other
        rw [writes.reactor, closing, notClosing] at counted
        exact counted
      knowledge := by
        rw [writes.reactor]
        exact knowledge
      monitored := by
        rw [writes.reactor]
        exact ReactorPlace.unmonitored monitors }

theorem Owned.closeByReactor (owned : state.Owned serverFd) {fd connection : ℕ}
    {place : ReactorPlace} (named : state.descriptors fd = some (.client connection))
    (unclosed : state.closes connection = 0) (old : connection < state.accepted)
    (preparing : ∀ slot, place.knows.preparing slot = state.reactor.knows.preparing slot)
    (claims : ∀ slot, place.knows.claims slot = state.reactor.knows.claims slot)
    (closing : ∀ slot, (state.conns slot).isActive → place.knows.closing slot =
      state.reactor.knows.closing slot + if state.occupant slot = connection then 1 else 0)
    (monitors : place.monitors = false)
    (knowledge : Knows ((state.closeFd fd connection).goto place) place.knows) :
    Owned ((state.closeFd fd connection).goto place) serverFd := by
  generalize isAfter : (state.closeFd fd connection).goto place = after at knowledge
  have conns : after.conns = state.conns := by rw [← isAfter]; rfl
  have occupant : after.occupant = state.occupant := by rw [← isAfter]; rfl
  have pool : after.pool = state.pool := by rw [← isAfter]; rfl
  have reactor : after.reactor = place := by rw [← isAfter]; rfl
  exact
    { flight := by
        intro slot
        have counted := inFlight_reactor pool slot
        have before := owned.flight slot
        rw [ServerState.owned] at before ⊢
        rw [reactor, preparing] at counted
        rw [conns, reactor, claims]
        omega
      tasks := by
        rw [conns, occupant]
        exact fun task carried => owned.tasks task (carries_reactor pool carried)
      ledger := by
        refine owned.ledger.close named unclosed old conns occupant ?_ ?_ ?_ ?_
        · rw [← isAfter]
          rfl
        · rw [← isAfter]
          rfl
        · rw [← isAfter]
          rfl
        · intro slot active
          have counted := closing_reactor pool slot
          rw [reactor, closing slot active] at counted
          omega
      knowledge := by
        rw [reactor]
        exact knowledge
      monitored := by
        rw [reactor]
        exact ReactorPlace.unmonitored monitors }

theorem Owned.dropByReactor (owned : state.Owned serverFd) {place : ReactorPlace}
    (ofKnown : state.reactor.knows = .dropping slot ∨ state.reactor.knows = .expiring slot)
    (known : place.knows = .nothing) (monitors : place.monitors = false) :
    Owned ((state.setConn slot { state.conns slot with isActive := false }).goto place)
      serverFd := by
  have writes := Writes.of_setConn state slot { state.conns slot with isActive := false } place
  generalize (state.setConn slot { state.conns slot with isActive := false }).goto place = after
    at writes
  have before : ∀ other, other ≠ slot → state.reactor.knows.preparing other = 0 ∧
      state.reactor.knows.closing other = 0 := by
    intro other differs
    rcases ofKnown with known | known <;> rw [known]
    · exact ⟨oneFor_of_ne differs.symm, oneFor_of_ne differs.symm⟩
    · exact ⟨rfl, oneFor_of_ne differs.symm⟩
  have unclaimed : ∀ other, state.reactor.knows.claims other = false := by
    intro other
    rcases ofKnown with known | known <;> rw [known] <;> rfl
  have ownedHere : (state.owned slot).toNat = state.reactor.knows.preparing slot := by
    have knowledge := owned.knowledge
    rw [ServerState.owned, unclaimed]
    rcases ofKnown with known | known <;> rw [known] at knowledge ⊢
    · rw [knowledge.1, knowledge.2]
      exact (oneFor_self slot).symm
    · rw [knowledge.1, knowledge.2]
      rfl
  have notActive : (after.conns slot).isActive = false := by rw [writes.here]
  exact
    { flight := by
        apply flight_of_update owned writes.pool (fun other => writes.others)
        · intro other differs
          rw [writes.reactor, known, (before other differs).1]
          rfl
        · intro other _
          rw [writes.reactor, known, unclaimed]
          rfl
        · rw [ServerState.owned, notActive, writes.reactor, known, ← ownedHere]
          exact Nat.add_comm _ _
      tasks := writes.tasks owned rfl
      ledger := by
        apply writes.ledger owned rfl (by simp)
        intro other active
        have differs : other ≠ slot := by
          rintro rfl
          rw [notActive] at active
          cases active
        have counted := closing_reactor writes.pool other
        rw [writes.reactor, known, (before other differs).2] at counted
        exact counted
      knowledge := by
        rw [writes.reactor, known]
        trivial
      monitored := by
        rw [writes.reactor]
        exact ReactorPlace.unmonitored monitors }

theorem Owned.handOver (owned : state.Owned serverFd) {place : ReactorPlace}
    (named : (state.conns task.conn).fd = task.clientFd)
    (occupied : state.occupant task.conn = task.connection)
    (preparing : ∀ slot, state.reactor.knows.preparing slot = oneFor slot task.conn)
    (closing : ∀ slot, state.reactor.knows.closing slot = 0)
    (claims : ∀ slot, state.reactor.knows.claims slot = false)
    (known : place.knows = .nothing) (monitors : place.monitors = false)
    (taken : state.handOver task place = some after) : after.Owned serverFd := by
  rcases Option.map_eq_some_iff.mp taken with ⟨pool, added, isAfter⟩
  rcases ThreadPool.addWork_cases added with ⟨noOffer, isPool⟩
  have conns : after.conns = state.conns := by rw [← isAfter]; rfl
  have occupant : after.occupant = state.occupant := by rw [← isAfter]; rfl
  have reactor : after.reactor = place := by rw [← isAfter]; rfl
  have poolAfter : after.pool = state.pool.moveAdder () (.mutexLock task) := by
    rw [← isAfter]
    exact isPool
  have offers : (after.pool.adders ()).offered = some task := by
    rw [poolAfter, ThreadPool.adders_moveAdder, Function.update_self]
    rfl
  exact
    { flight := by
        intro slot
        have before := owned.flight slot
        rw [ServerState.owned, claims] at before
        rw [ServerState.inFlight, noOffer, preparing] at before
        rw [ServerState.owned, conns, reactor, known]
        rw [ServerState.inFlight, offers, reactor, known, poolAfter,
          ThreadPool.workers_moveAdder, ThreadPool.queued_moveAdder]
        simp only [Knowledge.preparing, Knowledge.claims, Option.elim_some, Option.elim_none]
          at before ⊢
        omega
      tasks := by
        intro other carried
        rw [conns, occupant]
        rcases carried with offered | queued | ⟨worker, hand⟩
        · rw [offers, Option.some.injEq] at offered
          rw [← offered]
          exact ⟨named, occupied⟩
        · rw [poolAfter, ThreadPool.queued_moveAdder] at queued
          exact owned.tasks other (Or.inr (Or.inl queued))
        · rw [poolAfter, ThreadPool.workers_moveAdder] at hand
          exact owned.tasks other (Or.inr (Or.inr ⟨worker, hand⟩))
      ledger := by
        apply owned.ledger.of_fewer _ (by rw [← isAfter]; rfl) (by rw [← isAfter]; rfl)
          (by rw [← isAfter]; rfl)
        · intro slot _
          rw [ServerState.closing, ServerState.closing, reactor, known, closing, poolAfter,
            ThreadPool.workers_moveAdder]
          rfl
        · intro slot active
          rw [conns] at active ⊢
          rw [occupant]
          exact ⟨active, rfl, rfl⟩
      knowledge := by
        rw [reactor, known]
        trivial
      monitored := by
        rw [reactor]
        exact ReactorPlace.unmonitored monitors }

theorem Owned.look (owned : state.Owned serverFd) {place : ReactorPlace}
    (lightBefore : state.reactor.knows.light) (light : place.knows.light)
    (learned : state.Knows place.knows)
    (monitors : place.monitors → state.reactor.monitors) : Owned (state.goto place) serverFd := by
  have before := Knowledge.counts_of_light lightBefore
  have afterwards := Knowledge.counts_of_light light
  refine owned.goto ?_ ?_ ?_ learned ?_
  · intro slot
    rw [(before slot).1, (afterwards slot).1]
  · intro slot
    rw [(before slot).2.1, (afterwards slot).2.1]
  · intro slot
    rw [(before slot).2.2, (afterwards slot).2.2]
  · exact fun monitoring => owned.monitored (monitors monitoring)

theorem Owned.stay (owned : state.Owned serverFd) {place : ReactorPlace}
    (same : place.knows = state.reactor.knows) (monitors : place.monitors = false) :
    Owned (state.goto place) serverFd := by
  refine owned.goto ?_ ?_ ?_ (same ▸ owned.knowledge) ?_
  · intro slot
    rw [same]
  · intro slot
    rw [same]
  · intro slot
    rw [same]
  · rw [monitors]
    simp

theorem Owned.visit (owned : state.Owned serverFd) {index : ℕ} {inUse : Slot → ReactorPlace}
    {next finished : ReactorPlace} (before : state.reactor.knows = .nothing)
    (sees : ∀ slot, (inUse slot).knows = .seen slot) (nextKnows : next.knows = .nothing)
    (finishedKnows : finished.knows = .nothing)
    (monitors : ∀ place, (∃ slot, place = inUse slot) ∨ place = next ∨ place = finished →
      place.monitors → state.reactor.monitors) :
    Owned (state.visit index inUse next finished) serverFd := by
  have lightBefore : state.reactor.knows.light := by rw [before]; rfl
  rw [ServerState.visit]
  split
  · apply owned.look lightBefore
    · rw [finishedKnows]
      rfl
    · rw [finishedKnows]
      trivial
    · exact monitors finished (Or.inr (Or.inr rfl))
  · split_ifs with active
    · apply owned.look lightBefore
      · rw [sees]
        rfl
      · rw [sees]
        exact Or.inl active
      · exact monitors _ (Or.inl ⟨_, rfl⟩)
    · apply owned.look lightBefore
      · rw [nextKnows]
        rfl
      · rw [nextKnows]
        trivial
      · exact monitors next (Or.inr (Or.inl rfl))

theorem Owned.closing_of_reactor (owned : state.Owned serverFd)
    (prepared : (state.owned slot).toNat = state.reactor.knows.preparing slot)
    (notClosing : state.reactor.knows.closing slot = 0) : state.closing slot = 0 := by
  have flight := owned.flight slot
  have split := total_handCount state slot
  rw [ServerState.inFlight] at flight
  rw [ServerState.closing]
  omega

/-- What a descriptor of such a slot names. -/
theorem Owned.named_of_reactor (owned : state.Owned serverFd)
    (active : (state.conns slot).isActive)
    (prepared : (state.owned slot).toNat = state.reactor.knows.preparing slot)
    (notClosing : state.reactor.knows.closing slot = 0) :
    state.descriptors (state.conns slot).fd = some (.client (state.occupant slot)) ∧
      state.closes (state.occupant slot) = 0 ∧ state.occupant slot < state.accepted := by
  have open_ := owned.closing_of_reactor prepared notClosing
  refine ⟨owned.ledger.named slot active open_, ?_, owned.ledger.old slot active⟩
  rw [owned.ledger.closed slot active, open_]

theorem Owned.occupant_eq_iff (owned : state.Owned serverFd) (active : (state.conns slot).isActive)
    {other : Slot} (otherActive : (state.conns other).isActive) :
    state.occupant other = state.occupant slot ↔ slot = other := by
  constructor
  · intro same
    exact (owned.ledger.distinct other slot otherActive active same).symm
  · rintro rfl
    rfl

theorem Owned.closeSlot (owned : state.Owned serverFd) {place : ReactorPlace}
    (active : (state.conns slot).isActive)
    (prepared : (state.owned slot).toNat = state.reactor.knows.preparing slot)
    (notClosing : ∀ other, state.reactor.knows.closing other = 0)
    (preparing : ∀ other, place.knows.preparing other = state.reactor.knows.preparing other)
    (claims : ∀ other, place.knows.claims other = state.reactor.knows.claims other)
    (closing : ∀ other, place.knows.closing other = oneFor other slot)
    (monitors : place.monitors = false)
    (knowledge : Knows ((state.closeFd (state.conns slot).fd (state.occupant slot)).goto place)
      place.knows) :
    Owned ((state.closeFd (state.conns slot).fd (state.occupant slot)).goto place) serverFd := by
  rcases owned.named_of_reactor active prepared (notClosing slot) with ⟨named, unclosed, old⟩
  refine owned.closeByReactor named unclosed old preparing claims ?_ monitors knowledge
  intro other otherActive
  rw [closing, notClosing, Nat.zero_add, oneFor]
  exact if_congr (owned.occupant_eq_iff active otherActive).symm rfl rfl

/-- `add_work` never fails on a pool of static size. -/
theorem Owned.addWorkReturned (owned : state.Owned serverFd) (delivers : state.pool.Delivers)
    {succeeded failed : ReactorPlace} (before : state.reactor.knows = .nothing)
    (known : succeeded.knows = .nothing) (monitors : succeeded.monitors = false)
    (taken : state.addWorkReturned succeeded failed = some after) : after.Owned serverFd := by
  unfold ServerState.addWorkReturned at taken
  split at taken
  case h_2 => cases taken
  case h_1 result returned =>
    have zero := delivers.succeeds () result returned
    rw [zero] at taken
    cases taken
    exact owned.stay (known.trans before.symm) monitors

theorem Owned.scanSet (owned : state.Owned serverFd) (at_ : state.reactor = .scanSet slot) :
    Owned { state.goto (.scan (slot + 1)) with
      readFds := insert (state.conns slot).fd state.readFds } serverFd := by
  have knowledge := owned.knowledge
  have monitored := owned.monitored
  rw [at_] at knowledge monitored
  refine owned.goto ?_ ?_ ?_ trivial ?_
  · rw [at_]
    exact fun _ => rfl
  · rw [at_]
    exact fun _ => rfl
  · rw [at_]
    exact fun _ => rfl
  · intro _ fd member
    rcases Finset.mem_insert.mp member with isSlot | member
    · exact Or.inr ⟨slot, knowledge.1, knowledge.2, isSlot.symm⟩
    · exact monitored rfl fd member

theorem Owned.select (owned : state.Owned serverFd) {input : ReactorInput}
    (at_ : state.reactor = .select) (taken : state.reactorStep serverFd input = some after) :
    after.Owned serverFd := by
  simp only [ServerState.reactorStep, at_] at taken
  cases chosen : input.ready with
  | none =>
      simp only [chosen] at taken
      cases taken
      exact owned.stay (by rw [at_]; rfl) rfl
  | some ready =>
      simp only [chosen] at taken
      split_ifs at taken <;> cases taken
      all_goals
        refine owned.goto ?_ ?_ ?_ trivial (ReactorPlace.unmonitored rfl)
        · rw [at_]
          exact fun _ => rfl
        · rw [at_]
          exact fun _ => rfl
        · rw [at_]
          exact fun _ => rfl

theorem Owned.reject (owned : state.Owned serverFd) {fd connection : ℕ}
    (at_ : state.reactor = .reject fd connection) :
    Owned ((state.closeFd fd connection).goto .accept) serverFd := by
  have held := owned.knowledge
  rw [at_] at held
  refine owned.closeByReactor held.named held.unclosed held.old ?_ ?_ ?_ rfl trivial
  · rw [at_]
    exact fun _ => rfl
  · rw [at_]
    exact fun _ => rfl
  · intro slot active
    rw [at_, if_neg (held.apart slot active)]
    rfl

theorem Owned.giveUp (owned : state.Owned serverFd) {fd connection : ℕ}
    (at_ : state.reactor = .giveUp fd connection slot) :
    Owned ((state.closeFd fd connection).goto (.giveUpSlot slot)) serverFd := by
  have knowledge := owned.knowledge
  rw [at_] at knowledge
  rcases knowledge with ⟨active, busy, rfl, rfl⟩
  refine owned.closeSlot active ?_ ?_ ?_ ?_ (fun _ => rfl) rfl ⟨active, busy⟩
  · rw [ServerState.owned, active, busy, at_]
    exact (oneFor_self slot).symm
  · rw [at_]
    exact fun _ => rfl
  · rw [at_]
    exact fun _ => rfl
  · rw [at_]
    exact fun _ => rfl

theorem Owned.readyGiveUp (owned : state.Owned serverFd)
    (at_ : state.reactor = .readyGiveUp slot) :
    Owned ((state.closeFd (state.conns slot).fd (state.occupant slot)).goto
      (.readyGiveUpSlot slot)) serverFd := by
  have knowledge := owned.knowledge
  rw [at_] at knowledge
  rcases knowledge with ⟨active, busy⟩
  refine owned.closeSlot active ?_ ?_ ?_ ?_ (fun _ => rfl) rfl ⟨active, busy⟩
  · rw [ServerState.owned, active, busy, at_]
    exact (oneFor_self slot).symm
  · rw [at_]
    exact fun _ => rfl
  · rw [at_]
    exact fun _ => rfl
  · rw [at_]
    exact fun _ => rfl

theorem Owned.timeoutClose (owned : state.Owned serverFd) {now : ℤ}
    (at_ : state.reactor = .timeoutClose now slot) :
    Owned ((state.closeFd (state.conns slot).fd (state.occupant slot)).goto
      (.timeoutSlot now slot)) serverFd := by
  have knowledge := owned.knowledge
  rw [at_] at knowledge
  rcases knowledge with ⟨active, idle⟩
  refine owned.closeSlot active ?_ ?_ ?_ ?_ (fun _ => rfl) rfl ⟨active, idle⟩
  · rw [ServerState.owned, active, idle, at_]
    rfl
  · rw [at_]
    exact fun _ => rfl
  · rw [at_]
    exact fun _ => rfl
  · rw [at_]
    exact fun _ => rfl

theorem Owned.claimBusy (owned : state.Owned serverFd) {fd connection : ℕ}
    (at_ : state.reactor = .claimBusy fd connection slot) :
    Owned ((state.setConn slot { state.conns slot with isBusy := true }).goto
      (.prepare fd connection slot)) serverFd := by
  have knowledge := owned.knowledge
  rw [at_] at knowledge
  rcases knowledge with ⟨active, named, occupied⟩
  refine owned.markBusy active (Or.inr ⟨fd, connection, by rw [at_]; rfl⟩) (fun _ => rfl)
    (fun _ => rfl) (fun _ => rfl) rfl ?_
  simp [Knows, ReactorPlace.knows, ServerState.goto, setConn, active, named, occupied]

theorem Owned.readyMark (owned : state.Owned serverFd) (at_ : state.reactor = .readyMark slot) :
    Owned ((state.setConn slot { state.conns slot with isBusy := true }).goto (.readyPrepare slot))
      serverFd := by
  have knowledge := owned.knowledge
  rw [at_] at knowledge
  refine owned.markBusy knowledge.1 (Or.inl (by rw [at_]; rfl)) (fun _ => rfl) (fun _ => rfl)
    (fun _ => rfl) rfl ?_
  simp [Knows, ReactorPlace.knows, ServerState.goto, setConn, knowledge.1]

theorem Owned.prepare (owned : state.Owned serverFd) {fd connection : ℕ}
    (at_ : state.reactor = .prepare fd connection slot)
    (taken : state.handOver ⟨fd, slot, connection⟩ (.submit fd connection slot) = some after) :
    after.Owned serverFd := by
  have knowledge := owned.knowledge
  rw [at_] at knowledge
  rcases knowledge with ⟨-, -, named, occupied⟩
  refine owned.handOver named occupied ?_ ?_ ?_ rfl rfl taken
  · rw [at_]
    exact fun _ => rfl
  · rw [at_]
    exact fun _ => rfl
  · rw [at_]
    exact fun _ => rfl

theorem Owned.readyPrepare (owned : state.Owned serverFd)
    (at_ : state.reactor = .readyPrepare slot)
    (taken : state.handOver ⟨(state.conns slot).fd, slot, state.occupant slot⟩ (.readySubmit slot) =
      some after) : after.Owned serverFd := by
  refine owned.handOver rfl rfl ?_ ?_ ?_ rfl rfl taken
  · rw [at_]
    exact fun _ => rfl
  · rw [at_]
    exact fun _ => rfl
  · rw [at_]
    exact fun _ => rfl

/-- Having looked at `is_active`, the reactor looks at `is_busy`. -/
theorem Owned.testBusy (owned : state.Owned serverFd) {slot : Slot} {busy free : ReactorPlace}
    (sees : state.reactor.knows = .seen slot) (busyKnows : busy.knows = .nothing)
    (freeKnows : free.knows = .idle slot)
    (monitors : ∀ place, place = busy ∨ place = free → place.monitors → state.reactor.monitors) :
    Owned (state.goto (if (state.conns slot).isBusy then busy else free)) serverFd := by
  have inUse : (state.conns slot).isActive ∨ (state.conns slot).isBusy := by
    have knowledge := owned.knowledge
    rwa [sees] at knowledge
  apply owned.look (by rw [sees]; rfl)
  · split_ifs
    · rw [busyKnows]
      rfl
    · rw [freeKnows]
      rfl
  · split_ifs with isBusy
    · rw [busyKnows]
      trivial
    · rw [freeKnows]
      exact ⟨inUse.resolve_right isBusy, Bool.eq_false_iff.mpr isBusy⟩
  · split_ifs
    · exact monitors busy (Or.inl rfl)
    · exact monitors free (Or.inr rfl)

/-- Knowing a slot to be idle, the reactor goes on with it or with the next one. -/
theorem Owned.testIdle (owned : state.Owned serverFd) {slot : Slot} {goes next : ReactorPlace}
    {condition : Prop} [Decidable condition] (isIdle : state.reactor.knows = .idle slot)
    (goesKnows : goes.knows = .idle slot) (nextKnows : next.knows = .nothing)
    (goesOutside : goes.monitors = false) (nextOutside : next.monitors = false) :
    Owned (state.goto (if condition then goes else next)) serverFd := by
  have knowledge := owned.knowledge
  rw [isIdle] at knowledge
  apply owned.look (by rw [isIdle]; rfl)
  · split_ifs
    · rw [goesKnows]
      rfl
    · rw [nextKnows]
      rfl
  · split_ifs
    · rw [goesKnows]
      exact knowledge
    · rw [nextKnows]
      trivial
  · split_ifs
    · exact ReactorPlace.unmonitored goesOutside
    · exact ReactorPlace.unmonitored nextOutside

theorem Owned.loopStart (owned : state.Owned serverFd) (at_ : state.reactor = .loopStart) :
    Owned { state.goto (.scan 0) with readFds := {serverFd} } serverFd := by
  refine owned.goto ?_ ?_ ?_ trivial ?_
  · rw [at_]
    exact fun _ => rfl
  · rw [at_]
    exact fun _ => rfl
  · rw [at_]
    exact fun _ => rfl
  · intro _ fd member
    exact Or.inl (Finset.mem_singleton.mp member)

theorem Owned.scanStep (owned : state.Owned serverFd) (scans : state.reactor.loop = .scan)
    {input : ReactorInput} (taken : state.reactorStep serverFd input = some after) :
    after.Owned serverFd := by
  cases at_ : state.reactor
  case select => exact owned.select at_ taken
  all_goals rw [at_] at scans; cases scans
  all_goals simp only [ServerState.reactorStep, at_] at taken; cases taken
  case loopStart => exact owned.loopStart at_
  case scan index =>
    apply owned.visit (by rw [at_]; rfl) (fun _ => rfl) rfl rfl
    intro _ _ _
    rw [at_]
    rfl
  case scanBusy slot =>
    apply owned.testBusy (by rw [at_]; rfl) rfl rfl
    intro _ _ _
    rw [at_]
    rfl
  case scanSet slot => exact owned.scanSet at_

theorem Owned.acceptStep (owned : state.Owned serverFd) (delivers : state.pool.Delivers)
    (accepts : state.reactor.loop = .accept) {input : ReactorInput}
    (taken : state.reactorStep serverFd input = some after) : after.Owned serverFd := by
  have knowledge := owned.knowledge
  cases at_ : state.reactor <;> rw [at_] at accepts knowledge <;> cases accepts <;>
    simp only [ServerState.reactorStep, at_] at taken
  case accept =>
    split at taken
    · cases taken
      exact owned.stay (by rw [at_]; rfl) rfl
    · split_ifs at taken with free
      cases taken
      exact owned.accept free at_
  case claim fd connection index =>
    split at taken
    · cases taken
      exact owned.stay (by rw [at_]; rfl) rfl
    · cases taken
      split_ifs with active
      · exact owned.stay (by rw [at_]; rfl) rfl
      · exact owned.look (by rw [at_]; rfl) rfl ⟨knowledge, Bool.eq_false_iff.mpr active⟩
          (ReactorPlace.unmonitored rfl)
  case claimFd fd connection slot =>
    cases taken
    exact owned.claimFd at_
  case claimTime fd connection slot =>
    cases taken
    exact owned.claimTime at_
  case claimActive fd connection slot =>
    cases taken
    exact owned.claimActive at_
  case claimBusy fd connection slot =>
    cases taken
    exact owned.claimBusy at_
  case reject fd connection =>
    cases taken
    exact owned.reject at_
  case prepare fd connection slot =>
    split_ifs at taken
    · exact owned.prepare at_ taken
    · cases taken
      exact owned.stay (by rw [at_]; rfl) rfl
  case submit fd connection slot =>
    exact owned.addWorkReturned delivers (by rw [at_]; rfl) rfl rfl taken
  case giveUp fd connection slot =>
    cases taken
    exact owned.giveUp at_
  case giveUpSlot slot =>
    cases taken
    exact owned.dropByReactor (Or.inl (by rw [at_]; rfl)) rfl rfl

theorem Owned.readyStep (owned : state.Owned serverFd) (delivers : state.pool.Delivers)
    (serves : state.reactor.loop = .ready) {input : ReactorInput}
    (taken : state.reactorStep serverFd input = some after) : after.Owned serverFd := by
  cases at_ : state.reactor <;> rw [at_] at serves <;> cases serves <;>
    simp only [ServerState.reactorStep, at_] at taken
  case readySubmit slot => exact owned.addWorkReturned delivers (by rw [at_]; rfl) rfl rfl taken
  case readyPrepare slot =>
    split_ifs at taken
    · exact owned.readyPrepare at_ taken
    · cases taken
      exact owned.stay (by rw [at_]; rfl) rfl
  all_goals cases taken
  case ready index =>
    apply owned.visit (by rw [at_]; rfl) (fun _ => rfl) rfl rfl
    rintro place (⟨slot, rfl⟩ | rfl | rfl) monitoring <;> cases monitoring
  case readyBusy slot =>
    apply owned.testBusy (by rw [at_]; rfl) rfl rfl
    rintro place (rfl | rfl) monitoring <;> cases monitoring
  case readyIsSet slot => exact owned.testIdle (by rw [at_]; rfl) rfl rfl rfl rfl
  case readyMark slot => exact owned.readyMark at_
  case readyGiveUp slot => exact owned.readyGiveUp at_
  case readyGiveUpSlot slot => exact owned.dropByReactor (Or.inl (by rw [at_]; rfl)) rfl rfl

theorem Owned.timeoutStep (owned : state.Owned serverFd) (expires : state.reactor.loop = .timeout)
    {input : ReactorInput} (taken : state.reactorStep serverFd input = some after) :
    after.Owned serverFd := by
  cases at_ : state.reactor <;> rw [at_] at expires <;> cases expires <;>
    simp only [ServerState.reactorStep, at_] at taken <;> cases taken
  case timeouts => exact owned.stay (by rw [at_]; rfl) rfl
  case timeout now index =>
    apply owned.visit (by rw [at_]; rfl) (fun _ => rfl) rfl rfl
    rintro place (⟨slot, rfl⟩ | rfl | rfl) monitoring <;> cases monitoring
  case timeoutBusy now slot =>
    apply owned.testBusy (by rw [at_]; rfl) rfl rfl
    rintro place (rfl | rfl) monitoring <;> cases monitoring
  case timeoutAge now slot => exact owned.testIdle (by rw [at_]; rfl) rfl rfl rfl rfl
  case timeoutClose now slot => exact owned.timeoutClose at_
  case timeoutSlot now slot => exact owned.dropByReactor (Or.inr (by rw [at_]; rfl)) rfl rfl

theorem Owned.reactorStep (owned : state.Owned serverFd) (delivers : state.pool.Delivers)
    {input : ReactorInput} (taken : state.reactorStep serverFd input = some after) :
    after.Owned serverFd := by
  cases here : state.reactor.loop with
  | scan => exact owned.scanStep here taken
  | accept => exact owned.acceptStep delivers here taken
  | ready => exact owned.readyStep delivers here taken
  | timeout => exact owned.timeoutStep here taken
  | stopped =>
      cases at_ : state.reactor <;> rw [at_] at here <;> cases here
      rw [ServerState.reactorStep, at_] at taken
      cases taken

end ServerState

end LetUsConnect
