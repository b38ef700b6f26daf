import LetUsConnect.Network.ThreadPool.Delivery
import LetUsConnect.Server

/-!
# Slots and their tasks

Every slot is at any time in the hands of one party: of the reactor while it is
idle or being claimed, of the task in flight while it is busy. The proof counts
the tasks in flight for each slot, from the reactor that prepares one over the
queue to the workers, and shows the count to be what `is_active` and `is_busy`
say.
-/

namespace LetUsConnect

open Threads

/-! ## What the reactor knows -/

/-- What the reactor relies on at a place, from what it has read and written. -/
inductive Knowledge where
  | nothing
  /-- The slot was in use when the reactor looked. -/
  | seen (slot : Slot)
  | idle (slot : Slot)
  /-- An idle slot whose descriptor the reactor has closed. -/
  | expiring (slot : Slot)
  | accepted (fd connection : ℕ)
  | unclaimed (fd connection : ℕ) (slot : Slot)
  | writing (fd connection : ℕ) (slot : Slot)
  | claiming (fd connection : ℕ) (slot : Slot)
  | claimed (fd connection : ℕ) (slot : Slot)
  | marked (slot : Slot)
  /-- A slot handed to nobody whose descriptor the reactor has closed. -/
  | dropping (slot : Slot)

/-- The loops that one round of the main loop goes through. -/
inductive ReactorLoop where
  | scan
  | accept
  | ready
  | timeout
  /-- The main loop has been left. -/
  | stopped

namespace ReactorPlace

def knows : ReactorPlace → Knowledge
  | .scanBusy slot | .readyBusy slot | .timeoutBusy _ slot => .seen slot
  | .scanSet slot | .readyIsSet slot | .readyMark slot => .idle slot
  | .timeoutAge _ slot | .timeoutClose _ slot => .idle slot
  | .timeoutSlot _ slot => .expiring slot
  | .claim fd connection _ | .reject fd connection => .accepted fd connection
  | .claimFd fd connection slot => .unclaimed fd connection slot
  | .claimTime fd connection slot | .claimActive fd connection slot => .writing fd connection slot
  | .claimBusy fd connection slot => .claiming fd connection slot
  | .prepare fd connection slot | .giveUp fd connection slot => .claimed fd connection slot
  | .readyPrepare slot | .readyGiveUp slot => .marked slot
  | .giveUpSlot slot | .readyGiveUpSlot slot => .dropping slot
  | _ => .nothing

/-- The loop of the main loop that a place belongs to. -/
def loop : ReactorPlace → ReactorLoop
  | .loopStart | .scan _ | .scanBusy _ | .scanSet _ | .select => .scan
  | .ready _ | .readyBusy _ | .readyIsSet _ | .readyMark _ | .readyPrepare _ | .readySubmit _
  | .readyGiveUp _ | .readyGiveUpSlot _ => .ready
  | .timeouts | .timeout _ _ | .timeoutBusy _ _ | .timeoutAge _ _ | .timeoutClose _ _
  | .timeoutSlot _ _ => .timeout
  | .stopped => .stopped
  | _ => .accept

/-- The places between `FD_ZERO` and the return of `select`. -/
def monitors : ReactorPlace → Bool
  | .scan _ | .scanBusy _ | .scanSet _ | .select => true
  | _ => false

/-- The places inside a section guarded by `conns_mutex`, which begins with its first access. -/
def guarded : ReactorPlace → Bool
  | .loopStart | .scan 0 | .select | .accept | .claim _ _ 0 | .reject _ _ | .prepare _ _ _
  | .submit _ _ _ | .giveUp _ _ _ | .giveUpSlot _ | .ready 0 | .timeouts | .timeout _ 0
  | .stopped => false
  | _ => true

theorem unmonitored {place : ReactorPlace} (outside : place.monitors = false) {goal : Prop}
    (monitoring : place.monitors) : goal := by
  rw [outside] at monitoring
  cases monitoring

end ReactorPlace

/-- One for the slot a quantity is counted for, zero for any other. -/
def oneFor (slot other : Slot) : ℕ := if other = slot then 1 else 0

@[simp]
theorem oneFor_self (slot : Slot) : oneFor slot slot = 1 := if_pos rfl

theorem oneFor_of_ne {slot other : Slot} (differs : other ≠ slot) : oneFor slot other = 0 :=
  if_neg differs

namespace Knowledge

/-- A task the reactor is preparing. -/
def preparing (slot : Slot) : Knowledge → ℕ
  | .claiming _ _ other | .claimed _ _ other | .marked other | .dropping other => oneFor slot other
  | _ => 0

/-- A slot the reactor is about to give up, its descriptor closed. -/
def closing (slot : Slot) : Knowledge → ℕ
  | .expiring other | .dropping other => oneFor slot other
  | _ => 0

/-- A slot that is in use already but not yet marked busy. -/
def claims (slot : Slot) : Knowledge → Bool
  | .claiming _ _ other => other = slot
  | _ => false

/-- Knowledge that neither counts as a task nor announces a slot given up. -/
def light : Knowledge → Bool
  | .nothing | .seen _ | .idle _ | .accepted _ _ | .unclaimed _ _ _ => true
  | _ => false

variable {knowledge : Knowledge} {slot : Slot}

theorem preparing_of_claims (claims : knowledge.claims slot) : knowledge.preparing slot = 1 := by
  cases knowledge <;> simp_all [Knowledge.claims, preparing]

theorem counts_of_light (isLight : knowledge.light) (slot : Slot) :
    knowledge.preparing slot = 0 ∧ knowledge.closing slot = 0 ∧ knowledge.claims slot = false := by
  cases knowledge <;> first | exact ⟨rfl, rfl, rfl⟩ | cases isLight

end Knowledge

/-! ## Tasks in flight -/

/-- The task of a worker that has not yet written `is_busy = 0` or `is_active = 0`. -/
def inHand (place : WorkerPlace ClientTask TaskPlace) : Option ClientTask :=
  if place.body = some .done then none else place.held

def handCount (slot : Slot) (place : WorkerPlace ClientTask TaskPlace) : ℕ :=
  (inHand place).elim 0 fun task => oneFor slot task.conn

/-- A worker that has not yet closed the descriptor of its task. -/
def openHand (slot : Slot) (place : WorkerPlace ClientTask TaskPlace) : ℕ :=
  if place.body = some .deactivate then 0 else handCount slot place

/-- A worker that has closed the descriptor of its task and not yet given up the slot. -/
def closedHand (slot : Slot) (place : WorkerPlace ClientTask TaskPlace) : ℕ :=
  if place.body = some .deactivate then handCount slot place else 0

theorem openHand_add_closedHand (slot : Slot) (place : WorkerPlace ClientTask TaskPlace) :
    openHand slot place + closedHand slot place = handCount slot place := by
  rw [openHand, closedHand]
  split_ifs <;> simp

namespace ServerState

variable {Worker : Type} [Fintype Worker]

/-- The tasks for a slot: being prepared, offered to the queue, in it, or in a worker's hand. -/
def inFlight (state : ServerState Worker) (slot : Slot) : ℕ :=
  state.reactor.knows.preparing slot +
    ((state.pool.adders ()).offered.elim 0 fun task => oneFor slot task.conn) +
    state.pool.queued.countP (fun task => task.conn = slot) +
    total (handCount slot) state.pool.workers

/-- The parties about to give up a slot whose descriptor they have closed. -/
def closing (state : ServerState Worker) (slot : Slot) : ℕ :=
  state.reactor.knows.closing slot + total (closedHand slot) state.pool.workers

/-- A task that is on its way to a worker or in a worker's hand. -/
def Carries (state : ServerState Worker) (task : ClientTask) : Prop :=
  (state.pool.adders ()).offered = some task ∨ task ∈ state.pool.queued ∨
    ∃ worker, inHand (state.pool.workers worker) = some task

/-- A slot that belongs to a task. -/
def owned (state : ServerState Worker) (slot : Slot) : Bool :=
  (state.conns slot).isActive && ((state.conns slot).isBusy || state.reactor.knows.claims slot)

/-- An accepted connection that has no slot. -/
structure Held (state : ServerState Worker) (fd connection : ℕ) : Prop where
  named : state.descriptors fd = some (.client connection)
  unclosed : state.closes connection = 0
  old : connection < state.accepted
  apart : ∀ slot, (state.conns slot).isActive → state.occupant slot ≠ connection

def Knows (state : ServerState Worker) : Knowledge → Prop
  | .nothing => True
  | .seen slot => (state.conns slot).isActive ∨ (state.conns slot).isBusy
  | .idle slot | .expiring slot => (state.conns slot).isActive ∧ (state.conns slot).isBusy = false
  | .accepted fd connection => state.Held fd connection
  | .unclaimed fd connection slot =>
      state.Held fd connection ∧ (state.conns slot).isActive = false
  | .writing fd connection slot =>
      state.Held fd connection ∧ (state.conns slot).isActive = false ∧
        (state.conns slot).fd = fd ∧ state.occupant slot = connection
  | .claiming fd connection slot =>
      (state.conns slot).isActive ∧ (state.conns slot).fd = fd ∧ state.occupant slot = connection
  | .claimed fd connection slot =>
      (state.conns slot).isActive ∧ (state.conns slot).isBusy ∧ (state.conns slot).fd = fd ∧
        state.occupant slot = connection
  | .marked slot | .dropping slot => (state.conns slot).isActive ∧ (state.conns slot).isBusy

/-- The set given to `select` holds the listening socket and descriptors of idle slots. -/
def Monitors (state : ServerState Worker) (serverFd : ℕ) : Prop :=
  ∀ fd ∈ state.readFds, fd = serverFd ∨
    ∃ slot, (state.conns slot).isActive ∧ (state.conns slot).isBusy = false ∧
      (state.conns slot).fd = fd

/-- What is true of descriptors and of the connections that were accepted. -/
structure Ledger (state : ServerState Worker) (serverFd : ℕ) : Prop where
  distinct : ∀ slot other, (state.conns slot).isActive → (state.conns other).isActive →
    state.occupant slot = state.occupant other → slot = other
  old : ∀ slot, (state.conns slot).isActive → state.occupant slot < state.accepted
  unseen : ∀ connection, state.accepted ≤ connection → state.closes connection = 0
  once : ∀ connection, state.closes connection ≤ 1
  closed : ∀ slot, (state.conns slot).isActive →
    state.closes (state.occupant slot) = state.closing slot
  named : ∀ slot, (state.conns slot).isActive → state.closing slot = 0 →
    state.descriptors (state.conns slot).fd = some (.client (state.occupant slot))
  listening : state.descriptors serverFd = some .listener

/-- The invariant of the slots. -/
structure Owned (state : ServerState Worker) (serverFd : ℕ) : Prop where
  flight : ∀ slot, state.inFlight slot = (state.owned slot).toNat
  tasks : ∀ task, state.Carries task → (state.conns task.conn).fd = task.clientFd ∧
    state.occupant task.conn = task.connection
  ledger : state.Ledger serverFd
  knowledge : state.Knows state.reactor.knows
  monitored : state.reactor.monitors → state.Monitors serverFd

variable {state after : ServerState Worker} {serverFd : ℕ} {slot : Slot} {worker : Worker}
  {task : ClientTask}

theorem total_handCount (state : ServerState Worker) (slot : Slot) :
    total (handCount slot) state.pool.workers =
      total (openHand slot) state.pool.workers + total (closedHand slot) state.pool.workers := by
  rw [← total_add]
  congr 1
  funext place
  exact (openHand_add_closedHand slot place).symm

theorem inFlight_pos (carried : state.Carries task) : 1 ≤ state.inFlight task.conn := by
  rw [inFlight]
  rcases carried with offered | queued | ⟨worker, hand⟩
  · rw [offered]
    simp only [Option.elim_some, oneFor_self]
    omega
  · have counted : 0 < state.pool.queued.countP (fun other => other.conn = task.conn) :=
      List.countP_pos_iff.mpr ⟨task, queued, by simp⟩
    omega
  · have counted := le_total (handCount task.conn) state.pool.workers worker
    have one : handCount task.conn (state.pool.workers worker) = 1 := by
      rw [handCount, hand, Option.elim_some, oneFor_self]
    omega

namespace Owned

/-- A task in flight makes its slot busy. -/
theorem owned_of_carries (owned : state.Owned serverFd) (carried : state.Carries task) :
    state.owned task.conn ∧ state.inFlight task.conn = 1 := by
  have positive := inFlight_pos carried
  have flight := owned.flight task.conn
  cases isOwned : state.owned task.conn <;> rw [isOwned] at flight <;>
    simp only [Bool.toNat_false, Bool.toNat_true] at flight
  · omega
  · exact ⟨rfl, flight⟩

end Owned

/-! ### Steps that leave the slots as they are -/

/-- Two states that differ at most in buffers, times and places. -/
structure SameSlots (state after : ServerState Worker) : Prop where
  fd : ∀ slot, (after.conns slot).fd = (state.conns slot).fd
  isActive : ∀ slot, (after.conns slot).isActive = (state.conns slot).isActive
  isBusy : ∀ slot, (after.conns slot).isBusy = (state.conns slot).isBusy
  occupant : after.occupant = state.occupant
  descriptors : after.descriptors = state.descriptors
  closes : after.closes = state.closes
  accepted : after.accepted = state.accepted

namespace SameSlots

omit [Fintype Worker] in
theorem held (same : state.SameSlots after) {fd connection : ℕ} (held : state.Held fd connection) :
    after.Held fd connection where
  named := by
    rw [same.descriptors]
    exact held.named
  unclosed := by
    rw [same.closes]
    exact held.unclosed
  old := by
    rw [same.accepted]
    exact held.old
  apart := by
    intro slot active
    rw [same.occupant]
    exact held.apart slot (same.isActive slot ▸ active)

omit [Fintype Worker] in
theorem knows (same : state.SameSlots after) {knowledge : Knowledge}
    (knows : state.Knows knowledge) : after.Knows knowledge := by
  cases knowledge <;>
    simp only [Knows, same.isActive, same.isBusy, same.fd, same.occupant] at knows ⊢
  case seen | idle | expiring | claiming | claimed | marked | dropping => exact knows
  case accepted => exact same.held knows
  case unclaimed => exact ⟨same.held knows.1, knows.2⟩
  case writing => exact ⟨same.held knows.1, knows.2⟩

omit [Fintype Worker] in
theorem monitors (same : state.SameSlots after) (readFds : after.readFds = state.readFds)
    (monitors : state.Monitors serverFd) : after.Monitors serverFd := by
  intro fd member
  rw [readFds] at member
  rcases monitors fd member with isServer | ⟨slot, active, idle, named⟩
  · exact Or.inl isServer
  · refine Or.inr ⟨slot, ?_, ?_, ?_⟩
    · rwa [same.isActive]
    · rwa [same.isBusy]
    · rwa [same.fd]

end SameSlots

/-- No slot comes into use, and none in use changes hands. -/
theorem Ledger.of_fewer (ledger : state.Ledger serverFd)
    (fewer : ∀ slot, (after.conns slot).isActive → (state.conns slot).isActive ∧
      (after.conns slot).fd = (state.conns slot).fd ∧ after.occupant slot = state.occupant slot)
    (descriptors : after.descriptors = state.descriptors) (closes : after.closes = state.closes)
    (accepted : after.accepted = state.accepted)
    (closing : ∀ slot, (after.conns slot).isActive → after.closing slot = state.closing slot) :
    after.Ledger serverFd where
  distinct := by
    intro slot other active otherActive
    rw [(fewer slot active).2.2, (fewer other otherActive).2.2]
    exact ledger.distinct slot other (fewer slot active).1 (fewer other otherActive).1
  old := by
    intro slot active
    rw [(fewer slot active).2.2, accepted]
    exact ledger.old slot (fewer slot active).1
  unseen := by
    rw [accepted, closes]
    exact ledger.unseen
  once := by
    rw [closes]
    exact ledger.once
  closed := by
    intro slot active
    rw [(fewer slot active).2.2, closes, closing slot active]
    exact ledger.closed slot (fewer slot active).1
  named := by
    intro slot active
    rw [(fewer slot active).2.2, (fewer slot active).2.1, descriptors, closing slot active]
    exact ledger.named slot (fewer slot active).1
  listening := by
    rw [descriptors]
    exact ledger.listening

/-- A connection is closed through the descriptor that names it. -/
theorem Ledger.close (ledger : state.Ledger serverFd) {fd connection : ℕ}
    (named : state.descriptors fd = some (.client connection))
    (unclosed : state.closes connection = 0) (old : connection < state.accepted)
    (conns : after.conns = state.conns) (occupant : after.occupant = state.occupant)
    (accepted : after.accepted = state.accepted)
    (descriptors : after.descriptors = Function.update state.descriptors fd none)
    (closes : after.closes =
      Function.update state.closes connection (state.closes connection + 1))
    (closing : ∀ slot, (state.conns slot).isActive → after.closing slot =
      state.closing slot + if state.occupant slot = connection then 1 else 0) :
    after.Ledger serverFd where
  distinct := by
    rw [conns, occupant]
    exact ledger.distinct
  old := by
    rw [conns, occupant, accepted]
    exact ledger.old
  unseen := by
    intro other recent
    rw [accepted] at recent
    rw [closes, Function.update_of_ne (by omega)]
    exact ledger.unseen other recent
  once := by
    intro other
    rw [closes]
    by_cases same : other = connection
    · rw [same, Function.update_self, unclosed]
    · rw [Function.update_of_ne same]
      exact ledger.once other
  closed := by
    intro slot active
    rw [conns] at active
    rw [closing slot active, occupant, closes]
    by_cases same : state.occupant slot = connection
    · rw [if_pos same, same, Function.update_self, ← same, ledger.closed slot active]
    · rw [if_neg same, Function.update_of_ne same, ledger.closed slot active, Nat.add_zero]
  named := by
    intro slot active open_
    rw [conns] at active ⊢
    rw [closing slot active, Nat.add_eq_zero_iff] at open_
    have other : state.occupant slot ≠ connection := by
      intro same
      rw [if_pos same] at open_
      cases open_.2
    have namedSlot := ledger.named slot active open_.1
    rw [descriptors, occupant, Function.update_of_ne]
    · exact namedSlot
    · intro same
      rw [same, named] at namedSlot
      exact other (Descriptor.client.inj (Option.some.inj namedSlot)).symm
  listening := by
    rw [descriptors, Function.update_of_ne]
    · exact ledger.listening
    · intro same
      have listening := ledger.listening
      rw [same, named] at listening
      cases listening

omit [Fintype Worker] in
/-- A connection in no slot stays as it is when another one is closed. -/
theorem Held.close {fd connection otherFd other : ℕ} (held : state.Held fd connection)
    (named : state.descriptors otherFd = some (.client other)) (differs : connection ≠ other)
    (conns : after.conns = state.conns) (occupant : after.occupant = state.occupant)
    (accepted : after.accepted = state.accepted)
    (descriptors : after.descriptors = Function.update state.descriptors otherFd none)
    (closes : after.closes = Function.update state.closes other (state.closes other + 1)) :
    after.Held fd connection where
  named := by
    rw [descriptors, Function.update_of_ne]
    · exact held.named
    · intro same
      have namedHeld := held.named
      rw [same, named] at namedHeld
      exact differs (Descriptor.client.inj (Option.some.inj namedHeld)).symm
  unclosed := by
    rw [closes, Function.update_of_ne differs]
    exact held.unclosed
  old := by
    rw [accepted]
    exact held.old
  apart := by
    rw [conns, occupant]
    exact held.apart

/-- A step that changes neither the slots nor the number of tasks for any of them. -/
theorem Owned.of_same (owned : state.Owned serverFd) (same : state.SameSlots after)
    (inFlight : ∀ slot, after.inFlight slot = state.inFlight slot)
    (closing : ∀ slot, after.closing slot = state.closing slot)
    (claims : ∀ slot, after.reactor.knows.claims slot = state.reactor.knows.claims slot)
    (carries : ∀ task, after.Carries task → state.Carries task)
    (knowledge : after.Knows after.reactor.knows)
    (monitored : after.reactor.monitors → after.Monitors serverFd) : after.Owned serverFd where
  flight := by
    intro slot
    rw [inFlight, owned.flight, ServerState.owned, ServerState.owned, same.isActive, same.isBusy,
      claims]
  tasks := by
    intro task carried
    rw [same.fd, same.occupant]
    exact owned.tasks task (carries task carried)
  ledger := by
    apply owned.ledger.of_fewer _ same.descriptors same.closes same.accepted fun slot _ =>
      closing slot
    intro slot active
    exact ⟨same.isActive slot ▸ active, same.fd slot, congrFun same.occupant slot⟩
  knowledge := knowledge
  monitored := monitored

theorem Owned.goto (owned : state.Owned serverFd) {place : ReactorPlace} {readFds : Finset ℕ}
    (preparing : ∀ slot, place.knows.preparing slot = state.reactor.knows.preparing slot)
    (closing : ∀ slot, place.knows.closing slot = state.reactor.knows.closing slot)
    (claims : ∀ slot, place.knows.claims slot = state.reactor.knows.claims slot)
    (learned : state.Knows place.knows)
    (monitored : place.monitors → Monitors { state with readFds := readFds } serverFd) :
    Owned { state.goto place with readFds := readFds } serverFd := by
  have same : state.SameSlots { state.goto place with readFds := readFds } :=
    ⟨fun _ => rfl, fun _ => rfl, fun _ => rfl, rfl, rfl, rfl, rfl⟩
  apply owned.of_same same
  · intro slot
    simp only [ServerState.inFlight, ServerState.goto, preparing]
  · intro slot
    simp only [ServerState.closing, ServerState.goto, closing]
  · exact claims
  · exact fun _ carried => carried
  · exact same.knows learned
  · exact monitored

end ServerState

end LetUsConnect
