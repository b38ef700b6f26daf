import LetUsConnect.Server.ReactorSteps

/-!
# Slot ownership

What the invariant of the slots says in every reachable state of the server.
-/

namespace LetUsConnect

open Threads

namespace ServerState

variable {Worker : Type} [Fintype Worker] {state after : ServerState Worker}
  {serverFd : ℕ} {slot : Slot} {worker : Worker} {task : ClientTask}

/-! ## Runs of the server -/

theorem owned_start (serverFd count : ℕ) :
    Owned (serverStart serverFd count : ServerState Worker) serverFd where
  flight := by
    intro slot
    have nothing : total (handCount slot)
        (serverStart serverFd count : ServerState Worker).pool.workers = 0 :=
      total_eq_zero fun _ => rfl
    rw [ServerState.inFlight, nothing]
    rfl
  tasks := by
    rintro task (offered | queued | ⟨worker, hand⟩)
    · cases offered
    · cases queued
    · cases hand
  ledger :=
    { distinct := nofun
      old := nofun
      unseen := fun _ _ => rfl
      once := fun _ => Nat.zero_le 1
      closed := nofun
      named := nofun
      listening := if_pos rfl }
  knowledge := trivial
  monitored := nofun

variable [DecidableEq Worker]

/-- A worker with nothing in its hand moves. -/
theorem Owned.moveIdle (owned : state.Owned serverFd)
    {place : WorkerPlace ClientTask TaskPlace} (before : inHand (state.pool.workers worker) = none)
    (afterwards : inHand place = none) :
    Owned { state with pool := state.pool.moveWorker worker place } serverFd := by
  refine owned.quietWork ⟨fun _ => rfl, fun _ => rfl, fun _ => rfl, rfl, rfl, rfl, rfl⟩ rfl rfl
    rfl (afterwards.trans before.symm) ?_
  intro slot
  rw [closedHand_of_inHand_eq_none before, closedHand_of_inHand_eq_none afterwards]

theorem Owned.finishWork (owned : state.Owned serverFd)
    (taken : state.finishWork worker = some after) : after.Owned serverFd := by
  rcases finishWork_cases taken with ⟨idle, rfl⟩
  exact owned.moveIdle idle rfl

variable {routes : Dictionary RouteHandler}

theorem Owned.step (owned : state.Owned serverFd) (delivers : state.pool.Delivers)
    (sound : state.pool.LockSound) {label : ServerLabel Worker}
    (taken : (serverSystem Worker routes serverFd).step label state = some after) :
    after.Owned serverFd := by
  cases label with
  | reactor input => exact owned.reactorStep delivers taken
  | task worker arrival => exact owned.taskStep taken
  | finishWork worker => exact owned.finishWork taken
  | worker worker =>
      rcases Option.map_eq_some_iff.mp taken with ⟨pool, moved, rfl⟩
      exact owned.workerStep delivers sound moved
  | interrupt worker =>
      rcases Option.map_eq_some_iff.mp taken with ⟨pool, moved, rfl⟩
      rcases ThreadPool.interrupt_cases moved with ⟨at_, rfl⟩
      exact owned.moveIdle (by rw [at_]; rfl) rfl
  | addWork newNode =>
      rcases Option.map_eq_some_iff.mp taken with ⟨pool, moved, rfl⟩
      exact owned.adderStep delivers moved

theorem owned_of_reachable (reached : (serverSystem Worker routes serverFd).Reachable state) :
    state.Owned serverFd := by
  refine @Transition.System.ReachableWhere.invariant _ _ _ _
    (fun state => state.pool.Delivers ∧ state.pool.LockSound) (fun state => state.Owned serverFd)
    ?_ ?_ ?_ state reached
  · intro state reached
    exact ⟨ThreadPool.delivers_of_reachable (pool_reachable reached),
      ThreadPool.lockSound_of_reachable (pool_reachable reached)⟩
  · rintro state ⟨count, -, rfl⟩
    exact owned_start serverFd count
  · intro state label after known owned _ taken
    exact owned.step known.1 known.2 taken

/-- The work on a task goes on by steps of its own only. -/
theorem work_of_step (delivers : state.pool.Delivers) (sound : state.pool.LockSound)
    {place : TaskPlace} (at_ : state.pool.workers worker = .work (some task) place)
    (working : place ≠ .done) {label : ServerLabel Worker}
    (taken : (serverSystem Worker routes serverFd).step label state = some after) :
    (∃ arrival, label = .task worker arrival) ∨
      after.pool.workers worker = .work (some task) place := by
  cases label with
  | reactor input =>
      refine Or.inr ?_
      rcases reactorStep_pool taken with same | ⟨added, isAdded⟩
      · rw [same, at_]
      · rw [(ThreadPool.addWork_cases isAdded).2, ThreadPool.workers_moveAdder, at_]
  | task other arrival =>
      by_cases isWorker : other = worker
      · exact Or.inl ⟨arrival, by rw [isWorker]⟩
      · rcases taskStep_pool taken with ⟨otherTask, otherPlace, placeAfter, -, pool⟩
        refine Or.inr ?_
        rw [pool, ThreadPool.workers_moveWorker, Function.update_of_ne (Ne.symm isWorker), at_]
  | finishWork other =>
      rcases finishWork_cases taken with ⟨idle, rfl⟩
      have differs : worker ≠ other := by
        rintro rfl
        exact working (done_of_inHand_eq_none at_ idle)
      exact Or.inr ((Function.update_of_ne differs _ _).trans at_)
  | worker other =>
      rcases Option.map_eq_some_iff.mp taken with ⟨pool, moved, rfl⟩
      rcases ThreadPool.workerStep_handover delivers sound moved with ⟨_, workers, -, idle, -, -⟩
      have differs : worker ≠ other := by
        rintro rfl
        rw [at_] at idle
        cases idle
      refine Or.inr ?_
      rw [workers, Function.update_of_ne differs, at_]
  | interrupt other =>
      rcases Option.map_eq_some_iff.mp taken with ⟨pool, moved, rfl⟩
      rcases ThreadPool.interrupt_cases moved with ⟨waiting, rfl⟩
      have differs : worker ≠ other := by
        rintro rfl
        rw [at_] at waiting
        cases waiting
      exact Or.inr ((Function.update_of_ne differs _ _).trans at_)
  | addWork newNode =>
      rcases Option.map_eq_some_iff.mp taken with ⟨pool, moved, rfl⟩
      rcases ThreadPool.adderStep_handover delivers moved with ⟨-, -, workers, -⟩
      refine Or.inr ?_
      rw [workers, at_]

/-- A worker that has not yet closed the descriptor of its task. -/
def Uses (state : ServerState Worker) (task : ClientTask) : Prop :=
  ∃ worker, inHand (state.pool.workers worker) = some task ∧
    (state.pool.workers worker).body ≠ some .deactivate

/-- The next step of some thread closes the descriptor on behalf of the connection. -/
inductive AboutToClose (state : ServerState Worker) : ℕ → ℕ → Prop where
  | reject {fd connection : ℕ} (at_ : state.reactor = .reject fd connection) :
      AboutToClose state fd connection
  | giveUp {fd connection : ℕ} {slot : Slot} (at_ : state.reactor = .giveUp fd connection slot) :
      AboutToClose state fd connection
  | readyGiveUp {slot : Slot} (at_ : state.reactor = .readyGiveUp slot) :
      AboutToClose state (state.conns slot).fd (state.occupant slot)
  | timeout {now : ℤ} {slot : Slot} (at_ : state.reactor = .timeoutClose now slot) :
      AboutToClose state (state.conns slot).fd (state.occupant slot)
  | worker {worker : Worker} {task : ClientTask}
      (at_ : state.pool.workers worker = .work (some task) .close) :
      AboutToClose state task.clientFd task.connection

/-- Who owns the slots and their descriptors. -/
structure SlotOwnership (state : ServerState Worker) (serverFd : ℕ) : Prop where
  queued : ∃ nodes, IsQueue state.pool.heap state.pool.queue nodes ∧
    nodes.map Prod.snd = state.pool.queued
  atMostOne : ∀ slot, state.inFlight slot ≤ 1
  busy : ∀ slot, (state.conns slot).isActive → (state.conns slot).isBusy →
    state.inFlight slot = 1
  idle : state.reactor.guarded = false → ∀ slot, (state.conns slot).isActive →
    (state.conns slot).isBusy = false → state.inFlight slot = 0 ∧
      state.descriptors (state.conns slot).fd = some (.client (state.occupant slot)) ∧
      state.closes (state.occupant slot) = 0
  closedOnce : ∀ connection, state.closes connection ≤ 1
  closesOwn : ∀ fd connection, state.AboutToClose fd connection →
    state.descriptors fd = some (.client connection) ∧ state.closes connection = 0
  timeoutSpares : ∀ now slot task, state.reactor = .timeoutClose now slot → state.Uses task →
    task.clientFd ≠ (state.conns slot).fd
  selectOpen : state.reactor = .select → ∀ fd ∈ state.readFds, (state.descriptors fd).isSome

/-- Outside its sections the reactor gives up only a slot whose task it has prepared. -/
theorem ReactorPlace.outside_of_not_guarded {place : ReactorPlace} (outside : place.guarded = false)
    (slot : Slot) : place.knows.closing slot ≤ place.knows.preparing slot ∧
      place.knows.claims slot = false := by
  cases place <;> first | exact ⟨le_rfl, rfl⟩ | exact ⟨Nat.zero_le _, rfl⟩ | cases outside

omit [DecidableEq Worker] in
theorem Owned.named_of_idle (owned : state.Owned serverFd) (active : (state.conns slot).isActive)
    (idle : (state.conns slot).isBusy = false) (claims : state.reactor.knows.claims slot = false)
    (closing : state.reactor.knows.closing slot ≤ state.reactor.knows.preparing slot) :
    state.inFlight slot = 0 ∧
      state.descriptors (state.conns slot).fd = some (.client (state.occupant slot)) ∧
      state.closes (state.occupant slot) = 0 := by
  have notOwned : state.owned slot = false := by
    rw [ServerState.owned, idle, claims, Bool.or_false, Bool.and_false]
  have flight := owned.flight slot
  rw [notOwned] at flight
  have unprepared : state.reactor.knows.preparing slot = 0 := by
    rw [ServerState.inFlight, Bool.toNat_false] at flight
    omega
  have notClosing := Nat.le_zero.mp (unprepared ▸ closing)
  have named := owned.named_of_reactor active (by rw [notOwned, unprepared]; rfl) notClosing
  exact ⟨flight, named.1, named.2.1⟩

omit [DecidableEq Worker] in
theorem Owned.slotOwnership (owned : state.Owned serverFd) (delivers : state.pool.Delivers) :
    state.SlotOwnership serverFd where
  queued := delivers.queued_eq
  atMostOne := by
    intro slot
    rw [owned.flight]
    exact Bool.toNat_le _
  busy := by
    intro slot active busy
    rw [owned.flight, ServerState.owned, active, busy]
    rfl
  idle := by
    intro outside slot active idle
    have reactor := ReactorPlace.outside_of_not_guarded outside slot
    exact owned.named_of_idle active idle reactor.2 reactor.1
  closedOnce := owned.ledger.once
  closesOwn := by
    rintro fd connection closes
    have knowledge := owned.knowledge
    cases closes with
    | reject at_ =>
        rw [at_] at knowledge
        exact ⟨knowledge.named, knowledge.unclosed⟩
    | giveUp at_ =>
        rw [at_] at knowledge
        rcases knowledge with ⟨active, busy, rfl, rfl⟩
        have named := owned.named_of_reactor active
          (by rw [ServerState.owned, active, busy, at_]; exact (oneFor_self _).symm)
          (by rw [at_]; rfl)
        exact ⟨named.1, named.2.1⟩
    | readyGiveUp at_ =>
        rw [at_] at knowledge
        have named := owned.named_of_reactor knowledge.1
          (by rw [ServerState.owned, knowledge.1, knowledge.2, at_]; exact (oneFor_self _).symm)
          (by rw [at_]; rfl)
        exact ⟨named.1, named.2.1⟩
    | timeout at_ =>
        rw [at_] at knowledge
        exact (owned.named_of_idle knowledge.1 knowledge.2 (by rw [at_]; rfl)
          (by rw [at_]; rfl)).2
    | worker at_ =>
        apply owned.named_of_hand
        · rw [at_]
          rfl
        · rw [at_]
          simp
  timeoutSpares := by
    rintro now slot task at_ ⟨worker, hand, open_⟩ same
    have knowledge := owned.knowledge
    rw [at_] at knowledge
    have handsOn := owned.handsOn hand
    have named := (owned.named_of_idle knowledge.1 knowledge.2 (by rw [at_]; rfl)
      (by rw [at_]; rfl)).2.1
    have taskNamed := (owned.named_of_hand hand open_).1
    have occupied := (owned.tasks task (Or.inr (Or.inr ⟨worker, hand⟩))).2
    rw [same, named, Option.some.injEq, Descriptor.client.injEq, ← occupied] at taskNamed
    have isSlot := owned.ledger.distinct slot task.conn knowledge.1 handsOn.isActive taskNamed
    have idle := knowledge.2
    rw [isSlot, handsOn.isBusy] at idle
    cases idle
  selectOpen := by
    intro at_ fd member
    rcases owned.monitored (by rw [at_]; rfl) fd member with rfl | ⟨slot, active, idle, rfl⟩
    · rw [owned.ledger.listening]
      rfl
    · rw [(owned.named_of_idle active idle (by rw [at_]; rfl) (by rw [at_]; rfl)).2.1]
      rfl

/-- In every reachable state the slots have one owner each. -/
theorem slotOwnership_of_reachable
    (reached : (serverSystem Worker routes serverFd).Reachable state) :
    state.SlotOwnership serverFd :=
  (owned_of_reachable reached).slotOwnership (ThreadPool.delivers_of_reachable
    (pool_reachable reached))

/-! ## A run -/

/-- A step of the reactor at which nothing new arrives. -/
def quiet : ReactorInput where
  ready := some {3}
  incoming := none
  now := 0
  allocated := true

/-- From the top of the main loop to a worker that begins to serve the connection accepted. -/
def claimRun : List (ServerLabel Unit) :=
  List.replicate 259 (.reactor quiet) ++ [.reactor { quiet with incoming := some 5 }] ++
    List.replicate 6 (.reactor quiet) ++ List.replicate 5 (.addWork 100) ++ [.reactor quiet] ++
    List.replicate 9 (.worker ())

theorem claimRun_slotOwnership :
    ∃ state, (serverSystem Unit dictionaryConstructor 3).run claimRun (serverStart 3 0) =
        some state ∧
      state.pool.workers () = .work (some ⟨5, 0, 0⟩) .recv ∧ state.SlotOwnership 3 := by
  have initially : (serverSystem Unit dictionaryConstructor 3).initial (serverStart 3 0) :=
    ⟨0, by decide, rfl⟩
  have works : ((serverSystem Unit dictionaryConstructor 3).run claimRun
      (serverStart 3 0)).map (fun state => state.pool.workers ()) =
      some (.work (some ⟨5, 0, 0⟩) .recv) := by decide +kernel
  rcases Option.map_eq_some_iff.mp works with ⟨state, ran, at_⟩
  exact ⟨state, ran, at_,
    slotOwnership_of_reachable (Transition.System.Reachable.run (.start initially) ran)⟩

end ServerState

end LetUsConnect
