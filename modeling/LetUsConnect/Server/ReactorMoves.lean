import LetUsConnect.Server.Ownership

/-!
# The moves of the reactor

What a step of the reactor writes, said once for all its places. Most steps only
lead from one place to the next; the others write one slot, close one descriptor or
hand over one task.
-/

namespace LetUsConnect

namespace Knowledge

/-- The descriptor and the connection the reactor has accepted and not yet given a slot. -/
def arrival : Knowledge → Option (ℕ × ℕ)
  | .accepted fd connection | .unclaimed fd connection _ | .writing fd connection _ =>
      some (fd, connection)
  | _ => none

/-- The slot a place of the reactor is about. -/
def subject : Knowledge → Option Slot
  | .idle slot | .expiring slot | .marked slot | .dropping slot => some slot
  | .unclaimed _ _ slot | .writing _ _ slot | .claiming _ _ slot | .claimed _ _ slot => some slot
  | _ => none

end Knowledge

namespace ServerState

variable {Worker : Type} {state after : ServerState Worker}
  {serverFd : ℕ} {input : ReactorInput}

/-- What a step of the reactor may make of a state. -/
inductive ReactorMove (state : ServerState Worker) (input : ReactorInput) :
    ServerState Worker → Prop where
  | goes (place : ReactorPlace) (readFds : Finset ℕ)
      (arrival : place.knows.arrival = state.reactor.knows.arrival) :
      ReactorMove state input { state.goto place with readFds := readFds }
  | accepts {fd : ℕ} (at_ : state.reactor = .accept) (incoming : input.incoming = some fd) :
      ReactorMove state input
        { state.goto (.claim fd state.accepted 0) with
          descriptors := Function.update state.descriptors fd (some (.client state.accepted))
          accepted := state.accepted + 1 }
  | claimsFd {fd connection : ℕ} {slot : Slot} (at_ : state.reactor = .claimFd fd connection slot) :
      ReactorMove state input
        { (state.setConn slot { state.conns slot with fd := fd }).goto
            (.claimTime fd connection slot) with
          occupant := Function.update state.occupant slot connection }
  | claimsTime {fd connection : ℕ} {slot : Slot}
      (at_ : state.reactor = .claimTime fd connection slot) :
      ReactorMove state input
        ((state.setConn slot { state.conns slot with lastActivity := input.now }).goto
          (.claimActive fd connection slot))
  | claimsActive {fd connection : ℕ} {slot : Slot}
      (at_ : state.reactor = .claimActive fd connection slot) :
      ReactorMove state input
        ((state.setConn slot { state.conns slot with isActive := true }).goto
          (.claimBusy fd connection slot))
  | marks {slot : Slot} {place : ReactorPlace} (subject : state.reactor.knows.subject = some slot)
      (arrival : state.reactor.knows.arrival = none) (nobody : place.knows.arrival = none) :
      ReactorMove state input
        ((state.setConn slot { state.conns slot with isBusy := true }).goto place)
  | givesUp {slot : Slot} {place : ReactorPlace}
      (at_ : state.reactor = .giveUpSlot slot ∨ state.reactor = .readyGiveUpSlot slot ∨
        ∃ now, state.reactor = .timeoutSlot now slot)
      (nothing : place.knows = .nothing) :
      ReactorMove state input
        ((state.setConn slot { state.conns slot with isActive := false }).goto place)
  | rejects {fd connection : ℕ} (at_ : state.reactor = .reject fd connection) :
      ReactorMove state input ((state.closeFd fd connection).goto .accept)
  | closes {fd connection : ℕ} {slot : Slot} {place : ReactorPlace}
      (closes : state.AboutToClose fd connection)
      (subject : state.reactor.knows.subject = some slot)
      (holds : state.reactor = .giveUp fd connection slot ∨
        (state.reactor.knows = .marked slot ∨ state.reactor.knows = .idle slot) ∧
          state.occupant slot = connection)
      (arrival : state.reactor.knows.arrival = none) (nobody : place.knows.arrival = none) :
      ReactorMove state input ((state.closeFd fd connection).goto place)
  | handsOver {task : ClientTask} {place : ReactorPlace}
      {pool : ThreadPool ClientTask TaskPlace Worker Unit}
      (added : state.pool.addWork () task = some pool)
      (arrival : state.reactor.knows.arrival = none) (nobody : place.knows.arrival = none) :
      ReactorMove state input { state.goto place with pool := pool }

theorem reactorMove_goto {place : ReactorPlace}
    (arrival : place.knows.arrival = state.reactor.knows.arrival) :
    state.ReactorMove input (state.goto place) := .goes place state.readFds arrival

theorem reactorMove_visit {index : ℕ} {inUse : Slot → ReactorPlace} {next finished : ReactorPlace}
    (arrival : state.reactor.knows.arrival = none)
    (inUseKnows : ∀ slot, (inUse slot).knows.arrival = none)
    (nextKnows : next.knows.arrival = none) (finishedKnows : finished.knows.arrival = none) :
    state.ReactorMove input (state.visit index inUse next finished) := by
  rw [ServerState.visit]
  split
  · exact reactorMove_goto (finishedKnows.trans arrival.symm)
  · split_ifs
    · exact reactorMove_goto ((inUseKnows _).trans arrival.symm)
    · exact reactorMove_goto (nextKnows.trans arrival.symm)

theorem reactorMove_handOver {task : ClientTask} {place : ReactorPlace}
    (arrival : state.reactor.knows.arrival = none) (nobody : place.knows.arrival = none)
    (taken : state.handOver task place = some after) : state.ReactorMove input after := by
  rcases Option.map_eq_some_iff.mp taken with ⟨pool, added, rfl⟩
  exact .handsOver added arrival nobody

theorem reactorMove_addWorkReturned {succeeded failed : ReactorPlace}
    (arrival : state.reactor.knows.arrival = none)
    (succeededKnows : succeeded.knows.arrival = none) (failedKnows : failed.knows.arrival = none)
    (taken : state.addWorkReturned succeeded failed = some after) :
    state.ReactorMove input after := by
  unfold ServerState.addWorkReturned at taken
  split at taken <;> cases taken
  apply reactorMove_goto
  split_ifs
  · exact failedKnows.trans arrival.symm
  · exact succeededKnows.trans arrival.symm

theorem reactorMove_of_step (taken : state.reactorStep serverFd input = some after) :
    state.ReactorMove input after := by
  cases at_ : state.reactor <;> simp only [ServerState.reactorStep, at_] at taken
  case loopStart | scanSet =>
    cases taken
    exact .goes _ _ (by rw [at_]; rfl)
  case scan | ready | timeout =>
    cases taken
    exact reactorMove_visit (by rw [at_]; rfl) (fun _ => rfl) rfl rfl
  case scanBusy | readyBusy | readyIsSet | timeoutBusy | timeoutAge =>
    cases taken
    apply reactorMove_goto
    rw [at_]
    split_ifs <;> rfl
  case select =>
    split at taken
    · cases taken
      exact reactorMove_goto (by rw [at_]; rfl)
    · split_ifs at taken <;> cases taken <;> exact .goes _ _ (by rw [at_]; rfl)
  case accept =>
    cases incoming : input.incoming with
    | none =>
        simp only [incoming] at taken
        cases taken
        exact reactorMove_goto (by rw [at_]; rfl)
    | some fd =>
        simp only [incoming] at taken
        split_ifs at taken
        cases taken
        exact .accepts at_ incoming
  case claim =>
    split at taken
    · cases taken
      exact reactorMove_goto (by rw [at_]; rfl)
    · cases taken
      apply reactorMove_goto
      rw [at_]
      split_ifs <;> rfl
  case claimFd =>
    cases taken
    exact .claimsFd at_
  case claimTime =>
    cases taken
    exact .claimsTime at_
  case claimActive =>
    cases taken
    exact .claimsActive at_
  case claimBusy | readyMark =>
    cases taken
    exact .marks (by rw [at_]; rfl) (by rw [at_]; rfl) rfl
  case giveUpSlot =>
    cases taken
    exact .givesUp (.inl at_) rfl
  case readyGiveUpSlot =>
    cases taken
    exact .givesUp (.inr (.inl at_)) rfl
  case timeoutSlot now slot =>
    cases taken
    exact .givesUp (.inr (.inr ⟨now, at_⟩)) rfl
  case reject =>
    cases taken
    exact .rejects at_
  case giveUp =>
    cases taken
    exact .closes (.giveUp at_) (by rw [at_]; rfl) (.inl at_) (by rw [at_]; rfl) rfl
  case readyGiveUp =>
    cases taken
    exact .closes (.readyGiveUp at_) (by rw [at_]; rfl) (.inr ⟨.inl (by rw [at_]; rfl), rfl⟩)
      (by rw [at_]; rfl) rfl
  case timeoutClose =>
    cases taken
    exact .closes (.timeout at_) (by rw [at_]; rfl) (.inr ⟨.inr (by rw [at_]; rfl), rfl⟩)
      (by rw [at_]; rfl) rfl
  case prepare | readyPrepare =>
    split_ifs at taken
    · exact reactorMove_handOver (by rw [at_]; rfl) rfl taken
    · cases taken
      exact reactorMove_goto (by rw [at_]; rfl)
  case submit | readySubmit => exact reactorMove_addWorkReturned (by rw [at_]; rfl) rfl rfl taken
  case timeouts =>
    cases taken
    exact reactorMove_goto (by rw [at_]; rfl)
  case stopped => cases taken

variable [Fintype Worker]

/-- The slot whose descriptor the reactor closes is in use for the connection. -/
theorem Owned.occupied_of_closes (owned : state.Owned serverFd) {fd connection : ℕ} {slot : Slot}
    (holds : state.reactor = .giveUp fd connection slot ∨
      (state.reactor.knows = .marked slot ∨ state.reactor.knows = .idle slot) ∧
        state.occupant slot = connection) :
    (state.conns slot).isActive ∧ state.occupant slot = connection := by
  have knowledge := owned.knowledge
  rcases holds with at_ | ⟨known | known, occupied⟩
  · rw [at_] at knowledge
    exact ⟨knowledge.1, knowledge.2.2.2⟩
  · rw [known] at knowledge
    exact ⟨knowledge.1, occupied⟩
  · rw [known] at knowledge
    exact ⟨knowledge.1, occupied⟩

end ServerState

end LetUsConnect
