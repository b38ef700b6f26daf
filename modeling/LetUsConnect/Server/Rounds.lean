import LetUsConnect.Server.IdleTimeout

/-!
# The rounds of the reactor

From one call of `select` to the next the reactor goes through the slots three
times and accepts what has arrived. Each round is bounded by the connections it
accepts. A slot that was idle and whose descriptor `select` reported is nobody
else's until the reactor comes to it, so within the round its connection is handed
to the pool or, when there is no memory, closed.
-/

namespace LetUsConnect

open Threads

namespace ReactorPlace

/-- A bound on the steps to the next call of `select` when nothing more is accepted. -/
def toSelect : ReactorPlace → ℕ
  | .select | .stopped => 0
  | .scan index => 3 * (maxConns - index) + 1
  | .scanBusy slot => 3 * (maxConns - slot)
  | .scanSet slot => 3 * (maxConns - slot) - 1
  | .loopStart => 3 * maxConns + 2
  | .timeout now index => ReactorPlace.remaining (.timeout now index) + 3 * maxConns + 3
  | .timeoutBusy now slot => ReactorPlace.remaining (.timeoutBusy now slot) + 3 * maxConns + 3
  | .timeoutAge now slot => ReactorPlace.remaining (.timeoutAge now slot) + 3 * maxConns + 3
  | .timeoutClose now slot => ReactorPlace.remaining (.timeoutClose now slot) + 3 * maxConns + 3
  | .timeoutSlot now slot => ReactorPlace.remaining (.timeoutSlot now slot) + 3 * maxConns + 3
  | .timeouts => 8 * maxConns + 9
  | .ready index => 8 * (maxConns - index) + 8 * maxConns + 10
  | .readyBusy slot => 8 * (maxConns - slot) + 8 * maxConns + 9
  | .readyIsSet slot => 8 * (maxConns - slot) + 8 * maxConns + 8
  | .readyMark slot => 8 * (maxConns - slot) + 8 * maxConns + 7
  | .readyPrepare slot => 8 * (maxConns - slot) + 8 * maxConns + 6
  | .readySubmit slot => 8 * (maxConns - slot) + 8 * maxConns + 5
  | .readyGiveUp slot => 8 * (maxConns - slot) + 8 * maxConns + 4
  | .readyGiveUpSlot slot => 8 * (maxConns - slot) + 8 * maxConns + 3
  | .accept => 16 * maxConns + 11
  | .reject _ _ | .giveUpSlot _ => 16 * maxConns + 12
  | .giveUp _ _ _ => 16 * maxConns + 13
  | .submit _ _ _ => 16 * maxConns + 14
  | .prepare _ _ _ => 16 * maxConns + 15
  | .claimBusy _ _ _ => 16 * maxConns + 16
  | .claimActive _ _ _ => 16 * maxConns + 17
  | .claimTime _ _ _ => 16 * maxConns + 18
  | .claimFd _ _ _ => 16 * maxConns + 19
  | .claim _ _ index => (maxConns - index) + 16 * maxConns + 20

/-- The reactor has called `select` and not yet come to the slot in its last loop but one. -/
def awaits (slot : Slot) : ReactorPlace → Bool
  | .accept | .claim _ _ _ | .claimFd _ _ _ | .claimTime _ _ _ | .claimActive _ _ _
  | .claimBusy _ _ _ | .reject _ _ | .prepare _ _ _ | .submit _ _ _ | .giveUp _ _ _
  | .giveUpSlot _ => true
  | .ready index => index ≤ slot
  | .readyBusy other | .readyIsSet other | .readyMark other => other ≤ slot
  | .readyPrepare other | .readySubmit other | .readyGiveUp other | .readyGiveUpSlot other =>
      other < slot
  | _ => false

end ReactorPlace

namespace ServerState

variable {Worker : Type} {state after : ServerState Worker}
  {serverFd : ℕ} {slot : Slot} {label : ServerLabel Worker} {labels : List (ServerLabel Worker)}
  {routes : Dictionary RouteHandler}

theorem visit_cases (state : ServerState Worker) (index : ℕ) (inUse : Slot → ReactorPlace)
    (next finished : ReactorPlace) :
    (maxConns ≤ index ∧ state.visit index inUse next finished = state.goto finished) ∨
      ∃ slot : Slot, index = slot ∧
        (((state.conns slot).isActive ∧
            state.visit index inUse next finished = state.goto (inUse slot)) ∨
          ((state.conns slot).isActive = false ∧
            state.visit index inUse next finished = state.goto next)) := by
  rw [ServerState.visit]
  by_cases inside : index < maxConns
  · rw [slotAt_of_lt inside]
    refine Or.inr ⟨⟨index, inside⟩, rfl, ?_⟩
    cases active : (state.conns ⟨index, inside⟩).isActive
    · exact Or.inr ⟨rfl, by simp [active]⟩
    · exact Or.inl ⟨rfl, by simp [active]⟩
  · rw [slotAt, dif_neg inside]
    exact Or.inl ⟨Nat.le_of_not_lt inside, rfl⟩

/-! ## A round is bounded -/

theorem toSelect_visit {index bound : ℕ} {inUse : Slot → ReactorPlace}
    {next finished : ReactorPlace} (inUseLess : ∀ slot : Slot, index = slot →
      (inUse slot).toSelect + 1 ≤ bound) (nextLess : index < maxConns → next.toSelect + 1 ≤ bound)
    (finishedLess : finished.toSelect + 1 ≤ bound) :
    (state.visit index inUse next finished).reactor.toSelect + 1 ≤ bound := by
  rcases state.visit_cases index inUse next finished with
    ⟨-, visited⟩ | ⟨slot, isSlot, ⟨-, visited⟩ | ⟨-, visited⟩⟩ <;> rw [visited]
  · exact finishedLess
  · exact inUseLess slot isSlot
  · exact nextLess (isSlot ▸ slot.isLt)

theorem accepted_visit (index : ℕ) (inUse : Slot → ReactorPlace) (next finished : ReactorPlace) :
    (state.visit index inUse next finished).accepted = state.accepted := by
  rcases state.visit_cases index inUse next finished with
    ⟨-, visited⟩ | ⟨slot, -, ⟨-, visited⟩ | ⟨-, visited⟩⟩ <;> rw [visited] <;> rfl

/-- A step of the reactor comes nearer to `select`, except for the connections it accepts. -/
theorem toSelect_of_reactorStep {input : ReactorInput} (outside : state.reactor ≠ .select)
    (taken : state.reactorStep serverFd input = some after) :
    after.reactor.toSelect + 1 + 268 * state.accepted ≤
      state.reactor.toSelect + 268 * after.accepted := by
  have bound : maxConns = 256 := rfl
  cases at_ : state.reactor <;> simp only [ServerState.reactorStep, at_] at taken
  case select => exact absurd at_ outside
  case stopped => cases taken
  case scan index | ready index | timeout _ index =>
    cases taken
    rw [accepted_visit]
    refine Nat.add_le_add_right (toSelect_visit ?_ ?_ ?_) _
    · rintro slot rfl
      simp only [ReactorPlace.toSelect, ReactorPlace.remaining]
      omega
    · intro inside
      simp only [ReactorPlace.toSelect, ReactorPlace.remaining]
      omega
    · simp only [ReactorPlace.toSelect, ReactorPlace.remaining]
      omega
  case accept =>
    cases incoming : input.incoming with
    | none =>
        simp only [incoming] at taken
        cases taken
        simp only [ServerState.goto, ReactorPlace.toSelect]
        omega
    | some fd =>
        simp only [incoming] at taken
        split_ifs at taken
        cases taken
        simp only [ServerState.goto, ReactorPlace.toSelect]
        omega
  case claim fd connection index =>
    cases found : slotAt index with
    | none =>
        simp only [found] at taken
        cases taken
        simp only [ServerState.goto, ReactorPlace.toSelect]
        omega
    | some slot =>
        have inside : index < maxConns := by
          by_contra outside
          rw [slotAt, dif_neg outside] at found
          cases found
        simp only [found] at taken
        cases taken
        split_ifs <;> simp only [ServerState.goto, ReactorPlace.toSelect] <;> omega
  case scanBusy slot | readyBusy slot | readyIsSet slot | timeoutBusy _ slot | timeoutAge _ slot =>
    have inside := slot.isLt
    cases taken
    split_ifs <;>
      simp only [ServerState.goto, ReactorPlace.toSelect, ReactorPlace.remaining] <;> omega
  case prepare | readyPrepare =>
    split_ifs at taken
    · rcases Option.map_eq_some_iff.mp taken with ⟨pool, -, rfl⟩
      simp only [ServerState.goto, ReactorPlace.toSelect]
      omega
    · cases taken
      simp only [ServerState.goto, ReactorPlace.toSelect]
      omega
  case submit =>
    unfold ServerState.addWorkReturned at taken
    split at taken <;> cases taken
    split_ifs <;> simp only [ServerState.goto, ReactorPlace.toSelect] <;> omega
  case readySubmit slot =>
    have inside := slot.isLt
    unfold ServerState.addWorkReturned at taken
    split at taken <;> cases taken
    split_ifs <;> simp only [ServerState.goto, ReactorPlace.toSelect] <;> omega
  case scanSet slot | readyGiveUpSlot slot | timeoutSlot _ slot | timeoutClose _ slot
      | readyMark slot | readyGiveUp slot =>
    have inside := slot.isLt
    cases taken
    simp only [ServerState.goto, ServerState.setConn, ServerState.closeFd, ReactorPlace.toSelect,
      ReactorPlace.remaining]
    omega
  all_goals
    cases taken
    simp only [ServerState.goto, ServerState.setConn, ServerState.closeFd, ReactorPlace.toSelect,
      ReactorPlace.remaining]
    omega

section Round

variable [DecidableEq Worker]

theorem toSelect_of_step (outside : state.reactor ≠ .select)
    (taken : (serverSystem Worker routes serverFd).step label state = some after) :
    after.reactor.toSelect + label.isReactor.toNat + 268 * state.accepted ≤
      state.reactor.toSelect + 268 * after.accepted := by
  cases others : label.isReactor
  case true =>
    cases label <;> try cases others
    exact toSelect_of_reactorStep outside taken
  case false =>
    rcases others_of_step others taken with ⟨reactor, accepted⟩
    rw [reactor, accepted]
    exact le_rfl

theorem toSelect_le (place : ReactorPlace) : place.toSelect ≤ 4372 := by
  have bound : maxConns = 256 := rfl
  cases place <;> simp only [ReactorPlace.toSelect, ReactorPlace.remaining] <;> omega

/-- The reactor comes back to `select`. -/
theorem returns_to_select (reached : (serverSystem Worker routes serverFd).Reachable state)
    (ran : (serverSystem Worker routes serverFd).run labels state = some after)
    (many : 4372 + 268 * (after.accepted - state.accepted) <
      labels.countP ServerLabel.isReactor) :
    (serverSystem Worker routes serverFd).Passes labels state
      (fun middle => middle.reactor = .select) after := by
  by_cases here : state.reactor = .select
  · exact Transition.System.passes_nil here ran
  refine @Transition.System.Reachable.run_passes_of_budget _ _ _ (fun _ => True)
    (fun state => state.reactor ≠ .select) (fun state => state.reactor = .select)
    (fun state => state.reactor.toSelect) (fun state => 268 * state.accepted)
    ServerLabel.isReactor (fun _ _ => trivial) ?_ _ _ _ reached here ran ?_
  · intro state label after _ outside taken
    by_cases arrived : after.reactor = .select
    · exact Or.inr arrived
    · exact Or.inl ⟨arrived, toSelect_of_step outside taken⟩
  · have most := toSelect_le state.reactor
    omega

end Round

/-! ## A slot that is due -/

/-- An idle connection that `select` has reported in this round. -/
structure Due (state : ServerState Worker) (slot : Slot) (fd connection : ℕ) : Prop where
  isActive : (state.conns slot).isActive
  isBusy : (state.conns slot).isBusy = false
  unclaimed : state.reactor.knows.claims slot = false
  named : (state.conns slot).fd = fd
  occupant : state.occupant slot = connection
  reported : fd ∈ state.readFds
  awaited : state.reactor.awaits slot

/-- The reactor has marked the slot and prepares its task, or has found no memory for it. -/
structure Taking (state : ServerState Worker) (slot : Slot) (fd connection : ℕ) : Prop where
  isActive : (state.conns slot).isActive
  named : (state.conns slot).fd = fd
  occupant : state.occupant slot = connection
  marked : state.reactor.knows = .marked slot

/-! ### Steps of the reactor -/

variable {fd connection : ℕ}

/-- The slot is as it was and the reactor has not come to it. -/
theorem Due.keep (due : state.Due slot fd connection) (conns : after.conns slot = state.conns slot)
    (occupant : after.occupant slot = state.occupant slot)
    (readFds : after.readFds = state.readFds)
    (unclaimed : after.reactor.knows.claims slot = false)
    (awaited : after.reactor.awaits slot) : after.Due slot fd connection where
  isActive := conns ▸ due.isActive
  isBusy := conns ▸ due.isBusy
  unclaimed := unclaimed
  named := conns ▸ due.named
  occupant := occupant.trans due.occupant
  reported := readFds ▸ due.reported
  awaited := awaited

theorem Due.goto (due : state.Due slot fd connection) {place : ReactorPlace}
    (unclaimed : place.knows.claims slot = false) (awaited : place.awaits slot) :
    (state.goto place).Due slot fd connection := due.keep rfl rfl rfl unclaimed awaited

theorem Due.visit (due : state.Due slot fd connection) {index : ℕ}
    (at_ : state.reactor = .ready index) :
    (state.visit index .readyBusy (.ready (index + 1)) .timeouts).Due slot fd connection := by
  have awaited := due.awaited
  rw [at_] at awaited
  have before : index ≤ slot := of_decide_eq_true awaited
  rcases state.visit_cases index .readyBusy (.ready (index + 1)) .timeouts with
    ⟨past, -⟩ | ⟨other, rfl, ⟨-, visited⟩ | ⟨unused, visited⟩⟩
  · exact absurd (before.trans_lt slot.isLt) (not_lt.mpr past)
  · rw [visited]
    exact due.goto rfl (decide_eq_true before)
  · rw [visited]
    have differs : (other : ℕ) ≠ slot := by
      intro same
      rw [Fin.ext same, due.isActive] at unused
      cases unused
    exact due.goto rfl (decide_eq_true (Nat.lt_of_le_of_ne before differs))

/-- While the reactor claims a slot for another connection. -/
theorem Due.claims (due : state.Due slot fd connection) {other : Slot} (conn : ClientConnection)
    (differs : other ≠ slot) {place : ReactorPlace} (unclaimed : place.knows.claims slot = false)
    (awaited : place.awaits slot) :
    ((state.setConn other conn).goto place).Due slot fd connection := by
  refine due.keep ?_ rfl rfl unclaimed awaited
  change Function.update state.conns other conn slot = state.conns slot
  exact Function.update_of_ne (Ne.symm differs) conn state.conns

/-- An unused slot, which the reactor claims for another connection, is another one. -/
theorem Due.ne_of_unused (due : state.Due slot fd connection) {other : Slot}
    (unused : (state.conns other).isActive = false) : other ≠ slot := by
  rintro rfl
  exact absurd (unused.symm.trans due.isActive) Bool.false_ne_true

/-- What `select` reports as ready is due in the round that begins. -/
theorem due_of_select {input : ReactorInput} (at_ : state.reactor = .select)
    (active : (state.conns slot).isActive) (idle : (state.conns slot).isBusy = false)
    (taken : state.reactorStep serverFd input = some after)
    (reported : (state.conns slot).fd ∈ after.readFds) (continues : after.reactor ≠ .stopped) :
    after.Due slot (state.conns slot).fd (state.occupant slot) := by
  simp only [ServerState.reactorStep, at_] at taken
  split at taken
  · cases taken
    exact absurd rfl continues
  · split_ifs at taken <;> cases taken
    · exact ⟨active, idle, rfl, rfl, rfl, reported, rfl⟩
    · exact ⟨active, idle, rfl, rfl, rfl, reported, decide_eq_true (Nat.zero_le slot.val)⟩

/-- In the loop over the ready slots it leaves the slot alone or, having come to it, marks it. -/
theorem Due.readyStep (due : state.Due slot fd connection)
    (reading : state.reactor.loop ≠ .accept) {input : ReactorInput}
    (taken : state.reactorStep serverFd input = some after) :
    after.Due slot fd connection ∨
      after.Taking slot fd connection ∧ after.reactor = .readyPrepare slot := by
  have awaited := due.awaited
  cases at_ : state.reactor <;> rw [at_] at awaited reading <;>
    simp only [ServerState.reactorStep, at_] at taken
  case ready index =>
    cases taken
    exact Or.inl (due.visit at_)
  case readyBusy other =>
    have before : (other : ℕ) ≤ slot := of_decide_eq_true awaited
    cases taken
    split_ifs with busy
    · have differs : (other : ℕ) ≠ slot := by
        intro same
        rw [Fin.ext same, due.isBusy] at busy
        cases busy
      exact Or.inl (due.goto rfl (decide_eq_true (Nat.lt_of_le_of_ne before differs)))
    · exact Or.inl (due.goto rfl (decide_eq_true before))
  case readyIsSet other =>
    have before : (other : ℕ) ≤ slot := of_decide_eq_true awaited
    cases taken
    split_ifs with isSet
    · exact Or.inl (due.goto rfl (decide_eq_true before))
    · have differs : (other : ℕ) ≠ slot := by
        intro same
        rw [Fin.ext same, due.named] at isSet
        exact isSet due.reported
      exact Or.inl (due.goto rfl (decide_eq_true (Nat.lt_of_le_of_ne before differs)))
  case readyMark other =>
    have before : (other : ℕ) ≤ slot := of_decide_eq_true awaited
    cases taken
    by_cases same : other = slot
    · subst same
      refine Or.inr ⟨⟨?_, ?_, due.occupant, rfl⟩, rfl⟩
      · change (Function.update state.conns other _ other).isActive
        rw [Function.update_self]
        exact due.isActive
      · change (Function.update state.conns other _ other).fd = fd
        rw [Function.update_self]
        exact due.named
    · have differs : (other : ℕ) ≠ slot := fun isSame => same (Fin.ext isSame)
      exact Or.inl (due.claims _ same rfl (decide_eq_true (Nat.lt_of_le_of_ne before differs)))
  case readyPrepare other =>
    split_ifs at taken
    · rcases Option.map_eq_some_iff.mp taken with ⟨pool, -, rfl⟩
      exact Or.inl (due.keep rfl rfl rfl rfl awaited)
    · cases taken
      exact Or.inl (due.goto rfl awaited)
  case readySubmit other =>
    unfold ServerState.addWorkReturned at taken
    split at taken <;> cases taken
    refine Or.inl (due.goto ?_ ?_)
    · split_ifs <;> rfl
    · split_ifs <;> exact awaited
  case readyGiveUp other =>
    cases taken
    exact Or.inl (due.keep rfl rfl rfl rfl awaited)
  case readyGiveUpSlot other =>
    have before : (other : ℕ) < slot := of_decide_eq_true awaited
    have differs : other ≠ slot := by
      rintro rfl
      exact lt_irrefl _ before
    cases taken
    exact Or.inl (due.claims _ differs rfl (decide_eq_true before))
  case loopStart | scan | scanBusy | scanSet | select | timeouts | timeout | timeoutBusy
      | timeoutAge | timeoutClose | timeoutSlot | stopped => cases awaited
  all_goals exact absurd rfl reading

section Reactor

variable [Fintype Worker]

/-- While the reactor accepts, it leaves the slot alone. -/
theorem Due.acceptStep (due : state.Due slot fd connection) (owned : state.Owned serverFd)
    (accepting : state.reactor.loop = .accept) {input : ReactorInput}
    (taken : state.reactorStep serverFd input = some after) : after.Due slot fd connection := by
  have knowledge := owned.knowledge
  have unclaimed := due.unclaimed
  cases at_ : state.reactor <;> rw [at_] at accepting unclaimed knowledge <;>
    simp only [ServerState.reactorStep, at_] at taken
  case accept =>
    cases incoming : input.incoming with
    | none =>
        simp only [incoming] at taken
        cases taken
        exact due.goto rfl (decide_eq_true (Nat.zero_le slot.val))
    | some arrived =>
        simp only [incoming] at taken
        split_ifs at taken
        cases taken
        exact due.keep rfl rfl rfl rfl rfl
  case claim =>
    split at taken
    · cases taken
      exact due.goto rfl rfl
    · cases taken
      refine due.goto ?_ ?_ <;> split_ifs <;> rfl
  case claimFd _ _ other =>
    have differs := due.ne_of_unused knowledge.2
    cases taken
    exact due.keep (Function.update_of_ne (Ne.symm differs) _ _)
      (Function.update_of_ne (Ne.symm differs) _ _) rfl rfl rfl
  case claimTime _ _ other =>
    cases taken
    exact due.claims _ (due.ne_of_unused knowledge.2.1) rfl rfl
  case claimActive _ _ other =>
    have differs := due.ne_of_unused knowledge.2.1
    cases taken
    exact due.claims _ differs (decide_eq_false differs) rfl
  case claimBusy _ _ other =>
    cases taken
    exact due.claims _ (of_decide_eq_false unclaimed) rfl rfl
  case giveUpSlot other =>
    have differs : other ≠ slot := by
      rintro rfl
      exact absurd (due.isBusy.symm.trans knowledge.2) Bool.false_ne_true
    cases taken
    exact due.claims _ differs rfl rfl
  case reject | giveUp =>
    cases taken
    exact due.keep rfl rfl rfl rfl rfl
  case prepare =>
    split_ifs at taken
    · rcases Option.map_eq_some_iff.mp taken with ⟨pool, -, rfl⟩
      exact due.keep rfl rfl rfl rfl rfl
    · cases taken
      exact due.goto rfl rfl
  case submit =>
    unfold ServerState.addWorkReturned at taken
    split at taken <;> cases taken
    refine due.goto ?_ ?_ <;> split_ifs <;> rfl
  all_goals cases accepting

theorem Due.reactorStep (due : state.Due slot fd connection) (owned : state.Owned serverFd)
    {input : ReactorInput} (taken : state.reactorStep serverFd input = some after) :
    after.Due slot fd connection ∨
      after.Taking slot fd connection ∧ after.reactor = .readyPrepare slot := by
  by_cases accepting : state.reactor.loop = .accept
  · exact Or.inl (due.acceptStep owned accepting taken)
  · exact due.readyStep accepting taken

/-- Nobody has closed the connection of a slot that the reactor has marked. -/
theorem Taking.unclosed (taking : state.Taking slot fd connection) (owned : state.Owned serverFd) :
    state.closes connection = 0 := by
  have knowledge := owned.knowledge
  rw [taking.marked] at knowledge
  have named := owned.named_of_reactor taking.isActive
    (by rw [ServerState.owned, knowledge.1, knowledge.2, taking.marked]; exact (oneFor_self _).symm)
    (by rw [taking.marked]; rfl)
  exact taking.occupant ▸ named.2.1

end Reactor

/-! ### Steps of the other threads -/

variable [DecidableEq Worker]

theorem readFds_of_step (others : label.isReactor = false)
    (taken : (serverSystem Worker routes serverFd).step label state = some after) :
    after.readFds = state.readFds := by
  cases label with
  | reactor input => cases others
  | task worker arrival =>
      change state.taskStep routes worker arrival = some after at taken
      rw [ServerState.taskStep] at taken
      split at taken
      case h_2 => cases taken
      case h_1 task place _ =>
        cases place <;> simp only at taken
        case recv =>
          unfold ServerState.recvStep at taken
          split at taken
          case h_2 =>
            rcases Option.map_eq_some_iff.mp taken with ⟨buffer, -, rfl⟩
            rfl
          all_goals
            cases taken
            try rfl
        case advance =>
          rcases Option.map_eq_some_iff.mp taken with ⟨buffer, -, rfl⟩
          rfl
        case done => cases taken
        all_goals
          cases taken
          rfl
  | finishWork worker =>
      rcases finishWork_cases taken with ⟨-, rfl⟩
      rfl
  | worker worker | interrupt worker | addWork newNode =>
      rcases Option.map_eq_some_iff.mp taken with ⟨pool, -, rfl⟩
      rfl

theorem not_stopped_of_run {labels : List (ServerLabel Worker)}
    (ran : (serverSystem Worker routes serverFd).run labels state = some after)
    (stopped : state.reactor = .stopped) : after.reactor = .stopped := by
  induction labels generalizing state with
  | nil =>
      simp only [Transition.System.run, Option.some.injEq] at ran
      exact ran ▸ stopped
  | cons label labels ih =>
      rw [Transition.System.run] at ran
      rcases Option.bind_eq_some_iff.mp ran with ⟨next, taken, rest⟩
      apply ih rest
      cases others : label.isReactor
      case true =>
        cases label <;> try cases others
        change state.reactorStep serverFd _ = some next at taken
        simp only [ServerState.reactorStep, stopped] at taken
        cases taken
      case false => exact (reactor_of_step others taken).trans stopped

variable [Fintype Worker]

/-- A slot whose task the reactor is preparing is in no worker's hand. -/
theorem Owned.spares_of_marked (owned : state.Owned serverFd)
    (marked : state.reactor.knows = .marked slot) (others : label.isReactor = false)
    (taken : (serverSystem Worker routes serverFd).step label state = some after) :
    state.SparesIdle after slot := by
  cases label with
  | reactor input => cases others
  | task worker arrival =>
      rcases taskStep_pool taken with ⟨task, place, -, at_, -⟩
      rcases taskStep_advances at_ taken with ⟨placeAfter, advances⟩
      have working : place ≠ .done := by
        rintro rfl
        change state.taskStep routes worker arrival = some after at taken
        simp only [ServerState.taskStep, at_] at taken
        cases taken
      have differs : slot ≠ task.conn := by
        rintro rfl
        have unprepared := (owned.handsOn (inHand_of_work at_ working)).unprepared
        rw [marked] at unprepared
        exact absurd ((oneFor_self _).symm.trans unprepared) Nat.one_ne_zero
      exact ⟨advances.others slot differs, congrFun advances.occupant slot⟩
  | finishWork worker =>
      rcases finishWork_cases taken with ⟨-, rfl⟩
      exact ⟨rfl, rfl⟩
  | worker worker | interrupt worker | addWork newNode =>
      rcases Option.map_eq_some_iff.mp taken with ⟨pool, -, rfl⟩
      exact ⟨rfl, rfl⟩

theorem Due.step (due : state.Due slot fd connection) (owned : state.Owned serverFd)
    (taken : (serverSystem Worker routes serverFd).step label state = some after) :
    after.Due slot fd connection ∨
      after.Taking slot fd connection ∧ after.reactor = .readyPrepare slot := by
  cases others : label.isReactor
  case true =>
    cases label <;> try cases others
    exact due.reactorStep owned taken
  case false =>
    have spares := owned.sparesIdle due.isBusy others taken
    refine Or.inl (due.keep spares.conns spares.occupant (readFds_of_step others taken) ?_ ?_)
    · rw [reactor_of_step others taken]
      exact due.unclaimed
    · rw [reactor_of_step others taken]
      exact due.awaited

theorem Taking.of_others (taking : state.Taking slot fd connection) (owned : state.Owned serverFd)
    (others : label.isReactor = false)
    (taken : (serverSystem Worker routes serverFd).step label state = some after) :
    after.Taking slot fd connection := by
  have spares := owned.spares_of_marked taking.marked others taken
  refine ⟨?_, ?_, spares.occupant.trans taking.occupant, ?_⟩
  · rw [spares.conns]
    exact taking.isActive
  · rw [spares.conns]
    exact taking.named
  · rw [reactor_of_step others taken]
    exact taking.marked

/-! ### How the reactor serves a slot -/

/-- The reactor is given memory for the task of the slot and hands it to the pool. -/
def HandsOver (slot : Slot) (fd connection : ℕ) (state : ServerState Worker)
    (label : ServerLabel Worker) (after : ServerState Worker) : Prop :=
  state.reactor = .readyPrepare slot ∧
    (∃ input, label = .reactor input ∧ input.allocated = true) ∧
    (after.pool.adders ()).offered = some ⟨fd, slot, connection⟩

/-- The reactor is given no memory for the task of the slot. -/
def LacksMemory (slot : Slot) (state : ServerState Worker) (label : ServerLabel Worker)
    (_ : ServerState Worker) : Prop :=
  state.reactor = .readyPrepare slot ∧ ∃ input, label = .reactor input ∧ input.allocated = false

/-- The reactor closes the connection for want of memory; nobody had closed it. -/
def GivesUp (slot : Slot) (connection : ℕ) (state : ServerState Worker)
    (label : ServerLabel Worker) (after : ServerState Worker) : Prop :=
  state.reactor = .readyGiveUp slot ∧ label.isReactor ∧ state.closes connection = 0 ∧
    after.closes connection = 1

/--
In the run the reactor hands the slot over, or `malloc` fails for its task and the
reactor then closes the connection.
-/
def ServedIn (routes : Dictionary RouteHandler) (serverFd : ℕ) (slot : Slot) (fd connection : ℕ)
    (labels : List (ServerLabel Worker)) (state after : ServerState Worker) : Prop :=
  (serverSystem Worker routes serverFd).Takes labels state (HandsOver slot fd connection) after ∨
    ∃ first second middle, labels = first ++ second ∧
      (serverSystem Worker routes serverFd).Takes first state (LacksMemory slot) middle ∧
      (serverSystem Worker routes serverFd).Takes second middle (GivesUp slot connection) after

/-- `malloc` is called for the task of the slot: the slot is handed over or to be given up. -/
def Allocates (slot : Slot) (fd connection : ℕ) (state : ServerState Worker)
    (label : ServerLabel Worker) (after : ServerState Worker) : Prop :=
  HandsOver slot fd connection state label after ∨
    LacksMemory slot state label after ∧ after.Taking slot fd connection ∧
      after.reactor = .readyGiveUp slot

theorem Taking.allocates (taking : state.Taking slot fd connection)
    (owned : state.Owned serverFd) (at_ : state.reactor = .readyPrepare slot)
    (taken : (serverSystem Worker routes serverFd).step label state = some after) :
    (after.Taking slot fd connection ∧ after.reactor = .readyPrepare slot) ∨
      Allocates slot fd connection state label after := by
  cases others : label.isReactor
  case true =>
    cases label <;> try cases others
    rename_i input
    change state.reactorStep serverFd input = some after at taken
    simp only [ServerState.reactorStep, at_] at taken
    split_ifs at taken with allocated
    · rcases Option.map_eq_some_iff.mp taken with ⟨pool, added, rfl⟩
      refine Or.inr (Or.inl ⟨at_, ⟨input, rfl, allocated⟩, ?_⟩)
      rw [(ThreadPool.addWork_cases added).2, taking.named, taking.occupant,
        ThreadPool.adders_moveAdder, Function.update_self]
      rfl
    · cases taken
      exact Or.inr (Or.inr ⟨⟨at_, input, rfl, Bool.eq_false_of_not_eq_true allocated⟩,
        ⟨taking.isActive, taking.named, taking.occupant, rfl⟩, rfl⟩)
  case false =>
    exact Or.inl ⟨taking.of_others owned others taken, (reactor_of_step others taken).trans at_⟩

theorem Taking.givesUp (taking : state.Taking slot fd connection)
    (owned : state.Owned serverFd) (at_ : state.reactor = .readyGiveUp slot)
    (taken : (serverSystem Worker routes serverFd).step label state = some after) :
    (after.Taking slot fd connection ∧ after.reactor = .readyGiveUp slot) ∨
      GivesUp slot connection state label after := by
  cases others : label.isReactor
  case true =>
    cases label <;> try cases others
    rename_i input
    change state.reactorStep serverFd input = some after at taken
    simp only [ServerState.reactorStep, at_] at taken
    cases taken
    have unclosed := taking.unclosed owned
    refine Or.inr ⟨at_, rfl, unclosed, ?_⟩
    change Function.update state.closes (state.occupant slot)
      (state.closes (state.occupant slot) + 1) connection = 1
    rw [taking.occupant, Function.update_self, unclosed]
  case false =>
    exact Or.inl ⟨taking.of_others owned others taken, (reactor_of_step others taken).trans at_⟩

/-- In the round in which it is reported `malloc` is called for a task for the slot. -/
theorem allocates_in_round (reached : (serverSystem Worker routes serverFd).Reachable state)
    (due : state.Due slot fd connection)
    (ran : (serverSystem Worker routes serverFd).run labels state = some after)
    (ended : after.reactor = .timeouts) :
    (serverSystem Worker routes serverFd).Takes labels state (Allocates slot fd connection)
      after := by
  refine @Transition.System.Reachable.run_takes _ _ _ (fun state => state.Owned serverFd)
    (fun state => state.Due slot fd connection ∨
      state.Taking slot fd connection ∧ state.reactor = .readyPrepare slot) _
    (fun _ reached => owned_of_reachable reached) ?_ _ _ _ reached (Or.inl due) ran ?_
  · rintro state label after owned (due | ⟨taking, at_⟩) taken
    · exact Or.inl (due.step owned taken)
    · rcases taking.allocates owned at_ taken with still | allocates
      · exact Or.inl (Or.inr still)
      · exact Or.inr allocates
  · rintro (due | ⟨-, at_⟩)
    · have awaited := due.awaited
      rw [ended] at awaited
      cases awaited
    · rw [ended] at at_
      cases at_

/-- In the round in which it is reported an idle connection is handed over or closed. -/
theorem served_in_round (reached : (serverSystem Worker routes serverFd).Reachable state)
    (due : state.Due slot fd connection)
    (ran : (serverSystem Worker routes serverFd).run labels state = some after)
    (ended : after.reactor = .timeouts) :
    ServedIn routes serverFd slot fd connection labels state after := by
  rcases allocates_in_round reached due ran ended with
    ⟨first, label, second, middle, next, rfl, ranFirst, taken, handsOver | ⟨lacks, givingUp⟩, later⟩
  · exact Or.inl ⟨first, label, second, middle, next, rfl, ranFirst, taken, handsOver, later⟩
  · refine Or.inr ⟨first ++ [label], second, next, by simp,
      ⟨first, label, [], middle, next, rfl, ranFirst, taken, lacks, rfl⟩, ?_⟩
    refine @Transition.System.Reachable.run_takes _ _ _ (fun state => state.Owned serverFd)
      (fun state => state.Taking slot fd connection ∧ state.reactor = .readyGiveUp slot) _
      (fun _ reached => owned_of_reachable reached) ?_ _ _ _
      (.next (reached.run ranFirst) trivial taken) givingUp later ?_
    · rintro state label after owned ⟨taking, at_⟩ taken
      exact taking.givesUp owned at_ taken
    · rintro ⟨-, at_⟩
      rw [ended] at at_
      cases at_

/-- What holds of the rounds of the reactor that begin in a state. -/
structure GoesRound (routes : Dictionary RouteHandler) (serverFd : ℕ)
    (state : ServerState Worker) : Prop where
  /-- The reactor comes back to `select`, however many connections it accepts. -/
  returns : ∀ labels after,
    (serverSystem Worker routes serverFd).run labels state = some after →
    4372 + 268 * (after.accepted - state.accepted) < labels.countP ServerLabel.isReactor →
    (serverSystem Worker routes serverFd).Passes labels state
      (fun middle => middle.reactor = .select) after
  /--
  An idle connection that `select` reports is handed over before the timeouts are
  checked or, when `malloc` fails for its task, closed.
  -/
  serves : state.reactor = .select → ∀ slot input begun labels after,
    (state.conns slot).isActive → (state.conns slot).isBusy = false →
    (serverSystem Worker routes serverFd).step (.reactor input) state = some begun →
    (state.conns slot).fd ∈ begun.readFds →
    (serverSystem Worker routes serverFd).run labels begun = some after →
    after.reactor = .timeouts →
    ServedIn routes serverFd slot (state.conns slot).fd (state.occupant slot) labels begun after

/--
The reactor calls `select` again and again, and in every round it serves the idle
connections that `select` reports, whatever the workers and the other connections do.
-/
theorem goesRound_of_reachable (reached : (serverSystem Worker routes serverFd).Reachable state) :
    state.GoesRound routes serverFd where
  returns := fun _ _ ran many => returns_to_select reached ran many
  serves := by
    intro at_ slot input begun labels after active idle taken reported ran ended
    have continues : begun.reactor ≠ .stopped := by
      intro stopped
      have stays := not_stopped_of_run ran stopped
      rw [ended] at stays
      cases stays
    exact served_in_round (.next reached trivial taken)
      (due_of_select at_ active idle taken reported continues) ran ended

/-! ## A run -/

/-- A connection from which nothing has arrived yet is idle at the next call of `select`. -/
def idleAgain : List (ServerLabel Unit) :=
  claimRun ++ List.replicate 2 (.task () ⟨.wouldBlock, idle, 0⟩) ++
    List.replicate 780 (.reactor quiet)

/-- The reactor hands it over and goes on to the timeouts. -/
def servingRun : List (ServerLabel Unit) :=
  List.replicate 5 (.reactor quiet) ++ List.replicate 5 (.addWork 101) ++
    List.replicate 257 (.reactor quiet)

theorem servingRun_goesRound :
    ∃ state begun after, (serverSystem Unit dictionaryConstructor 3).run idleAgain
        (serverStart 3 0) = some state ∧ state.reactor = .select ∧
      (state.conns 0).isActive ∧ (state.conns 0).isBusy = false ∧
      state.reactorStep 3 { quiet with ready := some {5} } = some begun ∧
      (state.conns 0).fd ∈ begun.readFds ∧
      (serverSystem Unit dictionaryConstructor 3).run servingRun begun = some after ∧
      after.reactor = .timeouts ∧ state.GoesRound dictionaryConstructor 3 := by
  have initially : (serverSystem Unit dictionaryConstructor 3).initial (serverStart 3 0) :=
    ⟨0, by decide, rfl⟩
  have works : ((serverSystem Unit dictionaryConstructor 3).run idleAgain (serverStart 3 0)).bind
      (fun state => (state.reactorStep 3 { quiet with ready := some {5} }).bind fun begun =>
        ((serverSystem Unit dictionaryConstructor 3).run servingRun begun).map fun after =>
          (state.reactor, (state.conns 0).isActive, (state.conns 0).isBusy,
            decide ((state.conns 0).fd ∈ begun.readFds), after.reactor)) =
      some (.select, true, false, true, .timeouts) := by decide +kernel
  rcases Option.bind_eq_some_iff.mp works with ⟨state, ran, works⟩
  rcases Option.bind_eq_some_iff.mp works with ⟨begun, taken, works⟩
  rcases Option.map_eq_some_iff.mp works with ⟨after, served, facts⟩
  simp only [Prod.mk.injEq] at facts
  rcases facts with ⟨at_, active, isIdle, reported, ended⟩
  exact ⟨state, begun, after, ran, at_, active, isIdle, taken, of_decide_eq_true reported, served,
    ended, goesRound_of_reachable (Transition.System.Reachable.run (.start initially) ran)⟩

end ServerState

end LetUsConnect
