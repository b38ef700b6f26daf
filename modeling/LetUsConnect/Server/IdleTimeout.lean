import LetUsConnect.Server.Accounting
import LetUsConnect.Server.LastActivity
import LetUsConnect.Server.Tasks

/-!
# The idle timeout

`check_keepalive_timeouts` reads the time and then goes through the slots while the
workers go on. The slots it looks at and finds idle are in nobody else's hands until
it has given them up, and nothing has happened on their connections since their
`last_activity`: what it closes has been quiet for ten seconds. No slot with a
`last_activity` as old escapes it.
-/

namespace LetUsConnect

open Threads

/-- A step of the reactor. -/
def ServerLabel.isReactor {Worker : Type} : ServerLabel Worker → Bool
  | .reactor _ => true
  | _ => false

namespace ReactorPlace

/-- The time a call of `check_keepalive_timeouts` has read and the index its loop is at. -/
def checking : ReactorPlace → Option (ℤ × ℕ)
  | .timeout now index => some (now, index)
  | .timeoutBusy now slot | .timeoutAge now slot | .timeoutClose now slot
  | .timeoutSlot now slot => some (now, slot)
  | _ => none

/-- A bound on the steps the call still takes. -/
def remaining : ReactorPlace → ℕ
  | .timeout _ index => 5 * (maxConns - index) + 5
  | .timeoutBusy _ slot => 5 * (maxConns - slot) + 4
  | .timeoutAge _ slot => 5 * (maxConns - slot) + 3
  | .timeoutClose _ slot => 5 * (maxConns - slot) + 2
  | .timeoutSlot _ slot => 5 * (maxConns - slot) + 1
  | _ => 0

/-- The slot the call is about to give up. -/
def reaps : ReactorPlace → Option (ℤ × Slot)
  | .timeoutClose now slot | .timeoutSlot now slot => some (now, slot)
  | _ => none

end ReactorPlace

namespace ServerState

variable {Worker : Type} {state after : ServerState Worker}
  {serverFd : ℕ} {slot : Slot} {now : ℤ} {label : ServerLabel Worker}
  {routes : Dictionary RouteHandler}

/-- A slot in use that is not busy and whose last activity is at least ten seconds old. -/
structure Expired (state : ServerState Worker) (now : ℤ) (slot : Slot) : Prop where
  isActive : (state.conns slot).isActive
  isBusy : (state.conns slot).isBusy = false
  age : now - (state.conns slot).lastActivity ≥ 10

theorem Expired.of_conns (expired : state.Expired now slot)
    (conns : after.conns slot = state.conns slot) : after.Expired now slot where
  isActive := by
    rw [conns]
    exact expired.isActive
  isBusy := by
    rw [conns]
    exact expired.isBusy
  age := by
    rw [conns]
    exact expired.age

/-! ## Steps of the call -/

/-- What a step of the call does. -/
inductive Checks (state : ServerState Worker) (now : ℤ) : ServerState Worker → Prop where
  | pass {index : ℕ} (at_ : state.reactor = .timeout now index)
      (unused : ∀ slot, slotAt index = some slot → (state.conns slot).isActive = false)
      (inside : index < maxConns) : Checks state now (state.goto (.timeout now (index + 1)))
  | finish {index : ℕ} (at_ : state.reactor = .timeout now index) (outside : maxConns ≤ index) :
      Checks state now (state.goto .loopStart)
  | look {slot : Slot} (at_ : state.reactor = .timeout now slot)
      (active : (state.conns slot).isActive) : Checks state now (state.goto (.timeoutBusy now slot))
  | busy {slot : Slot} (at_ : state.reactor = .timeoutBusy now slot)
      (busy : (state.conns slot).isBusy) : Checks state now (state.goto (.timeout now (slot + 1)))
  | idle {slot : Slot} (at_ : state.reactor = .timeoutBusy now slot)
      (idle : (state.conns slot).isBusy = false) :
      Checks state now (state.goto (.timeoutAge now slot))
  | young {slot : Slot} (at_ : state.reactor = .timeoutAge now slot)
      (young : ¬now - (state.conns slot).lastActivity ≥ 10) :
      Checks state now (state.goto (.timeout now (slot + 1)))
  | old {slot : Slot} (at_ : state.reactor = .timeoutAge now slot)
      (age : now - (state.conns slot).lastActivity ≥ 10) :
      Checks state now (state.goto (.timeoutClose now slot))
  | close {slot : Slot} (at_ : state.reactor = .timeoutClose now slot) :
      Checks state now ((state.closeFd (state.conns slot).fd (state.occupant slot)).goto
        (.timeoutSlot now slot))
  | giveUp {slot : Slot} (at_ : state.reactor = .timeoutSlot now slot) :
      Checks state now ((state.setConn slot { state.conns slot with isActive := false }).goto
        (.timeout now (slot + 1)))

theorem slotAt_of_lt {index : ℕ} (inside : index < maxConns) :
    slotAt index = some ⟨index, inside⟩ := dif_pos inside

theorem checks_of_step (serverFd : ℕ) {index : ℕ} (at_ : state.reactor.checking = some (now, index))
    (input : ReactorInput) :
    ∃ after, state.reactorStep serverFd input = some after ∧ state.Checks now after := by
  cases place : state.reactor <;> rw [place] at at_ <;> cases at_ <;>
    simp only [ServerState.reactorStep, place, Option.some.injEq, exists_eq_left']
  case timeout =>
    rw [ServerState.visit]
    by_cases inside : index < maxConns
    · simp only [slotAt_of_lt inside]
      by_cases active : (state.conns ⟨index, inside⟩).isActive
      · rw [if_pos active]
        exact .look place active
      · rw [if_neg active]
        refine .pass place ?_ inside
        intro slot isSlot
        rw [slotAt_of_lt inside, Option.some.injEq] at isSlot
        rw [← isSlot]
        exact Bool.eq_false_iff.mpr active
    · rw [slotAt, dif_neg inside]
      exact .finish place (not_lt.mp inside)
  case timeoutBusy slot =>
    cases busy : (state.conns slot).isBusy
    · exact .idle place busy
    · exact .busy place busy
  case timeoutAge slot =>
    split_ifs with age
    · exact .old place age
    · exact .young place age
  case timeoutClose => exact .close place
  case timeoutSlot => exact .giveUp place

namespace Checks

variable {index : ℕ} {connection : ℕ}

/-- The loop stays at a slot or goes on to the next. -/
theorem onward (checks : state.Checks now after)
    (at_ : state.reactor.checking = some (now, index)) (inside : index < maxConns) :
    after.reactor.checking = some (now, index) ∨ after.reactor = .timeout now (index + 1) := by
  cases checks with
  | pass place | busy place | young place | giveUp place =>
      rw [place] at at_
      cases at_
      exact Or.inr rfl
  | finish place outside =>
      rw [place] at at_
      cases at_
      exact absurd outside (not_le.mpr inside)
  | look place | idle place | old place | close place =>
      rw [place] at at_
      cases at_
      exact Or.inl rfl

/-- The call comes nearer to its return. -/
theorem remaining_lt (checks : state.Checks now after) :
    (∃ index, after.reactor.checking = some (now, index)) ∧
        after.reactor.remaining + 1 ≤ state.reactor.remaining ∨
      after.reactor = .loopStart := by
  cases checks with
  | finish => exact Or.inr rfl
  | pass place unused inside =>
      refine Or.inl ⟨⟨_, rfl⟩, ?_⟩
      simp only [place, ServerState.goto, ReactorPlace.remaining]
      omega
  | @busy slot place | @young slot place | @giveUp slot place =>
      refine Or.inl ⟨⟨_, rfl⟩, ?_⟩
      have inside := slot.isLt
      simp only [place, ServerState.goto, ReactorPlace.remaining]
      omega
  | look place | idle place | old place | close place =>
      refine Or.inl ⟨⟨_, rfl⟩, ?_⟩
      simp only [place, ServerState.goto, ReactorPlace.remaining]
      omega

theorem closes_eq (checks : state.Checks now after)
    (changed : after.closes connection ≠ state.closes connection) :
    ∃ slot, state.reactor = .timeoutClose now slot ∧ state.occupant slot = connection := by
  cases checks with
  | close place =>
      refine ⟨_, place, ?_⟩
      by_contra differs
      exact changed (Function.update_of_ne (Ne.symm differs) _ _)
  | _ => exact absurd rfl changed

theorem conns_eq (checks : state.Checks now after)
    (changed : after.conns slot ≠ state.conns slot) : state.reactor = .timeoutSlot now slot := by
  cases checks with
  | @giveUp other place =>
      have isSlot : slot = other := by
        by_contra differs
        exact changed (Function.update_of_ne differs _ _)
      rw [isSlot]
      exact place
  | _ => exact absurd rfl changed

end Checks

theorem reaps_visit {index : ℕ} {inUse : Slot → ReactorPlace} {next finished : ReactorPlace}
    (inUseReaps : ∀ slot, (inUse slot).reaps = none) (nextReaps : next.reaps = none)
    (finishedReaps : finished.reaps = none) :
    (state.visit index inUse next finished).reactor.reaps = none := by
  rw [ServerState.visit]
  split
  · exact finishedReaps
  · split_ifs
    · exact inUseReaps _
    · exact nextReaps

/-- Only `check_keepalive_timeouts` gives slots up for their age. -/
theorem reaps_of_step {input : ReactorInput} (outside : state.reactor.checking = none)
    (taken : state.reactorStep serverFd input = some after) : after.reactor.reaps = none := by
  cases at_ : state.reactor <;> rw [at_] at outside <;>
    simp only [ServerState.reactorStep, at_] at taken
  case timeout | timeoutBusy | timeoutAge | timeoutClose | timeoutSlot => cases outside
  case scan | ready =>
    cases taken
    exact reaps_visit (fun _ => rfl) rfl rfl
  case scanBusy | readyBusy | readyIsSet =>
    cases taken
    split_ifs <;> rfl
  case select | accept | claim =>
    split at taken
    · cases taken
      rfl
    · split_ifs at taken <;> cases taken <;> rfl
  case prepare | readyPrepare =>
    split_ifs at taken
    · rcases Option.map_eq_some_iff.mp taken with ⟨pool, -, rfl⟩
      rfl
    · cases taken
      rfl
  case submit | readySubmit =>
    unfold ServerState.addWorkReturned at taken
    split at taken <;> cases taken
    split_ifs <;> rfl
  case stopped => cases taken
  all_goals
    cases taken
    rfl

/-! ## Steps of the other threads -/

/-- A step that changes nothing of a slot. -/
structure SparesIdle (state after : ServerState Worker) (slot : Slot) : Prop where
  conns : after.conns slot = state.conns slot
  occupant : after.occupant slot = state.occupant slot

variable [Fintype Worker] [DecidableEq Worker]

theorem Owned.sparesIdle (owned : state.Owned serverFd)
    (idle : (state.conns slot).isBusy = false) (others : label.isReactor = false)
    (taken : (serverSystem Worker routes serverFd).step label state = some after) :
    state.SparesIdle after slot := by
  cases label with
  | reactor input => cases others
  | task worker arrival =>
      rcases taskStep_pool taken with ⟨task, place, -, at_, -⟩
      rcases taskStep_advances at_ taken with ⟨placeAfter, advances⟩
      have working : place ≠ .done := by
        rintro rfl
        change state.taskStep routes worker arrival = some after at taken
        simp only [ServerState.taskStep, at_] at taken
        cases taken
      have hand := inHand_of_work at_ working
      have handsOn := owned.handsOn hand
      have differs : slot ≠ task.conn := by
        rintro rfl
        have busy := handsOn.isBusy
        rw [idle] at busy
        cases busy
      exact ⟨advances.others slot differs, congrFun advances.occupant slot⟩
  | finishWork worker =>
      rcases finishWork_cases taken with ⟨-, rfl⟩
      exact ⟨rfl, rfl⟩
  | worker worker =>
      rcases Option.map_eq_some_iff.mp taken with ⟨pool, -, rfl⟩
      exact ⟨rfl, rfl⟩
  | interrupt worker =>
      rcases Option.map_eq_some_iff.mp taken with ⟨pool, -, rfl⟩
      exact ⟨rfl, rfl⟩
  | addWork newNode =>
      rcases Option.map_eq_some_iff.mp taken with ⟨pool, -, rfl⟩
      exact ⟨rfl, rfl⟩

omit [Fintype Worker] in
/-- Only the reactor moves the reactor and accepts connections. -/
theorem others_of_step (others : label.isReactor = false)
    (taken : (serverSystem Worker routes serverFd).step label state = some after) :
    after.reactor = state.reactor ∧ after.accepted = state.accepted := by
  cases label with
  | reactor input => cases others
  | task worker arrival =>
      rcases taskStep_pool taken with ⟨task, place, -, at_, -⟩
      rcases taskStep_advances at_ taken with ⟨placeAfter, advances⟩
      exact ⟨advances.reactor, advances.accepted⟩
  | finishWork worker =>
      rcases finishWork_cases taken with ⟨-, rfl⟩
      exact ⟨rfl, rfl⟩
  | worker worker | interrupt worker | addWork newNode =>
      rcases Option.map_eq_some_iff.mp taken with ⟨pool, -, rfl⟩
      exact ⟨rfl, rfl⟩

omit [Fintype Worker] in
theorem reactor_of_step (others : label.isReactor = false)
    (taken : (serverSystem Worker routes serverFd).step label state = some after) :
    after.reactor = state.reactor := (others_of_step others taken).1

omit [Fintype Worker] in
/-- While a call is in progress a step is one of its own or of another thread. -/
theorem checks_or_others {index : ℕ} (at_ : state.reactor.checking = some (now, index))
    (taken : (serverSystem Worker routes serverFd).step label state = some after) :
    state.Checks now after ∨ label.isReactor = false := by
  cases label with
  | reactor input =>
      rcases checks_of_step serverFd at_ input with ⟨next, steps, checks⟩
      change state.reactorStep serverFd input = some after at taken
      rw [taken, Option.some.injEq] at steps
      exact Or.inl (steps ▸ checks)
  | _ => exact Or.inr rfl

/-- What the call is about to give up has expired. -/
def Reaps (state : ServerState Worker) : Prop :=
  ∀ now slot, state.reactor.reaps = some (now, slot) → state.Expired now slot

omit [DecidableEq Worker] in
theorem Checks.reaps (checks : state.Checks now after) (owned : state.Owned serverFd)
    (reaps : state.Reaps) : after.Reaps := by
  have knowledge := owned.knowledge
  intro time slot reaping
  cases checks with
  | old place age =>
      cases reaping
      rw [place] at knowledge
      exact ⟨knowledge.1, knowledge.2, age⟩
  | close place =>
      cases reaping
      have expired := reaps now slot
      rw [place] at expired
      exact (expired rfl).of_conns rfl
  | _ => cases reaping

theorem Reaps.step (reaps : state.Reaps) (owned : state.Owned serverFd)
    (taken : (serverSystem Worker routes serverFd).step label state = some after) :
    after.Reaps := by
  have ofOthers : label.isReactor = false → after.Reaps := by
    intro others time slot reaping
    rw [reactor_of_step others taken] at reaping
    have expired := reaps time slot reaping
    exact expired.of_conns (owned.sparesIdle expired.isBusy others taken).conns
  cases checking : state.reactor.checking with
  | none =>
      cases label with
      | reactor input =>
          intro time slot reaping
          rw [reaps_of_step checking taken] at reaping
          cases reaping
      | _ => exact ofOthers rfl
  | some place =>
      rcases checks_or_others checking taken with checks | others
      · exact checks.reaps owned reaps
      · exact ofOthers others

theorem reaps_of_reachable (reached : (serverSystem Worker routes serverFd).Reachable state) :
    state.Reaps := by
  refine @Transition.System.ReachableWhere.invariant _ _ _ _
    (fun state => state.Owned serverFd) (fun state => state.Reaps) ?_ ?_ ?_ state reached
  · exact fun _ reached => owned_of_reachable reached
  · rintro state ⟨count, -, rfl⟩
    exact nofun
  · intro state label after owned reaps _ taken
    exact reaps.step owned taken

/-! ## The scan of a slot -/

/-- The call looks at a slot that has expired and has not yet given it up. -/
structure Reaping (start : ServerState Worker) (now : ℤ) (slot : Slot)
    (state : ServerState Worker) : Prop where
  expired : state.Expired now slot
  occupant : state.occupant slot = start.occupant slot
  at_ : state.reactor.checking = some (now, slot.val)

/-- The call has closed the connection that was in the slot and goes on. -/
structure Reaped (start : ServerState Worker) (now : ℤ) (slot : Slot)
    (state : ServerState Worker) : Prop where
  at_ : state.reactor = .timeout now (slot + 1)
  isActive : (state.conns slot).isActive = false
  closed : state.closes (start.occupant slot) = 1

theorem slot_of_checking {other : Slot} {place : ReactorPlace}
    (at_ : place.checking = some (now, slot.val))
    (isPlace : place.checking = some (now, other.val)) :
    other = slot := by
  rw [isPlace, Option.some.injEq, Prod.mk.injEq] at at_
  exact Fin.ext at_.2

omit [Fintype Worker] [DecidableEq Worker] in
theorem Reaping.goto {start : ServerState Worker} {place : ReactorPlace}
    (reaping : start.Reaping now slot state) (at_ : place.checking = some (now, slot.val)) :
    start.Reaping now slot (state.goto place) :=
  ⟨reaping.expired.of_conns rfl, reaping.occupant, at_⟩

omit [DecidableEq Worker] in
theorem Owned.closed_of_timeoutSlot (owned : state.Owned serverFd)
    (at_ : state.reactor = .timeoutSlot now slot) : state.closes (state.occupant slot) = 1 := by
  have closed := owned.closed_of_reactor (by rw [at_]; exact oneFor_self slot)
  have once := owned.ledger.once (state.occupant slot)
  omega

omit [DecidableEq Worker] in
theorem Reaping.checks {start : ServerState Worker} (reaping : start.Reaping now slot state)
    (owned : state.Owned serverFd) (checks : state.Checks now after) :
    start.Reaping now slot after ∨ start.Reaped now slot after := by
  have at_ := reaping.at_
  cases checks with
  | pass place unused inside =>
      rw [place] at at_
      cases at_
      have active := reaping.expired.isActive
      rw [unused slot (slotAt_of_lt inside)] at active
      cases active
  | finish place outside =>
      rw [place] at at_
      cases at_
      exact absurd slot.isLt (not_lt.mpr outside)
  | look place =>
      cases slot_of_checking at_ (by rw [place]; rfl)
      exact Or.inl (reaping.goto rfl)
  | busy place busy =>
      cases slot_of_checking at_ (by rw [place]; rfl)
      rw [reaping.expired.isBusy] at busy
      cases busy
  | idle place =>
      cases slot_of_checking at_ (by rw [place]; rfl)
      exact Or.inl (reaping.goto rfl)
  | young place young =>
      cases slot_of_checking at_ (by rw [place]; rfl)
      exact absurd reaping.expired.age young
  | old place =>
      cases slot_of_checking at_ (by rw [place]; rfl)
      exact Or.inl (reaping.goto rfl)
  | close place =>
      cases slot_of_checking at_ (by rw [place]; rfl)
      exact Or.inl ⟨reaping.expired.of_conns rfl, reaping.occupant, rfl⟩
  | giveUp place =>
      cases slot_of_checking at_ (by rw [place]; rfl)
      refine Or.inr ⟨rfl, ?_, ?_⟩
      · change (Function.update state.conns slot { state.conns slot with isActive := false }
          slot).isActive = false
        rw [Function.update_self]
      · rw [← reaping.occupant]
        exact owned.closed_of_timeoutSlot place

/-- Whatever the other threads do, the scan of an expired slot ends with its connection closed. -/
theorem Reaping.step {start : ServerState Worker} (reaping : start.Reaping now slot state)
    (owned : state.Owned serverFd)
    (taken : (serverSystem Worker routes serverFd).step label state = some after) :
    start.Reaping now slot after ∨ start.Reaped now slot after := by
  have expired := reaping.expired
  rcases checks_or_others reaping.at_ taken with checks | others
  · exact reaping.checks owned checks
  · have spares := owned.sparesIdle expired.isBusy others taken
    refine Or.inl ⟨expired.of_conns spares.conns, spares.occupant.trans reaping.occupant, ?_⟩
    rw [reactor_of_step others taken]
    exact reaping.at_

omit [Fintype Worker] in
/-- The loop of the call goes from slot to slot. -/
theorem checking_of_step {index : ℕ} (at_ : state.reactor.checking = some (now, index))
    (inside : index < maxConns)
    (taken : (serverSystem Worker routes serverFd).step label state = some after) :
    after.reactor.checking = some (now, index) ∨ after.reactor = .timeout now (index + 1) := by
  rcases checks_or_others at_ taken with checks | others
  · exact checks.onward at_ inside
  · rw [reactor_of_step others taken]
    exact Or.inl at_

omit [Fintype Worker] in
theorem remaining_of_step {index : ℕ} (at_ : state.reactor.checking = some (now, index))
    (taken : (serverSystem Worker routes serverFd).step label state = some after) :
    (∃ next, after.reactor.checking = some (now, next)) ∧
        after.reactor.remaining + label.isReactor.toNat ≤ state.reactor.remaining ∨
      after.reactor = .loopStart := by
  rcases checks_or_others at_ taken with checks | others
  · rcases checks.remaining_lt with ⟨still, lower⟩ | returned
    · have atMost := Bool.toNat_le label.isReactor
      exact Or.inl ⟨still, by omega⟩
    · exact Or.inr returned
  · rw [reactor_of_step others taken, others]
    exact Or.inl ⟨⟨index, at_⟩, le_rfl⟩

end ServerState

/-! ## What the call does -/

namespace TimedState

open ServerState

variable {Worker : Type} [Fintype Worker] [DecidableEq Worker] {timed after : TimedState Worker}
  {move : TimedLabel Worker} {routes : Dictionary RouteHandler} {serverFd : ℕ} {connection : ℕ}
  {now : ℤ} {slot : Slot}

/-- Nothing happens any more on a connection that was closed. -/
theorem activity_of_closed (reached : (timedSystem Worker routes serverFd).Reachable timed)
    (closed : timed.server.closes connection ≠ 0) {later : TimedState Worker}
    (ran : ((timedSystem Worker routes serverFd).startingAt timed).Reachable later) :
    later.activity connection = timed.activity connection := by
  have known : ∀ state, ((timedSystem Worker routes serverFd).startingAt timed).Reachable state →
      state.server.Owned serverFd :=
    fun _ later => owned_of_reachable (server_reachable (reached.of_startingAt later))
  have invariant : later.server.closes connection ≠ 0 ∧
      later.activity connection = timed.activity connection := by
    refine @Transition.System.ReachableWhere.invariant _ _ _ _ _
      (fun state => state.server.closes connection ≠ 0 ∧
        state.activity connection = timed.activity connection) known ?_ ?_ later ran
    · rintro state rfl
      exact ⟨closed, rfl⟩
    · rintro state move after owned ⟨closed, quiet⟩ _ taken
      rcases step_cases taken with ⟨-, -, step, -, activity⟩
      refine ⟨?_, ?_⟩
      · have more := (owned.effect step).closes connection
        omega
      · rw [activity, record_of_not_touches, quiet]
        intro touched
        rcases owned.touches_cases touched with ⟨_, _, _, _, -, -, -, -, unclosed, -⟩
        exact closed unclosed
  exact invariant.2

/--
What a call of `check_keepalive_timeouts` that has read the time `now` does in a
state: the steps of the reactor are those of the call.
-/
structure ReapsIdle (routes : Dictionary RouteHandler) (serverFd : ℕ) (timed : TimedState Worker)
    (now : ℤ) : Prop where
  /-- The call can always go on. -/
  proceeds : ∀ input, timed.clock ≤ input.now →
    ∃ after, (timedSystem Worker routes serverFd).step ⟨.reactor input, input.now⟩ timed =
      some after
  /-- The call returns after a bounded number of its steps, whatever the others do. -/
  returns : ∀ moves later, (timedSystem Worker routes serverFd).run moves timed = some later →
    timed.server.reactor.remaining < moves.countP (fun move => move.label.isReactor) →
    (timedSystem Worker routes serverFd).Passes moves timed
      (fun middle => middle.server.reactor = .loopStart) later
  /-- The call closes a connection only for its age, and the connection is quiet for good. -/
  closesIdle : ∀ input time after connection,
    (timedSystem Worker routes serverFd).step ⟨.reactor input, time⟩ timed = some after →
    after.server.closes connection ≠ timed.server.closes connection →
    (∃ slot, timed.server.Expired now slot ∧ timed.server.occupant slot = connection) ∧
      ∀ later, ((timedSystem Worker routes serverFd).startingAt after).Reachable later →
        ∀ active ∈ later.activity connection, active ≤ now - 10
  /-- The call leaves the other slots as they are. -/
  spares : ∀ input time after slot,
    (timedSystem Worker routes serverFd).step ⟨.reactor input, time⟩ timed = some after →
    ¬timed.server.Expired now slot → after.server.conns slot = timed.server.conns slot
  /-- The call goes to every slot before it returns. -/
  scans : timed.server.reactor = .timeout now 0 → ∀ (slot : Slot) moves later,
    (timedSystem Worker routes serverFd).run moves timed = some later →
    (∀ index, later.server.reactor.checking ≠ some (now, index)) →
    (timedSystem Worker routes serverFd).Passes moves timed
      (fun middle => middle.server.reactor = .timeout now slot) later
  /-- The call closes the connection of a slot that has expired when it looks at it. -/
  reaps : ∀ slot : Slot, timed.server.reactor.checking = some (now, slot.val) →
    timed.server.Expired now slot → ∀ moves later,
    (timedSystem Worker routes serverFd).run moves timed = some later →
    later.server.reactor.checking ≠ some (now, slot.val) →
    (timedSystem Worker routes serverFd).Passes moves timed
      (fun middle => timed.server.Reaped now slot middle.server) later

theorem owned_of_timed (timed : TimedState Worker)
    (reached : (timedSystem Worker routes serverFd).Reachable timed) :
    timed.server.Owned serverFd :=
  owned_of_reachable (server_reachable reached)

omit [Fintype Worker] in
theorem exists_step (serverFd : ℕ) (routes : Dictionary RouteHandler) {index : ℕ}
    (at_ : timed.server.reactor.checking = some (now, index)) (input : ReactorInput)
    (later : timed.clock ≤ input.now) :
    ∃ after, (timedSystem Worker routes serverFd).step ⟨.reactor input, input.now⟩ timed =
      some after := by
  rcases checks_of_step serverFd at_ input with ⟨server, step, -⟩
  have allowed : timed.clock ≤ input.now ∧ (some input.now).getD input.now = input.now :=
    ⟨later, rfl⟩
  refine ⟨⟨server, input.now, timed.record ⟨.reactor input, input.now⟩⟩, ?_⟩
  change (if timed.clock ≤ input.now ∧ (some input.now).getD input.now = input.now then
    (timed.server.reactorStep serverFd input).map _ else none) = _
  rw [if_pos allowed, step]
  rfl

omit [Fintype Worker] in
theorem returns_of_count (reached : (timedSystem Worker routes serverFd).Reachable timed)
    {index : ℕ} (at_ : timed.server.reactor.checking = some (now, index))
    {moves : List (TimedLabel Worker)} {later : TimedState Worker}
    (ran : (timedSystem Worker routes serverFd).run moves timed = some later)
    (enough : timed.server.reactor.remaining <
      moves.countP (fun move => move.label.isReactor)) :
    (timedSystem Worker routes serverFd).Passes moves timed
      (fun middle => middle.server.reactor = .loopStart) later := by
  refine @Transition.System.Reachable.run_passes_of_count _ _ _ (fun _ => True)
    (fun timed => ∃ index, timed.server.reactor.checking = some (now, index))
    (fun timed => timed.server.reactor = .loopStart)
    (fun timed => timed.server.reactor.remaining) _ (fun _ _ => trivial) ?_ _ _ _ reached
    ⟨index, at_⟩ ran enough
  rintro state move after - ⟨index, checking⟩ taken
  exact remaining_of_step checking (step_cases taken).2.2.1

/-- What is about to be given up for its age has been quiet for as long. -/
theorem quiet_of_expired (reached : (timedSystem Worker routes serverFd).Reachable timed)
    (expired : timed.server.Expired now slot) :
    ∀ active ∈ timed.activity (timed.server.occupant slot), active ≤ now - 10 := by
  have owned := owned_of_timed timed reached
  rcases (dated_of_reachable reached).dated slot expired.isActive with settled | attended
  · intro active member
    have before := settled active member
    have age := expired.age
    omega
  · rcases attended with ⟨worker, task, place, at_, rfl, attends⟩
    have working : place ≠ .done := by
      rintro rfl
      cases attends
    have busy := (owned.handsOn (inHand_of_work at_ working)).isBusy
    rw [expired.isBusy] at busy
    cases busy

theorem closes_idle (reached : (timedSystem Worker routes serverFd).Reachable timed) {index : ℕ}
    (at_ : timed.server.reactor.checking = some (now, index)) {input : ReactorInput} {time : ℤ}
    (taken : (timedSystem Worker routes serverFd).step ⟨.reactor input, time⟩ timed = some after)
    (changed : after.server.closes connection ≠ timed.server.closes connection) :
    (∃ slot, timed.server.Expired now slot ∧ timed.server.occupant slot = connection) ∧
      ∀ later, ((timedSystem Worker routes serverFd).startingAt after).Reachable later →
        ∀ active ∈ later.activity connection, active ≤ now - 10 := by
  rcases step_cases taken with ⟨-, -, step, -, activity⟩
  rcases checks_or_others at_ step with checks | others
  · rcases checks.closes_eq changed with ⟨slot, place, rfl⟩
    have expired := reaps_of_reachable (server_reachable reached) now slot (by rw [place]; rfl)
    refine ⟨⟨slot, expired, rfl⟩, ?_⟩
    intro later ran
    have closed : after.server.closes (timed.server.occupant slot) ≠ 0 := by
      have more := ((owned_of_timed timed reached).effect step).closes (timed.server.occupant slot)
      omega
    rw [activity_of_closed (.next reached trivial taken) closed ran, activity]
    exact quiet_of_expired reached expired
  · cases others

theorem spares_others (reached : (timedSystem Worker routes serverFd).Reachable timed) {index : ℕ}
    (at_ : timed.server.reactor.checking = some (now, index)) {input : ReactorInput} {time : ℤ}
    (taken : (timedSystem Worker routes serverFd).step ⟨.reactor input, time⟩ timed = some after)
    (young : ¬timed.server.Expired now slot) :
    after.server.conns slot = timed.server.conns slot := by
  rcases checks_or_others at_ (step_cases taken).2.2.1 with checks | others
  · by_contra changed
    have place := checks.conns_eq changed
    exact young (reaps_of_reachable (server_reachable reached) now slot (by rw [place]; rfl))
  · cases others

omit [Fintype Worker] in
theorem scans_slot (reached : (timedSystem Worker routes serverFd).Reachable timed)
    (at_ : timed.server.reactor = .timeout now 0) (slot : Slot)
    {moves : List (TimedLabel Worker)} {later : TimedState Worker}
    (ran : (timedSystem Worker routes serverFd).run moves timed = some later)
    (ended : ∀ index, later.server.reactor.checking ≠ some (now, index)) :
    (timedSystem Worker routes serverFd).Passes moves timed
      (fun middle => middle.server.reactor = .timeout now slot) later := by
  by_cases first : slot.val = 0
  · exact Transition.System.passes_nil (by rw [at_, first]) ran
  · refine @Transition.System.Reachable.run_passes _ _ _ (fun _ => True)
      (fun timed => ∃ index < slot.val, timed.server.reactor.checking = some (now, index)) _
      (fun _ _ => trivial) ?_ _ _ _ reached ?_ ran ?_
    · rintro state move after - ⟨index, before, checking⟩ taken
      rcases checking_of_step checking (before.trans slot.isLt) (step_cases taken).2.2.1 with
        same | next
      · exact Or.inl ⟨index, before, same⟩
      · rcases Nat.lt_or_ge (index + 1) slot with still | arrived
        · refine Or.inl ⟨index + 1, still, ?_⟩
          rw [next]
          rfl
        · have isSlot : index + 1 = slot := Nat.le_antisymm before arrived
          exact Or.inr (by rw [next, isSlot])
    · exact ⟨0, Nat.pos_of_ne_zero first, by rw [at_]; rfl⟩
    · rintro ⟨index, -, checking⟩
      exact ended index checking

theorem reaps_expired (reached : (timedSystem Worker routes serverFd).Reachable timed)
    (at_ : timed.server.reactor.checking = some (now, slot.val))
    (expired : timed.server.Expired now slot) {moves : List (TimedLabel Worker)}
    {later : TimedState Worker}
    (ran : (timedSystem Worker routes serverFd).run moves timed = some later)
    (ended : later.server.reactor.checking ≠ some (now, slot.val)) :
    (timedSystem Worker routes serverFd).Passes moves timed
      (fun middle => timed.server.Reaped now slot middle.server) later := by
  refine @Transition.System.Reachable.run_passes _ _ _ (fun timed => timed.server.Owned serverFd)
    (fun state => timed.server.Reaping now slot state.server) _ owned_of_timed ?_ _ _ _ reached ?_
    ran ?_
  · intro state move after owned reaping taken
    exact reaping.step owned (step_cases taken).2.2.1
  · exact ⟨expired, rfl, at_⟩
  · exact fun reaping => ended reaping.at_

/--
In every run on a clock that does not go back, whatever the workers do meanwhile, a
call of `check_keepalive_timeouts` that has read the time closes only connections that
have been quiet for ten seconds, closes them all, and leaves the other slots alone.
-/
theorem reapsIdle_of_reachable (reached : (timedSystem Worker routes serverFd).Reachable timed)
    {index : ℕ} (checking : timed.server.reactor.checking = some (now, index)) :
    timed.ReapsIdle routes serverFd now where
  proceeds := exists_step serverFd routes checking
  returns := fun _ _ ran enough => returns_of_count reached checking ran enough
  closesIdle := fun _ _ _ _ taken changed => closes_idle reached checking taken changed
  spares := fun _ _ _ _ taken young => spares_others reached checking taken young
  scans := fun at_ slot _ _ ran ended => scans_slot reached at_ slot ran ended
  reaps := fun _ at_ expired _ _ ran ended => reaps_expired reached at_ expired ran ended

/-! ## A run -/

/-- A step at a time, which the step also reads. -/
def atTime (time : ℤ) : ServerLabel Unit → TimedLabel Unit
  | .reactor input => ⟨.reactor { input with now := time }, time⟩
  | .task worker arrival => ⟨.task worker { arrival with now := time }, time⟩
  | label => ⟨label, time⟩

/-- A connection from which nothing arrives, and twenty seconds later the call reads the time. -/
def idleRun : List (TimedLabel Unit) :=
  claimRun.map (atTime 0) ++
    List.replicate 2 (atTime 0 (.task () ⟨.wouldBlock, idle, 0⟩)) ++
    List.replicate 260 (atTime 0 (.reactor quiet)) ++ [atTime 20 (.reactor quiet)]

theorem idleRun_reapsIdle :
    ∃ timed, (timedSystem Unit dictionaryConstructor 3).run idleRun
        ⟨serverStart 3 0, 0, fun _ => []⟩ = some timed ∧
      timed.server.Expired 20 0 ∧ timed.ReapsIdle dictionaryConstructor 3 20 := by
  have initially : (timedSystem Unit dictionaryConstructor 3).initial
      ⟨serverStart 3 0, 0, fun _ => []⟩ := ⟨⟨0, by decide, rfl⟩, fun _ => rfl⟩
  have ends : ((timedSystem Unit dictionaryConstructor 3).run idleRun
      ⟨serverStart 3 0, 0, fun _ => []⟩).map (fun timed => (timed.server.reactor.checking,
        (timed.server.conns 0).isActive, (timed.server.conns 0).isBusy,
        (timed.server.conns 0).lastActivity)) = some (some (20, 0), true, false, 0) := by
    decide +kernel
  rcases Option.map_eq_some_iff.mp ends with ⟨timed, ran, at_⟩
  simp only [Prod.mk.injEq] at at_
  rcases at_ with ⟨checking, active, idle, old⟩
  exact ⟨timed, ran, ⟨active, idle, by rw [old]; decide⟩,
    reapsIdle_of_reachable (Transition.System.Reachable.run (.start initially) ran) checking⟩

end TimedState

end LetUsConnect
