import LetUsConnect.Server.Isolation

/-!
# The bounds of the receive buffer

The statements that use `read_length`, in the arithmetic of the machine: an `int`
that is added to and subtracted from values of type `size_t`, and an index that
nothing checks. `SlotState` has no bound in its type; the bounds are an invariant
of its runs, which follow a slot through its tasks, connections and reuses.

Every slot of the server runs through such states, because at most one task at a
time works on it. So nothing that the server relies on `ReadBuffer` for is lost.
-/

namespace LetUsConnect

open CString

/-! ## The statements -/

/-- `sizeof(conn->read_buffer) - 1 - conn->read_length`, a `size_t`. -/
def recvLength (readLength : ℤ) : ℕ := ((bufferSize - 1 - readLength) % 2 ^ 64).toNat

/-- The buffer of a slot, and where the work for the slot stands. -/
structure SlotState where
  readBuffer : Bytes
  /-- The value of an `int`. -/
  readLength : ℤ
  place : TaskPlace
  /-- Every byte so far was written to `read_buffer`. -/
  inside : Bool

/-- What the work depends on besides the buffer. -/
structure SlotInput where
  result : RecvResult
  requestComplete : Bool
  keepAlive : Bool
  isActive : Bool

namespace SlotState

/-- A write to `conn->read_buffer + conn->read_length`. -/
def write (state : SlotState) (data : Bytes) : SlotState :=
  if 0 ≤ state.readLength ∧ state.readLength + data.length ≤ bufferSize then
    { state with readBuffer := overwrite state.readBuffer state.readLength.toNat data }
  else { state with inside := false }

/-- One step of the work for a slot; the next task begins where the last one ends. -/
def step (state : SlotState) (input : SlotInput) : Option SlotState :=
  match state.place with
  | .recv =>
      match input.result with
      | .received piece =>
          if piece ≠ [] ∧ piece.length ≤ recvLength state.readLength then
            some { state.write piece with place := .advance piece.length }
          else none
      | .wouldBlock => some { state with place := .release }
      | .ended | .failed => some { state with place := .close }
  | .advance bytesRead =>
      some { state with readLength := toInt (state.readLength + bytesRead), place := .terminate }
  | .terminate => some { state.write [0] with place := .frame }
  | .frame => some { state with place := if input.requestComplete then .construct else .stamp }
  | .construct => some { state with place := .handle (cstr state.readBuffer) }
  | .handle _ => some { state with place := .resetLength input.keepAlive }
  | .resetLength keepAlive => some { state with readLength := 0, place := .clearBuffer keepAlive }
  | .clearBuffer keepAlive =>
      some
        { state with
          readBuffer := List.replicate bufferSize 0, place := .checkActive keepAlive }
  | .checkActive keepAlive =>
      some { state with place := if keepAlive && input.isActive then .stamp else .close }
  | .stamp => some { state with place := .release }
  | .close => some { state with place := .deactivate }
  | .release | .deactivate => some { state with place := .recv }
  | .done => none

variable {state : SlotState} {input : SlotInput}

/-- A write within `read_buffer`. -/
theorem write_eq {data : Bytes} (nonneg : 0 ≤ state.readLength)
    (fits : state.readLength + data.length ≤ bufferSize) : state.write data =
      { state with readBuffer := overwrite state.readBuffer state.readLength.toNat data } :=
  if_pos ⟨nonneg, fits⟩

theorem step_received {piece : Bytes} (at_ : state.place = .recv)
    (result : input.result = .received piece) (nonempty : piece ≠ [])
    (asked : piece.length ≤ recvLength state.readLength) :
    state.step input = some { state.write piece with place := .advance piece.length } := by
  simp only [step, at_, result]
  exact if_pos ⟨nonempty, asked⟩

end SlotState

/-- The history of a slot from the start of the server on. -/
def slotSystem : Transition.System SlotState SlotInput where
  initial state := state = ⟨List.replicate bufferSize 0, 0, .recv, true⟩
  step input state := state.step input

/-! ## The invariant -/

/-- The bytes that `recv` has stored and that `read_length` does not count yet. -/
def TaskPlace.stored : TaskPlace → ℕ
  | .advance bytesRead => bytesRead
  | _ => 0

namespace SlotState

/-- The bounds of a slot. -/
structure Bounded (state : SlotState) : Prop where
  size : state.readBuffer.length = bufferSize
  nonneg : 0 ≤ state.readLength
  room : state.readLength + state.place.stored ≤ bufferSize - 1
  inside : state.inside = true
  terminated : state.place = .frame →
    state.readBuffer[state.readLength.toNat]? = some 0

variable {state after : SlotState}

/-- The subtraction does not wrap. -/
theorem recvLength_eq {readLength : ℤ} (nonneg : 0 ≤ readLength)
    (room : readLength ≤ bufferSize - 1) :
    (recvLength readLength : ℤ) = bufferSize - 1 - readLength := by
  rw [bufferSize] at *
  rw [recvLength, Int.emod_eq_of_lt (by rw [bufferSize]; omega) (by rw [bufferSize]; omega),
    bufferSize]
  omega

theorem Bounded.length_overwrite (bounded : state.Bounded) {data : Bytes}
    (fits : state.readLength + data.length ≤ bufferSize) :
    (overwrite state.readBuffer state.readLength.toNat data).length = bufferSize := by
  have nonneg := bounded.nonneg
  have size := bounded.size
  rw [LetUsConnect.length_overwrite (by omega), size]

theorem Bounded.goto (bounded : state.Bounded) {place : TaskPlace}
    (nothing : place.stored = 0) (later : place ≠ .frame) :
    Bounded { state with place := place } where
  size := bounded.size
  nonneg := bounded.nonneg
  room := by
    have room := bounded.room
    simp only [nothing]
    omega
  inside := bounded.inside
  terminated := fun isFrame => absurd isFrame later

theorem Bounded.store (bounded : state.Bounded) {piece : Bytes}
    (asked : piece.length ≤ recvLength state.readLength) :
    Bounded { state.write piece with place := .advance piece.length } := by
  have room := bounded.room
  have nonneg := bounded.nonneg
  have length := recvLength_eq nonneg (by omega)
  have fits : state.readLength + piece.length ≤ bufferSize - 1 := by omega
  rw [write_eq nonneg (by omega)]
  exact
    { size := bounded.length_overwrite (by omega)
      nonneg := nonneg
      room := fits
      inside := bounded.inside
      terminated := by simp }

theorem Bounded.advance (bounded : state.Bounded) {bytesRead : ℕ}
    (at_ : state.place = .advance bytesRead) :
    toInt (state.readLength + bytesRead) = state.readLength + bytesRead ∧
      Bounded
        { state with readLength := toInt (state.readLength + bytesRead), place := .terminate } := by
  have room := bounded.room
  have nonneg := bounded.nonneg
  rw [at_, TaskPlace.stored, bufferSize] at room
  have exact_ : toInt (state.readLength + bytesRead) = state.readLength + bytesRead :=
    toInt_eq_self (by omega) (by omega)
  refine ⟨exact_, bounded.size, ?_, ?_, bounded.inside, by simp⟩
  · simp only [exact_]
    omega
  · simp only [exact_, TaskPlace.stored, bufferSize]
    omega

theorem Bounded.terminate (bounded : state.Bounded) :
    Bounded { state.write [0] with place := .frame } := by
  have room := bounded.room
  have nonneg := bounded.nonneg
  have size := bounded.size
  have fits : state.readLength + [(0 : UInt8)].length ≤ bufferSize := by
    rw [List.length_singleton]
    omega
  rw [write_eq nonneg fits]
  refine ⟨bounded.length_overwrite fits, nonneg, ?_, bounded.inside, fun _ => ?_⟩
  · simp only [TaskPlace.stored]
    omega
  · simp only [overwrite]
    have before : (state.readBuffer.take state.readLength.toNat).length =
        state.readLength.toNat := by
      rw [List.length_take]
      omega
    rw [List.append_assoc, List.getElem?_append_right before.le, before, Nat.sub_self]
    rfl

theorem Bounded.step (bounded : state.Bounded) {input : SlotInput}
    (taken : state.step input = some after) : after.Bounded := by
  cases at_ : state.place <;> simp only [SlotState.step, at_] at taken
  case recv =>
    cases result : input.result with
    | received piece =>
        simp only [result] at taken
        split_ifs at taken with asked
        cases taken
        exact bounded.store asked.2
    | wouldBlock =>
        simp only [result] at taken
        cases taken
        exact bounded.goto rfl (by simp)
    | ended =>
        simp only [result] at taken
        cases taken
        exact bounded.goto rfl (by simp)
    | failed =>
        simp only [result] at taken
        cases taken
        exact bounded.goto rfl (by simp)
  case advance =>
    cases taken
    exact (bounded.advance at_).2
  case terminate =>
    cases taken
    exact bounded.terminate
  case frame | checkActive =>
    cases taken
    apply bounded.goto
    · split_ifs <;> rfl
    · split_ifs <;> simp
  case resetLength =>
    cases taken
    exact ⟨bounded.size, le_rfl, by simp [TaskPlace.stored, bufferSize], bounded.inside, by simp⟩
  case clearBuffer =>
    cases taken
    have room := bounded.room
    rw [at_] at room
    exact ⟨List.length_replicate, bounded.nonneg, room, bounded.inside, by simp⟩
  case done => cases taken
  all_goals
    cases taken
    exact bounded.goto rfl (by simp)

end SlotState

/-- What the bounds are for. -/
structure SlotState.Safe (state : SlotState) : Prop where
  bounds : 0 ≤ state.readLength ∧ state.readLength ≤ 8191
  asked : (recvLength state.readLength : ℤ) = 8192 - 1 - state.readLength
  inside : state.inside = true
  counted : ∀ bytesRead, state.place = .advance bytesRead →
    toInt (state.readLength + bytesRead) = state.readLength + bytesRead ∧
      state.readLength + bytesRead ≤ 8191
  framed : state.place = .frame → state.readBuffer[state.readLength.toNat]? = some 0

theorem SlotState.Bounded.safe {state : SlotState} (bounded : state.Bounded) : state.Safe := by
  have nonneg := bounded.nonneg
  have room := bounded.room
  have high : state.readLength ≤ bufferSize - 1 := by omega
  refine ⟨⟨nonneg, high⟩, SlotState.recvLength_eq nonneg high, bounded.inside, ?_,
    bounded.terminated⟩
  intro bytesRead at_
  rw [at_] at room
  exact ⟨(bounded.advance at_).1, room⟩

/-- The bounds hold in the whole history of a slot. -/
theorem bounded_of_reachable {state : SlotState} (reached : slotSystem.Reachable state) :
    state.Bounded := by
  apply Transition.System.Reachable.invariant _ _ reached
  · rintro state rfl
    exact ⟨List.length_replicate, le_rfl, by decide, rfl, by simp⟩
  · intro state input after bounded taken
    exact bounded.step taken

/-! ## The slots of the server -/

namespace ServerState

variable {Worker : Type} {state after : ServerState Worker}
  {serverFd : ℕ} {slot : Slot} {worker : Worker} {task : ClientTask} {place placeAfter : TaskPlace}
  {routes : Dictionary RouteHandler}

/-- A slot of the server, with the work for it at a place. -/
def slotState (state : ServerState Worker) (slot : Slot) (place : TaskPlace) : SlotState :=
  ⟨(state.conns slot).readBuffer, (state.conns slot).readLength, place, true⟩

theorem slotState_eq (same : (after.conns slot).toReadBuffer = (state.conns slot).toReadBuffer)
    (place : TaskPlace) : after.slotState slot place = state.slotState slot place := by
  rw [slotState, slotState, same]

theorem buffer_setConn {other : Slot} {conn : ClientConnection}
    (same : conn.toReadBuffer = (state.conns other).toReadBuffer) :
    ((state.setConn other conn).conns slot).toReadBuffer = (state.conns slot).toReadBuffer :=
  see_update (·.toReadBuffer) same slot

/-- The reactor writes to no buffer, also when it claims a slot or gives it up. -/
theorem buffer_reactorStep {input : ReactorInput}
    (taken : state.reactorStep serverFd input = some after) (slot : Slot) :
    (after.conns slot).toReadBuffer = (state.conns slot).toReadBuffer := by
  cases reactorMove_of_step taken with
  | goes | accepts | rejects | closes | handsOver => rfl
  | claimsFd | claimsTime | claimsActive | marks | givesUp => exact buffer_setConn rfl

theorem slotState_of_conn {conn : ClientConnection} {before : Option SlotState}
    (here : after.conns slot = conn)
    (stepped : before = some ⟨conn.readBuffer, conn.readLength, place, true⟩) :
    before = some (after.slotState slot place) := by
  rw [stepped, slotState, here]

theorem room_eq (buffer : ReadBuffer) : recvLength buffer.readLength = buffer.room := by
  have bound := buffer.readLength_lt
  have length := SlotState.recvLength_eq (Int.natCast_nonneg buffer.readLength) (by omega)
  rw [ReadBuffer.room]
  omega

theorem resting_of_ne (working : place ≠ .done) : resting place = place := if_neg working

variable [DecidableEq Worker]

/-- `recv` is a step of its slot, whatever the descriptor names. -/
theorem slotState_recvStep {result : RecvResult}
    (taken : state.recvStep worker task result = some after) :
    ∃ input placeAfter, after.pool = state.pool.moveWorker worker (.work (some task) placeAfter) ∧
      (∀ slot, slot ≠ task.conn → after.conns slot = state.conns slot) ∧
      (state.slotState task.conn .recv).step input =
        some (after.slotState task.conn (resting placeAfter)) := by
  unfold recvStep at taken
  split at taken
  case h_2 piece nonempty _ =>
    rcases Option.map_eq_some_iff.mp taken with ⟨buffer, stored, rfl⟩
    refine ⟨⟨.received piece, false, false, false⟩, .advance piece.length, rfl,
      fun slot differs => Function.update_of_ne differs _ _, ?_⟩
    rw [ReadBuffer.store] at stored
    split_ifs at stored with fits
    cases stored
    have asked : piece.length ≤ recvLength (state.conns task.conn).readLength := by
      rw [room_eq]
      exact fits
    have inBuffer : (state.conns task.conn).readLength + (piece.length : ℤ) ≤ bufferSize := by
      have bound := (state.conns task.conn).readLength_lt
      rw [ReadBuffer.room] at fits
      omega
    rw [resting_of_ne (by simp), SlotState.step_received rfl rfl nonempty asked,
      SlotState.write_eq (Int.natCast_nonneg _) inBuffer]
    exact slotState_of_conn (Function.update_self _ _ _) rfl
  case h_1 | h_6 => cases taken
  case h_3 =>
    cases taken
    exact ⟨⟨.wouldBlock, false, false, false⟩, .release, rfl, fun _ _ => rfl, rfl⟩
  all_goals
    cases taken
    exact ⟨⟨.failed, false, false, false⟩, .close, rfl, fun _ _ => rfl, rfl⟩

/-- Each step of a task is a step of its slot. -/
theorem slotState_taskStep {arrival : Arrival}
    (at_ : state.pool.workers worker = .work (some task) place)
    (taken : state.taskStep routes worker arrival = some after) :
    ∃ input placeAfter, after.pool = state.pool.moveWorker worker (.work (some task) placeAfter) ∧
      (∀ slot, slot ≠ task.conn → after.conns slot = state.conns slot) ∧
      (state.slotState task.conn place).step input =
        some (after.slotState task.conn (resting placeAfter)) := by
  simp only [taskStep, at_] at taken
  have others : ∀ conn slot, slot ≠ task.conn →
      Function.update state.conns task.conn conn slot = state.conns slot :=
    fun conn slot differs => Function.update_of_ne differs _ _
  let input (complete keepAlive : Bool) : SlotInput :=
    ⟨.failed, complete, keepAlive, (state.conns task.conn).isActive⟩
  cases place <;> simp only at taken
  case recv => exact slotState_recvStep taken
  case advance bytesRead =>
    rcases Option.map_eq_some_iff.mp taken with ⟨buffer, advanced, rfl⟩
    rw [ReadBuffer.advance] at advanced
    split_ifs at advanced with bound
    cases advanced
    refine ⟨input false false, .terminate, rfl, others _, ?_⟩
    have exact_ : toInt ((state.conns task.conn).readLength + bytesRead) =
        ((state.conns task.conn).readLength + bytesRead : ℕ) := by
      rw [bufferSize] at bound
      rw [toInt_eq_self (by omega) (by omega)]
      rfl
    refine slotState_of_conn (Function.update_self _ _ _) ?_
    simp only [SlotState.step, slotState, exact_]
    rfl
  case terminate =>
    cases taken
    refine ⟨input false false, .frame, rfl, others _, ?_⟩
    have inBuffer : (state.slotState task.conn .terminate).readLength +
        (([0] : Bytes).length : ℤ) ≤ bufferSize := by
      have bound := (state.conns task.conn).readLength_lt
      change ((state.conns task.conn).readLength : ℤ) + 1 ≤ bufferSize
      omega
    refine slotState_of_conn (Function.update_self _ _ _) ?_
    change some { (state.slotState task.conn .terminate).write [0] with place := .frame } = _
    rw [SlotState.write_eq (Int.natCast_nonneg _) inBuffer]
    rfl
  case frame =>
    cases taken
    refine ⟨input (requestComplete (state.conns task.conn).text (state.conns task.conn).readLength)
      false, _, rfl, fun _ _ => rfl, ?_⟩
    rw [resting_of_ne (by split_ifs <;> simp)]
    rfl
  case construct =>
    cases taken
    exact ⟨input false false, .handle _, rfl, fun _ _ => rfl, rfl⟩
  case handle text =>
    cases taken
    exact ⟨input false (keepAlive (httpRequestConstructor text)), .resetLength _, rfl,
      fun _ _ => rfl, rfl⟩
  case resetLength keepAlive =>
    cases taken
    refine ⟨input false false, .clearBuffer keepAlive, rfl, others _, ?_⟩
    refine slotState_of_conn (Function.update_self _ _ _) ?_
    rfl
  case clearBuffer keepAlive =>
    cases taken
    refine ⟨input false false, .checkActive keepAlive, rfl, others _, ?_⟩
    refine slotState_of_conn (Function.update_self _ _ _) ?_
    rfl
  case checkActive keepAlive =>
    cases taken
    refine ⟨input false false, _, rfl, fun _ _ => rfl, ?_⟩
    rw [resting_of_ne (by split_ifs <;> simp)]
    rfl
  case stamp =>
    cases taken
    refine ⟨input false false, .release, rfl, others _, ?_⟩
    refine slotState_of_conn (Function.update_self _ _ _) ?_
    rfl
  case release =>
    cases taken
    refine ⟨input false false, .done, rfl, others _, ?_⟩
    refine slotState_of_conn (Function.update_self _ _ _) ?_
    rfl
  case close =>
    cases taken
    exact ⟨input false false, .deactivate, rfl, fun _ _ => rfl, rfl⟩
  case deactivate =>
    cases taken
    refine ⟨input false false, .done, rfl, others _, ?_⟩
    refine slotState_of_conn (Function.update_self _ _ _) ?_
    rfl
  case done => cases taken

variable [Fintype Worker]

/-- A step of the server leaves a slot as it is or is a step of the slot. -/
theorem Owned.slot_step (owned : state.Owned serverFd) (delivers : state.pool.Delivers)
    (sound : state.pool.LockSound) {label : ServerLabel Worker}
    (taken : (serverSystem Worker routes serverFd).step label state = some after)
    (works : after.WorkedAt slot placeAfter) :
    (state.WorkedAt slot placeAfter ∧
        after.slotState slot placeAfter = state.slotState slot placeAfter) ∨
      ∃ place input, state.WorkedAt slot place ∧
        (state.slotState slot place).step input = some (after.slotState slot placeAfter) := by
  cases label with
  | reactor input =>
      have buffer := buffer_reactorStep taken slot
      refine Or.inl ⟨?_, slotState_eq buffer _⟩
      apply workedAt_of_workers _ works
      rcases reactorStep_pool taken with same | ⟨added, isAdded⟩
      · rw [same]
      · rw [(ThreadPool.addWork_cases isAdded).2, ThreadPool.workers_moveAdder]
  | task worker arrival =>
      rcases taskStep_pool taken with ⟨task, place, -, at_, -⟩
      rcases slotState_taskStep at_ taken with ⟨input, placeAfter', pool, others, stepped⟩
      have working : place ≠ .done := by
        rintro rfl
        cases stepped
      rcases owned.workedAt_taskMove at_ working pool works with ⟨rfl, rfl⟩ | ⟨differs, before⟩
      · exact Or.inr ⟨place, input, Or.inl ⟨worker, task, at_, rfl, working⟩, stepped⟩
      · exact Or.inl ⟨before, slotState_eq (by rw [others slot differs]) _⟩
  | finishWork worker =>
      rcases finishWork_cases taken with ⟨idle, rfl⟩
      exact Or.inl ⟨workedAt_moveIdle idle rfl works, rfl⟩
  | worker worker =>
      rcases Option.map_eq_some_iff.mp taken with ⟨pool, moved, rfl⟩
      exact Or.inl ⟨owned.workedAt_workerStep delivers sound moved works, rfl⟩
  | interrupt worker =>
      rcases Option.map_eq_some_iff.mp taken with ⟨pool, moved, rfl⟩
      rcases ThreadPool.interrupt_cases moved with ⟨at_, rfl⟩
      exact Or.inl ⟨workedAt_moveIdle (by rw [at_]; rfl) rfl works, rfl⟩
  | addWork newNode =>
      rcases Option.map_eq_some_iff.mp taken with ⟨pool, moved, rfl⟩
      rcases ThreadPool.adderStep_handover delivers moved with ⟨-, -, workers, -⟩
      exact Or.inl ⟨workedAt_of_workers workers works, rfl⟩

/-- In every run of the server each slot goes through a history of its own. -/
theorem slotState_reachable (reached : (serverSystem Worker routes serverFd).Reachable state)
    (works : state.WorkedAt slot place) : slotSystem.Reachable (state.slotState slot place) := by
  refine @Transition.System.ReachableWhere.invariant _ _ _ _
    (fun state => state.Owned serverFd ∧ state.pool.Delivers ∧ state.pool.LockSound)
    (fun state => ∀ place, state.WorkedAt slot place →
      slotSystem.Reachable (state.slotState slot place)) ?_ ?_ ?_ state reached place works
  · intro state reached
    exact ⟨owned_of_reachable reached, ThreadPool.delivers_of_reachable (pool_reachable reached),
      ThreadPool.lockSound_of_reachable (pool_reachable reached)⟩
  · rintro state ⟨count, -, rfl⟩ place works
    rcases works with ⟨worker, task, at_, -, -⟩ | ⟨rfl, -⟩
    · cases at_
    · exact .start rfl
  · rintro state label after ⟨owned, delivers, sound⟩ history - taken place works
    rcases owned.slot_step delivers sound taken works with ⟨before, same⟩ |
      ⟨placeBefore, input, before, stepped⟩
    · rw [same]
      exact history place before
    · exact .next (history placeBefore before) trivial stepped

/-- What `recv` may return fits the buffer, and so does the length that counts it. -/
def Unblocked (state : ServerState Worker) (slot : Slot) : Prop :=
  ∀ worker task, task.conn = slot →
    (∀ piece, state.pool.workers worker = .work (some task) .recv →
      piece.length ≤ recvLength (state.conns slot).readLength →
        ((state.conns slot).store piece).isSome) ∧
    ∀ bytesRead, state.pool.workers worker = .work (some task) (.advance bytesRead) →
      ((state.conns slot).advance bytesRead).isSome

/--
In every reachable state of the server each slot is in a state that its history
leads to and that is safe, and no bound in the type of the buffer stops a task.
-/
theorem buffers_safe (reached : (serverSystem Worker routes serverFd).Reachable state)
    (slot : Slot) :
    (∀ place, state.WorkedAt slot place →
      slotSystem.Reachable (state.slotState slot place) ∧ (state.slotState slot place).Safe) ∧
      state.Unblocked slot := by
  have safe : ∀ place, state.WorkedAt slot place →
      slotSystem.Reachable (state.slotState slot place) ∧ (state.slotState slot place).Safe := by
    intro place works
    have history := slotState_reachable reached works
    exact ⟨history, (bounded_of_reachable history).safe⟩
  refine ⟨safe, ?_⟩
  rintro worker task rfl
  constructor
  · intro piece at_ asked
    rw [room_eq] at asked
    rw [ReadBuffer.store, dif_pos asked]
    rfl
  · intro bytesRead at_
    have works : state.WorkedAt task.conn (.advance bytesRead) :=
      Or.inl ⟨worker, task, at_, rfl, by simp⟩
    have counted := ((safe _ works).2.counted bytesRead rfl).2
    have inside : (state.conns task.conn).readLength + bytesRead < bufferSize := by
      change ((state.conns task.conn).readLength : ℤ) + bytesRead ≤ 8191 at counted
      rw [bufferSize]
      omega
    rw [ReadBuffer.advance, dif_pos inside]
    rfl

/-- The bytes of an earlier connection are counted too. -/
theorem reusedSlot_safe :
    ∃ state, (serverSystem Unit dictionaryConstructor 3).run
        (reuseRun (bytes "A") (bytes "B\r\n\r\n") 6) (serverStart 3 0) = some state ∧
      (state.slotState 0 (.handle (bytes "AB\r\n\r\n"))).readLength = 6 ∧
      (state.slotState 0 (.handle (bytes "AB\r\n\r\n"))).Safe ∧ state.Unblocked 0 := by
  have initially : (serverSystem Unit dictionaryConstructor 3).initial (serverStart 3 0) :=
    ⟨0, by decide, rfl⟩
  have evaluated : ((serverSystem Unit dictionaryConstructor 3).run
      (reuseRun (bytes "A") (bytes "B\r\n\r\n") 6) (serverStart 3 0)).map
      (fun state => (state.pool.workers (), (state.conns 0).readLength)) =
      some (.work (some ⟨5, 0, 1⟩) (.handle (bytes "AB\r\n\r\n")), 6) := by decide +kernel
  rcases Option.map_eq_some_iff.mp evaluated with ⟨state, ran, values⟩
  have reached : (serverSystem Unit dictionaryConstructor 3).Reachable state :=
    Transition.System.Reachable.run (.start initially) ran
  have works : state.WorkedAt 0 (.handle (bytes "AB\r\n\r\n")) :=
    Or.inl ⟨(), _, congrArg Prod.fst values, rfl, by simp⟩
  have length : (state.conns 0).readLength = 6 := congrArg Prod.snd values
  have safe := buffers_safe reached 0
  exact ⟨state, ran, congrArg Nat.cast length, (safe.1 _ works).2, safe.2⟩

end ServerState

end LetUsConnect
