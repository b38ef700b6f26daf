import LetUsConnect.Server.ReactorMoves

/-!
# Isolation of connections

A slot keeps its buffer when its connection ends. As long as no connection ends
amid a request, the requests of each one are computed from the pieces received on
it alone, whatever its slot was used for before. The server does not see to that:
the last section has a run in which a connection is served a request that begins
with a byte of the previous one.
-/

namespace LetUsConnect

open CString Threads

/-! ## The requests of a connection alone -/

/-- The bytes not yet dispatched and the requests dispatched. -/
structure Replay where
  rest : Bytes
  requests : List Bytes

/-- A task that receives a piece. -/
def Replay.receive (before : Replay) (piece : Bytes) : Replay :=
  let received := before.rest ++ piece
  if requestComplete (cstr received) received.length then
    ⟨[], before.requests ++ [cstr received]⟩
  else ⟨received, before.requests⟩

/-- What an empty slot makes of the pieces it receives. -/
def replay (pieces : List Bytes) : Replay := pieces.foldl Replay.receive ⟨[], []⟩

theorem replay_append_singleton (pieces : List Bytes) (piece : Bytes) :
    replay (pieces ++ [piece]) = (replay pieces).receive piece := by
  rw [replay, List.foldl_append]
  rfl

/-- Requests and rest are cut out of the bytes received. -/
theorem replay_ownBytes (pieces : List Bytes) :
    (replay pieces).rest <:+ pieces.flatten ∧
      ∀ text ∈ (replay pieces).requests, text <:+: pieces.flatten := by
  induction pieces using List.reverseRecOn with
  | nil => exact ⟨List.suffix_rfl, nofun⟩
  | append_singleton pieces piece ih =>
      rcases ih with ⟨⟨front, suffix⟩, isInfix⟩
      have flatten : (pieces ++ [piece]).flatten = pieces.flatten ++ piece := by simp
      have received : (replay pieces).rest ++ piece <:+ pieces.flatten ++ piece := by
        refine ⟨front, ?_⟩
        rw [← List.append_assoc, suffix]
      have kept : ∀ text ∈ (replay pieces).requests, text <:+: pieces.flatten ++ piece := by
        intro text member
        exact (isInfix text member).trans (List.prefix_append _ _).isInfix
      rw [replay_append_singleton, Replay.receive, flatten]
      split_ifs
      · refine ⟨List.nil_suffix, ?_⟩
        intro text member
        rcases List.mem_append.mp member with member | isLast
        · exact kept text member
        · rw [List.mem_singleton.mp isLast]
          exact (cstr_isPrefix _).isInfix.trans received.isInfix
      · exact ⟨received, kept⟩

/-! ## The stages of a slot -/

/-- The state of a slot's buffer when a task is at a place, by the pieces received so far. -/
def Stage (place : TaskPlace) (buffer : ReadBuffer) (heard dispatched : List Bytes) : Prop :=
  match place with
  | .advance bytesRead => ∃ before piece, heard = before ++ [piece] ∧ bytesRead = piece.length ∧
      buffer.readBuffer.take (buffer.readLength + bytesRead) = (replay before).rest ++ piece ∧
      dispatched = (replay before).requests
  | .terminate => ∃ before piece, heard = before ++ [piece] ∧
      buffer.pending = (replay before).rest ++ piece ∧ dispatched = (replay before).requests
  | .frame => ∃ before piece, heard = before ++ [piece] ∧
      buffer.pending = (replay before).rest ++ piece ∧ buffer.text = cstr buffer.pending ∧
      dispatched = (replay before).requests
  | .construct => ∃ before piece, heard = before ++ [piece] ∧
      buffer.pending = (replay before).rest ++ piece ∧ buffer.text = cstr buffer.pending ∧
      requestComplete buffer.text buffer.readLength ∧ dispatched = (replay before).requests
  | .handle _ | .resetLength _ =>
      (replay heard).rest = [] ∧ dispatched = (replay heard).requests
  | .clearBuffer _ => (replay heard).rest = [] ∧ buffer.readLength = 0 ∧
      dispatched = (replay heard).requests
  | _ => buffer.pending = (replay heard).rest ∧ dispatched = (replay heard).requests

/-- The places between the `recv` of a piece and the dispatch of a request it completes. -/
def TaskPlace.receiving : TaskPlace → Bool
  | .advance _ | .terminate | .frame | .construct => true
  | _ => false

section Stage

variable {buffer after : ReadBuffer} {heard dispatched : List Bytes}

theorem Stage.store {piece : Bytes} (stage : Stage .recv buffer heard dispatched)
    (stored : buffer.store piece = some after) :
    Stage (.advance piece.length) after (heard ++ [piece]) dispatched := by
  refine ⟨heard, piece, rfl, rfl, ?_, stage.2⟩
  rw [ReadBuffer.store] at stored
  split_ifs at stored
  cases stored
  have inside : buffer.readLength ≤ buffer.readBuffer.length := by
    rw [buffer.size_eq]
    exact buffer.readLength_lt.le
  rw [← stage.1]
  exact take_overwrite inside

theorem Stage.advance {bytesRead : ℕ} (stage : Stage (.advance bytesRead) buffer heard dispatched)
    (advanced : buffer.advance bytesRead = some after) :
    Stage .terminate after heard dispatched := by
  rcases stage with ⟨before, piece, isHeard, -, bytes, isDispatched⟩
  rw [ReadBuffer.advance] at advanced
  split_ifs at advanced
  cases advanced
  exact ⟨before, piece, isHeard, bytes, isDispatched⟩

theorem Stage.terminate (stage : Stage .terminate buffer heard dispatched) :
    Stage .frame buffer.terminate heard dispatched := by
  rcases stage with ⟨before, piece, isHeard, bytes, isDispatched⟩
  refine ⟨before, piece, isHeard, ?_, ?_, isDispatched⟩
  · rw [ReadBuffer.pending_terminate, bytes]
  · rw [ReadBuffer.text_terminate, ReadBuffer.pending_terminate]

theorem Stage.frame (stage : Stage .frame buffer heard dispatched) :
    Stage (if requestComplete buffer.text buffer.readLength then .construct else .stamp) buffer
      heard dispatched := by
  rcases stage with ⟨before, piece, isHeard, bytes, text, isDispatched⟩
  split_ifs with complete
  · exact ⟨before, piece, isHeard, bytes, text, complete, isDispatched⟩
  · have incomplete : ¬ requestComplete (cstr ((replay before).rest ++ piece))
        ((replay before).rest ++ piece).length := by
      rw [← bytes, ← text, buffer.length_pending]
      exact complete
    have replayed : replay heard = ⟨(replay before).rest ++ piece, (replay before).requests⟩ := by
      rw [isHeard, replay_append_singleton, Replay.receive, if_neg incomplete]
    refine ⟨?_, ?_⟩
    · rw [replayed, bytes]
    · rw [replayed, isDispatched]

theorem Stage.construct (stage : Stage .construct buffer heard dispatched) :
    Stage (.handle buffer.text) buffer heard (dispatched ++ [buffer.text]) := by
  rcases stage with ⟨before, piece, isHeard, bytes, text, complete, isDispatched⟩
  have isComplete : requestComplete (cstr ((replay before).rest ++ piece))
      ((replay before).rest ++ piece).length := by
    rw [← bytes, ← text, buffer.length_pending]
    exact complete
  have replayed : replay heard = ⟨[], (replay before).requests ++ [buffer.text]⟩ := by
    rw [isHeard, replay_append_singleton, Replay.receive, if_pos isComplete, text, bytes]
  refine ⟨?_, ?_⟩
  · rw [replayed]
  · rw [replayed, isDispatched]

theorem Stage.resetLength {keepAlive : Bool}
    (stage : Stage (.resetLength keepAlive) buffer heard dispatched) :
    Stage (.clearBuffer keepAlive) buffer.resetLength heard dispatched :=
  ⟨stage.1, rfl, stage.2⟩

theorem Stage.clear {keepAlive : Bool}
    (stage : Stage (.clearBuffer keepAlive) buffer heard dispatched) :
    Stage (.checkActive keepAlive) buffer.clear heard dispatched := by
  rcases stage with ⟨nothing, zero, isDispatched⟩
  refine ⟨?_, isDispatched⟩
  rw [nothing, ReadBuffer.pending]
  change List.take buffer.readLength _ = []
  rw [zero, List.take_zero]

/-- At any stage the requests dispatched are the first of the replay, outside `receiving` all. -/
theorem Stage.requests {place : TaskPlace} (stage : Stage place buffer heard dispatched) :
    dispatched <+: (replay heard).requests ∧
      (place.receiving = false → dispatched = (replay heard).requests) := by
  have ofReceiving : ∀ before piece, heard = before ++ [piece] →
      dispatched = (replay before).requests → dispatched <+: (replay heard).requests := by
    rintro before piece rfl rfl
    rw [replay_append_singleton, Replay.receive]
    split_ifs
    · exact List.prefix_append _ _
    · exact List.prefix_rfl
  have ofAll : dispatched = (replay heard).requests → dispatched <+: (replay heard).requests ∧
      (place.receiving = false → dispatched = (replay heard).requests) :=
    fun isDispatched => ⟨isDispatched ▸ List.prefix_rfl, fun _ => isDispatched⟩
  cases place
  case advance =>
    rcases stage with ⟨before, piece, isHeard, -, -, isDispatched⟩
    exact ⟨ofReceiving before piece isHeard isDispatched, nofun⟩
  case terminate =>
    rcases stage with ⟨before, piece, isHeard, -, isDispatched⟩
    exact ⟨ofReceiving before piece isHeard isDispatched, nofun⟩
  case frame =>
    rcases stage with ⟨before, piece, isHeard, -, -, isDispatched⟩
    exact ⟨ofReceiving before piece isHeard isDispatched, nofun⟩
  case construct =>
    rcases stage with ⟨before, piece, isHeard, -, -, -, isDispatched⟩
    exact ⟨ofReceiving before piece isHeard isDispatched, nofun⟩
  case clearBuffer => exact ofAll stage.2.2
  all_goals exact ofAll stage.2

theorem Stage.empty (stage : Stage .recv buffer heard dispatched)
    (complete : (replay heard).rest = []) : buffer.readLength = 0 := by
  rw [← buffer.length_pending, stage.1, complete]
  rfl

theorem stage_of_empty (empty : buffer.readLength = 0) : Stage .recv buffer [] [] := by
  refine ⟨?_, rfl⟩
  rw [ReadBuffer.pending, empty, List.take_zero]
  rfl

end Stage

/-- The connection the reactor has accepted and not yet given a slot. -/
def Knowledge.newcomer : Knowledge → Option ℕ
  | .accepted _ connection | .unclaimed _ connection _ | .writing _ connection _ => some connection
  | _ => none

theorem Knowledge.newcomer_eq (knowledge : Knowledge) :
    knowledge.newcomer = knowledge.arrival.map Prod.snd := by
  cases knowledge <;> rfl

theorem Knowledge.newcomer_congr {knowledge before : Knowledge}
    (same : knowledge.arrival = before.arrival) : knowledge.newcomer = before.newcomer := by
  rw [newcomer_eq, newcomer_eq, same]

theorem Knowledge.newcomer_of_nobody {knowledge : Knowledge} (nobody : knowledge.arrival = none) :
    knowledge.newcomer = none := by
  rw [newcomer_eq, nobody, Option.map_none]

theorem Knowledge.no_newcomer {knowledge : Knowledge} (nobody : knowledge.newcomer = none)
    {connection : ℕ} {goal : Prop} (isNewcomer : knowledge.newcomer = some connection) : goal := by
  rw [nobody] at isNewcomer
  cases isNewcomer

namespace ServerState

variable {Worker : Type} {state after : ServerState Worker}
  {serverFd : ℕ} {slot : Slot} {worker : Worker} {task : ClientTask} {place placeAfter : TaskPlace}

/-- Where the work for a slot stands; a slot no worker works for is about to receive. -/
def WorkedAt (state : ServerState Worker) (slot : Slot) (place : TaskPlace) : Prop :=
  (∃ worker task, state.pool.workers worker = .work (some task) place ∧ task.conn = slot ∧
      place ≠ .done) ∨
    place = .recv ∧ ∀ worker task other, state.pool.workers worker = .work (some task) other →
      task.conn = slot → other = .done

/-- The invariant of the runs that give up every slot with an empty buffer. -/
structure Separate (state : ServerState Worker) : Prop where
  clean : ∀ slot, (state.conns slot).isActive = false → (state.conns slot).readLength = 0
  unheard : ∀ connection, state.accepted ≤ connection → state.heard connection = []
  silent : ∀ connection, state.reactor.knows.newcomer = some connection →
    state.heard connection = []
  staged : ∀ slot, (state.conns slot).isActive → ∀ place, state.WorkedAt slot place →
    Stage place (state.conns slot).toReadBuffer (state.heard (state.occupant slot))
      (state.dispatched (state.occupant slot))
  finished : ∀ connection,
    (∀ slot, (state.conns slot).isActive → state.occupant slot ≠ connection) →
      state.dispatched connection = (replay (state.heard connection)).requests

theorem separate_start (serverFd count : ℕ) :
    Separate (serverStart serverFd count : ServerState Worker) where
  clean := fun _ _ => rfl
  unheard := fun _ _ => rfl
  silent := fun _ _ => rfl
  staged := nofun
  finished := fun _ _ => rfl

/-! ## Steps that leave buffers and histories as they are -/

theorem Separate.of_frame (separate : state.Separate)
    (buffers : ∀ slot, (after.conns slot).toReadBuffer = (state.conns slot).toReadBuffer)
    (isActive : ∀ slot, (after.conns slot).isActive = (state.conns slot).isActive)
    (occupant : ∀ slot, (state.conns slot).isActive → after.occupant slot = state.occupant slot)
    (heard : after.heard = state.heard) (dispatched : after.dispatched = state.dispatched)
    (accepted : state.accepted ≤ after.accepted)
    (newcomer : ∀ connection, after.reactor.knows.newcomer = some connection →
      state.reactor.knows.newcomer = some connection ∨ state.heard connection = [])
    (workedAt : ∀ slot place, after.WorkedAt slot place → state.WorkedAt slot place) :
    after.Separate where
  clean := by
    intro slot unused
    rw [isActive] at unused
    rw [buffers]
    exact separate.clean slot unused
  unheard := by
    intro connection recent
    rw [heard]
    exact separate.unheard connection (accepted.trans recent)
  silent := by
    intro connection isNewcomer
    rw [heard]
    rcases newcomer connection isNewcomer with before | silent
    · exact separate.silent connection before
    · exact silent
  staged := by
    intro slot active place works
    rw [isActive] at active
    rw [buffers, occupant slot active, heard, dispatched]
    exact separate.staged slot active place (workedAt slot place works)
  finished := by
    intro connection apart
    rw [heard, dispatched]
    apply separate.finished
    intro slot active
    rw [← occupant slot active]
    exact apart slot (isActive slot ▸ active)

theorem workedAt_of_workers (workers : after.pool.workers = state.pool.workers)
    (works : after.WorkedAt slot place) : state.WorkedAt slot place := by
  rw [WorkedAt, workers] at works
  exact works

theorem Separate.ofPool (separate : state.Separate)
    {pool : ThreadPool ClientTask TaskPlace Worker Unit}
    (workedAt : ∀ slot place, WorkedAt { state with pool := pool } slot place →
      state.WorkedAt slot place) : Separate { state with pool := pool } :=
  separate.of_frame (fun _ => rfl) (fun _ => rfl) (fun _ _ => rfl) rfl rfl le_rfl
    (fun _ isNewcomer => Or.inl isNewcomer) workedAt

theorem Separate.reactorMove (separate : state.Separate)
    (buffers : ∀ slot, (after.conns slot).toReadBuffer = (state.conns slot).toReadBuffer)
    (isActive : ∀ slot, (after.conns slot).isActive = (state.conns slot).isActive)
    (occupant : ∀ slot, (state.conns slot).isActive → after.occupant slot = state.occupant slot)
    (heard : after.heard = state.heard) (dispatched : after.dispatched = state.dispatched)
    (accepted : state.accepted ≤ after.accepted)
    (workers : after.pool.workers = state.pool.workers)
    (newcomer : ∀ connection, after.reactor.knows.newcomer = some connection →
      state.reactor.knows.newcomer = some connection ∨ state.heard connection = []) :
    after.Separate :=
  separate.of_frame buffers isActive occupant heard dispatched accepted newcomer
    fun _ _ works => workedAt_of_workers workers works

theorem Separate.write (separate : state.Separate) {conn : ClientConnection} {place : ReactorPlace}
    (buffer : conn.toReadBuffer = (state.conns slot).toReadBuffer)
    (isActive : conn.isActive = (state.conns slot).isActive)
    (newcomer : ∀ connection, place.knows.newcomer = some connection →
      state.reactor.knows.newcomer = some connection) :
    Separate ((state.setConn slot conn).goto place) := by
  exact separate.reactorMove (see_update (·.toReadBuffer) buffer) (see_update (·.isActive) isActive)
    (fun _ _ => rfl) rfl rfl le_rfl rfl
    fun connection isNewcomer => Or.inl (newcomer connection isNewcomer)

theorem Separate.close (separate : state.Separate) {fd connection : ℕ} {place : ReactorPlace}
    (newcomer : place.knows.newcomer = none) :
    Separate ((state.closeFd fd connection).goto place) := by
  refine separate.reactorMove (fun _ => rfl) (fun _ => rfl) (fun _ _ => rfl) rfl rfl le_rfl rfl ?_
  intro other isNewcomer
  exact Knowledge.no_newcomer newcomer isNewcomer

theorem Separate.drop (separate : state.Separate)
    (stage : Stage .recv (state.conns slot).toReadBuffer (state.heard (state.occupant slot))
      (state.dispatched (state.occupant slot)))
    (complete : (replay (state.heard (state.occupant slot))).rest = [])
    (others : ∀ other, other ≠ slot → after.conns other = state.conns other)
    (here : after.conns slot = { state.conns slot with isActive := false })
    (occupant : after.occupant = state.occupant) (heard : after.heard = state.heard)
    (dispatched : after.dispatched = state.dispatched) (accepted : after.accepted = state.accepted)
    (newcomer : ∀ connection, after.reactor.knows.newcomer = some connection →
      state.reactor.knows.newcomer = some connection)
    (workedAt : ∀ other place, other ≠ slot → after.WorkedAt other place →
      state.WorkedAt other place) : after.Separate where
  clean := by
    intro other unused
    by_cases isSlot : other = slot
    · rw [isSlot, here]
      exact stage.empty complete
    · rw [others other isSlot] at unused ⊢
      exact separate.clean other unused
  unheard := by
    rw [heard, accepted]
    exact separate.unheard
  silent := by
    intro connection isNewcomer
    rw [heard]
    exact separate.silent connection (newcomer connection isNewcomer)
  staged := by
    intro other active place works
    have differs : other ≠ slot := by
      rintro rfl
      rw [here] at active
      cases active
    rw [others other differs] at active ⊢
    rw [occupant, heard, dispatched]
    exact separate.staged other active place (workedAt other place differs works)
  finished := by
    intro connection apart
    rw [heard, dispatched]
    by_cases was : state.occupant slot = connection
    · rw [← was]
      exact stage.2
    · apply separate.finished
      intro other active same
      by_cases isSlot : other = slot
      · exact was (isSlot ▸ same)
      · refine apart other ?_ ?_
        · rw [others other isSlot]
          exact active
        · rw [occupant]
          exact same

variable [Fintype Worker]

theorem exists_workedAt (state : ServerState Worker) (slot : Slot) :
    ∃ place, state.WorkedAt slot place := by
  by_cases works : ∃ worker task place, state.pool.workers worker = .work (some task) place ∧
      task.conn = slot ∧ place ≠ .done
  · rcases works with ⟨worker, task, place, at_, isSlot, working⟩
    exact ⟨place, Or.inl ⟨worker, task, at_, isSlot, working⟩⟩
  · refine ⟨.recv, Or.inr ⟨rfl, ?_⟩⟩
    intro worker task other at_ isSlot
    by_contra working
    exact works ⟨worker, task, other, at_, isSlot, working⟩

variable [DecidableEq Worker]

omit [Fintype Worker] in
theorem workedAt_moveWorker {place' : WorkerPlace ClientTask TaskPlace}
    (workers : after.pool.workers = Function.update state.pool.workers worker place')
    (before : ∀ task place, state.pool.workers worker = .work (some task) place → place = .done)
    (afterwards : ∀ task place, place' = .work (some task) place → place = .recv ∧
      ∀ other task' place, state.pool.workers other = .work (some task') place →
        task'.conn = task.conn → place = .done)
    (works : after.WorkedAt slot place) : state.WorkedAt slot place := by
  rw [WorkedAt, workers] at works
  rcases works with ⟨other, task, at_, isSlot, working⟩ | ⟨rfl, nobody⟩
  · by_cases same : other = worker
    · subst same
      rw [Function.update_self] at at_
      rcases afterwards task place at_ with ⟨rfl, nobody⟩
      exact Or.inr ⟨rfl, fun other task' place' at' isSlot' =>
        nobody other task' place' at' (isSlot'.trans isSlot.symm)⟩
    · rw [Function.update_of_ne same] at at_
      exact Or.inl ⟨other, task, at_, isSlot, working⟩
  · refine Or.inr ⟨rfl, ?_⟩
    intro other task' place at_ isSlot
    by_cases same : other = worker
    · subst same
      exact before task' place at_
    · exact nobody other task' place (by rw [Function.update_of_ne same, at_]) isSlot

theorem Owned.workedAt_workerStep (owned : state.Owned serverFd) (delivers : state.pool.Delivers)
    (sound : state.pool.LockSound) {pool : ThreadPool ClientTask TaskPlace Worker Unit}
    (taken : state.pool.workerStep worker = some pool)
    (works : WorkedAt { state with pool := pool } slot place) : state.WorkedAt slot place := by
  rcases ThreadPool.workerStep_handover delivers sound taken with
    ⟨place', workers, -, idle, begins, moved⟩
  refine workedAt_moveWorker workers ?_ ?_ works
  · intro task place at_
    rw [at_] at idle
    cases idle
  · rintro task place rfl
    refine ⟨begins place rfl, ?_⟩
    intro other task' place at_ isSlot
    by_contra working
    rcases moved with ⟨sameHeld, -⟩ | ⟨_, -, impossible, -⟩
    · have hand : inHand (state.pool.workers worker) = some task := by
        rw [inHand_eq_held (by simp [idle]), ← sameHeld]
        rfl
      have same := (owned.handsOn hand).unique hand (inHand_of_work at_ working) isSlot
      rw [← same, at_] at idle
      cases idle
    · cases impossible

omit [Fintype Worker] in
/-- A worker with nothing in its hand goes on with nothing in its hand. -/
theorem workedAt_moveIdle {placeAfter : WorkerPlace ClientTask TaskPlace}
    (before : inHand (state.pool.workers worker) = none) (afterwards : placeAfter.body = none)
    (works : WorkedAt { state with pool := state.pool.moveWorker worker placeAfter } slot place) :
    state.WorkedAt slot place := by
  refine workedAt_moveWorker rfl ?_ ?_ works
  · exact fun task stage at_ => done_of_inHand_eq_none at_ before
  · rintro task stage rfl
    cases afterwards

theorem Separate.workerStep (separate : state.Separate) (owned : state.Owned serverFd)
    (delivers : state.pool.Delivers) (sound : state.pool.LockSound)
    {pool : ThreadPool ClientTask TaskPlace Worker Unit}
    (taken : state.pool.workerStep worker = some pool) : Separate { state with pool := pool } :=
  separate.ofPool fun _ _ => owned.workedAt_workerStep delivers sound taken

omit [Fintype Worker] in
theorem Separate.moveIdle (separate : state.Separate) {place : WorkerPlace ClientTask TaskPlace}
    (before : inHand (state.pool.workers worker) = none) (afterwards : place.body = none) :
    Separate { state with pool := state.pool.moveWorker worker place } :=
  separate.ofPool fun _ _ => workedAt_moveIdle before afterwards

/-! ## Steps of a worker on its slot -/

omit [DecidableEq Worker] in
theorem Owned.held_of_newcomer (owned : state.Owned serverFd) {connection : ℕ}
    (isNewcomer : state.reactor.knows.newcomer = some connection) :
    ∃ fd, state.Held fd connection := by
  have knowledge := owned.knowledge
  generalize state.reactor.knows = known at isNewcomer knowledge
  cases known <;> cases isNewcomer
  · exact ⟨_, knowledge⟩
  · exact ⟨_, knowledge.1⟩
  · exact ⟨_, knowledge.1⟩

/-- The stage of a slot once its worker is at a place. -/
def resting (place : TaskPlace) : TaskPlace := if place = .done then .recv else place

/-- A move of a worker changes where the work stands for its own slot only. -/
theorem Owned.workedAt_taskMove (owned : state.Owned serverFd)
    (at_ : state.pool.workers worker = .work (some task) place) (working : place ≠ .done)
    (pool : after.pool = state.pool.moveWorker worker (.work (some task) placeAfter))
    {stagePlace : TaskPlace} (works : after.WorkedAt slot stagePlace) :
    slot = task.conn ∧ stagePlace = resting placeAfter ∨
      slot ≠ task.conn ∧ state.WorkedAt slot stagePlace := by
  have hand := inHand_of_work at_ working
  have handsOn := owned.handsOn hand
  rw [WorkedAt, pool, ThreadPool.workers_moveWorker] at works
  by_cases isSlot : slot = task.conn
  · refine Or.inl ⟨isSlot, ?_⟩
    rcases works with ⟨other, task', otherAt, isSlot', otherWorks⟩ | ⟨rfl, nobody⟩
    · by_cases same : other = worker
      · rw [same, Function.update_self] at otherAt
        cases otherAt
        rw [resting, if_neg otherWorks]
      · rw [Function.update_of_ne same] at otherAt
        have otherHand := inHand_of_work otherAt otherWorks
        exact absurd (handsOn.unique hand otherHand (isSlot'.trans isSlot)) same
    · have isDone := nobody worker task placeAfter (Function.update_self _ _ _) isSlot.symm
      rw [resting, if_pos isDone]
  · refine Or.inr ⟨isSlot, ?_⟩
    rcases works with ⟨other, task', otherAt, isSlot', otherWorks⟩ | ⟨rfl, nobody⟩
    · by_cases same : other = worker
      · rw [same, Function.update_self] at otherAt
        cases otherAt
        exact absurd isSlot'.symm isSlot
      · rw [Function.update_of_ne same] at otherAt
        exact Or.inl ⟨other, task', otherAt, isSlot', otherWorks⟩
    · refine Or.inr ⟨rfl, ?_⟩
      intro other task' place' otherAt isSlot'
      by_cases same : other = worker
      · rw [same, at_] at otherAt
        cases otherAt
        exact absurd isSlot'.symm isSlot
      · exact nobody other task' place' (by rw [Function.update_of_ne same, otherAt]) isSlot'

/-- A worker takes its slot from one stage to the next. -/
theorem Separate.taskMove (separate : state.Separate) (owned : state.Owned serverFd)
    (at_ : state.pool.workers worker = .work (some task) place) (working : place ≠ .done)
    (pool : after.pool = state.pool.moveWorker worker (.work (some task) placeAfter))
    (reactor : after.reactor = state.reactor) (accepted : after.accepted = state.accepted)
    (occupant : after.occupant = state.occupant)
    (others : ∀ slot, slot ≠ task.conn → after.conns slot = state.conns slot)
    (isActive : (after.conns task.conn).isActive = (state.conns task.conn).isActive)
    (heard : ∀ connection, connection ≠ task.connection →
      after.heard connection = state.heard connection)
    (dispatched : ∀ connection, connection ≠ task.connection →
      after.dispatched connection = state.dispatched connection)
    (stage : Stage place (state.conns task.conn).toReadBuffer (state.heard task.connection)
        (state.dispatched task.connection) →
      Stage (resting placeAfter) (after.conns task.conn).toReadBuffer
        (after.heard task.connection) (after.dispatched task.connection)) :
    after.Separate := by
  have hand := inHand_of_work at_ working
  have handsOn := owned.handsOn hand
  have occupied := (owned.tasks task (Or.inr (Or.inr ⟨worker, hand⟩))).2
  have sameActive : ∀ slot, (after.conns slot).isActive = (state.conns slot).isActive := by
    intro slot
    by_cases isSlot : slot = task.conn
    · rw [isSlot, isActive]
    · rw [others slot isSlot]
  exact
    { clean := by
        intro slot unused
        have isOther : slot ≠ task.conn := by
          rintro rfl
          rw [isActive, handsOn.isActive] at unused
          cases unused
        rw [others slot isOther] at unused ⊢
        exact separate.clean slot unused
      unheard := by
        intro connection recent
        rw [accepted] at recent
        have old := owned.ledger.old task.conn handsOn.isActive
        rw [heard connection (by omega)]
        exact separate.unheard connection recent
      silent := by
        intro connection isNewcomer
        rw [reactor] at isNewcomer
        rcases owned.held_of_newcomer isNewcomer with ⟨fd, held⟩
        have differs : connection ≠ task.connection := by
          rintro rfl
          exact held.apart task.conn handsOn.isActive occupied
        rw [heard connection differs]
        exact separate.silent connection isNewcomer
      staged := by
        intro slot active stagePlace works
        rw [occupant]
        rw [sameActive] at active
        rcases owned.workedAt_taskMove at_ working pool works with
          ⟨rfl, rfl⟩ | ⟨isSlot, worksBefore⟩
        · have before := separate.staged task.conn active place
            (Or.inl ⟨worker, task, at_, rfl, working⟩)
          rw [occupied] at before ⊢
          exact stage before
        · have otherOccupant : state.occupant slot ≠ task.connection := by
            intro same
            rw [← occupied] at same
            exact isSlot (owned.ledger.distinct slot task.conn active handsOn.isActive same)
          rw [others slot isSlot, heard _ otherOccupant, dispatched _ otherOccupant]
          exact separate.staged slot active stagePlace worksBefore
      finished := by
        intro connection apart
        have differs : connection ≠ task.connection := by
          rintro rfl
          refine apart task.conn ?_ ?_
          · rw [isActive]
            exact handsOn.isActive
          · rw [occupant]
            exact occupied
        rw [heard connection differs, dispatched connection differs]
        apply separate.finished
        intro slot active
        rw [← occupant]
        exact apart slot (by rw [sameActive]; exact active) }

theorem Separate.proceed (separate : state.Separate) (owned : state.Owned serverFd)
    (at_ : state.pool.workers worker = .work (some task) place) (working : place ≠ .done)
    (stage : Stage place (state.conns task.conn).toReadBuffer (state.heard task.connection)
        (state.dispatched task.connection) →
      Stage (resting placeAfter) (state.conns task.conn).toReadBuffer
        (state.heard task.connection) (state.dispatched task.connection)) :
    Separate (state.proceed worker task placeAfter) :=
  separate.taskMove owned at_ working rfl rfl rfl rfl (fun _ _ => rfl) rfl (fun _ _ => rfl)
    (fun _ _ => rfl) stage

theorem Separate.update (separate : state.Separate) (owned : state.Owned serverFd)
    (at_ : state.pool.workers worker = .work (some task) place) (working : place ≠ .done)
    {conn : ClientConnection} (isActive : conn.isActive = (state.conns task.conn).isActive)
    (stage : Stage place (state.conns task.conn).toReadBuffer (state.heard task.connection)
        (state.dispatched task.connection) →
      Stage (resting placeAfter) conn.toReadBuffer (state.heard task.connection)
        (state.dispatched task.connection)) :
    Separate ((state.setConn task.conn conn).proceed worker task placeAfter) := by
  have here : ((state.setConn task.conn conn).proceed worker task placeAfter).conns task.conn =
      conn := Function.update_self _ _ _
  refine separate.taskMove owned at_ working rfl rfl rfl rfl ?_ ?_ (fun _ _ => rfl)
    (fun _ _ => rfl) ?_
  · exact fun slot differs => Function.update_of_ne differs _ _
  · rw [here, isActive]
  · rw [here]
    exact stage

theorem Separate.recvStep (separate : state.Separate) (owned : state.Owned serverFd)
    {result : RecvResult} (at_ : state.pool.workers worker = .work (some task) .recv)
    (taken : state.recvStep worker task result = some after) : after.Separate := by
  have named : state.descriptors task.clientFd = some (.client task.connection) := by
    refine (owned.named_of_hand (inHand_of_work at_ (by simp)) ?_).1
    rw [at_]
    simp
  unfold ServerState.recvStep at taken
  rw [named] at taken
  cases result with
  | received piece =>
      cases piece with
      | nil => cases taken
      | cons byte piece =>
          rcases Option.map_eq_some_iff.mp taken with ⟨buffer, stored, isAfter⟩
          have here : after.conns task.conn =
              { state.conns task.conn with toReadBuffer := buffer } := by
            rw [← isAfter]
            exact Function.update_self _ _ _
          have heardHere : after.heard task.connection =
              state.heard task.connection ++ [byte :: piece] := by
            rw [← isAfter]
            exact Function.update_self _ _ _
          have pool : after.pool = state.pool.moveWorker worker
              (.work (some task) (.advance (byte :: piece).length)) := by
            rw [← isAfter]
            rfl
          refine separate.taskMove owned at_ (by simp) pool ?_ ?_ ?_ ?_ ?_ ?_ ?_ ?_
          · rw [← isAfter]
            rfl
          · rw [← isAfter]
            rfl
          · rw [← isAfter]
            rfl
          · intro slot differs
            rw [← isAfter]
            exact Function.update_of_ne differs _ _
          · rw [here]
          · intro connection differs
            rw [← isAfter]
            exact Function.update_of_ne differs _ _
          · intro connection _
            rw [← isAfter]
            rfl
          · intro stage
            have isDispatched : after.dispatched = state.dispatched := by
              rw [← isAfter]
              rfl
            rw [here, heardHere, isDispatched]
            exact stage.store stored
  | wouldBlock =>
      cases taken
      exact separate.proceed owned at_ (by simp) id
  | ended =>
      cases taken
      exact separate.proceed owned at_ (by simp) id
  | failed =>
      cases taken
      exact separate.proceed owned at_ (by simp) id

theorem Separate.deactivate (separate : state.Separate) (owned : state.Owned serverFd)
    (at_ : state.pool.workers worker = .work (some task) .deactivate)
    (complete : (replay (state.heard (state.occupant task.conn))).rest = []) :
    Separate ((state.setConn task.conn { state.conns task.conn with isActive := false }).proceed
      worker task .done) := by
  have hand := inHand_of_work at_ (by simp)
  have stage := separate.staged task.conn (owned.handsOn hand).isActive .deactivate
    (Or.inl ⟨worker, task, at_, rfl, (by simp)⟩)
  refine separate.drop stage complete ?_ ?_ rfl rfl rfl rfl (fun _ => id) ?_
  · exact fun other differs => Function.update_of_ne differs _ _
  · exact Function.update_self _ _ _
  · intro other place differs works
    rcases owned.workedAt_taskMove at_ (by simp) rfl works with ⟨isSlot, -⟩ | ⟨-, worksBefore⟩
    · exact absurd isSlot differs
    · exact worksBefore

theorem Separate.taskStep (separate : state.Separate) (owned : state.Owned serverFd)
    {routes : Dictionary RouteHandler} {arrival : Arrival}
    (complete : ∀ task, state.pool.workers worker = .work (some task) .deactivate →
      (replay (state.heard (state.occupant task.conn))).rest = [])
    (taken : state.taskStep routes worker arrival = some after) : after.Separate := by
  rw [ServerState.taskStep] at taken
  split at taken
  case h_2 => cases taken
  case h_1 task place at_ =>
    cases place <;> simp only at taken
    case recv => exact separate.recvStep owned at_ taken
    case advance bytesRead =>
      rcases Option.map_eq_some_iff.mp taken with ⟨buffer, advanced, rfl⟩
      exact separate.update owned at_ (by simp) rfl fun stage => stage.advance advanced
    case terminate =>
      cases taken
      exact separate.update owned at_ (by simp) rfl Stage.terminate
    case frame =>
      cases taken
      refine separate.proceed owned at_ (by simp) fun stage => ?_
      have next := stage.frame
      split_ifs at next ⊢ <;> exact next
    case construct =>
      cases taken
      refine separate.taskMove owned at_ (by simp) rfl rfl rfl rfl (fun _ _ => rfl) rfl
        (fun _ _ => rfl) (fun _ differs => Function.update_of_ne differs _ _) fun stage => ?_
      simp only [Function.update_self]
      exact stage.construct
    case handle text =>
      cases taken
      exact separate.taskMove owned at_ (by simp) rfl rfl rfl rfl (fun _ _ => rfl) rfl
        (fun _ _ => rfl) (fun _ _ => rfl) id
    case resetLength keepAlive =>
      cases taken
      exact separate.update owned at_ (by simp) rfl Stage.resetLength
    case clearBuffer keepAlive =>
      cases taken
      exact separate.update owned at_ (by simp) rfl Stage.clear
    case checkActive keepAlive =>
      cases taken
      refine separate.proceed owned at_ (by simp) fun stage => ?_
      split_ifs <;> exact stage
    case stamp =>
      cases taken
      exact separate.update owned at_ (by simp) rfl id
    case release =>
      cases taken
      exact separate.update owned at_ (by simp) rfl id
    case close =>
      cases taken
      exact separate.taskMove owned at_ (by simp) rfl rfl rfl rfl (fun _ _ => rfl) rfl
        (fun _ _ => rfl) (fun _ _ => rfl) id
    case deactivate =>
      cases taken
      exact separate.deactivate owned at_ (complete task at_)
    case done => cases taken

/-! ## Steps of the reactor -/

omit [DecidableEq Worker] in
theorem Owned.nobody_works (owned : state.Owned serverFd)
    (prepared : (state.owned slot).toNat = state.reactor.knows.preparing slot) (worker : Worker)
    (task : ClientTask) (place : TaskPlace)
    (at_ : state.pool.workers worker = .work (some task) place) (isSlot : task.conn = slot) :
    place = .done := by
  by_contra working
  have counted := le_total (handCount slot) state.pool.workers worker
  have one : handCount slot (state.pool.workers worker) = 1 := by
    rw [handCount, inHand_of_work at_ working, Option.elim_some, isSlot, oneFor_self]
  have flight := owned.flight slot
  rw [ServerState.inFlight] at flight
  omega

omit [DecidableEq Worker] in
theorem Separate.dropByReactor (separate : state.Separate) (owned : state.Owned serverFd)
    {place : ReactorPlace}
    (ofKnown : state.reactor.knows = .dropping slot ∨ state.reactor.knows = .expiring slot)
    (known : place.knows = .nothing)
    (complete : (replay (state.heard (state.occupant slot))).rest = []) :
    Separate ((state.setConn slot { state.conns slot with isActive := false }).goto place) := by
  have idleOrDropped : (state.conns slot).isActive ∧
      (state.owned slot).toNat = state.reactor.knows.preparing slot := by
    have knowledge := owned.knowledge
    rw [ServerState.owned]
    rcases ofKnown with known | known <;> rw [known] at knowledge ⊢
    · rw [knowledge.1, knowledge.2]
      exact ⟨rfl, (oneFor_self slot).symm⟩
    · rw [knowledge.1, knowledge.2]
      exact ⟨rfl, rfl⟩
  have stage := separate.staged slot idleOrDropped.1 .recv
    (Or.inr ⟨rfl, owned.nobody_works idleOrDropped.2⟩)
  refine separate.drop stage complete ?_ ?_ rfl rfl rfl rfl ?_ ?_
  · exact fun other differs => Function.update_of_ne differs _ _
  · exact Function.update_self _ _ _
  · intro connection isNewcomer
    change place.knows.newcomer = some connection at isNewcomer
    rw [known] at isNewcomer
    cases isNewcomer
  · exact fun other place _ works => workedAt_of_workers rfl works

omit [DecidableEq Worker] in
/-- A slot that comes into use has heard nothing. -/
theorem Separate.claimActive (separate : state.Separate) (owned : state.Owned serverFd)
    {fd connection : ℕ} (at_ : state.reactor = .claimActive fd connection slot) :
    Separate ((state.setConn slot { state.conns slot with isActive := true }).goto
      (.claimBusy fd connection slot)) := by
  have knowledge := owned.knowledge
  rw [at_] at knowledge
  rcases knowledge with ⟨held, unused, -, occupied⟩
  have prepared : (state.owned slot).toNat = state.reactor.knows.preparing slot := by
    rw [ServerState.owned, unused, at_]
    rfl
  have silent : state.heard connection = [] := by
    apply separate.silent
    rw [at_]
    rfl
  have undispatched : state.dispatched connection = [] := by
    rw [separate.finished connection held.apart, silent]
    rfl
  have writes := Writes.of_setConn state slot { state.conns slot with isActive := true }
    (.claimBusy fd connection slot)
  generalize (state.setConn slot { state.conns slot with isActive := true }).goto
    (.claimBusy fd connection slot) = after at writes
  exact
    { clean := by
        intro other otherUnused
        have differs : other ≠ slot := by
          rintro rfl
          rw [writes.here] at otherUnused
          cases otherUnused
        rw [writes.others differs] at otherUnused ⊢
        exact separate.clean other otherUnused
      unheard := by
        rw [writes.heard, writes.accepted]
        exact separate.unheard
      silent := by
        rw [writes.reactor]
        exact fun _ => Knowledge.no_newcomer rfl
      staged := by
        intro other active place works
        rw [writes.heard, writes.dispatched, writes.occupant]
        have before := workedAt_of_workers (congrArg _ writes.pool) works
        by_cases isSlot : other = slot
        · subst isSlot
          have atRecv : place = .recv := by
            rcases before with ⟨worker, task, working, isSlot, notDone⟩ | ⟨isRecv, -⟩
            · exact absurd (owned.nobody_works prepared worker task place working isSlot) notDone
            · exact isRecv
          rw [atRecv, writes.here, occupied, silent, undispatched]
          exact stage_of_empty (separate.clean other unused)
        · rw [writes.others isSlot] at active ⊢
          exact separate.staged other active place before
      finished := by
        intro other apart
        rw [writes.heard, writes.dispatched]
        apply separate.finished
        intro otherSlot active
        have differs : otherSlot ≠ slot := by
          rintro rfl
          rw [unused] at active
          cases active
        rw [← writes.occupant]
        exact apart otherSlot (by rw [writes.others differs]; exact active) }

omit [DecidableEq Worker] in
theorem Separate.reactorStep (separate : state.Separate) (owned : state.Owned serverFd)
    {input : ReactorInput}
    (complete : ∀ slot, state.reactor = .giveUpSlot slot ∨ state.reactor = .readyGiveUpSlot slot ∨
      (∃ now, state.reactor = .timeoutSlot now slot) →
        (replay (state.heard (state.occupant slot))).rest = [])
    (taken : state.reactorStep serverFd input = some after) : after.Separate := by
  cases reactorMove_of_step taken with
  | goes place readFds arrival =>
      refine separate.reactorMove (fun _ => rfl) (fun _ => rfl) (fun _ _ => rfl) rfl rfl le_rfl
        rfl ?_
      exact fun connection isNewcomer =>
        Or.inl ((Knowledge.newcomer_congr arrival).symm.trans isNewcomer)
  | handsOver added _ nobody =>
      refine separate.reactorMove (fun _ => rfl) (fun _ => rfl) (fun _ _ => rfl) rfl rfl le_rfl
        ?_ ?_
      · rw [(ThreadPool.addWork_cases added).2]
        rfl
      · exact fun _ => Knowledge.no_newcomer (Knowledge.newcomer_of_nobody nobody)
  | accepts =>
      refine separate.reactorMove (fun _ => rfl) (fun _ => rfl) (fun _ _ => rfl) rfl rfl
        (Nat.le_succ _) rfl ?_
      intro connection isNewcomer
      cases isNewcomer
      exact Or.inr (separate.unheard _ le_rfl)
  | @claimsFd fd connection slot at_ =>
      have knowledge := owned.knowledge
      rw [at_] at knowledge
      refine separate.reactorMove (see_update (·.toReadBuffer) rfl) (see_update (·.isActive) rfl) ?_
        rfl rfl le_rfl rfl ?_
      · intro other active
        have differs : other ≠ slot := by
          rintro rfl
          rw [knowledge.2] at active
          cases active
        exact Function.update_of_ne differs _ _
      · rw [at_]
        exact fun _ => Or.inl
  | claimsTime at_ =>
      refine separate.write rfl rfl ?_
      rw [at_]
      exact fun _ => id
  | claimsActive at_ => exact separate.claimActive owned at_
  | marks _ _ nobody =>
      exact separate.write rfl rfl fun _ =>
        Knowledge.no_newcomer (Knowledge.newcomer_of_nobody nobody)
  | givesUp at_ nothing =>
      refine separate.dropByReactor owned ?_ nothing (complete _ at_)
      rcases at_ with at_ | at_ | ⟨now, at_⟩ <;> rw [at_]
      · exact Or.inl rfl
      · exact Or.inl rfl
      · exact Or.inr rfl
  | rejects => exact separate.close rfl
  | closes _ _ _ _ nobody => exact separate.close (Knowledge.newcomer_of_nobody nobody)

/-! ## Runs that give up slots with empty buffers -/

/-- The slot whose `is_active` the step clears. -/
def givesUp (state : ServerState Worker) : ServerLabel Worker → Option Slot
  | .reactor _ =>
      match state.reactor with
      | .giveUpSlot slot | .readyGiveUpSlot slot | .timeoutSlot _ slot => some slot
      | _ => none
  | .task worker _ =>
      match state.pool.workers worker with
      | .work (some task) .deactivate => some task.conn
      | _ => none
  | _ => none

/-- A connection whose slot the step gives up has sent no incomplete request. -/
def GivesUpComplete (state : ServerState Worker) (label : ServerLabel Worker) : Prop :=
  ∀ slot ∈ state.givesUp label, (replay (state.heard (state.occupant slot))).rest = []

instance (state : ServerState Worker) (label : ServerLabel Worker) :
    Decidable (state.GivesUpComplete label) :=
  Option.decidableForallMem (state.givesUp label)

variable {routes : Dictionary RouteHandler}

theorem Separate.step (separate : state.Separate) (owned : state.Owned serverFd)
    (delivers : state.pool.Delivers) (sound : state.pool.LockSound) {label : ServerLabel Worker}
    (complete : state.GivesUpComplete label)
    (taken : (serverSystem Worker routes serverFd).step label state = some after) :
    after.Separate := by
  cases label with
  | reactor input =>
      refine separate.reactorStep owned ?_ taken
      rintro slot (at_ | at_ | ⟨now, at_⟩) <;> exact complete slot (by simp [givesUp, at_])
  | task worker arrival =>
      refine separate.taskStep owned ?_ taken
      intro task at_
      exact complete task.conn (by simp [givesUp, at_])
  | finishWork worker =>
      rcases finishWork_cases taken with ⟨idle, rfl⟩
      exact separate.moveIdle idle rfl
  | worker worker =>
      rcases Option.map_eq_some_iff.mp taken with ⟨pool, moved, rfl⟩
      exact separate.workerStep owned delivers sound moved
  | interrupt worker =>
      rcases Option.map_eq_some_iff.mp taken with ⟨pool, moved, rfl⟩
      rcases ThreadPool.interrupt_cases moved with ⟨at_, rfl⟩
      exact separate.moveIdle (by rw [at_]; rfl) rfl
  | addWork newNode =>
      rcases Option.map_eq_some_iff.mp taken with ⟨pool, moved, rfl⟩
      rcases ThreadPool.adderStep_handover delivers moved with ⟨-, -, workers, -⟩
      exact separate.ofPool fun _ _ works => workedAt_of_workers workers works

theorem separate_of_guarded
    (reached : (serverSystem Worker routes serverFd).ReachableWhere GivesUpComplete state) :
    state.Separate := by
  refine @Transition.System.ReachableWhere.invariant _ _ _ _
    (fun state => state.Owned serverFd ∧ state.pool.Delivers ∧ state.pool.LockSound) Separate
    ?_ ?_ ?_ state reached
  · intro state reached
    exact ⟨owned_of_reachable reached, ThreadPool.delivers_of_reachable (pool_reachable reached),
      ThreadPool.lockSound_of_reachable (pool_reachable reached)⟩
  · rintro state ⟨count, -, rfl⟩
    exact separate_start serverFd count
  · intro state label after known separate complete taken
    exact separate.step known.1 known.2.1 known.2.2 complete taken

/-- The reactor is about to put a slot to use for a new connection. -/
def Claims (state : ServerState Worker) (slot : Slot) : Prop :=
  ∃ fd connection, state.reactor = .claimFd fd connection slot ∨
    state.reactor = .claimTime fd connection slot ∨ state.reactor = .claimActive fd connection slot

/-- No worker has received a piece on the connection without having judged it. -/
def Settled (state : ServerState Worker) (connection : ℕ) : Prop :=
  ∀ worker task place, state.pool.workers worker = .work (some task) place →
    task.connection = connection → place.receiving = false

/-- The requests of each connection come from the bytes received on it alone. -/
structure Isolated (state : ServerState Worker) : Prop where
  claimedEmpty : ∀ slot, state.Claims slot → (state.conns slot).readLength = 0
  ownBytes : ∀ connection, ∀ text ∈ state.dispatched connection,
    text <:+: (state.heard connection).flatten
  inOrder : ∀ connection,
    state.dispatched connection <+: (replay (state.heard connection)).requests
  replayed : ∀ connection, state.Settled connection →
    state.dispatched connection = (replay (state.heard connection)).requests

omit [DecidableEq Worker] in
theorem Separate.requests (separate : state.Separate) (owned : state.Owned serverFd)
    (connection : ℕ) :
    state.dispatched connection <+: (replay (state.heard connection)).requests ∧
      (state.Settled connection →
        state.dispatched connection = (replay (state.heard connection)).requests) := by
  by_cases occupies : ∃ slot, (state.conns slot).isActive ∧ state.occupant slot = connection
  · rcases occupies with ⟨slot, active, rfl⟩
    rcases exists_workedAt state slot with ⟨place, works⟩
    have requests := (separate.staged slot active place works).requests
    refine ⟨requests.1, fun settled => requests.2 ?_⟩
    rcases works with ⟨worker, task, at_, rfl, working⟩ | ⟨rfl, -⟩
    · have carried : state.Carries task := Or.inr (Or.inr ⟨worker, inHand_of_work at_ working⟩)
      exact settled worker task place at_ (owned.tasks task carried).2.symm
    · rfl
  · have finished := separate.finished connection fun slot active same =>
      occupies ⟨slot, active, same⟩
    exact ⟨finished ▸ List.prefix_rfl, fun _ => finished⟩

omit [DecidableEq Worker] in
theorem Separate.isolated (separate : state.Separate) (owned : state.Owned serverFd) :
    state.Isolated where
  claimedEmpty := by
    rintro slot ⟨fd, connection, at_⟩
    apply separate.clean
    have knowledge := owned.knowledge
    rcases at_ with at_ | at_ | at_ <;> rw [at_] at knowledge
    · exact knowledge.2
    · exact knowledge.2.1
    · exact knowledge.2.1
  ownBytes := by
    intro connection text member
    have inOrder := (separate.requests owned connection).1
    exact (replay_ownBytes _).2 text (inOrder.subset member)
  inOrder := fun connection => (separate.requests owned connection).1
  replayed := fun connection => (separate.requests owned connection).2

/--
As long as no connection is given up amid a request, the requests of a connection
come from its own bytes, and equal bytes give equal requests in any two runs.
-/
theorem isolated_of_complete
    (reached : (serverSystem Worker routes serverFd).ReachableWhere GivesUpComplete state) :
    state.Isolated ∧
      ∀ (otherRoutes : Dictionary RouteHandler) (otherFd : ℕ) (other : ServerState Worker),
        (serverSystem Worker otherRoutes otherFd).ReachableWhere GivesUpComplete other →
        ∀ connection twin, state.Settled connection → other.Settled twin →
          state.heard connection = other.heard twin →
          state.dispatched connection = other.dispatched twin := by
  have isolated := (separate_of_guarded reached).isolated (owned_of_reachable reached.reachable)
  refine ⟨isolated, ?_⟩
  intro otherRoutes otherFd other otherReached connection twin settled twinSettled same
  have otherIsolated := (separate_of_guarded otherReached).isolated
    (owned_of_reachable otherReached.reachable)
  rw [isolated.replayed connection settled, otherIsolated.replayed twin twinSettled, same]

/-! ## A slot used twice -/

/-- A task that receives a piece. -/
def arrive (piece : Bytes) : Arrival where
  result := .received piece
  env := idle
  now := 0

/--
A first connection sends a piece, takes its worker so many steps, and is given up
after ten idle seconds; a second one gets the slot and sends a piece.
-/
def reuseRun (first second : Bytes) (steps : ℕ) : List (ServerLabel Unit) :=
  claimRun ++ List.replicate steps (.task () (arrive first)) ++ [.finishWork ()] ++
    List.replicate 5 (.worker ()) ++ List.replicate 260 (.reactor quiet) ++
    [.reactor { quiet with now := 20 }] ++ List.replicate 261 (.reactor quiet) ++
    claimRun ++ List.replicate 5 (.task () (arrive second))

theorem settled_of_place {state : ServerState Unit} {task : ClientTask} {place : TaskPlace}
    (at_ : state.pool.workers () = .work (some task) place) (judged : place.receiving = false)
    (connection : ℕ) : state.Settled connection := by
  intro worker other otherPlace otherAt _
  rw [Subsingleton.elim worker (), at_] at otherAt
  cases otherAt
  exact judged

/-- After a complete request the slot is as good as the one of a server just started. -/
theorem reusedSlot_isolated :
    ∃ state fresh, (serverSystem Unit dictionaryConstructor 3).runWhere GivesUpComplete
        (reuseRun (bytes "A\r\n\r\n") (bytes "B\r\n\r\n") 11) (serverStart 3 0) = some state ∧
      (serverSystem Unit dictionaryConstructor 3).runWhere GivesUpComplete
        (claimRun ++ List.replicate 5 (.task () (arrive (bytes "B\r\n\r\n")))) (serverStart 3 0) =
        some fresh ∧
      state.heard 1 = fresh.heard 0 ∧ state.Isolated ∧
      state.dispatched 1 = fresh.dispatched 0 := by
  have initially : (serverSystem Unit dictionaryConstructor 3).initial (serverStart 3 0) :=
    ⟨0, by decide, rfl⟩
  have reused : ((serverSystem Unit dictionaryConstructor 3).runWhere GivesUpComplete
      (reuseRun (bytes "A\r\n\r\n") (bytes "B\r\n\r\n") 11) (serverStart 3 0)).map
      (fun state => (state.pool.workers (), state.heard 1)) =
      some (.work (some ⟨5, 0, 1⟩) (.handle (bytes "B\r\n\r\n")), [bytes "B\r\n\r\n"]) := by
    decide +kernel
  have started : ((serverSystem Unit dictionaryConstructor 3).runWhere GivesUpComplete
      (claimRun ++ List.replicate 5 (.task () (arrive (bytes "B\r\n\r\n")))) (serverStart 3 0)).map
      (fun state => (state.pool.workers (), state.heard 0)) =
      some (.work (some ⟨5, 0, 0⟩) (.handle (bytes "B\r\n\r\n")), [bytes "B\r\n\r\n"]) := by
    decide +kernel
  rcases Option.map_eq_some_iff.mp reused with ⟨state, ran, values⟩
  rcases Option.map_eq_some_iff.mp started with ⟨fresh, freshRan, freshValues⟩
  have heard : state.heard 1 = fresh.heard 0 :=
    (congrArg Prod.snd values).trans (congrArg Prod.snd freshValues).symm
  have isolated := isolated_of_complete
    (Transition.System.ReachableWhere.runWhere (.start initially) ran)
  refine ⟨state, fresh, ran, freshRan, heard, isolated.1, ?_⟩
  exact isolated.2 dictionaryConstructor 3 fresh
    (Transition.System.ReachableWhere.runWhere (.start initially) freshRan) 1 0
    (settled_of_place (congrArg Prod.fst values) rfl 1)
    (settled_of_place (congrArg Prod.fst freshValues) rfl 0) heard

/-- After an incomplete one the request of the second connection begins with it. -/
theorem reusedSlot_leaks :
    ∃ state, (serverSystem Unit dictionaryConstructor 3).Reachable state ∧
      state.heard 1 = [bytes "B\r\n\r\n"] ∧ state.dispatched 1 = [bytes "AB\r\n\r\n"] ∧
      ¬ ∀ text ∈ state.dispatched 1, text ⊆ (state.heard 1).flatten := by
  have initially : (serverSystem Unit dictionaryConstructor 3).initial (serverStart 3 0) :=
    ⟨0, by decide, rfl⟩
  have leaked : ((serverSystem Unit dictionaryConstructor 3).run
      (reuseRun (bytes "A") (bytes "B\r\n\r\n") 6) (serverStart 3 0)).map
      (fun state => (state.heard 1, state.dispatched 1)) =
      some ([bytes "B\r\n\r\n"], [bytes "AB\r\n\r\n"]) := by decide +kernel
  rcases Option.map_eq_some_iff.mp leaked with ⟨state, ran, values⟩
  have heard : state.heard 1 = [bytes "B\r\n\r\n"] := congrArg Prod.fst values
  have dispatched : state.dispatched 1 = [bytes "AB\r\n\r\n"] := congrArg Prod.snd values
  refine ⟨state, Transition.System.Reachable.run (.start initially) ran, heard, dispatched, ?_⟩
  rw [heard, dispatched]
  decide

end ServerState

end LetUsConnect
