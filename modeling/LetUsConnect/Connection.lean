import LetUsConnect.Handler

/-!
# Connections and the work done for them

`struct ClientConnection` and the body of `_thread_task` between taking a task
from the queue and being free again. A task performs one `recv` and at most one
dispatch; `threadTask` gives its effect on the connection for each result of the
`recv`.

`read_length` stays below the size of the buffer because `recv` is asked for at
most the bytes that fit, so the type of the buffer carries that bound.
-/

namespace LetUsConnect

open CString

/-! ## The receive buffer -/

/-- `sizeof(conn->read_buffer)`. -/
def bufferSize : ℕ := 8192

/-- The receive buffer of a connection. -/
structure ReadBuffer where
  readBuffer : Bytes
  readLength : ℕ
  size_eq : readBuffer.length = bufferSize
  readLength_lt : readLength < bufferSize

/-- Memory after `data` is written over it from an offset on. -/
def overwrite (memory : Bytes) (offset : ℕ) (data : Bytes) : Bytes :=
  memory.take offset ++ data ++ memory.drop (offset + data.length)

theorem length_overwrite {memory data : Bytes} {offset : ℕ}
    (fits : offset + data.length ≤ memory.length) :
    (overwrite memory offset data).length = memory.length := by
  rw [overwrite, List.length_append, List.length_append, List.length_take, List.length_drop]
  omega

theorem take_overwrite_before {memory data : Bytes} {offset : ℕ}
    (inside : offset ≤ memory.length) :
    (overwrite memory offset data).take offset = memory.take offset := by
  have length : (memory.take offset).length = offset := by
    rw [List.length_take, min_eq_left inside]
  rw [overwrite, List.append_assoc, List.take_append_of_le_length length.ge, List.take_take,
    min_self]

theorem take_overwrite {memory data : Bytes} {offset : ℕ} (inside : offset ≤ memory.length) :
    (overwrite memory offset data).take (offset + data.length) = memory.take offset ++ data := by
  have length : (memory.take offset ++ data).length = offset + data.length := by
    rw [List.length_append, List.length_take, min_eq_left inside]
  rw [overwrite, ← length, List.take_left]

namespace ReadBuffer

/-- The buffer as the loader leaves it. -/
def zero : ReadBuffer where
  readBuffer := List.replicate bufferSize 0
  readLength := 0
  size_eq := List.length_replicate
  readLength_lt := by decide

/-- The text at `conn->read_buffer`. -/
def text (buffer : ReadBuffer) : Bytes := cstr buffer.readBuffer

/-- The bytes before `read_length`. -/
def pending (buffer : ReadBuffer) : Bytes := buffer.readBuffer.take buffer.readLength

/-- `sizeof(conn->read_buffer) - 1 - conn->read_length`, the length `recv` is called with. -/
def room (buffer : ReadBuffer) : ℕ := bufferSize - 1 - buffer.readLength

/-- `recv` stores the bytes it returns; it returns no more than it was asked for. -/
def store (buffer : ReadBuffer) (piece : Bytes) : Option ReadBuffer :=
  if fits : piece.length ≤ buffer.room then
    some
      { buffer with
        readBuffer := overwrite buffer.readBuffer buffer.readLength piece
        size_eq := by
          have := buffer.readLength_lt
          rw [room] at fits
          rw [length_overwrite (by rw [buffer.size_eq]; omega), buffer.size_eq] }
  else none

/-- `conn->read_length += bytes_read`. -/
def advance (buffer : ReadBuffer) (bytesRead : ℕ) : Option ReadBuffer :=
  if inside : buffer.readLength + bytesRead < bufferSize then
    some { buffer with readLength := buffer.readLength + bytesRead, readLength_lt := inside }
  else none

/-- `conn->read_buffer[conn->read_length] = '\0'`. -/
def terminate (buffer : ReadBuffer) : ReadBuffer :=
  { buffer with
    readBuffer := overwrite buffer.readBuffer buffer.readLength [0]
    size_eq := by
      rw [length_overwrite (by rw [buffer.size_eq]; exact buffer.readLength_lt), buffer.size_eq] }

/-- `conn->read_length = 0`. -/
def resetLength (buffer : ReadBuffer) : ReadBuffer :=
  { buffer with readLength := 0, readLength_lt := by decide }

/-- `memset(conn->read_buffer, 0, sizeof(conn->read_buffer))`. -/
def clear (buffer : ReadBuffer) : ReadBuffer :=
  { buffer with
    readBuffer := List.replicate bufferSize 0
    size_eq := List.length_replicate }

/-- The buffer after a successful `recv` and the two statements that follow it. -/
def receive (buffer : ReadBuffer) (piece : Bytes) : Option ReadBuffer :=
  ((buffer.store piece).bind (·.advance piece.length)).map terminate

theorem length_pending (buffer : ReadBuffer) : buffer.pending.length = buffer.readLength := by
  rw [pending, List.length_take, buffer.size_eq, min_eq_left buffer.readLength_lt.le]

@[simp]
theorem pending_terminate (buffer : ReadBuffer) : buffer.terminate.pending = buffer.pending := by
  have bound : buffer.readLength ≤ buffer.readBuffer.length := by
    rw [buffer.size_eq]
    exact buffer.readLength_lt.le
  exact take_overwrite_before bound

theorem text_terminate (buffer : ReadBuffer) : buffer.terminate.text = cstr buffer.pending := by
  change cstr (overwrite buffer.readBuffer buffer.readLength [0]) = _
  rw [overwrite, List.append_assoc]
  exact cstr_append_zero _ _

/-- What a successful `recv` makes of the buffer. -/
theorem receive_spec {buffer after : ReadBuffer} {piece : Bytes}
    (received : buffer.receive piece = some after) :
    after.pending = buffer.pending ++ piece ∧ after.text = cstr (buffer.pending ++ piece) := by
  rw [receive, Option.map_eq_some_iff] at received
  rcases received with ⟨advanced, steps, rfl⟩
  rw [Option.bind_eq_some_iff] at steps
  rcases steps with ⟨stored, isStored, isAdvanced⟩
  have pendingEq : advanced.pending = buffer.pending ++ piece := by
    rw [store] at isStored
    rw [advance] at isAdvanced
    split_ifs at isStored isAdvanced with fits inside
    cases isStored
    cases isAdvanced
    have bound : buffer.readLength ≤ buffer.readBuffer.length := by
      rw [buffer.size_eq]
      exact buffer.readLength_lt.le
    exact take_overwrite bound
  exact ⟨by rw [pending_terminate, pendingEq], by rw [text_terminate, pendingEq]⟩

theorem fits_of_receive {buffer after : ReadBuffer} {piece : Bytes}
    (received : buffer.receive piece = some after) :
    buffer.readLength + piece.length < bufferSize := by
  rw [receive, Option.map_eq_some_iff] at received
  rcases received with ⟨advanced, steps, -⟩
  rcases Option.bind_eq_some_iff.mp steps with ⟨stored, isStored, isAdvanced⟩
  rw [store] at isStored
  rw [advance] at isAdvanced
  split_ifs at isStored isAdvanced with fits inside
  cases isStored
  exact inside

theorem exists_receive {buffer : ReadBuffer} {piece : Bytes}
    (fits : buffer.readLength + piece.length < bufferSize) :
    ∃ after, buffer.receive piece = some after := by
  have inRoom : piece.length ≤ buffer.room := by
    rw [room]
    omega
  rw [receive, store, dif_pos inRoom, Option.bind_some, advance, dif_pos fits, Option.map_some]
  exact ⟨_, rfl⟩

end ReadBuffer

/-! ## One task -/

/-- `struct ClientConnection`; `is_busy` and `is_active` hold 0 or 1. -/
structure ClientConnection extends ReadBuffer where
  fd : ℕ
  lastActivity : ℤ
  isBusy : Bool
  isActive : Bool

/-- A slot that is used for the first time, right after it was claimed. -/
def freshConnection : ClientConnection :=
  { ReadBuffer.zero with fd := 5, lastActivity := 0, isBusy := true, isActive := true }

/-- The result of `recv` on a client socket. -/
inductive RecvResult where
  /-- A positive number of bytes. -/
  | received (piece : Bytes)
  /-- -1 with `EAGAIN` or `EWOULDBLOCK`. -/
  | wouldBlock
  /-- Zero: the peer has closed, or no byte was asked for. -/
  | ended
  /-- -1 with any other `errno`. -/
  | failed
  deriving DecidableEq

/-- `route_handler_t`. -/
abbrev RouteHandler := Environment → HTTPRequest → List Action

/--
The decision whether the buffer holds a complete request. The sum of two `int`
values is taken to wrap.
-/
def requestComplete (readBuffer : Bytes) (readLength : ℕ) : Bool :=
  match strstr readBuffer headersEnd with
  | none => false
  | some headersEnd =>
      match strcasestr readBuffer (bytes "Content-Length:") with
      | none => true
      | some clStr =>
          let contentLength := atoi (readBuffer.drop (clStr + 15))
          let headersLength : ℤ := headersEnd + 4
          toInt (headersLength + contentLength) ≤ readLength

/-- The call of a handler, or the answer of the worker itself when there is none. -/
def dispatch (routes : Dictionary RouteHandler) (env : Environment) (request : HTTPRequest) :
    List Action :=
  match request.uri.bind routes.searchDict with
  | some handler => handler env request
  | none =>
      match routes.searchDict (bytes "*") with
      | some handler => handler env request
      | none => sendError 404

/--
A routes dictionary as the server fills it: whatever is registered is the
filesystem handler. It may also be empty.
-/
structure Routes where
  dictionary : Dictionary RouteHandler
  filesystem : ∀ key handler, dictionary.searchDict key = some handler →
    handler = handleFilesystemRequest

namespace Routes

/-- Whether the worker finds a handler for the request. -/
def handles (routes : Routes) (request : HTTPRequest) : Bool :=
  ((request.uri.bind routes.dictionary.searchDict).or
    (routes.dictionary.searchDict (bytes "*"))).isSome

theorem dispatch_eq (routes : Routes) (env : Environment) (request : HTTPRequest) :
    dispatch routes.dictionary env request =
      if routes.handles request then handleFilesystemRequest env request else sendError 404 := by
  have registered : ∀ handler, request.uri.bind routes.dictionary.searchDict = some handler →
      handler = handleFilesystemRequest := by
    intro handler found
    rcases Option.bind_eq_some_iff.mp found with ⟨uri, -, found⟩
    exact routes.filesystem uri handler found
  rw [dispatch, handles]
  cases own : request.uri.bind routes.dictionary.searchDict with
  | some handler => simp [registered handler own]
  | none =>
      cases fallback : routes.dictionary.searchDict (bytes "*") with
      | some handler => simp [routes.filesystem _ handler fallback]
      | none => simp

/-- The dictionary with nothing registered. -/
def empty : Routes where
  dictionary := dictionaryConstructor
  filesystem := by simp

/-- The dictionary `main` fills. -/
def ofMain : Routes where
  dictionary := dictionaryConstructor.insertDict (bytes "*") handleFilesystemRequest
  filesystem := by
    intro key handler found
    rw [Dictionary.searchDict_insertDict] at found
    split_ifs at found <;> simp_all

end Routes

/-- The effect of one task on its connection. -/
structure TaskOutcome where
  connection : ClientConnection
  /-- The text passed to `http_request_constructor`, if any. -/
  dispatched : Option Bytes
  actions : List Action
  /-- Whether the worker closed the descriptor. -/
  closed : Bool

/-- The outcome of a task that finds a complete request in the buffer. -/
def answerRequest (routes : Dictionary RouteHandler) (env : Environment) (now : ℤ)
    (conn : ClientConnection) (buffer : ReadBuffer) : TaskOutcome :=
  let request := httpRequestConstructor buffer.text
  let actions := dispatch routes env request
  let conn := { conn with toReadBuffer := buffer.resetLength.clear }
  if keepAlive request && conn.isActive then
    { connection := { conn with lastActivity := now, isBusy := false }
      dispatched := some buffer.text
      actions
      closed := false }
  else
    { connection := { conn with isActive := false }
      dispatched := some buffer.text
      actions
      closed := true }

/-- The outcome of a task after which more bytes are needed. -/
def awaitRest (now : ℤ) (conn : ClientConnection) (buffer : ReadBuffer) : TaskOutcome where
  connection := { conn with toReadBuffer := buffer, lastActivity := now, isBusy := false }
  dispatched := none
  actions := []
  closed := false

/--
The body of `_thread_task` for a task that is not `NULL`; `now` is what
`time(NULL)` returns. There is no outcome when `recv` cannot give the result.
-/
def threadTask (routes : Dictionary RouteHandler) (env : Environment) (now : ℤ)
    (conn : ClientConnection) : RecvResult → Option TaskOutcome
  | .received [] => none
  | .received piece =>
      (conn.receive piece).map fun buffer =>
        if requestComplete buffer.text buffer.readLength then
          answerRequest routes env now conn buffer
        else awaitRest now conn buffer
  | .wouldBlock =>
      some
        { connection := { conn with isBusy := false }
          dispatched := none
          actions := []
          closed := false }
  | .ended | .failed =>
      some
        { connection := { conn with isActive := false }
          dispatched := none
          actions := []
          closed := true }

/-- A task decides by the bytes received so far. -/
theorem threadTask_received (routes : Dictionary RouteHandler) (env : Environment) (now : ℤ)
    {conn : ClientConnection} {piece : Bytes} (nonempty : piece ≠ [])
    (fits : conn.readLength + piece.length < bufferSize) :
    ∃ buffer : ReadBuffer, buffer.pending = conn.pending ++ piece ∧
      buffer.text = cstr (conn.pending ++ piece) ∧
      threadTask routes env now conn (.received piece) = some
        (if requestComplete (cstr (conn.pending ++ piece)) (conn.pending ++ piece).length then
          answerRequest routes env now conn buffer
        else awaitRest now conn buffer) := by
  rcases ReadBuffer.exists_receive fits with ⟨buffer, received⟩
  rcases ReadBuffer.receive_spec received with ⟨pendingEq, textEq⟩
  refine ⟨buffer, pendingEq, textEq, ?_⟩
  cases piece with
  | nil => exact absurd rfl nonempty
  | cons byte piece =>
      rw [threadTask, received, Option.map_some, ← textEq, ← pendingEq, buffer.length_pending]
      simp

section Answer

variable {routes : Dictionary RouteHandler} {env : Environment} {now : ℤ}
  {conn : ClientConnection} {buffer : ReadBuffer}

@[simp]
theorem dispatched_answerRequest :
    (answerRequest routes env now conn buffer).dispatched = some buffer.text := by
  simp only [answerRequest]
  split_ifs <;> rfl

@[simp]
theorem actions_answerRequest :
    (answerRequest routes env now conn buffer).actions =
      dispatch routes env (httpRequestConstructor buffer.text) := by
  simp only [answerRequest]
  split_ifs <;> rfl

@[simp]
theorem readLength_answerRequest :
    (answerRequest routes env now conn buffer).connection.readLength = 0 := by
  simp only [answerRequest]
  split_ifs <;> rfl

theorem closed_answerRequest (active : conn.isActive) :
    (answerRequest routes env now conn buffer).closed =
      !keepAlive (httpRequestConstructor buffer.text) := by
  simp only [answerRequest, active, Bool.and_true]
  split_ifs with kept <;> simp [kept]

theorem isActive_answerRequest (active : conn.isActive) :
    (answerRequest routes env now conn buffer).connection.isActive =
      keepAlive (httpRequestConstructor buffer.text) := by
  simp only [answerRequest, active, Bool.and_true]
  split_ifs with kept <;> simp [kept]

theorem isBusy_answerRequest (active : conn.isActive)
    (kept : keepAlive (httpRequestConstructor buffer.text)) :
    (answerRequest routes env now conn buffer).connection.isBusy = false := by
  simp [answerRequest, active, kept]

end Answer

theorem threadTask_complete (routes : Dictionary RouteHandler) (env : Environment) (now : ℤ)
    {conn : ClientConnection} (fresh : conn.readLength = 0) {text : Bytes} (nonempty : text ≠ [])
    (fits : text.length < bufferSize) (noNul : 0 ∉ text)
    (complete : requestComplete text text.length) :
    ∃ buffer : ReadBuffer, buffer.text = text ∧
      threadTask routes env now conn (.received text) =
        some (answerRequest routes env now conn buffer) := by
  have empty : conn.pending = [] := by
    rw [ReadBuffer.pending, fresh, List.take_zero]
  rcases threadTask_received routes env now nonempty
    (show conn.readLength + text.length < bufferSize by omega) with ⟨buffer, -, isText, ran⟩
  rw [empty, List.nil_append, cstr_eq_self noNul] at isText ran
  rw [if_pos complete] at ran
  exact ⟨buffer, isText, ran⟩

/-- A task answers a request or does nothing that shows outside. -/
theorem threadTask_cases {routes : Dictionary RouteHandler} {env : Environment} {now : ℤ}
    {conn : ClientConnection} {result : RecvResult} {outcome : TaskOutcome}
    (ran : threadTask routes env now conn result = some outcome) :
    (∃ buffer : ReadBuffer, outcome = answerRequest routes env now conn buffer) ∨
      (outcome.dispatched = none ∧ outcome.actions = []) := by
  cases result with
  | received piece =>
      cases piece with
      | nil => simp [threadTask] at ran
      | cons byte piece =>
          rw [threadTask, Option.map_eq_some_iff] at ran
          · rcases ran with ⟨buffer, -, rfl⟩
            split_ifs with complete
            · exact Or.inl ⟨buffer, rfl⟩
            · exact Or.inr ⟨rfl, rfl⟩
          · simp
  | wouldBlock =>
      cases ran
      exact Or.inr ⟨rfl, rfl⟩
  | ended =>
      cases ran
      exact Or.inr ⟨rfl, rfl⟩
  | failed =>
      cases ran
      exact Or.inr ⟨rfl, rfl⟩

theorem eq_answerRequest_of_dispatched {routes : Dictionary RouteHandler} {env : Environment}
    {now : ℤ} {conn : ClientConnection} {result : RecvResult} {outcome : TaskOutcome}
    {text : Bytes} (ran : threadTask routes env now conn result = some outcome)
    (dispatched : outcome.dispatched = some text) :
    ∃ buffer : ReadBuffer, buffer.text = text ∧
      outcome = answerRequest routes env now conn buffer := by
  rcases threadTask_cases ran with ⟨buffer, rfl⟩ | ⟨nothing, -⟩
  · rw [dispatched_answerRequest, Option.some.injEq] at dispatched
    exact ⟨buffer, dispatched, rfl⟩
  · rw [nothing] at dispatched
    simp at dispatched

/-! ## The tasks of one slot -/

/-- The part of one task that comes from outside the program. -/
structure Arrival where
  result : RecvResult
  env : Environment
  now : ℤ

/--
The outcomes of tasks that run one after the other on a slot. A task is handed
over only while the slot is active, which makes the slot busy.
-/
def runTasks (routes : Dictionary RouteHandler) (conn : ClientConnection) :
    List Arrival → Option (List TaskOutcome)
  | [] => some []
  | arrival :: arrivals =>
      if conn.isActive then
        (threadTask routes arrival.env arrival.now { conn with isBusy := true }
          arrival.result).bind fun outcome =>
            (runTasks routes outcome.connection arrivals).map (outcome :: ·)
      else none

end LetUsConnect
