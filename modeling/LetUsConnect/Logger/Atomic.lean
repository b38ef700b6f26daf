import LetUsConnect.Logger.LifeCycle

/-!
# The calls of the logger as a sequence

Among threads the logger does what `Logger` does when one call follows the other.
A call of `logger_init` takes effect when `logger_initialized` is set, a call of
`logger_destroy` when the stream is given up and a call of `logger_log_request`
when the time of its record is read.
-/

namespace LetUsConnect

open CString Threads

/-- A call of the logger that takes effect at once. -/
inductive LoggerMove where
  | loggerInit (filepath : Option Bytes) (opens : Bool)
  | loggerLogRequest (tm : Tm) (request : LogRequest)
  | loggerDestroy

/-- The logger under a sequence of calls, with what its streams have taken. -/
def loggerSequence : Transition.System (Logger × (LogStream → Bytes)) LoggerMove where
  initial state := state = (Logger.initial, fun _ => [])
  step
    | .loggerInit filepath opens => fun (logger, taken) =>
        some ((logger.loggerInit filepath opens).2, taken)
    | .loggerLogRequest tm request => fun (logger, taken) =>
        some (logger, logger.loggerLogRequest tm request.clientIp request.method request.path
          request.statusCode request.host taken)
    | .loggerDestroy => fun (logger, taken) => some (logger.loggerDestroy, taken)

/-- The stream without the file that was found. -/
def LogTarget.stream {File : Type} : LogTarget File → LogStream
  | .stdout => .stdout
  | .file filepath _ => .file filepath

/-- What a stream has taken of the calls. -/
def takenOf {File : Type} : List (LogCall File) → LogStream → Bytes
  | [], _ => []
  | call :: earlier, stream =>
      takenOf earlier stream ++
        match call.target, call.time with
        | some target, some tm => if target.stream = stream then call.request.record tm else []
        | _, _ => []

/-- The logger that has this stream. -/
def Logger.withStream (stream : Option LogStream) : Logger := ⟨stream, stream.isSome, rfl⟩

@[simp]
theorem Logger.loggerDestroy_withStream (stream : Option LogStream) :
    (Logger.withStream stream).loggerDestroy = Logger.withStream none := by
  cases stream <;> rfl

namespace LoggerState

variable {Thread File : Type}
  {start : Option File → Bytes} {state after : LoggerState Thread File} {thread : Thread}

/-- The stream of the calls that have taken effect. -/
def stream (state : LoggerState Thread File) : Option LogStream :=
  if state.loggerInitialized then state.current.map (·.target.stream) else none

def atomic (state : LoggerState Thread File) : Logger × (LogStream → Bytes) :=
  (Logger.withStream state.stream, takenOf state.calls)

theorem stream_of_uninitialized (uninitialized : state.loggerInitialized = false) :
    state.stream = none := by
  rw [stream, uninitialized]
  rfl

theorem stream_of_initialized (initialized : state.loggerInitialized = true) :
    state.stream = state.current.map (·.target.stream) := if_pos initialized

theorem takenOf_untimed {request : LogRequest} {target : Option (LogTarget File)}
    (calls : List (LogCall File)) :
    takenOf (⟨request, target, none⟩ :: calls) = takenOf calls := by
  funext stream
  cases target <;> exact List.append_nil _

theorem takenOf_timed {request : LogRequest} {target : LogTarget File} {tm : Tm}
    (calls : List (LogCall File)) :
    takenOf (⟨request, some target, some tm⟩ :: calls) =
      Function.update (takenOf calls) target.stream
        (takenOf calls target.stream ++ request.record tm) := by
  funext stream
  by_cases here : target.stream = stream
  · subst here
    simp [takenOf]
  · simp [takenOf, here, Function.update_of_ne (Ne.symm here)]

theorem stream_of_null (null : state.logStream = none) : state.stream = none := by
  rw [stream, current, null]
  exact ite_self _

/-- Text in the buffer does not change the stream. -/
theorem stream_setStream {pointer : FilePointer} {stream buffered : FileStream File}
    (points : state.logStream = some pointer) (isOpen : state.streams pointer = some stream)
    (same : buffered.target = stream.target) :
    (state.setStream pointer (some buffered)).stream = state.stream := by
  have current : state.current = some stream := by
    rw [LoggerState.current, points, Option.bind_some, isOpen]
  have buffers : (state.setStream pointer (some buffered)).current = some buffered := by
    change state.logStream.bind (Function.update state.streams pointer (some buffered)) = _
    rw [points, Option.bind_some, Function.update_self]
  rw [LoggerState.stream, LoggerState.stream, current, buffers, Option.map_some, Option.map_some,
    same]
  rfl

variable [DecidableEq File]

theorem stream_fclose (taken : state.fclose = some after) : after.stream = none := by
  rcases fclose_cases taken with ⟨pointer, stream, points, -, rfl⟩
  have closed : ((state.write stream.target stream.buffer).setStream pointer none).current =
      none := by
    change state.logStream.bind (Function.update state.streams pointer none) = none
    rw [points, Option.bind_some, Function.update_self]
  rw [LoggerState.stream, closed]
  exact ite_self _

omit [DecidableEq File] in
/-- Opening a stream is a call of `logger_init`. -/
theorem exists_loggerInit (target : LogTarget File) (taken : LogStream → Bytes) :
    ∃ move, loggerSequence.step move (Logger.withStream none, taken) =
      some (Logger.withStream (some target.stream), taken) := by
  cases target with
  | stdout => exact ⟨.loggerInit none true, rfl⟩
  | file filepath => exact ⟨.loggerInit (some filepath) true, rfl⟩

theorem loggerLogRequest_withStream (stream : LogStream) (tm : Tm) (request : LogRequest)
    (taken : LogStream → Bytes) :
    (Logger.withStream (some stream)).loggerLogRequest tm request.clientIp request.method
        request.path request.statusCode request.host taken =
      Function.update taken stream (taken stream ++ request.record tm) := rfl

variable [DecidableEq Thread]

/-- `logger_init` takes effect when `logger_initialized` is set. -/
theorem atomic_initStep {answer : LibraryAnswer File}
    (within : (state.places thread).function = some .loggerInit) (sound : state.Sound start)
    (taken : state.threadStep thread answer = some after) :
    after.atomic = state.atomic ∨
      ∃ move, loggerSequence.step move state.atomic = some after.atomic := by
  have stands := sound.stands thread
  cases at_ : state.places thread <;> rw [at_] at within stands <;> cases within
  case initLock =>
    simp only [threadStep, at_] at taken
    rcases lock_cases taken with ⟨-, rfl⟩
    exact Or.inl rfl
  case initStream filepath =>
    rcases stands rfl with ⟨⟨-, uninitialized⟩, -⟩
    have stays : after.loggerInitialized = false ∧ after.calls = state.calls := by
      cases filepath with
      | none =>
          simp only [threadStep, at_] at taken
          cases taken
          exact ⟨uninitialized, rfl⟩
      | some filepath =>
          simp only [threadStep, at_] at taken
          cases taken
          cases answer.fopen <;> exact ⟨uninitialized, rfl⟩
    left
    rw [atomic, atomic, stream_of_uninitialized stays.1, stream_of_uninitialized uninitialized,
      stays.2]
  case initSet =>
    rcases stands rfl with ⟨⟨open_, uninitialized, points⟩, -⟩
    rcases exists_stream open_ points with ⟨pointer, stream, points, isOpen⟩
    simp only [threadStep, at_] at taken
    cases taken
    right
    have current : state.current = some stream := by
      rw [current, points, Option.bind_some, isOpen]
    rcases exists_loggerInit stream.target (takenOf state.calls) with ⟨move, moved⟩
    refine ⟨move, ?_⟩
    rw [atomic, stream_of_uninitialized uninitialized, moved, atomic, stream_of_initialized rfl]
    change _ = some (Logger.withStream (state.current.map _), takenOf state.calls)
    rw [current]
    rfl
  all_goals
    simp only [threadStep, at_] at taken
    cases taken
    exact Or.inl rfl

/-- `logger_log_request` takes effect when the time is read. -/
theorem atomic_logStep {answer : LibraryAnswer File}
    (within : (state.places thread).function = some .loggerLogRequest) (sound : state.Sound start)
    (taken : state.threadStep thread answer = some after) :
    after.atomic = state.atomic ∨
      ∃ move, loggerSequence.step move state.atomic = some after.atomic := by
  have stands := sound.stands thread
  cases at_ : state.places thread <;> rw [at_] at within stands <;> cases within
  case logLock request =>
    simp only [threadStep, at_] at taken
    rcases Option.map_eq_some_iff.mp taken with ⟨locked, gotLock, rfl⟩
    rcases lock_cases gotLock with ⟨-, rfl⟩
    left
    exact congrArg (Prod.mk _) (takenOf_untimed _)
  case logTimestamp request =>
    rcases stands rfl with ⟨⟨⟨together, open_⟩, points⟩, -, earlier, -, calls⟩
    rcases exists_stream open_ points with ⟨pointer, stream, isCurrent, isOpen⟩
    simp only [threadStep, at_] at taken
    cases taken
    right
    have current : state.current = some stream := by
      rw [LoggerState.current, isCurrent, Option.bind_some, isOpen]
    have initialized : state.loggerInitialized = true := together.trans points
    have taking : state.stream = some stream.target.stream := by
      rw [stream_of_initialized initialized, current, Option.map_some]
    have stamped : ((state.stamp answer.localtime).goto thread
        (.logFprintf request answer.localtime)).calls =
          ⟨request, some stream.target, some answer.localtime⟩ :: earlier := by
      change state.calls.modifyHead _ = _
      rw [calls, current]
      rfl
    refine ⟨.loggerLogRequest answer.localtime request, ?_⟩
    rw [atomic, atomic, stamped, calls, takenOf_untimed, takenOf_timed]
    change _ = some (Logger.withStream state.stream, _)
    rw [taking]
    rfl
  case logFprintf request tm =>
    simp only [threadStep, at_] at taken
    rcases Option.map_eq_some_iff.mp taken with ⟨printed, wrote, rfl⟩
    rcases fprintf_cases wrote with ⟨pointer, stream, points, isOpen, rfl⟩
    left
    exact congrArg (fun stream => (Logger.withStream stream, _))
      (stream_setStream (points : (state.write _ _).logStream = some pointer) isOpen rfl)
  case logFflush =>
    simp only [threadStep, at_] at taken
    rcases Option.map_eq_some_iff.mp taken with ⟨flushed, wrote, rfl⟩
    rcases fflush_cases wrote with ⟨pointer, stream, points, isOpen, rfl⟩
    left
    exact congrArg (fun stream => (Logger.withStream stream, _))
      (stream_setStream (points : (state.write _ _).logStream = some pointer) isOpen rfl)
  all_goals
    simp only [threadStep, at_] at taken
    cases taken
    exact Or.inl rfl

/-- `logger_destroy` takes effect when the stream is given up. -/
theorem atomic_destroyStep {answer : LibraryAnswer File}
    (within : (state.places thread).function = some .loggerDestroy) (sound : state.Sound start)
    (taken : state.threadStep thread answer = some after) :
    after.atomic = state.atomic ∨
      ∃ move, loggerSequence.step move state.atomic = some after.atomic := by
  have stands := sound.stands thread
  cases at_ : state.places thread <;> rw [at_] at within stands <;> cases within
  case destroyLock =>
    simp only [threadStep, at_] at taken
    rcases lock_cases taken with ⟨-, rfl⟩
    exact Or.inl rfl
  case destroyFclose =>
    simp only [threadStep, at_] at taken
    rcases Option.map_eq_some_iff.mp taken with ⟨closed, wrote, rfl⟩
    have gone : closed.stream = none := stream_fclose wrote
    have sameCalls : closed.calls = state.calls := by
      rcases fclose_cases wrote with ⟨pointer, stream, -, -, rfl⟩
      rfl
    right
    refine ⟨.loggerDestroy, ?_⟩
    change some ((Logger.withStream state.stream).loggerDestroy, takenOf state.calls) =
      some (Logger.withStream closed.stream, takenOf closed.calls)
    rw [gone, sameCalls, Logger.loggerDestroy_withStream]
  case destroyNull =>
    simp only [threadStep, at_] at taken
    cases taken
    right
    refine ⟨.loggerDestroy, ?_⟩
    have gone : ({ state.goto thread .destroyReset with logStream := none }).stream = none :=
      stream_of_null rfl
    rw [atomic, atomic, gone]
    exact congrArg (fun logger => some (logger, takenOf state.calls))
      (Logger.loggerDestroy_withStream state.stream)
  case destroyReset =>
    rcases stands rfl with ⟨⟨-, null⟩, -⟩
    simp only [threadStep, at_] at taken
    cases taken
    left
    rw [atomic, atomic, stream_of_null null, stream_of_uninitialized rfl]
    rfl
  all_goals
    simp only [threadStep, at_] at taken
    cases taken
    exact Or.inl rfl

/-- Every step of a thread is a call that takes effect, or none. -/
theorem atomic_threadStep {answer : LibraryAnswer File} (sound : state.Sound start)
    (taken : state.threadStep thread answer = some after) :
    after.atomic = state.atomic ∨
      ∃ move, loggerSequence.step move state.atomic = some after.atomic := by
  rcases exists_function taken with ⟨function, within⟩
  cases function with
  | loggerInit => exact atomic_initStep within sound taken
  | loggerLogRequest => exact atomic_logStep within sound taken
  | loggerDestroy => exact atomic_destroyStep within sound taken

omit [DecidableEq File] in
theorem atomic_call {place : LoggerPlace} (taken : state.call thread place = some after) :
    after.atomic = state.atomic := by
  rcases call_cases taken with ⟨-, rfl⟩
  rfl

/-- The threads together do what a sequence of calls does. -/
theorem atomic_reachable (reached : (loggerSystem Thread File start).Reachable state) :
    loggerSequence.Reachable state.atomic := by
  refine reached.projectKnown (fun _ => sound_of_reachable) atomic ?_ ?_
  · rintro state rfl
    rfl
  · intro state label after sound taken
    cases label with
    | loggerInit thread filepath => exact Or.inl (atomic_call taken)
    | loggerLogRequest thread request => exact Or.inl (atomic_call taken)
    | loggerDestroy thread => exact Or.inl (atomic_call taken)
    | step thread answer => exact atomic_threadStep sound taken

end LoggerState

end LetUsConnect
