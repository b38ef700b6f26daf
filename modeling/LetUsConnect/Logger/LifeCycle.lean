import LetUsConnect.Logger.Steps

/-!
# The life cycle of the logger

While a thread holds `log_mutex`, what the variables, the streams and the
contents are like depends only on the statement it executes next; while no thread
does, they are as they are for a thread outside the logger. A step carries these
expectations from the place of the thread to its next place, so that they hold
in every reachable state.
-/

namespace LetUsConnect

open CString Threads

/-- The functions of the logger. -/
inductive LoggerFunction where
  | loggerInit
  | loggerLogRequest
  | loggerDestroy

namespace LoggerPlace

/-- The function a place belongs to, if it is inside one. -/
def function : LoggerPlace → Option LoggerFunction
  | .returned _ => none
  | .initLock _ | .initCheck _ | .initStream _ | .initTest | .initSet | .initUnlock _ =>
      some .loggerInit
  | .logLock _ | .logCheck _ | .logCheckStream _ | .logTimestamp _ | .logFprintf _ _ | .logFflush
  | .logUnlock => some .loggerLogRequest
  | .destroyLock | .destroyCheck | .destroyStream | .destroyFclose | .destroyNull | .destroyReset
  | .destroyUnlock => some .loggerDestroy

/-- The thread is between the lock and the unlock. -/
def isInside : LoggerPlace → Bool
  | .returned _ | .initLock _ | .logLock _ | .destroyLock => false
  | _ => true

/-- The next statement writes to or closes `log_stream`. -/
def usesStream : LoggerPlace → Bool
  | .logFprintf _ _ | .logFflush | .destroyFclose => true
  | _ => false

/-- At most that many steps are left before the call returns. -/
def remaining : LoggerPlace → ℕ
  | .returned _ => 0
  | .initUnlock _ | .logUnlock | .destroyUnlock => 1
  | .initSet | .logFflush | .destroyReset => 2
  | .initTest | .logFprintf _ _ | .destroyNull => 3
  | .initStream _ | .logTimestamp _ | .destroyFclose => 4
  | .initCheck _ | .logCheckStream _ | .destroyStream => 5
  | .initLock _ | .logCheck _ | .destroyCheck => 6
  | .logLock _ | .destroyLock => 7

end LoggerPlace

/-- The thread that takes the step. -/
def LoggerLabel.mover {Thread File : Type} : LoggerLabel Thread File → Thread
  | .loggerInit thread _ | .loggerLogRequest thread _ | .loggerDestroy thread
  | .step thread _ => thread

section Text

variable {File : Type} [DecidableEq File]

/-- What a call adds to a sink. -/
def LogCall.text (call : LogCall File) (sink : Option File) : Bytes :=
  match call.target, call.time with
  | some target, some tm => if target.sink = sink then call.request.record tm else []
  | _, _ => []

/-- A record was printed if there was a stream to print it to. -/
def LogCall.Complete (call : LogCall File) : Prop := call.time.isSome = call.target.isSome

/-- What the calls, the latest first, add to a sink: one record for each call on it. -/
def logText : List (LogCall File) → Option File → Bytes
  | [], _ => []
  | call :: earlier, sink => logText earlier sink ++ call.text sink

/-- The contents are those of the start and the records of the calls. -/
structure Recorded (start contents : Option File → Bytes) (calls : List (LogCall File)) : Prop where
  complete : ∀ call ∈ calls, call.Complete
  contents : ∀ sink, contents sink = start sink ++ logText calls sink

end Text

namespace LoggerState

variable {Thread File : Type} [DecidableEq File]
  {start : Option File → Bytes} {state after : LoggerState Thread File} {thread : Thread}

/-! ## What a place expects -/

def IsOpen (state : LoggerState Thread File) (pointer : FilePointer) : Prop :=
  (state.streams pointer).isSome

/-- `log_stream` does not point to a closed stream. -/
def PointsToOpen (state : LoggerState Thread File) : Prop :=
  ∀ pointer, state.logStream = some pointer → state.IsOpen pointer

/-- The two variables agree. -/
def Settled (state : LoggerState Thread File) : Prop :=
  state.loggerInitialized = state.logStream.isSome ∧ state.PointsToOpen

/-- What the variables are like when their next use is this statement. -/
def Fits (state : LoggerState Thread File) : LoggerPlace → Prop
  | .initStream _ => state.Settled ∧ state.loggerInitialized = false
  | .initTest => state.PointsToOpen ∧ state.loggerInitialized = false
  | .initSet =>
      state.PointsToOpen ∧ state.loggerInitialized = false ∧ state.logStream.isSome = true
  | .logTimestamp _ | .logFprintf _ _ | .logFflush =>
      state.Settled ∧ state.logStream.isSome = true
  | .destroyStream => state.Settled ∧ state.loggerInitialized = true
  | .destroyFclose =>
      state.Settled ∧ state.loggerInitialized = true ∧ state.logStream ≠ some .stdout
  | .destroyNull => state.loggerInitialized = true
  | .destroyReset => state.loggerInitialized = true ∧ state.logStream = none
  | _ => state.Settled

/-- No text is left in a buffer, and the standard output is open. -/
structure Flushed (streams : FilePointer → Option (FileStream File)) : Prop where
  stdout : streams .stdout = some ⟨.stdout, []⟩
  empty : ∀ pointer stream, streams pointer = some stream → stream.buffer = []

/-- After `fprintf`: the rest of the record is in the buffer of the current stream. -/
structure Printed (start : Option File → Bytes) (state : LoggerState Thread File)
    (pointer : FilePointer) (stream : FileStream File) : Prop where
  current : state.logStream = some pointer
  isOpen : state.streams pointer = some stream
  flushed : Flushed (Function.update state.streams pointer (some { stream with buffer := [] }))
  complete : ∀ call ∈ state.calls, call.Complete
  contents : ∀ sink,
    state.contents sink ++ (if stream.target.sink = sink then stream.buffer else []) =
    start sink ++ logText state.calls sink

/-- What the contents are like when the next statement is this one. -/
def Accounts (start : Option File → Bytes) (state : LoggerState Thread File) : LoggerPlace → Prop
  | .logCheck request | .logCheckStream request | .logTimestamp request =>
      Flushed state.streams ∧ ∃ earlier, Recorded start state.contents earlier ∧
        state.calls = ⟨request, state.current.map (·.target), none⟩ :: earlier
  | .logFprintf request tm =>
      Flushed state.streams ∧ ∃ earlier, Recorded start state.contents earlier ∧
        state.calls = ⟨request, state.current.map (·.target), some tm⟩ :: earlier
  | .logFflush => ∃ pointer stream, state.Printed start pointer stream
  | _ => Flushed state.streams ∧ Recorded start state.contents state.calls

def Stands (start : Option File → Bytes) (state : LoggerState Thread File)
    (place : LoggerPlace) : Prop :=
  state.Fits place ∧ state.Accounts start place

omit [DecidableEq File] in
theorem exists_stream (open_ : state.PointsToOpen) (some_ : state.logStream.isSome = true) :
    ∃ pointer stream, state.logStream = some pointer ∧ state.streams pointer = some stream := by
  rcases Option.isSome_iff_exists.mp some_ with ⟨pointer, points⟩
  rcases Option.isSome_iff_exists.mp (open_ pointer points) with ⟨stream, isOpen⟩
  exact ⟨pointer, stream, points, isOpen⟩

/-! ## The steps that change a stream -/

omit [DecidableEq File] in
theorem streams_fopen (filepath : Bytes) (file : File) :
    (state.fopen filepath (some file)).streams =
      Function.update state.streams (.opened state.opened) (some ⟨.file filepath file, []⟩) := rfl

omit [DecidableEq File] in
theorem flushed_fopen (flushed : Flushed state.streams) (filepath : Bytes) (answer : Option File) :
    Flushed (state.fopen filepath answer).streams := by
  cases answer with
  | none => exact flushed
  | some file =>
      rw [streams_fopen]
      constructor
      · rw [Function.update_of_ne (by simp)]
        exact flushed.stdout
      · intro pointer stream isOpen
        by_cases same : pointer = .opened state.opened
        · rw [same, Function.update_self] at isOpen
          cases isOpen
          rfl
        · rw [Function.update_of_ne same] at isOpen
          exact flushed.empty pointer stream isOpen

omit [DecidableEq File] in
theorem pointsToOpen_fopen (filepath : Bytes) (answer : Option File) :
    (state.fopen filepath answer).PointsToOpen := by
  intro pointer points
  cases answer with
  | none => cases points
  | some file =>
      cases points
      simp [IsOpen, fopen, setStream]

theorem write_nil (target : LogTarget File) : state.write target [] = state := by
  rw [write, List.append_nil, Function.update_eq_self]

theorem fprintf_cases {text : Bytes} {written : ℕ}
    (taken : state.fprintf text written = some after) :
    ∃ pointer stream, state.logStream = some pointer ∧ state.streams pointer = some stream ∧
      after = (state.write stream.target ((stream.buffer ++ text).take written)).setStream pointer
        (some { stream with buffer := (stream.buffer ++ text).drop written }) := by
  rcases Option.bind_eq_some_iff.mp taken with ⟨pointer, points, printed⟩
  rcases Option.map_eq_some_iff.mp printed with ⟨stream, isOpen, rfl⟩
  exact ⟨pointer, stream, points, isOpen, rfl⟩

theorem fflush_cases (taken : state.fflush = some after) :
    ∃ pointer stream, state.logStream = some pointer ∧ state.streams pointer = some stream ∧
      after = (state.write stream.target stream.buffer).setStream pointer
        (some { stream with buffer := [] }) := by
  rcases Option.bind_eq_some_iff.mp taken with ⟨pointer, points, flushed⟩
  rcases Option.map_eq_some_iff.mp flushed with ⟨stream, isOpen, rfl⟩
  exact ⟨pointer, stream, points, isOpen, rfl⟩

theorem fclose_cases (taken : state.fclose = some after) :
    ∃ pointer stream, state.logStream = some pointer ∧ state.streams pointer = some stream ∧
      after = (state.write stream.target stream.buffer).setStream pointer none := by
  rcases Option.bind_eq_some_iff.mp taken with ⟨pointer, points, closed⟩
  rcases Option.map_eq_some_iff.mp closed with ⟨stream, isOpen, rfl⟩
  exact ⟨pointer, stream, points, isOpen, rfl⟩

/-- What was printed is in the contents or still in the buffer. -/
theorem printed_fprintf {request : LogRequest} {tm : Tm} {written : ℕ}
    (stands : state.Stands start (.logFprintf request tm))
    (taken : state.fprintf (request.record tm) written = some after) :
    ∃ pointer stream, after.Printed start pointer stream := by
  rcases stands.2 with ⟨flushed, earlier, recorded, calls⟩
  rcases fprintf_cases taken with ⟨pointer, stream, points, isOpen, rfl⟩
  have empty := flushed.empty pointer stream isOpen
  have target : state.current.map (·.target) = some stream.target := by
    rw [current, points, Option.bind_some, isOpen, Option.map_some]
  rw [target] at calls
  refine ⟨pointer, { stream with buffer := (stream.buffer ++ request.record tm).drop written },
    points, Function.update_self _ _ _, ?_, ?_, ?_⟩
  · have same : ({ stream with buffer := [] } : FileStream File) = stream := by
      rw [← empty]
    change Flushed (Function.update (Function.update state.streams _ _) _ _)
    rw [Function.update_idem, same, ← isOpen, Function.update_eq_self]
    exact flushed
  · change ∀ call ∈ state.calls, call.Complete
    rw [calls, List.forall_mem_cons]
    exact ⟨rfl, recorded.complete⟩
  · intro sink
    change Function.update state.contents _ _ sink ++ _ = start sink ++ logText state.calls sink
    rw [calls, logText, ← List.append_assoc, ← recorded.contents, LogCall.text, empty]
    simp only [List.nil_append]
    by_cases here : stream.target.sink = sink
    · subst here
      simp
    · simp [here, Function.update_of_ne (Ne.symm here)]

theorem recorded_fflush (stands : state.Stands start .logFflush)
    (taken : state.fflush = some after) :
    Flushed after.streams ∧ Recorded start after.contents after.calls := by
  rcases stands.2 with ⟨pointer, stream, printed⟩
  rcases fflush_cases taken with ⟨other, found, points, isOpen, rfl⟩
  cases printed.current.symm.trans points
  cases printed.isOpen.symm.trans isOpen
  refine ⟨⟨printed.flushed.stdout, printed.flushed.empty⟩, printed.complete, ?_⟩
  intro sink
  change Function.update state.contents _ _ sink = start sink ++ logText state.calls sink
  rw [← printed.contents sink]
  by_cases here : stream.target.sink = sink
  · subst here
    simp
  · simp [here, Function.update_of_ne (Ne.symm here)]

/-- `fclose` on a stream other than the standard output has nothing left to write. -/
theorem recorded_fclose (stands : state.Stands start .destroyFclose)
    (taken : state.fclose = some after) :
    Flushed after.streams ∧ Recorded start after.contents after.calls := by
  rcases stands.1 with ⟨-, -, other⟩
  rcases stands.2 with ⟨flushed, recorded⟩
  rcases fclose_cases taken with ⟨pointer, stream, points, isOpen, rfl⟩
  rw [flushed.empty pointer stream isOpen, write_nil]
  have notStdout : FilePointer.stdout ≠ pointer := by
    rintro rfl
    exact other points
  refine ⟨⟨?_, ?_⟩, recorded⟩
  · change Function.update state.streams _ _ .stdout = _
    rw [Function.update_of_ne notStdout]
    exact flushed.stdout
  · intro later found stillOpen
    change Function.update state.streams _ _ later = _ at stillOpen
    by_cases same : later = pointer
    · rw [same, Function.update_self] at stillOpen
      cases stillOpen
    · rw [Function.update_of_ne same] at stillOpen
      exact flushed.empty later found stillOpen

/-- A call that finds no stream adds nothing. -/
theorem recorded_of_null {request : LogRequest} {earlier : List (LogCall File)}
    (null : state.logStream = none) (recorded : Recorded start state.contents earlier)
    (calls : state.calls = ⟨request, state.current.map (·.target), none⟩ :: earlier) :
    Recorded start state.contents state.calls := by
  rw [current, null, Option.bind_none, Option.map_none] at calls
  rw [calls]
  constructor
  · rw [List.forall_mem_cons]
    exact ⟨rfl, recorded.complete⟩
  · intro sink
    rw [logText, LogCall.text, List.append_nil]
    exact recorded.contents sink

/-! ## One step -/

variable [DecidableEq Thread]

omit [DecidableEq File] in
theorem places_goto (place : LoggerPlace) : (state.goto thread place).places thread = place :=
  Function.update_self _ _ _

omit [DecidableEq Thread] in
theorem stands_at {place : LoggerPlace} (isAt : state.places thread = place)
    (stands : state.Stands start place) : state.Stands start (state.places thread) :=
  isAt ▸ stands

omit [DecidableEq File] in
theorem lock_cases {place : LoggerPlace} (taken : state.lock thread place = some after) :
    state.logMutex = none ∧ after = { state.goto thread place with logMutex := some thread } := by
  rw [lock] at taken
  split_ifs at taken with free
  cases taken
  exact ⟨free, rfl⟩

omit [DecidableEq Thread] [DecidableEq File] in
/-- A stream that stays open keeps the variables settled. -/
theorem settled_setStream {pointer : FilePointer} {stream : FileStream File}
    (settled : state.Settled) : (state.setStream pointer (some stream)).Settled := by
  refine ⟨settled.1, ?_⟩
  intro other points
  change (Function.update state.streams pointer (some stream) other).isSome
  by_cases same : other = pointer
  · rw [same, Function.update_self]
    rfl
  · rw [Function.update_of_ne same]
    exact settled.2 other points

theorem stands_initStep {answer : LibraryAnswer File}
    (within : (state.places thread).function = some .loggerInit)
    (stands : state.Stands start (state.places thread))
    (taken : state.threadStep thread answer = some after) :
    after.Stands start (after.places thread) := by
  cases at_ : state.places thread <;> rw [at_] at within stands <;> cases within <;>
    simp only [threadStep, at_] at taken
  case initLock =>
    rcases lock_cases taken with ⟨-, rfl⟩
    exact stands_at (places_goto _) stands
  case initCheck =>
    cases taken
    refine stands_at (places_goto _) ?_
    split_ifs with initialized
    · exact stands
    · exact ⟨⟨stands.1, Bool.eq_false_iff.mpr initialized⟩, stands.2⟩
  case initStream filepath =>
    rcases stands with ⟨⟨settled, initialized⟩, flushed, recorded⟩
    cases filepath with
    | none =>
        cases taken
        refine stands_at (places_goto _) ⟨⟨?_, initialized, rfl⟩, flushed, recorded⟩
        rintro pointer ⟨⟩
        exact Option.isSome_iff_exists.mpr ⟨_, flushed.stdout⟩
    | some filepath =>
        cases taken
        refine stands_at (places_goto _)
          ⟨⟨pointsToOpen_fopen filepath answer.fopen, ?_⟩, flushed_fopen flushed _ _, ?_⟩
        · cases answer.fopen <;> exact initialized
        · cases answer.fopen <;> exact recorded
  case initTest =>
    rcases stands with ⟨⟨pointsToOpen, initialized⟩, accounts⟩
    cases taken
    refine stands_at (places_goto _) ?_
    split_ifs with null
    · refine ⟨⟨?_, pointsToOpen⟩, accounts⟩
      change state.loggerInitialized = state.logStream.isSome
      rw [initialized, null, Option.isSome_none]
    · exact ⟨⟨pointsToOpen, initialized, Option.isSome_iff_ne_none.mpr null⟩, accounts⟩
  case initSet =>
    rcases stands with ⟨⟨pointsToOpen, -, points⟩, accounts⟩
    cases taken
    exact stands_at (places_goto _) ⟨⟨points.symm, pointsToOpen⟩, accounts⟩
  case initUnlock =>
    cases taken
    exact stands_at (places_goto _) stands

theorem stands_logStep {answer : LibraryAnswer File}
    (within : (state.places thread).function = some .loggerLogRequest)
    (stands : state.Stands start (state.places thread))
    (taken : state.threadStep thread answer = some after) :
    after.Stands start (after.places thread) := by
  cases at_ : state.places thread <;> rw [at_] at within stands <;> cases within <;>
    simp only [threadStep, at_] at taken
  case logLock request =>
    rcases stands with ⟨settled, flushed, recorded⟩
    rcases Option.map_eq_some_iff.mp taken with ⟨locked, gotLock, rfl⟩
    rcases lock_cases gotLock with ⟨-, rfl⟩
    exact stands_at (places_goto _) ⟨settled, flushed, state.calls, recorded, rfl⟩
  case logCheck request =>
    rcases stands with ⟨settled, flushed, earlier, recorded, calls⟩
    cases taken
    refine stands_at (places_goto _) ?_
    split_ifs with initialized
    · exact ⟨settled, flushed, earlier, recorded, calls⟩
    · refine ⟨settled, flushed, recorded_of_null ?_ recorded calls⟩
      have absent := settled.1
      rw [Bool.eq_false_iff.mpr initialized] at absent
      exact Option.isNone_iff_eq_none.mp (Option.isSome_eq_false_iff.mp absent.symm)
  case logCheckStream request =>
    rcases stands with ⟨settled, flushed, earlier, recorded, calls⟩
    cases taken
    refine stands_at (places_goto _) ?_
    split_ifs with null
    · exact ⟨settled, flushed, recorded_of_null null recorded calls⟩
    · exact ⟨⟨settled, Option.isSome_iff_ne_none.mpr null⟩, flushed, earlier, recorded, calls⟩
  case logTimestamp request =>
    rcases stands with ⟨fits, flushed, earlier, recorded, calls⟩
    cases taken
    refine stands_at (places_goto _) ⟨fits, flushed, earlier, recorded, ?_⟩
    change state.calls.modifyHead _ = _
    rw [calls]
    rfl
  case logFprintf request tm =>
    rcases Option.map_eq_some_iff.mp taken with ⟨printed, wrote, rfl⟩
    rcases printed_fprintf stands wrote with ⟨pointer, stream, rest⟩
    refine stands_at (places_goto _) ⟨?_, pointer, stream, rest.current, rest.isOpen, rest.flushed,
      rest.complete, rest.contents⟩
    rcases fprintf_cases wrote with ⟨pointer, stream, points, -, rfl⟩
    exact ⟨settled_setStream stands.1.1, stands.1.2⟩
  case logFflush =>
    rcases Option.map_eq_some_iff.mp taken with ⟨flushed, wrote, rfl⟩
    have accounts := recorded_fflush stands wrote
    refine stands_at (places_goto _) ⟨?_, accounts⟩
    rcases fflush_cases wrote with ⟨pointer, stream, points, -, rfl⟩
    exact settled_setStream stands.1.1
  case logUnlock =>
    cases taken
    exact stands_at (places_goto _) stands

theorem stands_destroyStep {answer : LibraryAnswer File}
    (within : (state.places thread).function = some .loggerDestroy)
    (stands : state.Stands start (state.places thread))
    (taken : state.threadStep thread answer = some after) :
    after.Stands start (after.places thread) := by
  cases at_ : state.places thread <;> rw [at_] at within stands <;> cases within <;>
    simp only [threadStep, at_] at taken
  case destroyLock =>
    rcases lock_cases taken with ⟨-, rfl⟩
    exact stands_at (places_goto _) stands
  case destroyCheck =>
    cases taken
    refine stands_at (places_goto _) ?_
    split_ifs with initialized
    · exact ⟨⟨stands.1, initialized⟩, stands.2⟩
    · exact stands
  case destroyStream =>
    rcases stands with ⟨⟨settled, initialized⟩, accounts⟩
    cases taken
    refine stands_at (places_goto _) ?_
    split_ifs with isStdout
    · exact ⟨initialized, accounts⟩
    · exact ⟨⟨settled, initialized, isStdout⟩, accounts⟩
  case destroyFclose =>
    rcases Option.map_eq_some_iff.mp taken with ⟨closed, wrote, rfl⟩
    have accounts := recorded_fclose stands wrote
    refine stands_at (places_goto _) ⟨?_, accounts⟩
    rcases fclose_cases wrote with ⟨pointer, stream, -, -, rfl⟩
    exact stands.1.2.1
  case destroyNull =>
    cases taken
    exact stands_at (places_goto _) ⟨⟨stands.1, rfl⟩, stands.2⟩
  case destroyReset =>
    rcases stands with ⟨⟨-, null⟩, accounts⟩
    cases taken
    refine stands_at (places_goto _) ⟨⟨?_, ?_⟩, accounts⟩
    · change false = state.logStream.isSome
      rw [null, Option.isSome_none]
    · intro pointer points
      exact absurd (null.symm.trans points) (by simp)
  case destroyUnlock =>
    cases taken
    exact stands_at (places_goto _) stands

theorem exists_function {answer : LibraryAnswer File}
    (taken : state.threadStep thread answer = some after) :
    ∃ function, (state.places thread).function = some function := by
  cases at_ : state.places thread
  case returned =>
    rw [threadStep, at_] at taken
    cases taken
  all_goals exact ⟨_, rfl⟩

/-- A step leads from what its place expects to what the next place expects. -/
theorem stands_threadStep {answer : LibraryAnswer File}
    (stands : state.Stands start (state.places thread))
    (taken : state.threadStep thread answer = some after) :
    after.Stands start (after.places thread) := by
  rcases exists_function taken with ⟨function, within⟩
  cases function with
  | loggerInit => exact stands_initStep within stands taken
  | loggerLogRequest => exact stands_logStep within stands taken
  | loggerDestroy => exact stands_destroyStep within stands taken

/-- What a step does to the places and to the lock. -/
structure Moves (state after : LoggerState Thread File) (thread : Thread) (place : LoggerPlace) :
    Prop where
  places : after.places = Function.update state.places thread place
  lock : LockMove thread state.logMutex (state.places thread).isInside place.isInside
    after.logMutex
  enters : (state.places thread).isInside = false → state.logMutex = none ∧ place.isInside = true
  nearer : place.remaining < (state.places thread).remaining

omit [DecidableEq File] in
/-- A step between the lock and the unlock. -/
theorem Moves.within {place : LoggerPlace}
    (places : after.places = Function.update state.places thread place)
    (lock : after.logMutex = state.logMutex) (leaves : (state.places thread).isInside = true)
    (arrives : place.isInside = true) (nearer : place.remaining < (state.places thread).remaining) :
    state.Moves after thread place where
  places := places
  lock := by
    rw [lock, leaves, arrives]
    exact .stay _ _
  enters := fun outside => by
    rw [leaves] at outside
    cases outside
  nearer := nearer

omit [DecidableEq File] in
theorem Moves.locks {place : LoggerPlace}
    (places : after.places = Function.update state.places thread place)
    (free : state.logMutex = none) (held : after.logMutex = some thread)
    (leaves : (state.places thread).isInside = false) (arrives : place.isInside = true)
    (nearer : place.remaining < (state.places thread).remaining) :
    state.Moves after thread place where
  places := places
  lock := by
    rw [free, held, leaves, arrives]
    exact .acquire
  enters := fun _ => ⟨free, arrives⟩
  nearer := nearer

theorem moves_threadStep {answer : LibraryAnswer File}
    (taken : state.threadStep thread answer = some after) :
    ∃ place, state.Moves after thread place := by
  cases at_ : state.places thread
  case returned => simp [threadStep, at_] at taken
  case initLock | destroyLock =>
    simp only [threadStep, at_] at taken
    rcases lock_cases taken with ⟨free, rfl⟩
    refine ⟨_, .locks rfl free rfl ?_ rfl ?_⟩ <;>
      simp [at_, LoggerPlace.isInside, LoggerPlace.remaining]
  case logLock =>
    simp only [threadStep, at_] at taken
    rcases Option.map_eq_some_iff.mp taken with ⟨locked, gotLock, rfl⟩
    rcases lock_cases gotLock with ⟨free, rfl⟩
    refine ⟨_, .locks rfl free rfl ?_ rfl ?_⟩ <;>
      simp [at_, LoggerPlace.isInside, LoggerPlace.remaining]
  case initUnlock | logUnlock | destroyUnlock =>
    simp only [threadStep, at_] at taken
    cases taken
    exact ⟨_, rfl, by rw [at_]; exact .release _, by simp [at_, LoggerPlace.isInside],
      by rw [at_]; simp [LoggerPlace.remaining]⟩
  case initCheck | initTest | logCheck | logCheckStream | destroyCheck | destroyStream =>
    simp only [threadStep, at_] at taken
    cases taken
    refine ⟨_, .within rfl rfl ?_ ?_ ?_⟩
    · simp [at_, LoggerPlace.isInside]
    · split_ifs <;> rfl
    · rw [at_]
      split_ifs <;> simp [LoggerPlace.remaining]
  case initStream filepath =>
    cases filepath with
    | none =>
        simp only [threadStep, at_] at taken
        cases taken
        refine ⟨_, .within rfl rfl ?_ rfl ?_⟩ <;>
          simp [at_, LoggerPlace.isInside, LoggerPlace.remaining]
    | some filepath =>
        simp only [threadStep, at_] at taken
        cases taken
        refine ⟨.initTest, .within ?_ ?_ ?_ rfl ?_⟩
        · cases answer.fopen <;> rfl
        · cases answer.fopen <;> rfl
        · simp [at_, LoggerPlace.isInside]
        · simp [at_, LoggerPlace.remaining]
  case initSet | logTimestamp | destroyNull | destroyReset =>
    simp only [threadStep, at_] at taken
    cases taken
    refine ⟨_, .within rfl rfl ?_ rfl ?_⟩ <;>
      simp [at_, LoggerPlace.isInside, LoggerPlace.remaining]
  case logFprintf =>
    simp only [threadStep, at_] at taken
    rcases Option.map_eq_some_iff.mp taken with ⟨printed, wrote, rfl⟩
    rcases fprintf_cases wrote with ⟨pointer, stream, -, -, rfl⟩
    refine ⟨_, .within rfl rfl ?_ rfl ?_⟩ <;>
      simp [at_, LoggerPlace.isInside, LoggerPlace.remaining]
  case logFflush =>
    simp only [threadStep, at_] at taken
    rcases Option.map_eq_some_iff.mp taken with ⟨flushed, wrote, rfl⟩
    rcases fflush_cases wrote with ⟨pointer, stream, -, -, rfl⟩
    refine ⟨_, .within rfl rfl ?_ rfl ?_⟩ <;>
      simp [at_, LoggerPlace.isInside, LoggerPlace.remaining]
  case destroyFclose =>
    simp only [threadStep, at_] at taken
    rcases Option.map_eq_some_iff.mp taken with ⟨closed, wrote, rfl⟩
    rcases fclose_cases wrote with ⟨pointer, stream, -, -, rfl⟩
    refine ⟨_, .within rfl rfl ?_ rfl ?_⟩ <;>
      simp [at_, LoggerPlace.isInside, LoggerPlace.remaining]

omit [DecidableEq File] [DecidableEq Thread] in
/-- The stream that the next statement uses is open. -/
theorem Fits.opened {place : LoggerPlace} (fits : state.Fits place)
    (uses : place.usesStream = true) :
    ∃ pointer stream, state.logStream = some pointer ∧ state.streams pointer = some stream := by
  cases place <;> try cases uses
  case logFprintf | logFflush => exact exists_stream fits.1.2 fits.2
  case destroyFclose =>
    rcases fits with ⟨⟨together, open_⟩, initialized, -⟩
    exact exists_stream open_ (together.symm.trans initialized)

/-- A thread between the lock and the unlock can always go on, whatever the library answers. -/
theorem exists_threadStep (stands : state.Stands start (state.places thread))
    (isInside : (state.places thread).isInside = true) (answer : LibraryAnswer File) :
    ∃ after, state.threadStep thread answer = some after := by
  cases at_ : state.places thread
  case returned | initLock | logLock | destroyLock =>
    rw [at_] at isInside
    cases isInside
  case initStream filepath => cases filepath <;> simp [threadStep, at_]
  case logFprintf | logFflush | destroyFclose =>
    rcases Fits.opened stands.1 (by rw [at_]; rfl) with ⟨pointer, stream, points, isOpen⟩
    simp [threadStep, at_, fprintf, fflush, fclose, points, isOpen]
  all_goals simp [threadStep, at_]

/-- A thread that waits for the lock goes on when it is free. -/
theorem exists_threadStep_of_free (free : state.logMutex = none)
    (waits : (state.places thread).isInside = false)
    (calls : ∀ result, state.places thread ≠ .returned result) (answer : LibraryAnswer File) :
    ∃ after, state.threadStep thread answer = some after := by
  cases at_ : state.places thread
  case returned result => exact absurd at_ (calls result)
  case initLock | logLock | destroyLock => simp [threadStep, at_, lock, free]
  all_goals
    rw [at_] at waits
    cases waits

/-! ## Every run -/

/-- The lock keeps the expectations of the thread that holds it. -/
structure Sound (start : Option File → Bytes) (state : LoggerState Thread File) : Prop where
  exclusive : Exclusive state.logMutex fun thread => (state.places thread).isInside
  held : ∀ thread, state.logMutex = some thread → state.Stands start (state.places thread)
  free : state.logMutex = none → state.Stands start (.returned none)

omit [DecidableEq Thread] in
theorem Sound.stands (sound : state.Sound start) (thread : Thread)
    (inside : (state.places thread).isInside = true) :
    state.Stands start (state.places thread) :=
  sound.held thread (sound.exclusive.holder inside)

omit [DecidableEq Thread] in
/-- All threads outside the logger expect the same. -/
theorem stands_iff_of_outside {place : LoggerPlace} (isOutside : place.isInside = false) :
    state.Stands start place ↔ state.Stands start (.returned none) := by
  cases place
  case returned | initLock | logLock | destroyLock => exact Iff.rfl
  all_goals cases isOutside

theorem stands_goto {place other : LoggerPlace} :
    (state.goto thread place).Stands start other ↔ state.Stands start other := by
  cases other
  case logFflush =>
    constructor <;> rintro ⟨fits, pointer, stream, printed⟩ <;>
      exact ⟨fits, pointer, stream, printed.current, printed.isOpen, printed.flushed,
        printed.complete, printed.contents⟩
  all_goals exact Iff.rfl

omit [DecidableEq File] in
theorem call_cases {place : LoggerPlace} (taken : state.call thread place = some after) :
    (∃ result, state.places thread = .returned result) ∧ after = state.goto thread place := by
  cases at_ : state.places thread <;> simp only [LoggerState.call, at_] at taken <;> cases taken
  exact ⟨⟨_, rfl⟩, rfl⟩

theorem Sound.call {place : LoggerPlace} (sound : state.Sound start)
    (isOutside : place.isInside = false) (taken : state.call thread place = some after) :
    after.Sound start := by
  rcases call_cases taken with ⟨⟨result, returned⟩, rfl⟩
  have wasOutside : (state.places thread).isInside = false := by
    rw [returned]
    rfl
  have elsewhere : ∀ other, other ≠ thread → (state.goto thread place).places other =
      state.places other := fun other different => Function.update_of_ne different _ _
  refine ⟨?_, ?_, sound.free⟩
  · have stays : LockMove thread state.logMutex (state.places thread).isInside
        ((state.goto thread place).places thread).isInside state.logMutex := by
      rw [places_goto, wasOutside, isOutside]
      exact .stay _ _
    apply sound.exclusive.move stays
    intro other different
    rw [elsewhere other different]
  · intro other holds
    have isOther : other ≠ thread := by
      rintro rfl
      exact absurd ((sound.exclusive other).mpr holds) (by simp [wasOutside])
    rw [elsewhere other isOther, stands_goto]
    exact sound.held other holds

theorem Sound.threadStep {answer : LibraryAnswer File} (sound : state.Sound start)
    (taken : state.threadStep thread answer = some after) : after.Sound start := by
  rcases moves_threadStep taken with ⟨place, moves⟩
  have here : after.places thread = place := by
    rw [moves.places, Function.update_self]
  have stands : state.Stands start (state.places thread) := by
    cases inside : (state.places thread).isInside with
    | true => exact sound.stands thread inside
    | false => exact (stands_iff_of_outside inside).mpr (sound.free (moves.enters inside).1)
  have standsAfter := stands_threadStep stands taken
  have exclusive : Exclusive after.logMutex fun thread => (after.places thread).isInside := by
    have lock := moves.lock
    rw [← here] at lock
    apply sound.exclusive.move lock
    intro other different
    rw [moves.places, Function.update_of_ne different]
  refine ⟨exclusive, ?_, ?_⟩
  · intro other holds
    by_cases same : other = thread
    · exact same ▸ standsAfter
    · -- The lock was held by `other` before, so that the moving thread could not move.
      have inside : (after.places other).isInside = true := (exclusive other).mpr holds
      rw [moves.places, Function.update_of_ne same] at inside
      have heldBefore := sound.exclusive.holder inside
      exfalso
      cases wasInside : (state.places thread).isInside with
      | true =>
          have alsoHeld := sound.exclusive.holder wasInside
          exact same (Option.some.inj (heldBefore.symm.trans alsoHeld))
      | false =>
          have free := (moves.enters wasInside).1
          rw [free] at heldBefore
          cases heldBefore
  · intro free
    exact (stands_iff_of_outside (exclusive.outside free thread)).mp standsAfter

/-- A step leaves the places of the other threads as they are. -/
theorem places_step {label : LoggerLabel Thread File}
    (taken : (loggerSystem Thread File start).step label state = some after)
    (other : label.mover ≠ thread) : after.places thread = state.places thread := by
  cases label with
  | loggerInit | loggerLogRequest | loggerDestroy =>
      rcases call_cases taken with ⟨-, rfl⟩
      exact Function.update_of_ne other.symm _ _
  | step mover answer =>
      rcases moves_threadStep taken with ⟨place, moves⟩
      rw [moves.places]
      exact Function.update_of_ne other.symm _ _

omit [DecidableEq Thread] in
theorem sound_initial : (initial start : LoggerState Thread File).Sound start := by
  refine ⟨?_, ?_, ?_⟩
  · intro thread
    simp [initial, LoggerPlace.isInside]
  · intro thread holds
    cases holds
  · intro _
    refine ⟨⟨rfl, ?_⟩, ⟨rfl, ?_⟩, ?_, ?_⟩
    · intro pointer points
      cases points
    · intro pointer stream isOpen
      cases pointer <;> cases isOpen
      rfl
    · intro call member
      cases member
    · intro sink
      exact (List.append_nil _).symm

theorem sound_of_reachable (reached : (loggerSystem Thread File start).Reachable state) :
    state.Sound start := by
  refine reached.invariant ?_ ?_
  · rintro state rfl
    exact sound_initial
  · intro state label after sound taken
    cases label with
    | loggerInit thread filepath => exact sound.call rfl taken
    | loggerLogRequest thread request => exact sound.call rfl taken
    | loggerDestroy thread => exact sound.call rfl taken
    | step thread answer => exact sound.threadStep taken

/-! ## What the threads may rely on -/

/-- The text of a call that is being printed. -/
def unwritten (state : LoggerState Thread File) (thread : Thread) : Bytes :=
  match state.places thread with
  | .logFprintf request tm => request.record tm
  | .logFflush => (state.current.map (·.buffer)).getD []
  | _ => []

theorem text_of_untimed {request : LogRequest} {target : Option (LogTarget File)}
    (sink : Option File) : (LogCall.mk request target none).text sink = [] := by
  cases target <;> rfl

omit [DecidableEq Thread] in
/-- What is missing of the record of the call that holds the lock. -/
theorem Accounts.writing (accounts : state.Accounts start (state.places thread))
    (sink : Option File) :
    state.contents sink ++
        (if state.current.map (·.target.sink) = some sink then state.unwritten thread else []) =
      start sink ++ logText state.calls sink := by
  rw [unwritten]
  cases at_ : state.places thread <;> rw [at_] at accounts
  case logCheck | logCheckStream | logTimestamp =>
    rcases accounts with ⟨-, earlier, recorded, calls⟩
    rw [calls, logText, text_of_untimed, ite_self, recorded.contents, List.append_nil,
      List.append_nil]
  case logFprintf request tm =>
    rcases accounts with ⟨-, earlier, recorded, calls⟩
    rw [calls, logText, LogCall.text, recorded.contents, List.append_assoc]
    cases state.current with
    | none => simp
    | some stream => simp
  case logFflush =>
    rcases accounts with ⟨pointer, stream, printed⟩
    have current : state.current = some stream := by
      rw [LoggerState.current, printed.current, Option.bind_some, printed.isOpen]
    rw [← printed.contents sink, current]
    simp
  all_goals
    rw [ite_self, List.append_nil]
    exact accounts.2.contents sink

end LoggerState

end LetUsConnect
