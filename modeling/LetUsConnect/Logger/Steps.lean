import LetUsConnect.Lib.Threads
import LetUsConnect.Lib.Transition
import LetUsConnect.Logger

/-!
# The logger among threads

`logger_init`, `logger_log_request` and `logger_destroy` of `src/logger/logger.c`,
called by any number of threads. A place names the statement a thread executes
next; each step is one statement or one call of the C library. Every access to
what the threads share happens here, also those that `log_mutex` keeps apart.

`File` are the files a path may lead to. What `fopen` finds is up to the
environment, so that a path may lead to another file each time. `fprintf`
collects its text in the buffer of the stream and may write any part of it at
once; `fflush` and `fclose` write the rest. Writing itself succeeds. The calls
that took the lock in `logger_log_request` are recorded for the statements
about the contents.
-/

namespace LetUsConnect

open CString

/-- The arguments of `logger_log_request`. -/
structure LogRequest where
  clientIp : Option Bytes
  method : Option Bytes
  path : Option Bytes
  statusCode : ℤ
  host : Option Bytes

/-- The line that is printed for the request. -/
def LogRequest.record (request : LogRequest) (tm : Tm) : Bytes :=
  Logger.logLine (request.clientIp.getD (bytes "-")) (formatTimestamp tm)
    (request.method.getD (bytes "-")) (request.path.getD (bytes "-"))
    request.statusCode (request.host.getD (bytes "-"))

/-- A value of type `FILE *` other than `NULL`. -/
inductive FilePointer where
  | stdout
  /-- The result of the `fopen` that succeeded after that many others. -/
  | opened (number : ℕ)
  deriving DecidableEq

/-- What a stream was opened on. -/
inductive LogTarget (File : Type) where
  | stdout
  | file (filepath : Bytes) (file : File)
  deriving DecidableEq

/-- Where the bytes go: the standard output is `none`. -/
def LogTarget.sink {File : Type} : LogTarget File → Option File
  | .stdout => none
  | .file _ reached => some reached

/-- An open stream; the buffer holds what was printed but not written yet. -/
structure FileStream (File : Type) where
  target : LogTarget File
  buffer : Bytes

/-- The places of a thread; outside the logger, what the last call returned. -/
inductive LoggerPlace where
  | returned (result : Option ℤ)
  -- `logger_init`
  | initLock (filepath : Option Bytes)
  | initCheck (filepath : Option Bytes)
  | initStream (filepath : Option Bytes)
  | initTest
  | initSet
  | initUnlock (result : ℤ)
  -- `logger_log_request`
  | logLock (request : LogRequest)
  | logCheck (request : LogRequest)
  | logCheckStream (request : LogRequest)
  | logTimestamp (request : LogRequest)
  | logFprintf (request : LogRequest) (tm : Tm)
  | logFflush
  | logUnlock
  -- `logger_destroy`
  | destroyLock
  | destroyCheck
  | destroyStream
  | destroyFclose
  | destroyNull
  | destroyReset
  | destroyUnlock

/-- A call that took the lock in `logger_log_request`. -/
structure LogCall (File : Type) where
  request : LogRequest
  /-- What `log_stream` was open on when the lock was taken. -/
  target : Option (LogTarget File)
  /-- The local time, once it was read. -/
  time : Option Tm

/-- What the C library answers in one step. -/
structure LibraryAnswer (File : Type) where
  /-- The file `fopen` opens; `none` when it returns `NULL`. -/
  fopen : Option File
  localtime : Tm
  /-- How many bytes `fprintf` writes at once. -/
  written : ℕ

/-- The variables of the logger, the streams, the contents and the places of the threads. -/
structure LoggerState (Thread File : Type) where
  logMutex : Option Thread
  loggerInitialized : Bool
  logStream : Option FilePointer
  streams : FilePointer → Option (FileStream File)
  opened : ℕ
  contents : Option File → Bytes
  places : Thread → LoggerPlace
  /-- The latest call comes first. -/
  calls : List (LogCall File)

inductive LoggerLabel (Thread File : Type) where
  | loggerInit (thread : Thread) (filepath : Option Bytes)
  | loggerLogRequest (thread : Thread) (request : LogRequest)
  | loggerDestroy (thread : Thread)
  | step (thread : Thread) (answer : LibraryAnswer File)

namespace LoggerState

variable {Thread File : Type}

/-- The static initial values. -/
def initial (contents : Option File → Bytes) : LoggerState Thread File where
  logMutex := none
  loggerInitialized := false
  logStream := none
  streams
    | .stdout => some ⟨.stdout, []⟩
    | .opened _ => none
  opened := 0
  contents
  places := fun _ => .returned none
  calls := []

/-- The stream `log_stream` points to; there is none when it is `NULL` or closed. -/
def current (state : LoggerState Thread File) : Option (FileStream File) :=
  state.logStream.bind state.streams

variable [DecidableEq Thread] [DecidableEq File]

def goto (state : LoggerState Thread File) (thread : Thread) (place : LoggerPlace) :
    LoggerState Thread File :=
  { state with places := Function.update state.places thread place }

/-- `pthread_mutex_lock(&log_mutex)`. -/
def lock (state : LoggerState Thread File) (thread : Thread) (place : LoggerPlace) :
    Option (LoggerState Thread File) :=
  if state.logMutex = none then some { state.goto thread place with logMutex := some thread }
  else none

/-- `pthread_mutex_unlock(&log_mutex)`. -/
def unlock (state : LoggerState Thread File) (thread : Thread) (result : Option ℤ) :
    LoggerState Thread File :=
  { state.goto thread (.returned result) with logMutex := none }

/-- The bytes are written to the end of what the stream was opened on. -/
def write (state : LoggerState Thread File) (target : LogTarget File) (data : Bytes) :
    LoggerState Thread File :=
  { state with
    contents := Function.update state.contents target.sink
      (state.contents target.sink ++ data) }

def setStream (state : LoggerState Thread File) (pointer : FilePointer)
    (stream : Option (FileStream File)) : LoggerState Thread File :=
  { state with streams := Function.update state.streams pointer stream }

/-- `fopen(filepath, "a")` and the assignment to `log_stream`. -/
def fopen (state : LoggerState Thread File) (filepath : Bytes) :
    Option File → LoggerState Thread File
  | none => { state with logStream := none }
  | some file =>
      { state.setStream (.opened state.opened) (some ⟨.file filepath file, []⟩) with
        logStream := some (.opened state.opened)
        opened := state.opened + 1 }

/-- `fprintf(log_stream, ...)`, which writes some of the bytes at once. -/
def fprintf (state : LoggerState Thread File) (text : Bytes) (written : ℕ) :
    Option (LoggerState Thread File) :=
  state.logStream.bind fun pointer =>
    (state.streams pointer).map fun stream =>
      (state.write stream.target ((stream.buffer ++ text).take written)).setStream pointer
        (some { stream with buffer := (stream.buffer ++ text).drop written })

/-- `fflush(log_stream)`. -/
def fflush (state : LoggerState Thread File) : Option (LoggerState Thread File) :=
  state.logStream.bind fun pointer =>
    (state.streams pointer).map fun stream =>
      (state.write stream.target stream.buffer).setStream pointer
        (some { stream with buffer := [] })

/-- `fclose(log_stream)`. -/
def fclose (state : LoggerState Thread File) : Option (LoggerState Thread File) :=
  state.logStream.bind fun pointer =>
    (state.streams pointer).map fun stream =>
      (state.write stream.target stream.buffer).setStream pointer none

/-- The latest call has read the local time. -/
def stamp (state : LoggerState Thread File) (tm : Tm) : LoggerState Thread File :=
  { state with calls := state.calls.modifyHead fun call => { call with time := some tm } }

/-- One statement of the call a thread is in; the calls for a stream need it to be open. -/
def threadStep (thread : Thread) (answer : LibraryAnswer File) (state : LoggerState Thread File) :
    Option (LoggerState Thread File) :=
  match state.places thread with
  | .returned _ => none
  | .initLock filepath => state.lock thread (.initCheck filepath)
  | .initCheck filepath =>
      some (state.goto thread
        (if state.loggerInitialized then .initUnlock 0 else .initStream filepath))
  | .initStream none => some { state.goto thread .initSet with logStream := some .stdout }
  | .initStream (some filepath) =>
      some ((state.fopen filepath answer.fopen).goto thread .initTest)
  | .initTest =>
      some (state.goto thread (if state.logStream = none then .initUnlock (-1) else .initSet))
  | .initSet => some { state.goto thread (.initUnlock 0) with loggerInitialized := true }
  | .initUnlock result => some (state.unlock thread (some result))
  | .logLock request =>
      (state.lock thread (.logCheck request)).map fun after =>
        { after with calls := ⟨request, state.current.map (·.target), none⟩ :: state.calls }
  | .logCheck request =>
      some (state.goto thread
        (if state.loggerInitialized then .logCheckStream request else .logUnlock))
  | .logCheckStream request =>
      some (state.goto thread
        (if state.logStream = none then .logUnlock else .logTimestamp request))
  | .logTimestamp request =>
      some ((state.stamp answer.localtime).goto thread (.logFprintf request answer.localtime))
  | .logFprintf request tm =>
      (state.fprintf (request.record tm) answer.written).map fun after =>
        after.goto thread .logFflush
  | .logFflush => state.fflush.map fun after => after.goto thread .logUnlock
  | .logUnlock => some (state.unlock thread none)
  | .destroyLock => state.lock thread .destroyCheck
  | .destroyCheck =>
      some (state.goto thread
        (if state.loggerInitialized then .destroyStream else .destroyUnlock))
  | .destroyStream =>
      some (state.goto thread
        (if state.logStream = some .stdout then .destroyNull else .destroyFclose))
  | .destroyFclose => state.fclose.map fun after => after.goto thread .destroyNull
  | .destroyNull => some { state.goto thread .destroyReset with logStream := none }
  | .destroyReset => some { state.goto thread .destroyUnlock with loggerInitialized := false }
  | .destroyUnlock => some (state.unlock thread none)

/-- A thread outside the logger calls one of its functions. -/
def call (thread : Thread) (place : LoggerPlace) (state : LoggerState Thread File) :
    Option (LoggerState Thread File) :=
  match state.places thread with
  | .returned _ => some (state.goto thread place)
  | _ => none

end LoggerState

/-- The logger of a process in which the files hold `contents` at the start. -/
def loggerSystem (Thread File : Type) [DecidableEq Thread] [DecidableEq File]
    (contents : Option File → Bytes) :
    Transition.System (LoggerState Thread File) (LoggerLabel Thread File) where
  initial state := state = LoggerState.initial contents
  step
    | .loggerInit thread filepath => LoggerState.call thread (.initLock filepath)
    | .loggerLogRequest thread request => LoggerState.call thread (.logLock request)
    | .loggerDestroy thread => LoggerState.call thread .destroyLock
    | .step thread answer => LoggerState.threadStep thread answer

end LetUsConnect
