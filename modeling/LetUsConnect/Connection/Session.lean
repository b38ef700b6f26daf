import LetUsConnect.Connection.Client
import LetUsConnect.Connection.Segmentation

/-!
# Sessions

A client that sends one request after the other on a connection, each when the
one before has been answered, so that no piece holds bytes of two requests. The
tasks of the slot dispatch exactly these requests, keep the connection open until
the last one says otherwise, and what they put on the socket is for the client
one answer to each request, in order.
-/

namespace LetUsConnect

open CString Readers

/-- A request on its way: the pieces in which it is received. -/
structure Sending where
  message : RequestMessage
  framed : ∃ sectionLength, FramedRequest message.serialize sectionLength
  early : List Bytes
  last : Bytes
  nonempty : last ≠ []
  cut : early.flatten ++ last = message.serialize

/-- The request as the worker parses it. -/
def Sending.request (sending : Sending) : HTTPRequest :=
  httpRequestConstructor sending.message.serialize

/-- A request with the tasks that receive and answer it. -/
structure Exchange extends Sending where
  /-- The tasks that do not receive the last piece. -/
  earlier : List Arrival
  arrives : ∀ arrival ∈ earlier, Arrives arrival.result
  brings : pieces (earlier.map Arrival.result) = early
  env : Environment
  now : ℤ

def Exchange.arrivals (exchange : Exchange) : List Arrival :=
  exchange.earlier ++ [⟨.received exchange.last, exchange.env, exchange.now⟩]

/-- What the tasks of a slot make of a session. -/
structure Serves (routes : Dictionary RouteHandler) (session : List Exchange)
    (outcomes : List TaskOutcome) : Prop where
  dispatched : outcomes.filterMap TaskOutcome.dispatched =
    session.map fun exchange => exchange.message.serialize
  answered : outcomes.flatMap TaskOutcome.actions =
    session.flatMap fun exchange => dispatch routes exchange.env exchange.request
  staysOpen : ∀ outcome ∈ outcomes.dropLast, outcome.closed = false
  ends : outcomes.getLast?.map TaskOutcome.closed =
    session.getLast?.map fun exchange => !keepAlive exchange.request

/-! ## One request after the other -/

theorem Answers.closed_eq {routes : Dictionary RouteHandler} {env : Environment} {text : Bytes}
    {outcome : TaskOutcome} (answers : Answers routes env text outcome) :
    outcome.closed = !keepAlive (httpRequestConstructor text) := by
  cases kept : keepAlive (httpRequestConstructor text) with
  | true => exact (answers.kept kept).1
  | false => exact (answers.ended kept).1

/-- The slot as tasks with these outcomes leave it. -/
def leaves : ClientConnection → List TaskOutcome → ClientConnection
  | conn, [] => conn
  | _, outcome :: outcomes => leaves outcome.connection outcomes

theorem leaves_append_singleton (conn : ClientConnection) (outcomes : List TaskOutcome)
    (final : TaskOutcome) : leaves conn (outcomes ++ [final]) = final.connection := by
  induction outcomes generalizing conn with
  | nil => rfl
  | cons outcome outcomes ih => exact ih outcome.connection

/-- Later tasks start from the slot as the earlier ones have left it. -/
theorem runTasks_append {routes : Dictionary RouteHandler} {conn : ClientConnection}
    {first second : List Arrival} {outcomes later : List TaskOutcome}
    (ran : runTasks routes conn first = some outcomes)
    (rest : runTasks routes (leaves conn outcomes) second = some later) :
    runTasks routes conn (first ++ second) = some (outcomes ++ later) := by
  induction first generalizing conn outcomes with
  | nil =>
      cases ran
      exact rest
  | cons arrival first ih =>
      rw [runTasks] at ran
      split_ifs at ran with active
      rcases Option.bind_eq_some_iff.mp ran with ⟨outcome, isOutcome, remaining⟩
      rcases Option.map_eq_some_iff.mp remaining with ⟨others, othersRan, rfl⟩
      exact runTasks_cons routes active isOutcome (ih othersRan rest)

variable (routes : Routes)

/-- What the tasks of one exchange make of a slot that begins with an empty buffer. -/
structure ServesOne (exchange : Exchange) (waiting : List TaskOutcome) (final : TaskOutcome) :
    Prop where
  waits : ∀ outcome ∈ waiting, Waits outcome
  answers : Answers routes.dictionary exchange.env exchange.message.serialize final

theorem Exchange.served (exchange : Exchange) {conn : ClientConnection} (active : conn.isActive)
    (empty : conn.readLength = 0) :
    ∃ waiting final, runTasks routes.dictionary conn exchange.arrivals =
      some (waiting ++ [final]) ∧ ServesOne routes exchange waiting final := by
  rcases exchange.framed with ⟨sectionLength, framed⟩
  have pending : conn.pending = [] := by
    rw [ReadBuffer.pending, empty, List.take_zero]
  have whole : conn.pending ++ ((pieces (exchange.earlier.map Arrival.result)).flatten ++
      exchange.last) = exchange.message.serialize := by
    rw [pending, List.nil_append, exchange.brings, exchange.cut]
  rcases framed.runTasks_spec routes.dictionary exchange.arrives exchange.nonempty exchange.env
      exchange.now active whole with ⟨waiting, final, ran, -, waits, answers⟩
  exact ⟨waiting, final, ran, waits, answers⟩

/-- The part of a session after its first request starts where that one has left the slot. -/
theorem serves_of_persistent {session : List Exchange}
    (persistent : ∀ exchange ∈ session.dropLast, keepAlive exchange.request)
    {conn : ClientConnection} (active : conn.isActive) (empty : conn.readLength = 0) :
    ∃ outcomes, runTasks routes.dictionary conn (session.flatMap Exchange.arrivals) =
      some outcomes ∧ Serves routes.dictionary session outcomes := by
  induction session generalizing conn with
  | nil => exact ⟨[], rfl, rfl, rfl, by simp, rfl⟩
  | cons exchange session ih =>
      rcases exchange.served routes active empty with ⟨waiting, final, ran, one⟩
      have texts : waiting.filterMap TaskOutcome.dispatched = [] := by
        rw [List.filterMap_eq_nil_iff]
        exact fun outcome member => (one.waits outcome member).nothingDispatched
      have silent : waiting.flatMap TaskOutcome.actions = [] := by
        rw [List.flatMap_eq_nil_iff]
        exact fun outcome member => (one.waits outcome member).nothingSent
      have open_ : ∀ outcome ∈ waiting, outcome.closed = false :=
        fun outcome member => (one.waits outcome member).staysOpen
      cases session with
      | nil =>
          refine ⟨waiting ++ [final], by simpa using ran, ?_, ?_, ?_, ?_⟩
          · simp [texts, one.answers.dispatches]
          · simp [silent, one.answers.acts, Sending.request]
          · simpa using open_
          · simp [one.answers.closed_eq, Sending.request]
      | cons next session =>
          have kept := persistent exchange (by simp)
          have left := one.answers.kept kept
          rcases @ih (fun other member => persistent other (by simp [member])) final.connection
              left.2.1 one.answers.drained with ⟨later, laterRan, serves⟩
          have nonempty : later ≠ [] := by
            rintro rfl
            have ends := serves.ends
            simp at ends
          refine ⟨waiting ++ [final] ++ later, ?_, ?_, ?_, ?_, ?_⟩
          · apply runTasks_append ran
            rwa [leaves_append_singleton]
          · simp [texts, one.answers.dispatches, serves.dispatched]
          · simp [silent, one.answers.acts, Sending.request, serves.answered]
          · rw [List.dropLast_append_of_ne_nil nonempty]
            intro outcome member
            simp only [List.mem_append, List.mem_singleton] at member
            rcases member with (waits | rfl) | later
            · exact open_ outcome waits
            · exact left.1
            · exact serves.staysOpen outcome later
          · rw [List.getLast?_append_of_ne_nil _ nonempty, serves.ends, List.getLast?_cons_cons]

/-! ## The answers as the client reads them -/

/-- The reader of a client that knows whether it has asked for a head alone. -/
def Exchange.reader (exchange : Exchange) : Reader UInt8 Response :=
  readResponse exchange.message.headOnly

variable {routes}

/--
However the requests of a session are cut into pieces, the tasks dispatch each of
them once and in order and close the connection after the last one if that asks for
it and never before. If none of the answers is cut short or too long, a socket that
takes all they send brings the client one answer to each request.
-/
theorem session_served {session : List Exchange}
    (persistent : ∀ exchange ∈ session.dropLast, keepAlive exchange.request)
    {conn : ClientConnection} (active : conn.isActive) (empty : conn.readLength = 0) :
    ∃ outcomes, runTasks routes.dictionary conn (session.flatMap Exchange.arrivals) =
        some outcomes ∧ Serves routes.dictionary session outcomes ∧
      ((∀ exchange ∈ session, exchange.message.Deliverable routes exchange.env) →
        ∀ calls, Carried (outcomes.flatMap TaskOutcome.actions) calls →
          inTurn (session.map Exchange.reader)
              (wire (outcomes.flatMap TaskOutcome.actions) calls) =
            some
              (session.map fun exchange => exchange.message.answer routes exchange.env, [])) := by
  rcases serves_of_persistent routes persistent active empty with ⟨outcomes, ran, serves⟩
  refine ⟨outcomes, ran, serves, ?_⟩
  intro deliverable calls carried
  rw [serves.answered] at carried ⊢
  exact carried.read_answerAll deliverable

theorem hostRequest_deliverable : hostRequest.Deliverable Routes.ofMain (filesOfSize 5) where
  small := by
    intro _ path status resolved
    have file : resolvePath (filesOfSize 5) hostRequest.uri.text =
        some (bytes "public/", ⟨false, 5⟩) := rfl
    rw [file] at resolved
    cases resolved
    decide
  location := fun isPost => absurd isPost (by decide)
  found := fun isHead => absurd isHead (by decide)

/-- The request for a page, on its way in these pieces. -/
def hostSending (early : List Bytes) (last : Bytes) (nonempty : last ≠ [])
    (cut : early.flatten ++ last = hostRequest.serialize) : Sending where
  message := hostRequest
  framed := ⟨30, by decide +kernel, by decide +kernel, ⟨26, by decide +kernel, rfl⟩,
    Or.inl ⟨by decide +kernel, by decide +kernel⟩⟩
  early
  last
  nonempty
  cut

/-- The page is asked for twice, first in two pieces with an `EAGAIN` between them. -/
def hostSession : List Exchange :=
  [{ hostSending [hostRequest.serialize.take 27] (hostRequest.serialize.drop 27) (by decide)
        (by decide) with
      earlier := [⟨.received (hostRequest.serialize.take 27), idle, 0⟩, ⟨.wouldBlock, idle, 1⟩]
      arrives := by
        intro arrival member
        simp only [List.mem_cons, List.not_mem_nil, or_false] at member
        rcases member with rfl | rfl
        · exact Or.inr ⟨_, by decide, rfl⟩
        · exact Or.inl rfl
      brings := rfl
      env := filesOfSize 5
      now := 2 },
    { hostSending [] hostRequest.serialize (by decide) (by decide) with
      earlier := []
      arrives := by simp
      brings := rfl
      env := filesOfSize 5
      now := 3 }]

/-- The socket takes each head with one call and each file with one. -/
def hostCalls : List SystemCall :=
  [.send (.count 1023), .sendfile (.count 5), .send (.count 1023), .sendfile (.count 5)]

theorem hostSession_served :
    ∃ outcomes, runTasks Routes.ofMain.dictionary freshConnection
        (hostSession.flatMap Exchange.arrivals) = some outcomes ∧
      inTurn (hostSession.map Exchange.reader)
          (wire (outcomes.flatMap TaskOutcome.actions) hostCalls) =
        some ([⟨200, List.replicate 5 0⟩, ⟨200, List.replicate 5 0⟩], []) := by
  have answers : hostSession.map (fun exchange =>
      exchange.message.answer Routes.ofMain exchange.env) =
      [⟨200, List.replicate 5 0⟩, ⟨200, List.replicate 5 0⟩] := by decide +kernel
  have deliverable : ∀ exchange ∈ hostSession,
      exchange.message.Deliverable Routes.ofMain exchange.env := by
    simp only [hostSession, List.mem_cons, List.not_mem_nil, or_false]
    rintro exchange (rfl | rfl)
    · exact hostRequest_deliverable
    · exact hostRequest_deliverable
  rcases @session_served Routes.ofMain hostSession (by decide +kernel) freshConnection rfl rfl with
    ⟨outcomes, ran, serves, read⟩
  refine ⟨outcomes, ran, ?_⟩
  rw [← answers]
  refine read deliverable hostCalls ⟨by decide, ?_⟩
  rw [serves.answered]
  decide +kernel

end LetUsConnect
