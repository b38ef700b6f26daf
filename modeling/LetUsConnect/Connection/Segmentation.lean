import LetUsConnect.Connection

/-!
# Requests that arrive in pieces

A request that ends where its header section or its declared body ends is
answered by the task that receives its last piece, however it is cut. The tasks
share only the slot, so the invariant carried from one to the next is that the
buffer holds the pieces received so far; the decision of each task is then the
decision for a prefix of the request.
-/

namespace LetUsConnect

open CString

/--
The first `Content-Length:` of a request, with a decimal number after it that
ends before the header section does.
-/
structure Declares (request : Bytes) (sectionLength bodyLength : ℕ) : Prop where
  number : ∃ clStr blank digits rest,
    strcasestr request (bytes "Content-Length:") = some clStr ∧
      request.drop (clStr + 15) = blank ++ (digits ++ rest) ∧
      (∀ byte ∈ blank, isspace byte) ∧ digits ≠ [] ∧ (∀ byte ∈ digits, isdigit byte) ∧
      (∀ byte ∈ rest.head?, isdigit byte = false) ∧
      clStr + 15 + blank.length + digits.length ≤ sectionLength ∧
      decimalValue digits = bodyLength

/-- A request text that ends where its header section, or the body declared there, ends. -/
structure FramedRequest (request : Bytes) (sectionLength : ℕ) : Prop where
  noNul : 0 ∉ request
  fits : request.length < bufferSize
  isSection : ∃ headersEnd', strstr request headersEnd = some headersEnd' ∧
    sectionLength = headersEnd' + 4
  isWhole :
    (strcasestr request (bytes "Content-Length:") = none ∧ request.length = sectionLength) ∨
      ∃ bodyLength, Declares request sectionLength bodyLength ∧
        request.length = sectionLength + bodyLength

/-- The pieces among the results of `recv`. -/
def pieces (results : List RecvResult) : List Bytes :=
  results.filterMap fun
    | .received piece => some piece
    | _ => none

/-! ## Decisions for the prefixes of a request -/

theorem strstr_take_lt {text needle : Bytes} {offset length : ℕ}
    (found : strstr text needle = some offset) (short : length < offset + needle.length) :
    strstr (text.take length) needle = none := by
  cases early : strstr (text.take length) needle with
  | none => rfl
  | some earlier =>
      have same := strstr_append (text.drop length) early
      rw [List.take_append_drop, found, Option.some.injEq] at same
      have bound := strstr_add_length_le early
      rw [List.length_take] at bound
      omega

theorem Declares.atoi_take {request : Bytes} {sectionLength bodyLength length : ℕ}
    (declares : Declares request sectionLength bodyLength) (small : bodyLength < 2 ^ 31)
    (covers : sectionLength ≤ length) :
    ∃ clStr, strcasestr (request.take length) (bytes "Content-Length:") = some clStr ∧
      atoi ((request.take length).drop (clStr + 15)) = bodyLength := by
  rcases declares.number with
    ⟨clStr, blank, digits, rest, found, split, isBlank, nonempty, isDigits, stops, inside, value⟩
  have needle : (bytes "Content-Length:").length = 15 := by decide
  refine ⟨clStr, strcasestr_take found (by omega), ?_⟩
  have cut : (request.take length).drop (clStr + 15) =
      blank ++ (digits ++ rest.take (length - (clStr + 15) - blank.length - digits.length)) := by
    rw [List.drop_take, split, List.take_append, List.take_append,
      List.take_of_length_le (l := blank) (by omega),
      List.take_of_length_le (l := digits) (by omega)]
  have stopsCut : ∀ byte ∈ (rest.take
      (length - (clStr + 15) - blank.length - digits.length)).head?, isdigit byte = false := by
    intro byte first
    rw [List.head?_take] at first
    split_ifs at first
    · simp at first
    · exact stops byte first
  have denoted : scanInt ((request.take length).drop (clStr + 15)) = bodyLength := by
    rw [cut, scanInt_digits isBlank nonempty isDigits stopsCut, value]
  rw [atoi_eq_scanInt (by omega) (by omega), denoted]

/-- Exactly the whole request is judged complete. -/
theorem FramedRequest.requestComplete_take_iff {request : Bytes} {sectionLength length : ℕ}
    (framed : FramedRequest request sectionLength) (bound : length ≤ request.length) :
    requestComplete (request.take length) length = true ↔ length = request.length := by
  rcases framed.isSection with ⟨headersEnd', found, rfl⟩
  have four : headersEnd.length = 4 := by decide
  have fits := framed.fits
  by_cases short : length < headersEnd' + 4
  · have whole : headersEnd' + 4 ≤ request.length := by
      have := strstr_add_length_le found
      omega
    rw [requestComplete, strstr_take_lt found (by omega)]
    simp only [Bool.false_eq_true, false_iff]
    omega
  · simp only [requestComplete, strstr_take found (show headersEnd' + headersEnd.length ≤ length by
      omega)]
    rcases framed.isWhole with ⟨undeclared, whole⟩ | ⟨bodyLength, declares, whole⟩
    · simp only [strcasestr_take_eq_none undeclared, true_iff]
      omega
    · rw [bufferSize] at fits
      rcases declares.atoi_take (by omega) (not_lt.mp short) with ⟨clStr, declared, value⟩
      simp only [declared, value, decide_eq_true_eq]
      rw [toInt_eq_self (by omega) (by omega)]
      omega

/-! ## The run of the tasks -/

/-- A task that leaves its connection open and has answered nothing. -/
structure Waits (outcome : TaskOutcome) : Prop where
  nothingDispatched : outcome.dispatched = none
  nothingSent : outcome.actions = []
  staysOpen : outcome.closed = false
  staysActive : outcome.connection.isActive

/-- A task that answers the request and does with the connection what the request asks for. -/
structure Answers (routes : Dictionary RouteHandler) (env : Environment) (request : Bytes)
    (outcome : TaskOutcome) : Prop where
  dispatches : outcome.dispatched = some request
  acts : outcome.actions = dispatch routes env (httpRequestConstructor request)
  drained : outcome.connection.readLength = 0
  kept : keepAlive (httpRequestConstructor request) = true →
    outcome.closed = false ∧ outcome.connection.isActive = true ∧ outcome.connection.isBusy = false
  ended : keepAlive (httpRequestConstructor request) = false →
    outcome.closed = true ∧ outcome.connection.isActive = false

/-- A result that brings bytes or none, but leaves the connection alone. -/
def Arrives (result : RecvResult) : Prop :=
  result = .wouldBlock ∨ ∃ piece ≠ [], result = .received piece

theorem cstr_of_isPrefix {request pending : Bytes} (noNul : 0 ∉ request)
    (isPrefix : pending <+: request) : cstr pending = pending :=
  cstr_eq_self fun member => noNul (isPrefix.subset member)

/-- The decision after the pieces received so far. -/
theorem FramedRequest.requestComplete_iff {request pending : Bytes} {sectionLength : ℕ}
    (framed : FramedRequest request sectionLength) (isPrefix : pending <+: request) :
    requestComplete (cstr pending) pending.length = true ↔ pending.length = request.length := by
  rw [cstr_of_isPrefix framed.noNul isPrefix, ← framed.requestComplete_take_iff isPrefix.length_le,
    ← List.prefix_iff_eq_take.mp isPrefix]

section Run

variable (routes : Dictionary RouteHandler) {request : Bytes} {sectionLength : ℕ}

theorem FramedRequest.answers (framed : FramedRequest request sectionLength)
    (conn : ClientConnection) (active : conn.isActive) {last : Bytes} (nonempty : last ≠ [])
    (whole : conn.pending ++ last = request) (env : Environment) (now : ℤ) :
    ∃ outcome, threadTask routes env now conn (.received last) = some outcome ∧
      Answers routes env request outcome := by
  have length : conn.readLength + last.length = request.length := by
    rw [← whole, List.length_append, conn.length_pending]
  rcases threadTask_received routes env now nonempty
      (length ▸ framed.fits) with ⟨buffer, -, text, ran⟩
  rw [whole] at ran text
  rw [cstr_eq_self framed.noNul] at text
  rw [if_pos ((framed.requestComplete_iff List.prefix_rfl).mpr rfl)] at ran
  refine ⟨_, ran, ?_⟩
  exact
    { dispatches := by rw [dispatched_answerRequest, text]
      acts := by rw [actions_answerRequest, text]
      drained := readLength_answerRequest
      kept := fun kept => by
        rw [← text] at kept
        exact ⟨by rw [closed_answerRequest active, kept]; rfl,
          by rw [isActive_answerRequest active, kept], isBusy_answerRequest active kept⟩
      ended := fun ended => by
        rw [← text] at ended
        exact ⟨by rw [closed_answerRequest active, ended]; rfl,
          by rw [isActive_answerRequest active, ended]⟩ }

theorem FramedRequest.waits (framed : FramedRequest request sectionLength)
    (conn : ClientConnection) (active : conn.isActive) {piece rest : Bytes} (nonempty : piece ≠ [])
    (more : rest ≠ []) (whole : conn.pending ++ piece ++ rest = request) (env : Environment)
    (now : ℤ) :
    ∃ outcome, threadTask routes env now conn (.received piece) = some outcome ∧ Waits outcome ∧
      outcome.connection.pending = conn.pending ++ piece := by
  have positive : 0 < rest.length := List.length_pos_iff.mpr more
  have length : conn.readLength + piece.length + rest.length = request.length := by
    rw [← whole, List.length_append, List.length_append, conn.length_pending]
  have isPrefix : conn.pending ++ piece <+: request := ⟨rest, whole⟩
  have fits := framed.fits
  rcases threadTask_received routes env now nonempty
      (show conn.readLength + piece.length < bufferSize by omega) with ⟨buffer, pendingEq, -, ran⟩
  have incomplete : ¬requestComplete (cstr (conn.pending ++ piece))
      (conn.pending ++ piece).length = true := by
    rw [framed.requestComplete_iff isPrefix, List.length_append, conn.length_pending]
    omega
  rw [if_neg incomplete] at ran
  exact ⟨_, ran, ⟨rfl, rfl, rfl, active⟩, pendingEq⟩

theorem runTasks_cons {conn : ClientConnection} (active : conn.isActive) {arrival : Arrival}
    {outcome : TaskOutcome} {arrivals : List Arrival} {outcomes : List TaskOutcome}
    (ran : threadTask routes arrival.env arrival.now { conn with isBusy := true }
      arrival.result = some outcome)
    (rest : runTasks routes outcome.connection arrivals = some outcomes) :
    runTasks routes conn (arrival :: arrivals) = some (outcome :: outcomes) := by
  rw [runTasks, if_pos active, ran, Option.bind_some, rest, Option.map_some]

theorem FramedRequest.runTasks_spec (framed : FramedRequest request sectionLength)
    {early : List Arrival} (arrives : ∀ arrival ∈ early, Arrives arrival.result)
    {last : Bytes} (nonempty : last ≠ []) (env : Environment) (now : ℤ)
    {conn : ClientConnection} (active : conn.isActive)
    (whole : conn.pending ++ ((pieces (early.map Arrival.result)).flatten ++ last) = request) :
    ∃ waiting final,
      runTasks routes conn (early ++ [⟨.received last, env, now⟩]) = some (waiting ++ [final]) ∧
        waiting.length = early.length ∧ (∀ outcome ∈ waiting, Waits outcome) ∧
        Answers routes env request final := by
  induction early generalizing conn with
  | nil =>
      rcases framed.answers routes { conn with isBusy := true } active
          nonempty whole env now with ⟨outcome, ran, answers⟩
      exact ⟨[], outcome, runTasks_cons routes active ran rfl, rfl, by simp, answers⟩
  | cons arrival early ih =>
      have step : ∃ outcome, threadTask routes arrival.env arrival.now
          { conn with isBusy := true } arrival.result = some outcome ∧ Waits outcome ∧
          outcome.connection.pending ++
            ((pieces (early.map Arrival.result)).flatten ++ last) = request := by
        rcases arrives arrival List.mem_cons_self with blocked | ⟨piece, visible, received⟩
        · rw [blocked]
          refine ⟨_, rfl, ⟨rfl, rfl, rfl, active⟩, ?_⟩
          simpa [pieces, blocked] using whole
        · have more : (pieces (early.map Arrival.result)).flatten ++ last ≠ [] := by
            simp [nonempty]
          have cut : conn.pending ++ piece ++
              ((pieces (early.map Arrival.result)).flatten ++ last) = request := by
            simpa [pieces, received] using whole
          rcases framed.waits routes { conn with isBusy := true } active
              visible more cut arrival.env arrival.now with ⟨outcome, ran, waits, pendingEq⟩
          rw [received]
          exact ⟨outcome, ran, waits, by rw [pendingEq]; exact cut⟩
      rcases step with ⟨outcome, ran, waits, remaining⟩
      rcases ih (fun other member => arrives other (List.mem_cons_of_mem _ member))
          waits.staysActive remaining with ⟨waiting, final, rest, length, allWait, answers⟩
      refine ⟨outcome :: waiting, final, runTasks_cons routes active ran rest, by simp [length], ?_,
        answers⟩
      intro other member
      rcases List.mem_cons.mp member with rfl | member
      · exact waits
      · exact allWait other member

end Run

/--
However a framed request is cut into pieces, and whatever `EAGAIN` results come
between them, the tasks of a slot that starts empty dispatch it once, with the
last piece, and leave the slot empty.
-/
theorem framedRequest_dispatched_once {routes : Dictionary RouteHandler} {request : Bytes}
    {sectionLength : ℕ} (framed : FramedRequest request sectionLength)
    {conn : ClientConnection} (active : conn.isActive) (fresh : conn.readLength = 0)
    {early : List Arrival} (arrives : ∀ arrival ∈ early, Arrives arrival.result) {last : Bytes}
    (nonempty : last ≠ []) (env : Environment) (now : ℤ)
    (cut : (pieces (early.map Arrival.result)).flatten ++ last = request) :
    ∃ waiting final,
      runTasks routes conn (early ++ [⟨.received last, env, now⟩]) = some (waiting ++ [final]) ∧
        waiting.length = early.length ∧ (∀ outcome ∈ waiting, Waits outcome) ∧
        Answers routes env request final := by
  have empty : conn.pending = [] := by
    rw [ReadBuffer.pending, fresh, List.take_zero]
  exact framed.runTasks_spec routes arrives nonempty env now active
    (by rw [empty, List.nil_append, cut])

/-- A request with a body, cut inside the number and inside the empty line. -/
def cutRequest : Bytes := bytes "POST /a HTTP/1.1\r\nContent-Length: 12\r\n\r\nhello, world"

theorem cutRequest_declares : Declares cutRequest 40 12 where
  number := by
    refine ⟨18, bytes " ", bytes "12", bytes "\r\n\r\nhello, world", ?_⟩
    decide +kernel

theorem cutRequest_framed : FramedRequest cutRequest 40 where
  noNul := by decide
  fits := by decide
  isSection := ⟨36, by decide +kernel, rfl⟩
  isWhole := Or.inr ⟨12, cutRequest_declares, by decide⟩

theorem cutRequest_dispatched_once :
    ∃ waiting final,
      runTasks dictionaryConstructor freshConnection
          ([⟨.received (cutRequest.take 35), idle, 0⟩, ⟨.wouldBlock, idle, 1⟩,
            ⟨.received ((cutRequest.drop 35).take 3), idle, 2⟩] ++
            [⟨.received (cutRequest.drop 38), idle, 3⟩]) = some (waiting ++ [final]) ∧
        waiting.length = 3 ∧ (∀ outcome ∈ waiting, Waits outcome) ∧
        Answers dictionaryConstructor idle cutRequest final :=
  framedRequest_dispatched_once cutRequest_framed rfl rfl
    (by
      simp only [List.mem_cons, List.not_mem_nil, or_false]
      rintro arrival (rfl | rfl | rfl)
      · exact Or.inr ⟨_, by decide, rfl⟩
      · exact Or.inl rfl
      · exact Or.inr ⟨_, by decide, rfl⟩)
    (by decide) idle 3 (by decide)

end LetUsConnect
