import LetUsConnect.Connection.Framing

/-!
# The validation of the declared length

The worker compares what it has received with the sum of two `int` values and
does not look at the sign. A request goes to its handler without the declared
body when the length is negative, when the sum wraps, and when the number the
worker reads is not the declared one.
-/

namespace LetUsConnect

open CString HTTPRequest

/-- The handler the worker calls for a request. -/
def routeHandler (routes : Dictionary RouteHandler) (request : HTTPRequest) :
    Option RouteHandler :=
  (request.uri.bind routes.searchDict).or (routes.searchDict (bytes "*"))

theorem dispatch_eq_routeHandler (routes : Dictionary RouteHandler) (env : Environment)
    (request : HTTPRequest) : dispatch routes env request =
      (routeHandler routes request).elim (sendError 404) fun handler => handler env request := by
  rw [dispatch, routeHandler]
  cases request.uri.bind routes.searchDict with
  | some handler => rfl
  | none => cases routes.searchDict (bytes "*") <;> rfl

/-- The task ends with a call of a route handler. -/
def HandsOver (routes : Dictionary RouteHandler) (outcome : TaskOutcome) : Prop :=
  ∃ text, outcome.dispatched = some text ∧
    (routeHandler routes (httpRequestConstructor text)).isSome

/-- The length is not negative and that many bytes follow the header section. -/
def BodyReceived (sectionLength readLength : ℕ) (length : ℤ) : Prop :=
  0 ≤ length ∧ sectionLength + length ≤ readLength

/--
The number the worker adds to the length of the section is more than what
follows the section, and small enough for the sum to fit an `int`.
-/
def WaitsFor (sectionLength readLength : ℕ) (number : ℤ) : Prop :=
  readLength - sectionLength < number ∧ number < 2 ^ 31 - sectionLength

/-- The worker reads the declared length, and an `int` can hold it. -/
structure ReadsDeclared (text : Bytes) (length : ℤ) : Prop where
  isName : ∃ clStr line, strcasestr text (bytes "Content-Length:") = some clStr ∧
    declarationLine text = some line ∧ IsNameOf text line clStr
  low : -2 ^ 31 ≤ length
  high : length < 2 ^ 31

/--
When the declared length is checked before the request goes to a handler. A
length the worker reads as declared has to leave room for the header section in
an `int` and must not be negative.
-/
def LengthChecked (text : Bytes) (sectionLength readLength : ℕ) (length : ℤ) : Prop :=
  (ReadsDeclared text length ∧ 0 ≤ length ∧ length < 2 ^ 31 - sectionLength) ∨
    (¬ReadsDeclared text length ∧
      (BodyReceived sectionLength readLength length ∨
        ∃ number ∈ awaitedLength text, WaitsFor sectionLength readLength number))

theorem ReadsDeclared.awaitedLength_eq {text : Bytes} {length : ℤ}
    (reads : ReadsDeclared text length) (declared : declaredLength text = some length) :
    awaitedLength text = some length := by
  rcases reads.isName with ⟨clStr, line, found, declares, isName⟩
  rw [declaredLength_eq, declares, Option.map_some, Option.some.injEq] at declared
  have same := isName.scanInt_drop
  rw [declared] at same
  rw [awaitedLength, found, Option.map_some, Option.some.injEq]
  rw [atoi_eq_scanInt (by rw [same]; exact reads.low) (by rw [same]; exact reads.high), same]

/-- The comparison of the worker in exact integers. -/
theorem toInt_add_le_iff {sectionLength readLength : ℕ} {number : ℤ}
    (covered : sectionLength ≤ readLength) (bounded : readLength < bufferSize)
    (low : -2 ^ 31 ≤ number) (high : number < 2 ^ 31) :
    toInt (sectionLength + number) ≤ readLength ↔
      ¬WaitsFor sectionLength readLength number := by
  rw [bufferSize] at bounded
  rw [WaitsFor]
  by_cases fits : sectionLength + number < 2 ^ 31
  · rw [toInt_eq_self (by omega) fits]
    omega
  · rw [toInt_eq_sub (by omega) (by omega)]
    omega

section Received

variable {routes : Dictionary RouteHandler} {env : Environment} {now : ℤ}
  {conn : ClientConnection} {piece : Bytes} {buffer : ReadBuffer} {outcome : TaskOutcome}
  {sectionEnd : ℕ} {length : ℤ}

theorem section_le_readLength (received : conn.receive piece = some buffer)
    (isSection : strstr buffer.text headersEnd = some sectionEnd) :
    sectionEnd + 4 ≤ buffer.readLength := by
  have spec := ReadBuffer.receive_spec received
  have covered := strstr_add_length_le isSection
  have shorter := (cstr_isPrefix (conn.pending ++ piece)).length_le
  rw [← spec.1, buffer.length_pending, spec.1, ← spec.2] at shorter
  have four : headersEnd.length = 4 := rfl
  omega

theorem threadTask_of_receive (routes : Dictionary RouteHandler) (env : Environment) (now : ℤ)
    (nonempty : piece ≠ []) (received : conn.receive piece = some buffer) :
    threadTask routes env now conn (.received piece) = some
      (if requestComplete buffer.text buffer.readLength then
        answerRequest routes env now conn buffer
      else awaitRest now conn buffer) := by
  cases piece with
  | nil => exact absurd rfl nonempty
  | cons byte piece =>
      rw [threadTask, received, Option.map_some]
      simp

/-- A handler is called when there is one and the worker does not wait. -/
theorem handsOver_iff (received : conn.receive piece = some buffer)
    (ran : threadTask routes env now conn (.received piece) = some outcome)
    (isSection : strstr buffer.text headersEnd = some sectionEnd) :
    HandsOver routes outcome ↔
      (routeHandler routes (httpRequestConstructor buffer.text)).isSome ∧
        ∀ number ∈ awaitedLength buffer.text,
          ¬WaitsFor (sectionEnd + 4) buffer.readLength number := by
  have covered := section_le_readLength received isSection
  have complete : requestComplete buffer.text buffer.readLength = true ↔
      ∀ number ∈ awaitedLength buffer.text,
        ¬WaitsFor (sectionEnd + 4) buffer.readLength number := by
    rw [requestComplete_iff]
    simp only [isSection, Option.some.injEq, exists_eq_left']
    apply forall₂_congr
    intro number isNumber
    have bounds : -2 ^ 31 ≤ number ∧ number < 2 ^ 31 := by
      rcases Option.map_eq_some_iff.mp isNumber with ⟨clStr, -, rfl⟩
      exact atoi_bounds _
    simpa using toInt_add_le_iff covered buffer.readLength_lt bounds.1 bounds.2
  have nonempty : piece ≠ [] := by
    rintro rfl
    simp [threadTask] at ran
  rw [threadTask_of_receive routes env now nonempty received, Option.some.injEq] at ran
  rw [← complete, ← ran]
  by_cases isComplete : requestComplete buffer.text buffer.readLength
  · simp [HandsOver, isComplete]
  · simp [HandsOver, isComplete, awaitRest]

/--
A received request goes to a handler only with its declared body exactly when
there is no handler or the length is one the worker checks.
-/
theorem contentLength_validated_iff (received : conn.receive piece = some buffer)
    (ran : threadTask routes env now conn (.received piece) = some outcome)
    (isSection : strstr buffer.text headersEnd = some sectionEnd)
    (declared : declaredLength buffer.text = some length) :
    (HandsOver routes outcome → BodyReceived (sectionEnd + 4) buffer.readLength length) ↔
      (routeHandler routes (httpRequestConstructor buffer.text)).isNone ∨
        LengthChecked buffer.text (sectionEnd + 4) buffer.readLength length := by
  have covered := section_le_readLength received isSection
  have bounded := buffer.readLength_lt
  rw [handsOver_iff received ran isSection]
  cases handler : routeHandler routes (httpRequestConstructor buffer.text) with
  | none => simp
  | some handler =>
      simp only [Option.isSome_some, true_and, Option.isNone_some, Bool.false_eq_true, false_or,
        LengthChecked]
      by_cases reads : ReadsDeclared buffer.text length
      · have awaited := reads.awaitedLength_eq declared
        have low := reads.low
        simp only [awaited, Option.mem_def, Option.some.injEq, forall_eq', reads, true_and,
          not_true_eq_false, false_and, or_false, WaitsFor, BodyReceived, bufferSize] at bounded ⊢
        omega
      · simp only [reads, false_and, not_false_eq_true, true_and, false_or]
        by_cases waits : ∃ number ∈ awaitedLength buffer.text,
            WaitsFor (sectionEnd + 4) buffer.readLength number
        · simp only [waits, or_true, iff_true]
          intro none_
          rcases waits with ⟨number, isNumber, waits⟩
          exact absurd waits (none_ number isNumber)
        · simp only [waits, or_false]
          push Not at waits
          exact ⟨fun body => body waits, fun body _ => body⟩

end Received

/-! ## A negative length -/

theorem receive_freshConnection {piece : Bytes} (fits : piece.length < bufferSize)
    (noNul : 0 ∉ piece) : ∃ buffer, freshConnection.receive piece = some buffer ∧
      buffer.text = piece ∧ buffer.readLength = piece.length := by
  have empty : freshConnection.pending = [] := rfl
  have inside : freshConnection.readLength + piece.length < bufferSize := by
    change 0 + piece.length < bufferSize
    rwa [Nat.zero_add]
  rcases ReadBuffer.exists_receive inside with ⟨buffer, received⟩
  have spec := ReadBuffer.receive_spec received
  rw [empty, List.nil_append] at spec
  refine ⟨buffer, received, ?_, ?_⟩
  · rw [spec.2, cstr_eq_self noNul]
  · rw [← buffer.length_pending, spec.1]

/-- A request that is received with its body. -/
def threeByteRequest : Bytes := bytes "POST /a HTTP/1.1\r\nContent-Length: 3\r\n\r\nabc"

theorem threeByteRequest_validated :
    ∃ buffer outcome, freshConnection.receive threeByteRequest = some buffer ∧
      threadTask Routes.ofMain.dictionary idle 0 freshConnection (.received threeByteRequest) =
        some outcome ∧
      ((HandsOver Routes.ofMain.dictionary outcome → BodyReceived 39 buffer.readLength 3) ↔
        (routeHandler Routes.ofMain.dictionary (httpRequestConstructor buffer.text)).isNone ∨
          LengthChecked buffer.text 39 buffer.readLength 3) := by
  have short : threeByteRequest.length < bufferSize := by decide
  have noNul : 0 ∉ threeByteRequest := by decide
  have nonempty : threeByteRequest ≠ [] := by decide
  rcases receive_freshConnection short noNul with ⟨buffer, received, text, -⟩
  have isSection : strstr buffer.text headersEnd = some 35 := by
    rw [text]
    decide
  have declared : declaredLength buffer.text = some 3 := by
    rw [text]
    decide
  have ran := threadTask_of_receive Routes.ofMain.dictionary idle 0 nonempty received
  exact ⟨buffer, _, received, ran, contentLength_validated_iff received ran isSection declared⟩

/-- A request with a length below zero. -/
def negativeRequest : Bytes :=
  bytes "POST /submit HTTP/1.1\r\nContent-Length: -9999\r\n\r\ndata=exploit"

/-- The request with the negative length reaches the handler. -/
theorem negativeRequest_handedOver :
    ¬∀ (routes : Dictionary RouteHandler) (env : Environment) (now : ℤ)
      (conn : ClientConnection) (piece : Bytes) (buffer : ReadBuffer) (outcome : TaskOutcome)
      (sectionEnd : ℕ) (length : ℤ),
        conn.receive piece = some buffer →
        threadTask routes env now conn (.received piece) = some outcome →
        strstr buffer.text headersEnd = some sectionEnd →
        declaredLength buffer.text = some length → HandsOver routes outcome →
        BodyReceived (sectionEnd + 4) buffer.readLength length := by
  intro validated
  have short : negativeRequest.length < bufferSize := by decide
  have noNul : 0 ∉ negativeRequest := by decide
  have nonempty : negativeRequest ≠ [] := by decide
  rcases receive_freshConnection short noNul with ⟨buffer, received, text, readLength⟩
  have isSection : strstr buffer.text headersEnd = some 44 := by
    rw [text]
    decide
  have declared : declaredLength buffer.text = some (-9999) := by
    rw [text]
    decide
  have ran := threadTask_of_receive Routes.ofMain.dictionary idle 0 nonempty received
  have awaited : awaitedLength buffer.text = some (-9999) := by
    rw [text]
    decide
  have handed := (handsOver_iff received ran isSection).mpr ⟨by rw [text]; decide, by
    rw [awaited, readLength]
    rintro number ⟨rfl⟩ ⟨longer, -⟩
    exact absurd longer (by decide)⟩
  exact absurd (validated _ _ _ _ _ _ _ _ _ received ran isSection declared handed).1 (by decide)

end LetUsConnect
