import LetUsConnect.Connection.Framing

/-!
# Several requests in one buffer

The worker dispatches everything it has received as one request and then empties
the buffer. The parser takes all text after the header section as the body, up
to the first NUL byte. What was received is therefore preserved only when it is
exactly one request without NUL bytes in its body.
-/

namespace LetUsConnect

open CString

/-- The length of the body a text declares; zero when it declares none. -/
def bodyLength (text : Bytes) : ℤ := (declaredLength text).getD 0

/-- A text that is exactly one request with its declared body. -/
structure IsRequest (text : Bytes) : Prop where
  noNul : 0 ∉ text
  isWhole : ∃ headersEnd' length : ℕ, strstr text headersEnd = some headersEnd' ∧
    bodyLength text = length ∧ text.length = headersEnd' + 4 + length

/--
No byte of what was received is lost or misattributed by the dispatch of `text`:
the handler gets the declared body, the bytes after it stay in the buffer, and
`text` is the first request.
-/
structure Preserves (received text : Bytes) (outcome : TaskOutcome)
    (sectionLength length : ℕ) : Prop where
  body : (httpRequestConstructor text).data.getD [] = (received.drop sectionLength).take length
  retained : outcome.connection.pending = received.drop (sectionLength + length)
  inOrder : ∀ first rest, IsRequest first → received = first ++ rest → text = first

theorem headerPart_append {text : Bytes} {headersEnd' : ℕ}
    (found : strstr text headersEnd = some headersEnd') (rest : Bytes) :
    headerPart (text ++ rest) = headerPart text := by
  have fits := strstr_add_length_le found
  rw [headerPart, headerPart, found, strstr_append rest found]
  dsimp only
  rw [List.take_append_of_le_length (by omega)]

theorem bodyLength_append {text : Bytes} {headersEnd' : ℕ}
    (found : strstr text headersEnd = some headersEnd') (rest : Bytes) :
    bodyLength (text ++ rest) = bodyLength text := by
  have fields : headersPart (text ++ rest) = headersPart text := by
    rw [headersPart, headersPart, headerPart_append found]
  rw [bodyLength, bodyLength, declaredLength_eq, declaredLength_eq, declarationLine,
    declarationLine, fields]

theorem data_getD (text : Bytes) : (httpRequestConstructor text).data.getD [] = bodyPart text := by
  rw [data_httpRequestConstructor]
  split_ifs with empty
  · rw [empty]
    rfl
  · rfl

theorem threadTask_received_dispatched {routes : Dictionary RouteHandler} {env : Environment}
    {now : ℤ} {conn : ClientConnection} {piece : Bytes} {outcome : TaskOutcome} {text : Bytes}
    (ran : threadTask routes env now conn (.received piece) = some outcome)
    (dispatched : outcome.dispatched = some text) :
    text = cstr (conn.pending ++ piece) ∧ outcome.connection.pending = [] := by
  have nonempty : piece ≠ [] := by
    rintro rfl
    simp [threadTask] at ran
  have fits : conn.readLength + piece.length < bufferSize := by
    cases piece with
    | nil => exact absurd rfl nonempty
    | cons byte piece =>
        rw [threadTask, Option.map_eq_some_iff] at ran
        · rcases ran with ⟨buffer, received, -⟩
          exact ReadBuffer.fits_of_receive received
        · simp
  rcases threadTask_received routes env now nonempty fits with
    ⟨buffer, -, isText, equal⟩
  rw [ran, Option.some.injEq] at equal
  split_ifs at equal with complete
  · subst equal
    rw [dispatched_answerRequest, Option.some.injEq] at dispatched
    exact ⟨dispatched ▸ isText, by
      rw [ReadBuffer.pending, readLength_answerRequest, List.take_zero]⟩
  · subst equal
    simp [awaitRest] at dispatched

/--
For a dispatched buffer that holds a request and `surplus` bytes more, nothing is
lost or misattributed exactly when there is no surplus and no NUL in the body.
-/
theorem preserves_iff {routes : Dictionary RouteHandler} {env : Environment} {now : ℤ}
    {conn : ClientConnection} {piece : Bytes} {outcome : TaskOutcome} {text : Bytes}
    {headersEnd' length surplus : ℕ}
    (ran : threadTask routes env now conn (.received piece) = some outcome)
    (dispatched : outcome.dispatched = some text)
    (isSection : strstr text headersEnd = some headersEnd')
    (declares : bodyLength text = length)
    (holds : (conn.pending ++ piece).length = headersEnd' + 4 + length + surplus) :
    Preserves (conn.pending ++ piece) text outcome (headersEnd' + 4) length ↔
      surplus = 0 ∧ 0 ∉ ((conn.pending ++ piece).drop (headersEnd' + 4)).take length := by
  rcases threadTask_received_dispatched ran dispatched with ⟨rfl, emptied⟩
  generalize conn.pending ++ piece = received at *
  have four : headersEnd.length = 4 := by decide
  have covered := strstr_add_length_le isSection
  have isPrefix := cstr_isPrefix received
  have bodyEq : bodyPart (cstr received) = (cstr received).drop (headersEnd' + 4) := by
    rw [bodyPart, isSection]
  constructor
  · intro preserves
    have surplusZero : surplus = 0 := by
      have retained := preserves.retained
      rw [emptied, eq_comm, List.drop_eq_nil_iff] at retained
      omega
    refine ⟨surplusZero, ?_⟩
    have body := preserves.body
    rw [data_getD, bodyEq] at body
    rw [← body]
    exact fun member => zero_notMem_cstr received (List.mem_of_mem_drop member)
  · rintro ⟨rfl, noNul⟩
    have whole : 0 ∉ received := by
      intro member
      rw [← List.take_append_drop (headersEnd' + 4) received, List.mem_append] at member
      rcases member with inHeader | inBody
      · have same : received.take (headersEnd' + 4) = (cstr received).take (headersEnd' + 4) := by
          rcases isPrefix with ⟨rest, split⟩
          conv_lhs => rw [← split]
          exact List.take_append_of_le_length (by omega)
        rw [same] at inHeader
        exact zero_notMem_cstr received (List.mem_of_mem_take inHeader)
      · rw [List.take_of_length_le (by rw [List.length_drop]; omega)] at noNul
        exact noNul inBody
    have text : cstr received = received := cstr_eq_self whole
    rw [text] at isSection bodyEq ⊢
    exact
      { body := by
          rw [data_getD, bodyEq, List.take_of_length_le (by rw [List.length_drop]; omega)]
        retained := by
          rw [emptied, List.drop_of_length_le (by omega)]
        inOrder := by
          rintro first rest isRequest rfl
          rcases isRequest.isWhole with ⟨ownEnd, ownLength, ownSection, ownDeclares, ownWhole⟩
          have sameEnd := strstr_append rest ownSection
          rw [isSection, Option.some.injEq] at sameEnd
          rw [text, bodyLength_append ownSection, ownDeclares] at declares
          rw [List.length_append] at holds
          have nothing : rest = [] := List.length_eq_zero_iff.mp (by omega)
          rw [nothing, List.append_nil] }

theorem pending_freshConnection : freshConnection.pending = [] := rfl

/-- A request to store the three bytes of its body. -/
def bodyRequest : Bytes := bytes "POST /a HTTP/1.1\r\nContent-Length: 3\r\n\r\na=b"

theorem bodyRequest_preserved :
    ∃ outcome, threadTask Routes.ofMain.dictionary idle 0 freshConnection
        (.received bodyRequest) = some outcome ∧
      (Preserves (freshConnection.pending ++ bodyRequest) bodyRequest outcome 39 3 ↔
        0 = 0 ∧ 0 ∉ ((freshConnection.pending ++ bodyRequest).drop 39).take 3) := by
  have fresh : freshConnection.readLength = 0 := rfl
  have nonempty : bodyRequest ≠ [] := by decide
  rcases threadTask_complete Routes.ofMain.dictionary idle 0 fresh nonempty (by decide)
      (by decide) (by decide) with ⟨buffer, text, ran⟩
  have isSection : strstr bodyRequest headersEnd = some 35 := by decide
  refine ⟨_, ran, preserves_iff ran ?_ isSection (by decide) ?_⟩
  · rw [dispatched_answerRequest, text]
  · rw [pending_freshConnection]
    decide

/-- The shortest request a client can send twice at once. -/
def shortRequest : Bytes := bytes "GET / HTTP/1.1\r\n\r\n"

theorem shortRequest_isRequest : IsRequest shortRequest where
  noNul := by decide
  isWhole := ⟨14, 0, by decide, by decide, by decide⟩

/-- Two requests that arrive together are dispatched as one, and the second is lost. -/
theorem secondRequest_lost :
    ¬∀ (routes : Dictionary RouteHandler) (env : Environment) (now : ℤ)
      (conn : ClientConnection) (piece : Bytes) (outcome : TaskOutcome) (text : Bytes)
      (headersEnd' length surplus : ℕ),
        threadTask routes env now conn (.received piece) = some outcome →
        outcome.dispatched = some text → strstr text headersEnd = some headersEnd' →
        bodyLength text = length →
        (conn.pending ++ piece).length = headersEnd' + 4 + length + surplus →
        Preserves (conn.pending ++ piece) text outcome (headersEnd' + 4) length := by
  intro preserves
  have fresh : freshConnection.readLength = 0 := rfl
  have nonempty : shortRequest ++ shortRequest ≠ [] := by decide
  rcases threadTask_complete Routes.ofMain.dictionary idle 0 fresh nonempty (by decide)
      (by decide) (by decide) with ⟨buffer, text, ran⟩
  have both := preserves _ _ _ _ _ _ _ 14 0 18 ran (by rw [dispatched_answerRequest, text])
    (by decide) (by decide) (by rw [pending_freshConnection]; decide)
  have first := both.inOrder shortRequest shortRequest shortRequest_isRequest rfl
  exact absurd first (by decide)

end LetUsConnect
