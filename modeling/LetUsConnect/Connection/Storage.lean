import LetUsConnect.Connection.Pipelining
import LetUsConnect.Connection.Validation
import LetUsConnect.Handler.PostData

/-!
# What a 201 answer means

The `POST` branch answers 201 whatever `open` and `write` return, and it writes
the body up to its first NUL. The answer is true when the two writes together
append the declared bytes and a line feed.
-/

namespace LetUsConnect

open CString HTTPRequest

/-- The status line of the answer has this status. -/
def AnswersWith (actions : List Action) (code : ℕ) : Prop :=
  ∃ buffer len, Action.sendHead buffer len ∈ actions ∧
    bytes "HTTP/1.1 " ++ decimal code ++ bytes " " <+: buffer

/-- The first `length` of these bytes and a line feed are appended, and nothing else. -/
def StoresRecord (received : Bytes) (length : ℕ) (actions : List Action) : Prop :=
  ∃ body, body.length = length ∧ body <+: received ∧ appended actions = body ++ bytes "\n"

/-- 201 is only answered when the record is stored, and an error otherwise. -/
structure CreatedMeansStored (received : Bytes) (length : ℕ) (actions : List Action) :
    Prop where
  stored : AnswersWith actions 201 → StoresRecord received length actions
  refused : ¬StoresRecord received length actions → ∃ code ∈ errorCodes, AnswersWith actions code

/--
`open` succeeds, the first `write` appends the declared length and the second
the line feed; or the first `write` reaches a line feed that happens to follow
the declared bytes, and the second appends nothing.
-/
def WritesRecord (env : Environment) (body : Bytes) (length : ℕ) : Prop :=
  (env.openFile postDataPath).isSome ∧
    (((body.take ((env.write 0).getD 0)).length = length ∧ 0 < (env.write 1).getD 0) ∨
      ((body.take ((env.write 0).getD 0)).length = length + 1 ∧
        body[length]? = some (ch '\n') ∧ (env.write 1).getD 0 = 0))

/-! ## Statuses -/

section Status

variable {env : Environment} {request : HTTPRequest}

theorem answersWith_sendError {code : ℕ} (used : code ∈ errorCodes) (rest : List Action) :
    AnswersWith (sendError code ++ rest) code := by
  refine ⟨errorHead code, _, by rw [sendError_eq used]; exact List.mem_cons_self, ?_⟩
  simp only [errorHead, headText, headLines, withLineEnds, List.flatMap_cons, List.append_assoc]
  exact ⟨_, by simp only [List.append_assoc]; rfl⟩

theorem not_created_sendError {code : ℕ} (used : code ∈ errorCodes) {rest : List Action}
    (noHeads : ∀ buffer len, Action.sendHead buffer len ∉ rest) :
    ¬AnswersWith (sendError code ++ rest) 201 := by
  have starts : ∀ code ∈ errorCodes, ¬createdStatus <+: errorHead code := by decide
  rintro ⟨buffer, len, member, created⟩
  rw [sendError_eq used] at member
  simp only [List.cons_append, List.nil_append, List.mem_cons, reduceCtorEq, false_or,
    Action.sendHead.injEq] at member
  rcases member with ⟨rfl, -⟩ | member
  · exact starts code used created
  · exact noHeads _ _ member

theorem createdMeansStored_sendError {code : ℕ} (used : code ∈ errorCodes) {rest : List Action}
    (noHeads : ∀ buffer len, Action.sendHead buffer len ∉ rest) (received : Bytes) (length : ℕ) :
    CreatedMeansStored received length (sendError code ++ rest) where
  stored := fun created => absurd created (not_created_sendError used noHeads)
  refused := fun _ => ⟨code, used, answersWith_sendError used rest⟩

theorem createdMeansStored_refuse {code : ℕ} (used : code ∈ errorCodes) (received : Bytes)
    (length : ℕ) : CreatedMeansStored received length (refuse env request code) :=
  createdMeansStored_sendError used (by simp) received length

theorem answersWith_handlePost {uri : Bytes} (declared : (request.header "content-length").isSome) :
    AnswersWith (handlePost env request uri) 201 :=
  ⟨_, _, (sendHead_mem_handlePost_iff declared).mpr ⟨rfl, rfl⟩, List.prefix_append _ _⟩

end Status

/-! ## What is stored -/

theorem storesRecord_handlePost_iff {env : Environment} {request : HTTPRequest} {uri : Bytes}
    (declared : (request.header "content-length").isSome) {received : Bytes}
    (isPrefix : request.data.getD [] <+: received) (length : ℕ) :
    StoresRecord received length (handlePost env request uri) ↔
      WritesRecord env (request.data.getD []) length := by
  generalize isBody : request.data.getD [] = body at isPrefix
  rw [StoresRecord, WritesRecord, appended_handlePost declared, isBody]
  cases opened : (env.openFile postDataPath).isSome with
  | false => simp [bytes]
  | true =>
      simp only [if_true, true_and]
      generalize (env.write 0).getD 0 = bodyCount
      generalize (env.write 1).getD 0 = feedCount
      rcases feedCount with _ | feedCount
      · simp only [List.take_zero, List.append_nil, Nat.lt_irrefl, and_false, and_true, false_or]
        constructor
        · rintro ⟨record, rfl, -, isRecord⟩
          refine ⟨by rw [isRecord]; simp [bytes], ?_⟩
          have fits : record.length < (body.take bodyCount).length := by
            rw [isRecord]
            simp [bytes]
          have last : (body.take bodyCount)[record.length]? = some (ch '\n') := by
            rw [isRecord]
            simp [bytes]
          rw [List.length_take] at fits
          rwa [List.getElem?_take_of_lt (by omega)] at last
        · rintro ⟨count, last⟩
          rw [List.length_take] at count
          refine ⟨body.take length, ?_, (List.take_prefix _ _).trans isPrefix, ?_⟩
          · rw [List.length_take]
            omega
          · have whole : body.take bodyCount = body.take (length + 1) := by
              rw [List.take_eq_take_iff]
              omega
            rw [whole, List.take_add_one, last]
            rfl
      · have feed : (bytes "\n").take (feedCount + 1) = bytes "\n" := by
          rw [List.take_of_length_le]
          simp [bytes]
        rw [feed]
        simp only [Nat.succ_pos, and_true, Nat.succ_ne_zero, and_false, or_false,
          List.append_left_inj]
        constructor
        · rintro ⟨record, rfl, -, isRecord⟩
          rw [isRecord]
        · intro count
          exact ⟨_, count, (List.take_prefix _ _).trans isPrefix, rfl⟩

section Received

variable {routes : Routes} {env : Environment} {now : ℤ} {conn : ClientConnection} {piece : Bytes}
  {buffer : ReadBuffer} {outcome : TaskOutcome} {text : Bytes} {sectionEnd length : ℕ}

theorem bodyPart_isPrefix (received : conn.receive piece = some buffer)
    (isSection : strstr buffer.text headersEnd = some sectionEnd) :
    bodyPart buffer.text <+: buffer.pending.drop (sectionEnd + 4) := by
  have spec := ReadBuffer.receive_spec received
  simp only [bodyPart, isSection]
  rw [spec.2, spec.1]
  exact (cstr_isPrefix _).drop _

/--
For a `POST` with a declared length, a 201 answer is true exactly when the
request is not answered with 201 or both writes append what they should.
-/
theorem created_means_stored_iff (received : conn.receive piece = some buffer)
    (ran : threadTask routes.dictionary env now conn (.received piece) = some outcome)
    (dispatched : outcome.dispatched = some buffer.text)
    (isSection : strstr buffer.text headersEnd = some sectionEnd)
    (isPost : (httpRequestConstructor buffer.text).method = some (bytes "POST"))
    (declared : declaredLength buffer.text = some (length : ℤ)) :
    CreatedMeansStored (buffer.pending.drop (sectionEnd + 4)) length outcome.actions ↔
      routes.handles (httpRequestConstructor buffer.text) = false ∨
        (∀ uri, ¬Accepted (httpRequestConstructor buffer.text) uri) ∨
          WritesRecord env (bodyPart buffer.text) length := by
  have isPrefix := bodyPart_isPrefix received isSection
  have hasLength : ((httpRequestConstructor buffer.text).header "content-length").isSome := by
    rw [← Option.isSome_map (f := scanInt), ← declaredLength, declared]
    rfl
  have body := data_getD buffer.text
  rcases eq_answerRequest_of_dispatched ran dispatched with ⟨own, ownText, rfl⟩
  rw [actions_answerRequest, ownText, routes.dispatch_eq]
  generalize httpRequestConstructor buffer.text = request at *
  cases handled : routes.handles request with
  | false =>
      simp only [Bool.false_eq_true, if_false, true_or, iff_true]
      have refused : CreatedMeansStored (buffer.pending.drop (sectionEnd + 4)) length
          (sendError 404 ++ []) := createdMeansStored_sendError (by decide) (by simp) _ _
      simpa using refused
  | true =>
      simp only [if_true, Bool.true_eq_false, false_or]
      by_cases accepted : ∃ uri, Accepted request uri
      · rcases accepted with ⟨uri, accepted⟩
        have stores : StoresBody request uri := ⟨accepted, isPost, hasLength⟩
        have notRefused : ¬∀ uri, ¬Accepted request uri := fun none_ => none_ uri accepted
        simp only [notRefused, false_or]
        rw [handleFilesystemRequest_of_storesBody stores, ← body,
          ← @storesRecord_handlePost_iff _ request uri hasLength _ (body ▸ isPrefix)]
        constructor
        · exact fun meansStored => meansStored.stored (answersWith_handlePost hasLength)
        · exact fun stored => ⟨fun _ => stored, fun notStored => absurd stored notStored⟩
      · rw [not_exists] at accepted
        have asks : ∀ uri, ¬AsksForFile request uri := fun uri asks => accepted uri asks.toAccepted
        have stores : ∀ uri, ¬StoresBody request uri :=
          fun uri stores => accepted uri stores.toAccepted
        rcases handleFilesystemRequest_otherwise stores asks with ⟨code, used, refused⟩
        rw [refused]
        exact iff_of_true (createdMeansStored_refuse (List.mem_cons_of_mem _ used) _ _)
          (Or.inl accepted)

end Received

/-- An operating system that stores a body of three bytes. -/
def storing : Environment :=
  { idle with openFile := fun _ => some 7, write := fun call => some (if call = 0 then 3 else 1) }

theorem threeByteRequest_answered (env : Environment) :
    ∃ buffer outcome, freshConnection.receive threeByteRequest = some buffer ∧
      buffer.text = threeByteRequest ∧
      threadTask Routes.ofMain.dictionary env 0 freshConnection (.received threeByteRequest) =
        some outcome ∧
      outcome.dispatched = some buffer.text := by
  have short : threeByteRequest.length < bufferSize := by decide
  have noNul : 0 ∉ threeByteRequest := by decide
  have nonempty : threeByteRequest ≠ [] := by decide
  rcases receive_freshConnection short noNul with ⟨buffer, received, text, readLength⟩
  have ran := threadTask_of_receive Routes.ofMain.dictionary env 0 nonempty received
  have complete : requestComplete buffer.text buffer.readLength = true := by
    rw [text, readLength]
    decide
  rw [if_pos complete] at ran
  exact ⟨buffer, _, received, text, ran, dispatched_answerRequest⟩

theorem threeByteRequest_stored :
    ∃ buffer outcome, freshConnection.receive threeByteRequest = some buffer ∧
      threadTask Routes.ofMain.dictionary storing 0 freshConnection (.received threeByteRequest) =
        some outcome ∧
      CreatedMeansStored (buffer.pending.drop 39) 3 outcome.actions := by
  rcases threeByteRequest_answered storing with
    ⟨buffer, outcome, received, text, ran, dispatched⟩
  have isSection : strstr buffer.text headersEnd = some 35 := by
    rw [text]
    decide
  have isPost : (httpRequestConstructor buffer.text).method = some (bytes "POST") := by
    rw [text]
    decide
  have declared : declaredLength buffer.text = some ((3 : ℕ) : ℤ) := by
    rw [text]
    decide
  have writes : WritesRecord storing (bodyPart buffer.text) 3 := by
    rw [text]
    exact ⟨rfl, Or.inl (by decide)⟩
  exact ⟨buffer, outcome, received, ran,
    (created_means_stored_iff received ran dispatched isSection isPost declared).mpr
      (Or.inr (Or.inr writes))⟩

/-- When `open` fails the body is lost and the answer is 201 all the same. -/
theorem threeByteRequest_lost :
    ¬∀ (routes : Routes) (env : Environment) (now : ℤ) (conn : ClientConnection) (piece : Bytes)
      (buffer : ReadBuffer) (outcome : TaskOutcome) (sectionEnd length : ℕ),
        conn.receive piece = some buffer →
        threadTask routes.dictionary env now conn (.received piece) = some outcome →
        outcome.dispatched = some buffer.text →
        strstr buffer.text headersEnd = some sectionEnd →
        (httpRequestConstructor buffer.text).method = some (bytes "POST") →
        declaredLength buffer.text = some (length : ℤ) →
        CreatedMeansStored (buffer.pending.drop (sectionEnd + 4)) length outcome.actions := by
  intro meansStored
  rcases threeByteRequest_answered idle with ⟨buffer, outcome, received, text, ran, dispatched⟩
  have means := meansStored Routes.ofMain idle 0 _ _ _ _ 35 3 received ran dispatched
    (by rw [text]; decide) (by rw [text]; decide) (by rw [text]; decide)
  rcases eq_answerRequest_of_dispatched ran dispatched with ⟨own, ownText, rfl⟩
  rw [actions_answerRequest, ownText, text, Routes.dispatch_eq,
    if_pos (show Routes.ofMain.handles (httpRequestConstructor threeByteRequest) by decide),
    handleFilesystemRequest_of_storesBody
      (show StoresBody (httpRequestConstructor threeByteRequest) (bytes "/a") from
        ⟨⟨by decide, by decide, by decide⟩, by decide, by decide⟩)] at means
  have declared : ((httpRequestConstructor threeByteRequest).header "content-length").isSome := by
    decide
  rcases means.stored (answersWith_handlePost declared) with ⟨record, -, -, isRecord⟩
  rw [appended_handlePost declared] at isRecord
  simp [idle, bytes] at isRecord

end LetUsConnect
