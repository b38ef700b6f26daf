import LetUsConnect.Connection.WirePrefix
import LetUsConnect.Handler.Answers

/-!
# `HEAD` and `GET`

What the socket gets in answer to a `HEAD` request, compared with the head of the
answer to the same request with `GET`. The branch that serves a file looks at
the method before it sends the body. The other branches answer through
`send_error`, which does not know the method and always sends a page.
-/

namespace LetUsConnect

open CString

/-- Two requests that differ in their methods only. -/
structure HeadAndGet (headRequest getRequest : HTTPRequest) : Prop where
  isHead : headRequest.method = some (bytes "HEAD")
  isGet : getRequest.method = some (bytes "GET")
  uri : headRequest.uri = getRequest.uri
  httpVersion : headRequest.httpVersion = getRequest.httpVersion
  headerFields : headRequest.headerFields = getRequest.headerFields

/-- Every writing call among the actions succeeds with the system calls to come. -/
def AllSucceed : List Action → List SystemCall → Prop
  | [], _ => True
  | action :: actions, calls =>
      (action.transfer calls).ended = .returned 0 ∧
        AllSucceed actions (action.transfer calls).rest

/-- What the first actions put on the socket is the only head among the second ones. -/
def SendsHeadOf (actions getActions : List Action) : Prop :=
  ∀ calls, AllSucceed actions calls → getActions.filterMap Action.head = [wire actions calls]

/-- The answer to the `HEAD` request is the head of the answer to the `GET` request. -/
def AnswersAsGet (env : Environment) (headRequest getRequest : HTTPRequest) : Prop :=
  SendsHeadOf (handleFilesystemRequest env headRequest) (handleFilesystemRequest env getRequest)

/-- The request names a file that can be opened. -/
def NamesFile (env : Environment) (request : HTTPRequest) : Prop :=
  ∃ uri path status fileFd, AsksForFile request uri ∧
    resolvePath env uri = some (path, status) ∧ env.openFile path = some fileFd

/-! ## Runs in which every call succeeds -/

/-- An action that succeeds puts its bytes on the socket. -/
def Action.Delivers (action : Action) : Prop :=
  ∀ calls, (action.transfer calls).ended = .returned 0 →
    (action.transfer calls).accepted = action.intended

theorem delivers_sendHead (buffer : Bytes) : (Action.sendHead buffer buffer.length).Delivers :=
  fun _ success => sendAll_accepted success

theorem delivers_sendBody (buffer : Bytes) : (Action.sendBody buffer buffer.length).Delivers :=
  fun _ success => sendAll_accepted success

theorem wire_of_allSucceed {actions : List Action} {calls : List SystemCall}
    (deliver : ∀ action ∈ actions, action.Delivers) (succeed : AllSucceed actions calls) :
    wire actions calls = actions.flatMap Action.intended := by
  induction actions generalizing calls with
  | nil => rfl
  | cons action actions ih =>
      rcases succeed with ⟨success, rest⟩
      have notRunning : (action.transfer calls).ended ≠ .running := by
        rw [success]
        exact fun impossible => by cases impossible
      rw [wire, if_neg notRunning, deliver action List.mem_cons_self calls success,
        ih (fun other member => deliver other (List.mem_cons_of_mem _ member)) rest,
        List.flatMap_cons]

theorem sendAll_once_and_rest {buffer : Bytes} (nonempty : buffer ≠ []) (calls : List SystemCall) :
    sendAll buffer buffer.length (.send (.count buffer.length) :: calls) =
      ⟨buffer, .returned 0, calls⟩ := by
  have positive : 0 < buffer.length := List.length_pos_iff.mpr nonempty
  have notFailed : (buffer.length : ℤ) ≠ -1 := by omega
  cases calls <;> simp [sendAll, sendAllLoop, returnValue, positive, notFailed]

/-! ## The branches -/

section Branches

variable {env : Environment} {request : HTTPRequest} {code : ℕ}

theorem errorHead_ne_nil : errorHead code ≠ [] := List.cons_ne_nil _ _

theorem errorBody_ne_nil : errorBody code ≠ [] := List.cons_ne_nil _ _

theorem wire_refuse (used : code ∈ errorCodes) {calls : List SystemCall}
    (succeed : AllSucceed (refuse env request code) calls) :
    wire (refuse env request code) calls = errorHead code ++ errorBody code := by
  rw [refuse, sendError_eq used] at succeed ⊢
  rw [wire_of_allSucceed _ succeed]
  · simp [Action.intended]
  · intro action member
    simp only [List.cons_append, List.nil_append, List.mem_cons, List.not_mem_nil, or_false]
      at member
    rcases member with rfl | rfl | rfl
    · exact delivers_sendHead _
    · exact delivers_sendBody _
    · exact fun _ _ => rfl

/-- Some run of a refusal succeeds. -/
theorem allSucceed_refuse (used : code ∈ errorCodes) :
    AllSucceed (refuse env request code)
      [.send (.count (errorHead code).length), .send (.count (errorBody code).length)] := by
  rw [refuse, sendError_eq used]
  simp only [List.cons_append, List.nil_append, AllSucceed, Action.transfer,
    sendAll_once_and_rest errorHead_ne_nil, sendAll_once_and_rest errorBody_ne_nil, and_self]

end Branches

/-! ## Comparing the two requests -/

namespace HeadAndGet

variable {env : Environment} {headRequest getRequest : HTTPRequest}

/-- Both ask for the same file, or both are refused with the same status. -/
theorem asks_or_refused (pair : HeadAndGet headRequest getRequest) (env : Environment) :
    (∃ uri, AsksForFile headRequest uri ∧ AsksForFile getRequest uri) ∨
      ∃ code ∈ refusals,
        handleFilesystemRequest env headRequest = refuse env headRequest code ∧
        handleFilesystemRequest env getRequest = refuse env getRequest code := by
  have getUri := pair.uri.symm
  have getVersion := pair.httpVersion.symm
  cases hasUri : headRequest.uri with
  | none =>
      rw [hasUri] at getUri
      refine Or.inr ⟨400, by decide, ?_, ?_⟩
      · simp only [handleFilesystemRequest, pair.isHead, hasUri]
      · simp only [handleFilesystemRequest, pair.isGet, getUri]
  | some uri =>
      cases hasVersion : headRequest.httpVersion with
      | none =>
          rw [hasUri] at getUri
          rw [hasVersion] at getVersion
          refine Or.inr ⟨400, by decide, ?_, ?_⟩
          · simp only [handleFilesystemRequest, pair.isHead, hasUri, hasVersion]
          · simp only [handleFilesystemRequest, pair.isGet, getUri, getVersion]
      | some httpVersion =>
          rw [hasUri] at getUri
          rw [hasVersion] at getVersion
          by_cases isVersion : httpVersion = bytes "HTTP/1.1"
          · by_cases climbs : traverses uri
            · refine Or.inr ⟨403, by decide, ?_, ?_⟩
              · simp [handleFilesystemRequest, pair.isHead, hasUri, hasVersion, isVersion, climbs]
              · simp [handleFilesystemRequest, pair.isGet, getUri, getVersion, isVersion, climbs]
            · rw [Bool.not_eq_true] at climbs
              exact Or.inl ⟨uri, ⟨⟨hasUri, isVersion ▸ hasVersion, climbs⟩, Or.inr pair.isHead⟩,
                ⟨⟨getUri, isVersion ▸ getVersion, climbs⟩, Or.inl pair.isGet⟩⟩
          · refine Or.inr ⟨505, by decide, ?_, ?_⟩
            · simp [handleFilesystemRequest, pair.isHead, hasUri, hasVersion, isVersion]
            · simp [handleFilesystemRequest, pair.isGet, getUri, getVersion, isVersion]

end HeadAndGet

theorem sendsHeadOf_openFile {path other : Bytes} {fileFd otherFd : Option ℕ}
    {actions getActions : List Action} :
    SendsHeadOf (.openFile path fileFd :: actions) (.openFile other otherFd :: getActions) ↔
      SendsHeadOf actions getActions := by
  have passes : ∀ calls, AllSucceed (.openFile path fileFd :: actions) calls ↔
      AllSucceed actions calls := fun calls => by simp [AllSucceed, Action.transfer]
  have sameWire : ∀ calls, wire (.openFile path fileFd :: actions) calls = wire actions calls :=
    fun _ => rfl
  simp only [SendsHeadOf, passes, sameWire]
  rfl

section Answers

variable {env : Environment} {headRequest getRequest : HTTPRequest}

/-- A page is sent with every refusal. -/
theorem not_sendsHeadOf_refuse {code : ℕ} (used : code ∈ errorCodes) :
    ¬SendsHeadOf (refuse env headRequest code) (refuse env getRequest code) := by
  intro sends
  have succeed := @allSucceed_refuse env headRequest code used
  have same := sends _ succeed
  rw [(answers_refuse used).heads, wire_refuse used succeed, List.singleton_inj,
    List.self_eq_append_right] at same
  exact errorBody_ne_nil same

theorem sendsHeadOf_serveFile (sameFields : headRequest.headerFields = getRequest.headerFields)
    (localPath : Bytes) (status : FileStatus) (fileFd : ℕ) :
    SendsHeadOf (serveFile env headRequest false localPath status fileFd)
      (serveFile env getRequest true localPath status fileFd) := by
  have sameKeepAlive : keepAlive headRequest = keepAlive getRequest := by
    simp only [keepAlive, HTTPRequest.header, sameFields]
  intro calls succeed
  rw [(answers_serveFile true localPath status fileFd).heads, wire_of_allSucceed _ succeed,
    serveFile_eq, sameKeepAlive]
  · simp [Action.intended]
  · intro action member
    rw [serveFile_eq] at member
    simp only [Bool.false_eq_true, if_false, List.nil_append, List.mem_cons, List.not_mem_nil,
      or_false] at member
    rcases member with rfl | rfl | rfl
    · exact delivers_sendHead _
    · exact fun _ _ => rfl
    · exact fun _ _ => rfl

theorem sendsHeadOf_handleFile_iff
    (sameFields : headRequest.headerFields = getRequest.headerFields) (uri : Bytes) :
    SendsHeadOf (handleFile env headRequest false uri) (handleFile env getRequest true uri) ↔
      ∃ path status fileFd, resolvePath env uri = some (path, status) ∧
        env.openFile path = some fileFd := by
  rw [handleFile, handleFile]
  cases resolved : resolvePath env uri with
  | none =>
      refine iff_of_false (not_sendsHeadOf_refuse (by decide)) ?_
      rintro ⟨path, status, fileFd, impossible, -⟩
      cases impossible
  | some found =>
      dsimp only
      rw [sendsHeadOf_openFile]
      cases opened : env.openFile found.1 with
      | none =>
          refine iff_of_false (not_sendsHeadOf_refuse (by decide)) ?_
          rintro ⟨path, status, fileFd, same, isOpen⟩
          rw [Option.some.injEq] at same
          rw [same, isOpen] at opened
          cases opened
      | some fileFd =>
          refine iff_of_true (sendsHeadOf_serveFile sameFields _ _ _) ?_
          exact ⟨found.1, found.2, fileFd, rfl, opened⟩

/--
A `HEAD` request is answered with the head for the `GET` request and nothing
else exactly when it names a file that can be opened.
-/
theorem answersAsGet_iff (pair : HeadAndGet headRequest getRequest) :
    AnswersAsGet env headRequest getRequest ↔ NamesFile env headRequest := by
  rw [AnswersAsGet]
  rcases pair.asks_or_refused env with ⟨uri, headAsks, getAsks⟩ | ⟨code, used, refused, getRefused⟩
  · have notGet : ¬headRequest.method = some (bytes "GET") := by
      rw [pair.isHead]
      decide
    rw [handleFilesystemRequest_of_asksForFile headAsks,
      handleFilesystemRequest_of_asksForFile getAsks, decide_eq_false notGet,
      decide_eq_true pair.isGet, sendsHeadOf_handleFile_iff pair.headerFields]
    constructor
    · rintro ⟨path, status, fileFd, resolved, opened⟩
      exact ⟨uri, path, status, fileFd, headAsks, resolved, opened⟩
    · rintro ⟨other, path, status, fileFd, asks, resolved, opened⟩
      rw [Option.some.inj (asks.hasUri.symm.trans headAsks.hasUri)] at resolved
      exact ⟨path, status, fileFd, resolved, opened⟩
  · rw [refused, getRefused]
    refine iff_of_false (not_sendsHeadOf_refuse (List.mem_cons_of_mem _ used)) ?_
    rintro ⟨uri, path, status, fileFd, asks, resolved, -⟩
    rw [handleFilesystemRequest_of_asksForFile asks, handleFile, resolved] at refused
    simp [refuse, sendError, sendResponseHead] at refused

end Answers

/-- The page request of `filesOfSize` with the other method. -/
def pageHeadRequest : HTTPRequest := httpRequestConstructor (bytes "HEAD /a HTTP/1.1\r\n\r\n")

theorem pageHeadRequest_pair : HeadAndGet pageHeadRequest pageRequest := by
  have none_ : pageHeadRequest.headerFields = dictionaryConstructor := rfl
  have alsoNone : pageRequest.headerFields = dictionaryConstructor := rfl
  exact ⟨by decide, by decide, by decide, by decide, none_.trans alsoNone.symm⟩

theorem pageHeadRequest_answered :
    AnswersAsGet (filesOfSize 5) pageHeadRequest pageRequest ↔
      NamesFile (filesOfSize 5) pageHeadRequest :=
  answersAsGet_iff pageHeadRequest_pair

/-- The answer to a `HEAD` request for a missing file has a body. -/
theorem missingFile_answeredWithBody :
    ¬∀ (env : Environment) (headRequest getRequest : HTTPRequest),
        HeadAndGet headRequest getRequest → AnswersAsGet env headRequest getRequest := by
  intro always
  have asks : AsksForFile pageHeadRequest (bytes "/a") :=
    ⟨⟨by decide, by decide, by decide⟩, by decide⟩
  have same := always idle pageHeadRequest pageRequest pageHeadRequest_pair
  rw [AnswersAsGet, handleFilesystemRequest_of_asksForFile asks,
    handleFilesystemRequest_of_asksForFile pageRequest_asks] at same
  exact @not_sendsHeadOf_refuse idle pageHeadRequest pageRequest 404 (by decide) same

end LetUsConnect
