import LetUsConnect.Connection
import LetUsConnect.Handler.ResponseHeads

/-!
# Announced and actual persistence

The worker keeps a connection open by the `Connection` header of the request
alone. The handler announces the same for its successful answers, while
`send_error` always announces that the connection closes.
-/

namespace LetUsConnect

open CString

/-- The line of a head that tells whether the connection persists. -/
def connectionLine (head : Bytes) : Option Bytes :=
  (tokens isLineEnd head).find? (bytes "Connection: ").isPrefixOf

/-- A head among the actions carries `Connection: close`. -/
def AnnouncesClose (actions : List Action) : Prop :=
  ∃ buffer len, Action.sendHead buffer len ∈ actions ∧
    connectionLine buffer = some (bytes "Connection: close")

/-- The request finds a handler and is answered with 200 or 201. -/
def Succeeds (routes : Routes) (env : Environment) (request : HTTPRequest) : Prop :=
  routes.handles request = true ∧
    ((∃ uri, StoresBody request uri) ∨
      ∃ uri, AsksForFile request uri ∧ ∃ path status,
        resolvePath env uri = some (path, status) ∧ (env.openFile path).isSome)

/-! ## The connection line of each head -/

theorem connectionLine_headText {status text contentType : Bytes} (statusIsLine : IsLine status)
    (textIsLine : IsLine text) (typeIsLine : IsLine contentType) (contentLength : ℤ)
    (extra : Option Bytes) (keepAlive : Bool) :
    connectionLine (headText status text contentType contentLength extra keepAlive) =
      some (bytes "Connection: " ++ if keepAlive then bytes "keep-alive" else bytes "close") := by
  rw [connectionLine, tokens_headText statusIsLine textIsLine typeIsLine]
  cases keepAlive <;> rfl

theorem connectionLine_eq_close_iff {status text contentType : Bytes}
    (statusIsLine : IsLine status) (textIsLine : IsLine text) (typeIsLine : IsLine contentType)
    (contentLength : ℤ) (extra : Option Bytes) (keepAlive : Bool) :
    connectionLine (headText status text contentType contentLength extra keepAlive) =
      some (bytes "Connection: close") ↔ keepAlive = false := by
  rw [connectionLine_headText statusIsLine textIsLine typeIsLine]
  cases keepAlive <;> decide

theorem connectionLine_errorHead {code : ℕ} (used : code ∈ errorCodes) :
    connectionLine (errorHead code) = some (bytes "Connection: close") := by
  have parts : ∀ code ∈ errorCodes, IsLine (errorText code) := by decide
  exact (connectionLine_eq_close_iff (isLine_decimal _) (parts code used) (by decide) _ _ _).mpr rfl

theorem connectionLine_fileHead_iff (path : Bytes) (size : ℕ) (keepAlive : Bool) :
    connectionLine (fileHead path size keepAlive) = some (bytes "Connection: close") ↔
      keepAlive = false :=
  connectionLine_eq_close_iff (by decide) (by decide) (mimeType_parts path).1 _ _ _

theorem connectionLine_createdHead_iff (uri : Bytes) (keepAlive : Bool) :
    connectionLine (createdHead uri keepAlive) = some (bytes "Connection: close") ↔
      keepAlive = false :=
  connectionLine_eq_close_iff (by decide) (by decide) (by decide) _ _ _

/-! ## What the answers announce -/

theorem announcesClose_refuse (env : Environment) (request : HTTPRequest) {code : ℕ}
    (used : code ∈ errorCodes) : AnnouncesClose (refuse env request code) :=
  ⟨errorHead code, (errorHead code).length, by simp [refuse, sendError_eq used],
    connectionLine_errorHead used⟩

theorem AnnouncesClose.cons {actions : List Action} (announces : AnnouncesClose actions)
    (action : Action) : AnnouncesClose (action :: actions) := by
  rcases announces with ⟨buffer, len, member, line⟩
  exact ⟨buffer, len, List.mem_cons_of_mem _ member, line⟩

theorem announcesClose_handlePost_iff {env : Environment} {request : HTTPRequest} {uri : Bytes}
    (declared : (request.header "content-length").isSome) :
    AnnouncesClose (handlePost env request uri) ↔ keepAlive request = false := by
  rw [← connectionLine_createdHead_iff uri (keepAlive request)]
  simp only [AnnouncesClose, sendHead_mem_handlePost_iff declared]
  constructor
  · rintro ⟨_, _, ⟨rfl, rfl⟩, line⟩
    exact line
  · intro line
    exact ⟨_, _, ⟨rfl, rfl⟩, line⟩

theorem announcesClose_serveFile_iff (env : Environment) {request : HTTPRequest} (isGet : Bool)
    (localPath : Bytes) (status : FileStatus) (fileFd : ℕ) :
    AnnouncesClose (serveFile env request isGet localPath status fileFd) ↔
      keepAlive request = false := by
  rw [← connectionLine_fileHead_iff localPath status.size (keepAlive request), serveFile_eq]
  constructor
  · rintro ⟨buffer, len, member, line⟩
    have isHead : buffer = fileHead localPath status.size (keepAlive request) := by
      cases isGet <;> simp at member <;> exact member.1
    rwa [← isHead]
  · exact fun line => ⟨_, _, List.mem_cons_self, line⟩

theorem announcesClose_handleFile_iff {env : Environment} {request : HTTPRequest} {isGet : Bool}
    {uri : Bytes} :
    AnnouncesClose (handleFile env request isGet uri) ↔
      ((∃ path status, resolvePath env uri = some (path, status) ∧ (env.openFile path).isSome) →
        keepAlive request = false) := by
  rw [handleFile]
  cases resolved : resolvePath env uri with
  | none =>
      refine iff_of_true (announcesClose_refuse env request (by decide)) ?_
      rintro ⟨path, status, impossible, -⟩
      simp at impossible
  | some found =>
      rcases found with ⟨localPath, status⟩
      dsimp only
      cases opened : env.openFile localPath with
      | none =>
          refine iff_of_true ((announcesClose_refuse env request (by decide)).cons _) ?_
          rintro ⟨path, other, same, isOpen⟩
          cases same
          simp [opened] at isOpen
      | some fileFd =>
          have served : AnnouncesClose (.openFile localPath (some fileFd) ::
              serveFile env request isGet localPath status fileFd) ↔ keepAlive request = false := by
            rw [← announcesClose_serveFile_iff env isGet localPath status fileFd]
            refine ⟨?_, fun announces => announces.cons _⟩
            rintro ⟨buffer, len, member, line⟩
            exact ⟨buffer, len, List.mem_of_ne_of_mem (by simp) member, line⟩
          rw [answerOpened, served]
          exact ⟨fun closes _ => closes,
            fun closes => closes ⟨localPath, status, rfl, by rw [opened]; rfl⟩⟩

theorem announcesClose_dispatch_iff (routes : Routes) (env : Environment)
    (request : HTTPRequest) :
    AnnouncesClose (dispatch routes.dictionary env request) ↔
      (Succeeds routes env request → keepAlive request = false) := by
  rw [routes.dispatch_eq]
  split_ifs with handled
  · by_cases stores : ∃ uri, StoresBody request uri
    · rcases stores with ⟨uri, stores⟩
      rw [handleFilesystemRequest_of_storesBody stores,
        announcesClose_handlePost_iff stores.declared]
      exact ⟨fun line _ => line, fun line => line ⟨handled, Or.inl ⟨uri, stores⟩⟩⟩
    · by_cases asks : ∃ uri, AsksForFile request uri
      · rcases asks with ⟨uri, asks⟩
        rw [handleFilesystemRequest_of_asksForFile asks, announcesClose_handleFile_iff]
        refine imp_congr_left ⟨fun serves => ⟨handled, Or.inr ⟨uri, asks, serves⟩⟩, ?_⟩
        rintro ⟨-, stored | ⟨other, otherAsks, serves⟩⟩
        · exact absurd stored stores
        · rwa [Option.some.inj (asks.hasUri.symm.trans otherAsks.hasUri)]
      · rcases handleFilesystemRequest_otherwise (not_exists.mp stores) (not_exists.mp asks) with
          ⟨code, used, refused⟩
        rw [refused]
        refine iff_of_true (announcesClose_refuse env request (List.mem_cons_of_mem _ used)) ?_
        rintro ⟨-, stored | ⟨uri, asksUri, -⟩⟩
        · exact absurd stored stores
        · exact absurd ⟨uri, asksUri⟩ asks
  · refine iff_of_true ?_ fun succeeds => absurd succeeds.1 handled
    exact ⟨errorHead 404, _, by rw [sendError_eq (by decide)]; exact List.mem_cons_self,
      connectionLine_errorHead (by decide)⟩

/--
Announced and actual persistence agree exactly when the request asks to close or
is answered with 200 or 201.
-/
theorem persistence_agrees_iff (routes : Routes) {env : Environment} {now : ℤ}
    {conn : ClientConnection} {result : RecvResult} {outcome : TaskOutcome} {text : Bytes}
    (active : conn.isActive)
    (ran : threadTask routes.dictionary env now conn result = some outcome)
    (dispatched : outcome.dispatched = some text) :
    (outcome.closed = true ↔ AnnouncesClose outcome.actions) ↔
      (keepAlive (httpRequestConstructor text) = false ∨
        Succeeds routes env (httpRequestConstructor text)) := by
  rcases eq_answerRequest_of_dispatched ran dispatched with ⟨buffer, rfl, rfl⟩
  rw [closed_answerRequest active, actions_answerRequest, announcesClose_dispatch_iff,
    Bool.not_eq_true']
  tauto

/-- A request for a file that does not exist, on a connection that is to be kept. -/
def missingFileRequest : Bytes := bytes "GET /a HTTP/1.1\r\n\r\n"

theorem missingFileRequest_answered :
    ∃ buffer : ReadBuffer, buffer.text = missingFileRequest ∧
      threadTask Routes.ofMain.dictionary idle 0 freshConnection (.received missingFileRequest) =
        some (answerRequest Routes.ofMain.dictionary idle 0 freshConnection buffer) :=
  threadTask_complete _ _ _ rfl (by decide) (by decide) (by decide) (by decide)

theorem missingFileRequest_persistence :
    ∃ outcome, threadTask Routes.ofMain.dictionary idle 0 freshConnection
        (.received missingFileRequest) = some outcome ∧
      ((outcome.closed = true ↔ AnnouncesClose outcome.actions) ↔
        (keepAlive (httpRequestConstructor missingFileRequest) = false ∨
          Succeeds Routes.ofMain idle (httpRequestConstructor missingFileRequest))) := by
  rcases missingFileRequest_answered with ⟨buffer, text, ran⟩
  exact ⟨_, ran, persistence_agrees_iff Routes.ofMain rfl ran (by
    rw [dispatched_answerRequest, text])⟩

/-- The 404 announces `close`, and the connection stays open. -/
theorem missingFileRequest_disagrees :
    ¬∀ (routes : Routes) (env : Environment) (now : ℤ) (conn : ClientConnection)
      (result : RecvResult) (outcome : TaskOutcome) (text : Bytes), conn.isActive = true →
        threadTask routes.dictionary env now conn result = some outcome →
          outcome.dispatched = some text →
            (outcome.closed = true ↔ AnnouncesClose outcome.actions) := by
  intro agrees
  rcases missingFileRequest_answered with ⟨buffer, text, ran⟩
  have disagree := agrees Routes.ofMain idle 0 freshConnection _ _ _ rfl ran
    dispatched_answerRequest
  rw [closed_answerRequest rfl, actions_answerRequest, announcesClose_dispatch_iff, text]
    at disagree
  have kept : keepAlive (httpRequestConstructor missingFileRequest) = true := by decide
  have fails : ¬Succeeds Routes.ofMain idle (httpRequestConstructor missingFileRequest) := by
    rintro ⟨-, ⟨uri, stores⟩ | ⟨uri, -, path, status, resolved, -⟩⟩
    · exact absurd stores.isPost (by decide)
    · simp [resolvePath, checkAgain, idle] at resolved
  rw [kept] at disagree
  simp [fails] at disagree

end LetUsConnect
